import InetManet.Ethernet.MAC

/-!
# States and timers of the MAC

Each state of the transmitter but the idle one has its own timer, which runs exactly in this state,
and the receiver's timer runs while something is being received. With this the error branches of the
handlers cannot be reached. The transmitter does not idle on a queued frame and a free channel.

Two steps break this. A PAUSE frame of no time cancels the timer of a running pause, and a frame that
is given up when the channel is already free again leaves the frames behind it waiting.
-/

namespace InetManet

open TransitionSystem

namespace EtherMAC

variable {cfg : Config} {s s' : EtherMAC} {frame : EtherFrame} {time : ℚ}

/-! ## The invariant -/

/-- A frame is on its way out. -/
def TransmitState.isBusy : TransmitState → Bool
  | txIdle => false
  | pause => false
  | _ => true

structure Transmitter (s : EtherMAC) : Prop where
  endIFG : s.endIFGMsg.isSome ↔ s.transmitState = .waitIfg
  endTx : s.endTxMsg.isSome ↔ s.transmitState = .transmitting
  endJamming : s.endJammingMsg.isSome ↔ s.transmitState = .jamming
  endBackoff : s.endBackoffMsg.isSome ↔ s.transmitState = .backoff
  endPause : s.endPauseMsg.isSome ↔ s.transmitState = .pause
  queue : s.transmitState.isBusy = true → s.txQueue ≠ []

structure Receiver (s : EtherMAC) : Prop where
  endRx : s.endRxMsg.isSome ↔ s.receiveState ≠ .rxIdle
  frame : s.frameBeingReceived.isSome ↔ s.receiveState = .receiving

/-- The transmitter does nothing although it could send. -/
def Stalled (s : EtherMAC) : Prop :=
  s.transmitState = .txIdle ∧ s.txQueue ≠ [] ∧ (s.duplexMode = true ∨ s.receiveState = .rxIdle)

instance (s : EtherMAC) : Decidable s.Stalled :=
  inferInstanceAs (Decidable (s.transmitState = .txIdle ∧ s.txQueue ≠ [] ∧
    (s.duplexMode = true ∨ s.receiveState = .rxIdle)))

structure Inv (s : EtherMAC) : Prop where
  transmitter : Transmitter s
  receiver : Receiver s
  halfDuplex : s.duplexMode = false → s.transmitState = .transmitting → s.receiveState = .rxIdle
  fullDuplex : s.duplexMode = true → s.transmitState ≠ .jamming ∧ s.transmitState ≠ .backoff
  notStalled : s.autoconfigInProgress = false → ¬ s.Stalled
  autoconfig : s.autoconfigInProgress = true →
    s.transmitState = .txIdle ∧ s.receiveState = .rxIdle
  configured : s.autoconfigInProgress = false → s.endAutoconfigMsg = none

/-- No timer of the transmitter is running. -/
structure Quiet (s : EtherMAC) : Prop where
  endIFG : s.endIFGMsg = none
  endTx : s.endTxMsg = none
  endJamming : s.endJammingMsg = none
  endBackoff : s.endBackoffMsg = none
  endPause : s.endPauseMsg = none

/-- The module is configured and its transmitter is between two states. -/
structure Between (s : EtherMAC) : Prop where
  quiet : Quiet s
  receiver : Receiver s
  configured : s.autoconfigInProgress = false
  endAutoconfig : s.endAutoconfigMsg = none

/-- What the invariant is about. -/
def core (s : EtherMAC) :=
  (s.transmitState, s.receiveState, s.txQueue, s.frameBeingReceived, s.endIFGMsg, s.endTxMsg,
    s.endJammingMsg, s.endBackoffMsg, s.endPauseMsg, s.endRxMsg, s.duplexMode,
    s.autoconfigInProgress, s.endAutoconfigMsg)

theorem Transmitter.of_core (h : Transmitter s) (heq : s'.core = s.core) : Transmitter s' := by
  simp only [core, Prod.mk.injEq] at heq
  obtain ⟨h1, -, h3, -, h5, h6, h7, h8, h9, -⟩ := heq
  constructor
  · simpa only [h1, h5] using h.endIFG
  · simpa only [h1, h6] using h.endTx
  · simpa only [h1, h7] using h.endJamming
  · simpa only [h1, h8] using h.endBackoff
  · simpa only [h1, h9] using h.endPause
  · simpa only [h1, h3] using h.queue

theorem Receiver.of_core (h : Receiver s) (heq : s'.core = s.core) : Receiver s' := by
  simp only [core, Prod.mk.injEq] at heq
  obtain ⟨-, h2, -, h4, -, -, -, -, -, h10, -⟩ := heq
  constructor
  · simpa only [h2, h10] using h.endRx
  · simpa only [h2, h4] using h.frame

theorem Inv.of_core (h : Inv s) (heq : s'.core = s.core) : Inv s' := by
  have htransmitter := h.transmitter.of_core heq
  have hreceiver := h.receiver.of_core heq
  simp only [core, Prod.mk.injEq] at heq
  obtain ⟨h1, h2, h3, -, -, -, -, -, -, -, h11, h12, h13⟩ := heq
  constructor
  · exact htransmitter
  · exact hreceiver
  · simpa only [h1, h2, h11] using h.halfDuplex
  · simpa only [h1, h11] using h.fullDuplex
  · simpa only [Stalled, h1, h2, h3, h11, h12] using h.notStalled
  · simpa only [h1, h2, h12] using h.autoconfig
  · simpa only [h12, h13] using h.configured

theorem initialized_inv (cfg : Config) : Inv (initialized cfg) := by
  constructor
  · constructor <;> simp [initialized, TransmitState.isBusy]
  · constructor <;> simp [initialized]
  all_goals simp [initialized]

section

variable (h : Transmitter s)

include h

theorem Transmitter.quiet_of_txIdle (hstate : s.transmitState = .txIdle) :
    Quiet s := by
  obtain ⟨h1, h2, h3, h4, h5, -⟩ := h
  constructor <;> simp_all

theorem Transmitter.quiet_endIFG (hstate : s.transmitState = .waitIfg) :
    Quiet { s with endIFGMsg := none } := by
  obtain ⟨h1, h2, h3, h4, h5, -⟩ := h
  constructor <;> simp_all

theorem Transmitter.quiet_endTx (hstate : s.transmitState = .transmitting) :
    Quiet { s with endTxMsg := none } := by
  obtain ⟨h1, h2, h3, h4, h5, -⟩ := h
  constructor <;> simp_all

theorem Transmitter.quiet_endJamming (hstate : s.transmitState = .jamming) :
    Quiet { s with endJammingMsg := none } := by
  obtain ⟨h1, h2, h3, h4, h5, -⟩ := h
  constructor <;> simp_all

theorem Transmitter.quiet_endBackoff (hstate : s.transmitState = .backoff) :
    Quiet { s with endBackoffMsg := none } := by
  obtain ⟨h1, h2, h3, h4, h5, -⟩ := h
  constructor <;> simp_all

theorem Transmitter.quiet_endPause (hstate : s.transmitState = .pause) :
    Quiet { s with endPauseMsg := none } := by
  obtain ⟨h1, h2, h3, h4, h5, -⟩ := h
  constructor <;> simp_all

end

/-! ## Entering a state -/

@[simp] theorem scheduleAt_none (t : ℚ) : scheduleAt t none = .ok (some t) := rfl

theorem Quiet.waitIfg (h : Quiet s) (hqueue : s.txQueue ≠ []) (t : ℚ) :
    Transmitter { s with endIFGMsg := some t, transmitState := .waitIfg } := by
  constructor <;> simp [h.endTx, h.endJamming, h.endBackoff, h.endPause, hqueue]

theorem Quiet.transmitting (h : Quiet s) (hqueue : s.txQueue ≠ []) (t : ℚ) :
    Transmitter { s with endTxMsg := some t, transmitState := .transmitting } := by
  constructor <;> simp [h.endIFG, h.endJamming, h.endBackoff, h.endPause, hqueue]

theorem Quiet.jamming (h : Quiet s) (hqueue : s.txQueue ≠ []) (t : ℚ) :
    Transmitter { s with endJammingMsg := some t, transmitState := .jamming } := by
  constructor <;> simp [h.endIFG, h.endTx, h.endBackoff, h.endPause, hqueue]

theorem Quiet.backoff (h : Quiet s) (hqueue : s.txQueue ≠ []) (t : ℚ) :
    Transmitter { s with endBackoffMsg := some t, transmitState := .backoff } := by
  constructor <;> simp [h.endIFG, h.endTx, h.endJamming, h.endPause, hqueue]

theorem Quiet.pause (h : Quiet s) (t : ℚ) :
    Transmitter { s with endPauseMsg := some t, transmitState := .pause } := by
  constructor <;> simp [h.endIFG, h.endTx, h.endJamming, h.endBackoff, TransmitState.isBusy]

theorem Quiet.txIdle (h : Quiet s) : Transmitter { s with transmitState := .txIdle } := by
  constructor <;>
    simp [h.endIFG, h.endTx, h.endJamming, h.endBackoff, h.endPause, TransmitState.isBusy]

theorem Between.scheduleEndIFGPeriod (h : Between s) (hqueue : s.txQueue ≠ []) :
    Outcome s.scheduleEndIFGPeriod Inv (fun fault ↦ fault.isInternal = false) := by
  simp only [EtherMAC.scheduleEndIFGPeriod, h.quiet.endIFG, scheduleAt_none, ok_bind]
  exact {
    transmitter := h.quiet.waitIfg hqueue _
    receiver := ⟨h.receiver.endRx, h.receiver.frame⟩
    halfDuplex := by simp
    fullDuplex := by simp
    notStalled := by simp [Stalled]
    autoconfig := by simp [h.configured]
    configured := fun _ ↦ h.endAutoconfig }

theorem Between.scheduleEndPausePeriod (h : Between s) (pauseUnits : ℤ) :
    Outcome (s.scheduleEndPausePeriod pauseUnits) Inv (fun fault ↦ fault.isInternal = false) := by
  refine Outcome.ite (fun _ ↦ rfl) fun _ ↦ ?_
  rw [h.quiet.endPause, scheduleAt_none, ok_bind]
  exact {
    transmitter := h.quiet.pause _
    receiver := ⟨h.receiver.endRx, h.receiver.frame⟩
    halfDuplex := by simp
    fullDuplex := by simp
    notStalled := by simp [Stalled]
    autoconfig := by simp [h.configured]
    configured := fun _ ↦ h.endAutoconfig }

theorem Between.txIdle (h : Between s)
    (hqueue : s.txQueue = [] ∨ s.duplexMode = false ∧ s.receiveState ≠ .rxIdle) :
    Inv { s with transmitState := .txIdle } where
  transmitter := h.quiet.txIdle
  receiver := ⟨h.receiver.endRx, h.receiver.frame⟩
  halfDuplex := by simp
  fullDuplex := by simp
  notStalled := by
    rintro - ⟨-, hne, hfree⟩
    obtain hempty | ⟨hhalf, hbusy⟩ := hqueue
    · exact hne hempty
    · obtain hfull | hidle := hfree
      · simp [hhalf] at hfull
      · exact hbusy hidle
  autoconfig := by simp [h.configured]
  configured := fun _ ↦ h.endAutoconfig

theorem Between.beginSendFrames (h : Between s) :
    Outcome (s.beginSendFrames cfg) Inv (fun fault ↦ fault.isInternal = false) := by
  apply Outcome.ite
  · intro hqueue
    exact h.scheduleEndIFGPeriod hqueue
  · intro hqueue
    exact (h.txIdle (.inl (not_not.mp hqueue))).of_core rfl

/-! ## The transmitter -/

theorem Between.of_core (h : Between s) (heq : s'.core = s.core) : Between s' := by
  have hreceiver := h.receiver.of_core heq
  simp only [core, Prod.mk.injEq] at heq
  obtain ⟨-, -, -, -, h5, h6, h7, h8, h9, -, -, h12, h13⟩ := heq
  obtain ⟨hquiet, -, hconfigured, hend⟩ := h
  constructor
  · exact ⟨h5.trans hquiet.1, h6.trans hquiet.2, h7.trans hquiet.3, h8.trans hquiet.4,
      h9.trans hquiet.5⟩
  · exact hreceiver
  · exact h12.trans hconfigured
  · exact h13.trans hend

@[simp] theorem sendCopy_core : (s.sendCopy frame).core = s.core := by
  simp only [sendCopy]
  split <;> rfl

@[simp] theorem sendCopy_txQueue : (s.sendCopy frame).txQueue = s.txQueue := by
  simp only [sendCopy]
  split <;> rfl

theorem collide_core (h : s.frameBeingReceived.isSome ↔ s.receiveState = .receiving) :
    s.collide.core = { s with frameBeingReceived := none, receiveState := .rxCollision }.core := by
  by_cases hrx : s.receiveState = .receiving
  · simp [EtherMAC.collide, hrx, countCollision, core]
  · have hnone : s.frameBeingReceived = none := by simpa [hrx] using h
    simp [EtherMAC.collide, hrx, hnone, core]

/-- The transmission that has just been started meets a reception. -/
theorem Between.collide (h : Between s) (hqueue : s.txQueue ≠ []) (hhalf : s.duplexMode = false)
    (hrx : s.receiveState ≠ .rxIdle) :
    Outcome (do return (← s.sendJamSignal).collide) Inv (fun fault ↦ fault.isInternal = false) := by
  simp only [sendJamSignal, send, h.quiet.endJamming, scheduleAt_none, ok_bind]
  have hquiet : Quiet { s with frameBeingReceived := none, receiveState := .rxCollision } :=
    ⟨h.1.1, h.1.2, h.1.3, h.1.4, h.1.5⟩
  have hjam : Inv { s with
      endJammingMsg := some (s.now + s.params.jamDuration), transmitState := .jamming
      frameBeingReceived := none, receiveState := .rxCollision } := {
    transmitter := hquiet.jamming hqueue _
    receiver := ⟨by simp [h.receiver.endRx.mpr hrx], by simp⟩
    halfDuplex := by simp
    fullDuplex := by simp [hhalf]
    notStalled := by simp [Stalled]
    autoconfig := by simp [h.configured]
    configured := fun _ ↦ h.endAutoconfig }
  apply hjam.of_core
  rw [collide_core]
  · rfl
  · exact h.receiver.frame

theorem Between.startFrameTransmission (h : Between s) (hqueue : s.txQueue ≠ []) :
    Outcome s.startFrameTransmission Inv (fun fault ↦ fault.isInternal = false) := by
  cases hcons : s.txQueue with
  | nil => exact absurd hcons hqueue
  | cons front rest =>
    simp only [EtherMAC.startFrameTransmission, hcons]
    generalize ({ front with byteLength := _ } : EtherFrame) = copy
    have hcopy : Between (s.sendCopy copy) := h.of_core sendCopy_core
    have hqueue' : (s.sendCopy copy).txQueue ≠ [] := by simpa using hqueue
    apply Outcome.ite
    · intro hbusy
      simp only [Bool.and_eq_true, Bool.not_eq_true', bne_iff_ne] at hbusy
      exact hcopy.collide hqueue' hbusy.1 hbusy.2
    · intro hfree
      have hidle : (s.sendCopy copy).duplexMode = false →
          (s.sendCopy copy).receiveState = .rxIdle := by simpa using hfree
      simp only [scheduleEndTxPeriod, hcopy.quiet.endTx, scheduleAt_none, ok_bind]
      exact {
        transmitter := hcopy.quiet.transmitting hqueue' _
        receiver := ⟨hcopy.receiver.endRx, hcopy.receiver.frame⟩
        halfDuplex := fun hhalf _ ↦ hidle hhalf
        fullDuplex := by simp
        notStalled := by simp [Stalled]
        autoconfig := by simp [hcopy.configured]
        configured := fun _ ↦ hcopy.endAutoconfig }

@[simp] theorem extendCarrier_txQueue_eq_nil : s.extendCarrier.txQueue = [] ↔ s.txQueue = [] := by
  unfold extendCarrier
  cases hqueue : s.txQueue with
  | nil => simp [hqueue]
  | cons front rest =>
    dsimp only
    split <;> simp [hqueue]

theorem Between.extendCarrier (h : Between s) : Between s.extendCarrier := by
  unfold EtherMAC.extendCarrier
  cases s.txQueue with
  | nil => exact h
  | cons front rest =>
    dsimp only
    split
    · exact ⟨⟨h.1.1, h.1.2, h.1.3, h.1.4, h.1.5⟩, ⟨h.2.1, h.2.2⟩, h.3, h.4⟩
    · exact h

theorem Between.handleEndIFGPeriod (h : Between s) (hstate : s.transmitState = .waitIfg)
    (hqueue : s.txQueue ≠ []) :
    Outcome s.handleEndIFGPeriod Inv (fun fault ↦ fault.isInternal = false) := by
  simp only [EtherMAC.handleEndIFGPeriod, handleEndIFGPeriodBase, hstate, hqueue, ne_eq,
    not_true_eq_false, if_false, ok_bind]
  generalize hs : (if s.extendCarrier.params.frameBursting = true then _ else s.extendCarrier) = s₁
  have hcore : s₁.core = s.extendCarrier.core := by
    rw [← hs]
    split <;> rfl
  have hqueue₁ : s₁.txQueue = s.extendCarrier.txQueue := by
    rw [← hs]
    split <;> rfl
  apply (h.extendCarrier.of_core hcore).extendCarrier.startFrameTransmission
  simpa [hqueue₁] using hqueue

theorem Between.handleEndTxPeriod (h : Between s) (hstate : s.transmitState = .transmitting)
    (hqueue : s.txQueue ≠ []) (hrx : s.duplexMode = false → s.receiveState = .rxIdle) :
    Outcome (s.handleEndTxPeriod cfg) Inv (fun fault ↦ fault.isInternal = false) := by
  have hlegal : ¬ (s.transmitState ≠ .transmitting ∨
      s.duplexMode = false ∧ s.receiveState ≠ .rxIdle) := by
    rintro (hne | ⟨hhalf, hne⟩)
    · exact hne hstate
    · exact hne (hrx hhalf)
  cases hcons : s.txQueue with
  | nil => exact absurd hcons hqueue
  | cons front rest =>
    simp only [EtherMAC.handleEndTxPeriod, handleEndTxPeriodBase, if_neg hlegal, hcons, ok_bind]
    generalize hs : ({ s with
      backoffs := 0, statistics := _, txQueue := rest, removed := _ } : EtherMAC) = s₁
    have h₁ : Between s₁ := by
      rw [← hs]
      exact ⟨⟨h.1.1, h.1.2, h.1.3, h.1.4, h.1.5⟩, ⟨h.2.1, h.2.2⟩, h.3, h.4⟩
    unfold checkAndScheduleEndPausePeriod
    by_cases hpause : 0 < s₁.pauseUnitsRequested
    · simp only [hpause, if_true, bind_assoc]
      apply Outcome.bind (h₁.scheduleEndPausePeriod _)
      intro s₂ h₂
      exact h₂.of_core rfl
    · simp only [hpause, if_false]
      apply Outcome.ite
      · intro hburst
        simp only [Bool.and_eq_true, decide_eq_true_eq] at hburst
        exact h₁.startFrameTransmission hburst.1.2
      · intro _
        exact h₁.beginSendFrames

theorem Between.handleEndPausePeriod (h : Between s) (hstate : s.transmitState = .pause) :
    Outcome (s.handleEndPausePeriod cfg) Inv (fun fault ↦ fault.isInternal = false) := by
  simp only [EtherMAC.handleEndPausePeriod, hstate, ne_eq, not_true_eq_false, if_false]
  exact h.beginSendFrames

theorem Between.handleEndBackoffPeriod (h : Between s) (hstate : s.transmitState = .backoff)
    (hqueue : s.txQueue ≠ []) (hhalf : s.duplexMode = false) :
    Outcome s.handleEndBackoffPeriod Inv (fun fault ↦ fault.isInternal = false) := by
  simp only [EtherMAC.handleEndBackoffPeriod, hstate, hqueue, ne_eq, not_true_eq_false, if_false]
  apply Outcome.ite
  · intro _
    exact h.scheduleEndIFGPeriod hqueue
  · intro hrx
    exact h.txIdle (.inr ⟨hhalf, hrx⟩)

/-- A frame that is given up is not the last one of the queue only if the channel is busy. -/
theorem Between.handleEndJammingPeriod (h : Between s) (hstate : s.transmitState = .jamming)
    (hqueue : s.txQueue ≠ []) (hhalf : s.duplexMode = false)
    (hgiveUp : MAX_ATTEMPTS ≤ s.backoffs → s.receiveState = .rxIdle → s.txQueue.length = 1)
    (draw : ℕ) :
    Outcome (s.handleEndJammingPeriod draw) Inv (fun fault ↦ fault.isInternal = false) := by
  simp only [EtherMAC.handleEndJammingPeriod, hstate, ne_eq, not_true_eq_false, if_false,
    handleRetransmission]
  apply Outcome.ite
  · intro hmax
    cases hcons : s.txQueue with
    | nil => exact absurd hcons hqueue
    | cons front rest =>
      have hrest : rest = [] ∨ s.duplexMode = false ∧ s.receiveState ≠ .rxIdle := by
        by_cases hrx : s.receiveState = .rxIdle
        · have hone := hgiveUp (by omega) hrx
          rw [hcons] at hone
          exact .inl (List.length_eq_zero_iff.mp (by simpa using hone))
        · exact .inr ⟨hhalf, hrx⟩
      have hbetween : Between { s with txQueue := rest } :=
        ⟨⟨h.1.1, h.1.2, h.1.3, h.1.4, h.1.5⟩, ⟨h.2.1, h.2.2⟩, h.3, h.4⟩
      exact (hbetween.txIdle hrest).of_core rfl
  · intro _
    simp only [h.quiet.endBackoff, scheduleAt_none, ok_bind]
    have hbackoff : Inv { s with
        endBackoffMsg := some (s.now + (draw % (if BACKOFF_RANGE_LIMIT ≤ s.backoffs + 1 then 1024
          else 2 ^ (s.backoffs + 1)) : ℕ) * s.params.slotTime), transmitState := .backoff } := {
      transmitter := h.quiet.backoff hqueue _
      receiver := ⟨h.receiver.endRx, h.receiver.frame⟩
      halfDuplex := by simp
      fullDuplex := by simp [hhalf]
      notStalled := by simp [Stalled]
      autoconfig := by simp [h.configured]
      configured := fun _ ↦ h.endAutoconfig }
    exact hbackoff.of_core rfl

/-! ## The receiver -/

/-- The queue is kept, and the transmitter at most goes from idling to pausing. -/
structure Kept (s s' : EtherMAC) : Prop where
  txQueue : s'.txQueue = s.txQueue
  duplexMode : s'.duplexMode = s.duplexMode
  autoconfigInProgress : s'.autoconfigInProgress = s.autoconfigInProgress
  endAutoconfigMsg : s'.endAutoconfigMsg = s.endAutoconfigMsg
  transmitState : s'.transmitState = s.transmitState ∨
    s.transmitState = .txIdle ∧ s'.transmitState = .pause

/-- Only the transmitter may have changed. -/
structure Delivered (s s' : EtherMAC) : Prop extends Kept s s' where
  receiveState : s'.receiveState = s.receiveState
  frameBeingReceived : s'.frameBeingReceived = s.frameBeingReceived
  endRxMsg : s'.endRxMsg = s.endRxMsg
  transmitter : Transmitter s'

theorem Transmitter.delivered (h : Transmitter s) (heq : s'.core = s.core) : Delivered s s' := by
  have htransmitter := h.of_core heq
  simp only [core, Prod.mk.injEq] at heq
  obtain ⟨h1, h2, h3, h4, -, -, -, -, -, h10, h11, h12, h13⟩ := heq
  exact ⟨⟨h3, h11, h12, h13, .inl h1⟩, h2, h4, h10, htransmitter⟩

theorem Transmitter.processPauseCommand (h : Transmitter s) (pauseUnits : ℤ)
    (hpause : s.transmitState = .pause → 0 < pauseUnits) :
    Outcome (s.processPauseCommand pauseUnits) (Delivered s)
      (fun fault ↦ fault.isInternal = false) := by
  unfold EtherMAC.processPauseCommand
  cases hstate : s.transmitState with
  | txIdle =>
    have hquiet := h.quiet_of_txIdle hstate
    apply Outcome.ite
    · intro _
      refine Outcome.ite (fun _ ↦ rfl) fun _ ↦ ?_
      rw [hquiet.endPause, scheduleAt_none, ok_bind]
      exact ⟨⟨rfl, rfl, rfl, rfl, .inr ⟨hstate, rfl⟩⟩, rfl, rfl, rfl, hquiet.pause _⟩
    · intro _
      exact h.delivered rfl
  | pause =>
    simp only [hpause hstate, if_true]
    refine Outcome.ite (fun _ ↦ rfl) fun _ ↦ ?_
    rw [scheduleAt_none, ok_bind]
    exact ⟨⟨rfl, rfl, rfl, rfl, .inl hstate.symm⟩, rfl, rfl, rfl, (h.quiet_endPause hstate).pause _⟩
  | waitIfg | transmitting | jamming | backoff => exact h.delivered (by simp [core, hstate])

theorem Transmitter.processReceivedDataFrame (h : Transmitter s) :
    Outcome (s.processReceivedDataFrame cfg frame) (Delivered s)
      (fun fault ↦ fault.isInternal = false) := by
  apply Outcome.ite
  · intro _
    exact h.delivered rfl
  · intro _
    apply Outcome.ite
    · intro _
      rfl
    · intro _
      apply Outcome.ite
      · intro _
        exact h.delivered rfl
      · intro _
        exact h.delivered rfl

theorem Transmitter.frameReceptionComplete (h : Transmitter s)
    (hpause : s.transmitState = .pause → ∀ n ∈ frame.pauseTime, 0 < n) :
    Outcome (s.frameReceptionComplete cfg frame) (Delivered s)
      (fun fault ↦ fault.isInternal = false) := by
  unfold EtherMAC.frameReceptionComplete
  cases hkind : frame.pauseTime with
  | none => exact h.processReceivedDataFrame
  | some pauseUnits =>
    have hcount : Transmitter { s with
        statistics.numPauseFramesRcvd := s.statistics.numPauseFramesRcvd + 1 } := h.of_core rfl
    apply (hcount.processPauseCommand pauseUnits ?_).post
    · intro s' h'
      exact ⟨⟨h'.txQueue, h'.duplexMode, h'.autoconfigInProgress, h'.endAutoconfigMsg,
        h'.transmitState⟩, h'.receiveState, h'.frameBeingReceived, h'.endRxMsg, h'.transmitter⟩
    · intro hstate
      exact hpause hstate pauseUnits hkind

theorem Kept.fullDuplex (h : Kept s s') (hinv : Inv s) (hfull : s'.duplexMode = true) :
    s'.transmitState ≠ .jamming ∧ s'.transmitState ≠ .backoff := by
  obtain hsame | ⟨-, hpause⟩ := h.transmitState
  · rw [hsame]
    exact hinv.fullDuplex (h.duplexMode ▸ hfull)
  · simp [hpause]

/-- Something is being received now, and nothing was sent in half duplex mode. -/
theorem Inv.receive (h : Inv s) (hconfigured : s.autoconfigInProgress = false) (hkept : Kept s s')
    (htransmitter : Transmitter s') (hreceiver : Receiver s') (hrx : s'.receiveState ≠ .rxIdle)
    (hnot : ¬ (s.duplexMode = false ∧ s.transmitState = .transmitting)) : Inv s' where
  transmitter := htransmitter
  receiver := hreceiver
  halfDuplex := by
    intro hhalf hsending
    obtain hsame | ⟨-, hpause⟩ := hkept.transmitState
    · exact absurd ⟨hkept.duplexMode ▸ hhalf, hsame ▸ hsending⟩ hnot
    · rw [hpause] at hsending
      cases hsending
  fullDuplex := hkept.fullDuplex h
  notStalled := by
    rintro - ⟨hidle, hqueue, hfree⟩
    obtain hfull | hrxIdle := hfree
    · obtain hsame | ⟨-, hpause⟩ := hkept.transmitState
      · apply h.notStalled hconfigured
        exact ⟨hsame ▸ hidle, hkept.txQueue ▸ hqueue, .inl (hkept.duplexMode ▸ hfull)⟩
      · rw [hpause] at hidle
        cases hidle
    · exact hrx hrxIdle
  autoconfig := by
    intro hauto
    rw [hkept.autoconfigInProgress, hconfigured] at hauto
    cases hauto
  configured := fun _ ↦ hkept.endAutoconfigMsg.trans (h.configured hconfigured)

theorem Inv.completeReception (h : Inv s) (hrx : s.receiveState = .receiving)
    (hpause : s.transmitState = .pause →
      ∀ frame ∈ s.frameBeingReceived, ∀ n ∈ frame.pauseTime, 0 < n) (endRxMsg : Option ℚ) :
    Outcome ({ s with endRxMsg }.completeReception cfg)
      (Delivered { s with endRxMsg, frameBeingReceived := none })
      (fun fault ↦ fault.isInternal = false) := by
  have hsome := h.receiver.frame.mpr hrx
  obtain ⟨frame, hframe⟩ := Option.isSome_iff_exists.mp hsome
  simp only [EtherMAC.completeReception, hframe]
  have htransmitter : Transmitter { s with endRxMsg, frameBeingReceived := none } :=
    ⟨h.1.1, h.1.2, h.1.3, h.1.4, h.1.5, h.1.6⟩
  apply htransmitter.frameReceptionComplete
  intro hstate
  exact hpause hstate frame hframe

theorem Inv.rxIdle (h : Inv s) (hconfigured : s.autoconfigInProgress = false)
    (hdelivered : Delivered { s with endRxMsg := none, frameBeingReceived := none } s') :
    Outcome (let s := { s' with receiveState := .rxIdle, numConcurrentTransmissions := 0 }
      if s.transmitState = .txIdle && s.txQueue ≠ [] then s.scheduleEndIFGPeriod else return s)
      Inv (fun fault ↦ fault.isInternal = false) := by
  have hauto : s'.autoconfigInProgress = false :=
    hdelivered.autoconfigInProgress.trans hconfigured
  have hend : s'.endAutoconfigMsg = none :=
    hdelivered.endAutoconfigMsg.trans (h.configured hconfigured)
  have hreceiver : Receiver { s' with receiveState := .rxIdle, numConcurrentTransmissions := 0 } :=
    ⟨by simp [hdelivered.endRxMsg], by simp [hdelivered.frameBeingReceived]⟩
  apply Outcome.ite
  · intro hwaiting
    simp only [Bool.and_eq_true, decide_eq_true_eq] at hwaiting
    have hquiet := hdelivered.transmitter.quiet_of_txIdle hwaiting.1
    apply Between.scheduleEndIFGPeriod
    · exact ⟨⟨hquiet.1, hquiet.2, hquiet.3, hquiet.4, hquiet.5⟩, hreceiver, hauto, hend⟩
    · exact hwaiting.2
  · intro hwaiting
    have ht := hdelivered.transmitter
    have hkept : Kept s { s' with receiveState := .rxIdle, numConcurrentTransmissions := 0 } :=
      ⟨hdelivered.txQueue, hdelivered.duplexMode, hdelivered.autoconfigInProgress,
        hdelivered.endAutoconfigMsg, hdelivered.transmitState⟩
    exact {
      transmitter := ⟨ht.1, ht.2, ht.3, ht.4, ht.5, ht.6⟩
      receiver := hreceiver
      halfDuplex := fun _ _ ↦ rfl
      fullDuplex := hkept.fullDuplex h
      notStalled := by
        rintro - ⟨hidle, hqueue, -⟩
        exact hwaiting (by simp [show s'.transmitState = .txIdle from hidle,
          show s'.txQueue ≠ [] from hqueue])
      autoconfig := by simp [hauto]
      configured := fun _ ↦ hend }

theorem Inv.passOn (h : Inv s) (hpause : s.transmitState = .pause →
      ∀ frame ∈ s.frameBeingReceived, ∀ n ∈ frame.pauseTime, 0 < n) :
    Outcome ({ s with endRxMsg := none }.passOn cfg)
      (Delivered { s with endRxMsg := none, frameBeingReceived := none })
      (fun fault ↦ fault.isInternal = false) := by
  apply Outcome.ite
  · intro hrx
    exact h.completeReception hrx hpause none
  · intro hrx
    have hnot : ¬ s.receiveState = .receiving := hrx
    have hnone : s.frameBeingReceived = none := by simpa [hnot] using h.receiver.frame
    have htransmitter : Transmitter { s with endRxMsg := none, frameBeingReceived := none } :=
      ⟨h.1.1, h.1.2, h.1.3, h.1.4, h.1.5, h.1.6⟩
    exact htransmitter.delivered (by simp [core, hnone])

theorem Inv.handleEndRxPeriod (h : Inv s) (hconfigured : s.autoconfigInProgress = false)
    (hpause : s.transmitState = .pause →
      ∀ frame ∈ s.frameBeingReceived, ∀ n ∈ frame.pauseTime, 0 < n) :
    Outcome ({ s with endRxMsg := none }.handleEndRxPeriod cfg) Inv
      (fun fault ↦ fault.isInternal = false) := by
  apply Outcome.bind (h.passOn hpause)
  intro s' hdelivered
  exact h.rxIdle hconfigured hdelivered

/-! ## The network -/

theorem Inv.interrupt (h : Inv s) (hconfigured : s.autoconfigInProgress = false)
    (hhalf : s.duplexMode = false) (hsending : s.transmitState = .transmitting) (endRxTime : ℚ) :
    Outcome (s.interrupt endRxTime) Inv (fun fault ↦ fault.isInternal = false) := by
  have hrx := h.halfDuplex hhalf hsending
  have hendRx : s.endRxMsg = none := by simpa [hrx] using h.receiver.endRx
  have hframe : s.frameBeingReceived = none := by simpa [hrx] using h.receiver.frame
  have hquiet := h.transmitter.quiet_endTx hsending
  have hqueue : s.txQueue ≠ [] := h.transmitter.queue (by simp [hsending, TransmitState.isBusy])
  have hjam := hquiet.endJamming
  simp only [EtherMAC.interrupt, sendJamSignal, send, hjam, hendRx, scheduleAt_none, ok_bind]
  have hbetween : Quiet { s with
      endTxMsg := none, receiveState := .rxCollision
      endRxMsg := some (if endRxTime < s.now + s.params.jamDuration
        then s.now + s.params.jamDuration else endRxTime) } :=
    ⟨hquiet.1, hquiet.2, hquiet.3, hquiet.4, hquiet.5⟩
  have hinv : Inv { s with
      endTxMsg := none, receiveState := .rxCollision
      endRxMsg := some (if endRxTime < s.now + s.params.jamDuration
        then s.now + s.params.jamDuration else endRxTime)
      endJammingMsg := some (s.now + s.params.jamDuration), transmitState := .jamming } := {
    transmitter := hbetween.jamming hqueue _
    receiver := ⟨by simp, by simp [hframe]⟩
    halfDuplex := by simp
    fullDuplex := by simp [hhalf]
    notStalled := by simp [Stalled]
    autoconfig := by simp [hconfigured]
    configured := fun _ ↦ h.configured hconfigured }
  exact hinv.of_core rfl

section

variable (h : Inv s) (hconfigured : s.autoconfigInProgress = false)
  (hnot : ¬ (s.duplexMode = false ∧ s.transmitState = .transmitting))
include h hconfigured hnot

theorem Inv.startReception (hrx : s.receiveState = .rxIdle) :
    Outcome (s.startReception frame) Inv (fun fault ↦ fault.isInternal = false) := by
  have hendRx : s.endRxMsg = none := by simpa [hrx] using h.receiver.endRx
  have hframe : s.frameBeingReceived = none := by simpa [hrx] using h.receiver.frame
  simp only [EtherMAC.startReception, scheduleEndRxPeriod, hframe, hendRx, scheduleAt_none, ok_bind,
    Option.isSome_none, Bool.false_eq_true, if_false]
  apply h.receive hconfigured
  · exact ⟨rfl, rfl, rfl, rfl, .inl rfl⟩
  · exact ⟨h.1.1, h.1.2, h.1.3, h.1.4, h.1.5, h.1.6⟩
  · exact ⟨by simp, by simp⟩
  · simp
  · exact hnot

theorem Inv.receiveBackToBack (hrx : s.receiveState = .receiving)
    (hpause : s.transmitState = .pause →
      ∀ frame ∈ s.frameBeingReceived, ∀ n ∈ frame.pauseTime, 0 < n) :
    Outcome (s.receiveBackToBack cfg frame) Inv (fun fault ↦ fault.isInternal = false) := by
  apply Outcome.bind (h.completeReception hrx hpause none)
  intro s' hdelivered
  have hendRx : s'.endRxMsg = none := hdelivered.endRxMsg
  simp only [scheduleEndRxPeriod, hendRx, scheduleAt_none, ok_bind]
  have ht := hdelivered.transmitter
  apply h.receive hconfigured
  · exact ⟨hdelivered.txQueue, hdelivered.duplexMode, hdelivered.autoconfigInProgress,
      hdelivered.endAutoconfigMsg, hdelivered.transmitState⟩
  · exact ⟨ht.1, ht.2, ht.3, ht.4, ht.5, ht.6⟩
  · exact ⟨by simp, by simp⟩
  · simp
  · exact hnot

theorem Inv.overlap (endRxMsg : Option ℚ) (hend : endRxMsg.isSome) (n : ℤ) :
    Inv { s with endRxMsg, numConcurrentTransmissions := n }.collide := by
  have hinv : Inv { s with endRxMsg, frameBeingReceived := none, receiveState := .rxCollision } := by
    apply h.receive hconfigured
    · exact ⟨rfl, rfl, rfl, rfl, .inl rfl⟩
    · exact ⟨h.1.1, h.1.2, h.1.3, h.1.4, h.1.5, h.1.6⟩
    · exact ⟨by simp [hend], by simp⟩
    · simp
    · exact hnot
  apply hinv.of_core
  rw [collide_core]
  · rfl
  · exact h.receiver.frame

theorem Inv.overlapFrame (hrx : s.receiveState ≠ .rxIdle) (endRxTime : ℚ) :
    Inv (s.overlapFrame endRxTime) := by
  have hend := h.receiver.endRx.mpr hrx
  simp only [EtherMAC.overlapFrame]
  split
  · exact h.overlap hconfigured hnot _ rfl _
  · exact h.overlap hconfigured hnot _ hend _

theorem Inv.overlapJam (hrx : s.receiveState ≠ .rxIdle) (endRxTime : ℚ) :
    Outcome (s.overlapJam endRxTime) Inv (fun fault ↦ fault.isInternal = false) := by
  have hend := h.receiver.endRx.mpr hrx
  apply Outcome.ite
  · intro _
    rfl
  · intro _
    apply Outcome.ite
    · intro _
      exact h.overlap hconfigured hnot _ rfl _
    · intro _
      exact h.overlap hconfigured hnot _ hend _

omit hnot

theorem Inv.processMsgFromNetwork (packet : Packet) (sendingTime : ℚ)
    (hpause : s.transmitState = .pause → s.isBackToBack = true →
      (∃ f, packet = .frame f) → ∀ frame ∈ s.frameBeingReceived, ∀ n ∈ frame.pauseTime, 0 < n) :
    Outcome (s.processMsgFromNetwork cfg packet sendingTime) Inv
      (fun fault ↦ fault.isInternal = false) := by
  have hbase : Outcome (s.processMsgFromNetworkBase packet sendingTime) (fun _ ↦ True)
      (fun fault ↦ fault.isInternal = false) := by
    cases packet with
    | autoconfig _ _ => rfl
    | frame _ => exact Outcome.ite (fun _ ↦ rfl) fun _ ↦ trivial
    | jam _ => exact Outcome.ite (fun _ ↦ rfl) fun _ ↦ trivial
  apply Outcome.bind hbase
  intro _ _
  cases packet with
  | frame frame =>
    apply Outcome.ite
    · intro hsending
      exact h.interrupt hconfigured hsending.1 hsending.2 _
    · intro hnot
      apply Outcome.ite
      · intro hrx
        exact h.startReception hconfigured hnot hrx
      · intro hrx
        apply Outcome.ite
        · intro hback
          have hreceiving : s.receiveState = .receiving := by
            simp only [isBackToBack, Bool.and_eq_true, decide_eq_true_eq] at hback
            exact hback.1
          apply h.receiveBackToBack hconfigured hnot hreceiving
          intro hstate
          exact hpause hstate hback ⟨frame, rfl⟩
        · intro _
          exact h.overlapFrame hconfigured hnot hrx _
  | jam n | autoconfig txrate halfDuplex =>
    apply Outcome.ite
    · intro _
      rfl
    · intro hnot
      apply Outcome.ite
      · intro _
        rfl
      · intro hrx
        exact h.overlapJam hconfigured hnot hrx _

end

/-! ## The upper layer -/

theorem processFrameFromUpperLayerBase_spec (s : EtherMAC) :
    Outcome (s.processFrameFromUpperLayerBase cfg frame)
      (fun s' ↦ s'.txQueue ≠ [] ∧ s'.core = { s with txQueue := s'.txQueue }.core)
      (fun fault ↦ fault.isInternal = false) := by
  apply Outcome.ite
  · intro _
    rfl
  · intro _
    apply Outcome.ite
    · intro _
      rfl
    · intro _
      apply Outcome.ite
      · intro _
        apply Outcome.ite
        · intro _
          rfl
        · intro _
          exact ⟨by simp [enqueue], rfl⟩
      · intro _
        cases s.txQueue with
        | nil => exact ⟨by simp [enqueue], rfl⟩
        | cons front rest => exact ⟨by simp [enqueue], rfl⟩

theorem Inv.processFrameFromUpperLayer (h : Inv s) :
    Outcome (s.processFrameFromUpperLayer cfg frame) Inv
      (fun fault ↦ fault.isInternal = false) := by
  apply Outcome.bind (processFrameFromUpperLayerBase_spec s)
  rintro s' ⟨hqueue, hcore⟩
  have htransmitter : Transmitter { s with txQueue := s'.txQueue } :=
    ⟨h.1.1, h.1.2, h.1.3, h.1.4, h.1.5, fun _ ↦ hqueue⟩
  have hreceiver : Receiver { s with txQueue := s'.txQueue } := ⟨h.2.1, h.2.2⟩
  have hfields := hcore
  simp only [core, Prod.mk.injEq, true_and] at hfields
  obtain ⟨h1, h2, -, -, -, -, -, -, -, h11, h12, h13⟩ := hfields
  apply Outcome.ite
  · intro hfree
    simp only [Bool.and_eq_true, Bool.not_eq_true', decide_eq_true_eq] at hfree
    apply Between.scheduleEndIFGPeriod
    · constructor
      · exact (htransmitter.of_core hcore).quiet_of_txIdle hfree.2
      · exact hreceiver.of_core hcore
      · exact hfree.1.1
      · rw [h13]
        exact h.configured (h12 ▸ hfree.1.1)
    · exact hqueue
  · intro hfree
    exact {
      transmitter := htransmitter.of_core hcore
      receiver := hreceiver.of_core hcore
      halfDuplex := by simpa only [h1, h2, h11] using h.halfDuplex
      fullDuplex := by simpa only [h1, h11] using h.fullDuplex
      notStalled := by
        rintro hconfigured ⟨hidle, -, hchannel⟩
        apply hfree
        simpa [hconfigured, hidle] using hchannel
      autoconfig := by simpa only [h1, h2, h12] using h.autoconfig
      configured := by simpa only [h12, h13] using h.configured }

/-! ## Autoconfiguration -/

theorem calculateParameters_spec (txrate : ℚ) (duplexMode : Bool) :
    Outcome (calculateParameters txrate duplexMode) (fun _ ↦ True)
      (fun fault ↦ fault.isInternal = false) := by
  apply Outcome.ite
  · intro _
    rfl
  · intro _
    trivial

theorem Inv.finishAutoconfig (h : Inv s) (hauto : s.autoconfigInProgress = true) :
    Outcome (s.finishAutoconfig cfg) Inv (fun fault ↦ fault.isInternal = false) := by
  obtain ⟨htx, hrx⟩ := h.autoconfig hauto
  have hquiet := h.transmitter.quiet_of_txIdle htx
  apply Outcome.bind (calculateParameters_spec _ _)
  intro params _
  apply Outcome.ite
  · intro hqueue
    apply Between.scheduleEndIFGPeriod
    · exact ⟨⟨hquiet.1, hquiet.2, hquiet.3, hquiet.4, hquiet.5⟩, ⟨h.2.1, h.2.2⟩, rfl, rfl⟩
    · exact hqueue
  · intro hqueue
    exact {
      transmitter := ⟨h.1.1, h.1.2, h.1.3, h.1.4, h.1.5, h.1.6⟩
      receiver := ⟨h.2.1, h.2.2⟩
      halfDuplex := fun _ _ ↦ hrx
      fullDuplex := by simp [htx]
      notStalled := fun _ hstalled ↦ hqueue hstalled.2.1
      autoconfig := by simp
      configured := fun _ ↦ rfl }

theorem Inv.handleAutoconfigMessage (h : Inv s) (hauto : s.autoconfigInProgress = true)
    (message : Message) :
    Outcome (s.handleAutoconfigMessage cfg message) Inv
      (fun fault ↦ fault.isInternal = false) := by
  cases message with
  | upperLayer frame => exact h.processFrameFromUpperLayer
  | network packet sendingTime =>
    cases packet with
    | autoconfig acTxrate halfDuplex => exact h.of_core rfl
    | frame _ => rfl
    | jam _ => rfl
  | _ => exact h.finishAutoconfig hauto

/-! ## Runs -/

/-- The event completes the reception of the current frame. -/
def completes (s : EtherMAC) (event : Event) : Bool :=
  match event.message with
  | .endReception => true
  | .network (.frame _) _ => { s with now := event.time }.isBackToBack
  | _ => false

/-- The event gives up the frame at the front of the queue. -/
def givesUp (s : EtherMAC) (event : Event) : Bool :=
  match event.message with
  | .endJamming _ => MAX_ATTEMPTS ≤ s.backoffs
  | _ => false

/-- No PAUSE frame of no time ends during a pause, and no frame is given up with a free channel and
other frames behind it. -/
structure Orderly (s : EtherMAC) (event : Event) : Prop where
  pause : s.transmitState = .pause → s.completes event = true →
    ∀ frame ∈ s.frameBeingReceived, ∀ n ∈ frame.pauseTime, 0 < n
  giveUp : s.givesUp event = true → s.receiveState = .rxIdle → s.txQueue.length = 1

instance (s : EtherMAC) (event : Event) : Decidable (s.Orderly event) :=
  decidable_of_iff ((s.transmitState = .pause → s.completes event = true →
      ∀ frame ∈ s.frameBeingReceived, ∀ n ∈ frame.pauseTime, 0 < n) ∧
      (s.givesUp event = true → s.receiveState = .rxIdle → s.txQueue.length = 1))
    ⟨fun h ↦ ⟨h.1, h.2⟩, fun h ↦ ⟨h.pause, h.giveUp⟩⟩

theorem Inv.between (h : Inv s) (hconfigured : s.autoconfigInProgress = false) (hquiet : Quiet s')
    (hreceiver : Receiver s') (hauto : s'.autoconfigInProgress = s.autoconfigInProgress)
    (hend : s'.endAutoconfigMsg = s.endAutoconfigMsg) : Between s' :=
  ⟨hquiet, hreceiver, hauto.trans hconfigured, hend.trans (h.configured hconfigured)⟩

theorem Inv.duplexMode_eq_false (h : Inv s)
    (hstate : s.transmitState = .jamming ∨ s.transmitState = .backoff) : s.duplexMode = false := by
  cases hmode : s.duplexMode with
  | false => rfl
  | true =>
    obtain ⟨hjamming, hbackoff⟩ := h.fullDuplex hmode
    exact absurd hstate (not_or.mpr ⟨hjamming, hbackoff⟩)

theorem Inv.step (h : Inv s) {event : Event} (harrives : s.Arrives event)
    (horderly : s.Orderly event) :
    Outcome (s.handleMessage cfg event) Inv (fun fault ↦ fault.isInternal = false) := by
  have hreceiver := h.receiver
  obtain ⟨time, message⟩ := event
  have hexpires := harrives.expires
  have h₀ : Inv { s with now := time } := h.of_core rfl
  have ht := h₀.transmitter
  apply Outcome.ite
  · intro hauto
    exact h₀.handleAutoconfigMessage hauto _
  · intro hauto
    have hconfigured : s.autoconfigInProgress = false := Bool.eq_false_iff.mpr hauto
    apply Outcome.ite
    · rintro ⟨hhalf, hsending, hrx⟩
      exact absurd (h.halfDuplex hhalf hsending) hrx
    · intro _
      cases message with
      | upperLayer frame => exact h₀.processFrameFromUpperLayer
      | network packet sendingTime =>
        apply h₀.processMsgFromNetwork hconfigured
        intro hstate hback hframe
        obtain ⟨frame, rfl⟩ := hframe
        exact horderly.pause hstate hback
      | endAutoconfig =>
        have hscheduled : s.endAutoconfigMsg = some time := hexpires rfl
        rw [h.configured hconfigured] at hscheduled
        cases hscheduled
      | endIFG =>
        have hstate : s.transmitState = .waitIfg :=
          ht.endIFG.mp (Option.isSome_iff_exists.mpr ⟨time, hexpires rfl⟩)
        apply Between.handleEndIFGPeriod
        · exact h.between hconfigured (ht.quiet_endIFG hstate) ⟨hreceiver.1, hreceiver.2⟩ rfl rfl
        · exact hstate
        · exact ht.queue (by simp [hstate, TransmitState.isBusy])
      | endTransmission =>
        have hstate : s.transmitState = .transmitting :=
          ht.endTx.mp (Option.isSome_iff_exists.mpr ⟨time, hexpires rfl⟩)
        apply Between.handleEndTxPeriod
        · exact h.between hconfigured (ht.quiet_endTx hstate) ⟨hreceiver.1, hreceiver.2⟩ rfl rfl
        · exact hstate
        · exact ht.queue (by simp [hstate, TransmitState.isBusy])
        · intro hhalf
          exact h.halfDuplex hhalf hstate
      | endReception => exact h₀.handleEndRxPeriod hconfigured fun hstate ↦ horderly.pause hstate rfl
      | endBackoff =>
        have hstate : s.transmitState = .backoff :=
          ht.endBackoff.mp (Option.isSome_iff_exists.mpr ⟨time, hexpires rfl⟩)
        apply Between.handleEndBackoffPeriod
        · exact h.between hconfigured (ht.quiet_endBackoff hstate) ⟨hreceiver.1, hreceiver.2⟩ rfl rfl
        · exact hstate
        · exact ht.queue (by simp [hstate, TransmitState.isBusy])
        · exact h.duplexMode_eq_false (.inr hstate)
      | endJamming draw =>
        have hstate : s.transmitState = .jamming :=
          ht.endJamming.mp (Option.isSome_iff_exists.mpr ⟨time, hexpires rfl⟩)
        apply Between.handleEndJammingPeriod
        · exact h.between hconfigured (ht.quiet_endJamming hstate) ⟨hreceiver.1, hreceiver.2⟩ rfl rfl
        · exact hstate
        · exact ht.queue (by simp [hstate, TransmitState.isBusy])
        · exact h.duplexMode_eq_false (.inl hstate)
        · intro hmax
          exact horderly.giveUp (decide_eq_true hmax)
      | endPause =>
        have hstate : s.transmitState = .pause :=
          ht.endPause.mp (Option.isSome_iff_exists.mpr ⟨time, hexpires rfl⟩)
        apply Between.handleEndPausePeriod
        · exact h.between hconfigured (ht.quiet_endPause hstate) ⟨hreceiver.1, hreceiver.2⟩ rfl rfl
        · exact hstate

/-- In every run whose steps are orderly, the timers agree with the states, no frame waits for
nothing, and no internal error can happen next. -/
theorem timers_agree_and_never_stall
    (h : Reachable (· = initialized cfg) (fun s event ↦ s.Arrives event ∧ s.Orderly event)
      (fun s event ↦ s.handleMessage cfg event) s) :
    s.Transmitter ∧ s.Receiver ∧ (s.autoconfigInProgress = false → ¬ s.Stalled) ∧
      ∀ event, s.Arrives event → s.Orderly event →
        ∀ fault, s.handleMessage cfg event = .error fault → fault.isInternal = false := by
  have hstart : ∀ s, s = initialized cfg → Inv s := by
    rintro s rfl
    exact initialized_inv cfg
  obtain ⟨hinv, hnext⟩ := h.outcome hstart fun s event hs hallowed ↦ hs.step hallowed.1 hallowed.2
  constructor
  · exact hinv.transmitter
  constructor
  · exact hinv.receiver
  constructor
  · exact hinv.notStalled
  · intro event harrives horderly fault herror
    exact (hnext event ⟨harrives, horderly⟩).of_eq_error herror

/-- A full duplex station at 100 Mb/s. -/
def station : Config where
  address := 1
  promiscuous := false
  txQueueLimit := 0
  queueModule := false
  txrate := 0
  duplexEnabled := true

def dataFrame : EtherFrame := ⟨0, 2, 0, 100, false, none⟩

/-- A PAUSE frame with its preamble, for this many units. -/
def pauseFrame (pauseUnits : ℤ) : EtherFrame := ⟨1, 0x0180c2000001, 2, 72, false, some pauseUnits⟩

def pauseReceived : List Event :=
  [⟨1 / 1000, .endAutoconfig⟩, ⟨2 / 1000, .network (.frame (pauseFrame 10)) (2 / 1000)⟩,
    ⟨2 / 1000 + 576 / 100000000, .endReception⟩, ⟨2 / 1000 + 600 / 100000000, .upperLayer dataFrame⟩]

theorem pausing_station : ∃ s, run (handleMessage station) (initialized station) pauseReceived = .ok s ∧
    s.transmitState = .pause ∧ s.txQueue ≠ [] ∧ s.endPauseMsg.isSome ∧ ¬ s.Stalled := by
  obtain ⟨s, hrun, hcheck⟩ := exists_ok (run (handleMessage station) (initialized station) pauseReceived)
    (fun s ↦ s.transmitState = .pause ∧ s.txQueue ≠ [] ∧ s.autoconfigInProgress = false)
    (by decide +kernel)
  obtain ⟨hstate, hqueue, hconfigured⟩ := hcheck
  have hreach : Reachable (· = initialized station)
      (fun s event ↦ s.Arrives event ∧ s.Orderly event) (handleMessage station) s :=
    Reachable.of_run (.start rfl) pauseReceived (by decide +kernel) hrun
  obtain ⟨htransmitter, -, hstalled, -⟩ := timers_agree_and_never_stall hreach
  exact ⟨s, hrun, hstate, hqueue, htransmitter.endPause.mpr hstate, hstalled hconfigured⟩

/-- A PAUSE frame of no time arrives during the pause. -/
def pauseCancelled : List Event :=
  pauseReceived ++ [⟨2 / 1000 + 700 / 100000000, .network (.frame (pauseFrame 0)) (2 / 1000)⟩,
    ⟨2 / 1000 + 1276 / 100000000, .endReception⟩]

/-- A transmission, with an interframe gap from `time` on, that collides with one that has already
been aborted. -/
def collision (time : ℚ) : List Event :=
  let bit (n : ℚ) : ℚ := time + n / 100000000
  [⟨bit 64, .network (.frame (pauseFrame 0)) (bit 64)⟩, ⟨bit 80, .network (.jam 4) (bit 80)⟩,
    ⟨bit 96, .endIFG⟩, ⟨bit 112, .endReception⟩, ⟨bit 128, .endJamming 0⟩, ⟨bit 128, .endBackoff⟩]

/-- Two frames are queued, and the first one collides until it is given up. -/
def givenUp : List Event :=
  [⟨1 / 1000, .endAutoconfig⟩, ⟨2 / 1000, .upperLayer dataFrame⟩, ⟨2 / 1000, .upperLayer dataFrame⟩] ++
    ((List.range 17).flatMap fun k ↦ collision (2 / 1000 + 128 * k / 100000000)).dropLast

/-- The timer of the pause is cancelled and the frame behind waits for ever. A frame behind one that
is given up is not sent although the channel is free. -/
theorem pause_without_timer_and_stalled_frame :
    (∃ s, Reachable (· = initialized station) Arrives (handleMessage station) s ∧
      s.transmitState = .pause ∧ s.endPauseMsg = none ∧ s.txQueue ≠ []) ∧
    ∃ s, Reachable (· = initialized { station with duplexEnabled := false }) Arrives
      (handleMessage { station with duplexEnabled := false }) s ∧
      s.autoconfigInProgress = false ∧ s.Stalled := by
  constructor
  · obtain ⟨s, hrun, hcheck⟩ := exists_ok (run (handleMessage station) (initialized station) pauseCancelled)
      (fun s ↦ s.transmitState = .pause ∧ s.endPauseMsg = none ∧ s.txQueue ≠ []) (by decide +kernel)
    have hreach : Reachable (· = initialized station) Arrives (handleMessage station) s :=
      Reachable.of_run (.start rfl) pauseCancelled (by decide +kernel) hrun
    exact ⟨s, hreach, hcheck⟩
  · let half := { station with duplexEnabled := false }
    obtain ⟨s, hrun, hcheck⟩ := exists_ok (run (handleMessage half) (initialized half) givenUp)
      (fun s ↦ s.autoconfigInProgress = false ∧ s.Stalled) (by decide +kernel)
    have hreach : Reachable (· = initialized half) Arrives (handleMessage half) s :=
      Reachable.of_run (.start rfl) givenUp (by decide +kernel) hrun
    exact ⟨s, hreach, hcheck⟩

end EtherMAC

end InetManet
