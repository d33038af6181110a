import InetManet.Ethernet.MACTimers

/-!
# Every frame is sent once

The wire shows, for each frame that has left the queue, its attempts that collided and the one that
did not, if there was one; then the attempts for the frame at the front of the queue. So a frame
leaves the queue either after it was on the wire completely, once, or after too many collisions of its
own.

This needs that no PAUSE frame is put in front of a frame that is being sent or has to be repeated: it
would be taken for this frame when the transmission ends.
-/

namespace InetManet

open TransitionSystem

namespace EtherMAC

variable {cfg : Config} {s s₁ s' : EtherMAC} {frame : EtherFrame}

/-! ## What the wire shows -/

inductive Signal
  | frame (treeId : ℕ)
  | jam
  deriving DecidableEq

def Packet.signal? : Packet → Option Signal
  | .frame f => some (.frame f.treeId)
  | .jam _ => some .jam
  | .autoconfig _ _ => none

def wire (s : EtherMAC) : List Signal := s.physOut.filterMap Packet.signal?

/-- So many attempts that ended in a collision. -/
def aborted (treeId : ℕ) (attempts : ℕ) : List Signal :=
  (List.replicate attempts [Signal.frame treeId, .jam]).flatten

/-- What the wire has seen of a frame that left the queue. -/
def Removal.wire (r : Removal) : List Signal :=
  aborted r.frame.treeId r.collisions ++ if r.sent then [.frame r.frame.treeId] else []

def TransmitState.signals (state : TransmitState) (treeId : ℕ) : List Signal :=
  match state with
  | .transmitting => [.frame treeId]
  | .jamming => [.frame treeId, .jam]
  | _ => []

/-- What the wire has seen of the frame at the front of the queue before the current attempt. -/
def earlier (s : EtherMAC) : List Signal :=
  match s.txQueue with
  | [] => []
  | front :: _ => aborted front.treeId s.backoffs

/-- What it has seen of the current attempt. -/
def current (s : EtherMAC) : List Signal :=
  match s.txQueue with
  | [] => []
  | front :: _ => s.transmitState.signals front.treeId

def EtherFrame.isData (frame : EtherFrame) : Bool := frame.pauseTime.isNone

def dataIds (frames : List EtherFrame) : List ℕ :=
  (frames.filter EtherFrame.isData).map EtherFrame.treeId

/-- The frames that left the queue, in this order. -/
def departed (s : EtherMAC) : List EtherFrame := s.removed.map Removal.frame

/-- Each accepted frame has left the queue or is still in it, what has left it is accounted for on
the wire, and data frames stay in order. -/
structure ExactlyOnce (s : EtherMAC) : Prop where
  wire : s.wire = s.removed.flatMap Removal.wire ++ (s.earlier ++ s.current)
  accepted : ((s.departed ++ s.txQueue).map EtherFrame.treeId).Perm
    (s.accepted.map EtherFrame.treeId)
  order : dataIds (s.departed ++ s.txQueue) = dataIds s.accepted
  counted : s.statistics.numFramesSent = s.removed.countP Removal.sent
  sent : ∀ r ∈ s.removed, r.sent = true → r.collisions ≤ MAX_ATTEMPTS
  givenUp : ∀ r ∈ s.removed, r.sent = false → r.collisions = MAX_ATTEMPTS + 1

/-! ## The invariant -/

def TransmitState.isSending : TransmitState → Bool
  | transmitting => true
  | jamming => true
  | _ => false

/-- The wire has seen `pending` of the frame at the front of the queue. -/
structure Logged (s : EtherMAC) (pending : List Signal) : Prop where
  wire : s.wire = s.removed.flatMap Removal.wire ++ pending
  accepted : ((s.departed ++ s.txQueue).map EtherFrame.treeId).Perm
    (s.accepted.map EtherFrame.treeId)
  order : dataIds (s.departed ++ s.txQueue) = dataIds s.accepted
  counted : s.statistics.numFramesSent = s.removed.countP Removal.sent
  sent : ∀ r ∈ s.removed, r.sent = true → r.collisions ≤ MAX_ATTEMPTS
  givenUp : ∀ r ∈ s.removed, r.sent = false → r.collisions = MAX_ATTEMPTS + 1

/-- No attempt is under way. -/
structure Resting (s : EtherMAC) : Prop where
  logged : Logged s s.earlier
  attempts : s.backoffs ≤ MAX_ATTEMPTS
  fresh : s.txQueue = [] → s.backoffs = 0

structure Accounted (s : EtherMAC) : Prop where
  logged : Logged s (s.earlier ++ s.current)
  attempts : s.backoffs ≤ MAX_ATTEMPTS
  fresh : s.txQueue = [] → s.backoffs = 0 ∧ s.transmitState.isSending = false
  configured : s.autoconfigInProgress = true → s.transmitState.isSending = false

theorem initialized_accounted (cfg : Config) : Accounted (initialized cfg) := by
  constructor
  · constructor
    · simp only [initialized, wire, earlier, current]
      split <;> rfl
    all_goals simp [initialized, departed]
  · simp [initialized]
  · simp [initialized, TransmitState.isSending]
  · simp [initialized, TransmitState.isSending]

theorem TransmitState.signals_eq_nil {state : TransmitState} (h : state.isSending = false)
    (treeId : ℕ) : state.signals treeId = [] := by
  cases state with
  | transmitting | jamming => cases h
  | txIdle | waitIfg | backoff | pause => rfl

theorem current_eq_nil (h : s.transmitState.isSending = false) : s.current = [] := by
  unfold current
  cases s.txQueue with
  | nil => rfl
  | cons front rest => exact TransmitState.signals_eq_nil h _

theorem Accounted.resting (h : Accounted s) (hstate : s.transmitState.isSending = false) :
    Resting s := by
  have hlogged := h.logged
  rw [current_eq_nil hstate, List.append_nil] at hlogged
  exact ⟨hlogged, h.attempts, fun hempty ↦ (h.fresh hempty).1⟩

theorem Resting.accounted (h : Resting s) (hstate : s.transmitState.isSending = false) :
    Accounted s := by
  have hlogged := h.logged
  rw [← List.append_nil s.earlier, ← current_eq_nil hstate] at hlogged
  exact ⟨hlogged, h.attempts, fun hempty ↦ ⟨h.fresh hempty, hstate⟩, fun _ ↦ hstate⟩

/-- What the invariant is about, apart from the state of the transmitter. -/
def log (s : EtherMAC) :=
  (s.txQueue, s.backoffs, s.physOut, s.accepted, s.removed, s.statistics.numFramesSent,
    s.autoconfigInProgress)

theorem Logged.of_log {pending : List Signal} (h : Logged s pending) (heq : s'.log = s.log) :
    Logged s' pending := by
  simp only [log, Prod.mk.injEq] at heq
  obtain ⟨hqueue, -, hphys, haccepted, hremoved, hcount, -⟩ := heq
  constructor
  · simpa only [EtherMAC.wire, hphys, hremoved] using h.wire
  · simpa only [departed, hqueue, haccepted, hremoved] using h.accepted
  · simpa only [departed, hqueue, haccepted, hremoved] using h.order
  · simpa only [hremoved, hcount] using h.counted
  · simpa only [hremoved] using h.sent
  · simpa only [hremoved] using h.givenUp

theorem earlier_of_log (heq : s'.log = s.log) : s'.earlier = s.earlier := by
  simp only [log, Prod.mk.injEq] at heq
  simp only [earlier, heq.1, heq.2.1]

theorem Resting.of_log (h : Resting s) (heq : s'.log = s.log) : Resting s' := by
  have hlogged := h.logged.of_log heq
  rw [← earlier_of_log heq] at hlogged
  simp only [log, Prod.mk.injEq] at heq
  constructor
  · exact hlogged
  · rw [heq.2.1]
    exact h.attempts
  · rw [heq.1, heq.2.1]
    exact h.fresh

theorem Accounted.of_log (h : Accounted s) (heq : s'.log = s.log)
    (hstate : s'.transmitState = s.transmitState) : Accounted s' := by
  have hcurrent : s'.current = s.current := by
    have hqueue : s'.txQueue = s.txQueue := congrArg Prod.fst heq
    simp only [current, hqueue, hstate]
  have hlogged := h.logged.of_log heq
  rw [← earlier_of_log heq, ← hcurrent] at hlogged
  simp only [log, Prod.mk.injEq] at heq
  constructor
  · exact hlogged
  · rw [heq.2.1]
    exact h.attempts
  · rw [heq.1, heq.2.1, hstate]
    exact h.fresh
  · rw [heq.2.2.2.2.2.2, hstate]
    exact h.configured

/-! ## Requests to the queue module -/

def Idle (s : EtherMAC) : Prop := s.transmitState = .txIdle ∧ s.txQueue = []

/-- A frame was requested if the transmitter has nothing to do now. -/
def Requested (cfg : Config) (s s' : EtherMAC) : Prop :=
  cfg.queueModule = true → s'.Idle → s'.requests = s.requests + 1

theorem requested_of_not_idle (h : ¬ s'.Idle) : Requested cfg s s' := fun _ hidle ↦ absurd hidle h

/-- The transmitter enters a state other than the idle one. -/
def Enters (state : TransmitState) (s s' : EtherMAC) : Prop :=
  s'.log = s.log ∧ s'.transmitState = state

theorem scheduleAt_outcome {α : Type} {timer : Option ℚ} {time : ℚ}
    {f : Option ℚ → Except Fault α} {Q : α → Prop}
    (h : ∀ timer, Outcome (f timer) Q fun _ ↦ True) :
    Outcome (scheduleAt time timer >>= f) Q fun _ ↦ True := by
  cases timer with
  | none => exact h _
  | some t => trivial

theorem scheduleEndIFGPeriod_enters (s : EtherMAC) :
    Outcome s.scheduleEndIFGPeriod (Enters .waitIfg s) fun _ ↦ True :=
  scheduleAt_outcome fun _ ↦ ⟨rfl, rfl⟩

theorem scheduleEndTxPeriod_enters (s : EtherMAC) :
    Outcome (s.scheduleEndTxPeriod frame) (Enters .transmitting s) fun _ ↦ True :=
  scheduleAt_outcome fun _ ↦ ⟨rfl, rfl⟩

theorem scheduleEndPausePeriod_enters (s : EtherMAC) (pauseUnits : ℤ) :
    Outcome (s.scheduleEndPausePeriod pauseUnits) (Enters .pause s) fun _ ↦ True :=
  Outcome.ite (fun _ ↦ trivial) fun _ ↦ scheduleAt_outcome fun _ ↦ ⟨rfl, rfl⟩

/-- The state is accounted for, and a frame was requested if necessary. -/
def Served (cfg : Config) (s s' : EtherMAC) : Prop := Accounted s' ∧ Requested cfg s s'

theorem Resting.enters {state : TransmitState} (h : Resting s) (henters : Enters state s s')
    (hsending : state.isSending = false) (hidle : state ≠ .txIdle) : Served cfg s s' := by
  constructor
  · apply (h.of_log henters.1).accounted
    rw [henters.2]
    exact hsending
  · apply requested_of_not_idle
    rintro ⟨hstate, -⟩
    exact hidle (henters.2.symm.trans hstate)

theorem Resting.scheduleEndIFGPeriod (h : Resting s) :
    Outcome s.scheduleEndIFGPeriod (Served cfg s) fun _ ↦ True :=
  (scheduleEndIFGPeriod_enters s).post fun _ henters ↦ h.enters henters rfl (by decide)

theorem Resting.beginSendFrames (h : Resting s) :
    Outcome (s.beginSendFrames cfg) (Served cfg s) fun _ ↦ True := by
  apply Outcome.ite
  · intro _
    exact h.scheduleEndIFGPeriod
  · intro _
    constructor
    · apply Resting.accounted
      · exact h.of_log rfl
      · rfl
    · intro hmodule _
      simp [hmodule]

/-! ## The transmitter -/

/-- The packets have been sent in addition. -/
def emit (s : EtherMAC) (packets : List Packet) : EtherMAC :=
  { s with physOut := s.physOut ++ packets }

theorem emit_log (h : s'.log = s.log) (packets : List Packet) :
    (s'.emit packets).log = (s.emit packets).log := by
  simp only [log, Prod.mk.injEq] at h
  simp only [log, emit, h]

theorem emit_emit (packets more : List Packet) :
    (s.emit packets).emit more = s.emit (packets ++ more) := by
  simp [emit]

/-- Something more of the front frame is put on the wire. -/
theorem Logged.emit {pending : List Signal} {packets : List Packet} (h : Logged s pending)
    (heq : s'.log = (s.emit packets).log) :
    Logged s' (pending ++ packets.filterMap Packet.signal?) := by
  have hemit : Logged (s.emit packets) (pending ++ packets.filterMap Packet.signal?) := by
    constructor
    · calc
        (s.emit packets).wire = s.wire ++ packets.filterMap Packet.signal? := by
          simp [EtherMAC.wire, EtherMAC.emit]
        _ = s.removed.flatMap Removal.wire ++ pending ++ packets.filterMap Packet.signal? := by
          rw [h.wire]
        _ = _ := by rw [List.append_assoc]; rfl
    · exact h.accepted
    · exact h.order
    · exact h.counted
    · exact h.sent
    · exact h.givenUp
  exact hemit.of_log heq

theorem Resting.attempt {front : EtherFrame} {rest : List EtherFrame} {packets : List Packet}
    (h : Resting s) (hconfigured : s.autoconfigInProgress = false)
    (hqueue : s.txQueue = front :: rest) (heq : s'.log = (s.emit packets).log)
    (hsignals : packets.filterMap Packet.signal? = s'.transmitState.signals front.treeId) :
    Accounted s' := by
  have hlogged := h.logged.emit heq
  rw [hsignals] at hlogged
  simp only [log, emit, Prod.mk.injEq] at heq
  obtain ⟨hqueue', hbackoffs, -, -, -, -, hauto⟩ := heq
  constructor
  · simpa only [earlier, current, hqueue', hbackoffs, hqueue] using hlogged
  · rw [hbackoffs]
    exact h.attempts
  · rw [hqueue', hqueue]
    intro hempty
    cases hempty
  · rw [hauto, hconfigured]
    intro hfalse
    cases hfalse

theorem sendCopy_log (s : EtherMAC) (frame : EtherFrame) :
    (s.sendCopy frame).log = (s.emit [.frame frame]).log := by
  simp only [sendCopy]
  split <;> rfl

theorem collide_log (s : EtherMAC) : s.collide.log = s.log := by
  simp only [EtherMAC.collide]
  split <;> rfl

theorem collide_transmitState (s : EtherMAC) : s.collide.transmitState = s.transmitState := by
  simp only [EtherMAC.collide]
  split <;> rfl

theorem sendJamSignal_enters (s : EtherMAC) :
    Outcome s.sendJamSignal (Enters .jamming (s.emit [.jam JAM_SIGNAL_BYTES])) fun _ ↦ True :=
  scheduleAt_outcome fun _ ↦ ⟨rfl, rfl⟩

theorem not_idle_of_transmitState (h : s.transmitState ≠ .txIdle) : ¬ s.Idle :=
  fun hidle ↦ h hidle.1

theorem Resting.startFrameTransmission (h : Resting s)
    (hconfigured : s.autoconfigInProgress = false) :
    Outcome s.startFrameTransmission (Served cfg s) fun _ ↦ True := by
  unfold EtherMAC.startFrameTransmission
  cases hqueue : s.txQueue with
  | nil => trivial
  | cons front rest =>
    dsimp only
    generalize hcopy : ({ front with byteLength := _ } : EtherFrame) = copy
    have hid : copy.treeId = front.treeId := by rw [← hcopy]
    apply Outcome.ite
    · intro _
      apply Outcome.bind (sendJamSignal_enters _)
      rintro s₁ ⟨hlog, hstate⟩
      have hstate' : s₁.collide.transmitState = .jamming := (collide_transmitState s₁).trans hstate
      constructor
      · apply h.attempt hconfigured hqueue
        · calc
            s₁.collide.log = s₁.log := collide_log s₁
            _ = ((s.sendCopy copy).emit [.jam JAM_SIGNAL_BYTES]).log := hlog
            _ = ((s.emit [.frame copy]).emit [.jam JAM_SIGNAL_BYTES]).log :=
              emit_log (sendCopy_log s copy) _
            _ = (s.emit [.frame copy, .jam JAM_SIGNAL_BYTES]).log := by rw [emit_emit]; rfl
        · rw [hstate', ← hid]
          rfl
      · apply requested_of_not_idle
        apply not_idle_of_transmitState
        simp [hstate']
    · intro _
      apply (scheduleEndTxPeriod_enters _).post
      rintro s₁ ⟨hlog, hstate⟩
      constructor
      · apply h.attempt hconfigured hqueue (hlog.trans (sendCopy_log s copy))
        rw [hstate, ← hid]
        rfl
      · apply requested_of_not_idle
        apply not_idle_of_transmitState
        simp [hstate]

theorem extendCarrier_cases (s : EtherMAC) : s.extendCarrier = s ∨
    ∃ front rest byteLength, s.txQueue = front :: rest ∧
      s.extendCarrier = { s with txQueue := { front with byteLength } :: rest } := by
  unfold extendCarrier
  cases hqueue : s.txQueue with
  | nil => exact .inl rfl
  | cons front rest =>
    dsimp only
    split
    · exact .inr ⟨front, rest, _, rfl, rfl⟩
    · exact .inl rfl

theorem Resting.extendCarrier (h : Resting s) : Resting s.extendCarrier := by
  obtain heq | ⟨front, rest, byteLength, hqueue, heq⟩ := extendCarrier_cases s
  · rw [heq]
    exact h
  · obtain ⟨⟨hwire, haccepted, horder, hcounted, hsent, hgivenUp⟩, hattempts, -⟩ := h
    rw [heq]
    constructor
    · constructor
      · simpa [earlier, hqueue, EtherMAC.wire] using hwire
      · simpa [departed, hqueue] using haccepted
      · simpa [departed, dataIds, hqueue, List.filter_cons, EtherFrame.isData, apply_ite] using horder
      · exact hcounted
      · exact hsent
      · exact hgivenUp
    · exact hattempts
    · intro hempty
      cases hempty

theorem extendCarrier_requests : s.extendCarrier.requests = s.requests := by
  obtain heq | ⟨front, rest, byteLength, -, heq⟩ := extendCarrier_cases s
  · rw [heq]
  · rw [heq]

theorem extendCarrier_autoconfig :
    s.extendCarrier.autoconfigInProgress = s.autoconfigInProgress := by
  obtain heq | ⟨front, rest, byteLength, -, heq⟩ := extendCarrier_cases s
  · rw [heq]
  · rw [heq]

theorem Served.of_requests (h : Served cfg s₁ s') (heq : s₁.requests = s.requests) :
    Served cfg s s' := by
  refine ⟨h.1, ?_⟩
  intro hmodule hidle
  rw [h.2 hmodule hidle, heq]

theorem Resting.handleEndIFGPeriod (h : Resting s) (hconfigured : s.autoconfigInProgress = false) :
    Outcome s.handleEndIFGPeriod (Served cfg s) fun _ ↦ True := by
  have hbase : Outcome s.handleEndIFGPeriodBase
      (fun s₁ ↦ Resting s₁ ∧ s₁.requests = s.requests ∧
        s₁.autoconfigInProgress = s.autoconfigInProgress) fun _ ↦ True := by
    apply Outcome.ite
    · intro _
      trivial
    · intro _
      apply Outcome.ite
      · intro _
        trivial
      · intro _
        dsimp only
        split
        · exact ⟨h.extendCarrier.of_log rfl, extendCarrier_requests, extendCarrier_autoconfig⟩
        · exact ⟨h.extendCarrier, extendCarrier_requests, extendCarrier_autoconfig⟩
  apply Outcome.bind hbase
  rintro s₁ ⟨hrest, hrequests, hauto⟩
  have hconfigured₁ : s₁.extendCarrier.autoconfigInProgress = false :=
    extendCarrier_autoconfig.trans (hauto.trans hconfigured)
  apply (hrest.extendCarrier.startFrameTransmission hconfigured₁).post
  intro s' hserved
  exact hserved.of_requests (extendCarrier_requests.trans hrequests)

theorem Accounted.handleEndIFGPeriod (h : Accounted s)
    (hconfigured : s.autoconfigInProgress = false) :
    Outcome s.handleEndIFGPeriod (Served cfg s) fun _ ↦ True := by
  by_cases hstate : s.transmitState = .waitIfg
  · have hrest : Resting s := h.resting (by rw [hstate]; rfl)
    exact hrest.handleEndIFGPeriod hconfigured
  · simp [EtherMAC.handleEndIFGPeriod, handleEndIFGPeriodBase, hstate]

/-- The front frame leaves the queue, and the wire has seen what its removal says. -/
theorem Logged.remove {r : Removal} {rest : List EtherFrame} (h : Logged s r.wire)
    (hqueue : s.txQueue = r.frame :: rest)
    (hcollisions : if r.sent then r.collisions ≤ MAX_ATTEMPTS
      else r.collisions = MAX_ATTEMPTS + 1)
    (heq : s'.log = (rest, 0, s.physOut, s.accepted, s.removed ++ [r],
      s.statistics.numFramesSent + if r.sent then 1 else 0, s.autoconfigInProgress)) :
    Resting s' := by
  simp only [log, Prod.mk.injEq] at heq
  obtain ⟨hqueue', hbackoffs, hphys, haccepted, hremoved, hcount, -⟩ := heq
  have hall : s'.departed ++ s'.txQueue = s.departed ++ s.txQueue := by
    simp [departed, hremoved, hqueue, hqueue']
  have hearlier : s'.earlier = [] := by
    simp only [earlier, hbackoffs]
    cases s'.txQueue with
    | nil => rfl
    | cons front rest => rfl
  constructor
  · constructor
    · simpa [hearlier, EtherMAC.wire, hphys, hremoved] using h.wire
    · rw [hall, haccepted]
      exact h.accepted
    · rw [hall, haccepted]
      exact h.order
    · cases hsent : r.sent with
      | false => simpa [hcount, hremoved, hsent] using h.counted
      | true => simpa [hcount, hremoved, hsent] using h.counted
    · intro r' hr' hsent
      rw [hremoved, List.mem_append, List.mem_singleton] at hr'
      obtain hold | rfl := hr'
      · exact h.sent r' hold hsent
      · simpa [hsent] using hcollisions
    · intro r' hr' hsent
      rw [hremoved, List.mem_append, List.mem_singleton] at hr'
      obtain hold | rfl := hr'
      · exact h.givenUp r' hold hsent
      · simpa [hsent] using hcollisions
  · rw [hbackoffs]
    exact Nat.zero_le _
  · intro _
    exact hbackoffs

theorem Accounted.handleEndTxPeriod (h : Accounted s)
    (hconfigured : s.autoconfigInProgress = false) :
    Outcome (s.handleEndTxPeriod cfg) (Served cfg s) fun _ ↦ True := by
  have hbase : Outcome s.handleEndTxPeriodBase
      (fun s₁ ↦ Resting { s₁ with backoffs := 0 } ∧ s₁.requests = s.requests ∧
        s₁.autoconfigInProgress = s.autoconfigInProgress) fun _ ↦ True := by
    apply Outcome.ite
    · intro _
      trivial
    · intro hlegal
      have hstate : s.transmitState = .transmitting := by
        by_contra hne
        exact hlegal (.inl hne)
      cases hqueue : s.txQueue with
      | nil => trivial
      | cons front rest =>
        have hlogged := h.logged
        simp only [earlier, current, hqueue, hstate] at hlogged
        constructor
        · exact Logged.remove (r := ⟨front, s.backoffs, true⟩) hlogged hqueue h.attempts rfl
        · exact ⟨rfl, rfl⟩
  apply Outcome.bind hbase
  rintro s₁ ⟨hrest, hrequests, hauto⟩
  have hrequests₂ : { s₁ with backoffs := 0 }.requests = s.requests := hrequests
  have hconfigured₂ : { s₁ with backoffs := 0 }.autoconfigInProgress = false :=
    hauto.trans hconfigured
  generalize { s₁ with backoffs := 0 } = s₂ at hrest hrequests₂ hconfigured₂
  unfold checkAndScheduleEndPausePeriod
  by_cases hpause : 0 < s₂.pauseUnitsRequested
  · simp only [hpause, if_true, bind_assoc]
    apply Outcome.bind (scheduleEndPausePeriod_enters s₂ s₂.pauseUnitsRequested)
    intro s₃ henters
    have hserved : Served cfg s₂ { s₃ with pauseUnitsRequested := 0 } :=
      hrest.enters ⟨henters.1, henters.2⟩ rfl (by decide)
    exact hserved.of_requests hrequests₂
  · simp only [hpause, if_false]
    apply Outcome.ite
    · intro _
      apply (hrest.startFrameTransmission hconfigured₂).post
      intro s' hserved
      exact hserved.of_requests hrequests₂
    · intro _
      apply hrest.beginSendFrames.post
      intro s' hserved
      exact hserved.of_requests hrequests₂

theorem Accounted.handleEndPausePeriod (h : Accounted s) :
    Outcome (s.handleEndPausePeriod cfg) (Served cfg s) fun _ ↦ True := by
  apply Outcome.ite
  · intro _
    trivial
  · intro hstate
    apply Resting.beginSendFrames
    apply h.resting
    rw [not_not.mp hstate]
    rfl

theorem Accounted.handleEndBackoffPeriod (h : Accounted s) :
    Outcome s.handleEndBackoffPeriod (Served cfg s) fun _ ↦ True := by
  apply Outcome.ite
  · intro _
    trivial
  · intro hstate
    have hrest : Resting s := by
      apply h.resting
      rw [not_not.mp hstate]
      rfl
    apply Outcome.ite
    · intro _
      trivial
    · intro hqueue
      apply Outcome.ite
      · intro _
        exact hrest.scheduleEndIFGPeriod
      · intro _
        constructor
        · apply Resting.accounted
          · exact hrest.of_log rfl
          · rfl
        · apply requested_of_not_idle
          rintro ⟨-, hempty⟩
          exact hqueue hempty

theorem earlier_eq (front : EtherFrame) (rest : List EtherFrame) (n : ℕ)
    (hqueue : s.txQueue = front :: rest) (hbackoffs : s.backoffs = n) :
    s.earlier = aborted front.treeId n := by
  simp only [earlier, hqueue, hbackoffs]

theorem aborted_succ (treeId n : ℕ) :
    aborted treeId (n + 1) = aborted treeId n ++ [.frame treeId, .jam] := by
  simp [aborted, List.replicate_succ']

/-- A frame that is given up must not be the last one for a queue module. -/
theorem Accounted.handleEndJammingPeriod (h : Accounted s) (draw : ℕ)
    (hlast : cfg.queueModule = true → MAX_ATTEMPTS ≤ s.backoffs → s.txQueue.length ≠ 1) :
    Outcome (s.handleEndJammingPeriod draw) (Served cfg s) fun _ ↦ True := by
  apply Outcome.ite
  · intro _
    trivial
  · intro hne
    have hstate : s.transmitState = .jamming := not_not.mp hne
    have hattempts := h.attempts
    cases hqueue : s.txQueue with
    | nil =>
      have hsending := (h.fresh hqueue).2
      rw [hstate] at hsending
      cases hsending
    | cons front rest =>
      have hlogged := h.logged
      simp only [earlier, current, hqueue, hstate, TransmitState.signals] at hlogged
      rw [← aborted_succ] at hlogged
      apply Outcome.ite
      · intro hmax
        dsimp only
        rw [hqueue]
        have hmax : s.backoffs + 1 = MAX_ATTEMPTS + 1 := by
          have : MAX_ATTEMPTS < s.backoffs + 1 := hmax
          omega
        have hremoval : Logged s (Removal.wire ⟨front, s.backoffs + 1, false⟩) := by
          simpa [Removal.wire] using hlogged
        constructor
        · apply Resting.accounted
          · exact hremoval.remove hqueue hmax rfl
          · rfl
        · rintro hmodule ⟨-, hempty⟩
          have hlength := hlast hmodule (by omega)
          rw [hqueue, show rest = [] from hempty] at hlength
          exact absurd rfl hlength
      · intro hmax
        apply scheduleAt_outcome
        intro _
        constructor
        · apply Resting.accounted
          · constructor
            · rw [earlier_eq front rest (s.backoffs + 1)]
              · exact ⟨hlogged.1, hlogged.2, hlogged.3, hlogged.4, hlogged.5, hlogged.6⟩
              · exact hqueue
              · rfl
            · exact Nat.le_of_not_lt hmax
            · intro hempty
              rw [show s.txQueue = [] from hempty] at hqueue
              cases hqueue
          · rfl
        · apply requested_of_not_idle
          apply not_idle_of_transmitState
          simp

/-! ## The receiver -/

/-- Nothing is sent, and the transmitter at most goes from idling to pausing. -/
def Silent (s s' : EtherMAC) : Prop :=
  s'.log = s.log ∧
    (s'.transmitState = s.transmitState ∨ s.transmitState = .txIdle ∧ s'.transmitState = .pause)

theorem Accounted.silent (h : Accounted s) (hsilent : Silent s s') : Accounted s' := by
  obtain ⟨hlog, hsame | ⟨hidle, hpause⟩⟩ := hsilent
  · exact h.of_log hlog hsame
  · have hrest : Resting s := h.resting (by rw [hidle]; rfl)
    exact (hrest.of_log hlog).accounted (by rw [hpause]; rfl)

theorem Silent.not_idle (hsilent : Silent s s') (h : ¬ s.Idle) : ¬ s'.Idle := by
  rintro ⟨hstate, hempty⟩
  have hqueue : s'.txQueue = s.txQueue := congrArg Prod.fst hsilent.1
  obtain hsame | ⟨-, hpause⟩ := hsilent.2
  · exact h ⟨hsame.symm.trans hstate, hqueue.symm.trans hempty⟩
  · rw [hpause] at hstate
    cases hstate

theorem processPauseCommand_silent (s : EtherMAC) (pauseUnits : ℤ) :
    Outcome (s.processPauseCommand pauseUnits) (Silent s) fun _ ↦ True := by
  unfold EtherMAC.processPauseCommand
  cases hstate : s.transmitState with
  | txIdle =>
    apply Outcome.ite
    · intro _
      exact (scheduleEndPausePeriod_enters s pauseUnits).post fun s' henters ↦
        ⟨henters.1, .inr ⟨hstate, henters.2⟩⟩
    · intro _
      exact ⟨rfl, .inl rfl⟩
  | pause =>
    apply Outcome.ite
    · intro _
      exact (scheduleEndPausePeriod_enters _ pauseUnits).post fun s' henters ↦
        ⟨henters.1.trans rfl, .inl (henters.2.trans hstate.symm)⟩
    · intro _
      exact ⟨rfl, .inl hstate.symm⟩
  | waitIfg | transmitting | jamming | backoff => exact ⟨rfl, .inl hstate.symm⟩

theorem completeReception_silent (s : EtherMAC) :
    Outcome (s.completeReception cfg) (Silent s) fun _ ↦ True := by
  unfold EtherMAC.completeReception
  cases s.frameBeingReceived with
  | none => trivial
  | some frame =>
    dsimp only [EtherMAC.frameReceptionComplete]
    cases frame.pauseTime with
    | some pauseUnits => exact (processPauseCommand_silent _ pauseUnits).post fun s' h ↦ ⟨h.1, h.2⟩
    | none =>
      apply Outcome.ite
      · intro _
        exact ⟨rfl, .inl rfl⟩
      · intro _
        apply Outcome.ite
        · intro _
          trivial
        · intro _
          apply Outcome.ite
          · intro _
            exact ⟨rfl, .inl rfl⟩
          · intro _
            exact ⟨rfl, .inl rfl⟩

theorem passOn_silent (s : EtherMAC) : Outcome (s.passOn cfg) (Silent s) fun _ ↦ True := by
  apply Outcome.ite
  · intro _
    exact completeReception_silent s
  · intro _
    exact ⟨rfl, .inl rfl⟩

/-- The same as `Served` for a transmitter that had something to do. -/
def Continued (cfg : Config) (s s' : EtherMAC) : Prop :=
  Accounted s' ∧ (¬ s.Idle → Requested cfg s s')

theorem Served.continued (h : Served cfg s s') : Continued cfg s s' := ⟨h.1, fun _ ↦ h.2⟩

theorem Accounted.continued (h : Accounted s) (hsilent : Silent s s') : Continued cfg s s' :=
  ⟨h.silent hsilent, fun hidle ↦ requested_of_not_idle (hsilent.not_idle hidle)⟩

theorem Accounted.handleEndRxPeriod (h : Accounted s) :
    Outcome (s.handleEndRxPeriod cfg) (Continued cfg s) fun _ ↦ True := by
  apply Outcome.bind (passOn_silent s)
  intro s₁ hsilent
  apply Outcome.ite
  · intro hwaiting
    simp only [Bool.and_eq_true, decide_eq_true_eq] at hwaiting
    have hrest : Resting s₁ := (h.silent hsilent).resting (by rw [hwaiting.1]; rfl)
    apply (scheduleEndIFGPeriod_enters _).post
    intro s' henters
    constructor
    · have hserved : Served cfg s₁ s' := hrest.enters henters rfl (by decide)
      exact hserved.1
    · intro _
      apply requested_of_not_idle
      apply not_idle_of_transmitState
      rw [henters.2]
      decide
  · intro _
    have hsilent' : Silent s
        { s₁ with receiveState := .rxIdle, numConcurrentTransmissions := 0 } := hsilent
    exact h.continued hsilent'

/-! ## The network -/

theorem Accounted.jam (h : Accounted s) (hstate : s.transmitState = .transmitting)
    (hlog : s'.log = (s.emit [.jam JAM_SIGNAL_BYTES]).log) (hjamming : s'.transmitState = .jamming) :
    Accounted s' := by
  cases hqueue : s.txQueue with
  | nil =>
    have hsending := (h.fresh hqueue).2
    rw [hstate] at hsending
    cases hsending
  | cons front rest =>
    have hlogged := h.logged.emit hlog
    simp only [log, emit, Prod.mk.injEq] at hlog
    obtain ⟨hqueue', hbackoffs, -, -, -, -, hauto⟩ := hlog
    constructor
    · simpa [earlier, current, hqueue', hqueue, hbackoffs, hstate, hjamming, TransmitState.signals,
        Packet.signal?] using hlogged
    · rw [hbackoffs]
      exact h.attempts
    · rw [hqueue', hqueue]
      intro hempty
      cases hempty
    · intro htrue
      have hsending := h.configured (hauto ▸ htrue)
      rw [hstate] at hsending
      cases hsending

theorem Accounted.interrupt (h : Accounted s) (hstate : s.transmitState = .transmitting)
    (endRxTime : ℚ) : Outcome (s.interrupt endRxTime) (Continued cfg s) fun _ ↦ True := by
  apply Outcome.bind (sendJamSignal_enters _)
  rintro s₁ ⟨hlog, hjamming⟩
  apply scheduleAt_outcome
  intro _
  constructor
  · exact h.jam hstate hlog hjamming
  · intro _
    apply requested_of_not_idle
    apply not_idle_of_transmitState
    simp [countCollision, hjamming]

theorem scheduleEndRxPeriod_silent (s : EtherMAC) :
    Outcome (s.scheduleEndRxPeriod frame) (Silent s) fun _ ↦ True :=
  scheduleAt_outcome fun _ ↦ ⟨rfl, .inl rfl⟩

theorem startReception_silent (s : EtherMAC) :
    Outcome (s.startReception frame) (Silent s) fun _ ↦ True := by
  apply Outcome.ite
  · intro _
    trivial
  · intro _
    exact (scheduleEndRxPeriod_silent _).post fun s' h ↦ ⟨h.1, h.2⟩

theorem receiveBackToBack_silent (s : EtherMAC) :
    Outcome (s.receiveBackToBack cfg frame) (Silent s) fun _ ↦ True := by
  apply Outcome.bind (completeReception_silent _)
  intro s₁ hsilent
  apply scheduleAt_outcome
  intro _
  exact ⟨hsilent.1, hsilent.2⟩

theorem collide_silent (hlog : s₁.log = s.log) (hstate : s₁.transmitState = s.transmitState) :
    Silent s s₁.collide :=
  ⟨(collide_log s₁).trans hlog, .inl ((collide_transmitState s₁).trans hstate)⟩

theorem overlapJam_silent (s : EtherMAC) (endRxTime : ℚ) :
    Outcome (s.overlapJam endRxTime) (Silent s) fun _ ↦ True := by
  apply Outcome.ite
  · intro _
    trivial
  · intro _
    apply Outcome.ite
    · intro _
      exact collide_silent rfl rfl
    · intro _
      exact collide_silent rfl rfl

theorem overlapFrame_silent (s : EtherMAC) (endRxTime : ℚ) : Silent s (s.overlapFrame endRxTime) := by
  simp only [EtherMAC.overlapFrame]
  split
  · exact collide_silent rfl rfl
  · exact collide_silent rfl rfl

theorem Accounted.processMsgFromNetwork (h : Accounted s) (packet : Packet) (sendingTime : ℚ) :
    Outcome (s.processMsgFromNetwork cfg packet sendingTime) (Continued cfg s) fun _ ↦ True := by
  have hbase : Outcome (s.processMsgFromNetworkBase packet sendingTime) (fun _ ↦ True)
      fun _ ↦ True := by
    cases s.processMsgFromNetworkBase packet sendingTime with
    | ok _ => trivial
    | error _ => trivial
  apply Outcome.bind hbase
  intro _ _
  cases packet with
  | frame frame =>
    apply Outcome.ite
    · intro hsending
      exact h.interrupt hsending.2 _
    · intro _
      apply Outcome.ite
      · intro _
        exact (startReception_silent s).post fun _ hsilent ↦ h.continued hsilent
      · intro _
        apply Outcome.ite
        · intro _
          exact (receiveBackToBack_silent s).post fun _ hsilent ↦ h.continued hsilent
        · intro _
          exact h.continued (overlapFrame_silent s _)
  | jam n | autoconfig txrate halfDuplex =>
    apply Outcome.ite
    · intro _
      trivial
    · intro _
      apply Outcome.ite
      · intro _
        trivial
      · intro _
        exact (overlapJam_silent s _).post fun _ hsilent ↦ h.continued hsilent

/-! ## The upper layer -/

/-- The frame at the front has been on the wire. -/
def attempted (s : EtherMAC) : Bool := s.backoffs != 0 || s.transmitState.isSending

theorem earlier_eq_nil (h : s.backoffs = 0) : s.earlier = [] := by
  unfold earlier
  cases s.txQueue with
  | nil => rfl
  | cons front rest => simp [h, aborted]

theorem dataIds_append (frames more : List EtherFrame) :
    dataIds (frames ++ more) = dataIds frames ++ dataIds more := by
  simp [dataIds]

/-- The frame is accepted and enters the queue somewhere. -/
theorem Logged.enqueue {pending : List Signal} {queue : List EtherFrame} (h : Logged s pending)
    (heq : s'.log = (s.enqueue frame queue).log) (hperm : queue.Perm (s.txQueue ++ [frame]))
    (horder : dataIds queue = dataIds (s.txQueue ++ [frame])) : Logged s' pending := by
  have hall : (s.departed ++ queue).Perm (s.departed ++ s.txQueue ++ [frame]) := by
    rw [List.append_assoc]
    exact hperm.append_left _
  have henqueued : Logged (s.enqueue frame queue) pending := by
    constructor
    · exact h.wire
    · calc
        ((s.departed ++ queue).map EtherFrame.treeId).Perm
            ((s.departed ++ s.txQueue ++ [frame]).map EtherFrame.treeId) := hall.map _
        _ = (s.departed ++ s.txQueue).map EtherFrame.treeId ++ [frame.treeId] := by
          rw [List.map_append]
          rfl
        List.Perm _ (s.accepted.map EtherFrame.treeId ++ [frame.treeId]) :=
          h.accepted.append_right _
        _ = (s.accepted ++ [frame]).map EtherFrame.treeId := by
          rw [List.map_append]
          rfl
    · calc
        dataIds (s.departed ++ queue) = dataIds (s.departed ++ s.txQueue) ++ dataIds [frame] := by
          rw [dataIds_append, horder, dataIds_append, dataIds_append, List.append_assoc]
        _ = dataIds (s.accepted ++ [frame]) := by rw [h.order, dataIds_append]
    · exact h.counted
    · exact h.sent
    · exact h.givenUp
  exact henqueued.of_log heq

theorem Accounted.append (h : Accounted s)
    (heq : s'.log = (s.enqueue frame (s.txQueue ++ [frame])).log)
    (hstate : s'.transmitState = s.transmitState) : Accounted s' := by
  have hlogged := h.logged.enqueue heq (List.Perm.refl _) rfl
  simp only [log, enqueue, Prod.mk.injEq] at heq
  obtain ⟨hqueue, hbackoffs, -, -, -, -, hauto⟩ := heq
  have hpending : s'.earlier ++ s'.current = s.earlier ++ s.current := by
    cases hcons : s.txQueue with
    | nil =>
      obtain ⟨hzero, hsending⟩ := h.fresh hcons
      rw [earlier_eq_nil hzero, current_eq_nil hsending, earlier_eq_nil (hbackoffs.trans hzero),
        current_eq_nil (hstate ▸ hsending)]
    | cons front rest =>
      simp only [earlier, current, hqueue, hcons, hbackoffs, hstate, List.cons_append]
  constructor
  · rw [hpending]
    exact hlogged
  · rw [hbackoffs]
    exact h.attempts
  · intro hempty
    simp [hqueue] at hempty
  · rw [hauto, hstate]
    exact h.configured

/-- A PAUSE frame goes to the front of the queue, where no attempt has been made. -/
theorem Accounted.push (h : Accounted s) (hpause : frame.isData = false)
    (hfree : s.attempted = false) (heq : s'.log = (s.enqueue frame (frame :: s.txQueue)).log)
    (hstate : s'.transmitState = s.transmitState) : Accounted s' := by
  simp only [attempted, Bool.or_eq_false_iff, bne_eq_false_iff_eq] at hfree
  obtain ⟨hzero, hsending⟩ := hfree
  have horder : dataIds (frame :: s.txQueue) = dataIds (s.txQueue ++ [frame]) := by
    simp [dataIds, hpause]
  have hlogged := h.logged.enqueue heq (List.perm_append_singleton frame s.txQueue).symm horder
  rw [earlier_eq_nil hzero, current_eq_nil hsending] at hlogged
  simp only [log, enqueue, Prod.mk.injEq] at heq
  obtain ⟨hqueue, hbackoffs, -, -, -, -, hauto⟩ := heq
  constructor
  · rw [earlier_eq_nil (hbackoffs.trans hzero), current_eq_nil (hstate ▸ hsending)]
    exact hlogged
  · rw [hbackoffs]
    exact h.attempts
  · intro hempty
    simp [hqueue] at hempty
  · rw [hauto, hstate]
    exact h.configured

/-- The upper layer wants a PAUSE frame to be sent. -/
def Message.sendsPause : Message → Bool
  | upperLayer frame => !frame.isData
  | _ => false

/-- No PAUSE frame comes when the front frame has been on the wire, and a queue module's last frame
is not given up. -/
structure Undisturbed (cfg : Config) (s : EtherMAC) (event : Event) : Prop where
  pause : event.message.sendsPause = true → s.attempted = false
  giveUp : cfg.queueModule = true → s.givesUp event = true → s.txQueue.length ≠ 1

instance (cfg : Config) (s : EtherMAC) (event : Event) : Decidable (Undisturbed cfg s event) :=
  decidable_of_iff ((event.message.sendsPause = true → s.attempted = false) ∧
      (cfg.queueModule = true → s.givesUp event = true → s.txQueue.length ≠ 1))
    ⟨fun h ↦ ⟨h.1, h.2⟩, fun h ↦ ⟨h.pause, h.giveUp⟩⟩

theorem Accounted.processFrameFromUpperLayer (h : Accounted s)
    (hpause : frame.isData = false → s.attempted = false) :
    Outcome (s.processFrameFromUpperLayer cfg frame) (Continued cfg s) fun _ ↦ True := by
  have hbase : Outcome (s.processFrameFromUpperLayerBase cfg frame)
      (fun s₁ ↦ Accounted s₁ ∧ s₁.txQueue ≠ []) fun _ ↦ True := by
    apply Outcome.ite
    · intro _
      trivial
    · intro _
      apply Outcome.ite
      · intro _
        trivial
      · intro _
        apply Outcome.ite
        · intro _
          apply Outcome.ite
          · intro _
            trivial
          · intro _
            exact ⟨h.append rfl rfl, by simp [enqueue]⟩
        · intro hkind
          have hnot : frame.isData = false := by
            simpa [EtherFrame.isData, Option.isSome_iff_ne_none] using hkind
          have hpush : ∀ queue, queue = frame :: s.txQueue → Accounted (s.enqueue frame queue) := by
            rintro _ rfl
            exact h.push hnot (hpause hnot) rfl rfl
          cases hqueue : s.txQueue with
          | nil => exact ⟨hpush _ (by rw [hqueue]), by simp [enqueue]⟩
          | cons front rest => exact ⟨hpush _ (by rw [hqueue]), by simp [enqueue]⟩
  apply Outcome.bind hbase
  rintro s₁ ⟨haccounted, hqueue⟩
  apply Outcome.ite
  · intro hfree
    simp only [Bool.and_eq_true, decide_eq_true_eq] at hfree
    have hrest : Resting s₁ := haccounted.resting (by rw [hfree.2]; rfl)
    apply (scheduleEndIFGPeriod_enters _).post
    intro s' henters
    constructor
    · have hserved : Served cfg s₁ s' := hrest.enters henters rfl (by decide)
      exact hserved.1
    · intro _
      apply requested_of_not_idle
      apply not_idle_of_transmitState
      rw [henters.2]
      decide
  · intro _
    constructor
    · exact haccounted
    · intro _
      apply requested_of_not_idle
      rintro ⟨-, hempty⟩
      exact hqueue hempty

/-! ## Runs -/

theorem Accounted.finishAutoconfig (h : Accounted s) (hauto : s.autoconfigInProgress = true) :
    Outcome (s.finishAutoconfig cfg) (Continued cfg s) fun _ ↦ True := by
  have hsending := h.configured hauto
  have hrest := h.resting hsending
  have hparams : ∀ txrate duplexMode, Outcome (calculateParameters txrate duplexMode)
      (fun _ ↦ True) fun _ ↦ True := by
    intro txrate duplexMode
    exact (calculateParameters_spec txrate duplexMode).mono (fun _ _ ↦ trivial) fun _ _ ↦ trivial
  apply Outcome.bind (hparams _ _)
  intro params _
  have hrest₁ : ∀ txrate duplexMode, Resting { s with
      autoconfigInProgress := false, endAutoconfigMsg := none, txrate, duplexMode, params } := by
    intro txrate duplexMode
    have hl := hrest.logged
    exact ⟨⟨hl.1, hl.2, hl.3, hl.4, hl.5, hl.6⟩, hrest.attempts, hrest.fresh⟩
  apply Outcome.ite
  · intro _
    apply Outcome.post (hrest₁ _ _).scheduleEndIFGPeriod
    intro s' hserved
    have hserved' : Served cfg s s' := hserved.of_requests rfl
    exact hserved'.continued
  · intro _
    constructor
    · exact (hrest₁ _ _).accounted hsending
    · intro hidle
      exact requested_of_not_idle hidle

theorem Accounted.handleAutoconfigMessage (h : Accounted s) (hauto : s.autoconfigInProgress = true)
    (message : Message)
    (hpause : message.sendsPause = true → s.attempted = false) :
    Outcome (s.handleAutoconfigMessage cfg message) (Continued cfg s) fun _ ↦ True := by
  cases message with
  | upperLayer frame =>
    apply h.processFrameFromUpperLayer
    intro hdata
    exact hpause (by simp [Message.sendsPause, hdata])
  | network packet sendingTime =>
    cases packet with
    | autoconfig acTxrate halfDuplex => exact h.continued ⟨rfl, .inl rfl⟩
    | frame _ => trivial
    | jam _ => trivial
  | _ => exact h.finishAutoconfig hauto

theorem Accounted.step (h : Accounted s) {event : Event} (hundisturbed : Undisturbed cfg s event) :
    Outcome (s.handleMessage cfg event) (Continued cfg s) fun _ ↦ True := by
  obtain ⟨time, message⟩ := event
  have h₀ : Accounted { s with now := time } := h.of_log rfl rfl
  apply Outcome.ite
  · intro hauto
    apply h₀.handleAutoconfigMessage hauto
    exact hundisturbed.pause
  · intro hauto
    have hconfigured : s.autoconfigInProgress = false := Bool.eq_false_iff.mpr hauto
    apply Outcome.ite
    · intro _
      trivial
    · intro _
      cases message with
      | upperLayer frame =>
        apply h₀.processFrameFromUpperLayer
        intro hdata
        exact hundisturbed.pause (by simp [Message.sendsPause, hdata])
      | network packet sendingTime => exact h₀.processMsgFromNetwork packet sendingTime
      | endAutoconfig => trivial
      | endIFG =>
        have h₁ : Accounted { s with now := time, endIFGMsg := none } := h.of_log rfl rfl
        exact (h₁.handleEndIFGPeriod hconfigured).post fun s' hserved ↦ hserved.continued
      | endTransmission =>
        have h₁ : Accounted { s with now := time, endTxMsg := none } := h.of_log rfl rfl
        exact (h₁.handleEndTxPeriod hconfigured).post fun s' hserved ↦ hserved.continued
      | endReception =>
        have h₁ : Accounted { s with now := time, endRxMsg := none } := h.of_log rfl rfl
        exact h₁.handleEndRxPeriod
      | endBackoff =>
        have h₁ : Accounted { s with now := time, endBackoffMsg := none } := h.of_log rfl rfl
        exact h₁.handleEndBackoffPeriod.post fun s' hserved ↦ hserved.continued
      | endJamming draw =>
        have h₁ : Accounted { s with now := time, endJammingMsg := none } := h.of_log rfl rfl
        apply (h₁.handleEndJammingPeriod draw ?_).post
        · intro s' hserved
          exact hserved.continued
        · intro hmodule hmax
          exact hundisturbed.giveUp hmodule (decide_eq_true hmax)
      | endPause =>
        have h₁ : Accounted { s with now := time, endPauseMsg := none } := h.of_log rfl rfl
        exact h₁.handleEndPausePeriod.post fun s' hserved ↦ hserved.continued

theorem Accounted.exactlyOnce (h : Accounted s) : ExactlyOnce s :=
  ⟨h.logged.wire, h.logged.accepted, h.logged.order, h.logged.counted, h.logged.sent,
    h.logged.givenUp⟩

/-- In every undisturbed run each frame is sent once or given up once, and a queue module is asked
for the next frame whenever the transmitter runs out of them. -/
theorem every_frame_sent_or_given_up_once
    (h : Reachable (· = initialized cfg) (fun s event ↦ s.Arrives event ∧ Undisturbed cfg s event)
      (handleMessage cfg) s) :
    s.ExactlyOnce ∧ ∀ event s', s.Arrives event → Undisturbed cfg s event →
      s.handleMessage cfg event = .ok s' → cfg.queueModule = true → ¬ s.Idle → s'.Idle →
        s'.requests = s.requests + 1 := by
  have hstart : ∀ s, s = initialized cfg → Accounted s := by
    rintro s rfl
    exact initialized_accounted cfg
  have haccounted : Accounted s := by
    apply h.invariant hstart
    intro s event s' hs hallowed hstep
    exact ((hs.step hallowed.2).of_eq_ok hstep).1
  constructor
  · exact haccounted.exactlyOnce
  · intro event s' _ hundisturbed hstep hmodule hbusy hidle
    exact ((haccounted.step hundisturbed).of_eq_ok hstep).2 hbusy hmodule hidle

def bridged : Config := { station with queueModule := true }

/-- A frame is under transmission. -/
def underTransmission : List Event :=
  [⟨1 / 1000, .endAutoconfig⟩, ⟨2 / 1000, .upperLayer dataFrame⟩,
    ⟨2 / 1000 + 96 / 100000000, .endIFG⟩]

def endOfTransmission : Event := ⟨2 / 1000 + 960 / 100000000, .endTransmission⟩

theorem next_frame_requested : ∃ s s', run (handleMessage bridged) (initialized bridged)
      underTransmission = .ok s ∧ s.handleMessage bridged endOfTransmission = .ok s' ∧
    s.ExactlyOnce ∧ s'.requests = s.requests + 1 := by
  have hcheck : (match run (handleMessage bridged) (initialized bridged) underTransmission with
      | .ok s => (match s.handleMessage bridged endOfTransmission with
        | .ok s' => decide (s.Arrives endOfTransmission ∧ Undisturbed bridged s endOfTransmission ∧
            ¬ (s.transmitState = .txIdle ∧ s.txQueue = []) ∧
            (s'.transmitState = .txIdle ∧ s'.txQueue = []))
        | .error _ => false)
      | .error _ => false) = true := by decide +kernel
  cases hrun : run (handleMessage bridged) (initialized bridged) underTransmission with
  | error e =>
    rw [hrun] at hcheck
    cases hcheck
  | ok s =>
    rw [hrun] at hcheck
    dsimp only at hcheck
    cases hstep : s.handleMessage bridged endOfTransmission with
    | error e =>
      rw [hstep] at hcheck
      cases hcheck
    | ok s' =>
      rw [hstep] at hcheck
      obtain ⟨harrives, hundisturbed, hbusy, hidle⟩ := of_decide_eq_true hcheck
      have hreach : Reachable (· = initialized bridged)
          (fun s event ↦ s.Arrives event ∧ Undisturbed bridged s event) (handleMessage bridged) s :=
        Reachable.of_run (.start rfl) underTransmission (by decide +kernel) hrun
      obtain ⟨honce, hnext⟩ := every_frame_sent_or_given_up_once hreach
      exact ⟨s, s', rfl, hstep, honce,
        hnext endOfTransmission s' harrives hundisturbed hstep rfl hbusy hidle⟩

/-- A PAUSE frame from the upper layer during a transmission. -/
def disturbed : List Event :=
  underTransmission ++ [⟨2 / 1000 + 200 / 100000000, .upperLayer ⟨1, 3, 0, 64, false, some 5⟩⟩,
    endOfTransmission]

/-- A single frame that collides until it is about to be given up. -/
def aboutToGiveUp : List Event :=
  [⟨1 / 1000, .endAutoconfig⟩, ⟨2 / 1000, .upperLayer dataFrame⟩] ++
    ((List.range 17).flatMap fun k ↦ collision (2 / 1000 + 128 * k / 100000000)).dropLast.dropLast

/-- The PAUSE frame is taken for the frame that has been sent. No frame is requested after the last
one was given up. -/
theorem pause_frame_removed_unsent_and_no_request :
    (∃ s, Reachable (· = initialized station) Arrives (handleMessage station) s ∧
      ¬ s.ExactlyOnce) ∧
    ∃ s event s', Reachable (· = initialized { bridged with duplexEnabled := false }) Arrives
        (handleMessage { bridged with duplexEnabled := false }) s ∧
      s.Arrives event ∧ s.handleMessage { bridged with duplexEnabled := false } event = .ok s' ∧
      ¬ s.Idle ∧ s'.Idle ∧ s'.requests = s.requests := by
  constructor
  · obtain ⟨s, hrun, hcheck⟩ := exists_ok (run (handleMessage station) (initialized station) disturbed)
      (fun s ↦ s.wire ≠ s.removed.flatMap Removal.wire ++ (s.earlier ++ s.current)) (by decide +kernel)
    have hreach : Reachable (· = initialized station) Arrives (handleMessage station) s :=
      Reachable.of_run (.start rfl) disturbed (by decide +kernel) hrun
    exact ⟨s, hreach, fun honce ↦ hcheck honce.wire⟩
  · let half := { bridged with duplexEnabled := false }
    let event : Event := ⟨2 / 1000 + 128 * 17 / 100000000, .endJamming 0⟩
    have hcheck : (match run (handleMessage half) (initialized half) aboutToGiveUp with
        | .ok s => (match s.handleMessage half event with
          | .ok s' => decide (s.Arrives event ∧ ¬ (s.transmitState = .txIdle ∧ s.txQueue = []) ∧
              (s'.transmitState = .txIdle ∧ s'.txQueue = []) ∧ s'.requests = s.requests)
          | .error _ => false)
        | .error _ => false) = true := by decide +kernel
    cases hrun : run (handleMessage half) (initialized half) aboutToGiveUp with
    | error e =>
      rw [hrun] at hcheck
      cases hcheck
    | ok s =>
      rw [hrun] at hcheck
      dsimp only at hcheck
      cases hstep : s.handleMessage half event with
      | error e =>
        rw [hstep] at hcheck
        cases hcheck
      | ok s' =>
        rw [hstep] at hcheck
        obtain ⟨harrives, hbusy, hidle, hrequests⟩ := of_decide_eq_true hcheck
        have hreach : Reachable (· = initialized half) Arrives (handleMessage half) s :=
          Reachable.of_run (.start rfl) aboutToGiveUp (by decide +kernel) hrun
        exact ⟨s, event, s', hreach, harrives, hstep, hbusy, hidle, hrequests⟩

end EtherMAC

end InetManet
