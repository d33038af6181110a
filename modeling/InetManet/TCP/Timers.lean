import InetManet.TCP.Transition

/-!
# Timers and FSM states

The 2MSL timer belongs to TIME_WAIT, and CONN-ESTAB and SYN-REXMIT belong to SYN_SENT and SYN_RCVD.
The 2MSL timer is armed while a segment is being processed, before its event code is final: in
CLOSING the FIN bit of a segment overwrites the `RCV_ACK` that would have taken the connection to
TIME_WAIT. On runs without such a segment the timers follow the state, no timeout hits its
"Internal error" branch, and `TCP_I_CLOSED` is indicated at most once.
-/

namespace InetManet.TCP

open TransitionSystem

namespace TCPConnection

/-! ## The invariant -/

def closedIndications (c : TCPConnection) : ℕ := c.log.count (.indication .closed)

/-- The part of the invariant that every stage of processing keeps. -/
structure TimerBase (c : TCPConnection) : Prop where
  the2MSL : .the2MSL ∈ c.timers → c.fsm = .timeWait
  finWait2 : .finWait2 ∉ c.timers
  closed_le : c.closedIndications ≤ 1
  closed_eq : c.fsm ≠ .timeWait → c.fsm ≠ .closed → c.closedIndications = 0

structure TimerInv (c : TCPConnection) : Prop extends TimerBase c where
  setup : c.HasSetupTimer → InSetup c.fsm
  closing : c.fsm = .closing → c.finAckRcvd = false

/-- What holds between the actions and the transition to state `s`. -/
structure TimerMid (c : TCPConnection) (s : TcpState) : Prop where
  the2MSL : .the2MSL ∈ c.timers → s = .timeWait ∨ s = .closed
  setup : c.HasSetupTimer → InSetup s ∨ s ≠ c.fsm
  finWait2 : .finWait2 ∉ c.timers
  closing : s = .closing → c.finAckRcvd = false
  closed_le : c.closedIndications ≤ 1
  closed_eq : s ≠ .timeWait → s ≠ .closed → c.closedIndications = 0

variable {c c₁ : TCPConnection} {event : TCPEventCode}

theorem nextState_timeWait (active : Bool) (event : TCPEventCode) :
    nextState active .timeWait event = .timeWait ∨ nextState active .timeWait event = .closed := by
  cases event <;> first | exact .inl rfl | exact .inr rfl

theorem nextState_closed (active : Bool) (event : TCPEventCode) :
    nextState active .closed event = .closed := by
  cases event <;> rfl

theorem nextState_ne_init (active : Bool) (s : TcpState) (event : TCPEventCode)
    (h : nextState active s event ≠ s) : nextState active s event ≠ .init := by
  intro hi
  cases s <;> cases event <;> cases active <;> first | exact h rfl | cases hi

/-- The common case: whatever the event, only the entry into CLOSING has to be looked at. -/
theorem TimerBase.mid (h : TimerBase c)
    (hsetup : c.HasSetupTimer → InSetup c.fsm ∨ nextState c.active c.fsm event ≠ c.fsm)
    (hclosing : nextState c.active c.fsm event = .closing → c.finAckRcvd = false) :
    TimerMid c (nextState c.active c.fsm event) := by
  refine ⟨fun ht ↦ ?_, fun ht ↦ ?_, h.finWait2, hclosing, h.closed_le, fun htw hcl ↦ ?_⟩
  · rw [h.the2MSL ht]
    exact nextState_timeWait _ _
  · by_cases hs : nextState c.active c.fsm event = c.fsm
    · rw [hs]
      exact .inl ((hsetup ht).resolve_right (absurd hs))
    · exact .inr hs
  · refine h.closed_eq (fun hf ↦ ?_) fun hf ↦ ?_
    · rw [hf] at htw hcl
      exact (nextState_timeWait c.active event).elim htw hcl
    · rw [hf, nextState_closed] at hcl
      exact hcl rfl

theorem TimerMid.transition (h : TimerMid c (nextState c.active c.fsm event))
    (hopen : c.fsm ≠ .closed) :
    Outcome (c.performStateTransition event) TimerInv (¬ Fault.IsTimerFault ·) := by
  refine (c.performStateTransition_outcome event).mono ?_ fun _ hf ↦ hf.ofSending.1
  rintro c' (⟨hs, rfl⟩ | ⟨hs, he⟩)
  · rw [hs] at h
    refine ⟨⟨fun ht ↦ (h.the2MSL ht).resolve_right hopen, h.finWait2, h.closed_le, h.closed_eq⟩,
      fun ht ↦ (h.setup ht).resolve_right (absurd rfl), h.closing⟩
  · have hf : c'.fsm = nextState c.active c.fsm event := he.fsm
    have hlog : c'.closedIndications = c.closedIndications := by
      rw [closedIndications, he.log]
      rfl
    refine ⟨⟨fun ht ↦ ?_, fun ht ↦ h.finWait2 (he.timers _ ht), hlog ▸ h.closed_le, ?_⟩,
      fun ht ↦ ?_, ?_⟩
    · rw [hf]
      exact (h.the2MSL (he.timers _ ht)).resolve_right fun hc ↦ he.closed hc ht
    · rw [hf, hlog]
      exact h.closed_eq
    · rw [hf]
      by_contra hnot
      exact he.setup (nextState_ne_init _ _ _ hs) hnot ht
    · rw [hf, he.finAckRcvd]
      exact h.closing

/-! ## Sending and receiving keep the invariant -/

/-- The connection's own timers, the FSM state and the number of `TCP_I_CLOSED` are unchanged. -/
structure Quiet (c c' : TCPConnection) : Prop where
  fsm : c'.fsm = c.fsm
  active : c'.active = c.active
  timers : ∀ t, t ≠ .rexmit → t ≠ .delayedAck → (t ∈ c'.timers ↔ t ∈ c.timers)
  closed : c'.closedIndications = c.closedIndications

namespace Quiet

protected theorem refl (c : TCPConnection) : Quiet c c := ⟨rfl, rfl, fun _ _ _ ↦ Iff.rfl, rfl⟩

protected theorem trans {c₂ : TCPConnection} (h₁ : Quiet c c₁) (h₂ : Quiet c₁ c₂) : Quiet c c₂ :=
  ⟨h₂.fsm.trans h₁.fsm, h₂.active.trans h₁.active,
    fun t hr hd ↦ (h₂.timers t hr hd).trans (h₁.timers t hr hd), h₂.closed.trans h₁.closed⟩

theorem base (h : Quiet c c₁) (hc : TimerBase c) : TimerBase c₁ := by
  refine ⟨fun ht ↦ ?_, fun ht ↦ ?_, h.closed ▸ hc.closed_le, ?_⟩
  · rw [h.fsm]
    exact hc.the2MSL ((h.timers _ (by decide) (by decide)).mp ht)
  · exact hc.finWait2 ((h.timers _ (by decide) (by decide)).mp ht)
  · rw [h.fsm, h.closed]
    exact hc.closed_eq

theorem hasSetupTimer (h : Quiet c c₁) : c₁.HasSetupTimer ↔ c.HasSetupTimer :=
  or_congr (h.timers _ (by decide) (by decide)) (h.timers _ (by decide) (by decide))

end Quiet

theorem Sends.quiet (h : Sends c c₁) : Quiet c c₁ :=
  ⟨h.fsm, h.active, h.timers, h.count_log fun _ ↦ by simp⟩

theorem quiet_emit {o : Output} (ho : o ≠ .indication .closed) : Quiet c (c.emit o) := by
  refine ⟨rfl, rfl, fun _ _ _ ↦ Iff.rfl, ?_⟩
  simp [closedIndications, emit, ho]

theorem quiet_indication (code : TcpStatusInd) (h : code ≠ .closed) :
    Quiet c (c.sendIndicationToApp code) :=
  quiet_emit fun he ↦ h (by simpa using he)

/-- The computation is quiet and does not touch `fin_ack_rcvd`. -/
abbrev Steady (c c' : TCPConnection) : Prop := Quiet c c' ∧ c'.finAckRcvd = c.finAckRcvd

theorem Sends.steady (h : Sends c c₁) : Steady c c₁ := ⟨h.quiet, h.finAckRcvd⟩

theorem Steady.trans {c₂ : TCPConnection} (h₁ : Steady c c₁) (h₂ : Steady c₁ c₂) : Steady c c₂ :=
  ⟨h₁.1.trans h₂.1, h₂.2.trans h₁.2⟩

section

variable (c : TCPConnection)

section

variable (seg : TCPSegment)

/-- The segment newly acknowledges our FIN. -/
def newlyAcksOurFin : Bool :=
  !seqGE c.sndUna seg.ackNo && seqLE seg.ackNo c.sndMax && c.acksOurFin seg

theorem quiet_updateSendWindow :
    Steady c (c.updateSendWindow seg) := by
  unfold updateSendWindow setSendWindow
  split
  · exact ⟨⟨rfl, rfl, fun _ _ _ ↦ Iff.rfl, rfl⟩, rfl⟩
  · exact ⟨.refl c, rfl⟩

theorem discardUpTo_quiet (seq : Seq) :
    Outcome (c.discardUpTo seq) (Steady c) (¬ Fault.IsTimerFault ·) := by
  refine Outcome.bind (Q := fun _ ↦ True) (Outcome.check_bind (assertion_not_isTimerFault _) trivial) fun q _ ↦ ?_
  exact ⟨⟨rfl, rfl, fun _ _ _ ↦ Iff.rfl, rfl⟩, rfl⟩

theorem quiet_moveSndUna : Quiet c (c.moveSndUna seg) :=
  ⟨rfl, rfl, fun _ _ _ ↦ Iff.rfl, rfl⟩

theorem quiet_setDupacks (n : BitVec 16) : Quiet c { c with dupacks := n } :=
  ⟨rfl, rfl, fun _ _ _ ↦ Iff.rfl, rfl⟩

theorem advanceSndUna_quiet :
    Outcome (c.advanceSndUna seg)
      (fun c' ↦ Quiet c c' ∧ c'.finAckRcvd = (c.finAckRcvd || c.acksOurFin seg))
      (¬ Fault.IsTimerFault ·) := by
  refine (discardUpTo_quiet _ _).bind fun c₁ h₁ ↦ ?_
  have h₂ := h₁.trans (quiet_updateSendWindow c₁ seg)
  exact ⟨(c.quiet_moveSndUna seg).trans h₂.1, h₂.2⟩

theorem processAckInEstabEtc_quiet :
    Outcome (c.processAckInEstabEtc seg)
      (fun r ↦ Quiet c r.2 ∧ r.2.finAckRcvd = (c.finAckRcvd || (r.1 && c.newlyAcksOurFin seg)))
      (¬ Fault.IsTimerFault ·) := by
  unfold processAckInEstabEtc newlyAcksOurFin
  refine Outcome.ite (fun hge ↦ Outcome.ite (fun _ ↦ ?_) fun _ ↦ ?_) fun hge ↦
    Outcome.ite (fun hle ↦ ?_) fun hle ↦ Outcome.check_bind (assertion_not_isTimerFault _) ?_
  · refine (OnlySends.noTimerFault (receivedDuplicateAck_sends _)).bind fun c₁ h₁ ↦ ?_
    exact ⟨(c.quiet_setDupacks _).trans h₁.quiet, by simp [hge, h₁.finAckRcvd]⟩
  · exact ⟨c.quiet_setDupacks _, by simp [hge]⟩
  · refine (c.advanceSndUna_quiet seg).bind fun c₁ h₁ ↦ ?_
    refine (OnlySends.noTimerFault c₁.receivedDataAck_sends).bind fun c₂ h₂ ↦ ?_
    exact ⟨(h₁.1.trans h₂.quiet).trans (c₂.quiet_setDupacks _),
      by simp [hge, hle, h₂.finAckRcvd, h₁.2]⟩
  · have hack := c.sends_sendAck
    exact ⟨hack.quiet.trans (quiet_setDupacks _ _), by simp [hack.finAckRcvd,
      receivedAckForDataNotYetSent]⟩

theorem processAckIfOpen_quiet :
    Outcome (c.processAckIfOpen seg)
      (fun r ↦ Quiet c r.2 ∧ (r.2.finAckRcvd = true → c.finAckRcvd = true ∨
        (r.1 = true ∧ c.newlyAcksOurFin seg = true)))
      (¬ Fault.IsTimerFault ·) := by
  refine Outcome.ite (fun _ ↦ ?_) fun _ ↦ ⟨.refl c, .inl⟩
  refine (c.processAckInEstabEtc_quiet seg).post fun r h ↦ ⟨h.1, fun hf ↦ ?_⟩
  rwa [h.2, Bool.or_eq_true, Bool.and_eq_true] at hf

/-! ## Segment text and FIN -/

theorem quiet_forwardToApp (packets : List ℕ) :
    Steady c (c.forwardToApp packets) := by
  refine ⟨⟨rfl, rfl, fun _ _ _ ↦ Iff.rfl, ?_⟩, rfl⟩
  simp [closedIndications, forwardToApp, List.count_eq_zero]

theorem quiet_consumeFin (finSeq : Seq) : Steady c (c.consumeFin finSeq) := by
  refine ⟨⟨rfl, rfl, fun _ _ _ ↦ Iff.rfl, ?_⟩, rfl⟩
  simp [closedIndications, consumeFin, sendIndicationToApp, emit]

theorem quiet_advanceOverStoredFin : Steady c c.advanceOverStoredFin := by
  unfold advanceOverStoredFin
  split
  · exact c.quiet_consumeFin _
  · exact ⟨.refl c, rfl⟩

theorem quiet_receiveFin : Steady c (c.receiveFin seg) := by
  unfold receiveFin
  dsimp only
  split
  · exact c.quiet_consumeFin _
  · exact ⟨⟨rfl, rfl, fun _ _ _ ↦ Iff.rfl, rfl⟩, rfl⟩

theorem extractTo_not_isTimerFault (asserts : Bool) (q : TCPVirtualDataRcvQueue) (seq : Seq) :
    Outcome (q.extractTo asserts seq) (fun _ ↦ True) (¬ Fault.IsTimerFault ·) := by
  refine Outcome.check_bind (assertion_not_isTimerFault _) ?_
  split
  · trivial
  · exact Outcome.check_bind (assertion_not_isTimerFault _) (Outcome.ite (fun _ ↦ trivial) fun _ ↦
      Outcome.ite (fun _ ↦ trivial) fun _ ↦ trivial)

theorem extractLoop_not_isTimerFault (asserts : Bool) (seq : Seq) (rounds : ℕ)
    (q : TCPVirtualDataRcvQueue) :
    Outcome (q.extractLoop asserts seq rounds) (fun _ ↦ True) (¬ Fault.IsTimerFault ·) := by
  induction rounds generalizing q with
  | zero => exact endlessLoop_not_isTimerFault
  | succ rounds ih =>
    unfold TCPVirtualDataRcvQueue.extractLoop
    refine Outcome.bind (Q := fun _ ↦ True)
      (Outcome.bind (extractTo_not_isTimerFault _ _ _) fun _ _ ↦ trivial) fun r _ ↦ ?_
    obtain ⟨packet, q'⟩ := r
    cases packet with
    | none => trivial
    | some numBytes => exact (ih q').bind fun _ _ ↦ trivial

theorem processSegmentText_quiet :
    Outcome (c.processSegmentText seg) (Steady c) (¬ Fault.IsTimerFault ·) := by
  have hq : ∀ q nxt, Steady c { c with receiveQueue := q, rcvNxt := nxt } := fun q nxt ↦
    ⟨⟨rfl, rfl, fun _ _ _ ↦ Iff.rfl, rfl⟩, rfl⟩
  refine Outcome.ite (fun _ ↦ Outcome.ite (fun _ ↦ ?_) fun _ ↦ ?_) fun _ ↦ ⟨.refl c, rfl⟩
  · exact (hq _ _).trans (sends_sendAck _).steady
  · refine Outcome.bind (extractLoop_not_isTimerFault _ _ _ _) fun r _ ↦ ?_
    exact ((hq _ _).trans (quiet_forwardToApp _ _)).trans (quiet_advanceOverStoredFin _)

end

theorem acknowledgeProgress_sends (oldRcvNxt : Seq) :
    OnlySends c (c.acknowledgeProgress oldRcvNxt) :=
  Outcome.ite (fun _ ↦ c.receiveSeqChanged_sends) fun _ ↦ .refl c

end

/-- The connection is about to enter TIME_WAIT or CLOSED for good. -/
structure Ending (c c' : TCPConnection) : Prop where
  fsm : c'.fsm = c.fsm
  active : c'.active = c.active
  finWait2 : .finWait2 ∉ c'.timers
  closed : c'.closedIndications = 1

theorem Ending.of_steady {c c₁ c₂ : TCPConnection} (h : Ending c c₁) (hs : Steady c₁ c₂) :
    Ending c c₂ :=
  ⟨hs.1.fsm.trans h.fsm, hs.1.active.trans h.active,
    fun ht ↦ h.finWait2 ((hs.1.timers _ (by decide) (by decide)).mp ht),
    hs.1.closed.trans h.closed⟩

theorem Ending.after {c c₁ c₂ : TCPConnection} (h : Ending c₁ c₂) (hs : Quiet c c₁) :
    Ending c c₂ :=
  ⟨h.fsm.trans hs.fsm, h.active.trans hs.active, h.finWait2, h.closed⟩

theorem Ending.mid {c c₁ : TCPConnection} {s : TcpState} (h : Ending c c₁)
    (hs : s = .timeWait ∨ s = .closed) (hne : s ≠ c.fsm) : TimerMid c₁ s := by
  refine ⟨fun _ ↦ hs, fun _ ↦ .inr (h.fsm ▸ hne), h.finWait2, fun hc ↦ ?_, h.closed.le,
    fun h₁ h₂ ↦ absurd hs (not_or.mpr ⟨h₁, h₂⟩)⟩
  rcases hs with rfl | rfl <;> cases hc

theorem ending_closed (h : TimerBase c) (htw : c.fsm ≠ .timeWait) (hcl : c.fsm ≠ .closed) :
    Ending c (c.sendIndicationToApp .closed) := by
  refine ⟨rfl, rfl, h.finWait2, ?_⟩
  have h0 : c.log.count (.indication .closed) = 0 := h.closed_eq htw hcl
  simp [closedIndications, sendIndicationToApp, emit, h0]

theorem enterTimeWait_outcome (h : TimerBase c) (htw : c.fsm ≠ .timeWait) (hcl : c.fsm ≠ .closed) :
    Outcome c.enterTimeWait (Ending c) (¬ Fault.IsTimerFault ·) := by
  have hnot : Timer.the2MSL ∉ c.timers := fun ht ↦ htw (h.the2MSL ht)
  refine Outcome.bind ((c.scheduleTimeout_outcome hnot).mono (fun _ h ↦ h) ?_) ?_
  · rintro e rfl
    exact nullPointer_not_isTimerFault
  · rintro c' rfl
    have hend := ending_closed h htw hcl
    refine ⟨rfl, rfl, ?_, hend.closed⟩
    simpa [sendIndicationToApp, emit] using h.finWait2

theorem quiet_cancelFinWait2 (h : TimerBase c) : Steady c (c.cancelEvent .finWait2) := by
  refine ⟨⟨rfl, rfl, fun t _ _ ↦ ?_, rfl⟩, rfl⟩
  rw [mem_cancelEvent]
  refine and_iff_left_of_imp fun ht hf ↦ ?_
  exact h.finWait2 (hf ▸ ht)

/-- The outcome of an action: a connection ready for the transition its event code asks for. -/
abbrev Ready (x : Except Fault (TCPConnection × TCPEventCode)) : Prop :=
  Outcome x (fun r ↦ TimerMid r.1 (nextState r.1.active r.1.fsm r.2) ∧ r.1.fsm ≠ .closed)
    (¬ Fault.IsTimerFault ·)

/-- The invariant but for the acknowledgment of our FIN. -/
structure TimerOpen (c : TCPConnection) : Prop extends TimerBase c where
  setup : c.HasSetupTimer → InSetup c.fsm
  open' : c.fsm ≠ .closed

theorem Quiet.timerOpen (h : Quiet c c₁) (hc : TimerOpen c) : TimerOpen c₁ :=
  ⟨h.base hc.toTimerBase, fun ht ↦ h.fsm ▸ hc.setup (h.hasSetupTimer.mp ht), h.fsm ▸ hc.open'⟩

theorem restart2MSL_timerOpen (h : TimerOpen c) (htw : c.fsm = .timeWait) :
    Outcome c.restart2MSL
      (fun c' ↦ TimerOpen c' ∧ c'.fsm = c.fsm ∧ c'.active = c.active ∧
        c'.finAckRcvd = c.finAckRcvd) (¬ Fault.IsTimerFault ·) := by
  refine (scheduleTimeout_outcome _ (c.not_mem_cancelEvent .the2MSL)).mono ?_ ?_
  · rintro c' rfl
    have hmem : ∀ t, t ≠ .the2MSL → (t ∈ Timer.the2MSL :: (c.cancelEvent .the2MSL).timers ↔
        t ∈ c.timers) := by
      intro t ht
      simp [mem_cancelEvent, ht]
    refine ⟨⟨⟨fun _ ↦ htw, fun ht ↦ ?_, h.closed_le, h.closed_eq⟩, fun ht ↦ ?_, h.open'⟩,
      rfl, rfl, rfl⟩
    · exact h.finWait2 ((hmem _ (by decide)).mp ht)
    · exact h.setup (Or.imp (hmem _ (by decide)).mp (hmem _ (by decide)).mp ht)
  · rintro e rfl
    exact nullPointer_not_isTimerFault

theorem TimerOpen.ready (h : TimerOpen c)
    (hclosing : nextState c.active c.fsm event = .closing → c.finAckRcvd = false) :
    Ready (.ok (c, event)) :=
  ⟨h.toTimerBase.mid (fun ht ↦ .inl (h.setup ht)) hclosing, h.open'⟩

theorem nextState_eq_closing {active : Bool} {s : TcpState} {event : TCPEventCode}
    (h : nextState active s event = .closing) :
    s = .closing ∨ (s = .finWait1 ∧ event = .rcvFin) := by
  cases s <;> cases event <;> cases active <;> first
    | exact .inl rfl | exact .inr ⟨rfl, rfl⟩ | cases h

theorem Ending.ready {c c₁ : TCPConnection} (h : Ending c c₁) (hopen : c.fsm ≠ .closed)
    (hs : nextState c.active c.fsm event = .timeWait ∨
      nextState c.active c.fsm event = .closed)
    (hne : nextState c.active c.fsm event ≠ c.fsm) : Ready (.ok (c₁, event)) := by
  have hnext : nextState c₁.active c₁.fsm event = nextState c.active c.fsm event := by
    rw [h.fsm, h.active]
  exact ⟨hnext ▸ h.mid hs hne, h.fsm ▸ hopen⟩

theorem Ending.ready_of_next {c c₁ : TCPConnection} {s : TcpState} (h : Ending c c₁)
    (hopen : c.fsm ≠ .closed) (hs : c.fsm = s) (next : TcpState)
    (hnext : nextState c.active s event = next) (hends : next = .timeWait ∨ next = .closed)
    (hne : next ≠ s) : Ready (.ok (c₁, event)) := by
  apply h.ready hopen
  · rw [hs, hnext]
    exact hends
  · rw [hs, hnext]
    exact hne

/-- The FIN bit of a segment, in a connection whose timers are in order. Sending afterwards does not
matter. -/
def AfterFin (c : TCPConnection) (event : TCPEventCode) (r : TCPConnection × TCPEventCode) : Prop :=
  (TimerOpen r.1 ∧ r.1.fsm = c.fsm ∧ r.1.active = c.active ∧ r.1.finAckRcvd = c.finAckRcvd ∧
      (r.2 = event ∨ r.2 = .rcvFin ∧ (c.fsm = .finWait1 → c.finAckRcvd = false))) ∨
    (Ending c r.1 ∧ (c.fsm = .finWait1 ∧ r.2 = .rcvFinAck ∨ c.fsm = .finWait2 ∧ r.2 = .rcvFin))

theorem processFin_outcome (h : TimerOpen c) (seg : TCPSegment) (event : TCPEventCode) :
    Outcome (c.processFin seg event) (AfterFin c event) (¬ Fault.IsTimerFault ·) := by
  have hfin := c.quiet_receiveFin seg
  have hopen := hfin.1.timerOpen h
  have hcancel := hfin.trans (quiet_cancelFinWait2 hopen.toTimerBase)
  have hopen' := hcancel.1.timerOpen h
  unfold processFin
  refine Outcome.ite (fun _ ↦ ?_) fun _ ↦ .inl ⟨h, rfl, rfl, rfl, .inl rfl⟩
  dsimp only
  split <;> rename_i hs
  · have hc : c.fsm = .finWait1 := hfin.1.fsm ▸ hs
    refine Outcome.ite (fun hack ↦ ?_) fun hack ↦ ?_
    · refine (enterTimeWait_outcome hopen'.toTimerBase ?_ ?_).bind fun c₁ h₁ ↦ ?_
      · simp [hcancel.1.fsm, hc]
      · simp [hcancel.1.fsm, hc]
      · exact .inr ⟨h₁.after hcancel.1, .inl ⟨hc, rfl⟩⟩
    · have hf : c.finAckRcvd = false := by simpa [hfin.2] using hack
      exact .inl ⟨hopen, hfin.1.fsm, hfin.1.active, hfin.2, .inr ⟨rfl, fun _ ↦ hf⟩⟩
  · have hc : c.fsm = .finWait2 := hfin.1.fsm ▸ hs
    refine (enterTimeWait_outcome hopen'.toTimerBase ?_ ?_).bind fun c₁ h₁ ↦ ?_
    · simp [hcancel.1.fsm, hc]
    · simp [hcancel.1.fsm, hc]
    · exact .inr ⟨h₁.after hcancel.1, .inr ⟨hc, rfl⟩⟩
  · have hc : c.fsm = .timeWait := hfin.1.fsm ▸ hs
    refine (restart2MSL_timerOpen hopen hs).bind fun c₁ h₁ ↦ ?_
    refine .inl ⟨h₁.1, h₁.2.1.trans hfin.1.fsm, h₁.2.2.1.trans hfin.1.active,
      h₁.2.2.2.trans hfin.2, .inr ⟨rfl, fun hw ↦ ?_⟩⟩
    rw [hc] at hw
    cases hw
  · refine .inl ⟨hopen, hfin.1.fsm, hfin.1.active, hfin.2, .inr ⟨rfl, fun hw ↦ ?_⟩⟩
    exact absurd (hfin.1.fsm.trans hw) (by assumption)

theorem deferredClose_cases (c : TCPConnection) (oldSndNxt : Seq) (event : TCPEventCode) :
    c.deferredClose oldSndNxt event = event ∨
      (c.deferredClose oldSndNxt event = .close ∧
        (c.fsm = .established ∨ c.fsm = .synRcvd ∨ c.fsm = .closeWait)) := by
  unfold deferredClose
  split <;> rename_i h
  · simp only [Bool.and_eq_true, Bool.or_eq_true, beq_iff_eq] at h
    refine .inr ⟨rfl, ?_⟩
    rcases h.2 with (h | h) | h
    · exact .inl h
    · exact .inr (.inl h)
    · exact .inr (.inr h.1)
  · exact .inl rfl

/-- The rest of the segment, in a connection whose timers are in order. -/
theorem processTextAndFin_ready (h : TimerOpen c) (seg : TCPSegment) (oldSndNxt : Seq)
    (hevent : event = .ignore ∨ event = .rcvAck)
    (hclosing : c.fsm = .closing → c.finAckRcvd = false) :
    Ready (c.processTextAndFin seg oldSndNxt event) := by
  refine (c.processSegmentText_quiet seg).bind fun c₁ h₁ ↦ ?_
  refine (processFin_outcome (h₁.1.timerOpen h) seg event).bind fun r hr ↦ ?_
  refine (OnlySends.noTimerFault (acknowledgeProgress_sends r.1 _)).bind fun c₂ h₂ ↦ ?_
  have hst := h₂.steady
  have hdef := c₂.deferredClose_cases oldSndNxt r.2
  rcases hr with ⟨hopen, hfsm, hactive, hack, hev⟩ | ⟨hend, hev⟩
  · refine (hst.1.timerOpen hopen).ready fun hn ↦ ?_
    rw [hst.2, hack, h₁.2]
    rcases nextState_eq_closing hn with hc | ⟨hc, hfin⟩
    · exact hclosing (by rw [← h₁.1.fsm, ← hfsm, ← hst.1.fsm, hc])
    · have hr2 : r.2 = .rcvFin := by
        rcases hdef with hd | ⟨hd, -⟩
        · exact hd.symm.trans hfin
        · rw [hd] at hfin
          cases hfin
      rcases hev with hev | ⟨-, hack'⟩
      · rw [hr2] at hev
        rcases hevent with rfl | rfl <;> cases hev
      · rw [← h₁.2]
        exact hack' (by rw [← hfsm, ← hst.1.fsm, hc])
  · have hfsm : c₂.fsm = c₁.fsm := hst.1.fsm.trans hend.fsm
    have hd : c₂.deferredClose oldSndNxt r.2 = r.2 := by
      refine hdef.resolve_right ?_
      rintro ⟨-, hs⟩
      rw [hfsm] at hs
      rcases hev with ⟨hc, -⟩ | ⟨hc, -⟩ <;> simp [hc] at hs
    rw [hd]
    have hended := hend.of_steady hst
    have hopen₁ : c₁.fsm ≠ .closed := h₁.1.fsm ▸ h.open'
    rcases hev with ⟨hc, he⟩ | ⟨hc, he⟩
    · exact hended.ready_of_next hopen₁ hc .timeWait (by rw [he]; rfl) (.inl rfl) (by decide)
    · exact hended.ready_of_next hopen₁ hc .timeWait (by rw [he]; rfl) (.inl rfl) (by decide)

/-! ## Acknowledgments and the whole segment -/

/-- In CLOSING, a segment that newly acknowledges our FIN and carries a FIN itself. -/
def finOverwritesAck (c : TCPConnection) (seg : TCPSegment) : Bool :=
  c.fsm == .closing && seg.finBit && c.newlyAcksOurFin seg

theorem processTextAndFin_closing (seg : TCPSegment) (oldSndNxt : Seq) (event : TCPEventCode)
    (hs : c.fsm = .closing) (hfin : seg.finBit = false) :
    c.processTextAndFin seg oldSndNxt event = .ok (c, event) := by
  have htext : c.processSegmentText seg = .ok c := by
    simp [processSegmentText, receivesText, hs]
  have hclose : c.deferredClose oldSndNxt event = event := by
    simp [deferredClose, hs]
  simp [processTextAndFin, htext, processFin, hfin, acknowledgeProgress, hclose, pure, Except.pure]

/-- What the acknowledgment of our FIN has done: nothing, or CLOSING or LAST_ACK is over. -/
def AfterFinAck (c : TCPConnection) (r : TCPConnection × Option TCPEventCode) : Prop :=
  (∃ event, r.2 = some event ∧ (event = .ignore ∨ event = .rcvAck) ∧ TimerOpen r.1 ∧
      (r.1.fsm = .closing → r.1.finAckRcvd = false)) ∨
    (c.fsm = .closing ∧ c.finAckRcvd = true ∧ r.2 = some .rcvAck ∧ Ending c r.1) ∨
    (c.fsm = .lastAck ∧ r.2 = none ∧ Ending c r.1)

theorem processFinAck_outcome (h : TimerOpen c) (seg : TCPSegment)
    (hevent : event = .ignore ∨ event = .rcvAck) :
    Outcome (c.processFinAck seg event) (AfterFinAck c) (¬ Fault.IsTimerFault ·) := by
  unfold processFinAck
  split <;> rename_i hs
  · refine .inl ⟨_, rfl, ?_, h, by simp [hs]⟩
    split
    · exact .inr rfl
    · exact hevent
  · refine Outcome.ite (fun hf ↦ ?_) fun hf ↦ ?_
    · refine (enterTimeWait_outcome h.toTimerBase (by simp [hs]) (by simp [hs])).bind
        fun c₁ h₁ ↦ ?_
      exact .inr (.inl ⟨hs, hf, rfl, h₁⟩)
    · exact .inl ⟨_, rfl, hevent, h, fun _ ↦ by simpa using hf⟩
  · show AfterFinAck c (if c.acksOurFin seg then (c.sendIndicationToApp .closed, none) else _)
    split
    · exact .inr (.inr ⟨hs, rfl, ending_closed h.toTimerBase (by simp [hs]) (by simp [hs])⟩)
    · exact .inl ⟨_, rfl, hevent, h, by simp [hs]⟩
  · have hack := c.sends_sendAck.quiet
    refine (restart2MSL_timerOpen (hack.timerOpen h) (hack.fsm.trans hs)).bind fun c₁ h₁ ↦ ?_
    refine .inl ⟨_, rfl, hevent, h₁.1, fun hc ↦ ?_⟩
    rw [h₁.2.1, hack.fsm, hs] at hc
    cases hc
  · exact .inl ⟨_, rfl, hevent, h, fun hc ↦ absurd hc (by assumption)⟩

theorem processAck_ready (h : TimerOpen c) (seg : TCPSegment)
    (hevent : event = .ignore ∨ event = .rcvAck) (hclosing : c.fsm = .closing → c.finAckRcvd = false)
    (hallowed : c.finOverwritesAck seg = false) : Ready (c.processAck seg event) := by
  refine (c.processAckIfOpen_quiet seg).bind ?_
  rintro ⟨ok, c₁⟩ ⟨hq, hack⟩
  dsimp only at hq hack
  have hopen := hq.timerOpen h
  refine Outcome.ite (fun hok ↦ hopen.ready fun hn ↦ ?_) fun _ ↦ ?_
  · rw [nextState_ignore] at hn
    by_contra hf
    rcases hack (Bool.eq_true_of_not_eq_false hf) with hf | ⟨rfl, -⟩
    · rw [hclosing (hq.fsm ▸ hn)] at hf
      cases hf
    · cases hok
  · refine (processFinAck_outcome hopen seg hevent).bind ?_
    rintro ⟨c₂, event'⟩ (⟨ev, he, hev, hopen₂, hc⟩ | ⟨hs, hf, he, hend⟩ | ⟨hs, he, hend⟩)
    · obtain rfl : event' = some ev := he
      exact processTextAndFin_ready hopen₂ seg _ hev hc
    · obtain rfl : event' = some .rcvAck := he
      have hc : c.fsm = .closing := hq.fsm ▸ hs
      -- the FIN bit would overwrite the event code
      have hfin : seg.finBit = false := by
        rcases hack hf with hf' | ⟨-, hnew⟩
        · rw [hclosing hc] at hf'
          cases hf'
        · simpa [finOverwritesAck, hc, hnew] using hallowed
      show Ready (c₂.processTextAndFin seg c.sndNxt .rcvAck)
      rw [processTextAndFin_closing seg _ _ (hend.fsm.trans hs) hfin]
      exact hend.ready_of_next hopen.open' hs .timeWait rfl (.inl rfl) (by decide)
    · obtain rfl : event' = none := he
      show Ready (.ok (c₂, .rcvAck))
      exact hend.ready_of_next hopen.open' hs .closed rfl (.inr rfl) (by decide)

theorem TimerInv.timerOpen (h : TimerInv c) (hopen : c.fsm ≠ .closed) : TimerOpen c :=
  ⟨h.toTimerBase, h.setup, hopen⟩

theorem processAckInSynRcvd_ready (h : TimerOpen c) (seg : TCPSegment) (hs : c.fsm = .synRcvd) :
    Ready (c.processAckInSynRcvd seg) := by
  unfold processAckInSynRcvd
  refine Outcome.ite (fun _ ↦ ?_) fun _ ↦ ?_
  · have hrst : Quiet c (c.sendRst seg.ackNo) := quiet_emit (by simp)
    refine (hrst.timerOpen h).ready fun hn ↦ ?_
    rw [nextState_ignore, hrst.fsm, hs] at hn
    cases hn
  · refine (OnlySends.noTimerFault (c.algEstablished_sends false)).bind fun c₁ h₁ ↦ ?_
    have hind : Quiet c c₁.sendEstabIndicationToApp := h₁.quiet.trans (quiet_emit (by simp))
    refine processAck_ready (hind.timerOpen h) seg (.inr rfl) ?_ ?_
    · rw [hind.fsm, hs]
      exact fun hc ↦ by cases hc
    · simp [finOverwritesAck, hind.fsm, hs]

theorem TimerOpen.ready_of_quiet (h : TimerOpen c) (hq : Quiet c c₁)
    (hne : nextState c.active c.fsm event ≠ .closing) : Ready (.ok (c₁, event)) := by
  refine (hq.timerOpen h).ready fun hn ↦ ?_
  rw [hq.active, hq.fsm] at hn
  exact absurd hn hne

theorem processRst_ready (h : TimerOpen c) : Ready c.processRst := by
  have hreset : Quiet c (c.sendIndicationToApp .connectionReset) :=
    quiet_indication _ (by decide)
  unfold processRst
  split <;> rename_i hs
  · refine (c.discardUpTo_quiet _).bind fun c₁ h₁ ↦ ?_
    refine (h₁.1.timerOpen h).ready_of_quiet ?_ ?_
    · split
      · exact quiet_indication _ (by decide)
      · exact .refl c₁
    · rw [h₁.1.fsm, hs]
      cases c₁.active <;> decide
  iterate 4 exact h.ready_of_quiet hreset (by rw [hs]; cases c.active <;> decide)
  iterate 2
    have hending := ending_closed h.toTimerBase (by simp [hs]) (by simp [hs])
    exact hending.ready_of_next h.open' hs .closed rfl (.inr rfl) (by decide)
  · exact h.ready_of_quiet (.refl c) (by rw [hs]; cases c.active <;> decide)
  all_goals exact assertion_not_isTimerFault _

theorem processSegment1stThru8th_ready (h : TimerInv c) (hopen : c.fsm ≠ .closed)
    (seg : TCPSegment)
    (hallowed : (c.isSegmentAcceptable seg && !seg.rstBit && !seg.synBit && seg.ackBit &&
      c.finOverwritesAck seg) = false) :
    Ready (c.processSegment1stThru8th seg) := by
  have ho := h.timerOpen hopen
  unfold processSegment1stThru8th
  refine Outcome.ite (fun _ ↦ ?_) fun hacc ↦ Outcome.ite (fun _ ↦ processRst_ready ho) fun hrst ↦
    Outcome.ite (fun _ ↦ ?_) fun hsyn ↦ Outcome.ite (fun _ ↦ ?_) fun hack ↦
    Outcome.ite (fun hs ↦ processAckInSynRcvd_ready ho seg (by simpa using hs)) fun hs ↦
    processAck_ready ho seg (.inl rfl) h.closing ?_
  · have hq : Quiet c (if seg.rstBit then c else c.sendAck) := by
      split
      · exact .refl c
      · exact c.sends_sendAck.quiet
    refine (hq.timerOpen ho).ready fun hn ↦ ?_
    rw [nextState_ignore, hq.fsm] at hn
    split
    · exact h.closing hn
    · rw [c.sends_sendAck.finAckRcvd]
      exact h.closing hn
  · refine ho.ready_of_quiet (quiet_indication _ (by decide)) fun hn ↦ ?_
    rcases nextState_eq_closing hn with hc | ⟨-, he⟩
    · rw [hc] at hn
      cases hn
    · cases he
  · refine ho.ready fun hn ↦ h.closing ?_
    rwa [nextState_ignore] at hn
  · simp only [Bool.not_eq_true', Bool.not_eq_true, Bool.not_eq_false] at hacc hrst hsyn hack
    simpa [hacc, hrst, hsyn, hack] using hallowed

/-! ## Connection setup -/

/-- Nothing but the two setup timers and the sequence variables has changed. -/
structure Prepares (c c' : TCPConnection) : Prop where
  fsm : c'.fsm = c.fsm
  timers : ∀ t, t = .the2MSL ∨ t = .finWait2 → (t ∈ c'.timers ↔ t ∈ c.timers)
  closed : c'.closedIndications = c.closedIndications

theorem Quiet.prepares (h : Quiet c c₁) : Prepares c c₁ := by
  refine ⟨h.fsm, fun t ht ↦ ?_, h.closed⟩
  rcases ht with rfl | rfl <;> exact h.timers _ (by decide) (by decide)

protected theorem Prepares.trans {c₂ : TCPConnection} (h₁ : Prepares c c₁) (h₂ : Prepares c₁ c₂) :
    Prepares c c₂ :=
  ⟨h₂.fsm.trans h₁.fsm, fun t ht ↦ (h₂.timers t ht).trans (h₁.timers t ht),
    h₂.closed.trans h₁.closed⟩

/-- The event leaves the state, so timers of the setup may have been scheduled. -/
theorem Prepares.ready (h : Prepares c c₁) (hc : TimerOpen c)
    (hs : nextState c₁.active c.fsm event ≠ c.fsm)
    (hne : nextState c₁.active c.fsm event ≠ .closing) : Ready (.ok (c₁, event)) := by
  rw [← h.fsm] at hs hne
  refine ⟨TimerBase.mid ⟨fun ht ↦ ?_, fun ht ↦ ?_, h.closed ▸ hc.closed_le, ?_⟩
    (fun _ ↦ .inr hs) fun hn ↦ absurd hn hne, h.fsm ▸ hc.open'⟩
  · rw [h.fsm]
    exact hc.the2MSL ((h.timers _ (.inl rfl)).mp ht)
  · exact hc.finWait2 ((h.timers _ (.inr rfl)).mp ht)
  · rw [h.fsm, h.closed]
    exact hc.closed_eq

section

variable (c : TCPConnection)

theorem scheduleTimeout_prepares {t : Timer} (hnot : t ∉ c.timers)
    (ht : t = .connEstab ∨ t = .synRexmit) :
    Outcome (c.scheduleTimeout t) (Prepares c) (¬ Fault.IsTimerFault ·) := by
  refine (c.scheduleTimeout_outcome hnot).mono ?_ ?_
  · rintro c' rfl
    refine ⟨rfl, fun t' ht' ↦ ?_, rfl⟩
    rcases ht with rfl | rfl <;> rcases ht' with rfl | rfl <;> simp
  · rintro e rfl
    exact nullPointer_not_isTimerFault

theorem startSynRexmitTimer_prepares :
    Outcome c.startSynRexmitTimer
      (fun c' ↦ Prepares c c' ∧ (.connEstab ∈ c'.timers ↔ .connEstab ∈ c.timers))
      (¬ Fault.IsTimerFault ·) := by
  refine Outcome.mono (E := (· = .nullPointer)) ?_ (fun _ h ↦ h) ?_
  swap
  · rintro e rfl
    exact nullPointer_not_isTimerFault
  unfold startSynRexmitTimer
  dsimp only
  split <;> rename_i hs
  · refine (scheduleTimeout_outcome _ (not_mem_cancelEvent _ .synRexmit)).post ?_
    rintro c' rfl
    refine ⟨⟨rfl, fun t ht ↦ ?_, rfl⟩, ?_⟩
    · rcases ht with rfl | rfl <;> simp [cancelEvent]
    · simp [cancelEvent]
  · refine (scheduleTimeout_outcome _ (by rwa [isScheduled_iff] at hs)).post ?_
    rintro c' rfl
    refine ⟨⟨rfl, fun t ht ↦ ?_, rfl⟩, ?_⟩
    · rcases ht with rfl | rfl <;> simp
    · simp

theorem startConnEstabTimer_prepares :
    Outcome c.startConnEstabTimer (Prepares c) (¬ Fault.IsTimerFault ·) := by
  refine Outcome.ite (fun hs ↦ c.scheduleTimeout_prepares (fun ht ↦ ?_) (.inl rfl))
    fun _ ↦ (Quiet.refl c).prepares
  rw [(c.isScheduled_iff _).mpr ht] at hs
  cases hs

theorem sendSyn_prepares :
    Outcome c.sendSyn (fun c' ↦ Quiet c c' ∧ c'.timers = c.timers) (¬ Fault.IsTimerFault ·) := by
  have hspec : ¬ Fault.IsTimerFault .foreignSocketUnspecified := by
    rintro ⟨t, h | h⟩ <;> cases h
  unfold sendSyn
  refine Outcome.ite (fun _ ↦ hspec) fun _ ↦ Outcome.ite (fun _ ↦ hspec) fun _ ↦ ?_
  exact ⟨⟨rfl, rfl, fun _ _ _ ↦ Iff.rfl, by simp [closedIndications, sendToIP, emit]⟩, rfl⟩

theorem quiet_sendSynAck : Quiet c c.sendSynAck :=
  ⟨rfl, rfl, fun _ _ _ ↦ Iff.rfl, by simp [closedIndications, sendSynAck, sendToIP, emit]⟩

theorem quiet_queueTextOfSyn (seg : TCPSegment) :
    Quiet c (c.queueTextOfSyn seg) := by
  unfold queueTextOfSyn
  split
  · exact ⟨rfl, rfl, fun _ _ _ ↦ Iff.rfl, rfl⟩
  · exact .refl c

theorem quiet_acceptTextOfSynAck (seg : TCPSegment) :
    Quiet c (c.acceptTextOfSynAck seg) := by
  unfold acceptTextOfSynAck
  split
  · exact ⟨rfl, rfl, fun _ _ _ ↦ Iff.rfl, rfl⟩
  · exact .refl c

end

theorem processSegmentInListen_ready (h : TimerOpen c) (hs : c.fsm = .listen) (seg : TCPSegment)
    (srcAddr destAddr : ℕ) (isn : Seq) :
    Ready (c.processSegmentInListen seg srcAddr destAddr isn) := by
  have hstay : ∀ c₁, Quiet c c₁ → Ready (.ok (c₁, .ignore)) := fun c₁ hq ↦
    h.ready_of_quiet hq (by rw [hs]; cases c.active <;> decide)
  unfold processSegmentInListen
  refine Outcome.ite (fun _ ↦ hstay c (.refl c)) fun _ ↦ Outcome.ite
    (fun _ ↦ hstay _ (quiet_emit (by simp))) fun _ ↦ Outcome.ite (fun _ ↦ ?_)
    fun _ ↦ hstay c (.refl c)
  refine (startSynRexmitTimer_prepares _).bind fun c₁ h₁ ↦ ?_
  refine (startConnEstabTimer_prepares c₁).bind fun c₂ h₂ ↦ ?_
  have hset : Quiet c (((c.updateSockPair destAddr srcAddr seg.srcPort).receiveSyn
      seg).selectInitialSeqNum isn |>.setSendWindow seg isn) :=
    ⟨rfl, rfl, fun _ _ _ ↦ Iff.rfl, rfl⟩
  have hsyn := (hset.trans (quiet_sendSynAck _)).prepares
  have hall := ((hsyn.trans h₁.1).trans h₂).trans (c₂.quiet_queueTextOfSyn seg).prepares
  refine hall.ready h ?_ ?_ <;> rw [hs] <;> exact fun hn ↦ by cases hn

theorem acknowledgeSyn_quiet (c : TCPConnection) (seg : TCPSegment) :
    Outcome (c.acknowledgeSyn seg) (Quiet c) (¬ Fault.IsTimerFault ·) := by
  refine Outcome.ite (fun _ ↦ ?_) fun _ ↦ .refl c
  refine (discardUpTo_quiet _ _).bind fun c₁ h₁ ↦ ?_
  have hset : Quiet c { c with sndUna := seg.ackNo } := ⟨rfl, rfl, fun _ _ _ ↦ Iff.rfl, rfl⟩
  exact (hset.trans h₁.1).trans ⟨rfl, rfl, fun _ _ _ ↦ Iff.rfl, rfl⟩

theorem processSegmentInSynSent_ready (h : TimerOpen c) (hs : c.fsm = .synSent) (seg : TCPSegment)
    (srcAddr destAddr : ℕ) : Ready (c.processSegmentInSynSent seg srcAddr destAddr) := by
  have hstay : ∀ c₁ event, Quiet c c₁ → Ready (.ok (c₁, event)) := fun c₁ event hq ↦
    h.ready_of_quiet hq fun hn ↦ by
      rcases nextState_eq_closing hn with hc | ⟨hc, -⟩ <;> rw [hs] at hc <;> cases hc
  unfold processSegmentInSynSent
  refine Outcome.ite (fun _ ↦ hstay _ _ (quiet_emit (by simp))) fun _ ↦ Outcome.ite (fun _ ↦ ?_)
    fun _ ↦ Outcome.ite (fun _ ↦ ?_) fun _ ↦ hstay _ _ (.refl c)
  · split
    · exact hstay _ _ (quiet_indication _ (by decide))
    · exact hstay _ _ (.refl c)
  · refine (acknowledgeSyn_quiet _ _).bind fun c₁ h₁ ↦ ?_
    have hsyn : Quiet c (c.receiveSyn seg) := ⟨rfl, rfl, fun _ _ _ ↦ Iff.rfl, rfl⟩
    have hsock : Quiet c₁ (c₁.updateSockPair destAddr srcAddr seg.srcPort) :=
      ⟨rfl, rfl, fun _ _ _ ↦ Iff.rfl, rfl⟩
    have hq := (hsyn.trans h₁).trans hsock
    refine Outcome.ite (fun _ ↦ ?_) fun _ ↦ ?_
    · refine (OnlySends.noTimerFault (algEstablished_sends _ true)).bind fun c₂ h₂ ↦ ?_
      exact hstay _ _ (((hq.trans (quiet_acceptTextOfSynAck _ seg)).trans h₂.quiet).trans
        (quiet_emit (by simp)))
    · refine (startSynRexmitTimer_prepares _).bind fun c₂ h₂ ↦ ?_
      have hiss : Quiet (c₁.updateSockPair destAddr srcAddr seg.srcPort)
          { c₁.updateSockPair destAddr srcAddr seg.srcPort with sndMax := _, sndNxt := _ } :=
        ⟨rfl, rfl, fun _ _ _ ↦ Iff.rfl, rfl⟩
      have hall := ((hq.trans hiss).trans (quiet_sendSynAck _)).prepares.trans
        (h₂.1.trans (c₂.quiet_queueTextOfSyn seg).prepares)
      refine hall.ready h ?_ ?_ <;> rw [hs] <;> exact fun hn ↦ by cases hn

theorem processRcvSegment_ready (h : TimerInv c) (hopen : c.fsm ≠ .closed) (seg : TCPSegment)
    (srcAddr destAddr : ℕ) (isn : Seq)
    (hallowed : (c.isSegmentAcceptable seg && !seg.rstBit && !seg.synBit && seg.ackBit &&
      c.finOverwritesAck seg) = false) :
    Ready (c.processRcvSegment seg srcAddr destAddr isn) := by
  unfold processRcvSegment
  split <;> rename_i hs
  · exact processSegmentInListen_ready (h.timerOpen hopen) hs seg srcAddr destAddr isn
  · exact processSegmentInSynSent_ready (h.timerOpen hopen) hs seg srcAddr destAddr
  · exact processSegment1stThru8th_ready h hopen seg hallowed

/-! ## Commands and timers -/

theorem commandError_not_isTimerFault (command : AppCommand) :
    ¬ Fault.IsTimerFault (.commandError command) := by
  rintro ⟨t, h | h⟩ <;> cases h

theorem sendInitialSyn_prepares (c : TCPConnection) (isn : Seq) (hnot : .connEstab ∉ c.timers) :
    Outcome (c.sendInitialSyn isn) (Prepares c) (¬ Fault.IsTimerFault ·) := by
  have hisn : Quiet c (c.selectInitialSeqNum isn) := ⟨rfl, rfl, fun _ _ _ ↦ Iff.rfl, rfl⟩
  refine (sendSyn_prepares _).bind fun c₁ h₁ ↦ ?_
  refine c₁.startSynRexmitTimer_prepares.bind fun c₂ h₂ ↦ ?_
  have hnot₂ : Timer.connEstab ∉ c₂.timers := by
    rw [h₂.2, h₁.2]
    exact hnot
  exact (c₂.scheduleTimeout_prepares hnot₂ (.inl rfl)).post fun c₃ h₃ ↦
    ((hisn.trans h₁.1).prepares.trans h₂.1).trans h₃

theorem TimerOpen.connEstab_not_mem (h : TimerOpen c) (hs : ¬ InSetup c.fsm) :
    .connEstab ∉ c.timers :=
  fun ht ↦ hs (h.setup (.inl ht))

theorem processOpenActive_ready (h : TimerOpen c) (localAddr remoteAddr : ℕ)
    (localPort remotePort ephemeralPort : ℤ) (isn : Seq) :
    Ready (c.processOpenActive localAddr remoteAddr localPort remotePort ephemeralPort isn) := by
  unfold processOpenActive
  refine Outcome.ite (fun _ ↦ commandError_not_isTimerFault _) fun hs ↦
    Outcome.ite (fun _ ↦ commandError_not_isTimerFault _) fun _ ↦ ?_
  have hs : c.fsm = .init := not_not.mp hs
  refine (sendInitialSyn_prepares _ isn ?_).bind fun c₁ h₁ ↦ ?_
  · exact h.connEstab_not_mem (by simp [InSetup, hs])
  · have hall : Prepares c c₁ := ⟨h₁.fsm, h₁.timers, h₁.closed⟩
    refine hall.ready h ?_ ?_ <;> rw [hs] <;> exact fun hn ↦ by cases hn

theorem processOpenPassive_ready (h : TimerOpen c) (localAddr : ℕ) (localPort : ℤ) (fork : Bool) :
    Ready (c.processOpenPassive localAddr localPort fork) := by
  unfold processOpenPassive
  refine Outcome.ite (fun _ ↦ commandError_not_isTimerFault _) fun hs ↦
    Outcome.ite (fun _ ↦ commandError_not_isTimerFault _) fun _ ↦ ?_
  have hs : c.fsm = .init := not_not.mp hs
  refine Prepares.ready (c := c) ⟨rfl, fun _ _ ↦ Iff.rfl, rfl⟩ h ?_ ?_ <;> rw [hs] <;>
    exact fun hn ↦ by cases hn

theorem processSend_ready (h : TimerOpen c) (byteLength : ℕ) (isn : Seq) :
    Ready (c.processSend byteLength isn) := by
  have hq : Quiet c (c.enqueueAppData byteLength) := ⟨rfl, rfl, fun _ _ _ ↦ Iff.rfl, rfl⟩
  unfold processSend
  split <;> rename_i hs
  · refine (sendInitialSyn_prepares _ isn ?_).bind fun c₁ h₁ ↦ ?_
    · exact h.connEstab_not_mem (by simp [InSetup, hs])
    · have hall : Prepares c (c₁.enqueueAppData byteLength) := ⟨h₁.fsm, h₁.timers, h₁.closed⟩
      refine hall.ready h ?_ ?_ <;> rw [hs] <;> exact fun hn ↦ by cases hn
  iterate 2 exact h.ready_of_quiet hq (by rw [hs]; cases c.active <;> decide)
  iterate 2
    refine (OnlySends.noTimerFault (sendCommandInvoked_sends _)).bind fun c₁ h₁ ↦ ?_
    exact h.ready_of_quiet (hq.trans h₁.quiet) (by rw [hs]; cases c.active <;> decide)
  all_goals exact commandError_not_isTimerFault _

theorem quiet_sendFinNow (c : TCPConnection) : Quiet c c.sendFinNow.markFin := by
  have hsend : Sends c c.sendFromMax.sendFin :=
    (c.sends_setNxt _).trans ((sends_sendToIP _ _).trans (sends_ackSent _))
  exact hsend.quiet.trans ⟨rfl, rfl, fun _ _ _ ↦ Iff.rfl, rfl⟩

theorem processClose_ready (h : TimerOpen c) : Ready c.processClose := by
  unfold processClose
  split <;> rename_i hs
  iterate 2 exact h.ready_of_quiet (.refl c) (by rw [hs]; cases c.active <;> decide)
  iterate 3
    refine Outcome.ite (fun _ ↦ ?_) fun _ ↦ ?_
    · exact h.ready_of_quiet c.quiet_sendFinNow (by rw [hs]; cases c.active <;> decide)
    · exact h.ready_of_quiet ⟨rfl, rfl, fun _ _ _ ↦ Iff.rfl, rfl⟩
        (by rw [hs]; cases c.active <;> decide)
  all_goals exact commandError_not_isTimerFault _

theorem nextState_abort_ne_closing (active : Bool) (s : TcpState) :
    nextState active s .abort ≠ .closing := by
  cases s <;> exact fun h ↦ by cases h

theorem processAbort_ready (h : TimerOpen c) : Ready c.processAbort := by
  have hrst : Quiet c (c.sendRst c.sndNxt) := quiet_emit (by simp)
  unfold processAbort
  split
  · exact commandError_not_isTimerFault _
  iterate 5 exact h.ready_of_quiet hrst (nextState_abort_ne_closing _ _)
  · exact h.ready_of_quiet (.refl c) (nextState_abort_ne_closing _ _)

theorem processStatus_ready (h : TimerInv c) (hopen : c.fsm ≠ .closed) : Ready c.processStatus := by
  refine Outcome.ite (fun _ ↦ commandError_not_isTimerFault _) fun _ ↦ ?_
  have hq : Quiet c (c.sendIndicationToApp .status) := quiet_indication _ (by decide)
  refine (hq.timerOpen (h.timerOpen hopen)).ready fun hn ↦ ?_
  rcases nextState_eq_closing hn with hc | ⟨-, he⟩
  · exact h.closing hc
  · cases he

/-- A timer that has just expired is not scheduled any more. -/
theorem TimerInv.cancelEvent (h : TimerInv c) (t : Timer) : TimerInv (c.cancelEvent t) := by
  have hsub : ∀ {t'}, t' ∈ (c.cancelEvent t).timers → t' ∈ c.timers := fun ht ↦
    (c.mem_cancelEvent.mp ht).1
  exact ⟨⟨fun ht ↦ h.the2MSL (hsub ht), fun ht ↦ h.finWait2 (hsub ht), h.closed_le, h.closed_eq⟩,
    fun ht ↦ h.setup (ht.imp hsub hsub), h.closing⟩

theorem Prepares.timerOpen (h : Prepares c c₁) (hc : TimerOpen c) (hs : InSetup c.fsm) :
    TimerOpen c₁ := by
  refine ⟨⟨fun ht ↦ ?_, fun ht ↦ ?_, h.closed ▸ hc.closed_le, ?_⟩, fun _ ↦ h.fsm ▸ hs,
    h.fsm ▸ hc.open'⟩
  · rw [h.fsm]
    exact hc.the2MSL ((h.timers _ (.inl rfl)).mp ht)
  · exact hc.finWait2 ((h.timers _ (.inr rfl)).mp ht)
  · rw [h.fsm, h.closed]
    exact hc.closed_eq

theorem resendSyn_outcome (hs : InSetup c.fsm) :
    Outcome c.resendSyn (fun c' ↦ Quiet c c' ∧ c'.timers = c.timers) (¬ Fault.IsTimerFault ·) := by
  unfold resendSyn
  split
  · exact c.sendSyn_prepares
  · exact ⟨c.quiet_sendSynAck, rfl⟩
  · rename_i h₁ h₂
    exact absurd hs (not_or.mpr ⟨h₁, h₂⟩)

theorem processTimeoutSynRexmit_ready (h : TimerOpen c) (hs : InSetup c.fsm)
    (hnot : .synRexmit ∉ c.timers) : Ready c.processTimeoutSynRexmit := by
  have hcount : Quiet c { c with synRexmitCount := c.synRexmitCount + 1 } :=
    ⟨rfl, rfl, fun _ _ _ ↦ Iff.rfl, rfl⟩
  unfold processTimeoutSynRexmit
  refine Outcome.ite (fun _ ↦ ?_) fun _ ↦ ?_
  · exact h.ready_of_quiet hcount (nextState_abort_ne_closing _ _)
  · refine (resendSyn_outcome (by exact hs)).bind fun c₁ h₁ ↦ ?_
    refine (c₁.scheduleTimeout_prepares (h₁.2 ▸ hnot) (.inr rfl)).bind fun c₂ h₂ ↦ ?_
    have hall := (hcount.trans h₁.1).prepares.trans h₂
    refine (hall.timerOpen h hs).ready fun hn ↦ ?_
    rw [nextState_ignore, hall.fsm] at hn
    rcases hs with hs | hs <;> rw [hs] at hn <;> cases hn

theorem processTimeoutConnEstab_ready (h : TimerOpen c) (hs : InSetup c.fsm) :
    Ready c.processTimeoutConnEstab := by
  have hq : Quiet c (if c.active then c.sendIndicationToApp .timedOut else c) := by
    split
    · exact quiet_indication _ (by decide)
    · exact .refl c
  have hne : nextState c.active c.fsm .timeoutConnEstab ≠ .closing := by
    rcases hs with hs | hs <;> rw [hs] <;> cases c.active <;> decide
  unfold processTimeoutConnEstab
  split
  · exact h.ready_of_quiet hq hne
  · exact h.ready_of_quiet hq hne
  · rename_i h₁ h₂
    exact absurd hs (not_or.mpr ⟨h₂, h₁⟩)

theorem algorithmTimer_ready (h : TimerInv c) (hopen : c.fsm ≠ .closed) {t : Timer}
    (hnot : t ∉ c.timers) :
    Ready (if c.tcpAlgorithmClass = .dumbTCP then .error .nullPointer else c.algProcessTimer t) := by
  refine Outcome.ite (fun _ ↦ nullPointer_not_isTimerFault) fun hclass ↦ ?_
  refine (c.algProcessTimer_sends hclass hnot).mono ?_ fun _ hf ↦ hf.1
  rintro ⟨c₁, event⟩ (⟨hs, rfl⟩ | ⟨rfl, rfl⟩)
  · refine (hs.quiet.timerOpen (h.timerOpen hopen)).ready fun hn ↦ ?_
    rw [nextState_ignore, hs.fsm] at hn
    exact hs.finAckRcvd.trans (h.closing hn)
  · refine (h.timerOpen hopen).ready_of_quiet ?_ (nextState_abort_ne_closing _ _)
    have hq : Quiet c { c with rexmitCount := c.rexmitCount + 1 } :=
      ⟨rfl, rfl, fun _ _ _ ↦ Iff.rfl, rfl⟩
    exact hq.trans (quiet_indication _ (by decide))

theorem processTimer_ready (h : TimerInv c) (hopen : c.fsm ≠ .closed) {t : Timer}
    (ht : t ∈ c.timers) : Ready ((c.cancelEvent t).processTimer t) := by
  have h' := h.cancelEvent t
  have ho := h'.timerOpen hopen
  have hnot := c.not_mem_cancelEvent t
  cases t with
  | the2MSL =>
    have hs : (c.cancelEvent .the2MSL).fsm = .timeWait := h.the2MSL ht
    have hok : (c.cancelEvent .the2MSL).processTimer .the2MSL =
        .ok (c.cancelEvent .the2MSL, .timeout2MSL) := by
      simp [processTimer, processTimeout2MSL, hs]
    rw [hok]
    refine ho.ready_of_quiet (.refl _) ?_
    rw [hs]
    exact fun hn ↦ by cases hn
  | connEstab => exact processTimeoutConnEstab_ready ho (h.setup (.inl ht))
  | finWait2 => exact absurd ht h.finWait2
  | synRexmit => exact processTimeoutSynRexmit_ready ho (h.setup (.inr ht)) hnot
  | rexmit => exact algorithmTimer_ready h' hopen hnot
  | persist => exact algorithmTimer_ready h' hopen hnot
  | delayedAck => exact algorithmTimer_ready h' hopen hnot
  | keepAlive => exact algorithmTimer_ready h' hopen hnot

/-! ## Runs -/

/-- In CLOSING, an acceptable segment whose FIN bit overwrites the event code that its
acknowledgment of our FIN has set. -/
def finHidesAck (c : TCPConnection) : Event → Bool
  | .segment seg srcAddr destAddr _ =>
      c.matchesSegment seg srcAddr destAddr && c.isSegmentAcceptable seg && !seg.rstBit &&
        !seg.synBit && seg.ackBit && c.finOverwritesAck seg
  | _ => false

theorem perform_ready (h : TimerInv c) (hopen : c.fsm ≠ .closed) {e : Event}
    (hrec : c.receives e = true) (hallowed : c.finHidesAck e = false) : Ready (c.perform e) := by
  have ho := h.timerOpen hopen
  cases e with
  | openActive => exact processOpenActive_ready ho _ _ _ _ _ _
  | openPassive => exact processOpenPassive_ready ho _ _ _
  | send => exact processSend_ready ho _ _
  | close => exact processClose_ready ho
  | abort => exact processAbort_ready ho
  | status => exact processStatus_ready h hopen
  | segment seg srcAddr destAddr isn =>
    refine Outcome.check_bind (assertion_not_isTimerFault _) (Outcome.check_bind
      (assertion_not_isTimerFault _) (processRcvSegment_ready h hopen seg _ _ _ ?_))
    have hmatch : c.matchesSegment seg srcAddr destAddr = true := by
      simp only [receives, Bool.and_eq_true] at hrec
      exact hrec.2
    simpa only [finHidesAck, hmatch, Bool.true_and] using hallowed
  | timer t => exact processTimer_ready h hopen ((c.isScheduled_iff t).mp hrec)

theorem step_timerInv (h : TimerInv c) {e : Event} (hallowed : c.finHidesAck e = false) :
    Outcome (c.step e) TimerInv (¬ Fault.IsTimerFault ·) := by
  refine Outcome.ite (fun _ ↦ h) fun hcond ↦ ?_
  simp only [Bool.or_eq_true, decide_eq_true_eq, Bool.not_eq_true', not_or, Bool.not_eq_false]
    at hcond
  exact (perform_ready h hcond.1 hcond.2 hallowed).bind fun r hr ↦ hr.1.transition hr.2

theorem IsNew.timerInv (h : c.IsNew) : TimerInv c := by
  rw [h]
  refine ⟨⟨nofun, nofun, Nat.zero_le 1, fun _ _ ↦ rfl⟩, ?_, nofun⟩
  rintro (ht | ht) <;> cases ht

/-- In every run in which no FIN hides the acknowledgment of our FIN, the timers follow the FSM
state, scheduling never collides, no timeout is an internal error, and the user is told at most
once that the connection is closed. -/
theorem timers_follow_state (h : Reachable IsNew (fun c e ↦ c.finHidesAck e = false) step c) :
    (.the2MSL ∈ c.timers → c.fsm = .timeWait) ∧
      (.connEstab ∈ c.timers ∨ .synRexmit ∈ c.timers → c.fsm = .synSent ∨ c.fsm = .synRcvd) ∧
      c.log.count (.indication .closed) ≤ 1 ∧
      ∀ e, c.finHidesAck e = false → ∀ fault, c.step e = .error fault →
        ∀ t, fault ≠ .internalError t ∧ fault ≠ .alreadyScheduled t := by
  obtain ⟨hinv, hnext⟩ := h.outcome (fun c hc ↦ hc.timerInv) fun c e hc ↦ step_timerInv hc
  refine ⟨hinv.the2MSL, hinv.setup, hinv.closed_le, fun e he fault hf t ↦ ?_⟩
  have hfault := (hnext e he).of_eq_error hf
  exact ⟨fun h ↦ hfault ⟨t, .inl h⟩, fun h ↦ hfault ⟨t, .inr h⟩⟩

/-- The user closes, and the peer acknowledges our FIN before it sends its own. -/
def orderlyClose : List Event :=
  establish 1000 ++ [.close,
    fromPeer { sequenceNo := 501, ackNo := 102, ackBit := true, window := 1000 },
    fromPeer { sequenceNo := 501, ackNo := 102, ackBit := true, finBit := true, window := 1000 }]

theorem timers_follow_state_on_orderlyClose :
    ∃ c, run step {} orderlyClose = .ok c ∧ c.timers = [.the2MSL] ∧ c.fsm = .timeWait := by
  refine ⟨_, rfl, rfl, (timers_follow_state ?_).1 (by decide +kernel)⟩
  exact (Reachable.start isNew_default).of_run orderlyClose (by decide +kernel) rfl

/-- The peer's FIN overtakes a data segment and takes the connection to CLOSING; its
retransmission acknowledges our FIN. -/
def overtakingFin : List Event :=
  establish 1000 ++ [.close,
    fromPeer { sequenceNo := 511, ackNo := 101, ackBit := true, finBit := true, window := 1000 },
    fromPeer { sequenceNo := 511, ackNo := 102, ackBit := true, finBit := true, window := 1000 }]

/-- After `overtakingFin` the 2MSL timer is scheduled in CLOSING: its expiry is an internal error,
and the next ACK of our FIN schedules it again. -/
theorem the2MSL_scheduled_in_closing :
    ∃ c, Reachable IsNew (fun _ _ ↦ True) step c ∧ .the2MSL ∈ c.timers ∧ c.fsm = .closing ∧
      c.step (.timer .the2MSL) = .error (.internalError .the2MSL) ∧
      c.step (fromPeer { sequenceNo := 511, ackNo := 102, ackBit := true, window := 1000 }) =
        .error (.alreadyScheduled .the2MSL) := by
  refine ⟨_, (Reachable.start isNew_default).of_run overtakingFin (by decide +kernel) rfl,
    by decide +kernel, rfl, rfl, rfl⟩

end TCPConnection

end InetManet.TCP
