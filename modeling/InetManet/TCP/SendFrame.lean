import InetManet.TCP.StateMachine

/-!
# What sending leaves alone

The sending utilities and the hooks of the algorithm move `snd_nxt` and `snd_max`, the congestion
window and the retransmission count; they schedule and cancel the REXMIT and the delayed-ACK timer,
and everything they output is a segment. `Sends c c'` says that this is all that happened between
`c` and `c'`. No hook schedules a timer that is already scheduled.
-/

namespace InetManet.TCP

open TransitionSystem

/-- "Internal error" of a timeout, or a self-message scheduled twice. -/
def Fault.IsTimerFault (e : Fault) : Prop :=
  ∃ t, e = .internalError t ∨ e = .alreadyScheduled t

/-- Sending raises no timer fault, and it does not touch the receive queue. -/
def Fault.OfSending (e : Fault) : Prop := ¬ e.IsTimerFault ∧ e ≠ .assertion .extractTo

namespace TCPConnection

/-- The connection without what sending may change. -/
def core (c : TCPConnection) : TCPConnection :=
  { c with sndNxt := 0, sndMax := 0, sndCwnd := 0, ssthresh := 0, rexmitCount := 0,
           timers := [], log := [] }

structure Sends (c c' : TCPConnection) : Prop where
  core : c'.core = c.core
  timers : ∀ t, t ≠ .rexmit → t ≠ .delayedAck → (t ∈ c'.timers ↔ t ∈ c.timers)
  log : ∃ segs : List TCPSegment, c'.log = c.log ++ segs.map .toIP

namespace Sends

variable {c c₁ c₂ c' : TCPConnection}

protected theorem refl (c : TCPConnection) : Sends c c :=
  ⟨rfl, fun _ _ _ ↦ Iff.rfl, [], by simp⟩

protected theorem trans (h₁ : Sends c c₁) (h₂ : Sends c₁ c₂) : Sends c c₂ := by
  obtain ⟨segs₁, hlog₁⟩ := h₁.log
  obtain ⟨segs₂, hlog₂⟩ := h₂.log
  refine ⟨h₂.core.trans h₁.core, fun t hr hd ↦ (h₂.timers t hr hd).trans (h₁.timers t hr hd),
    segs₁ ++ segs₂, ?_⟩
  rw [hlog₂, hlog₁, List.map_append, List.append_assoc]

variable (h : Sends c c')

include h

theorem fsm : c'.fsm = c.fsm := congrArg (·.fsm) h.core
theorem active : c'.active = c.active := congrArg (·.active) h.core
theorem algorithm : c'.tcpAlgorithmClass = c.tcpAlgorithmClass :=
  congrArg (·.tcpAlgorithmClass) h.core
theorem sndUna : c'.sndUna = c.sndUna := congrArg (·.sndUna) h.core
theorem sndMss : c'.sndMss = c.sndMss := congrArg (·.sndMss) h.core
theorem sendQueue : c'.sendQueue = c.sendQueue := congrArg (·.sendQueue) h.core
theorem rcvNxt : c'.rcvNxt = c.rcvNxt := congrArg (·.rcvNxt) h.core
theorem sendFinFlag : c'.sendFinFlag = c.sendFinFlag :=
  congrArg (·.sendFinFlag) h.core
theorem sndFinSeq : c'.sndFinSeq = c.sndFinSeq := congrArg (·.sndFinSeq) h.core
theorem finAckRcvd : c'.finAckRcvd = c.finAckRcvd :=
  congrArg (·.finAckRcvd) h.core
theorem finRcvd : c'.finRcvd = c.finRcvd := congrArg (·.finRcvd) h.core

theorem mem_log_iff {o : Output} (ho : ∀ seg, o ≠ .toIP seg) :
    o ∈ c'.log ↔ o ∈ c.log := by
  obtain ⟨segs, hlog⟩ := h.log
  rw [hlog, List.mem_append, List.mem_map]
  refine or_iff_left ?_
  rintro ⟨seg, -, rfl⟩
  exact ho seg rfl

theorem count_log {o : Output} (ho : ∀ seg, o ≠ .toIP seg) :
    c'.log.count o = c.log.count o := by
  obtain ⟨segs, hlog⟩ := h.log
  rw [hlog, List.count_append, Nat.add_eq_left, List.count_eq_zero, List.mem_map]
  rintro ⟨seg, -, rfl⟩
  exact ho seg rfl

end Sends

/-! ## Timers and single segments -/

section Utilities

variable (c : TCPConnection)

@[simp] theorem isScheduled_iff (t : Timer) : c.isScheduled t = true ↔ t ∈ c.timers := by
  simp [isScheduled]

theorem mem_cancelEvent {t t' : Timer} : t ∈ (c.cancelEvent t').timers ↔ t ∈ c.timers ∧ t ≠ t' := by
  simp [cancelEvent]

theorem not_mem_cancelEvent (t : Timer) : t ∉ (c.cancelEvent t).timers := by
  simp [cancelEvent]

theorem scheduleTimeout_outcome {t : Timer} (h : t ∉ c.timers) :
    Outcome (c.scheduleTimeout t) (fun c' ↦ c' = { c with timers := t :: c.timers })
      (· = .nullPointer) := by
  unfold scheduleTimeout
  refine Outcome.ite (fun _ ↦ rfl) fun _ ↦ Outcome.ite (fun hs ↦ ?_) fun _ ↦ rfl
  exact absurd ((c.isScheduled_iff t).mp hs) h

theorem nullPointer_not_isTimerFault : ¬ Fault.IsTimerFault .nullPointer := by
  rintro ⟨t, h | h⟩ <;> cases h

theorem assertion_not_isTimerFault (site : AssertSite) : ¬ Fault.IsTimerFault (.assertion site) := by
  rintro ⟨t, h | h⟩ <;> cases h

theorem endlessLoop_not_isTimerFault : ¬ Fault.IsTimerFault .endlessLoop := by
  rintro ⟨t, h | h⟩ <;> cases h

theorem ofSending_nullPointer : Fault.OfSending .nullPointer := ⟨nullPointer_not_isTimerFault, nofun⟩

theorem ofSending_endlessLoop : Fault.OfSending .endlessLoop := ⟨endlessLoop_not_isTimerFault, nofun⟩

theorem ofSending_assertion {site : AssertSite} (h : site ≠ .extractTo) :
    Fault.OfSending (.assertion site) :=
  ⟨assertion_not_isTimerFault site, fun he ↦ h (Fault.assertion.inj he)⟩

theorem sends_cancelEvent {t : Timer} (ht : t = .rexmit ∨ t = .delayedAck) :
    Sends c (c.cancelEvent t) := by
  refine ⟨rfl, fun t' hr hd ↦ ?_, [], by simp [cancelEvent]⟩
  rw [mem_cancelEvent]
  rcases ht with rfl | rfl
  · exact and_iff_left hr
  · exact and_iff_left hd

theorem sends_cons_timer {t : Timer} (ht : t = .rexmit ∨ t = .delayedAck) :
    Sends c { c with timers := t :: c.timers } := by
  refine ⟨rfl, fun t' hr hd ↦ ?_, [], by simp⟩
  rcases ht with rfl | rfl
  · simp [hr]
  · simp [hd]

theorem sends_sendToIP (seg : TCPSegment) : Sends c (c.sendToIP seg) :=
  ⟨rfl, fun _ _ _ ↦ Iff.rfl, [_], rfl⟩

theorem sends_ackSent : Sends c c.ackSent := by
  unfold ackSent
  split
  · exact .refl c
  · split
    · exact c.sends_cancelEvent (.inr rfl)
    · exact .refl c

theorem sends_sendAck : Sends c c.sendAck :=
  (c.sends_sendToIP _).trans (sends_ackSent _)

theorem sends_setNxt (nxt : Seq) : Sends c { c with sndNxt := nxt } :=
  ⟨rfl, fun _ _ _ ↦ Iff.rfl, [], by simp⟩

theorem sends_setMax (m : Seq) : Sends c { c with sndMax := m } :=
  ⟨rfl, fun _ _ _ ↦ Iff.rfl, [], by simp⟩

theorem sends_setCwnd (cwnd : BitVec 32) : Sends c { c with sndCwnd := cwnd } :=
  ⟨rfl, fun _ _ _ ↦ Iff.rfl, [], by simp⟩

theorem sends_recalculateSlowStartThreshold : Sends c c.recalculateSlowStartThreshold :=
  ⟨rfl, fun _ _ _ ↦ Iff.rfl, [], by simp [recalculateSlowStartThreshold]⟩

end Utilities

/-- The outcome of a computation that only sends. -/
abbrev OnlySends (c : TCPConnection) (x : Except Fault TCPConnection) : Prop :=
  Outcome x (Sends c) Fault.OfSending

/-- The same for the functions that also say whether they have sent anything. -/
abbrev OnlySends₂ (c : TCPConnection) (x : Except Fault (Bool × TCPConnection)) : Prop :=
  Outcome x (fun r ↦ Sends c r.2) Fault.OfSending

theorem Sends.then {c c₁ : TCPConnection} {x : Except Fault TCPConnection}
    (h : Sends c c₁) (hx : OnlySends c₁ x) : OnlySends c x :=
  hx.post fun _ h' ↦ h.trans h'

theorem Sends.then₂ {c c₁ : TCPConnection} {x : Except Fault (Bool × TCPConnection)}
    (h : Sends c c₁) (hx : OnlySends₂ c₁ x) : OnlySends₂ c x :=
  hx.post fun _ h' ↦ h.trans h'

theorem onlySends_snd {c : TCPConnection} {x : Except Fault (Bool × TCPConnection)}
    (hx : OnlySends₂ c x) : OnlySends c (Prod.snd <$> x) :=
  Outcome.map hx

theorem OnlySends.noTimerFault {c : TCPConnection} {x : Except Fault TCPConnection}
    (h : OnlySends c x) : Outcome x (Sends c) (¬ Fault.IsTimerFault ·) :=
  h.mono (fun _ h ↦ h) fun _ h ↦ h.1

/-! ## Sending data -/

section Data

variable (c : TCPConnection)

theorem startRexmitTimer_sends (h : .rexmit ∉ c.timers) : OnlySends c c.startRexmitTimer := by
  refine (scheduleTimeout_outcome { c with rexmitCount := 0 } h).mono ?_ ?_
  · rintro c' rfl
    have hcount : Sends c { c with rexmitCount := 0 } :=
      ⟨rfl, fun _ _ _ ↦ Iff.rfl, [], by simp⟩
    exact hcount.trans (sends_cons_timer _ (.inl rfl))
  · rintro e rfl
    exact ofSending_nullPointer

theorem dataSent_sends : OnlySends c c.dataSent := by
  unfold dataSent
  split
  · have hcancel : Sends c (if c.isScheduled .rexmit then c.cancelEvent .rexmit else c) := by
      split
      · exact c.sends_cancelEvent (.inl rfl)
      · exact .refl c
    have hnot : Timer.rexmit ∉ (if c.isScheduled .rexmit then c.cancelEvent .rexmit else c).timers := by
      split
      · exact c.not_mem_cancelEvent .rexmit
      · rename_i h
        rwa [isScheduled_iff] at h
    refine (scheduleTimeout_outcome _ hnot).mono ?_ ?_
    · rintro c' rfl
      exact hcancel.trans (sends_cons_timer _ (.inl rfl))
    · rintro e rfl
      exact ofSending_nullPointer
  · refine Outcome.ite (fun h ↦ c.startRexmitTimer_sends fun hs ↦ ?_) fun _ ↦ .refl c
    rw [(c.isScheduled_iff _).mpr hs] at h
    cases h

section

variable (bytes : ℕ)

/-- The segment brings `snd_nxt` to `snd_fin_seq`, so it carries the FIN. -/
def finRides : Bool :=
  c.sendFinFlag && c.sndNxt + BitVec.ofNat 32 bytes == c.sndFinSeq

/-- The segment `sendSegment` sends. -/
def segmentOf : TCPSegment :=
  { sequenceNo := c.sndNxt, payloadLength := bytes, ackNo := c.rcvNxt, ackBit := true,
    window := c.rcvWnd.toNat, finBit := c.finRides bytes }

/-- The connection after `sendSegment`. -/
def afterSegment : TCPConnection :=
  { c with sndNxt := if c.finRides bytes then c.sndFinSeq + 1
                     else c.sndNxt + BitVec.ofNat 32 bytes }.sendToIP (c.segmentOf bytes)

/-- The bytes are in the send queue, as `createSegmentWithBytes` asserts. -/
def queueHolds : Bool :=
  seqLE c.sendQueue.beginSeq c.sndNxt &&
    seqLE (c.sndNxt + BitVec.ofNat 32 bytes) c.sendQueue.endSeq

theorem sendSegment_eq :
    c.sendSegment bytes =
      (check c.assertsEnabled (c.queueHolds bytes) (.assertion .createSegmentWithBytes) >>=
        fun _ ↦ .ok (c.afterSegment bytes)) := by
  unfold sendSegment TCPVirtualDataSendQueue.createSegmentWithBytes queueHolds
  cases hc : check (φ := Fault) c.assertsEnabled
      (seqLE c.sendQueue.beginSeq c.sndNxt &&
        seqLE (c.sndNxt + BitVec.ofNat 32 bytes) c.sendQueue.endSeq)
      (.assertion .createSegmentWithBytes) with
  | error e => rfl
  | ok u =>
    simp only [ok_bind, pure, Except.pure, beq_self_eq_true, check_true, afterSegment, segmentOf]
    cases hf : c.finRides bytes with
    | true =>
      rw [finRides] at hf
      rw [if_pos hf]
      rfl
    | false =>
      rw [finRides] at hf
      rw [if_neg (by simp [hf])]
      rfl

theorem sends_afterSegment : Sends c (c.afterSegment bytes) :=
  (c.sends_setNxt _).trans (sends_sendToIP _ _)

theorem sendSegment_sends : OnlySends c (c.sendSegment bytes) := by
  rw [sendSegment_eq]
  exact Outcome.check_bind (ofSending_assertion nofun) (c.sends_afterSegment bytes)

end

theorem sendWholeSegments_sends (rounds : ℕ) (c : TCPConnection) (bytesToSend : ℕ) :
    OnlySends c (sendWholeSegments rounds c bytesToSend) := by
  induction rounds generalizing c bytesToSend with
  | zero => exact ofSending_endlessLoop
  | succ rounds ih =>
    unfold sendWholeSegments
    refine Outcome.ite (fun _ ↦ ?_) fun _ ↦ .refl c
    exact (c.sendSegment_sends _).bind fun c₁ h₁ ↦ h₁.then (ih c₁ _)

theorem sendSegments_sends (bytesToSend : ℕ) : OnlySends c (c.sendSegments bytesToSend) :=
  Outcome.ite (fun _ ↦ c.sendSegment_sends _) fun _ ↦ sendWholeSegments_sends _ c _

theorem rememberSent_sends : OnlySends c c.rememberSent :=
  ((c.sends_setMax _).trans (sends_ackSent _)).then (dataSent_sends _)

theorem sendData_sends (fullSegmentsOnly : Bool) (congestionWindow : ℤ) :
    OnlySends₂ c (c.sendData fullSegmentsOnly congestionWindow) := by
  have hnxt : Sends c c.sendFromMax := c.sends_setNxt _
  unfold sendData
  refine Outcome.ite (fun _ ↦ hnxt) fun _ ↦ Outcome.ite (fun _ ↦ hnxt) fun _ ↦
    Outcome.ite (fun _ ↦ hnxt) fun _ ↦ Outcome.check_bind (ofSending_assertion nofun) ?_
  refine (hnxt.then (sendSegments_sends _ _)).bind fun c₁ h₁ ↦ ?_
  exact (h₁.then c₁.rememberSent_sends).bind fun c₂ h₂ ↦ h₂

theorem sendProbe_sends : OnlySends₂ c c.sendProbe := by
  have hnxt : Sends c c.sendFromMax := c.sends_setNxt _
  unfold sendProbe
  refine Outcome.ite (fun _ ↦ hnxt) fun _ ↦ ?_
  refine (hnxt.then (sendSegment_sends _ _)).bind fun c₁ h₁ ↦ ?_
  exact (h₁.then c₁.rememberSent_sends).bind fun c₂ h₂ ↦ h₂

theorem retransmitOneSegment_sends : OnlySends c c.retransmitOneSegment := by
  unfold retransmitOneSegment
  refine Outcome.check_bind (ofSending_assertion nofun) ?_
  refine ((c.sends_setNxt _).then (sendSegment_sends _ _)).bind fun c₁ h₁ ↦ ?_
  exact h₁.trans c₁.sends_ackSent

theorem retransmitLoop_sends (rounds : ℕ) (c : TCPConnection) (bytesToSend : ℕ) :
    OnlySends c (retransmitLoop rounds c bytesToSend) := by
  induction rounds generalizing c bytesToSend with
  | zero => exact ofSending_endlessLoop
  | succ rounds ih =>
    unfold retransmitLoop
    refine Outcome.ite (fun _ ↦ ?_) fun _ ↦ .refl c
    refine (c.sendSegment_sends _).bind fun c₁ h₁ ↦ ?_
    exact Outcome.ite (fun _ ↦ h₁) fun _ ↦ h₁.then (ih c₁ _)

theorem retransmitData_sends : OnlySends c c.retransmitData :=
  Outcome.check_bind (ofSending_assertion nofun) ((c.sends_setNxt _).then (retransmitLoop_sends _ _ _))

end Data

/-! ## Hooks -/

section Hooks

variable (c : TCPConnection)

theorem algSendData_sends : OnlySends₂ c c.algSendData := c.sendData_sends _ _

theorem sendDataOrAck_sends {r : Except Fault (Bool × TCPConnection)} (h : OnlySends₂ c r) :
    OnlySends c (sendDataOrAck r) := by
  refine h.bind fun r h ↦ ?_
  show Sends c (if r.1 then r.2 else r.2.sendAck)
  split
  · exact h
  · exact h.trans r.2.sends_sendAck

theorem algEstablished_sends (active : Bool) : OnlySends c (c.algEstablished active) := by
  unfold algEstablished
  split
  · exact Outcome.ite (fun _ ↦ c.sendDataOrAck_sends (c.sendData_sends _ _)) fun _ ↦ .refl c
  · have hcwnd : Sends c { c with sndCwnd := c.sndMss } := c.sends_setCwnd _
    exact Outcome.ite (fun _ ↦ hcwnd.then (sendDataOrAck_sends _ (algSendData_sends _)))
      fun _ ↦ hcwnd

theorem sendCommandInvoked_sends : OnlySends c c.sendCommandInvoked := by
  unfold sendCommandInvoked
  split
  · exact onlySends_snd (c.sendData_sends _ _)
  · exact onlySends_snd c.algSendData_sends

theorem receiveSeqChanged_sends : OnlySends c c.receiveSeqChanged := by
  unfold receiveSeqChanged
  split
  · exact c.sends_sendAck
  · refine Outcome.ite (fun _ ↦ c.sends_sendAck) fun _ ↦ Outcome.ite (fun h ↦ ?_) fun _ ↦ .refl c
    have hnot : Timer.delayedAck ∉ c.timers := fun hs ↦ by
      rw [(c.isScheduled_iff _).mpr hs] at h
      cases h
    refine (c.scheduleTimeout_outcome hnot).mono ?_ ?_
    · rintro c' rfl
      exact c.sends_cons_timer (.inr rfl)
    · rintro e rfl
      exact ofSending_nullPointer

theorem restartRexmitTimer_sends : OnlySends c (c.cancelEvent .rexmit).startRexmitTimer :=
  (c.sends_cancelEvent (.inl rfl)).then (startRexmitTimer_sends _ (c.not_mem_cancelEvent _))

theorem baseReceivedDataAck_sends : OnlySends c c.baseReceivedDataAck := by
  unfold baseReceivedDataAck
  refine Outcome.ite (fun _ ↦ ?_) fun _ ↦ c.restartRexmitTimer_sends
  show Sends c (if c.isScheduled .rexmit then c.cancelEvent .rexmit else c)
  split
  · exact c.sends_cancelEvent (.inl rfl)
  · exact .refl c

theorem openCongestionWindow_sends : OnlySends c c.openCongestionWindow := by
  unfold openCongestionWindow
  refine Outcome.ite (fun _ ↦ c.sends_setCwnd _) fun _ ↦ Outcome.ite (fun _ ↦ ?_) fun _ ↦
    c.sends_setCwnd _
  refine ⟨?_, nofun⟩
  rintro ⟨t, h | h⟩ <;> cases h

theorem renoOpenCongestionWindow_sends : OnlySends c c.renoOpenCongestionWindow :=
  Outcome.ite (fun _ ↦ c.sends_setCwnd _) fun _ ↦ c.openCongestionWindow_sends

theorem receivedDataAck_sends : OnlySends c c.receivedDataAck := by
  unfold receivedDataAck
  split
  · exact onlySends_snd (c.sendData_sends _ _)
  · refine c.baseReceivedDataAck_sends.bind fun c₁ h₁ ↦ ?_
    exact h₁.then (onlySends_snd c₁.algSendData_sends)
  · refine c.baseReceivedDataAck_sends.bind fun c₁ h₁ ↦ ?_
    refine (h₁.then c₁.openCongestionWindow_sends).bind fun c₂ h₂ ↦ ?_
    exact h₂.then (onlySends_snd c₂.algSendData_sends)
  · refine c.baseReceivedDataAck_sends.bind fun c₁ h₁ ↦ ?_
    refine (h₁.then c₁.renoOpenCongestionWindow_sends).bind fun c₂ h₂ ↦ ?_
    exact h₂.then (onlySends_snd c₂.algSendData_sends)

theorem fastRetransmit_sends (cwnd : TCPConnection → BitVec 32) :
    OnlySends c (c.fastRetransmit cwnd) := by
  refine c.retransmitOneSegment_sends.bind fun c₁ h₁ ↦ ?_
  have h₂ : Sends c c₁.recalculateSlowStartThreshold :=
    h₁.trans c₁.sends_recalculateSlowStartThreshold
  exact (h₂.trans (sends_setCwnd _ _)).then (restartRexmitTimer_sends _)

theorem receivedDuplicateAck_sends : OnlySends c c.receivedDuplicateAck := by
  unfold receivedDuplicateAck
  split
  · exact .refl c
  · exact .refl c
  · exact Outcome.ite (fun _ ↦ c.fastRetransmit_sends _) fun _ ↦ .refl c
  · refine Outcome.ite (fun _ ↦ c.fastRetransmit_sends _) fun _ ↦
      Outcome.ite (fun _ ↦ ?_) fun _ ↦ .refl c
    exact onlySends_snd ((c.sends_setCwnd _).then₂ (algSendData_sends _))

theorem retransmitAfterTimeout_sends : OnlySends c c.retransmitAfterTimeout := by
  have hcwnd : Sends c { c.recalculateSlowStartThreshold with
      sndCwnd := c.recalculateSlowStartThreshold.sndMss } :=
    c.sends_recalculateSlowStartThreshold.trans (sends_setCwnd _ _)
  unfold retransmitAfterTimeout
  split
  · exact c.retransmitData_sends
  · exact c.retransmitOneSegment_sends
  · exact hcwnd.then (retransmitOneSegment_sends _)
  · exact hcwnd.then (retransmitData_sends _)

/-- What a timer of the algorithm does: it sends, or it gives up on the connection. -/
def AlgorithmTimerResult (r : TCPConnection × TCPEventCode) : Prop :=
  (Sends c r.1 ∧ r.2 = .ignore) ∨
    (r.1 = { c with rexmitCount := c.rexmitCount + 1 }.signalConnectionTimeout ∧ r.2 = .abort)

theorem processRexmitTimer_sends (h : .rexmit ∉ c.timers) :
    Outcome c.processRexmitTimer c.AlgorithmTimerResult Fault.OfSending := by
  have hcount : Sends c { c with rexmitCount := c.rexmitCount + 1 } :=
    ⟨rfl, fun _ _ _ ↦ Iff.rfl, [], by simp⟩
  unfold processRexmitTimer
  refine Outcome.ite (fun _ ↦ .inr ⟨rfl, rfl⟩) fun _ ↦ ?_
  refine Outcome.bind (Q := Sends c) ?_ fun c₁ h₁ ↦ ?_
  · refine (scheduleTimeout_outcome _ (by exact h)).mono ?_ ?_
    · rintro c' rfl
      exact hcount.trans (sends_cons_timer _ (.inl rfl))
    · rintro e rfl
      exact ofSending_nullPointer
  · exact (h₁.then c₁.retransmitAfterTimeout_sends).bind fun c₂ h₂ ↦ .inl ⟨h₂, rfl⟩

theorem algProcessTimer_sends {t : Timer} (hclass : c.tcpAlgorithmClass ≠ .dumbTCP)
    (h : t ∉ c.timers) :
    Outcome (c.algProcessTimer t) c.AlgorithmTimerResult Fault.OfSending := by
  unfold algProcessTimer
  split
  · rename_i heq
    exact absurd heq hclass
  · exact c.processRexmitTimer_sends h
  · exact c.sendProbe_sends.bind fun r h ↦ .inl ⟨h, rfl⟩
  · exact .inl ⟨c.sends_sendAck, rfl⟩
  · exact .inl ⟨.refl c, rfl⟩

end Hooks

end TCPConnection

end InetManet.TCP
