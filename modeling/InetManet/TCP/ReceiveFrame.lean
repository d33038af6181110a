import InetManet.TCP.AckSpace

/-!
# The receiving side leaves the send space alone

Segment text, the FIN of the peer and what an ACK of our FIN means change the receive variables,
timers and the log. They may send pure ACKs, which occupy no sequence number.
-/

namespace InetManet.TCP

open TransitionSystem SerialNumber

namespace TCPConnection

/-- The connection without what the receiving side changes. The windows are not part of the send
space. -/
def sendSide (c : TCPConnection) : TCPConnection :=
  { c with toSockPair := {}, irs := 0, rcvNxt := 0, receiveQueue := {}, finRcvd := false,
           rcvFinSeq := 0, sndWnd := 0, sndWl1 := 0, sndWl2 := 0, sndCwnd := 0,
           dupacks := 0, synRexmitCount := 0, timers := [], log := [] }

/-- The timers whose expiry sends data. -/
def sendsData : Timer → Bool
  | .rexmit | .persist => true
  | _ => false

/-- The FIN of the peer that `c` knows of has not changed in `c'`, and none has been consumed. -/
structure SamePeerFin (c c' : TCPConnection) : Prop where
  finRcvd : c'.finRcvd = c.finRcvd
  peerClosed : .indication .peerClosed ∈ c'.log → .indication .peerClosed ∈ c.log

theorem SamePeerFin.trans {c c' c'' : TCPConnection} (h : SamePeerFin c c')
    (h' : SamePeerFin c' c'') : SamePeerFin c c'' :=
  ⟨h'.finRcvd.trans h.finRcvd, fun hc ↦ h.peerClosed (h'.peerClosed hc)⟩

/-- The send space is unchanged, and no FIN has been sent. A FIN of the peer has been received only
under `fin`. -/
structure Inert (fin : Prop) (c c' : TCPConnection) : Prop where
  side : c'.sendSide = c.sendSide
  timers : ∀ t, sendsData t = true → (t ∈ c'.timers ↔ t ∈ c.timers)
  log : ∃ out, c'.log = c.log ++ out ∧ ∀ seg, .toIP seg ∈ out → seg.finBit = false
  peer : ¬ fin → SamePeerFin c c'

namespace Inert

variable {fin : Prop} {c c' c'' : TCPConnection} {u n m e : ℕ}

protected theorem refl (c : TCPConnection) : Inert fin c c :=
  ⟨rfl, fun _ _ ↦ Iff.rfl, ⟨[], by simp, by simp⟩, fun _ ↦ ⟨rfl, id⟩⟩

protected theorem trans (h : Inert fin c c') (h' : Inert fin c' c'') : Inert fin c c'' := by
  obtain ⟨out, hout, hfin⟩ := h.log
  obtain ⟨out', hout', hfin'⟩ := h'.log
  refine ⟨h'.side.trans h.side, fun t ht ↦ (h'.timers t ht).trans (h.timers t ht),
    ⟨out ++ out', ?_, fun seg hseg ↦ ?_⟩, fun hno ↦ (h.peer hno).trans (h'.peer hno)⟩
  · rw [hout', hout, List.append_assoc]
  · rcases List.mem_append.mp hseg with hseg | hseg
    · exact hfin seg hseg
    · exact hfin' seg hseg

theorem weaken (h : Inert False c c') : Inert fin c c' :=
  ⟨h.side, h.timers, h.log, fun _ ↦ h.peer id⟩

variable (h : Inert fin c c')

include h

theorem fsm : c'.fsm = c.fsm := congrArg (·.fsm) h.side
theorem active : c'.active = c.active := congrArg (·.active) h.side
theorem algorithm : c'.tcpAlgorithmClass = c.tcpAlgorithmClass :=
  congrArg (·.tcpAlgorithmClass) h.side
theorem sndUna : c'.sndUna = c.sndUna := congrArg (·.sndUna) h.side
theorem sndNxt : c'.sndNxt = c.sndNxt := congrArg (·.sndNxt) h.side
theorem sndMax : c'.sndMax = c.sndMax := congrArg (·.sndMax) h.side
theorem iss : c'.iss = c.iss := congrArg (·.iss) h.side
theorem sendQueue : c'.sendQueue = c.sendQueue := congrArg (·.sendQueue) h.side
theorem sendFinFlag : c'.sendFinFlag = c.sendFinFlag :=
  congrArg (·.sendFinFlag) h.side
theorem sndFinSeq : c'.sndFinSeq = c.sndFinSeq := congrArg (·.sndFinSeq) h.side
theorem finAckRcvd : c'.finAckRcvd = c.finAckRcvd :=
  congrArg (·.finAckRcvd) h.side

theorem deferredClose (oldSndNxt : Seq) (event : TCPEventCode) :
    c'.deferredClose oldSndNxt event = c.deferredClose oldSndNxt event := by
  unfold TCPConnection.deferredClose
  rw [h.sendFinFlag, h.sndNxt, h.sndFinSeq, h.fsm]

theorem finSent : c'.finSent ↔ c.finSent := by
  obtain ⟨out, hout, hfin⟩ := h.log
  unfold TCPConnection.finSent
  rw [hout]
  refine ⟨fun ⟨seg, hseg, hbit⟩ ↦ ?_, fun ⟨seg, hseg, hbit⟩ ↦
    ⟨seg, List.mem_append_left _ hseg, hbit⟩⟩
  rcases List.mem_append.mp hseg with hseg | hseg
  · exact ⟨seg, hseg, hbit⟩
  · rw [hfin seg hseg] at hbit
    cases hbit

theorem finOrder : c'.FinOrder u m e ↔ c.FinOrder u m e := by
  rw [FinOrder, FinOrder, h.sendFinFlag, h.sndFinSeq]

theorem sendVars (hv : SendVars c u n m e) : SendVars c' u n m e := by
  refine ⟨⟨⟨h.sndUna.trans hv.una, h.sndNxt.trans hv.nxt, h.sndMax.trans hv.max,
    h.sendQueue ▸ hv.endSeq, hv.una_le_nxt, hv.nxt_le_max, hv.max_le_end, h.finOrder.mpr hv.fin,
    h.finSent.trans hv.finSent⟩, hv.room, fun hf ↦ hv.finRoom (h.sendFinFlag ▸ hf)⟩, fun hd ht ↦ ?_⟩
  exact hv.rexmit (h.algorithm ▸ hd) ((h.timers _ rfl).mp ht)

theorem held : c'.Held u e ↔ c.Held u e := by rw [Held, Held, h.sendQueue]

end Inert

/-! ## Output and timers -/

section Steps

variable {fin : Prop} (c : TCPConnection)

theorem inert_emit {o : Output} (ho : ∀ seg, o = .toIP seg → seg.finBit = false)
    (hfin : fin ∨ o ≠ .indication .peerClosed) : Inert fin c (c.emit o) := by
  refine ⟨rfl, fun _ _ ↦ Iff.rfl, ⟨[o], rfl, fun seg hseg ↦ ho seg (List.mem_singleton.mp hseg).symm⟩,
    fun hno ↦ ⟨rfl, fun hc ↦ ?_⟩⟩
  rcases List.mem_append.mp hc with hc | hc
  · exact hc
  · exact absurd (List.mem_singleton.mp hc).symm (hfin.resolve_left hno)

theorem inert_sendIndicationToApp (code : TcpStatusInd) (h : code ≠ .peerClosed) :
    Inert fin c (c.sendIndicationToApp code) :=
  c.inert_emit (fun _ h ↦ by cases h) (.inr fun he ↦ h (Output.indication.inj he))

theorem inert_sendRstTo (seq : Seq) (srcPort destPort : ℤ) :
    Inert fin c (c.sendRstTo seq srcPort destPort) :=
  c.inert_emit (fun _ h ↦ by cases h; rfl) (.inr nofun)

theorem inert_cancelEvent {t : Timer} (ht : sendsData t = false) :
    Inert fin c (c.cancelEvent t) := by
  refine ⟨rfl, fun t' ht' ↦ ?_, ⟨[], by simp [cancelEvent], by simp⟩, fun _ ↦ ⟨rfl, id⟩⟩
  have hne : t' ≠ t := by
    rintro rfl
    rw [ht] at ht'
    cases ht'
  simp [mem_cancelEvent, hne]

theorem inert_ackSent : Inert fin c c.ackSent := by
  unfold ackSent
  split
  · exact .refl c
  · split
    · exact c.inert_cancelEvent rfl
    · exact .refl c

theorem inert_sendAck : Inert fin c c.sendAck := by
  have hseg : Inert fin c (c.sendToIP c.ackSegment) := by
    refine c.inert_emit (fun seg h ↦ ?_) (.inr nofun)
    obtain rfl := Output.toIP.inj h
    rfl
  exact hseg.trans (inert_ackSent _)

/-- A change to the connection that neither shows on the send side nor in timers and log. -/
theorem inert_of_side {c' : TCPConnection} (hside : c'.sendSide = c.sendSide)
    (htimers : c'.timers = c.timers) (hlog : c'.log = c.log)
    (hfin : fin ∨ c'.finRcvd = c.finRcvd) : Inert fin c c' :=
  ⟨hside, fun _ _ ↦ by rw [htimers], ⟨[], by simp [hlog], by simp⟩,
    fun hno ↦ ⟨hfin.resolve_left hno, fun hc ↦ hlog ▸ hc⟩⟩

theorem inert_receive (q : TCPVirtualDataRcvQueue) (nxt : Seq) :
    Inert fin c { c with receiveQueue := q, rcvNxt := nxt } :=
  c.inert_of_side rfl rfl rfl (.inr rfl)

theorem inert_forwardToApp (packets : List ℕ) : Inert fin c (c.forwardToApp packets) := by
  refine ⟨rfl, fun _ _ ↦ Iff.rfl, ⟨packets.map .data, rfl, fun _ h ↦ by simp at h⟩,
    fun _ ↦ ⟨rfl, fun hc ↦ ?_⟩⟩
  rcases List.mem_append.mp hc with hc | hc
  · exact hc
  · simp at hc

theorem inert_consumeFin (finSeq : Seq) (hfin : fin) : Inert fin c (c.consumeFin finSeq) :=
  (c.inert_receive c.receiveQueue (finSeq + 1)).trans
    (inert_emit _ (fun _ h ↦ by cases h) (.inl hfin))

theorem inert_advanceOverStoredFin (hfin : c.finRcvd = true → fin) :
    Inert fin c c.advanceOverStoredFin := by
  unfold advanceOverStoredFin
  split <;> rename_i h
  · rw [Bool.and_eq_true] at h
    exact c.inert_consumeFin _ (hfin h.1)
  · exact .refl c

theorem inert_receiveFin (seg : TCPSegment) (hfin : fin) : Inert fin c (c.receiveFin seg) := by
  unfold receiveFin
  dsimp only
  split
  · exact c.inert_consumeFin _ hfin
  · exact c.inert_of_side rfl rfl rfl (.inl hfin)

/-- A computation of the receiving side. -/
abbrev ReceivesOnly (fin : Prop) (x : Except Fault TCPConnection) : Prop :=
  Outcome x (Inert fin c) (¬ Fault.IsSendAssertion ·)

theorem scheduleTimeout_inert {t : Timer} (ht : sendsData t = false) :
    c.ReceivesOnly fin (c.scheduleTimeout t) := by
  unfold scheduleTimeout
  refine Outcome.ite (fun _ ↦ ?_) fun _ ↦ Outcome.ite (fun _ ↦ ?_) fun _ ↦ ?_
  · rintro (h | h | h | h) <;> cases h
  · rintro (h | h | h | h) <;> cases h
  · refine ⟨rfl, fun t' ht' ↦ ?_, ⟨[], by simp, by simp⟩, fun _ ↦ ⟨rfl, id⟩⟩
    have hne : t' ≠ t := by
      rintro rfl
      rw [ht] at ht'
      cases ht'
    simp [hne]

variable {c}

theorem Inert.then {c₁ : TCPConnection} {x : Except Fault TCPConnection} (h : Inert fin c c₁)
    (hx : c₁.ReceivesOnly fin x) : c.ReceivesOnly fin x :=
  hx.post fun _ h' ↦ h.trans h'

variable (c)

theorem enterTimeWait_inert : c.ReceivesOnly fin c.enterTimeWait :=
  (c.scheduleTimeout_inert rfl).bind fun _ h ↦ h.trans (inert_sendIndicationToApp _ _ (by decide))

theorem restart2MSL_inert : c.ReceivesOnly fin c.restart2MSL :=
  (c.inert_cancelEvent rfl).then (scheduleTimeout_inert _ rfl)

theorem startSynRexmitTimer_inert : c.ReceivesOnly fin c.startSynRexmitTimer := by
  have hcount : Inert fin c { c with synRexmitCount := 0 } := c.inert_of_side rfl rfl rfl (.inr rfl)
  refine hcount.then ?_
  unfold startSynRexmitTimer
  dsimp only
  split
  · exact (inert_cancelEvent _ rfl).then (scheduleTimeout_inert _ rfl)
  · exact scheduleTimeout_inert _ rfl

theorem startConnEstabTimer_inert : c.ReceivesOnly fin c.startConnEstabTimer :=
  Outcome.ite (fun _ ↦ c.scheduleTimeout_inert rfl) fun _ ↦ .refl c

/-- A passive connection does not send when it is established. -/
theorem algEstablished_inert : c.ReceivesOnly fin (c.algEstablished false) := by
  unfold algEstablished
  split
  · exact .refl c
  · exact c.inert_of_side rfl rfl rfl (.inr rfl)

theorem inert_queueTextOfSyn (seg : TCPSegment) : Inert fin c (c.queueTextOfSyn seg) := by
  unfold queueTextOfSyn
  split
  · exact c.inert_receive _ c.rcvNxt
  · exact .refl c

theorem inert_acceptTextOfSynAck (seg : TCPSegment) : Inert fin c (c.acceptTextOfSynAck seg) := by
  unfold acceptTextOfSynAck
  split
  · exact c.inert_receive _ _
  · exact .refl c

theorem receiveSeqChanged_inert : c.ReceivesOnly fin c.receiveSeqChanged := by
  unfold receiveSeqChanged
  split
  · exact c.inert_sendAck
  · exact Outcome.ite (fun _ ↦ c.inert_sendAck) fun _ ↦
      Outcome.ite (fun _ ↦ c.scheduleTimeout_inert rfl) fun _ ↦ .refl c

theorem acknowledgeProgress_inert (oldRcvNxt : Seq) :
    c.ReceivesOnly fin (c.acknowledgeProgress oldRcvNxt) :=
  Outcome.ite (fun _ ↦ c.receiveSeqChanged_inert) fun _ ↦ .refl c

end Steps

/-! ## Segment text and FIN -/

section Segment

theorem extractTo_not_isSendAssertion (asserts : Bool) (q : TCPVirtualDataRcvQueue) (seq : Seq) :
    Outcome (q.extractTo asserts seq) (fun _ ↦ True) (¬ Fault.IsSendAssertion ·) := by
  have hfault : ¬ Fault.IsSendAssertion (.assertion .extractTo) := by
    rintro (h | h | h | h) <;> cases h
  refine Outcome.bind (Q := fun _ ↦ True) (outcome_check (fun _ ↦ trivial) fun _ _ ↦ hfault)
    fun _ _ ↦ ?_
  split
  · exact trivial
  · refine Outcome.bind (Q := fun _ ↦ True) (outcome_check (fun _ ↦ trivial) fun _ _ ↦ hfault)
      fun _ _ ↦ ?_
    exact Outcome.ite (fun _ ↦ trivial) fun _ ↦ Outcome.ite (fun _ ↦ trivial) fun _ ↦ trivial

theorem extractLoop_not_isSendAssertion (asserts : Bool) (seq : Seq) (rounds : ℕ)
    (q : TCPVirtualDataRcvQueue) :
    Outcome (TCPVirtualDataRcvQueue.extractLoop asserts seq rounds q) (fun _ ↦ True)
      (¬ Fault.IsSendAssertion ·) := by
  induction rounds generalizing q with
  | zero => exact endlessLoop_not_isSendAssertion
  | succ rounds ih =>
    refine Outcome.bind ((extractTo_not_isSendAssertion asserts q seq).bind (R := fun _ ↦ True)
      fun _ _ ↦ trivial) fun r _ ↦ ?_
    obtain ⟨packet, q'⟩ := r
    cases packet with
    | none => exact trivial
    | some numBytes => exact (ih q').bind fun _ _ ↦ trivial

variable {fin : Prop} (c : TCPConnection)

/-- Text can bring `rcv_nxt` to a FIN that has arrived before. -/
theorem processSegmentText_inert (seg : TCPSegment) (hfin : c.finRcvd = true → fin) :
    c.ReceivesOnly fin (c.processSegmentText seg) := by
  refine Outcome.ite (fun _ ↦ Outcome.ite (fun _ ↦ ?_) fun _ ↦ ?_) fun _ ↦ .refl c
  · exact (c.inert_receive _ _).trans (inert_sendAck _)
  · refine Outcome.bind (extractLoop_not_isSendAssertion _ _ _ _) fun r _ ↦ ?_
    exact ((c.inert_receive _ _).trans (inert_forwardToApp _ _)).trans
      (inert_advanceOverStoredFin _ hfin)

/-- The FIN bit decides the event code, and in FIN_WAIT_1 whether our own FIN is acknowledged. -/
def EventAfterFin (c : TCPConnection) (seg : TCPSegment) (event event' : TCPEventCode) : Prop :=
  seg.finBit = false ∧ event' = event ∨ seg.finBit = true ∧
    (event' = .rcvFin ∨ c.fsm = .finWait1 ∧ c.finAckRcvd = true ∧ event' = .rcvFinAck)

theorem Inert.eventAfterFin {c' : TCPConnection} {seg : TCPSegment} {event event' : TCPEventCode}
    (h : Inert fin c c') : c'.EventAfterFin seg event event' ↔ c.EventAfterFin seg event event' := by
  rw [EventAfterFin, EventAfterFin, h.fsm, h.finAckRcvd]

theorem processFin_inert (seg : TCPSegment) (event : TCPEventCode) (hbit : seg.finBit = true → fin) :
    Outcome (c.processFin seg event) (fun r ↦ Inert fin c r.1 ∧ c.EventAfterFin seg event r.2)
      (¬ Fault.IsSendAssertion ·) := by
  unfold processFin
  refine Outcome.ite (fun hfinBit ↦ ?_) fun hno ↦ ⟨.refl c, .inl ⟨by simpa using hno, rfl⟩⟩
  have hfin := c.inert_receiveFin seg (hbit hfinBit)
  have hcancel := hfin.trans (inert_cancelEvent _ (t := .finWait2) rfl)
  dsimp only
  split <;> rename_i hs
  · refine Outcome.ite (fun hack ↦ ?_) fun _ ↦ ⟨hfin, .inr ⟨hfinBit, .inl rfl⟩⟩
    refine (hcancel.then (enterTimeWait_inert _)).bind fun c₁ h₁ ↦ ?_
    exact ⟨h₁, .inr ⟨hfinBit, .inr ⟨hfin.fsm.symm.trans hs, hfin.finAckRcvd.symm.trans hack, rfl⟩⟩⟩
  · exact (hcancel.then (enterTimeWait_inert _)).bind fun c₁ h₁ ↦ ⟨h₁, .inr ⟨hfinBit, .inl rfl⟩⟩
  · exact (hfin.then (restart2MSL_inert _)).bind fun c₁ h₁ ↦ ⟨h₁, .inr ⟨hfinBit, .inl rfl⟩⟩
  · exact ⟨hfin, .inr ⟨hfinBit, .inl rfl⟩⟩

theorem processTextAndFin_inert (seg : TCPSegment) (oldSndNxt : Seq) (event : TCPEventCode)
    (hfin : seg.finBit = true ∨ c.finRcvd = true → fin) :
    Outcome (c.processTextAndFin seg oldSndNxt event)
      (fun r ↦ Inert fin c r.1 ∧
        ∃ event', c.EventAfterFin seg event event' ∧ r.2 = c.deferredClose oldSndNxt event')
      (¬ Fault.IsSendAssertion ·) := by
  refine (c.processSegmentText_inert seg fun h ↦ hfin (.inr h)).bind fun c₁ h₁ ↦ ?_
  refine (c₁.processFin_inert seg event fun h ↦ hfin (.inl h)).bind ?_
  rintro ⟨c₂, event'⟩ ⟨h₂, hevent⟩
  refine Outcome.bind (Q := Inert fin c₂) (acknowledgeProgress_inert c₂ _) fun c₃ h₃ ↦ ?_
  have h := (h₁.trans h₂).trans h₃
  exact ⟨h, event', h₁.eventAfterFin.mp hevent, h.deferredClose oldSndNxt event'⟩

/-- An ACK of our FIN matters in FIN_WAIT_1 and CLOSING, and ends LAST_ACK. -/
theorem processFinAck_inert (seg : TCPSegment) (event : TCPEventCode) :
    Outcome (c.processFinAck seg event)
      (fun r ↦ Inert False c r.1 ∧ (r.2 = none ∧ c.fsm = .lastAck ∨ ∃ event', r.2 = some event' ∧
        (event' = event ∨ c.fsm = .finWait1 ∨ c.fsm = .closing))) (¬ Fault.IsSendAssertion ·) := by
  unfold processFinAck
  split <;> rename_i hs
  · exact ⟨.refl c, .inr ⟨_, rfl, .inr (.inl hs)⟩⟩
  · refine Outcome.ite (fun _ ↦ ?_) fun _ ↦ ⟨.refl c, .inr ⟨_, rfl, .inl rfl⟩⟩
    exact c.enterTimeWait_inert.bind fun c₁ h₁ ↦ ⟨h₁, .inr ⟨_, rfl, .inr (.inr hs)⟩⟩
  · cases hack : c.acksOurFin seg with
    | true => exact ⟨c.inert_sendIndicationToApp _ (by decide), .inl ⟨rfl, hs⟩⟩
    | false => exact ⟨.refl c, .inr ⟨_, rfl, .inl rfl⟩⟩
  · exact (c.inert_sendAck.then (restart2MSL_inert _)).bind fun c₁ h₁ ↦
      ⟨h₁, .inr ⟨_, rfl, .inl rfl⟩⟩
  · exact ⟨.refl c, .inr ⟨_, rfl, .inl rfl⟩⟩

theorem processAck_eq (seg : TCPSegment) (event : TCPEventCode) :
    c.processAck seg event = (c.processAckIfOpen seg >>= fun r ↦
      if !r.1 then .ok (r.2, .ignore)
      else r.2.processFinAck seg event >>= fun r' ↦ match r'.2 with
        | none => .ok (r'.1, .rcvAck)
        | some event => r'.1.processTextAndFin seg c.sndNxt event) := rfl

/-- The event codes with which the processing of a segment can end, after the ACK field. -/
def EventAfterAck (c : TCPConnection) (seg : TCPSegment) (oldSndNxt : Seq)
    (event event' : TCPEventCode) : Prop :=
  c.fsm = .lastAck ∧ event' = .rcvAck ∨
    ∃ event₁ event₂, (event₁ = event ∨ c.fsm = .finWait1 ∨ c.fsm = .closing) ∧
      c.EventAfterFin seg event₁ event₂ ∧ event' = c.deferredClose oldSndNxt event₂

variable {c} in
theorem EventAfterAck.synRcvd {seg : TCPSegment} {oldSndNxt : Seq} {event event' : TCPEventCode}
    (h : c.EventAfterAck seg oldSndNxt event event') (hs : c.fsm = .synRcvd) :
    event' = event ∨ event' = .rcvFin ∨ event' = .close := by
  rcases h with ⟨hl, -⟩ | ⟨event₁, event₂, hevent, hafter, hclose⟩
  · rw [hs] at hl
    cases hl
  · simp only [hs, reduceCtorEq, or_false] at hevent
    subst hevent
    unfold deferredClose at hclose
    split at hclose
    · exact .inr (.inr hclose)
    · rcases hafter with ⟨-, he⟩ | ⟨-, he | ⟨hf, -, -⟩⟩
      · exact .inl (hclose.trans he)
      · exact .inr (.inl (hclose.trans he))
      · rw [hs] at hf
        cases hf

theorem processAck_inert (seg : TCPSegment) (oldSndNxt : Seq) (event : TCPEventCode)
    (hfin : seg.finBit = true ∨ c.finRcvd = true → fin) :
    Outcome (c.processFinAck seg event >>= fun r ↦ match r.2 with
        | none => .ok (r.1, .rcvAck)
        | some event => r.1.processTextAndFin seg oldSndNxt event)
      (fun r ↦ Inert fin c r.1 ∧ c.EventAfterAck seg oldSndNxt event r.2)
      (¬ Fault.IsSendAssertion ·) := by
  refine (c.processFinAck_inert seg event).bind ?_
  rintro ⟨c₁, event'⟩ ⟨h₁, ⟨rfl, hs⟩ | ⟨event₁, rfl, hevent⟩⟩
  · exact ⟨h₁.weaken, .inl ⟨hs, rfl⟩⟩
  · have hfin' : seg.finBit = true ∨ c₁.finRcvd = true → fin := by
      rw [(h₁.peer id).finRcvd]
      exact hfin
    refine (c₁.processTextAndFin_inert seg oldSndNxt event₁ hfin').post ?_
    rintro ⟨c₂, event₃⟩ ⟨h₂, event₂, hafter, hclose⟩
    exact ⟨h₁.weaken.trans h₂, .inr ⟨event₁, event₂, hevent, h₁.eventAfterFin.mp hafter,
      hclose.trans (h₁.deferredClose _ _)⟩⟩

end Segment

end TCPConnection

end InetManet.TCP
