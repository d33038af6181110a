import InetManet.TCP.ReceiveSpace

/-!
# The peer's data and its FIN

The peer sends a stream in pieces and a FIN behind it, and the segments arrive in any order, some of
them more than once. As long as the segment with the FIN does not arrive behind a gap, every byte
reaches the application and the connection enters CLOSE_WAIT, CLOSING and TIME_WAIT only after
`rcv_nxt` has moved over the FIN. A FIN behind a gap takes the connection to CLOSE_WAIT at once, and
the text that fills the gap is not processed there any more.
-/

namespace InetManet.TCP

open TransitionSystem SerialNumber RegionList

/-- What only the sending side raises when an ACK is processed: an assertion of a function that
sends data or discards what is acknowledged, the division by a congestion window of 0, and the
endless loop over segments of no bytes. -/
def Fault.OfAck (mss : BitVec 32) (e : Fault) : Prop :=
  (∃ site ∈ [AssertSite.createSegmentWithBytes, .discardUpTo, .sendData, .retransmitOneSegment],
    e = .assertion site) ∨ e = .divisionByZero ∨ (e = .endlessLoop ∧ mss = 0)

namespace TCPConnection

/-! ## The stream -/

/-- Position of the `i`-th cut in a stream that starts at `b` and is cut into pieces. -/
def cutAt (b : ℕ) (pieces : List ℕ) (i : ℕ) : ℕ := b + (pieces.take i).sum

def cuts (b : ℕ) (pieces : List ℕ) : Set ℕ := {x | ∃ i, x = cutAt b pieces i}

/-- The segment with the `i`-th piece. -/
structure IsPiece (b : ℕ) (pieces : List ℕ) (i : ℕ) (seg : TCPSegment) : Prop where
  seq : seg.sequenceNo = BitVec.ofNat 32 (cutAt b pieces i)
  text : pieces[i]? = some seg.payloadLength
  finBit : seg.finBit = false

/-- The segment with the FIN and the last `finText` bytes. -/
structure IsFin (b : ℕ) (pieces : List ℕ) (finText : ℕ) (seg : TCPSegment) : Prop where
  seq : seg.sequenceNo = BitVec.ofNat 32 (b + pieces.sum)
  text : seg.payloadLength = finText
  finBit : seg.finBit = true

structure OfStream (b : ℕ) (pieces : List ℕ) (finText : ℕ) (seg : TCPSegment) : Prop where
  part : (∃ i, IsPiece b pieces i seg) ∨ IsFin b pieces finText seg
  ackBit : seg.ackBit = true
  rstBit : seg.rstBit = false
  synBit : seg.synBit = false

section Cuts

variable {b i j : ℕ} {pieces : List ℕ} {seg : TCPSegment}

theorem cutAt_mono (b : ℕ) (pieces : List ℕ) (h : i ≤ j) : cutAt b pieces i ≤ cutAt b pieces j := by
  have hprefix : (pieces.take i).sum ≤ (pieces.take j).sum := by
    have htake := List.take_append_drop i (pieces.take j)
    rw [List.take_take, min_eq_left h] at htake
    rw [← htake, List.sum_append]
    omega
  unfold cutAt
  omega

theorem cutAt_le (b : ℕ) (pieces : List ℕ) (i : ℕ) : cutAt b pieces i ≤ b + pieces.sum := by
  have h := cutAt_mono b pieces (le_max_left i pieces.length)
  have hall : pieces.take (max i pieces.length) = pieces := List.take_of_length_le (le_max_right _ _)
  unfold cutAt at h ⊢
  rwa [hall] at h

theorem IsPiece.next (h : IsPiece b pieces i seg) :
    cutAt b pieces i + seg.payloadLength = cutAt b pieces (i + 1) := by
  have htake : pieces.take (i + 1) = pieces.take i ++ [seg.payloadLength] := by
    rw [List.take_add_one, h.text]
    rfl
  unfold cutAt
  rw [htake, List.sum_append, List.sum_singleton]
  omega

end Cuts

/-! ## Processing a segment -/

/-- `processSegment1stThru8th` and the state transition. TCP passes no segment to a closed
connection. -/
def receive (c : TCPConnection) (seg : TCPSegment) : Except Fault TCPConnection :=
  if c.fsm = .closed then .ok c
  else c.processSegment1stThru8th seg >>= fun r ↦ r.1.performStateTransition r.2

/-- The ACK is not for data that has not been sent yet. -/
def acksSentData (c : TCPConnection) (seg : TCPSegment) : Bool :=
  seqGE c.sndUna seg.ackNo || seqLE seg.ackNo c.sndMax

/-- A FIN does not arrive behind a gap. -/
def finInOrder (c : TCPConnection) (seg : TCPSegment) : Bool :=
  !seg.finBit || !seqGreater seg.sequenceNo c.rcvNxt

/-! ## The faults of the sending side -/

/-- The outcome of a computation that only sends, on behalf of an ACK. -/
abbrev SendsOnAck (c : TCPConnection) (x : Except Fault TCPConnection) : Prop :=
  Outcome x (Sends c) (Fault.OfAck c.sndMss)

section Acks

variable (c : TCPConnection)

theorem ofAck_assertion {mss : BitVec 32} {site : AssertSite}
    (h : site ∈ [AssertSite.createSegmentWithBytes, .discardUpTo, .sendData, .retransmitOneSegment]) :
    Fault.OfAck mss (.assertion site) := .inl ⟨site, h, rfl⟩

theorem Sends.thenOnAck {c c₁ : TCPConnection} {x : Except Fault TCPConnection} (h : Sends c c₁)
    (hx : SendsOnAck c₁ x) : SendsOnAck c x :=
  hx.mono (fun _ h' ↦ h.trans h') fun _ he ↦ h.sndMss ▸ he

theorem OnlySends.onAck {c c' : TCPConnection} {x : Except Fault TCPConnection} (h : OnlySends c x)
    (hok : x = .ok c') : SendsOnAck c x := by
  subst hok
  exact h

theorem scheduleTimeout_ok {t : Timer} (h : t ∉ c.timers) (ht : t ≠ .connEstab ∧ t ≠ .synRexmit) :
    c.scheduleTimeout t = .ok { c with timers := t :: c.timers } := by
  have hexists : c.timerExists t = true := by
    simp [timerExists, ht]
  have hnot : c.isScheduled t = false := by
    simp [isScheduled, h]
  unfold scheduleTimeout
  rw [hexists, hnot]
  rfl

theorem startRexmitTimer_onAck (h : .rexmit ∉ c.timers) : SendsOnAck c c.startRexmitTimer :=
  (c.startRexmitTimer_sends h).onAck (scheduleTimeout_ok { c with rexmitCount := 0 } h (by simp))

theorem restartRexmitTimer_onAck : SendsOnAck c (c.cancelEvent .rexmit).startRexmitTimer :=
  (c.sends_cancelEvent (.inl rfl)).thenOnAck
    (startRexmitTimer_onAck _ (c.not_mem_cancelEvent _))

theorem dataSent_onAck : SendsOnAck c c.dataSent := by
  have hsends := c.dataSent_sends
  unfold dataSent at hsends ⊢
  split
  · rename_i halg
    rw [halg] at hsends
    have hnot : Timer.rexmit ∉ (if c.isScheduled .rexmit then c.cancelEvent .rexmit else c).timers := by
      split
      · exact c.not_mem_cancelEvent .rexmit
      · rename_i h
        rwa [isScheduled_iff] at h
    exact hsends.onAck (scheduleTimeout_ok _ hnot (by simp))
  · refine Outcome.ite (fun h ↦ c.startRexmitTimer_onAck fun hs ↦ ?_) fun _ ↦ .refl c
    rw [(c.isScheduled_iff _).mpr hs] at h
    cases h

theorem sendSegment_onAck (bytes : ℕ) : SendsOnAck c (c.sendSegment bytes) := by
  rw [sendSegment_eq]
  exact Outcome.check_bind (ofAck_assertion (by simp)) (c.sends_afterSegment bytes)

theorem sendWholeSegments_onAck (rounds : ℕ) (c : TCPConnection) (bytesToSend : ℕ)
    (hrounds : c.sndMss = 0 ∨ bytesToSend < rounds) :
    SendsOnAck c (sendWholeSegments rounds c bytesToSend) := by
  induction rounds generalizing c bytesToSend with
  | zero => exact .inr (.inr ⟨rfl, hrounds.resolve_right (Nat.not_lt_zero _)⟩)
  | succ rounds ih =>
    unfold sendWholeSegments
    refine Outcome.ite (fun hle ↦ ?_) fun _ ↦ .refl c
    refine (c.sendSegment_onAck _).bind fun c₁ h₁ ↦ h₁.thenOnAck (ih c₁ _ ?_)
    rw [h₁.sndMss]
    rcases hrounds with hmss | hlt
    · exact .inl hmss
    · by_cases hmss : c.sndMss = 0
      · exact .inl hmss
      · have hpos : 0 < c.sndMss.toNat :=
          Nat.pos_of_ne_zero fun h ↦ hmss (BitVec.eq_of_toNat_eq h)
        exact .inr (by omega)

theorem sendData_onAck (fullSegmentsOnly : Bool) (congestionWindow : ℤ) :
    SendsOnAck c (Prod.snd <$> c.sendData fullSegmentsOnly congestionWindow) := by
  have hnxt : Sends c c.sendFromMax := c.sends_setNxt _
  apply Outcome.map
  unfold sendData
  refine Outcome.ite (fun _ ↦ hnxt) fun _ ↦ Outcome.ite (fun _ ↦ hnxt) fun _ ↦
    Outcome.ite (fun _ ↦ hnxt) fun _ ↦ Outcome.check_bind (ofAck_assertion (by simp)) ?_
  have hsegments : ∀ n, SendsOnAck c (c.sendFromMax.sendSegments n) := fun n ↦ hnxt.thenOnAck
    (Outcome.ite (fun _ ↦ sendSegment_onAck _ _) fun _ ↦
      sendWholeSegments_onAck _ _ _ (.inr (Nat.lt_succ_self _)))
  refine (hsegments _).bind fun c₁ h₁ ↦ ?_
  have hremember : SendsOnAck c₁ c₁.rememberSent :=
    ((c₁.sends_setMax _).trans (sends_ackSent _)).thenOnAck (dataSent_onAck _)
  exact (h₁.thenOnAck hremember).bind fun c₂ h₂ ↦ h₂

theorem retransmitOneSegment_onAck : SendsOnAck c c.retransmitOneSegment := by
  unfold retransmitOneSegment
  refine Outcome.check_bind (ofAck_assertion (by simp)) ?_
  refine ((c.sends_setNxt _).thenOnAck (sendSegment_onAck _ _)).bind fun c₁ h₁ ↦ ?_
  exact h₁.trans c₁.sends_ackSent

theorem receiveSeqChanged_safe : Outcome c.receiveSeqChanged (Sends c) fun _ ↦ False := by
  unfold receiveSeqChanged
  split
  · exact c.sends_sendAck
  · refine Outcome.ite (fun _ ↦ c.sends_sendAck) fun _ ↦ Outcome.ite (fun h ↦ ?_) fun _ ↦ .refl c
    have hnot : Timer.delayedAck ∉ c.timers := fun hs ↦ by
      rw [(c.isScheduled_iff _).mpr hs] at h
      cases h
    rw [scheduleTimeout_ok c hnot (by simp)]
    exact c.sends_cons_timer (.inr rfl)

theorem baseReceivedDataAck_onAck : SendsOnAck c c.baseReceivedDataAck := by
  have hsends := c.baseReceivedDataAck_sends
  unfold baseReceivedDataAck at hsends ⊢
  split
  · rename_i hall
    rw [if_pos hall] at hsends
    exact hsends
  · exact c.restartRexmitTimer_onAck

theorem openCongestionWindow_onAck : SendsOnAck c c.openCongestionWindow :=
  Outcome.ite (fun _ ↦ c.sends_setCwnd _) fun _ ↦ Outcome.ite (fun _ ↦ .inr (.inl rfl)) fun _ ↦
    c.sends_setCwnd _

theorem receivedDataAck_onAck : SendsOnAck c c.receivedDataAck := by
  unfold receivedDataAck
  split
  · exact c.sendData_onAck _ _
  · exact c.baseReceivedDataAck_onAck.bind fun c₁ h₁ ↦ h₁.thenOnAck (c₁.sendData_onAck _ _)
  · refine c.baseReceivedDataAck_onAck.bind fun c₁ h₁ ↦ ?_
    refine (h₁.thenOnAck c₁.openCongestionWindow_onAck).bind fun c₂ h₂ ↦ ?_
    exact h₂.thenOnAck (c₂.sendData_onAck _ _)
  · refine c.baseReceivedDataAck_onAck.bind fun c₁ h₁ ↦ ?_
    have hopen : SendsOnAck c₁ c₁.renoOpenCongestionWindow :=
      Outcome.ite (fun _ ↦ c₁.sends_setCwnd _) fun _ ↦ c₁.openCongestionWindow_onAck
    refine (h₁.thenOnAck hopen).bind fun c₂ h₂ ↦ ?_
    exact h₂.thenOnAck (c₂.sendData_onAck _ _)

theorem fastRetransmit_onAck (cwnd : TCPConnection → BitVec 32) :
    SendsOnAck c (c.fastRetransmit cwnd) := by
  refine c.retransmitOneSegment_onAck.bind fun c₁ h₁ ↦ ?_
  have h₂ : Sends c c₁.recalculateSlowStartThreshold :=
    h₁.trans c₁.sends_recalculateSlowStartThreshold
  exact (h₂.trans (sends_setCwnd _ _)).thenOnAck (restartRexmitTimer_onAck _)

theorem receivedDuplicateAck_onAck : SendsOnAck c c.receivedDuplicateAck := by
  unfold receivedDuplicateAck
  split
  · exact .refl c
  · exact .refl c
  · exact Outcome.ite (fun _ ↦ c.fastRetransmit_onAck _) fun _ ↦ .refl c
  · refine Outcome.ite (fun _ ↦ c.fastRetransmit_onAck _) fun _ ↦
      Outcome.ite (fun _ ↦ ?_) fun _ ↦ .refl c
    exact (c.sends_setCwnd _).thenOnAck (sendData_onAck _ _ _)

end Acks

/-- The receive side is unchanged, the 2MSL timer is not started, and everything output is a
segment. -/
structure SameReceive (c c' : TCPConnection) : Prop where
  core : c'.ackCore = c.ackCore
  noTimeWait : .the2MSL ∉ c.timers → .the2MSL ∉ c'.timers
  log : ∃ segs : List TCPSegment, c'.log = c.log ++ segs.map .toIP

section Frame

variable {c c' c'' : TCPConnection} {seg : TCPSegment}

protected theorem SameReceive.trans (h : SameReceive c c') (h' : SameReceive c' c'') :
    SameReceive c c'' := by
  obtain ⟨segs, hlog⟩ := h.log
  obtain ⟨segs', hlog'⟩ := h'.log
  refine ⟨h'.core.trans h.core, fun hno ↦ h'.noTimeWait (h.noTimeWait hno), segs ++ segs', ?_⟩
  rw [hlog', hlog, List.map_append, List.append_assoc]

theorem SameReceive.sndMss (h : SameReceive c c') : c'.sndMss = c.sndMss := congrArg (·.sndMss) h.core

theorem Sends.sameReceive (h : Sends c c') : SameReceive c c' :=
  ⟨h.ackCore, fun hno ↦ mt (h.timers .the2MSL (by simp) (by simp)).mp hno, h.log⟩

theorem SameReceive.of_core (hcore : c'.ackCore = c.ackCore) (htimers : c'.timers = c.timers)
    (hlog : c'.log = c.log) : SameReceive c c' :=
  ⟨hcore, fun hno ↦ htimers ▸ hno, [], by rw [hlog, List.map_nil, List.append_nil]⟩

theorem discardUpTo_sameReceive (c : TCPConnection) (seq : Seq) :
    Outcome (c.discardUpTo seq) (SameReceive c) (Fault.OfAck c.sndMss) := by
  rw [discardUpTo_eq]
  exact Outcome.check_bind (ofAck_assertion (by simp)) (.of_core rfl rfl rfl)

theorem advanceSndUna_sameReceive (c : TCPConnection) (seg : TCPSegment) :
    Outcome (c.advanceSndUna seg) (SameReceive c) (Fault.OfAck c.sndMss) := by
  have hmove : SameReceive c (c.moveSndUna seg) := .of_core rfl rfl rfl
  refine (discardUpTo_sameReceive (c.moveSndUna seg) _).bind fun c₁ h₁ ↦ ?_
  refine (hmove.trans h₁).trans ?_
  unfold updateSendWindow
  split <;> exact .of_core rfl rfl rfl

/-- An ACK of sent data does not stop the processing of the segment. -/
theorem processAckIfOpen_sameReceive (c : TCPConnection) (seg : TCPSegment)
    (hack : c.acksSentData seg = true) :
    Outcome (c.processAckIfOpen seg) (fun s ↦ s.1 = true ∧ SameReceive c s.2)
      (Fault.OfAck c.sndMss) := by
  have hdup : ∀ (d : TCPConnection) n, SameReceive d { d with dupacks := n } :=
    fun d n ↦ .of_core rfl rfl rfl
  refine Outcome.ite (fun _ ↦ ?_) fun _ ↦ ⟨rfl, .of_core rfl rfl rfl⟩
  refine Outcome.ite (fun _ ↦ Outcome.ite (fun _ ↦ ?_) fun _ ↦ ⟨rfl, hdup c 0⟩) fun hge ↦
    Outcome.ite (fun _ ↦ ?_) fun hle ↦ ?_
  · refine (receivedDuplicateAck_onAck _).bind fun c₁ h₁ ↦ ⟨rfl, ?_⟩
    exact (hdup c _).trans h₁.sameReceive
  · refine (c.advanceSndUna_sameReceive seg).bind fun c₁ h₁ ↦ ?_
    refine (c₁.receivedDataAck_onAck.mono (fun _ h ↦ h) fun _ he ↦ h₁.sndMss ▸ he).bind
      fun c₂ h₂ ↦ ⟨rfl, ?_⟩
    exact (h₁.trans h₂.sameReceive).trans (hdup c₂ 0)
  · simp [acksSentData, hge, hle] at hack

end Frame

/-! ## Before and after the FIN -/

/-- The states in which text is processed and no FIN of the peer has arrived. -/
def Gathers (s : TcpState) : Prop := s = .established ∨ s = .finWait1 ∨ s = .finWait2

/-- The pieces are arriving. `given` bytes had been handed to the application before the stream, and
`c₀` is the connection at its beginning. -/
structure Gathering (c : TCPConnection) (b : ℕ) (pieces : List ℕ) (given : ℕ)
    (c₀ : TCPConnection) (r : ℕ) (regions : List (Region ℕ)) : Prop where
  fsm : Gathers c.fsm
  rcvWnd : c.rcvWnd = c₀.rcvWnd
  sndMss : c.sndMss = c₀.sndMss
  assertsEnabled : c.assertsEnabled = c₀.assertsEnabled
  noTimeWait : .the2MSL ∉ c.timers
  finRcvd : c.finRcvd = false
  receiving : Receiving c r regions (b + pieces.sum)
  endpoints : EndpointsIn (cuts b pieces) regions
  cut : r ∈ cuts b pieces
  delivered : c.deliveredBytes = given + (r - b)
  noFin : .indication .peerClosed ∉ c.log

/-- The peer's FIN has been indicated once, and no data after it. -/
def FinLast (log : List Output) : Prop :=
  ∃ before after, log = before ++ .indication .peerClosed :: after ∧
    .indication .peerClosed ∉ before ∧ .indication .peerClosed ∉ after ∧ ∀ k, .data k ∉ after

/-- The FIN at position `f` has been consumed. -/
structure Finished (c : TCPConnection) (b f given : ℕ) : Prop where
  rcvNxt : c.rcvNxt = BitVec.ofNat 32 (f + 1)
  delivered : c.deliveredBytes = given + (f - b)
  finLast : FinLast c.log

/-- Nothing is received, and no data and no FIN is indicated. -/
structure Settled (c c' : TCPConnection) : Prop where
  rcvNxt : c'.rcvNxt = c.rcvNxt
  log : ∃ out, c'.log = c.log ++ out ∧ ∀ o ∈ out, (∃ seg, o = .toIP seg) ∨ o = .indication .closed

section Phases

variable {c c' c'' : TCPConnection} {b f given r : ℕ} {pieces : List ℕ} {c₀ : TCPConnection}
  {regions : List (Region ℕ)}

protected theorem Settled.refl (c : TCPConnection) : Settled c c := ⟨rfl, [], by simp, by simp⟩

protected theorem Settled.trans (h : Settled c c') (h' : Settled c' c'') : Settled c c'' := by
  obtain ⟨out, hlog, hout⟩ := h.log
  obtain ⟨out', hlog', hout'⟩ := h'.log
  refine ⟨h'.rcvNxt.trans h.rcvNxt, out ++ out', by rw [hlog', hlog, List.append_assoc], fun o ho ↦ ?_⟩
  rcases List.mem_append.mp ho with ho | ho
  · exact hout o ho
  · exact hout' o ho

theorem Sends.settled (h : Sends c c') : Settled c c' := by
  obtain ⟨segs, hlog⟩ := h.log
  refine ⟨h.rcvNxt, segs.map .toIP, hlog, fun o ho ↦ ?_⟩
  obtain ⟨seg, -, rfl⟩ := List.mem_map.mp ho
  exact .inl ⟨seg, rfl⟩

theorem settled_of_log (hrcv : c'.rcvNxt = c.rcvNxt) (hlog : c'.log = c.log) : Settled c c' :=
  ⟨hrcv, [], by rw [hlog, List.append_nil], by simp⟩

theorem Settled.deliveredBytes (h : Settled c c') : c'.deliveredBytes = c.deliveredBytes := by
  obtain ⟨out, hlog, hout⟩ := h.log
  have hzero : (out.map Output.bytes).sum = 0 := by
    clear hlog
    induction out with
    | nil => rfl
    | cons o out ih =>
      have hhead : o.bytes = 0 := by
        rcases hout o (by simp) with ⟨seg, rfl⟩ | rfl <;> rfl
      rw [List.map_cons, List.sum_cons, hhead, ih fun o ho ↦ hout o (by simp [ho])]
  rw [deliveredBytes_append hlog, hzero, Nat.add_zero]

theorem Finished.settled (h : Finished c b f given) (hs : Settled c c') : Finished c' b f given := by
  obtain ⟨before, after, heq, hbefore, hafter, hdata⟩ := h.finLast
  obtain ⟨out, hlog, hout⟩ := hs.log
  refine ⟨hs.rcvNxt.trans h.rcvNxt, hs.deliveredBytes.trans h.delivered, before, after ++ out, ?_,
    hbefore, fun hmem ↦ ?_, fun k hmem ↦ ?_⟩
  · rw [hlog, heq, List.append_assoc, List.cons_append]
  · rcases List.mem_append.mp hmem with hmem | hmem
    · exact hafter hmem
    · rcases hout _ hmem with ⟨seg, he⟩ | he <;> cases he
  · rcases List.mem_append.mp hmem with hmem | hmem
    · exact hdata k hmem
    · rcases hout _ hmem with ⟨seg, he⟩ | he <;> cases he

variable (h : Gathering c b pieces given c₀ r regions)

include h

theorem Gathering.sameReceive (hs : SameReceive c c') :
    Gathering c' b pieces given c₀ r regions := by
  obtain ⟨segs, hlog⟩ := hs.log
  have hfsm : c'.fsm = c.fsm := congrArg (·.fsm) hs.core
  have hwnd : c'.rcvWnd = c.rcvWnd := congrArg (·.rcvWnd) hs.core
  have hasserts : c'.assertsEnabled = c.assertsEnabled := congrArg (·.assertsEnabled) hs.core
  have hfin : c'.finRcvd = c.finRcvd := congrArg (·.finRcvd) hs.core
  have hnxt : c'.rcvNxt = c.rcvNxt := congrArg (·.rcvNxt) hs.core
  have hqueue : c'.receiveQueue = c.receiveQueue := congrArg (·.receiveQueue) hs.core
  refine ⟨hfsm ▸ h.fsm, hwnd.trans h.rcvWnd, hs.sndMss.trans h.sndMss,
    hasserts.trans h.assertsEnabled, hs.noTimeWait h.noTimeWait, hfin.trans h.finRcvd,
    ⟨hnxt.trans h.receiving.nxt, hqueue ▸ h.receiving.holds⟩,
    h.endpoints, h.cut, ?_, fun hmem ↦ ?_⟩
  · have hsettled : Settled c c' := by
      refine ⟨hnxt, segs.map .toIP, hlog, fun o ho ↦ ?_⟩
      obtain ⟨seg, -, rfl⟩ := List.mem_map.mp ho
      exact .inl ⟨seg, rfl⟩
    exact hsettled.deliveredBytes.trans h.delivered
  · rw [hlog, List.mem_append] at hmem
    rcases hmem with hmem | hmem
    · exact h.noFin hmem
    · simp at hmem

theorem Gathering.le : b ≤ r ∧ r ≤ b + pieces.sum := by
  obtain ⟨i, rfl⟩ := h.cut
  exact ⟨Nat.le_add_right _ _, cutAt_le b pieces i⟩

/-- The state changes between those in which text is processed. -/
theorem Gathering.enter {s : TcpState} (hs : Gathers s)
    (he : Entered (c.goto s) c') : Gathering c' b pieces given c₀ r regions := by
  have hfsm : c'.fsm = s := he.fsm
  have hwnd : c'.rcvWnd = c.rcvWnd := congrArg (·.rcvWnd) he.rest
  have hmss : c'.sndMss = c.sndMss := congrArg (·.sndMss) he.rest
  have hasserts : c'.assertsEnabled = c.assertsEnabled := congrArg (·.assertsEnabled) he.rest
  have hfin : c'.finRcvd = c.finRcvd := congrArg (·.finRcvd) he.rest
  have hnxt : c'.rcvNxt = c.rcvNxt := congrArg (·.rcvNxt) he.rest
  have hqueue : c'.receiveQueue = c.receiveQueue := congrArg (·.receiveQueue) he.rest
  have hlog : c'.log = c.log := he.log
  refine ⟨hfsm ▸ hs, hwnd.trans h.rcvWnd, hmss.trans h.sndMss, hasserts.trans h.assertsEnabled,
    mt (he.timers .the2MSL) h.noTimeWait, hfin.trans h.finRcvd,
    ⟨hnxt.trans h.receiving.nxt, hqueue ▸ h.receiving.holds⟩,
    h.endpoints, h.cut, ?_, hlog ▸ h.noFin⟩
  rw [← h.delivered]
  unfold deliveredBytes
  rw [hlog]

end Phases

/-! ## A piece arrives -/

/-- The connection after a segment without FIN. -/
def Gathered (b : ℕ) (pieces : List ℕ) (given : ℕ) (c₀ c : TCPConnection) : Prop :=
  ∃ r regions, Gathering c b pieces given c₀ r regions

section Piece

variable {c : TCPConnection} {seg : TCPSegment} {b given i r : ℕ} {pieces : List ℕ}
  {c₀ : TCPConnection} {regions : List (Region ℕ)}

variable (h : Gathering c b pieces given c₀ r regions)

include h

theorem Gathering.receiveAt {r' : ℕ} {regions' : List (Region ℕ)} (packets : List ℕ)
    (hholds : Holds (queueAt r' regions') r' regions' (b + pieces.sum))
    (hends : EndpointsIn (cuts b pieces) regions') (hcut : r' ∈ cuts b pieces) (hr : r ≤ r')
    (hpackets : packets.sum = r' - r) :
    Gathering ((c.receiveAt r' regions').forwardToApp packets) b pieces given c₀ r' regions' := by
  have hle := h.le
  refine ⟨h.fsm, h.rcvWnd, h.sndMss, h.assertsEnabled, h.noTimeWait, h.finRcvd, ⟨rfl, hholds⟩,
    hends, hcut, ?_, fun hmem ↦ ?_⟩
  · rw [deliveredBytes_receiveAt, h.delivered, hpackets]
    omega
  · rcases List.mem_append.mp hmem with hmem | hmem
    · exact h.noFin hmem
    · simp at hmem

theorem Gathering.receivesText :
    receivesText c.fsm = true := by
  rcases h.fsm with hs | hs | hs <;> rw [hs] <;> rfl

theorem Gathering.processSegmentText
    (hseg : IsPiece b pieces i seg) (hp : r ≤ cutAt b pieces i) (hroom : pieces.sum < 2 ^ 31)
    (hspace : c₀.assertsEnabled = true → b + pieces.sum < 2 ^ 32) :
    Outcome (c.processSegmentText seg) (Gathered b pieces given c₀) fun _ ↦ False := by
  have hle := h.le
  have htop : cutAt b pieces i + seg.payloadLength ≤ b + pieces.sum := by
    rw [hseg.next]
    exact cutAt_le b pieces _
  rcases Nat.eq_zero_or_pos seg.payloadLength with hzero | hlen
  · rw [processSegmentText_empty c hzero]
    exact ⟨r, regions, h⟩
  · refine (processSegmentText_spec h.receiving h.receivesText hseg.seq hlen hp htop (by omega)
      h.endpoints ⟨⟨i, rfl⟩, ⟨i + 1, hseg.next⟩⟩).mono ?_ fun e he ↦
        (hspace (h.assertsEnabled ▸ he.2.1)).not_ge he.2.2
    rintro c' ⟨r', regions', hholds, hr', -, hends, hcut, ⟨rfl, rfl⟩ | ⟨hlt, rfl⟩⟩
    · have hsame := h.receiveAt [] hholds hends h.cut le_rfl (by simp)
      rw [forwardToApp_nil] at hsame
      exact ⟨r', regions', hsame.sameReceive (sends_sendAck _).sameReceive⟩
    · have hnew := h.receiveAt [r' - r] hholds hends (hcut h.cut) hlt.le (by simp)
      rw [advanceOverStoredFin_eq hnew.finRcvd]
      exact ⟨r', regions', hnew⟩

/-- The event codes that keep the connection in a state in which text is processed. -/
def GathersOn (s : TcpState) (event : TCPEventCode) : Prop :=
  event = .ignore ∨ (s = .finWait1 ∧ event = .rcvAck) ∨ (s = .established ∧ event = .close)

theorem Gathering.processTextAndFin
    (hseg : IsPiece b pieces i seg) (hp : r ≤ cutAt b pieces i) (hroom : pieces.sum < 2 ^ 31)
    (hspace : c₀.assertsEnabled = true → b + pieces.sum < 2 ^ 32) (oldSndNxt : Seq) {event : TCPEventCode}
    (hevent : event = .ignore ∨ (c.fsm = .finWait1 ∧ event = .rcvAck)) :
    Outcome (c.processTextAndFin seg oldSndNxt event)
      (fun s ↦ Gathered b pieces given c₀ s.1 ∧ GathersOn s.1.fsm s.2) fun _ ↦ False := by
  have hframe : c.ReceivesOnly True (c.processSegmentText seg) :=
    c.processSegmentText_inert seg fun _ ↦ trivial
  refine ((h.processSegmentText hseg hp hroom hspace).and hframe).mono (fun _ h ↦ h)
    (fun _ h ↦ h.1) |>.bind ?_
  rintro c₁ ⟨⟨r₁, regions₁, h₁⟩, hinert⟩
  rw [processFin_of_not_finBit c₁ hseg.finBit]
  refine Outcome.bind (Q := Sends c₁) ?_ fun c₂ h₂ ↦ ?_
  · refine Outcome.ite (fun _ ↦ ?_) fun _ ↦ .refl c₁
    exact c₁.receiveSeqChanged_safe
  · refine ⟨⟨r₁, regions₁, h₁.sameReceive h₂.sameReceive⟩, ?_⟩
    have hfsm : c₂.fsm = c.fsm := h₂.fsm.trans hinert.fsm
    show GathersOn c₂.fsm (c₂.deferredClose oldSndNxt event)
    unfold deferredClose
    split <;> rename_i hcond
    · have hs := (h₁.sameReceive h₂.sameReceive).fsm
      rcases hs with hs | hs | hs
      · exact .inr (.inr ⟨hs, rfl⟩)
      · simp [hs] at hcond
      · simp [hs] at hcond
    · rcases hevent with rfl | ⟨hs, rfl⟩
      · exact .inl rfl
      · exact .inr (.inl ⟨hfsm.trans hs, rfl⟩)

end Piece

/-! ## The FIN arrives -/

section Fin

variable {c : TCPConnection} {seg : TCPSegment} {b finText given r : ℕ} {pieces : List ℕ}
  {c₀ : TCPConnection} {regions : List (Region ℕ)}

/-- Every byte in front of the FIN has been handed to the application. -/
structure AtFin (c : TCPConnection) (b f given : ℕ) : Prop where
  noTimeWait : .the2MSL ∉ c.timers
  rcvNxt : c.rcvNxt = BitVec.ofNat 32 f
  delivered : c.deliveredBytes = given + (f - b)
  noFin : .indication .peerClosed ∉ c.log

/-- The text of the segment with the FIN, which is the last to arrive. -/
theorem Gathering.processLastText (h : Gathering c b pieces given c₀ r regions)
    (hseg : IsFin b pieces finText seg) (hr : r = b + pieces.sum)
    (hroom : pieces.sum + finText < 2 ^ 31)
    (hspace : c₀.assertsEnabled = true → b + pieces.sum + finText < 2 ^ 32) :
    Outcome (c.processSegmentText seg) (AtFin · b (b + pieces.sum + finText) given)
      fun _ ↦ False := by
  have hle := h.le
  rcases Nat.eq_zero_or_pos finText with rfl | hlen
  · rw [processSegmentText_empty c hseg.text]
    exact ⟨h.noTimeWait, h.receiving.nxt.trans (by rw [hr, Nat.add_zero]),
      by rw [h.delivered, hr, Nat.add_zero],
      h.noFin⟩
  · have hreceiving : Receiving c r regions (b + pieces.sum + finText) :=
      ⟨h.receiving.nxt, h.receiving.holds.mono (by omega)⟩
    refine (processSegmentText_spec hreceiving h.receivesText (hseg.seq.trans (by rw [hr]))
      (hseg.text ▸ hlen) le_rfl (by rw [hseg.text, hr]) (by omega) (S := Set.univ)
      (fun _ _ ↦ ⟨trivial, trivial⟩) ⟨trivial, trivial⟩).mono ?_ fun e he ↦
        (hspace (h.assertsEnabled ▸ he.2.1)).not_ge he.2.2
    rintro c' ⟨r', regions', hholds, hr', harrived, -, -, htext⟩
    rw [hseg.text] at harrived
    -- the next position that has not arrived is that of the FIN
    have hend : r' = b + pieces.sum + finText := by
      refine le_antisymm hr' (not_lt.mp fun hlt ↦ hholds.not_arrived ((harrived r').mpr ?_))
      by_cases hr'r : r' < r
      · exact .inl (.inl hr'r)
      · exact .inr ⟨by omega, by omega⟩
    rcases htext with ⟨heq, -⟩ | ⟨hlt, rfl⟩
    · omega
    · have hfinRcvd : ((c.receiveAt r' regions').forwardToApp [r' - r]).finRcvd = false := h.finRcvd
      rw [advanceOverStoredFin_eq hfinRcvd]
      refine ⟨h.noTimeWait, congrArg (BitVec.ofNat 32) hend, ?_, fun hmem ↦ ?_⟩
      · rw [deliveredBytes_receiveAt, h.delivered, List.sum_singleton]
        omega
      · rcases List.mem_append.mp hmem with hmem | hmem
        · exact h.noFin hmem
        · simp at hmem

theorem AtFin.consumeFin {f : ℕ} (h : AtFin c b f given) : Finished (c.consumeFin c.rcvNxt) b f given := by
  have hlog : (c.consumeFin c.rcvNxt).log = c.log ++ [.indication .peerClosed] := rfl
  refine ⟨?_, ?_, c.log, [], by rw [hlog], h.noFin, by simp, by simp⟩
  · show c.rcvNxt + 1 = _
    rw [h.rcvNxt, ofNat_add_one]
  · rw [deliveredBytes_append hlog, h.delivered]
    rfl

theorem scheduleTimeout_settled {c : TCPConnection} (h : .the2MSL ∉ c.timers) :
    Outcome (c.scheduleTimeout .the2MSL) (Settled c) fun _ ↦ False := by
  rw [scheduleTimeout_ok c h (by simp)]
  exact settled_of_log rfl rfl

theorem enterTimeWait_settled {c : TCPConnection} (h : .the2MSL ∉ c.timers) :
    Outcome c.enterTimeWait (Settled c) fun _ ↦ False := by
  refine (scheduleTimeout_settled h).bind fun c₁ h₁ ↦ h₁.trans ?_
  exact ⟨rfl, [.indication .closed], rfl, by simp⟩

theorem processFin_finished {f : ℕ} (h : AtFin c b f given) (hbit : seg.finBit = true)
    (hseq : seg.sequenceNo + BitVec.ofNat 32 seg.payloadLength = BitVec.ofNat 32 f)
    (event : TCPEventCode) :
    Outcome (c.processFin seg event) (fun s ↦ Finished s.1 b f given) fun _ ↦ False := by
  have hconsume : c.receiveFin seg = c.consumeFin c.rcvNxt := by
    unfold receiveFin
    dsimp only
    rw [hseq, h.rcvNxt, if_pos (by simp)]
  have hfinished := h.consumeFin
  unfold processFin
  rw [hbit, if_pos rfl, hconsume]
  have hcancel : ∀ t, Settled (c.consumeFin c.rcvNxt) ((c.consumeFin c.rcvNxt).cancelEvent t) :=
    fun t ↦ settled_of_log rfl rfl
  have hno : ∀ t, .the2MSL ∉ ((c.consumeFin c.rcvNxt).cancelEvent t).timers :=
    fun t ht ↦ h.noTimeWait ((mem_cancelEvent _).mp ht).1
  dsimp only
  split
  · refine Outcome.ite (fun _ ↦ ?_) fun _ ↦ hfinished
    exact (enterTimeWait_settled (hno _)).bind fun c₁ h₁ ↦ hfinished.settled ((hcancel _).trans h₁)
  · exact (enterTimeWait_settled (hno _)).bind fun c₁ h₁ ↦ hfinished.settled ((hcancel _).trans h₁)
  · exact (scheduleTimeout_settled (hno _)).bind fun c₁ h₁ ↦
      hfinished.settled ((hcancel _).trans h₁)
  · exact hfinished

theorem Gathering.processLast (h : Gathering c b pieces given c₀ r regions)
    (hseg : IsFin b pieces finText seg) (hr : r = b + pieces.sum)
    (hroom : pieces.sum + finText < 2 ^ 31)
    (hspace : c₀.assertsEnabled = true → b + pieces.sum + finText < 2 ^ 32) (oldSndNxt : Seq)
    (event : TCPEventCode) :
    Outcome (c.processTextAndFin seg oldSndNxt event)
      (fun s ↦ Finished s.1 b (b + pieces.sum + finText) given ∧ Gathers s.1.fsm)
      fun _ ↦ False := by
  have hfin : seg.finBit = true ∨ c.finRcvd = true → True := fun _ ↦ trivial
  have hframe := c.processTextAndFin_inert seg oldSndNxt event hfin
  suffices hfinished : Outcome (c.processTextAndFin seg oldSndNxt event)
      (fun s ↦ Finished s.1 b (b + pieces.sum + finText) given) fun _ ↦ False from
    (hfinished.and hframe).mono (fun s hs ↦ ⟨hs.1, hs.2.1.fsm ▸ h.fsm⟩) fun _ he ↦ he.1
  refine (h.processLastText hseg hr hroom hspace).bind fun c₁ h₁ ↦ ?_
  refine (processFin_finished h₁ hseg.finBit ?_ event).bind ?_
  · rw [hseg.seq, hseg.text, ← BitVec.ofNat_add]
  rintro ⟨c₂, event'⟩ h₂
  refine Outcome.bind (Q := Settled c₂) ?_ fun c₃ h₃ ↦ Finished.settled h₂ h₃
  exact Outcome.ite (fun _ ↦ c₂.receiveSeqChanged_safe.post fun _ h ↦ h.settled) fun _ ↦ .refl c₂

end Fin

/-! ## Runs -/

section Step

variable {c : TCPConnection} {seg : TCPSegment} {b f finText given r : ℕ} {pieces : List ℕ}
  {c₀ : TCPConnection} {regions : List (Region ℕ)}

theorem Gathering.processFinAck (h : Gathering c b pieces given c₀ r regions) (seg : TCPSegment) :
    ∃ event, c.processFinAck seg .ignore = .ok (c, some event) ∧
      (event = .ignore ∨ (c.fsm = .finWait1 ∧ event = .rcvAck)) := by
  unfold TCPConnection.processFinAck
  rcases h.fsm with hs | hs | hs <;> rw [hs]
  · exact ⟨_, rfl, .inl rfl⟩
  · cases c.finAckRcvd
    · exact ⟨_, rfl, .inl rfl⟩
    · exact ⟨_, rfl, .inr ⟨rfl, rfl⟩⟩
  · exact ⟨_, rfl, .inl rfl⟩

/-- The ACK field of a segment, before its text and its FIN. -/
theorem Gathering.processAck (h : Gathering c b pieces given c₀ r regions)
    (hack : c.acksSentData seg = true) {Q : TCPConnection × TCPEventCode → Prop}
    (hrest : ∀ c₁ event, Gathering c₁ b pieces given c₀ r regions →
      (event = .ignore ∨ (c₁.fsm = .finWait1 ∧ event = .rcvAck)) →
      Outcome (c₁.processTextAndFin seg c.sndNxt event) Q fun _ ↦ False) :
    Outcome (c.processAck seg .ignore) Q (Fault.OfAck c₀.sndMss) := by
  rw [processAck_eq]
  refine ((c.processAckIfOpen_sameReceive seg hack).mono (fun _ h ↦ h)
    fun _ he ↦ h.sndMss ▸ he).bind ?_
  rintro ⟨ok, c₁⟩ ⟨rfl, hs⟩
  have h₁ := h.sameReceive hs
  obtain ⟨event, heq, hevent⟩ := h₁.processFinAck seg
  show Outcome (c₁.processFinAck seg .ignore >>= _) Q (Fault.OfAck c₀.sndMss)
  rw [heq]
  exact (hrest c₁ event h₁ hevent).mono (fun _ h ↦ h) fun _ he ↦ he.elim

theorem stateEntered_safe (h : c.fsm ≠ .listen ∧ c.fsm ≠ .established) :
    Outcome c.stateEntered (fun _ ↦ True) fun _ ↦ False := by
  unfold stateEntered
  split <;> rename_i hs
  case h_4 => exact absurd hs h.1
  case h_5 => exact absurd hs h.2
  all_goals trivial

theorem Gathers.nextState {s : TcpState} (h : Gathers s) (active : Bool) (event : TCPEventCode) :
    nextState active s event = s ∨
      (nextState active s event ≠ .listen ∧ nextState active s event ≠ .established) := by
  rcases h with rfl | rfl | rfl <;> cases event <;> simp [InetManet.TCP.nextState]

/-- From the states in which text is processed every transition succeeds. -/
theorem performStateTransition_gathers (hfsm : Gathers c.fsm) (event : TCPEventCode) :
    Outcome (c.performStateTransition event)
      (fun c' ↦ c' = c ∨ Entered (c.goto (nextState c.active c.fsm event)) c') fun _ ↦ False := by
  have hopen : (c.fsm != .closed) = true := by
    rcases hfsm with hs | hs | hs <;> rw [hs] <;> rfl
  have hsafe : Outcome (c.performStateTransition event) (fun _ ↦ True) fun _ ↦ False := by
    unfold TCPConnection.performStateTransition
    rw [hopen, check_true, ok_bind]
    exact Outcome.ite (fun _ ↦ trivial) fun _ ↦ Outcome.ite (fun _ ↦ trivial) fun hne ↦
      stateEntered_safe ((hfsm.nextState c.active event).resolve_left hne)
  exact ((c.performStateTransition_outcome event).and hsafe).mono
    (fun c' h ↦ h.1.imp (·.2) (·.2)) fun _ he ↦ he.2

theorem Gathering.performStateTransition (h : Gathering c b pieces given c₀ r regions)
    {event : TCPEventCode} (hevent : GathersOn c.fsm event) :
    Outcome (c.performStateTransition event) (Gathering · b pieces given c₀ r regions)
      fun _ ↦ False := by
  have hnext : Gathers (nextState c.active c.fsm event) := by
    rcases hevent with rfl | ⟨hs, rfl⟩ | ⟨hs, rfl⟩
    · rw [nextState_ignore]
      exact h.fsm
    · rw [hs]
      exact .inr (.inr rfl)
    · rw [hs]
      exact .inr (.inl rfl)
  refine (performStateTransition_gathers h.fsm event).post ?_
  rintro c' (rfl | he)
  · exact h
  · exact h.enter hnext he

theorem Finished.performStateTransition (h : Finished c b f given) (hfsm : Gathers c.fsm)
    (event : TCPEventCode) :
    Outcome (c.performStateTransition event) (Finished · b f given) fun _ ↦ False := by
  refine (performStateTransition_gathers hfsm event).post ?_
  rintro c' (rfl | he)
  · exact h
  · exact h.settled (settled_of_log (congrArg (·.rcvNxt) he.rest) he.log)

/-- A segment that is not acceptable is answered with an ACK. -/
theorem receive_unacceptable (hclosed : c.fsm ≠ .closed) (hrst : seg.rstBit = false)
    (hacc : c.isSegmentAcceptable seg = false) :
    Outcome (c.receive seg) (Sends c) fun _ ↦ False := by
  have heq : c.processSegment1stThru8th seg = .ok (c.sendAck, .ignore) := by
    unfold processSegment1stThru8th
    rw [hacc, hrst]
    rfl
  have hopen : (c.sendAck.fsm != .closed) = true := by
    rw [c.sends_sendAck.fsm]
    simpa using hclosed
  unfold receive
  rw [if_neg hclosed, heq]
  show Outcome (c.sendAck.performStateTransition .ignore) _ _
  unfold TCPConnection.performStateTransition
  rw [hopen, check_true, ok_bind, if_pos rfl]
  exact c.sends_sendAck

section

variable (h : Gathering c b pieces given c₀ r regions)

include h

theorem receive_acceptable
    (hseg : OfStream b pieces finText seg) (hacc : c.isSegmentAcceptable seg = true) :
    c.receive seg = c.processAck seg .ignore >>= fun s ↦ s.1.performStateTransition s.2 := by
  have hopen : c.fsm ≠ .closed ∧ c.fsm ≠ .synRcvd := by
    rcases h.fsm with hs | hs | hs <;> rw [hs] <;> decide
  have heq : c.processSegment1stThru8th seg = c.processAck seg .ignore := by
    unfold processSegment1stThru8th
    rw [hacc, hseg.rstBit, hseg.synBit, hseg.ackBit, beq_eq_false_iff_ne.mpr hopen.2]
    rfl
  unfold receive
  rw [if_neg hopen.1, heq]

/-- A segment in the window is acceptable if it does not start in front of `rcv_nxt`. -/
theorem Gathering.isSegmentAcceptable {p : ℕ} (hseq : seg.sequenceNo = BitVec.ofNat 32 p) (hp : b ≤ p)
    (hend : p + seg.payloadLength ≤ b + pieces.sum + finText)
    (hwnd : pieces.sum + finText ≤ c₀.rcvWnd.toNat) (hhalf : c₀.rcvWnd.toNat < 2 ^ 31) :
    c.isSegmentAcceptable seg = decide (r ≤ p) := by
  have hle := h.le
  have hend' : seg.sequenceNo + BitVec.ofNat 32 seg.payloadLength =
      BitVec.ofNat 32 (p + seg.payloadLength) := by rw [hseq, ← BitVec.ofNat_add]
  have hedge : c.rcvNxt + c.rcvWnd = BitVec.ofNat 32 (r + c₀.rcvWnd.toNat) := by
    rw [h.receiving.nxt, h.rcvWnd, BitVec.ofNat_add, BitVec.ofNat_toNat, BitVec.setWidth_eq]
  unfold TCPConnection.isSegmentAcceptable
  rw [hend', hedge, hseq, h.receiving.nxt, seqGE_ofNat (by omega) (by omega)]
  by_cases hrp : r ≤ p
  · rw [seqLE_ofNat (by omega) (by omega), decide_eq_true hrp, Bool.true_and, decide_eq_true_eq]
    omega
  · rw [decide_eq_false hrp, Bool.false_and]

theorem Gathering.receivePiece
    (hseg : OfStream b pieces finText seg) {i : ℕ} (hpiece : IsPiece b pieces i seg)
    (hack : c.acksSentData seg = true) (hwnd : pieces.sum + finText ≤ c₀.rcvWnd.toNat)
    (hhalf : c₀.rcvWnd.toNat < 2 ^ 31)
    (hspace : c₀.assertsEnabled = true → b + pieces.sum + finText < 2 ^ 32) :
    Outcome (c.receive seg) (Gathered b pieces given c₀) (Fault.OfAck c₀.sndMss) := by
  have hend : cutAt b pieces i + seg.payloadLength ≤ b + pieces.sum := by
    rw [hpiece.next]
    exact cutAt_le b pieces _
  have hacc := h.isSegmentAcceptable hpiece.seq (Nat.le_add_right _ _) (hend.trans (by omega)) hwnd
    hhalf
  by_cases hp : r ≤ cutAt b pieces i
  · rw [decide_eq_true hp] at hacc
    rw [receive_acceptable h hseg hacc]
    refine (h.processAck hack fun c₁ event h₁ hevent ↦ h₁.processTextAndFin hpiece hp (by omega)
      (fun ha ↦ (Nat.le_add_right _ _).trans_lt (hspace ha)) _ hevent).bind ?_
    rintro ⟨c₂, event⟩ ⟨⟨r₂, regions₂, h₂⟩, hevent⟩
    exact (h₂.performStateTransition hevent).mono (fun c₃ h₃ ↦ ⟨r₂, regions₂, h₃⟩)
      fun _ he ↦ he.elim
  · have hclosed : c.fsm ≠ .closed := by
      rcases h.fsm with hs | hs | hs <;> rw [hs] <;> decide
    rw [decide_eq_false hp] at hacc
    refine (receive_unacceptable hclosed hseg.rstBit hacc).mono (fun c' hs ↦ ?_) fun _ he ↦ he.elim
    exact ⟨r, regions, h.sameReceive hs.sameReceive⟩

/-- The segment with the FIN, when everything in front of it has arrived. -/
theorem Gathering.receiveFin (hseg : OfStream b pieces finText seg) (hfin : IsFin b pieces finText seg)
    (horder : c.finInOrder seg = true) (hack : c.acksSentData seg = true)
    (hwnd : pieces.sum + finText ≤ c₀.rcvWnd.toNat) (hhalf : c₀.rcvWnd.toNat < 2 ^ 31)
    (hspace : c₀.assertsEnabled = true → b + pieces.sum + finText < 2 ^ 32) :
    Outcome (c.receive seg) (Finished · b (b + pieces.sum + finText) given)
      (Fault.OfAck c₀.sndMss) := by
  have hle := h.le
  have hr : r = b + pieces.sum := by
    unfold finInOrder at horder
    rw [hfin.finBit, hfin.seq, h.receiving.nxt, seqGreater_ofNat (by omega) (by omega)] at horder
    simp at horder
    omega
  have hacc := h.isSegmentAcceptable hfin.seq (Nat.le_add_right _ _) (hfin.text ▸ le_rfl) hwnd hhalf
  rw [decide_eq_true hr.le] at hacc
  rw [receive_acceptable h hseg hacc]
  refine (h.processAck hack fun c₁ event h₁ _ ↦
    h₁.processLast hfin hr (by omega) hspace _ event).bind ?_
  rintro ⟨c₂, event⟩ ⟨h₂, hfsm⟩
  exact (h₂.performStateTransition hfsm event).mono (fun _ h₃ ↦ h₃) fun _ he ↦ he.elim

end

theorem OfStream.position (h : OfStream b pieces finText seg) :
    ∃ p, seg.sequenceNo = BitVec.ofNat 32 p ∧ b ≤ p ∧ p ≤ b + pieces.sum := by
  rcases h.part with ⟨i, hpiece⟩ | hfin
  · exact ⟨_, hpiece.seq, Nat.le_add_right _ _, cutAt_le b pieces i⟩
  · exact ⟨_, hfin.seq, Nat.le_add_right _ _, le_rfl⟩

/-- After the FIN every segment of the stream is a repetition. -/
theorem Finished.receive (h : Finished c b (b + pieces.sum + finText) given)
    (hseg : OfStream b pieces finText seg) (hroom : pieces.sum + finText < 2 ^ 31) :
    Outcome (c.receive seg) (Finished · b (b + pieces.sum + finText) given) fun _ ↦ False := by
  obtain ⟨p, hseq, hp, hp'⟩ := hseg.position
  by_cases hclosed : c.fsm = .closed
  · have hskip : c.receive seg = .ok c := if_pos hclosed
    rw [hskip]
    exact h
  · have hacc : c.isSegmentAcceptable seg = false := by
      unfold TCPConnection.isSegmentAcceptable
      rw [hseq, h.rcvNxt, seqGE_ofNat (by omega) (by omega), decide_eq_false (by omega),
        Bool.false_and]
    exact (receive_unacceptable hclosed hseg.rstBit hacc).post fun c' hs ↦ h.settled hs.settled

end Step

/-- The connection at the beginning of the stream: `b` is the next position, and what has already
arrived behind it are pieces. The whole stream lies in the window and, where the assertions are
checked, below `2 ^ 32`: `extractTo` compares the ends of a region as plain numbers. -/
structure StreamStart (c : TCPConnection) (b : ℕ) (pieces : List ℕ) (finText : ℕ) : Prop where
  fsm : c.fsm = .established
  held : ∃ regions, Receiving c b regions (b + pieces.sum) ∧ EndpointsIn (cuts b pieces) regions
  finRcvd : c.finRcvd = false
  noFin : .indication .peerClosed ∉ c.log
  noTimeWait : .the2MSL ∉ c.timers
  window : pieces.sum + finText ≤ c.rcvWnd.toNat
  half : c.rcvWnd.toNat < 2 ^ 31
  space : c.assertsEnabled = true → b + pieces.sum + finText < 2 ^ 32

/-- The ACK is for data that has been sent, and a FIN does not arrive behind a gap. -/
def ArrivesInTurn (c : TCPConnection) (seg : TCPSegment) : Prop :=
  c.acksSentData seg = true ∧ c.finInOrder seg = true

instance (c : TCPConnection) (seg : TCPSegment) : Decidable (ArrivesInTurn c seg) :=
  inferInstanceAs (Decidable (_ ∧ _))

section Run

variable {c : TCPConnection} {b finText given : ℕ} {pieces : List ℕ} {c₀ : TCPConnection}

theorem Finished.run (h : Finished c b (b + pieces.sum + finText) given) (order : List TCPSegment)
    (horder : ∀ seg ∈ order, OfStream b pieces finText seg) (hroom : pieces.sum + finText < 2 ^ 31) :
    Outcome (TransitionSystem.run TCPConnection.receive c order)
      (Finished · b (b + pieces.sum + finText) given) fun _ ↦ False := by
  induction order generalizing c with
  | nil => exact h
  | cons seg order ih =>
    rw [run_cons]
    exact (h.receive (horder seg (by simp)) hroom).bind fun c' h' ↦
      ih h' fun s hs ↦ horder s (List.mem_cons_of_mem _ hs)

theorem Gathered.run (h : Gathered b pieces given c₀ c) (order : List TCPSegment)
    (horder : ∀ seg ∈ order, OfStream b pieces finText seg)
    (hadmits : admits ArrivesInTurn TCPConnection.receive c order = true)
    (hwnd : pieces.sum + finText ≤ c₀.rcvWnd.toNat) (hhalf : c₀.rcvWnd.toNat < 2 ^ 31)
    (hspace : c₀.assertsEnabled = true → b + pieces.sum + finText < 2 ^ 32) :
    Outcome (TransitionSystem.run TCPConnection.receive c order)
      (fun c' ↦ Finished c' b (b + pieces.sum + finText) given ∨
        (Gathered b pieces given c₀ c' ∧ ∀ seg ∈ order, seg.finBit = false))
      (Fault.OfAck c₀.sndMss) := by
  induction order generalizing c with
  | nil => exact .inr ⟨h, by simp⟩
  | cons seg order ih =>
    obtain ⟨r, regions, hgathering⟩ := h
    have hseg := horder seg (by simp)
    have hrest : ∀ s ∈ order, OfStream b pieces finText s :=
      fun s hs ↦ horder s (List.mem_cons_of_mem _ hs)
    simp only [admits, Bool.and_eq_true, decide_eq_true_eq] at hadmits
    obtain ⟨⟨hack, hturn⟩, hadmits⟩ := hadmits
    rw [run_cons]
    rcases hseg.part with ⟨i, hpiece⟩ | hfin
    · have hstep := hgathering.receivePiece hseg hpiece hack hwnd hhalf hspace
      cases hreceive : c.receive seg with
      | error e => exact hstep.of_eq_error hreceive
      | ok c' =>
        rw [hreceive] at hadmits
        refine (ih (hstep.of_eq_ok hreceive) hrest hadmits).post fun c'' h'' ↦ ?_
        apply h''.imp_right
        rintro ⟨hg, hbits⟩
        exact ⟨hg, by simpa [hpiece.finBit] using hbits⟩
    · refine (hgathering.receiveFin hseg hfin hturn hack hwnd hhalf hspace).bind fun c' h' ↦ ?_
      exact (h'.run order hrest (by omega)).mono (fun c'' h'' ↦ .inl h'') fun _ he ↦ he.elim

end Run

/-- The states that the peer's FIN leads to. -/
def PeerHasClosed (s : TcpState) : Prop := s = .closeWait ∨ s = .closing ∨ s = .timeWait

/-- Every byte of the stream reaches the application, then the FIN does, and the states behind the
FIN are entered only when `rcv_nxt` has passed it, if no FIN arrives behind a gap. The receive side
does not fail. -/
theorem stream_delivered_before_fin (c : TCPConnection) (b : ℕ) (pieces : List ℕ) (finText : ℕ)
    (hstart : StreamStart c b pieces finText) (order : List TCPSegment)
    (horder : ∀ seg ∈ order, OfStream b pieces finText seg)
    (hadmits : admits ArrivesInTurn receive c order = true) :
    Outcome (run receive c order)
      (fun c' ↦
        (PeerHasClosed c'.fsm → c'.rcvNxt = BitVec.ofNat 32 (b + pieces.sum + finText + 1)) ∧
        ((∃ seg ∈ order, seg.finBit = true) →
          c'.rcvNxt = BitVec.ofNat 32 (b + pieces.sum + finText + 1) ∧
          c'.deliveredBytes = c.deliveredBytes + (pieces.sum + finText) ∧ FinLast c'.log))
      (Fault.OfAck c.sndMss) := by
  obtain ⟨regions, hreceiving, hends⟩ := hstart.held
  have hgathering : Gathering c b pieces c.deliveredBytes c b regions :=
    ⟨.inl hstart.fsm, rfl, rfl, rfl, hstart.noTimeWait, hstart.finRcvd, hreceiving, hends,
      ⟨0, by simp [cutAt]⟩, by simp,
      hstart.noFin⟩
  have hrun := Gathered.run ⟨b, regions, hgathering⟩ order horder hadmits hstart.window hstart.half
    hstart.space
  refine hrun.post fun c' h' ↦ ?_
  rcases h' with hfinished | ⟨⟨r, regions', hgathering'⟩, hbits⟩
  · have hbytes : b + pieces.sum + finText - b = pieces.sum + finText := by omega
    exact ⟨fun _ ↦ hfinished.rcvNxt, fun _ ↦ ⟨hfinished.rcvNxt, hbytes ▸ hfinished.delivered,
      hfinished.finLast⟩⟩
  · refine ⟨fun hs ↦ ?_, fun ⟨seg, hseg, hbit⟩ ↦ ?_⟩
    · rcases hgathering'.fsm with hs' | hs' | hs' <;> rw [hs'] at hs <;>
        rcases hs with hs | hs | hs <;> cases hs
    · rw [hbits seg hseg] at hbit
      cases hbit

/-- A segment of the peer of `established 100 500`. -/
def streamSegment (seq : Seq) (payloadLength : ℕ) (finBit : Bool) : TCPSegment :=
  { sequenceNo := seq, ackNo := 101, ackBit := true, window := 100, payloadLength, finBit }

theorem streamStart_established (pieces : List ℕ) (finText : ℕ) (h : pieces.sum + finText ≤ 100) :
    StreamStart (established 100 500) 501 pieces finText := by
  refine ⟨rfl, ⟨[], ⟨rfl, rfl, normal_nil, by simp, by simp⟩, by simp [EndpointsIn]⟩, rfl,
    by simp [established], by simp [established], h, by decide, fun _ ↦ by omega⟩

/-- The second of two pieces first, the FIN last, and two segments again. -/
def reorderedStream : List TCPSegment :=
  [streamSegment 511 10 false, streamSegment 501 10 false, streamSegment 511 10 false,
    streamSegment 521 5 true, streamSegment 521 5 true]

theorem ofStream_reorderedStream : ∀ seg ∈ reorderedStream, OfStream 501 [10, 10] 5 seg := by
  have hfirst : OfStream 501 [10, 10] 5 (streamSegment 501 10 false) :=
    ⟨.inl ⟨0, rfl, rfl, rfl⟩, rfl, rfl, rfl⟩
  have hsecond : OfStream 501 [10, 10] 5 (streamSegment 511 10 false) :=
    ⟨.inl ⟨1, rfl, rfl, rfl⟩, rfl, rfl, rfl⟩
  have hfin : OfStream 501 [10, 10] 5 (streamSegment 521 5 true) :=
    ⟨.inr ⟨rfl, rfl, rfl⟩, rfl, rfl, rfl⟩
  simp only [reorderedStream, List.forall_mem_cons]
  exact ⟨hsecond, hfirst, hsecond, hfin, hfin, by simp⟩

theorem stream_delivered_before_fin_on_reorderedStream :
    ∃ c', run receive (established 100 500) reorderedStream = .ok c' ∧ c'.fsm = .closeWait ∧
      c'.rcvNxt = BitVec.ofNat 32 527 ∧ c'.deliveredBytes = 25 ∧ FinLast c'.log := by
  have hrun := stream_delivered_before_fin (established 100 500) 501 [10, 10] 5
    (streamStart_established [10, 10] 5 (by decide)) reorderedStream ofStream_reorderedStream
    (by decide +kernel)
  have hfin : ∃ seg ∈ reorderedStream, seg.finBit = true := by decide
  exact ⟨_, rfl, rfl, (hrun.of_eq_ok rfl).2 hfin⟩

/-- A FIN behind the gap `[501, 511)`, and the piece that fills the gap. -/
def finFirst : List TCPSegment := [streamSegment 511 0 true, streamSegment 501 10 false]

/-- The FIN takes the connection to CLOSE_WAIT, where text is not processed. -/
theorem text_lost_after_early_fin :
    StreamStart (established 100 500) 501 [10] 0 ∧
      (∀ seg ∈ finFirst, OfStream 501 [10] 0 seg) ∧
      ∃ c', run receive (established 100 500) finFirst = .ok c' ∧ c'.fsm = .closeWait ∧
        c'.rcvNxt = 501 ∧ c'.deliveredBytes = 0 ∧ .indication .peerClosed ∉ c'.log := by
  refine ⟨streamStart_established [10] 0 (by decide), ?_, _, rfl, rfl, rfl, rfl, by decide⟩
  have hfin : OfStream 501 [10] 0 (streamSegment 511 0 true) :=
    ⟨.inr ⟨rfl, rfl, rfl⟩, rfl, rfl, rfl⟩
  have hpiece : OfStream 501 [10] 0 (streamSegment 501 10 false) :=
    ⟨.inl ⟨0, rfl, rfl, rfl⟩, rfl, rfl, rfl⟩
  simp only [finFirst, List.forall_mem_cons]
  exact ⟨hfin, hpiece, by simp⟩

end TCPConnection

end InetManet.TCP
