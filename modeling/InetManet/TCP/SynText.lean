import InetManet.TCP.ReceiveSpace

/-!
# Text in a SYN

A SYN takes one sequence number, so text in the same segment starts at the number after it. The
receive queue is told so, but the text is inserted at the number of the SYN itself. Of the two
counts of what is expected next, that of the connection stays at the first byte unless the SYN
acknowledges ours, and that of the queue is one too low.
-/

namespace InetManet.TCP

open TransitionSystem RegionList

/-- Segments of text, the first one at the given number and each at the end of the one before. -/
def InOrder : Seq → List TCPSegment → Prop
  | _, [] => True
  | seq, seg :: rest =>
    seg.sequenceNo = seq ∧ 0 < seg.payloadLength ∧
      InOrder (seq + BitVec.ofNat 32 seg.payloadLength) rest

namespace TCPConnection

variable {c c' : TCPConnection} {seg : TCPSegment} {srcAddr destAddr : ℕ} {isn : Seq}

/-- The text of several segments. -/
def receiveText (c : TCPConnection) : List TCPSegment → Except Fault TCPConnection
  | [] => .ok c
  | seg :: rest => c.processSegmentText seg >>= fun c ↦ c.receiveText rest

/-- After a SYN with text the number behind the text is expected, and with any text that follows
in order exactly the bytes behind the SYN are handed to the application. -/
structure DeliversTextOfSyn (c c' : TCPConnection) (irs : Seq) (len : ℕ) : Prop where
  nxt : c'.rcvNxt = irs + 1 + BitVec.ofNat 32 len
  delivered : ∀ segs, segs ≠ [] → InOrder (irs + 1 + BitVec.ofNat 32 len) segs →
    ∃ c'', { c' with fsm := .established }.receiveText segs = .ok c'' ∧
      c''.deliveredBytes = c.deliveredBytes + len + (segs.map TCPSegment.payloadLength).sum

section

variable (c : TCPConnection)

theorem scheduleTimeout_rcvNxt (t : Timer) :
    Outcome (c.scheduleTimeout t) (·.rcvNxt = c.rcvNxt) fun _ ↦ True :=
  Outcome.ite (fun _ ↦ trivial) fun _ ↦ Outcome.ite (fun _ ↦ trivial) fun _ ↦ rfl

theorem startSynRexmitTimer_rcvNxt :
    Outcome c.startSynRexmitTimer (·.rcvNxt = c.rcvNxt) fun _ ↦ True := by
  apply (scheduleTimeout_rcvNxt _ _).post
  intro c' h
  rw [h]
  split <;> rfl

theorem startConnEstabTimer_rcvNxt :
    Outcome c.startConnEstabTimer (·.rcvNxt = c.rcvNxt) fun _ ↦ True :=
  Outcome.ite (fun _ ↦ scheduleTimeout_rcvNxt c _) fun _ ↦ rfl

theorem queueTextOfSyn_rcvNxt (seg : TCPSegment) :
    (c.queueTextOfSyn seg).rcvNxt = c.rcvNxt := by
  unfold queueTextOfSyn
  split <;> rfl

theorem processSegmentInListen_rcvNxt (seg : TCPSegment) (srcAddr destAddr : ℕ) (isn : Seq) :
    Outcome (c.processSegmentInListen seg srcAddr destAddr isn)
      (fun r ↦ r.2 = .rcvSyn → r.1.rcvNxt = seg.sequenceNo + 1) fun _ ↦ True := by
  refine Outcome.ite (fun _ h ↦ by cases h) fun _ ↦ ?_
  refine Outcome.ite (fun _ h ↦ by cases h) fun _ ↦ ?_
  refine Outcome.ite (fun _ ↦ ?_) fun _ h ↦ by cases h
  apply (startSynRexmitTimer_rcvNxt _).bind
  intro c₁ h₁
  apply (startConnEstabTimer_rcvNxt c₁).bind
  intro c₂ h₂ _
  exact (queueTextOfSyn_rcvNxt c₂ seg).trans (h₂.trans h₁)

theorem acknowledgeSyn_receives (seg : TCPSegment) :
    Outcome (c.acknowledgeSyn seg)
      (fun c' ↦ c'.rcvNxt = c.rcvNxt ∧ c'.receiveQueue = c.receiveQueue) fun _ ↦ True := by
  refine Outcome.ite (fun _ ↦ ?_) fun _ ↦ ⟨rfl, rfl⟩
  unfold TCPConnection.discardUpTo TCPVirtualDataSendQueue.discardUpTo
  apply Outcome.bind (Q := fun c' ↦ c'.rcvNxt = c.rcvNxt ∧ c'.receiveQueue = c.receiveQueue)
  · apply Outcome.bind (Q := fun _ ↦ True)
    · exact Outcome.check_bind trivial trivial
    · exact fun _ _ ↦ ⟨rfl, rfl⟩
  · exact fun _ h ↦ h

end

theorem insertBytes_of_empty {q : TCPVirtualDataRcvQueue} (hempty : q.regionList = [])
    (hnxt : q.rcvNxt = seg.sequenceNo + 1) :
    (q.insertBytesFromSegment seg).rcvNxt =
      seg.sequenceNo + BitVec.ofNat 32 seg.payloadLength := by
  have hge : seqGE q.rcvNxt seg.sequenceNo = true := by
    have hone : seg.sequenceNo + 1 - seg.sequenceNo = 1 := by ring
    rw [hnxt, seqGE, hone]
    decide
  unfold TCPVirtualDataRcvQueue.insertBytesFromSegment TCPVirtualDataRcvQueue.merge
  rw [hempty]
  exact if_pos hge

/-- In SYN_SENT the text of a SYN is not counted, and that of a SYN+ACK is with one byte less. -/
theorem processSegmentInSynSent_rcvNxt (hempty : c.receiveQueue.regionList = [])
    (hlen : 0 < seg.payloadLength) :
    Outcome (c.processSegmentInSynSent seg srcAddr destAddr)
      (fun r ↦ (r.2 = .rcvSyn → r.1.rcvNxt = seg.sequenceNo + 1) ∧
        (r.2 = .rcvSynAck → r.1.rcvNxt = seg.sequenceNo + BitVec.ofNat 32 seg.payloadLength))
      fun _ ↦ True := by
  refine Outcome.ite (fun _ ↦ ⟨nofun, nofun⟩) fun _ ↦ ?_
  refine Outcome.ite (fun _ ↦ ?_) fun _ ↦ ?_
  · split <;> exact ⟨nofun, nofun⟩
  refine Outcome.ite (fun _ ↦ ?_) fun _ ↦ ⟨nofun, nofun⟩
  apply (acknowledgeSyn_receives _ seg).bind
  rintro c₁ ⟨hnxt, hqueue⟩
  refine Outcome.ite (fun _ ↦ ?_) fun _ ↦ ?_
  · have hsends := (algEstablished_sends (c := (c₁.updateSockPair destAddr srcAddr
      seg.srcPort).acceptTextOfSynAck seg) true).mono (fun _ h ↦ h) fun _ _ ↦ trivial
    apply hsends.bind
    intro c₂ h₂
    refine ⟨nofun, fun _ ↦ ?_⟩
    change c₂.rcvNxt = _
    rw [h₂.rcvNxt, acceptTextOfSynAck, if_pos hlen]
    apply insertBytes_of_empty
    · change c₁.receiveQueue.regionList = []
      rw [hqueue]
      exact hempty
    · change c₁.receiveQueue.rcvNxt = _
      rw [hqueue]
      rfl
  · apply (startSynRexmitTimer_rcvNxt _).bind
    intro c₂ h₂
    exact ⟨fun _ ↦ (queueTextOfSyn_rcvNxt c₂ seg).trans (h₂.trans hnxt), nofun⟩

/-- No text in a SYN is delivered as it should be. -/
theorem not_deliversTextOfSyn (hlen : 0 < seg.payloadLength) (hlen' : seg.payloadLength < 2 ^ 32)
    (hsyn : c.processSegmentInListen seg srcAddr destAddr isn = .ok (c', .rcvSyn) ∨
      c.receiveQueue.regionList = [] ∧
        (c.processSegmentInSynSent seg srcAddr destAddr = .ok (c', .rcvSyn) ∨
          c.processSegmentInSynSent seg srcAddr destAddr = .ok (c', .rcvSynAck))) :
    ¬ DeliversTextOfSyn c c' seg.sequenceNo seg.payloadLength := by
  have hstays : seg.sequenceNo + 1 ≠ seg.sequenceNo + 1 + BitVec.ofNat 32 seg.payloadLength := by
    intro h
    have hzero := congrArg BitVec.toNat (left_eq_add.mp h)
    rw [BitVec.toNat_ofNat, Nat.mod_eq_of_lt hlen'] at hzero
    exact hlen.ne' hzero
  have hlow : seg.sequenceNo + BitVec.ofNat 32 seg.payloadLength ≠
      seg.sequenceNo + 1 + BitVec.ofNat 32 seg.payloadLength := by
    rw [add_right_comm]
    intro h
    exact absurd (left_eq_add.mp h) (by decide)
  intro hdelivers
  have hnxt := hdelivers.nxt
  rcases hsyn with hlisten | ⟨hempty, hsent | hsent⟩
  · have h := (processSegmentInListen_rcvNxt c seg srcAddr destAddr isn).of_eq_ok hlisten rfl
    exact hstays (h.symm.trans hnxt)
  · have h := (processSegmentInSynSent_rcvNxt hempty hlen).of_eq_ok hsent
    exact hstays ((h.1 rfl).symm.trans hnxt)
  · have h := (processSegmentInSynSent_rcvNxt hempty hlen).of_eq_ok hsent
    exact hlow ((h.2 rfl).symm.trans hnxt)

/-- A connection that listens on port 80. -/
def listening : TCPConnection where
  fsm := .listen
  localPort := 80
  rcvWnd := 14336

/-- A SYN with five bytes of text. -/
def synWithText : TCPSegment where
  srcPort := 1000
  destPort := 80
  sequenceNo := 500
  synBit := true
  window := 14336
  payloadLength := 5

theorem not_deliversTextOfSyn_listening :
    ∃ c', listening.processSegmentInListen synWithText 1 2 7 = .ok (c', .rcvSyn) ∧
      ¬ DeliversTextOfSyn listening c' 500 5 :=
  ⟨_, rfl, not_deliversTextOfSyn (by decide : 0 < synWithText.payloadLength) (by decide)
    (.inl (rfl : listening.processSegmentInListen synWithText 1 2 7 = _))⟩

/-- In LISTEN number 501 is expected next, and not 506. -/
theorem text_of_syn_not_counted :
    ¬ ∀ c', listening.processSegmentInListen synWithText 1 2 7 = .ok (c', .rcvSyn) →
      DeliversTextOfSyn listening c' 500 5 := by
  intro h
  have hnxt := (h _ rfl).nxt
  revert hnxt
  decide

end TCPConnection

end InetManet.TCP
