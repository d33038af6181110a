import InetManet.TCP.SendSequence

/-!
# Nothing follows the FIN

CLOSE fixes `snd_fin_seq` at the end of the send queue. Everything that is sent from then on lies
below it and every FIN stands there, as long as two things do not happen. While the FIN waits for
data the connection stays in its state, so a SEND is still accepted and its bytes are put behind
the FIN. And the retransmission of one segment takes as many bytes as are outstanding, which may
be more than the queue holds: the number of the FIN is then sent as a byte of data, if the
assertion that would prevent it is compiled out.

A passive connection that goes back to LISTEN starts over with a new stream; its steps from there
are not followed.
-/

namespace InetManet.TCP

open TransitionSystem

/-! ## Bytes in the queue -/

namespace TCPVirtualDataSendQueue

variable {q : TCPVirtualDataSendQueue} {fromSeq : Seq} {n m : ℕ}

theorem seqLess_of_lt_available (h : n < q.getBytesAvailable fromSeq) :
    seqLess (fromSeq + BitVec.ofNat 32 n) q.endSeq = true := by
  unfold getBytesAvailable getBufferEndSeq at h
  split at h <;> rename_i hless
  · simp only [seqLess, Bool.and_eq_true, bne_iff_ne, decide_eq_true_eq] at hless ⊢
    obtain ⟨hne, hlt⟩ := hless
    constructor <;> bv_omega
  · omega

theorem available_add (h : n ≤ q.getBytesAvailable fromSeq) :
    q.getBytesAvailable fromSeq - n ≤ q.getBytesAvailable (fromSeq + BitVec.ofNat 32 n) := by
  rcases Nat.eq_or_lt_of_le h with heq | hlt
  · omega
  · have hless := seqLess_of_lt_available hlt
    unfold getBytesAvailable getBufferEndSeq at hlt ⊢
    rw [if_pos hless]
    split at hlt <;> rename_i hfrom
    · rw [if_pos hfrom]
      simp only [seqLess, Bool.and_eq_true, bne_iff_ne, decide_eq_true_eq] at hfrom
      obtain ⟨_, hroom⟩ := hfrom
      bv_omega
    · omega

theorem available_le (hend : fromSeq + BitVec.ofNat 32 n = q.endSeq) :
    q.getBytesAvailable fromSeq ≤ n := by
  unfold getBytesAvailable getBufferEndSeq
  split
  · bv_omega
  · exact Nat.zero_le n

end TCPVirtualDataSendQueue

namespace TCPConnection

open TCPVirtualDataSendQueue

/-! ## The end of the stream -/

/-- The text of the segment lies below `fin`, and its FIN stands there. -/
structure EndsAt (fin : Seq) (seg : TCPSegment) : Prop where
  text : ∀ j < seg.payloadLength, seqLess (seg.sequenceNo + BitVec.ofNat 32 j) fin = true
  finBit : seg.finBit = true → seg.sequenceNo + BitVec.ofNat 32 seg.payloadLength = fin

/-- The FIN at `fin` is the end of the stream: no byte is queued there or behind it, and what has
been output after the first `k` entries of the log keeps below it. -/
structure StreamEnds (fin : Seq) (k : ℕ) (c : TCPConnection) : Prop where
  sendFinFlag : c.sendFinFlag = true
  sndFinSeq : c.sndFinSeq = fin
  endSeq : c.sendQueue.endSeq = fin
  log : ∀ seg, .toIP seg ∈ c.log.drop k → EndsAt fin seg

/-- The same in state `s`. -/
structure PastClose (fin : Seq) (k : ℕ) (s : TcpState) (c : TCPConnection) : Prop
    extends StreamEnds fin k c where
  fsm : c.fsm = s

/-- The outcome of a computation after CLOSE. -/
abbrev Closes (fin : Seq) (k : ℕ) (s : TcpState) (x : Except Fault TCPConnection) : Prop :=
  Outcome x (PastClose fin k s) fun _ ↦ True

/-- The same for the functions that also say whether they have sent anything. -/
abbrev Closes₂ (fin : Seq) (k : ℕ) (s : TcpState) (x : Except Fault (Bool × TCPConnection)) :
    Prop :=
  Outcome x (fun r ↦ PastClose fin k s r.2) fun _ ↦ True

/-- The same for an action, which also has an event code. -/
abbrev ClosesThen (fin : Seq) (k : ℕ) (s : TcpState)
    (x : Except Fault (TCPConnection × TCPEventCode)) : Prop :=
  Outcome x (fun r ↦ PastClose fin k s r.1) fun _ ↦ True

theorem endsAt_of_empty {fin : Seq} {seg : TCPSegment} (htext : seg.payloadLength = 0)
    (hbit : seg.finBit = false) : EndsAt fin seg := by
  constructor
  · intro j hj
    omega
  · intro h
    rw [hbit] at h
    cases h

namespace PastClose

variable {fin : Seq} {k : ℕ} {s : TcpState} {c c' : TCPConnection}

section

variable (h : PastClose fin k s c)

include h

theorem congr (hflag : c'.sendFinFlag = c.sendFinFlag)
    (hseq : c'.sndFinSeq = c.sndFinSeq) (hend : c'.sendQueue.endSeq = c.sendQueue.endSeq)
    (hlog : c'.log = c.log) (hfsm : c'.fsm = c.fsm) : PastClose fin k s c' := by
  refine ⟨⟨hflag.trans h.sendFinFlag, hseq.trans h.sndFinSeq, hend.trans h.endSeq, ?_⟩,
    hfsm.trans h.fsm⟩
  rw [hlog]
  exact h.log

theorem emits {out : List Output} (hout : ∀ seg, .toIP seg ∈ out → EndsAt fin seg) :
    PastClose fin k s { c with log := c.log ++ out } := by
  refine ⟨⟨h.sendFinFlag, h.sndFinSeq, h.endSeq, ?_⟩, h.fsm⟩
  intro seg hseg
  have hmem : .toIP seg ∈ (c.log ++ out).drop k := hseg
  rw [List.drop_append, List.mem_append] at hmem
  cases hmem with
  | inl hold => exact h.log seg hold
  | inr hnew => exact hout seg (List.mem_of_mem_drop hnew)

theorem sendToIP {seg : TCPSegment} (hseg : EndsAt fin seg) :
    PastClose fin k s (c.sendToIP seg) := by
  apply h.emits
  intro seg' hmem
  rw [List.mem_singleton] at hmem
  rw [Output.toIP.inj hmem]
  exact ⟨hseg.text, hseg.finBit⟩

theorem sendIndicationToApp (code : TcpStatusInd) :
    PastClose fin k s (c.sendIndicationToApp code) := by
  apply h.emits
  intro seg hmem
  rw [List.mem_singleton] at hmem
  cases hmem

theorem forwardToApp (packets : List ℕ) :
    PastClose fin k s (c.forwardToApp packets) := by
  apply h.emits
  intro seg hmem
  simp at hmem

theorem sendRst (seq : Seq) : PastClose fin k s (c.sendRst seq) := by
  apply h.emits
  intro seg hmem
  rw [List.mem_singleton] at hmem
  rw [Output.toIP.inj hmem]
  exact endsAt_of_empty rfl rfl

theorem cancelEvent (t : Timer) : PastClose fin k s (c.cancelEvent t) :=
  h.congr rfl rfl rfl rfl rfl

theorem scheduleTimeout (t : Timer) :
    Closes fin k s (c.scheduleTimeout t) :=
  Outcome.ite (fun _ ↦ trivial) fun _ ↦ Outcome.ite (fun _ ↦ trivial) fun _ ↦
    h.congr rfl rfl rfl rfl rfl

theorem ackSent : PastClose fin k s c.ackSent := by
  unfold TCPConnection.ackSent
  split
  · exact h
  · split
    · exact h.cancelEvent _
    · exact h

theorem sendAck : PastClose fin k s c.sendAck :=
  (h.sendToIP (endsAt_of_empty rfl rfl)).ackSent

/-! ## Sending -/

theorem startRexmitTimer : Closes fin k s c.startRexmitTimer := by
  have hcount : PastClose fin k s { c with rexmitCount := 0 } := h.congr rfl rfl rfl rfl rfl
  exact hcount.scheduleTimeout _

theorem cancelRexmit :
    PastClose fin k s (if c.isScheduled .rexmit then c.cancelEvent .rexmit else c) := by
  split
  · exact h.cancelEvent _
  · exact h

theorem dataSent : Closes fin k s c.dataSent := by
  unfold TCPConnection.dataSent
  split
  · exact h.cancelRexmit.scheduleTimeout _
  · exact Outcome.ite (fun _ ↦ h.startRexmitTimer) fun _ ↦ h

theorem rememberSent : Closes fin k s c.rememberSent := by
  have hmax : PastClose fin k s { c with sndMax := c.sndNxt } := h.congr rfl rfl rfl rfl rfl
  exact hmax.ackSent.dataSent

theorem afterSegment {bytes : ℕ} (hbytes : bytes ≤ c.sendQueue.getBytesAvailable c.sndNxt) :
    PastClose fin k s (c.afterSegment bytes) := by
  have hnxt : ∀ nxt, PastClose fin k s { c with sndNxt := nxt } :=
    fun nxt ↦ h.congr rfl rfl rfl rfl rfl
  apply (hnxt _).sendToIP
  constructor
  · intro j hj
    rw [← h.endSeq]
    exact seqLess_of_lt_available (lt_of_lt_of_le hj hbytes)
  · intro hrides
    have hrides' : (c.sendFinFlag && c.sndNxt + BitVec.ofNat 32 bytes == c.sndFinSeq) = true :=
      hrides
    rw [Bool.and_eq_true, beq_iff_eq] at hrides'
    exact hrides'.2.trans h.sndFinSeq

theorem available_afterSegment {bytes n : ℕ} (hbytes : bytes ≤ c.sendQueue.getBytesAvailable c.sndNxt)
    (hn : n ≤ c.sendQueue.getBytesAvailable c.sndNxt) :
    n - bytes ≤ (c.afterSegment bytes).sendQueue.getBytesAvailable (c.afterSegment bytes).sndNxt := by
  cases hrides : c.finRides bytes with
  | true =>
    -- the segment takes all that is left
    have hend : c.sndNxt + BitVec.ofNat 32 bytes = c.sendQueue.endSeq := by
      simp only [finRides, Bool.and_eq_true, beq_iff_eq] at hrides
      rw [hrides.2, h.sndFinSeq, h.endSeq]
    have hall := available_le hend
    omega
  | false =>
    have hnxt : (c.afterSegment bytes).sndNxt = c.sndNxt + BitVec.ofNat 32 bytes := by
      show (if c.finRides bytes then _ else _) = _
      rw [hrides]
      rfl
    have hrest := available_add hbytes
    rw [hnxt]
    show n - bytes ≤ c.sendQueue.getBytesAvailable _
    omega

end

theorem sendSegment_outcome (c : TCPConnection) (bytes : ℕ) :
    Outcome (c.sendSegment bytes) (· = c.afterSegment bytes) fun _ ↦ True := by
  rw [sendSegment_eq]
  exact Outcome.check_bind trivial rfl

theorem sendSegment (h : PastClose fin k s c) {bytes : ℕ}
    (hbytes : bytes ≤ c.sendQueue.getBytesAvailable c.sndNxt) :
    Closes fin k s (c.sendSegment bytes) := by
  apply (sendSegment_outcome c bytes).post
  intro c' hc'
  rw [hc']
  exact h.afterSegment hbytes

theorem sendWholeSegments (rounds : ℕ) {c : TCPConnection} (h : PastClose fin k s c)
    {bytesToSend : ℕ} (hbytes : bytesToSend ≤ c.sendQueue.getBytesAvailable c.sndNxt) :
    Closes fin k s (TCPConnection.sendWholeSegments rounds c bytesToSend) := by
  induction rounds generalizing c bytesToSend with
  | zero => exact trivial
  | succ rounds ih =>
    apply Outcome.ite
    · intro hmss
      apply (sendSegment_outcome c _).bind
      intro c' hc'
      rw [hc']
      have hle := hmss.trans hbytes
      exact ih (h.afterSegment hle) (h.available_afterSegment hle hbytes)
    · exact fun _ ↦ h

section

variable (h : PastClose fin k s c)

include h

theorem sendFromMax : PastClose fin k s c.sendFromMax :=
  h.congr rfl rfl rfl rfl rfl

theorem sendFromUna : PastClose fin k s c.sendFromUna :=
  h.congr rfl rfl rfl rfl rfl

theorem sendSegments {bytesToSend : ℕ} (hbytes : bytesToSend ≤ c.sendQueue.getBytesAvailable c.sndNxt) :
    Closes fin k s (c.sendSegments bytesToSend) :=
  Outcome.ite (fun _ ↦ h.sendSegment hbytes) fun _ ↦ h.sendWholeSegments _ hbytes

theorem sendData (fullSegmentsOnly : Bool) (congestionWindow : ℤ) :
    Closes₂ fin k s (c.sendData fullSegmentsOnly congestionWindow) := by
  have hmax := h.sendFromMax
  unfold TCPConnection.sendData
  refine Outcome.ite (fun _ ↦ hmax) fun _ ↦ Outcome.ite (fun _ ↦ hmax) fun _ ↦
    Outcome.ite (fun _ ↦ hmax) fun _ ↦ Outcome.check_bind trivial ?_
  apply (hmax.sendSegments (min_le_right _ _)).bind
  intro c₁ h₁
  apply h₁.rememberSent.bind
  exact fun c₂ h₂ ↦ h₂

theorem sendProbe : Closes₂ fin k s c.sendProbe := by
  have hmax := h.sendFromMax
  apply Outcome.ite
  · exact fun _ ↦ hmax
  · intro hsome
    apply (hmax.sendSegment (Nat.one_le_iff_ne_zero.mpr hsome)).bind
    intro c₁ h₁
    apply h₁.rememberSent.bind
    exact fun c₂ h₂ ↦ h₂

end

theorem retransmitLoop (rounds : ℕ) {c : TCPConnection} (h : PastClose fin k s c)
    (bytesToSend : ℕ) : Closes fin k s (TCPConnection.retransmitLoop rounds c bytesToSend) := by
  induction rounds generalizing c bytesToSend with
  | zero => exact trivial
  | succ rounds ih =>
    apply Outcome.ite
    · intro _
      apply (h.sendSegment (min_le_right _ _)).bind
      intro c₁ h₁
      exact Outcome.ite (fun _ ↦ h₁) fun _ ↦ ih h₁ _
    · exact fun _ ↦ h

theorem retransmitData (h : PastClose fin k s c) : Closes fin k s c.retransmitData :=
  Outcome.check_bind trivial (h.sendFromUna.retransmitLoop _ _)

end PastClose

/-- The retransmission of one segment takes more than the queue holds from `snd_una` on. -/
def overrunsQueue (c : TCPConnection) : Bool :=
  decide (c.sendQueue.getBytesAvailable c.sndUna <
    min c.sndMss.toNat (c.sndMax - c.sndUna).toNat)

namespace PastClose

variable {fin : Seq} {k : ℕ} {s : TcpState} {c c' : TCPConnection}

variable (h : PastClose fin k s c)

include h

theorem retransmitOneSegment (hfits : c.overrunsQueue = false) :
    Closes fin k s c.retransmitOneSegment := by
  apply Outcome.check_bind trivial
  apply (h.sendFromUna.sendSegment (not_lt.mp (of_decide_eq_false hfits))).bind
  exact fun c₁ h₁ ↦ h₁.ackSent

/-! ## Hooks -/

theorem algSendData : Closes₂ fin k s c.algSendData := h.sendData _ _

theorem sendCommandInvoked : Closes fin k s c.sendCommandInvoked := by
  unfold TCPConnection.sendCommandInvoked
  split
  · exact Outcome.map (h.sendData _ _)
  · exact Outcome.map h.algSendData

/-- A passive connection does not send when it is established. -/
theorem algEstablished :
    Outcome (c.algEstablished false)
      (fun c' ↦ PastClose fin k s c' ∧ ∃ cwnd, c' = { c with sndCwnd := cwnd }) fun _ ↦ True := by
  unfold TCPConnection.algEstablished
  split
  · exact ⟨h, c.sndCwnd, rfl⟩
  · exact ⟨h.congr rfl rfl rfl rfl rfl, c.sndMss, rfl⟩

theorem receiveSeqChanged : Closes fin k s c.receiveSeqChanged := by
  unfold TCPConnection.receiveSeqChanged
  split
  · exact h.sendAck
  · exact Outcome.ite (fun _ ↦ h.sendAck) fun _ ↦
      Outcome.ite (fun _ ↦ h.scheduleTimeout _) fun _ ↦ h

theorem baseReceivedDataAck : Closes fin k s c.baseReceivedDataAck :=
  Outcome.ite (fun _ ↦ h.cancelRexmit) fun _ ↦ (h.cancelEvent _).startRexmitTimer

theorem openCongestionWindow : Closes fin k s c.openCongestionWindow :=
  Outcome.ite (fun _ ↦ h.congr rfl rfl rfl rfl rfl) fun _ ↦ Outcome.ite (fun _ ↦ trivial) fun _ ↦
    h.congr rfl rfl rfl rfl rfl

theorem renoOpenCongestionWindow :
    Closes fin k s c.renoOpenCongestionWindow :=
  Outcome.ite (fun _ ↦ h.congr rfl rfl rfl rfl rfl) fun _ ↦ h.openCongestionWindow

theorem receivedDataAck : Closes fin k s c.receivedDataAck := by
  unfold TCPConnection.receivedDataAck
  split
  · exact Outcome.map (h.sendData _ _)
  · apply h.baseReceivedDataAck.bind
    exact fun c₁ h₁ ↦ Outcome.map h₁.algSendData
  · apply h.baseReceivedDataAck.bind
    intro c₁ h₁
    apply h₁.openCongestionWindow.bind
    exact fun c₂ h₂ ↦ Outcome.map h₂.algSendData
  · apply h.baseReceivedDataAck.bind
    intro c₁ h₁
    apply h₁.renoOpenCongestionWindow.bind
    exact fun c₂ h₂ ↦ Outcome.map h₂.algSendData

theorem fastRetransmit (hfits : c.overrunsQueue = false)
    (cwnd : TCPConnection → BitVec 32) : Closes fin k s (c.fastRetransmit cwnd) := by
  apply (h.retransmitOneSegment hfits).bind
  intro c₁ h₁
  have hcwnd : PastClose fin k s { c₁.recalculateSlowStartThreshold with
      sndCwnd := cwnd c₁.recalculateSlowStartThreshold } := h₁.congr rfl rfl rfl rfl rfl
  exact (hcwnd.cancelEvent _).startRexmitTimer

theorem receivedDuplicateAck (hfits : c.fastRetransmits → c.overrunsQueue = false) :
    Closes fin k s c.receivedDuplicateAck := by
  unfold TCPConnection.receivedDuplicateAck
  split <;> rename_i hclass
  · exact h
  · exact h
  · exact Outcome.ite (fun hdup ↦ h.fastRetransmit (hfits ⟨.inl hclass, hdup⟩) _) fun _ ↦ h
  · refine Outcome.ite (fun hdup ↦ h.fastRetransmit (hfits ⟨.inr hclass, hdup⟩) _) fun _ ↦
      Outcome.ite (fun _ ↦ ?_) fun _ ↦ h
    have hcwnd : PastClose fin k s { c with sndCwnd := c.sndCwnd + c.sndMss } :=
      h.congr rfl rfl rfl rfl rfl
    exact Outcome.map hcwnd.algSendData

/-! ## The receiving side -/

theorem consumeFin (finSeq : Seq) :
    PastClose fin k s (c.consumeFin finSeq) := by
  have hnxt : PastClose fin k s { c with rcvNxt := finSeq + 1 } := h.congr rfl rfl rfl rfl rfl
  exact hnxt.sendIndicationToApp _

theorem advanceOverStoredFin :
    PastClose fin k s c.advanceOverStoredFin := by
  unfold TCPConnection.advanceOverStoredFin
  split
  · exact h.consumeFin _
  · exact h

section

variable (seg : TCPSegment)

theorem processSegmentText :
    Closes fin k s (c.processSegmentText seg) := by
  have hqueue : ∀ q nxt, PastClose fin k s { c with receiveQueue := q, rcvNxt := nxt } :=
    fun q nxt ↦ h.congr rfl rfl rfl rfl rfl
  refine Outcome.ite (fun _ ↦ Outcome.ite (fun _ ↦ (hqueue _ _).sendAck) fun _ ↦ ?_) fun _ ↦ h
  apply ((extractLoop_not_isSendAssertion _ _ _ _).mono (fun _ h ↦ h) fun _ _ ↦ trivial).bind
  intro r _
  have hrest : PastClose fin k s { c with
      receiveQueue := r.2, rcvNxt := (c.receiveQueue.insertBytesFromSegment seg).rcvNxt } :=
    hqueue _ _
  exact (hrest.forwardToApp r.1).advanceOverStoredFin

theorem receiveFin :
    PastClose fin k s (c.receiveFin seg) := by
  unfold TCPConnection.receiveFin
  dsimp only
  split
  · exact h.consumeFin _
  · exact h.congr rfl rfl rfl rfl rfl

theorem enterTimeWait : Closes fin k s c.enterTimeWait := by
  apply (h.scheduleTimeout _).bind
  exact fun c₁ h₁ ↦ h₁.sendIndicationToApp _

theorem restart2MSL : Closes fin k s c.restart2MSL :=
  (h.cancelEvent _).scheduleTimeout _

theorem processFin (event : TCPEventCode) :
    ClosesThen fin k s (c.processFin seg event) := by
  have hfin := h.receiveFin seg
  have hcancel := hfin.cancelEvent .finWait2
  unfold TCPConnection.processFin
  refine Outcome.ite (fun _ ↦ ?_) fun _ ↦ h
  dsimp only
  split
  · refine Outcome.ite (fun _ ↦ ?_) fun _ ↦ hfin
    exact hcancel.enterTimeWait.bind fun c₁ h₁ ↦ h₁
  · exact hcancel.enterTimeWait.bind fun c₁ h₁ ↦ h₁
  · exact hfin.restart2MSL.bind fun c₁ h₁ ↦ h₁
  · exact hfin

theorem acknowledgeProgress (oldRcvNxt : Seq) :
    Closes fin k s (c.acknowledgeProgress oldRcvNxt) :=
  Outcome.ite (fun _ ↦ h.receiveSeqChanged) fun _ ↦ h

theorem processTextAndFin (oldSndNxt : Seq)
    (event : TCPEventCode) : ClosesThen fin k s (c.processTextAndFin seg oldSndNxt event) := by
  apply (h.processSegmentText seg).bind
  intro c₁ h₁
  apply (h₁.processFin seg event).bind
  intro r h₂
  apply (h₂.acknowledgeProgress _).bind
  exact fun c₃ h₃ ↦ h₃

theorem processFinAck (seg : TCPSegment) (event : TCPEventCode) :
    Outcome (c.processFinAck seg event) (fun r ↦ PastClose fin k s r.1) fun _ ↦ True := by
  unfold TCPConnection.processFinAck
  split
  · exact h
  · refine Outcome.ite (fun _ ↦ ?_) fun _ ↦ h
    exact h.enterTimeWait.bind fun c₁ h₁ ↦ h₁
  · cases c.acksOurFin seg with
    | true => exact h.sendIndicationToApp _
    | false => exact h
  · exact h.sendAck.restart2MSL.bind fun c₁ h₁ ↦ h₁
  · exact h

/-! ## Acknowledgments -/

theorem discardUpTo (seqNum : Seq) :
    Closes fin k s (c.discardUpTo seqNum) := by
  rw [discardUpTo_eq]
  exact Outcome.check_bind trivial (h.congr rfl rfl rfl rfl rfl)

theorem updateSendWindow :
    PastClose fin k s (c.updateSendWindow seg) := by
  unfold TCPConnection.updateSendWindow
  split
  · exact h.congr rfl rfl rfl rfl rfl
  · exact h

theorem advanceSndUna :
    Closes fin k s (c.advanceSndUna seg) := by
  have hmove : PastClose fin k s (c.moveSndUna seg) := h.congr rfl rfl rfl rfl rfl
  apply (hmove.discardUpTo _).bind
  exact fun c₁ h₁ ↦ h₁.updateSendWindow seg

end

theorem setDupacks (dupacks : BitVec 16) :
    PastClose fin k s { c with dupacks := dupacks } :=
  h.congr rfl rfl rfl rfl rfl

end PastClose

/-- The third duplicate ACK retransmits a segment that overruns the queue. -/
def fastOverruns (c : TCPConnection) (seg : TCPSegment) : Bool :=
  processesAck c.fsm && c.isDuplicateAck seg &&
    decide { c with dupacks := c.dupacks + 1 }.fastRetransmits && c.overrunsQueue

/-- So does the expiry of the REXMIT timer. -/
def timeoutOverruns (c : TCPConnection) : Bool :=
  (c.tcpAlgorithmClass == .tcpNoCongestionControl || c.tcpAlgorithmClass == .tcpTahoe) &&
    decide (c.rexmitCount < 12) && c.overrunsQueue

namespace PastClose

variable {fin : Seq} {k : ℕ} {s : TcpState} {c c' : TCPConnection} {seg : TCPSegment}

section

variable (h : PastClose fin k s c)

include h

theorem processAckInEstabEtc (hfits : c.isDuplicateAck seg = true →
      { c with dupacks := c.dupacks + 1 }.fastRetransmits → c.overrunsQueue = false) :
    Closes₂ fin k s (c.processAckInEstabEtc seg) := by
  apply Outcome.ite
  · intro _
    refine Outcome.ite (fun hdup ↦ ?_) fun _ ↦ h.setDupacks 0
    apply ((h.setDupacks _).receivedDuplicateAck (hfits hdup)).bind
    exact fun c₁ h₁ ↦ h₁
  · intro _
    refine Outcome.ite (fun _ ↦ ?_) fun _ ↦ Outcome.check_bind trivial (h.sendAck.setDupacks 0)
    apply (h.advanceSndUna seg).bind
    intro c₁ h₁
    apply h₁.receivedDataAck.bind
    exact fun c₂ h₂ ↦ h₂.setDupacks 0

theorem processAckIfOpen (hfits : c.fastOverruns seg = false) :
    Closes₂ fin k s (c.processAckIfOpen seg) := by
  refine Outcome.ite (fun hopen ↦ h.processAckInEstabEtc fun hdup hfast ↦ ?_) fun _ ↦ h
  rw [fastOverruns, hopen, hdup, decide_eq_true hfast] at hfits
  exact hfits

theorem processAck (hfits : c.fastOverruns seg = false)
    (event : TCPEventCode) : ClosesThen fin k s (c.processAck seg event) := by
  rw [processAck_eq]
  apply (h.processAckIfOpen hfits).bind
  intro r hr
  refine Outcome.ite (fun _ ↦ hr) fun _ ↦ ?_
  apply (hr.processFinAck seg event).bind
  intro ⟨c₂, event'⟩ h₂
  cases event' with
  | none => exact h₂
  | some event' => exact h₂.processTextAndFin _ _ _

theorem processAckInSynRcvd (hfits : seqLE seg.ackNo c.sndNxt = true → c.fastOverruns seg = false) :
    ClosesThen fin k s (c.processAckInSynRcvd seg) := by
  refine Outcome.ite (fun _ ↦ h.sendRst _) fun hrange ↦ ?_
  simp only [Bool.or_eq_true, Bool.not_eq_true', not_or, Bool.not_eq_false] at hrange
  apply h.algEstablished.bind
  intro c₁ ⟨h₁, cwnd, hc₁⟩
  have hest : PastClose fin k s c₁.sendEstabIndicationToApp := h₁.sendIndicationToApp _
  apply hest.processAck
  rw [hc₁]
  exact hfits hrange.2

theorem processRst : ClosesThen fin k s c.processRst := by
  unfold TCPConnection.processRst
  split
  · apply (h.discardUpTo _).bind
    intro c₁ h₁
    show PastClose fin k s (if c₁.active then _ else c₁)
    split
    · exact h₁.sendIndicationToApp _
    · exact h₁
  case h_6 | h_7 => exact h.sendIndicationToApp _
  case h_8 => exact h
  case h_9 | h_10 | h_11 | h_12 => exact trivial
  all_goals exact h.sendIndicationToApp _

theorem processSegment1stThru8th
    (hfits : c.reachesAckField seg = true → (c.fsm = .synRcvd → seqLE seg.ackNo c.sndNxt = true) →
      c.fastOverruns seg = false) :
    ClosesThen fin k s (c.processSegment1stThru8th seg) := by
  refine Outcome.ite (fun _ ↦ ?_) fun hacc ↦ Outcome.ite (fun _ ↦ h.processRst) fun hrst ↦
    Outcome.ite (fun _ ↦ h.sendIndicationToApp _) fun hsyn ↦ Outcome.ite (fun _ ↦ h) fun hack ↦ ?_
  · show PastClose fin k s (if seg.rstBit then c else c.sendAck)
    split
    · exact h
    · exact h.sendAck
  · have hreach : c.reachesAckField seg = true := by
      simp only [Bool.not_eq_true', Bool.not_eq_false] at hacc hack
      simp [reachesAckField, hacc, hrst, hsyn, hack]
    refine Outcome.ite (fun _ ↦ ?_) fun hfsm ↦ ?_
    · exact h.processAckInSynRcvd fun hle ↦ hfits hreach fun _ ↦ hle
    · apply h.processAck
      apply hfits hreach
      intro hs
      exact absurd (beq_iff_eq.mpr hs) hfsm

/-! ## Commands and timers -/

theorem enqueueNothing : PastClose fin k s (c.enqueueAppData 0) := by
  have hend : (c.enqueueAppData 0).sendQueue.endSeq = c.sendQueue.endSeq :=
    BitVec.add_zero c.sendQueue.endSeq
  exact h.congr rfl rfl hend rfl rfl

theorem processSend (hs : s ≠ .listen) {byteLength : ℕ} (isn : Seq)
    (hnone : acceptsSend c.fsm = true → byteLength = 0) :
    ClosesThen fin k s (c.processSend byteLength isn) := by
  unfold TCPConnection.processSend
  split <;> rename_i hfsm
  · exact absurd (h.fsm.symm.trans hfsm) hs
  case h_2 | h_3 =>
    rw [hnone (by rw [hfsm]; rfl)]
    exact h.enqueueNothing
  case h_4 | h_5 =>
    rw [hnone (by rw [hfsm]; rfl)]
    exact h.enqueueNothing.sendCommandInvoked.bind fun c₁ h₁ ↦ h₁
  all_goals exact trivial

theorem processAbort : ClosesThen fin k s c.processAbort := by
  unfold TCPConnection.processAbort
  split
  · exact trivial
  case h_7 => exact h
  all_goals exact h.sendRst _

theorem processStatus : ClosesThen fin k s c.processStatus :=
  Outcome.ite (fun _ ↦ trivial) fun _ ↦ h.sendIndicationToApp _

theorem processTimeoutConnEstab :
    ClosesThen fin k s c.processTimeoutConnEstab := by
  have hind : PastClose fin k s (if c.active then c.sendIndicationToApp .timedOut else c) := by
    split
    · exact h.sendIndicationToApp _
    · exact h
  unfold TCPConnection.processTimeoutConnEstab
  split
  · exact hind
  · exact hind
  · exact trivial

theorem processTimeout2MSL : ClosesThen fin k s c.processTimeout2MSL := by
  unfold TCPConnection.processTimeout2MSL
  split
  · exact h
  · exact trivial

theorem processTimeoutFinWait2 :
    ClosesThen fin k s c.processTimeoutFinWait2 := by
  unfold TCPConnection.processTimeoutFinWait2
  split
  · exact h.sendIndicationToApp _
  · exact trivial

theorem sendSynAck : PastClose fin k s c.sendSynAck := by
  have hmax : PastClose fin k s { c with sndMax := c.iss + 1, sndNxt := c.iss + 1 } :=
    h.congr rfl rfl rfl rfl rfl
  exact hmax.sendToIP (endsAt_of_empty rfl rfl)

theorem sendSyn : Closes fin k s c.sendSyn := by
  have hmax : PastClose fin k s { c with sndMax := c.iss + 1, sndNxt := c.iss + 1 } :=
    h.congr rfl rfl rfl rfl rfl
  exact Outcome.ite (fun _ ↦ trivial) fun _ ↦ Outcome.ite (fun _ ↦ trivial) fun _ ↦
    hmax.sendToIP (endsAt_of_empty rfl rfl)

theorem processTimeoutSynRexmit :
    ClosesThen fin k s c.processTimeoutSynRexmit := by
  have hcount : PastClose fin k s { c with synRexmitCount := c.synRexmitCount + 1 } :=
    h.congr rfl rfl rfl rfl rfl
  have hsyn : Closes fin k s { c with synRexmitCount := c.synRexmitCount + 1 }.resendSyn := by
    unfold resendSyn
    split
    · exact hcount.sendSyn
    · exact hcount.sendSynAck
    · exact trivial
  refine Outcome.ite (fun _ ↦ hcount) fun _ ↦ ?_
  apply hsyn.bind
  intro c₁ h₁
  exact (h₁.scheduleTimeout _).bind fun c₂ h₂ ↦ h₂

theorem retransmitAfterTimeout (hfits : (c.tcpAlgorithmClass == .tcpNoCongestionControl ||
      c.tcpAlgorithmClass == .tcpTahoe) = true → c.overrunsQueue = false) :
    Closes fin k s c.retransmitAfterTimeout := by
  have hcwnd : PastClose fin k s { c.recalculateSlowStartThreshold with
      sndCwnd := c.recalculateSlowStartThreshold.sndMss } := h.congr rfl rfl rfl rfl rfl
  unfold TCPConnection.retransmitAfterTimeout
  split <;> rename_i hclass
  · exact h.retransmitData
  · exact h.retransmitOneSegment (hfits (by rw [hclass]; rfl))
  · exact hcwnd.retransmitOneSegment (hfits (by rw [hclass]; rfl))
  · exact hcwnd.retransmitData

end

theorem scheduleTimeout_eq (c : TCPConnection) (t : Timer) :
    Outcome (c.scheduleTimeout t) (· = { c with timers := t :: c.timers }) fun _ ↦ True :=
  Outcome.ite (fun _ ↦ trivial) fun _ ↦ Outcome.ite (fun _ ↦ trivial) fun _ ↦ rfl

theorem processRexmitTimer (h : PastClose fin k s c) (hfits : c.timeoutOverruns = false) :
    ClosesThen fin k s c.processRexmitTimer := by
  have hcount : PastClose fin k s { c with rexmitCount := c.rexmitCount + 1 } :=
    h.congr rfl rfl rfl rfl rfl
  refine Outcome.ite (fun _ ↦ hcount.sendIndicationToApp _) fun hgive ↦ ?_
  apply (scheduleTimeout_eq _ _).bind
  intro c₁ hc₁
  have h₁ : PastClose fin k s c₁ := by
    rw [hc₁]
    exact h.congr rfl rfl rfl rfl rfl
  refine (h₁.retransmitAfterTimeout fun hclass ↦ ?_).bind fun c₂ h₂ ↦ h₂
  rw [hc₁] at hclass ⊢
  have hcount' : decide (c.rexmitCount < 12) = true := by
    rw [decide_eq_true_eq]
    have hle : ¬ 12 < c.rexmitCount + 1 := hgive
    omega
  have hone : (c.tcpAlgorithmClass == .tcpNoCongestionControl ||
      c.tcpAlgorithmClass == .tcpTahoe) = true := hclass
  rw [timeoutOverruns, hone, hcount'] at hfits
  exact hfits

theorem algProcessTimer (h : PastClose fin k s c) {t : Timer}
    (hfits : t = .rexmit → c.timeoutOverruns = false) :
    ClosesThen fin k s (c.algProcessTimer t) := by
  unfold TCPConnection.algProcessTimer
  split
  · apply h.retransmitData.bind
    intro c₁ h₁
    exact (h₁.scheduleTimeout _).bind fun c₂ h₂ ↦ h₂
  · exact h.processRexmitTimer (hfits rfl)
  · exact h.sendProbe.bind fun r hr ↦ hr
  · exact h.sendAck
  · exact h

theorem processTimer (h : PastClose fin k s c) {t : Timer}
    (hfits : t = .rexmit → c.timeoutOverruns = false) : ClosesThen fin k s (c.processTimer t) := by
  cases t with
  | the2MSL => exact h.processTimeout2MSL
  | connEstab => exact h.processTimeoutConnEstab
  | finWait2 => exact h.processTimeoutFinWait2
  | synRexmit => exact h.processTimeoutSynRexmit
  | _ => exact Outcome.ite (fun _ ↦ trivial) fun _ ↦ h.algProcessTimer hfits

end PastClose

/-! ## CLOSE -/

/-- The states in which CLOSE fixes the place of the FIN. -/
def placesFin : TcpState → Bool
  | .synRcvd | .established | .closeWait => true
  | _ => false

section Close

variable {fin : Seq} {k : ℕ} {s : TcpState} {c : TCPConnection}

/-- What has been output since the log had `k` entries keeps below the end of the queue. -/
theorem pastClose_markFin (hend : c.sendQueue.endSeq = fin)
    (hlog : ∀ seg, .toIP seg ∈ c.log.drop k → EndsAt fin seg) (hs : c.fsm = s) :
    PastClose fin k s c.markFin :=
  ⟨⟨rfl, hend, hend, hlog⟩, hs⟩

theorem ackSent_log (c : TCPConnection) : c.ackSent.log = c.log := by
  unfold ackSent
  split
  · rfl
  · split <;> rfl

/-- The FIN goes out at `snd_max`, which is the end of the queue. -/
theorem log_sendFinNow (hmax : c.sndMax = fin)
    (hlog : ∀ seg, .toIP seg ∈ c.log.drop k → EndsAt fin seg) :
    ∀ seg, .toIP seg ∈ c.sendFinNow.log.drop k → EndsAt fin seg := by
  intro seg hseg
  have hsent : c.sendFinNow.log = c.log ++ [.toIP { c.sendFromMax.ackSegment with
      finBit := true, srcPort := c.localPort, destPort := c.remotePort }] :=
    ackSent_log _
  rw [hsent, List.drop_append, List.mem_append] at hseg
  cases hseg with
  | inl hold => exact hlog seg hold
  | inr hnew =>
    rw [Output.toIP.inj (List.mem_singleton.mp (List.mem_of_mem_drop hnew))]
    constructor
    · intro j hj
      exact absurd hj (Nat.not_lt_zero j)
    · intro _
      show c.sndMax + 0#32 = fin
      rw [BitVec.add_zero, hmax]

theorem processClose_pastClose (hend : c.sendQueue.endSeq = fin)
    (hlog : ∀ seg, .toIP seg ∈ c.log.drop k → EndsAt fin seg) (hs : c.fsm = s)
    (hlisten : s ≠ .listen) (hsyn : s ≠ .synSent) : ClosesThen fin k s c.processClose := by
  unfold processClose
  split <;> rename_i hfsm
  · exact absurd (hs.symm.trans hfsm) hlisten
  · exact absurd (hs.symm.trans hfsm) hsyn
  case h_3 | h_4 | h_5 =>
    refine Outcome.ite (fun hmax ↦ ?_) fun _ ↦ pastClose_markFin hend hlog hs
    obtain ⟨hsame, hqueue⟩ := c.sendFinNow_frame
    have hend' : c.sendFinNow.sendQueue.endSeq = c.sendQueue.endSeq := congrArg (·.endSeq) hqueue
    exact pastClose_markFin (hend'.trans hend) (log_sendFinNow (hmax.trans hend) hlog)
      (hsame.trans hs)
  all_goals exact trivial

end Close

/-! ## Runs -/

/-- The events that put a byte where the FIN is, or behind it. -/
def passesFin (c : TCPConnection) : Event → Bool
  | .send byteLength _ => acceptsSend c.fsm && byteLength != 0
  | .segment seg srcAddr destAddr _ =>
      c.matchesSegment seg srcAddr destAddr && c.reachesAckField seg &&
        (c.fsm != .synRcvd || seqLE seg.ackNo c.sndNxt) && c.fastOverruns seg
  | .timer t => t == .rexmit && c.isScheduled t && c.timeoutOverruns
  | _ => false

/-- The states that are behind the setup of the connection, or back before it. -/
def pastSetup : TcpState → Bool
  | .init | .synSent => false
  | _ => true

section Runs

variable {fin : Seq} {k : ℕ} {s : TcpState} {c : TCPConnection}

theorem nextState_pastSetup (active : Bool) (event : TCPEventCode) (hs : pastSetup s = true)
    (hlisten : s ≠ .listen) : pastSetup (nextState active s event) = true := by
  cases s with
  | init | synSent => cases hs
  | listen => exact absurd rfl hlisten
  | synRcvd => cases active <;> cases event <;> rfl
  | _ => cases event <;> rfl

theorem Entered.streamEnds {c' : TCPConnection} (h : Entered c c') (hc : StreamEnds fin k c) :
    StreamEnds fin k c' := by
  have hflag : c'.sendFinFlag = c.sendFinFlag := congrArg (·.sendFinFlag) h.rest
  have hseq : c'.sndFinSeq = c.sndFinSeq := congrArg (·.sndFinSeq) h.rest
  have hend : c'.sendQueue.endSeq = c.sendQueue.endSeq := congrArg (·.sendQueue.endSeq) h.rest
  refine ⟨hflag.trans hc.sendFinFlag, hseq.trans hc.sndFinSeq, hend.trans hc.endSeq, ?_⟩
  rw [h.log]
  exact hc.log

/-- The FIN is placed, and the connection is not being set up. -/
def FinPlaced (fin : Seq) (k : ℕ) (c : TCPConnection) : Prop :=
  StreamEnds fin k c ∧ pastSetup c.fsm = true

theorem ClosesThen.step {x : Except Fault (TCPConnection × TCPEventCode)}
    (h : ClosesThen fin k s x) (hs : pastSetup s = true) (hlisten : s ≠ .listen) :
    Outcome (x >>= fun r ↦ r.1.performStateTransition r.2) (FinPlaced fin k) fun _ ↦ True := by
  apply h.bind
  intro r hr
  apply (r.1.performStateTransition_outcome r.2).mono
  · intro c' hc'
    have hnext := nextState_pastSetup r.1.active r.2 (hr.fsm.symm ▸ hs) (hr.fsm.symm ▸ hlisten)
    rcases hc' with ⟨_, rfl⟩ | ⟨_, hentered⟩
    · exact ⟨hr.toStreamEnds, hr.fsm.symm ▸ hs⟩
    · have hgoto : StreamEnds fin k (r.1.goto (nextState r.1.active r.1.fsm r.2)) :=
        ⟨hr.sendFinFlag, hr.sndFinSeq, hr.endSeq, hr.log⟩
      refine ⟨hentered.streamEnds hgoto, ?_⟩
      rw [hentered.fsm]
      exact hnext
  · exact fun _ _ ↦ trivial

theorem perform_pastClose (h : PastClose fin k s c) (hs : pastSetup s = true)
    (hlisten : s ≠ .listen) {e : Event} (hrec : c.receives e = true)
    (hok : c.passesFin e = false) : ClosesThen fin k s (c.perform e) := by
  have hinit : c.fsm ≠ .init := by
    rw [h.fsm]
    intro hi
    rw [hi] at hs
    cases hs
  have hsyn : s ≠ .synSent := by
    intro hi
    rw [hi] at hs
    cases hs
  cases e with
  | openActive => exact Outcome.ite (fun _ ↦ trivial) fun hi ↦ absurd hinit hi
  | openPassive => exact Outcome.ite (fun _ ↦ trivial) fun hi ↦ absurd hinit hi
  | send byteLength isn =>
    refine h.processSend hlisten isn fun haccepts ↦ ?_
    simpa [passesFin, haccepts] using hok
  | close => exact processClose_pastClose h.endSeq h.log h.fsm hlisten hsyn
  | abort => exact h.processAbort
  | status => exact h.processStatus
  | segment seg srcAddr destAddr isn =>
    simp only [receives, Bool.and_eq_true] at hrec
    refine Outcome.check_bind trivial (Outcome.check_bind trivial ?_)
    unfold processRcvSegment
    split <;> rename_i hfsm
    · exact absurd (h.fsm.symm.trans hfsm) hlisten
    · exact absurd (h.fsm.symm.trans hfsm) hsyn
    · refine h.processSegment1stThru8th fun hreach hrange ↦ ?_
      have hin : (c.fsm != .synRcvd || seqLE seg.ackNo c.sndNxt) = true := by
        by_cases hr : c.fsm = .synRcvd
        · simp [hrange hr]
        · simp [hr]
      rw [passesFin, hrec.2, hreach, hin] at hok
      exact hok
  | timer t =>
    refine (h.cancelEvent t).processTimer fun ht ↦ ?_
    have hscheduled : c.isScheduled t = true := hrec
    have hno : c.timeoutOverruns = false := by
      rw [passesFin, hscheduled, ht] at hok
      exact hok
    exact hno

theorem step_finPlaced (h : FinPlaced fin k c) {e : Event} (hlisten : c.fsm ≠ .listen)
    (hok : c.passesFin e = false) :
    Outcome (c.step e) (FinPlaced fin k) fun _ ↦ True := by
  refine Outcome.ite (fun _ ↦ h) fun hcond ↦ ?_
  simp only [Bool.or_eq_true, decide_eq_true_eq, Bool.not_eq_true', not_or, Bool.not_eq_false]
    at hcond
  exact (perform_pastClose ⟨h.1, rfl⟩ h.2 hlisten hcond.2 hok).step h.2 hlisten

theorem step_close_finPlaced (hs : placesFin c.fsm = true) :
    Outcome (c.step .close) (FinPlaced c.sendQueue.endSeq c.log.length) fun _ ↦ True := by
  have hlisten : c.fsm ≠ .listen := fun hl ↦ by rw [hl] at hs; cases hs
  have hsyn : c.fsm ≠ .synSent := fun hl ↦ by rw [hl] at hs; cases hs
  have hpast : pastSetup c.fsm = true := by
    revert hs
    cases c.fsm <;> simp [placesFin, pastSetup]
  have hclosed : ¬ (c.fsm = .closed || !c.receives .close) = true := by
    revert hs
    cases c.fsm <;> simp [placesFin, receives]
  have hlog : ∀ seg, .toIP seg ∈ c.log.drop c.log.length → EndsAt c.sendQueue.endSeq seg := by
    intro seg hseg
    rw [List.drop_length] at hseg
    cases hseg
  unfold step
  rw [if_neg hclosed]
  exact (processClose_pastClose rfl hlog rfl hlisten hsyn).step hpast hlisten

/-- In every run from a CLOSE that places the FIN, up to a return to LISTEN and without the events
of `passesFin`, the FIN stays the end of the stream: nothing is queued at `snd_fin_seq` or behind
it, every byte sent since lies below it, and every FIN sent since stands there. -/
theorem nothing_follows_fin {c₀ c₁ : TCPConnection} (hs : placesFin c₀.fsm = true)
    (hclose : c₀.step .close = .ok c₁)
    (h : Reachable (· = c₁) (fun c e ↦ c.fsm ≠ .listen ∧ c.passesFin e = false) step c) :
    StreamEnds c₀.sendQueue.endSeq c₀.log.length c := by
  have hinv : FinPlaced c₀.sendQueue.endSeq c₀.log.length c := by
    refine h.invariant ?_ ?_
    · intro c hc
      rw [hc]
      exact (step_close_finPlaced hs).of_eq_ok hclose
    · intro c e c' hc hallowed hstep
      exact (step_finPlaced hc hallowed.1 hallowed.2).of_eq_ok hstep
  exact hinv.1

/-- Four bytes are in flight and four wait. -/
def fourWaiting : List Event := establish 1000 ++ [.send 4 0, .send 4 0]

/-- The FIN rides on the bytes that were waiting, and both are acknowledged. -/
def finDrains : List Event :=
  [fromPeer { sequenceNo := 501, ackNo := 105, ackBit := true, window := 1000 },
    fromPeer { sequenceNo := 501, ackNo := 110, ackBit := true, window := 1000 }]

/-- CLOSE in the middle of a run, as a test on the three states. -/
theorem exists_closed_run (c : TCPConnection) (before after : List Event)
    (P : TCPConnection → TCPConnection → TCPConnection → Bool)
    (h : (match run step c before with
      | .error _ => false
      | .ok c₀ => match c₀.step .close with
        | .error _ => false
        | .ok c₁ => match run step c₁ after with
          | .error _ => false
          | .ok c₂ => P c₀ c₁ c₂) = true) :
    ∃ c₀ c₁ c₂, run step c before = .ok c₀ ∧ c₀.step .close = .ok c₁ ∧
      run step c₁ after = .ok c₂ ∧ P c₀ c₁ c₂ = true := by
  cases h₀ : run step c before with
  | error _ =>
    rw [h₀] at h
    cases h
  | ok c₀ =>
    rw [h₀] at h
    cases h₁ : c₀.step .close with
    | error _ =>
      simp only [h₁] at h
      cases h
    | ok c₁ =>
      simp only [h₁] at h
      cases h₂ : run step c₁ after with
      | error _ =>
        simp only [h₂] at h
        cases h
      | ok c₂ =>
        simp only [h₂] at h
        exact ⟨c₀, c₁, c₂, rfl, h₁, h₂, h⟩

theorem nothing_follows_fin_on_finDrains :
    ∃ c₀ c₁ c, run step { mss := 4 } fourWaiting = .ok c₀ ∧ c₀.step .close = .ok c₁ ∧
      run step c₁ finDrains = .ok c ∧ c.fsm = .finWait2 ∧
      StreamEnds c₀.sendQueue.endSeq c₀.log.length c := by
  obtain ⟨c₀, c₁, c, h₀, h₁, h, htest⟩ := exists_closed_run { mss := 4 } fourWaiting finDrains
    (fun c₀ c₁ c ↦ placesFin c₀.fsm && decide (c.fsm = .finWait2) &&
      admits (fun (c : TCPConnection) (e : Event) ↦ c.fsm ≠ .listen ∧ c.passesFin e = false) step
        c₁ finDrains)
    (by decide +kernel)
  simp only [Bool.and_eq_true, decide_eq_true_eq] at htest
  have hstart : Reachable (· = c₁) (fun c e ↦ c.fsm ≠ .listen ∧ c.passesFin e = false) step c₁ :=
    .start rfl
  refine ⟨c₀, c₁, c, h₀, h₁, h, htest.1.2, ?_⟩
  exact nothing_follows_fin htest.1.1 h₁ (hstart.of_run finDrains htest.2 h)

/-- The application sends three more bytes after CLOSE, while the FIN waits. -/
def sendAfterClose : List Event := .send 3 0 :: finDrains

/-- Whether an output is a segment with text behind `fin`. -/
def textBehind (fin : Seq) : Output → Bool
  | .toIP seg => decide (0 < seg.payloadLength) && seqLess fin seg.sequenceNo
  | _ => false

/-- The last two of the three bytes are sent behind the FIN. -/
theorem text_sent_behind_fin :
    ∃ c₀ c₁ c, Reachable IsNew (fun _ _ ↦ True) step c₀ ∧ placesFin c₀.fsm = true ∧
      c₀.step .close = .ok c₁ ∧ Reachable (· = c₁) (fun c _ ↦ c.fsm ≠ .listen) step c ∧
      (∃ seg, .toIP seg ∈ c.log.drop c₀.log.length ∧ 0 < seg.payloadLength ∧
        seqLess c₀.sendQueue.endSeq seg.sequenceNo = true) ∧
      ¬ StreamEnds c₀.sendQueue.endSeq c₀.log.length c := by
  have hnew : IsNew { mss := 4 } := rfl
  obtain ⟨c₀, c₁, c, h₀, h₁, h, htest⟩ := exists_closed_run { mss := 4 } fourWaiting sendAfterClose
    (fun c₀ c₁ c ↦ placesFin c₀.fsm && decide (c.sendQueue.endSeq ≠ c₀.sendQueue.endSeq) &&
      (c.log.drop c₀.log.length).any (textBehind c₀.sendQueue.endSeq) &&
      admits (fun (c : TCPConnection) (_ : Event) ↦ c.fsm ≠ .listen) step c₁ sendAfterClose)
    (by decide +kernel)
  simp only [Bool.and_eq_true, decide_eq_true_eq, List.any_eq_true] at htest
  obtain ⟨⟨⟨hs, hend⟩, ⟨o, hmem, hbehind⟩⟩, hadmits⟩ := htest
  have hreach : Reachable IsNew (fun _ _ ↦ True) step c₀ :=
    (Reachable.start hnew).of_run fourWaiting (by decide +kernel) h₀
  have hstart : Reachable (· = c₁) (fun c _ ↦ c.fsm ≠ .listen) step c₁ := .start rfl
  refine ⟨c₀, c₁, c, hreach, hs, h₁, hstart.of_run sendAfterClose hadmits h, ?_, ?_⟩
  · cases o with
    | toIP seg =>
      simp only [textBehind, Bool.and_eq_true, decide_eq_true_eq] at hbehind
      exact ⟨seg, hmem, hbehind⟩
    | _ => cases hbehind
  · intro hends
    exact hend hends.endSeq

end Runs

end TCPConnection

end InetManet.TCP
