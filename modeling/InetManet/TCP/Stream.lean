import InetManet.TCP.ReceiveSpace

/-!
# Data integrity between two connections

Two established connections exchange data over a network that may lose, repeat and reorder
segments. The network is what the two have sent so far: a segment that has been sent can be
delivered any number of times, at any time, or never. What an endpoint may rely on is `SentBy`: a
segment of the peer carries only text the peer has sent, and acknowledges only what the peer has
received.
-/

namespace InetManet.TCP

open TransitionSystem SerialNumber RegionList

namespace TCPConnection

/-! ## One endpoint -/

/-- Text from `[b, m)`, an ACK from `[b', r]`, and none of SYN, RST and FIN. -/
structure SentBy (b m b' r : ℕ) (seg : TCPSegment) : Prop where
  carries : ∃ p a, Carries (BitVec.ofNat 32 a) b m seg p ∧ b' ≤ a ∧ a ≤ r
  finBit : seg.finBit = false

/-- An endpoint of the two streams. Its own starts at `b` and the peer's at `b'`; it has received
the peer's up to `r`, and the peer has sent up to `top`. -/
structure Endpoint (c : TCPConnection) (b u n m e b' r top : ℕ) : Prop where
  fsm : c.fsm = .established
  iss : c.iss + 1 = BitVec.ofNat 32 b
  irs : c.irs + 1 = BitVec.ofNat 32 b'
  sendFinFlag : c.sendFinFlag = false
  finRcvd : c.finRcvd = false
  vars : SendVars c u n m e
  start_le : b ≤ u
  total : e < b + 2 ^ 31
  receiving : ∃ regions, Receiving c r regions top
  le_rcv : b' ≤ r
  rcv_le : r ≤ top
  delivered : c.deliveredBytes = r - b'
  sent : ∀ seg, .toIP seg ∈ c.log → SentBy b m b' r seg

section Endpoint

variable {c c' : TCPConnection} {seg : TCPSegment} {b u n m e b' r top : ℕ}

theorem SentBy.mono {m' r' : ℕ} (h : SentBy b m b' r seg) (hm : m ≤ m') (hr : r ≤ r') :
    SentBy b m' b' r' seg := by
  obtain ⟨p, a, hcarries, hlow, hhigh⟩ := h.carries
  exact ⟨⟨p, a, hcarries.mono hm, hlow, hhigh.trans hr⟩, h.finBit⟩

theorem Endpoint.mono {top' : ℕ} (h : Endpoint c b u n m e b' r top) (htop : top ≤ top') :
    Endpoint c b u n m e b' r top' := by
  obtain ⟨regions, hnxt, hholds⟩ := h.receiving
  exact { h with receiving := ⟨regions, hnxt, hholds.mono htop⟩, rcv_le := h.rcv_le.trans htop }

theorem deliveredBytes_append_segments (c : TCPConnection) (segs : List TCPSegment)
    (hlog : c'.log = c.log ++ segs.map .toIP) : c'.deliveredBytes = c.deliveredBytes := by
  unfold deliveredBytes
  have hzero : ((segs.map Output.toIP).map Output.bytes).sum = 0 := by
    clear hlog
    induction segs with
    | nil => rfl
    | cons seg segs ih => simpa [Output.bytes] using ih
  rw [hlog, List.map_append, List.sum_append, hzero, Nat.add_zero]

theorem SendVars.finBit_eq_false (h : SendVars c u n m e) (hflag : c.sendFinFlag = false)
    (hseg : .toIP seg ∈ c.log) : seg.finBit = false := by
  have hm := h.max_le_of_not_fin hflag
  by_contra hbit
  have hsent : c.finSent := ⟨seg, hseg, by simpa using hbit⟩
  have := h.finSent.mp hsent
  omega

variable (h : Endpoint c b u n m e b' r top)

include h

/-- Sending and the processing of an ACK keep the receive side. -/
theorem Endpoint.update {u' n' m' : ℕ} (hframe : c'.ackCore = c.ackCore)
    (hlog : ∃ segs : List TCPSegment, c'.log = c.log ++ segs.map .toIP)
    (hv : SendVars c' u' n' m' e) (hu : u ≤ u') (hm : m ≤ m') (hemits : Emits c c' u m') :
    Endpoint c' b u' n' m' e b' r top := by
  obtain ⟨segs, hlog⟩ := hlog
  obtain ⟨regions, hnxt, hholds⟩ := h.receiving
  have hrcvNxt : c'.rcvNxt = c.rcvNxt := congrArg (·.rcvNxt) hframe
  have hqueue : c'.receiveQueue = c.receiveQueue := congrArg (·.receiveQueue) hframe
  have hiss : c'.iss = c.iss := congrArg (·.iss) hframe
  have hirs : c'.irs = c.irs := congrArg (·.irs) hframe
  have hflag : c'.sendFinFlag = c.sendFinFlag := congrArg (·.sendFinFlag) hframe
  have hfinRcvd : c'.finRcvd = c.finRcvd := congrArg (·.finRcvd) hframe
  have hfsm : c'.fsm = c.fsm := congrArg (·.fsm) hframe
  refine ⟨hfsm.trans h.fsm, hiss ▸ h.iss, hirs ▸ h.irs, hflag.trans h.sendFinFlag,
    hfinRcvd.trans h.finRcvd, hv, h.start_le.trans hu, h.total,
    ⟨regions, hrcvNxt.trans hnxt, hqueue ▸ hholds⟩, h.le_rcv, h.rcv_le, ?_, ?_⟩
  · rw [deliveredBytes_append_segments c segs hlog, h.delivered]
  · intro seg hseg
    rcases hemits _ hseg with hold | ⟨seg', p, heq, hcarries⟩
    · exact (h.sent seg hold).mono hm le_rfl
    · obtain rfl := Output.toIP.inj heq
      rw [hnxt] at hcarries
      exact ⟨⟨p, r, { hcarries with una_le := h.start_le.trans hcarries.una_le }, h.le_rcv, le_rfl⟩,
        hv.finBit_eq_false (hflag.trans h.sendFinFlag) hseg⟩

theorem Endpoint.sends {new : Prop} (hpost : SendPost new c u m e c') :
    ∃ n' m', Endpoint c' b u n' m' e b' r top ∧ m ≤ m' := by
  obtain ⟨hs, n', m', hv, hm, -, hemits⟩ := hpost
  exact ⟨n', m', h.update hs.ackCore hs.log hv le_rfl hm hemits, hm⟩

theorem Endpoint.enqueueAppData {byteLength : ℕ} (htotal : e + byteLength < b + 2 ^ 31) :
    Endpoint (c.enqueueAppData byteLength) b u n m (e + byteLength) b' r top := by
  have hstart := h.start_le
  have hcore : SendCore (c.enqueueAppData byteLength) u n m (e + byteLength) :=
    h.vars.enqueueAppData h.sendFinFlag (by omega)
  obtain ⟨regions, hnxt, hholds⟩ := h.receiving
  exact { h with vars := ⟨hcore, h.vars.rexmit⟩, total := htotal, receiving := ⟨regions, hnxt, hholds⟩ }

/-! ### A segment arrives -/

theorem Endpoint.receiveAt {r' : ℕ} {regions : List (Region ℕ)}
    (packets : List ℕ) (hholds : Holds (queueAt r' regions) r' regions top) (hr : r ≤ r')
    (htop : r' ≤ top) (hpackets : packets.sum = r' - r) :
    Endpoint ((c.receiveAt r' regions).forwardToApp packets) b u n m e b' r' top := by
  have hinert : Inert False c ((c.receiveAt r' regions).forwardToApp packets) :=
    (c.inert_receive _ _).trans (inert_forwardToApp _ _)
  have hlog : ((c.receiveAt r' regions).forwardToApp packets).log = c.log ++ packets.map .data := rfl
  have hrcv := h.le_rcv
  refine ⟨h.fsm, h.iss, h.irs, h.sendFinFlag, h.finRcvd, hinert.sendVars h.vars, h.start_le, h.total,
    ⟨regions, rfl, hholds⟩, by omega, htop, ?_, fun seg hseg ↦ ?_⟩
  · rw [deliveredBytes_receiveAt, h.delivered, hpackets]
    omega
  · rw [hlog, List.mem_append] at hseg
    rcases hseg with hseg | hseg
    · exact (h.sent seg hseg).mono le_rfl hr
    · simp at hseg

/-- A connection that has received more and may have answered. -/
def Progress (c' : TCPConnection) (b u m e b' r top : ℕ) : Prop :=
  ∃ n' m' r', Endpoint c' b u n' m' e b' r' top ∧ m ≤ m' ∧ r ≤ r'

theorem Endpoint.processSegmentText {p : ℕ}
    (hseq : seg.sequenceNo = BitVec.ofNat 32 p) (hp : r ≤ p) (htop : p + seg.payloadLength ≤ top)
    (hroom : top < b' + 2 ^ 31) :
    Outcome (c.processSegmentText seg) (Progress · b u m e b' r top) (fun _ ↦ True) := by
  obtain ⟨regions, hreceiving⟩ := h.receiving
  have hrcv := h.le_rcv
  have hs : receivesText c.fsm = true := by rw [h.fsm]; rfl
  rcases Nat.eq_zero_or_pos seg.payloadLength with hzero | hlen
  · rw [processSegmentText_empty c hzero]
    exact ⟨n, m, r, h, le_rfl, le_rfl⟩
  · refine (processSegmentText_spec hreceiving hs hseq hlen hp htop (by omega) (S := Set.univ)
      (fun _ _ ↦ ⟨trivial, trivial⟩) ⟨trivial, trivial⟩).mono ?_ fun _ _ ↦ trivial
    rintro c' ⟨r', regions', hholds, hr', -, -, -, ⟨rfl, rfl⟩ | ⟨hlt, rfl⟩⟩
    · have hsame := h.receiveAt [] hholds le_rfl hr' (by simp)
      rw [forwardToApp_nil] at hsame
      have hack : SendPost True _ u m e _ := sendAck_post hsame.vars
      obtain ⟨n', m', hnew, hm⟩ := hsame.sends hack
      exact ⟨n', m', r', hnew, hm, le_rfl⟩
    · have hnew := h.receiveAt [r' - r] hholds hlt.le hr' (by simp)
      rw [advanceOverStoredFin_eq hnew.finRcvd]
      exact ⟨n, m, r', hnew, le_rfl, hlt.le⟩

theorem Endpoint.processTextAndFin {p : ℕ}
    (hseq : seg.sequenceNo = BitVec.ofNat 32 p) (hp : r ≤ p) (htop : p + seg.payloadLength ≤ top)
    (hroom : top < b' + 2 ^ 31) (hbit : seg.finBit = false) (oldSndNxt : Seq) :
    Outcome (c.processTextAndFin seg oldSndNxt .ignore)
      (fun s ↦ s.2 = .ignore ∧ Progress s.1 b u m e b' r top) (fun _ ↦ True) := by
  refine (h.processSegmentText hseq hp htop hroom).bind ?_
  rintro c₁ ⟨n₁, m₁, r₁, h₁, hm₁, hr₁⟩
  rw [processFin_of_not_finBit c₁ hbit]
  refine Outcome.bind (Q := (Progress · b u m e b' r top)) ?_ ?_
  · refine Outcome.ite (fun _ ↦ ?_) fun _ ↦ ⟨n₁, m₁, r₁, h₁, hm₁, hr₁⟩
    have hchanged : SendsFrom True c₁ u m₁ e c₁.receiveSeqChanged := receiveSeqChanged_post h₁.vars
    refine hchanged.mono (fun c₂ h₂ ↦ ?_) fun _ _ ↦ trivial
    obtain ⟨n₂, m₂, h₂, hm₂⟩ := h₁.sends h₂
    exact ⟨n₂, m₂, r₁, h₂, hm₁.trans hm₂, hr₁⟩
  · rintro c₂ ⟨n₂, m₂, r₂, h₂, hm₂, hr₂⟩
    refine ⟨?_, n₂, m₂, r₂, h₂, hm₂, hr₂⟩
    show c₂.deferredClose oldSndNxt .ignore = .ignore
    unfold deferredClose
    rw [h₂.sendFinFlag, Bool.false_and, Bool.false_and, if_neg (by simp)]

theorem Endpoint.le_of_acceptable {p : ℕ}
    (hseq : seg.sequenceNo = BitVec.ofNat 32 p) (hp : b' ≤ p) (htop : p ≤ top)
    (hroom : top < b' + 2 ^ 31) (hacc : c.isSegmentAcceptable seg = true) : r ≤ p := by
  obtain ⟨regions, hnxt, -⟩ := h.receiving
  have hrcv := h.le_rcv
  have hrtop := h.rcv_le
  unfold isSegmentAcceptable at hacc
  rw [Bool.and_eq_true, hseq, hnxt, seqGE_ofNat (by omega) (by omega)] at hacc
  simpa using hacc.1

/-- An ACK moves `snd_una` at most to the position it names. -/
theorem Endpoint.processAckInEstabEtc {a R : ℕ}
    (hack : seg.ackNo = BitVec.ofNat 32 a) (ha : b ≤ a) (haR : a ≤ R) (huR : u ≤ R) (hRm : R ≤ m) :
    Outcome (c.processAckInEstabEtc seg)
      (fun s ↦ ∃ u' n' m', Endpoint s.2 b u' n' m' e b' r top ∧ u' ≤ R ∧ u ≤ u' ∧ m ≤ m')
      (fun _ ↦ True) := by
  refine (processAckInEstabEtc_post h.vars seg).mono ?_ fun _ _ ↦ trivial
  rintro ⟨ok, c'⟩ hpost
  obtain ⟨u', n', m', hv, hu, hum, hm, -, hemits, -, hu'⟩ := hpost.vars
  have hstart := h.start_le
  have htotal := h.total
  have hmax := h.vars.max_le_of_not_fin h.sendFinFlag
  refine ⟨u', n', m', h.update hpost.frame hpost.log hv hu hm hemits, ?_, hu, hm⟩
  rcases hu' with rfl | hu'
  · exact huR
  · rw [hack, ofNat_inj (by omega) (by omega)] at hu'
    omega

theorem Endpoint.processAck {p R : ℕ}
    (hseg : SentBy b' top b R seg) (hseq : seg.sequenceNo = BitVec.ofNat 32 p) (hp : r ≤ p)
    (htop : p + seg.payloadLength ≤ top) (huR : u ≤ R) (hRm : R ≤ m) (hroom : top < b' + 2 ^ 31) :
    Outcome (c.processAck seg .ignore)
      (fun s ↦ s.2 = .ignore ∧ ∃ u', u' ≤ R ∧ u ≤ u' ∧ Progress s.1 b u' m e b' r top)
      (fun _ ↦ True) := by
  obtain ⟨_, a, hcarries, ha, haR⟩ := hseg.carries
  rw [processAck_eq, processAckIfOpen, if_pos (by rw [h.fsm]; rfl)]
  refine (h.processAckInEstabEtc hcarries.ackNo ha haR huR hRm).bind ?_
  rintro ⟨ok, c₁⟩ ⟨u₁, n₁, m₁, h₁, hu₁R, hu₁, hm₁⟩
  dsimp only at h₁
  refine Outcome.ite (fun _ ↦ ⟨rfl, u₁, hu₁R, hu₁, n₁, m₁, r, h₁, hm₁, le_rfl⟩) fun _ ↦ ?_
  have hfinAck : c₁.processFinAck seg .ignore = .ok (c₁, some .ignore) := by
    unfold processFinAck
    rw [h₁.fsm]
  rw [hfinAck]
  refine (h₁.processTextAndFin hseq hp htop hroom hseg.finBit c.sndNxt).mono ?_ fun _ _ ↦ trivial
  rintro s ⟨hevent, n₂, m₂, r₂, h₂, hm₂, hr₂⟩
  exact ⟨hevent, u₁, hu₁R, hu₁, n₂, m₂, r₂, h₂, hm₁.trans hm₂, hr₂⟩

theorem Endpoint.processSegment1stThru8th {R : ℕ}
    (hseg : SentBy b' top b R seg) (huR : u ≤ R) (hRm : R ≤ m) (hroom : top < b' + 2 ^ 31) :
    Outcome (c.processSegment1stThru8th seg)
      (fun s ↦ s.2 = .ignore ∧ ∃ u', u' ≤ R ∧ u ≤ u' ∧ Progress s.1 b u' m e b' r top)
      (fun _ ↦ True) := by
  obtain ⟨p, a, hcarries, -, -⟩ := hseg.carries
  have htop := hcarries.le_max
  unfold TCPConnection.processSegment1stThru8th
  rw [hcarries.rstBit, hcarries.synBit, hcarries.ackBit]
  refine Outcome.ite (fun _ ↦ ?_) fun hacc ↦ ?_
  · rw [if_neg (by simp)]
    have hack : SendPost True c u m e c.sendAck := sendAck_post h.vars
    obtain ⟨n', m', hnew, hm⟩ := h.sends hack
    exact ⟨rfl, u, huR, le_rfl, n', m', r, hnew, hm, le_rfl⟩
  · rw [if_neg (by simp), if_neg (by simp), if_neg (by simp), if_neg (by simp [h.fsm])]
    have hp : r ≤ p := h.le_of_acceptable hcarries.seq hcarries.una_le (by omega) hroom
      (by simpa using hacc)
    exact h.processAck hseg hcarries.seq hp htop huR hRm hroom

end Endpoint

/-! ## Two endpoints and the network -/

/-- What one of the two connections may do next. -/
inductive Action
  | send (byteLength : ℕ)
  | sendData (fullSegmentsOnly : Bool) (congestionWindow : ℤ)
  | sendProbe
  | sendAck
  | retransmitOneSegment
  | retransmitData
  | deliver (seg : TCPSegment)
  deriving DecidableEq

def act (c : TCPConnection) : Action → Except Fault TCPConnection
  | .send byteLength => c.processSend byteLength 0 >>= fun r ↦ r.1.performStateTransition r.2
  | .sendData fullSegmentsOnly congestionWindow =>
      Prod.snd <$> c.sendData fullSegmentsOnly congestionWindow
  | .sendProbe => Prod.snd <$> c.sendProbe
  | .sendAck => .ok c.sendAck
  | .retransmitOneSegment => c.retransmitOneSegment
  | .retransmitData => c.retransmitData
  | .deliver seg => c.processSegment1stThru8th seg >>= fun r ↦ r.1.performStateTransition r.2

/-- Position of `seq` in a stream that starts behind `iss`. -/
def offsetFrom (iss seq : Seq) : ℕ := (seq - iss).toNat

/-- The bytes the user has sent on this connection. -/
def bytesSent (c : TCPConnection) : ℕ := offsetFrom (c.iss + 1) c.sendQueue.endSeq

section Act

variable {c : TCPConnection} {seg : TCPSegment} {b u n m e b' r top : ℕ}

variable (h : Endpoint c b u n m e b' r top)

include h

theorem Endpoint.performStateTransition {event : TCPEventCode}
    (hevent : event = .ignore ∨ event = .send) :
    Outcome (c.performStateTransition event) (· = c) (fun _ ↦ True) := by
  have hsame : nextState c.active c.fsm event = c.fsm := by
    rw [h.fsm]
    rcases hevent with rfl | rfl <;> rfl
  refine (c.performStateTransition_outcome event).mono ?_ fun _ _ ↦ trivial
  rintro c' (⟨-, rfl⟩ | ⟨hne, -⟩)
  · rfl
  · exact absurd hsame hne

/-- The endpoint after an action: only SEND adds to the stream, and only a segment of the peer moves
`snd_una` and `rcv_nxt`. -/
def ActPost (c' : TCPConnection) (b m b' r R top : ℕ) : Prop :=
  ∃ u' n' m' e' r', Endpoint c' b u' n' m' e' b' r' top ∧ u' ≤ R ∧ m ≤ m' ∧ r ≤ r'

theorem Endpoint.actPost {new : Prop} {c' : TCPConnection} {R : ℕ} (huR : u ≤ R)
    (hpost : SendPost new c u m e c') :
    ActPost c' b m b' r R top := by
  obtain ⟨n', m', hnew, hm⟩ := h.sends hpost
  exact ⟨u, n', m', e, r, hnew, huR, hm, le_rfl⟩

theorem Endpoint.bytesSent : c.bytesSent = e - b := by
  have hstart := h.start_le
  have hum := h.vars.una_le_nxt.trans h.vars.nxt_le_max
  have hmax := h.vars.max_le_of_not_fin h.sendFinFlag
  have htotal := h.total
  unfold TCPConnection.bytesSent offsetFrom
  rw [h.iss, h.vars.endSeq, toNat_ofNat_sub_ofNat (by omega) (by omega)]

theorem Endpoint.act_send {R byteLength : ℕ} (huR : u ≤ R) (htotal : c.bytesSent + byteLength < 2 ^ 31) :
    Outcome (c.act (.send byteLength)) (ActPost · b m b' r R top) (fun _ ↦ True) := by
  have hstart := h.start_le
  have hum := h.vars.una_le_nxt.trans h.vars.nxt_le_max
  have hmax := h.vars.max_le_of_not_fin h.sendFinFlag
  rw [h.bytesSent] at htotal
  have henqueue : Endpoint (c.enqueueAppData byteLength) b u n m (e + byteLength) b' r top :=
    h.enqueueAppData (by omega)
  show Outcome (c.processSend byteLength 0 >>= _) _ _
  unfold processSend
  rw [h.fsm]
  refine Outcome.bind (Q := fun s ↦ s.2 = .send ∧ ActPost s.1 b m b' r R top) ?_ ?_
  · refine Outcome.bind (Q := (ActPost · b m b' r R top))
      ((sendCommandInvoked_post henqueue.vars).mono (fun c₁ h₁ ↦ henqueue.actPost huR h₁)
        fun _ _ ↦ trivial) fun c₁ h₁ ↦ ⟨rfl, h₁⟩
  · rintro ⟨c₁, event⟩ ⟨hevent, u', n', m', e', r', h₁, hrest⟩
    refine (h₁.performStateTransition (.inr hevent)).mono ?_ fun _ _ ↦ trivial
    rintro c₂ rfl
    exact ⟨u', n', m', e', r', h₁, hrest⟩

theorem Endpoint.act_deliver {R : ℕ}
    (hseg : SentBy b' top b R seg) (huR : u ≤ R) (hRm : R ≤ m) (hroom : top < b' + 2 ^ 31) :
    Outcome (c.act (.deliver seg)) (ActPost · b m b' r R top) (fun _ ↦ True) := by
  refine (h.processSegment1stThru8th hseg huR hRm hroom).bind ?_
  rintro ⟨c₁, event⟩ ⟨hevent, u', hu'R, -, n', m', r', h₁, hm, hr⟩
  refine (h₁.performStateTransition (.inl hevent)).mono ?_ fun _ _ ↦ trivial
  rintro c₂ rfl
  exact ⟨u', n', m', e, r', h₁, hu'R, hm, hr⟩

/-- One action of an endpoint whose peer has received up to `R` and sent up to `top`. -/
theorem Endpoint.act {R : ℕ} (huR : u ≤ R) (hRm : R ≤ m) (hroom : top < b' + 2 ^ 31) {action : Action}
    (hsend : ∀ byteLength, action = .send byteLength → c.bytesSent + byteLength < 2 ^ 31)
    (hdeliver : ∀ seg, action = .deliver seg → SentBy b' top b R seg) :
    Outcome (c.act action) (ActPost · b m b' r R top) (fun _ ↦ True) := by
  have hpost : ∀ c', SendPost True c u m e c' → ActPost c' b m b' r R top :=
    fun c' hc' ↦ h.actPost huR hc'
  cases action with
  | send byteLength => exact h.act_send huR (hsend byteLength rfl)
  | sendData fullSegmentsOnly congestionWindow =>
    exact (sendData_post h.vars _ _).snd.mono hpost fun _ _ ↦ trivial
  | sendProbe => exact (sendProbe_post h.vars).snd.mono hpost fun _ _ ↦ trivial
  | sendAck => exact hpost _ (sendAck_post h.vars)
  | retransmitOneSegment =>
    exact (retransmitOneSegment_post h.vars (.inr h.sendFinFlag)).mono hpost fun _ _ ↦ trivial
  | retransmitData =>
    exact (retransmitData_post h.vars (.inr h.sendFinFlag)).mono hpost fun _ _ ↦ trivial
  | deliver seg => exact h.act_deliver (hdeliver seg rfl) huR hRm hroom

end Act

/-- Both endpoints: neither `snd_una` is ahead of what the other side has received. -/
def Linked (c c' : TCPConnection) : Prop :=
  ∃ b u n m e r b' u' n' m' e' r', Endpoint c b u n m e b' r m' ∧ Endpoint c' b' u' n' m' e' b r' m ∧
    u ≤ r' ∧ u' ≤ r

/-- Sender and receiver of one direction. Offsets count from `iss`. -/
structure Integrity (sender receiver : TCPConnection) : Prop where
  una_le_rcvNxt : offsetFrom sender.iss sender.sndUna ≤ offsetFrom sender.iss receiver.rcvNxt
  rcvNxt_le_max : offsetFrom sender.iss receiver.rcvNxt ≤ offsetFrom sender.iss sender.sndMax
  max_le_end : offsetFrom sender.iss sender.sndMax ≤ offsetFrom sender.iss sender.sendQueue.endSeq
  delivered : receiver.deliveredBytes = offsetFrom (receiver.irs + 1) receiver.rcvNxt
  acked : ∀ seg, .toIP seg ∈ receiver.log →
    offsetFrom sender.iss seg.ackNo ≤ offsetFrom sender.iss receiver.rcvNxt

section Linked

variable {c c' : TCPConnection}

theorem Linked.symm (h : Linked c c') : Linked c' c := by
  obtain ⟨b, u, n, m, e, r, b', u', n', m', e', r', hc, hc', hu, hu'⟩ := h
  exact ⟨b', u', n', m', e', r', b, u, n, m, e, r, hc', hc, hu', hu⟩

theorem Linked.act (h : Linked c c') {action : Action}
    (hsend : ∀ byteLength, action = .send byteLength → c.bytesSent + byteLength < 2 ^ 31)
    (hdeliver : ∀ seg, action = .deliver seg → .toIP seg ∈ c'.log) :
    Outcome (c.act action) (Linked · c') (fun _ ↦ True) := by
  obtain ⟨b, u, n, m, e, r, b', u', n', m', e', r', hc, hc', hu, hu'⟩ := h
  have hroom : m' < b' + 2 ^ 31 := by
    have hmax := hc'.vars.max_le_of_not_fin hc'.sendFinFlag
    have htotal := hc'.total
    omega
  refine (hc.act hu hc'.rcv_le hroom hsend fun seg hseg ↦ hc'.sent seg (hdeliver seg hseg)).mono ?_
    fun _ _ ↦ trivial
  rintro c₁ ⟨u₁, n₁, m₁, e₁, r₁, hc₁, hu₁, hm₁, hr₁⟩
  exact ⟨b, u₁, n₁, m₁, e₁, r₁, b', u', n', m', e', r', hc₁, hc'.mono hm₁, hu₁, hu'.trans hr₁⟩

theorem offsetFrom_eq {iss seq : Seq} {b p : ℕ} (hiss : iss + 1 = BitVec.ofNat 32 b)
    (hseq : seq = BitVec.ofNat 32 p) (hb : b ≤ p) (hroom : p < b + 2 ^ 31) :
    offsetFrom iss seq = p - b + 1 := by
  have hiss' : iss = BitVec.ofNat 32 b - 1 := by
    rw [← hiss, BitVec.add_sub_cancel]
  have hshift : seq - iss = BitVec.ofNat 32 (p - b + 1) := by
    have hsub := ofNat_sub_ofNat (w := 32) hb
    rw [hiss', hseq, ← ofNat_add_one, ← hsub]
    ring
  rw [offsetFrom, hshift, BitVec.toNat_ofNat, Nat.mod_eq_of_lt (by omega)]

/-- The order of the positions, read back as sequence numbers. -/
theorem Linked.integrity (h : Linked c c') : Integrity c c' := by
  obtain ⟨b, u, n, m, e, r, b', u', n', m', e', r', hc, hc', hu, hu'⟩ := h
  obtain ⟨regions, hnxt, -⟩ := hc'.receiving
  have hstart := hc.start_le
  have hun := hc.vars.una_le_nxt
  have hnm := hc.vars.nxt_le_max
  have hmax := hc.vars.max_le_of_not_fin hc.sendFinFlag
  have htotal := hc.total
  have hrcv := hc'.rcv_le
  have huna := offsetFrom_eq hc.iss hc.vars.una hstart (by omega)
  have hrnxt := offsetFrom_eq hc.iss hnxt (by omega) (by omega)
  have hsmax := offsetFrom_eq hc.iss hc.vars.max (by omega) (by omega)
  have hend := offsetFrom_eq hc.iss hc.vars.endSeq (by omega) (by omega)
  refine ⟨by omega, by omega, by omega, ?_, fun seg hseg ↦ ?_⟩
  · rw [hc'.delivered, offsetFrom, hc'.irs, hnxt, toNat_ofNat_sub_ofNat (by omega) (by omega)]
  · obtain ⟨p, a, hcarries, ha, har⟩ := (hc'.sent seg hseg).carries
    have hack := offsetFrom_eq hc.iss hcarries.ackNo ha (by omega)
    omega

end Linked

end TCPConnection

/-! ## Runs of the link -/

inductive Party
  | left
  | right
  deriving DecidableEq

def Party.peer : Party → Party
  | .left => .right
  | .right => .left

/-- Two connections. The network holds every segment that one of them has sent. -/
structure Link where
  left : TCPConnection
  right : TCPConnection

namespace Link

open TCPConnection

def of (l : Link) : Party → TCPConnection
  | .left => l.left
  | .right => l.right

def set (l : Link) : Party → TCPConnection → Link
  | .left, c => { l with left := c }
  | .right, c => { l with right := c }

def step (l : Link) (e : Party × Action) : Except Fault Link :=
  (l.of e.1).act e.2 >>= fun c ↦ .ok (l.set e.1 c)

/-- The network delivers what the peer has sent, and each user sends fewer than `2 ^ 31` bytes. -/
def allowed (l : Link) (e : Party × Action) : Prop :=
  match e.2 with
  | .send byteLength => (l.of e.1).bytesSent + byteLength < 2 ^ 31
  | .deliver seg => .toIP seg ∈ (l.of e.1.peer).log
  | _ => True

instance (l : Link) (e : Party × Action) : Decidable (l.allowed e) := by
  unfold allowed
  split <;> infer_instance

/-- An established connection that has sent and received nothing yet. -/
structure Synchronized (c peer : TCPConnection) : Prop where
  fsm : c.fsm = .established
  una : c.sndUna = c.iss + 1
  nxt : c.sndNxt = c.iss + 1
  max : c.sndMax = c.iss + 1
  sendQueue : c.sendQueue = .init (c.iss + 1)
  irs : c.irs = peer.iss
  rcvNxt : c.rcvNxt = c.irs + 1
  receiveQueue : c.receiveQueue = ⟨c.irs + 1, []⟩
  sendFinFlag : c.sendFinFlag = false
  finRcvd : c.finRcvd = false
  rexmit : .rexmit ∉ c.timers
  log : c.log = []

section Runs

variable {l : Link}

theorem Synchronized.endpoint {c peer : TCPConnection} (h : Synchronized c peer) :
    Endpoint c (c.iss.toNat + 1) (c.iss.toNat + 1) (c.iss.toNat + 1) (c.iss.toNat + 1)
      (c.iss.toNat + 1) (peer.iss.toNat + 1) (peer.iss.toNat + 1) (peer.iss.toNat + 1) := by
  have hpos : ∀ x : Seq, x + 1 = BitVec.ofNat 32 (x.toNat + 1) := by
    intro x
    rw [← ofNat_add_one, BitVec.ofNat_toNat, BitVec.setWidth_eq]
  have hirs : c.irs + 1 = BitVec.ofNat 32 (peer.iss.toNat + 1) := by rw [h.irs, hpos]
  have hnone : ¬ c.finSent := by
    rintro ⟨seg, hseg, -⟩
    rw [h.log] at hseg
    cases hseg
  refine ⟨h.fsm, hpos _, hirs, h.sendFinFlag, h.finRcvd, ?_, le_rfl, by omega, ⟨[], ?_, ?_⟩, le_rfl,
    le_rfl, ?_, ?_⟩
  · refine ⟨⟨⟨h.una.trans (hpos _), h.nxt.trans (hpos _), h.max.trans (hpos _), ?_, le_rfl, le_rfl,
      by omega, .inr (.inl ⟨h.sendFinFlag, le_rfl⟩), iff_of_false hnone (by omega)⟩, by omega, ?_⟩, ?_⟩
    · rw [h.sendQueue]
      exact hpos _
    · intro hflag
      omega
    · exact fun _ ht ↦ absurd ht h.rexmit
  · exact h.rcvNxt.trans hirs
  · rw [h.receiveQueue, hirs]
    exact ⟨rfl, normal_nil, by simp, by simp⟩
  · rw [deliveredBytes, h.log, Nat.sub_self]
    rfl
  · intro seg hseg
    rw [h.log] at hseg
    cases hseg

theorem step_linked (h : Linked l.left l.right) {e : Party × Action} (hallowed : l.allowed e) :
    Outcome (l.step e) (fun l' ↦ Linked l'.left l'.right) (fun _ ↦ True) := by
  obtain ⟨party, action⟩ := e
  have hsend : ∀ byteLength, action = .send byteLength →
      (l.of party).bytesSent + byteLength < 2 ^ 31 := by
    rintro byteLength rfl
    exact hallowed
  have hdeliver : ∀ seg, action = .deliver seg → .toIP seg ∈ (l.of party.peer).log := by
    rintro seg rfl
    exact hallowed
  cases party with
  | left => exact (h.act hsend hdeliver).bind fun c hc ↦ hc
  | right => exact (h.symm.act hsend hdeliver).bind fun c hc ↦ hc.symm

/-- In every state that two synchronised connections reach, whatever is lost, repeated and
reordered, `snd_una ≤ rcv_nxt ≤ snd_max ≤` end of the send queue in both directions, and exactly the
bytes up to `rcv_nxt` have been handed to the application, once. -/
theorem stream_integrity
    (h : Reachable (fun l : Link ↦ Synchronized l.left l.right ∧ Synchronized l.right l.left)
      allowed step l) :
    Integrity l.left l.right ∧ Integrity l.right l.left := by
  have hlinked : Linked l.left l.right := by
    refine (h.outcome ?_ fun l e hl ↦ step_linked hl).1
    rintro l ⟨hleft, hright⟩
    exact ⟨_, _, _, _, _, _, _, _, _, _, _, _, hleft.endpoint, hright.endpoint, le_rfl, le_rfl⟩
  exact ⟨hlinked.integrity, hlinked.symm.integrity⟩

theorem synchronized_established (iss irs : Seq) :
    Synchronized (established iss irs) (established irs iss) :=
  ⟨rfl, rfl, rfl, rfl, rfl, rfl, rfl, rfl, rfl, rfl, by simp [established], rfl⟩

/-- A text segment of `established 100 500`, as it is on the wire. -/
def textSegment (seq : Seq) (payloadLength : ℕ) : TCPSegment :=
  { srcPort := -1, destPort := -1, sequenceNo := seq, ackNo := 501, ackBit := true, window := 100,
    payloadLength }

/-- Eight of ten bytes go out in two segments; the second one arrives first, and twice. -/
def reorderedRun : List (Party × Action) :=
  [(.left, .send 10), (.right, .deliver (textSegment 105 4)), (.right, .deliver (textSegment 105 4)),
    (.right, .deliver (textSegment 101 4)), (.left, .retransmitOneSegment)]

theorem stream_integrity_on_reorderedRun :
    ∃ l, run step ⟨established 100 500, established 500 100⟩ reorderedRun = .ok l ∧
      l.right.deliveredBytes = 8 ∧ Integrity l.left l.right ∧ Integrity l.right l.left := by
  have hstart : Reachable (fun l : Link ↦ Synchronized l.left l.right ∧ Synchronized l.right l.left)
      allowed step ⟨established 100 500, established 500 100⟩ :=
    .start ⟨synchronized_established 100 500, synchronized_established 500 100⟩
  exact ⟨_, rfl, rfl, stream_integrity (hstart.of_run reorderedRun (by decide +kernel) rfl)⟩

end Runs

end Link

end InetManet.TCP
