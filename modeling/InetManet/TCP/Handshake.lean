import InetManet.TCP.ReceiveFrame

/-!
# The send space during connection setup

While our SYN is not acknowledged, `snd_una` is our initial sequence number, `snd_nxt` and `snd_max`
are one after it, and so is the start of the send queue. This module says what the functions of the
connection setup do to a connection in this position.
-/

namespace InetManet.TCP

open TransitionSystem SerialNumber

namespace TCPConnection

/-- FSM state, our own FIN and what is known of the peer's FIN are unchanged. -/
structure Kept (c c' : TCPConnection) : Prop extends SamePeerFin c c' where
  fsm : c'.fsm = c.fsm
  active : c'.active = c.active
  sendFinFlag : c'.sendFinFlag = c.sendFinFlag
  sndFinSeq : c'.sndFinSeq = c.sndFinSeq
  persist : .persist ∈ c'.timers → .persist ∈ c.timers

section Kept

variable {c c' c'' : TCPConnection}

protected theorem Kept.refl (c : TCPConnection) : Kept c c := ⟨⟨rfl, id⟩, rfl, rfl, rfl, rfl, id⟩

protected theorem Kept.trans (h : Kept c c') (h' : Kept c' c'') : Kept c c'' :=
  ⟨h.toSamePeerFin.trans h'.toSamePeerFin, h'.fsm.trans h.fsm, h'.active.trans h.active,
    h'.sendFinFlag.trans h.sendFinFlag, h'.sndFinSeq.trans h.sndFinSeq,
    fun ht ↦ h.persist (h'.persist ht)⟩

theorem Inert.kept (h : Inert False c c') : Kept c c' :=
  ⟨h.peer id, h.fsm, h.active, h.sendFinFlag, h.sndFinSeq, (h.timers _ rfl).mp⟩

theorem Sends.kept (h : Sends c c') : Kept c c' :=
  ⟨⟨h.finRcvd, (h.mem_log_iff fun _ ↦ by simp).mp⟩, h.fsm, h.active, h.sendFinFlag,
    h.sndFinSeq, (h.timers _ (by decide) (by decide)).mp⟩

theorem AckPost.kept {seg : TCPSegment} {u m e : ℕ} (h : AckPost c seg u m e c') : Kept c c' := by
  obtain ⟨u', n', m', -, -, -, -, -, hemits, -⟩ := h.vars
  refine ⟨⟨congrArg (·.finRcvd) h.frame, fun hc ↦ ?_⟩, congrArg (·.fsm) h.frame,
    congrArg (·.active) h.frame, congrArg (·.sendFinFlag) h.frame,
    congrArg (·.sndFinSeq) h.frame, (h.timers _ (by decide) (by decide)).mp⟩
  rcases hemits _ hc with hc | ⟨_, _, hc, -⟩
  · exact hc
  · cases hc

end Kept

/-! ## Before our SYN is acknowledged -/

/-- Our initial sequence number is at `i`; the queue holds what has been sent to it since. -/
structure Opening (c : TCPConnection) (i e : ℕ) : Prop where
  una : c.sndUna = BitVec.ofNat 32 i
  iss : c.iss = BitVec.ofNat 32 i
  beginSeq : c.sendQueue.beginSeq = BitVec.ofNat 32 (i + 1)
  endSeq : c.sendQueue.endSeq = BitVec.ofNat 32 e
  le : i + 1 ≤ e
  room : e + 1 ≤ i + 2 ^ 31
  fin : c.FinOrder (i + 1) (i + 1) e
  unsent : ¬ c.finSent
  timers : ∀ t, sendsData t = true → t ∉ c.timers

/-- Our SYN has been sent and is not acknowledged. -/
structure SetupOrder (c : TCPConnection) (i e : ℕ) : Prop extends Opening c i e where
  nxt : c.sndNxt = BitVec.ofNat 32 (i + 1)
  max : c.sndMax = BitVec.ofNat 32 (i + 1)

/-- Nothing has been sent that would have to be retransmitted, and no FIN. -/
structure Unopened (c : TCPConnection) : Prop where
  unsent : ¬ c.finSent
  timers : ∀ t, sendsData t = true → t ∉ c.timers

section Setup

variable {fin : Prop} {c c' : TCPConnection} {i e : ℕ}

theorem Inert.opening (h : Inert fin c c') (ho : Opening c i e) : Opening c' i e :=
  ⟨h.sndUna.trans ho.una, h.iss.trans ho.iss, h.sendQueue ▸ ho.beginSeq, h.sendQueue ▸ ho.endSeq,
    ho.le, ho.room, h.finOrder.mpr ho.fin, h.finSent.not.mpr ho.unsent,
    fun t ht ↦ (h.timers t ht).not.mpr (ho.timers t ht)⟩

theorem Inert.setupOrder (h : Inert fin c c') (hs : SetupOrder c i e) : SetupOrder c' i e :=
  ⟨h.opening hs.toOpening, h.sndNxt.trans hs.nxt, h.sndMax.trans hs.max⟩

theorem Inert.unopened (h : Inert fin c c') (hu : Unopened c) : Unopened c' :=
  ⟨h.finSent.not.mpr hu.unsent, fun t ht ↦ (h.timers t ht).not.mpr (hu.timers t ht)⟩

theorem Opening.unopened (h : Opening c i e) : Unopened c := ⟨h.unsent, h.timers⟩

theorem Unopened.congr (h : Unopened c) (hlog : c'.log = c.log) (htimers : c'.timers = c.timers) :
    Unopened c' :=
  ⟨by rw [finSent, hlog]; exact h.unsent, htimers ▸ h.timers⟩

/-- `selectInitialSeqNum` empties the queue, so that a `send_fin` from before has no effect. -/
theorem Unopened.selectInitialSeqNum (h : Unopened c) (isn : Seq) :
    Opening (c.selectInitialSeqNum isn) isn.toNat (isn.toNat + 1) := by
  have hisn : isn = BitVec.ofNat 32 isn.toNat := by simp
  refine ⟨hisn, hisn, ?_, ?_, le_rfl, by omega, .inr (.inr ⟨rfl, rfl⟩), h.unsent, h.timers⟩
  · exact (congrArg (· + 1) hisn).trans (ofNat_add_one _)
  · exact (congrArg (· + 1) hisn).trans (ofNat_add_one _)

theorem kept_selectInitialSeqNum (c : TCPConnection) (isn : Seq) :
    Kept c (c.selectInitialSeqNum isn) :=
  ⟨⟨rfl, id⟩, rfl, rfl, rfl, rfl, id⟩

theorem Opening.sendSyn (h : Opening c i e) {seg : TCPSegment} (hseg : seg.finBit = false) :
    SetupOrder ({ c with sndMax := c.iss + 1, sndNxt := c.iss + 1 }.sendToIP seg) i e := by
  have hemit : Inert False { c with sndMax := c.iss + 1, sndNxt := c.iss + 1 } _ :=
    inert_emit _ (o := .toIP { seg with srcPort := c.localPort, destPort := c.remotePort })
      (fun _ h ↦ by cases h; exact hseg) (.inr nofun)
  have hiss : c.iss + 1 = BitVec.ofNat 32 (i + 1) := by rw [h.iss, ofNat_add_one]
  exact hemit.setupOrder
    ⟨⟨h.una, h.iss, h.beginSeq, h.endSeq, h.le, h.room, h.fin, h.unsent, h.timers⟩, hiss, hiss⟩

theorem kept_sendSyn (c : TCPConnection) (nxt : Seq) (seg : TCPSegment) :
    Kept c ({ c with sndMax := nxt, sndNxt := nxt }.sendToIP seg) :=
  (((c.sends_setMax nxt).trans (sends_setNxt _ nxt)).trans (sends_sendToIP _ seg)).kept

theorem foreignSocketUnspecified_not_isSendAssertion :
    ¬ Fault.IsSendAssertion .foreignSocketUnspecified := by
  rintro (h | h | h | h) <;> cases h

/-- Our SYN has been sent from `c`. -/
def SynSentFrom (c c' : TCPConnection) : Prop :=
  Kept c c' ∧ ∀ i e, Opening c i e → SetupOrder c' i e

theorem sendSyn_post (c : TCPConnection) :
    Outcome c.sendSyn (SynSentFrom c) (¬ Fault.IsSendAssertion ·) :=
  Outcome.ite (fun _ ↦ foreignSocketUnspecified_not_isSendAssertion) fun _ ↦
    Outcome.ite (fun _ ↦ foreignSocketUnspecified_not_isSendAssertion) fun _ ↦
      ⟨c.kept_sendSyn _ _, fun _ _ h ↦ h.sendSyn rfl⟩

theorem synSentFrom_sendSynAck (c : TCPConnection) : SynSentFrom c c.sendSynAck :=
  ⟨c.kept_sendSyn _ _, fun _ _ h ↦ h.sendSyn rfl⟩

theorem sendInitialSyn_post (h : Unopened c) (isn : Seq) :
    Outcome (c.sendInitialSyn isn)
      (fun c' ↦ SetupOrder c' isn.toNat (isn.toNat + 1) ∧ Kept c c')
      (¬ Fault.IsSendAssertion ·) := by
  refine (sendSyn_post (c.selectInitialSeqNum isn)).bind fun c₁ h₁ ↦ ?_
  refine Outcome.bind (Q := Inert False c₁) c₁.startSynRexmitTimer_inert fun c₂ h₂ ↦ ?_
  refine (h₂.then (c₂.scheduleTimeout_inert rfl)).post fun c₃ h₃ ↦ ?_
  exact ⟨h₃.setupOrder (h₁.2 _ _ (h.selectInitialSeqNum isn)),
    ((c.kept_selectInitialSeqNum isn).trans h₁.1).trans h₃.kept⟩

theorem SetupOrder.enqueueAppData (h : SetupOrder c i e) {byteLength : ℕ}
    (hflag : c.sendFinFlag = false) (hroom : e + byteLength + 1 ≤ i + 2 ^ 31) :
    SetupOrder (c.enqueueAppData byteLength) i (e + byteLength) := by
  have hle := h.le
  refine ⟨⟨h.una, h.iss, h.beginSeq, ?_, by omega, hroom, .inr (.inl ⟨hflag, by omega⟩), h.unsent,
    h.timers⟩, h.nxt, h.max⟩
  show c.sendQueue.endSeq + BitVec.ofNat 32 byteLength = _
  rw [h.endSeq, BitVec.ofNat_add]

theorem SetupOrder.markFin (h : SetupOrder c i e)
    (hne : c.sndMax ≠ c.sendQueue.getBufferEndSeq) : SetupOrder c.markFin i e := by
  have hne' : i + 1 ≠ e := by
    rintro rfl
    exact hne (h.max.trans h.endSeq.symm)
  exact ⟨⟨h.una, h.iss, h.beginSeq, h.endSeq, h.le, h.room, .inl ⟨rfl, h.endSeq, hne'⟩, h.unsent,
    h.timers⟩, h.nxt, h.max⟩

theorem internalError_not_isSendAssertion (t : Timer) :
    ¬ Fault.IsSendAssertion (.internalError t) := by
  rintro (h | h | h | h) <;> cases h

theorem resendSyn_post (c : TCPConnection) :
    Outcome c.resendSyn (fun c' ↦ SynSentFrom c c' ∧ InSetup c.fsm) (¬ Fault.IsSendAssertion ·) := by
  unfold resendSyn
  split <;> rename_i hs
  · exact c.sendSyn_post.post fun c' h ↦ ⟨h, .inl hs⟩
  · exact ⟨c.synSentFrom_sendSynAck, .inr hs⟩
  · exact internalError_not_isSendAssertion _

theorem processTimeoutSynRexmit_post (c : TCPConnection) :
    Outcome c.processTimeoutSynRexmit
      (fun r ↦ Kept c r.1 ∧ (r.2 = .abort ∧ Inert False c r.1 ∨
        r.2 = .ignore ∧ InSetup c.fsm ∧ ∀ i e, SetupOrder c i e → SetupOrder r.1 i e))
      (¬ Fault.IsSendAssertion ·) := by
  have hcount : Inert False c { c with synRexmitCount := c.synRexmitCount + 1 } :=
    c.inert_of_side rfl rfl rfl (.inr rfl)
  refine Outcome.ite (fun _ ↦ ⟨hcount.kept, .inl ⟨rfl, hcount⟩⟩) fun _ ↦ ?_
  refine (resendSyn_post _).bind fun c₁ h₁ ↦ ?_
  refine Outcome.bind (Q := Inert False c₁) (c₁.scheduleTimeout_inert rfl) fun c₂ h₂ ↦ ?_
  exact ⟨(hcount.kept.trans h₁.1.1).trans h₂.kept, .inr ⟨rfl, h₁.2, fun i e h ↦
    h₂.setupOrder (h₁.1.2 i e (hcount.opening h.toOpening))⟩⟩

/-! ## Our SYN is acknowledged -/

/-- Between our initial sequence number and `snd_nxt` there is only our SYN. -/
theorem position_of_synAck {ack : Seq} (hlow : seqLE ack (BitVec.ofNat 32 i) = false)
    (hhigh : seqGreater ack (BitVec.ofNat 32 (i + 1)) = false) : ack = BitVec.ofNat 32 (i + 1) := by
  have hack := eq_ofNat_add ack i
  generalize hd : (ack - BitVec.ofNat 32 i).toNat = d at hack
  have hd' : d < 2 ^ 32 := hd ▸ (ack - BitVec.ofNat 32 i).isLt
  rw [hack] at hlow hhigh ⊢
  rcases Nat.lt_or_ge d 1 with hlt | hge
  · obtain rfl : d = 0 := by omega
    simp [seqLE] at hlow
  · rcases Nat.lt_or_ge 1 d with hgt | hle
    · have hup := toNat_ofNat_sub_ofNat (w := 32) (a := i + 1) (b := i + d) (by omega) (by omega)
      have hdown := toNat_ofNat_sub_ofNat_of_lt (w := 32) (a := i + d) (b := i) (by omega) (by omega)
      have hne : BitVec.ofNat 32 (i + d) ≠ BitVec.ofNat 32 (i + 1) := fun heq ↦ by
        have := (ofNat_inj (by omega) (by omega)).mp heq
        omega
      simp only [seqLE, hdown, decide_eq_false_iff_not, not_lt] at hlow
      simp [seqGreater, hup, hne] at hhigh
      omega
    · obtain rfl : d = 1 := by omega
      rfl

theorem position_of_synRcvd_ack {ack : Seq} (hlow : seqLE (BitVec.ofNat 32 i) ack = true)
    (hhigh : seqLE ack (BitVec.ofNat 32 (i + 1)) = true) (hne : ack ≠ BitVec.ofNat 32 i) :
    ack = BitVec.ofNat 32 (i + 1) := by
  have hack := eq_ofNat_add ack i
  simp only [seqLE, decide_eq_true_eq] at hlow
  generalize (ack - BitVec.ofNat 32 i).toNat = d at hack hlow
  rw [hack, seqLE_ofNat (by omega) (by omega), decide_eq_true_eq] at hhigh
  rw [hack] at hne ⊢
  rcases Nat.lt_or_ge d 1 with hlt | hge
  · obtain rfl : d = 0 := by omega
    exact absurd rfl hne
  · congr
    omega

theorem SetupOrder.established (h : SetupOrder c i e)
    (huna : c'.sndUna = BitVec.ofNat 32 (i + 1)) (hkey : c'.sendKey.2 = c.sendKey.2) :
    SendCore c' (i + 1) (i + 1) (i + 1) e := by
  have hle := h.le
  have hroom := h.room
  simp only [sendKey, Prod.mk.injEq] at hkey
  obtain ⟨hnxt, hmax, hend, hflag, hseq, hlog⟩ := hkey
  refine ⟨⟨huna, hnxt.trans h.nxt, hmax.trans h.max, hend.trans h.endSeq, le_rfl, le_rfl, by omega,
    ?_, ?_⟩, by omega, fun _ ↦ by omega⟩
  · rw [FinOrder, hflag, hseq]
    exact h.fin
  · rw [finSent, hlog]
    exact iff_of_false h.unsent (by omega)

/-- The ACK of our SYN in SYN_RCVD. A `send_fin` from an earlier passive open can take it for the
ACK of our FIN. -/
theorem advanceSndUna_synRcvd (h : SetupOrder c i e) {seg : TCPSegment}
    (hack : seg.ackNo = BitVec.ofNat 32 (i + 1)) :
    Outcome (c.advanceSndUna seg)
      (fun c' ↦ SendCore c' (i + 1) (i + 1) (i + 1) e ∧ Kept c c' ∧
        (c.acksOurFin seg = false → c'.Held (i + 1) e))
      (fun f ↦ c.acksOurFin seg = false → ¬ f.IsSendAssertion) := by
  have hle := h.le
  have hroom := h.room
  have hnxt : (if seqLess c.sndNxt seg.ackNo then seg.ackNo else c.sndNxt) = c.sndNxt := by
    rw [hack, h.nxt]
    simp [seqLess]
  unfold advanceSndUna
  generalize hq : (if c.acksOurFin seg then seg.ackNo - 1 else seg.ackNo) = q
  rw [discardUpTo_eq]
  refine Outcome.bind (Q := (· = (c.moveSndUna seg).setBegin q)) ?_ ?_
  · refine Outcome.bind (Q := fun _ ↦ True) (outcome_check (fun _ ↦ trivial) ?_) fun _ _ ↦ rfl
    intro _ hcheck hfin
    have hb : (c.moveSndUna seg).sendQueue.beginSeq = BitVec.ofNat 32 (i + 1) := h.beginSeq
    have he : (c.moveSndUna seg).sendQueue.endSeq = BitVec.ofNat 32 e := h.endSeq
    rw [hfin, if_neg (by simp), hack] at hq
    rw [hb, he, ← hq, seqLE_ofNat (by omega) (by omega), seqLE_ofNat (by omega) (by omega)] at hcheck
    simp [hle] at hcheck
  · rintro c₁ rfl
    obtain ⟨hkey, hcore, hqueue, htimers⟩ := updateSendWindow_key ((c.moveSndUna seg).setBegin q) seg
    have hlog : (((c.moveSndUna seg).setBegin q).updateSendWindow seg).log = c.log := by
      simp only [sendKey, Prod.mk.injEq] at hkey
      exact hkey.2.2.2.2.2.2
    refine ⟨h.established ((congrArg (·.1) hkey).trans hack) ?_,
      ⟨⟨congrArg (·.finRcvd) hcore, fun hc ↦ hlog ▸ hc⟩, congrArg (·.fsm) hcore,
        congrArg (·.active) hcore, congrArg (·.sendFinFlag) hcore,
        congrArg (·.sndFinSeq) hcore, fun ht ↦ by rwa [htimers] at ht⟩,
      fun hfin ↦ ?_⟩
    · rw [hkey, sendKey, sendKey]
      simp only [Prod.mk.injEq]
      exact ⟨hnxt, rfl, rfl, rfl, rfl, rfl⟩
    · rw [hfin, if_neg (by simp)] at hq
      rw [Held, hqueue, min_eq_left hle, ← hack]
      exact hq.symm

theorem processAckInEstabEtc_synRcvd (h : SetupOrder c i e) {seg : TCPSegment}
    (hack : seg.ackNo = BitVec.ofNat 32 (i + 1)) :
    Outcome (c.processAckInEstabEtc seg)
      (fun r ↦ r.1 = true ∧ Kept c r.2 ∧ ∃ n' m', SendVars r.2 (i + 1) n' m' e ∧
        (i + 1 < m' → n' = m') ∧ (c.acksOurFin seg = false → r.2.Held (i + 1) e))
      (fun f ↦ c.acksOurFin seg = false → ¬ f.IsSendAssertion) := by
  have hnew : seqGE c.sndUna seg.ackNo = false := by
    rw [h.una, hack, seqGE_ofNat (by omega) (by omega)]
    simp
  have hold : seqLE seg.ackNo c.sndMax = true := by
    rw [h.max, hack, seqLE_ofNat (by omega) (by omega)]
    simp
  unfold processAckInEstabEtc
  rw [if_neg (by simp [hnew]), if_pos hold]
  refine (advanceSndUna_synRcvd h hack).bind ?_
  rintro c₁ ⟨hcore, hkept, hheld⟩
  refine Outcome.bind ((receivedDataAck_post hcore).mono (fun _ h ↦ h)
    fun f hf hfin ↦ hf (hheld hfin)) ?_
  rintro c₂ ⟨hs, n', m', hv, -, hnew', -⟩
  have hdup : Kept c₂ { c₂ with dupacks := 0 } := ⟨⟨rfl, id⟩, rfl, rfl, rfl, rfl, id⟩
  exact ⟨rfl, (hkept.trans hs.kept).trans hdup, n', m', hv.congr rfl rfl id,
    fun hlt ↦ (hnew' hlt).2, fun hfin ↦ hs.held.mpr (hheld hfin)⟩

theorem acknowledgeSyn_ack (h : SetupOrder c i e) {seg : TCPSegment} (hbit : seg.ackBit = true)
    (hack : seg.ackNo = BitVec.ofNat 32 (i + 1)) :
    ∃ c', c.acknowledgeSyn seg = .ok c' ∧ SendVars c' (i + 1) (i + 1) (i + 1) e ∧
      c'.Held (i + 1) e ∧ Kept c c' ∧ c'.iss = c.iss := by
  have hle := h.le
  have hroom := h.room
  have hin : (seqLE { c with sndUna := seg.ackNo }.sendQueue.beginSeq seg.ackNo &&
      seqLE seg.ackNo { c with sndUna := seg.ackNo }.sendQueue.endSeq) = true := by
    show (seqLE c.sendQueue.beginSeq _ && seqLE _ c.sendQueue.endSeq) = true
    rw [h.beginSeq, h.endSeq, hack, seqLE_ofNat (by omega) (by omega),
      seqLE_ofNat (by omega) (by omega)]
    simp [hle]
  refine ⟨({ c with sndUna := seg.ackNo }.setBegin seg.ackNo).setSendWindow seg seg.ackNo, ?_,
    ⟨h.established hack rfl, fun _ ht ↦ absurd ht (h.timers _ rfl)⟩, ?_,
    ⟨⟨rfl, id⟩, rfl, rfl, rfl, rfl, id⟩, rfl⟩
  · rw [acknowledgeSyn, if_pos hbit, discardUpTo_eq, hin, check_true]
    rfl
  · rw [Held, min_eq_left hle]
    exact hack

end Setup

/-! ## State transitions -/

section Transitions

variable {c c' : TCPConnection} {i e : ℕ}

theorem SetupOrder.goto (h : SetupOrder c i e) (s : TcpState) : SetupOrder (c.goto s) i e :=
  ⟨⟨h.una, h.iss, h.beginSeq, h.endSeq, h.le, h.room, h.fin, h.unsent, h.timers⟩, h.nxt, h.max⟩

variable (h : Entered c c')

include h

theorem Entered.finSent : c'.finSent ↔ c.finSent := by
  rw [TCPConnection.finSent, TCPConnection.finSent, h.log]

theorem Entered.unopened (hu : Unopened c) : Unopened c' :=
  ⟨h.finSent.not.mpr hu.unsent, fun t hd ht ↦ hu.timers t hd (h.timers t ht)⟩

theorem Entered.sendKey : c'.sendKey = c.sendKey := congrArg (·.sendKey) h.rest

theorem Entered.sendVars {u n m : ℕ} (hv : SendVars c u n m e) :
    SendVars c' u n m e :=
  hv.congr h.sendKey (congrArg (·.tcpAlgorithmClass) h.rest) (h.timers _)

theorem Entered.setupOrder (hs : SetupOrder c i e) : SetupOrder c' i e := by
  have hkey := h.sendKey
  have hqueue : c'.sendQueue = c.sendQueue := congrArg (·.sendQueue) h.rest
  have hiss : c'.iss = c.iss := congrArg (·.iss) h.rest
  simp only [TCPConnection.sendKey, Prod.mk.injEq] at hkey
  obtain ⟨huna, hnxt, hmax, -, hflag, hseq, -⟩ := hkey
  refine ⟨⟨huna.trans hs.una, hiss.trans hs.iss, hqueue ▸ hs.beginSeq, hqueue ▸ hs.endSeq, hs.le,
    hs.room, ?_, h.finSent.not.mpr hs.unsent, fun t hd ht ↦ hs.timers t hd (h.timers t ht)⟩,
    hnxt.trans hs.nxt, hmax.trans hs.max⟩
  rw [FinOrder, hflag, hseq]
  exact hs.fin

end Transitions

/-! ## Segments in LISTEN and SYN_SENT -/

section Segments

variable {c : TCPConnection} {i e : ℕ}

theorem processSegmentInListen_post (h : Unopened c) (seg : TCPSegment) (srcAddr destAddr : ℕ)
    (isn : Seq) :
    Outcome (c.processSegmentInListen seg srcAddr destAddr isn)
      (fun r ↦ Kept c r.1 ∧ (r.2 = .ignore ∧ Unopened r.1 ∨
        r.2 = .rcvSyn ∧ SetupOrder r.1 isn.toNat (isn.toNat + 1))) (¬ Fault.IsSendAssertion ·) := by
  refine Outcome.ite (fun _ ↦ ⟨.refl c, .inl ⟨rfl, h⟩⟩) fun _ ↦ Outcome.ite (fun _ ↦ ?_)
    fun _ ↦ Outcome.ite (fun _ ↦ ?_) fun _ ↦ ⟨.refl c, .inl ⟨rfl, h⟩⟩
  · have hrst : Inert False c (c.sendRstTo seg.ackNo seg.destPort seg.srcPort) :=
      c.inert_sendRstTo _ _ _
    exact ⟨hrst.kept, .inl ⟨rfl, hrst.unopened h⟩⟩
  · dsimp only
    have hsyn : Inert False c ((c.updateSockPair destAddr srcAddr seg.srcPort).receiveSyn seg) :=
      c.inert_of_side rfl rfl rfl (.inr rfl)
    have hselect := (hsyn.unopened h).selectInitialSeqNum isn
    have hkept := hsyn.kept.trans (kept_selectInitialSeqNum _ isn)
    generalize ((c.updateSockPair destAddr srcAddr seg.srcPort).receiveSyn seg).selectInitialSeqNum
      isn = c₁ at hselect hkept
    have hwindow : Inert False c₁ (c₁.setSendWindow seg isn) :=
      inert_of_side _ rfl rfl rfl (.inr rfl)
    have hsent := synSentFrom_sendSynAck (c₁.setSendWindow seg isn)
    have hsetup := hsent.2 _ _ (hwindow.opening hselect)
    have hkept' := (hkept.trans hwindow.kept).trans hsent.1
    generalize (c₁.setSendWindow seg isn).sendSynAck = c₂ at hsetup hkept'
    refine Outcome.bind (Q := Inert False c₂) c₂.startSynRexmitTimer_inert fun c₃ h₃ ↦ ?_
    refine Outcome.bind (Q := Inert False c₃) c₃.startConnEstabTimer_inert fun c₄ h₄ ↦ ?_
    have h₅ := (h₃.trans h₄).trans (c₄.inert_queueTextOfSyn seg)
    exact ⟨hkept'.trans h₅.kept, .inr ⟨rfl, h₅.setupOrder hsetup⟩⟩

/-- A SYN+ACK establishes the connection, a SYN makes it a simultaneous open. -/
theorem processSegmentInSynSent_post (h : SetupOrder c i e) (seg : TCPSegment)
    (srcAddr destAddr : ℕ) :
    Outcome (c.processSegmentInSynSent seg srcAddr destAddr)
      (fun r ↦ Kept c r.1 ∧ (r.2 = .rcvRst ∨ (r.2 = .ignore ∨ r.2 = .rcvSyn) ∧ SetupOrder r.1 i e ∨
        r.2 = .rcvSynAck ∧ ∃ n' m', SendVars r.1 (i + 1) n' m' e ∧ r.1.Held (i + 1) e))
      (¬ Fault.IsSendAssertion ·) := by
  refine Outcome.ite (fun _ ↦ ?_) fun hrange ↦ Outcome.ite (fun _ ↦ ?_) fun _ ↦
    Outcome.ite (fun _ ↦ ?_) fun _ ↦ ⟨.refl c, .inr (.inl ⟨.inl rfl, h⟩)⟩
  · have hrst : Inert False c (c.sendRstTo seg.ackNo seg.destPort seg.srcPort) :=
      c.inert_sendRstTo _ _ _
    exact ⟨hrst.kept, .inr (.inl ⟨.inl rfl, hrst.setupOrder h⟩)⟩
  · split
    · have hind : Inert False c (c.sendIndicationToApp .connectionReset) :=
        c.inert_sendIndicationToApp _ (by decide)
      exact ⟨hind.kept, .inl rfl⟩
    · exact ⟨.refl c, .inr (.inl ⟨.inl rfl, h⟩)⟩
  · dsimp only
    have hsyn : Inert False c (c.receiveSyn seg) := c.inert_of_side rfl rfl rfl (.inr rfl)
    have h₁ := hsyn.setupOrder h
    have hkept := hsyn.kept
    generalize c.receiveSyn seg = c₁ at h₁ hkept
    cases hbit : seg.ackBit with
    | true =>
      simp only [hbit, Bool.true_and, Bool.or_eq_true, not_or, Bool.not_eq_true, h.iss, h.nxt]
        at hrange
      have hack := position_of_synAck hrange.1 hrange.2
      obtain ⟨c₂, hc₂, hv, hheld, hkept₂, hiss⟩ := acknowledgeSyn_ack h₁ hbit hack
      rw [hc₂, ok_bind]
      have hpair : Inert False c₂ (c₂.updateSockPair destAddr srcAddr seg.srcPort) :=
        inert_of_side _ rfl rfl rfl (.inr rfl)
      have hnew : seqGreater (c₂.updateSockPair destAddr srcAddr seg.srcPort).sndUna
          (c₂.updateSockPair destAddr srcAddr seg.srcPort).iss = true := by
        have hi : (c₂.updateSockPair destAddr srcAddr seg.srcPort).iss = BitVec.ofNat 32 i :=
          hiss.trans h₁.iss
        rw [hpair.sndUna, hv.una, hi, seqGreater_ofNat (by omega) (by omega)]
        simp
      rw [if_pos hnew]
      have htext := hpair.trans (inert_acceptTextOfSynAck _ seg)
      refine Outcome.bind ((algEstablished_post (htext.sendVars hv) true).mono (fun _ h ↦ h)
        fun f hf ↦ hf (htext.held.mpr hheld)) ?_
      rintro c₄ ⟨hsends, n', m', hv₄, -, -⟩
      have hind : Inert False c₄ c₄.sendEstabIndicationToApp :=
        c₄.inert_sendIndicationToApp .established (by decide)
      exact ⟨((hkept.trans hkept₂).trans htext.kept).trans (hsends.kept.trans hind.kept),
        .inr (.inr ⟨rfl, n', m', hind.sendVars hv₄,
          hind.held.mpr (hsends.held.mpr (htext.held.mpr hheld))⟩)⟩
    | false =>
      have hnone : c₁.acknowledgeSyn seg = .ok c₁ := by simp [acknowledgeSyn, hbit]
      rw [hnone, ok_bind]
      have hpair : Inert False c₁ (c₁.updateSockPair destAddr srcAddr seg.srcPort) :=
        inert_of_side _ rfl rfl rfl (.inr rfl)
      have h₂ := hpair.setupOrder h₁
      have hkept₂ := hkept.trans hpair.kept
      generalize c₁.updateSockPair destAddr srcAddr seg.srcPort = c₂ at h₂ hkept₂
      have hold : seqGreater c₂.sndUna c₂.iss = false := by
        rw [h₂.una, h₂.iss]
        simp [seqGreater]
      rw [if_neg (by simp [hold])]
      have hreset : Kept c₂ { c₂ with sndMax := c₂.iss, sndNxt := c₂.iss } :=
        ⟨⟨rfl, id⟩, rfl, rfl, rfl, rfl, id⟩
      have hopen : Opening { c₂ with sndMax := c₂.iss, sndNxt := c₂.iss } i e :=
        ⟨h₂.una, h₂.iss, h₂.beginSeq, h₂.endSeq, h₂.le, h₂.room, h₂.fin, h₂.unsent, h₂.timers⟩
      have hsent := synSentFrom_sendSynAck { c₂ with sndMax := c₂.iss, sndNxt := c₂.iss }
      have h₃ := hsent.2 i e hopen
      have hkept₃ := (hkept₂.trans hreset).trans hsent.1
      generalize { c₂ with sndMax := c₂.iss, sndNxt := c₂.iss }.sendSynAck = c₃ at h₃ hkept₃
      refine Outcome.bind (Q := Inert False c₃) c₃.startSynRexmitTimer_inert fun c₄ h₄ ↦ ?_
      have h₅ := h₄.trans (c₄.inert_queueTextOfSyn seg)
      exact ⟨hkept₃.trans h₅.kept, .inr (.inl ⟨.inr rfl, h₅.setupOrder h₃⟩)⟩

end Segments

end TCPConnection

end InetManet.TCP
