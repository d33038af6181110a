import InetManet.TCP.Handshake

/-!
# The send sequence variables over whole runs

From ESTABLISHED on, the start of the send queue, `snd_una`, `snd_nxt`, `snd_max` and the end of the
queue are in this order, and the assertions that depend on it hold. Before that, `snd_una` is our
initial sequence number and the queue starts one after it.

Six kinds of events break the order or an assertion and are excluded by `breaksSendOrder`. The
retransmission of one segment reaches over the end of the queue when it includes our FIN. In
SYN_RCVD, an ACK that does not cover our SYN is accepted, CLOSE may send the FIN before our SYN is
acknowledged, and `send_fin` may be left over from an earlier passive open. SEND is accepted while a
FIN is waiting for data.
-/

namespace InetManet.TCP

open TransitionSystem SerialNumber

namespace TCPConnection

/-! ## The invariant -/

/-- The states from ESTABLISHED on. -/
def synchronized : TcpState → Bool
  | .established | .closeWait | .lastAck | .finWait1 | .finWait2 | .closing | .timeWait => true
  | _ => false

def Ordered (c : TCPConnection) : Prop :=
  ∃ u n m e, SendVars c u n m e ∧ e + 1 < u + 2 ^ 31 ∧ c.Held u e

/-- What the send variables satisfy in FSM state `s`. -/
def SendInvAt (s : TcpState) (c : TCPConnection) : Prop :=
  match s with
  | .init | .listen => Unopened c
  | .synSent | .synRcvd => ∃ i e, SetupOrder c i e
  | .closed => True
  | _ => c.Ordered

def SendInv (c : TCPConnection) : Prop := SendInvAt c.fsm c

/-- The outcome of an action: the connection satisfies the invariant of the state it will enter. -/
abbrev Orders (x : Except Fault (TCPConnection × TCPEventCode)) : Prop :=
  Outcome x (fun r ↦ SendInvAt (nextState r.1.active r.1.fsm r.2) r.1) (¬ Fault.IsSendAssertion ·)

section Invariant

variable {fin : Prop} {c c' : TCPConnection} {s : TcpState}

theorem Inert.ordered (h : Inert fin c c') (hc : c.Ordered) : c'.Ordered := by
  obtain ⟨u, n, m, e, hv, hroom, hheld⟩ := hc
  exact ⟨u, n, m, e, h.sendVars hv, hroom, h.held.mpr hheld⟩

theorem SendInvAt.imp (hc : SendInvAt s c) (hu : Unopened c → Unopened c')
    (hs : ∀ i e, SetupOrder c i e → SetupOrder c' i e) (ho : c.Ordered → c'.Ordered) :
    SendInvAt s c' := by
  have hsetup : (∃ i e, SetupOrder c i e) → ∃ i e, SetupOrder c' i e :=
    fun ⟨i, e, h⟩ ↦ ⟨i, e, hs i e h⟩
  cases s with
  | init => exact hu hc
  | listen => exact hu hc
  | synSent => exact hsetup hc
  | synRcvd => exact hsetup hc
  | closed => trivial
  | _ => exact ho hc

theorem Inert.sendInvAt (h : Inert fin c c') (hc : SendInvAt s c) : SendInvAt s c' :=
  hc.imp h.unopened (fun _ _ ↦ h.setupOrder) h.ordered

theorem sendInvAt_of_synchronized (hs : synchronized s = true) : SendInvAt s c ↔ c.Ordered := by
  cases s with
  | init | closed | listen | synSent | synRcvd => cases hs
  | _ => exact Iff.rfl

theorem nextState_synchronized {active : Bool} {event : TCPEventCode} (hs : synchronized s = true) :
    nextState active s event = .closed ∨ synchronized (nextState active s event) = true := by
  cases s with
  | init | closed | listen | synSent | synRcvd => cases hs
  | _ => cases event <;> first | exact .inl rfl | exact .inr rfl

theorem sendInvAt_closed (c : TCPConnection) : SendInvAt .closed c := trivial

theorem Ordered.sendInvAt {active : Bool} {event : TCPEventCode} (h : c.Ordered)
    (hs : synchronized s = true) : SendInvAt (nextState active s event) c := by
  rcases (nextState_synchronized hs : nextState active s event = .closed ∨ _) with hn | hn
  · rw [hn]
    exact sendInvAt_closed c
  · exact (sendInvAt_of_synchronized hn).mpr h

theorem Entered.sendInvAt (h : Entered c c') (hc : SendInvAt s c) : SendInvAt s c' := by
  refine hc.imp h.unopened (fun _ _ ↦ h.setupOrder) ?_
  rintro ⟨u, n, m, e, hv, hroom, hheld⟩
  have hqueue : c'.sendQueue = c.sendQueue := congrArg (·.sendQueue) h.rest
  refine ⟨u, n, m, e, h.sendVars hv, hroom, ?_⟩
  rw [Held, hqueue]
  exact hheld

theorem SendInvAt.goto (h : SendInvAt s c) (s' : TcpState) : SendInvAt s (c.goto s') := by
  refine h.imp (fun h ↦ ⟨h.unsent, h.timers⟩) (fun i e h ↦ h.goto s') ?_
  rintro ⟨u, n, m, e, hv, hroom, hheld⟩
  exact ⟨u, n, m, e, hv.congr rfl rfl id, hroom, hheld⟩

/-- An action that prepares the next state keeps the invariant through the transition. -/
theorem Orders.step {x : Except Fault (TCPConnection × TCPEventCode)} (h : Orders x) :
    Outcome (x >>= fun r ↦ r.1.performStateTransition r.2) SendInv (¬ Fault.IsSendAssertion ·) := by
  refine h.bind fun r hr ↦ ?_
  refine (r.1.performStateTransition_outcome r.2).mono ?_ ?_
  · rintro c' (⟨hs, rfl⟩ | ⟨-, he⟩)
    · rw [hs] at hr
      exact hr
    · unfold SendInv
      rw [he.fsm]
      exact he.sendInvAt (hr.goto _)
  · rintro f (rfl | rfl | rfl) (h | h | h | h) <;> cases h

end Invariant

/-! ## Segments -/

/-- The segment is processed as far as its ACK field. -/
def reachesAckField (c : TCPConnection) (seg : TCPSegment) : Bool :=
  c.isSegmentAcceptable seg && !seg.rstBit && !seg.synBit && seg.ackBit

/-- What `retransmitOneSegment` takes is empty, or includes our FIN, which is not in the queue. -/
def retransmitsFin (c : TCPConnection) : Bool :=
  c.sndMss == 0 || (c.sendFinFlag && c.sndMax == c.sndFinSeq + 1 &&
    decide ((c.sndMax - c.sndUna).toNat ≤ c.sndMss.toNat))

/-- In SYN_RCVD, the ACK does not cover our SYN, or a `send_fin` left over from an earlier passive
open takes it for the ACK of our FIN. -/
def ackMissesSyn (c : TCPConnection) (seg : TCPSegment) : Bool :=
  c.fsm == .synRcvd &&
    (seg.ackNo == c.sndUna || (seg.ackNo == c.sndNxt && c.acksOurFin seg))

instance (c : TCPConnection) : Decidable c.fastRetransmits := inferInstanceAs (Decidable (_ ∧ _))

/-- The third duplicate ACK retransmits our FIN with the segment. -/
def fastRetransmitsFin (c : TCPConnection) (seg : TCPSegment) : Bool :=
  c.fsm != .synRcvd && processesAck c.fsm && c.isDuplicateAck seg &&
    decide { c with dupacks := c.dupacks + 1 }.fastRetransmits && c.retransmitsFin

section Segments

variable {c : TCPConnection} {i e : ℕ} {seg : TCPSegment}

theorem SendCore.oneSegmentHeld {u n m : ℕ} (h : SendCore c u n m e)
    (hfin : c.retransmitsFin = false) : c.OneSegmentHeld u m e := by
  simp only [retransmitsFin, Bool.or_eq_false_iff, beq_eq_false_iff_ne] at hfin
  refine ⟨?_, fun hm ↦ ?_⟩
  · rcases Nat.eq_zero_or_pos c.sndMss.toNat with h0 | hpos
    · exact absurd (BitVec.eq_of_toNat_eq h0) hfin.1
    · exact hpos
  · rcases h.fin with ⟨hflag, hseq, -⟩ | ⟨-, hle⟩ | ⟨-, hle⟩
    · have hmax : c.sndMax = c.sndFinSeq + 1 := by rw [h.max, hm, hseq, ofNat_add_one]
      have hlen := hfin.2
      rw [h.outstanding_eq, hflag, hmax, beq_self_eq_true, Bool.true_and, Bool.true_and,
        decide_eq_false_iff_not] at hlen
      omega
    · omega
    · omega

theorem processAck_synRcvd (h : SetupOrder c i e) (hs : c.fsm = .synRcvd)
    (hack : seg.ackNo = BitVec.ofNat 32 (i + 1)) (hfin : c.acksOurFin seg = false) :
    Orders (c.processAck seg .rcvAck) := by
  rw [processAck_eq, processAckIfOpen, hs, if_pos (by rfl)]
  refine ((processAckInEstabEtc_synRcvd h hack).mono (fun _ h ↦ h) fun f hf ↦ hf hfin).bind ?_
  rintro ⟨ok, c₁⟩ ⟨hok, hkept, n', m', hv, -, hheld⟩
  dsimp only at hok hkept hv hheld
  rw [hok, if_neg (by simp)]
  refine (c₁.processAck_inert seg _ _ fun _ ↦ trivial).post ?_
  rintro ⟨c₂, event⟩ ⟨hinert, hevent⟩
  have hfsm := hkept.fsm.trans hs
  have hc₂ : c₂.Ordered := hinert.ordered ⟨i + 1, n', m', e, hv, by have := h.room; omega, hheld hfin⟩
  show SendInvAt (nextState c₂.active c₂.fsm event) c₂
  rw [hinert.fsm, hfsm]
  rcases hevent.synRcvd hfsm with rfl | rfl | rfl <;> exact hc₂

theorem processAckInSynRcvd_orders (h : SetupOrder c i e) (hs : c.fsm = .synRcvd)
    (hsyn : c.ackMissesSyn seg = false) : Orders (c.processAckInSynRcvd seg) := by
  refine Outcome.ite (fun _ ↦ ?_) fun hrange ↦ ?_
  · have hrst : Inert False c (c.sendRst seg.ackNo) := c.inert_sendRstTo _ _ _
    show SendInvAt (nextState c.active c.fsm .ignore) _
    rw [nextState_ignore, hs]
    exact ⟨i, e, hrst.setupOrder h⟩
  · simp only [Bool.or_eq_true, Bool.not_eq_true', not_or, Bool.not_eq_false, h.una, h.nxt]
      at hrange
    simp only [ackMissesSyn, hs, beq_self_eq_true, Bool.true_and, Bool.or_eq_false_iff,
      beq_eq_false_iff_ne, h.una, h.nxt] at hsyn
    have hack := position_of_synRcvd_ack hrange.1 hrange.2 hsyn.1
    have hfin : c.acksOurFin seg = false := by simpa [hack] using hsyn.2
    refine Outcome.bind (Q := Inert False c) c.algEstablished_inert fun c₁ h₁ ↦ ?_
    have h₂ : Inert False c c₁.sendEstabIndicationToApp :=
      h₁.trans (c₁.inert_sendIndicationToApp .established (by decide))
    refine processAck_synRcvd (h₂.setupOrder h) (h₂.fsm.trans hs) hack ?_
    unfold acksOurFin at hfin ⊢
    rw [h₂.sendFinFlag, h₂.sndFinSeq]
    exact hfin

theorem AckPost.ordered {c' : TCPConnection} {u m : ℕ} (h : AckPost c seg u m e c')
    (hroom : e + 1 < u + 2 ^ 31) (hheld : c.Held u e) : c'.Ordered ∧ c'.fsm = c.fsm := by
  obtain ⟨u', n', m', hv, hu, -, -, -, -, hheld', -⟩ := h.vars
  exact ⟨⟨u', n', m', e, hv, by omega, hheld' hheld⟩, h.kept.fsm⟩

theorem processAckIfOpen_ordered (h : c.Ordered) (hs : synchronized c.fsm = true)
    (hfast : c.fastRetransmitsFin seg = false) :
    Outcome (c.processAckIfOpen seg) (fun r ↦ r.2.Ordered ∧ r.2.fsm = c.fsm)
      (¬ Fault.IsSendAssertion ·) := by
  obtain ⟨u, n, m, e, hv, hroom, hheld⟩ := h
  refine Outcome.ite (fun hopen ↦ ?_) fun _ ↦ ⟨⟨u, n, m, e, hv, hroom, hheld⟩, rfl⟩
  refine (processAckInEstabEtc_post hv seg).mono (fun r hr ↦ hr.ordered hroom hheld) fun f hf ↦
    hf hheld fun hdup hretransmit ↦ hv.toSendCore.oneSegmentHeld ?_
  have hsyn : (c.fsm != .synRcvd) = true := by
    rw [bne_iff_ne]
    rintro hsyn
    rw [hsyn] at hs
    cases hs
  have hdec := decide_eq_true hretransmit
  rw [fastRetransmitsFin, hsyn, hopen, hdup, hdec] at hfast
  exact hfast

theorem processAck_orders (h : c.Ordered) (hs : synchronized c.fsm = true)
    (hfast : c.fastRetransmitsFin seg = false) : Orders (c.processAck seg .ignore) := by
  rw [processAck_eq]
  refine (processAckIfOpen_ordered h hs hfast).bind ?_
  rintro ⟨ok, c₁⟩ ⟨hordered, hfsm⟩
  dsimp only at hordered hfsm
  have hs₁ : synchronized c₁.fsm = true := hfsm ▸ hs
  refine Outcome.ite (fun _ ↦ hordered.sendInvAt hs₁) fun _ ↦ ?_
  refine (c₁.processAck_inert seg _ _ fun _ ↦ trivial).post fun r hr ↦ ?_
  exact (hr.1.ordered hordered).sendInvAt (hr.1.fsm ▸ hs₁)

theorem processRstInSynReceived_orders (h : SetupOrder c i e) (hs : c.fsm = .synRcvd) :
    Orders c.processRstInSynReceived := by
  have hle := h.le
  have hroom := h.room
  have hin : (seqLE c.sendQueue.beginSeq c.sendQueue.getBufferEndSeq &&
      seqLE c.sendQueue.getBufferEndSeq c.sendQueue.endSeq) = true := by
    have he : c.sendQueue.getBufferEndSeq = BitVec.ofNat 32 e := h.endSeq
    rw [he, h.beginSeq, h.endSeq, seqLE_ofNat (by omega) (by omega),
      seqLE_ofNat (by omega) (by omega)]
    simp [hle]
  unfold processRstInSynReceived
  rw [discardUpTo_eq, hin, check_true, ok_bind, ok_bind]
  have hunopened : Unopened (c.setBegin c.sendQueue.getBufferEndSeq) := ⟨h.unsent, h.timers⟩
  have hactive : (c.setBegin c.sendQueue.getBufferEndSeq).active = c.active := rfl
  have hfsm : (c.setBegin c.sendQueue.getBufferEndSeq).fsm = .synRcvd := hs
  generalize c.setBegin c.sendQueue.getBufferEndSeq = c₁ at hunopened hactive hfsm
  show SendInvAt (nextState (if c₁.active then _ else c₁).active
    (if c₁.active then _ else c₁).fsm .rcvRst) _
  cases ha : c₁.active with
  | true =>
    show SendInvAt (nextState c₁.active c₁.fsm .rcvRst) _
    rw [ha, hfsm]
    exact sendInvAt_closed _
  | false =>
    show SendInvAt (nextState c₁.active c₁.fsm .rcvRst) _
    rw [ha, hfsm]
    exact hunopened

theorem Inert.orders_ignore {c' : TCPConnection} (h : Inert False c c') (hc : SendInv c) :
    Orders (.ok (c', .ignore)) := by
  show SendInvAt (nextState c'.active c'.fsm .ignore) c'
  rw [nextState_ignore, h.fsm]
  exact h.sendInvAt hc

theorem processRst_orders (h : SendInv c) (hs : c.fsm = .synRcvd ∨ synchronized c.fsm = true) :
    Orders c.processRst := by
  unfold SendInv at h
  unfold processRst
  split <;> rename_i hfsm
  · rw [hfsm] at h
    obtain ⟨i, e, ho⟩ := h
    exact processRstInSynReceived_orders ho hfsm
  case h_9 | h_10 | h_11 | h_12 =>
    rcases hs with hs | hs <;> rw [hfsm] at hs <;> cases hs
  all_goals
    show SendInvAt (nextState c.active c.fsm .rcvRst) _
    rw [hfsm]
    exact sendInvAt_closed _

theorem nextState_rcvUnexpSyn (active : Bool) {s : TcpState}
    (hs : s = .synRcvd ∨ synchronized s = true) : nextState active s .rcvUnexpSyn = .closed := by
  cases s with
  | init | closed | listen | synSent => rcases hs with hs | hs <;> cases hs
  | _ => rfl

theorem processSegment1stThru8th_orders (h : SendInv c)
    (hs : c.fsm = .synRcvd ∨ synchronized c.fsm = true)
    (hsyn : c.reachesAckField seg = true → c.ackMissesSyn seg = false)
    (hfast : c.reachesAckField seg = true → c.fastRetransmitsFin seg = false) :
    Orders (c.processSegment1stThru8th seg) := by
  refine Outcome.ite (fun _ ↦ ?_) fun hacc ↦ Outcome.ite (fun _ ↦ processRst_orders h hs) fun hrst ↦
    Outcome.ite (fun _ ↦ ?_) fun hsynBit ↦ Outcome.ite (fun _ ↦ (Inert.refl c).orders_ignore h)
    fun hackBit ↦ ?_
  · refine Inert.orders_ignore ?_ h
    split
    · exact .refl c
    · exact c.inert_sendAck
  · show SendInvAt (nextState c.active c.fsm .rcvUnexpSyn) _
    rw [nextState_rcvUnexpSyn _ hs]
    exact sendInvAt_closed _
  · have hreach : c.reachesAckField seg = true := by
      simp only [Bool.not_eq_true', Bool.not_eq_false] at hacc hackBit
      simp [reachesAckField, hacc, hrst, hsynBit, hackBit]
    unfold SendInv at h
    refine Outcome.ite (fun hfsm ↦ ?_) fun hfsm ↦ ?_
    · rw [beq_iff_eq] at hfsm
      rw [hfsm] at h
      obtain ⟨i, e, ho⟩ := h
      exact processAckInSynRcvd_orders ho hfsm (hsyn hreach)
    · have hsync := hs.resolve_left fun hs ↦ hfsm (by simp [hs])
      exact processAck_orders ((sendInvAt_of_synchronized hsync).mp h) hsync (hfast hreach)

end Segments

/-! ## Segments before the connection is established -/

section Handshake

variable {c : TCPConnection} {i e : ℕ}

theorem processSegmentInListen_orders (h : Unopened c) (hs : c.fsm = .listen) (seg : TCPSegment)
    (srcAddr destAddr : ℕ) (isn : Seq) :
    Orders (c.processSegmentInListen seg srcAddr destAddr isn) := by
  refine (processSegmentInListen_post h seg srcAddr destAddr isn).post ?_
  rintro ⟨c₁, event⟩ ⟨hkept, ⟨rfl, hu⟩ | ⟨rfl, hsetup⟩⟩
  all_goals
    dsimp only
    rw [hkept.fsm, hs]
  · exact hu
  · exact ⟨_, _, hsetup⟩

theorem processSegmentInSynSent_orders (h : SetupOrder c i e) (hs : c.fsm = .synSent)
    (seg : TCPSegment) (srcAddr destAddr : ℕ) :
    Orders (c.processSegmentInSynSent seg srcAddr destAddr) := by
  refine (processSegmentInSynSent_post h seg srcAddr destAddr).post ?_
  rintro ⟨c₁, event⟩ ⟨hkept, rfl | ⟨rfl | rfl, hsetup⟩ | ⟨rfl, n', m', hv, hheld⟩⟩
  all_goals
    dsimp only
    rw [hkept.fsm, hs]
  · exact sendInvAt_closed _
  · exact ⟨i, e, hsetup⟩
  · exact ⟨i, e, hsetup⟩
  · exact ⟨i + 1, n', m', e, hv, by have := h.room; omega, hheld⟩

theorem processRcvSegment_orders (h : SendInv c) (hopen : c.fsm ≠ .closed) (hinit : c.fsm ≠ .init)
    {seg : TCPSegment} (srcAddr destAddr : ℕ) (isn : Seq)
    (hok : c.reachesAckField seg = true →
      c.ackMissesSyn seg = false ∧ c.fastRetransmitsFin seg = false) :
    Orders (c.processRcvSegment seg srcAddr destAddr isn) := by
  unfold processRcvSegment
  split <;> rename_i hs
  · unfold SendInv at h
    rw [hs] at h
    exact processSegmentInListen_orders h hs seg srcAddr destAddr isn
  · unfold SendInv at h
    rw [hs] at h
    obtain ⟨i, e, ho⟩ := h
    exact processSegmentInSynSent_orders ho hs seg srcAddr destAddr
  · refine processSegment1stThru8th_orders h ?_ (fun hr ↦ (hok hr).1) fun hr ↦ (hok hr).2
    rename_i hl
    revert hopen hinit hs hl
    cases c.fsm <;> simp [synchronized]

end Handshake

/-! ## Commands -/

/-- The states in which SEND is accepted. -/
def acceptsSend : TcpState → Bool
  | .listen | .synSent | .synRcvd | .established | .closeWait => true
  | _ => false

/-- Number of bytes in the send queue; in LISTEN the queue is set up by the SEND itself. -/
def buffered (c : TCPConnection) : ℕ :=
  if c.fsm = .listen then 0 else (c.sendQueue.endSeq - c.sendQueue.beginSeq).toNat

section Commands

variable {c : TCPConnection} {i e : ℕ}

theorem commandError_not_isSendAssertion (command : AppCommand) :
    ¬ Fault.IsSendAssertion (.commandError command) := by
  rintro (h | h | h | h) <;> cases h

theorem SetupOrder.buffered (h : SetupOrder c i e) (hs : c.fsm ≠ .listen) :
    c.buffered = e - (i + 1) := by
  have hle := h.le
  have hroom := h.room
  rw [TCPConnection.buffered, if_neg hs, h.endSeq, h.beginSeq, toNat_ofNat_sub_ofNat hle (by omega)]

theorem sendData_orders (h : c.Ordered) (hs : synchronized c.fsm = true) {byteLength : ℕ}
    (hflag : c.sendFinFlag = false)
    (hroom : (c.sendQueue.endSeq - c.sendQueue.beginSeq).toNat + byteLength ≤ 2 ^ 31 - 2) :
    Orders ((c.enqueueAppData byteLength).sendCommandInvoked >>= fun c' ↦ .ok (c', .send)) := by
  obtain ⟨u, n, m, e, hv, hvroom, hheld⟩ := h
  have hum := hv.una_le_nxt.trans hv.nxt_le_max
  have hm := hv.max_le_of_not_fin hflag
  rw [hv.endSeq, hheld, min_eq_left (by omega), toNat_ofNat_sub_ofNat (by omega) (by omega)] at hroom
  have hcore : SendCore (c.enqueueAppData byteLength) u n m (e + byteLength) :=
    hv.enqueueAppData hflag (by omega)
  have hheld' : (c.enqueueAppData byteLength).Held u (e + byteLength) := by
    unfold Held at hheld ⊢
    rw [min_eq_left (by omega)] at hheld ⊢
    exact hheld
  refine Outcome.bind ((sendCommandInvoked_post ⟨hcore, hv.rexmit⟩).mono (fun _ h ↦ h)
    fun f hf ↦ hf hheld') ?_
  rintro c₁ ⟨hsends, n', m', hv₁, -, -⟩
  exact Ordered.sendInvAt ⟨u, n', m', _, hv₁, by omega, hsends.held.mpr hheld'⟩ (hsends.fsm ▸ hs)

theorem processSend_orders (h : SendInv c) (byteLength : ℕ) (isn : Seq)
    (hflag : acceptsSend c.fsm = true → c.sendFinFlag = false)
    (hroom : c.buffered + byteLength ≤ 2 ^ 31 - 2) : Orders (c.processSend byteLength isn) := by
  unfold SendInv at h
  have hsetup : ∀ i e, SetupOrder c i e → c.fsm ≠ .listen → c.sendFinFlag = false →
      SetupOrder (c.enqueueAppData byteLength) i (e + byteLength) := by
    intro i e ho hs hf
    have hle := ho.le
    rw [ho.buffered hs] at hroom
    exact ho.enqueueAppData hf (by omega)
  unfold processSend
  split <;> rename_i hs
  · rw [hs] at h hflag
    have hu : Unopened { c with active := true } := ⟨h.unsent, h.timers⟩
    rw [buffered, if_pos hs] at hroom
    refine (sendInitialSyn_post hu isn).bind fun c₁ h₁ ↦ ?_
    show SendInvAt (nextState c₁.active c₁.fsm .send) _
    rw [h₁.2.fsm.trans hs]
    exact ⟨_, _, h₁.1.enqueueAppData (h₁.2.sendFinFlag.trans (hflag rfl)) (by omega)⟩
  · show SendInvAt (nextState c.active c.fsm .send) _
    rw [hs] at h hflag ⊢
    obtain ⟨i, e, ho⟩ := h
    exact ⟨i, _, hsetup i e ho (by simp [hs]) (hflag rfl)⟩
  · show SendInvAt (nextState c.active c.fsm .send) _
    rw [hs] at h hflag ⊢
    obtain ⟨i, e, ho⟩ := h
    exact ⟨i, _, hsetup i e ho (by simp [hs]) (hflag rfl)⟩
  case h_4 | h_5 =>
    rw [buffered, if_neg (by simp [hs])] at hroom
    rw [hs] at h hflag
    exact sendData_orders h (by rw [hs]; rfl) (hflag rfl) hroom
  all_goals exact commandError_not_isSendAssertion _

/-- In ESTABLISHED or CLOSE_WAIT, CLOSE sends the FIN or leaves it waiting for the data. -/
theorem close_orders (h : c.Ordered) (hs : synchronized c.fsm = true) :
    Orders (if c.sndMax = c.sendQueue.getBufferEndSeq then .ok (c.sendFinNow.markFin, .close)
      else .ok (c.markFin, .ignore)) := by
  obtain ⟨u, n, m, e, hv, hroom, hheld⟩ := h
  have hat := hv.toSendCore.max_eq_end
  refine Outcome.ite (fun heq ↦ ?_) fun hne ↦ ?_
  · obtain ⟨hfsm, hqueue⟩ := c.sendFinNow_frame
    refine Ordered.sendInvAt ⟨u, _, _, e, hv.sendFinNow hroom (hat.mp heq), hroom, ?_⟩ (hfsm ▸ hs)
    rw [Held, hqueue]
    exact hheld
  · exact Ordered.sendInvAt ⟨u, n, m, e, hv.markFin hroom (hat.not.mp hne), hroom, hheld⟩ hs

theorem processClose_orders (h : SendInv c)
    (hsyn : c.fsm = .synRcvd → c.sndMax ≠ c.sendQueue.getBufferEndSeq) : Orders c.processClose := by
  unfold SendInv at h
  unfold processClose
  split <;> rename_i hs
  case h_1 | h_2 =>
    show SendInvAt (nextState c.active c.fsm .close) _
    rw [hs]
    exact sendInvAt_closed _
  · rw [hs] at h
    obtain ⟨i, e, ho⟩ := h
    rw [if_neg (hsyn hs)]
    show SendInvAt (nextState c.active c.fsm .ignore) c.markFin
    rw [nextState_ignore, hs]
    exact ⟨i, e, ho.markFin (hsyn hs)⟩
  case h_4 | h_5 =>
    rw [hs] at h
    exact close_orders h (by rw [hs]; rfl)
  all_goals exact commandError_not_isSendAssertion _

theorem nextState_abort (active : Bool) {s : TcpState} (hs : s ≠ .init) :
    nextState active s .abort = .closed := by
  cases s <;> first | rfl | exact absurd rfl hs

theorem processAbort_orders (c : TCPConnection) : Orders c.processAbort := by
  unfold processAbort
  split <;> rename_i hs
  · exact commandError_not_isSendAssertion _
  case h_7 =>
    show SendInvAt (nextState c.active c.fsm .abort) _
    rw [nextState_abort _ (by assumption)]
    exact sendInvAt_closed _
  all_goals
    show SendInvAt (nextState c.active c.fsm .abort) _
    rw [hs]
    exact sendInvAt_closed _

theorem nextState_status (active : Bool) (s : TcpState) : nextState active s .status = s := by
  cases s <;> rfl

theorem processStatus_orders (h : SendInv c) : Orders c.processStatus := by
  refine Outcome.ite (fun _ ↦ commandError_not_isSendAssertion _) fun _ ↦ ?_
  have hi : Inert False c (c.sendIndicationToApp .status) :=
    c.inert_sendIndicationToApp _ (by decide)
  show SendInvAt (nextState _ (c.sendIndicationToApp .status).fsm .status) _
  rw [nextState_status, hi.fsm]
  exact hi.sendInvAt h

theorem processOpenActive_orders (h : SendInv c) (localAddr remoteAddr : ℕ)
    (localPort remotePort ephemeralPort : ℤ) (isn : Seq) :
    Orders (c.processOpenActive localAddr remoteAddr localPort remotePort ephemeralPort isn) := by
  refine Outcome.ite (fun _ ↦ commandError_not_isSendAssertion _) fun hs ↦
    Outcome.ite (fun _ ↦ commandError_not_isSendAssertion _) fun _ ↦ ?_
  rw [ne_eq, not_not] at hs
  unfold SendInv at h
  rw [hs] at h
  refine Outcome.bind (Q := fun c' ↦ (∃ i e, SetupOrder c' i e) ∧ c'.fsm = .init)
    ((sendInitialSyn_post ?_ isn).post fun c₁ h₁ ↦ ⟨⟨_, _, h₁.1⟩, h₁.2.fsm.trans hs⟩) fun c₁ h₁ ↦ ?_
  · exact Unopened.congr h rfl rfl
  · show SendInvAt (nextState c₁.active c₁.fsm .openActive) _
    rw [h₁.2]
    exact h₁.1

theorem processOpenPassive_orders (h : SendInv c) (localAddr : ℕ) (localPort : ℤ) (fork : Bool) :
    Orders (c.processOpenPassive localAddr localPort fork) := by
  refine Outcome.ite (fun _ ↦ commandError_not_isSendAssertion _) fun hs ↦
    Outcome.ite (fun _ ↦ commandError_not_isSendAssertion _) fun _ ↦ ?_
  rw [ne_eq, not_not] at hs
  unfold SendInv at h
  rw [hs] at h
  show SendInvAt (nextState _ c.fsm .openPassive) _
  rw [hs]
  exact ⟨h.unsent, h.timers⟩

end Commands

/-! ## Timers -/

/-- The expiry of the REXMIT timer retransmits one segment, and our FIN with it. -/
def timeoutRetransmitsFin (c : TCPConnection) : Bool :=
  (c.tcpAlgorithmClass == .tcpNoCongestionControl || c.tcpAlgorithmClass == .tcpTahoe) &&
    decide (c.rexmitCount < 12) && c.retransmitsFin

section Timers

variable {c : TCPConnection}

theorem SendInv.cancelEvent (h : SendInv c) {t : Timer} (ht : sendsData t = false) :
    SendInv (c.cancelEvent t) :=
  have hcancel : Inert False c (c.cancelEvent t) := c.inert_cancelEvent ht
  hcancel.sendInvAt h

theorem processTimeoutConnEstab_orders (h : SendInv c) : Orders c.processTimeoutConnEstab := by
  have hind : Inert False c (if c.active then c.sendIndicationToApp .timedOut else c) := by
    split
    · exact c.inert_sendIndicationToApp _ (by decide)
    · exact .refl c
  unfold SendInv at h
  unfold processTimeoutConnEstab
  split <;> rename_i hs
  · rw [hs] at h
    obtain ⟨i, e, ho⟩ := h
    show SendInvAt (nextState _ (if c.active then _ else c).fsm .timeoutConnEstab) _
    rw [hind.fsm, hind.active, hs]
    cases ha : c.active with
    | true => exact sendInvAt_closed _
    | false => exact ho.toOpening.unopened
  · show SendInvAt (nextState _ (if c.active then _ else c).fsm .timeoutConnEstab) _
    rw [hind.fsm, hs]
    exact sendInvAt_closed _
  · exact internalError_not_isSendAssertion _

theorem processTimeout2MSL_orders (c : TCPConnection) : Orders c.processTimeout2MSL := by
  unfold processTimeout2MSL
  split <;> rename_i hs
  · show SendInvAt (nextState c.active c.fsm .timeout2MSL) _
    rw [hs]
    exact sendInvAt_closed _
  · exact internalError_not_isSendAssertion _

theorem processTimeoutFinWait2_orders (c : TCPConnection) : Orders c.processTimeoutFinWait2 := by
  unfold processTimeoutFinWait2
  split <;> rename_i hs
  · show SendInvAt (nextState c.active c.fsm .timeoutFinWait2) _
    rw [hs]
    exact sendInvAt_closed _
  · exact internalError_not_isSendAssertion _

theorem processTimeoutSynRexmit_orders (h : SendInv c) : Orders c.processTimeoutSynRexmit := by
  refine c.processTimeoutSynRexmit_post.post ?_
  rintro ⟨c₁, event⟩ ⟨hkept, ⟨rfl, hinert⟩ | ⟨rfl, hs, hsetup⟩⟩
  all_goals
    unfold SendInv at h
    dsimp only
    rw [hkept.fsm]
  · by_cases hi : c.fsm = .init
    · rw [hi] at h ⊢
      exact hinert.unopened h
    · rw [nextState_abort _ hi]
      exact sendInvAt_closed _
  · rw [nextState_ignore]
    rcases hs with hs | hs
    all_goals
      rw [hs] at h ⊢
      obtain ⟨i, e, ho⟩ := h
      exact ⟨i, e, hsetup i e ho⟩

theorem SendInv.synchronized_of_timer (h : SendInv c) (hopen : c.fsm ≠ .closed) {t : Timer}
    (hsends : sendsData t = true) (ht : t ∈ c.timers) : synchronized c.fsm = true := by
  unfold SendInv at h
  revert h hopen
  cases c.fsm with
  | init | listen => exact fun h _ ↦ absurd ht (h.timers t hsends)
  | synSent | synRcvd => exact fun ⟨i, e, h⟩ _ ↦ absurd ht (h.timers t hsends)
  | closed => exact fun _ h ↦ absurd rfl h
  | _ => exact fun _ _ ↦ rfl

theorem SendVars.cancelEvent {u n m e : ℕ} (h : SendVars c u n m e) (t : Timer) :
    SendVars (c.cancelEvent t) u n m e :=
  h.congr rfl rfl fun ht ↦ (c.mem_cancelEvent.mp ht).1

theorem sendingTimer_orders (h : c.Ordered) (hs : synchronized c.fsm = true) {t : Timer}
    (ht : t ∈ c.timers) (hclass : c.tcpAlgorithmClass ≠ .dumbTCP)
    (hfin : t = .rexmit → c.timeoutRetransmitsFin = false) :
    Orders ((c.cancelEvent t).algProcessTimer t) := by
  obtain ⟨u, n, m, e, hv, hroom, hheld⟩ := h
  have hnot := c.not_mem_cancelEvent t
  have hne : t = .rexmit → u ≠ m := by
    rintro rfl
    exact hv.rexmit hclass ht
  refine ((algProcessTimer_post (hv.cancelEvent t) hclass hnot hne).and
    (algProcessTimer_sends _ hclass hnot)).mono ?_ fun f hf ↦ hf.1 hheld fun ht hcount hreno ↦ ?_
  · rintro ⟨c₁, event⟩ ⟨hpost, hframe⟩
    have hfsm : c₁.fsm = c.fsm := by
      rcases hframe with ⟨hsends, -⟩ | ⟨hc₁, -⟩
      · exact hsends.fsm
      · exact congrArg (·.fsm) hc₁
    have hs₁ : synchronized c₁.fsm = true := hfsm ▸ hs
    rcases hpost with habort | ⟨hsends, n', m', hv₁, -, -⟩
    · obtain rfl : event = .abort := habort
      show SendInvAt (nextState c₁.active c₁.fsm .abort) c₁
      rw [nextState_abort _ fun hi ↦ by rw [hi] at hs₁; cases hs₁]
      exact sendInvAt_closed _
    · exact Ordered.sendInvAt ⟨u, n', m', e, hv₁, hroom, hsends.held.mpr hheld⟩ hs₁
  · refine (hv.cancelEvent t).toSendCore.oneSegmentHeld ?_
    have hone : (c.tcpAlgorithmClass == .tcpNoCongestionControl ||
        c.tcpAlgorithmClass == .tcpTahoe) = true := by
      have hreno' : c.tcpAlgorithmClass ≠ .tcpReno := hreno
      revert hclass hreno'
      cases c.tcpAlgorithmClass <;> simp
    have hcount' : decide (c.rexmitCount < 12) = true := decide_eq_true hcount
    have hno := hfin ht
    rw [timeoutRetransmitsFin, hone, hcount'] at hno
    exact hno

theorem algorithmTimer_orders (h : SendInv c) (hopen : c.fsm ≠ .closed) {t : Timer}
    (ht : t ∈ c.timers) (hfin : t = .rexmit → c.timeoutRetransmitsFin = false) :
    Orders (if (c.cancelEvent t).tcpAlgorithmClass = .dumbTCP then .error .nullPointer
      else (c.cancelEvent t).algProcessTimer t) := by
  refine Outcome.ite (fun _ ↦ by rintro (h | h | h | h) <;> cases h) fun hclass ↦ ?_
  cases hsends : sendsData t with
  | true =>
    have hs := h.synchronized_of_timer hopen hsends ht
    exact sendingTimer_orders ((sendInvAt_of_synchronized hs).mp h) hs ht hclass hfin
  | false =>
    have hcancel := h.cancelEvent hsends
    unfold algProcessTimer
    split
    · cases hsends
    · cases hsends
    · cases hsends
    · exact (inert_sendAck _).orders_ignore hcancel
    · exact (Inert.refl _).orders_ignore hcancel

theorem processTimer_orders (h : SendInv c) (hopen : c.fsm ≠ .closed) {t : Timer} (ht : t ∈ c.timers)
    (hfin : t = .rexmit → c.timeoutRetransmitsFin = false) :
    Orders ((c.cancelEvent t).processTimer t) := by
  cases t with
  | the2MSL => exact processTimeout2MSL_orders _
  | connEstab => exact processTimeoutConnEstab_orders (h.cancelEvent rfl)
  | finWait2 => exact processTimeoutFinWait2_orders _
  | synRexmit => exact processTimeoutSynRexmit_orders (h.cancelEvent rfl)
  | rexmit => exact algorithmTimer_orders h hopen ht hfin
  | persist => exact algorithmTimer_orders h hopen ht hfin
  | delayedAck => exact algorithmTimer_orders h hopen ht hfin
  | keepAlive => exact algorithmTimer_orders h hopen ht hfin

end Timers

/-! ## Runs -/

/-- The events that put the send variables out of order or make an assertion fail. -/
def breaksSendOrder (c : TCPConnection) : Event → Bool
  | .send _ _ => acceptsSend c.fsm && c.sendFinFlag
  | .close => c.fsm == .synRcvd && c.sndMax == c.sendQueue.getBufferEndSeq
  | .segment seg srcAddr destAddr _ =>
      c.matchesSegment seg srcAddr destAddr && c.reachesAckField seg &&
        (c.ackMissesSyn seg || c.fastRetransmitsFin seg)
  | .timer t => t == .rexmit && c.timeoutRetransmitsFin
  | _ => false

/-- At most `2 ^ 31 - 2` bytes are buffered. -/
def fitsBuffer (c : TCPConnection) : Event → Bool
  | .send byteLength _ => decide (c.buffered + byteLength ≤ 2 ^ 31 - 2)
  | _ => true

/-- The distance of `seq` from the start of the send queue. -/
def offset (c : TCPConnection) (seq : Seq) : ℕ := (seq - c.sendQueue.beginSeq).toNat

/-- The send variables are in order, counted from the start of the queue, and `snd_max` is one
past the end of the queue exactly when our FIN has been sent. The queue starts at `snd_una`, or one
before it once our FIN is acknowledged. -/
structure SendSequence (c : TCPConnection) : Prop where
  una_le_nxt : c.offset c.sndUna ≤ c.offset c.sndNxt
  nxt_le_max : c.offset c.sndNxt ≤ c.offset c.sndMax
  max_le_end : c.offset c.sndMax ≤ c.offset c.sendQueue.endSeq + 1
  finSent : c.finSent ↔ c.offset c.sndMax = c.offset c.sendQueue.endSeq + 1
  room : c.offset c.sendQueue.endSeq + 1 < 2 ^ 31
  start : c.sendQueue.beginSeq = c.sndUna ∨
    c.sendQueue.beginSeq + 1 = c.sndUna ∧ c.sendQueue.beginSeq = c.sendQueue.endSeq ∧ c.finSent

section Runs

variable {c : TCPConnection}

theorem Ordered.sendSequence (h : c.Ordered) : c.SendSequence := by
  obtain ⟨u, n, m, e, hv, hroom, hheld⟩ := h
  have hun := hv.una_le_nxt
  have hnm := hv.nxt_le_max
  have hmax := hv.max_le_end
  have hoffset : ∀ {seq : Seq} {p : ℕ}, seq = BitVec.ofNat 32 p → min u e ≤ p → p ≤ e + 1 →
      c.offset seq = p - min u e := by
    intro seq p hseq hlow hhigh
    rw [offset, hseq, hheld, toNat_ofNat_sub_ofNat hlow (by omega)]
  have hu := hoffset hv.una (by omega) (by omega)
  have hn := hoffset hv.nxt (by omega) (by omega)
  have hm := hoffset hv.max (by omega) (by omega)
  have he := hoffset hv.endSeq (by omega) (by omega)
  refine ⟨by omega, by omega, by omega, ?_, by omega, ?_⟩
  · rw [hv.finSent, hm, he]
    omega
  · by_cases hue : u ≤ e
    · exact .inl (by rw [hheld, hv.una, min_eq_left hue])
    · obtain rfl : u = e + 1 := by omega
      refine .inr ⟨?_, ?_, hv.finSent.mpr (by omega)⟩
      · rw [hheld, min_eq_right (by omega), ofNat_add_one, hv.una]
      · rw [hheld, min_eq_right (by omega), hv.endSeq]

theorem IsNew.sendInv (h : c.IsNew) : SendInv c := by
  rw [h]
  refine ⟨?_, fun _ _ ↦ nofun⟩
  rintro ⟨seg, hseg, -⟩
  cases hseg

theorem perform_orders (h : SendInv c) (hopen : c.fsm ≠ .closed) {e : Event}
    (hrec : c.receives e = true) (hok : c.breaksSendOrder e = false)
    (hfits : c.fitsBuffer e = true) : Orders (c.perform e) := by
  cases e with
  | openActive => exact processOpenActive_orders h _ _ _ _ _ _
  | openPassive => exact processOpenPassive_orders h _ _ _
  | send byteLength isn =>
    refine processSend_orders h byteLength isn (fun hs ↦ ?_) (of_decide_eq_true hfits)
    simpa [breaksSendOrder, hs] using hok
  | close =>
    refine processClose_orders h fun hs ↦ ?_
    simpa [breaksSendOrder, hs] using hok
  | abort => exact c.processAbort_orders
  | status => exact processStatus_orders h
  | segment seg srcAddr destAddr isn =>
    simp only [receives, Bool.and_eq_true, bne_iff_ne] at hrec
    refine Outcome.bind (Q := fun _ ↦ True) (outcome_check (fun _ ↦ trivial) fun _ _ ↦ ?_)
      fun _ _ ↦ Outcome.bind (Q := fun _ ↦ True) (outcome_check (fun _ ↦ trivial) fun _ _ ↦ ?_)
        fun _ _ ↦ ?_
    · rintro (h | h | h | h) <;> cases h
    · rintro (h | h | h | h) <;> cases h
    · refine processRcvSegment_orders h hopen hrec.1 srcAddr destAddr isn fun hreach ↦ ?_
      simpa [breaksSendOrder, hrec.2, hreach] using hok
  | timer t =>
    refine processTimer_orders h hopen ((c.isScheduled_iff t).mp hrec) ?_
    rintro rfl
    simpa [breaksSendOrder] using hok

theorem step_sendInv (h : SendInv c) {e : Event}
    (hallowed : c.breaksSendOrder e = false ∧ c.fitsBuffer e = true) :
    Outcome (c.step e) SendInv (¬ Fault.IsSendAssertion ·) := by
  refine Outcome.ite (fun _ ↦ h) fun hcond ↦ ?_
  simp only [Bool.or_eq_true, decide_eq_true_eq, Bool.not_eq_true', not_or, Bool.not_eq_false]
    at hcond
  exact (perform_orders h hcond.1 hcond.2 hallowed.1 hallowed.2).step

/-- In every run without the events of `breaksSendOrder` and with at most `2 ^ 31 - 2` bytes
buffered, the send variables are in order from ESTABLISHED on, and the assertions of
`createSegmentWithBytes`, `discardUpTo`, `retransmitOneSegment` and `retransmitData` hold. -/
theorem send_sequence_ordered
    (h : Reachable IsNew (fun c e ↦ c.breaksSendOrder e = false ∧ c.fitsBuffer e = true) step c) :
    (synchronized c.fsm = true → c.SendSequence) ∧
      ∀ e, c.breaksSendOrder e = false → c.fitsBuffer e = true → ∀ fault,
        c.step e = .error fault → ¬ fault.IsSendAssertion := by
  obtain ⟨hinv, hnext⟩ := h.outcome (fun c hc ↦ hc.sendInv) fun c e hc ↦ step_sendInv hc
  refine ⟨fun hs ↦ ((sendInvAt_of_synchronized hs).mp hinv).sendSequence, fun e he hf fault hfault ↦ ?_⟩
  exact (hnext e ⟨he, hf⟩).of_eq_error hfault

/-- Data and FIN are sent and acknowledged. -/
def dataThenClose : List Event :=
  establish 1000 ++ [.send 10 0, .close,
    fromPeer { sequenceNo := 501, ackNo := 106, ackBit := true, window := 1000 },
    fromPeer { sequenceNo := 501, ackNo := 112, ackBit := true, window := 1000 }]

theorem send_sequence_ordered_on_dataThenClose :
    ∃ c, run step {} dataThenClose = .ok c ∧ c.fsm = .finWait2 ∧ c.SendSequence := by
  refine ⟨_, rfl, rfl, (send_sequence_ordered ?_).1 rfl⟩
  exact (Reachable.start isNew_default).of_run dataThenClose (by decide +kernel) rfl

/-- Ten bytes and our FIN are unacknowledged when the third duplicate ACK arrives. -/
def threeDuplicateAcks : List Event :=
  establish 1000 ++ [.send 10 0, .close,
    fromPeer { sequenceNo := 501, ackNo := 101, ackBit := true, window := 1000 },
    fromPeer { sequenceNo := 501, ackNo := 101, ackBit := true, window := 1000 }]

theorem fast_retransmit_of_fin_asserts :
    ∃ c, Reachable IsNew (fun c e ↦ c.fitsBuffer e = true) step c ∧ c.fsm = .finWait1 ∧
      c.step (fromPeer { sequenceNo := 501, ackNo := 101, ackBit := true, window := 1000 }) =
        .error (.assertion .createSegmentWithBytes) := by
  refine ⟨_, (Reachable.start isNew_default).of_run threeDuplicateAcks (by decide +kernel) rfl, rfl,
    rfl⟩

end Runs

end TCPConnection

end InetManet.TCP
