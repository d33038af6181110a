import InetManet.TCP.SendSequence

/-!
# The FSM state and the two half-closes

FIN_WAIT_1 and FIN_WAIT_2 mean that the peer's FIN has not been consumed, ESTABLISHED and CLOSE_WAIT
that ours has not been sent. Our FIN may wait for data in front of it; it then goes out while a
segment is processed, and the deferred CLOSE replaces the event code of that segment, that of the
peer's FIN included. `closesMeet` are the segments with which this can go wrong.
-/

namespace InetManet.TCP

open TransitionSystem SerialNumber

namespace TCPConnection

/-! ## The invariant -/

/-- No FIN of the peer has arrived. -/
def PeerOpen (c : TCPConnection) : Prop :=
  c.finRcvd = false ∧ .indication .peerClosed ∉ c.log

/-- Our FIN has not been sent, and the send variables are in order. -/
def FinPending (c : TCPConnection) : Prop :=
  ¬ c.finSent ∧ .persist ∉ c.timers ∧ ∃ u n m e, SendVars c u n m e ∧ e + 1 < u + 2 ^ 31

/-- Our SYN is not acknowledged, and the data in the queue leaves room for SYN and FIN. -/
def SetupFits (c : TCPConnection) : Prop := ∃ i e, SetupOrder c i e ∧ e + 1 < i + 2 ^ 31

/-- What each FSM state says about the two FINs. -/
def HalfInvAt (s : TcpState) (c : TCPConnection) : Prop :=
  match s with
  | .init => c.PeerOpen ∧ Unopened c ∧ c.sendFinFlag = false
  | .listen => c.PeerOpen ∧ Unopened c
  | .synSent => c.PeerOpen ∧ c.SetupFits ∧ c.sendFinFlag = false
  | .synRcvd => c.PeerOpen ∧ c.SetupFits
  | .established => c.PeerOpen ∧ c.FinPending
  | .closeWait => c.FinPending
  | .finWait1 | .finWait2 => c.PeerOpen
  | .closed | .lastAck | .closing | .timeWait => True

def HalfInv (c : TCPConnection) : Prop := HalfInvAt c.fsm c

/-- The outcome of an action: the connection satisfies the invariant of the state it will enter. -/
abbrev Records (x : Except Fault (TCPConnection × TCPEventCode)) : Prop :=
  Outcome x (fun r ↦ HalfInvAt (nextState r.1.active r.1.fsm r.2) r.1) (fun _ ↦ True)

section Invariant

variable {c c' : TCPConnection} {s : TcpState}

theorem SendVars.not_finSent {u n m e : ℕ} (h : SendVars c u n m e) (hflag : c.sendFinFlag = false) :
    ¬ c.finSent := by
  have hm := h.max_le_of_not_fin hflag
  rw [h.finSent]
  omega

theorem SamePeerFin.peerOpen (h : SamePeerFin c c') (hc : c.PeerOpen) : c'.PeerOpen :=
  ⟨h.finRcvd.trans hc.1, fun hlog ↦ hc.2 (h.peerClosed hlog)⟩

theorem HalfInvAt.imp (hc : HalfInvAt s c) (hpeer : c.PeerOpen → c'.PeerOpen)
    (hflag : c'.sendFinFlag = c.sendFinFlag) (hu : Unopened c → Unopened c')
    (hs : c.SetupFits → c'.SetupFits) (hf : c.FinPending → c'.FinPending) : HalfInvAt s c' := by
  cases s with
  | init => exact ⟨hpeer hc.1, hu hc.2.1, hflag.trans hc.2.2⟩
  | listen => exact ⟨hpeer hc.1, hu hc.2⟩
  | synSent => exact ⟨hpeer hc.1, hs hc.2.1, hflag.trans hc.2.2⟩
  | synRcvd => exact ⟨hpeer hc.1, hs hc.2⟩
  | established => exact ⟨hpeer hc.1, hf hc.2⟩
  | closeWait => exact hf hc
  | finWait1 | finWait2 => exact hpeer hc
  | closed | lastAck | closing | timeWait => trivial

theorem Inert.setupFits {fin : Prop} (h : Inert fin c c') (hc : c.SetupFits) : c'.SetupFits := by
  obtain ⟨i, e, hs, hroom⟩ := hc
  exact ⟨i, e, h.setupOrder hs, hroom⟩

theorem Inert.finPending {fin : Prop} (h : Inert fin c c') (hc : c.FinPending) : c'.FinPending := by
  obtain ⟨hsent, hpersist, u, n, m, e, hv, hroom⟩ := hc
  exact ⟨h.finSent.not.mpr hsent, (h.timers _ rfl).not.mpr hpersist, u, n, m, e, h.sendVars hv,
    hroom⟩

theorem Inert.halfInvAt (h : Inert False c c') (hc : HalfInvAt s c) : HalfInvAt s c' :=
  hc.imp (h.peer id).peerOpen h.sendFinFlag h.unopened h.setupFits h.finPending

theorem Inert.records_ignore (h : Inert False c c') (hc : HalfInv c) :
    Records (.ok (c', .ignore)) := by
  show HalfInvAt (nextState c'.active c'.fsm .ignore) c'
  rw [nextState_ignore, h.fsm]
  exact h.halfInvAt hc

theorem Entered.halfInvAt (h : Entered c c') (hc : HalfInvAt s c) : HalfInvAt s c' := by
  refine hc.imp (fun hp ↦ ?_) (congrArg (·.sendFinFlag) h.rest) h.unopened ?_ ?_
  · have hfin : c'.finRcvd = c.finRcvd := congrArg (·.finRcvd) h.rest
    exact ⟨hfin.trans hp.1, h.log ▸ hp.2⟩
  · rintro ⟨i, e, hs, hroom⟩
    exact ⟨i, e, h.setupOrder hs, hroom⟩
  · rintro ⟨hsent, hpersist, u, n, m, e, hv, hroom⟩
    exact ⟨h.finSent.not.mpr hsent, fun ht ↦ hpersist (h.timers _ ht), u, n, m, e, h.sendVars hv,
      hroom⟩

theorem HalfInvAt.goto (hc : HalfInvAt s c) (s' : TcpState) : HalfInvAt s (c.goto s') := by
  refine hc.imp id rfl (fun h ↦ ⟨h.unsent, h.timers⟩) ?_ ?_
  · rintro ⟨i, e, hs, hroom⟩
    exact ⟨i, e, hs.goto s', hroom⟩
  · rintro ⟨hsent, hpersist, u, n, m, e, hv, hroom⟩
    exact ⟨hsent, hpersist, u, n, m, e, hv.congr rfl rfl id, hroom⟩

theorem Records.step {x : Except Fault (TCPConnection × TCPEventCode)} (h : Records x) :
    Outcome (x >>= fun r ↦ r.1.performStateTransition r.2) HalfInv (fun _ ↦ True) := by
  refine h.bind fun r hr ↦ ?_
  refine (r.1.performStateTransition_outcome r.2).mono ?_ fun _ _ ↦ trivial
  rintro c' (⟨hs, rfl⟩ | ⟨-, he⟩)
  · rw [hs] at hr
    exact hr
  · unfold HalfInv
    rw [he.fsm]
    exact he.halfInvAt (hr.goto _)

theorem halfInvAt_closed (c : TCPConnection) : HalfInvAt .closed c := trivial

/-- The states in which both sides have closed. -/
def isClosing : TcpState → Bool
  | .closed | .lastAck | .closing | .timeWait => true
  | _ => false

theorem nextState_isClosing {active : Bool} {event : TCPEventCode} (hs : isClosing s = true) :
    isClosing (nextState active s event) = true := by
  cases s with
  | closed | lastAck | closing | timeWait => cases event <;> rfl
  | _ => cases hs

theorem halfInvAt_of_isClosing (hs : isClosing s = true) (c : TCPConnection) : HalfInvAt s c := by
  cases s with
  | closed | lastAck | closing | timeWait => trivial
  | _ => cases hs

end Invariant

/-! ## The ACK field -/

/-- The ACK is for something sent and not acknowledged. -/
def isNewAck (c : TCPConnection) (seg : TCPSegment) : Bool :=
  !seqGE c.sndUna seg.ackNo && seqLE seg.ackNo c.sndMax

/-- The peer's FIN comes with an ACK that can release our own waiting FIN. -/
def finMeetsClose (c : TCPConnection) (seg : TCPSegment) : Bool :=
  seg.finBit && c.sendFinFlag && (c.fsm == .synRcvd || c.fsm == .established) &&
    (c.isNewAck seg || c.isDuplicateAck seg || c.sndNxt == c.sndFinSeq + 1)

/-- In SYN_RCVD with a `send_fin` from an earlier passive open, an ACK that does not cover our SYN. -/
def staleFinOnSyn (c : TCPConnection) (seg : TCPSegment) : Bool :=
  c.fsm == .synRcvd && c.sendFinFlag && c.sndMax == c.sendQueue.getBufferEndSeq &&
    seg.ackNo == c.sndUna

section AckField

variable {c : TCPConnection} {seg : TCPSegment}

theorem discardUpTo_frame (c : TCPConnection) (seq : Seq) :
    Outcome (c.discardUpTo seq) (fun c' ↦ Kept c c' ∧ c'.log = c.log ∧ c'.timers = c.timers)
      (fun _ ↦ True) := by
  rw [discardUpTo_eq]
  refine Outcome.bind (Q := fun _ ↦ True) (outcome_check (fun _ ↦ trivial) fun _ _ ↦ trivial)
    fun _ _ ↦ ⟨⟨⟨rfl, id⟩, rfl, rfl, rfl, rfl, id⟩, rfl, rfl⟩

theorem OnlySends.kept {x : Except Fault TCPConnection} (h : OnlySends c x) :
    Outcome x (Kept c) (fun _ ↦ True) :=
  h.mono (fun _ h ↦ h.kept) fun _ _ ↦ trivial

section

variable (c : TCPConnection)

theorem advanceSndUna_kept (seg : TCPSegment) :
    Outcome (c.advanceSndUna seg) (Kept c) (fun _ ↦ True) := by
  have hmove : Kept c (c.moveSndUna seg) := ⟨⟨rfl, id⟩, rfl, rfl, rfl, rfl, id⟩
  refine (discardUpTo_frame (c.moveSndUna seg) _).bind fun c₁ h₁ ↦ ?_
  have hwindow : Kept c₁ (c₁.updateSendWindow seg) := by
    unfold updateSendWindow
    split
    · exact ⟨⟨rfl, id⟩, rfl, rfl, rfl, rfl, id⟩
    · exact .refl c₁
  exact (hmove.trans h₁.1).trans hwindow

theorem inert_setDupacks (n : BitVec 16) :
    Inert False c { c with dupacks := n } :=
  c.inert_of_side rfl rfl rfl (.inr rfl)

/-- What `processAckInEstabEtc` does in any state: without a new or duplicate ACK no data is sent,
and a dropped segment is answered with an ACK. -/
def AckKept (seg : TCPSegment) (r : Bool × TCPConnection) : Prop :=
  Kept c r.2 ∧ (r.1 = false → seqGE c.sndUna seg.ackNo = false) ∧
    (r.1 = false ∨ (c.isNewAck seg || c.isDuplicateAck seg) = false → Inert False c r.2)

theorem processAckInEstabEtc_kept (seg : TCPSegment) :
    Outcome (c.processAckInEstabEtc seg) (AckKept c seg) (fun _ ↦ True) := by
  unfold processAckInEstabEtc
  refine Outcome.ite (fun hge ↦ Outcome.ite (fun hdup ↦ ?_) fun _ ↦ ?_) fun hge ↦
    Outcome.ite (fun hle ↦ ?_) fun hle ↦ ?_
  · refine (OnlySends.kept (receivedDuplicateAck_sends _)).bind fun c₁ h₁ ↦
      ⟨(c.inert_setDupacks _).kept.trans h₁, nofun, fun h ↦ ?_⟩
    simp [hdup] at h
  · exact ⟨(c.inert_setDupacks 0).kept, nofun, fun _ ↦ c.inert_setDupacks 0⟩
  · refine (c.advanceSndUna_kept seg).bind fun c₁ h₁ ↦ ?_
    refine (OnlySends.kept c₁.receivedDataAck_sends).bind fun c₂ h₂ ↦
      ⟨(h₁.trans h₂).trans (c₂.inert_setDupacks 0).kept, nofun, fun h ↦ ?_⟩
    rw [Bool.not_eq_true] at hge
    simp [isNewAck, hge, hle] at h
  · refine Outcome.bind (Q := fun _ ↦ True) (outcome_check (fun _ ↦ trivial) fun _ _ ↦ trivial)
      fun _ _ ↦ ?_
    have hack := (c.inert_sendAck).trans (inert_setDupacks _ 0)
    exact ⟨hack.kept, fun _ ↦ by simpa using hge, fun _ ↦ hack⟩

theorem processAckIfOpen_kept (seg : TCPSegment) :
    Outcome (c.processAckIfOpen seg) (fun r ↦ Kept c r.2) (fun _ ↦ True) :=
  Outcome.ite (fun _ ↦ (c.processAckInEstabEtc_kept seg).post fun _ h ↦ h.1) fun _ ↦ .refl c

end

/-- A FIN that has been sent while the ACK was processed has left `snd_nxt` behind it. -/
structure FinLeft (c c₁ : TCPConnection) : Prop where
  persist : .persist ∉ c₁.timers
  vars : ∃ u n m e, SendVars c₁ u n m e ∧ e + 1 < u + 2 ^ 31
  sent : c₁.finSent → c₁.sendFinFlag = true ∧ c₁.sndNxt = c₁.sndFinSeq + 1 ∧ c.sndNxt ≠ c₁.sndNxt

/-- The peer's FIN does not come with an ACK that has released ours. -/
def FinApart (seg : TCPSegment) (c₁ : TCPConnection) : Prop :=
  seg.finBit = true → c₁.sendFinFlag = true → c₁.sndNxt ≠ c₁.sndFinSeq + 1

theorem AckPost.finLeft {u n m e : ℕ} {c₁ : TCPConnection} (h : AckPost c seg u m e c₁)
    (hv : SendVars c u n m e) (hroom : e + 1 < u + 2 ^ 31) (hsent : ¬ c.finSent)
    (hpersist : .persist ∉ c.timers) : FinLeft c c₁ := by
  obtain ⟨u', n', m', hv', hu', -, hm', hnew, -⟩ := h.vars
  refine ⟨fun ht ↦ hpersist (h.kept.persist ht), ⟨u', n', m', e, hv', by omega⟩, fun hs ↦ ?_⟩
  have hm := hv.max_le_end
  have hme : m ≠ e + 1 := fun heq ↦ hsent (hv.finSent.mpr heq)
  have hm'e := hv'.finSent.mp hs
  have hn' : n' = e + 1 := (hnew (by omega)).trans hm'e
  have hun := hv.una_le_nxt
  have hnm := hv.nxt_le_max
  rcases hv'.fin with ⟨hflag, hseq, -⟩ | ⟨-, hle⟩ | ⟨-, hle⟩
  · refine ⟨hflag, ?_, ?_⟩
    · rw [hv'.nxt, hseq, hn', ofNat_add_one]
    · rw [hv.nxt, hv'.nxt, hn', ne_eq, ofNat_inj (by omega) (by omega)]
      omega
  · omega
  · omega

theorem FinLeft.finPending {c₁ : TCPConnection} (h : FinLeft c c₁) (hsent : ¬ c₁.finSent) :
    c₁.FinPending :=
  ⟨hsent, h.persist, h.vars⟩

theorem finApart_of_inert {c₁ : TCPConnection} (hkept : Kept c c₁)
    (hidle : (c.isNewAck seg || c.isDuplicateAck seg) = false → Inert False c c₁)
    (hs : (c.fsm == .synRcvd || c.fsm == .established) = true)
    (hmeet : c.finMeetsClose seg = false) : FinApart seg c₁ := by
  intro hbit hflag
  rw [hkept.sendFinFlag] at hflag
  rw [finMeetsClose, hbit, hflag, hs, Bool.true_and, Bool.true_and, Bool.true_and,
    Bool.or_eq_false_iff, beq_eq_false_iff_ne] at hmeet
  rw [hkept.sndFinSeq, (hidle hmeet.1).sndNxt]
  exact hmeet.2

end AckField

/-! ## Segments -/

/-- The states in which our FIN may be waiting while segments arrive. -/
def mayDefer (s : TcpState) : Prop := s = .synRcvd ∨ s = .established ∨ s = .closeWait

section Segments

variable {c : TCPConnection} {seg : TCPSegment}

theorem EventAfterAck.of_mayDefer {oldSndNxt : Seq} {event event' : TCPEventCode}
    (h : c.EventAfterAck seg oldSndNxt event event') (hs : mayDefer c.fsm) :
    ∃ event₁, (seg.finBit = false ∧ event₁ = event ∨ seg.finBit = true ∧ event₁ = .rcvFin) ∧
      event' = c.deferredClose oldSndNxt event₁ := by
  have hne : ∀ s, s = .lastAck ∨ s = .finWait1 ∨ s = .closing → c.fsm ≠ s := by
    rintro s (rfl | rfl | rfl) hc <;> rcases hs with hs | hs | hs <;> rw [hs] at hc <;> cases hc
  rcases h with ⟨hl, -⟩ | ⟨event₁, event₂, hevent, hafter, hclose⟩
  · exact absurd hl (hne _ (.inl rfl))
  · have he : event₁ = event := by
      rcases hevent with he | hf | hf
      · exact he
      · exact absurd hf (hne _ (.inr (.inl rfl)))
      · exact absurd hf (hne _ (.inr (.inr rfl)))
    subst he
    refine ⟨event₂, ?_, hclose⟩
    rcases hafter with h | ⟨hbit, he | ⟨hf, -⟩⟩
    · exact .inl h
    · exact .inr ⟨hbit, he⟩
    · exact absurd hf (hne _ (.inr (.inl rfl)))

/-- The deferred CLOSE replaces the event code exactly when our FIN has been sent. -/
theorem FinLeft.deferredClose {c₁ : TCPConnection} (h : FinLeft c c₁) (hs : mayDefer c₁.fsm)
    (event : TCPEventCode) :
    (c₁.deferredClose c.sndNxt event = .close ∧ c₁.sendFinFlag = true ∧
        c₁.sndNxt = c₁.sndFinSeq + 1) ∨
      (c₁.deferredClose c.sndNxt event = event ∧ ¬ c₁.finSent) := by
  unfold TCPConnection.deferredClose
  split <;> rename_i hcond
  · simp only [Bool.and_eq_true, beq_iff_eq] at hcond
    exact .inl ⟨rfl, hcond.1.1, hcond.1.2⟩
  · refine .inr ⟨rfl, fun hsent ↦ hcond ?_⟩
    obtain ⟨hflag, hnxt, hold⟩ := h.sent hsent
    have hbeq : (c₁.sndNxt == c₁.sndFinSeq + 1) = true := beq_iff_eq.mpr hnxt
    have hbne : (c.sndNxt != c₁.sndNxt) = true := bne_iff_ne.mpr hold
    rcases hs with hs | hs | hs <;> rw [hflag, hbeq, hbne, hs] <;> rfl

/-- What the ACK field leaves in a state in which our FIN may be waiting. -/
def AckLeaves (c : TCPConnection) (seg : TCPSegment) (r : Bool × TCPConnection) : Prop :=
  Kept c r.2 ∧ (r.1 = false → c.fsm ≠ .synRcvd ∧ r.2.FinPending) ∧
    (r.1 = true → FinLeft c r.2 ∧ (c.fsm ≠ .closeWait → FinApart seg r.2))

/-- The ACK field of a segment that the send variables are ready for. -/
theorem ackLeaves_of_sendVars {u n m e : ℕ} (hv : SendVars c u n m e)
    (hroom : e + 1 < u + 2 ^ 31) (hsent : ¬ c.finSent) (hpersist : .persist ∉ c.timers) (hs : mayDefer c.fsm)
    (hmeet : c.finMeetsClose seg = false)
    (hsyn : c.fsm = .synRcvd → seqGE c.sndUna seg.ackNo = true) :
    Outcome (c.processAckIfOpen seg) (AckLeaves c seg) (fun _ ↦ True) := by
  have hopen : processesAck c.fsm = true := by rcases hs with hs | hs | hs <;> rw [hs] <;> rfl
  rw [processAckIfOpen, if_pos hopen]
  refine ((processAckInEstabEtc_post hv seg).and (c.processAckInEstabEtc_kept seg)).mono ?_
    fun _ _ ↦ trivial
  rintro ⟨ok, c₁⟩ ⟨hpost, hkept, hdrop, hidle⟩
  dsimp only at hpost hkept hdrop hidle
  refine ⟨hkept, fun hok ↦ ⟨fun hfsm ↦ ?_, ?_⟩, fun _ ↦
    ⟨hpost.finLeft hv hroom hsent hpersist, fun hne ↦ ?_⟩⟩
  · have := hdrop hok
    rw [hsyn hfsm] at this
    cases this
  · exact (hidle (.inl hok)).finPending ⟨hsent, hpersist, u, n, m, e, hv, hroom⟩
  · refine finApart_of_inert hkept (fun h ↦ hidle (.inr h)) ?_ hmeet
    rcases hs with hs | hs | hs
    · simp [hs]
    · simp [hs]
    · exact absurd hs hne

theorem ackLeaves_of_synAck {i e : ℕ} (h : SetupOrder c i e) (hs : c.fsm = .synRcvd)
    (hack : seg.ackNo = BitVec.ofNat 32 (i + 1)) (hmeet : c.finMeetsClose seg = false) :
    Outcome (c.processAckIfOpen seg) (AckLeaves c seg) (fun _ ↦ True) := by
  have hle := h.le
  have hroom := h.room
  rw [processAckIfOpen, hs, if_pos (by rfl)]
  refine ((processAckInEstabEtc_synRcvd h hack).and (c.processAckInEstabEtc_kept seg)).mono ?_
    fun _ _ ↦ trivial
  rintro ⟨ok, c₁⟩ ⟨⟨hok, hkept, n', m', hv, hnew, -⟩, -, -, hidle⟩
  dsimp only at hok hkept hv hidle
  refine ⟨hkept, fun hno ↦ ?_, fun _ ↦ ⟨⟨fun ht ↦ h.timers _ rfl (hkept.persist ht),
    ⟨i + 1, n', m', e, hv, by omega⟩, fun hsent ↦ ?_⟩, fun _ ↦ ?_⟩⟩
  · rw [hok] at hno
    cases hno
  · have hm' := hv.finSent.mp hsent
    have hn' : n' = e + 1 := (hnew (by omega)).trans hm'
    rcases hv.fin with ⟨hflag, hseq, -⟩ | ⟨-, hm⟩ | ⟨-, hm⟩
    · refine ⟨hflag, ?_, ?_⟩
      · rw [hv.nxt, hseq, hn', ofNat_add_one]
      · rw [h.nxt, hv.nxt, hn', ne_eq, ofNat_inj (by omega) (by omega)]
        omega
    · omega
    · omega
  · exact finApart_of_inert hkept (fun h ↦ hidle (.inr h)) (by simp [hs]) hmeet

/-- With data or no CLOSE waiting, the send variables are in order before our SYN is acknowledged. -/
theorem SetupOrder.sendVars {i e : ℕ} (h : SetupOrder c i e) (hroom : e + 1 < i + 2 ^ 31)
    (hstale : c.sendFinFlag = true → c.sndMax ≠ c.sendQueue.getBufferEndSeq) :
    SendVars c i (i + 1) (i + 1) e := by
  have hle := h.le
  refine ⟨⟨⟨h.una, h.nxt, h.max, h.endSeq, by omega, le_rfl, by omega, ?_,
    iff_of_false h.unsent (by omega)⟩, by omega, fun _ ↦ hroom⟩, fun _ ht ↦ absurd ht (h.timers _ rfl)⟩
  rcases h.fin with hfin | hfin | ⟨-, he⟩
  · exact .inl hfin
  · exact .inr (.inl hfin)
  · cases hflag : c.sendFinFlag with
    | true => exact absurd (h.max.trans (he ▸ h.endSeq.symm)) (hstale hflag)
    | false => exact .inr (.inl ⟨hflag, by omega⟩)

/-- The rest of the segment: the deferred CLOSE or the peer's FIN takes the connection to the state
that records it. -/
theorem processAck_records (hs : mayDefer c.fsm) (hpeer : c.fsm ≠ .closeWait → c.PeerOpen)
    {event : TCPEventCode} (hevent : c.fsm = .synRcvd ∧ event = .rcvAck ∨
      c.fsm ≠ .synRcvd ∧ event = .ignore)
    (hack : Outcome (c.processAckIfOpen seg) (AckLeaves c seg) (fun _ ↦ True)) :
    Records (c.processAck seg event) := by
  rw [processAck_eq]
  refine hack.bind ?_
  rintro ⟨ok, c₁⟩ ⟨hkept, hdrop, hok⟩
  dsimp only at hkept hdrop hok
  have hs₁ : mayDefer c₁.fsm := hkept.fsm ▸ hs
  have hpeer₁ : c₁.fsm ≠ .closeWait → c₁.PeerOpen :=
    fun hne ↦ hkept.peerOpen (hpeer (hkept.fsm ▸ hne))
  cases ok with
  | false =>
    obtain ⟨hsyn, hpending⟩ := hdrop rfl
    show HalfInvAt (nextState c₁.active c₁.fsm .ignore) c₁
    rw [nextState_ignore]
    rw [← hkept.fsm] at hsyn
    rcases hs₁ with hs₁ | hs₁ | hs₁
    · exact absurd hs₁ hsyn
    · rw [hs₁] at hpeer₁ ⊢
      exact ⟨hpeer₁ nofun, hpending⟩
    · rw [hs₁]
      exact hpending
  | true =>
    obtain ⟨hleft, hapart⟩ := hok rfl
    refine (c₁.processAck_inert seg c.sndNxt event id).mono ?_ fun _ _ ↦ trivial
    rintro ⟨c₂, event'⟩ ⟨hinert, hafter⟩
    obtain ⟨event₁, hevent₁, hclose⟩ := hafter.of_mayDefer hs₁
    show HalfInvAt (nextState c₂.active c₂.fsm event') c₂
    rw [hinert.fsm]
    -- without a FIN bit the peer stays open
    have hopen : c₁.fsm ≠ .closeWait → seg.finBit = false → c₂.PeerOpen := by
      intro hne hbit
      have hp := hpeer₁ hne
      refine (hinert.peer ?_).peerOpen hp
      simp [hbit, hp.1]
    rcases hleft.deferredClose hs₁ event₁ with ⟨hd, hflag, hnxt⟩ | ⟨hd, hsent⟩
    · obtain rfl : event' = .close := hclose.trans hd
      rcases hs₁ with hs₁ | hs₁ | hs₁
      case inr.inr =>
        rw [hs₁]
        exact trivial
      all_goals
        have hbit : seg.finBit = false := by
          by_contra hbit
          exact hapart (by rw [← hkept.fsm, hs₁]; nofun) (by simpa using hbit) hflag hnxt
        have hp := hopen (by rw [hs₁]; nofun) hbit
        rw [hs₁]
        exact hp
    · have hpending : c₂.FinPending := hinert.finPending (hleft.finPending hsent)
      obtain rfl : event' = event₁ := hclose.trans hd
      rcases hevent₁ with ⟨hbit, rfl⟩ | ⟨-, rfl⟩
      · rcases hevent with ⟨hsyn, rfl⟩ | ⟨hsyn, rfl⟩
        · rw [← hkept.fsm] at hsyn
          have hp := hopen (by rw [hsyn]; nofun) hbit
          rw [hsyn]
          exact ⟨hp, hpending⟩
        · rw [nextState_ignore]
          rw [← hkept.fsm] at hsyn
          rcases hs₁ with hs₁ | hs₁ | hs₁
          · exact absurd hs₁ hsyn
          · have hp := hopen (by rw [hs₁]; nofun) hbit
            rw [hs₁]
            exact ⟨hp, hpending⟩
          · rw [hs₁]
            exact hpending
      · rcases hs₁ with hs₁ | hs₁ | hs₁ <;> rw [hs₁] <;> exact hpending

theorem finMeetsClose_congr {c' : TCPConnection} (h : Inert False c c') (seg : TCPSegment) :
    c'.finMeetsClose seg = c.finMeetsClose seg := by
  unfold finMeetsClose isNewAck isDuplicateAck
  rw [h.sendFinFlag, h.fsm, h.sndUna, h.sndMax, h.sndNxt, h.sndFinSeq]

theorem processAckInSynRcvd_records (hs : c.fsm = .synRcvd) (hpeer : c.PeerOpen)
    (hfits : c.SetupFits) (hmeet : c.finMeetsClose seg = false)
    (hstale : c.staleFinOnSyn seg = false) : Records (c.processAckInSynRcvd seg) := by
  obtain ⟨i, e, h, hroom⟩ := hfits
  refine Outcome.ite (fun _ ↦ ?_) fun hrange ↦ ?_
  · have hinv : HalfInv c := by
      unfold HalfInv
      rw [hs]
      exact ⟨hpeer, i, e, h, hroom⟩
    exact (c.inert_sendRstTo _ _ _).records_ignore hinv
  · simp only [Bool.or_eq_true, Bool.not_eq_true', not_or, Bool.not_eq_false, h.una, h.nxt]
      at hrange
    refine Outcome.bind (Q := Inert False c)
      (c.algEstablished_inert.mono (fun _ h ↦ h) fun _ _ ↦ trivial) fun c₁ h₁ ↦ ?_
    have h₂ : Inert False c c₁.sendEstabIndicationToApp :=
      h₁.trans (c₁.inert_sendIndicationToApp .established (by decide))
    generalize c₁.sendEstabIndicationToApp = c₂ at h₂
    have hs₂ : c₂.fsm = .synRcvd := h₂.fsm.trans hs
    have hsetup := h₂.setupOrder h
    have hmeet₂ := (finMeetsClose_congr h₂ seg).trans hmeet
    refine processAck_records (.inl hs₂) (fun _ ↦ (h₂.peer id).peerOpen hpeer) (.inl ⟨hs₂, rfl⟩) ?_
    by_cases hack : seg.ackNo = BitVec.ofNat 32 i
    · -- an ACK that does not cover our SYN is a duplicate ACK
      refine ackLeaves_of_sendVars (hsetup.sendVars hroom fun hflag hmax ↦ ?_) hroom hsetup.unsent
        (hsetup.timers _ rfl) (.inl hs₂) hmeet₂ fun _ ↦ ?_
      · rw [h₂.sendFinFlag] at hflag
        rw [h₂.sndMax, h₂.sendQueue] at hmax
        simp [staleFinOnSyn, hs, hflag, hmax, hack, h.una] at hstale
      · rw [hsetup.una, hack]
        simp [seqGE]
    · exact ackLeaves_of_synAck hsetup hs₂ (position_of_synRcvd_ack hrange.1 hrange.2 hack) hmeet₂

/-- In FIN_WAIT_1 and FIN_WAIT_2 the peer's FIN ends the state, whether it is consumed or not. -/
theorem processAck_finWait (hs : c.fsm = .finWait1 ∨ c.fsm = .finWait2) (hpeer : c.PeerOpen) :
    Records (c.processAck seg .ignore) := by
  have hnext : ∀ {active : Bool} {event : TCPEventCode} {c' : TCPConnection}, c'.PeerOpen →
      c'.fsm = c.fsm → HalfInvAt (nextState active c'.fsm event) c' := by
    intro active event c' hp hfsm
    rw [hfsm]
    rcases hs with hs | hs <;> rw [hs] <;> cases event <;> first | exact hp | trivial
  rw [processAck_eq]
  refine (c.processAckIfOpen_kept seg).bind ?_
  rintro ⟨ok, c₁⟩ hkept
  dsimp only at hkept
  have hp₁ := hkept.peerOpen hpeer
  refine Outcome.ite (fun _ ↦ hnext hp₁ hkept.fsm) fun _ ↦ ?_
  refine (c₁.processAck_inert seg c.sndNxt .ignore id).mono ?_ fun _ _ ↦ trivial
  rintro ⟨c₂, event⟩ ⟨hinert, hafter⟩
  have hfsm₂ : c₂.fsm = c.fsm := hinert.fsm.trans hkept.fsm
  cases hbit : seg.finBit with
  | false =>
    refine hnext ((hinert.peer ?_).peerOpen hp₁) hfsm₂
    simp [hbit, hp₁.1]
  | true =>
    have hevent : event = .rcvFin ∨ c₁.fsm = .finWait1 ∧ event = .rcvFinAck := by
      rcases hafter with ⟨hl, -⟩ | ⟨event₁, event₂, -, hfin, hclose⟩
      · rw [hkept.fsm] at hl
        rcases hs with hs | hs <;> rw [hs] at hl <;> cases hl
      · have hno : c₁.deferredClose c.sndNxt event₂ = event₂ := by
          unfold deferredClose
          rw [if_neg]
          rcases hs with hs | hs <;> simp [hkept.fsm, hs]
        have he : event = event₂ := hclose.trans hno
        rcases hfin with ⟨hno, -⟩ | ⟨-, hf | ⟨hf, -, hf'⟩⟩
        · rw [hbit] at hno
          cases hno
        · exact .inl (he.trans hf)
        · exact .inr ⟨hf, he.trans hf'⟩
    show HalfInvAt (nextState c₂.active c₂.fsm event) c₂
    rw [hfsm₂]
    rw [hkept.fsm] at hevent
    rcases hevent with rfl | ⟨hf, rfl⟩
    · rcases hs with hs | hs <;> rw [hs] <;> trivial
    · rw [hf]
      trivial

theorem processAck_isClosing (hs : isClosing c.fsm = true) : Records (c.processAck seg .ignore) := by
  rw [processAck_eq]
  refine (c.processAckIfOpen_kept seg).bind ?_
  rintro ⟨ok, c₁⟩ hkept
  dsimp only at hkept
  have hs₁ : isClosing c₁.fsm = true := hkept.fsm ▸ hs
  refine Outcome.ite (fun _ ↦ halfInvAt_of_isClosing (nextState_isClosing hs₁) _) fun _ ↦ ?_
  refine (c₁.processAck_inert seg c.sndNxt .ignore fun _ ↦ trivial).mono (fun r hr ↦ ?_)
    fun _ _ ↦ trivial
  exact halfInvAt_of_isClosing (nextState_isClosing (hr.1.fsm ▸ hs₁)) _

theorem processRst_records (h : HalfInv c) : Records c.processRst := by
  unfold HalfInv at h
  unfold processRst
  split <;> rename_i hs
  · rw [hs] at h
    obtain ⟨hpeer, i, e, ho, -⟩ := h
    refine Outcome.bind (Q := fun c' ↦ Kept c c' ∧ Unopened c')
      ((c.discardUpTo_frame _).mono (fun c' h' ↦ ⟨h'.1, ?_⟩) fun _ _ ↦ trivial) fun c₁ h₁ ↦ ?_
    · exact ho.toOpening.unopened.congr h'.2.1 h'.2.2
    · have hind : Inert False c₁
          (if c₁.active then c₁.sendIndicationToApp .connectionRefused else c₁) := by
        split
        · exact c₁.inert_sendIndicationToApp _ (by decide)
        · exact .refl c₁
      show HalfInvAt (nextState _ (if c₁.active then _ else c₁).fsm .rcvRst) _
      rw [hind.fsm, hind.active, h₁.1.fsm, hs]
      cases ha : c₁.active with
      | true => exact halfInvAt_closed _
      | false => exact ⟨h₁.1.peerOpen hpeer, h₁.2⟩
  case h_9 | h_10 | h_11 | h_12 => exact trivial
  all_goals
    show HalfInvAt (nextState c.active c.fsm .rcvRst) _
    rw [hs]
    exact halfInvAt_closed _

theorem processSegment1stThru8th_records (h : HalfInv c)
    (hs : c.fsm = .synRcvd ∨ synchronized c.fsm = true)
    (hmeet : c.reachesAckField seg = true →
      c.finMeetsClose seg = false ∧ c.staleFinOnSyn seg = false) :
    Records (c.processSegment1stThru8th seg) := by
  refine Outcome.ite (fun _ ↦ ?_) fun hacc ↦ Outcome.ite (fun _ ↦ processRst_records h) fun hrst ↦
    Outcome.ite (fun _ ↦ ?_) fun hsynBit ↦ Outcome.ite (fun _ ↦ (Inert.refl c).records_ignore h)
    fun hackBit ↦ ?_
  · refine Inert.records_ignore ?_ h
    split
    · exact .refl c
    · exact c.inert_sendAck
  · show HalfInvAt (nextState c.active c.fsm .rcvUnexpSyn) _
    rw [nextState_rcvUnexpSyn _ hs]
    exact halfInvAt_closed _
  · have hreach : c.reachesAckField seg = true := by
      simp only [Bool.not_eq_true', Bool.not_eq_false] at hacc hackBit
      simp [reachesAckField, hacc, hrst, hsynBit, hackBit]
    obtain ⟨hmeet, hstale⟩ := hmeet hreach
    unfold HalfInv at h
    refine Outcome.ite (fun hfsm ↦ ?_) fun hfsm ↦ ?_
    · rw [beq_iff_eq] at hfsm
      rw [hfsm] at h
      exact processAckInSynRcvd_records hfsm h.1 h.2 hmeet hstale
    · have hsync := hs.resolve_left fun hs ↦ hfsm (by simp [hs])
      have hne : c.fsm ≠ .synRcvd := fun hs ↦ hfsm (by simp [hs])
      have hpending : ∀ hd : mayDefer c.fsm, (c.fsm ≠ .closeWait → c.PeerOpen) → c.FinPending →
          Records (c.processAck seg .ignore) := by
        rintro hd hp ⟨hsent, hpersist, u, n, m, e, hv, hroom⟩
        exact processAck_records hd hp (.inr ⟨hne, rfl⟩)
          (ackLeaves_of_sendVars hv hroom hsent hpersist hd hmeet fun hs ↦ absurd hs hne)
      cases hc : c.fsm with
      | init | listen | synSent | synRcvd => simp [hc, synchronized] at hsync hne
      | established =>
        rw [hc] at h
        exact hpending (.inr (.inl hc)) (fun _ ↦ h.1) h.2
      | closeWait =>
        rw [hc] at h
        exact hpending (.inr (.inr hc)) (fun hn ↦ absurd hc hn) h
      | finWait1 =>
        rw [hc] at h
        exact processAck_finWait (.inl hc) h
      | finWait2 =>
        rw [hc] at h
        exact processAck_finWait (.inr hc) h
      | closed | lastAck | closing | timeWait =>
        exact processAck_isClosing (by rw [hc]; rfl)

theorem processRcvSegment_records (h : HalfInv c) (hopen : c.fsm ≠ .closed) (hinit : c.fsm ≠ .init)
    (srcAddr destAddr : ℕ) (isn : Seq)
    (hmeet : c.reachesAckField seg = true →
      c.finMeetsClose seg = false ∧ c.staleFinOnSyn seg = false) :
    Records (c.processRcvSegment seg srcAddr destAddr isn) := by
  unfold processRcvSegment
  split <;> rename_i hs
  · unfold HalfInv at h
    rw [hs] at h
    refine (processSegmentInListen_post h.2 seg srcAddr destAddr isn).mono ?_ fun _ _ ↦ trivial
    rintro ⟨c₁, event⟩ ⟨hkept, ⟨rfl, hu⟩ | ⟨rfl, hsetup⟩⟩
    all_goals
      have hp := hkept.peerOpen h.1
      dsimp only
      rw [hkept.fsm, hs]
    · exact ⟨hp, hu⟩
    · exact ⟨hp, _, _, hsetup, by omega⟩
  · unfold HalfInv at h
    rw [hs] at h
    obtain ⟨hpeer, ⟨i, e, ho, hroom⟩, hflag⟩ := h
    refine (processSegmentInSynSent_post ho seg srcAddr destAddr).mono ?_ fun _ _ ↦ trivial
    rintro ⟨c₁, event⟩ ⟨hkept, rfl | ⟨rfl | rfl, hsetup⟩ | ⟨rfl, n', m', hv, -⟩⟩
    all_goals
      have hp := hkept.peerOpen hpeer
      have hf := hkept.sendFinFlag.trans hflag
      dsimp only at hp hf ⊢
      rw [hkept.fsm, hs]
    · exact halfInvAt_closed _
    · exact ⟨hp, ⟨i, e, hsetup, hroom⟩, hf⟩
    · exact ⟨hp, i, e, hsetup, hroom⟩
    · exact ⟨hp, hv.not_finSent hf, fun ht ↦ ho.timers _ rfl (hkept.persist ht), _, _, _, _, hv,
        by omega⟩
  · rename_i hl
    refine processSegment1stThru8th_records h ?_ hmeet
    revert hopen hinit hs hl
    cases c.fsm <;> simp [synchronized]

end Segments

/-! ## Commands -/

section Commands

variable {c : TCPConnection}

theorem kept_enqueueAppData (c : TCPConnection) (byteLength : ℕ) :
    Kept c (c.enqueueAppData byteLength) :=
  ⟨⟨rfl, id⟩, rfl, rfl, rfl, rfl, id⟩

/-- Sequence numbers from `snd_una` to the end of the queue; in LISTEN, our SYN alone. -/
def unacknowledged (c : TCPConnection) : ℕ :=
  if c.fsm = .listen then 1 else (c.sendQueue.endSeq - c.sndUna).toNat

theorem SetupOrder.unacknowledged {i e : ℕ} (h : SetupOrder c i e) (hs : c.fsm ≠ .listen) :
    c.unacknowledged = e - i := by
  have hle := h.le
  have hroom := h.room
  rw [TCPConnection.unacknowledged, if_neg hs, h.endSeq, h.una,
    toNat_ofNat_sub_ofNat (by omega) (by omega)]

theorem sendCommandInvoked_pending (h : c.FinPending) (hs : c.fsm ≠ .listen)
    (hflag : c.sendFinFlag = false) {byteLength : ℕ}
    (hroom : c.unacknowledged + byteLength ≤ 2 ^ 31 - 2) :
    Outcome (c.enqueueAppData byteLength).sendCommandInvoked
      (fun c' ↦ Kept c c' ∧ c'.FinPending) (fun _ ↦ True) := by
  obtain ⟨-, hpersist, u, n, m, e, hv, hvroom⟩ := h
  have hum := hv.una_le_nxt.trans hv.nxt_le_max
  have hm := hv.max_le_of_not_fin hflag
  rw [unacknowledged, if_neg hs, hv.endSeq, hv.una, toNat_ofNat_sub_ofNat (by omega) (by omega)]
    at hroom
  have hcore : SendCore (c.enqueueAppData byteLength) u n m (e + byteLength) :=
    hv.enqueueAppData hflag (by omega)
  refine (sendCommandInvoked_post ⟨hcore, hv.rexmit⟩).mono ?_ fun _ _ ↦ trivial
  rintro c' ⟨hs, n', m', hv', -⟩
  have hkept := (c.kept_enqueueAppData byteLength).trans hs.kept
  exact ⟨hkept, hv'.not_finSent (hkept.sendFinFlag.trans hflag), fun ht ↦ hpersist (hkept.persist ht),
    u, n', m', _, hv', by omega⟩

theorem processSend_records (h : HalfInv c) (byteLength : ℕ) (isn : Seq)
    (hflag : acceptsSend c.fsm = true → c.sendFinFlag = false)
    (hroom : c.unacknowledged + byteLength ≤ 2 ^ 31 - 2) :
    Records (c.processSend byteLength isn) := by
  unfold HalfInv at h
  have hsetup : c.SetupFits → c.fsm ≠ .listen → c.sendFinFlag = false →
      (c.enqueueAppData byteLength).SetupFits := by
    rintro ⟨i, e, ho, -⟩ hs hflag
    have hle := ho.le
    rw [ho.unacknowledged hs] at hroom
    exact ⟨i, _, ho.enqueueAppData hflag (by omega), by omega⟩
  have hkept := c.kept_enqueueAppData byteLength
  unfold processSend
  split <;> rename_i hs <;> rw [hs] at hflag
  · rw [hs] at h
    have hu : Unopened { c with active := true } := h.2.congr rfl rfl
    rw [unacknowledged, if_pos hs] at hroom
    refine Outcome.bind (Q := fun c' ↦ SetupOrder c' isn.toNat (isn.toNat + 1) ∧
      Kept { c with active := true } c') ((sendInitialSyn_post hu isn).mono (fun _ h ↦ h)
        fun _ _ ↦ trivial) fun c₁ h₁ ↦ ?_
    have hp₁ : c₁.PeerOpen := h₁.2.peerOpen h.1
    have hf₁ : c₁.sendFinFlag = false := h₁.2.sendFinFlag.trans (hflag rfl)
    show HalfInvAt (nextState c₁.active c₁.fsm .send) _
    rw [h₁.2.fsm.trans hs]
    exact ⟨hp₁, ⟨_, _, h₁.1.enqueueAppData hf₁ (by omega), by omega⟩, hf₁⟩
  · show HalfInvAt (nextState c.active c.fsm .send) _
    rw [hs] at h ⊢
    exact ⟨hkept.peerOpen h.1, hsetup h.2 (by simp [hs]) (hflag rfl)⟩
  · show HalfInvAt (nextState c.active c.fsm .send) _
    rw [hs] at h ⊢
    exact ⟨hkept.peerOpen h.1, hsetup h.2.1 (by simp [hs]) (hflag rfl), h.2.2⟩
  · rw [hs] at h
    refine (sendCommandInvoked_pending h.2 (by simp [hs]) (hflag rfl) hroom).bind fun c₁ h₁ ↦ ?_
    show HalfInvAt (nextState c₁.active c₁.fsm .send) _
    rw [h₁.1.fsm, hs]
    exact ⟨h₁.1.peerOpen h.1, h₁.2⟩
  · rw [hs] at h
    refine (sendCommandInvoked_pending h (by simp [hs]) (hflag rfl) hroom).bind fun c₁ h₁ ↦ ?_
    show HalfInvAt (nextState c₁.active c₁.fsm .send) _
    rw [h₁.1.fsm, hs]
    exact h₁.2
  all_goals exact trivial

theorem samePeerFin_sendFinNow (c : TCPConnection) : SamePeerFin c c.sendFinNow.markFin := by
  have hsends := (c.sends_setNxt c.sndMax).trans ((sends_sendToIP _
    { c.sendFromMax.ackSegment with finBit := true }).trans (sends_ackSent _))
  exact ⟨hsends.kept.finRcvd, hsends.kept.peerClosed⟩

theorem FinPending.markFin (h : c.FinPending) (hne : c.sndMax ≠ c.sendQueue.getBufferEndSeq) :
    c.markFin.FinPending := by
  obtain ⟨hsent, hpersist, u, n, m, e, hv, hroom⟩ := h
  exact ⟨hsent, hpersist, u, n, m, e, hv.markFin hroom (hv.toSendCore.max_eq_end.not.mp hne), hroom⟩

theorem processClose_records (h : HalfInv c) : Records c.processClose := by
  unfold HalfInv at h
  have hfin := c.samePeerFin_sendFinNow
  have hfsm := c.sendFinNow_frame.1
  unfold processClose
  split <;> rename_i hs <;> rw [hs] at h
  case h_1 | h_2 =>
    show HalfInvAt (nextState c.active c.fsm .close) _
    rw [hs]
    exact halfInvAt_closed _
  · refine Outcome.ite (fun _ ↦ ?_) fun hne ↦ ?_
    · show HalfInvAt (nextState _ c.sendFinNow.markFin.fsm .close) _
      rw [hfsm, hs]
      exact hfin.peerOpen h.1
    · show HalfInvAt (nextState c.active c.fsm .ignore) c.markFin
      rw [nextState_ignore, hs]
      obtain ⟨hpeer, i, e, ho, hroom⟩ := h
      exact ⟨hpeer, i, e, ho.markFin hne, hroom⟩
  · refine Outcome.ite (fun _ ↦ ?_) fun hne ↦ ?_
    · show HalfInvAt (nextState _ c.sendFinNow.markFin.fsm .close) _
      rw [hfsm, hs]
      exact hfin.peerOpen h.1
    · show HalfInvAt (nextState c.active c.fsm .ignore) c.markFin
      rw [nextState_ignore, hs]
      exact ⟨h.1, h.2.markFin hne⟩
  · refine Outcome.ite (fun _ ↦ ?_) fun hne ↦ ?_
    · show HalfInvAt (nextState _ c.sendFinNow.markFin.fsm .close) _
      rw [hfsm, hs]
      exact trivial
    · show HalfInvAt (nextState c.active c.fsm .ignore) c.markFin
      rw [nextState_ignore, hs]
      exact FinPending.markFin h hne
  all_goals exact trivial

theorem processAbort_records (c : TCPConnection) : Records c.processAbort := by
  unfold processAbort
  split <;> rename_i hs
  · exact trivial
  case h_7 =>
    show HalfInvAt (nextState c.active c.fsm .abort) _
    rw [nextState_abort _ (by assumption)]
    exact halfInvAt_closed _
  all_goals
    show HalfInvAt (nextState c.active c.fsm .abort) _
    rw [hs]
    exact halfInvAt_closed _

theorem processStatus_records (h : HalfInv c) : Records c.processStatus := by
  refine Outcome.ite (fun _ ↦ trivial) fun _ ↦ ?_
  have hi : Inert False c (c.sendIndicationToApp .status) :=
    c.inert_sendIndicationToApp _ (by decide)
  show HalfInvAt (nextState _ (c.sendIndicationToApp .status).fsm .status) _
  rw [nextState_status, hi.fsm]
  exact hi.halfInvAt h

theorem processOpenActive_records (h : HalfInv c) (localAddr remoteAddr : ℕ)
    (localPort remotePort ephemeralPort : ℤ) (isn : Seq) :
    Records (c.processOpenActive localAddr remoteAddr localPort remotePort ephemeralPort isn) := by
  refine Outcome.ite (fun _ ↦ trivial) fun hs ↦ Outcome.ite (fun _ ↦ trivial) fun _ ↦ ?_
  rw [ne_eq, not_not] at hs
  unfold HalfInv at h
  rw [hs] at h
  refine Outcome.bind (Q := fun c' ↦ c'.fsm = .init ∧ c'.PeerOpen ∧ c'.SetupFits ∧
    c'.sendFinFlag = false) ((sendInitialSyn_post ?_ isn).mono ?_ fun _ _ ↦ trivial) fun c₁ h₁ ↦ ?_
  · exact h.2.1.congr rfl rfl
  · rintro c₁ ⟨hsetup, hkept⟩
    exact ⟨hkept.fsm.trans hs, hkept.peerOpen h.1, ⟨_, _, hsetup, by omega⟩,
      hkept.sendFinFlag.trans h.2.2⟩
  · show HalfInvAt (nextState c₁.active c₁.fsm .openActive) _
    rw [h₁.1]
    exact h₁.2

theorem processOpenPassive_records (h : HalfInv c) (localAddr : ℕ) (localPort : ℤ) (fork : Bool) :
    Records (c.processOpenPassive localAddr localPort fork) := by
  refine Outcome.ite (fun _ ↦ trivial) fun hs ↦ Outcome.ite (fun _ ↦ trivial) fun _ ↦ ?_
  rw [ne_eq, not_not] at hs
  unfold HalfInv at h
  rw [hs] at h
  show HalfInvAt (nextState _ c.fsm .openPassive) _
  rw [hs]
  exact ⟨h.1, h.2.1.congr rfl rfl⟩

end Commands

/-! ## Timers -/

section Timers

variable {c : TCPConnection}

theorem HalfInv.cancelEvent (h : HalfInv c) (t : Timer) : HalfInv (c.cancelEvent t) := by
  have hsub : ∀ {t' : Timer}, t' ∈ (c.cancelEvent t).timers → t' ∈ c.timers :=
    fun ht ↦ (c.mem_cancelEvent.mp ht).1
  refine HalfInvAt.imp (s := c.fsm) h id rfl (fun hu ↦ ⟨hu.unsent, fun t' hd ht ↦ ?_⟩) ?_ ?_
  · exact hu.timers t' hd (hsub ht)
  · rintro ⟨i, e, ho, hroom⟩
    exact ⟨i, e, ⟨⟨ho.una, ho.iss, ho.beginSeq, ho.endSeq, ho.le, ho.room, ho.fin, ho.unsent,
      fun t' hd ht ↦ ho.timers t' hd (hsub ht)⟩, ho.nxt, ho.max⟩, hroom⟩
  · rintro ⟨hsent, hpersist, u, n, m, e, hv, hroom⟩
    exact ⟨hsent, fun ht ↦ hpersist (hsub ht), u, n, m, e, hv.cancelEvent t, hroom⟩

theorem processTimeoutConnEstab_records (h : HalfInv c) : Records c.processTimeoutConnEstab := by
  have hind : Inert False c (if c.active then c.sendIndicationToApp .timedOut else c) := by
    split
    · exact c.inert_sendIndicationToApp _ (by decide)
    · exact .refl c
  unfold HalfInv at h
  unfold processTimeoutConnEstab
  split <;> rename_i hs
  · rw [hs] at h
    obtain ⟨hpeer, i, e, ho, -⟩ := h
    show HalfInvAt (nextState _ (if c.active then _ else c).fsm .timeoutConnEstab) _
    rw [hind.fsm, hind.active, hs]
    cases ha : c.active with
    | true => exact halfInvAt_closed _
    | false => exact ⟨hpeer, ho.toOpening.unopened⟩
  · show HalfInvAt (nextState _ (if c.active then _ else c).fsm .timeoutConnEstab) _
    rw [hind.fsm, hs]
    exact halfInvAt_closed _
  · exact trivial

theorem processTimeout2MSL_records (c : TCPConnection) : Records c.processTimeout2MSL := by
  unfold processTimeout2MSL
  split <;> rename_i hs
  · show HalfInvAt (nextState c.active c.fsm .timeout2MSL) _
    rw [hs]
    exact halfInvAt_closed _
  · exact trivial

theorem processTimeoutFinWait2_records (c : TCPConnection) : Records c.processTimeoutFinWait2 := by
  unfold processTimeoutFinWait2
  split <;> rename_i hs
  · show HalfInvAt (nextState c.active c.fsm .timeoutFinWait2) _
    rw [hs]
    exact halfInvAt_closed _
  · exact trivial

theorem Inert.records_abort {c' : TCPConnection} (h : Inert False c c') (hc : HalfInv c) :
    HalfInvAt (nextState c'.active c'.fsm .abort) c' := by
  unfold HalfInv at hc
  rw [h.fsm]
  by_cases hi : c.fsm = .init
  · have hn : nextState c'.active c.fsm .abort = .init := by
      rw [hi]
      rfl
    rw [hn]
    rw [hi] at hc
    exact h.halfInvAt hc
  · rw [nextState_abort _ hi]
    exact halfInvAt_closed _

theorem processTimeoutSynRexmit_records (h : HalfInv c) : Records c.processTimeoutSynRexmit := by
  refine c.processTimeoutSynRexmit_post.mono ?_ fun _ _ ↦ trivial
  rintro ⟨c₁, event⟩ ⟨hkept, ⟨rfl, hinert⟩ | ⟨rfl, hs, hsetup⟩⟩
  · exact hinert.records_abort h
  · have hfits : c.SetupFits → c₁.SetupFits :=
      fun ⟨i, e, ho, hroom⟩ ↦ ⟨i, e, hsetup i e ho, hroom⟩
    unfold HalfInv at h
    show HalfInvAt (nextState c₁.active c₁.fsm .ignore) c₁
    rw [nextState_ignore, hkept.fsm]
    rcases hs with hs | hs <;> rw [hs] at h ⊢
    · exact ⟨hkept.peerOpen h.1, hfits h.2.1, hkept.sendFinFlag.trans h.2.2⟩
    · exact ⟨hkept.peerOpen h.1, hfits h.2⟩

/-- Retransmission does not send the FIN for the first time. -/
theorem SendPost.finPending {c' : TCPConnection} {u n m e : ℕ} (h : SendPost False c u m e c')
    (hv : SendVars c u n m e) (hroom : e + 1 < u + 2 ^ 31) (hc : c.FinPending) :
    c'.FinPending := by
  obtain ⟨hs, n', m', hv', hm, hnew, -⟩ := h
  obtain rfl : m' = m := le_antisymm (not_lt.mp fun hlt ↦ (hnew hlt).1) hm
  refine ⟨?_, fun ht ↦ hc.2.1 (hs.kept.persist ht), u, n', m', e, hv', hroom⟩
  rw [hv'.finSent, ← hv.finSent]
  exact hc.1

/-- A timer of the algorithm in ESTABLISHED or CLOSE_WAIT. -/
theorem algProcessTimer_pending (h : c.FinPending) {t : Timer} (ht : t ∈ c.timers)
    (hclass : c.tcpAlgorithmClass ≠ .dumbTCP) :
    Outcome ((c.cancelEvent t).algProcessTimer t)
      (fun r ↦ r.2 = .abort ∨ r.1.FinPending) (fun _ ↦ True) := by
  obtain ⟨hsent, hpersist, u, n, m, e, hv, hroom⟩ := h
  have hv' := hv.cancelEvent t
  have hpending : (c.cancelEvent t).FinPending :=
    ⟨hsent, fun hp ↦ hpersist (c.mem_cancelEvent.mp hp).1, u, n, m, e, hv', hroom⟩
  have hne : t = .rexmit → u ≠ m := by
    rintro rfl
    exact hv.rexmit hclass ht
  have hold : t ≠ .persist := by
    rintro rfl
    exact hpersist ht
  refine (algProcessTimer_post hv' hclass (c.not_mem_cancelEvent t) hne).mono ?_ fun _ _ ↦ trivial
  rintro r (habort | hpost)
  · exact .inl habort
  · rw [eq_false hold] at hpost
    exact .inr (hpost.finPending hv' hroom hpending)

theorem sendingTimer_records (h : HalfInv c) {t : Timer} (ht : t ∈ c.timers)
    (hsends : sendsData t = true) (hclass : c.tcpAlgorithmClass ≠ .dumbTCP) :
    Records ((c.cancelEvent t).algProcessTimer t) := by
  have hframe := (c.cancelEvent t).algProcessTimer_sends hclass (c.not_mem_cancelEvent t)
  have hinit : c.fsm ≠ .init := by
    intro hs
    unfold HalfInv at h
    rw [hs] at h
    exact h.2.1.timers t hsends ht
  -- the connection gives up, or it stays in its state and the invariant is to be kept
  have hkeep : ∀ Q : TCPConnection → Prop,
      Outcome ((c.cancelEvent t).algProcessTimer t) (fun r ↦ r.2 = .abort ∨ Q r.1) (fun _ ↦ True) →
      (∀ c', Kept (c.cancelEvent t) c' → Q c' → HalfInvAt c.fsm c') →
      Records ((c.cancelEvent t).algProcessTimer t) := by
    intro Q hQ himp
    refine (hQ.and hframe).mono ?_ fun _ _ ↦ trivial
    rintro ⟨c₁, event⟩ ⟨hpost, ⟨hs, he⟩ | ⟨hc₁, he⟩⟩
    · obtain rfl : event = .ignore := he
      show HalfInvAt (nextState c₁.active c₁.fsm .ignore) c₁
      rw [nextState_ignore, hs.kept.fsm]
      exact himp c₁ hs.kept (hpost.resolve_left nofun)
    · obtain rfl : event = .abort := he
      have hfsm : c₁.fsm = c.fsm := congrArg (·.fsm) hc₁
      show HalfInvAt (nextState c₁.active c₁.fsm .abort) c₁
      rw [hfsm, nextState_abort _ hinit]
      exact halfInvAt_closed _
  have hany : Outcome ((c.cancelEvent t).algProcessTimer t)
      (fun r ↦ r.2 = .abort ∨ True) (fun _ ↦ True) :=
    hframe.mono (fun _ _ ↦ .inr trivial) fun _ _ ↦ trivial
  unfold HalfInv at h
  cases hs : c.fsm with
  | init => exact absurd hs hinit
  | listen =>
    rw [hs] at h
    exact absurd ht (h.2.timers t hsends)
  | synSent =>
    rw [hs] at h
    obtain ⟨-, ⟨i, e, ho, -⟩, -⟩ := h
    exact absurd ht (ho.timers t hsends)
  | synRcvd =>
    rw [hs] at h
    obtain ⟨-, i, e, ho, -⟩ := h
    exact absurd ht (ho.timers t hsends)
  | established =>
    rw [hs] at h hkeep
    exact hkeep _ (algProcessTimer_pending h.2 ht hclass) fun c' hkept hc' ↦
      ⟨hkept.peerOpen h.1, hc'⟩
  | closeWait =>
    rw [hs] at h hkeep
    exact hkeep _ (algProcessTimer_pending h ht hclass) fun c' _ hc' ↦ hc'
  | finWait1 | finWait2 =>
    rw [hs] at h hkeep
    exact hkeep (fun _ ↦ True) hany fun c' hkept _ ↦ hkept.peerOpen h
  | closed | lastAck | closing | timeWait =>
    exact hkeep (fun _ ↦ True) hany fun c' _ _ ↦ halfInvAt_of_isClosing (by rw [hs]; rfl) c'

theorem algorithmTimer_records (h : HalfInv c) {t : Timer} (ht : t ∈ c.timers) :
    Records (if (c.cancelEvent t).tcpAlgorithmClass = .dumbTCP then .error .nullPointer
      else (c.cancelEvent t).algProcessTimer t) := by
  refine Outcome.ite (fun _ ↦ trivial) fun hclass ↦ ?_
  cases hsends : sendsData t with
  | true => exact sendingTimer_records h ht hsends hclass
  | false =>
    have hcancel := h.cancelEvent t
    unfold algProcessTimer
    split
    · cases hsends
    · cases hsends
    · cases hsends
    · exact (inert_sendAck _).records_ignore hcancel
    · exact (Inert.refl _).records_ignore hcancel

theorem processTimer_records (h : HalfInv c) {t : Timer} (ht : t ∈ c.timers) :
    Records ((c.cancelEvent t).processTimer t) := by
  cases t with
  | the2MSL => exact processTimeout2MSL_records _
  | connEstab => exact processTimeoutConnEstab_records (h.cancelEvent _)
  | finWait2 => exact processTimeoutFinWait2_records _
  | synRexmit => exact processTimeoutSynRexmit_records (h.cancelEvent _)
  | rexmit | persist | delayedAck | keepAlive => exact algorithmTimer_records h ht

end Timers

/-! ## Runs -/

/-- The events that leave a FIN unrecorded: SEND after CLOSE, and the segments with which both
closes meet. -/
def losesFin (c : TCPConnection) : Event → Bool
  | .send _ _ => acceptsSend c.fsm && c.sendFinFlag
  | .segment seg srcAddr destAddr _ =>
      c.matchesSegment seg srcAddr destAddr && c.reachesAckField seg &&
        (c.finMeetsClose seg || c.staleFinOnSyn seg)
  | _ => false

/-- At most `2 ^ 31 - 2` sequence numbers are unacknowledged. -/
def fitsSequenceSpace (c : TCPConnection) : Event → Bool
  | .send byteLength _ => decide (c.unacknowledged + byteLength ≤ 2 ^ 31 - 2)
  | _ => true

section Runs

variable {c : TCPConnection}

theorem IsNew.halfInv (h : c.IsNew) : HalfInv c := by
  have hu := h.sendInv
  rw [h] at hu ⊢
  exact ⟨⟨rfl, nofun⟩, hu, rfl⟩

theorem perform_records (h : HalfInv c) (hopen : c.fsm ≠ .closed) {e : Event}
    (hrec : c.receives e = true) (hok : c.losesFin e = false)
    (hfits : c.fitsSequenceSpace e = true) : Records (c.perform e) := by
  cases e with
  | openActive => exact processOpenActive_records h _ _ _ _ _ _
  | openPassive => exact processOpenPassive_records h _ _ _
  | send byteLength isn =>
    refine processSend_records h byteLength isn (fun hs ↦ ?_) (of_decide_eq_true hfits)
    simpa [losesFin, hs] using hok
  | close => exact processClose_records h
  | abort => exact c.processAbort_records
  | status => exact processStatus_records h
  | segment seg srcAddr destAddr isn =>
    simp only [receives, Bool.and_eq_true, bne_iff_ne] at hrec
    refine Outcome.bind (Q := fun _ ↦ True) (outcome_check (fun _ ↦ trivial) fun _ _ ↦ trivial)
      fun _ _ ↦ Outcome.bind (Q := fun _ ↦ True)
        (outcome_check (fun _ ↦ trivial) fun _ _ ↦ trivial) fun _ _ ↦ ?_
    refine processRcvSegment_records h hopen hrec.1 srcAddr destAddr isn fun hreach ↦ ?_
    simpa [losesFin, hrec.2, hreach] using hok
  | timer t => exact processTimer_records h ((c.isScheduled_iff t).mp hrec)

theorem step_halfInv (h : HalfInv c) {e : Event}
    (hallowed : c.losesFin e = false ∧ c.fitsSequenceSpace e = true) :
    Outcome (c.step e) HalfInv (fun _ ↦ True) := by
  refine Outcome.ite (fun _ ↦ h) fun hcond ↦ ?_
  simp only [Bool.or_eq_true, decide_eq_true_eq, Bool.not_eq_true', not_or, Bool.not_eq_false]
    at hcond
  exact (perform_records h hcond.1 hcond.2 hallowed.1 hallowed.2).step

theorem HalfInv.half_closes (h : HalfInv c) :
    (c.fsm = .finWait1 ∨ c.fsm = .finWait2 → .indication .peerClosed ∉ c.log) ∧
      (c.fsm = .established ∨ c.fsm = .closeWait → ¬ c.finSent) := by
  unfold HalfInv at h
  refine ⟨?_, ?_⟩
  · rintro (hs | hs) <;> rw [hs] at h <;> exact h.2
  · rintro (hs | hs) <;> rw [hs] at h
    · exact h.2.1
    · exact h.1

/-- In every run without the events of `losesFin`, the peer's FIN has not been consumed in
FIN_WAIT_1 and FIN_WAIT_2 (`rcv_nxt` moves over it together with the indication), and our FIN has
not been sent in ESTABLISHED and CLOSE_WAIT. -/
theorem half_closes_recorded
    (h : Reachable IsNew (fun c e ↦ c.losesFin e = false ∧ c.fitsSequenceSpace e = true) step c) :
    (c.fsm = .finWait1 ∨ c.fsm = .finWait2 → .indication .peerClosed ∉ c.log) ∧
      (c.fsm = .established ∨ c.fsm = .closeWait → ¬ c.finSent) :=
  (h.outcome (fun _ hc ↦ hc.halfInv) fun _ _ hc ↦ step_halfInv hc).1.half_closes

/-- CLOSE waits for ten bytes that the window of the peer does not take at once. -/
def deferredClosing : List Event :=
  establish 5 ++ [.send 10 0, .close]

theorem half_closes_recorded_on_deferredClosing :
    ∃ c, run step {} deferredClosing = .ok c ∧ c.fsm = .established ∧ c.sendFinFlag = true ∧
      ¬ c.finSent := by
  refine ⟨_, rfl, rfl, rfl, (half_closes_recorded ?_).2 (.inl rfl)⟩
  exact (Reachable.start isNew_default).of_run deferredClosing (by decide +kernel) rfl

/-- The ACK that opens the window for our FIN comes with the peer's FIN: the deferred CLOSE
replaces RCV_FIN and the connection is in FIN_WAIT_1 with the peer's FIN consumed. -/
theorem finWait1_after_peer_fin :
    ∃ c, Reachable IsNew (fun c e ↦ c.fitsSequenceSpace e = true) step c ∧ c.fsm = .finWait1 ∧
      .indication .peerClosed ∈ c.log ∧ c.rcvNxt = 502 := by
  refine ⟨_, (Reachable.start isNew_default).of_run (deferredClosing ++ [fromPeer
    { sequenceNo := 501, ackNo := 106, ackBit := true, finBit := true, window := 1000 }])
    (by decide +kernel) rfl, rfl, by decide +kernel, rfl⟩

end Runs

end TCPConnection

end InetManet.TCP
