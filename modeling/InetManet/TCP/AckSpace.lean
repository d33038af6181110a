import InetManet.TCP.SendSpace

/-!
# Acknowledgments in the send sequence space

An ACK that the code takes for new names a position in `(snd_una, snd_max]`; every other ACK leaves
`snd_una` alone. `processAckInEstabEtc` therefore keeps the order of the send variables, and the
queue continues to start at `snd_una`, or at the position of the FIN once that is acknowledged.
-/

namespace InetManet.TCP

open TransitionSystem SerialNumber

namespace TCPConnection

/-- The connection without what the processing of an ACK may change. -/
def ackCore (c : TCPConnection) : TCPConnection :=
  { c.core with sndUna := 0, sndWnd := 0, sndWl1 := 0, sndWl2 := 0, dupacks := 0,
                finAckRcvd := false, sendQueue := {} }

theorem Sends.ackCore {c c' : TCPConnection} (h : Sends c c') : c'.ackCore = c.ackCore :=
  congrArg (fun d : TCPConnection ↦ { d with sndUna := 0, sndWnd := 0, sndWl1 := 0, sndWl2 := 0,
                                             dupacks := 0, finAckRcvd := false, sendQueue := {} })
    h.core

/-- What `processAckInEstabEtc` does to the send space of a connection at `u`, `m` and `e`. -/
structure AckPost (c : TCPConnection) (seg : TCPSegment) (u m e : ℕ) (c' : TCPConnection) :
    Prop where
  frame : c'.ackCore = c.ackCore
  timers : ∀ t, t ≠ .rexmit → t ≠ .delayedAck → (t ∈ c'.timers ↔ t ∈ c.timers)
  log : ∃ segs : List TCPSegment, c'.log = c.log ++ segs.map .toIP
  vars : ∃ u' n' m', SendVars c' u' n' m' e ∧ u ≤ u' ∧ u' ≤ m ∧ m ≤ m' ∧ (m < m' → n' = m') ∧
    Emits c c' u m' ∧ (c.Held u e → c'.Held u' e) ∧ (u' = u ∨ seg.ackNo = BitVec.ofNat 32 u')

section Arithmetic

variable {c : TCPConnection} {seg : TCPSegment} {u n m e : ℕ}

theorem exists_ack_position {una max ack : Seq} (huna : una = BitVec.ofNat 32 u)
    (hmax : max = BitVec.ofNat 32 m) (hum : u ≤ m) (hroom : m < u + 2 ^ 31)
    (hge : seqGE una ack = false) (hle : seqLE ack max = true) :
    ∃ a, ack = BitVec.ofNat 32 a ∧ u < a ∧ a ≤ m := by
  have hack := eq_ofNat_add ack u
  generalize hd : (ack - BitVec.ofNat 32 u).toNat = d at hack
  have hd' : d < 2 ^ 32 := hd ▸ (ack - BitVec.ofNat 32 u).isLt
  subst huna hmax
  rw [hack] at hge hle
  -- the first comparison puts the ACK in the half space above `snd_una`
  have hlow : 0 < d ∧ d ≤ 2 ^ 31 := by
    by_contra hnot
    rcases Nat.eq_zero_or_pos d with rfl | hpos
    · simp [seqGE] at hge
    · have hdist := toNat_ofNat_sub_ofNat_of_lt (w := 32) (a := u + d) (b := u) (by omega) (by omega)
      simp only [seqGE, decide_eq_false_iff_not, not_lt, hdist] at hge
      omega
  rw [seqLE_ofNat (by omega) (by omega), decide_eq_true_eq] at hle
  exact ⟨u + d, hack, by omega, hle⟩

/-- In the send space only the ACK of the FIN is at `e + 1`. -/
theorem acksOurFin_eq (hfin : c.FinAt e) {a : ℕ} (hack : seg.ackNo = BitVec.ofNat 32 a)
    (ha : a ≤ e + 1) (hroom : e + 1 < a + 2 ^ 32) :
    c.acksOurFin seg = (c.sendFinFlag && decide (a = e + 1)) := by
  unfold acksOurFin
  cases hflag : c.sendFinFlag with
  | false => rfl
  | true =>
    rw [hack, hfin hflag, Bool.true_and, Bool.true_and, Bool.eq_iff_iff, beq_iff_eq,
      decide_eq_true_eq]
    have hone : BitVec.ofNat 32 e + 1 = BitVec.ofNat 32 (e + 1) := (BitVec.ofNat_add _ _).symm
    rw [hone, ofNat_inj (by omega) (by omega)]

end Arithmetic

section Processing

variable {c : TCPConnection} {seg : TCPSegment} {u n m e : ℕ}

/-- The part of the connection that `updateSendWindow` leaves alone. -/
theorem updateSendWindow_key (c : TCPConnection) (seg : TCPSegment) :
    (c.updateSendWindow seg).sendKey = c.sendKey ∧
      (c.updateSendWindow seg).ackCore = c.ackCore ∧
      (c.updateSendWindow seg).sendQueue = c.sendQueue ∧
      (c.updateSendWindow seg).timers = c.timers := by
  unfold updateSendWindow
  split <;> exact ⟨rfl, rfl, rfl, rfl⟩

/-- The connection after `discardUpTo`. -/
def setBegin (c : TCPConnection) (seq : Seq) : TCPConnection :=
  { c with sendQueue := { c.sendQueue with beginSeq := seq } }

theorem discardUpTo_eq (c : TCPConnection) (seq : Seq) :
    c.discardUpTo seq =
      (check c.assertsEnabled (seqLE c.sendQueue.beginSeq seq && seqLE seq c.sendQueue.endSeq)
        (.assertion .discardUpTo) >>= fun _ ↦ .ok (c.setBegin seq)) := by
  unfold discardUpTo TCPVirtualDataSendQueue.discardUpTo
  cases check (φ := Fault) c.assertsEnabled
      (seqLE c.sendQueue.beginSeq seq && seqLE seq c.sendQueue.endSeq) (.assertion .discardUpTo) with
  | error e => rfl
  | ok u => rfl

/-- The queue starts at `snd_una` or one behind it, as it does before our SYN is acknowledged. -/
def HeldNear (c : TCPConnection) (u e : ℕ) : Prop :=
  ∃ b, c.sendQueue.beginSeq = BitVec.ofNat 32 b ∧ b ≤ u + 1 ∧ b ≤ e ∧ e < b + 2 ^ 31

theorem Held.near (h : c.Held u e) (hroom : e < u + 2 ^ 31) : c.HeldNear u e :=
  ⟨min u e, h, by omega, by omega, by omega⟩

/-- A new ACK moves `snd_una` and the start of the queue. -/
theorem advanceSndUna_post (h : SendOrder c u n m e) (hmroom : m < u + 2 ^ 31)
    (heroom : e + 1 ≤ u + 2 ^ 31) (hge : seqGE c.sndUna seg.ackNo = false)
    (hle : seqLE seg.ackNo c.sndMax = true) :
    Outcome (c.advanceSndUna seg)
      (fun c' ↦ c'.ackCore = c.ackCore ∧ c'.log = c.log ∧ c'.timers = c.timers ∧
        ∃ u' n', SendCore c' u' n' m e ∧ u < u' ∧ u' ≤ m ∧ seg.ackNo = BitVec.ofNat 32 u' ∧
          c'.Held u' e)
      (fun f ↦ c.HeldNear u e → ¬ f.IsSendAssertion) := by
  have hun := h.una_le_nxt
  have hnm := h.nxt_le_max
  have hmax := h.max_le_end
  obtain ⟨a, hack, hlt, ham⟩ := exists_ack_position h.una h.max (by omega) hmroom hge hle
  have hfin : c.FinAt e := h.finAt (by omega)
  have hacks := acksOurFin_eq hfin hack (by omega) (by omega)
  -- the new start of the queue
  have hbegin : (if c.acksOurFin seg then seg.ackNo - 1 else seg.ackNo) =
      BitVec.ofNat 32 (min a e) := by
    by_cases ha : a = e + 1
    · have hflag : c.sendFinFlag = true := by
        rcases h.fin with ⟨hf, -, -⟩ | ⟨-, hm⟩ | ⟨-, hm⟩
        · exact hf
        · omega
        · omega
      have hone : BitVec.ofNat 32 (e + 1) = BitVec.ofNat 32 e + 1 := BitVec.ofNat_add _ _
      rw [hacks, hflag, hack, ha, if_pos (by simp), hone, BitVec.add_sub_cancel]
      congr
      omega
    · rw [hacks, if_neg (by simp [ha]), hack]
      congr
      omega
  have hnxt : (if seqLess c.sndNxt seg.ackNo then seg.ackNo else c.sndNxt) =
      BitVec.ofNat 32 (max n a) := by
    rw [h.nxt, hack, seqLess_ofNat (by omega) (by omega)]
    by_cases hna : n < a
    · rw [if_pos (by simpa using hna)]
      congr
      omega
    · rw [if_neg (by simpa using hna)]
      congr
      omega
  have hvars : SendCore ((c.moveSndUna seg).setBegin (BitVec.ofNat 32 (min a e))) a (max n a) m e := by
    refine ⟨⟨hack, hnxt, h.max, h.endSeq, by omega, by omega, hmax, ?_, h.finSent⟩, by omega,
      fun _ ↦ by omega⟩
    rcases h.fin with hf | hf | ⟨hu, hm⟩
    · exact .inl hf
    · exact .inr (.inl hf)
    · omega
  unfold advanceSndUna
  rw [hbegin]
  refine Outcome.bind (Q := (· = (c.moveSndUna seg).setBegin (BitVec.ofNat 32 (min a e)))) ?_ ?_
  · rw [discardUpTo_eq]
    refine Outcome.bind (Q := fun _ ↦ True) (outcome_check (fun _ ↦ trivial) ?_) fun _ _ ↦ rfl
    rintro - hcheck ⟨b, hb, hbu, hbe, hbroom⟩
    have hb' : (c.moveSndUna seg).sendQueue.beginSeq = BitVec.ofNat 32 b := hb
    have he' : (c.moveSndUna seg).sendQueue.endSeq = BitVec.ofNat 32 e := h.endSeq
    rw [hb', he', seqLE_ofNat (by omega) (by omega), seqLE_ofNat (by omega) (by omega)] at hcheck
    simp at hcheck
    omega
  · rintro c₁ rfl
    obtain ⟨hkey, hcore, hqueue, htimers⟩ :=
      updateSendWindow_key ((c.moveSndUna seg).setBegin (BitVec.ofNat 32 (min a e))) seg
    refine ⟨hcore, ?_, htimers, a, max n a, hvars.congr hkey, hlt, ham, hack, ?_⟩
    · simp only [sendKey, Prod.mk.injEq] at hkey
      exact hkey.2.2.2.2.2.2
    · rw [Held, hqueue]
      rfl

theorem SendPost.ackPost {c₁ c' : TCPConnection} (h : SendPost True c₁ u m e c')
    (hframe : c₁.ackCore = c.ackCore) (htimers : c₁.timers = c.timers) (hlog : c₁.log = c.log)
    (hqueue : c₁.sendQueue = c.sendQueue) (hrcv : c₁.rcvNxt = c.rcvNxt) (hum : u ≤ m) :
    AckPost c seg u m e c' := by
  obtain ⟨hs, n', m', hv, hm, hnew, he⟩ := h
  refine ⟨hs.ackCore.trans hframe, htimers ▸ hs.timers, hlog ▸ hs.log, u, n', m', hv, le_rfl, hum, hm,
    fun hlt ↦ (hnew hlt).2, fun o ho ↦ ?_, fun hheld ↦ ?_, .inl rfl⟩
  · have := he o ho
    rwa [hlog, hrcv] at this
  · rw [hs.held, Held, hqueue]
    exact hheld

theorem AckPost.setDupacks {c' : TCPConnection} (h : AckPost c seg u m e c') (k : BitVec 16) :
    AckPost c seg u m e { c' with dupacks := k } := by
  obtain ⟨hframe, htimers, hlog, u', n', m', hv, hrest⟩ := h
  exact ⟨hframe, htimers, hlog, u', n', m', hv.congr rfl rfl id, hrest⟩

theorem processAckInEstabEtc_post (h : SendVars c u n m e) (seg : TCPSegment) :
    Outcome (c.processAckInEstabEtc seg) (fun r ↦ AckPost c seg u m e r.2)
      (fun f ↦ c.Held u e →
        (c.isDuplicateAck seg = true → { c with dupacks := c.dupacks + 1 }.fastRetransmits →
          c.OneSegmentHeld u m e) → ¬ f.IsSendAssertion) := by
  have hum := h.una_le_nxt.trans h.nxt_le_max
  unfold processAckInEstabEtc
  refine Outcome.ite (fun hge ↦ Outcome.ite (fun hdup ↦ ?_) fun _ ↦ ?_) fun hge ↦
    Outcome.ite (fun hle ↦ ?_) fun hle ↦ ?_
  · have hne : u ≠ m := by
      rintro rfl
      simp [isDuplicateAck, h.una, h.max] at hdup
    have hv : SendVars { c with dupacks := c.dupacks + 1 } u n m e := h.congr rfl rfl id
    refine Outcome.bind ((receivedDuplicateAck_post hv hne).mono (fun _ h ↦ h)
      fun f hf hheld hone ↦ hf hheld (hone hdup)) fun c₁ h₁ ↦ ?_
    exact h₁.ackPost rfl rfl rfl rfl rfl hum
  · exact (h.sendPost.ackPost rfl rfl rfl rfl rfl hum).setDupacks 0
  · refine Outcome.bind ((advanceSndUna_post h.toSendOrder ?_ ?_ (by simpa using hge) hle).mono
      (fun _ h ↦ h) fun f hf hheld _ ↦ hf (hheld.near h.room)) ?_
    · exact h.toSendCore.max_lt
    · exact h.room
    rintro c₁ ⟨hframe, hlog, htimers, u', n', hcore, hlt, hum', hack, hheld'⟩
    refine Outcome.bind ((receivedDataAck_post hcore).mono (fun _ h ↦ h)
      fun f hf _ _ ↦ hf hheld') ?_
    rintro c₂ ⟨hs, n₂, m₂, hv₂, hm₂, hnew₂, he₂⟩
    have hrcv : c₁.rcvNxt = c.rcvNxt := congrArg (·.rcvNxt) hframe
    refine AckPost.setDupacks ⟨hs.ackCore.trans hframe, htimers ▸ hs.timers, hlog ▸ hs.log, u', n₂, m₂, hv₂,
      hlt.le, hum', hm₂, fun hlt ↦ (hnew₂ hlt).2, fun o ho ↦ ?_, fun _ ↦ hs.held.mpr hheld',
      .inr hack⟩ 0
    rcases he₂ o ho with ho | ⟨seg', p, rfl, hp⟩
    · exact .inl (hlog ▸ ho)
    · exact .inr ⟨seg', p, rfl, { hp with una_le := hlt.le.trans hp.una_le,
                                          ackNo := hp.ackNo.trans hrcv }⟩
  · refine Outcome.bind (Q := fun _ ↦ True)
      (outcome_check (fun _ ↦ trivial) fun _ _ _ _ ↦ ?_) fun _ _ ↦ ?_
    · rintro (h | h | h | h) <;> cases h
    · exact ((sendAck_post h).ackPost rfl rfl rfl rfl rfl hum).setDupacks 0

end Processing

end TCPConnection

end InetManet.TCP
