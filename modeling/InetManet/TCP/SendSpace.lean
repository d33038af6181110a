import InetManet.TCP.Transition

/-!
# The send sequence space

Sequence numbers are read as positions: `SendVars c u n m e` gives `snd_una`, `snd_nxt`, `snd_max`
and the end of the send queue the positions `u ≤ n ≤ m`, with `m` at most `e`, or `e + 1` once our
FIN has been sent. All comparisons of the code then compare positions. The sending utilities and
hooks keep `snd_una` and the queue, move `snd_nxt` and only raise `snd_max`.
-/

namespace InetManet.TCP

open TransitionSystem SerialNumber

/-- The ASSERTs on the send queue and on retransmission. -/
def Fault.IsSendAssertion (e : Fault) : Prop :=
  e = .assertion .createSegmentWithBytes ∨ e = .assertion .discardUpTo ∨
    e = .assertion .retransmitOneSegment ∨ e = .assertion .retransmitData

namespace TCPConnection

/-- Our FIN has been put on the wire. -/
def finSent (c : TCPConnection) : Prop := ∃ seg, .toIP seg ∈ c.log ∧ seg.finBit = true

/-- The FIN is requested and its position is the end of the queue; or it is not requested; or
nothing is queued and nothing outstanding, and a `send_fin` left over from an earlier passive open
has no effect. -/
def FinOrder (c : TCPConnection) (u m e : ℕ) : Prop :=
  (c.sendFinFlag = true ∧ c.sndFinSeq = BitVec.ofNat 32 e ∧ m ≠ e) ∨
    (c.sendFinFlag = false ∧ m ≤ e) ∨ (u = e ∧ m = e)

/-- Positions of the send variables. -/
structure SendOrder (c : TCPConnection) (u n m e : ℕ) : Prop where
  una : c.sndUna = BitVec.ofNat 32 u
  nxt : c.sndNxt = BitVec.ofNat 32 n
  max : c.sndMax = BitVec.ofNat 32 m
  endSeq : c.sendQueue.endSeq = BitVec.ofNat 32 e
  una_le_nxt : u ≤ n
  nxt_le_max : n ≤ m
  max_le_end : m ≤ e + 1
  fin : c.FinOrder u m e
  finSent : c.finSent ↔ m = e + 1

/-- All positions, that of a requested FIN included, are in the half space above `snd_una`. -/
structure SendCore (c : TCPConnection) (u n m e : ℕ) : Prop extends SendOrder c u n m e where
  room : e < u + 2 ^ 31
  finRoom : c.sendFinFlag = true → e + 1 < u + 2 ^ 31

/-- With `TCPBaseAlg`, the REXMIT timer runs only while something is outstanding. -/
def RexmitOrder (c : TCPConnection) (u m : ℕ) : Prop :=
  c.tcpAlgorithmClass ≠ .dumbTCP → .rexmit ∈ c.timers → u ≠ m

structure SendVars (c : TCPConnection) (u n m e : ℕ) : Prop extends SendCore c u n m e where
  rexmit : c.RexmitOrder u m

/-- The queue starts at `snd_una`; the FIN is not in the queue. -/
def Held (c : TCPConnection) (u e : ℕ) : Prop := c.sendQueue.beginSeq = BitVec.ofNat 32 (min u e)

/-- `seg` carries bytes from `[u, m)`, starting at `p`, and acknowledges `ack`. -/
structure Carries (ack : Seq) (u m : ℕ) (seg : TCPSegment) (p : ℕ) : Prop where
  seq : seg.sequenceNo = BitVec.ofNat 32 p
  una_le : u ≤ p
  le_max : p + seg.payloadLength ≤ m
  ackNo : seg.ackNo = ack
  ackBit : seg.ackBit = true
  rstBit : seg.rstBit = false
  synBit : seg.synBit = false

/-- Everything `c'` has output since `c` are segments with bytes from `[u, m)`. -/
def Emits (c c' : TCPConnection) (u m : ℕ) : Prop :=
  ∀ o ∈ c'.log, o ∈ c.log ∨ ∃ seg p, o = .toIP seg ∧ Carries c.rcvNxt u m seg p

/-- The outcome of sending from a connection at `u`, `m` and `e`. Under `new`, sequence numbers may
have been sent for the first time, which leaves `snd_nxt` at `snd_max`. -/
def SendPost (new : Prop) (c : TCPConnection) (u m e : ℕ) (c' : TCPConnection) : Prop :=
  Sends c c' ∧ ∃ n' m', SendVars c' u n' m' e ∧ m ≤ m' ∧ (m < m' → new ∧ n' = m') ∧
    Emits c c' u m'

/-- A computation that sends; the assertions on the queue hold if the queue starts at `snd_una`. -/
abbrev SendsFrom (new : Prop) (c : TCPConnection) (u m e : ℕ) (x : Except Fault TCPConnection) :
    Prop :=
  Outcome x (SendPost new c u m e) (fun f ↦ c.Held u e → ¬ f.IsSendAssertion)

abbrev SendsFrom₂ (c : TCPConnection) (u m e : ℕ) (x : Except Fault (Bool × TCPConnection)) :
    Prop :=
  Outcome x (fun r ↦ SendPost True c u m e r.2) (fun f ↦ c.Held u e → ¬ f.IsSendAssertion)

section Relations

variable {new : Prop} {c c₁ c₂ : TCPConnection} {u n m m' e : ℕ}

theorem Emits.refl (c : TCPConnection) (u m : ℕ) : Emits c c u m := fun _ ho ↦ .inl ho

theorem Carries.mono {ack : Seq} {seg : TCPSegment} {p : ℕ} (h : Carries ack u m seg p)
    (hm : m ≤ m') : Carries ack u m' seg p :=
  { h with le_max := h.le_max.trans hm }

theorem Emits.trans (h₁ : Emits c c₁ u m) (h₂ : Emits c₁ c₂ u m') (hm : m ≤ m')
    (hrcv : c₁.rcvNxt = c.rcvNxt) : Emits c c₂ u m' := by
  intro o ho
  rcases h₂ o ho with ho | ⟨seg, p, rfl, hs⟩
  · rcases h₁ o ho with ho | ⟨seg, p, rfl, hs⟩
    · exact .inl ho
    · exact .inr ⟨seg, p, rfl, hs.mono hm⟩
  · exact .inr ⟨seg, p, rfl, { hs with ackNo := hs.ackNo.trans hrcv }⟩

theorem SendVars.sendPost (h : SendVars c u n m e) : SendPost new c u m e c :=
  ⟨.refl c, n, m, h, le_rfl, fun hlt ↦ absurd hlt (lt_irrefl m), .refl c u m⟩

theorem Sends.held {c' : TCPConnection} (h : Sends c c') : c'.Held u e ↔ c.Held u e := by
  rw [Held, Held, h.sendQueue]

theorem SendPost.then {x : Except Fault TCPConnection} (h : SendPost False c u m e c₁)
    (hx : ∀ n, SendVars c₁ u n m e → SendsFrom new c₁ u m e x) : SendsFrom new c u m e x := by
  obtain ⟨hs, n₁, m₁, hv, hm, hnew, he⟩ := h
  obtain rfl : m₁ = m := le_antisymm (not_lt.mp fun hlt ↦ (hnew hlt).1) hm
  refine (hx n₁ hv).mono ?_ fun f hf hheld ↦ hf (hs.held.mpr hheld)
  rintro c₂ ⟨hs₂, n₂, m₂, hv₂, hm₂, hnew₂, he₂⟩
  exact ⟨hs.trans hs₂, n₂, m₂, hv₂, hm₂, hnew₂, he.trans he₂ hm₂ hs.rcvNxt⟩

/-- The part of a connection that `SendCore` reads. -/
def sendKey (c : TCPConnection) : Seq × Seq × Seq × Seq × Bool × Seq × List Output :=
  (c.sndUna, c.sndNxt, c.sndMax, c.sendQueue.endSeq, c.sendFinFlag, c.sndFinSeq, c.log)

theorem SendOrder.congr (h : SendOrder c u n m e) (hk : c₁.sendKey = c.sendKey) :
    SendOrder c₁ u n m e := by
  simp only [sendKey, Prod.mk.injEq] at hk
  obtain ⟨huna, hnxt, hmax, hend, hflag, hseq, hlog⟩ := hk
  refine ⟨huna.trans h.una, hnxt.trans h.nxt, hmax.trans h.max, hend.trans h.endSeq, h.una_le_nxt,
    h.nxt_le_max, h.max_le_end, ?_, ?_⟩
  · rw [FinOrder, hflag, hseq]
    exact h.fin
  · rw [TCPConnection.finSent, hlog]
    exact h.finSent

theorem SendCore.congr (h : SendCore c u n m e) (hk : c₁.sendKey = c.sendKey) :
    SendCore c₁ u n m e := by
  refine ⟨h.toSendOrder.congr hk, h.room, fun hf ↦ h.finRoom ?_⟩
  simp only [sendKey, Prod.mk.injEq] at hk
  rw [← hk.2.2.2.2.1, hf]

theorem SendVars.congr (h : SendVars c u n m e) (hk : c₁.sendKey = c.sendKey)
    (hclass : c₁.tcpAlgorithmClass = c.tcpAlgorithmClass)
    (htimers : .rexmit ∈ c₁.timers → .rexmit ∈ c.timers) : SendVars c₁ u n m e :=
  ⟨h.toSendCore.congr hk, fun hd ht ↦ h.rexmit (hclass ▸ hd) (htimers ht)⟩

theorem SendVars.post_congr (h : SendVars c u n m e) (hk : c₁.sendKey = c.sendKey)
    (hs : Sends c c₁) (htimers : .rexmit ∈ c₁.timers → .rexmit ∈ c.timers) :
    SendPost new c u m e c₁ := by
  refine ⟨hs, n, m, h.congr hk hs.algorithm htimers, le_rfl, fun hlt ↦ absurd hlt (lt_irrefl m),
    fun o ho ↦ .inl ?_⟩
  simp only [sendKey, Prod.mk.injEq] at hk
  rwa [← hk.2.2.2.2.2.2]

end Relations

/-! ## One segment -/

section Segment

variable {c : TCPConnection} {u n m e bytes : ℕ}

theorem bytesAvailable_eq (hnxt : c.sndNxt = BitVec.ofNat 32 n)
    (hend : c.sendQueue.endSeq = BitVec.ofNat 32 e) (h₁ : n ≤ e + 1) (h₂ : e < n + 2 ^ 31) :
    c.sendQueue.getBytesAvailable c.sndNxt = e - n := by
  unfold TCPVirtualDataSendQueue.getBytesAvailable TCPVirtualDataSendQueue.getBufferEndSeq
  rw [hend, hnxt, seqLess_ofNat (by omega) (by omega)]
  by_cases hlt : n < e
  · rw [if_pos (by simpa using hlt), toNat_ofNat_sub_ofNat (by omega) (by omega)]
  · rw [if_neg (by simpa using hlt)]
    omega

/-- The position of a requested FIN is the end of the queue. -/
def FinAt (c : TCPConnection) (e : ℕ) : Prop :=
  c.sendFinFlag = true → c.sndFinSeq = BitVec.ofNat 32 e

theorem FinOrder.finAt (h : c.FinOrder u m e) (hlive : u < e ∨ m ≠ e) : c.FinAt e := by
  intro hflag
  rcases h with ⟨-, hseq, -⟩ | ⟨hflag', -⟩ | ⟨hu, hm⟩
  · exact hseq
  · rw [hflag] at hflag'
    cases hflag'
  · omega

/-- The FIN rides on the segment that reaches the end of the queue. -/
theorem finRides_eq (hnxt : c.sndNxt = BitVec.ofNat 32 n) (hfin : c.FinAt e)
    (h₁ : n + bytes < e + 2 ^ 32) (h₂ : e < n + bytes + 2 ^ 32) :
    c.finRides bytes = (c.sendFinFlag && decide (n + bytes = e)) := by
  cases hflag : c.sendFinFlag with
  | false => simp [finRides, hflag]
  | true =>
    have hinj := ofNat_inj (w := 32) h₁ h₂
    rw [finRides, hflag, hfin hflag, hnxt, ← BitVec.ofNat_add, Bool.true_and, Bool.true_and,
      Bool.eq_iff_iff, beq_iff_eq, decide_eq_true_eq, hinj]

/-- Position of `snd_nxt` after a segment of `bytes` bytes from `n`. -/
def nextPos (c : TCPConnection) (n bytes e : ℕ) : ℕ :=
  if c.sendFinFlag && decide (n + bytes = e) then e + 1 else n + bytes

/-- Segments with bytes from `[u, k)` have been sent, and `snd_nxt` is at `n'`. -/
structure SegmentPost (c c' : TCPConnection) (u k n' e : ℕ) : Prop where
  nxt : c'.sndNxt = BitVec.ofNat 32 n'
  max : c'.sndMax = c.sndMax
  timers : c'.timers = c.timers
  emits : Emits c c' u k
  finSent : c'.finSent → c.finSent ∨ n' = e + 1
  finKept : c.finSent → c'.finSent

theorem afterSegment_post (hnxt : c.sndNxt = BitVec.ofNat 32 n) (hfin : c.FinAt e) (hun : u ≤ n)
    {k : ℕ} (hk : n + bytes ≤ k) (h₁ : n + bytes < e + 2 ^ 32) (h₂ : e < n + bytes + 2 ^ 32) :
    SegmentPost c (c.afterSegment bytes) u k (c.nextPos n bytes e) e ∧
      (c.sendFinFlag = true → n + bytes = e → (c.afterSegment bytes).finSent) := by
  have hrides := finRides_eq hnxt hfin h₁ h₂
  have hlog : (c.afterSegment bytes).log = c.log ++ [.toIP { c.segmentOf bytes with
      srcPort := c.localPort, destPort := c.remotePort }] := rfl
  refine ⟨⟨?_, rfl, rfl, ?_, ?_, ?_⟩, ?_⟩
  · show (if c.finRides bytes then c.sndFinSeq + 1 else c.sndNxt + BitVec.ofNat 32 bytes) = _
    rw [hrides, nextPos]
    by_cases hr : (c.sendFinFlag && decide (n + bytes = e)) = true
    · rw [if_pos hr, if_pos hr, hfin (by simp_all), BitVec.ofNat_add]
      rfl
    · rw [if_neg hr, if_neg hr, hnxt, BitVec.ofNat_add]
  · intro o ho
    rw [hlog, List.mem_append, List.mem_singleton] at ho
    refine ho.imp_right fun ho ↦ ⟨_, n, ho, hnxt, hun, hk, rfl, rfl, rfl, rfl⟩
  · rintro ⟨seg, hseg, hbit⟩
    rw [hlog, List.mem_append, List.mem_singleton] at hseg
    rcases hseg with hseg | hseg
    · exact .inl ⟨seg, hseg, hbit⟩
    · right
      obtain rfl := Output.toIP.inj hseg
      have hbit' : c.finRides bytes = true := hbit
      rw [hrides] at hbit'
      rw [nextPos, if_pos hbit']
  · rintro ⟨seg, hseg, hbit⟩
    exact ⟨seg, by rw [hlog]; exact List.mem_append_left _ hseg, hbit⟩
  · intro hflag he
    refine ⟨_, by rw [hlog]; exact List.mem_append_right _ (List.mem_singleton_self _), ?_⟩
    show c.finRides bytes = true
    simp [hrides, hflag, he]

/-- `createSegmentWithBytes` finds the bytes of `[n, n + bytes)` in the queue. -/
theorem queueHolds_eq (hheld : c.Held u e) (hnxt : c.sndNxt = BitVec.ofNat 32 n)
    (hend : c.sendQueue.endSeq = BitVec.ofNat 32 e) (hun : u ≤ n) (hk : n + bytes ≤ e)
    (hroom : e < u + 2 ^ 31) : c.queueHolds bytes = true := by
  have hmin : min u e = u := by omega
  unfold queueHolds
  rw [hheld, hnxt, hend, hmin, ← BitVec.ofNat_add, seqLE_ofNat (by omega) (by omega),
    seqLE_ofNat (by omega) (by omega)]
  simp [hun, hk]

/-- One segment: its assertion holds when the bytes are in the queue. -/
theorem sendSegment_post (hnxt : c.sndNxt = BitVec.ofNat 32 n) (hfin : c.FinAt e) (hun : u ≤ n)
    {k : ℕ} (hk : n + bytes ≤ k) (h₁ : n + bytes < e + 2 ^ 32) (h₂ : e < n + bytes + 2 ^ 32) :
    Outcome (c.sendSegment bytes)
      (fun c' ↦ SegmentPost c c' u k (c.nextPos n bytes e) e ∧
        (c.sendFinFlag = true → n + bytes = e → c'.finSent) ∧ Sends c c')
      (fun f ↦ c.queueHolds bytes = true → ¬ f.IsSendAssertion) := by
  rw [sendSegment_eq]
  refine Outcome.bind (Q := fun _ ↦ True) (outcome_check (fun _ ↦ trivial) fun _ hq hq' ↦ ?_)
    fun _ _ ↦ ?_
  · rw [hq] at hq'
    cases hq'
  · obtain ⟨hp, hf⟩ := afterSegment_post hnxt hfin hun hk h₁ h₂
    exact ⟨hp, hf, c.sends_afterSegment bytes⟩

theorem SegmentPost.trans {c₁ c₂ : TCPConnection} {k k' n₁ n₂ : ℕ}
    (h₁ : SegmentPost c c₁ u k n₁ e) (h₂ : SegmentPost c₁ c₂ u k' n₂ e) (hk : k ≤ k')
    (hrcv : c₁.rcvNxt = c.rcvNxt) (hfin : n₁ = e + 1 → n₂ = e + 1) :
    SegmentPost c c₂ u k' n₂ e := by
  refine ⟨h₂.nxt, h₂.max.trans h₁.max, h₂.timers.trans h₁.timers, h₁.emits.trans h₂.emits hk hrcv,
    fun hf ↦ ?_, fun hf ↦ h₂.finKept (h₁.finKept hf)⟩
  rcases h₂.finSent hf with hf | hn
  · exact (h₁.finSent hf).imp_right hfin
  · exact .inr hn

end Segment

/-! ## New data -/

section NewData

variable {c : TCPConnection} {u n m e : ℕ}

/-- New segments have been sent from `n` up to `n'`; with the FIN `n'` is `e + 1`. -/
structure NewPost (c c' : TCPConnection) (u n n' e : ℕ) : Prop extends
    SegmentPost c c' u n' n' e where
  le : n ≤ n'
  reach : n' ≤ e ∧ (c.sendFinFlag = true → n' ≠ e) ∨
    n' = e + 1 ∧ c.sendFinFlag = true ∧ c'.finSent
  sends : Sends c c'

theorem sendSegment_new (hnxt : c.sndNxt = BitVec.ofNat 32 n) (hfin : c.FinAt e)
    (hend : c.sendQueue.endSeq = BitVec.ofNat 32 e) (hun : u ≤ n) {bytes : ℕ}
    (hbytes : n + bytes ≤ e) (hroom : e < u + 2 ^ 31) :
    Outcome (c.sendSegment bytes) (fun c' ↦ NewPost c c' u n (c.nextPos n bytes e) e)
      (fun f ↦ c.Held u e → ¬ f.IsSendAssertion) := by
  refine (sendSegment_post hnxt hfin hun (k := c.nextPos n bytes e) ?_ (by omega) (by omega)).mono
    ?_ fun f hf hheld ↦ hf (queueHolds_eq hheld hnxt hend hun hbytes hroom)
  · unfold nextPos
    split <;> omega
  · rintro c' ⟨hp, hsent, hs⟩
    refine ⟨hp, ?_, ?_, hs⟩
    · unfold nextPos
      split <;> omega
    · unfold nextPos
      split <;> rename_i hr
      · simp only [Bool.and_eq_true, decide_eq_true_eq] at hr
        exact .inr ⟨rfl, hr.1, hsent hr.1 hr.2⟩
      · simp only [Bool.and_eq_true, decide_eq_true_eq, not_and] at hr
        exact .inl ⟨hbytes, hr⟩

theorem endlessLoop_not_isSendAssertion : ¬ Fault.IsSendAssertion .endlessLoop := by
  rintro (h | h | h | h) <;> cases h

theorem Sends.finAt {c' : TCPConnection} (h : Sends c c') (hc : c.FinAt e) : c'.FinAt e := by
  intro hflag
  rw [h.sndFinSeq]
  exact hc (h.sendFinFlag ▸ hflag)

theorem NewPost.trans {c₁ c₂ : TCPConnection} {n₁ n₂ : ℕ} (h₁ : NewPost c c₁ u n n₁ e)
    (h₂ : NewPost c₁ c₂ u n₁ n₂ e) (hle : n₁ ≤ e) : NewPost c c₂ u n n₂ e := by
  refine ⟨h₁.toSegmentPost.trans h₂.toSegmentPost h₂.le h₁.sends.rcvNxt (by omega),
    h₁.le.trans h₂.le, ?_, h₁.sends.trans h₂.sends⟩
  rw [← h₁.sends.sendFinFlag]
  exact h₂.reach

theorem sendWholeSegments_stop (rounds : ℕ) (c : TCPConnection) {bytesToSend : ℕ}
    (h : bytesToSend < c.sndMss.toNat) :
    Outcome (sendWholeSegments rounds c bytesToSend) (· = c) (¬ Fault.IsSendAssertion ·) := by
  cases rounds with
  | zero => exact endlessLoop_not_isSendAssertion
  | succ rounds =>
    unfold sendWholeSegments
    rw [if_neg (by omega)]
    exact rfl

/-- Whole segments only; the FIN can ride on the last one, which ends the loop. -/
theorem sendWholeSegments_new (rounds : ℕ) (c : TCPConnection) (n bytesToSend : ℕ)
    (hnxt : c.sndNxt = BitVec.ofNat 32 n) (hfin : c.FinAt e)
    (hend : c.sendQueue.endSeq = BitVec.ofNat 32 e) (hun : u ≤ n) (hbytes : n + bytesToSend ≤ e)
    (hne : c.sendFinFlag = true → n ≠ e) (hroom : e < u + 2 ^ 31)
    (hmss : c.sndMss.toNat ≤ bytesToSend) :
    Outcome (sendWholeSegments rounds c bytesToSend)
      (fun c' ↦ ∃ n', NewPost c c' u n n' e ∧ n < n')
      (fun f ↦ c.Held u e → ¬ f.IsSendAssertion) := by
  induction rounds generalizing c n bytesToSend with
  | zero => exact fun _ ↦ endlessLoop_not_isSendAssertion
  | succ rounds ih =>
    unfold sendWholeSegments
    rw [if_pos hmss]
    refine (sendSegment_new hnxt hfin hend hun (by omega) hroom).bind fun c₁ h₁ ↦ ?_
    have hsame : c₁.sndMss = c.sndMss := h₁.sends.sndMss
    by_cases hlast : (c.sendFinFlag && decide (n + c.sndMss.toNat = e)) = true
    · -- the FIN has gone out, and nothing is left to send
      have hn₁ : c.nextPos n c.sndMss.toNat e = e + 1 := if_pos hlast
      simp only [Bool.and_eq_true, decide_eq_true_eq] at hlast
      have hpos : 0 < c.sndMss.toNat := by
        have := hne hlast.1
        omega
      refine (sendWholeSegments_stop rounds c₁ (by rw [hsame]; omega)).mono ?_ fun f hf _ ↦ hf
      rintro c₂ rfl
      exact ⟨_, h₁, by omega⟩
    · have hn₁ : c.nextPos n c.sndMss.toNat e = n + c.sndMss.toNat := if_neg hlast
      rw [hn₁] at h₁
      simp only [Bool.and_eq_true, decide_eq_true_eq, not_and] at hlast
      by_cases hmore : c.sndMss.toNat ≤ bytesToSend - c.sndMss.toNat
      · refine (ih c₁ (n + c.sndMss.toNat) _ h₁.nxt (h₁.sends.finAt hfin)
          (h₁.sends.sendQueue ▸ hend) (by omega) (by omega)
          (fun hf ↦ hlast (h₁.sends.sendFinFlag ▸ hf)) (hsame ▸ hmore)).mono ?_ ?_
        · rintro c₂ ⟨n₂, h₂, hlt⟩
          exact ⟨n₂, h₁.trans h₂ (by omega), by omega⟩
        · exact fun f hf hheld ↦ hf (h₁.sends.held.mpr hheld)
      · refine (sendWholeSegments_stop rounds c₁ (by rw [hsame]; omega)).mono ?_ fun f hf _ ↦ hf
        rintro c₂ rfl
        exact ⟨_, h₁, by omega⟩

theorem sendSegments_new (hnxt : c.sndNxt = BitVec.ofNat 32 n) (hfin : c.FinAt e)
    (hend : c.sendQueue.endSeq = BitVec.ofNat 32 e) (hun : u ≤ n) {bytesToSend : ℕ}
    (hpos : 0 < bytesToSend) (hbytes : n + bytesToSend ≤ e) (hroom : e < u + 2 ^ 31) :
    Outcome (c.sendSegments bytesToSend) (fun c' ↦ ∃ n', NewPost c c' u n n' e ∧ n < n')
      (fun f ↦ c.Held u e → ¬ f.IsSendAssertion) := by
  refine Outcome.ite (fun _ ↦ ?_) fun hmss ↦ ?_
  · refine (sendSegment_new hnxt hfin hend hun hbytes hroom).post fun c' h ↦ ⟨_, h, ?_⟩
    unfold nextPos
    split <;> omega
  · exact sendWholeSegments_new _ c n bytesToSend hnxt hfin hend hun hbytes (fun _ ↦ by omega) hroom
      (by omega)

end NewData

/-! ## Timers of the algorithm -/

section AlgorithmTimers

variable {u n m e : ℕ}

/-- Only timers and the retransmission count have changed. -/
structure Retimes (c c' : TCPConnection) : Prop where
  key : c'.sendKey = c.sendKey
  sends : Sends c c'

protected theorem Retimes.refl (c : TCPConnection) : Retimes c c := ⟨rfl, .refl c⟩

protected theorem Retimes.trans {c c₁ c₂ : TCPConnection} (h₁ : Retimes c c₁)
    (h₂ : Retimes c₁ c₂) : Retimes c c₂ :=
  ⟨h₂.key.trans h₁.key, h₁.sends.trans h₂.sends⟩

variable (c : TCPConnection)

theorem retimes_cancelEvent {t : Timer} (ht : t = .rexmit ∨ t = .delayedAck) :
    Retimes c (c.cancelEvent t) :=
  ⟨rfl, c.sends_cancelEvent ht⟩

theorem retimes_ackSent : Retimes c c.ackSent := by
  refine ⟨?_, c.sends_ackSent⟩
  unfold ackSent
  split
  · rfl
  · split <;> rfl

theorem ackSent_rexmit : .rexmit ∈ c.ackSent.timers ↔ .rexmit ∈ c.timers := by
  unfold ackSent
  split
  · rfl
  · split
    · simp [mem_cancelEvent]
    · rfl

theorem scheduleTimeout_key (t : Timer) :
    Outcome (c.scheduleTimeout t) (fun c' ↦ c'.sendKey = c.sendKey) (¬ Fault.IsSendAssertion ·) := by
  unfold scheduleTimeout
  refine Outcome.ite (fun _ ↦ ?_) fun _ ↦ Outcome.ite (fun _ ↦ ?_) fun _ ↦ rfl
  all_goals rintro (h | h | h | h) <;> cases h

theorem startRexmitTimer_key :
    Outcome c.startRexmitTimer (fun c' ↦ c'.sendKey = c.sendKey) (¬ Fault.IsSendAssertion ·) :=
  scheduleTimeout_key { c with rexmitCount := 0 } .rexmit

/-- A hook that keeps the send variables only works on timers. -/
theorem OnlySends.retimes {x : Except Fault TCPConnection} (h : OnlySends c x)
    (hkey : Outcome x (fun c' ↦ c'.sendKey = c.sendKey) (¬ Fault.IsSendAssertion ·)) :
    Outcome x (Retimes c) (¬ Fault.IsSendAssertion ·) :=
  (hkey.and h).mono (fun _ h ↦ ⟨h.1, h.2⟩) fun _ h ↦ h.1

theorem dataSent_retimes : Outcome c.dataSent (Retimes c) (¬ Fault.IsSendAssertion ·) := by
  refine OnlySends.retimes c c.dataSent_sends ?_
  unfold dataSent
  split
  · refine (scheduleTimeout_key _ _).post fun c' h ↦ h.trans ?_
    split <;> rfl
  · exact Outcome.ite (fun _ ↦ c.startRexmitTimer_key) fun _ ↦ rfl

theorem restartRexmitTimer_retimes :
    Outcome (c.cancelEvent .rexmit).startRexmitTimer (Retimes c) (¬ Fault.IsSendAssertion ·) :=
  OnlySends.retimes c c.restartRexmitTimer_sends (startRexmitTimer_key _)

theorem scheduleDelayedAck_retimes (h : .delayedAck ∉ c.timers) :
    Outcome (c.scheduleTimeout .delayedAck)
      (fun c' ↦ Retimes c c' ∧ (.rexmit ∈ c'.timers → .rexmit ∈ c.timers))
      (¬ Fault.IsSendAssertion ·) := by
  refine (c.scheduleTimeout_outcome h).mono ?_ ?_
  · rintro c' rfl
    exact ⟨⟨rfl, c.sends_cons_timer (.inr rfl)⟩, fun ht ↦ by simpa using ht⟩
  · rintro e rfl (h | h | h | h) <;> cases h

end AlgorithmTimers

theorem Retimes.log {c c' : TCPConnection} (h : Retimes c c') : c'.log = c.log := by
  have hk := h.key
  simp only [sendKey, Prod.mk.injEq] at hk
  exact hk.2.2.2.2.2.2

/-- The REXMIT timer may be started while something is outstanding. -/
theorem SendPost.retimes {new : Prop} {c c₁ c₂ : TCPConnection} {u m e : ℕ}
    (h : SendPost new c u m e c₁)
    (hr : Retimes c₁ c₂) (ht : .rexmit ∈ c₂.timers → .rexmit ∈ c₁.timers ∨ u < m) :
    SendPost new c u m e c₂ := by
  obtain ⟨hs, n', m', hv, hm, hnew, he⟩ := h
  refine ⟨hs.trans hr.sends, n', m', ⟨hv.toSendCore.congr hr.key, fun hd hx ↦ ?_⟩, hm, hnew, ?_⟩
  · rcases ht hx with hx | hlt
    · exact hv.rexmit (hr.sends.algorithm ▸ hd) hx
    · omega
  · exact fun o ho ↦ he o (hr.log ▸ ho)

/-! ## Sending and retransmitting data -/

section Data

variable {new : Prop} {c : TCPConnection} {u n m e : ℕ}

theorem SendVars.setNxt (h : SendVars c u n m e) {n' : ℕ} {nxt : Seq}
    (hn : nxt = BitVec.ofNat 32 n') (hu : u ≤ n') (hm : n' ≤ m) :
    SendVars { c with sndNxt := nxt } u n' m e :=
  ⟨⟨⟨h.una, hn, h.max, h.endSeq, hu, hm, h.max_le_end, h.fin, h.finSent⟩, h.room, h.finRoom⟩, h.rexmit⟩

theorem SendPost.of_setNxt {c' : TCPConnection} {nxt : Seq}
    (h : SendPost new { c with sndNxt := nxt } u m e c') : SendPost new c u m e c' := by
  obtain ⟨hs, n', m', hv, hm, hnew, he⟩ := h
  exact ⟨(c.sends_setNxt nxt).trans hs, n', m', hv, hm, hnew, he⟩

/-- `snd_max` follows `snd_nxt` after new segments have been sent. -/
theorem rememberSent_post (h : SendVars c u m m e) {c₁ : TCPConnection} {n' : ℕ}
    (h₁ : NewPost c c₁ u m n' e) (hlt : m < n') (hm : m < e) (hfin : c.FinAt e) :
    Outcome c₁.rememberSent (SendPost True c u m e) (¬ Fault.IsSendAssertion ·) := by
  have hun := h.una_le_nxt
  have hflag := h₁.sends.sendFinFlag
  have hcore : SendCore { c₁ with sndMax := c₁.sndNxt } u n' n' e := by
    refine ⟨⟨h₁.sends.sndUna.trans h.una, h₁.nxt, h₁.nxt, h₁.sends.sendQueue ▸ h.endSeq, by omega,
      le_rfl, ?_, ?_, ?_, ?_⟩, h.room, fun hf ↦ h.finRoom (hflag ▸ hf)⟩
    · rcases h₁.reach with ⟨hr, -⟩ | ⟨hr, -, -⟩ <;> omega
    · show (c₁.sendFinFlag = true ∧ _) ∨ (c₁.sendFinFlag = false ∧ _) ∨ _
      rw [hflag]
      cases hf : c.sendFinFlag with
      | true =>
        refine .inl ⟨rfl, h₁.sends.sndFinSeq.trans (hfin hf), ?_⟩
        rcases h₁.reach with ⟨-, hr⟩ | ⟨hr, -, -⟩
        · exact hr hf
        · omega
      | false =>
        refine .inr (.inl ⟨rfl, ?_⟩)
        rcases h₁.reach with ⟨hr, -⟩ | ⟨-, hr, -⟩
        · exact hr
        · rw [hf] at hr
          cases hr
    · intro hs
      rcases h₁.finSent hs with hs | hs
      · have := h.finSent.mp hs
        omega
      · exact hs
    · intro hn
      rcases h₁.reach with ⟨hr, -⟩ | ⟨-, -, hr⟩
      · omega
      · exact hr
  have hack := retimes_ackSent { c₁ with sndMax := c₁.sndNxt }
  refine (dataSent_retimes _).post fun c₂ h₂ ↦ ?_
  have hre := hack.trans h₂
  refine ⟨h₁.sends.trans ((c₁.sends_setMax _).trans hre.sends), n', n',
    ⟨hcore.congr hre.key, fun _ _ ↦ by omega⟩, hlt.le, fun _ ↦ ⟨trivial, rfl⟩, ?_⟩
  exact fun o ho ↦ h₁.emits o (hre.log ▸ ho)

theorem sendData_post (h : SendVars c u n m e) (fullSegmentsOnly : Bool) (congestionWindow : ℤ) :
    SendsFrom₂ c u m e (c.sendData fullSegmentsOnly congestionWindow) := by
  have hun := h.una_le_nxt.trans h.nxt_le_max
  have h₀ : SendVars c.sendFromMax u m m e := h.setNxt h.max hun le_rfl
  have hidle : SendPost True c u m e c.sendFromMax :=
    ⟨c.sends_setNxt _, m, m, h₀, le_rfl, fun _ ↦ ⟨trivial, rfl⟩, fun o ho ↦ .inl ho⟩
  unfold sendData
  refine Outcome.ite (fun _ ↦ hidle) fun hbuf ↦ Outcome.ite (fun _ ↦ hidle) fun hwin ↦
    Outcome.ite (fun _ ↦ hidle) fun _ ↦ ?_
  have hroom := h.room
  have havail := bytesAvailable_eq h₀.nxt h₀.endSeq h₀.max_le_end (by omega)
  rw [havail] at hbuf ⊢
  have hm : m < e := by omega
  have hfin := h₀.fin.finAt (.inr hm.ne)
  refine Outcome.bind (Q := fun _ ↦ True) (outcome_check (fun _ ↦ trivial) fun _ _ _ ↦ ?_)
    fun _ _ ↦ ?_
  · rintro (h | h | h | h) <;> cases h
  · refine (sendSegments_new h₀.nxt hfin h₀.endSeq hun ?_ ?_ h.room).bind ?_
    · omega
    · omega
    · rintro c₁ ⟨n', h₁, hlt⟩
      refine ((rememberSent_post h₀ h₁ hlt hm hfin).mono (fun _ h ↦ h) fun f hf _ ↦ hf).bind
        fun c₂ h₂ ↦ ?_
      exact h₂.of_setNxt

/-- Retransmission has sent segments in front of `m` and left `snd_nxt` at or below `m`. -/
def RetransmitPost (c : TCPConnection) (u m e : ℕ) (c' : TCPConnection) : Prop :=
  Sends c c' ∧ ∃ n', SegmentPost c c' u m n' e ∧ u ≤ n' ∧ n' ≤ m

theorem RetransmitPost.sendPost (h : SendVars c u n m e) {c' : TCPConnection}
    (hp : RetransmitPost c.sendFromUna u m e c') : SendPost new c u m e c' := by
  obtain ⟨hs, n', hseg, hun, hnm⟩ := hp
  have hmax := h.max_le_end
  refine ⟨(c.sends_setNxt _).trans hs, n', m, ⟨⟨⟨hs.sndUna.trans h.una, hseg.nxt,
    hseg.max.trans h.max, hs.sendQueue ▸ h.endSeq, hun, hnm, hmax, ?_, ?_, ?_⟩, h.room,
    fun hf ↦ h.finRoom (hs.sendFinFlag ▸ hf)⟩, ?_⟩, le_rfl,
    fun hlt ↦ absurd hlt (lt_irrefl m), hseg.emits⟩
  · rw [FinOrder, hs.sendFinFlag, hs.sndFinSeq]
    exact h.fin
  · intro hf
    rcases hseg.finSent hf with hf | hn
    · exact h.finSent.mp hf
    · omega
  · exact fun hm ↦ hseg.finKept (h.finSent.mpr hm)
  · intro hd ht
    rw [hseg.timers] at ht
    exact h.rexmit (hs.algorithm ▸ hd) ht

theorem SendOrder.max_eq_of_reach (h : SendOrder c u n m e) (hne : u ≠ m ∨ c.sendFinFlag = false)
    {bytes k : ℕ} (hflag : c.sendFinFlag = true) (hk : k + bytes = e) (hm : k + bytes ≤ m) :
    m = e + 1 := by
  have hmax := h.max_le_end
  replace hne := hne.resolve_right fun hf ↦ absurd (hflag.symm.trans hf) nofun
  rcases h.fin with ⟨-, -, hme⟩ | ⟨hf, -⟩ | ⟨hu, hm'⟩
  · omega
  · rw [hflag] at hf
    cases hf
  · omega

theorem SendOrder.finAt (h : SendOrder c u n m e) (hne : u ≠ m ∨ c.sendFinFlag = false) :
    c.FinAt e := by
  rcases hne with hne | hflag
  · refine h.fin.finAt ?_
    by_cases hm : m = e
    · have := h.una_le_nxt.trans h.nxt_le_max
      exact .inl (by omega)
    · exact .inr hm
  · exact fun hf ↦ absurd (hflag.symm.trans hf) nofun

theorem SendCore.max_lt (h : SendCore c u n m e) : m < u + 2 ^ 31 := by
  have hroom := h.room
  have hfin := h.finRoom
  rcases h.fin with ⟨hf, -⟩ | ⟨-, hm⟩ | ⟨-, hm⟩
  · exact h.max_le_end.trans_lt (hfin hf)
  · omega
  · omega

theorem SendCore.outstanding_eq (h : SendCore c u n m e) : (c.sndMax - c.sndUna).toNat = m - u := by
  have hun := h.una_le_nxt.trans h.nxt_le_max
  have hmax := h.max_le_end
  have hroom := h.room
  rw [h.max, h.una, toNat_ofNat_sub_ofNat hun (by omega)]

/-- The bytes of one segment from `snd_una` are in the queue: there is more than one segment of
data before an outstanding FIN. -/
def OneSegmentHeld (c : TCPConnection) (u m e : ℕ) : Prop :=
  0 < c.sndMss.toNat ∧ (m = e + 1 → c.sndMss.toNat < m - u)

theorem retransmitOneSegment_eq (c : TCPConnection) :
    c.retransmitOneSegment =
      (check c.assertsEnabled (decide (min c.sndMss.toNat (c.sndMax - c.sndUna).toNat ≠ 0))
          (.assertion .retransmitOneSegment) >>= fun _ ↦
        c.sendFromUna.sendSegment (min c.sndMss.toNat (c.sndMax - c.sndUna).toNat) >>= fun c' ↦
          .ok c'.ackSent) := rfl

theorem retransmitOneSegment_post (h : SendVars c u n m e) (hne : u ≠ m ∨ c.sendFinFlag = false) :
    Outcome c.retransmitOneSegment (SendPost new c u m e)
      (fun f ↦ u ≠ m → c.Held u e → c.OneSegmentHeld u m e → ¬ f.IsSendAssertion) := by
  have hun := h.una_le_nxt.trans h.nxt_le_max
  have hmax := h.max_le_end
  have hroom := h.room
  have hfin := h.toSendOrder.finAt hne
  rw [retransmitOneSegment_eq, h.toSendCore.outstanding_eq]
  refine Outcome.bind (Q := fun _ ↦ True)
    (outcome_check (fun _ ↦ trivial) fun _ hb hum _ hsafe _ ↦ ?_) fun _ _ ↦ ?_
  · simp only [decide_eq_false_iff_not, ne_eq, not_not] at hb
    have := hsafe.1
    omega
  · refine Outcome.bind ((sendSegment_post (c := c.sendFromUna) (n := u) (k := m) (u := u) h.una hfin
      le_rfl ?_ ?_ ?_).mono (fun _ h ↦ h) fun f hf _ hheld hsafe ↦ hf ?_) ?_
    · omega
    · omega
    · omega
    · refine queueHolds_eq (c := c.sendFromUna) hheld h.una h.endSeq le_rfl ?_ hroom
      have := hsafe.2
      omega
    · rintro c₁ ⟨hseg, -, hs⟩
      have hpost : SendPost new c u m e c₁ := by
        refine RetransmitPost.sendPost h ⟨hs, _, hseg, ?_, ?_⟩
        · unfold nextPos
          split <;> omega
        · unfold nextPos
          split <;> rename_i hr
          · simp only [Bool.and_eq_true, decide_eq_true_eq] at hr
            have := h.toSendOrder.max_eq_of_reach hne hr.1 hr.2 (by omega)
            omega
          · omega
      exact hpost.retimes (retimes_ackSent c₁) fun ht ↦ .inl (c₁.ackSent_rexmit.mp ht)

theorem retransmitLoop_post (rounds : ℕ) (c : TCPConnection) (n bytesToSend : ℕ)
    (hnxt : c.sndNxt = BitVec.ofNat 32 n) (hfin : c.FinAt e)
    (hend : c.sendQueue.endSeq = BitVec.ofNat 32 e) (hun : u ≤ n) (hsum : n + bytesToSend = m)
    (hmax : m ≤ e + 1) (hne : c.sendFinFlag = true → m ≠ e) (hroom : e < u + 2 ^ 31) :
    Outcome (retransmitLoop rounds c bytesToSend) (RetransmitPost c u m e)
      (fun f ↦ c.Held u e → ¬ f.IsSendAssertion) := by
  induction rounds generalizing c n bytesToSend with
  | zero => exact fun _ ↦ endlessLoop_not_isSendAssertion
  | succ rounds ih =>
    unfold retransmitLoop
    refine Outcome.ite (fun hpos ↦ ?_) fun hpos ↦ ?_
    · rw [bytesAvailable_eq hnxt hend (by omega) (by omega)]
      generalize hb : min (min bytesToSend c.sndMss.toNat) (e - n) = bytes
      refine Outcome.bind ((sendSegment_post hnxt hfin hun (k := m) (by omega)
        (by omega) (by omega)).mono (fun _ h ↦ h) fun f hf hheld ↦
        hf (queueHolds_eq hheld hnxt hend hun (by omega) hroom)) ?_
      rintro c₁ ⟨hseg, -, hs⟩
      have hflag := hs.sendFinFlag
      by_cases hrides : (c.sendFinFlag && decide (n + bytes = e)) = true
      · -- the FIN has been sent again: "do not send packets after the FIN"
        have hn₁ : c.nextPos n bytes e = e + 1 := if_pos hrides
        rw [hn₁] at hseg
        simp only [Bool.and_eq_true, decide_eq_true_eq] at hrides
        have hm : m ≠ e := hne hrides.1
        rw [if_pos]
        · exact ⟨hs, e + 1, hseg, by omega, by omega⟩
        · rw [hflag, hrides.1, hseg.nxt, hs.sndFinSeq, hfin hrides.1, BitVec.ofNat_add]
          simp
      · have hn₁ : c.nextPos n bytes e = n + bytes := if_neg hrides
        rw [hn₁] at hseg
        rw [if_neg]
        · refine (ih c₁ (n + bytes) _ hseg.nxt (hs.finAt hfin) (hs.sendQueue ▸ hend) (by omega)
            (by omega) (hflag ▸ hne)).mono ?_ fun f hf hheld ↦ hf (hs.held.mpr hheld)
          rintro c₂ ⟨hs₂, n₂, hseg₂, hun₂, hm₂⟩
          exact ⟨hs.trans hs₂, n₂, hseg.trans hseg₂ le_rfl hs.rcvNxt (by omega), hun₂, hm₂⟩
        · rw [Bool.and_eq_true, beq_iff_eq, hseg.nxt, hs.sndFinSeq, hflag]
          rintro ⟨hf, heq⟩
          rw [hfin hf] at heq
          have hpos : BitVec.ofNat 32 (n + bytes) = BitVec.ofNat 32 (e + 1) := by
            rw [heq, BitVec.ofNat_add]
            rfl
          have := (ofNat_inj (by omega) (by omega)).mp hpos
          omega
    · refine ⟨.refl c, n, ⟨hnxt, rfl, rfl, .refl c u m, .inl, id⟩, hun, by omega⟩

theorem retransmitData_eq (c : TCPConnection) :
    c.retransmitData =
      (check c.assertsEnabled (decide ((c.sndMax - c.sndUna).toNat ≠ 0))
          (.assertion .retransmitData) >>= fun _ ↦
        retransmitLoop ((c.sndMax - c.sndUna).toNat + 1) c.sendFromUna
          (c.sndMax - c.sndUna).toNat) := rfl

theorem retransmitData_post (h : SendVars c u n m e) (hne : u ≠ m ∨ c.sendFinFlag = false) :
    Outcome c.retransmitData (SendPost new c u m e)
      (fun f ↦ u ≠ m → c.Held u e → ¬ f.IsSendAssertion) := by
  have hun := h.una_le_nxt.trans h.nxt_le_max
  rw [retransmitData_eq, h.toSendCore.outstanding_eq]
  refine Outcome.bind (Q := fun _ ↦ True) (outcome_check (fun _ ↦ trivial) fun _ hb hum ↦ ?_)
    fun _ _ ↦ ?_
  · simp only [decide_eq_false_iff_not, ne_eq, not_not] at hb
    omega
  · refine (retransmitLoop_post _ c.sendFromUna u (m - u) h.una (h.toSendOrder.finAt hne) h.endSeq
      le_rfl (by omega) h.max_le_end (fun hf ↦ ?_) h.room).mono (fun c' hp ↦
      RetransmitPost.sendPost h hp) fun _ hf _ ↦ hf
    rcases h.fin with ⟨-, -, hme⟩ | ⟨hf', -⟩ | ⟨hu, hm⟩
    · exact hme
    · exact absurd (hf.symm.trans hf') (by decide)
    · exact absurd (hu.trans hm.symm) (hne.resolve_right fun h ↦ absurd (hf.symm.trans h) nofun)

end Data

/-! ## Hooks -/

section Hooks

variable {new : Prop} {c : TCPConnection} {u n m e : ℕ}

theorem SendsFrom₂.snd {x : Except Fault (Bool × TCPConnection)} (h : SendsFrom₂ c u m e x) :
    SendsFrom True c u m e (Prod.snd <$> x) :=
  Outcome.map h

theorem algSendData_post (h : SendVars c u n m e) : SendsFrom₂ c u m e c.algSendData :=
  sendData_post h _ _

theorem sendAck_vars (h : SendVars c u n m e) :
    SendVars c.sendAck u n m e ∧ Emits c c.sendAck u m := by
  have hre := retimes_ackSent (c.sendToIP c.ackSegment)
  have hseg : SendVars (c.sendToIP c.ackSegment) u n m e := by
    refine ⟨⟨⟨h.una, h.nxt, h.max, h.endSeq, h.una_le_nxt, h.nxt_le_max, h.max_le_end, h.fin, ?_⟩,
      h.room, h.finRoom⟩, h.rexmit⟩
    rw [← h.finSent]
    refine ⟨fun ⟨seg, hmem, hbit⟩ ↦ ?_, fun ⟨seg, hmem, hbit⟩ ↦
      ⟨seg, List.mem_append_left _ hmem, hbit⟩⟩
    rcases List.mem_append.mp hmem with hmem | hmem
    · exact ⟨seg, hmem, hbit⟩
    · obtain rfl := Output.toIP.inj (List.mem_singleton.mp hmem)
      cases hbit
  refine ⟨hseg.congr hre.key hre.sends.algorithm (ackSent_rexmit _).mp, fun o ho ↦ ?_⟩
  have ho' : o ∈ (c.sendToIP c.ackSegment).log := hre.log ▸ ho
  refine (List.mem_append.mp ho').imp_right fun ho ↦ ?_
  exact ⟨_, n, List.mem_singleton.mp ho, h.nxt, h.una_le_nxt, h.nxt_le_max, rfl, rfl, rfl, rfl⟩

theorem SendPost.sendAck {c₁ : TCPConnection} (h : SendPost new c u m e c₁) :
    SendPost new c u m e c₁.sendAck := by
  obtain ⟨hs, n', m', hv, hm, hnew, he⟩ := h
  obtain ⟨hv', he'⟩ := sendAck_vars hv
  exact ⟨hs.trans c₁.sends_sendAck, n', m', hv', hm, hnew, he.trans he' le_rfl hs.rcvNxt⟩

theorem sendAck_post (h : SendVars c u n m e) : SendPost new c u m e c.sendAck :=
  h.sendPost.sendAck

theorem sendDataOrAck_post {x : Except Fault (Bool × TCPConnection)} (hx : SendsFrom₂ c u m e x) :
    SendsFrom True c u m e (sendDataOrAck x) := by
  refine hx.bind fun r hr ↦ ?_
  show SendPost True c u m e (if r.1 then r.2 else r.2.sendAck)
  split
  · exact hr
  · exact hr.sendAck

section

variable (h : SendVars c u n m e)

include h

theorem SendVars.post_setCwnd (cwnd : BitVec 32) :
    SendPost new c u m e { c with sndCwnd := cwnd } :=
  h.post_congr rfl (c.sends_setCwnd cwnd) id

theorem algEstablished_post (active : Bool) :
    SendsFrom True c u m e (c.algEstablished active) := by
  unfold algEstablished
  split
  · exact Outcome.ite (fun _ ↦ sendDataOrAck_post (sendData_post h _ _)) fun _ ↦ h.sendPost
  · exact Outcome.ite (fun _ ↦ (h.post_setCwnd c.sndMss).then fun n' hv ↦
      sendDataOrAck_post (algSendData_post hv)) fun _ ↦ h.post_setCwnd c.sndMss

theorem sendCommandInvoked_post :
    SendsFrom True c u m e c.sendCommandInvoked := by
  unfold sendCommandInvoked
  split
  · exact (sendData_post h _ _).snd
  · exact (algSendData_post h).snd

theorem receiveSeqChanged_post :
    SendsFrom new c u m e c.receiveSeqChanged := by
  unfold receiveSeqChanged
  split
  · exact sendAck_post h
  · refine Outcome.ite (fun _ ↦ sendAck_post h) fun _ ↦ Outcome.ite (fun hn ↦ ?_) fun _ ↦ h.sendPost
    have hnot : Timer.delayedAck ∉ c.timers := fun hs ↦ by
      rw [(c.isScheduled_iff _).mpr hs] at hn
      cases hn
    exact (c.scheduleDelayedAck_retimes hnot).mono
      (fun c' h' ↦ h.sendPost.retimes h'.1 fun ht ↦ .inl (h'.2 ht)) fun f hf _ ↦ hf

theorem openCongestionWindow_post :
    SendsFrom new c u m e c.openCongestionWindow := by
  unfold openCongestionWindow
  refine Outcome.ite (fun _ ↦ h.post_setCwnd _) fun _ ↦ Outcome.ite (fun _ ↦ ?_) fun _ ↦
    h.post_setCwnd _
  rintro - (h | h | h | h) <;> cases h

theorem renoOpenCongestionWindow_post :
    SendsFrom new c u m e c.renoOpenCongestionWindow :=
  Outcome.ite (fun _ ↦ h.post_setCwnd _) fun _ ↦ openCongestionWindow_post h

end

/-- After an ACK the REXMIT timer runs if and only if something is left outstanding. -/
theorem baseReceivedDataAck_post (h : SendCore c u n m e) :
    SendsFrom new c u m e c.baseReceivedDataAck := by
  have hun := h.una_le_nxt.trans h.nxt_le_max
  have hvars : ∀ c', Retimes c c' → (.rexmit ∈ c'.timers → u < m) → SendPost new c u m e c' :=
    fun c' hr ht ↦ ⟨hr.sends, n, m, ⟨h.congr hr.key, fun _ hx ↦ (ht hx).ne⟩, le_rfl,
      fun hlt ↦ absurd hlt (lt_irrefl m), fun o ho ↦ .inl (hr.log ▸ ho)⟩
  unfold baseReceivedDataAck
  refine Outcome.ite (fun _ ↦ ?_) fun hne ↦ ?_
  · show SendPost new c u m e (if c.isScheduled .rexmit then c.cancelEvent .rexmit else c)
    split <;> rename_i hs
    · exact hvars _ (c.retimes_cancelEvent (.inl rfl)) fun ht ↦ absurd ht (c.not_mem_cancelEvent _)
    · exact hvars _ (.refl c) fun ht ↦ absurd ((c.isScheduled_iff _).mpr ht) hs
  · have hlt : u < m := by
      refine lt_of_le_of_ne hun fun hum ↦ hne ?_
      rw [h.una, h.max, hum, beq_self_eq_true]
    exact c.restartRexmitTimer_retimes.mono (fun c' hr ↦ hvars c' hr fun _ ↦ hlt) fun f hf _ ↦ hf

theorem receivedDataAck_post (h : SendCore c u n m e) :
    SendsFrom True c u m e c.receivedDataAck := by
  have hbase : SendsFrom False c u m e c.baseReceivedDataAck := baseReceivedDataAck_post h
  have hsend : ∀ c₁, SendPost False c u m e c₁ →
      SendsFrom True c u m e (Prod.snd <$> c₁.algSendData) :=
    fun c₁ h₁ ↦ h₁.then fun n' hv ↦ (algSendData_post hv).snd
  unfold receivedDataAck
  split <;> rename_i hclass
  · exact (sendData_post ⟨h, fun hd ↦ absurd hclass hd⟩ _ _).snd
  · exact hbase.bind hsend
  · refine hbase.bind fun c₁ h₁ ↦ ?_
    exact (h₁.then fun n' hv ↦ openCongestionWindow_post hv).bind hsend
  · refine hbase.bind fun c₁ h₁ ↦ ?_
    exact (h₁.then fun n' hv ↦ renoOpenCongestionWindow_post hv).bind hsend

/-- The outcome of a retransmission; under `one` it takes one segment from `snd_una`. -/
abbrev RetransmitsFrom (new : Prop) (c : TCPConnection) (one : Prop) (u m e : ℕ)
    (x : Except Fault TCPConnection) : Prop :=
  Outcome x (SendPost new c u m e)
    (fun f ↦ c.Held u e → (one → c.OneSegmentHeld u m e) → ¬ f.IsSendAssertion)

theorem SendsFrom.retransmits {x : Except Fault TCPConnection} {one : Prop}
    (h : SendsFrom new c u m e x) : RetransmitsFrom new c one u m e x :=
  h.mono (fun _ h ↦ h) fun _ hf hheld _ ↦ hf hheld

theorem RetransmitsFrom.after {c₁ : TCPConnection} {x : Except Fault TCPConnection} {one : Prop}
    (hr : Retimes c c₁) (hx : RetransmitsFrom new c₁ one u m e x) :
    RetransmitsFrom new c one u m e x := by
  refine hx.mono ?_ fun f hf hheld hone ↦ hf (hr.sends.held.mpr hheld) fun ho ↦ ?_
  · rintro c₂ ⟨hs, n', m', hv, hm, hnew, he⟩
    refine ⟨hr.sends.trans hs, n', m', hv, hm, hnew, fun o ho ↦ ?_⟩
    have := he o ho
    rwa [hr.log, hr.sends.rcvNxt] at this
  · rw [OneSegmentHeld, hr.sends.sndMss]
    exact hone ho

theorem retimes_setCwnd (c : TCPConnection) (cwnd : BitVec 32) :
    Retimes c { c with sndCwnd := cwnd } :=
  ⟨rfl, c.sends_setCwnd cwnd⟩

theorem retimes_recalculateSlowStartThreshold (c : TCPConnection) :
    Retimes c c.recalculateSlowStartThreshold :=
  ⟨rfl, c.sends_recalculateSlowStartThreshold⟩

variable (h : SendVars c u n m e)

include h

theorem fastRetransmit_post (hne : u ≠ m) (cwnd : TCPConnection → BitVec 32) :
    RetransmitsFrom new c True u m e (c.fastRetransmit cwnd) := by
  have hun := h.una_le_nxt.trans h.nxt_le_max
  refine Outcome.bind (Q := SendPost new c u m e) ((retransmitOneSegment_post h (.inl hne)).mono
    (fun _ h ↦ h) fun f hf hheld hone ↦ hf hne hheld (hone trivial)) fun c₁ h₁ ↦ ?_
  have hcwnd := (retimes_recalculateSlowStartThreshold c₁).trans
    (retimes_setCwnd _ (cwnd c₁.recalculateSlowStartThreshold))
  refine (restartRexmitTimer_retimes _).mono (fun c₂ h₂ ↦ ?_) fun f hf _ _ ↦ hf
  exact h₁.retimes (hcwnd.trans h₂) fun _ ↦ .inr (lt_of_le_of_ne hun hne)

/-- The third duplicate ACK makes Tahoe and Reno retransmit one segment. -/
def fastRetransmits (c : TCPConnection) : Prop :=
  (c.tcpAlgorithmClass = .tcpTahoe ∨ c.tcpAlgorithmClass = .tcpReno) ∧ c.dupacks = 3

theorem receivedDuplicateAck_post (hne : u ≠ m) :
    RetransmitsFrom True c c.fastRetransmits u m e c.receivedDuplicateAck := by
  have hfast : ∀ cwnd, (c.tcpAlgorithmClass = .tcpTahoe ∨ c.tcpAlgorithmClass = .tcpReno) →
      c.dupacks = 3 → RetransmitsFrom True c c.fastRetransmits u m e (c.fastRetransmit cwnd) :=
    fun cwnd hclass hdup ↦ (fastRetransmit_post h hne cwnd).mono (fun _ h ↦ h)
      fun f hf hheld hone ↦ hf hheld fun _ ↦ hone ⟨hclass, hdup⟩
  unfold receivedDuplicateAck
  split <;> rename_i hclass
  · exact h.sendPost
  · exact h.sendPost
  · exact Outcome.ite (fun hdup ↦ hfast _ (.inl hclass) hdup) fun _ ↦ h.sendPost
  · refine Outcome.ite (fun hdup ↦ hfast _ (.inr hclass) hdup) fun _ ↦ Outcome.ite (fun _ ↦ ?_)
      fun _ ↦ h.sendPost
    exact ((h.post_setCwnd _).then fun n' hv ↦ (algSendData_post hv).snd).retransmits

/-- After a timeout, Reno retransmits everything and the other flavours of `TCPBaseAlg` one
segment. -/
theorem retransmitAfterTimeout_post (hne : u ≠ m) :
    RetransmitsFrom new c (c.tcpAlgorithmClass ≠ .tcpReno) u m e c.retransmitAfterTimeout := by
  have hslow := (retimes_recalculateSlowStartThreshold c).trans (retimes_setCwnd _ c.sndMss)
  have hslow' : SendVars _ u n m e := h.congr hslow.key hslow.sends.algorithm id
  have hall : ∀ {c : TCPConnection} {one : Prop}, SendVars c u n m e →
      RetransmitsFrom new c one u m e c.retransmitData := fun hv ↦
    (retransmitData_post hv (.inl hne)).mono (fun _ h ↦ h) fun _ hf hheld _ ↦ hf hne hheld
  unfold retransmitAfterTimeout
  split <;> rename_i hclass
  · exact hall h
  · exact (retransmitOneSegment_post h (.inl hne)).mono (fun _ h ↦ h)
      fun f hf hheld hone ↦ hf hne hheld (hone (by simp [hclass]))
  · refine RetransmitsFrom.after hslow ((retransmitOneSegment_post hslow' (.inl hne)).mono (fun _ h ↦ h)
      fun f hf hheld hone ↦ hf hne hheld (hone (by simp [hclass])))
  · exact RetransmitsFrom.after hslow (hall hslow')

theorem sendProbe_post : SendsFrom₂ c u m e c.sendProbe := by
  have hun := h.una_le_nxt.trans h.nxt_le_max
  have hroom := h.room
  have h₀ : SendVars c.sendFromMax u m m e := h.setNxt h.max hun le_rfl
  unfold sendProbe
  dsimp only
  rw [bytesAvailable_eq h₀.nxt h₀.endSeq h₀.max_le_end (by omega)]
  refine Outcome.ite (fun _ ↦ ?_) fun hbuf ↦ ?_
  · exact ⟨c.sends_setNxt _, m, m, h₀, le_rfl, fun _ ↦ ⟨trivial, rfl⟩, fun o ho ↦ .inl ho⟩
  · have hm : m < e := by omega
    have hfin := h₀.fin.finAt (.inr hm.ne)
    refine (sendSegment_new h₀.nxt hfin h₀.endSeq hun (by omega) hroom).bind fun c₁ h₁ ↦ ?_
    refine Outcome.bind ((rememberSent_post h₀ h₁ ?_ hm hfin).mono (fun _ h ↦ h)
      fun f hf _ ↦ hf) fun c₂ h₂ ↦ h₂.of_setNxt
    unfold nextPos
    split <;> omega

theorem processRexmitTimer_post (hne : u ≠ m) (ht : .rexmit ∉ c.timers) :
    Outcome c.processRexmitTimer (fun r ↦ r.2 = .abort ∨ SendPost new c u m e r.1)
      (fun f ↦ c.Held u e →
        (c.rexmitCount < 12 → c.tcpAlgorithmClass ≠ .tcpReno → c.OneSegmentHeld u m e) →
        ¬ f.IsSendAssertion) := by
  unfold processRexmitTimer
  refine Outcome.ite (fun _ ↦ .inl rfl) fun hmax ↦ ?_
  have hcount : Retimes c { c with rexmitCount := c.rexmitCount + 1 } :=
    ⟨rfl, ⟨rfl, fun _ _ _ ↦ Iff.rfl, [], by simp⟩⟩
  refine Outcome.bind (Q := Retimes c) ((scheduleTimeout_outcome _ (by exact ht)).mono ?_ ?_)
    fun c₁ h₁ ↦ ?_
  · rintro c₁ rfl
    exact hcount.trans ⟨rfl, sends_cons_timer _ (.inl rfl)⟩
  · rintro f rfl - - (h | h | h | h) <;> cases h
  · have hv : SendVars c₁ u n m e := ⟨h.toSendCore.congr h₁.key, fun _ _ ↦ hne⟩
    have hre : RetransmitsFrom new c₁ (c₁.tcpAlgorithmClass ≠ .tcpReno) u m e
        c₁.retransmitAfterTimeout := retransmitAfterTimeout_post hv hne
    rw [h₁.sends.algorithm] at hre
    have hlt : c.rexmitCount < 12 := by
      have hmax' : ¬ 12 < c.rexmitCount + 1 := hmax
      omega
    exact Outcome.bind ((RetransmitsFrom.after h₁ hre).mono (fun _ h ↦ h)
      fun f hf hheld hone ↦ hf hheld (hone hlt)) fun c₂ h₂ ↦ .inr h₂

theorem algProcessTimer_post {t : Timer}
    (hclass : c.tcpAlgorithmClass ≠ .dumbTCP) (ht : t ∉ c.timers) (hne : t = .rexmit → u ≠ m) :
    Outcome (c.algProcessTimer t) (fun r ↦ r.2 = .abort ∨ SendPost (t = .persist) c u m e r.1)
      (fun f ↦ c.Held u e →
        (t = .rexmit → c.rexmitCount < 12 → c.tcpAlgorithmClass ≠ .tcpReno →
          c.OneSegmentHeld u m e) →
        ¬ f.IsSendAssertion) := by
  unfold algProcessTimer
  split
  · rename_i heq
    exact absurd heq hclass
  · exact (processRexmitTimer_post h (hne rfl) ht).mono (fun _ h ↦ h)
      fun f hf hheld hone ↦ hf hheld (hone rfl)
  · exact Outcome.bind ((sendProbe_post h).mono (fun _ h ↦ h) fun f hf hheld _ ↦ hf hheld)
      fun r hr ↦ .inr (by simpa using hr)
  · exact .inr (sendAck_post h)
  · exact .inr h.sendPost

end Hooks

/-! ## SEND and CLOSE -/

section Commands

variable {c : TCPConnection} {u n m e : ℕ}

theorem SendOrder.max_le_of_not_fin (h : SendOrder c u n m e) (hflag : c.sendFinFlag = false) :
    m ≤ e := by
  rcases h.fin with ⟨hf, -, -⟩ | ⟨-, hm⟩ | ⟨-, hm⟩
  · rw [hflag] at hf
    cases hf
  · exact hm
  · exact hm.le

theorem SendCore.enqueueAppData {byteLength : ℕ} (h : SendCore c u n m e)
    (hflag : c.sendFinFlag = false) (hroom : e + byteLength < u + 2 ^ 31) :
    SendCore (c.enqueueAppData byteLength) u n m (e + byteLength) := by
  have hm := h.max_le_of_not_fin hflag
  have hend : c.sendQueue.endSeq + BitVec.ofNat 32 byteLength = BitVec.ofNat 32 (e + byteLength) := by
    rw [h.endSeq, BitVec.ofNat_add]
  refine ⟨⟨h.una, h.nxt, h.max, hend, h.una_le_nxt, h.nxt_le_max, by omega,
    .inr (.inl ⟨hflag, by omega⟩), ?_⟩, hroom, fun hf ↦ absurd (hflag.symm.trans hf) nofun⟩
  exact h.finSent.trans (iff_of_false (by omega) (by omega))

theorem SendVars.sendFinNow (h : SendVars c u n m e) (hroom : e + 1 < u + 2 ^ 31) (hm : m = e) :
    SendVars c.sendFinNow.markFin u (e + 1) (e + 1) e := by
  have hum := h.una_le_nxt.trans h.nxt_le_max
  have hkey := (retimes_ackSent (c.sendFromMax.sendToIP
    { c.sendFromMax.ackSegment with finBit := true })).key
  simp only [sendKey, Prod.mk.injEq] at hkey
  obtain ⟨huna, hnxt, -, hend, -, -, hlog⟩ := hkey
  have hnext : c.sendFromMax.sendFin.sndNxt + 1 = BitVec.ofNat 32 (e + 1) := by
    rw [sendFin, hnxt]
    exact (congrArg (· + 1) (h.max.trans (by rw [hm]))).trans (ofNat_add_one e)
  have hend' : c.sendFromMax.sendFin.sendQueue.endSeq = BitVec.ofNat 32 e := hend.trans h.endSeq
  refine ⟨⟨⟨huna.trans h.una, hnext, hnext, hend', by omega, le_rfl, le_rfl,
    .inl ⟨rfl, hend', by omega⟩, iff_of_true ?_ rfl⟩, h.room, fun _ ↦ hroom⟩, fun _ _ ↦ by omega⟩
  have hsent : (c.sendFromMax.sendToIP { c.sendFromMax.ackSegment with finBit := true }).finSent :=
    ⟨_, List.mem_append_right _ (List.mem_singleton_self _), rfl⟩
  obtain ⟨seg, hseg, hbit⟩ := hsent
  exact ⟨seg, hlog.symm ▸ hseg, hbit⟩

theorem sendFinNow_frame (c : TCPConnection) :
    c.sendFinNow.markFin.fsm = c.fsm ∧ c.sendFinNow.markFin.sendQueue = c.sendQueue := by
  have hsends := (c.sends_setNxt c.sndMax).trans ((sends_sendToIP _
    { c.sendFromMax.ackSegment with finBit := true }).trans (sends_ackSent _))
  exact ⟨hsends.fsm, hsends.sendQueue⟩

theorem SendVars.markFin (h : SendVars c u n m e) (hroom : e + 1 < u + 2 ^ 31) (hm : m ≠ e) :
    SendVars c.markFin u n m e :=
  ⟨⟨⟨h.una, h.nxt, h.max, h.endSeq, h.una_le_nxt, h.nxt_le_max, h.max_le_end,
    .inl ⟨rfl, h.endSeq, hm⟩, h.finSent⟩, h.room, fun _ ↦ hroom⟩, h.rexmit⟩

theorem SendCore.max_eq_end (h : SendCore c u n m e) :
    c.sndMax = c.sendQueue.getBufferEndSeq ↔ m = e := by
  have hun := h.una_le_nxt.trans h.nxt_le_max
  have hmax := h.max_le_end
  have hroom := h.room
  have he : c.sendQueue.getBufferEndSeq = BitVec.ofNat 32 e := h.endSeq
  rw [he, h.max, ofNat_inj (by omega) (by omega)]

end Commands

end TCPConnection

end InetManet.TCP
