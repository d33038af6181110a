import InetManet.SCTP.QueueSteps

/-!
# The loops over TSNs of a SACK

`processSackArrived` walks over intervals of TSNs: downward over what may have been reneged, upward
over the gap blocks, between them and above them. The intervals are serial, the loops compare plain
numbers. So a loop sees its interval exactly when the interval does not reach over the end of the
number range; otherwise the loop does nothing, or never ends.

A SACK without gap blocks also looks up the TSN below a chunk that was reneged, and uses the result
without a test.
-/

namespace InetManet.SCTP

open TransitionSystem

/-! ## Counting loops and serial intervals -/

/-- The `n` TSNs from `lo` on. -/
def upFrom : BitVec 32 → ℕ → List (BitVec 32)
  | _, 0 => []
  | lo, n + 1 => lo :: upFrom (lo + 1) n

/-- The `n` TSNs from `hi` down. -/
def downFrom : BitVec 32 → ℕ → List (BitVec 32)
  | _, 0 => []
  | hi, n + 1 => hi :: downFrom (hi - 1) n

/-- The number of TSNs from `lo` to `hi` in serial order. -/
def serialLength (lo hi : BitVec 32) : ℕ := (hi + 1 - lo).toNat

/-- A loop body that writes down the TSN. -/
def record (seen : List (BitVec 32)) (pos : BitVec 32) :
    Except SendFault (List (BitVec 32)) := .ok (seen ++ [pos])

section Intervals

variable {σ : Type} {body : σ → BitVec 32 → Except SendFault σ} {lo hi : BitVec 32}
  {n rounds : ℕ}

@[simp] theorem length_upFrom (lo : BitVec 32) (n : ℕ) : (upFrom lo n).length = n := by
  induction n generalizing lo with
  | zero => rfl
  | succ n ih => rw [upFrom, List.length_cons, ih]

@[simp] theorem length_downFrom (hi : BitVec 32) (n : ℕ) : (downFrom hi n).length = n := by
  induction n generalizing hi with
  | zero => rfl
  | succ n ih => rw [downFrom, List.length_cons, ih]

theorem foldlM_record (l seen : List (BitVec 32)) : l.foldlM record seen = .ok (seen ++ l) := by
  induction l generalizing seen with
  | nil => rw [List.append_nil]; rfl
  | cons pos l ih =>
      rw [List.foldlM_cons]
      show l.foldlM record (seen ++ [pos]) = _
      rw [ih, List.append_assoc, List.singleton_append]

/-- The loop does nothing when its end is the smaller number. -/
theorem forUp_skip (hlt : hi.toNat < lo.toNat) (hrounds : 0 < rounds) (s : σ) :
    forUp .endlessLoop body hi rounds lo s = .ok s := by
  obtain ⟨r, rfl⟩ : ∃ r, rounds = r + 1 := ⟨rounds - 1, by omega⟩
  rw [forUp, if_neg (by omega)]

theorem forDown_skip (hlt : hi.toNat < lo.toNat) (hrounds : 0 < rounds) (s : σ) :
    forDown .endlessLoop body lo rounds hi s = .ok s := by
  obtain ⟨r, rfl⟩ : ∃ r, rounds = r + 1 := ⟨rounds - 1, by omega⟩
  rw [forDown, if_neg (by omega)]

/-- An upward loop that does not reach the largest number. -/
theorem forUp_eq_foldlM (hlen : lo.toNat + n = hi.toNat + 1) (hmax : hi.toNat + 1 < 2 ^ 32)
    (hrounds : n < rounds) (s : σ) :
    forUp .endlessLoop body hi rounds lo s = (upFrom lo n).foldlM body s := by
  induction n generalizing lo rounds s with
  | zero => exact forUp_skip (by omega) hrounds s
  | succ n ih =>
      obtain ⟨r, rfl⟩ : ∃ r, rounds = r + 1 := ⟨rounds - 1, by omega⟩
      have hnext : (lo + 1).toNat = lo.toNat + 1 := by bv_omega
      rw [forUp, if_pos (by omega), upFrom, List.foldlM_cons]
      congr 1
      funext s'
      exact ih (by omega) (by omega) s'

theorem forDown_eq_foldlM (hlen : lo.toNat + n = hi.toNat + 1) (hmin : 0 < lo.toNat)
    (hrounds : n < rounds) (s : σ) :
    forDown .endlessLoop body lo rounds hi s = (downFrom hi n).foldlM body s := by
  induction n generalizing hi rounds s with
  | zero => exact forDown_skip (by omega) hrounds s
  | succ n ih =>
      obtain ⟨r, rfl⟩ : ∃ r, rounds = r + 1 := ⟨rounds - 1, by omega⟩
      have hnext : (hi - 1).toNat = hi.toNat - 1 := by bv_omega
      rw [forDown, if_pos (by omega), downFrom, List.foldlM_cons]
      congr 1
      funext s'
      exact ih (by omega) (by omega) s'

theorem forUp_eq_interval (hmax : hi.toNat + 1 < 2 ^ 32) (hle : lo.toNat ≤ hi.toNat + 1) (s : σ) :
    forUp .endlessLoop body hi (2 ^ 32) lo s = (upFrom lo (serialLength lo hi)).foldlM body s := by
  have hsum : lo.toNat + serialLength lo hi = hi.toNat + 1 := by
    unfold serialLength
    bv_omega
  exact forUp_eq_foldlM hsum hmax (by omega) s

theorem forDown_eq_interval (hmin : 0 < lo.toNat) (hle : lo.toNat ≤ hi.toNat + 1) (s : σ) :
    forDown .endlessLoop body lo (2 ^ 32) hi s =
      (downFrom hi (serialLength lo hi)).foldlM body s := by
  have hsum : lo.toNat + serialLength lo hi = hi.toNat + 1 := by
    unfold serialLength
    bv_omega
  exact forDown_eq_foldlM hsum hmin (by omega) s

theorem forUp_endless (hmax : hi.toNat + 1 = 2 ^ 32) (rounds : ℕ) (lo : BitVec 32)
    (seen : List (BitVec 32)) :
    forUp .endlessLoop record hi rounds lo seen = .error .endlessLoop := by
  induction rounds generalizing lo seen with
  | zero => rfl
  | succ rounds ih =>
      rw [forUp, if_pos (by omega)]
      exact ih (lo + 1) (seen ++ [lo])

theorem forDown_endless (hmin : lo.toNat = 0) (rounds : ℕ) (hi : BitVec 32)
    (seen : List (BitVec 32)) :
    forDown .endlessLoop record lo rounds hi seen = .error .endlessLoop := by
  induction rounds generalizing hi seen with
  | zero => rfl
  | succ rounds ih =>
      rw [forDown, if_pos (by omega)]
      exact ih (hi - 1) (seen ++ [hi])

theorem forUp_record_iff (lo hi : BitVec 32) :
    forUp .endlessLoop record hi (2 ^ 32) lo [] = .ok (upFrom lo (serialLength lo hi)) ↔
      hi.toNat + 1 < 2 ^ 32 ∧ lo.toNat ≤ hi.toNat + 1 := by
  have hlen : serialLength lo hi = (hi + 1 - lo).toNat := rfl
  constructor
  · intro h
    by_cases hmax : hi.toNat + 1 = 2 ^ 32
    · rw [forUp_endless hmax] at h
      cases h
    · constructor
      · omega
      · by_contra hgap
        rw [forUp_skip (by omega) (by decide)] at h
        have hnil := congrArg List.length (Except.ok.inj h)
        rw [length_upFrom, hlen, List.length_nil] at hnil
        bv_omega
  · intro ⟨hmax, hle⟩
    rw [forUp_eq_interval hmax hle, foldlM_record, List.nil_append]

theorem forDown_record_iff (lo hi : BitVec 32) :
    forDown .endlessLoop record lo (2 ^ 32) hi [] = .ok (downFrom hi (serialLength lo hi)) ↔
      0 < lo.toNat ∧ lo.toNat ≤ hi.toNat + 1 := by
  have hlen : serialLength lo hi = (hi + 1 - lo).toNat := rfl
  constructor
  · intro h
    by_cases hmin : lo.toNat = 0
    · rw [forDown_endless hmin] at h
      cases h
    · constructor
      · omega
      · by_contra hgap
        rw [forDown_skip (by omega) (by decide)] at h
        have hnil := congrArg List.length (Except.ok.inj h)
        rw [length_downFrom, hlen, List.length_nil] at hnil
        bv_omega
  · intro ⟨hmin, hle⟩
    rw [forDown_eq_interval hmin hle, foldlM_record, List.nil_append]

end Intervals

/-! ## The loops of a SACK -/

/-- A loop of `processSackArrived`: over the TSNs from `lo` to `hi`, upward or downward, or over
those behind the last gap block and before `nextTSN`. -/
inductive SackLoop
  | up (lo hi : BitVec 32)
  | down (lo hi : BitVec 32)
  | behind (last nextTSN : BitVec 32)
  deriving DecidableEq, Repr

namespace SackLoop

/-- The TSNs that the loop is for. -/
def interval : SackLoop → List (BitVec 32)
  | .up lo hi => upFrom lo (serialLength lo hi)
  | .down lo hi => downFrom hi (serialLength lo hi)
  | .behind last nextTSN => upFrom (last + 1) (serialLength (last + 1) (nextTSN - 1))

/-- The TSNs that the loop sees. -/
def seen : SackLoop → Except SendFault (List (BitVec 32))
  | .up lo hi => forUp .endlessLoop record hi (2 ^ 32) lo []
  | .down lo hi => forDown .endlessLoop record lo (2 ^ 32) hi []
  | .behind last nextTSN =>
      if last.toNat < (nextTSN - 1).toNat ∧ 0 < nextTSN.toNat then
        forUp .endlessLoop record (nextTSN - 1) (2 ^ 32) (last + 1) []
      else .ok []

/-- The interval does not reach over the end of the number range. -/
def Plain : SackLoop → Prop
  | .up lo hi => hi.toNat + 1 < 2 ^ 32 ∧ lo.toNat ≤ hi.toNat + 1
  | .down lo hi => 0 < lo.toNat ∧ lo.toNat ≤ hi.toNat + 1
  | .behind last nextTSN => last = nextTSN - 1 ∨ last.toNat < nextTSN.toNat

theorem seen_eq_interval_iff (loop : SackLoop) : loop.seen = .ok loop.interval ↔ loop.Plain := by
  cases loop with
  | up lo hi => exact forUp_record_iff lo hi
  | down lo hi => exact forDown_record_iff lo hi
  | behind last nextTSN =>
      show (if last.toNat < (nextTSN - 1).toNat ∧ 0 < nextTSN.toNat then
          forUp .endlessLoop record (nextTSN - 1) (2 ^ 32) (last + 1) []
        else .ok []) = .ok (upFrom (last + 1) (serialLength (last + 1) (nextTSN - 1))) ↔
          (last = nextTSN - 1 ∨ last.toNat < nextTSN.toNat)
      have hlen : serialLength (last + 1) (nextTSN - 1) = (nextTSN - 1 + 1 - (last + 1)).toNat := rfl
      by_cases hguard : last.toNat < (nextTSN - 1).toNat ∧ 0 < nextTSN.toNat
      · rw [if_pos hguard, forUp_record_iff]
        apply iff_of_true
        · constructor <;> bv_omega
        · exact Or.inr (by bv_omega)
      · rw [if_neg hguard]
        constructor
        · intro h
          have hnil := congrArg List.length (Except.ok.inj h)
          rw [length_upFrom, hlen, List.length_nil] at hnil
          exact Or.inl (by bv_omega)
        · intro h
          have hzero : serialLength (last + 1) (nextTSN - 1) = 0 := by
            rw [hlen]
            rcases h with h | h
            · bv_omega
            · bv_omega
          rw [hzero]
          rfl

end SackLoop

/-- The loops between the gap blocks, the first one from `lo` on. -/
def between : BitVec 32 → List Gap → List SackLoop
  | _, [] => []
  | lo, gap :: gaps => .up (lo + 1) (gap.start - 1) :: between gap.stop gaps

namespace SCTPSender

/-- The loop over what may have been reneged: the TSNs above `last` up to `highestTsnAcked`. -/
def renegingLoops (a : SCTPSender) (last : BitVec 32) : List SackLoop :=
  if tsnLt last a.highestTsnAcked then [.down (last + 1) a.highestTsnAcked] else []

/-- The loops that `processGapReports` enters. -/
def sackLoops (a : SCTPSender) (tsna : BitVec 32) (gaps : List Gap) : List SackLoop :=
  match gaps.getLast? with
  | none => a.renegingLoops tsna
  | some last =>
      if a.retransmissionQ.entries.isEmpty then []
      else a.renegingLoops last.stop ++ gaps.map (fun gap ↦ .up gap.start gap.stop) ++
        between tsna gaps ++ [.behind last.stop a.nextTSN]

/-! ## Walks over the intervals -/

/-- `missingLoop` as walks over the TSNs between the gap blocks. -/
def walkMissing (hiAcked : BitVec 32) :
    BitVec 32 → List Gap → SCTPSender → Except SendFault SCTPSender
  | _, [], a => .ok a
  | lo, gap :: gaps, a => do
      let a ← (SackLoop.up (lo + 1) (gap.start - 1)).interval.foldlM (reportMissing hiAcked) a
      walkMissing hiAcked gap.stop gaps a

/-- `processGaps` as walks over its intervals. -/
def walkGaps (a : SCTPSender) (tsna : BitVec 32) (gaps : List Gap) (last : BitVec 32) :
    Except SendFault SCTPSender := do
  let a ← (a.renegingLoops last).foldlM (fun a loop ↦ loop.interval.foldlM renegeAbove a) a
  let (a, hiAcked) ← gaps.foldlM (fun s gap ↦
    (SackLoop.up gap.start gap.stop).interval.foldlM ackGap s) (a, tsna)
  let a ← walkMissing hiAcked tsna gaps a
  (SackLoop.behind last a.nextTSN).interval.foldlM forgetAck { a with highestTsnAcked := last }

section Walks

variable {a b : SCTPSender}

theorem bind_congr_ok {α β φ : Type} {x : Except φ α} {f g : α → Except φ β}
    (h : ∀ r, x = .ok r → f r = g r) : (x >>= f) = (x >>= g) := by
  cases x with
  | error e => rfl
  | ok r => exact h r rfl

theorem SackStep.nextTSN (h : SackStep a b) : b.nextTSN = a.nextTSN := by
  cases h with
  | dequeue =>
      unfold dequeueChunk
      dsimp only
      split <;> rfl
  | _ => rfl

theorem nextTSN_of_sackSteps (h : SackSteps a b) : b.nextTSN = a.nextTSN := by
  induction h with
  | refl => rfl
  | tail _ hstep ih => exact hstep.nextTSN.trans ih

theorem renegeAboveLast_eq_walk (last : BitVec 32)
    (hplain : ∀ loop ∈ a.renegingLoops last, loop.Plain) :
    a.renegeAboveLast last =
      (a.renegingLoops last).foldlM (fun a loop ↦ loop.interval.foldlM renegeAbove a) a := by
  unfold renegeAboveLast
  unfold renegingLoops at hplain ⊢
  by_cases hlt : tsnLt last a.highestTsnAcked = true
  · rw [if_pos hlt] at hplain ⊢
    obtain ⟨hmin, hle⟩ := hplain _ List.mem_cons_self
    rw [if_pos hlt, forDown_eq_interval hmin hle, List.foldlM_cons]
    exact (bind_pure _).symm
  · rw [if_neg hlt, if_neg hlt]
    rfl

theorem missingLoop_eq_walk (hiAcked lo : BitVec 32) (gaps : List Gap)
    (hplain : ∀ loop ∈ between lo gaps, loop.Plain) (a : SCTPSender) :
    missingLoop hiAcked lo gaps a = walkMissing hiAcked lo gaps a := by
  induction gaps generalizing lo a with
  | nil => rfl
  | cons gap gaps ih =>
      obtain ⟨hmax, hle⟩ := hplain _ List.mem_cons_self
      unfold missingLoop walkMissing
      rw [forUp_eq_interval hmax hle]
      congr 1
      funext b
      exact ih gap.stop (fun loop hloop ↦ hplain loop (List.mem_cons_of_mem _ hloop)) b

theorem ackGaps_eq_walk (gaps : List Gap)
    (hplain : ∀ gap ∈ gaps, (SackLoop.up gap.start gap.stop).Plain) (s : SCTPSender × BitVec 32) :
    gaps.foldlM (fun s gap ↦ forUp .endlessLoop ackGap gap.stop (2 ^ 32) gap.start s) s =
      gaps.foldlM (fun s gap ↦ (SackLoop.up gap.start gap.stop).interval.foldlM ackGap s) s := by
  apply foldlM_congr
  intro s gap hgap
  obtain ⟨hmax, hle⟩ := hplain gap hgap
  exact forUp_eq_interval hmax hle s

theorem ackGaps_steps (gaps : List Gap) (a : SCTPSender) (tsna : BitVec 32) :
    Outcome (gaps.foldlM (fun s gap ↦ forUp .endlessLoop ackGap gap.stop (2 ^ 32) gap.start s)
      (a, tsna)) (fun r ↦ SackSteps a r.1) (fun _ ↦ True) :=
  Outcome.foldlM (I := fun r : SCTPSender × BitVec 32 ↦ SackSteps a r.1) gaps (fun _ _ _ hs ↦
    Outcome.forUp trivial (fun s pos hs ↦ andThen_steps hs (ackGap_steps s pos)) _ _ hs) .refl

theorem forgetLoop_eq_walk (last : BitVec 32) (hplain : (SackLoop.behind last a.nextTSN).Plain) :
    (if last.toNat < (a.nextTSN - 1).toNat ∧ 0 < a.nextTSN.toNat then
        forUp .endlessLoop forgetAck (a.nextTSN - 1) (2 ^ 32) (last + 1) a
      else .ok a) = (SackLoop.behind last a.nextTSN).interval.foldlM forgetAck a := by
  by_cases hguard : last.toNat < (a.nextTSN - 1).toNat ∧ 0 < a.nextTSN.toNat
  · rw [if_pos hguard, forUp_eq_interval (by bv_omega) (by bv_omega)]
    rfl
  · rw [if_neg hguard]
    have hzero : serialLength (last + 1) (a.nextTSN - 1) = 0 := by
      unfold serialLength
      rcases hplain with h | h
      · bv_omega
      · bv_omega
    have hnil : (SackLoop.behind last a.nextTSN).interval = [] := by
      show upFrom (last + 1) (serialLength (last + 1) (a.nextTSN - 1)) = []
      rw [hzero]
      rfl
    rw [hnil]
    rfl

/-- When its loops are plain, `processGaps` walks over their intervals. -/
theorem processGaps_eq_walk (tsna : BitVec 32) (gaps : List Gap) (last : BitVec 32)
    (hreneging : ∀ loop ∈ a.renegingLoops last, loop.Plain)
    (hgaps : ∀ gap ∈ gaps, (SackLoop.up gap.start gap.stop).Plain)
    (hbetween : ∀ loop ∈ between tsna gaps, loop.Plain)
    (hbehind : (SackLoop.behind last a.nextTSN).Plain) :
    a.processGaps tsna gaps last = a.walkGaps tsna gaps last := by
  have hrenege : Outcome (a.renegeAboveLast last) (SackSteps a) (fun _ ↦ True) :=
    Outcome.ite (fun _ ↦ forDown_steps renegeAbove_steps _ _ _ a) fun _ ↦ .refl
  unfold processGaps walkGaps
  rw [← renegeAboveLast_eq_walk last hreneging]
  apply bind_congr_ok
  intro b hb
  have hb' := hrenege.of_eq_ok hb
  rw [ackGaps_eq_walk gaps hgaps]
  apply bind_congr_ok
  intro r hr
  have hr' : SackSteps b r.1 := by
    rw [← ackGaps_eq_walk gaps hgaps] at hr
    exact (ackGaps_steps gaps b tsna).of_eq_ok hr
  obtain ⟨c, hiAcked⟩ := r
  dsimp only
  rw [missingLoop_eq_walk hiAcked tsna gaps hbetween]
  apply bind_congr_ok
  intro d hd
  rw [← missingLoop_eq_walk hiAcked tsna gaps hbetween] at hd
  have hd' := (missingLoop_steps hiAcked tsna gaps c).of_eq_ok hd
  have hnext : d.nextTSN = a.nextTSN :=
    nextTSN_of_sackSteps ((hb'.trans hr').trans hd')
  rw [← hnext] at hbehind
  exact forgetLoop_eq_walk (a := { d with highestTsnAcked := last }) last hbehind

/-- A SACK with gap blocks whose loops are plain walks over their intervals. -/
theorem processGapReports_eq_walk {tsna : BitVec 32} {gaps : List Gap} {last : Gap}
    (hlast : gaps.getLast? = some last) (hplain : ∀ loop ∈ a.sackLoops tsna gaps, loop.Plain) :
    a.processGapReports tsna gaps =
      if a.retransmissionQ.entries.isEmpty then .ok a else a.walkGaps tsna gaps last.stop := by
  unfold processGapReports
  unfold sackLoops at hplain
  rw [hlast] at hplain ⊢
  dsimp only at hplain ⊢
  by_cases hempty : a.retransmissionQ.entries.isEmpty = true
  · rw [if_pos hempty, if_pos hempty]
  · rw [if_neg hempty, if_neg hempty]
    rw [if_neg hempty] at hplain
    apply processGaps_eq_walk
    · intro loop hloop
      exact hplain loop (by simp [hloop])
    · intro gap hgap
      apply hplain
      have hmem : SackLoop.up gap.start gap.stop ∈
          gaps.map (fun gap ↦ SackLoop.up gap.start gap.stop) :=
        List.mem_map_of_mem (f := fun gap : Gap ↦ SackLoop.up gap.start gap.stop) hgap
      exact List.mem_append_left _ (List.mem_append_left _ (List.mem_append_right _ hmem))
    · intro loop hloop
      exact hplain loop (by simp [hloop])
    · exact hplain _ (by simp)

end Walks

/-! ## The lookup below a reneged chunk -/

/-- The turn for `pos` looks up `pos - 1`. -/
def LooksBelow (a : SCTPSender) (tsna pos : BitVec 32) : Prop :=
  ∃ i, a.retransmissionQ.find? pos.toNat = some i ∧ (a.chunks i).hasBeenAcked = true ∧
    (a.chunks i).countsAsOutstanding = false ∧ (tsna + 1).toNat < pos.toNat

/-- It does not find it. -/
def MissesBelow (a : SCTPSender) (tsna pos : BitVec 32) : Prop :=
  a.LooksBelow tsna pos ∧ a.retransmissionQ.find? (pos - 1).toNat = none

/-- The chunks in `retransmissionQ` are stored under their TSNs. -/
def StoredByTsn (a : SCTPSender) : Prop :=
  ∀ k i, a.retransmissionQ.find? k = some i → (a.chunks i).tsn.toNat = k

/-- A turn of the loop touches only the chunk of its TSN. -/
structure RenegesAt (a : SCTPSender) (pos : BitVec 32) (b : SCTPSender) : Prop where
  queue : b.retransmissionQ = a.retransmissionQ
  others : ∀ j, a.retransmissionQ.find? pos.toNat ≠ some j → b.chunks j = a.chunks j
  tsn : ∀ j, (b.chunks j).tsn = (a.chunks j).tsn

section Renege

variable {a b : SCTPSender} {tsna pos : BitVec 32}

theorem modify_chunks (a : SCTPSender) (i j : ℕ) (f : SCTPSentVariables → SCTPSentVariables) :
    (a.modify i f).chunks j = if j = i then f (a.chunks i) else a.chunks j := by
  simp only [modify, Function.update_apply]

theorem renegesAt_modify {i : ℕ} (hi : a.retransmissionQ.find? pos.toNat = some i)
    {f : SCTPSentVariables → SCTPSentVariables} (hf : (f (a.chunks i)).tsn = (a.chunks i).tsn) :
    RenegesAt a pos (a.modify i f) := by
  constructor
  · rfl
  · intro j hj
    rw [modify_chunks, if_neg]
    intro hji
    exact hj (by rw [hi, hji])
  · intro j
    rw [modify_chunks]
    split
    · rename_i hji
      rw [hji, hf]
    · rfl

theorem RenegesAt.trans {c : SCTPSender} (h₁ : RenegesAt a pos b) (h₂ : RenegesAt b pos c) :
    RenegesAt a pos c := by
  constructor
  · exact h₂.queue.trans h₁.queue
  · intro j hj
    rw [h₂.others j (by rwa [h₁.queue]), h₁.others j hj]
  · intro j
    rw [h₂.tsn, h₁.tsn]

theorem hasBeenAcked_modify_eq_none (a : SCTPSender) (i : ℕ)
    (f : SCTPSentVariables → SCTPSentVariables) (pos : BitVec 32) :
    (a.modify i f).hasBeenAcked pos = none ↔ a.retransmissionQ.find? pos.toNat = none := by
  show Option.map _ (a.retransmissionQ.find? pos.toNat) = none ↔ _
  exact Option.map_eq_none_iff

theorem renegeAll_outcome (a : SCTPSender) (tsna pos : BitVec 32) :
    Outcome (renegeAll tsna a pos) (fun b ↦ RenegesAt a pos b ∧ ¬ a.MissesBelow tsna pos)
      (fun f ↦ f = .endOfMap ∧ a.MissesBelow tsna pos) := by
  unfold renegeAll
  cases hi : a.retransmissionQ.find? pos.toNat with
  | none =>
      have hno : ¬ a.MissesBelow tsna pos := by
        rintro ⟨⟨i, hfind, _⟩, _⟩
        rw [hi] at hfind
        cases hfind
      exact ⟨⟨rfl, fun _ _ ↦ rfl, fun _ ↦ rfl⟩, hno⟩
  | some i =>
      have hself : ∀ {j}, a.retransmissionQ.find? pos.toNat = some j → j = i := by
        intro j hj
        rw [hi] at hj
        exact (Option.some.inj hj).symm
      dsimp only
      by_cases hacked : (a.chunks i).hasBeenAcked = true
      · rw [if_pos hacked]
        have hmodify : RenegesAt a pos (a.modify i (SCTPSentVariables.setAcked false)) :=
          renegesAt_modify hi rfl
        have hsame : ((a.modify i (SCTPSentVariables.setAcked false)).chunks i).countsAsOutstanding =
            (a.chunks i).countsAsOutstanding := by
          rw [modify_chunks, if_pos rfl]
          rfl
        rw [hsame]
        by_cases hout : (a.chunks i).countsAsOutstanding = true
        · rw [if_pos hout]
          refine ⟨hmodify, ?_⟩
          rintro ⟨⟨j, hj, _, hno, _⟩, _⟩
          rw [hself hj, hout] at hno
          cases hno
        · rw [if_neg hout]
          rw [Bool.not_eq_true] at hout
          have hremoved : ∀ highest, RenegesAt a pos
              { (a.modify i (SCTPSentVariables.setAcked false)).modify i
                  SCTPSentVariables.setRemoved with highestTsnAcked := highest } := by
            intro highest
            have hi' : (a.modify i (SCTPSentVariables.setAcked false)).retransmissionQ.find?
                pos.toNat = some i := hi
            have htwo := hmodify.trans (renegesAt_modify hi' (f := SCTPSentVariables.setRemoved) rfl)
            exact ⟨htwo.queue, htwo.others, htwo.tsn⟩
          unfold highestBelow
          by_cases hbelow : (tsna + 1).toNat < pos.toNat
          · rw [if_pos hbelow]
            have hlooks : a.LooksBelow tsna pos := ⟨i, hi, hacked, hout, hbelow⟩
            cases hfind : a.retransmissionQ.find? (pos - 1).toNat with
            | none =>
                rw [(hasBeenAcked_modify_eq_none a i _ _).mpr hfind]
                exact ⟨rfl, hlooks, hfind⟩
            | some k =>
                have hsome : (a.modify i (SCTPSentVariables.setAcked false)).hasBeenAcked
                    (pos - 1) ≠ none := by
                  rw [Ne, hasBeenAcked_modify_eq_none, hfind]
                  exact Option.some_ne_none k
                obtain ⟨acked, hsome⟩ := Option.ne_none_iff_exists'.mp hsome
                rw [hsome]
                refine ⟨hremoved _, ?_⟩
                intro hmiss
                rw [hmiss.2] at hfind
                cases hfind
          · rw [if_neg hbelow]
            refine ⟨hremoved _, ?_⟩
            rintro ⟨⟨_, _, _, _, hlt⟩, _⟩
            exact hbelow hlt
      · rw [if_neg hacked]
        refine ⟨⟨rfl, fun _ _ ↦ rfl, fun _ ↦ rfl⟩, ?_⟩
        rintro ⟨⟨j, hj, hyes, _⟩, _⟩
        rw [hself hj] at hyes
        exact hacked hyes

theorem RenegesAt.storedByTsn (h : RenegesAt a pos b) (ha : a.StoredByTsn) : b.StoredByTsn := by
  intro k i hi
  rw [h.queue] at hi
  rw [h.tsn]
  exact ha k i hi

/-- What a turn for another TSN will look up is not affected. -/
theorem RenegesAt.missesBelow_iff (h : RenegesAt a pos b) (ha : a.StoredByTsn) {p : BitVec 32}
    (hp : p.toNat ≠ pos.toNat) : b.MissesBelow tsna p ↔ a.MissesBelow tsna p := by
  have hchunk : ∀ i, a.retransmissionQ.find? p.toNat = some i → b.chunks i = a.chunks i := by
    intro i hi
    apply h.others
    intro hpos
    have hkey := ha _ _ hi
    rw [ha _ _ hpos] at hkey
    exact hp hkey.symm
  unfold MissesBelow LooksBelow
  rw [h.queue]
  apply and_congr_left
  intro _
  apply exists_congr
  intro i
  apply and_congr_right
  intro hi
  rw [hchunk i hi]

/-- The loop runs into the end of the map exactly when one of its turns misses the TSN below. -/
theorem foldlM_renegeAll_iff (l : List (BitVec 32)) (hl : (l.map BitVec.toNat).Nodup)
    (ha : a.StoredByTsn) :
    l.foldlM (renegeAll tsna) a = .error .endOfMap ↔ ∃ p ∈ l, a.MissesBelow tsna p := by
  induction l generalizing a with
  | nil =>
      apply iff_of_false
      · intro h
        cases h
      · intro ⟨p, hp, _⟩
        cases hp
  | cons pos l ih =>
      rw [List.map_cons, List.nodup_cons] at hl
      rw [List.foldlM_cons]
      have hout := renegeAll_outcome a tsna pos
      cases hturn : renegeAll tsna a pos with
      | error f =>
          rw [hturn] at hout
          have hf : f = .endOfMap := hout.1
          rw [hf]
          exact iff_of_true rfl ⟨pos, List.mem_cons_self, hout.2⟩
      | ok b =>
          rw [hturn] at hout
          have hstep : RenegesAt a pos b := hout.1
          rw [ok_bind, ih hl.2 (hstep.storedByTsn ha)]
          have hne : ∀ p ∈ l, p.toNat ≠ pos.toNat := by
            intro p hp heq
            exact hl.1 (heq ▸ List.mem_map_of_mem hp)
          constructor
          · intro ⟨p, hp, hmiss⟩
            exact ⟨p, List.mem_cons_of_mem _ hp, (hstep.missesBelow_iff ha (hne p hp)).mp hmiss⟩
          · intro ⟨p, hp, hmiss⟩
            rcases List.mem_cons.mp hp with rfl | hp
            · exact absurd hmiss hout.2
            · exact ⟨p, hp, (hstep.missesBelow_iff ha (hne p hp)).mpr hmiss⟩

end Renege

/-! ## A sound walk -/

theorem mem_downFrom {hi p : BitVec 32} {n : ℕ} (hn : n ≤ hi.toNat + 1) (hp : p ∈ downFrom hi n) :
    p.toNat ≤ hi.toNat := by
  induction n generalizing hi with
  | zero => cases hp
  | succ n ih =>
      rcases List.mem_cons.mp hp with rfl | hp
      · exact le_rfl
      · cases n with
        | zero => cases hp
        | succ n =>
            have hnext : (hi - 1).toNat = hi.toNat - 1 := by bv_omega
            have hle := ih (by omega) hp
            omega

theorem nodup_downFrom {hi : BitVec 32} {n : ℕ} (hn : n ≤ hi.toNat + 1) :
    ((downFrom hi n).map BitVec.toNat).Nodup := by
  induction n generalizing hi with
  | zero => exact List.nodup_nil
  | succ n ih =>
      rw [downFrom, List.map_cons, List.nodup_cons]
      cases n with
      | zero => exact ⟨List.not_mem_nil, List.nodup_nil⟩
      | succ n =>
          have hnext : (hi - 1).toNat = hi.toNat - 1 := by bv_omega
          constructor
          · intro hmem
            obtain ⟨p, hp, heq⟩ := List.mem_map.mp hmem
            have hle := mem_downFrom (by omega) hp
            omega
          · exact ih (by omega)

/-- Every loop sees the TSNs of its serial interval, one after the other, and ends; and no lookup
that is not tested fails. Only a SACK without gap blocks has such a lookup. -/
structure SackLoopsSound (a : SCTPSender) (tsna : BitVec 32) (gaps : List Gap) : Prop where
  seen : ∀ loop ∈ a.sackLoops tsna gaps, loop.seen = .ok loop.interval
  lookups : gaps = [] → a.processGapReports tsna gaps ≠ .error .endOfMap

/-- No interval reaches over the end of the number range; and without gap blocks, when a chunk above
`tsna + 1` has been reneged, the TSN below it is still queued. -/
structure SackInRange (a : SCTPSender) (tsna : BitVec 32) (gaps : List Gap) : Prop where
  plain : ∀ loop ∈ a.sackLoops tsna gaps, loop.Plain
  below : gaps = [] → tsnLt tsna a.highestTsnAcked = true →
    ∀ p ∈ downFrom a.highestTsnAcked (serialLength (tsna + 1) a.highestTsnAcked),
      ¬ a.MissesBelow tsna p

/-- Without gap blocks the loop is the walk over its interval. -/
theorem processGapReports_nil_iff {a : SCTPSender} (ha : a.StoredByTsn) {tsna : BitVec 32}
    (hplain : ∀ loop ∈ a.sackLoops tsna [], loop.Plain) :
    a.processGapReports tsna [] ≠ .error .endOfMap ↔
      (tsnLt tsna a.highestTsnAcked = true →
        ∀ p ∈ downFrom a.highestTsnAcked (serialLength (tsna + 1) a.highestTsnAcked),
          ¬ a.MissesBelow tsna p) := by
  have hmodel : a.processGapReports tsna [] =
      if tsnLt tsna a.highestTsnAcked then
        forDown .endlessLoop (renegeAll tsna) (tsna + 1) (2 ^ 32) a.highestTsnAcked a
      else .ok a := rfl
  have hloops : a.sackLoops tsna [] = a.renegingLoops tsna := rfl
  rw [hmodel]
  by_cases hlt : tsnLt tsna a.highestTsnAcked = true
  · rw [hloops, renegingLoops, if_pos hlt] at hplain
    obtain ⟨hmin, hle⟩ := hplain _ List.mem_cons_self
    have hlength : serialLength (tsna + 1) a.highestTsnAcked ≤ a.highestTsnAcked.toNat + 1 := by
      unfold serialLength
      bv_omega
    rw [if_pos hlt, forDown_eq_interval hmin hle, ne_eq,
      foldlM_renegeAll_iff _ (nodup_downFrom hlength) ha]
    constructor
    · intro hno _ p hp hmiss
      exact hno ⟨p, hp, hmiss⟩
    · intro hall ⟨p, hp, hmiss⟩
      exact hall hlt p hp hmiss
  · rw [if_neg hlt]
    apply iff_of_true
    · intro h
      cases h
    · intro h
      exact absurd h hlt

/-- For every sender and every SACK, the loops are sound exactly when the intervals lie in the number
range and the untested lookup finds its chunk. -/
theorem sackLoops_sound_iff (a : SCTPSender) (ha : a.StoredByTsn) (tsna : BitVec 32)
    (gaps : List Gap) : a.SackLoopsSound tsna gaps ↔ a.SackInRange tsna gaps := by
  have hplain : (∀ loop ∈ a.sackLoops tsna gaps, loop.seen = .ok loop.interval) ↔
      ∀ loop ∈ a.sackLoops tsna gaps, loop.Plain := by
    apply forall₂_congr
    intro loop _
    exact loop.seen_eq_interval_iff
  constructor
  · intro ⟨hseen, hlookups⟩
    have hloops := hplain.mp hseen
    constructor
    · exact hloops
    · intro hnil
      subst hnil
      exact (processGapReports_nil_iff ha hloops).mp (hlookups rfl)
  · intro ⟨hloops, hbelow⟩
    constructor
    · exact hplain.mpr hloops
    · intro hnil
      subst hnil
      exact (processGapReports_nil_iff ha hloops).mpr (hbelow rfl)

/-- The chunk with TSN `tsn` was acknowledged in a gap block and is not outstanding. -/
def gapAcked (tsn : BitVec 32) : SCTPSender :=
  { chunks := fun _ ↦ { tsn, hasBeenAcked := true }
    retransmissionQ := OrderedMap.empty.insert tsn.toNat 0
    lastTsnAck := tsn - 1
    highestTsnAcked := tsn
    nextTSN := tsn + 1 }

theorem storedByTsn_gapAcked (tsn : BitVec 32) : (gapAcked tsn).StoredByTsn := by
  intro k i hi
  change (OrderedMap.empty.insert tsn.toNat 0).find? k = some i at hi
  rw [OrderedMap.find?_insert] at hi
  split at hi
  · rename_i hk
    exact hk.symm
  · cases hi

theorem sackLoops_sound_iff_eleven :
    (gapAcked 11).SackLoopsSound 10 [] ↔ (gapAcked 11).SackInRange 10 [] :=
  sackLoops_sound_iff _ (storedByTsn_gapAcked 11) 10 []

/-- TSN 0 was acknowledged in a gap block and is reneged by a SACK up to the TSN before it: the
condition of the loop is that its counter is at least zero. -/
theorem sackLoops_endless_at_wrap : ¬ (gapAcked 0).SackLoopsSound (-1) [] := by
  intro ⟨hseen, _⟩
  have hmem : SackLoop.down 0 0 ∈ (gapAcked 0).sackLoops (-1) [] := by decide
  have hplain := (SackLoop.down 0 0).seen_eq_interval_iff.mp (hseen _ hmem)
  exact absurd hplain.1 (by decide)

end SCTPSender

end InetManet.SCTP
