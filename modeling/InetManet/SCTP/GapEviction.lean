import InetManet.Library.RegionList
import InetManet.SCTP.GapList

/-!
# Eviction from the gap list

The runs of the arrays are read as regions of offsets from `cTsnAck`: an eviction takes one offset out
of them, and the entries behind a run that is split or deleted are moved in place.
-/

namespace InetManet.SCTP

open TransitionSystem RegionList

namespace GapState

/-! ## Runs -/

/-- The arrays hold the runs, as regions of offsets from `cTsnAck`. -/
structure Runs (g : GapState) (runs : List (Region ℕ)) : Prop where
  numGaps : g.numGaps = runs.length
  start : ∀ j r, runs[j]? = some r → g.gapStartList j = g.cTsnAck + BitVec.ofNat 32 r.lower
  stop : ∀ j r, runs[j]? = some r → g.gapStopList j = g.cTsnAck + BitVec.ofNat 32 (r.upper - 1)
  normal : Normal runs
  above : ∀ r ∈ runs, 0 < r.lower ∧ r.upper ≤ 2 ^ 31
  numGaps_le : g.numGaps ≤ maxGapCount

/-- The list is normal again and has lost just the given TSN, `highestTsnReceived` is the
highest TSN left, and nothing else is different. -/
structure Evicts (g : GapState) (removedTsn : BitVec 32) (runs : List (Region ℕ)) (g' : GapState) :
    Prop where
  runs : ∃ runs', Runs g' runs' ∧
    (∀ x, Covers runs' x ↔ Covers runs x ∧ g.cTsnAck + BitVec.ofNat 32 x ≠ removedTsn) ∧
    ((∃ x, Covers runs' x ∧ g'.highestTsnReceived = g.cTsnAck + BitVec.ofNat 32 x ∧
        ∀ y, Covers runs' y → y ≤ x) ∨
      (∀ y, ¬ Covers runs' y) ∧ g'.highestTsnReceived = g.cTsnAck)
  cTsnAck : g'.cTsnAck = g.cTsnAck
  lastTsnAck : g'.lastTsnAck = g.lastTsnAck

/-- The only run is the TSN alone, which is next to `lastTsnAck`. -/
def TakesForAck (g : GapState) (removedTsn : BitVec 32) : Prop :=
  g.numGaps = 1 ∧ g.gapStartList 0 = removedTsn ∧ g.gapStopList 0 = removedTsn ∧
    removedTsn = g.lastTsnAck + 1

/-- The arrays are full, and the TSN lies inside a run. -/
def SplitsFull (g : GapState) (removedTsn : BitVec 32) : Prop :=
  g.numGaps = maxGapCount ∧ ∃ j < g.numGaps,
    tsnBetween (g.gapStartList j) removedTsn (g.gapStopList j) = true ∧
      g.gapStartList j ≠ removedTsn ∧ g.gapStopList j ≠ removedTsn

section Arrays

variable {g g' : GapState} {i j n numgaps : ℕ} {removedTsn : BitVec 32}

theorem copy_eq (hj : j < maxGapCount) (k : ℕ) :
    g.copy j k = .ok { g with
      gapStartList := Function.update g.gapStartList j (g.gapStartList k)
      gapStopList := Function.update g.gapStopList j (g.gapStopList k) } := by
  simp [copy, setStop, setStart, hj]

theorem shiftUp_eq (hn : i + n < maxGapCount) :
    shiftUp i n g = .ok { g with
      gapStartList := fun j ↦
        if i < j ∧ j ≤ i + n then g.gapStartList (j - 1) else g.gapStartList j
      gapStopList := fun j ↦
        if i < j ∧ j ≤ i + n then g.gapStopList (j - 1) else g.gapStopList j } := by
  induction n generalizing g with
  | zero =>
    have hnone : ∀ j, ¬ (i < j ∧ j ≤ i + 0) := fun j ↦ by omega
    simp only [shiftUp, hnone, if_false]
  | succ n ih =>
    rw [shiftUp, copy_eq (by omega), ok_bind, ih (by omega)]
    congr 2 <;>
      · funext j
        simp only [Function.update_apply]
        grind

theorem shiftDown_eq (hn : j + n ≤ maxGapCount) :
    shiftDown n j g = .ok { g with
      gapStartList := fun k ↦
        if j ≤ k ∧ k < j + n then g.gapStartList (k + 1) else g.gapStartList k
      gapStopList := fun k ↦
        if j ≤ k ∧ k < j + n then g.gapStopList (k + 1) else g.gapStopList k } := by
  induction n generalizing g j with
  | zero =>
    have hnone : ∀ k, ¬ (j ≤ k ∧ k < j + 0) := fun k ↦ by omega
    simp only [shiftDown, hnone, if_false]
  | succ n ih =>
    rw [shiftDown, copy_eq (by omega), ok_bind, ih (by omega)]
    congr 2 <;>
      · funext k
        simp only [Function.update_apply]
        grind

theorem deleteRun_eq (removedTsn : BitVec 32) (hi : i < numgaps) (hle : numgaps ≤ maxGapCount)
    (h : g.numGaps = numgaps) :
    ∃ g', g.deleteRun removedTsn numgaps i = .ok g' ∧ g'.numGaps = numgaps - 1 ∧
      (∀ j, j + 1 < numgaps →
        g'.gapStartList j = (if i ≤ j then g.gapStartList (j + 1) else g.gapStartList j) ∧
        g'.gapStopList j = if i ≤ j then g.gapStopList (j + 1) else g.gapStopList j) ∧
      g'.cTsnAck = g.cTsnAck ∧
      g'.lastTsnAck =
        if numgaps = 1 ∧ removedTsn = g.lastTsnAck + 1 then removedTsn else g.lastTsnAck := by
  have hlast : numgaps - 1 < maxGapCount := by omega
  unfold deleteRun
  rw [shiftDown_eq (by omega), ok_bind]
  simp only [setStart, setStop, hlast, if_true, ok_bind]
  refine ⟨_, rfl, ?_, ?_, ?_, ?_⟩
  · split <;> exact congrArg (· - 1) h
  · intro j hj
    have hne : j ≠ numgaps - 1 := by omega
    split <;>
      · simp only [Function.update_apply, hne, if_false]
        grind
  · split <;> rfl
  · have hone : g.numGaps - 1 = 0 ↔ numgaps = 1 := by omega
    simp only [hone]
    split <;> rfl

theorem splitRun_eq (removedTsn : BitVec 32) (hi : i < numgaps) (hlt : numgaps < maxGapCount)
    (h : g.numGaps = numgaps) :
    ∃ g', g.splitRun removedTsn numgaps i = .ok g' ∧ g'.numGaps = numgaps + 1 ∧
      (∀ j, j ≤ numgaps →
        g'.gapStartList j = (if j ≤ i then g.gapStartList j
          else if j = i + 1 then removedTsn + 1 else g.gapStartList (j - 1)) ∧
        g'.gapStopList j = if j < i then g.gapStopList j
          else if j = i then removedTsn - 1 else g.gapStopList (j - 1)) ∧
      g'.cTsnAck = g.cTsnAck ∧ g'.lastTsnAck = g.lastTsnAck := by
  have hi' : i < maxGapCount := by omega
  have hi'' : i + 1 < maxGapCount := by omega
  unfold splitRun
  rw [shiftUp_eq (by omega), ok_bind]
  simp only [setStart, setStop, hi', hi'', if_true, ok_bind]
  refine ⟨_, rfl, congrArg (· + 1) h, ?_, rfl, rfl⟩
  intro j hj
  simp only [Function.update_apply]
  grind

/-- Splitting a run of full arrays writes behind their last entry. -/
theorem splitRun_full (hi : i < numgaps) (hfull : numgaps = maxGapCount) :
    g.splitRun removedTsn numgaps i = .error .outOfBounds := by
  obtain ⟨n, hn⟩ : ∃ n, numgaps - i = n + 1 := ⟨numgaps - i - 1, by omega⟩
  have hout : ¬ i + n + 1 < maxGapCount := by omega
  unfold splitRun
  rw [hn, shiftUp, copy, setStop, if_neg hout]
  rfl

end Arrays

/-! ## One run -/

section Run

variable {g : GapState} {runs pre post mid : List (Region ℕ)} {r : Region ℕ} {j y : ℕ}
  {c removedTsn : BitVec 32}

theorem tsn_inj {x y : ℕ} (hx : x < 2 ^ 32) (hy : y < 2 ^ 32) :
    c + BitVec.ofNat 32 x = c + BitVec.ofNat 32 y ↔ x = y := by
  rw [add_right_inj, SerialNumber.ofNat_inj (by omega) (by omega)]

theorem ofNat_sub_one {x : ℕ} (hx : 0 < x) :
    BitVec.ofNat 32 x - 1 = BitVec.ofNat 32 (x - 1) :=
  SerialNumber.ofNat_sub_ofNat (a := 1) hx

theorem exists_offset (c removedTsn : BitVec 32) :
    ∃ y < 2 ^ 32, removedTsn = c + BitVec.ofNat 32 y := by
  refine ⟨(removedTsn - c).toNat, (removedTsn - c).isLt, ?_⟩
  rw [BitVec.ofNat_toNat, BitVec.setWidth_eq]
  ring

theorem tsnBetween_run (hr : r.lower < r.upper) (hupper : r.upper ≤ 2 ^ 31) (hy : y < 2 ^ 32) :
    tsnBetween (c + BitVec.ofNat 32 r.lower) (c + BitVec.ofNat 32 y)
      (c + BitVec.ofNat 32 (r.upper - 1)) = decide (r.lower ≤ y ∧ y < r.upper) := by
  have hlen : (BitVec.ofNat 32 (r.upper - 1) - BitVec.ofNat 32 r.lower).toNat =
      r.upper - 1 - r.lower := SerialNumber.toNat_ofNat_sub_ofNat (by omega) (by omega)
  unfold tsnBetween
  rw [add_sub_add_left_eq_sub, add_sub_add_left_eq_sub, hlen, decide_eq_decide]
  rcases Nat.lt_or_ge y r.lower with hlt | hge
  · have hdist := SerialNumber.toNat_ofNat_sub_ofNat_of_lt (w := 32) hlt (by omega)
    omega
  · have hdist := SerialNumber.toNat_ofNat_sub_ofNat (w := 32) hge (by omega)
    omega

theorem Runs.holds_iff (h : Runs g runs) (hr : runs[j]? = some r) (hy : y < 2 ^ 32)
    (hremoved : removedTsn = g.cTsnAck + BitVec.ofNat 32 y) :
    tsnBetween (g.gapStartList j) removedTsn (g.gapStopList j) =
      decide (r.lower ≤ y ∧ y < r.upper) := by
  have hmem := List.mem_of_getElem? hr
  rw [h.start j r hr, h.stop j r hr, hremoved,
    tsnBetween_run (h.normal.nonempty r hmem) (h.above r hmem).2 hy]

theorem getElem?_replaced {s : Region ℕ} (h : (pre ++ (mid ++ post))[j]? = some s) :
    j < pre.length ∧ pre[j]? = some s ∨
      (∃ k, j = pre.length + k ∧ mid[k]? = some s) ∨
      ∃ k, j = pre.length + mid.length + k ∧ post[k]? = some s := by
  rcases Nat.lt_or_ge j pre.length with hlt | hge
  · rw [List.getElem?_append_left hlt] at h
    exact .inl ⟨hlt, h⟩
  rw [List.getElem?_append_right hge] at h
  rcases Nat.lt_or_ge (j - pre.length) mid.length with hlt' | hge'
  · rw [List.getElem?_append_left hlt'] at h
    exact .inr (.inl ⟨j - pre.length, by omega, h⟩)
  · rw [List.getElem?_append_right hge'] at h
    exact .inr (.inr ⟨j - pre.length - mid.length, by omega, h⟩)

variable (h : Runs g (pre ++ r :: post))

include h

/-- The arrays after run `pre.length` was replaced, when the entries in front of it are the old ones
and those behind it are moved. -/
theorem Runs.replace {g' : GapState} (hc : g'.cTsnAck = g.cTsnAck)
    (hnum : g'.numGaps = pre.length + mid.length + post.length) (hle : g'.numGaps ≤ maxGapCount)
    (hmid : Normal mid) (hin : ∀ s ∈ mid, r.lower ≤ s.lower ∧ s.upper ≤ r.upper)
    (hpre : ∀ j < pre.length, g'.gapStartList j = g.gapStartList j ∧ g'.gapStopList j = g.gapStopList j)
    (hnew : ∀ k s, mid[k]? = some s →
      g'.gapStartList (pre.length + k) = g.cTsnAck + BitVec.ofNat 32 s.lower ∧
      g'.gapStopList (pre.length + k) = g.cTsnAck + BitVec.ofNat 32 (s.upper - 1))
    (hpost : ∀ k < post.length,
      g'.gapStartList (pre.length + mid.length + k) = g.gapStartList (pre.length + 1 + k) ∧
      g'.gapStopList (pre.length + mid.length + k) = g.gapStopList (pre.length + 1 + k)) :
    Runs g' (pre ++ (mid ++ post)) := by
  have hold : ∀ j < pre.length, (pre ++ r :: post)[j]? = pre[j]? :=
    fun j hj ↦ List.getElem?_append_left hj
  have hbehind : ∀ k, (pre ++ r :: post)[pre.length + 1 + k]? = post[k]? := by
    intro k
    rw [List.getElem?_append_right (by omega),
      show pre.length + 1 + k - pre.length = k + 1 by omega, List.getElem?_cons_succ]
  have hlength : ∀ {k s}, post[k]? = some s → k < post.length :=
    fun hs ↦ (List.getElem?_eq_some_iff.mp hs).1
  refine ⟨?_, ?_, ?_, h.normal.replace hmid hin, ?_, hle⟩
  · rw [hnum, List.length_append, List.length_append, Nat.add_assoc]
  · intro j s hs
    rw [hc]
    rcases getElem?_replaced hs with ⟨hj, hs'⟩ | ⟨k, rfl, hs'⟩ | ⟨k, rfl, hs'⟩
    · rw [(hpre j hj).1, h.start j s (by rw [hold j hj]; exact hs')]
    · exact (hnew k s hs').1
    · rw [(hpost k (hlength hs')).1, h.start _ s (by rw [hbehind]; exact hs')]
  · intro j s hs
    rw [hc]
    rcases getElem?_replaced hs with ⟨hj, hs'⟩ | ⟨k, rfl, hs'⟩ | ⟨k, rfl, hs'⟩
    · rw [(hpre j hj).2, h.stop j s (by rw [hold j hj]; exact hs')]
    · exact (hnew k s hs').2
    · rw [(hpost k (hlength hs')).2, h.stop _ s (by rw [hbehind]; exact hs')]
  · intro s hs
    have hr := h.above r (by simp)
    rcases List.mem_append.mp hs with hs | hs
    · exact h.above s (by simp [hs])
    · rcases List.mem_append.mp hs with hs | hs
      · exact ⟨hr.1.trans_le (hin s hs).1, (hin s hs).2.trans hr.2⟩
      · exact h.above s (by simp [hs])

theorem Runs.cut {g' : GapState} {s : Region ℕ}
    (hc : g'.cTsnAck = g.cTsnAck) (hnum : g'.numGaps = g.numGaps) (hs : s.lower < s.upper)
    (hin : r.lower ≤ s.lower ∧ s.upper ≤ r.upper)
    (hothers : ∀ j ≠ pre.length, g'.gapStartList j = g.gapStartList j ∧
      g'.gapStopList j = g.gapStopList j)
    (hnew : g'.gapStartList pre.length = g.cTsnAck + BitVec.ofNat 32 s.lower ∧
      g'.gapStopList pre.length = g.cTsnAck + BitVec.ofNat 32 (s.upper - 1)) :
    Runs g' (pre ++ ([s] ++ post)) := by
  apply h.replace hc
  · rw [hnum, h.numGaps, List.length_append, List.length_cons, List.length_singleton]
    omega
  · exact hnum.le.trans h.numGaps_le
  · exact normal_cons.mpr ⟨hs, by simp, normal_nil⟩
  · intro t ht
    obtain rfl := List.mem_singleton.mp ht
    exact hin
  · exact fun j hj ↦ hothers j hj.ne
  · intro k t hk
    cases k with
    | zero =>
      obtain rfl : s = t := by simpa using hk
      exact hnew
    | succ k => simp at hk
  · exact fun k _ ↦ hothers _ (by rw [List.length_singleton]; omega)

theorem Runs.size :
    (g.gapStopList pre.length - g.gapStartList pre.length + 1).toInt =
      (r.upper - r.lower : ℕ) := by
  have hat : (pre ++ r :: post)[pre.length]? = some r := by simp
  have hlt := h.normal.nonempty r (by simp)
  obtain ⟨hlower, hupper⟩ := h.above r (by simp)
  rw [h.start _ _ hat, h.stop _ _ hat, add_sub_add_left_eq_sub,
    SerialNumber.ofNat_sub_ofNat (by omega), SerialNumber.ofNat_add_one,
    show r.upper - 1 - r.lower + 1 = r.upper - r.lower by omega,
    BitVec.toInt_eq_toNat_of_lt, BitVec.toNat_ofNat, Nat.mod_eq_of_lt (by omega)]
  rw [BitVec.toNat_ofNat, Nat.mod_eq_of_lt (by omega)]
  omega

theorem Runs.splitRun (hy : r.lower < y) (hy' : y + 1 < r.upper)
    {removedTsn : BitVec 32} (hremoved : removedTsn = g.cTsnAck + BitVec.ofNat 32 y)
    (hroom : g.numGaps < maxGapCount) :
    ∃ g', g.splitRun removedTsn g.numGaps pre.length = .ok g' ∧
      Runs g' (pre ++ ([⟨r.lower, y⟩, ⟨y + 1, r.upper⟩] ++ post)) ∧
      (∀ j < pre.length, g'.gapStartList j = g.gapStartList j ∧
        g'.gapStopList j = g.gapStopList j) ∧
      g'.cTsnAck = g.cTsnAck ∧ g'.lastTsnAck = g.lastTsnAck := by
  have hat : (pre ++ r :: post)[pre.length]? = some r := by simp
  have hstart := h.start _ _ hat
  have hstop := h.stop _ _ hat
  have hnum : g.numGaps = pre.length + 1 + post.length := by
    rw [h.numGaps, List.length_append, List.length_cons]
    omega
  obtain ⟨g', hok, hnum', hentries, hc, hack⟩ := splitRun_eq (g := g) (i := pre.length)
    removedTsn (by omega) hroom rfl
  have hbefore : ∀ j < pre.length, g'.gapStartList j = g.gapStartList j ∧
      g'.gapStopList j = g.gapStopList j := by
    intro j hj
    have hj' := hentries j (by omega)
    rwa [if_pos hj.le, if_pos hj] at hj'
  refine ⟨g', hok, ?_, hbefore, hc, hack⟩
  apply h.replace hc (by rw [hnum', hnum]; simp only [List.length_cons, List.length_nil]; omega)
    (by omega)
  · exact normal_cons.mpr ⟨hy, by simp, normal_cons.mpr ⟨hy', by simp, normal_nil⟩⟩
  · intro s hs
    simp only [List.mem_cons, List.not_mem_nil, or_false] at hs
    rcases hs with rfl | rfl
    · exact ⟨le_rfl, by dsimp only; omega⟩
    · exact ⟨by dsimp only; omega, le_rfl⟩
  · exact hbefore
  · intro k s hk
    have hk' : k = 0 ∨ k = 1 := by
      have := (List.getElem?_eq_some_iff.mp hk).1
      simp only [List.length_cons, List.length_nil] at this
      omega
    have hj' := hentries (pre.length + k) (by omega)
    rcases hk' with rfl | rfl
    · obtain rfl : (⟨r.lower, y⟩ : Region ℕ) = s := by simpa using hk
      rw [Nat.add_zero, if_pos le_rfl, if_neg (lt_irrefl _), if_pos rfl] at hj'
      rw [Nat.add_zero, hj'.1, hj'.2, hstart, hremoved, add_sub_assoc, ofNat_sub_one (by omega)]
      exact ⟨rfl, rfl⟩
    · obtain rfl : (⟨y + 1, r.upper⟩ : Region ℕ) = s := by simpa using hk
      rw [if_neg (by omega), if_pos rfl, if_neg (by omega), if_neg (by omega),
        Nat.add_sub_cancel] at hj'
      rw [hj'.1, hj'.2, hstop, hremoved, add_assoc, SerialNumber.ofNat_add_one]
      exact ⟨rfl, rfl⟩
  · intro k hk
    simp only [List.length_cons, List.length_nil]
    have hj' := hentries (pre.length + (0 + 1 + 1) + k) (by omega)
    rw [if_neg (by omega), if_neg (by omega), if_neg (by omega), if_neg (by omega),
      show pre.length + (0 + 1 + 1) + k - 1 = pre.length + 1 + k by omega] at hj'
    exact hj'

theorem Runs.deleteRun (removedTsn : BitVec 32) :
    ∃ g', g.deleteRun removedTsn g.numGaps pre.length = .ok g' ∧ Runs g' (pre ++ ([] ++ post)) ∧
      (∀ j < pre.length, g'.gapStartList j = g.gapStartList j ∧
        g'.gapStopList j = g.gapStopList j) ∧
      g'.cTsnAck = g.cTsnAck ∧
      g'.lastTsnAck = if g.numGaps = 1 ∧ removedTsn = g.lastTsnAck + 1 then removedTsn
        else g.lastTsnAck := by
  have hnum : g.numGaps = pre.length + 1 + post.length := by
    rw [h.numGaps, List.length_append, List.length_cons]
    omega
  have hle := h.numGaps_le
  obtain ⟨g', hok, hnum', hentries, hc, hack⟩ := deleteRun_eq (g := g) (i := pre.length)
    removedTsn (by omega) hle rfl
  have hbefore : ∀ j < pre.length, g'.gapStartList j = g.gapStartList j ∧
      g'.gapStopList j = g.gapStopList j := by
    intro j hj
    have hj' := hentries j (by omega)
    rwa [if_neg (by omega), if_neg (by omega)] at hj'
  refine ⟨g', hok, ?_, hbefore, hc, hack⟩
  apply h.replace hc (by rw [hnum', hnum]; simp only [List.length_nil]; omega)
    (by omega) normal_nil (List.forall_mem_nil _)
  · exact hbefore
  · intro k s hk
    simp at hk
  · intro k hk
    have hj' := hentries (pre.length + k) (by omega)
    rw [if_pos (by omega), if_pos (by omega), Nat.add_right_comm] at hj'
    exact hj'

/-- The TSN leaves its run: this is cut, split in two or deleted. -/
theorem Runs.removeFromRun (hy : r.lower ≤ y) (hy' : y < r.upper)
    (hremoved : removedTsn = g.cTsnAck + BitVec.ofNat 32 y)
    (hsplit : g.numGaps = maxGapCount → y = r.lower ∨ y + 1 = r.upper) :
    ∃ g' mid, g.removeFromRun removedTsn g.numGaps pre.length = .ok g' ∧
      Runs g' (pre ++ (mid ++ post)) ∧
      (∀ x, Covers mid x ↔ (r.lower ≤ x ∧ x < r.upper) ∧ x ≠ y) ∧
      (∀ j < pre.length, g'.gapStartList j = g.gapStartList j ∧
        g'.gapStopList j = g.gapStopList j) ∧
      g'.cTsnAck = g.cTsnAck ∧
      g'.lastTsnAck = if g.numGaps = 1 ∧ r.lower + 1 = r.upper ∧ removedTsn = g.lastTsnAck + 1 then
        removedTsn else g.lastTsnAck := by
  have hat : (pre ++ r :: post)[pre.length]? = some r := by simp
  have hstart := h.start _ _ hat
  have hstop := h.stop _ _ hat
  obtain ⟨hlower, hupper⟩ := h.above r (by simp)
  have hnum : g.numGaps = pre.length + 1 + post.length := by
    rw [h.numGaps, List.length_append, List.length_cons]
    omega
  have hle := h.numGaps_le
  have hsize := h.size
  have hstopIff : g.gapStopList pre.length = removedTsn ↔ y + 1 = r.upper := by
    rw [hstop, hremoved, tsn_inj (by omega) (by omega)]
    omega
  have hstartIff : g.gapStartList pre.length = removedTsn ↔ y = r.lower := by
    rw [hstart, hremoved, tsn_inj (by omega) (by omega)]
    omega
  have hinside : pre.length < maxGapCount := by omega
  unfold GapState.removeFromRun
  rw [hsize]
  by_cases hbig : 1 < r.upper - r.lower
  · have hlast : ¬ (g.numGaps = 1 ∧ r.lower + 1 = r.upper ∧ removedTsn = g.lastTsnAck + 1) := by
      omega
    rw [if_neg hlast, if_pos (by omega)]
    by_cases hend : y + 1 = r.upper
    · rw [if_pos (hstopIff.mpr hend), setStop, if_pos hinside]
      refine ⟨_, [⟨r.lower, r.upper - 1⟩], rfl, ?_, ?_, ?_, rfl, rfl⟩
      · have hlt : r.lower < r.upper - 1 := by omega
        refine h.cut rfl rfl hlt ⟨le_rfl, Nat.sub_le _ _⟩ (fun j hj ↦ ⟨rfl, ?_⟩) ⟨hstart, ?_⟩
        · exact Function.update_of_ne hj _ _
        · dsimp only
          rw [Function.update_self, hstop, add_sub_assoc, ofNat_sub_one (by omega)]
      · intro x
        simp only [covers_cons, covers_nil, or_false]
        omega
      · exact fun j hj ↦ ⟨rfl, Function.update_of_ne hj.ne _ _⟩
    rw [if_neg (mt hstopIff.mp hend)]
    by_cases hfront : y = r.lower
    · rw [if_pos (hstartIff.mpr hfront), setStart, if_pos hinside]
      refine ⟨_, [⟨r.lower + 1, r.upper⟩], rfl, ?_, ?_, ?_, rfl, rfl⟩
      · have hlt : r.lower + 1 < r.upper := by omega
        refine h.cut rfl rfl hlt ⟨Nat.le_succ _, le_rfl⟩ (fun j hj ↦ ⟨?_, rfl⟩) ⟨?_, hstop⟩
        · exact Function.update_of_ne hj _ _
        · dsimp only
          rw [Function.update_self, hstart, add_assoc, SerialNumber.ofNat_add_one]
      · intro x
        simp only [covers_cons, covers_nil, or_false]
        omega
      · exact fun j hj ↦ ⟨Function.update_of_ne hj.ne _ _, rfl⟩
    rw [if_neg (mt hstartIff.mp hfront)]
    have hroom : g.numGaps < maxGapCount := by
      apply lt_of_le_of_ne hle
      intro hfull
      exact (hsplit hfull).elim hfront hend
    obtain ⟨g', hok, hruns, hbefore, hc, hack⟩ := h.splitRun
      (lt_of_le_of_ne hy (Ne.symm hfront)) (lt_of_le_of_ne hy' hend) hremoved hroom
    refine ⟨g', _, hok, hruns, ?_, hbefore, hc, hack⟩
    intro x
    simp only [covers_cons, covers_nil, or_false]
    omega
  · have hone : r.lower + 1 = r.upper := by omega
    rw [if_neg (by omega)]
    obtain ⟨g', hok, hruns, hbefore, hc, hack⟩ := h.deleteRun removedTsn
    refine ⟨g', [], hok, hruns, ?_, hbefore, hc, ?_⟩
    · intro x
      simp only [covers_nil, false_iff]
      omega
    · rw [hack]
      simp only [hone, true_and]

end Run

/-! ## All runs -/

section Eviction

variable {g g' : GapState} {runs runs' : List (Region ℕ)} {i n numgaps y : ℕ}
  {removedTsn : BitVec 32}

theorem removeLoop_skip (numgaps i n : ℕ) (hnone : ∀ j, i ≤ j → j < i + n →
      tsnBetween (g.gapStartList j) removedTsn (g.gapStopList j) = false) :
    removeLoop removedTsn numgaps (i + n) g = removeLoop removedTsn numgaps i g := by
  induction n with
  | zero => rfl
  | succ n ih =>
    rw [← Nat.add_assoc, removeLoop, hnone (i + n) (by omega) (by omega), if_neg (by simp), ok_bind]
    exact ih fun j hj hj' ↦ hnone j hj (by omega)

theorem Runs.highest (h : Runs g runs) :
    (∃ x, Covers runs x ∧ g.updateHighest.highestTsnReceived = g.cTsnAck + BitVec.ofNat 32 x ∧
        ∀ y, Covers runs y → y ≤ x) ∨
      (∀ y, ¬ Covers runs y) ∧ g.updateHighest.highestTsnReceived = g.cTsnAck := by
  unfold updateHighest
  dsimp only
  rw [h.numGaps]
  rcases List.eq_nil_or_concat' runs with rfl | ⟨init, last, rfl⟩
  · exact .inr ⟨covers_nil, rfl⟩
  · left
    have hlast := h.normal.nonempty last (by simp)
    have hat : (init ++ [last])[init.length]? = some last := by simp
    refine ⟨last.upper - 1, ⟨last, by simp, by omega, by omega⟩, ?_, ?_⟩
    · rw [List.length_append, List.length_singleton, if_pos (Nat.succ_pos _), Nat.add_sub_cancel,
        h.stop _ _ hat]
    · rintro y ⟨s, hs, -, hy⟩
      rcases List.mem_append.mp hs with hs | hs
      · have := (List.pairwise_append.mp h.normal.separated).2.2 s hs last (by simp)
        omega
      · obtain rfl := List.mem_singleton.mp hs
        omega

theorem Runs.updateHighest (h : Runs g runs) : Runs g.updateHighest runs :=
  ⟨h.numGaps, h.start, h.stop, h.normal, h.above, h.numGaps_le⟩

theorem Runs.removeFromGapList_absent (h : Runs g runs) (hy : y < 2 ^ 32)
    (hremoved : removedTsn = g.cTsnAck + BitVec.ofNat 32 y) (habsent : ¬ Covers runs y) :
    g.removeFromGapList removedTsn = .ok g.updateHighest := by
  have hskip := removeLoop_skip (g := g) g.numGaps 0 g.numGaps (fun j _ hj ↦ by
      obtain ⟨r, hr⟩ : ∃ r, runs[j]? = some r :=
        ⟨_, List.getElem?_eq_getElem (by rw [← h.numGaps]; omega)⟩
      rw [h.holds_iff hr hy hremoved, decide_eq_false_iff_not]
      exact fun hin ↦ habsent ⟨r, List.mem_of_getElem? hr, hin⟩)
  rw [Nat.zero_add] at hskip
  unfold removeFromGapList
  rw [hskip]
  rfl

section

variable {pre post : List (Region ℕ)}

theorem Runs.removeLoop_present {r : Region ℕ}
    (h : Runs g (pre ++ r :: post)) (hy : r.lower ≤ y) (hy' : y < r.upper)
    (hremoved : removedTsn = g.cTsnAck + BitVec.ofNat 32 y) :
    removeLoop removedTsn g.numGaps g.numGaps g =
      g.removeFromRun removedTsn g.numGaps pre.length >>=
        removeLoop removedTsn g.numGaps pre.length := by
  have hlarge : y < 2 ^ 32 := by
    have := (h.above r (by simp)).2
    omega
  have hnum : g.numGaps = pre.length + 1 + post.length := by
    rw [h.numGaps, List.length_append, List.length_cons]
    omega
  have hat : (pre ++ r :: post)[pre.length]? = some r := by simp
  have hskip : removeLoop removedTsn g.numGaps (pre.length + 1 + post.length) g =
      removeLoop removedTsn g.numGaps (pre.length + 1) g := by
    apply removeLoop_skip
    intro j hj hj'
    obtain ⟨s, hs⟩ : ∃ s, (pre ++ r :: post)[j]? = some s :=
      ⟨_, List.getElem?_eq_getElem (by rw [← h.numGaps]; omega)⟩
    have hpost : s ∈ post := by
      rw [List.getElem?_append_right (by omega)] at hs
      obtain ⟨k, hk⟩ : ∃ k, j - pre.length = k + 1 := ⟨j - pre.length - 1, by omega⟩
      rw [hk, List.getElem?_cons_succ] at hs
      exact List.mem_of_getElem? hs
    rw [h.holds_iff hs hlarge hremoved, decide_eq_false_iff_not]
    exact fun hin ↦ (h.normal.not_covers_others hy hy').2 ⟨s, hpost, hin⟩
  rw [← hnum] at hskip
  rw [hskip, removeLoop, h.holds_iff hat hlarge hremoved, if_pos (decide_eq_true ⟨hy, hy'⟩)]

theorem Runs.removeFromGapList_present {r : Region ℕ}
    (h : Runs g (pre ++ r :: post)) (hy : r.lower ≤ y) (hy' : y < r.upper)
    (hremoved : removedTsn = g.cTsnAck + BitVec.ofNat 32 y)
    (hsplit : g.numGaps = maxGapCount → y = r.lower ∨ y + 1 = r.upper) :
    ∃ g' mid, g.removeFromGapList removedTsn = .ok g'.updateHighest ∧
      Runs g' (pre ++ (mid ++ post)) ∧
      (∀ x, Covers mid x ↔ (r.lower ≤ x ∧ x < r.upper) ∧ x ≠ y) ∧
      g'.cTsnAck = g.cTsnAck ∧
      g'.lastTsnAck = if g.numGaps = 1 ∧ r.lower + 1 = r.upper ∧ removedTsn = g.lastTsnAck + 1 then
        removedTsn else g.lastTsnAck := by
  obtain ⟨g', mid, hok, hruns, hmid, hpre, hc, hack⟩ := h.removeFromRun hy hy' hremoved hsplit
  have hlarge : y < 2 ^ 32 := by
    have := (h.above r (by simp)).2
    omega
  refine ⟨g', mid, ?_, hruns, hmid, hc, hack⟩
  have hskip := removeLoop_skip (g := g') g.numGaps 0 pre.length (fun j _ hj ↦ by
      rw [Nat.zero_add] at hj
      obtain ⟨s, hs⟩ : ∃ s, pre[j]? = some s := ⟨_, List.getElem?_eq_getElem hj⟩
      have hs' : (pre ++ r :: post)[j]? = some s := by rw [List.getElem?_append_left hj, hs]
      rw [(hpre j hj).1, (hpre j hj).2, h.holds_iff hs' hlarge hremoved,
        decide_eq_false_iff_not]
      exact fun hin ↦ (h.normal.not_covers_others hy hy').1 ⟨s, List.mem_of_getElem? hs, hin⟩)
  rw [Nat.zero_add] at hskip
  unfold removeFromGapList
  rw [h.removeLoop_present hy hy' hremoved, hok, ok_bind, hskip]
  rfl

theorem Runs.numGaps_eq_one {r : Region ℕ}
    (h : Runs g (pre ++ r :: post)) : g.numGaps = 1 ↔ pre = [] ∧ post = [] := by
  rw [h.numGaps, List.length_append, List.length_cons, ← List.length_eq_zero_iff,
    ← List.length_eq_zero_iff]
  omega

theorem Runs.removeFromGapList_full {r : Region ℕ}
    (h : Runs g (pre ++ r :: post)) (hy : r.lower ≤ y) (hy' : y < r.upper)
    (hremoved : removedTsn = g.cTsnAck + BitVec.ofNat 32 y) (hfull : g.numGaps = maxGapCount)
    (hstart : g.gapStartList pre.length ≠ removedTsn) (hstop : g.gapStopList pre.length ≠ removedTsn) :
    g.removeFromGapList removedTsn = .error .outOfBounds := by
  have hnum : pre.length < g.numGaps := by
    rw [h.numGaps, List.length_append, List.length_cons]
    omega
  obtain ⟨hlower, hupper⟩ := h.above r (by simp)
  have hfront : y ≠ r.lower := by
    rintro rfl
    exact hstart (by rw [hremoved]; exact h.start _ _ (by simp))
  have hsize : 1 < (g.gapStopList pre.length - g.gapStartList pre.length + 1).toInt := by
    rw [h.size]
    omega
  unfold removeFromGapList
  rw [h.removeLoop_present hy hy' hremoved, GapState.removeFromRun, if_pos hsize, if_neg hstop,
    if_neg hstart, splitRun_full hnum hfull]
  rfl

end

theorem Runs.exists_run (h : Runs g runs) {j : ℕ} (hj : j < g.numGaps) (hlarge : y < 2 ^ 32)
    (hremoved : removedTsn = g.cTsnAck + BitVec.ofNat 32 y)
    (hbetween : tsnBetween (g.gapStartList j) removedTsn (g.gapStopList j) = true) :
    ∃ pre r post, runs = pre ++ r :: post ∧ pre.length = j ∧ r.lower ≤ y ∧ y < r.upper := by
  have hj' : j < runs.length := h.numGaps ▸ hj
  have hat : runs[j]? = some runs[j] := List.getElem?_eq_getElem hj'
  rw [h.holds_iff hat hlarge hremoved, decide_eq_true_eq] at hbetween
  refine ⟨runs.take j, runs[j], runs.drop (j + 1), ?_, ?_, hbetween⟩
  · rw [List.getElem_cons_drop, List.take_append_drop]
  · rw [List.length_take, Nat.min_eq_left hj'.le]

theorem Runs.not_ok_of_splitsFull (h : Runs g runs) (hsplit : SplitsFull g removedTsn) :
    g.removeFromGapList removedTsn ≠ .ok g' := by
  obtain ⟨y, hlarge, hremoved⟩ := exists_offset g.cTsnAck removedTsn
  obtain ⟨hfull, j, hj, hbetween, hstart, hstop⟩ := hsplit
  obtain ⟨pre, r, post, rfl, rfl, hy, hy'⟩ := h.exists_run hj hlarge hremoved hbetween
  rw [h.removeFromGapList_full hy hy' hremoved hfull hstart hstop]
  nofun

theorem Runs.covers_lt (h : Runs g runs) {x : ℕ} (hx : Covers runs x) : x < 2 ^ 31 := by
  obtain ⟨s, hs, -, hx⟩ := hx
  have := (h.above s hs).2
  omega

theorem Runs.ends_iff {pre post : List (Region ℕ)} {r : Region ℕ}
    (h : Runs g (pre ++ r :: post)) (hy : r.lower ≤ y) (hy' : y < r.upper)
    (hremoved : removedTsn = g.cTsnAck + BitVec.ofNat 32 y) :
    (g.gapStartList pre.length = removedTsn ↔ y = r.lower) ∧
      (g.gapStopList pre.length = removedTsn ↔ y + 1 = r.upper) := by
  have hat : (pre ++ r :: post)[pre.length]? = some r := by simp
  have hupper := (h.above r (by simp)).2
  constructor
  · rw [h.start _ _ hat, hremoved, tsn_inj (by omega) (by omega), eq_comm]
  · rw [h.stop _ _ hat, hremoved, tsn_inj (by omega) (by omega)]
    omega

theorem Runs.takesForAck_iff {pre post : List (Region ℕ)} {r : Region ℕ}
    (h : Runs g (pre ++ r :: post)) (hy : r.lower ≤ y) (hy' : y < r.upper)
    (hremoved : removedTsn = g.cTsnAck + BitVec.ofNat 32 y) : TakesForAck g removedTsn ↔
      g.numGaps = 1 ∧ r.lower + 1 = r.upper ∧ removedTsn = g.lastTsnAck + 1 := by
  obtain ⟨hstart, hstop⟩ := h.ends_iff hy hy' hremoved
  unfold TakesForAck
  apply and_congr_right
  intro hone
  obtain ⟨rfl, rfl⟩ := h.numGaps_eq_one.mp hone
  rw [List.length_nil] at hstart hstop
  rw [hstart, hstop, ← and_assoc]
  apply and_congr_left
  intro _
  omega

/-- The TSN is evicted as it should be just if it does not count as acknowledged and does not split a
run of full arrays. -/
theorem removeFromGapList_evicts_iff (h : Runs g runs) (removedTsn : BitVec 32) :
    (∃ g', g.removeFromGapList removedTsn = .ok g' ∧ Evicts g removedTsn runs g') ↔
      ¬ TakesForAck g removedTsn ∧ ¬ SplitsFull g removedTsn := by
  by_cases hsplit : SplitsFull g removedTsn
  · constructor
    · rintro ⟨g', hok, -⟩
      exact absurd hok (h.not_ok_of_splitsFull hsplit)
    · exact fun hnot ↦ absurd hsplit hnot.2
  obtain ⟨y, hlarge, hremoved⟩ := exists_offset g.cTsnAck removedTsn
  have hne : ∀ x, x < 2 ^ 31 → (g.cTsnAck + BitVec.ofNat 32 x ≠ removedTsn ↔ x ≠ y) := by
    intro x hx
    rw [hremoved, ne_eq, tsn_inj (by omega) hlarge]
  by_cases habsent : Covers runs y
  · obtain ⟨r, hr, hy, hy'⟩ := habsent
    obtain ⟨pre, post, rfl⟩ := List.append_of_mem hr
    have hat : (pre ++ r :: post)[pre.length]? = some r := by simp
    obtain ⟨hstart, hstop⟩ := h.ends_iff hy hy' hremoved
    have hends : g.numGaps = maxGapCount → y = r.lower ∨ y + 1 = r.upper := by
      intro hfull
      by_contra hnot
      rw [not_or, ← hstart, ← hstop] at hnot
      refine hsplit ⟨hfull, pre.length, ?_, ?_, hnot⟩
      · rw [h.numGaps, List.length_append, List.length_cons]
        omega
      · rw [h.holds_iff hat hlarge hremoved, decide_eq_true ⟨hy, hy'⟩]
    have htakes := h.takesForAck_iff hy hy' hremoved
    obtain ⟨g', mid, hok, hruns, hmid, hc, hack⟩ :=
      h.removeFromGapList_present hy hy' hremoved hends
    constructor
    · rintro ⟨b, hok', hevicts⟩
      obtain rfl : g'.updateHighest = b := Except.ok.inj (hok.symm.trans hok')
      refine ⟨fun ht ↦ ?_, hsplit⟩
      have hack' : g'.lastTsnAck = g.lastTsnAck := hevicts.lastTsnAck
      rw [hack, if_pos (htakes.mp ht), ht.2.2.2] at hack'
      exact absurd (add_eq_left.mp hack') (by decide)
    · rintro ⟨ht, -⟩
      have hhighest := hruns.highest
      rw [hc] at hhighest
      refine ⟨g'.updateHighest, hok, ⟨_, hruns.updateHighest, ?_, hhighest⟩, hc, ?_⟩
      · intro x
        rw [h.normal.covers_replace hy hy' hmid]
        exact and_congr_right fun hx ↦ (hne x (h.covers_lt hx)).symm
      · exact hack.trans (if_neg (mt htakes.mpr ht))
  · have hok := h.removeFromGapList_absent hlarge hremoved habsent
    have htakes : ¬ TakesForAck g removedTsn := by
      rintro ⟨hone, hstart, hstop, -⟩
      have hbetween : tsnBetween (g.gapStartList 0) removedTsn (g.gapStopList 0) = true := by
        rw [hstart, hstop]
        simp [tsnBetween]
      obtain ⟨pre, r, post, rfl, -, hin⟩ := h.exists_run (by omega) hlarge hremoved hbetween
      exact habsent ⟨r, by simp, hin⟩
    simp only [hok, htakes, hsplit, not_false_eq_true, and_self, iff_true]
    refine ⟨_, rfl, ⟨runs, h.updateHighest, ?_, h.highest⟩, rfl, rfl⟩
    intro x
    constructor
    · intro hx
      refine ⟨hx, (hne x (h.covers_lt hx)).mpr ?_⟩
      rintro rfl
      exact habsent hx
    · exact And.left

end Eviction

/-- The runs `12`-`14` and `17`, with `cTsnAck` at `10`. -/
def twoRuns : GapState where
  numGaps := 2
  gapStartList j := if j = 0 then 12 else if j = 1 then 17 else 0
  gapStopList j := if j = 0 then 14 else if j = 1 then 17 else 0
  cTsnAck := 10
  highestTsnReceived := 17
  lastTsnAck := 16

theorem twoRuns_runs : Runs twoRuns [⟨2, 5⟩, ⟨7, 8⟩] where
  numGaps := rfl
  start j r hr := by
    match j with
    | 0 => cases hr; rfl
    | 1 => cases hr; rfl
    | j + 2 => simp at hr
  stop j r hr := by
    match j with
    | 0 => cases hr; rfl
    | 1 => cases hr; rfl
    | j + 2 => simp at hr
  normal := ⟨by decide, by simp⟩
  above := by decide
  numGaps_le := by decide

theorem removeFromGapList_evicts_iff_twoRuns :
    (∃ g', twoRuns.removeFromGapList 13 = .ok g' ∧ Evicts twoRuns 13 [⟨2, 5⟩, ⟨7, 8⟩] g') ↔
      ¬ TakesForAck twoRuns 13 ∧ ¬ SplitsFull twoRuns 13 :=
  removeFromGapList_evicts_iff twoRuns_runs 13

/-- The run `17` alone. -/
def oneRun : GapState :=
  { twoRuns with numGaps := 1, gapStartList := fun _ ↦ 17, gapStopList := fun _ ↦ 17 }

/-- The last run is deleted, and its TSN counts as acknowledged by the peer. -/
theorem evicted_counts_as_acked :
    ¬ ∃ g', oneRun.removeFromGapList 17 = .ok g' ∧ Evicts oneRun 17 [⟨7, 8⟩] g' := by
  rintro ⟨g', hok, hevicts⟩
  have hack : ((oneRun.removeFromGapList 17).toOption.map (·.lastTsnAck)) = some 17 := by decide
  rw [hok] at hack
  have hack' : g'.lastTsnAck = 17 := Option.some_inj.mp hack
  have hsame := hevicts.lastTsnAck
  rw [hack'] at hsame
  exact absurd hsame (by decide)

end GapState

end InetManet.SCTP
