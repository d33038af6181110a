import InetManet.Library.InOrder
import Mathlib.Data.BitVec
import Mathlib.Data.Bool.Basic
import Mathlib.Tactic.SplitIfs

/-!
# The reassembly buffer for datagrams

One region that starts at offset 0 grows as fragments arrive; fragments that do not connect to it are
put aside and taken up when the gap in front of them is filled. Until then they are kept as they came,
also when one arrives twice or when two of them touch.
-/

namespace InetManet

open InOrder

/-- An offset range; `stop` is the last offset + 1. -/
structure ReassemblyBuffer.Region where
  beg : BitVec 16
  stop : BitVec 16
  islast : Bool
  deriving DecidableEq

/-- No fragments are the same as a NULL vector of them. -/
structure ReassemblyBuffer where
  main : ReassemblyBuffer.Region := ⟨0, 0, false⟩
  fragments : List ReassemblyBuffer.Region := []
  deriving DecidableEq

namespace ReassemblyBuffer

/-- The `for` loop of `mergeFragments`: main region, what is left in the vector, and `oncemore`. -/
def mergePass : Region → List Region → Region × List Region × Bool
  | main, [] => (main, [], false)
  | main, frag :: frags =>
    if main.stop = frag.beg then
      let r := mergePass { main with stop := frag.stop, islast := main.islast || frag.islast } frags
      (r.1, r.2.1, true)
    else if main.beg = frag.stop then
      let r := mergePass { main with beg := frag.beg } frags
      (r.1, r.2.1, true)
    else if main.beg ≤ frag.beg ∧ frag.stop ≤ main.stop then
      -- we already have this region
      let r := mergePass main frags
      (r.1, r.2.1, true)
    else
      let r := mergePass main frags
      (r.1, frag :: r.2.1, r.2.2)

/-- `none` is a loop that is still running. -/
def mergeFragments : ℕ → Region → List Region → Option (Region × List Region)
  | 0, _, _ => none
  | rounds + 1, main, frags =>
    let r := mergePass main frags
    if r.2.2 then mergeFragments rounds r.1 r.2.1 else some (r.1, r.2.1)

def merge (b : ReassemblyBuffer) (beg stop : BitVec 16) (islast : Bool) : Option ReassemblyBuffer :=
  if b.main.stop = beg then do
    let r ← mergeFragments (b.fragments.length + 1)
      { b.main with stop := stop, islast := b.main.islast || islast } b.fragments
    return ⟨r.1, r.2⟩
  else if b.main.beg = stop then do
    let r ← mergeFragments (b.fragments.length + 1) { b.main with beg := beg } b.fragments
    return ⟨r.1, r.2⟩
  else if b.main.stop < beg ∨ stop < b.main.beg then
    -- disjoint fragment, store it until another fragment fills in the gap
    some { b with fragments := b.fragments ++ [⟨beg, stop, islast⟩] }
  else some b  -- the range is already contained

/-- The buffer, and whether the datagram is complete. -/
def addFragment (b : ReassemblyBuffer) (beg stop : BitVec 16) (islast : Bool) :
    Option (ReassemblyBuffer × Bool) := do
  let b ← b.merge beg stop islast
  return (b, b.main.beg == 0 && b.main.islast)

def getTotalLength (b : ReassemblyBuffer) : BitVec 16 := b.main.stop

end ReassemblyBuffer

/-- A datagram that is cut into `n` pieces. -/
structure Datagram where
  n : ℕ
  cut : ℕ → ℕ
  nonempty : 0 < n
  zero : cut 0 = 0
  increasing : ∀ i < n, cut i < cut (i + 1)
  bounded : cut n ≤ 65535

namespace Datagram

open ReassemblyBuffer

variable (p : Datagram)

/-- Piece `i` as it is put aside. -/
def piece (i : ℕ) : ReassemblyBuffer.Region :=
  ⟨BitVec.ofNat 16 (p.cut i), BitVec.ofNat 16 (p.cut (i + 1)), i + 1 = p.n⟩

/-- A piece arrives. -/
def add (b : ReassemblyBuffer) (i : ℕ) : Option (ReassemblyBuffer × Bool) :=
  b.addFragment (p.piece i).beg (p.piece i).stop (p.piece i).islast

/-- The buffer after the pieces with these numbers. -/
def received (is : List ℕ) : Option ReassemblyBuffer :=
  is.foldlM (fun b i ↦ (p.add b i).map Prod.fst) {}

/-- The offsets that the buffer holds. -/
def Covers (b : ReassemblyBuffer) (x : ℕ) : Prop :=
  ∃ r ∈ b.main :: b.fragments, r.beg.toNat ≤ x ∧ x < r.stop.toNat

/-- The buffer holds what has arrived: the main region from offset 0 on, and behind it pieces as
they came. -/
structure Denotes (is : List ℕ) (b : ReassemblyBuffer) : Prop where
  main_beg : b.main.beg = 0
  covers_iff : ∀ x, Covers b x ↔ ∃ i ∈ is, p.cut i ≤ x ∧ x < p.cut (i + 1)
  piece : ∀ r ∈ b.fragments, ∃ i ∈ is, r = p.piece i
  behind : ∀ r ∈ b.fragments, b.main.stop < r.beg

/-- No two regions overlap or touch. -/
def Separate (b : ReassemblyBuffer) : Prop :=
  (b.main :: b.fragments).Pairwise fun r s ↦ r.stop < s.beg ∨ s.stop < r.beg

/-! ## The buffer as a row of pieces -/

/-- The main region when the first `k` pieces are in it. -/
def mainAt (k : ℕ) : ReassemblyBuffer.Region := ⟨0, BitVec.ofNat 16 (p.cut k), k = p.n⟩

theorem cut_lt {i j : ℕ} (hij : i < j) (hj : j ≤ p.n) : p.cut i < p.cut j := by
  induction j with
  | zero => omega
  | succ j ih =>
    have hstep := p.increasing j (by omega)
    by_cases h : i = j
    · rw [h]
      exact hstep
    · exact (ih (by omega) (by omega)).trans hstep

theorem cut_lt_iff {i j : ℕ} (hi : i ≤ p.n) (hj : j ≤ p.n) : p.cut i < p.cut j ↔ i < j := by
  constructor
  · intro h
    by_contra hle
    by_cases hij : i = j
    · rw [hij] at h
      omega
    · have hgt := p.cut_lt (by omega : j < i) hi
      omega
  · intro h
    exact p.cut_lt h hj

theorem toNat_cut {i : ℕ} (hi : i ≤ p.n) : (BitVec.ofNat 16 (p.cut i)).toNat = p.cut i := by
  have hle : p.cut i ≤ 65535 := by
    by_cases h : i = p.n
    · rw [h]
      exact p.bounded
    · have hlt := p.cut_lt (by omega : i < p.n) le_rfl
      have hbound := p.bounded
      omega
  rw [BitVec.toNat_ofNat]
  omega

theorem ofNat_cut_lt_iff {i j : ℕ} (hi : i ≤ p.n) (hj : j ≤ p.n) :
    BitVec.ofNat 16 (p.cut i) < BitVec.ofNat 16 (p.cut j) ↔ i < j := by
  rw [BitVec.lt_def, p.toNat_cut hi, p.toNat_cut hj, p.cut_lt_iff hi hj]

theorem ofNat_cut_inj {i j : ℕ} (hi : i ≤ p.n) (hj : j ≤ p.n) :
    BitVec.ofNat 16 (p.cut i) = BitVec.ofNat 16 (p.cut j) ↔ i = j := by
  have hij := p.ofNat_cut_lt_iff hi hj
  have hji := p.ofNat_cut_lt_iff hj hi
  constructor
  · intro h
    rw [h] at hij hji
    have hirr : ¬ BitVec.ofNat 16 (p.cut j) < BitVec.ofNat 16 (p.cut j) := BitVec.lt_irrefl _
    have hle : ¬ i < j := fun hlt ↦ hirr (hij.mpr hlt)
    have hge : ¬ j < i := fun hlt ↦ hirr (hji.mpr hlt)
    omega
  · intro h
    rw [h]

theorem ofNat_cut_pos {i : ℕ} (hi : i ≤ p.n) (hpos : 0 < i) :
    (0 : BitVec 16) ≠ BitVec.ofNat 16 (p.cut i) := by
  have hlt := (p.ofNat_cut_lt_iff (Nat.zero_le _) hi).mpr hpos
  rw [p.zero] at hlt
  exact (BitVec.ne_of_lt hlt)

theorem mainAt_extend {k : ℕ} (hk : k < p.n) :
    { p.mainAt k with
      stop := (p.piece k).stop, islast := (p.mainAt k).islast || (p.piece k).islast } =
      p.mainAt (k + 1) := by
  have hlast : (decide (k = p.n) || decide (k + 1 = p.n)) = decide (k + 1 = p.n) := by
    rw [decide_eq_false (by omega), Bool.false_or]
  simp only [mainAt, piece, hlast]

/-- The walk over the regions is the walk over the numbers of the pieces. -/
theorem mergePass_eq {k : ℕ} {pending : List ℕ} (hk : k ≤ p.n) (hpending : ∀ i ∈ pending, i < p.n) :
    mergePass (p.mainAt k) (pending.map p.piece) =
        (p.mainAt (absorb k pending).1, (absorb k pending).2.1.map p.piece,
          (absorb k pending).2.2) ∧
      (absorb k pending).1 ≤ p.n ∧ ∀ i ∈ (absorb k pending).2.1, i < p.n := by
  induction pending generalizing k with
  | nil => exact ⟨rfl, hk, List.forall_mem_nil _⟩
  | cons i pending ih =>
    obtain ⟨hi, hrest⟩ := List.forall_mem_cons.mp hpending
    have hnext : (p.mainAt k).stop = (p.piece i).beg ↔ k = i := p.ofNat_cut_inj hk hi.le
    have hfirst : ¬ (p.mainAt k).beg = (p.piece i).stop := p.ofNat_cut_pos hi (Nat.succ_pos i)
    have hold : (p.mainAt k).beg ≤ (p.piece i).beg ∧ (p.piece i).stop ≤ (p.mainAt k).stop ↔ i < k := by
      have hstop : (p.piece i).stop ≤ (p.mainAt k).stop ↔ ¬ k < i + 1 := by
        rw [← p.ofNat_cut_lt_iff hk hi, BitVec.not_lt]
        rfl
      rw [hstop]
      have hzero : (p.mainAt k).beg ≤ (p.piece i).beg := Nat.zero_le _
      constructor
      · intro h
        omega
      · intro h
        exact ⟨hzero, by omega⟩
    rw [List.map_cons, mergePass, absorb]
    simp only [hnext, hfirst, hold, if_false]
    split_ifs with hki hik
    · have hkn : k < p.n := by omega
      rw [← hki, p.mainAt_extend hkn]
      obtain ⟨hrun, hle, hlt⟩ := ih hkn hrest
      rw [hrun]
      exact ⟨rfl, hle, hlt⟩
    · obtain ⟨hrun, hle, hlt⟩ := ih hk hrest
      rw [hrun]
      exact ⟨rfl, hle, hlt⟩
    · obtain ⟨hrun, hle, hlt⟩ := ih hk hrest
      rw [hrun]
      exact ⟨rfl, hle, List.forall_mem_cons.mpr ⟨hi, hlt⟩⟩

theorem mergeFragments_eq {rounds k k' : ℕ} {pending pending' : List ℕ} (hk : k ≤ p.n)
    (hpending : ∀ i ∈ pending, i < p.n) (h : settle rounds k pending = some (k', pending')) :
    mergeFragments rounds (p.mainAt k) (pending.map p.piece) =
        some (p.mainAt k', pending'.map p.piece) ∧ k' ≤ p.n ∧ ∀ i ∈ pending', i < p.n := by
  induction rounds generalizing k pending with
  | zero => cases h
  | succ rounds ih =>
    obtain ⟨hrun, hle, hlt⟩ := p.mergePass_eq hk hpending
    rw [settle] at h
    rw [mergeFragments, hrun]
    simp only at h ⊢
    split_ifs at h ⊢ with hmore
    · exact ih hle hlt h
    · cases h
      exact ⟨rfl, hle, hlt⟩

/-- The buffer in which the first `k` pieces are joined and some are put aside. -/
def bufferAt (s : ℕ × List ℕ) : ReassemblyBuffer := ⟨p.mainAt s.1, s.2.map p.piece⟩

theorem merge_eq {s s' : ℕ × List ℕ} {i : ℕ} (hk : s.1 ≤ p.n) (hpending : ∀ j ∈ s.2, j < p.n)
    (hi : i < p.n) (h : receive s i = some s') :
    (p.bufferAt s).merge (p.piece i).beg (p.piece i).stop (p.piece i).islast =
        some (p.bufferAt s') ∧ s'.1 ≤ p.n ∧ ∀ j ∈ s'.2, j < p.n := by
  obtain ⟨k, pending⟩ := s
  have hnext : (p.mainAt k).stop = (p.piece i).beg ↔ k = i := p.ofNat_cut_inj hk hi.le
  have hfirst : ¬ (p.mainAt k).beg = (p.piece i).stop := p.ofNat_cut_pos hi (Nat.succ_pos i)
  have hbefore : ¬ (p.piece i).stop < (p.mainAt k).beg := Nat.not_lt_zero _
  have hbehind : (p.mainAt k).stop < (p.piece i).beg ↔ k < i := p.ofNat_cut_lt_iff hk hi.le
  rw [receive] at h
  rw [merge, bufferAt]
  simp only [hnext, hfirst, hbefore, hbehind, or_false, if_false] at h ⊢
  split_ifs at h ⊢ with hki hik
  · have hkn : k < p.n := by omega
    obtain ⟨hrun, hle, hlt⟩ := p.mergeFragments_eq hkn hpending h
    rw [← hki, p.mainAt_extend hkn, List.length_map, hrun]
    exact ⟨rfl, hle, hlt⟩
  · cases h
    refine ⟨?_, hk, List.forall_mem_append.mpr ⟨hpending, List.forall_mem_singleton.mpr hi⟩⟩
    rw [bufferAt, List.map_append]
    rfl
  · cases h
    exact ⟨rfl, hk, hpending⟩

theorem add_eq {s s' : ℕ × List ℕ} {i : ℕ} (hk : s.1 ≤ p.n) (hpending : ∀ j ∈ s.2, j < p.n)
    (hi : i < p.n) (h : receive s i = some s') :
    p.add (p.bufferAt s) i = some (p.bufferAt s', decide (s'.1 = p.n)) := by
  rw [add, addFragment, (p.merge_eq hk hpending hi h).1]
  rfl

/-- After any pieces in any order the buffer is that of what has come. -/
theorem received_eq {is : List ℕ} (his : ∀ i ∈ is, i < p.n) :
    ∃ k pending, p.received is = some (p.bufferAt (k, pending)) ∧ Settled is k pending ∧ k ≤ p.n ∧
      ∀ j ∈ pending, j < p.n := by
  induction is using List.reverseRecOn with
  | nil =>
    have hempty : p.bufferAt (0, []) = {} := by
      have hzero : decide (0 = p.n) = false := decide_eq_false p.nonempty.ne
      simp [bufferAt, mainAt, p.zero, hzero]
    exact ⟨0, [], congrArg some hempty.symm, settled_nil, Nat.zero_le _, List.forall_mem_nil _⟩
  | append_singleton is i ih =>
    obtain ⟨his, hi⟩ := List.forall_mem_append.mp his
    have hi := List.forall_mem_singleton.mp hi
    obtain ⟨k, pending, hrun, hsettled, hk, hpending⟩ := ih his
    obtain ⟨k', pending', hreceive, hsettled'⟩ := hsettled.receive i
    obtain ⟨hmerge, hk', hpending'⟩ := p.merge_eq hk hpending hi hreceive
    refine ⟨k', pending', ?_, hsettled', hk', hpending'⟩
    rw [received] at hrun
    rw [received, List.foldlM_append, hrun]
    simp [add, addFragment, hmerge]

/-! ## What the buffer holds -/

theorem exists_piece {k x : ℕ} (hx : x < p.cut k) : ∃ j < k, p.cut j ≤ x ∧ x < p.cut (j + 1) := by
  induction k with
  | zero =>
    rw [p.zero] at hx
    omega
  | succ k ih =>
    by_cases h : x < p.cut k
    · obtain ⟨j, hj, hpiece⟩ := ih h
      exact ⟨j, by omega, hpiece⟩
    · exact ⟨k, by omega, by omega, hx⟩

theorem cut_le {i j : ℕ} (hij : i ≤ j) (hj : j ≤ p.n) : p.cut i ≤ p.cut j := by
  by_cases h : i = j
  · rw [h]
  · exact (p.cut_lt (by omega) hj).le

theorem denotes_bufferAt {is pending : List ℕ} {k : ℕ} (his : ∀ i ∈ is, i < p.n)
    (h : Settled is k pending) (hk : k ≤ p.n) : p.Denotes is (p.bufferAt (k, pending)) := by
  have hmem : ∀ r ∈ (p.bufferAt (k, pending)).fragments, ∃ i ∈ pending, r = p.piece i := by
    intro r hr
    obtain ⟨i, hi, rfl⟩ := List.mem_map.mp hr
    exact ⟨i, hi, rfl⟩
  constructor
  · rfl
  · intro x
    constructor
    · intro ⟨r, hr, hlo, hhi⟩
      cases hr with
      | head =>
        have hx : x < p.cut k := by rwa [bufferAt, mainAt, p.toNat_cut hk] at hhi
        obtain ⟨j, hj, hpiece⟩ := p.exists_piece hx
        exact ⟨j, h.before j hj, hpiece⟩
      | tail _ hr =>
        obtain ⟨i, hi, rfl⟩ := hmem r hr
        have hin := his i (h.mem i hi)
        rw [Datagram.piece] at hlo hhi
        rw [p.toNat_cut hin.le] at hlo
        rw [p.toNat_cut hin] at hhi
        exact ⟨i, h.mem i hi, hlo, hhi⟩
    · intro ⟨i, hi, hlo, hhi⟩
      have hin := his i hi
      cases h.kept i hi with
      | inl hik =>
        refine ⟨p.mainAt k, List.mem_cons_self, Nat.zero_le _, ?_⟩
        rw [mainAt, p.toNat_cut hk]
        exact hhi.trans_le (p.cut_le hik hk)
      | inr hpending =>
        refine ⟨p.piece i, List.mem_cons_of_mem _ (List.mem_map_of_mem hpending), ?_, ?_⟩
        · rwa [Datagram.piece, p.toNat_cut hin.le]
        · rwa [Datagram.piece, p.toNat_cut hin]
  · intro r hr
    obtain ⟨i, hi, hri⟩ := hmem r hr
    exact ⟨i, h.mem i hi, hri⟩
  · intro r hr
    obtain ⟨i, hi, rfl⟩ := hmem r hr
    exact (p.ofNat_cut_lt_iff hk (his i (h.mem i hi)).le).mpr (h.later i hi)

/-- Whatever has come before, adding a piece says that the datagram is complete exactly if every
piece has come by now, its length is then known, and the buffer holds what has come. -/
theorem addFragment_order_insensitive (is : List ℕ) (i : ℕ) (his : ∀ j ∈ is ++ [i], j < p.n) :
    ∃ b b', p.received is = some b ∧
      p.add b i = some (b', decide (∀ j < p.n, j ∈ is ++ [i])) ∧
      ((∀ j < p.n, j ∈ is ++ [i]) → b'.getTotalLength.toNat = p.cut p.n) ∧
      p.Denotes (is ++ [i]) b' := by
  obtain ⟨hbefore, hlast⟩ := List.forall_mem_append.mp his
  have hi := List.forall_mem_singleton.mp hlast
  obtain ⟨k, pending, hrun, hsettled, hk, hpending⟩ := p.received_eq hbefore
  obtain ⟨k', pending', hreceive, hsettled'⟩ := hsettled.receive i
  have hadd := p.add_eq hk hpending hi hreceive
  have hk' := (p.merge_eq hk hpending hi hreceive).2.1
  have hall : (∀ j < p.n, j ∈ is ++ [i]) ↔ k' = p.n := by
    rw [hsettled'.all_iff]
    omega
  refine ⟨p.bufferAt (k, pending), p.bufferAt (k', pending'), hrun, ?_, ?_,
    p.denotes_bufferAt his hsettled' hk'⟩
  · rw [hadd]
    simp only [hall]
  · intro hcomplete
    have hkn := hall.mp hcomplete
    rw [getTotalLength, bufferAt, hkn, mainAt, p.toNat_cut le_rfl]

/-- Three pieces of which the last ones come first, one of them twice. -/
def threePieces : Datagram where
  n := 3
  cut := fun i ↦ 8 * i
  nonempty := by decide
  zero := rfl
  increasing := by
    intro i _
    omega
  bounded := by decide

theorem addFragment_order_insensitive_witness :
    ∃ b b', threePieces.received [2, 1, 2] = some b ∧
      threePieces.add b 0 = some (b', decide (∀ j < 3, j ∈ [2, 1, 2] ++ [0])) ∧
      ((∀ j < 3, j ∈ [2, 1, 2] ++ [0]) → b'.getTotalLength.toNat = 24) ∧
      threePieces.Denotes ([2, 1, 2] ++ [0]) b' :=
  threePieces.addFragment_order_insensitive [2, 1, 2] 0 (by decide)

/-- A piece that comes twice before its turn is put aside twice. -/
theorem not_separate :
    ¬ ∀ (p : Datagram) (is : List ℕ), (∀ i ∈ is, i < p.n) →
      ∃ b, p.received is = some b ∧ p.Denotes is b ∧ Separate b := by
  intro h
  obtain ⟨b, hrun, -, hseparate⟩ := h threePieces [1, 1] (by decide)
  have hb : b = ⟨⟨0, 0, false⟩, [⟨8, 16, false⟩, ⟨8, 16, false⟩]⟩ := by
    apply Option.some.inj
    rw [← hrun]
    decide
  rw [hb, Separate] at hseparate
  revert hseparate
  decide

end Datagram

end InetManet
