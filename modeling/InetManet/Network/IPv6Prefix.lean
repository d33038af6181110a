import InetManet.Network.RoutingTable6
import Mathlib.Data.Fin.VecNotation
import Mathlib.Algebra.Order.Ring.Int
import Mathlib.Tactic.SplitIfs

/-!
# Prefixes of IPv6 addresses

An address is kept in four 32-bit words, the first of which holds the most significant bits. The mask
of a prefix length is made word by word; a shift by 32 or more has no value.
-/

namespace InetManet

/-- The four words of an address or of a mask. -/
abbrev IPv6Words := Fin 4 → BitVec 32

namespace IPv6Words

inductive Fault
  | assertionFailed
  | shiftTooFar
  deriving DecidableEq

/-- `x << num_of_shifts` on 32 bits. -/
def shiftLeft (x : BitVec 32) (num_of_shifts : ℤ) : Except Fault (BitVec 32) :=
  if 0 ≤ num_of_shifts ∧ num_of_shifts < 32 then .ok (x <<< num_of_shifts.toNat)
  else .error .shiftTooFar

def constructMask (prefixLength : ℤ) : Except Fault IPv6Words :=
  if ¬ (0 ≤ prefixLength ∧ prefixLength ≤ 128) then .error .assertionFailed
  else if prefixLength = 0 then .ok ![0, 0, 0, 0]
  else if prefixLength ≤ 32 then do
    let mask0 ← shiftLeft 0xFFFFFFFF#32 (32 - prefixLength)
    return ![mask0, 0, 0, 0]
  else if prefixLength ≤ 64 then do
    let mask1 ← shiftLeft 0xFFFFFFFF#32 (64 - prefixLength)
    return ![0xFFFFFFFF#32, mask1, 0, 0]
  else if prefixLength ≤ 96 then do
    let mask2 ← shiftLeft 0xFFFFFFFF#32 (96 - prefixLength)
    return ![0xFFFFFFFF#32, 0xFFFFFFFF#32, mask2, 0]
  else do
    let mask3 ← shiftLeft 0xFFFFFFFF#32 (128 - prefixLength)
    return ![0xFFFFFFFF#32, 0xFFFFFFFF#32, 0xFFFFFFFF#32, mask3]

def getPrefix (d : IPv6Words) (prefixLength : ℤ) : Except Fault IPv6Words := do
  let mask ← constructMask prefixLength
  return ![d 0 &&& mask 0, d 1 &&& mask 1, d 2 &&& mask 2, d 3 &&& mask 3]

def getSuffix (d : IPv6Words) (prefixLength : ℤ) : Except Fault IPv6Words := do
  let mask ← constructMask prefixLength
  return ![d 0 &&& ~~~mask 0, d 1 &&& ~~~mask 1, d 2 &&& ~~~mask 2, d 3 &&& ~~~mask 3]

/-- The 16-bit units of the address. -/
def octalsOf (d : IPv6Words) : List (BitVec 32) :=
  [d 0 >>> 16, d 0 &&& 0xffff, d 1 >>> 16, d 1 &&& 0xffff,
    d 2 >>> 16, d 2 &&& 0xffff, d 3 >>> 16, d 3 &&& 0xffff]

/-- The address after the call. -/
def setPrefix (d fromAddr : IPv6Words) (prefixLength : ℤ) : Except Fault IPv6Words := do
  let mask ← constructMask prefixLength
  return ![(d 0 &&& ~~~mask 0) ||| (fromAddr 0 &&& mask 0),
    (d 1 &&& ~~~mask 1) ||| (fromAddr 1 &&& mask 1),
    (d 2 &&& ~~~mask 2) ||| (fromAddr 2 &&& mask 2),
    (d 3 &&& ~~~mask 3) ||| (fromAddr 3 &&& mask 3)]

/-- The address after the call. -/
def setSuffix (d fromAddr : IPv6Words) (prefixLength : ℤ) : Except Fault IPv6Words := do
  let mask ← constructMask prefixLength
  return ![(d 0 &&& mask 0) ||| (fromAddr 0 &&& ~~~mask 0),
    (d 1 &&& mask 1) ||| (fromAddr 1 &&& ~~~mask 1),
    (d 2 &&& mask 2) ||| (fromAddr 2 &&& ~~~mask 2),
    (d 3 &&& mask 3) ||| (fromAddr 3 &&& ~~~mask 3)]

/-- `matches`. -/
def matchesPrefix (d pfx : IPv6Words) (prefixLength : ℤ) : Except Fault Bool := do
  let mask ← constructMask prefixLength
  return ((d 0 ^^^ pfx 0) &&& mask 0) ||| ((d 1 ^^^ pfx 1) &&& mask 1) |||
    ((d 2 ^^^ pfx 2) &&& mask 2) ||| ((d 3 ^^^ pfx 3) &&& mask 3) == 0

/-! ## The mask of a length -/

/-- Word `k` of the mask of length `n`; a shift by the whole width leaves nothing. -/
def prefixMask (n : ℕ) : IPv6Words := fun k ↦ BitVec.allOnes 32 <<< (32 - (n - 32 * k.val))

theorem shiftLeft_ok {x : BitVec 32} {s : ℕ} (hs : s < 32) : shiftLeft x s = .ok (x <<< s) := by
  have hin : 0 ≤ (s : ℤ) ∧ (s : ℤ) < 32 := by omega
  rw [shiftLeft, if_pos hin, Int.toNat_natCast]

/-- A word that ends before the length is full, one that starts behind it is empty. -/
theorem prefixMask_full {n : ℕ} {k : Fin 4} (h : 32 * k.val + 32 ≤ n) :
    prefixMask n k = 0xFFFFFFFF#32 := by
  have hs : 32 - (n - 32 * k.val) = 0 := by omega
  rw [prefixMask, hs]
  rfl

theorem prefixMask_empty {n : ℕ} {k : Fin 4} (h : n ≤ 32 * k.val) : prefixMask n k = 0 := by
  have hs : 32 - (n - 32 * k.val) = 32 := by omega
  rw [prefixMask, hs]
  rfl

/-- The word in which the prefix ends is shifted by what is left of it. -/
theorem shiftLeft_prefixMask {n e : ℕ} {k : Fin 4} (he : e = 32 * k.val + 32) (hlo : n ≤ e)
    (hhi : e < n + 32) :
    shiftLeft 0xFFFFFFFF#32 ((e : ℤ) - n) = .ok (prefixMask n k) := by
  have hs : 32 - (n - 32 * k.val) = e - n := by omega
  rw [← Nat.cast_sub hlo, shiftLeft_ok (by omega), prefixMask, hs]
  rfl

theorem words_ext {f g : IPv6Words} (h0 : f 0 = g 0) (h1 : f 1 = g 1) (h2 : f 2 = g 2)
    (h3 : f 3 = g 3) : f = g := by
  funext k
  match k with
  | 0 => exact h0
  | 1 => exact h1
  | 2 => exact h2
  | 3 => exact h3

/-- Every length from 0 to 128 has a mask, and no shift goes too far. -/
theorem constructMask_eq {n : ℕ} (hn : n ≤ 128) : constructMask n = .ok (prefixMask n) := by
  have hrange : ¬ ¬ (0 ≤ (n : ℤ) ∧ (n : ℤ) ≤ 128) := by omega
  have hfull : ∀ k : Fin 4, 32 * k.val + 32 ≤ n → 0xFFFFFFFF#32 = prefixMask n k :=
    fun k h ↦ (prefixMask_full h).symm
  have hempty : ∀ k : Fin 4, n ≤ 32 * k.val → 0 = prefixMask n k :=
    fun k h ↦ (prefixMask_empty h).symm
  rw [constructMask, if_neg hrange]
  split_ifs with h0 h32 h64 h96
  · apply congrArg Except.ok
    apply words_ext
    all_goals exact hempty _ (by omega)
  · have hshift := shiftLeft_prefixMask (n := n) (e := 32) (k := 0) rfl (by omega) (by omega)
    rw [show (32 : ℤ) = ((32 : ℕ) : ℤ) from rfl, hshift]
    apply congrArg Except.ok
    apply words_ext
    · rfl
    · exact hempty 1 (by grind)
    · exact hempty 2 (by grind)
    · exact hempty 3 (by grind)
  · have hshift := shiftLeft_prefixMask (n := n) (e := 64) (k := 1) rfl (by omega) (by omega)
    rw [show (64 : ℤ) = ((64 : ℕ) : ℤ) from rfl, hshift]
    apply congrArg Except.ok
    apply words_ext
    · exact hfull 0 (by grind)
    · rfl
    · exact hempty 2 (by grind)
    · exact hempty 3 (by grind)
  · have hshift := shiftLeft_prefixMask (n := n) (e := 96) (k := 2) rfl (by omega) (by omega)
    rw [show (96 : ℤ) = ((96 : ℕ) : ℤ) from rfl, hshift]
    apply congrArg Except.ok
    apply words_ext
    · exact hfull 0 (by grind)
    · exact hfull 1 (by grind)
    · rfl
    · exact hempty 3 (by grind)
  · have hshift := shiftLeft_prefixMask (n := n) (e := 128) (k := 3) rfl (by omega) (by omega)
    rw [show (128 : ℤ) = ((128 : ℕ) : ℤ) from rfl, hshift]
    apply congrArg Except.ok
    apply words_ext
    · exact hfull 0 (by grind)
    · exact hfull 1 (by grind)
    · exact hfull 2 (by grind)
    · rfl

/-- Counted from the most significant one, the first `n` bits of the four words are set. -/
theorem getMsbD_prefixMask (n : ℕ) (k : Fin 4) {j : ℕ} (hj : j < 32) :
    (prefixMask n k).getMsbD j = decide (32 * k.val + j < n) := by
  rw [prefixMask, BitVec.getMsbD_shiftLeft, BitVec.getMsbD_allOnes, decide_eq_decide]
  omega

/-- Two masks have in common the mask of the smaller length. -/
theorem prefixMask_and (n m : ℕ) (k : Fin 4) :
    prefixMask n k &&& prefixMask m k = prefixMask (min n m) k := by
  apply BitVec.eq_of_getMsbD_eq
  intro j hj
  rw [BitVec.getMsbD_and, getMsbD_prefixMask n k hj, getMsbD_prefixMask m k hj,
    getMsbD_prefixMask _ k hj]
  grind

theorem prefixMask_or (n m : ℕ) (k : Fin 4) :
    prefixMask n k ||| prefixMask m k = prefixMask (max n m) k := by
  apply BitVec.eq_of_getMsbD_eq
  intro j hj
  rw [BitVec.getMsbD_or, getMsbD_prefixMask n k hj, getMsbD_prefixMask m k hj,
    getMsbD_prefixMask _ k hj]
  grind

/-! ## Words under a mask -/

section Mask

variable (x y mask : BitVec 32)

theorem and_or_and_not : (x &&& mask) ||| (x &&& ~~~mask) = x := by
  ext i hi
  cases h : mask[i] <;> simp [h]

theorem and_and_and_not : (x &&& mask) &&& (x &&& ~~~mask) = 0 := by
  ext i hi
  cases h : mask[i] <;> simp [h]

/-- What was put under the mask is found there, and the rest is as it was. -/
theorem replaced_and : ((x &&& ~~~mask) ||| (y &&& mask)) &&& mask = y &&& mask := by
  ext i hi
  cases h : mask[i] <;> simp [h]

theorem replaced_and_not : ((x &&& ~~~mask) ||| (y &&& mask)) &&& ~~~mask = x &&& ~~~mask := by
  ext i hi
  cases h : mask[i] <;> simp [h]

end Mask

/-- The difference of two words has no bit under the mask exactly if they agree under it. -/
theorem xor_and_eq_zero_iff {w : ℕ} (x y mask : BitVec w) :
    (x ^^^ y) &&& mask = 0 ↔ x &&& mask = y &&& mask := by
  have hdistrib : (x ^^^ y) &&& mask = (x &&& mask) ^^^ (y &&& mask) := by
    ext i hi
    simp [Bool.and_xor_distrib_right]
  rw [hdistrib]
  exact BitVec.xor_eq_zero_iff

/-! ## The five functions, word by word -/

section Words

variable (a b : IPv6Words) {n : ℕ}

theorem getPrefix_eq (hn : n ≤ 128) :
    getPrefix a n = .ok fun k ↦ a k &&& prefixMask n k := by
  rw [getPrefix, constructMask_eq hn]
  apply congrArg Except.ok
  apply words_ext <;> rfl

theorem getSuffix_eq (hn : n ≤ 128) :
    getSuffix a n = .ok fun k ↦ a k &&& ~~~prefixMask n k := by
  rw [getSuffix, constructMask_eq hn]
  apply congrArg Except.ok
  apply words_ext <;> rfl

theorem setPrefix_eq (hn : n ≤ 128) :
    setPrefix a b n = .ok fun k ↦ (a k &&& ~~~prefixMask n k) ||| (b k &&& prefixMask n k) := by
  rw [setPrefix, constructMask_eq hn]
  apply congrArg Except.ok
  apply words_ext <;> rfl

theorem setSuffix_eq (hn : n ≤ 128) :
    setSuffix a b n = .ok fun k ↦ (a k &&& prefixMask n k) ||| (b k &&& ~~~prefixMask n k) := by
  rw [setSuffix, constructMask_eq hn]
  apply congrArg Except.ok
  apply words_ext <;> rfl

theorem matchesPrefix_eq (hn : n ≤ 128) :
    matchesPrefix a b n =
      .ok (decide ((fun k ↦ a k &&& prefixMask n k) = fun k ↦ b k &&& prefixMask n k)) := by
  rw [matchesPrefix, constructMask_eq hn]
  apply congrArg Except.ok
  rw [Bool.eq_iff_iff, beq_iff_eq, decide_eq_true_iff, funext_iff]
  change _ = 0#32 ↔ _
  simp only [BitVec.or_eq_zero_iff]
  calc _ ↔ ∀ k : Fin 4, (a k ^^^ b k) &&& prefixMask n k = 0 := by
        simp [Fin.forall_fin_succ, and_assoc]
    _ ↔ ∀ k, a k &&& prefixMask n k = b k &&& prefixMask n k :=
        forall_congr' fun k ↦ xor_and_eq_zero_iff (a k) (b k) (prefixMask n k)

end Words

/-! ## The algebra -/

/-- What the functions promise each other for one length of prefix. -/
structure PrefixAlgebra (a b : IPv6Words) (n : ℤ) : Prop where
  /-- Prefix and suffix share no bit and make up the address. -/
  split : ∃ p s, getPrefix a n = .ok p ∧ getSuffix a n = .ok s ∧
    (∀ k, p k ||| s k = a k) ∧ ∀ k, p k &&& s k = 0
  matches_iff : ∃ p q, getPrefix a n = .ok p ∧ getPrefix b n = .ok q ∧
    matchesPrefix a b n = .ok (decide (p = q))
  setPrefix_parts : ∃ c, setPrefix a b n = .ok c ∧ getPrefix c n = getPrefix b n ∧
    getSuffix c n = getSuffix a n
  setSuffix_parts : ∃ c, setSuffix a b n = .ok c ∧ getSuffix c n = getSuffix b n ∧
    getPrefix c n = getPrefix a n
  /-- The mask has the first `n` of the 128 bits. -/
  mask_bits : ∃ mask, constructMask n = .ok mask ∧
    ∀ (k : Fin 4) (j : ℕ), j < 32 → (mask k).getMsbD j = decide (32 * (k.val : ℤ) + j < n)
  mask_min_max : ∀ m : ℤ, 0 ≤ m → m ≤ 128 → ∃ mask mask',
    constructMask n = .ok mask ∧ constructMask m = .ok mask' ∧
    constructMask (min n m) = .ok (fun k ↦ mask k &&& mask' k) ∧
    constructMask (max n m) = .ok fun k ↦ mask k ||| mask' k
  prefix_prefix : ∀ m : ℤ, 0 ≤ m → m ≤ 128 →
    (getPrefix a n >>= fun p ↦ getPrefix p m) = getPrefix a (min n m)

theorem setPrefix_parts (a b : IPv6Words) {n : ℕ} (hn : n ≤ 128) :
    ∃ c, setPrefix a b n = .ok c ∧ getPrefix c n = getPrefix b n ∧
      getSuffix c n = getSuffix a n := by
  refine ⟨_, setPrefix_eq a b hn, ?_⟩
  rw [getPrefix_eq _ hn, getPrefix_eq b hn, getSuffix_eq _ hn, getSuffix_eq a hn]
  constructor
  · apply congrArg Except.ok
    funext k
    exact replaced_and (a k) (b k) (prefixMask n k)
  · apply congrArg Except.ok
    funext k
    exact replaced_and_not (a k) (b k) (prefixMask n k)

theorem setSuffix_parts (a b : IPv6Words) {n : ℕ} (hn : n ≤ 128) :
    ∃ c, setSuffix a b n = .ok c ∧ getSuffix c n = getSuffix b n ∧
      getPrefix c n = getPrefix a n := by
  refine ⟨_, setSuffix_eq a b hn, ?_⟩
  rw [getPrefix_eq _ hn, getPrefix_eq a hn, getSuffix_eq _ hn, getSuffix_eq b hn]
  constructor
  · apply congrArg Except.ok
    funext k
    simpa using replaced_and (a k) (b k) (~~~prefixMask n k)
  · apply congrArg Except.ok
    funext k
    simpa using replaced_and_not (a k) (b k) (~~~prefixMask n k)

/-- The shorter mask is what two masks share, the longer one what either has. -/
theorem constructMask_min_max {n m : ℕ} (hn : n ≤ 128) (hm : m ≤ 128) :
    constructMask (min n m : ℕ) = .ok (fun k ↦ prefixMask n k &&& prefixMask m k) ∧
    constructMask (max n m : ℕ) = .ok fun k ↦ prefixMask n k ||| prefixMask m k := by
  constructor
  · rw [constructMask_eq (by omega)]
    apply congrArg Except.ok
    funext k
    exact (prefixMask_and n m k).symm
  · rw [constructMask_eq (by omega)]
    apply congrArg Except.ok
    funext k
    exact (prefixMask_or n m k).symm

theorem getPrefix_getPrefix (a : IPv6Words) {n m : ℕ} (hn : n ≤ 128) (hm : m ≤ 128) :
    (getPrefix a n >>= fun p ↦ getPrefix p m) = getPrefix a (min n m : ℕ) := by
  have hmin : min n m ≤ 128 := by omega
  rw [getPrefix_eq a hn, getPrefix_eq a hmin]
  calc (Except.ok (fun k ↦ a k &&& prefixMask n k) >>= fun p ↦ getPrefix p m)
      = getPrefix (fun k ↦ a k &&& prefixMask n k) m := rfl
    _ = .ok fun k ↦ (a k &&& prefixMask n k) &&& prefixMask m k := getPrefix_eq _ hm
    _ = .ok fun k ↦ a k &&& prefixMask (min n m) k := by
      apply congrArg Except.ok
      funext k
      rw [BitVec.and_assoc, prefixMask_and]

theorem prefixAlgebra (a b : IPv6Words) (n : ℤ) (hlo : 0 ≤ n) (hhi : n ≤ 128) :
    PrefixAlgebra a b n := by
  lift n to ℕ using hlo
  have hn : n ≤ 128 := by omega
  constructor
  · refine ⟨_, _, getPrefix_eq a hn, getSuffix_eq a hn, ?_⟩
    constructor
    · intro k
      exact and_or_and_not (a k) (prefixMask n k)
    · intro k
      exact and_and_and_not (a k) (prefixMask n k)
  · exact ⟨_, _, getPrefix_eq a hn, getPrefix_eq b hn, matchesPrefix_eq a b hn⟩
  · exact setPrefix_parts a b hn
  · exact setSuffix_parts a b hn
  · refine ⟨_, constructMask_eq hn, ?_⟩
    intro k j hj
    rw [getMsbD_prefixMask n k hj, decide_eq_decide]
    omega
  · intro m hlo' hhi'
    lift m to ℕ using hlo'
    have hm : m ≤ 128 := by omega
    refine ⟨_, _, constructMask_eq hn, constructMask_eq hm, ?_⟩
    rw [← Nat.cast_min, ← Nat.cast_max]
    exact constructMask_min_max hn hm
  · intro m hlo' hhi'
    lift m to ℕ using hlo'
    have hm : m ≤ 128 := by omega
    rw [← Nat.cast_min]
    exact getPrefix_getPrefix a hn hm

theorem prefixAlgebra_witness :
    PrefixAlgebra ![0xFE800000#32, 1#32, 0xABCD0000#32, 7#32] ![0, 0, 0, 0] 65 :=
  prefixAlgebra ![0xFE800000#32, 1#32, 0xABCD0000#32, 7#32] ![0, 0, 0, 0] 65 (by decide) (by decide)

end IPv6Words

end InetManet
