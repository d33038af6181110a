import InetManet.Library.ByteOrder

/-!
# One's complement sums

The sum of 16-bit words with the carries added back, by which packets are checked. It depends on the
words in any order and on their byte order only up to multiples of `0xffff`, and a packet with a checksum
is whole if it is `0xffff`.
-/

namespace InetManet.OnesComplement

open ByteOrder

/-- A sum with the carries added back until it fits in 16 bits. -/
def fold (n : ℕ) : ℕ := if n = 0 then 0 else (n - 1) % 65535 + 1

theorem fold_le (n : ℕ) : fold n ≤ 65535 := by
  unfold fold
  split <;> omega

theorem fold_of_lt {n : ℕ} (h : n < 65536) : fold n = n := by
  unfold fold
  split <;> omega

theorem fold_carry (n : ℕ) : fold (n % 65536 + n / 65536) = fold n := by
  unfold fold
  split_ifs <;> omega

theorem fold_add_fold (m n : ℕ) : fold (m + fold n) = fold (m + n) := by
  unfold fold
  split_ifs <;> omega

theorem fold_eq_max_iff (n : ℕ) : fold n = 65535 ↔ n ≠ 0 ∧ n % 65535 = 0 := by
  unfold fold
  split_ifs with hzero
  · simp [hzero]
  · omega

theorem fold_mod (n : ℕ) : fold n % 65535 = n % 65535 := by
  unfold fold
  split_ifs <;> omega

/-! ## Sums of bytes -/

/-- The words of a list of bytes, the first byte of each being the low one. A last single byte is a word
with a zero. -/
def total : List Byte → ℕ
  | [] => 0
  | [a] => a.toNat
  | a :: b :: bs => a.toNat + 256 * b.toNat + total bs

/-- The words of the bytes in network byte order. -/
def networkTotal : List Byte → ℕ
  | [] => 0
  | [a] => 256 * a.toNat
  | a :: b :: bs => 256 * a.toNat + b.toNat + networkTotal bs

/-- The one's complement sum of a packet. -/
def onesSum (bs : List Byte) : ℕ := fold (networkTotal bs)

theorem networkTotal_mod (bs : List Byte) : networkTotal bs % 65535 = 256 * total bs % 65535 := by
  induction bs using total.induct with
  | case1 => rfl
  | case2 a => rfl
  | case3 a b bs ih =>
    rw [networkTotal, total]
    omega

theorem networkTotal_eq_zero_iff (bs : List Byte) : networkTotal bs = 0 ↔ total bs = 0 := by
  induction bs using total.induct with
  | case1 => rfl
  | case2 a =>
    rw [networkTotal, total]
    omega
  | case3 a b bs ih =>
    rw [networkTotal, total]
    omega

theorem onesSum_eq_max_iff (bs : List Byte) : onesSum bs = 65535 ↔ total bs ≠ 0 ∧ total bs % 65535 = 0 := by
  have hmod := networkTotal_mod bs
  rw [onesSum, fold_eq_max_iff, ne_eq, networkTotal_eq_zero_iff]
  omega

theorem total_append {l : List Byte} (r : List Byte) (h : l.length % 2 = 0) :
    total (l ++ r) = total l + total r := by
  induction l using total.induct with
  | case1 => rw [List.nil_append, total, Nat.zero_add]
  | case2 a => cases h
  | case3 a b bs ih =>
    have heven : bs.length % 2 = 0 := by
      rw [List.length_cons, List.length_cons] at h
      omega
    rw [List.cons_append, List.cons_append, total, total, ih heven]
    ring

/-- The word `x` as it stands in memory, the low byte first. -/
def word (x : ℕ) : List Byte := [BitVec.ofNat 8 x, BitVec.ofNat 8 (x / 256)]

theorem total_word {x : ℕ} (h : x ≤ 65535) : total (word x) = x := by
  rw [word, total, total, BitVec.toNat_ofNat, BitVec.toNat_ofNat]
  omega

/-! ## The loops -/

/-- A loop that adds up the words and adds back the carries when bit 31 is set. -/
def sumWords (sum : ℕ) : List Byte → ℕ
  | [] => sum
  | [a] => sum + a.toNat
  | a :: b :: bs =>
    let sum := sum + (a.toNat + 256 * b.toNat)
    sumWords (if sum.testBit 31 then sum % 65536 + sum / 65536 else sum) bs

/-- A loop that adds back the carries until there are none. -/
def foldCarries (sum : ℕ) : ℕ :=
  if sum / 65536 = 0 then sum else foldCarries (sum % 65536 + sum / 65536)
termination_by sum
decreasing_by omega

theorem fold_sumWords (sum : ℕ) (bs : List Byte) : fold (sumWords sum bs) = fold (sum + total bs) := by
  induction bs using total.induct generalizing sum with
  | case1 => rw [sumWords, total, Nat.add_zero]
  | case2 a => rw [sumWords, total]
  | case3 a b bs ih =>
    rw [sumWords, ih, total]
    split
    · rw [Nat.add_comm, ← fold_add_fold, fold_carry, fold_add_fold]
      congr 1
      omega
    · congr 1
      omega

theorem foldCarries_eq (sum : ℕ) : foldCarries sum = fold sum := by
  induction sum using foldCarries.induct with
  | case1 sum h =>
    rw [foldCarries, if_pos h, fold_of_lt (by omega)]
  | case2 sum h ih => rw [foldCarries, if_neg h, ih, fold_carry]

/-- The complement of the folded sum, which is what a packet with a zero for the checksum gets. -/
def checksum (bs : List Byte) : ℕ := 65535 - foldCarries (sumWords 0 bs)

theorem checksum_eq (bs : List Byte) : checksum bs = 65535 - fold (total bs) := by
  rw [checksum, foldCarries_eq, fold_sumWords, Nat.zero_add]

/-- A packet that holds the checksum of `r + c` besides words that sum to `r`, where `c` has been in the
way of the sum, is whole exactly if `c` does not count and not all of it is zero. -/
theorem whole_iff (r c : ℕ) :
    (r + (65535 - fold (r + c)) ≠ 0 ∧ (r + (65535 - fold (r + c))) % 65535 = 0) ↔
      c % 65535 = 0 ∧ (r = 0 → c = 0) := by
  have hle := fold_le (r + c)
  have hmod := fold_mod (r + c)
  have hmax := fold_eq_max_iff (r + c)
  omega

end InetManet.OnesComplement
