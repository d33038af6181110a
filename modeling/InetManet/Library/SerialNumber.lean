import Mathlib.Data.BitVec
import Mathlib.Tactic.Ring
import Mathlib.Tactic.Linarith

/-!
# Serial numbers

A serial number is a counter kept modulo `2 ^ w`. Protocols compare two of them by the sign of
their difference, which is meaningful only while the counters are less than half of the number
space apart. This module relates the modular comparisons to the order of unbounded positions:
`BitVec.ofNat w` maps a position to its serial number, and inside a half-space window every
comparison of serial numbers is the comparison of the positions behind them.

Two spellings occur in practice. `le` and `lt` test whether a difference lies in the lower half of
the space; `signedLt` and `signedLe` read the difference as a signed integer. They disagree only
at a distance of exactly half of the space.
-/

namespace InetManet.SerialNumber

variable {w : ℕ}

/-- `a` does not come after `b`: the forward distance from `a` to `b` is below half of the space. -/
def le (a b : BitVec w) : Bool := decide ((b - a).toNat < 2 ^ (w - 1))

/-- `a` comes strictly before `b`. -/
def lt (a b : BitVec w) : Bool := a != b && le a b

/-- `a` comes strictly before `b`, by the sign of the two's complement difference. -/
def signedLt (a b : BitVec w) : Bool := decide ((a - b).toInt < 0)

/-- `a` does not come after `b`, by the sign of the two's complement difference. -/
def signedLe (a b : BitVec w) : Bool := decide ((a - b).toInt ≤ 0)

/-- Going forward from position `a` to position `b` is adding their distance. -/
theorem ofNat_sub_ofNat {a b : ℕ} (h : a ≤ b) :
    BitVec.ofNat w b - BitVec.ofNat w a = BitVec.ofNat w (b - a) := by
  have hb : BitVec.ofNat w b = BitVec.ofNat w (b - a) + BitVec.ofNat w a := by
    rw [← BitVec.ofNat_add, Nat.sub_add_cancel h]
  rw [hb, BitVec.add_sub_cancel]

theorem toNat_ofNat_sub_ofNat {a b : ℕ} (h : a ≤ b) (hd : b - a < 2 ^ w) :
    (BitVec.ofNat w b - BitVec.ofNat w a).toNat = b - a := by
  rw [ofNat_sub_ofNat h, BitVec.toNat_ofNat, Nat.mod_eq_of_lt hd]

/-- Going backwards wraps around: the distance is the complement of the forward one. -/
theorem toNat_ofNat_sub_ofNat_of_lt {a b : ℕ} (h : b < a) (hd : a - b < 2 ^ w) :
    (BitVec.ofNat w b - BitVec.ofNat w a).toNat = 2 ^ w - (a - b) := by
  have hneg : BitVec.ofNat w b - BitVec.ofNat w a = -(BitVec.ofNat w (a - b)) := by
    rw [← ofNat_sub_ofNat h.le, BitVec.neg_sub, BitVec.add_comm, BitVec.sub_eq_add_neg]
  rw [hneg, BitVec.toNat_neg, BitVec.toNat_ofNat, Nat.mod_eq_of_lt hd, Nat.mod_eq_of_lt (by omega)]

/-- Distinct positions less than the whole space apart have distinct serial numbers. -/
theorem ofNat_inj {a b : ℕ} (h₁ : a < b + 2 ^ w) (h₂ : b < a + 2 ^ w) :
    BitVec.ofNat w a = BitVec.ofNat w b ↔ a = b := by
  refine ⟨fun h ↦ ?_, fun h ↦ h ▸ rfl⟩
  rcases Nat.le_total a b with hab | hab
  · have hzero := toNat_ofNat_sub_ofNat (w := w) hab (by omega)
    rw [h, BitVec.sub_self] at hzero
    simp at hzero
    omega
  · have hzero := toNat_ofNat_sub_ofNat (w := w) hab (by omega)
    rw [h, BitVec.sub_self] at hzero
    simp at hzero
    omega

theorem two_pow_eq (hw : 0 < w) : 2 ^ w = 2 ^ (w - 1) + 2 ^ (w - 1) := by
  obtain ⟨n, rfl⟩ := Nat.exists_eq_add_of_lt hw
  simp [pow_succ]
  ring

theorem ofNat_add_one (a : ℕ) : BitVec.ofNat w a + 1 = BitVec.ofNat w (a + 1) :=
  (BitVec.ofNat_add a 1).symm

theorem eq_ofNat_add (x : BitVec w) (u : ℕ) :
    x = BitVec.ofNat w (u + (x - BitVec.ofNat w u).toNat) := by
  rw [BitVec.ofNat_add, BitVec.ofNat_toNat, BitVec.setWidth_eq, BitVec.add_comm,
    BitVec.sub_add_cancel]

/-- Inside a half-space window the modular comparison is the order of the positions. -/
theorem le_ofNat (hw : 0 < w) {a b : ℕ} (h₁ : a ≤ b + 2 ^ (w - 1)) (h₂ : b < a + 2 ^ (w - 1)) :
    le (BitVec.ofNat w a) (BitVec.ofNat w b) = decide (a ≤ b) := by
  have hspace := two_pow_eq hw
  have hpos : 0 < 2 ^ (w - 1) := by positivity
  unfold le
  rcases Nat.lt_or_ge b a with hab | hab
  · rw [toNat_ofNat_sub_ofNat_of_lt hab (by omega)]
    simp only [decide_eq_decide]
    omega
  · rw [toNat_ofNat_sub_ofNat hab (by omega)]
    simp only [decide_eq_decide]
    omega

theorem lt_ofNat (hw : 0 < w) {a b : ℕ} (h₁ : a ≤ b + 2 ^ (w - 1)) (h₂ : b < a + 2 ^ (w - 1)) :
    lt (BitVec.ofNat w a) (BitVec.ofNat w b) = decide (a < b) := by
  have hspace := two_pow_eq hw
  have hpos : 0 < 2 ^ (w - 1) := by positivity
  have hne : (BitVec.ofNat w a != BitVec.ofNat w b) = decide (a ≠ b) := by
    rw [Bool.eq_iff_iff]
    simp [ofNat_inj (w := w) (a := a) (b := b) (by omega) (by omega)]
  rw [lt, le_ofNat hw h₁ h₂, hne, ← Bool.decide_and, decide_eq_decide]
  omega

theorem toInt_ofNat_sub_ofNat (hw : 0 < w) {a b : ℕ}
    (h₁ : a < b + 2 ^ (w - 1)) (h₂ : b ≤ a + 2 ^ (w - 1)) :
    (BitVec.ofNat w a - BitVec.ofNat w b).toInt = (a : ℤ) - b := by
  have hspace := two_pow_eq hw
  have hpos : 0 < 2 ^ (w - 1) := by positivity
  rw [BitVec.toInt_eq_toNat_cond]
  rcases Nat.lt_or_ge a b with hab | hab
  · rw [toNat_ofNat_sub_ofNat_of_lt hab (by omega), if_neg (by omega)]
    push_cast [Nat.cast_sub (show b - a ≤ 2 ^ w by omega), Nat.cast_sub hab.le]
    ring
  · rw [toNat_ofNat_sub_ofNat hab (by omega), if_pos (by omega)]
    push_cast [Nat.cast_sub hab]
    ring

theorem signedLe_ofNat (hw : 0 < w) {a b : ℕ}
    (h₁ : a < b + 2 ^ (w - 1)) (h₂ : b ≤ a + 2 ^ (w - 1)) :
    signedLe (BitVec.ofNat w a) (BitVec.ofNat w b) = decide (a ≤ b) := by
  rw [signedLe, toInt_ofNat_sub_ofNat hw h₁ h₂, decide_eq_decide]
  omega

end InetManet.SerialNumber
