import Mathlib.Order.Basic
import Mathlib.Tactic.Common

/-!
# Serving in a circle

Places 0 to `n - 1` lie on a circle. Who is served next comes, seen from the one served last, no later
than anybody who waits; so between two services of one place everybody who kept waiting is served.
-/

namespace InetManet.RoundRobin

variable {n : ℕ}

/-- How many steps it is from `x` forward to `y`; a full turn if they are the same. -/
def ahead (n x y : ℕ) : ℕ := if x < y then y - x else y + n - x

/-- The place after `x`. -/
def next (n x : ℕ) : ℕ := if x + 1 = n then 0 else x + 1

theorem next_eq_mod {x : ℕ} (hx : x < n) : next n x = (x + 1) % n := by
  unfold next
  split_ifs with h
  · rw [h, Nat.mod_self]
  · rw [Nat.mod_eq_of_lt (by omega)]

/-- How many steps it is from `x` forward to `y`; none if they are the same. -/
def steps (n x y : ℕ) : ℕ := if x ≤ y then y - x else y + n - x

theorem next_lt {x : ℕ} (hx : x < n) : next n x < n := by
  unfold next
  grind

theorem steps_self (n x : ℕ) : steps n x x = 0 := by
  unfold steps
  grind

theorem steps_lt {x y : ℕ} (hx : x < n) (hy : y < n) : steps n x y < n := by
  unfold steps
  grind

theorem steps_next {x y : ℕ} (hx : x < n) (hy : y < n) (h : x ≠ y) :
    steps n x y = steps n (next n x) y + 1 := by
  unfold steps next
  grind

theorem steps_inj {x y z : ℕ} (hx : x < n) (hy : y < n) (hz : z < n)
    (h : steps n x y = steps n x z) : y = z := by
  unfold steps at h
  grind

theorem ahead_eq_steps {x y : ℕ} (hx : x < n) (hy : y < n) :
    ahead n x y = steps n (next n x) y + 1 := by
  unfold ahead steps next
  grind

theorem ahead_of_lt {x s y : ℕ} (hx : x < n) (hs : s < n) (hy : y < n)
    (h : ahead n x s < ahead n x y) : ahead n s y = ahead n x y - ahead n x s := by
  unfold ahead at *
  grind

theorem ahead_self (n x : ℕ) : ahead n x x = n := by
  unfold ahead
  grind

theorem ahead_le {x y : ℕ} (hx : x < n) (hy : y < n) : ahead n x y ≤ n := by
  unfold ahead
  grind

theorem ahead_pos {x y : ℕ} (hx : x < n) : 0 < ahead n x y := by
  unfold ahead
  grind

/-- A row of calls: each serves nobody and leaves the position where it was, or moves it to the one
that is served, which for one that is not `b` lies before `b`. -/
structure Serves (n b : ℕ) (pos : ℕ → ℕ) (served : ℕ → Option ℕ) (i j : ℕ) : Prop where
  idle : ∀ k, i < k → k ≤ j → served k = none → pos (k + 1) = pos k
  moves : ∀ k, i ≤ k → k ≤ j → ∀ s, served k = some s → s < n ∧ pos (k + 1) = s
  before : ∀ k, i < k → k ≤ j → ∀ s, served k = some s → s ≠ b → pos k < n →
    ahead n (pos k) s < ahead n (pos k) b

/-- Nobody is served twice while another waits all the time and is not served in between. -/
theorem Serves.fair {a b i j : ℕ} {pos : ℕ → ℕ} {served : ℕ → Option ℕ}
    (h : Serves n b pos served i j) (hb : b < n) (hab : a ≠ b) (hij : i < j)
    (hi : served i = some a) (hj : served j = some a) :
    ∃ k, i < k ∧ k < j ∧ served k = some b := by
  by_contra hnone
  obtain ⟨ha, hposi⟩ := h.moves i (Nat.le_refl i) (Nat.le_of_lt hij) a hi
  -- as long as `b` is not served the position goes on from `a` and does not pass `b`
  have hway : ∀ m, i + 1 + m ≤ j →
      pos (i + 1 + m) < n ∧ ahead n (pos (i + 1 + m)) b ≤ ahead n a b := by
    intro m
    induction m with
    | zero =>
      intro _
      rw [Nat.add_zero, hposi]
      exact ⟨ha, Nat.le_refl _⟩
    | succ m ih =>
      intro hm
      obtain ⟨hpos, hle⟩ := ih (by omega)
      have hstep : i + 1 + (m + 1) = i + 1 + m + 1 := by omega
      rw [hstep]
      cases hserved : served (i + 1 + m) with
      | none =>
        rw [h.idle _ (by omega) (by omega) hserved]
        exact ⟨hpos, hle⟩
      | some s =>
        obtain ⟨hs, hmoved⟩ := h.moves _ (by omega) (by omega) s hserved
        have hsb : s ≠ b := by
          intro hsb
          exact hnone ⟨i + 1 + m, by omega, by omega, by rw [hserved, hsb]⟩
        have hbefore := h.before _ (by omega) (by omega) s hserved hsb hpos
        rw [hmoved, ahead_of_lt hpos hs hb hbefore]
        exact ⟨hs, Nat.le_trans (Nat.sub_le _ _) hle⟩
  obtain ⟨m, hm⟩ : ∃ m, j = i + 1 + m := ⟨j - (i + 1), by omega⟩
  obtain ⟨hpos, hle⟩ := hway m (Nat.le_of_eq hm.symm)
  rw [← hm] at hpos hle
  have hbefore := h.before j hij (Nat.le_refl j) a hj hab hpos
  have hrest := ahead_of_lt hpos ha hb hbefore
  have hsome : 0 < ahead n (pos j) a := ahead_pos hpos
  omega

end InetManet.RoundRobin
