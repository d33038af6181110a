import Mathlib.Data.List.Basic
import Mathlib.Data.List.Infix

/-!
# Lists in which equal elements stand together

`Together l` says that between two equal elements of `l` there is no other one. It is kept when the
first element is dropped or repeated, and when an element is appended that is new or the last one.
-/

namespace InetManet.Contiguous

variable {α : Type}

/-- Equal elements stand next to each other. -/
def Together : List α → Prop
  | [] => True
  | x :: l => Together l ∧ (x ∈ l → l.head? = some x)

variable {x y : α} {l : List α}

theorem Together.tail (h : Together (x :: l)) : Together l := h.1

theorem Together.repeat_head (h : Together (x :: l)) (n : ℕ) :
    Together (List.replicate n x ++ l) := by
  induction n with
  | zero => exact h.tail
  | succ n ih =>
    rw [List.replicate_succ, List.cons_append]
    refine ⟨ih, fun hmem ↦ ?_⟩
    cases n with
    | zero => exact h.2 hmem
    | succ n => rfl

theorem Together.append (h : Together l) (hx : x ∈ l → l.getLast? = some x) :
    Together (l ++ [x]) := by
  induction l with
  | nil => exact ⟨trivial, nofun⟩
  | cons y l ih =>
    have hlast : x ∈ l → l.getLast? = some x := by
      intro hmem
      have hall := hx (List.mem_cons_of_mem _ hmem)
      cases l with
      | nil => cases hmem
      | cons z l => rwa [List.getLast?_cons_cons] at hall
    refine ⟨ih h.1 hlast, fun hmem ↦ ?_⟩
    cases l with
    | nil =>
      obtain rfl : y = x := List.mem_singleton.mp hmem
      rfl
    | cons z l =>
      rcases List.mem_append.mp hmem with hin | hin
      · exact h.2 hin
      · -- `y` is appended again, so it is the last element, and all between are equal to it
        rw [List.mem_singleton] at hin
        subst hin
        have hall := hx (by simp)
        rw [List.getLast?_cons_cons] at hall
        exact h.2 (List.mem_of_getLast? hall)

/-- Between two occurrences of `x` there is nothing else. -/
theorem Together.between (h : Together l) {i j k : ℕ} (hij : i ≤ j) (hjk : j ≤ k)
    (hi : l[i]? = some x) (hk : l[k]? = some x) : l[j]? = some x := by
  induction l generalizing i j k with
  | nil => cases hi
  | cons y l ih =>
    cases j with
    | zero =>
      obtain rfl : i = 0 := by omega
      exact hi
    | succ j =>
      cases k with
      | zero => omega
      | succ k =>
        rw [List.getElem?_cons_succ] at hk ⊢
        cases i with
        | succ i =>
          rw [List.getElem?_cons_succ] at hi
          exact ih h.1 (by omega) (by omega) hi hk
        | zero =>
          rw [List.getElem?_cons_zero] at hi
          cases hi
          have hhead := h.2 (List.mem_of_getElem? hk)
          rw [List.head?_eq_getElem?] at hhead
          exact ih h.1 (Nat.zero_le j) (by omega) hhead hk

end InetManet.Contiguous
