import Mathlib.Data.List.Basic
import Mathlib.Tactic.Common

/-!
# Numbered pieces in any order

Pieces with numbers arrive in any order and any number of times. What has arrived without a gap is
counted by the next number that is missing; the rest is pending. When the missing one comes, the
pending ones are walked over until no walk takes any of them.
-/

namespace InetManet.InOrder

/-- One walk over what is pending: what is left of it, and whether anything was taken. -/
def absorb : ℕ → List ℕ → ℕ × List ℕ × Bool
  | k, [] => (k, [], false)
  | k, i :: pending =>
    if k = i then
      let r := absorb (k + 1) pending
      (r.1, r.2.1, true)
    else if i < k then
      let r := absorb k pending
      (r.1, r.2.1, true)
    else
      let r := absorb k pending
      (r.1, i :: r.2.1, r.2.2)

/-- Walks until nothing is taken; `none` is a loop that is still running. -/
def settle : ℕ → ℕ → List ℕ → Option (ℕ × List ℕ)
  | 0, _, _ => none
  | rounds + 1, k, pending =>
    let r := absorb k pending
    if r.2.2 then settle rounds r.1 r.2.1 else some (r.1, r.2.1)

def receive (s : ℕ × List ℕ) (i : ℕ) : Option (ℕ × List ℕ) :=
  if s.1 = i then settle (s.2.length + 1) (s.1 + 1) s.2
  else if s.1 < i then some (s.1, s.2 ++ [i])
  else some s

/-- Nothing that was received is lost, and nothing else is held. -/
structure Holds (received : List ℕ) (k : ℕ) (pending : List ℕ) : Prop where
  before : ∀ j < k, j ∈ received
  mem : ∀ i ∈ pending, i ∈ received
  kept : ∀ i ∈ received, i < k ∨ i ∈ pending

/-- And everything pending is behind the missing one. -/
structure Settled (received : List ℕ) (k : ℕ) (pending : List ℕ) : Prop
    extends Holds received k pending where
  later : ∀ i ∈ pending, k < i

variable {received : List ℕ} {k : ℕ} {pending : List ℕ}

/-- A walk behind those that it has left in their places. -/
theorem Holds.absorb_append {left : List ℕ} (h : Holds received k (left ++ pending)) :
    Holds received (absorb k pending).1 (left ++ (absorb k pending).2.1) := by
  induction pending generalizing k left with
  | nil => exact h
  | cons i pending ih =>
    rw [absorb]
    split_ifs with hnext hold
    · apply ih
      constructor
      · intro j hj
        by_cases hjk : j = k
        · rw [hjk, hnext]
          exact h.mem i (by simp)
        · exact h.before j (by omega)
      · intro j hj
        apply h.mem j
        grind
      · intro j hj
        have hcases := h.kept j hj
        grind
    · apply ih
      constructor
      · exact h.before
      · intro j hj
        apply h.mem j
        grind
      · intro j hj
        have hcases := h.kept j hj
        grind
    · have hmoved : Holds received (absorb k pending).1 (left ++ [i] ++ (absorb k pending).2.1) :=
        ih (by simpa using h)
      simpa using hmoved

theorem Holds.absorb (h : Holds received k pending) :
    Holds received (absorb k pending).1 (absorb k pending).2.1 :=
  @Holds.absorb_append received k pending [] h

theorem length_absorb (k : ℕ) (pending : List ℕ) :
    (absorb k pending).2.1.length ≤ pending.length ∧
      ((absorb k pending).2.2 = true → (absorb k pending).2.1.length < pending.length) := by
  induction pending generalizing k with
  | nil => exact ⟨Nat.le_refl _, nofun⟩
  | cons i pending ih =>
    rw [InOrder.absorb]
    split_ifs with hnext hold
    · have hle := (ih (k + 1)).1
      simp only [List.length_cons]
      omega
    · have hle := (ih k).1
      simp only [List.length_cons]
      omega
    · obtain ⟨hle, hlt⟩ := ih k
      simp only [List.length_cons]
      refine ⟨by omega, fun htaken ↦ ?_⟩
      have hless := hlt htaken
      omega

/-- A walk that takes nothing leaves everything, all of it behind the missing one. -/
theorem absorb_eq_self (h : (InOrder.absorb k pending).2.2 = false) :
    InOrder.absorb k pending = (k, pending, false) ∧ ∀ i ∈ pending, k < i := by
  induction pending with
  | nil => exact ⟨rfl, List.forall_mem_nil _⟩
  | cons i pending ih =>
    rw [InOrder.absorb] at h ⊢
    split_ifs at h ⊢ with hnext hold
    obtain ⟨hself, hlater⟩ := ih h
    rw [hself]
    exact ⟨rfl, List.forall_mem_cons.mpr ⟨by omega, hlater⟩⟩

theorem Holds.settle {rounds : ℕ} (h : Holds received k pending) (hrounds : pending.length < rounds) :
    ∃ k' pending', settle rounds k pending = some (k', pending') ∧ Settled received k' pending' := by
  induction rounds generalizing k pending with
  | zero => omega
  | succ rounds ih =>
    rw [InOrder.settle]
    cases htaken : (InOrder.absorb k pending).2.2 with
    | true =>
      have hless := (length_absorb k pending).2 htaken
      simp only [if_true]
      exact ih h.absorb (by omega)
    | false =>
      obtain ⟨hself, hlater⟩ := absorb_eq_self htaken
      rw [hself]
      exact ⟨k, pending, rfl, h, hlater⟩

theorem Settled.receive (h : Settled received k pending) (i : ℕ) :
    ∃ k' pending', receive (k, pending) i = some (k', pending') ∧
      Settled (received ++ [i]) k' pending' := by
  rw [InOrder.receive]
  simp only
  split_ifs with hnext hlater
  · apply Holds.settle _ (Nat.lt_succ_self _)
    constructor
    · intro j hj
      by_cases hjk : j = k
      · simp [hjk, hnext]
      · exact List.mem_append_left _ (h.before j (by omega))
    · intro j hj
      exact List.mem_append_left _ (h.mem j hj)
    · intro j hj
      cases List.mem_append.mp hj with
      | inl hj =>
        apply (h.kept j hj).imp_left
        omega
      | inr hj =>
        left
        have hji := List.mem_singleton.mp hj
        omega
  · refine ⟨k, pending ++ [i], rfl, ⟨?_, ?_, ?_⟩, ?_⟩
    · intro j hj
      exact List.mem_append_left _ (h.before j hj)
    · intro j hj
      have hmem := h.mem
      grind
    · intro j hj
      have hkept := h.kept
      grind
    · intro j hj
      have hlater' := h.later
      grind
  · refine ⟨k, pending, rfl, ⟨?_, ?_, ?_⟩, h.later⟩
    · intro j hj
      exact List.mem_append_left _ (h.before j hj)
    · intro j hj
      exact List.mem_append_left _ (h.mem j hj)
    · intro j hj
      have hkept := h.kept
      grind

theorem Settled.not_mem (h : Settled received k pending) : k ∉ received := by
  intro hk
  cases h.kept k hk with
  | inl hlt => omega
  | inr hpending => exact absurd (h.later k hpending) (Nat.lt_irrefl k)

/-- All of the first `n` have come exactly if the missing one is not among them. -/
theorem Settled.all_iff (h : Settled received k pending) (n : ℕ) :
    (∀ j < n, j ∈ received) ↔ n ≤ k := by
  constructor
  · intro hall
    by_contra hlt
    exact h.not_mem (hall k (by omega))
  · intro hle j hj
    exact h.before j (by omega)

theorem settled_nil : Settled [] 0 [] :=
  ⟨⟨nofun, List.forall_mem_nil _, List.forall_mem_nil _⟩, List.forall_mem_nil _⟩

end InetManet.InOrder
