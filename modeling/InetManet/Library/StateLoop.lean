import InetManet.Library.TransitionSystem

/-!
# Loops over a state

A turn of the loop fails, changes the state or leaves the loop with a result. `Outcome` is exact for a
computation that is followed by another (`outcome_bind_iff`), and a loop whose turns make some measure
smaller has an outcome exactly if each turn that it comes to has it (`outcome_loop_iff`).
-/

namespace InetManet.TransitionSystem

variable {σ α β φ : Type} {Q : α → Prop} {E : φ → Prop}

/-! ## Exact outcomes -/

theorem outcome_bind_iff {x : Except φ β} {f : β → Except φ α} :
    Outcome (x >>= f) Q E ↔ Outcome x (fun b ↦ Outcome (f b) Q E) E := by
  cases x with
  | error e => exact Iff.rfl
  | ok b => exact Iff.rfl

theorem outcome_congr {x : Except φ α} {Q' : α → Prop} (h : ∀ a, Q a ↔ Q' a) :
    Outcome x Q E ↔ Outcome x Q' E := by
  rw [show Q = Q' from funext fun a ↦ propext (h a)]

theorem outcome_ite_iff {c : Prop} [Decidable c] {x y : Except φ α} :
    Outcome (if c then x else y) Q E ↔ (c → Outcome x Q E) ∧ (¬ c → Outcome y Q E) := by
  by_cases h : c
  · simp [h]
  · simp [h]

/-! ## Loops -/

/-- At most `fuel` turns. -/
def loop (fault : φ) (step : σ → Except φ (σ ⊕ α)) : ℕ → σ → Except φ α
  | 0, _ => .error fault
  | fuel + 1, s =>
    match step s with
    | .error e => .error e
    | .ok (.inl s') => loop fault step fuel s'
    | .ok (.inr a) => .ok a

/-- The states that the loop comes to. -/
inductive ComesTo (step : σ → Except φ (σ ⊕ α)) (s : σ) : σ → Prop
  | start : ComesTo step s s
  | next {t u : σ} : ComesTo step s t → step t = .ok (.inl u) → ComesTo step s u

variable {fault : φ} {step : σ → Except φ (σ ⊕ α)} {s s' t : σ}

/-- What holds at the start and is kept by the turns holds in each state. -/
theorem ComesTo.invariant {Inv : σ → Prop} (h : ComesTo step s t) (hs : Inv s)
    (hstep : ∀ t u, Inv t → step t = .ok (.inl u) → Inv u) : Inv t := by
  induction h with
  | start => exact hs
  | next _ hnext ih => exact hstep _ _ ih hnext

theorem ComesTo.of_next (h : step s = .ok (.inl s')) (ht : ComesTo step s' t) : ComesTo step s t := by
  induction ht with
  | start => exact .next .start h
  | next _ hnext ih => exact .next ih hnext

theorem comesTo_iff : ComesTo step s t ↔ t = s ∨ ∃ s', step s = .ok (.inl s') ∧ ComesTo step s' t := by
  constructor
  · intro h
    induction h with
    | start => exact .inl rfl
    | next _ hnext ih =>
      rcases ih with rfl | ⟨s', hs', hlater⟩
      · exact .inr ⟨_, hnext, .start⟩
      · exact .inr ⟨s', hs', .next hlater hnext⟩
  · rintro (rfl | ⟨s', hs', hlater⟩)
    · exact .start
    · exact hlater.of_next hs'

/-- A loop with enough turns has the outcome of the turns that it comes to. -/
theorem outcome_loop_iff (Inv : σ → Prop) (size : σ → ℕ)
    (hstep : ∀ s s', Inv s → step s = .ok (.inl s') → Inv s' ∧ size s' < size s)
    (fuel : ℕ) : ∀ {s : σ}, Inv s → size s < fuel →
      (Outcome (loop fault step fuel s) Q E ↔
        ∀ t, ComesTo step s t → Outcome (step t) (fun r ↦ ∀ a, r = .inr a → Q a) E) := by
  induction fuel with
  | zero => exact fun _ h ↦ absurd h (Nat.not_lt_zero _)
  | succ fuel ih =>
    intro s hs hfuel
    rw [loop]
    cases hrun : step s with
    | error e =>
      constructor
      · intro he t ht
        rcases comesTo_iff.mp ht with rfl | ⟨s', hs', -⟩
        · rw [hrun]
          exact he
        · rw [hrun] at hs'
          cases hs'
      · intro h
        have houtcome := h s .start
        rwa [hrun] at houtcome
    | ok r =>
      cases r with
      | inr a =>
        constructor
        · intro ha t ht
          rcases comesTo_iff.mp ht with rfl | ⟨s', hs', -⟩
          · rw [hrun]
            intro a' ha'
            cases ha'
            exact ha
          · rw [hrun] at hs'
            cases hs'
        · intro h
          have houtcome := h s .start
          rw [hrun] at houtcome
          exact houtcome a rfl
      | inl s' =>
        obtain ⟨hs', hless⟩ := hstep s s' hs hrun
        dsimp only
        rw [ih hs' (by omega : size s' < fuel)]
        constructor
        · intro h t ht
          rcases comesTo_iff.mp ht with rfl | ⟨s'', hs'', hlater⟩
          · rw [hrun]
            exact fun a ha ↦ by cases ha
          · rw [hrun] at hs''
            cases hs''
            exact h t hlater
        · exact fun h t ht ↦ h t (ht.of_next hrun)

end InetManet.TransitionSystem
