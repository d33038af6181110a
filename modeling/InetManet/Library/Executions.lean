import InetManet.Library.TransitionSystem

/-!
# Executions

A run that continues another one, and runs that are evaluated up to a check of their last state.
-/

namespace InetManet.TransitionSystem

variable {σ ε φ α : Type} {init : σ → Prop} {allowed : σ → ε → Prop} {step : σ → ε → Except φ σ}

theorem Reachable.trans {s s' : σ} (h : Reachable init allowed step s)
    (h' : Reachable (· = s) allowed step s') : Reachable init allowed step s' := by
  induction h' with
  | start heq =>
    rw [heq]
    exact h
  | next _ hallowed hstep ih => exact ih.next hallowed hstep

theorem exists_of_toOption_any {x : Except φ α} {p : α → Bool} (h : x.toOption.any p = true) :
    ∃ a, x = .ok a ∧ p a = true := by
  cases x with
  | error e => cases h
  | ok a => exact ⟨a, rfl, h⟩

/-- An evaluated run reaches a state that passes a check. -/
theorem exists_reachable [∀ s e, Decidable (allowed s e)] {s : σ} (es : List ε) {p : σ → Bool}
    (h : Reachable init allowed step s) (hes : admits allowed step s es = true)
    (hp : (run step s es).toOption.any p = true) :
    ∃ s', Reachable init allowed step s' ∧ p s' = true := by
  obtain ⟨s', hrun, hs'⟩ := exists_of_toOption_any hp
  exact ⟨s', h.of_run es hes hrun, hs'⟩

end InetManet.TransitionSystem
