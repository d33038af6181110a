import Mathlib.Data.List.Basic

/-!
# Transition systems with faulting steps

A component is a step function that consumes one event and either yields the next state or ends
the run with a fault. `Reachable` collects the states of all runs whose events are admitted one by
one by a predicate on the state before the step, and `Reachable.invariant` is the induction over
runs. `Outcome x Q E` is the specification of one computation: a result satisfies `Q`, a fault
satisfies `E`. Its rules follow the shape of a program, and `Outcome.and` joins two views of the
same computation.
-/

namespace InetManet.TransitionSystem

variable {σ ε φ α β : Type}

/-! ## Successful computations -/

theorem bind_ok_iff {x : Except φ α} {f : α → Except φ β} {b : β} :
    (x >>= f) = .ok b ↔ ∃ a, x = .ok a ∧ f a = .ok b := by
  cases x with
  | error e => simp [bind, Except.bind]
  | ok a => simp [bind, Except.bind]

theorem bind_error_iff {x : Except φ α} {f : α → Except φ β} {e : φ} :
    (x >>= f) = .error e ↔ x = .error e ∨ ∃ a, x = .ok a ∧ f a = .error e := by
  cases x with
  | error e => simp [bind, Except.bind]
  | ok a => simp [bind, Except.bind]

@[simp] theorem ok_bind (a : α) (f : α → Except φ β) : (Except.ok a >>= f) = f a := rfl

@[simp] theorem error_bind (e : φ) (f : α → Except φ β) :
    ((Except.error e : Except φ α) >>= f) = .error e := rfl

/-- A check that ends the run with `fault` unless `cond` holds or checking is switched off. -/
def check (enabled cond : Bool) (fault : φ) : Except φ Unit :=
  if enabled && !cond then .error fault else .ok ()

@[simp] theorem check_eq_ok {enabled cond : Bool} {fault : φ} {u : Unit} :
    check enabled cond fault = .ok u ↔ (enabled = true → cond = true) := by
  cases enabled <;> cases cond <;> simp [check]

@[simp] theorem check_true (enabled : Bool) (fault : φ) : check enabled true fault = .ok () := by
  simp [check]

/-! ## Specifications of a computation -/

/-- A result of `x` satisfies `Q`, and a fault satisfies `E`. -/
def Outcome (x : Except φ α) (Q : α → Prop) (E : φ → Prop) : Prop :=
  match x with
  | .ok a => Q a
  | .error e => E e

variable {Q Q' : α → Prop} {R : β → Prop} {E E' : φ → Prop} {x : Except φ α}

@[simp] theorem outcome_ok {a : α} : Outcome (.ok a : Except φ α) Q E ↔ Q a := Iff.rfl

@[simp] theorem outcome_error {e : φ} : Outcome (.error e : Except φ α) Q E ↔ E e := Iff.rfl

instance decidableOutcome [DecidablePred Q] [DecidablePred E] : ∀ x, Decidable (Outcome x Q E)
  | .ok a => inferInstanceAs (Decidable (Q a))
  | .error e => inferInstanceAs (Decidable (E e))

theorem exists_ok (x : Except φ α) (Q : α → Prop) (h : Outcome x Q fun _ ↦ False) :
    ∃ a, x = .ok a ∧ Q a := by
  cases x with
  | error e => exact h.elim
  | ok a => exact ⟨a, rfl, h⟩

theorem Outcome.of_eq_ok {a : α} (h : Outcome x Q E) (hx : x = .ok a) : Q a := by
  subst hx
  exact h

theorem Outcome.of_eq_error {e : φ} (h : Outcome x Q E) (hx : x = .error e) : E e := by
  subst hx
  exact h

theorem Outcome.mono (h : Outcome x Q E) (hQ : ∀ a, Q a → Q' a) (hE : ∀ e, E e → E' e) :
    Outcome x Q' E' := by
  cases x with
  | error e => exact hE e h
  | ok a => exact hQ a h

theorem Outcome.post (h : Outcome x Q E) (hQ : ∀ a, Q a → Q' a) : Outcome x Q' E :=
  h.mono hQ fun _ he ↦ he

theorem Outcome.and (h : Outcome x Q E) (h' : Outcome x Q' E') :
    Outcome x (fun a ↦ Q a ∧ Q' a) (fun e ↦ E e ∧ E' e) := by
  cases x with
  | error e => exact ⟨h, h'⟩
  | ok a => exact ⟨h, h'⟩

theorem Outcome.bind {f : α → Except φ β} (h : Outcome x Q E)
    (hf : ∀ a, Q a → Outcome (f a) R E) : Outcome (x >>= f) R E := by
  cases x with
  | error e => exact h
  | ok a => exact hf a h

theorem Outcome.map {f : α → β} (h : Outcome x (fun a ↦ R (f a)) E) :
    Outcome (f <$> x) R E := by
  cases x with
  | error e => exact h
  | ok a => exact h

theorem Outcome.ite {c : Prop} [Decidable c] {y : Except φ α} (ht : c → Outcome x Q E)
    (hf : ¬ c → Outcome y Q E) : Outcome (if c then x else y) Q E := by
  by_cases h : c
  · rw [if_pos h]
    exact ht h
  · rw [if_neg h]
    exact hf h

theorem outcome_check {enabled cond : Bool} {fault : φ} {Q : Unit → Prop}
    (hQ : (enabled = true → cond = true) → Q ())
    (hE : enabled = true → cond = false → E fault) :
    Outcome (check enabled cond fault) Q E := by
  cases enabled with
  | false => exact hQ fun h ↦ by cases h
  | true =>
    cases cond with
    | false => exact hE rfl rfl
    | true => exact hQ fun _ ↦ rfl

theorem Outcome.check_bind {enabled cond : Bool} {fault : φ} {f : Unit → Except φ β}
    (hfault : E fault) (h : Outcome (f ()) R E) :
    Outcome (check enabled cond fault >>= f) R E :=
  Outcome.bind (Q := fun _ ↦ True) (outcome_check (fun _ ↦ trivial) fun _ _ ↦ hfault) fun _ _ ↦ h

/-! ## Runs -/

/-- The states of the runs from `init` in which every event is admitted by `allowed`. -/
inductive Reachable (init : σ → Prop) (allowed : σ → ε → Prop) (step : σ → ε → Except φ σ) :
    σ → Prop
  | start {s : σ} : init s → Reachable init allowed step s
  | next {s s' : σ} {e : ε} : Reachable init allowed step s → allowed s e → step s e = .ok s' →
      Reachable init allowed step s'

/-- What holds initially and is kept by every admitted step holds in every reachable state. -/
theorem Reachable.invariant {init : σ → Prop} {allowed : σ → ε → Prop}
    {step : σ → ε → Except φ σ} {Inv : σ → Prop} (hinit : ∀ s, init s → Inv s)
    (hstep : ∀ s e s', Inv s → allowed s e → step s e = .ok s' → Inv s') {s : σ}
    (h : Reachable init allowed step s) : Inv s := by
  induction h with
  | start h0 => exact hinit _ h0
  | next _ hallowed hs ih => exact hstep _ _ _ ih hallowed hs

/-- The same rule from a specification of the step, which also covers the faults of the next
step. -/
theorem Reachable.outcome {init : σ → Prop} {allowed : σ → ε → Prop}
    {step : σ → ε → Except φ σ} {Inv : σ → Prop} {E : φ → Prop} (hinit : ∀ s, init s → Inv s)
    (hstep : ∀ s e, Inv s → allowed s e → Outcome (step s e) Inv E) {s : σ}
    (h : Reachable init allowed step s) :
    Inv s ∧ ∀ e, allowed s e → Outcome (step s e) Inv E := by
  have hs : Inv s := h.invariant hinit fun s e s' hi ha hst ↦ (hstep s e hi ha).of_eq_ok hst
  exact ⟨hs, fun e ha ↦ hstep s e hs ha⟩

/-- The run over a list of events. -/
def run (step : σ → ε → Except φ σ) : σ → List ε → Except φ σ
  | s, [] => .ok s
  | s, e :: es => step s e >>= fun s' ↦ run step s' es

@[simp] theorem run_nil (step : σ → ε → Except φ σ) (s : σ) : run step s [] = .ok s := rfl

@[simp] theorem run_cons (step : σ → ε → Except φ σ) (s : σ) (e : ε) (es : List ε) :
    run step s (e :: es) = step s e >>= fun s' ↦ run step s' es := rfl

/-- Every event of the run is admitted in the state in which it happens. -/
def admits (allowed : σ → ε → Prop) [∀ s e, Decidable (allowed s e)] (step : σ → ε → Except φ σ) :
    σ → List ε → Bool
  | _, [] => true
  | s, e :: es => decide (allowed s e) &&
      match step s e with
      | .ok s' => admits allowed step s' es
      | .error _ => true

theorem Reachable.of_run {init : σ → Prop} {allowed : σ → ε → Prop}
    [∀ s e, Decidable (allowed s e)] {step : σ → ε → Except φ σ} {s s' : σ}
    (h : Reachable init allowed step s) (es : List ε) (hes : admits allowed step s es = true)
    (hrun : run step s es = .ok s') : Reachable init allowed step s' := by
  induction es generalizing s with
  | nil =>
    cases hrun
    exact h
  | cons e es ih =>
    rw [run_cons] at hrun
    obtain ⟨s₁, hs₁, hrest⟩ := bind_ok_iff.mp hrun
    simp only [admits, hs₁, Bool.and_eq_true, decide_eq_true_eq] at hes
    exact ih (h.next hes.1 hs₁) hes.2 hrest

end InetManet.TransitionSystem
