import InetManet.Library.TransitionSystem

/-!
# Loops over a buffer

`walk` moves a cursor forward through a buffer. Its body fails, stops the loop, or says how far the
cursor moves. Where that depends on the position alone, the loop ends without failure exactly when
the positions do (`Walks`): every step succeeds, moves on, and finally the body stops.
-/

namespace InetManet.TransitionSystem

variable {σ φ α β : Type}

/-! ## Computations with a result -/

def Succeeds (x : Except φ α) : Prop := ∃ a, x = .ok a

@[simp] theorem succeeds_ok (a : α) : Succeeds (.ok a : Except φ α) := ⟨a, rfl⟩

@[simp] theorem succeeds_pure (a : α) : Succeeds (pure a : Except φ α) := ⟨a, rfl⟩

@[simp] theorem not_succeeds_error (e : φ) : ¬ Succeeds (.error e : Except φ α) := by
  intro h
  obtain ⟨a, ha⟩ := h
  cases ha

@[simp] theorem succeeds_map (f : α → β) (x : Except φ α) : Succeeds (f <$> x) ↔ Succeeds x := by
  cases x with
  | error e => exact iff_of_false (not_succeeds_error e) (not_succeeds_error e)
  | ok a => exact iff_of_true (succeeds_ok (f a)) (succeeds_ok a)

theorem error_of_not_succeeds {x : Except φ α} (h : ¬ Succeeds x) : ∃ e, x = .error e := by
  cases x with
  | error e => exact ⟨e, rfl⟩
  | ok a => exact absurd (succeeds_ok a) h

/-! ## Loops -/

/-- `while (true) { if (...) break; ...; p += n; }`, at most `rounds` times. -/
def walk (fault : φ) (body : ℕ → σ → Except φ (σ × Option ℕ)) : ℕ → ℕ → σ → Except φ σ
  | 0, _, _ => .error fault
  | rounds + 1, p, s =>
      match body p s with
      | .error e => .error e
      | .ok (s, none) => .ok s
      | .ok (s, some n) => walk fault body rounds (p + n) s

/-- From `p` on every step succeeds and moves on until the body stops: `next p` is `none` for a
failure, `some none` for the end and `some (some n)` for a step of `n`. -/
inductive Walks (next : ℕ → Option (Option ℕ)) : ℕ → Prop
  | stop {p : ℕ} : next p = some none → Walks next p
  | step {p n : ℕ} : next p = some (some n) → 0 < n → Walks next (p + n) → Walks next p

/-- What `next` says of the body. -/
def Describes (next : ℕ → Option (Option ℕ)) (body : ℕ → σ → Except φ (σ × Option ℕ)) : Prop :=
  ∀ p s, match next p with
    | none => ∃ e, body p s = .error e
    | some o => ∃ s', body p s = .ok (s', o)

section Rules

variable {fault : φ} {body : ℕ → σ → Except φ (σ × Option ℕ)} {next : ℕ → Option (Option ℕ)}
  {rounds p bound : ℕ} {s : σ}

theorem walk_step {n : ℕ} {s' : σ} (h : body p s = .ok (s', some n)) :
    walk fault body (rounds + 1) p s = walk fault body rounds (p + n) s' := by
  rw [walk, h]

theorem walk_stuck (hbody : Describes next body) (hp : next p = some (some 0)) (rounds : ℕ) (s : σ) :
    walk fault body rounds p s = .error fault := by
  induction rounds generalizing s with
  | zero => rfl
  | succ rounds ih =>
    have hs := hbody p s
    rw [hp] at hs
    obtain ⟨s', hs'⟩ := hs
    rw [walk_step hs', Nat.add_zero]
    exact ih s'

/-- With enough rounds to reach `bound`, where the body stops, the loop succeeds if and only if the
positions are right. -/
theorem walk_ok_iff (hbody : Describes next body) (hbound : ∀ p, bound ≤ p → next p = some none)
    (hrounds : bound - p < rounds) :
    Succeeds (walk fault body rounds p s) ↔ Walks next p := by
  induction rounds generalizing p s with
  | zero => omega
  | succ rounds ih =>
    have hs := hbody p s
    cases hnext : next p with
    | none =>
      rw [hnext] at hs
      obtain ⟨e, he⟩ := hs
      unfold walk
      rw [he]
      constructor
      · rintro ⟨s', hs'⟩
        cases hs'
      · intro hwalks
        cases hwalks with
        | stop h => rw [hnext] at h; cases h
        | step h _ _ => rw [hnext] at h; cases h
    | some o =>
      rw [hnext] at hs
      obtain ⟨s', hs'⟩ := hs
      cases o with
      | none =>
        unfold walk
        rw [hs']
        exact ⟨fun _ ↦ .stop hnext, fun _ ↦ ⟨s', rfl⟩⟩
      | some n =>
        have hlt : p < bound := by
          by_contra hge
          rw [hbound p (by omega)] at hnext
          cases hnext
        by_cases hn : n = 0
        · subst hn
          rw [walk_stuck hbody hnext]
          constructor
          · rintro ⟨s'', hs''⟩
            cases hs''
          · intro hwalks
            cases hwalks with
            | stop h => rw [hnext] at h; cases h
            | step h hpos _ =>
              rw [hnext] at h
              cases h
              exact absurd hpos (Nat.lt_irrefl 0)
        · rw [walk_step hs', ih (by omega)]
          constructor
          · exact .step hnext (Nat.pos_of_ne_zero hn)
          · intro hwalks
            cases hwalks with
            | stop h => rw [hnext] at h; cases h
            | step h _ hrest =>
              rw [hnext] at h
              cases h
              exact hrest

/-- What the body keeps holds when the loop ends, which only fails as its body does. -/
theorem Outcome.walk_invariant {E : φ → Prop} {Inv : σ → Prop} (hfault : E fault)
    (hbody : ∀ p s, Inv s → Outcome (body p s) (fun x ↦ Inv x.1) E) (rounds p : ℕ) (hs : Inv s) :
    Outcome (TransitionSystem.walk fault body rounds p s) Inv E := by
  induction rounds generalizing p s with
  | zero => exact hfault
  | succ rounds ih =>
    have hstep := hbody p s hs
    unfold TransitionSystem.walk
    cases hres : body p s with
    | error e =>
      rw [hres] at hstep
      exact hstep
    | ok r =>
      rw [hres] at hstep
      obtain ⟨s', o⟩ := r
      cases o with
      | none => exact hstep
      | some n => exact ih (p + n) hstep

theorem Outcome.walk {E : φ → Prop} (hfault : E fault)
    (hbody : ∀ p s, Outcome (body p s) (fun _ ↦ True) E) (rounds p : ℕ) (s : σ) :
    Outcome (TransitionSystem.walk fault body rounds p s) (fun _ ↦ True) E :=
  Outcome.walk_invariant hfault (fun p s _ ↦ hbody p s) rounds p trivial

end Rules

end InetManet.TransitionSystem
