import InetManet.Library.TransitionSystem

/-!
# Counting loops

Loops whose counter is a machine number and whose body may fail. A loop that is still running after
`rounds` turns fails with `fault`; with `2 ^ w` rounds every value of the counter has been seen.
-/

namespace InetManet.TransitionSystem

variable {σ α φ : Type} {w : ℕ} {I : σ → Prop} {E : φ → Prop}

/-- `for (pos = lo; pos <= hi; pos++)`. -/
def forUp (fault : φ) (body : σ → BitVec w → Except φ σ) (hi : BitVec w) :
    ℕ → BitVec w → σ → Except φ σ
  | 0, _, _ => .error fault
  | rounds + 1, pos, s =>
      if pos.toNat ≤ hi.toNat then
        body s pos >>= forUp fault body hi rounds (pos + 1)
      else .ok s

/-- `while (pos >= lo) { ...; pos--; }`. -/
def forDown (fault : φ) (body : σ → BitVec w → Except φ σ) (lo : BitVec w) :
    ℕ → BitVec w → σ → Except φ σ
  | 0, _, _ => .error fault
  | rounds + 1, pos, s =>
      if lo.toNat ≤ pos.toNat then
        body s pos >>= forDown fault body lo rounds (pos - 1)
      else .ok s

section Rules

variable {fault : φ} {body : σ → BitVec w → Except φ σ} {bound : BitVec w}

theorem Outcome.forUp (hfault : E fault) (hbody : ∀ s pos, I s → Outcome (body s pos) I E)
    (rounds : ℕ) (pos : BitVec w) {s : σ} (hs : I s) :
    Outcome (forUp fault body bound rounds pos s) I E := by
  induction rounds generalizing pos s with
  | zero => exact hfault
  | succ rounds ih =>
    apply Outcome.ite
    · intro _
      exact (hbody s pos hs).bind fun s' hs' ↦ ih (pos + 1) hs'
    · intro _
      exact hs

theorem Outcome.forDown (hfault : E fault) (hbody : ∀ s pos, I s → Outcome (body s pos) I E)
    (rounds : ℕ) (pos : BitVec w) {s : σ} (hs : I s) :
    Outcome (forDown fault body bound rounds pos s) I E := by
  induction rounds generalizing pos s with
  | zero => exact hfault
  | succ rounds ih =>
    apply Outcome.ite
    · intro _
      exact (hbody s pos hs).bind fun s' hs' ↦ ih (pos - 1) hs'
    · intro _
      exact hs

theorem Outcome.foldlM {step : σ → α → Except φ σ} (l : List α)
    (hbody : ∀ s, ∀ x ∈ l, I s → Outcome (step s x) I E) {s : σ} (hs : I s) :
    Outcome (l.foldlM step s) I E := by
  induction l generalizing s with
  | nil => exact hs
  | cons x l ih =>
    rw [List.foldlM_cons]
    apply (hbody s x List.mem_cons_self hs).bind
    intro s' hs'
    exact ih (fun s y hy ↦ hbody s y (List.mem_cons_of_mem x hy)) hs'

/-- Two bodies that do the same on the elements of the list. -/
theorem foldlM_congr {step step' : σ → α → Except φ σ} {l : List α}
    (hbody : ∀ s, ∀ x ∈ l, step s x = step' s x) (s : σ) : l.foldlM step s = l.foldlM step' s := by
  induction l generalizing s with
  | nil => rfl
  | cons x l ih =>
    rw [List.foldlM_cons, List.foldlM_cons, hbody s x List.mem_cons_self]
    congr
    funext s'
    exact ih (fun s y hy ↦ hbody s y (List.mem_cons_of_mem x hy)) s'

end Rules

end InetManet.TransitionSystem
