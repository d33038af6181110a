import Mathlib.Data.List.Induction
import Mathlib.Data.List.Perm.Basic
import Mathlib.Order.Lattice

/-!
# The best element of a list

A search that keeps the element with the greatest key so far, and the first of those with the same key.
-/

namespace InetManet

variable {α κ : Type*} [LinearOrder κ] {key : α → κ} {c x y : α} {l l' : List α}

def better (key : α → κ) (c x : α) : α := if key c < key x then x else c

/-- The search starts from `c`, which is replaced only by something better. -/
def best (key : α → κ) (c : α) (l : List α) : α := l.foldl (better key) c

@[simp] theorem best_nil : best key c [] = c := rfl

theorem best_append : best key c (l ++ l') = best key (best key c l) l' := List.foldl_append

theorem best_concat : best key c (l ++ [x]) = better key (best key c l) x := best_append

/-- Either nothing is better than the start, or the result is the first of the best ones. -/
theorem best_cases (key : α → κ) (c : α) (l : List α) :
    (best key c l = c ∧ ∀ x ∈ l, key x ≤ key c) ∨
      ∃ before after, l = before ++ best key c l :: after ∧ key c < key (best key c l) ∧
        (∀ x ∈ before, key x < key (best key c l)) ∧ ∀ x ∈ after, key x ≤ key (best key c l) := by
  induction l using List.reverseRecOn with
  | nil =>
    left
    exact ⟨rfl, by simp⟩
  | append_singleton l z ih =>
    rw [best_concat, better]
    split
    · rename_i hlt
      right
      refine ⟨l, [], rfl, ?_, ?_, by simp⟩
      · rcases ih with ⟨hstart, -⟩ | ⟨before, after, -, hbetter, -, -⟩
        · rwa [hstart] at hlt
        · exact hbetter.trans hlt
      · intro x hx
        rcases ih with ⟨hstart, hle⟩ | ⟨before, after, hsplit, -, hbefore, hafter⟩
        · exact (hle x hx).trans_lt (hstart ▸ hlt)
        · rw [hsplit, List.mem_append, List.mem_cons] at hx
          rcases hx with hx | rfl | hx
          · exact (hbefore x hx).trans hlt
          · exact hlt
          · exact (hafter x hx).trans_lt hlt
    · rename_i hle
      rcases ih with ⟨hstart, hold⟩ | ⟨before, after, hsplit, hbetter, hbefore, hafter⟩
      · left
        refine ⟨hstart, ?_⟩
        intro x hx
        rw [List.mem_append, List.mem_singleton] at hx
        rcases hx with hx | rfl
        · exact hold x hx
        · exact (not_lt.mp hle).trans_eq (congrArg key hstart)
      · right
        refine ⟨before, after ++ [z], ?_, hbetter, hbefore, ?_⟩
        · rw [← List.cons_append, ← List.append_assoc, ← hsplit]
        · intro x hx
          rw [List.mem_append, List.mem_singleton] at hx
          rcases hx with hx | rfl
          · exact hafter x hx
          · exact not_lt.mp hle

theorem best_mem : best key c l ∈ c :: l := by
  rcases best_cases key c l with ⟨hstart, -⟩ | ⟨before, after, hsplit, -⟩
  · rw [hstart]
    exact List.mem_cons_self
  · apply List.mem_cons_of_mem
    generalize best key c l = found at hsplit ⊢
    rw [hsplit]
    exact List.mem_append_right before List.mem_cons_self

theorem key_le_best (hx : x ∈ c :: l) : key x ≤ key (best key c l) := by
  rcases best_cases key c l with ⟨hstart, hle⟩ | ⟨before, after, hsplit, hbetter, hbefore, hafter⟩
  · rw [hstart]
    rcases List.mem_cons.mp hx with rfl | hx
    · exact le_refl _
    · exact hle x hx
  · rcases List.mem_cons.mp hx with rfl | hx
    · exact hbetter.le
    · rw [hsplit, List.mem_append, List.mem_cons] at hx
      rcases hx with hx | rfl | hx
      · exact (hbefore x hx).le
      · exact le_refl _
      · exact hafter x hx

/-- Where all elements are better than the start, one of them is found. -/
theorem best_mem_of_lt (hc : ∀ x ∈ l, key c < key x) (hne : l ≠ []) : best key c l ∈ l := by
  rcases List.mem_cons.mp (best_mem : best key c l ∈ c :: l) with hstart | hmem
  · obtain ⟨x, hx⟩ := List.exists_mem_of_ne_nil l hne
    have hle : key x ≤ key (best key c l) := key_le_best (List.mem_cons_of_mem c hx)
    rw [hstart] at hle
    exact absurd (hc x hx) (not_lt.mpr hle)
  · exact hmem

/-- With distinct keys the order of the list does not matter. -/
theorem best_perm (hperm : l.Perm l')
    (hkey : ∀ x ∈ c :: l, ∀ y ∈ c :: l, key x = key y → x = y) : best key c l = best key c l' := by
  have hcons : (c :: l).Perm (c :: l') := hperm.cons c
  apply hkey _ best_mem _ (hcons.mem_iff.mpr best_mem)
  apply le_antisymm
  · exact key_le_best (hcons.mem_iff.mp best_mem)
  · exact key_le_best (hcons.mem_iff.mpr best_mem)

/-! ## Loops with a pointer to the best one so far -/

/-- The first of those with the greatest key. -/
def firstBest (key : α → κ) (l : List α) : Option α := l.find? fun e ↦ ∀ f ∈ l, key f ≤ key e

theorem firstBest_eq_none : firstBest key l = none ↔ l = [] := by
  constructor
  · intro h
    cases l with
    | nil => rfl
    | cons x l =>
      have hnot := List.find?_eq_none.mp h (best key x l) best_mem
      have hall : ∀ f ∈ x :: l, key f ≤ key (best key x l) := fun f hf ↦ key_le_best hf
      exact absurd (decide_eq_true hall) hnot
  · intro h
    rw [h]
    rfl

theorem mem_of_firstBest {e : α} (h : firstBest key l = some e) : e ∈ l := List.mem_of_find?_eq_some h

theorem le_of_firstBest {e f : α} (h : firstBest key l = some e) (hf : f ∈ l) : key f ≤ key e := by
  have hall := List.find?_some (p := fun e ↦ decide (∀ f ∈ l, key f ≤ key e)) h
  exact of_decide_eq_true hall f hf

/-- One more element replaces the best one only if it is better. -/
theorem firstBest_concat {b z : α} (h : firstBest key l = some b) :
    firstBest key (l ++ [z]) = some (better key b z) := by
  have hb : b ∈ l := mem_of_firstBest h
  have hle : ∀ f ∈ l, key f ≤ key b := fun f hf ↦ le_of_firstBest h hf
  unfold firstBest at h ⊢
  rw [List.find?_append, better]
  split_ifs with hlt
  · have hnone : (l.find? fun e ↦ decide (∀ f ∈ l ++ [z], key f ≤ key e)) = none := by
      rw [List.find?_eq_none]
      intro e he hmax
      have hze := of_decide_eq_true hmax z (List.mem_append_right l List.mem_cons_self)
      exact absurd (hze.trans (hle e he)) (not_le.mpr hlt)
    have hz : ∀ f ∈ l ++ [z], key f ≤ key z := by
      intro f hf
      rcases List.mem_append.mp hf with hf | hf
      · exact (hle f hf).trans hlt.le
      · rw [List.mem_singleton.mp hf]
    rw [hnone, Option.none_or, List.find?_singleton]
    exact if_pos (decide_eq_true hz)
  · have hsame : ∀ e ∈ l,
        decide (∀ f ∈ l ++ [z], key f ≤ key e) = decide (∀ f ∈ l, key f ≤ key e) := by
      intro e _
      rw [decide_eq_decide]
      constructor
      · intro hall f hf
        exact hall f (List.mem_append_left _ hf)
      · intro hall f hf
        rcases List.mem_append.mp hf with hf | hf
        · exact hall f hf
        · rw [List.mem_singleton.mp hf]
          exact (not_lt.mp hlt).trans (hall b hb)
    have hfind : (l.find? fun e ↦ decide (∀ f ∈ l ++ [z], key f ≤ key e)) = some b := by
      rw [← h]
      simp only [← List.head?_filter, List.filter_congr hsame]
    rw [hfind]
    rfl

/-- The loop `if (p(e) && (!best || e is better than best)) best = e;`. -/
theorem foldl_eq_firstBest (p : α → Bool) (q : Option α → α → Bool) (hnone : ∀ e, q none e = true)
    (hsome : ∀ b e, q (some b) e = decide (key b < key e)) (l : List α) :
    l.foldl (fun best e ↦ if p e && q best e then some e else best) none =
      firstBest key (l.filter p) := by
  induction l using List.reverseRecOn with
  | nil => rfl
  | append_singleton l z ih =>
    rw [List.foldl_append, List.foldl_cons, List.foldl_nil, ih, List.filter_append]
    by_cases hz : p z = true
    · rw [List.filter_cons_of_pos hz, List.filter_nil, hz, Bool.true_and]
      cases hbest : firstBest key (l.filter p) with
      | none =>
        rw [firstBest_eq_none.mp hbest, hnone, if_pos rfl, List.nil_append]
        simp [firstBest]
      | some b =>
        rw [firstBest_concat hbest, hsome, better]
        simp only [decide_eq_true_eq]
        split_ifs <;> rfl
    · rw [List.filter_cons_of_neg hz, List.filter_nil, List.append_nil, eq_false_of_ne_true hz,
        Bool.false_and]
      rfl

end InetManet
