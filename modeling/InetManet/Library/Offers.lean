import Mathlib.Data.List.Nodup
import Mathlib.Data.List.Perm.Basic
import Mathlib.Order.Lattice

/-!
# The best offers

Offers for targets come one by one. A table keeps one entry for each target that is not settled otherwise,
with the least rank that was offered for it and with the labels of all offers of that rank.
-/

namespace InetManet.Offers

/-- How offers, or the entries of a table, are read. -/
structure Terms (α T R L : Type) where
  target : α → T
  rank : α → R
  labels : α → List L

section

variable {α ε T R L : Type} [LinearOrder R] (a : Terms α T R L) (b : Terms ε T R L)

/-- The entry is the best of the offers for its target. -/
structure Best (offers : List α) (e : ε) : Prop where
  least : ∀ o ∈ offers, a.target o = b.target e → b.rank e ≤ a.rank o
  attained : ∃ o ∈ offers, a.target o = b.target e ∧ a.rank o = b.rank e
  labels : ∀ l, l ∈ b.labels e ↔
    ∃ o ∈ offers, a.target o = b.target e ∧ a.rank o = b.rank e ∧ l ∈ a.labels o

/-- The entries are the best ones for all targets of the offers that are not settled. -/
structure Selected (settled : T → Prop) (offers : List α) (entries : List ε) : Prop where
  unsettled : ∀ e ∈ entries, ¬ settled (b.target e)
  nodup : (entries.map b.target).Nodup
  best : ∀ e ∈ entries, Best a b offers e
  complete : ∀ o ∈ offers, ¬ settled (a.target o) → ∃ e ∈ entries, b.target e = a.target o

variable {a b} {offers offers' : List α} {o : α} {e new : ε} {settled : T → Prop}
  {entries before after : List ε}

theorem selected_nil : Selected a b settled [] [] :=
  ⟨List.forall_mem_nil _, List.nodup_nil, List.forall_mem_nil _, List.forall_mem_nil _⟩

namespace Best

/-- An offer for another target, or a worse one, changes nothing. -/
theorem irrelevant (h : Best a b offers e) (hrank : a.target o = b.target e → b.rank e < a.rank o) :
    Best a b (offers ++ [o]) e := by
  refine ⟨?_, ?_, ?_⟩
  · intro x hx htarget
    rcases List.mem_append.mp hx with hx | hx
    · exact h.least x hx htarget
    · rw [List.mem_singleton.mp hx] at htarget ⊢
      exact (hrank htarget).le
  · obtain ⟨x, hx, hrest⟩ := h.attained
    exact ⟨x, List.mem_append_left _ hx, hrest⟩
  · intro l
    rw [h.labels]
    constructor
    · rintro ⟨x, hx, hrest⟩
      exact ⟨x, List.mem_append_left _ hx, hrest⟩
    · rintro ⟨x, hx, htarget, hequal, hl⟩
      rcases List.mem_append.mp hx with hx | hx
      · exact ⟨x, hx, htarget, hequal, hl⟩
      · rw [List.mem_singleton.mp hx] at htarget hequal
        exact absurd hequal (hrank htarget).ne'

theorem equal (h : Best a b offers e) (htarget : a.target o = b.target e) (hrank : b.rank e = a.rank o)
    (hnew : b.target new = b.target e) (hsame : b.rank new = b.rank e)
    (hlabels : b.labels new = b.labels e ++ a.labels o) : Best a b (offers ++ [o]) new := by
  refine ⟨?_, ?_, ?_⟩
  · intro x hx hx'
    rw [hnew] at hx'
    rw [hsame]
    rcases List.mem_append.mp hx with hx | hx
    · exact h.least x hx hx'
    · rw [List.mem_singleton.mp hx]
      exact hrank.le
  · obtain ⟨x, hx, hx', hequal⟩ := h.attained
    exact ⟨x, List.mem_append_left _ hx, hx'.trans hnew.symm, hequal.trans hsame.symm⟩
  · intro l
    rw [hlabels, List.mem_append, h.labels, hnew, hsame]
    constructor
    · rintro (⟨x, hx, hrest⟩ | hl)
      · exact ⟨x, List.mem_append_left _ hx, hrest⟩
      · exact ⟨o, List.mem_append_right _ List.mem_cons_self, htarget, hrank.symm, hl⟩
    · rintro ⟨x, hx, hx', hequal, hl⟩
      rcases List.mem_append.mp hx with hx | hx
      · exact .inl ⟨x, hx, hx', hequal, hl⟩
      · rw [List.mem_singleton.mp hx] at hl
        exact .inr hl

/-- An offer that is better than all others for its target. -/
theorem only (htarget : b.target new = a.target o) (hrank : b.rank new = a.rank o)
    (hlabels : b.labels new = a.labels o)
    (hworse : ∀ x ∈ offers, a.target x = a.target o → a.rank o < a.rank x) :
    Best a b (offers ++ [o]) new := by
  have hself : o ∈ offers ++ [o] := List.mem_append_right _ List.mem_cons_self
  refine ⟨?_, ⟨o, hself, htarget.symm, hrank.symm⟩, ?_⟩
  · intro x hx hx'
    rw [hrank]
    rcases List.mem_append.mp hx with hx | hx
    · exact (hworse x hx (hx'.trans htarget)).le
    · rw [List.mem_singleton.mp hx]
  · intro l
    rw [hlabels]
    constructor
    · intro hl
      exact ⟨o, hself, htarget.symm, hrank.symm, hl⟩
    · rintro ⟨x, hx, hx', hequal, hl⟩
      rcases List.mem_append.mp hx with hx | hx
      · exact absurd (hequal.trans hrank) (hworse x hx (hx'.trans htarget)).ne'
      · rw [List.mem_singleton.mp hx] at hl
        exact hl

theorem congr (h : Best a b offers e) (htarget : b.target new = b.target e) (hrank : b.rank new = b.rank e)
    (hlabels : b.labels new = b.labels e) : Best a b offers new := by
  constructor
  · rw [htarget, hrank]
    exact h.least
  · rw [htarget, hrank]
    exact h.attained
  · rw [htarget, hrank, hlabels]
    exact h.labels

theorem of_mem_iff (h : Best a b offers e) (hmem : ∀ x, x ∈ offers ↔ x ∈ offers') : Best a b offers' e := by
  refine ⟨?_, ?_, ?_⟩
  · intro x hx
    exact h.least x ((hmem x).mpr hx)
  · obtain ⟨x, hx, hrest⟩ := h.attained
    exact ⟨x, (hmem x).mp hx, hrest⟩
  · intro l
    rw [h.labels]
    simp only [hmem]

end Best

theorem ne_of_nodup_map {f : ε → T} (h : ((before ++ e :: after).map f).Nodup) :
    ∀ x ∈ before ++ after, f x ≠ f e := by
  have hmiddle : (before ++ e :: after).Perm (e :: (before ++ after)) := List.perm_middle
  have hnodup := (hmiddle.map f).nodup h
  rw [List.map_cons, List.nodup_cons] at hnodup
  intro x hx hsame
  apply hnodup.1
  rw [← hsame]
  exact List.mem_map_of_mem hx

namespace Selected

theorem unique (h : Selected a b settled offers (before ++ e :: after)) :
    ∀ x ∈ before ++ after, b.target x ≠ b.target e :=
  ne_of_nodup_map h.nodup

theorem extend_settled (h : Selected a b settled offers entries) (ho : settled (a.target o)) :
    Selected a b settled (offers ++ [o]) entries := by
  refine ⟨h.unsettled, h.nodup, ?_, ?_⟩
  · intro e he
    apply (h.best e he).irrelevant
    intro htarget
    rw [htarget] at ho
    exact absurd ho (h.unsettled e he)
  · intro x hx hno
    rcases List.mem_append.mp hx with hx | hx
    · exact h.complete x hx hno
    · rw [List.mem_singleton.mp hx] at hno
      exact absurd ho hno

theorem replace (h : Selected a b settled offers (before ++ e :: after))
    (hperm : entries.Perm (new :: (before ++ after))) (he : b.target e = a.target o)
    (hnew : b.target new = a.target o) (hbest : Best a b (offers ++ [o]) new) :
    Selected a b settled (offers ++ [o]) entries := by
  have hmiddle : (before ++ e :: after).Perm (e :: (before ++ after)) := List.perm_middle
  have hmem (x : ε) : x ∈ entries ↔ x = new ∨ x ∈ before ++ after := by
    rw [hperm.mem_iff, List.mem_cons]
  have hrest (x : ε) (hx : x ∈ before ++ after) : x ∈ before ++ e :: after :=
    hmiddle.mem_iff.mpr (List.mem_cons_of_mem _ hx)
  refine ⟨?_, ?_, ?_, ?_⟩
  · intro x hx
    rcases (hmem x).mp hx with rfl | hx
    · rw [hnew, ← he]
      exact h.unsettled e (List.mem_append_right _ List.mem_cons_self)
    · exact h.unsettled x (hrest x hx)
  · apply (hperm.map _).symm.nodup
    rw [List.map_cons, hnew, ← he]
    exact (hmiddle.map b.target).nodup h.nodup
  · intro x hx
    rcases (hmem x).mp hx with rfl | hx
    · exact hbest
    · apply (h.best x (hrest x hx)).irrelevant
      intro htarget
      exact absurd (htarget.symm.trans he.symm) (h.unique x hx)
  · intro x hx hno
    rcases List.mem_append.mp hx with hx | hx
    · obtain ⟨y, hy, htarget⟩ := h.complete x hx hno
      rcases List.mem_cons.mp (hmiddle.mem_iff.mp hy) with rfl | hy
      · exact ⟨new, (hmem new).mpr (.inl rfl), by rw [hnew, ← he, htarget]⟩
      · exact ⟨y, (hmem y).mpr (.inr hy), htarget⟩
    · rw [List.mem_singleton.mp hx]
      exact ⟨new, (hmem new).mpr (.inl rfl), hnew⟩

theorem append (h : Selected a b settled offers entries) (ho : ¬ settled (a.target o))
    (hno : ∀ e ∈ entries, b.target e ≠ a.target o) (hnew : b.target new = a.target o)
    (hrank : b.rank new = a.rank o) (hlabels : b.labels new = a.labels o) :
    Selected a b settled (offers ++ [o]) (entries ++ [new]) := by
  have hnone : ∀ x ∈ offers, a.target x = a.target o → a.rank o < a.rank x := by
    intro x hx htarget
    obtain ⟨y, hy, hy'⟩ := h.complete x hx (by rwa [htarget])
    exact absurd (hy'.trans htarget) (hno y hy)
  refine ⟨?_, ?_, ?_, ?_⟩
  · intro x hx
    rcases List.mem_append.mp hx with hx | hx
    · exact h.unsettled x hx
    · rwa [List.mem_singleton.mp hx, hnew]
  · rw [List.map_append, List.nodup_append]
    refine ⟨h.nodup, List.nodup_singleton _, ?_⟩
    intro x hx y hy
    rw [List.map_singleton, List.mem_singleton] at hy
    obtain ⟨e, he, rfl⟩ := List.mem_map.mp hx
    rw [hy, hnew]
    exact hno e he
  · intro x hx
    rcases List.mem_append.mp hx with hx | hx
    · apply (h.best x hx).irrelevant
      intro htarget
      exact absurd htarget.symm (hno x hx)
    · rw [List.mem_singleton.mp hx]
      exact .only hnew hrank hlabels hnone
  · intro x hx hx'
    rcases List.mem_append.mp hx with hx | hx
    · obtain ⟨y, hy, htarget⟩ := h.complete x hx hx'
      exact ⟨y, List.mem_append_left _ hy, htarget⟩
    · rw [List.mem_singleton.mp hx]
      exact ⟨new, List.mem_append_right _ List.mem_cons_self, hnew⟩

end Selected

end

end InetManet.Offers
