import Mathlib.Order.Basic
import Mathlib.Order.MinMax
import Mathlib.Data.List.Basic

/-!
# Lists of half-open regions

A receiver that accepts pieces of a stream in any order keeps what it has as a list of half-open
regions and merges every new piece into that list: regions that overlap or touch the piece are
joined with it. `merge` is this one-pass insertion, written against a strict comparison `less` and
a reflexive one `ge`, so that it can be run on wrapped counters as well as on plain positions.

For a linear order, a list of nonempty, pairwise separated regions stays one, and the merged list
covers exactly what the old list and the new piece cover. For an order that only approximates a
linear one, `merge_map` transports the whole run of `merge` along any map that respects the two
comparisons on the values that occur.
-/

namespace InetManet.RegionList

/-- A half-open range of values. -/
structure Region (α : Type*) where
  lower : α
  upper : α
  deriving DecidableEq, Repr

namespace Region

variable {α β : Type*}

def map (f : α → β) (r : Region α) : Region β := ⟨f r.lower, f r.upper⟩

@[simp] theorem map_lower (f : α → β) (r : Region α) : (r.map f).lower = f r.lower := rfl
@[simp] theorem map_upper (f : α → β) (r : Region α) : (r.map f).upper = f r.upper := rfl

end Region

section Algorithm

variable {α β : Type*}

/-- Extend `r` over the following regions it has grown into. -/
def absorb (less ge : α → α → Bool) (r : Region α) : List (Region α) → List (Region α)
  | [] => [r]
  | next :: rest =>
      if ge r.upper next.lower then
        absorb less ge
          { r with upper := if less r.upper next.upper then next.upper else r.upper } rest
      else r :: next :: rest

/-- Insert the piece `t` into a sorted region list. -/
def merge (less ge : α → α → Bool) (t : Region α) : List (Region α) → List (Region α)
  | [] => [t]
  | r :: rest =>
      if less r.upper t.lower then r :: merge less ge t rest
      else if less t.upper r.lower then t :: r :: rest
      else
        let low := if less t.lower r.lower then t.lower else r.lower
        if less r.upper t.upper then absorb less ge ⟨low, t.upper⟩ rest
        else ⟨low, r.upper⟩ :: rest

/-- Every endpoint of a region list lies in `S`. -/
def EndpointsIn (S : Set α) (l : List (Region α)) : Prop :=
  ∀ r ∈ l, r.lower ∈ S ∧ r.upper ∈ S

theorem EndpointsIn.cons {S : Set α} {r : Region α} {l : List (Region α)}
    (hr : r.lower ∈ S ∧ r.upper ∈ S) (hl : EndpointsIn S l) : EndpointsIn S (r :: l) := by
  intro x hx
  rcases List.mem_cons.mp hx with rfl | hx
  · exact hr
  · exact hl x hx

theorem EndpointsIn.head {S : Set α} {r : Region α} {l : List (Region α)}
    (h : EndpointsIn S (r :: l)) : r.lower ∈ S ∧ r.upper ∈ S := h r (by simp)

theorem EndpointsIn.tail {S : Set α} {r : Region α} {l : List (Region α)}
    (h : EndpointsIn S (r :: l)) : EndpointsIn S l := fun x hx ↦ h x (by simp [hx])

variable {lessα geα : α → α → Bool} {lessβ geβ : β → β → Bool} {f : α → β} {S : Set α}

theorem absorb_endpointsIn {r : Region α} {l : List (Region α)}
    (hr : r.lower ∈ S ∧ r.upper ∈ S) (hl : EndpointsIn S l) :
    EndpointsIn S (absorb lessα geα r l) := by
  induction l generalizing r with
  | nil => exact EndpointsIn.cons hr hl
  | cons next rest ih =>
    unfold absorb
    split
    · refine ih ⟨hr.1, ?_⟩ hl.tail
      dsimp only
      split
      · exact hl.head.2
      · exact hr.2
    · exact EndpointsIn.cons hr hl

/-- The endpoints of a merged list are endpoints that were there before. -/
theorem merge_endpointsIn {t : Region α} {l : List (Region α)}
    (hseg : t.lower ∈ S ∧ t.upper ∈ S) (hl : EndpointsIn S l) :
    EndpointsIn S (merge lessα geα t l) := by
  induction l with
  | nil => exact EndpointsIn.cons hseg hl
  | cons r rest ih =>
    have hlow : (if lessα t.lower r.lower then t.lower else r.lower) ∈ S := by
      split
      · exact hseg.1
      · exact hl.head.1
    unfold merge
    split
    · exact EndpointsIn.cons hl.head (ih hl.tail)
    · split
      · exact EndpointsIn.cons hseg hl
      · dsimp only
        split
        · exact absorb_endpointsIn ⟨hlow, hseg.2⟩ hl.tail
        · exact EndpointsIn.cons ⟨hlow, hl.head.2⟩ hl.tail

/-- `f` respects both comparisons on `S`. -/
def Respects (lessα geα : α → α → Bool) (lessβ geβ : β → β → Bool) (f : α → β) (S : Set α) : Prop :=
  ∀ x ∈ S, ∀ y ∈ S, lessβ (f x) (f y) = lessα x y ∧ geβ (f x) (f y) = geα x y

theorem absorb_map (hf : Respects lessα geα lessβ geβ f S) {r : Region α} {l : List (Region α)}
    (hr : r.lower ∈ S ∧ r.upper ∈ S) (hl : EndpointsIn S l) :
    absorb lessβ geβ (r.map f) (l.map (Region.map f)) =
      (absorb lessα geα r l).map (Region.map f) := by
  induction l generalizing r with
  | nil => rfl
  | cons next rest ih =>
    have hge := (hf r.upper hr.2 next.lower hl.head.1).2
    have hless := (hf r.upper hr.2 next.upper hl.head.2).1
    simp only [List.map_cons, absorb, Region.map_lower, Region.map_upper, hge, hless]
    by_cases hcond : geα r.upper next.lower = true
    · rw [if_pos hcond, if_pos hcond]
      by_cases hup : lessα r.upper next.upper = true
      · simp only [hup, if_true]
        exact ih (r := ⟨r.lower, next.upper⟩) ⟨hr.1, hl.head.2⟩ hl.tail
      · simp only [hup]
        exact ih (r := ⟨r.lower, r.upper⟩) hr hl.tail
    · rw [if_neg hcond, if_neg hcond]
      rfl

theorem merge_map (hf : Respects lessα geα lessβ geβ f S) {t : Region α} {l : List (Region α)}
    (hseg : t.lower ∈ S ∧ t.upper ∈ S) (hl : EndpointsIn S l) :
    merge lessβ geβ (t.map f) (l.map (Region.map f)) =
      (merge lessα geα t l).map (Region.map f) := by
  induction l with
  | nil => rfl
  | cons r rest ih =>
    have h₁ := (hf r.upper hl.head.2 t.lower hseg.1).1
    have h₂ := (hf t.upper hseg.2 r.lower hl.head.1).1
    have h₃ := (hf t.lower hseg.1 r.lower hl.head.1).1
    have h₄ := (hf r.upper hl.head.2 t.upper hseg.2).1
    have hlow : (if lessα t.lower r.lower then f t.lower else f r.lower) =
        f (if lessα t.lower r.lower then t.lower else r.lower) := by split <;> rfl
    have hlowS : (if lessα t.lower r.lower then t.lower else r.lower) ∈ S := by
      split
      · exact hseg.1
      · exact hl.head.1
    simp only [List.map_cons, merge, Region.map_lower, Region.map_upper, h₁, h₂, h₃, h₄, hlow]
    split
    · rw [List.map_cons, ih hl.tail]
    · split
      · rfl
      · split
        · exact absorb_map hf (r := ⟨_, t.upper⟩) ⟨hlowS, hseg.2⟩ hl.tail
        · rfl

end Algorithm

section LinearOrder

variable {α : Type*} [LinearOrder α]

/-- The comparisons of a linear order, as `merge` takes them. -/
def lessOf (x y : α) : Bool := decide (x < y)
def geOf (x y : α) : Bool := decide (y ≤ x)

/-- The insertion on plain, unwrapped positions. -/
def insert (t : Region α) (l : List (Region α)) : List (Region α) := merge lessOf geOf t l

/-- Nonempty regions, in increasing order, no two of them touching. -/
structure Normal (l : List (Region α)) : Prop where
  nonempty : ∀ r ∈ l, r.lower < r.upper
  separated : l.Pairwise fun r s ↦ r.upper < s.lower

def Covers (l : List (Region α)) (x : α) : Prop := ∃ r ∈ l, r.lower ≤ x ∧ x < r.upper

@[simp] theorem covers_nil (x : α) : ¬ Covers ([] : List (Region α)) x := by simp [Covers]

@[simp] theorem covers_cons (r : Region α) (l : List (Region α)) (x : α) :
    Covers (r :: l) x ↔ (r.lower ≤ x ∧ x < r.upper) ∨ Covers l x := by simp [Covers]

theorem normal_nil : Normal ([] : List (Region α)) := ⟨by simp, List.Pairwise.nil⟩

section

variable {l : List (Region α)}

theorem normal_cons {r : Region α} :
    Normal (r :: l) ↔ r.lower < r.upper ∧ (∀ s ∈ l, r.upper < s.lower) ∧ Normal l := by
  constructor
  · intro h
    have hs := List.pairwise_cons.mp h.separated
    exact ⟨h.nonempty r (by simp), hs.1, fun s hs' ↦ h.nonempty s (by simp [hs']), hs.2⟩
  · rintro ⟨hr, hsep, hl⟩
    refine ⟨fun s hs ↦ ?_, List.pairwise_cons.mpr ⟨hsep, hl.separated⟩⟩
    rcases List.mem_cons.mp hs with rfl | hs
    · exact hr
    · exact hl.nonempty s hs

/-- Absorbing keeps the lower end of the growing region in front of a normal list. -/
theorem absorb_normal {r : Region α} (hr : r.lower < r.upper)
    (hl : Normal l) (hlow : ∀ s ∈ l, r.lower < s.lower) :
    ∃ top rest, absorb lessOf geOf r l = ⟨r.lower, top⟩ :: rest ∧ r.upper ≤ top ∧
      Normal (⟨r.lower, top⟩ :: rest) ∧
      ∀ x, Covers (⟨r.lower, top⟩ :: rest) x ↔ (r.lower ≤ x ∧ x < r.upper) ∨ Covers l x := by
  induction l generalizing r with
  | nil => exact ⟨r.upper, [], rfl, le_rfl, normal_cons.mpr ⟨hr, by simp, normal_nil⟩, by simp⟩
  | cons next rest ih =>
    obtain ⟨hnext, hsep, hrest⟩ := normal_cons.mp hl
    unfold absorb
    by_cases htouch : next.lower ≤ r.upper
    · -- the grown region reaches `next`: continue with the union of the two
      rw [if_pos (by simpa [geOf] using htouch)]
      have hsup : (if lessOf r.upper next.upper then next.upper else r.upper) =
          max r.upper next.upper := by
        by_cases hlt : r.upper < next.upper
        · simp [lessOf, hlt, max_eq_right hlt.le]
        · simp [lessOf, hlt, max_eq_left (not_lt.mp hlt)]
      rw [hsup]
      obtain ⟨top, tail, heq, htop, hnormal, hcover⟩ :=
        ih (r := ⟨r.lower, max r.upper next.upper⟩) (lt_of_lt_of_le hr (le_max_left _ _)) hrest
          (fun s hs ↦ hlow s (by simp [hs]))
      refine ⟨top, tail, heq, (le_max_left _ _).trans htop, hnormal, fun x ↦ ?_⟩
      rw [hcover x, covers_cons]
      have hjoin : (r.lower ≤ x ∧ x < max r.upper next.upper) ↔
          (r.lower ≤ x ∧ x < r.upper) ∨ (next.lower ≤ x ∧ x < next.upper) := by
        have hlow' := hlow next (by simp)
        constructor
        · rintro ⟨hx, hx'⟩
          rcases lt_max_iff.mp hx' with hx' | hx'
          · exact .inl ⟨hx, hx'⟩
          · rcases lt_or_ge x r.upper with hx'' | hx''
            · exact .inl ⟨hx, hx''⟩
            · exact .inr ⟨htouch.trans hx'', hx'⟩
        · rintro (⟨hx, hx'⟩ | ⟨hx, hx'⟩)
          · exact ⟨hx, lt_max_of_lt_left hx'⟩
          · exact ⟨hlow'.le.trans hx, lt_max_of_lt_right hx'⟩
      rw [hjoin, or_assoc]
    · rw [if_neg (by simpa [geOf] using htouch)]
      have hgap : r.upper < next.lower := not_le.mp htouch
      refine ⟨r.upper, next :: rest, rfl, le_rfl, normal_cons.mpr ⟨hr, ?_, hl⟩, by simp⟩
      intro s hs
      rcases List.mem_cons.mp hs with rfl | hs
      · exact hgap
      · exact (hgap.trans hnext).trans (hsep s hs)

/-- The lower end of the region that results from joining a piece with a region it meets. -/
theorem joined_lower (x y : α) : (if lessOf x y then x else y) = min x y := by
  by_cases h : x < y
  · simp [lessOf, h, min_eq_left h.le]
  · simp [lessOf, h, min_eq_right (not_lt.mp h)]

theorem insert_cons (t r : Region α) (rest : List (Region α)) :
    insert t (r :: rest) =
      if r.upper < t.lower then r :: insert t rest
      else if t.upper < r.lower then t :: r :: rest
      else if r.upper < t.upper then
        absorb lessOf geOf ⟨min t.lower r.lower, t.upper⟩ rest
      else ⟨min t.lower r.lower, r.upper⟩ :: rest := by
  simp only [insert, merge, joined_lower]
  simp only [lessOf, decide_eq_true_eq]

/-- A value bound on all endpoints survives the insertion. -/
theorem insert_lower_gt {b : α} {t : Region α} (hseg : b < t.lower)
    (hpiece : t.lower < t.upper) (hl : Normal l) (hb : ∀ s ∈ l, b < s.lower) :
    ∀ s ∈ insert t l, b < s.lower := by
  have hall : EndpointsIn {x | b < x} (insert t l) :=
    merge_endpointsIn (S := {x | b < x}) ⟨hseg, hseg.trans hpiece⟩
      (fun s hs ↦ ⟨hb s hs, (hb s hs).trans (hl.nonempty s hs)⟩)
  exact fun s hs ↦ (hall s hs).1

theorem insert_upper_le {b : α} {t : Region α}
    (hpiece : t.lower < t.upper) (hl : Normal l) (hseg : t.upper ≤ b)
    (hb : ∀ s ∈ l, s.upper ≤ b) : ∀ s ∈ insert t l, s.upper ≤ b := by
  have hall : EndpointsIn {x | x ≤ b} (insert t l) :=
    merge_endpointsIn (S := {x | x ≤ b}) ⟨hpiece.le.trans hseg, hseg⟩
      (fun s hs ↦ ⟨(hl.nonempty s hs).le.trans (hb s hs), hb s hs⟩)
  exact fun s hs ↦ (hall s hs).2

/-- Joining a piece with a region it touches covers the two of them. -/
theorem join_covers {t r : Region α}
    (h₁ : t.lower ≤ r.upper) (h₂ : r.lower ≤ t.upper) (x : α) :
    (min t.lower r.lower ≤ x ∧ x < max t.upper r.upper) ↔
      (t.lower ≤ x ∧ x < t.upper) ∨ (r.lower ≤ x ∧ x < r.upper) := by
  simp only [min_le_iff, lt_max_iff]
  constructor
  · rintro ⟨hx | hx, hx' | hx'⟩
    · exact .inl ⟨hx, hx'⟩
    · rcases lt_or_ge x t.upper with h | h
      · exact .inl ⟨hx, h⟩
      · exact .inr ⟨h₂.trans h, hx'⟩
    · rcases lt_or_ge x r.upper with h | h
      · exact .inr ⟨hx, h⟩
      · exact .inl ⟨h₁.trans h, hx'⟩
    · exact .inr ⟨hx, hx'⟩
  · rintro (⟨hx, hx'⟩ | ⟨hx, hx'⟩)
    · exact ⟨.inl hx, .inl hx'⟩
    · exact ⟨.inr hx, .inr hx'⟩

/-- Insertion keeps the list normal and covers the old regions and the new piece, nothing else. -/
theorem insert_normal {t : Region α} (hseg : t.lower < t.upper) (hl : Normal l) :
    Normal (insert t l) ∧
      ∀ x, Covers (insert t l) x ↔ (t.lower ≤ x ∧ x < t.upper) ∨ Covers l x := by
  induction l with
  | nil => exact ⟨normal_cons.mpr ⟨hseg, by simp, normal_nil⟩, by simp [insert, merge]⟩
  | cons r rest ih =>
    obtain ⟨hr, hsep, hrest⟩ := normal_cons.mp hl
    obtain ⟨ihNormal, ihCovers⟩ := ih hrest
    rw [insert_cons]
    split
    · -- the piece lies behind `r`
      rename_i hbehind
      refine ⟨normal_cons.mpr ⟨hr, insert_lower_gt hbehind hseg hrest hsep, ihNormal⟩, fun x ↦ ?_⟩
      rw [covers_cons, covers_cons, ihCovers x, or_left_comm]
    rename_i hbehind
    split
    · -- the piece lies in front of `r`
      rename_i hfront
      refine ⟨normal_cons.mpr ⟨hseg, ?_, hl⟩, fun x ↦ covers_cons _ _ x⟩
      intro s hs
      rcases List.mem_cons.mp hs with rfl | hs
      · exact hfront
      · exact (hfront.trans hr).trans (hsep s hs)
    rename_i hfront
    -- the piece touches `r`
    have hjoin := join_covers (not_lt.mp hbehind) (not_lt.mp hfront)
    have hminle : min t.lower r.lower ≤ r.lower := min_le_right _ _
    split
    · rename_i hgrow
      obtain ⟨top, tail, heq, -, hnormal, hcover⟩ :=
        absorb_normal (r := ⟨min t.lower r.lower, t.upper⟩)
          (lt_of_le_of_lt (min_le_left _ _) hseg) hrest
          (fun s hs ↦ (hminle.trans_lt hr).trans (hsep s hs))
      rw [heq]
      refine ⟨hnormal, fun x ↦ ?_⟩
      rw [hcover x, covers_cons, ← or_assoc, ← hjoin x, max_eq_left hgrow.le]
    · rename_i hgrow
      refine ⟨normal_cons.mpr ⟨hminle.trans_lt hr, hsep, hrest⟩, fun x ↦ ?_⟩
      rw [covers_cons, covers_cons, ← or_assoc, ← hjoin x, max_eq_right (not_lt.mp hgrow)]

/-- A piece in front of all regions becomes, possibly extended, the first region. -/
theorem insert_front {t : Region α} (hseg : t.lower < t.upper)
    (hl : Normal l) (hfront : ∀ s ∈ l, t.lower < s.lower) :
    ∃ top rest, insert t l = ⟨t.lower, top⟩ :: rest ∧ t.upper ≤ top := by
  cases l with
  | nil => exact ⟨t.upper, [], rfl, le_rfl⟩
  | cons r rest =>
    obtain ⟨hr, hsep, hrest⟩ := normal_cons.mp hl
    have hlow : t.lower < r.lower := hfront r (by simp)
    rw [insert_cons, if_neg (not_lt.mpr (hlow.trans hr).le), min_eq_left hlow.le]
    split
    · exact ⟨t.upper, r :: rest, rfl, le_rfl⟩
    split
    · obtain ⟨top, tail, heq, htop, -⟩ := absorb_normal (r := ⟨t.lower, t.upper⟩) hseg hrest
        (fun s hs ↦ hfront s (by simp [hs]))
      exact ⟨top, tail, heq, htop⟩
    · rename_i hgrow
      exact ⟨r.upper, rest, rfl, not_lt.mp hgrow⟩

theorem Normal.not_covers_upper {r : Region α} (h : Normal (r :: l)) :
    ¬ Covers (r :: l) r.upper := by
  obtain ⟨-, hsep, -⟩ := normal_cons.mp h
  intro hc
  rcases (covers_cons r l r.upper).mp hc with hself | ⟨s, hs, hle, -⟩
  · exact lt_irrefl _ hself.2
  · exact absurd (hsep s hs) (not_lt.mpr hle)

theorem Normal.covers_lower {s : Region α} (h : Normal l) (hs : s ∈ l) :
    Covers l s.lower :=
  ⟨s, hs, le_rfl, h.nonempty s hs⟩

/-- What is covered from the least value up to the first missing one is the first region. -/
theorem Normal.eq_cons {a b : α} (h : Normal l) (hab : a < b)
    (hleast : ∀ x, Covers l x → a ≤ x) (hall : ∀ x, a ≤ x → x < b → Covers l x)
    (hb : ¬ Covers l b) : ∃ rest, l = ⟨a, b⟩ :: rest := by
  cases l with
  | nil => exact absurd (hall a le_rfl hab) (covers_nil a)
  | cons r rest =>
    obtain ⟨hr, hsep, -⟩ := normal_cons.mp h
    have hlow : a ≤ r.lower := hleast _ (h.covers_lower (by simp))
    have hlower : r.lower = a := by
      apply le_antisymm _ hlow
      rcases (covers_cons r rest a).mp (hall a le_rfl hab) with hself | ⟨s, hs, hle, -⟩
      · exact hself.1
      · exact absurd (hle.trans hlow) (not_le.mpr (hr.trans (hsep s hs)))
    have hupper : r.upper = b := by
      apply le_antisymm
      · by_contra hlt
        exact hb ((covers_cons r rest b).mpr (.inl ⟨hlower ▸ hab.le, not_le.mp hlt⟩))
      · by_contra hlt
        exact h.not_covers_upper (hall _ (hlow.trans hr.le) (not_le.mp hlt))
    exact ⟨rest, by rw [← hlower, ← hupper]⟩

end

theorem covers_append (l l' : List (Region α)) (x : α) :
    Covers (l ++ l') x ↔ Covers l x ∨ Covers l' x := by
  simp only [Covers, List.mem_append, or_and_right, exists_or]

theorem Normal.replace {r : Region α} {l l' mid : List (Region α)} (h : Normal (l ++ r :: l'))
    (hmid : Normal mid) (hin : ∀ s ∈ mid, r.lower ≤ s.lower ∧ s.upper ≤ r.upper) :
    Normal (l ++ (mid ++ l')) := by
  obtain ⟨hl, hr, hlr⟩ := List.pairwise_append.mp h.separated
  obtain ⟨hrl', hl'⟩ := List.pairwise_cons.mp hr
  constructor
  · intro s hs
    rcases List.mem_append.mp hs with hs | hs
    · exact h.nonempty s (List.mem_append_left _ hs)
    · rcases List.mem_append.mp hs with hs | hs
      · exact hmid.nonempty s hs
      · exact h.nonempty s (List.mem_append_right _ (List.mem_cons_of_mem _ hs))
  · apply List.pairwise_append.mpr ⟨hl, List.pairwise_append.mpr ⟨hmid.separated, hl', ?_⟩, ?_⟩
    · intro s hs s' hs'
      exact (hin s hs).2.trans_lt (hrl' s' hs')
    · intro s hs s' hs'
      rcases List.mem_append.mp hs' with hs' | hs'
      · exact (hlr s hs r List.mem_cons_self).trans_le (hin s' hs').1
      · exact hlr s hs s' (List.mem_cons_of_mem _ hs')

theorem Normal.not_covers_others {r : Region α} {l l' : List (Region α)} {x : α}
    (h : Normal (l ++ r :: l')) (hx : r.lower ≤ x) (hx' : x < r.upper) :
    ¬ Covers l x ∧ ¬ Covers l' x := by
  obtain ⟨-, hr, hlr⟩ := List.pairwise_append.mp h.separated
  constructor
  · rintro ⟨s, hs, -, hlt⟩
    exact absurd (hlr s hs r List.mem_cons_self) (not_lt.mpr (hx.trans hlt.le))
  · rintro ⟨s, hs, hle, -⟩
    exact absurd ((List.pairwise_cons.mp hr).1 s hs) (not_lt.mpr (hle.trans hx'.le))

/-- When a region is replaced by what it covers but one value, the list loses just this value. -/
theorem Normal.covers_replace {r : Region α} {l mid l' : List (Region α)} {y : α}
    (h : Normal (l ++ r :: l')) (hy : r.lower ≤ y) (hy' : y < r.upper)
    (hmid : ∀ x, Covers mid x ↔ (r.lower ≤ x ∧ x < r.upper) ∧ x ≠ y) (x : α) :
    Covers (l ++ (mid ++ l')) x ↔ Covers (l ++ r :: l') x ∧ x ≠ y := by
  obtain ⟨hl, hl'⟩ := h.not_covers_others hy hy'
  rw [covers_append, covers_append, covers_append, covers_cons, hmid]
  constructor
  · rintro (hx | hx | hx)
    · exact ⟨.inl hx, fun hxy ↦ hl (hxy ▸ hx)⟩
    · exact ⟨.inr (.inl hx.1), hx.2⟩
    · exact ⟨.inr (.inr hx), fun hxy ↦ hl' (hxy ▸ hx)⟩
  · rintro ⟨hx | hx | hx, hxy⟩
    · exact .inl hx
    · exact .inr (.inl ⟨hx, hxy⟩)
    · exact .inr (.inr hx)

end LinearOrder

end InetManet.RegionList
