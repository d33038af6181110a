import InetManet.Library.Dijkstra

/-!
# Labels along shortest paths

Dijkstra's search, where each vertex collects labels from the vertices before it. A shorter path replaces
the labels of a candidate and a path of the same length adds to them. The vertex over which a candidate was
first found is kept as its parent, whatever is found later. Of two candidates at the same distance one that
is not `late` is taken first; an edge either has a cost or leads to a late vertex from one that is not.
-/

namespace InetManet.Dijkstra

variable {V L : Type}

structure LabelledSearch (V L : Type) extends Search V where
  labels : V → List L
  parent : V → V

namespace LabelledSearch

variable [DecidableEq V] (f : List L → V → V → V → List L)

section

variable (s : LabelledSearch V L)

/-- What `v` contributes to `w`, from the labels and the parent of `v`. -/
def contribution (v w : V) : List L := f (s.labels v) (s.parent v) v w

/-- The vertex `w` is found at distance `d` over `v`. -/
def visit (v : V) (d : ℕ) (w : V) : LabelledSearch V L :=
  if w ∈ s.tree then s
  else if w ∈ s.candidates then
    if s.dist w < d then s
    else if d < s.dist w then
      { s with
        dist := Function.update s.dist w d
        labels := Function.update s.labels w (s.contribution f v w) }
    else { s with labels := Function.update s.labels w (s.labels w ++ s.contribution f v w) }
  else
    { s with
      candidates := s.candidates ++ [w]
      dist := Function.update s.dist w d
      labels := Function.update s.labels w (s.labels w ++ s.contribution f v w)
      parent := Function.update s.parent w v }

def expand (v : V) (es : List (V × ℕ)) : LabelledSearch V L :=
  es.foldl (fun s e ↦ s.visit f v (s.dist v + e.2) e.1) s

def select (w : V) : LabelledSearch V L := { s with toSearch := s.toSearch.select w }

end

variable {f} {s : LabelledSearch V L} {v w : V} {d : ℕ}

theorem toSearch_visit : (s.visit f v d w).toSearch = s.toSearch.visit d w := by
  unfold visit Search.visit
  split
  · rfl
  · split
    · by_cases hlt : s.dist w < d
      · rw [if_pos hlt, if_neg hlt.not_gt]
      · rw [if_neg hlt]
        split <;> rfl
    · rfl

theorem toSearch_expand (es : List (V × ℕ)) : (s.expand f v es).toSearch = s.toSearch.expand v es := by
  unfold expand Search.expand
  induction es generalizing s with
  | nil => rfl
  | cons e es ih => rw [List.foldl_cons, List.foldl_cons, ih, toSearch_visit]

theorem visit_of_mem (h : w ∈ s.tree) : s.visit f v d w = s := by rw [visit, if_pos h]

theorem visit_farther (hcand : w ∈ s.candidates) (h : s.dist w < d) : s.visit f v d w = s := by
  by_cases htree : w ∈ s.tree
  · exact visit_of_mem htree
  · rw [visit, if_neg htree, if_pos hcand, if_pos h]

theorem tree_visit : (s.visit f v d w).tree = s.tree := by rw [toSearch_visit, Search.tree_visit]

theorem dist_visit_of_ne {x : V} (h : x ≠ w) : (s.visit f v d w).dist x = s.dist x := by
  unfold visit
  split
  · rfl
  · split
    · split
      · rfl
      · split
        · exact Function.update_of_ne h _ _
        · rfl
    · exact Function.update_of_ne h _ _

theorem labels_visit_of_ne {x : V} (h : x ≠ w) : (s.visit f v d w).labels x = s.labels x := by
  unfold visit
  split
  · rfl
  · split
    · split
      · rfl
      · split <;> exact Function.update_of_ne h _ _
    · exact Function.update_of_ne h _ _

theorem parent_visit_of_ne {x : V} (h : x ≠ w) : (s.visit f v d w).parent x = s.parent x := by
  unfold visit
  split
  · rfl
  · split
    · split
      · rfl
      · split <;> rfl
    · exact Function.update_of_ne h _ _

theorem contribution_visit_of_ne {x y : V} (h : x ≠ w) :
    (s.visit f v d w).contribution f x y = s.contribution f x y := by
  rw [contribution, contribution, labels_visit_of_ne h, parent_visit_of_ne h]

/-- A vertex that is not on the tree is found, no farther than before. -/
theorem visit_near (htree : w ∉ s.tree) (hnear : w ∈ s.candidates → d ≤ s.dist w)
    (hfresh : w ∉ s.candidates → s.labels w = []) :
    (∀ x, x ∈ (s.visit f v d w).candidates ↔ x ∈ s.candidates ∨ x = w) ∧ (s.visit f v d w).dist w = d ∧
      (∀ l, l ∈ (s.visit f v d w).labels w ↔
        l ∈ s.contribution f v w ∨ w ∈ s.candidates ∧ s.dist w = d ∧ l ∈ s.labels w) ∧
      (s.visit f v d w).parent w = if w ∈ s.candidates then s.parent w else v := by
  rw [visit, if_neg htree]
  by_cases hcand : w ∈ s.candidates
  · have hmem (x : V) : x ∈ s.candidates ↔ x ∈ s.candidates ∨ x = w := by
      rw [or_iff_left_of_imp]
      rintro rfl
      exact hcand
    rw [if_pos hcand, if_neg (hnear hcand).not_gt]
    by_cases hlt : d < s.dist w
    · rw [if_pos hlt]
      refine ⟨hmem, Function.update_self .., ?_, (if_pos hcand).symm⟩
      intro l
      dsimp only
      rw [Function.update_self, or_iff_left]
      rintro ⟨-, heq, -⟩
      exact hlt.ne' heq
    · have heq : s.dist w = d := le_antisymm (not_lt.mp hlt) (hnear hcand)
      rw [if_neg hlt]
      refine ⟨hmem, heq, ?_, (if_pos hcand).symm⟩
      intro l
      dsimp only
      rw [Function.update_self, List.mem_append, or_comm]
      simp only [hcand, heq, true_and]
  · rw [if_neg hcand]
    refine ⟨?_, Function.update_self .., ?_, ?_⟩
    · intro x
      rw [List.mem_append, List.mem_singleton]
    · intro l
      dsimp only
      rw [Function.update_self, hfresh hcand, List.nil_append, or_iff_left]
      rintro ⟨hmem, -⟩
      exact hcand hmem
    · rw [if_neg hcand]
      exact Function.update_self ..

end LabelledSearch

/-- The edge has been followed: its vertex is on the tree, and if it is the last one, the edge is among
those that are done. -/
def Followed (succ : V → List (V × ℕ)) (tree : List V) (v : V) (done : List (V × ℕ)) (p : V) (e : V × ℕ) :
    Prop :=
  p ∈ tree ∧ e ∈ succ p ∧ (p = v → e ∈ done)

/-- Twice the distance, with one more for late vertices. -/
def key (late : V → Bool) (dist : V → ℕ) (x : V) : ℕ := 2 * dist x + (late x).toNat

/-- Each vertex has exactly the contributions over the edges followed so far that are on shortest paths. -/
structure Labelled (succ : V → List (V × ℕ)) (f : List L → V → V → V → List L) (late : V → Bool) (root v : V)
    (done : List (V × ℕ)) (s : LabelledSearch V L) : Prop where
  tree_le : ∀ x ∈ s.tree, key late s.dist x ≤ key late s.dist v
  le_candidate : ∀ x ∈ s.candidates, key late s.dist v ≤ key late s.dist x
  closed : ∀ p e, Followed succ s.tree v done p e →
    (e.1 ∈ s.tree ∨ e.1 ∈ s.candidates) ∧ s.dist e.1 ≤ s.dist p + e.2
  labels : ∀ w, w ∈ s.tree ∨ w ∈ s.candidates → w ≠ root → ∀ l, l ∈ s.labels w ↔
    ∃ p e, Followed succ s.tree v done p e ∧ e.1 = w ∧ s.dist p + e.2 = s.dist w ∧ l ∈ s.contribution f p w
  fresh : ∀ w, w ∉ s.tree → w ∉ s.candidates → s.labels w = []
  parent : ∀ w, w ∈ s.tree ∨ w ∈ s.candidates → w ≠ root →
    (s.parent w = root ↔ ∃ e, Followed succ s.tree v done root e ∧ e.1 = w)
  first : v = root → (∀ x ∈ s.tree, x = root) ∧ ∀ w ∈ s.candidates, s.parent w = root

section

variable {succ : V → List (V × ℕ)} {f : List L → V → V → V → List L} {late : V → Bool} {root v w p : V}
  {done pending : List (V × ℕ)} {s : LabelledSearch V L} {e x : V × ℕ} {tree : List V} {bound : ℕ}

theorem followed_append (hv : v ∈ tree) (he : e ∈ succ v) :
    Followed succ tree v (done ++ [e]) p x ↔ Followed succ tree v done p x ∨ p = v ∧ x = e := by
  constructor
  · rintro ⟨hp, hx, hdone⟩
    by_cases hpv : p = v
    · rcases List.mem_append.mp (hdone hpv) with hold | hnew
      · exact .inl ⟨hp, hx, fun _ ↦ hold⟩
      · exact .inr ⟨hpv, List.mem_singleton.mp hnew⟩
    · exact .inl ⟨hp, hx, fun heq ↦ absurd heq hpv⟩
  · rintro (⟨hp, hx, hdone⟩ | ⟨rfl, rfl⟩)
    · exact ⟨hp, hx, fun hpv ↦ List.mem_append_left _ (hdone hpv)⟩
    · exact ⟨hv, he, fun _ ↦ List.mem_append_right _ List.mem_cons_self⟩

/-- When the next vertex is added, all edges so far have been followed. -/
theorem followed_select (hw : w ∉ tree) :
    Followed succ (tree ++ [w]) w [] p x ↔ Followed succ tree v (succ v) p x := by
  constructor
  · rintro ⟨hp, hx, hdone⟩
    rcases List.mem_append.mp hp with hp | hp
    · refine ⟨hp, hx, ?_⟩
      rintro rfl
      exact hx
    · cases hdone (List.mem_singleton.mp hp)
  · rintro ⟨hp, hx, -⟩
    refine ⟨List.mem_append_left _ hp, hx, ?_⟩
    rintro rfl
    exact absurd hp hw

namespace Labelled

theorem start (dist : V → ℕ) (parent : V → V) :
    Labelled succ f late root root [] ⟨⟨[root], [], dist⟩, fun _ ↦ [], parent⟩ := by
  have hno (p : V) (e : V × ℕ) : ¬ Followed succ [root] root [] p e := by
    rintro ⟨hp, -, hdone⟩
    cases hdone (List.mem_singleton.mp hp)
  refine ⟨?_, nofun, fun p e he ↦ absurd he (hno p e), ?_, fun _ _ _ ↦ rfl, ?_, ?_⟩
  · intro x hx
    rw [List.mem_singleton.mp hx]
  · rintro w (hw | hw) hne
    · exact absurd (List.mem_singleton.mp hw) hne
    · cases hw
  · rintro w (hw | hw) hne
    · exact absurd (List.mem_singleton.mp hw) hne
    · cases hw
  · intro _
    exact ⟨fun x hx ↦ List.mem_singleton.mp hx, nofun⟩

/-- An edge that is on no shortest path, to a vertex that is known. -/
theorem skip (h : Labelled succ f late root v done s) (hv : v ∈ s.tree) (he : e ∈ succ v)
    (hknown : e.1 ∈ s.tree ∨ e.1 ∈ s.candidates) (hfar : s.dist e.1 < s.dist v + e.2) :
    Labelled succ f late root v (done ++ [e]) s := by
  refine ⟨h.tree_le, h.le_candidate, ?_, ?_, h.fresh, ?_, h.first⟩
  · intro p x hx
    rcases (followed_append hv he).mp hx with hold | ⟨rfl, rfl⟩
    · exact h.closed p x hold
    · exact ⟨hknown, hfar.le⟩
  · intro w hw hne l
    rw [h.labels w hw hne l]
    constructor
    · rintro ⟨p, x, hold, hrest⟩
      exact ⟨p, x, (followed_append hv he).mpr (.inl hold), hrest⟩
    · rintro ⟨p, x, hx, rfl, htight, hl⟩
      rcases (followed_append hv he).mp hx with hold | ⟨rfl, rfl⟩
      · exact ⟨p, x, hold, rfl, htight, hl⟩
      · omega
  · intro w hw hne
    rw [h.parent w hw hne]
    constructor
    · rintro ⟨x, hold, hx⟩
      exact ⟨x, (followed_append hv he).mpr (.inl hold), hx⟩
    · rintro ⟨x, hx, rfl⟩
      rcases (followed_append hv he).mp hx with hold | ⟨hroot, rfl⟩
      · exact ⟨x, hold, rfl⟩
      · rcases hw with hw | hw
        · exact absurd ((h.first hroot.symm).1 x.1 hw) hne
        · exact (h.parent x.1 (.inr hw) hne).mp ((h.first hroot.symm).2 x.1 hw)

variable [DecidableEq V]

section

variable (h : Labelled succ f late root v done s) (hv : v ∈ s.tree) (he : e ∈ succ v) (htree : e.1 ∉ s.tree)
  (hnear : e.1 ∈ s.candidates → s.dist v + e.2 ≤ s.dist e.1)

omit [DecidableEq V] in
theorem ne_of_mem_tree (htree : e.1 ∉ s.tree) {y : V} (hy : y ∈ s.tree) : y ≠ e.1 := by
  rintro rfl
  exact htree hy

include hv he in
theorem followed_visit {d : ℕ} :
    Followed succ (s.visit f v d e.1).tree v (done ++ [e]) p x ↔
      Followed succ s.tree v done p x ∨ p = v ∧ x = e := by
  rw [LabelledSearch.tree_visit]
  exact followed_append hv he

include h hv he htree hnear

theorem closed_improve (hx : Followed succ (s.visit f v (s.dist v + e.2) e.1).tree v (done ++ [e]) p x) :
    (x.1 ∈ (s.visit f v (s.dist v + e.2) e.1).tree ∨ x.1 ∈ (s.visit f v (s.dist v + e.2) e.1).candidates) ∧
      (s.visit f v (s.dist v + e.2) e.1).dist x.1 ≤ (s.visit f v (s.dist v + e.2) e.1).dist p + x.2 := by
  obtain ⟨hcandidates, hdist, -, -⟩ := LabelledSearch.visit_near (f := f) (v := v) htree hnear
    (h.fresh e.1 htree)
  rcases (followed_visit hv he).mp hx with hold | ⟨rfl, rfl⟩
  · obtain ⟨hmem, hle⟩ := h.closed p x hold
    rw [LabelledSearch.dist_visit_of_ne (ne_of_mem_tree htree hold.1)]
    by_cases hxe : x.1 = e.1
    · rw [hxe] at hmem hle ⊢
      have hcand := hmem.resolve_left htree
      exact ⟨.inr ((hcandidates _).mpr (.inr rfl)), hdist.le.trans ((hnear hcand).trans hle)⟩
    · rw [LabelledSearch.dist_visit_of_ne hxe, LabelledSearch.tree_visit, hcandidates, or_iff_left hxe]
      exact ⟨hmem, hle⟩
  · rw [LabelledSearch.dist_visit_of_ne (ne_of_mem_tree htree hv), hdist]
    exact ⟨.inr ((hcandidates _).mpr (.inr rfl)), le_rfl⟩

theorem labels_improve (hroot : e.1 ≠ root) (l : L) :
    l ∈ (s.visit f v (s.dist v + e.2) e.1).labels e.1 ↔
      ∃ p x, Followed succ (s.visit f v (s.dist v + e.2) e.1).tree v (done ++ [e]) p x ∧ x.1 = e.1 ∧
        (s.visit f v (s.dist v + e.2) e.1).dist p + x.2 = (s.visit f v (s.dist v + e.2) e.1).dist e.1 ∧
        l ∈ (s.visit f v (s.dist v + e.2) e.1).contribution f p e.1 := by
  obtain ⟨-, hdist, hlabels, -⟩ := LabelledSearch.visit_near (f := f) (v := v) htree hnear
    (h.fresh e.1 htree)
  have hsame (y : V) (hy : y ∈ s.tree) : (s.visit f v (s.dist v + e.2) e.1).dist y = s.dist y :=
    LabelledSearch.dist_visit_of_ne (ne_of_mem_tree htree hy)
  rw [hlabels, hdist]
  constructor
  · rintro (hnew | ⟨hcand, heq, hold⟩)
    · refine ⟨v, e, (followed_visit hv he).mpr (.inr ⟨rfl, rfl⟩), rfl, by rw [hsame v hv], ?_⟩
      rw [LabelledSearch.contribution_visit_of_ne (ne_of_mem_tree htree hv)]
      exact hnew
    · obtain ⟨p, x, hx, hx', htight, hl⟩ := (h.labels e.1 (.inr hcand) hroot l).mp hold
      refine ⟨p, x, (followed_visit hv he).mpr (.inl hx), hx', by rw [hsame p hx.1, htight, heq], ?_⟩
      rw [LabelledSearch.contribution_visit_of_ne (ne_of_mem_tree htree hx.1)]
      exact hl
  · rintro ⟨p, x, hx, hx', htight, hl⟩
    rcases (followed_visit hv he).mp hx with hold | ⟨rfl, rfl⟩
    · rw [hsame p hold.1] at htight
      rw [LabelledSearch.contribution_visit_of_ne (ne_of_mem_tree htree hold.1)] at hl
      obtain ⟨hmem, hle⟩ := h.closed p x hold
      rw [hx'] at hmem hle
      have hcand := hmem.resolve_left htree
      have heq : s.dist e.1 = s.dist v + e.2 := le_antisymm (hle.trans htight.le) (hnear hcand)
      exact .inr ⟨hcand, heq, (h.labels e.1 (.inr hcand) hroot l).mpr
        ⟨p, x, hold, hx', htight.trans heq.symm, hl⟩⟩
    · rw [LabelledSearch.contribution_visit_of_ne (ne_of_mem_tree htree hv)] at hl
      exact .inl hl

theorem parent_improve (hroot : e.1 ≠ root) :
    (s.visit f v (s.dist v + e.2) e.1).parent e.1 = root ↔
      ∃ x, Followed succ (s.visit f v (s.dist v + e.2) e.1).tree v (done ++ [e]) root x ∧ x.1 = e.1 := by
  obtain ⟨-, -, -, hparent⟩ := LabelledSearch.visit_near (f := f) (v := v) htree hnear (h.fresh e.1 htree)
  rw [hparent]
  split
  · rename_i hcand
    rw [h.parent e.1 (.inr hcand) hroot]
    constructor
    · rintro ⟨x, hold, hx⟩
      exact ⟨x, (followed_visit hv he).mpr (.inl hold), hx⟩
    · rintro ⟨x, hx, hx'⟩
      rcases (followed_visit hv he).mp hx with hold | ⟨hv', rfl⟩
      · exact ⟨x, hold, hx'⟩
      · exact (h.parent x.1 (.inr hcand) hroot).mp ((h.first hv'.symm).2 x.1 hcand)
  · rename_i hcand
    constructor
    · rintro rfl
      exact ⟨e, (followed_visit hv he).mpr (.inr ⟨rfl, rfl⟩), rfl⟩
    · rintro ⟨x, hx, hx'⟩
      rcases (followed_visit hv he).mp hx with hold | ⟨hv', -⟩
      · have hmem := (h.closed root x hold).1
        rw [hx'] at hmem
        exact absurd hmem (not_or.mpr ⟨htree, hcand⟩)
      · exact hv'.symm

/-- An edge to a vertex that is new or was not found closer. -/
theorem improve (hpos : (late v).toNat < 2 * e.2 + (late e.1).toNat) :
    Labelled succ f late root v (done ++ [e]) (s.visit f v (s.dist v + e.2) e.1) := by
  obtain ⟨hcandidates, hdist, -, hparent⟩ := LabelledSearch.visit_near (f := f) (v := v) htree hnear
    (h.fresh e.1 htree)
  have hkey (x : V) (hx : x ≠ e.1) :
      key late (s.visit f v (s.dist v + e.2) e.1).dist x = key late s.dist x := by
    rw [key, key, LabelledSearch.dist_visit_of_ne hx]
  have hknown (x : V) (hx : x ≠ e.1) :
      x ∈ (s.visit f v (s.dist v + e.2) e.1).tree ∨ x ∈ (s.visit f v (s.dist v + e.2) e.1).candidates ↔
        x ∈ s.tree ∨ x ∈ s.candidates := by
    rw [LabelledSearch.tree_visit, hcandidates, or_iff_left hx]
  have hvkey := hkey v (ne_of_mem_tree htree hv)
  refine ⟨?_, ?_, fun p x ↦ h.closed_improve hv he htree hnear, ?_, ?_, ?_, ?_⟩
  · intro x hx
    rw [LabelledSearch.tree_visit] at hx
    rw [hkey x (ne_of_mem_tree htree hx), hvkey]
    exact h.tree_le x hx
  · intro x hx
    rw [hvkey]
    by_cases hxe : x = e.1
    · rw [hxe, key, key, hdist]
      omega
    · rw [hkey x hxe]
      exact h.le_candidate x (((hcandidates x).mp hx).resolve_right hxe)
  · intro w hw hroot l
    by_cases hwe : w = e.1
    · subst hwe
      exact h.labels_improve hv he htree hnear hroot l
    · rw [LabelledSearch.labels_visit_of_ne hwe, h.labels w ((hknown w hwe).mp hw) hroot l,
        LabelledSearch.dist_visit_of_ne hwe]
      constructor
      · rintro ⟨p, x, hx, hx', htight, hl⟩
        have hne := ne_of_mem_tree htree hx.1
        refine ⟨p, x, (followed_visit hv he).mpr (.inl hx), hx', ?_, ?_⟩
        · rw [LabelledSearch.dist_visit_of_ne hne, htight]
        · rw [LabelledSearch.contribution_visit_of_ne hne]
          exact hl
      · rintro ⟨p, x, hx, hx', htight, hl⟩
        rcases (followed_visit hv he).mp hx with hold | ⟨rfl, rfl⟩
        · have hne := ne_of_mem_tree htree hold.1
          rw [LabelledSearch.dist_visit_of_ne hne] at htight
          rw [LabelledSearch.contribution_visit_of_ne hne] at hl
          exact ⟨p, x, hold, hx', htight, hl⟩
        · exact absurd hx'.symm hwe
  · intro w hw hw'
    rw [LabelledSearch.tree_visit] at hw
    rw [hcandidates, not_or] at hw'
    rw [LabelledSearch.labels_visit_of_ne hw'.2]
    exact h.fresh w hw hw'.1
  · intro w hw hroot
    by_cases hwe : w = e.1
    · subst hwe
      exact h.parent_improve hv he htree hnear hroot
    · rw [LabelledSearch.parent_visit_of_ne hwe, h.parent w ((hknown w hwe).mp hw) hroot]
      constructor
      · rintro ⟨x, hold, hx⟩
        exact ⟨x, (followed_visit hv he).mpr (.inl hold), hx⟩
      · rintro ⟨x, hx, hx'⟩
        rcases (followed_visit hv he).mp hx with hold | ⟨-, rfl⟩
        · exact ⟨x, hold, hx'⟩
        · exact absurd hx'.symm hwe
  · intro hroot
    rw [LabelledSearch.tree_visit]
    refine ⟨(h.first hroot).1, ?_⟩
    intro w hw
    by_cases hwe : w = e.1
    · rw [hwe, hparent]
      split
      · rename_i hcand
        exact (h.first hroot).2 e.1 hcand
      · exact hroot
    · rw [LabelledSearch.parent_visit_of_ne hwe]
      exact (h.first hroot).2 w (((hcandidates w).mp hw).resolve_right hwe)

end

theorem visit (h : Labelled succ f late root v done s) (hv : v ∈ s.tree) (he : e ∈ succ v)
    (hpos : (late v).toNat < 2 * e.2 + (late e.1).toNat) :
    Labelled succ f late root v (done ++ [e]) (s.visit f v (s.dist v + e.2) e.1) := by
  by_cases htree : e.1 ∈ s.tree
  · rw [LabelledSearch.visit_of_mem htree]
    apply h.skip hv he (.inl htree)
    have hle := h.tree_le e.1 htree
    unfold key at hle
    omega
  · by_cases hfar : e.1 ∈ s.candidates ∧ s.dist e.1 < s.dist v + e.2
    · rw [LabelledSearch.visit_farther hfar.1 hfar.2]
      exact h.skip hv he (.inr hfar.1) hfar.2
    · refine h.improve hv he htree ?_ hpos
      intro hcand
      exact not_lt.mp fun hlt ↦ hfar ⟨hcand, hlt⟩

theorem expand (h : Labelled succ f late root v done s) (hv : v ∈ s.tree)
    (hpending : ∀ e ∈ pending, e ∈ succ v)
    (hpos : ∀ e ∈ pending, (late v).toNat < 2 * e.2 + (late e.1).toNat) :
    Labelled succ f late root v (done ++ pending) (s.expand f v pending) := by
  unfold LabelledSearch.expand
  induction pending generalizing done s with
  | nil => rwa [List.append_nil]
  | cons e pending ih =>
    rw [List.append_cons, List.foldl_cons]
    apply ih (h.visit hv (hpending e List.mem_cons_self) (hpos e List.mem_cons_self))
    · rwa [LabelledSearch.tree_visit]
    · intro x hx
      exact hpending x (List.mem_cons_of_mem e hx)
    · intro x hx
      exact hpos x (List.mem_cons_of_mem e hx)

theorem select (h : Labelled succ f late root v (succ v) s) (hw : w ∈ s.candidates) (htree : w ∉ s.tree)
    (hroot : root ∈ s.tree) (hleast : ∀ x ∈ s.candidates, key late s.dist w ≤ key late s.dist x) :
    Labelled succ f late root w [] (s.select w) := by
  have hknown (x : V) : x ∈ s.tree ++ [w] ∨ x ∈ s.candidates.erase w ↔ x ∈ s.tree ∨ x ∈ s.candidates := by
    rw [List.mem_append, List.mem_singleton, or_assoc]
    apply or_congr_right
    constructor
    · rintro (rfl | hx)
      · exact hw
      · exact List.mem_of_mem_erase hx
    · intro hx
      by_cases hxw : x = w
      · exact .inl hxw
      · exact .inr ((List.mem_erase_of_ne hxw).mpr hx)
  refine ⟨?_, ?_, ?_, ?_, ?_, ?_, ?_⟩
  · intro x hx
    rcases List.mem_append.mp hx with hx | hx
    · exact (h.tree_le x hx).trans (h.le_candidate w hw)
    · rw [List.mem_singleton.mp hx]
  · intro x hx
    exact hleast x (List.mem_of_mem_erase hx)
  · intro p x hx
    obtain ⟨hmem, hle⟩ := h.closed p x ((followed_select htree).mp hx)
    exact ⟨(hknown x.1).mpr hmem, hle⟩
  · intro x hx hne l
    rw [show (s.select w).labels x = s.labels x from rfl, h.labels x ((hknown x).mp hx) hne l]
    constructor
    · rintro ⟨p, y, hy, hrest⟩
      exact ⟨p, y, (followed_select htree).mpr hy, hrest⟩
    · rintro ⟨p, y, hy, hrest⟩
      exact ⟨p, y, (followed_select htree).mp hy, hrest⟩
  · intro x hx hx'
    have hno := not_or.mp (mt (hknown x).mpr (not_or.mpr ⟨hx, hx'⟩))
    exact h.fresh x hno.1 hno.2
  · intro x hx hne
    rw [show (s.select w).parent x = s.parent x from rfl, h.parent x ((hknown x).mp hx) hne]
    constructor
    · rintro ⟨y, hy, hy'⟩
      exact ⟨y, (followed_select htree).mpr hy, hy'⟩
    · rintro ⟨y, hy, hy'⟩
      exact ⟨y, (followed_select htree).mp hy, hy'⟩
  · rintro rfl
    exact absurd hroot htree

end Labelled

end

end InetManet.Dijkstra
