import Mathlib.Data.List.Nodup
import Mathlib.Data.List.Perm.Basic
import Mathlib.Order.Bounds.Basic

/-!
# Dijkstra's search

A search grows a tree from a root. `candidates` are the vertices next to the tree, with the distances
found so far. The vertex that was added last is expanded, and then a candidate is moved to the tree.
If a candidate closer than `bound` is there, the closest one must be chosen; then all distances below
`bound` are right in the end. Beyond it the order does not matter for what is reached.
-/

namespace InetManet.Dijkstra

variable {V : Type}

/-- Paths along the successors, with their total costs. -/
inductive Path (succ : V → List (V × ℕ)) (root : V) : V → ℕ → Prop
  | start : Path succ root root 0
  | step {v : V} {d : ℕ} {e : V × ℕ} : Path succ root v d → e ∈ succ v → Path succ root e.1 (d + e.2)

structure Search (V : Type) where
  tree : List V
  candidates : List V
  dist : V → ℕ

namespace Search

variable [DecidableEq V]

variable (s : Search V)

/-- The vertex `w` is found at distance `d`. -/
def visit (d : ℕ) (w : V) : Search V :=
  if w ∈ s.tree then s
  else if w ∈ s.candidates then
    if d < s.dist w then { s with dist := Function.update s.dist w d } else s
  else { s with candidates := s.candidates ++ [w], dist := Function.update s.dist w d }

/-- The successors of `v` are visited. -/
def expand (v : V) (es : List (V × ℕ)) : Search V :=
  es.foldl (fun s e ↦ s.visit (s.dist v + e.2) e.1) s

theorem tree_visit (d : ℕ) (w : V) : (s.visit d w).tree = s.tree := by
  unfold visit
  split
  · rfl
  · split
    · split <;> rfl
    · rfl

theorem tree_expand (v : V) (es : List (V × ℕ)) : (s.expand v es).tree = s.tree := by
  unfold expand
  induction es generalizing s with
  | nil => rfl
  | cons e es ih =>
    rw [List.foldl_cons, ih]
    exact tree_visit ..

/-- A candidate is moved to the tree. -/
def select (w : V) : Search V :=
  { s with tree := s.tree ++ [w], candidates := s.candidates.erase w }

end Search

/-- All vertices on the tree have been expanded, except that the edges in `pending` of `v` have not
been followed yet. -/
structure Invariant (succ : V → List (V × ℕ)) (root : V) (bound : ℕ) (v : V)
    (pending : List (V × ℕ)) (s : Search V) : Prop where
  nodup : (s.tree ++ s.candidates).Nodup
  sound : ∀ w, w ∈ s.tree ∨ w ∈ s.candidates → Path succ root w (s.dist w)
  root_mem : root ∈ s.tree
  last_mem : v ∈ s.tree
  closed : ∀ x ∈ s.tree, ∀ e ∈ succ x, x = v ∧ e ∈ pending ∨ e.1 ∈ s.tree ∨
    e.1 ∈ s.candidates ∧ s.dist e.1 ≤ s.dist x + e.2
  optimal : ∀ x ∈ s.tree, ∀ d, Path succ root x d → d < bound → s.dist x ≤ d

namespace Invariant

variable {succ : V → List (V × ℕ)} {root v : V} {bound : ℕ} {pending : List (V × ℕ)}
  {s : Search V}

theorem start (root : V) (dist : V → ℕ) (hroot : dist root = 0) :
    Invariant succ root bound root (succ root) ⟨[root], [], dist⟩ := by
  refine ⟨List.nodup_singleton root, fun w hw ↦ ?_, List.mem_singleton_self root,
    List.mem_singleton_self root, fun x hx e he ↦ ?_, fun x hx d _ _ ↦ ?_⟩
  · rcases hw with hw | hw
    · rw [List.mem_singleton.mp hw]
      dsimp only
      rw [hroot]
      exact .start
    · cases hw
  · rw [List.mem_singleton] at hx
    subst hx
    exact .inl ⟨rfl, he⟩
  · rw [List.mem_singleton.mp hx]
    dsimp only
    rw [hroot]
    exact Nat.zero_le d

/-- A path to a vertex outside the tree leaves it over a candidate that is not farther. -/
theorem exists_candidate (h : Invariant succ root bound v [] s) {w : V} {d : ℕ}
    (hpath : Path succ root w d) (hd : d < bound) (hw : w ∉ s.tree) :
    ∃ x ∈ s.candidates, s.dist x ≤ d := by
  induction hpath with
  | start => exact absurd h.root_mem hw
  | @step x dx e hx he ih =>
    by_cases hxtree : x ∈ s.tree
    · have hdx := h.optimal x hxtree dx hx (by omega)
      rcases h.closed x hxtree e he with ⟨_, hnil⟩ | htree | ⟨hcand, hle⟩
      · cases hnil
      · exact absurd htree hw
      · exact ⟨e.1, hcand, by omega⟩
    · obtain ⟨y, hy, hle⟩ := ih (by omega) hxtree
      exact ⟨y, hy, by omega⟩

/-- When no candidates are left, the tree holds exactly what can be reached. -/
theorem mem_tree_iff (h : Invariant succ root bound v [] s) (hdone : s.candidates = []) (w : V) :
    w ∈ s.tree ↔ ∃ d, Path succ root w d := by
  constructor
  · intro hw
    exact ⟨_, h.sound w (.inl hw)⟩
  · rintro ⟨d, hpath⟩
    induction hpath with
    | start => exact h.root_mem
    | @step x dx e _ he ih =>
      rcases h.closed x ih e he with ⟨_, hnil⟩ | htree | ⟨hcand, _⟩
      · cases hnil
      · exact htree
      · rw [hdone] at hcand
        cases hcand

theorem dist_eq (h : Invariant succ root bound v pending s) {w : V} {d : ℕ} (hw : w ∈ s.tree)
    (hd : IsLeast {d | Path succ root w d} d) (hbound : d < bound) : s.dist w = d :=
  le_antisymm (h.optimal w hw d hd.1 hbound) (hd.2 (h.sound w (.inl hw)))

variable [DecidableEq V]

theorem visit {e : V × ℕ} (h : Invariant succ root bound v (e :: pending) s) (he : e ∈ succ v) :
    Invariant succ root bound v pending (s.visit (s.dist v + e.2) e.1) := by
  have hpath : Path succ root e.1 (s.dist v + e.2) := (h.sound v (.inl h.last_mem)).step he
  have hother : ∀ x ∈ s.tree, ∀ e' ∈ succ x, x = v ∧ e' = e ∨ x = v ∧ e' ∈ pending ∨
      e'.1 ∈ s.tree ∨ e'.1 ∈ s.candidates ∧ s.dist e'.1 ≤ s.dist x + e'.2 := by
    intro x hx e' he'
    rcases h.closed x hx e' he' with ⟨hxv, hmem⟩ | hrest
    · rcases List.mem_cons.mp hmem with heq | hmem
      · exact .inl ⟨hxv, heq⟩
      · exact .inr (.inl ⟨hxv, hmem⟩)
    · exact .inr (.inr hrest)
  unfold Search.visit
  split
  · rename_i htree
    refine ⟨h.nodup, h.sound, h.root_mem, h.last_mem, fun x hx e' he' ↦ ?_, h.optimal⟩
    rcases hother x hx e' he' with ⟨_, rfl⟩ | hrest
    · exact .inr (.inl htree)
    · exact hrest
  · rename_i htree
    have hne : ∀ x ∈ s.tree, x ≠ e.1 := by
      rintro x hx rfl
      exact htree hx
    split
    · rename_i hcand
      split
      · rename_i hlt
        refine ⟨h.nodup, fun w hw ↦ ?_, h.root_mem, h.last_mem, fun x hx e' he' ↦ ?_,
          fun x hx d hd hbound ↦ ?_⟩
        · dsimp only
          by_cases hwe : w = e.1
          · rw [hwe, Function.update_self]
            exact hpath
          · rw [Function.update_of_ne hwe]
            exact h.sound w hw
        · dsimp only
          rw [Function.update_of_ne (hne x hx)]
          rcases hother x hx e' he' with ⟨rfl, rfl⟩ | hrest | htree' | ⟨hcand', hle⟩
          · rw [Function.update_self]
            exact .inr (.inr ⟨hcand, le_refl _⟩)
          · exact .inl hrest
          · exact .inr (.inl htree')
          · refine .inr (.inr ⟨hcand', ?_⟩)
            by_cases hee : e'.1 = e.1
            · rw [hee, Function.update_self]
              rw [hee] at hle
              omega
            · rwa [Function.update_of_ne hee]
        · dsimp only
          rw [Function.update_of_ne (hne x hx)]
          exact h.optimal x hx d hd hbound
      · rename_i hge
        refine ⟨h.nodup, h.sound, h.root_mem, h.last_mem, fun x hx e' he' ↦ ?_, h.optimal⟩
        rcases hother x hx e' he' with ⟨rfl, rfl⟩ | hrest
        · exact .inr (.inr ⟨hcand, not_lt.mp hge⟩)
        · exact hrest
    · rename_i hcand
      have hnew : e.1 ∉ s.tree ++ s.candidates := by
        rw [List.mem_append]
        exact not_or.mpr ⟨htree, hcand⟩
      refine ⟨?_, fun w hw ↦ ?_, h.root_mem, h.last_mem, fun x hx e' he' ↦ ?_,
        fun x hx d hd hbound ↦ ?_⟩
      · dsimp only
        rw [← List.append_assoc]
        apply h.nodup.append (List.nodup_singleton _)
        rwa [List.disjoint_singleton]
      · dsimp only at hw ⊢
        by_cases hwe : w = e.1
        · rw [hwe, Function.update_self]
          exact hpath
        · rw [Function.update_of_ne hwe]
          rcases hw with hw | hw
          · exact h.sound w (.inl hw)
          · rcases List.mem_append.mp hw with hw | hw
            · exact h.sound w (.inr hw)
            · exact absurd (List.mem_singleton.mp hw) hwe
      · dsimp only
        rw [Function.update_of_ne (hne x hx)]
        rcases hother x hx e' he' with ⟨rfl, rfl⟩ | hrest | htree' | ⟨hcand', hle⟩
        · rw [Function.update_self]
          exact .inr (.inr ⟨List.mem_append_right _ (List.mem_singleton_self _), le_refl _⟩)
        · exact .inl hrest
        · exact .inr (.inl htree')
        · refine .inr (.inr ⟨List.mem_append_left _ hcand', ?_⟩)
          have hee : e'.1 ≠ e.1 := by
            intro hee
            rw [hee] at hcand'
            exact hcand hcand'
          rwa [Function.update_of_ne hee]
      · dsimp only
        rw [Function.update_of_ne (hne x hx)]
        exact h.optimal x hx d hd hbound

theorem expand (h : Invariant succ root bound v pending s) (hpending : ∀ e ∈ pending, e ∈ succ v) :
    Invariant succ root bound v [] (s.expand v pending) := by
  unfold Search.expand
  induction pending generalizing s with
  | nil => exact h
  | cons e pending ih =>
    rw [List.foldl_cons]
    apply ih (h.visit (hpending e List.mem_cons_self))
    intro e' he'
    exact hpending e' (List.mem_cons_of_mem e he')

theorem select (h : Invariant succ root bound v [] s) {w : V} (hw : w ∈ s.candidates)
    (hclosest : ∀ x ∈ s.candidates, s.dist x < bound → s.dist w ≤ s.dist x) :
    Invariant succ root bound w (succ w) (s.select w) := by
  have hperm : (s.tree ++ [w] ++ s.candidates.erase w).Perm (s.tree ++ s.candidates) := by
    rw [List.append_assoc]
    exact (List.perm_cons_erase hw).symm.append_left s.tree
  have hwtree : w ∉ s.tree := by
    intro htree
    exact List.disjoint_of_nodup_append h.nodup htree hw
  unfold Search.select
  refine ⟨?_, fun x hx ↦ ?_, List.mem_append_left _ h.root_mem,
    List.mem_append_right _ (List.mem_singleton_self w), fun x hx e he ↦ ?_, fun x hx d hd hbound ↦ ?_⟩
  · exact hperm.nodup_iff.mpr h.nodup
  · apply h.sound x
    have hmem : x ∈ s.tree ++ [w] ++ s.candidates.erase w := List.mem_append.mpr hx
    exact List.mem_append.mp (hperm.mem_iff.mp hmem)
  · dsimp only at hx ⊢
    rcases List.mem_append.mp hx with hx | hx
    · rcases h.closed x hx e he with ⟨_, hnil⟩ | htree | ⟨hcand, hle⟩
      · cases hnil
      · exact .inr (.inl (List.mem_append_left _ htree))
      · right
        by_cases hew : e.1 = w
        · left
          rw [hew]
          exact List.mem_append_right _ (List.mem_singleton_self w)
        · exact .inr ⟨(List.mem_erase_of_ne hew).mpr hcand, hle⟩
    · rw [List.mem_singleton] at hx
      subst hx
      exact .inl ⟨rfl, he⟩
  · dsimp only at hx ⊢
    rcases List.mem_append.mp hx with hx | hx
    · exact h.optimal x hx d hd hbound
    · rw [List.mem_singleton] at hx
      subst hx
      obtain ⟨y, hy, hle⟩ := h.exists_candidate hd hbound hwtree
      exact (hclosest y hy (by omega)).trans hle

end Invariant

end InetManet.Dijkstra
