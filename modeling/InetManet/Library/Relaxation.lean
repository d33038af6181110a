import InetManet.Library.WeightedWalk

/-!
# Relaxation to a fixed point

Distance labels with parents, and passes over a list of edges that improve them in place until a
pass changes nothing. From labels that are sound (`Labelled`), as many passes as there are vertices,
less one, reach the least weights of all walks (`passes_dist_le`). Because an edge is only used if it
makes the label strictly smaller, the parents never form a cycle, not even through edges of weight
zero.
-/

namespace InetManet.WeightedGraph

@[ext] structure Labels (V α : Type) where
  dist : V → α
  parent : V → Option V

/-- The parents lead from the vertex to `s`. -/
inductive Rooted {V : Type} (parent : V → Option V) (s : V) : V → Prop
  | root : Rooted parent s s
  | child {v p : V} : parent v = some p → Rooted parent s p → Rooted parent s v

variable {V α : Type} [DecidableEq V] [AddCommGroup α] [LinearOrder α] [IsOrderedAddMonoid α]

namespace Labels

/-- The edge gives a shorter way to its end. -/
def improves (L : Labels V α) (e : Edge V α) : Bool :=
  decide (L.dist e.src + e.weight < L.dist e.dest)

/-- The label of the end of the edge is replaced. -/
def improve (L : Labels V α) (e : Edge V α) : Labels V α where
  dist := Function.update L.dist e.dest (L.dist e.src + e.weight)
  parent := Function.update L.parent e.dest (some e.src)

omit [IsOrderedAddMonoid α] [LinearOrder α] in
theorem improve_dist (L : Labels V α) (e : Edge V α) :
    (L.improve e).dist = Function.update L.dist e.dest (L.dist e.src + e.weight) := rfl

omit [IsOrderedAddMonoid α] [LinearOrder α] in
theorem improve_parent (L : Labels V α) (e : Edge V α) :
    (L.improve e).parent = Function.update L.parent e.dest (some e.src) := rfl

/-- One edge, with a flag that tells whether anything has changed in this pass. -/
def relax (x : Labels V α × Bool) (e : Edge V α) : Labels V α × Bool :=
  if x.1.improves e then (x.1.improve e, true) else x

def pass (es : List (Edge V α)) (L : Labels V α) : Labels V α × Bool := es.foldl relax (L, false)

/-- At most `k` passes; the first one that changes nothing is the last. -/
def passes (es : List (Edge V α)) : ℕ → Labels V α → Labels V α
  | 0, L => L
  | k + 1, L => if (pass es L).2 then passes es k (pass es L).1 else (pass es L).1

end Labels

/-- Labels of walks from `s`, with `inf` where none has been found. -/
structure Labelled (G : Set (Edge V α)) (s : V) (inf : α) (L : Labels V α) : Prop where
  source : L.dist s = 0
  sourceParent : L.parent s = none
  le : ∀ v, L.dist v ≤ inf
  walk : ∀ v, L.dist v < inf → ∃ n, Walk G s n v (L.dist v)
  unreached : ∀ v, L.dist v = inf → L.parent v = none
  parent : ∀ v p, L.parent v = some p →
    ∃ e ∈ G, e.src = p ∧ e.dest = v ∧ L.dist p + e.weight ≤ L.dist v
  rooted : ∀ v, L.dist v < inf → Rooted L.parent s v

variable {G : Set (Edge V α)} {s : V} {inf : α} {L L' : Labels V α} {e : Edge V α}
  {es : List (Edge V α)}

namespace Labelled

omit [DecidableEq V] in
theorem dist_nonneg (h : Labelled G s inf L) (hG : ∀ e ∈ G, 0 ≤ e.weight) (hinf : 0 < inf) (v : V) :
    0 ≤ L.dist v := by
  rcases (h.le v).lt_or_eq with hlt | heq
  · obtain ⟨n, hwalk⟩ := h.walk v hlt
    exact hwalk.nonneg hG
  · rw [heq]
    exact hinf.le

omit [DecidableEq V] in
theorem parent_dist_le (h : Labelled G s inf L) (hG : ∀ e ∈ G, 0 ≤ e.weight) {v p : V}
    (hp : L.parent v = some p) : L.dist p ≤ L.dist v := by
  obtain ⟨e, he, _, _, hle⟩ := h.parent v p hp
  exact (le_add_of_nonneg_right (hG e he)).trans hle

/-- A vertex with a larger label than `v` is not on the way from `v` to the root. -/
theorem rooted_update (h : Labelled G s inf L) (hG : ∀ e ∈ G, 0 ≤ e.weight) {v x : V}
    {o : Option V} (hv : Rooted L.parent s v) (hx : L.dist v < L.dist x) :
    Rooted (Function.update L.parent x o) s v := by
  induction hv with
  | root => exact .root
  | @child v p hp _ ih =>
    have hne : v ≠ x := by
      rintro rfl
      exact lt_irrefl _ hx
    refine .child ?_ (ih ((h.parent_dist_le hG hp).trans_lt hx))
    rw [Function.update_of_ne hne]
    exact hp

theorem improve (h : Labelled G s inf L) (hG : ∀ e ∈ G, 0 ≤ e.weight) (hinf : 0 < inf) (he : e ∈ G)
    (himp : L.improves e = true) : Labelled G s inf (L.improve e) := by
  have hlt : L.dist e.src + e.weight < L.dist e.dest := of_decide_eq_true himp
  have hsrc : L.dist e.src < L.dist e.dest := (le_add_of_nonneg_right (hG e he)).trans_lt hlt
  have hnew : L.dist e.src + e.weight < inf := hlt.trans_le (h.le e.dest)
  have hdest : e.dest ≠ s := by
    intro heq
    have hpos := add_nonneg (h.dist_nonneg hG hinf e.src) (hG e he)
    rw [heq, h.source] at hlt
    exact absurd hpos (not_le.mpr hlt)
  have hne : e.src ≠ e.dest := by
    intro heq
    rw [heq] at hsrc
    exact lt_irrefl _ hsrc
  have hle : ∀ v, (L.improve e).dist v ≤ L.dist v := by
    intro v
    by_cases hv : v = e.dest
    · subst hv
      exact (Function.update_self ..).le.trans hlt.le
    · exact (Function.update_of_ne hv ..).le
  have hroot : Rooted (L.improve e).parent s e.src :=
    h.rooted_update hG (h.rooted e.src (hsrc.trans_le (h.le e.dest))) hsrc
  refine ⟨?_, ?_, fun v ↦ (hle v).trans (h.le v), fun v hv ↦ ?_, fun v hv ↦ ?_, fun v p hp ↦ ?_,
    fun v hv ↦ ?_⟩
  · exact (Function.update_of_ne hdest.symm ..).trans h.source
  · exact (Function.update_of_ne hdest.symm ..).trans h.sourceParent
  · by_cases hvd : v = e.dest
    · subst hvd
      obtain ⟨n, hwalk⟩ := h.walk e.src (hsrc.trans_le (h.le e.dest))
      refine ⟨n + 1, ?_⟩
      change Walk G s (n + 1) e.dest (Function.update L.dist e.dest _ e.dest)
      rw [Function.update_self]
      exact hwalk.step he
    · have hold : (L.improve e).dist v = L.dist v := Function.update_of_ne hvd ..
      rw [hold] at hv ⊢
      exact h.walk v hv
  · by_cases hvd : v = e.dest
    · subst hvd
      have hself : (L.improve e).dist e.dest = L.dist e.src + e.weight := Function.update_self ..
      rw [hself] at hv
      exact absurd hv hnew.ne
    · have hold : (L.improve e).dist v = L.dist v := Function.update_of_ne hvd ..
      rw [hold] at hv
      exact (Function.update_of_ne hvd ..).trans (h.unreached v hv)
  · by_cases hvd : v = e.dest
    · subst hvd
      replace hp : Function.update L.parent e.dest (some e.src) e.dest = some p := hp
      rw [Function.update_self] at hp
      cases hp
      refine ⟨e, he, rfl, rfl, ?_⟩
      have hself : (L.improve e).dist e.dest = L.dist e.src + e.weight := Function.update_self ..
      have hold : (L.improve e).dist e.src = L.dist e.src := Function.update_of_ne hne ..
      rw [hself, hold]
    · replace hp : Function.update L.parent e.dest (some e.src) v = some p := hp
      rw [Function.update_of_ne hvd] at hp
      obtain ⟨e', he', hsrc', hdest', hle'⟩ := h.parent v p hp
      have hold : (L.improve e).dist v = L.dist v := Function.update_of_ne hvd ..
      refine ⟨e', he', hsrc', hdest', ?_⟩
      rw [hold]
      exact (add_le_add_left (hle p) e'.weight).trans hle'
  · -- the new parent does not descend from the vertex, whose label is larger
    have hself : Rooted (L.improve e).parent s e.dest := .child (Function.update_self ..) hroot
    by_cases hvd : v = e.dest
    · subst hvd
      exact hself
    · rw [show (L.improve e).dist v = L.dist v from Function.update_of_ne hvd ..] at hv
      have hold := h.rooted v hv
      clear hv hvd
      induction hold with
      | root => exact .root
      | @child v p hp _ ih =>
        by_cases hvd : v = e.dest
        · subst hvd
          exact hself
        · exact .child ((Function.update_of_ne hvd ..).trans hp) ih

theorem relax {x : Labels V α × Bool} (h : Labelled G s inf x.1) (hG : ∀ e ∈ G, 0 ≤ e.weight)
    (hinf : 0 < inf) (he : e ∈ G) : Labelled G s inf (Labels.relax x e).1 := by
  unfold Labels.relax
  split <;> rename_i himp
  · exact h.improve hG hinf he himp
  · exact h

theorem foldl {x : Labels V α × Bool} (h : Labelled G s inf x.1) (hG : ∀ e ∈ G, 0 ≤ e.weight)
    (hinf : 0 < inf) (hes : ∀ e ∈ es, e ∈ G) : Labelled G s inf (es.foldl Labels.relax x).1 := by
  induction es generalizing x with
  | nil => exact h
  | cons e es ih =>
    exact ih (h.relax hG hinf (hes e List.mem_cons_self)) fun e' he' ↦
      hes e' (List.mem_cons_of_mem e he')

theorem passes (h : Labelled G s inf L) (hG : ∀ e ∈ G, 0 ≤ e.weight) (hinf : 0 < inf)
    (hes : ∀ e ∈ es, e ∈ G) (k : ℕ) : Labelled G s inf (L.passes es k) := by
  induction k generalizing L with
  | zero => exact h
  | succ k ih =>
    have hpass : Labelled G s inf (Labels.pass es L).1 := foldl h hG hinf hes
    unfold Labels.passes
    split
    · exact ih hpass
    · exact hpass

end Labelled

/-! ## The labels become as small as possible -/

namespace Labels

omit [IsOrderedAddMonoid α] in
theorem relax_of_improves {x : Labels V α × Bool} (h : x.1.improves e = true) :
    relax x e = (x.1.improve e, true) := if_pos h

omit [IsOrderedAddMonoid α] in
theorem relax_of_not_improves {x : Labels V α × Bool} (h : ¬ x.1.improves e = true) :
    relax x e = x := if_neg h

omit [IsOrderedAddMonoid α] in
theorem relax_dist_le (x : Labels V α × Bool) (e : Edge V α) (v : V) :
    (relax x e).1.dist v ≤ x.1.dist v := by
  unfold relax
  split <;> rename_i himp
  · have hlt : x.1.dist e.src + e.weight < x.1.dist e.dest := of_decide_eq_true himp
    by_cases hv : v = e.dest
    · subst hv
      exact (Function.update_self ..).le.trans hlt.le
    · exact (Function.update_of_ne hv ..).le
  · exact le_refl _

omit [IsOrderedAddMonoid α] in
theorem foldl_dist_le (es : List (Edge V α)) (x : Labels V α × Bool) (v : V) :
    (es.foldl relax x).1.dist v ≤ x.1.dist v := by
  induction es generalizing x with
  | nil => exact le_refl _
  | cons e es ih => exact (ih (relax x e)).trans (relax_dist_le x e v)

/-- After a pass no edge improves the labels from before it. -/
theorem foldl_dist_dest_le (x : Labels V α × Bool) (he : e ∈ es) :
    (es.foldl relax x).1.dist e.dest ≤ x.1.dist e.src + e.weight := by
  induction es generalizing x with
  | nil => cases he
  | cons e' es ih =>
    rw [List.foldl_cons]
    rcases List.mem_cons.mp he with rfl | he
    · refine (foldl_dist_le es _ _).trans ?_
      unfold relax
      split <;> rename_i himp
      · exact (Function.update_self ..).le
      · have hge : ¬ x.1.dist e.src + e.weight < x.1.dist e.dest := fun h ↦
          himp (decide_eq_true h)
        exact not_lt.mp hge
    · exact (ih _ he).trans (add_le_add_left (relax_dist_le x e' e.src) e.weight)

omit [IsOrderedAddMonoid α] in
theorem foldl_flag (es : List (Edge V α)) (L : Labels V α) : (es.foldl relax (L, true)).2 = true := by
  induction es generalizing L with
  | nil => rfl
  | cons e es ih =>
    rw [List.foldl_cons]
    by_cases himp : L.improves e = true
    · rw [relax_of_improves himp]
      exact ih _
    · rw [relax_of_not_improves himp]
      exact ih _

omit [IsOrderedAddMonoid α] in
/-- A pass that changes nothing has found no edge to use. -/
theorem pass_unchanged (h : (pass es L).2 = false) : (pass es L).1 = L := by
  unfold pass at h ⊢
  induction es with
  | nil => rfl
  | cons e es ih =>
    rw [List.foldl_cons] at h ⊢
    by_cases himp : L.improves e = true
    · rw [relax_of_improves himp, foldl_flag] at h
      cases h
    · rw [relax_of_not_improves himp] at h ⊢
      exact ih h

end Labels

/-- No label is larger than the weight of a walk of at most `n` edges. -/
def Covers (G : Set (Edge V α)) (s : V) (L : Labels V α) (n : ℕ) : Prop :=
  ∀ m ≤ n, ∀ v w, Walk G s m v w → L.dist v ≤ w

theorem Covers.pass {n : ℕ} (h : Covers G s L n) (hes : ∀ e ∈ G, e ∈ es) :
    Covers G s (L.pass es).1 (n + 1) := by
  intro m hm v w hwalk
  cases hwalk with
  | start => exact (Labels.foldl_dist_le es _ _).trans (h 0 (Nat.zero_le n) s 0 .start)
  | @step m w e hwalk he =>
    refine (Labels.foldl_dist_dest_le _ (hes e he)).trans ?_
    exact add_le_add_left (h m (by omega) e.src w hwalk) e.weight

/-- If no edge improves the labels, they are as small as the lightest walks. -/
theorem dist_le_of_pass_unchanged {n : ℕ} {v : V} {w : α} (h : (L.pass es).2 = false)
    (hsource : L.dist s = 0) (hes : ∀ e ∈ G, e ∈ es) (hwalk : Walk G s n v w) : L.dist v ≤ w := by
  induction hwalk with
  | start => exact hsource.le
  | @step m w e _ he ih =>
    calc L.dist e.dest = (L.pass es).1.dist e.dest := by rw [Labels.pass_unchanged h]
      _ ≤ L.dist e.src + e.weight := Labels.foldl_dist_dest_le _ (hes e he)
      _ ≤ w + e.weight := add_le_add_left ih e.weight

/-- As many passes as there are vertices, less one, are enough. -/
theorem passes_dist_le {S : Finset V} {n k : ℕ} (hL : Labelled G s inf L)
    (hG : ∀ e ∈ G, 0 ≤ e.weight) (hinf : 0 < inf) (hes : ∀ e, e ∈ G ↔ e ∈ es) (hs : s ∈ S)
    (hS : ∀ e ∈ G, e.dest ∈ S) (hcovers : Covers G s L n) (hk : S.card ≤ n + k + 1) {m : ℕ} {v : V}
    {w : α} (hwalk : Walk G s m v w) : (L.passes es k).dist v ≤ w := by
  induction k generalizing L n with
  | zero =>
    obtain ⟨m', hm', w', hw', hshort⟩ := hwalk.shorten hs hS hG
    exact (hcovers m' (by omega) v w' hshort).trans hw'
  | succ k ih =>
    have hpass : Labelled G s inf (L.pass es).1 := hL.foldl hG hinf fun e he ↦ (hes e).mpr he
    unfold Labels.passes
    split <;> rename_i hmod
    · exact ih hpass (hcovers.pass fun e ↦ (hes e).mp) (by omega)
    · rw [Bool.not_eq_true] at hmod
      rw [Labels.pass_unchanged hmod]
      exact dist_le_of_pass_unchanged hmod hL.source (fun e ↦ (hes e).mp) hwalk

/-! ## The tree of parents -/

omit [DecidableEq V] in
/-- Once the labels are as small as the lightest walks, the parents are joined by tight edges. -/
theorem Labelled.parent_tight (hL : Labelled G s inf L) (hG : ∀ e ∈ G, 0 ≤ e.weight)
    (hmin : ∀ n v w, Walk G s n v w → L.dist v ≤ w) {v p : V} (hp : L.parent v = some p) :
    ∃ e ∈ G, e.src = p ∧ e.dest = v ∧ L.dist v = L.dist p + e.weight := by
  obtain ⟨e, he, rfl, rfl, hle⟩ := hL.parent v p hp
  have hreached : L.dist e.dest < inf := by
    apply (hL.le e.dest).lt_of_ne
    intro heq
    rw [hL.unreached e.dest heq] at hp
    cases hp
  have hsrc : L.dist e.src < inf := ((le_add_of_nonneg_right (hG e he)).trans hle).trans_lt hreached
  obtain ⟨n, hwalk⟩ := hL.walk e.src hsrc
  exact ⟨e, he, rfl, rfl, (hmin _ _ _ (hwalk.step he)).antisymm hle⟩

/-- The parents as edges. -/
def parentGraph (parent : V → Option V) : Set (Edge V ℤ) :=
  { e | parent e.dest = some e.src ∧ e.weight = 0 }

omit [DecidableEq V] in
/-- A vertex is not deeper in the tree than there are vertices. -/
theorem Rooted.walk {parent : V → Option V} {S : Finset V} {v : V} (h : Rooted parent s v)
    (hs : s ∈ S) (hS : ∀ v p, parent v = some p → v ∈ S) :
    ∃ m < S.card, ∃ w, Walk (parentGraph parent) s m v w := by
  have hwalk : ∃ n w, Walk (parentGraph parent) s n v w := by
    induction h with
    | root => exact ⟨0, 0, .start⟩
    | @child v p hp _ ih =>
      obtain ⟨n, w, hwalk⟩ := ih
      have hedge : (⟨p, v, 0⟩ : Edge V ℤ) ∈ parentGraph parent := ⟨hp, rfl⟩
      exact ⟨n + 1, w + 0, hwalk.step hedge⟩
  obtain ⟨n, w, hwalk⟩ := hwalk
  have hnonneg : ∀ e ∈ parentGraph parent, 0 ≤ e.weight := fun e he ↦ he.2.ge
  obtain ⟨m, hm, w', _, hshort⟩ := hwalk.shorten hs (fun e he ↦ hS e.dest e.src he.1) hnonneg
  exact ⟨m, hm, w', hshort⟩

end InetManet.WeightedGraph
