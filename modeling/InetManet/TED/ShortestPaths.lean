import InetManet.Library.Relaxation
import InetManet.TED.Database

/-!
# Constrained shortest paths are shortest

The vertices are seen as distance labels on addresses. In this view a round of the outer loop is a
pass over the usable links, so that the result is that of relaxation to a fixed point: least
distances, and parents that form a tree of tight links, from which the path is read off.
-/

namespace InetManet.TED

open WeightedGraph

/-- A link as an edge between routers. -/
def TELinkStateInfo.toEdge (link : TELinkStateInfo) : Edge IPAddress ℚ :=
  ⟨link.advrouter, link.linkid, link.metric⟩

/-- The links that are up and have enough bandwidth left. -/
def usableEdges (topology : List TELinkStateInfo) (reqBandwidth : ℚ) (priority : Fin 8) :
    List (Edge IPAddress ℚ) :=
  (topology.filter fun link ↦ link.isUsable reqBandwidth priority).map TELinkStateInfo.toEdge

theorem usableEdges_cons (link : TELinkStateInfo) (links : List TELinkStateInfo) (reqBandwidth : ℚ)
    (priority : Fin 8) :
    usableEdges (link :: links) reqBandwidth priority =
      (if link.isUsable reqBandwidth priority then [link.toEdge] else []) ++
        usableEdges links reqBandwidth priority := by
  unfold usableEdges
  rw [List.filter_cons]
  split <;> rfl

/-! ## Vertices as labels -/

def Distinct (vs : List Vertex) : Prop := (vs.map Vertex.node).Nodup

def vertexAt (vs : List Vertex) (a : IPAddress) : Option Vertex := vs.find? fun v ↦ v.node = a

def labels (vs : List Vertex) : Labels IPAddress ℚ where
  dist a := ((vertexAt vs a).map Vertex.dist).getD lsInfinity
  parent a := (vertexAt vs a).bind fun v ↦ v.parent.bind fun p ↦ (vs.map Vertex.node)[p]?

variable {vs : List Vertex} {u v v' : Vertex} {i j : ℕ} {a : IPAddress}

theorem vertexAt_eq_some (h : Distinct vs) : vertexAt vs a = some v ↔ v ∈ vs ∧ v.node = a := by
  constructor
  · intro hfind
    exact ⟨List.mem_of_find?_eq_some hfind, by simpa using List.find?_some hfind⟩
  · rintro ⟨hmem, rfl⟩
    induction vs with
    | nil => cases hmem
    | cons x vs ih =>
      obtain ⟨hx, hvs⟩ := List.nodup_cons.mp h
      unfold vertexAt
      rw [List.find?_cons]
      rcases List.mem_cons.mp hmem with rfl | hmem
      · simp
      · have hne : x.node ≠ v.node := by
          intro heq
          exact hx (heq ▸ List.mem_map_of_mem hmem)
        simp only [hne, decide_false]
        exact ih hvs hmem

theorem vertexAt_of_getElem? (h : Distinct vs) (hi : vs[i]? = some v) :
    vertexAt vs v.node = some v :=
  (vertexAt_eq_some h).mpr ⟨List.mem_of_getElem? hi, rfl⟩

theorem map_node_set (hi : vs[i]? = some v) (hnode : v'.node = v.node) :
    (vs.set i v').map Vertex.node = vs.map Vertex.node := by
  have hlt : i < vs.length := (List.getElem?_eq_some_iff.mp hi).1
  apply List.ext_getElem?
  intro k
  rw [List.getElem?_map, List.getElem?_map, List.getElem?_set]
  by_cases hik : i = k
  · subst hik
    rw [if_pos rfl, if_pos hlt, hi, Option.map_some, Option.map_some, hnode]
  · rw [if_neg hik]

theorem vertexAt_set (h : Distinct vs) (hi : vs[i]? = some v) (hnode : v'.node = v.node) :
    vertexAt (vs.set i v') a = if a = v.node then some v' else vertexAt vs a := by
  have hset : Distinct (vs.set i v') := by
    unfold Distinct
    rw [map_node_set hi hnode]
    exact h
  have hlt : i < vs.length := (List.getElem?_eq_some_iff.mp hi).1
  split <;> rename_i ha
  · subst ha
    rw [← hnode]
    apply vertexAt_of_getElem? hset
    rw [List.getElem?_set_self hlt]
  · apply Option.ext
    intro x
    rw [vertexAt_eq_some hset, vertexAt_eq_some h]
    apply and_congr_left
    rintro rfl
    simp only [List.mem_iff_getElem?, List.getElem?_set]
    apply exists_congr
    intro k
    by_cases hik : i = k
    · subst hik
      rw [if_pos rfl, if_pos hlt, hi]
      constructor
      · intro heq
        cases heq
        exact absurd hnode ha
      · intro heq
        cases heq
        exact absurd rfl ha
    · rw [if_neg hik]

theorem labels_dist (h : Distinct vs) (hi : vs[i]? = some v) : (labels vs).dist v.node = v.dist := by
  change ((vertexAt vs v.node).map Vertex.dist).getD lsInfinity = v.dist
  rw [vertexAt_of_getElem? h hi]
  rfl

theorem labels_improve (h : Distinct vs) (hi : vs[i]? = some u) (hj : vs[j]? = some v) (m : ℚ) :
    labels (vs.set j { v with dist := u.dist + m, parent := some i }) =
      (labels vs).improve ⟨u.node, v.node, m⟩ := by
  have hnode : ({ v with dist := u.dist + m, parent := some i } : Vertex).node = v.node := rfl
  have hu : (vs.map Vertex.node)[i]? = some u.node := by
    rw [List.getElem?_map, hi]
    rfl
  ext a : 2
  · rw [Labels.improve_dist]
    change ((vertexAt _ a).map Vertex.dist).getD lsInfinity = _
    rw [vertexAt_set h hj hnode]
    by_cases ha : a = v.node
    · rw [if_pos ha, ha, Function.update_self, labels_dist h hi]
      rfl
    · rw [if_neg ha, Function.update_of_ne ha]
      rfl
  · rw [Labels.improve_parent]
    change ((vertexAt _ a).bind fun v ↦ v.parent.bind fun p ↦ (List.map Vertex.node _)[p]?) = _
    rw [vertexAt_set h hj hnode, map_node_set hj hnode]
    by_cases ha : a = v.node
    · rw [if_pos ha, ha, Function.update_self]
      exact hu
    · rw [if_neg ha, Function.update_of_ne ha]
      rfl

/-- Every parent index is one of a vertex. -/
def ParentsInRange (vs : List Vertex) : Prop :=
  ∀ v ∈ vs, ∀ p, v.parent = some p → p < vs.length

theorem ParentsInRange.set (h : ParentsInRange vs) (hv : ∀ p, v.parent = some p → p < vs.length) :
    ParentsInRange (vs.set j v) := by
  intro x hx p hp
  rw [List.length_set]
  rcases List.mem_or_eq_of_mem_set hx with hx | rfl
  · exact h x hx p hp
  · exact hv p hp

/-- An edge between indexes stands for an edge between addresses. -/
structure IndexEdge.Embeds (nodes : List IPAddress) (e : IndexEdge) (E : Edge IPAddress ℚ) :
    Prop where
  src : nodes[e.src]? = some E.src
  dest : nodes[e.dest]? = some E.dest
  metric : E.weight = e.metric
  ne : E.src ≠ E.dest

theorem relaxEdge_spec {e : IndexEdge} {E : Edge IPAddress ℚ} (h : Distinct vs)
    (hrange : ParentsInRange vs) (he : e.Embeds (vs.map Vertex.node) E) (mod : Bool) :
    ∃ x, relaxEdge (vs, mod) e = .ok x ∧ x.1.map Vertex.node = vs.map Vertex.node ∧
      ParentsInRange x.1 ∧ (labels x.1, x.2) = Labels.relax (labels vs, mod) E := by
  obtain ⟨u, hu, husrc⟩ : ∃ u, vs[e.src]? = some u ∧ u.node = E.src := by
    have hsrc := he.src
    rwa [List.getElem?_map, Option.map_eq_some_iff] at hsrc
  obtain ⟨v, hv, hvdest⟩ : ∃ v, vs[e.dest]? = some v ∧ v.node = E.dest := by
    have hdest := he.dest
    rwa [List.getElem?_map, Option.map_eq_some_iff] at hdest
  have hne : e.src ≠ e.dest := by
    intro heq
    rw [heq, hv] at hu
    cases hu
    exact he.ne (husrc.symm.trans hvdest)
  have hE : E = ⟨u.node, v.node, e.metric⟩ := by
    rw [husrc, hvdest, ← he.metric]
  unfold relaxEdge
  simp only [hu, hv, hne, if_false]
  split <;> rename_i hle
  · refine ⟨_, rfl, rfl, hrange, ?_⟩
    rw [Labels.relax_of_not_improves]
    rw [hE, Labels.improves, labels_dist h hu, labels_dist h hv]
    simpa using hle
  · refine ⟨_, rfl, map_node_set hv rfl, hrange.set fun p hp ↦ ?_, ?_⟩
    · cases hp
      exact (List.getElem?_eq_some_iff.mp hu).1
    rw [Labels.relax_of_improves]
    · rw [hE]
      exact Prod.ext (labels_improve h hu hv e.metric) rfl
    · rw [hE, Labels.improves, labels_dist h hu, labels_dist h hv]
      simpa using hle

theorem foldlM_relaxEdge_spec {es : List IndexEdge} {Es : List (Edge IPAddress ℚ)}
    {nodes : List IPAddress} {x : List Vertex × Bool} (hdist : nodes.Nodup)
    (hnodes : x.1.map Vertex.node = nodes) (hrange : ParentsInRange x.1)
    (hes : List.Forall₂ (IndexEdge.Embeds nodes) es Es) :
    ∃ x', es.foldlM relaxEdge x = .ok x' ∧ x'.1.map Vertex.node = nodes ∧ ParentsInRange x'.1 ∧
      (labels x'.1, x'.2) = Es.foldl Labels.relax (labels x.1, x.2) := by
  induction hes generalizing x with
  | nil => exact ⟨x, rfl, hnodes, hrange, rfl⟩
  | @cons e E es Es he _ ih =>
    have hx : Distinct x.1 := by
      unfold Distinct
      rw [hnodes]
      exact hdist
    obtain ⟨x₁, hx₁, hnodes₁, hrange₁, hlabels₁⟩ := relaxEdge_spec hx hrange (hnodes ▸ he) x.2
    obtain ⟨x', hx', hnodes', hrange', hlabels'⟩ := ih (hnodes₁.trans hnodes) hrange₁
    refine ⟨x', ?_, hnodes', hrange', ?_⟩
    · rw [List.foldlM_cons]
      exact TransitionSystem.bind_ok_iff.mpr ⟨x₁, hx₁, hx'⟩
    · rw [List.foldl_cons, hlabels', hlabels₁]

theorem relaxRounds_spec {es : List IndexEdge} {Es : List (Edge IPAddress ℚ)}
    {nodes : List IPAddress} {vs : List Vertex} (hdist : nodes.Nodup)
    (hnodes : vs.map Vertex.node = nodes) (hrange : ParentsInRange vs)
    (hes : List.Forall₂ (IndexEdge.Embeds nodes) es Es) (rounds : ℕ) :
    ∃ vs', relaxRounds es rounds vs = .ok vs' ∧ vs'.map Vertex.node = nodes ∧ ParentsInRange vs' ∧
      labels vs' = (labels vs).passes Es rounds := by
  induction rounds generalizing vs with
  | zero => exact ⟨vs, rfl, hnodes, hrange, rfl⟩
  | succ rounds ih =>
    obtain ⟨x, hx, hnodes', hrange', hpass⟩ :=
      foldlM_relaxEdge_spec (x := (vs, false)) hdist hnodes hrange hes
    have hlabels : labels x.1 = ((labels vs).pass Es).1 := congrArg Prod.fst hpass
    have hflag : x.2 = ((labels vs).pass Es).2 := congrArg Prod.snd hpass
    unfold relaxRounds Labels.passes
    rw [hx, ← hflag, ← hlabels, TransitionSystem.ok_bind]
    cases hmod : x.2 with
    | true => exact ih hnodes' hrange'
    | false => exact ⟨x.1, rfl, hnodes', hrange', rfl⟩

/-! ## Vertices from links -/

/-- The vertices before any distance is known. -/
structure Blank (vs : List Vertex) : Prop where
  distinct : Distinct vs
  blank : ∀ v ∈ vs, v.parent = none ∧ v.dist = lsInfinity

theorem assignIndex_spec (h : Blank vs) (a : IPAddress) :
    ∃ i vs', assignIndex vs a = (i, vs') ∧ Blank vs' ∧ (vs'.map Vertex.node)[i]? = some a ∧
      vs.map Vertex.node <+: vs'.map Vertex.node ∧
      ∀ b, b ∈ vs'.map Vertex.node ↔ b ∈ vs.map Vertex.node ∨ b = a := by
  unfold assignIndex
  cases hfind : vs.findIdx? fun v ↦ v.node = a with
  | some i =>
    obtain ⟨hi, hnode, _⟩ := List.findIdx?_eq_some_iff_getElem.mp hfind
    have hget : (vs.map Vertex.node)[i]? = some a := by
      rw [List.getElem?_map, List.getElem?_eq_getElem hi]
      simpa using hnode
    refine ⟨i, vs, rfl, h, hget, List.prefix_rfl, fun b ↦ ?_⟩
    refine (or_iff_left_of_imp ?_).symm
    rintro rfl
    exact List.mem_of_getElem? hget
  | none =>
    have hnone : ∀ v ∈ vs, v.node ≠ a := by simpa using List.findIdx?_eq_none_iff.mp hfind
    refine ⟨vs.length, vs ++ [⟨a, none, lsInfinity⟩], rfl, ⟨?_, fun v hv ↦ ?_⟩, ?_, ?_, fun b ↦ ?_⟩
    · unfold Distinct
      rw [List.map_append]
      apply List.Nodup.append h.distinct (List.nodup_singleton a)
      rw [List.disjoint_singleton]
      intro hmem
      obtain ⟨v, hv, hnode⟩ := List.mem_map.mp hmem
      exact hnone v hv hnode
    · rcases List.mem_append.mp hv with hv | hv
      · exact h.blank v hv
      · rw [List.mem_singleton] at hv
        subst hv
        exact ⟨rfl, rfl⟩
    · rw [List.getElem?_map, List.getElem?_concat_length]
      rfl
    · rw [List.map_append]
      exact List.prefix_append _ _
    · simp

theorem IndexEdge.Embeds.mono {nodes nodes' : List IPAddress} {e : IndexEdge}
    {E : Edge IPAddress ℚ} (h : e.Embeds nodes E) (hgrows : nodes <+: nodes') :
    e.Embeds nodes' E := by
  obtain ⟨rest, rfl⟩ := hgrows
  have hleft : ∀ (i : ℕ) (a : IPAddress), nodes[i]? = some a → (nodes ++ rest)[i]? = some a := by
    intro i a hi
    rw [List.getElem?_append_left (List.getElem?_eq_some_iff.mp hi).1]
    exact hi
  exact ⟨hleft _ _ h.src, hleft _ _ h.dest, h.metric, h.ne⟩

/-- The vertices and edges that come from the links `Es`. -/
structure Collected (vs : List Vertex) (es : List IndexEdge) (Es : List (Edge IPAddress ℚ)) : Prop
    extends Blank vs where
  embeds : List.Forall₂ (IndexEdge.Embeds (vs.map Vertex.node)) es Es
  mem_iff : ∀ a, a ∈ vs.map Vertex.node ↔ ∃ E ∈ Es, a = E.src ∨ a = E.dest

theorem Collected.collect {es : List IndexEdge} {Es : List (Edge IPAddress ℚ)}
    (h : Collected vs es Es) (reqBandwidth : ℚ) (priority : Fin 8) {link : TELinkStateInfo}
    (hself : link.advrouter ≠ link.linkid) :
    Collected (collect reqBandwidth priority (vs, es) link).1
      (collect reqBandwidth priority (vs, es) link).2
      (Es ++ if link.isUsable reqBandwidth priority then [link.toEdge] else []) := by
  unfold TED.collect
  split
  · obtain ⟨i, vs₁, hi, hblank₁, hget₁, hgrows₁, hmem₁⟩ := assignIndex_spec h.toBlank link.advrouter
    obtain ⟨j, vs₂, hj, hblank₂, hget₂, hgrows₂, hmem₂⟩ := assignIndex_spec hblank₁ link.linkid
    simp only [hi, hj]
    have hedge : IndexEdge.Embeds (vs₂.map Vertex.node) ⟨i, j, link.metric⟩ link.toEdge := by
      obtain ⟨rest, hrest⟩ := hgrows₂
      refine ⟨?_, hget₂, rfl, hself⟩
      rw [← hrest, List.getElem?_append_left (List.getElem?_eq_some_iff.mp hget₁).1]
      exact hget₁
    have hold : List.Forall₂ (IndexEdge.Embeds (vs₂.map Vertex.node)) es Es :=
      h.embeds.imp fun _ _ he ↦ he.mono (hgrows₁.trans hgrows₂)
    refine ⟨hblank₂, List.rel_append hold (.cons hedge .nil), fun a ↦ ?_⟩
    rw [hmem₂, hmem₁, h.mem_iff]
    simp only [List.mem_append, List.mem_singleton]
    constructor
    · rintro ((⟨E, hE, ha⟩ | ha) | ha)
      · exact ⟨E, .inl hE, ha⟩
      · exact ⟨link.toEdge, .inr rfl, .inl ha⟩
      · exact ⟨link.toEdge, .inr rfl, .inr ha⟩
    · rintro ⟨E, hE | rfl, ha⟩
      · exact .inl (.inl ⟨E, hE, ha⟩)
      · rcases ha with ha | ha
        · exact .inl (.inr ha)
        · exact .inr ha
  · rw [List.append_nil]
    exact h

theorem collected_topology (topology : List TELinkStateInfo) (reqBandwidth : ℚ) (priority : Fin 8)
    (hself : ∀ link ∈ topology, link.advrouter ≠ link.linkid) :
    Collected (topology.foldl (collect reqBandwidth priority) ([], [])).1
      (topology.foldl (collect reqBandwidth priority) ([], [])).2
      (usableEdges topology reqBandwidth priority) := by
  have hstart : Collected [] [] [] := ⟨⟨List.nodup_nil, nofun⟩, .nil, by simp⟩
  have hfold : ∀ (links : List TELinkStateInfo) (x : List Vertex × List IndexEdge)
      (Es : List (Edge IPAddress ℚ)), (∀ link ∈ links, link.advrouter ≠ link.linkid) →
      Collected x.1 x.2 Es → Collected (links.foldl (collect reqBandwidth priority) x).1
        (links.foldl (collect reqBandwidth priority) x).2
        (Es ++ usableEdges links reqBandwidth priority) := by
    intro links
    induction links with
    | nil =>
      intro x Es _ hx
      rw [usableEdges, List.filter_nil, List.map_nil, List.append_nil]
      exact hx
    | cons link links ih =>
      intro x Es hlinks hx
      rw [usableEdges_cons, ← List.append_assoc, List.foldl_cons]
      exact ih _ _ (fun l hl ↦ hlinks l (List.mem_cons_of_mem link hl))
        (hx.collect reqBandwidth priority (hlinks link List.mem_cons_self))
  exact hfold topology ([], []) [] hself hstart

/-- Only the source has a distance. -/
def sourceLabels (routerId : IPAddress) : Labels IPAddress ℚ where
  dist := Function.update (fun _ ↦ lsInfinity) routerId 0
  parent _ := none

theorem sourceLabels_dist_self (routerId : IPAddress) :
    (sourceLabels routerId).dist routerId = 0 := by
  simp [sourceLabels]

theorem sourceLabels_dist_of_ne {routerId a : IPAddress} (h : a ≠ routerId) :
    (sourceLabels routerId).dist a = lsInfinity := by
  simp [sourceLabels, h]

theorem labels_setSource (h : Blank vs) (hi : (vs.map Vertex.node)[i]? = some a) :
    labels (setSource vs i) = sourceLabels a ∧
      (setSource vs i).map Vertex.node = vs.map Vertex.node ∧ ParentsInRange (setSource vs i) := by
  rw [List.getElem?_map, Option.map_eq_some_iff] at hi
  obtain ⟨v, hv, rfl⟩ := hi
  have hset : setSource vs i = vs.set i { v with dist := 0 } := by
    unfold setSource
    apply List.ext_getElem?
    intro k
    rw [List.getElem?_modify, List.getElem?_set]
    by_cases hik : i = k
    · subst hik
      rw [if_pos rfl, if_pos (List.getElem?_eq_some_iff.mp hv).1, hv]
      simp
    · rw [if_neg hik]
      simp [hik]
  have hnode : ({ v with dist := 0 } : Vertex).node = v.node := rfl
  have hblank : ∀ b x, vertexAt vs b = some x → x.parent = none ∧ x.dist = lsInfinity :=
    fun b x hx ↦ h.blank x ((vertexAt_eq_some h.distinct).mp hx).1
  have hrange : ParentsInRange vs := by
    intro x hx p hp
    rw [(h.blank x hx).1] at hp
    cases hp
  rw [hset]
  refine ⟨?_, map_node_set hv rfl, hrange.set (hrange v (List.mem_of_getElem? hv))⟩
  ext b : 2
  · change ((vertexAt _ b).map Vertex.dist).getD lsInfinity = _
    rw [vertexAt_set h.distinct hv hnode]
    by_cases hb : b = v.node
    · rw [if_pos hb, hb, sourceLabels_dist_self]
      rfl
    · rw [if_neg hb, sourceLabels_dist_of_ne hb]
      cases hx : vertexAt vs b with
      | none => rfl
      | some x => exact (hblank b x hx).2
  · change ((vertexAt _ b).bind fun v ↦ v.parent.bind fun p ↦ (List.map Vertex.node _)[p]?) = none
    rw [vertexAt_set h.distinct hv hnode]
    by_cases hb : b = v.node
    · rw [if_pos hb, Option.bind_some]
      change v.parent.bind _ = none
      rw [(h.blank v (List.mem_of_getElem? hv)).1]
      rfl
    · rw [if_neg hb]
      cases hx : vertexAt vs b with
      | none => rfl
      | some x =>
        rw [Option.bind_some, (hblank b x hx).1]
        rfl

theorem lsInfinity_pos : 0 < lsInfinity := by
  unfold lsInfinity
  positivity

/-! ## The result -/

section Result

variable {routerId : IPAddress} {G : Set (Edge IPAddress ℚ)}

theorem labelled_source (G : Set (Edge IPAddress ℚ)) (routerId : IPAddress) :
    Labelled G routerId lsInfinity (sourceLabels routerId) := by
  refine ⟨sourceLabels_dist_self routerId, rfl, fun a ↦ ?_, fun a ha ↦ ?_, fun _ _ ↦ rfl, nofun,
    fun a ha ↦ ?_⟩
  · by_cases h : a = routerId
    · rw [h, sourceLabels_dist_self]
      exact lsInfinity_pos.le
    · exact (sourceLabels_dist_of_ne h).le
  · by_cases h : a = routerId
    · rw [h, sourceLabels_dist_self]
      exact ⟨0, .start⟩
    · exact absurd (sourceLabels_dist_of_ne h) ha.ne
  · by_cases h : a = routerId
    · rw [h]
      exact .root
    · exact absurd (sourceLabels_dist_of_ne h) ha.ne

theorem covers_source (G : Set (Edge IPAddress ℚ)) (routerId : IPAddress) :
    Covers G routerId (sourceLabels routerId) 0 := by
  intro m hm a w hwalk
  cases hwalk with
  | start => exact (sourceLabels_dist_self routerId).le
  | step _ _ => omega

/-- Least distances with a tree of parents. -/
structure Solved (G : Set (Edge IPAddress ℚ)) (routerId : IPAddress) (vs : List Vertex) : Prop where
  distinct : Distinct vs
  inRange : ParentsInRange vs
  mem_iff : ∀ a, a ∈ vs.map Vertex.node ↔ a = routerId ∨ ∃ e ∈ G, a = e.src ∨ a = e.dest
  labelled : Labelled G routerId lsInfinity (labels vs)
  least : ∀ n a w, Walk G routerId n a w → (labels vs).dist a ≤ w

theorem calculateShortestPaths_solved (routerId : IPAddress) (topology : List TELinkStateInfo)
    (reqBandwidth : ℚ) (priority : Fin 8)
    (hself : ∀ link ∈ topology, link.advrouter ≠ link.linkid)
    (hmetric : ∀ link ∈ topology, 0 ≤ link.metric) :
    ∃ vs, calculateShortestPaths routerId topology reqBandwidth priority = .ok vs ∧
      Solved { e | e ∈ usableEdges topology reqBandwidth priority } routerId vs := by
  have hcoll := collected_topology topology reqBandwidth priority hself
  obtain ⟨i, vs₁, hi, hblank, hget, hgrows, hmem⟩ := assignIndex_spec hcoll.toBlank routerId
  obtain ⟨hlabels, hnodes, hrange⟩ := labels_setSource hblank hget
  have hedges := hcoll.embeds.imp fun _ _ he ↦ he.mono hgrows
  obtain ⟨vs, hrun, hnodes', hrange', hpasses⟩ := relaxRounds_spec hblank.distinct hnodes hrange hedges
    ((setSource vs₁ i).length - 1)
  refine ⟨vs, ?_, ?_⟩
  · unfold calculateShortestPaths
    simp only [hi]
    exact hrun
  have hG : ∀ e ∈ { e | e ∈ usableEdges topology reqBandwidth priority }, 0 ≤ e.weight := by
    intro e he
    obtain ⟨link, hlink, rfl⟩ := List.mem_map.mp he
    exact hmetric link (List.mem_of_mem_filter hlink)
  have hsrc := labelled_source { e | e ∈ usableEdges topology reqBandwidth priority } routerId
  have hmem' : ∀ a, a ∈ vs.map Vertex.node ↔ a = routerId ∨
      ∃ e ∈ { e | e ∈ usableEdges topology reqBandwidth priority }, a = e.src ∨ a = e.dest := by
    intro a
    rw [hnodes', hmem, hcoll.mem_iff, or_comm]
    rfl
  have hdistinct : Distinct vs := by
    unfold Distinct
    rw [hnodes']
    exact hblank.distinct
  have hcard : (vs.map Vertex.node).toFinset.card = (setSource vs₁ i).length := by
    rw [List.toFinset_card_of_nodup hdistinct, hnodes', ← hnodes, List.length_map]
  rw [hlabels] at hpasses
  refine ⟨hdistinct, hrange', hmem', ?_, fun n a w hwalk ↦ ?_⟩
  · rw [hpasses]
    exact hsrc.passes hG lsInfinity_pos (fun e he ↦ he) _
  · rw [hpasses]
    refine passes_dist_le (S := (vs.map Vertex.node).toFinset) hsrc hG lsInfinity_pos
      (fun e ↦ Iff.rfl) ?_ (fun e he ↦ ?_) (covers_source _ routerId) ?_ hwalk
    · rw [List.mem_toFinset, hmem']
      exact .inl rfl
    · rw [List.mem_toFinset, hmem']
      exact .inr ⟨e, he, .inr rfl⟩
    · rw [hcard]
      omega

/-! ## The path -/

/-- The loop over the vertices finds the first listed one of least distance. -/
theorem foldl_nearest (dest : List IPAddress) (l : List (Vertex × ℕ)) (x : ℚ × Option ℕ) :
    (∀ y ∈ l, y.1.node ∈ dest → (l.foldl (nearest dest) x).1 ≤ y.1.dist) ∧
      (l.foldl (nearest dest) x).1 ≤ x.1 ∧
      (l.foldl (nearest dest) x = x ∨ ∃ y ∈ l, y.1.node ∈ dest ∧ y.1.dist < x.1 ∧
        l.foldl (nearest dest) x = (y.1.dist, some y.2)) := by
  induction l generalizing x with
  | nil => exact ⟨nofun, le_refl _, .inl rfl⟩
  | cons y l ih =>
    obtain ⟨hall, hle, hfound⟩ := ih (nearest dest x y)
    rw [List.foldl_cons]
    have hstep : (nearest dest x y = x ∧ (y.1.node ∈ dest → x.1 ≤ y.1.dist)) ∨
        (nearest dest x y = (y.1.dist, some y.2) ∧ y.1.node ∈ dest ∧ y.1.dist < x.1) := by
      unfold nearest
      by_cases hdist : x.1 ≤ y.1.dist
      · rw [if_pos hdist]
        exact .inl ⟨rfl, fun _ ↦ hdist⟩
      · rw [if_neg hdist]
        by_cases hdest : y.1.node ∈ dest
        · rw [if_pos hdest]
          exact .inr ⟨rfl, hdest, not_le.mp hdist⟩
        · rw [if_neg hdest]
          exact .inl ⟨rfl, fun h ↦ absurd h hdest⟩
    rcases hstep with ⟨hsame, hy⟩ | ⟨hnew, hy, hlt⟩
    · rw [hsame] at hall hle hfound ⊢
      refine ⟨fun z hz hzd ↦ ?_, hle, ?_⟩
      · rcases List.mem_cons.mp hz with rfl | hz
        · exact hle.trans (hy hzd)
        · exact hall z hz hzd
      · rcases hfound with hx | ⟨z, hz, hzd⟩
        · exact .inl hx
        · exact .inr ⟨z, List.mem_cons_of_mem y hz, hzd⟩
    · rw [hnew] at hall hle hfound ⊢
      refine ⟨fun z hz hzd ↦ ?_, hle.trans hlt.le, .inr ?_⟩
      · rcases List.mem_cons.mp hz with rfl | hz
        · exact hle
        · exact hall z hz hzd
      · rcases hfound with hx | ⟨z, hz, hzd, hzlt, hres⟩
        · exact ⟨y, List.mem_cons_self, hy, hlt, hx⟩
        · exact ⟨z, List.mem_cons_of_mem y hz, hzd, hzlt.trans hlt, hres⟩

theorem labels_parent (h : Distinct vs) (hi : vs[i]? = some v) :
    (labels vs).parent v.node = v.parent.bind fun p ↦ (vs.map Vertex.node)[p]? := by
  change ((vertexAt vs v.node).bind fun v ↦ v.parent.bind fun p ↦ (vs.map Vertex.node)[p]?) = _
  rw [vertexAt_of_getElem? h hi]
  rfl

variable (h : Solved G routerId vs)

include h

/-- The loop over the parents ends at the source, with the vertices on the way. -/
theorem walkUp_spec (hG : ∀ e ∈ G, 0 ≤ e.weight)
    {m : ℕ} {w : ℤ} (hwalk : Walk (parentGraph (labels vs).parent) routerId m a w) (hi : vs[i]? = some v)
    (ha : v.node = a) {fuel : ℕ} (hfuel : m < fuel) (rest : List IPAddress) :
    ∃ path, walkUp vs fuel i (a :: rest) = .ok (path ++ rest) ∧
      Route G routerId path a ((labels vs).dist a) := by
  induction hwalk generalizing i v fuel rest with
  | start =>
    obtain ⟨fuel, rfl⟩ := Nat.exists_eq_succ_of_ne_zero (by omega : fuel ≠ 0)
    have hparent := labels_parent h.distinct hi
    rw [ha, h.labelled.sourceParent] at hparent
    have hnone : v.parent = none := by
      cases hp : v.parent with
      | none => rfl
      | some p =>
        rw [hp, Option.bind_some, List.getElem?_map,
          List.getElem?_eq_getElem (h.inRange v (List.mem_of_getElem? hi) p hp)] at hparent
        cases hparent
    refine ⟨[routerId], ?_, ?_⟩
    · unfold walkUp
      simp only [hi, hnone]
      rfl
    · rw [h.labelled.source]
      exact .start
  | @step n w e hup he ih =>
    obtain ⟨fuel, rfl⟩ := Nat.exists_eq_succ_of_ne_zero (by omega : fuel ≠ 0)
    have hparent := labels_parent h.distinct hi
    rw [ha, he.1] at hparent
    obtain ⟨p, hp, hnode⟩ := Option.bind_eq_some_iff.mp hparent.symm
    rw [List.getElem?_map, Option.map_eq_some_iff] at hnode
    obtain ⟨u, hu, hunode⟩ := hnode
    have hless : n < fuel := by omega
    obtain ⟨path, hpath, hroute⟩ := ih hu hunode hless (e.dest :: rest)
    obtain ⟨E, hE, hEsrc, hEdest, htight⟩ := h.labelled.parent_tight hG h.least he.1
    refine ⟨path ++ [e.dest], ?_, ?_⟩
    · unfold walkUp
      simp only [hi, hp, hu]
      rw [hunode, hpath, List.append_assoc]
      rfl
    · rw [htight, ← hEdest]
      rw [← hEsrc] at hroute
      rw [← hEsrc]
      exact hroute.step hE

/-- Least distances, and a tree of tight links that leads back to the router. -/
structure ShortestPathTree (G : Set (Edge IPAddress ℚ)) (routerId : IPAddress) (vs : List Vertex) :
    Prop where
  distinct : Distinct vs
  mem_iff : ∀ a, a ∈ vs.map Vertex.node ↔ a = routerId ∨ ∃ e ∈ G, a = e.src ∨ a = e.dest
  dist : ∀ v ∈ vs,
    v.dist < lsInfinity ∧ IsLeast { w | ∃ n, Walk G routerId n v.node w } v.dist ∨
      v.dist = lsInfinity ∧ v.parent = none ∧
        ∀ n w, Walk G routerId n v.node w → lsInfinity ≤ w
  parent : ∀ v ∈ vs, ∀ p, v.parent = some p → ∃ u e, vs[p]? = some u ∧ e ∈ G ∧ e.src = u.node ∧
    e.dest = v.node ∧ v.dist = u.dist + e.weight
  rooted : ∀ v ∈ vs, v.dist < lsInfinity → Rooted (labels vs).parent routerId v.node

/-- A lightest route to one of the destinations, or nothing if none can be reached. -/
structure ChosenPath (G : Set (Edge IPAddress ℚ)) (routerId : IPAddress) (dest : List IPAddress)
    (path : List IPAddress) : Prop where
  reached : (∃ d ∈ dest, ∃ n w, Walk G routerId n d w ∧ w < lsInfinity) →
    ∃ d ∈ dest, ∃ w, Route G routerId path d w ∧
      ∀ d' ∈ dest, ∀ n w', Walk G routerId n d' w' → w ≤ w'
  unreached : (¬ ∃ d ∈ dest, ∃ n w, Walk G routerId n d w ∧ w < lsInfinity) → path = []

theorem Solved.shortestPathTree (hG : ∀ e ∈ G, 0 ≤ e.weight) :
    ShortestPathTree G routerId vs := by
  refine ⟨h.distinct, h.mem_iff, fun v hv ↦ ?_, fun v hv p hp ↦ ?_, fun v hv hlt ↦ ?_⟩
  · obtain ⟨i, hi⟩ := List.mem_iff_getElem?.mp hv
    have hdist := labels_dist h.distinct hi
    have hle := h.labelled.le v.node
    rw [hdist] at hle
    rcases hle.lt_or_eq with hlt | heq
    · obtain ⟨n, hwalk⟩ := h.labelled.walk v.node (hdist ▸ hlt)
      rw [hdist] at hwalk
      refine .inl ⟨hlt, ⟨n, hwalk⟩, ?_⟩
      rintro w ⟨m, hw⟩
      exact hdist ▸ h.least m v.node w hw
    · refine .inr ⟨heq, ?_, fun n w hw ↦ ?_⟩
      · have hparent := labels_parent h.distinct hi
        rw [h.labelled.unreached v.node (hdist.trans heq)] at hparent
        cases hp : v.parent with
        | none => rfl
        | some p =>
          rw [hp, Option.bind_some, List.getElem?_map,
            List.getElem?_eq_getElem (h.inRange v hv p hp)] at hparent
          cases hparent
      · rw [← heq, ← hdist]
        exact h.least n v.node w hw
  · obtain ⟨i, hi⟩ := List.mem_iff_getElem?.mp hv
    have hu : vs[p]? = some (vs.get ⟨p, h.inRange v hv p hp⟩) :=
      List.getElem?_eq_getElem (h.inRange v hv p hp)
    have hparent := labels_parent h.distinct hi
    rw [hp, Option.bind_some, List.getElem?_map, hu, Option.map_some] at hparent
    obtain ⟨e, he, hsrc, hdest, htight⟩ := h.labelled.parent_tight hG h.least hparent
    rw [labels_dist h.distinct hi, labels_dist h.distinct hu] at htight
    exact ⟨_, e, hu, he, hsrc, hdest, htight⟩
  · obtain ⟨i, hi⟩ := List.mem_iff_getElem?.mp hv
    apply h.labelled.rooted
    rw [labels_dist h.distinct hi]
    exact hlt

theorem Solved.exists_vertex {n : ℕ} {w : ℚ}
    (hwalk : Walk G routerId n a w) : ∃ (i : ℕ) (v : Vertex), vs[i]? = some v ∧ v.node = a := by
  have hmem : a ∈ vs.map Vertex.node := by
    rw [h.mem_iff]
    cases hwalk with
    | start => exact .inl rfl
    | step _ he => exact .inr ⟨_, he, .inr rfl⟩
  obtain ⟨v, hv, hnode⟩ := List.mem_map.mp hmem
  obtain ⟨i, hi⟩ := List.mem_iff_getElem?.mp hv
  exact ⟨i, v, hi, hnode⟩

/-- A vertex that is reached is not deeper in the tree than there are vertices. -/
theorem Solved.depth (hreached : (labels vs).dist a < lsInfinity) :
    ∃ m < vs.length, ∃ w, Walk (parentGraph (labels vs).parent) routerId m a w := by
  have hroot : routerId ∈ (vs.map Vertex.node).toFinset := by
    rw [List.mem_toFinset, h.mem_iff]
    exact .inl rfl
  have hmem : ∀ a p, (labels vs).parent a = some p → a ∈ (vs.map Vertex.node).toFinset := by
    intro a p hp
    rw [List.mem_toFinset, h.mem_iff]
    obtain ⟨e, he, _, hdest, _⟩ := h.labelled.parent a p hp
    exact .inr ⟨e, he, .inr hdest.symm⟩
  obtain ⟨m, hm, hwalk⟩ := (h.labelled.rooted a hreached).walk hroot hmem
  rw [List.toFinset_card_of_nodup h.distinct, List.length_map] at hm
  exact ⟨m, hm, hwalk⟩

theorem Solved.chosenPath (hG : ∀ e ∈ G, 0 ≤ e.weight) (dest : List IPAddress) :
    ∃ path, (match (vs.zipIdx.foldl (nearest dest) (lsInfinity, none)).2 with
      | none => .ok []
      | some i =>
          match vs[i]? with
          | none => .error .assertion
          | some v => walkUp vs vs.length i [v.node]) = Except.ok path ∧
      ChosenPath G routerId dest path := by
  obtain ⟨hall, _, hfound⟩ := foldl_nearest dest vs.zipIdx (lsInfinity, none)
  have hleast : ∀ d ∈ dest, ∀ n w, Walk G routerId n d w →
      (vs.zipIdx.foldl (nearest dest) (lsInfinity, none)).1 ≤ w := by
    intro d hd n w hwalk
    obtain ⟨i, v, hi, hnode⟩ := h.exists_vertex hwalk
    have hzip : (v, i) ∈ vs.zipIdx := List.mk_mem_zipIdx_iff_getElem?.mpr hi
    calc (vs.zipIdx.foldl (nearest dest) (lsInfinity, none)).1
        ≤ v.dist := hall (v, i) hzip (hnode ▸ hd)
      _ = (labels vs).dist d := by rw [← hnode, labels_dist h.distinct hi]
      _ ≤ w := h.least n d w hwalk
  rcases hfound with hnone | ⟨⟨v, i⟩, hzip, hvdest, hlt, hres⟩
  · rw [hnone] at hleast ⊢
    refine ⟨[], rfl, fun ⟨d, hd, n, w, hwalk, hw⟩ ↦ ?_, fun _ ↦ rfl⟩
    exact absurd (hleast d hd n w hwalk) (not_le.mpr hw)
  · have hi : vs[i]? = some v := List.mk_mem_zipIdx_iff_getElem?.mp hzip
    have hdist := labels_dist h.distinct hi
    have hreached : (labels vs).dist v.node < lsInfinity := hdist ▸ hlt
    rw [hres] at hleast ⊢
    simp only [hi]
    obtain ⟨m, hm, w, hup⟩ := h.depth hreached
    obtain ⟨path, hpath, hroute⟩ := walkUp_spec h hG hup hi rfl hm []
    rw [List.append_nil] at hpath
    obtain ⟨n, hwalk⟩ := h.labelled.walk v.node hreached
    refine ⟨path, hpath, fun _ ↦ ⟨v.node, hvdest, _, hroute, ?_⟩, fun hnot ↦ ?_⟩
    · rw [hdist]
      exact hleast
    · exact absurd ⟨v.node, hvdest, n, _, hwalk, hreached⟩ hnot

end Result

/-- For links without loops and with metrics that are not negative, `calculateShortestPaths` gives
least distances over the usable links and a tree of parents, and `calculateShortestPath` a lightest
route to one of the destinations. -/
theorem constrained_shortest_paths (routerId : IPAddress) (topology : List TELinkStateInfo)
    (dest : List IPAddress) (reqBandwidth : ℚ) (priority : Fin 8)
    (hself : ∀ link ∈ topology, link.advrouter ≠ link.linkid)
    (hmetric : ∀ link ∈ topology, 0 ≤ link.metric) :
    (∃ vs, calculateShortestPaths routerId topology reqBandwidth priority = .ok vs ∧
      ShortestPathTree { e | e ∈ usableEdges topology reqBandwidth priority } routerId vs) ∧
    ∃ path, calculateShortestPath routerId dest topology reqBandwidth priority = .ok path ∧
      ChosenPath { e | e ∈ usableEdges topology reqBandwidth priority } routerId dest path := by
  have hG : ∀ e ∈ { e | e ∈ usableEdges topology reqBandwidth priority }, 0 ≤ e.weight := by
    intro e he
    obtain ⟨link, hlink, rfl⟩ := List.mem_map.mp he
    exact hmetric link (List.mem_of_mem_filter hlink)
  obtain ⟨vs, hvs, hsolved⟩ :=
    calculateShortestPaths_solved routerId topology reqBandwidth priority hself hmetric
  obtain ⟨path, hpath, hchosen⟩ := hsolved.chosenPath hG dest
  refine ⟨⟨vs, hvs, hsolved.shortestPathTree hG⟩, path, ?_, hchosen⟩
  unfold calculateShortestPath
  rw [hvs, TransitionSystem.ok_bind]
  exact hpath

/-- Two routers, joined by two parallel links. -/
def parallelLinks : List TELinkStateInfo :=
  [⟨1, 2, 0, 0, 5, 100, fun _ ↦ 100, 0, 1, 1, true⟩, ⟨1, 2, 0, 0, 3, 100, fun _ ↦ 100, 0, 1, 2, true⟩]

theorem constrained_shortest_paths_parallel :
    ∃ path, calculateShortestPath 1 [2] parallelLinks 10 7 = .ok path ∧
      ChosenPath { e | e ∈ usableEdges parallelLinks 10 7 } 1 [2] path := by
  have hlinks : ∀ link ∈ parallelLinks, link.advrouter ≠ link.linkid ∧ 0 ≤ link.metric := by
    intro link hlink
    simp only [parallelLinks, List.mem_cons, List.not_mem_nil, or_false] at hlink
    rcases hlink with rfl | rfl
    · exact ⟨by decide, by norm_num⟩
    · exact ⟨by decide, by norm_num⟩
  exact (constrained_shortest_paths 1 parallelLinks [2] 10 7 (fun l hl ↦ (hlinks l hl).1)
    fun l hl ↦ (hlinks l hl).2).2

end InetManet.TED
