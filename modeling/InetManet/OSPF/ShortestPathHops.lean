import InetManet.OSPF.NextHops

/-!
# The next hops are those of the shortest paths

With link costs of at least one, and distances below `lsInfinity`, the vertices are added to the tree in
the order of their distances, networks first. What is left is that the parent of a network, which stays
the root once it has been found from there, tells whether a link of the root is a shortest path to it.
-/

namespace InetManet.OSPF.Routing

open Dijkstra

section

variable {conf : HopConfiguration} {db : AreaDatabase} {root : IPAddress} {v w p : Vertex} {s : HopSearch}

/-! ## The loops -/

theorem expandVertex_eq : expandVertex conf db root s v =
    s.expand (calculateNextHops conf db root) v (db.successors v) := by
  unfold expandVertex AreaDatabase.successors LabelledSearch.expand
  cases hv : db.lsa v with
  | none => rfl
  | some lsa =>
    have hvertex := AreaDatabase.vertex_of_lsa hv
    cases lsa with
    | router r =>
      dsimp only
      unfold expandRouter VertexLSA.outgoing
      rw [List.foldl_filter, List.foldl_map, List.foldl_filter]
      congr 1
      ext1 s
      ext1 link
      by_cases hstub : link.type = .stubLink
      · simp [hstub]
      · have hfollow : decide (link.type ≠ .stubLink) = true := by simpa using hstub
        rw [if_neg hstub, hfollow, if_pos rfl, ← hvertex]
        rfl
    | network n =>
      dsimp only
      unfold expandNetwork VertexLSA.outgoing
      rw [List.foldl_filter, List.foldl_map, ← hvertex]
      rfl

/-- Of the closest candidates one that is a network is taken. -/
theorem closest_network (dist : Vertex → ℕ) (candidates : List Vertex) (x : Vertex × ℕ)
    (hx : dist x.1 = x.2 ∨ x.2 = lsInfinity) :
    ∀ y ∈ candidates, y.isRouter = false → dist y = (candidates.foldl (closest dist) x).2 →
      (candidates.foldl (closest dist) x).1.isRouter = false := by
  induction candidates using List.reverseRecOn with
  | nil => nofun
  | append_singleton candidates c ih =>
    obtain ⟨-, -, -, hall⟩ := AreaDatabase.closest_foldl dist candidates x hx
    rw [List.foldl_append, List.foldl_cons, List.foldl_nil]
    generalize candidates.foldl (closest dist) x = r at ih hall ⊢
    intro y hy hnetwork
    unfold closest
    split
    · rename_i hlt
      intro heq
      rcases List.mem_append.mp hy with hy | hy
      · have hle := hall y hy
        omega
      · rwa [← List.mem_singleton.mp hy]
    · split
      · rename_i htie
        intro _
        exact htie.2.2
      · rename_i htie
        intro heq
        rcases List.mem_append.mp hy with hy | hy
        · exact ih y hy hnetwork heq
        · rw [List.mem_singleton.mp hy] at hnetwork heq
          cases hr : r.1.isRouter with
          | false => rfl
          | true => exact absurd ⟨heq, hr, hnetwork⟩ htie

theorem key_le_of_closest {dist : Vertex → ℕ} {x y : Vertex} (hle : dist x ≤ dist y)
    (htie : y.isRouter = false → dist y = dist x → x.isRouter = false) :
    key Vertex.isRouter dist x ≤ key Vertex.isRouter dist y := by
  unfold key
  have hx : x.isRouter.toNat ≤ 1 := Bool.toNat_le _
  rcases hle.lt_or_eq with hlt | heq
  · omega
  · cases hy : y.isRouter with
    | true =>
      rw [heq, Bool.toNat_true]
      omega
    | false => rw [heq, htie hy heq.symm]

/-- Each edge has a cost or leads from a network to a router. -/
theorem key_of_mem_successors (hcost : ∀ r ∈ db.routerLSAs, ∀ link ∈ r.links, 1 ≤ link.linkCost)
    {e : Vertex × ℕ} (he : e ∈ db.successors v) : v.isRouter.toNat < 2 * e.2 + e.1.isRouter.toNat := by
  obtain ⟨w, c⟩ := e
  obtain ⟨fromLSA, toLSA, h⟩ := AreaDatabase.mem_successors_iff.mp he
  have hvertex := AreaDatabase.vertex_of_lsa h.from_eq
  have hlink := h.link
  cases fromLSA with
  | router r =>
    obtain ⟨link, hmem, heq⟩ := List.mem_map.mp hlink
    obtain ⟨-, rfl⟩ := Prod.mk.inj heq
    have hr : r ∈ db.routerLSAs := by
      cases v with
      | network id =>
        cases hvertex
      | router id =>
        obtain ⟨r', hr', heq'⟩ := Option.map_eq_some_iff.mp h.from_eq
        cases heq'
        exact List.mem_of_find?_eq_some hr'
    have hone := hcost r hr link (List.mem_filter.mp hmem).1
    have hle : v.isRouter.toNat ≤ 1 := Bool.toNat_le _
    dsimp only
    omega
  | network n =>
    obtain ⟨id, -, heq⟩ := List.mem_map.mp hlink
    obtain ⟨rfl, rfl⟩ := Prod.mk.inj heq
    rw [← hvertex]
    simp [VertexLSA.vertex, Vertex.isRouter]

/-- The loop comes to its end with the tree and its hops. -/
theorem grow_spec (hroot : .router root ∈ db.vertices)
    (hcost : ∀ r ∈ db.routerLSAs, ∀ link ∈ r.links, 1 ≤ link.linkCost)
    (hfinite : ∀ w d, db.ConfirmedPath (.router root) w d →
      ∃ d' < lsInfinity, db.ConfirmedPath (.router root) w d') {fuel : ℕ}
    (hs : Invariant db.successors (.router root) lsInfinity v (db.successors v) s.toSearch)
    (h : Labelled db.successors (calculateNextHops conf db root) Vertex.isRouter (.router root) v [] s)
    (hfuel : db.vertices.length < fuel + s.tree.length) :
    ∃ s' v', grow conf db root fuel s v = .ok s' ∧ s'.candidates = [] ∧
      Invariant db.successors (.router root) lsInfinity v' [] s'.toSearch ∧
      Labelled db.successors (calculateNextHops conf db root) Vertex.isRouter (.router root) v'
        (db.successors v') s' := by
  induction fuel generalizing s v with
  | zero =>
    have hsub : s.tree ⊆ db.vertices := by
      intro x hx
      exact AreaDatabase.mem_vertices_of_path hroot (AreaDatabase.path_iff.mp (hs.sound x (.inl hx)))
    have hle := (List.subperm_of_subset (List.nodup_append.mp hs.nodup).1 hsub).length_le
    omega
  | succ fuel ih =>
    have hexpanded := hs.expand fun _ he ↦ he
    have hlabelled := h.expand hs.last_mem (fun _ he ↦ he) fun _ he ↦ key_of_mem_successors hcost he
    rw [← LabelledSearch.toSearch_expand (f := calculateNextHops conf db root)] at hexpanded
    rw [List.nil_append] at hlabelled
    have htree : (s.expand (calculateNextHops conf db root) v (db.successors v)).tree = s.tree := by
      rw [LabelledSearch.toSearch_expand, Search.tree_expand]
    unfold grow
    rw [expandVertex_eq]
    dsimp only
    generalize s.expand (calculateNextHops conf db root) v (db.successors v) = t at hexpanded hlabelled htree ⊢
    split
    · rename_i hnil
      exact ⟨t, v, rfl, hnil, hexpanded, hlabelled⟩
    · rename_i first rest hcons
      obtain ⟨hmem, hdist, -, hall⟩ := AreaDatabase.closest_foldl t.dist t.candidates (first, lsInfinity)
        (.inr rfl)
      have htie := closest_network t.dist t.candidates (first, lsInfinity) (.inr rfl)
      generalize t.candidates.foldl (closest t.dist) (first, lsInfinity) = r at hmem hdist hall htie ⊢
      have hfirst : first ∈ t.candidates := by
        rw [hcons]
        exact List.mem_cons_self
      have hcand : r.1 ∈ t.candidates := by
        rcases hmem with heq | hmem
        · rw [heq]
          exact hfirst
        · exact hmem
      have hnew (x : Vertex) (hx : x ∈ t.candidates) : x ∉ t.tree := fun hx' ↦
        List.disjoint_of_nodup_append hexpanded.nodup hx' hx
      have hr : t.dist r.1 = r.2 := by
        obtain ⟨d, hd, hpath⟩ := hfinite first _ (AreaDatabase.path_iff.mp (hexpanded.sound first (.inr hfirst)))
        obtain ⟨x, hx, hle⟩ := hexpanded.exists_candidate (AreaDatabase.path_iff.mpr hpath) hd
          (hnew first hfirst)
        have hmin := hall x hx
        exact hdist.resolve_right (by omega)
      have hselected := hexpanded.select hcand fun x hx _ ↦ hr.trans_le (hall x hx)
      have hlabels := hlabelled.select hcand (hnew r.1 hcand) hexpanded.root_mem fun x hx ↦
        key_le_of_closest (hr.trans_le (hall x hx)) fun hx' heq ↦ htie x hx hx' (heq.trans hr)
      apply ih hselected hlabels
      unfold LabelledSearch.select Search.select
      dsimp only
      rw [List.length_append, htree, List.length_singleton]
      omega

theorem grow_toSearch (fuel : ℕ) :
    (grow conf db root fuel s v).map (·.toSearch) = db.grow fuel s.toSearch v := by
  induction fuel generalizing s v with
  | zero => rfl
  | succ fuel ih =>
    unfold grow AreaDatabase.grow
    rw [expandVertex_eq, AreaDatabase.expandVertex_eq,
      ← LabelledSearch.toSearch_expand (f := calculateNextHops conf db root)]
    dsimp only
    generalize s.expand (calculateNextHops conf db root) v (db.successors v) = t
    cases t.candidates with
    | nil => rfl
    | cons first rest => exact ih

theorem mem_vertices_root (hroot : (db.findRouterLSA root).isSome = true) :
    .router root ∈ db.vertices := by
  obtain ⟨lsa, hlsa⟩ := Option.isSome_iff_exists.mp hroot
  have hvertex : db.lsa (.router root) = some (.router lsa) := by
    change (db.findRouterLSA root).map VertexLSA.router = _
    rw [hlsa]
    rfl
  exact AreaDatabase.mem_vertices hvertex

theorem enough_fuel : db.vertices.length <
    db.routerLSAs.length + db.networkLSAs.length + 1 + [Vertex.router root].length := by
  unfold AreaDatabase.vertices
  simp only [List.length_append, List.length_map, List.length_singleton]
  omega

theorem exists_tree (conf : HopConfiguration) (hroot : (db.findRouterLSA root).isSome = true) :
    ∃ s, calculateShortestPathTree conf db root = .ok s := by
  obtain ⟨t, -, ht, -⟩ := AreaDatabase.grow_spec (mem_vertices_root hroot)
    (Invariant.start (Vertex.router root) (fun _ ↦ 0) rfl) (@enough_fuel db root)
  have hsame := @grow_toSearch conf db root (.router root)
    ⟨⟨[.router root], [], fun _ ↦ 0⟩, fun _ ↦ [], fun v ↦ v⟩
    (db.routerLSAs.length + db.networkLSAs.length + 1)
  rw [ht] at hsame
  cases hs : calculateShortestPathTree conf db root with
  | ok s => exact ⟨s, rfl⟩
  | error fault =>
    unfold calculateShortestPathTree at hs
    rw [hs] at hsame
    cases hsame

/-! ## The next hops -/

/-- What the tree vertex `p` contributes, if the parents of networks tell whether they are attached to the
root. -/
theorem mem_calculateNextHops_iff {parent : Vertex} {hops : Vertex → List NextHop} {hop : NextHop}
    {lsa : VertexLSA} (hp : db.lsa p = some lsa)
    (hparent : ∀ id, p = .network id → (parent = .router root ↔ AttachedToRoot db root id)) :
    hop ∈ calculateNextHops conf db root (hops p) parent p w ↔ IsHopOver conf db root hops p w hop := by
  have hvertex := AreaDatabase.vertex_of_lsa hp
  unfold calculateNextHops IsHopOver
  rw [hp]
  cases lsa with
  | router r =>
    rw [← hvertex]
    dsimp only [VertexLSA.vertex]
    by_cases hid : r.linkStateID = root
    · rw [if_neg (not_not.mpr hid), if_pos hid]
    · rw [if_pos hid, if_neg hid]
  | network n =>
    have hfind : db.findNetworkLSA n.linkStateID = some n := by
      rw [← hvertex] at hp
      obtain ⟨n', hn, heq⟩ := Option.map_eq_some_iff.mp hp
      cases heq
      exact hn
    have hattached := hparent n.linkStateID hvertex.symm
    rw [← hvertex]
    dsimp only [VertexLSA.vertex]
    by_cases hroot : parent = .router root
    · rw [if_neg (not_not.mpr hroot)]
      have hyes := hattached.mp hroot
      constructor
      · intro hhop
        exact .inl ⟨hyes, n, hfind, hhop⟩
      · rintro (⟨-, n', hn', hhop⟩ | ⟨hno, -⟩)
        · rw [hfind] at hn'
          cases hn'
          exact hhop
        · exact absurd hyes hno
    · rw [if_pos hroot]
      have hno := mt hattached.mpr hroot
      constructor
      · intro hhop
        exact .inr ⟨hno, hhop⟩
      · rintro (⟨hyes, -⟩ | ⟨-, hhop⟩)
        · exact absurd hyes hno
        · exact hhop

theorem isLeast_of_mem (hs : Invariant db.successors (.router root) lsInfinity v [] s.toSearch)
    (hfinite : ∀ w d, db.ConfirmedPath (.router root) w d →
      ∃ d' < lsInfinity, db.ConfirmedPath (.router root) w d') (hw : w ∈ s.tree) :
    IsLeast {d | db.ConfirmedPath (.router root) w d} (s.dist w) := by
  constructor
  · exact AreaDatabase.path_iff.mp (hs.sound w (.inl hw))
  · intro d hd
    obtain ⟨d', hd', hpath⟩ := hfinite w d hd
    have hle := hs.optimal w hw d' (AreaDatabase.path_iff.mpr hpath) hd'
    by_cases hinf : d < lsInfinity
    · exact hs.optimal w hw d (AreaDatabase.path_iff.mpr hd) hinf
    · omega

theorem attachedToRoot_iff {id : IPAddress}
    (hattached : ∀ id c fromLSA toLSA, db.Confirmed (.router root) (.network id) c fromLSA toLSA →
      AttachedToRoot db root id) :
    (∃ e ∈ db.successors (.router root), e.1 = .network id) ↔ AttachedToRoot db root id := by
  constructor
  · rintro ⟨⟨x, c⟩, he, rfl⟩
    obtain ⟨fromLSA, toLSA, h⟩ := AreaDatabase.mem_successors_iff.mp he
    exact hattached id c fromLSA toLSA h
  · rintro ⟨c, fromLSA, toLSA, h, -⟩
    exact ⟨(.network id, c), AreaDatabase.mem_successors_iff.mpr ⟨_, _, h⟩, rfl⟩

/-- If each network with a link of the root has a shortest path over such a link, the vertices on the tree
have the next hops of the shortest paths. -/
theorem next_hops_of_shortest_paths (conf : HopConfiguration) (db : AreaDatabase) (root : IPAddress)
    (hroot : (db.findRouterLSA root).isSome = true)
    (hcost : ∀ r ∈ db.routerLSAs, ∀ link ∈ r.links, 1 ≤ link.linkCost)
    (hfinite : ∀ w d, db.ConfirmedPath (.router root) w d →
      ∃ d' < lsInfinity, db.ConfirmedPath (.router root) w d')
    (hattached : ∀ id c fromLSA toLSA, db.Confirmed (.router root) (.network id) c fromLSA toLSA →
      AttachedToRoot db root id) :
    ∃ s, calculateShortestPathTree conf db root = .ok s ∧
      (∀ v, v ∈ s.tree ↔ ∃ d, db.ConfirmedPath (.router root) v d) ∧ HopsMatch conf db root s := by
  obtain ⟨s, v, hs, hdone, hinv, hlabelled⟩ := grow_spec (mem_vertices_root hroot) hcost hfinite
    (Invariant.start (Vertex.router root) (fun _ ↦ 0) rfl)
    (Labelled.start (f := calculateNextHops conf db root) (fun _ ↦ 0) fun v ↦ v) enough_fuel
  have hfollowed (p : Vertex) (e : Vertex × ℕ) :
      Followed db.successors s.tree v (db.successors v) p e ↔ p ∈ s.tree ∧ e ∈ db.successors p := by
    constructor
    · rintro ⟨hp, he, -⟩
      exact ⟨hp, he⟩
    · rintro ⟨hp, he⟩
      refine ⟨hp, he, ?_⟩
      rintro rfl
      exact he
  have hmem (w : Vertex) : w ∈ s.tree ↔ ∃ d, db.ConfirmedPath (.router root) w d := by
    rw [hinv.mem_tree_iff hdone w]
    simp only [AreaDatabase.path_iff]
  have hleast (w : Vertex) (hw : w ∈ s.tree) := isLeast_of_mem hinv hfinite hw
  have hparent (id : IPAddress) (hid : .network id ∈ s.tree) :
      s.parent (.network id) = .router root ↔ AttachedToRoot db root id := by
    rw [hlabelled.parent _ (.inl hid) nofun, ← attachedToRoot_iff hattached]
    constructor
    · rintro ⟨e, he, heq⟩
      exact ⟨e, ((hfollowed _ e).mp he).2, heq⟩
    · rintro ⟨e, he, heq⟩
      exact ⟨e, (hfollowed _ e).mpr ⟨hinv.root_mem, he⟩, heq⟩
  refine ⟨s, hs, hmem, ?_⟩
  intro w hw hne hop
  rw [hlabelled.labels w (.inl hw) hne hop]
  constructor
  · rintro ⟨p, ⟨x, c⟩, hp, rfl, htight, hhop⟩
    obtain ⟨hptree, he⟩ := (hfollowed p _).mp hp
    obtain ⟨fromLSA, toLSA, hconfirmed⟩ := AreaDatabase.mem_successors_iff.mp he
    refine ⟨p, ⟨s.dist p, c, fromLSA, toLSA, hleast p hptree, hconfirmed, ?_⟩, ?_⟩
    · rw [htight]
      exact hleast x hw
    · apply (mem_calculateNextHops_iff hconfirmed.from_eq _).mp hhop
      rintro id rfl
      exact hparent id hptree
  · rintro ⟨p, ⟨d, c, fromLSA, toLSA, hd, hconfirmed, hdc⟩, hhop⟩
    have hptree : p ∈ s.tree := (hmem p).mpr ⟨d, hd.1⟩
    have hdp : s.dist p = d := (hleast p hptree).unique hd
    have hdw : s.dist w = d + c := (hleast w hw).unique hdc
    have he : (w, c) ∈ db.successors p := AreaDatabase.mem_successors_iff.mpr ⟨_, _, hconfirmed⟩
    refine ⟨p, (w, c), (hfollowed p _).mpr ⟨hptree, he⟩, rfl, by rw [hdp, hdw], ?_⟩
    apply (mem_calculateNextHops_iff hconfirmed.from_eq _).mpr hhop
    rintro id rfl
    exact hparent id hptree

end

/-! ## A network behind another router -/

/-- Routers 1, 2 and 3 on the network 10.0.0.0/24, where 1 and 2 have a link of their own. The link of
router 1 to the network has the given cost. -/
def detour (cost : ℕ) : AreaDatabase where
  routerLSAs := [
    ⟨1, 0, [⟨2, 0x0A010001, .pointToPointLink, 1⟩, ⟨0x0A000003, 0x0A000001, .transitLink, cost⟩]⟩,
    ⟨2, 0, [⟨1, 0x0A010002, .pointToPointLink, 1⟩, ⟨0x0A000003, 0x0A000002, .transitLink, 1⟩]⟩,
    ⟨3, 0, [⟨0x0A000003, 0x0A000003, .transitLink, 1⟩]⟩]
  networkLSAs := [⟨0x0A000003, 0, 0xFFFFFF00, [1, 2, 3]⟩]
  routerIDs := (by decide : [(1 : IPAddress), 2, 3].Nodup)
  networkIDs := List.nodup_singleton _

def detourNetwork : Vertex := .network 0x0A000003

/-- The interfaces of router 1. -/
def detourInterfaces : HopConfiguration where
  associatedInterfaces := [
    ⟨.pointToPoint, 1, true, ⟨0x0A010001, 0xFFFFFFFF⟩, 0, [⟨2, 0x0A010002⟩]⟩,
    ⟨.broadcast, 2, true, ⟨0x0A000001, 0xFFFFFF00⟩, 0x0A000003, [⟨2, 0x0A000002⟩, ⟨3, 0x0A000003⟩]⟩]
  hostRoutes := []
  advertisingRouter := fun
    | .router id => id
    | .network _ => 3

/-- A lower bound for the paths, from one that each edge respects. -/
theorem potential_le {db : AreaDatabase} {root w : Vertex} {d : ℕ} (potential : Vertex → ℕ)
    (hzero : potential root = 0)
    (hedge : ∀ v ∈ db.vertices, ∀ e ∈ db.successors v, potential e.1 ≤ potential v + e.2)
    (h : db.ConfirmedPath root w d) : potential w ≤ d := by
  induction h with
  | start => exact hzero.le
  | @step v w d c fromLSA toLSA hpath hconfirmed ih =>
    have hle := hedge v (AreaDatabase.mem_vertices hconfirmed.from_eq) (w, c)
      (AreaDatabase.mem_successors_iff.mpr ⟨_, _, hconfirmed⟩)
    dsimp only at hle
    omega

def detourDistance (v : Vertex) : ℕ := if v = .router 1 then 0 else if v = .router 2 then 1 else 2

theorem detour_paths {cost : ℕ} (hcost : cost = 2 ∨ cost = 10) : ∀ v ∈ (detour cost).vertices,
    (detour cost).ConfirmedPath (.router 1) v (detourDistance v) := by
  have hrouter2 : (.router 2, 1) ∈ (detour cost).successors (.router 1) := by
    rcases hcost with rfl | rfl <;> decide
  have hnetwork : (detourNetwork, 1) ∈ (detour cost).successors (.router 2) := by
    rcases hcost with rfl | rfl <;> decide
  have hrouter3 : (.router 3, 0) ∈ (detour cost).successors detourNetwork := by
    rcases hcost with rfl | rfl <;> decide
  have hpath1 : Path (detour cost).successors (.router 1) (.router 1) 0 := .start
  have hpath2 : Path (detour cost).successors (.router 1) (.router 2) 1 := hpath1.step hrouter2
  have hpathN : Path (detour cost).successors (.router 1) detourNetwork 2 := hpath2.step hnetwork
  have hpath3 : Path (detour cost).successors (.router 1) (.router 3) 2 := hpathN.step hrouter3
  intro v hv
  apply AreaDatabase.path_iff.mp
  have hcases : v = .router 1 ∨ v = .router 2 ∨ v = .router 3 ∨ v = detourNetwork := by
    simpa [AreaDatabase.vertices, detour, detourNetwork] using hv
  rcases hcases with rfl | rfl | rfl | rfl
  · exact hpath1
  · exact hpath2
  · exact hpath3
  · exact hpathN

theorem detour_isLeast {cost : ℕ} (hcost : cost = 2 ∨ cost = 10) :
    IsLeast {d | (detour cost).ConfirmedPath (.router 1) detourNetwork d} 2 := by
  constructor
  · apply detour_paths hcost detourNetwork
    rcases hcost with rfl | rfl <;> decide
  · intro d hd
    apply potential_le detourDistance rfl _ hd
    rcases hcost with rfl | rfl <;> decide

/-- Router 1 has two shortest paths to the network, one of them its own link. -/
theorem next_hops_of_both_paths :
    ∃ s, calculateShortestPathTree detourInterfaces (detour 2) 1 = .ok s ∧
      (∀ v, v ∈ s.tree ↔ ∃ d, (detour 2).ConfirmedPath (.router 1) v d) ∧
      HopsMatch detourInterfaces (detour 2) 1 s := by
  apply next_hops_of_shortest_paths detourInterfaces (detour 2) 1 (by decide) (by decide)
  · intro w d hpath
    have hw := AreaDatabase.mem_vertices_of_path (by decide) hpath
    refine ⟨detourDistance w, ?_, detour_paths (.inl rfl) w hw⟩
    unfold detourDistance
    split
    · decide
    · split <;> decide
  · intro id c fromLSA toLSA hconfirmed
    have hmem := AreaDatabase.mem_successors_iff.mpr ⟨_, _, hconfirmed⟩
    have hall : ∀ e ∈ (detour 2).successors (.router 1), e.1.isRouter = false →
        e = (detourNetwork, 2) := by decide
    obtain ⟨hid, rfl⟩ := Prod.mk.inj (hall _ hmem rfl)
    refine ⟨2, fromLSA, toLSA, hconfirmed, ?_⟩
    rw [hid]
    exact detour_isLeast (.inl rfl)

/-- The link of router 1 to the network costs 10, so that the path over router 2 is shorter. The network
takes over the hop to router 2, but router 3 behind it gets one over the expensive link. -/
theorem next_hop_over_expensive_link :
    (match calculateShortestPathTree detourInterfaces (detour 10) 1 with
      | .ok s => decide (.router 3 ∈ s.tree ∧ s.labels detourNetwork = [⟨1, 0x0A010002, 2⟩] ∧
          s.labels (.router 3) = [⟨2, 0x0A000003, 3⟩])
      | .error _ => false) = true ∧
    ∀ s, calculateShortestPathTree detourInterfaces (detour 10) 1 = .ok s →
      ¬ HopsMatch detourInterfaces (detour 10) 1 s := by
  have hcheck : (match calculateShortestPathTree detourInterfaces (detour 10) 1 with
      | .ok s => decide (.router 3 ∈ s.tree ∧ s.labels detourNetwork = [⟨1, 0x0A010002, 2⟩] ∧
          s.labels (.router 3) = [⟨2, 0x0A000003, 3⟩])
      | .error _ => false) = true := by decide
  refine ⟨hcheck, ?_⟩
  intro s hs hmatch
  rw [hs] at hcheck
  obtain ⟨htree, hnetwork, hrouter⟩ := of_decide_eq_true hcheck
  have hhop : ⟨2, 0x0A000003, 3⟩ ∈ s.labels (.router 3) := by
    rw [hrouter]
    exact List.mem_cons_self
  obtain ⟨p, ⟨d, c, fromLSA, toLSA, -, hconfirmed, -⟩, hover⟩ :=
    (hmatch (.router 3) htree (by decide) _).mp hhop
  have hpred : ∀ v ∈ (detour 10).vertices, ∀ e ∈ (detour 10).successors v, e.1 = .router 3 →
      v = detourNetwork := by decide
  have hp : p = detourNetwork := hpred p (AreaDatabase.mem_vertices hconfirmed.from_eq) (_, c)
    (AreaDatabase.mem_successors_iff.mpr ⟨_, _, hconfirmed⟩) rfl
  subst hp
  rcases hover with ⟨⟨c', fromLSA', toLSA', hroot, hleast⟩, -⟩ | ⟨-, hlabel⟩
  · have hcost : ∀ e ∈ (detour 10).successors (.router 1), e.1 = detourNetwork → e.2 = 10 := by decide
    have hten : c' = 10 := hcost (_, c') (AreaDatabase.mem_successors_iff.mpr ⟨_, _, hroot⟩) rfl
    have htwo := hleast.unique (detour_isLeast (.inr rfl))
    omega
  · have hmem : (⟨2, 0x0A000003, 3⟩ : NextHop) ∈ s.labels detourNetwork := hlabel
    rw [hnetwork] at hmem
    exact absurd hmem (by decide)

end InetManet.OSPF.Routing
