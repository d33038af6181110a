import InetManet.Library.TransitionSystem
import InetManet.Library.Dijkstra
import InetManet.OSPF.LinkState

/-!
# The shortest path tree of an area

The vertices are the routers and transit networks of an area, each described by an LSA in the
database. A link is followed only if the LSA at its other end is there, is not at MaxAge and points
back. Next hops, parents and the routing table that is filled on the way are left out.
-/

namespace InetManet.OSPF

open TransitionSystem Dijkstra

inductive LinkType
  | pointToPointLink
  | transitLink
  | stubLink
  | virtualLink
  deriving DecidableEq

structure Link where
  linkID : IPAddress
  linkData : IPAddress
  type : LinkType
  linkCost : ℕ
  deriving DecidableEq

structure RouterLSA where
  linkStateID : IPAddress
  lsAge : ℕ
  links : List Link
  deriving DecidableEq

structure NetworkLSA where
  linkStateID : IPAddress
  lsAge : ℕ
  networkMask : IPAddress
  attachedRouters : List IPAddress
  deriving DecidableEq

/-- The LSAs of an area, at most one of each type for a link state ID. -/
structure AreaDatabase where
  routerLSAs : List RouterLSA
  networkLSAs : List NetworkLSA
  routerIDs : (routerLSAs.map RouterLSA.linkStateID).Nodup
  networkIDs : (networkLSAs.map NetworkLSA.linkStateID).Nodup

/-- A vertex, by the type and the link state ID of its LSA. -/
inductive Vertex
  | router (linkStateID : IPAddress)
  | network (linkStateID : IPAddress)
  deriving DecidableEq

/-- An LSA that describes a vertex. -/
inductive VertexLSA
  | router (lsa : RouterLSA)
  | network (lsa : NetworkLSA)

def VertexLSA.vertex : VertexLSA → Vertex
  | router lsa => .router lsa.linkStateID
  | network lsa => .network lsa.linkStateID

def VertexLSA.lsAge : VertexLSA → ℕ
  | router lsa => lsa.lsAge
  | network lsa => lsa.lsAge

def Vertex.isRouter : Vertex → Bool
  | router _ => true
  | network _ => false

/-- Whether the first LSA has a link to the second one. -/
def hasLink : VertexLSA → VertexLSA → Bool
  | .router fromLSA, .router toLSA => fromLSA.links.any fun link ↦
      (link.type == .pointToPointLink || link.type == .virtualLink) &&
        link.linkID == toLSA.linkStateID
  | .router fromLSA, .network toLSA => fromLSA.links.any fun link ↦
      link.type == .transitLink && link.linkID == toLSA.linkStateID ||
        link.type == .stubLink &&
          link.linkID &&& link.linkData == toLSA.linkStateID &&& toLSA.networkMask
  | .network fromLSA, .router toLSA => fromLSA.attachedRouters.any (· == toLSA.linkStateID)
  | .network _, .network _ => false

namespace AreaDatabase

variable (db : AreaDatabase)

def findRouterLSA (linkStateID : IPAddress) : Option RouterLSA :=
  db.routerLSAs.find? fun lsa ↦ lsa.linkStateID == linkStateID

def findNetworkLSA (linkStateID : IPAddress) : Option NetworkLSA :=
  db.networkLSAs.find? fun lsa ↦ lsa.linkStateID == linkStateID

def lsa : Vertex → Option VertexLSA
  | .router id => (db.findRouterLSA id).map .router
  | .network id => (db.findNetworkLSA id).map .network

/-- Steps (2) (a) and (b) for a link to the vertex `w`. -/
def join (justAdded : VertexLSA) (w : Vertex) : Bool :=
  match db.lsa w with
  | none => false
  | some joining => joining.lsAge != maxAge && hasLink joining justAdded

/-- The vertex at the other end of a link. -/
def joiningVertex (link : Link) : Vertex :=
  if link.type = .transitLink then .network link.linkID else .router link.linkID

/-- The loop over the links of a router. -/
def expandRouter (s : Search Vertex) (lsa : RouterLSA) : Search Vertex :=
  lsa.links.foldl (fun s link ↦
    if link.type = .stubLink then s
    else if db.join (.router lsa) (joiningVertex link) then
      s.visit (s.dist (.router lsa.linkStateID) + link.linkCost) (joiningVertex link)
    else s) s

/-- The loop over the attached routers of a network. -/
def expandNetwork (s : Search Vertex) (lsa : NetworkLSA) : Search Vertex :=
  lsa.attachedRouters.foldl (fun s id ↦
    if db.join (.network lsa) (.router id) then
      s.visit (s.dist (.network lsa.linkStateID)) (.router id)
    else s) s

def expandVertex (s : Search Vertex) (justAdded : Vertex) : Search Vertex :=
  match db.lsa justAdded with
  | none => s
  | some (.router lsa) => db.expandRouter s lsa
  | some (.network lsa) => db.expandNetwork s lsa

end AreaDatabase

/-- The loop that looks for the closest candidate, with `closestVertex` and `minDistance`. Of two
that are equally close a network is taken before a router. -/
def closest (dist : Vertex → ℕ) (x : Vertex × ℕ) (candidate : Vertex) : Vertex × ℕ :=
  if dist candidate < x.2 then (candidate, dist candidate)
  else if dist candidate = x.2 ∧ x.1.isRouter = true ∧ candidate.isRouter = false then (candidate, x.2)
  else x

inductive SpfFault
  | endless
  deriving DecidableEq

namespace AreaDatabase

/-- The outer loop. -/
def grow (db : AreaDatabase) : ℕ → Search Vertex → Vertex → Except SpfFault (Search Vertex)
  | 0, _, _ => .error .endless
  | fuel + 1, s, justAdded =>
      let s := db.expandVertex s justAdded
      match s.candidates with
      | [] => .ok s
      | first :: _ =>
          let w := (s.candidates.foldl (closest s.dist) (first, lsInfinity)).1
          db.grow fuel (s.select w) w

/-- The tree from the router LSA `spfTreeRoot`, with the distances of its vertices. -/
def calculateShortestPathTree (db : AreaDatabase) (spfTreeRoot : IPAddress) :
    Except SpfFault (Search Vertex) :=
  db.grow (db.routerLSAs.length + db.networkLSAs.length + 1)
    ⟨[.router spfTreeRoot], [], fun _ ↦ 0⟩ (.router spfTreeRoot)

/-! ## Paths -/

end AreaDatabase

/-- The vertices an LSA points to. Links of routers have costs, the way from a network to a router has
none. -/
def VertexLSA.outgoing : VertexLSA → List (Vertex × ℕ)
  | router lsa => (lsa.links.filter fun link ↦ link.type ≠ .stubLink).map fun link ↦
      (AreaDatabase.joiningVertex link, link.linkCost)
  | network lsa => lsa.attachedRouters.map fun id ↦ (.router id, 0)

namespace AreaDatabase

/-- A link from `v` to `w` that both ends confirm, and `w` is not at MaxAge. -/
structure Confirmed (db : AreaDatabase) (v w : Vertex) (cost : ℕ) (fromLSA toLSA : VertexLSA) :
    Prop where
  from_eq : db.lsa v = some fromLSA
  to_eq : db.lsa w = some toLSA
  link : (w, cost) ∈ fromLSA.outgoing
  forth : hasLink fromLSA toLSA = true
  back : hasLink toLSA fromLSA = true
  age : toLSA.lsAge ≠ maxAge

inductive ConfirmedPath (db : AreaDatabase) (root : Vertex) : Vertex → ℕ → Prop
  | start : ConfirmedPath db root root 0
  | step {v w : Vertex} {d cost : ℕ} {fromLSA toLSA : VertexLSA} : ConfirmedPath db root v d →
      db.Confirmed v w cost fromLSA toLSA → ConfirmedPath db root w (d + cost)

/-- The links that the search follows. -/
def successors (db : AreaDatabase) (v : Vertex) : List (Vertex × ℕ) :=
  match db.lsa v with
  | none => []
  | some lsa => lsa.outgoing.filter fun e ↦ db.join lsa e.1

variable {db : AreaDatabase} {v w : Vertex} {cost : ℕ} {lsa : VertexLSA}

theorem vertex_of_lsa (h : db.lsa v = some lsa) : lsa.vertex = v := by
  cases v with
  | router id =>
    obtain ⟨r, hr, rfl⟩ := Option.map_eq_some_iff.mp h
    have hid := List.find?_some hr
    rw [VertexLSA.vertex, beq_iff_eq.mp hid]
  | network id =>
    obtain ⟨n, hn, rfl⟩ := Option.map_eq_some_iff.mp h
    have hid := List.find?_some hn
    rw [VertexLSA.vertex, beq_iff_eq.mp hid]

theorem join_iff : db.join lsa w = true ↔
    ∃ joining, db.lsa w = some joining ∧ joining.lsAge ≠ maxAge ∧ hasLink joining lsa = true := by
  unfold join
  cases db.lsa w with
  | none => simp
  | some joining => simp

/-- A link that is not a stub link is found by `hasLink`. -/
theorem hasLink_of_outgoing {toLSA : VertexLSA} (h : (w, cost) ∈ lsa.outgoing)
    (hto : toLSA.vertex = w) : hasLink lsa toLSA = true := by
  subst hto
  cases lsa with
  | router r =>
    obtain ⟨link, hlink, heq⟩ := List.mem_map.mp h
    obtain ⟨hmem, htype⟩ := List.mem_filter.mp hlink
    obtain ⟨hvertex, _⟩ := Prod.mk.inj heq
    have hstub : link.type ≠ .stubLink := by simpa using htype
    unfold joiningVertex at hvertex
    cases toLSA with
    | router r' =>
      split at hvertex
      · cases hvertex
      · rename_i htransit
        have hid : link.linkID = r'.linkStateID := Vertex.router.inj hvertex
        apply List.any_eq_true.mpr
        refine ⟨link, hmem, ?_⟩
        cases hl : link.type with
        | pointToPointLink => simp [hid]
        | virtualLink => simp [hid]
        | transitLink => exact absurd hl htransit
        | stubLink => exact absurd hl hstub
    | network n =>
      split at hvertex
      · rename_i htransit
        have hid : link.linkID = n.linkStateID := Vertex.network.inj hvertex
        apply List.any_eq_true.mpr
        exact ⟨link, hmem, by simp [htransit, hid]⟩
      · cases hvertex
  | network n =>
    obtain ⟨id, hid, heq⟩ := List.mem_map.mp h
    obtain ⟨hvertex, _⟩ := Prod.mk.inj heq
    cases toLSA with
    | router r =>
      cases hvertex
      exact List.any_eq_true.mpr ⟨r.linkStateID, hid, beq_self_eq_true _⟩
    | network n' => cases hvertex

theorem mem_successors_iff : (w, cost) ∈ db.successors v ↔
    ∃ fromLSA toLSA, db.Confirmed v w cost fromLSA toLSA := by
  unfold successors
  cases hv : db.lsa v with
  | none =>
    constructor
    · exact nofun
    · rintro ⟨fromLSA, _, h⟩
      rw [h.from_eq] at hv
      cases hv
  | some lsa =>
    dsimp only
    rw [List.mem_filter, join_iff]
    constructor
    · rintro ⟨hout, joining, hw, hage, hback⟩
      exact ⟨lsa, joining, hv, hw, hout, hasLink_of_outgoing hout (vertex_of_lsa hw), hback, hage⟩
    · rintro ⟨fromLSA, toLSA, h⟩
      obtain rfl : fromLSA = lsa := Option.some.inj (h.from_eq.symm.trans hv)
      exact ⟨h.link, toLSA, h.to_eq, h.age, h.back⟩

theorem path_iff {root : Vertex} {d : ℕ} :
    Path db.successors root v d ↔ db.ConfirmedPath root v d := by
  constructor
  · intro h
    induction h with
    | start => exact .start
    | step _ he ih =>
      obtain ⟨_, _, hconfirmed⟩ := mem_successors_iff.mp he
      exact ih.step hconfirmed
  · intro h
    induction h with
    | start => exact .start
    | @step x y d c fromLSA toLSA _ hconfirmed ih =>
      have hmem : (y, c) ∈ db.successors x := mem_successors_iff.mpr ⟨_, _, hconfirmed⟩
      exact ih.step hmem

/-! ## The loops -/

theorem expandVertex_eq (s : Search Vertex) : db.expandVertex s v = s.expand v (db.successors v) := by
  unfold expandVertex successors Search.expand
  cases hv : db.lsa v with
  | none => rfl
  | some lsa =>
    have hvertex := vertex_of_lsa hv
    cases lsa with
    | router r =>
      dsimp only
      unfold expandRouter VertexLSA.outgoing
      rw [List.foldl_filter, List.foldl_map, List.foldl_filter]
      congr 1
      ext1 s
      ext1 link
      by_cases hstub : link.type = .stubLink
      · simp [hstub]
      · have hfollow : decide (link.type ≠ .stubLink) = true := by simpa using hstub
        rw [if_neg hstub, hfollow, if_pos rfl, ← hvertex]
        rfl
    | network n =>
      dsimp only
      unfold expandNetwork VertexLSA.outgoing
      rw [List.foldl_filter, List.foldl_map, ← hvertex]
      rfl

theorem closest_foldl (dist : Vertex → ℕ) (candidates : List Vertex) (x : Vertex × ℕ)
    (hx : dist x.1 = x.2 ∨ x.2 = lsInfinity) :
    ((candidates.foldl (closest dist) x).1 = x.1 ∨
      (candidates.foldl (closest dist) x).1 ∈ candidates) ∧
    (dist (candidates.foldl (closest dist) x).1 = (candidates.foldl (closest dist) x).2 ∨
      (candidates.foldl (closest dist) x).2 = lsInfinity) ∧
    (candidates.foldl (closest dist) x).2 ≤ x.2 ∧
    ∀ y ∈ candidates, (candidates.foldl (closest dist) x).2 ≤ dist y := by
  induction candidates generalizing x with
  | nil => exact ⟨.inl rfl, hx, le_refl _, nofun⟩
  | cons c candidates ih =>
    have hstep : ((closest dist x c).1 = x.1 ∨ (closest dist x c).1 = c) ∧
        (dist (closest dist x c).1 = (closest dist x c).2 ∨ (closest dist x c).2 = lsInfinity) ∧
        (closest dist x c).2 ≤ x.2 ∧ (closest dist x c).2 ≤ dist c := by
      unfold closest
      split
      · rename_i hlt
        exact ⟨.inr rfl, .inl rfl, hlt.le, le_refl _⟩
      · rename_i hge
        split
        · rename_i htie
          exact ⟨.inr rfl, .inl htie.1, le_refl _, htie.1.ge⟩
        · exact ⟨.inl rfl, hx, le_refl _, not_lt.mp hge⟩
    obtain ⟨hmem, hdist, hle, hlec⟩ := hstep
    obtain ⟨ihmem, ihdist, ihle, ihall⟩ := ih (closest dist x c) hdist
    rw [List.foldl_cons]
    refine ⟨?_, ihdist, ihle.trans hle, fun y hy ↦ ?_⟩
    · rcases ihmem with h | h
      · rw [h]
        rcases hmem with h' | h'
        · exact .inl h'
        · rw [h']
          exact .inr List.mem_cons_self
      · exact .inr (List.mem_cons_of_mem c h)
    · rcases List.mem_cons.mp hy with rfl | hy
      · exact ihle.trans hlec
      · exact ihall y hy

/-- All vertices with an LSA. -/
def vertices (db : AreaDatabase) : List Vertex :=
  db.routerLSAs.map (fun r ↦ .router r.linkStateID) ++ db.networkLSAs.map fun n ↦ .network n.linkStateID

theorem mem_vertices (h : db.lsa v = some lsa) : v ∈ db.vertices := by
  rw [← vertex_of_lsa h]
  cases v with
  | router id =>
    obtain ⟨r, hr, rfl⟩ := Option.map_eq_some_iff.mp h
    exact List.mem_append_left _ (List.mem_map.mpr ⟨r, List.mem_of_find?_eq_some hr, rfl⟩)
  | network id =>
    obtain ⟨n, hn, rfl⟩ := Option.map_eq_some_iff.mp h
    exact List.mem_append_right _ (List.mem_map.mpr ⟨n, List.mem_of_find?_eq_some hn, rfl⟩)

theorem mem_vertices_of_path {root : Vertex} {d : ℕ} (hroot : root ∈ db.vertices)
    (h : db.ConfirmedPath root v d) : v ∈ db.vertices := by
  cases h with
  | start => exact hroot
  | step _ hconfirmed => exact mem_vertices hconfirmed.to_eq

/-- With more rounds than vertices outside the tree the loop comes to its end. -/
theorem grow_spec {root : Vertex} (hroot : root ∈ db.vertices) {fuel : ℕ} {s : Search Vertex}
    (h : Invariant db.successors root lsInfinity v (db.successors v) s)
    (hfuel : db.vertices.length < fuel + s.tree.length) :
    ∃ s' v', db.grow fuel s v = .ok s' ∧ s'.candidates = [] ∧
      Invariant db.successors root lsInfinity v' [] s' := by
  induction fuel generalizing s v with
  | zero =>
    have hsub : s.tree ⊆ db.vertices := by
      intro x hx
      exact mem_vertices_of_path hroot (path_iff.mp (h.sound x (.inl hx)))
    have hnodup := (List.nodup_append.mp h.nodup).1
    have hle := (List.subperm_of_subset hnodup hsub).length_le
    omega
  | succ fuel ih =>
    have hexpanded := h.expand fun _ he ↦ he
    unfold grow
    rw [expandVertex_eq]
    dsimp only
    split
    · rename_i hnil
      exact ⟨_, v, rfl, hnil, hexpanded⟩
    · rename_i first rest hcons
      obtain ⟨hmem, hdist, hinf, hall⟩ := closest_foldl (s.expand v (db.successors v)).dist
        (s.expand v (db.successors v)).candidates (first, lsInfinity) (.inr rfl)
      have hcand : ((s.expand v (db.successors v)).candidates.foldl
          (closest (s.expand v (db.successors v)).dist) (first, lsInfinity)).1 ∈
          (s.expand v (db.successors v)).candidates := by
        rcases hmem with hfirst | hmem
        · rw [hfirst, hcons]
          exact List.mem_cons_self
        · exact hmem
      have hselected := hexpanded.select hcand fun x hx hlt ↦ by
        have hle := hall x hx
        rcases hdist with hdist | hinf
        · exact hdist.trans_le hle
        · omega
      apply ih hselected
      have htree : (s.expand v (db.successors v)).tree = s.tree := Search.tree_expand ..
      unfold Search.select
      dsimp only
      rw [List.length_append, htree, List.length_singleton]
      omega

end AreaDatabase

/-- The search ends with exactly the vertices that confirmed links lead to, each of them once, and
with the lengths of the shortest paths that are below `lsInfinity`. -/
theorem shortest_path_tree (db : AreaDatabase) (root : IPAddress) {lsa : RouterLSA}
    (hroot : db.findRouterLSA root = some lsa) :
    ∃ s, db.calculateShortestPathTree root = .ok s ∧ s.tree.Nodup ∧
      (∀ v, v ∈ s.tree ↔ ∃ d, db.ConfirmedPath (.router root) v d) ∧
      ∀ v d, IsLeast {d | db.ConfirmedPath (.router root) v d} d → d < lsInfinity → s.dist v = d := by
  have hlsa : db.lsa (.router root) = some (.router lsa) := by
    change (db.findRouterLSA root).map VertexLSA.router = _
    rw [hroot]
    rfl
  have hfuel : db.vertices.length <
      db.routerLSAs.length + db.networkLSAs.length + 1 + [Vertex.router root].length := by
    unfold AreaDatabase.vertices
    simp only [List.length_append, List.length_map, List.length_singleton]
    omega
  obtain ⟨s, v, hs, hdone, hinv⟩ := AreaDatabase.grow_spec (AreaDatabase.mem_vertices hlsa)
    (Invariant.start (Vertex.router root) (fun _ ↦ 0) rfl) hfuel
  have hmem : ∀ w, w ∈ s.tree ↔ ∃ d, db.ConfirmedPath (.router root) w d := by
    intro w
    rw [hinv.mem_tree_iff hdone w]
    simp only [AreaDatabase.path_iff]
  refine ⟨s, hs, (List.nodup_append.mp hinv.nodup).1, hmem, fun w d hd hbound ↦ ?_⟩
  apply hinv.dist_eq ((hmem w).mpr ⟨d, hd.1⟩) _ hbound
  simpa only [AreaDatabase.path_iff] using hd

/-- Two routers on a network, with a link between them that is more expensive, and a link that the
third router does not confirm. -/
def threeRouters : AreaDatabase where
  routerLSAs := [
    ⟨1, 0, [⟨2, 0, .pointToPointLink, 9⟩, ⟨100, 0, .transitLink, 4⟩, ⟨3, 0, .pointToPointLink, 1⟩]⟩,
    ⟨2, 0, [⟨1, 0, .pointToPointLink, 9⟩, ⟨100, 0, .transitLink, 4⟩]⟩, ⟨3, 0, []⟩]
  networkLSAs := [⟨100, 0, 0xFFFFFFFF, [1, 2]⟩]
  routerIDs := by decide
  networkIDs := by decide

theorem shortest_path_tree_threeRouters : ∃ s,
    threeRouters.calculateShortestPathTree 1 = .ok s ∧ s.tree.Nodup ∧
    s.tree = [.router 1, .network 100, .router 2] ∧ s.dist (.router 2) = 4 ∧
    ∀ v, v ∈ s.tree ↔ ∃ d, threeRouters.ConfirmedPath (.router 1) v d := by
  have hroot : threeRouters.findRouterLSA 1 = some ⟨1, 0, [⟨2, 0, .pointToPointLink, 9⟩,
    ⟨100, 0, .transitLink, 4⟩, ⟨3, 0, .pointToPointLink, 1⟩]⟩ := by decide
  obtain ⟨s, hs, hnodup, hmem, _⟩ := shortest_path_tree threeRouters 1 hroot
  have hcheck : (match threeRouters.calculateShortestPathTree 1 with
      | .ok s => decide (s.tree = [.router 1, .network 100, .router 2] ∧ s.dist (.router 2) = 4)
      | .error _ => false) = true := by decide
  rw [hs] at hcheck
  obtain ⟨htree, hdist⟩ := of_decide_eq_true hcheck
  exact ⟨s, hs, hnodup, htree, hdist, hmem⟩

end InetManet.OSPF
