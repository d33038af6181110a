import InetManet.TED.RouteRebuilding

/-!
# Next hops and shortest paths

The way up the parents of a vertex stops at the local peer that is nearest to the vertex, which need not be
the first one on the path. The gateway is right if an own link to this peer is up and as short as any way to
it, and if the first own link to it has the same interface.
-/

namespace InetManet.TED

open WeightedGraph

/-- The first local peer on the way up the parents. -/
inductive Climbs (isLocalPeer : IPAddress → Bool) (parent : IPAddress → Option IPAddress) :
    IPAddress → IPAddress → Prop
  | peer {v : IPAddress} : isLocalPeer v = true → Climbs isLocalPeer parent v v
  | up {v p b : IPAddress} : isLocalPeer v = false → parent v = some p → Climbs isLocalPeer parent p b →
      Climbs isLocalPeer parent v b

namespace RouterState

variable (s : RouterState)

/-- The links that are up. -/
def upLinks : Set (Edge IPAddress ℚ) := { e | ∃ link ∈ s.ted, link.state = true ∧ link.toEdge = e }

def Reaches (dest : IPAddress) : Prop := ∃ n w, Walk s.upLinks s.routerId n dest w

/-- The database has a link for each interface, and an interface for each own link; addresses are specified,
and the distances of what can be reached are finite. -/
structure Configured : Prop where
  specified : ∀ link ∈ s.ted, link.advrouter ≠ 0 ∧ link.linkid ≠ 0
  noSelfLink : ∀ link ∈ s.ted, link.advrouter ≠ link.linkid
  metric : ∀ link ∈ s.ted, 0 ≤ link.metric
  bandwidth : ∀ link ∈ s.ted, 0 ≤ link.unResvBandwidth 7
  finite : ∀ dest, s.Reaches dest → ∃ n w, Walk s.upLinks s.routerId n dest w ∧ w < lsInfinity
  interface : ∀ link ∈ s.ted, link.advrouter = s.routerId →
    s.getInterfaceByAddress link.localAddr ≠ none
  peer : ∀ addr ∈ s.interfaceAddrs, ∃ link ∈ s.ted, link.advrouter = s.routerId ∧ link.localAddr = addr
  table : s.rt.Sound

/-- The new routes to a host. -/
def hostRoutes (rt : RoutingTable) (dest : IPAddress) : List IPRoute :=
  (rt.madeSince s.rt.fresh).filter fun e ↦ decide (e.host = dest)

/-- A host route over the first link of a shortest path. -/
structure NextHop (dest : IPAddress) (r : IPRoute) : Prop where
  host : r.host = dest
  netmask : r.netmask = BitVec.allOnes 32
  first : ∃ link ∈ s.ted, link.advrouter = s.routerId ∧ link.state = true ∧ link.linkid = r.gateway ∧
    r.interface = s.getInterfaceByAddress link.localAddr ∧
    ∃ n w, Walk s.upLinks link.linkid n dest w ∧
      IsLeast { w | ∃ n, Walk s.upLinks s.routerId n dest w } (link.metric + w)

/-- Each remote router that can be reached has one new route, which goes to the right next hop. -/
def RightNextHops : Prop :=
  ∃ rt, s.rebuildRoutingTable = .ok rt ∧ (∀ p ∈ rt.all, p < s.rt.fresh → rt.IsMulticast p) ∧
    ∀ dest, dest ≠ s.routerId → s.isLocalPeer dest = false →
      (s.Reaches dest → ∃ r, s.hostRoutes rt dest = [r] ∧ s.NextHop dest r) ∧
      (¬ s.Reaches dest → s.hostRoutes rt dest = [])

/-- An own link to the peer is up, as short as any way to the peer, and at the interface of the first own
link to it. -/
def DirectlyNearest (vertices : List Vertex) (peer : IPAddress) : Prop :=
  ∃ link ∈ s.ted, link.advrouter = s.routerId ∧ link.state = true ∧ link.linkid = peer ∧
    link.metric = (labels vertices).dist peer ∧ ∃ localAddr,
      s.getInterfaceAddrByPeerAddress peer = .ok localAddr ∧
      s.getInterfaceByAddress link.localAddr = s.getInterfaceByAddress localAddr

/-- This holds for the local peer that is nearest to a remote router in the tree of shortest paths. -/
def LastPeersNearest : Prop :=
  ∀ vertices, calculateShortestPaths s.routerId s.ted 0 (Fin.last 7) = .ok vertices →
    ∀ dest peer, s.isLocalPeer dest = false →
      Climbs s.isLocalPeer (labels vertices).parent dest peer → s.DirectlyNearest vertices peer

end RouterState

section Climbing

variable {isLocalPeer : IPAddress → Bool} {parent : IPAddress → Option IPAddress} {v b b' : IPAddress}

theorem Climbs.stops (h : Climbs isLocalPeer parent v b) : isLocalPeer b = true := by
  induction h with
  | peer hpeer => exact hpeer
  | up _ _ _ ih => exact ih

theorem Climbs.unique (h : Climbs isLocalPeer parent v b) (h' : Climbs isLocalPeer parent v b') : b = b' := by
  induction h with
  | peer hpeer =>
    cases h' with
    | peer => rfl
    | up hnot => exact absurd hpeer (by simp [hnot])
  | up hnot hparent _ ih =>
    cases h' with
    | peer hpeer => exact absurd hpeer (by simp [hnot])
    | up _ hparent' hrest =>
      rw [hparent] at hparent'
      cases hparent'
      exact ih hrest

end Climbing

section Tree

variable {s : RouterState} {vs : List Vertex} {a : IPAddress} {v : Vertex} {i : ℕ}

theorem RouterState.isLocalPeer_iff :
    s.isLocalPeer a = true ↔ ∃ link ∈ s.ted, link.linkid = a ∧ link.advrouter = s.routerId := by
  simp [RouterState.isLocalPeer]

theorem RouterState.Configured.usableEdges_eq (h : s.Configured) :
    { e | e ∈ usableEdges s.ted 0 (Fin.last 7) } = s.upLinks := by
  ext e
  simp only [usableEdges, List.mem_map, List.mem_filter, Set.mem_ofPred_eq, RouterState.upLinks]
  apply exists_congr
  intro link
  rw [and_assoc]
  apply and_congr_right
  intro hlink
  have hbandwidth : 0 ≤ link.unResvBandwidth (Fin.last 7) := h.bandwidth link hlink
  rw [TELinkStateInfo.isUsable, decide_eq_true hbandwidth, Bool.and_true]

theorem RouterState.Configured.nonneg (h : s.Configured) : ∀ e ∈ s.upLinks, 0 ≤ e.weight := by
  rintro e ⟨link, hlink, -, rfl⟩
  exact h.metric link hlink

theorem RouterState.Configured.exists_solved (h : s.Configured) :
    ∃ vs, calculateShortestPaths s.routerId s.ted 0 (Fin.last 7) = .ok vs ∧
      Solved s.upLinks s.routerId vs := by
  obtain ⟨vs, hvs, hsolved⟩ :=
    calculateShortestPaths_solved s.routerId s.ted 0 (Fin.last 7) h.noSelfLink h.metric
  rw [h.usableEdges_eq] at hsolved
  exact ⟨vs, hvs, hsolved⟩

section

variable (h : Solved s.upLinks s.routerId vs)

include h

theorem isLocalPeer_of_parent
    (hparent : (labels vs).parent a = some s.routerId) : s.isLocalPeer a = true := by
  obtain ⟨e, ⟨link, hlink, -, rfl⟩, hsrc, hdest, -⟩ := h.labelled.parent a s.routerId hparent
  exact RouterState.isLocalPeer_iff.mpr ⟨link, hlink, hdest, hsrc⟩

theorem nextHop_spec {m : ℕ} {w : ℤ}
    (hwalk : Walk (parentGraph (labels vs).parent) s.routerId m a w) (hne : a ≠ s.routerId)
    (hi : vs[i]? = some v) (ha : v.node = a) {fuel : ℕ} (hfuel : m < fuel) :
    ∃ hop, nextHop s.isLocalPeer vs fuel i = .ok hop ∧
      Climbs s.isLocalPeer (labels vs).parent a hop.node := by
  induction hwalk generalizing i v fuel with
  | start => exact absurd rfl hne
  | @step n w e _ he ih =>
    obtain ⟨fuel, rfl⟩ := Nat.exists_eq_succ_of_ne_zero (by omega : fuel ≠ 0)
    rw [nextHop, hi]
    dsimp only
    cases hpeer : s.isLocalPeer v.node with
    | true =>
      refine ⟨v, if_pos rfl, ?_⟩
      rw [ha]
      exact .peer (ha ▸ hpeer)
    | false =>
      have hparent := labels_parent h.distinct hi
      rw [ha, he.1] at hparent
      obtain ⟨p, hp, hnode⟩ := Option.bind_eq_some_iff.mp hparent.symm
      rw [List.getElem?_map, Option.map_eq_some_iff] at hnode
      obtain ⟨u, hu, hunode⟩ := hnode
      have hsrc : e.src ≠ s.routerId := by
        intro hroot
        have hchild := isLocalPeer_of_parent h (hroot ▸ he.1)
        rw [← ha, hpeer] at hchild
        cases hchild
      obtain ⟨hop, hhop, hclimbs⟩ := ih hsrc hu hunode (by omega : n < fuel)
      refine ⟨hop, ?_, .up (ha ▸ hpeer) he.1 hclimbs⟩
      rw [if_neg Bool.false_ne_true, hp]
      exact hhop

theorem Climbs.walk (hG : ∀ e ∈ s.upLinks, 0 ≤ e.weight)
    {dest peer : IPAddress} (hclimbs : Climbs s.isLocalPeer (labels vs).parent dest peer) :
    ∃ n w, Walk s.upLinks peer n dest w ∧ (labels vs).dist peer + w = (labels vs).dist dest := by
  induction hclimbs with
  | peer => exact ⟨0, 0, .start, add_zero _⟩
  | up _ hparent _ ih =>
    obtain ⟨n, w, hwalk, hdist⟩ := ih
    obtain ⟨e, he, hsrc, rfl, htight⟩ := h.labelled.parent_tight hG h.least hparent
    rw [← hsrc] at hwalk hdist htight
    refine ⟨n + 1, w + e.weight, hwalk.step he, ?_⟩
    rw [htight, ← hdist, add_assoc]

theorem labels_parent_ne_none_iff (hi : vs[i]? = some v) :
    (labels vs).parent v.node ≠ none ↔ v.parent ≠ none := by
  rw [labels_parent h.distinct hi]
  cases hp : v.parent with
  | none => exact iff_of_false (fun hne ↦ hne rfl) fun hne ↦ hne rfl
  | some p =>
    rw [Option.bind_some, List.getElem?_map,
      List.getElem?_eq_getElem (h.inRange v (List.mem_of_getElem? hi) p hp)]
    exact iff_of_true (Option.some_ne_none _) (Option.some_ne_none _)

end

/-- A vertex other than the router has a parent if it is reached. -/
theorem reaches_iff (hs : s.Configured) (h : Solved s.upLinks s.routerId vs) (hne : a ≠ s.routerId) :
    s.Reaches a ↔ (labels vs).parent a ≠ none := by
  constructor
  · intro hreach
    obtain ⟨n, w, hwalk, hlt⟩ := hs.finite a hreach
    have hroot := h.labelled.rooted a ((h.least n a w hwalk).trans_lt hlt)
    cases hroot with
    | root => exact absurd rfl hne
    | child hparent _ =>
      rw [hparent]
      exact Option.some_ne_none _
  · intro hparent
    have hlt : (labels vs).dist a < lsInfinity :=
      (h.labelled.le a).lt_of_ne fun heq ↦ hparent (h.labelled.unreached a heq)
    obtain ⟨n, hwalk⟩ := h.labelled.walk a hlt
    exact ⟨n, _, hwalk⟩

theorem isLeast_dist (hs : s.Configured) (h : Solved s.upLinks s.routerId vs) (hreach : s.Reaches a) :
    IsLeast { w | ∃ n, Walk s.upLinks s.routerId n a w } ((labels vs).dist a) := by
  obtain ⟨n, w, hwalk, hlt⟩ := hs.finite a hreach
  constructor
  · exact h.labelled.walk a ((h.least n a w hwalk).trans_lt hlt)
  · rintro w' ⟨m, hwalk'⟩
    exact h.least m a w' hwalk'

end Tree

/-! ## The entries -/

namespace RouterState

variable {s : RouterState} {vs : List Vertex} {dest peer localAddr : IPAddress}

/-- The route to a remote router. -/
def routeVia (s : RouterState) (dest hop localAddr : IPAddress) : IPRoute :=
  ⟨dest, BitVec.allOnes 32, hop, s.getInterfaceByAddress localAddr, .ospf, 0⟩

theorem getInterfaceAddrByPeerAddress_spec (h : s.isLocalPeer peer = true) :
    ∃ link ∈ s.ted, link.linkid = peer ∧ link.advrouter = s.routerId ∧
      s.getInterfaceAddrByPeerAddress peer = .ok link.localAddr := by
  rw [getInterfaceAddrByPeerAddress]
  cases hfind : s.ted.find? fun link ↦ link.linkid == peer && link.advrouter == s.routerId with
  | none =>
    obtain ⟨link, hlink, hid, hadv⟩ := isLocalPeer_iff.mp h
    have hnot := List.find?_eq_none.mp hfind link hlink
    simp [hid, hadv] at hnot
  | some link =>
    have hfound := List.find?_some hfind
    simp only [Bool.and_eq_true, beq_iff_eq] at hfound
    exact ⟨link, List.mem_of_find?_eq_some hfind, hfound.1, hfound.2, rfl⟩

theorem Configured.localEntry (hs : s.Configured) {addr : IPAddress} (haddr : addr ∈ s.interfaceAddrs) :
    ∃ e, s.localEntry addr = .ok (some e) ∧ Acceptable e ∧ s.isLocalPeer e.host = true := by
  rw [RouterState.localEntry, getPeerByLocalAddress]
  cases hfind : s.ted.find? fun link ↦ link.advrouter == s.routerId && link.localAddr == addr with
  | none =>
    obtain ⟨link, hlink, hadv, haddr'⟩ := hs.peer addr haddr
    have hnot := List.find?_eq_none.mp hfind link hlink
    simp [hadv, haddr'] at hnot
  | some link =>
    have hfound := List.find?_some hfind
    simp only [Bool.and_eq_true, beq_iff_eq] at hfound
    have hlink := List.mem_of_find?_eq_some hfind
    have hinterface := hs.interface link hlink hfound.1
    rw [hfound.2] at hinterface
    exact ⟨_, rfl, ⟨(hs.specified link hlink).2, rfl, hinterface⟩,
      isLocalPeer_iff.mpr ⟨link, hlink, rfl, hfound.1⟩⟩

/-- The vertex is a remote router that is reached. -/
def IsRemote (s : RouterState) (v : Vertex) : Prop :=
  v.node ≠ s.routerId ∧ v.parent ≠ none ∧ s.isLocalPeer v.node = false

theorem remoteEntry_of_not_isRemote {x : Vertex × ℕ} (h : ¬ s.IsRemote x.1) :
    s.remoteEntry vs x = .ok none := by
  rw [remoteEntry]
  by_cases hself : x.1.node = s.routerId
  · exact if_pos hself
  · rw [if_neg hself]
    by_cases hparent : x.1.parent = none
    · exact if_pos hparent
    · rw [if_neg hparent, if_pos]
      by_contra hpeer
      exact h ⟨hself, hparent, by simpa using hpeer⟩

theorem Configured.remoteEntry (hs : s.Configured) (h : Solved s.upLinks s.routerId vs) {x : Vertex × ℕ}
    (hx : vs[x.2]? = some x.1) (hremote : s.IsRemote x.1) :
    ∃ hop localAddr, s.remoteEntry vs x = .ok (some (s.routeVia x.1.node hop localAddr)) ∧
      Climbs s.isLocalPeer (labels vs).parent x.1.node hop ∧
      s.getInterfaceAddrByPeerAddress hop = .ok localAddr ∧
      Acceptable (s.routeVia x.1.node hop localAddr) := by
  obtain ⟨hself, hparent, hpeer⟩ := hremote
  have hlabel := (labels_parent_ne_none_iff h hx).mpr hparent
  have hreached : (labels vs).dist x.1.node < lsInfinity :=
    (h.labelled.le _).lt_of_ne fun heq ↦ hlabel (h.labelled.unreached _ heq)
  obtain ⟨m, hm, w, hwalk⟩ := h.depth hreached
  obtain ⟨hop, hhop, hclimbs⟩ := nextHop_spec h hwalk hself hx rfl hm
  obtain ⟨link, hlink, hid, hadv, haddr⟩ := getInterfaceAddrByPeerAddress_spec hclimbs.stops
  have hne : x.1.node ≠ hop.node := by
    intro heq
    rw [heq, hclimbs.stops] at hpeer
    cases hpeer
  refine ⟨hop.node, link.localAddr, ?_, hclimbs, haddr, ?_, rfl, hs.interface link hlink hadv⟩
  · rw [RouterState.remoteEntry, if_neg hself, if_neg hparent, if_neg (by simp [hpeer]), hhop]
    simp only [Except.mapError, TransitionSystem.ok_bind, haddr, if_neg hne]
    rfl
  · obtain ⟨e, ⟨link', hlink', -, rfl⟩, -, hdest, -⟩ :=
      h.labelled.parent _ _ (Option.ne_none_iff_exists'.mp hlabel).choose_spec
    have hspecified := (hs.specified link' hlink').2
    rw [show link'.linkid = x.1.node from hdest] at hspecified
    exact hspecified

end RouterState

/-- An item of a list without repeats is the only one with its key. -/
theorem filter_key_eq {α β : Type} [DecidableEq β] (key : α → β) {x : α} {l : List α}
    (h : (l.map key).Nodup) (hx : x ∈ l) : l.filter (fun y ↦ decide (key y = key x)) = [x] := by
  induction l with
  | nil => cases hx
  | cons y l ih =>
    obtain ⟨hy, hl⟩ := List.nodup_cons.mp h
    rcases List.mem_cons.mp hx with rfl | hx
    · rw [List.filter_cons_of_pos (by simp), List.filter_eq_nil_iff.mpr]
      intro z hz hkey
      exact hy (of_decide_eq_true hkey ▸ List.mem_map_of_mem hz)
    · rw [List.filter_cons_of_neg, ih hl hx]
      intro hkey
      exact hy (of_decide_eq_true hkey ▸ List.mem_map_of_mem hx)

/-! ## The result -/

namespace RouterState

variable {s : RouterState} {vs : List Vertex} {dest peer hop localAddr : IPAddress}

/-- What an entry function gives, if anything. -/
def given {α : Type} (entry : α → Except RebuildFault (Option IPRoute)) (x : α) : Option IPRoute :=
  (entry x).toOption.join

theorem Configured.exists_rebuilt (hs : s.Configured)
    (hvs : calculateShortestPaths s.routerId s.ted 0 (Fin.last 7) = .ok vs)
    (h : Solved s.upLinks s.routerId vs) :
    ∃ rt, s.rebuildRoutingTable = .ok rt ∧ (∀ p ∈ rt.all, p < s.rt.fresh → rt.IsMulticast p) ∧
      (rt.madeSince s.rt.fresh).Perm
        (s.interfaceAddrs.filterMap (given s.localEntry) ++ vs.zipIdx.filterMap (given (s.remoteEntry vs))) := by
  obtain ⟨rt₀, hclear, hsound₀, hfresh₀, hleft⟩ := clearRoutes_spec s.rt.all hs.table rfl (List.forall_mem_nil _)
  have hremote : ∀ x ∈ vs.zipIdx, s.remoteEntry vs x = .ok (given (s.remoteEntry vs) x) ∧
      ∀ e, given (s.remoteEntry vs) x = some e → Acceptable e := by
    intro x hx
    by_cases hx' : s.IsRemote x.1
    · obtain ⟨hop, localAddr, hentry, -, -, haccept⟩ :=
        hs.remoteEntry h (List.mem_zipIdx_iff_getElem?.mp hx) hx'
      rw [given, hentry]
      refine ⟨rfl, fun e he ↦ ?_⟩
      cases he
      exact haccept
    · rw [given, remoteEntry_of_not_isRemote hx']
      exact ⟨rfl, nofun⟩
  have hlocal : ∀ addr ∈ s.interfaceAddrs, s.localEntry addr = .ok (given s.localEntry addr) ∧
      ∀ e, given s.localEntry addr = some e → Acceptable e := by
    intro addr haddr
    obtain ⟨e, hentry, haccept, -⟩ := hs.localEntry haddr
    rw [given, hentry]
    refine ⟨rfl, fun e' he' ↦ ?_⟩
    cases he'
    exact haccept
  obtain ⟨rt₁, hrun₁, hsound₁, hbase₁, hmade₁, hold₁⟩ :=
    foldlM_addEntry vs.zipIdx hsound₀ hfresh₀.ge hremote
  obtain ⟨rt, hrun, -, -, hmade, hold⟩ := foldlM_addEntry s.interfaceAddrs hsound₁ hbase₁ hlocal
  have hmade₀ : rt₀.madeSince s.rt.fresh = [] := by
    have hnone : (rt₀.all.filter fun p ↦ decide (s.rt.fresh ≤ p)) = [] := by
      rw [List.filter_eq_nil_iff]
      intro p hp
      have hlt := hsound₀.old p hp
      simp only [decide_eq_true_eq]
      omega
    rw [RoutingTable.madeSince, hnone]
    rfl
  rw [hmade₀, List.append_nil] at hmade₁
  refine ⟨rt, ?_, fun p hp hlt ↦ ?_, hmade.trans (hmade₁.append_left _)⟩
  · have hlength : s.rt.getNumRoutes = s.rt.all.length := (List.length_append).symm
    rw [List.length_nil, ← hlength] at hclear
    rw [rebuildRoutingTable, hvs, hclear]
    simp only [Except.mapError, TransitionSystem.ok_bind, hrun₁, hrun]
  · obtain ⟨hp₁, hheap₁⟩ := hold p hp hlt
    obtain ⟨hp₀, hheap₀⟩ := hold₁ p hp₁ hlt
    rw [RoutingTable.IsMulticast, hheap₁, hheap₀]
    exact (hleft p hp₀).2

theorem Configured.host_of_given (hs : s.Configured) (h : Solved s.upLinks s.routerId vs) {x : Vertex × ℕ}
    (hx : x ∈ vs.zipIdx) {e : IPRoute} (he : given (s.remoteEntry vs) x = some e) : e.host = x.1.node := by
  by_cases hx' : s.IsRemote x.1
  · obtain ⟨hop, localAddr, hentry, -, -, -⟩ :=
      hs.remoteEntry h (List.mem_zipIdx_iff_getElem?.mp hx) hx'
    rw [given, hentry] at he
    cases he
    rfl
  · rw [given, remoteEntry_of_not_isRemote hx'] at he
    cases he

/-- The new routes to a remote host come from its vertex. -/
theorem Configured.hostRoutes_eq (hs : s.Configured) (h : Solved s.upLinks s.routerId vs) {rt : RoutingTable}
    (hmade : (rt.madeSince s.rt.fresh).Perm
      (s.interfaceAddrs.filterMap (given s.localEntry) ++ vs.zipIdx.filterMap (given (s.remoteEntry vs))))
    (hpeer : s.isLocalPeer dest = false) :
    (s.hostRoutes rt dest).Perm
      ((vs.zipIdx.filter fun x ↦ decide (x.1.node = dest)).filterMap (given (s.remoteEntry vs))) := by
  have hperm := hmade.filter fun e ↦ decide (e.host = dest)
  have hlocal : (s.interfaceAddrs.filterMap (given s.localEntry)).filter (fun e ↦ decide (e.host = dest)) = [] := by
    rw [List.filter_eq_nil_iff]
    intro e he hhost
    obtain ⟨addr, haddr, hgiven⟩ := List.mem_filterMap.mp he
    obtain ⟨e', hentry, -, hpeer'⟩ := hs.localEntry haddr
    rw [given, hentry] at hgiven
    cases hgiven
    rw [of_decide_eq_true hhost, hpeer] at hpeer'
    cases hpeer'
  have hremote : (vs.zipIdx.filterMap (given (s.remoteEntry vs))).filter (fun e ↦ decide (e.host = dest)) =
      (vs.zipIdx.filter fun x ↦ decide (x.1.node = dest)).filterMap (given (s.remoteEntry vs)) := by
    rw [List.filter_filterMap, List.filterMap_filter]
    apply List.filterMap_congr
    intro x hx
    cases hgiven : given (s.remoteEntry vs) x with
    | none => simp
    | some e => simp [Option.filter, hs.host_of_given h hx hgiven]
  rw [List.filter_append, hlocal, List.nil_append, hremote] at hperm
  exact hperm

/-- A remote host has one new route if it is reached, over the peer that is nearest to it in the tree. -/
theorem Configured.hostRoutes_spec (hs : s.Configured) (h : Solved s.upLinks s.routerId vs) {rt : RoutingTable}
    (hmade : (rt.madeSince s.rt.fresh).Perm
      (s.interfaceAddrs.filterMap (given s.localEntry) ++ vs.zipIdx.filterMap (given (s.remoteEntry vs))))
    (hself : dest ≠ s.routerId) (hpeer : s.isLocalPeer dest = false) :
    (s.Reaches dest → ∃ hop localAddr, s.hostRoutes rt dest = [s.routeVia dest hop localAddr] ∧
      Climbs s.isLocalPeer (labels vs).parent dest hop ∧
      s.getInterfaceAddrByPeerAddress hop = .ok localAddr) ∧
    (¬ s.Reaches dest → s.hostRoutes rt dest = []) := by
  have hperm := hs.hostRoutes_eq h hmade hpeer
  constructor
  · intro hreach
    have ⟨n, w, hwalk⟩ := hreach
    obtain ⟨i, v, hi, hnode⟩ := h.exists_vertex hwalk
    have hparent := (reaches_iff hs h hself).mp hreach
    rw [← hnode, labels_parent_ne_none_iff h hi] at hparent
    have hremote : s.IsRemote v := by
      refine ⟨?_, hparent, ?_⟩
      · rw [hnode]
        exact hself
      · rw [hnode]
        exact hpeer
    obtain ⟨hop, localAddr, hentry, hclimbs, haddr, -⟩ := hs.remoteEntry (x := (v, i)) h hi hremote
    have hnodup : (vs.zipIdx.map fun x ↦ x.1.node).Nodup := by
      have hmap : (vs.zipIdx.map fun x ↦ x.1.node) = vs.map Vertex.node := by
        rw [← List.zipIdx_map_fst 0 vs, List.map_map, List.zipIdx_map_fst]
        rfl
      rw [hmap]
      exact h.distinct
    have honly := filter_key_eq (fun x : Vertex × ℕ ↦ x.1.node) hnodup
      (List.mk_mem_zipIdx_iff_getElem?.mpr hi)
    rw [hnode] at honly hclimbs
    rw [honly, List.filterMap_cons, given, hentry, hnode] at hperm
    exact ⟨hop, localAddr, List.perm_singleton.mp hperm, hclimbs, haddr⟩
  · intro hreach
    have hnone : (vs.zipIdx.filter fun x ↦ decide (x.1.node = dest)).filterMap (given (s.remoteEntry vs)) = [] := by
      rw [List.filterMap_eq_nil_iff]
      intro x hx
      obtain ⟨hmem, hnode⟩ := List.mem_filter.mp hx
      have hi := List.mem_zipIdx_iff_getElem?.mp hmem
      have hnot : ¬ s.IsRemote x.1 := by
        intro hremote
        apply hreach
        rw [reaches_iff hs h hself, ← of_decide_eq_true hnode, labels_parent_ne_none_iff h hi]
        exact hremote.2.1
      rw [given, remoteEntry_of_not_isRemote hnot]
      rfl
    rw [hnone] at hperm
    exact hperm.eq_nil

/-- The route is right exactly if its gateway is reached directly on a shortest path. -/
theorem Configured.nextHop_iff (hs : s.Configured) (h : Solved s.upLinks s.routerId vs)
    (hreach : s.Reaches dest) (hclimbs : Climbs s.isLocalPeer (labels vs).parent dest hop)
    (haddr : s.getInterfaceAddrByPeerAddress hop = .ok localAddr) :
    s.NextHop dest (s.routeVia dest hop localAddr) ↔ s.DirectlyNearest vs hop := by
  have hleast := isLeast_dist hs h hreach
  constructor
  · rintro ⟨-, -, link, hlink, hadv, hup, hid, hinterface, n, w, hwalk, hbest⟩
    have hedge : link.toEdge ∈ s.upLinks := ⟨link, hlink, hup, rfl⟩
    have hstep : Walk s.upLinks s.routerId 1 hop link.metric := by
      have hsingle := Walk.single hedge
      rwa [show link.toEdge.src = s.routerId from hadv, show link.toEdge.dest = hop from hid] at hsingle
    have htotal : link.metric + w = (labels vs).dist dest := hbest.unique hleast
    have hle := h.least 1 hop link.metric hstep
    have hge : (labels vs).dist dest ≤ (labels vs).dist hop + w := by
      obtain ⟨m, w', hrest, hdist⟩ := hclimbs.walk h hs.nonneg
      have hnonneg := hrest.nonneg hs.nonneg
      obtain ⟨_, w'', hwalk'', hlt⟩ := hs.finite dest hreach
      have hfinite := (h.least _ dest w'' hwalk'').trans_lt hlt
      obtain ⟨n', hfirst⟩ := h.labelled.walk hop (by linarith)
      exact h.least _ dest _ (hfirst.trans (hid ▸ hwalk))
    refine ⟨link, hlink, hadv, hup, hid, ?_, localAddr, haddr, hinterface.symm⟩
    linarith
  · rintro ⟨link, hlink, hadv, hup, hid, hmetric, localAddr', haddr', hinterface⟩
    rw [haddr] at haddr'
    cases haddr'
    obtain ⟨n, w, hwalk, hdist⟩ := hclimbs.walk h hs.nonneg
    refine ⟨rfl, rfl, link, hlink, hadv, hup, hid, hinterface.symm, n, w, ?_, ?_⟩
    · rw [hid]
      exact hwalk
    · rw [hmetric, hdist]
      exact hleast

/-- The routing table has the right next hops exactly if the local peer nearest to each remote router is
directly nearest. -/
theorem rightNextHops_iff (s : RouterState) (hs : s.Configured) : s.RightNextHops ↔ s.LastPeersNearest := by
  obtain ⟨vs, hvs, h⟩ := hs.exists_solved
  obtain ⟨rt, hrun, hkept, hmade⟩ := hs.exists_rebuilt hvs h
  constructor
  · rintro ⟨rt', hrun', -, hroutes⟩ vs' hvs' dest peer hpeer hclimbs
    rw [hvs] at hvs'
    cases hvs'
    rw [hrun] at hrun'
    cases hrun'
    have hparent : (labels vs).parent dest ≠ none := by
      cases hclimbs with
      | peer hstop =>
        rw [hpeer] at hstop
        cases hstop
      | up _ hparent _ =>
        rw [hparent]
        exact Option.some_ne_none _
    have hself : dest ≠ s.routerId := by
      intro heq
      rw [heq] at hparent
      exact hparent h.labelled.sourceParent
    have hreach := (reaches_iff hs h hself).mpr hparent
    obtain ⟨hop, localAddr, hone, hclimbs', haddr⟩ := (hs.hostRoutes_spec h hmade hself hpeer).1 hreach
    obtain ⟨r, hr, hnext⟩ := (hroutes dest hself hpeer).1 hreach
    rw [hone, List.singleton_inj] at hr
    rw [← hr] at hnext
    rw [hclimbs.unique hclimbs']
    exact (hs.nextHop_iff h hreach hclimbs' haddr).mp hnext
  · intro hnearest
    refine ⟨rt, hrun, hkept, fun dest hself hpeer ↦ ?_⟩
    obtain ⟨hreached, hunreached⟩ := hs.hostRoutes_spec h hmade hself hpeer
    refine ⟨fun hreach ↦ ?_, hunreached⟩
    obtain ⟨hop, localAddr, hone, hclimbs, haddr⟩ := hreached hreach
    refine ⟨_, hone, ?_⟩
    rw [hs.nextHop_iff h hreach hclimbs haddr]
    exact hnearest vs hvs dest hop hpeer hclimbs

/-- The links 1 to 2, 2 to 3 and 3 to 4 are short, and a long one leads from 1 to 3. -/
def detour : RouterState where
  routerId := 1
  ted := [
    ⟨1, 2, 10, 0, 1, 100, fun _ ↦ 100, 0, 1, 1, true⟩,
    ⟨1, 3, 11, 0, 5, 100, fun _ ↦ 100, 0, 1, 2, true⟩,
    ⟨2, 3, 12, 0, 1, 100, fun _ ↦ 100, 0, 2, 1, true⟩,
    ⟨3, 4, 13, 0, 1, 100, fun _ ↦ 100, 0, 3, 1, true⟩]
  interfaceAddrs := [10, 11]
  ift := [10, 11]
  rt := ⟨fun _ ↦ none, 0, [], [], fun _ ↦ none⟩

theorem mem_upLinks_detour {e : Edge IPAddress ℚ} :
    e ∈ detour.upLinks ↔ e = ⟨1, 2, 1⟩ ∨ e = ⟨1, 3, 5⟩ ∨ e = ⟨2, 3, 1⟩ ∨ e = ⟨3, 4, 1⟩ := by
  constructor
  · rintro ⟨link, hlink, -, rfl⟩
    simp only [detour, List.mem_cons, List.not_mem_nil, or_false] at hlink
    rcases hlink with rfl | rfl | rfl | rfl
    · exact .inl rfl
    · exact .inr (.inl rfl)
    · exact .inr (.inr (.inl rfl))
    · exact .inr (.inr (.inr rfl))
  · rintro (rfl | rfl | rfl | rfl)
    · exact ⟨detour.ted.get ⟨0, by decide⟩, List.get_mem _ _, rfl, rfl⟩
    · exact ⟨detour.ted.get ⟨1, by decide⟩, List.get_mem _ _, rfl, rfl⟩
    · exact ⟨detour.ted.get ⟨2, by decide⟩, List.get_mem _ _, rfl, rfl⟩
    · exact ⟨detour.ted.get ⟨3, by decide⟩, List.get_mem _ _, rfl, rfl⟩

theorem walks_detour : Walk detour.upLinks 1 1 2 1 ∧ Walk detour.upLinks 1 2 3 2 ∧
    Walk detour.upLinks 1 3 4 3 := by
  have hfirst : Walk detour.upLinks 1 1 2 1 :=
    Walk.single (e := ⟨1, 2, 1⟩) (mem_upLinks_detour.mpr (.inl rfl))
  have hsecond : Walk detour.upLinks 1 2 3 (1 + 1) :=
    hfirst.step (e := ⟨2, 3, 1⟩) (mem_upLinks_detour.mpr (.inr (.inr (.inl rfl))))
  have hthird : Walk detour.upLinks 1 3 4 (1 + 1 + 1) :=
    hsecond.step (e := ⟨3, 4, 1⟩) (mem_upLinks_detour.mpr (.inr (.inr (.inr rfl))))
  norm_num at hsecond hthird
  exact ⟨hfirst, hsecond, hthird⟩

theorem configured_detour : detour.Configured where
  specified := by simp [detour]
  noSelfLink := by simp [detour]
  metric := by simp [detour]
  bandwidth := by simp [detour]
  finite := by
    rintro dest ⟨n, w, hwalk⟩
    obtain ⟨htwo, hthree, hfour⟩ := walks_detour
    cases hwalk with
    | start => exact ⟨0, 0, .start, lsInfinity_pos⟩
    | step _ he =>
      rcases mem_upLinks_detour.mp he with rfl | rfl | rfl | rfl
      · exact ⟨1, 1, htwo, by norm_num [lsInfinity]⟩
      · exact ⟨2, 2, hthree, by norm_num [lsInfinity]⟩
      · exact ⟨2, 2, hthree, by norm_num [lsInfinity]⟩
      · exact ⟨3, 3, hfour, by norm_num [lsInfinity]⟩
  interface := by
    intro link hlink
    simp only [detour, List.mem_cons, List.not_mem_nil, or_false] at hlink
    rcases hlink with rfl | rfl | rfl | rfl <;> decide
  peer := by simp [detour]
  table := ⟨List.nodup_nil, List.forall_mem_nil _, List.forall_mem_nil _⟩

theorem rightNextHops_detour_iff : detour.RightNextHops ↔ detour.LastPeersNearest :=
  rightNextHops_iff detour configured_detour

/-- The route to 4 goes over the long link to 3. -/
theorem not_rightNextHops_detour : ¬ ∀ s : RouterState, s.Configured → s.RightNextHops := by
  intro hall
  have hs := configured_detour
  obtain ⟨vs, hvs, h⟩ := hs.exists_solved
  obtain ⟨rt, hrun, hkept, hmade⟩ := hs.exists_rebuilt hvs h
  obtain ⟨-, hthree, hfour⟩ := walks_detour
  have hreach : detour.Reaches 4 := ⟨3, 3, hfour⟩
  obtain ⟨hop, localAddr, hone, hclimbs, haddr⟩ :=
    (hs.hostRoutes_spec h hmade (by decide) (by decide)).1 hreach
  obtain ⟨rt', hrun', -, hroutes⟩ := hall detour hs
  rw [hrun] at hrun'
  cases hrun'
  obtain ⟨r, hr, hnext⟩ := (hroutes 4 (by decide) (by decide)).1 hreach
  rw [hone, List.singleton_inj] at hr
  rw [← hr, hs.nextHop_iff h hreach hclimbs haddr] at hnext
  have hhop : hop = 3 := by
    cases hclimbs with
    | peer hstop => exact absurd hstop (by decide)
    | up _ hparent hrest =>
      obtain ⟨e, he, hsrc, hdest, -⟩ := h.labelled.parent _ _ hparent
      rcases mem_upLinks_detour.mp he with rfl | rfl | rfl | rfl
      · cases hdest
      · cases hdest
      · cases hdest
      · rw [← hsrc] at hrest
        exact hrest.unique (.peer (by decide))
  obtain ⟨link, hlink, hadv, -, hid, hmetric, -⟩ := hnext
  have hle := h.least 2 3 2 hthree
  rw [hhop] at hid hmetric
  simp only [detour, List.mem_cons, List.not_mem_nil, or_false] at hlink
  rcases hlink with rfl | rfl | rfl | rfl
  · cases hid
  · rw [← hmetric] at hle
    norm_num at hle
  · cases hadv
  · cases hadv

end RouterState

end InetManet.TED
