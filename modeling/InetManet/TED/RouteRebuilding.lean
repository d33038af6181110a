import InetManet.Network.RoutingTable
import InetManet.TED.ShortestPaths
import Mathlib.Data.List.Perm.Basic

/-!
# Rebuilding the routing table

All routes but the multicast ones are deleted, and host routes are made from the shortest paths of the
database. The gateway of a remote router is the first local peer that is met on the way up its parents, and
the interface is that of the first own link to this peer.
-/

namespace InetManet

namespace RoutingTable

def getNumRoutes (s : RoutingTable) : ℕ := s.routes.length + s.multicastRoutes.length

def getRoute (s : RoutingTable) (k : ℕ) : Option ℕ :=
  match s.routes[k]? with
  | some p => some p
  | none => s.multicastRoutes[k - s.routes.length]?

end RoutingTable

namespace TED

/-- The database of a router, the addresses of its interfaces and its routing table. -/
structure RouterState where
  routerId : IPAddress
  ted : List TELinkStateInfo
  interfaceAddrs : List IPAddress
  ift : List IPAddress
  rt : RoutingTable

inductive RebuildFault
  | paths (fault : Fault)
  | routes (fault : RoutingFault)
  /-- `error("not a local peer")`. -/
  | notLocalPeer
  | assertion
  deriving DecidableEq

/-- The loop that deletes all routes but the multicast ones; `j` of them have been passed. -/
def clearRoutes : ℕ → ℕ → RoutingTable → Except RoutingFault RoutingTable
  | 0, _, rt => .ok rt
  | n + 1, j, rt =>
    match rt.getRoute j with
    | none => .error .nullRoute
    | some p => do
      let entry ← rt.read p
      if entry.host.isMulticast then clearRoutes n (j + 1) rt else clearRoutes n j (rt.deleteRoute p).2

/-- The loop over the parents up to a local peer. -/
def nextHop (isLocalPeer : IPAddress → Bool) (vertices : List Vertex) : ℕ → ℕ → Except Fault Vertex
  | 0, _ => .error .endless
  | fuel + 1, nHop =>
    match vertices[nHop]? with
    | none => .error .assertion
    | some v =>
      if isLocalPeer v.node then .ok v
      else match v.parent with
        | none => .error .assertion
        | some p => nextHop isLocalPeer vertices fuel p

namespace RouterState

variable (s : RouterState)

def isLocalPeer (inetAddr : IPAddress) : Bool :=
  s.ted.any fun link ↦ link.linkid == inetAddr && link.advrouter == s.routerId

/-- The address of the first own link to the peer. -/
def getInterfaceAddrByPeerAddress (peerIP : IPAddress) : Except RebuildFault IPAddress :=
  match s.ted.find? fun link ↦ link.linkid == peerIP && link.advrouter == s.routerId with
  | none => .error .notLocalPeer
  | some link => .ok link.localAddr

def getPeerByLocalAddress (localInf : IPAddress) : Except RebuildFault IPAddress :=
  match s.ted.find? fun link ↦ link.advrouter == s.routerId && link.localAddr == localInf with
  | none => .error .assertion
  | some link => .ok link.linkid

def getInterfaceByAddress (addr : IPAddress) : Option ℕ :=
  if addr = 0 then none else s.ift.findIdx? fun a ↦ a == addr

/-- The entry for a vertex, if it is a remote router that can be reached. -/
def remoteEntry (vertices : List Vertex) (x : Vertex × ℕ) : Except RebuildFault (Option IPRoute) :=
  if x.1.node = s.routerId then .ok none
  else if x.1.parent = none then .ok none
  else if s.isLocalPeer x.1.node then .ok none
  else do
    let hop ← (nextHop s.isLocalPeer vertices vertices.length x.2).mapError .paths
    let localAddr ← s.getInterfaceAddrByPeerAddress hop.node
    return some ⟨x.1.node, BitVec.allOnes 32, if x.1.node = hop.node then 0 else hop.node,
      s.getInterfaceByAddress localAddr, .ospf, 0⟩

/-- The entry for the peer behind an interface. -/
def localEntry (interfaceAddr : IPAddress) : Except RebuildFault (Option IPRoute) := do
  let peer ← s.getPeerByLocalAddress interfaceAddr
  return some ⟨peer, BitVec.allOnes 32, 0, s.getInterfaceByAddress interfaceAddr, .ospf, 0⟩

end RouterState

def addEntry (rt : RoutingTable) : Option IPRoute → Except RebuildFault RoutingTable
  | none => .ok rt
  | some entry => (rt.addRoute entry).mapError .routes

def RouterState.rebuildRoutingTable (s : RouterState) : Except RebuildFault RoutingTable := do
  let vertices ← (calculateShortestPaths s.routerId s.ted 0 (Fin.last 7)).mapError .paths
  let rt ← (clearRoutes s.rt.getNumRoutes 0 s.rt).mapError .routes
  -- remote destinations
  let rt ← vertices.zipIdx.foldlM (fun rt x ↦ do addEntry rt (← s.remoteEntry vertices x)) rt
  -- local peers
  s.interfaceAddrs.foldlM (fun rt addr ↦ do addEntry rt (← s.localEntry addr)) rt

end TED

/-! ## Changes of the routing table -/

namespace RoutingTable

/-- The unicast and the multicast routes. -/
def all (s : RoutingTable) : List ℕ := s.routes ++ s.multicastRoutes

/-- Each route is in the table once and has not been freed. -/
structure Sound (s : RoutingTable) : Prop where
  nodup : s.all.Nodup
  live : ∀ p ∈ s.all, ∃ e, s.heap p = some e
  old : ∀ p ∈ s.all, p < s.fresh

/-- The routes that have been made when `base` had been the next new one. -/
def madeSince (s : RoutingTable) (base : ℕ) : List IPRoute :=
  (s.all.filter fun p ↦ decide (base ≤ p)).filterMap s.heap

/-- The route is a multicast one. -/
def IsMulticast (s : RoutingTable) (p : ℕ) : Prop := ∃ e, s.heap p = some e ∧ e.host.isMulticast = true

variable {s s' : RoutingTable} {p base : ℕ} {e : IPRoute}

theorem getRoute_eq (s : RoutingTable) (k : ℕ) : s.getRoute k = s.all[k]? := by
  rw [getRoute, all, List.getElem?_append]
  by_cases hk : k < s.routes.length
  · rw [if_pos hk, List.getElem?_eq_getElem hk]
  · rw [if_neg hk, List.getElem?_eq_none (not_lt.mp hk)]

theorem all_deleteRoute (hp : p ∈ s.all) : (s.deleteRoute p).2.all = s.all.erase p := by
  unfold deleteRoute
  by_cases hunicast : p ∈ s.routes
  · rw [if_pos hunicast]
    exact (List.erase_append_left _ hunicast).symm
  · have hmulticast : p ∈ s.multicastRoutes := (List.mem_append.mp hp).resolve_left hunicast
    rw [if_neg hunicast, if_pos hmulticast]
    exact (List.erase_append_right _ hunicast).symm

theorem heap_deleteRoute (hp : p ∈ s.all) :
    (s.deleteRoute p).2.heap = Function.update s.heap p none ∧ (s.deleteRoute p).2.fresh = s.fresh := by
  unfold deleteRoute
  by_cases hunicast : p ∈ s.routes
  · rw [if_pos hunicast]
    exact ⟨rfl, rfl⟩
  · have hmulticast : p ∈ s.multicastRoutes := (List.mem_append.mp hp).resolve_left hunicast
    rw [if_neg hunicast, if_pos hmulticast]
    exact ⟨rfl, rfl⟩

theorem Sound.deleteRoute (h : s.Sound) (hp : p ∈ s.all) :
    (s.deleteRoute p).2.Sound ∧ ∀ q ∈ (s.deleteRoute p).2.all, (s.deleteRoute p).2.heap q = s.heap q := by
  obtain ⟨hheap, hfresh⟩ := heap_deleteRoute hp
  have hsame : ∀ q ∈ s.all.erase p, Function.update s.heap p none q = s.heap q := by
    intro q hq
    exact Function.update_of_ne (h.nodup.mem_erase_iff.mp hq).1 _ _
  refine ⟨⟨?_, ?_, ?_⟩, ?_⟩
  · rw [all_deleteRoute hp]
    exact h.nodup.erase p
  · intro q hq
    rw [all_deleteRoute hp] at hq
    rw [hheap, hsame q hq]
    exact h.live q (List.mem_of_mem_erase hq)
  · intro q hq
    rw [all_deleteRoute hp] at hq
    rw [hfresh]
    exact h.old q (List.mem_of_mem_erase hq)
  · intro q hq
    rw [all_deleteRoute hp] at hq
    rw [hheap, hsame q hq]

/-- A host route with an interface is accepted, and is the only new one. -/
theorem Sound.addRoute (h : s.Sound) (hbase : base ≤ s.fresh) (hhost : e.host ≠ 0)
    (hnetmask : e.netmask = BitVec.allOnes 32) (hinterface : e.interface ≠ none) :
    ∃ s', s.addRoute e = .ok s' ∧ s'.Sound ∧ base ≤ s'.fresh ∧
      (s'.madeSince base).Perm (e :: s.madeSince base) ∧
      ∀ p ∈ s'.all, p < base → p ∈ s.all ∧ s'.heap p = s.heap p := by
  have hmask : e.netmask ≠ 0 := by
    rw [hnetmask]
    decide
  have hreplace : s.replaceDefaultRoute e = s := by
    rw [replaceDefaultRoute]
    cases s.getDefaultRoute with
    | none => rfl
    | some p => exact if_neg hmask
  have hrun : s.addRoute e = .ok (s.pushBack e).invalidateCache := by
    rw [RoutingTable.addRoute, hreplace, if_neg]
    rw [if_neg hmask, eq_false hhost, eq_false hmask]
    rintro (hne | hbits | hnone)
    · exact hne rfl
    · exact hbits BitVec.and_zero
    · exact hinterface hnone
  have hall : (s.pushBack e).all.Perm (s.fresh :: s.all) := by
    rw [pushBack]
    split
    · rw [all, ← List.append_assoc]
      exact List.perm_append_singleton _ _
    · rw [all, List.append_assoc]
      exact List.perm_middle
  have hheap : (s.pushBack e).heap = Function.update s.heap s.fresh (some e) := by
    rw [pushBack]
    split <;> rfl
  have hfresh : (s.pushBack e).fresh = s.fresh + 1 := by
    rw [pushBack]
    split <;> rfl
  have hnew : s.fresh ∉ s.all := fun hmem ↦ lt_irrefl _ (h.old _ hmem)
  have hsame : ∀ p ∈ s.all, Function.update s.heap s.fresh (some e) p = s.heap p := by
    intro p hp
    exact Function.update_of_ne (ne_of_mem_of_not_mem hp hnew) _ _
  refine ⟨_, hrun, ⟨?_, ?_, ?_⟩, ?_, ?_, ?_⟩
  · exact hall.nodup_iff.mpr (List.nodup_cons.mpr ⟨hnew, h.nodup⟩)
  · intro p hp
    change ∃ e', (s.pushBack e).heap p = some e'
    rw [hheap]
    rcases List.mem_cons.mp (hall.mem_iff.mp hp) with rfl | hold
    · exact ⟨e, Function.update_self ..⟩
    · rw [hsame p hold]
      exact h.live p hold
  · intro p hp
    change p < (s.pushBack e).fresh
    rw [hfresh]
    rcases List.mem_cons.mp (hall.mem_iff.mp hp) with rfl | hold
    · exact Nat.lt_succ_self _
    · exact (h.old p hold).trans (Nat.lt_succ_self _)
  · change base ≤ (s.pushBack e).fresh
    omega
  · have hperm := (hall.filter fun p ↦ decide (base ≤ p)).filterMap (s.pushBack e).heap
    rw [List.filter_cons_of_pos (by simpa using hbase), hheap, List.filterMap_cons,
      Function.update_self] at hperm
    have hrest : (s.all.filter fun p ↦ decide (base ≤ p)).filterMap
        (Function.update s.heap s.fresh (some e)) = s.madeSince base := by
      apply List.filterMap_congr
      intro p hp
      exact hsame p (List.mem_of_mem_filter hp)
    rw [hrest] at hperm
    change ((s.pushBack e).all.filter _).filterMap (s.pushBack e).heap |>.Perm _
    rw [hheap]
    exact hperm
  · intro p hp hlt
    rcases List.mem_cons.mp (hall.mem_iff.mp hp) with rfl | hold
    · omega
    · refine ⟨hold, ?_⟩
      change (s.pushBack e).heap p = s.heap p
      rw [hheap, hsame p hold]

end RoutingTable

namespace TED

variable {rt : RoutingTable}

theorem clearRoutes_spec (rest : List ℕ) : ∀ {rt : RoutingTable} {kept : List ℕ}, rt.Sound →
    rt.all = kept ++ rest → (∀ p ∈ kept, rt.IsMulticast p) →
    ∃ rt', clearRoutes rest.length kept.length rt = .ok rt' ∧ rt'.Sound ∧ rt'.fresh = rt.fresh ∧
      ∀ p ∈ rt'.all, p ∈ rt.all ∧ rt'.IsMulticast p := by
  induction rest with
  | nil =>
    intro rt kept h hall hkept
    refine ⟨rt, rfl, h, rfl, fun p hp ↦ ⟨hp, ?_⟩⟩
    rw [hall, List.append_nil] at hp
    exact hkept p hp
  | cons p rest ih =>
    intro rt kept h hall hkept
    have hmem : p ∈ rt.all := by
      rw [hall]
      simp
    obtain ⟨e, he⟩ := h.live p hmem
    have hget : rt.getRoute kept.length = some p := by
      rw [rt.getRoute_eq, hall, List.getElem?_append_right le_rfl, Nat.sub_self]
      rfl
    have hread : rt.read p = .ok e := by rw [RoutingTable.read, he]
    rw [List.length_cons, clearRoutes, hget]
    dsimp only
    rw [hread, TransitionSystem.ok_bind]
    by_cases hmulticast : e.host.isMulticast = true
    · rw [if_pos hmulticast]
      have hall' : rt.all = (kept ++ [p]) ++ rest := by rw [hall, List.append_assoc]; rfl
      have hkept' : ∀ q ∈ kept ++ [p], rt.IsMulticast q :=
        List.forall_mem_append.mpr ⟨hkept, List.forall_mem_singleton.mpr ⟨e, he, hmulticast⟩⟩
      have hrun := ih h hall' hkept'
      rwa [List.length_append] at hrun
    · rw [if_neg hmulticast]
      obtain ⟨hsound, hsame⟩ := h.deleteRoute hmem
      have hnotin : p ∉ kept := by
        have hnodup := h.nodup
        rw [hall] at hnodup
        exact fun hp ↦ (List.disjoint_of_nodup_append hnodup) hp List.mem_cons_self
      have hall' : (rt.deleteRoute p).2.all = kept ++ rest := by
        rw [RoutingTable.all_deleteRoute hmem, hall, List.erase_append_right _ hnotin, List.erase_cons_head]
      have hkept' : ∀ q ∈ kept, (rt.deleteRoute p).2.IsMulticast q := by
        intro q hq
        rw [RoutingTable.IsMulticast, hsame q (hall' ▸ List.mem_append_left _ hq)]
        exact hkept q hq
      obtain ⟨rt', hrun, hsound', hfresh, hleft⟩ := ih hsound hall' hkept'
      refine ⟨rt', hrun, hsound', hfresh.trans (RoutingTable.heap_deleteRoute hmem).2, fun q hq ↦ ?_⟩
      obtain ⟨hold, hmulti⟩ := hleft q hq
      rw [RoutingTable.all_deleteRoute hmem] at hold
      exact ⟨List.mem_of_mem_erase hold, hmulti⟩

/-- A host route that the routing table accepts. -/
structure Acceptable (e : IPRoute) : Prop where
  host : e.host ≠ 0
  netmask : e.netmask = BitVec.allOnes 32
  interface : e.interface ≠ none

theorem foldlM_addEntry {α : Type} {base : ℕ} {entry : α → Except RebuildFault (Option IPRoute)}
    {f : α → Option IPRoute} (xs : List α) : ∀ {rt : RoutingTable}, rt.Sound → base ≤ rt.fresh →
      (∀ x ∈ xs, entry x = .ok (f x) ∧ ∀ e, f x = some e → Acceptable e) →
      ∃ rt', xs.foldlM (fun rt x ↦ do addEntry rt (← entry x)) rt = .ok rt' ∧ rt'.Sound ∧
        base ≤ rt'.fresh ∧ (rt'.madeSince base).Perm (xs.filterMap f ++ rt.madeSince base) ∧
        ∀ p ∈ rt'.all, p < base → p ∈ rt.all ∧ rt'.heap p = rt.heap p := by
  induction xs with
  | nil => exact fun {rt} h hbase _ ↦ ⟨rt, rfl, h, hbase, .refl _, fun p hp _ ↦ ⟨hp, rfl⟩⟩
  | cons x xs ih =>
    intro rt h hbase hentries
    obtain ⟨hx, hrest⟩ := List.forall_mem_cons.mp hentries
    rw [List.foldlM_cons, hx.1, TransitionSystem.ok_bind, List.filterMap_cons]
    cases hf : f x with
    | none =>
      rw [addEntry, TransitionSystem.ok_bind]
      exact ih h hbase hrest
    | some e =>
      obtain ⟨hhost, hnetmask, hinterface⟩ := hx.2 e hf
      obtain ⟨rt₁, hadd, hsound, hbase', hmade, hold⟩ := h.addRoute hbase hhost hnetmask hinterface
      obtain ⟨rt', hrun, hsound', hbase'', hmade', hold'⟩ := ih hsound hbase' hrest
      refine ⟨rt', ?_, hsound', hbase'', ?_, fun p hp hlt ↦ ?_⟩
      · rw [addEntry, hadd]
        exact hrun
      · exact (hmade'.trans (hmade.append_left _)).trans List.perm_middle
      · obtain ⟨hp₁, hheap₁⟩ := hold' p hp hlt
        obtain ⟨hp₀, hheap₀⟩ := hold p hp₁ hlt
        exact ⟨hp₀, hheap₁.trans hheap₀⟩

end TED

end InetManet
