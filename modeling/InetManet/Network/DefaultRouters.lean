import InetManet.Network.AddressResolution
import InetManet.Network.RoutingTable6

/-!
# Default router selection

`selectDefaultRouter` walks through the neighbour cache in the order of its keys. An expired default router
is removed from the map while the iterator stands at it, so that the walk cannot go on. Otherwise the first
entry in state REACHABLE, STALE or DELAY is taken, whether it is a default router or a host; a default
router in state PROBE is passed over. Only `timeoutDefaultRouter` also clears the destination cache.
-/

namespace InetManet

namespace NeighbourDiscovery

open TransitionSystem

def Neighbour.expiredRouter (nce : Neighbour) (simTime : ℚ) : Bool :=
  nce.isDefaultRouter && nce.routerExpiryTime < simTime

/-- REACHABLE, STALE or DELAY. -/
def Neighbour.isTaken (nce : Neighbour) : Bool :=
  nce.reachabilityState == .reachable || nce.reachabilityState == .stale || nce.reachabilityState == .delay

/-- `it++`, with the iterator at this key. -/
def advance (s : NeighbourDiscovery) (key : Key) : Except Fault Unit :=
  match s.lookup key with
  | some _ => .ok ()
  | none => .error .invalidIterator

/-- The walk from the first of these entries on. Only a removal changes the map, and ends the walk. -/
def selectionLoop (simTime : ℚ) (s : NeighbourDiscovery) :
    List (Key × ℕ) → Except Fault (Option Key × NeighbourDiscovery)
  | [] => .ok (none, s)
  | (key, p) :: entries => do
    let nce ← s.read p
    let routerExpired := nce.expiredRouter simTime
    let s ← if routerExpired then s.remove key else .ok s
    if !routerExpired && nce.isTaken then return (some key, s)
    else
      s.advance key
      selectionLoop simTime s entries

end NeighbourDiscovery

open NeighbourDiscovery

/-- The neighbour cache and the destination cache of a node. -/
structure IPv6Node where
  neighbourCache : NeighbourDiscovery
  rt6 : RoutingTable6

namespace IPv6Node

open TransitionSystem

/-- No key stands for the interface id -1. -/
def selectDefaultRouter (node : IPv6Node) (simTime : ℚ) : Except Fault (Option Key × IPv6Node) := do
  let (key, neighbourCache) ←
    node.neighbourCache.selectionLoop simTime node.neighbourCache.neighbourMap.entries
  return (key, { node with neighbourCache })

def entry (node : IPv6Node) (key : Key) : Option Neighbour :=
  (node.neighbourCache.lookup key).bind node.neighbourCache.heap

/-- A default router that has not expired, in any state but INCOMPLETE. -/
def Usable (node : IPv6Node) (simTime : ℚ) (key : Key) : Prop :=
  ∃ nce, node.entry key = some nce ∧ nce.isDefaultRouter = true ∧ nce.expiredRouter simTime = false ∧
    nce.reachabilityState ≠ .incomplete

def Expired (node : IPv6Node) (simTime : ℚ) (key : Key) : Prop :=
  ∃ nce, node.entry key = some nce ∧ nce.expiredRouter simTime = true

/-- A usable router is returned if there is one, and the routers that were removed had expired and are not
used as next hops any more. -/
structure Selected (node : IPv6Node) (simTime : ℚ) (r : Option Key) (node' : IPv6Node) : Prop where
  usable : ∀ key, r = some key → node.Usable simTime key
  found : (∃ key, node.Usable simTime key) → r ≠ none
  removed : ∀ key, node'.entry key = node.entry key ∨ node'.entry key = none ∧ node.Expired simTime key
  forgotten : ∀ key, node'.entry key ≠ node.entry key → ∀ dest,
    node'.rt6.destCache dest ≠ some ⟨key.address, key.interfaceID⟩

/-- The walk ends without a fault, and its result is as it should be. -/
def SelectsRouter (node : IPv6Node) (simTime : ℚ) : Prop :=
  ∃ r node', node.selectDefaultRouter simTime = .ok (r, node') ∧ node.Selected simTime r node'

/-- The walk ends here. -/
def stopsAt (node : IPv6Node) (simTime : ℚ) (p : ℕ) : Bool :=
  match node.neighbourCache.heap p with
  | some nce => nce.expiredRouter simTime || nce.isTaken
  | none => false

/-- The walk ends at a default router that has not expired, or passes over no default router that is being
probed. -/
def RouterFirst (node : IPv6Node) (simTime : ℚ) : Prop :=
  match node.neighbourCache.neighbourMap.findFirst? (node.stopsAt simTime) with
  | some (key, _) => ∃ nce, node.entry key = some nce ∧ nce.isDefaultRouter = true ∧
      nce.expiredRouter simTime = false
  | none => ∀ key nce, node.entry key = some nce → nce.isDefaultRouter = true →
      nce.reachabilityState ≠ .probe

/-- The entries of the map exist. -/
def Allocated (node : IPv6Node) : Prop :=
  ∀ key p, node.neighbourCache.lookup key = some p → ∃ nce, node.neighbourCache.heap p = some nce

/-! ## The walk -/

section Walk

variable {s : NeighbourDiscovery} {simTime : ℚ} {key : Key} {p : ℕ} {nce : Neighbour}
  {entries : List (Key × ℕ)}

theorem read_of_heap (hp : s.heap p = some nce) : s.read p = .ok nce := by
  unfold NeighbourDiscovery.read
  rw [hp]

/-- An entry that is neither taken nor removed is passed. -/
theorem selectionLoop_pass (hkey : s.lookup key = some p) (hp : s.heap p = some nce)
    (hexpired : nce.expiredRouter simTime = false) (htaken : nce.isTaken = false) :
    s.selectionLoop simTime ((key, p) :: entries) = s.selectionLoop simTime entries := by
  have hadvance : s.advance key = .ok () := by
    unfold advance
    rw [hkey]
  rw [selectionLoop, read_of_heap hp, ok_bind]
  simp only [hexpired, htaken, Bool.and_false, Bool.false_eq_true, if_false]
  rw [ok_bind, hadvance, ok_bind]

theorem selectionLoop_take (hp : s.heap p = some nce) (hexpired : nce.expiredRouter simTime = false)
    (htaken : nce.isTaken = true) :
    s.selectionLoop simTime ((key, p) :: entries) = .ok (some key, s) := by
  rw [selectionLoop, read_of_heap hp, ok_bind]
  simp only [hexpired, htaken, Bool.not_false, Bool.and_self, Bool.false_eq_true, if_false, if_true]
  rfl

theorem selectionLoop_expired (hkey : s.lookup key = some p) (hp : s.heap p = some nce)
    (hexpired : nce.expiredRouter simTime = true) :
    ∃ fault, s.selectionLoop simTime ((key, p) :: entries) = .error fault := by
  rw [selectionLoop, read_of_heap hp, ok_bind]
  simp only [hexpired, Bool.not_true, Bool.false_and, Bool.false_eq_true, if_false, if_true]
  cases hremove : s.remove key with
  | error fault => exact ⟨fault, rfl⟩
  | ok s' =>
    obtain ⟨messages, -, hs'⟩ := (outcome_remove hkey hp).of_eq_ok hremove
    have hgone : s'.lookup key = none := by
      rw [hs']
      exact OrderedMap.find?_erase_self
    have hadvance : s'.advance key = .error .invalidIterator := by
      unfold advance
      rw [hgone]
    refine ⟨.invalidIterator, ?_⟩
    rw [ok_bind, hadvance]
    rfl

end Walk

/-- The outcome of the walk, from the entry at which it ends. -/
theorem selectionLoop_outcome {node : IPv6Node} (simTime : ℚ) {entries : List (Key × ℕ)}
    (hentries : ∀ e ∈ entries, node.neighbourCache.lookup e.1 = some e.2 ∧
      ∃ nce, node.neighbourCache.heap e.2 = some nce) :
    match entries.find? (fun e ↦ node.stopsAt simTime e.2) with
    | none => node.neighbourCache.selectionLoop simTime entries = .ok (none, node.neighbourCache)
    | some (key, _) => ∃ nce, node.entry key = some nce ∧
        if nce.expiredRouter simTime then
          ∃ fault, node.neighbourCache.selectionLoop simTime entries = .error fault
        else nce.isTaken = true ∧
          node.neighbourCache.selectionLoop simTime entries = .ok (some key, node.neighbourCache) := by
  induction entries with
  | nil => rfl
  | cons e entries ih =>
    obtain ⟨key, p⟩ := e
    obtain ⟨⟨hkey, nce, hp⟩, hrest⟩ := List.forall_mem_cons.mp hentries
    have hentry : node.entry key = some nce := by
      rw [entry, hkey]
      exact hp
    have hstops : node.stopsAt simTime p = (nce.expiredRouter simTime || nce.isTaken) := by
      unfold stopsAt
      rw [hp]
    rw [List.find?_cons]
    cases hexpired : nce.expiredRouter simTime with
    | true =>
      rw [hexpired, Bool.true_or] at hstops
      simp only [hstops]
      refine ⟨nce, hentry, ?_⟩
      rw [hexpired, if_pos rfl]
      exact selectionLoop_expired hkey hp hexpired
    | false =>
      cases htaken : nce.isTaken with
      | true =>
        rw [hexpired, htaken] at hstops
        simp only [hstops, Bool.false_or]
        refine ⟨nce, hentry, ?_⟩
        rw [hexpired, if_neg Bool.false_ne_true]
        exact ⟨htaken, selectionLoop_take hp hexpired htaken⟩
      | false =>
        rw [hexpired, htaken] at hstops
        simp only [hstops, Bool.false_or]
        rw [selectionLoop_pass hkey hp hexpired htaken]
        exact ih hrest

/-! ## The consequences -/

section Consequences

variable {node node' : IPv6Node} {simTime : ℚ} {key : Key}

theorem allocated_of_reachable {cfg : Config} {s : NeighbourDiscovery}
    (h : Reachable Started Allowed (step cfg) s) (rt6 : RoutingTable6) : (⟨s, rt6⟩ : IPv6Node).Allocated := by
  have hs : s.Inv := (h.outcome (fun _ ↦ Started.inv) fun _ e hs he ↦ hs.step e he).1
  intro key p hkey
  obtain ⟨nce, hp, _⟩ := hs.table.mapped key p hkey
  exact ⟨nce, hp⟩

/-- The walk of `NeighbourDiscovery`, in which the removal itself is left out, has the same results. -/
theorem selectDefaultRouter_ok_iff {s : NeighbourDiscovery} {r : Option Key} {entries : List (Key × ℕ)}
    (hentries : ∀ e ∈ entries, s.lookup e.1 = some e.2 ∧ ∃ nce, s.heap e.2 = some nce) :
    s.selectDefaultRouter simTime entries = .ok r ↔ s.selectionLoop simTime entries = .ok (r, s) := by
  induction entries with
  | nil =>
    unfold NeighbourDiscovery.selectDefaultRouter selectionLoop
    constructor
    · intro h
      cases h
      rfl
    · intro h
      cases h
      rfl
  | cons e entries ih =>
    obtain ⟨key, p⟩ := e
    obtain ⟨⟨hkey, nce, hp⟩, hrest⟩ := List.forall_mem_cons.mp hentries
    rw [NeighbourDiscovery.selectDefaultRouter, read_of_heap hp, ok_bind]
    change (if nce.expiredRouter simTime then _ else _) = _ ↔ _
    cases hexpired : nce.expiredRouter simTime with
    | true =>
      have hexists : ∃ fault, s.selectionLoop simTime ((key, p) :: entries) = .error fault :=
        selectionLoop_expired hkey hp hexpired
      obtain ⟨fault, hfault⟩ := hexists
      rw [hfault, if_pos rfl]
      constructor
      · intro h
        cases h
      · intro h
        cases h
    | false =>
      rw [if_neg Bool.false_ne_true]
      have hstates : nce.isTaken = true ↔ nce.reachabilityState = .reachable ∨
          nce.reachabilityState = .stale ∨ nce.reachabilityState = .delay := by
        unfold Neighbour.isTaken
        simp only [Bool.or_eq_true, beq_iff_eq, or_assoc]
      cases htaken : nce.isTaken with
      | true =>
        rw [selectionLoop_take hp hexpired htaken, if_pos (hstates.mp htaken)]
        constructor
        · intro h
          cases h
          rfl
        · intro h
          cases h
          rfl
      | false =>
        rw [selectionLoop_pass hkey hp hexpired htaken, if_neg, ih hrest]
        rw [← hstates, htaken]
        exact Bool.false_ne_true

end Consequences

/-! ## When the right router is selected -/

section Selection

variable {node : IPv6Node} {simTime : ℚ} {key : Key} {nce : Neighbour}

theorem Neighbour.isTaken_iff : nce.isTaken = true ↔ nce.reachabilityState ≠ .incomplete ∧
    nce.reachabilityState ≠ .probe := by
  unfold Neighbour.isTaken
  cases nce.reachabilityState <;> decide

theorem entry_eq_some_iff : node.entry key = some nce ↔
    ∃ p, (key, p) ∈ node.neighbourCache.neighbourMap.entries ∧ node.neighbourCache.heap p = some nce := by
  unfold entry
  rw [Option.bind_eq_some_iff]
  simp only [NeighbourDiscovery.lookup, OrderedMap.find?_eq_some_iff]

theorem selected_self_iff {r : Option Key} : node.Selected simTime r node ↔
    (∀ key, r = some key → node.Usable simTime key) ∧ ((∃ key, node.Usable simTime key) → r ≠ none) := by
  constructor
  · intro h
    exact ⟨h.usable, h.found⟩
  · intro ⟨husable, hfound⟩
    exact ⟨husable, hfound, fun _ ↦ Or.inl rfl, fun _ hchanged ↦ absurd rfl hchanged⟩

theorem selectDefaultRouter_of_loop {r : Option Key}
    (h : node.neighbourCache.selectionLoop simTime node.neighbourCache.neighbourMap.entries =
      .ok (r, node.neighbourCache)) : node.selectDefaultRouter simTime = .ok (r, node) := by
  unfold selectDefaultRouter
  rw [h]
  rfl

theorem selectsRouter_iff_selected {r : Option Key}
    (h : node.selectDefaultRouter simTime = .ok (r, node)) :
    node.SelectsRouter simTime ↔ node.Selected simTime r node := by
  unfold SelectsRouter
  rw [h]
  constructor
  · intro ⟨r', node', hok, hselected⟩
    cases hok
    exact hselected
  · intro hselected
    exact ⟨r, node, rfl, hselected⟩

theorem selectDefaultRouter_selects_iff (node : IPv6Node) (h : node.Allocated) (simTime : ℚ) :
    node.SelectsRouter simTime ↔ node.RouterFirst simTime := by
  have hentries : ∀ e ∈ node.neighbourCache.neighbourMap.entries,
      node.neighbourCache.lookup e.1 = some e.2 ∧ ∃ nce, node.neighbourCache.heap e.2 = some nce := by
    intro e he
    have hkey := OrderedMap.find?_eq_some_iff.mpr he
    exact ⟨hkey, h e.1 e.2 hkey⟩
  have houtcome := selectionLoop_outcome simTime hentries
  unfold RouterFirst OrderedMap.findFirst?
  cases hfind : node.neighbourCache.neighbourMap.entries.find? (fun e ↦ node.stopsAt simTime e.2) with
  | none =>
    rw [hfind] at houtcome
    -- what is passed over is neither expired nor taken
    have hpassed : ∀ key nce, node.entry key = some nce → nce.expiredRouter simTime = false ∧
        nce.isTaken = false := by
      intro key nce hentry
      obtain ⟨p, hmem, hp⟩ := entry_eq_some_iff.mp hentry
      have hstops := List.find?_eq_none.mp hfind (key, p) hmem
      simp only [stopsAt, hp, Bool.or_eq_true, not_or, Bool.not_eq_true] at hstops
      exact hstops
    rw [selectsRouter_iff_selected (selectDefaultRouter_of_loop houtcome), selected_self_iff]
    constructor
    · intro ⟨_, hfound⟩ key nce hentry hrouter hprobe
      have hincomplete : nce.reachabilityState ≠ .incomplete := by
        rw [hprobe]
        nofun
      exact hfound ⟨key, nce, hentry, hrouter, (hpassed key nce hentry).1, hincomplete⟩ rfl
    · intro hnone
      refine ⟨nofun, ?_⟩
      intro ⟨key, nce, hentry, hrouter, _, hincomplete⟩
      have htaken := Neighbour.isTaken_iff.mpr ⟨hincomplete, hnone key nce hentry hrouter⟩
      rw [(hpassed key nce hentry).2] at htaken
      cases htaken
  | some e =>
    obtain ⟨key, p⟩ := e
    rw [hfind] at houtcome
    obtain ⟨nce, hentry, hresult⟩ := houtcome
    cases hexpired : nce.expiredRouter simTime with
    | true =>
      rw [hexpired, if_pos rfl] at hresult
      obtain ⟨fault, hfault⟩ := hresult
      constructor
      · intro ⟨r, node', hok, _⟩
        unfold selectDefaultRouter at hok
        rw [hfault] at hok
        cases hok
      · intro ⟨nce', hentry', _, hfresh⟩
        rw [hentry] at hentry'
        cases hentry'
        rw [hexpired] at hfresh
        cases hfresh
    | false =>
      rw [hexpired, if_neg Bool.false_ne_true] at hresult
      obtain ⟨htaken, hok⟩ := hresult
      rw [selectsRouter_iff_selected (selectDefaultRouter_of_loop hok), selected_self_iff]
      constructor
      · intro ⟨husable, _⟩
        obtain ⟨nce', hentry', hrouter, hfresh, _⟩ := husable key rfl
        exact ⟨nce', hentry', hrouter, hfresh⟩
      · intro ⟨nce', hentry', hrouter, hfresh⟩
        refine ⟨?_, fun _ ↦ nofun⟩
        intro key' hkey'
        cases hkey'
        rw [hentry] at hentry'
        cases hentry'
        exact ⟨nce, hentry, hrouter, hfresh, (Neighbour.isTaken_iff.mp htaken).1⟩

end Selection

/-- A host, then a default router that is reachable until time 10. -/
def hostAndRouter : IPv6Node where
  neighbourCache :=
    { emptyCache with
      neighbourMap := (OrderedMap.empty.insert ⟨1, 1⟩ 0).insert ⟨2, 1⟩ 1
      heap := fun p ↦
        if p = 0 then some { nceKey := ⟨1, 1⟩, reachabilityState := .incomplete }
        else if p = 1 then some
          { nceKey := ⟨2, 1⟩
            isRouter := true
            isDefaultRouter := true
            reachabilityState := .reachable
            routerExpiryTime := 10 }
        else none
      fresh := 2 }
  rt6 := ⟨0, 0, [], fun _ ↦ none⟩

theorem selectDefaultRouter_selects_hostAndRouter :
    hostAndRouter.SelectsRouter 5 ↔ hostAndRouter.RouterFirst 5 := by
  apply selectDefaultRouter_selects_iff
  intro key p hkey
  have hmem := OrderedMap.find?_eq_some_iff.mp hkey
  simp only [hostAndRouter, OrderedMap.mem_insert, Prod.mk.injEq] at hmem
  rcases hmem with ⟨_, rfl⟩ | ⟨⟨_, rfl⟩ | ⟨hnone, _⟩, _⟩
  · exact ⟨_, rfl⟩
  · exact ⟨_, rfl⟩
  · cases hnone

/-- The solicitation of a neighbour makes a STALE entry for it, and this host is then taken for a default
router. -/
theorem selectDefaultRouter_takes_host : ∃ s, Reachable Started Allowed (step oneTry) s ∧
    ¬ (⟨s, ⟨0, 0, [], fun _ ↦ none⟩⟩ : IPv6Node).SelectsRouter 1 := by
  have hcheck : ((run (step oneTry) emptyCache [crossing]).toOption.any fun s ↦
      ((⟨s, ⟨0, 0, [], fun _ ↦ none⟩⟩ : IPv6Node).selectDefaultRouter 1).toOption.any fun r ↦
        r.1.any fun key ↦ ((⟨s, ⟨0, 0, [], fun _ ↦ none⟩⟩ : IPv6Node).entry key).all
          (!·.isDefaultRouter)) = true := by decide +kernel
  cases hrun : run (step oneTry) emptyCache [crossing] with
  | error e =>
    rw [hrun] at hcheck
    cases hcheck
  | ok s =>
    rw [hrun, Except.toOption, Option.any_some] at hcheck
    have hstart : Reachable Started Allowed (step oneTry) emptyCache :=
      .start ⟨rfl, fun _ ↦ rfl, fun _ ↦ rfl, rfl, rfl⟩
    have hfirst : emptyCache.Allowed crossing := by
      intro p n hlookup
      cases hlookup
    obtain ⟨s₁, h₁, hend⟩ := bind_ok_iff.mp hrun
    cases hend
    refine ⟨s, hstart.next hfirst h₁, ?_⟩
    rintro ⟨r, node', hok, hselected⟩
    rw [hok, Except.toOption, Option.any_some] at hcheck
    cases r with
    | none => cases hcheck
    | some key =>
      obtain ⟨nce, hentry, hrouter, _⟩ := hselected.usable key rfl
      rw [Option.any_some, hentry, Option.all_some, hrouter] at hcheck
      cases hcheck

end IPv6Node

end InetManet
