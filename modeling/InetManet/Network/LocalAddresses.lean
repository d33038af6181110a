import InetManet.Network.RoutingTable
import Mathlib.Data.Finset.Basic

/-!
# The caches of local addresses

The routing table keeps the addresses of the interfaces, and their broadcast addresses, in sets that are
filled by the first query; an empty set counts as not filled. Notifications clear the first set but not
the second one, and that an interface goes away clears the first set only if a route goes with it.
-/

namespace InetManet

/-- What the table knows of an interface. -/
structure LocalInterface where
  id : ℕ
  inetAddr : IPAddress
  netmask : IPAddress
  deriving DecidableEq

/-- What the table knows of a unicast route. -/
structure LocalRoute where
  interface : Option ℕ
  source : RouteSource
  deriving DecidableEq

structure LocalAddressTable where
  interfaces : List LocalInterface := []
  /-- The interfaces that there ever were. -/
  idToInterfaceSize : ℕ := 0
  routes : List LocalRoute := []
  localAddresses : Finset IPAddress := ∅
  localBroadcastAddresses : Finset IPAddress := ∅

namespace LocalAddressTable

/-! ## Queries -/

/-- The addresses of the interfaces. -/
def interfaceAddresses (interfaces : List LocalInterface) : Finset IPAddress :=
  (interfaces.map LocalInterface.inetAddr).toFinset

/-- Their broadcast addresses; an unspecified one is left out. -/
def broadcastAddresses (interfaces : List LocalInterface) : Finset IPAddress :=
  ((interfaces.map fun ie ↦ ie.inetAddr.getBroadcastAddress ie.netmask).filter (· ≠ 0)).toFinset

/-- A set that is filled if it is empty. -/
def filled (addresses fresh : Finset IPAddress) : Finset IPAddress :=
  if addresses = ∅ then fresh else addresses

section

variable (t : LocalAddressTable)

def isLocalAddress (dest : IPAddress) : Bool × LocalAddressTable :=
  let localAddresses := filled t.localAddresses (interfaceAddresses t.interfaces)
  (dest ∈ localAddresses, { t with localAddresses })

def isLocalBroadcastAddress (dest : IPAddress) : Bool × LocalAddressTable :=
  let localBroadcastAddresses := filled t.localBroadcastAddresses (broadcastAddresses t.interfaces)
  (dest ∈ localBroadcastAddresses, { t with localBroadcastAddresses })

/-! ## Notifications -/

def invalidateCache : LocalAddressTable := { t with localAddresses := ∅ }

def updateNetmaskRoutes : LocalAddressTable :=
  let kept := t.routes.filter fun r ↦ r.source ≠ .ifaceNetmask
  let added := (t.interfaces.filter fun ie ↦ ie.netmask ≠ BitVec.allOnes 32).map fun ie ↦
    ⟨some ie.id, .ifaceNetmask⟩
  invalidateCache { t with routes := kept ++ added }

/-- Every route that is deleted clears the cache. -/
def deleteInterfaceRoutes (id : ℕ) : LocalAddressTable :=
  if ∃ r ∈ t.routes, r.interface = some id then
    invalidateCache { t with routes := t.routes.filter fun r ↦ r.interface ≠ some id }
  else t

/-! ## Changes of the interfaces -/

inductive Event
  | addInterface (inetAddr netmask : IPAddress)
  | deleteInterface (id : ℕ)
  | setIPAddress (id : ℕ) (inetAddr : IPAddress)
  | setNetmask (id : ℕ) (netmask : IPAddress)
  /-- State or general configuration of an interface. -/
  | interfaceChanged
  | isLocalAddress (dest : IPAddress)
  | isLocalBroadcastAddress (dest : IPAddress)

/-- The interfaces after an event. -/
def interfacesAfter : Event → List LocalInterface
  | .addInterface inetAddr netmask => t.interfaces ++ [⟨t.idToInterfaceSize, inetAddr, netmask⟩]
  | .deleteInterface id => t.interfaces.filter (·.id ≠ id)
  | .setIPAddress id inetAddr =>
    t.interfaces.map fun ie ↦ if ie.id = id then { ie with inetAddr } else ie
  | .setNetmask id netmask =>
    t.interfaces.map fun ie ↦ if ie.id = id then { ie with netmask } else ie
  | _ => t.interfaces

/-- The notification comes after the change, but before an interface goes away. Nothing is notified
about interfaces that are not in the table. -/
def step (e : Event) : LocalAddressTable :=
  let interfaces := t.interfacesAfter e
  match e with
  | .addInterface _ _ =>
    updateNetmaskRoutes { t with interfaces, idToInterfaceSize := t.idToInterfaceSize + 1 }
  | .deleteInterface id =>
    if ∃ ie ∈ t.interfaces, ie.id = id then { t.deleteInterfaceRoutes id with interfaces } else t
  | .setIPAddress id _ | .setNetmask id _ =>
    if ∃ ie ∈ t.interfaces, ie.id = id then updateNetmaskRoutes { t with interfaces } else t
  | .interfaceChanged => t.invalidateCache
  | .isLocalAddress dest => (t.isLocalAddress dest).2
  | .isLocalBroadcastAddress dest => (t.isLocalBroadcastAddress dest).2

/-- Both queries answer as the interfaces are configured now. -/
def AnswersFresh : Prop :=
  ∀ dest, (t.isLocalAddress dest).1 = decide (dest ∈ interfaceAddresses t.interfaces) ∧
    (t.isLocalBroadcastAddress dest).1 = decide (dest ∈ broadcastAddresses t.interfaces)

end

/-- The event does not go wrong: it leaves the broadcast addresses of the interfaces as they were, or
none have been asked for yet; and an interface that goes away takes a route with it, or leaves the
addresses of the interfaces as they were, or these have not been asked for yet. -/
structure Noticed (t : LocalAddressTable) (e : Event) : Prop where
  broadcast : t.localBroadcastAddresses = ∅ ∨
    broadcastAddresses (t.interfacesAfter e) = broadcastAddresses t.interfaces
  deletion : ∀ id, e = .deleteInterface id → t.localAddresses = ∅ ∨
    (∃ r ∈ t.routes, r.interface = some id) ∨
      interfaceAddresses (t.interfacesAfter e) = interfaceAddresses t.interfaces

/-! ## Sets that are up to date -/

/-- The set is not filled, or it is what it would be filled with. -/
def UpToDate (addresses fresh : Finset IPAddress) : Prop := addresses = ∅ ∨ addresses = fresh

theorem filled_eq_iff {addresses fresh : Finset IPAddress} :
    filled addresses fresh = fresh ↔ UpToDate addresses fresh := by
  unfold filled UpToDate
  split_ifs with h
  · exact iff_of_true rfl (Or.inl h)
  · exact ⟨Or.inr, fun hor ↦ hor.resolve_left h⟩

theorem answersFresh_iff (t : LocalAddressTable) :
    t.AnswersFresh ↔ UpToDate t.localAddresses (interfaceAddresses t.interfaces) ∧
      UpToDate t.localBroadcastAddresses (broadcastAddresses t.interfaces) := by
  rw [← filled_eq_iff, ← filled_eq_iff, Finset.ext_iff, Finset.ext_iff, ← forall_and]
  apply forall_congr'
  intro dest
  rw [isLocalAddress, isLocalBroadcastAddress, decide_eq_decide, decide_eq_decide]

/-- A set that does not change is up to date exactly if it was empty or what it is filled with stays
the same. -/
theorem upToDate_iff {addresses fresh fresh' : Finset IPAddress} (h : UpToDate addresses fresh) :
    UpToDate addresses fresh' ↔ addresses = ∅ ∨ fresh' = fresh := by
  unfold UpToDate at *
  constructor
  · intro h'
    rcases h with h | h
    · exact Or.inl h
    · exact h'.imp_right fun h' ↦ h'.symm.trans h
  · intro h'
    rcases h' with h' | h'
    · exact Or.inl h'
    · exact h.imp_right fun h ↦ h.trans h'.symm

theorem upToDate_filled (addresses fresh : Finset IPAddress) (h : UpToDate addresses fresh) :
    UpToDate (filled addresses fresh) fresh := Or.inr (filled_eq_iff.mpr h)

section Step

variable {t : LocalAddressTable}

theorem map_interface_of_not_mem {id : ℕ} (f : LocalInterface → LocalInterface)
    (h : ¬ ∃ ie ∈ t.interfaces, ie.id = id) :
    (t.interfaces.map fun ie ↦ if ie.id = id then f ie else ie) = t.interfaces := by
  calc (t.interfaces.map fun ie ↦ if ie.id = id then f ie else ie) = t.interfaces.map fun ie ↦ ie :=
        List.map_congr_left fun ie hie ↦ if_neg fun hid ↦ h ⟨ie, hie, hid⟩
    _ = t.interfaces := List.map_id _

theorem filter_interface_of_not_mem {id : ℕ} (h : ¬ ∃ ie ∈ t.interfaces, ie.id = id) :
    t.interfaces.filter (·.id ≠ id) = t.interfaces := by
  rw [List.filter_eq_self]
  intro ie hie
  exact decide_eq_true fun hid ↦ h ⟨ie, hie, hid⟩

theorem deleteInterfaceRoutes_localAddresses (t : LocalAddressTable) (id : ℕ) :
    (t.deleteInterfaceRoutes id).localAddresses =
      if ∃ r ∈ t.routes, r.interface = some id then ∅ else t.localAddresses := by
  unfold deleteInterfaceRoutes
  split_ifs <;> rfl

theorem deleteInterfaceRoutes_localBroadcastAddresses (t : LocalAddressTable) (id : ℕ) :
    (t.deleteInterfaceRoutes id).localBroadcastAddresses = t.localBroadcastAddresses := by
  unfold deleteInterfaceRoutes
  split_ifs <;> rfl

theorem step_interfaces (t : LocalAddressTable) (e : Event) :
    (t.step e).interfaces = t.interfacesAfter e := by
  cases e with
  | addInterface inetAddr netmask => rfl
  | deleteInterface id =>
    rw [step]
    split_ifs with h
    · rfl
    · exact (filter_interface_of_not_mem h).symm
  | setIPAddress id inetAddr =>
    rw [step]
    split_ifs with h
    · rfl
    · exact (map_interface_of_not_mem _ h).symm
  | setNetmask id netmask =>
    rw [step]
    split_ifs with h
    · rfl
    · exact (map_interface_of_not_mem _ h).symm
  | interfaceChanged => rfl
  | isLocalAddress dest => rfl
  | isLocalBroadcastAddress dest => rfl

/-- Nothing but a query touches the set of broadcast addresses. -/
theorem step_localBroadcastAddresses (t : LocalAddressTable) (e : Event)
    (he : ∀ dest, e ≠ .isLocalBroadcastAddress dest) :
    (t.step e).localBroadcastAddresses = t.localBroadcastAddresses := by
  cases e with
  | addInterface inetAddr netmask => rfl
  | deleteInterface id =>
    rw [step]
    split_ifs
    · exact deleteInterfaceRoutes_localBroadcastAddresses t id
    · rfl
  | setIPAddress id inetAddr =>
    rw [step]
    split_ifs <;> rfl
  | setNetmask id netmask =>
    rw [step]
    split_ifs <;> rfl
  | interfaceChanged => rfl
  | isLocalAddress dest => rfl
  | isLocalBroadcastAddress dest => exact absurd rfl (he dest)

theorem broadcast_upToDate_iff
    (h : UpToDate t.localBroadcastAddresses (broadcastAddresses t.interfaces)) (e : Event) :
    UpToDate (t.step e).localBroadcastAddresses (broadcastAddresses (t.step e).interfaces) ↔
      t.localBroadcastAddresses = ∅ ∨
        broadcastAddresses (t.interfacesAfter e) = broadcastAddresses t.interfaces := by
  rw [step_interfaces]
  by_cases he : ∀ dest, e ≠ .isLocalBroadcastAddress dest
  · rw [step_localBroadcastAddresses t e he]
    exact upToDate_iff h
  · obtain ⟨dest, he⟩ := not_forall.mp he
    rw [not_not.mp he]
    exact iff_of_true (upToDate_filled _ _ h) (Or.inr rfl)

theorem upToDate_empty (fresh : Finset IPAddress) : UpToDate ∅ fresh := Or.inl rfl

theorem local_upToDate_iff (h : UpToDate t.localAddresses (interfaceAddresses t.interfaces))
    (e : Event) :
    UpToDate (t.step e).localAddresses (interfaceAddresses (t.step e).interfaces) ↔
      ∀ id, e = .deleteInterface id → t.localAddresses = ∅ ∨
        (∃ r ∈ t.routes, r.interface = some id) ∨
          interfaceAddresses (t.interfacesAfter e) = interfaceAddresses t.interfaces := by
  cases e with
  | addInterface inetAddr netmask => exact iff_of_true (upToDate_empty _) nofun
  | deleteInterface id =>
    have hcond : (∀ id', Event.deleteInterface id = .deleteInterface id' → t.localAddresses = ∅ ∨
        (∃ r ∈ t.routes, r.interface = some id') ∨
          interfaceAddresses (t.interfacesAfter (.deleteInterface id)) =
            interfaceAddresses t.interfaces) ↔
        (∃ r ∈ t.routes, r.interface = some id) ∨ (t.localAddresses = ∅ ∨
          interfaceAddresses (t.interfacesAfter (.deleteInterface id)) =
            interfaceAddresses t.interfaces) := by
      constructor
      · intro hall
        exact or_left_comm.mp (hall id rfl)
      · intro hor id' hid
        cases hid
        exact or_left_comm.mp hor
    rw [hcond, step_interfaces, ← upToDate_iff h, step]
    split_ifs with hmem
    · rw [deleteInterfaceRoutes_localAddresses]
      split_ifs with hroute
      · exact iff_of_true (upToDate_empty _) (Or.inl hroute)
      · exact (or_iff_right hroute).symm
    · have hsame : t.interfacesAfter (.deleteInterface id) = t.interfaces :=
        filter_interface_of_not_mem hmem
      rw [hsame]
      exact iff_of_true h (Or.inr h)
  | setIPAddress id inetAddr =>
    apply iff_of_true _ nofun
    rw [step]
    split_ifs
    · exact upToDate_empty _
    · exact h
  | setNetmask id netmask =>
    apply iff_of_true _ nofun
    rw [step]
    split_ifs
    · exact upToDate_empty _
    · exact h
  | interfaceChanged => exact iff_of_true (upToDate_empty _) nofun
  | isLocalAddress dest => exact iff_of_true (upToDate_filled _ _ h) nofun
  | isLocalBroadcastAddress dest => exact iff_of_true h nofun

/-- Fresh answers stay fresh exactly if the event does not go wrong. -/
theorem answersFresh_step_iff (h : t.AnswersFresh) (e : Event) :
    (t.step e).AnswersFresh ↔ t.Noticed e := by
  obtain ⟨hlocal, hbroadcast⟩ := (answersFresh_iff t).mp h
  rw [answersFresh_iff, local_upToDate_iff hlocal e, broadcast_upToDate_iff hbroadcast e]
  constructor
  · intro ⟨hdeletion, hbroadcast⟩
    exact ⟨hbroadcast, hdeletion⟩
  · intro ⟨hbroadcast, hdeletion⟩
    exact ⟨hdeletion, hbroadcast⟩

end Step

/-! ## Runs -/

/-- Every state of a run answers freshly. -/
def AlwaysFresh (t : LocalAddressTable) : List Event → Prop
  | [] => t.AnswersFresh
  | e :: events => t.AnswersFresh ∧ (t.step e).AlwaysFresh events

/-- No event of a run goes wrong. -/
def AlwaysNoticed (t : LocalAddressTable) : List Event → Prop
  | [] => True
  | e :: events => t.Noticed e ∧ (t.step e).AlwaysNoticed events

theorem alwaysFresh_iff_of_answersFresh {t : LocalAddressTable} (h : t.AnswersFresh)
    (events : List Event) : t.AlwaysFresh events ↔ t.AlwaysNoticed events := by
  induction events generalizing t with
  | nil => exact iff_of_true h trivial
  | cons e events ih =>
    have hstep := answersFresh_step_iff h e
    constructor
    · intro ⟨_, hrest⟩
      have hfresh : (t.step e).AnswersFresh := by
        cases events with
        | nil => exact hrest
        | cons e' events => exact hrest.1
      exact ⟨hstep.mp hfresh, (ih hfresh).mp hrest⟩
    · intro ⟨hnoticed, hrest⟩
      have hfresh := hstep.mpr hnoticed
      exact ⟨h, (ih hfresh).mpr hrest⟩

/-- From any configuration with nothing cached, the answers are those of the current configuration
all along a run exactly if no event of it goes wrong. -/
theorem alwaysFresh_iff_alwaysNoticed (interfaces : List LocalInterface) (size : ℕ)
    (routes : List LocalRoute) (events : List Event) :
    AlwaysFresh { interfaces, idToInterfaceSize := size, routes } events ↔
      AlwaysNoticed { interfaces, idToInterfaceSize := size, routes } events := by
  apply alwaysFresh_iff_of_answersFresh
  rw [answersFresh_iff]
  exact ⟨upToDate_empty _, upToDate_empty _⟩

/-- The old broadcast address is still taken for a local one after the netmask has changed. -/
theorem not_alwaysFresh :
    ¬ ∀ interfaces size routes events,
      AlwaysFresh { interfaces, idToInterfaceSize := size, routes } events := by
  intro h
  have hrun := h [⟨0, 0x0A000005, 0xFFFFFF00⟩] 1 []
    [.isLocalBroadcastAddress 0x0A0000FF, .setNetmask 0 0xFFFF0000]
  have hstale := (hrun.2.2 0x0A0000FF).2
  revert hstale
  decide

end LocalAddressTable

end InetManet
