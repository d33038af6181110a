import InetManet.Library.TransitionSystem
import InetManet.Network.Address

/-!
# The IPv4 routing table

Routes are objects that the table and the routing cache point to. An operation that changes a route in
place or takes it out of the table has to clear the cache. Routes do not expire.
-/

namespace InetManet

open TransitionSystem

def IPAddress.maskedAddrAreEqual (addr1 addr2 netmask : IPAddress) : Bool :=
  (addr1 ^^^ addr2) &&& netmask == 0

inductive RouteSource
  | manual
  | ifaceNetmask
  | rip
  | ospf
  | bgp
  | zebra
  | manet
  deriving DecidableEq

structure IPRoute where
  host : IPAddress
  netmask : IPAddress
  gateway : IPAddress
  interface : Option ℕ
  source : RouteSource
  metric : ℤ

inductive RoutingFault
  /-- `error()`. -/
  | invalidRoute
  | freedRoute
  | nullRoute
  deriving DecidableEq

/-- What an interface tells about its network. -/
structure IPv4InterfaceData where
  interface : ℕ
  inetAddr : IPAddress
  netmask : IPAddress
  metric : ℤ

structure RoutingTable where
  /-- The routes that have not been freed. -/
  heap : ℕ → Option IPRoute
  /-- The next new route. -/
  fresh : ℕ
  routes : List ℕ
  multicastRoutes : List ℕ
  /-- A destination may have been looked up in vain. -/
  routingCache : IPAddress → Option (Option ℕ)

namespace RoutingTable

def read (s : RoutingTable) (p : ℕ) : Except RoutingFault IPRoute :=
  match s.heap p with
  | none => .error .freedRoute
  | some r => .ok r

def invalidateCache (s : RoutingTable) : RoutingTable := { s with routingCache := fun _ ↦ none }

/-! ## Lookups -/

/-- The route matches and has a longer netmask, or the same one and a lower metric. -/
def isBetter (dest : IPAddress) (best : Option (ℕ × IPRoute)) (e : IPRoute) : Bool :=
  IPAddress.maskedAddrAreEqual dest e.host e.netmask &&
    match best with
    | none => true
    | some (_, b) => decide (b.netmask.toNat < e.netmask.toNat) ||
        e.netmask == b.netmask && decide (e.metric < b.metric)

def isBetterUni (dest : IPAddress) (best : Option (ℕ × IPRoute)) (e : IPRoute) : Bool :=
  IPAddress.maskedAddrAreEqual dest e.host (BitVec.allOnes 32) &&
    match best with
    | none => true
    | some (_, b) => decide (e.metric < b.metric)

/-- A loop over the routes that keeps the best one. -/
def findBest (isBetter : Option (ℕ × IPRoute) → IPRoute → Bool) (s : RoutingTable) :
    Except RoutingFault (Option (ℕ × IPRoute)) :=
  s.routes.foldlM (fun best p ↦ do
    let e ← s.read p
    return if isBetter best e then some (p, e) else best) none

section

variable (s : RoutingTable)

/-- The search for the best match. A MANET route to another host does not count; then another MANET
route is to be taken, but `bestRoute` is NULL at that point. -/
def search (dest : IPAddress) : Except RoutingFault (Option ℕ) := do
  let bestRoute ← s.findBest (isBetter dest)
  match bestRoute with
  | none => return none
  | some (p, e) =>
      if e.source = .manet ∧ e.host ≠ dest then
        let bestUniRoute ← s.findBest (isBetterUni dest)
        match bestUniRoute with
        | none => return none
        | some (_, u) => if u.source = .manet then .error .nullRoute else return none
      else return some p

/-- The result of the search goes into the cache. -/
def searchAndCache (dest : IPAddress) :
    Except RoutingFault (Option ℕ × RoutingTable) := do
  let bestRoute ← s.search dest
  return (bestRoute, { s with routingCache := Function.update s.routingCache dest (some bestRoute) })

def findBestMatchingRoute (dest : IPAddress) :
    Except RoutingFault (Option ℕ × RoutingTable) :=
  match s.routingCache dest with
  | none => s.searchAndCache dest
  | some none => s.invalidateCache.searchAndCache dest
  | some (some p) => do
      let e ← s.read p
      if e.source = .manet ∧ IPAddress.maskedAddrAreEqual dest e.host (BitVec.allOnes 32) = false then
        s.searchAndCache dest
      else return (some p, s)

/-! ## Changes -/

def modifyMetric (p : ℕ) (metric : ℤ) : RoutingTable :=
  { s with heap := Function.update s.heap p ((s.heap p).map fun e ↦ { e with metric }) }

/-- Multicast routes are counted after the others. -/
def setMetric (routeIndex : ℕ) (metric : ℤ) : ℕ × RoutingTable :=
  match s.routes[routeIndex]? with
  | some p => (1, s.modifyMetric p metric)
  | none =>
      match s.multicastRoutes[routeIndex - s.routes.length]? with
      | some p => (1, s.modifyMetric p metric)
      | none => (0, s)

def deleteRoute (p : ℕ) : Bool × RoutingTable :=
  let heap := Function.update s.heap p none
  if p ∈ s.routes then
    (true, invalidateCache { s with routes := s.routes.erase p, heap })
  else if p ∈ s.multicastRoutes then
    (true, invalidateCache { s with multicastRoutes := s.multicastRoutes.erase p, heap })
  else (false, s)

def getDefaultRoute : Option ℕ :=
  s.routes.find? fun p ↦ (s.heap p).any fun e ↦ e.netmask == 0

/-- A new default route replaces the old one. -/
def replaceDefaultRoute (entry : IPRoute) : RoutingTable :=
  match s.getDefaultRoute with
  | none => s
  | some p => if entry.netmask = 0 then (s.deleteRoute p).2 else s

/-- A new object at the end of the unicast or the multicast routes. -/
def pushBack (entry : IPRoute) : RoutingTable :=
  let heap := Function.update s.heap s.fresh (some entry)
  if entry.host.isMulticast then
    { s with heap, fresh := s.fresh + 1, multicastRoutes := s.multicastRoutes ++ [s.fresh] }
  else { s with heap, fresh := s.fresh + 1, routes := s.routes ++ [s.fresh] }

def addRoute (entry : IPRoute) : Except RoutingFault RoutingTable :=
  -- the netmask of the second check is 0 or 1
  if (entry.host = 0) ≠ (entry.netmask = 0) ∨
      entry.host &&& (if entry.netmask = 0 then 1 else 0) ≠ 0 ∨ entry.interface = none then
    .error .invalidRoute
  else .ok ((s.replaceDefaultRoute entry).pushBack entry).invalidateCache

end

/-- Routes of the interface are deleted one by one from the front. -/
def deleteInterfaceRoutes (entry : ℕ) : ℕ → RoutingTable → RoutingTable
  | 0, s => s
  | fuel + 1, s =>
      match s.routes.find? fun p ↦ (s.heap p).any fun e ↦ e.interface == some entry with
      | none => s
      | some p => deleteInterfaceRoutes entry fuel (s.deleteRoute p).2

/-- The route to the network of an interface; it is always a unicast one. -/
def addNetmaskRoute (s : RoutingTable) (ie : IPv4InterfaceData) : RoutingTable :=
  if ie.netmask = BitVec.allOnes 32 then s
  else { s with
    heap := Function.update s.heap s.fresh
      (some ⟨ie.inetAddr, ie.netmask, 0, some ie.interface, .ifaceNetmask, ie.metric⟩)
    fresh := s.fresh + 1
    routes := s.routes ++ [s.fresh] }

/-- The old routes are not freed. -/
def updateNetmaskRoutes (s : RoutingTable) (ift : List IPv4InterfaceData) : RoutingTable :=
  let routes := s.routes.filter fun p ↦ !(s.heap p).any fun e ↦ e.source == .ifaceNetmask
  (ift.foldl addNetmaskRoute { s with routes }).invalidateCache

def flushTable (s : RoutingTable) : RoutingTable := { s with routes := [], multicastRoutes := [] }

def isScrambled (s : RoutingTable) (destIP : IPAddress) (p : ℕ) : Bool :=
  (s.heap p).any fun e ↦ e.host == destIP || destIP == 0

def scrambleRoute (destIP : IPAddress) (intuniform : ℕ → ℤ) (s : RoutingTable) (p : ℕ) :
    RoutingTable :=
  if s.isScrambled destIP p then s.modifyMetric p (intuniform p) else s

/-- Each route to the destination gets a random metric. -/
def scrambleRoutes (s : RoutingTable) (destIP : IPAddress) (intuniform : ℕ → ℤ) :
    Bool × RoutingTable :=
  (s.routes.any (s.isScrambled destIP), s.routes.foldl (scrambleRoute destIP intuniform) s)

/-! ## Runs -/

inductive Operation
  | addRoute (entry : IPRoute)
  | deleteRoute (p : ℕ)
  | setMetric (routeIndex : ℕ) (metric : ℤ)
  | scrambleRoutes (destIP : IPAddress) (intuniform : ℕ → ℤ)
  | flushTable
  | updateNetmaskRoutes (ift : List IPv4InterfaceData)
  | deleteInterfaceRoutes (entry : ℕ)
  | findBestMatchingRoute (dest : IPAddress)

def step (s : RoutingTable) : Operation → Except RoutingFault RoutingTable
  | .addRoute entry => s.addRoute entry
  | .deleteRoute p => .ok (s.deleteRoute p).2
  | .setMetric routeIndex metric => .ok (s.setMetric routeIndex metric).2
  | .scrambleRoutes destIP intuniform => .ok (s.scrambleRoutes destIP intuniform).2
  | .flushTable => .ok s.flushTable
  | .updateNetmaskRoutes ift => .ok (s.updateNetmaskRoutes ift)
  | .deleteInterfaceRoutes entry => .ok (s.deleteInterfaceRoutes entry s.routes.length)
  | .findBestMatchingRoute dest => Prod.snd <$> s.findBestMatchingRoute dest

end RoutingTable

end InetManet
