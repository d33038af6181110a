import InetManet.Library.Loops
import InetManet.Network.Address
import Mathlib.Algebra.Order.Field.Rat
import Mathlib.Control.Monad.Basic
import Mathlib.Logic.Function.Basic

/-!
# The IPv6 routing table

Routes are kept sorted by prefix length and metric, so that the first route that matches a destination
is the one with the longest prefix. In front of the search there is the destination cache, which
`routePacket` fills. A route carries the number of its object.
-/

namespace InetManet

namespace IPv6Address

def isUnspecified (a : IPv6Address) : Bool := a == 0

def constructMask (prefixLength : ℕ) : BitVec 128 := BitVec.allOnes 128 <<< (128 - prefixLength)

def matchesPrefix (a pfx : IPv6Address) (prefixLength : ℕ) : Bool :=
  (a ^^^ pfx) &&& constructMask prefixLength == 0

end IPv6Address

inductive RouteSrc
  | fromRA
  | ownAdvPrefix
  | static
  | routingProt
  deriving DecidableEq

structure IPv6Route where
  id : ℕ
  destPrefix : IPv6Address
  length : ℕ
  src : RouteSrc
  interfaceId : ℤ := -1
  nextHop : IPv6Address := 0
  expiryTime : ℚ := 0
  metric : ℤ := 0
  deriving DecidableEq

namespace IPv6Route

/-- The setter assigns the field to itself. -/
def setMetric (r : IPv6Route) (_metric : ℤ) : IPv6Route := { r with metric := r.metric }

def matchesDest (r : IPv6Route) (dest : IPv6Address) : Bool :=
  dest.matchesPrefix r.destPrefix r.length

/-- The lifetime is over; 0 represents infinity. -/
def expired (r : IPv6Route) (simTime : ℚ) : Bool := r.expiryTime < simTime && r.expiryTime != 0

/-- The route was made for this prefix and by this source. -/
def isPrefix (r : IPv6Route) (src : RouteSrc) (destPrefix : IPv6Address) (prefixLength : ℕ) : Bool :=
  r.src == src && r.destPrefix == destPrefix && r.length == prefixLength

end IPv6Route

structure DestCacheEntry where
  nextHopAddr : IPv6Address
  interfaceId : ℤ
  deriving DecidableEq

namespace RoutingTable6

inductive Fault
  | iteratorPastEnd
  | assertionFailed
  deriving DecidableEq

/-- The sort of the standard library, and which interfaces there are. -/
structure Config where
  sort : List IPv6Route → List IPv6Route
  hasInterface : ℤ → Bool

end RoutingTable6

structure RoutingTable6 where
  simTime : ℚ
  fresh : ℕ
  routeList : List IPv6Route
  destCache : IPv6Address → Option DestCacheEntry

namespace RoutingTable6

variable (cfg : Config)

/-! ## Routes -/

def routeLessThan (a b : IPv6Route) : Bool :=
  if a.length ≠ b.length then b.length < a.length else a.metric < b.metric

/-- A new route object is added, and the list is sorted again. -/
def addRoute (s : RoutingTable6) (route : IPv6Route) : RoutingTable6 :=
  { s with
    fresh := s.fresh + 1
    routeList := cfg.sort (s.routeList ++ [{ route with id := s.fresh }]) }

/-- The first route of the list for which `p` holds is changed. -/
def modifyFirst (p : IPv6Route → Bool) (f : IPv6Route → IPv6Route) : List IPv6Route → List IPv6Route
  | [] => []
  | r :: rs => if p r then f r :: rs else r :: modifyFirst p f rs

/-- Common to `addOrUpdateOnLinkPrefix` and `addOrUpdateOwnAdvPrefix`, which differ in the source. -/
def addOrUpdatePrefix (src : RouteSrc) (s : RoutingTable6) (destPrefix : IPv6Address)
    (prefixLength : ℕ) (interfaceId : ℤ) (expiryTime : ℚ) : RoutingTable6 :=
  if s.routeList.any (·.isPrefix src destPrefix prefixLength) then
    { s with
      routeList := modifyFirst (·.isPrefix src destPrefix prefixLength)
        (fun route ↦ { route with interfaceId, expiryTime }) s.routeList }
  else
    let route : IPv6Route :=
      { id := s.fresh, destPrefix, length := prefixLength, src, interfaceId, expiryTime }
    s.addRoute cfg (route.setMetric 0)

def addOrUpdateOnLinkPrefix := addOrUpdatePrefix cfg .fromRA

def addOrUpdateOwnAdvPrefix := addOrUpdatePrefix cfg .ownAdvPrefix

/-- The first on-link route for the prefix goes. -/
def eraseOnLinkPrefix (routeList : List IPv6Route) (destPrefix : IPv6Address) (prefixLength : ℕ) :
    List IPv6Route :=
  routeList.eraseP (·.isPrefix .fromRA destPrefix prefixLength)

variable (s : RoutingTable6)

def removeOnLinkPrefix (destPrefix : IPv6Address) (prefixLength : ℕ) :
    RoutingTable6 :=
  { s with routeList := eraseOnLinkPrefix s.routeList destPrefix prefixLength }

def addStaticRoute (destPrefix : IPv6Address) (prefixLength : ℕ)
    (interfaceId : ℤ) (nextHop : IPv6Address) (metric : ℤ) : RoutingTable6 :=
  let route : IPv6Route :=
    { id := s.fresh, destPrefix, length := prefixLength, src := .static, interfaceId, nextHop }
  s.addRoute cfg (route.setMetric (if metric = 0 then 10 else metric))

/-- The lifetime of the router is not used. -/
def addDefaultRoute (nextHop : IPv6Address) (ifID : ℤ) (_routerLifetime : ℚ) :
    RoutingTable6 :=
  let route : IPv6Route :=
    { id := s.fresh, destPrefix := 0, length := 0, src := .fromRA, interfaceId := ifID, nextHop }
  s.addRoute cfg (route.setMetric 10)

def addRoutingProtocolRoute (route : IPv6Route) : Except Fault RoutingTable6 :=
  if route.src = .routingProt then .ok (s.addRoute cfg route) else .error .assertionFailed

def removeRoute (id : ℕ) : Except Fault RoutingTable6 :=
  if s.routeList.any (·.id == id) then
    .ok { s with routeList := s.routeList.eraseP (·.id == id) }
  else .error .assertionFailed

/-! ## Lookups -/

/-- The loop of `doLongestPrefixMatch`, at the position `i` of the list. An expired prefix is removed
from the list on the way, and what has moved up to its position is passed over. -/
def scan (simTime : ℚ) (dest : IPv6Address) :
    ℕ → ℕ → List IPv6Route → Except Fault (Option IPv6Route × List IPv6Route)
  | 0, _, routeList => .ok (none, routeList)
  | fuel + 1, i, routeList =>
    if i = routeList.length then .ok (none, routeList)
    else match routeList[i]? with
      | none => .error .iteratorPastEnd
      | some route =>
        if route.matchesDest dest then
          if route.expired simTime then
            scan simTime dest fuel (i + 1)
              (eraseOnLinkPrefix routeList route.destPrefix route.length)
          else .ok (some route, routeList)
        else scan simTime dest fuel (i + 1) routeList

/-- Every round of the loop takes the iterator one step further. -/
def doLongestPrefixMatch (dest : IPv6Address) :
    Except Fault (Option IPv6Route × RoutingTable6) := do
  let (route, routeList) ← scan s.simTime dest (s.routeList.length + 1) 0 s.routeList
  return (route, { s with routeList })

def updateDestCache (dest : IPv6Address) (entry : DestCacheEntry) :
    RoutingTable6 :=
  { s with destCache := Function.update s.destCache dest (some entry) }

def purgeDestCache : RoutingTable6 := { s with destCache := fun _ ↦ none }

def purgeDestCacheEntriesToNeighbour (nextHopAddr : IPv6Address) (interfaceId : ℤ) : RoutingTable6 :=
  { s with destCache := fun dest ↦ (s.destCache dest).filter fun entry ↦
      !(entry.interfaceId == interfaceId && entry.nextHopAddr == nextHopAddr) }

/-- Where datagrams to `dest` go by this route; without a next hop they go to the host itself. -/
def hop (dest : IPv6Address) (route : IPv6Route) : DestCacheEntry :=
  ⟨if route.nextHop.isUnspecified then dest else route.nextHop, route.interfaceId⟩

/-- The entry of the cache if there is one that has an interface. -/
def lookupDestCache (dest : IPv6Address) : Option DestCacheEntry :=
  (s.destCache dest).filter fun entry ↦ entry.interfaceId != -1

/-- The assertions of `routePacket` about the interface and the next hop. -/
def checkHop (entry : DestCacheEntry) : Except Fault Unit :=
  if cfg.hasInterface entry.interfaceId && !entry.nextHopAddr.isUnspecified then .ok ()
  else .error .assertionFailed

/-- Next hop and interface that `IPv6::routePacket` uses for a datagram that is not delivered locally;
none if the destination is unroutable or left to neighbour discovery. -/
def routePacket (dest : IPv6Address) :
    Except Fault (Option DestCacheEntry × RoutingTable6) :=
  match s.lookupDestCache dest with
  | some entry => do
    checkHop cfg entry
    return (some entry, s)
  | none => do
    let (route, s) ← s.doLongestPrefixMatch dest
    match route with
    | none => return (none, s)
    | some route =>
      checkHop cfg (hop dest route)
      return (some (hop dest route), s.updateDestCache dest (hop dest route))

/-! ## Runs -/

inductive Operation
  | addOrUpdateOnLinkPrefix (destPrefix : IPv6Address) (prefixLength : ℕ) (interfaceId : ℤ)
      (expiryTime : ℚ)
  | addOrUpdateOwnAdvPrefix (destPrefix : IPv6Address) (prefixLength : ℕ) (interfaceId : ℤ)
      (expiryTime : ℚ)
  | removeOnLinkPrefix (destPrefix : IPv6Address) (prefixLength : ℕ)
  | addStaticRoute (destPrefix : IPv6Address) (prefixLength : ℕ) (interfaceId : ℤ)
      (nextHop : IPv6Address) (metric : ℤ)
  | addDefaultRoute (nextHop : IPv6Address) (ifID : ℤ) (routerLifetime : ℚ)
  | addRoutingProtocolRoute (route : IPv6Route)
  | removeRoute (id : ℕ)
  | purgeDestCache
  | purgeDestCacheEntriesToNeighbour (nextHopAddr : IPv6Address) (interfaceId : ℤ)
  | routePacket (dest : IPv6Address)
  | advance (simTime : ℚ)

def step : Operation → Except Fault RoutingTable6
  | .addOrUpdateOnLinkPrefix p l i t => .ok (s.addOrUpdateOnLinkPrefix cfg p l i t)
  | .addOrUpdateOwnAdvPrefix p l i t => .ok (s.addOrUpdateOwnAdvPrefix cfg p l i t)
  | .removeOnLinkPrefix p l => .ok (s.removeOnLinkPrefix p l)
  | .addStaticRoute p l i n m => .ok (s.addStaticRoute cfg p l i n m)
  | .addDefaultRoute n i t => .ok (s.addDefaultRoute cfg n i t)
  | .addRoutingProtocolRoute route => s.addRoutingProtocolRoute cfg route
  | .removeRoute id => s.removeRoute id
  | .purgeDestCache => .ok s.purgeDestCache
  | .purgeDestCacheEntriesToNeighbour n i => .ok (s.purgeDestCacheEntriesToNeighbour n i)
  | .routePacket dest => Prod.snd <$> s.routePacket cfg dest
  | .advance simTime => .ok { s with simTime }

end RoutingTable6

end InetManet
