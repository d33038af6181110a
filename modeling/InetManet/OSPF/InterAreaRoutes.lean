import InetManet.OSPF.SummaryOrigination

/-!
# Routes to other areas

The summary LSAs of an area are considered one by one. A destination that is not in the routing table
gets an entry, a cheaper route replaces the entries of the destination, and a route of the same cost adds
its next hops. Entries are pointers in the source, so that an entry is in the list of those of the same or
worse cost exactly if it satisfies the condition there.
-/

namespace InetManet.OSPF.Routing

namespace Router

def hasAddressRange (router : Router) (addressRange : IPv4AddressRange) : Bool :=
  router.areas.any fun area ↦ area.areaAddressRanges.any fun range ↦
    range.address == addressRange.address && range.mask == addressRange.mask

end Router

namespace SummaryLSA

def destination (lsa : SummaryLSA) : IPv4AddressRange := ⟨lsa.linkStateID.setWidth 32, lsa.networkMask⟩

/-- The entry is for the destination. The masks are not compared. -/
def isFor (lsa : SummaryLSA) (entry : RoutingTableEntry) : Bool :=
  if lsa.lsType = .summaryNetworks then
    entry.isNetwork && uLongFromIPv4Address (lsa.destination.address &&& lsa.destination.mask) ==
      entry.destinationID.setWidth 64
  else
    (entry.destinationType.areaBorderRouter || entry.destinationType.asBoundaryRouter) &&
      uLongFromIPv4Address lsa.destination.address == entry.destinationID.setWidth 64

/-- Another inter-area route to the destination, of the same or worse cost. -/
def isSameOrWorse (lsa : SummaryLSA) (currentCost : ℕ) (entry : RoutingTableEntry) : Bool :=
  lsa.isFor entry && entry.pathType == .interArea && currentCost ≤ entry.cost

/-- An intra-area route, or a cheaper inter-area route. -/
def isPreferred (lsa : SummaryLSA) (currentCost : ℕ) (entry : RoutingTableEntry) : Bool :=
  lsa.isFor entry && (entry.pathType == .intraArea ||
    entry.pathType == .interArea && entry.cost < currentCost)

end SummaryLSA

/-- The routes of the same or worse cost, unless there is a better one. -/
def findSameOrWorseCostRoute (newRoutingTable : List RoutingTableEntry) (lsa : SummaryLSA)
    (currentCost : ℕ) : Option (List RoutingTableEntry) :=
  if newRoutingTable.any (lsa.isPreferred currentCost) then none
  else some (newRoutingTable.filter (lsa.isSameOrWorse currentCost))

def createRoutingTableEntryFromSummaryLSA (areaID : AreaID) (lsa : SummaryLSA) (entryCost : ℕ)
    (borderRouterEntry : RoutingTableEntry) : RoutingTableEntry where
  destinationType :=
    if lsa.lsType = .summaryNetworks then networkDestination else ⟨false, true⟩
  destinationID :=
    if lsa.lsType = .summaryNetworks then lsa.destination.address &&& lsa.destination.mask
    else lsa.destination.address
  addressMask := if lsa.lsType = .summaryNetworks then lsa.destination.mask else 0xFFFFFFFF
  optionalCapabilities := lsa.lsOptions
  area := areaID
  pathType := .interArea
  cost := entryCost
  type2Cost := 0
  linkStateOrigin := some ⟨lsa.lsAge, lsa.advertisingRouter, none⟩
  nextHops := borderRouterEntry.nextHops

/-- Adds next hops to the last entry that satisfies the condition. -/
def addNextHops (p : RoutingTableEntry → Bool) (nextHops : List NextHop) :
    List RoutingTableEntry → List RoutingTableEntry
  | [] => []
  | entry :: entries =>
    if entries.any p then entry :: addNextHops p nextHops entries
    else if p entry then { entry with nextHops := entry.nextHops ++ nextHops } :: entries
    else entry :: entries

def isBorderRouter (areaID : AreaID) (originatingRouter : IPAddress) (entry : RoutingTableEntry) : Bool :=
  entry.area == areaID && (entry.destinationType.areaBorderRouter || entry.destinationType.asBoundaryRouter) &&
    entry.destinationID == originatingRouter

section

variable (router : Router) (areaID : AreaID)

/-- Steps (1) and (2). -/
def isDisregarded (lsa : SummaryLSA) : Bool :=
  lsa.routeCost == lsInfinity || lsa.lsAge == maxAge || lsa.advertisingRouter == router.routerID

section

variable (newRoutingTable : List RoutingTableEntry)

/-- Step (3): the destination is a configured range that is active. -/
def isActiveRange (lsa : SummaryLSA) : Bool :=
  lsa.lsType == .summaryNetworks && router.hasAddressRange lsa.destination &&
    newRoutingTable.any (Router.isInRange lsa.destination)

/-- Step (5), with the cost as an unsigned short. -/
def addInterAreaRoute (lsa : SummaryLSA)
    (borderRouterEntry : RoutingTableEntry) : List RoutingTableEntry :=
  let currentCost := (lsa.routeCost + borderRouterEntry.cost) % 65536
  let newEntry := createRoutingTableEntryFromSummaryLSA areaID lsa currentCost borderRouterEntry
  match findSameOrWorseCostRoute newRoutingTable lsa currentCost with
  | none => newRoutingTable
  | some sameOrWorseCost =>
    if sameOrWorseCost.isEmpty then newRoutingTable ++ [newEntry]
    else
      let cheaper := newRoutingTable.filter fun entry ↦
        !(lsa.isSameOrWorse currentCost entry && currentCost < entry.cost)
      if sameOrWorseCost.any (!currentCost < ·.cost) then
        addNextHops (fun entry ↦ lsa.isSameOrWorse currentCost entry && !currentCost < entry.cost)
          borderRouterEntry.nextHops cheaper
      else cheaper ++ [newEntry]

def considerSummaryLSA (lsa : SummaryLSA) :
    List RoutingTableEntry :=
  if isDisregarded router lsa then newRoutingTable
  else if isActiveRange router newRoutingTable lsa then newRoutingTable
  else
    match newRoutingTable.find? (isBorderRouter areaID lsa.advertisingRouter) with
    | none => newRoutingTable
    | some borderRouterEntry => addInterAreaRoute areaID newRoutingTable lsa borderRouterEntry

end

def calculateInterAreaRoutes (summaryLSAs : List SummaryLSA) (newRoutingTable : List RoutingTableEntry) :
    List RoutingTableEntry :=
  summaryLSAs.foldl (considerSummaryLSA router areaID) newRoutingTable

end

/-! ## The rule -/

inductive Destination
  | network (address mask : IPAddress)
  | router (routerID : IPAddress)
  deriving DecidableEq

def RoutingTableEntry.target (entry : RoutingTableEntry) : Destination :=
  if entry.isNetwork then .network entry.destinationID entry.addressMask else .router entry.destinationID

def SummaryLSA.target (lsa : SummaryLSA) : Destination :=
  if lsa.lsType = .summaryNetworks then
    .network (lsa.destination.address &&& lsa.destination.mask) lsa.destination.mask
  else .router lsa.destination.address

section

variable (router : Router) (areaID : AreaID) (table : List RoutingTableEntry)

/-- The border router's entry in the intra-area table. -/
def borderRouterOf (lsa : SummaryLSA) : Option RoutingTableEntry :=
  table.find? (isBorderRouter areaID lsa.advertisingRouter)

/-- Not self-originated, not MaxAge, of finite cost, from a border router that is reachable in the area,
and not for an active range. -/
def isUsable (lsa : SummaryLSA) : Bool :=
  !isDisregarded router lsa && !isActiveRange router table lsa && (borderRouterOf areaID table lsa).isSome

/-- The exact cost of the route. -/
def routeCostOf (lsa : SummaryLSA) : ℕ :=
  lsa.routeCost + ((borderRouterOf areaID table lsa).map (·.cost)).getD 0

def nextHopsOf (lsa : SummaryLSA) : List NextHop :=
  ((borderRouterOf areaID table lsa).map (·.nextHops)).getD []

/-- The least cost of all the LSAs for the destination of the entry, and the next hops of those of this
cost. -/
structure IsBestRoute (usable : List SummaryLSA) (entry : RoutingTableEntry) : Prop where
  interArea : entry.pathType = .interArea
  least : ∀ lsa ∈ usable, lsa.target = entry.target → entry.cost ≤ routeCostOf areaID table lsa
  attained : ∃ lsa ∈ usable, lsa.target = entry.target ∧ routeCostOf areaID table lsa = entry.cost
  hops : ∀ hop, hop ∈ entry.nextHops ↔ ∃ lsa ∈ usable, lsa.target = entry.target ∧
    routeCostOf areaID table lsa = entry.cost ∧ hop ∈ nextHopsOf areaID table lsa

/-- The table keeps the intra-area routes, and each destination without one that a usable LSA advertises
has one inter-area entry, which is the best route. -/
def HasBestRoutes (summaryLSAs : List SummaryLSA) (result : List RoutingTableEntry) : Prop :=
  ∀ lsa ∈ summaryLSAs, isUsable router areaID table lsa = true → (∀ e ∈ table, e.target ≠ lsa.target) →
    ∃ entry, result.filter (fun e ↦ decide (e.pathType = .interArea ∧ e.target = lsa.target)) = [entry] ∧
      entry.target = lsa.target ∧
      IsBestRoute areaID table (summaryLSAs.filter (isUsable router areaID table)) entry

/-- The inputs on which the comparisons of the code are exact: no sum of costs reaches 65536, addresses
are below 128.0.0.0, networks with the same address have the same mask, and no LSA comes from a router
that is itself known by an LSA only. -/
structure Exact (summaryLSAs : List SummaryLSA) : Prop where
  cost : ∀ lsa ∈ summaryLSAs, isUsable router areaID table lsa = true → routeCostOf areaID table lsa < 65536
  low : ∀ lsa ∈ summaryLSAs, isUsable router areaID table lsa = true →
    (match lsa.target with
      | .network address _ => address
      | .router routerID => routerID).msb = false
  mask : ∀ lsa ∈ summaryLSAs, ∀ lsa' ∈ summaryLSAs, isUsable router areaID table lsa = true →
    isUsable router areaID table lsa' = true → ∀ address mask mask', lsa.target = .network address mask →
      lsa'.target = .network address mask' → mask = mask'
  tableMask : ∀ lsa ∈ summaryLSAs, isUsable router areaID table lsa = true → ∀ e ∈ table,
    ∀ address mask mask', lsa.target = .network address mask → e.target = .network address mask' →
      mask = mask'
  borderRouter : ∀ lsa ∈ summaryLSAs, isUsable router areaID table lsa = true →
    ∀ lsa' ∈ summaryLSAs, isDisregarded router lsa' = false →
      lsa.target = .router lsa'.advertisingRouter → (borderRouterOf areaID table lsa').isSome = true

end

end InetManet.OSPF.Routing
