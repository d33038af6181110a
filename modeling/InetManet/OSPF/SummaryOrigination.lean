import InetManet.Library.Loops
import InetManet.OSPF.RoutingTable

/-!
# Summaries of the routing table

An area border router describes the networks of its routing table to each of its areas by summary LSAs.
Two networks with the same address must not get the same link state ID, and networks inside a configured
range are described together. The flooding of the LSAs is left out, and so are their checksums, which
nothing reads.
-/

namespace InetManet.OSPF.Routing

def backboneAreaID : AreaID := 0

structure SummaryLSA where
  lsAge : ℕ
  lsType : LSAType
  linkStateID : BitVec 64
  advertisingRouter : IPAddress
  lsSequenceNumber : ℤ
  lsOptions : BitVec 8
  networkMask : IPAddress
  routeCost : ℕ
  deriving DecidableEq

structure SummaryKey where
  linkStateID : BitVec 64
  advertisingRouter : IPAddress
  deriving DecidableEq

def SummaryLSA.key (lsa : SummaryLSA) : SummaryKey := ⟨lsa.linkStateID, lsa.advertisingRouter⟩

structure AssociatedInterface where
  ifIndex : BitVec 8
  isVirtual : Bool
  deriving DecidableEq

structure Area extends AreaRanges where
  transitCapability : Bool
  externalRoutingCapability : Bool
  associatedInterfaces : List AssociatedInterface
  advertiseAddressRanges : List (IPv4AddressRange × Bool)

structure Router where
  routerID : IPAddress
  rfc1583Compatibility : Bool
  areas : List Area
  routingTable : List RoutingTableEntry

def nullIPv4AddressRange : IPv4AddressRange := ⟨0, 0⟩

namespace Area

/-- The first range that contains the network, and whether it is advertised. -/
def getContainingAddressRange (area : Area) (addressRange : IPv4AddressRange) :
    IPv4AddressRange × Bool :=
  match area.areaAddressRanges.find? fun range ↦
      range.address &&& range.mask == addressRange.address &&& range.mask with
  | some range => (range, (area.advertiseAddressRanges.lookup range).getD true)
  | none => (nullIPv4AddressRange, false)

end Area

/-! ## Routes to AS boundary routers -/

def hasRouteToASBoundaryRouter (inRoutingTable : List RoutingTableEntry) (asbrRouterID : IPAddress) :
    Bool :=
  inRoutingTable.any fun entry ↦
    entry.destinationType.asBoundaryRouter && entry.destinationID == asbrRouterID

def getRoutesToASBoundaryRouter (fromRoutingTable : List RoutingTableEntry) (asbrRouterID : IPAddress) :
    List RoutingTableEntry :=
  fromRoutingTable.filter fun entry ↦
    entry.destinationType.asBoundaryRouter && entry.destinationID == asbrRouterID

def pruneASBoundaryRouterEntries (asbrEntries : List RoutingTableEntry) : List RoutingTableEntry :=
  if asbrEntries.any fun entry ↦ entry.pathType == .intraArea && entry.area != backboneAreaID then
    asbrEntries.filter fun entry ↦ !(entry.pathType != .intraArea || entry.area == backboneAreaID)
  else asbrEntries

def leastCost (least entry : RoutingTableEntry) : RoutingTableEntry :=
  if entry.cost < least.cost ∨ entry.cost = least.cost ∧ least.area < entry.area then entry else least

def selectLeastCostRoutingEntry : List RoutingTableEntry → Option RoutingTableEntry
  | [] => none
  | entry :: entries => some (entries.foldl leastCost entry)

namespace Router

def getPreferredEntry (router : Router) (lsa : OriginLSA) (skipSelfOriginated : Bool)
    (fromRoutingTable : List RoutingTableEntry) : Option RoutingTableEntry :=
  let externalCost := (lsa.asExternal.map (·.routeCost)).getD 0
  let forwardingAddress := (lsa.asExternal.map (·.forwardingAddress)).getD 0
  let selfOriginated := lsa.advertisingRouter == router.routerID
  if externalCost = lsInfinity ∨ lsa.lsAge = maxAge ∨ (skipSelfOriginated && selfOriginated) = true then none
  else if !hasRouteToASBoundaryRouter fromRoutingTable lsa.advertisingRouter then none
  else if forwardingAddress = 0 then
    let asbrEntries := getRoutesToASBoundaryRouter fromRoutingTable lsa.advertisingRouter
    selectLeastCostRoutingEntry
      (if router.rfc1583Compatibility then asbrEntries else pruneASBoundaryRouterEntries asbrEntries)
  else
    match lookup (router.areas.map (·.toAreaRanges)) fromRoutingTable forwardingAddress with
    | none => none
    | some forwardEntry =>
      if forwardEntry.pathType != .intraArea && forwardEntry.pathType != .interArea then none
      else some forwardEntry

/-- The area of the first interface that has the index and is not virtual. -/
def nonVirtualInterfaceArea (router : Router) (ifIndex : BitVec 8) : Option AreaID :=
  (router.areas.find? fun area ↦ area.associatedInterfaces.any fun intf ↦
    !intf.isVirtual && intf.ifIndex == ifIndex).map (·.areaID)

/-- The range of the first area that has one. -/
def getContainingAddressRange (router : Router) (addressRange : IPv4AddressRange) :
    IPv4AddressRange × Bool :=
  match router.areas.find? fun area ↦
      (area.getContainingAddressRange addressRange).1 != nullIPv4AddressRange with
  | some area => area.getContainingAddressRange addressRange
  | none => (nullIPv4AddressRange, false)

/-- The network lies in the range and is reached inside its area. -/
def isInRange (range : IPv4AddressRange) (entry : RoutingTableEntry) : Bool :=
  entry.isNetwork && entry.pathType == .intraArea &&
    (entry.destinationID &&& entry.addressMask).setWidth 64 &&& uLongFromIPv4Address range.mask ==
      uLongFromIPv4Address (range.address &&& range.mask)

/-- The largest cost of the networks in the range, and the one before it. -/
def maxRangeCosts (routingTable : List RoutingTableEntry) (range : IPv4AddressRange) : ℕ × ℕ :=
  routingTable.foldl (fun (s : ℕ × ℕ) entry ↦
    if isInRange range entry && s.1 < entry.cost then (entry.cost, s.1) else s) (0, 0)

def maxRangeCost (routingTable : List RoutingTableEntry) (range : IPv4AddressRange) : ℕ :=
  (maxRangeCosts routingTable range).1

end Router

/-! ## Origination -/

/-- The summary LSAs of an area, with the LSAs that a round has originated or deleted. -/
structure SummaryDatabase where
  summaryLSAs : List SummaryLSA
  originatedLSAMap : List SummaryKey
  deletedLSAMap : List SummaryKey

/-- The ID for a destination, and the LSA that must be originated again to make room for it. -/
structure UniqueID where
  linkStateID : BitVec 64
  lsaToReoriginate : Option SummaryLSA

/-- The LSA to install, after the one that makes room for it. -/
structure Origination where
  newLSA : Option SummaryLSA
  lsaToReoriginate : Option SummaryLSA

def nothing : Origination := ⟨none, none⟩

section

variable (router : Router) (area : Area)

section

variable (summaryLSAs : List SummaryLSA)

def findSummaryLSA (key : SummaryKey) : Option SummaryLSA :=
  summaryLSAs.find? fun lsa ↦ lsa.key == key

def getUniqueLinkStateID (destination : IPv4AddressRange) (destinationCost : ℕ) : UniqueID :=
  let linkStateID := uLongFromIPv4Address destination.address
  match findSummaryLSA summaryLSAs ⟨linkStateID, router.routerID⟩ with
  | none => ⟨linkStateID, none⟩
  | some foundLSA =>
    let existingMask := foundLSA.networkMask
    if destination.mask = existingMask then ⟨linkStateID, none⟩
    else if existingMask.toNat ≤ destination.mask.toNat then
      ⟨linkStateID ||| ~~~uLongFromIPv4Address destination.mask, none⟩
    else
      ⟨linkStateID ||| ~~~uLongFromIPv4Address existingMask, some { foundLSA with
        lsAge := 0
        lsSequenceNumber :=
          if foundLSA.lsSequenceNumber = maxSequenceNumber then initialSequenceNumber
          else foundLSA.lsSequenceNumber + 1
        networkMask := destination.mask
        routeCost := destinationCost }⟩

def newSummaryLSA (lsType : LSAType) (linkStateID : BitVec 64) (entry : RoutingTableEntry) :
    SummaryLSA where
  lsAge := 0
  lsType := lsType
  linkStateID := linkStateID
  advertisingRouter := router.routerID
  lsSequenceNumber := initialSequenceNumber
  lsOptions := if area.externalRoutingCapability then 2 else 0
  networkMask := entry.addressMask
  routeCost := entry.cost

/-- A copy of the LSA that is stored under the address of the destination, with another ID. -/
def moveSummaryLSA (entry : RoutingTableEntry) (unique : UniqueID) :
    Origination :=
  match findSummaryLSA summaryLSAs ⟨entry.destinationID.setWidth 64, router.routerID⟩ with
  | none => nothing
  | some lsa => ⟨some { lsa with
      lsAge := 0
      lsSequenceNumber := initialSequenceNumber
      linkStateID := unique.linkStateID }, unique.lsaToReoriginate⟩

/-- A network that is described on its own. -/
def originateForNetwork (entry : RoutingTableEntry) : Origination :=
  let unique := getUniqueLinkStateID router summaryLSAs ⟨entry.destinationID, entry.addressMask⟩ entry.cost
  if unique.lsaToReoriginate.isSome then moveSummaryLSA router summaryLSAs entry unique
  else ⟨some (newSummaryLSA router area .summaryNetworks unique.linkStateID entry), none⟩

/-- A network in a range that is advertised. -/
def originateForRange (s : SummaryDatabase) (entry : RoutingTableEntry) (range : IPv4AddressRange) :
    Origination :=
  let cost := Router.maxRangeCost router.routingTable range
  let unique := getUniqueLinkStateID router s.summaryLSAs range cost
  match unique.lsaToReoriginate with
  | some lsa =>
    if ⟨lsa.linkStateID, router.routerID⟩ ∈ s.originatedLSAMap then nothing
    else moveSummaryLSA router s.summaryLSAs entry unique
  | none =>
    if ⟨unique.linkStateID, router.routerID⟩ ∈ s.originatedLSAMap then nothing
    else ⟨some (newSummaryLSA router area .summaryNetworks unique.linkStateID entry), none⟩

def allNextHopsInThisArea (entry : RoutingTableEntry) : Bool :=
  entry.nextHops.all fun hop ↦
    match router.nonVirtualInterfaceArea hop.ifIndex with
    | some areaID => areaID == area.areaID
    | none => true

def originateSummaryLSA (s : SummaryDatabase) (entry : RoutingTableEntry) : Origination :=
  if entry.destinationType.areaBorderRouter || entry.pathType == .type1External ||
      entry.pathType == .type2External || entry.area == area.areaID then nothing
  else if allNextHopsInThisArea router area entry || lsInfinity ≤ entry.cost then nothing
  else if entry.destinationType.asBoundaryRouter then
    match entry.linkStateOrigin.bind (router.getPreferredEntry · false router.routingTable) with
    | some preferredEntry =>
      if preferredEntry = entry ∧ area.externalRoutingCapability = true then
        ⟨some (newSummaryLSA router area .summaryASBoundaryRouters (entry.destinationID.setWidth 64) entry), none⟩
      else nothing
    | none => nothing
  else if entry.pathType = .interArea then originateForNetwork router area s.summaryLSAs entry
  else
    let (containingAddressRange, doAdvertise) :=
      router.getContainingAddressRange ⟨entry.destinationID, entry.addressMask⟩
    if (entry.area == backboneAreaID && area.transitCapability) ||
        containingAddressRange == nullIPv4AddressRange then
      originateForNetwork router area s.summaryLSAs entry
    else if doAdvertise then originateForRange router area s entry containingAddressRange
    else nothing

/-- `==` binds closer than `&`, so that the mask is compared with the link state ID and the result of
the comparison is a mask itself. -/
def describesNetwork (lsa : SummaryLSA) (entry : RoutingTableEntry) : Bool :=
  let lsaMask := lsa.networkMask.setWidth 64
  let same : BitVec 64 := if lsaMask = lsa.linkStateID then 1 else 0
  entry.isNetwork && entry.addressMask == lsa.networkMask &&
    entry.destinationID.setWidth 64 &&& same &&& lsaMask != 0

def describesRouter (lsa : SummaryLSA) (entry : RoutingTableEntry) : Bool :=
  (entry.destinationType.areaBorderRouter || entry.destinationType.asBoundaryRouter) &&
    entry.destinationID.setWidth 64 == lsa.linkStateID && entry.addressMask == lsa.networkMask

/-- The LSA is originated again, for the first entry that it describes. -/
def originateSummaryLSAAgain (lsa : SummaryLSA) : Option SummaryLSA :=
  match router.routingTable.find? fun entry ↦
      lsa.lsType == .summaryASBoundaryRouters && describesRouter lsa entry ||
        lsa.lsType == .summaryNetworks && describesNetwork lsa entry with
  | some entry => (originateSummaryLSA router area ⟨summaryLSAs, [], []⟩ entry).newLSA
  | none => none

end

/-! ## Changes of the routing table -/

def installSummaryLSA (lsa : SummaryLSA) (summaryLSAs : List SummaryLSA) : List SummaryLSA :=
  if (findSummaryLSA summaryLSAs lsa.key).isSome then
    summaryLSAs.map fun x ↦ if x.key = lsa.key then lsa else x
  else summaryLSAs ++ [lsa]

def SummaryDatabase.originate (s : SummaryDatabase) (lsa : SummaryLSA) : SummaryDatabase :=
  { s with
    summaryLSAs := installSummaryLSA lsa s.summaryLSAs
    originatedLSAMap := ⟨lsa.linkStateID, router.routerID⟩ :: s.originatedLSAMap }

/-- Changes an LSA in the database. -/
def SummaryDatabase.modify (s : SummaryDatabase) (key : SummaryKey) (f : SummaryLSA → SummaryLSA) :
    SummaryDatabase :=
  { s with summaryLSAs := s.summaryLSAs.map fun x ↦ if x.key = key then f x else x }

/-- The range in which the costs of a destination count. -/
def summaryRange (entry : RoutingTableEntry) : IPv4AddressRange :=
  let containing := (router.getContainingAddressRange ⟨entry.destinationID, entry.addressMask⟩).1
  if entry.isNetwork && (entry.pathType == .intraArea || entry.pathType == .interArea) &&
      containing != nullIPv4AddressRange then containing
  else ⟨entry.destinationID, entry.addressMask⟩

/-- The cost of the range becomes `cost`. If that is zero, nothing is left in the range. -/
def SummaryDatabase.reduce (s : SummaryDatabase) (range : IPv4AddressRange) (cost : ℕ) : SummaryDatabase :=
  let key : SummaryKey := ⟨uLongFromIPv4Address range.address, router.routerID⟩
  if (findSummaryLSA s.summaryLSAs key).isSome then
    if cost ≠ 0 then
      { s.modify key fun x ↦ { x with routeCost := cost } with
        originatedLSAMap := key :: s.originatedLSAMap }
    else if key ∈ s.deletedLSAMap then s
    else
      { s.modify key fun x ↦ { x with lsAge := maxAge } with
        deletedLSAMap := key :: s.deletedLSAMap }
  else s

def maskedDestination (entry : RoutingTableEntry) : IPAddress := entry.destinationID &&& entry.addressMask

/-- The last entry with the same masked address is in the map. -/
def findInTable (table : List RoutingTableEntry) (destination : IPAddress) : Option RoutingTableEntry :=
  table.reverse.find? fun entry ↦ maskedDestination entry == destination

section

variable (oldRoutingTable : List RoutingTableEntry)

/-- The entry is not in the old table or has changed. -/
def isChanged (entry : RoutingTableEntry) : Bool :=
  match findInTable oldRoutingTable (maskedDestination entry) with
  | none => true
  | some old => entry != old

def notifyAboutEntry (s : SummaryDatabase) (entry : RoutingTableEntry) : SummaryDatabase :=
  if !isChanged oldRoutingTable entry then s
  else
    let origination := originateSummaryLSA router area s entry
    match origination.newLSA with
    | some newLSA =>
      let s := match origination.lsaToReoriginate with
        | some lsa => s.originate router lsa
        | none => s
      s.originate router newLSA
    | none =>
      if (findInTable oldRoutingTable (maskedDestination entry)).isNone then s
      else
        let range := summaryRange router entry
        let (maxRangeCost, oneLessCost) := Router.maxRangeCosts router.routingTable range
        if maxRangeCost = entry.cost then s.reduce router range oneLessCost else s

def notifyAboutOldEntry (s : SummaryDatabase) (entry : RoutingTableEntry) : SummaryDatabase :=
  if (findInTable router.routingTable (maskedDestination entry)).isSome then s
  else
    let range := summaryRange router entry
    let maxRangeCost := Router.maxRangeCost router.routingTable range
    if maxRangeCost < entry.cost then s.reduce router range maxRangeCost else s

/-- The summary LSAs of an area after the routing table has changed. -/
def notifyArea (summaryLSAs : List SummaryLSA) :
    List SummaryLSA :=
  (oldRoutingTable.foldl (notifyAboutOldEntry router)
    (router.routingTable.foldl (notifyAboutEntry router area oldRoutingTable)
      ⟨summaryLSAs, [], []⟩)).summaryLSAs

end

end

namespace Router

/-- The summary LSAs that the areas have when they had none before. -/
def notifyAboutRoutingTableChanges (router : Router) (oldRoutingTable : List RoutingTableEntry) :
    List (Area × List SummaryLSA) :=
  router.areas.map fun area ↦
    (area, if router.areas.length ≤ 1 then [] else notifyArea router area oldRoutingTable [])

end Router

end InetManet.OSPF.Routing
