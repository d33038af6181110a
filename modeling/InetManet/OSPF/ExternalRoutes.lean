import Mathlib.Data.Prod.Lex
import InetManet.OSPF.InterAreaRoutes

/-!
# Routes to other autonomous systems

The AS-external LSAs are considered one by one. The entry for the destination is looked up by prefix: an
intra-area or inter-area route is kept, an external one is compared with the LSA by type and cost. Entries
are pointers in the source. The lookup finds the first one among equal entries, so that it is the one that
is replaced.
-/

namespace InetManet.OSPF.Routing

structure ASExternalLSA where
  lsAge : ℕ
  lsOptions : BitVec 8
  linkStateID : BitVec 64
  advertisingRouter : IPAddress
  contents : ASExternalLSAContents
  deriving DecidableEq

namespace ASExternalLSA

variable (lsa : ASExternalLSA)

/-- What is read where the LSA is the origin of an entry. -/
def origin : OriginLSA := ⟨lsa.lsAge, lsa.advertisingRouter, some lsa.contents⟩

def destination : IPAddress := lsa.linkStateID.setWidth 32 &&& lsa.contents.networkMask

/-- An unsigned short. -/
def externalCost : ℕ := lsa.contents.routeCost % 65536

def type2ExternalMetric : Bool := lsa.contents.e_ExternalMetricType

def pathType : RoutingPathType :=
  if lsa.type2ExternalMetric then .type2External else .type1External

section

variable (preferredEntry : RoutingTableEntry)

/-- The cost of the entry, besides that of type 2. -/
def costBy : ℕ :=
  if lsa.type2ExternalMetric then preferredEntry.cost else preferredEntry.cost + lsa.externalCost

def nextHopsBy : List NextHop :=
  preferredEntry.nextHops.map fun hop ↦ { hop with advertisingRouter := lsa.advertisingRouter }

def newEntry : RoutingTableEntry where
  destinationType := networkDestination
  destinationID := lsa.destination
  addressMask := lsa.contents.networkMask
  optionalCapabilities := lsa.lsOptions
  area := preferredEntry.area
  pathType := lsa.pathType
  cost := lsa.costBy preferredEntry
  type2Cost := if lsa.type2ExternalMetric then lsa.externalCost else 0
  linkStateOrigin := some lsa.origin
  nextHops := lsa.nextHopsBy preferredEntry

end

/-- The LSA is better: the entry is overwritten, but keeps its destination, its mask and its origin. -/
def overwrite (preferredEntry destinationEntry : RoutingTableEntry) :
    RoutingTableEntry :=
  { destinationEntry with
    area := preferredEntry.area
    pathType := lsa.pathType
    cost := lsa.costBy preferredEntry
    type2Cost := if lsa.type2ExternalMetric then lsa.externalCost else destinationEntry.type2Cost
    destinationType := networkDestination
    optionalCapabilities := lsa.lsOptions
    nextHops := lsa.nextHopsBy preferredEntry }

/-- Step (6) (b). -/
def hasWorseType (destinationEntry : RoutingTableEntry) : Bool :=
  destinationEntry.pathType == .type1External && lsa.type2ExternalMetric ||
    destinationEntry.pathType == .type2External && lsa.type2ExternalMetric &&
      destinationEntry.type2Cost < lsa.externalCost

/-- How the entry compares with the LSA: it is cheaper, or as good, or the LSA is better. The preferred
entry of the origin is only read where both are of type 2 and have the same external cost. -/
def compareCost (preferredEntry destinationEntry : RoutingTableEntry)
    (destinationPreferredEntry : Option RoutingTableEntry) : Option Ordering :=
  if destinationEntry.pathType = .type1External ∧ lsa.type2ExternalMetric = false then
    some (compare destinationEntry.cost (preferredEntry.cost + lsa.externalCost))
  else if destinationEntry.pathType = .type2External ∧ lsa.type2ExternalMetric = true ∧
      destinationEntry.type2Cost = lsa.externalCost then
    destinationPreferredEntry.map fun entry ↦ compare entry.cost preferredEntry.cost
  else some .gt

end ASExternalLSA

/-- An intra-area path that does not go through the backbone. -/
def RoutingTableEntry.isNonBackbone (entry : RoutingTableEntry) : Bool :=
  entry.pathType == .intraArea && entry.area != backboneAreaID

section

variable (router : Router)

/-- Step (6) (c). The preferred entry of the origin is only read if compatibility with RFC 1583 is off. -/
def isLessPreferred (preferredEntry : RoutingTableEntry)
    (destinationPreferredEntry : Option RoutingTableEntry) : Option Bool :=
  if router.rfc1583Compatibility then some false
  else destinationPreferredEntry.map fun entry ↦ entry.isNonBackbone && !preferredEntry.isNonBackbone

/-- The LSA against an entry for its destination. -/
def updateEntry (newRoutingTable : List RoutingTableEntry) (lsa : ASExternalLSA)
    (preferredEntry destinationEntry : RoutingTableEntry) : Option (List RoutingTableEntry) :=
  if destinationEntry.pathType = .intraArea ∨ destinationEntry.pathType = .interArea then some newRoutingTable
  else if lsa.hasWorseType destinationEntry then some newRoutingTable
  else
    match destinationEntry.linkStateOrigin with
    | none => none
    | some linkStateOrigin =>
      let destinationPreferredEntry := router.getPreferredEntry linkStateOrigin false newRoutingTable
      match isLessPreferred router preferredEntry destinationPreferredEntry,
          lsa.compareCost preferredEntry destinationEntry destinationPreferredEntry with
      | none, _ => none
      | some true, _ => some newRoutingTable
      | some false, none => none
      | some false, some .lt => some newRoutingTable
      | some false, some .eq => some (newRoutingTable.replace destinationEntry { destinationEntry with
          nextHops := destinationEntry.nextHops ++ lsa.nextHopsBy preferredEntry })
      | some false, some .gt =>
        some (newRoutingTable.replace destinationEntry (lsa.overwrite preferredEntry destinationEntry))

/-- The result is `none` where a pointer that is NULL is followed. -/
def considerASExternalLSA (newRoutingTable : List RoutingTableEntry) (lsa : ASExternalLSA) :
    Option (List RoutingTableEntry) :=
  match router.getPreferredEntry lsa.origin true newRoutingTable with
  | none => some newRoutingTable
  | some preferredEntry =>
    match lookup (router.areas.map (·.toAreaRanges)) newRoutingTable lsa.destination with
    | none => some (newRoutingTable ++ [lsa.newEntry preferredEntry])
    | some destinationEntry => updateEntry router newRoutingTable lsa preferredEntry destinationEntry

def calculateASExternalRoutes (asExternalLSAs : List ASExternalLSA)
    (newRoutingTable : List RoutingTableEntry) : Option (List RoutingTableEntry) :=
  asExternalLSAs.foldlM (considerASExternalLSA router) newRoutingTable

end

/-! ## The rule -/

def ASExternalLSA.target (lsa : ASExternalLSA) : Destination := .network lsa.destination lsa.contents.networkMask

/-- Type 1 before type 2. Then the cost, of type 2 first. -/
abbrev ExternalRank := ℕ ×ₗ ℕ ×ₗ ℕ

def RoutingTableEntry.externalRank (entry : RoutingTableEntry) : ExternalRank :=
  if entry.pathType = .type2External then toLex (1, toLex (entry.type2Cost, entry.cost))
  else toLex (0, toLex (entry.cost, 0))

def RoutingTableEntry.isExternal (entry : RoutingTableEntry) : Bool :=
  entry.pathType == .type1External || entry.pathType == .type2External

section

variable (router : Router) (table : List RoutingTableEntry)

section

variable (lsa : ASExternalLSA)

/-- The entry by which the AS boundary router, or the forwarding address, is reached in the intra- and
inter-area table. -/
def preferredOf : Option RoutingTableEntry :=
  router.getPreferredEntry lsa.origin true table

/-- Not self-originated, not MaxAge, of finite cost, and reachable. -/
def isUsableExternal : Bool := (preferredOf router table lsa).isSome

def preferredCost : ℕ := ((preferredOf router table lsa).map (·.cost)).getD 0

def isPreferredNonBackbone : Bool :=
  ((preferredOf router table lsa).map (·.isNonBackbone)).getD false

/-- The exact costs. -/
def rankOf : ExternalRank :=
  if lsa.type2ExternalMetric then toLex (1, toLex (lsa.contents.routeCost, preferredCost router table lsa))
  else toLex (0, toLex (preferredCost router table lsa + lsa.contents.routeCost, 0))

end

/-- An external route of the least rank of all LSAs for its network. -/
structure IsBestExternalRoute (usable : List ASExternalLSA) (entry : RoutingTableEntry) : Prop where
  external : entry.isExternal = true
  least : ∀ lsa ∈ usable, lsa.target = entry.target → entry.externalRank ≤ rankOf router table lsa
  attained : ∃ lsa ∈ usable, lsa.target = entry.target ∧ rankOf router table lsa = entry.externalRank

/-- No NULL pointer is followed, the intra- and inter-area entries are the same as before, and each network
without such an entry that a usable LSA advertises has one external entry, which is the best route. -/
def HasBestExternalRoutes (asExternalLSAs : List ASExternalLSA) (result : Option (List RoutingTableEntry)) :
    Prop :=
  ∃ external, result = some (table ++ external) ∧ (∀ e ∈ external, e.isExternal = true) ∧
    ∀ lsa ∈ asExternalLSAs, isUsableExternal router table lsa = true →
      (∀ e ∈ table, e.target ≠ lsa.target) →
      ∃ entry, external.filter (fun e ↦ decide (e.target = lsa.target)) = [entry] ∧
        entry.target = lsa.target ∧
        IsBestExternalRoute router table (asExternalLSAs.filter (isUsableExternal router table)) entry

/-- The masked destination that the lookup finds. -/
def longestMatch (dest : IPAddress) : ℕ := (table.foldl (considerMatch dest) (none, 0)).2

/-- The inputs on which the lookups and the comparisons of the code are exact. The origin of an entry is
that of its first LSA, also after a better one has overwritten it. -/
structure ExactExternal (asExternalLSAs : List ASExternalLSA) : Prop where
  /-- The external cost is not cut. -/
  cost : ∀ lsa ∈ asExternalLSAs, isUsableExternal router table lsa = true → lsa.contents.routeCost < 65536
  /-- The default route is never found. -/
  nonzero : ∀ lsa ∈ asExternalLSAs, isUsableExternal router table lsa = true → lsa.destination ≠ 0
  /-- No other network of the table covers the destination. -/
  uncovered : ∀ lsa ∈ asExternalLSAs, isUsableExternal router table lsa = true →
    ∀ e ∈ matching table lsa.destination, lsa.destination &&& e.addressMask ≠ 0 → e.target = lsa.target
  /-- No other network that is advertised covers it. -/
  distinct : ∀ lsa ∈ asExternalLSAs, ∀ lsa' ∈ asExternalLSAs, isUsableExternal router table lsa = true →
    isUsableExternal router table lsa' = true →
    lsa'.destination = lsa.destination &&& lsa'.contents.networkMask → lsa'.target = lsa.target
  /-- A forwarding address is found in the table of intra- and inter-area routes. -/
  forwarding : ∀ lsa ∈ asExternalLSAs, lsa.contents.forwardingAddress ≠ 0 →
    ∀ lsa' ∈ asExternalLSAs, isUsableExternal router table lsa' = true →
    lsa'.destination = lsa.contents.forwardingAddress &&& lsa'.contents.networkMask →
    lsa'.destination.toNat ≤ longestMatch table lsa.contents.forwardingAddress
  /-- Where the paths that are preferred to others matter, they are not worse. -/
  preference : router.rfc1583Compatibility = false → ∀ lsa ∈ asExternalLSAs, ∀ lsa' ∈ asExternalLSAs,
    isUsableExternal router table lsa = true → isUsableExternal router table lsa' = true →
    lsa'.target = lsa.target → isPreferredNonBackbone router table lsa = true →
    isPreferredNonBackbone router table lsa' = false → rankOf router table lsa ≤ rankOf router table lsa'
  /-- A comparison with the first LSA of type 2 is one with the best so far. -/
  origin : ∀ first ∈ asExternalLSAs, ∀ best ∈ asExternalLSAs, ∀ lsa ∈ asExternalLSAs,
    isUsableExternal router table first = true → isUsableExternal router table best = true →
    isUsableExternal router table lsa = true → first.target = lsa.target → best.target = lsa.target →
    best.type2ExternalMetric = true → lsa.type2ExternalMetric = true →
    best.contents.routeCost = lsa.contents.routeCost →
    rankOf router table best < rankOf router table first →
    (preferredCost router table lsa < preferredCost router table best →
      preferredCost router table lsa < preferredCost router table first) ∧
    (preferredCost router table best < preferredCost router table lsa →
      preferredCost router table first ≤ preferredCost router table lsa)

end

end InetManet.OSPF.Routing
