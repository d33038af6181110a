import InetManet.OSPF.UpdateHandler

/-!
# New instances of LSAs

The places at which an instance in the database is replaced: changes of interfaces and neighbors,
changes of the routing table, aging, and LSAs that are received. Each replacement is recorded. What the
router would put into an LSA, whether a destination is reachable, and whether an LSA may be removed
come with the event. Flooding is left out; what it causes are events of their own.
-/

namespace InetManet.OSPF

/-- The fields of an LSA that the places below look at. -/
structure Contents (β : Type) where
  networkMask : IPAddress
  routeCost : ℕ
  body : β
  deriving DecidableEq

/-- An address with the mask of its network. -/
structure IPv4AddressRange where
  address : IPAddress
  mask : IPAddress

structure Origination (β : Type) where
  database : DatabaseKey → Option (LSA (Contents β))
  /-- Old and new instances. -/
  replaced : List (LSA (Contents β) × LSA (Contents β))

namespace Origination

variable {β : Type}

/-- `Update`, or a first instance. -/
def install (k : DatabaseKey) (lsa : LSA (Contents β)) (s : Origination β) : Origination β where
  database := Function.update s.database k (some lsa)
  replaced := match s.database k with
    | none => s.replaced
    | some old => s.replaced ++ [(old, lsa)]

/-- The LSA, if there is one, is flushed. -/
def flush (k : DatabaseKey) (s : Origination β) : Origination β :=
  match s.database k with
  | none => s
  | some old => s.install k old.atMaxAge

/-- An own LSA has changed: the next instance, unless the sequence numbers are used up or there is
nothing to advertise any more. -/
def reoriginate (k : DatabaseKey) (fresh : Option (LSA (Contents β))) (s : Origination β) :
    Origination β :=
  match s.database k with
  | none => s
  | some old =>
      if old.header.lsSequenceNumber = maxSequenceNumber then s.flush k
      else
        match fresh with
        | none => s.flush k
        | some lsa => s.install k (lsa.withSequenceNumber (old.header.lsSequenceNumber + 1))

def originateRouterLSA (routerID : IPAddress) (contents : Contents β) : LSA (Contents β) :=
  ⟨⟨0, .routerLSA, routerID, routerID, initialSequenceNumber, 0⟩, contents⟩

/-- `NULL` if no neighbor on the interface is fully adjacent. -/
def originateNetworkLSA (routerID address : IPAddress) (contents : Option (Contents β)) :
    Option (LSA (Contents β)) :=
  contents.map fun contents ↦
    ⟨⟨0, .networkLSA, address, routerID, initialSequenceNumber, 0⟩, contents⟩

/-- The router LSA when an interface goes up or down. -/
def interfaceChanged (routerID areaID : IPAddress) (contents : Contents β) (s : Origination β) :
    Origination β :=
  let k := DatabaseKey.router areaID routerID
  match s.database k with
  | none => s.install k (originateRouterLSA routerID contents)
  | some _ => s.reoriginate k (some (originateRouterLSA routerID contents))

/-- The network LSA when this router becomes the designated one. -/
def becomeDesignatedRouter (routerID areaID address : IPAddress) (contents : Option (Contents β))
    (s : Origination β) : Origination β :=
  let k := DatabaseKey.network areaID address
  match originateNetworkLSA routerID address contents with
  | none => s.flush k
  | some lsa => s.install k lsa

/-! ## Summary LSAs -/

/-- The link state ID for a destination, and the instance that has to make room for it. -/
def getUniqueLinkStateID (routerID areaID : IPAddress) (destination : IPv4AddressRange)
    (destinationCost : ℕ) (s : Origination β) : IPAddress × Option (LSA (Contents β)) :=
  match s.database (.summary areaID ⟨destination.address, routerID⟩) with
  | none => (destination.address, none)
  | some found =>
      let existingMask := found.contents.networkMask
      if destination.mask = existingMask then (destination.address, none)
      else if existingMask.toNat ≤ destination.mask.toNat then
        (destination.address ||| ~~~destination.mask, none)
      else
        let sequenceNumber := found.header.lsSequenceNumber
        (destination.address ||| ~~~existingMask,
          some { header := { found.header with
                   lsAge := 0
                   lsSequenceNumber := if sequenceNumber = maxSequenceNumber then
                     initialSequenceNumber else sequenceNumber + 1
                   lsChecksum := 0 }
                 contents := { found.contents with
                   networkMask := destination.mask
                   routeCost := destinationCost } })

/-- The new summary LSA for a destination that is advertised with a mask and a cost, and the one to
reoriginate. -/
def originateSummaryLSA (routerID areaID : IPAddress) (destination : IPv4AddressRange)
    (destinationCost : ℕ) (contents : Contents β) (s : Origination β) :
    LSA (Contents β) × Option (LSA (Contents β)) :=
  let (linkStateID, lsaToReoriginate) :=
    s.getUniqueLinkStateID routerID areaID destination destinationCost
  let header : LSAHeader := ⟨0, .summaryNetworks, linkStateID, routerID, initialSequenceNumber, 0⟩
  match lsaToReoriginate, s.database (.summary areaID ⟨destination.address, routerID⟩) with
  | some lsa, some found => (⟨{ header with lsType := found.header.lsType }, found.contents⟩, some lsa)
  | _, _ => (⟨header, contents⟩, none)

def installSummaryLSA (areaID : IPAddress) (lsa : LSA (Contents β)) (s : Origination β) :
    Origination β :=
  s.install (.summary areaID lsa.header.key) lsa

/-- A new or modified entry of the routing table. -/
def routeChanged (routerID areaID : IPAddress) (destination : IPv4AddressRange)
    (destinationCost : ℕ) (contents : Contents β) (s : Origination β) : Origination β :=
  let (newLSA, lsaToReoriginate) :=
    s.originateSummaryLSA routerID areaID destination destinationCost contents
  match lsaToReoriginate with
  | none => s.installSummaryLSA areaID newLSA
  | some lsa => (s.installSummaryLSA areaID lsa).installSummaryLSA areaID newLSA

/-- An AS boundary router is advertised. -/
def boundaryRouterChanged (routerID areaID destinationID : IPAddress) (contents : Contents β)
    (s : Origination β) : Origination β :=
  s.installSummaryLSA areaID
    ⟨⟨0, .summaryASBoundaryRouters, destinationID, routerID, initialSequenceNumber, 0⟩, contents⟩

/-- The cost of a range changes with the entry that gave it, or the range is empty. -/
def rangeChanged (routerID areaID address : IPAddress) (cost : ℕ) (s : Origination β) :
    Origination β :=
  let k := DatabaseKey.summary areaID ⟨address, routerID⟩
  match s.database k with
  | none => s
  | some lsa =>
      if cost ≠ 0 then s.install k { lsa with contents := { lsa.contents with routeCost := cost } }
      else s.flush k

/-! ## Aging -/

/-- An LSA in its turn. `fresh` is what would be originated in its place, and `isRemovable` says that
it is on no retransmission list and no neighbor is in Exchange or Loading. -/
def ageLSA (k : DatabaseKey) (selfOriginated unreachable isRemovable : Bool)
    (fresh : Option (LSA (Contents β))) (s : Origination β) : Origination β :=
  match s.database k with
  | none => s
  | some lsa =>
      let lsAge := lsa.header.lsAge
      if selfOriginated ∧ lsAge < lsRefreshTime - 1 ∨ !selfOriginated ∧ lsAge < maxAge - 1 then
        { s with
          database := Function.update s.database k
            (some { lsa with header := { lsa.header with lsAge := lsAge + 1 } }) }
      else if selfOriginated ∧ lsAge = lsRefreshTime - 1 then
        if unreachable then s.flush k else s.reoriginate k fresh
      else if !selfOriginated ∧ lsAge = maxAge - 1 then s.flush k
      else if lsAge = maxAge ∧ isRemovable then
        match (if !selfOriginated || unreachable then none else fresh) with
        | none => { s with database := Function.update s.database k none }
        | some newLSA =>
            s.install k (newLSA.withSequenceNumber
              (if lsa.header.lsSequenceNumber = maxSequenceNumber then initialSequenceNumber
              else lsa.header.lsSequenceNumber + 1))
      else s

/-! ## LSAs that are received -/

/-- If a newer instance claims to come from this router it is outdone. -/
def received (areaID : IPAddress) (selfOriginated : Bool) (lsa : LSA (Contents β))
    (s : Origination β) : Origination β :=
  let k := databaseKey areaID lsa.header
  match s.database k with
  | none => s.install k lsa
  | some old =>
      if old.header.isOlder lsa.header then
        let s := s.install k lsa
        if !selfOriginated then s
        else if lsa.header.lsSequenceNumber = maxSequenceNumber then s.flush k
        else s.install k { lsa with header :=
          { lsa.header with lsSequenceNumber := lsa.header.lsSequenceNumber + 1 } }
      else s

/-! ## Runs -/

inductive Event (β : Type)
  | interfaceChanged (areaID : IPAddress) (contents : Contents β)
  | becomeDesignatedRouter (areaID address : IPAddress) (contents : Option (Contents β))
  | leaveDesignatedRouter (areaID address : IPAddress)
  /-- A neighbor reaches or leaves Full: the router LSA. -/
  | neighborChanged (areaID : IPAddress) (contents : Contents β)
  /-- The same on an interface where this router is the designated one. -/
  | adjacencyChanged (areaID address : IPAddress) (contents : Option (Contents β))
  /-- The shortest paths are calculated without a root. -/
  | newRoot (areaID : IPAddress) (contents : Contents β)
  | routeChanged (areaID : IPAddress) (destination : IPv4AddressRange) (destinationCost : ℕ)
      (contents : Contents β)
  | boundaryRouterChanged (areaID destinationID : IPAddress) (contents : Contents β)
  | rangeChanged (areaID address : IPAddress) (cost : ℕ)
  | ageLSA (k : DatabaseKey) (selfOriginated unreachable isRemovable : Bool)
      (fresh : Option (LSA (Contents β)))
  | received (areaID : IPAddress) (selfOriginated : Bool) (lsa : LSA (Contents β))

def step (routerID : IPAddress) (s : Origination β) : Event β → Except Empty (Origination β)
  | .interfaceChanged areaID contents => .ok (s.interfaceChanged routerID areaID contents)
  | .becomeDesignatedRouter areaID address contents =>
      .ok (s.becomeDesignatedRouter routerID areaID address contents)
  | .leaveDesignatedRouter areaID address => .ok (s.flush (.network areaID address))
  | .neighborChanged areaID contents =>
      .ok (s.reoriginate (.router areaID routerID) (some (originateRouterLSA routerID contents)))
  | .adjacencyChanged areaID address contents =>
      .ok (s.reoriginate (.network areaID address)
        (originateNetworkLSA routerID address contents))
  | .newRoot areaID contents =>
      .ok (s.install (.router areaID routerID) (originateRouterLSA routerID contents))
  | .routeChanged areaID destination destinationCost contents =>
      .ok (s.routeChanged routerID areaID destination destinationCost contents)
  | .boundaryRouterChanged areaID destinationID contents =>
      .ok (s.boundaryRouterChanged routerID areaID destinationID contents)
  | .rangeChanged areaID address cost => .ok (s.rangeChanged routerID areaID address cost)
  | .ageLSA k selfOriginated unreachable isRemovable fresh =>
      .ok (s.ageLSA k selfOriginated unreachable isRemovable fresh)
  | .received areaID selfOriginated lsa => .ok (s.received areaID selfOriginated lsa)

end Origination

end InetManet.OSPF
