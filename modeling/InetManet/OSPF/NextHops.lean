import InetManet.Library.LabelledSearch
import InetManet.OSPF.RoutingTable
import InetManet.OSPF.ShortestPathTree

/-!
# Next hops

While the shortest path tree of an area grows, its vertices get next hops. Those of a vertex next to the
root, or behind a network next to the root, are looked up in the interfaces of the router, and others are
taken over from the vertex before. Of a neighbor only its ID and address are read here.
-/

namespace InetManet.OSPF.Routing

open Dijkstra

inductive OSPFInterfaceType
  | pointToPoint
  | broadcast
  | nbma
  | pointToMultiPoint
  | virtual
  deriving DecidableEq

structure InterfaceNeighbor where
  neighborID : IPAddress
  address : IPAddress

/-- An interface of the area; `aboveLoopback` tells that its state is above `LoopbackState`. -/
structure AreaInterface where
  type : OSPFInterfaceType
  ifIndex : BitVec 8
  aboveLoopback : Bool
  addressRange : IPv4AddressRange
  designatedRouter : IPAddress
  neighbors : List InterfaceNeighbor

structure HostRouteParameters where
  ifIndex : BitVec 8
  address : IPAddress

/-- The interfaces and host routes of an area, and the advertising routers of its LSAs. -/
structure HopConfiguration where
  associatedInterfaces : List AreaInterface
  hostRoutes : List HostRouteParameters
  advertisingRouter : Vertex → IPAddress

namespace AreaInterface

variable (intf : AreaInterface)

def getNeighborByID (neighborID : IPAddress) : Option InterfaceNeighbor :=
  intf.neighbors.find? fun neighbor ↦ neighbor.neighborID == neighborID

def isPointToPoint : Bool :=
  intf.type == .pointToPoint || intf.type == .virtual && intf.aboveLoopback

def isMultiAccess : Bool := intf.type == .broadcast || intf.type == .nbma

/-- The hops to a router, if the interface leads to it. -/
def hopsToRouter (rootID advertisingRouter : IPAddress) (destination : RouterLSA) :
    Option (List NextHop) :=
  if intf.isPointToPoint then
    match intf.neighbors.head? with
    | some neighbor =>
      if neighbor.neighborID = destination.linkStateID then
        some [⟨intf.ifIndex, neighbor.address, advertisingRouter⟩]
      else none
    | none => none
  else if intf.type = .pointToMultiPoint then
    match intf.getNeighborByID destination.linkStateID with
    | some _ => some ((destination.links.filter (·.linkID == rootID)).map fun link ↦
        ⟨intf.ifIndex, link.linkData, advertisingRouter⟩)
    | none => none
  else none

/-- The hop to a network that is attached to the interface. -/
def hopToNetwork (advertisingRouter linkStateID : IPAddress) : Option NextHop :=
  if intf.isMultiAccess && intf.designatedRouter == linkStateID then
    some ⟨intf.ifIndex, intf.addressRange.address &&& intf.addressRange.mask, advertisingRouter⟩
  else none

/-- The hop to a router on a network that is attached to the interface. -/
def hopOverNetwork (advertisingRouter networkID routerID : IPAddress) :
    Option NextHop :=
  if intf.isMultiAccess && intf.designatedRouter == networkID then
    (intf.getNeighborByID routerID).map fun neighbor ↦ ⟨intf.ifIndex, neighbor.address, advertisingRouter⟩
  else none

/-- The hop for a stub link of the root. -/
def hopForStub (rootID : IPAddress) (destination : Link) : Option NextHop :=
  let range := intf.addressRange
  if intf.isPointToPoint then
    match intf.neighbors.head? with
    | some neighbor =>
      if neighbor.address ≠ 0 ∧ uLongFromIPv4Address neighbor.address = destination.linkID.setWidth 64 ∨
          neighbor.address = 0 ∧ uLongFromIPv4Address range.address = destination.linkID.setWidth 64 ∧
            range.mask = destination.linkData then
        some ⟨intf.ifIndex, neighbor.address, rootID⟩
      else none
    | none => none
  else if intf.isMultiAccess then
    if destination.linkID.setWidth 64 = uLongFromIPv4Address (range.address &&& range.mask) ∧
        destination.linkData = range.mask then
      some ⟨intf.ifIndex, destination.linkID, rootID⟩
    else none
  else if intf.type = .pointToMultiPoint then
    if destination.type = .stubLink then
      if destination.linkID.setWidth 64 = uLongFromIPv4Address range.address then
        some ⟨intf.ifIndex, range.address, rootID⟩
      else none
    else if destination.type = .pointToPointLink then
      (intf.getNeighborByID destination.linkID).map fun neighbor ↦ ⟨intf.ifIndex, neighbor.address, rootID⟩
    else none
  else none

end AreaInterface

section

variable (conf : HopConfiguration) (db : AreaDatabase) (root : IPAddress)

/-- The hops over the interfaces of the root to a vertex next to it. -/
def hopsFromRoot (destination : Vertex) : List NextHop :=
  match db.lsa destination with
  | some (.router lsa) =>
    (conf.associatedInterfaces.findSome? fun intf ↦
      intf.hopsToRouter root (conf.advertisingRouter destination) lsa).getD []
  | some (.network lsa) =>
    conf.associatedInterfaces.filterMap fun intf ↦
      intf.hopToNetwork (conf.advertisingRouter destination) lsa.linkStateID
  | none => []

/-- The hops over the interfaces of the root to a router behind a network. -/
def hopsOverNetwork (parent : NetworkLSA) (destination : Vertex) : List NextHop :=
  match db.lsa destination with
  | some (.router lsa) =>
    lsa.links.flatMap fun link ↦
      if link.type = .transitLink ∧ link.linkID = parent.linkStateID ∨
          link.type = .stubLink ∧
            link.linkID &&& link.linkData = parent.linkStateID &&& parent.networkMask then
        conf.associatedInterfaces.filterMap fun intf ↦
          intf.hopOverNetwork (conf.advertisingRouter destination) parent.linkStateID lsa.linkStateID
      else []
  | _ => []

/-- The hops of the destination over a vertex that is on the tree. -/
def calculateNextHops (parentHops : List NextHop) (parentOfParent parent destination : Vertex) :
    List NextHop :=
  match db.lsa parent with
  | some (.router lsa) =>
    if lsa.linkStateID ≠ root then parentHops else hopsFromRoot conf db root destination
  | some (.network lsa) =>
    if parentOfParent ≠ .router root then parentHops else hopsOverNetwork conf db lsa destination
  | none => []

/-- The hops of a stub link. -/
def calculateStubNextHops (parentHops : List NextHop) (parent : IPAddress) (destination : Link) :
    List NextHop :=
  if parent ≠ root then parentHops
  else
    match conf.associatedInterfaces.findSome? (·.hopForStub root destination) with
    | some hop => [hop]
    | none =>
      match conf.hostRoutes.find? fun route ↦
          destination.linkID.setWidth 64 == uLongFromIPv4Address route.address &&
            destination.linkData == 0xFFFFFFFF with
      | some route => [⟨route.ifIndex, route.address, root⟩]
      | none => []

/-! ## The tree with its next hops -/

abbrev HopSearch := LabelledSearch Vertex NextHop

/-- The loop over the links of a router. -/
def expandRouter (s : HopSearch) (lsa : RouterLSA) : HopSearch :=
  lsa.links.foldl (fun s link ↦
    if link.type = .stubLink then s
    else if db.join (.router lsa) (AreaDatabase.joiningVertex link) then
      s.visit (calculateNextHops conf db root) (.router lsa.linkStateID)
        (s.dist (.router lsa.linkStateID) + link.linkCost) (AreaDatabase.joiningVertex link)
    else s) s

/-- The loop over the attached routers of a network. -/
def expandNetwork (s : HopSearch) (lsa : NetworkLSA) : HopSearch :=
  lsa.attachedRouters.foldl (fun s id ↦
    if db.join (.network lsa) (.router id) then
      s.visit (calculateNextHops conf db root) (.network lsa.linkStateID)
        (s.dist (.network lsa.linkStateID)) (.router id)
    else s) s

def expandVertex (s : HopSearch) (justAdded : Vertex) : HopSearch :=
  match db.lsa justAdded with
  | none => s
  | some (.router lsa) => expandRouter conf db root s lsa
  | some (.network lsa) => expandNetwork conf db root s lsa

/-- The outer loop. -/
def grow : ℕ → HopSearch → Vertex → Except SpfFault HopSearch
  | 0, _, _ => .error .endless
  | fuel + 1, s, justAdded =>
      let s := expandVertex conf db root s justAdded
      match s.candidates with
      | [] => .ok s
      | first :: _ =>
          let w := (s.candidates.foldl (closest s.dist) (first, lsInfinity)).1
          grow fuel (s.select w) w

/-- The tree with the distances and the next hops of its vertices, which are cleared at first. -/
def calculateShortestPathTree : Except SpfFault HopSearch :=
  grow conf db root (db.routerLSAs.length + db.networkLSAs.length + 1)
    ⟨⟨[.router root], [], fun _ ↦ 0⟩, fun _ ↦ [], fun v ↦ v⟩ (.router root)

/-! ## The rule -/

/-- `p` comes before `w` on some shortest path. -/
def Precedes (p w : Vertex) : Prop :=
  ∃ d c fromLSA toLSA, IsLeast {d | db.ConfirmedPath (.router root) p d} d ∧
    db.Confirmed p w c fromLSA toLSA ∧ IsLeast {d | db.ConfirmedPath (.router root) w d} (d + c)

/-- A link of the root is a shortest path to the network. -/
def AttachedToRoot (networkID : IPAddress) : Prop :=
  ∃ c fromLSA toLSA, db.Confirmed (.router root) (.network networkID) c fromLSA toLSA ∧
    IsLeast {d | db.ConfirmedPath (.router root) (.network networkID) d} c

/-- A hop to `w` over `p`: over an interface if `p` is the root or a network that is attached to it, and
otherwise a hop to `p`. -/
def IsHopOver (hops : Vertex → List NextHop) (p w : Vertex) (hop : NextHop) : Prop :=
  match p with
  | .router id => if id = root then hop ∈ hopsFromRoot conf db root w else hop ∈ hops p
  | .network id => (AttachedToRoot db root id ∧
        ∃ lsa, db.findNetworkLSA id = some lsa ∧ hop ∈ hopsOverNetwork conf db lsa w) ∨
      ¬ AttachedToRoot db root id ∧ hop ∈ hops p

/-- Each vertex has the hops over the vertices that precede it. -/
def HopsMatch (s : HopSearch) : Prop :=
  ∀ w ∈ s.tree, w ≠ .router root → ∀ hop, hop ∈ s.labels w ↔
    ∃ p, Precedes db root p w ∧ IsHopOver conf db root s.labels p w hop

end

end InetManet.OSPF.Routing
