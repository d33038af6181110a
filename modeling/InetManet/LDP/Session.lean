import InetManet.Network.Address
import InetManet.Library.TransitionSystem

/-!
# Label distribution

A router keeps a list of FECs, one for each route and one for each of its own addresses, the label
bindings it has learnt from downstream routers and those it has advertised upstream. An upstream
binding has an entry in the LIB table which swaps to the label learnt from the FEC's next hop, or pops
if the next hop is not an LDP peer. A request that cannot be answered yet stays pending.

The routing table is a parameter of the events that change it: a route change makes the router rebuild
its list of FECs.
-/

namespace InetManet

open TransitionSystem

namespace LDP

inductive Fault
  | libTable
  | assertion
  | notRoutable
  | unsupported
  | noSuchPeer
  deriving DecidableEq

/-! ## The LIB table -/

inductive LabelOp
  | swap (label : ℤ)
  | pop
  deriving DecidableEq

def popLabel : List LabelOp := [.pop]

def swapLabel (label : ℤ) : List LabelOp := [.swap label]

structure LIBEntry where
  inLabel : ℤ
  inInterface : String
  outLabel : List LabelOp
  outInterface : String
  color : ℕ
  deriving DecidableEq

structure LIBTable where
  maxLabel : ℤ
  lib : List LIBEntry
  deriving DecidableEq

/-- The first entry with the label is changed. -/
def replaceEntry (inLabel : ℤ) (entry : LIBEntry) : List LIBEntry → List LIBEntry
  | [] => []
  | e :: es => if e.inLabel = inLabel then entry :: es else e :: replaceEntry inLabel entry es

def LIBTable.installLibEntry (t : LIBTable) (inLabel : ℤ) (inInterface : String)
    (outLabel : List LabelOp) (outInterface : String) (color : ℕ) :
    Except Fault (ℤ × LIBTable) :=
  if inLabel = -1 then
    let newItem := ⟨t.maxLabel + 1, inInterface, outLabel, outInterface, color⟩
    .ok (t.maxLabel + 1, { maxLabel := t.maxLabel + 1, lib := t.lib ++ [newItem] })
  else if t.lib.any fun e ↦ e.inLabel = inLabel then
    let item := ⟨inLabel, inInterface, outLabel, outInterface, color⟩
    .ok (inLabel, { t with lib := replaceEntry inLabel item t.lib })
  else .error .libTable

def LIBTable.removeLibEntry (t : LIBTable) (inLabel : ℤ) : Except Fault LIBTable :=
  if t.lib.any fun e ↦ e.inLabel = inLabel then
    .ok { t with lib := t.lib.eraseP fun e ↦ e.inLabel = inLabel }
  else .error .libTable

/-! ## The state of a router -/

structure Fec where
  fecid : ℕ
  addr : IPAddress
  length : ℤ
  nextHop : IPAddress
  deriving DecidableEq

structure FecBind where
  fecid : ℕ
  peer : IPAddress
  label : ℤ
  deriving DecidableEq

structure PendingReq where
  fecid : ℕ
  peer : IPAddress
  deriving DecidableEq

/-- A TCP socket, with the position in the vector of peers that its callbacks get. -/
structure Socket where
  connected : Bool
  yourPtr : ℕ
  deriving DecidableEq

structure PeerInfo where
  peerIP : IPAddress
  linkInterface : String
  activeRole : Bool
  socket : Option Socket
  deriving DecidableEq

structure Route where
  host : IPAddress
  netmaskLength : ℤ
  direct : Bool
  gateway : IPAddress
  deriving DecidableEq

inductive PacketType
  | labelMapping
  | labelRequest
  | labelWithdraw
  | labelRelease
  | notification (noRoute : Bool)
  | other
  deriving DecidableEq

/-- Fields that a type of packet does not have are not read. -/
structure Packet where
  type : PacketType
  addr : IPAddress
  length : ℤ
  label : ℤ
  senderAddress : IPAddress
  deriving DecidableEq

/-- What the router reads from its routing table and interface table. -/
structure Routing where
  routes : List Route
  interfaceAddresses : List IPAddress
  /-- The interface to an address, `lo0` for the router's own ones. -/
  interfaceTo : IPAddress → Option String

def LDP_USER_TRAFFIC : ℕ := 100

/-- What `fecPrefixCompare` allows for neighbors in the list. -/
def noShorter (a b : Fec) : Prop := b.length ≤ a.length

/-- `std::sort` with `fecPrefixCompare`: FECs of the same length end up in any order. -/
structure FecSort where
  sort : List Fec → List Fec
  perm : ∀ fecs, (sort fecs).Perm fecs
  sorted : ∀ fecs, (sort fecs).Pairwise noShorter

end LDP

open LDP

structure LDP where
  routerId : IPAddress
  fecSort : FecSort
  routing : Routing
  fecList : List Fec
  fecUp : List FecBind
  fecDown : List FecBind
  pending : List PendingReq
  myPeers : List PeerInfo
  maxFecid : ℕ
  lt : LIBTable
  /-- Notifications to be processed again. -/
  retries : List Packet
  sent : List (IPAddress × Packet)

namespace LDP

def findBind (fecs : List FecBind) (fecid : ℕ) (peer : IPAddress) : Option FecBind :=
  fecs.find? fun b ↦ b.fecid = fecid && b.peer = peer

def Fec.is (addr : IPAddress) (length : ℤ) (fec : Fec) : Bool :=
  fec.length = length && fec.addr = addr

def findFecEntry (fecs : List Fec) (addr : IPAddress) (length : ℤ) : Option Fec :=
  fecs.find? (Fec.is addr length)

def findPeer (s : LDP) (peerAddr : IPAddress) : Option PeerInfo :=
  s.myPeers.find? fun p ↦ p.peerIP = peerAddr

/-- There is an LDP session with the peer. -/
def findPeerSocket (s : LDP) (peerAddr : IPAddress) : Bool :=
  (s.findPeer peerAddr).any fun p ↦ p.socket.any Socket.connected

def findInterfaceFromPeerAddr (s : LDP) (peerIP : IPAddress) : Except Fault String :=
  match s.routing.interfaceTo peerIP with
  | some name => .ok name
  | none => .error .notRoutable

/-! ## Sending -/

def sendToPeer (s : LDP) (dest : IPAddress) (packet : Packet) : Except Fault LDP :=
  if s.findPeerSocket dest then .ok { s with sent := s.sent ++ [(dest, packet)] }
  else .error .assertion

def sendMappingRequest (s : LDP) (dest addr : IPAddress) (length : ℤ) : Except Fault LDP :=
  s.sendToPeer dest ⟨.labelRequest, addr, length, 0, s.routerId⟩

def sendNotify (s : LDP) (dest addr : IPAddress) (length : ℤ) : Except Fault LDP :=
  s.sendToPeer dest ⟨.notification true, addr, length, 0, s.routerId⟩

def sendMapping (s : LDP) (type : PacketType) (dest : IPAddress) (label : ℤ) (addr : IPAddress)
    (length : ℤ) : Except Fault LDP :=
  s.sendToPeer dest ⟨type, addr, length, label, s.routerId⟩

/-! ## The list of FECs -/

/-- The LIB entry of an upstream binding is written. -/
def install (s : LDP) (bind : FecBind) (outLabel : List LabelOp) (nextHop : IPAddress)
    (color : ℕ) : Except Fault (LDP × FecBind) := do
  let inInterface ← s.findInterfaceFromPeerAddr bind.peer
  let outInterface ← s.findInterfaceFromPeerAddr nextHop
  let (label, lt) ← s.lt.installLibEntry bind.label inInterface outLabel outInterface color
  return ({ s with lt }, { bind with label })

/-- The binding after the change of the FEC, unless it is withdrawn. -/
def adjustBinding (fec : Fec) (dit : Option FecBind) (er : Bool) (s : LDP) (uit : FecBind) :
    Except Fault (LDP × Option FecBind) :=
  if uit.fecid ≠ fec.fecid then .ok (s, some uit)
  else if er then do
    let (s, uit) ← s.install uit popLabel fec.nextHop LDP_USER_TRAFFIC
    return (s, some uit)
  else match dit with
    | some dit => do
      let (s, uit) ← s.install uit (swapLabel dit.label) fec.nextHop LDP_USER_TRAFFIC
      return (s, some uit)
    | none => do
      let _ ← s.findInterfaceFromPeerAddr uit.peer
      let _ ← s.findInterfaceFromPeerAddr fec.nextHop
      let s ← s.sendMapping .labelWithdraw uit.peer uit.label fec.addr fec.length
      return (s, none)

def adjustUpstream (fec : Fec) (dit : Option FecBind) (er : Bool) :
    LDP → List FecBind → Except Fault (LDP × List FecBind)
  | s, [] => .ok (s, [])
  | s, uit :: rest => do
    let (s, uit) ← adjustBinding fec dit er s uit
    let (s, rest) ← adjustUpstream fec dit er s rest
    return (s, uit.toList ++ rest)

def updateFecListEntry (s : LDP) (oldItem : Fec) : Except Fault LDP := do
  let dit := findBind s.fecDown oldItem.fecid oldItem.nextHop
  let er := !s.findPeerSocket oldItem.nextHop
  if er && dit.isSome then .error .assertion
  else
    let (s, fecUp) ← adjustUpstream oldItem dit er s s.fecUp
    let s := { s with fecUp }
    if !er && dit.isNone then s.sendMappingRequest oldItem.nextHop oldItem.addr oldItem.length
    else return s

/-- Every FEC of the list with this next hop is updated. -/
def updateFecs (nextHop : IPAddress) : LDP → List Fec → Except Fault LDP
  | s, [] => .ok s
  | s, fec :: rest =>
    if fec.nextHop ≠ nextHop then updateFecs nextHop s rest
    else do
      let s ← s.updateFecListEntry fec
      updateFecs nextHop s rest

def updateFecList (s : LDP) (nextHop : IPAddress) : Except Fault LDP :=
  updateFecs nextHop s s.fecList

def Route.nextHop (re : Route) : IPAddress := if re.direct then re.host else re.gateway

/-- The FEC is updated if its next hop has changed. -/
def updateNextHop (s : LDP) (it : Fec) (nextHop : IPAddress) : Except Fault LDP :=
  if it.nextHop ≠ nextHop then s.updateFecListEntry { it with nextHop } else .ok s

/-- A FEC that was in the old list moves to the new one, with the new next hop. -/
def rebuildRoute (s : LDP) (oldList : List Fec) (re : Route) : Except Fault (LDP × List Fec) :=
  if re.host.isMulticast then .ok (s, oldList)
  else if re.nextHop = 0 then .error .assertion
  else match findFecEntry oldList re.host re.netmaskLength with
    | none => do
      let newItem := ⟨s.maxFecid + 1, re.host, re.netmaskLength, re.nextHop⟩
      let s ← { s with maxFecid := s.maxFecid + 1 }.updateFecListEntry newItem
      return ({ s with fecList := s.fecList ++ [newItem] }, oldList)
    | some it => do
      let s ← s.updateNextHop it re.nextHop
      return ({ s with fecList := s.fecList ++ [{ it with nextHop := re.nextHop }] },
        oldList.eraseP (Fec.is re.host re.netmaskLength))

def rebuildRoutes : LDP → List Fec → List Route → Except Fault (LDP × List Fec)
  | s, oldList, [] => .ok (s, oldList)
  | s, oldList, re :: rest => do
    let (s, oldList) ← s.rebuildRoute oldList re
    rebuildRoutes s oldList rest

/-- The router's own addresses are FECs too. -/
def rebuildAddresses : LDP → List Fec → List IPAddress → LDP × List Fec
  | s, oldList, [] => (s, oldList)
  | s, oldList, addr :: rest =>
    match findFecEntry oldList addr 32 with
    | none =>
      let newItem := ⟨s.maxFecid + 1, addr, 32, addr⟩
      rebuildAddresses { s with maxFecid := s.maxFecid + 1, fecList := s.fecList ++ [newItem] }
        oldList rest
    | some it =>
      rebuildAddresses { s with fecList := s.fecList ++ [it] } (oldList.eraseP (Fec.is addr 32)) rest

def release (it : Fec) (s : LDP) (dit : FecBind) : Except Fault LDP :=
  if dit.fecid = it.fecid then
    s.sendMapping .labelRelease dit.peer dit.label it.addr it.length
  else .ok s

def releaseDownstream (it : Fec) : LDP → List FecBind → Except Fault LDP
  | s, [] => .ok s
  | s, dit :: rest => do
    let s ← release it s dit
    releaseDownstream it s rest

def withdraw (it : Fec) (s : LDP) (uit : FecBind) : Except Fault LDP :=
  if uit.fecid = it.fecid then do
    let s ← s.sendMapping .labelWithdraw uit.peer uit.label it.addr it.length
    let lt ← s.lt.removeLibEntry uit.label
    return { s with lt }
  else .ok s

def withdrawUpstream (it : Fec) : LDP → List FecBind → Except Fault LDP
  | s, [] => .ok s
  | s, uit :: rest => do
    let s ← withdraw it s uit
    withdrawUpstream it s rest

/-- The bindings of the deprecated FECs are released and withdrawn. -/
def removeFecs : LDP → List Fec → Except Fault LDP
  | s, [] => .ok s
  | s, it :: rest => do
    let s ← releaseDownstream it s s.fecDown
    let s ← withdrawUpstream it s s.fecUp
    removeFecs s rest

section

variable (s : LDP)

def rebuildFecList : Except Fault LDP := do
  let addresses := s.routing.interfaceAddresses
  let (s, oldList) ← rebuildRoutes { s with fecList := [] } s.fecList s.routing.routes
  let (s, oldList) := rebuildAddresses s oldList addresses
  let s ← removeFecs s oldList
  return { s with fecList := s.fecSort.sort s.fecList }

/-! ## Peers -/

def processHelloTimeout (i : ℕ) : Except Fault LDP :=
  match s.myPeers[i]? with
  | none => .error .assertion
  | some peer =>
    if peer.socket.isNone then .error .assertion
    else { s with
      myPeers := s.myPeers.eraseIdx i
      fecDown := s.fecDown.filter fun dit ↦ dit.peer ≠ peer.peerIP
      fecUp := s.fecUp.filter fun uit ↦ uit.peer ≠ peer.peerIP }.updateFecList peer.peerIP

/-- The link is marked as working before, which may change routes. -/
def processLDPHello (peerAddr : IPAddress) (linkInterface : String) : LDP :=
  if peerAddr = 0 ∨ peerAddr = s.routerId then s
  else match s.findPeer peerAddr with
    | some _ => s
    | none =>
      let activeRole := s.routerId < peerAddr
      let socket := if activeRole then some ⟨false, s.myPeers.length⟩ else none
      { s with myPeers := s.myPeers ++ [⟨peerAddr, linkInterface, activeRole, socket⟩] }

/-- The callback gets the position that was stored with the socket. -/
def socketEstablished (yourPtr : ℕ) : Except Fault LDP :=
  match s.myPeers[yourPtr]? with
  | none => .error .noSuchPeer
  | some peer => s.updateFecList peer.peerIP

/-- The socket of the peer at this position is connected now. -/
def connect (i : ℕ) (peer : PeerInfo) (yourPtr : ℕ) : LDP :=
  { s with myPeers := s.myPeers.set i { peer with socket := some ⟨true, yourPtr⟩ } }

/-- A connection that the router opened is established. -/
def connectionEstablished (i : ℕ) : Except Fault LDP :=
  match s.myPeers[i]? with
  | none => .ok s
  | some peer =>
    match peer.socket with
    | none => .ok s
    | some socket => (s.connect i peer socket.yourPtr).socketEstablished socket.yourPtr

/-- A peer has opened a connection. -/
def incomingConnection (remoteAddr : IPAddress) : Except Fault LDP :=
  let i := s.myPeers.findIdx fun p ↦ p.peerIP = remoteAddr
  match s.myPeers[i]? with
  | none => .ok s
  | some peer =>
    if peer.socket.isSome then .ok s else (s.connect i peer i).socketEstablished i

/-! ## Messages -/

def processNOTIFICATION (packet : Packet) (isSelfMessage : Bool) : Except Fault LDP :=
  match findFecEntry s.fecList packet.addr packet.length with
  | none => .ok s
  | some it =>
    if it.nextHop = packet.senderAddress then
      if isSelfMessage then
        s.sendMappingRequest packet.senderAddress packet.addr packet.length
      else .ok { s with retries := s.retries ++ [packet] }
    else .ok s

/-- The request is answered with a new binding. -/
def answer (fec : Fec) (peer : IPAddress) (outLabel : List LabelOp)
    (outPeer : IPAddress) (color : ℕ) : Except Fault LDP := do
  let (s, uit) ← s.install ⟨fec.fecid, peer, -1⟩ outLabel outPeer color
  { s with fecUp := s.fecUp ++ [uit] }.sendMapping .labelMapping peer uit.label fec.addr fec.length

def processLABEL_REQUEST (packet : Packet) : Except Fault LDP :=
  match findFecEntry s.fecList packet.addr packet.length with
  | none => s.sendNotify packet.senderAddress packet.addr packet.length
  | some it =>
    if (findBind s.fecUp it.fecid packet.senderAddress).isSome then .error .assertion
    else
      let dit := findBind s.fecDown it.fecid it.nextHop
      let er := !s.findPeerSocket it.nextHop
      if er && dit.isSome then .error .assertion
      else if er then s.answer it packet.senderAddress popLabel it.nextHop 0
      else match dit with
        | some dit =>
          s.answer it packet.senderAddress (swapLabel dit.label) it.nextHop LDP_USER_TRAFFIC
        | none => do
          let _ ← s.findInterfaceFromPeerAddr packet.senderAddress
          let _ ← s.findInterfaceFromPeerAddr it.nextHop
          return { s with pending := s.pending ++ [⟨it.fecid, packet.senderAddress⟩] }

def processLABEL_RELEASE (packet : Packet) : Except Fault LDP :=
  if packet.label ≤ 0 then .error .assertion
  else match findFecEntry s.fecList packet.addr packet.length with
    | none => .ok s
    | some it =>
      match findBind s.fecUp it.fecid packet.senderAddress with
      | none => .ok s
      | some uit =>
        if packet.label ≠ uit.label then .ok s
        else do
          let lt ← s.lt.removeLibEntry uit.label
          return { s with lt, fecUp := s.fecUp.erase uit }

def processLABEL_WITHDRAW (packet : Packet) : Except Fault LDP :=
  if packet.label ≤ 0 then .error .assertion
  else match findFecEntry s.fecList packet.addr packet.length with
    | none => .ok s
    | some it =>
      match findBind s.fecDown it.fecid packet.senderAddress with
      | none => .ok s
      | some dit =>
        if packet.label ≠ dit.label then .ok s
        else do
          let s ← { s with fecDown := s.fecDown.erase dit }.sendToPeer packet.senderAddress
            { packet with type := .labelRelease }
          s.updateFecListEntry it

end

/-- The pending requests for the FEC are answered. -/
def answerPending (it : Fec) (label : ℤ) (fromIP : IPAddress) :
    LDP → List PendingReq → Except Fault (LDP × List PendingReq)
  | s, [] => .ok (s, [])
  | s, pit :: rest =>
    if pit.fecid ≠ it.fecid then do
      let (s, rest) ← answerPending it label fromIP s rest
      return (s, pit :: rest)
    else do
      let s ← s.answer it pit.peer (swapLabel label) fromIP LDP_USER_TRAFFIC
      answerPending it label fromIP s rest

def processLABEL_MAPPING (s : LDP) (packet : Packet) : Except Fault LDP :=
  if packet.label ≤ 0 then .error .assertion
  else match findFecEntry s.fecList packet.addr packet.length with
    | none => .error .assertion
    | some it =>
      if (findBind s.fecDown it.fecid packet.senderAddress).isSome then .error .assertion
      else do
        let newItem := ⟨it.fecid, packet.senderAddress, packet.label⟩
        let (s, pending) ← answerPending it packet.label packet.senderAddress
          { s with fecDown := s.fecDown ++ [newItem] } s.pending
        return { s with pending }

def processLDPPacketFromTCP (s : LDP) (packet : Packet) : Except Fault LDP :=
  match packet.type with
  | .labelMapping => s.processLABEL_MAPPING packet
  | .labelRequest => s.processLABEL_REQUEST packet
  | .labelWithdraw => s.processLABEL_WITHDRAW packet
  | .labelRelease => s.processLABEL_RELEASE packet
  | .notification true => s.processNOTIFICATION packet false
  | .notification false => .error .assertion
  | .other => .error .unsupported

/-- A packet arrives on the connected socket of the peer at this position. -/
def socketDataArrived (s : LDP) (i : ℕ) (packet : Packet) : Except Fault LDP :=
  match s.myPeers[i]? with
  | none => .ok s
  | some peer =>
    match peer.socket with
    | none => .ok s
    | some socket =>
      if socket.yourPtr < s.myPeers.length then s.processLDPPacketFromTCP packet
      else .error .noSuchPeer

inductive Event
  | hello (sender : IPAddress) (linkInterface : String)
  | helloTimeout (i : ℕ)
  | established (i : ℕ)
  | incoming (remoteAddr : IPAddress)
  | data (i : ℕ) (packet : Packet)
  | closed (i : ℕ)
  | retry (k : ℕ)
  | routesChanged (routing : Routing)

def handle (s : LDP) : Event → Except Fault LDP
  | .hello sender linkInterface => .ok (s.processLDPHello sender linkInterface)
  | .helloTimeout i => s.processHelloTimeout i
  | .established i => s.connectionEstablished i
  | .incoming remoteAddr => s.incomingConnection remoteAddr
  | .data i packet => s.socketDataArrived i packet
  | .closed _ => .error .assertion
  | .retry k =>
    match s.retries[k]? with
    | none => .ok s
    | some packet => { s with retries := s.retries.eraseIdx k }.processNOTIFICATION packet true
  | .routesChanged routing => { s with routing }.rebuildFecList

/-- A router before it builds its first list of FECs, with the LIB table it finds. -/
def fresh (routerId : IPAddress) (fecSort : FecSort) (lt : LIBTable) (routing : Routing) : LDP where
  routerId
  fecSort
  routing
  fecList := []
  fecUp := []
  fecDown := []
  pending := []
  myPeers := []
  maxFecid := 0
  lt
  retries := []
  sent := []

end LDP

end InetManet
