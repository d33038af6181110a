import Mathlib.Data.Prod.Lex
import Mathlib.Logic.Relation
import InetManet.Library.TransitionSystem
import InetManet.Network.Address

/-!
# DYMO

The nodes of a network exchange routing messages and route errors. A routing message carries blocks with
the sequence numbers and distances of nodes, from which the nodes it reaches make routes. Packets that have
been sent may be delivered in any order, any number of times or never. Addresses are those of single nodes.
Timers, which only delete routes, rate limits and the loss of a node's own sequence number, which only hold
back messages, and data packets are left out.
-/

namespace InetManet.DYMO

open TransitionSystem

abbrev SeqNum := BitVec 16

inductive Fault
  | noSeqNum
  | noRoute
  | fineRoute
  deriving DecidableEq

structure AddressBlock where
  address : IPAddress
  seqNum : Option SeqNum
  dist : Option ℕ
  deriving DecidableEq

structure RoutingEntry where
  routeAddress : IPAddress
  routeSeqNum : SeqNum
  routeNextHopAddress : IPAddress
  routeNextHopInterface : ℕ
  routeBroken : Bool
  routeDist : ℕ
  deriving DecidableEq

inductive RMKind
  | rreq
  | rrep
  deriving DecidableEq

structure RoutingMessage where
  kind : RMKind
  msgHdrHopLimit : ℤ
  origNode : AddressBlock
  targetNode : AddressBlock
  additionalNodes : List AddressBlock
  deriving DecidableEq

structure RouteError where
  msgHdrHopLimit : ℤ
  unreachableNodes : List AddressBlock
  deriving DecidableEq

inductive Message
  | rm (m : RoutingMessage)
  | rerr (rerr : RouteError)
  deriving DecidableEq

/-- A message to one node or, without `destAddr`, to all neighbors. -/
structure Packet where
  sourceAddr : IPAddress
  destAddr : Option IPAddress
  message : Message
  deriving DecidableEq

structure Node where
  ownSeqNum : SeqNum
  routingTable : List RoutingEntry
  deriving DecidableEq

/-! ## Sequence numbers -/

def incSeqNum (ownSeqNum : SeqNum) : SeqNum := if ownSeqNum = 0xffff then 0x0100 else ownSeqNum + 1

def seqNumIsFresher (seqNumInQuestion referenceSeqNum : SeqNum) : Bool :=
  referenceSeqNum.toInt - seqNumInQuestion.toInt < 0

/-- A distance is stored in a byte. -/
def toDist (dist : ℕ) : ℕ := dist % 256

namespace AddressBlock

def incrementDistIfAvailable (ab : AddressBlock) : AddressBlock := { ab with dist := ab.dist.map (· + 1) }

/-- The distance at a node that receives the block. -/
def nodeDist (ab : AddressBlock) : ℕ := (ab.dist.map (· + 1)).getD 0

/-- Passing on the block would overflow its distance. -/
def overflows (ab : AddressBlock) : Bool := ab.dist.any (0xFF - 1 ≤ ·)

end AddressBlock

/-! ## Updates of the table -/

def getForAddress (routingTable : List RoutingEntry) (addr : IPAddress) : Option RoutingEntry :=
  routingTable.find? fun entry ↦ entry.routeAddress == addr

/-- The entry of the address is overwritten, or a new one added. -/
def setRoute (routingTable : List RoutingEntry) (new : RoutingEntry) : List RoutingEntry :=
  if (getForAddress routingTable new.routeAddress).isSome then
    routingTable.map fun entry ↦ if entry.routeAddress = new.routeAddress then new else entry
  else routingTable ++ [new]

def isRBlockBetter (entry : RoutingEntry) (ab : AddressBlock) (seqNum : SeqNum) (isRREQ : Bool) : Bool :=
  if seqNumIsFresher entry.routeSeqNum seqNum then false
  else if seqNum = entry.routeSeqNum then
    if ab.nodeDist = 0 then false
    else if entry.routeDist = 0 then false
    else if entry.routeDist + 1 < ab.nodeDist then false
    else if entry.routeDist < ab.nodeDist then false
    else if ab.nodeDist = entry.routeDist ∧ entry.routeBroken = false ∧ isRREQ = true then false
    else true
  else true

/-- The block is better than the entry for its address, if there is one. -/
def isSuperior (routingTable : List RoutingEntry) (ab : AddressBlock) (seqNum : SeqNum) (isRREQ : Bool) :
    Bool :=
  match getForAddress routingTable ab.address with
  | some entry => isRBlockBetter entry ab seqNum isRREQ
  | none => true

section

variable (isRREQ : Bool) (nextHopAddress : IPAddress) (nextHopInterface : ℕ)

def routeFromBlock (ab : AddressBlock) (seqNum : SeqNum) : RoutingEntry where
  routeAddress := ab.address
  routeSeqNum := seqNum
  routeNextHopAddress := nextHopAddress
  routeNextHopInterface := nextHopInterface
  routeBroken := false
  routeDist := ab.nodeDist

/-- The table and whether the block was better than its entry. -/
def updateRoutesFromAddressBlock (routingTable : List RoutingEntry) (ab : AddressBlock) :
    Except Fault (List RoutingEntry × Bool) :=
  match ab.seqNum with
  | none => .error .noSeqNum
  | some seqNum =>
    if isSuperior routingTable ab seqNum isRREQ then
      .ok (setRoute routingTable (routeFromBlock nextHopAddress nextHopInterface ab seqNum), true)
    else .ok (routingTable, false)

/-- The loop over the additional nodes, with the blocks that are kept. It ends at a block of the node
itself. -/
def updateAdditional (myAddr : IPAddress) :
    List RoutingEntry → List AddressBlock → Except Fault (List RoutingEntry × Option (List AddressBlock))
  | routingTable, [] => .ok (routingTable, some [])
  | routingTable, ab :: abs =>
    if ab.address = myAddr then .ok (routingTable, none)
    else do
      let (routingTable, better) ←
        updateRoutesFromAddressBlock isRREQ nextHopAddress nextHopInterface routingTable ab
      let (routingTable, kept) ← updateAdditional myAddr routingTable abs
      .ok (routingTable, kept.map fun l ↦ if better then ab :: l else l)

end

/-- The last node that has added a block is taken for the node that has sent the message. -/
def getNextHopAddress (m : RoutingMessage) : IPAddress :=
  match m.additionalNodes.getLast? with
  | some ab => ab.address
  | none => m.origNode.address

/-- The table, and the message unless it is dropped. -/
def updateRoutes (myAddr : IPAddress) (nextHopInterface : ℕ) (routingTable : List RoutingEntry)
    (m : RoutingMessage) : Except Fault (List RoutingEntry × Option RoutingMessage) :=
  if m.origNode.address = myAddr then .ok (routingTable, none)
  else do
    let isRREQ := m.kind == .rreq
    let (routingTable, superior) ← updateRoutesFromAddressBlock isRREQ (getNextHopAddress m)
      nextHopInterface routingTable m.origNode
    let (routingTable, kept) ← updateAdditional isRREQ (getNextHopAddress m) nextHopInterface myAddr
      routingTable m.additionalNodes
    .ok (routingTable, kept.bind fun additionalNodes ↦
      if superior then some { m with additionalNodes } else none)

/-! ## Messages -/

section

variable (maxHopLimit : ℤ) (myAddr : IPAddress) (node : Node)

def ownBlock (seqNum : SeqNum) : AddressBlock := ⟨myAddr, some seqNum, some 0⟩

/-- A sequence number is only included if it is known. -/
def knownSeqNum (seqNum : SeqNum) : Option SeqNum := if seqNum = 0 then none else some seqNum

def knownDist (dist : ℕ) : Option ℕ := if dist = 0 then none else some (toDist dist)

def sendRERR (targetAddr : IPAddress) (targetSeqNum : SeqNum) : Except Fault (List Packet) :=
  let unode : AddressBlock := ⟨targetAddr, knownSeqNum targetSeqNum, none⟩
  let send (l : List AddressBlock) : List Packet := [⟨myAddr, none, .rerr ⟨maxHopLimit, unode :: l⟩⟩]
  match getForAddress node.routingTable targetAddr with
  | none => .ok (send [])
  | some brokenEntry =>
    if brokenEntry.routeBroken then
      .ok (send ((node.routingTable.filter fun entry ↦
        entry.routeNextHopAddress == brokenEntry.routeNextHopAddress &&
          entry.routeNextHopInterface == brokenEntry.routeNextHopInterface).map fun entry ↦
        ⟨entry.routeAddress, knownSeqNum entry.routeSeqNum, none⟩))
    else .error .fineRoute

def sendRREQ (destAddr : IPAddress) (msgHdrHopLimit : ℤ) (targetSeqNum : SeqNum) (targetDist : ℕ) :
    Node × List Packet :=
  let ownSeqNum := incSeqNum node.ownSeqNum
  ({ node with ownSeqNum }, [⟨myAddr, none, .rm {
    kind := .rreq
    msgHdrHopLimit
    origNode := ownBlock myAddr ownSeqNum
    targetNode := ⟨destAddr, knownSeqNum targetSeqNum, knownDist targetDist⟩
    additionalNodes := [] }⟩])

def sendReply (destAddr : IPAddress) (tSeqNum : SeqNum) : Except Fault (Node × List Packet) :=
  match getForAddress node.routingTable destAddr with
  | none => .error .noRoute
  | some entry =>
    let ownSeqNum :=
      if tSeqNum = 0 ∨ seqNumIsFresher node.ownSeqNum tSeqNum = true then incSeqNum node.ownSeqNum
      else node.ownSeqNum
    .ok ({ node with ownSeqNum }, [⟨myAddr, some entry.routeNextHopAddress, .rm {
      kind := .rrep
      msgHdrHopLimit := maxHopLimit
      origNode := ownBlock myAddr ownSeqNum
      targetNode := ⟨destAddr, some entry.routeSeqNum, some (toDist entry.routeDist)⟩
      additionalNodes := [] }⟩])

/-- Replies to both ends, each with a block for the other end after the originator's, which is the node
itself. -/
def sendReplyAsIntermediateRouter (origNode targetNode : AddressBlock) (routeToTargetNode : RoutingEntry) :
    Except Fault (Node × List Packet) :=
  match getForAddress node.routingTable origNode.address with
  | none => .error .noRoute
  | some routeToOrigNode =>
    let ownSeqNum := incSeqNum node.ownSeqNum
    let origDist := origNode.dist.map fun dist ↦ toDist (dist + 1)
    .ok ({ node with ownSeqNum },
      [⟨myAddr, some routeToOrigNode.routeNextHopAddress, .rm {
        kind := .rrep
        msgHdrHopLimit := maxHopLimit
        origNode := ownBlock myAddr ownSeqNum
        targetNode := ⟨origNode.address, origNode.seqNum, origDist⟩
        additionalNodes := [⟨routeToTargetNode.routeAddress, knownSeqNum routeToTargetNode.routeSeqNum,
          knownDist routeToTargetNode.routeDist⟩] }⟩,
      ⟨myAddr, some routeToTargetNode.routeNextHopAddress, .rm {
        kind := .rrep
        msgHdrHopLimit := maxHopLimit
        origNode := ownBlock myAddr ownSeqNum
        targetNode := targetNode
        additionalNodes := [⟨origNode.address, origNode.seqNum, origDist⟩] }⟩])

/-- The message goes on with a block of this node at its end. -/
def relay (m : RoutingMessage) (destAddr : Option IPAddress) : Node × List Packet :=
  if m.origNode.overflows then (node, [])
  else
    let ownSeqNum := incSeqNum node.ownSeqNum
    let additionalNodes := (m.additionalNodes.filter (!·.overflows)).map (·.incrementDistIfAvailable)
    let msgHdrHopLimit := m.msgHdrHopLimit - 1
    ({ node with ownSeqNum },
      if msgHdrHopLimit < 1 then []
      else [⟨myAddr, destAddr, .rm { m with
        msgHdrHopLimit
        origNode := m.origNode.incrementDistIfAvailable
        additionalNodes := additionalNodes ++ [ownBlock myAddr ownSeqNum] }⟩])

def handleLowerRMForRelay (m : RoutingMessage) : Except Fault (Node × List Packet) :=
  let known := getForAddress node.routingTable m.targetNode.address
  match m.kind, known.filter (!·.routeBroken) with
  | .rrep, none => do
    let packets ← sendRERR maxHopLimit myAddr node m.targetNode.address
      ((known.map (·.routeSeqNum)).getD 0)
    .ok (node, packets)
  | .rrep, some entry => .ok (relay myAddr node m (some entry.routeNextHopAddress))
  | .rreq, none => .ok (relay myAddr node m none)
  | .rreq, some entry =>
    if m.targetNode.seqNum.any (!seqNumIsFresher · entry.routeSeqNum) then
      sendReplyAsIntermediateRouter maxHopLimit myAddr node m.origNode m.targetNode entry
    else .ok (relay myAddr node m none)

def handleLowerRMForMe (m : RoutingMessage) : Except Fault (Node × List Packet) :=
  match m.kind with
  | .rreq => sendReply maxHopLimit myAddr node m.origNode.address (m.targetNode.seqNum.getD 0)
  | .rrep => .ok (node, [])

def handleLowerRM (nextHopInterface : ℕ) (m : RoutingMessage) : Except Fault (Node × List Packet) := do
  let (routingTable, result) ← updateRoutes myAddr nextHopInterface node.routingTable m
  match result with
  | none => .ok ({ node with routingTable }, [])
  | some m =>
    if myAddr = m.targetNode.address then handleLowerRMForMe maxHopLimit myAddr { node with routingTable } m
    else handleLowerRMForRelay maxHopLimit myAddr { node with routingTable } m

def isMulticast (addr : IPAddress) : Bool := addr >>> 28 == 0xE

/-- The route goes over the sender of the error and is not fresher than it. -/
def invalidates (sourceAddr : IPAddress) (sourceInterface : ℕ) (unreachableNode : AddressBlock)
    (entry : RoutingEntry) : Bool :=
  !entry.routeBroken && entry.routeAddress == unreachableNode.address &&
    entry.routeNextHopAddress == sourceAddr && entry.routeNextHopInterface == sourceInterface &&
    (entry.routeSeqNum == 0 ||
      unreachableNode.seqNum.all (!seqNumIsFresher entry.routeSeqNum ·))

def breakRoutes (p : RoutingEntry → Bool) (routingTable : List RoutingEntry) : List RoutingEntry :=
  routingTable.map fun entry ↦ if p entry then { entry with routeBroken := true } else entry

/-- One unreachable node, with the blocks to forward so far. -/
def invalidateRoutes (sourceAddr : IPAddress) (sourceInterface : ℕ)
    (s : List RoutingEntry × List AddressBlock) (unreachableNode : AddressBlock) :
    List RoutingEntry × List AddressBlock :=
  if isMulticast unreachableNode.address then s
  else
    let p := invalidates sourceAddr sourceInterface unreachableNode
    (breakRoutes p s.1, s.2 ++ (s.1.filter p).map fun entry ↦ { unreachableNode with
      seqNum := if entry.routeSeqNum = 0 then unreachableNode.seqNum else some entry.routeSeqNum
      dist := none })

def handleLowerRERR (sourceAddr : IPAddress) (sourceInterface : ℕ) (rerr : RouteError) :
    Node × List Packet :=
  let (routingTable, unreachableNodes) :=
    rerr.unreachableNodes.foldl (invalidateRoutes sourceAddr sourceInterface) (node.routingTable, [])
  ({ node with routingTable },
    if unreachableNodes.isEmpty || rerr.msgHdrHopLimit ≤ 1 then []
    else [⟨myAddr, none, .rerr ⟨rerr.msgHdrHopLimit - 1, unreachableNodes⟩⟩])

/-- The link layer could not deliver a packet for the destination: all routes over its next hop break. -/
def packetFailed (destAddr : IPAddress) : Except Fault Node :=
  match getForAddress node.routingTable destAddr with
  | none => .error .noRoute
  | some failed => .ok { node with
      routingTable := breakRoutes (·.routeNextHopAddress == failed.routeNextHopAddress) node.routingTable }

end

/-! ## The network -/

/-- The nodes, by their addresses, and all packets that have been sent. -/
structure Network where
  node : IPAddress → Node
  packets : List Packet

/-- What can happen: a node asks for a route, with whatever it knows of the target, a packet is delivered
on an interface of a node, the link layer of a node reports a failure, or a node has no route for a
packet of another one. -/
inductive Event
  | sendRREQ (myAddr destAddr : IPAddress) (msgHdrHopLimit : ℤ) (targetSeqNum : SeqNum) (targetDist : ℕ)
  | deliver (receiver : IPAddress) (interface : ℕ) (packet : Packet)
  | packetFailed (myAddr destAddr : IPAddress)
  | sendRERR (myAddr targetAddr : IPAddress) (targetSeqNum : SeqNum)
  deriving DecidableEq

def Network.set (net : Network) (myAddr : IPAddress) (r : Node × List Packet) : Network :=
  ⟨Function.update net.node myAddr r.1, net.packets ++ r.2⟩

section

variable (maxHopLimit : ℤ)

def receive (myAddr : IPAddress) (node : Node) (interface : ℕ) (packet : Packet) :
    Except Fault (Node × List Packet) :=
  match packet.message with
  | .rm m => handleLowerRM maxHopLimit myAddr node interface m
  | .rerr rerr => .ok (handleLowerRERR myAddr node packet.sourceAddr interface rerr)

def step (net : Network) : Event → Except Fault Network
  | .sendRREQ myAddr destAddr msgHdrHopLimit targetSeqNum targetDist =>
    .ok (net.set myAddr (sendRREQ myAddr (net.node myAddr) destAddr msgHdrHopLimit targetSeqNum targetDist))
  | .deliver receiver interface packet =>
    (receive maxHopLimit receiver (net.node receiver) interface packet).map (net.set receiver)
  | .packetFailed myAddr destAddr =>
    (packetFailed (net.node myAddr) destAddr).map fun node ↦ net.set myAddr (node, [])
  | .sendRERR myAddr targetAddr targetSeqNum =>
    (sendRERR maxHopLimit myAddr (net.node myAddr) targetAddr targetSeqNum).map fun packets ↦
      net.set myAddr (net.node myAddr, packets)

end

/-- Packets are delivered that have been sent, to their receiver or to any other node. -/
def Possible (net : Network) : Event → Prop
  | .deliver receiver _ packet => packet ∈ net.packets ∧ receiver ≠ packet.sourceAddr ∧
      (packet.destAddr = none ∨ packet.destAddr = some receiver)
  | _ => True

instance (net : Network) : ∀ event, Decidable (Possible net event)
  | .sendRREQ .. => inferInstanceAs (Decidable True)
  | .deliver .. => inferInstanceAs (Decidable (_ ∧ _ ∧ _))
  | .packetFailed .. => inferInstanceAs (Decidable True)
  | .sendRERR .. => inferInstanceAs (Decidable True)

/-- The node taken for the sender of the message is the sender. -/
def NamesSender (packet : Packet) : Prop :=
  match packet.message with
  | .rm m => getNextHopAddress m = packet.sourceAddr
  | .rerr _ => True

instance (packet : Packet) : Decidable (NamesSender packet) :=
  match packet with
  | ⟨_, _, .rm _⟩ => inferInstanceAs (Decidable (_ = _))
  | ⟨_, _, .rerr _⟩ => inferInstanceAs (Decidable True)

def DeliversNamed : Event → Prop
  | .deliver _ _ packet => NamesSender packet
  | _ => True

instance : ∀ event, Decidable (DeliversNamed event)
  | .sendRREQ .. => inferInstanceAs (Decidable True)
  | .deliver _ _ packet => inferInstanceAs (Decidable (NamesSender packet))
  | .packetFailed .. => inferInstanceAs (Decidable True)
  | .sendRERR .. => inferInstanceAs (Decidable True)

/-- No routes and no packets yet. -/
def Initial (net : Network) : Prop := (∀ addr, net.node addr = ⟨1, []⟩) ∧ net.packets = []

/-! ## Loop freedom -/

/-- The order of `isRBlockBetter`: fresher sequence numbers first, then shorter distances. -/
def rank (seqNum : SeqNum) (dist : ℕ) : ℤ ×ₗ ℕ := toLex (-seqNum.toInt, dist)

def RoutingEntry.rank (entry : RoutingEntry) : ℤ ×ₗ ℕ := DYMO.rank entry.routeSeqNum entry.routeDist

/-- The hop from `v` on the way to `dest`. -/
def Hop (net : Network) (dest v w : IPAddress) : Prop :=
  ∃ entry, getForAddress (net.node v).routingTable dest = some entry ∧ entry.routeBroken = false ∧
    entry.routeNextHopAddress = w

/-- No way returns to a node, and each hop to a node other than the destination leads to a better route. -/
structure LoopFree (net : Network) : Prop where
  acyclic : ∀ dest v, ¬ Relation.TransGen (Hop net dest) v v
  improves : ∀ dest v entry, getForAddress (net.node v).routingTable dest = some entry →
    entry.routeBroken = false → entry.routeNextHopAddress ≠ dest →
    ∃ next, getForAddress (net.node entry.routeNextHopAddress).routingTable dest = some next ∧
      next.rank < entry.rank

end InetManet.DYMO
