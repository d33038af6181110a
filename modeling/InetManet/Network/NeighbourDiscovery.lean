import InetManet.Library.Loops
import InetManet.Library.OrderedMap
import InetManet.Network.Address
import Mathlib.Algebra.Order.Field.Rat
import Mathlib.Control.Monad.Basic
import Mathlib.Logic.Function.Basic
import Mathlib.Data.Prod.Lex

/-!
# IPv6 neighbour discovery

Datagrams that come from IPv6 wait at the entry of their next hop until its link-layer address is
known. An entry of the neighbour cache is a node of the map and stays at its address until it is
removed; the self messages of address resolution and of unreachability detection have this address as
context pointer. Datagrams are numbered as they arrive. The log is what has happened so far, the newest
first.
-/

namespace InetManet

namespace NeighbourDiscovery

abbrev MACAddress := BitVec 48

inductive ReachabilityState
  | incomplete
  | reachable
  | stale
  | delay
  | probe
  deriving DecidableEq

structure Key where
  address : IPv6Address
  interfaceID : ℤ
  deriving DecidableEq

/-- Keys are ordered by interface, then by address. -/
def Key.toPair (k : Key) : ℤ ×ₗ ℕ := toLex (k.interfaceID, k.address.toNat)

theorem Key.toPair_injective : Function.Injective Key.toPair := by
  rintro ⟨a, i⟩ ⟨a', i'⟩ h
  simp only [Key.toPair, EmbeddingLike.apply_eq_iff_eq, Prod.mk.injEq] at h
  obtain ⟨rfl, haddress⟩ := h
  rw [BitVec.eq_of_toNat_eq haddress]

instance : LinearOrder Key := LinearOrder.lift' Key.toPair Key.toPair_injective

/-- An entry of the neighbour cache. A timer that was never set is `none`. -/
structure Neighbour where
  nceKey : Key
  macAddress : MACAddress := 0
  isRouter : Bool := false
  isDefaultRouter : Bool := false
  reachabilityState : ReachabilityState
  reachabilityExpires : ℚ := 0
  numProbesSent : ℕ := 0
  nudTimeoutEvent : Option ℕ := none
  numOfARNSSent : ℕ := 0
  arTimer : Option ℕ := none
  pendingPackets : List ℕ := []
  nsSrcAddr : IPv6Address := 0
  routerExpiryTime : ℚ := 0
  deriving DecidableEq

inductive MessageKind
  | nudTimeout
  | arTimeout
  deriving DecidableEq

/-- A self message, and whether it is scheduled. -/
structure Message where
  kind : MessageKind
  contextPointer : ℕ
  scheduled : Bool
  deriving DecidableEq

inductive LogEntry
  | queued (packet entry : ℕ)
  | sentQueued (packet entry : ℕ)
  | reported (packet entry : ℕ)
  | sent (packet : ℕ)
  | noRoute (packet : ℕ)
  | failed (entry : ℕ)
  | nsSent (target dest src : IPv6Address) (interfaceID : ℤ)
  | naSent (dest : IPv6Address) (interfaceID : ℤ)
  deriving DecidableEq

inductive Fault
  | assertionFailed
  | unknownState
  | duplicateAddress
  | nullPointer
  | uninitializedPointer
  | invalidIterator
  | freedEntry
  | freedMessage
  | deletedScheduled
  | notScheduled
  deriving DecidableEq

/-- What the module reads of the interfaces. -/
structure Config where
  maxMulticastSolicit : ℤ → ℕ
  maxUnicastSolicit : ℤ → ℕ
  reachableTime : ℤ → ℚ
  hasAddress : ℤ → IPv6Address → Bool
  preferredAddress : ℤ → IPv6Address
  isTentativeAddress : ℤ → IPv6Address → Bool

end NeighbourDiscovery

open NeighbourDiscovery in
structure NeighbourDiscovery where
  neighbourMap : OrderedMap Key ℕ
  heap : ℕ → Option Neighbour
  messages : ℕ → Option Message
  fresh : ℕ
  packets : ℕ
  pendingQueue : List ℕ
  log : List LogEntry

namespace NeighbourDiscovery

variable (cfg : Config)

/-! ## Entries and messages -/

section

variable (s : NeighbourDiscovery)

def read (p : ℕ) : Except Fault Neighbour :=
  match s.heap p with
  | some nce => .ok nce
  | none => .error .freedEntry

def write (p : ℕ) (nce : Neighbour) : NeighbourDiscovery :=
  { s with heap := Function.update s.heap p (some nce) }

def note (x : LogEntry) : NeighbourDiscovery := { s with log := x :: s.log }

def lookup (key : Key) : Option ℕ := s.neighbourMap.find? key

/-- The entry must not exist yet. -/
def addNeighbour (nce : Neighbour) : Except Fault (ℕ × NeighbourDiscovery) :=
  match s.lookup nce.nceKey with
  | some _ => .error .assertionFailed
  | none => .ok (s.fresh,
      { s with
        neighbourMap := s.neighbourMap.insert nce.nceKey s.fresh
        heap := Function.update s.heap s.fresh (some nce)
        fresh := s.fresh + 1 })

/-- A new message for the entry is created and scheduled. -/
def schedule (kind : MessageKind) (p : ℕ) : NeighbourDiscovery :=
  { s with
    messages := Function.update s.messages s.fresh (some ⟨kind, p, true⟩)
    fresh := s.fresh + 1 }

def setScheduled (m : ℕ) (scheduled : Bool) : Except Fault NeighbourDiscovery :=
  match s.messages m with
  | some x => .ok { s with messages := Function.update s.messages m (some { x with scheduled }) }
  | none => .error .freedMessage

def cancelEvent (m : ℕ) : Except Fault NeighbourDiscovery :=
  s.setScheduled m false

/-- A message that is in the event queue must not be deleted. -/
def deleteMessage (m : ℕ) : Except Fault NeighbourDiscovery :=
  match s.messages m with
  | none => .error .freedMessage
  | some x =>
    if x.scheduled then .error .deletedScheduled
    else .ok { s with messages := Function.update s.messages m none }

def remove (key : Key) : Except Fault NeighbourDiscovery :=
  match s.lookup key with
  | none => .error .assertionFailed
  | some p => do
    let nce ← s.read p
    let s ← match nce.nudTimeoutEvent with
      | some m => s.deleteMessage m
      | none => .ok s
    return { s with
      neighbourMap := s.neighbourMap.erase key
      heap := Function.update s.heap p none }

/-! ## Address resolution -/

def solicitedNodePrefix : IPv6Address := 0xff0200000000000000000001ff000000

def formSolicitedNodeMulticastAddress (a : IPv6Address) : IPv6Address :=
  solicitedNodePrefix ||| (a &&& 0xffffff)

def initiateAddressResolution (dgSrcAddr : IPv6Address) (p : ℕ) :
    Except Fault NeighbourDiscovery := do
  let nce ← s.read p
  let ifID := nce.nceKey.interfaceID
  let nsTargetAddr := nce.nceKey.address
  let nsSrcAddr := if cfg.hasAddress ifID dgSrcAddr then dgSrcAddr else cfg.preferredAddress ifID
  if ifID = -1 then .error .assertionFailed
  else
    let nce := { nce with
      reachabilityState := .incomplete
      numOfARNSSent := 1
      nsSrcAddr
      arTimer := some s.fresh }
    .ok (((s.note (.nsSent nsTargetAddr (formSolicitedNodeMulticastAddress nsTargetAddr) nsSrcAddr
      ifID)).schedule .arTimeout p).write p nce)

/-- The packet waits at the entry. -/
def queuePacket (p packet : ℕ) : Except Fault NeighbourDiscovery := do
  let nce ← s.read p
  return { s with
    heap := Function.update s.heap p
      (some { nce with pendingPackets := nce.pendingPackets ++ [packet] })
    pendingQueue := s.pendingQueue ++ [packet]
    log := .queued packet p :: s.log }

end

/-- Every packet of the list leaves the queue, with a note in the log. -/
def unqueue (entry : ℕ → LogEntry) (s : NeighbourDiscovery) : List ℕ → NeighbourDiscovery
  | [] => s
  | packet :: packets =>
    unqueue entry
      { s with pendingQueue := s.pendingQueue.erase packet, log := entry packet :: s.log } packets

variable (s : NeighbourDiscovery)

def sendQueuedPacketsToIPv6Module (p : ℕ) :
    Except Fault NeighbourDiscovery := do
  let nce ← s.read p
  return (unqueue (.sentQueued · p) s nce.pendingPackets).write p { nce with pendingPackets := [] }

def dropQueuedPacketsAwaitingAR (p : ℕ) : Except Fault NeighbourDiscovery := do
  let nce ← s.read p
  (unqueue (.reported · p) (s.note (.failed p)) nce.pendingPackets).remove nce.nceKey

/-- The message `m` is the timer of address resolution that has just gone off. -/
def processARTimeout (m p : ℕ) : Except Fault NeighbourDiscovery := do
  let nce ← s.read p
  let ifID := nce.nceKey.interfaceID
  let nsTargetAddr := nce.nceKey.address
  if nce.numOfARNSSent < cfg.maxMulticastSolicit ifID then
    let s := s.note (.nsSent nsTargetAddr (formSolicitedNodeMulticastAddress nsTargetAddr)
      nce.nsSrcAddr ifID)
    (s.write p { nce with numOfARNSSent := nce.numOfARNSSent + 1 }).setScheduled m true
  else
    let s ← s.dropQueuedPacketsAwaitingAR p
    s.deleteMessage m

/-! ## Unreachability detection -/

def initiateNeighbourUnreachabilityDetection (p : ℕ) :
    Except Fault NeighbourDiscovery := do
  let nce ← s.read p
  if nce.reachabilityState = .stale then
    .ok ((s.schedule .nudTimeout p).write p
      { nce with reachabilityState := .delay, nudTimeoutEvent := some s.fresh })
  else .error .assertionFailed

/-- The message `m` is the timer of unreachability detection that has just gone off. -/
def processNUDTimeout (m p : ℕ) : Except Fault NeighbourDiscovery := do
  let nce ← s.read p
  let ifID := nce.nceKey.interfaceID
  let nce := if nce.reachabilityState = .delay then
      { nce with reachabilityState := .probe, numProbesSent := 0 }
    else nce
  if nce.numProbesSent = cfg.maxUnicastSolicit ifID then (s.write p nce).remove nce.nceKey
  else
    let s := s.note (.nsSent nce.nceKey.address nce.nceKey.address (cfg.preferredAddress ifID) ifID)
    (s.write p { nce with numProbesSent := nce.numProbesSent + 1 }).setScheduled m true

section

variable (simTime : ℚ)

def resolveNeighbour (key : Key) :
    Except Fault (MACAddress × NeighbourDiscovery) :=
  match s.lookup key with
  | none => .ok (0, s)
  | some p => do
    let nce ← s.read p
    match nce.reachabilityState with
    | .incomplete => .ok (0, s)
    | .stale =>
      let s ← s.initiateNeighbourUnreachabilityDetection p
      return (nce.macAddress, s)
    | .reachable =>
      if nce.reachabilityExpires < simTime then
        let s ← (s.write p { nce with
          reachabilityState := .stale }).initiateNeighbourUnreachabilityDetection p
        return (nce.macAddress, s)
      else .ok (nce.macAddress, s)
    | .delay => .ok (nce.macAddress, s)
    | .probe => .ok (nce.macAddress, s)

def reachabilityConfirmed (key : Key) : Except Fault NeighbourDiscovery :=
  match s.lookup key with
  | none => .error .nullPointer
  | some p => do
    let nce ← s.read p
    match nce.nudTimeoutEvent with
    | none => .ok s
    | some m =>
      let s ← s.cancelEvent m
      s.deleteMessage m

/-! ## Datagrams -/

/-- The first entry that may be a router; an expired default router is removed on the way, which
invalidates the iterator. -/
def selectDefaultRouter (s : NeighbourDiscovery) (simTime : ℚ) :
    List (Key × ℕ) → Except Fault (Option Key)
  | [] => .ok none
  | (key, p) :: entries => do
    let nce ← s.read p
    if nce.isDefaultRouter && nce.routerExpiryTime < simTime then .error .invalidIterator
    else if nce.reachabilityState = .reachable ∨ nce.reachabilityState = .stale ∨
        nce.reachabilityState = .delay then
      .ok (some key)
    else s.selectDefaultRouter simTime entries

/-- `route` is the next hop and the interface of the route to `destAddr`, if there is one. -/
def determineNextHop (route : Option (IPv6Address × ℤ))
    (destAddr : IPv6Address) : Except Fault (Option Key) :=
  match route with
  | some (nextHop, ifID) =>
    .ok (if ifID = -1 then none else some ⟨if nextHop = 0 then destAddr else nextHop, ifID⟩)
  | none => s.selectDefaultRouter simTime s.neighbourMap.entries

structure Datagram where
  destAddr : IPv6Address
  srcAddr : IPv6Address

/-- The packet goes to the entry of its next hop. -/
def sendOrQueue (packet : ℕ) (msg : Datagram) (key : Key) :
    Except Fault NeighbourDiscovery :=
  match s.lookup key with
  | none => do
    let (p, s) ← s.addNeighbour { nceKey := key, reachabilityState := .incomplete }
    let s ← s.initiateAddressResolution cfg msg.srcAddr p
    s.queuePacket p packet
  | some p => do
    let nce ← s.read p
    if nce.reachabilityState = .incomplete then s.queuePacket p packet
    else if nce.macAddress = 0 then
      let s ← s.initiateAddressResolution cfg msg.srcAddr p
      s.queuePacket p packet
    else match nce.reachabilityState with
      | .stale => (s.note (.sent packet)).initiateNeighbourUnreachabilityDetection p
      | .reachable => .ok (s.note (.sent packet))
      | .delay => .ok (s.note (.sent packet))
      | _ => .error .unknownState

def processIPv6Datagram (route : Option (IPv6Address × ℤ))
    (msg : Datagram) : Except Fault NeighbourDiscovery := do
  let key ← s.determineNextHop simTime route msg.destAddr
  match key with
  | none => .ok { s with packets := s.packets + 1, log := .noRoute s.packets :: s.log }
  | some key => sendOrQueue cfg { s with packets := s.packets + 1 } s.packets msg key

/-! ## Solicitations and advertisements -/

/-- A valid solicitation for an address of the interface that is not tentative. -/
structure Solicitation where
  srcAddr : IPv6Address
  interfaceId : ℤ
  sourceLinkLayerAddress : MACAddress

/-- The entry of the sender is created or updated. -/
def updateSender (ns : Solicitation) : Except Fault NeighbourDiscovery :=
  match s.lookup ⟨ns.srcAddr, ns.interfaceId⟩ with
  | none => do
    let (_, s) ← s.addNeighbour
      { nceKey := ⟨ns.srcAddr, ns.interfaceId⟩
        macAddress := ns.sourceLinkLayerAddress
        reachabilityState := .stale }
    return s
  | some p => do
    let entry ← s.read p
    if entry.macAddress ≠ ns.sourceLinkLayerAddress ∧ ns.sourceLinkLayerAddress ≠ 0 then
      .ok (s.write p { entry with
        macAddress := ns.sourceLinkLayerAddress, reachabilityState := .stale })
    else .ok s

def processNSWithSpecifiedSrcAddr (ns : Solicitation) :
    Except Fault NeighbourDiscovery := do
  let s ← s.updateSender ns
  return s.note (.naSent ns.srcAddr ns.interfaceId)

def processNSForNonTentativeAddress (ns : Solicitation) :
    Except Fault NeighbourDiscovery :=
  if ns.srcAddr = 0 then .ok (s.note (.naSent ns.srcAddr ns.interfaceId))
  else s.processNSWithSpecifiedSrcAddr ns

structure Advertisement where
  targetAddress : IPv6Address
  targetLinkLayerAddress : MACAddress
  routerFlag : Bool
  solicitedFlag : Bool
  overrideFlag : Bool
  hopLimit : ℕ
  destAddr : IPv6Address
  interfaceId : ℤ

def validateNAPacket (na : Advertisement) : Bool :=
  na.hopLimit == 255 && !na.targetAddress.isMulticast &&
    !(na.destAddr.isMulticast && na.solicitedFlag)

def processNAForIncompleteNCEState (na : Advertisement) (p : ℕ) : Except Fault NeighbourDiscovery := do
  let nce ← s.read p
  if na.targetLinkLayerAddress = 0 then .ok s
  else
    let nce := { nce with macAddress := na.targetLinkLayerAddress, isRouter := na.routerFlag }
    let nce := if na.solicitedFlag then
        { nce with
          reachabilityState := .reachable
          reachabilityExpires := simTime + cfg.reachableTime nce.nceKey.interfaceID }
      else { nce with reachabilityState := .stale }
    let s ← (s.write p nce).sendQueuedPacketsToIPv6Module p
    match nce.arTimer with
    | some m => s.cancelEvent m
    | none => .error .uninitializedPointer

def processNAForOtherNCEStates (na : Advertisement) (p : ℕ) :
    Except Fault NeighbourDiscovery := do
  let nce ← s.read p
  let naMacAddr := na.targetLinkLayerAddress
  if na.overrideFlag = false ∧ naMacAddr ≠ nce.macAddress ∧ naMacAddr ≠ 0 then
    if nce.reachabilityState = .reachable then .ok (s.write p { nce with reachabilityState := .stale })
    else .ok s
  else
    let nce := if naMacAddr ≠ 0 then { nce with macAddress := naMacAddr } else nce
    if na.solicitedFlag then
      let nce := { nce with reachabilityState := .reachable, isRouter := na.routerFlag }
      match nce.nudTimeoutEvent with
      | some m =>
        let nce := { nce with
          reachabilityExpires := simTime + cfg.reachableTime nce.nceKey.interfaceID }
        let s ← (s.write p nce).cancelEvent m
        s.deleteMessage m
      | none => .ok (s.write p nce)
    else
      let nce := if naMacAddr ≠ nce.macAddress then { nce with reachabilityState := .stale } else nce
      .ok (s.write p { nce with isRouter := na.routerFlag })

def processNAPacket (na : Advertisement) :
    Except Fault NeighbourDiscovery :=
  if validateNAPacket na then
    if cfg.isTentativeAddress na.interfaceId na.targetAddress then .error .duplicateAddress
    else match s.lookup ⟨na.targetAddress, na.interfaceId⟩ with
      | none => .ok s
      | some p => do
        let nce ← s.read p
        if nce.reachabilityState = .incomplete then s.processNAForIncompleteNCEState cfg simTime na p
        else s.processNAForOtherNCEStates cfg simTime na p
  else .ok s

end

/-! ## Events -/

inductive Event
  | datagram (simTime : ℚ) (route : Option (IPv6Address × ℤ)) (msg : Datagram)
  | solicitation (ns : Solicitation)
  | advertisement (simTime : ℚ) (na : Advertisement)
  | resolveNeighbour (simTime : ℚ) (key : Key)
  | reachabilityConfirmed (key : Key)
  | timeout (m : ℕ)

/-- A scheduled message goes off. -/
def processTimeout (m : ℕ) : Except Fault NeighbourDiscovery :=
  match s.messages m with
  | none => .error .notScheduled
  | some x =>
    if x.scheduled then
      let s := { s with messages := Function.update s.messages m (some { x with scheduled := false }) }
      match x.kind with
      | .nudTimeout => s.processNUDTimeout cfg m x.contextPointer
      | .arTimeout => s.processARTimeout cfg m x.contextPointer
    else .error .notScheduled

def step : Event → Except Fault NeighbourDiscovery
  | .datagram simTime route msg => s.processIPv6Datagram cfg simTime route msg
  | .solicitation ns => s.processNSForNonTentativeAddress ns
  | .advertisement simTime na => s.processNAPacket cfg simTime na
  | .resolveNeighbour simTime key => Prod.snd <$> s.resolveNeighbour simTime key
  | .reachabilityConfirmed key => s.reachabilityConfirmed key
  | .timeout m => s.processTimeout cfg m

end NeighbourDiscovery

end InetManet
