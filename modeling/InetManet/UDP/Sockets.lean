import InetManet.Library.Buckets
import InetManet.Library.TransitionSystem
import InetManet.Network.Address

/-!
# UDP sockets

The `UDP` module keeps its sockets in two maps: `socketsByIdMap` for commands and `socketsByPortMap`, a list of
sockets for each local port, for packets. Sockets live at addresses, and `socks` holds those that
have not been deleted. A packet that arrives from IP is copied to each socket that matches; the
control info is taken off the packet before its type is looked at.
-/

namespace InetManet.UDP

open TransitionSystem

structure UDPControlInfo where
  sockId : ℤ := -1
  userId : ℤ := -1
  srcAddr : IPvXAddress := .v4 0
  destAddr : IPvXAddress := .v4 0
  srcPort : ℤ := 0
  destPort : ℤ := 0
  interfaceId : ℤ := -1
  ttl : ℤ := 0
  deriving DecidableEq

structure IPControlInfo where
  destAddr : IPAddress
  srcAddr : IPAddress
  interfaceId : ℤ := -1
  timeToLive : ℤ := 0
  deriving DecidableEq

structure IPv6ControlInfo where
  destAddr : IPv6Address
  srcAddr : IPv6Address
  interfaceId : ℤ := -1
  deriving DecidableEq

inductive ControlInfo
  | ip (ctrl : IPControlInfo)
  | ipv6 (ctrl : IPv6ControlInfo)
  deriving DecidableEq

/-- `dynamic_cast<IPControlInfo *>`. -/
def asIPControlInfo : Option ControlInfo → Option IPControlInfo
  | some (.ip ctrl) => some ctrl
  | _ => none

/-- `dynamic_cast<IPv6ControlInfo *>`. -/
def asIPv6ControlInfo : Option ControlInfo → Option IPv6ControlInfo
  | some (.ipv6 ctrl) => some ctrl
  | _ => none

structure UDPPacket where
  sourcePort : ℤ
  destinationPort : ℤ
  hasBitError : Bool := false
  controlInfo : Option ControlInfo
  encapsulatedMsg : List (BitVec 8) := []
  deriving DecidableEq

def UDPPacket.removeControlInfo (p : UDPPacket) : Option ControlInfo × UDPPacket :=
  (p.controlInfo, { p with controlInfo := none })

structure SockDesc where
  sockId : ℤ
  userId : ℤ
  appGateIndex : ℤ
  onlyLocalPortIsSet : Bool
  localAddr : IPvXAddress
  remoteAddr : IPvXAddress
  localPort : ℤ
  remotePort : ℤ
  interfaceId : ℤ
  deriving DecidableEq

inductive Fault
  | sockIdNotFilledIn
  | noSuchSocket (sockId : ℤ)
  | unspecifiedRemoteAddress
  | invalidRemotePort (port : ℤ)
  | portRangeExhausted
  | notAnIPv4Address (addr : IPvXAddress)
  | notAnIPv6Address (addr : IPvXAddress)
  | noControlInfo
  | assertion
  | nullPointer
  deriving DecidableEq

def ephemeralPortrangeStart : ℤ := 1024
def ephemeralPortrangeEnd : ℤ := 5000

/-- `localPort` and `remotePort` of a socket are `short`. -/
def toShort (port : ℤ) : ℤ := (BitVec.ofInt 16 port).toInt

structure UDPModule where
  socks : OrderedMap ℕ SockDesc := .empty
  nextSock : ℕ := 0
  socketsByIdMap : OrderedMap ℤ ℕ := .empty
  socketsByPortMap : OrderedMap ℤ (List ℕ) := .empty
  lastEphemeralPort : ℤ := ephemeralPortrangeStart

namespace UDPModule

/-! ## Commands -/

def nextPort (port : ℤ) : ℤ :=
  if port + 1 = ephemeralPortrangeEnd then ephemeralPortrangeStart else port + 1

/-- The search for a port without sockets; `searchUntil` is where it started. -/
def portLoop (ports : OrderedMap ℤ (List ℕ)) (searchUntil : ℤ) : ℕ → ℤ → Except Fault ℤ
  | 0, _ => .error .portRangeExhausted
  | rounds + 1, port =>
      if (ports.find? port).isSome then
        if port = searchUntil then .error .portRangeExhausted
        else portLoop ports searchUntil rounds (nextPort port)
      else .ok port

variable (u : UDPModule)

/-- The range is searched once around. -/
def getEphemeralPort : Except Fault (ℤ × UDPModule) := do
  let port ← portLoop u.socketsByPortMap u.lastEphemeralPort
    (ephemeralPortrangeEnd - ephemeralPortrangeStart).toNat (nextPort u.lastEphemeralPort)
  return (port, { u with lastEphemeralPort := port })

/-- Port `0` in a `bind` asks for an ephemeral port. -/
def choosePort (port : ℤ) : Except Fault (ℤ × UDPModule) :=
  if port = 0 then u.getEphemeralPort else .ok (port, u)

/-- The new socket, before its ephemeral port is chosen. -/
def newSockDesc (gateIndex : ℤ) (ctrl : UDPControlInfo) : SockDesc where
  sockId := ctrl.sockId
  userId := ctrl.userId
  appGateIndex := gateIndex
  onlyLocalPortIsSet := ctrl.srcAddr.isUnspecified && ctrl.destAddr.isUnspecified &&
    toShort ctrl.destPort == 0 && ctrl.interfaceId == -1
  localAddr := ctrl.srcAddr
  remoteAddr := ctrl.destAddr
  localPort := toShort ctrl.srcPort
  remotePort := toShort ctrl.destPort
  interfaceId := ctrl.interfaceId

/-- The socket goes into both maps. -/
def addSocket (sd : SockDesc) : UDPModule :=
  { u with
    socks := u.socks.insert u.nextSock sd
    nextSock := u.nextSock + 1
    socketsByIdMap := u.socketsByIdMap.insert sd.sockId u.nextSock
    socketsByPortMap := u.socketsByPortMap.pushBucket sd.localPort u.nextSock }

def bind (gateIndex : ℤ) (ctrl : UDPControlInfo) : Except Fault UDPModule := do
  let sd := newSockDesc gateIndex ctrl
  check true (sd.sockId ≠ -1) Fault.sockIdNotFilledIn
  let (port, u) ← u.choosePort sd.localPort
  check true (u.socketsByIdMap.find? sd.sockId).isNone Fault.assertion
  return u.addSocket { sd with localPort := port }

/-- The socket with this id, and its address. -/
def findSocket (sockId : ℤ) : Except Fault (ℕ × SockDesc) :=
  match u.socketsByIdMap.find? sockId with
  | none => .error (.noSuchSocket sockId)
  | some s =>
      match u.socks.find? s with
      | none => .error .nullPointer
      | some sd => .ok (s, sd)

def connect (sockId : ℤ) (addr : IPvXAddress) (port : ℤ) : Except Fault UDPModule := do
  let (s, sd) ← u.findSocket sockId
  check true (!addr.isUnspecified) Fault.unspecifiedRemoteAddress
  check true (0 < port && port ≤ 65535) (Fault.invalidRemotePort port)
  return { u with
    socks := u.socks.insert s
      { sd with remoteAddr := addr, remotePort := toShort port, onlyLocalPortIsSet := false } }

def unbind (sockId : ℤ) : Except Fault UDPModule := do
  let (s, sd) ← u.findSocket sockId
  return { u with
    socketsByIdMap := u.socketsByIdMap.erase sockId
    socketsByPortMap := u.socketsByPortMap.pullBucket sd.localPort s
    socks := u.socks.erase s }

inductive Command
  | bind (gateIndex : ℤ) (ctrl : UDPControlInfo)
  | connect (ctrl : UDPControlInfo)
  | unbind (ctrl : UDPControlInfo)
  deriving DecidableEq

def processCommandFromApp : Command → Except Fault UDPModule
  | .bind gateIndex ctrl => u.bind gateIndex ctrl
  | .connect ctrl => u.connect ctrl.sockId ctrl.destAddr ctrl.destPort
  | .unbind ctrl => u.unbind ctrl.sockId

/-! ## Packets from IP -/

def get4 (addr : IPvXAddress) : Except Fault IPAddress :=
  match addr.get4 with
  | none => .error (.notAnIPv4Address addr)
  | some a => .ok a

def get6 (addr : IPvXAddress) : Except Fault IPv6Address :=
  match addr.get6 with
  | none => .error (.notAnIPv6Address addr)
  | some a => .ok a

/-- A restriction of the socket to `addr`, which is not there when `addr` is unspecified. -/
def admitsAddr {α : Type} [DecidableEq α] (get : IPvXAddress → Except Fault α) (addr : IPvXAddress)
    (a : α) : Except Fault Bool :=
  if addr.isUnspecified then .ok true else (fun b ↦ decide (b = a)) <$> get addr

/-- The two versions of `matchesSocket` for packets differ in the kind of the addresses. -/
def matchesSocketOn {α : Type} [DecidableEq α] (get : IPvXAddress → Except Fault α) (sd : SockDesc)
    (sourcePort : ℤ) (destAddr srcAddr : α) (interfaceId : ℤ) : Except Fault Bool := do
  if sd.remotePort ≠ 0 ∧ sd.remotePort ≠ sourcePort then return false
  if !(← admitsAddr get sd.localAddr destAddr) then return false
  if !(← admitsAddr get sd.remoteAddr srcAddr) then return false
  if sd.interfaceId ≠ -1 ∧ sd.interfaceId ≠ interfaceId then return false
  return true

def matchesSocket4 (sd : SockDesc) (udp : UDPPacket) (ctrl : IPControlInfo) : Except Fault Bool :=
  matchesSocketOn get4 sd udp.sourcePort ctrl.destAddr ctrl.srcAddr ctrl.interfaceId

def matchesSocket6 (sd : SockDesc) (udp : UDPPacket) (ctrl : IPv6ControlInfo) : Except Fault Bool :=
  matchesSocketOn get6 sd udp.sourcePort ctrl.destAddr ctrl.srcAddr ctrl.interfaceId

/-- A message to the application at `gateIndex`. -/
structure Indication where
  gateIndex : ℤ
  ctrl : UDPControlInfo
  payload : List (BitVec 8)
  deriving DecidableEq

def sendUp4 (udp : UDPPacket) (ctrl : IPControlInfo) (sd : SockDesc) : Indication where
  gateIndex := sd.appGateIndex
  ctrl := { sockId := sd.sockId, userId := sd.userId, srcAddr := .v4 ctrl.srcAddr,
            destAddr := .v4 ctrl.destAddr, srcPort := udp.sourcePort,
            destPort := udp.destinationPort, interfaceId := ctrl.interfaceId,
            ttl := ctrl.timeToLive }
  payload := udp.encapsulatedMsg

def sendUp6 (udp : UDPPacket) (ctrl : IPv6ControlInfo) (sd : SockDesc) : Indication where
  gateIndex := sd.appGateIndex
  ctrl := { sockId := sd.sockId, userId := sd.userId, srcAddr := .ofIPv6 ctrl.srcAddr,
            destAddr := .ofIPv6 ctrl.destAddr, srcPort := udp.sourcePort,
            destPort := udp.destinationPort, interfaceId := ctrl.interfaceId }
  payload := udp.encapsulatedMsg

/-- What a packet from IP gives rise to. -/
structure Output where
  sentUp : List Indication := []
  /-- A port unreachable error goes back to the sender. -/
  icmpError : Bool := false
  deriving DecidableEq

def processUndeliverablePacket (udp : UDPPacket) (ctrl : Option ControlInfo) :
    Except Fault Output :=
  match asIPControlInfo ctrl with
  | some ctrl4 => .ok { icmpError := !ctrl4.destAddr.isMulticast }
  | none =>
      match asIPv6ControlInfo udp.controlInfo with
      | some _ =>
          match asIPv6ControlInfo ctrl with
          | some ctrl6 => .ok { icmpError := !ctrl6.destAddr.isMulticast }
          | none => .error .nullPointer
      | none => .error .noControlInfo

/-- `sd->onlyLocalPortIsSet || matchesSocket(...)`. -/
def accepts (matchesSocket : SockDesc → Except Fault Bool) (sd : SockDesc) : Except Fault Bool :=
  if sd.onlyLocalPortIsSet then .ok true else matchesSocket sd

/-- The loop over the sockets on the port: a copy goes to each one that matches. -/
def deliver (u : UDPModule) (matchesSocket : SockDesc → Except Fault Bool)
    (sendUp : SockDesc → Indication) : List ℕ → Except Fault (List Indication)
  | [] => .ok []
  | s :: list =>
      match u.socks.find? s with
      | none => .error .nullPointer
      | some sd => do
          let isMatch ← accepts matchesSocket sd
          let rest ← u.deliver matchesSocket sendUp list
          return if isMatch then sendUp sd :: rest else rest

def processUDPPacket (udp : UDPPacket) : Except Fault Output := do
  if udp.hasBitError then return {}
  let (ctrl, udp) := udp.removeControlInfo
  match u.socketsByPortMap.find? udp.destinationPort with
  | none => processUndeliverablePacket udp ctrl
  | some list =>
      let sentUp ←
        match asIPControlInfo ctrl with
        | some ctrl4 => u.deliver (matchesSocket4 · udp ctrl4) (sendUp4 udp ctrl4) list
        | none =>
            match asIPv6ControlInfo udp.controlInfo with
            | some _ =>
                match asIPv6ControlInfo ctrl with
                | some ctrl6 => u.deliver (matchesSocket6 · udp ctrl6) (sendUp6 udp ctrl6) list
                | none => .error .nullPointer
            | none => .error .noControlInfo
      if sentUp.isEmpty then processUndeliverablePacket udp ctrl else return { sentUp }

end UDPModule

end InetManet.UDP
