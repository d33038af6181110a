import Mathlib.Data.Prod.Lex
import Mathlib.Data.Multiset.AddSub
import InetManet.Library.OrderedMap
import InetManet.TCP.StateMachine

/-!
# The TCP module

`TCP` keeps its connections in two maps: `tcpConnMap` by socket pair, for segments, and
`tcpAppConnMap` by application gate and connection id, for commands. Local ports in the ephemeral
range are counted in a multiset. Here a connection is its ids, its socket pair and what the state
machine reads; what the rest of `TCPConnection` computes (whether an ACK is acceptable, which event
a segment or a timer gives rise to) is part of the message. Connections live at addresses, and
`conns` holds those that have not been deleted.
-/

namespace InetManet.TCP

open TransitionSystem

/-- `SockPair::operator<`: remote address, local address, remote port, local port. -/
def SockPair.toKey (s : SockPair) : ℕ ×ₗ ℕ ×ₗ ℤ ×ₗ ℤ :=
  toLex (s.remoteAddr, toLex (s.localAddr, toLex (s.remotePort, s.localPort)))

theorem SockPair.toKey_injective : Function.Injective SockPair.toKey := by
  rintro ⟨la, ra, lp, rp⟩ ⟨la', ra', lp', rp'⟩ h
  simp only [SockPair.toKey, EmbeddingLike.apply_eq_iff_eq, Prod.mk.injEq] at h
  obtain ⟨rfl, rfl, rfl, rfl⟩ := h
  rfl

instance : LinearOrder SockPair := LinearOrder.lift' SockPair.toKey SockPair.toKey_injective

structure AppConnKey where
  appGateIndex : ℤ
  connId : ℤ
  deriving DecidableEq, Repr

def AppConnKey.toKey (k : AppConnKey) : ℤ ×ₗ ℤ := toLex (k.appGateIndex, k.connId)

theorem AppConnKey.toKey_injective : Function.Injective AppConnKey.toKey := by
  rintro ⟨g, i⟩ ⟨g', i'⟩ h
  simp only [AppConnKey.toKey, EmbeddingLike.apply_eq_iff_eq, Prod.mk.injEq] at h
  obtain ⟨rfl, rfl⟩ := h
  rfl

instance : LinearOrder AppConnKey := LinearOrder.lift' AppConnKey.toKey AppConnKey.toKey_injective

/-- A connection as the module sees it. -/
structure ConnObject where
  appKey : AppConnKey
  pair : SockPair := {}
  fsm : TcpState := .init
  active : Bool := false
  fork : Bool := false
  deriving DecidableEq, Repr

inductive ModuleFault
  | addressInUse (pair : SockPair)
  | portRangeExhausted
  | commandError (command : AppCommand)
  | foreignSocketUnspecified
  | assertion
  | nullPointer
  deriving DecidableEq, Repr

def ephemeralPortrangeStart : ℤ := 1024
def ephemeralPortrangeEnd : ℤ := 5000

def isEphemeral (port : ℤ) : Bool :=
  decide (ephemeralPortrangeStart ≤ port) && decide (port < ephemeralPortrangeEnd)

/-- Ports are stored in a `short`. -/
def toShort (port : ℤ) : ℤ := (BitVec.ofInt 16 port).toInt

structure TCPModule where
  conns : OrderedMap ℕ ConnObject := .empty
  tcpConnMap : OrderedMap SockPair ℕ := .empty
  tcpAppConnMap : OrderedMap AppConnKey ℕ := .empty
  usedEphemeralPorts : Multiset ℤ := 0
  lastEphemeralPort : ℤ := ephemeralPortrangeStart
  nextConn : ℕ := 0

namespace TCPModule

/-! ## Lookup -/

variable (t : TCPModule)

/-- The fully qualified pair, then the local address missing, then the remote socket blank, then
both. -/
def findConnForSegment (seg : TCPSegment) (srcAddr destAddr : ℕ) : Option ℕ :=
  let full : SockPair := ⟨destAddr, srcAddr, seg.destPort, seg.srcPort⟩
  (t.tcpConnMap.find? full).or <|
    (t.tcpConnMap.find? { full with localAddr := 0 }).or <|
      (t.tcpConnMap.find? { full with remoteAddr := 0, remotePort := -1 }).or <|
        t.tcpConnMap.find? { full with localAddr := 0, remoteAddr := 0, remotePort := -1 }

def findConnForApp (key : AppConnKey) : Option ℕ := t.tcpAppConnMap.find? key

/-! ## Ports -/

def nextPort (port : ℤ) : ℤ :=
  if port + 1 = ephemeralPortrangeEnd then ephemeralPortrangeStart else port + 1

/-- The search for a port that is not in use; `searchUntil` is where it started. -/
def portLoop (used : Multiset ℤ) (searchUntil : ℤ) : ℕ → ℤ → Except ModuleFault ℤ
  | 0, _ => .error .portRangeExhausted
  | rounds + 1, port =>
      if port ∈ used then
        if port = searchUntil then .error .portRangeExhausted
        else portLoop used searchUntil rounds (nextPort port)
      else .ok port

/-- The range is searched once around. -/
def getEphemeralPort : Except ModuleFault (ℤ × TCPModule) := do
  let port ← portLoop t.usedEphemeralPorts t.lastEphemeralPort
    (ephemeralPortrangeEnd - ephemeralPortrangeStart).toNat (nextPort t.lastEphemeralPort)
  return (port, { t with lastEphemeralPort := port })

/-! ## Socket pairs -/

/-- The object at `conn` is updated. -/
def store (conn : ℕ) (o : ConnObject) : TCPModule :=
  { t with conns := t.conns.insert conn o }

def addSockPair (conn : ℕ) (o : ConnObject) (pair : SockPair) :
    Except ModuleFault TCPModule :=
  let t := t.store conn { o with pair }
  match t.tcpConnMap.find? pair with
  | some _ => .error (.addressInUse pair)
  | none =>
      .ok { t with tcpConnMap := t.tcpConnMap.insert pair conn,
                   usedEphemeralPorts :=
                     if isEphemeral pair.localPort then pair.localPort ::ₘ t.usedEphemeralPorts
                     else t.usedEphemeralPorts }

/-- The entry moves to the new key; the local port stays. -/
def updateSockPair (conn : ℕ) (o : ConnObject) (pair : SockPair) :
    Except ModuleFault TCPModule :=
  if t.tcpConnMap.find? o.pair ≠ some conn then .error .assertion
  else if o.pair.localPort ≠ pair.localPort then .error .assertion
  else
    let t := t.store conn { o with pair }
    .ok { t with tcpConnMap := (t.tcpConnMap.erase o.pair).insert pair conn }

/-- `cloneListeningConnection`: the clone keeps LISTENing on the local socket. -/
def cloneListeningConnection (o : ConnObject) : ConnObject :=
  { appKey := o.appKey,
    pair := { localAddr := o.pair.localAddr, localPort := o.pair.localPort },
    fsm := .listen, active := false, fork := true }

/-- `conn` gets a new connection id, and the clone goes on with the old one. -/
def addForkedConnection (conn : ℕ) (o : ConnObject) (pair : SockPair)
    (uniqueNumber : ℤ) : Except ModuleFault TCPModule := do
  let newConn := t.nextConn
  let clone := cloneListeningConnection o
  let t ← { t with nextConn := t.nextConn + 1 }.updateSockPair conn o pair
  let t ← t.addSockPair newConn clone clone.pair
  let appKey : AppConnKey := ⟨o.appKey.appGateIndex, uniqueNumber⟩
  let t := t.store conn { o with pair, appKey }
  return { t with tcpAppConnMap :=
    ((t.tcpAppConnMap.erase o.appKey).insert appKey conn).insert clone.appKey newConn }

def removeConnection (conn : ℕ) (o : ConnObject) : TCPModule :=
  { t with tcpAppConnMap := t.tcpAppConnMap.erase o.appKey,
           tcpConnMap := t.tcpConnMap.erase o.pair,
           usedEphemeralPorts := t.usedEphemeralPorts.erase o.pair.localPort,
           conns := t.conns.erase conn }

/-! ## Messages -/

/-- What the rest of the connection makes of a segment. -/
structure Reaction where
  ackAcceptable : Bool := true
  synAcked : Bool := false
  event : TCPEventCode := .ignore

/-- What a timer of a connection can give rise to. -/
inductive TimerEvent
  | timeout2MSL
  | timeoutConnEstab
  | timeoutFinWait2
  | abort
  | ignore
  deriving DecidableEq

def TimerEvent.code : TimerEvent → TCPEventCode
  | .timeout2MSL => .timeout2MSL
  | .timeoutConnEstab => .timeoutConnEstab
  | .timeoutFinWait2 => .timeoutFinWait2
  | .abort => .abort
  | .ignore => .ignore

inductive Command
  | openActive (localAddr remoteAddr : ℕ) (localPort remotePort : ℤ)
  | openPassive (localAddr : ℕ) (localPort : ℤ) (fork : Bool)
  | send
  | close (deferred : Bool)
  | abort
  | status
  deriving DecidableEq

inductive Message
  | segment (seg : TCPSegment) (srcAddr destAddr : ℕ) (reaction : Reaction) (uniqueNumber : ℤ)
  | command (key : AppConnKey) (command : Command)
  | timer (conn : ℕ) (event : TimerEvent)

section

variable (conn : ℕ)

/-- A connection that has reached CLOSED is deleted. -/
def performStateTransition (event : TCPEventCode) :
    Except ModuleFault TCPModule :=
  match t.conns.find? conn with
  | none => .error .nullPointer
  | some o =>
      let o := { o with fsm := nextState o.active o.fsm event }
      .ok (if o.fsm = .closed then t.removeConnection conn o else t.store conn o)

section

variable (o : ConnObject)

/-- A SYN fills in the foreign socket, and a forking listener leaves a clone behind. -/
def processSegmentInListen (seg : TCPSegment)
    (srcAddr destAddr : ℕ) (uniqueNumber : ℤ) : Except ModuleFault (TCPModule × TCPEventCode) :=
  if seg.rstBit then .ok (t, .ignore)
  else if seg.ackBit then .ok (t, .ignore)
  else if seg.synBit then do
    let pair : SockPair := ⟨destAddr, srcAddr, seg.destPort, seg.srcPort⟩
    let t ← if o.fork then t.addForkedConnection conn o pair uniqueNumber
      else t.updateSockPair conn o pair
    return (t, .rcvSyn)
  else .ok (t, .ignore)

def processSegmentInSynSent (seg : TCPSegment)
    (srcAddr destAddr : ℕ) (reaction : Reaction) : Except ModuleFault (TCPModule × TCPEventCode) :=
  if seg.ackBit && !reaction.ackAcceptable then .ok (t, .ignore)
  else if seg.rstBit then .ok (t, if seg.ackBit then .rcvRst else .ignore)
  else if seg.synBit then do
    let t ← t.updateSockPair conn o ⟨destAddr, srcAddr, seg.destPort, seg.srcPort⟩
    return (t, if reaction.synAcked then .rcvSynAck else .rcvSyn)
  else .ok (t, .ignore)

def processTCPSegment (seg : TCPSegment) (srcAddr destAddr : ℕ) (reaction : Reaction) (uniqueNumber : ℤ) :
    Except ModuleFault (TCPModule × TCPEventCode) :=
  if o.pair.localAddr ≠ 0 ∧ ¬ (o.pair.localAddr = destAddr ∧ o.pair.localPort = seg.destPort) then
    .error .assertion
  else if o.pair.remoteAddr ≠ 0 ∧
      ¬ (o.pair.remoteAddr = srcAddr ∧ o.pair.remotePort = seg.srcPort) then .error .assertion
  else
    match o.fsm with
    | .listen => t.processSegmentInListen conn o seg srcAddr destAddr uniqueNumber
    | .synSent => t.processSegmentInSynSent conn o seg srcAddr destAddr reaction
    | _ => .ok (t, reaction.event)

/-- The local port of an active open, an ephemeral one if the command names none. -/
def chooseLocalPort (localPort : ℤ) : Except ModuleFault (ℤ × TCPModule) :=
  if localPort = -1 then t.getEphemeralPort else .ok (localPort, t)

/-- `short localPort`: the ports of the command are cut to 16 bits. -/
def processOpenActive (localAddr remoteAddr : ℕ)
    (localPort remotePort : ℤ) : Except ModuleFault (TCPModule × TCPEventCode) :=
  if o.fsm ≠ .init then .error (.commandError .openActive)
  else if remoteAddr = 0 ∨ toShort remotePort = -1 then .error (.commandError .openActive)
  else do
    let (port, t) ← t.chooseLocalPort (toShort localPort)
    let t ← t.addSockPair conn { o with active := true }
      ⟨localAddr, remoteAddr, port, toShort remotePort⟩
    return (t, .openActive)

def processOpenPassive (localAddr : ℕ)
    (localPort : ℤ) (fork : Bool) : Except ModuleFault (TCPModule × TCPEventCode) :=
  if o.fsm ≠ .init then .error (.commandError .openPassive)
  else if toShort localPort = -1 then .error (.commandError .openPassive)
  else do
    let t ← t.addSockPair conn { o with active := false, fork }
      ⟨localAddr, 0, toShort localPort, -1⟩
    return (t, .openPassive)

/-- SEND turns a passive open into an active one, if the foreign socket is known. -/
def processSend :
    Except ModuleFault (TCPModule × TCPEventCode) :=
  match o.fsm with
  | .listen =>
      if o.pair.remoteAddr = 0 ∨ o.pair.remotePort = -1 then .error .foreignSocketUnspecified
      else .ok (t.store conn { o with active := true }, .send)
  | .synRcvd | .synSent | .established | .closeWait => .ok (t, .send)
  | .init | .closed | .lastAck | .finWait1 | .finWait2 | .closing | .timeWait =>
      .error (.commandError .send)

def processAppCommand :
    Command → Except ModuleFault (TCPModule × TCPEventCode)
  | .openActive localAddr remoteAddr localPort remotePort =>
      t.processOpenActive conn o localAddr remoteAddr localPort remotePort
  | .openPassive localAddr localPort fork => t.processOpenPassive conn o localAddr localPort fork
  | .send => t.processSend conn o
  | .close deferred =>
      match o.fsm with
      | .listen | .synSent => .ok (t, .close)
      | .synRcvd | .established | .closeWait => .ok (t, if deferred then .ignore else .close)
      | .init | .closed | .finWait1 | .finWait2 | .closing | .lastAck | .timeWait =>
          .error (.commandError .close)
  | .abort => if o.fsm = .init then .error (.commandError .abort) else .ok (t, .abort)
  | .status => if o.fsm = .init then .error (.commandError .status) else .ok (t, .status)

end

end

/-- The connection of a command; a new one is entered into `tcpAppConnMap`. -/
def connForCommand (key : AppConnKey) : ℕ × TCPModule :=
  match t.findConnForApp key with
  | some conn => (conn, t)
  | none =>
      (t.nextConn, { t.store t.nextConn { appKey := key } with
        nextConn := t.nextConn + 1, tcpAppConnMap := t.tcpAppConnMap.insert key t.nextConn })

def handleMessage : Message → Except ModuleFault TCPModule
  | .segment seg srcAddr destAddr reaction uniqueNumber =>
      match t.findConnForSegment seg srcAddr destAddr with
      | none => .ok t
      | some conn =>
          match t.conns.find? conn with
          | none => .error .nullPointer
          | some o => do
              let (t, event) ←
                t.processTCPSegment conn o seg srcAddr destAddr reaction uniqueNumber
              t.performStateTransition conn event
  | .command key command =>
      let (conn, t) := t.connForCommand key
      match t.conns.find? conn with
      | none => .error .nullPointer
      | some o => do
          let (t, event) ← t.processAppCommand conn o command
          t.performStateTransition conn event
  | .timer conn event =>
      match t.conns.find? conn with
      | none => .ok t
      | some _ => t.performStateTransition conn event.code

end TCPModule

end InetManet.TCP
