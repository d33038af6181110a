import InetManet.TCP.ReceiveSegment

/-!
# TCP connection: state machine and events

The FSM of `performStateTransition`, application commands, timers, and `step`, which is what one
message does to a connection: first the actions, then the state transition. A connection that has
reached CLOSED is deleted by `TCP`, and one that is still in INIT has no socket pair yet, so
messages for them do not reach the connection object. The listening clone a forking connection
leaves behind is a connection of its own.
-/

namespace InetManet.TCP

open TransitionSystem RegionList

/-- The transition table; every pair that is not listed stays where it is. -/
def nextState (active : Bool) : TcpState → TCPEventCode → TcpState
  | .init, .openPassive => .listen
  | .init, .openActive => .synSent
  | .listen, .openActive => .synSent
  | .listen, .send => .synSent
  | .listen, .close => .closed
  | .listen, .abort => .closed
  | .listen, .rcvSyn => .synRcvd
  | .synRcvd, .close => .finWait1
  | .synRcvd, .abort => .closed
  | .synRcvd, .timeoutConnEstab => if active then .closed else .listen
  | .synRcvd, .rcvRst => if active then .closed else .listen
  | .synRcvd, .rcvAck => .established
  | .synRcvd, .rcvFin => .closeWait
  | .synRcvd, .rcvUnexpSyn => .closed
  | .synSent, .close => .closed
  | .synSent, .abort => .closed
  | .synSent, .timeoutConnEstab => .closed
  | .synSent, .rcvRst => .closed
  | .synSent, .rcvSynAck => .established
  | .synSent, .rcvSyn => .synRcvd
  | .established, .close => .finWait1
  | .established, .abort => .closed
  | .established, .rcvFin => .closeWait
  | .established, .rcvRst => .closed
  | .established, .rcvUnexpSyn => .closed
  | .closeWait, .close => .lastAck
  | .closeWait, .abort => .closed
  | .closeWait, .rcvRst => .closed
  | .closeWait, .rcvUnexpSyn => .closed
  | .lastAck, .abort => .closed
  | .lastAck, .rcvAck => .closed
  | .lastAck, .rcvRst => .closed
  | .lastAck, .rcvUnexpSyn => .closed
  | .finWait1, .abort => .closed
  | .finWait1, .rcvFin => .closing
  | .finWait1, .rcvAck => .finWait2
  | .finWait1, .rcvFinAck => .timeWait
  | .finWait1, .rcvRst => .closed
  | .finWait1, .rcvUnexpSyn => .closed
  | .finWait2, .abort => .closed
  | .finWait2, .rcvFin => .timeWait
  | .finWait2, .timeoutFinWait2 => .closed
  | .finWait2, .rcvRst => .closed
  | .finWait2, .rcvUnexpSyn => .closed
  | .closing, .abort => .closed
  | .closing, .rcvAck => .timeWait
  | .closing, .rcvRst => .closed
  | .closing, .rcvUnexpSyn => .closed
  | .timeWait, .abort => .closed
  | .timeWait, .timeout2MSL => .closed
  | .timeWait, .rcvRst => .closed
  | .timeWait, .rcvUnexpSyn => .closed
  | s, _ => s

namespace TCPConnection

variable (c : TCPConnection)

/-- Cancelling a deleted timer is a runtime error. -/
def cancelSetupTimers : Except Fault TCPConnection :=
  if c.setupTimers then .ok ((c.cancelEvent .connEstab).cancelEvent .synRexmit)
  else .error .nullPointer

def stateEntered : Except Fault TCPConnection :=
  match c.fsm with
  | .init | .synRcvd | .synSent => .ok c
  | .listen => do
      check c.assertsEnabled c.setupTimers (.assertion .stateEntered)
      c.cancelSetupTimers
  | .established => do
      let c ← c.cancelSetupTimers
      return { c with setupTimers := false }
  | .closeWait | .lastAck | .finWait1 | .finWait2 | .closing | .timeWait =>
      .ok ((c.cancelEvent .connEstab).cancelEvent .synRexmit)
  | .closed =>
      let c := (c.cancelEvent .the2MSL).cancelEvent .connEstab
      let c := (c.cancelEvent .finWait2).cancelEvent .synRexmit
      .ok c.connectionClosed

/-- `FSM_Goto`. -/
def goto (s : TcpState) : TCPConnection := { c with fsm := s }

def performStateTransition (event : TCPEventCode) :
    Except Fault TCPConnection := do
  check c.assertsEnabled (c.fsm != .closed) (.assertion .performStateTransition)
  if event = .ignore then return c
  else if nextState c.active c.fsm event = c.fsm then return c
  else (c.goto (nextState c.active c.fsm event)).stateEntered

/-! ## Application commands -/

/-- `initConnection` with the module's default classes: `snd_mss` and `rcv_wnd` are configured. -/
def initConnection : TCPConnection :=
  { c with sndMss := c.mss, rcvWnd := c.advertisedWindow }

/-- The initial SYN with the timers of the connection setup. -/
def sendInitialSyn (isn : Seq) : Except Fault TCPConnection := do
  let c ← (c.selectInitialSeqNum isn).sendSyn
  let c ← c.startSynRexmitTimer
  c.scheduleTimeout .connEstab

def processOpenActive (localAddr remoteAddr : ℕ) (localPort remotePort : ℤ)
    (ephemeralPort : ℤ) (isn : Seq) : Except Fault (TCPConnection × TCPEventCode) :=
  if c.fsm ≠ .init then .error (.commandError .openActive)
  else if remoteAddr = 0 ∨ remotePort = -1 then .error (.commandError .openActive)
  else do
    let localPort := if localPort = -1 then ephemeralPort else localPort
    let c := { c.initConnection with active := true, localAddr, remoteAddr, localPort, remotePort }
    let c ← c.sendInitialSyn isn
    return (c, .openActive)

def processOpenPassive (localAddr : ℕ) (localPort : ℤ) (fork : Bool) :
    Except Fault (TCPConnection × TCPEventCode) :=
  if c.fsm ≠ .init then .error (.commandError .openPassive)
  else if localPort = -1 then .error (.commandError .openPassive)
  else
    .ok ({ c.initConnection with active := false, fork, localAddr, remoteAddr := 0, localPort,
                                 remotePort := -1 }, .openPassive)

def enqueueAppData (byteLength : ℕ) : TCPConnection :=
  { c with sendQueue := c.sendQueue.enqueueAppData byteLength }

def processSend (byteLength : ℕ) (isn : Seq) :
    Except Fault (TCPConnection × TCPEventCode) :=
  match c.fsm with
  | .listen => do
      let c ← { c with active := true }.sendInitialSyn isn
      return (c.enqueueAppData byteLength, .send)
  | .synRcvd | .synSent => .ok (c.enqueueAppData byteLength, .send)
  | .established | .closeWait => do
      let c ← (c.enqueueAppData byteLength).sendCommandInvoked
      return (c, .send)
  | .init | .closed | .lastAck | .finWait1 | .finWait2 | .closing | .timeWait =>
      .error (.commandError .send)

/-- "Sending FIN right away, advancing snd_nxt over the FIN". -/
def sendFinNow : TCPConnection :=
  let c := c.sendFromMax.sendFin
  { c with sndNxt := c.sndNxt + 1, sndMax := c.sndNxt + 1 }

/-- The user will not send more data. -/
def markFin : TCPConnection :=
  { c with sendFinFlag := true, sndFinSeq := c.sendQueue.getBufferEndSeq }

def processClose : Except Fault (TCPConnection × TCPEventCode) :=
  match c.fsm with
  | .listen | .synSent => .ok (c, .close)
  | .synRcvd | .established | .closeWait =>
      if c.sndMax = c.sendQueue.getBufferEndSeq then .ok (c.sendFinNow.markFin, .close)
      else .ok (c.markFin, .ignore)
  | .init | .closed | .finWait1 | .finWait2 | .closing | .lastAck | .timeWait =>
      .error (.commandError .close)

def processAbort : Except Fault (TCPConnection × TCPEventCode) :=
  match c.fsm with
  | .init => .error (.commandError .abort)
  | .synRcvd | .established | .finWait1 | .finWait2 | .closeWait =>
      .ok (c.sendRst c.sndNxt, .abort)
  | _ => .ok (c, .abort)

def processStatus : Except Fault (TCPConnection × TCPEventCode) :=
  if c.fsm = .init then .error (.commandError .status)
  else .ok (c.sendIndicationToApp .status, .status)

/-! ## Timers -/

def processTimeoutConnEstab : Except Fault (TCPConnection × TCPEventCode) :=
  match c.fsm with
  | .synRcvd | .synSent =>
      .ok (if c.active then c.sendIndicationToApp .timedOut else c, .timeoutConnEstab)
  | _ => .error (.internalError .connEstab)

def processTimeout2MSL : Except Fault (TCPConnection × TCPEventCode) :=
  match c.fsm with
  | .timeWait => .ok (c, .timeout2MSL)
  | _ => .error (.internalError .the2MSL)

def processTimeoutFinWait2 : Except Fault (TCPConnection × TCPEventCode) :=
  match c.fsm with
  | .finWait2 => .ok (c.sendIndicationToApp .closed, .timeoutFinWait2)
  | _ => .error (.internalError .finWait2)

/-- What is sent again while the connection is being set up. -/
def resendSyn : Except Fault TCPConnection :=
  match c.fsm with
  | .synSent => c.sendSyn
  | .synRcvd => .ok c.sendSynAck
  | _ => .error (.internalError .synRexmit)

def processTimeoutSynRexmit : Except Fault (TCPConnection × TCPEventCode) :=
  let c := { c with synRexmitCount := c.synRexmitCount + 1 }
  if 12 < c.synRexmitCount then .ok (c, .abort)
  else do
    let c ← c.resendSyn
    let c ← c.scheduleTimeout .synRexmit
    return (c, .ignore)

/-- `TCP::handleMessage` reaches the connection through the context pointer of the self-message,
which `DumbTCP` does not set on its timer. -/
def processTimer (t : Timer) : Except Fault (TCPConnection × TCPEventCode) :=
  match t with
  | .the2MSL => c.processTimeout2MSL
  | .connEstab => c.processTimeoutConnEstab
  | .finWait2 => c.processTimeoutFinWait2
  | .synRexmit => c.processTimeoutSynRexmit
  | .rexmit | .persist | .delayedAck | .keepAlive =>
      if c.tcpAlgorithmClass = .dumbTCP then .error .nullPointer else c.algProcessTimer t

/-! ## Segments -/

/-- `findConnForSegment` as far as one connection is concerned. -/
def matchesSegment (seg : TCPSegment) (srcAddr destAddr : ℕ) : Bool :=
  (c.localAddr == destAddr || c.localAddr == 0) && c.localPort == seg.destPort &&
    ((c.remoteAddr == srcAddr && c.remotePort == seg.srcPort) ||
      (c.remoteAddr == 0 && c.remotePort == -1))

def processTCPSegment (seg : TCPSegment) (srcAddr destAddr : ℕ) (isn : Seq) :
    Except Fault (TCPConnection × TCPEventCode) := do
  check c.assertsEnabled
    (c.localAddr == 0 || (c.localAddr == destAddr && c.localPort == seg.destPort))
    (.assertion .processTCPSegment)
  check c.assertsEnabled
    (c.remoteAddr == 0 || (c.remoteAddr == srcAddr && c.remotePort == seg.srcPort))
    (.assertion .processTCPSegment)
  c.processRcvSegment seg srcAddr destAddr isn

end TCPConnection

/-! ## Runs of a connection -/

/-- What can happen to a connection; `isn` is what `selectInitialSeqNum` would read off the clock,
and `ephemeralPort` what `getEphemeralPort` would return. -/
inductive Event
  | openActive (localAddr remoteAddr : ℕ) (localPort remotePort ephemeralPort : ℤ) (isn : Seq)
  | openPassive (localAddr : ℕ) (localPort : ℤ) (fork : Bool)
  | send (byteLength : ℕ) (isn : Seq)
  | close
  | abort
  | status
  | segment (seg : TCPSegment) (srcAddr destAddr : ℕ) (isn : Seq)
  | timer (t : Timer)
  deriving DecidableEq, Repr

namespace TCPConnection

variable (c : TCPConnection)

/-- The actions of a message. A timer message only exists while it is scheduled, and it is no
longer scheduled when it is handled. -/
def perform : Event → Except Fault (TCPConnection × TCPEventCode)
  | .openActive localAddr remoteAddr localPort remotePort ephemeralPort isn =>
      c.processOpenActive localAddr remoteAddr localPort remotePort ephemeralPort isn
  | .openPassive localAddr localPort fork => c.processOpenPassive localAddr localPort fork
  | .send byteLength isn => c.processSend byteLength isn
  | .close => c.processClose
  | .abort => c.processAbort
  | .status => c.processStatus
  | .segment seg srcAddr destAddr isn => c.processTCPSegment seg srcAddr destAddr isn
  | .timer t => (c.cancelEvent t).processTimer t

/-- Whether `TCP` passes the message on to the connection object. -/
def receives : Event → Bool
  | .segment seg srcAddr destAddr _ => c.fsm != .init && c.matchesSegment seg srcAddr destAddr
  | .timer t => c.isScheduled t
  | _ => true

def step (e : Event) : Except Fault TCPConnection :=
  if c.fsm = .closed || !c.receives e then .ok c
  else do
    let (c, event) ← c.perform e
    c.performStateTransition event

/-- A connection as `TCP::createConnection` makes it: INIT with empty queues. The module
parameters are free. -/
def IsNew : Prop :=
  c = { assertsEnabled := c.assertsEnabled, tcpAlgorithmClass := c.tcpAlgorithmClass,
        mss := c.mss, advertisedWindow := c.advertisedWindow,
        delayedAcksEnabled := c.delayedAcksEnabled, nagleEnabled := c.nagleEnabled }

end TCPConnection

end InetManet.TCP
