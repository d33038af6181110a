import InetManet.TCP.Queues

/-!
# TCP connection: state, sending and the congestion control flavours

A connection is its FSM state, the state variables ("TCB"), the two queues, the variables of its
`TCPAlgorithm`, the set of scheduled self-messages and a log of everything it has handed to IP and
to the application. The log is chronological; nothing reads it.

The sending utilities call back into the algorithm (`ackSent`, `dataSent`), and the algorithm's
other hooks call the sending utilities, so the leaf hooks come first and the remaining ones follow
the utilities. The flavours are the four classes under `flavours/`; what they do with simulation
time (round-trip measurement, the length of a timeout) only decides when a timer expires and is not
part of the state.
-/

namespace InetManet.TCP

open TransitionSystem RegionList

/-- TCP FSM states. -/
inductive TcpState
  | init
  | closed
  | listen
  | synSent
  | synRcvd
  | established
  | closeWait
  | lastAck
  | finWait1
  | finWait2
  | closing
  | timeWait
  deriving DecidableEq, Repr

/-- Events of the FSM. -/
inductive TCPEventCode
  | ignore
  | openActive
  | openPassive
  | send
  | close
  | abort
  | status
  | rcvData
  | rcvAck
  | rcvSyn
  | rcvSynAck
  | rcvFin
  | rcvFinAck
  | rcvRst
  | rcvUnexpSyn
  | timeout2MSL
  | timeoutConnEstab
  | timeoutFinWait2
  deriving DecidableEq, Repr

/-- Indications to the application, other than data. -/
inductive TcpStatusInd
  | established
  | peerClosed
  | closed
  | connectionRefused
  | connectionReset
  | timedOut
  | status
  deriving DecidableEq, Repr

inductive Output
  | toIP (seg : TCPSegment)
  | indication (code : TcpStatusInd)
  | data (byteLength : ℕ)
  deriving DecidableEq, Repr

inductive TCPAlgorithmClass
  | dumbTCP
  | tcpNoCongestionControl
  | tcpTahoe
  | tcpReno
  deriving DecidableEq, Repr

/-- The state block. `sendFinFlag` is `send_fin`: the user has issued CLOSE. -/
structure TCPStateVariables where
  active : Bool := false
  fork : Bool := false
  sndMss : BitVec 32 := -1
  sndUna : Seq := 0
  sndNxt : Seq := 0
  sndMax : Seq := 0
  sndWnd : BitVec 32 := 0
  sndWl1 : Seq := 0
  sndWl2 : Seq := 0
  iss : Seq := 0
  rcvNxt : Seq := 0
  rcvWnd : BitVec 32 := -1
  irs : Seq := 0
  dupacks : BitVec 16 := 0
  synRexmitCount : ℕ := 0
  finAckRcvd : Bool := false
  sendFinFlag : Bool := false
  sndFinSeq : Seq := 0
  finRcvd : Bool := false
  rcvFinSeq : Seq := 0
  deriving DecidableEq, Repr

/-- The variables `TCPBaseAlg` and the Tahoe/Reno family add to the state block. -/
structure AlgorithmStateVariables where
  delayedAcksEnabled : Bool := false
  nagleEnabled : Bool := true
  rexmitCount : ℕ := 0
  sndCwnd : BitVec 32 := 0
  ssthresh : BitVec 32 := 65535
  deriving DecidableEq, Repr

/-- Local and remote address and port; address `0` and port `-1` are unspecified. -/
structure SockPair where
  localAddr : ℕ := 0
  remoteAddr : ℕ := 0
  localPort : ℤ := -1
  remotePort : ℤ := -1
  deriving DecidableEq, Repr

/-- A connection with the module parameters it reads. `setupTimers` says that `connEstabTimer` and
`synRexmitTimer` have not been deleted; `timers` are the self-messages that are scheduled. -/
structure TCPConnection extends TCPStateVariables, AlgorithmStateVariables, SockPair where
  assertsEnabled : Bool := true
  tcpAlgorithmClass : TCPAlgorithmClass := .tcpReno
  mss : BitVec 32 := 1024
  advertisedWindow : BitVec 32 := 14336
  fsm : TcpState := .init
  sendQueue : TCPVirtualDataSendQueue := {}
  receiveQueue : TCPVirtualDataRcvQueue := {}
  setupTimers : Bool := true
  timers : List Timer := []
  log : List Output := []
  deriving DecidableEq, Repr

namespace TCPConnection

/-! ## Timers and output -/

section

variable (c : TCPConnection)

def isScheduled (t : Timer) : Bool := decide (t ∈ c.timers)

/-- `connEstabTimer` and `synRexmitTimer` are deleted on entering ESTABLISHED. -/
def timerExists (t : Timer) : Bool :=
  c.setupTimers || !(t == .connEstab || t == .synRexmit)

/-- Scheduling a message that is already scheduled is a runtime error. -/
def scheduleTimeout (t : Timer) : Except Fault TCPConnection :=
  if !c.timerExists t then .error .nullPointer
  else if c.isScheduled t then .error (.alreadyScheduled t)
  else .ok { c with timers := t :: c.timers }

def cancelEvent (t : Timer) : TCPConnection :=
  { c with timers := c.timers.filter (· != t) }

def emit (o : Output) : TCPConnection := { c with log := c.log ++ [o] }

def sendToIP (seg : TCPSegment) : TCPConnection :=
  c.emit (.toIP { seg with srcPort := c.localPort, destPort := c.remotePort })

def sendIndicationToApp (code : TcpStatusInd) : TCPConnection :=
  c.emit (.indication code)

def sendEstabIndicationToApp : TCPConnection :=
  c.emit (.indication .established)

def signalConnectionTimeout : TCPConnection := c.sendIndicationToApp .timedOut

/-! ## Leaf hooks of the algorithm -/

def ackSent : TCPConnection :=
  match c.tcpAlgorithmClass with
  | .dumbTCP => c
  | _ => if c.isScheduled .delayedAck then c.cancelEvent .delayedAck else c

def startRexmitTimer : Except Fault TCPConnection :=
  { c with rexmitCount := 0 }.scheduleTimeout .rexmit

def dataSent : Except Fault TCPConnection :=
  match c.tcpAlgorithmClass with
  | .dumbTCP =>
      (if c.isScheduled .rexmit then c.cancelEvent .rexmit else c).scheduleTimeout .rexmit
  | _ => if !c.isScheduled .rexmit then c.startRexmitTimer else .ok c

/-! ## Sending -/

def sendSyn : Except Fault TCPConnection :=
  if c.remoteAddr == 0 || c.remotePort == -1 then .error .foreignSocketUnspecified
  else if c.localPort == -1 then .error .foreignSocketUnspecified
  else
    let seg : TCPSegment := { sequenceNo := c.iss, synBit := true, window := c.rcvWnd.toNat }
    .ok ({ c with sndMax := c.iss + 1, sndNxt := c.iss + 1 }.sendToIP seg)

def sendSynAck : TCPConnection :=
  let seg : TCPSegment :=
    { sequenceNo := c.iss, ackNo := c.rcvNxt, synBit := true, ackBit := true,
      window := c.rcvWnd.toNat }
  { c with sndMax := c.iss + 1, sndNxt := c.iss + 1 }.sendToIP seg

/-- `sendRst` with explicit ports. -/
def sendRstTo (seq : Seq) (srcPort destPort : ℤ) : TCPConnection :=
  c.emit (.toIP { srcPort, destPort, sequenceNo := seq, rstBit := true })

def sendRst (seq : Seq) : TCPConnection :=
  c.sendRstTo seq c.localPort c.remotePort

def ackSegment : TCPSegment :=
  { ackBit := true, sequenceNo := c.sndNxt, ackNo := c.rcvNxt, window := c.rcvWnd.toNat }

def sendAck : TCPConnection := (c.sendToIP c.ackSegment).ackSent

def sendFin : TCPConnection :=
  (c.sendToIP { c.ackSegment with finBit := true }).ackSent

/-- One segment of `bytes` bytes from `snd_nxt`. A FIN that was waiting for the data in front of
it rides on the segment that brings `snd_nxt` to `snd_fin_seq`. -/
def sendSegment (bytes : ℕ) : Except Fault TCPConnection := do
  let seg ← c.sendQueue.createSegmentWithBytes c.assertsEnabled c.sndNxt bytes
  let seg := { seg with ackNo := c.rcvNxt, ackBit := true, window := c.rcvWnd.toNat }
  check c.assertsEnabled (bytes == seg.payloadLength) (.assertion .sendSegment)
  let c := { c with sndNxt := c.sndNxt + BitVec.ofNat 32 bytes }
  if c.sendFinFlag && c.sndNxt == c.sndFinSeq then
    return { c with sndNxt := c.sndFinSeq + 1 }.sendToIP { seg with finBit := true }
  else
    return c.sendToIP seg

end

/-- `while (bytesToSend >= snd_mss)`; every round consumes `snd_mss` bytes, so with a positive MSS
`bytesToSend + 1` rounds are enough. -/
def sendWholeSegments : ℕ → TCPConnection → ℕ → Except Fault TCPConnection
  | 0, _, _ => .error .endlessLoop
  | rounds + 1, c, bytesToSend =>
      if c.sndMss.toNat ≤ bytesToSend then do
        let c' ← c.sendSegment c.sndMss.toNat
        sendWholeSegments rounds c' (bytesToSend - c.sndMss.toNat)
      else .ok c

section

variable (c : TCPConnection)

/-- The number of bytes the two windows leave room for. -/
def effectiveWindow (congestionWindow : ℤ) : ℤ :=
  let advertised : ℤ := c.sndWnd.toNat
  let maxWindow :=
    if 0 ≤ congestionWindow ∧ congestionWindow < advertised then congestionWindow else advertised
  maxWindow - (c.sndNxt - c.sndUna).toNat

/-- The transmission at the end of `sendData`: one segment when it holds everything, else whole
segments only. -/
def sendSegments (bytesToSend : ℕ) : Except Fault TCPConnection :=
  if bytesToSend ≤ c.sndMss.toNat then c.sendSegment bytesToSend
  else c.sendWholeSegments (bytesToSend + 1) bytesToSend

/-- `snd_max` follows `snd_nxt`, and the algorithm is notified. -/
def rememberSent : Except Fault TCPConnection :=
  { c with sndMax := c.sndNxt }.ackSent.dataSent

/-- "We'll start sending from snd_max". -/
def sendFromMax : TCPConnection := { c with sndNxt := c.sndMax }

/-- Retransmission starts at `snd_una`. -/
def sendFromUna : TCPConnection := { c with sndNxt := c.sndUna }

def sendData (fullSegmentsOnly : Bool) (congestionWindow : ℤ) :
    Except Fault (Bool × TCPConnection) := do
  let c := c.sendFromMax
  let buffered := c.sendQueue.getBytesAvailable c.sndNxt
  if buffered = 0 then
    return (false, c)
  else
    let effectiveWin := c.effectiveWindow congestionWindow
    if effectiveWin ≤ 0 then
      return (false, c)
    else
      let bytesToSend := min effectiveWin.toNat buffered
      if fullSegmentsOnly && decide (bytesToSend < c.sndMss.toNat) then
        return (false, c)
      else
        check c.assertsEnabled (decide (0 < bytesToSend)) (.assertion .sendData)
        let c ← c.sendSegments bytesToSend
        let c ← c.rememberSent
        return (true, c)

def sendProbe : Except Fault (Bool × TCPConnection) := do
  let c := c.sendFromMax
  if c.sendQueue.getBytesAvailable c.sndNxt = 0 then
    return (false, c)
  else
    let c ← c.sendSegment 1
    let c ← c.rememberSent
    return (true, c)

def retransmitOneSegment : Except Fault TCPConnection := do
  let c := c.sendFromUna
  let bytes := min c.sndMss.toNat (c.sndMax - c.sndNxt).toNat
  check c.assertsEnabled (decide (bytes ≠ 0)) (.assertion .retransmitOneSegment)
  let c ← c.sendSegment bytes
  return c.ackSent

end

/-- `while (bytesToSend > 0)`. A round without progress ends the loop only by sending the FIN, so
`bytesToSend + 1` rounds are enough when it ends at all. -/
def retransmitLoop : ℕ → TCPConnection → ℕ → Except Fault TCPConnection
  | 0, _, _ => .error .endlessLoop
  | rounds + 1, c, bytesToSend =>
      if 0 < bytesToSend then do
        let bytes := min (min bytesToSend c.sndMss.toNat) (c.sendQueue.getBytesAvailable c.sndNxt)
        let c ← c.sendSegment bytes
        if c.sendFinFlag && c.sndNxt == c.sndFinSeq + 1 then return c
        else retransmitLoop rounds c (bytesToSend - bytes)
      else .ok c

def retransmitData (c : TCPConnection) : Except Fault TCPConnection := do
  let c := c.sendFromUna
  let bytesToSend := (c.sndMax - c.sndNxt).toNat
  check c.assertsEnabled (decide (bytesToSend ≠ 0)) (.assertion .retransmitData)
  retransmitLoop (bytesToSend + 1) c bytesToSend

/-! ## Hooks of the algorithm -/

/-- `TCPBaseAlg::sendData`: Nagle's algorithm, and the congestion window passed as an `int`. -/
def algSendData (c : TCPConnection) : Except Fault (Bool × TCPConnection) :=
  c.sendData (c.nagleEnabled && c.sndUna != c.sndMax) c.sndCwnd.toInt

def sendDataOrAck (r : Except Fault (Bool × TCPConnection)) : Except Fault TCPConnection := do
  let (sent, c) ← r
  return if sent then c else c.sendAck

variable (c : TCPConnection)

def algEstablished (active : Bool) : Except Fault TCPConnection :=
  match c.tcpAlgorithmClass with
  | .dumbTCP => if active then sendDataOrAck (c.sendData false (-1)) else .ok c
  | _ =>
      let c := { c with sndCwnd := c.sndMss }
      if active then sendDataOrAck c.algSendData else .ok c

def connectionClosed : TCPConnection :=
  match c.tcpAlgorithmClass with
  | .dumbTCP => c.cancelEvent .rexmit
  | _ =>
      (((c.cancelEvent .rexmit).cancelEvent .persist).cancelEvent .delayedAck).cancelEvent
        .keepAlive

def sendCommandInvoked : Except Fault TCPConnection :=
  match c.tcpAlgorithmClass with
  | .dumbTCP => Prod.snd <$> c.sendData false (-1)
  | _ => Prod.snd <$> c.algSendData

def receivedOutOfOrderSegment : TCPConnection := c.sendAck

def receiveSeqChanged : Except Fault TCPConnection :=
  match c.tcpAlgorithmClass with
  | .dumbTCP => .ok c.sendAck
  | _ =>
      if !c.delayedAcksEnabled then .ok c.sendAck
      else if !c.isScheduled .delayedAck then c.scheduleTimeout .delayedAck
      else .ok c

/-- `TCPBaseAlg::receivedDataAck`: the retransmission timer runs while data is in flight. -/
def baseReceivedDataAck : Except Fault TCPConnection :=
  if c.sndUna == c.sndMax then
    .ok (if c.isScheduled .rexmit then c.cancelEvent .rexmit else c)
  else (c.cancelEvent .rexmit).startRexmitTimer

def recalculateSlowStartThreshold : TCPConnection :=
  let flightSize := if c.sndCwnd < c.sndWnd then c.sndCwnd else c.sndWnd
  { c with ssthresh :=
      if flightSize / 2 < 2 * c.sndMss then 2 * c.sndMss else flightSize / 2 }

/-- Slow start below `ssthresh`, congestion avoidance above. -/
def openCongestionWindow : Except Fault TCPConnection :=
  if c.sndCwnd < c.ssthresh then .ok { c with sndCwnd := c.sndCwnd + c.sndMss }
  else if c.sndCwnd = 0 then .error .divisionByZero
  else
    let incr := c.sndMss * c.sndMss / c.sndCwnd
    .ok { c with sndCwnd := c.sndCwnd + (if incr = 0 then 1 else incr) }

/-- Reno leaves fast recovery with `ssthresh`. -/
def renoOpenCongestionWindow : Except Fault TCPConnection :=
  if 3 ≤ c.dupacks.toInt then .ok { c with sndCwnd := c.ssthresh } else c.openCongestionWindow

def receivedDataAck : Except Fault TCPConnection :=
  match c.tcpAlgorithmClass with
  | .dumbTCP => Prod.snd <$> c.sendData false (-1)
  | .tcpNoCongestionControl => do
      let c ← c.baseReceivedDataAck
      Prod.snd <$> c.algSendData
  | .tcpTahoe => do
      let c ← c.baseReceivedDataAck
      let c ← c.openCongestionWindow
      Prod.snd <$> c.algSendData
  | .tcpReno => do
      let c ← c.baseReceivedDataAck
      let c ← c.renoOpenCongestionWindow
      Prod.snd <$> c.algSendData

/-- Fast retransmit, with the congestion window it leaves. -/
def fastRetransmit (cwnd : TCPConnection → BitVec 32) :
    Except Fault TCPConnection := do
  let c ← c.retransmitOneSegment
  let c := c.recalculateSlowStartThreshold
  let c := { c with sndCwnd := cwnd c }
  (c.cancelEvent .rexmit).startRexmitTimer

def receivedDuplicateAck : Except Fault TCPConnection :=
  match c.tcpAlgorithmClass with
  | .dumbTCP => .ok c
  | .tcpNoCongestionControl => .ok c
  | .tcpTahoe =>
      if c.dupacks = 3 then c.fastRetransmit (·.sndMss) else .ok c
  | .tcpReno =>
      if c.dupacks = 3 then c.fastRetransmit (fun c ↦ c.ssthresh + 3 * c.sndMss)
      else if 3 < c.dupacks.toInt then
        Prod.snd <$> { c with sndCwnd := c.sndCwnd + c.sndMss }.algSendData
      else .ok c

def receivedAckForDataNotYetSent : TCPConnection := c.sendAck

/-- The retransmission each flavour performs after a REXMIT timeout. -/
def retransmitAfterTimeout : Except Fault TCPConnection :=
  match c.tcpAlgorithmClass with
  | .dumbTCP => c.retransmitData
  | .tcpNoCongestionControl => c.retransmitOneSegment
  | .tcpTahoe =>
      let c := c.recalculateSlowStartThreshold
      { c with sndCwnd := c.sndMss }.retransmitOneSegment
  | .tcpReno =>
      let c := c.recalculateSlowStartThreshold
      { c with sndCwnd := c.sndMss }.retransmitData

def processRexmitTimer : Except Fault (TCPConnection × TCPEventCode) :=
  let c := { c with rexmitCount := c.rexmitCount + 1 }
  if 12 < c.rexmitCount then .ok (c.signalConnectionTimeout, .abort)
  else do
    let c ← c.scheduleTimeout .rexmit
    let c ← c.retransmitAfterTimeout
    return (c, .ignore)

/-- `TCPAlgorithm::processTimer`. -/
def algProcessTimer (t : Timer) :
    Except Fault (TCPConnection × TCPEventCode) :=
  match c.tcpAlgorithmClass, t with
  | .dumbTCP, .rexmit => do
      let c ← c.retransmitData
      let c ← c.scheduleTimeout .rexmit
      return (c, .ignore)
  | _, .rexmit => c.processRexmitTimer
  | _, .persist => do
      let (_, c) ← c.sendProbe
      return (c, .ignore)
  | _, .delayedAck => .ok (c.sendAck, .ignore)
  | _, _ => .ok (c, .ignore)

end TCPConnection

end InetManet.TCP
