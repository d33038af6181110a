import InetManet.TCP.Connection

/-!
# TCP connection: arrival of a segment

The functions of `TCPConnectionRcvSegment.cc`. Each returns the connection and the event code for
the state machine. `processSegment1stThru8th` is cut along the steps of RFC 793 that it follows:
sequence number, RST, SYN, ACK, segment text and FIN, and the deferred CLOSE at its end. A step
may overwrite the event code of an earlier one.

Initial sequence numbers come from the simulation clock; they are an argument here.
-/

namespace InetManet.TCP

open TransitionSystem RegionList

namespace TCPConnection

/-! ## Connection setup -/

variable (c : TCPConnection)

def selectInitialSeqNum (isn : Seq) : TCPConnection :=
  { c with iss := isn, sndUna := isn, sndNxt := isn, sndMax := isn,
           sendQueue := .init (isn + 1) }

def startSynRexmitTimer : Except Fault TCPConnection :=
  let c := { c with synRexmitCount := 0 }
  (if c.isScheduled .synRexmit then c.cancelEvent .synRexmit else c).scheduleTimeout .synRexmit

def startConnEstabTimer : Except Fault TCPConnection :=
  if !c.isScheduled .connEstab then c.scheduleTimeout .connEstab else .ok c

def updateSockPair (localAddr remoteAddr : ℕ) (remotePort : ℤ) :
    TCPConnection :=
  { c with localAddr, remoteAddr, remotePort }

variable (seg : TCPSegment)

/-- `rcv_nxt` and `irs` from the peer's SYN. -/
def receiveSyn : TCPConnection :=
  { c with rcvNxt := seg.sequenceNo + 1, irs := seg.sequenceNo,
           receiveQueue := c.receiveQueue.init (seg.sequenceNo + 1) }

def setSendWindow (wl2 : Seq) : TCPConnection :=
  { c with sndWnd := BitVec.ofNat 32 seg.window, sndWl1 := seg.sequenceNo, sndWl2 := wl2 }

/-- Text in a SYN is queued, `rcv_nxt` of the connection stays behind. -/
def queueTextOfSyn : TCPConnection :=
  if 0 < seg.payloadLength then
    { c with receiveQueue := c.receiveQueue.insertBytesFromSegment seg }
  else c

def processSegmentInListen (srcAddr destAddr : ℕ)
    (isn : Seq) : Except Fault (TCPConnection × TCPEventCode) :=
  if seg.rstBit then .ok (c, .ignore)
  else if seg.ackBit then .ok (c.sendRstTo seg.ackNo seg.destPort seg.srcPort, .ignore)
  else if seg.synBit then do
    let c := c.updateSockPair destAddr srcAddr seg.srcPort
    let c := (c.receiveSyn seg).selectInitialSeqNum isn
    let c := c.setSendWindow seg isn
    let c ← c.sendSynAck.startSynRexmitTimer
    let c ← c.startConnEstabTimer
    return (c.queueTextOfSyn seg, .rcvSyn)
  else .ok (c, .ignore)

/-- Text in a SYN+ACK is inserted and counted, but not passed up yet. -/
def acceptTextOfSynAck : TCPConnection :=
  if 0 < seg.payloadLength then
    let q := c.receiveQueue.insertBytesFromSegment seg
    { c with receiveQueue := q, rcvNxt := q.rcvNxt }
  else c

/-- `sendQueue->discardUpTo`. -/
def discardUpTo (seqNum : Seq) : Except Fault TCPConnection := do
  let q ← c.sendQueue.discardUpTo c.assertsEnabled seqNum
  return { c with sendQueue := q }

/-- The peer's SYN may acknowledge ours. -/
def acknowledgeSyn : Except Fault TCPConnection :=
  if seg.ackBit then do
    let c ← { c with sndUna := seg.ackNo }.discardUpTo seg.ackNo
    return c.setSendWindow seg seg.ackNo
  else .ok c

def processSegmentInSynSent (srcAddr destAddr : ℕ) :
    Except Fault (TCPConnection × TCPEventCode) :=
  if seg.ackBit && (seqLE seg.ackNo c.iss || seqGreater seg.ackNo c.sndNxt) then
    .ok (c.sendRstTo seg.ackNo seg.destPort seg.srcPort, .ignore)
  else if seg.rstBit then
    .ok (if seg.ackBit then (c.sendIndicationToApp .connectionReset, .rcvRst) else (c, .ignore))
  else if seg.synBit then do
    let c := c.receiveSyn seg
    let c ← c.acknowledgeSyn seg
    let c := c.updateSockPair destAddr srcAddr seg.srcPort
    if seqGreater c.sndUna c.iss then
      let c ← (c.acceptTextOfSynAck seg).algEstablished true
      return (c.sendEstabIndicationToApp, .rcvSynAck)
    else
      let c := { c with sndMax := c.iss, sndNxt := c.iss }
      let c ← c.sendSynAck.startSynRexmitTimer
      return (c.queueTextOfSyn seg, .rcvSyn)
  else .ok (c, .ignore)

/-! ## Acknowledgments -/

/-- "Send window should be updated". -/
def updateSendWindow : TCPConnection :=
  if seqLess c.sndWl1 seg.sequenceNo ||
      (c.sndWl1 == seg.sequenceNo && seqLE c.sndWl2 seg.ackNo) then
    c.setSendWindow seg seg.ackNo
  else c

/-- The segment acknowledges our FIN. -/
def acksOurFin : Bool :=
  c.sendFinFlag && seg.ackNo == c.sndFinSeq + 1

/-- `snd_una` follows the ACK; `snd_nxt` may have fallen behind it by a retransmission. -/
def moveSndUna : TCPConnection :=
  { c with sndUna := seg.ackNo,
           sndNxt := if seqLess c.sndNxt seg.ackNo then seg.ackNo else c.sndNxt,
           finAckRcvd := c.finAckRcvd || c.acksOurFin seg }

/-- What is acknowledged leaves the send queue. The FIN is not in the queue. -/
def advanceSndUna : Except Fault TCPConnection := do
  let c ← (c.moveSndUna seg).discardUpTo (if c.acksOurFin seg then seg.ackNo - 1 else seg.ackNo)
  return c.updateSendWindow seg

/-- A duplicate ACK: no data, nothing newly acknowledged, and something outstanding. -/
def isDuplicateAck : Bool :=
  c.sndUna == seg.ackNo && seg.payloadLength == 0 && c.sndUna != c.sndMax

/-- `false` in the result means "drop the segment". -/
def processAckInEstabEtc :
    Except Fault (Bool × TCPConnection) :=
  if seqGE c.sndUna seg.ackNo then
    if c.isDuplicateAck seg then do
      let c ← { c with dupacks := c.dupacks + 1 }.receivedDuplicateAck
      return (true, c)
    else .ok (true, { c with dupacks := 0 })
  else if seqLE seg.ackNo c.sndMax then do
    let c ← c.advanceSndUna seg
    let c ← c.receivedDataAck
    return (true, { c with dupacks := 0 })
  else do
    check c.assertsEnabled (seqGreater seg.ackNo c.sndMax) (.assertion .processAckInEstabEtc)
    return (false, { c.receivedAckForDataNotYetSent with dupacks := 0 })

/-! ## Sequence number, RST -/

def isSegmentAcceptable : Bool :=
  seqGE seg.sequenceNo c.rcvNxt &&
    seqLE (seg.sequenceNo + BitVec.ofNat 32 seg.payloadLength) (c.rcvNxt + c.rcvWnd)

def processRstInSynReceived :
    Except Fault (TCPConnection × TCPEventCode) := do
  let c ← c.discardUpTo c.sendQueue.getBufferEndSeq
  return (if c.active then c.sendIndicationToApp .connectionRefused else c, .rcvRst)

def processRst : Except Fault (TCPConnection × TCPEventCode) :=
  match c.fsm with
  | .synRcvd => c.processRstInSynReceived
  | .established | .finWait1 | .finWait2 | .closeWait =>
      .ok (c.sendIndicationToApp .connectionReset, .rcvRst)
  | .closing | .lastAck => .ok (c.sendIndicationToApp .closed, .rcvRst)
  | .timeWait => .ok (c, .rcvRst)
  | .init | .closed | .listen | .synSent => .error (.assertion .processSegment1stThru8th)

/-! ## Segment text and FIN -/

/-- The packets extracted from the receive queue go to the application one by one. -/
def forwardToApp (packets : List ℕ) : TCPConnection :=
  { c with log := c.log ++ packets.map .data }

/-- `rcv_nxt` is advanced over the FIN at `finSeq`, and the user is told. -/
def consumeFin (finSeq : Seq) : TCPConnection :=
  { c with rcvNxt := finSeq + 1 }.sendIndicationToApp .peerClosed

/-- "All segments arrived up to the FIN segment, advancing rcv_nxt over the FIN". -/
def advanceOverStoredFin : TCPConnection :=
  if c.finRcvd && c.rcvNxt == c.rcvFinSeq then c.consumeFin c.rcvFinSeq else c

/-- The states in which segment text is processed. -/
def receivesText : TcpState → Bool
  | .synRcvd | .established | .finWait1 | .finWait2 => true
  | _ => false

/-- Seventh, process the segment text. -/
def processSegmentText : Except Fault TCPConnection :=
  if receivesText c.fsm && decide (0 < seg.payloadLength) then
    let q := c.receiveQueue.insertBytesFromSegment seg
    let oldRcvNxt := c.rcvNxt
    let c := { c with receiveQueue := q, rcvNxt := q.rcvNxt }
    if oldRcvNxt == c.rcvNxt then .ok c.receivedOutOfOrderSegment
    else do
      let (packets, q) ← c.receiveQueue.extractAll c.assertsEnabled c.rcvNxt
      return ({ c with receiveQueue := q }.forwardToApp packets).advanceOverStoredFin
  else .ok c

/-- The FIN is consumed when everything in front of it has arrived, else its position is stored. -/
def receiveFin : TCPConnection :=
  let finSeq := seg.sequenceNo + BitVec.ofNat 32 seg.payloadLength
  if c.rcvNxt == finSeq then c.consumeFin c.rcvNxt
  else { c with finRcvd := true, rcvFinSeq := finSeq }

/-- The time-wait timer is started and the user is told that the connection is closed. -/
def enterTimeWait : Except Fault TCPConnection := do
  let c ← c.scheduleTimeout .the2MSL
  return c.sendIndicationToApp .closed

def restart2MSL : Except Fault TCPConnection :=
  (c.cancelEvent .the2MSL).scheduleTimeout .the2MSL

/-- Eighth, check the FIN bit. -/
def processFin (event : TCPEventCode) :
    Except Fault (TCPConnection × TCPEventCode) :=
  if seg.finBit then do
    let c := c.receiveFin seg
    match c.fsm with
    | .finWait1 =>
        if c.finAckRcvd then
          let c ← (c.cancelEvent .finWait2).enterTimeWait
          return (c, .rcvFinAck)
        else return (c, .rcvFin)
    | .finWait2 =>
        let c ← (c.cancelEvent .finWait2).enterTimeWait
        return (c, .rcvFin)
    | .timeWait =>
        let c ← c.restart2MSL
        return (c, .rcvFin)
    | _ => return (c, .rcvFin)
  else .ok (c, event)

/-- "Now we can do the CLOSE which was deferred a while ago". -/
def deferredClose (oldSndNxt : Seq) (event : TCPEventCode) : TCPEventCode :=
  if c.sendFinFlag && c.sndNxt == c.sndFinSeq + 1 &&
      (c.fsm == .established || c.fsm == .synRcvd ||
        (c.fsm == .closeWait && oldSndNxt != c.sndNxt)) then .close
  else event

/-- If `rcv_nxt` changed, an ACK has to be sent or scheduled. -/
def acknowledgeProgress (oldRcvNxt : Seq) : Except Fault TCPConnection :=
  if oldRcvNxt != c.rcvNxt then c.receiveSeqChanged else .ok c

/-- From the segment text to the event code that is returned. -/
def processTextAndFin (oldSndNxt : Seq)
    (event : TCPEventCode) : Except Fault (TCPConnection × TCPEventCode) := do
  let oldRcvNxt := c.rcvNxt
  let c ← c.processSegmentText seg
  let (c, event) ← c.processFin seg event
  let c ← c.acknowledgeProgress oldRcvNxt
  return (c, c.deferredClose oldSndNxt event)

/-! ## Fifth, check the ACK field -/

/-- The states in which `processAckInEstabEtc` runs. -/
def processesAck : TcpState → Bool
  | .synRcvd | .established | .finWait1 | .finWait2 | .closeWait | .closing => true
  | _ => false

def processAckIfOpen :
    Except Fault (Bool × TCPConnection) :=
  if processesAck c.fsm then c.processAckInEstabEtc seg else .ok (true, c)

/-- What an ACK of our FIN means in the closing states; `none` in the event place means that
processing of the segment ends with `RCV_ACK`. -/
def processFinAck (event : TCPEventCode) :
    Except Fault (TCPConnection × Option TCPEventCode) :=
  match c.fsm with
  | .finWait1 => .ok (c, some (if c.finAckRcvd then .rcvAck else event))
  | .closing =>
      if c.finAckRcvd then do
        let c ← c.enterTimeWait
        return (c, some .rcvAck)
      else .ok (c, some event)
  | .lastAck =>
      .ok (if c.acksOurFin seg then (c.sendIndicationToApp .closed, none) else (c, some event))
  | .timeWait => do
      let c ← c.sendAck.restart2MSL
      return (c, some event)
  | _ => .ok (c, some event)

/-- The rest of the fifth step, common to all states. -/
def processAck (event : TCPEventCode) :
    Except Fault (TCPConnection × TCPEventCode) := do
  let oldSndNxt := c.sndNxt
  let (ok, c) ← c.processAckIfOpen seg
  if !ok then return (c, .ignore)
  else
    let (c, event) ← c.processFinAck seg event
    match event with
    | none => return (c, .rcvAck)
    | some event => c.processTextAndFin seg oldSndNxt event

/-- In SYN_RCVD an ACK in `[snd_una, snd_nxt]` establishes the connection. -/
def processAckInSynRcvd :
    Except Fault (TCPConnection × TCPEventCode) :=
  if !seqLE c.sndUna seg.ackNo || !seqLE seg.ackNo c.sndNxt then
    .ok (c.sendRst seg.ackNo, .ignore)
  else do
    let c ← c.algEstablished false
    c.sendEstabIndicationToApp.processAck seg .rcvAck

def processSegment1stThru8th :
    Except Fault (TCPConnection × TCPEventCode) :=
  if !c.isSegmentAcceptable seg then .ok (if seg.rstBit then c else c.sendAck, .ignore)
  else if seg.rstBit then c.processRst
  else if seg.synBit then .ok (c.sendIndicationToApp .connectionReset, .rcvUnexpSyn)
  else if !seg.ackBit then .ok (c, .ignore)
  else if c.fsm == .synRcvd then c.processAckInSynRcvd seg
  else c.processAck seg .ignore

def processRcvSegment (srcAddr destAddr : ℕ) (isn : Seq) :
    Except Fault (TCPConnection × TCPEventCode) :=
  match c.fsm with
  | .listen => c.processSegmentInListen seg srcAddr destAddr isn
  | .synSent => c.processSegmentInSynSent seg srcAddr destAddr
  | _ => c.processSegment1stThru8th seg

end TCPConnection

end InetManet.TCP
