import InetManet.Ethernet.RelayUnit
import Mathlib.Tactic.NormNum

/-!
# The CSMA/CD transmitter and receiver

The frame under transmission stays at the front of the transmission queue until its transmission has
ended. A transmission that collides is cut short by a jam signal and repeated after a random backoff,
until there were too many attempts. PAUSE frames from the network suspend the transmitter after the
current frame, PAUSE frames from the upper layer go to the front of the queue.

Times are exact. The state also records what was accepted, sent and removed so far, which the code
does not store.
-/

namespace InetManet

open TransitionSystem
open Ethernet (MACAddress)

namespace EtherMAC

def GIGABIT_MAX_BURST_BYTES : ℕ := 8192
def MAX_ETHERNET_FRAME : ℕ := 1518
def MIN_ETHERNET_FRAME : ℕ := 64
def GIGABIT_MIN_FRAME_WITH_EXT : ℕ := 512
def INTERFRAME_GAP_BITS : ℕ := 96
def ETHERNET_TXRATE : ℚ := 10000000
def FAST_ETHERNET_TXRATE : ℚ := 100000000
def GIGABIT_ETHERNET_TXRATE : ℚ := 1000000000
def FAST_GIGABIT_ETHERNET_TXRATE : ℚ := 10000000000
def SLOT_TIME : ℚ := 512 / ETHERNET_TXRATE
def GIGABIT_SLOT_TIME : ℚ := 4096 / GIGABIT_ETHERNET_TXRATE
def MAX_ATTEMPTS : ℕ := 16
def BACKOFF_RANGE_LIMIT : ℕ := 10
def JAM_SIGNAL_BYTES : ℕ := 4
def PREAMBLE_BYTES : ℕ := 7
def SFD_BYTES : ℕ := 1
def PAUSE_BITTIME : ℕ := 512
def AUTOCONFIG_PERIOD : ℚ := 1 / 1000

inductive TransmitState
  | txIdle
  | waitIfg
  | transmitting
  | jamming
  | backoff
  | pause
  deriving DecidableEq

inductive ReceiveState
  | rxIdle
  | receiving
  | rxCollision
  deriving DecidableEq

/-- A frame, with the identity that copies of a message share. PAUSE frames have a pause time. -/
structure EtherFrame where
  treeId : ℕ
  dest : MACAddress
  src : MACAddress
  byteLength : ℕ
  hasBitError : Bool
  pauseTime : Option ℤ
  deriving DecidableEq

inductive Packet
  | frame (frame : EtherFrame)
  | jam (byteLength : ℕ)
  | autoconfig (txrate : ℚ) (halfDuplex : Bool)
  deriving DecidableEq

def Packet.byteLength : Packet → ℕ
  | frame f => f.byteLength
  | jam n => n
  | autoconfig _ _ => 0

inductive Fault
  | inconsistentState
  | unexpectedMessageKind
  | localDestination
  | frameTooLong
  | txQueueLimitExceeded
  | unexpectedMessageClass
  | longPropagationTime
  | strayJamWhileTransmitting
  | strayJam
  | strayJamCount
  | frameBeingReceivedInRxIdle
  | notInWaitIfg
  | endOfIfgNoFrame
  | endOfTransmissionState
  | frameUnderTransmissionNotFound
  | endOfBackoffState
  | endOfBackoffEmpty
  | endOfJammingState
  | endOfPauseState
  | nonstandardTransmissionRate
  | negativeLength
  | alreadyScheduled
  | scheduledInPast
  | nullPointer
  | emptyQueue
  deriving DecidableEq

/-- Errors that are not the fault of the upper layer, of the cabling or of the peers. -/
def Fault.isInternal : Fault → Bool
  | localDestination => false
  | frameTooLong => false
  | txQueueLimitExceeded => false
  | unexpectedMessageClass => false
  | longPropagationTime => false
  | strayJamWhileTransmitting => false
  | strayJam => false
  | strayJamCount => false
  | nonstandardTransmissionRate => false
  | negativeLength => false
  | scheduledInPast => false
  | _ => true

/-- The module's parameters, and whether it takes its frames from a queue module. -/
structure Config where
  address : MACAddress
  promiscuous : Bool
  txQueueLimit : ℤ
  queueModule : Bool
  txrate : ℚ
  duplexEnabled : Bool

structure Parameters where
  bitTime : ℚ
  slotTime : ℚ
  interFrameGap : ℚ
  jamDuration : ℚ
  shortestFrameDuration : ℚ
  carrierExtension : Bool
  frameBursting : Bool
  deriving DecidableEq

def calculateParameters (txrate : ℚ) (duplexMode : Bool) : Except Fault Parameters :=
  if txrate ≠ ETHERNET_TXRATE ∧ txrate ≠ FAST_ETHERNET_TXRATE ∧
      txrate ≠ GIGABIT_ETHERNET_TXRATE ∧ txrate ≠ FAST_GIGABIT_ETHERNET_TXRATE then
    .error .nonstandardTransmissionRate
  else
    let bitTime := 1 / txrate
    let slotTime :=
      if txrate = ETHERNET_TXRATE ∨ txrate = FAST_ETHERNET_TXRATE then SLOT_TIME
      else GIGABIT_SLOT_TIME
    let carrierExtension := slotTime == GIGABIT_SLOT_TIME && !duplexMode
    .ok {
      bitTime, slotTime, carrierExtension
      frameBursting := txrate = GIGABIT_ETHERNET_TXRATE ∨ txrate = FAST_GIGABIT_ETHERNET_TXRATE
      interFrameGap := INTERFRAME_GAP_BITS / txrate
      jamDuration := 8 * JAM_SIGNAL_BYTES * bitTime
      shortestFrameDuration :=
        if carrierExtension then GIGABIT_MIN_FRAME_WITH_EXT else MIN_ETHERNET_FRAME }

structure Statistics where
  numFramesSent : ℕ
  numBytesSent : ℕ
  numPauseFramesSent : ℕ
  numFramesFromHL : ℕ
  numFramesReceivedOK : ℕ
  numBytesReceivedOK : ℕ
  numPauseFramesRcvd : ℕ
  numDroppedBitError : ℕ
  numDroppedNotForUs : ℕ
  numFramesPassedToHL : ℕ
  numCollisions : ℕ
  numBackoffs : ℕ
  deriving DecidableEq

/-- A frame deleted from the queue: sent or given up, after so many collisions. -/
structure Removal where
  frame : EtherFrame
  collisions : ℕ
  sent : Bool
  deriving DecidableEq

end EtherMAC

open EtherMAC

structure EtherMAC where
  now : ℚ
  -- autoconfiguration
  autoconfigInProgress : Bool
  endAutoconfigMsg : Option ℚ
  lowestTxrateSuggested : ℚ
  duplexVetoed : Bool
  txrate : ℚ
  duplexMode : Bool
  params : Parameters
  -- transmitter and receiver
  transmitState : TransmitState
  receiveState : ReceiveState
  txQueue : List EtherFrame
  pauseUnitsRequested : ℤ
  backoffs : ℕ
  numConcurrentTransmissions : ℤ
  frameBeingReceived : Option EtherFrame
  framesSentInBurst : ℕ
  bytesSentInBurst : ℕ
  -- self messages, with their arrival times when they are scheduled
  endTxMsg : Option ℚ
  endIFGMsg : Option ℚ
  endPauseMsg : Option ℚ
  endRxMsg : Option ℚ
  endBackoffMsg : Option ℚ
  endJammingMsg : Option ℚ
  statistics : Statistics
  -- what the module sent and what it did to its queue
  physOut : List Packet
  upperLayerOut : List EtherFrame
  requests : ℕ
  accepted : List EtherFrame
  removed : List Removal
  deriving DecidableEq

namespace EtherMAC

/-- `scheduleAt` on a message that is under way is an error. -/
def scheduleAt (time : ℚ) (timer : Option ℚ) : Except Fault (Option ℚ) :=
  if timer.isSome then .error .alreadyScheduled else .ok (some time)

section

variable (s : EtherMAC)

def send (packet : Packet) : EtherMAC := { s with physOut := s.physOut ++ [packet] }

/-! ## Timers -/

def scheduleEndIFGPeriod : Except Fault EtherMAC := do
  let endIFGMsg ← scheduleAt (s.now + s.params.interFrameGap) s.endIFGMsg
  return { s with endIFGMsg, transmitState := .waitIfg }

def scheduleEndTxPeriod (frame : EtherFrame) : Except Fault EtherMAC := do
  let endTxMsg ← scheduleAt (s.now + 8 * frame.byteLength * s.params.bitTime) s.endTxMsg
  return { s with endTxMsg, transmitState := .transmitting }

/-- The number of bit times is an `int`; if it has become negative, the pause would end in the past. -/
def scheduleEndPausePeriod (pauseUnits : ℤ) : Except Fault EtherMAC :=
  let bitTimes := (BitVec.ofInt 32 (pauseUnits * PAUSE_BITTIME)).toInt
  if bitTimes < 0 then .error .scheduledInPast
  else do
    let endPauseMsg ← scheduleAt (s.now + bitTimes * s.params.bitTime) s.endPauseMsg
    return { s with endPauseMsg, transmitState := .pause }

def scheduleEndRxPeriod (frame : EtherFrame) : Except Fault EtherMAC := do
  let endRxMsg ← scheduleAt (s.now + 8 * frame.byteLength * s.params.bitTime) s.endRxMsg
  return { s with endRxMsg, receiveState := .receiving }

/-- Whether the transmitter now pauses, and the new state. -/
def checkAndScheduleEndPausePeriod : Except Fault (Bool × EtherMAC) :=
  if 0 < s.pauseUnitsRequested then do
    let s ← s.scheduleEndPausePeriod s.pauseUnitsRequested
    return (true, { s with pauseUnitsRequested := 0 })
  else return (false, s)

end

section

variable (cfg : Config)

section

variable (s : EtherMAC)

def beginSendFrames : Except Fault EtherMAC :=
  if s.txQueue ≠ [] then s.scheduleEndIFGPeriod
  else .ok { s with
    transmitState := .txIdle
    requests := if cfg.queueModule then s.requests + 1 else s.requests }

/-! ## Frames from the upper layer -/

def enqueue (frame : EtherFrame) (txQueue : List EtherFrame) : EtherMAC :=
  { s with txQueue, accepted := s.accepted ++ [frame] }

def processFrameFromUpperLayerBase (frame : EtherFrame) :
    Except Fault EtherMAC :=
  if frame.dest = cfg.address then .error .localDestination
  else if MAX_ETHERNET_FRAME < frame.byteLength then .error .frameTooLong
  else if frame.pauseTime = none then
    if cfg.txQueueLimit ≠ 0 ∧ cfg.txQueueLimit < s.txQueue.length then .error .txQueueLimitExceeded
    else
      let frame := if frame.src = 0 then { frame with src := cfg.address } else frame
      let statistics :=
        { s.statistics with numFramesFromHL := s.statistics.numFramesFromHL + 1 }
      .ok ({ s with statistics }.enqueue frame (s.txQueue ++ [frame]))
  else match s.txQueue with
    -- PAUSE frames enjoy priority over all other frames queued up
    | front :: rest => .ok (s.enqueue frame (frame :: front :: rest))
    | [] => .ok (s.enqueue frame [frame])

def processFrameFromUpperLayer (frame : EtherFrame) :
    Except Fault EtherMAC := do
  let s ← s.processFrameFromUpperLayerBase cfg frame
  if !s.autoconfigInProgress && (s.duplexMode || s.receiveState = .rxIdle) &&
      s.transmitState = .txIdle then
    s.scheduleEndIFGPeriod
  else return s

/-! ## Transmission -/

def sendJamSignal : Except Fault EtherMAC := do
  let s := s.send (.jam JAM_SIGNAL_BYTES)
  let endJammingMsg ← scheduleAt (s.now + s.params.jamDuration) s.endJammingMsg
  return { s with endJammingMsg, transmitState := .jamming }

def countCollision : EtherMAC :=
  { s with statistics.numCollisions := s.statistics.numCollisions + 1 }

/-- The frame under reception, if any, is lost. -/
def collide : EtherMAC :=
  let s := if s.receiveState = .receiving then
    { s with frameBeingReceived := none }.countCollision else s
  { s with receiveState := .rxCollision }

/-- The copy goes out, and the burst variables are updated. -/
def sendCopy (frame : EtherFrame) : EtherMAC :=
  let s := s.send (.frame frame)
  if s.params.frameBursting then
    { s with
      bytesSentInBurst := frame.byteLength, framesSentInBurst := s.framesSentInBurst + 1 }
  else s

def startFrameTransmission : Except Fault EtherMAC :=
  match s.txQueue with
  | [] => .error .nullPointer
  | origFrame :: _ => do
    let byteLength := origFrame.byteLength + PREAMBLE_BYTES + SFD_BYTES
    let frame := { origFrame with byteLength }
    let s := s.sendCopy frame
    -- receptions that began during the interframe gap were not noticed
    if !s.duplexMode && s.receiveState != .rxIdle then
      let s ← s.sendJamSignal
      return s.collide
    else s.scheduleEndTxPeriod frame

/-- Carrier extension of the frame at the front, in Gigabit Ethernet. -/
def extendCarrier : EtherMAC :=
  match s.txQueue with
  | [] => s
  | frame :: rest =>
    if s.params.carrierExtension && frame.byteLength < GIGABIT_MIN_FRAME_WITH_EXT then
      { s with txQueue := { frame with byteLength := GIGABIT_MIN_FRAME_WITH_EXT } :: rest }
    else s

def handleEndIFGPeriodBase : Except Fault EtherMAC :=
  if s.transmitState ≠ .waitIfg then .error .notInWaitIfg
  else if s.txQueue = [] then .error .endOfIfgNoFrame
  else
    let s := s.extendCarrier
    .ok (if s.params.frameBursting then { s with framesSentInBurst := 0, bytesSentInBurst := 0 }
      else s)

def handleEndIFGPeriod : Except Fault EtherMAC := do
  let s ← s.handleEndIFGPeriodBase
  s.extendCarrier.startFrameTransmission

def handleEndTxPeriodBase : Except Fault EtherMAC :=
  if s.transmitState ≠ .transmitting ∨ (s.duplexMode = false ∧ s.receiveState ≠ .rxIdle) then
    .error .endOfTransmissionState
  else match s.txQueue with
    | [] => .error .frameUnderTransmissionNotFound
    | frame :: rest =>
      let statistics := { s.statistics with
        numFramesSent := s.statistics.numFramesSent + 1
        numBytesSent := s.statistics.numBytesSent + frame.byteLength
        numPauseFramesSent := s.statistics.numPauseFramesSent +
          if frame.pauseTime.isSome then 1 else 0 }
      .ok { s with
        statistics, txQueue := rest
        removed := s.removed ++ [⟨frame, s.backoffs, true⟩] }

def handleEndTxPeriod : Except Fault EtherMAC := do
  let s ← s.handleEndTxPeriodBase
  let s := { s with backoffs := 0 }
  let (pausing, s) ← s.checkAndScheduleEndPausePeriod
  if pausing then return s
  else if s.params.frameBursting && s.txQueue ≠ [] &&
      s.bytesSentInBurst < GIGABIT_MAX_BURST_BYTES then
    s.startFrameTransmission
  else s.beginSendFrames cfg

def handleEndPausePeriod : Except Fault EtherMAC :=
  if s.transmitState ≠ .pause then .error .endOfPauseState else s.beginSendFrames cfg

def handleEndBackoffPeriod : Except Fault EtherMAC :=
  if s.transmitState ≠ .backoff then .error .endOfBackoffState
  else if s.txQueue = [] then .error .endOfBackoffEmpty
  else if s.receiveState = .rxIdle then s.scheduleEndIFGPeriod
  else .ok { s with transmitState := .txIdle }

/-- The backoff is as many slots as the random number `draw` says. -/
def handleRetransmission (draw : ℕ) : Except Fault EtherMAC :=
  let s := { s with backoffs := s.backoffs + 1 }
  if MAX_ATTEMPTS < s.backoffs then
    match s.txQueue with
    | [] => .error .emptyQueue
    | frame :: rest =>
      .ok { s with
        txQueue := rest, transmitState := .txIdle, backoffs := 0
        removed := s.removed ++ [⟨frame, s.backoffs, false⟩] }
  else do
    let backoffrange := if BACKOFF_RANGE_LIMIT ≤ s.backoffs then 1024 else 2 ^ s.backoffs
    let slotNumber := draw % backoffrange
    let endBackoffMsg ← scheduleAt (s.now + slotNumber * s.params.slotTime) s.endBackoffMsg
    return { s with
      endBackoffMsg, transmitState := .backoff
      statistics.numBackoffs := s.statistics.numBackoffs + 1 }

def handleEndJammingPeriod (draw : ℕ) : Except Fault EtherMAC :=
  if s.transmitState ≠ .jamming then .error .endOfJammingState else s.handleRetransmission draw

/-! ## Reception -/

def processPauseCommand (pauseUnits : ℤ) : Except Fault EtherMAC :=
  match s.transmitState with
  | .txIdle => if 0 < pauseUnits then s.scheduleEndPausePeriod pauseUnits else .ok s
  | .pause =>
    let s := { s with endPauseMsg := none }
    if 0 < pauseUnits then s.scheduleEndPausePeriod pauseUnits else .ok s
  | _ => .ok { s with pauseUnitsRequested := pauseUnits }

def checkDestinationAddress (frame : EtherFrame) : Bool :=
  cfg.promiscuous || frame.dest.isBroadcast || frame.dest == cfg.address

def processReceivedDataFrame (frame : EtherFrame) :
    Except Fault EtherMAC :=
  if frame.hasBitError then
    .ok { s with statistics.numDroppedBitError := s.statistics.numDroppedBitError + 1 }
  else if frame.byteLength < PREAMBLE_BYTES + SFD_BYTES then .error .negativeLength
  else
    let frame := { frame with byteLength := frame.byteLength - PREAMBLE_BYTES - SFD_BYTES }
    let statistics := { s.statistics with
      numFramesReceivedOK := s.statistics.numFramesReceivedOK + 1
      numBytesReceivedOK := s.statistics.numBytesReceivedOK + frame.byteLength }
    if checkDestinationAddress cfg frame then
      .ok { s with
        statistics := { statistics with
          numFramesPassedToHL := statistics.numFramesPassedToHL + 1 }
        upperLayerOut := s.upperLayerOut ++ [frame] }
    else
      .ok { s with statistics := { statistics with
        numDroppedNotForUs := statistics.numDroppedNotForUs + 1 } }

def frameReceptionComplete (frame : EtherFrame) :
    Except Fault EtherMAC :=
  match frame.pauseTime with
  | some pauseUnits =>
    { s with statistics.numPauseFramesRcvd := s.statistics.numPauseFramesRcvd + 1
      }.processPauseCommand pauseUnits
  | none => s.processReceivedDataFrame cfg frame

/-- The reception of the current frame is complete. -/
def completeReception : Except Fault EtherMAC :=
  match s.frameBeingReceived with
  | none => .error .nullPointer
  | some frame => { s with frameBeingReceived := none }.frameReceptionComplete cfg frame

/-- What was received is passed on, unless it collided. -/
def passOn : Except Fault EtherMAC :=
  if s.receiveState = .receiving then s.completeReception cfg else .ok s

def handleEndRxPeriod : Except Fault EtherMAC := do
  let s ← s.passOn cfg
  let s := { s with receiveState := .rxIdle, numConcurrentTransmissions := 0 }
  if s.transmitState = .txIdle && s.txQueue ≠ [] then s.scheduleEndIFGPeriod else return s

def processMsgFromNetworkBase (packet : Packet) (sendingTime : ℚ) :
    Except Fault Unit :=
  match packet with
  | .autoconfig _ _ => .error .unexpectedMessageClass
  | _ =>
    if s.duplexMode = false ∧ s.params.shortestFrameDuration ≤ s.now - sendingTime then
      .error .longPropagationTime
    else .ok ()

/-- The transmission is interrupted by an incoming frame. -/
def interrupt (endRxTime : ℚ) : Except Fault EtherMAC := do
  let s ← { s with endTxMsg := none }.sendJamSignal
  let endJamTime := s.now + s.params.jamDuration
  let endRxMsg ← scheduleAt (if endRxTime < endJamTime then endJamTime else endRxTime) s.endRxMsg
  return { s with
    endRxMsg, receiveState := .rxCollision
    numConcurrentTransmissions := s.numConcurrentTransmissions + 1 }.countCollision

def startReception (frame : EtherFrame) : Except Fault EtherMAC :=
  if s.frameBeingReceived.isSome then .error .frameBeingReceivedInRxIdle
  else { s with
    numConcurrentTransmissions := s.numConcurrentTransmissions + 1
    frameBeingReceived := some frame }.scheduleEndRxPeriod frame

/-- The frame arrives together with the end of the previous one. -/
def isBackToBack : Bool :=
  s.receiveState = .receiving && s.endRxMsg.any fun t ↦ t - s.now < s.params.bitTime

def receiveBackToBack (frame : EtherFrame) :
    Except Fault EtherMAC := do
  let s ← { s with endRxMsg := none }.completeReception cfg
  { s with frameBeingReceived := some frame }.scheduleEndRxPeriod frame

/-- A jam signal marks the end of one of the colliding transmissions. -/
def overlapJam (endRxTime : ℚ) : Except Fault EtherMAC :=
  if s.numConcurrentTransmissions ≤ 0 then .error .strayJamCount
  else
    let s := { s with numConcurrentTransmissions := s.numConcurrentTransmissions - 1 }
    if s.numConcurrentTransmissions = 0 then .ok { s with endRxMsg := some endRxTime }.collide
    else .ok s.collide

/-- The collision lasts until the end of the longest transmission. -/
def overlapFrame (endRxTime : ℚ) : EtherMAC :=
  let s := { s with numConcurrentTransmissions := s.numConcurrentTransmissions + 1 }
  if s.endRxMsg.any fun t ↦ t < endRxTime then { s with endRxMsg := some endRxTime }.collide
  else s.collide

def processMsgFromNetwork (packet : Packet) (sendingTime : ℚ) :
    Except Fault EtherMAC := do
  s.processMsgFromNetworkBase packet sendingTime
  let endRxTime := s.now + 8 * packet.byteLength * s.params.bitTime
  match packet with
  | .frame frame =>
    if s.duplexMode = false ∧ s.transmitState = .transmitting then s.interrupt endRxTime
    else if s.receiveState = .rxIdle then s.startReception frame
    else if s.isBackToBack then s.receiveBackToBack cfg frame
    else return s.overlapFrame endRxTime
  | _ =>
    if s.duplexMode = false ∧ s.transmitState = .transmitting then
      .error .strayJamWhileTransmitting
    else if s.receiveState = .rxIdle then .error .strayJam
    else s.overlapJam endRxTime

/-! ## Messages -/

inductive Message
  | upperLayer (frame : EtherFrame)
  | network (packet : Packet) (sendingTime : ℚ)
  | endAutoconfig
  | endIFG
  | endTransmission
  | endReception
  | endBackoff
  | endJamming (draw : ℕ)
  | endPause
  deriving DecidableEq

/-- The message arrives at this time. -/
structure Event where
  time : ℚ
  message : Message
  deriving DecidableEq

def finishAutoconfig : Except Fault EtherMAC := do
  let lowest := s.lowestTxrateSuggested
  let txrate :=
    if cfg.txrate = 0 ∧ lowest = 0 then FAST_ETHERNET_TXRATE
    else if cfg.txrate = 0 then lowest
    else if lowest = 0 then cfg.txrate
    else if lowest < cfg.txrate then lowest else cfg.txrate
  let duplexMode := cfg.duplexEnabled && !s.duplexVetoed
  let params ← calculateParameters txrate duplexMode
  let s := { s with
    autoconfigInProgress := false, endAutoconfigMsg := none, txrate, duplexMode, params }
  if s.txQueue ≠ [] then s.scheduleEndIFGPeriod else return s

def handleAutoconfigMessage (message : Message) :
    Except Fault EtherMAC :=
  match message with
  | .upperLayer frame => s.processFrameFromUpperLayer cfg frame
  | .network (.autoconfig acTxrate halfDuplex) _ =>
    let lowest := s.lowestTxrateSuggested
    .ok { s with
      lowestTxrateSuggested := if 0 < acTxrate ∧ (acTxrate < lowest ∨ lowest = 0) then acTxrate
        else lowest
      duplexVetoed := s.duplexVetoed || halfDuplex }
  | .network _ _ => .error .unexpectedMessageClass
  | _ => s.finishAutoconfig cfg

def handleMessage (event : Event) : Except Fault EtherMAC :=
  let s := { s with now := event.time }
  if s.autoconfigInProgress then s.handleAutoconfigMessage cfg event.message
  else if s.duplexMode = false ∧ s.transmitState = .transmitting ∧ s.receiveState ≠ .rxIdle then
    .error .inconsistentState
  else match event.message with
    | .upperLayer frame => s.processFrameFromUpperLayer cfg frame
    | .network packet sendingTime => s.processMsgFromNetwork cfg packet sendingTime
    | .endIFG => { s with endIFGMsg := none }.handleEndIFGPeriod
    | .endTransmission => { s with endTxMsg := none }.handleEndTxPeriod cfg
    | .endReception => { s with endRxMsg := none }.handleEndRxPeriod cfg
    | .endBackoff => { s with endBackoffMsg := none }.handleEndBackoffPeriod
    | .endJamming draw => { s with endJammingMsg := none }.handleEndJammingPeriod draw
    | .endPause => { s with endPauseMsg := none }.handleEndPausePeriod cfg
    | .endAutoconfig => .error .unexpectedMessageKind

end

/-- The module when autoconfiguration has been started. The first frame of a queue module has been
requested. -/
def initialized : EtherMAC where
  now := 0
  autoconfigInProgress := true
  endAutoconfigMsg := some AUTOCONFIG_PERIOD
  lowestTxrateSuggested := 0
  duplexVetoed := false
  txrate := 0
  duplexMode := cfg.duplexEnabled
  params := ⟨0, 0, 0, 0, 0, false, false⟩
  transmitState := .txIdle
  receiveState := .rxIdle
  txQueue := []
  pauseUnitsRequested := 0
  backoffs := 0
  numConcurrentTransmissions := 0
  frameBeingReceived := none
  framesSentInBurst := 0
  bytesSentInBurst := 0
  endTxMsg := none
  endIFGMsg := none
  endPauseMsg := none
  endRxMsg := none
  endBackoffMsg := none
  endJammingMsg := none
  statistics := ⟨0, 0, 0, 0, 0, 0, 0, 0, 0, 0, 0, 0⟩
  physOut :=
    if !cfg.duplexEnabled || 0 < cfg.txrate then
      [.autoconfig (if 0 < cfg.txrate then cfg.txrate else 0) !cfg.duplexEnabled] else []
  upperLayerOut := []
  requests := if cfg.queueModule then 1 else 0
  accepted := []
  removed := []

end

/-! ## The order of events -/

/-- The timer whose expiry the message is. -/
def timer (s : EtherMAC) : Message → Option ℚ
  | .endAutoconfig => s.endAutoconfigMsg
  | .endIFG => s.endIFGMsg
  | .endTransmission => s.endTxMsg
  | .endReception => s.endRxMsg
  | .endBackoff => s.endBackoffMsg
  | .endJamming _ => s.endJammingMsg
  | .endPause => s.endPauseMsg
  | _ => none

def timers (s : EtherMAC) : List (Option ℚ) :=
  [s.endAutoconfigMsg, s.endIFGMsg, s.endTxMsg, s.endRxMsg, s.endBackoffMsg, s.endJammingMsg,
    s.endPauseMsg]

def Message.isSelfMessage : Message → Bool
  | upperLayer _ => false
  | network _ _ => false
  | _ => true

/-- The event can be the next one: time does not run backwards or past a timer, and a timer that
expires was set to this time. Events of the same time come in any order. -/
structure Arrives (s : EtherMAC) (event : Event) : Prop where
  later : s.now ≤ event.time
  earlier : ∀ timer ∈ s.timers, ∀ t ∈ timer, event.time ≤ t
  expires : event.message.isSelfMessage = true → s.timer event.message = some event.time

instance (s : EtherMAC) (event : Event) : Decidable (s.Arrives event) :=
  decidable_of_iff (s.now ≤ event.time ∧ (∀ timer ∈ s.timers, ∀ t ∈ timer, event.time ≤ t) ∧
      (event.message.isSelfMessage = true → s.timer event.message = some event.time))
    ⟨fun h ↦ ⟨h.1, h.2.1, h.2.2⟩, fun h ↦ ⟨h.later, h.earlier, h.expires⟩⟩

end EtherMAC

end InetManet
