import InetManet.Ethernet.RelayUnit
import Mathlib.Data.Rat.Floor
import Mathlib.Data.Fintype.Basic

/-!
# The state machine of the 802.11 MAC

A frame from the upper layer is queued, and the front of the queue is sent after a DIFS and, when the
medium was busy meanwhile, a random backoff. A unicast frame stays at the front until an ACK arrives or
the limit of transmissions is reached. Frames of other stations reserve the medium, which counts as
busy until the reservation ends.

Times are exact. The state also records what arrived, was sent and left the queue so far, which the
code does not store.
-/

namespace InetManet

open TransitionSystem
open Ethernet (MACAddress)

namespace Ieee80211Mac

def ST : ℚ := 20 / 1000000
def SIFS : ℚ := 10 / 1000000
def MAX_PROPAGATION_DELAY : ℚ := 2 / 1000000
def CW_MAX : ℕ := 1023
def LENGTH_RTS : ℕ := 160
def LENGTH_CTS : ℕ := 112
def LENGTH_ACK : ℕ := 112
def PHY_HEADER_LENGTH : ℕ := 192
def BITRATE_HEADER : ℚ := 1000000
def basicBitrate : ℚ := 2000000
def fragmentationThreshold : ℕ := 2346

/-- The bound of the simulation kernel on the transitions for one event. -/
def FSM_MAXT : ℕ := 64

inductive State
  | idle
  | defer
  | waitDIFS
  | backoff
  | waitACK
  | waitBroadcast
  | waitCTS
  | waitSIFS
  | receive
  deriving DecidableEq

inductive RadioState
  | idle
  | recv
  | transmit
  | sleep
  deriving DecidableEq

inductive Timer
  | endSIFS
  | endDIFS
  | endBackoff
  | endTimeout
  | endReserve
  | mediumStateChange
  deriving DecidableEq

instance : Fintype Timer where
  elems := {.endSIFS, .endDIFS, .endBackoff, .endTimeout, .endReserve, .mediumStateChange}
  complete timer := by cases timer <;> simp

inductive FrameType
  | dataOrMgmt
  | rts
  | cts
  | ack
  | other
  deriving DecidableEq

/-- A frame. The duration is -1 where none is given. -/
structure Ieee80211Frame where
  type : FrameType
  receiverAddress : MACAddress
  transmitterAddress : MACAddress
  duration : ℚ
  bitLength : ℕ
  moreFragments : Bool
  sequenceNumber : ℕ
  deriving DecidableEq

/-- The kind of a message from the radio says whether the reception failed. -/
inductive MsgKind
  | good
  | bitError
  | collision
  deriving DecidableEq

/-- A radio configuration command, with -1 for what it leaves as it is. -/
structure PhyControlInfo where
  channelNumber : ℤ
  bitrate : ℚ
  deriving DecidableEq

inductive Message
  | upper (frame : Ieee80211Frame)
  | lower (frame : Ieee80211Frame) (kind : MsgKind)
  | self (timer : Timer)
  deriving DecidableEq

/-- How a frame leaves the transmission queue. -/
inductive Departure
  | sent
  | broadcastSent
  | givenUp
  deriving DecidableEq

/-- What the MAC did, in order. A transmission names the queued frame and the frame that was sent. -/
inductive Record
  | arrived (frame : Ieee80211Frame)
  | received (frame : Ieee80211Frame) (kind : MsgKind)
  | expired (timer : Timer)
  | transmitted (current built : Ieee80211Frame)
  | requested (current built : Ieee80211Frame)
  | answered (built : Ieee80211Frame)
  | sentUp (frame : Ieee80211Frame)
  | configured (command : PhyControlInfo)
  | departed (frame : Ieee80211Frame) (how : Departure)
  deriving DecidableEq

inductive Fault
  | alreadyScheduled (timer : Timer)
  | scheduledInPast (timer : Timer)
  | nullPointer
  | infiniteLoop
  | dataReady
  | immediateDataReady
  | difsOver
  | retryCounter
  | retryLimit
  | negativeBackoff
  | reservePeriod
  | messageTooLong
  | unspecifiedReceiver
  | ownTransmitter
  deriving DecidableEq

structure Config where
  address : MACAddress
  fixFSM : Bool
  maxQueueSize : ℤ
  bitrate : ℚ
  rtsThreshold : ℤ
  transmissionLimit : ℕ
  cwMinData : ℕ
  cwMinBroadcast : ℕ
  bitrate_pos : 0 < bitrate
  transmissionLimit_pos : 0 < transmissionLimit

structure Mac where
  state : State
  now : ℚ
  radioState : RadioState
  sequenceNumber : ℕ
  lastReceiveFailed : Bool
  backoff : Bool
  backoffPeriod : ℚ
  retryCounter : ℕ
  transmissionQueue : List Ieee80211Frame
  pendingRadioConfigMsg : Option PhyControlInfo
  timers : Timer → Option ℚ
  /-- The sending time of the backoff timer. -/
  backoffSince : ℚ
  /-- The frame that the SIFS timer carries. -/
  frameReceivedBeforeSIFS : Option Ieee80211Frame
  log : List Record

def initialized : Mac where
  state := .idle
  now := 0
  radioState := .idle
  sequenceNumber := 0
  lastReceiveFailed := false
  backoff := false
  backoffPeriod := -1
  retryCounter := 0
  transmissionQueue := []
  pendingRadioConfigMsg := none
  timers := fun _ ↦ none
  backoffSince := 0
  frameReceivedBeforeSIFS := none
  log := []

/-! ## Frames and messages -/

def Ieee80211Frame.byteLength (frame : Ieee80211Frame) : ℕ := (frame.bitLength + 7) / 8

def isBroadcast (frame : Ieee80211Frame) : Bool := frame.receiverAddress.isBroadcast

def isForUs (config : Config) (frame : Ieee80211Frame) : Bool := frame.receiverAddress == config.address

def isDataOrMgmtFrame (frame : Ieee80211Frame) : Bool := frame.type == .dataOrMgmt

def isTwoAddressFrame (frame : Ieee80211Frame) : Bool := frame.type == .dataOrMgmt || frame.type == .rts

def MsgKind.failed (kind : MsgKind) : Bool := kind == .collision || kind == .bitError

def Message.isUpper : Message → Bool
  | .upper _ => true
  | _ => false

def Message.isLower : Message → Bool
  | .lower _ _ => true
  | _ => false

def computeFrameDuration (bits : ℕ) (bitrate : ℚ) : ℚ :=
  bits / bitrate + PHY_HEADER_LENGTH / BITRATE_HEADER

def getDIFS : ℚ := SIFS + 2 * ST

def getEIFS : ℚ := SIFS + getDIFS + (8 * LENGTH_ACK + PHY_HEADER_LENGTH) / 1000000

def buildDataFrame (config : Config) (frame : Ieee80211Frame) : Ieee80211Frame :=
  let ackTime := computeFrameDuration LENGTH_ACK basicBitrate
  if isBroadcast frame then { frame with duration := 0 }
  else if !frame.moreFragments then { frame with duration := SIFS + ackTime }
  else { frame with
    duration := 3 * SIFS + 2 * ackTime + computeFrameDuration frame.bitLength config.bitrate }

def buildACKFrame (frame : Ieee80211Frame) : Ieee80211Frame :=
  let duration :=
    if !frame.moreFragments then 0
    else frame.duration - SIFS - computeFrameDuration LENGTH_ACK basicBitrate
  ⟨.ack, frame.transmitterAddress, 0, duration, LENGTH_ACK, false, 0⟩

def buildRTSFrame (config : Config) (frame : Ieee80211Frame) : Ieee80211Frame :=
  let duration := 3 * SIFS + computeFrameDuration LENGTH_CTS basicBitrate +
    computeFrameDuration frame.bitLength config.bitrate + computeFrameDuration LENGTH_ACK basicBitrate
  ⟨.rts, frame.receiverAddress, config.address, duration, LENGTH_RTS, false, 0⟩

def buildCTSFrame (frame : Ieee80211Frame) : Ieee80211Frame :=
  let duration := frame.duration - SIFS - computeFrameDuration LENGTH_CTS basicBitrate
  ⟨.cts, frame.transmitterAddress, 0, duration, LENGTH_CTS, false, 0⟩

def buildBroadcastFrame (frame : Ieee80211Frame) : Ieee80211Frame := { frame with duration := 0 }

namespace Mac

/-! ## Timers -/

def scheduleAt (s : Mac) (time : ℚ) (timer : Timer) : Except Fault Mac :=
  if (s.timers timer).isSome then .error (.alreadyScheduled timer)
  else if time < s.now then .error (.scheduledInPast timer)
  else .ok { s with timers := Function.update s.timers timer (some time) }

def cancelEvent (s : Mac) (timer : Timer) : Mac :=
  { s with timers := Function.update s.timers timer none }

def moveTo (s : Mac) (state : State) : Mac := { s with state := state }

def note (s : Mac) (entry : Record) : Mac := { s with log := s.log ++ [entry] }

def isMediumStateChange (s : Mac) (msg : Message) : Bool :=
  msg == .self .mediumStateChange || (msg == .self .endReserve && s.radioState == .idle)

def isMediumFree (s : Mac) : Bool := s.radioState == .idle && (s.timers .endReserve).isNone

def scheduleSIFSPeriod (s : Mac) : Message → Except Fault Mac
  | .lower frame _ => { s with frameReceivedBeforeSIFS := some frame }.scheduleAt (s.now + SIFS) .endSIFS
  | .upper frame => { s with frameReceivedBeforeSIFS := some frame }.scheduleAt (s.now + SIFS) .endSIFS
  | .self _ => .error .nullPointer

def scheduleDIFSPeriod (s : Mac) : Except Fault Mac :=
  s.scheduleAt (s.now + if s.lastReceiveFailed then getEIFS else getDIFS) .endDIFS

variable (config : Config)

def scheduleDataTimeoutPeriod (s : Mac) : Except Fault Mac :=
  match s.transmissionQueue with
  | [] => .error .nullPointer
  | frame :: _ =>
    s.scheduleAt (s.now + computeFrameDuration frame.bitLength config.bitrate + SIFS +
      computeFrameDuration LENGTH_ACK basicBitrate + MAX_PROPAGATION_DELAY * 2) .endTimeout

def scheduleBroadcastTimeoutPeriod (s : Mac) : Except Fault Mac :=
  match s.transmissionQueue with
  | [] => .error .nullPointer
  | frame :: _ => s.scheduleAt (s.now + computeFrameDuration frame.bitLength config.bitrate) .endTimeout

def scheduleCTSTimeoutPeriod (s : Mac) : Except Fault Mac :=
  s.scheduleAt (s.now + computeFrameDuration LENGTH_RTS basicBitrate + SIFS +
    computeFrameDuration LENGTH_CTS basicBitrate + MAX_PROPAGATION_DELAY * 2) .endTimeout

def startReserve (s : Mac) (reserve : ℚ) : Except Fault Mac :=
  if reserve ≤ 0 then .error .reservePeriod else s.scheduleAt (s.now + reserve) .endReserve

def announceBusy (s : Mac) : Except Fault Mac :=
  if s.radioState = .idle then s.scheduleAt s.now .mediumStateChange else .ok s

def scheduleReservePeriod (s : Mac) (frame : Ieee80211Frame) : Except Fault Mac :=
  if !isForUs config frame && frame.duration != 0 && frame.duration < 32768 then
    match s.timers .endReserve with
    | some arrival =>
      if frame.duration < arrival - s.now then .ok s
      else (s.cancelEvent .endReserve).startReserve (max frame.duration (arrival - s.now))
    | none => do
      let s ← s.announceBusy
      s.startReserve frame.duration
  else .ok s

/-! ## Backoff -/

def computeBackoffPeriod (frame : Option Ieee80211Frame) (r draw : ℕ) :
    Except Fault ℚ :=
  if frame.any isBroadcast then .ok ((draw % (config.cwMinBroadcast + 1) : ℕ) * ST)
  else if r < config.transmissionLimit then
    .ok ((draw % (min ((config.cwMinData + 1) * 2 ^ r - 1) CW_MAX + 1) : ℕ) * ST)
  else .error .retryCounter

def invalidateBackoffPeriod (s : Mac) : Mac := { s with backoffPeriod := -1 }

def isInvalidBackoffPeriod (s : Mac) : Bool := s.backoffPeriod == -1

variable (draw : ℕ)

section

variable (s : Mac)

def generateBackoffPeriod : Except Fault Mac := do
  let period ← computeBackoffPeriod config s.transmissionQueue.head? s.retryCounter draw
  if period < 0 then .error .negativeBackoff else .ok { s with backoffPeriod := period }

def decreaseBackoffPeriod : Except Fault Mac :=
  let period := s.backoffPeriod - ⌊(s.now - s.backoffSince) / ST⌋ * ST
  if period < 0 then .error .negativeBackoff else .ok { s with backoffPeriod := period }

def scheduleBackoffPeriod : Except Fault Mac :=
  { s with backoffSince := s.now }.scheduleAt (s.now + s.backoffPeriod) .endBackoff

/-! ## The current transmission -/

def resetStateVariables : Mac :=
  { s with backoffPeriod := 0, retryCounter := 0, backoff := !s.transmissionQueue.isEmpty }

def finishReception : Mac :=
  if !s.transmissionQueue.isEmpty then { s with backoff := true }
  else { s with backoffPeriod := 0, retryCounter := 0, backoff := false }

def endReception : Mac :=
  if config.fixFSM then s.finishReception else s.resetStateVariables

def popTransmissionQueue (how : Departure) : Except Fault Mac :=
  match s.transmissionQueue with
  | [] => .error .nullPointer
  | frame :: rest => .ok ({ s with transmissionQueue := rest }.note (.departed frame how))

def finishCurrentTransmission (how : Departure) : Except Fault Mac := do
  let s ← s.popTransmissionQueue how
  .ok s.resetStateVariables

def giveUpCurrentTransmission : Except Fault Mac := do
  let s ← s.popTransmissionQueue .givenUp
  .ok s.resetStateVariables

def retryCurrentTransmission : Except Fault Mac :=
  if s.retryCounter < config.transmissionLimit - 1 then
    { s with retryCounter := s.retryCounter + 1, backoff := true }.generateBackoffPeriod config draw
  else .error .retryLimit

def sendDownPendingRadioConfigMsg : Mac :=
  match s.pendingRadioConfigMsg with
  | none => s
  | some command => { s with pendingRadioConfigMsg := none }.note (.configured command)

/-- The transitions that send the current frame, the same in WAITDIFS and in BACKOFF. -/
def transmitCurrent (frame : Ieee80211Frame) : Mac :=
  if !isBroadcast frame && config.rtsThreshold ≤ frame.byteLength then
    (s.note (.requested frame (buildRTSFrame config frame))).moveTo .waitCTS
  else if isBroadcast frame then
    (s.note (.transmitted frame (buildBroadcastFrame frame))).moveTo .waitBroadcast
  else (s.note (.transmitted frame (buildDataFrame config frame))).moveTo .waitACK

end

/-! ## Transitions for an event -/

section

variable (msg : Message)

section

variable (s : Mac)

def idleEvent : Except Fault (Option Mac) :=
  if config.fixFSM && msg.isUpper && 0 < s.backoffPeriod then .error .dataReady
  else if msg.isUpper then
    if s.isInvalidBackoffPeriod || s.backoffPeriod == 0 then
      .ok (some (s.invalidateBackoffPeriod.moveTo .defer))
    else .error .dataReady
  else if msg.isLower then .ok (some (s.moveTo .receive))
  else .ok none

def deferEvent : Except Fault (Option Mac) :=
  if s.isMediumStateChange msg && s.isMediumFree then .ok (some (s.moveTo .waitDIFS))
  else if msg.isLower then .ok (some (s.moveTo .receive))
  else .ok none

def difsOver : Except Fault (Option Mac) :=
  if !s.backoff then .error .difsOver
  else if s.isInvalidBackoffPeriod then do
    let s ← s.generateBackoffPeriod config draw
    .ok (some (s.moveTo .backoff))
  else .ok (some (s.moveTo .backoff))

def waitDIFSEvent : Except Fault (Option Mac) :=
  if msg = .self .endDIFS then
    match s.transmissionQueue with
    | [] => s.difsOver config draw
    | frame :: _ =>
      if !s.backoff then .ok (some ((s.transmitCurrent config frame).cancelEvent .endDIFS))
      else s.difsOver config draw
  else if s.isMediumStateChange msg && !s.isMediumFree then
    .ok (some (({ s with backoff := true }.cancelEvent .endDIFS).moveTo .defer))
  else if msg.isLower then .ok (some ((s.cancelEvent .endDIFS).moveTo .receive))
  else .ok none

def backoffEvent : Except Fault (Option Mac) :=
  if msg = .self .endBackoff then
    match s.transmissionQueue with
    | [] => .ok (some (s.resetStateVariables.moveTo .idle))
    | frame :: _ => .ok (some (s.transmitCurrent config frame))
  else if s.isMediumStateChange msg && !s.isMediumFree then do
    let s ← (s.cancelEvent .endBackoff).decreaseBackoffPeriod
    .ok (some (s.moveTo .defer))
  else .ok none

/-- The end of the wait for an ACK or a CTS. -/
def timeoutEvent : Except Fault (Option Mac) :=
  if s.retryCounter = config.transmissionLimit - 1 then do
    let s ← s.giveUpCurrentTransmission
    .ok (some (s.moveTo .idle))
  else do
    let s ← s.retryCurrentTransmission config draw
    .ok (some (s.moveTo .defer))

def waitACKEvent : Except Fault (Option Mac) :=
  match msg with
  | .lower frame _ =>
    if isForUs config frame && frame.type == .ack then do
      let s ← (s.cancelEvent .endTimeout).finishCurrentTransmission .sent
      .ok (some (s.moveTo .idle))
    else .ok none
  | .self .endTimeout => s.timeoutEvent config draw
  | _ => .ok none

def waitBroadcastEvent : Except Fault (Option Mac) :=
  if msg = .self .endTimeout then do
    let s ← s.finishCurrentTransmission .broadcastSent
    .ok (some ({ s with backoff := true }.invalidateBackoffPeriod.moveTo .defer))
  else .ok none

def waitCTSEvent : Except Fault (Option Mac) :=
  match msg with
  | .lower frame _ =>
    if isForUs config frame && frame.type == .cts then
      .ok (some ((s.cancelEvent .endTimeout).moveTo .waitSIFS))
    else .ok none
  | .self .endTimeout => s.timeoutEvent config draw
  | _ => .ok none

def waitSIFSEvent : Except Fault (Option Mac) :=
  if msg = .self .endSIFS then
    match s.frameReceivedBeforeSIFS with
    | none => .error .nullPointer
    | some frame =>
      let sent := { s with frameReceivedBeforeSIFS := none }
      match frame.type with
      | .rts =>
        .ok (some (((sent.note (.answered (buildCTSFrame frame))).endReception config).moveTo .idle))
      | .cts =>
        match s.transmissionQueue with
        | [] => .error .nullPointer
        | current :: _ =>
          .ok (some ((sent.note (.transmitted current (buildDataFrame config current))).moveTo .waitACK))
      | .dataOrMgmt =>
        .ok (some (((sent.note (.answered (buildACKFrame frame))).endReception config).moveTo .idle))
      | _ => .ok none
  else .ok none

def eventTransition :
    Except Fault (Option Mac) :=
  match s.state with
  | .idle => s.idleEvent config msg
  | .defer => s.deferEvent msg
  | .waitDIFS => s.waitDIFSEvent config draw msg
  | .backoff => s.backoffEvent config msg
  | .waitACK => s.waitACKEvent config draw msg
  | .waitBroadcast => s.waitBroadcastEvent msg
  | .waitCTS => s.waitCTSEvent config draw msg
  | .waitSIFS => s.waitSIFSEvent config msg
  | .receive => .ok none

/-! ## Entering a state -/

/-- The action on entering IDLE, and whether a further transition follows. -/
def enterIdle : Except Fault (Mac × Bool) :=
  let s := s.sendDownPendingRadioConfigMsg
  if config.fixFSM && !s.transmissionQueue.isEmpty && 0 < s.backoffPeriod then
    if s.backoff then .ok (s.moveTo .defer, true) else .error .immediateDataReady
  else if !s.transmissionQueue.isEmpty then .ok (s.invalidateBackoffPeriod.moveTo .defer, true)
  else .ok (s, false)

def enterDefer : Mac × Bool :=
  let s := s.sendDownPendingRadioConfigMsg
  if s.isMediumFree || !s.backoff then (s.moveTo .waitDIFS, true) else (s, false)

def enterWaitDIFS : Except Fault (Mac × Bool) := do
  let s ← s.scheduleDIFSPeriod
  if !s.isMediumFree then
    .ok (({ s with backoff := true }.cancelEvent .endDIFS).moveTo .defer, true)
  else .ok (s, false)

def enterReceive : Mac × Bool :=
  match msg with
  | .lower frame kind =>
    if kind.failed then ((s.endReception config).moveTo .idle, true)
    else if isBroadcast frame && isDataOrMgmtFrame frame then
      (((s.note (.sentUp frame)).endReception config).moveTo .idle, true)
    else if isForUs config frame && isDataOrMgmtFrame frame then
      ((s.note (.sentUp frame)).moveTo .waitSIFS, true)
    else if isForUs config frame && frame.type == .rts then (s.moveTo .waitSIFS, true)
    else ((s.endReception config).moveTo .idle, true)
  | _ => (s, false)

def stay : Mac × Bool := (s, false)

def enterState : Except Fault (Mac × Bool) :=
  match s.state with
  | .idle => s.enterIdle config
  | .defer => .ok s.enterDefer
  | .waitDIFS => s.enterWaitDIFS
  | .backoff => stay <$> s.scheduleBackoffPeriod
  | .waitACK => stay <$> s.scheduleDataTimeoutPeriod config
  | .waitBroadcast => stay <$> s.scheduleBroadcastTimeoutPeriod config
  | .waitCTS => stay <$> s.scheduleCTSTimeoutPeriod
  | .waitSIFS => stay <$> s.scheduleSIFSPeriod msg
  | .receive => .ok (s.enterReceive config msg)

end

/-- The transitions without event that follow a transition. -/
def settle (config : Config) (msg : Message) : ℕ → Mac → Except Fault Mac
  | 0, _ => .error .infiniteLoop
  | steps + 1, s => do
    let next ← s.enterState config msg
    if next.2 then settle config msg steps next.1 else .ok next.1

/-! ## Message handling -/

def noteReception (s : Mac) : Except Fault Mac :=
  match msg with
  | .lower frame kind =>
    scheduleReservePeriod config ({ s with lastReceiveFailed := kind.failed }.note (.received frame kind))
      frame
  | _ => .ok s

def handleWithFSM (s : Mac) : Except Fault Mac :=
  if msg.isUpper && s.state != .idle then .ok s
  else do
    let s ← s.noteReception config msg
    let next ← s.eventTransition config draw msg
    match next with
    | none => .ok s
    | some s => s.settle config msg (FSM_MAXT - 1)

end

def handleSelfMsg (timer : Timer) (s : Mac) : Except Fault Mac :=
  ((s.cancelEvent timer).note (.expired timer)).handleWithFSM config draw (.self timer)

def handleUpperMsg (frame : Ieee80211Frame) (s : Mac) : Except Fault Mac :=
  if config.maxQueueSize ≠ 0 ∧ s.transmissionQueue.length = config.maxQueueSize then .ok s
  else if fragmentationThreshold < frame.byteLength then .error .messageTooLong
  else if frame.receiverAddress = 0 then .error .unspecifiedReceiver
  else
    let frame := { frame with
      transmitterAddress := config.address, sequenceNumber := s.sequenceNumber }
    let s := { s with
      sequenceNumber := (s.sequenceNumber + 1) % 4096
      transmissionQueue := s.transmissionQueue ++ [frame] }
    (s.note (.arrived frame)).handleWithFSM config draw (.upper frame)

/-- A command that waits for the radio is merged into the new one. -/
def mergeCommand (pending : Option PhyControlInfo) (command : PhyControlInfo) : PhyControlInfo :=
  match pending with
  | none => command
  | some old =>
    { channelNumber := if command.channelNumber = -1 then old.channelNumber else command.channelNumber
      bitrate := if command.bitrate = -1 then old.bitrate else command.bitrate }

def handleCommand (command : PhyControlInfo) (s : Mac) : Mac :=
  let command := mergeCommand s.pendingRadioConfigMsg command
  if s.state = .idle ∨ s.state = .defer ∨ s.state = .backoff then
    { s with pendingRadioConfigMsg := none }.note (.configured command)
  else { s with pendingRadioConfigMsg := some command }

def handleLowerMsg (frame : Ieee80211Frame) (kind : MsgKind) (s : Mac) :
    Except Fault Mac :=
  if isTwoAddressFrame frame && frame.transmitterAddress == config.address then .error .ownTransmitter
  else s.handleWithFSM config draw (.lower frame kind)

def receiveChangeNotification (radioState : RadioState) (s : Mac) :
    Except Fault Mac :=
  { s with radioState := radioState }.handleWithFSM config draw (.self .mediumStateChange)

end Mac

inductive Event
  | upper (frame : Ieee80211Frame)
  | lower (frame : Ieee80211Frame) (kind : MsgKind)
  | radioStateChanged (radioState : RadioState)
  | command (command : PhyControlInfo)
  | timer (timer : Timer)
  deriving DecidableEq

/-- An event with the time at which it happens and the random number drawn for it. -/
structure Input where
  time : ℚ
  event : Event
  draw : ℕ

namespace Mac

def handleEvent (config : Config) (draw : ℕ) (event : Event) (s : Mac) : Except Fault Mac :=
  match event with
  | .upper frame => s.handleUpperMsg config draw frame
  | .lower frame kind => s.handleLowerMsg config draw frame kind
  | .radioStateChanged radioState => s.receiveChangeNotification config draw radioState
  | .command command => .ok (s.handleCommand command)
  | .timer timer => s.handleSelfMsg config draw timer

def handleMessage (config : Config) (s : Mac) (input : Input) : Except Fault Mac :=
  { s with now := input.time }.handleEvent config input.draw input.event

/-- The simulation kernel delivers events in the order of time, and each timer when it is due. -/
def Arrives (s : Mac) (input : Input) : Prop :=
  s.now ≤ input.time ∧ (∀ timer, ∀ due ∈ s.timers timer, input.time ≤ due) ∧
    ∀ timer, input.event = .timer timer → s.timers timer = some input.time

instance (s : Mac) (input : Input) : Decidable (s.Arrives input) :=
  inferInstanceAs (Decidable (_ ∧ _ ∧ _))

end Mac

end Ieee80211Mac

end InetManet
