import InetManet.SCTP.GapList
import InetManet.SCTP.ReceiveStream

/-!
# SCTP association: arrival of DATA

The receiving half of `SCTPAssociation`: `processDataArrived` with the gap list, the eviction of
chunks when the window is exhausted (`makeRoomForTsn`), and the delivery of messages to the
application (`pushUlp`). `queuedRcvBytes` is an integer, so that a subtraction that would wrap around
shows as a negative value. It comes shortly behind the arrays of the gap list, so that a run ends when
one of them is written outside of its entries. What is recorded for statistics is left out, and so are
the counters of buffer room.
-/

namespace InetManet.SCTP

open TransitionSystem SerialNumber

/-- The receiving half of an association. `delivered` are the messages handed to the application, and
`pmtu` is the one of the path to `remoteAddr`. -/
structure SCTPReceiver extends TsnState where
  receiveStreams : List SCTPReceiveStream := [{}]
  initPeerTsn := 0
  localRwnd : ℕ := 65535
  queuedRcvBytes : ℤ := 0
  cTsnAck := -1
  lastTsnAck := 0
  highestTsnReceived := 0
  highestTsnStored := 0
  numGaps := 0
  gapStartList := fun _ ↦ 0
  gapStopList := fun _ ↦ 0
  dupList := []
  newChunkReceived : Bool := false
  stopReceiving := false
  swsLimit : ℕ := 3000
  swsAvoidanceInvoked : Bool := false
  assocPmtu : ℕ := 1500
  pmtu : BitVec 32 := 1500
  messagesToPush : ℕ := 0
  pushMessagesLeft : ℤ := 0
  nextRSid : ℕ := 0
  delivered : List SCTPDataVariables := []

/-- A DATA chunk as it arrives. -/
structure SCTPDataChunk where
  tsn : BitVec 32
  sid : ℕ := 0
  ssn : BitVec 16 := 0
  uBit : Bool := false
  bBit : Bool := true
  eBit : Bool := true
  payload : List (BitVec 8) := []
  deriving DecidableEq, Repr

def makeVarFromMsg (dataChunk : SCTPDataChunk) : SCTPDataVariables :=
  { tsn := dataChunk.tsn, sid := dataChunk.sid, ssn := dataChunk.ssn, ordered := !dataChunk.uBit,
    bbit := dataChunk.bBit, ebit := dataChunk.eBit, len := 8 * dataChunk.payload.length,
    userData := dataChunk.payload }

namespace SCTPReceiver

/-! ## Window -/

section

variable (a : SCTPReceiver)

/-- `(int32)(localRwnd - queuedRcvBytes)`. -/
def freeWindow : ℤ := (BitVec.ofInt 32 (a.localRwnd - a.queuedRcvBytes)).toInt

/-- The window that `createSack` advertises. -/
def advertisedWindow : ℕ :=
  if a.freeWindow ≤ 0 then 0
  else if (BitVec.ofInt 64 (a.localRwnd - a.queuedRcvBytes)).toNat < a.swsLimit ∨
      a.swsAvoidanceInvoked then 1
  else (BitVec.ofInt 32 (a.localRwnd - a.queuedRcvBytes)).toNat

/-- The number of duplicates in a SACK. `sackLength` has 16 bits, everything else is unsigned. -/
def numDups : ℕ :=
  let room := a.pmtu - 32
  let gapLength := 16 + 4 * BitVec.ofNat 32 a.numGaps
  let numDups := BitVec.ofNat 32 a.dupList.length
  let sackLength := (gapLength + 4 * numDups).setWidth 16
  if room < sackLength.setWidth 32 then
    if room < gapLength then 0 else ((room - gapLength) / 4).toNat
  else numDups.toNat

/-- What `createSack` changes. The list of duplicates is cleared once some of them are reported. -/
def createSack : SCTPReceiver :=
  let narrow := a.freeWindow ≤ 0 ∨
    (BitVec.ofInt 64 (a.localRwnd - a.queuedRcvBytes)).toNat < a.swsLimit ∨ a.swsAvoidanceInvoked
  { a with dupList := if 0 < a.numDups then [] else a.dupList,
           swsAvoidanceInvoked := a.swsAvoidanceInvoked || (decide narrow && decide (0 < a.swsLimit)) }

/-- A fault of the gap list. -/
def ofGapList {α : Type} (x : Except GapFault α) : Except Fault α :=
  x.mapError fun _ ↦ .outOfBounds

/-! ## Window exhausted -/

/-- The chunk `high` of a stream, from the queue of its kind or from `deliveryQ`. -/
def evictVar (s : SCTPReceiveStream) (high : BitVec 32) (uBit : Bool) :
    Option (SCTPDataVariables × SCTPReceiveStream) :=
  match (if uBit then s.unorderedQ else s.orderedQ).getVar high with
  | some datVar =>
      some (datVar, if uBit then { s with unorderedQ := s.unorderedQ.erase high.toNat }
        else { s with orderedQ := s.orderedQ.erase high.toNat })
  | none =>
      match s.deliveryQ.getVar high with
      | some datVar => some (datVar, { s with deliveryQ := s.deliveryQ.erase high.toNat })
      | none => none

/-- The bookkeeping after chunk `high` of stream `sid` has been deleted. -/
def evicted (tsn high : BitVec 32) (sid : ℕ) (datVar : SCTPDataVariables)
    (s : SCTPReceiveStream) : Except Fault SCTPReceiver := do
  let s := if ssnGt s.expectedStreamSeqNum datVar.ssn then
      { s with expectedStreamSeqNum := datVar.ssn } else s
  let a := { a with receiveStreams := a.receiveStreams.set sid s,
                    queuedRcvBytes := a.queuedRcvBytes - (datVar.len / 8 : ℕ) }
  let g ← ofGapList (a.removeFromGapList high)
  let a := { a with toGapState := g }
  return { a with highestTsnReceived :=
             if a.highestTsnReceived.toNat < tsn.toNat then tsn else a.highestTsnReceived }

inductive Eviction
  | noRoom
  | notFound
  | found (len : ℕ)

/-- The loop over the streams, `sid` on. -/
def evictHigh (a : SCTPReceiver) (tsn high : BitVec 32) (uBit : Bool) :
    List SCTPReceiveStream → ℕ → Except Fault (Eviction × SCTPReceiver)
  | [], _ => .ok (.notFound, a)
  | s :: rest, sid =>
      if high.toNat < tsn.toNat then .ok (.noRoom, a)
      else
        match evictVar s high uBit with
        | some (datVar, s) => do
            let a ← a.evicted tsn high sid datVar s
            return (.found datVar.len, a)
        | none => evictHigh a tsn high uBit rest (sid + 1)

end

/-- `while (sum < length && highestTsnReceived > lastTsnAck)`. -/
def makeRoomLoop (tsn : BitVec 32) (length : ℕ) (uBit : Bool) :
    ℕ → SCTPReceiver → ℕ → BitVec 32 → Except Fault (Bool × SCTPReceiver)
  | 0, _, _, _ => .error .endlessLoop
  | rounds + 1, a, sum, high =>
      if sum < length ∧ a.lastTsnAck.toNat < a.highestTsnReceived.toNat then do
        match ← a.evictHigh tsn high uBit a.receiveStreams 0 with
        | (.noRoom, a) => return (false, a)
        | (.notFound, a) =>
            let a := { a with highestTsnStored := high - 1 }
            if a.highestTsnReceived.toNat < tsn.toNat then return (false, a)
            else makeRoomLoop tsn length uBit rounds a sum (high - 1)
        | (.found len, a) =>
            let high := if len = 0 then high - 1 - 1 else high - 1
            let a := { a with highestTsnStored := high }
            if a.highestTsnReceived.toNat < tsn.toNat then return (false, a)
            else makeRoomLoop tsn length uBit rounds a (sum + len) high
      else .ok (true, a)

def makeRoomForTsn (a : SCTPReceiver) (tsn : BitVec 32) (length : ℕ) (uBit : Bool) :
    Except Fault (Bool × SCTPReceiver) :=
  makeRoomLoop tsn length uBit (2 ^ 32) a 0 a.highestTsnStored

/-! ## Delivery -/

/-- `while (orderedQ->getQueueSize() > 0)`: the messages that are next in sequence. Every round takes
a chunk out of `orderedQ`. -/
def putLoop : ℕ → SCTPReceiveStream → ℤ → SCTPReceiveStream × ℤ
  | 0, s, queued => (s, queued)
  | rounds + 1, s, queued =>
      match s.orderedQ.dequeueVarBySsn s.expectedStreamSeqNum with
      | none => (s, queued)
      | some (chunk, orderedQ) =>
          let s := { s with orderedQ }
          let queued := queued - (chunk.len / 8 : ℕ)
          match s.deliveryQ.checkAndInsertVar chunk.tsn chunk with
          | (true, deliveryQ) =>
              putLoop rounds
                { s with deliveryQ, expectedStreamSeqNum := s.expectedStreamSeqNum + 1 }
                (queued + (chunk.len / 8 : ℕ))
          | (false, _) => putLoop rounds s queued

def putInDeliveryQ (a : SCTPReceiver) (sid : ℕ) : SCTPReceiver :=
  let s := a.receiveStreams.getD sid {}
  let (s, queued) := putLoop s.orderedQ.size s a.queuedRcvBytes
  { a with receiveStreams := a.receiveStreams.set sid s, queuedRcvBytes := queued }

/-- "Only if the window has opened up more than one MTU we will send a SACK". -/
def reopenWindow (a : SCTPReceiver) : SCTPReceiver :=
  if a.swsAvoidanceInvoked && decide ((a.swsLimit : ℤ) ≤ a.freeWindow) &&
      decide (a.freeWindow ≤ a.swsLimit + a.assocPmtu) then
    { a with swsAvoidanceInvoked := false }.createSack
  else a

/-- `chunk` has been extracted from `deliveryQ` of stream `sid`; it goes to the application. -/
def deliver (a : SCTPReceiver) (sid : ℕ) (chunk : SCTPDataVariables) (deliveryQ : SCTPQueue) :
    SCTPReceiver :=
  { a with
    receiveStreams := a.receiveStreams.set sid { a.receiveStreams.getD sid {} with deliveryQ },
    pushMessagesLeft :=
      if 0 < a.pushMessagesLeft then a.pushMessagesLeft - 1 else a.pushMessagesLeft,
    queuedRcvBytes := a.queuedRcvBytes - (chunk.len / 8 : ℕ),
    delivered := a.delivered ++ [chunk] }.reopenWindow

/-- The messages of one stream; `restrict` limits their number to `pushMessagesLeft`. -/
def pushLoop (restrict : Bool) (sid : ℕ) : ℕ → SCTPReceiver → SCTPReceiver
  | 0, a => a
  | rounds + 1, a =>
      match (a.receiveStreams.getD sid {}).deliveryQ.extractMessage with
      | none => a
      | some (chunk, deliveryQ) =>
          if restrict && decide (a.pushMessagesLeft ≤ 0) then a
          else pushLoop restrict sid rounds (a.deliver sid chunk deliveryQ)

def pushStream (restrict : Bool) (a : SCTPReceiver) (sid : ℕ) : SCTPReceiver :=
  pushLoop restrict sid (a.receiveStreams.getD sid {}).deliveryQ.size a

section

variable (a : SCTPReceiver)

/-- Every stream once, starting with `nextRSid`. -/
def pushOrder : List ℕ :=
  (List.range a.receiveStreams.length).map fun i ↦ (a.nextRSid + i) % a.receiveStreams.length

def pushUlp : SCTPReceiver :=
  let a := (List.range a.receiveStreams.length).foldl putInDeliveryQ a
  let a := { a with pushMessagesLeft :=
    if a.pushMessagesLeft ≤ 0 then a.messagesToPush else a.pushMessagesLeft }
  let restrict := decide (0 < a.pushMessagesLeft)
  let a := a.pushOrder.foldl (pushStream restrict) a
  { a with nextRSid := (a.nextRSid + 1) % a.receiveStreams.length }

/-! ## Arrival -/

def addDuplicate (tsn : BitVec 32) : SCTPReceiver :=
  { a with toTsnState := a.toTsnState.addDuplicate tsn }

/-- The chunk is new: it goes to its stream. -/
def enqueueNew (dataChunk : SCTPDataChunk) : Except Fault SCTPReceiver :=
  match a.receiveStreams[dataChunk.sid]? with
  | none => .error .endOfMap
  | some s => do
      let (ret, s) ← s.enqueueNewDataChunk (makeVarFromMsg dataChunk)
      let a := { a with receiveStreams := a.receiveStreams.set dataChunk.sid s,
                        newChunkReceived := false }
      match ret with
      | .none => return a
      | .fragment => return { a with queuedRcvBytes := a.queuedRcvBytes + dataChunk.payload.length }
      | .orderedQ | .deliveryQ =>
          return { a with queuedRcvBytes := a.queuedRcvBytes + dataChunk.payload.length
                 }.putInDeliveryQ dataChunk.sid

/-- `updateGapList`, and `advanceCtsna` if it says so. A TSN that is entered belongs to a new chunk. -/
def enterTsn (tsn : BitVec 32) : Except Fault SCTPReceiver := do
  let (checkCtsnaChange, t) ← ofGapList (a.toTsnState.updateGapList a.freeWindow tsn)
  let a := { a with toTsnState := t, newChunkReceived := checkCtsnaChange }
  if checkCtsnaChange then
    let g ← ofGapList a.advanceCtsna
    return { a with toGapState := g }
  else return a

/-- The gap list and the cumulative TSN of a chunk that has passed the window test. `none`: the
chunk is a duplicate. -/
def recordTsn (tsn : BitVec 32) : Except Fault (Option SCTPReceiver) :=
  if tsnGt tsn a.highestTsnReceived then
    let a := { a with highestTsnReceived := tsn, highestTsnStored := tsn }
    if tsn = a.initPeerTsn then .ok (some { a with cTsnAck := tsn, newChunkReceived := true })
    else do
      let a ← a.enterTsn tsn
      return some { a with newChunkReceived := true }
  else if a.tsnIsDuplicate tsn then .ok none
  else do
    let a ← a.enterTsn tsn
    return some a

/-- The window is exhausted: a TSN above all others is dropped, for one below the highest stored
TSN room is made. `none`: the chunk is dropped. -/
def makeRoom (dataChunk : SCTPDataChunk) :
    Except Fault (Bool × SCTPReceiver) :=
  if 0 < a.freeWindow then .ok (true, a)
  else if tsnGt dataChunk.tsn a.highestTsnReceived then .ok (false, a)
  else if !a.tsnIsDuplicate dataChunk.tsn &&
      decide (dataChunk.tsn.toNat < a.highestTsnStored.toNat) then
    a.makeRoomForTsn dataChunk.tsn (8 * dataChunk.payload.length) dataChunk.uBit
  else .ok (true, a)

def noteHighest : SCTPReceiver :=
  { a with toTsnState := a.toTsnState.noteHighest, newChunkReceived := false }

def processDataArrived (dataChunk : SCTPDataChunk) :
    Except Fault SCTPReceiver :=
  let a := a.noteHighest
  if a.stopReceiving then .ok a
  else if tsnLe dataChunk.tsn a.cTsnAck then .ok (a.addDuplicate dataChunk.tsn)
  else do
    let (room, a) ← a.makeRoom dataChunk
    if !room then return a
    else
      match ← a.recordTsn dataChunk.tsn with
      | none => return a.addDuplicate dataChunk.tsn
      | some a => if a.newChunkReceived then a.enqueueNew dataChunk else return a

end

/-! ## Delivering one message -/

section Deliver

variable (a : SCTPReceiver) (sid : ℕ) (chunk : SCTPDataVariables) (q : SCTPQueue)

@[simp] theorem reopenWindow_receiveStreams :
    a.reopenWindow.receiveStreams = a.receiveStreams := by
  unfold reopenWindow
  split <;> rfl

@[simp] theorem reopenWindow_delivered : a.reopenWindow.delivered = a.delivered := by
  unfold reopenWindow
  split <;> rfl

@[simp] theorem reopenWindow_pushMessagesLeft :
    a.reopenWindow.pushMessagesLeft = a.pushMessagesLeft := by
  unfold reopenWindow
  split <;> rfl

@[simp] theorem reopenWindow_queuedRcvBytes :
    a.reopenWindow.queuedRcvBytes = a.queuedRcvBytes := by
  unfold reopenWindow
  split <;> rfl

@[simp] theorem reopenWindow_localRwnd : a.reopenWindow.localRwnd = a.localRwnd := by
  unfold reopenWindow
  split <;> rfl

theorem deliver_receiveStreams : (a.deliver sid chunk q).receiveStreams =
    a.receiveStreams.set sid { a.receiveStreams.getD sid {} with deliveryQ := q } := by
  unfold deliver
  rw [reopenWindow_receiveStreams]

theorem deliver_delivered : (a.deliver sid chunk q).delivered = a.delivered ++ [chunk] := by
  unfold deliver
  rw [reopenWindow_delivered]

theorem deliver_queuedRcvBytes :
    (a.deliver sid chunk q).queuedRcvBytes = a.queuedRcvBytes - (chunk.len / 8 : ℕ) := by
  unfold deliver
  rw [reopenWindow_queuedRcvBytes]

theorem deliver_localRwnd : (a.deliver sid chunk q).localRwnd = a.localRwnd := by
  unfold deliver
  rw [reopenWindow_localRwnd]

theorem deliver_pushMessagesLeft_le :
    (a.deliver sid chunk q).pushMessagesLeft ≤ a.pushMessagesLeft := by
  unfold deliver
  rw [reopenWindow_pushMessagesLeft]
  dsimp only
  split <;> omega

end Deliver

end SCTPReceiver

end InetManet.SCTP
