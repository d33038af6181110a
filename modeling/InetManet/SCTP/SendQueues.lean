import InetManet.Library.Loops
import InetManet.SCTP.ReceiveData
import InetManet.SCTP.SendStreams
import Mathlib.Logic.Function.Basic

/-!
# SCTP retransmission and transmission queue

A chunk that has been given a TSN stays in `retransmissionQ` until it is acknowledged; chunks that
are to be sent again are in `transmissionQ` as well. Both queues hold pointers, so what one function
writes to a chunk the others see: the chunks are cells of a store here, and the queues map TSNs to
cells. A chunk that is deleted is in neither queue.

Per path there are the bytes outstanding and the counters of `qCounter`. An event is one turn of the
transmission loop of `sendAll`, a SACK, a T3-RTX timeout, or a change of a path's status. Congestion
and receiver windows only decide when `sendAll` takes a turn; retransmission timers may go off at
any time.
-/

namespace InetManet.SCTP

open TransitionSystem

/-- Runtime errors of the sending side: as on the receiving side, and an iterator that is used after
its element has been erased. -/
inductive SendFault
  | nullPointer
  | endOfMap
  | erasedIterator
  | endlessLoop
  | error (line : ℕ)
  deriving DecidableEq, Repr

/-- A chunk as the sending side stores it; `len` is the payload length in bits. Addresses are
numbers, `0` is the unspecified one. -/
structure SCTPSentVariables where
  tsn : BitVec 32 := 0
  len : ℕ := 0
  booksize : ℕ := 0
  initialDestination : ℕ := 0
  lastDestination : ℕ := 0
  nextDestination : ℕ := 0
  hasBeenAcked : Bool := false
  hasBeenRemoved : Bool := false
  hasBeenAbandoned : Bool := false
  hasBeenFastRetransmitted : Bool := false
  countsAsOutstanding : Bool := false
  gapReports : ℕ := 0
  numberOfTransmissions : ℕ := 0
  numberOfRetransmissions : ℕ := 0
  deriving DecidableEq, Repr

namespace SCTPSentVariables

/-- `ADD_PADDING(chunk->len/8 + SCTP_DATA_CHUNK_LENGTH)`. -/
def room (c : SCTPSentVariables) : ℕ := addPadding (c.len / 8 + sctpDataChunkLength)

/-- `ADD_PADDING(chunk->booksize + SCTP_DATA_CHUNK_LENGTH)`. -/
def bookedRoom (c : SCTPSentVariables) : ℕ := addPadding (c.booksize + sctpDataChunkLength)

def setAcked (acked : Bool) (c : SCTPSentVariables) : SCTPSentVariables :=
  { c with hasBeenAcked := acked }

def setOutstanding (outstanding : Bool) (c : SCTPSentVariables) : SCTPSentVariables :=
  { c with countsAsOutstanding := outstanding }

def setNextDestination (p : ℕ) (c : SCTPSentVariables) : SCTPSentVariables :=
  { c with nextDestination := p }

def setFastRetransmitted (fast : Bool) (c : SCTPSentVariables) : SCTPSentVariables :=
  { c with hasBeenFastRetransmitted := fast }

def setGapReports (reports : ℕ) (c : SCTPSentVariables) : SCTPSentVariables :=
  { c with gapReports := reports }

def setTsn (tsn : BitVec 32) (c : SCTPSentVariables) : SCTPSentVariables := { c with tsn }

/-- A chunk that is about to be sent. -/
def setSent (c : SCTPSentVariables) : SCTPSentVariables :=
  { c with countsAsOutstanding := true, hasBeenRemoved := false }

/-- A chunk that has been put into a packet for `newDpi`. -/
def setTransmitted (newDpi : ℕ) (c : SCTPSentVariables) : SCTPSentVariables :=
  { c with
    numberOfTransmissions := c.numberOfTransmissions + 1
    gapReports := 0
    hasBeenFastRetransmitted := false
    lastDestination := newDpi }

/-- A chunk that was acknowledged is no longer. -/
def setRemoved (c : SCTPSentVariables) : SCTPSentVariables :=
  { c with hasBeenRemoved := true, gapReports := 1 }

end SCTPSentVariables

structure SCTPPath where
  remoteAddress : ℕ
  activePath : Bool := true
  confirmed : Bool := true
  deriving DecidableEq, Repr

/-- A gap block of a SACK, in absolute TSNs as the chunk object has them. -/
structure Gap where
  start : BitVec 32
  stop : BitVec 32
  deriving DecidableEq, Repr

/-- The sending half of an association. `chunks` is the store, with cells below `allocated` in use;
`paths` is ordered by address; the counters are maps from addresses to `uint32`. -/
structure SCTPSender where
  chunks : ℕ → SCTPSentVariables := fun _ ↦ {}
  allocated : ℕ := 0
  retransmissionQ : OrderedMap ℕ ℕ := .empty
  transmissionQ : OrderedMap ℕ ℕ := .empty
  paths : List SCTPPath := []
  primaryPathIndex : ℕ := 0
  outstandingBytes : ℕ → BitVec 32 := fun _ ↦ 0
  roomTransQ : ℕ → BitVec 32 := fun _ ↦ 0
  bookedTransQ : ℕ → BitVec 32 := fun _ ↦ 0
  roomRetransQ : ℕ → BitVec 32 := fun _ ↦ 0
  nextTSN : BitVec 32 := 0
  lastTsnAck : BitVec 32 := 0
  highestTsnAcked : BitVec 32 := 0
  peerRwnd : ℕ := 0
  initialPeerRwnd : ℕ := 0
  numGapReports : ℕ := 3

/-- `i->second += n` for a counter. -/
def credit (m : ℕ → BitVec 32) (p n : ℕ) : ℕ → BitVec 32 :=
  Function.update m p (m p + BitVec.ofNat 32 n)

/-- `i->second -= n` for a counter. -/
def debit (m : ℕ → BitVec 32) (p n : ℕ) : ℕ → BitVec 32 :=
  Function.update m p (m p - BitVec.ofNat 32 n)

namespace SCTPSender

open SCTPSentVariables

section

variable (a : SCTPSender)

/-- Writes to the chunk in cell `i`. -/
def modify (i : ℕ) (f : SCTPSentVariables → SCTPSentVariables) : SCTPSender :=
  { a with chunks := Function.update a.chunks i (f (a.chunks i)) }

/-- The bytes of chunk `i` are no longer outstanding on the path it was sent to. -/
def noLongerOutstanding (i : ℕ) : SCTPSender :=
  let c := a.chunks i
  { a.modify i (setOutstanding false) with
    outstandingBytes := debit a.outstandingBytes c.lastDestination c.booksize
    roomRetransQ := debit a.roomRetransQ c.lastDestination c.bookedRoom }

/-- `if (chunk->countsAsOutstanding)`. -/
def dropOutstanding (i : ℕ) : SCTPSender :=
  if (a.chunks i).countsAsOutstanding then a.noLongerOutstanding i else a

/-- Removes the entry `key` of `transmissionQ`, counted for chunk `i` on path `p`. -/
def removeTrans (key i p : ℕ) : SCTPSender :=
  { a with
    transmissionQ := a.transmissionQ.erase key
    roomTransQ := debit a.roomTransQ p (a.chunks i).room
    bookedTransQ := debit a.bookedTransQ p (a.chunks i).booksize }

/-- Chunk `i` is queued for retransmission on path `p`. -/
def insertTrans (i p : ℕ) : SCTPSender :=
  { a with
    transmissionQ := a.transmissionQ.insert (a.chunks i).tsn.toNat i
    roomTransQ := credit a.roomTransQ p (a.chunks i).room
    bookedTransQ := credit a.bookedTransQ p (a.chunks i).booksize }

/-! ## Retransmission -/

/-- Loop over `transmissionQ`. After an acknowledged chunk has been erased the loop goes on with the
erased iterator. -/
def getOutboundLoop (a : SCTPSender) (pid : ℕ) (bytes : ℤ) :
    List (ℕ × ℕ) → Except SendFault (Option ℕ × SCTPSender)
  | [] => .ok (none, a)
  | (key, i) :: rest =>
      if (a.chunks i).nextDestination = pid ∧ ((a.chunks i).room : ℤ) ≤ bytes then
        if (a.chunks i).hasBeenAcked then .error .erasedIterator
        else .ok (some i, a.removeTrans key i pid)
      else getOutboundLoop a pid bytes rest

/-- The first chunk for `pid` that fits into `bytes`. -/
def getOutboundDataChunk (pid : ℕ) (bytes : ℤ) :
    Except SendFault (Option ℕ × SCTPSender) :=
  a.getOutboundLoop pid bytes a.transmissionQ.entries

/-- `tsn == 0` stands for a chunk without TSN. -/
def assignTsn (i : ℕ) : SCTPSender :=
  if (a.chunks i).tsn = 0 then
    { a.modify i (setTsn a.nextTSN) with nextTSN := a.nextTSN + 1 }
  else a

/-- A chunk that is sent for the first time goes to `retransmissionQ`. -/
def firstTransmission (i dpi newDpi : ℕ) : Except SendFault SCTPSender :=
  if a.primaryPathIndex = 0 then .error (.error 461)
  else match a.retransmissionQ.find? (a.chunks i).tsn.toNat with
    | some _ => .error (.error 468)
    | none =>
        .ok { a.modify i (setAcked false ∘ ({ · with lastDestination := a.primaryPathIndex })) with
          retransmissionQ := a.retransmissionQ.insert (a.chunks i).tsn.toNat i
          outstandingBytes := credit a.outstandingBytes newDpi (a.chunks i).booksize
          roomRetransQ := credit a.roomRetransQ dpi (a.chunks i).room }

def storeFirst (i dpi newDpi : ℕ) : Except SendFault SCTPSender :=
  if (a.chunks i).numberOfTransmissions = 0 then a.firstTransmission i dpi newDpi else .ok a

/-- "Chunk handling" of `sendAll`: the chunk in cell `i` is put into the packet. -/
def handleChunk (i dpi newDpi : ℕ) : Except SendFault SCTPSender := do
  let a := (a.assignTsn i).modify i setSent
  let a ← a.storeFirst i dpi newDpi
  let a := a.modify i (setTransmitted newDpi)
  if newDpi = 0 then .error (.error 545)
  else return { a with peerRwnd := a.peerRwnd - (a.chunks i).booksize }

/-- The bytes of a chunk that is sent again are booked on its next destination. -/
def bookRetransmission (i : ℕ) : SCTPSender :=
  let c := a.chunks i
  let a := a.modify i fun c ↦ { c with numberOfRetransmissions := c.numberOfRetransmissions + 1 }
  if c.hasBeenAcked then a
  else
    { a.modify i setSent with
      outstandingBytes := credit a.outstandingBytes c.nextDestination c.booksize
      roomRetransQ := credit a.roomRetransQ c.lastDestination c.bookedRoom }

/-- A new chunk for a message of `len` bits. -/
def newChunk (len booksize dpi : ℕ) : SCTPSender :=
  { a with
    chunks := Function.update a.chunks a.allocated { len, booksize, initialDestination := dpi }
    allocated := a.allocated + 1 }

/-- One turn of the transmission loop of `sendAll` for path `pd`. If there was something to
retransmit at the start of the call (`rtxActive`), it sends on `pd` and else on the primary path; a
bundled SACK redirects the packet to `sackTo`. `message` is what `dequeueOutboundDataMsg` returns,
length and booksize. -/
def sendTurn (pd : ℕ) (rtxActive : Bool) (sackTo : Option ℕ) (bytes : ℤ)
    (message : Option (ℕ × ℕ)) : Except SendFault SCTPSender := do
  let newDpi := if rtxActive then pd else a.primaryPathIndex
  let dpi := sackTo.getD newDpi
  if 0 < (a.roomTransQ pd).toNat then
    let (datVar, a) ← a.getOutboundDataChunk dpi bytes
    match datVar with
    | none => return a
    | some i => (a.bookRetransmission i).handleChunk i dpi newDpi
  else if dpi = a.primaryPathIndex then
    match message with
    | none => return a
    | some (len, booksize) => (a.newChunk len booksize dpi).handleChunk a.allocated dpi newDpi
  else return a

/-! ## Timeout -/

/-- `do ... while` over the paths after `last`, in a circle. -/
def nextPathLoop (paths : List SCTPPath) (last : ℕ) : ℕ → ℕ → Except SendFault ℕ
  | 0, _ => .error .endlessLoop
  | rounds + 1, k =>
      match paths[(k + 1) % paths.length]? with
      | none => .error .endOfMap
      | some path =>
          if (path.remoteAddress ≠ last ∧ path.activePath = false) ∨ path.confirmed = false then
            nextPathLoop paths last rounds (k + 1)
          else .ok path.remoteAddress

def getNextDestination (c : SCTPSentVariables) : Except SendFault ℕ :=
  if c.numberOfTransmissions = 0 then
    .ok (if c.initialDestination = 0 then a.primaryPathIndex else c.initialDestination)
  else if c.hasBeenFastRetransmitted then .ok c.lastDestination
  else match a.paths.findIdx? (·.remoteAddress = c.lastDestination) with
    | none => .error .endOfMap
    | some k => nextPathLoop a.paths c.lastDestination (a.paths.length + 1) k

/-- Chunks that were sent to `path` and are outstanding or reneged. -/
def timedOut (path : ℕ) (c : SCTPSentVariables) : Bool :=
  (!c.hasBeenAcked && c.countsAsOutstanding || c.hasBeenRemoved) && c.lastDestination == path

/-- A chunk that was not queued yet is queued; its booksize is added to `bookedTransQ` once more. -/
def requeueChunk (i next : ℕ) : SCTPSender :=
  let c := a.chunks i
  let a := a.insertTrans i next
  let a := if c.countsAsOutstanding then
      { a.modify i (setOutstanding false) with
        outstandingBytes := debit a.outstandingBytes c.lastDestination c.booksize }
    else a
  { a with
    bookedTransQ := credit a.bookedTransQ next c.booksize
    roomRetransQ := debit a.roomRetransQ c.lastDestination c.bookedRoom
    peerRwnd := min (a.peerRwnd + c.booksize) a.initialPeerRwnd }

end

/-- One turn of the loop over `retransmissionQ`. -/
def requeue (path : ℕ) (a : SCTPSender) (entry : ℕ × ℕ) : Except SendFault SCTPSender := do
  let i := entry.2
  if timedOut path (a.chunks i) then
    let a := a.modify i (setFastRetransmitted false ∘ setGapReports 0)
    let next ← a.getNextDestination (a.chunks i)
    let a := a.modify i (setNextDestination next)
    match a.transmissionQ.find? (a.chunks i).tsn.toNat with
    | some _ => return a
    | none => return a.requeueChunk i next
  else return a

/-- `process_TIMEOUT_RTX`, up to the calls of `sendAll`. -/
def processTimeoutRtx (a : SCTPSender) (path : ℕ) : Except SendFault SCTPSender :=
  a.retransmissionQ.entries.foldlM (requeue path) a

/-! ## SACK -/

/-- An acknowledged chunk that is still queued for retransmission leaves `transmissionQ`. -/
def unqueue (a : SCTPSender) (i : ℕ) : SCTPSender :=
  let c := a.chunks i
  match a.transmissionQ.find? c.tsn.toNat with
  | some _ => a.removeTrans c.tsn.toNat i c.nextDestination
  | none => a

/-- An acknowledged chunk leaves `retransmissionQ`. -/
def dequeueChunk (a : SCTPSender) (tsn : BitVec 32) (i : ℕ) : SCTPSender :=
  let a := { a with retransmissionQ := a.retransmissionQ.erase tsn.toNat }
  if !(a.chunks i).hasBeenAcked && (a.chunks i).countsAsOutstanding then
    (a.noLongerOutstanding i).modify i (setAcked true)
  else a

/-- `while (!retransmissionQ->payloadQueue.empty())`. The first entry is looked up again by the TSN of
its chunk. -/
def dequeueAckedLoop (tsna : BitVec 32) : ℕ → SCTPSender → Except SendFault SCTPSender
  | 0, _ => .error .endlessLoop
  | rounds + 1, a =>
      match a.retransmissionQ.entries with
      | [] => .ok a
      | (_, i) :: _ =>
          let tsn := (a.chunks i).tsn
          if tsnGe tsna tsn then
            let a := a.unqueue i
            match a.retransmissionQ.find? tsn.toNat with
            | none => .error .endOfMap
            | some i =>
                dequeueAckedLoop tsna rounds (a.dequeueChunk tsn i)
          else .ok a

def dequeueAckedChunks (a : SCTPSender) (tsna : BitVec 32) : Except SendFault SCTPSender :=
  dequeueAckedLoop tsna (a.retransmissionQ.size + 1) a

def hasBeenAcked (a : SCTPSender) (tsn : BitVec 32) : Option Bool :=
  (a.retransmissionQ.find? tsn.toNat).map fun i ↦ (a.chunks i).hasBeenAcked

/-- `highestTsnAcked` when the chunk `pos` has been reneged. -/
def highestBelow (a : SCTPSender) (tsna pos : BitVec 32) : Except SendFault (BitVec 32) :=
  if (tsna + 1).toNat < pos.toNat then
    match a.hasBeenAcked (pos - 1) with
    | none => .error .endOfMap
    | some acked => .ok (if acked then pos - 1 else tsna)
  else .ok tsna

/-- Without gap blocks, every chunk above `tsna` that was acknowledged has been reneged. -/
def renegeAll (tsna : BitVec 32) (a : SCTPSender) (pos : BitVec 32) : Except SendFault SCTPSender :=
  match a.retransmissionQ.find? pos.toNat with
  | none => .ok a
  | some i =>
      if (a.chunks i).hasBeenAcked then
        let a := a.modify i (setAcked false)
        if (a.chunks i).countsAsOutstanding then .ok a
        else do
          let highest ← a.highestBelow tsna pos
          return { a.modify i setRemoved with
            highestTsnAcked := highest }
      else .ok a

/-- `countsAsOutstanding` of an acknowledged chunk, which then has been reneged. -/
def renege (a : SCTPSender) (i : ℕ) : SCTPSender :=
  ((a.modify i (setAcked false)).dropOutstanding i).modify i setRemoved

/-- A chunk above the last gap block. -/
def renegeAbove (a : SCTPSender) (pos : BitVec 32) : Except SendFault SCTPSender :=
  match a.retransmissionQ.find? pos.toNat with
  | none => .ok a
  | some i =>
      if (a.chunks i).hasBeenAcked then
        let a := a.renege i
        .ok { a with
          highestTsnAcked := if a.hasBeenAcked (pos - 1) = some true then pos - 1
            else a.highestTsnAcked }
      else .ok a

/-- A chunk in a gap block; `hiAcked` is the highest TSN that is newly acknowledged. -/
def ackGap (s : SCTPSender × BitVec 32) (pos : BitVec 32) :
    Except SendFault (SCTPSender × BitVec 32) :=
  let (a, hiAcked) := s
  match a.retransmissionQ.find? pos.toNat with
  | none => .ok s
  | some i =>
      let c := a.chunks i
      if !c.hasBeenAcked && !c.hasBeenAbandoned && !c.hasBeenRemoved then
        let hiAcked := if hiAcked.toNat < c.tsn.toNat then c.tsn else hiAcked
        let a := (a.modify i (setAcked true)).dropOutstanding i
        .ok ((a.unqueue i).modify i (setGapReports 0), hiAcked)
      else .ok s

/-- A chunk that has been reported missing often enough is queued, once, for the path it was sent to.
-/
def fastRetransmit (a : SCTPSender) (i : ℕ) : Except SendFault SCTPSender :=
  match a.transmissionQ.find? (a.chunks i).tsn.toNat with
  | some _ => .ok a
  | none => do
      let a := a.modify i (setFastRetransmitted true)
      let pid ← a.getNextDestination (a.chunks i)
      let a := (a.modify i (setNextDestination pid)).dropOutstanding i
      return a.insertTrans i pid

/-- A chunk between the gap blocks. -/
def reportMissing (hiAcked : BitVec 32) (a : SCTPSender) (pos : BitVec 32) :
    Except SendFault SCTPSender :=
  match a.retransmissionQ.find? pos.toNat with
  | none => .ok a
  | some i =>
      let c := a.chunks i
      if c.hasBeenAcked then .ok (a.renege i)
      else if c.tsn.toNat < hiAcked.toNat then
        let a := a.modify i (setGapReports (c.gapReports + 1))
        if a.numGapReports ≤ c.gapReports + 1 ∧ c.hasBeenFastRetransmitted = false ∧
            c.numberOfRetransmissions = 0 then
          a.fastRetransmit i
        else .ok a
      else .ok (a.modify i (setFastRetransmitted false))

/-- A chunk above `highestTsnAcked`. -/
def forgetAck (a : SCTPSender) (pos : BitVec 32) : Except SendFault SCTPSender :=
  match a.retransmissionQ.find? pos.toNat with
  | none => .ok a
  | some i => .ok (a.modify i (setAcked false))

/-- `for (i = lo + 1; i <= gapStart - 1; i++)` for every gap block, `lo` being the end of the block
before it. -/
def missingLoop (hiAcked : BitVec 32) : BitVec 32 → List Gap → SCTPSender → Except SendFault SCTPSender
  | _, [], a => .ok a
  | lo, gap :: gaps, a => do
      let a ← forUp .endlessLoop (reportMissing hiAcked) (gap.start - 1) (2 ^ 32) (lo + 1) a
      missingLoop hiAcked gap.stop gaps a

variable (a : SCTPSender)

/-- The last gap block ends below `highestTsnAcked`: there might have been reneging. -/
def renegeAboveLast (last : BitVec 32) : Except SendFault SCTPSender :=
  if tsnLt last a.highestTsnAcked then
    forDown .endlessLoop renegeAbove (last + 1) (2 ^ 32) a.highestTsnAcked a
  else .ok a

/-- What a SACK with gap blocks does; `last` is the end of the last one. -/
def processGaps (tsna : BitVec 32) (gaps : List Gap) (last : BitVec 32) :
    Except SendFault SCTPSender := do
  let a ← a.renegeAboveLast last
  let (a, hiAcked) ← gaps.foldlM (fun s gap ↦
    forUp .endlessLoop ackGap gap.stop (2 ^ 32) gap.start s) (a, tsna)
  let a ← missingLoop hiAcked tsna gaps a
  let a := { a with highestTsnAcked := last }
  -- `i < nextTSN`, which never holds for `nextTSN = 0`
  if last.toNat < (a.nextTSN - 1).toNat ∧ 0 < a.nextTSN.toNat then
    forUp .endlessLoop forgetAck (a.nextTSN - 1) (2 ^ 32) (last + 1) a
  else return a

/-- `getOutstandingBytes`. -/
def getOutstandingBytes : BitVec 32 :=
  (a.paths.map fun path ↦ a.outstandingBytes path.remoteAddress).sum

/-- The receiver window: negative or too large values are corrected. -/
def updatePeerRwnd (arwnd : ℕ) : SCTPSender :=
  let peerRwnd := BitVec.ofNat 32 arwnd - a.getOutstandingBytes
  { a with peerRwnd := min (if peerRwnd.toInt < 0 then 0 else peerRwnd.toNat) a.initialPeerRwnd }

/-- "Handle new CumAck". -/
def processCumAck (tsna : BitVec 32) : Except SendFault SCTPSender :=
  if tsnGt tsna a.lastTsnAck then do
    let a ← a.dequeueAckedChunks tsna
    return { a with lastTsnAck := tsna }
  else .ok a

/-- The gap blocks of a SACK, if any. -/
def processGapReports (tsna : BitVec 32) (gaps : List Gap) :
    Except SendFault SCTPSender :=
  match gaps.getLast? with
  | none =>
      if tsnLt tsna a.highestTsnAcked then
        forDown .endlessLoop (renegeAll tsna) (tsna + 1) (2 ^ 32) a.highestTsnAcked a
      else .ok a
  | some last =>
      if a.retransmissionQ.entries.isEmpty then .ok a
      else a.processGaps tsna gaps last.stop

/-- `processSackArrived` for a SACK that came from `remoteAddr`. -/
def processSackArrived (remoteAddr : ℕ) (tsna : BitVec 32) (arwnd : ℕ)
    (gaps : List Gap) : Except SendFault SCTPSender :=
  if (a.outstandingBytes remoteAddr).toInt < 0 then .error (.error 690)
  else if tsnLt tsna a.lastTsnAck then .ok a
  else do
    let a ← a.processCumAck tsna
    let a ← a.processGapReports tsna gaps
    return a.updatePeerRwnd arwnd

/-! ## Events -/

inductive QueueEvent
  | turn (pd : ℕ) (rtxActive : Bool) (sackTo : Option ℕ) (bytes : ℤ) (message : Option (ℕ × ℕ))
  | sack (remoteAddr : ℕ) (tsna : BitVec 32) (arwnd : ℕ) (gaps : List Gap)
  | timeoutRtx (path : ℕ)
  | pathStatus (paths : List SCTPPath) (primaryPathIndex : ℕ)

def queueStep : QueueEvent → Except SendFault SCTPSender
  | .turn pd rtxActive sackTo bytes message => a.sendTurn pd rtxActive sackTo bytes message
  | .sack remoteAddr tsna arwnd gaps => a.processSackArrived remoteAddr tsna arwnd gaps
  | .timeoutRtx path => a.processTimeoutRtx path
  | .pathStatus paths primaryPathIndex => .ok { a with paths, primaryPathIndex }

end SCTPSender

end InetManet.SCTP
