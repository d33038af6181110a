import InetManet.SCTP.ReceiveStream

/-!
# SCTP send streams

User messages wait in the two queues of their stream, ordered and unordered. `streamScheduler`
chooses a stream round robin, and `dequeueOutboundDataMsg` takes the next message of that stream,
the unordered queue first. A message that does not fit into a packet is replaced by its fragments,
which stay at the front of the queue and are taken one by one. `sendAll` gives each message that it
dequeues the next TSN; how many it dequeues in one call, and how much room is left in the packet,
depends on windows and path MTUs, so each turn of its loop is an event here.

A message is its length and its number; its bytes play no part.
-/

namespace InetManet.SCTP

open TransitionSystem

structure SCTPDataMsg where
  sid : ℕ := 0
  msgNum : ℕ := 0
  len : ℕ := 0
  ordered : Bool := true
  fragment : Bool := false
  bBit : Bool := false
  eBit : Bool := false
  deriving DecidableEq, Repr

structure SCTPSendStream where
  streamQ : List SCTPDataMsg := []
  unorderedStreamQ : List SCTPDataMsg := []
  deriving DecidableEq, Repr

/-- The sending half of an association as far as new messages are concerned; `sent` are the chunks
that have been given a TSN. -/
structure SCTPSendStreams where
  sendStreams : List SCTPSendStream := [{}]
  lastStreamScheduled : ℕ := 0
  lastMsgWasFragment : Bool := false
  assocPmtu : ℕ := 1500
  msgNum : ℕ := 0
  nextTSN : BitVec 32 := 0
  sent : List (BitVec 32 × SCTPDataMsg) := []
  deriving DecidableEq, Repr

/-- `ADD_PADDING`. -/
def addPadding (x : ℕ) : ℕ := (x + 3) / 4 * 4

def ipHeaderLength : ℕ := 20
def sctpCommonHeader : ℕ := 12
def sctpDataChunkLength : ℕ := 16

namespace SCTPSendStreams

variable (a : SCTPSendStreams)

def stream (sid : ℕ) : SCTPSendStream := a.sendStreams.getD sid {}

/-! ## Scheduler -/

def usable (s : SCTPSendStream) : Bool := !s.streamQ.isEmpty || !s.unorderedStreamQ.isEmpty

def numUsableStreams : ℕ := (a.sendStreams.filter usable).length

/-- `while (sid != lastStreamScheduled)`. -/
def schedulerLoop (a : SCTPSendStreams) : ℕ → ℕ → Option ℕ
  | 0, _ => none
  | rounds + 1, sid =>
      if sid = a.lastStreamScheduled then none
      else if usable (a.stream sid) then some sid
      else schedulerLoop a rounds ((sid + 1) % a.sendStreams.length)

/-- With several streams to choose from it is not the one that was served last. -/
def streamScheduler : Option ℕ :=
  if 1 < a.numUsableStreams then
    a.schedulerLoop a.sendStreams.length ((a.lastStreamScheduled + 1) % a.sendStreams.length)
  else if a.numUsableStreams = 1 then a.sendStreams.findIdx? usable
  else none

/-! ## Fragmentation -/

/-- Payload of a fragment, an unsigned difference. -/
def maxPayload : ℕ :=
  (BitVec.ofInt 32 (a.assocPmtu - ipHeaderLength - sctpCommonHeader - sctpDataChunkLength)).toNat

/-- `while (datMsgQueued)`: the fragments from `offset` on. -/
def fragmentLoop (payload : ℕ) (datMsg : SCTPDataMsg) :
    ℕ → ℕ → Except Fault (List SCTPDataMsg)
  | 0, _ => .error .endlessLoop
  | rounds + 1, offset =>
      let msgbytes := min payload (datMsg.len - offset)
      let datMsgFragment : SCTPDataMsg :=
        { sid := datMsg.sid, msgNum := datMsg.msgNum, len := msgbytes, ordered := datMsg.ordered,
          fragment := true, bBit := offset == 0, eBit := offset + msgbytes == datMsg.len }
      if datMsg.len = offset + msgbytes then .ok [datMsgFragment]
      else do
        let rest ← fragmentLoop payload datMsg rounds (offset + msgbytes)
        return datMsgFragment :: rest

/-- Room that a message takes in a packet. -/
def paddedLength (datMsg : SCTPDataMsg) : ℕ := addPadding (datMsg.len + sctpDataChunkLength)

/-- A message at the front that is too long is replaced by its fragments. -/
def fragmentFront (datMsg : SCTPDataMsg) (rest : List SCTPDataMsg) :
    Except Fault (List SCTPDataMsg) :=
  if (a.assocPmtu : ℤ) - ipHeaderLength - sctpCommonHeader < paddedLength datMsg then do
    let fragments ← fragmentLoop a.maxPayload datMsg (datMsg.len + 1) 0
    return fragments ++ rest
  else .ok (datMsg :: rest)

/-! ## Dequeueing -/

/-- The queue of stream `sid` that is served: the unordered one if it has messages. -/
def servesOrdered (sid : ℕ) : Bool := (a.stream sid).unorderedStreamQ.isEmpty

def queue (sid : ℕ) (ordered : Bool) : List SCTPDataMsg :=
  if ordered then (a.stream sid).streamQ else (a.stream sid).unorderedStreamQ

def setQueue (sid : ℕ) (ordered : Bool) (q : List SCTPDataMsg) :
    SCTPSendStreams :=
  { a with sendStreams := a.sendStreams.set sid (if ordered then { a.stream sid with streamQ := q }
      else { a.stream sid with unorderedStreamQ := q }) }

/-- The bits of a message that is sent whole. -/
def wholeBits (datMsg : SCTPDataMsg) : SCTPDataMsg :=
  if datMsg.fragment then datMsg else { datMsg with bBit := true, eBit := true }

/-- The next message, if it fits into `bytes`. -/
def dequeueOutboundDataMsg (bytes : ℤ) :
    Except Fault (Option SCTPDataMsg × SCTPSendStreams) :=
  match a.streamScheduler with
  | none => .ok (none, a)
  | some sid =>
      let a := { a with lastStreamScheduled := sid }
      let ordered := a.servesOrdered sid
      match a.queue sid ordered with
      | [] => .ok (none, a)
      | datMsg :: rest => do
          let q ← a.fragmentFront datMsg rest
          let fragmented := decide ((a.assocPmtu : ℤ) - ipHeaderLength - sctpCommonHeader <
            paddedLength datMsg)
          let a := { a with lastMsgWasFragment := a.lastMsgWasFragment || fragmented }
          match q with
          | [] => .error .nullPointer
          | datMsg :: rest =>
              if (paddedLength datMsg : ℤ) ≤ bytes then
                .ok (some (wholeBits datMsg),
                  { a.setQueue sid ordered rest with
                    lastMsgWasFragment := datMsg.fragment && !datMsg.eBit })
              else .ok (none, a.setQueue sid ordered (datMsg :: rest))

/-- One turn of the loop of `sendAll` that sends a new message. -/
def transmit (bytes : ℤ) : Except Fault SCTPSendStreams := do
  let (datMsg, a) ← a.dequeueOutboundDataMsg bytes
  match datMsg with
  | none => return a
  | some datMsg =>
      return { a with sent := a.sent ++ [(a.nextTSN, datMsg)], nextTSN := a.nextTSN + 1 }

/-- `process_SEND`. -/
def send (sid len : ℕ) (ordered : Bool) : Except Fault SCTPSendStreams :=
  if a.sendStreams.length ≤ sid then .error (.error 146)
  else
    let datMsg : SCTPDataMsg := { sid, msgNum := a.msgNum + 1, len, ordered }
    .ok { a.setQueue sid ordered (a.queue sid ordered ++ [datMsg]) with msgNum := a.msgNum + 1 }

inductive SendEvent
  | send (sid len : ℕ) (ordered : Bool)
  | transmit (bytes : ℤ)

def sendStep : SendEvent → Except Fault SCTPSendStreams
  | .send sid len ordered => a.send sid len ordered
  | .transmit bytes => a.transmit bytes

end SCTPSendStreams

end InetManet.SCTP
