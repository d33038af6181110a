import InetManet.Library.OrderedMap
import InetManet.Network.Address
import InetManet.TCP.Queues

/-!
# The message-based queues

The send queue keeps each message with the sequence number behind its last byte, and a segment carries
the messages that end in it. The receive queue counts bytes like the virtual-data one and keeps the
messages in a map, which is ordered by the sequence numbers as plain numbers.
-/

namespace InetManet.TCP

open TransitionSystem RegionList

variable {α : Type}

structure TCPMsgBasedSendQueue (α : Type) where
  beginSeq : Seq := 0
  endSeq : Seq := 0
  payloadQueue : List (Seq × α) := []

namespace TCPMsgBasedSendQueue

def init (q : TCPMsgBasedSendQueue α) (startSeq : Seq) : TCPMsgBasedSendQueue α :=
  { q with beginSeq := startSeq, endSeq := startSeq }

/-- A message with its byte length. -/
def enqueueAppData (q : TCPMsgBasedSendQueue α) (msg : ℕ × α) : TCPMsgBasedSendQueue α :=
  let endSeq := q.endSeq + BitVec.ofNat 32 msg.1
  { q with endSeq, payloadQueue := q.payloadQueue ++ [(endSeq, msg.2)] }

/-- The segment and the messages in it. -/
def createSegmentWithBytes (asserts : Bool) (q : TCPMsgBasedSendQueue α) (fromSeq : Seq)
    (numBytes : ℕ) : Except Fault (TCPSegment × List (Seq × α)) := do
  let toSeq := fromSeq + BitVec.ofNat 32 numBytes
  check asserts (seqLE q.beginSeq fromSeq && seqLE toSeq q.endSeq)
    (.assertion .createSegmentWithBytes)
  return ({ sequenceNo := fromSeq, payloadLength := numBytes },
    (q.payloadQueue.dropWhile fun x ↦ seqLE x.1 fromSeq).takeWhile fun x ↦ seqLE x.1 toSeq)

end TCPMsgBasedSendQueue

structure TCPMsgBasedRcvQueue (α : Type) where
  queue : TCPVirtualDataRcvQueue := {}
  payloadList : OrderedMap Seq α := OrderedMap.empty

namespace TCPMsgBasedRcvQueue

def init (q : TCPMsgBasedRcvQueue α) (startSeq : Seq) : TCPMsgBasedRcvQueue α :=
  { q with queue := q.queue.init startSeq }

/-- Duplicates are dropped. -/
def insertPayload (payloadList : OrderedMap Seq α) (x : Seq × α) : OrderedMap Seq α :=
  match payloadList.find? x.1 with
  | some _ => payloadList
  | none => payloadList.insert x.1 x.2

def insertBytesFromSegment (q : TCPMsgBasedRcvQueue α) (seg : TCPSegment) (payload : List (Seq × α)) :
    TCPMsgBasedRcvQueue α :=
  ⟨q.queue.insertBytesFromSegment seg, payload.foldl insertPayload q.payloadList⟩

/-- The first message, unless it ends behind `seq`. -/
def extractBytesUpTo (asserts : Bool) (q : TCPMsgBasedRcvQueue α) (seq : Seq) :
    Except Fault (Option α × TCPMsgBasedRcvQueue α) := do
  let x ← q.queue.extractTo asserts seq
  match q.payloadList.entries with
  | [] => return (none, ⟨x.2, q.payloadList⟩)
  | first :: _ =>
      if seqGreater first.1 seq then return (none, ⟨x.2, q.payloadList⟩)
      else return (some first.2, ⟨x.2, q.payloadList.erase first.1⟩)

/-- The loop that extracts until `NULL` is returned. -/
def extractLoop (asserts : Bool) (seq : Seq) :
    ℕ → TCPMsgBasedRcvQueue α → Except Fault (List α × TCPMsgBasedRcvQueue α)
  | 0, _ => .error .endlessLoop
  | rounds + 1, q => do
      let x ← q.extractBytesUpTo asserts seq
      match x.1 with
      | none => return ([], x.2)
      | some msg =>
          let y ← extractLoop asserts seq rounds x.2
          return (msg :: y.1, y.2)

/-- Every round but the last removes a message. -/
def extractAll (asserts : Bool) (q : TCPMsgBasedRcvQueue α) (seq : Seq) :
    Except Fault (List α × TCPMsgBasedRcvQueue α) :=
  extractLoop asserts seq (q.payloadList.size + 1) q

end TCPMsgBasedRcvQueue

/-! ## A transfer -/

/-- The receiving side: `rcv_nxt` of the connection, its queue, and what the application got. -/
structure MessageReceiver (α : Type) where
  rcvNxt : Seq
  receiveQueue : TCPMsgBasedRcvQueue α
  delivered : List α

namespace MessageReceiver

def isSegmentAcceptable (s : MessageReceiver α) (rcvWnd : Seq) (seg : TCPSegment) : Bool :=
  seqGE seg.sequenceNo s.rcvNxt &&
    seqLE (seg.sequenceNo + BitVec.ofNat 32 seg.payloadLength) (s.rcvNxt + rcvWnd)

/-- The text of an acceptable segment. -/
def processSegmentText (asserts : Bool) (s : MessageReceiver α) (seg : TCPSegment)
    (payload : List (Seq × α)) : Except Fault (MessageReceiver α) :=
  let q := s.receiveQueue.insertBytesFromSegment seg payload
  if s.rcvNxt == q.queue.rcvNxt then .ok { s with receiveQueue := q }
  else do
    let x ← q.extractAll asserts q.queue.rcvNxt
    return ⟨q.queue.rcvNxt, x.2, s.delivered ++ x.1⟩

/-- Some bytes of the send queue are sent, and they arrive. -/
def step (asserts : Bool) (sendQueue : TCPMsgBasedSendQueue α) (rcvWnd : Seq)
    (s : MessageReceiver α) (cut : Seq × ℕ) : Except Fault (MessageReceiver α) := do
  let x ← sendQueue.createSegmentWithBytes asserts cut.1 cut.2
  if s.isSegmentAcceptable rcvWnd x.1 then s.processSegmentText asserts x.1 x.2 else return s

end MessageReceiver

end InetManet.TCP
