import InetManet.Library.SerialNumber
import InetManet.Library.RegionList
import InetManet.Library.TransitionSystem

/-!
# TCP sequence numbers, segments and the virtual-data queues

Sequence numbers are 32-bit and compared modulo `2 ^ 32` with the four inline functions of
`TCPConnection.h`. The virtual-data queues count bytes only: the send queue is the range
`[begin, end)` of sequence numbers it holds, the receive queue is a list of regions above the next
expected sequence number.

An `ASSERT` is a check that ends the run with a fault naming the function it stands in. The
checks can be compiled out, which is the flag `asserts` of the operations that contain one.
-/

namespace InetManet.TCP

open TransitionSystem RegionList

abbrev Seq := BitVec 32

/-! ## Comparing sequence numbers -/

def seqLess (a b : Seq) : Bool := a != b && decide ((b - a).toNat < 2 ^ 31)
def seqLE (a b : Seq) : Bool := decide ((b - a).toNat < 2 ^ 31)
def seqGreater (a b : Seq) : Bool := a != b && decide ((a - b).toNat < 2 ^ 31)
def seqGE (a b : Seq) : Bool := decide ((a - b).toNat < 2 ^ 31)

section Positions

variable {a b : ℕ}

theorem seqLE_ofNat (h₁ : a ≤ b + 2 ^ 31) (h₂ : b < a + 2 ^ 31) :
    seqLE (BitVec.ofNat 32 a) (BitVec.ofNat 32 b) = decide (a ≤ b) :=
  SerialNumber.le_ofNat (by decide) h₁ h₂

theorem seqLess_ofNat (h₁ : a ≤ b + 2 ^ 31) (h₂ : b < a + 2 ^ 31) :
    seqLess (BitVec.ofNat 32 a) (BitVec.ofNat 32 b) = decide (a < b) :=
  SerialNumber.lt_ofNat (by decide) h₁ h₂

theorem seqGE_ofNat (h₁ : b ≤ a + 2 ^ 31) (h₂ : a < b + 2 ^ 31) :
    seqGE (BitVec.ofNat 32 a) (BitVec.ofNat 32 b) = decide (b ≤ a) :=
  SerialNumber.le_ofNat (by decide) h₁ h₂

theorem seqGreater_ofNat (h₁ : b ≤ a + 2 ^ 31) (h₂ : a < b + 2 ^ 31) :
    seqGreater (BitVec.ofNat 32 a) (BitVec.ofNat 32 b) = decide (b < a) := by
  rw [← seqLess_ofNat h₁ h₂, seqGreater, seqLess, bne_comm]

end Positions

/-! ## Faults -/

/-- The functions of the TCP model that contain an `ASSERT`. -/
inductive AssertSite
  | createSegmentWithBytes
  | discardUpTo
  | extractTo
  | sendSegment
  | sendData
  | retransmitOneSegment
  | retransmitData
  | processTCPSegment
  | processSegment1stThru8th
  | processAckInEstabEtc
  | performStateTransition
  | stateEntered
  deriving DecidableEq, Repr

/-- The self-messages of a connection and of its `TCPAlgorithm`. -/
inductive Timer
  | the2MSL
  | connEstab
  | finWait2
  | synRexmit
  | rexmit
  | persist
  | delayedAck
  | keepAlive
  deriving DecidableEq, Repr

inductive AppCommand
  | openActive
  | openPassive
  | send
  | close
  | abort
  | status
  deriving DecidableEq, Repr

/-- What ends a simulation run. `internalError` is "Internal error: received ... timeout in state
..." (or "SYN-REXMIT timer expired while in state ..."), `commandError` is "Error processing
command ...: ...", and `foreignSocketUnspecified` is the complaint of `sendSyn`. -/
inductive Fault
  | assertion (site : AssertSite)
  | internalError (timer : Timer)
  | commandError (command : AppCommand)
  | foreignSocketUnspecified
  | alreadyScheduled (timer : Timer)
  | nullPointer
  | divisionByZero
  | endlessLoop
  deriving DecidableEq, Repr

/-! ## Segments -/

/-- The header fields of a `TCPSegment` that the connection reads. -/
structure TCPSegment where
  srcPort : ℤ := 0
  destPort : ℤ := 0
  sequenceNo : Seq := 0
  ackNo : Seq := 0
  ackBit : Bool := false
  rstBit : Bool := false
  synBit : Bool := false
  finBit : Bool := false
  window : ℕ := 0
  payloadLength : ℕ := 0
  deriving DecidableEq, Repr

/-! ## Send queue -/

/-- `TCPVirtualDataSendQueue`: the sequence numbers `[beginSeq, endSeq)` it stores. -/
structure TCPVirtualDataSendQueue where
  beginSeq : Seq := 0
  endSeq : Seq := 0
  deriving DecidableEq, Repr

namespace TCPVirtualDataSendQueue

def init (startSeq : Seq) : TCPVirtualDataSendQueue := ⟨startSeq, startSeq⟩

def enqueueAppData (q : TCPVirtualDataSendQueue) (byteLength : ℕ) : TCPVirtualDataSendQueue :=
  { q with endSeq := q.endSeq + BitVec.ofNat 32 byteLength }

def getBufferEndSeq (q : TCPVirtualDataSendQueue) : Seq := q.endSeq

def getBytesAvailable (q : TCPVirtualDataSendQueue) (fromSeq : Seq) : ℕ :=
  if seqLess fromSeq q.getBufferEndSeq then (q.getBufferEndSeq - fromSeq).toNat else 0

def createSegmentWithBytes (asserts : Bool) (q : TCPVirtualDataSendQueue) (fromSeq : Seq)
    (numBytes : ℕ) : Except Fault TCPSegment := do
  check asserts (seqLE q.beginSeq fromSeq && seqLE (fromSeq + BitVec.ofNat 32 numBytes) q.endSeq)
    (.assertion .createSegmentWithBytes)
  return { sequenceNo := fromSeq, payloadLength := numBytes }

def discardUpTo (asserts : Bool) (q : TCPVirtualDataSendQueue) (seqNum : Seq) :
    Except Fault TCPVirtualDataSendQueue := do
  check asserts (seqLE q.beginSeq seqNum && seqLE seqNum q.endSeq) (.assertion .discardUpTo)
  return { q with beginSeq := seqNum }

end TCPVirtualDataSendQueue

/-! ## Receive queue -/

/-- `TCPVirtualDataRcvQueue`: the next expected sequence number and the regions received. -/
structure TCPVirtualDataRcvQueue where
  rcvNxt : Seq := 0
  regionList : List (Region Seq) := []
  deriving DecidableEq, Repr

namespace TCPVirtualDataRcvQueue

/-- The source keeps the region list of an earlier use. -/
def init (q : TCPVirtualDataRcvQueue) (startSeq : Seq) : TCPVirtualDataRcvQueue :=
  { q with rcvNxt := startSeq }

def merge (q : TCPVirtualDataRcvQueue) (segmentBegin segmentEnd : Seq) : List (Region Seq) :=
  RegionList.merge seqLess seqGE ⟨segmentBegin, segmentEnd⟩ q.regionList

def insertBytesFromSegment (q : TCPVirtualDataRcvQueue) (seg : TCPSegment) :
    TCPVirtualDataRcvQueue :=
  let regions := q.merge seg.sequenceNo (seg.sequenceNo + BitVec.ofNat 32 seg.payloadLength)
  match regions with
  | [] => { q with regionList := regions }
  | first :: _ =>
      { regionList := regions
        rcvNxt := if seqGE q.rcvNxt first.lower then first.upper else q.rcvNxt }

/-- Number of bytes extracted, with the queue that is left. The emptiness check of the source
compares the region's ends as plain numbers. -/
def extractTo (asserts : Bool) (q : TCPVirtualDataRcvQueue) (seq : Seq) :
    Except Fault (ℕ × TCPVirtualDataRcvQueue) := do
  check asserts (seqLE seq q.rcvNxt) (.assertion .extractTo)
  match q.regionList with
  | [] => return (0, q)
  | first :: rest =>
      check asserts (decide (first.lower.toNat < first.upper.toNat)) (.assertion .extractTo)
      if seqLE seq first.lower then
        return (0, q)
      else if seqLess seq first.upper then
        return ((seq - first.lower).toNat,
          { q with regionList := { first with lower := seq } :: rest })
      else
        return ((first.upper - first.lower).toNat, { q with regionList := rest })

/-- `NULL` when there is nothing to extract, else the byte length of the packet. -/
def extractBytesUpTo (asserts : Bool) (q : TCPVirtualDataRcvQueue) (seq : Seq) :
    Except Fault (Option ℕ × TCPVirtualDataRcvQueue) := do
  let (numBytes, q) ← q.extractTo asserts seq
  return (if numBytes = 0 then none else some numBytes, q)

/-- The loop that extracts until `NULL` is returned. Every extraction but the last removes a
region or is followed by an empty one, so `regionList.length + 2` rounds are enough. -/
def extractLoop (asserts : Bool) (seq : Seq) :
    ℕ → TCPVirtualDataRcvQueue → Except Fault (List ℕ × TCPVirtualDataRcvQueue)
  | 0, _ => .error .endlessLoop
  | rounds + 1, q => do
      let (packet, q) ← q.extractBytesUpTo asserts seq
      match packet with
      | none => return ([], q)
      | some numBytes =>
          let (packets, q) ← extractLoop asserts seq rounds q
          return (numBytes :: packets, q)

def extractAll (asserts : Bool) (q : TCPVirtualDataRcvQueue) (seq : Seq) :
    Except Fault (List ℕ × TCPVirtualDataRcvQueue) :=
  extractLoop asserts seq (q.regionList.length + 2) q

end TCPVirtualDataRcvQueue

end InetManet.TCP
