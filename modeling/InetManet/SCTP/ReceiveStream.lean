import InetManet.Library.OrderedMap
import InetManet.Library.SerialNumber
import InetManet.Library.TransitionSystem

/-!
# SCTP receive streams

`SCTPQueue` and `SCTPReceiveStream`: chunks are kept in three queues, each a map from TSN to chunk
that is ordered by the plain value of the TSN. `orderedQ` holds ordered chunks until their stream
sequence number is the next one, `unorderedQ` fragments of unordered messages, and `deliveryQ` what
the application may fetch. `reassemble` merges the fragments of a message into its first chunk.

The payload of a chunk is the byte array of its `SCTPSimpleMessage`.
-/

namespace InetManet.SCTP

open TransitionSystem

/-- Runtime errors: a `NULL` pointer or the end of a map is dereferenced, a loop never ends, or an
array is written outside of its entries. -/
inductive Fault
  | nullPointer
  | endOfMap
  | endlessLoop
  | outOfBounds
  | error (line : ℕ)
  deriving DecidableEq, Repr

/-- A chunk as the receiving side stores it; `len` is the payload length in bits. -/
structure SCTPDataVariables where
  tsn : BitVec 32 := 0
  sid : ℕ := 0
  ssn : BitVec 16 := 0
  ordered : Bool := true
  bbit : Bool := false
  ebit : Bool := false
  len : ℕ := 0
  userData : List (BitVec 8) := []
  deriving DecidableEq, Repr

/-! ## SCTPQueue -/

/-- A `PayloadQueue`. -/
abbrev SCTPQueue := OrderedMap ℕ SCTPDataVariables

namespace SCTPQueue

variable (q : SCTPQueue)

def getVar (tsn : BitVec 32) : Option SCTPDataVariables := q.find? tsn.toNat

/-- `false` means that a chunk with this key was present. -/
def checkAndInsertVar (key : BitVec 32) (datVar : SCTPDataVariables) :
    Bool × SCTPQueue :=
  match q.getVar key with
  | some _ => (false, q)
  | none => (true, q.insert key.toNat datVar)

/-- The end of the map is dereferenced when the key is missing. -/
def getAndExtractMessage (tsn : BitVec 32) :
    Except Fault (SCTPDataVariables × SCTPQueue) :=
  match q.getVar tsn with
  | some datVar => .ok (datVar, q.erase tsn.toNat)
  | none => .error .endOfMap

/-- The chunk with the smallest TSN. -/
def extractMessage : Option (SCTPDataVariables × SCTPQueue) :=
  match q.entries with
  | [] => none
  | (key, datVar) :: _ => some (datVar, q.erase key)

/-- The first complete message, in TSN order, with this stream sequence number. -/
def dequeueVarBySsn (ssn : BitVec 16) : Option (SCTPDataVariables × SCTPQueue) :=
  (q.findFirst? fun datVar ↦ datVar.ssn == ssn && datVar.bbit && datVar.ebit).map
    fun (key, datVar) ↦ (datVar, q.erase key)

/-- `getNumBytes`. -/
def getNumBytes : ℤ := q.sum fun datVar ↦ (datVar.len / 8 : ℕ)

end SCTPQueue

/-! ## SCTPReceiveStream -/

structure SCTPReceiveStream where
  expectedStreamSeqNum : BitVec 16 := 0
  deliveryQ : SCTPQueue := .empty
  orderedQ : SCTPQueue := .empty
  unorderedQ : SCTPQueue := .empty

instance : Inhabited SCTPReceiveStream := ⟨{}⟩

namespace SCTPReceiveStream

/-- `while (orderedQ->getVar(begintsn) && !bbit) begintsn--`. -/
def lowerLoop (q : SCTPQueue) : ℕ → BitVec 32 → Except Fault (BitVec 32)
  | 0, _ => .error .endlessLoop
  | rounds + 1, tsn =>
      match q.getVar tsn with
      | some v => if v.bbit then .ok tsn else lowerLoop q rounds (tsn - 1)
      | none => .ok tsn

/-- `while (orderedQ->getVar(endtsn) && !ebit) endtsn++`. -/
def upperLoop (q : SCTPQueue) : ℕ → BitVec 32 → Except Fault (BitVec 32)
  | 0, _ => .error .endlessLoop
  | rounds + 1, tsn =>
      match q.getVar tsn with
      | some v => if v.ebit then .ok tsn else upperLoop q rounds (tsn + 1)
      | none => .ok tsn

/-- The bytes of `process` are copied behind those of `first`. -/
def addFragment (first process : SCTPDataVariables) : SCTPDataVariables :=
  { first with len := first.len + process.len, userData := first.userData ++ process.userData }

/-- `while (++begintsn <= endtsn)`, a plain comparison. -/
def mergeLoop (endtsn : BitVec 32) :
    ℕ → SCTPQueue → SCTPDataVariables → BitVec 32 → Except Fault (SCTPDataVariables × SCTPQueue)
  | 0, _, _, _ => .error .endlessLoop
  | rounds + 1, q, first, begintsn =>
      if (begintsn + 1).toNat ≤ endtsn.toNat then do
        let (process, q) ← q.getAndExtractMessage (begintsn + 1)
        mergeLoop endtsn rounds q (addFragment first process) (begintsn + 1)
      else .ok (first, q)

/-- As many rounds as there are TSNs; a loop that is still running then has seen every one. -/
def allTsns : ℕ := 2 ^ 32

section

variable (s : SCTPReceiveStream)

/-- The queue that is passed is not used: fragments are looked for in `orderedQ`. -/
def reassemble (_queue : SCTPQueue) (tsn : BitVec 32) :
    Except Fault (BitVec 32 × SCTPReceiveStream) := do
  let begintsn ← lowerLoop s.orderedQ allTsns tsn
  match s.orderedQ.getVar begintsn with
  | none => return (tsn, s)
  | some first =>
      let endtsn ← upperLoop s.orderedQ allTsns begintsn
      match s.orderedQ.getVar endtsn with
      | none => return (tsn, s)
      | some _ =>
          let (first, q) ← mergeLoop endtsn allTsns s.orderedQ first begintsn
          let first := { first with ebit := true }
          return (first.tsn, { s with orderedQ := q.insert begintsn.toNat first })

/-- The next message in stream sequence goes to `deliveryQ`; the flag says whether one did. -/
def dequeueExpected : Bool × SCTPReceiveStream :=
  match s.orderedQ.dequeueVarBySsn s.expectedStreamSeqNum with
  | none => (false, s)
  | some (chunk, orderedQ) =>
      match s.deliveryQ.checkAndInsertVar chunk.tsn chunk with
      | (false, _) => (false, { s with orderedQ })
      | (true, deliveryQ) =>
          (true, { s with orderedQ, deliveryQ,
                          expectedStreamSeqNum := s.expectedStreamSeqNum + 1 })

/-- What `enqueueNewDataChunk` returns. -/
inductive Delivery
  | none
  | orderedQ
  | deliveryQ
  | fragment
  deriving DecidableEq, Repr

/-- A fragment of an unordered message. The begin bit is tested twice, the end bit never. -/
def enqueueUnorderedFragment (dchunk : SCTPDataVariables) :
    Except Fault (Delivery × SCTPReceiveStream) := do
  let s := { s with unorderedQ := (s.unorderedQ.checkAndInsertVar dchunk.tsn dchunk).2 }
  let (reassembled, s) ← s.reassemble s.unorderedQ dchunk.tsn
  match s.unorderedQ.getVar reassembled with
  | none => .error .nullPointer
  | some v =>
      if v.bbit && v.bbit then
        let (chunk, unorderedQ) ← s.unorderedQ.getAndExtractMessage reassembled
        let s := { s with unorderedQ }
        match s.deliveryQ.checkAndInsertVar reassembled chunk with
        | (true, deliveryQ) => return (.deliveryQ, { s with deliveryQ })
        | (false, _) => return (.fragment, s)
      else return (.fragment, s)

/-- An ordered chunk goes to `orderedQ`; a fragment may complete its message. -/
def enqueueOrdered (dchunk : SCTPDataVariables) :
    Except Fault (Delivery × SCTPReceiveStream) := do
  let (inserted, orderedQ) := s.orderedQ.checkAndInsertVar dchunk.tsn dchunk
  let s := { s with orderedQ }
  let (delivery, s) ←
    if !dchunk.bbit || !dchunk.ebit then do
      let (_, s) ← s.reassemble s.orderedQ dchunk.tsn
      pure (Delivery.fragment, s)
    else pure (if inserted then Delivery.orderedQ else Delivery.none, s)
  let (dequeued, s) := s.dequeueExpected
  return (if dequeued then .deliveryQ else delivery, s)

def enqueueNewDataChunk (dchunk : SCTPDataVariables) :
    Except Fault (Delivery × SCTPReceiveStream) :=
  if !dchunk.ordered then
    if dchunk.bbit && dchunk.ebit then
      match s.deliveryQ.checkAndInsertVar dchunk.tsn dchunk with
      | (true, deliveryQ) => .ok (.deliveryQ, { s with deliveryQ })
      | (false, _) => .ok (.none, s)
    else s.enqueueUnorderedFragment dchunk
  else s.enqueueOrdered dchunk

end

/-! ## What the queue operations do -/

section Cases

variable {q : SCTPQueue} {v : SCTPDataVariables}

theorem checkAndInsertVar_cases (q : SCTPQueue) (key : BitVec 32) (v : SCTPDataVariables) :
    (q.find? key.toNat = none ∧ q.checkAndInsertVar key v = (true, q.insert key.toNat v)) ∨
      ((∃ w, q.find? key.toNat = some w) ∧ q.checkAndInsertVar key v = (false, q)) := by
  unfold SCTPQueue.checkAndInsertVar SCTPQueue.getVar
  cases hfind : q.find? key.toNat with
  | none => exact .inl ⟨rfl, rfl⟩
  | some w => exact .inr ⟨⟨w, rfl⟩, rfl⟩

theorem dequeueVarBySsn_eq_some {ssn : BitVec 16} {q' : SCTPQueue}
    (h : q.dequeueVarBySsn ssn = some (v, q')) :
    ∃ key, q.find? key = some v ∧ v.ssn = ssn ∧ v.bbit = true ∧ v.ebit = true ∧ q' = q.erase key := by
  unfold SCTPQueue.dequeueVarBySsn at h
  obtain ⟨⟨key, w⟩, hfirst, heq⟩ := Option.map_eq_some_iff.mp h
  cases heq
  obtain ⟨hfind, hbits, -⟩ := OrderedMap.findFirst?_eq_some hfirst
  simp only [Bool.and_eq_true, beq_iff_eq] at hbits
  exact ⟨key, hfind, hbits.1.1, hbits.1.2, hbits.2, rfl⟩

theorem dequeueVarBySsn_eq_none {ssn : BitVec 16} (h : q.dequeueVarBySsn ssn = none) {key : ℕ}
    (hfind : q.find? key = some v) : ¬ (v.ssn = ssn ∧ v.bbit = true ∧ v.ebit = true) := by
  unfold SCTPQueue.dequeueVarBySsn at h
  have hnot := OrderedMap.findFirst?_eq_none (Option.map_eq_none_iff.mp h) hfind
  rintro ⟨hssn, hb, he⟩
  simp [hssn, hb, he] at hnot

/-- The stream after `chunk` has been taken out of `orderedQ` at `key` and put into `deliveryQ`. -/
def moveExpected (s : SCTPReceiveStream) (key : ℕ) (chunk : SCTPDataVariables) :
    SCTPReceiveStream :=
  { s with orderedQ := s.orderedQ.erase key, deliveryQ := s.deliveryQ.insert chunk.tsn.toNat chunk,
           expectedStreamSeqNum := s.expectedStreamSeqNum + 1 }

theorem dequeueExpected_cases (s : SCTPReceiveStream) :
    (s.orderedQ.dequeueVarBySsn s.expectedStreamSeqNum = none ∧ s.dequeueExpected = (false, s)) ∨
      ∃ key chunk, s.orderedQ.find? key = some chunk ∧ chunk.ssn = s.expectedStreamSeqNum ∧
        chunk.bbit = true ∧ chunk.ebit = true ∧
        ((s.deliveryQ.find? chunk.tsn.toNat = none ∧
            s.dequeueExpected = (true, s.moveExpected key chunk)) ∨
          ((∃ w, s.deliveryQ.find? chunk.tsn.toNat = some w) ∧
            s.dequeueExpected = (false, { s with orderedQ := s.orderedQ.erase key }))) := by
  unfold SCTPReceiveStream.dequeueExpected
  cases hdeq : s.orderedQ.dequeueVarBySsn s.expectedStreamSeqNum with
  | none => exact .inl ⟨rfl, rfl⟩
  | some r =>
    obtain ⟨chunk, q'⟩ := r
    obtain ⟨key, hfind, hssn, hb, he, rfl⟩ := dequeueVarBySsn_eq_some hdeq
    refine .inr ⟨key, chunk, hfind, hssn, hb, he, ?_⟩
    rcases checkAndInsertVar_cases s.deliveryQ chunk.tsn chunk with ⟨hfree, heq⟩ | ⟨hfull, heq⟩
    · exact .inl ⟨hfree, by simp only [heq]; rfl⟩
    · exact .inr ⟨hfull, by simp only [heq]⟩

theorem enqueueOrdered_eq (s : SCTPReceiveStream) (dchunk : SCTPDataVariables) :
    let r := s.orderedQ.checkAndInsertVar dchunk.tsn dchunk
    s.enqueueOrdered dchunk =
      (if !dchunk.bbit || !dchunk.ebit then
        SCTPReceiveStream.reassemble { s with orderedQ := r.2 } r.2 dchunk.tsn >>=
          fun t ↦ .ok (Delivery.fragment, t.2)
      else .ok (if r.1 then Delivery.orderedQ else Delivery.none, { s with orderedQ := r.2 })) >>=
      fun t ↦ .ok (if t.2.dequeueExpected.1 then .deliveryQ else t.1, t.2.dequeueExpected.2) := by
  intro r
  unfold enqueueOrdered
  by_cases hfragment : (!dchunk.bbit || !dchunk.ebit) = true
  · rw [if_pos hfragment]
    dsimp only
    rw [if_pos hfragment]
    cases SCTPReceiveStream.reassemble { s with orderedQ := r.2 } r.2 dchunk.tsn <;> rfl
  · rw [if_neg hfragment]
    dsimp only
    rw [if_neg hfragment]
    rfl

end Cases

end SCTPReceiveStream

end InetManet.SCTP
