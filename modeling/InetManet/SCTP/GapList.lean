import InetManet.Library.SerialNumber
import InetManet.Library.TransitionSystem

/-!
# The gap list

The TSNs that have arrived behind the cumulative TSN are kept as runs, in two parallel arrays of
`maxGapCount` entries. A TSN that arrives lengthens a run, joins two of them or opens a new one; a run
that follows the cumulative TSN is absorbed. When a TSN is evicted its run is cut at one end, split in
two or deleted. The arrays are modelled with their bounds and with every write; a write behind the last
entry would hit the variables that follow in memory.
-/

namespace InetManet.SCTP

open TransitionSystem SerialNumber

/-! ## TSN comparison -/

def tsnLe (a b : BitVec 32) : Bool := signedLe a b
def tsnLt (a b : BitVec 32) : Bool := signedLt a b
def tsnGe (a b : BitVec 32) : Bool := decide (0 ≤ (a - b).toInt)
def tsnGt (a b : BitVec 32) : Bool := decide (0 < (a - b).toInt)
def tsnBetween (a mid b : BitVec 32) : Bool := decide ((mid - a).toNat ≤ (b - a).toNat)
def ssnGt (a b : BitVec 16) : Bool := decide (0 < (a - b).toInt)

/-! ## The arrays -/

def maxGapCount : ℕ := 500

/-- An array is written outside of its entries. -/
inductive GapFault
  | outOfBounds
  deriving DecidableEq

/-- The gap list, with the variables that `removeFromGapList` reads or writes. What is read behind
the last entry of an array is arbitrary. -/
structure GapState where
  numGaps : ℕ
  gapStartList : ℕ → BitVec 32
  gapStopList : ℕ → BitVec 32
  cTsnAck : BitVec 32
  highestTsnReceived : BitVec 32
  lastTsnAck : BitVec 32

namespace GapState

def setStart (g : GapState) (j : ℕ) (tsn : BitVec 32) : Except GapFault GapState :=
  if j < maxGapCount then
    .ok { g with gapStartList := Function.update g.gapStartList j tsn }
  else .error .outOfBounds

def setStop (g : GapState) (j : ℕ) (tsn : BitVec 32) : Except GapFault GapState :=
  if j < maxGapCount then
    .ok { g with gapStopList := Function.update g.gapStopList j tsn }
  else .error .outOfBounds

/-- Entry `j` of both arrays becomes a copy of entry `k`. -/
def copy (g : GapState) (j k : ℕ) : Except GapFault GapState := do
  let g ← g.setStop j (g.gapStopList k)
  g.setStart j (g.gapStartList k)

/-- `for (int32 j=numgaps-1; j>=i; j--)`, for the `n` entries from `i` on. -/
def shiftUp (i : ℕ) : ℕ → GapState → Except GapFault GapState
  | 0, g => .ok g
  | n + 1, g => g.copy (i + n + 1) (i + n) >>= shiftUp i n

/-- `for (int32 j=i; j<=numgaps-1; j++)`, for the `n` entries from `j` on. -/
def shiftDown : ℕ → ℕ → GapState → Except GapFault GapState
  | 0, _, g => .ok g
  | n + 1, j, g => g.copy j (j + 1) >>= shiftDown n (j + 1)

/-- Run `i` is deleted. Without any runs left, the TSN may count as acknowledged. -/
def deleteRun (removedTsn : BitVec 32) (numgaps i : ℕ) (g : GapState) :
    Except GapFault GapState := do
  let g ← shiftDown (numgaps - i) i g
  let g ← g.setStart (numgaps - 1) 0
  let g ← g.setStop (numgaps - 1) 0
  let g := { g with numGaps := g.numGaps - 1 }
  return if g.numGaps = 0 ∧ removedTsn = g.lastTsnAck + 1 then
    { g with lastTsnAck := removedTsn } else g

/-- "gap is split in two". -/
def splitRun (removedTsn : BitVec 32) (numgaps i : ℕ) (g : GapState) :
    Except GapFault GapState := do
  let g ← shiftUp i (numgaps - i) g
  let g ← g.setStop i (removedTsn - 1)
  let g ← g.setStart (i + 1) (removedTsn + 1)
  return { g with numGaps := g.numGaps + 1 }

/-- What becomes of run `i`, which holds `removedTsn`. -/
def removeFromRun (removedTsn : BitVec 32) (numgaps i : ℕ) (g : GapState) :
    Except GapFault GapState :=
  if 1 < (g.gapStopList i - g.gapStartList i + 1).toInt then
    if g.gapStopList i = removedTsn then g.setStop i (g.gapStopList i - 1)
    else if g.gapStartList i = removedTsn then g.setStart i (g.gapStartList i + 1)
    else g.splitRun removedTsn numgaps i
  else g.deleteRun removedTsn numgaps i

/-- `for (int32 i=numgaps-1; i>=0; i--)`. -/
def removeLoop (removedTsn : BitVec 32) (numgaps : ℕ) : ℕ → GapState → Except GapFault GapState
  | 0, g => .ok g
  | i + 1, g =>
      (if tsnBetween (g.gapStartList i) removedTsn (g.gapStopList i) then
        g.removeFromRun removedTsn numgaps i
      else .ok g) >>= removeLoop removedTsn numgaps i

/-- The last two lines. -/
def updateHighest (g : GapState) : GapState :=
  { g with highestTsnReceived :=
      if 0 < g.numGaps then g.gapStopList (g.numGaps - 1) else g.cTsnAck }

def removeFromGapList (g : GapState) (removedTsn : BitVec 32) : Except GapFault GapState := do
  let g ← removeLoop removedTsn g.numGaps g.numGaps g
  return g.updateHighest

/-! ## A TSN arrives -/

/-- The unsigned index `i - 1`. -/
def before (i : ℕ) : ℕ := (BitVec.ofNat 32 i - 1).toNat

/-- "a gap in between": the runs from `i` on move up, also the entry behind the last one. -/
def insertRun (receivedTsn : BitVec 32) (i : ℕ) (g : GapState) : Except GapFault GapState := do
  let g := { g with numGaps := g.numGaps + 1 }
  let g ← shiftUp i (g.numGaps - i) g
  let g ← g.setStart i receivedTsn
  g.setStop i receivedTsn

/-- Run `i` goes, either by clearing it or by moving `entries` entries down. -/
def closeRun (entries i : ℕ) (g : GapState) : Except GapFault GapState := do
  let g ← if i = g.numGaps - 1 then do
      let g ← g.setStart i 0
      g.setStop i 0
    else shiftDown entries i g
  return { g with numGaps := g.numGaps - 1 }

/-- The TSN lies between `lo` and the start of run `i`. -/
def fillBefore (receivedTsn : BitVec 32) (i : ℕ) (lo : BitVec 32) (g : GapState) :
    Except GapFault GapState :=
  let hi := g.gapStartList i - 1
  if 1 < (hi - lo + 1).toNat then
    if receivedTsn = hi then g.setStart i receivedTsn
    else if receivedTsn = lo then
      if receivedTsn = g.cTsnAck + 1 then .ok { g with cTsnAck := g.cTsnAck + 1 }
      else g.setStop (before i) receivedTsn
    else g.insertRun receivedTsn i
  else if lo = g.cTsnAck + 1 then
    closeRun (g.numGaps - i) i { g with cTsnAck := g.gapStopList i }
  else do
    let g ← g.setStop (before i) (g.gapStopList i)
    g.closeRun (g.numGaps + 1 - i) i

/-- "End of Gap List passed". -/
def fillAfter (receivedTsn lo : BitVec 32) (g : GapState) : Except GapFault GapState :=
  if receivedTsn = lo then
    if receivedTsn = g.cTsnAck + 1 then .ok { g with cTsnAck := receivedTsn }
    else g.setStop (before g.numGaps) (g.gapStopList (before g.numGaps) + 1)
  else do
    let g ← g.setStart g.numGaps receivedTsn
    let g ← g.setStop g.numGaps receivedTsn
    return { g with numGaps := g.numGaps + 1 }

/-- The loop over the runs, for the `n` runs from `i` on. A run that starts at TSN 0 is passed over. -/
def gapLoop (receivedTsn : BitVec 32) (g : GapState) :
    ℕ → ℕ → BitVec 32 → Except GapFault GapState
  | 0, _, lo => g.fillAfter receivedTsn lo
  | n + 1, i, lo =>
    if 0 < (g.gapStartList i).toNat then
      if tsnBetween lo receivedTsn (g.gapStartList i - 1) then g.fillBefore receivedTsn i lo
      else gapLoop receivedTsn g n (i + 1) (g.gapStopList i + 1)
    else gapLoop receivedTsn g n (i + 1) lo

/-- A run that follows `cTsnAck` is taken out, and `numGaps` stays. -/
def advanceLoop : ℕ → GapState → Except GapFault GapState
  | 0, g => .ok g
  | rounds + 1, g =>
    if g.cTsnAck + 1 = g.gapStartList 0 then
      shiftDown (g.numGaps - 1) 0 { g with cTsnAck := g.gapStopList 0 } >>= advanceLoop rounds
    else .ok g

def advanceCtsna (g : GapState) : Except GapFault GapState := advanceLoop g.numGaps g

end GapState

/-- The variables of an association that the arrival of a TSN reads or writes. -/
structure TsnState extends GapState where
  initPeerTsn : BitVec 32
  highestTsnStored : BitVec 32
  dupList : List (BitVec 32)
  stopReceiving : Bool

/-- A TSN that arrives when the window is open; `freeWindow` is `(int32)(localRwnd-queuedRcvBytes)`. It
may come after a SACK that reports the duplicates. -/
structure TsnArrival where
  tsn : BitVec 32
  freeWindow : ℤ
  isOpen : 0 < freeWindow
  sackSent : Bool := false

namespace TsnState

variable (a : TsnState)

/-- `false`: the window is full and the cumulative TSN cannot be advanced. -/
def updateGapList (freeWindow : ℤ) (receivedTsn : BitVec 32) :
    Except GapFault (Bool × TsnState) :=
  let lo := a.cTsnAck + 1
  if freeWindow ≤ 0 ∧ receivedTsn ≠ lo then .ok (false, a)
  else do
    let a := if tsnGt receivedTsn a.highestTsnStored then { a with highestTsnStored := receivedTsn }
      else a
    let g ← a.gapLoop receivedTsn a.numGaps 0 lo
    return (true, { a with toGapState := g })

def tsnIsDuplicate (tsn : BitVec 32) : Bool :=
  a.dupList.contains tsn ||
    (List.range a.numGaps).any fun i ↦ tsnBetween (a.gapStartList i) tsn (a.gapStopList i)

/-- `std::list::unique`. -/
def addDuplicate (tsn : BitVec 32) : TsnState :=
  { a with dupList := if a.dupList.getLast? = some tsn then a.dupList else a.dupList ++ [tsn] }

/-- A SACK reports the duplicates once. -/
def afterSack (sackSent : Bool) : TsnState :=
  { a with dupList := if sackSent then [] else a.dupList }

/-- `highestTsnReceived` is read off the gap list first. -/
def noteHighest : TsnState :=
  { a with highestTsnReceived :=
      if a.numGaps = 0 then a.cTsnAck else a.gapStopList (a.numGaps - 1) }

/-- `updateGapList`, and `advanceCtsna` if it says so. -/
def fill (d : TsnArrival) : Except GapFault TsnState := do
  let (checkCtsnaChange, a) ← a.updateGapList d.freeWindow d.tsn
  if checkCtsnaChange then
    let g ← a.advanceCtsna
    return { a with toGapState := g }
  else return a

/-- What `processDataArrived` does to these variables. -/
def processDataArrived (d : TsnArrival) : Except GapFault TsnState :=
  let a := a.noteHighest
  if a.stopReceiving then .ok a
  else if tsnLe d.tsn a.cTsnAck then .ok (a.addDuplicate d.tsn)
  else if tsnGt d.tsn a.highestTsnReceived then
    let a := { a with highestTsnReceived := d.tsn, highestTsnStored := d.tsn }
    if d.tsn = a.initPeerTsn then .ok { a with cTsnAck := d.tsn } else a.fill d
  else if a.tsnIsDuplicate d.tsn then .ok (a.addDuplicate d.tsn)
  else a.fill d

/-- The next arrival, and the SACK that may have been sent before it. -/
def arrive (d : TsnArrival) : Except GapFault TsnState :=
  (a.afterSack d.sackSent).processDataArrived d

end TsnState

/-- The variables when the initial TSN of the peer is known. -/
def newAssociation (initPeerTsn : BitVec 32) : TsnState :=
  { numGaps := 0, gapStartList := fun _ ↦ 0, gapStopList := fun _ ↦ 0, cTsnAck := initPeerTsn - 1,
    highestTsnReceived := 0, lastTsnAck := 0, initPeerTsn, highestTsnStored := 0, dupList := [],
    stopReceiving := false }

end InetManet.SCTP
