import InetManet.Library.OrderedMap
import InetManet.Library.TransitionSystem
import Mathlib.Algebra.Order.Field.Rat
import Mathlib.Control.Monad.Basic

/-!
# The relay unit of an Ethernet switch

A frame's source address is entered into the address table with the port the frame came from. A frame
is sent to the port of its destination if the table has an entry for it that is not too old, and to
all other ports otherwise. Aged entries are thrown out when they are looked up and when a full table
needs room; if that makes no room the oldest entry goes.
-/

namespace InetManet.Ethernet

abbrev MACAddress := BitVec 48

instance : LinearOrder MACAddress := LinearOrder.lift' BitVec.toNat fun _ _ ↦ BitVec.eq_of_toNat_eq

def MACAddress.byte (address : MACAddress) (k : ℕ) : BitVec 8 := address.extractLsb' (8 * (5 - k)) 8

def MACAddress.isBroadcast (a : MACAddress) : Bool :=
  (a.byte 0 &&& a.byte 1 &&& a.byte 2 &&& a.byte 3 &&& a.byte 4 &&& a.byte 5) == 0xff

def MACAddress.isMulticast (a : MACAddress) : Bool := (a.byte 0 &&& 0x80) != 0

inductive Fault
  | wrongAddressSyntax
  | invalidLine
  | noSuchGate
  deriving DecidableEq

/-! ## The address table file -/

def isxdigit (c : Char) : Bool :=
  c.isDigit || ('a' ≤ c && c ≤ 'f') || ('A' ≤ c && c ≤ 'F')

def hexDigit (c : Char) : ℕ :=
  if c.isDigit then c.toNat - '0'.toNat
  else if c.isLower then c.toNat - 'a'.toNat + 10 else c.toNat - 'A'.toNat + 10

def hextobin (hexstr : List Char) : MACAddress :=
  .ofNat 48 ((hexstr.filter isxdigit).foldl (fun d c ↦ 16 * d + hexDigit c) 0)

/-- Twelve hex digits, with optional embedded spaces, hyphens or colons. -/
def setAddress (hexstr : List Char) : Except Fault MACAddress :=
  if hexstr.all (fun c ↦ isxdigit c || c == ' ' || c == ':' || c == '-') &&
      (hexstr.filter isxdigit).length == 12 then
    .ok (hextobin hexstr)
  else .error .wrongAddressSyntax

def atoi (s : List Char) : ℤ :=
  match s.dropWhile Char.isWhitespace with
  | '-' :: cs => -(digits cs : ℤ)
  | '+' :: cs => digits cs
  | cs => digits cs
where
  digits (cs : List Char) : ℕ :=
    (cs.takeWhile Char.isDigit).foldl (fun n c ↦ 10 * n + (c.toNat - '0'.toNat)) 0

/-- The tokens `strtok` finds in a line. -/
def tokens (line : List Char) : List (List Char) :=
  (line.splitOnP fun c ↦ c == ' ' || c == '\t').filter fun token ↦ !token.isEmpty

/-- The address and the port of a line, unless it is a comment or empty. -/
def readLine (line : List Char) : Except Fault (Option (MACAddress × ℤ)) :=
  if line.head? = some '#' then .ok none
  else match tokens line with
    | [] => .ok none
    | [_] => .error .invalidLine
    | hexaddress :: portno :: _ => do
      let address ← setAddress hexaddress
      return some (address, atoi portno)

def readLines (lines : List (List Char)) : Except Fault (List (MACAddress × ℤ)) :=
  List.reduceOption <$> lines.mapM readLine

/-! ## The address table -/

structure AddressEntry where
  portno : ℤ
  insertionTime : ℚ
  deriving DecidableEq

abbrev AddressTable := OrderedMap MACAddress AddressEntry

structure EtherFrame where
  src : MACAddress
  dest : MACAddress

structure MACRelayUnitBase where
  numPorts : ℕ
  addressTableSize : ℕ
  agingTime : ℚ
  addresstable : AddressTable

/-- What the table holds when the file has been read. -/
def readAddressTable (entries : List (MACAddress × ℤ)) : AddressTable :=
  entries.foldl (fun table e ↦ table.insert e.1 ⟨e.2, 0⟩) .empty

namespace MACRelayUnitBase

/-- The module after its initialization. -/
def initialized (numPorts : ℕ) (addressTableSize : ℤ) (agingTime : ℚ)
    (entries : List (MACAddress × ℤ)) : MACRelayUnitBase where
  numPorts
  addressTableSize := if 0 ≤ addressTableSize then addressTableSize.toNat else 0
  agingTime := if 0 < agingTime then agingTime else 10
  addresstable := readAddressTable entries

variable (s : MACRelayUnitBase)

variable (simTime : ℚ)

/-- The entry is too old to be used. -/
def isAged (entry : AddressEntry) : Bool :=
  entry.insertionTime + s.agingTime ≤ simTime

def removeAgedEntriesFromTable : MACRelayUnitBase :=
  { s with addresstable := s.addresstable.filter fun e ↦ !s.isAged simTime e.2 }

/-- One round of the search for the oldest entry. -/
def older (oldest : Option MACAddress × ℚ) (e : MACAddress × AddressEntry) :
    Option MACAddress × ℚ :=
  if e.2.insertionTime < oldest.2 then (some e.1, e.2.insertionTime) else oldest

/-- The address with the oldest entry. -/
def oldest : Option MACAddress :=
  (s.addresstable.entries.foldl older (none, simTime + 1)).1

def removeOldestTableEntry : MACRelayUnitBase :=
  match s.oldest simTime with
  | some address => { s with addresstable := s.addresstable.erase address }
  | none => s

def isFull : Bool :=
  s.addressTableSize != 0 && s.addresstable.size == s.addressTableSize

/-- Observe the finite table size. -/
def makeRoom : MACRelayUnitBase :=
  if s.isFull then
    if (s.removeAgedEntriesFromTable simTime).isFull then
      (s.removeAgedEntriesFromTable simTime).removeOldestTableEntry simTime
    else s.removeAgedEntriesFromTable simTime
  else s

def updateTableWithAddress (address : MACAddress) (portno : ℤ) : MACRelayUnitBase :=
  match s.addresstable.find? address with
  | none =>
    let s := s.makeRoom simTime
    { s with addresstable := s.addresstable.insert address ⟨portno, simTime⟩ }
  | some _ => { s with addresstable := s.addresstable.insert address ⟨portno, simTime⟩ }

def getPortForAddress (address : MACAddress) :
    ℤ × MACRelayUnitBase :=
  match s.addresstable.find? address with
  | none => (-1, s)
  | some entry =>
    if s.isAged simTime entry then (-1, { s with addresstable := s.addresstable.erase address })
    else (entry.portno, s)

/-! ## Frames -/

/-- The ports on which the frame goes out, in this order. -/
def broadcastFrame (inputport : ℕ) : List ℕ :=
  (List.range s.numPorts).filter fun i ↦ i != inputport

/-- The ports on which the frame is sent, and the new state. -/
def handleAndDispatchFrame (frame : EtherFrame)
    (inputport : ℕ) : Except Fault (List ℕ × MACRelayUnitBase) :=
  let s := s.updateTableWithAddress simTime frame.src inputport
  if frame.dest.isBroadcast then .ok (s.broadcastFrame inputport, s)
  else
    let (outputport, s) := s.getPortForAddress simTime frame.dest
    if (inputport : ℤ) = outputport then .ok ([], s)
    else if 0 ≤ outputport then
      if outputport < s.numPorts then .ok ([outputport.toNat], s) else .error .noSuchGate
    else .ok (s.broadcastFrame inputport, s)

end MACRelayUnitBase

end InetManet.Ethernet
