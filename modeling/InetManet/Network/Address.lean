import Mathlib.Data.BitVec
import Mathlib.Order.Basic

/-!
# Addresses

`IPvXAddress` holds an IPv4 or an IPv6 address. The unspecified address of both kinds is the IPv4
one, and asking for the address of the other kind throws.
-/

namespace InetManet

abbrev IPAddress := BitVec 32
abbrev IPv6Address := BitVec 128

/-- Maps are ordered by the addresses as numbers. -/
instance : LinearOrder IPAddress := LinearOrder.lift' BitVec.toNat fun _ _ ↦ BitVec.eq_of_toNat_eq

/-- 224.0.0.0 to 239.255.255.255. -/
def IPAddress.isMulticast (a : IPAddress) : Bool := a &&& 0xF0000000#32 == 0xE0000000#32

def IPAddress.getBroadcastAddress (a netmask : IPAddress) : IPAddress := a ||| ~~~netmask

/-- ff00::/8. -/
def IPv6Address.isMulticast (a : IPv6Address) : Bool := a.extractLsb' 120 8 == 0xFF#8

inductive IPvXAddress
  | v4 (a : IPAddress)
  | v6 (a : IPv6Address) (h : a ≠ 0)
  deriving DecidableEq

namespace IPvXAddress

instance : Inhabited IPvXAddress := ⟨v4 0⟩

/-- Nulls are always represented as the IPv4 null. -/
def ofIPv6 (a : IPv6Address) : IPvXAddress := if h : a = 0 then v4 0 else v6 a h

def isIPv6 : IPvXAddress → Bool
  | v4 _ => false
  | v6 _ _ => true

def isUnspecified : IPvXAddress → Bool
  | v4 a => a == 0
  | v6 _ _ => false

/-- Throws if this is an IPv6 address. -/
def get4 : IPvXAddress → Option IPAddress
  | v4 a => some a
  | v6 _ _ => none

/-- Throws if this is an IPv4 address other than the null. -/
def get6 : IPvXAddress → Option IPv6Address
  | v4 a => if a = 0 then some 0 else none
  | v6 a _ => some a

theorem isUnspecified_iff {x : IPvXAddress} : x.isUnspecified = true ↔ x = v4 0 := by
  cases x with
  | v4 b => simp [isUnspecified]
  | v6 b h => simp [isUnspecified]

end IPvXAddress

end InetManet
