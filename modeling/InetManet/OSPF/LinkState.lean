import InetManet.Network.Address

/-!
# Link state advertisements

The header tells which LSA it is and how recent the instance is. Link state IDs and addresses have 32
bits, as where `unsigned long` has 32. Where it has 64, an ID that is made from an address of 128.0.0.0
or above is sign extended, and no other address is equal to it; only the modules on summaries and on
the conversions of addresses follow this.
-/

namespace InetManet.OSPF

def maxAge : ℕ := 3600

def maxAgeDiff : ℕ := 900

def lsRefreshTime : ℕ := 1800

def lsInfinity : ℕ := 16777215

def initialSequenceNumber : ℤ := -2147483647

def maxSequenceNumber : ℤ := 2147483647

def minLSArrival : ℕ := 1

inductive LSAType
  | routerLSA
  | networkLSA
  | summaryNetworks
  | summaryASBoundaryRouters
  | asExternalLSA
  deriving DecidableEq

/-- The LS type is not part of the key. -/
structure LSAKey where
  linkStateID : IPAddress
  advertisingRouter : IPAddress
  deriving DecidableEq

structure LSAHeader where
  lsAge : ℕ
  lsType : LSAType
  linkStateID : IPAddress
  advertisingRouter : IPAddress
  lsSequenceNumber : ℤ
  lsChecksum : ℕ
  deriving DecidableEq

namespace LSAHeader

def key (h : LSAHeader) : LSAKey := ⟨h.linkStateID, h.advertisingRouter⟩

variable (left right : LSAHeader)

/-- The operator `<`: the first instance is older than the second. -/
def isOlder : Bool :=
  decide (left.lsSequenceNumber < right.lsSequenceNumber) ||
    left.lsSequenceNumber == right.lsSequenceNumber &&
      (decide (left.lsChecksum < right.lsChecksum) ||
        left.lsChecksum == right.lsChecksum &&
          (left.lsAge != maxAge && right.lsAge == maxAge ||
            decide (maxAgeDiff < Int.natAbs (left.lsAge - right.lsAge)) &&
              decide (right.lsAge < left.lsAge)))

/-- The operator `==`: the same instance, as far as the header tells. -/
def sameInstance : Bool :=
  left.lsSequenceNumber == right.lsSequenceNumber && left.lsChecksum == right.lsChecksum &&
    (left.lsAge == maxAge && right.lsAge == maxAge ||
      left.lsAge != maxAge && right.lsAge != maxAge &&
        decide (Int.natAbs (left.lsAge - right.lsAge) ≤ maxAgeDiff))

def sameKey : Bool := left.key == right.key

/-- The same LSA: type, ID and advertising router agree. -/
def sameLSA : Bool := left.lsType == right.lsType && left.sameKey right

end LSAHeader

structure LSA (β : Type) where
  header : LSAHeader
  contents : β

namespace LSA

variable {β : Type}

def atMaxAge (lsa : LSA β) : LSA β := { lsa with header := { lsa.header with lsAge := maxAge } }

def withSequenceNumber (lsa : LSA β) (lsSequenceNumber : ℤ) : LSA β :=
  { lsa with header := { lsa.header with lsSequenceNumber, lsChecksum := 0 } }

end LSA

end InetManet.OSPF
