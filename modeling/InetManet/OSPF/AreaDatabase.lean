import InetManet.Library.TransitionSystem
import InetManet.OSPF.LinkState

/-!
# The link state database of an area

The LSAs of each kind are objects that a vector and a map point to. They are aged once a second, in the
order of the vector; those that are removed leave NULL entries, which are erased at the end. What the
rest of the router says about an LSA when its turn comes is given as a `Turn`.
-/

namespace InetManet.OSPF

inductive AreaFault
  | freedLSA
  | nullLSA
  deriving DecidableEq

/-- A vector of LSAs with the map to find them. -/
structure LSAStore (κ β : Type) where
  /-- The LSAs that have not been freed. -/
  heap : ℕ → Option (LSA β)
  /-- The next new LSA. -/
  fresh : ℕ
  vector : List (Option ℕ)
  byID : κ → Option ℕ

/-- What happens to an LSA: it stays with new contents, it is removed, or it is freed only. -/
inductive Action (β : Type)
  | keep (lsa : LSA β)
  | remove
  | free

structure Turn (β : Type) where
  unreachable : Bool
  /-- This router is the designated one on the interface with the address of the network LSA. -/
  isDesignatedRouter : Bool
  hasFullNeighbor : Bool
  isOnAnyRetransmissionList : Bool
  /-- A neighbor of the area is in Exchange or Loading. -/
  hasAnyNeighborInStates : Bool
  /-- What this router would put into the LSA. -/
  contents : β
  /-- The summary LSA that would be originated again. -/
  summaryLSA : Option (LSA β)

namespace LSAStore

variable {κ β : Type} [DecidableEq κ]

variable (key : LSAHeader → κ)

/-- An LSA with the key is updated, or a copy is added. -/
def install (lsa : LSA β) (s : LSAStore κ β) :
    Except AreaFault (LSAStore κ β) :=
  match s.byID (key lsa.header) with
  | some p =>
      match s.heap p with
      | none => .error .freedLSA
      | some _ => .ok { s with heap := Function.update s.heap p (some lsa) }
  | none => .ok
      { heap := Function.update s.heap s.fresh (some lsa)
        fresh := s.fresh + 1
        vector := s.vector ++ [some s.fresh]
        byID := Function.update s.byID (key lsa.header) (some s.fresh) }

/-- An LSA in its turn, with the entry that is left in the vector. -/
def ageEntry (action : LSA β → Action β) (s : LSAStore κ β) :
    Option ℕ → Except AreaFault (Option ℕ × LSAStore κ β)
  | none => .error .nullLSA
  | some p =>
      match s.heap p with
      | none => .error .freedLSA
      | some lsa =>
          match action lsa with
          | .keep new => .ok (some p, { s with heap := Function.update s.heap p (some new) })
          | .remove => .ok (none, { s with
              heap := Function.update s.heap p none
              byID := Function.update s.byID (key lsa.header) none })
          | .free => .ok (some p, { s with heap := Function.update s.heap p none })

def ageEntries (key : LSAHeader → κ) (action : ℕ → LSA β → Action β) :
    ℕ → List (Option ℕ) → LSAStore κ β → Except AreaFault (List (Option ℕ) × LSAStore κ β)
  | _, [], s => .ok ([], s)
  | i, entry :: entries, s => do
      let x ← s.ageEntry key (action i) entry
      let y ← ageEntries key action (i + 1) entries x.2
      return (x.1 :: y.1, y.2)

/-- The loop over the vector, and the one that erases the NULL entries. -/
def age (action : ℕ → LSA β → Action β) (s : LSAStore κ β) :
    Except AreaFault (LSAStore κ β) := do
  let x ← ageEntries key action 0 s.vector s
  return { x.2 with vector := x.1.filter Option.isSome }

end LSAStore

section Aging

variable {β : Type}

/-- The body of the loops. `newLSA` is what this router originates in place of its own LSA, and
`withoutNew` what happens at MaxAge if there is nothing to originate. -/
def ageLSA (selfOriginated : Bool) (newLSA : Option (LSA β)) (withoutNew : Action β) (t : Turn β)
    (lsa : LSA β) : Action β :=
  let lsAge := lsa.header.lsAge
  let sequenceNumber := lsa.header.lsSequenceNumber
  if selfOriginated ∧ lsAge < lsRefreshTime - 1 ∨ !selfOriginated ∧ lsAge < maxAge - 1 then
    .keep { lsa with header := { lsa.header with lsAge := lsAge + 1 } }
  else if selfOriginated ∧ lsAge = lsRefreshTime - 1 then
    if t.unreachable ∨ sequenceNumber = maxSequenceNumber then .keep lsa.atMaxAge
    else
      match newLSA with
      | none => .keep lsa.atMaxAge
      | some new => .keep (new.withSequenceNumber (sequenceNumber + 1))
  else if !selfOriginated ∧ lsAge = maxAge - 1 then .keep lsa.atMaxAge
  else if lsAge = maxAge ∧ !t.isOnAnyRetransmissionList ∧ !t.hasAnyNeighborInStates then
    if !selfOriginated ∨ t.unreachable then .remove
    else
      match newLSA with
      | none => withoutNew
      | some new => .keep (new.withSequenceNumber
          (if sequenceNumber = maxSequenceNumber then initialSequenceNumber else sequenceNumber + 1))
  else .keep lsa

variable (routerID : IPAddress)

def isSelfOriginated (lsa : LSA β) : Bool :=
  lsa.header.advertisingRouter == routerID

def ageRouterLSA (t : Turn β) (lsa : LSA β) : Action β :=
  ageLSA (isSelfOriginated routerID lsa)
    (some ⟨⟨0, .routerLSA, routerID, routerID, initialSequenceNumber, 0⟩, t.contents⟩) .remove t lsa

def isOwnNetwork (t : Turn β) : Bool := t.isDesignatedRouter && t.hasFullNeighbor

/-- Without a new LSA the old one is deleted, but not taken out of the containers. -/
def ageNetworkLSA (t : Turn β) (lsa : LSA β) : Action β :=
  ageLSA (isOwnNetwork t)
    (if t.hasFullNeighbor then
      some ⟨⟨0, .networkLSA, lsa.header.linkStateID, routerID, initialSequenceNumber, 0⟩, t.contents⟩
    else none) .free t lsa

def ageSummaryLSA (t : Turn β) (lsa : LSA β) : Action β :=
  ageLSA (isSelfOriginated routerID lsa) t.summaryLSA .remove t lsa

end Aging

structure Area (β : Type) where
  routers : LSAStore IPAddress β
  networks : LSAStore IPAddress β
  summaries : LSAStore LSAKey β

namespace Area

variable {β : Type}

inductive Call (β : Type)
  | installRouterLSA (lsa : LSA β)
  | installNetworkLSA (lsa : LSA β)
  | installSummaryLSA (lsa : LSA β)
  /-- The turns of the router, network and summary LSAs. -/
  | ageDatabase (router network summary : ℕ → Turn β)

/-- The LSAs of one kind after the others. -/
def ageDatabase (routerID : IPAddress) (router network summary : ℕ → Turn β) (a : Area β) :
    Except AreaFault (Area β) := do
  let routers ← a.routers.age LSAHeader.linkStateID fun i ↦ ageRouterLSA routerID (router i)
  let networks ← a.networks.age LSAHeader.linkStateID fun i ↦ ageNetworkLSA routerID (network i)
  let summaries ← a.summaries.age LSAHeader.key fun i ↦ ageSummaryLSA routerID (summary i)
  return ⟨routers, networks, summaries⟩

def step (routerID : IPAddress) (a : Area β) : Call β → Except AreaFault (Area β)
  | .installRouterLSA lsa => do
      let routers ← a.routers.install LSAHeader.linkStateID lsa
      return { a with routers }
  | .installNetworkLSA lsa => do
      let networks ← a.networks.install LSAHeader.linkStateID lsa
      return { a with networks }
  | .installSummaryLSA lsa => do
      let summaries ← a.summaries.install LSAHeader.key lsa
      return { a with summaries }
  | .ageDatabase router network summary => a.ageDatabase routerID router network summary

end Area

end InetManet.OSPF
