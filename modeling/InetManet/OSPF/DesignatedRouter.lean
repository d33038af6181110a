import InetManet.Library.Best
import InetManet.OSPF.UpdateHandler
import Mathlib.Data.Prod.Lex

/-!
# The election of the designated router

Every router on a network elects the designated router and its backup from what its neighbors declare
and from its own current choice. The election is repeated once if the router itself gains or loses one
of the two roles. The router itself is added after the neighbors, by code of its own.
-/

namespace InetManet.OSPF

/-- Router IDs are only compared. -/
abbrev RouterID := ℕ

structure DesignatedRouterID where
  routerID : RouterID
  ipInterfaceAddress : IPAddress
  deriving DecidableEq

def nullDesignatedRouterID : DesignatedRouterID := ⟨0, 0⟩

def NeighborState.isTwoWay : NeighborState → Bool
  | .down => false
  | .attempt => false
  | .init => false
  | _ => true

inductive InterfaceState
  | down
  | loopback
  | waiting
  | pointToPoint
  | notDesignatedRouter
  | backup
  | designatedRouter
  deriving DecidableEq

namespace Election

/-- A neighbor, with what it declares in its hello packets. -/
structure Neighbor where
  neighborID : RouterID
  address : IPAddress
  priority : ℕ
  state : NeighborState
  designatedRouter : DesignatedRouterID
  backupDesignatedRouter : DesignatedRouterID

structure Interface where
  routerID : RouterID
  address : IPAddress
  routerPriority : ℕ
  state : InterfaceState
  designatedRouter : DesignatedRouterID
  backupDesignatedRouter : DesignatedRouterID
  neighboringRouters : List Neighbor

/-- The router that a search has found so far, with its priority and ID. -/
structure Candidate where
  router : DesignatedRouterID
  priority : ℕ
  id : RouterID
  deriving DecidableEq

def noCandidate : Candidate := ⟨nullDesignatedRouterID, 0, 0⟩

/-- The designated router and the backup of a round. -/
structure Choice where
  designated : DesignatedRouterID
  backup : DesignatedRouterID
  deriving DecidableEq

def isHigher (priority : ℕ) (id : RouterID) (candidate : Candidate) : Bool :=
  candidate.priority < priority || (priority == candidate.priority && candidate.id < id)

/-! ## The backup -/

structure BackupSearch where
  declared : Candidate
  backupDeclared : Bool
  highest : Candidate

def considerDeclared (s : BackupSearch) (n : Neighbor) : BackupSearch :=
  if n.backupDesignatedRouter.routerID == n.neighborID &&
      isHigher n.priority n.neighborID s.declared then
    { s with
      declared := ⟨n.backupDesignatedRouter, n.priority, n.neighborID⟩
      backupDeclared := true }
  else s

def considerHighest (s : BackupSearch) (n : Neighbor) : BackupSearch :=
  if !s.backupDeclared && isHigher n.priority n.neighborID s.highest then
    { s with highest := ⟨⟨n.neighborID, n.address⟩, n.priority, n.neighborID⟩ }
  else s

def Neighbor.isEligible (n : Neighbor) : Bool := n.state.isTwoWay && n.priority != 0

def Neighbor.declaresDesignated (n : Neighbor) : Bool := n.designatedRouter.routerID == n.neighborID

def Neighbor.declaresBackup (n : Neighbor) : Bool := n.backupDesignatedRouter.routerID == n.neighborID

def considerForBackup (s : BackupSearch) (n : Neighbor) : BackupSearch :=
  if !n.isEligible then s
  else if !n.declaresDesignated then considerHighest (considerDeclared s n) n
  else s

namespace Interface

def self (intf : Interface) : Candidate :=
  ⟨⟨intf.routerID, intf.address⟩, intf.routerPriority, intf.routerID⟩

def includeSelfDeclared (intf : Interface) (current : Choice) (s : BackupSearch) : BackupSearch :=
  if current.backup.routerID == intf.routerID &&
      isHigher intf.routerPriority intf.routerID s.declared then
    { s with declared := intf.self, backupDeclared := true }
  else s

/-- The router itself is compared with the highest neighbor only if it may be the backup. -/
def includeSelf (intf : Interface) (current : Choice) (s : BackupSearch) : Candidate :=
  if 0 < intf.routerPriority && current.designated.routerID != intf.routerID then
    let s := intf.includeSelfDeclared current s
    if !s.backupDeclared then
      if isHigher intf.routerPriority intf.routerID s.highest then intf.self else s.highest
    else s.declared
  else s.declared

def electBackup (intf : Interface) (current : Choice) : Candidate :=
  intf.includeSelf current
    (intf.neighboringRouters.foldl considerForBackup ⟨noCandidate, false, noCandidate⟩)

end Interface

/-! ## The designated router -/

structure DesignatedSearch where
  declared : Candidate
  designatedRouterDeclared : Bool

def considerForDesignated (s : DesignatedSearch) (n : Neighbor) : DesignatedSearch :=
  if !n.isEligible then s
  else if n.declaresDesignated && isHigher n.priority n.neighborID s.declared then
    ⟨⟨n.designatedRouter, n.priority, n.neighborID⟩, true⟩
  else s

namespace Interface

variable (intf : Interface)

def includeSelfInDesignated (current : Choice) (s : DesignatedSearch) :
    DesignatedSearch :=
  if 0 < intf.routerPriority && current.designated.routerID == intf.routerID &&
      isHigher intf.routerPriority intf.routerID s.declared then
    ⟨intf.self, true⟩
  else s

def electDesignated (current : Choice) (backup : Candidate) : Candidate :=
  let s := intf.includeSelfInDesignated current
    (intf.neighboringRouters.foldl considerForDesignated ⟨noCandidate, false⟩)
  if !s.designatedRouterDeclared then backup else s.declared

/-! ## The rounds -/

def electionRound (current : Choice) : Choice :=
  let backup := intf.electBackup current
  ⟨(intf.electDesignated current backup).router, backup.router⟩

/-- The router becomes one of the two or is no longer one of them. -/
def mustRepeat (current declared : Choice) : Bool :=
  (declared.designated.routerID != 0 && (current.designated.routerID == intf.routerID &&
      declared.designated.routerID != intf.routerID) ||
    (current.designated.routerID != intf.routerID && declared.designated.routerID == intf.routerID)) ||
  (declared.backup.routerID != 0 && (current.backup.routerID == intf.routerID &&
      declared.backup.routerID != intf.routerID) ||
    (current.backup.routerID != intf.routerID && declared.backup.routerID == intf.routerID))

/-- The rounds that are held, each with the choice before it and the choice that it makes. -/
def electionRounds (intf : Interface) : ℕ → ℕ → Choice → Option (List (Choice × Choice))
  | 0, _, _ => none
  | fuel + 1, repeatCount, current =>
    let declared := intf.electionRound current
    let again := intf.mustRepeat current declared
    let next := if again then declared else current
    let repeatCount := if again then repeatCount + 1 else repeatCount + 2
    if repeatCount < 2 then ((current, declared) :: ·) <$> intf.electionRounds fuel repeatCount next
    else some [(current, declared)]

def currentChoice : Choice := ⟨intf.designatedRouter, intf.backupDesignatedRouter⟩

/-- The changes of the interface state, in the order of the code. -/
def changeState (declared : Choice) : InterfaceState :=
  let wasBackup := intf.backupDesignatedRouter.routerID == intf.routerID
  let wasDesignated := intf.designatedRouter.routerID == intf.routerID
  let wasOther := intf.state == .notDesignatedRouter
  let wasWaiting := !wasBackup && !wasDesignated && !wasOther
  let isBackup := declared.backup.routerID == intf.routerID
  let isDesignated := declared.designated.routerID == intf.routerID
  let isOther := !isBackup && !isDesignated
  let change (condition : Bool) (next state : InterfaceState) := if condition then next else state
  change (wasWaiting && isOther) .notDesignatedRouter <|
  change (wasWaiting && isBackup) .backup <|
  change (wasWaiting && isDesignated) .designatedRouter <|
  change (wasOther && isBackup) .backup <|
  change (wasOther && isDesignated) .designatedRouter <|
  change (wasDesignated && isOther) .notDesignatedRouter <|
  change (wasDesignated && isBackup) .backup <|
  change (wasBackup && isOther) .notDesignatedRouter <|
  change (wasBackup && isDesignated) .designatedRouter intf.state

def calculateDesignatedRouter : Option Interface := do
  let rounds ← intf.electionRounds 2 0 intf.currentChoice
  let last ← rounds.getLast?
  some { intf with
    designatedRouter := last.2.designated
    backupDesignatedRouter := last.2.backup
    state := intf.changeState last.2 }

end Interface

/-! ## The rule -/

/-- A router that takes part in the election, and the identity under which it is found. -/
structure Participant where
  id : RouterID
  priority : ℕ
  declaresDesignated : Bool
  declaresBackup : Bool

/-- Routers are ranked by their priority, and by their ID where it is the same. -/
def Participant.rank (p : Participant) : ℕ ×ₗ RouterID := toLex (p.priority, p.id)

def Neighbor.participant (n : Neighbor) : Participant :=
  ⟨n.neighborID, n.priority, n.declaresDesignated, n.declaresBackup⟩

namespace Interface

def ownParticipant (intf : Interface) (current : Choice) : Participant :=
  ⟨intf.routerID, intf.routerPriority, current.designated.routerID == intf.routerID,
    current.backup.routerID == intf.routerID⟩

/-- The neighbors that are at least 2-Way, and the router itself, if their priority is not 0. -/
def participants (intf : Interface) (current : Choice) : List Participant :=
  (intf.neighboringRouters.filter (·.isEligible)).map (·.participant) ++
    if 0 < intf.routerPriority then [intf.ownParticipant current] else []

end Interface

/-- The router with this ID is the highest of the list. -/
def IsHighest (l : List Participant) (id : RouterID) : Prop :=
  ∃ p ∈ l, p.id = id ∧ ∀ q ∈ l, q.rank ≤ p.rank

/-- The highest of those that declare themselves backup, or of all that may be backup. -/
def BackupRight (participants : List Participant) (backup : DesignatedRouterID) : Prop :=
  let eligible := participants.filter (!·.declaresDesignated)
  let declaring := eligible.filter (·.declaresBackup)
  let candidates := if declaring = [] then eligible else declaring
  if candidates = [] then backup = nullDesignatedRouterID else IsHighest candidates backup.routerID

/-- The highest of those that declare themselves designated router, or else the backup. -/
def DesignatedRight (participants : List Participant) (choice : Choice) : Prop :=
  let declaring := participants.filter (·.declaresDesignated)
  if declaring = [] then choice.designated = choice.backup
  else IsHighest declaring choice.designated.routerID

end Election

end InetManet.OSPF
