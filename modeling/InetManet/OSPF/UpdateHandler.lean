import InetManet.Library.TransitionSystem
import InetManet.OSPF.LinkState

/-!
# Link state updates

An LSA that is newer than the database is flooded: every neighbor that takes part in the exchange gets
it on its retransmission list, except the sender and those that are known to have it. It leaves the
list when it is acknowledged. Each neighbor also carries `outstanding`, the list as it should be: LSAs
are told apart by their type too, an LSA is dropped when it is acknowledged or superseded, and only
then. The code never reads it. Which packets are sent is left out.
-/

namespace InetManet.OSPF

open TransitionSystem

inductive NeighborState
  | down
  | attempt
  | init
  | twoWay
  | exchangeStart
  | exchange
  | loading
  | full
  deriving DecidableEq

def NeighborState.isExchanging : NeighborState → Bool
  | exchange | loading | full => true
  | _ => false

/-- A neighbor, with what is needed of its interface. -/
structure Neighbor (β : Type) where
  areaID : IPAddress
  isVirtual : Bool
  externalRoutingCapability : Bool
  /-- This router is the designated router on the interface. -/
  isDesignatedRouter : Bool
  interfaceAddress : IPAddress
  state : NeighborState
  requestList : List LSAHeader
  retransmissionList : List (LSA β)
  outstanding : List (LSA β)

/-- Where an LSA is stored. Router and network LSAs are found by their ID only. -/
inductive DatabaseKey
  | router (areaID linkStateID : IPAddress)
  | network (areaID linkStateID : IPAddress)
  | summary (areaID : IPAddress) (key : LSAKey)
  | asExternal (key : LSAKey)
  deriving DecidableEq

def databaseKey (areaID : IPAddress) (h : LSAHeader) : DatabaseKey :=
  match h.lsType with
  | .routerLSA => .router areaID h.linkStateID
  | .networkLSA => .network areaID h.linkStateID
  | .summaryNetworks | .summaryASBoundaryRouters => .summary areaID h.key
  | .asExternalLSA => .asExternal h.key

/-- An LSA in the database with its tracking information. -/
structure Stored (β : Type) where
  lsa : LSA β
  isFlooded : Bool
  installTime : ℕ

structure State (β : Type) where
  neighbors : List (Neighbor β)
  database : DatabaseKey → Option (Stored β)

inductive FloodFault
  /-- There is no such neighbor. -/
  | noNeighbor
  /-- Floods keep causing each other. -/
  | endless
  deriving DecidableEq

/-- What the router knows otherwise: its ID, what it would put into its own LSAs, its addresses, and
whether an AS external LSA is functionally equivalent to its own one. -/
structure Env (β : Type) where
  routerID : IPAddress
  routerContents : IPAddress → List (Neighbor β) → β
  networkContents : ℕ → List (Neighbor β) → β
  isLocalAddress : IPAddress → Bool
  isEquivalent : LSA β → LSA β → Bool

section Lists

variable {β : Type}

/-- Replaces the first LSA that is the same, or appends. -/
def addBy (same : LSAHeader → LSAHeader → Bool) (lsa : LSA β) : List (LSA β) → List (LSA β)
  | [] => [lsa]
  | x :: xs => if same x.header lsa.header then lsa :: xs else x :: addBy same lsa xs

namespace Neighbor

variable (n : Neighbor β)

def addToRetransmissionList (lsa : LSA β) : Neighbor β :=
  { n with
    retransmissionList := addBy LSAHeader.sameKey lsa n.retransmissionList
    outstanding := addBy LSAHeader.sameLSA lsa n.outstanding }

def removeKey (key : LSAKey) (list : List (LSA β)) : List (LSA β) :=
  list.filter fun x ↦ x.header.key != key

/-- The list when a newer instance has been accepted. -/
def removeSuperseded (lsa : LSA β) : Neighbor β :=
  { n with
    retransmissionList := removeKey lsa.header.key n.retransmissionList
    outstanding := n.outstanding.filter fun x ↦
      !(x.header.sameLSA lsa.header && x.header.isOlder lsa.header) }

/-- The LSA has come back from the neighbor. -/
def impliedAcknowledgement (lsa : LSA β) : Neighbor β :=
  { n with
    retransmissionList := removeKey lsa.header.key n.retransmissionList
    outstanding := n.outstanding.filter fun x ↦
      !(x.header.sameLSA lsa.header && !lsa.header.isOlder x.header) }

/-- One header of an acknowledgement. -/
def acknowledge (h : LSAHeader) : Neighbor β :=
  { n with
    retransmissionList :=
      match n.retransmissionList.find? fun x ↦ x.header.key == h.key with
      | none => n.retransmissionList
      | some x => if h.sameInstance x.header then removeKey h.key n.retransmissionList
          else n.retransmissionList
    outstanding := n.outstanding.filter fun x ↦
      !(x.header.sameLSA h && h.sameInstance x.header) }

def reset : Neighbor β :=
  { n with requestList := [], retransmissionList := [], outstanding := [] }

/-- The interface floods LSAs of this type. -/
def takesPart (areaID : IPAddress) (lsType : LSAType) : Bool :=
  if lsType = .asExternalLSA then n.externalRoutingCapability && !n.isVirtual
  else n.areaID == areaID && (areaID == 0 || !n.isVirtual)

end Neighbor

end Lists

namespace State

variable {β : Type}

def setNeighbor (s : State β) (i : ℕ) (n : Neighbor β) : State β :=
  { s with neighbors := s.neighbors.set i n }

/-- The LSA is copied into the database, which makes it a flooded one. -/
def setDatabase (s : State β) (k : DatabaseKey) (lsa : LSA β) : State β :=
  { s with database := Function.update s.database k (some ⟨lsa, true, 0⟩) }

/-- The age or the sequence number of a stored LSA changes. -/
def modifyHeader (s : State β) (k : DatabaseKey) (e : Stored β) (h : LSAHeader) : State β :=
  { s with database := Function.update s.database k (some { e with lsa := { e.lsa with header := h } }) }

/-- An own LSA is flooded again after a change: a new instance, or the last one at MaxAge. -/
def reoriginate (flood : LSA β → State β → Except FloodFault (State β)) (k : DatabaseKey)
    (fresh : Option (LSA β)) (s : State β) : Except FloodFault (State β) :=
  match s.database k with
  | none => .ok s
  | some e =>
      match (if e.lsa.header.lsSequenceNumber = maxSequenceNumber then none else fresh) with
      | none =>
          let h := { e.lsa.header with lsAge := maxAge }
          flood ⟨h, e.lsa.contents⟩ (s.modifyHeader k e h)
      | some fresh =>
          let lsa : LSA β := { fresh with
            header := { fresh.header with lsSequenceNumber := e.lsa.header.lsSequenceNumber + 1 } }
          flood lsa (s.setDatabase k lsa)

def originateRouterLSA (env : Env β) (areaID : IPAddress) (s : State β) : LSA β :=
  ⟨⟨0, .routerLSA, env.routerID, env.routerID, initialSequenceNumber, 0⟩,
    env.routerContents areaID s.neighbors⟩

/-- There is a network LSA only if a neighbor on the interface is fully adjacent. -/
def originateNetworkLSA (env : Env β) (i : ℕ) (n : Neighbor β) (s : State β) : Option (LSA β) :=
  if s.neighbors.any fun m ↦ m.areaID == n.areaID && m.interfaceAddress == n.interfaceAddress &&
      m.state == .full then
    some ⟨⟨0, .networkLSA, n.interfaceAddress, env.routerID, initialSequenceNumber, 0⟩,
      env.networkContents i s.neighbors⟩
  else none

/-- The neighbor has become fully adjacent or is so no longer, which changes the router LSA and, where
this router is the designated one, the network LSA. -/
def reoriginateAll (env : Env β)
    (flood : IPAddress → LSA β → State β → Except FloodFault (State β)) (i : ℕ) (n : Neighbor β)
    (s : State β) : Except FloodFault (State β) := do
  let s ← reoriginate (flood n.areaID) (.router n.areaID env.routerID)
    (some (originateRouterLSA env n.areaID s)) s
  if n.isDesignatedRouter then
    reoriginate (flood n.areaID) (.network n.areaID n.interfaceAddress)
      (originateNetworkLSA env i n s) s
  else return s

/-- All requests for the key go; when a neighbor in Loading has none left, loading is done. -/
def removeFromRequestList (env : Env β) (flood : IPAddress → LSA β → State β → Except FloodFault (State β))
    (i : ℕ) (n : Neighbor β) (key : LSAKey) (s : State β) : Except FloodFault (State β) :=
  let n := { n with requestList := n.requestList.filter fun h ↦ h.key != key }
  let s := s.setNeighbor i n
  if n.state = .loading ∧ n.requestList = [] then
    reoriginateAll env flood i n (s.setNeighbor i { n with state := .full })
  else .ok s

/-- The last step (1) (c) and (d) for a neighbor. -/
def assign (lsa : LSA β) (sender : Option ℕ) (i : ℕ) (s : State β) : Except FloodFault (State β) :=
  match s.neighbors[i]? with
  | none => .error .noNeighbor
  | some n =>
      if sender = some i then .ok s else .ok (s.setNeighbor i (n.addToRetransmissionList lsa))

/-- The body of the loop of `FloodLSA` over the neighbors. -/
def floodNeighbor (env : Env β) (flood : IPAddress → LSA β → State β → Except FloodFault (State β))
    (areaID : IPAddress) (lsa : LSA β) (sender : Option ℕ) (s : State β) (i : ℕ) :
    Except FloodFault (State β) :=
  match s.neighbors[i]? with
  | none => .error .noNeighbor
  | some n =>
      if !n.takesPart areaID lsa.header.lsType || !n.state.isExchanging then .ok s
      else if n.state = .full then assign lsa sender i s
      else
        match n.requestList.find? fun h ↦ h.key == lsa.header.key with
        | none => assign lsa sender i s
        | some requested =>
            if lsa.header.isOlder requested then .ok s
            else if lsa.header.sameInstance requested then
              removeFromRequestList env flood i n lsa.header.key s
            else
              removeFromRequestList env flood i n lsa.header.key s >>= assign lsa sender i

/-- Floods nest when a neighbor becomes fully adjacent on the way. -/
def floodLSA (env : Env β) : ℕ → IPAddress → Option ℕ → LSA β → State β →
    Except FloodFault (State β)
  | 0, _, _, _, _ => .error .endless
  | fuel + 1, areaID, sender, lsa, s =>
      (List.range s.neighbors.length).foldlM
        (floodNeighbor env (fun areaID ↦ floodLSA env fuel areaID none) areaID lsa sender) s

/-- As many floods can nest as neighbors become fully adjacent. -/
def flood (s : State β) (env : Env β) (areaID : IPAddress) (sender : Option ℕ) (lsa : LSA β) :
    Except FloodFault (State β) :=
  floodLSA env (s.neighbors.length + 1) areaID sender lsa s

/-! ## Link State Update packets -/

/-- The LSA goes from the lists of the area, or of all areas. -/
def removeFromAllRetransmissionLists (areaID : Option IPAddress) (lsa : LSA β) (s : State β) :
    State β :=
  { s with neighbors := s.neighbors.map fun n ↦
      if areaID = none ∨ areaID = some n.areaID then n.removeSuperseded lsa else n }

/-- The LSA is stored; an older instance goes from the lists. -/
def store (areaID : Option IPAddress) (k : DatabaseKey) (lsa : LSA β) (s : State β) : State β :=
  match s.database k with
  | none => s.setDatabase k lsa
  | some _ => (s.removeFromAllRetransmissionLists areaID lsa).setDatabase k lsa

variable (env : Env β)

/-- Of two equivalent AS external LSAs, that of the router with the higher ID is kept. -/
def installASExternalLSA (lsa : LSA β) (s : State β) :
    Except FloodFault (State β) :=
  let own := DatabaseKey.asExternal ⟨lsa.header.linkStateID, env.routerID⟩
  match s.database own with
  | none => .ok (s.store none (.asExternal lsa.header.key) lsa)
  | some e =>
      if !env.isEquivalent e.lsa lsa then .ok (s.store none (.asExternal lsa.header.key) lsa)
      else if lsa.header.advertisingRouter < env.routerID then .ok s
      else do
        let h := { e.lsa.header with lsAge := maxAge }
        let s ← (s.modifyHeader own e h).flood env 0 none ⟨h, e.lsa.contents⟩
        return s.store none (.asExternal lsa.header.key) lsa

def installLSA (areaID : IPAddress) (lsa : LSA β) (s : State β) :
    Except FloodFault (State β) :=
  if lsa.header.lsType = .asExternalLSA then s.installASExternalLSA env lsa
  else .ok (s.store (some areaID) (databaseKey areaID lsa.header) lsa)

/-- A received LSA that this router seems to have originated is flushed or outdone. -/
def outdo (areaID : IPAddress) (lsa : LSA β) (wasAbsent : Bool) (s : State β) :
    Except FloodFault (State β) :=
  if lsa.header.advertisingRouter == env.routerID ||
      lsa.header.lsType == .networkLSA && env.isLocalAddress lsa.header.linkStateID then
    if wasAbsent then s.flood env areaID none { lsa with header := { lsa.header with lsAge := maxAge } }
    else
      match s.database (databaseKey areaID lsa.header) with
      | none => .ok s
      | some e =>
          let h := if lsa.header.lsSequenceNumber = maxSequenceNumber then
              { e.lsa.header with lsAge := maxAge }
            else { e.lsa.header with lsSequenceNumber := lsa.header.lsSequenceNumber + 1 }
          (s.modifyHeader (databaseKey areaID lsa.header) e h).flood env areaID none
            ⟨h, e.lsa.contents⟩
  else .ok s

/-- The old instance goes from all lists once the new one has been flooded. -/
def supersede (lsa : LSA β) (wasAbsent : Bool) (s : State β) : State β :=
  if wasAbsent then s else s.removeFromAllRetransmissionLists none lsa

/-- The LSA is newer than the database. -/
def accept (areaID : IPAddress) (sender : ℕ) (lsa : LSA β) (wasAbsent : Bool)
    (s : State β) : Except FloodFault (State β) := do
  let s ← s.flood env areaID (some sender) lsa
  let s ← (s.supersede lsa wasAbsent).installLSA env areaID lsa
  s.outdo env areaID lsa wasAbsent

/-- A neighbor goes back to ExchangeStart. -/
def badLinkStateRequest (i : ℕ) (n : Neighbor β) (s : State β) :
    Except FloodFault (State β) :=
  let s := s.setNeighbor i { n.reset with state := .exchangeStart }
  if n.state = .full then
    reoriginateAll env (fun areaID lsa s ↦ s.flood env areaID none lsa) i n s
  else .ok s

/-- One LSA of a packet; the flag tells to leave the rest of its type. -/
def processLSA (areaID : IPAddress) (externalRoutingCapability : Bool) (sender : ℕ)
    (lsa : LSA β) (s : State β) : Except FloodFault (Bool × State β) :=
  if lsa.header.lsType == .asExternalLSA && !externalRoutingCapability then .ok (false, s)
  else
    match s.database (databaseKey areaID lsa.header) with
    | none =>
        -- acknowledged at once when nobody needs it any more
        if lsa.header.lsAge = maxAge ∧ ∀ n ∈ s.neighbors, n.state ≠ .exchange ∧ n.state ≠ .loading then
          .ok (false, s)
        else (s.accept env areaID sender lsa true).map (false, ·)
    | some e =>
        if e.lsa.header.isOlder lsa.header then
          if e.isFlooded && decide (e.installTime < minLSArrival) then .ok (false, s)
          else (s.accept env areaID sender lsa false).map (false, ·)
        else
          match s.neighbors[sender]? with
          | none => .error .noNeighbor
          | some n =>
              if n.requestList.any fun h ↦ h.key == lsa.header.key then
                (s.badLinkStateRequest env sender n).map (true, ·)
              else if e.lsa.header.sameInstance lsa.header then
                .ok (false, s.setNeighbor sender (n.impliedAcknowledgement lsa))
              else .ok (false, s)

/-- The LSAs of one type. -/
def processLSAs (env : Env β) (areaID : IPAddress) (externalRoutingCapability : Bool) (sender : ℕ) :
    List (LSA β) → State β → Except FloodFault (State β)
  | [], s => .ok s
  | lsa :: lsas, s => do
      let x ← s.processLSA env areaID externalRoutingCapability sender lsa
      if x.1 then return x.2 else processLSAs env areaID externalRoutingCapability sender lsas x.2

/-! ## Runs -/

inductive Event (β : Type)
  /-- A packet from a neighbor, with its LSAs of the four kinds in this order. -/
  | update (sender : ℕ) (lsas : Fin 4 → List (LSA β))
  | acknowledgement (sender : ℕ) (headers : List LSAHeader)
  /-- An own LSA is installed in the area and flooded. -/
  | originate (areaID : IPAddress) (lsa : LSA β)
  /-- A stored LSA changes in place and is flooded. -/
  | refresh (areaID : IPAddress) (k : DatabaseKey) (lsa : LSA β)
  | age (database : DatabaseKey → Option (Stored β))
  | reset (i : ℕ) (state : NeighborState)
  /-- A neighbor goes on with the exchange, with these requests. -/
  | advance (i : ℕ) (state : NeighborState) (requestList : List LSAHeader)
  /-- The designated router is elected again. -/
  | elect (i : ℕ) (isDesignatedRouter : Bool)

/-- The packet is processed in states from Exchange on. -/
def processUpdate (sender : ℕ) (lsas : Fin 4 → List (LSA β)) (s : State β) :
    Except FloodFault (State β) :=
  match s.neighbors[sender]? with
  | none => .error .noNeighbor
  | some n =>
      if n.state.isExchanging then
        (List.finRange 4).foldlM (fun s t ↦
          s.processLSAs env n.areaID n.externalRoutingCapability sender (lsas t)) s
      else .ok s

def processAcknowledgement (sender : ℕ) (headers : List LSAHeader) (s : State β) :
    Except FloodFault (State β) :=
  match s.neighbors[sender]? with
  | none => .error .noNeighbor
  | some n =>
      if n.state.isExchanging then .ok (s.setNeighbor sender (headers.foldl Neighbor.acknowledge n))
      else .ok s

def step (s : State β) : Event β → Except FloodFault (State β)
  | .update sender lsas => s.processUpdate env sender lsas
  | .acknowledgement sender headers => s.processAcknowledgement sender headers
  | .originate areaID lsa =>
      (s.store (some areaID) (databaseKey areaID lsa.header) lsa).flood env areaID none lsa
  | .refresh areaID k lsa => (s.setDatabase k lsa).flood env areaID none lsa
  | .age database => .ok { s with database }
  | .reset i state =>
      match s.neighbors[i]? with
      | none => .error .noNeighbor
      | some n => .ok (s.setNeighbor i { n.reset with state })
  | .advance i state requestList =>
      match s.neighbors[i]? with
      | none => .error .noNeighbor
      | some n => .ok (s.setNeighbor i { n with state, requestList })
  | .elect i isDesignatedRouter =>
      match s.neighbors[i]? with
      | none => .error .noNeighbor
      | some n => .ok (s.setNeighbor i { n with isDesignatedRouter })

end State

end InetManet.OSPF
