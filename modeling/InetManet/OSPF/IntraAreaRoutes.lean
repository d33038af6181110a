import InetManet.OSPF.NextHops

/-!
# Routes to the networks of an area

Each transit network on the shortest path tree gets an entry when it is added, and when the tree is there,
each stub link of a router on it describes a network, too. An existing entry for the network is looked up
by the masked address, as in the lookup of a destination. The entries of routers, which these searches
skip, are left out, and so are the fields that are the same in all entries.
-/

namespace InetManet.OSPF.Routing

open Dijkstra

/-- What an LSA or a link says of a network: the vertex it belongs to, the masked address, the mask, the
distance and the next hops. -/
structure Description where
  origin : Vertex
  isStub : Bool
  destinationID : IPAddress
  addressMask : IPAddress
  distance : ℕ
  nextHops : List NextHop
  deriving DecidableEq

structure NetworkRoute where
  linkStateOrigin : Vertex
  destinationID : IPAddress
  addressMask : IPAddress
  cost : ℕ
  nextHops : List NextHop
  deriving DecidableEq

inductive RouteFault
  | badCast
  deriving DecidableEq

def linkStateID : Vertex → IPAddress
  | .router id => id
  | .network id => id

/-! ## The searches -/

/-- The loop over the table, with the position of the entry and `longestMatch`. -/
def considerEntry (destinationID : IPAddress) (s : Option ℕ × ℕ) (x : NetworkRoute × ℕ) : Option ℕ × ℕ :=
  if x.1.destinationID &&& x.1.addressMask = destinationID &&& x.1.addressMask then
    if s.2 < (destinationID &&& x.1.addressMask).toNat then
      (some x.2, (destinationID &&& x.1.addressMask).toNat)
    else s
  else s

def findEntry (table : List NetworkRoute) (destinationID : IPAddress) : Option ℕ :=
  (table.zipIdx.foldl (considerEntry destinationID) (none, 0)).1

def newRoute (d : Description) : NetworkRoute :=
  ⟨d.origin, d.destinationID, d.addressMask, d.distance, d.nextHops⟩

/-- A network LSA on the tree. The next hops of an entry that is overwritten stay. -/
def addNetwork (table : List NetworkRoute) (d : Description) : List NetworkRoute :=
  match findEntry table d.destinationID with
  | none => table ++ [newRoute d]
  | some i => table.modify i fun entry ↦
    if entry.cost ≠ d.distance ∨ (linkStateID d.origin).toNat ≤ (linkStateID entry.linkStateOrigin).toNat then
      { newRoute d with nextHops := entry.nextHops ++ d.nextHops }
    else entry

/-- A stub link of a router on the tree. For a tie the origin of the entry must be a router. -/
def addStub (table : List NetworkRoute) (d : Description) : Except RouteFault (List NetworkRoute) :=
  match findEntry table d.destinationID with
  | none => .ok (table ++ [newRoute d])
  | some i =>
    match table[i]? with
    | none => .ok table
    | some entry =>
      if entry.cost < d.distance then .ok table
      else if d.distance < entry.cost then
        .ok (table.set i { entry with
          linkStateOrigin := d.origin, cost := d.distance, nextHops := d.nextHops })
      else
        match entry.linkStateOrigin with
        | .network _ => .error .badCast
        | .router id =>
          .ok (table.set i { entry with
            linkStateOrigin := if id.toNat < (linkStateID d.origin).toNat then d.origin else .router id
            nextHops := entry.nextHops ++ d.nextHops })

/-! ## The descriptions -/

section

variable (conf : HopConfiguration) (db : AreaDatabase) (root : IPAddress) (s : HopSearch)

def describeNetwork (lsa : NetworkLSA) : Description where
  origin := .network lsa.linkStateID
  isStub := false
  destinationID := lsa.linkStateID &&& lsa.networkMask
  addressMask := lsa.networkMask
  distance := s.dist (.network lsa.linkStateID)
  nextHops := s.labels (.network lsa.linkStateID)

def describeStub (lsa : RouterLSA) (link : Link) : Description where
  origin := .router lsa.linkStateID
  isStub := true
  destinationID := link.linkID &&& link.linkData
  addressMask := link.linkData
  distance := s.dist (.router lsa.linkStateID) + link.linkCost
  nextHops := calculateStubNextHops conf root (s.labels (.router lsa.linkStateID)) lsa.linkStateID link

/-- The networks on the tree, in the order in which they were added. -/
def networkDescriptions : List Description :=
  s.tree.filterMap fun v ↦
    match db.lsa v with
    | some (.network lsa) => some (describeNetwork s lsa)
    | _ => none

/-- The stub links of the routers on the tree. -/
def stubDescriptions : List Description :=
  s.tree.flatMap fun v ↦
    match db.lsa v with
    | some (.router lsa) => (lsa.links.filter (·.type == .stubLink)).map (describeStub conf root s lsa)
    | _ => []

def descriptions : List Description := networkDescriptions db s ++ stubDescriptions conf db root s

/-- The network entries of the routing table, which is empty at first. -/
def networkRoutes : Except RouteFault (List NetworkRoute) :=
  (stubDescriptions conf db root s).foldlM addStub ((networkDescriptions db s).foldl addNetwork [])

end

/-! ## The rule -/

def SameNetwork (d : Description) (entry : NetworkRoute) : Prop :=
  d.destinationID = entry.destinationID ∧ d.addressMask = entry.addressMask

/-- The least distance of the descriptions of the network, with next hops of those of this distance. -/
structure IsRoute (descriptions : List Description) (entry : NetworkRoute) : Prop where
  least : ∀ d ∈ descriptions, SameNetwork d entry → entry.cost ≤ d.distance
  attained : ∃ d ∈ descriptions, SameNetwork d entry ∧ d.distance = entry.cost
  hops : ∀ hop ∈ entry.nextHops, ∃ d ∈ descriptions, SameNetwork d entry ∧ d.distance = entry.cost ∧
    hop ∈ d.nextHops

/-- Each network that is described has exactly one entry, which is its route, and there are no others. -/
structure AreRoutes (descriptions : List Description) (table : List NetworkRoute) : Prop where
  complete : ∀ d ∈ descriptions, ∃ entry ∈ table, SameNetwork d entry
  routes : ∀ entry ∈ table, IsRoute descriptions entry
  nodup : (table.map fun entry ↦ (entry.destinationID, entry.addressMask)).Nodup

/-- Two descriptions of one network. -/
def Same (d d' : Description) : Prop :=
  d.destinationID = d'.destinationID ∧ d.addressMask = d'.addressMask

instance (d d' : Description) : Decidable (Same d d') := inferInstanceAs (Decidable (_ ∧ _))

/-- After the earlier descriptions this one finds the entry of its own network: a new network lies in no
earlier one, except for the address zero, which is not found again. Network LSAs of one network are at the
same distance, and no stub link ties with a network LSA. -/
structure Undisturbed (earlier : List Description) (d : Description) : Prop where
  fresh : (∀ x ∈ earlier, ¬ Same x d) →
    ∀ x ∈ earlier, x.destinationID ≠ 0 → d.destinationID &&& x.addressMask ≠ x.destinationID
  again : ∀ x ∈ earlier, Same x d → d.destinationID ≠ 0
  distance : d.isStub = false → ∀ x ∈ earlier, Same x d → x.distance = d.distance
  tie : d.isStub = true → ∀ x ∈ earlier, x.isStub = false → Same x d → x.distance = d.distance →
    ∃ y ∈ earlier, Same y d ∧ y.distance < d.distance

instance (earlier : List Description) (d : Description) : Decidable (Undisturbed earlier d) :=
  decidable_of_iff (((∀ x ∈ earlier, ¬ Same x d) →
      ∀ x ∈ earlier, x.destinationID ≠ 0 → d.destinationID &&& x.addressMask ≠ x.destinationID) ∧
    (∀ x ∈ earlier, Same x d → d.destinationID ≠ 0) ∧
    (d.isStub = false → ∀ x ∈ earlier, Same x d → x.distance = d.distance) ∧
    (d.isStub = true → ∀ x ∈ earlier, x.isStub = false → Same x d → x.distance = d.distance →
      ∃ y ∈ earlier, Same y d ∧ y.distance < d.distance))
    ⟨fun ⟨h₁, h₂, h₃, h₄⟩ ↦ ⟨h₁, h₂, h₃, h₄⟩, fun h ↦ ⟨h.fresh, h.again, h.distance, h.tie⟩⟩

/-- Each description is undisturbed by those before it. -/
def AllUndisturbed (earlier : List Description) : List Description → Prop
  | [] => True
  | d :: later => Undisturbed earlier d ∧ AllUndisturbed (earlier ++ [d]) later

instance decidableAllUndisturbed (earlier : List Description) :
    ∀ later, Decidable (AllUndisturbed earlier later)
  | [] => inferInstanceAs (Decidable True)
  | d :: later =>
    have := decidableAllUndisturbed (earlier ++ [d]) later
    inferInstanceAs (Decidable (_ ∧ _))

end InetManet.OSPF.Routing
