import InetManet.OSPF.Origination

/-!
# LSAs move forward

An instance is replaced by a newer one only, with the exception that the sequence numbers start again
once an instance with the last one has been flushed, and under an unchanged sequence number the
contents of an own LSA stay as they are. This fails where a new LSA with the initial sequence number
is installed without a look at the database, where the cost of a summary LSA is changed in place, and
where a received copy of an own LSA has the sequence number of the instance in the database and other
contents.
-/

namespace InetManet.OSPF

open TransitionSystem

namespace Origination

variable {β : Type} {s : Origination β} {k : DatabaseKey} {old new lsa : LSA (Contents β)}
  {routerID areaID : IPAddress} {own : LSAHeader → Bool}

/-- The code takes an LSA for its own if the advertising router is this one, or if it is the network
LSA of one of its addresses. -/
def isSelfOriginated (routerID : IPAddress) (isLocalAddress : IPAddress → Bool) (h : LSAHeader) :
    Bool :=
  h.advertisingRouter == routerID || h.lsType == .networkLSA && isLocalAddress h.linkStateID

/-- The new instance is newer, or the same, or the first one after the last one was flushed, and an
own LSA does not change under its sequence number. -/
structure Forward (own : LSAHeader → Bool) (old new : LSA (Contents β)) : Prop where
  newer : old.header.isOlder new.header = true ∨ new = old ∨
    old.header.lsSequenceNumber = maxSequenceNumber ∧ old.header.lsAge = maxAge ∧
      new.header.lsSequenceNumber = initialSequenceNumber
  contents : own new.header = true →
    new.header.lsSequenceNumber = old.header.lsSequenceNumber → new.contents = old.contents

theorem forward_of_lt (h : old.header.lsSequenceNumber < new.header.lsSequenceNumber) :
    Forward own old new := by
  constructor
  · left
    simp [LSAHeader.isOlder, h]
  · intro _ hsame
    exact absurd hsame.symm h.ne

theorem forward_atMaxAge (lsa : LSA (Contents β)) : Forward own lsa lsa.atMaxAge := by
  constructor
  · by_cases hage : lsa.header.lsAge = maxAge
    · right
      left
      unfold LSA.atMaxAge
      rw [← hage]
    · left
      simp [LSAHeader.isOlder, LSA.atMaxAge, hage]
  · intro _ _
    rfl

/-- The next sequence number, or the first one after the last. -/
theorem forward_next (hage : old.header.lsAge = maxAge ∨
      old.header.lsSequenceNumber ≠ maxSequenceNumber)
    (hnew : new.header.lsSequenceNumber = if old.header.lsSequenceNumber = maxSequenceNumber then
      initialSequenceNumber else old.header.lsSequenceNumber + 1) : Forward own old new := by
  split at hnew
  · rename_i hmax
    constructor
    · right
      right
      exact ⟨hmax, hage.resolve_right (not_not_intro hmax), hnew⟩
    · intro _ hsame
      rw [hnew, hmax] at hsame
      exact absurd hsame (by decide)
  · apply forward_of_lt
    rw [hnew]
    exact Int.lt_succ _

/-- The LSA that has to make room is the next instance of the one that is found. -/
theorem originateSummaryLSA_reoriginate {destination : IPv4AddressRange} {destinationCost : ℕ}
    {contents : Contents β}
    (h : (s.originateSummaryLSA routerID areaID destination destinationCost contents).2 = some lsa) :
    ∃ found, s.database (.summary areaID ⟨destination.address, routerID⟩) = some found ∧
      lsa.header.key = found.header.key ∧
      lsa.header.lsSequenceNumber = if found.header.lsSequenceNumber = maxSequenceNumber then
        initialSequenceNumber else found.header.lsSequenceNumber + 1 := by
  unfold originateSummaryLSA getUniqueLinkStateID at h
  cases hk : s.database (.summary areaID ⟨destination.address, routerID⟩) with
  | none =>
    rw [hk] at h
    cases h
  | some found =>
    rw [hk] at h
    refine ⟨found, rfl, ?_⟩
    dsimp only at h
    by_cases hsame : destination.mask = found.contents.networkMask
    · rw [if_pos hsame] at h
      cases h
    · rw [if_neg hsame] at h
      by_cases hle : found.contents.networkMask.toNat ≤ destination.mask.toNat
      · rw [if_pos hle] at h
        cases h
      · rw [if_neg hle] at h
        cases h
        exact ⟨rfl, rfl⟩

/-! ## Places -/

def Sound (own : LSAHeader → Bool) (s : Origination β) : Prop :=
  ∀ x ∈ s.replaced, Forward own x.1 x.2

namespace Sound

variable (h : s.Sound own)

include h

theorem install (hnew : ∀ old, s.database k = some old → Forward own old lsa) :
    (s.install k lsa).Sound own := by
  intro x hx
  unfold Origination.install at hx
  dsimp only at hx
  cases hk : s.database k with
  | none =>
    rw [hk] at hx
    exact h x hx
  | some old =>
    rw [hk] at hx
    rcases List.mem_append.mp hx with hx | hx
    · exact h x hx
    · rw [List.mem_singleton.mp hx]
      exact hnew old hk

theorem install_of_none (hk : s.database k = none) : (s.install k lsa).Sound own := by
  apply h.install
  intro old hold
  rw [hk] at hold
  cases hold

theorem install_of_some (hk : s.database k = some old) (hnew : Forward own old lsa) :
    (s.install k lsa).Sound own := by
  apply h.install
  intro old' hold
  rw [hk] at hold
  cases hold
  exact hnew

theorem flush (k : DatabaseKey) : (s.flush k).Sound own := by
  unfold Origination.flush
  split
  · exact h
  · rename_i old hk
    exact h.install_of_some hk (forward_atMaxAge old)

theorem reoriginate (k : DatabaseKey) (fresh : Option (LSA (Contents β))) :
    (s.reoriginate k fresh).Sound own := by
  unfold Origination.reoriginate
  split
  · exact h
  · rename_i old hk
    split
    · exact h.flush k
    · split
      · exact h.flush k
      · exact h.install_of_some hk (forward_of_lt (Int.lt_succ _))

theorem interfaceChanged (contents : Contents β) :
    (s.interfaceChanged routerID areaID contents).Sound own := by
  unfold Origination.interfaceChanged
  dsimp only
  split
  · rename_i hk
    exact h.install_of_none hk
  · exact h.reoriginate _ _

theorem becomeDesignatedRouter {address : IPAddress} {contents : Option (Contents β)}
    (hk : contents ≠ none → s.database (.network areaID address) = none) :
    (s.becomeDesignatedRouter routerID areaID address contents).Sound own := by
  unfold Origination.becomeDesignatedRouter originateNetworkLSA
  cases contents with
  | none => exact h.flush _
  | some contents => exact h.install_of_none (hk (Option.some_ne_none contents))

theorem rangeChanged {address : IPAddress} {cost : ℕ}
    (hcost : ∀ lsa, s.database (.summary areaID ⟨address, routerID⟩) = some lsa → cost ≠ 0 →
      lsa.contents.routeCost = cost) :
    (s.rangeChanged routerID areaID address cost).Sound own := by
  unfold Origination.rangeChanged
  dsimp only
  split
  · exact h
  · rename_i lsa hk
    split
    · rename_i hne
      apply h.install_of_some hk
      rw [← hcost lsa hk hne]
      exact ⟨.inr (.inl rfl), fun _ _ ↦ rfl⟩
    · exact h.flush _

theorem ageLSA (k : DatabaseKey) (selfOriginated unreachable isRemovable : Bool)
    (fresh : Option (LSA (Contents β))) :
    (s.ageLSA k selfOriginated unreachable isRemovable fresh).Sound own := by
  unfold Origination.ageLSA
  split
  · exact h
  · rename_i lsa hk
    dsimp only
    split
    · exact h
    · split
      · split
        · exact h.flush k
        · exact h.reoriginate k fresh
      · split
        · exact h.flush k
        · split
          · rename_i hage
            split
            · exact h
            · exact h.install_of_some hk (forward_next (.inl hage.1) rfl)
          · exact h

theorem received (areaID : IPAddress) (selfOriginated : Bool) (lsa : LSA (Contents β))
    (hcopy : own lsa.header = true → ∀ old, s.database (databaseKey areaID lsa.header) = some old →
      old.header.isOlder lsa.header = true →
      lsa.header.lsSequenceNumber = old.header.lsSequenceNumber → lsa.contents = old.contents) :
    (s.received areaID selfOriginated lsa).Sound own := by
  unfold Origination.received
  dsimp only
  split
  · rename_i hk
    exact h.install_of_none hk
  · rename_i old hk
    split
    · rename_i holder
      have hinstalled := h.install_of_some hk ⟨.inl holder, fun hown hsame ↦
        hcopy hown old hk holder hsame⟩
      split
      · exact hinstalled
      · split
        · exact hinstalled.flush _
        · have hk' : (s.install (databaseKey areaID lsa.header) lsa).database
              (databaseKey areaID lsa.header) = some lsa := Function.update_self _ _ _
          exact hinstalled.install_of_some hk' (forward_of_lt (Int.lt_succ _))
    · exact h

/-- The ID of the new summary LSA is free, and the instance that makes room for it is found under its
own key and has a next sequence number. -/
theorem routeChanged {destination : IPv4AddressRange} {destinationCost : ℕ} {contents : Contents β}
    (hfree : s.database (.summary areaID
      (s.originateSummaryLSA routerID areaID destination destinationCost contents).1.header.key) = none)
    (hfound : ∀ found, s.database (.summary areaID ⟨destination.address, routerID⟩) = some found →
      found.header.key = ⟨destination.address, routerID⟩ ∧
        (found.header.lsAge = maxAge ∨ found.header.lsSequenceNumber ≠ maxSequenceNumber)) :
    (s.routeChanged routerID areaID destination destinationCost contents).Sound own := by
  unfold Origination.routeChanged
  cases hx : s.originateSummaryLSA routerID areaID destination destinationCost contents with
  | mk newLSA lsaToReoriginate =>
    rw [hx] at hfree
    dsimp only
    cases lsaToReoriginate with
    | none => exact h.install_of_none hfree
    | some lsa =>
      obtain ⟨found, hk, hkey, hnext⟩ := originateSummaryLSA_reoriginate (congrArg Prod.snd hx)
      obtain ⟨hown, hage⟩ := hfound found hk
      have hkey' : lsa.header.key = ⟨destination.address, routerID⟩ := hkey.trans hown
      have hfirst : (s.installSummaryLSA areaID lsa).Sound own := by
        unfold installSummaryLSA
        rw [hkey']
        exact h.install_of_some hk (forward_next hage hnext)
      apply hfirst.install_of_none
      have hne : DatabaseKey.summary areaID newLSA.header.key ≠ .summary areaID lsa.header.key := by
        intro heq
        rw [heq, hkey', hk] at hfree
        cases hfree
      unfold installSummaryLSA Origination.install
      dsimp only
      rw [Function.update_of_ne hne]
      exact hfree

end Sound

/-! ## Runs -/

/-- An LSA with the initial sequence number is installed only where there is none, no cost changes in
place, and a copy of an own LSA that the database takes for newer though its sequence number is the
same has the same contents. -/
def Allowed (routerID : IPAddress) (own : LSAHeader → Bool) (s : Origination β) : Event β → Prop
  | .becomeDesignatedRouter areaID address contents =>
      contents ≠ none → s.database (.network areaID address) = none
  | .newRoot areaID _ => s.database (.router areaID routerID) = none
  | .routeChanged areaID destination destinationCost contents =>
      s.database (.summary areaID (s.originateSummaryLSA routerID areaID destination
        destinationCost contents).1.header.key) = none ∧
      ∀ found, s.database (.summary areaID ⟨destination.address, routerID⟩) = some found →
        found.header.key = ⟨destination.address, routerID⟩ ∧
          (found.header.lsAge = maxAge ∨ found.header.lsSequenceNumber ≠ maxSequenceNumber)
  | .boundaryRouterChanged areaID destinationID _ =>
      s.database (.summary areaID ⟨destinationID, routerID⟩) = none
  | .rangeChanged areaID address cost => ∀ lsa,
      s.database (.summary areaID ⟨address, routerID⟩) = some lsa → cost ≠ 0 →
        lsa.contents.routeCost = cost
  | .received areaID _ lsa => own lsa.header = true →
      ∀ old, s.database (databaseKey areaID lsa.header) = some old →
        old.header.isOlder lsa.header = true →
        lsa.header.lsSequenceNumber = old.header.lsSequenceNumber → lsa.contents = old.contents
  | _ => True

theorem Sound.step (h : s.Sound own) (e : Event β) (he : s.Allowed routerID own e) :
    Outcome (s.step routerID e) (Sound own) fun _ ↦ False := by
  cases e with
  | interfaceChanged areaID contents => exact h.interfaceChanged contents
  | becomeDesignatedRouter areaID address contents => exact h.becomeDesignatedRouter he
  | leaveDesignatedRouter areaID address => exact h.flush _
  | neighborChanged areaID contents => exact h.reoriginate _ _
  | adjacencyChanged areaID address contents => exact h.reoriginate _ _
  | newRoot areaID contents => exact h.install_of_none he
  | routeChanged areaID destination destinationCost contents => exact h.routeChanged he.1 he.2
  | boundaryRouterChanged areaID destinationID contents => exact h.install_of_none he
  | rangeChanged areaID address cost => exact h.rangeChanged he
  | ageLSA k selfOriginated unreachable isRemovable fresh =>
    exact h.ageLSA k selfOriginated unreachable isRemovable fresh
  | received areaID selfOriginated lsa => exact h.received areaID selfOriginated lsa he

/-- In every run of this kind each instance that has been replaced was followed by a newer one, and no
own LSA has changed under its sequence number. -/
theorem instances_move_forward (routerID : IPAddress) (isLocalAddress : IPAddress → Bool)
    (h : Reachable (fun s : Origination β ↦ s.replaced = [])
      (Allowed routerID (isSelfOriginated routerID isLocalAddress)) (step routerID) s) :
    ∀ x ∈ s.replaced, Forward (isSelfOriginated routerID isLocalAddress) x.1 x.2 := by
  have hinit : ∀ s : Origination β, s.replaced = [] →
      s.Sound (isSelfOriginated routerID isLocalAddress) := by
    intro s hs x hx
    rw [hs] at hx
    cases hx
  exact (h.outcome hinit fun _ e hs he ↦ hs.step e he).1

def nothing : Origination Unit := ⟨fun _ ↦ none, []⟩

/-- The network LSA of the designated router with the ID 9, as it comes back later. -/
def returned : LSA (Contents Unit) :=
  ⟨⟨5, .networkLSA, 100, 9, -2147483646, 7⟩, ⟨0xFFFFFF00, 0, ()⟩⟩

/-- This router becomes the designated one, a second neighbor gets fully adjacent, and the new
instance comes back with its checksum. -/
def secondNeighbor : List (Event Unit) :=
  [.becomeDesignatedRouter 1 100 (some ⟨0xFFFFFF00, 0, ()⟩),
    .adjacencyChanged 1 100 (some ⟨0xFFFFFF00, 0, ()⟩), .received 1 true returned]

theorem instances_move_forward_secondNeighbor : ∃ s,
    run (step 9) nothing secondNeighbor = .ok s ∧
    s.replaced.map (fun x ↦ (x.1.header.lsSequenceNumber, x.2.header.lsSequenceNumber)) =
      [(-2147483647, -2147483646), (-2147483646, -2147483646), (-2147483646, -2147483645)] ∧
    ∀ x ∈ s.replaced, Forward (isSelfOriginated 9 fun _ ↦ false) x.1 x.2 := by
  refine ⟨_, rfl, by decide, ?_⟩
  have hstart : Reachable (fun s : Origination Unit ↦ s.replaced = [])
      (Allowed 9 (isSelfOriginated 9 fun _ ↦ false)) (step 9) nothing := .start rfl
  have hfirst : nothing.Allowed 9 (isSelfOriginated 9 fun _ ↦ false)
      (.becomeDesignatedRouter 1 100 (some ⟨0xFFFFFF00, 0, ()⟩)) := fun _ ↦ rfl
  have hsecond (s : Origination Unit) : s.Allowed 9 (isSelfOriginated 9 fun _ ↦ false)
      (.adjacencyChanged 1 100 (some ⟨0xFFFFFF00, 0, ()⟩)) := trivial
  refine instances_move_forward 9 (fun _ ↦ false)
    (((hstart.next hfirst rfl).next (hsecond _) rfl).next (e := .received 1 true returned) ?_ rfl)
  intro _ old hold _ _
  cases hold
  rfl

/-- The cost of a route to another area changes from 10 to 20. -/
def costChange : List (Event Unit) :=
  [.routeChanged 1 ⟨0x0A000000, 0xFF000000⟩ 10 ⟨0xFF000000, 10, ()⟩,
    .routeChanged 1 ⟨0x0A000000, 0xFF000000⟩ 20 ⟨0xFF000000, 20, ()⟩]

/-- The new cost comes with the old sequence number. -/
theorem initial_sequence_number_again : ∃ s, run (step 9) nothing costChange = .ok s ∧
    ∃ x ∈ s.replaced, ¬ Forward (isSelfOriginated 9 fun _ ↦ false) x.1 x.2 ∧ x.1.contents.routeCost = 10 ∧
      x.2.contents.routeCost = 20 ∧
      x.1.header.lsSequenceNumber = x.2.header.lsSequenceNumber := by
  refine ⟨_, rfl, _, List.mem_singleton.mpr rfl, ?_, rfl, rfl, rfl⟩
  intro h
  have hcost := congrArg (·.routeCost) (h.contents (by decide) rfl)
  revert hcost
  decide

end Origination

end InetManet.OSPF
