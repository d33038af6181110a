import InetManet.Library.Best
import InetManet.Network.IPAddressText
import InetManet.Network.RoutingTable
import Mathlib.Algebra.Order.Field.Rat
import Mathlib.Algebra.Order.Group.Int
import Mathlib.Data.Prod.Lex
import Mathlib.Order.WithBot

/-!
# The best match in the IPv4 routing table

The search for a destination that is not in the cache, with routes that time out. The route with the
longest netmask is taken, and among those the first one with the lowest metric. If that is a MANET
route to another host the search starts again for routes to the destination itself, but the route it
finds is never returned: the code looks at the host of a pointer that it has set to NULL before.
-/

namespace InetManet

/-- A route with the time at which it was installed. -/
structure TimedRoute extends IPRoute where
  installTime : ℚ

namespace RoutingTable

/-- What the test of a route depends on; no time to live is the largest one. -/
structure Validity where
  timetolive_routing_entry : Option ℚ
  simTime : ℚ
  isLocalAddress : IPAddress → Bool

def Validity.testValidity (v : Validity) (entry : TimedRoute) : Bool :=
  match v.timetolive_routing_entry with
  | none => true
  | some timetolive =>
    if v.isLocalAddress entry.host then true
    else if entry.host.str ≠ "*".toList && entry.host.str ≠ "<unspec>".toList &&
        entry.host.str ≠ "127.0.0.1".toList && v.simTime - entry.installTime > timetolive then false
    else true

variable (v : Validity) (routes : List TimedRoute) (dest : IPAddress)

/-- The first loop. -/
def findBestRoute : Option TimedRoute :=
  routes.foldl (fun bestRoute e ↦
    if v.testValidity e && (IPAddress.maskedAddrAreEqual dest e.host e.netmask &&
        match bestRoute with
        | none => true
        | some b => decide (b.netmask.toNat < e.netmask.toNat) ||
            e.netmask.toNat == b.netmask.toNat && decide (e.metric < b.metric)) then some e
    else bestRoute) none

/-- The second loop. -/
def findBestUniRoute : Option TimedRoute :=
  routes.foldl (fun bestUniRoute e ↦
    if v.testValidity e && (IPAddress.maskedAddrAreEqual dest e.host (BitVec.allOnes 32) &&
        match bestUniRoute with
        | none => true
        | some b => decide (e.metric < b.metric)) then some e
    else bestUniRoute) none

/-- `findBestMatchingRoute` without a cache entry. -/
def findMatch : Except RoutingFault (Option TimedRoute) :=
  match findBestRoute v routes dest with
  | none => .ok none
  | some bestRoute =>
    if bestRoute.source = .manet ∧ bestRoute.host ≠ dest then
      match findBestUniRoute v routes dest with
      | none => .ok none
      -- bestRoute is NULL, and its host is read if the route is a MANET one
      | some bestUniRoute => if bestUniRoute.source = .manet then .error .nullRoute else .ok none
    else .ok (some bestRoute)

/-! ## What it is for -/

/-- A longer netmask comes before a shorter one, then a lower metric before a higher one. -/
def rank (e : TimedRoute) : ℕ ×ₗ ℤ := toLex (e.netmask.toNat, -e.metric)

/-- The routes that have not timed out and match the destination. -/
def matching : List TimedRoute :=
  routes.filter fun e ↦ v.testValidity e && IPAddress.maskedAddrAreEqual dest e.host e.netmask

/-- Those whose host is the destination. -/
def toHost : List TimedRoute := routes.filter fun e ↦ v.testValidity e && e.host == dest

/-- The best match, unless it is a MANET route to another host: then the best route to the destination
itself, if there is one. -/
def bestMatch : Option TimedRoute :=
  match firstBest rank (matching v routes dest) with
  | none => none
  | some e =>
    if e.source = .manet ∧ e.host ≠ dest then firstBest (fun u ↦ -u.metric) (toHost v routes dest)
    else some e

/-- The best match is a MANET route to another host, and there is a route to the destination. -/
def FallsBack : Prop :=
  ∃ e, firstBest rank (matching v routes dest) = some e ∧ e.source = .manet ∧ e.host ≠ dest ∧
    ∃ u ∈ routes, v.testValidity u ∧ u.host = dest

/-- The netmask with this many ones in front. -/
def netmaskOf (length : ℕ) : IPAddress := BitVec.allOnes 32 <<< (32 - length)

/-- The route matches, and among those that do it has the longest netmask and, with that netmask, the
lowest metric. -/
structure IsBestMatch (e : TimedRoute) : Prop where
  mem : e ∈ routes
  valid : v.testValidity e
  matches_dest : IPAddress.maskedAddrAreEqual dest e.host e.netmask
  netmask_max : ∀ f ∈ matching v routes dest, f.netmask.toNat ≤ e.netmask.toNat
  length_max : ∀ f ∈ matching v routes dest, ∀ l m, l ≤ 32 → m ≤ 32 → e.netmask = netmaskOf l →
    f.netmask = netmaskOf m → m ≤ l
  metric_min : ∀ f ∈ matching v routes dest, f.netmask = e.netmask → e.metric ≤ f.metric

/-! ## The loops -/

theorem rank_lt_iff (e f : TimedRoute) : rank f < rank e ↔
    f.netmask.toNat < e.netmask.toNat ∨ e.netmask.toNat = f.netmask.toNat ∧ e.metric < f.metric := by
  rw [rank, rank, Prod.Lex.toLex_lt_toLex]
  simp only
  rw [neg_lt_neg_iff, eq_comm]

theorem findBestRoute_eq : findBestRoute v routes dest = firstBest rank (matching v routes dest) := by
  have hloop := @foldl_eq_firstBest TimedRoute _ _ rank
    (fun e ↦ v.testValidity e && IPAddress.maskedAddrAreEqual dest e.host e.netmask)
    (fun bestRoute e ↦ match bestRoute with
      | none => true
      | some b => decide (b.netmask.toNat < e.netmask.toNat) ||
          e.netmask.toNat == b.netmask.toNat && decide (e.metric < b.metric))
    (fun _ ↦ rfl) (fun b e ↦ by
      rw [Bool.eq_iff_iff, decide_eq_true_iff, rank_lt_iff]
      simp) routes
  simp only [Bool.and_assoc] at hloop
  rw [matching, ← hloop]
  rfl

theorem maskedAddrAreEqual_host (a b : IPAddress) :
    IPAddress.maskedAddrAreEqual a b (BitVec.allOnes 32) = (b == a) := by
  rw [Bool.eq_iff_iff, IPAddress.maskedAddrAreEqual, beq_iff_eq, beq_iff_eq, BitVec.and_allOnes]
  exact BitVec.xor_eq_zero_iff.trans eq_comm

theorem findBestUniRoute_eq :
    findBestUniRoute v routes dest = firstBest (fun u ↦ -u.metric) (toHost v routes dest) := by
  have hloop := @foldl_eq_firstBest TimedRoute ℤ _ (fun u ↦ -u.metric)
    (fun e ↦ v.testValidity e && e.host == dest)
    (fun bestUniRoute e ↦ match bestUniRoute with
      | none => true
      | some b => decide (e.metric < b.metric))
    (fun _ ↦ rfl) (fun b e ↦ by rw [decide_eq_decide, neg_lt_neg_iff]) routes
  simp only [Bool.and_assoc, ← maskedAddrAreEqual_host] at hloop
  rw [toHost]
  simp only [← maskedAddrAreEqual_host]
  rw [← hloop]
  rfl

theorem netmaskOf_lt {l m : ℕ} (hm : m ≤ 32) (h : l < m) :
    (netmaskOf l).toNat < (netmaskOf m).toNat := by
  have hall : ∀ m : Fin 33, ∀ l : Fin 33, l < m →
      (netmaskOf l.val).toNat < (netmaskOf m.val).toNat := by
    decide
  exact hall ⟨m, by omega⟩ ⟨l, by omega⟩ h

/-! ## The search -/

theorem isBestMatch_of_firstBest {e : TimedRoute}
    (h : firstBest rank (matching v routes dest) = some e) : IsBestMatch v routes dest e := by
  obtain ⟨hmem, htest⟩ := List.mem_filter.mp (mem_of_firstBest h)
  obtain ⟨hvalid, hmatch⟩ := Bool.and_eq_true_iff.mp htest
  have hrank : ∀ f ∈ matching v routes dest, ¬ rank e < rank f := fun f hf ↦
    not_lt.mpr (le_of_firstBest h hf)
  have hmax : ∀ f ∈ matching v routes dest, f.netmask.toNat ≤ e.netmask.toNat := by
    intro f hf
    by_contra hlt
    exact hrank f hf ((rank_lt_iff f e).mpr (Or.inl (not_le.mp hlt)))
  constructor
  · exact hmem
  · exact hvalid
  · exact hmatch
  · exact hmax
  · intro f hf l m _ hm hel hfm
    by_contra hlm
    have hle := hmax f hf
    rw [hel, hfm] at hle
    exact absurd (netmaskOf_lt hm (not_le.mp hlm)) (not_lt.mpr hle)
  · intro f hf heq
    by_contra hlt
    exact hrank f hf ((rank_lt_iff f e).mpr (Or.inr ⟨by rw [heq], not_le.mp hlt⟩))

theorem firstBest_toHost_eq_none_iff :
    firstBest (fun u ↦ -u.metric) (toHost v routes dest) = none ↔
      ¬ ∃ u ∈ routes, v.testValidity u ∧ u.host = dest := by
  rw [firstBest_eq_none, toHost, List.filter_eq_nil_iff]
  simp

/-- The search meets its specification exactly unless it has to fall back to a route to the
destination itself; the best match is what its name says. -/
theorem findMatch_eq_bestMatch_iff :
    (findMatch v routes dest = .ok (bestMatch v routes dest) ↔ ¬ FallsBack v routes dest) ∧
      ∀ e, firstBest rank (matching v routes dest) = some e → IsBestMatch v routes dest e := by
  refine ⟨?_, fun e h ↦ isBestMatch_of_firstBest v routes dest h⟩
  rw [findMatch, bestMatch, findBestRoute_eq]
  cases hbest : firstBest rank (matching v routes dest) with
  | none =>
    apply iff_of_true rfl
    intro ⟨e, he, _⟩
    rw [hbest] at he
    cases he
  | some e =>
    simp only
    have hfalls : FallsBack v routes dest ↔ (e.source = .manet ∧ e.host ≠ dest) ∧
        ∃ u ∈ routes, v.testValidity u ∧ u.host = dest := by
      simp only [FallsBack, hbest, Option.some.injEq, exists_eq_left', and_assoc]
    rw [hfalls]
    split_ifs with hmanet
    · rw [findBestUniRoute_eq]
      have hnone := firstBest_toHost_eq_none_iff v routes dest
      cases huni : firstBest (fun u ↦ -u.metric) (toHost v routes dest) with
      | none =>
        apply iff_of_true rfl
        exact fun h ↦ hnone.mp huni h.2
      | some u =>
        have hexists : ∃ u ∈ routes, v.testValidity u ∧ u.host = dest := by
          by_contra h
          rw [hnone.mpr h] at huni
          cases huni
        apply iff_of_false _ (not_not_intro ⟨hmanet, hexists⟩)
        simp only
        split_ifs
        · exact nofun
        · exact nofun
    · apply iff_of_true rfl
      exact fun h ↦ hmanet h.1

/-- Two MANET routes with the netmask of the network, the second one to 10.0.0.5. -/
def twoRoutes : List TimedRoute :=
  [{ host := 0x0A000001, netmask := 0xFFFFFF00, gateway := 0, interface := some 0,
     source := .manet, metric := 1, installTime := 0 },
   { host := 0x0A000005, netmask := 0xFFFFFF00, gateway := 0, interface := some 0,
     source := .manet, metric := 2, installTime := 0 }]

/-- The NULL pointer is read. -/
theorem not_findMatch_eq_bestMatch :
    ¬ ∀ v routes dest, findMatch v routes dest = .ok (bestMatch v routes dest) := by
  intro h
  have hrun : findMatch ⟨none, 0, fun _ ↦ false⟩ twoRoutes 0x0A000005 = .error .nullRoute := rfl
  rw [h] at hrun
  cases hrun

end RoutingTable

end InetManet
