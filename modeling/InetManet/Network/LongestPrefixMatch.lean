import InetManet.Network.DestinationCache
import Mathlib.Data.List.TakeWhile

/-!
# IPv6 longest prefix match

The search stops at the first route that matches and has not expired, which in a sorted table is the
best one. An expired route is removed from the vector that the loop runs over, and the iterator then
goes one step further: what has moved up is passed over. So the search is right as long as it meets no
expired route on its way.
-/

namespace InetManet

open TransitionSystem

namespace RoutingTable6

variable {cfg : Config} {s t : RoutingTable6} {dest : IPv6Address} {simTime : ℚ}
  {routes : List IPv6Route}

/-! ## The loop -/

/-- The routes that the loop looks at, from the position `i` on. -/
def visits (simTime : ℚ) (dest : IPv6Address) : ℕ → ℕ → List IPv6Route → List IPv6Route
  | 0, _, _ => []
  | fuel + 1, i, routeList =>
    match routeList[i]? with
    | none => []
    | some route =>
      route ::
        if route.matchesDest dest then
          if route.expired simTime then
            visits simTime dest fuel (i + 1)
              (eraseOnLinkPrefix routeList route.destPrefix route.length)
          else []
        else visits simTime dest fuel (i + 1) routeList

/-- The routes in front of the first usable one. -/
def passed (simTime : ℚ) (dest : IPv6Address) (routes : List IPv6Route) : List IPv6Route :=
  routes.takeWhile fun r ↦ !usable simTime dest r

/-- The first usable route and what is behind it. -/
def remaining (simTime : ℚ) (dest : IPv6Address) (routes : List IPv6Route) : List IPv6Route :=
  routes.dropWhile fun r ↦ !usable simTime dest r

theorem passed_append_remaining (simTime : ℚ) (dest : IPv6Address) (routes : List IPv6Route) :
    passed simTime dest routes ++ remaining simTime dest routes = routes :=
  List.takeWhile_append_dropWhile

theorem passed_cons_of_not_usable {r : IPv6Route} (h : usable simTime dest r = false) :
    passed simTime dest (r :: routes) = r :: passed simTime dest routes :=
  List.takeWhile_cons_of_pos (by simp [h])

theorem passed_cons_of_usable {r : IPv6Route} (h : usable simTime dest r = true) :
    passed simTime dest (r :: routes) = [] :=
  List.takeWhile_cons_of_neg (by simp [h])

theorem remaining_cons_of_not_usable {r : IPv6Route} (h : usable simTime dest r = false) :
    remaining simTime dest (r :: routes) = remaining simTime dest routes :=
  List.dropWhile_cons_of_pos (by simp [h])

theorem remaining_cons_of_usable {r : IPv6Route} (h : usable simTime dest r = true) :
    remaining simTime dest (r :: routes) = r :: routes :=
  List.dropWhile_cons_of_neg (by simp [h])

theorem scan_sublist {fuel i : ℕ} {out : Option IPv6Route} {left : List IPv6Route}
    (h : scan simTime dest fuel i routes = .ok (out, left)) : left.Sublist routes := by
  induction fuel generalizing i routes with
  | zero =>
    cases h
    exact List.Sublist.refl _
  | succ fuel ih =>
    rw [scan] at h
    split at h
    · cases h
      exact List.Sublist.refl _
    · split at h
      · cases h
      · split at h
        · split at h
          · exact (ih h).trans List.eraseP_sublist
          · cases h
            exact List.Sublist.refl _
        · exact ih h

/-- When the search ends without a route, it has made one step for each that is left. -/
theorem visits_of_scan_none {fuel i : ℕ} {left : List IPv6Route} (hfuel : routes.length < fuel + i)
    (hpos : 0 < fuel) (h : scan simTime dest fuel i routes = .ok (none, left)) :
    i + (visits simTime dest fuel i routes).length = left.length := by
  induction fuel generalizing i routes with
  | zero => cases hpos
  | succ fuel ih =>
    rw [scan] at h
    split at h
    · rename_i hend
      cases h
      rw [visits, List.getElem?_eq_none hend.ge]
      exact hend
    · split at h
      · cases h
      · rename_i hend route hroute
        have hi : i < routes.length := (List.getElem?_eq_some_iff.mp hroute).1
        rw [visits, hroute]
        dsimp only
        split at h
        · rename_i hmatch
          rw [if_pos hmatch]
          split at h
          · rename_i hexpired
            rw [if_pos hexpired]
            have hle : (eraseOnLinkPrefix routes route.destPrefix route.length).length ≤
                routes.length := List.eraseP_sublist.length_le
            rw [← ih (by omega) (by omega) h, List.length_cons]
            omega
          · cases h
        · rename_i hmatch
          rw [if_neg hmatch]
          rw [← ih (by omega) (by omega) h, List.length_cons]
          omega

/-- When the search ends with a route, this is the last that it has looked at, and it stands where
the steps have led. -/
theorem visits_of_scan_some {fuel i : ℕ} {r : IPv6Route} {left : List IPv6Route}
    (h : scan simTime dest fuel i routes = .ok (some r, left)) :
    ∃ front, visits simTime dest fuel i routes = front ++ [r] ∧
      left[i + front.length]? = some r := by
  induction fuel generalizing i routes with
  | zero => cases h
  | succ fuel ih =>
    rw [scan] at h
    have hcons {route : IPv6Route} {more : List IPv6Route}
        (hmore : ∃ front, more = front ++ [r] ∧ left[i + 1 + front.length]? = some r) :
        ∃ front, route :: more = front ++ [r] ∧ left[i + front.length]? = some r := by
      obtain ⟨front, rfl, hget⟩ := hmore
      refine ⟨route :: front, rfl, ?_⟩
      rw [List.length_cons, ← hget]
      congr 1
      omega
    split at h
    · cases h
    · split at h
      · cases h
      · rename_i hend route hroute
        rw [visits, hroute]
        dsimp only
        split at h
        · rename_i hmatch
          rw [if_pos hmatch]
          split at h
          · rename_i hexpired
            rw [if_pos hexpired]
            exact hcons (ih h)
          · rename_i hexpired
            cases h
            rw [if_neg hexpired]
            exact ⟨[], rfl, hroute⟩
        · rename_i hmatch
          rw [if_neg hmatch]
          exact hcons (ih h)

/-- A search that meets no expired route looks at every route up to the first usable one. -/
theorem visits_eq {done rest : List IPv6Route} (hroutes : routes = done ++ rest)
    (hrest : ∀ r ∈ passed simTime dest rest, r.matchesDest dest = false) {fuel : ℕ}
    (hfuel : rest.length < fuel) :
    visits simTime dest fuel done.length routes =
      passed simTime dest rest ++ (remaining simTime dest rest).head?.toList := by
  induction rest generalizing done fuel with
  | nil =>
    cases fuel with
    | zero => cases hfuel
    | succ fuel =>
      rw [visits, List.getElem?_eq_none (by simp [hroutes])]
      rfl
  | cons r rest ih =>
    cases fuel with
    | zero => cases hfuel
    | succ fuel =>
      have hget : routes[done.length]? = some r := by
        rw [hroutes]
        simp
      rw [visits, hget]
      dsimp only
      cases husable : usable simTime dest r with
      | true =>
        have hboth := husable
        unfold usable at hboth
        rw [Bool.and_eq_true, Bool.not_eq_true'] at hboth
        rw [if_pos hboth.1, if_neg (by simp [hboth.2]), passed_cons_of_usable husable,
          remaining_cons_of_usable husable]
        rfl
      | false =>
        have hpassed : passed simTime dest (r :: rest) = r :: passed simTime dest rest :=
          passed_cons_of_not_usable husable
        have hmatch : r.matchesDest dest = false := by
          apply hrest
          rw [hpassed]
          exact List.mem_cons_self
        have hnext : visits simTime dest fuel (done ++ [r]).length routes =
            passed simTime dest rest ++ (remaining simTime dest rest).head?.toList := by
          apply ih
          · simp [hroutes]
          · intro r' hr'
            apply hrest
            rw [hpassed]
            exact List.mem_cons_of_mem r hr'
          · exact Nat.lt_of_succ_lt_succ hfuel
        rw [if_neg (by simp [hmatch]), hpassed, remaining_cons_of_not_usable husable,
          List.cons_append, ← hnext, List.length_append, List.length_singleton]

/-! ## Tables -/

/-- What the methods that are called from outside do with the table. -/
inductive TableOperation
  | operation (op : Operation)
  | setMetric (id : ℕ) (metric : ℤ)
  | doLongestPrefixMatch (dest : IPv6Address)

/-- A metric is set at the object of the route, and the table is left as it is. -/
def setMetric (s : RoutingTable6) (id : ℕ) (metric : ℤ) : RoutingTable6 :=
  { s with routeList := modifyFirst (·.id == id) (·.setMetric metric) s.routeList }

def tableStep (cfg : Config) (s : RoutingTable6) : TableOperation → Except Fault RoutingTable6
  | .operation op => s.step cfg op
  | .setMetric id metric => .ok (s.setMetric id metric)
  | .doLongestPrefixMatch dest => Prod.snd <$> s.doLongestPrefixMatch dest

/-- The tables of all runs from an empty one. -/
def Built (cfg : Config) : RoutingTable6 → Prop :=
  Reachable Started (fun _ _ ↦ True) (tableStep cfg)

/-- The table is sorted, and every route is one object. -/
structure Ordered (s : RoutingTable6) : Prop where
  sorted : s.routeList.Pairwise fun a b ↦ routeLessThan b a = false
  nodup : (s.routeList.map (·.id)).Nodup
  fresh : ∀ r ∈ s.routeList, r.id < s.fresh

theorem Ordered.of_sublist (h : s.Ordered) (hfresh : t.fresh = s.fresh)
    (hroutes : t.routeList.Sublist s.routeList) : t.Ordered := by
  constructor
  · exact h.sorted.sublist hroutes
  · exact h.nodup.sublist (hroutes.map _)
  · intro r hr
    rw [hfresh]
    exact h.fresh r (hroutes.subset hr)

theorem Ordered.addRoute (hsort : Sorts cfg) (h : s.Ordered) (route : IPv6Route) :
    (s.addRoute cfg route).Ordered := by
  obtain ⟨hperm, hsorted⟩ := hsort (s.routeList ++ [{ route with id := s.fresh }])
  constructor
  · exact hsorted
  · apply ((hperm.map (·.id)).nodup_iff).mpr
    rw [List.map_append, List.map_singleton]
    apply h.nodup.append (List.nodup_singleton _)
    intro id hid hfresh
    obtain ⟨r, hr, rfl⟩ := List.mem_map.mp hid
    have hlt := h.fresh r hr
    rw [List.mem_singleton.mp hfresh] at hlt
    exact absurd hlt (Nat.lt_irrefl _)
  · intro r hr
    rcases List.mem_append.mp (hperm.mem_iff.mp hr) with hr | hr
    · exact Nat.lt_succ_of_lt (h.fresh r hr)
    · rw [List.mem_singleton.mp hr]
      exact Nat.lt_succ_self _

theorem map_id_modifyFirst {key : IPv6Route → Bool} {f : IPv6Route → IPv6Route}
    (hf : ∀ r, (f r).id = r.id) : (modifyFirst key f routes).map (·.id) = routes.map (·.id) := by
  induction routes with
  | nil => rfl
  | cons r routes ih =>
    rw [modifyFirst]
    split
    · rw [List.map_cons, List.map_cons, hf]
    · rw [List.map_cons, List.map_cons, ih]

theorem Ordered.modifyFirst (h : s.Ordered) {key : IPv6Route → Bool}
    {f : IPv6Route → IPv6Route} (hid : ∀ r, (f r).id = r.id)
    (hlength : ∀ r, (f r).length = r.length) (hmetric : ∀ r, (f r).metric = r.metric) :
    ({ s with routeList := RoutingTable6.modifyFirst key f s.routeList } : RoutingTable6).Ordered := by
  constructor
  · apply sorted_modifyFirst h.sorted
    · intro a b
      unfold routeLessThan
      rw [hlength, hmetric]
    · intro a b
      unfold routeLessThan
      rw [hlength, hmetric]
  · dsimp only
    rw [map_id_modifyFirst hid]
    exact h.nodup
  · intro r hr
    rcases mem_modifyFirst hr with hr | ⟨r', hr', rfl⟩
    · exact h.fresh r hr
    · rw [hid]
      exact h.fresh r' hr'

theorem Ordered.addOrUpdatePrefix (hsort : Sorts cfg) (h : s.Ordered) (src : RouteSrc)
    (destPrefix : IPv6Address) (prefixLength : ℕ) (interfaceId : ℤ) (expiryTime : ℚ) :
    (s.addOrUpdatePrefix cfg src destPrefix prefixLength interfaceId expiryTime).Ordered := by
  unfold RoutingTable6.addOrUpdatePrefix
  split
  · apply h.modifyFirst
    · intro r
      rfl
    · intro r
      rfl
    · intro r
      rfl
  · exact h.addRoute hsort _

theorem Ordered.doLongestPrefixMatch (h : s.Ordered) (dest : IPv6Address) :
    Outcome (s.doLongestPrefixMatch dest) (fun x ↦ x.2.Ordered) fun _ ↦ True := by
  unfold RoutingTable6.doLongestPrefixMatch
  cases hscan : scan s.simTime dest (s.routeList.length + 1) 0 s.routeList with
  | error e => trivial
  | ok x =>
    have hleft : ({ s with routeList := x.2 } : RoutingTable6).Ordered :=
      h.of_sublist rfl (scan_sublist hscan)
    exact hleft

theorem Ordered.routePacket (h : s.Ordered) (dest : IPv6Address) :
    Outcome (s.routePacket cfg dest) (fun x ↦ x.2.Ordered) fun _ ↦ True := by
  have hcheck (entry : DestCacheEntry) {x : Option DestCacheEntry × RoutingTable6}
      (hx : x.2.Ordered) : Outcome (do checkHop cfg entry; return x)
      (fun x : Option DestCacheEntry × RoutingTable6 ↦ x.2.Ordered) fun _ ↦ True := by
    unfold checkHop
    split
    · exact hx
    · trivial
  unfold RoutingTable6.routePacket
  split
  · exact hcheck _ h
  · apply (h.doLongestPrefixMatch dest).bind
    intro x hx
    obtain ⟨route, t⟩ := x
    dsimp only at hx ⊢
    split
    · exact hx
    · apply hcheck
      exact hx.of_sublist rfl (List.Sublist.refl _)

theorem Ordered.step (hsort : Sorts cfg) (h : s.Ordered) (op : Operation) :
    Outcome (s.step cfg op) Ordered fun _ ↦ True := by
  cases op with
  | addOrUpdateOnLinkPrefix p l i t => exact h.addOrUpdatePrefix hsort ..
  | addOrUpdateOwnAdvPrefix p l i t => exact h.addOrUpdatePrefix hsort ..
  | removeOnLinkPrefix p l => exact h.of_sublist rfl List.eraseP_sublist
  | addStaticRoute p l i n m => exact h.addRoute hsort _
  | addDefaultRoute n i t => exact h.addRoute hsort _
  | addRoutingProtocolRoute route =>
    apply Outcome.ite
    · intro _
      exact h.addRoute hsort route
    · intro _
      trivial
  | removeRoute id =>
    apply Outcome.ite
    · intro _
      exact h.of_sublist rfl List.eraseP_sublist
    · intro _
      trivial
  | purgeDestCache => exact h.of_sublist rfl (List.Sublist.refl _)
  | purgeDestCacheEntriesToNeighbour n i => exact h.of_sublist rfl (List.Sublist.refl _)
  | routePacket dest => exact (h.routePacket dest).map
  | advance simTime => exact h.of_sublist rfl (List.Sublist.refl _)

theorem Ordered.tableStep (hsort : Sorts cfg) (h : s.Ordered) (op : TableOperation) :
    Outcome (tableStep cfg s op) Ordered fun _ ↦ True := by
  cases op with
  | operation op => exact h.step hsort op
  | setMetric id metric =>
    apply h.modifyFirst
    · intro r
      rfl
    · intro r
      rfl
    · intro r
      rfl
  | doLongestPrefixMatch dest => exact (h.doLongestPrefixMatch dest).map

theorem Built.ordered (hsort : Sorts cfg) (h : Built cfg s) : s.Ordered := by
  have hstart (s : RoutingTable6) (hs : s.Started) : s.Ordered := by
    constructor
    · rw [hs.routeList]
      exact List.Pairwise.nil
    · rw [hs.routeList]
      exact List.nodup_nil
    · rw [hs.routeList]
      exact nofun
  exact (h.outcome hstart fun s op hs _ ↦ hs.tableStep hsort op).1

/-! ## The search -/

/-- A usable route, and none that is usable has a longer prefix, or one as long and a smaller
metric. -/
structure Best (s : RoutingTable6) (dest : IPv6Address) (r : IPv6Route) : Prop where
  mem : r ∈ s.routeList
  matchesDest : r.matchesDest dest = true
  unexpired : r.expired s.simTime = false
  longest : ∀ b ∈ s.routeList, usable s.simTime dest b = true → b.length ≤ r.length
  cheapest : ∀ b ∈ s.routeList, usable s.simTime dest b = true → b.length = r.length →
    r.metric ≤ b.metric

/-- What a search is for. It ends, finds the best route if there is a usable one, takes the expired
routes that it meets out of the table and no other, and looks at each route on its way once. -/
structure Search (s : RoutingTable6) (dest : IPv6Address) (out : Option IPv6Route)
    (left : List IPv6Route) : Prop where
  ends : ∀ fuel, s.routeList.length < fuel →
    scan s.simTime dest fuel 0 s.routeList = .ok (out, left)
  found : ∀ r, out = some r → s.Best dest r
  none_iff : out = none ↔ ∀ r ∈ s.routeList, usable s.simTime dest r = false
  removed : left = (passed s.simTime dest s.routeList).filter (fun r ↦ !r.matchesDest dest) ++
    remaining s.simTime dest s.routeList
  visited : visits s.simTime dest (s.routeList.length + 1) 0 s.routeList =
    passed s.simTime dest s.routeList ++ (remaining s.simTime dest s.routeList).head?.toList

/-- The search for this destination does what it is for. -/
def Searches (s : RoutingTable6) (dest : IPv6Address) : Prop :=
  ∃ out left, s.doLongestPrefixMatch dest = .ok (out, { s with routeList := left }) ∧
    s.Search dest out left

/-- The first route that matches, if there is one, has not expired. -/
def FirstMatchUnexpired (s : RoutingTable6) (dest : IPv6Address) : Prop :=
  ∀ r, s.routeList.find? (·.matchesDest dest) = some r → r.expired s.simTime = false

theorem unexpired_iff_passed : (∀ r, routes.find? (·.matchesDest dest) = some r →
    r.expired simTime = false) ↔ ∀ r ∈ passed simTime dest routes, r.matchesDest dest = false := by
  induction routes with
  | nil => exact ⟨nofun, nofun⟩
  | cons r routes ih =>
    cases hmatch : r.matchesDest dest with
    | false =>
      have husable : usable simTime dest r = false := by simp [usable, hmatch]
      rw [List.find?_cons_of_neg (by simp [hmatch]), passed_cons_of_not_usable husable,
        List.forall_mem_cons, ih]
      exact (and_iff_right hmatch).symm
    | true =>
      have hfind : (r :: routes).find? (·.matchesDest dest) = some r := List.find?_cons_of_pos hmatch
      rw [hfind]
      cases hexpired : r.expired simTime with
      | false =>
        have husable : usable simTime dest r = true := by simp [usable, hmatch, hexpired]
        rw [passed_cons_of_usable husable]
        simp [hexpired]
      | true =>
        have husable : usable simTime dest r = false := by simp [usable, hexpired]
        rw [passed_cons_of_not_usable husable]
        simp [hmatch, hexpired]

theorem remaining_eq_nil_iff :
    remaining simTime dest routes = [] ↔ ∀ r ∈ routes, usable simTime dest r = false := by
  unfold remaining
  rw [List.dropWhile_eq_nil_iff]
  simp

/-- In a sorted table the first usable route is the best one. -/
theorem Ordered.best (h : s.Ordered) {r : IPv6Route}
    (hr : s.routeList.find? (usable s.simTime dest) = some r) : s.Best dest r := by
  have husable := List.find?_some hr
  unfold usable at husable
  rw [Bool.and_eq_true, Bool.not_eq_true'] at husable
  have hless (b : IPv6Route) (hb : b ∈ s.routeList) (hb' : usable s.simTime dest b = true) :
      routeLessThan b r = false := by
    obtain ⟨c, _, hc, _, hless⟩ := find?_sorted h.sorted hb hb'
    rw [hr, Option.some.injEq] at hc
    rw [hc]
    exact hless
  constructor
  · exact List.mem_of_find?_eq_some hr
  · exact husable.1
  · exact husable.2
  · intro b hb hb'
    exact length_le_of_not_less (hless b hb hb')
  · intro b hb hb' hlength
    have hbr := hless b hb hb'
    unfold routeLessThan at hbr
    rw [if_neg (not_not.mpr hlength)] at hbr
    simpa using hbr

theorem Ordered.searches (h : s.Ordered) (hfirst : s.FirstMatchUnexpired dest) :
    s.Searches dest := by
  have hpassed : ∀ r ∈ passed s.simTime dest s.routeList, r.matchesDest dest = false :=
    unexpired_iff_passed.mp hfirst
  have hundisturbed : Undisturbed s.simTime dest s.routeList := by
    intro r hr hmatch
    rw [hpassed r hr] at hmatch
    cases hmatch
  refine ⟨s.routeList.find? (usable s.simTime dest), s.routeList,
    doLongestPrefixMatch_eq hundisturbed, ?_⟩
  constructor
  · intro fuel hfuel
    exact scan_eq (List.nil_append _).symm nofun hundisturbed hfuel
  · intro r hr
    exact h.best hr
  · rw [List.find?_eq_none]
    simp
  · have hkeep : (passed s.simTime dest s.routeList).filter (fun r ↦ !r.matchesDest dest) =
        passed s.simTime dest s.routeList := by
      apply List.filter_eq_self.mpr
      intro r hr
      rw [hpassed r hr]
      rfl
    rw [hkeep, passed_append_remaining]
  · exact visits_eq (List.nil_append _).symm hpassed (Nat.lt_succ_self _)

/-- In a search that does what it is for, the steps of the loop are the places of the table. An expired
route that is taken out leaves one place less. -/
theorem Search.passed_length_le (h : s.Ordered) {out : Option IPv6Route} {left : List IPv6Route}
    (hsearch : s.Search dest out left) : (passed s.simTime dest s.routeList).length ≤
      ((passed s.simTime dest s.routeList).filter fun r ↦ !r.matchesDest dest).length := by
  have hscan := hsearch.ends _ (Nat.lt_succ_self _)
  have hvisited := hsearch.visited
  have hremoved := hsearch.removed
  cases out with
  | none =>
    have hnil : remaining s.simTime dest s.routeList = [] :=
      remaining_eq_nil_iff.mpr (hsearch.none_iff.mp rfl)
    rw [hnil, List.append_nil] at hremoved
    rw [hnil, List.head?_nil, Option.toList_none, List.append_nil] at hvisited
    have hcount := visits_of_scan_none (Nat.lt_succ_self _) (Nat.succ_pos _) hscan
    rw [hvisited, hremoved, Nat.zero_add] at hcount
    exact hcount.le
  | some r =>
    obtain ⟨front, hfront, hget⟩ := visits_of_scan_some hscan
    rw [Nat.zero_add] at hget
    rw [hvisited] at hfront
    cases hremaining : remaining s.simTime dest s.routeList with
    | nil =>
      have hout := hsearch.none_iff.mpr (remaining_eq_nil_iff.mp hremaining)
      cases hout
    | cons d rest =>
      rw [hremaining, List.head?_cons, Option.toList_some] at hfront
      obtain ⟨rfl, hd⟩ := List.append_inj' hfront rfl
      rw [List.singleton_inj] at hd
      subst hd
      rw [hremaining] at hremoved
      have hnodup : left.Nodup := by
        apply List.Nodup.of_map (·.id)
        exact h.nodup.sublist ((scan_sublist hscan).map _)
      have hplace : left[((passed s.simTime dest s.routeList).filter
          fun r ↦ !r.matchesDest dest).length]? = some d := by
        rw [hremoved, List.getElem?_append_right (Nat.le_refl _)]
        simp
      -- the route that is found stands in one place only
      apply Nat.le_of_eq
      have hlt := (List.getElem?_eq_some_iff.mp hget).1
      exact (List.getElem?_inj hlt hnodup).mp (hget.trans hplace.symm)

theorem Searches.firstMatchUnexpired (h : s.Ordered) (hsearches : s.Searches dest) :
    s.FirstMatchUnexpired dest := by
  obtain ⟨out, left, _, hsearch⟩ := hsearches
  apply unexpired_iff_passed.mpr
  have hsame : (passed s.simTime dest s.routeList).filter (fun r ↦ !r.matchesDest dest) =
      passed s.simTime dest s.routeList :=
    List.filter_sublist.eq_of_length_le (hsearch.passed_length_le h)
  intro r hr
  simpa using List.filter_eq_self.mp hsame r hr

/-- In every table that a run can reach, the search does what it is for exactly if the first route
that matches has not expired. -/
theorem longestPrefixMatch_iff (hsort : Sorts cfg) (h : Built cfg s) (dest : IPv6Address) :
    s.Searches dest ↔ s.FirstMatchUnexpired dest := by
  have hs : s.Ordered := h.ordered hsort
  exact ⟨fun hsearches ↦ hsearches.firstMatchUnexpired hs, hs.searches⟩

/-- An on-link prefix with a lifetime, a default route, and the time when the lifetime is over. -/
def expiredPrefix : List TableOperation :=
  [.operation (.addOrUpdateOnLinkPrefix 0x20010db8000000000000000000000000 64 1 5),
    .operation (.addDefaultRoute 0xfe800000000000000000000000000001 1 0),
    .operation (.advance 10)]

/-- Before the lifetime is over the prefix is found. -/
def livePrefix : List TableOperation := expiredPrefix.take 2

theorem built_of_run {ops : List TableOperation}
    (h : run (tableStep twoInterfaces) newTable6 ops = .ok s) : Built twoInterfaces s := by
  have hstart : Built twoInterfaces newTable6 := .start ⟨rfl, fun _ ↦ rfl⟩
  have hadmits (s : RoutingTable6) :
      admits (fun _ _ ↦ True) (tableStep twoInterfaces) s ops = true := by
    clear h
    induction ops generalizing s with
    | nil => rfl
    | cons op ops ih =>
      unfold admits
      cases tableStep twoInterfaces s op with
      | error e => rfl
      | ok s => simp [ih]
  exact Reachable.of_run hstart ops (hadmits newTable6) h

instance (s : RoutingTable6) (dest : IPv6Address) : Decidable (s.FirstMatchUnexpired dest) :=
  match h : s.routeList.find? (·.matchesDest dest) with
  | none => isTrue fun r hr ↦ by rw [h] at hr; cases hr
  | some r => decidable_of_iff (r.expired s.simTime = false) (by
      unfold FirstMatchUnexpired
      rw [h]
      simp)

theorem longestPrefixMatch_live : ∃ s,
    run (tableStep twoInterfaces) newTable6 livePrefix = .ok s ∧ s.routeList.length = 2 ∧
    (s.Searches documentationHost ↔ s.FirstMatchUnexpired documentationHost) ∧
    s.FirstMatchUnexpired documentationHost := by
  obtain ⟨s, hrun, hcheck⟩ := exists_ok (run (tableStep twoInterfaces) newTable6 livePrefix)
    (fun s ↦ s.routeList.length = 2 ∧ s.FirstMatchUnexpired documentationHost) (by decide +kernel)
  obtain ⟨hlength, hfirst⟩ := hcheck
  exact ⟨s, hrun, hlength,
    longestPrefixMatch_iff sorts_twoInterfaces (built_of_run hrun) documentationHost, hfirst⟩

/-- When the prefix has expired, the default route moves up to its position and is passed over: the
search finds no route. -/
theorem not_searches :
    ¬ ∀ cfg s, Sorts cfg → Built cfg s → ∀ dest, s.Searches dest := by
  intro h
  obtain ⟨s, hrun, hcheck⟩ := exists_ok (run (tableStep twoInterfaces) newTable6 expiredPrefix)
    (fun s ↦ (∃ r ∈ s.routeList, usable s.simTime documentationHost r = true) ∧ (scan s.simTime
      documentationHost (s.routeList.length + 1) 0 s.routeList).map Prod.fst = .ok none)
    (by decide +kernel)
  obtain ⟨⟨r, hr, husable⟩, hscan⟩ := hcheck
  obtain ⟨out, left, _, hsearch⟩ :=
    h twoInterfaces s sorts_twoInterfaces (built_of_run hrun) documentationHost
  rw [hsearch.ends _ (Nat.lt_succ_self _)] at hscan
  cases hscan
  rw [hsearch.none_iff.mp rfl r hr] at husable
  cases husable

end RoutingTable6

end InetManet
