import InetManet.Network.RoutingTable6
import Mathlib.Data.List.Sort

/-!
# The IPv6 destination cache

What the cache holds for a destination is the hop of the first usable route of the table. No change of
the table purges the cache, so this lasts only as long as no change concerns a destination that is in
the cache, and a search finds the route only as long as it does not remove one on the way.
-/

namespace InetManet

open TransitionSystem

namespace RoutingTable6

variable {cfg : Config} {s : RoutingTable6} {dest : IPv6Address} {simTime : ℚ}

/-- The route matches the destination and has not expired. -/
def usable (simTime : ℚ) (dest : IPv6Address) (route : IPv6Route) : Bool :=
  route.matchesDest dest && !route.expired simTime

/-- The hop of the first usable route. -/
def firstHop (simTime : ℚ) (dest : IPv6Address) (routes : List IPv6Route) : Option DestCacheEntry :=
  (routes.find? (usable simTime dest)).map (hop dest)

/-- What the cache holds is where the first usable route leads. -/
def Coherent (s : RoutingTable6) : Prop :=
  ∀ dest entry, s.destCache dest = some entry → firstHop s.simTime dest s.routeList = some entry

/-- What the sort of the standard library guarantees; the order of equivalent routes is not
specified. -/
def Sorts (cfg : Config) : Prop :=
  ∀ l, (cfg.sort l).Perm l ∧ (cfg.sort l).Pairwise fun a b ↦ routeLessThan b a = false

/-- What every run keeps. -/
structure Inv (s : RoutingTable6) : Prop where
  coherent : s.Coherent
  sorted : s.routeList.Pairwise fun a b ↦ routeLessThan b a = false

/-! ## Searches -/

/-- No route that the search passes has an on-link route for the same prefix in the table, so that
nothing is removed on the way. -/
def Undisturbed (simTime : ℚ) (dest : IPv6Address) (routes : List IPv6Route) : Prop :=
  ∀ r ∈ routes.takeWhile (fun r ↦ !usable simTime dest r), r.matchesDest dest = true →
    ∀ r' ∈ routes, r'.isPrefix .fromRA r.destPrefix r.length = false

theorem usable_eq_false {r : IPv6Route} : usable simTime dest r = false ↔
    (r.matchesDest dest = true → r.expired simTime = true) := by
  unfold usable
  cases r.matchesDest dest with
  | false => simp
  | true => simp

/-- Where nothing is removed on the way, the search ends at the first usable route. -/
theorem scan_eq {routes done rest : List IPv6Route} (hroutes : routes = done ++ rest)
    (hdone : ∀ r ∈ done, usable simTime dest r = false) (h : Undisturbed simTime dest routes)
    {fuel : ℕ} (hfuel : rest.length < fuel) :
    scan simTime dest fuel done.length routes =
      .ok (rest.find? (usable simTime dest), routes) := by
  induction rest generalizing done fuel with
  | nil =>
    cases fuel with
    | zero => cases hfuel
    | succ fuel =>
      rw [List.append_nil] at hroutes
      rw [scan, hroutes, if_pos rfl]
      rfl
  | cons r rest ih =>
    cases fuel with
    | zero => cases hfuel
    | succ fuel =>
      have hlength : done.length ≠ routes.length := by
        rw [hroutes, List.length_append, List.length_cons]
        omega
      have hget : routes[done.length]? = some r := by
        rw [hroutes]
        simp
      have hnext (hr : usable simTime dest r = false) :
          scan simTime dest fuel (done.length + 1) routes =
            .ok ((r :: rest).find? (usable simTime dest), routes) := by
        have hlength' : (done ++ [r]).length = done.length + 1 := by simp
        rw [← hlength', List.find?_cons_of_neg (by simp [hr])]
        apply ih
        · simp [hroutes]
        · intro r' hr'
          rcases List.mem_append.mp hr' with hr' | hr'
          · exact hdone r' hr'
          · rw [List.mem_singleton.mp hr']
            exact hr
        · exact Nat.lt_of_succ_lt_succ hfuel
      rw [scan, if_neg hlength, hget]
      dsimp only
      split
      · rename_i hmatch
        split
        · rename_i hexpired
          have hr : usable simTime dest r = false := usable_eq_false.mpr fun _ ↦ hexpired
          have hpassed : r ∈ routes.takeWhile fun r ↦ !usable simTime dest r := by
            rw [hroutes, List.takeWhile_append_of_pos (by simpa using hdone),
              List.takeWhile_cons_of_pos (by simp [hr])]
            simp
          have hsame : eraseOnLinkPrefix routes r.destPrefix r.length = routes := by
            apply List.eraseP_of_forall_not
            intro r' hr'
            rw [h r hpassed hmatch r' hr']
            exact Bool.false_ne_true
          rw [hsame]
          exact hnext hr
        · rename_i hexpired
          have hr : usable simTime dest r = true := by
            simp [usable, hmatch, hexpired]
          rw [List.find?_cons_of_pos hr]
      · rename_i hmatch
        exact hnext (usable_eq_false.mpr fun hm ↦ absurd hm hmatch)

theorem doLongestPrefixMatch_eq (h : Undisturbed s.simTime dest s.routeList) :
    s.doLongestPrefixMatch dest = .ok (s.routeList.find? (usable s.simTime dest), s) := by
  have hnone : ∀ r ∈ ([] : List IPv6Route), usable s.simTime dest r = false := nofun
  have hscan : scan s.simTime dest (s.routeList.length + 1) ([] : List IPv6Route).length
      s.routeList = .ok (s.routeList.find? (usable s.simTime dest), s.routeList) :=
    scan_eq (List.nil_append _).symm hnone h (Nat.lt_succ_self _)
  unfold doLongestPrefixMatch
  rw [List.length_nil] at hscan
  rw [hscan]
  rfl

theorem routeLessThan_irrefl (r : IPv6Route) : routeLessThan r r = false := by
  simp [routeLessThan]

/-- In a sorted list no route that qualifies comes before the one that is found. -/
theorem find?_sorted {l : List IPv6Route} {p : IPv6Route → Bool} {b : IPv6Route}
    (hl : l.Pairwise fun a b ↦ routeLessThan b a = false) (hb : b ∈ l) (hp : p b = true) :
    ∃ c ∈ l, l.find? p = some c ∧ p c = true ∧ routeLessThan b c = false := by
  induction l with
  | nil => cases hb
  | cons r l ih =>
    obtain ⟨hr, hl⟩ := List.pairwise_cons.mp hl
    by_cases hpr : p r = true
    · refine ⟨r, List.mem_cons_self, List.find?_cons_of_pos hpr, hpr, ?_⟩
      rcases List.mem_cons.mp hb with rfl | hb
      · exact routeLessThan_irrefl b
      · exact hr b hb
    · rcases List.mem_cons.mp hb with rfl | hb
      · exact absurd hp hpr
      · obtain ⟨c, hc, hfind, hpc, hless⟩ := ih hl hb
        refine ⟨c, List.mem_cons_of_mem _ hc, ?_, hpc, hless⟩
        rw [List.find?_cons_of_neg hpr]
        exact hfind

theorem length_le_of_not_less {a b : IPv6Route} (h : routeLessThan a b = false) :
    a.length ≤ b.length := by
  unfold routeLessThan at h
  split at h
  · simpa using h
  · omega

/-! ## Changes of the table -/

variable {routes : List IPv6Route} {entry : DestCacheEntry} {key : IPv6Route → Bool}

theorem firstHop_cons_of_usable {r : IPv6Route} (h : usable simTime dest r = true) :
    firstHop simTime dest (r :: routes) = some (hop dest r) := by
  unfold firstHop
  rw [List.find?_cons_of_pos h]
  rfl

theorem firstHop_cons_of_not_usable {r : IPv6Route} (h : ¬ usable simTime dest r = true) :
    firstHop simTime dest (r :: routes) = firstHop simTime dest routes := by
  unfold firstHop
  rw [List.find?_cons_of_neg h]

/-- A route that is added does not get ahead of the one in use, and routes that the sort may put in
either order lead to the same hop. -/
def RouteUnnoticed (s : RoutingTable6) (route : IPv6Route) : Prop :=
  ∀ dest entry b, s.destCache dest = some entry →
    s.routeList.find? (usable s.simTime dest) = some b →
    ∀ r ∈ route :: s.routeList, usable s.simTime dest r = true →
      routeLessThan b r = true ∨ hop dest r = entry

theorem Inv.addRoute (hsort : Sorts cfg) (h : s.Inv) {route : IPv6Route}
    (hroute : s.RouteUnnoticed { route with id := s.fresh }) : (s.addRoute cfg route).Inv := by
  obtain ⟨hperm, hsorted⟩ := hsort (s.routeList ++ [{ route with id := s.fresh }])
  refine ⟨?_, hsorted⟩
  intro dest entry hcached
  have hfirst := h.coherent dest entry hcached
  obtain ⟨b, hb, rfl⟩ := Option.map_eq_some_iff.mp hfirst
  have hmem : b ∈ cfg.sort (s.routeList ++ [{ route with id := s.fresh }]) :=
    hperm.mem_iff.mpr (List.mem_append_left _ (List.mem_of_find?_eq_some hb))
  obtain ⟨c, hc, hfind, husable, hless⟩ :=
    find?_sorted hsorted hmem (List.find?_some hb)
  have hc' : c ∈ { route with id := s.fresh } :: s.routeList := by
    rw [hperm.mem_iff, List.mem_append, List.mem_singleton] at hc
    exact List.mem_cons.mpr hc.symm
  show ((cfg.sort _).find? (usable s.simTime dest)).map (hop dest) = _
  rw [hfind]
  rcases hroute dest _ b hcached hb c hc' husable with hlt | hhop
  · rw [hlt] at hless
    cases hless
  · rw [Option.map_some, hhop]

/-- The route that is changed comes behind a usable one, or it stays usable if it was, and leads to the
cached hop if it is. -/
def ChangeUnnoticed (s : RoutingTable6) (key : IPv6Route → Bool) (f : IPv6Route → IPv6Route) : Prop :=
  ∀ dest entry r, s.destCache dest = some entry → s.routeList.find? key = some r →
    (∃ a ∈ s.routeList.takeWhile (fun r ↦ !key r), usable s.simTime dest a = true) ∨
    ((usable s.simTime dest r = true → usable s.simTime dest (f r) = true) ∧
      (usable s.simTime dest (f r) = true → hop dest (f r) = entry))

theorem firstHop_modifyFirst {f : IPv6Route → IPv6Route}
    (h : firstHop simTime dest routes = some entry)
    (hf : ∀ r, routes.find? key = some r →
      (∃ a ∈ routes.takeWhile (fun r ↦ !key r), usable simTime dest a = true) ∨
      ((usable simTime dest r = true → usable simTime dest (f r) = true) ∧
        (usable simTime dest (f r) = true → hop dest (f r) = entry))) :
    firstHop simTime dest (modifyFirst key f routes) = some entry := by
  induction routes with
  | nil => exact h
  | cons r routes ih =>
    rw [modifyFirst]
    split
    · rename_i hkey
      have hcond := hf r (List.find?_cons_of_pos hkey)
      rw [List.takeWhile_cons_of_neg (by simp [hkey])] at hcond
      obtain ⟨hkeep, hhop⟩ := hcond.resolve_left (by simp)
      by_cases husable : usable simTime dest (f r) = true
      · rw [firstHop_cons_of_usable husable, hhop husable]
      · rw [firstHop_cons_of_not_usable husable]
        rwa [firstHop_cons_of_not_usable fun hr ↦ husable (hkeep hr)] at h
    · rename_i hkey
      by_cases husable : usable simTime dest r = true
      · rw [firstHop_cons_of_usable husable] at h ⊢
        exact h
      · rw [firstHop_cons_of_not_usable husable] at h ⊢
        apply ih h
        intro r' hr'
        have hcond := hf r' (by rw [List.find?_cons_of_neg hkey]; exact hr')
        rw [List.takeWhile_cons_of_pos (by simp [hkey])] at hcond
        apply hcond.imp_left
        rintro ⟨a, ha, hausable⟩
        rcases List.mem_cons.mp ha with rfl | ha
        · exact absurd hausable husable
        · exact ⟨a, ha, hausable⟩

theorem mem_modifyFirst {f : IPv6Route → IPv6Route} {r : IPv6Route}
    (h : r ∈ modifyFirst key f routes) : r ∈ routes ∨ ∃ r' ∈ routes, r = f r' := by
  induction routes with
  | nil => cases h
  | cons r' routes ih =>
    rw [modifyFirst] at h
    split at h
    · rcases List.mem_cons.mp h with rfl | h
      · exact .inr ⟨r', List.mem_cons_self, rfl⟩
      · exact .inl (List.mem_cons_of_mem _ h)
    · rcases List.mem_cons.mp h with rfl | h
      · exact .inl List.mem_cons_self
      · rcases ih h with hmem | ⟨x, hx, heq⟩
        · exact .inl (List.mem_cons_of_mem _ hmem)
        · exact .inr ⟨x, List.mem_cons_of_mem _ hx, heq⟩

theorem sorted_modifyFirst {f : IPv6Route → IPv6Route}
    (h : routes.Pairwise fun a b ↦ routeLessThan b a = false)
    (hleft : ∀ a b, routeLessThan (f a) b = routeLessThan a b)
    (hright : ∀ a b, routeLessThan a (f b) = routeLessThan a b) :
    (modifyFirst key f routes).Pairwise fun a b ↦ routeLessThan b a = false := by
  induction routes with
  | nil => exact h
  | cons r routes ih =>
    obtain ⟨hr, hroutes⟩ := List.pairwise_cons.mp h
    rw [modifyFirst]
    split
    · rw [List.pairwise_cons]
      refine ⟨?_, hroutes⟩
      intro b hb
      rw [hright]
      exact hr b hb
    · rw [List.pairwise_cons]
      refine ⟨?_, ih hroutes⟩
      intro b hb
      rcases mem_modifyFirst hb with hb | ⟨b', hb', rfl⟩
      · exact hr b hb
      · rw [hleft]
        exact hr b' hb'

/-- The change of a prefix that is there goes unnoticed, or the new route does. -/
def PrefixUnnoticed (s : RoutingTable6) (src : RouteSrc) (destPrefix : IPv6Address)
    (prefixLength : ℕ) (interfaceId : ℤ) (expiryTime : ℚ) : Prop :=
  if s.routeList.any (·.isPrefix src destPrefix prefixLength) then
    s.ChangeUnnoticed (·.isPrefix src destPrefix prefixLength)
      fun route ↦ { route with interfaceId, expiryTime }
  else
    s.RouteUnnoticed
      { id := s.fresh, destPrefix, length := prefixLength, src, interfaceId, expiryTime }

theorem Inv.addOrUpdatePrefix (hsort : Sorts cfg) (h : s.Inv) {src : RouteSrc}
    {destPrefix : IPv6Address} {prefixLength : ℕ} {interfaceId : ℤ} {expiryTime : ℚ}
    (hno : s.PrefixUnnoticed src destPrefix prefixLength interfaceId expiryTime) :
    (s.addOrUpdatePrefix cfg src destPrefix prefixLength interfaceId expiryTime).Inv := by
  unfold PrefixUnnoticed at hno
  unfold RoutingTable6.addOrUpdatePrefix
  split
  · rename_i hany
    rw [if_pos hany] at hno
    constructor
    · intro dest entry hcached
      apply firstHop_modifyFirst (h.coherent dest entry hcached)
      intro r hr
      exact hno dest entry r hcached hr
    · apply sorted_modifyFirst h.sorted
      · intro a b
        rfl
      · intro a b
        rfl
  · rename_i hany
    rw [if_neg hany] at hno
    exact h.addRoute hsort hno

/-- The route that is removed is not the one in use for a cached destination. -/
def RemovalUnnoticed (s : RoutingTable6) (key : IPv6Route → Bool) : Prop :=
  ∀ dest entry r, s.destCache dest = some entry → s.routeList.find? key = some r →
    (∃ a ∈ s.routeList.takeWhile (fun r ↦ !key r), usable s.simTime dest a = true) ∨
      usable s.simTime dest r = false

theorem firstHop_eraseP (h : firstHop simTime dest routes = some entry)
    (hkey : ∀ r, routes.find? key = some r →
      (∃ a ∈ routes.takeWhile (fun r ↦ !key r), usable simTime dest a = true) ∨
        usable simTime dest r = false) :
    firstHop simTime dest (routes.eraseP key) = some entry := by
  induction routes with
  | nil => exact h
  | cons r routes ih =>
    by_cases hr : key r = true
    · have hcond := hkey r (List.find?_cons_of_pos hr)
      rw [List.takeWhile_cons_of_neg (by simp [hr])] at hcond
      have hnot := hcond.resolve_left (by simp)
      rw [List.eraseP_cons_of_pos hr]
      rwa [firstHop_cons_of_not_usable (by simp [hnot])] at h
    · rw [List.eraseP_cons_of_neg hr]
      by_cases husable : usable simTime dest r = true
      · rw [firstHop_cons_of_usable husable] at h ⊢
        exact h
      · rw [firstHop_cons_of_not_usable husable] at h ⊢
        apply ih h
        intro r' hr'
        have hcond := hkey r' (by rw [List.find?_cons_of_neg hr]; exact hr')
        rw [List.takeWhile_cons_of_pos (by simp [hr])] at hcond
        apply hcond.imp_left
        rintro ⟨a, ha, hausable⟩
        rcases List.mem_cons.mp ha with rfl | ha
        · exact absurd hausable husable
        · exact ⟨a, ha, hausable⟩

theorem Inv.eraseP (h : s.Inv) (hno : s.RemovalUnnoticed key) :
    ({ s with routeList := s.routeList.eraseP key } : RoutingTable6).Inv := by
  constructor
  · intro dest entry hcached
    apply firstHop_eraseP (h.coherent dest entry hcached)
    intro r hr
    exact hno dest entry r hcached hr
  · exact h.sorted.sublist List.eraseP_sublist

theorem expired_mono {r : IPv6Route} {now : ℚ} (hle : now ≤ simTime) (h : r.expired now = true) :
    r.expired simTime = true := by
  unfold IPv6Route.expired at *
  rw [Bool.and_eq_true, decide_eq_true_eq] at *
  exact ⟨h.1.trans_le hle, h.2⟩

/-- A route that was passed over is passed over later too. -/
theorem find?_later {now : ℚ} {b : IPv6Route} (hle : now ≤ simTime)
    (h : routes.find? (usable now dest) = some b) (hb : b.expired simTime = false) :
    routes.find? (usable simTime dest) = some b := by
  induction routes with
  | nil => cases h
  | cons r routes ih =>
    by_cases husable : usable now dest r = true
    · rw [List.find?_cons_of_pos husable] at h
      cases h
      rw [List.find?_cons_of_pos]
      unfold usable at *
      rw [Bool.and_eq_true] at husable ⊢
      exact ⟨husable.1, by simp [hb]⟩
    · rw [List.find?_cons_of_neg husable] at h
      rw [List.find?_cons_of_neg]
      · exact ih h
      · rw [Bool.not_eq_true, usable_eq_false] at husable ⊢
        intro hmatch
        exact expired_mono hle (husable hmatch)

/-! ## Datagrams -/

theorem Inv.checkHop {e : DestCacheEntry} {t : RoutingTable6} (h : t.Inv)
    {x : Option DestCacheEntry} :
    Outcome (do RoutingTable6.checkHop cfg e; return (x, t) :
      Except Fault (Option DestCacheEntry × RoutingTable6)) (fun x ↦ x.2.Inv) fun _ ↦ True := by
  unfold RoutingTable6.checkHop
  split
  · exact h
  · trivial

theorem Inv.updateDestCache (h : s.Inv)
    (hfirst : firstHop s.simTime dest s.routeList = some entry) :
    (s.updateDestCache dest entry).Inv := by
  refine ⟨?_, h.sorted⟩
  intro dest' entry' hcached
  unfold RoutingTable6.updateDestCache at hcached
  dsimp only at hcached
  by_cases hdest : dest' = dest
  · subst hdest
    rw [Function.update_self, Option.some.injEq] at hcached
    rw [← hcached]
    exact hfirst
  · rw [Function.update_of_ne hdest] at hcached
    exact h.coherent dest' entry' hcached

theorem Inv.routePacket (h : s.Inv) (hdest : Undisturbed s.simTime dest s.routeList) :
    Outcome (s.routePacket cfg dest) (fun x ↦ x.2.Inv) fun _ ↦ True := by
  unfold RoutingTable6.routePacket
  split
  · exact h.checkHop
  · rw [doLongestPrefixMatch_eq hdest, ok_bind]
    dsimp only
    split
    · exact h
    · rename_i route hroute
      apply Inv.checkHop
      apply h.updateDestCache
      unfold firstHop
      rw [hroute]
      rfl

/-- The hop for a datagram when the cache is not asked. -/
def searchHop (cfg : Config) (s : RoutingTable6) (dest : IPv6Address) :
    Except Fault (Option DestCacheEntry) :=
  match firstHop s.simTime dest s.routeList with
  | none => .ok none
  | some entry => do
    checkHop cfg entry
    return some entry

/-- With a coherent cache a datagram goes where the first usable route leads. -/
theorem Coherent.fst_routePacket (h : s.Coherent)
    (hdest : Undisturbed s.simTime dest s.routeList) :
    Prod.fst <$> s.routePacket cfg dest = searchHop cfg s dest := by
  unfold RoutingTable6.routePacket searchHop
  cases hlookup : s.lookupDestCache dest with
  | some entry =>
    obtain ⟨hcached, _⟩ := Option.filter_eq_some_iff.mp hlookup
    rw [h dest entry hcached]
    dsimp only
    cases RoutingTable6.checkHop cfg entry with
    | error e => rfl
    | ok u => rfl
  | none =>
    dsimp only
    rw [doLongestPrefixMatch_eq hdest, ok_bind]
    unfold firstHop
    cases s.routeList.find? (usable s.simTime dest) with
    | none => rfl
    | some route =>
      dsimp only [Option.map_some]
      cases RoutingTable6.checkHop cfg (hop dest route) with
      | error e => rfl
      | ok u => rfl

/-! ## Runs -/

/-- An empty table. -/
structure Started (s : RoutingTable6) : Prop where
  routeList : s.routeList = []
  destCache : ∀ dest, s.destCache dest = none

/-- No change concerns a destination that is in the cache, and no search removes a route on the way. -/
def Allowed (s : RoutingTable6) : Operation → Prop
  | .addOrUpdateOnLinkPrefix p l i t => s.PrefixUnnoticed .fromRA p l i t
  | .addOrUpdateOwnAdvPrefix p l i t => s.PrefixUnnoticed .ownAdvPrefix p l i t
  | .removeOnLinkPrefix p l => s.RemovalUnnoticed (·.isPrefix .fromRA p l)
  | .addStaticRoute p l i n _ => s.RouteUnnoticed
      { id := s.fresh, destPrefix := p, length := l, src := .static, interfaceId := i, nextHop := n }
  | .addDefaultRoute n i _ => s.RouteUnnoticed
      { id := s.fresh, destPrefix := 0, length := 0, src := .fromRA, interfaceId := i, nextHop := n }
  | .addRoutingProtocolRoute route => s.RouteUnnoticed { route with id := s.fresh }
  | .removeRoute id => s.RemovalUnnoticed (·.id == id)
  | .purgeDestCache => True
  | .purgeDestCacheEntriesToNeighbour _ _ => True
  | .routePacket dest => Undisturbed s.simTime dest s.routeList
  | .advance simTime => s.simTime ≤ simTime ∧ ∀ dest entry b, s.destCache dest = some entry →
      s.routeList.find? (usable s.simTime dest) = some b → b.expired simTime = false

theorem Inv.step (hsort : Sorts cfg) (h : s.Inv) (op : Operation) (hop : s.Allowed op) :
    Outcome (s.step cfg op) Inv fun _ ↦ True := by
  cases op with
  | addOrUpdateOnLinkPrefix p l i t => exact h.addOrUpdatePrefix hsort hop
  | addOrUpdateOwnAdvPrefix p l i t => exact h.addOrUpdatePrefix hsort hop
  | removeOnLinkPrefix p l => exact h.eraseP hop
  | addStaticRoute p l i n m => exact h.addRoute hsort hop
  | addDefaultRoute n i t => exact h.addRoute hsort hop
  | addRoutingProtocolRoute route =>
    unfold RoutingTable6.step RoutingTable6.addRoutingProtocolRoute
    apply Outcome.ite
    · intro _
      exact h.addRoute hsort hop
    · intro _
      trivial
  | removeRoute id =>
    unfold RoutingTable6.step RoutingTable6.removeRoute
    apply Outcome.ite
    · intro _
      exact h.eraseP hop
    · intro _
      trivial
  | purgeDestCache => exact ⟨nofun, h.sorted⟩
  | purgeDestCacheEntriesToNeighbour n i =>
    refine ⟨?_, h.sorted⟩
    intro dest entry hcached
    exact h.coherent dest entry (Option.filter_eq_some_iff.mp hcached).1
  | routePacket dest => exact (h.routePacket hop).map
  | advance simTime =>
    refine ⟨?_, h.sorted⟩
    intro dest entry hcached
    obtain ⟨b, hb, hentry⟩ := Option.map_eq_some_iff.mp (h.coherent dest entry hcached)
    show (s.routeList.find? (usable simTime dest)).map (RoutingTable6.hop dest) = some entry
    rw [find?_later hop.1 hb (hop.2 dest entry b hcached hb), Option.map_some, hentry]

theorem Started.inv (h : s.Started) : s.Inv := by
  constructor
  · intro dest entry hcached
    rw [h.destCache dest] at hcached
    cases hcached
  · rw [h.routeList]
    exact List.Pairwise.nil

/-- In every run of this kind a datagram goes where it would go with an empty cache, by a route that is
in the table, has not expired and has the longest prefix of those that match. -/
theorem destination_cache_coherence (hsort : Sorts cfg)
    (h : Reachable Started Allowed (step cfg) s) (dest : IPv6Address)
    (hdest : s.Allowed (.routePacket dest)) :
    Prod.fst <$> s.routePacket cfg dest = Prod.fst <$> s.purgeDestCache.routePacket cfg dest ∧
    ∀ entry, Prod.fst <$> s.routePacket cfg dest = .ok (some entry) →
      ∃ r ∈ s.routeList, r.matchesDest dest = true ∧ r.expired s.simTime = false ∧
        entry = hop dest r ∧ ∀ r' ∈ s.routeList, r'.matchesDest dest = true →
          r'.expired s.simTime = false → r'.length ≤ r.length := by
  have hs : s.Inv := (h.outcome (fun _ ↦ Started.inv) fun _ op hs hop ↦ hs.step hsort op hop).1
  have hempty : s.purgeDestCache.Coherent := nofun
  have hempty' : Prod.fst <$> s.purgeDestCache.routePacket cfg dest = searchHop cfg s dest :=
    hempty.fst_routePacket hdest
  rw [hempty', hs.coherent.fst_routePacket hdest]
  refine ⟨rfl, ?_⟩
  intro entry hentry
  unfold searchHop at hentry
  cases hfirst : firstHop s.simTime dest s.routeList with
  | none =>
    rw [hfirst] at hentry
    cases hentry
  | some e =>
    rw [hfirst] at hentry
    obtain ⟨_, _, hreturn⟩ := bind_ok_iff.mp hentry
    cases hreturn
    obtain ⟨r, hr, rfl⟩ := Option.map_eq_some_iff.mp hfirst
    have husable := List.find?_some hr
    unfold usable at husable
    rw [Bool.and_eq_true, Bool.not_eq_true'] at husable
    refine ⟨r, List.mem_of_find?_eq_some hr, husable.1, husable.2, rfl, ?_⟩
    intro r' hr' hmatch hexpired
    have husable' : usable s.simTime dest r' = true := by
      simp [usable, hmatch, hexpired]
    obtain ⟨c, _, hc, _, hless⟩ := find?_sorted hs.sorted hr' husable'
    rw [hr, Option.some.injEq] at hc
    rw [hc]
    exact length_le_of_not_less hless

/-- Insertion sort, and two interfaces. -/
def twoInterfaces : Config where
  sort := List.insertionSort fun a b ↦ routeLessThan b a = false
  hasInterface i := i == 1 || i == 2

theorem sorts_twoInterfaces : Sorts twoInterfaces := by
  have htotal : Std.Total fun a b : IPv6Route ↦ routeLessThan b a = false := by
    constructor
    intro a b
    simp only [routeLessThan]
    split
    · split
      · simp
        omega
      · omega
    · split
      · omega
      · simp
        omega
  have htrans : IsTrans IPv6Route fun a b ↦ routeLessThan b a = false := by
    constructor
    intro a b c hab hbc
    simp only [routeLessThan] at *
    split at hab
    · split at hbc
      · split
        · simp at *
          omega
        · simp at *
          omega
      · split
        · simp at *
          omega
        · omega
    · split at hbc
      · split
        · simp at *
          omega
        · omega
      · split
        · omega
        · simp at *
          omega
  intro l
  exact ⟨List.perm_insertionSort _ l, List.pairwise_insertionSort _ l⟩

instance (simTime : ℚ) (dest : IPv6Address) (routes : List IPv6Route) :
    Decidable (Undisturbed simTime dest routes) :=
  inferInstanceAs (Decidable (∀ r ∈ routes.takeWhile (fun r ↦ !usable simTime dest r),
    r.matchesDest dest = true → ∀ r' ∈ routes, r'.isPrefix .fromRA r.destPrefix r.length = false))

/-- No routes, and nothing cached. -/
def newTable6 : RoutingTable6 := ⟨0, 0, [], fun _ ↦ none⟩

/-- A host of the network 2001:db8::/32. -/
def documentationHost : IPv6Address := 0x20010db8000000000000000000000005

/-- A route to 2001:db8::/32, and then a datagram that goes by it. -/
def documentation : List Operation :=
  [.addStaticRoute 0x20010db8000000000000000000000000 32 1 0xfe800000000000000000000000000001 0,
    .routePacket documentationHost]

theorem destination_cache_coherence_documentation : ∃ s,
    run (step twoInterfaces) newTable6 documentation = .ok s ∧
    s.destCache documentationHost = some ⟨0xfe800000000000000000000000000001, 1⟩ ∧
    Prod.fst <$> s.routePacket twoInterfaces documentationHost =
      Prod.fst <$> s.purgeDestCache.routePacket twoInterfaces documentationHost := by
  obtain ⟨s, hrun, hcheck⟩ := exists_ok (run (step twoInterfaces) newTable6 documentation)
    (fun s ↦ Undisturbed s.simTime documentationHost s.routeList ∧ s.destCache documentationHost = some
      ⟨0xfe800000000000000000000000000001, 1⟩) (by decide +kernel)
  obtain ⟨hundisturbed, hcached⟩ := hcheck
  have hreach : Reachable Started Allowed (step twoInterfaces) s := by
    obtain ⟨s₁, h₁, hrun⟩ := bind_ok_iff.mp hrun
    obtain ⟨s₂, h₂, hrun⟩ := bind_ok_iff.mp hrun
    cases hrun
    have hstart : Reachable Started Allowed (step twoInterfaces) newTable6 :=
      .start ⟨rfl, fun _ ↦ rfl⟩
    have hfirst : Reachable Started Allowed (step twoInterfaces) s₁ := by
      refine hstart.next ?_ h₁
      exact nofun
    cases h₁
    refine hfirst.next ?_ h₂
    show Undisturbed _ _ _
    decide +kernel
  exact ⟨s, hrun, hcached,
    (destination_cache_coherence sorts_twoInterfaces hreach documentationHost hundisturbed).1⟩

/-- A longer prefix comes when the destination is in the cache already. -/
def longerPrefix : List Operation :=
  documentation ++
    [.addStaticRoute 0x20010db8000000000000000000000000 64 2 0xfe800000000000000000000000000002 0]

/-- The datagrams keep going by the shorter prefix. -/
theorem stale_destination : ∃ s, run (step twoInterfaces) newTable6 longerPrefix = .ok s ∧
    Prod.fst <$> s.routePacket twoInterfaces documentationHost =
      .ok (some ⟨0xfe800000000000000000000000000001, 1⟩) ∧
    Prod.fst <$> s.purgeDestCache.routePacket twoInterfaces documentationHost =
      .ok (some ⟨0xfe800000000000000000000000000002, 2⟩) := by
  obtain ⟨s, hrun, hcheck⟩ := exists_ok (run (step twoInterfaces) newTable6 longerPrefix)
    (fun s ↦ Prod.fst <$> s.routePacket twoInterfaces documentationHost = .ok (some
      ⟨0xfe800000000000000000000000000001, 1⟩) ∧ Prod.fst <$> s.purgeDestCache.routePacket twoInterfaces
      documentationHost = .ok (some ⟨0xfe800000000000000000000000000002, 2⟩)) (by decide +kernel)
  exact ⟨s, hrun, hcheck⟩

end RoutingTable6

end InetManet
