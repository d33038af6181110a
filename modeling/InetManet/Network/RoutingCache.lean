import InetManet.Library.Loops
import InetManet.Network.RoutingTable
import Mathlib.Control.Monad.Basic

/-!
# The routing cache

A cached route is the one that a search would find. Adding and deleting routes clears the cache;
changing metrics and flushing the table does not, which is harmless only as long as no destination with
a cached route is concerned.
-/

namespace InetManet

open TransitionSystem

namespace RoutingTable

variable {s s' : RoutingTable} {dest : IPAddress} {p : ℕ}

/-- What the cache holds, a search would find. -/
def Coherent (s : RoutingTable) : Prop :=
  ∀ dest p, s.routingCache dest = some (some p) → s.search dest = .ok (some p)

/-- No route is both a unicast and a multicast one, and new routes are new. -/
structure WellFormed (s : RoutingTable) : Prop where
  disjoint : ∀ p ∈ s.routes, p ∉ s.multicastRoutes
  old : ∀ p, p ∈ s.routes ∨ p ∈ s.multicastRoutes → p < s.fresh

/-! ## Searches -/

theorem outcome_findBest (s : RoutingTable) (isBetter : Option (ℕ × IPRoute) → IPRoute → Bool) :
    Outcome (s.findBest isBetter)
      (fun best ↦ ∀ x, best = some x → x.1 ∈ s.routes ∧ s.heap x.1 = some x.2) fun _ ↦ True := by
  unfold findBest
  apply Outcome.foldlM _ _ nofun
  intro best p hp hbest
  unfold read
  cases hheap : s.heap p with
  | none => trivial
  | some e =>
    intro x hx
    split at hx
    · cases hx
      exact ⟨hp, hheap⟩
    · exact hbest x hx

/-- What is found is in the table and has not been freed. -/
theorem mem_of_search (h : s.search dest = .ok (some p)) :
    p ∈ s.routes ∧ ∃ e, s.heap p = some e := by
  obtain ⟨best, hbest, h⟩ := bind_ok_iff.mp h
  cases best with
  | none => cases h
  | some x =>
    have hx := (outcome_findBest s (isBetter dest)).of_eq_ok hbest x rfl
    dsimp only at h
    split at h
    · obtain ⟨uni, _, h⟩ := bind_ok_iff.mp h
      cases uni with
      | none => cases h
      | some u =>
        dsimp only at h
        split at h
        · cases h
        · cases h
    · cases h
      exact ⟨hx.1, x.2, hx.2⟩

/-- A route is the same in both tables, or it matches in neither. -/
def Agree (dest : IPAddress) (s s' : RoutingTable) (p : ℕ) : Prop :=
  s'.heap p = s.heap p ∨ ∃ e e', s.heap p = some e ∧ s'.heap p = some e' ∧ e'.host = e.host ∧
    e'.netmask = e.netmask ∧ IPAddress.maskedAddrAreEqual dest e.host e.netmask = false

theorem maskedAddrAreEqual_allOnes {a b : IPAddress} (netmask : IPAddress)
    (h : IPAddress.maskedAddrAreEqual a b (BitVec.allOnes 32) = true) :
    IPAddress.maskedAddrAreEqual a b netmask = true := by
  unfold IPAddress.maskedAddrAreEqual at *
  rw [beq_iff_eq, BitVec.and_allOnes] at h
  rw [h]
  simp

theorem findBest_congr {isBetter : Option (ℕ × IPRoute) → IPRoute → Bool}
    (hmatch : ∀ best e, isBetter best e = true →
      IPAddress.maskedAddrAreEqual dest e.host e.netmask = true)
    (hroutes : s'.routes = s.routes) (h : ∀ p ∈ s.routes, Agree dest s s' p) :
    s'.findBest isBetter = s.findBest isBetter := by
  unfold findBest
  rw [hroutes]
  apply foldlM_congr
  intro best p hp
  unfold read
  rcases h p hp with hsame | ⟨e, e', he, he', hhost, hmask, hno⟩
  · rw [hsame]
  · have hno' : IPAddress.maskedAddrAreEqual dest e'.host e'.netmask = false := by
      rw [hhost, hmask]
      exact hno
    have hskip : isBetter best e = false := by
      apply Bool.eq_false_of_not_eq_true
      intro hbetter
      rw [hmatch best e hbetter] at hno
      cases hno
    have hskip' : isBetter best e' = false := by
      apply Bool.eq_false_of_not_eq_true
      intro hbetter
      rw [hmatch best e' hbetter] at hno'
      cases hno'
    rw [he, he']
    dsimp only
    rw [ok_bind, ok_bind, hskip, hskip']
    rfl

theorem search_congr (hroutes : s'.routes = s.routes) (h : ∀ p ∈ s.routes, Agree dest s s' p) :
    s'.search dest = s.search dest := by
  unfold search
  rw [findBest_congr _ hroutes h, findBest_congr _ hroutes h]
  · intro best e hbetter
    exact maskedAddrAreEqual_allOnes e.netmask (Bool.and_eq_true_iff.mp hbetter).1
  · intro best e hbetter
    exact (Bool.and_eq_true_iff.mp hbetter).1

theorem Coherent.fst_findBestMatchingRoute (h : s.Coherent) (dest : IPAddress) :
    Prod.fst <$> s.findBestMatchingRoute dest = s.search dest := by
  have hsearch (s : RoutingTable) : Prod.fst <$> s.searchAndCache dest = s.search dest := by
    unfold searchAndCache
    cases s.search dest with
    | error e => rfl
    | ok best => rfl
  unfold findBestMatchingRoute
  cases hcache : s.routingCache dest with
  | none => exact hsearch s
  | some cached =>
    cases cached with
    | none => exact hsearch s.invalidateCache
    | some p =>
      obtain ⟨_, e, he⟩ := mem_of_search (h dest p hcache)
      dsimp only
      rw [read, he, ok_bind]
      split
      · exact hsearch s
      · exact (h dest p hcache).symm

/-! ## Operations -/

theorem Coherent.invalidateCache (s : RoutingTable) : s.invalidateCache.Coherent := nofun

theorem Coherent.searchAndCache (h : s.Coherent) :
    Outcome (s.searchAndCache dest) (fun x ↦ x.2.Coherent ∧ x.2.routes = s.routes ∧
      x.2.multicastRoutes = s.multicastRoutes ∧ x.2.fresh = s.fresh) fun _ ↦ True := by
  unfold RoutingTable.searchAndCache
  cases hsearch : s.search dest with
  | error e => trivial
  | ok best =>
    refine ⟨fun dest' p hp ↦ ?_, rfl, rfl, rfl⟩
    dsimp only at hp
    by_cases hdest : dest' = dest
    · rw [hdest, Function.update_self, Option.some.injEq] at hp
      rw [hdest, ← hp]
      exact hsearch
    · rw [Function.update_of_ne hdest] at hp
      exact h dest' p hp

theorem WellFormed.of_subset (h : s.WellFormed) (hroutes : s'.routes ⊆ s.routes)
    (hmulticast : s'.multicastRoutes ⊆ s.multicastRoutes) (hfresh : s'.fresh = s.fresh) :
    s'.WellFormed := by
  refine ⟨fun p hp hp' ↦ h.disjoint p (hroutes hp) (hmulticast hp'), fun p hp ↦ ?_⟩
  rw [hfresh]
  exact h.old p (hp.imp (fun hp ↦ hroutes hp) fun hp ↦ hmulticast hp)

theorem WellFormed.of_eq (h : s.WellFormed) (hroutes : s'.routes = s.routes)
    (hmulticast : s'.multicastRoutes = s.multicastRoutes) (hfresh : s'.fresh = s.fresh) :
    s'.WellFormed := by
  constructor
  · rw [hroutes, hmulticast]
    exact h.disjoint
  · rw [hroutes, hmulticast, hfresh]
    exact h.old

/-- What every run keeps. -/
structure Inv (s : RoutingTable) : Prop where
  coherent : s.Coherent
  wellFormed : s.WellFormed

theorem Inv.invalidateCache (h : s.WellFormed) : s.invalidateCache.Inv :=
  ⟨Coherent.invalidateCache s, h.disjoint, h.old⟩

theorem Inv.findBestMatchingRoute (h : s.Inv) (dest : IPAddress) :
    Outcome (s.findBestMatchingRoute dest) (fun x ↦ x.2.Inv) fun _ ↦ True := by
  have hsearch {s : RoutingTable} (hs : s.Inv) :
      Outcome (s.searchAndCache dest) (fun x ↦ x.2.Inv) fun _ ↦ True := by
    apply (hs.coherent.searchAndCache).post
    intro x hx
    obtain ⟨hcoherent, hroutes, hmulticast, hfresh⟩ := hx
    exact ⟨hcoherent, hs.wellFormed.of_eq hroutes hmulticast hfresh⟩
  unfold RoutingTable.findBestMatchingRoute
  cases s.routingCache dest with
  | none => exact hsearch h
  | some cached =>
    cases cached with
    | none => exact hsearch (Inv.invalidateCache h.wellFormed)
    | some p =>
      dsimp only
      unfold read
      cases s.heap p with
      | none => trivial
      | some e =>
        apply Outcome.ite
        · intro _
          exact hsearch h
        · intro _
          exact h

theorem Inv.deleteRoute (h : s.Inv) (p : ℕ) : (s.deleteRoute p).2.Inv := by
  unfold RoutingTable.deleteRoute
  dsimp only
  split
  · apply Inv.invalidateCache
    exact h.wellFormed.of_subset List.erase_subset (List.Subset.refl _) rfl
  · split
    · apply Inv.invalidateCache
      exact h.wellFormed.of_subset (List.Subset.refl _) List.erase_subset rfl
    · exact h

theorem Inv.deleteInterfaceRoutes (h : s.Inv) (entry fuel : ℕ) :
    (s.deleteInterfaceRoutes entry fuel).Inv := by
  induction fuel generalizing s with
  | zero => exact h
  | succ fuel ih =>
    unfold RoutingTable.deleteInterfaceRoutes
    split
    · exact h
    · exact ih (h.deleteRoute _)

theorem WellFormed.pushUnicast (h : s.WellFormed) {heap : ℕ → Option IPRoute} :
    ({ s with heap, fresh := s.fresh + 1, routes := s.routes ++ [s.fresh] } :
      RoutingTable).WellFormed := by
  refine ⟨fun p hp hp' ↦ ?_, fun p hp ↦ ?_⟩
  · rcases List.mem_append.mp hp with hp | hp
    · exact h.disjoint p hp hp'
    · rw [List.mem_singleton.mp hp] at hp'
      exact lt_irrefl _ (h.old _ (.inr hp'))
  · dsimp only at hp ⊢
    rcases hp with hp | hp
    · rcases List.mem_append.mp hp with hp | hp
      · exact (h.old p (.inl hp)).trans (Nat.lt_succ_self _)
      · rw [List.mem_singleton.mp hp]
        exact Nat.lt_succ_self _
    · exact (h.old p (.inr hp)).trans (Nat.lt_succ_self _)

theorem WellFormed.pushMulticast (h : s.WellFormed) {heap : ℕ → Option IPRoute} :
    ({ s with heap, fresh := s.fresh + 1, multicastRoutes := s.multicastRoutes ++ [s.fresh] } :
      RoutingTable).WellFormed := by
  refine ⟨fun p hp hp' ↦ ?_, fun p hp ↦ ?_⟩
  · rcases List.mem_append.mp hp' with hp' | hp'
    · exact h.disjoint p hp hp'
    · rw [List.mem_singleton.mp hp'] at hp
      exact lt_irrefl _ (h.old _ (.inl hp))
  · dsimp only at hp ⊢
    rcases hp with hp | hp
    · exact (h.old p (.inl hp)).trans (Nat.lt_succ_self _)
    · rcases List.mem_append.mp hp with hp | hp
      · exact (h.old p (.inr hp)).trans (Nat.lt_succ_self _)
      · rw [List.mem_singleton.mp hp]
        exact Nat.lt_succ_self _

theorem Inv.addRoute (h : s.Inv) (entry : IPRoute) :
    Outcome (s.addRoute entry) Inv fun _ ↦ True := by
  have hreplaced : (s.replaceDefaultRoute entry).WellFormed := by
    unfold replaceDefaultRoute
    split
    · exact h.wellFormed
    · split
      · exact (h.deleteRoute _).wellFormed
      · exact h.wellFormed
  unfold RoutingTable.addRoute
  apply Outcome.ite
  · intro _
    trivial
  · intro _
    apply Inv.invalidateCache
    unfold pushBack
    dsimp only
    split
    · exact hreplaced.pushMulticast
    · exact hreplaced.pushUnicast

theorem Inv.updateNetmaskRoutes (h : s.Inv) (ift : List IPv4InterfaceData) :
    (s.updateNetmaskRoutes ift).Inv := by
  have hadd : ∀ (ift : List IPv4InterfaceData) {s : RoutingTable}, s.WellFormed →
      (ift.foldl addNetmaskRoute s).WellFormed := by
    intro ift
    induction ift with
    | nil => exact fun hs ↦ hs
    | cons ie ift ih =>
      intro s hs
      apply ih
      unfold addNetmaskRoute
      split
      · exact hs
      · exact hs.pushUnicast
  unfold RoutingTable.updateNetmaskRoutes
  apply Inv.invalidateCache
  apply hadd
  exact h.wellFormed.of_subset List.filter_sublist.subset (List.Subset.refl _) rfl

/-- Routes change in place in a way that no cached destination notices. -/
theorem Inv.of_agree (h : s.Inv) (hroutes : s'.routes = s.routes)
    (hmulticast : s'.multicastRoutes = s.multicastRoutes) (hfresh : s'.fresh = s.fresh)
    (hcache : s'.routingCache = s.routingCache)
    (hagree : ∀ dest p, s.routingCache dest = some (some p) → ∀ q ∈ s.routes, Agree dest s s' q) :
    s'.Inv := by
  refine ⟨fun dest p hp ↦ ?_, h.wellFormed.of_eq hroutes hmulticast hfresh⟩
  rw [hcache] at hp
  rw [search_congr hroutes (hagree dest p hp)]
  exact h.coherent dest p hp

/-- The metric does not change, or no cached destination is matched by the route. -/
def Unnoticed (s : RoutingTable) (e : IPRoute) (metric : ℤ) : Prop :=
  e.metric = metric ∨ ∀ dest p, s.routingCache dest = some (some p) →
    IPAddress.maskedAddrAreEqual dest e.host e.netmask = false

theorem Unnoticed.agree {e : IPRoute} {metric : ℤ} (h : s.Unnoticed e metric) {q : ℕ}
    (he : s.heap q = some e) (he' : s'.heap q = some { e with metric })
    (hp : s.routingCache dest = some (some p)) : Agree dest s s' q := by
  rcases h with rfl | hno
  · exact .inl (he'.trans he.symm)
  · exact .inr ⟨e, _, he, he', rfl, rfl, hno dest p hp⟩

theorem Inv.setMetric (h : s.Inv) (routeIndex : ℕ) (metric : ℤ)
    (hno : ∀ p e, s.routes[routeIndex]? = some p → s.heap p = some e → s.Unnoticed e metric) :
    (s.setMetric routeIndex metric).2.Inv := by
  unfold RoutingTable.setMetric
  split
  · rename_i p hp
    refine h.of_agree rfl rfl rfl rfl fun dest p' hcached q hq ↦ ?_
    by_cases hqp : q = p
    · subst hqp
      cases he : s.heap q with
      | none =>
        left
        dsimp only [modifyMetric]
        rw [Function.update_self, he]
        rfl
      | some e =>
        apply (hno q e hp he).agree he _ hcached
        dsimp only [modifyMetric]
        rw [Function.update_self, he]
        rfl
    · exact .inl (Function.update_of_ne hqp _ _)
  · split
    · rename_i p hp
      refine h.of_agree rfl rfl rfl rfl fun dest p' hcached q hq ↦ ?_
      have hqp : q ≠ p := by
        rintro rfl
        exact h.wellFormed.disjoint q hq (List.mem_of_getElem? hp)
      exact .inl (Function.update_of_ne hqp _ _)
    · exact h

/-- Scrambling changes metrics of the routes to the destination and nothing else. -/
theorem foldl_scramble (destIP : IPAddress) (intuniform : ℕ → ℤ) (l : List ℕ) (s' : RoutingTable)
    (hheap : ∀ q, s'.heap q = s.heap q ∨ ∃ e, s.heap q = some e ∧ (e.host = destIP ∨ destIP = 0) ∧
      s'.heap q = some { e with metric := intuniform q })
    (hrest : s' = { s with heap := s'.heap }) :
    let t := l.foldl (scrambleRoute destIP intuniform) s'
    (∀ q, t.heap q = s.heap q ∨ ∃ e, s.heap q = some e ∧ (e.host = destIP ∨ destIP = 0) ∧
      t.heap q = some { e with metric := intuniform q }) ∧ t = { s with heap := t.heap } := by
  induction l generalizing s' with
  | nil => exact ⟨hheap, hrest⟩
  | cons p l ih =>
    apply ih
    · intro q
      unfold scrambleRoute
      split
      · rename_i hscrambled
        by_cases hqp : q = p
        · subst hqp
          right
          dsimp only [modifyMetric]
          rw [Function.update_self]
          unfold isScrambled at hscrambled
          rcases hheap q with hsame | ⟨e, he, hdest, he'⟩
          · rw [hsame] at hscrambled ⊢
            obtain ⟨e, he, hdest⟩ := (Option.any_eq_true _ _).mp hscrambled
            rw [Bool.or_eq_true, beq_iff_eq, beq_iff_eq] at hdest
            exact ⟨e, he, hdest, by rw [he]; rfl⟩
          · exact ⟨e, he, hdest, by rw [he']; rfl⟩
        · dsimp only [modifyMetric]
          rw [Function.update_of_ne hqp]
          exact hheap q
      · exact hheap q
    · unfold scrambleRoute
      split
      · rw [hrest]
        rfl
      · exact hrest

theorem Inv.scrambleRoutes (h : s.Inv) (destIP : IPAddress) (intuniform : ℕ → ℤ)
    (hno : ∀ p ∈ s.routes, ∀ e, s.heap p = some e → e.host = destIP ∨ destIP = 0 →
      s.Unnoticed e (intuniform p)) : (s.scrambleRoutes destIP intuniform).2.Inv := by
  unfold RoutingTable.scrambleRoutes
  dsimp only
  obtain ⟨hheap, hrest⟩ := foldl_scramble (s := s) destIP intuniform s.routes s
    (fun _ ↦ .inl rfl) rfl
  apply h.of_agree
  · rw [hrest]
  · rw [hrest]
  · rw [hrest]
  · rw [hrest]
  · intro dest p hcached q hq
    rcases hheap q with hsame | ⟨e, he, hdest, he'⟩
    · exact .inl hsame
    · exact (hno q hq e he hdest).agree he he' hcached

/-! ## Runs -/

/-- A new table. -/
structure Started (s : RoutingTable) : Prop where
  routes : s.routes = []
  multicastRoutes : s.multicastRoutes = []
  routingCache : ∀ dest, s.routingCache dest = none

/-- Where the cache is not cleared, no destination with a cached route is concerned. -/
def Allowed (s : RoutingTable) : Operation → Prop
  | .setMetric routeIndex metric => ∀ p e, s.routes[routeIndex]? = some p → s.heap p = some e →
      s.Unnoticed e metric
  | .scrambleRoutes destIP intuniform => ∀ p ∈ s.routes, ∀ e, s.heap p = some e →
      e.host = destIP ∨ destIP = 0 → s.Unnoticed e (intuniform p)
  | .flushTable => ∀ dest p, s.routingCache dest ≠ some (some p)
  | _ => True

theorem Inv.step (h : s.Inv) (op : Operation) (hop : s.Allowed op) :
    Outcome (s.step op) Inv fun _ ↦ True := by
  cases op with
  | addRoute entry => exact h.addRoute entry
  | deleteRoute p => exact h.deleteRoute p
  | setMetric routeIndex metric => exact h.setMetric routeIndex metric hop
  | scrambleRoutes destIP intuniform => exact h.scrambleRoutes destIP intuniform hop
  | flushTable =>
    refine ⟨fun dest p hp ↦ absurd hp (hop dest p), ?_⟩
    exact h.wellFormed.of_subset (List.nil_subset _) (List.nil_subset _) rfl
  | updateNetmaskRoutes ift => exact h.updateNetmaskRoutes ift
  | deleteInterfaceRoutes entry => exact h.deleteInterfaceRoutes entry _
  | findBestMatchingRoute dest => exact (h.findBestMatchingRoute dest).map

theorem Started.inv (h : s.Started) : s.Inv := by
  refine ⟨fun dest p hp ↦ ?_, fun p hp ↦ ?_, fun p hp ↦ ?_⟩
  · rw [h.routingCache dest] at hp
    cases hp
  · rw [h.routes] at hp
    cases hp
  · rw [h.routes, h.multicastRoutes] at hp
    rcases hp with hp | hp <;> cases hp

/-- In every run of this kind a lookup has the result it would have with an empty cache, and what it
finds is in the table. -/
theorem routing_cache_coherence (h : Reachable Started Allowed step s) (dest : IPAddress) :
    Prod.fst <$> s.findBestMatchingRoute dest =
      Prod.fst <$> s.invalidateCache.findBestMatchingRoute dest ∧
    ∀ p, Prod.fst <$> s.findBestMatchingRoute dest = .ok (some p) → p ∈ s.routes := by
  have hs : s.Inv := (h.outcome (fun _ ↦ Started.inv) fun _ op hs hop ↦ hs.step op hop).1
  have hempty : s.invalidateCache.search dest = s.search dest := rfl
  rw [hs.coherent.fst_findBestMatchingRoute dest,
    (Coherent.invalidateCache s).fst_findBestMatchingRoute dest, hempty]
  exact ⟨rfl, fun p hp ↦ (mem_of_search hp).1⟩

/-- No routes, and nothing cached. -/
def newTable : RoutingTable := ⟨fun _ ↦ none, 0, [], [], fun _ ↦ none⟩

/-- A route to 10.0.0.0/8. -/
def networkTen (metric : ℤ) : IPRoute := ⟨0x0A000000, 0xFF000000, 0, some 1, .manual, metric⟩

/-- A better route comes after the first lookup. -/
def betterRoute : List Operation :=
  [.addRoute (networkTen 2), .findBestMatchingRoute 0x0A000001, .addRoute (networkTen 1)]

theorem routing_cache_coherence_betterRoute : ∃ s, run step newTable betterRoute = .ok s ∧
    s.search 0x0A000001 = .ok (some 1) ∧ Prod.fst <$> s.findBestMatchingRoute 0x0A000001 =
      Prod.fst <$> s.invalidateCache.findBestMatchingRoute 0x0A000001 := by
  obtain ⟨s, hrun, hcheck⟩ := exists_ok (run step newTable betterRoute)
    (fun s ↦ s.search 0x0A000001 = .ok (some 1)) (by decide +kernel)
  have hreach : Reachable Started Allowed step s := by
    obtain ⟨s₁, h₁, hrun⟩ := bind_ok_iff.mp hrun
    obtain ⟨s₂, h₂, hrun⟩ := bind_ok_iff.mp hrun
    obtain ⟨s₃, h₃, hrun⟩ := bind_ok_iff.mp hrun
    cases hrun
    have hstart : Reachable Started Allowed step newTable := .start ⟨rfl, rfl, fun _ ↦ rfl⟩
    exact ((hstart.next (by trivial) h₁).next (by trivial) h₂).next (by trivial) h₃
  exact ⟨s, hrun, hcheck, (routing_cache_coherence hreach 0x0A000001).1⟩

/-- The route that has been looked up gets worse than the other one. -/
def worseMetric : List Operation :=
  [.addRoute (networkTen 1), .addRoute (networkTen 2), .findBestMatchingRoute 0x0A000001,
    .setMetric 0 5]

/-- The cached route is not the best one any more. -/
theorem stale_metric : ∃ s, run step newTable worseMetric = .ok s ∧
    Prod.fst <$> s.findBestMatchingRoute 0x0A000001 = .ok (some 0) ∧
    Prod.fst <$> s.invalidateCache.findBestMatchingRoute 0x0A000001 = .ok (some 1) := by
  obtain ⟨s, hrun, hcheck⟩ := exists_ok (run step newTable worseMetric)
    (fun s ↦ Prod.fst <$> s.findBestMatchingRoute 0x0A000001 = .ok (some 0) ∧ Prod.fst <$>
      s.invalidateCache.findBestMatchingRoute 0x0A000001 = .ok (some 1)) (by decide +kernel)
  exact ⟨s, hrun, hcheck⟩

end RoutingTable

end InetManet
