import InetManet.Library.Offers
import InetManet.OSPF.InterAreaRoutes

/-!
# The best routes to other areas

After each LSA the table consists of the intra-area routes and of the best route to each destination that
the LSAs considered so far advertise. The order of the LSAs does not matter.
-/

namespace InetManet.OSPF.Routing

section

variable {router : Router} {areaID : AreaID} {table I : List RoutingTableEntry}
  {P summaryLSAs : List SummaryLSA} {lsa : SummaryLSA} {e : RoutingTableEntry}

/-! ## The entries for a destination -/

theorem uLong_eq_iff {a b : IPAddress} (ha : a.msb = false) :
    uLongFromIPv4Address a = b.setWidth 64 ↔ a = b := by
  rw [uLongFromIPv4Address, BitVec.signExtend_eq_setWidth_of_msb_false ha]
  constructor
  · intro h
    have hwidth := congrArg (BitVec.setWidth 32) h
    simpa using hwidth
  · intro h
    rw [h]

/-- Where addresses are low and determine their masks, the entries that are found are those for the
destination. -/
theorem isFor_iff
    (hlow : (match lsa.target with
      | .network address _ => address
      | .router routerID => routerID).msb = false)
    (hmask : ∀ address mask mask', lsa.target = .network address mask → e.target = .network address mask' →
      mask = mask') : lsa.isFor e = true ↔ e.target = lsa.target := by
  unfold SummaryLSA.isFor
  unfold SummaryLSA.target at hlow hmask ⊢
  unfold RoutingTableEntry.target at hmask ⊢
  by_cases htype : lsa.lsType = .summaryNetworks
  · simp only [if_pos htype] at hlow hmask ⊢
    cases hnetwork : e.isNetwork with
    | false => simp
    | true =>
      simp only [hnetwork, if_true, Bool.true_and, beq_iff_eq, uLong_eq_iff hlow, Destination.network.injEq]
        at hmask ⊢
      constructor
      · intro hsame
        exact ⟨hsame.symm, (hmask _ _ _ ⟨rfl, rfl⟩ ⟨hsame.symm, rfl⟩).symm⟩
      · intro hsame
        exact hsame.1.symm
  · simp only [if_neg htype] at hlow ⊢
    have hflags : (e.destinationType.areaBorderRouter || e.destinationType.asBoundaryRouter) = !e.isNetwork := by
      unfold RoutingTableEntry.isNetwork networkDestination
      rcases e.destinationType with ⟨border, boundary⟩
      cases border <;> cases boundary <;> rfl
    rw [hflags]
    cases hnetwork : e.isNetwork with
    | true => simp
    | false =>
      simp only [Bool.not_false, Bool.true_and, beq_iff_eq, uLong_eq_iff hlow, Bool.false_eq_true, if_false,
        Destination.router.injEq]
      exact eq_comm

/-! ## The entries added so far -/

variable {cost : ℕ}

def interAreaOffers (areaID : AreaID) (table : List RoutingTableEntry) :
    Offers.Terms SummaryLSA Destination ℕ NextHop where
  target lsa := lsa.target
  rank lsa := routeCostOf areaID table lsa
  labels lsa := nextHopsOf areaID table lsa

def interAreaEntries : Offers.Terms RoutingTableEntry Destination ℕ NextHop where
  target entry := entry.target
  rank entry := entry.cost
  labels entry := entry.nextHops

/-- The entries `I` are the best routes of the usable LSAs `P`. -/
structure Added (areaID : AreaID) (table : List RoutingTableEntry) (P : List SummaryLSA)
    (I : List RoutingTableEntry) : Prop where
  selected : Offers.Selected (interAreaOffers areaID table) interAreaEntries
    (fun target ↦ ∃ t ∈ table, t.target = target) P I
  interArea : ∀ e ∈ I, e.pathType = .interArea

/-- The LSA is one of those that are considered, and the inputs are exact. -/
structure Considered (router : Router) (areaID : AreaID) (table : List RoutingTableEntry)
    (summaryLSAs P : List SummaryLSA) (lsa : SummaryLSA) : Prop where
  intraArea : ∀ e ∈ table, e.pathType = .intraArea
  exact : Exact router areaID table summaryLSAs
  mem : lsa ∈ summaryLSAs
  earlier : ∀ x ∈ P, x ∈ summaryLSAs ∧ isUsable router areaID table x = true

theorem isFor_iff_target (hc : Considered router areaID table summaryLSAs P lsa)
    (husable : isUsable router areaID table lsa = true) (hI : Added areaID table P I) (he : e ∈ table ++ I) :
    lsa.isFor e = true ↔ e.target = lsa.target := by
  apply isFor_iff (hc.exact.low lsa hc.mem husable)
  intro address mask mask' hlsa htarget
  rcases List.mem_append.mp he with he | he
  · exact hc.exact.tableMask lsa hc.mem husable e he address mask mask' hlsa htarget
  · obtain ⟨x, hx, hx', -⟩ := (hI.selected.best e he).attained
    obtain ⟨hxmem, hxusable⟩ := hc.earlier x hx
    exact hc.exact.mask lsa hc.mem x hxmem husable hxusable address mask mask' hlsa (hx'.trans htarget)

theorem not_network_of_target {routerID : IPAddress} :
    e.target = .router routerID ↔ e.isNetwork = false ∧ e.destinationID = routerID := by
  unfold RoutingTableEntry.target
  cases e.isNetwork <;> simp

theorem find_borderRouter (hc : Considered router areaID table summaryLSAs P lsa)
    (hI : Added areaID table P I) (hregarded : isDisregarded router lsa = false) :
    (table ++ I).find? (isBorderRouter areaID lsa.advertisingRouter) = borderRouterOf areaID table lsa := by
  rw [List.find?_append, borderRouterOf]
  cases hfind : table.find? (isBorderRouter areaID lsa.advertisingRouter) with
  | some border => rfl
  | none =>
    rw [Option.none_or, List.find?_eq_none]
    intro e he hborder
    obtain ⟨x, hx, hx', -⟩ := (hI.selected.best e he).attained
    obtain ⟨hxmem, hxusable⟩ := hc.earlier x hx
    have htarget : e.target = .router lsa.advertisingRouter := by
      rw [not_network_of_target]
      simp only [isBorderRouter, Bool.and_eq_true, beq_iff_eq] at hborder
      refine ⟨?_, hborder.2⟩
      have hflags := hborder.1.2
      unfold RoutingTableEntry.isNetwork networkDestination
      revert hflags
      rcases e.destinationType with ⟨border, boundary⟩
      cases border <;> cases boundary <;> decide
    have hsome := hc.exact.borderRouter x hxmem hxusable lsa hc.mem hregarded (hx'.trans htarget)
    rw [borderRouterOf, hfind] at hsome
    cases hsome

theorem isActiveRange_append (hI : Added areaID table P I) :
    isActiveRange router (table ++ I) lsa = isActiveRange router table lsa := by
  have hnone : I.any (Router.isInRange lsa.destination) = false := by
    rw [List.any_eq_false]
    intro e he
    rw [Router.isInRange, hI.interArea e he]
    simp
  rw [isActiveRange, isActiveRange, List.any_append, hnone, Bool.or_false]

theorem target_create (cost : ℕ) (border : RoutingTableEntry) :
    (createRoutingTableEntryFromSummaryLSA areaID lsa cost border).target = lsa.target := by
  unfold RoutingTableEntry.target SummaryLSA.target RoutingTableEntry.isNetwork
    createRoutingTableEntryFromSummaryLSA
  by_cases htype : lsa.lsType = .summaryNetworks
  · simp only [if_pos htype, beq_self_eq_true, if_true]
  · simp only [if_neg htype]
    rfl

theorem consider_unusable (hc : Considered router areaID table summaryLSAs P lsa)
    (hI : Added areaID table P I)
    (husable : isUsable router areaID table lsa = false) :
    considerSummaryLSA router areaID (table ++ I) lsa = table ++ I := by
  unfold considerSummaryLSA
  rw [isActiveRange_append hI]
  cases hregarded : isDisregarded router lsa with
  | true => rfl
  | false =>
    rw [find_borderRouter hc hI hregarded]
    cases hactive : isActiveRange router table lsa with
    | true => rfl
    | false =>
      cases hborder : borderRouterOf areaID table lsa with
      | none => rfl
      | some border => simp [isUsable, hregarded, hactive, hborder] at husable

/-- The entry for the destination is replaced by another one. -/
theorem Added.replace {before after I' : List RoutingTableEntry} {old new : RoutingTableEntry}
    (hI : Added areaID table P (before ++ old :: after)) (hperm : I'.Perm (new :: (before ++ after)))
    (hold : old.target = lsa.target) (hnew : new.target = lsa.target) (hinter : new.pathType = .interArea)
    (hbest : Offers.Best (interAreaOffers areaID table) interAreaEntries (P ++ [lsa]) new) :
    Added areaID table (P ++ [lsa]) I' := by
  refine ⟨hI.selected.replace hperm hold hnew hbest, ?_⟩
  intro e he
  rcases List.mem_cons.mp (hperm.mem_iff.mp he) with rfl | he
  · exact hinter
  · exact hI.interArea e (List.perm_middle.mem_iff.mpr (List.mem_cons_of_mem old he))

theorem Added.append {new : RoutingTableEntry} (hI : Added areaID table P I)
    (htable : ∀ t ∈ table, t.target ≠ lsa.target) (hno : ∀ e ∈ I, e.target ≠ lsa.target)
    (hnew : new.target = lsa.target) (hinter : new.pathType = .interArea)
    (hcost : new.cost = routeCostOf areaID table lsa) (hhops : new.nextHops = nextHopsOf areaID table lsa) :
    Added areaID table (P ++ [lsa]) (I ++ [new]) := by
  constructor
  · apply hI.selected.append _ hno hnew hcost hhops
    rintro ⟨t, ht, hsame⟩
    exact htable t ht hsame
  · intro e he
    rcases List.mem_append.mp he with he | he
    · exact hI.interArea e he
    · rw [List.mem_singleton.mp he]
      exact hinter

section

variable {before after : List RoutingTableEntry}

/-- Next hops are added to the only entry that satisfies the condition. -/
theorem addNextHops_middle {p : RoutingTableEntry → Bool} {hops : List NextHop}
    (hbefore : ∀ x ∈ before, p x = false)
    (hafter : ∀ x ∈ after, p x = false) (he : p e = true) :
    addNextHops p hops (before ++ e :: after) =
      before ++ { e with nextHops := e.nextHops ++ hops } :: after := by
  induction before with
  | nil =>
    have hnone : after.any p = false := by
      rw [List.any_eq_false]
      intro x hx
      rw [hafter x hx]
      nofun
    simp [addNextHops, hnone, he]
  | cons x before ih =>
    have hany : (before ++ e :: after).any p = true := by
      rw [List.any_eq_true]
      exact ⟨e, List.mem_append_right _ List.mem_cons_self, he⟩
    rw [List.cons_append, addNextHops, if_pos hany, ih fun y hy ↦ hbefore y (List.mem_cons_of_mem _ hy)]
    rfl


theorem filter_middle {p : RoutingTableEntry → Bool}
    (hbefore : ∀ x ∈ before, p x = false) (hafter : ∀ x ∈ after, p x = false) (he : p e = true) :
    (before ++ e :: after).filter p = [e] := by
  have hnone (l : List RoutingTableEntry) (hl : ∀ x ∈ l, p x = false) : l.filter p = [] := by
    rw [List.filter_eq_nil_iff]
    intro x hx
    rw [hl x hx]
    nofun
  rw [List.filter_append, List.filter_cons, hnone before hbefore, hnone after hafter, if_pos he]
  rfl

theorem filter_not_middle {p : RoutingTableEntry → Bool}
    (hbefore : ∀ x ∈ before, p x = false) (hafter : ∀ x ∈ after, p x = false) :
    (before ++ e :: after).filter (fun x ↦ !p x) = if p e then before ++ after else before ++ e :: after := by
  have hall (l : List RoutingTableEntry) (hl : ∀ x ∈ l, p x = false) : l.filter (fun x ↦ !p x) = l := by
    rw [List.filter_eq_self]
    intro x hx
    rw [hl x hx]
    rfl
  rw [List.filter_append, List.filter_cons, hall before hbefore, hall after hafter]
  cases p e <;> rfl

end

/-! ## One LSA -/

section

variable {border : RoutingTableEntry} {entries before after : List RoutingTableEntry}

theorem addInterAreaRoute_of_preferred (hcost : (lsa.routeCost + border.cost) % 65536 = cost)
    (he : e ∈ entries) (hpreferred : lsa.isPreferred cost e = true) :
    addInterAreaRoute areaID entries lsa border = entries := by
  have hany : entries.any (lsa.isPreferred cost) = true := List.any_eq_true.mpr ⟨e, he, hpreferred⟩
  unfold addInterAreaRoute findSameOrWorseCostRoute
  dsimp only
  rw [hcost, if_pos hany]

theorem addInterAreaRoute_of_new (hcost : (lsa.routeCost + border.cost) % 65536 = cost)
    (hno : ∀ x ∈ entries, lsa.isFor x = false) :
    addInterAreaRoute areaID entries lsa border =
      entries ++ [createRoutingTableEntryFromSummaryLSA areaID lsa cost border] := by
  have hpreferred : ¬ entries.any (lsa.isPreferred cost) = true := by
    rw [Bool.not_eq_true, List.any_eq_false]
    intro x hx
    simp [SummaryLSA.isPreferred, hno x hx]
  have hsame : entries.filter (lsa.isSameOrWorse cost) = [] := by
    rw [List.filter_eq_nil_iff]
    intro x hx
    simp [SummaryLSA.isSameOrWorse, hno x hx]
  unfold addInterAreaRoute findSameOrWorseCostRoute
  dsimp only
  rw [hcost, if_neg hpreferred, hsame]
  rfl

theorem findSameOrWorseCostRoute_middle (hbefore : ∀ x ∈ before, lsa.isFor x = false)
    (hafter : ∀ x ∈ after, lsa.isFor x = false) (hfor : lsa.isFor e = true)
    (hinter : e.pathType = .interArea) (hcost : cost ≤ e.cost) :
    findSameOrWorseCostRoute (before ++ e :: after) lsa cost = some [e] := by
  have hpreferred : ¬ (before ++ e :: after).any (lsa.isPreferred cost) = true := by
    rw [Bool.not_eq_true, List.any_eq_false]
    intro x hx
    rcases List.mem_append.mp hx with hx | hx
    · simp [SummaryLSA.isPreferred, hbefore x hx]
    · rcases List.mem_cons.mp hx with rfl | hx
      · simp [SummaryLSA.isPreferred, hinter, hcost]
      · simp [SummaryLSA.isPreferred, hafter x hx]
  rw [findSameOrWorseCostRoute, if_neg hpreferred, filter_middle]
  · intro x hx
    simp [SummaryLSA.isSameOrWorse, hbefore x hx]
  · intro x hx
    simp [SummaryLSA.isSameOrWorse, hafter x hx]
  · simp [SummaryLSA.isSameOrWorse, hfor, hinter, hcost]

theorem addInterAreaRoute_of_equal (hcost : (lsa.routeCost + border.cost) % 65536 = e.cost)
    (hbefore : ∀ x ∈ before, lsa.isFor x = false) (hafter : ∀ x ∈ after, lsa.isFor x = false)
    (hfor : lsa.isFor e = true) (hinter : e.pathType = .interArea) :
    addInterAreaRoute areaID (before ++ e :: after) lsa border =
      before ++ { e with nextHops := e.nextHops ++ border.nextHops } :: after := by
  have hsame : ([e].any fun x ↦ !decide (e.cost < x.cost)) = true := by simp
  unfold addInterAreaRoute
  dsimp only
  rw [hcost, findSameOrWorseCostRoute_middle hbefore hafter hfor hinter le_rfl]
  dsimp only
  rw [if_neg (by simp), if_pos hsame, filter_not_middle, if_neg (by simp), addNextHops_middle]
  · intro x hx
    simp [SummaryLSA.isSameOrWorse, hbefore x hx]
  · intro x hx
    simp [SummaryLSA.isSameOrWorse, hafter x hx]
  · simp [SummaryLSA.isSameOrWorse, hfor, hinter]
  · intro x hx
    simp [SummaryLSA.isSameOrWorse, hbefore x hx]
  · intro x hx
    simp [SummaryLSA.isSameOrWorse, hafter x hx]

theorem addInterAreaRoute_of_dearer (hcost : (lsa.routeCost + border.cost) % 65536 = cost)
    (hbefore : ∀ x ∈ before, lsa.isFor x = false) (hafter : ∀ x ∈ after, lsa.isFor x = false)
    (hfor : lsa.isFor e = true) (hinter : e.pathType = .interArea) (hdearer : cost < e.cost) :
    addInterAreaRoute areaID (before ++ e :: after) lsa border =
      before ++ after ++ [createRoutingTableEntryFromSummaryLSA areaID lsa cost border] := by
  have hsame : ¬ ([e].any fun x ↦ !decide (cost < x.cost)) = true := by simp [hdearer]
  unfold addInterAreaRoute
  dsimp only
  rw [hcost, findSameOrWorseCostRoute_middle hbefore hafter hfor hinter hdearer.le]
  dsimp only
  rw [if_neg (by simp), if_neg hsame, filter_not_middle, if_pos]
  · simp [SummaryLSA.isSameOrWorse, hfor, hinter, hdearer, hdearer.le]
  · intro x hx
    simp [SummaryLSA.isSameOrWorse, hbefore x hx]
  · intro x hx
    simp [SummaryLSA.isSameOrWorse, hafter x hx]

end

theorem add_again (hc : Considered router areaID table summaryLSAs P lsa) {old border : RoutingTableEntry}
    {before after : List RoutingTableEntry} (hI : Added areaID table P (before ++ old :: after))
    (husable : isUsable router areaID table lsa = true)
    (hborder : borderRouterOf areaID table lsa = some border)
    (hcost : (lsa.routeCost + border.cost) % 65536 = routeCostOf areaID table lsa)
    (hno : ∀ t ∈ table, t.target ≠ lsa.target) (htarget : old.target = lsa.target) :
    ∃ I', addInterAreaRoute areaID (table ++ (before ++ old :: after)) lsa border = table ++ I' ∧
      Added areaID table (P ++ [lsa]) I' := by
  have hold : old ∈ before ++ old :: after := List.mem_append_right _ List.mem_cons_self
  have hbest := hI.selected.best old hold
  have hinter := hI.interArea old hold
  have hmem (x : RoutingTableEntry) (hx : x ∈ table ++ (before ++ old :: after)) :=
    isFor_iff_target hc husable hI hx
  have hfor : lsa.isFor old = true := (hmem old (List.mem_append_right _ hold)).mpr htarget
  have hfirst : ∀ x ∈ table ++ before, lsa.isFor x = false := by
    intro x hx
    rw [Bool.eq_false_iff, ne_eq, hmem x]
    · rcases List.mem_append.mp hx with hx | hx
      · exact hno x hx
      · rw [← htarget]
        exact hI.selected.unique x (List.mem_append_left _ hx)
    · rw [← List.append_assoc]
      exact List.mem_append_left _ hx
  have hlast : ∀ x ∈ after, lsa.isFor x = false := by
    intro x hx
    rw [Bool.eq_false_iff, ne_eq, hmem x]
    · rw [← htarget]
      exact hI.selected.unique x (List.mem_append_right _ hx)
    · exact List.mem_append_right _ (List.mem_append_right _ (List.mem_cons_of_mem _ hx))
  rw [← List.append_assoc]
  rcases lt_trichotomy old.cost (routeCostOf areaID table lsa) with hcheaper | hequal | hdearer
  · have hpreferred : lsa.isPreferred (routeCostOf areaID table lsa) old = true := by
      simp [SummaryLSA.isPreferred, hfor, hinter, hcheaper]
    rw [addInterAreaRoute_of_preferred hcost (List.mem_append_right _ List.mem_cons_self) hpreferred,
      List.append_assoc]
    exact ⟨_, rfl, hI.replace List.perm_middle htarget htarget hinter (hbest.irrelevant fun _ ↦ hcheaper)⟩
  · have hhops : border.nextHops = nextHopsOf areaID table lsa := by simp [nextHopsOf, hborder]
    rw [addInterAreaRoute_of_equal (hcost.trans hequal.symm) hfirst hlast hfor hinter,
      List.append_assoc, hhops]
    refine ⟨_, rfl, hI.replace List.perm_middle htarget htarget hinter ?_⟩
    exact hbest.equal htarget.symm hequal rfl rfl rfl
  · have hnew := @target_create areaID lsa (routeCostOf areaID table lsa) border
    have hhops : border.nextHops = nextHopsOf areaID table lsa := by simp [nextHopsOf, hborder]
    rw [addInterAreaRoute_of_dearer hcost hfirst hlast hfor hinter hdearer, List.append_assoc,
      List.append_assoc]
    refine ⟨_, rfl, hI.replace ?_ htarget hnew rfl (.only hnew rfl hhops ?_)⟩
    · rw [← List.append_assoc]
      exact List.perm_append_comm
    · intro x hx hx'
      exact hdearer.trans_le (hbest.least x hx (Eq.trans hx' htarget.symm))

/-- A usable LSA makes its route one of the best ones, unless there is a better one. -/
theorem add_usable (hc : Considered router areaID table summaryLSAs P lsa) (hI : Added areaID table P I)
    (husable : isUsable router areaID table lsa = true) {border : RoutingTableEntry}
    (hborder : borderRouterOf areaID table lsa = some border) :
    ∃ I', addInterAreaRoute areaID (table ++ I) lsa border = table ++ I' ∧
      Added areaID table (P ++ [lsa]) I' := by
  have hexact : lsa.routeCost + border.cost = routeCostOf areaID table lsa := by
    simp [routeCostOf, hborder]
  have hcost : (lsa.routeCost + border.cost) % 65536 = routeCostOf areaID table lsa := by
    rw [hexact]
    exact Nat.mod_eq_of_lt (hc.exact.cost lsa hc.mem husable)
  have hfor (e : RoutingTableEntry) (he : e ∈ table ++ I) := isFor_iff_target hc husable hI he
  by_cases htable : ∃ t ∈ table, t.target = lsa.target
  · obtain ⟨t, ht, htarget⟩ := htable
    have hmem : t ∈ table ++ I := List.mem_append_left _ ht
    have hpreferred : lsa.isPreferred (routeCostOf areaID table lsa) t = true := by
      rw [SummaryLSA.isPreferred, (hfor t hmem).mpr htarget, hc.intraArea t ht]
      rfl
    rw [addInterAreaRoute_of_preferred hcost hmem hpreferred]
    exact ⟨I, rfl, hI.selected.extend_settled ⟨t, ht, htarget⟩, hI.interArea⟩
  · have hno : ∀ t ∈ table, t.target ≠ lsa.target := fun t ht htarget ↦ htable ⟨t, ht, htarget⟩
    by_cases hadded : ∃ old ∈ I, old.target = lsa.target
    · obtain ⟨old, hold, htarget⟩ := hadded
      obtain ⟨before, after, rfl⟩ := List.append_of_mem hold
      exact add_again hc hI husable hborder hcost hno htarget
    · have hnone : ∀ e ∈ I, e.target ≠ lsa.target := fun e he htarget ↦ hadded ⟨e, he, htarget⟩
      have hisFor : ∀ x ∈ table ++ I, lsa.isFor x = false := by
        intro x hx
        rw [Bool.eq_false_iff, ne_eq, hfor x hx]
        rcases List.mem_append.mp hx with hx | hx
        · exact hno x hx
        · exact hnone x hx
      have hnew := @target_create areaID lsa (routeCostOf areaID table lsa) border
      rw [addInterAreaRoute_of_new hcost hisFor, List.append_assoc]
      have hhops : border.nextHops = nextHopsOf areaID table lsa := by simp [nextHopsOf, hborder]
      exact ⟨_, rfl, hI.append hno hnone hnew rfl rfl hhops⟩

/-! ## All LSAs -/

/-- The usable ones of the LSAs are added to those that were considered before. -/
theorem added_foldl (hintra : ∀ e ∈ table, e.pathType = .intraArea)
    (hexact : Exact router areaID table summaryLSAs) (l : List SummaryLSA) (hl : ∀ x ∈ l, x ∈ summaryLSAs)
    (hP : ∀ x ∈ P, x ∈ summaryLSAs ∧ isUsable router areaID table x = true) (hI : Added areaID table P I) :
    ∃ I', l.foldl (considerSummaryLSA router areaID) (table ++ I) = table ++ I' ∧
      Added areaID table (P ++ l.filter (isUsable router areaID table)) I' := by
  induction l generalizing P I with
  | nil => exact ⟨I, rfl, by rwa [List.filter_nil, List.append_nil]⟩
  | cons lsa l ih =>
    have hc : Considered router areaID table summaryLSAs P lsa :=
      ⟨hintra, hexact, hl lsa List.mem_cons_self, hP⟩
    have hrest : ∀ x ∈ l, x ∈ summaryLSAs := fun x hx ↦ hl x (List.mem_cons_of_mem _ hx)
    rw [List.foldl_cons, List.filter_cons]
    cases husable : isUsable router areaID table lsa with
    | false =>
      rw [consider_unusable hc hI husable]
      exact ih hrest hP hI
    | true =>
      have hparts := husable
      simp only [isUsable, Bool.and_eq_true, Bool.not_eq_true', Option.isSome_iff_exists] at hparts
      obtain ⟨⟨hregarded, hinactive⟩, border, hborder⟩ := hparts
      obtain ⟨I', heq, hI'⟩ := add_usable hc hI husable hborder
      have hstep : considerSummaryLSA router areaID (table ++ I) lsa = table ++ I' := by
        unfold considerSummaryLSA
        rw [isActiveRange_append hI, find_borderRouter hc hI hregarded, hregarded, hinactive, hborder]
        exact heq
      rw [hstep, if_pos rfl, List.append_cons]
      apply ih hrest _ hI'
      intro x hx
      rcases List.mem_append.mp hx with hx | hx
      · exact hP x hx
      · rw [List.mem_singleton.mp hx]
        exact ⟨hc.mem, husable⟩

theorem filter_target (hI : Added areaID table P I) (he : e ∈ I) {target : Destination}
    (htarget : e.target = target) :
    I.filter (fun x ↦ decide (x.pathType = .interArea ∧ x.target = target)) = [e] := by
  obtain ⟨before, after, rfl⟩ := List.append_of_mem he
  have hother : ∀ x ∈ before ++ after,
      decide (x.pathType = .interArea ∧ x.target = target) = false := by
    intro x hx
    rw [decide_eq_false_iff_not]
    rintro ⟨-, hsame⟩
    exact hI.selected.unique x hx (hsame.trans htarget.symm)
  apply filter_middle
  · intro x hx
    exact hother x (List.mem_append_left _ hx)
  · intro x hx
    exact hother x (List.mem_append_right _ hx)
  · rw [decide_eq_true_iff]
    exact ⟨hI.interArea e he, htarget⟩

/-- For an intra-area table and LSAs on which the comparisons are exact, each destination without an
intra-area route has the best route of the usable LSAs, whatever their order is. -/
theorem interArea_best_routes (router : Router) (areaID : AreaID) (table : List RoutingTableEntry)
    (summaryLSAs : List SummaryLSA) (hintra : ∀ e ∈ table, e.pathType = .intraArea)
    (hexact : Exact router areaID table summaryLSAs) (order : List SummaryLSA)
    (horder : summaryLSAs.Perm order) :
    HasBestRoutes router areaID table summaryLSAs (calculateInterAreaRoutes router areaID order table) := by
  obtain ⟨I, heq, hI⟩ := added_foldl (P := []) (I := []) hintra hexact order
    (fun x hx ↦ horder.mem_iff.mpr hx) (List.forall_mem_nil _)
    ⟨Offers.selected_nil, List.forall_mem_nil _⟩
  rw [List.append_nil] at heq
  intro lsa hlsa husable hno
  have hmem : lsa ∈ [] ++ order.filter (isUsable router areaID table) := by
    rw [List.nil_append, List.mem_filter]
    exact ⟨horder.mem_iff.mp hlsa, husable⟩
  obtain ⟨e, he, hsame⟩ := hI.selected.complete lsa hmem fun ⟨t, ht, hsame⟩ ↦ hno t ht hsame
  have htarget : e.target = lsa.target := hsame
  refine ⟨e, ?_, htarget, ?_⟩
  · rw [calculateInterAreaRoutes, heq, List.filter_append, filter_target hI he htarget]
    have hnone : table.filter (fun x ↦ decide (x.pathType = .interArea ∧ x.target = lsa.target)) = [] := by
      rw [List.filter_eq_nil_iff]
      intro x hx
      rw [hintra x hx]
      simp
    rw [hnone]
    rfl
  · have hbest : Offers.Best (interAreaOffers areaID table) interAreaEntries
        (summaryLSAs.filter (isUsable router areaID table)) e := by
      apply (hI.selected.best e he).of_mem_iff
      intro x
      rw [List.nil_append, List.mem_filter, List.mem_filter, horder.mem_iff]
    exact ⟨hI.interArea e he, hbest.least, hbest.attained, hbest.labels⟩

end

/-! ## An area with one border router -/

/-- An intra-area entry, with one next hop. -/
def intraAreaEntry (destinationType : RoutingDestinationType) (destinationID addressMask : IPAddress) :
    RoutingTableEntry where
  destinationType := destinationType
  destinationID := destinationID
  addressMask := addressMask
  optionalCapabilities := 0
  area := 1
  pathType := .intraArea
  cost := 5
  type2Cost := 0
  linkStateOrigin := none
  nextHops := [⟨1, 0x0A010002, 0⟩]

/-- The border router 10.0.0.2 and the network 10.2.1.0/24. -/
def intraAreaTable : List RoutingTableEntry :=
  [intraAreaEntry ⟨true, false⟩ 0x0A000002 0xFFFFFFFF, intraAreaEntry networkDestination 0x0A020100 0xFFFFFF00]

/-- A summary of 10.2.0.0/16 by 10.0.0.2. -/
def summaryOf (routeCost : ℕ) : SummaryLSA where
  lsAge := 0
  lsType := .summaryNetworks
  linkStateID := 0x0A020000
  advertisingRouter := 0x0A000002
  lsSequenceNumber := initialSequenceNumber
  lsOptions := 0
  networkMask := 0xFFFF0000
  routeCost := routeCost

/-- The router 10.0.0.1 in area 1. -/
def internalRouter (areaAddressRanges : List IPv4AddressRange) : Router where
  routerID := 0x0A000001
  rfc1583Compatibility := true
  areas := [{
    areaID := 1
    areaAddressRanges := areaAddressRanges
    transitCapability := false
    externalRoutingCapability := true
    associatedInterfaces := [⟨1, false⟩]
    advertiseAddressRanges := [] }]
  routingTable := []

theorem target_summaryOf (routeCost : ℕ) :
    (summaryOf routeCost).target = .network 0x0A020000 0xFFFF0000 := by
  calc (summaryOf routeCost).target
    _ = (summaryOf 0).target := rfl
    _ = .network 0x0A020000 0xFFFF0000 := by decide

theorem exact_summaryOf (routeCost : ℕ) (h : routeCost + 5 < 65536) :
    Exact (internalRouter []) 1 intraAreaTable [summaryOf routeCost] := by
  constructor
  · intro lsa hlsa _
    rw [List.mem_singleton.mp hlsa]
    exact h
  · intro lsa hlsa _
    rw [List.mem_singleton.mp hlsa, target_summaryOf]
    rfl
  · intro lsa hlsa lsa' hlsa' _ _ address mask mask' htarget htarget'
    rw [List.mem_singleton.mp hlsa] at htarget
    rw [List.mem_singleton.mp hlsa', htarget] at htarget'
    injection htarget'
  · intro lsa hlsa _ e he address mask mask' htarget htarget'
    rw [List.mem_singleton.mp hlsa, target_summaryOf] at htarget
    injection htarget with haddress
    rw [← haddress] at htarget'
    exfalso
    rcases List.mem_cons.mp he with rfl | he
    · injection htarget'
    · rw [List.mem_singleton.mp he] at htarget'
      injection htarget' with hsame
      exact absurd hsame (by decide)
  · intro lsa hlsa _ lsa' _ _ htarget
    rw [List.mem_singleton.mp hlsa, target_summaryOf] at htarget
    injection htarget

theorem summary_adds_best_route :
    intraAreaTable ≠ [] ∧
    HasBestRoutes (internalRouter []) 1 intraAreaTable [summaryOf 7]
      (calculateInterAreaRoutes (internalRouter []) 1 [summaryOf 7] intraAreaTable) := by
  refine ⟨List.cons_ne_nil _ _, interArea_best_routes (internalRouter []) 1 intraAreaTable [summaryOf 7] ?_
    (exact_summaryOf 7 (by decide)) [summaryOf 7] (List.Perm.refl _)⟩
  intro e he
  rcases List.mem_cons.mp he with rfl | he
  · rfl
  · rw [List.mem_singleton.mp he]
    rfl

/-- With the range 10.2.0.0/16 of its own, which 10.2.1.0/24 makes active, the router takes no route from
an LSA for it, though the LSA is to be regarded and its router is reachable. -/
theorem active_range_not_routed :
    isDisregarded (internalRouter [⟨0x0A020000, 0xFFFF0000⟩]) (summaryOf 7) = false ∧
    borderRouterOf 1 intraAreaTable (summaryOf 7) = intraAreaTable.head? ∧
    (∀ e ∈ intraAreaTable, e.target ≠ (summaryOf 7).target) ∧
    calculateInterAreaRoutes (internalRouter [⟨0x0A020000, 0xFFFF0000⟩]) 1 [summaryOf 7] intraAreaTable =
      intraAreaTable := by
  decide

end InetManet.OSPF.Routing
