import InetManet.Library.Offers
import InetManet.OSPF.ExternalRoutes

/-!
# The best routes to other autonomous systems

After each LSA the table consists of the intra- and inter-area routes and of the best route to each network
that the LSAs considered so far advertise. The entries that were added do not change what the lookups of
forwarding addresses and AS boundary routers find.
-/

namespace InetManet.OSPF.Routing

section

variable {router : Router} {table ext l : List RoutingTableEntry} {areas : List AreaRanges}
  {P asExternalLSAs : List ASExternalLSA} {lsa : ASExternalLSA} {e p : RoutingTableEntry}
  {dest : IPAddress} {o : OriginLSA}

/-! ## Lookups -/

theorem foldl_considerMatch_of_le {s : Option RoutingTableEntry × ℕ}
    (h : ∀ x ∈ matching l dest, x.masked dest ≤ s.2) : l.foldl (considerMatch dest) s = s := by
  induction l with
  | nil => rfl
  | cons x l ih =>
    have hrest : ∀ y ∈ matching l dest, y.masked dest ≤ s.2 := by
      intro y hy
      apply h
      exact List.mem_filter.mpr ⟨List.mem_cons_of_mem _ (List.mem_filter.mp hy).1, (List.mem_filter.mp hy).2⟩
    have hsame : considerMatch dest s x = s := by
      unfold considerMatch
      split_ifs with hnetwork hmatch hlt
      · have hx : x ∈ matching (x :: l) dest :=
          List.mem_filter.mpr ⟨List.mem_cons_self, by rw [hnetwork, hmatch]; rfl⟩
        exact absurd hlt (h x hx).not_gt
      · rfl
      · rfl
      · rfl
    rw [List.foldl_cons, hsame, ih hrest]

theorem not_activates (hext : ∀ e ∈ ext, e.isExternal = true) (range : IPv4AddressRange) :
    ext.any (·.activates range) = false := by
  rw [List.any_eq_false]
  intro e he hactive
  have hexternal := hext e he
  simp only [RoutingTableEntry.activates, Bool.and_eq_true, beq_iff_eq] at hactive
  rw [RoutingTableEntry.isExternal, hactive.2.2] at hexternal
  exact absurd hexternal (by decide)

/-- External entries that do not match better are not found. -/
theorem lookup_append (hext : ∀ e ∈ ext, e.isExternal = true)
    (hle : ∀ x ∈ matching ext dest, x.masked dest ≤ longestMatch table dest) :
    lookup areas (table ++ ext) dest = lookup areas table dest := by
  have hdiscard : discardEntries areas (table ++ ext) = discardEntries areas table := by
    simp only [discardEntries, List.any_append, not_activates hext, Bool.or_false]
  unfold lookup
  rw [List.foldl_append, foldl_considerMatch_of_le hle, hdiscard]

theorem fields_of_target {address mask : IPAddress} (h : e.target = .network address mask) :
    e.isNetwork = true ∧ e.destinationID = address ∧ e.addressMask = mask := by
  unfold RoutingTableEntry.target at h
  cases hnetwork : e.isNetwork with
  | false => simp [hnetwork] at h
  | true => simpa [hnetwork] using h

/-- The entries for a network match its address, and none of them is longer. -/
theorem matching_of_target {mask : IPAddress} (htarget : e.target = .network dest mask)
    (hmask : dest &&& mask = dest) :
    (e.isNetwork && e.isMatch dest) = true ∧ e.masked dest = dest.toNat := by
  obtain ⟨hnetwork, hid, hm⟩ := fields_of_target htarget
  rw [hnetwork, RoutingTableEntry.isMatch, RoutingTableEntry.masked, hid, hm, hmask]
  exact ⟨by simp, rfl⟩

/-- No discard entry is longer than the network of the destination. -/
theorem not_discarded (hmasked : e.masked dest = dest.toNat) :
    ¬ ((discardEntries areas l).any fun discard ↦
      discard.isMatch dest && e.masked dest < discard.masked dest) = true := by
  rw [List.any_eq_true]
  rintro ⟨discard, -, hdiscard⟩
  rw [Bool.and_eq_true, decide_eq_true_eq, hmasked] at hdiscard
  have hle : discard.masked dest ≤ dest.toNat := by
    rw [RoutingTableEntry.masked, BitVec.toNat_and]
    exact Nat.and_le_left
  exact absurd hdiscard.2 hle.not_gt

/-- Where the network of the destination is the only one that covers it, it is the one that is found. -/
theorem lookup_eq_find {target : Destination} {mask : IPAddress} (htarget : target = .network dest mask)
    (hmask : dest &&& mask = dest) (hne : dest ≠ 0)
    (honly : ∀ x ∈ matching l dest, dest &&& x.addressMask ≠ 0 → x.target = target) :
    lookup areas l dest = l.find? fun x ↦ decide (x.target = target) := by
  have hmatching (x : RoutingTableEntry) (hx : x.target = target) :=
    matching_of_target (hx.trans htarget) hmask
  have hfind : l.find? (fun x ↦ decide (x.target = target)) =
      (matching l dest).find? fun x ↦ decide (x.target = target) := by
    rw [matching, List.find?_filter]
    congr
    ext x
    by_cases hx : x.target = target
    · simp [hx, (hmatching x hx).1]
    · simp [hx]
  rw [hfind]
  rcases bestMatch_cases l dest with ⟨hnone, hzero⟩ | ⟨before, found, after, hsplit, hfold, hpositive,
    hbefore, hafter⟩
  · have hno : (matching l dest).find? (fun x ↦ decide (x.target = target)) = none := by
      rw [List.find?_eq_none]
      intro x hx hsame
      have hmasked := (hmatching x (of_decide_eq_true hsame)).2
      rw [hzero x hx] at hmasked
      exact hne (BitVec.eq_of_toNat_eq hmasked.symm)
    rw [hno, lookup]
    generalize l.foldl (considerMatch dest) (none, 0) = s at hnone ⊢
    obtain ⟨bestMatch, longest⟩ := s
    obtain rfl : bestMatch = none := hnone
    rfl
  · have hmem : found ∈ matching l dest := by
      rw [hsplit]
      exact List.mem_append_right before List.mem_cons_self
    have htargetFound : found.target = target := by
      apply honly found hmem
      intro hzero
      exact hpositive.ne' (masked_eq_zero.mpr hzero)
    have hmasked := (hmatching found htargetFound).2
    have hnone : before.find? (fun x ↦ decide (x.target = target)) = none := by
      rw [List.find?_eq_none]
      intro x hx hsame
      have hlt := hbefore x hx
      rw [hmasked, (hmatching x (of_decide_eq_true hsame)).2] at hlt
      exact lt_irrefl _ hlt
    have hsome : (matching l dest).find? (fun x ↦ decide (x.target = target)) = some found := by
      rw [hsplit, List.find?_append, hnone, List.find?_cons, decide_eq_true htargetFound]
      rfl
    rw [hsome, lookup, hfold]
    dsimp only
    rw [if_neg (not_discarded hmasked)]

/-! ## Preferred entries -/

theorem not_asBoundaryRouter (h : e.isNetwork = true) : e.destinationType.asBoundaryRouter = false := by
  rw [RoutingTableEntry.isNetwork, beq_iff_eq] at h
  rw [h]
  rfl

/-- External networks change nothing if they do not match the forwarding address better. -/
theorem getPreferredEntry_append {skipSelfOriginated : Bool} (hext : ∀ e ∈ ext, e.isExternal = true)
    (hnetwork : ∀ e ∈ ext, e.isNetwork = true) (hle : ∀ contents, o.asExternal = some contents →
      contents.forwardingAddress ≠ 0 → ∀ x ∈ matching ext contents.forwardingAddress,
        x.masked contents.forwardingAddress ≤ longestMatch table contents.forwardingAddress) :
    router.getPreferredEntry o skipSelfOriginated (table ++ ext) =
      router.getPreferredEntry o skipSelfOriginated table := by
  have hroutes (id : IPAddress) :
      getRoutesToASBoundaryRouter (table ++ ext) id = getRoutesToASBoundaryRouter table id := by
    have hnone : getRoutesToASBoundaryRouter ext id = [] := by
      rw [getRoutesToASBoundaryRouter, List.filter_eq_nil_iff]
      intro e he
      rw [not_asBoundaryRouter (hnetwork e he)]
      simp
    unfold getRoutesToASBoundaryRouter at hnone ⊢
    rw [List.filter_append, hnone, List.append_nil]
  have hhas (id : IPAddress) :
      hasRouteToASBoundaryRouter (table ++ ext) id = hasRouteToASBoundaryRouter table id := by
    have hnone : hasRouteToASBoundaryRouter ext id = false := by
      rw [hasRouteToASBoundaryRouter, List.any_eq_false]
      intro e he
      rw [not_asBoundaryRouter (hnetwork e he)]
      simp
    unfold hasRouteToASBoundaryRouter at hnone ⊢
    rw [List.any_append, hnone, Bool.or_false]
  unfold Router.getPreferredEntry
  rw [hhas, hroutes]
  cases hcontents : o.asExternal with
  | none => rfl
  | some contents =>
    by_cases hzero : contents.forwardingAddress = 0
    · simp only [Option.map_some, Option.getD_some, if_pos hzero]
    · simp only [Option.map_some, Option.getD_some, lookup_append hext (hle contents hcontents hzero)]

/-- An LSA that is not skipped as self-originated has the same entry if those are not skipped. -/
theorem getPreferredEntry_of_skip (h : router.getPreferredEntry o true l = some p) :
    router.getPreferredEntry o false l = some p := by
  unfold Router.getPreferredEntry at h ⊢
  dsimp only at h ⊢
  split at h
  · cases h
  · rename_i hregarded
    rw [if_neg]
    · exact h
    · intro hskip
      apply hregarded
      rcases hskip with hskip | hskip | hskip
      · exact .inl hskip
      · exact .inr (.inl hskip)
      · exact absurd hskip (by simp)

/-! ## The entries added so far -/

def externalOffers (router : Router) (table : List RoutingTableEntry) :
    Offers.Terms ASExternalLSA Destination ExternalRank Empty where
  target lsa := lsa.target
  rank lsa := rankOf router table lsa
  labels _ := []

def externalEntries : Offers.Terms RoutingTableEntry Destination ExternalRank Empty where
  target entry := entry.target
  rank entry := entry.externalRank
  labels _ := []

/-- The entries `ext` are the best routes of the usable LSAs `P`. -/
structure AddedExternal (router : Router) (table : List RoutingTableEntry) (P : List ASExternalLSA)
    (ext : List RoutingTableEntry) : Prop where
  selected : Offers.Selected (externalOffers router table) externalEntries
    (fun target ↦ ∃ t ∈ table, t.target = target) P ext
  external : ∀ e ∈ ext, e.isExternal = true
  origin : ∀ e ∈ ext, ∃ first ∈ P, first.target = e.target ∧ e.linkStateOrigin = some first.origin

/-- The LSA is one of those that are considered, and the inputs are exact. -/
structure ConsideredExternal (router : Router) (table : List RoutingTableEntry)
    (asExternalLSAs P : List ASExternalLSA) (lsa : ASExternalLSA) : Prop where
  paths : ∀ e ∈ table, e.pathType = .intraArea ∨ e.pathType = .interArea
  exact : ExactExternal router table asExternalLSAs
  mem : lsa ∈ asExternalLSAs
  earlier : ∀ x ∈ P, x ∈ asExternalLSAs ∧ isUsableExternal router table x = true

theorem destination_and_mask (lsa : ASExternalLSA) :
    lsa.destination &&& lsa.contents.networkMask = lsa.destination := by
  rw [ASExternalLSA.destination, BitVec.and_assoc, BitVec.and_self]

theorem AddedExternal.network (hA : AddedExternal router table P ext) (he : e ∈ ext) :
    ∃ x ∈ P, x.target = e.target ∧ rankOf router table x = e.externalRank ∧ e.isNetwork = true ∧
      e.destinationID = x.destination ∧ e.addressMask = x.contents.networkMask := by
  obtain ⟨x, hx, htarget, hrank⟩ := (hA.selected.best e he).attained
  exact ⟨x, hx, htarget, hrank, fields_of_target htarget.symm⟩

/-- An entry that was added and matches is the network of an LSA. -/
theorem AddedExternal.matching (hA : AddedExternal router table P ext) (he : e ∈ matching ext dest) :
    ∃ x ∈ P, x.target = e.target ∧ x.destination = dest &&& x.contents.networkMask ∧
      e.masked dest = x.destination.toNat := by
  obtain ⟨hmem, hmatches⟩ := List.mem_filter.mp he
  obtain ⟨x, hx, htarget, -, hnetwork, hid, hmask⟩ := hA.network hmem
  rw [hnetwork, Bool.true_and, RoutingTableEntry.isMatch, hid, hmask, destination_and_mask, beq_iff_eq]
    at hmatches
  refine ⟨x, hx, htarget, hmatches, ?_⟩
  rw [RoutingTableEntry.masked, hmask, ← hmatches]

theorem getPreferredEntry_added {x : ASExternalLSA} {skipSelfOriginated : Bool}
    (hc : ConsideredExternal router table asExternalLSAs P lsa) (hA : AddedExternal router table P ext)
    (hx : x ∈ asExternalLSAs) :
    router.getPreferredEntry x.origin skipSelfOriginated (table ++ ext) =
      router.getPreferredEntry x.origin skipSelfOriginated table := by
  apply getPreferredEntry_append hA.external
  · intro e he
    obtain ⟨_, _, _, _, hnetwork, _⟩ := hA.network he
    exact hnetwork
  · intro contents hcontents hne e he
    obtain rfl : x.contents = contents := Option.some.inj hcontents
    obtain ⟨y, hy, -, hdestination, hmasked⟩ := hA.matching he
    obtain ⟨hmem, husable⟩ := hc.earlier y hy
    rw [hmasked]
    exact hc.exact.forwarding x hx hne y hmem husable hdestination

theorem lookup_added (hc : ConsideredExternal router table asExternalLSAs P lsa)
    (hA : AddedExternal router table P ext) (husable : isUsableExternal router table lsa = true) :
    lookup areas (table ++ ext) lsa.destination =
      (table ++ ext).find? fun x ↦ decide (x.target = lsa.target) := by
  apply lookup_eq_find rfl (destination_and_mask lsa) (hc.exact.nonzero lsa hc.mem husable)
  intro x hx hne
  have hsplit : OSPF.Routing.matching (table ++ ext) lsa.destination =
      OSPF.Routing.matching table lsa.destination ++ OSPF.Routing.matching ext lsa.destination :=
    List.filter_append table ext
  rw [hsplit, List.mem_append] at hx
  rcases hx with hx | hx
  · exact hc.exact.uncovered lsa hc.mem husable x hx hne
  · obtain ⟨y, hy, htarget, hdestination, -⟩ := hA.matching hx
    obtain ⟨hmem, husable'⟩ := hc.earlier y hy
    rw [← htarget]
    exact hc.exact.distinct lsa hc.mem y hmem husable husable' hdestination

/-! ## Ranks -/

theorem preferredCost_of_some (h : preferredOf router table lsa = some p) :
    preferredCost router table lsa = p.cost := by
  rw [preferredCost, h]
  rfl

theorem externalRank_of_fields (hpreferred : preferredOf router table lsa = some p)
    (hcost : lsa.externalCost = lsa.contents.routeCost) (hpath : e.pathType = lsa.pathType)
    (hentry : e.cost = lsa.costBy p)
    (htype2 : lsa.type2ExternalMetric = true → e.type2Cost = lsa.externalCost) :
    e.externalRank = rankOf router table lsa := by
  rw [RoutingTableEntry.externalRank, rankOf, preferredCost_of_some hpreferred, hpath, hentry,
    ASExternalLSA.pathType, ASExternalLSA.costBy, ← hcost]
  cases htype : lsa.type2ExternalMetric with
  | false => rfl
  | true => simp [htype2 htype]

theorem isExternal_of_pathType (h : e.pathType = lsa.pathType) : e.isExternal = true := by
  rw [RoutingTableEntry.isExternal, h, ASExternalLSA.pathType]
  cases lsa.type2ExternalMetric <;> rfl

theorem rankOf_type1 (h : lsa.type2ExternalMetric = false) : rankOf router table lsa =
    toLex (0, toLex (preferredCost router table lsa + lsa.contents.routeCost, 0)) := by
  rw [rankOf, h]
  rfl

theorem rankOf_type2 (h : lsa.type2ExternalMetric = true) : rankOf router table lsa =
    toLex (1, toLex (lsa.contents.routeCost, preferredCost router table lsa)) := by
  rw [rankOf, h]
  rfl

theorem externalRank_type1 (h : e.pathType = .type1External) :
    e.externalRank = toLex (0, toLex (e.cost, 0)) := by
  rw [RoutingTableEntry.externalRank, h]
  rfl

theorem externalRank_type2 (h : e.pathType = .type2External) :
    e.externalRank = toLex (1, toLex (e.type2Cost, e.cost)) :=
  if_pos h

theorem rank_le_iff {a b c a' b' c' : ℕ} :
    (toLex (a, toLex (b, c)) : ExternalRank) ≤ toLex (a', toLex (b', c')) ↔
      a < a' ∨ a = a' ∧ (b < b' ∨ b = b' ∧ c ≤ c') := by
  rw [Prod.Lex.toLex_le_toLex, Prod.Lex.toLex_le_toLex]

theorem isExternal_cases (h : e.isExternal = true) :
    e.pathType = .type1External ∨ e.pathType = .type2External := by
  simpa [RoutingTableEntry.isExternal] using h

/-- An entry of a worse type, or cost of type 2, than the LSA has. -/
theorem le_of_hasWorseType (hcost : lsa.externalCost = lsa.contents.routeCost)
    (h : lsa.hasWorseType e = true) : e.externalRank ≤ rankOf router table lsa := by
  simp only [ASExternalLSA.hasWorseType, Bool.or_eq_true, Bool.and_eq_true, beq_iff_eq, decide_eq_true_eq]
    at h
  rcases h with ⟨hpath, htype⟩ | ⟨⟨hpath, htype⟩, hlt⟩
  · rw [externalRank_type1 hpath, rankOf_type2 htype, rank_le_iff]
    exact .inl Nat.one_pos
  · rw [externalRank_type2 hpath, rankOf_type2 htype, rank_le_iff, ← hcost]
    exact .inr ⟨rfl, .inl hlt⟩

section

variable {first best : ASExternalLSA}

theorem fields_of_rank (hpath : e.pathType = .type2External)
    (hrank : rankOf router table best = e.externalRank) : best.type2ExternalMetric = true ∧
      best.contents.routeCost = e.type2Cost ∧ preferredCost router table best = e.cost := by
  rw [externalRank_type2 hpath] at hrank
  cases htype : best.type2ExternalMetric with
  | false =>
    rw [rankOf_type1 htype, toLex_inj, Prod.mk.injEq] at hrank
    exact absurd hrank.1 Nat.zero_ne_one
  | true =>
    rw [rankOf_type2 htype, toLex_inj, Prod.mk.injEq, toLex_inj, Prod.mk.injEq] at hrank
    exact ⟨rfl, hrank.2.1, hrank.2.2⟩

/-- The first LSA decides as the entry itself does, where both are of type 2 and equal in it. -/
theorem AddedExternal.compare_origin (hA : AddedExternal router table P ext)
    (hc : ConsideredExternal router table asExternalLSAs P lsa)
    (husable : isUsableExternal router table lsa = true) (he : e ∈ ext) (htarget : e.target = lsa.target)
    (hpath : e.pathType = .type2External) (htype : lsa.type2ExternalMetric = true)
    (hequal : e.type2Cost = lsa.contents.routeCost) (hfirst : first ∈ P) (hft : first.target = e.target) :
    (preferredCost router table lsa < e.cost →
      preferredCost router table lsa < preferredCost router table first) ∧
    (e.cost < preferredCost router table lsa →
      preferredCost router table first ≤ preferredCost router table lsa) := by
  obtain ⟨x, hx, hxt, hxrank⟩ := (hA.selected.best e he).attained
  obtain ⟨hxtype, hxcost, hxpreferred⟩ := fields_of_rank hpath hxrank
  have hle : e.externalRank ≤ rankOf router table first := (hA.selected.best e he).least first hfirst hft
  rcases hle.lt_or_eq with hlt | heq
  · obtain ⟨hxmem, hxusable⟩ := hc.earlier x hx
    obtain ⟨hmem, hfirstUsable⟩ := hc.earlier first hfirst
    rw [← hxpreferred]
    apply hc.exact.origin first hmem x hxmem lsa hc.mem hfirstUsable hxusable husable
      (hft.trans htarget) (hxt.trans htarget) hxtype htype (hxcost.trans hequal)
    have hsame : rankOf router table x = e.externalRank := hxrank
    rw [hsame]
    exact hlt
  · obtain ⟨-, -, hpreferred⟩ := fields_of_rank hpath heq.symm
    rw [hpreferred]
    exact ⟨id, le_of_lt⟩

/-- The LSA is better if the comparison says so, and not better otherwise. -/
theorem AddedExternal.compareCost (hA : AddedExternal router table P ext)
    (hc : ConsideredExternal router table asExternalLSAs P lsa)
    (husable : isUsableExternal router table lsa = true) (he : e ∈ ext) (htarget : e.target = lsa.target)
    (hfirst : first ∈ P) (hft : first.target = e.target) {pf : RoutingTableEntry}
    (hp : preferredOf router table lsa = some p) (hpf : preferredOf router table first = some pf)
    (hworse : lsa.hasWorseType e = false) :
    ∃ order, lsa.compareCost p e (some pf) = some order ∧
      (order = .gt → rankOf router table lsa ≤ e.externalRank) ∧
      (order ≠ .gt → e.externalRank ≤ rankOf router table lsa) := by
  have hexact : lsa.externalCost = lsa.contents.routeCost :=
    Nat.mod_eq_of_lt (hc.exact.cost lsa hc.mem husable)
  have hcost := preferredCost_of_some hp
  unfold ASExternalLSA.compareCost
  unfold ASExternalLSA.hasWorseType at hworse
  rcases isExternal_cases (hA.external e he) with hpath | hpath
  · cases htype : lsa.type2ExternalMetric with
    | true =>
      rw [hpath, htype] at hworse
      cases hworse
    | false =>
      refine ⟨_, if_pos ⟨hpath, rfl⟩, ?_, ?_⟩
      · intro hgt
        rw [rankOf_type1 htype, externalRank_type1 hpath, rank_le_iff, hcost, ← hexact]
        rw [Nat.compare_eq_gt] at hgt
        exact .inr ⟨rfl, .inl hgt⟩
      · intro hle
        rw [rankOf_type1 htype, externalRank_type1 hpath, rank_le_iff, hcost, ← hexact]
        rcases (Nat.compare_ne_gt.mp hle).lt_or_eq with hlt | heq
        · exact .inr ⟨rfl, .inl hlt⟩
        · exact .inr ⟨rfl, .inr ⟨heq, le_refl 0⟩⟩
  · have hfirstCase : ¬ (e.pathType = .type1External ∧ lsa.type2ExternalMetric = false) := by
      rw [hpath]
      nofun
    rw [if_neg hfirstCase]
    cases htype : lsa.type2ExternalMetric with
    | false =>
      refine ⟨.gt, if_neg (by simp), ?_, fun hne ↦ absurd rfl hne⟩
      intro _
      rw [rankOf_type1 htype, externalRank_type2 hpath, rank_le_iff]
      exact .inl Nat.one_pos
    | true =>
      by_cases hequal : e.type2Cost = lsa.externalCost
      · have horigin := hA.compare_origin hc husable he htarget hpath htype (hequal.trans hexact) hfirst hft
        rw [hcost, preferredCost_of_some hpf] at horigin
        refine ⟨_, if_pos ⟨hpath, rfl, hequal⟩, ?_, ?_⟩
        · intro hgt
          rw [Nat.compare_eq_gt] at hgt
          rw [rankOf_type2 htype, externalRank_type2 hpath, rank_le_iff, hcost, ← hexact]
          refine .inr ⟨rfl, .inr ⟨hequal.symm, ?_⟩⟩
          by_contra hlt
          exact absurd hgt (horigin.2 (not_le.mp hlt)).not_gt
        · intro hle
          rw [Nat.compare_ne_gt] at hle
          rw [rankOf_type2 htype, externalRank_type2 hpath, rank_le_iff, hcost, ← hexact]
          refine .inr ⟨rfl, .inr ⟨hequal, ?_⟩⟩
          by_contra hlt
          exact absurd hle (horigin.1 (not_le.mp hlt)).not_ge
      · refine ⟨.gt, if_neg (by simp [hequal]), ?_, fun hne ↦ absurd rfl hne⟩
        intro _
        rw [hpath, htype] at hworse
        have hge : ¬ e.type2Cost < lsa.externalCost := by simpa using hworse
        rw [rankOf_type2 htype, externalRank_type2 hpath, rank_le_iff, ← hexact]
        exact .inr ⟨rfl, .inl (lt_of_le_of_ne (not_lt.mp hge) (Ne.symm hequal))⟩

/-- A path without preference that is skipped is not better. -/
theorem AddedExternal.isLessPreferred (hA : AddedExternal router table P ext)
    (hc : ConsideredExternal router table asExternalLSAs P lsa)
    (husable : isUsableExternal router table lsa = true) (he : e ∈ ext) (htarget : e.target = lsa.target)
    (hfirst : first ∈ P) (hft : first.target = e.target) {pf : RoutingTableEntry}
    (hp : preferredOf router table lsa = some p) (hpf : preferredOf router table first = some pf) :
    ∃ less, OSPF.Routing.isLessPreferred router p (some pf) = some less ∧
      (less = true → e.externalRank ≤ rankOf router table lsa) := by
  unfold OSPF.Routing.isLessPreferred
  cases hcompatible : router.rfc1583Compatibility with
  | true => exact ⟨false, rfl, nofun⟩
  | false =>
    refine ⟨pf.isNonBackbone && !p.isNonBackbone, rfl, ?_⟩
    intro hless
    rw [Bool.and_eq_true, Bool.not_eq_true'] at hless
    obtain ⟨hmem, hfirstUsable⟩ := hc.earlier first hfirst
    apply ((hA.selected.best e he).least first hfirst hft).trans
    apply hc.exact.preference hcompatible first hmem lsa hc.mem hfirstUsable husable (hft.trans htarget).symm
    · rw [isPreferredNonBackbone, hpf]
      exact hless.1
    · rw [isPreferredNonBackbone, hp]
      exact hless.2

end

/-! ## One LSA -/

section

variable {before after : List RoutingTableEntry} {new : RoutingTableEntry}

/-- The entry for the network takes the lesser one of the two ranks. -/
theorem AddedExternal.update (hA : AddedExternal router table P (before ++ e :: after))
    (htarget : e.target = lsa.target) (hnew : new.target = e.target) (hexternal : new.isExternal = true)
    (horigin : new.linkStateOrigin = e.linkStateOrigin)
    (hrank : new.externalRank = min e.externalRank (rankOf router table lsa)) :
    AddedExternal router table (P ++ [lsa]) (before ++ new :: after) := by
  have hmem : e ∈ before ++ e :: after := List.mem_append_right before List.mem_cons_self
  have hbest := hA.selected.best e hmem
  have hmiddle : (before ++ new :: after).Perm (new :: (before ++ after)) := List.perm_middle
  have hkept (x : RoutingTableEntry) (hx : x ∈ before ++ new :: after) :
      x = new ∨ x ∈ before ++ e :: after := by
    rw [hmiddle.mem_iff, List.mem_cons] at hx
    apply hx.imp_right
    intro hx
    exact List.perm_middle.mem_iff.mpr (List.mem_cons_of_mem e hx)
  refine ⟨hA.selected.replace hmiddle htarget (hnew.trans htarget) ?_, ?_, ?_⟩
  · rcases lt_trichotomy e.externalRank (rankOf router table lsa) with hlt | heq | hgt
    · have hirrelevant : Offers.Best (externalOffers router table) externalEntries (P ++ [lsa]) e :=
        hbest.irrelevant fun _ ↦ hlt
      exact hirrelevant.congr hnew (hrank.trans (min_eq_left hlt.le)) rfl
    · exact hbest.equal htarget.symm heq hnew (hrank.trans (min_eq_left heq.le)) rfl
    · refine Offers.Best.only (hnew.trans htarget) (hrank.trans (min_eq_right hgt.le)) rfl ?_
      intro x hx hxt
      exact lt_of_lt_of_le hgt (hbest.least x hx (Eq.trans hxt htarget.symm))
  · intro x hx
    rcases hkept x hx with rfl | hx
    · exact hexternal
    · exact hA.external x hx
  · intro x hx
    rcases hkept x hx with rfl | hx
    · obtain ⟨first, hfirst, hft, ho⟩ := hA.origin e hmem
      exact ⟨first, List.mem_append_left _ hfirst, hft.trans hnew.symm, horigin.trans ho⟩
    · obtain ⟨first, hfirst, hrest⟩ := hA.origin x hx
      exact ⟨first, List.mem_append_left _ hfirst, hrest⟩

theorem target_overwrite (h : e.isNetwork = true) : (lsa.overwrite p e).target = e.target := by
  rw [RoutingTableEntry.target, RoutingTableEntry.target, h]
  rfl

theorem replace_middle (htable : e ∉ table) (hbefore : e ∉ before) :
    (table ++ (before ++ e :: after)).replace e new = table ++ (before ++ new :: after) := by
  rw [List.replace_append_right htable, List.replace_append_right hbefore, List.replace_cons_self]

theorem updateEntry_added (hc : ConsideredExternal router table asExternalLSAs P lsa)
    (hA : AddedExternal router table P (before ++ e :: after))
    (hp : preferredOf router table lsa = some p) (htarget : e.target = lsa.target)
    (hno : ∀ t ∈ table, t.target ≠ lsa.target) :
    ∃ ext', updateEntry router (table ++ (before ++ e :: after)) lsa p e = some (table ++ ext') ∧
      AddedExternal router table (P ++ [lsa]) ext' := by
  have husable : isUsableExternal router table lsa = true := by
    rw [isUsableExternal, hp]
    rfl
  have hexact : lsa.externalCost = lsa.contents.routeCost :=
    Nat.mod_eq_of_lt (hc.exact.cost lsa hc.mem husable)
  have hmem : e ∈ before ++ e :: after := List.mem_append_right before List.mem_cons_self
  have hpath : ¬ (e.pathType = .intraArea ∨ e.pathType = .interArea) := by
    rcases isExternal_cases (hA.external e hmem) with h | h <;> rw [h] <;> decide
  have hreplace (new : RoutingTableEntry) :
      (table ++ (before ++ e :: after)).replace e new = table ++ (before ++ new :: after) := by
    apply replace_middle
    · intro he
      exact hno e he htarget
    · intro he
      exact hA.selected.unique e (List.mem_append_left after he) rfl
  have hkeep (hle : e.externalRank ≤ rankOf router table lsa) :
      AddedExternal router table (P ++ [lsa]) (before ++ e :: after) :=
    hA.update htarget rfl (hA.external e hmem) rfl (min_eq_left hle).symm
  obtain ⟨first, hfirst, hft, horigin⟩ := hA.origin e hmem
  obtain ⟨hfirstMem, hfirstUsable⟩ := hc.earlier first hfirst
  obtain ⟨pf, hpf⟩ := Option.isSome_iff_exists.mp hfirstUsable
  have hpreferred : router.getPreferredEntry first.origin false (table ++ (before ++ e :: after)) = some pf := by
    rw [getPreferredEntry_added hc hA hfirstMem]
    exact getPreferredEntry_of_skip hpf
  unfold updateEntry
  rw [if_neg hpath]
  cases hworse : lsa.hasWorseType e with
  | true => exact ⟨_, rfl, hkeep (le_of_hasWorseType hexact hworse)⟩
  | false =>
    obtain ⟨less, hless, hlessRank⟩ := hA.isLessPreferred hc husable hmem htarget hfirst hft hp hpf
    obtain ⟨order, horder, hbetter, hnotBetter⟩ :=
      hA.compareCost hc husable hmem htarget hfirst hft hp hpf hworse
    simp only [Bool.false_eq_true, if_false, horigin, hpreferred, hless, horder]
    cases less with
    | true => exact ⟨_, rfl, hkeep (hlessRank rfl)⟩
    | false =>
      cases order with
      | lt => exact ⟨_, rfl, hkeep (hnotBetter nofun)⟩
      | eq =>
        refine ⟨_, congrArg some (hreplace _), hA.update htarget rfl (hA.external e hmem) horigin.symm ?_⟩
        exact (min_eq_left (hnotBetter nofun)).symm
      | gt =>
        obtain ⟨_, _, _, _, hnetwork, _⟩ := hA.network hmem
        refine ⟨_, congrArg some (hreplace _), hA.update htarget ?_ ?_ rfl ?_⟩
        · exact target_overwrite hnetwork
        · exact @isExternal_of_pathType lsa _ rfl
        · rw [min_eq_right (hbetter rfl)]
          apply externalRank_of_fields hp hexact rfl rfl
          intro htype
          exact if_pos htype

theorem AddedExternal.settled (hA : AddedExternal router table P ext)
    (ht : ∃ t ∈ table, t.target = lsa.target) : AddedExternal router table (P ++ [lsa]) ext := by
  refine ⟨hA.selected.extend_settled ht, hA.external, ?_⟩
  intro e he
  obtain ⟨first, hfirst, hrest⟩ := hA.origin e he
  exact ⟨first, List.mem_append_left _ hfirst, hrest⟩

theorem AddedExternal.append (hA : AddedExternal router table P ext)
    (htable : ∀ t ∈ table, t.target ≠ lsa.target) (hext : ∀ e ∈ ext, e.target ≠ lsa.target)
    (hrank : (lsa.newEntry p).externalRank = rankOf router table lsa) :
    AddedExternal router table (P ++ [lsa]) (ext ++ [lsa.newEntry p]) := by
  refine ⟨?_, ?_, ?_⟩
  · apply hA.selected.append _ hext rfl hrank rfl
    rintro ⟨t, ht, hsame⟩
    exact htable t ht hsame
  · intro e he
    rcases List.mem_append.mp he with he | he
    · exact hA.external e he
    · rw [List.mem_singleton.mp he]
      exact @isExternal_of_pathType lsa _ rfl
  · intro e he
    rcases List.mem_append.mp he with he | he
    · obtain ⟨first, hfirst, hrest⟩ := hA.origin e he
      exact ⟨first, List.mem_append_left _ hfirst, hrest⟩
    · rw [List.mem_singleton.mp he]
      exact ⟨lsa, List.mem_append_right _ List.mem_cons_self, rfl, rfl⟩

theorem considerASExternalLSA_added (hc : ConsideredExternal router table asExternalLSAs P lsa)
    (hA : AddedExternal router table P ext) :
    ∃ ext', considerASExternalLSA router (table ++ ext) lsa = some (table ++ ext') ∧
      AddedExternal router table (P ++ [lsa].filter (isUsableExternal router table)) ext' := by
  have hpreferred : router.getPreferredEntry lsa.origin true (table ++ ext) = preferredOf router table lsa :=
    getPreferredEntry_added hc hA hc.mem
  unfold considerASExternalLSA
  rw [hpreferred]
  cases hp : preferredOf router table lsa with
  | none =>
    have husable : isUsableExternal router table lsa = false := by
      rw [isUsableExternal, hp]
      rfl
    refine ⟨ext, rfl, ?_⟩
    rw [List.filter_cons, husable]
    simpa using hA
  | some p =>
    have husable : isUsableExternal router table lsa = true := by
      rw [isUsableExternal, hp]
      rfl
    have hexact : lsa.externalCost = lsa.contents.routeCost :=
      Nat.mod_eq_of_lt (hc.exact.cost lsa hc.mem husable)
    rw [List.filter_cons, husable, if_pos rfl, List.filter_nil]
    dsimp only
    rw [lookup_added hc hA husable, List.find?_append]
    cases htable : table.find? fun x ↦ decide (x.target = lsa.target) with
    | some t =>
      have hsame : t.target = lsa.target := by simpa using List.find?_some htable
      have hmem : t ∈ table := List.mem_of_find?_eq_some htable
      exact ⟨ext, if_pos (hc.paths t hmem), hA.settled ⟨t, hmem, hsame⟩⟩
    | none =>
      have hno : ∀ t ∈ table, t.target ≠ lsa.target := by
        intro t ht hsame
        exact absurd (decide_eq_true hsame) (List.find?_eq_none.mp htable t ht)
      rw [Option.none_or]
      cases hext : ext.find? fun x ↦ decide (x.target = lsa.target) with
      | some e =>
        have htarget : e.target = lsa.target := by simpa using List.find?_some hext
        obtain ⟨before, after, rfl⟩ := List.append_of_mem (List.mem_of_find?_eq_some hext)
        exact updateEntry_added hc hA hp htarget hno
      | none =>
        have hnone : ∀ e ∈ ext, e.target ≠ lsa.target := by
          intro e he hsame
          exact absurd (decide_eq_true hsame) (List.find?_eq_none.mp hext e he)
        have hrank : (lsa.newEntry p).externalRank = rankOf router table lsa := by
          apply externalRank_of_fields hp hexact rfl rfl
          intro htype
          exact if_pos htype
        exact ⟨ext ++ [lsa.newEntry p], by rw [List.append_assoc], hA.append hno hnone hrank⟩

end

/-! ## All LSAs -/

theorem foldlM_added (hpaths : ∀ e ∈ table, e.pathType = .intraArea ∨ e.pathType = .interArea)
    (hexact : ExactExternal router table asExternalLSAs) (rest : List ASExternalLSA)
    (hrest : ∀ x ∈ rest, x ∈ asExternalLSAs)
    (hearlier : ∀ x ∈ P, x ∈ asExternalLSAs ∧ isUsableExternal router table x = true)
    (hA : AddedExternal router table P ext) :
    ∃ ext', rest.foldlM (considerASExternalLSA router) (table ++ ext) = some (table ++ ext') ∧
      AddedExternal router table (P ++ rest.filter (isUsableExternal router table)) ext' := by
  induction rest generalizing P ext with
  | nil => exact ⟨ext, rfl, by simpa using hA⟩
  | cons lsa rest ih =>
    have hc : ConsideredExternal router table asExternalLSAs P lsa :=
      ⟨hpaths, hexact, hrest lsa List.mem_cons_self, hearlier⟩
    obtain ⟨ext', hstep, hA'⟩ := considerASExternalLSA_added hc hA
    have hearlier' : ∀ x ∈ P ++ [lsa].filter (isUsableExternal router table),
        x ∈ asExternalLSAs ∧ isUsableExternal router table x = true := by
      intro x hx
      rcases List.mem_append.mp hx with hx | hx
      · exact hearlier x hx
      · obtain ⟨hx, husable⟩ := List.mem_filter.mp hx
        rw [List.mem_singleton.mp hx] at husable ⊢
        exact ⟨hc.mem, husable⟩
    obtain ⟨ext'', hfold, hA''⟩ := ih (fun x hx ↦ hrest x (List.mem_cons_of_mem _ hx)) hearlier' hA'
    refine ⟨ext'', ?_, ?_⟩
    · rw [List.foldlM_cons, hstep]
      exact hfold
    · rw [List.append_assoc, ← List.filter_append] at hA''
      exact hA''

/-- For every order of the LSAs, on the inputs on which the lookups and the comparisons are exact, no NULL
pointer is followed, and each network that is advertised and is not in the table has the best route. -/
theorem external_best_routes (router : Router) (table : List RoutingTableEntry)
    (asExternalLSAs : List ASExternalLSA)
    (hpaths : ∀ e ∈ table, e.pathType = .intraArea ∨ e.pathType = .interArea)
    (hexact : ExactExternal router table asExternalLSAs) (order : List ASExternalLSA)
    (horder : asExternalLSAs.Perm order) :
    HasBestExternalRoutes router table asExternalLSAs (calculateASExternalRoutes router order table) := by
  have hempty : AddedExternal router table [] [] :=
    ⟨Offers.selected_nil, List.forall_mem_nil _, List.forall_mem_nil _⟩
  obtain ⟨external, hfold, hA⟩ := foldlM_added (P := []) hpaths hexact order
    (fun x hx ↦ horder.mem_iff.mpr hx) (List.forall_mem_nil _) hempty
  rw [List.append_nil] at hfold
  rw [List.nil_append] at hA
  refine ⟨external, hfold, hA.external, ?_⟩
  intro lsa hlsa husable hno
  have hmem : lsa ∈ order.filter (isUsableExternal router table) :=
    List.mem_filter.mpr ⟨horder.mem_iff.mp hlsa, husable⟩
  obtain ⟨e, he, htarget⟩ := hA.selected.complete lsa hmem fun ⟨t, ht, hsame⟩ ↦ hno t ht hsame
  have hsame : e.target = lsa.target := htarget
  have hbest : Offers.Best (externalOffers router table) externalEntries
      (asExternalLSAs.filter (isUsableExternal router table)) e := by
    apply (hA.selected.best e he).of_mem_iff
    intro x
    rw [List.mem_filter, List.mem_filter, horder.mem_iff]
  refine ⟨e, ?_, hsame, hA.external e he, hbest.least, hbest.attained⟩
  obtain ⟨before, after, rfl⟩ := List.append_of_mem he
  have hnone (l : List RoutingTableEntry) (hl : ∀ x ∈ l, x ∈ before ++ after) :
      l.filter (fun x ↦ decide (x.target = lsa.target)) = [] := by
    rw [List.filter_eq_nil_iff]
    intro x hx hxt
    exact hA.selected.unique x (hl x hx) ((of_decide_eq_true hxt).trans hsame.symm)
  rw [List.filter_append, List.filter_cons, hnone before fun x hx ↦ List.mem_append_left _ hx,
    hnone after fun x hx ↦ List.mem_append_right _ hx, if_pos (decide_eq_true hsame), List.nil_append]

end

/-! ## Two AS boundary routers -/

/-- The path to an AS boundary router of area 1. -/
def boundaryEntry (routerID : IPAddress) (pathType : RoutingPathType) (cost : ℕ) : RoutingTableEntry where
  destinationType := ⟨false, true⟩
  destinationID := routerID
  addressMask := 0xFFFFFFFF
  optionalCapabilities := 0
  area := 1
  pathType := pathType
  cost := cost
  type2Cost := 0
  linkStateOrigin := none
  nextHops := [⟨1, routerID, 0⟩]

/-- 10.0.0.2 is reached inside the area at cost 10, and 10.0.0.3 in another area at cost 5. -/
def boundaryTable : List RoutingTableEntry :=
  [boundaryEntry 0x0A000002 .intraArea 10, boundaryEntry 0x0A000003 .interArea 5]

/-- The router 10.0.0.1 in area 1. -/
def externalRouter (rfc1583Compatibility : Bool) : Router where
  routerID := 0x0A000001
  rfc1583Compatibility := rfc1583Compatibility
  areas := [⟨⟨1, []⟩, false, true, [⟨1, false⟩], []⟩]
  routingTable := []

/-- An LSA for 10.2.0.0/16. -/
def externalOf (advertisingRouter : IPAddress) (type2 : Bool) (routeCost : ℕ) : ASExternalLSA where
  lsAge := 0
  lsOptions := 2
  linkStateID := 0x0A020000
  advertisingRouter := advertisingRouter
  contents := ⟨0xFFFF0000, type2, routeCost, 0⟩

theorem exactExternal_boundary : ExactExternal (externalRouter true) boundaryTable
    [externalOf 0x0A000002 false 1, externalOf 0x0A000003 false 1, externalOf 0x0A000002 true 1] := by
  constructor <;> decide

theorem cheaper_boundary_router_found :
    HasBestExternalRoutes (externalRouter true) boundaryTable
      [externalOf 0x0A000002 false 1, externalOf 0x0A000003 false 1, externalOf 0x0A000002 true 1]
      (calculateASExternalRoutes (externalRouter true)
        [externalOf 0x0A000002 true 1, externalOf 0x0A000002 false 1, externalOf 0x0A000003 false 1]
        boundaryTable) := by
  apply external_best_routes
  · decide
  · exact exactExternal_boundary
  · decide

/-- Without compatibility with RFC 1583 the intra-area path of cost 11 is kept, though the other one would
have cost 6. -/
theorem intraArea_path_kept :
    (∀ e ∈ boundaryTable, e.pathType = .intraArea ∨ e.pathType = .interArea) ∧
    (∀ lsa ∈ [externalOf 0x0A000002 false 1, externalOf 0x0A000003 false 1],
      lsa.contents.routeCost < lsInfinity) ∧
    ¬ HasBestExternalRoutes (externalRouter false) boundaryTable
      [externalOf 0x0A000002 false 1, externalOf 0x0A000003 false 1]
      (calculateASExternalRoutes (externalRouter false)
        [externalOf 0x0A000002 false 1, externalOf 0x0A000003 false 1] boundaryTable) := by
  refine ⟨by decide, by decide, ?_⟩
  rintro ⟨external, hresult, -, hbest⟩
  have hkept : calculateASExternalRoutes (externalRouter false)
      [externalOf 0x0A000002 false 1, externalOf 0x0A000003 false 1] boundaryTable =
      some (boundaryTable ++
        [(externalOf 0x0A000002 false 1).newEntry (boundaryEntry 0x0A000002 .intraArea 10)]) := by
    decide
  rw [hkept] at hresult
  obtain rfl := List.append_cancel_left (Option.some.inj hresult)
  obtain ⟨entry, hentry, -, hroute⟩ := hbest (externalOf 0x0A000003 false 1) (by decide) (by decide) (by decide)
  have hfilter : [(externalOf 0x0A000002 false 1).newEntry (boundaryEntry 0x0A000002 .intraArea 10)] = [entry] :=
    hentry
  obtain rfl := List.singleton_inj.mp hfilter
  have hle := hroute.least (externalOf 0x0A000003 false 1) (by decide) (by decide)
  exact absurd hle (by decide)

end InetManet.OSPF.Routing
