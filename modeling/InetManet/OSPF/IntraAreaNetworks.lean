import InetManet.Library.Offers
import InetManet.OSPF.IntraAreaRoutes
import InetManet.OSPF.ShortestPathHops

/-!
# The routes to the networks of an area are the shortest ones

After each description the entries are the routes to the networks described so far. For an undisturbed
description, the entry that is found is the entry of the same network.
-/

namespace InetManet.OSPF.Routing

open Dijkstra

section

variable {P descriptions : List Description} {table before after : List NetworkRoute} {d : Description}
  {entry : NetworkRoute}

/-! ## The entry that is found -/

/-- The entry counts for the address. -/
def Counts (destinationID : IPAddress) (entry : NetworkRoute) : Prop :=
  entry.destinationID &&& entry.addressMask = destinationID &&& entry.addressMask ∧
    destinationID &&& entry.addressMask ≠ 0

theorem considerEntry_of_not_counts {destinationID : IPAddress} {x : NetworkRoute × ℕ}
    (h : ¬ Counts destinationID x.1) (s : Option ℕ × ℕ) : considerEntry destinationID s x = s := by
  unfold considerEntry
  split
  · rename_i hmatch
    rw [if_neg]
    intro hlt
    apply h
    refine ⟨hmatch, ?_⟩
    intro hzero
    rw [hzero] at hlt
    exact Nat.not_lt_zero _ hlt
  · rfl

/-- The masked address, which is to be the longest. -/
def maskedValue (destinationID : IPAddress) (entry : NetworkRoute) : ℕ :=
  (destinationID &&& entry.addressMask).toNat

section

variable {destinationID : IPAddress}

theorem considerEntry_of_le {x : NetworkRoute × ℕ} {s : Option ℕ × ℕ}
    (h : Counts destinationID x.1 → maskedValue destinationID x.1 ≤ s.2) :
    considerEntry destinationID s x = s := by
  by_cases hcounts : Counts destinationID x.1
  · have hle : ¬ s.2 < (destinationID &&& x.1.addressMask).toNat := (h hcounts).not_gt
    rw [considerEntry, if_pos hcounts.1, if_neg hle]
  · exact considerEntry_of_not_counts hcounts s

/-- Entries that are not longer than the one found change nothing. -/
theorem foldl_considerEntry_of_le (l : List (NetworkRoute × ℕ))
    (s : Option ℕ × ℕ) (h : ∀ x ∈ l, Counts destinationID x.1 → maskedValue destinationID x.1 ≤ s.2) :
    l.foldl (considerEntry destinationID) s = s := by
  induction l generalizing s with
  | nil => rfl
  | cons x l ih =>
    rw [List.foldl_cons, considerEntry_of_le (h x List.mem_cons_self)]
    exact ih s fun y hy ↦ h y (List.mem_cons_of_mem _ hy)

theorem foldl_considerEntry_lt {bound : ℕ} (l : List (NetworkRoute × ℕ))
    (s : Option ℕ × ℕ) (hs : s.2 < bound)
    (h : ∀ x ∈ l, Counts destinationID x.1 → maskedValue destinationID x.1 < bound) :
    (l.foldl (considerEntry destinationID) s).2 < bound := by
  induction l generalizing s with
  | nil => exact hs
  | cons x l ih =>
    apply ih _ _ fun y hy ↦ h y (List.mem_cons_of_mem _ hy)
    by_cases hcounts : Counts destinationID x.1
    · unfold considerEntry
      rw [if_pos hcounts.1]
      split
      · exact h x List.mem_cons_self hcounts
      · exact hs
    · rwa [considerEntry_of_not_counts hcounts]

theorem findEntry_none (h : ∀ e ∈ table, ¬ Counts destinationID e) :
    findEntry table destinationID = none := by
  rw [findEntry, foldl_considerEntry_of_le]
  intro x hx hcounts
  exact absurd hcounts (h x.1 (List.fst_mem_of_mem_zipIdx hx))

theorem findEntry_middle (hentry : Counts destinationID entry)
    (hother : ∀ e ∈ before ++ after, Counts destinationID e →
      maskedValue destinationID e < maskedValue destinationID entry) :
    findEntry (before ++ entry :: after) destinationID = some before.length := by
  have hpos : 0 < maskedValue destinationID entry := by
    apply Nat.pos_of_ne_zero
    intro hzero
    exact hentry.2 (BitVec.eq_of_toNat_eq hzero)
  have hlt := foldl_considerEntry_lt before.zipIdx (none, 0) hpos fun x hx ↦
    hother x.1 (List.mem_append_left _ (List.fst_mem_of_mem_zipIdx hx))
  have hstep (s : Option ℕ × ℕ) (i : ℕ) (hs : s.2 < maskedValue destinationID entry) :
      considerEntry destinationID s (entry, i) = (some i, maskedValue destinationID entry) := by
    rw [considerEntry, if_pos hentry.1]
    exact if_pos hs
  rw [findEntry, List.zipIdx_append, List.zipIdx_cons, List.foldl_append, List.foldl_cons, hstep _ _ hlt,
    foldl_considerEntry_of_le]
  · rw [Nat.zero_add]
  · intro x hx hcounts
    exact (hother x.1 (List.mem_append_right _ (List.fst_mem_of_mem_zipIdx hx)) hcounts).le

end

/-! ## The routes -/

theorem IsRoute.irrelevant (h : IsRoute P entry) (hne : ¬ SameNetwork d entry) : IsRoute (P ++ [d]) entry := by
  refine ⟨?_, ?_, ?_⟩
  · intro x hx hsame
    rcases List.mem_append.mp hx with hx | hx
    · exact h.least x hx hsame
    · rw [List.mem_singleton.mp hx] at hsame
      exact absurd hsame hne
  · obtain ⟨x, hx, hrest⟩ := h.attained
    exact ⟨x, List.mem_append_left _ hx, hrest⟩
  · intro hop hhop
    obtain ⟨x, hx, hrest⟩ := h.hops hop hhop
    exact ⟨x, List.mem_append_left _ hx, hrest⟩

/-- A description of at least the same distance may add its next hops if the distance is the same. -/
theorem IsRoute.extend {new : NetworkRoute} (h : IsRoute P entry) (hnetwork : SameNetwork d entry)
    (hsame : new.destinationID = entry.destinationID ∧ new.addressMask = entry.addressMask)
    (hcost : new.cost = entry.cost) (hle : entry.cost ≤ d.distance)
    (hhops : ∀ hop ∈ new.nextHops, hop ∈ entry.nextHops ∨ d.distance = entry.cost ∧ hop ∈ d.nextHops) :
    IsRoute (P ++ [d]) new := by
  have hnew (x : Description) : SameNetwork x new ↔ SameNetwork x entry := by
    rw [SameNetwork, SameNetwork, hsame.1, hsame.2]
  refine ⟨?_, ?_, ?_⟩
  · intro x hx hx'
    rw [hnew] at hx'
    rw [hcost]
    rcases List.mem_append.mp hx with hx | hx
    · exact h.least x hx hx'
    · rw [List.mem_singleton.mp hx]
      exact hle
  · obtain ⟨x, hx, hx', hdistance⟩ := h.attained
    exact ⟨x, List.mem_append_left _ hx, (hnew x).mpr hx', hdistance.trans hcost.symm⟩
  · intro hop hhop
    rw [hcost]
    rcases hhops hop hhop with hold | ⟨hdistance, hadded⟩
    · obtain ⟨x, hx, hx', hrest⟩ := h.hops hop hold
      exact ⟨x, List.mem_append_left _ hx, (hnew x).mpr hx', hrest⟩
    · exact ⟨d, List.mem_append_right _ List.mem_cons_self, (hnew d).mpr hnetwork, hdistance, hadded⟩

theorem IsRoute.only {new : NetworkRoute} (hnetwork : SameNetwork d new) (hcost : new.cost = d.distance)
    (hhops : new.nextHops = d.nextHops) (hless : ∀ x ∈ P, SameNetwork x new → d.distance ≤ x.distance) :
    IsRoute (P ++ [d]) new := by
  refine ⟨?_, ⟨d, List.mem_append_right _ List.mem_cons_self, hnetwork, hcost.symm⟩, ?_⟩
  · intro x hx hx'
    rw [hcost]
    rcases List.mem_append.mp hx with hx | hx
    · exact hless x hx hx'
    · rw [List.mem_singleton.mp hx]
  · intro hop hhop
    rw [hhops] at hhop
    exact ⟨d, List.mem_append_right _ List.mem_cons_self, hnetwork, hcost.symm, hhop⟩

/-! ## One description -/

/-- The entries so far. The origin of an entry is a network only if it has the distance of one. -/
structure Routes (P : List Description) (table : List NetworkRoute) : Prop where
  are : AreRoutes P table
  masked : ∀ x ∈ P, x.destinationID &&& x.addressMask = x.destinationID
  addresses : ∀ x ∈ P, ∀ y ∈ P, x.destinationID = y.destinationID → x.destinationID ≠ 0 →
    x.addressMask = y.addressMask
  origin : ∀ e ∈ table, ∀ id, e.linkStateOrigin = .network id →
    ∃ n ∈ P, n.isStub = false ∧ SameNetwork n e ∧ n.distance = e.cost

theorem same_of_sameNetwork {x : Description} (hx : SameNetwork x entry) (hd : SameNetwork d entry) :
    Same x d := ⟨hx.1.trans hd.1.symm, hx.2.trans hd.2.symm⟩

/-- Networks with the same address still have the same mask. -/
theorem Routes.addresses_append (h : Routes P table) (hd : Undisturbed P d) :
    ∀ x ∈ P ++ [d], ∀ y ∈ P ++ [d], x.destinationID = y.destinationID → x.destinationID ≠ 0 →
      x.addressMask = y.addressMask := by
  have hlast : ∀ x ∈ P, x.destinationID = d.destinationID → x.destinationID ≠ 0 →
      x.addressMask = d.addressMask := by
    intro x hx haddress hne
    by_cases hknown : ∃ z ∈ P, Same z d
    · obtain ⟨z, hz, hsame⟩ := hknown
      rw [← hsame.2]
      exact h.addresses x hx z hz (haddress.trans hsame.1.symm) hne
    · have hnew : ∀ z ∈ P, ¬ Same z d := fun z hz hsame ↦ hknown ⟨z, hz, hsame⟩
      apply absurd _ (hd.fresh hnew x hx hne)
      rw [← haddress]
      exact h.masked x hx
  intro x hx y hy haddress hne
  rcases List.mem_append.mp hx with hx | hx
  · rcases List.mem_append.mp hy with hy | hy
    · exact h.addresses x hx y hy haddress hne
    · rw [List.mem_singleton.mp hy] at haddress ⊢
      exact hlast x hx haddress hne
  · rw [List.mem_singleton.mp hx] at haddress hne ⊢
    rcases List.mem_append.mp hy with hy | hy
    · exact (hlast y hy haddress.symm (haddress ▸ hne)).symm
    · rw [List.mem_singleton.mp hy]

theorem Routes.append (h : Routes P table) (hd : Undisturbed P d) (hnew : ∀ e ∈ table, ¬ SameNetwork d e)
    (hmasked : d.destinationID &&& d.addressMask = d.destinationID)
    (horigin : ∀ id, d.origin = .network id → d.isStub = false) :
    Routes (P ++ [d]) (table ++ [newRoute d]) := by
  have hself : SameNetwork d (newRoute d) := ⟨rfl, rfl⟩
  refine ⟨⟨?_, ?_, ?_⟩, ?_, h.addresses_append hd, ?_⟩
  · intro x hx
    rcases List.mem_append.mp hx with hx | hx
    · obtain ⟨e, he, hnetwork⟩ := h.are.complete x hx
      exact ⟨e, List.mem_append_left _ he, hnetwork⟩
    · rw [List.mem_singleton.mp hx]
      exact ⟨newRoute d, List.mem_append_right _ List.mem_cons_self, hself⟩
  · intro e he
    rcases List.mem_append.mp he with he | he
    · exact (h.are.routes e he).irrelevant (hnew e he)
    · rw [List.mem_singleton.mp he]
      apply IsRoute.only hself rfl rfl
      intro x hx hnetwork
      obtain ⟨e', he', hnetwork'⟩ := h.are.complete x hx
      have hsame := same_of_sameNetwork hnetwork hself
      exact absurd ⟨hsame.1.symm.trans hnetwork'.1, hsame.2.symm.trans hnetwork'.2⟩ (hnew e' he')
  · rw [List.map_append, List.nodup_append]
    refine ⟨h.are.nodup, List.nodup_singleton _, ?_⟩
    intro x hx y hy
    rw [List.map_singleton, List.mem_singleton] at hy
    obtain ⟨e, he, rfl⟩ := List.mem_map.mp hx
    rw [hy]
    intro hsame
    obtain ⟨haddress, hmask⟩ := Prod.mk.inj hsame
    exact hnew e he ⟨haddress.symm, hmask.symm⟩
  · intro x hx
    rcases List.mem_append.mp hx with hx | hx
    · exact h.masked x hx
    · rw [List.mem_singleton.mp hx]
      exact hmasked
  · intro e he id hid
    rcases List.mem_append.mp he with he | he
    · obtain ⟨n, hn, hrest⟩ := h.origin e he id hid
      exact ⟨n, List.mem_append_left _ hn, hrest⟩
    · rw [List.mem_singleton.mp he] at hid ⊢
      exact ⟨d, List.mem_append_right _ List.mem_cons_self, horigin id hid, hself, rfl⟩

theorem Routes.not_sameNetwork (h : Routes P (before ++ entry :: after)) (hnetwork : SameNetwork d entry)
    {e : NetworkRoute} (he : e ∈ before ++ after) : ¬ SameNetwork d e := by
  intro hd
  apply Offers.ne_of_nodup_map h.are.nodup e he
  rw [← hd.1, ← hd.2, hnetwork.1, hnetwork.2]

/-- The entry of the network is replaced by one for the same network. -/
theorem Routes.replace {new : NetworkRoute} (h : Routes P (before ++ entry :: after)) (hd : Undisturbed P d)
    (hnetwork : SameNetwork d entry)
    (hsame : new.destinationID = entry.destinationID ∧ new.addressMask = entry.addressMask)
    (hmasked : d.destinationID &&& d.addressMask = d.destinationID) (hroute : IsRoute (P ++ [d]) new)
    (horigin : ∀ id, new.linkStateOrigin = .network id →
      ∃ n ∈ P ++ [d], n.isStub = false ∧ SameNetwork n new ∧ n.distance = new.cost) :
    Routes (P ++ [d]) (before ++ new :: after) := by
  have hnew (x : Description) : SameNetwork x new ↔ SameNetwork x entry := by
    rw [SameNetwork, SameNetwork, hsame.1, hsame.2]
  have hkeys : (before ++ new :: after).map (fun e ↦ (e.destinationID, e.addressMask)) =
      (before ++ entry :: after).map fun e ↦ (e.destinationID, e.addressMask) := by
    rw [List.map_append, List.map_append, List.map_cons, List.map_cons, hsame.1, hsame.2]
  have hother : ∀ e ∈ before ++ after, ¬ SameNetwork d e := fun _ he ↦ h.not_sameNetwork hnetwork he
  have hmem (e : NetworkRoute) (he : e ∈ before ++ new :: after) : e = new ∨ e ∈ before ++ after := by
    rcases List.mem_append.mp he with he | he
    · exact .inr (List.mem_append_left _ he)
    · rcases List.mem_cons.mp he with rfl | he
      · exact .inl rfl
      · exact .inr (List.mem_append_right _ he)
  have hold (e : NetworkRoute) (he : e ∈ before ++ after) : e ∈ before ++ entry :: after := by
    rcases List.mem_append.mp he with he | he
    · exact List.mem_append_left _ he
    · exact List.mem_append_right _ (List.mem_cons_of_mem _ he)
  have hin (e : NetworkRoute) (he : e ∈ before ++ after) : e ∈ before ++ new :: after := by
    rcases List.mem_append.mp he with he | he
    · exact List.mem_append_left _ he
    · exact List.mem_append_right _ (List.mem_cons_of_mem _ he)
  refine ⟨⟨?_, ?_, by rw [hkeys]; exact h.are.nodup⟩, ?_, h.addresses_append hd, ?_⟩
  · intro x hx
    rcases List.mem_append.mp hx with hx | hx
    · obtain ⟨e, he, hx'⟩ := h.are.complete x hx
      rcases List.mem_append.mp he with hbefore | hafter
      · exact ⟨e, hin e (List.mem_append_left _ hbefore), hx'⟩
      · rcases List.mem_cons.mp hafter with rfl | hafter
        · exact ⟨new, List.mem_append_right _ List.mem_cons_self, (hnew x).mpr hx'⟩
        · exact ⟨e, hin e (List.mem_append_right _ hafter), hx'⟩
    · rw [List.mem_singleton.mp hx]
      exact ⟨new, List.mem_append_right _ List.mem_cons_self, (hnew d).mpr hnetwork⟩
  · intro e he
    rcases hmem e he with rfl | he
    · exact hroute
    · exact (h.are.routes e (hold e he)).irrelevant (hother e he)
  · intro x hx
    rcases List.mem_append.mp hx with hx | hx
    · exact h.masked x hx
    · rw [List.mem_singleton.mp hx]
      exact hmasked
  · intro e he id hid
    rcases hmem e he with rfl | he
    · exact horigin id hid
    · obtain ⟨n, hn, hrest⟩ := h.origin e (hold e he) id hid
      exact ⟨n, List.mem_append_left _ hn, hrest⟩

/-- The entry of the network is longer than the other ones that count. -/
theorem Routes.maskedValue_lt (h : Routes P (before ++ entry :: after))
    (hmasked : d.destinationID &&& d.addressMask = d.destinationID) (hnetwork : SameNetwork d entry)
    {e : NetworkRoute} (he : e ∈ before ++ after) (hcounts : Counts d.destinationID e) :
    maskedValue d.destinationID e < maskedValue d.destinationID entry := by
  have hmem : e ∈ before ++ entry :: after :=
    List.perm_middle.mem_iff.mpr (List.mem_cons_of_mem entry he)
  obtain ⟨x, hx, hx', -⟩ := (h.are.routes e hmem).attained
  obtain ⟨y, hy, hy', -⟩ := (h.are.routes entry (List.mem_append_right _ List.mem_cons_self)).attained
  have hmasks : e.destinationID &&& e.addressMask = e.destinationID := by
    rw [← hx'.1, ← hx'.2]
    exact h.masked x hx
  have haddress : d.destinationID &&& e.addressMask = e.destinationID := by rw [← hcounts.1, hmasks]
  have hvalue : maskedValue d.destinationID entry = d.destinationID.toNat := by
    rw [maskedValue, ← hnetwork.2, hmasked]
  have hle : maskedValue d.destinationID e ≤ d.destinationID.toNat := by
    rw [maskedValue, BitVec.toNat_and]
    exact Nat.and_le_left
  rw [hvalue]
  apply lt_of_le_of_ne hle
  intro heq
  have hsame : d.destinationID &&& e.addressMask = d.destinationID := BitVec.eq_of_toNat_eq heq
  have hed : e.destinationID = entry.destinationID := by rw [← haddress, hsame, hnetwork.1]
  have hmask := h.addresses x hx y hy (by rw [hx'.1, hy'.1, hed]) (by
    rw [hx'.1, ← haddress]
    exact hcounts.2)
  apply h.not_sameNetwork hnetwork he
  refine ⟨hnetwork.1.trans hed.symm, ?_⟩
  rw [hnetwork.2, ← hy'.2, ← hmask, hx'.2]

/-- Either no entry is found and the network is new, or its own entry is found. -/
theorem Routes.findEntry_cases (h : Routes P table) (hd : Undisturbed P d)
    (hmasked : d.destinationID &&& d.addressMask = d.destinationID) :
    (findEntry table d.destinationID = none ∧ ∀ e ∈ table, ¬ SameNetwork d e) ∨
      ∃ before entry after, table = before ++ entry :: after ∧ SameNetwork d entry ∧
        findEntry table d.destinationID = some before.length := by
  by_cases hfound : ∃ e ∈ table, SameNetwork d e
  · right
    obtain ⟨entry, he, hnetwork⟩ := hfound
    obtain ⟨before, after, rfl⟩ := List.append_of_mem he
    refine ⟨before, entry, after, rfl, hnetwork, findEntry_middle ?_ ?_⟩
    · obtain ⟨x, hx, hx', -⟩ := (h.are.routes entry he).attained
      refine ⟨by rw [← hnetwork.1], ?_⟩
      rw [← hnetwork.2, hmasked]
      exact hd.again x hx (same_of_sameNetwork hx' hnetwork)
    · intro e he hcounts
      exact h.maskedValue_lt hmasked hnetwork he hcounts
  · left
    have hnone : ∀ e ∈ table, ¬ SameNetwork d e := fun e he hd ↦ hfound ⟨e, he, hd⟩
    have hnew : ∀ x ∈ P, ¬ Same x d := by
      intro x hx hsame
      obtain ⟨e, he, hx'⟩ := h.are.complete x hx
      exact hnone e he ⟨hsame.1.symm.trans hx'.1, hsame.2.symm.trans hx'.2⟩
    refine ⟨findEntry_none ?_, hnone⟩
    rintro e he ⟨hmatch, hne⟩
    obtain ⟨x, hx, hx', -⟩ := (h.are.routes e he).attained
    have hmask : e.destinationID &&& e.addressMask = x.destinationID := by
      rw [← hx'.1, ← hx'.2]
      exact h.masked x hx
    apply hd.fresh hnew x hx
    · rw [← hmask, hmatch]
      exact hne
    · rw [hx'.2, ← hmatch, hmask]

theorem modify_middle (f : NetworkRoute → NetworkRoute) (before after : List NetworkRoute)
    (entry : NetworkRoute) :
    (before ++ entry :: after).modify before.length f = before ++ f entry :: after := by
  induction before with
  | nil => rfl
  | cons x before ih => rw [List.cons_append, List.length_cons, List.modify_succ_cons, ih, List.cons_append]

theorem Routes.addNetwork (h : Routes P table) (hd : Undisturbed P d) (hstub : d.isStub = false)
    (hmasked : d.destinationID &&& d.addressMask = d.destinationID) :
    Routes (P ++ [d]) (addNetwork table d) := by
  unfold InetManet.OSPF.Routing.addNetwork
  rcases h.findEntry_cases hd hmasked with ⟨hnone, hnew⟩ | ⟨before, entry, after, rfl, hnetwork, hfound⟩
  · rw [hnone]
    exact h.append hd hnew hmasked fun _ _ ↦ hstub
  · rw [hfound]
    dsimp only
    rw [modify_middle]
    have hroute := h.are.routes entry (List.mem_append_right _ List.mem_cons_self)
    obtain ⟨x, hx, hx', hdistance⟩ := hroute.attained
    have hcost : d.distance = entry.cost := by
      rw [← hdistance]
      exact (hd.distance hstub x hx (same_of_sameNetwork hx' hnetwork)).symm
    change Routes (P ++ [d]) (before ++ (if _ then _ else entry) :: after)
    split
    · apply h.replace hd hnetwork ⟨hnetwork.1, hnetwork.2⟩ hmasked
      · apply hroute.extend hnetwork ⟨hnetwork.1, hnetwork.2⟩ hcost hcost.ge
        intro hop hhop
        rcases List.mem_append.mp hhop with hhop | hhop
        · exact .inl hhop
        · exact .inr ⟨hcost, hhop⟩
      · intro id _
        exact ⟨d, List.mem_append_right _ List.mem_cons_self, hstub, ⟨rfl, rfl⟩, rfl⟩
    · apply h.replace hd hnetwork ⟨rfl, rfl⟩ hmasked
      · exact hroute.extend hnetwork ⟨rfl, rfl⟩ rfl hcost.ge fun _ hhop ↦ .inl hhop
      · intro id hid
        obtain ⟨n, hn, hrest⟩ := h.origin entry (List.mem_append_right _ List.mem_cons_self) id hid
        exact ⟨n, List.mem_append_left _ hn, hrest⟩

/-- A stub link that has not the distance of a network unless a cheaper stub link came before. -/
theorem Routes.addStub (h : Routes P table) (hd : Undisturbed P d) (hstub : d.isStub = true)
    (horigin : ∃ id, d.origin = .router id)
    (hmasked : d.destinationID &&& d.addressMask = d.destinationID) :
    ∃ table', addStub table d = .ok table' ∧ Routes (P ++ [d]) table' := by
  obtain ⟨router, hrouter⟩ := horigin
  unfold InetManet.OSPF.Routing.addStub
  rcases h.findEntry_cases hd hmasked with ⟨hnone, hnew⟩ | ⟨before, entry, after, rfl, hnetwork, hfound⟩
  · rw [hnone]
    refine ⟨_, rfl, h.append hd hnew hmasked ?_⟩
    intro id hid
    rw [hrouter] at hid
    cases hid
  · rw [hfound]
    dsimp only
    have hget : (before ++ entry :: after)[before.length]? = some entry := by simp
    have hset (new : NetworkRoute) : (before ++ entry :: after).set before.length new =
        before ++ new :: after := by simp
    rw [hget]
    dsimp only
    have hmem : entry ∈ before ++ entry :: after := List.mem_append_right _ List.mem_cons_self
    have hroute := h.are.routes entry hmem
    have hold : ∀ id, entry.linkStateOrigin = .network id →
        ∃ n ∈ P ++ [d], n.isStub = false ∧ SameNetwork n entry ∧ n.distance = entry.cost := by
      intro id hid
      obtain ⟨n, hn, hrest⟩ := h.origin entry hmem id hid
      exact ⟨n, List.mem_append_left _ hn, hrest⟩
    rcases lt_trichotomy entry.cost d.distance with hdearer | hequal | hcheaper
    · rw [if_pos hdearer]
      exact ⟨_, rfl, h.replace hd hnetwork ⟨rfl, rfl⟩ hmasked
        (hroute.extend hnetwork ⟨rfl, rfl⟩ rfl hdearer.le fun _ hhop ↦ .inl hhop) hold⟩
    · rw [if_neg (by omega), if_neg (by omega)]
      cases hid : entry.linkStateOrigin with
      | network id =>
        exfalso
        obtain ⟨n, hn, hnstub, hn', hdistance⟩ := h.origin entry hmem id hid
        obtain ⟨x, hx, hsame, hlt⟩ := hd.tie hstub n hn hnstub (same_of_sameNetwork hn' hnetwork)
          (hdistance.trans hequal)
        have hle := hroute.least x hx ⟨hsame.1.trans hnetwork.1, hsame.2.trans hnetwork.2⟩
        omega
      | router id =>
        dsimp only
        rw [hset]
        refine ⟨_, rfl, h.replace hd hnetwork ⟨rfl, rfl⟩ hmasked ?_ ?_⟩
        · refine hroute.extend hnetwork ?_ ?_ hequal.le ?_
          · exact ⟨rfl, rfl⟩
          · rfl
          · intro hop hhop
            rcases List.mem_append.mp hhop with hhop | hhop
            · exact .inl hhop
            · exact .inr ⟨hequal.symm, hhop⟩
        · intro id' hid'
          dsimp only at hid'
          rw [hrouter] at hid'
          split at hid' <;> cases hid'
    · rw [if_neg (by omega), if_pos hcheaper, hset]
      refine ⟨_, rfl, h.replace hd hnetwork ⟨rfl, rfl⟩ hmasked ?_ ?_⟩
      · refine IsRoute.only ?_ ?_ ?_ ?_
        · exact hnetwork
        · rfl
        · rfl
        · intro x hx hx'
          exact hcheaper.le.trans (hroute.least x hx hx')
      · intro id hid
        dsimp only at hid
        rw [hrouter] at hid
        cases hid

/-! ## All descriptions -/

theorem routes_nil : Routes [] [] := ⟨⟨nofun, nofun, List.nodup_nil⟩, nofun, nofun, nofun⟩

theorem allUndisturbed_append {earlier l l' : List Description} :
    AllUndisturbed earlier (l ++ l') ↔ AllUndisturbed earlier l ∧ AllUndisturbed (earlier ++ l) l' := by
  induction l generalizing earlier with
  | nil => simp [AllUndisturbed]
  | cons d l ih =>
    rw [List.cons_append, AllUndisturbed, AllUndisturbed, ih, and_assoc, ← List.append_cons]

theorem Routes.foldl_addNetwork (h : Routes P table) (l : List Description)
    (hnetworks : ∀ x ∈ l, x.isStub = false)
    (hmasked : ∀ x ∈ l, x.destinationID &&& x.addressMask = x.destinationID) (hl : AllUndisturbed P l) :
    Routes (P ++ l) (l.foldl InetManet.OSPF.Routing.addNetwork table) := by
  induction l generalizing P table with
  | nil => rwa [List.append_nil]
  | cons d l ih =>
    obtain ⟨hd, hrest⟩ := hl
    rw [List.append_cons, List.foldl_cons]
    apply ih _ (fun x hx ↦ hnetworks x (List.mem_cons_of_mem _ hx))
      (fun x hx ↦ hmasked x (List.mem_cons_of_mem _ hx)) hrest
    exact h.addNetwork hd (hnetworks d List.mem_cons_self) (hmasked d List.mem_cons_self)

theorem Routes.foldlM_addStub (h : Routes P table) (l : List Description)
    (hstubs : ∀ x ∈ l, x.isStub = true ∧ ∃ id, x.origin = .router id)
    (hmasked : ∀ x ∈ l, x.destinationID &&& x.addressMask = x.destinationID) (hl : AllUndisturbed P l) :
    ∃ table', l.foldlM InetManet.OSPF.Routing.addStub table = .ok table' ∧ Routes (P ++ l) table' := by
  induction l generalizing P table with
  | nil => exact ⟨table, rfl, by rwa [List.append_nil]⟩
  | cons d l ih =>
    obtain ⟨hd, hl⟩ := hl
    obtain ⟨hstub, horigin⟩ := hstubs d List.mem_cons_self
    obtain ⟨table', heq, hroutes⟩ := h.addStub hd hstub horigin (hmasked d List.mem_cons_self)
    obtain ⟨table'', hrest, hall⟩ := ih hroutes (fun x hx ↦ hstubs x (List.mem_cons_of_mem _ hx))
      (fun x hx ↦ hmasked x (List.mem_cons_of_mem _ hx)) hl
    rw [List.append_cons]
    refine ⟨table'', ?_, hall⟩
    rw [List.foldlM_cons, heq]
    exact hrest

end

section

variable {conf : HopConfiguration} {db : AreaDatabase} {root : IPAddress} {s : HopSearch} {d : Description}

theorem masked_self (address mask : IPAddress) : address &&& mask &&& mask = address &&& mask := by
  rw [BitVec.and_assoc, BitVec.and_self]

theorem of_mem_networkDescriptions (h : d ∈ networkDescriptions db s) :
    d.isStub = false ∧ d.destinationID &&& d.addressMask = d.destinationID := by
  obtain ⟨v, -, heq⟩ := List.mem_filterMap.mp h
  split at heq
  · cases heq
    exact ⟨rfl, masked_self _ _⟩
  · cases heq

theorem of_mem_stubDescriptions (h : d ∈ stubDescriptions conf db root s) :
    d.isStub = true ∧ (∃ id, d.origin = .router id) ∧
      d.destinationID &&& d.addressMask = d.destinationID := by
  obtain ⟨v, -, hmem⟩ := List.mem_flatMap.mp h
  split at hmem
  · obtain ⟨link, -, rfl⟩ := List.mem_map.mp hmem
    exact ⟨rfl, ⟨_, rfl⟩, masked_self _ _⟩
  · cases hmem

/-- Undisturbed descriptions get their routes, and no cast fails. -/
theorem networkRoutes_of_undisturbed (h : AllUndisturbed [] (descriptions conf db root s)) :
    ∃ table, networkRoutes conf db root s = .ok table ∧
      AreRoutes (descriptions conf db root s) table := by
  obtain ⟨hnetworks, hstubs⟩ := allUndisturbed_append.mp h
  have hfirst := routes_nil.foldl_addNetwork (networkDescriptions db s)
    (fun x hx ↦ (of_mem_networkDescriptions hx).1) (fun x hx ↦ (of_mem_networkDescriptions hx).2) hnetworks
  obtain ⟨table, heq, hroutes⟩ := hfirst.foldlM_addStub (stubDescriptions conf db root s)
    (fun x hx ↦ ⟨(of_mem_stubDescriptions hx).1, (of_mem_stubDescriptions hx).2.1⟩)
    (fun x hx ↦ (of_mem_stubDescriptions hx).2.2) hstubs
  exact ⟨table, heq, hroutes.are⟩

end

/-- If the descriptions on the tree are undisturbed, each network that is described has one entry, with the
least distance and with next hops of that distance, and there are no others. -/
theorem intra_area_routes (conf : HopConfiguration) (db : AreaDatabase) (root : IPAddress)
    (hroot : (db.findRouterLSA root).isSome = true) :
    ∃ s, calculateShortestPathTree conf db root = .ok s ∧
      (AllUndisturbed [] (descriptions conf db root s) →
        ∃ table, networkRoutes conf db root s = .ok table ∧
          AreRoutes (descriptions conf db root s) table) := by
  obtain ⟨s, hs⟩ := exists_tree conf hroot
  exact ⟨s, hs, networkRoutes_of_undisturbed⟩

/-! ## Stub links -/

/-- Routers 1 and 2 on the network 10.0.0.0/24. Router 2 has a stub link to 10.1.0.0/24, router 1 the given
one. -/
def stubArea (link : Link) : AreaDatabase where
  routerLSAs := [⟨1, 0, [⟨0x0A000002, 0x0A000001, .transitLink, 1⟩, link]⟩,
    ⟨2, 0, [⟨0x0A000002, 0x0A000002, .transitLink, 1⟩, ⟨0x0A010000, 0xFFFFFF00, .stubLink, 1⟩]⟩]
  networkLSAs := [⟨0x0A000002, 0, 0xFFFFFF00, [1, 2]⟩]
  routerIDs := (by decide : [(1 : IPAddress), 2].Nodup)
  networkIDs := List.nodup_singleton _

def stubInterfaces : HopConfiguration where
  associatedInterfaces := [⟨.broadcast, 1, true, ⟨0x0A000001, 0xFFFFFF00⟩, 0x0A000002, [⟨2, 0x0A000002⟩]⟩]
  hostRoutes := []
  advertisingRouter := fun
    | .router id => id
    | .network _ => 2

/-- Both routers have a stub link to 10.1.0.0/24, and that of router 2 is closer. -/
theorem routes_of_two_stub_links :
    ∃ s table, calculateShortestPathTree stubInterfaces (stubArea ⟨0x0A010000, 0xFFFFFF00, .stubLink, 3⟩) 1 =
        .ok s ∧
      networkRoutes stubInterfaces (stubArea ⟨0x0A010000, 0xFFFFFF00, .stubLink, 3⟩) 1 s = .ok table ∧
      AreRoutes (descriptions stubInterfaces (stubArea ⟨0x0A010000, 0xFFFFFF00, .stubLink, 3⟩) 1 s)
        table := by
  obtain ⟨s, hs, hroutes⟩ := intra_area_routes stubInterfaces
    (stubArea ⟨0x0A010000, 0xFFFFFF00, .stubLink, 3⟩) 1 (by decide)
  have hcheck : ((calculateShortestPathTree stubInterfaces
      (stubArea ⟨0x0A010000, 0xFFFFFF00, .stubLink, 3⟩) 1).toOption.any fun s ↦
        decide (AllUndisturbed [] (descriptions stubInterfaces
          (stubArea ⟨0x0A010000, 0xFFFFFF00, .stubLink, 3⟩) 1 s))) = true := by decide
  rw [hs] at hcheck
  obtain ⟨table, htable, hare⟩ := hroutes (of_decide_eq_true hcheck)
  exact ⟨s, table, hs, htable, hare⟩

/-- A stub link of router 1 to the network 10.0.0.0/24 itself, at the same distance, raises a cast error. -/
theorem stub_link_ties_with_network :
    ∃ s, calculateShortestPathTree stubInterfaces (stubArea ⟨0x0A000000, 0xFFFFFF00, .stubLink, 1⟩) 1 =
        .ok s ∧
      networkRoutes stubInterfaces (stubArea ⟨0x0A000000, 0xFFFFFF00, .stubLink, 1⟩) 1 s =
        .error .badCast := by
  obtain ⟨s, hs⟩ := @exists_tree (stubArea ⟨0x0A000000, 0xFFFFFF00, .stubLink, 1⟩) 1 stubInterfaces
    (by decide)
  have hcheck : ((calculateShortestPathTree stubInterfaces
      (stubArea ⟨0x0A000000, 0xFFFFFF00, .stubLink, 1⟩) 1).toOption.any fun s ↦
        decide (networkRoutes stubInterfaces
          (stubArea ⟨0x0A000000, 0xFFFFFF00, .stubLink, 1⟩) 1 s = .error .badCast)) = true := by decide
  rw [hs] at hcheck
  exact ⟨s, hs, of_decide_eq_true hcheck⟩

end InetManet.OSPF.Routing
