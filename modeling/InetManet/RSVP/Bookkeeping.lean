import InetManet.RSVP.Bandwidth

/-!
# Every operation keeps the books

Reservations are created, changed, committed, preempted and removed in any order. After each of these
operations the unreserved bandwidth of every own link is what the reservations leave, it is never
negative, and the labels of a reservation match its flows. The loop of `commitResv` drops a flow in
each round that does not end it, the largest one, which exists because the bandwidth that was missing
is positive.
-/

namespace InetManet.RSVP

open TransitionSystem TED

/-! ## One block changes -/

section Blocks

variable {rsbs : List ResvStateBlock} {r r' : ResvStateBlock} {k : ℕ} {L : IPAddress} {p : Fin 8}

theorem split_of_getElem? (h : rsbs[k]? = some r) : ∃ before after, rsbs = before ++ r :: after ∧
    ∀ x, rsbs.set k x = before ++ x :: after := by
  obtain ⟨hlt, rfl⟩ := List.getElem?_eq_some_iff.mp h
  refine ⟨rsbs.take k, rsbs.drop (k + 1), ?_, fun x ↦ ?_⟩
  · rw [List.getElem_cons_drop hlt, List.take_append_drop]
  · rw [List.set_eq_take_append_cons_drop, if_pos hlt]

theorem modify_eq_set (h : rsbs[k]? = some r) (f : ResvStateBlock → ResvStateBlock) :
    rsbs.modify k f = rsbs.set k (f r) := by
  apply List.ext_getElem?
  intro i
  rw [List.getElem?_modify, List.getElem?_set]
  by_cases hi : k = i
  · subst hi
    obtain ⟨hlt, rfl⟩ := List.getElem?_eq_some_iff.mp h
    simp [hlt]
  · simp [hi]

theorem share_eq_pending : r.share L p =
    pending r.outInterface r.session.holdingPri r.reqBandwidth 8 L p := by
  unfold ResvStateBlock.share pending
  have hlt : p.val < 8 := p.isLt
  by_cases h : r.outInterface = L
  · simp [h, hlt]
  · simp [h, Ne.symm h]

end Blocks

namespace Booked

variable {extra extra' : IPAddress → Fin 8 → ℚ} {s : State} {k : ℕ} {r r' : ResvStateBlock}

/-- A block is replaced; what it holds moves to or from `extra`. -/
theorem replace (h : Booked extra s) (hk : s.rsbList[k]? = some r) (hid : r'.id = r.id)
    (hnonneg : 0 ≤ r'.reqBandwidth) (hlength : r'.inLabelVector.length = r'.flowDescriptor.length)
    (hshare : ∀ L p, extra' L p + r'.share L p = extra L p + r.share L p) :
    Booked extra' { s with rsbList := s.rsbList.set k r' } := by
  have hmem : ∀ x ∈ s.rsbList.set k r', x ∈ s.rsbList ∨ x = r' := fun x hx ↦ List.mem_or_eq_of_mem_set hx
  refine ⟨fun link hlink hown p ↦ ?_, fun x hx ↦ ?_, fun x hx ↦ ?_, h.addresses, h.distinct, ?_,
    fun x hx ↦ ?_⟩
  · have hold := h.links link hlink hown p
    obtain ⟨before, after, hsplit, hset⟩ := split_of_getElem? hk
    dsimp only
    rw [hsplit, allocated_append, allocated_cons] at hold
    rw [hset, allocated_append, allocated_cons]
    have := hshare link.localAddr p
    linarith
  · rcases hmem x hx with hx | rfl
    · exact h.nonneg x hx
    · exact hnonneg
  · rcases hmem x hx with hx | rfl
    · exact h.lengths x hx
    · exact hlength
  · have hids := h.ids
    obtain ⟨before, after, hsplit, hset⟩ := split_of_getElem? hk
    dsimp only
    rw [hset, List.map_append, List.map_cons, hid]
    rwa [hsplit, List.map_append, List.map_cons] at hids
  · rcases hmem x hx with hx | rfl
    · exact h.bounded x hx
    · rw [hid]
      exact h.bounded r (List.mem_of_getElem? hk)

theorem erase (h : Booked extra s) (hk : s.rsbList[k]? = some r)
    (hextra : ∀ L p, extra' L p = extra L p + r.share L p) : Booked extra' (s.eraseRSB r.id) := by
  have hmem := List.mem_of_getElem? hk
  obtain ⟨a, before, after, _, ha, hsplit, herase⟩ :=
    List.exists_of_eraseP (p := fun x ↦ x.id == r.id) hmem (beq_self_eq_true r.id)
  have har : a = r := by
    have hamem : a ∈ s.rsbList := by simp [hsplit]
    exact List.inj_on_of_nodup_map h.ids hamem hmem (beq_iff_eq.mp ha)
  subst har
  have hsub : (s.eraseRSB a.id).rsbList.Sublist s.rsbList := List.eraseP_sublist
  refine ⟨fun link hlink hown p ↦ ?_, fun x hx ↦ h.nonneg x (hsub.subset hx),
    fun x hx ↦ h.lengths x (hsub.subset hx), h.addresses, h.distinct, h.ids.sublist (hsub.map _),
    fun x hx ↦ h.bounded x (hsub.subset hx)⟩
  have hold := h.links link hlink hown p
  unfold State.eraseRSB
  dsimp only
  rw [herase, allocated_append, hextra]
  rw [hsplit, allocated_append, allocated_cons] at hold
  linarith

end Booked

namespace Balanced

variable {s : State} {k : ℕ} {r : ResvStateBlock}

theorem output (h : Balanced s) (o : List Output) : Balanced (s.output o) :=
  ⟨h.booked.output o, h.free⟩

theorem lib (h : Balanced s) (lib : List LIBEntry) (maxLabel : ℤ) :
    Balanced { s with lib, maxLabel } :=
  ⟨⟨h.booked.links, h.booked.nonneg, h.booked.lengths, h.booked.addresses, h.booked.distinct,
    h.booked.ids, h.booked.bounded⟩, h.free⟩

theorem set (h : Balanced s) {r' : ResvStateBlock} (hk : s.rsbList[k]? = some r)
    (hid : r'.id = r.id) (hinterface : r'.outInterface = r.outInterface)
    (hsession : r'.session = r.session) (hbandwidth : r'.reqBandwidth = r.reqBandwidth)
    (hlength : r'.inLabelVector.length = r'.flowDescriptor.length) :
    Balanced { s with rsbList := s.rsbList.set k r' } := by
  refine ⟨h.booked.replace hk hid ?_ hlength fun L p ↦ ?_, h.free⟩
  · rw [hbandwidth]
    exact h.booked.nonneg r (List.mem_of_getElem? hk)
  · rw [ResvStateBlock.share, ResvStateBlock.share, hinterface, hsession, hbandwidth]

theorem eraseFlow (h : Balanced s) (hk : s.rsbList[k]? = some r) {i : ℕ} :
    Balanced (s.modifyRSB k (State.eraseFlow i)) := by
  unfold State.modifyRSB
  rw [modify_eq_set hk]
  refine h.set hk rfl rfl rfl rfl ?_
  have hlength := h.booked.lengths r (List.mem_of_getElem? hk)
  unfold State.eraseFlow
  dsimp only
  rw [List.length_eraseIdx, List.length_eraseIdx, hlength]

theorem removeLibEntry (h : Balanced s) (inLabel : ℤ) :
    Outcome (s.removeLibEntry inLabel)
      (fun s' ↦ Balanced s' ∧ s'.rsbList = s.rsbList) Harmless := by
  unfold State.removeLibEntry
  apply Outcome.ite
  · intro _
    exact ⟨h.lib _ _, rfl⟩
  · intro _
    exact ⟨nofun, nofun⟩

theorem deref_bind {α β : Type} {o : Option α} {f : α → Except Fault β} {Q : β → Prop}
    (h : ∀ a, o = some a → Outcome (f a) Q Harmless) : Outcome (State.deref o >>= f) Q Harmless := by
  cases o with
  | none => exact ⟨nofun, nofun⟩
  | some a => exact h a rfl

theorem check_bind {β : Type} {c : Bool} {f : Unit → Except Fault β} {Q : β → Prop}
    (h : c = true → Outcome (f ()) Q Harmless) :
    Outcome (check true c Fault.assertion >>= f) Q Harmless := by
  cases c with
  | false => exact ⟨nofun, nofun⟩
  | true => exact h rfl

theorem removeRSB (h : Balanced s) (k : ℕ) : Outcome (s.removeRSB k) Balanced Harmless := by
  unfold State.removeRSB
  apply deref_bind
  intro rsb hk
  apply check_bind
  intro _
  have hout := h.output [.cancelTimers rsb.id]
  apply Outcome.ite
  · intro hpos
    apply (hout.allocateResource rsb.outInterface rsb.session (-rsb.reqBandwidth)).bind
    rintro ⟨b, s'⟩ (⟨_, hs'⟩ | ⟨_, _, hneg⟩)
    · have hk' : s'.rsbList[k]? = some rsb :=
        Preempted.getElem? hs'.rsbs hk (not_lt.mpr rsb.session.holding_le_setup)
      refine ⟨hs'.booked.erase hk' fun L p ↦ ?_, hs'.free⟩
      rw [share_eq_pending]
      unfold pending
      split
      · exact (neg_add_cancel _).symm
      · exact (add_zero _).symm
    · linarith
  · intro hpos
    have hzero : rsb.reqBandwidth = 0 :=
      le_antisymm (not_lt.mp hpos) (h.booked.nonneg rsb (List.mem_of_getElem? hk))
    refine ⟨hout.booked.erase hk fun L p ↦ ?_, hout.free⟩
    unfold ResvStateBlock.share
    simp [hzero]

theorem removeInLabel (h : Balanced s) (inLabel : ℤ) :
    Outcome (s.removeInLabel inLabel)
      (fun s' ↦ Balanced s' ∧ s'.rsbList = s.rsbList) Harmless := by
  unfold State.removeInLabel
  apply Outcome.ite
  · intro _
    exact h.removeLibEntry inLabel
  · intro _
    exact ⟨h, rfl⟩

theorem removeRsbFilter (h : Balanced s) (k index : ℕ) :
    Outcome (s.removeRsbFilter k index) Balanced Harmless := by
  unfold State.removeRsbFilter
  apply deref_bind
  intro rsb hk
  apply check_bind
  intro _
  apply check_bind
  intro _
  apply deref_bind
  intro inLabel _
  apply (h.removeInLabel inLabel).bind
  rintro s' ⟨hs', hrsbs⟩
  rw [← hrsbs] at hk
  exact (hs'.eraseFlow hk).output _

/-! ## Committing -/

theorem maxFlow_cases (flows : List FlowDescriptor) (i : ℕ) (x : ℚ × Option ℕ) :
    State.maxFlow i x flows = x ∨ x.1 < (State.maxFlow i x flows).1 ∧
      ∃ j, (State.maxFlow i x flows).2 = some j ∧ i ≤ j ∧ j < i + flows.length := by
  induction flows generalizing i x with
  | nil => exact .inl rfl
  | cons flow flows ih =>
    unfold State.maxFlow
    rw [List.length_cons]
    split
    · rename_i hlt
      right
      rcases ih (i + 1) (flow.reqBandwidth, some i) with heq | ⟨hgt, j, hj, hle, hlt'⟩
      · rw [heq]
        exact ⟨hlt, i, rfl, le_refl i, by omega⟩
      · exact ⟨hlt.trans hgt, j, hj, by omega, by omega⟩
    · rcases ih (i + 1) x with heq | ⟨hgt, j, hj, hle, hlt'⟩
      · exact .inl heq
      · exact .inr ⟨hgt, j, hj, by omega, by omega⟩

theorem le_maxFlow (flows : List FlowDescriptor) : 0 ≤ (State.maxFlow 0 (0, none) flows).1 := by
  rcases maxFlow_cases flows 0 (0, none) with heq | ⟨hlt, _⟩
  · rw [heq]
  · exact hlt.le

theorem dropFlow (h : Balanced s) (hk : s.rsbList[k]? = some r) {i : ℕ}
    (hi : i < r.flowDescriptor.length) :
    Outcome (s.dropFlow k r (some i)) (fun s' ↦ Balanced s' ∧ ∃ r', s'.rsbList[k]? = some r' ∧
      r'.flowDescriptor.length + 1 = r.flowDescriptor.length) Harmless := by
  unfold State.dropFlow
  apply check_bind
  intro _
  apply deref_bind
  intro flow _
  apply deref_bind
  intro oldInLabel _
  apply deref_bind
  intro psb _
  have herase := h.eraseFlow hk (i := i)
  have hblock : ∃ r', (s.modifyRSB k (State.eraseFlow i)).rsbList[k]? = some r' ∧
      r'.flowDescriptor.length + 1 = r.flowDescriptor.length := by
    refine ⟨State.eraseFlow i r, ?_, ?_⟩
    · unfold State.modifyRSB
      dsimp only
      rw [List.getElem?_modify, hk]
      simp
    · unfold State.eraseFlow
      dsimp only
      rw [List.length_eraseIdx, if_pos hi]
      omega
  apply Outcome.ite
  · intro _
    apply ((herase.output _).removeLibEntry oldInLabel).post
    rintro s' ⟨hs', hrsbs⟩
    rw [hrsbs]
    exact ⟨hs', hblock⟩
  · intro _
    exact ⟨herase.output _, hblock⟩

/-- With more rounds than flows the loop comes to its end. -/
theorem commitLoop (h : Balanced s) (hk : s.rsbList[k]? = some r) {fuel : ℕ}
    (hfuel : r.flowDescriptor.length < fuel) :
    Outcome (State.commitLoop fuel s k) (fun x ↦ Balanced x.2) Harmless := by
  induction fuel generalizing s r with
  | zero => omega
  | succ fuel ih =>
    unfold State.commitLoop
    rw [hk]
    change Outcome (if r.flowDescriptor.isEmpty then _ else _) _ _
    apply Outcome.ite
    · intro _
      apply (h.removeRSB k).bind
      intro s' hs'
      exact hs'
    · intro _
      apply Outcome.ite
      · intro _
        exact h
      · intro _
        apply (h.allocateResource r.outInterface r.session _).bind
        rintro ⟨b, s'⟩ (⟨hb, hs'⟩ | ⟨hb, hs, hpos⟩)
        · dsimp only at hb hs'
          subst hb
          change Balanced (s'.modifyRSB k _)
          have hk' : s'.rsbList[k]? = some r :=
            Preempted.getElem? hs'.rsbs hk (not_lt.mpr r.session.holding_le_setup)
          have hmem := List.mem_of_getElem? hk'
          unfold State.modifyRSB
          rw [modify_eq_set hk']
          refine ⟨hs'.booked.replace hk' rfl ?_ (hs'.booked.lengths r hmem) fun L p ↦ ?_, hs'.free⟩
          · dsimp only
            rw [add_sub_cancel]
            exact le_maxFlow _
          · rw [share_eq_pending, share_eq_pending]
            unfold pending
            dsimp only [Pi.zero_apply]
            split
            · ring
            · rfl
        · dsimp only at hb hs hpos
          subst hb hs
          have hnonneg := h.booked.nonneg r (List.mem_of_getElem? hk)
          rcases maxFlow_cases r.flowDescriptor 0 (0, none) with heq | ⟨_, j, hj, _, hlt⟩
          · rw [heq] at hpos
            dsimp only at hpos
            linarith
          · rw [hj]
            apply (h.dropFlow hk (by omega : j < r.flowDescriptor.length)).bind
            rintro s' ⟨hs', r', hr', hlen⟩
            exact ih hs' hr' (by omega)

/-! ## Labels -/

theorem installLibEntry (h : Balanced s) (inLabel : ℤ) (inInterface : String)
    (outLabel : List LabelOp) (outInterface : String) (color : ℤ) :
    Outcome (s.installLibEntry inLabel inInterface outLabel outInterface color)
      (fun x ↦ Balanced x.2 ∧ x.2.rsbList = s.rsbList) Harmless := by
  unfold State.installLibEntry
  apply Outcome.ite
  · intro _
    exact ⟨h.lib _ _, rfl⟩
  · intro _
    split
    · exact ⟨nofun, nofun⟩
    · exact ⟨h.lib _ _, rfl⟩

theorem outcome_inInterfaceOf (s : State) (psb : PathStateBlock) :
    Outcome (s.inInterfaceOf psb) (fun _ ↦ True) Harmless := by
  unfold State.inInterfaceOf
  apply Outcome.ite
  · intro _
    exact trivial
  · intro _
    unfold State.getInterfaceAddrByPeerAddress
    split
    · exact ⟨nofun, nofun⟩
    · rw [ok_bind]
      unfold State.deref
      split
      · exact ⟨nofun, nofun⟩
      · exact trivial

theorem outcome_outInterfaceOf (s : State) (psb : PathStateBlock) (label : ℤ) :
    Outcome (s.outInterfaceOf psb label) (fun _ ↦ True) Harmless := by
  unfold State.outInterfaceOf
  apply Outcome.ite
  · intro _
    apply deref_bind
    intro _ _
    exact trivial
  · intro _
    apply Outcome.ite
    · intro _
      exact trivial
    · intro _
      exact trivial

theorem installLabel (h : Balanced s) (k i : ℕ) : Outcome (State.installLabel k s i) Balanced Harmless := by
  unfold State.installLabel
  apply deref_bind
  intro rsb hk
  apply deref_bind
  intro flow _
  apply deref_bind
  intro psb _
  apply (outcome_inInterfaceOf s psb).bind
  intro inInterface _
  apply (outcome_outInterfaceOf s psb flow.label).bind
  intro out _
  apply check_bind
  intro _
  apply deref_bind
  intro oldLabel _
  apply (h.installLibEntry oldLabel inInterface [out.1] out.2 psb.color).bind
  rintro ⟨inLabel, s'⟩ ⟨hs', hrsbs⟩
  apply check_bind
  intro _
  dsimp only at hs' hrsbs ⊢
  rw [← hrsbs] at hk
  change Balanced (State.output _ _)
  apply Balanced.output
  unfold State.modifyRSB
  rw [modify_eq_set hk]
  refine hs'.set hk rfl rfl rfl rfl ?_
  dsimp only
  rw [List.length_set]
  exact hs'.booked.lengths rsb (List.mem_of_getElem? hk)

theorem commitResv (h : Balanced s) (k : ℕ) : Outcome (s.commitResv k) Balanced Harmless := by
  unfold State.commitResv
  apply deref_bind
  intro rsb hk
  apply (h.commitLoop hk (Nat.lt_succ_self _)).bind
  rintro ⟨removed, s'⟩ hs'
  apply Outcome.ite
  · intro _
    exact hs'
  · intro _
    apply deref_bind
    intro rsb' _
    exact Outcome.foldlM _ (fun s i _ hs ↦ hs.installLabel k i) hs'

/-! ## Creation and updates -/

theorem createRSB (h : Balanced s) (session : SessionObj) (nextHop outInterface : IPAddress)
    (flows : List FlowDescriptor) : Balanced (s.createRSB session nextHop outInterface flows) := by
  have hmem : ∀ x ∈ (s.createRSB session nextHop outInterface flows).rsbList, x ∈ s.rsbList ∨
      x = { id := s.maxRsbId + 1, session, nextHopAddress := nextHop, outInterface
            flowDescriptor := flows, inLabelVector := flows.map fun _ ↦ -1, reqBandwidth := 0 } := by
    intro x hx
    rcases List.mem_append.mp hx with hx | hx
    · exact .inl hx
    · exact .inr (List.mem_singleton.mp hx)
  refine ⟨⟨fun link hlink hown p ↦ ?_, fun x hx ↦ ?_, fun x hx ↦ ?_, h.booked.addresses,
    h.booked.distinct, ?_, fun x hx ↦ ?_⟩, h.free⟩
  · rw [h.booked.links link hlink hown p]
    unfold State.createRSB
    dsimp only
    rw [allocated_append, allocated_cons]
    simp [ResvStateBlock.share]
  · rcases hmem x hx with hx | rfl
    · exact h.booked.nonneg x hx
    · exact le_refl 0
  · rcases hmem x hx with hx | rfl
    · exact h.booked.lengths x hx
    · exact List.length_map _
  · unfold State.createRSB
    dsimp only
    rw [List.map_append]
    apply List.Nodup.append h.booked.ids (List.nodup_singleton _)
    rw [List.disjoint_singleton]
    intro hid
    obtain ⟨x, hx, hxid⟩ := List.mem_map.mp hid
    have := h.booked.bounded x hx
    dsimp only at hxid
    omega
  · rcases hmem x hx with hx | rfl
    · exact (h.booked.bounded x hx).trans (Nat.le_succ _)
    · exact le_refl _

/-- One flow of a message leaves the bandwidth alone. -/
structure Updated (r r' : ResvStateBlock) : Prop where
  id : r'.id = r.id
  outInterface : r'.outInterface = r.outInterface
  session : r'.session = r.session
  reqBandwidth : r'.reqBandwidth = r.reqBandwidth
  lengths : r.inLabelVector.length = r.flowDescriptor.length →
    r'.inLabelVector.length = r'.flowDescriptor.length

theorem updated_updateFlow (r : ResvStateBlock) (flow : FlowDescriptor) :
    Updated r (State.updateFlow r flow).1 := by
  unfold State.updateFlow
  split
  · split
    · exact ⟨rfl, rfl, rfl, rfl, fun h ↦ h⟩
    · refine ⟨rfl, rfl, rfl, rfl, fun h ↦ ?_⟩
      dsimp only
      rw [List.length_modify]
      exact h
  · refine ⟨rfl, rfl, rfl, rfl, fun h ↦ ?_⟩
    dsimp only
    rw [List.length_append, List.length_append, h]
    rfl

theorem updated_foldl (flows : List FlowDescriptor) (r : ResvStateBlock) (o : List Output) :
    Updated r (flows.foldl (fun x flow ↦
      ((State.updateFlow x.1 flow).1, x.2 ++ (State.updateFlow x.1 flow).2)) (r, o)).1 := by
  induction flows generalizing r o with
  | nil => exact ⟨rfl, rfl, rfl, rfl, fun h ↦ h⟩
  | cons flow flows ih =>
    rw [List.foldl_cons]
    have hfirst := updated_updateFlow r flow
    have hrest := ih (State.updateFlow r flow).1 (o ++ (State.updateFlow r flow).2)
    exact ⟨hrest.id.trans hfirst.id, hrest.outInterface.trans hfirst.outInterface,
      hrest.session.trans hfirst.session, hrest.reqBandwidth.trans hfirst.reqBandwidth,
      fun h ↦ hrest.lengths (hfirst.lengths h)⟩

theorem updateRSB (h : Balanced s) (k : ℕ) (flows : List FlowDescriptor) :
    Outcome (s.updateRSB k flows) Balanced Harmless := by
  unfold State.updateRSB
  apply deref_bind
  intro rsb hk
  have hupdated := updated_foldl flows rsb []
  apply Balanced.output
  exact h.set hk hupdated.id hupdated.outInterface hupdated.session hupdated.reqBandwidth
    (hupdated.lengths (h.booked.lengths rsb (List.mem_of_getElem? hk)))

theorem preempt (h : Balanced s) (L : IPAddress) (priority : Fin 8) (bandwidth : ℚ) :
    Outcome (s.preempt L priority bandwidth) Balanced Harmless := by
  cases hindex : s.linkIndex L with
  | error e =>
    unfold State.preempt
    apply check_bind
    intro _
    rw [hindex]
    unfold State.linkIndex at hindex
    split at hindex
    · cases hindex
      exact ⟨nofun, nofun⟩
    · cases hindex
  | ok index =>
    obtain ⟨link, hlink, hown, rfl⟩ := linkIndex_ok hindex
    obtain ⟨released, rsbs, outputs, hok, hnonneg, _, _, hbooked⟩ :=
      h.booked.preempt hlink hown priority bandwidth
    rw [hok]
    refine ⟨hbooked.output outputs, fun x hx hxown p ↦ ?_⟩
    have hfree : FreeBelow link.localAddr 8 s := fun x hx hxown p _ ↦ h.free x hx hxown p
    refine Allocating.free_setUnResvBandwidth h.booked hfree hlink hown rfl (fun q _ ↦ ?_) x hx hxown p
      fun _ ↦ p.isLt
    have hq := h.free link (List.mem_of_getElem? hlink) hown q
    unfold State.release
    split
    · exact add_nonneg hq hnonneg
    · exact hq

theorem flood (h : Balanced s) {ted : List TELinkStateInfo}
    (hlinks : ({ s with ted } : State).ownLinks = s.ownLinks) : Balanced { s with ted } := by
  have hmem : ∀ link ∈ ted, s.IsOwn link → ∃ link₀ ∈ s.ted, s.IsOwn link₀ ∧
      link₀.localAddr = link.localAddr ∧ link₀.maxBandwidth = link.maxBandwidth ∧
      link₀.unResvBandwidth = link.unResvBandwidth := by
    intro link hlink hown
    have hin : (link.localAddr, link.maxBandwidth, link.unResvBandwidth) ∈ s.ownLinks := by
      rw [← hlinks]
      exact List.mem_map_of_mem (List.mem_filter.mpr ⟨hlink, decide_eq_true hown⟩)
    obtain ⟨link₀, hlink₀, heq⟩ := List.mem_map.mp hin
    obtain ⟨hlink₀, hown₀⟩ := List.mem_filter.mp hlink₀
    simp only [Prod.mk.injEq] at heq
    exact ⟨link₀, hlink₀, of_decide_eq_true hown₀, heq⟩
  refine ⟨⟨fun link hlink hown p ↦ ?_, h.booked.nonneg, h.booked.lengths, fun link hlink hown ↦ ?_,
    ?_, h.booked.ids, h.booked.bounded⟩, fun link hlink hown p ↦ ?_⟩
  · obtain ⟨link₀, hlink₀, hown₀, hlocal, hmax, hunres⟩ := hmem link hlink hown
    rw [← hlocal, ← hmax, ← hunres]
    exact h.booked.links link₀ hlink₀ hown₀ p
  · obtain ⟨link₀, hlink₀, hown₀, hlocal, _⟩ := hmem link hlink hown
    rw [← hlocal]
    exact h.booked.addresses link₀ hlink₀ hown₀
  · rw [hlinks]
    exact h.booked.distinct
  · obtain ⟨link₀, hlink₀, hown₀, _, _, hunres⟩ := hmem link hlink hown
    rw [← hunres]
    exact h.free link₀ hlink₀ hown₀ p

end Balanced

/-! ## Runs -/

namespace State

/-- The database as it is extracted from the interfaces, and no reservations. -/
structure Started (s : State) : Prop where
  links : ∀ link ∈ s.ted, s.IsOwn link → 0 ≤ link.maxBandwidth ∧
    ∀ p, link.unResvBandwidth p = link.maxBandwidth
  addresses : ∀ link ∈ s.ted, s.IsOwn link →
    link.localAddr ≠ 0 ∧ s.isLocalAddress link.localAddr = true
  distinct : (s.ownLinks.map Prod.fst).Nodup
  rsbList : s.rsbList = []

/-- Messages about the own links are never newer than what the database holds of them. -/
def Allowed (s : State) : Event → Prop
  | .flood ted => ({ s with ted } : State).ownLinks = s.ownLinks
  | _ => True

theorem Started.balanced {s : State} (h : s.Started) : Balanced s := by
  refine ⟨⟨fun link hlink hown p ↦ ?_, ?_, ?_, h.addresses, h.distinct, ?_, ?_⟩,
    fun link hlink hown p ↦ ?_⟩
  · rw [h.rsbList, (h.links link hlink hown).2 p]
    simp
  · rw [h.rsbList]
    exact nofun
  · rw [h.rsbList]
    exact nofun
  · rw [h.rsbList]
    exact List.nodup_nil
  · rw [h.rsbList]
    exact nofun
  · rw [(h.links link hlink hown).2 p]
    exact (h.links link hlink hown).1

theorem findRsbById_bind {s : State} {id : ℕ} {f : ℕ → Except Fault State}
    (h : ∀ k, Outcome (f k) Balanced Harmless) :
    Outcome (s.findRsbById id >>= f) Balanced Harmless := by
  unfold findRsbById
  split
  · exact ⟨nofun, nofun⟩
  · exact h _

end State

theorem Balanced.step {s : State} (h : Balanced s) (e : State.Event) (he : s.Allowed e) :
    Outcome (s.step e) Balanced Harmless := by
  cases e with
  | create session nextHop outInterface flows =>
    exact h.createRSB session nextHop outInterface flows
  | createEgress psb tspec => exact h.createRSB _ _ _ _
  | update id flows => exact State.findRsbById_bind fun k ↦ h.updateRSB k flows
  | commit id => exact State.findRsbById_bind fun k ↦ h.commitResv k
  | removeFilter id index => exact State.findRsbById_bind fun k ↦ h.removeRsbFilter k index
  | remove id => exact State.findRsbById_bind fun k ↦ h.removeRSB k
  | preempt outInterface priority bandwidth => exact h.preempt outInterface priority bandwidth
  | paths psbList =>
    exact ⟨⟨h.booked.links, h.booked.nonneg, h.booked.lengths, h.booked.addresses,
      h.booked.distinct, h.booked.ids, h.booked.bounded⟩, h.free⟩
  | flood ted => exact h.flood he

/-- In every run the unreserved bandwidth of an own link is what the reservations leave of it, at
every priority; it is not negative and shrinks towards the weaker priorities. Inside an operation the
same holds when an allocation is done, if what it is made for is counted. Labels match the flows,
and committing comes to its end and knows the largest flow when it drops it. -/
theorem bandwidth_bookkeeping {s : State} (h : Reachable State.Started State.Allowed State.step s) :
    (∀ link ∈ s.ted, link.advrouter = s.routerId →
      (∀ p, link.unResvBandwidth p = link.maxBandwidth - allocated s.rsbList link.localAddr p) ∧
      (∀ p, 0 ≤ link.unResvBandwidth p) ∧ Antitone link.unResvBandwidth) ∧
    (∀ r ∈ s.rsbList, r.inLabelVector.length = r.flowDescriptor.length) ∧
    (∀ e fault, s.Allowed e → s.step e = .error fault → fault ≠ .unset ∧ fault ≠ .endless) ∧
    ∀ L session bandwidth s', s.allocateResource L session bandwidth = .ok (true, s') →
      ∀ link ∈ s'.ted, link.advrouter = s'.routerId → ∀ p, 0 ≤ link.unResvBandwidth p ∧
        link.unResvBandwidth p = link.maxBandwidth - allocated s'.rsbList link.localAddr p -
          if link.localAddr = L ∧ session.holdingPri ≤ p then bandwidth else 0 := by
  obtain ⟨hs, hstep⟩ := h.outcome (fun _ ↦ State.Started.balanced) fun _ e hs he ↦ hs.step e he
  refine ⟨fun link hlink hown ↦ ⟨fun p ↦ ?_, hs.free link hlink hown, hs.antitone hlink hown⟩,
    hs.booked.lengths, fun e fault he hfault ↦ (hstep e he).of_eq_error hfault, ?_⟩
  · rw [hs.booked.links link hlink hown p]
    exact sub_zero _
  · intro L session bandwidth s' hok link hlink hown p
    rcases (hs.allocateResource L session bandwidth).of_eq_ok hok with ⟨_, hs'⟩ | ⟨hfalse, _⟩
    · refine ⟨hs'.free link hlink hown p, ?_⟩
      rw [hs'.booked.links link hlink hown p]
      unfold pending
      simp only [p.isLt, and_true]
    · cases hfalse

/-- A router with one link of bandwidth 5. -/
def oneLink : State where
  routerId := 1
  interfaces := ⟨fun _ ↦ some "ppp0", fun _ ↦ none⟩
  interfaceAddrs := [10]
  ted := [{ advrouter := 1, linkid := 2, localAddr := 10, metric := 1, maxBandwidth := 5,
            unResvBandwidth := fun _ ↦ 5, timestamp := 0, sourceId := 1, messageId := 1,
            state := true }]

def sessionAt (tunnelId : ℤ) (priority : Fin 8) : SessionObj where
  tunnelId
  extendedTunnelId := 0
  destAddress := 20
  setupPri := priority
  holdingPri := priority
  holding_le_setup := le_refl priority

/-- Two reservations that do not fit together; the second one is stronger. -/
def twoReservations : List State.Event :=
  [.paths [⟨sessionAt 1 7, ⟨1, 1⟩, 1, 10, 0, 0⟩, ⟨sessionAt 2 0, ⟨1, 2⟩, 1, 10, 0, 0⟩],
    .create (sessionAt 1 7) 2 10 [⟨3, ⟨1, 1⟩, 100⟩], .commit 1,
    .create (sessionAt 2 0) 2 10 [⟨4, ⟨1, 2⟩, 200⟩], .commit 2]

/-- The weaker reservation has been preempted. -/
theorem bandwidth_bookkeeping_twoReservations : ∃ s,
    run State.step oneLink twoReservations = .ok s ∧
    s.rsbList.map (·.reqBandwidth) = [0, 4] ∧
    ∀ link ∈ s.ted, link.advrouter = s.routerId →
      ∀ p, link.unResvBandwidth p = link.maxBandwidth - allocated s.rsbList link.localAddr p := by
  have hstarted : oneLink.Started := by
    refine ⟨?_, ?_, ?_, rfl⟩
    · intro link hlink _
      rw [List.mem_singleton.mp hlink]
      exact ⟨by norm_num, fun _ ↦ rfl⟩
    · intro link hlink _
      rw [List.mem_singleton.mp hlink]
      exact ⟨by decide, rfl⟩
    · exact List.nodup_singleton _
  obtain ⟨s, hrun, hcheck⟩ := exists_ok (run State.step oneLink twoReservations)
    (fun s ↦ s.rsbList.map (·.reqBandwidth) = [0, 4]) (by decide +kernel)
  have hreach : Reachable State.Started State.Allowed State.step s := by
    obtain ⟨s₁, h₁, hrun⟩ := bind_ok_iff.mp hrun
    obtain ⟨s₂, h₂, hrun⟩ := bind_ok_iff.mp hrun
    obtain ⟨s₃, h₃, hrun⟩ := bind_ok_iff.mp hrun
    obtain ⟨s₄, h₄, hrun⟩ := bind_ok_iff.mp hrun
    obtain ⟨s₅, h₅, hrun⟩ := bind_ok_iff.mp hrun
    cases hrun
    have hstart : Reachable State.Started State.Allowed State.step oneLink := .start hstarted
    exact ((((hstart.next (by trivial) h₁).next (by trivial) h₂).next (by trivial) h₃).next
      (by trivial) h₄).next (by trivial) h₅
  refine ⟨s, hrun, hcheck, fun link hlink hown ↦ ?_⟩
  exact ((bandwidth_bookkeeping hreach).1 link hlink hown).1

end InetManet.RSVP
