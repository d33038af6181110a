import InetManet.Library.Loops
import InetManet.OSPF.UpdateHandler
import Mathlib.Data.List.Nodup

/-!
# What is on the retransmission lists

An LSA is flooded: every neighbor that it is assigned to has exactly this instance on its list
afterwards. Otherwise the lists change only where an instance makes way for one of the same LSA with no
lower sequence number. When a neighbor becomes fully adjacent on the way, the LSAs of this router are
flooded within the flood; no further ones are, as long as no neighbor is asked for them.
-/

namespace InetManet.OSPF

open TransitionSystem

variable {β : Type}

/-- The LS type follows from the key. -/
def Typed (τ : LSAKey → LSAType) (h : LSAHeader) : Prop := h.lsType = τ h.key

structure Faithful (τ : LSAKey → LSAType) (n : Neighbor β) : Prop where
  eq : n.retransmissionList = n.outstanding
  typed : ∀ x ∈ n.retransmissionList, Typed τ x.header
  unique : (n.retransmissionList.map fun x ↦ x.header.key).Nodup

/-! ## The lists -/

section Lists

variable {τ : LSAKey → LSAType} {lsa : LSA β} {list : List (LSA β)}

theorem Typed.sameLSA_eq {h h' : LSAHeader} (ht : Typed τ h) (ht' : Typed τ h') :
    h.sameLSA h' = h.sameKey h' := by
  unfold LSAHeader.sameLSA LSAHeader.sameKey
  by_cases hkey : h.key = h'.key
  · have htype : h.lsType = h'.lsType := by rw [ht, ht', hkey]
    simp [hkey, htype]
  · simp [hkey]

theorem addBy_congr (hlist : ∀ x ∈ list, Typed τ x.header) (hlsa : Typed τ lsa.header) :
    addBy LSAHeader.sameKey lsa list = addBy LSAHeader.sameLSA lsa list := by
  induction list with
  | nil => rfl
  | cons x list ih =>
    unfold addBy
    rw [(hlist x List.mem_cons_self).sameLSA_eq hlsa,
      ih fun y hy ↦ hlist y (List.mem_cons_of_mem x hy)]

theorem mem_addBy {same : LSAHeader → LSAHeader → Bool} {x : LSA β} (hx : x ∈ addBy same lsa list) :
    x = lsa ∨ x ∈ list := by
  induction list with
  | nil => exact .inl (List.mem_singleton.mp hx)
  | cons y list ih =>
    unfold addBy at hx
    split at hx
    · rcases List.mem_cons.mp hx with rfl | hx
      · exact .inl rfl
      · exact .inr (List.mem_cons_of_mem y hx)
    · rcases List.mem_cons.mp hx with rfl | hx
      · exact .inr List.mem_cons_self
      · rcases ih hx with rfl | hx
        · exact .inl rfl
        · exact .inr (List.mem_cons_of_mem y hx)

theorem nodup_addBy (hlist : (list.map fun x ↦ x.header.key).Nodup) :
    ((addBy LSAHeader.sameKey lsa list).map fun x ↦ x.header.key).Nodup := by
  induction list with
  | nil => exact List.nodup_singleton _
  | cons y list ih =>
    rw [List.map_cons, List.nodup_cons] at hlist
    unfold addBy
    split
    · rename_i hsame
      have hkey : y.header.key = lsa.header.key := by simpa [LSAHeader.sameKey] using hsame
      rw [List.map_cons, List.nodup_cons, ← hkey]
      exact hlist
    · rename_i hsame
      have hkey : y.header.key ≠ lsa.header.key := by simpa [LSAHeader.sameKey] using hsame
      rw [List.map_cons, List.nodup_cons]
      refine ⟨fun hmem ↦ ?_, ih hlist.2⟩
      obtain ⟨x, hx, hxkey⟩ := List.mem_map.mp hmem
      rcases mem_addBy hx with rfl | hx
      · exact hkey hxkey.symm
      · exact hlist.1 (List.mem_map.mpr ⟨x, hx, hxkey⟩)

end Lists

namespace Faithful

variable {τ : LSAKey → LSAType} {n : Neighbor β} {lsa : LSA β}

variable (h : Faithful τ n)

include h

theorem addToRetransmissionList (hlsa : Typed τ lsa.header) :
    Faithful τ (n.addToRetransmissionList lsa) := by
  refine ⟨?_, fun x hx ↦ ?_, nodup_addBy h.unique⟩
  · unfold Neighbor.addToRetransmissionList
    dsimp only
    rw [← h.eq]
    exact addBy_congr h.typed hlsa
  · rcases mem_addBy hx with rfl | hx
    · exact hlsa
    · exact h.typed x hx

theorem filter {p q : LSA β → Bool} (hpq : ∀ x ∈ n.retransmissionList, p x = q x) :
    Faithful τ { n with retransmissionList := n.retransmissionList.filter p
                        outstanding := n.outstanding.filter q } := by
  refine ⟨?_, fun x hx ↦ h.typed x (List.mem_filter.mp hx).1, ?_⟩
  · dsimp only
    rw [← h.eq]
    exact List.filter_congr hpq
  · exact h.unique.sublist (List.filter_sublist.map _)

theorem key_bne_eq {hd : LSAHeader} (hlsa : Typed τ hd) {x : LSA β}
    (hx : x ∈ n.retransmissionList) {c : Bool} (hc : x.header.key = hd.key → c = true) :
    (x.header.key != hd.key) = !(x.header.sameLSA hd && c) := by
  rw [(h.typed x hx).sameLSA_eq hlsa, LSAHeader.sameKey]
  by_cases hkey : x.header.key = hd.key
  · simp [hkey, hc hkey]
  · rw [bne, beq_eq_false_iff_ne.mpr hkey]
    rfl

theorem removeSuperseded (hlsa : Typed τ lsa.header)
    (hold : ∀ x ∈ n.retransmissionList, x.header.key = lsa.header.key →
      x.header.isOlder lsa.header = true) : Faithful τ (n.removeSuperseded lsa) :=
  h.filter fun x hx ↦ h.key_bne_eq hlsa hx (hold x hx)

theorem impliedAcknowledgement (hlsa : Typed τ lsa.header)
    (hold : ∀ x ∈ n.retransmissionList, x.header.key = lsa.header.key →
      lsa.header.isOlder x.header = false) : Faithful τ (n.impliedAcknowledgement lsa) := by
  apply h.filter
  intro x hx
  apply h.key_bne_eq hlsa hx
  intro hkey
  rw [hold x hx hkey]
  rfl

theorem acknowledge {hd : LSAHeader} (hhd : Typed τ hd) :
    Faithful τ (n.acknowledge hd) := by
  unfold Neighbor.acknowledge
  -- all LSAs with the key are the one that is found
  have hunique : ∀ x ∈ n.retransmissionList, ∀ y ∈ n.retransmissionList,
      x.header.key = y.header.key → x = y := fun x hx y hy hxy ↦
    List.inj_on_of_nodup_map h.unique hx hy hxy
  have hkeep : (∀ x ∈ n.retransmissionList, x.header.key = hd.key →
      hd.sameInstance x.header = false) →
      n.retransmissionList = n.outstanding.filter fun x ↦
        !(x.header.sameLSA hd && hd.sameInstance x.header) := by
    intro hnone
    rw [← h.eq, eq_comm, List.filter_eq_self]
    intro x hx
    rw [(h.typed x hx).sameLSA_eq hhd, LSAHeader.sameKey]
    by_cases hkey : x.header.key = hd.key
    · simp [hnone x hx hkey]
    · simp [hkey]
  cases hfind : n.retransmissionList.find? fun x ↦ x.header.key == hd.key with
  | none =>
    refine ⟨hkeep fun x hx hkey ↦ ?_, h.typed, h.unique⟩
    have hnone := List.find?_eq_none.mp hfind x hx
    simp [hkey] at hnone
  | some y =>
    have hymem := List.mem_of_find?_eq_some hfind
    have hykey : y.header.key = hd.key := by simpa using List.find?_some hfind
    dsimp only
    split
    · rename_i hsame
      apply h.filter
      intro x hx
      apply h.key_bne_eq hhd hx
      intro hkey
      rw [hunique x hx y hymem (hkey.trans hykey.symm)]
      exact hsame
    · rename_i hsame
      refine ⟨hkeep fun x hx hkey ↦ ?_, h.typed, h.unique⟩
      rw [hunique x hx y hymem (hkey.trans hykey.symm)]
      simpa using hsame

end Faithful

/-! ## Successors -/

/-- The second header is that of the same LSA, and its sequence number is no lower. -/
def Succeeds (h h' : LSAHeader) : Prop :=
  h'.sameLSA h = true ∧ h.lsSequenceNumber ≤ h'.lsSequenceNumber

/-- One of the IDs of the LSAs that are originated again when a neighbor becomes fully adjacent. -/
def OwnID (env : Env β) (id : IPAddress) : Prop := id = env.routerID ∨ env.isLocalAddress id = true

def DatabaseKey.linkStateID : DatabaseKey → IPAddress
  | router _ linkStateID | network _ linkStateID => linkStateID
  | summary _ key | asExternal key => key.linkStateID

section Successors

variable {h h' h'' : LSAHeader} {τ : LSAKey → LSAType}

theorem Succeeds.refl (h : LSAHeader) : Succeeds h h :=
  ⟨by simp [LSAHeader.sameLSA, LSAHeader.sameKey], le_refl _⟩

theorem sameLSA_iff : h'.sameLSA h = true ↔ h'.lsType = h.lsType ∧ h'.key = h.key := by
  simp [LSAHeader.sameLSA, LSAHeader.sameKey]

theorem Succeeds.key_eq (hs : Succeeds h h') : h'.key = h.key := (sameLSA_iff.mp hs.1).2

theorem Succeeds.trans (hs : Succeeds h h') (hs' : Succeeds h' h'') : Succeeds h h'' := by
  obtain ⟨htype, hkey⟩ := sameLSA_iff.mp hs.1
  obtain ⟨htype', hkey'⟩ := sameLSA_iff.mp hs'.1
  exact ⟨sameLSA_iff.mpr ⟨htype'.trans htype, hkey'.trans hkey⟩, hs.2.trans hs'.2⟩

theorem Succeeds.of_typed (ht : Typed τ h) (ht' : Typed τ h') (hkey : h'.key = h.key)
    (hle : h.lsSequenceNumber ≤ h'.lsSequenceNumber) : Succeeds h h' := by
  have htype : h'.lsType = h.lsType := by rw [ht, ht', hkey]
  exact ⟨sameLSA_iff.mpr ⟨htype, hkey⟩, hle⟩

theorem le_of_isOlder (holder : h.isOlder h' = true) : h.lsSequenceNumber ≤ h'.lsSequenceNumber := by
  simp only [LSAHeader.isOlder, Bool.or_eq_true, Bool.and_eq_true, decide_eq_true_eq, beq_iff_eq]
    at holder
  rcases holder with hlt | ⟨heq, _⟩
  · exact hlt.le
  · exact heq.le

theorem le_of_not_isOlder (holder : h.isOlder h' = false) :
    h'.lsSequenceNumber ≤ h.lsSequenceNumber := by
  by_contra hlt
  simp [LSAHeader.isOlder, not_le.mp hlt] at holder

theorem databaseKey_linkStateID (areaID : IPAddress) (h : LSAHeader) :
    (databaseKey areaID h).linkStateID = h.linkStateID := by
  unfold databaseKey
  cases h.lsType with
  | routerLSA | networkLSA | summaryNetworks | summaryASBoundaryRouters | asExternalLSA => rfl

/-- The place in the database follows from the area, the type and the key. -/
theorem databaseKey_congr (areaID : IPAddress) (ht : Typed τ h) (ht' : Typed τ h')
    (hkey : h.key = h'.key) : databaseKey areaID h = databaseKey areaID h' := by
  have htype : h.lsType = h'.lsType := by rw [ht, ht', hkey]
  have hid : h.linkStateID = h'.linkStateID := congrArg LSAKey.linkStateID hkey
  unfold databaseKey
  rw [htype, hkey, hid]

theorem Neighbor.databaseKey_eq {n : Neighbor β} {areaID : IPAddress} {h : LSAHeader}
    (htakes : n.takesPart areaID h.lsType = true) : databaseKey n.areaID h = databaseKey areaID h := by
  unfold Neighbor.takesPart at htakes
  unfold databaseKey
  split at htakes <;> rename_i htype
  · rw [htype]
  · simp only [Bool.and_eq_true, beq_iff_eq] at htakes
    rw [htakes.1]

end Successors

/-! ## A neighbor -/

/-- The neighbor while LSAs with property `F` are flooded. An LSA stays on its list, or one of those
takes its place. -/
structure Grown (F : LSA β → Prop) (n n' : Neighbor β) : Prop where
  area : n'.areaID = n.areaID
  virtual : n'.isVirtual = n.isVirtual
  external : n'.externalRoutingCapability = n.externalRoutingCapability
  state : n'.state = n.state ∨ n.state = .loading ∧ n'.state = .full
  keeps : ∀ x ∈ n.retransmissionList, ∃ y ∈ n'.retransmissionList,
    (y = x ∨ F y) ∧ Succeeds x.header y.header
  fresh : ∀ y ∈ n'.retransmissionList, y ∈ n.retransmissionList ∨ F y

/-- The flood asks the neighbor nothing. -/
def Neighbor.Quiet (n n' : Neighbor β) : Prop :=
  n'.state = n.state ∧ n'.requestList = n.requestList

/-- `FloodLSA` assigns the LSA to the neighbor unless it comes from there: he takes part in the exchange,
and what he is asked for is not as recent. -/
def Neighbor.IsAssigned (n : Neighbor β) (areaID : IPAddress) (lsa : LSA β) : Prop :=
  n.takesPart areaID lsa.header.lsType = true ∧ n.state.isExchanging = true ∧
    (n.state = .full ∨ ∀ h, (n.requestList.find? fun h ↦ h.key == lsa.header.key) = some h →
      lsa.header.isOlder h = false ∧ lsa.header.sameInstance h = false)

namespace Grown

variable {F G : LSA β → Prop} {n n' n'' : Neighbor β}

theorem refl (F : LSA β → Prop) (n : Neighbor β) : Grown F n n :=
  ⟨rfl, rfl, rfl, .inl rfl, fun x hx ↦ ⟨x, hx, .inl rfl, .refl _⟩, fun _ hy ↦ .inl hy⟩

theorem mono (h : Grown F n n') (hF : ∀ l, F l → G l) : Grown G n n' := by
  refine ⟨h.area, h.virtual, h.external, h.state, fun x hx ↦ ?_, fun y hy ↦ (h.fresh y hy).imp_right (hF y)⟩
  obtain ⟨y, hy, hyx, hs⟩ := h.keeps x hx
  exact ⟨y, hy, hyx.imp_right (hF y), hs⟩

theorem trans (h : Grown F n n') (h' : Grown F n' n'') : Grown F n n'' := by
  constructor
  case area => exact h'.area.trans h.area
  case virtual => exact h'.virtual.trans h.virtual
  case external => exact h'.external.trans h.external
  case state =>
    rcases h.state with heq | ⟨hloading, hfull⟩
    · rw [← heq]
      exact h'.state
    · rcases h'.state with heq' | ⟨hloading', _⟩
      · exact .inr ⟨hloading, heq'.trans hfull⟩
      · rw [hfull] at hloading'
        cases hloading'
  case keeps =>
    intro x hx
    obtain ⟨y, hy, hyx, hs⟩ := h.keeps x hx
    obtain ⟨z, hz, hzy, hs'⟩ := h'.keeps y hy
    refine ⟨z, hz, ?_, hs.trans hs'⟩
    rcases hzy with rfl | hF
    · exact hyx
    · exact .inr hF
  case fresh =>
    intro z hz
    rcases h'.fresh z hz with hz' | hF
    · exact h.fresh z hz'
    · exact .inr hF

theorem of_lists (harea : n'.areaID = n.areaID) (hvirtual : n'.isVirtual = n.isVirtual)
    (hexternal : n'.externalRoutingCapability = n.externalRoutingCapability)
    (hstate : n'.state = n.state ∨ n.state = .loading ∧ n'.state = .full)
    (hlist : n'.retransmissionList = n.retransmissionList) : Grown F n n' := by
  refine ⟨harea, hvirtual, hexternal, hstate, fun x hx ↦ ⟨x, ?_, .inl rfl, .refl _⟩, fun y hy ↦ .inl ?_⟩
  · rwa [hlist]
  · rwa [← hlist]

theorem isAssigned (h : Grown F n n') (hquiet : n.Quiet n') {areaID : IPAddress} {lsa : LSA β}
    (hn : n.IsAssigned areaID lsa) : n'.IsAssigned areaID lsa := by
  unfold Neighbor.IsAssigned Neighbor.takesPart at hn ⊢
  rw [h.area, h.virtual, h.external, hquiet.1, hquiet.2]
  exact hn

end Grown

theorem mem_addBy_self (same : LSAHeader → LSAHeader → Bool) (lsa : LSA β) (list : List (LSA β)) :
    lsa ∈ addBy same lsa list := by
  induction list with
  | nil => exact List.mem_singleton_self _
  | cons y list ih =>
    unfold addBy
    split
    · exact List.mem_cons_self
    · exact List.mem_cons_of_mem y ih

theorem mem_addBy_of_mem {lsa x : LSA β} {list : List (LSA β)} (hx : x ∈ list) :
    x ∈ addBy LSAHeader.sameKey lsa list ∨ x.header.key = lsa.header.key := by
  induction list with
  | nil => cases hx
  | cons y list ih =>
    unfold addBy
    split <;> rename_i hsame
    · rcases List.mem_cons.mp hx with rfl | hx
      · exact .inr (by simpa [LSAHeader.sameKey] using hsame)
      · exact .inl (List.mem_cons_of_mem _ hx)
    · rcases List.mem_cons.mp hx with rfl | hx
      · exact .inl List.mem_cons_self
      · exact (ih hx).imp_left (List.mem_cons_of_mem y)

theorem Grown.addToRetransmissionList {F : LSA β → Prop} {τ : LSAKey → LSAType} {n : Neighbor β}
    {lsa : LSA β} (hn : Faithful τ n) (hlsa : Typed τ lsa.header) (hF : F lsa)
    (hle : ∀ x ∈ n.retransmissionList, x.header.key = lsa.header.key →
      x.header.lsSequenceNumber ≤ lsa.header.lsSequenceNumber) :
    Grown F n (n.addToRetransmissionList lsa) := by
  refine ⟨rfl, rfl, rfl, .inl rfl, fun x hx ↦ ?_, fun y hy ↦ ?_⟩
  · rcases mem_addBy_of_mem hx with hmem | hkey
    · exact ⟨x, hmem, .inl rfl, .refl _⟩
    · refine ⟨lsa, mem_addBy_self _ _ _, .inr hF, ?_⟩
      exact Succeeds.of_typed (hn.typed x hx) hlsa hkey.symm (hle x hx hkey)
  · rcases mem_addBy hy with rfl | hmem
    · exact .inr hF
    · exact .inl hmem

/-! ## The router -/

/-- The LSAs fit their keys and their places, the lists are as they should be and hold nothing newer than
the database, and no neighbor is asked for an LSA that is originated again. -/
structure Inv (env : Env β) (τ : LSAKey → LSAType) (s : State β) : Prop where
  faithful : ∀ n ∈ s.neighbors, Faithful τ n
  stored : ∀ k e, s.database k = some e → Typed τ e.lsa.header ∧
    ∃ areaID, databaseKey areaID e.lsa.header = k
  own : ∀ n ∈ s.neighbors, n.isDesignatedRouter = true →
    τ ⟨n.interfaceAddress, env.routerID⟩ = .networkLSA ∧ env.isLocalAddress n.interfaceAddress = true
  requests : ∀ n ∈ s.neighbors, ∀ h ∈ n.requestList, ¬ OwnID env h.linkStateID
  covered : ∀ n ∈ s.neighbors, ∀ x ∈ n.retransmissionList, ∀ e,
    s.database (databaseKey n.areaID x.header) = some e →
      x.header.lsSequenceNumber ≤ e.lsa.header.lsSequenceNumber

/-- No LSA on the lists that belongs to this place has a higher sequence number. -/
def State.Below (s : State β) (k : DatabaseKey) (number : ℤ) : Prop :=
  ∀ n ∈ s.neighbors, ∀ x ∈ n.retransmissionList, databaseKey n.areaID x.header = k →
    x.header.lsSequenceNumber ≤ number

/-- The LSA may be flooded: it is newer than the lists, but not than the database. -/
structure Ready (τ : LSAKey → LSAType) (s : State β) (areaID : IPAddress) (lsa : LSA β) : Prop where
  typed : Typed τ lsa.header
  below : s.Below (databaseKey areaID lsa.header) lsa.header.lsSequenceNumber
  above : ∀ e, s.database (databaseKey areaID lsa.header) = some e →
    lsa.header.lsSequenceNumber ≤ e.lsa.header.lsSequenceNumber

/-- What a flood keeps. The database changes at IDs with property `D` only, and what the neighbors are
asked for where `moved` says so. -/
structure Kept (env : Env β) (τ : LSAKey → LSAType) (D : IPAddress → Prop) (F : LSA β → Prop)
    (moved : ℕ → Prop) (s s' : State β) : Prop where
  inv : Inv env τ s'
  length : s'.neighbors.length = s.neighbors.length
  absent : ∀ k, s.database k = none → s'.database k = none
  database : ∀ k, ¬ D k.linkStateID → s'.database k = s.database k
  neighbors : ∀ j n, s.neighbors[j]? = some n → ∃ n', s'.neighbors[j]? = some n' ∧ Grown F n n' ∧
    (¬ moved j → n.Quiet n')

section Flooding

variable {env : Env β} {τ : LSAKey → LSAType} {D D' : IPAddress → Prop} {F F' : LSA β → Prop}
  {moved moved' : ℕ → Prop} {s s' s'' : State β} {i : ℕ} {n n' : Neighbor β} {lsa : LSA β}
  {areaID : IPAddress}

theorem Kept.refl (h : Inv env τ s) : Kept env τ D F moved s s :=
  ⟨h, rfl, fun _ hk ↦ hk, fun _ _ ↦ rfl, fun _ n hn ↦ ⟨n, hn, .refl F n, fun _ ↦ ⟨rfl, rfl⟩⟩⟩

theorem Kept.trans (h : Kept env τ D F moved s s') (h' : Kept env τ D F moved s' s'') :
    Kept env τ D F moved s s'' := by
  refine ⟨h'.inv, h'.length.trans h.length, fun k hk ↦ h'.absent k (h.absent k hk),
    fun k hk ↦ (h'.database k hk).trans (h.database k hk), fun j n hn ↦ ?_⟩
  obtain ⟨n', hn', hgrown, hquiet⟩ := h.neighbors j n hn
  obtain ⟨n'', hn'', hgrown', hquiet'⟩ := h'.neighbors j n' hn'
  refine ⟨n'', hn'', hgrown.trans hgrown', fun hj ↦ ?_⟩
  exact ⟨(hquiet' hj).1.trans (hquiet hj).1, (hquiet' hj).2.trans (hquiet hj).2⟩

theorem Kept.mono (h : Kept env τ D F moved s s') (hD : ∀ id, D id → D' id) (hF : ∀ l, F l → F' l)
    (hmoved : ∀ j, moved j → moved' j) : Kept env τ D' F' moved' s s' := by
  refine ⟨h.inv, h.length, h.absent, fun k hk ↦ h.database k fun hd ↦ hk (hD _ hd), fun j n hn ↦ ?_⟩
  obtain ⟨n', hn', hgrown, hquiet⟩ := h.neighbors j n hn
  exact ⟨n', hn', hgrown.mono hF, fun hj ↦ hquiet fun hm ↦ hj (hmoved j hm)⟩

/-- A neighbor changes, and nothing too new gets on its list. -/
theorem Inv.setNeighbor (h : Inv env τ s) (hn' : Faithful τ n')
    (hown : n'.isDesignatedRouter = true → τ ⟨n'.interfaceAddress, env.routerID⟩ = .networkLSA ∧
      env.isLocalAddress n'.interfaceAddress = true)
    (hrequests : ∀ h ∈ n'.requestList, ¬ OwnID env h.linkStateID)
    (hlist : ∀ y ∈ n'.retransmissionList, ∀ e, s.database (databaseKey n'.areaID y.header) = some e →
      y.header.lsSequenceNumber ≤ e.lsa.header.lsSequenceNumber) :
    Inv env τ (s.setNeighbor i n') := by
  refine ⟨fun m hm ↦ ?_, h.stored, fun m hm ↦ ?_, fun m hm ↦ ?_, fun m hm ↦ ?_⟩
  all_goals rcases List.mem_or_eq_of_mem_set hm with hm | rfl
  · exact h.faithful m hm
  · exact hn'
  · exact h.own m hm
  · exact hown
  · exact h.requests m hm
  · exact hrequests
  · exact h.covered m hm
  · exact hlist

theorem Kept.setNeighbor (hi : s.neighbors[i]? = some n)
    (hinv : Inv env τ (s.setNeighbor i n')) (hgrown : Grown F n n')
    (hquiet : ¬ moved i → n.Quiet n') : Kept env τ D F moved s (s.setNeighbor i n') := by
  refine ⟨hinv, List.length_set, fun _ hk ↦ hk, fun _ _ ↦ rfl, fun j m hm ↦ ?_⟩
  by_cases hij : i = j
  · subst hij
    rw [hi] at hm
    cases hm
    exact ⟨n', List.getElem?_set_self (List.getElem?_eq_some_iff.mp hi).1, hgrown, hquiet⟩
  · exact ⟨m, (List.getElem?_set_ne hij).trans hm, .refl F m, fun _ ↦ ⟨rfl, rfl⟩⟩

/-- An LSA is stored that is no older than what is on the lists. -/
theorem Inv.setStored (h : Inv env τ s) {k : DatabaseKey} {y : Stored β} (hy : Typed τ y.lsa.header)
    (hk : ∃ areaID, databaseKey areaID y.lsa.header = k)
    (hbelow : s.Below k y.lsa.header.lsSequenceNumber) :
    Inv env τ { s with database := Function.update s.database k (some y) } := by
  refine ⟨h.faithful, fun k' x hx ↦ ?_, h.own, h.requests, fun n hn x hx e he ↦ ?_⟩
  · dsimp only at hx
    by_cases hkk : k' = k
    · rw [hkk, Function.update_self, Option.some.injEq] at hx
      rw [← hx, hkk]
      exact ⟨hy, hk⟩
    · rw [Function.update_of_ne hkk] at hx
      exact h.stored k' x hx
  · dsimp only at hn he
    by_cases hkk : databaseKey n.areaID x.header = k
    · rw [hkk, Function.update_self, Option.some.injEq] at he
      rw [← he]
      exact hbelow n hn x hx hkk
    · rw [Function.update_of_ne hkk] at he
      exact h.covered n hn x hx e he

theorem Inv.below (h : Inv env τ s) {k : DatabaseKey} {e : Stored β} (hk : s.database k = some e) :
    s.Below k e.lsa.header.lsSequenceNumber := by
  intro n hn x hx hkey
  apply h.covered n hn x hx e
  rwa [hkey]

theorem Ready.of_stored (h : Inv env τ s) (hlsa : Typed τ lsa.header) {e : Stored β}
    (hk : s.database (databaseKey areaID lsa.header) = some e)
    (hnumber : e.lsa.header.lsSequenceNumber = lsa.header.lsSequenceNumber) :
    Ready τ s areaID lsa := by
  refine ⟨hlsa, ?_, fun e' he' ↦ ?_⟩
  · rw [← hnumber]
    exact h.below hk
  · rw [hk] at he'
    cases he'
    exact hnumber.ge

/-- A stored LSA changes, and its sequence number does not go down. -/
theorem Kept.setStored (h : Inv env τ s) {k : DatabaseKey} {e y : Stored β}
    (hk : s.database k = some e) (hy : Typed τ y.lsa.header)
    (hkey : ∃ areaID, databaseKey areaID y.lsa.header = k) (hD : D k.linkStateID)
    (hle : e.lsa.header.lsSequenceNumber ≤ y.lsa.header.lsSequenceNumber) :
    Kept env τ D F moved s { s with database := Function.update s.database k (some y) } := by
  have hbelow : s.Below k y.lsa.header.lsSequenceNumber :=
    fun n hn x hx hx' ↦ (h.below hk n hn x hx hx').trans hle
  refine ⟨h.setStored hy hkey hbelow, rfl, fun k' hk' ↦ ?_, fun k' hk' ↦ ?_,
    fun j n hn ↦ ⟨n, hn, .refl F n, fun _ ↦ ⟨rfl, rfl⟩⟩⟩
  · have hkk : k' ≠ k := by
      rintro rfl
      rw [hk] at hk'
      cases hk'
    exact (Function.update_of_ne hkk _ _).trans hk'
  · have hkk : k' ≠ k := by
      rintro rfl
      exact hk' hD
    exact Function.update_of_ne hkk _ _

theorem Kept.below (h : Kept env τ D F moved s s') {k : DatabaseKey} {number : ℤ}
    (hbelow : s.Below k number)
    (hF : ∀ l areaID, F l → databaseKey areaID l.header = k → l.header.lsSequenceNumber ≤ number) :
    s'.Below k number := by
  intro n' hn' x hx hkey
  obtain ⟨j, hj⟩ := List.mem_iff_getElem?.mp hn'
  have hlt : j < s.neighbors.length := by
    rw [← h.length]
    exact (List.getElem?_eq_some_iff.mp hj).1
  obtain ⟨m, hm, hgrown, _⟩ := h.neighbors j _ (List.getElem?_eq_getElem hlt)
  rw [hj] at hm
  cases hm
  rcases hgrown.fresh x hx with hold | hnew
  · apply hbelow _ (List.getElem_mem hlt) x hold
    rw [← hgrown.area]
    exact hkey
  · exact hF x _ hnew hkey

/-- The LSA is put on the list of a neighbor that takes part. -/
theorem Ready.addTo (hready : Ready τ s areaID lsa) (h : Inv env τ s) (hi : s.neighbors[i]? = some n)
    (htakes : n.takesPart areaID lsa.header.lsType = true) (hF : F lsa) :
    Kept env τ D F moved s (s.setNeighbor i (n.addToRetransmissionList lsa)) := by
  have hmem := List.mem_of_getElem? hi
  have hn := h.faithful n hmem
  have hplace := n.databaseKey_eq htakes
  have hle : ∀ x ∈ n.retransmissionList, x.header.key = lsa.header.key →
      x.header.lsSequenceNumber ≤ lsa.header.lsSequenceNumber := by
    intro x hx hkey
    apply hready.below n hmem x hx
    rw [databaseKey_congr n.areaID (hn.typed x hx) hready.typed hkey, hplace]
  apply Kept.setNeighbor hi
  · apply h.setNeighbor (hn.addToRetransmissionList hready.typed) (h.own n hmem) (h.requests n hmem)
    intro y hy e he
    rcases mem_addBy hy with rfl | hy
    · exact hready.above e (hplace ▸ he)
    · exact h.covered n hmem y hy e he
  · exact .addToRetransmissionList hn hready.typed hF hle
  · exact fun _ ↦ ⟨rfl, rfl⟩

/-- The LSAs that a flood of `lsa` puts on the lists. -/
def Flooded (env : Env β) (lsa l : LSA β) : Prop :=
  l = lsa ∨ OwnID env l.header.linkStateID ∧ ¬ OwnID env lsa.header.linkStateID

/-- Where a flood of `lsa` changes the database. -/
def Nests (env : Env β) (lsa : LSA β) (id : IPAddress) : Prop :=
  OwnID env id ∧ ¬ OwnID env lsa.header.linkStateID

theorem not_nests_databaseKey (env : Env β) (areaID : IPAddress) (lsa : LSA β) :
    ¬ Nests env lsa (databaseKey areaID lsa.header).linkStateID := by
  rw [databaseKey_linkStateID]
  exact fun hnests ↦ hnests.2 hnests.1

theorem Ready.kept (hready : Ready τ s areaID lsa)
    (h : Kept env τ (Nests env lsa) (Flooded env lsa) moved s s') : Ready τ s' areaID lsa := by
  refine ⟨hready.typed, h.below hready.below fun l areaID' hl hkey ↦ ?_, fun e he ↦ ?_⟩
  · rcases hl with rfl | ⟨hown, hnot⟩
    · exact le_refl _
    · have hid : l.header.linkStateID = lsa.header.linkStateID := by
        rw [← databaseKey_linkStateID areaID', hkey, databaseKey_linkStateID]
      exact absurd (hid ▸ hown) hnot
  · rw [h.database _ (not_nests_databaseKey env areaID lsa)] at he
    exact hready.above e he

theorem Grown.mem_of_flooded (h : Grown (Flooded env lsa) n n') (hlsa : lsa ∈ n.retransmissionList) :
    lsa ∈ n'.retransmissionList := by
  obtain ⟨y, hy, hyx, hs⟩ := h.keeps lsa hlsa
  rcases hyx with rfl | rfl | ⟨hown, hnot⟩
  · exact hy
  · exact hy
  · have hid : y.header.linkStateID = lsa.header.linkStateID := congrArg LSAKey.linkStateID hs.key_eq
    exact absurd (hid ▸ hown) hnot

theorem outcome_assign (hready : Ready τ s areaID lsa) (h : Inv env τ s) (sender : Option ℕ)
    (hi : s.neighbors[i]? = some n) (htakes : n.takesPart areaID lsa.header.lsType = true)
    (hF : F lsa) : Outcome (State.assign lsa sender i s) (fun s' ↦ Kept env τ D F moved s s' ∧
      (sender ≠ some i → ∃ n', s'.neighbors[i]? = some n' ∧ lsa ∈ n'.retransmissionList))
      fun _ ↦ False := by
  unfold State.assign
  rw [hi]
  apply Outcome.ite
  · intro hsender
    exact ⟨Kept.refl h, fun hne ↦ absurd hsender hne⟩
  · intro _
    refine ⟨hready.addTo h hi htakes hF, fun _ ↦ ⟨n.addToRetransmissionList lsa, ?_, ?_⟩⟩
    · exact List.getElem?_set_self (List.getElem?_eq_some_iff.mp hi).1
    · exact mem_addBy_self _ _ _

/-! ## Floods within a flood -/

/-- The flood of an LSA that is originated again. -/
def Floods (env : Env β) (τ : LSAKey → LSAType)
    (flood : IPAddress → LSA β → State β → Except FloodFault (State β)) : Prop :=
  ∀ areaID lsa s, Inv env τ s → Ready τ s areaID lsa → OwnID env lsa.header.linkStateID →
    Outcome (flood areaID lsa s) (Kept env τ (fun _ ↦ False) (fun l ↦ l = lsa) (fun _ ↦ False) s)
      fun _ ↦ False

/-- Nobody is asked for such an LSA, so that no further floods nest. -/
theorem floods_floodLSA (fuel : ℕ) (sender : Option ℕ) :
    Floods env τ fun areaID ↦ State.floodLSA env (fuel + 1) areaID sender := by
  intro areaID lsa s h hready hown
  show Outcome (State.floodLSA env (fuel + 1) areaID sender lsa s) _ _
  unfold State.floodLSA
  have hnests : ∀ id, Nests env lsa id → False := fun _ hid ↦ hid.2 hown
  have hstart : Kept env τ (fun _ ↦ False) (fun l ↦ l = lsa) (fun _ ↦ False) s s := .refl h
  apply Outcome.foldlM _ _ hstart
  intro s' i hi hs'
  have hready' : Ready τ s' areaID lsa :=
    hready.kept (hs'.mono (fun _ ↦ False.elim) (fun _ ↦ .inl) fun _ hj ↦ hj)
  have hlt : i < s'.neighbors.length := by
    rw [hs'.length]
    exact List.mem_range.mp hi
  have hget := List.getElem?_eq_getElem hlt
  unfold State.floodNeighbor
  rw [hget]
  apply Outcome.ite
  · intro _
    exact hs'
  · intro htakes
    simp only [Bool.or_eq_true, Bool.not_eq_true', not_or, Bool.not_eq_false] at htakes
    have hassign : Outcome (State.assign lsa sender i s')
        (Kept env τ (fun _ ↦ False) (fun l ↦ l = lsa) (fun _ ↦ False) s) fun _ ↦ False :=
      (outcome_assign (F := fun l ↦ l = lsa) hready' hs'.inv sender hget htakes.1 rfl).post
        fun _ hs'' ↦ hs'.trans hs''.1
    apply Outcome.ite
    · intro _
      exact hassign
    · intro _
      have hnone : (s'.neighbors[i].requestList.find? fun h ↦ h.key == lsa.header.key) = none := by
        rw [List.find?_eq_none]
        intro hd hhd hkey
        apply hs'.inv.requests _ (List.getElem_mem hlt) hd hhd
        have hid : hd.linkStateID = lsa.header.linkStateID := congrArg LSAKey.linkStateID (eq_of_beq hkey)
        rwa [hid]
      rw [hnone]
      exact hassign

/-- The places of the LSAs that are originated again belong to one area. -/
def DatabaseKey.InArea (areaID : IPAddress) (k : DatabaseKey) : Prop :=
  ∀ h areaID', databaseKey areaID' h = k → databaseKey areaID h = k

theorem inArea_router (areaID id : IPAddress) : (DatabaseKey.router areaID id).InArea areaID := by
  intro h areaID' hk
  unfold databaseKey at hk ⊢
  cases htype : h.lsType with
  | routerLSA =>
    rw [htype] at hk
    cases hk
    rfl
  | networkLSA | summaryNetworks | summaryASBoundaryRouters | asExternalLSA =>
    rw [htype] at hk
    cases hk

theorem inArea_network (areaID id : IPAddress) : (DatabaseKey.network areaID id).InArea areaID := by
  intro h areaID' hk
  unfold databaseKey at hk ⊢
  cases htype : h.lsType with
  | networkLSA =>
    rw [htype] at hk
    cases hk
    rfl
  | routerLSA | summaryNetworks | summaryASBoundaryRouters | asExternalLSA =>
    rw [htype] at hk
    cases hk

/-- What floods within a flood keep. -/
abbrev KeptOwn (env : Env β) (τ : LSAKey → LSAType) (s s' : State β) : Prop :=
  Kept env τ (OwnID env) (fun l ↦ OwnID env l.header.linkStateID) (fun _ ↦ False) s s'

section Nested

variable {flood : IPAddress → LSA β → State β → Except FloodFault (State β)}
  (hflood : Floods env τ flood)

include hflood

theorem outcome_reoriginate (h : Inv env τ s) {k : DatabaseKey} (harea : k.InArea areaID)
    (hown : OwnID env k.linkStateID) {fresh : Option (LSA β)}
    (hfresh : ∀ x ∈ fresh, Typed τ x.header ∧ databaseKey areaID x.header = k) :
    Outcome (State.reoriginate (flood areaID) k fresh s) (KeptOwn env τ s) fun _ ↦ False := by
  unfold State.reoriginate
  cases hk : s.database k with
  | none => exact Kept.refl h
  | some e =>
    dsimp only
    have hone {y : Stored β} (htyped : Typed τ y.lsa.header)
        (hplace : databaseKey areaID y.lsa.header = k)
        (hle : e.lsa.header.lsSequenceNumber ≤ y.lsa.header.lsSequenceNumber) :
        Outcome (flood areaID y.lsa { s with database := Function.update s.database k (some y) })
          (KeptOwn env τ s) fun _ ↦ False := by
      have hkept : KeptOwn env τ s { s with database := Function.update s.database k (some y) } :=
        .setStored h hk htyped ⟨areaID, hplace⟩ hown hle
      have hid : OwnID env y.lsa.header.linkStateID := by
        rwa [← databaseKey_linkStateID areaID, hplace]
      have hready : Ready τ { s with database := Function.update s.database k (some y) } areaID y.lsa :=
        .of_stored hkept.inv htyped (by rw [hplace]; exact Function.update_self ..) rfl
      apply (hflood areaID y.lsa _ hkept.inv hready hid).post
      intro s' hs'
      refine hkept.trans (hs'.mono (fun _ ↦ False.elim) (fun l hl ↦ ?_) fun _ hj ↦ hj)
      rwa [hl]
    obtain ⟨htyped, areaID', hplace⟩ := h.stored k e hk
    split
    · exact hone (y := { e with lsa := ⟨{ e.lsa.header with lsAge := maxAge }, e.lsa.contents⟩ }) htyped
        (harea _ areaID' hplace) (le_refl _)
    · rename_i x hx
      have hx' : Typed τ x.header ∧ databaseKey areaID x.header = k := by
        apply hfresh
        split at hx
        · cases hx
        · exact hx
      exact hone (y := ⟨{ x with header :=
        { x.header with lsSequenceNumber := e.lsa.header.lsSequenceNumber + 1 } }, true, 0⟩) hx'.1 hx'.2
        (Int.le_of_lt (Int.lt_succ _))

variable (hrouter : τ ⟨env.routerID, env.routerID⟩ = .routerLSA)

include hrouter

theorem outcome_reoriginateAll (h : Inv env τ s) (i : ℕ)
    (hn : n.isDesignatedRouter = true → τ ⟨n.interfaceAddress, env.routerID⟩ = .networkLSA ∧
      env.isLocalAddress n.interfaceAddress = true) :
    Outcome (State.reoriginateAll env flood i n s) (KeptOwn env τ s) fun _ ↦ False := by
  unfold State.reoriginateAll
  apply (outcome_reoriginate hflood h (inArea_router n.areaID env.routerID) (.inl rfl) _).bind
  · intro s' hs'
    apply Outcome.ite
    · intro hrole
      apply (outcome_reoriginate hflood hs'.inv (inArea_network n.areaID n.interfaceAddress)
        (.inr (hn hrole).2) _).post
      · intro s'' hs''
        exact hs'.trans hs''
      · intro x hx
        unfold State.originateNetworkLSA at hx
        split at hx
        · cases hx
          exact ⟨(hn hrole).1.symm, rfl⟩
        · cases hx
    · intro _
      exact hs'
  · intro x hx
    cases hx
    exact ⟨hrouter.symm, rfl⟩

/-! ## Flooding -/

theorem outcome_removeFromRequestList (h : Inv env τ s) (hi : s.neighbors[i]? = some n) (key : LSAKey) :
    Outcome (State.removeFromRequestList env flood i n key s)
      (Kept env τ (OwnID env) (fun l ↦ OwnID env l.header.linkStateID) (fun j ↦ j = i) s)
      fun _ ↦ False := by
  have hmem := List.mem_of_getElem? hi
  have hn := h.faithful n hmem
  have hset (state : NeighborState) : Inv env τ (s.setNeighbor i { n with
      requestList := n.requestList.filter fun h ↦ h.key != key, state := state }) :=
    h.setNeighbor ⟨hn.eq, hn.typed, hn.unique⟩ (h.own n hmem)
      (fun hd hhd ↦ h.requests n hmem hd (List.mem_filter.mp hhd).1) (h.covered n hmem)
  unfold State.removeFromRequestList
  dsimp only
  apply Outcome.ite
  · rintro ⟨hl, _⟩
    have hfull : Kept env τ (OwnID env) (fun l ↦ OwnID env l.header.linkStateID) (fun j ↦ j = i) s
        (s.setNeighbor i { n with
          requestList := n.requestList.filter fun h ↦ h.key != key, state := .full }) :=
      .setNeighbor hi (hset .full) (.of_lists rfl rfl rfl (.inr ⟨hl, rfl⟩) rfl)
        fun hne ↦ absurd rfl hne
    have htwice : (s.setNeighbor i { n with requestList := n.requestList.filter fun h ↦ h.key != key
        }).setNeighbor i { n with
          requestList := n.requestList.filter fun h ↦ h.key != key, state := .full } =
        s.setNeighbor i { n with
          requestList := n.requestList.filter fun h ↦ h.key != key, state := .full } := by
      simp [State.setNeighbor]
    rw [htwice]
    apply (outcome_reoriginateAll hflood hrouter hfull.inv i (h.own n hmem)).post
    intro s' hs'
    exact hfull.trans (hs'.mono (fun _ hid ↦ hid) (fun _ hl ↦ hl) fun _ ↦ False.elim)
  · intro _
    exact .setNeighbor hi (hset n.state) (.of_lists rfl rfl rfl (.inl rfl) rfl)
      fun hne ↦ absurd rfl hne

/-- One neighbor: if the LSA is assigned to it, it is on its list. -/
theorem outcome_floodNeighbor (h : Inv env τ s)
    (hready : Ready τ s areaID lsa) (sender : Option ℕ) (hi : s.neighbors[i]? = some n) :
    Outcome (State.floodNeighbor env flood areaID lsa sender s i)
      (fun s' ↦ Kept env τ (Nests env lsa) (Flooded env lsa) (fun j ↦ j = i) s s' ∧
        (n.IsAssigned areaID lsa → sender ≠ some i →
          ∃ n', s'.neighbors[i]? = some n' ∧ lsa ∈ n'.retransmissionList)) fun _ ↦ False := by
  have hmem := List.mem_of_getElem? hi
  unfold State.floodNeighbor
  rw [hi]
  apply Outcome.ite
  · intro hnot
    refine ⟨Kept.refl h, fun hassigned ↦ ?_⟩
    simp [hassigned.1, hassigned.2.1] at hnot
  · intro htakes
    simp only [Bool.or_eq_true, Bool.not_eq_true', not_or, Bool.not_eq_false] at htakes
    have hassign : Outcome (State.assign lsa sender i s)
        (fun s' ↦ Kept env τ (Nests env lsa) (Flooded env lsa) (fun j ↦ j = i) s s' ∧
          (n.IsAssigned areaID lsa → sender ≠ some i →
            ∃ n', s'.neighbors[i]? = some n' ∧ lsa ∈ n'.retransmissionList)) fun _ ↦ False :=
      (outcome_assign hready h sender hi htakes.1 (.inl rfl)).post fun _ hs' ↦ ⟨hs'.1, fun _ ↦ hs'.2⟩
    apply Outcome.ite
    · intro _
      exact hassign
    · intro hstate
      cases hfind : n.requestList.find? fun h ↦ h.key == lsa.header.key with
      | none => exact hassign
      | some requested =>
        dsimp only
        have hnot : ¬ OwnID env lsa.header.linkStateID := by
          have hkey : requested.key = lsa.header.key := by simpa using List.find?_some hfind
          have hid : requested.linkStateID = lsa.header.linkStateID :=
            congrArg LSAKey.linkStateID hkey
          rw [← hid]
          exact h.requests n hmem requested (List.mem_of_find?_eq_some hfind)
        have hless (hassigned : n.IsAssigned areaID lsa) :
            lsa.header.isOlder requested = false ∧ lsa.header.sameInstance requested = false := by
          rcases hassigned.2.2 with hfull | hless
          · exact absurd hfull hstate
          · exact hless requested hfind
        have hremove : Outcome (State.removeFromRequestList env flood i n lsa.header.key s)
            (Kept env τ (Nests env lsa) (Flooded env lsa) (fun j ↦ j = i) s) fun _ ↦ False := by
          apply (outcome_removeFromRequestList hflood hrouter h hi lsa.header.key).post
          intro s' hs'
          exact hs'.mono (fun _ hid ↦ ⟨hid, hnot⟩) (fun _ hl ↦ .inr ⟨hl, hnot⟩) fun _ hj ↦ hj
        apply Outcome.ite
        · intro holder
          refine ⟨Kept.refl h, fun hassigned ↦ ?_⟩
          rw [(hless hassigned).1] at holder
          cases holder
        · intro _
          apply Outcome.ite
          · intro hsame
            apply hremove.post
            intro s' hs'
            refine ⟨hs', fun hassigned ↦ ?_⟩
            rw [(hless hassigned).2] at hsame
            cases hsame
          · intro _
            apply hremove.bind
            intro s' hs'
            obtain ⟨n', hn', hgrown, _⟩ := hs'.neighbors i n hi
            have htakes' : n'.takesPart areaID lsa.header.lsType = true := by
              unfold Neighbor.takesPart at htakes ⊢
              rw [hgrown.area, hgrown.virtual, hgrown.external]
              exact htakes.1
            have hF : Flooded env lsa lsa := .inl rfl
            apply (outcome_assign (hready.kept hs') hs'.inv sender hn' htakes' hF).post
            intro s'' hs''
            exact ⟨hs'.trans hs''.1, fun _ ↦ hs''.2⟩

theorem outcome_floodNeighbors (sender : Option ℕ) (is : List ℕ)
    (h : Inv env τ s) (hready : Ready τ s areaID lsa) (his : ∀ i ∈ is, i < s.neighbors.length) :
    Outcome (is.foldlM (State.floodNeighbor env flood areaID lsa sender) s)
      (fun s' ↦ Kept env τ (Nests env lsa) (Flooded env lsa) (fun _ ↦ True) s s' ∧
        ∀ j ∈ is, ∀ n, s.neighbors[j]? = some n → n.IsAssigned areaID lsa → sender ≠ some j →
          ∃ n', s'.neighbors[j]? = some n' ∧ lsa ∈ n'.retransmissionList) fun _ ↦ False := by
  induction is generalizing s with
  | nil => exact ⟨Kept.refl h, fun _ hj ↦ by cases hj⟩
  | cons i is ih =>
    rw [List.foldlM_cons]
    have hget := List.getElem?_eq_getElem (his i List.mem_cons_self)
    apply (outcome_floodNeighbor hflood hrouter h hready sender hget).bind
    rintro s₁ ⟨hs₁, hlist⟩
    have his' : ∀ j ∈ is, j < s₁.neighbors.length := by
      intro j hj
      rw [hs₁.length]
      exact his j (List.mem_cons_of_mem i hj)
    apply (ih hs₁.inv (hready.kept hs₁) his').post
    rintro s' ⟨hs', hlists⟩
    refine ⟨(hs₁.mono (fun _ hid ↦ hid) (fun _ hl ↦ hl) fun _ _ ↦ trivial).trans hs', ?_⟩
    intro j hj n hn hassigned hsender
    by_cases hij : j = i
    · -- it is on the list, and the rest of the loop leaves it there
      subst hij
      rw [hget] at hn
      cases hn
      obtain ⟨n₁, hn₁, hmem⟩ := hlist hassigned hsender
      obtain ⟨n', hn', hgrown, _⟩ := hs'.neighbors j n₁ hn₁
      exact ⟨n', hn', hgrown.mem_of_flooded hmem⟩
    · obtain ⟨n₁, hn₁, hgrown, hquiet⟩ := hs₁.neighbors j n hn
      have hj' : j ∈ is := (List.mem_cons.mp hj).resolve_left hij
      exact hlists j hj' n₁ hn₁ (hgrown.isAssigned (hquiet hij) hassigned) hsender

end Nested

/-- Flooding comes to its end, and every neighbor that the LSA is assigned to has it on its list. -/
theorem outcome_flood (hrouter : τ ⟨env.routerID, env.routerID⟩ = .routerLSA) (h : Inv env τ s)
    (hready : Ready τ s areaID lsa) (sender : Option ℕ) :
    Outcome (s.flood env areaID sender lsa)
      (fun s' ↦ Kept env τ (Nests env lsa) (Flooded env lsa) (fun _ ↦ True) s s' ∧
        ∀ j n, s.neighbors[j]? = some n → n.IsAssigned areaID lsa → sender ≠ some j →
          ∃ n', s'.neighbors[j]? = some n' ∧ lsa ∈ n'.retransmissionList) fun _ ↦ False := by
  unfold State.flood State.floodLSA
  cases hlength : s.neighbors.length with
  | zero =>
    refine ⟨Kept.refl h, fun j n hj ↦ ?_⟩
    rw [List.length_eq_zero_iff.mp hlength] at hj
    cases hj
  | succ fuel =>
    rw [← hlength]
    have hfloods : Floods env τ fun areaID ↦ State.floodLSA env s.neighbors.length areaID none := by
      rw [hlength]
      exact floods_floodLSA fuel none
    apply (outcome_floodNeighbors hfloods hrouter sender _ h hready fun i hi ↦ List.mem_range.mp hi).post
    rintro s' ⟨hs', hlists⟩
    refine ⟨hs', fun j n hj ↦ hlists j ?_ n hj⟩
    exact List.mem_range.mpr (List.getElem?_eq_some_iff.mp hj).1

theorem floods_flood : Floods env τ fun areaID lsa s ↦ s.flood env areaID none lsa :=
  fun areaID lsa s ↦ floods_floodLSA s.neighbors.length none areaID lsa s

end Flooding

end InetManet.OSPF
