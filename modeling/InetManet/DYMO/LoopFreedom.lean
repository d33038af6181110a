import InetManet.DYMO.Routing

/-!
# Freedom from loops

The entries of a node never get worse. What a message says of a node, its sender knows at least as well,
so that an entry made from the message is worse than the entry of the sender. This fails where the node
taken for the sender is another one.
-/

namespace InetManet.DYMO

open TransitionSystem

section

variable {t t' t'' : List RoutingEntry} {d myAddr nextHop u v : IPAddress} {e new : RoutingEntry}
  {ab : AddressBlock} {abs : List AddressBlock} {isRREQ better : Bool} {interface : ℕ} {m : RoutingMessage}
  {node : Node} {maxHopLimit : ℤ}

/-! ## Tables -/

theorem routeAddress_of_get (h : getForAddress t d = some e) : e.routeAddress = d := by
  unfold getForAddress at h
  have hmatch := List.find?_some h
  exact beq_iff_eq.mp hmatch

theorem get_map {f : RoutingEntry → RoutingEntry} (hf : ∀ x, (f x).routeAddress = x.routeAddress) :
    getForAddress (t.map f) d = (getForAddress t d).map f := by
  rw [getForAddress, getForAddress, List.find?_map]
  congr 2
  ext x
  rw [Function.comp_apply, hf]

theorem get_setRoute :
    getForAddress (setRoute t new) d = if new.routeAddress = d then some new else getForAddress t d := by
  unfold setRoute
  split
  · rename_i hsome
    obtain ⟨old, hold⟩ := Option.isSome_iff_exists.mp hsome
    have hf (x : RoutingEntry) :
        (if x.routeAddress = new.routeAddress then new else x).routeAddress = x.routeAddress := by
      split
      · rename_i hsame
        exact hsame.symm
      · rfl
    rw [get_map hf]
    split
    · rename_i hd
      rw [hd] at hold
      rw [hold, Option.map_some, if_pos (by rw [routeAddress_of_get hold, hd])]
    · rename_i hd
      cases hget : getForAddress t d with
      | none => rfl
      | some x =>
        rw [Option.map_some, if_neg]
        rw [routeAddress_of_get hget]
        exact fun hsame ↦ hd hsame.symm
  · rename_i hnone
    rw [Bool.not_eq_true, Option.isSome_eq_false_iff, Option.isNone_iff_eq_none] at hnone
    rw [getForAddress, List.find?_append]
    split
    · rename_i hd
      rw [hd] at hnone
      unfold getForAddress at hnone
      rw [hnone, List.find?_cons_of_pos]
      · rfl
      · rw [beq_iff_eq]
        exact hd
    · rename_i hd
      rw [List.find?_cons_of_neg]
      · exact Option.or_none
      · rw [beq_iff_eq]
        exact hd

/-- All entries stay, or become better. -/
def Grows (t t' : List RoutingEntry) : Prop :=
  ∀ d e, getForAddress t d = some e → ∃ e', getForAddress t' d = some e' ∧ e'.rank ≤ e.rank

theorem Grows.refl (t : List RoutingEntry) : Grows t t := fun _ e h ↦ ⟨e, h, le_rfl⟩

theorem Grows.trans (h : Grows t t') (h' : Grows t' t'') : Grows t t'' := by
  intro d e he
  obtain ⟨e', he', hle⟩ := h d e he
  obtain ⟨e'', he'', hle'⟩ := h' d e' he'
  exact ⟨e'', he'', hle'.trans hle⟩

/-! ## Blocks -/

/-- The entry was made from the block. -/
structure MadeFrom (nextHop : IPAddress) (ab : AddressBlock) (e : RoutingEntry) : Prop where
  seqNum : ab.seqNum = some e.routeSeqNum
  dist : e.routeDist = ab.nodeDist
  next : e.routeNextHopAddress = nextHop

theorem rank_of_better {seqNum : SeqNum} (h : isRBlockBetter e ab seqNum isRREQ = true) :
    rank seqNum ab.nodeDist ≤ e.rank := by
  unfold isRBlockBetter at h
  unfold RoutingEntry.rank rank
  rw [Prod.Lex.toLex_le_toLex]
  by_cases hstale : seqNumIsFresher e.routeSeqNum seqNum = true
  · rw [if_pos hstale] at h
    cases h
  · rw [if_neg hstale] at h
    have hle : e.routeSeqNum.toInt ≤ seqNum.toInt := by
      simp only [seqNumIsFresher, decide_eq_true_eq] at hstale
      omega
    by_cases hsame : seqNum = e.routeSeqNum
    · rw [if_pos hsame] at h
      right
      refine ⟨by rw [hsame], ?_⟩
      by_contra hdist
      simp [show e.routeDist < ab.nodeDist from not_le.mp hdist] at h
    · left
      have hne : seqNum.toInt ≠ e.routeSeqNum.toInt := fun heq ↦ hsame (BitVec.eq_of_toInt_eq heq)
      dsimp only
      omega

theorem updateRoutesFromAddressBlock_spec
    (h : updateRoutesFromAddressBlock isRREQ nextHop interface t ab = .ok (t', better)) :
    Grows t t' ∧
      (∀ d e, getForAddress t' d = some e →
        getForAddress t d = some e ∨ d = ab.address ∧ MadeFrom nextHop ab e) ∧
      (better = true → ∃ e, getForAddress t' ab.address = some e ∧ MadeFrom nextHop ab e) := by
  unfold updateRoutesFromAddressBlock at h
  cases hseq : ab.seqNum with
  | none =>
    rw [hseq] at h
    cases h
  | some seqNum =>
    rw [hseq] at h
    dsimp only at h
    have hmade : MadeFrom nextHop ab (routeFromBlock nextHop interface ab seqNum) := ⟨hseq, rfl, rfl⟩
    split at h
    · rename_i hbetter
      cases h
      have hget (d : IPAddress) : getForAddress (setRoute t (routeFromBlock nextHop interface ab seqNum)) d =
          if ab.address = d then some (routeFromBlock nextHop interface ab seqNum) else getForAddress t d :=
        get_setRoute
      refine ⟨?_, ?_, ?_⟩
      · intro d e he
        rw [hget]
        split
        · rename_i hd
          rw [isSuperior, hd, he] at hbetter
          exact ⟨_, rfl, rank_of_better hbetter⟩
        · exact ⟨e, he, le_rfl⟩
      · intro d e he
        rw [hget] at he
        split at he
        · rename_i hd
          cases he
          exact .inr ⟨hd.symm, hmade⟩
        · exact .inl he
      · intro _
        exact ⟨_, by rw [hget, if_pos rfl], hmade⟩
    · cases h
      exact ⟨Grows.refl t, fun _ _ he ↦ .inl he, nofun⟩

/-- The node knows what a block says as well as an entry made from the block. -/
def KnownAs (t : List RoutingEntry) (nextHop : IPAddress) (ab : AddressBlock) : Prop :=
  ∃ e made, getForAddress t ab.address = some e ∧ MadeFrom nextHop ab made ∧ e.rank ≤ made.rank

theorem KnownAs.grow (h : KnownAs t nextHop ab) (hgrow : Grows t t') : KnownAs t' nextHop ab := by
  obtain ⟨e, made, he, hmade, hle⟩ := h
  obtain ⟨e', he', hle'⟩ := hgrow _ _ he
  exact ⟨e', made, he', hmade, hle'.trans hle⟩

theorem updateAdditional_spec {kept : Option (List AddressBlock)}
    (h : updateAdditional isRREQ nextHop interface myAddr t abs = .ok (t', kept)) :
    Grows t t' ∧
      (∀ d e, getForAddress t' d = some e → getForAddress t d = some e ∨
        ∃ ab ∈ abs, ab.address ≠ myAddr ∧ d = ab.address ∧ MadeFrom nextHop ab e) ∧
      ∀ l, kept = some l → ∀ ab ∈ l, ab ∈ abs ∧ KnownAs t' nextHop ab := by
  induction abs generalizing t t' kept with
  | nil =>
    cases h
    refine ⟨Grows.refl t, fun _ _ he ↦ .inl he, ?_⟩
    intro l hl ab hab
    cases hl
    cases hab
  | cons ab abs ih =>
    unfold updateAdditional at h
    split at h
    · cases h
      exact ⟨Grows.refl t, fun _ _ he ↦ .inl he, nofun⟩
    · rename_i hself
      obtain ⟨⟨t₁, better⟩, hfirst, h⟩ := bind_ok_iff.mp h
      obtain ⟨⟨t₂, kept'⟩, hrest, h⟩ := bind_ok_iff.mp h
      cases h
      obtain ⟨hgrow, hcases, hbetter⟩ := updateRoutesFromAddressBlock_spec hfirst
      obtain ⟨hgrow', hcases', hkept⟩ := ih hrest
      refine ⟨hgrow.trans hgrow', ?_, ?_⟩
      · intro d e he
        rcases hcases' d e he with hold | ⟨x, hx, hne, hd, hmade⟩
        · rcases hcases d e hold with hold | ⟨hd, hmade⟩
          · exact .inl hold
          · exact .inr ⟨ab, List.mem_cons_self, hself, hd, hmade⟩
        · exact .inr ⟨x, List.mem_cons_of_mem _ hx, hne, hd, hmade⟩
      · intro l hl x hx
        obtain ⟨l', hl', rfl⟩ := Option.map_eq_some_iff.mp hl
        have hold (hx : x ∈ l') : x ∈ ab :: abs ∧ KnownAs t' nextHop x := by
          obtain ⟨hmem, hknown⟩ := hkept l' hl' x hx
          exact ⟨List.mem_cons_of_mem _ hmem, hknown⟩
        split at hx
        · rename_i htrue
          rcases List.mem_cons.mp hx with rfl | hx
          · obtain ⟨e, he, hmade⟩ := hbetter htrue
            have hknown : KnownAs t₁ nextHop x := ⟨e, e, he, hmade, le_rfl⟩
            exact ⟨List.mem_cons_self, hknown.grow hgrow'⟩
          · exact hold hx
        · exact hold hx

/-- New entries come from blocks of other nodes, and the node knows the blocks of the message that is
left. -/
theorem updateRoutes_spec {result : Option RoutingMessage}
    (h : updateRoutes myAddr interface t m = .ok (t', result)) :
    Grows t t' ∧
      (∀ d e, getForAddress t' d = some e → getForAddress t d = some e ∨
        ∃ ab ∈ m.origNode :: m.additionalNodes, ab.address ≠ myAddr ∧ d = ab.address ∧
          MadeFrom (getNextHopAddress m) ab e) ∧
      ∀ m', result = some m' → m'.origNode = m.origNode ∧ m.origNode.address ≠ myAddr ∧
        ∀ ab ∈ m'.origNode :: m'.additionalNodes, ab ∈ m.origNode :: m.additionalNodes ∧
          KnownAs t' (getNextHopAddress m) ab := by
  unfold updateRoutes at h
  split at h
  · cases h
    exact ⟨Grows.refl t, fun _ _ he ↦ .inl he, nofun⟩
  · rename_i hself
    obtain ⟨⟨t₁, superior⟩, hfirst, h⟩ := bind_ok_iff.mp h
    obtain ⟨⟨t₂, kept⟩, hrest, h⟩ := bind_ok_iff.mp h
    cases h
    obtain ⟨hgrow, hcases, hsuperior⟩ := updateRoutesFromAddressBlock_spec hfirst
    obtain ⟨hgrow', hcases', hkept⟩ := updateAdditional_spec hrest
    refine ⟨hgrow.trans hgrow', ?_, ?_⟩
    · intro d e he
      rcases hcases' d e he with hold | ⟨x, hx, hne, hd, hmade⟩
      · rcases hcases d e hold with hold | ⟨hd, hmade⟩
        · exact .inl hold
        · exact .inr ⟨m.origNode, List.mem_cons_self, hself, hd, hmade⟩
      · exact .inr ⟨x, List.mem_cons_of_mem _ hx, hne, hd, hmade⟩
    · intro m' hm'
      obtain ⟨l, hl, hm'⟩ := Option.bind_eq_some_iff.mp hm'
      split at hm'
      · rename_i htrue
        cases hm'
        refine ⟨rfl, hself, ?_⟩
        intro x hx
        rcases List.mem_cons.mp hx with rfl | hx
        · obtain ⟨e, he, hmade⟩ := hsuperior htrue
          have hknown : KnownAs t₁ (getNextHopAddress m) m.origNode := ⟨e, e, he, hmade, le_rfl⟩
          exact ⟨List.mem_cons_self, hknown.grow hgrow'⟩
        · obtain ⟨hmem, hknown⟩ := hkept l hl x hx
          exact ⟨List.mem_cons_of_mem _ hmem, hknown⟩
      · cases hm'

/-! ## Messages -/

/-- A block has a distance, and a sender other than the node of the block knows it at least as well. -/
def SoundBlock (t : List RoutingEntry) (sender : IPAddress) (ab : AddressBlock) : Prop :=
  ∃ k, ab.dist = some k ∧ (ab.address ≠ sender → ∀ seqNum, ab.seqNum = some seqNum →
    ∃ e, getForAddress t ab.address = some e ∧ e.rank ≤ rank seqNum k)

/-- The blocks of a routing message that names its sender are sound. -/
def Sound (t : List RoutingEntry) (packet : Packet) : Prop :=
  ∀ m, packet.message = .rm m → getNextHopAddress m = packet.sourceAddr →
    ∀ ab ∈ m.origNode :: m.additionalNodes, SoundBlock t packet.sourceAddr ab

theorem SoundBlock.grow (h : SoundBlock t u ab) (hgrow : Grows t t') : SoundBlock t' u ab := by
  obtain ⟨k, hk, hknown⟩ := h
  refine ⟨k, hk, ?_⟩
  intro hne seqNum hseq
  obtain ⟨e, he, hle⟩ := hknown hne seqNum hseq
  obtain ⟨e', he', hle'⟩ := hgrow _ _ he
  exact ⟨e', he', hle'.trans hle⟩

theorem soundBlock_own {seqNum : SeqNum} : SoundBlock t v (ownBlock v seqNum) :=
  ⟨0, rfl, fun hne ↦ absurd rfl hne⟩

theorem sound_rerr {sender : IPAddress} {destAddr : Option IPAddress} {rerr : RouteError} :
    Sound t ⟨sender, destAddr, .rerr rerr⟩ := nofun

/-- A block that is passed on with a longer distance, by a node that knows it. -/
theorem soundBlock_increment (hdist : ab.dist.isSome = true) (h : KnownAs t u ab) :
    SoundBlock t v ab.incrementDistIfAvailable := by
  obtain ⟨k, hk⟩ := Option.isSome_iff_exists.mp hdist
  obtain ⟨e, made, he, hmade, hle⟩ := h
  refine ⟨k + 1, by rw [AddressBlock.incrementDistIfAvailable, hk]; rfl, ?_⟩
  intro _ seqNum hseq
  have hsame : seqNum = made.routeSeqNum := Option.some.inj (hseq.symm.trans hmade.seqNum)
  have hdist : made.routeDist = k + 1 := by
    rw [hmade.dist, AddressBlock.nodeDist, hk]
    rfl
  refine ⟨e, he, hle.trans ?_⟩
  rw [RoutingEntry.rank, hsame, hdist]

theorem sound_relay {destAddr : Option IPAddress}
    (h : ∀ ab ∈ m.origNode :: m.additionalNodes, ab.dist.isSome = true ∧ KnownAs node.routingTable u ab) :
    (relay v node m destAddr).1.routingTable = node.routingTable ∧
      ∀ p ∈ (relay v node m destAddr).2, p.sourceAddr = v ∧ Sound node.routingTable p := by
  unfold relay
  split
  · exact ⟨rfl, List.forall_mem_nil _⟩
  · refine ⟨rfl, ?_⟩
    dsimp only
    split
    · exact List.forall_mem_nil _
    · intro p hp
      rw [List.mem_singleton.mp hp]
      refine ⟨rfl, ?_⟩
      intro m' hm' _ ab hab
      cases hm'
      rcases List.mem_cons.mp hab with rfl | hab
      · obtain ⟨hdist, hknown⟩ := h m.origNode List.mem_cons_self
        exact soundBlock_increment hdist hknown
      · rcases List.mem_append.mp hab with hab | hab
        · obtain ⟨x, hx, rfl⟩ := List.mem_map.mp hab
          obtain ⟨hdist, hknown⟩ := h x (List.mem_cons_of_mem _ (List.mem_filter.mp hx).1)
          exact soundBlock_increment hdist hknown
        · rw [List.mem_singleton.mp hab]
          exact soundBlock_own

/-- The table stays, and the packets are sound. -/
def Fine (v : IPAddress) (node : Node) (r : Node × List Packet) : Prop :=
  r.1.routingTable = node.routingTable ∧ ∀ p ∈ r.2, p.sourceAddr = v ∧ Sound node.routingTable p

theorem sendRERR_fine {targetAddr : IPAddress} {targetSeqNum : SeqNum} :
    Outcome (sendRERR maxHopLimit v node targetAddr targetSeqNum)
      (fun packets ↦ ∀ p ∈ packets, p.sourceAddr = v ∧ Sound node.routingTable p) fun _ ↦ True := by
  have hsend (l : List AddressBlock) : ∀ p ∈ [(⟨v, none, .rerr ⟨maxHopLimit, l⟩⟩ : Packet)],
      p.sourceAddr = v ∧ Sound node.routingTable p := by
    intro p hp
    rw [List.mem_singleton.mp hp]
    exact ⟨rfl, sound_rerr⟩
  unfold sendRERR
  dsimp only
  split
  · exact hsend _
  · split
    · exact hsend _
    · trivial

theorem sound_own {destAddr : Option IPAddress} {seqNum : SeqNum} (hown : m.origNode = ownBlock v seqNum)
    (hnone : m.additionalNodes = []) : Sound t ⟨v, destAddr, .rm m⟩ := by
  intro m' hm' _ ab hab
  cases hm'
  rw [hown, hnone] at hab
  rw [List.mem_singleton.mp hab]
  exact soundBlock_own

theorem sendReply_fine {destAddr : IPAddress} {tSeqNum : SeqNum} :
    Outcome (sendReply maxHopLimit v node destAddr tSeqNum) (Fine v node) fun _ ↦ True := by
  unfold sendReply
  split
  · trivial
  · refine ⟨rfl, ?_⟩
    intro p hp
    rw [List.mem_singleton.mp hp]
    exact ⟨rfl, sound_own rfl rfl⟩

/-- A message with one more block, of a node other than the sender, does not name its sender. -/
theorem sound_unnamed {destAddr : Option IPAddress} (hlast : m.additionalNodes = [ab])
    (hne : ab.address ≠ v) : Sound t ⟨v, destAddr, .rm m⟩ := by
  intro m' hm' hnamed
  cases hm'
  rw [getNextHopAddress, hlast] at hnamed
  exact absurd hnamed hne

theorem sendReplyAsIntermediateRouter_fine {origNode targetNode : AddressBlock}
    (horig : origNode.address ≠ v) (htarget : e.routeAddress ≠ v) :
    Outcome (sendReplyAsIntermediateRouter maxHopLimit v node origNode targetNode e) (Fine v node)
      fun _ ↦ True := by
  unfold sendReplyAsIntermediateRouter
  split
  · trivial
  · refine ⟨rfl, ?_⟩
    intro p hp
    rcases List.mem_cons.mp hp with rfl | hp
    · exact ⟨rfl, sound_unnamed rfl htarget⟩
    · rw [List.mem_singleton.mp hp]
      exact ⟨rfl, sound_unnamed rfl horig⟩

theorem handleLowerRMForRelay_fine (horig : m.origNode.address ≠ v) (htarget : v ≠ m.targetNode.address)
    (h : ∀ ab ∈ m.origNode :: m.additionalNodes, ab.dist.isSome = true ∧ KnownAs node.routingTable u ab) :
    Outcome (handleLowerRMForRelay maxHopLimit v node m) (Fine v node) fun _ ↦ True := by
  unfold handleLowerRMForRelay
  dsimp only
  split
  · apply Outcome.bind sendRERR_fine
    intro packets hpackets
    exact ⟨rfl, hpackets⟩
  · exact sound_relay h
  · exact sound_relay h
  · rename_i entry _ hentry
    split
    · apply sendReplyAsIntermediateRouter_fine horig
      rw [routeAddress_of_get (Option.filter_eq_some_iff.mp hentry).1]
      exact htarget.symm
    · exact sound_relay h

/-- A routing message whose sender is named and knows its blocks. -/
theorem handleLowerRM_spec
    (h : ∀ ab ∈ m.origNode :: m.additionalNodes, ab.dist.isSome = true) :
    Outcome (handleLowerRM maxHopLimit v node interface m)
      (fun r ↦ Grows node.routingTable r.1.routingTable ∧
        (∀ d e, getForAddress r.1.routingTable d = some e → getForAddress node.routingTable d = some e ∨
          ∃ ab ∈ m.origNode :: m.additionalNodes, ab.address ≠ v ∧ d = ab.address ∧
            MadeFrom (getNextHopAddress m) ab e) ∧
        ∀ p ∈ r.2, p.sourceAddr = v ∧ Sound r.1.routingTable p) fun _ ↦ True := by
  unfold handleLowerRM
  cases hupdate : updateRoutes v interface node.routingTable m with
  | error fault => trivial
  | ok r =>
    obtain ⟨t', result⟩ := r
    obtain ⟨hgrow, hcases, hresult⟩ := updateRoutes_spec hupdate
    rw [ok_bind]
    cases result with
    | none => exact ⟨hgrow, hcases, List.forall_mem_nil _⟩
    | some m' =>
      obtain ⟨hsame, horig, hknown⟩ := hresult m' rfl
      have hfine : ∀ r, Fine v { node with routingTable := t' } r →
          Grows node.routingTable r.1.routingTable ∧
          (∀ d e, getForAddress r.1.routingTable d = some e → getForAddress node.routingTable d = some e ∨
            ∃ ab ∈ m.origNode :: m.additionalNodes, ab.address ≠ v ∧ d = ab.address ∧
              MadeFrom (getNextHopAddress m) ab e) ∧
          ∀ p ∈ r.2, p.sourceAddr = v ∧ Sound r.1.routingTable p := by
        rintro r ⟨htable, hpackets⟩
        rw [htable]
        exact ⟨hgrow, hcases, hpackets⟩
      dsimp only
      split
      · unfold handleLowerRMForMe
        split
        · exact sendReply_fine.post hfine
        · exact hfine _ ⟨rfl, List.forall_mem_nil _⟩
      · rename_i htarget
        apply Outcome.post _ hfine
        apply handleLowerRMForRelay_fine _ htarget
        · intro ab hab
          obtain ⟨hmem, hab'⟩ := hknown ab hab
          exact ⟨h ab hmem, hab'⟩
        · rw [hsame]
          exact horig

/-! ## Broken routes -/

/-- The tables differ in what is broken only. -/
def Breaks (t t' : List RoutingEntry) : Prop :=
  ∀ d, (getForAddress t' d).map (fun e ↦ { e with routeBroken := true }) =
    (getForAddress t d).map fun e ↦ { e with routeBroken := true }

theorem breaks_breakRoutes (p : RoutingEntry → Bool) : Breaks t (breakRoutes p t) := by
  intro d
  have hf (x : RoutingEntry) :
      (if p x then { x with routeBroken := true } else x).routeAddress = x.routeAddress := by
    split <;> rfl
  rw [breakRoutes, get_map hf, Option.map_map]
  congr 1
  ext1 x
  rw [Function.comp_apply]
  split <;> rfl

theorem Breaks.trans (h : Breaks t t') (h' : Breaks t' t'') : Breaks t t'' := fun d ↦ (h' d).trans (h d)

theorem Breaks.get (h : Breaks t t') (he : getForAddress t' d = some e) :
    ∃ e₀, getForAddress t d = some e₀ ∧ e₀.routeNextHopAddress = e.routeNextHopAddress ∧
      e₀.rank = e.rank := by
  have hd := h d
  rw [he] at hd
  cases hget : getForAddress t d with
  | none =>
    rw [hget] at hd
    cases hd
  | some e₀ =>
    rw [hget] at hd
    injection hd with hd
    injection hd with _ hseq hnext _ _ hdist
    refine ⟨e₀, rfl, hnext.symm, ?_⟩
    rw [RoutingEntry.rank, RoutingEntry.rank, hseq, hdist]

theorem Breaks.grows (h : Breaks t t') : Grows t t' := by
  intro d e he
  have h' : Breaks t' t := fun d ↦ (h d).symm
  obtain ⟨e', he', -, hrank⟩ := h'.get he
  exact ⟨e', he', hrank.le⟩

theorem breaks_invalidateRoutes {unreachableNodes l : List AddressBlock} :
    Breaks t (unreachableNodes.foldl (invalidateRoutes u interface) (t, l)).1 := by
  induction unreachableNodes generalizing t l with
  | nil => exact fun _ ↦ rfl
  | cons ab abs ih =>
    rw [List.foldl_cons]
    have hstep : Breaks t (invalidateRoutes u interface (t, l) ab).1 := by
      unfold invalidateRoutes
      split
      · exact fun _ ↦ rfl
      · exact breaks_breakRoutes _
    exact hstep.trans ih

end

/-! ## The network -/

/-- Each node knows a way at least as well as those that go over it, and no node has a route to itself. -/
structure Invariant (net : Network) : Prop where
  own : ∀ v, getForAddress (net.node v).routingTable v = none
  routes : ∀ v d e, getForAddress (net.node v).routingTable d = some e → e.routeNextHopAddress ≠ d →
    ∃ e', getForAddress (net.node e.routeNextHopAddress).routingTable d = some e' ∧ e'.rank < e.rank
  sound : ∀ p ∈ net.packets, Sound (net.node p.sourceAddr).routingTable p

section

variable {net net' : Network} {v : IPAddress} {r : Node × List Packet} {maxHopLimit : ℤ}

theorem Invariant.set (h : Invariant net) (hgrow : Grows (net.node v).routingTable r.1.routingTable)
    (hroutes : ∀ d e, getForAddress r.1.routingTable d = some e →
      (∃ e₀, getForAddress (net.node v).routingTable d = some e₀ ∧
        e₀.routeNextHopAddress = e.routeNextHopAddress ∧ e₀.rank = e.rank) ∨
      d ≠ v ∧ (e.routeNextHopAddress ≠ d →
        ∃ e', getForAddress (net.node e.routeNextHopAddress).routingTable d = some e' ∧ e'.rank < e.rank))
    (hpackets : ∀ p ∈ r.2, p.sourceAddr = v ∧ Sound r.1.routingTable p) : Invariant (net.set v r) := by
  have hself : (net.set v r).node v = r.1 := Function.update_self ..
  have hother (w : IPAddress) (hw : w ≠ v) : (net.set v r).node w = net.node w :=
    Function.update_of_ne hw _ _
  have hgrows (w : IPAddress) : Grows (net.node w).routingTable ((net.set v r).node w).routingTable := by
    by_cases hw : w = v
    · rw [hw, hself]
      exact hgrow
    · rw [hother w hw]
      exact Grows.refl _
  have hnext (e : RoutingEntry) (d : IPAddress)
      (hold : ∃ e', getForAddress (net.node e.routeNextHopAddress).routingTable d = some e' ∧
        e'.rank < e.rank) :
      ∃ e', getForAddress ((net.set v r).node e.routeNextHopAddress).routingTable d = some e' ∧
        e'.rank < e.rank := by
    obtain ⟨e', he', hlt⟩ := hold
    obtain ⟨e'', he'', hle⟩ := hgrows _ _ _ he'
    exact ⟨e'', he'', hle.trans_lt hlt⟩
  refine ⟨?_, ?_, ?_⟩
  · intro w
    by_cases hw : w = v
    · rw [hw, hself, Option.eq_none_iff_forall_ne_some]
      intro e he
      rcases hroutes v e he with ⟨e₀, he₀, -⟩ | ⟨hne, -⟩
      · rw [h.own v] at he₀
        cases he₀
      · exact hne rfl
    · rw [hother w hw]
      exact h.own w
  · intro w d e he hne
    apply hnext e d
    by_cases hw : w = v
    · rw [hw, hself] at he
      rcases hroutes d e he with ⟨e₀, he₀, hhop, hrank⟩ | ⟨-, hnew⟩
      · rw [← hhop] at hne ⊢
        rw [← hrank]
        exact h.routes v d e₀ he₀ hne
      · exact hnew hne
    · rw [hother w hw] at he
      exact h.routes w d e he hne
  · intro p hp
    rcases List.mem_append.mp hp with hp | hp
    · intro m hm hnamed ab hab
      exact (h.sound p hp m hm hnamed ab hab).grow (hgrows _)
    · obtain ⟨hsource, hsound⟩ := hpackets p hp
      rw [hsource, hself]
      exact hsound

theorem Invariant.breaks (h : Invariant net) (hbreaks : Breaks (net.node v).routingTable r.1.routingTable)
    (hpackets : ∀ p ∈ r.2, p.sourceAddr = v ∧ Sound r.1.routingTable p) : Invariant (net.set v r) :=
  h.set hbreaks.grows (fun _ _ he ↦ .inl (hbreaks.get he)) hpackets

theorem Invariant.fine (h : Invariant net) (hfine : Fine v (net.node v) r) : Invariant (net.set v r) := by
  obtain ⟨htable, hpackets⟩ := hfine
  apply h.breaks
  · rw [htable]
    exact fun _ ↦ rfl
  · rw [htable]
    exact hpackets

theorem Invariant.receive (h : Invariant net) {interface : ℕ} {m : RoutingMessage} {p : Packet}
    (hp : p ∈ net.packets) (hm : p.message = .rm m) (hnamed : getNextHopAddress m = p.sourceAddr) :
    Outcome (handleLowerRM maxHopLimit v (net.node v) interface m) (fun r ↦ Invariant (net.set v r))
      fun _ ↦ True := by
  have hsound := h.sound p hp m hm hnamed
  have hdist : ∀ ab ∈ m.origNode :: m.additionalNodes, ab.dist.isSome = true := by
    intro ab hab
    obtain ⟨k, hk, -⟩ := hsound ab hab
    rw [hk]
    rfl
  apply (handleLowerRM_spec hdist).post
  rintro r ⟨hgrow, hcases, hpackets⟩
  apply h.set hgrow _ hpackets
  intro d e he
  rcases hcases d e he with hold | ⟨ab, hab, hne, hd, hmade⟩
  · exact .inl ⟨e, hold, rfl, rfl⟩
  · right
    refine ⟨by rwa [hd], ?_⟩
    intro hhop
    rw [hmade.next, hnamed] at hhop ⊢
    obtain ⟨k, hk, hknown⟩ := hsound ab hab
    obtain ⟨e', he', hle⟩ := hknown (by rw [← hd]; exact hhop.symm) _ hmade.seqNum
    rw [hd]
    refine ⟨e', he', hle.trans_lt ?_⟩
    rw [RoutingEntry.rank, hmade.dist, AddressBlock.nodeDist, hk, rank, rank, Prod.Lex.toLex_lt_toLex]
    exact .inr ⟨rfl, Nat.lt_succ_self k⟩

theorem Invariant.step (h : Invariant net) (event : Event) (hpossible : Possible net event)
    (hnamed : DeliversNamed event) : Outcome (step maxHopLimit net event) Invariant fun _ ↦ True := by
  cases event with
  | sendRREQ myAddr destAddr msgHdrHopLimit targetSeqNum targetDist =>
    apply h.fine
    refine ⟨rfl, ?_⟩
    intro p hp
    rw [List.mem_singleton.mp hp]
    exact ⟨rfl, sound_own rfl rfl⟩
  | deliver receiver interface packet =>
    apply Outcome.map
    unfold DYMO.receive
    cases hmessage : packet.message with
    | rm m =>
      have hsender : NamesSender packet := hnamed
      rw [NamesSender, hmessage] at hsender
      exact h.receive hpossible.1 hmessage hsender
    | rerr rerr =>
      apply h.breaks
      · exact breaks_invalidateRoutes
      · intro p hp
        unfold handleLowerRERR at hp
        dsimp only at hp
        split at hp
        · cases hp
        · rw [List.mem_singleton.mp hp]
          exact ⟨rfl, sound_rerr⟩
  | packetFailed myAddr destAddr =>
    apply Outcome.map
    unfold DYMO.packetFailed
    split
    · trivial
    · apply h.breaks
      · exact breaks_breakRoutes _
      · exact List.forall_mem_nil _
  | sendRERR myAddr targetAddr targetSeqNum =>
    apply Outcome.map
    apply sendRERR_fine.post
    intro packets hpackets
    exact h.fine ⟨rfl, hpackets⟩

theorem Invariant.of_initial (h : Initial net) : Invariant net := by
  obtain ⟨hnode, hpackets⟩ := h
  refine ⟨?_, ?_, ?_⟩
  · intro v
    rw [hnode]
    rfl
  · intro v d e he
    rw [hnode] at he
    cases he
  · intro p hp
    rw [hpackets] at hp
    cases hp

theorem Invariant.loopFree (h : Invariant net) : LoopFree net := by
  have hstep (dest v w : IPAddress) (hhop : Hop net dest v w) (hw : w ≠ dest) :
      ∃ e e', getForAddress (net.node v).routingTable dest = some e ∧
        getForAddress (net.node w).routingTable dest = some e' ∧ e'.rank < e.rank := by
    obtain ⟨e, he, -, rfl⟩ := hhop
    obtain ⟨e', he', hlt⟩ := h.routes v dest e he hw
    exact ⟨e, e', he, he', hlt⟩
  have hleaves (dest v w : IPAddress) (hhop : Hop net dest v w) : v ≠ dest := by
    rintro rfl
    obtain ⟨e, he, -⟩ := hhop
    rw [h.own v] at he
    cases he
  have hpath (dest v w : IPAddress) (hway : Relation.TransGen (Hop net dest) v w) (hw : w ≠ dest) :
      ∃ e e', getForAddress (net.node v).routingTable dest = some e ∧
        getForAddress (net.node w).routingTable dest = some e' ∧ e'.rank < e.rank := by
    induction hway with
    | single hhop => exact hstep dest v _ hhop hw
    | @tail x y _ hhop ih =>
      obtain ⟨e, e', he, he', hlt⟩ := ih (hleaves dest x y hhop)
      obtain ⟨e₁, e'', he₁, he'', hlt'⟩ := hstep dest x y hhop hw
      rw [he'] at he₁
      cases he₁
      exact ⟨e, e'', he, he'', hlt'.trans hlt⟩
  constructor
  · intro dest v hway
    have hv : v ≠ dest := by
      obtain ⟨w, hhop, -⟩ := Relation.TransGen.head'_iff.mp hway
      exact hleaves dest v w hhop
    obtain ⟨e, e', he, he', hlt⟩ := hpath dest v v hway hv
    rw [he] at he'
    cases he'
    exact lt_irrefl _ hlt
  · intro dest v e he _ hne
    exact h.routes v dest e he hne

end

/-- Every run in which the routing messages that are delivered name their senders is free of loops. -/
theorem loop_free_of_named_senders (maxHopLimit : ℤ) (net : Network)
    (h : Reachable Initial (fun net event ↦ Possible net event ∧ DeliversNamed event) (step maxHopLimit)
      net) : LoopFree net := by
  apply Invariant.loopFree
  apply h.invariant
  · intro s hs
    exact Invariant.of_initial hs
  · intro s event s' hs hallowed hstep
    exact (hs.step event hallowed.1 hallowed.2).of_eq_ok hstep

/-! ## Three nodes in a row -/

/-- Nodes 2 and 3 are the neighbors of node 1. Node 2 asks for a route to node 3, which replies. -/
def discovery : List Event :=
  [.sendRREQ 2 3 10 0 0,
    .deliver 1 0 ⟨2, none, .rm ⟨.rreq, 10, ⟨2, some 2, some 0⟩, ⟨3, none, none⟩, []⟩⟩,
    .deliver 3 0 ⟨1, none, .rm ⟨.rreq, 9, ⟨2, some 2, some 1⟩, ⟨3, none, none⟩, [⟨1, some 2, some 0⟩]⟩⟩,
    .deliver 1 0 ⟨3, some 1, .rm ⟨.rrep, 10, ⟨3, some 2, some 0⟩, ⟨2, some 2, some 2⟩, []⟩⟩,
    .deliver 2 0 ⟨1, some 2, .rm ⟨.rrep, 9, ⟨3, some 2, some 1⟩, ⟨2, some 2, some 2⟩,
      [⟨1, some 3, some 0⟩]⟩⟩]

/-- The link from node 1 to node 3 breaks, and node 1 asks for a route. Node 2 replies for node 3. -/
def intermediateReply : List Event :=
  [.packetFailed 1 3,
    .sendRREQ 1 3 10 2 1,
    .deliver 2 0 ⟨1, none, .rm ⟨.rreq, 10, ⟨1, some 4, some 0⟩, ⟨3, some 2, some 1⟩, []⟩⟩,
    .deliver 1 0 ⟨2, some 1, .rm ⟨.rrep, 10, ⟨2, some 3, some 0⟩, ⟨1, some 4, some 1⟩,
      [⟨3, some 2, some 2⟩]⟩⟩]

def emptyNetwork : Network := ⟨fun _ ↦ ⟨1, []⟩, []⟩

def nextHopAt (net : Network) (v dest : IPAddress) : Option IPAddress :=
  (getForAddress (net.node v).routingTable dest).bind fun entry ↦
    if entry.routeBroken then none else some entry.routeNextHopAddress

theorem hop_of_nextHopAt {net : Network} {v w dest : IPAddress} (h : nextHopAt net v dest = some w) :
    Hop net dest v w := by
  obtain ⟨entry, hget, hhop⟩ := Option.bind_eq_some_iff.mp h
  cases hbroken : entry.routeBroken with
  | true =>
    rw [hbroken] at hhop
    cases hhop
  | false =>
    rw [hbroken] at hhop
    exact ⟨entry, hget, hbroken, Option.some.inj hhop⟩

/-- After the discovery node 2 reaches node 3 over node 1. -/
theorem discovery_loop_free : ∃ net, run (step 10) emptyNetwork discovery = .ok net ∧
    nextHopAt net 2 3 = some 1 ∧ nextHopAt net 1 3 = some 3 ∧ LoopFree net := by
  have hcheck : (match run (step 10) emptyNetwork discovery with
      | .ok net => decide (nextHopAt net 2 3 = some 1 ∧ nextHopAt net 1 3 = some 3)
      | .error _ => false) = true := by decide
  have hadmits : admits (fun net event ↦ Possible net event ∧ DeliversNamed event) (step 10) emptyNetwork
      discovery = true := by decide
  cases hrun : run (step 10) emptyNetwork discovery with
  | error fault =>
    rw [hrun] at hcheck
    cases hcheck
  | ok net =>
    rw [hrun] at hcheck
    obtain ⟨hsecond, hfirst⟩ := of_decide_eq_true hcheck
    refine ⟨net, rfl, hsecond, hfirst, loop_free_of_named_senders 10 net ?_⟩
    exact (Reachable.start ⟨fun _ ↦ rfl, rfl⟩).of_run discovery hadmits hrun

/-- Node 1 takes node 3, which the last block of the reply is about, for its sender, and sends packets for
node 2 to node 3, which sends them back. -/
theorem intermediate_reply_loops :
    ∃ net, Reachable Initial Possible (step 10) net ∧ nextHopAt net 1 2 = some 3 ∧
      nextHopAt net 3 2 = some 1 ∧ ¬ LoopFree net := by
  have hcheck : (match run (step 10) emptyNetwork (discovery ++ intermediateReply) with
      | .ok net => decide (nextHopAt net 1 2 = some 3 ∧ nextHopAt net 3 2 = some 1)
      | .error _ => false) = true := by decide
  have hadmits : admits Possible (step 10) emptyNetwork (discovery ++ intermediateReply) = true := by decide
  cases hrun : run (step 10) emptyNetwork (discovery ++ intermediateReply) with
  | error fault =>
    rw [hrun] at hcheck
    cases hcheck
  | ok net =>
    rw [hrun] at hcheck
    obtain ⟨hfirst, hthird⟩ := of_decide_eq_true hcheck
    refine ⟨net, (Reachable.start ⟨fun _ ↦ rfl, rfl⟩).of_run _ hadmits hrun, hfirst, hthird, ?_⟩
    intro hfree
    apply hfree.acyclic 2 1
    exact .tail (.single (hop_of_nextHopAt hfirst)) (hop_of_nextHopAt hthird)

end InetManet.DYMO
