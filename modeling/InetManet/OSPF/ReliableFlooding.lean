import InetManet.OSPF.RetransmissionLists

/-!
# Reliable flooding

A Link State Update is processed LSA by LSA. An LSA that is accepted in its turn is on the list of every
neighbor that it is assigned to when the packet has been processed, and over a run an LSA leaves a list
only for an acknowledgement, for an instance that succeeds it, or when the neighbor is reset.

This lasts as long as an ID and an advertising router stand for LSAs of one type, no LSA that comes in a
packet replaces an instance in the database, and what is flooded is no older than what is on the lists.
In the second case the new instance, which has been put on the lists just before, is taken off them with
the old one. Where this router installs its own LSAs it does so before it floods them.
-/

namespace InetManet.OSPF

open TransitionSystem

variable {β : Type}

/-- This router originates the LSA, or answers when it is received. -/
def IsOwn (env : Env β) (h : LSAHeader) : Prop :=
  h.advertisingRouter = env.routerID ∨ OwnID env h.linkStateID

/-- A neighbor while LSAs are received. What is on its list stays there, makes way for one of those or of
this router's own, or is acknowledged by the neighbor, who is reset when he sends what he should not. -/
structure Passed (env : Env β) (received : LSA β → Prop) (isSender : Prop) (n n' : Neighbor β) :
    Prop where
  state : n'.state = n.state ∨ (n.state = .loading ∧ n'.state = .full) ∨
    isSender ∧ n'.state = .exchangeStart
  keeps : ∀ x ∈ n.retransmissionList,
    (∃ y ∈ n'.retransmissionList, (y = x ∨ received y ∨ IsOwn env y.header) ∧
      Succeeds x.header y.header) ∨
    isSender ∧ ((∃ l, received l ∧ Succeeds x.header l.header) ∨ n'.state = .exchangeStart)

def State.Passes (env : Env β) (received : LSA β → Prop) (sender : ℕ) (s s' : State β) : Prop :=
  ∀ j n, s.neighbors[j]? = some n →
    ∃ n', s'.neighbors[j]? = some n' ∧ Passed env received (j = sender) n n'

/-- `ProcessPacket` takes the LSA for newer than the database and floods it. -/
def State.Accepts (s : State β) (areaID : IPAddress) (externalRoutingCapability : Bool) (lsa : LSA β) :
    Prop :=
  (lsa.header.lsType = .asExternalLSA → externalRoutingCapability = true) ∧
    match s.database (databaseKey areaID lsa.header) with
    | none => ¬ (lsa.header.lsAge = maxAge ∧
        ∀ n ∈ s.neighbors, n.state ≠ .exchange ∧ n.state ≠ .loading)
    | some e => e.lsa.header.isOlder lsa.header = true ∧
        ¬ (e.isFlooded = true ∧ e.installTime < minLSArrival)

/-- Every neighbor that the LSA is assigned to in state `s` has it on its list in state `s'`. There one
of the received LSAs or of this router's own may have taken its place in the meantime. -/
def State.Assigned (env : Env β) (areaID : IPAddress) (sender : ℕ) (lsa : LSA β)
    (received : LSA β → Prop) (s s' : State β) : Prop :=
  ∀ j n, s.neighbors[j]? = some n → j ≠ sender → n.IsAssigned areaID lsa →
    ∃ n', s'.neighbors[j]? = some n' ∧ ∃ y ∈ n'.retransmissionList,
      (y = lsa ∨ received y ∨ IsOwn env y.header) ∧ Succeeds lsa.header y.header

/-- The LSAs of one type, with the states in which their turns come. -/
def State.turns (env : Env β) (areaID : IPAddress) (externalRoutingCapability : Bool) (sender : ℕ) :
    List (LSA β) → State β → List (LSA β × State β)
  | [], _ => []
  | lsa :: lsas, s => (lsa, s) ::
      match s.processLSA env areaID externalRoutingCapability sender lsa with
      | .ok (false, s') => turns env areaID externalRoutingCapability sender lsas s'
      | _ => []

/-- The turns of all LSAs of a packet. -/
def State.packetTurns (env : Env β) (n : Neighbor β) (sender : ℕ) (lsas : Fin 4 → List (LSA β)) :
    List (Fin 4) → State β → List (LSA β × State β)
  | [], _ => []
  | t :: ts, s => s.turns env n.areaID n.externalRoutingCapability sender (lsas t) ++
      match s.processLSAs env n.areaID n.externalRoutingCapability sender (lsas t) with
      | .ok s' => packetTurns env n sender lsas ts s'
      | .error _ => []

/-- What is asked of an LSA in the state in which its turn comes: its type fits the key, it is not
accepted in place of an instance in the database, nor when a newer one is on the lists, and as a duplicate
it acknowledges what is on the list of the sender. -/
structure State.Fits (τ : LSAKey → LSAType) (s : State β) (areaID : IPAddress) (sender : ℕ)
    (lsa : LSA β) : Prop where
  typed : Typed τ lsa.header
  notReplacing : ∀ e, s.database (databaseKey areaID lsa.header) = some e →
    e.lsa.header.isOlder lsa.header = true → e.isFlooded = true ∧ e.installTime < minLSArrival
  newest : s.database (databaseKey areaID lsa.header) = none →
    s.Below (databaseKey areaID lsa.header) lsa.header.lsSequenceNumber
  acknowledging : ∀ e, s.database (databaseKey areaID lsa.header) = some e →
    ∀ n, s.neighbors[sender]? = some n → ∀ x ∈ n.retransmissionList,
      x.header.key = lsa.header.key → lsa.header.isOlder x.header = false

section Passed

variable {env : Env β} {received received' : LSA β → Prop} {isSender : Prop} {n n' n'' : Neighbor β}
  {s s' s'' : State β} {sender : ℕ}

theorem Passed.refl (n : Neighbor β) : Passed env received isSender n n :=
  ⟨.inl rfl, fun x hx ↦ .inl ⟨x, hx, .inl rfl, .refl _⟩⟩

theorem Grown.passed {F : LSA β → Prop} (h : Grown F n n')
    (hF : ∀ l, F l → received l ∨ IsOwn env l.header) : Passed env received isSender n n' := by
  refine ⟨h.state.imp_right .inl, fun x hx ↦ .inl ?_⟩
  obtain ⟨y, hy, hyx, hs⟩ := h.keeps x hx
  exact ⟨y, hy, hyx.imp_right (hF y), hs⟩

theorem Passed.mono (h : Passed env received isSender n n') (hr : ∀ l, received l → received' l) :
    Passed env received' isSender n n' := by
  refine ⟨h.state, fun x hx ↦ (h.keeps x hx).imp ?_ ?_⟩
  · rintro ⟨y, hy, hyx, hs⟩
    exact ⟨y, hy, hyx.imp_right fun hr' ↦ hr'.imp_left (hr y), hs⟩
  · rintro ⟨hsender, ⟨l, hl, hs⟩ | hreset⟩
    · exact ⟨hsender, .inl ⟨l, hr l hl, hs⟩⟩
    · exact ⟨hsender, .inr hreset⟩

/-- A neighbor that has been reset takes no part until the end of the packet. -/
theorem Passed.trans (h : Passed env received isSender n n') (h' : Passed env received isSender n' n'') :
    Passed env received isSender n n'' := by
  have hreset (hstate : n'.state = .exchangeStart) : n''.state = .exchangeStart := by
    rcases h'.state with heq | ⟨hloading, _⟩ | ⟨_, hstart⟩
    · rw [heq, hstate]
    · rw [hstate] at hloading
      cases hloading
    · exact hstart
  constructor
  · rcases h.state with heq | ⟨hloading, hfull⟩ | ⟨hsender, hstart⟩
    · rw [← heq]
      exact h'.state
    · rcases h'.state with heq' | ⟨hloading', _⟩ | hstart'
      · exact .inr (.inl ⟨hloading, heq'.trans hfull⟩)
      · rw [hfull] at hloading'
        cases hloading'
      · exact .inr (.inr hstart')
    · exact .inr (.inr ⟨hsender, hreset hstart⟩)
  · intro x hx
    rcases h.keeps x hx with ⟨y, hy, hyx, hs⟩ | ⟨hsender, hack | hstart⟩
    · rcases h'.keeps y hy with ⟨z, hz, hzy, hs'⟩ | ⟨hsender, ⟨l, hl, hs'⟩ | hstart⟩
      · refine .inl ⟨z, hz, ?_, hs.trans hs'⟩
        rcases hzy with rfl | hr
        · exact hyx
        · exact .inr hr
      · exact .inr ⟨hsender, .inl ⟨l, hl, hs.trans hs'⟩⟩
      · exact .inr ⟨hsender, .inr hstart⟩
    · exact .inr ⟨hsender, .inl hack⟩
    · exact .inr ⟨hsender, .inr (hreset hstart)⟩

theorem State.Passes.refl (s : State β) : s.Passes env received sender s :=
  fun _ n hn ↦ ⟨n, hn, .refl n⟩

theorem State.Passes.trans (h : s.Passes env received sender s') (h' : s'.Passes env received sender s'') :
    s.Passes env received sender s'' := by
  intro j n hn
  obtain ⟨n', hn', hp⟩ := h j n hn
  obtain ⟨n'', hn'', hp'⟩ := h' j n' hn'
  exact ⟨n'', hn'', hp.trans hp'⟩

theorem State.Passes.mono (h : s.Passes env received sender s') (hr : ∀ l, received l → received' l) :
    s.Passes env received' sender s' := by
  intro j n hn
  obtain ⟨n', hn', hp⟩ := h j n hn
  exact ⟨n', hn', hp.mono hr⟩

theorem Kept.passes {τ : LSAKey → LSAType} {D : IPAddress → Prop} {F : LSA β → Prop} {moved : ℕ → Prop}
    (h : Kept env τ D F moved s s') (hF : ∀ l, F l → received l ∨ IsOwn env l.header) (sender : ℕ) :
    s.Passes env received sender s' := by
  intro j n hn
  obtain ⟨n', hn', hgrown, _⟩ := h.neighbors j n hn
  exact ⟨n', hn', hgrown.passed hF⟩

theorem State.Passes.setNeighbor (hi : s.neighbors[sender]? = some n)
    (hpassed : Passed env received True n n') : s.Passes env received sender (s.setNeighbor sender n') := by
  intro j m hm
  by_cases hij : sender = j
  · subst hij
    rw [hi] at hm
    cases hm
    refine ⟨n', List.getElem?_set_self (List.getElem?_eq_some_iff.mp hi).1, hpassed.state.imp_right ?_, ?_⟩
    · exact fun hstate ↦ hstate.imp_right fun hstart ↦ ⟨rfl, hstart.2⟩
    · exact fun x hx ↦ (hpassed.keeps x hx).imp_right fun hleft ↦ ⟨rfl, hleft.2⟩
  · exact ⟨m, (List.getElem?_set_ne hij).trans hm, .refl m⟩

/-- What a later part of the packet leaves of an assignment. -/
theorem State.Assigned.passes {areaID : IPAddress} {lsa : LSA β}
    (h : s.Assigned env areaID sender lsa received s') (h' : s'.Passes env received sender s'') :
    s.Assigned env areaID sender lsa received s'' := by
  intro j n hn hj hassigned
  obtain ⟨n', hn', y, hy, hylsa, hs⟩ := h j n hn hj hassigned
  obtain ⟨n'', hn'', hp⟩ := h' j n' hn'
  rcases hp.keeps y hy with ⟨z, hz, hzy, hs'⟩ | ⟨hsender, _⟩
  · refine ⟨n'', hn'', z, hz, ?_, hs.trans hs'⟩
    rcases hzy with rfl | hr
    · exact hylsa
    · exact .inr hr
  · exact absurd hsender hj

theorem State.Assigned.mono {areaID : IPAddress} {lsa : LSA β}
    (h : s.Assigned env areaID sender lsa received s') (hr : ∀ l, received l → received' l) :
    s.Assigned env areaID sender lsa received' s' := by
  intro j n hn hj hassigned
  obtain ⟨n', hn', y, hy, hylsa, hs⟩ := h j n hn hj hassigned
  exact ⟨n', hn', y, hy, hylsa.imp_right fun hr' ↦ hr'.imp_left (hr y), hs⟩

end Passed

/-! ## The turn of an LSA -/

section Turn

variable {env : Env β} {τ : LSAKey → LSAType} {s s' : State β} {i : ℕ} {n : Neighbor β} {lsa : LSA β}
  {areaID : IPAddress} {sender : ℕ}

theorem Flooded.received {l : LSA β} (h : Flooded env lsa l) : l = lsa ∨ IsOwn env l.header :=
  h.imp_right fun hown ↦ .inr hown.1

theorem State.Below.mono {k : DatabaseKey} {number : ℤ} (h : s.Below k number)
    (hlists : ∀ n' ∈ s'.neighbors, ∃ n ∈ s.neighbors, n'.areaID = n.areaID ∧
      ∀ x ∈ n'.retransmissionList, x ∈ n.retransmissionList) : s'.Below k number := by
  intro n' hn' x hx hkey
  obtain ⟨n, hn, harea, hsub⟩ := hlists n' hn'
  apply h n hn x (hsub x hx)
  rwa [← harea]

theorem Inv.store_of_none (h : Inv env τ s) {k : DatabaseKey} (hk : s.database k = none)
    (area : Option IPAddress) (hlsa : Typed τ lsa.header) (hplace : databaseKey areaID lsa.header = k)
    (hbelow : s.Below k lsa.header.lsSequenceNumber) :
    Inv env τ (s.store area k lsa) ∧ (s.store area k lsa).neighbors = s.neighbors ∧
      (s.store area k lsa).database k = some ⟨lsa, true, 0⟩ := by
  unfold State.store
  rw [hk]
  exact ⟨h.setStored (y := ⟨lsa, true, 0⟩) hlsa ⟨areaID, hplace⟩ hbelow, rfl, Function.update_self ..⟩

/-- The LSA is installed, and it is in the database then if it is one of this router's own. -/
structure Installed (env : Env β) (τ : LSAKey → LSAType) (sender : ℕ) (areaID : IPAddress) (lsa : LSA β)
    (s s' : State β) : Prop where
  inv : Inv env τ s'
  passes : s.Passes env (fun l ↦ l = lsa) sender s'
  stored : s'.database (databaseKey areaID lsa.header) = some ⟨lsa, true, 0⟩ ∨
    lsa.header.lsType = .asExternalLSA ∧ lsa.header.advertisingRouter ≠ env.routerID

theorem Inv.installed_store (h : Inv env τ s) (hk : s.database (databaseKey areaID lsa.header) = none)
    (area : Option IPAddress) (hlsa : Typed τ lsa.header)
    (hbelow : s.Below (databaseKey areaID lsa.header) lsa.header.lsSequenceNumber) :
    Installed env τ sender areaID lsa s (s.store area (databaseKey areaID lsa.header) lsa) := by
  obtain ⟨hinv, hneighbors, hstored⟩ := h.store_of_none hk area hlsa rfl hbelow
  refine ⟨hinv, fun j n hn ↦ ⟨n, ?_, .refl n⟩, .inl hstored⟩
  rwa [hneighbors]

theorem databaseKey_asExternal (areaID : IPAddress) {h : LSAHeader} (htype : h.lsType = .asExternalLSA) :
    databaseKey areaID h = .asExternal h.key := by
  unfold databaseKey
  rw [htype]

theorem databaseKey_eq_asExternal {h : LSAHeader} {key : LSAKey}
    (hplace : databaseKey areaID h = .asExternal key) : h.lsType = .asExternalLSA ∧ h.key = key := by
  unfold databaseKey at hplace
  cases htype : h.lsType with
  | asExternalLSA =>
    rw [htype] at hplace
    exact ⟨rfl, DatabaseKey.asExternal.inj hplace⟩
  | routerLSA | networkLSA | summaryNetworks | summaryASBoundaryRouters =>
    rw [htype] at hplace
    cases hplace

variable (hrouter : τ ⟨env.routerID, env.routerID⟩ = .routerLSA)

include hrouter

/-- An own external LSA is flushed, and nothing comes to another place with its ID. -/
theorem outcome_flushOwn (h : Inv env τ s) {id : IPAddress} {e : Stored β} {k : DatabaseKey}
    {number : ℤ} (hown : s.database (.asExternal ⟨id, env.routerID⟩) = some e)
    (hk : s.database k = none) (hid : k.linkStateID = id) (hbelow : s.Below k number)
    (received : LSA β → Prop) (sender : ℕ) :
    Outcome ((s.modifyHeader (.asExternal ⟨id, env.routerID⟩) e
        { e.lsa.header with lsAge := maxAge }).flood env 0 none
        ⟨{ e.lsa.header with lsAge := maxAge }, e.lsa.contents⟩)
      (fun s₁ ↦ Inv env τ s₁ ∧ s.Passes env received sender s₁ ∧ s₁.database k = none ∧
        s₁.Below k number) fun _ ↦ False := by
  let own := DatabaseKey.asExternal ⟨id, env.routerID⟩
  let e' : Stored β := { e with lsa := ⟨{ e.lsa.header with lsAge := maxAge }, e.lsa.contents⟩ }
  obtain ⟨htyped, areaID', hplace'⟩ := h.stored own e hown
  obtain ⟨htype', hkey'⟩ := databaseKey_eq_asExternal hplace'
  have hsame (areaID'' : IPAddress) : databaseKey areaID'' e'.lsa.header = own :=
    (databaseKey_asExternal areaID'' htype').trans (congrArg DatabaseKey.asExternal hkey')
  have hset : Kept env τ (fun _ ↦ True) (fun _ ↦ False) (fun _ ↦ True) s
      (s.modifyHeader own e { e.lsa.header with lsAge := maxAge }) :=
    .setStored h hown (y := e') htyped ⟨0, hsame 0⟩ trivial (le_refl _)
  have hready : Ready τ (s.modifyHeader own e { e.lsa.header with lsAge := maxAge }) 0 e'.lsa :=
    .of_stored hset.inv htyped (e := e') (by rw [hsame]; exact Function.update_self ..) rfl
  apply (outcome_flood hrouter hset.inv hready none).post
  rintro s₁ ⟨hs₁, -⟩
  refine ⟨hs₁.inv, (hset.passes (fun _ ↦ False.elim) sender).trans (hs₁.passes ?_ sender),
    hs₁.absent _ (hset.absent _ hk), ?_⟩
  · rintro l (rfl | hl)
    · exact .inr (.inl (congrArg LSAKey.advertisingRouter hkey'))
    · exact .inr (.inr hl.1)
  · apply hs₁.below (hset.below hbelow fun _ _ ↦ False.elim)
    rintro l areaID'' (rfl | ⟨hownID, hnot⟩) hkey
    · rw [← hkey, hsame, hown] at hk
      cases hk
    · have hl : l.header.linkStateID = e.lsa.header.linkStateID := by
        rw [← databaseKey_linkStateID areaID'', hkey, hid]
        exact (congrArg LSAKey.linkStateID hkey').symm
      exact absurd (hl ▸ hownID) hnot

theorem outcome_installASExternalLSA (h : Inv env τ s) (hlsa : Typed τ lsa.header)
    (htype : lsa.header.lsType = .asExternalLSA)
    (hk : s.database (databaseKey areaID lsa.header) = none)
    (hbelow : s.Below (databaseKey areaID lsa.header) lsa.header.lsSequenceNumber) :
    Outcome (s.installASExternalLSA env lsa) (Installed env τ sender areaID lsa s) fun _ ↦ False := by
  have hplace := databaseKey_asExternal areaID htype
  have hstore : Installed env τ sender areaID lsa s (s.store none (.asExternal lsa.header.key) lsa) := by
    rw [← hplace]
    exact h.installed_store hk none hlsa hbelow
  unfold State.installASExternalLSA
  dsimp only
  cases hown : s.database (.asExternal ⟨lsa.header.linkStateID, env.routerID⟩) with
  | none => exact hstore
  | some e =>
    dsimp only
    apply Outcome.ite
    · intro _
      exact hstore
    · intro _
      have hother : lsa.header.advertisingRouter ≠ env.routerID := by
        intro heq
        rw [hplace, LSAHeader.key, heq, hown] at hk
        cases hk
      apply Outcome.ite
      · intro _
        exact ⟨h, .refl s, .inr ⟨htype, hother⟩⟩
      · intro _
        -- the own LSA is flushed before the other one is stored
        have hid := databaseKey_linkStateID areaID lsa.header
        apply (outcome_flushOwn hrouter h hown hk hid hbelow (fun l ↦ l = lsa) sender).bind
        rintro s₁ ⟨hinv₁, hpasses, hk₁, hbelow₁⟩
        have hinstalled : Installed env τ sender areaID lsa s₁ (s₁.store none _ lsa) :=
          hinv₁.installed_store hk₁ none hlsa hbelow₁
        rw [hplace] at hinstalled
        refine ⟨hinstalled.inv, hpasses.trans hinstalled.passes, ?_⟩
        rw [hplace]
        exact hplace ▸ hinstalled.stored

/-- An LSA that is not in the database yet is flooded and stored. -/
theorem outcome_accept (h : Inv env τ s)
    (hlsa : Typed τ lsa.header) (hk : s.database (databaseKey areaID lsa.header) = none)
    (hbelow : s.Below (databaseKey areaID lsa.header) lsa.header.lsSequenceNumber) :
    Outcome (s.accept env areaID sender lsa true) (fun s' ↦ Inv env τ s' ∧
      s.Passes env (fun l ↦ l = lsa) sender s' ∧
      s.Assigned env areaID sender lsa (fun l ↦ l = lsa) s') fun _ ↦ False := by
  have hready : Ready τ s areaID lsa := by
    refine ⟨hlsa, hbelow, fun e he ↦ ?_⟩
    rw [hk] at he
    cases he
  unfold State.accept
  apply (outcome_flood hrouter h hready (some sender)).bind
  rintro s₁ ⟨hs₁, hlists⟩
  have hk₁ := hs₁.absent _ hk
  have hready₁ := hready.kept hs₁
  have hpasses₁ : s.Passes env (fun l ↦ l = lsa) sender s₁ := hs₁.passes (fun _ ↦ Flooded.received) sender
  have hassigned₁ : s.Assigned env areaID sender lsa (fun l ↦ l = lsa) s₁ := by
    intro j n hn hj hassigned
    have hne : some sender ≠ some j := fun heq ↦ hj (Option.some.inj heq).symm
    obtain ⟨n', hn', hmem⟩ := hlists j n hn hassigned hne
    exact ⟨n', hn', lsa, hmem, .inl rfl, .refl _⟩
  have hinstall : Outcome ((s₁.supersede lsa true).installLSA env areaID lsa)
      (Installed env τ sender areaID lsa s₁) fun _ ↦ False := by
    unfold State.installLSA
    apply Outcome.ite
    · intro htype
      exact outcome_installASExternalLSA hrouter hs₁.inv hlsa htype hk₁ hready₁.below
    · intro _
      exact hs₁.inv.installed_store hk₁ (some areaID) hlsa hready₁.below
  apply hinstall.bind
  intro s₂ hs₂
  have hpasses₂ := hpasses₁.trans hs₂.passes
  have hassigned₂ := hassigned₁.passes hs₂.passes
  unfold State.outdo
  apply Outcome.ite
  · intro hself
    rw [if_pos rfl]
    have hown : IsOwn env lsa.header := by
      simp only [Bool.or_eq_true, Bool.and_eq_true, beq_iff_eq] at hself
      rcases hself with hself | ⟨_, hlocal⟩
      · exact .inl hself
      · exact .inr (.inr hlocal)
    have hstored : s₂.database (databaseKey areaID lsa.header) = some ⟨lsa, true, 0⟩ := by
      rcases hs₂.stored with hstored | ⟨htype, hother⟩
      · exact hstored
      · simp [htype, hother] at hself
    have hready₂ : Ready τ s₂ areaID { lsa with header := { lsa.header with lsAge := maxAge } } :=
      .of_stored hs₂.inv hlsa (e := ⟨lsa, true, 0⟩) hstored rfl
    apply (outcome_flood hrouter hs₂.inv hready₂ none).post
    rintro s₃ ⟨hs₃, -⟩
    have hpasses₃ : s₂.Passes env (fun l ↦ l = lsa) sender s₃ := by
      apply hs₃.passes
      rintro l (rfl | hl)
      · exact .inr hown
      · exact .inr (.inr hl.1)
    exact ⟨hs₃.inv, hpasses₂.trans hpasses₃, hassigned₂.passes hpasses₃⟩
  · intro _
    exact ⟨hs₂.inv, hpasses₂, hassigned₂⟩

theorem outcome_badLinkStateRequest (h : Inv env τ s) (hi : s.neighbors[sender]? = some n)
    (received : LSA β → Prop) :
    Outcome (s.badLinkStateRequest env sender n)
      (fun s' ↦ Inv env τ s' ∧ s.Passes env received sender s') fun _ ↦ False := by
  have hown := h.own n (List.mem_of_getElem? hi)
  let n' : Neighbor β := { n.reset with state := .exchangeStart }
  have hs : Inv env τ (s.setNeighbor sender n') := by
    refine h.setNeighbor ⟨rfl, ?_, List.nodup_nil⟩ hown ?_ ?_
    all_goals
      intro x hx
      cases hx
  have hpasses : s.Passes env received sender (s.setNeighbor sender n') :=
    .setNeighbor hi ⟨.inr (.inr ⟨trivial, rfl⟩), fun _ _ ↦ .inr ⟨trivial, .inr rfl⟩⟩
  unfold State.badLinkStateRequest
  apply Outcome.ite
  · intro _
    apply (outcome_reoriginateAll floods_flood hrouter hs sender hown).post
    intro s' hs'
    exact ⟨hs'.inv, hpasses.trans (hs'.passes (fun _ hl ↦ .inr (.inr hl)) sender)⟩
  · intro _
    exact ⟨hs, hpasses⟩

theorem outcome_processLSA (h : Inv env τ s) (hfits : s.Fits τ areaID sender lsa)
    (externalRoutingCapability : Bool) :
    Outcome (s.processLSA env areaID externalRoutingCapability sender lsa)
      (fun x ↦ Inv env τ x.2 ∧ s.Passes env (fun l ↦ l = lsa) sender x.2 ∧
        (s.Accepts areaID externalRoutingCapability lsa →
          s.Assigned env areaID sender lsa (fun l ↦ l = lsa) x.2)) (· = .noNeighbor) := by
  unfold State.processLSA State.Accepts
  apply Outcome.ite
  · intro hexternal
    refine ⟨h, .refl s, fun haccepts ↦ ?_⟩
    simp only [Bool.and_eq_true, beq_iff_eq, Bool.not_eq_true'] at hexternal
    rw [haccepts.1 hexternal.1] at hexternal
    cases hexternal.2
  · intro _
    cases hk : s.database (databaseKey areaID lsa.header) with
    | none =>
      dsimp only
      apply Outcome.ite
      · intro hdiscarded
        exact ⟨h, .refl s, fun haccepts ↦ absurd hdiscarded haccepts.2⟩
      · intro _
        apply Outcome.map
        apply (outcome_accept hrouter h hfits.typed hk (hfits.newest hk)).mono
        · exact fun _ hs' ↦ ⟨hs'.1, hs'.2.1, fun _ ↦ hs'.2.2⟩
        · exact fun _ ↦ False.elim
    | some e =>
      dsimp only
      have hnot (haccepts : (lsa.header.lsType = .asExternalLSA → externalRoutingCapability = true) ∧
          e.lsa.header.isOlder lsa.header = true ∧
          ¬ (e.isFlooded = true ∧ e.installTime < minLSArrival)) : False :=
        haccepts.2.2 (hfits.notReplacing e hk haccepts.2.1)
      apply Outcome.ite
      · intro holder
        rw [if_pos (by simp [hfits.notReplacing e hk holder])]
        exact ⟨h, .refl s, fun haccepts ↦ (hnot haccepts).elim⟩
      · intro _
        cases hi : s.neighbors[sender]? with
        | none => rfl
        | some n =>
          have hmem := List.mem_of_getElem? hi
          have hn := h.faithful n hmem
          dsimp only
          apply Outcome.ite
          · intro _
            apply Outcome.map
            apply (outcome_badLinkStateRequest hrouter h hi fun l ↦ l = lsa).mono
            · exact fun _ hs' ↦ ⟨hs'.1, hs'.2, fun haccepts ↦ (hnot haccepts).elim⟩
            · exact fun _ ↦ False.elim
          · intro _
            apply Outcome.ite
            · intro _
              have hnotOlder := hfits.acknowledging e hk n hi
              have hkept : ∀ x ∈ (n.impliedAcknowledgement lsa).retransmissionList,
                  x ∈ n.retransmissionList := fun _ hx ↦ (List.mem_filter.mp hx).1
              have hinv : Inv env τ (s.setNeighbor sender (n.impliedAcknowledgement lsa)) :=
                h.setNeighbor (hn.impliedAcknowledgement hfits.typed hnotOlder) (h.own n hmem)
                  (h.requests n hmem) fun x hx ↦ h.covered n hmem x (hkept x hx)
              refine ⟨hinv, .setNeighbor hi ⟨.inl rfl, fun x hx ↦ ?_⟩,
                fun haccepts ↦ (hnot haccepts).elim⟩
              by_cases hkey : x.header.key = lsa.header.key
              · refine .inr ⟨trivial, .inl ⟨lsa, rfl, ?_⟩⟩
                exact .of_typed (hn.typed x hx) hfits.typed hkey.symm
                  (le_of_not_isOlder (hnotOlder x hx hkey))
              · refine .inl ⟨x, ?_, .inl rfl, .refl _⟩
                exact List.mem_filter.mpr ⟨hx, by simpa using hkey⟩
            · intro _
              exact ⟨h, .refl s, fun haccepts ↦ (hnot haccepts).elim⟩

end Turn

/-! ## Packets -/

section Packets

variable {env : Env β} {τ : LSAKey → LSAType} {s s' : State β} {n : Neighbor β} {areaID : IPAddress}
  {sender : ℕ} {externalRoutingCapability : Bool} {lsas : List (LSA β)} {received : LSA β → Prop}

variable (hrouter : τ ⟨env.routerID, env.routerID⟩ = .routerLSA)

include hrouter

/-- The LSAs of one type: each one that is accepted in its turn is on the lists in the end. -/
theorem outcome_processLSAs (h : Inv env τ s)
    (hreceived : ∀ lsa ∈ lsas, received lsa)
    (hfit : ∀ p ∈ s.turns env areaID externalRoutingCapability sender lsas,
      p.2.Fits τ areaID sender p.1) :
    Outcome (s.processLSAs env areaID externalRoutingCapability sender lsas)
      (fun s' ↦ Inv env τ s' ∧ s.Passes env received sender s' ∧
        ∀ p ∈ s.turns env areaID externalRoutingCapability sender lsas,
          p.2.Accepts areaID externalRoutingCapability p.1 →
            p.2.Assigned env areaID sender p.1 received s') (· = .noNeighbor) := by
  induction lsas generalizing s with
  | nil => exact ⟨h, .refl s, fun p hp ↦ by cases hp⟩
  | cons lsa lsas ih =>
    have hone := outcome_processLSA hrouter h (hfit _ List.mem_cons_self) externalRoutingCapability
    have hlsa : ∀ l, l = lsa → received l := fun l hl ↦ hl ▸ hreceived lsa List.mem_cons_self
    unfold State.processLSAs
    unfold State.turns at hfit ⊢
    cases hx : s.processLSA env areaID externalRoutingCapability sender lsa with
    | error e =>
      rw [hx] at hone
      exact hone
    | ok x =>
      rw [hx] at hone hfit
      obtain ⟨hinv, hpasses, hassigned⟩ := hone
      have hpasses := hpasses.mono hlsa
      rw [ok_bind]
      obtain ⟨stop, s₁⟩ := x
      cases stop with
      | true =>
        refine ⟨hinv, hpasses, fun p hp haccepts ↦ ?_⟩
        rw [List.mem_singleton.mp hp] at haccepts ⊢
        exact (hassigned haccepts).mono hlsa
      | false =>
        rw [if_neg Bool.false_ne_true]
        apply (ih hinv (fun l hl ↦ hreceived l (List.mem_cons_of_mem lsa hl))
          fun p hp ↦ hfit p (List.mem_cons_of_mem _ hp)).post
        rintro s' ⟨hinv', hpasses', hassigned'⟩
        refine ⟨hinv', hpasses.trans hpasses', fun p hp haccepts ↦ ?_⟩
        rcases List.mem_cons.mp hp with rfl | hp
        · exact ((hassigned haccepts).mono hlsa).passes hpasses'
        · exact hassigned' p hp haccepts

theorem outcome_processTypes (h : Inv env τ s)
    {lsas : Fin 4 → List (LSA β)} (types : List (Fin 4))
    (hfit : ∀ p ∈ s.packetTurns env n sender lsas types, p.2.Fits τ n.areaID sender p.1) :
    Outcome (types.foldlM (fun s t ↦
        s.processLSAs env n.areaID n.externalRoutingCapability sender (lsas t)) s)
      (fun s' ↦ Inv env τ s' ∧ s.Passes env (fun l ↦ ∃ t, l ∈ lsas t) sender s' ∧
        ∀ p ∈ s.packetTurns env n sender lsas types,
          p.2.Accepts n.areaID n.externalRoutingCapability p.1 →
            p.2.Assigned env n.areaID sender p.1 (fun l ↦ ∃ t, l ∈ lsas t) s') (· = .noNeighbor) := by
  induction types generalizing s with
  | nil => exact ⟨h, .refl s, fun p hp ↦ by cases hp⟩
  | cons t types ih =>
    unfold State.packetTurns at hfit ⊢
    have hreceived : ∀ l ∈ lsas t, ∃ t, l ∈ lsas t := fun l hl ↦ ⟨t, hl⟩
    have hone := outcome_processLSAs hrouter h hreceived
      fun p hp ↦ hfit p (List.mem_append_left _ hp)
    rw [List.foldlM_cons]
    cases hx : s.processLSAs env n.areaID n.externalRoutingCapability sender (lsas t) with
    | error e =>
      rw [hx] at hone
      exact hone
    | ok s₁ =>
      rw [hx] at hone hfit
      obtain ⟨hinv, hpasses, hassigned⟩ := hone
      apply (ih hinv fun p hp ↦ hfit p (List.mem_append_right _ hp)).post
      rintro s' ⟨hinv', hpasses', hassigned'⟩
      refine ⟨hinv', hpasses.trans hpasses', fun p hp haccepts ↦ ?_⟩
      rcases List.mem_append.mp hp with hp | hp
      · exact (hassigned p hp haccepts).passes hpasses'
      · exact hassigned' p hp haccepts

end Packets

/-! ## Events -/

/-- The LS types fit the keys, the LSAs of a packet fit in their turn, what this router floods is no older
than what is on the lists, and no neighbor is asked for an LSA that is originated again. -/
def State.Allowed (env : Env β) (τ : LSAKey → LSAType) (s : State β) : State.Event β → Prop
  | .update sender lsas => ∀ n, s.neighbors[sender]? = some n → n.state.isExchanging = true →
      ∀ p ∈ s.packetTurns env n sender lsas (List.finRange 4), p.2.Fits τ n.areaID sender p.1
  | .acknowledgement _ headers => ∀ h ∈ headers, Typed τ h
  | .originate areaID lsa => Typed τ lsa.header ∧
      s.Below (databaseKey areaID lsa.header) lsa.header.lsSequenceNumber ∧
      ∀ e, s.database (databaseKey areaID lsa.header) = some e → ∀ n ∈ s.neighbors,
        ∀ x ∈ n.retransmissionList, x.header.key = lsa.header.key →
          x.header.isOlder lsa.header = true
  | .refresh areaID k lsa => Typed τ lsa.header ∧ databaseKey areaID lsa.header = k ∧
      s.Below k lsa.header.lsSequenceNumber
  | .age database => ∀ k e', database k = some e' → ∃ e, s.database k = some e ∧
      e'.lsa.header = { e.lsa.header with lsAge := e'.lsa.header.lsAge }
  | .reset _ _ => True
  | .advance _ _ requestList => ∀ h ∈ requestList, ¬ OwnID env h.linkStateID
  | .elect i isDesignatedRouter => isDesignatedRouter = true → ∀ n, s.neighbors[i]? = some n →
      τ ⟨n.interfaceAddress, env.routerID⟩ = .networkLSA ∧ env.isLocalAddress n.interfaceAddress = true

/-- What takes an LSA off the list of neighbor `j`, which is `n'` then: the neighbor has sent an instance
that succeeds it or acknowledges it, it is reset (also on a bad request), or this router installs an
instance that succeeds it. -/
def State.Event.TakesOff (j : ℕ) (n' : Neighbor β) (x : LSA β) : State.Event β → Prop
  | .update sender lsas => j = sender ∧
      ((∃ l, (∃ t, l ∈ lsas t) ∧ Succeeds x.header l.header) ∨ n'.state = .exchangeStart)
  | .acknowledgement sender headers => j = sender ∧
      ∃ h ∈ headers, x.header.sameLSA h = true ∧ h.sameInstance x.header = true
  | .originate _ lsa => Succeeds x.header lsa.header
  | .reset i _ => j = i
  | .refresh .. | .age _ | .advance .. | .elect .. => False

/-- Every LSA on a list stays there, makes way for one that succeeds it, or is taken off by the event. -/
def State.Leaves (e : State.Event β) (s s' : State β) : Prop :=
  ∀ j n, s.neighbors[j]? = some n → ∃ n', s'.neighbors[j]? = some n' ∧
    ∀ x ∈ n.retransmissionList,
      (∃ y ∈ n'.retransmissionList, Succeeds x.header y.header) ∨ e.TakesOff j n' x

section Events

variable {env : Env β} {τ : LSAKey → LSAType} {s s' : State β} {i : ℕ} {n n' : Neighbor β} {lsa : LSA β}
  {areaID : IPAddress} {e : State.Event β} {D : IPAddress → Prop} {F : LSA β → Prop} {moved : ℕ → Prop}

theorem State.Leaves.refl (e : State.Event β) (s : State β) : s.Leaves e s :=
  fun _ n hn ↦ ⟨n, hn, fun x hx ↦ .inl ⟨x, hx, .refl _⟩⟩

theorem State.Leaves.setNeighbor (hi : s.neighbors[i]? = some n)
    (h : ∀ x ∈ n.retransmissionList, x ∈ n'.retransmissionList ∨ e.TakesOff i n' x) :
    s.Leaves e (s.setNeighbor i n') := by
  intro j m hm
  by_cases hij : i = j
  · subst hij
    rw [hi] at hm
    cases hm
    refine ⟨n', List.getElem?_set_self (List.getElem?_eq_some_iff.mp hi).1, fun x hx ↦ ?_⟩
    exact (h x hx).imp_left fun hmem ↦ ⟨x, hmem, .refl _⟩
  · exact ⟨m, (List.getElem?_set_ne hij).trans hm, fun x hx ↦ .inl ⟨x, hx, .refl _⟩⟩

theorem Kept.leaves (h : Kept env τ D F moved s s') (e : State.Event β) : s.Leaves e s' := by
  intro j n hn
  obtain ⟨n', hn', hgrown, _⟩ := h.neighbors j n hn
  refine ⟨n', hn', fun x hx ↦ .inl ?_⟩
  obtain ⟨y, hy, _, hs⟩ := hgrown.keeps x hx
  exact ⟨y, hy, hs⟩

theorem mem_foldl_acknowledge {headers : List LSAHeader} (h : Faithful τ n)
    (hall : ∀ hd ∈ headers, Typed τ hd) {x : LSA β} (hx : x ∈ n.retransmissionList) :
    x ∈ (headers.foldl Neighbor.acknowledge n).retransmissionList ∨
      ∃ hd ∈ headers, x.header.sameLSA hd = true ∧ hd.sameInstance x.header = true := by
  induction headers generalizing n with
  | nil => exact .inl hx
  | cons hd headers ih =>
    have htyped := hall hd List.mem_cons_self
    have hone : x ∈ (n.acknowledge hd).retransmissionList ∨
        x.header.sameLSA hd = true ∧ hd.sameInstance x.header = true := by
      unfold Neighbor.acknowledge
      cases hfind : n.retransmissionList.find? fun x ↦ x.header.key == hd.key with
      | none => exact .inl hx
      | some y =>
        have hymem := List.mem_of_find?_eq_some hfind
        have hykey : y.header.key = hd.key := by simpa using List.find?_some hfind
        dsimp only
        split
        · rename_i hsame
          by_cases hkey : x.header.key = hd.key
          · have hxy : x = y := List.inj_on_of_nodup_map h.unique hx hymem (hkey.trans hykey.symm)
            refine .inr ⟨?_, hxy ▸ hsame⟩
            rw [(h.typed x hx).sameLSA_eq htyped]
            simp [LSAHeader.sameKey, hkey]
          · exact .inl (List.mem_filter.mpr ⟨hx, by simpa using hkey⟩)
        · exact .inl hx
    rcases hone with hmem | hack
    · rcases ih (h.acknowledge htyped) (fun y hy ↦ hall y (List.mem_cons_of_mem hd hy)) hmem with
        hmem' | ⟨hd', hhd', hack⟩
      · exact .inl hmem'
      · exact .inr ⟨hd', List.mem_cons_of_mem hd hhd', hack⟩
    · exact .inr ⟨hd, List.mem_cons_self, hack⟩

theorem Faithful.foldl_acknowledge {headers : List LSAHeader} (h : Faithful τ n)
    (hall : ∀ hd ∈ headers, Typed τ hd) :
    Faithful τ (headers.foldl Neighbor.acknowledge n) ∧
      (headers.foldl Neighbor.acknowledge n).isDesignatedRouter = n.isDesignatedRouter ∧
      (headers.foldl Neighbor.acknowledge n).interfaceAddress = n.interfaceAddress ∧
      (headers.foldl Neighbor.acknowledge n).areaID = n.areaID ∧
      (headers.foldl Neighbor.acknowledge n).requestList = n.requestList ∧
      ∀ x ∈ (headers.foldl Neighbor.acknowledge n).retransmissionList, x ∈ n.retransmissionList := by
  induction headers generalizing n with
  | nil => exact ⟨h, rfl, rfl, rfl, rfl, fun _ hx ↦ hx⟩
  | cons hd headers ih =>
    obtain ⟨hn, hrole, haddress, harea, hrequests, hsub⟩ := ih (h.acknowledge (hall hd List.mem_cons_self))
      fun x hx ↦ hall x (List.mem_cons_of_mem hd hx)
    refine ⟨hn, hrole, haddress, harea, hrequests, fun x hx ↦ ?_⟩
    have hmem := hsub x hx
    unfold Neighbor.acknowledge at hmem
    dsimp only at hmem
    split at hmem
    · exact hmem
    · split at hmem
      · exact (List.mem_filter.mp hmem).1
      · exact hmem

theorem mem_of_removeSuperseded {x : LSA β} (hx : x ∈ (n.removeSuperseded lsa).retransmissionList) :
    x ∈ n.retransmissionList := (List.mem_filter.mp hx).1

theorem Inv.removeFromAllRetransmissionLists (h : Inv env τ s) (area : Option IPAddress)
    (hlsa : Typed τ lsa.header)
    (hold : ∀ n ∈ s.neighbors, ∀ x ∈ n.retransmissionList, x.header.key = lsa.header.key →
      x.header.isOlder lsa.header = true) :
    Inv env τ (s.removeFromAllRetransmissionLists area lsa) := by
  refine ⟨fun m hm ↦ ?_, h.stored, fun m hm ↦ ?_, fun m hm ↦ ?_, fun m hm ↦ ?_⟩
  all_goals
    obtain ⟨n, hn, rfl⟩ := List.mem_map.mp hm
    split
  · exact (h.faithful n hn).removeSuperseded hlsa (hold n hn)
  · exact h.faithful n hn
  · exact h.own n hn
  · exact h.own n hn
  · exact h.requests n hn
  · exact h.requests n hn
  · exact fun x hx ↦ h.covered n hn x (mem_of_removeSuperseded hx)
  · exact h.covered n hn

/-- An own LSA is installed: only what it succeeds goes from the lists. -/
theorem Inv.store (h : Inv env τ s) (hlsa : Typed τ lsa.header)
    (hbelow : s.Below (databaseKey areaID lsa.header) lsa.header.lsSequenceNumber)
    (hold : ∀ e, s.database (databaseKey areaID lsa.header) = some e → ∀ n ∈ s.neighbors,
      ∀ x ∈ n.retransmissionList, x.header.key = lsa.header.key → x.header.isOlder lsa.header = true) :
    Inv env τ (s.store (some areaID) (databaseKey areaID lsa.header) lsa) ∧
      s.Leaves (.originate areaID lsa) (s.store (some areaID) (databaseKey areaID lsa.header) lsa) ∧
      (s.store (some areaID) (databaseKey areaID lsa.header) lsa).database
        (databaseKey areaID lsa.header) = some ⟨lsa, true, 0⟩ := by
  cases hk : s.database (databaseKey areaID lsa.header) with
  | none =>
    obtain ⟨hinv, hneighbors, hstored⟩ := h.store_of_none hk (some areaID) hlsa rfl hbelow
    refine ⟨hinv, fun j n hn ↦ ⟨n, ?_, fun x hx ↦ .inl ⟨x, hx, .refl _⟩⟩, hstored⟩
    rwa [hneighbors]
  | some e =>
    let s₁ := s.removeFromAllRetransmissionLists (some areaID) lsa
    have hs₁ : Inv env τ s₁ := h.removeFromAllRetransmissionLists (some areaID) hlsa (hold e hk)
    have hbelow₁ : s₁.Below (databaseKey areaID lsa.header) lsa.header.lsSequenceNumber := by
      apply hbelow.mono
      intro n' hn'
      obtain ⟨n, hn, rfl⟩ := List.mem_map.mp hn'
      refine ⟨n, hn, ?_⟩
      split
      · exact ⟨rfl, fun _ ↦ mem_of_removeSuperseded⟩
      · exact ⟨rfl, fun _ hx ↦ hx⟩
    unfold State.store
    rw [hk]
    refine ⟨hs₁.setStored (y := ⟨lsa, true, 0⟩) hlsa ⟨areaID, rfl⟩ hbelow₁, fun j n hn ↦ ?_,
      Function.update_self ..⟩
    refine ⟨_, (List.getElem?_map ..).trans (congrArg _ hn), fun x hx ↦ ?_⟩
    have hmem := List.mem_of_getElem? hn
    dsimp only
    split
    · by_cases hkey : x.header.key = lsa.header.key
      · refine .inr (.of_typed ((h.faithful n hmem).typed x hx) hlsa hkey.symm ?_)
        exact le_of_isOlder (hold e hk n hmem x hx hkey)
      · exact .inl ⟨x, List.mem_filter.mpr ⟨hx, by simpa using hkey⟩, .refl _⟩
    · exact .inl ⟨x, hx, .refl _⟩

theorem State.Leaves.trans_kept {s'' : State β} (h : s.Leaves (.originate areaID lsa) s') (h' : Kept env τ D F moved s' s'') :
    s.Leaves (.originate areaID lsa) s'' := by
  intro j n hn
  obtain ⟨n', hn', hx'⟩ := h j n hn
  obtain ⟨n'', hn'', hgrown, _⟩ := h'.neighbors j n' hn'
  refine ⟨n'', hn'', fun x hx ↦ ?_⟩
  rcases hx' x hx with ⟨y, hy, hs⟩ | htaken
  · obtain ⟨z, hz, _, hs'⟩ := hgrown.keeps y hy
    exact .inl ⟨z, hz, hs.trans hs'⟩
  · exact .inr htaken

theorem State.Passes.leaves {sender : ℕ} {lsas : Fin 4 → List (LSA β)}
    (h : s.Passes env (fun l ↦ ∃ t, l ∈ lsas t) sender s') : s.Leaves (.update sender lsas) s' := by
  intro j n hn
  obtain ⟨n', hn', hpassed⟩ := h j n hn
  refine ⟨n', hn', fun x hx ↦ (hpassed.keeps x hx).imp_left ?_⟩
  rintro ⟨y, hy, _, hs⟩
  exact ⟨y, hy, hs⟩

/-- When the database ages, the sequence numbers stay. -/
theorem Inv.age (h : Inv env τ s) {database : DatabaseKey → Option (Stored β)}
    (he : s.Allowed env τ (.age database)) : Inv env τ { s with database } := by
  have hstored : ∀ k e', database k = some e' → ∃ e, s.database k = some e ∧
      Typed τ e'.lsa.header ∧ (∃ areaID, databaseKey areaID e'.lsa.header = k) ∧
      e'.lsa.header.lsSequenceNumber = e.lsa.header.lsSequenceNumber := by
    intro k e' he'
    obtain ⟨e, hk, hheader⟩ := he k e' he'
    obtain ⟨htyped, areaID, hplace⟩ := h.stored k e hk
    refine ⟨e, hk, ?_, ⟨areaID, ?_⟩, ?_⟩
    all_goals rw [hheader]
    · exact htyped
    · exact hplace
  refine ⟨h.faithful, fun k e' he' ↦ ?_, h.own, h.requests, fun n hn x hx e' he' ↦ ?_⟩
  · obtain ⟨e, _, htyped, hplace, _⟩ := hstored k e' he'
    exact ⟨htyped, hplace⟩
  · obtain ⟨e, hk, _, _, hnumber⟩ := hstored _ e' he'
    rw [hnumber]
    exact h.covered n hn x hx e hk

variable (hrouter : τ ⟨env.routerID, env.routerID⟩ = .routerLSA)

include hrouter

theorem outcome_processUpdate (h : Inv env τ s) {sender : ℕ} {lsas : Fin 4 → List (LSA β)}
    (he : s.Allowed env τ (.update sender lsas)) :
    Outcome (s.processUpdate env sender lsas) (fun s' ↦ Inv env τ s' ∧
      s.Passes env (fun l ↦ ∃ t, l ∈ lsas t) sender s' ∧
      ∀ n, s.neighbors[sender]? = some n → n.state.isExchanging = true →
        ∀ p ∈ s.packetTurns env n sender lsas (List.finRange 4),
          p.2.Accepts n.areaID n.externalRoutingCapability p.1 →
            p.2.Assigned env n.areaID sender p.1 (fun l ↦ ∃ t, l ∈ lsas t) s') (· = .noNeighbor) := by
  unfold State.processUpdate
  cases hi : s.neighbors[sender]? with
  | none => rfl
  | some n =>
    apply Outcome.ite
    · intro hstate
      apply (outcome_processTypes hrouter h (List.finRange 4) (he n hi hstate)).post
      rintro s' ⟨hinv, hpasses, hassigned⟩
      refine ⟨hinv, hpasses, fun m hm _ ↦ ?_⟩
      cases hm
      exact hassigned
    · intro hstate
      refine ⟨h, .refl s, fun m hm hstate' ↦ ?_⟩
      cases hm
      exact absurd hstate' hstate

theorem outcome_step (h : Inv env τ s) (e : State.Event β) (he : s.Allowed env τ e) :
    Outcome (s.step env e) (fun s' ↦ Inv env τ s' ∧ s.Leaves e s') (· = .noNeighbor) := by
  cases e with
  | update sender lsas =>
    exact (outcome_processUpdate hrouter h he).post fun _ hs' ↦ ⟨hs'.1, hs'.2.1.leaves⟩
  | acknowledgement sender headers =>
    dsimp only [State.step, State.processAcknowledgement]
    cases hi : s.neighbors[sender]? with
    | none => rfl
    | some n =>
      have hmem := List.mem_of_getElem? hi
      have hn := h.faithful n hmem
      obtain ⟨hn', hrole, haddress, harea, hrequests, hsub⟩ := hn.foldl_acknowledge he
      apply Outcome.ite
      · intro _
        refine ⟨h.setNeighbor hn' ?_ ?_ fun x hx ↦ ?_, .setNeighbor hi fun x hx ↦ ?_⟩
        · rw [hrole, haddress]
          exact h.own n hmem
        · rw [hrequests]
          exact h.requests n hmem
        · rw [harea]
          exact h.covered n hmem x (hsub x hx)
        · exact (mem_foldl_acknowledge hn he hx).imp_right fun hack ↦ ⟨rfl, hack⟩
      · intro _
        exact ⟨h, .refl _ s⟩
  | originate areaID lsa =>
    obtain ⟨hinv, hleaves, hstored⟩ := h.store he.1 he.2.1 he.2.2
    have hready := Ready.of_stored hinv he.1 hstored rfl
    apply (outcome_flood hrouter hinv hready none).mono
    · exact fun s' hs' ↦ ⟨hs'.1.inv, hleaves.trans_kept hs'.1⟩
    · exact fun _ ↦ False.elim
  | refresh areaID k lsa =>
    obtain ⟨htyped, hplace, hbelow⟩ := he
    have hinv : Inv env τ (s.setDatabase k lsa) :=
      h.setStored (y := ⟨lsa, true, 0⟩) htyped ⟨areaID, hplace⟩ hbelow
    have hready : Ready τ (s.setDatabase k lsa) areaID lsa :=
      .of_stored hinv htyped (e := ⟨lsa, true, 0⟩) (by rw [hplace]; exact Function.update_self ..) rfl
    apply (outcome_flood hrouter hinv hready none).mono
    · exact fun s' hs' ↦ ⟨hs'.1.inv, hs'.1.leaves _⟩
    · exact fun _ ↦ False.elim
  | age database => exact ⟨h.age he, .refl _ s⟩
  | reset i state =>
    dsimp only [State.step]
    cases hi : s.neighbors[i]? with
    | none => rfl
    | some n =>
      refine ⟨h.setNeighbor ⟨rfl, ?_, List.nodup_nil⟩ (h.own n (List.mem_of_getElem? hi)) ?_ ?_,
        .setNeighbor hi fun _ _ ↦ .inr rfl⟩
      all_goals
        intro x hx
        cases hx
  | advance i state requestList =>
    dsimp only [State.step]
    cases hi : s.neighbors[i]? with
    | none => rfl
    | some n =>
      have hmem := List.mem_of_getElem? hi
      have hn := h.faithful n hmem
      exact ⟨h.setNeighbor ⟨hn.eq, hn.typed, hn.unique⟩ (h.own n hmem) he (h.covered n hmem),
        .setNeighbor hi fun x hx ↦ .inl hx⟩
  | elect i isDesignatedRouter =>
    dsimp only [State.step]
    cases hi : s.neighbors[i]? with
    | none => rfl
    | some n =>
      have hmem := List.mem_of_getElem? hi
      have hn := h.faithful n hmem
      exact ⟨h.setNeighbor ⟨hn.eq, hn.typed, hn.unique⟩ (fun hrole ↦ he hrole n hi)
        (h.requests n hmem) (h.covered n hmem), .setNeighbor hi fun x hx ↦ .inl hx⟩

end Events

/-! ## Runs -/

/-- Nothing has been flooded yet. -/
structure State.Started (env : Env β) (τ : LSAKey → LSAType) (s : State β) : Prop where
  empty : ∀ n ∈ s.neighbors, n.retransmissionList = [] ∧ n.outstanding = []
  stored : ∀ k e, s.database k = some e → Typed τ e.lsa.header ∧
    ∃ areaID, databaseKey areaID e.lsa.header = k
  own : ∀ n ∈ s.neighbors, n.isDesignatedRouter = true →
    τ ⟨n.interfaceAddress, env.routerID⟩ = .networkLSA ∧ env.isLocalAddress n.interfaceAddress = true
  requests : ∀ n ∈ s.neighbors, ∀ h ∈ n.requestList, ¬ OwnID env h.linkStateID

theorem State.Started.inv {env : Env β} {τ : LSAKey → LSAType} {s : State β} (h : s.Started env τ) :
    Inv env τ s := by
  refine ⟨fun n hn ↦ ⟨?_, ?_, ?_⟩, h.stored, h.own, h.requests, fun n hn x hx ↦ ?_⟩
  · exact (h.empty n hn).1.trans (h.empty n hn).2.symm
  · intro x hx
    rw [(h.empty n hn).1] at hx
    cases hx
  · rw [(h.empty n hn).1]
    exact List.nodup_nil
  · rw [(h.empty n hn).1] at hx
    cases hx

/-- The lists are as they should be, each LSA once. What a packet makes the router accept is on the lists
of the neighbors that it is assigned to when the packet has been processed; what is on a list leaves it
for one of the reasons; and flooding comes to its end. -/
structure State.Reliable (env : Env β) (τ : LSAKey → LSAType) (s : State β) : Prop where
  lists : ∀ n ∈ s.neighbors, n.retransmissionList = n.outstanding ∧
    n.retransmissionList.Pairwise fun x y ↦ x.header.sameLSA y.header = false
  assigned : ∀ sender lsas s' n, s.Allowed env τ (.update sender lsas) →
    s.step env (.update sender lsas) = .ok s' → s.neighbors[sender]? = some n →
    n.state.isExchanging = true → ∀ p ∈ s.packetTurns env n sender lsas (List.finRange 4),
      p.2.Accepts n.areaID n.externalRoutingCapability p.1 →
        p.2.Assigned env n.areaID sender p.1 (fun l ↦ ∃ t, l ∈ lsas t) s'
  leaves : ∀ e s', s.Allowed env τ e → s.step env e = .ok s' → s.Leaves e s'
  finite : ∀ e, s.Allowed env τ e → s.step env e ≠ .error .endless

/-- Flooding is reliable in every run of this kind. -/
theorem reliable_flooding (env : Env β) (τ : LSAKey → LSAType) {s : State β}
    (hrouter : τ ⟨env.routerID, env.routerID⟩ = .routerLSA)
    (h : Reachable (State.Started env τ) (State.Allowed env τ) (State.step env) s) :
    s.Reliable env τ := by
  obtain ⟨hs, hstep⟩ := h.outcome (fun _ ↦ State.Started.inv) fun s e hs he ↦
    (outcome_step hrouter hs e he).post fun _ hs' ↦ hs'.1
  constructor
  case lists =>
    intro n hn
    refine ⟨(hs.faithful n hn).eq, ?_⟩
    apply (List.pairwise_map.mp (hs.faithful n hn).unique).imp
    intro x y hxy
    simp [LSAHeader.sameLSA, LSAHeader.sameKey, hxy]
  case assigned =>
    intro sender lsas s' n he hok hi hstate
    exact ((outcome_processUpdate hrouter hs he).of_eq_ok hok).2.2 n hi hstate
  case leaves =>
    intro e s' he hok
    exact ((outcome_step hrouter hs e he).of_eq_ok hok).2
  case finite =>
    intro e he herror
    cases (hstep e he).of_eq_error herror

/-- A neighbor that is fully adjacent. -/
def fullNeighbor : Neighbor Unit where
  areaID := 1
  isVirtual := false
  externalRoutingCapability := true
  isDesignatedRouter := false
  interfaceAddress := 100
  state := .full
  requestList := []
  retransmissionList := []
  outstanding := []

def routerLSA (lsSequenceNumber : ℤ) : LSA Unit :=
  ⟨⟨10, .routerLSA, 5, 5, lsSequenceNumber, 0⟩, ()⟩

/-- A router with the ID 9. -/
def routerNine : Env Unit where
  routerID := 9
  routerContents _ _ := ()
  networkContents _ _ := ()
  isLocalAddress _ := false
  isEquivalent _ _ := false

def firstUpdate : State.Event Unit := .update 0 fun t ↦ if t.val = 0 then [routerLSA 1] else []

def twoNeighbors : State Unit := ⟨[fullNeighbor, fullNeighbor], fun _ ↦ none⟩

theorem eq_of_mem_packetTurns {s : State Unit} {n : Neighbor Unit} {lsa : LSA Unit} {p : LSA Unit × State Unit}
    (hp : p ∈ s.packetTurns routerNine n 0 (fun t ↦ if t.val = 0 then [lsa] else [])
      (List.finRange 4)) : p = (lsa, s) := by
  have hrest : ∀ (types : List (Fin 4)) (s : State Unit), (∀ t ∈ types, t.val ≠ 0) →
      s.packetTurns routerNine n 0 (fun t ↦ if t.val = 0 then [lsa] else []) types = [] := by
    intro types
    induction types with
    | nil => exact fun _ _ ↦ rfl
    | cons t types ih =>
      intro s htypes
      unfold State.packetTurns
      rw [if_neg (htypes t List.mem_cons_self)]
      exact ih s fun t' ht' ↦ htypes t' (List.mem_cons_of_mem t ht')
  have hfour : List.finRange 4 = [0, 1, 2, 3] := by decide
  rw [hfour] at hp
  unfold State.packetTurns at hp
  have hzero : (0 : Fin 4).val = 0 := rfl
  rw [if_pos hzero] at hp
  rcases List.mem_append.mp hp with hp | hp
  · unfold State.turns at hp
    rcases List.mem_cons.mp hp with rfl | hp
    · rfl
    · split at hp
      · cases hp
      · cases hp
  · split at hp
    · rw [hrest _ _ (by decide)] at hp
      cases hp
    · cases hp

/-- The first instance gets to the other neighbor. -/
theorem reliable_flooding_first : ∃ s, twoNeighbors.step routerNine firstUpdate = .ok s ∧
    s.neighbors.map (·.retransmissionList.map (·.header)) = [[], [(routerLSA 1).header]] ∧
    twoNeighbors.Reliable routerNine (fun _ ↦ .routerLSA) ∧ s.Reliable routerNine fun _ ↦ .routerLSA := by
  have hfull : ∀ n ∈ twoNeighbors.neighbors, n = fullNeighbor := by
    intro n hn
    simpa [twoNeighbors] using hn
  have hstarted : State.Started routerNine (fun _ ↦ .routerLSA) twoNeighbors := by
    refine ⟨fun n hn ↦ ?_, fun k e hk ↦ ?_, fun n hn hrole ↦ ?_, fun n hn hd hhd ↦ ?_⟩
    · rw [hfull n hn]
      exact ⟨rfl, rfl⟩
    · cases hk
    · rw [hfull n hn] at hrole
      cases hrole
    · rw [hfull n hn] at hhd
      cases hhd
  have hallowed : State.Allowed routerNine (fun _ ↦ .routerLSA) twoNeighbors firstUpdate := by
    intro n _ _ p hp
    rw [eq_of_mem_packetTurns hp]
    refine ⟨rfl, fun e he ↦ ?_, fun _ n hn x hx ↦ ?_, fun e he ↦ ?_⟩
    · cases he
    · rw [hfull n hn] at hx
      cases hx
    · cases he
  obtain ⟨s, hstep, hcheck⟩ := exists_ok (twoNeighbors.step routerNine firstUpdate)
    (fun s ↦ s.neighbors.map (·.retransmissionList.map (·.header)) = [[], [(routerLSA 1).header]])
    (by decide +kernel)
  have hreach := (Reachable.start hstarted).next hallowed hstep
  exact ⟨s, hstep, hcheck,
    reliable_flooding routerNine (fun _ ↦ .routerLSA) rfl (.start hstarted),
    reliable_flooding routerNine (fun _ ↦ .routerLSA) rfl hreach⟩

/-- Two neighbors, and the first instance in the database. -/
def firstStored : State Unit where
  neighbors := [fullNeighbor, fullNeighbor]
  database k := if k = .router 1 5 then some ⟨routerLSA 1, true, 1⟩ else none

def secondUpdate : State.Event Unit := .update 0 fun t ↦ if t.val = 0 then [routerLSA 2] else []

/-- The next instance is taken off the list of the other neighbor on which it has just been put. -/
theorem newer_instance_lost : ∃ s, firstStored.step routerNine secondUpdate = .ok s ∧
    s.neighbors.map (·.outstanding.map (·.header)) = [[], [(routerLSA 2).header]] ∧
    s.neighbors.map (·.retransmissionList.map (·.header)) = [[], []] := by
  obtain ⟨s, hstep, hcheck⟩ := exists_ok (firstStored.step routerNine secondUpdate)
    (fun s ↦ s.neighbors.map (·.outstanding.map (·.header)) = [[], [(routerLSA 2).header]] ∧
      s.neighbors.map (·.retransmissionList.map (·.header)) = [[], []]) (by decide +kernel)
  exact ⟨s, hstep, hcheck⟩

end InetManet.OSPF
