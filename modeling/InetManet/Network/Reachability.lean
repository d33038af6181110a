import InetManet.Network.AddressResolution

/-!
# Reachability is confirmed

The history of a run is the list of its steps. An entry is reachable because of the last advertisement
that changed or confirmed its link-layer address. Only an unsolicited advertisement that overrides the
address of an entry in use breaks this: the address is stored before it is compared.
-/

namespace InetManet

open TransitionSystem

namespace NeighbourDiscovery

variable {cfg : Config} {s s' s'' : NeighbourDiscovery} {p m : ℕ} {n n' : Neighbour} {key : Key}

/-! ## What other events do -/

/-- Addresses stay, nothing becomes reachable, and only an entry without address becomes incomplete. -/
def Neighbour.Keeps (n n' : Neighbour) : Prop :=
  n'.macAddress = n.macAddress ∧
    (n'.reachabilityState = .reachable → n.reachabilityState = .reachable) ∧
    (n'.reachabilityState = .incomplete → n.reachabilityState = .incomplete ∨ n.macAddress = 0)

/-- What a new entry looks like. -/
def Neighbour.IsNew (n : Neighbour) : Prop :=
  n.reachabilityState ≠ .reachable ∧ (n.reachabilityState = .incomplete → n.macAddress = 0)

/-- No entry gets an address or becomes reachable. -/
def Keeps (s s' : NeighbourDiscovery) : Prop :=
  ∀ p n', s'.heap p = some n' → n'.IsNew ∨ ∃ n, s.heap p = some n ∧ n.Keeps n'

theorem Neighbour.keeps_self (n : Neighbour) : n.Keeps n := ⟨rfl, id, .inl⟩

theorem Keeps.of_heap (h : s'.heap = s.heap) : Keeps s s' := by
  intro p n' hp
  rw [h] at hp
  exact .inr ⟨n', hp, n'.keeps_self⟩

theorem Keeps.trans (h : Keeps s s') (h' : Keeps s' s'') : Keeps s s'' := by
  intro p n'' hp
  rcases h' p n'' hp with hnew | ⟨n', hp', hmac', hreachable', hincomplete'⟩
  · exact .inl hnew
  · rcases h p n' hp' with ⟨hnot, hunknown⟩ | ⟨n, hn, hmac, hreachable, hincomplete⟩
    · left
      refine ⟨fun hstate ↦ hnot (hreachable' hstate), ?_⟩
      intro hstate
      rw [hmac']
      rcases hincomplete' hstate with hstate | hzero
      · exact hunknown hstate
      · exact hzero
    · right
      refine ⟨n, hn, hmac'.trans hmac, fun hstate ↦ hreachable (hreachable' hstate), ?_⟩
      intro hstate
      rcases hincomplete' hstate with hstate | hzero
      · exact hincomplete hstate
      · exact .inr (hmac ▸ hzero)

theorem Keeps.of_update (hheap : s'.heap = Function.update s.heap p (some n'))
    (h : n'.IsNew ∨ ∃ n, s.heap p = some n ∧ n.Keeps n') : Keeps s s' := by
  intro q m hq
  rw [hheap] at hq
  by_cases hqp : q = p
  · subst hqp
    rw [Function.update_self, Option.some.injEq] at hq
    subst hq
    exact h
  · rw [Function.update_of_ne hqp] at hq
    exact .inr ⟨m, hq, m.keeps_self⟩

theorem Keeps.of_erase (hheap : s'.heap = Function.update s.heap p none) : Keeps s s' := by
  intro q m hq
  rw [hheap] at hq
  by_cases hqp : q = p
  · subst hqp
    rw [Function.update_self] at hq
    cases hq
  · rw [Function.update_of_ne hqp] at hq
    exact .inr ⟨m, hq, m.keeps_self⟩

theorem heap_unqueue (entry : ℕ → LogEntry) (s : NeighbourDiscovery) (packets : List ℕ) :
    (unqueue entry s packets).heap = s.heap := by
  rw [unqueue_eq]

theorem outcome_deleteMessage_heap :
    Outcome (s.deleteMessage m) (fun s' ↦ s'.heap = s.heap) fun _ ↦ True := by
  apply outcome_deleteMessage.post
  rintro _ ⟨_, _, _, rfl⟩
  rfl

theorem outcome_setScheduled_heap {scheduled : Bool} :
    Outcome (s.setScheduled m scheduled) (fun s' ↦ s'.heap = s.heap) fun _ ↦ True := by
  apply outcome_setScheduled.post
  rintro _ ⟨_, _, rfl⟩
  rfl

theorem outcome_cancelEvent_heap :
    Outcome (s.cancelEvent m) (fun s' ↦ s'.heap = s.heap) fun _ ↦ True := outcome_setScheduled_heap

theorem keeps_remove : Outcome (s.remove key) (Keeps s) fun _ ↦ True := by
  unfold remove
  cases s.lookup key with
  | none => trivial
  | some p =>
    apply outcome_read (fun _ ↦ trivial)
    intro n _
    cases n.nudTimeoutEvent with
    | none => exact Keeps.of_erase rfl
    | some m =>
      apply outcome_deleteMessage_heap.bind
      intro s' hheap
      exact (Keeps.of_heap hheap).trans (Keeps.of_erase rfl)

theorem keeps_initiateAddressResolution {dgSrcAddr : IPv6Address}
    (hn : ∀ n, s.heap p = some n → n.macAddress = 0) :
    Outcome (s.initiateAddressResolution cfg dgSrcAddr p) (Keeps s) fun _ ↦ True := by
  unfold initiateAddressResolution
  apply outcome_read (fun _ ↦ trivial)
  intro n hp
  apply Outcome.ite
  · intro _
    trivial
  · intro _
    apply Keeps.of_update (p := p) rfl
    left
    exact ⟨nofun, fun _ ↦ hn n hp⟩

theorem keeps_queuePacket {packet : ℕ} :
    Outcome (s.queuePacket p packet) (Keeps s) fun _ ↦ True := by
  unfold queuePacket
  apply outcome_read (fun _ ↦ trivial)
  intro n hp
  exact Keeps.of_update (p := p) rfl (.inr ⟨n, hp, rfl, id, .inl⟩)

theorem keeps_dropQueuedPacketsAwaitingAR :
    Outcome (s.dropQueuedPacketsAwaitingAR p) (Keeps s) fun _ ↦ True := by
  unfold dropQueuedPacketsAwaitingAR
  apply outcome_read (fun _ ↦ trivial)
  intro n _
  apply keeps_remove.post
  intro s' hs'
  refine Keeps.trans (Keeps.of_heap ?_) hs'
  rw [heap_unqueue]
  rfl

theorem keeps_processARTimeout : Outcome (s.processARTimeout cfg m p) (Keeps s) fun _ ↦ True := by
  unfold processARTimeout
  apply outcome_read (fun _ ↦ trivial)
  intro n hp
  apply Outcome.ite
  · intro _
    apply outcome_setScheduled_heap.post
    intro s' hheap
    refine Keeps.trans ?_ (Keeps.of_heap hheap)
    exact Keeps.of_update (p := p) rfl (.inr ⟨n, hp, rfl, id, .inl⟩)
  · intro _
    apply keeps_dropQueuedPacketsAwaitingAR.bind
    intro s' hs'
    apply outcome_deleteMessage_heap.post
    intro s'' hheap
    exact hs'.trans (Keeps.of_heap hheap)

theorem keeps_initiateDetection :
    Outcome (s.initiateNeighbourUnreachabilityDetection p) (Keeps s) fun _ ↦ True := by
  unfold initiateNeighbourUnreachabilityDetection
  apply outcome_read (fun _ ↦ trivial)
  intro n hp
  apply Outcome.ite
  · intro _
    exact Keeps.of_update (p := p) rfl (.inr ⟨n, hp, rfl, nofun, nofun⟩)
  · intro _
    trivial

theorem keeps_processNUDTimeout : Outcome (s.processNUDTimeout cfg m p) (Keeps s) fun _ ↦ True := by
  unfold processNUDTimeout
  apply outcome_read (fun _ ↦ trivial)
  intro n hp
  dsimp only
  have hkeeps : n.Keeps (if n.reachabilityState = .delay then
      { n with reachabilityState := .probe, numProbesSent := 0 } else n) := by
    split
    · exact ⟨rfl, nofun, nofun⟩
    · exact n.keeps_self
  generalize (if n.reachabilityState = .delay then
      { n with reachabilityState := .probe, numProbesSent := 0 } else n : Neighbour) = n' at hkeeps ⊢
  apply Outcome.ite
  · intro _
    apply keeps_remove.post
    intro s' hs'
    exact (Keeps.of_update (p := p) rfl (.inr ⟨n, hp, hkeeps⟩)).trans hs'
  · intro _
    apply outcome_setScheduled_heap.post
    intro s' hheap
    refine Keeps.trans ?_ (Keeps.of_heap hheap)
    exact Keeps.of_update (p := p) rfl (.inr ⟨n, hp, hkeeps⟩)

theorem keeps_resolveNeighbour {simTime : ℚ} :
    Outcome (s.resolveNeighbour simTime key) (fun x ↦ Keeps s x.2) fun _ ↦ True := by
  unfold resolveNeighbour
  cases s.lookup key with
  | none => exact Keeps.of_heap rfl
  | some p =>
    apply outcome_read (fun _ ↦ trivial)
    intro n hp
    cases n.reachabilityState with
    | incomplete => exact Keeps.of_heap rfl
    | delay => exact Keeps.of_heap rfl
    | probe => exact Keeps.of_heap rfl
    | stale =>
      apply keeps_initiateDetection.bind
      intro s' hs'
      exact hs'
    | reachable =>
      apply Outcome.ite
      · intro _
        apply keeps_initiateDetection.bind
        intro s' hs'
        refine Keeps.trans ?_ hs'
        exact Keeps.of_update (p := p) rfl (.inr ⟨n, hp, rfl, nofun, nofun⟩)
      · intro _
        exact Keeps.of_heap rfl

theorem keeps_reachabilityConfirmed : Outcome (s.reachabilityConfirmed key) (Keeps s) fun _ ↦ True := by
  unfold reachabilityConfirmed
  cases s.lookup key with
  | none => trivial
  | some p =>
    apply outcome_read (fun _ ↦ trivial)
    intro n _
    cases n.nudTimeoutEvent with
    | none => exact Keeps.of_heap rfl
    | some m =>
      apply outcome_cancelEvent_heap.bind
      intro s' hheap
      apply outcome_deleteMessage_heap.post
      intro s'' hheap'
      exact Keeps.of_heap (hheap'.trans hheap)

theorem keeps_sendOrQueue {packet : ℕ} {msg : Datagram} :
    Outcome (s.sendOrQueue cfg packet msg key) (Keeps s) fun _ ↦ True := by
  unfold sendOrQueue
  cases hlookup : s.lookup key with
  | none =>
    simp only [addNeighbour, hlookup]
    rw [ok_bind]
    dsimp only
    refine (keeps_initiateAddressResolution fun n hn ↦ ?_).bind fun s₁ h₁ ↦ ?_
    · dsimp only at hn
      rw [Function.update_self, Option.some.injEq] at hn
      rw [← hn]
    · apply keeps_queuePacket.post
      intro s₂ h₂
      refine (Keeps.trans (Keeps.of_update (p := s.fresh) rfl (.inl ?_)) h₁).trans h₂
      exact ⟨nofun, fun _ ↦ rfl⟩
  | some p =>
    apply outcome_read (fun _ ↦ trivial)
    intro n hp
    apply Outcome.ite (fun _ ↦ keeps_queuePacket)
    intro _
    apply Outcome.ite
    · intro hzero
      refine (keeps_initiateAddressResolution fun n' hn' ↦ ?_).bind fun s₁ h₁ ↦ ?_
      · rw [hp, Option.some.injEq] at hn'
        rw [← hn', hzero]
      · apply keeps_queuePacket.post
        intro s₂ h₂
        exact h₁.trans h₂
    · intro _
      cases n.reachabilityState with
      | stale =>
        apply keeps_initiateDetection.post
        intro s' hs'
        exact (Keeps.of_heap rfl).trans hs'
      | reachable => exact Keeps.of_heap rfl
      | delay => exact Keeps.of_heap rfl
      | incomplete => trivial
      | probe => trivial

theorem keeps_processIPv6Datagram {simTime : ℚ} {route : Option (IPv6Address × ℤ)} {msg : Datagram} :
    Outcome (s.processIPv6Datagram cfg simTime route msg) (Keeps s) fun _ ↦ True := by
  unfold processIPv6Datagram
  cases s.determineNextHop simTime route msg.destAddr with
  | error fault => trivial
  | ok key =>
    rw [ok_bind]
    cases key with
    | none => exact Keeps.of_heap rfl
    | some key =>
      apply keeps_sendOrQueue.post
      intro s' hs'
      exact (Keeps.of_heap rfl).trans hs'

theorem keeps_processTimeout : Outcome (s.processTimeout cfg m) (Keeps s) fun _ ↦ True := by
  unfold processTimeout
  cases s.messages m with
  | none => trivial
  | some x =>
    apply Outcome.ite
    · intro _
      cases x.kind with
      | nudTimeout =>
        apply keeps_processNUDTimeout.post
        intro s' hs'
        exact (Keeps.of_heap rfl).trans hs'
      | arTimeout =>
        apply keeps_processARTimeout.post
        intro s' hs'
        exact (Keeps.of_heap rfl).trans hs'
    · intro _
      trivial

/-! ## Solicitations and advertisements -/

/-- A solicitation changes an entry only into a stale one. -/
theorem stale_processNS {ns : Solicitation} :
    Outcome (s.processNSForNonTentativeAddress ns) (fun s' ↦ ∀ p n', s'.heap p = some n' →
      n'.reachabilityState = .stale ∨ ∃ n, s.heap p = some n ∧ n.Keeps n') fun _ ↦ True := by
  have hsame (e : LogEntry) (p : ℕ) (n' : Neighbour) (hp : (s.note e).heap p = some n') :
      n'.reachabilityState = .stale ∨ ∃ n, s.heap p = some n ∧ n.Keeps n' :=
    .inr ⟨n', hp, n'.keeps_self⟩
  have hwrite {q : ℕ} {n₁ : Neighbour} (hstale : n₁.reachabilityState = .stale) (p : ℕ) (n' : Neighbour)
      (hp : Function.update s.heap q (some n₁) p = some n') :
      n'.reachabilityState = .stale ∨ ∃ n, s.heap p = some n ∧ n.Keeps n' := by
    by_cases hpq : p = q
    · rw [hpq, Function.update_self, Option.some.injEq] at hp
      rw [← hp]
      exact .inl hstale
    · rw [Function.update_of_ne hpq] at hp
      exact .inr ⟨n', hp, n'.keeps_self⟩
  unfold processNSForNonTentativeAddress processNSWithSpecifiedSrcAddr updateSender
  apply Outcome.ite
  · intro _
    exact hsame _
  · intro _
    cases hlookup : s.lookup ⟨ns.srcAddr, ns.interfaceId⟩ with
    | none =>
      simp only [addNeighbour, hlookup]
      exact hwrite rfl
    | some p =>
      dsimp only
      unfold read
      cases hp : s.heap p with
      | none => trivial
      | some n =>
        dsimp only
        rw [ok_bind]
        split
        · exact hwrite rfl
        · exact hsame _

/-- The advertisement concerns the entry. -/
def Accepted (s : NeighbourDiscovery) (na : Advertisement) (p : ℕ) : Prop :=
  validateNAPacket na = true ∧ s.lookup ⟨na.targetAddress, na.interfaceId⟩ = some p

/-- What an advertisement does to the entry that it concerns. -/
inductive Advertised (na : Advertisement) (n n' : Neighbour) : Prop
  | kept : n.Keeps n' → Advertised na n n'
  | resolved : na.solicitedFlag = false → n.reachabilityState = .incomplete →
      n'.reachabilityState = .stale → Advertised na n n'
  | confirmed : na.solicitedFlag = true → n'.reachabilityState = .reachable →
      (na.targetLinkLayerAddress = 0 ∨ n'.macAddress = na.targetLinkLayerAddress) → Advertised na n n'
  | overwritten : na.solicitedFlag = false → na.overrideFlag = true → na.targetLinkLayerAddress ≠ 0 →
      n.macAddress ≠ na.targetLinkLayerAddress → n.reachabilityState ≠ .incomplete →
      n'.reachabilityState = n.reachabilityState → Advertised na n n'

/-- Only the entry of the target changes, as the advertisement says. -/
def AdvertisedAll (s : NeighbourDiscovery) (na : Advertisement) (s' : NeighbourDiscovery) : Prop :=
  ∀ p n', s'.heap p = some n' → ∃ n, s.heap p = some n ∧ (n.Keeps n' ∨ s.Accepted na p ∧ Advertised na n n')

section

variable {na : Advertisement}

theorem advertisedAll_of_heap (h : s'.heap = s.heap) : AdvertisedAll s na s' := by
  intro p n' hp
  rw [h] at hp
  exact ⟨n', hp, .inl n'.keeps_self⟩

theorem advertisedAll_of_update (hp : s.heap p = some n)
    (hheap : s'.heap = Function.update s.heap p (some n')) (hna : s.Accepted na p)
    (h : Advertised na n n') : AdvertisedAll s na s' := by
  intro q m hq
  rw [hheap] at hq
  by_cases hqp : q = p
  · subst hqp
    rw [Function.update_self, Option.some.injEq] at hq
    subst hq
    exact ⟨n, hp, .inr ⟨hna, h⟩⟩
  · rw [Function.update_of_ne hqp] at hq
    exact ⟨m, hq, .inl m.keeps_self⟩

theorem advertised_incomplete {simTime : ℚ} (hp : s.heap p = some n)
    (hna : s.Accepted na p) (hstate : n.reachabilityState = .incomplete) :
    Outcome (s.processNAForIncompleteNCEState cfg simTime na p) (AdvertisedAll s na) fun _ ↦ True := by
  unfold processNAForIncompleteNCEState
  rw [read, hp]
  dsimp only
  rw [ok_bind]
  apply Outcome.ite
  · intro _
    exact advertisedAll_of_heap rfl
  · intro hne
    have hwritten {n₁ : Neighbour} (h : Advertised na n { n₁ with pendingPackets := [] }) :
        Outcome ((s.write p n₁).sendQueuedPacketsToIPv6Module p) (AdvertisedAll s na) fun _ ↦ True := by
      unfold sendQueuedPacketsToIPv6Module read
      simp only [write, Function.update_self]
      rw [ok_bind]
      refine advertisedAll_of_update hp ?_ hna h
      rw [unqueue_eq]
      exact Function.update_idem _ _ _
    have hcancelled {s₁ : NeighbourDiscovery} (h : AdvertisedAll s na s₁) (m : ℕ) :
        Outcome (s₁.cancelEvent m) (AdvertisedAll s na) fun _ ↦ True := by
      apply outcome_cancelEvent_heap.post
      intro s₂ hheap p n' hp
      rw [hheap] at hp
      exact h p n' hp
    cases hsolicited : na.solicitedFlag with
    | false =>
      apply (hwritten (.resolved hsolicited hstate rfl)).bind
      intro s₁ h₁
      cases n.arTimer with
      | none => trivial
      | some m => exact hcancelled h₁ m
    | true =>
      apply (hwritten (.confirmed hsolicited rfl (.inr rfl))).bind
      intro s₁ h₁
      cases n.arTimer with
      | none => trivial
      | some m => exact hcancelled h₁ m

theorem advertised_other {simTime : ℚ} (hp : s.heap p = some n)
    (hna : s.Accepted na p) (hstate : n.reachabilityState ≠ .incomplete) :
    Outcome (s.processNAForOtherNCEStates cfg simTime na p) (AdvertisedAll s na) fun _ ↦ True := by
  unfold processNAForOtherNCEStates
  rw [read, hp]
  dsimp only
  rw [ok_bind]
  apply Outcome.ite
  · intro _
    split
    · apply advertisedAll_of_update hp rfl hna
      exact .kept ⟨rfl, by simp, by simp⟩
    · exact advertisedAll_of_heap rfl
  · intro hallowed
    cases hsolicited : na.solicitedFlag with
    | true =>
      simp only [if_true]
      by_cases hzero : na.targetLinkLayerAddress = 0
      · simp only [hzero, ne_eq, not_true_eq_false, if_false]
        split
        · refine outcome_cancelEvent_heap.bind fun s₁ h₁ ↦ ?_
          apply outcome_deleteMessage_heap.post
          intro s₂ h₂
          exact advertisedAll_of_update hp (h₂.trans h₁) hna (.confirmed hsolicited rfl (.inl hzero))
        · exact advertisedAll_of_update hp rfl hna (.confirmed hsolicited rfl (.inl hzero))
      · simp only [hzero, ne_eq, not_false_eq_true, if_true]
        split
        · refine outcome_cancelEvent_heap.bind fun s₁ h₁ ↦ ?_
          apply outcome_deleteMessage_heap.post
          intro s₂ h₂
          exact advertisedAll_of_update hp (h₂.trans h₁) hna (.confirmed hsolicited rfl (.inr rfl))
        · exact advertisedAll_of_update hp rfl hna (.confirmed hsolicited rfl (.inr rfl))
    | false =>
      simp only [Bool.false_eq_true, if_false]
      apply advertisedAll_of_update hp rfl hna
      by_cases hzero : na.targetLinkLayerAddress = 0
      · apply Advertised.kept
        simp only [hzero, ne_eq, not_true_eq_false, if_false]
        split
        · exact ⟨rfl, by simp, by simp⟩
        · exact ⟨rfl, id, .inl⟩
      · simp only [hzero, ne_eq, not_false_eq_true, if_true, not_true_eq_false, if_false]
        by_cases hsame : n.macAddress = na.targetLinkLayerAddress
        · exact .kept ⟨hsame.symm, id, .inl⟩
        · have hoverride : na.overrideFlag = true := by
            by_contra hnot
            exact hallowed ⟨Bool.eq_false_of_not_eq_true hnot, Ne.symm hsame, hzero⟩
          exact .overwritten hsolicited hoverride hzero hsame hstate rfl

theorem advertised_processNAPacket {simTime : ℚ} :
    Outcome (s.processNAPacket cfg simTime na) (AdvertisedAll s na) fun _ ↦ True := by
  unfold processNAPacket
  apply Outcome.ite
  · intro hvalid
    split
    · trivial
    · split
      · exact advertisedAll_of_heap rfl
      · rename_i p hlookup
        apply outcome_read (fun _ ↦ trivial)
        intro n hp
        apply Outcome.ite
        · exact advertised_incomplete hp ⟨hvalid, hlookup⟩
        · exact advertised_other hp ⟨hvalid, hlookup⟩
  · intro _
    exact advertisedAll_of_heap rfl

end

/-! ## Runs -/

structure Step where
  before : NeighbourDiscovery
  event : Event
  after : NeighbourDiscovery

def macAt (s : NeighbourDiscovery) (p : ℕ) : Option MACAddress := (s.heap p).map (·.macAddress)

/-- The advertisement changes the link-layer address of the entry or confirms it: it is solicited and
carries the address or none. -/
def Counts (s : NeighbourDiscovery) (na : Advertisement) (s' : NeighbourDiscovery) (p : ℕ) : Prop :=
  s.macAt p ≠ s'.macAt p ∨
    (validateNAPacket na = true ∧ s.lookup ⟨na.targetAddress, na.interfaceId⟩ = some p ∧
      na.solicitedFlag = true ∧
      (na.targetLinkLayerAddress = 0 ∨ s'.macAt p = some na.targetLinkLayerAddress))

instance {na : Advertisement} : Decidable (s.Counts na s' p) := inferInstanceAs (Decidable (_ ∨ _))

def Step.advertisement (p : ℕ) (x : Step) : Option Advertisement :=
  match x.event with
  | .advertisement _ na => if x.before.Counts na x.after p then some na else none
  | _ => none

/-- The newest step comes first. -/
def lastAdvertisement (p : ℕ) (history : List Step) : Option Advertisement :=
  history.findSome? (·.advertisement p)

/-- A state with the steps that have led to it, the newest first. -/
structure Recorded where
  state : NeighbourDiscovery
  history : List Step

def Recorded.step (cfg : Config) (r : Recorded) (e : Event) : Except Fault Recorded := do
  let s' ← r.state.step cfg e
  return ⟨s', ⟨r.state, e, s'⟩ :: r.history⟩

def Recorded.Started (r : Recorded) : Prop := r.state.Started ∧ r.history = []

/-- An unsolicited advertisement overrides the address of an entry that is neither incomplete nor
stale. -/
def Overwrites (s : NeighbourDiscovery) : Event → Prop
  | .advertisement _ na => validateNAPacket na = true ∧ na.solicitedFlag = false ∧ na.overrideFlag = true ∧
      na.targetLinkLayerAddress ≠ 0 ∧ ∃ p n, s.lookup ⟨na.targetAddress, na.interfaceId⟩ = some p ∧
        s.heap p = some n ∧ n.macAddress ≠ na.targetLinkLayerAddress ∧
        n.reachabilityState ≠ .incomplete ∧ n.reachabilityState ≠ .stale
  | _ => False

/-- Neither solicited nor a timeout: an unsolicited advertisement or a solicitation. -/
def Event.IsUnsolicited : Event → Prop
  | .solicitation _ => True
  | .advertisement _ na => na.solicitedFlag = false
  | _ => False

/-- The rule for the entries that are reachable. -/
def Recorded.Confirmed (r : Recorded) : Prop :=
  ∀ p n, r.state.heap p = some n → n.reachabilityState = .reachable →
    ∃ na, lastAdvertisement p r.history = some na ∧ na.solicitedFlag = true ∧
      (na.targetLinkLayerAddress = n.macAddress ∨ na.targetLinkLayerAddress = 0)

/-- Without a link-layer address an entry is incomplete. -/
def Unknown (s : NeighbourDiscovery) : Prop :=
  ∀ p n, s.heap p = some n → n.reachabilityState = .incomplete → n.macAddress = 0

theorem step_cases {e : Event} (h : s.step cfg e = .ok s') (hp : s'.heap p = some n') :
    (∃ simTime na, e = .advertisement simTime na ∧ ∃ n, s.heap p = some n ∧
      (n.Keeps n' ∨ s.Accepted na p ∧ Advertised na n n')) ∨
    ((∀ simTime na, e ≠ .advertisement simTime na) ∧
      (n'.IsNew ∨ (∃ n, s.heap p = some n ∧ n.Keeps n') ∨
        ∃ ns, e = .solicitation ns ∧ n'.reachabilityState = .stale)) := by
  have hkeeps (hs : Keeps s s') : n'.IsNew ∨ (∃ n, s.heap p = some n ∧ n.Keeps n') ∨
      ∃ ns, e = .solicitation ns ∧ n'.reachabilityState = .stale := by
    rcases hs p n' hp with hnew | hkeeps
    · exact .inl hnew
    · exact .inr (.inl hkeeps)
  unfold step at h
  cases e with
  | datagram simTime route msg =>
    exact .inr ⟨nofun, hkeeps (keeps_processIPv6Datagram.of_eq_ok h)⟩
  | solicitation ns =>
    right
    refine ⟨nofun, ?_⟩
    rcases stale_processNS.of_eq_ok h p n' hp with hstale | hkeeps
    · exact .inr (.inr ⟨ns, rfl, hstale⟩)
    · exact .inr (.inl hkeeps)
  | advertisement simTime na =>
    exact .inl ⟨simTime, na, rfl, advertised_processNAPacket.of_eq_ok h p n' hp⟩
  | resolveNeighbour simTime key =>
    dsimp only at h
    cases hr : s.resolveNeighbour simTime key with
    | error fault =>
      rw [hr] at h
      cases h
    | ok x =>
      rw [hr] at h
      cases h
      exact .inr ⟨nofun, hkeeps (keeps_resolveNeighbour.of_eq_ok hr)⟩
  | reachabilityConfirmed key => exact .inr ⟨nofun, hkeeps (keeps_reachabilityConfirmed.of_eq_ok h)⟩
  | timeout m => exact .inr ⟨nofun, hkeeps (keeps_processTimeout.of_eq_ok h)⟩

/-- What every run keeps. -/
def Recorded.Inv (r : Recorded) : Prop := r.Confirmed ∧ r.state.Unknown

theorem Unknown.step (hs : s.Unknown) {e : Event} (h : s.step cfg e = .ok s') : s'.Unknown := by
  have hkeeps {n n' : Neighbour} {p : ℕ} (hp : s.heap p = some n) (hn : n.Keeps n')
      (hstate : n'.reachabilityState = .incomplete) : n'.macAddress = 0 := by
    rw [hn.1]
    rcases hn.2.2 hstate with hbefore | hzero
    · exact hs p n hp hbefore
    · exact hzero
  intro p n' hp hstate
  rcases step_cases h hp with ⟨simTime, na, -, n, hn, hkept | ⟨-, hadvertised⟩⟩ |
    ⟨-, hnew | ⟨n, hn, hkept⟩ | ⟨ns, -, hstale⟩⟩
  · exact hkeeps hn hkept hstate
  · cases hadvertised with
    | kept hkept => exact hkeeps hn hkept hstate
    | resolved _ _ hstale => exact absurd (hstale.symm.trans hstate) nofun
    | confirmed _ hreachable _ => exact absurd (hreachable.symm.trans hstate) nofun
    | overwritten _ _ _ _ hne hsame => exact absurd (hsame.symm.trans hstate) hne
  · exact hnew.2 hstate
  · exact hkeeps hn hkept hstate
  · exact absurd (hstale.symm.trans hstate) nofun

theorem advertisement_eq {simTime : ℚ} {na : Advertisement} :
    (⟨s, .advertisement simTime na, s'⟩ : Step).advertisement p =
      if s.Counts na s' p then some na else none := rfl

theorem lastAdvertisement_cons (p : ℕ) (x : Step) (history : List Step) :
    lastAdvertisement p (x :: history) =
      match x.advertisement p with
      | some na => some na
      | none => lastAdvertisement p history := by
  rw [lastAdvertisement, List.findSome?_cons]
  cases x.advertisement p <;> rfl

theorem Recorded.Confirmed.step {r r' : Recorded} (hr : r.Confirmed) {e : Event} (he : ¬ r.state.Overwrites e)
    (h : r.step cfg e = .ok r') : r'.Confirmed := by
  obtain ⟨s', hstep, hr'⟩ := bind_ok_iff.mp h
  cases hr'
  intro p n' hp hreachable
  dsimp only at hp
  rw [lastAdvertisement_cons]
  rcases step_cases hstep hp with ⟨simTime, na, rfl, n, hn, hcases⟩ |
    ⟨hother, hnew | ⟨n, hn, hkept⟩ | ⟨ns, -, hstale⟩⟩
  · have hkeeps (hkept : n.Keeps n') : ∃ na', (match
          (⟨r.state, .advertisement simTime na, s'⟩ : Step).advertisement p with
        | some na => some na
        | none => lastAdvertisement p r.history) = some na' ∧ na'.solicitedFlag = true ∧
        (na'.targetLinkLayerAddress = n'.macAddress ∨ na'.targetLinkLayerAddress = 0) := by
      rw [advertisement_eq]
      by_cases hcounts : r.state.Counts na s' p
      · rw [if_pos hcounts]
        refine ⟨na, rfl, ?_⟩
        rcases hcounts with hchanged | ⟨-, -, hsolicited, haddress⟩
        · exfalso
          apply hchanged
          rw [macAt, macAt, hn, hp, Option.map_some, Option.map_some, hkept.1]
        · refine ⟨hsolicited, ?_⟩
          rw [macAt, hp, Option.map_some, Option.some.injEq] at haddress
          rcases haddress with hzero | hsame
          · exact .inr hzero
          · exact .inl hsame.symm
      · rw [if_neg hcounts, hkept.1]
        exact hr p n hn (hkept.2.1 hreachable)
    rcases hcases with hkept | ⟨⟨hvalid, hlookup⟩, hadvertised⟩
    · exact hkeeps hkept
    · cases hadvertised with
      | kept hkept => exact hkeeps hkept
      | resolved _ _ hstale => exact absurd (hstale.symm.trans hreachable) nofun
      | confirmed hsolicited _ haddress =>
        refine ⟨na, ?_, hsolicited, ?_⟩
        · rw [advertisement_eq, if_pos]
          right
          refine ⟨hvalid, hlookup, hsolicited, ?_⟩
          rw [macAt, hp, Option.map_some, Option.some.injEq]
          exact haddress
        · rcases haddress with hzero | hsame
          · exact .inr hzero
          · exact .inl hsame.symm
      | overwritten hsolicited hoverride hne hmac hstate hsame =>
        exfalso
        apply he
        refine ⟨hvalid, hsolicited, hoverride, hne, p, n, hlookup, hn, hmac, hstate, ?_⟩
        rw [← hsame, hreachable]
        nofun
  · exact absurd hreachable hnew.1
  · have hnone : (⟨r.state, e, s'⟩ : Step).advertisement p = none := by
      unfold Step.advertisement
      cases e with
      | advertisement simTime na => exact absurd rfl (hother simTime na)
      | _ => rfl
    rw [hnone, hkept.1]
    exact hr p n hn (hkept.2.1 hreachable)
  · exact absurd (hstale.symm.trans hreachable) nofun

theorem stale_of_unsolicited {e : Event} (he : ¬ s.Overwrites e) (hunsolicited : e.IsUnsolicited)
    (h : s.step cfg e = .ok s') (hp : s.heap p = some n) (hp' : s'.heap p = some n')
    (hmac : n'.macAddress ≠ n.macAddress) : n'.reachabilityState = .stale := by
  rcases step_cases h hp' with ⟨simTime, na, rfl, n₁, hn, hcases⟩ |
    ⟨hother, hrest⟩
  · rw [hp, Option.some.injEq] at hn
    subst hn
    rcases hcases with hkept | ⟨⟨hvalid, hlookup⟩, hadvertised⟩
    · exact absurd hkept.1 hmac
    · cases hadvertised with
      | kept hkept => exact absurd hkept.1 hmac
      | resolved _ _ hstale => exact hstale
      | confirmed hsolicited _ _ => exact absurd (hunsolicited.symm.trans hsolicited) nofun
      | overwritten hsolicited hoverride hne hold hstate hsame =>
        rw [hsame]
        by_contra hstale
        exact he ⟨hvalid, hsolicited, hoverride, hne, p, n, hlookup, hp, hold, hstate, hstale⟩
  · cases e with
    | advertisement simTime na => exact absurd rfl (hother simTime na)
    | solicitation ns =>
      rcases stale_processNS.of_eq_ok h p n' hp' with hstale | ⟨n₁, hn, hkept⟩
      · exact hstale
      · rw [hp, Option.some.injEq] at hn
        subst hn
        exact absurd hkept.1 hmac
    | _ => exact absurd hunsolicited id

/-- Without the override flag an unsolicited advertisement changes no address that is known. -/
theorem mac_of_not_override (hs : s.Unknown) {simTime : ℚ} {na : Advertisement}
    (hsolicited : na.solicitedFlag = false) (hoverride : na.overrideFlag = false)
    (h : s.step cfg (.advertisement simTime na) = .ok s') (hp : s.heap p = some n)
    (hp' : s'.heap p = some n') (hknown : n.macAddress ≠ 0) : n'.macAddress = n.macAddress := by
  obtain ⟨n₁, hn, hcases⟩ := advertised_processNAPacket.of_eq_ok h p n' hp'
  rw [hp, Option.some.injEq] at hn
  subst hn
  rcases hcases with hkept | ⟨-, hadvertised⟩
  · exact hkept.1
  · cases hadvertised with
    | kept hkept => exact hkept.1
    | resolved _ hstate _ => exact absurd (hs p n hp hstate) hknown
    | confirmed hyes _ _ => exact absurd (hsolicited.symm.trans hyes) nofun
    | overwritten _ hyes _ _ _ _ => exact absurd (hoverride.symm.trans hyes) nofun

/-- In every run in which no unsolicited advertisement overrides the address of an entry in use: an entry
is reachable only if the last advertisement that changed or confirmed its address was solicited and
carried that address or none; where an unsolicited advertisement or a solicitation replaces the address,
the entry is stale; and without the override flag an unsolicited advertisement replaces no address. -/
theorem reachability_is_confirmed {r : Recorded}
    (h : Reachable Recorded.Started (fun r e ↦ ¬ r.state.Overwrites e) (Recorded.step cfg) r) :
    r.Confirmed ∧
    (∀ e s' p n n', ¬ r.state.Overwrites e → e.IsUnsolicited → r.state.step cfg e = .ok s' →
      r.state.heap p = some n → s'.heap p = some n' → n'.macAddress ≠ n.macAddress →
      n'.reachabilityState = .stale) ∧
    ∀ simTime na s' p n n', na.solicitedFlag = false → na.overrideFlag = false →
      r.state.step cfg (.advertisement simTime na) = .ok s' → r.state.heap p = some n →
      s'.heap p = some n' → n.macAddress ≠ 0 → n'.macAddress = n.macAddress := by
  have hinv : r.Inv := by
    refine h.invariant ?_ ?_
    · rintro r ⟨hstart, -⟩
      constructor
      · intro p n hp
        rw [hstart.heap] at hp
        cases hp
      · intro p n hp
        rw [hstart.heap] at hp
        cases hp
    · rintro r e r' ⟨hconfirmed, hunknown⟩ he hstep
      refine ⟨hconfirmed.step he hstep, ?_⟩
      obtain ⟨s', hs', hr'⟩ := bind_ok_iff.mp hstep
      cases hr'
      exact hunknown.step hs'
  refine ⟨hinv.1, ?_, ?_⟩
  · intro e s' p n n' he hunsolicited hstep hp hp' hmac
    exact stale_of_unsolicited he hunsolicited hstep hp hp' hmac
  · intro simTime na s' p n n' hsolicited hoverride hstep hp hp' hknown
    exact mac_of_not_override hinv.2 hsolicited hoverride hstep hp hp' hknown

/-- A node that nobody asked takes the address over. -/
def takeOver : Event :=
  .advertisement 2 ⟨0xfe800000000000000000000000000002, 0x0AAA00000003, false, false, true, 255,
    0xfe800000000000000000000000000001, 1⟩

theorem reachability_is_confirmed_answer : ∃ r,
    run (Recorded.step oneTry) ⟨emptyCache, []⟩ [toNeighbour, answer] = .ok r ∧
    (r.state.heap 0).map (·.reachabilityState) = some .reachable ∧ r.Confirmed := by
  obtain ⟨r, hrun, hcheck⟩ := exists_ok (run (Recorded.step oneTry) ⟨emptyCache, []⟩ [toNeighbour, answer])
    (fun r ↦ (r.state.heap 0).map (·.reachabilityState) = some .reachable) (by decide +kernel)
  have hreach : Reachable Recorded.Started (fun r e ↦ ¬ r.state.Overwrites e) (Recorded.step oneTry) r := by
    obtain ⟨r₁, h₁, hrun⟩ := bind_ok_iff.mp hrun
    obtain ⟨r₂, h₂, hrun⟩ := bind_ok_iff.mp hrun
    cases hrun
    have hstart : Reachable Recorded.Started (fun r e ↦ ¬ r.state.Overwrites e) (Recorded.step oneTry)
        ⟨emptyCache, []⟩ :=
      .start ⟨⟨rfl, fun _ ↦ rfl, fun _ ↦ rfl, rfl, rfl⟩, rfl⟩
    have hfirst : ¬ emptyCache.Overwrites toNeighbour := id
    have hsecond : ¬ r₁.state.Overwrites answer := fun h ↦ absurd h.2.1 nofun
    exact (hstart.next hfirst h₁).next hsecond h₂
  exact ⟨r, hrun, hcheck, (reachability_is_confirmed hreach).1⟩

/-- The entry has the new address and is still reachable. -/
theorem reachable_after_takeOver : ∃ r,
    run (Recorded.step oneTry) ⟨emptyCache, []⟩ [toNeighbour, answer, takeOver] = .ok r ∧
    (r.state.heap 0).map (fun n ↦ (n.macAddress, n.reachabilityState)) =
      some (0x0AAA00000003, .reachable) ∧ ¬ r.Confirmed := by
  obtain ⟨r, hrun, hcheck⟩ := exists_ok
    (run (Recorded.step oneTry) ⟨emptyCache, []⟩ [toNeighbour, answer, takeOver])
    (fun r ↦ (r.state.heap 0).map (fun n ↦ (n.macAddress, n.reachabilityState)) = some (0x0AAA00000003,
      .reachable) ∧ (lastAdvertisement 0 r.history).map (·.solicitedFlag) = some false)
    (by decide +kernel)
  obtain ⟨hentry, hlast⟩ := hcheck
  refine ⟨r, hrun, hentry, ?_⟩
  intro hconfirmed
  obtain ⟨n, hn, hfields⟩ := Option.map_eq_some_iff.mp hentry
  obtain ⟨na, hna, hsolicited, -⟩ := hconfirmed 0 n hn (congrArg Prod.snd hfields)
  rw [hna, Option.map_some, hsolicited] at hlast
  cases hlast

end NeighbourDiscovery

end InetManet
