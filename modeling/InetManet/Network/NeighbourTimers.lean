import InetManet.Network.AddressResolution

/-!
# Timers of unreachability detection

An entry in `delay` or `probe` has one timer of unreachability detection, which is the one stored in
it, and other entries have none. This lasts as long as nothing takes an entry out of these states, or
confirms its reachability, while the timer runs: the handlers for this delete the timer without
forgetting it, or leave it running.
-/

namespace InetManet

open TransitionSystem

namespace NeighbourDiscovery

variable {cfg : Config} {s s' : NeighbourDiscovery} {p q m : ℕ} {n n' : Neighbour} {key : Key}

/-- Unreachability detection is under way. -/
def ReachabilityState.isDetecting : ReachabilityState → Bool
  | .delay => true
  | .probe => true
  | _ => false

/-- The timers of unreachability detection are the stored ones. -/
structure Detecting (s : NeighbourDiscovery) : Prop where
  timer : ∀ p n, s.heap p = some n → ∀ m, s.Timer m .nudTimeout p ↔ n.nudTimeoutEvent = some m
  state : ∀ p n, s.heap p = some n →
    n.nudTimeoutEvent.isSome = n.reachabilityState.isDetecting
  alive : ∀ m p, s.Timer m .nudTimeout p → ∃ n, s.heap p = some n

/-- A fault that is not about a timer or an entry that is used or deleted in the wrong way. -/
def Harmless : Fault → Prop
  | .uninitializedPointer => False
  | .freedEntry => False
  | .freedMessage => False
  | .deletedScheduled => False
  | _ => True

section

variable (h : s.Detecting)

include h

theorem Detecting.update (hheap : s'.heap = Function.update s.heap p (some n'))
    (hmessages : OnlyOf p s s') (htimer : ∀ m, s'.Timer m .nudTimeout p ↔ n'.nudTimeoutEvent = some m)
    (hstate : n'.nudTimeoutEvent.isSome = n'.reachabilityState.isDetecting) : s'.Detecting := by
  constructor
  · intro q e he m
    rw [hheap] at he
    by_cases hq : q = p
    · subst hq
      rw [Function.update_self, Option.some.injEq] at he
      rw [← he]
      exact htimer m
    · rw [Function.update_of_ne hq] at he
      rw [hmessages.timer hq]
      exact h.timer q e he m
  · intro q e he
    rw [hheap] at he
    by_cases hq : q = p
    · subst hq
      rw [Function.update_self, Option.some.injEq] at he
      rw [← he]
      exact hstate
    · rw [Function.update_of_ne hq] at he
      exact h.state q e he
  · intro m q hm
    by_cases hq : q = p
    · subst hq
      exact ⟨n', by rw [hheap, Function.update_self]⟩
    · obtain ⟨e, he⟩ := h.alive m q ((hmessages.timer hq).mp hm)
      exact ⟨e, by rw [hheap, Function.update_of_ne hq, he]⟩

theorem Detecting.remove (hheap : s'.heap = Function.update s.heap p none)
    (hmessages : OnlyOf p s s') (hnone : ∀ m, ¬s'.Timer m .nudTimeout p) : s'.Detecting := by
  have hne {q : ℕ} {e : Neighbour} (he : s'.heap q = some e) : q ≠ p := by
    rintro rfl
    rw [hheap, Function.update_self] at he
    cases he
  constructor
  · intro q e he m
    have hq := hne he
    rw [hheap, Function.update_of_ne hq] at he
    rw [hmessages.timer hq]
    exact h.timer q e he m
  · intro q e he
    have hq := hne he
    rw [hheap, Function.update_of_ne hq] at he
    exact h.state q e he
  · intro m q hm
    by_cases hq : q = p
    · subst hq
      exact absurd hm (hnone m)
    · obtain ⟨e, he⟩ := h.alive m q ((hmessages.timer hq).mp hm)
      exact ⟨e, by rw [hheap, Function.update_of_ne hq, he]⟩

theorem Detecting.of_eq (hheap : s'.heap = s.heap)
    (hmessages : s'.messages = s.messages) : s'.Detecting := by
  constructor
  · intro p e he m
    unfold Timer
    rw [hmessages]
    rw [hheap] at he
    exact h.timer p e he m
  · intro p e he
    rw [hheap] at he
    exact h.state p e he
  · intro m p hm
    unfold Timer at hm
    rw [hmessages] at hm
    rw [hheap]
    exact h.alive m p hm

theorem Detecting.eq_none (hp : s.heap p = some n)
    (hstate : n.reachabilityState.isDetecting = false) : n.nudTimeoutEvent = none := by
  rw [← Option.not_isSome_iff_eq_none, h.state p n hp, hstate]
  exact Bool.false_ne_true

theorem Detecting.not_timer (hp : s.heap p = some n)
    (hstate : n.reachabilityState.isDetecting = false) : ¬s.Timer m .nudTimeout p := by
  rw [h.timer p n hp, h.eq_none hp hstate]
  nofun

/-- The entry changes, but not what is stored for the detection. -/
theorem Detecting.write (hp : s.heap p = some n) (hnud : n'.nudTimeoutEvent = n.nudTimeoutEvent)
    (hstate : n'.reachabilityState.isDetecting = n.reachabilityState.isDetecting) :
    (s.write p n').Detecting := by
  refine h.update rfl (onlyOf_of_eq rfl rfl) ?_ ?_
  · intro m
    rw [hnud]
    exact h.timer p n hp m
  · rw [hnud, hstate]
    exact h.state p n hp

/-! ## Handlers -/

theorem Detecting.initiateNeighbourUnreachabilityDetection (ht : s.Table)
    (hp : s.heap p = some n) (hstale : n.reachabilityState = .stale) :
    Outcome (s.initiateNeighbourUnreachabilityDetection p) Detecting Harmless := by
  unfold NeighbourDiscovery.initiateNeighbourUnreachabilityDetection
  rw [read, hp]
  dsimp only
  rw [ok_bind, if_pos hstale]
  refine h.update rfl ((onlyOf_schedule (ht.but (some p))).trans (onlyOf_of_eq rfl rfl)) ?_ rfl
  intro m
  unfold Timer NeighbourDiscovery.write schedule
  dsimp only
  by_cases hm : m = s.fresh
  · rw [hm, Function.update_self]
    simp
  · rw [Function.update_of_ne hm]
    constructor
    · intro htimer
      refine absurd htimer (h.not_timer hp ?_)
      rw [hstale]
      rfl
    · intro hsome
      exact absurd (Option.some.inj hsome).symm hm

theorem Detecting.queuePacket (hp : s.heap p = some n) (x : ℕ) :
    Outcome (s.queuePacket p x) Detecting Harmless := by
  unfold NeighbourDiscovery.queuePacket
  rw [read, hp]
  dsimp only
  rw [ok_bind]
  have hwrite : (s.write p { n with pendingPackets := n.pendingPackets ++ [x] }).Detecting :=
    h.write hp rfl rfl
  exact hwrite.of_eq rfl rfl

/-- The resolution is started for an entry without a timer of unreachability detection. -/
theorem Detecting.initiateAddressResolution (ht : TableBut (some p) s)
    (hp : s.heap p = some n) (hstate : n.reachabilityState.isDetecting = false)
    (dgSrcAddr : IPv6Address) :
    Outcome (s.initiateAddressResolution cfg dgSrcAddr p)
      (fun s' ↦ s'.Detecting ∧ ∃ n', s'.heap p = some n') Harmless := by
  unfold NeighbourDiscovery.initiateAddressResolution
  rw [read, hp]
  dsimp only
  rw [ok_bind]
  apply Outcome.ite
  · intro _
    trivial
  · intro _
    refine ⟨?_, _, Function.update_self _ _ _⟩
    refine h.update rfl ((onlyOf_schedule ht).trans (onlyOf_of_eq rfl rfl)) ?_ ?_
    · intro m
      have hnone := h.eq_none hp hstate
      dsimp only
      rw [hnone]
      unfold Timer NeighbourDiscovery.write schedule note
      dsimp only
      by_cases hm : m = s.fresh
      · rw [hm, Function.update_self]
        simp
      · rw [Function.update_of_ne hm]
        constructor
        · intro htimer
          exact absurd htimer (h.not_timer hp hstate)
        · intro hstored
          cases hstored
    · dsimp only
      rw [h.eq_none hp hstate]
      rfl

theorem Detecting.addNeighbour (ht : s.Table) (hnud : n.nudTimeoutEvent = none)
    (hstate : n.reachabilityState.isDetecting = false) :
    Outcome (s.addNeighbour n)
      (fun x ↦ x.2.Detecting ∧ TableBut (some x.1) x.2 ∧ x.2.heap x.1 = some n) Harmless := by
  unfold NeighbourDiscovery.addNeighbour
  split
  · trivial
  · rename_i hlookup
    refine ⟨?_, ht.add hlookup rfl rfl rfl rfl, Function.update_self _ _ _⟩
    refine h.update rfl ⟨Nat.le_succ _, fun _ ↦ .inl rfl⟩ ?_ ?_
    · intro m
      rw [hnud]
      constructor
      · intro hm
        exact absurd (ht.oldMessage m _ hm).2 (lt_irrefl _)
      · nofun
    · rw [hnud, hstate]
      rfl

end

/-- A message of address resolution is none of unreachability detection. -/
theorem timer_update_ar {y : Option Message} (hm : s.Timer m .arTimeout p)
    (hy : ∀ z, y = some z → z.kind = .arTimeout) (m' q : ℕ) :
    Function.update s.messages m y m' = some ⟨.nudTimeout, q, true⟩ ↔
      s.messages m' = some ⟨.nudTimeout, q, true⟩ := by
  unfold Timer at hm
  by_cases hmm : m' = m
  · subst hmm
    rw [Function.update_self, hm]
    constructor
    · intro hsome
      cases hy _ hsome
    · nofun
  · rw [Function.update_of_ne hmm]

theorem Detecting.processNAForIncompleteNCEState (h : s.Detecting) (ht : s.Table)
    (hp : s.heap p = some n) (hstate : n.reachabilityState = .incomplete) (simTime : ℚ)
    (na : Advertisement) :
    Outcome (s.processNAForIncompleteNCEState cfg simTime na p) Detecting Harmless := by
  have hn := ht.resolving p n hp (Option.some_ne_none p)
  obtain ⟨m, hm⟩ := hn.started hstate
  have htimer : s.Timer m .arTimeout p := (hn.timer m).mpr ⟨hstate, hm⟩
  have hmessage : s.messages m = some ⟨.arTimeout, p, true⟩ := htimer
  have hidle : n.reachabilityState.isDetecting = false := by
    rw [hstate]
    rfl
  have hsend (n' : Neighbour) (hne : n'.reachabilityState.isDetecting = false)
      (hnud : n'.nudTimeoutEvent = n.nudTimeoutEvent) :
      Outcome (do
        let s ← (s.write p n').sendQueuedPacketsToIPv6Module p
        s.cancelEvent m) Detecting Harmless := by
    unfold sendQueuedPacketsToIPv6Module
    rw [read, NeighbourDiscovery.write]
    dsimp only
    rw [Function.update_self]
    dsimp only
    rw [ok_bind, unqueue_eq]
    dsimp only [NeighbourDiscovery.write]
    rw [Function.update_idem]
    show Outcome (NeighbourDiscovery.cancelEvent _ m) Detecting Harmless
    unfold cancelEvent setScheduled
    dsimp only
    rw [hmessage]
    refine h.update rfl (onlyOf_unschedule hmessage (ht.oldMessage m _ hmessage).1 rfl rfl) ?_ ?_
    · intro m'
      dsimp only
      rw [hnud, ← h.timer p n hp]
      refine timer_update_ar htimer ?_ m' p
      rintro z ⟨⟩
      rfl
    · dsimp only
      rw [hnud, h.eq_none hp hidle, hne]
      rfl
  unfold NeighbourDiscovery.processNAForIncompleteNCEState
  rw [read, hp]
  dsimp only
  rw [ok_bind]
  apply Outcome.ite
  · intro _
    exact h
  · intro _
    cases na.solicitedFlag with
    | true =>
      rw [hm]
      exact hsend _ rfl rfl
    | false =>
      rw [hm]
      exact hsend _ rfl rfl

theorem Detecting.processARTimeout (h : s.Detecting) (ht : s.Table)
    (hm : s.Timer m .arTimeout p) :
    Outcome (({ s with messages := Function.update s.messages m (some ⟨.arTimeout, p, false⟩) } :
      NeighbourDiscovery).processARTimeout cfg m p) Detecting Harmless := by
  obtain ⟨n, hp⟩ := ht.alive m p hm (Option.some_ne_none p)
  have hn := ht.resolving p n hp (Option.some_ne_none p)
  obtain ⟨hstate, _⟩ := (hn.timer m).mp hm
  have hlt := (ht.oldMessage m _ hm).1
  have hidle : n.reachabilityState.isDetecting = false := by
    rw [hstate]
    rfl
  unfold NeighbourDiscovery.processARTimeout
  rw [read, hp]
  dsimp only
  rw [ok_bind]
  apply Outcome.ite
  · intro _
    unfold setScheduled NeighbourDiscovery.write note
    dsimp only
    rw [Function.update_self]
    dsimp only
    rw [update_scheduled_again hm]
    refine h.update rfl (onlyOf_of_eq rfl rfl) (h.timer p n hp) (h.state p n hp)
  · intro _
    unfold dropQueuedPacketsAwaitingAR note
    rw [read, hp]
    dsimp only
    have hlookup : s.neighbourMap.find? n.nceKey = some p := ht.located p n hp
    rw [ok_bind, unqueue_eq, NeighbourDiscovery.remove, lookup]
    dsimp only
    rw [hlookup]
    dsimp only
    rw [read]
    dsimp only
    rw [hp]
    dsimp only
    rw [ok_bind, h.eq_none hp hidle]
    dsimp only
    rw [ok_bind]
    show Outcome (deleteMessage _ m) Detecting Harmless
    unfold deleteMessage
    dsimp only
    rw [Function.update_self]
    dsimp only
    rw [if_neg Bool.false_ne_true, Function.update_idem]
    refine h.remove rfl (onlyOf_delete hm hlt rfl rfl rfl) ?_
    intro m' hm'
    refine h.not_timer hp hidle ((timer_update_ar hm ?_ m' p).mp hm')
    intro z hz
    cases hz

/-- The entry goes with its timer when all probes have been sent. -/
theorem Detecting.processNUDTimeout (h : s.Detecting) (ht : s.Table)
    (hm : s.Timer m .nudTimeout p) :
    Outcome (({ s with messages := Function.update s.messages m (some ⟨.nudTimeout, p, false⟩) } :
      NeighbourDiscovery).processNUDTimeout cfg m p) Detecting Harmless := by
  obtain ⟨n, hp⟩ := h.alive m p hm
  have hlt := (ht.oldMessage m _ hm).1
  have hstored : n.nudTimeoutEvent = some m := (h.timer p n hp m).mp hm
  unfold NeighbourDiscovery.processNUDTimeout
  rw [read, hp]
  dsimp only
  rw [ok_bind]
  generalize hn' : (if n.reachabilityState = .delay then
    { n with reachabilityState := .probe, numProbesSent := 0 } else n) = n'
  have hkey : n'.nceKey = n.nceKey := by
    rw [← hn']
    split <;> rfl
  have hnud : n'.nudTimeoutEvent = n.nudTimeoutEvent := by
    rw [← hn']
    split <;> rfl
  have hstate : n'.reachabilityState.isDetecting = n.reachabilityState.isDetecting := by
    rw [← hn']
    split
    · rename_i hdelay
      rw [hdelay]
      rfl
    · rfl
  apply Outcome.ite
  · intro _
    have hlookup : s.neighbourMap.find? n'.nceKey = some p := by
      rw [hkey]
      exact ht.located p n hp
    rw [NeighbourDiscovery.remove, lookup, NeighbourDiscovery.write]
    dsimp only
    rw [hlookup]
    dsimp only
    rw [read]
    dsimp only
    rw [Function.update_self]
    dsimp only
    rw [ok_bind, hnud, hstored]
    dsimp only
    unfold deleteMessage
    dsimp only
    rw [Function.update_self]
    dsimp only
    rw [if_neg Bool.false_ne_true, Function.update_idem, ok_bind, Function.update_idem]
    refine h.remove rfl (onlyOf_delete hm hlt rfl rfl rfl) ?_
    intro m' hm'
    unfold Timer at hm'
    dsimp only at hm'
    by_cases hmm : m' = m
    · rw [hmm, Function.update_self] at hm'
      cases hm'
    · rw [Function.update_of_ne hmm] at hm'
      have hsame := (h.timer p n hp m').mp hm'
      rw [hstored, Option.some.injEq] at hsame
      exact hmm hsame.symm
  · intro _
    unfold setScheduled NeighbourDiscovery.write note
    dsimp only
    rw [Function.update_self]
    dsimp only
    rw [update_scheduled_again hm]
    refine h.update rfl (onlyOf_of_eq rfl rfl) ?_ ?_
    · intro m'
      dsimp only
      rw [hnud]
      exact h.timer p n hp m'
    · dsimp only
      rw [hnud, hstate]
      exact h.state p n hp

/-- The advertisement says nothing that would end a detection that is under way. -/
def Unintrusive (na : Advertisement) (n : Neighbour) : Prop :=
  na.overrideFlag = false ∧ na.targetLinkLayerAddress ≠ n.macAddress ∧
      na.targetLinkLayerAddress ≠ 0 ∨
    na.solicitedFlag = false ∧ (na.targetLinkLayerAddress ≠ 0 ∨ n.macAddress = 0)

theorem Detecting.processNAForOtherNCEStates (h : s.Detecting) (hp : s.heap p = some n)
    (simTime : ℚ) (na : Advertisement)
    (hna : n.reachabilityState.isDetecting = true → Unintrusive na n) :
    Outcome (s.processNAForOtherNCEStates cfg simTime na p) Detecting Harmless := by
  unfold NeighbourDiscovery.processNAForOtherNCEStates
  rw [read, hp]
  dsimp only
  rw [ok_bind]
  apply Outcome.ite
  · intro _
    apply Outcome.ite
    · intro hreachable
      refine h.write hp rfl ?_
      rw [hreachable]
      rfl
    · intro _
      exact h
  · intro hupdate
    generalize hn' : (if na.targetLinkLayerAddress ≠ 0 then
      { n with macAddress := na.targetLinkLayerAddress } else n) = n'
    have hnud : n'.nudTimeoutEvent = n.nudTimeoutEvent := by
      rw [← hn']
      split <;> rfl
    have hstate : n'.reachabilityState = n.reachabilityState := by
      rw [← hn']
      split <;> rfl
    have hquiet (hdetecting : n.reachabilityState.isDetecting = true) :
        na.solicitedFlag = false ∧ na.targetLinkLayerAddress = n'.macAddress := by
      obtain ⟨hsolicited, hmac⟩ := (hna hdetecting).resolve_left hupdate
      refine ⟨hsolicited, ?_⟩
      rw [← hn']
      split
      · rfl
      · rename_i hzero
        rw [not_not] at hzero
        rw [hzero, hmac.resolve_left (fun hne ↦ hne hzero)]
    apply Outcome.ite
    · intro hsolicited
      have hidle : n.reachabilityState.isDetecting = false := by
        apply Bool.eq_false_of_not_eq_true
        intro hdetecting
        rw [(hquiet hdetecting).1] at hsolicited
        cases hsolicited
      split
      · rename_i m hm
        rw [hnud, h.eq_none hp hidle] at hm
        cases hm
      · exact h.write hp hnud hidle.symm
    · intro _
      split
      · rename_i hmac
        have hidle : n.reachabilityState.isDetecting = false := by
          apply Bool.eq_false_of_not_eq_true
          intro hdetecting
          exact hmac (hquiet hdetecting).2
        exact h.write hp hnud hidle.symm
      · refine h.write hp hnud ?_
        dsimp only
        rw [hstate]

/-! ## Runs -/

/-- Nothing ends a detection that is under way but its timer, nor a resolution but an advertisement and
its timer: no datagram comes for an entry without a link-layer address during a detection, no
solicitation brings a new link-layer address during a resolution or a detection, no advertisement
confirms the entry or makes it stale during a detection, and no hint confirms it then. -/
def Timely (s : NeighbourDiscovery) : Event → Prop
  | .datagram simTime route msg => ∀ key p n,
      s.determineNextHop simTime route msg.destAddr = .ok (some key) → s.lookup key = some p →
      s.heap p = some n → n.macAddress = 0 → n.reachabilityState.isDetecting = false
  | .solicitation ns => ∀ p n, s.lookup ⟨ns.srcAddr, ns.interfaceId⟩ = some p →
      s.heap p = some n → n.macAddress ≠ ns.sourceLinkLayerAddress →
      ns.sourceLinkLayerAddress ≠ 0 →
      n.reachabilityState ≠ .incomplete ∧ n.reachabilityState.isDetecting = false
  | .advertisement _ na => ∀ p n, s.lookup ⟨na.targetAddress, na.interfaceId⟩ = some p →
      s.heap p = some n → n.reachabilityState.isDetecting = true → Unintrusive na n
  | .reachabilityConfirmed key => ∀ p n, s.lookup key = some p → s.heap p = some n →
      n.reachabilityState.isDetecting = false
  | _ => True

theorem Timely.allowed {e : Event} (h : s.Timely e) (hs : s.Inv) (hd : s.Detecting) :
    s.Allowed e := by
  cases e with
  | datagram simTime route msg =>
    intro key p n hhop hlookup hp hmac _ m
    exact hd.not_timer hp (h key p n hhop hlookup hp hmac)
  | solicitation ns =>
    intro p n hlookup hp hstate
    have hn := hs.table.resolving p n hp (Option.some_ne_none p)
    by_contra hmac
    refine (h p n hlookup hp ?_ hmac).1 hstate
    rw [hn.unknown hstate]
    exact Ne.symm hmac
  | advertisement simTime na => trivial
  | resolveNeighbour simTime key => trivial
  | reachabilityConfirmed key => trivial
  | timeout m => trivial

theorem InvBut.harmless_selectDefaultRouter (hs : s.Inv) {simTime : ℚ} {entries : List (Key × ℕ)}
    (hentries : ∀ x ∈ entries, s.lookup x.1 = some x.2) {fault : Fault}
    (h : s.selectDefaultRouter simTime entries = .error fault) : Harmless fault := by
  induction entries with
  | nil => cases h
  | cons x entries ih =>
    obtain ⟨n, hp, _⟩ := hs.table.mapped x.1 x.2 (hentries x List.mem_cons_self)
    rw [selectDefaultRouter, read, hp] at h
    dsimp only at h
    rw [ok_bind] at h
    split at h
    · cases h
      trivial
    · split at h
      · cases h
      · exact ih (fun y hy ↦ hentries y (List.mem_cons_of_mem _ hy)) h

theorem InvBut.harmless_determineNextHop (hs : s.Inv) {simTime : ℚ}
    {route : Option (IPv6Address × ℤ)} {destAddr : IPv6Address} {fault : Fault}
    (h : s.determineNextHop simTime route destAddr = .error fault) : Harmless fault := by
  unfold determineNextHop at h
  split at h
  · cases h
  · apply hs.harmless_selectDefaultRouter _ h
    intro x hx
    exact OrderedMap.find?_eq_some_iff.mpr hx

theorem Detecting.sendOrQueue (h : s.Detecting) (hs : s.Inv) (x : ℕ) (msg : Datagram)
    (hidle : ∀ p n, s.lookup key = some p → s.heap p = some n → n.macAddress = 0 →
      n.reachabilityState.isDetecting = false) :
    Outcome (NeighbourDiscovery.sendOrQueue cfg s x msg key) Detecting Harmless := by
  have hqueue {t : NeighbourDiscovery} {p : ℕ} (ht : t.Detecting ∧ ∃ n, t.heap p = some n) :
      Outcome (t.queuePacket p x) Detecting Harmless := by
    obtain ⟨hdetecting, n, hp⟩ := ht
    exact hdetecting.queuePacket hp x
  unfold NeighbourDiscovery.sendOrQueue
  split
  · refine Outcome.bind (h.addNeighbour hs.table rfl rfl) fun a ha ↦ ?_
    obtain ⟨hadded, htable, hp⟩ := ha
    refine Outcome.bind (hadded.initiateAddressResolution htable hp rfl msg.srcAddr) fun t ht ↦ ?_
    exact hqueue ht
  · rename_i p hlookup
    obtain ⟨n, hp, _⟩ := hs.table.mapped key p hlookup
    rw [read, hp]
    dsimp only
    rw [ok_bind]
    apply Outcome.ite
    · intro _
      exact h.queuePacket hp x
    · intro _
      apply Outcome.ite
      · intro hmac
        refine Outcome.bind (h.initiateAddressResolution (hs.table.but (some p)) hp
          (hidle p n hlookup hp hmac) msg.srcAddr) fun t ht ↦ ?_
        exact hqueue ht
      · intro _
        split
        · rename_i hstale
          have hnoted : (s.note (.sent x)).Detecting := h.of_eq rfl rfl
          exact hnoted.initiateNeighbourUnreachabilityDetection (hs.note rfl).table hp hstale
        · exact h.of_eq rfl rfl
        · exact h.of_eq rfl rfl
        · trivial

theorem Detecting.resolveNeighbour (h : s.Detecting) (hs : s.Inv) (simTime : ℚ) (key : Key) :
    Outcome (s.resolveNeighbour simTime key) (fun x ↦ x.2.Detecting) Harmless := by
  have hdetect {t : NeighbourDiscovery} {p : ℕ} {n : Neighbour} (ht : t.Detecting) (hinv : t.Inv)
      (hp : t.heap p = some n) (hstale : n.reachabilityState = .stale) (mac : MACAddress) :
      Outcome (do
        let s ← t.initiateNeighbourUnreachabilityDetection p
        return (mac, s)) (fun x ↦ x.2.Detecting) Harmless :=
    Outcome.bind (ht.initiateNeighbourUnreachabilityDetection hinv.table hp hstale) fun _ hs ↦ hs
  unfold NeighbourDiscovery.resolveNeighbour
  split
  · exact h
  · rename_i p hlookup
    obtain ⟨n, hp, _⟩ := hs.table.mapped key p hlookup
    rw [read, hp]
    dsimp only
    rw [ok_bind]
    split
    · exact h
    · rename_i hstale
      exact hdetect h hs hp hstale n.macAddress
    · rename_i hreachable
      apply Outcome.ite
      · intro _
        have hne : n.reachabilityState ≠ .incomplete := by
          rw [hreachable]
          decide
        have hdetecting : (s.write p { n with reachabilityState := .stale }).Detecting := by
          refine h.write hp rfl ?_
          rw [hreachable]
          rfl
        have hinv : (s.write p { n with reachabilityState := .stale }).Inv :=
          hs.write hp hne rfl rfl rfl (by simp)
        exact hdetect hdetecting hinv (Function.update_self _ _ _) rfl n.macAddress
      · intro _
        exact h
    · exact h
    · exact h

theorem Detecting.updateSender (h : s.Detecting) (hs : s.Inv) {ns : Solicitation}
    (hns : s.Timely (.solicitation ns)) : Outcome (s.updateSender ns) Detecting Harmless := by
  unfold NeighbourDiscovery.updateSender
  split
  · exact Outcome.bind (h.addNeighbour hs.table rfl rfl) fun a ha ↦ ha.1
  · rename_i p hlookup
    obtain ⟨n, hp, _⟩ := hs.table.mapped _ p hlookup
    rw [read, hp]
    dsimp only
    rw [ok_bind]
    apply Outcome.ite
    · intro hmac
      exact h.write hp rfl (hns p n hlookup hp hmac.1 hmac.2).2.symm
    · intro _
      exact h

theorem Detecting.step (h : s.Detecting) (hs : s.Inv) (e : Event) (he : s.Timely e) :
    Outcome (s.step cfg e) Detecting Harmless := by
  cases e with
  | datagram simTime route msg =>
    unfold NeighbourDiscovery.step NeighbourDiscovery.processIPv6Datagram
    dsimp only
    cases hhop : s.determineNextHop simTime route msg.destAddr with
    | error fault => exact hs.harmless_determineNextHop hhop
    | ok next =>
      rw [ok_bind]
      cases next with
      | none => exact h.of_eq rfl rfl
      | some key =>
        have hcount : ({ s with packets := s.packets + 1 } : NeighbourDiscovery).Detecting :=
          h.of_eq rfl rfl
        refine hcount.sendOrQueue hs.count s.packets msg ?_
        intro p n
        exact he key p n hhop
  | solicitation ns =>
    unfold NeighbourDiscovery.step NeighbourDiscovery.processNSForNonTentativeAddress
    apply Outcome.ite
    · intro _
      exact h.of_eq rfl rfl
    · intro _
      exact Outcome.bind (h.updateSender hs he) fun t ht ↦ ht.of_eq rfl rfl
  | advertisement simTime na =>
    unfold NeighbourDiscovery.step NeighbourDiscovery.processNAPacket
    apply Outcome.ite
    · intro _
      apply Outcome.ite
      · intro _
        trivial
      · intro _
        split
        · exact h
        · rename_i p hlookup
          obtain ⟨n, hp, _⟩ := hs.table.mapped _ p hlookup
          rw [read, hp]
          dsimp only
          rw [ok_bind]
          apply Outcome.ite
          · intro hstate
            exact h.processNAForIncompleteNCEState hs.table hp hstate simTime na
          · intro _
            exact h.processNAForOtherNCEStates hp simTime na (he p n hlookup hp)
    · intro _
      exact h
  | resolveNeighbour simTime key => exact (h.resolveNeighbour hs simTime key).map
  | reachabilityConfirmed key =>
    unfold NeighbourDiscovery.step NeighbourDiscovery.reachabilityConfirmed
    dsimp only
    split
    · trivial
    · rename_i p hlookup
      obtain ⟨n, hp, _⟩ := hs.table.mapped key p hlookup
      rw [read, hp]
      dsimp only
      rw [ok_bind, h.eq_none hp (he p n hlookup hp)]
      exact h
  | timeout m =>
    unfold NeighbourDiscovery.step NeighbourDiscovery.processTimeout
    dsimp only
    split
    · trivial
    · rename_i x hx
      obtain ⟨kind, p, scheduled⟩ := x
      apply Outcome.ite
      · intro hscheduled
        dsimp only at hscheduled
        subst hscheduled
        cases kind with
        | nudTimeout => exact h.processNUDTimeout hs.table hx
        | arTimeout => exact h.processARTimeout hs.table hx
      · intro _
        trivial

theorem Started.detecting (h : s.Started) : s.Detecting := by
  refine ⟨fun p n hp ↦ ?_, fun p n hp ↦ ?_, fun m p hm ↦ ?_⟩
  · rw [h.heap] at hp
    cases hp
  · rw [h.heap] at hp
    cases hp
  · unfold Timer at hm
    rw [h.messages] at hm
    cases hm

/-- In every run of this kind an entry has a timer of unreachability detection if and only if it is in
`delay` or `probe`, and then it is the one that is stored and the only one; it has a timer of address
resolution if and only if it is incomplete, and only one; every timer belongs to an entry that is
there; and no step uses or deletes a message in the wrong way. -/
theorem neighbour_timers_match_states (h : Reachable Started Timely (step cfg) s) :
    (∀ p n, s.heap p = some n → (∀ m, s.Timer m .nudTimeout p ↔ n.nudTimeoutEvent = some m) ∧
      ((∃ m, s.Timer m .nudTimeout p) ↔
        n.reachabilityState = .delay ∨ n.reachabilityState = .probe)) ∧
    (∀ p n, s.heap p = some n →
      ((∃ m, s.Timer m .arTimeout p) ↔ n.reachabilityState = .incomplete) ∧
      ∀ m m', s.Timer m .arTimeout p → s.Timer m' .arTimeout p → m = m') ∧
    (∀ m kind p, s.Timer m kind p → ∃ n, s.heap p = some n ∧ s.lookup n.nceKey = some p) ∧
    ∀ e, s.Timely e → Outcome (s.step cfg e) (fun _ ↦ True) Harmless := by
  obtain ⟨⟨hs, hd⟩, hstep⟩ : (s.Inv ∧ s.Detecting) ∧ ∀ e, s.Timely e →
      Outcome (s.step cfg e) (fun s' ↦ s'.Inv ∧ s'.Detecting) fun fault ↦ True ∧ Harmless fault := by
    apply h.outcome
    · intro s hs
      exact ⟨hs.inv, hs.detecting⟩
    · intro s e hs he
      exact (hs.1.step e (he.allowed hs.1 hs.2)).and (hs.2.step hs.1 e he)
  refine ⟨?_, ?_, ?_, ?_⟩
  · intro p n hp
    refine ⟨hd.timer p n hp, ?_⟩
    have hdetecting : n.reachabilityState = .delay ∨ n.reachabilityState = .probe ↔
        n.reachabilityState.isDetecting = true := by
      cases n.reachabilityState <;> simp [ReachabilityState.isDetecting]
    rw [hdetecting, ← hd.state p n hp, Option.isSome_iff_exists]
    simp only [hd.timer p n hp]
  · intro p n hp
    have hn := hs.table.resolving p n hp (Option.some_ne_none p)
    refine ⟨⟨?_, ?_⟩, ?_⟩
    · rintro ⟨m, hm⟩
      exact ((hn.timer m).mp hm).1
    · intro hstate
      obtain ⟨m, hm⟩ := hn.started hstate
      exact ⟨m, (hn.timer m).mpr ⟨hstate, hm⟩⟩
    · intro m m' hm hm'
      have hstored := ((hn.timer m).mp hm).2
      rw [((hn.timer m').mp hm').2, Option.some.injEq] at hstored
      exact hstored.symm
  · intro m kind p hm
    cases kind with
    | nudTimeout =>
      obtain ⟨n, hp⟩ := hd.alive m p hm
      exact ⟨n, hp, hs.table.located p n hp⟩
    | arTimeout =>
      obtain ⟨n, hp⟩ := hs.table.alive m p hm (Option.some_ne_none p)
      exact ⟨n, hp, hs.table.located p n hp⟩
  · intro e he
    exact (hstep e he).mono (fun _ _ ↦ trivial) fun _ hfault ↦ hfault.2

/-- The neighbour is used when its reachability has expired. -/
def useAgain : Event := .resolveNeighbour 40 ⟨0xfe800000000000000000000000000002, 1⟩

theorem neighbour_timers_match_states_useAgain : ∃ s n,
    run (step oneTry) emptyCache [toNeighbour, answer, useAgain] = .ok s ∧ s.heap 0 = some n ∧
    n.reachabilityState = .delay ∧ ∃ m, s.Timer m .nudTimeout 0 := by
  have hcheck : ((run (step oneTry) emptyCache [toNeighbour]).toOption.any fun s ↦
      (s.heap 0).any fun n ↦ decide (s.lookup ⟨0xfe800000000000000000000000000002, 1⟩ = some 0 ∧
        n.reachabilityState = .incomplete)) = true := by decide +kernel
  have hcheck' : ((run (step oneTry) emptyCache [toNeighbour, answer, useAgain]).toOption.any fun s ↦
      (s.heap 0).any fun n ↦ decide (n.reachabilityState = .delay)) = true := by decide +kernel
  cases hrun : run (step oneTry) emptyCache [toNeighbour, answer, useAgain] with
  | error e =>
    rw [hrun] at hcheck'
    cases hcheck'
  | ok s =>
    rw [hrun, Except.toOption, Option.any_some] at hcheck'
    have hreach : Reachable Started Timely (step oneTry) s := by
      obtain ⟨s₁, h₁, hrun⟩ := bind_ok_iff.mp hrun
      obtain ⟨s₂, h₂, hrun⟩ := bind_ok_iff.mp hrun
      obtain ⟨s₃, h₃, hrun⟩ := bind_ok_iff.mp hrun
      cases hrun
      have hstart : Reachable Started Timely (step oneTry) emptyCache :=
        .start ⟨rfl, fun _ ↦ rfl, fun _ ↦ rfl, rfl, rfl⟩
      have hfirst : emptyCache.Timely toNeighbour := by
        intro key p n _ hlookup
        cases hlookup
      have hsecond : s₁.Timely answer := by
        rw [run_cons, h₁, ok_bind, run_nil, Except.toOption, Option.any_some, Option.any_eq_true] at hcheck
        intro p n hlookup hp hdetecting
        obtain ⟨n', hn', hdecided⟩ := hcheck
        obtain ⟨hzero, hstate⟩ := of_decide_eq_true hdecided
        have hsame : some 0 = some p := hzero.symm.trans hlookup
        rw [← Option.some.inj hsame, hn', Option.some.injEq] at hp
        rw [← hp, hstate] at hdetecting
        cases hdetecting
      have hthird : s₂.Timely useAgain := trivial
      exact ((hstart.next hfirst h₁).next hsecond h₂).next hthird h₃
    cases hheap : s.heap 0 with
    | none =>
      rw [hheap] at hcheck'
      cases hcheck'
    | some n =>
      rw [hheap] at hcheck'
      have hdelay : n.reachabilityState = .delay := of_decide_eq_true hcheck'
      obtain ⟨hdetection, _⟩ := neighbour_timers_match_states hreach
      exact ⟨s, n, rfl, hheap, hdelay, (hdetection 0 n hheap).2.mpr (.inl hdelay)⟩

/-- The advertisement that confirms a neighbour deletes its timer without forgetting it; the next one
deletes it again. -/
theorem dangling_timer : ∃ s n m,
    run (step oneTry) emptyCache [toNeighbour, answer, useAgain, answer] = .ok s ∧
    s.heap 0 = some n ∧ n.reachabilityState = .reachable ∧ n.nudTimeoutEvent = some m ∧
    s.messages m = none ∧ s.step oneTry answer = .error .freedMessage := by
  have hcheck : ((run (step oneTry) emptyCache [toNeighbour, answer, useAgain, answer]).toOption.any fun s ↦
      (s.heap 0).any fun n ↦ decide (n.reachabilityState = .reachable ∧ n.nudTimeoutEvent = some 2 ∧
        s.messages 2 = none ∧ (s.step oneTry answer).map (fun _ ↦ ()) = .error .freedMessage)) = true := by
    decide +kernel
  cases hrun : run (step oneTry) emptyCache [toNeighbour, answer, useAgain, answer] with
  | error e =>
    rw [hrun] at hcheck
    cases hcheck
  | ok s =>
    rw [hrun, Except.toOption, Option.any_some] at hcheck
    cases hheap : s.heap 0 with
    | none =>
      rw [hheap] at hcheck
      cases hcheck
    | some n =>
      rw [hheap, Option.any_some] at hcheck
      obtain ⟨hstate, hstored, hnone, hfault⟩ := of_decide_eq_true hcheck
      cases hstep : s.step oneTry answer with
      | ok s' =>
        rw [hstep] at hfault
        cases hfault
      | error e =>
        rw [hstep] at hfault
        cases hfault
        exact ⟨s, n, 2, rfl, hheap, hstate, hstored, hnone, hstep⟩

end NeighbourDiscovery

end InetManet
