import InetManet.ARP.Log

/-!
# ARP loses no packets

In every run the cache, the timers and `pendingQueue` stay in step. An entry has one interface for
all packets that are queued at it; as long as a datagram that finds its next hop pending comes with
that interface, every datagram is sent exactly once, in order, on its own interface and to the
address last heard of its next hop, or dropped when the retries are exhausted.
-/

namespace InetManet.ARP

open TransitionSystem ARPModule

/-- An entry in step with the timers and the log. -/
structure EntryInv (log : List LogEntry) (timers : OrderedMap ℕ ℕ) (e : ℕ) (entry : ARPCacheEntry) :
    Prop where
  timed : entry.pending = true → ∃ t, entry.timer = some t ∧ timers.find? t = some e
  untimed : entry.pending = false → entry.timer = none
  idle : entry.pending = false → entry.pendingPackets = []
  sorted : entry.pendingPackets.Pairwise (· < ·)
  packets : ∀ msg, msg ∈ entry.pendingPackets ↔ ∃ ie, Waiting log msg ie entry.myIter
  own : ∀ msg ie, Waiting log msg ie entry.myIter → ie = entry.ie
  mac : entry.pending = false → lastHeard entry.myIter log = some entry.macAddress
  retries : entry.pending = true → entry.numRetries = timeouts entry.myIter log

structure Consistent (cfg : Config) (a : ARPModule) : Prop where
  index : a.arpCache.Indexes a.entries ARPCacheEntry.myIter
  freshEntry : ∀ e, a.nextEntry ≤ e → a.entries.find? e = none
  freshTimer : ∀ t, a.nextTimer ≤ t → a.timers.find? t = none
  timers : ∀ t e, a.timers.find? t = some e →
    ∃ entry, a.entries.find? e = some entry ∧ entry.timer = some t
  entry : ∀ e entry, a.entries.find? e = some entry → EntryInv a.log a.timers e entry
  covered : ∀ msg ie hop, Waiting a.log msg ie hop → ∃ e, a.arpCache.find? hop = some e
  ledger : Ledger cfg.retryCount a.log a.pendingQueue a.nextMsg

/-- A datagram whose next hop is being resolved comes with the interface of the entry. -/
def SameInterface (a : ARPModule) : Event → Prop
  | .outbound _ ie nextHopAddr destAddress =>
      ∀ e entry, a.arpCache.find? (if nextHopAddr ≠ 0 then nextHopAddr else destAddress) = some e →
        a.entries.find? e = some entry → entry.pending = true → entry.ie = ie
  | _ => True

/-- Errors that packets from outside can cause. -/
def Fault.IsExternal : Fault → Prop
  | .notInQueue _ => False
  | .nullPointer => False
  | _ => True

variable {cfg : Config} {a a' : ARPModule} {e : ℕ} {entry entry' : ARPCacheEntry}

theorem consistent_start (cfg : Config) : Consistent cfg {} where
  index := OrderedMap.indexes_empty _
  freshEntry _ _ := rfl
  freshTimer _ _ := rfl
  timers _ _ := nofun
  entry _ _ := nofun
  covered _ _ _ h := nomatch h.handed
  ledger :=
    { sorted := List.Pairwise.nil
      mem_iff := fun _ ↦ ⟨nofun, fun ⟨_, _, h⟩ ↦ nomatch h.handed⟩
      numbered := nofun
      settled := fun _ h ↦ absurd rfl h
      lawful := trivial }

/-- An entry is not affected by what does not concern its next hop. -/
theorem EntryInv.congr {log log' : List LogEntry} {timers timers' : OrderedMap ℕ ℕ}
    (h : EntryInv log timers e entry)
    (hwaiting : ∀ msg ie, Waiting log' msg ie entry.myIter ↔ Waiting log msg ie entry.myIter)
    (hheard : lastHeard entry.myIter log' = lastHeard entry.myIter log)
    (htimeouts : ARP.timeouts entry.myIter log' = ARP.timeouts entry.myIter log)
    (htimers : ∀ t, timers.find? t = some e → timers'.find? t = some e) :
    EntryInv log' timers' e entry where
  timed hp := by
    obtain ⟨t, ht, ht'⟩ := h.timed hp
    exact ⟨t, ht, htimers t ht'⟩
  untimed := h.untimed
  idle := h.idle
  sorted := h.sorted
  packets msg := by
    rw [h.packets]
    exact exists_congr fun ie ↦ (hwaiting msg ie).symm
  own msg ie hwait := h.own msg ie ((hwaiting msg ie).mp hwait)
  mac hp := hheard.trans (h.mac hp)
  retries hp := (h.retries hp).trans htimeouts.symm

theorem EntryInv.elsewhere {log log' : List LogEntry} {timers timers' : OrderedMap ℕ ℕ}
    {hop : IPAddress} (h : EntryInv log timers e entry) (hsame : SameElsewhere hop log log')
    (hne : entry.myIter ≠ hop)
    (htimers : ∀ t, timers.find? t = some e → timers'.find? t = some e) :
    EntryInv log' timers' e entry :=
  h.congr (fun msg ie ↦ hsame.waiting msg ie _ hne) (hsame.heard _ hne) (hsame.timeouts _ hne)
    htimers

/-- One entry is new or changes, and all that concerns other next hops stays. -/
theorem Consistent.change (h : Consistent cfg a)
    (hindex : a'.arpCache.Indexes a'.entries ARPCacheEntry.myIter)
    (hfresh : ∀ e', a'.nextEntry ≤ e' → a'.entries.find? e' = none)
    (hfreshTimer : ∀ t, a'.nextTimer ≤ t → a'.timers.find? t = none)
    (hentry : a'.entries.find? e = some entry')
    (hothers : ∀ e', e' ≠ e → a'.entries.find? e' = a.entries.find? e')
    (htimers : ∀ t e', e' ≠ e → (a'.timers.find? t = some e' ↔ a.timers.find? t = some e'))
    (howner : ∀ t, a'.timers.find? t = some e → entry'.timer = some t)
    (hcache : ∀ hop, hop ≠ entry'.myIter → a'.arpCache.find? hop = a.arpCache.find? hop)
    (hsame : SameElsewhere entry'.myIter a.log a'.log)
    (hinv : EntryInv a'.log a'.timers e entry')
    (hledger : Ledger cfg.retryCount a'.log a'.pendingQueue a'.nextMsg) : Consistent cfg a' where
  index := hindex
  freshEntry := hfresh
  freshTimer := hfreshTimer
  timers t e' ht := by
    by_cases he : e' = e
    · subst he
      exact ⟨entry', hentry, howner t ht⟩
    · obtain ⟨entry₁, h₁, ht₁⟩ := h.timers t e' ((htimers t e' he).mp ht)
      exact ⟨entry₁, by rw [hothers e' he]; exact h₁, ht₁⟩
  entry e' entry₁ h₁ := by
    by_cases he : e' = e
    · subst he
      rw [hentry] at h₁
      cases h₁
      exact hinv
    · have hne : entry₁.myIter ≠ entry'.myIter := by
        intro heq
        have hfind := hindex.find? h₁
        rw [heq, hindex.find? hentry] at hfind
        exact he (Option.some.inj hfind).symm
      rw [hothers e' he] at h₁
      exact (h.entry e' entry₁ h₁).elsewhere hsame hne fun t ↦ (htimers t e' he).mpr
  covered msg ie hop hwait := by
    by_cases hhop : hop = entry'.myIter
    · subst hhop
      exact ⟨e, hindex.find? hentry⟩
    · rw [hcache hop hhop]
      exact h.covered msg ie hop ((hsame.waiting msg ie hop hhop).mp hwait)
  ledger := hledger

/-- Something is logged that concerns neither packets nor addresses. -/
theorem Consistent.note (h : Consistent cfg a) {x : LogEntry} (hx : x.isNeutral = true)
    (hheard : ∀ hop, lastHeard hop (x :: a.log) = lastHeard hop a.log)
    (htimeouts : ∀ hop, ARP.timeouts hop (x :: a.log) = ARP.timeouts hop a.log) :
    Consistent cfg (a.note x) where
  index := h.index
  freshEntry := h.freshEntry
  freshTimer := h.freshTimer
  timers := h.timers
  entry e' entry₁ h₁ := (h.entry e' entry₁ h₁).congr (fun _ _ ↦ waiting_cons_neutral hx)
    (hheard _) (htimeouts _) fun _ ht ↦ ht
  covered msg ie hop hwait := h.covered msg ie hop ((waiting_cons_neutral hx).mp hwait)
  ledger := h.ledger.neutral hx

/-- The loop that empties `pendingPackets`. All packets that wait for `hop` are done with, the
oldest first. -/
theorem drain_spec (a : ARPModule) (fate : ℕ → LogEntry) (hop : IPAddress) {retryCount : ℤ}
    {msgs : List ℕ} (hledger : Ledger retryCount a.log a.pendingQueue a.nextMsg)
    (hsorted : msgs.Pairwise (· < ·)) (hmsgs : ∀ msg, msg ∈ msgs ↔ ∃ ie, Waiting a.log msg ie hop)
    (hfate : ∀ msg m, (fate msg).settles m = true ↔ m = msg)
    (hnext : ∀ log msg ie, lastHeard hop log = lastHeard hop a.log →
      timeouts hop log = timeouts hop a.log →
      (∀ msg ie, Waiting log msg ie hop → Waiting a.log msg ie hop) → Waiting log msg ie hop →
      (∀ msg' ie', Waiting log msg' ie' hop → msg ≤ msg') →
      LawfulNext retryCount log (fate msg)) :
    ∃ log queue, drain fate msgs a = .ok { a with pendingQueue := queue, log := log } ∧
      Ledger retryCount log queue a.nextMsg ∧ SameElsewhere hop a.log log ∧
      (∀ msg ie, ¬ Waiting log msg ie hop) ∧ lastHeard hop log = lastHeard hop a.log ∧
      timeouts hop log = timeouts hop a.log := by
  induction msgs generalizing a with
  | nil =>
    refine ⟨a.log, a.pendingQueue, rfl, hledger, .refl hop a.log, fun msg ie hwait ↦ ?_, rfl, rfl⟩
    cases (hmsgs msg).mpr ⟨ie, hwait⟩
  | cons msg msgs ih =>
    obtain ⟨hhead, htail⟩ := List.pairwise_cons.mp hsorted
    obtain ⟨ie, hwait⟩ := (hmsgs msg).mp List.mem_cons_self
    have hmem : msg ∈ a.pendingQueue := (hledger.mem_iff msg).mpr ⟨ie, hop, hwait⟩
    have holdest : ∀ msg' ie', Waiting a.log msg' ie' hop → msg ≤ msg' := by
      intro msg' ie' hwait'
      rcases List.mem_cons.mp ((hmsgs msg').mpr ⟨ie', hwait'⟩) with rfl | hlater
      · exact le_refl _
      · exact (hhead msg' hlater).le
    have hself : (fate msg).settles msg = true := (hfate msg msg).mpr rfl
    have hlaw := hnext a.log msg ie rfl rfl (fun _ _ h ↦ h) hwait holdest
    let b := { a with pendingQueue := a.pendingQueue.erase msg }.note (fate msg)
    have hb : Ledger retryCount b.log b.pendingQueue b.nextMsg :=
      hledger.settle hwait (hfate msg) hlaw
    have hheard : lastHeard hop b.log = lastHeard hop a.log := Ledger.lastHeard_cons_settles hself
    have htime : timeouts hop b.log = timeouts hop a.log := Ledger.timeouts_cons_settles hself
    have hwaiting : ∀ msg' ie', Waiting b.log msg' ie' hop ↔
        Waiting a.log msg' ie' hop ∧ msg' ≠ msg := fun _ _ ↦ waiting_cons_settles (hfate msg)
    have hrest : ∀ msg', msg' ∈ msgs ↔ ∃ ie', Waiting b.log msg' ie' hop := by
      intro msg'
      simp only [hwaiting]
      constructor
      · intro hin
        obtain ⟨ie', hwait'⟩ := (hmsgs msg').mp (List.mem_cons_of_mem _ hin)
        exact ⟨ie', hwait', (hhead msg' hin).ne'⟩
      · rintro ⟨ie', hwait', hne⟩
        exact (List.mem_cons.mp ((hmsgs msg').mpr ⟨ie', hwait'⟩)).resolve_left hne
    obtain ⟨log, queue, hdrain, hl, hsame, hnone, hheard', htime'⟩ := ih b hb htail hrest
      fun log msg' ie' h₁ h₂ h₃ ↦ hnext log msg' ie' (h₁.trans hheard) (h₂.trans htime)
        fun m i hw ↦ ((hwaiting m i).mp (h₃ m i hw)).1
    refine ⟨log, queue, ?_, hl, (hledger.sameElsewhere_settle hwait (hfate msg)).trans hsame, hnone,
      hheard'.trans hheard, htime'.trans htime⟩
    unfold drain
    rw [if_pos hmem]
    exact hdrain

theorem sendARPRequest_spec (b : ARPModule) (ie : ℕ) (ip : IPAddress) :
    Outcome (b.sendARPRequest cfg ie ip) (fun b' ↦ ∃ arp, b' = b.note (.arpSent ie arp broadcastAddr))
      Fault.IsExternal := by
  unfold sendARPRequest
  apply Outcome.check_bind trivial
  apply Outcome.check_bind trivial
  exact ⟨_, rfl⟩

/-! ## Datagrams from IP -/

section Outbound

variable {ie : ℕ} {hop : IPAddress}

theorem queuePacket_eq {msg : ℕ} (entry : ARPCacheEntry) (h : a.entries.find? e = some entry) :
    a.queuePacket e msg =
      .ok { a.store e { entry with pendingPackets := entry.pendingPackets ++ [msg] } with
            pendingQueue := a.pendingQueue ++ [msg] } := by
  unfold ARPModule.queuePacket
  rw [h]

theorem EntryInv.queue {retryCount : ℤ} {queue : List ℕ} {next : ℕ} {log : List LogEntry}
    {timers : OrderedMap ℕ ℕ} (h : EntryInv log timers e entry)
    (hledger : Ledger retryCount log queue next) (hpending : entry.pending = true) :
    EntryInv (.handed next entry.ie entry.myIter :: log) timers e
      { entry with pendingPackets := entry.pendingPackets ++ [next] } where
  timed := h.timed
  untimed := h.untimed
  idle hp := by
    rw [show entry.pending = false from hp] at hpending
    cases hpending
  sorted := by
    rw [List.pairwise_append]
    refine ⟨h.sorted, List.pairwise_singleton _ _, fun msg hmsg msg' hmsg' ↦ ?_⟩
    obtain ⟨ie', hwait⟩ := (h.packets msg).mp hmsg
    rw [List.mem_singleton.mp hmsg']
    exact hledger.numbered msg ie' _ hwait.handed
  packets msg := by
    simp only [List.mem_append, List.mem_singleton, h.packets,
      waiting_cons_handed hledger.unsettled_next]
    constructor
    · rintro (⟨ie', hwait⟩ | rfl)
      · exact ⟨ie', .inl hwait⟩
      · exact ⟨entry.ie, .inr ⟨rfl, rfl, trivial⟩⟩
    · rintro ⟨ie', hwait | ⟨hmsg, _⟩⟩
      · exact .inl ⟨ie', hwait⟩
      · exact .inr hmsg
  own msg ie' hwait := by
    rcases (waiting_cons_handed hledger.unsettled_next).mp hwait with hwait | ⟨_, hie, _⟩
    · exact h.own msg ie' hwait
    · exact hie
  mac hp := by
    rw [show entry.pending = false from hp] at hpending
    cases hpending
  retries hp := h.retries hp

theorem Consistent.queuePacket (h : Consistent cfg a) (hentry : a.entries.find? e = some entry)
    (hpending : entry.pending = true) :
    Outcome (({ a with nextMsg := a.nextMsg + 1 }.note
        (.handed a.nextMsg entry.ie entry.myIter)).queuePacket e a.nextMsg)
      (Consistent cfg) Fault.IsExternal := by
  have hfind : ({ a with nextMsg := a.nextMsg + 1 }.note
      (.handed a.nextMsg entry.ie entry.myIter)).entries.find? e = some entry := hentry
  rw [queuePacket_eq entry hfind]
  have hne : ∀ e', a.nextEntry ≤ e' → e' ≠ e := by
    rintro e' he' rfl
    rw [h.freshEntry _ he'] at hentry
    cases hentry
  refine h.change (h.index.update hentry rfl) (fun e' he' ↦ ?_) h.freshTimer
    OrderedMap.find?_insert_self (fun e' he' ↦ OrderedMap.find?_insert_of_ne he')
    (fun _ _ _ ↦ Iff.rfl) (fun t ht ↦ ?_) (fun _ _ ↦ rfl)
    (.note_handed h.ledger.unsettled_next)
    ((h.entry e entry hentry).queue h.ledger hpending) (h.ledger.hand entry.ie entry.myIter)
  · refine (OrderedMap.find?_insert_of_ne (hne e' he')).trans (h.freshEntry e' he')
  · obtain ⟨entry₁, h₁, ht₁⟩ := h.timers t e ht
    rw [hentry] at h₁
    cases h₁
    exact ht₁

theorem Consistent.send (h : Consistent cfg a) (hentry : a.entries.find? e = some entry)
    (hpending : entry.pending = false) (ie : ℕ) :
    Consistent cfg (({ a with nextMsg := a.nextMsg + 1 }.note
      (.handed a.nextMsg ie entry.myIter)).note (.sent a.nextMsg ie entry.macAddress)) := by
  have hinv := h.entry e entry hentry
  have hhand := h.ledger.hand ie entry.myIter
  have hnew := h.ledger.unsettled_next
  have hsettles : ∀ m, (LogEntry.sent a.nextMsg ie entry.macAddress).settles m = true ↔
      m = a.nextMsg := by
    intro m
    simp [LogEntry.settles, eq_comm]
  have hnone : ∀ msg ie', ¬ Waiting a.log msg ie' entry.myIter := by
    intro msg ie' hwait
    have hmem := (hinv.packets msg).mpr ⟨ie', hwait⟩
    rw [hinv.idle hpending] at hmem
    cases hmem
  have hwait : Waiting (.handed a.nextMsg ie entry.myIter :: a.log) a.nextMsg ie entry.myIter :=
    (waiting_cons_handed hnew).mpr (.inr ⟨rfl, rfl, rfl⟩)
  have hlaw : LawfulNext cfg.retryCount (.handed a.nextMsg ie entry.myIter :: a.log)
      (.sent a.nextMsg ie entry.macAddress) := by
    refine ⟨entry.myIter, hwait, hinv.mac hpending, fun msg' ie' hwait' ↦ ?_⟩
    rcases (waiting_cons_handed hnew).mp hwait' with hold | ⟨hmsg, _⟩
    · exact absurd hold (hnone msg' ie')
    · exact hmsg.ge
  have hledger := hhand.settle hwait hsettles hlaw
  have herase : (a.pendingQueue ++ [a.nextMsg]).erase a.nextMsg = a.pendingQueue := by
    have hout : a.nextMsg ∉ a.pendingQueue := by
      intro hmem
      obtain ⟨ie', hop', hold⟩ := (h.ledger.mem_iff _).mp hmem
      exact absurd (h.ledger.numbered _ ie' hop' hold.handed) (lt_irrefl _)
    rw [List.erase_append_right _ hout, List.erase_cons_head, List.append_nil]
  rw [herase] at hledger
  have hsame : SameElsewhere entry.myIter a.log (.sent a.nextMsg ie entry.macAddress ::
      .handed a.nextMsg ie entry.myIter :: a.log) :=
    (SameElsewhere.note_handed hnew).trans (hhand.sameElsewhere_settle hwait hsettles)
  refine h.change h.index h.freshEntry h.freshTimer hentry (fun _ _ ↦ rfl) (fun _ _ _ ↦ Iff.rfl)
    (fun t ht ↦ ?_) (fun _ _ ↦ rfl) hsame
    (hinv.congr (fun msg ie' ↦ ?_) rfl rfl fun _ ht ↦ ht) hledger
  · obtain ⟨entry₁, h₁, ht₁⟩ := h.timers t e ht
    rw [hentry] at h₁
    cases h₁
    exact ht₁
  · apply iff_of_false
    · intro hw
      obtain ⟨hw, hmsg⟩ := (waiting_cons_settles hsettles).mp hw
      rcases (waiting_cons_handed hnew).mp hw with hold | ⟨heq, _⟩
      · exact hnone msg ie' hold
      · exact hmsg heq
    · exact hnone msg ie'

/-- A resolution starts for the datagram, at a new entry or at one that is not pending. -/
theorem Consistent.initiate (h : Consistent cfg a) {entries : OrderedMap ℕ ARPCacheEntry}
    {nextEntry : ℕ} {arpCache : OrderedMap IPAddress ℕ} (entry₀ : ARPCacheEntry)
    (hindex : arpCache.Indexes entries ARPCacheEntry.myIter)
    (hfresh : ∀ e', nextEntry ≤ e' → entries.find? e' = none)
    (hentry : entries.find? e = some entry) (hkey : entry₀.myIter = entry.myIter)
    (hothers : ∀ e', e' ≠ e → entries.find? e' = a.entries.find? e')
    (hcache : ∀ hop, hop ≠ entry₀.myIter → arpCache.find? hop = a.arpCache.find? hop)
    (htimer : ∀ t, a.timers.find? t ≠ some e) (hempty : entry₀.pendingPackets = [])
    (hnone : ∀ msg ie, ¬ Waiting a.log msg ie entry₀.myIter) :
    Outcome (({ a with nextMsg := a.nextMsg + 1, entries, nextEntry, arpCache }.note
        (.handed a.nextMsg entry₀.ie entry₀.myIter)).initiateARPResolution cfg e entry₀ >>=
        fun b ↦ b.queuePacket e a.nextMsg)
      (Consistent cfg) Fault.IsExternal := by
  unfold initiateARPResolution
  apply Outcome.bind (sendARPRequest_spec _ _ _)
  rintro b ⟨arp, rfl⟩
  have hnew := h.ledger.unsettled_next
  let started : ARPCacheEntry :=
    { entry₀ with pending := true, numRetries := 0, lastUpdate := 0, timer := some a.nextTimer }
  have hstarted : arpCache.Indexes (entries.insert e started) ARPCacheEntry.myIter :=
    hindex.update hentry hkey
  have hfind : (entries.insert e started).find? e = some started := OrderedMap.find?_insert_self
  have hne : ∀ e', nextEntry ≤ e' → e' ≠ e := by
    rintro e' he' rfl
    rw [hfresh _ he'] at hentry
    cases hentry
  have hwaiting : ∀ msg ie, Waiting (.arpSent entry₀.ie arp broadcastAddr ::
      .resolving entry₀.myIter :: .handed a.nextMsg entry₀.ie entry₀.myIter :: a.log) msg ie
        entry₀.myIter ↔ msg = a.nextMsg ∧ ie = entry₀.ie := by
    intro msg ie
    rw [waiting_cons_neutral rfl, waiting_cons_neutral rfl, waiting_cons_handed hnew,
      or_iff_right (hnone msg ie)]
    exact and_congr_right fun _ ↦ and_iff_left rfl
  rw [queuePacket_eq started OrderedMap.find?_insert_self]
  refine h.change
    (hstarted.update hfind rfl) (fun e' he' ↦ ?_) (fun t ht ↦ ?_)
    OrderedMap.find?_insert_self (fun e' he' ↦ ?_) (fun t e' he' ↦ ?_) (fun t ht ↦ ?_) hcache ?_
    ⟨fun _ ↦ ⟨a.nextTimer, rfl, OrderedMap.find?_insert_self⟩, nofun, nofun, ?_, fun msg ↦ ?_,
      fun msg ie hwait ↦ ((hwaiting msg ie).mp hwait).2, nofun, fun _ ↦ ?_⟩ ?_
  · refine (OrderedMap.find?_insert_of_ne (hne e' he')).trans ?_
    exact (OrderedMap.find?_insert_of_ne (hne e' he')).trans (hfresh e' he')
  · replace ht : a.nextTimer + 1 ≤ t := ht
    change (a.timers.insert a.nextTimer e).find? t = none
    rw [OrderedMap.find?_insert_of_ne (by omega)]
    exact h.freshTimer t (by omega)
  · refine (OrderedMap.find?_insert_of_ne he').trans ?_
    exact (OrderedMap.find?_insert_of_ne he').trans (hothers e' he')
  · change (a.timers.insert a.nextTimer e).find? t = some e' ↔ _
    rw [OrderedMap.find?_insert]
    split <;> rename_i heq
    · rw [heq, h.freshTimer a.nextTimer (le_refl _)]
      exact iff_of_false (fun hs ↦ he' (Option.some.inj hs).symm) nofun
    · rfl
  · replace ht : (a.timers.insert a.nextTimer e).find? t = some e := ht
    rw [OrderedMap.find?_insert] at ht
    split at ht <;> rename_i heq
    · rw [heq]
    · exact absurd ht (htimer t)
  · exact ((SameElsewhere.note_handed hnew).trans .note_resolving).trans (.note_arpSent _ _ _)
  · change (entry₀.pendingPackets ++ [a.nextMsg]).Pairwise (· < ·)
    rw [hempty]
    exact List.pairwise_singleton _ _
  · change msg ∈ entry₀.pendingPackets ++ [a.nextMsg] ↔ _
    rw [hempty, List.nil_append, List.mem_singleton]
    constructor
    · intro hmsg
      exact ⟨entry₀.ie, (hwaiting msg entry₀.ie).mpr ⟨hmsg, rfl⟩⟩
    · rintro ⟨ie, hwait⟩
      exact ((hwaiting msg ie).mp hwait).1
  · exact (if_pos rfl).symm
  · exact ((h.ledger.hand entry₀.ie entry₀.myIter).neutral rfl).neutral rfl

theorem Consistent.resolve (h : Consistent cfg a) (now : ℤ)
    (hown : ∀ e entry, a.arpCache.find? hop = some e → a.entries.find? e = some entry →
      entry.pending = true → entry.ie = ie) :
    Outcome (({ a with nextMsg := a.nextMsg + 1 }.note (.handed a.nextMsg ie hop)).resolve cfg now
      a.nextMsg ie hop) (Consistent cfg) Fault.IsExternal := by
  have hne : ∀ t e', a.entries.find? e' = none → a.timers.find? t ≠ some e' := by
    intro t e' hnone ht
    obtain ⟨entry, hentry, _⟩ := h.timers t e' ht
    rw [hnone] at hentry
    cases hentry
  unfold ARPModule.resolve
  dsimp only [ARPModule.note]
  cases hcache : a.arpCache.find? hop with
  | none =>
    have hnone := h.freshEntry a.nextEntry (le_refl _)
    refine h.initiate { ie, myIter := hop } (h.index.add hnone hcache)
      (fun e' he' ↦ ?_) OrderedMap.find?_insert_self rfl
      (fun e' he' ↦ OrderedMap.find?_insert_of_ne he')
      (fun hop' hne' ↦ OrderedMap.find?_insert_of_ne hne') (fun t ↦ hne t _ hnone) rfl
      (fun msg ie' hwait ↦ ?_)
    · replace he' : a.nextEntry + 1 ≤ e' := he'
      change (a.entries.insert a.nextEntry _).find? e' = none
      rw [OrderedMap.find?_insert_of_ne (by omega)]
      exact h.freshEntry e' (by omega)
    · obtain ⟨e, he⟩ := h.covered msg ie' hop hwait
      rw [hcache] at he
      cases he
  | some e =>
    obtain ⟨entry, hentry, hkey⟩ := (h.index hop e).mp hcache
    subst hkey
    have hinv := h.entry e entry hentry
    dsimp only
    rw [hentry]
    apply Outcome.ite
    · intro hpending
      rw [← hown e entry hcache hentry hpending]
      exact h.queuePacket hentry hpending
    intro hpending
    rw [Bool.not_eq_true] at hpending
    apply Outcome.ite
    · intro _
      refine h.initiate { entry with ie } h.index h.freshEntry hentry rfl
        (fun _ _ ↦ rfl) (fun _ _ ↦ rfl) (fun t ht ↦ ?_) (hinv.idle hpending)
        (fun msg ie' hwait ↦ ?_)
      · obtain ⟨entry₁, h₁, ht₁⟩ := h.timers t e ht
        rw [hentry] at h₁
        cases h₁
        rw [hinv.untimed hpending] at ht₁
        cases ht₁
      · have hmem := (hinv.packets msg).mpr ⟨ie', hwait⟩
        rw [hinv.idle hpending] at hmem
        cases hmem
    · intro _
      exact h.send hentry hpending ie

end Outbound

/-! ## Timeouts -/

/-- A retry: the request is sent again and the timer restarted. -/
theorem Consistent.retry (h : Consistent cfg a) {t : ℕ} (ht : a.timers.find? t = some e)
    (hentry : a.entries.find? e = some entry) (hpending : entry.pending = true) :
    Outcome (do
        let b ← (({ a with timers := a.timers.erase t }.store e
          { entry with numRetries := entry.numRetries + 1 }).note
            (.timedOut entry.myIter)).sendARPRequest cfg entry.ie entry.myIter
        return { b with timers := b.timers.insert t e })
      (Consistent cfg) Fault.IsExternal := by
  apply Outcome.bind (sendARPRequest_spec _ _ _)
  rintro b ⟨arp, rfl⟩
  have hinv := h.entry e entry hentry
  have hne : ∀ e', a.nextEntry ≤ e' → e' ≠ e := by
    rintro e' he' rfl
    rw [h.freshEntry _ he'] at hentry
    cases hentry
  have htimers : (a.timers.erase t).insert t e = a.timers := by
    apply OrderedMap.ext_find?
    intro t'
    rw [OrderedMap.find?_insert, OrderedMap.find?_erase]
    by_cases heq : t' = t
    · rw [if_pos heq, heq, ht]
    · rw [if_neg heq, if_neg heq]
  have hkey : ({ entry with numRetries := entry.numRetries + 1 } : ARPCacheEntry).myIter =
      entry.myIter := rfl
  simp only [outcome_ok, pure, Except.pure]
  refine h.change (h.index.update hentry hkey) (fun e' he' ↦ ?_) (fun t' ht' ↦ ?_)
    OrderedMap.find?_insert_self (fun e' he' ↦ OrderedMap.find?_insert_of_ne he')
    (fun t' e' _ ↦ ?_) (fun t' ht' ↦ ?_) (fun _ _ ↦ rfl)
    (SameElsewhere.note_timedOut.trans (.note_arpSent _ _ _)) ?_
    ((h.ledger.neutral rfl).neutral rfl)
  · exact (OrderedMap.find?_insert_of_ne (hne e' he')).trans (h.freshEntry e' he')
  · change ((a.timers.erase t).insert t e).find? t' = none
    rw [htimers]
    exact h.freshTimer t' ht'
  · change ((a.timers.erase t).insert t e).find? t' = some e' ↔ _
    rw [htimers]
  · replace ht' : ((a.timers.erase t).insert t e).find? t' = some e := ht'
    rw [htimers] at ht'
    obtain ⟨entry₁, h₁, ht₁⟩ := h.timers t' e ht'
    rw [hentry] at h₁
    cases h₁
    exact ht₁
  · have hwaiting : ∀ msg ie, Waiting (.arpSent entry.ie arp broadcastAddr ::
        .timedOut entry.myIter :: a.log) msg ie entry.myIter ↔
        Waiting a.log msg ie entry.myIter := by
      intro msg ie
      rw [waiting_cons_neutral rfl, waiting_cons_neutral rfl]
    change EntryInv (.arpSent entry.ie arp broadcastAddr :: .timedOut entry.myIter :: a.log)
      ((a.timers.erase t).insert t e) e { entry with numRetries := entry.numRetries + 1 }
    rw [htimers]
    refine ⟨hinv.timed, hinv.untimed, hinv.idle, hinv.sorted, fun msg ↦ ?_,
      fun msg ie hwait ↦ hinv.own msg ie ((hwaiting msg ie).mp hwait), hinv.mac, fun _ ↦ ?_⟩
    · rw [hinv.packets]
      exact exists_congr fun ie ↦ (hwaiting msg ie).symm
    · change entry.numRetries + 1 = timeouts entry.myIter (.timedOut entry.myIter :: a.log)
      rw [hinv.retries hpending]
      exact (if_pos rfl).symm

theorem Consistent.eq_of_myIter_eq (h : Consistent cfg a) {e' : ℕ} (hentry : a.entries.find? e = some entry)
    (hentry' : a.entries.find? e' = some entry') (heq : entry'.myIter = entry.myIter) : e' = e := by
  have hfind := h.index.find? hentry'
  rw [heq, h.index.find? hentry] at hfind
  exact (Option.some.inj hfind).symm

theorem find?_erase_timer {timers : OrderedMap ℕ ℕ} {t : ℕ} (ht : timers.find? t = some e) (t' : ℕ) {e' : ℕ}
    (hne : e' ≠ e) : (timers.erase t).find? t' = some e' ↔ timers.find? t' = some e' := by
  rw [OrderedMap.find?_erase]
  split <;> rename_i heq
  · rw [heq, ht]
    exact iff_of_false nofun fun hs ↦ hne (Option.some.inj hs).symm
  · rfl

theorem Consistent.ne_of_find?_erase_timer (h : Consistent cfg a) {t t' e' : ℕ}
    (hentry : a.entries.find? e = some entry) (htimer : entry.timer = some t)
    (ht' : (a.timers.erase t).find? t' = some e') : e' ≠ e := by
  rintro rfl
  rw [OrderedMap.find?_erase] at ht'
  split at ht' <;> rename_i heq
  · cases ht'
  · obtain ⟨entry₁, h₁, ht₁⟩ := h.timers t' e' ht'
    rw [hentry] at h₁
    cases h₁
    rw [htimer] at ht₁
    exact heq (Option.some.inj ht₁).symm

/-- The retries are exhausted: the packets are dropped and the entry leaves the cache. -/
theorem Consistent.fail (h : Consistent cfg a) {t : ℕ} (ht : a.timers.find? t = some e)
    (hentry : a.entries.find? e = some entry) (htimer : entry.timer = some t) (hpending : entry.pending = true)
    (hretries : ¬ entry.numRetries + 1 < cfg.retryCount) :
    Outcome (do
        let b ← drain .dropped entry.pendingPackets
          (({ a with timers := a.timers.erase t }.store e
            { entry with numRetries := entry.numRetries + 1 }).note (.timedOut entry.myIter))
        return { b with arpCache := b.arpCache.erase entry.myIter, entries := b.entries.erase e })
      (Consistent cfg) Fault.IsExternal := by
  have hinv := h.entry e entry hentry
  have hwaiting : ∀ msg ie hop, Waiting (.timedOut entry.myIter :: a.log) msg ie hop ↔
      Waiting a.log msg ie hop := fun _ _ _ ↦ waiting_cons_neutral rfl
  have htime : timeouts entry.myIter (.timedOut entry.myIter :: a.log) = entry.numRetries + 1 := by
    rw [hinv.retries hpending]
    exact if_pos rfl
  obtain ⟨log, queue, hdrain, hledger, hsame, hnone, _, _⟩ :=
    drain_spec (({ a with timers := a.timers.erase t }.store e
        { entry with numRetries := entry.numRetries + 1 }).note (.timedOut entry.myIter))
      LogEntry.dropped entry.myIter (h.ledger.neutral rfl) hinv.sorted
      (fun msg ↦ (hinv.packets msg).trans (exists_congr fun ie ↦ (hwaiting msg ie _).symm))
      (fun msg m ↦ by simp [LogEntry.settles, eq_comm])
      fun log msg ie _ hsum _ hwait _ ↦ by
        refine ⟨ie, entry.myIter, hwait, ?_⟩
        rw [hsum]
        change cfg.retryCount ≤ timeouts entry.myIter (.timedOut entry.myIter :: a.log)
        rw [htime]
        omega
  rw [hdrain]
  let entry' := { entry with numRetries := entry.numRetries + 1 }
  have hkey : entry'.myIter = entry.myIter := rfl
  have hindex : (a.arpCache.erase entry.myIter).Indexes ((a.entries.insert e entry').erase e)
      ARPCacheEntry.myIter := by
    have hupdate : a.arpCache.Indexes (a.entries.insert e entry') ARPCacheEntry.myIter :=
      h.index.update hentry hkey
    have hfind : (a.entries.insert e entry').find? e = some entry' :=
      OrderedMap.find?_insert_self
    have hremove := hupdate.remove hfind
    exact hremove
  have hothers : ∀ e', e' ≠ e → ((a.entries.insert e entry').erase e).find? e' =
      a.entries.find? e' := by
    intro e' he'
    rw [OrderedMap.find?_erase_of_ne he', OrderedMap.find?_insert_of_ne he']
  have hgone : ∀ e' entry₁, ((a.entries.insert e entry').erase e).find? e' = some entry₁ →
      e' ≠ e := by
    rintro e' entry₁ h₁ rfl
    rw [OrderedMap.find?_erase_self] at h₁
    cases h₁
  refine ⟨hindex, fun e' he' ↦ ?_, fun t' ht' ↦ ?_, fun t' e' ht' ↦ ?_, fun e' entry₁ h₁ ↦ ?_,
    fun msg ie hop hwait ↦ ?_, hledger⟩
  · change ((a.entries.insert e entry').erase e).find? e' = none
    have hne : e' ≠ e := by
      rintro rfl
      rw [h.freshEntry e' he'] at hentry
      cases hentry
    rw [hothers e' hne]
    exact h.freshEntry e' he'
  · change (a.timers.erase t).find? t' = none
    rw [OrderedMap.find?_erase]
    split
    · rfl
    · exact h.freshTimer t' ht'
  · replace ht' : (a.timers.erase t).find? t' = some e' := ht'
    change ∃ entry₁, ((a.entries.insert e entry').erase e).find? e' = some entry₁ ∧ _
    have hne := h.ne_of_find?_erase_timer hentry htimer ht'
    rw [hothers e' hne]
    exact h.timers t' e' ((find?_erase_timer ht t' hne).mp ht')
  · replace h₁ : ((a.entries.insert e entry').erase e).find? e' = some entry₁ := h₁
    have hne := hgone e' entry₁ h₁
    rw [hothers e' hne] at h₁
    have hhop : entry₁.myIter ≠ entry.myIter := fun heq ↦ hne (h.eq_of_myIter_eq hentry h₁ heq)
    exact (h.entry e' entry₁ h₁).elsewhere (SameElsewhere.note_timedOut.trans hsame) hhop
      fun t' ↦ (find?_erase_timer ht t' hne).mpr
  · by_cases hhop : hop = entry.myIter
    · subst hhop
      exact absurd hwait (hnone msg ie)
    · have hold := (hwaiting msg ie hop).mp ((hsame.waiting msg ie hop hhop).mp hwait)
      obtain ⟨e', he'⟩ := h.covered msg ie hop hold
      exact ⟨e', (OrderedMap.find?_erase_of_ne hhop).trans he'⟩

theorem Consistent.requestTimedOut (h : Consistent cfg a) {t : ℕ}
    (ht : a.timers.find? t = some e) :
    Outcome ({ a with timers := a.timers.erase t }.requestTimedOut cfg t e) (Consistent cfg)
      Fault.IsExternal := by
  obtain ⟨entry, hentry, htimer⟩ := h.timers t e ht
  have hpending : entry.pending = true := by
    by_contra hp
    rw [Bool.not_eq_true] at hp
    rw [(h.entry e entry hentry).untimed hp] at htimer
    cases htimer
  unfold ARPModule.requestTimedOut
  rw [hentry]
  apply Outcome.ite
  · intro _
    exact h.retry ht hentry hpending
  · intro hretries
    exact h.fail ht hentry htimer hpending hretries

/-! ## ARP packets -/

section Packets

variable {ie : ℕ} {arp : ARPPacket}

/-- The cache, with an old entry or one that has just been made, when an ARP packet comes from its
address. -/
structure Learning (a b : ARPModule) (e : ℕ) (entry : ARPCacheEntry) (macAddress : MACAddress) :
    Prop where
  find : b.entries.find? e = some entry
  log : b.log = .heard entry.myIter macAddress :: a.log
  index : b.arpCache.Indexes b.entries ARPCacheEntry.myIter
  fresh : ∀ e', b.nextEntry ≤ e' → b.entries.find? e' = none
  others : ∀ e', e' ≠ e → b.entries.find? e' = a.entries.find? e'
  cache : ∀ hop, hop ≠ entry.myIter → b.arpCache.find? hop = a.arpCache.find? hop
  timers : b.timers = a.timers
  nextTimer : b.nextTimer = a.nextTimer
  queue : b.pendingQueue = a.pendingQueue
  nextMsg : b.nextMsg = a.nextMsg
  timed : entry.pending = true → ∃ t, entry.timer = some t ∧ a.timers.find? t = some e
  untimed : entry.pending = false → entry.timer = none
  owner : ∀ t, a.timers.find? t = some e → entry.timer = some t
  sorted : entry.pendingPackets.Pairwise (· < ·)
  packets : ∀ msg, msg ∈ entry.pendingPackets ↔ ∃ ie, Waiting a.log msg ie entry.myIter
  own : ∀ msg ie, Waiting a.log msg ie entry.myIter → ie = entry.ie

/-- The packets of the entry are sent. `timers` no longer has the timer of the entry. -/
theorem Learning.drain {b : ARPModule} {macAddress : MACAddress}
    (hb : Learning a b e entry macAddress) (h : Consistent cfg a) (timers : OrderedMap ℕ ℕ)
    (learnt : ARPCacheEntry) (htimers : ∀ t e', timers.find? t = some e' ↔
      a.timers.find? t = some e' ∧ e' ≠ e)
    (hpending : learnt.pending = false) (htimer : learnt.timer = none)
    (hempty : learnt.pendingPackets = []) (hkey : learnt.myIter = entry.myIter)
    (hmac : learnt.macAddress = macAddress) :
    Outcome (drain (.sent · entry.ie macAddress) entry.pendingPackets
      ({ b with timers }.store e learnt)) (Consistent cfg) Fault.IsExternal := by
  have hwaiting : ∀ msg ie, Waiting b.log msg ie entry.myIter ↔
      Waiting a.log msg ie entry.myIter := by
    intro msg ie
    rw [hb.log]
    exact waiting_cons_neutral rfl
  have hheard : lastHeard entry.myIter b.log = some macAddress := by
    rw [hb.log]
    exact if_pos rfl
  have hledger : Ledger cfg.retryCount b.log b.pendingQueue b.nextMsg := by
    rw [hb.log, hb.queue, hb.nextMsg]
    exact h.ledger.neutral rfl
  obtain ⟨log, queue, hdrain, hledger', hsame, hnone, hheard', _⟩ :=
    drain_spec ({ b with timers }.store e learnt) (.sent · entry.ie macAddress) entry.myIter hledger
      hb.sorted (fun msg ↦ (hb.packets msg).trans (exists_congr fun ie ↦ (hwaiting msg ie).symm))
      (fun msg m ↦ by simp [LogEntry.settles, eq_comm])
      fun log msg ie hlast _ hback hwait holdest ↦ by
        have hie : ie = entry.ie := hb.own msg ie ((hwaiting msg ie).mp (hback msg ie hwait))
        subst hie
        exact ⟨entry.myIter, hwait, hlast.trans hheard, holdest⟩
  rw [hdrain]
  have hsame' : SameElsewhere entry.myIter a.log log := by
    have hfirst : SameElsewhere entry.myIter a.log b.log := by
      rw [hb.log]
      exact .note_heard macAddress
    exact hfirst.trans hsame
  rw [← hkey] at hsame' hnone hheard hheard'
  refine h.change (hb.index.update hb.find hkey) (fun e' he' ↦ ?_) (fun t ht ↦ ?_)
    OrderedMap.find?_insert_self
    (fun e' he' ↦ (OrderedMap.find?_insert_of_ne he').trans (hb.others e' he'))
    (fun t e' he' ↦ (htimers t e').trans (and_iff_left he'))
    (fun t ht ↦ absurd rfl ((htimers t e).mp ht).2)
    (fun hop hne ↦ hb.cache hop (by rwa [hkey] at hne)) hsame' ⟨?_, fun _ ↦ htimer, fun _ ↦ hempty,
      ?_, fun msg ↦ ?_, fun msg ie hwait ↦ absurd hwait (hnone msg ie), fun _ ↦ ?_, ?_⟩ hledger'
  · have hne : e' ≠ e := by
      rintro rfl
      have hfind := hb.find
      rw [hb.fresh e' he'] at hfind
      cases hfind
    exact (OrderedMap.find?_insert_of_ne hne).trans (hb.fresh e' he')
  · change timers.find? t = none
    cases hfind : timers.find? t with
    | none => rfl
    | some e' =>
      have hold := ((htimers t e').mp hfind).1
      rw [h.freshTimer t (hb.nextTimer ▸ ht)] at hold
      cases hold
  · intro hwaits
    rw [hpending] at hwaits
    cases hwaits
  · rw [hempty]
    exact List.Pairwise.nil
  · rw [hempty]
    apply iff_of_false List.not_mem_nil
    rintro ⟨ie, hwait⟩
    exact hnone msg ie hwait
  · rw [hmac]
    exact hheard'.trans hheard
  · intro hwaits
    rw [hpending] at hwaits
    cases hwaits

/-- The address of an entry is learnt: its timer is cancelled and its packets are sent. -/
theorem Learning.updateARPCache {b : ARPModule} {macAddress : MACAddress}
    (hb : Learning a b e entry macAddress) (h : Consistent cfg a) (now : ℤ) :
    Outcome (b.updateARPCache now e macAddress) (Consistent cfg) Fault.IsExternal := by
  unfold ARPModule.updateARPCache
  rw [hb.find]
  cases hpending : entry.pending with
  | true =>
    obtain ⟨t, ht, hte⟩ := hb.timed hpending
    simp only [hpending, if_true, ht, cancelTimer]
    refine hb.drain h (b.timers.erase t)
      { entry with pending := false, timer := none, numRetries := 0, macAddress,
                   lastUpdate := now, pendingPackets := [] } (fun t' e' ↦ ?_) rfl rfl rfl rfl rfl
    rw [hb.timers, OrderedMap.find?_erase]
    split <;> rename_i heq
    · rw [heq, hte]
      exact iff_of_false nofun fun hs ↦ hs.2 (Option.some.inj hs.1).symm
    · refine (and_iff_left_of_imp fun ht' he' ↦ ?_).symm
      have howner := hb.owner t' (he' ▸ ht')
      rw [ht] at howner
      exact heq (Option.some.inj howner).symm
  | false =>
    simp only [hpending, Bool.false_eq_true, if_false]
    refine hb.drain h b.timers
      { entry with pending := false, macAddress, lastUpdate := now, pendingPackets := [] }
      (fun t' e' ↦ ?_) rfl (hb.untimed hpending) rfl rfl rfl
    rw [hb.timers]
    refine (and_iff_left_of_imp fun ht' he' ↦ ?_).symm
    have howner := hb.owner t' (he' ▸ ht')
    rw [hb.untimed hpending] at howner
    cases howner

/-- An ARP packet from an address that is neither in the cache nor to be put there. -/
theorem Consistent.hear (h : Consistent cfg a) {ip : IPAddress} (macAddress : MACAddress)
    (hcache : a.arpCache.find? ip = none) : Consistent cfg (a.note (.heard ip macAddress)) where
  index := h.index
  freshEntry := h.freshEntry
  freshTimer := h.freshTimer
  timers := h.timers
  entry e entry hentry := by
    have hne : entry.myIter ≠ ip := by
      intro heq
      have hfind := h.index.find? hentry
      rw [heq, hcache] at hfind
      cases hfind
    exact (h.entry e entry hentry).elsewhere (.note_heard macAddress) hne fun _ ht ↦ ht
  covered msg ie hop hwait := h.covered msg ie hop ((waiting_cons_neutral rfl).mp hwait)
  ledger := h.ledger.neutral rfl

theorem Consistent.merge (h : Consistent cfg a) (now : ℤ) (ie : ℕ) (arp : ARPPacket)
    (recognized : Bool) :
    Outcome ((a.note (.heard arp.srcIPAddress arp.srcMACAddress)).merge now ie arp recognized)
      (Consistent cfg) Fault.IsExternal := by
  unfold ARPModule.merge
  dsimp only [ARPModule.note]
  cases hcache : a.arpCache.find? arp.srcIPAddress with
  | some e =>
    obtain ⟨entry, hentry, hkey⟩ := (h.index _ e).mp hcache
    have hinv := h.entry e entry hentry
    have hlearning : Learning a (a.note (.heard arp.srcIPAddress arp.srcMACAddress)) e entry
        arp.srcMACAddress :=
      { find := hentry
        log := by rw [hkey]; rfl
        index := h.index
        fresh := h.freshEntry
        others := fun _ _ ↦ rfl
        cache := fun _ _ ↦ rfl
        timers := rfl
        nextTimer := rfl
        queue := rfl
        nextMsg := rfl
        timed := hinv.timed
        untimed := hinv.untimed
        owner := by
          intro t ht
          obtain ⟨entry₁, h₁, ht₁⟩ := h.timers t e ht
          rw [hentry] at h₁
          cases h₁
          exact ht₁
        sorted := hinv.sorted
        packets := hinv.packets
        own := hinv.own }
    exact hlearning.updateARPCache h now
  | none =>
    have hfresh := h.freshEntry a.nextEntry (le_refl _)
    have hnone : ∀ msg ie, ¬ Waiting a.log msg ie arp.srcIPAddress := by
      intro msg ie hwait
      obtain ⟨e, he⟩ := h.covered msg ie _ hwait
      rw [hcache] at he
      cases he
    apply Outcome.ite
    · intro _
      have hlearning : Learning a ((a.note (.heard arp.srcIPAddress arp.srcMACAddress)).newEntry
          { ie, myIter := arp.srcIPAddress }) a.nextEntry { ie, myIter := arp.srcIPAddress }
          arp.srcMACAddress :=
        { find := OrderedMap.find?_insert_self
          log := rfl
          index := h.index.add hfresh hcache
          fresh := by
            intro e' he'
            replace he' : a.nextEntry + 1 ≤ e' := he'
            change (a.entries.insert a.nextEntry _).find? e' = none
            rw [OrderedMap.find?_insert_of_ne (by omega)]
            exact h.freshEntry e' (by omega)
          others := fun e' he' ↦ OrderedMap.find?_insert_of_ne he'
          cache := fun hop hne ↦ OrderedMap.find?_insert_of_ne hne
          timers := rfl
          nextTimer := rfl
          queue := rfl
          nextMsg := rfl
          timed := by
            intro hpending
            cases hpending
          untimed := fun _ ↦ rfl
          owner := by
            intro t ht
            obtain ⟨entry₁, h₁, _⟩ := h.timers t _ ht
            rw [hfresh] at h₁
            cases h₁
          sorted := List.Pairwise.nil
          packets := by
            intro msg
            apply iff_of_false List.not_mem_nil
            rintro ⟨ie, hwait⟩
            exact hnone msg ie hwait
          own := fun msg ie hwait ↦ absurd hwait (hnone msg ie) }
      exact hlearning.updateARPCache h now
    · intro _
      exact h.hear arp.srcMACAddress hcache

theorem Consistent.processARPPacket (h : Consistent cfg a) (now : ℤ) (rt : RoutingTable) (ie : ℕ)
    (arp : ARPPacket) :
    Outcome (a.processARPPacket cfg now rt ie arp) (Consistent cfg) Fault.IsExternal := by
  unfold ARPModule.processARPPacket
  apply Outcome.check_bind trivial
  apply Outcome.check_bind trivial
  apply Outcome.bind (h.merge now ie arp _)
  intro b hb
  apply Outcome.ite
  · intro _
    unfold answer
    cases arp.opcode with
    | request => exact hb.note rfl (fun _ ↦ rfl) fun _ ↦ rfl
    | reply => exact hb
    | rarpRequest => exact trivial
    | rarpReply => exact trivial
    | other opcode => exact trivial
  · intro _
    exact hb

end Packets

/-! ## Whole runs -/

/-- The number is used up by a datagram that needs no resolution. -/
theorem Consistent.skip (h : Consistent cfg a) :
    Consistent cfg { a with nextMsg := a.nextMsg + 1 } :=
  { h with
    ledger :=
      { h.ledger with
        numbered := fun msg ie hop hmem ↦ Nat.lt_succ_of_lt (h.ledger.numbered msg ie hop hmem)
        settled := fun msg hmsg ↦ Nat.lt_succ_of_lt (h.ledger.settled msg hmsg) } }

theorem Consistent.handleMessage (h : Consistent cfg a) {ev : Event} (hev : SameInterface a ev) :
    Outcome (a.handleMessage cfg ev) (Consistent cfg) Fault.IsExternal := by
  cases ev with
  | outbound now ie nextHopAddr destAddress =>
    unfold ARPModule.handleMessage processOutboundPacket
    apply Outcome.ite
    · intro _
      exact h.skip.note rfl (fun _ ↦ rfl) fun _ ↦ rfl
    intro _
    apply Outcome.ite
    · intro _
      exact h.skip.note rfl (fun _ ↦ rfl) fun _ ↦ rfl
    intro _
    exact h.resolve now hev
  | arp now rt ie arp => exact h.processARPPacket now rt ie arp
  | timeout timer =>
    unfold ARPModule.handleMessage
    dsimp only
    cases ht : a.timers.find? timer with
    | none => exact trivial
    | some e => exact h.requestTimedOut ht

/-- The states of the runs in which no datagram joins those of another interface. -/
def Reaches (cfg : Config) : ARPModule → Prop :=
  Reachable (fun a ↦ a = {}) SameInterface (ARPModule.handleMessage cfg)

/-- The cache, the timers and the queue are in step, and every datagram that was handed to ARP is
accounted for. -/
structure Accounted (cfg : Config) (a : ARPModule) : Prop where
  pending_iff : ∀ ip e entry, a.arpCache.find? ip = some e → a.entries.find? e = some entry →
    (entry.pending = true ↔ ∃ t, entry.timer = some t ∧ a.timers.find? t = some e)
  queued : ∀ ip e entry, a.arpCache.find? ip = some e → a.entries.find? e = some entry →
    entry.pendingPackets ≠ [] → entry.pending = true
  nodup : a.pendingQueue.Nodup ∧ ∀ e entry, a.entries.find? e = some entry →
    entry.pendingPackets.Nodup
  union : ∀ msg, msg ∈ a.pendingQueue ↔ ∃ ip e entry, a.arpCache.find? ip = some e ∧
    a.entries.find? e = some entry ∧ msg ∈ entry.pendingPackets
  disjoint : ∀ msg e e' entry entry', a.entries.find? e = some entry →
    a.entries.find? e' = some entry' → msg ∈ entry.pendingPackets → msg ∈ entry'.pendingPackets →
    e = e'
  once : ∀ msg ie hop, .handed msg ie hop ∈ a.log →
    settlements msg a.log + a.pendingQueue.count msg = 1
  lawful : Lawful cfg.retryCount a.log

theorem Consistent.accounted (h : Consistent cfg a) : Accounted cfg a where
  pending_iff ip e entry _ hentry := by
    have hinv := h.entry e entry hentry
    constructor
    · exact hinv.timed
    · rintro ⟨t, ht, _⟩
      by_contra hp
      rw [Bool.not_eq_true] at hp
      rw [hinv.untimed hp] at ht
      cases ht
  queued ip e entry _ hentry hpackets := by
    by_contra hp
    rw [Bool.not_eq_true] at hp
    exact hpackets ((h.entry e entry hentry).idle hp)
  nodup := ⟨h.ledger.sorted.imp fun hlt ↦ ne_of_lt hlt, fun e entry hentry ↦
    (h.entry e entry hentry).sorted.imp fun hlt ↦ ne_of_lt hlt⟩
  union msg := by
    rw [h.ledger.mem_iff]
    constructor
    · rintro ⟨ie, hop, hwait⟩
      obtain ⟨e, he⟩ := h.covered msg ie hop hwait
      obtain ⟨entry, hentry, hkey⟩ := (h.index hop e).mp he
      subst hkey
      exact ⟨_, e, entry, he, hentry, ((h.entry e entry hentry).packets msg).mpr ⟨ie, hwait⟩⟩
    · rintro ⟨ip, e, entry, _, hentry, hmsg⟩
      obtain ⟨ie, hwait⟩ := ((h.entry e entry hentry).packets msg).mp hmsg
      exact ⟨ie, _, hwait⟩
  disjoint msg e e' entry entry' hentry hentry' hmsg hmsg' := by
    obtain ⟨ie, hwait⟩ := ((h.entry e entry hentry).packets msg).mp hmsg
    obtain ⟨ie', hwait'⟩ := ((h.entry e' entry' hentry').packets msg).mp hmsg'
    exact h.eq_of_myIter_eq hentry' hentry (h.ledger.waiting_unique hwait hwait').2
  once msg ie hop hmem := h.ledger.settlements_add_count hmem
  lawful := h.ledger.lawful

/-- In every run in which a datagram that finds its next hop pending comes with the interface of the
entry, all datagrams are accounted for, and the next event cannot make the module fail on its own
data. -/
theorem arp_accounts_for_packets (cfg : Config) (a : ARPModule) (h : Reaches cfg a) :
    Accounted cfg a ∧ ∀ ev, SameInterface a ev →
      Outcome (a.handleMessage cfg ev) (fun _ ↦ True) Fault.IsExternal := by
  have hinit : ∀ a : ARPModule, a = {} → Consistent cfg a := by
    rintro _ rfl
    exact consistent_start cfg
  have hstep : ∀ a ev, Consistent cfg a → SameInterface a ev →
      Outcome (a.handleMessage cfg ev) (Consistent cfg) Fault.IsExternal :=
    fun _ _ hs hev ↦ hs.handleMessage hev
  obtain ⟨hcons, hnext⟩ := Reachable.outcome hinit hstep h
  exact ⟨hcons.accounted, fun ev hev ↦ (hnext ev hev).post fun _ _ ↦ trivial⟩

/-- Broadcast interfaces in the network 10.0.0.0/24. -/
def lan : Config where
  retryCount := 3
  cacheTimeout := 120
  doProxyARP := false
  getInterfaceById i := ⟨BitVec.ofNat 48 (i + 1), 0x0A000001, 0xFFFFFF00, true⟩

def neighbour : IPAddress := 0x0A000009

def replyOf (ip : IPAddress) (macAddress : MACAddress) : Event :=
  .arp 1 ⟨fun _ ↦ false, fun _ ↦ none⟩ 0
    { opcode := .reply, srcMACAddress := macAddress, srcIPAddress := ip,
      destIPAddress := 0x0A000001 }

theorem arp_accounts_for_packets_resolved :
    ∃ a, Reaches lan a ∧ .sent 0 0 0x99 ∈ a.log ∧ Accounted lan a := by
  have hrun : ∃ a₁, ARPModule.handleMessage lan {} (.outbound 0 0 neighbour 0) = .ok a₁ ∧
      ∃ a₂, a₁.handleMessage lan (replyOf neighbour 0x99) = .ok a₂ ∧
        .sent 0 0 0x99 ∈ a₂.log := ⟨_, rfl, _, rfl, by decide⟩
  obtain ⟨a₁, h₁, a₂, h₂, hsent⟩ := hrun
  have hstart : Reaches lan {} := .start rfl
  have hfirst : SameInterface {} (.outbound 0 0 neighbour 0) := fun _ _ hfind ↦ nomatch hfind
  have hsecond : SameInterface a₁ (replyOf neighbour 0x99) := trivial
  have hreach₂ : Reaches lan a₂ := (hstart.next hfirst h₁).next hsecond h₂
  exact ⟨a₂, hreach₂, hsent, (arp_accounts_for_packets lan a₂ hreach₂).1⟩

/-- Two datagrams for one next hop, the second with interface 1: both are sent on interface 0. -/
theorem arp_misdirects_packet :
    ∃ a, Reachable (fun a ↦ a = {}) (fun _ _ ↦ True) (ARPModule.handleMessage lan) a ∧
      ¬ Accounted lan a := by
  have hrun : ∃ a₁, ARPModule.handleMessage lan {} (.outbound 0 0 neighbour 0) = .ok a₁ ∧
      ∃ a₂, a₁.handleMessage lan (.outbound 0 1 neighbour 0) = .ok a₂ ∧
        ∃ a₃, a₂.handleMessage lan (replyOf neighbour 0x99) = .ok a₃ ∧
          a₃.log = [.sent 1 0 0x99, .sent 0 0 0x99, .heard neighbour 0x99, .handed 1 1 neighbour,
            .arpSent 0 ⟨.request, 1, 0x0A000001, neighbour, 0⟩ broadcastAddr, .resolving neighbour,
            .handed 0 0 neighbour] := ⟨_, rfl, _, rfl, _, rfl, rfl⟩
  obtain ⟨a₁, h₁, a₂, h₂, a₃, h₃, hlog⟩ := hrun
  have hstart : Reachable (fun a : ARPModule ↦ a = {}) (fun _ _ ↦ True)
      (ARPModule.handleMessage lan) {} := .start rfl
  refine ⟨a₃, ((hstart.next trivial h₁).next trivial h₂).next trivial h₃, fun h ↦ ?_⟩
  have hlaw := h.lawful
  rw [hlog] at hlaw
  obtain ⟨hop, hwait, _⟩ := hlaw.2
  simpa using hwait.handed

end InetManet.ARP
