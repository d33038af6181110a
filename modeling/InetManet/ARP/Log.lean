import InetManet.ARP.Cache

/-!
# What the log of the ARP module says

A datagram waits from the moment it is handed to ARP until it is sent or dropped. The log is lawful
if datagrams are sent on the interface they came with, to the address last heard of their next hop
and not before an older one that waits for the same next hop, and dropped only when the retries are
exhausted. `Ledger` adds `pendingQueue`, which holds the datagrams that wait.
-/

namespace InetManet.ARP

/-- The datagram is done with. -/
def LogEntry.settles (msg : ℕ) : LogEntry → Bool
  | .sent msg' _ _ => msg' = msg
  | .dropped msg' => msg' = msg
  | _ => false

/-- How often a datagram was sent or dropped. -/
def settlements (msg : ℕ) (log : List LogEntry) : ℕ := log.countP (·.settles msg)

structure Waiting (log : List LogEntry) (msg ie : ℕ) (nextHop : IPAddress) : Prop where
  handed : .handed msg ie nextHop ∈ log
  unsettled : settlements msg log = 0

/-- The address in the last ARP packet that came from `ip`. -/
def lastHeard (ip : IPAddress) : List LogEntry → Option MACAddress
  | [] => none
  | .heard ip' macAddress :: log => if ip' = ip then some macAddress else lastHeard ip log
  | _ :: log => lastHeard ip log

/-- The timeouts since the resolution of `ip` started. -/
def timeouts (ip : IPAddress) : List LogEntry → ℤ
  | [] => 0
  | .resolving ip' :: log => if ip' = ip then 0 else timeouts ip log
  | .timedOut ip' :: log => if ip' = ip then timeouts ip log + 1 else timeouts ip log
  | _ :: log => timeouts ip log

/-- What may happen after `log`. -/
def LawfulNext (retryCount : ℤ) (log : List LogEntry) : LogEntry → Prop
  | .handed msg _ _ => ∀ msg' ie nextHop, .handed msg' ie nextHop ∈ log → msg' < msg
  | .sent msg ie macAddress => ∃ nextHop, Waiting log msg ie nextHop ∧
      lastHeard nextHop log = some macAddress ∧
      ∀ msg' ie', Waiting log msg' ie' nextHop → msg ≤ msg'
  | .dropped msg => ∃ ie nextHop, Waiting log msg ie nextHop ∧ retryCount ≤ timeouts nextHop log
  | _ => True

def Lawful (retryCount : ℤ) : List LogEntry → Prop
  | [] => True
  | x :: log => Lawful retryCount log ∧ LawfulNext retryCount log x

/-- Neither a datagram that comes nor one that leaves. -/
def LogEntry.isNeutral : LogEntry → Bool
  | .handed _ _ _ => false
  | .sent _ _ _ => false
  | .dropped _ => false
  | _ => true

section Waiting

variable {log log' : List LogEntry} {x : LogEntry} {msg msg' ie ie' : ℕ} {hop hop' : IPAddress}

theorem settlements_cons :
    settlements msg (x :: log) = settlements msg log + if x.settles msg then 1 else 0 := by
  unfold settlements
  rw [List.countP_cons]

theorem waiting_cons_neutral (hx : x.isNeutral = true) :
    Waiting (x :: log) msg ie hop ↔ Waiting log msg ie hop := by
  have hset : x.settles msg = false := by
    cases x <;> first | rfl | cases hx
  have hne : .handed msg ie hop ≠ x := by
    rintro rfl
    cases hx
  have hcount : settlements msg (x :: log) = settlements msg log := by
    rw [settlements_cons, hset]
    rfl
  constructor
  · intro h
    exact ⟨(List.mem_cons.mp h.handed).resolve_left hne, hcount ▸ h.unsettled⟩
  · intro h
    exact ⟨List.mem_cons_of_mem _ h.handed, hcount.trans h.unsettled⟩

theorem waiting_cons_settles (hx : ∀ m, x.settles m = true ↔ m = msg) :
    Waiting (x :: log) msg' ie hop ↔ Waiting log msg' ie hop ∧ msg' ≠ msg := by
  have hself := (hx msg).mpr rfl
  have hne : .handed msg' ie hop ≠ x := by
    rintro rfl
    cases hself
  constructor
  · intro h
    have hcount := h.unsettled
    rw [settlements_cons] at hcount
    refine ⟨⟨(List.mem_cons.mp h.handed).resolve_left hne, by omega⟩, ?_⟩
    rintro rfl
    rw [if_pos hself] at hcount
    omega
  · rintro ⟨h, hmsg⟩
    have hset : ¬ x.settles msg' = true := fun hs ↦ hmsg ((hx msg').mp hs)
    refine ⟨List.mem_cons_of_mem _ h.handed, ?_⟩
    rw [settlements_cons, if_neg hset]
    exact h.unsettled

theorem waiting_cons_handed (hnew : settlements msg log = 0) :
    Waiting (.handed msg ie hop :: log) msg' ie' hop' ↔
      Waiting log msg' ie' hop' ∨ msg' = msg ∧ ie' = ie ∧ hop' = hop := by
  have hcount : ∀ m, settlements m (.handed msg ie hop :: log) = settlements m log := by
    intro m
    rw [settlements_cons]
    rfl
  constructor
  · intro h
    rcases List.mem_cons.mp h.handed with heq | hmem
    · cases heq
      exact .inr ⟨rfl, rfl, rfl⟩
    · exact .inl ⟨hmem, by rw [← hcount]; exact h.unsettled⟩
  · rintro (h | ⟨rfl, rfl, rfl⟩)
    · exact ⟨List.mem_cons_of_mem _ h.handed, (hcount _).trans h.unsettled⟩
    · exact ⟨List.mem_cons_self, (hcount _).trans hnew⟩

end Waiting

/-! ## The other next hops -/

/-- `log'` says of all addresses but `hop` what `log` says. -/
structure SameElsewhere (hop : IPAddress) (log log' : List LogEntry) : Prop where
  waiting : ∀ msg ie hop', hop' ≠ hop → (Waiting log' msg ie hop' ↔ Waiting log msg ie hop')
  heard : ∀ hop', hop' ≠ hop → lastHeard hop' log' = lastHeard hop' log
  timeouts : ∀ hop', hop' ≠ hop → timeouts hop' log' = timeouts hop' log

namespace SameElsewhere

variable {log log' log'' : List LogEntry} {x : LogEntry} {msg ie : ℕ} {hop : IPAddress}

theorem refl (hop : IPAddress) (log : List LogEntry) : SameElsewhere hop log log where
  waiting _ _ _ _ := Iff.rfl
  heard _ _ := rfl
  timeouts _ _ := rfl

theorem trans (h : SameElsewhere hop log log') (h' : SameElsewhere hop log' log'') :
    SameElsewhere hop log log'' where
  waiting msg ie hop' hne := (h'.waiting msg ie hop' hne).trans (h.waiting msg ie hop' hne)
  heard hop' hne := (h'.heard hop' hne).trans (h.heard hop' hne)
  timeouts hop' hne := (h'.timeouts hop' hne).trans (h.timeouts hop' hne)

theorem note_heard (macAddress : MACAddress) :
    SameElsewhere hop log (.heard hop macAddress :: log) where
  waiting _ _ _ _ := waiting_cons_neutral rfl
  heard _ hne := if_neg hne.symm
  timeouts _ _ := rfl

theorem note_resolving : SameElsewhere hop log (.resolving hop :: log) where
  waiting _ _ _ _ := waiting_cons_neutral rfl
  heard _ _ := rfl
  timeouts _ hne := if_neg hne.symm

theorem note_timedOut : SameElsewhere hop log (.timedOut hop :: log) where
  waiting _ _ _ _ := waiting_cons_neutral rfl
  heard _ _ := rfl
  timeouts _ hne := if_neg hne.symm

theorem note_arpSent (ie : ℕ) (arp : ARPPacket) (macAddress : MACAddress) :
    SameElsewhere hop log (.arpSent ie arp macAddress :: log) where
  waiting _ _ _ _ := waiting_cons_neutral rfl
  heard _ _ := rfl
  timeouts _ _ := rfl

theorem note_handed (hnew : settlements msg log = 0) :
    SameElsewhere hop log (.handed msg ie hop :: log) where
  waiting msg' ie' hop' hne := by
    rw [waiting_cons_handed hnew]
    exact or_iff_left fun h ↦ hne h.2.2
  heard _ _ := rfl
  timeouts _ _ := rfl

end SameElsewhere

/-! ## The queue -/

/-- `queue` holds the datagrams that wait, in the order in which they came. -/
structure Ledger (retryCount : ℤ) (log : List LogEntry) (queue : List ℕ) (next : ℕ) : Prop where
  sorted : queue.Pairwise (· < ·)
  mem_iff : ∀ msg, msg ∈ queue ↔ ∃ ie hop, Waiting log msg ie hop
  numbered : ∀ msg ie hop, .handed msg ie hop ∈ log → msg < next
  settled : ∀ msg, settlements msg log ≠ 0 → msg < next
  lawful : Lawful retryCount log

section Numbers

variable {retryCount : ℤ} {log : List LogEntry} {msg ie ie' : ℕ} {hop hop' : IPAddress}

theorem Lawful.handed_unique (h : Lawful retryCount log) (h₁ : .handed msg ie hop ∈ log)
    (h₂ : .handed msg ie' hop' ∈ log) : ie = ie' ∧ hop = hop' := by
  induction log with
  | nil => cases h₁
  | cons x log ih =>
    rcases List.mem_cons.mp h₁ with heq | hmem
    · subst heq
      rcases List.mem_cons.mp h₂ with heq' | hmem'
      · cases heq'
        exact ⟨rfl, rfl⟩
      · exact absurd (h.2 msg ie' hop' hmem') (lt_irrefl msg)
    · rcases List.mem_cons.mp h₂ with heq' | hmem'
      · subst heq'
        exact absurd (h.2 msg ie hop hmem) (lt_irrefl msg)
      · exact ih h.1 hmem hmem'

theorem Lawful.settlements_le_one (h : Lawful retryCount log) (msg : ℕ) :
    settlements msg log ≤ 1 := by
  induction log with
  | nil => exact Nat.zero_le 1
  | cons x log ih =>
    rw [settlements_cons]
    split
    · rename_i hx
      have hzero : settlements msg log = 0 := by
        cases x with
        | sent msg' ie macAddress =>
          obtain ⟨hop, hwait, _⟩ := h.2
          have heq : msg' = msg := by simpa [LogEntry.settles] using hx
          exact heq ▸ hwait.unsettled
        | dropped msg' =>
          obtain ⟨ie, hop, hwait, _⟩ := h.2
          have heq : msg' = msg := by simpa [LogEntry.settles] using hx
          exact heq ▸ hwait.unsettled
        | _ => cases hx
      omega
    · exact ih h.1

end Numbers

namespace Ledger

variable {retryCount : ℤ} {log : List LogEntry} {queue : List ℕ} {next msg ie : ℕ}
  {hop : IPAddress} {x : LogEntry}

section

variable (h : Ledger retryCount log queue next)

include h

theorem waiting_unique {ie' : ℕ} {hop' : IPAddress}
    (h₁ : Waiting log msg ie hop) (h₂ : Waiting log msg ie' hop') : ie = ie' ∧ hop = hop' :=
  h.lawful.handed_unique h₁.handed h₂.handed

theorem unsettled_next : settlements next log = 0 := by
  by_contra hne
  exact absurd (h.settled next hne) (lt_irrefl next)

/-- Every datagram was sent once, was dropped once, or is in the queue. -/
theorem settlements_add_count
    (hmsg : .handed msg ie hop ∈ log) : settlements msg log + queue.count msg = 1 := by
  have hnodup : queue.Nodup := h.sorted.imp fun hlt ↦ ne_of_lt hlt
  rcases Nat.eq_zero_or_pos (settlements msg log) with hzero | hpos
  · have hmem : msg ∈ queue := (h.mem_iff msg).mpr ⟨ie, hop, hmsg, hzero⟩
    rw [hzero, List.count_eq_one_of_mem hnodup hmem]
  · have hout : msg ∉ queue := by
      intro hmem
      obtain ⟨_, _, hwait⟩ := (h.mem_iff msg).mp hmem
      exact absurd hwait.unsettled (by omega)
    have hle := h.lawful.settlements_le_one msg
    rw [List.count_eq_zero_of_not_mem hout]
    omega

theorem neutral (hx : x.isNeutral = true) :
    Ledger retryCount (x :: log) queue next where
  sorted := h.sorted
  mem_iff msg := by
    rw [h.mem_iff]
    exact exists_congr fun _ ↦ exists_congr fun _ ↦ (waiting_cons_neutral hx).symm
  numbered msg ie hop hmem := by
    rcases List.mem_cons.mp hmem with heq | hmem
    · subst heq
      cases hx
    · exact h.numbered msg ie hop hmem
  settled msg hmsg := by
    have hset : x.settles msg = false := by
      cases x <;> first | rfl | cases hx
    rw [settlements_cons, hset] at hmsg
    exact h.settled msg hmsg
  lawful := by
    refine ⟨h.lawful, ?_⟩
    cases x <;> first | exact trivial | cases hx

theorem hand (ie : ℕ) (hop : IPAddress) :
    Ledger retryCount (.handed next ie hop :: log) (queue ++ [next]) (next + 1) where
  sorted := by
    rw [List.pairwise_append]
    refine ⟨h.sorted, List.pairwise_singleton _ _, fun msg hmsg msg' hmsg' ↦ ?_⟩
    obtain ⟨ie', hop', hwait⟩ := (h.mem_iff msg).mp hmsg
    rw [List.mem_singleton.mp hmsg']
    exact h.numbered msg ie' hop' hwait.handed
  mem_iff msg := by
    simp only [List.mem_append, List.mem_singleton, h.mem_iff, waiting_cons_handed h.unsettled_next]
    constructor
    · rintro (⟨ie', hop', hwait⟩ | rfl)
      · exact ⟨ie', hop', .inl hwait⟩
      · exact ⟨ie, hop, .inr ⟨rfl, rfl, rfl⟩⟩
    · rintro ⟨ie', hop', hwait | ⟨hmsg, _⟩⟩
      · exact .inl ⟨ie', hop', hwait⟩
      · exact .inr hmsg
  numbered msg ie' hop' hmem := by
    rcases List.mem_cons.mp hmem with heq | hmem
    · cases heq
      exact Nat.lt_succ_self next
    · exact Nat.lt_succ_of_lt (h.numbered msg ie' hop' hmem)
  settled msg hmsg := by
    rw [settlements_cons] at hmsg
    exact Nat.lt_succ_of_lt (h.settled msg hmsg)
  lawful := ⟨h.lawful, fun msg ie' hop' hmem ↦ h.numbered msg ie' hop' hmem⟩

theorem settle (hwait : Waiting log msg ie hop)
    (hx : ∀ m, x.settles m = true ↔ m = msg) (hnext : LawfulNext retryCount log x) :
    Ledger retryCount (x :: log) (queue.erase msg) next where
  sorted := h.sorted.sublist List.erase_sublist
  mem_iff msg' := by
    have hnodup : queue.Nodup := h.sorted.imp fun hlt ↦ ne_of_lt hlt
    simp only [hnodup.mem_erase_iff, h.mem_iff, waiting_cons_settles hx]
    constructor
    · rintro ⟨hne, ie', hop', hwait'⟩
      exact ⟨ie', hop', hwait', hne⟩
    · rintro ⟨ie', hop', hwait', hne⟩
      exact ⟨hne, ie', hop', hwait'⟩
  numbered msg' ie' hop' hmem := by
    rcases List.mem_cons.mp hmem with heq | hmem
    · subst heq
      exact absurd ((hx msg).mpr rfl) (by simp [LogEntry.settles])
    · exact h.numbered msg' ie' hop' hmem
  settled msg' hmsg' := by
    rw [settlements_cons] at hmsg'
    by_cases heq : msg' = msg
    · subst heq
      exact h.numbered msg' ie hop hwait.handed
    · have hset : ¬ x.settles msg' = true := fun hs ↦ heq ((hx msg').mp hs)
      rw [if_neg hset] at hmsg'
      exact h.settled msg' hmsg'
  lawful := ⟨h.lawful, hnext⟩

end

theorem lastHeard_cons_settles (hx : x.settles msg = true) :
    lastHeard hop (x :: log) = lastHeard hop log := by
  cases x with
  | heard ip macAddress => cases hx
  | _ => rfl

theorem timeouts_cons_settles (hx : x.settles msg = true) :
    timeouts hop (x :: log) = timeouts hop log := by
  cases x with
  | resolving ip => cases hx
  | timedOut ip => cases hx
  | _ => rfl

/-- A datagram that is done with was one of its own next hop. -/
theorem sameElsewhere_settle (h : Ledger retryCount log queue next) (hwait : Waiting log msg ie hop)
    (hx : ∀ m, x.settles m = true ↔ m = msg) : SameElsewhere hop log (x :: log) where
  waiting msg' ie' hop' hne := by
    rw [waiting_cons_settles hx]
    refine and_iff_left_of_imp fun hwait' heq ↦ ?_
    subst heq
    exact hne (h.waiting_unique hwait' hwait).2
  heard _ _ := lastHeard_cons_settles ((hx msg).mpr rfl)
  timeouts _ _ := timeouts_cons_settles ((hx msg).mpr rfl)

end Ledger

end InetManet.ARP
