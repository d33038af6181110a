import InetManet.Network.NeighbourDiscovery

/-!
# Packets that wait for address resolution

Packets wait only at entries that are incomplete, and an entry is incomplete exactly as long as its
timer of address resolution runs and no link-layer address is known. The `Table` says this of the
entries and the messages, the `Ledger` accounts for the packets: what was queued at an entry is what
has left it followed by what still waits there.
-/

namespace InetManet

open TransitionSystem

namespace NeighbourDiscovery

variable {cfg : Config} {s s' : NeighbourDiscovery} {p q m x : ℕ} {n n' : Neighbour}
  {kind : MessageKind} {key : Key}

/-- The message is in the event queue and refers to the entry. -/
def Timer (s : NeighbourDiscovery) (m : ℕ) (kind : MessageKind) (p : ℕ) : Prop :=
  s.messages m = some ⟨kind, p, true⟩

/-! ## The table -/

/-- What holds of an entry. -/
structure Resolving (s : NeighbourDiscovery) (p : ℕ) (n : Neighbour) : Prop where
  timer : ∀ m, s.Timer m .arTimeout p ↔ n.reachabilityState = .incomplete ∧ n.arTimer = some m
  started : n.reachabilityState = .incomplete → ∃ m, n.arTimer = some m
  unknown : n.reachabilityState = .incomplete → n.macAddress = 0
  idle : n.reachabilityState = .incomplete → ∀ m, ¬s.Timer m .nudTimeout p
  pending : n.reachabilityState ≠ .incomplete → n.pendingPackets = []
  nud : ∀ m, n.nudTimeoutEvent = some m → m < s.fresh ∧
    ∀ x, s.messages m = some x → x.kind = .nudTimeout ∧ x.contextPointer = p

/-- What holds of the entries and the messages, apart from the entry `q`. -/
structure TableBut (q : Option ℕ) (s : NeighbourDiscovery) : Prop where
  mapped : ∀ key p, s.lookup key = some p → ∃ n, s.heap p = some n ∧ n.nceKey = key
  located : ∀ p n, s.heap p = some n → s.lookup n.nceKey = some p
  old : ∀ p n, s.heap p = some n → p < s.fresh
  oldMessage : ∀ m x, s.messages m = some x → m < s.fresh ∧ x.contextPointer < s.fresh
  resolving : ∀ p n, s.heap p = some n → some p ≠ q → s.Resolving p n
  alive : ∀ m p, s.Timer m .arTimeout p → some p ≠ q → ∃ n, s.heap p = some n

abbrev Table (s : NeighbourDiscovery) : Prop := TableBut none s

theorem TableBut.but (h : s.Table) (q : Option ℕ) : TableBut q s where
  mapped := h.mapped
  located := h.located
  old := h.old
  oldMessage := h.oldMessage
  resolving p n hp _ := h.resolving p n hp (Option.some_ne_none p)
  alive m p hm _ := h.alive m p hm (Option.some_ne_none p)

/-- Only messages that refer to the entry `p` are created, changed or deleted. -/
structure OnlyOf (p : ℕ) (s s' : NeighbourDiscovery) : Prop where
  fresh : s.fresh ≤ s'.fresh
  messages : ∀ m, s'.messages m = s.messages m ∨
    (∀ x, s.messages m = some x → x.contextPointer = p) ∧
    ∀ x, s'.messages m = some x → x.contextPointer = p ∧ m < s'.fresh ∧
      (s.fresh ≤ m ∨ ∃ x', s.messages m = some x' ∧ x'.kind = x.kind)

theorem OnlyOf.timer (h : OnlyOf p s s') (hq : q ≠ p) : s'.Timer m kind q ↔ s.Timer m kind q := by
  unfold Timer
  rcases h.messages m with hsame | ⟨hbefore, hafter⟩
  · rw [hsame]
  · constructor
    · intro hm
      exact absurd (hafter _ hm).1 hq
    · intro hm
      exact absurd (hbefore _ hm) hq

theorem OnlyOf.oldMessage (h : OnlyOf p s s') (hp : p < s.fresh)
    (hold : ∀ m x, s.messages m = some x → m < s.fresh ∧ x.contextPointer < s.fresh)
    {x : Message} (hx : s'.messages m = some x) : m < s'.fresh ∧ x.contextPointer < s'.fresh := by
  rcases h.messages m with hsame | ⟨_, hafter⟩
  · rw [hsame] at hx
    obtain ⟨hm, hcontext⟩ := hold m x hx
    exact ⟨hm.trans_le h.fresh, hcontext.trans_le h.fresh⟩
  · obtain ⟨hcontext, hm, _⟩ := hafter x hx
    exact ⟨hm, by rw [hcontext]; exact hp.trans_le h.fresh⟩

theorem Resolving.of_onlyOf (h : s.Resolving q n) (hq : q ≠ p) (hs : OnlyOf p s s') :
    s'.Resolving q n where
  timer m := by
    rw [hs.timer hq]
    exact h.timer m
  started := h.started
  unknown := h.unknown
  idle hstate m hm := h.idle hstate m ((hs.timer hq).mp hm)
  pending := h.pending
  nud m hm := by
    obtain ⟨hlt, hkind⟩ := h.nud m hm
    refine ⟨hlt.trans_le hs.fresh, ?_⟩
    intro x hx
    rcases hs.messages m with hsame | ⟨hbefore, hafter⟩
    · rw [hsame] at hx
      exact hkind x hx
    · rcases (hafter x hx).2.2 with hge | ⟨x', hx', _⟩
      · omega
      · exact absurd ((hkind x' hx').2.symm.trans (hbefore x' hx')) hq

theorem TableBut.update (h : TableBut (some p) s) (hp : s.heap p = some n)
    (hheap : s'.heap = Function.update s.heap p (some n')) (hkey : n'.nceKey = n.nceKey)
    (hmap : s'.neighbourMap = s.neighbourMap) (hmessages : OnlyOf p s s')
    (hown : s'.Resolving p n') : s'.Table where
  mapped key q hq := by
    have hq' : s.lookup key = some q := by
      rw [← hq]
      unfold lookup
      rw [hmap]
    obtain ⟨e, he, hekey⟩ := h.mapped key q hq'
    by_cases hqp : q = p
    · subst hqp
      rw [hp, Option.some.injEq] at he
      exact ⟨n', by rw [hheap, Function.update_self], by rw [hkey, he, hekey]⟩
    · exact ⟨e, by rw [hheap, Function.update_of_ne hqp, he], hekey⟩
  located q e he := by
    unfold lookup
    rw [hmap]
    rw [hheap] at he
    by_cases hqp : q = p
    · subst hqp
      rw [Function.update_self, Option.some.injEq] at he
      rw [← he, hkey]
      exact h.located q n hp
    · rw [Function.update_of_ne hqp] at he
      exact h.located q e he
  old q e he := by
    rw [hheap] at he
    by_cases hqp : q = p
    · subst hqp
      exact (h.old q n hp).trans_le hmessages.fresh
    · rw [Function.update_of_ne hqp] at he
      exact (h.old q e he).trans_le hmessages.fresh
  oldMessage m x hx := hmessages.oldMessage (h.old p n hp) h.oldMessage hx
  resolving q e he _ := by
    rw [hheap] at he
    by_cases hqp : q = p
    · subst hqp
      rw [Function.update_self, Option.some.injEq] at he
      rw [← he]
      exact hown
    · rw [Function.update_of_ne hqp] at he
      exact (h.resolving q e he fun heq ↦ hqp (Option.some.inj heq)).of_onlyOf hqp hmessages
  alive m q hm _ := by
    by_cases hqp : q = p
    · subst hqp
      exact ⟨n', by rw [hheap, Function.update_self]⟩
    · obtain ⟨e, he⟩ := h.alive m q ((hmessages.timer hqp).mp hm)
        fun heq ↦ hqp (Option.some.inj heq)
      exact ⟨e, by rw [hheap, Function.update_of_ne hqp, he]⟩

/-- The entry `p` goes, and with it the timer that has just gone off. -/
theorem TableBut.remove (h : TableBut (some p) s) (hp : s.heap p = some n)
    (hheap : s'.heap = Function.update s.heap p none)
    (hmap : s'.neighbourMap = s.neighbourMap.erase n.nceKey) (hmessages : OnlyOf p s s')
    (hnone : ∀ m, ¬s'.Timer m .arTimeout p) : s'.Table where
  mapped key q hq := by
    unfold lookup at hq
    rw [hmap, OrderedMap.find?_erase] at hq
    split at hq
    · cases hq
    · rename_i hkey
      obtain ⟨e, he, hekey⟩ := h.mapped key q hq
      have hqp : q ≠ p := by
        rintro rfl
        rw [hp, Option.some.injEq] at he
        exact hkey (by rw [← hekey, he])
      exact ⟨e, by rw [hheap, Function.update_of_ne hqp, he], hekey⟩
  located q e he := by
    rw [hheap] at he
    have hqp : q ≠ p := by
      rintro rfl
      rw [Function.update_self] at he
      cases he
    rw [Function.update_of_ne hqp] at he
    have hq := h.located q e he
    have hkey : e.nceKey ≠ n.nceKey := by
      intro hsame
      rw [hsame, h.located p n hp, Option.some.injEq] at hq
      exact hqp hq.symm
    unfold lookup
    rw [hmap, OrderedMap.find?_erase_of_ne hkey]
    exact hq
  old q e he := by
    rw [hheap] at he
    by_cases hqp : q = p
    · subst hqp
      rw [Function.update_self] at he
      cases he
    · rw [Function.update_of_ne hqp] at he
      exact (h.old q e he).trans_le hmessages.fresh
  oldMessage m x hx := hmessages.oldMessage (h.old p n hp) h.oldMessage hx
  resolving q e he _ := by
    rw [hheap] at he
    by_cases hqp : q = p
    · subst hqp
      rw [Function.update_self] at he
      cases he
    · rw [Function.update_of_ne hqp] at he
      exact (h.resolving q e he fun heq ↦ hqp (Option.some.inj heq)).of_onlyOf hqp hmessages
  alive m q hm _ := by
    by_cases hqp : q = p
    · subst hqp
      exact absurd hm (hnone m)
    · obtain ⟨e, he⟩ := h.alive m q ((hmessages.timer hqp).mp hm)
        fun heq ↦ hqp (Option.some.inj heq)
      exact ⟨e, by rw [hheap, Function.update_of_ne hqp, he]⟩

theorem TableBut.add (h : s.Table) (hkey : s.lookup n.nceKey = none)
    (hheap : s'.heap = Function.update s.heap s.fresh (some n))
    (hmap : s'.neighbourMap = s.neighbourMap.insert n.nceKey s.fresh)
    (hfresh : s'.fresh = s.fresh + 1) (hmessages : s'.messages = s.messages) :
    TableBut (some s.fresh) s' := by
  have hold (q : ℕ) (e : Neighbour) (he : s.heap q = some e) : q ≠ s.fresh :=
    (h.old q e he).ne
  have hall : OnlyOf s.fresh s s' := ⟨by omega, fun m ↦ .inl (by rw [hmessages])⟩
  constructor
  · intro key q hq
    unfold lookup at hq
    rw [hmap, OrderedMap.find?_insert] at hq
    split at hq
    · rename_i hsame
      cases hq
      exact ⟨n, by rw [hheap, Function.update_self], hsame.symm⟩
    · obtain ⟨e, he, hekey⟩ := h.mapped key q hq
      exact ⟨e, by rw [hheap, Function.update_of_ne (hold q e he), he], hekey⟩
  · intro q e he
    rw [hheap] at he
    unfold lookup
    rw [hmap, OrderedMap.find?_insert]
    by_cases hq : q = s.fresh
    · rw [hq, Function.update_self, Option.some.injEq] at he
      rw [if_pos (by rw [he]), hq]
    · rw [Function.update_of_ne hq] at he
      rw [if_neg]
      · exact h.located q e he
      · intro hsame
        have hlocated := h.located q e he
        rw [hsame, hkey] at hlocated
        cases hlocated
  · intro q e he
    rw [hheap] at he
    by_cases hq : q = s.fresh
    · omega
    · rw [Function.update_of_ne hq] at he
      have hlt := h.old q e he
      omega
  · intro m x hx
    rw [hmessages] at hx
    have hlt := h.oldMessage m x hx
    omega
  · intro q e he hne
    have hq : q ≠ s.fresh := fun heq ↦ hne (congrArg some heq)
    rw [hheap, Function.update_of_ne hq] at he
    exact (h.resolving q e he (Option.some_ne_none q)).of_onlyOf hq hall
  · intro m q hm hne
    have hq : q ≠ s.fresh := fun heq ↦ hne (congrArg some heq)
    obtain ⟨e, he⟩ := h.alive m q ((hall.timer hq).mp hm) (Option.some_ne_none q)
    exact ⟨e, by rw [hheap, Function.update_of_ne hq, he]⟩

/-- An entry that is not incomplete has no timer of address resolution, and nothing waits at it. -/
theorem Resolving.of_ne (hstate : n.reachabilityState ≠ .incomplete)
    (hnone : ∀ m, ¬s.Timer m .arTimeout p) (hpending : n.pendingPackets = [])
    (hnud : ∀ m, n.nudTimeoutEvent = some m → m < s.fresh ∧
      ∀ x, s.messages m = some x → x.kind = .nudTimeout ∧ x.contextPointer = p) :
    s.Resolving p n where
  timer m := ⟨fun hm ↦ absurd hm (hnone m), fun hm ↦ absurd hm.1 hstate⟩
  started h := absurd h hstate
  unknown h := absurd h hstate
  idle h := absurd h hstate
  pending _ := hpending
  nud := hnud

/-! ## The ledger -/

/-- The packets that were queued at the entry, the oldest first. -/
def queuedAt (p : ℕ) : List LogEntry → List ℕ
  | [] => []
  | .queued x q :: log => if q = p then queuedAt p log ++ [x] else queuedAt p log
  | _ :: log => queuedAt p log

/-- The packets that have left the queue of the entry, sent or reported, the oldest first. -/
def leftAt (p : ℕ) : List LogEntry → List ℕ
  | [] => []
  | .sentQueued x q :: log => if q = p then leftAt p log ++ [x] else leftAt p log
  | .reported x q :: log => if q = p then leftAt p log ++ [x] else leftAt p log
  | _ :: log => leftAt p log

/-- The packets that wait at the entry. -/
def pendingAt (s : NeighbourDiscovery) (p : ℕ) : List ℕ :=
  ((s.heap p).map Neighbour.pendingPackets).getD []

/-- What holds of the packets. -/
structure Ledger (s : NeighbourDiscovery) : Prop where
  account : ∀ p, queuedAt p s.log = leftAt p s.log ++ s.pendingAt p
  queue : ∀ x, x ∈ s.pendingQueue ↔ ∃ p, x ∈ s.pendingAt p
  nodup : s.pendingQueue.Nodup
  distinct : ∀ p, (queuedAt p s.log).Nodup
  old : ∀ p, ∀ x ∈ queuedAt p s.log, x < s.packets
  apart : ∀ p q x, x ∈ queuedAt p s.log → x ∈ queuedAt q s.log → p = q

/-- Neither a packet that is queued or leaves the queue nor the end of a resolution. -/
def LogEntry.isNeutral : LogEntry → Bool
  | .queued _ _ => false
  | .sentQueued _ _ => false
  | .reported _ _ => false
  | .failed _ => false
  | _ => true

theorem queuedAt_neutral {e : LogEntry} (he : e.isNeutral = true) (log : List LogEntry) :
    queuedAt p (e :: log) = queuedAt p log := by
  cases e <;> first | rfl | cases he

theorem leftAt_neutral {e : LogEntry} (he : e.isNeutral = true) (log : List LogEntry) :
    leftAt p (e :: log) = leftAt p log := by
  cases e <;> first | rfl | cases he

/-- Nothing happened, or something neutral. -/
def Quiet (s s' : NeighbourDiscovery) : Prop :=
  s'.log = s.log ∨ ∃ e, LogEntry.isNeutral e = true ∧ s'.log = e :: s.log

theorem Quiet.queuedAt (h : Quiet s s') : queuedAt p s'.log = queuedAt p s.log := by
  rcases h with hlog | ⟨e, he, hlog⟩
  · rw [hlog]
  · rw [hlog, queuedAt_neutral he]

theorem Quiet.leftAt (h : Quiet s s') : leftAt p s'.log = leftAt p s.log := by
  rcases h with hlog | ⟨e, he, hlog⟩
  · rw [hlog]
  · rw [hlog, leftAt_neutral he]

theorem Quiet.mem (h : Quiet s s') {e : LogEntry} (he : e.isNeutral = false) :
    e ∈ s'.log ↔ e ∈ s.log := by
  rcases h with hlog | ⟨e', he', hlog⟩
  · rw [hlog]
  · rw [hlog, List.mem_cons, or_iff_right]
    rintro rfl
    rw [he] at he'
    cases he'

theorem Ledger.of_same (h : s.Ledger) (hpending : ∀ p, s'.pendingAt p = s.pendingAt p)
    (hqueue : s'.pendingQueue = s.pendingQueue) (hpackets : s.packets ≤ s'.packets)
    (hqueued : ∀ p, queuedAt p s'.log = queuedAt p s.log)
    (hleft : ∀ p, leftAt p s'.log = leftAt p s.log) : s'.Ledger := by
  constructor
  · intro p
    rw [hqueued, hleft, hpending]
    exact h.account p
  · intro x
    rw [hqueue, h.queue]
    simp only [hpending]
  · rw [hqueue]
    exact h.nodup
  · intro p
    rw [hqueued]
    exact h.distinct p
  · intro p x hx
    rw [hqueued] at hx
    exact (h.old p x hx).trans_le hpackets
  · intro p q x hp hq
    rw [hqueued] at hp hq
    exact h.apart p q x hp hq

/-- Packets are reported only when the resolution has failed, and then the entry is gone. -/
structure Failures (s : NeighbourDiscovery) : Prop where
  reported : ∀ x p, .reported x p ∈ s.log → .failed p ∈ s.log
  gone : ∀ p, .failed p ∈ s.log → s.heap p = none ∧ p < s.fresh

theorem Failures.of_same (h : s.Failures)
    (hreported : ∀ x p, .reported x p ∈ s'.log → .reported x p ∈ s.log)
    (hfailed : ∀ p, .failed p ∈ s'.log ↔ .failed p ∈ s.log)
    (hheap : ∀ p, s.heap p = none → p < s.fresh → s'.heap p = none) (hfresh : s.fresh ≤ s'.fresh) :
    s'.Failures := by
  constructor
  · intro x p hx
    rw [hfailed]
    exact h.reported x p (hreported x p hx)
  · intro p hp
    rw [hfailed] at hp
    obtain ⟨hnone, hlt⟩ := h.gone p hp
    exact ⟨hheap p hnone hlt, hlt.trans_le hfresh⟩

theorem Failures.of_quiet (h : s.Failures) (hlog : Quiet s s')
    (hheap : ∀ p, s.heap p = none → p < s.fresh → s'.heap p = none) (hfresh : s.fresh ≤ s'.fresh) :
    s'.Failures :=
  h.of_same (fun _ _ hx ↦ (hlog.mem rfl).mp hx) (fun _ ↦ hlog.mem rfl) hheap hfresh

theorem heap_eq_none_of_update {y : Option Neighbour} (hp : s.heap p = some n)
    (hheap : s'.heap = Function.update s.heap p y) (q : ℕ) (hq : s.heap q = none) :
    s'.heap q = none := by
  have hqp : q ≠ p := by
    rintro rfl
    rw [hp] at hq
    cases hq
  rw [hheap, Function.update_of_ne hqp]
  exact hq

/-! ## Messages -/

theorem onlyOf_of_eq (hmessages : s'.messages = s.messages) (hfresh : s'.fresh = s.fresh) :
    OnlyOf p s s' := ⟨hfresh.ge, fun m ↦ .inl (by rw [hmessages])⟩

theorem OnlyOf.trans {s'' : NeighbourDiscovery} (h : OnlyOf p s s') (h' : OnlyOf p s' s'') :
    OnlyOf p s s'' := by
  refine ⟨h.fresh.trans h'.fresh, fun m ↦ ?_⟩
  rcases h.messages m with hsame | ⟨hbefore, hafter⟩
  · rcases h'.messages m with hsame' | ⟨hbefore', hafter'⟩
    · exact .inl (hsame'.trans hsame)
    · rw [hsame] at hbefore' hafter'
      refine .inr ⟨hbefore', fun x hx ↦ ?_⟩
      obtain ⟨hcontext, hm, hkind⟩ := hafter' x hx
      exact ⟨hcontext, hm, hkind.imp_left h.fresh.trans⟩
  · refine .inr ⟨hbefore, fun x hx ↦ ?_⟩
    rcases h'.messages m with hsame' | ⟨_, hafter'⟩
    · rw [hsame'] at hx
      obtain ⟨hcontext, hm, hkind⟩ := hafter x hx
      exact ⟨hcontext, hm.trans_le h'.fresh, hkind⟩
    · obtain ⟨hcontext, hm, hkind⟩ := hafter' x hx
      refine ⟨hcontext, hm, ?_⟩
      rcases hkind with hge | ⟨x', hx', hkind'⟩
      · exact .inl (h.fresh.trans hge)
      · apply (hafter x' hx').2.2.imp_right
        rintro ⟨x'', hx'', hkind''⟩
        exact ⟨x'', hx'', hkind''.trans hkind'⟩

theorem onlyOf_schedule (h : TableBut (some q) s) :
    OnlyOf p s (s.schedule kind p) := by
  refine ⟨Nat.le_succ _, fun m ↦ ?_⟩
  by_cases hm : m = s.fresh
  · right
    subst hm
    constructor
    · intro x hx
      exact absurd (h.oldMessage _ x hx).1 (lt_irrefl _)
    · intro x hx
      dsimp only [schedule] at hx ⊢
      rw [Function.update_self, Option.some.injEq] at hx
      rw [← hx]
      exact ⟨rfl, Nat.lt_succ_self _, .inl le_rfl⟩
  · exact .inl (Function.update_of_ne hm _ _)

/-- A message of the entry changes its flag or is deleted. -/
theorem onlyOf_set {x : Message} {y : Option Message} (hm : s.messages m = some x)
    (hlt : m < s.fresh) (hcontext : x.contextPointer = p)
    (hy : ∀ z, y = some z → z.contextPointer = x.contextPointer ∧ z.kind = x.kind)
    (hmessages : s'.messages = Function.update s.messages m y) (hfresh : s'.fresh = s.fresh) :
    OnlyOf p s s' := by
  refine ⟨hfresh.ge, fun m' ↦ ?_⟩
  rw [hmessages, hfresh]
  by_cases hm' : m' = m
  · subst hm'
    rw [Function.update_self]
    refine .inr ⟨fun x' hx' ↦ ?_, fun z hz ↦ ?_⟩
    · rw [hm, Option.some.injEq] at hx'
      rw [← hx']
      exact hcontext
    · obtain ⟨hc, hk⟩ := hy z hz
      exact ⟨hc.trans hcontext, hlt, .inr ⟨x, hm, hk.symm⟩⟩
  · exact .inl (Function.update_of_ne hm' _ _)

theorem onlyOf_delete {x : Message} (hm : s.messages m = some x) (hlt : m < s.fresh)
    (hcontext : x.contextPointer = p) (hmessages : s'.messages = Function.update s.messages m none)
    (hfresh : s'.fresh = s.fresh) : OnlyOf p s s' := by
  refine onlyOf_set hm hlt hcontext ?_ hmessages hfresh
  intro z hz
  cases hz

theorem outcome_read {α : Type} {f : Neighbour → Except Fault α} {Q : α → Prop} {E : Fault → Prop}
    (hnone : s.heap p = none → E .freedEntry)
    (h : ∀ n, s.heap p = some n → Outcome (f n) Q E) : Outcome (s.read p >>= f) Q E := by
  unfold read
  cases hp : s.heap p with
  | none => exact hnone hp
  | some n => exact h n hp

theorem outcome_deleteMessage :
    Outcome (s.deleteMessage m)
      (fun s' ↦ ∃ x, s.messages m = some x ∧ x.scheduled = false ∧
        s' = { s with messages := Function.update s.messages m none }) fun _ ↦ True := by
  unfold deleteMessage
  cases hm : s.messages m with
  | none => trivial
  | some x =>
    apply Outcome.ite
    · intro _
      trivial
    · intro hx
      exact ⟨x, rfl, Bool.eq_false_of_not_eq_true hx, rfl⟩

theorem outcome_setScheduled {scheduled : Bool} :
    Outcome (s.setScheduled m scheduled)
      (fun s' ↦ ∃ x, s.messages m = some x ∧
        s' = { s with messages := Function.update s.messages m (some { x with scheduled }) })
      fun _ ↦ True := by
  unfold setScheduled
  cases hm : s.messages m with
  | none => trivial
  | some x => exact ⟨x, rfl, rfl⟩

/-- The entry goes, and with it the message that is stored in it. -/
theorem outcome_remove (hlookup : s.lookup key = some p) (hp : s.heap p = some n) :
    Outcome (s.remove key)
      (fun s' ↦ ∃ messages, (messages = s.messages ∧ n.nudTimeoutEvent = none ∨
          ∃ m x, n.nudTimeoutEvent = some m ∧ s.messages m = some x ∧ x.scheduled = false ∧
            messages = Function.update s.messages m none) ∧
        s' = { s with
          neighbourMap := s.neighbourMap.erase key
          heap := Function.update s.heap p none
          messages }) fun _ ↦ True := by
  unfold remove
  rw [hlookup]
  dsimp only
  rw [read, hp]
  dsimp only
  rw [ok_bind]
  cases hnud : n.nudTimeoutEvent with
  | none => exact ⟨s.messages, .inl ⟨rfl, rfl⟩, rfl⟩
  | some m =>
    apply outcome_deleteMessage.bind
    rintro _ ⟨x, hx, hscheduled, rfl⟩
    exact ⟨_, .inr ⟨m, x, rfl, hx, hscheduled, rfl⟩, rfl⟩

theorem onlyOf_unschedule {kind : MessageKind} (hm : s.Timer m kind p) (hlt : m < s.fresh)
    (hmessages : s'.messages = Function.update s.messages m (some ⟨kind, p, false⟩))
    (hfresh : s'.fresh = s.fresh) : OnlyOf p s s' := by
  refine onlyOf_set hm hlt rfl ?_ hmessages hfresh
  rintro z ⟨⟩
  exact ⟨rfl, rfl⟩

/-- A timer of the entry has gone off, and then the entry has gone. -/
theorem Resolving.messages_remove {kind : MessageKind} {messages : ℕ → Option Message} (hn : s.Resolving p n)
    (hm : s.Timer m kind p) (hlt : m < s.fresh)
    (hmessages : messages = Function.update s.messages m (some ⟨kind, p, false⟩) ∧ n.nudTimeoutEvent = none ∨
      ∃ m' x, n.nudTimeoutEvent = some m' ∧
        Function.update s.messages m (some ⟨kind, p, false⟩) m' = some x ∧ x.scheduled = false ∧
        messages = Function.update (Function.update s.messages m (some ⟨kind, p, false⟩)) m' none) :
    OnlyOf p s { s with messages } ∧
      ∀ m' kind' q, messages m' = some ⟨kind', q, true⟩ → m' ≠ m ∧ s.Timer m' kind' q := by
  have hunset (m' : ℕ) (kind' : MessageKind) (q : ℕ) (hset : Function.update s.messages m
      (some ⟨kind, p, false⟩) m' = some ⟨kind', q, true⟩) : m' ≠ m ∧ s.Timer m' kind' q := by
    by_cases hmm : m' = m
    · rw [hmm, Function.update_self] at hset
      cases hset
    · rw [Function.update_of_ne hmm] at hset
      exact ⟨hmm, hset⟩
  rcases hmessages with ⟨rfl, _⟩ | ⟨m₁, x, hm₁, hx, _, rfl⟩
  · exact ⟨onlyOf_unschedule hm hlt rfl rfl, hunset⟩
  · have hgone : OnlyOf p s
        { s with messages := Function.update s.messages m (some ⟨kind, p, false⟩) } :=
      onlyOf_unschedule hm hlt rfl rfl
    constructor
    · refine hgone.trans (onlyOf_delete hx (hn.nud m₁ hm₁).1 ?_ rfl rfl)
      by_cases hmm : m₁ = m
      · rw [hmm, Function.update_self] at hx
        rw [← Option.some.inj hx]
      · rw [Function.update_of_ne hmm] at hx
        exact ((hn.nud m₁ hm₁).2 x hx).2
    · intro m' kind' q htimer
      by_cases hm' : m' = m₁
      · rw [hm', Function.update_self] at htimer
        cases htimer
      · rw [Function.update_of_ne hm'] at htimer
        exact hunset m' kind' q htimer

/-! ## Handlers -/

/-- What every run keeps. -/
structure InvBut (q : Option ℕ) (s : NeighbourDiscovery) : Prop where
  table : TableBut q s
  ledger : s.Ledger
  failures : s.Failures

abbrev Inv (s : NeighbourDiscovery) : Prop := InvBut none s

theorem InvBut.but (h : s.Inv) (q : Option ℕ) : InvBut q s :=
  ⟨h.table.but q, h.ledger, h.failures⟩

theorem pendingAt_eq (hp : s.heap p = some n) : s.pendingAt p = n.pendingPackets := by
  unfold pendingAt
  rw [hp]
  rfl

theorem pendingAt_update (hheap : s'.heap = Function.update s.heap p (some n')) (q : ℕ) :
    s'.pendingAt q = if q = p then n'.pendingPackets else s.pendingAt q := by
  unfold pendingAt
  rw [hheap]
  by_cases hq : q = p
  · rw [if_pos hq, hq, Function.update_self]
    rfl
  · rw [if_neg hq, Function.update_of_ne hq]

theorem pendingAt_clear {y : Option Neighbour} (hheap : s'.heap = Function.update s.heap p y)
    (hy : (y.map Neighbour.pendingPackets).getD [] = []) (q : ℕ) :
    s'.pendingAt q = if q = p then [] else s.pendingAt q := by
  unfold pendingAt
  rw [hheap]
  by_cases hq : q = p
  · rw [if_pos hq, hq, Function.update_self]
    exact hy
  · rw [if_neg hq, Function.update_of_ne hq]

theorem InvBut.change (h : InvBut (some p) s) (hp : s.heap p = some n)
    (hheap : s'.heap = Function.update s.heap p (some n'))
    (hkey : n'.nceKey = n.nceKey) (hpending : n'.pendingPackets = n.pendingPackets)
    (hmap : s'.neighbourMap = s.neighbourMap) (hmessages : OnlyOf p s s')
    (hqueue : s'.pendingQueue = s.pendingQueue) (hpackets : s.packets ≤ s'.packets)
    (hlog : Quiet s s') (hown : s'.Resolving p n') : s'.Inv := by
  refine ⟨h.table.update hp hheap hkey hmap hmessages hown, ?_,
    h.failures.of_quiet hlog (fun q hq _ ↦ heap_eq_none_of_update hp hheap q hq) hmessages.fresh⟩
  refine h.ledger.of_same ?_ hqueue hpackets (fun _ ↦ hlog.queuedAt) fun _ ↦ hlog.leftAt
  intro q
  rw [pendingAt_update hheap]
  split
  · rename_i hq
    rw [hq, pendingAt_eq hp, hpending]
  · rfl

theorem Resolving.not_timer (h : s.Resolving p n) (hstate : n.reachabilityState ≠ .incomplete) :
    ¬s.Timer m .arTimeout p := fun hm ↦ hstate ((h.timer m).mp hm).1

theorem not_timer_schedule (h : ¬s.Timer m .arTimeout p) :
    ¬(s.schedule .nudTimeout p).Timer m .arTimeout p := by
  unfold Timer schedule
  dsimp only
  by_cases hm : m = s.fresh
  · rw [hm, Function.update_self]
    nofun
  · rw [Function.update_of_ne hm]
    exact h

theorem InvBut.initiateNeighbourUnreachabilityDetection (h : s.Inv) :
    Outcome (s.initiateNeighbourUnreachabilityDetection p) Inv fun _ ↦ True := by
  unfold NeighbourDiscovery.initiateNeighbourUnreachabilityDetection
  apply outcome_read fun _ ↦ trivial
  intro n hp
  apply Outcome.ite
  · intro hstale
    have hn := h.table.resolving p n hp (Option.some_ne_none p)
    have hne : n.reachabilityState ≠ .incomplete := by
      rw [hstale]
      nofun
    refine (h.but (some p)).change hp rfl rfl rfl rfl
      ((onlyOf_schedule (h.table.but (some p))).trans (onlyOf_of_eq rfl rfl)) rfl le_rfl
      (.inl rfl) ?_
    apply Resolving.of_ne
    · nofun
    · intro m
      exact not_timer_schedule (hn.not_timer hne)
    · exact hn.pending hne
    · intro m hm
      cases hm
      refine ⟨Nat.lt_succ_self _, fun x hx ↦ ?_⟩
      dsimp only [write, schedule] at hx
      rw [Function.update_self, Option.some.injEq] at hx
      rw [← hx]
      exact ⟨rfl, rfl⟩
  · intro _
    trivial

/-- No packet with this number has been queued yet. -/
def New (s : NeighbourDiscovery) (x : ℕ) : Prop :=
  x < s.packets ∧ ∀ q, ∀ y ∈ queuedAt q s.log, y < x

/-- The entry is incomplete when its resolution has been started. -/
theorem InvBut.initiateAddressResolution (h : InvBut (some p) s) (hp : s.heap p = some n)
    (hmac : n.macAddress = 0) (hnone : ∀ m kind, ¬s.Timer m kind p)
    (hnud : ∀ m, n.nudTimeoutEvent = some m → m < s.fresh ∧
      ∀ x, s.messages m = some x → x.kind = .nudTimeout ∧ x.contextPointer = p)
    (hx : s.New x) (dgSrcAddr : IPv6Address) :
    Outcome (s.initiateAddressResolution cfg dgSrcAddr p)
      (fun s' ↦ s'.Inv ∧ s'.New x ∧
        ∃ n', s'.heap p = some n' ∧ n'.reachabilityState = .incomplete) fun _ ↦ True := by
  unfold NeighbourDiscovery.initiateAddressResolution
  rw [read, hp]
  dsimp only
  rw [ok_bind]
  apply Outcome.ite
  · intro _
    trivial
  · intro _
    refine ⟨?_, ?_, ?_⟩
    · refine h.change hp rfl rfl rfl rfl
        ((onlyOf_schedule h.table).trans (onlyOf_of_eq rfl rfl)) rfl le_rfl
        (.inr ⟨_, rfl, rfl⟩) ?_
      constructor
      · intro m
        unfold Timer write schedule note
        dsimp only
        by_cases hm : m = s.fresh
        · rw [hm, Function.update_self]
          simp
        · rw [Function.update_of_ne hm]
          constructor
          · intro htimer
            exact absurd htimer (hnone m _)
          · rintro ⟨_, hsome⟩
            exact absurd (Option.some.inj hsome).symm hm
      · intro _
        exact ⟨_, rfl⟩
      · intro _
        exact hmac
      · intro _ m hm
        unfold Timer write schedule note at hm
        dsimp only at hm
        by_cases hfresh : m = s.fresh
        · rw [hfresh, Function.update_self] at hm
          cases hm
        · rw [Function.update_of_ne hfresh] at hm
          exact hnone m _ hm
      · intro hne
        exact absurd rfl hne
      · intro m hm
        obtain ⟨hlt, hkind⟩ := hnud m hm
        refine ⟨Nat.lt_succ_of_lt hlt, fun y hy ↦ ?_⟩
        dsimp only [write, schedule, note] at hy
        rw [Function.update_of_ne hlt.ne] at hy
        exact hkind y hy
    · exact hx
    · exact ⟨_, Function.update_self _ _ _, rfl⟩

theorem Ledger.mem_queuedAt (h : s.Ledger) (hx : x ∈ s.pendingAt p) : x ∈ queuedAt p s.log := by
  rw [h.account]
  exact List.mem_append_right _ hx

theorem Ledger.queuePacket (h : s.Ledger) (hx : s.New x) (hp : s.heap p = some n)
    (hheap : s'.heap = Function.update s.heap p
      (some { n with pendingPackets := n.pendingPackets ++ [x] }))
    (hqueue : s'.pendingQueue = s.pendingQueue ++ [x]) (hlog : s'.log = .queued x p :: s.log)
    (hpackets : s'.packets = s.packets) : s'.Ledger := by
  have hqueued (q : ℕ) : queuedAt q s'.log =
      if p = q then queuedAt q s.log ++ [x] else queuedAt q s.log := by
    rw [hlog]
    rfl
  have hpending (q : ℕ) : s'.pendingAt q =
      if q = p then n.pendingPackets ++ [x] else s.pendingAt q := pendingAt_update hheap q
  have hnew (q : ℕ) : x ∉ queuedAt q s.log := fun hmem ↦ lt_irrefl _ (hx.2 q x hmem)
  constructor
  · intro q
    have hleft : leftAt q s'.log = leftAt q s.log := by
      rw [hlog]
      rfl
    rw [hqueued, hpending, hleft]
    by_cases hq : p = q
    · rw [if_pos hq, if_pos hq.symm, h.account, ← hq, pendingAt_eq hp, List.append_assoc]
    · rw [if_neg hq, if_neg (Ne.symm hq), h.account]
  · intro y
    rw [hqueue, List.mem_append, List.mem_singleton, h.queue]
    constructor
    · rintro (⟨q, hq⟩ | rfl)
      · refine ⟨q, ?_⟩
        rw [hpending]
        split
        · rename_i hqp
          rw [hqp, pendingAt_eq hp] at hq
          exact List.mem_append_left _ hq
        · exact hq
      · refine ⟨p, ?_⟩
        rw [hpending, if_pos rfl]
        simp
    · rintro ⟨q, hq⟩
      rw [hpending] at hq
      split at hq
      · rcases List.mem_append.mp hq with hq | hq
        · exact .inl ⟨p, by rw [pendingAt_eq hp]; exact hq⟩
        · exact .inr (List.mem_singleton.mp hq)
      · exact .inl ⟨q, hq⟩
  · rw [hqueue, List.nodup_append]
    refine ⟨h.nodup, List.nodup_singleton x, ?_⟩
    intro y hy z hz hyz
    rw [List.mem_singleton] at hz
    rw [hyz, hz, h.queue] at hy
    obtain ⟨q, hq⟩ := hy
    exact hnew q (h.mem_queuedAt hq)
  · intro q
    rw [hqueued]
    split
    · rw [List.nodup_append]
      refine ⟨h.distinct q, List.nodup_singleton x, ?_⟩
      intro y hy z hz hyz
      rw [List.mem_singleton] at hz
      rw [hyz, hz] at hy
      exact hnew q hy
    · exact h.distinct q
  · intro q y hy
    rw [hqueued] at hy
    rw [hpackets]
    split at hy
    · rcases List.mem_append.mp hy with hy | hy
      · exact h.old q y hy
      · rw [List.mem_singleton.mp hy]
        exact hx.1
    · exact h.old q y hy
  · intro q q' y hy hy'
    rw [hqueued] at hy hy'
    split at hy
    · rename_i hq
      split at hy'
      · rename_i hq'
        exact hq.symm.trans hq'
      · rcases List.mem_append.mp hy with hy | hy
        · exact h.apart q q' y hy hy'
        · rw [List.mem_singleton.mp hy] at hy'
          exact absurd hy' (hnew q')
    · split at hy'
      · rcases List.mem_append.mp hy' with hy' | hy'
        · exact h.apart q q' y hy hy'
        · rw [List.mem_singleton.mp hy'] at hy
          exact absurd hy (hnew q)
      · exact h.apart q q' y hy hy'

theorem InvBut.queuePacket (h : s.Inv) (hx : s.New x) (hp : s.heap p = some n)
    (hstate : n.reachabilityState = .incomplete) :
    Outcome (s.queuePacket p x) Inv fun _ ↦ True := by
  unfold NeighbourDiscovery.queuePacket
  rw [read, hp]
  dsimp only
  rw [ok_bind]
  have hn := h.table.resolving p n hp (Option.some_ne_none p)
  refine ⟨?_, h.ledger.queuePacket hx hp rfl rfl rfl rfl, ?_⟩
  case refine_2 =>
    refine h.failures.of_same (fun y q hy ↦ ?_) (fun q ↦ ?_)
      (fun q hq _ ↦ heap_eq_none_of_update hp rfl q hq) le_rfl
    · exact (List.mem_cons.mp hy).resolve_left nofun
    · exact List.mem_cons.trans (or_iff_right nofun)
  refine (h.table.but (some p)).update hp rfl rfl rfl (onlyOf_of_eq rfl rfl) ?_
  exact ⟨hn.timer, hn.started, hn.unknown, hn.idle, fun hne ↦ absurd hstate hne, hn.nud⟩

theorem unqueue_eq (entry : ℕ → LogEntry) (s : NeighbourDiscovery) (packets : List ℕ) :
    unqueue entry s packets =
      { s with
        pendingQueue := s.pendingQueue.diff packets
        log := (packets.map entry).reverse ++ s.log } := by
  induction packets generalizing s with
  | nil => rfl
  | cons x packets ih =>
    rw [unqueue, ih, List.diff_cons, List.map_cons, List.reverse_cons, List.append_assoc]
    rfl

/-- What is noted when a packet leaves the queue of the entry `p`. -/
structure Leaves (p : ℕ) (entry : ℕ → LogEntry) : Prop where
  left : ∀ x q log, leftAt q (entry x :: log) =
    if p = q then leftAt q log ++ [x] else leftAt q log
  queued : ∀ x q log, queuedAt q (entry x :: log) = queuedAt q log

theorem leaves_sentQueued (p : ℕ) : Leaves p (.sentQueued · p) :=
  ⟨fun _ _ _ ↦ rfl, fun _ _ _ ↦ rfl⟩

theorem leaves_reported (p : ℕ) : Leaves p (.reported · p) :=
  ⟨fun _ _ _ ↦ rfl, fun _ _ _ ↦ rfl⟩

theorem Leaves.leftAt_append {entry : ℕ → LogEntry} (h : Leaves p entry) (packets : List ℕ)
    (log : List LogEntry) : leftAt q ((packets.map entry).reverse ++ log) =
      if p = q then leftAt q log ++ packets else leftAt q log := by
  induction packets generalizing log with
  | nil => simp
  | cons x packets ih =>
    rw [List.map_cons, List.reverse_cons, List.append_assoc, List.singleton_append, ih, h.left]
    split
    · rw [List.append_assoc]
      rfl
    · rfl

theorem Leaves.queuedAt_append {entry : ℕ → LogEntry} (h : Leaves p entry) (packets : List ℕ)
    (log : List LogEntry) : queuedAt q ((packets.map entry).reverse ++ log) = queuedAt q log := by
  induction packets generalizing log with
  | nil => rfl
  | cons x packets ih =>
    rw [List.map_cons, List.reverse_cons, List.append_assoc, List.singleton_append, ih, h.queued]

theorem Ledger.unqueue {entry : ℕ → LogEntry} (h : s.Ledger) (hentry : Leaves p entry)
    (hpending : ∀ q, s'.pendingAt q = if q = p then [] else s.pendingAt q)
    (hqueue : s'.pendingQueue = s.pendingQueue.diff (s.pendingAt p))
    (hlog : s'.log = ((s.pendingAt p).map entry).reverse ++ s.log)
    (hpackets : s'.packets = s.packets) : s'.Ledger := by
  have hqueued (q : ℕ) : queuedAt q s'.log = queuedAt q s.log := by
    rw [hlog]
    exact hentry.queuedAt_append _ _
  constructor
  · intro q
    have hleft : leftAt q s'.log =
        if p = q then leftAt q s.log ++ s.pendingAt p else leftAt q s.log := by
      rw [hlog]
      exact hentry.leftAt_append _ _
    rw [hqueued, hleft, hpending, h.account]
    by_cases hq : p = q
    · rw [if_pos hq, if_pos hq.symm, hq, List.append_nil]
    · rw [if_neg hq, if_neg (Ne.symm hq)]
  · intro x
    rw [hqueue, h.nodup.mem_sdiff_iff, h.queue]
    constructor
    · rintro ⟨⟨q, hq⟩, hnot⟩
      refine ⟨q, ?_⟩
      rw [hpending, if_neg]
      · exact hq
      · rintro rfl
        exact hnot hq
    · rintro ⟨q, hq⟩
      rw [hpending] at hq
      split at hq
      · cases hq
      · rename_i hqp
        refine ⟨⟨q, hq⟩, ?_⟩
        intro hmem
        exact hqp (h.apart q p x (h.mem_queuedAt hq) (h.mem_queuedAt hmem))
  · rw [hqueue]
    exact h.nodup.diff
  · intro q
    rw [hqueued]
    exact h.distinct q
  · intro q x hx
    rw [hqueued] at hx
    rw [hpackets]
    exact h.old q x hx
  · intro q q' x hx hx'
    rw [hqueued] at hx hx'
    exact h.apart q q' x hx hx'

/-- The address becomes known: all packets of the entry are sent, and the timer is cancelled. -/
theorem InvBut.processNAForIncompleteNCEState (h : s.Inv) (hp : s.heap p = some n)
    (hstate : n.reachabilityState = .incomplete) (simTime : ℚ) (na : Advertisement) :
    Outcome (s.processNAForIncompleteNCEState cfg simTime na p) Inv fun _ ↦ True := by
  have hn := h.table.resolving p n hp (Option.some_ne_none p)
  obtain ⟨m, hm⟩ := hn.started hstate
  have htimer : s.messages m = some ⟨.arTimeout, p, true⟩ := (hn.timer m).mpr ⟨hstate, hm⟩
  -- both branches differ in the new state only
  have hsend (n' : Neighbour) (hkey : n'.nceKey = n.nceKey)
      (hpending : n'.pendingPackets = n.pendingPackets) (hne : n'.reachabilityState ≠ .incomplete)
      (hnud : n'.nudTimeoutEvent = n.nudTimeoutEvent) :
      Outcome (do
        let s ← (s.write p n').sendQueuedPacketsToIPv6Module p
        s.cancelEvent m) Inv fun _ ↦ True := by
    unfold sendQueuedPacketsToIPv6Module
    rw [read, write]
    dsimp only
    rw [Function.update_self]
    dsimp only
    rw [ok_bind, unqueue_eq]
    dsimp only [write]
    rw [Function.update_idem]
    apply outcome_setScheduled.post
    rintro _ ⟨x, hx, rfl⟩
    dsimp only at hx ⊢
    rw [htimer, Option.some.injEq] at hx
    subst hx
    have honly : OnlyOf p s { s with
        heap := Function.update s.heap p (some { n' with pendingPackets := [] })
        pendingQueue := s.pendingQueue.diff n'.pendingPackets
        log := (n'.pendingPackets.map (.sentQueued · p)).reverse ++ s.log
        messages := Function.update s.messages m (some ⟨.arTimeout, p, false⟩) } :=
      onlyOf_unschedule htimer (h.table.oldMessage m _ htimer).1 rfl rfl
    refine ⟨(h.table.but (some p)).update hp rfl hkey rfl honly ?_, ?_, ?_⟩
    · refine Resolving.of_ne hne ?_ rfl ?_
      · intro m' hm'
        unfold Timer at hm'
        dsimp only at hm'
        by_cases hmm : m' = m
        · rw [hmm, Function.update_self] at hm'
          cases hm'
        · rw [Function.update_of_ne hmm] at hm'
          have hsame := ((hn.timer m').mp hm').2
          rw [hm, Option.some.injEq] at hsame
          exact hmm hsame.symm
      · intro m' hm'
        dsimp only at hm' ⊢
        rw [hnud] at hm'
        obtain ⟨hlt, hkind⟩ := hn.nud m' hm'
        refine ⟨hlt, fun y hy ↦ ?_⟩
        have hmm : m' ≠ m := by
          rintro rfl
          cases (hkind _ htimer).1
        rw [Function.update_of_ne hmm] at hy
        exact hkind y hy
    · refine h.ledger.unqueue (leaves_sentQueued p) (fun q ↦ ?_) ?_ ?_ rfl
      · exact pendingAt_clear rfl rfl q
      · rw [pendingAt_eq hp, hpending]
      · rw [pendingAt_eq hp, hpending]
    · refine h.failures.of_same (fun y q hy ↦ ?_) (fun q ↦ ?_)
        (fun q hq _ ↦ heap_eq_none_of_update hp rfl q hq) le_rfl
      · simpa using hy
      · simp
  unfold NeighbourDiscovery.processNAForIncompleteNCEState
  rw [read, hp]
  dsimp only
  rw [ok_bind]
  apply Outcome.ite
  · intro _
    exact h
  · intro _
    cases na.solicitedFlag with
    | true =>
      rw [hm]
      exact hsend _ rfl rfl (by simp) rfl
    | false =>
      rw [hm]
      exact hsend _ rfl rfl (by simp) rfl

theorem Resolving.of_eq (h : s.Resolving p n) (hmessages : s'.messages = s.messages)
    (hfresh : s'.fresh = s.fresh) (hstate : n'.reachabilityState = n.reachabilityState)
    (harTimer : n'.arTimer = n.arTimer) (hmac : n'.macAddress = n.macAddress)
    (hpending : n'.pendingPackets = n.pendingPackets)
    (hnud : n'.nudTimeoutEvent = n.nudTimeoutEvent) : s'.Resolving p n' := by
  constructor
  · intro m
    unfold Timer
    rw [hmessages, hstate, harTimer]
    exact h.timer m
  · rw [hstate, harTimer]
    exact h.started
  · rw [hstate, hmac]
    exact h.unknown
  · rw [hstate]
    unfold Timer
    rw [hmessages]
    exact h.idle
  · rw [hstate, hpending]
    exact h.pending
  · rw [hnud, hmessages, hfresh]
    exact h.nud

theorem update_scheduled_again (hm : s.Timer m kind p) :
    Function.update (Function.update s.messages m (some ⟨kind, p, false⟩)) m
      (some ⟨kind, p, true⟩) = s.messages := by
  unfold Timer at hm
  rw [Function.update_idem, ← hm, Function.update_eq_self]

theorem quiet_note {e : LogEntry} (he : e.isNeutral = true) : Quiet s (s.note e) := .inr ⟨e, he, rfl⟩

/-- The timer of address resolution goes off: another solicitation is sent, or all packets of the entry
are reported and the entry goes. -/
theorem InvBut.processARTimeout (h : s.Inv) (hm : s.Timer m .arTimeout p) :
    Outcome (({ s with messages := Function.update s.messages m (some ⟨.arTimeout, p, false⟩) } :
      NeighbourDiscovery).processARTimeout cfg m p) Inv fun _ ↦ True := by
  obtain ⟨n, hp⟩ := h.table.alive m p hm (Option.some_ne_none p)
  have hn := h.table.resolving p n hp (Option.some_ne_none p)
  obtain ⟨hstate, harTimer⟩ := (hn.timer m).mp hm
  have hlt := (h.table.oldMessage m _ hm).1
  unfold NeighbourDiscovery.processARTimeout
  rw [read, hp]
  dsimp only
  rw [ok_bind]
  apply Outcome.ite
  · intro _
    unfold setScheduled write NeighbourDiscovery.note
    dsimp only
    rw [Function.update_self]
    dsimp only
    rw [update_scheduled_again hm]
    exact (h.but (some p)).change hp rfl rfl rfl rfl (onlyOf_of_eq rfl rfl) rfl le_rfl
      (.inr ⟨_, rfl, rfl⟩) (hn.of_eq rfl rfl rfl rfl rfl rfl rfl)
  · intro _
    unfold dropQueuedPacketsAwaitingAR NeighbourDiscovery.note
    rw [read, hp]
    dsimp only
    rw [ok_bind, unqueue_eq]
    refine Outcome.bind (outcome_remove (p := p) (n := n) ?_ ?_) ?_
    · exact h.table.located p n hp
    · exact hp
    rintro _ ⟨messages, hmessages, rfl⟩
    apply outcome_deleteMessage.post
    rintro _ ⟨x, hx, _, rfl⟩
    dsimp only at hmessages hx ⊢
    -- the timer itself goes, and perhaps the message stored for unreachability detection
    obtain ⟨honly, htimers⟩ := hn.messages_remove hm hlt hmessages
    constructor
    · have hcontext : x.contextPointer = p := by
        rcases honly.messages m with hsame | ⟨_, hafter⟩
        · have hsame' : messages m = some ⟨.arTimeout, p, true⟩ := hsame.trans hm
          rw [hsame', Option.some.injEq] at hx
          rw [← hx]
        · exact (hafter x hx).1
      refine (h.table.but (some p)).remove hp rfl rfl
        (honly.trans (onlyOf_delete hx hlt hcontext rfl rfl)) ?_
      intro m' hm'
      unfold Timer at hm'
      dsimp only at hm'
      by_cases hmm : m' = m
      · rw [hmm, Function.update_self] at hm'
        cases hm'
      · rw [Function.update_of_ne hmm] at hm'
        have hstored := ((hn.timer m').mp (htimers m' _ _ hm').2).2
        rw [harTimer, Option.some.injEq] at hstored
        exact hmm hstored.symm
    · have hnoted : (s.note (.failed p)).Ledger :=
        h.ledger.of_same (fun _ ↦ rfl) rfl le_rfl (fun _ ↦ rfl) fun _ ↦ rfl
      refine hnoted.unqueue (leaves_reported p) (fun q ↦ ?_) ?_ ?_ rfl
      · exact pendingAt_clear rfl rfl q
      · rw [pendingAt_eq (s := s.note (.failed p)) hp]
        rfl
      · rw [pendingAt_eq (s := s.note (.failed p)) hp]
        rfl
    · constructor
      · intro y q hy
        simp only [List.mem_append, List.mem_reverse, List.mem_map, List.mem_cons] at hy ⊢
        rcases hy with ⟨z, _, hz⟩ | hy | hy
        · cases hz
          exact .inr (.inl rfl)
        · cases hy
        · exact .inr (.inr (h.failures.reported y q hy))
      · intro q hq
        simp only [List.mem_append, List.mem_reverse, List.mem_map, List.mem_cons] at hq
        rcases hq with ⟨z, _, hz⟩ | hq | hq
        · cases hz
        · cases hq
          exact ⟨Function.update_self _ _ _, h.table.old p n hp⟩
        · obtain ⟨hnone, hltq⟩ := h.failures.gone q hq
          exact ⟨heap_eq_none_of_update hp rfl q hnone, hltq⟩

theorem InvBut.remove (h : s.Inv) (hp : s.heap p = some n)
    (hstate : n.reachabilityState ≠ .incomplete)
    (hheap : s'.heap = Function.update s.heap p none)
    (hmap : s'.neighbourMap = s.neighbourMap.erase n.nceKey) (hmessages : OnlyOf p s s')
    (hnone : ∀ m, s'.Timer m .arTimeout p → s.Timer m .arTimeout p)
    (hqueue : s'.pendingQueue = s.pendingQueue) (hpackets : s'.packets = s.packets)
    (hlog : s'.log = s.log) : s'.Inv := by
  have hn := h.table.resolving p n hp (Option.some_ne_none p)
  constructor
  · apply (h.table.but (some p)).remove hp hheap hmap hmessages
    intro m hm
    exact hn.not_timer hstate (hnone m hm)
  · refine h.ledger.of_same ?_ hqueue hpackets.ge (fun _ ↦ by rw [hlog]) fun _ ↦ by rw [hlog]
    intro q
    rw [pendingAt_clear hheap rfl]
    split
    · rename_i hq
      rw [hq, pendingAt_eq hp, hn.pending hstate]
    · rfl
  · exact h.failures.of_quiet (.inl hlog) (fun q hq _ ↦ heap_eq_none_of_update hp hheap q hq)
      hmessages.fresh

/-- The timer of unreachability detection goes off: another probe is sent, or the entry goes. -/
theorem InvBut.processNUDTimeout (h : s.Inv) (hm : s.Timer m .nudTimeout p) :
    Outcome (({ s with messages := Function.update s.messages m (some ⟨.nudTimeout, p, false⟩) } :
      NeighbourDiscovery).processNUDTimeout cfg m p) Inv fun _ ↦ True := by
  have hlt := (h.table.oldMessage m _ hm).1
  unfold NeighbourDiscovery.processNUDTimeout
  apply outcome_read fun _ ↦ trivial
  intro n hp
  have hn := h.table.resolving p n hp (Option.some_ne_none p)
  have hne : n.reachabilityState ≠ .incomplete := fun hstate ↦ hn.idle hstate m hm
  dsimp only
  generalize hn' : (if n.reachabilityState = .delay then
    { n with reachabilityState := .probe, numProbesSent := 0 } else n) = n'
  have hkey : n'.nceKey = n.nceKey := by
    rw [← hn']
    split <;> rfl
  have hpending : n'.pendingPackets = n.pendingPackets := by
    rw [← hn']
    split <;> rfl
  have hnud : n'.nudTimeoutEvent = n.nudTimeoutEvent := by
    rw [← hn']
    split <;> rfl
  have hne' : n'.reachabilityState ≠ .incomplete := by
    rw [← hn']
    split
    · nofun
    · exact hne
  apply Outcome.ite
  · intro _
    refine Outcome.post (outcome_remove (p := p) (n := n') ?_ ?_) ?_
    · rw [hkey]
      exact h.table.located p n hp
    · exact Function.update_self _ _ _
    rintro _ ⟨messages, hmessages, rfl⟩
    dsimp only [write] at hmessages ⊢
    rw [Function.update_idem]
    rw [hnud] at hmessages
    obtain ⟨honly, htimers⟩ := hn.messages_remove hm hlt hmessages
    refine h.remove hp hne rfl (by rw [hkey]) (honly.trans (onlyOf_of_eq rfl rfl)) ?_ rfl rfl rfl
    intro m' hm'
    exact (htimers m' _ _ hm').2
  · intro _
    unfold setScheduled write NeighbourDiscovery.note
    dsimp only
    rw [Function.update_self]
    dsimp only
    rw [update_scheduled_again hm]
    refine (h.but (some p)).change hp rfl hkey hpending rfl (onlyOf_of_eq rfl rfl) rfl le_rfl
      (.inr ⟨_, rfl, rfl⟩) (Resolving.of_ne hne' ?_ ?_ ?_)
    · intro m'
      exact hn.not_timer hne
    · exact hpending.trans (hn.pending hne)
    · intro m' hm'
      exact hn.nud m' (hnud.symm.trans hm')

/-- The message that is stored for unreachability detection is cancelled and deleted. -/
theorem InvBut.cancelDetection (h : s.Inv) (hp : s.heap p = some n)
    (hm : n.nudTimeoutEvent = some m) :
    Outcome (do
      let s ← s.cancelEvent m
      s.deleteMessage m) Inv fun _ ↦ True := by
  have hn := h.table.resolving p n hp (Option.some_ne_none p)
  obtain ⟨hlt, hkind⟩ := hn.nud m hm
  apply outcome_setScheduled.bind
  rintro _ ⟨x, hx, rfl⟩
  apply outcome_deleteMessage.post
  rintro _ ⟨y, hy, _, rfl⟩
  dsimp only
  rw [Function.update_idem]
  have honly : OnlyOf p s { s with messages := Function.update s.messages m none } :=
    onlyOf_delete hx hlt (hkind x hx).2 rfl rfl
  have hsame {m' : ℕ} (hm' : m' ≠ m) : Function.update s.messages m none m' = s.messages m' :=
    Function.update_of_ne hm' _ _
  refine (h.but (some p)).change hp (Function.update_eq_self_iff.mpr hp.symm).symm rfl rfl rfl honly rfl
    le_rfl (.inl rfl) ⟨fun m' ↦ ?_, hn.started, hn.unknown, fun hstate m' hm' ↦ ?_, hn.pending,
      fun m' hm' ↦ ?_⟩
  · rw [← hn.timer m']
    unfold Timer
    dsimp only
    by_cases hmm : m' = m
    · rw [hmm, Function.update_self]
      constructor
      · nofun
      · intro htimer
        cases (hkind _ htimer).1
    · rw [hsame hmm]
  · unfold Timer at hm'
    dsimp only at hm'
    by_cases hmm : m' = m
    · rw [hmm, Function.update_self] at hm'
      cases hm'
    · rw [hsame hmm] at hm'
      exact hn.idle hstate m' hm'
  · rw [hm, Option.some.injEq] at hm'
    refine ⟨by rw [← hm']; exact hlt, fun z hz ↦ ?_⟩
    dsimp only at hz
    rw [← hm', Function.update_self] at hz
    cases hz

theorem InvBut.write (h : s.Inv) (hp : s.heap p = some n)
    (hstate : n.reachabilityState ≠ .incomplete) (hkey : n'.nceKey = n.nceKey)
    (hpending : n'.pendingPackets = n.pendingPackets)
    (hnud : n'.nudTimeoutEvent = n.nudTimeoutEvent) (hstate' : n'.reachabilityState ≠ .incomplete) :
    (s.write p n').Inv := by
  have hn := h.table.resolving p n hp (Option.some_ne_none p)
  refine (h.but (some p)).change hp rfl hkey hpending rfl (onlyOf_of_eq rfl rfl) rfl le_rfl (.inl rfl)
    (Resolving.of_ne hstate' ?_ ?_ ?_)
  · intro m
    exact hn.not_timer hstate
  · exact hpending.trans (hn.pending hstate)
  · intro m hm
    exact hn.nud m (hnud.symm.trans hm)

theorem InvBut.processNAForOtherNCEStates (h : s.Inv) (hp : s.heap p = some n)
    (hstate : n.reachabilityState ≠ .incomplete) (simTime : ℚ) (na : Advertisement) :
    Outcome (s.processNAForOtherNCEStates cfg simTime na p) Inv fun _ ↦ True := by
  unfold NeighbourDiscovery.processNAForOtherNCEStates
  rw [read, hp]
  dsimp only
  rw [ok_bind]
  apply Outcome.ite
  · intro _
    apply Outcome.ite
    · intro _
      exact h.write hp hstate rfl rfl rfl nofun
    · intro _
      exact h
  · intro _
    generalize hn' : (if na.targetLinkLayerAddress ≠ 0 then
      { n with macAddress := na.targetLinkLayerAddress } else n) = n'
    have hkey : n'.nceKey = n.nceKey := by
      rw [← hn']
      split <;> rfl
    have hpending : n'.pendingPackets = n.pendingPackets := by
      rw [← hn']
      split <;> rfl
    have hnud : n'.nudTimeoutEvent = n.nudTimeoutEvent := by
      rw [← hn']
      split <;> rfl
    have hne' : n'.reachabilityState ≠ .incomplete := by
      rw [← hn']
      split <;> exact hstate
    apply Outcome.ite
    · intro _
      split
      · rename_i m hm
        refine InvBut.cancelDetection (h.write hp hstate ?_ ?_ ?_ ?_) (Function.update_self _ _ _) hm
        · exact hkey
        · exact hpending
        · exact hnud
        · nofun
      · exact h.write hp hstate hkey hpending hnud nofun
    · intro _
      refine h.write hp hstate ?_ ?_ ?_ ?_
      · dsimp only
        split <;> exact hkey
      · dsimp only
        split <;> exact hpending
      · dsimp only
        split <;> exact hnud
      · dsimp only
        split
        · nofun
        · exact hne'

theorem InvBut.note {e : LogEntry} (h : s.Inv) (he : e.isNeutral = true) : (s.note e).Inv :=
  ⟨⟨h.table.mapped, h.table.located, h.table.old, h.table.oldMessage,
    fun p n hp hq ↦ (h.table.resolving p n hp hq).of_eq rfl rfl rfl rfl rfl rfl rfl,
    h.table.alive⟩,
    h.ledger.of_same (fun _ ↦ rfl) rfl le_rfl (fun _ ↦ (quiet_note he).queuedAt)
      fun _ ↦ (quiet_note he).leftAt,
    h.failures.of_quiet (quiet_note he) (fun _ hq _ ↦ hq) le_rfl⟩

theorem InvBut.addNeighbour (h : s.Inv) (hpending : n.pendingPackets = []) :
    Outcome (s.addNeighbour n)
      (fun x ↦ InvBut (some x.1) x.2 ∧ x.2.heap x.1 = some n ∧ (∀ m kind, ¬x.2.Timer m kind x.1) ∧
        x.2.packets = s.packets ∧ x.2.log = s.log) fun _ ↦ True := by
  unfold NeighbourDiscovery.addNeighbour
  split
  · trivial
  · rename_i hlookup
    refine ⟨⟨h.table.add hlookup rfl rfl rfl rfl, ?_, ?_⟩, Function.update_self _ _ _, ?_, rfl, rfl⟩
    · refine h.ledger.of_same ?_ rfl le_rfl (fun _ ↦ rfl) fun _ ↦ rfl
      intro q
      rw [pendingAt_update rfl]
      split
      · rename_i hq
        have hnone : s.heap q = none := by
          apply Option.eq_none_iff_forall_ne_some.mpr
          intro e he
          exact absurd (h.table.old q e he) (by omega)
        unfold pendingAt
        rw [hpending, hnone]
        rfl
      · rfl
    · refine h.failures.of_quiet (.inl rfl) (fun q hq hlt ↦ ?_) (Nat.le_succ _)
      exact (Function.update_of_ne hlt.ne _ _).trans hq
    · intro m kind hm
      exact absurd (h.table.oldMessage m _ hm).2 (lt_irrefl _)

/-- The entry that was left out meets its condition again. -/
theorem InvBut.restore (h : InvBut (some p) s) (hp : s.heap p = some n) (hn : s.Resolving p n) :
    s.Inv :=
  h.change hp (Function.update_eq_self_iff.mpr hp.symm).symm rfl rfl rfl (onlyOf_of_eq rfl rfl) rfl
    le_rfl (.inl rfl) hn

theorem InvBut.sendOrQueue (h : s.Inv) (hx : s.New x) (msg : Datagram)
    (hidle : ∀ p n, s.lookup key = some p → s.heap p = some n → n.macAddress = 0 →
      n.reachabilityState ≠ .incomplete → ∀ m, ¬s.Timer m .nudTimeout p) :
    Outcome (NeighbourDiscovery.sendOrQueue cfg s x msg key) Inv fun _ ↦ True := by
  have hqueue {t : NeighbourDiscovery} {p : ℕ} (ht : t.Inv ∧ t.New x ∧
      ∃ n, t.heap p = some n ∧ n.reachabilityState = .incomplete) :
      Outcome (t.queuePacket p x) Inv fun _ ↦ True := by
    obtain ⟨hinv, hnew, n, hp, hstate⟩ := ht
    exact hinv.queuePacket hnew hp hstate
  unfold NeighbourDiscovery.sendOrQueue
  split
  · refine Outcome.bind (h.addNeighbour rfl) fun a ha ↦ ?_
    obtain ⟨hadded, hp, hnone, hpackets, hlog⟩ := ha
    have hnew : a.2.New x := by
      unfold New
      rw [hpackets, hlog]
      exact hx
    refine Outcome.bind (hadded.initiateAddressResolution hp rfl hnone nofun hnew msg.srcAddr)
      fun t ht ↦ ?_
    exact hqueue ht
  · rename_i p hlookup
    apply outcome_read fun _ ↦ trivial
    intro n hp
    have hn := h.table.resolving p n hp (Option.some_ne_none p)
    apply Outcome.ite
    · intro hstate
      exact h.queuePacket hx hp hstate
    · intro hstate
      apply Outcome.ite
      · intro hmac
        have hnone (m : ℕ) (kind : MessageKind) : ¬s.Timer m kind p := by
          cases kind with
          | nudTimeout => exact hidle p n hlookup hp hmac hstate m
          | arTimeout => exact hn.not_timer hstate
        refine Outcome.bind ((h.but (some p)).initiateAddressResolution hp hmac hnone hn.nud hx
          msg.srcAddr) fun t ht ↦ ?_
        exact hqueue ht
      · intro _
        split
        · exact (h.note rfl).initiateNeighbourUnreachabilityDetection
        · exact h.note rfl
        · exact h.note rfl
        · trivial

theorem InvBut.count (h : s.Inv) : ({ s with packets := s.packets + 1 } : NeighbourDiscovery).Inv :=
  ⟨⟨h.table.mapped, h.table.located, h.table.old, h.table.oldMessage,
    fun p n hp hq ↦ (h.table.resolving p n hp hq).of_eq rfl rfl rfl rfl rfl rfl rfl,
    h.table.alive⟩,
    h.ledger.of_same (fun _ ↦ rfl) rfl (Nat.le_succ _) (fun _ ↦ rfl) fun _ ↦ rfl,
    h.failures.of_quiet (.inl rfl) (fun _ hq _ ↦ hq) le_rfl⟩

/-! ## Runs -/

/-- No solicitation brings a link-layer address for an entry that is incomplete, and no datagram comes
for an entry without a link-layer address while unreachability detection runs for it. -/
def Allowed (s : NeighbourDiscovery) : Event → Prop
  | .datagram simTime route msg => ∀ key p n,
      s.determineNextHop simTime route msg.destAddr = .ok (some key) → s.lookup key = some p →
      s.heap p = some n → n.macAddress = 0 → n.reachabilityState ≠ .incomplete →
      ∀ m, ¬s.Timer m .nudTimeout p
  | .solicitation ns => ∀ p n, s.lookup ⟨ns.srcAddr, ns.interfaceId⟩ = some p →
      s.heap p = some n → n.reachabilityState = .incomplete → ns.sourceLinkLayerAddress = 0
  | _ => True

theorem InvBut.updateSender (h : s.Inv) {ns : Solicitation} (hns : s.Allowed (.solicitation ns)) :
    Outcome (s.updateSender ns) Inv fun _ ↦ True := by
  unfold NeighbourDiscovery.updateSender
  split
  · refine Outcome.bind (h.addNeighbour rfl) fun a ha ↦ ?_
    obtain ⟨hadded, hp, hnone, _, _⟩ := ha
    refine hadded.restore hp (Resolving.of_ne nofun ?_ rfl nofun)
    intro m
    exact hnone m _
  · rename_i p hlookup
    apply outcome_read fun _ ↦ trivial
    intro n hp
    apply Outcome.ite
    · intro hmac
      have hstate : n.reachabilityState ≠ .incomplete := by
        intro hstate
        exact hmac.2 (hns p n hlookup hp hstate)
      exact h.write hp hstate rfl rfl rfl nofun
    · intro _
      exact h

theorem InvBut.resolveNeighbour (h : s.Inv) (simTime : ℚ) (key : Key) :
    Outcome (s.resolveNeighbour simTime key) (fun x ↦ x.2.Inv) fun _ ↦ True := by
  have hdetect {t : NeighbourDiscovery} {p : ℕ} (ht : t.Inv) (mac : MACAddress) :
      Outcome (do
        let s ← t.initiateNeighbourUnreachabilityDetection p
        return (mac, s)) (fun x ↦ x.2.Inv) fun _ ↦ True :=
    Outcome.bind ht.initiateNeighbourUnreachabilityDetection fun _ hs ↦ hs
  unfold NeighbourDiscovery.resolveNeighbour
  split
  · exact h
  · rename_i p hlookup
    apply outcome_read fun _ ↦ trivial
    intro n hp
    split
    · exact h
    · exact hdetect h n.macAddress
    · rename_i hstate
      apply Outcome.ite
      · intro _
        apply hdetect
        refine h.write hp ?_ rfl rfl rfl nofun
        rw [hstate]
        nofun
      · intro _
        exact h
    · exact h
    · exact h

theorem InvBut.step (h : s.Inv) (e : Event) (he : s.Allowed e) :
    Outcome (s.step cfg e) Inv fun _ ↦ True := by
  cases e with
  | datagram simTime route msg =>
    unfold NeighbourDiscovery.step NeighbourDiscovery.processIPv6Datagram
    dsimp only
    cases hhop : s.determineNextHop simTime route msg.destAddr with
    | error e => trivial
    | ok next =>
      rw [ok_bind]
      cases next with
      | none => exact InvBut.note h.count rfl
      | some key =>
        apply InvBut.sendOrQueue h.count
        · exact ⟨Nat.lt_succ_self _, h.ledger.old⟩
        · intro p n
          exact he key p n hhop
  | solicitation ns =>
    unfold NeighbourDiscovery.step NeighbourDiscovery.processNSForNonTentativeAddress
    apply Outcome.ite
    · intro _
      exact h.note rfl
    · intro _
      refine Outcome.bind (h.updateSender he) fun t ht ↦ ?_
      exact ht.note rfl
  | advertisement simTime na =>
    unfold NeighbourDiscovery.step NeighbourDiscovery.processNAPacket
    apply Outcome.ite
    · intro _
      apply Outcome.ite
      · intro _
        trivial
      · intro _
        split
        · exact h
        · apply outcome_read fun _ ↦ trivial
          intro n hp
          apply Outcome.ite
          · intro hstate
            exact h.processNAForIncompleteNCEState hp hstate simTime na
          · intro hstate
            exact h.processNAForOtherNCEStates hp hstate simTime na
    · intro _
      exact h
  | resolveNeighbour simTime key => exact (h.resolveNeighbour simTime key).map
  | reachabilityConfirmed key =>
    unfold NeighbourDiscovery.step NeighbourDiscovery.reachabilityConfirmed
    dsimp only
    split
    · trivial
    · apply outcome_read fun _ ↦ trivial
      intro n hp
      split
      · exact h
      · rename_i m hm
        exact h.cancelDetection hp hm
  | timeout m =>
    unfold NeighbourDiscovery.step NeighbourDiscovery.processTimeout
    dsimp only
    split
    · trivial
    · rename_i x hx
      obtain ⟨kind, p, scheduled⟩ := x
      apply Outcome.ite
      · intro hscheduled
        dsimp only at hscheduled
        subst hscheduled
        cases kind with
        | nudTimeout => exact h.processNUDTimeout hx
        | arTimeout => exact h.processARTimeout hx
      · intro _
        trivial

/-- An empty cache. -/
structure Started (s : NeighbourDiscovery) : Prop where
  neighbourMap : s.neighbourMap = .empty
  heap : ∀ p, s.heap p = none
  messages : ∀ m, s.messages m = none
  pendingQueue : s.pendingQueue = []
  log : s.log = []

theorem Started.inv (h : s.Started) : s.Inv := by
  have hpending (p : ℕ) : s.pendingAt p = [] := by
    unfold pendingAt
    rw [h.heap]
    rfl
  refine ⟨⟨fun key p hp ↦ ?_, fun p n hp ↦ ?_, fun p n hp ↦ ?_, fun m x hx ↦ ?_,
    fun p n hp ↦ ?_, fun m p hm ↦ ?_⟩, ⟨fun p ↦ ?_, fun x ↦ ?_, ?_, fun p ↦ ?_, fun p x hx ↦ ?_,
    fun p q x hx ↦ ?_⟩, ⟨fun x p hx ↦ ?_, fun p hp ↦ ?_⟩⟩
  · unfold lookup at hp
    rw [h.neighbourMap] at hp
    cases hp
  · rw [h.heap] at hp
    cases hp
  · rw [h.heap] at hp
    cases hp
  · rw [h.messages] at hx
    cases hx
  · rw [h.heap] at hp
    cases hp
  · unfold Timer at hm
    rw [h.messages] at hm
    cases hm
  · rw [h.log, hpending]
    rfl
  · rw [h.pendingQueue]
    simp [hpending]
  · rw [h.pendingQueue]
    exact List.nodup_nil
  · rw [h.log]
    exact List.nodup_nil
  · rw [h.log] at hx
    cases hx
  · rw [h.log] at hx
    cases hx
  · rw [h.log] at hx
    cases hx
  · rw [h.log] at hp
    cases hp

/-- A timer of address resolution counts up to the maximum, and then the resolution has failed. -/
theorem outcome_processARTimeout (hp : s.heap p = some n) (hkey : s.lookup n.nceKey = some p) :
    Outcome (s.processARTimeout cfg m p) (fun s' ↦
      n.numOfARNSSent < cfg.maxMulticastSolicit n.nceKey.interfaceID ∧
        s'.heap p = some { n with numOfARNSSent := n.numOfARNSSent + 1 } ∨
      cfg.maxMulticastSolicit n.nceKey.interfaceID ≤ n.numOfARNSSent ∧ s'.heap p = none ∧
        .failed p ∈ s'.log) fun _ ↦ True := by
  unfold processARTimeout
  rw [read, hp]
  dsimp only
  rw [ok_bind]
  apply Outcome.ite
  · intro hlt
    apply outcome_setScheduled.post
    rintro _ ⟨x, _, rfl⟩
    exact .inl ⟨hlt, Function.update_self _ _ _⟩
  · intro hlt
    unfold dropQueuedPacketsAwaitingAR note
    rw [read, hp]
    dsimp only
    rw [ok_bind, unqueue_eq]
    refine Outcome.bind (outcome_remove (p := p) (n := n) hkey hp) ?_
    rintro _ ⟨messages, _, rfl⟩
    apply outcome_deleteMessage.post
    rintro _ ⟨x, _, _, rfl⟩
    exact .inr ⟨not_lt.mp hlt, Function.update_self _ _ _, by simp⟩

/-- In every run of this kind: packets wait only at incomplete entries, whose link-layer address is not
known and whose timer of address resolution is in the event queue; no such timer refers to an entry
with a known address; `pendingQueue` holds the waiting packets and no entry shares one with another; at
every entry packets leave in the order in which they were queued, none twice; they are reported only
if the resolution of the entry has failed, which takes no more than the maximal number of timeouts. -/
theorem address_resolution_keeps_packets (h : Reachable Started Allowed (step cfg) s) :
    (∀ p n, s.heap p = some n → n.pendingPackets ≠ [] → n.reachabilityState = .incomplete ∧
      n.macAddress = 0 ∧ ∃ m, s.Timer m .arTimeout p) ∧
    (∀ m p n, s.Timer m .arTimeout p → s.heap p = some n → n.macAddress = 0) ∧
    (s.pendingQueue.Nodup ∧ (∀ x, x ∈ s.pendingQueue ↔ ∃ p, x ∈ s.pendingAt p) ∧
      ∀ p q x, x ∈ s.pendingAt p → x ∈ s.pendingAt q → p = q) ∧
    (∀ p, queuedAt p s.log = leftAt p s.log ++ s.pendingAt p ∧ (queuedAt p s.log).Nodup) ∧
    (∀ p q x, x ∈ queuedAt p s.log → x ∈ queuedAt q s.log → p = q) ∧
    (∀ x p, .reported x p ∈ s.log → .failed p ∈ s.log ∧ s.heap p = none) ∧
    ∀ m p n s', s.Timer m .arTimeout p → s.heap p = some n → s.step cfg (.timeout m) = .ok s' →
      n.numOfARNSSent < cfg.maxMulticastSolicit n.nceKey.interfaceID ∧
        s'.heap p = some { n with numOfARNSSent := n.numOfARNSSent + 1 } ∨
      cfg.maxMulticastSolicit n.nceKey.interfaceID ≤ n.numOfARNSSent ∧ .failed p ∈ s'.log ∧
        leftAt p s'.log = queuedAt p s'.log := by
  have hs : s.Inv := (h.outcome (fun _ ↦ Started.inv) fun _ e hs he ↦ hs.step e he).1
  refine ⟨?_, ?_, ⟨hs.ledger.nodup, hs.ledger.queue, ?_⟩, ?_, hs.ledger.apart, ?_, ?_⟩
  · intro p n hp hpending
    have hn := hs.table.resolving p n hp (Option.some_ne_none p)
    have hstate : n.reachabilityState = .incomplete := by
      by_contra hne
      exact hpending (hn.pending hne)
    obtain ⟨m, hm⟩ := hn.started hstate
    exact ⟨hstate, hn.unknown hstate, m, (hn.timer m).mpr ⟨hstate, hm⟩⟩
  · intro m p n hm hp
    have hn := hs.table.resolving p n hp (Option.some_ne_none p)
    exact hn.unknown ((hn.timer m).mp hm).1
  · intro p q x hx hx'
    exact hs.ledger.apart p q x (hs.ledger.mem_queuedAt hx) (hs.ledger.mem_queuedAt hx')
  · intro p
    exact ⟨hs.ledger.account p, hs.ledger.distinct p⟩
  · intro x p hx
    have hfailed := hs.failures.reported x p hx
    exact ⟨hfailed, (hs.failures.gone p hfailed).1⟩
  · intro m p n s' hm hp hstep
    have hs' : s'.Inv := (hs.step (.timeout m) trivial).of_eq_ok hstep
    unfold NeighbourDiscovery.step processTimeout at hstep
    unfold Timer at hm
    dsimp only at hstep
    rw [hm] at hstep
    rcases (outcome_processARTimeout (s := { s with
        messages := Function.update s.messages m (some ⟨.arTimeout, p, false⟩) }) hp
        (hs.table.located p n hp)).of_eq_ok hstep with hagain | ⟨hmax, hnone, hfailed⟩
    · exact .inl hagain
    · have haccount := hs'.ledger.account p
      have hpending : s'.pendingAt p = [] := by
        unfold pendingAt
        rw [hnone]
        rfl
      rw [hpending, List.append_nil] at haccount
      exact .inr ⟨hmax, hfailed, haccount.symm⟩

/-- One interface with one address, and one solicitation only. -/
def oneTry : Config where
  maxMulticastSolicit _ := 1
  maxUnicastSolicit _ := 1
  reachableTime _ := 30
  hasAddress _ a := a == 0xfe800000000000000000000000000001
  preferredAddress _ := 0xfe800000000000000000000000000001
  isTentativeAddress _ _ := false

def emptyCache : NeighbourDiscovery := ⟨.empty, fun _ ↦ none, fun _ ↦ none, 0, 0, [], []⟩

/-- A datagram for an on-link neighbour. -/
def toNeighbour : Event :=
  .datagram 0 (some (0, 1))
    ⟨0xfe800000000000000000000000000002, 0xfe800000000000000000000000000001⟩

/-- The neighbour answers. -/
def answer : Event :=
  .advertisement 1 ⟨0xfe800000000000000000000000000002, 0x0AAA00000002, false, true, true, 255,
    0xfe800000000000000000000000000001, 1⟩

/-- The neighbour wants to know our address itself. -/
def crossing : Event :=
  .solicitation ⟨0xfe800000000000000000000000000002, 1, 0x0AAA00000002⟩

theorem address_resolution_keeps_packets_answer : ∃ s,
    run (step oneTry) emptyCache [toNeighbour, answer] = .ok s ∧ .sentQueued 0 0 ∈ s.log ∧
    queuedAt 0 s.log = leftAt 0 s.log ++ s.pendingAt 0 := by
  obtain ⟨s, hrun, hcheck⟩ := exists_ok (run (step oneTry) emptyCache [toNeighbour, answer])
    (fun s ↦ .sentQueued 0 0 ∈ s.log) (by decide +kernel)
  have hreach : Reachable Started Allowed (step oneTry) s := by
    obtain ⟨s₁, h₁, hrun⟩ := bind_ok_iff.mp hrun
    obtain ⟨s₂, h₂, hrun⟩ := bind_ok_iff.mp hrun
    cases hrun
    have hstart : Reachable Started Allowed (step oneTry) emptyCache :=
      .start ⟨rfl, fun _ ↦ rfl, fun _ ↦ rfl, rfl, rfl⟩
    have hfirst : emptyCache.Allowed toNeighbour := by
      intro key p n _ hlookup
      cases hlookup
    have hsecond : s₁.Allowed answer := trivial
    exact (hstart.next hfirst h₁).next hsecond h₂
  obtain ⟨_, _, _, haccount, _⟩ := address_resolution_keeps_packets hreach
  exact ⟨s, hrun, hcheck, (haccount 0).1⟩

/-- A solicitation of the neighbour crosses its resolution: the packet stays in the queue of an entry
with a known address, and the timeout deletes this entry. -/
theorem crossing_solicitation : ∃ s s' n,
    run (step oneTry) emptyCache [toNeighbour, crossing] = .ok s ∧
    s.heap 0 = some n ∧ n.macAddress = 0x0AAA00000002 ∧ n.reachabilityState = .stale ∧
    n.pendingPackets = [0] ∧ s.step oneTry (.timeout 1) = .ok s' ∧ s'.heap 0 = none ∧
    .reported 0 0 ∈ s'.log := by
  have hcheck : ((run (step oneTry) emptyCache [toNeighbour, crossing]).toOption.any fun s ↦
      (s.heap 0).any fun n ↦ (s.step oneTry (.timeout 1)).toOption.any fun s' ↦
        decide (n.macAddress = 0x0AAA00000002 ∧ n.reachabilityState = .stale ∧ n.pendingPackets = [0] ∧
          s'.heap 0 = none ∧ .reported 0 0 ∈ s'.log)) = true := by decide +kernel
  cases hrun : run (step oneTry) emptyCache [toNeighbour, crossing] with
  | error e =>
    rw [hrun] at hcheck
    cases hcheck
  | ok s =>
    rw [hrun, Except.toOption, Option.any_some] at hcheck
    cases hheap : s.heap 0 with
    | none =>
      rw [hheap] at hcheck
      cases hcheck
    | some n =>
      rw [hheap, Option.any_some] at hcheck
      cases hstep : s.step oneTry (.timeout 1) with
      | error e =>
        rw [hstep] at hcheck
        cases hcheck
      | ok s' =>
        rw [hstep] at hcheck
        obtain ⟨hmac, hstate, hpending, hgone, hreported⟩ := of_decide_eq_true hcheck
        exact ⟨s, s', n, rfl, hheap, hmac, hstate, hpending, hstep, hgone, hreported⟩

end NeighbourDiscovery

end InetManet
