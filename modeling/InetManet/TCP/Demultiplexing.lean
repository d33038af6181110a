import InetManet.TCP.Module

/-!
# Demultiplexing tables

In every state of the module both maps index the live connections: `tcpConnMap` by their socket
pairs and `tcpAppConnMap` by their ids, and the multiset of ephemeral ports counts their local
ports. The entry of a connection moves only to a key under which no segment was found, so none is
ever overwritten.
-/

namespace InetManet.TCP

open TransitionSystem OrderedMap

namespace TCPModule

/-- The number of live connections on a local port. -/
def connsOnPort (t : TCPModule) (port : ℤ) : ℤ :=
  t.conns.sum fun o ↦ if o.pair.localPort = port then 1 else 0

structure Inv (t : TCPModule) : Prop where
  sock : t.tcpConnMap.Indexes t.conns (·.pair)
  app : t.tcpAppConnMap.Indexes t.conns (·.appKey)
  ports : ∀ port, (t.usedEphemeralPorts.count port : ℤ) =
    if isEphemeral port then t.connsOnPort port else 0
  fresh : ∀ conn o, t.conns.find? conn = some o → conn < t.nextConn
  opened : ∀ conn o, t.conns.find? conn = some o → o.fsm ≠ .init

section Inv

variable {t t' : TCPModule} {conn : ℕ} {o o' : ConnObject} {pair : SockPair}

theorem Inv.find?_nextConn (h : Inv t) : t.conns.find? t.nextConn = none := by
  cases hfind : t.conns.find? t.nextConn with
  | none => rfl
  | some o => exact absurd (h.fresh _ o hfind) (lt_irrefl _)

/-- The object at `conn` becomes `o'` on the same local port, and its entries move. -/
theorem Inv.rekey (h : Inv t) (ho : t.conns.find? conn = some o)
    (hport : o'.pair.localPort = o.pair.localPort) (hfsm : o'.fsm ≠ .init)
    (hpair : o'.pair = o.pair ∨ t.tcpConnMap.find? o'.pair = none)
    (hkey : o'.appKey = o.appKey ∨ t.tcpAppConnMap.find? o'.appKey = none) :
    Inv { t with
      conns := t.conns.insert conn o'
      tcpConnMap := (t.tcpConnMap.erase o.pair).insert o'.pair conn
      tcpAppConnMap := (t.tcpAppConnMap.erase o.appKey).insert o'.appKey conn } := by
  refine ⟨h.sock.rekey (f := (·.pair)) ho hpair, h.app.rekey (f := (·.appKey)) ho hkey,
    fun port ↦ ?_, fun c o₁ hc ↦ ?_, fun c o₁ hc ↦ ?_⟩
  · rw [h.ports port]
    have hsum : TCPModule.connsOnPort { t with conns := t.conns.insert conn o' } port =
        t.connsOnPort port := by
      unfold connsOnPort
      rw [sum_replace _ ho, hport]
      omega
    rw [← hsum]
    rfl
  · change (t.conns.insert conn o').find? c = some o₁ at hc
    rw [find?_insert] at hc
    split at hc <;> rename_i heq
    · rw [heq]
      exact h.fresh conn o ho
    · exact h.fresh c o₁ hc
  · change (t.conns.insert conn o').find? c = some o₁ at hc
    rw [find?_insert] at hc
    split at hc
    · cases hc
      exact hfsm
    · exact h.opened c o₁ hc

/-- The object changes, but neither its pair nor its ids. -/
theorem Inv.store (h : Inv t) (ho : t.conns.find? conn = some o) (hpair : o'.pair = o.pair)
    (hkey : o'.appKey = o.appKey) (hfsm : o'.fsm ≠ .init) : Inv (t.store conn o') := by
  have hnew := h.rekey ho (congrArg SockPair.localPort hpair) hfsm (.inl hpair) (.inl hkey)
  rw [hpair, hkey, insert_erase_self (h.sock.find? ho), insert_erase_self (h.app.find? ho)] at hnew
  exact hnew

theorem Inv.add (h : Inv t) (hfsm : o.fsm ≠ .init) (hpair : t.tcpConnMap.find? o.pair = none)
    (hkey : t.tcpAppConnMap.find? o.appKey = none) :
    Inv { t with
      conns := t.conns.insert t.nextConn o
      tcpConnMap := t.tcpConnMap.insert o.pair t.nextConn
      tcpAppConnMap := t.tcpAppConnMap.insert o.appKey t.nextConn
      usedEphemeralPorts :=
        if isEphemeral o.pair.localPort then o.pair.localPort ::ₘ t.usedEphemeralPorts
        else t.usedEphemeralPorts
      nextConn := t.nextConn + 1 } := by
  have hnone := h.find?_nextConn
  refine ⟨h.sock.add (f := (·.pair)) hnone hpair, h.app.add (f := (·.appKey)) hnone hkey,
    fun port ↦ ?_, fun c o₁ hc ↦ ?_, fun c o₁ hc ↦ ?_⟩
  · have hports := h.ports port
    have hsum : TCPModule.connsOnPort { t with conns := t.conns.insert t.nextConn o } port =
        (if o.pair.localPort = port then 1 else 0) + t.connsOnPort port := by
      unfold connsOnPort
      rw [sum_insert _ hnone]
    show _ = if isEphemeral port then
      TCPModule.connsOnPort { t with conns := t.conns.insert t.nextConn o } port else 0
    rw [hsum]
    dsimp only
    by_cases hsame : o.pair.localPort = port
    · subst hsame
      by_cases heph : isEphemeral o.pair.localPort = true
      · rw [if_pos heph] at hports ⊢
        rw [if_pos heph, if_pos rfl, Multiset.count_cons_self]
        push_cast
        omega
      · rw [if_neg heph] at hports ⊢
        rw [if_neg heph]
        exact hports
    · have hcount : Multiset.count port (if isEphemeral o.pair.localPort = true then
          o.pair.localPort ::ₘ t.usedEphemeralPorts else t.usedEphemeralPorts) =
          t.usedEphemeralPorts.count port := by
        split
        · exact Multiset.count_cons_of_ne (fun heq ↦ hsame heq.symm) _
        · rfl
      rw [hcount, hports, if_neg hsame, zero_add]
  · change (t.conns.insert t.nextConn o).find? c = some o₁ at hc
    rw [find?_insert] at hc
    show c < t.nextConn + 1
    split at hc
    · omega
    · have := h.fresh c o₁ hc
      omega
  · change (t.conns.insert t.nextConn o).find? c = some o₁ at hc
    rw [find?_insert] at hc
    split at hc
    · cases hc
      exact hfsm
    · exact h.opened c o₁ hc

theorem Inv.remove (h : Inv t) (ho : t.conns.find? conn = some o) :
    Inv (t.removeConnection conn o) := by
  have hsock : (t.tcpConnMap.erase o.pair).Indexes (t.conns.erase conn) (·.pair) :=
    h.sock.remove ho
  have happ : (t.tcpAppConnMap.erase o.appKey).Indexes (t.conns.erase conn) (·.appKey) :=
    h.app.remove ho
  refine ⟨hsock, happ, fun port ↦ ?_, fun c o₁ hc ↦ ?_, fun c o₁ hc ↦ ?_⟩
  · have hports := h.ports port
    have hsum : (t.removeConnection conn o).connsOnPort port =
        t.connsOnPort port - (if o.pair.localPort = port then 1 else 0) := by
      unfold connsOnPort
      exact sum_erase _ ho
    rw [hsum]
    show ((t.usedEphemeralPorts.erase o.pair.localPort).count port : ℤ) = _
    by_cases hsame : o.pair.localPort = port
    · subst hsame
      rw [Multiset.count_erase_self, if_pos rfl]
      by_cases heph : isEphemeral o.pair.localPort = true
      · rw [if_pos heph] at hports ⊢
        have hone : 1 ≤ t.connsOnPort o.pair.localPort := by
          have hrest : 0 ≤ (t.removeConnection conn o).connsOnPort o.pair.localPort :=
            sum_nonneg _ fun o₁ ↦ by split <;> omega
          rw [hsum, if_pos rfl] at hrest
          omega
        omega
      · rw [if_neg heph] at hports ⊢
        omega
    · rw [Multiset.count_erase_of_ne (fun heq ↦ hsame heq.symm), hports, if_neg hsame, sub_zero]
  · change (t.conns.erase conn).find? c = some o₁ at hc
    rw [find?_erase] at hc
    split at hc
    · cases hc
    · exact h.fresh c o₁ hc
  · change (t.conns.erase conn).find? c = some o₁ at hc
    rw [find?_erase] at hc
    split at hc
    · cases hc
    · exact h.opened c o₁ hc

/-! ## Steps -/

/-- What the run may end with: an address in use, no port left, or a command in the wrong state. -/
def ModuleFault.Reported : ModuleFault → Prop
  | .assertion | .nullPointer => False
  | _ => True

theorem Inv.performStateTransition (h : Inv t) (ho : t.conns.find? conn = some o)
    (event : TCPEventCode) (hfsm : nextState o.active o.fsm event ≠ .init) :
    Outcome (t.performStateTransition conn event) Inv ModuleFault.Reported := by
  unfold TCPModule.performStateTransition
  rw [ho]
  dsimp only
  split
  · have hremoved := h.remove ho
    exact hremoved
  · exact h.store ho rfl rfl hfsm

theorem nextState_ne_init {s : TcpState} (active : Bool) (event : TCPEventCode) (h : s ≠ .init) :
    nextState active s event ≠ .init := by
  cases s <;> cases event <;> cases active <;> first | exact absurd rfl h | nofun

/-- A computation that keeps the invariant and after which `conn` is live. -/
def Keeps (conn : ℕ) (x : Except ModuleFault (TCPModule × TCPEventCode)) : Prop :=
  Outcome x (fun r ↦ Inv r.1 ∧ ∃ o, r.1.conns.find? conn = some o) ModuleFault.Reported

theorem Keeps.transition {x : Except ModuleFault (TCPModule × TCPEventCode)} (h : Keeps conn x) :
    Outcome (x >>= fun r ↦ r.1.performStateTransition conn r.2) Inv ModuleFault.Reported := by
  apply Outcome.bind h
  rintro ⟨t', event⟩ ⟨hinv, o, ho⟩
  exact hinv.performStateTransition ho event (nextState_ne_init _ _ (hinv.opened _ o ho))

theorem Inv.updateSockPair (h : Inv t) (ho : t.conns.find? conn = some o)
    (hport : pair.localPort = o.pair.localPort)
    (hfree : pair = o.pair ∨ t.tcpConnMap.find? pair = none) :
    t.updateSockPair conn o pair = .ok { t.store conn { o with pair } with
      tcpConnMap := (t.tcpConnMap.erase o.pair).insert pair conn } ∧
    Inv { t.store conn { o with pair } with
      tcpConnMap := (t.tcpConnMap.erase o.pair).insert pair conn } := by
  constructor
  · unfold TCPModule.updateSockPair
    rw [if_neg (by rw [h.sock.find? ho]; simp), if_neg (by rw [hport]; simp)]
    rfl
  · have hnew := @Inv.rekey t conn o { o with pair } h ho hport (h.opened _ o ho) hfree (.inl rfl)
    rw [insert_erase_self (h.app.find? ho)] at hnew
    exact hnew

/-- The fork: `conn` moves to the full pair and the new id, the clone takes its place. -/
theorem Inv.addForkedConnection (h : Inv t) (ho : t.conns.find? conn = some o)
    (hport : pair.localPort = o.pair.localPort)
    (hfree : pair = o.pair ∨ t.tcpConnMap.find? pair = none) {uniqueNumber : ℤ}
    (hunique : t.tcpAppConnMap.find? ⟨o.appKey.appGateIndex, uniqueNumber⟩ = none) :
    Outcome (t.addForkedConnection conn o pair uniqueNumber)
      (fun t' ↦ Inv t' ∧ ∃ o', t'.conns.find? conn = some o') ModuleFault.Reported := by
  let appKey : AppConnKey := ⟨o.appKey.appGateIndex, uniqueNumber⟩
  let moved : ConnObject := { o with pair, appKey }
  let clone := cloneListeningConnection o
  have hne : conn ≠ t.nextConn := (h.fresh _ o ho).ne
  have hmoved := @Inv.rekey t conn o moved h ho hport (h.opened _ o ho) hfree (.inr hunique)
  have hupdate : TCPModule.updateSockPair { t with nextConn := t.nextConn + 1 } conn o pair =
      .ok { t.store conn { o with pair } with
        tcpConnMap := (t.tcpConnMap.erase o.pair).insert pair conn
        nextConn := t.nextConn + 1 } := by
    unfold TCPModule.updateSockPair
    rw [if_neg (by rw [h.sock.find? ho]; simp), if_neg (by rw [hport]; simp)]
    rfl
  unfold TCPModule.addForkedConnection
  dsimp only
  rw [hupdate, ok_bind]
  unfold TCPModule.addSockPair
  dsimp only [TCPModule.store]
  cases hclone : ((t.tcpConnMap.erase o.pair).insert pair conn).find? clone.pair with
  | some _ => exact trivial
  | none =>
    have hkey : ((t.tcpAppConnMap.erase o.appKey).insert appKey conn).find? clone.appKey = none := by
      have hneq : o.appKey ≠ appKey := by
        intro heq
        have := h.app.find? ho
        rw [heq] at this
        rw [hunique] at this
        cases this
      show OrderedMap.find? _ o.appKey = none
      rw [find?_insert_of_ne hneq, find?_erase_self]
    have hadded := hmoved.add (o := clone) nofun hclone hkey
    -- the object at `conn` is written twice, before and after the clone
    have hconns : ((t.conns.insert conn { o with pair }).insert t.nextConn clone).insert conn moved =
        (t.conns.insert conn moved).insert t.nextConn clone := by
      apply ext_find?
      intro q
      simp only [find?_insert]
      by_cases hq : q = conn
      · subst hq
        rw [if_pos rfl, if_neg hne, if_pos rfl]
      · simp only [if_neg hq]
    refine ⟨?_, moved, find?_insert_self⟩
    rw [← hconns] at hadded
    exact hadded

/-! ## Segments -/

/-- The connection a segment belongs to. Its pair is the full one, or no connection has that. -/
theorem Inv.findConnForSegment (h : Inv t) {seg : TCPSegment} {srcAddr destAddr : ℕ}
    (hfind : t.findConnForSegment seg srcAddr destAddr = some conn) :
    ∃ o, t.conns.find? conn = some o ∧ o.pair.localPort = seg.destPort ∧
      (o.pair.localAddr ≠ 0 → o.pair.localAddr = destAddr) ∧
      (o.pair.remoteAddr ≠ 0 → o.pair.remoteAddr = srcAddr ∧ o.pair.remotePort = seg.srcPort) ∧
      (⟨destAddr, srcAddr, seg.destPort, seg.srcPort⟩ = o.pair ∨
        t.tcpConnMap.find? ⟨destAddr, srcAddr, seg.destPort, seg.srcPort⟩ = none) := by
  unfold TCPModule.findConnForSegment at hfind
  dsimp only at hfind
  cases hfull : t.tcpConnMap.find? ⟨destAddr, srcAddr, seg.destPort, seg.srcPort⟩ with
  | some c =>
    rw [hfull] at hfind
    cases hfind
    obtain ⟨o, ho, hpair⟩ := (h.sock _ _).mp hfull
    dsimp only at hpair
    exact ⟨o, ho, by rw [hpair], fun _ ↦ by rw [hpair], fun _ ↦ by rw [hpair]; exact ⟨rfl, rfl⟩,
      .inl hpair.symm⟩
  | none =>
    rw [hfull] at hfind
    simp only [Option.none_or, Option.or_eq_some_iff] at hfind
    rcases hfind with hfind | ⟨-, hfind | ⟨-, hfind⟩⟩
    all_goals
      obtain ⟨o, ho, hpair⟩ := (h.sock _ _).mp hfind
      dsimp only at hpair
      refine ⟨o, ho, by rw [hpair], ?_, ?_, .inr rfl⟩ <;> rw [hpair] <;> simp

/-- A listener or a connection in SYN_SENT whose `TCP` has found a SYN for it. -/
theorem Inv.processTCPSegment (h : Inv t) {seg : TCPSegment} {srcAddr destAddr : ℕ}
    (hfind : t.findConnForSegment seg srcAddr destAddr = some conn)
    (ho : t.conns.find? conn = some o) (reaction : Reaction) {uniqueNumber : ℤ}
    (hunique : t.tcpAppConnMap.find? ⟨o.appKey.appGateIndex, uniqueNumber⟩ = none) :
    Keeps conn (t.processTCPSegment conn o seg srcAddr destAddr reaction uniqueNumber) := by
  obtain ⟨o', ho', hport, hlocal, hremote, hfree⟩ := h.findConnForSegment hfind
  rw [ho] at ho'
  cases ho'
  have hsame : ∀ event, Keeps conn (.ok (t, event)) := fun _ ↦ ⟨h, o, ho⟩
  have hupdate := @Inv.updateSockPair t conn o ⟨destAddr, srcAddr, seg.destPort, seg.srcPort⟩ h ho
    hport.symm hfree
  have hfound : ∃ o', OrderedMap.find? (t.conns.insert conn { o with
      pair := ⟨destAddr, srcAddr, seg.destPort, seg.srcPort⟩ }) conn = some o' :=
    ⟨_, find?_insert_self⟩
  unfold TCPModule.processTCPSegment
  rw [if_neg (by rintro ⟨hne, hnot⟩; exact hnot ⟨hlocal hne, hport⟩),
    if_neg (by rintro ⟨hne, hnot⟩; exact hnot (hremote hne))]
  split
  · unfold TCPModule.processSegmentInListen
    refine Outcome.ite (fun _ ↦ hsame _) fun _ ↦ Outcome.ite (fun _ ↦ hsame _) fun _ ↦
      Outcome.ite (fun _ ↦ ?_) fun _ ↦ hsame _
    by_cases hfork : o.fork = true
    · dsimp only
      rw [if_pos hfork]
      apply (h.addForkedConnection ho hport.symm hfree hunique).bind
      intro t' ht'
      exact ht'
    · dsimp only
      rw [if_neg hfork, hupdate.1, ok_bind]
      exact ⟨hupdate.2, hfound⟩
  · unfold TCPModule.processSegmentInSynSent
    refine Outcome.ite (fun _ ↦ hsame _) fun _ ↦ Outcome.ite (fun _ ↦ hsame _) fun _ ↦
      Outcome.ite (fun _ ↦ ?_) fun _ ↦ hsame _
    rw [hupdate.1, ok_bind]
    exact ⟨hupdate.2, hfound⟩
  · exact hsame _

/-! ## Commands -/

theorem portLoop_reported (used : Multiset ℤ) (searchUntil : ℤ) (rounds : ℕ) (port : ℤ) :
    Outcome (portLoop used searchUntil rounds port) (fun _ ↦ True) ModuleFault.Reported := by
  induction rounds generalizing port with
  | zero => exact trivial
  | succ rounds ih =>
    exact Outcome.ite (fun _ ↦ Outcome.ite (fun _ ↦ trivial) fun _ ↦ ih _) fun _ ↦ trivial

/-- The module with a new connection for `key`, which has no socket pair yet. -/
def entered (t : TCPModule) (key : AppConnKey) : TCPModule :=
  { t.store t.nextConn { appKey := key } with
    nextConn := t.nextConn + 1
    tcpAppConnMap := t.tcpAppConnMap.insert key t.nextConn }

/-- The new connection gets its socket pair and leaves INIT. -/
theorem Inv.open {key : AppConnKey} (h : Inv t) (hkey : t.tcpAppConnMap.find? key = none)
    (hok : o.appKey = key) {event : TCPEventCode}
    (hinit : nextState o.active o.fsm event ≠ .init)
    (hclosed : nextState o.active o.fsm event ≠ .closed) :
    Outcome ((t.entered key).addSockPair t.nextConn o pair >>= fun t' ↦
      t'.performStateTransition t.nextConn event) Inv ModuleFault.Reported := by
  subst hok
  unfold TCPModule.addSockPair
  dsimp only [TCPModule.store, entered]
  cases hpair : t.tcpConnMap.find? pair with
  | some _ => exact trivial
  | none =>
    rw [ok_bind]
    unfold TCPModule.performStateTransition
    rw [find?_insert_self]
    dsimp only [TCPModule.store]
    rw [if_neg hclosed]
    have hadded := h.add (o := { o with pair, fsm := nextState o.active o.fsm event }) hinit hpair
      hkey
    -- the object is written three times at the same address
    have hconns : ((t.conns.insert t.nextConn { appKey := o.appKey }).insert t.nextConn
        { o with pair }).insert t.nextConn
          { o with pair, fsm := nextState o.active o.fsm event } =
        t.conns.insert t.nextConn { o with pair, fsm := nextState o.active o.fsm event } := by
      apply ext_find?
      intro q
      simp only [find?_insert]
      split <;> rfl
    rw [← hconns] at hadded
    exact hadded

/-- A port is chosen for the new connection; the tables stay. -/
theorem chooseLocalPort_entered (t : TCPModule) (key : AppConnKey) (localPort : ℤ) :
    Outcome ((t.entered key).chooseLocalPort localPort)
      (fun r ↦ ∃ last, r.2 = TCPModule.entered { t with lastEphemeralPort := last } key)
      ModuleFault.Reported := by
  refine Outcome.ite (fun _ ↦ ?_) fun _ ↦ ⟨t.lastEphemeralPort, rfl⟩
  apply (portLoop_reported _ _ _ _).bind
  intro port _
  exact ⟨port, rfl⟩

theorem Inv.newOpenActive {key : AppConnKey} (h : Inv t) (hkey : t.tcpAppConnMap.find? key = none)
    (localAddr remoteAddr : ℕ) (localPort remotePort : ℤ) :
    Outcome ((t.entered key).processOpenActive t.nextConn { appKey := key } localAddr remoteAddr
      localPort remotePort >>= fun r ↦ r.1.performStateTransition t.nextConn r.2) Inv
      ModuleFault.Reported := by
  unfold TCPModule.processOpenActive
  rw [if_neg (fun hne ↦ hne rfl)]
  by_cases hremote : remoteAddr = 0 ∨ toShort remotePort = -1
  · rw [if_pos hremote]
    exact trivial
  · rw [if_neg hremote, bind_assoc]
    apply (chooseLocalPort_entered t key (toShort localPort)).bind
    rintro ⟨port, t'⟩ ⟨last, rfl⟩
    have hlast : Inv { t with lastEphemeralPort := last } :=
      ⟨h.sock, h.app, h.ports, h.fresh, h.opened⟩
    have hopen := @Inv.open _ { appKey := key, active := true }
      ⟨localAddr, remoteAddr, port, toShort remotePort⟩ key hlast hkey rfl .openActive nofun nofun
    dsimp only
    rw [bind_assoc]
    exact hopen

theorem Inv.newOpenPassive {key : AppConnKey} (h : Inv t) (hkey : t.tcpAppConnMap.find? key = none)
    (localAddr : ℕ) (localPort : ℤ) (fork : Bool) :
    Outcome ((t.entered key).processOpenPassive t.nextConn { appKey := key } localAddr localPort
      fork >>= fun r ↦ r.1.performStateTransition t.nextConn r.2) Inv ModuleFault.Reported := by
  unfold TCPModule.processOpenPassive
  rw [if_neg (fun hne ↦ hne rfl)]
  by_cases hlocal : toShort localPort = -1
  · rw [if_pos hlocal]
    exact trivial
  · rw [if_neg hlocal, bind_assoc]
    exact @Inv.open _ { appKey := key, active := false, fork } _ key h hkey rfl .openPassive nofun
      nofun

theorem Inv.newCommand {key : AppConnKey} (h : Inv t) (hkey : t.tcpAppConnMap.find? key = none)
    (command : Command) :
    Outcome ((t.entered key).processAppCommand t.nextConn { appKey := key } command >>= fun r ↦
      r.1.performStateTransition t.nextConn r.2) Inv ModuleFault.Reported := by
  cases command with
  | openActive localAddr remoteAddr localPort remotePort =>
    exact h.newOpenActive hkey localAddr remoteAddr localPort remotePort
  | openPassive localAddr localPort fork => exact h.newOpenPassive hkey localAddr localPort fork
  | send => exact trivial
  | close deferred => exact trivial
  | abort => exact trivial
  | status => exact trivial

theorem Inv.processAppCommand (h : Inv t) (ho : t.conns.find? conn = some o) (command : Command) :
    Keeps conn (t.processAppCommand conn o command) := by
  have hsame : ∀ event, Keeps conn (.ok (t, event)) := fun _ ↦ ⟨h, o, ho⟩
  have hopened := h.opened _ o ho
  cases command with
  | openActive localAddr remoteAddr localPort remotePort =>
    unfold TCPModule.processAppCommand TCPModule.processOpenActive
    dsimp only
    rw [if_pos hopened]
    exact trivial
  | openPassive localAddr localPort fork =>
    unfold TCPModule.processAppCommand TCPModule.processOpenPassive
    dsimp only
    rw [if_pos hopened]
    exact trivial
  | send =>
    unfold TCPModule.processAppCommand TCPModule.processSend
    dsimp only
    split
    · refine Outcome.ite (fun _ ↦ trivial) fun _ ↦ ⟨?_, _, find?_insert_self⟩
      exact @Inv.store t conn o { o with active := true } h ho rfl rfl hopened
    all_goals first | exact hsame _ | exact trivial
  | close deferred =>
    unfold TCPModule.processAppCommand
    dsimp only
    split
    all_goals first | exact hsame _ | exact trivial
  | abort => exact Outcome.ite (fun _ ↦ trivial) fun _ ↦ hsame _
  | status => exact Outcome.ite (fun _ ↦ trivial) fun _ ↦ hsame _

/-- `cEnvir::getUniqueNumber` returns a number that has not been used before. -/
def UniqueNumber (t : TCPModule) : Message → Prop
  | .segment _ _ _ _ uniqueNumber => ∀ e ∈ t.tcpAppConnMap.entries, e.1.connId ≠ uniqueNumber
  | .command _ _ => True
  | .timer _ _ => True

instance (t : TCPModule) (message : Message) : Decidable (UniqueNumber t message) :=
  match message with
  | .segment _ _ _ _ uniqueNumber =>
      inferInstanceAs (Decidable (∀ e ∈ t.tcpAppConnMap.entries, e.1.connId ≠ uniqueNumber))
  | .command _ _ => .isTrue trivial
  | .timer _ _ => .isTrue trivial

theorem Inv.handleMessage (h : Inv t) (message : Message) (hunique : UniqueNumber t message) :
    Outcome (t.handleMessage message) Inv ModuleFault.Reported := by
  cases message with
  | segment seg srcAddr destAddr reaction uniqueNumber =>
    unfold TCPModule.handleMessage
    dsimp only
    cases hfind : t.findConnForSegment seg srcAddr destAddr with
    | none => exact h
    | some conn =>
      obtain ⟨o, ho, -⟩ := h.findConnForSegment hfind
      have hnone : t.tcpAppConnMap.find? ⟨o.appKey.appGateIndex, uniqueNumber⟩ = none :=
        find?_eq_none_iff.mpr fun c hc ↦ hunique _ hc rfl
      dsimp only
      rw [ho]
      exact (h.processTCPSegment hfind ho reaction hnone).transition
  | command key command =>
    unfold TCPModule.handleMessage
    dsimp only
    unfold connForCommand findConnForApp
    cases hfind : t.tcpAppConnMap.find? key with
    | some conn =>
      obtain ⟨o, ho, -⟩ := (h.app _ _).mp hfind
      dsimp only
      rw [ho]
      exact (h.processAppCommand ho command).transition
    | none =>
      have hnew := h.newCommand hfind command
      dsimp only [TCPModule.store]
      rw [find?_insert_self]
      exact hnew
  | timer conn event =>
    unfold TCPModule.handleMessage
    dsimp only
    cases ho : t.conns.find? conn with
    | none => exact h
    | some o =>
      exact h.performStateTransition ho _ (nextState_ne_init _ _ (h.opened _ o ho))

/-! ## Entries of other connections -/

theorem addSockPair_keeps (h : t.addSockPair conn o pair = .ok t') {key : SockPair} {c : ℕ}
    (hc : t.tcpConnMap.find? key = some c) : t'.tcpConnMap.find? key = some c := by
  unfold TCPModule.addSockPair at h
  dsimp only [TCPModule.store] at h
  split at h
  · cases h
  · rename_i hnone
    cases h
    have hne : key ≠ pair := by
      rintro rfl
      rw [hnone] at hc
      cases hc
    exact (find?_insert_of_ne hne).trans hc

theorem Inv.updateSockPair_keeps (h : Inv t) {seg : TCPSegment} {srcAddr destAddr : ℕ}
    (hfind : t.findConnForSegment seg srcAddr destAddr = some conn)
    (ho : t.conns.find? conn = some o)
    (hok : t.updateSockPair conn o ⟨destAddr, srcAddr, seg.destPort, seg.srcPort⟩ = .ok t')
    {key : SockPair} {c : ℕ} (hne : c ≠ conn) (hc : t.tcpConnMap.find? key = some c) :
    t'.tcpConnMap.find? key = some c := by
  obtain ⟨o', ho', hport, -, -, hfree⟩ := h.findConnForSegment hfind
  rw [ho] at ho'
  cases ho'
  rw [(h.updateSockPair ho hport.symm hfree).1] at hok
  cases hok
  have hown := h.sock.find? ho
  have hold : key ≠ o.pair := by
    rintro rfl
    rw [hown] at hc
    exact hne (Option.some.inj hc).symm
  have hnew : key ≠ ⟨destAddr, srcAddr, seg.destPort, seg.srcPort⟩ := by
    rintro rfl
    rcases hfree with heq | hnone
    · exact hold heq
    · rw [hnone] at hc
      cases hc
  exact (find?_insert_of_ne hnew).trans ((find?_erase_of_ne hold).trans hc)

/-- The entries of a connection in an index are gone once its key is erased. -/
theorem indexes_erase {κ : Type} [LinearOrder κ] {m : OrderedMap κ ℕ}
    {conns : OrderedMap ℕ ConnObject} {f : ConnObject → κ} (h : m.Indexes conns f)
    (ho : conns.find? conn = some o) (key : κ) (c : ℕ) :
    (m.erase (f o)).find? key = some c ↔ m.find? key = some c ∧ c ≠ conn := by
  rw [find?_erase]
  constructor
  · intro hc
    split at hc
    · cases hc
    · rename_i hne
      refine ⟨hc, ?_⟩
      rintro rfl
      exact hne (h.key_eq ho hc).symm
  · rintro ⟨hc, hne⟩
    rw [if_neg]
    · exact hc
    · rintro rfl
      rw [h.find? ho] at hc
      exact hne (Option.some.inj hc).symm

theorem Inv.removeConnection_ports (h : Inv t) (ho : t.conns.find? conn = some o) (port : ℤ) :
    (t.usedEphemeralPorts.count port : ℤ) =
      (t.removeConnection conn o).usedEphemeralPorts.count port +
        (if isEphemeral port ∧ o.pair.localPort = port then 1 else 0) := by
  have hbefore := h.ports port
  have hafter := (h.remove ho).ports port
  have hsum : (t.removeConnection conn o).connsOnPort port =
      t.connsOnPort port - (if o.pair.localPort = port then 1 else 0) := sum_erase _ ho
  rw [hbefore, hafter, hsum]
  by_cases heph : isEphemeral port = true
  · rw [if_pos heph, if_pos heph]
    by_cases hsame : o.pair.localPort = port
    · rw [if_pos hsame, if_pos ⟨heph, hsame⟩]
      omega
    · rw [if_neg hsame, if_neg fun hand ↦ hsame hand.2]
      omega
  · rw [if_neg heph, if_neg heph, if_neg fun hand ↦ heph hand.1]
    rfl

/-! ## Runs -/

theorem inv_start : Inv {} := by
  have hnone : ∀ conn o, ({} : TCPModule).conns.find? conn ≠ some o := by
    intro conn o hfind
    have hempty : ({} : TCPModule).conns.find? conn = none := find?_empty conn
    rw [hempty] at hfind
    cases hfind
  refine ⟨indexes_empty _, indexes_empty _, fun port ↦ ?_, ?_, ?_⟩
  · split <;> rfl
  · exact fun conn o hfind ↦ absurd hfind (hnone conn o)
  · exact fun conn o hfind ↦ absurd hfind (hnone conn o)

theorem inv_of_reachable (h : Reachable (· = {}) UniqueNumber handleMessage t) : Inv t := by
  refine (h.outcome (fun t ht ↦ ?_) fun t m hi hm ↦ hi.handleMessage m hm).1
  rw [ht]
  exact inv_start

/-- In every state of the module: a connection is stored under its own pair and no other, the ids
of `tcpAppConnMap` are those of the connection, neither `addSockPair` nor `updateSockPair` touches
the entry of another connection, the multiset counts the local ports, and `removeConnection` takes
out what belongs to the connection and nothing else. -/
theorem tables_consistent (h : Reachable (· = {}) UniqueNumber handleMessage t) :
    (∀ key conn, t.tcpConnMap.find? key = some conn →
      (∃ o, t.conns.find? conn = some o ∧ o.pair = key) ∧
        ∀ key', t.tcpConnMap.find? key' = some conn → key' = key) ∧
    (∀ conn o, t.conns.find? conn = some o →
      t.tcpConnMap.find? o.pair = some conn ∧ t.tcpAppConnMap.find? o.appKey = some conn) ∧
    (∀ key conn, t.tcpAppConnMap.find? key = some conn →
      ∃ o, t.conns.find? conn = some o ∧ o.appKey = key) ∧
    (∀ conn o pair t', t.addSockPair conn o pair = .ok t' →
      ∀ key c, t.tcpConnMap.find? key = some c → t'.tcpConnMap.find? key = some c) ∧
    (∀ seg srcAddr destAddr conn o t', t.findConnForSegment seg srcAddr destAddr = some conn →
      t.conns.find? conn = some o →
      t.updateSockPair conn o ⟨destAddr, srcAddr, seg.destPort, seg.srcPort⟩ = .ok t' →
      ∀ key c, c ≠ conn → t.tcpConnMap.find? key = some c → t'.tcpConnMap.find? key = some c) ∧
    (∀ port, isEphemeral port = true →
      (t.usedEphemeralPorts.count port : ℤ) = t.connsOnPort port) ∧
    (∀ conn o, t.conns.find? conn = some o →
      (∀ key c, (t.removeConnection conn o).tcpConnMap.find? key = some c ↔
        t.tcpConnMap.find? key = some c ∧ c ≠ conn) ∧
      (∀ key c, (t.removeConnection conn o).tcpAppConnMap.find? key = some c ↔
        t.tcpAppConnMap.find? key = some c ∧ c ≠ conn) ∧
      ∀ port, (t.usedEphemeralPorts.count port : ℤ) =
        (t.removeConnection conn o).usedEphemeralPorts.count port +
          (if isEphemeral port ∧ o.pair.localPort = port then 1 else 0)) := by
  have hinv : Inv t := inv_of_reachable h
  refine ⟨fun key conn hc ↦ ⟨(hinv.sock key conn).mp hc, fun key' hc' ↦ ?_⟩,
    fun conn o ho ↦ ⟨hinv.sock.find? ho, hinv.app.find? ho⟩,
    fun key conn hc ↦ (hinv.app key conn).mp hc,
    fun conn o pair t' hok key c hc ↦ addSockPair_keeps hok hc,
    fun seg srcAddr destAddr conn o t' hfind ho hok key c hne hc ↦
      hinv.updateSockPair_keeps hfind ho hok hne hc,
    fun port hport ↦ ?_, fun conn o ho ↦ ⟨indexes_erase hinv.sock ho, indexes_erase hinv.app ho,
      hinv.removeConnection_ports ho⟩⟩
  · obtain ⟨o, ho, rfl⟩ := (hinv.sock key conn).mp hc
    exact (hinv.sock.key_eq ho hc').symm
  · rw [hinv.ports port, if_pos hport]

/-- A listener on port 80 that forks for a SYN from `7:1024`, and an active open. -/
def sampleMessages : List Message :=
  [.command ⟨0, 1⟩ (.openPassive 0 80 true),
    .segment { srcPort := 1024, destPort := 80, synBit := true } 7 5 {} 2,
    .command ⟨0, 3⟩ (.openActive 5 9 (-1) 25)]

theorem tables_consistent_sampleMessages :
    ∃ t, run handleMessage {} sampleMessages = .ok t ∧
      t.tcpConnMap.find? ⟨5, 7, 80, 1024⟩ = some 0 ∧ t.tcpConnMap.find? ⟨0, 0, 80, -1⟩ = some 1 ∧
      (t.usedEphemeralPorts.count 1025 : ℤ) = t.connsOnPort 1025 := by
  have hreach (t : TCPModule) (hrun : run handleMessage {} sampleMessages = .ok t) :
      Reachable (· = {}) UniqueNumber handleMessage t :=
    Reachable.of_run (.start rfl) _ (by decide) hrun
  have htables (t : TCPModule) (hrun : run handleMessage {} sampleMessages = .ok t) :
      (t.usedEphemeralPorts.count 1025 : ℤ) = t.connsOnPort 1025 :=
    (tables_consistent (hreach t hrun)).2.2.2.2.2.1 1025 rfl
  exact ⟨_, rfl, by decide, by decide, htables _ rfl⟩

end Inv

end TCPModule

end InetManet.TCP
