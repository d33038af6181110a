import InetManet.TCP.Demultiplexing

/-!
# Falling back to LISTEN

A listener that has accepted a SYN and is reset, or whose CONN-ESTAB timer expires, goes back to
LISTEN, but nothing restores its socket pair: it keeps the foreign socket of the aborted handshake.
It listens as before only if that SYN had left the pair as it was.
-/

namespace InetManet.TCP

open TransitionSystem OrderedMap

namespace TCPModule

/-! ## What a message does to other connections -/

section Frame

variable {t t' t'' : TCPModule} {conn c : ℕ} {o o' : ConnObject} {pair : SockPair}

/-- Only the object at `c` and the one at the next address may differ. -/
def Touches (c : ℕ) (t t' : TCPModule) : Prop :=
  ∀ q, q ≠ c → q < t.nextConn → t'.conns.find? q = t.conns.find? q

theorem touches_performStateTransition {event : TCPEventCode}
    (h : t.performStateTransition c event = .ok t') (q : ℕ) (hq : q ≠ c) :
    t'.conns.find? q = t.conns.find? q := by
  unfold TCPModule.performStateTransition at h
  split at h
  · cases h
  · dsimp only at h
    split at h <;> cases h
    · exact find?_erase_of_ne hq
    · exact find?_insert_of_ne hq

theorem updateSockPair_conns (h : t.updateSockPair c o pair = .ok t') :
    t'.conns = t.conns.insert c { o with pair } := by
  unfold TCPModule.updateSockPair at h
  split at h
  · cases h
  · split at h
    · cases h
    · cases h
      rfl

theorem addSockPair_conns (h : t.addSockPair c o pair = .ok t') :
    t'.conns = t.conns.insert c { o with pair } := by
  unfold TCPModule.addSockPair at h
  dsimp only [TCPModule.store] at h
  split at h
  · cases h
  · cases h
    rfl

theorem addForkedConnection_conns {uniqueNumber : ℤ}
    (h : t.addForkedConnection c o pair uniqueNumber = .ok t') :
    t'.conns = ((t.conns.insert c { o with pair }).insert t.nextConn
      (cloneListeningConnection o)).insert c
        { o with pair, appKey := ⟨o.appKey.appGateIndex, uniqueNumber⟩ } := by
  unfold TCPModule.addForkedConnection at h
  obtain ⟨t₁, h₁, h⟩ := bind_ok_iff.mp h
  obtain ⟨t₂, h₂, h⟩ := bind_ok_iff.mp h
  cases h
  dsimp only [TCPModule.store]
  rw [addSockPair_conns h₂, updateSockPair_conns h₁]

section

variable {r : TCPModule × TCPEventCode}

theorem touches_processTCPSegment {seg : TCPSegment} {srcAddr destAddr : ℕ} {reaction : Reaction}
    {uniqueNumber : ℤ} (h : t.processTCPSegment c o seg srcAddr destAddr reaction uniqueNumber = .ok r) :
    Touches c t r.1 := by
  intro q hq hlt
  have hupdate {t' : TCPModule} {pair : SockPair} (h : t.updateSockPair c o pair = .ok t') :
      t'.conns.find? q = t.conns.find? q := by
    rw [updateSockPair_conns h, find?_insert_of_ne hq]
  unfold TCPModule.processTCPSegment at h
  split at h
  · cases h
  · split at h
    · cases h
    · split at h
      · unfold TCPModule.processSegmentInListen at h
        split at h
        · cases h
          rfl
        · split at h
          · cases h
            rfl
          · split at h
            · dsimp only at h
              split at h
              · obtain ⟨t₁, h₁, h⟩ := bind_ok_iff.mp h
                cases h
                rw [addForkedConnection_conns h₁, find?_insert_of_ne hq,
                  find?_insert_of_ne hlt.ne, find?_insert_of_ne hq]
              · obtain ⟨t₁, h₁, h⟩ := bind_ok_iff.mp h
                cases h
                exact hupdate h₁
            · cases h
              rfl
      · unfold TCPModule.processSegmentInSynSent at h
        split at h
        · cases h
          rfl
        · split at h
          · cases h
            rfl
          · split at h
            · obtain ⟨t₁, h₁, h⟩ := bind_ok_iff.mp h
              cases h
              exact hupdate h₁
            · cases h
              rfl
      · cases h
        rfl

theorem touches_processAppCommand {command : Command}
    (h : t.processAppCommand c o command = .ok r) (q : ℕ) (hq : q ≠ c) :
    r.1.conns.find? q = t.conns.find? q := by
  cases command with
  | openActive localAddr remoteAddr localPort remotePort =>
    unfold TCPModule.processAppCommand TCPModule.processOpenActive at h
    dsimp only at h
    split at h
    · cases h
    · split at h
      · cases h
      · obtain ⟨⟨port, t₁⟩, h₁, h⟩ := bind_ok_iff.mp h
        obtain ⟨t₂, h₂, h⟩ := bind_ok_iff.mp h
        cases h
        have hport : t₁.conns = t.conns := by
          unfold chooseLocalPort TCPModule.getEphemeralPort at h₁
          split at h₁
          · obtain ⟨p, -, h₁⟩ := bind_ok_iff.mp h₁
            cases h₁
            rfl
          · cases h₁
            rfl
        dsimp only at h₂ ⊢
        rw [addSockPair_conns h₂, find?_insert_of_ne hq, hport]
  | openPassive localAddr localPort fork =>
    unfold TCPModule.processAppCommand TCPModule.processOpenPassive at h
    dsimp only at h
    split at h
    · cases h
    · split at h
      · cases h
      · obtain ⟨t₂, h₂, h⟩ := bind_ok_iff.mp h
        cases h
        dsimp only
        rw [addSockPair_conns h₂, find?_insert_of_ne hq]
  | send =>
    unfold TCPModule.processAppCommand TCPModule.processSend at h
    dsimp only at h
    split at h
    · split at h
      · cases h
      · cases h
        exact find?_insert_of_ne hq
    all_goals cases h <;> rfl
  | close deferred =>
    unfold TCPModule.processAppCommand at h
    dsimp only at h
    split at h
    all_goals cases h <;> rfl
  | abort =>
    unfold TCPModule.processAppCommand at h
    dsimp only at h
    split at h <;> cases h
    rfl
  | status =>
    unfold TCPModule.processAppCommand at h
    dsimp only at h
    split at h <;> cases h
    rfl

theorem performStateTransition_self {event : TCPEventCode} (ho : t.conns.find? c = some o)
    (h : t.performStateTransition c event = .ok t') (ho' : t'.conns.find? c = some o') :
    o' = { o with fsm := nextState o.active o.fsm event } := by
  unfold TCPModule.performStateTransition at h
  rw [ho] at h
  dsimp only at h
  split at h <;> cases h
  · change (t.conns.erase c).find? c = some o' at ho'
    rw [find?_erase_self] at ho'
    cases ho'
  · change (t.conns.insert c _).find? c = some o' at ho'
    rw [find?_insert_self] at ho'
    cases ho'
    rfl

theorem processTCPSegment_synRcvd {seg : TCPSegment} {srcAddr destAddr : ℕ} {reaction : Reaction}
    {uniqueNumber : ℤ} (hstate : o.fsm = .synRcvd)
    (h : t.processTCPSegment c o seg srcAddr destAddr reaction uniqueNumber = .ok r) : r.1 = t := by
  unfold TCPModule.processTCPSegment at h
  rw [hstate] at h
  split at h
  · cases h
  · split at h
    · cases h
    · cases h
      rfl

theorem processAppCommand_synRcvd {command : Command}
    (hstate : o.fsm = .synRcvd) (h : t.processAppCommand c o command = .ok r) : r.1 = t := by
  cases command with
  | openActive =>
    unfold TCPModule.processAppCommand TCPModule.processOpenActive at h
    dsimp only at h
    rw [if_pos (by rw [hstate]; nofun)] at h
    cases h
  | openPassive =>
    unfold TCPModule.processAppCommand TCPModule.processOpenPassive at h
    dsimp only at h
    rw [if_pos (by rw [hstate]; nofun)] at h
    cases h
  | send =>
    unfold TCPModule.processAppCommand TCPModule.processSend at h
    rw [hstate] at h
    cases h
    rfl
  | close deferred =>
    unfold TCPModule.processAppCommand at h
    rw [hstate] at h
    cases h
    rfl
  | abort =>
    unfold TCPModule.processAppCommand at h
    rw [hstate] at h
    cases h
    rfl
  | status =>
    unfold TCPModule.processAppCommand at h
    rw [hstate] at h
    cases h
    rfl

end

/-- In SYN_RCVD a message changes nothing of the connection but the state of its FSM. -/
theorem Inv.synRcvd_frame (h : Inv t) {message : Message} (hok : t.handleMessage message = .ok t')
    (ho : t.conns.find? conn = some o) (hstate : o.fsm = .synRcvd)
    (ho' : t'.conns.find? conn = some o') : o' = { o with fsm := o'.fsm } := by
  have hlt := h.fresh conn o ho
  have hself {event : TCPEventCode} (hstep : t.performStateTransition conn event = .ok t') :
      o' = { o with fsm := o'.fsm } := by
    have hnew := performStateTransition_self ho hstep ho'
    rw [hnew]
  have hother (hsame : t'.conns.find? conn = t.conns.find? conn) : o' = { o with fsm := o'.fsm } := by
    rw [hsame, ho] at ho'
    cases ho'
    rfl
  cases message with
  | segment seg srcAddr destAddr reaction uniqueNumber =>
    unfold TCPModule.handleMessage at hok
    dsimp only at hok
    cases hfind : t.findConnForSegment seg srcAddr destAddr with
    | none =>
      rw [hfind] at hok
      cases hok
      exact hother rfl
    | some c =>
      obtain ⟨oc, hoc, -⟩ := h.findConnForSegment hfind
      rw [hfind] at hok
      dsimp only at hok
      rw [hoc] at hok
      obtain ⟨⟨t₁, event⟩, h₁, hstep⟩ := bind_ok_iff.mp hok
      by_cases hc : conn = c
      · subst hc
        rw [ho] at hoc
        cases hoc
        have hsame : t₁ = t := processTCPSegment_synRcvd hstate h₁
        subst hsame
        exact hself hstep
      · exact hother ((touches_performStateTransition hstep conn hc).trans
          (touches_processTCPSegment h₁ conn hc hlt))
  | command key command =>
    unfold TCPModule.handleMessage at hok
    dsimp only at hok
    unfold connForCommand findConnForApp at hok
    cases hfind : t.tcpAppConnMap.find? key with
    | some c =>
      obtain ⟨oc, hoc, -⟩ := (h.app _ _).mp hfind
      rw [hfind] at hok
      dsimp only at hok
      rw [hoc] at hok
      obtain ⟨⟨t₁, event⟩, h₁, hstep⟩ := bind_ok_iff.mp hok
      by_cases hc : conn = c
      · subst hc
        rw [ho] at hoc
        cases hoc
        have hsame : t₁ = t := processAppCommand_synRcvd hstate h₁
        subst hsame
        exact hself hstep
      · exact hother ((touches_performStateTransition hstep conn hc).trans
          (touches_processAppCommand h₁ conn hc))
    | none =>
      rw [hfind] at hok
      dsimp only [TCPModule.store] at hok
      rw [find?_insert_self] at hok
      obtain ⟨⟨t₁, event⟩, h₁, hstep⟩ := bind_ok_iff.mp hok
      have htouch := (touches_performStateTransition hstep conn hlt.ne).trans
        (touches_processAppCommand h₁ conn hlt.ne)
      exact hother (htouch.trans (find?_insert_of_ne hlt.ne))
  | timer c event =>
    unfold TCPModule.handleMessage at hok
    dsimp only at hok
    cases hoc : t.conns.find? c with
    | none =>
      rw [hoc] at hok
      cases hok
      exact hother rfl
    | some oc =>
      rw [hoc] at hok
      by_cases hc : conn = c
      · subst hc
        exact hself hok
      · exact hother (touches_performStateTransition hok conn hc)

/-! ## Accepting a SYN -/

def IsSyn (seg : TCPSegment) : Prop :=
  seg.rstBit = false ∧ seg.ackBit = false ∧ seg.synBit = true

/-- The state of the FSM of a connection. -/
def fsmOf (t : TCPModule) (conn : ℕ) : Option TcpState := (t.conns.find? conn).map (·.fsm)

theorem performStateTransition_stored {event : TCPEventCode} (ho : t.conns.find? c = some o)
    (hopen : nextState o.active o.fsm event ≠ .closed) :
    t.performStateTransition c event =
      .ok (t.store c { o with fsm := nextState o.active o.fsm event }) := by
  unfold TCPModule.performStateTransition
  rw [ho]
  dsimp only
  rw [if_neg hopen]

theorem Inv.handleSyn (h : Inv t) (ho : t.conns.find? conn = some o) (hlisten : o.fsm = .listen)
    {seg : TCPSegment} {srcAddr destAddr : ℕ} {reaction : Reaction} {uniqueNumber : ℤ}
    (hfind : t.findConnForSegment seg srcAddr destAddr = some conn) (hsyn : IsSyn seg) :
    t.handleMessage (.segment seg srcAddr destAddr reaction uniqueNumber) =
      (if o.fork then t.addForkedConnection conn o ⟨destAddr, srcAddr, seg.destPort, seg.srcPort⟩
          uniqueNumber
        else t.updateSockPair conn o ⟨destAddr, srcAddr, seg.destPort, seg.srcPort⟩) >>= fun t' ↦
      t'.performStateTransition conn .rcvSyn := by
  obtain ⟨o', ho', hport, hlocal, hremote, -⟩ := h.findConnForSegment hfind
  rw [ho] at ho'
  cases ho'
  obtain ⟨hrst, hack, hbit⟩ := hsyn
  unfold TCPModule.handleMessage
  dsimp only
  rw [hfind]
  dsimp only
  rw [ho]
  dsimp only
  unfold TCPModule.processTCPSegment
  rw [if_neg (by rintro ⟨hne, hnot⟩; exact hnot ⟨hlocal hne, hport⟩),
    if_neg (by rintro ⟨hne, hnot⟩; exact hnot (hremote hne)), hlisten]
  dsimp only
  unfold TCPModule.processSegmentInListen
  rw [hrst, hack, hbit, if_neg (by decide), if_neg (by decide), if_pos rfl]
  dsimp only
  split
  · rw [bind_assoc]
    rfl
  · rw [bind_assoc]
    rfl

/-- The listener takes the foreign socket of the SYN; a forking one is left without its old pair
only if that differs. -/
theorem Inv.accepted (h : Inv t) (ho : t.conns.find? conn = some o) (hlisten : o.fsm = .listen)
    {seg : TCPSegment} {srcAddr destAddr : ℕ} {reaction : Reaction} {uniqueNumber : ℤ}
    (hfind : t.findConnForSegment seg srcAddr destAddr = some conn) (hsyn : IsSyn seg)
    (hok : t.handleMessage (.segment seg srcAddr destAddr reaction uniqueNumber) = .ok t') :
    (∃ o', t'.conns.find? conn = some o' ∧ o'.fsm = .synRcvd ∧ o'.active = o.active ∧
      o'.fork = o.fork ∧ o'.pair = ⟨destAddr, srcAddr, seg.destPort, seg.srcPort⟩) ∧
    (o.fork = true → (cloneListeningConnection o).pair ≠
      ⟨destAddr, srcAddr, seg.destPort, seg.srcPort⟩) := by
  rw [h.handleSyn ho hlisten hfind hsyn] at hok
  obtain ⟨t₁, h₁, hstep⟩ := bind_ok_iff.mp hok
  have hstored {o₁ : ConnObject} (ho₁ : t₁.conns.find? conn = some o₁) (hl : o₁.fsm = .listen) :
      t'.conns.find? conn = some { o₁ with fsm := .synRcvd } := by
    have hnext : nextState o₁.active o₁.fsm .rcvSyn = .synRcvd := by
      rw [hl]
      rfl
    rw [performStateTransition_stored ho₁ (by rw [hnext]; nofun), hnext] at hstep
    cases hstep
    exact find?_insert_self
  by_cases hfork : o.fork = true
  · rw [if_pos hfork] at h₁
    constructor
    · have hconns : t₁.conns.find? conn = some { o with
          pair := ⟨destAddr, srcAddr, seg.destPort, seg.srcPort⟩
          appKey := ⟨o.appKey.appGateIndex, uniqueNumber⟩ } := by
        rw [addForkedConnection_conns h₁, find?_insert_self]
      exact ⟨_, hstored hconns hlisten, rfl, rfl, rfl, rfl⟩
    · -- the clone's pair would be in use
      intro _ heq
      unfold TCPModule.addForkedConnection at h₁
      obtain ⟨t₂, h₂, h₁⟩ := bind_ok_iff.mp h₁
      obtain ⟨t₃, h₃, -⟩ := bind_ok_iff.mp h₁
      have hused : t₂.tcpConnMap.find? (cloneListeningConnection o).pair = some conn := by
        unfold TCPModule.updateSockPair at h₂
        split at h₂
        · cases h₂
        · split at h₂
          · cases h₂
          · cases h₂
            rw [heq]
            exact find?_insert_self
      unfold TCPModule.addSockPair at h₃
      dsimp only [TCPModule.store] at h₃
      rw [hused] at h₃
      cases h₃
  · rw [if_neg hfork] at h₁
    refine ⟨?_, fun hf ↦ absurd hf hfork⟩
    have hconns : t₁.conns.find? conn = some { o with
        pair := ⟨destAddr, srcAddr, seg.destPort, seg.srcPort⟩ } := by
      rw [updateSockPair_conns h₁, find?_insert_self]
    exact ⟨_, hstored hconns hlisten, rfl, rfl, rfl, rfl⟩

/-! ## Back to LISTEN -/

/-- A run in which `conn` is in SYN_RCVD until it goes to LISTEN. -/
inductive FallsBack (conn : ℕ) : TCPModule → TCPModule → Prop
  | last {t t' : TCPModule} {message : Message} : t.fsmOf conn = some .synRcvd →
      UniqueNumber t message → t.handleMessage message = .ok t' → t'.fsmOf conn = some .listen →
      FallsBack conn t t'
  | stay {t t' t'' : TCPModule} {message : Message} : t.fsmOf conn = some .synRcvd →
      UniqueNumber t message → t.handleMessage message = .ok t' → FallsBack conn t' t'' →
      FallsBack conn t t''

theorem FallsBack.start (h : FallsBack conn t t') : t.fsmOf conn = some .synRcvd := by
  cases h with
  | last hfsm => exact hfsm
  | stay hfsm => exact hfsm

theorem FallsBack.frame (hback : FallsBack conn t t') (h : Inv t)
    (ho : t.conns.find? conn = some o) :
    Inv t' ∧ t'.conns.find? conn = some { o with fsm := .listen } := by
  induction hback generalizing o with
  | last hfsm hunique hok hlisten =>
    rename_i message
    have hstate : o.fsm = .synRcvd := by
      rw [fsmOf, ho] at hfsm
      exact Option.some.inj hfsm
    obtain ⟨o', ho', hfsm'⟩ := Option.map_eq_some_iff.mp hlisten
    have hframe := h.synRcvd_frame hok ho hstate ho'
    rw [hfsm'] at hframe
    exact ⟨(h.handleMessage message hunique).of_eq_ok hok, ho'.trans (congrArg some hframe)⟩
  | stay hfsm hunique hok hrest ih =>
    rename_i message
    have hstate : o.fsm = .synRcvd := by
      rw [fsmOf, ho] at hfsm
      exact Option.some.inj hfsm
    obtain ⟨o', ho', hfsm'⟩ := Option.map_eq_some_iff.mp hrest.start
    have hframe := h.synRcvd_frame hok ho hstate ho'
    obtain ⟨hinv, hlast⟩ := ih ((h.handleMessage message hunique).of_eq_ok hok) ho'
    refine ⟨hinv, hlast.trans ?_⟩
    rw [hframe]

/-- The connection at `conn` listens as the listener `o` did: same socket pair, found under it, and
a SYN from anywhere for which no other connection is found takes it to SYN_RCVD. -/
structure ListensAs (t : TCPModule) (conn : ℕ) (o : ConnObject) : Prop where
  object : ∃ o', t.conns.find? conn = some o' ∧ o'.fsm = .listen ∧ o'.active = o.active ∧
    o'.fork = o.fork ∧ o'.pair = o.pair
  key : t.tcpConnMap.find? o.pair = some conn
  accepts : ∀ seg srcAddr destAddr reaction uniqueNumber, IsSyn seg →
    t.findConnForSegment seg srcAddr destAddr = some conn →
    ∃ t', t.handleMessage (.segment seg srcAddr destAddr reaction uniqueNumber) = .ok t' ∧
      t'.fsmOf conn = some .synRcvd

/-- A listener without fork takes every SYN that is found for it. -/
theorem Inv.acceptsSyn (h : Inv t) (ho : t.conns.find? conn = some o) (hlisten : o.fsm = .listen)
    (hfork : o.fork = false) {seg : TCPSegment} {srcAddr destAddr : ℕ} (reaction : Reaction)
    (uniqueNumber : ℤ) (hfind : t.findConnForSegment seg srcAddr destAddr = some conn)
    (hsyn : IsSyn seg) :
    ∃ t', t.handleMessage (.segment seg srcAddr destAddr reaction uniqueNumber) = .ok t' ∧
      t'.fsmOf conn = some .synRcvd := by
  obtain ⟨o', ho', hport, -, -, hfree⟩ := h.findConnForSegment hfind
  rw [ho] at ho'
  cases ho'
  have hnext : nextState o.active o.fsm .rcvSyn = .synRcvd := by
    rw [hlisten]
    rfl
  rw [h.handleSyn ho hlisten hfind hsyn, if_neg (by rw [hfork]; decide),
    (h.updateSockPair ho hport.symm hfree).1, ok_bind,
    performStateTransition_stored (o := { o with
      pair := ⟨destAddr, srcAddr, seg.destPort, seg.srcPort⟩ }) find?_insert_self
      (by dsimp only; rw [hnext]; nofun)]
  refine ⟨_, rfl, ?_⟩
  unfold fsmOf
  dsimp only [TCPModule.store]
  rw [find?_insert_self, hnext]
  rfl

/-- After the fallback the connection listens as before if and only if the SYN it had accepted came
from the unspecified address and port to the address it was bound to. -/
theorem listensAs_iff (h : Reachable (· = {}) UniqueNumber handleMessage t)
    (ho : t.conns.find? conn = some o) (hlisten : o.fsm = .listen)
    (hblank : o.pair.remoteAddr = 0 ∧ o.pair.remotePort = -1) {seg : TCPSegment}
    {srcAddr destAddr : ℕ} {reaction : Reaction} {uniqueNumber : ℤ} (hsyn : IsSyn seg)
    (hunique : UniqueNumber t (.segment seg srcAddr destAddr reaction uniqueNumber))
    (hfind : t.findConnForSegment seg srcAddr destAddr = some conn)
    (hok : t.handleMessage (.segment seg srcAddr destAddr reaction uniqueNumber) = .ok t')
    (hback : FallsBack conn t' t'') :
    ListensAs t'' conn o ↔
      destAddr = o.pair.localAddr ∧ srcAddr = 0 ∧ seg.srcPort = -1 := by
  have hinv : Inv t := inv_of_reachable h
  obtain ⟨o₀, ho₀, hport, -⟩ := hinv.findConnForSegment hfind
  rw [ho] at ho₀
  cases ho₀
  obtain ⟨⟨o', ho', -, hactive, hforks, hpair⟩, hclone⟩ := hinv.accepted ho hlisten hfind hsyn hok
  have hinv' : Inv t' := (hinv.handleMessage _ hunique).of_eq_ok hok
  obtain ⟨hinv'', ho''⟩ := hback.frame hinv' ho'
  have heq_iff : o'.pair = o.pair ↔ destAddr = o.pair.localAddr ∧ srcAddr = 0 ∧ seg.srcPort = -1 := by
    obtain ⟨hra, hrp⟩ := hblank
    rw [hpair, SockPair.mk.injEq, hra, hrp, hport]
    simp
  constructor
  · intro hl
    obtain ⟨o₁, ho₁, -, -, -, hp⟩ := hl.object
    rw [ho''] at ho₁
    cases ho₁
    exact heq_iff.mp hp
  · intro hcond
    have hsame := heq_iff.mpr hcond
    have hfork : o.fork = false := by
      by_contra hne
      refine hclone (by simpa using hne) ?_
      rw [← hpair, hsame]
      obtain ⟨hra, hrp⟩ := hblank
      show SockPair.mk o.pair.localAddr 0 o.pair.localPort (-1) = o.pair
      rw [← hra, ← hrp]
    refine ⟨⟨_, ho'', rfl, hactive, hforks, hsame⟩, ?_,
      fun seg srcAddr destAddr reaction uniqueNumber hs hf ↦
        hinv''.acceptsSyn ho'' rfl (hforks.trans hfork) reaction uniqueNumber hf hs⟩
    rw [← hsame]
    have hkey := hinv''.sock.find? ho''
    exact hkey

/-- A SYN from port 1024 to port 80. -/
def synTo80 : TCPSegment := { srcPort := 1024, destPort := 80, synBit := true }

/-- The messages of a handshake from `7` to `5` that is not completed. -/
def abortedHandshake (localAddr : ℕ) (fork : Bool) : List Message :=
  [.command ⟨0, 1⟩ (.openPassive localAddr 80 fork), .segment synTo80 7 5 {} 2,
    .timer 0 .timeoutConnEstab]

theorem listensAs_iff_abortedHandshake :
    ∃ t, run handleMessage {} (abortedHandshake 0 false) = .ok t ∧
      (ListensAs t 0 { appKey := ⟨0, 1⟩, pair := { localPort := 80 }, fsm := .listen } ↔
        5 = 0 ∧ 7 = 0 ∧ (1024 : ℤ) = -1) := by
  have hiff (t t' t'' : TCPModule)
      (h : run handleMessage {} [.command ⟨0, 1⟩ (.openPassive 0 80 false)] = .ok t)
      (ho : t.conns.find? 0 =
        some { appKey := ⟨0, 1⟩, pair := { localPort := 80 }, fsm := .listen })
      (hunique : UniqueNumber t (.segment synTo80 7 5 {} 2))
      (hfind : t.findConnForSegment synTo80 7 5 = some 0)
      (hok : t.handleMessage (.segment synTo80 7 5 {} 2) = .ok t') (hback : FallsBack 0 t' t'') :=
    listensAs_iff (Reachable.of_run (.start rfl) _ (by decide) h) ho rfl ⟨rfl, rfl⟩
      ⟨rfl, rfl, rfl⟩ hunique hfind hok hback
  exact ⟨_, rfl, hiff _ _ _ rfl (by decide) (by decide) (by decide) rfl
    (@FallsBack.last 0 _ _ (.timer 0 .timeoutConnEstab) (by decide) trivial rfl (by decide))⟩

/-- Back in LISTEN the connection is not found for a SYN from `8`; and with `fork`, the next SYN
from `7` ends the run. -/
theorem notListening_abortedHandshake :
    (∃ t, run handleMessage {} (abortedHandshake 0 false) = .ok t ∧
      t.fsmOf 0 = some .listen ∧ t.tcpConnMap.find? ⟨0, 0, 80, -1⟩ = none ∧
      t.findConnForSegment synTo80 8 5 = none) ∧
    run handleMessage {} (abortedHandshake 5 true ++ [.segment synTo80 7 5 {} 3]) =
      .error (.addressInUse ⟨5, 0, 80, -1⟩) :=
  ⟨⟨_, rfl, by decide, by decide, by decide⟩, rfl⟩

end Frame

end TCPModule

end InetManet.TCP
