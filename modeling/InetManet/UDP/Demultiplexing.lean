import InetManet.UDP.Sockets

/-!
# Demultiplexing of UDP packets

The abstract view of the module is a table of bindings, as the applications asked for them: a packet
is meant for every binding it matches. The two socket maps agree with each other and with this table
in every run. A packet reaches exactly the bindings it matches if it comes over IPv4, no socket on
its port throws when its IPv6 address is compared, and storing the ports in a `short` does not
change which bindings match.
-/

namespace InetManet.UDP

open TransitionSystem UDPModule

/-! ## What the applications asked for -/

structure Binding where
  appGateIndex : ℤ
  sockId : ℤ
  userId : ℤ
  localAddr : IPvXAddress
  remoteAddr : IPvXAddress
  localPort : ℤ
  remotePort : ℤ
  interfaceId : ℤ
  deriving DecidableEq

/-- A packet and where it comes from. -/
structure Arrival where
  srcAddr : IPvXAddress
  destAddr : IPvXAddress
  srcPort : ℤ
  destPort : ℤ
  interfaceId : ℤ
  ttl : ℤ
  isMulticast : Bool
  payload : List (BitVec 8)

def UDPPacket.setControlInfo (udp : UDPPacket) (c : ControlInfo) : UDPPacket :=
  { udp with controlInfo := some c }

def UDPPacket.arrival (udp : UDPPacket) : ControlInfo → Arrival
  | .ip ctrl =>
      { srcAddr := .v4 ctrl.srcAddr, destAddr := .v4 ctrl.destAddr, srcPort := udp.sourcePort,
        destPort := udp.destinationPort, interfaceId := ctrl.interfaceId, ttl := ctrl.timeToLive,
        isMulticast := ctrl.destAddr.isMulticast, payload := udp.encapsulatedMsg }
  | .ipv6 ctrl =>
      { srcAddr := .ofIPv6 ctrl.srcAddr, destAddr := .ofIPv6 ctrl.destAddr,
        srcPort := udp.sourcePort, destPort := udp.destinationPort,
        interfaceId := ctrl.interfaceId, ttl := 0, isMulticast := ctrl.destAddr.isMulticast,
        payload := udp.encapsulatedMsg }

namespace Binding

def AdmitsAddr (restriction addr : IPvXAddress) : Prop :=
  restriction.isUnspecified = true ∨ restriction = addr

def AdmitsPort (restriction port : ℤ) : Prop := restriction = 0 ∨ restriction = port

def AdmitsInterface (restriction interfaceId : ℤ) : Prop :=
  restriction = -1 ∨ restriction = interfaceId

/-- The local port, and all restrictions that are set. -/
structure Matches (b : Binding) (a : Arrival) : Prop where
  localPort : b.localPort = a.destPort
  remotePort : AdmitsPort b.remotePort a.srcPort
  localAddr : AdmitsAddr b.localAddr a.destAddr
  remoteAddr : AdmitsAddr b.remoteAddr a.srcAddr
  interface : AdmitsInterface b.interfaceId a.interfaceId

/-- What the application gets of a packet. -/
def indication (b : Binding) (a : Arrival) : Indication where
  gateIndex := b.appGateIndex
  ctrl := { sockId := b.sockId, userId := b.userId, srcAddr := a.srcAddr, destAddr := a.destAddr,
            srcPort := a.srcPort, destPort := a.destPort, interfaceId := a.interfaceId,
            ttl := a.ttl }
  payload := a.payload

/-- The ports as the socket stores them. -/
def truncated (b : Binding) : Binding :=
  { b with localPort := toShort b.localPort, remotePort := toShort b.remotePort }

/-- An IPv6 address of the socket is compared with one of an IPv4 packet. -/
structure Throws (b : Binding) (a : Arrival) : Prop where
  localPort : toShort b.localPort = a.destPort
  remotePort : AdmitsPort (toShort b.remotePort) a.srcPort
  address : b.localAddr.isIPv6 = true ∨
    AdmitsAddr b.localAddr a.destAddr ∧ b.remoteAddr.isIPv6 = true

end Binding

/-- The module and the bindings it has been asked for. -/
structure Session where
  udp : UDPModule := {}
  bindings : OrderedMap ℤ Binding := .empty

/-- The table after a command; a local port `0` stands for the port that was chosen. -/
def record (udp : UDPModule) (bindings : OrderedMap ℤ Binding) : Command → OrderedMap ℤ Binding
  | .bind gateIndex ctrl =>
      bindings.insert ctrl.sockId
        { appGateIndex := gateIndex, sockId := ctrl.sockId, userId := ctrl.userId,
          localAddr := ctrl.srcAddr, remoteAddr := ctrl.destAddr,
          localPort := if ctrl.srcPort = 0 then udp.lastEphemeralPort else ctrl.srcPort,
          remotePort := ctrl.destPort, interfaceId := ctrl.interfaceId }
  | .connect ctrl =>
      match bindings.find? ctrl.sockId with
      | none => bindings
      | some b =>
          bindings.insert ctrl.sockId
            { b with remoteAddr := ctrl.destAddr, remotePort := ctrl.destPort }
  | .unbind ctrl => bindings.erase ctrl.sockId

def Session.step (s : Session) (c : Command) : Except Fault Session := do
  let udp ← s.udp.processCommandFromApp c
  return { udp, bindings := record udp s.bindings c }

/-- Ports are `0` or in 1..65535. -/
def PortsInRange : Command → Prop
  | .bind _ ctrl => (0 ≤ ctrl.srcPort ∧ ctrl.srcPort ≤ 65535) ∧ 0 ≤ ctrl.destPort ∧
      ctrl.destPort ≤ 65535
  | .connect _ => True
  | .unbind _ => True

instance : DecidablePred PortsInRange
  | .bind _ _ => inferInstanceAs (Decidable ((_ ∧ _) ∧ _ ∧ _))
  | .connect _ => inferInstanceAs (Decidable True)
  | .unbind _ => inferInstanceAs (Decidable True)

/-- The states of all runs. -/
def Session.Reaches : Session → Prop :=
  Reachable (fun s ↦ s = {}) (fun _ c ↦ PortsInRange c) Session.step

/-- The packet goes once to every binding it matches and to no other, and is answered by an error if
and only if there is none. A packet with a bit error is discarded. -/
def Session.Demultiplexes (s : Session) (udp : UDPPacket) (c : ControlInfo) : Prop :=
  if udp.hasBitError then s.udp.processUDPPacket (udp.setControlInfo c) = .ok {}
  else ∃ out, s.udp.processUDPPacket (udp.setControlInfo c) = .ok out ∧
    (out.sentUp.map fun i ↦ i.ctrl.sockId).Nodup ∧
    (∀ i, i ∈ out.sentUp ↔ ∃ sockId b, s.bindings.find? sockId = some b ∧
      b.Matches (udp.arrival c) ∧ i = b.indication (udp.arrival c)) ∧
    (out.icmpError = true ↔ (udp.arrival c).isMulticast = false ∧
      ∀ sockId b, s.bindings.find? sockId = some b → ¬ b.Matches (udp.arrival c))

/-- What the code needs to deliver a packet. -/
structure Session.Deliverable (s : Session) (udp : UDPPacket) (c : ControlInfo) : Prop where
  ipv4 : ∃ ctrl, c = .ip ctrl
  ports : ∀ sockId b, s.bindings.find? sockId = some b →
    (b.truncated.Matches (udp.arrival c) ↔ b.Matches (udp.arrival c))
  addresses : ∀ sockId b, s.bindings.find? sockId = some b → ¬ b.Throws (udp.arrival c)

/-! ## Ports in a `short` -/

theorem toShort_of_lt {port : ℤ} (h : 0 ≤ port) (h' : port < 32768) : toShort port = port := by
  unfold toShort
  rw [BitVec.toInt_ofInt, Int.bmod_def]
  split <;> omega

theorem toShort_eq_iff {port q : ℤ} (h : 0 ≤ port) (h' : port ≤ 65535) (hq : 0 ≤ q) :
    toShort port = q ↔ port = q ∧ port < 32768 := by
  unfold toShort
  rw [BitVec.toInt_ofInt, Int.bmod_def]
  split <;> omega

/-- For packets whose ports are not negative, ports below 32768 are all that is needed. -/
theorem truncated_matches_iff {b : Binding} {a : Arrival}
    (hl : 0 ≤ b.localPort ∧ b.localPort ≤ 65535) (hr : 0 ≤ b.remotePort ∧ b.remotePort ≤ 65535)
    (hdest : 0 ≤ a.destPort) (hsrc : 0 ≤ a.srcPort) :
    b.truncated.Matches a ↔ b.Matches a ∧ b.localPort < 32768 ∧ b.remotePort < 32768 := by
  have hlocal := toShort_eq_iff hl.1 hl.2 hdest
  have hzero := toShort_eq_iff hr.1 hr.2 (le_refl 0)
  have hremote := toShort_eq_iff hr.1 hr.2 hsrc
  constructor
  · intro h
    obtain ⟨hlp, hlt⟩ := hlocal.mp h.localPort
    have hrp : Binding.AdmitsPort b.remotePort a.srcPort ∧ b.remotePort < 32768 := by
      rcases h.remotePort with h0 | h0
      · exact ⟨.inl (hzero.mp h0).1, (hzero.mp h0).2⟩
      · exact ⟨.inr (hremote.mp h0).1, (hremote.mp h0).2⟩
    exact ⟨⟨hlp, hrp.1, h.localAddr, h.remoteAddr, h.interface⟩, hlt, hrp.2⟩
  · rintro ⟨h, hlt, hrlt⟩
    have hrp : Binding.AdmitsPort (toShort b.remotePort) a.srcPort := by
      rcases h.remotePort with h0 | h0
      · exact .inl (hzero.mpr ⟨h0, hrlt⟩)
      · exact .inr (hremote.mpr ⟨h0, hrlt⟩)
    exact ⟨hlocal.mpr ⟨h.localPort, hlt⟩, hrp, h.localAddr, h.remoteAddr, h.interface⟩

/-! ## The socket maps -/

/-- Every socket is stored under its id and exactly once in the list of its local port. -/
structure Coherent (u : UDPModule) : Prop where
  ids : u.socketsByIdMap.Indexes u.socks SockDesc.sockId
  ports : u.socketsByPortMap.Buckets u.socks SockDesc.localPort

/-- The socket of a binding. -/
structure SockDesc.Describes (sd : SockDesc) (b : Binding) : Prop where
  sockId : sd.sockId = b.sockId
  userId : sd.userId = b.userId
  appGateIndex : sd.appGateIndex = b.appGateIndex
  localAddr : sd.localAddr = b.localAddr
  remoteAddr : sd.remoteAddr = b.remoteAddr
  localPort : sd.localPort = toShort b.localPort
  remotePort : sd.remotePort = toShort b.remotePort
  interfaceId : sd.interfaceId = b.interfaceId
  unrestricted : sd.onlyLocalPortIsSet = true → sd.localAddr.isUnspecified = true ∧
    sd.remoteAddr.isUnspecified = true ∧ sd.remotePort = 0 ∧ sd.interfaceId = -1

/-- The module keeps one socket for each binding. -/
structure Session.Represents (s : Session) : Prop extends Coherent s.udp where
  fresh : ∀ k, s.udp.nextSock ≤ k → s.udp.socks.find? k = none
  port : ephemeralPortrangeStart ≤ s.udp.lastEphemeralPort ∧
    s.udp.lastEphemeralPort < ephemeralPortrangeEnd
  described : ∀ k sd, s.udp.socks.find? k = some sd →
    ∃ b, s.bindings.find? sd.sockId = some b ∧ sd.Describes b
  bound : ∀ sockId b, s.bindings.find? sockId = some b →
    ∃ k sd, s.udp.socks.find? k = some sd ∧ sd.sockId = sockId

theorem Session.Represents.socket {s : Session} (h : s.Represents) {sockId : ℤ} {b : Binding}
    (hb : s.bindings.find? sockId = some b) :
    ∃ k sd, s.udp.socks.find? k = some sd ∧ sd.sockId = sockId ∧ sd.Describes b := by
  obtain ⟨k, sd, hk, hid⟩ := h.bound sockId b hb
  obtain ⟨b', hb', hd⟩ := h.described k sd hk
  rw [hid, hb] at hb'
  cases hb'
  exact ⟨k, sd, hk, hid, hd⟩

theorem Session.Represents.sockId_eq {s : Session} (h : s.Represents) {sockId : ℤ} {b : Binding}
    (hb : s.bindings.find? sockId = some b) : b.sockId = sockId := by
  obtain ⟨k, sd, _, hid, hd⟩ := h.socket hb
  exact hd.sockId.symm.trans hid

theorem represents_start : ({} : Session).Represents where
  ids := OrderedMap.indexes_empty _
  ports := OrderedMap.buckets_empty _
  fresh _ _ := rfl
  port := by decide
  described _ _ := nofun
  bound _ _ := nofun

theorem nextPort_mem {port : ℤ} (h : ephemeralPortrangeStart ≤ port ∧ port < ephemeralPortrangeEnd) :
    ephemeralPortrangeStart ≤ nextPort port ∧ nextPort port < ephemeralPortrangeEnd := by
  unfold nextPort
  unfold ephemeralPortrangeStart ephemeralPortrangeEnd at *
  split <;> omega

theorem portLoop_mem {ports : OrderedMap ℤ (List ℕ)} {searchUntil port port' : ℤ} {rounds : ℕ}
    (h : ephemeralPortrangeStart ≤ port ∧ port < ephemeralPortrangeEnd)
    (hloop : portLoop ports searchUntil rounds port = .ok port') :
    ephemeralPortrangeStart ≤ port' ∧ port' < ephemeralPortrangeEnd := by
  induction rounds generalizing port with
  | zero => cases hloop
  | succ rounds ih =>
    unfold portLoop at hloop
    split at hloop
    · split at hloop
      · cases hloop
      · exact ih (nextPort_mem h) hloop
    · cases hloop
      exact h

theorem bind_ok {u u' : UDPModule} {gateIndex : ℤ} {ctrl : UDPControlInfo}
    (h : u.bind gateIndex ctrl = .ok u') :
    ∃ port last, u.socketsByIdMap.find? ctrl.sockId = none ∧
      u' = { u with lastEphemeralPort := last }.addSocket
        { newSockDesc gateIndex ctrl with localPort := port } ∧
      (toShort ctrl.srcPort ≠ 0 ∧ port = toShort ctrl.srcPort ∧ last = u.lastEphemeralPort ∨
        toShort ctrl.srcPort = 0 ∧ port = last ∧
          (ephemeralPortrangeStart ≤ u.lastEphemeralPort ∧
              u.lastEphemeralPort < ephemeralPortrangeEnd →
            ephemeralPortrangeStart ≤ port ∧ port < ephemeralPortrangeEnd)) := by
  unfold UDPModule.bind at h
  obtain ⟨_, _, h⟩ := bind_ok_iff.mp h
  obtain ⟨⟨port, u₁⟩, hport, h⟩ := bind_ok_iff.mp h
  obtain ⟨_, hfresh, h⟩ := bind_ok_iff.mp h
  have hnone : u₁.socketsByIdMap.find? ctrl.sockId = none := by
    rw [check_eq_ok] at hfresh
    exact Option.isNone_iff_eq_none.mp (hfresh rfl)
  cases h
  unfold choosePort at hport
  split at hport <;> rename_i hzero
  · unfold getEphemeralPort at hport
    obtain ⟨p, hp, hpair⟩ := bind_ok_iff.mp hport
    cases hpair
    exact ⟨port, port, hnone, rfl, .inr ⟨hzero, rfl, fun hlast ↦
      portLoop_mem (nextPort_mem hlast) hp⟩⟩
  · cases hport
    exact ⟨_, u.lastEphemeralPort, hnone, rfl, .inl ⟨hzero, rfl, rfl⟩⟩

theorem findSocket_ok {u : UDPModule} {sockId : ℤ} {k : ℕ} {sd : SockDesc}
    (h : u.findSocket sockId = .ok (k, sd)) :
    u.socketsByIdMap.find? sockId = some k ∧ u.socks.find? k = some sd := by
  unfold findSocket at h
  split at h
  · cases h
  · rename_i k' hk
    split at h
    · cases h
    · rename_i sd' hsd
      cases h
      exact ⟨hk, hsd⟩

section Commands

variable {s : Session} {u' : UDPModule} {ctrl : UDPControlInfo}

theorem newSockDesc_describes {gateIndex port asked : ℤ} (hport : port = toShort asked) :
    SockDesc.Describes { newSockDesc gateIndex ctrl with localPort := port }
      { appGateIndex := gateIndex, sockId := ctrl.sockId, userId := ctrl.userId,
        localAddr := ctrl.srcAddr, remoteAddr := ctrl.destAddr, localPort := asked,
        remotePort := ctrl.destPort, interfaceId := ctrl.interfaceId } where
  sockId := rfl
  userId := rfl
  appGateIndex := rfl
  localAddr := rfl
  remoteAddr := rfl
  localPort := hport
  remotePort := rfl
  interfaceId := rfl
  unrestricted := by
    intro honly
    simp only [newSockDesc, Bool.and_eq_true, beq_iff_eq] at honly ⊢
    exact ⟨honly.1.1.1, honly.1.1.2, honly.1.2, honly.2⟩

theorem Session.Represents.add (h : s.Represents) {sd : SockDesc} {b : Binding} {last : ℤ}
    (hd : sd.Describes b) (hnone : s.udp.socketsByIdMap.find? sd.sockId = none)
    (hlast : ephemeralPortrangeStart ≤ last ∧ last < ephemeralPortrangeEnd) :
    Session.Represents
      { udp := { s.udp with lastEphemeralPort := last }.addSocket sd,
        bindings := s.bindings.insert sd.sockId b } where
  ids := h.ids.add (h.fresh _ (le_refl _)) hnone
  ports := h.ports.add (h.fresh _ (le_refl _))
  fresh k hk := by
    change (s.udp.socks.insert s.udp.nextSock sd).find? k = none
    replace hk : s.udp.nextSock + 1 ≤ k := hk
    rw [OrderedMap.find?_insert_of_ne (by omega)]
    exact h.fresh k (by omega)
  port := hlast
  described k sd' hk := by
    replace hk : (s.udp.socks.insert s.udp.nextSock sd).find? k = some sd' := hk
    rw [OrderedMap.find?_insert] at hk
    split at hk
    · cases hk
      exact ⟨b, OrderedMap.find?_insert_self, hd⟩
    · obtain ⟨b', hb', hd'⟩ := h.described k sd' hk
      have hne : sd'.sockId ≠ sd.sockId := by
        intro heq
        have hfind := h.ids.find? hk
        rw [heq, hnone] at hfind
        cases hfind
      exact ⟨b', by rw [OrderedMap.find?_insert_of_ne hne]; exact hb', hd'⟩
  bound sockId b' hb' := by
    replace hb' : (s.bindings.insert sd.sockId b).find? sockId = some b' := hb'
    rw [OrderedMap.find?_insert] at hb'
    split at hb' <;> rename_i hid
    · exact ⟨s.udp.nextSock, sd, OrderedMap.find?_insert_self, hid.symm⟩
    · obtain ⟨k, sd', hk, hid'⟩ := h.bound sockId b' hb'
      have hne : k ≠ s.udp.nextSock := by
        intro heq
        rw [heq, h.fresh _ (le_refl _)] at hk
        cases hk
      refine ⟨k, sd', ?_, hid'⟩
      change (s.udp.socks.insert s.udp.nextSock sd).find? k = some sd'
      rw [OrderedMap.find?_insert_of_ne hne]
      exact hk

theorem Session.Represents.bind (h : s.Represents) {gateIndex : ℤ}
    (hrange : PortsInRange (.bind gateIndex ctrl)) (hstep : s.udp.bind gateIndex ctrl = .ok u') :
    Session.Represents ⟨u', record u' s.bindings (.bind gateIndex ctrl)⟩ := by
  obtain ⟨port, last, hnone, rfl, hport⟩ := bind_ok hstep
  have hzero : toShort ctrl.srcPort = 0 ↔ ctrl.srcPort = 0 := by
    rw [toShort_eq_iff hrange.1.1 hrange.1.2 (le_refl 0)]
    omega
  have hport' : port = toShort (if ctrl.srcPort = 0 then last else ctrl.srcPort) ∧
      ephemeralPortrangeStart ≤ last ∧ last < ephemeralPortrangeEnd := by
    rcases hport with ⟨hne, hp, hl⟩ | ⟨heq, hp, hmem⟩
    · rw [if_neg (fun h0 ↦ hne (hzero.mpr h0)), hl]
      exact ⟨hp, h.port⟩
    · have hin := hmem h.port
      rw [hp] at hin
      have hshort : toShort last = last := by
        unfold ephemeralPortrangeStart ephemeralPortrangeEnd at hin
        exact toShort_of_lt (by omega) (by omega)
      rw [if_pos (hzero.mp heq), hshort]
      exact ⟨hp, hin⟩
  exact h.add (newSockDesc_describes hport'.1) hnone hport'.2

/-- The socket and its binding change, but neither the id nor the local port. -/
theorem Session.Represents.update (h : s.Represents) {k : ℕ} {sd sd' : SockDesc} {b : Binding}
    (hk : s.udp.socks.find? k = some sd) (hd : sd'.Describes b) (hid : sd'.sockId = sd.sockId)
    (hport : sd'.localPort = sd.localPort) :
    Session.Represents
      { udp := { s.udp with socks := s.udp.socks.insert k sd' },
        bindings := s.bindings.insert sd.sockId b } where
  ids := h.ids.update hk hid
  ports := h.ports.update hk hport
  fresh q hq := by
    change (s.udp.socks.insert k sd').find? q = none
    have hne : q ≠ k := by
      rintro rfl
      rw [h.fresh q hq] at hk
      cases hk
    rw [OrderedMap.find?_insert_of_ne hne]
    exact h.fresh q hq
  port := h.port
  described q sd₁ hq := by
    replace hq : (s.udp.socks.insert k sd').find? q = some sd₁ := hq
    rw [OrderedMap.find?_insert] at hq
    split at hq <;> rename_i hqk
    · cases hq
      exact ⟨b, by rw [hid]; exact OrderedMap.find?_insert_self, hd⟩
    · obtain ⟨b', hb', hd'⟩ := h.described q sd₁ hq
      have hne : sd₁.sockId ≠ sd.sockId := by
        intro heq
        have hq' := h.ids.find? hq
        rw [heq, h.ids.find? hk] at hq'
        exact hqk (Option.some.inj hq').symm
      exact ⟨b', by rw [OrderedMap.find?_insert_of_ne hne]; exact hb', hd'⟩
  bound sockId b' hb' := by
    replace hb' : (s.bindings.insert sd.sockId b).find? sockId = some b' := hb'
    rw [OrderedMap.find?_insert] at hb'
    have hold : ∃ q sd₁, s.udp.socks.find? q = some sd₁ ∧ sd₁.sockId = sockId := by
      split at hb' <;> rename_i hs
      · exact ⟨k, sd, hk, hs.symm⟩
      · exact h.bound sockId b' hb'
    obtain ⟨q, sd₁, hq, hid₁⟩ := hold
    by_cases hqk : q = k
    · subst hqk
      rw [hk] at hq
      cases hq
      exact ⟨q, sd', OrderedMap.find?_insert_self, hid.trans hid₁⟩
    · refine ⟨q, sd₁, ?_, hid₁⟩
      change (s.udp.socks.insert k sd').find? q = some sd₁
      rw [OrderedMap.find?_insert_of_ne hqk]
      exact hq

theorem Session.Represents.connect (h : s.Represents)
    (hstep : s.udp.connect ctrl.sockId ctrl.destAddr ctrl.destPort = .ok u') :
    Session.Represents ⟨u', record u' s.bindings (.connect ctrl)⟩ := by
  unfold UDPModule.connect at hstep
  obtain ⟨⟨k, sd⟩, hfind, hstep⟩ := bind_ok_iff.mp hstep
  obtain ⟨_, _, hstep⟩ := bind_ok_iff.mp hstep
  obtain ⟨_, _, hstep⟩ := bind_ok_iff.mp hstep
  cases hstep
  obtain ⟨hid, hk⟩ := findSocket_ok hfind
  have hsock : sd.sockId = ctrl.sockId := h.ids.key_eq hk hid
  obtain ⟨b, hb, hd⟩ := h.described k sd hk
  have hnew : SockDesc.Describes
      { sd with remoteAddr := ctrl.destAddr, remotePort := toShort ctrl.destPort,
                onlyLocalPortIsSet := false }
      { b with remoteAddr := ctrl.destAddr, remotePort := ctrl.destPort } :=
    { hd with remoteAddr := rfl, remotePort := rfl, unrestricted := nofun }
  have hupdate := h.update hk hnew rfl rfl
  rw [hsock] at hb
  have hrecord : ∀ u, record u s.bindings (.connect ctrl) = s.bindings.insert sd.sockId
      { b with remoteAddr := ctrl.destAddr, remotePort := ctrl.destPort } := by
    intro u
    simp only [record, hb, hsock]
  rw [hrecord]
  exact hupdate

theorem Session.Represents.unbind (h : s.Represents)
    (hstep : s.udp.unbind ctrl.sockId = .ok u') :
    Session.Represents ⟨u', record u' s.bindings (.unbind ctrl)⟩ := by
  unfold UDPModule.unbind at hstep
  obtain ⟨⟨k, sd⟩, hfind, hstep⟩ := bind_ok_iff.mp hstep
  cases hstep
  obtain ⟨hid, hk⟩ := findSocket_ok hfind
  have hsock : sd.sockId = ctrl.sockId := h.ids.key_eq hk hid
  have hids := h.ids.remove hk
  rw [hsock] at hids
  refine ⟨⟨hids, h.ports.remove hk⟩, fun q hq ↦ ?_, h.port, fun q sd₁ hq ↦ ?_,
    fun sockId b hb ↦ ?_⟩
  · change (s.udp.socks.erase k).find? q = none
    rw [OrderedMap.find?_erase]
    split
    · rfl
    · exact h.fresh q hq
  · replace hq : (s.udp.socks.erase k).find? q = some sd₁ := hq
    rw [OrderedMap.find?_erase] at hq
    split at hq <;> rename_i hqk
    · cases hq
    · obtain ⟨b, hb, hd⟩ := h.described q sd₁ hq
      have hne : sd₁.sockId ≠ ctrl.sockId := by
        intro heq
        have hq' := h.ids.find? hq
        rw [heq, hid] at hq'
        exact hqk (Option.some.inj hq').symm
      refine ⟨b, ?_, hd⟩
      change (s.bindings.erase ctrl.sockId).find? sd₁.sockId = some b
      rw [OrderedMap.find?_erase_of_ne hne]
      exact hb
  · replace hb : (s.bindings.erase ctrl.sockId).find? sockId = some b := hb
    rw [OrderedMap.find?_erase] at hb
    split at hb <;> rename_i hs
    · cases hb
    · obtain ⟨q, sd₁, hq, hid₁⟩ := h.bound sockId b hb
      refine ⟨q, sd₁, ?_, hid₁⟩
      have hne : q ≠ k := by
        rintro rfl
        rw [hk] at hq
        cases hq
        exact hs (hid₁.symm.trans hsock)
      change (s.udp.socks.erase k).find? q = some sd₁
      rw [OrderedMap.find?_erase_of_ne hne]
      exact hq

theorem Session.Represents.step (h : s.Represents) {c : Command} (hrange : PortsInRange c)
    {s' : Session} (hstep : s.step c = .ok s') : s'.Represents := by
  unfold Session.step at hstep
  obtain ⟨u', hu', hs'⟩ := bind_ok_iff.mp hstep
  cases hs'
  cases c with
  | bind gateIndex ctrl => exact h.bind hrange hu'
  | connect ctrl => exact h.connect hu'
  | unbind ctrl => exact h.unbind hu'

theorem Session.Reaches.represents (h : s.Reaches) : s.Represents := by
  apply Reachable.invariant _ _ h
  · rintro _ rfl
    exact represents_start
  · intro s c s' hs hrange hstep
    exact hs.step hrange hstep

end Commands

/-! ## Delivery -/

section Delivery

variable {u : UDPModule} {matchesSocket : SockDesc → Except Fault Bool}
  {sendUp : SockDesc → Indication}

/-- The answer is yes. -/
def isYes : Except Fault Bool → Bool
  | .ok a => a
  | .error _ => false

theorem isYes_iff {x : Except Fault Bool} : isYes x = true ↔ x = .ok true := by
  cases x with
  | error e => simp [isYes]
  | ok a => simp [isYes]

/-- The socket at `k`, if it accepts the packet. -/
def selected (u : UDPModule) (matchesSocket : SockDesc → Except Fault Bool) (k : ℕ) :
    Option SockDesc :=
  (u.socks.find? k).filter fun sd ↦ isYes (accepts matchesSocket sd)

theorem selected_eq_some {k : ℕ} {sd : SockDesc} :
    selected u matchesSocket k = some sd ↔
      u.socks.find? k = some sd ∧ accepts matchesSocket sd = .ok true := by
  rw [selected, Option.filter_eq_some_iff, isYes_iff]

/-- The loop sends a copy to the selected sockets, provided that no comparison throws. -/
theorem deliver_ok_iff {list : List ℕ} {out : List Indication} :
    u.deliver matchesSocket sendUp list = .ok out ↔
      (∀ k ∈ list, ∃ sd a, u.socks.find? k = some sd ∧ accepts matchesSocket sd = .ok a) ∧
        out = (list.filterMap (selected u matchesSocket)).map sendUp := by
  induction list generalizing out with
  | nil => simp [deliver, eq_comm]
  | cons k list ih =>
    unfold deliver
    cases hk : u.socks.find? k with
    | none => simp [hk]
    | some sd =>
      cases ha : accepts matchesSocket sd with
      | error e => simp [hk, ha]
      | ok a =>
        simp only [ok_bind, List.forall_mem_cons, hk, List.filterMap_cons, selected,
          Option.filter_some, ha, isYes]
        rw [bind_ok_iff]
        constructor
        · rintro ⟨rest, hrest, hout⟩
          obtain ⟨hall, rfl⟩ := ih.mp hrest
          refine ⟨⟨⟨sd, a, rfl, ha⟩, hall⟩, ?_⟩
          cases hout
          cases a with
          | false => rfl
          | true => rfl
        · rintro ⟨⟨_, hall⟩, rfl⟩
          refine ⟨_, ih.mpr ⟨hall, rfl⟩, ?_⟩
          cases a with
          | false => rfl
          | true => rfl

theorem processUDPPacket_ip (udp : UDPPacket) (ctrl : IPControlInfo)
    (hbit : udp.hasBitError = false) :
    u.processUDPPacket (udp.setControlInfo (.ip ctrl)) =
      (do
        let sentUp ← u.deliver (matchesSocket4 · { udp with controlInfo := none } ctrl)
          (sendUp4 { udp with controlInfo := none } ctrl)
          (u.socketsByPortMap.bucket udp.destinationPort)
        return { sentUp, icmpError := sentUp.isEmpty && !ctrl.destAddr.isMulticast }) := by
  unfold processUDPPacket OrderedMap.bucket
  simp only [UDPPacket.setControlInfo, UDPPacket.removeControlInfo, hbit, Bool.false_eq_true,
    if_false]
  cases hfind : u.socketsByPortMap.find? udp.destinationPort with
  | none => rfl
  | some list =>
    simp only [asIPControlInfo, Option.getD_some]
    congr 1
    funext sentUp
    cases sentUp with
    | nil => rfl
    | cons i sentUp => rfl

/-- A packet that comes over IPv6 always ends in an error. -/
theorem processUDPPacket_ipv6 (udp : UDPPacket) (ctrl : IPv6ControlInfo)
    (hbit : udp.hasBitError = false) :
    u.processUDPPacket (udp.setControlInfo (.ipv6 ctrl)) = .error .noControlInfo := by
  unfold processUDPPacket
  simp only [UDPPacket.setControlInfo, UDPPacket.removeControlInfo, hbit, Bool.false_eq_true,
    if_false]
  cases u.socketsByPortMap.find? udp.destinationPort with
  | none => rfl
  | some list => rfl

theorem admitsAddr_get4 (addr : IPvXAddress) (a : IPAddress) :
    admitsAddr get4 addr a =
      if addr.isIPv6 then .error (.notAnIPv4Address addr)
      else .ok (addr.isUnspecified || addr == .v4 a) := by
  cases addr with
  | v4 x =>
    unfold admitsAddr
    by_cases hx : (IPvXAddress.v4 x).isUnspecified = true
    · simp [hx, IPvXAddress.isIPv6]
    · simp [hx, IPvXAddress.isIPv6, get4, IPvXAddress.get4, beq_eq_decide]
  | v6 x h => rfl

variable {sd : SockDesc} {b : Binding} {udp : UDPPacket} {ctrl : IPControlInfo}

theorem matchesSocket4_eq :
    matchesSocket4 sd udp ctrl =
      if sd.remotePort ≠ 0 ∧ sd.remotePort ≠ udp.sourcePort then .ok false
      else if sd.localAddr.isIPv6 then .error (.notAnIPv4Address sd.localAddr)
      else if !(sd.localAddr.isUnspecified || sd.localAddr == .v4 ctrl.destAddr) then .ok false
      else if sd.remoteAddr.isIPv6 then .error (.notAnIPv4Address sd.remoteAddr)
      else .ok ((sd.remoteAddr.isUnspecified || sd.remoteAddr == .v4 ctrl.srcAddr) &&
        (sd.interfaceId == -1 || sd.interfaceId == ctrl.interfaceId)) := by
  unfold matchesSocket4 matchesSocketOn
  rw [admitsAddr_get4, admitsAddr_get4]
  by_cases hport : sd.remotePort ≠ 0 ∧ sd.remotePort ≠ udp.sourcePort
  · rw [if_pos hport, if_pos hport]
    rfl
  rw [if_neg hport, if_neg hport]
  by_cases hl : sd.localAddr.isIPv6 = true
  · rw [if_pos hl, if_pos hl]
    rfl
  rw [if_neg hl, if_neg hl, ok_bind]
  cases hla : sd.localAddr.isUnspecified || sd.localAddr == .v4 ctrl.destAddr with
  | false => rfl
  | true =>
    by_cases hr : sd.remoteAddr.isIPv6 = true
    · rw [if_pos hr, if_pos hr]
      rfl
    rw [if_neg hr, if_neg hr, ok_bind]
    cases hra : sd.remoteAddr.isUnspecified || sd.remoteAddr == .v4 ctrl.srcAddr with
    | false => rfl
    | true =>
      by_cases hi : sd.interfaceId = -1
      · simp [hi, pure, Except.pure]
      · by_cases hi' : sd.interfaceId = ctrl.interfaceId
        · simp [hi', pure, Except.pure]
        · simp [hi, hi', pure, Except.pure]

theorem isUnspecified_not_isIPv6 {addr : IPvXAddress} (h : addr.isUnspecified = true) :
    addr.isIPv6 = false := by
  rw [IPvXAddress.isUnspecified_iff.mp h]
  rfl

theorem admitsAddr_iff {restriction addr : IPvXAddress} :
    (restriction.isUnspecified || restriction == addr) = true ↔
      Binding.AdmitsAddr restriction addr := by
  rw [Bool.or_eq_true, beq_iff_eq]
  rfl

theorem admitsInterface_iff {restriction interfaceId : ℤ} :
    (restriction == -1 || restriction == interfaceId) = true ↔
      Binding.AdmitsInterface restriction interfaceId := by
  rw [Bool.or_eq_true, beq_iff_eq, beq_iff_eq]
  rfl

/-- The comparison succeeds if no IPv6 address gets in the way, and then tells whether the binding
matches with its ports as they are stored. -/
theorem accepts_ok_iff (hd : sd.Describes b)
    (hport : toShort b.localPort = (udp.arrival (.ip ctrl)).destPort) {a : Bool} :
    accepts (matchesSocket4 · udp ctrl) sd = .ok a ↔
      ¬ b.Throws (udp.arrival (.ip ctrl)) ∧
        (a = true ↔ b.truncated.Matches (udp.arrival (.ip ctrl))) := by
  have hremote : Binding.AdmitsPort (toShort b.remotePort) udp.sourcePort ↔
      ¬ (sd.remotePort ≠ 0 ∧ sd.remotePort ≠ udp.sourcePort) := by
    rw [Binding.AdmitsPort, hd.remotePort, not_and_or, not_not, not_not]
  have hmatches : b.truncated.Matches (udp.arrival (.ip ctrl)) ↔
      ¬ (sd.remotePort ≠ 0 ∧ sd.remotePort ≠ udp.sourcePort) ∧
        Binding.AdmitsAddr sd.localAddr (.v4 ctrl.destAddr) ∧
          Binding.AdmitsAddr sd.remoteAddr (.v4 ctrl.srcAddr) ∧
            Binding.AdmitsInterface sd.interfaceId ctrl.interfaceId := by
    rw [← hremote, hd.localAddr, hd.remoteAddr, hd.interfaceId]
    exact ⟨fun h ↦ ⟨h.remotePort, h.localAddr, h.remoteAddr, h.interface⟩,
      fun ⟨h₁, h₂, h₃, h₄⟩ ↦ ⟨hport, h₁, h₂, h₃, h₄⟩⟩
  have hthrows : b.Throws (udp.arrival (.ip ctrl)) ↔
      ¬ (sd.remotePort ≠ 0 ∧ sd.remotePort ≠ udp.sourcePort) ∧
        (sd.localAddr.isIPv6 = true ∨
          Binding.AdmitsAddr sd.localAddr (.v4 ctrl.destAddr) ∧ sd.remoteAddr.isIPv6 = true) := by
    rw [← hremote, hd.localAddr, hd.remoteAddr]
    exact ⟨fun h ↦ ⟨h.remotePort, h.address⟩, fun ⟨h₁, h₂⟩ ↦ ⟨hport, h₁, h₂⟩⟩
  rw [hmatches, hthrows]
  unfold accepts
  by_cases honly : sd.onlyLocalPortIsSet = true
  · -- nothing is restricted, so the comparison would say yes as well
    obtain ⟨hl, hr, hp, hi⟩ := hd.unrestricted honly
    have hl' : Binding.AdmitsAddr sd.localAddr (.v4 ctrl.destAddr) := .inl hl
    have hr' : Binding.AdmitsAddr sd.remoteAddr (.v4 ctrl.srcAddr) := .inl hr
    have hi' : Binding.AdmitsInterface sd.interfaceId ctrl.interfaceId := .inl hi
    rw [if_pos honly]
    cases a <;>
      simp [hp, hl', hr', hi', isUnspecified_not_isIPv6 hl, isUnspecified_not_isIPv6 hr]
  · rw [if_neg honly]
    beta_reduce
    rw [matchesSocket4_eq]
    by_cases hp : sd.remotePort ≠ 0 ∧ sd.remotePort ≠ udp.sourcePort
    · rw [if_pos hp]
      cases a <;> simp [hp]
    rw [if_neg hp]
    by_cases hl : sd.localAddr.isIPv6 = true
    · rw [if_pos hl]
      cases a <;> simp [hp, hl]
    rw [if_neg hl]
    by_cases hla : Binding.AdmitsAddr sd.localAddr (.v4 ctrl.destAddr)
    · rw [admitsAddr_iff.mpr hla, Bool.not_true, if_neg Bool.false_ne_true]
      by_cases hr : sd.remoteAddr.isIPv6 = true
      · rw [if_pos hr]
        cases a <;> simp [hp, hla, hr]
      · rw [if_neg hr, Except.ok.injEq, Bool.eq_iff_iff, Bool.and_eq_true, admitsAddr_iff,
          admitsInterface_iff]
        simp only [hp, hl, hla, hr, not_false_eq_true, true_and, Bool.false_eq_true, and_false,
          or_self]
        exact iff_comm
    · rw [Bool.eq_false_iff.mpr (fun h ↦ hla (admitsAddr_iff.mp h)), Bool.not_false, if_pos rfl]
      cases a <;> simp [hl, hla]

end Delivery

namespace Session

variable {s : Session} {udp : UDPPacket} {ctrl : IPControlInfo}

/-- The packets sent up by the loop over the sockets on the port. -/
def sentUp (s : Session) (udp : UDPPacket) (ctrl : IPControlInfo) : List Indication :=
  ((s.udp.socketsByPortMap.bucket udp.destinationPort).filterMap
    (selected s.udp (matchesSocket4 · udp ctrl))).map (sendUp4 udp ctrl)

theorem sendUp4_eq {sd : SockDesc} {b : Binding} (hd : sd.Describes b) :
    sendUp4 udp ctrl sd = b.indication (udp.arrival (.ip ctrl)) := by
  unfold sendUp4 Binding.indication
  rw [hd.appGateIndex, hd.sockId, hd.userId]
  rfl

variable (h : s.Represents)

include h

/-- The sockets on the port of the packet are those of the bindings. -/
theorem Represents.mem_bucket {k : ℕ} {sd : SockDesc} {b : Binding}
    (hk : s.udp.socks.find? k = some sd) (hd : sd.Describes b) :
    k ∈ s.udp.socketsByPortMap.bucket udp.destinationPort ↔
      toShort b.localPort = (udp.arrival (.ip ctrl)).destPort := by
  rw [h.ports.mem_iff, ← hd.localPort]
  constructor
  · rintro ⟨sd', hk', hport⟩
    rw [hk] at hk'
    cases hk'
    exact hport
  · intro hport
    exact ⟨sd, hk, hport⟩

theorem Represents.deliver_ok_iff {out : List Indication} :
    s.udp.deliver (matchesSocket4 · udp ctrl) (sendUp4 udp ctrl)
        (s.udp.socketsByPortMap.bucket udp.destinationPort) = .ok out ↔
      (∀ sockId b, s.bindings.find? sockId = some b → ¬ b.Throws (udp.arrival (.ip ctrl))) ∧
        out = s.sentUp udp ctrl := by
  rw [UDP.deliver_ok_iff]
  apply and_congr_left'
  constructor
  · intro hall sockId b hb hthrows
    obtain ⟨k, sd, hk, _, hd⟩ := h.socket hb
    obtain ⟨sd', a, hk', ha⟩ := hall k ((h.mem_bucket hk hd).mpr hthrows.localPort)
    rw [hk] at hk'
    cases hk'
    exact ((accepts_ok_iff hd hthrows.localPort).mp ha).1 hthrows
  · intro hall k hmem
    obtain ⟨sd, hk, _⟩ := (h.ports.mem_iff _ k).mp hmem
    obtain ⟨b, hb, hd⟩ := h.described k sd hk
    have hport : toShort b.localPort = (udp.arrival (.ip ctrl)).destPort :=
      (h.mem_bucket hk hd).mp hmem
    by_cases hmatch : b.truncated.Matches (udp.arrival (.ip ctrl))
    · exact ⟨sd, true, hk, (accepts_ok_iff hd hport).mpr ⟨hall _ b hb, by simp [hmatch]⟩⟩
    · exact ⟨sd, false, hk, (accepts_ok_iff hd hport).mpr ⟨hall _ b hb, by simp [hmatch]⟩⟩

/-- The bindings that are served are those that match with the stored ports. -/
theorem Represents.mem_sentUp (hthrows : ∀ sockId b, s.bindings.find? sockId = some b →
      ¬ b.Throws (udp.arrival (.ip ctrl))) {i : Indication} :
    i ∈ s.sentUp udp ctrl ↔ ∃ sockId b, s.bindings.find? sockId = some b ∧
      b.truncated.Matches (udp.arrival (.ip ctrl)) ∧
      i = b.indication (udp.arrival (.ip ctrl)) := by
  unfold sentUp
  rw [List.mem_map]
  constructor
  · rintro ⟨sd, hsd, rfl⟩
    obtain ⟨k, hmem, hsel⟩ := List.mem_filterMap.mp hsd
    obtain ⟨hk, hyes⟩ := selected_eq_some.mp hsel
    obtain ⟨b, hb, hd⟩ := h.described k sd hk
    have hmatch := ((accepts_ok_iff hd ((h.mem_bucket hk hd).mp hmem)).mp hyes).2.mp rfl
    exact ⟨sd.sockId, b, hb, hmatch, sendUp4_eq hd⟩
  · rintro ⟨sockId, b, hb, hmatch, rfl⟩
    obtain ⟨k, sd, hk, _, hd⟩ := h.socket hb
    have hport : toShort b.localPort = (udp.arrival (.ip ctrl)).destPort := hmatch.localPort
    have hyes := (accepts_ok_iff hd hport).mpr ⟨hthrows sockId b hb, iff_of_true rfl hmatch⟩
    refine ⟨sd, List.mem_filterMap.mpr ⟨k, (h.mem_bucket hk hd).mpr hport, ?_⟩, sendUp4_eq hd⟩
    exact selected_eq_some.mpr ⟨hk, hyes⟩

theorem Represents.nodup_sentUp :
    ((s.sentUp udp ctrl).map fun i ↦ i.ctrl.sockId).Nodup := by
  unfold sentUp
  rw [List.map_map]
  have hids : ((fun i ↦ i.ctrl.sockId) ∘ sendUp4 udp ctrl : SockDesc → ℤ) = SockDesc.sockId := rfl
  rw [hids]
  have hinj : ∀ k k' sd sd', selected s.udp (matchesSocket4 · udp ctrl) k = some sd →
      selected s.udp (matchesSocket4 · udp ctrl) k' = some sd' → sd.sockId = sd'.sockId →
      k = k' := by
    intro k k' sd sd' hk hk' hid
    have hfind := h.ids.find? (selected_eq_some.mp hk).1
    rw [hid, h.ids.find? (selected_eq_some.mp hk').1] at hfind
    exact (Option.some.inj hfind).symm
  have hnodup := h.ports.nodup udp.destinationPort
  generalize s.udp.socketsByPortMap.bucket udp.destinationPort = list at hnodup ⊢
  induction list with
  | nil => exact List.nodup_nil
  | cons k list ih =>
    rw [List.nodup_cons] at hnodup
    rw [List.filterMap_cons]
    split
    · exact ih hnodup.2
    · rename_i sd hsd
      rw [List.map_cons, List.nodup_cons]
      refine ⟨fun hmem ↦ ?_, ih hnodup.2⟩
      obtain ⟨sd', hsd', hid⟩ := List.mem_map.mp hmem
      obtain ⟨k', hk', hsel'⟩ := List.mem_filterMap.mp hsd'
      rw [hinj k k' sd sd' hsd hsel' hid.symm] at hnodup
      exact hnodup.1 hk'

/-- Two bindings that give the same indication are the same. -/
theorem Represents.eq_of_indication {sockId sockId' : ℤ} {b b' : Binding}
    {a : Arrival} (hb : s.bindings.find? sockId = some b) (hb' : s.bindings.find? sockId' = some b')
    (heq : b.indication a = b'.indication a) : b = b' := by
  have hid : b.sockId = b'.sockId := congrArg (fun i : Indication ↦ i.ctrl.sockId) heq
  rw [h.sockId_eq hb, h.sockId_eq hb'] at hid
  rw [hid, hb'] at hb
  exact (Option.some.inj hb).symm

theorem Represents.demultiplexes_ip_iff (hbit : udp.hasBitError = false) :
    s.Demultiplexes udp (.ip ctrl) ↔ s.Deliverable udp (.ip ctrl) := by
  have hprocess : ∀ out, s.udp.processUDPPacket (udp.setControlInfo (.ip ctrl)) = .ok out ↔
      (∀ sockId b, s.bindings.find? sockId = some b → ¬ b.Throws (udp.arrival (.ip ctrl))) ∧
        out = ⟨s.sentUp udp ctrl, (s.sentUp udp ctrl).isEmpty && !ctrl.destAddr.isMulticast⟩ := by
    intro out
    rw [processUDPPacket_ip udp ctrl hbit, bind_ok_iff]
    constructor
    · rintro ⟨sent, hsent, hout⟩
      obtain ⟨hthrows, rfl⟩ := h.deliver_ok_iff.mp hsent
      cases hout
      exact ⟨hthrows, rfl⟩
    · rintro ⟨hthrows, rfl⟩
      exact ⟨s.sentUp udp ctrl, h.deliver_ok_iff.mpr ⟨hthrows, rfl⟩, rfl⟩
  unfold Demultiplexes
  rw [hbit, if_neg Bool.false_ne_true]
  constructor
  · rintro ⟨out, hout, _, hmem, _⟩
    obtain ⟨hthrows, rfl⟩ := (hprocess out).mp hout
    refine ⟨⟨ctrl, rfl⟩, fun sockId b hb ↦ ⟨fun htrunc ↦ ?_, fun hmatch ↦ ?_⟩, hthrows⟩
    · have hin := (h.mem_sentUp hthrows).mpr ⟨sockId, b, hb, htrunc, rfl⟩
      obtain ⟨sockId', b', hb', hmatch, heq⟩ := (hmem _).mp hin
      rw [h.eq_of_indication hb hb' heq]
      exact hmatch
    · have hin := (hmem _).mpr ⟨sockId, b, hb, hmatch, rfl⟩
      obtain ⟨sockId', b', hb', htrunc, heq⟩ := (h.mem_sentUp hthrows).mp hin
      rw [h.eq_of_indication hb hb' heq]
      exact htrunc
  · intro hdel
    have hmem : ∀ i, i ∈ s.sentUp udp ctrl ↔ ∃ sockId b, s.bindings.find? sockId = some b ∧
        b.Matches (udp.arrival (.ip ctrl)) ∧ i = b.indication (udp.arrival (.ip ctrl)) := by
      intro i
      rw [h.mem_sentUp hdel.addresses]
      constructor
      · rintro ⟨sockId, b, hb, htrunc, rfl⟩
        exact ⟨sockId, b, hb, (hdel.ports sockId b hb).mp htrunc, rfl⟩
      · rintro ⟨sockId, b, hb, hmatch, rfl⟩
        exact ⟨sockId, b, hb, (hdel.ports sockId b hb).mpr hmatch, rfl⟩
    refine ⟨_, (hprocess _).mpr ⟨hdel.addresses, rfl⟩, h.nodup_sentUp, hmem, ?_⟩
    have hempty : (s.sentUp udp ctrl).isEmpty = true ↔
        ∀ sockId b, s.bindings.find? sockId = some b → ¬ b.Matches (udp.arrival (.ip ctrl)) := by
      rw [List.isEmpty_iff, List.eq_nil_iff_forall_not_mem]
      constructor
      · intro hnone sockId b hb hmatch
        exact hnone _ ((hmem _).mpr ⟨sockId, b, hb, hmatch, rfl⟩)
      · intro hnone i hi
        obtain ⟨sockId, b, hb, hmatch, _⟩ := (hmem i).mp hi
        exact hnone sockId b hb hmatch
    rw [Bool.and_eq_true, hempty, Bool.not_eq_true']
    exact and_comm

theorem Represents.demultiplexes_iff (udp : UDPPacket) (c : ControlInfo) :
    s.Demultiplexes udp c ↔ udp.hasBitError = true ∨ s.Deliverable udp c := by
  cases hbit : udp.hasBitError with
  | true =>
    unfold Demultiplexes
    rw [hbit, if_pos rfl]
    refine iff_of_true ?_ (.inl rfl)
    unfold processUDPPacket UDPPacket.setControlInfo
    simp only [hbit]
    rfl
  | false =>
    rw [or_iff_right Bool.false_ne_true]
    cases c with
    | ip ctrl => exact h.demultiplexes_ip_iff hbit
    | ipv6 ctrl =>
      -- the control info has been taken off the packet before its type is asked for
      apply iff_of_false
      · unfold Demultiplexes
        rw [hbit, if_neg Bool.false_ne_true, processUDPPacket_ipv6 udp ctrl hbit]
        rintro ⟨out, hout, _⟩
        cases hout
      · intro hdel
        obtain ⟨ctrl', hctrl⟩ := hdel.ipv4
        cases hctrl

end Session

/-- In every run the socket maps are coherent, and a packet is demultiplexed as the bindings ask for
if and only if it has a bit error (and is discarded) or is deliverable. -/
theorem demultiplexing_correct (s : Session) (h : s.Reaches) :
    Coherent s.udp ∧ ∀ udp c, s.Demultiplexes udp c ↔
      udp.hasBitError = true ∨ s.Deliverable udp c :=
  ⟨h.represents.toCoherent, h.represents.demultiplexes_iff⟩

/-- The first socket, bound to a port without restrictions. -/
def socketOn (port : ℤ) : Session where
  udp := ({} : UDPModule).addSocket (newSockDesc 0 { sockId := 7, srcPort := port })
  bindings := record {} .empty (.bind 0 { sockId := 7, srcPort := port })

theorem socketOn_reaches {port : ℤ} (hpos : 0 < port) (hle : port ≤ 65535) :
    (socketOn port).Reaches := by
  have hport : toShort port ≠ 0 := by
    rw [Ne, toShort_eq_iff hpos.le hle (le_refl 0)]
    omega
  have hrange : PortsInRange (.bind 0 { sockId := 7, srcPort := port }) :=
    ⟨⟨hpos.le, hle⟩, le_refl 0, by norm_num⟩
  have hstart : Session.Reaches {} := .start rfl
  refine Reachable.next hstart hrange ?_
  have hchoose : ({} : UDPModule).choosePort (toShort port) = .ok (toShort port, {}) :=
    if_neg hport
  unfold Session.step processCommandFromApp UDPModule.bind
  simp only [newSockDesc, hchoose]
  rfl

def ipv4Packet : ControlInfo := .ip { destAddr := 0x0A000001, srcAddr := 0x0A000002 }

def ipv6Packet : ControlInfo := .ipv6 { destAddr := 1, srcAddr := 2 }

theorem socketOn_bindings {port sockId : ℤ} {b : Binding} (hpos : 0 < port)
    (hb : (socketOn port).bindings.find? sockId = some b) :
    b = ⟨0, 7, -1, .v4 0, .v4 0, port, 0, -1⟩ := by
  have hne : port ≠ 0 := by omega
  unfold socketOn record at hb
  simp only [hne, if_false] at hb
  rw [OrderedMap.find?_insert] at hb
  split at hb
  · exact (Option.some.inj hb).symm
  · cases hb

theorem demultiplexing_correct_at_1234 :
    Coherent (socketOn 1234).udp ∧
      (socketOn 1234).Demultiplexes
        { sourcePort := 50000, destinationPort := 1234, controlInfo := none } ipv4Packet := by
  have h := demultiplexing_correct (socketOn 1234) (socketOn_reaches (by decide) (by decide))
  refine ⟨h.1, (h.2 _ _).mpr (.inr ⟨⟨_, rfl⟩, fun sockId b hb ↦ ?_, fun sockId b hb hthrows ↦ ?_⟩)⟩
  · rw [socketOn_bindings (by decide) hb]
    rw [truncated_matches_iff (by decide) (by decide) (by decide) (by decide)]
    exact and_iff_left (by decide)
  · rw [socketOn_bindings (by decide) hb] at hthrows
    rcases hthrows.address with hv6 | hv6
    · cases hv6
    · cases hv6.2

/-- A socket bound to port 40000 gets nothing, and a packet over IPv6 stops the simulation. -/
theorem demultiplexing_fails_at_40000 :
    (socketOn 40000).Reaches ∧
      ¬ (socketOn 40000).Demultiplexes
        { sourcePort := 1234, destinationPort := 40000, controlInfo := none } ipv4Packet ∧
      ¬ (socketOn 40000).Demultiplexes
        { sourcePort := 1234, destinationPort := 40000, controlInfo := none } ipv6Packet := by
  have hreach : (socketOn 40000).Reaches := socketOn_reaches (by decide) (by decide)
  refine ⟨hreach, fun h ↦ ?_, fun h ↦ ?_⟩
  · rcases (hreach.represents.demultiplexes_iff _ _).mp h with hbit | hdel
    · cases hbit
    · -- the socket is stored under port -25536
      have hports := hdel.ports 7 _ rfl
      have hmatch := hports.mpr ⟨rfl, .inl rfl, .inl rfl, .inl rfl, .inl rfl⟩
      exact absurd hmatch.localPort (by decide)
  · rcases (hreach.represents.demultiplexes_iff _ _).mp h with hbit | hdel
    · cases hbit
    · obtain ⟨ctrl, hctrl⟩ := hdel.ipv4
      cases hctrl

end InetManet.UDP
