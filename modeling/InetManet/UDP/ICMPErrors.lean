import InetManet.UDP.Demultiplexing

/-!
# ICMP errors for UDP packets

An ICMP error quotes a packet of this host, and is reported to the last socket on the port of the packet
that the module takes for its sender. A remote port counts the wrong way round there, and addresses of
different kinds are compared by their first words, so that sockets can be in the way of the sender.
-/

namespace InetManet.UDP

open TransitionSystem UDPModule

/-- The error, with what it quotes of the packet. -/
inductive ICMPError
  | icmp (srcAddress destAddress : IPAddress) (sourcePort destinationPort : ℤ)
  | icmpv6 (srcAddress destAddress : IPv6Address) (sourcePort destinationPort : ℤ)
  deriving DecidableEq

namespace ICMPError

def localAddr : ICMPError → IPvXAddress
  | icmp srcAddress .. => .v4 srcAddress
  | icmpv6 srcAddress .. => .ofIPv6 srcAddress

def remoteAddr : ICMPError → IPvXAddress
  | icmp _ destAddress .. => .v4 destAddress
  | icmpv6 _ destAddress .. => .ofIPv6 destAddress

def localPort : ICMPError → ℤ
  | icmp _ _ sourcePort _ => sourcePort
  | icmpv6 _ _ sourcePort _ => sourcePort

def remotePort : ICMPError → ℤ
  | icmp _ _ _ destinationPort => destinationPort
  | icmpv6 _ _ _ destinationPort => destinationPort

/-- The packet that answers the quoted one. -/
def reply (e : ICMPError) (interfaceId : ℤ) : Arrival where
  srcAddr := e.remoteAddr
  destAddr := e.localAddr
  srcPort := e.remotePort
  destPort := e.localPort
  interfaceId := interfaceId
  ttl := 0
  isMulticast := false
  payload := []

end ICMPError

/-! ## The sockets that are taken for the sender -/

/-- An IPv4 address fills the first of the four words of an address, and `words` is what stands in the
others of the address on the right. The kind of that address does not count. -/
def equals (words : BitVec 96) : IPvXAddress → IPvXAddress → Bool
  | .v4 a, .v4 b => a == b
  | .v4 a, .v6 b _ => a == b.extractLsb' 96 32
  | .v6 a _, .v4 b => a == b ++ words
  | .v6 a _, .v6 b _ => a == b

theorem equals_self (words : BitVec 96) (a : IPvXAddress) : equals words a a = true := by
  cases a <;> simp [equals]

/-- What the unused words of `localAddr` and `remoteAddr` hold. -/
structure UnusedWords where
  localWords : BitVec 96
  remoteWords : BitVec 96
  deriving DecidableEq

section

variable (w : UnusedWords) (e : ICMPError)

/-- The restrictions of the socket to addresses. -/
def admitsAddresses (sd : SockDesc) : Bool :=
  (sd.localAddr.isUnspecified || equals w.localWords sd.localAddr e.localAddr) &&
    (sd.remoteAddr.isUnspecified || equals w.remoteWords sd.remoteAddr e.remoteAddr)

/-- The version of `matchesSocket` for errors. -/
def matchesSocketError (sd : SockDesc) : Bool :=
  (sd.remotePort == 0 || sd.remotePort != toShort e.remotePort) && admitsAddresses w e sd

/-- The last socket on the list that matches; `srcSocket` is the last one so far. -/
def findSrcSocket (u : UDPModule) : Option SockDesc → List ℕ → Except Fault (Option SockDesc)
  | srcSocket, [] => .ok srcSocket
  | srcSocket, s :: list =>
      match u.socks.find? s with
      | none => .error .nullPointer
      | some sd =>
          findSrcSocket u
            (if sd.onlyLocalPortIsSet || matchesSocketError w e sd then some sd else srcSocket) list

/-- A `UDP_I_ERROR` for the application at `gateIndex`. -/
structure ErrorNotification where
  gateIndex : ℤ
  ctrl : UDPControlInfo
  deriving DecidableEq

def sendUpErrorNotification (sd : SockDesc) : ErrorNotification where
  gateIndex := sd.appGateIndex
  ctrl := { sockId := sd.sockId, userId := sd.userId, srcAddr := e.localAddr, destAddr := e.remoteAddr,
            srcPort := sd.localPort, destPort := toShort e.remotePort }

def processICMPError (u : UDPModule) : Except Fault (Option ErrorNotification) :=
  match u.socketsByPortMap.find? e.localPort with
  | none => .ok none
  | some list => do
      let srcSocket ← findSrcSocket w e u none list
      return srcSocket.map (sendUpErrorNotification e)

end

/-! ## Who can have sent the packet -/

structure Binding.CouldHaveSent (b : Binding) (e : ICMPError) : Prop where
  localPort : b.localPort = e.localPort
  localAddr : AdmitsAddr b.localAddr e.localAddr
  remoteAddr : AdmitsAddr b.remoteAddr e.remoteAddr
  remotePort : AdmitsPort b.remotePort e.remotePort

/-- The error is reported to a socket that can have sent the packet, and to one if there is one. -/
structure Session.ReportsRight (w : UnusedWords) (e : ICMPError) (s : Session) : Prop where
  total : ∃ out, processICMPError w e s.udp = .ok out
  sender : ∀ i, processICMPError w e s.udp = .ok (some i) → ∃ b,
    s.bindings.find? i.ctrl.sockId = some b ∧ b.CouldHaveSent e ∧ i.gateIndex = b.appGateIndex
  reported : ∀ sockId b, s.bindings.find? sockId = some b → b.CouldHaveSent e →
    processICMPError w e s.udp ≠ .ok none

/-- The socket has no remote port, and its addresses are those of the packet. -/
structure SockDesc.Open (e : ICMPError) (sd : SockDesc) : Prop where
  remotePort : sd.remotePort = 0
  localAddr : Binding.AdmitsAddr sd.localAddr e.localAddr
  remoteAddr : Binding.AdmitsAddr sd.remoteAddr e.remoteAddr

/-- The addresses of the socket seem to be those of the packet, but its remote port is another one, or it
has none and its addresses are of the other kind. -/
structure SockDesc.InTheWay (w : UnusedWords) (e : ICMPError) (sd : SockDesc) : Prop where
  addresses : admitsAddresses w e sd = true
  remotePort : sd.remotePort ≠ 0 → sd.remotePort ≠ toShort e.remotePort
  not_open : ¬ sd.Open e

def socketsOn (u : UDPModule) (port : ℤ) : List SockDesc :=
  (u.socketsByPortMap.bucket port).filterMap u.socks.find?

/-- After each socket in the way there is one without remote port that can have sent the packet, and there
is such a socket if any socket can have sent it. -/
structure Session.OpenLast (w : UnusedWords) (e : ICMPError) (s : Session) : Prop where
  follows : ∀ l₁ sd l₂, socketsOn s.udp e.localPort = l₁ ++ sd :: l₂ → sd.InTheWay w e →
    ∃ sd' ∈ l₂, sd'.Open e
  exists_open : ∀ sockId b, s.bindings.find? sockId = some b → b.CouldHaveSent e →
    ∃ sd ∈ socketsOn s.udp e.localPort, sd.Open e

/-- Ports of a packet that has been sent. -/
structure ICMPError.PortsInRange (e : ICMPError) : Prop where
  localPort : 0 ≤ e.localPort ∧ e.localPort ≤ 65535
  remotePort : 0 ≤ e.remotePort ∧ e.remotePort ≤ 65535

/-! ## Ports of bindings -/

/-- The ports of all bindings fit in 16 bits. -/
def Session.BindingPorts (s : Session) : Prop :=
  ∀ sockId b, s.bindings.find? sockId = some b →
    (0 ≤ b.localPort ∧ b.localPort ≤ 65535) ∧ 0 ≤ b.remotePort ∧ b.remotePort ≤ 65535

section

variable {s s' : Session} {c : Command}

theorem connect_destPort {u u' : UDPModule} {sockId port : ℤ} {addr : IPvXAddress}
    (h : u.connect sockId addr port = .ok u') : 0 < port ∧ port ≤ 65535 := by
  obtain ⟨_, _, h⟩ := bind_ok_iff.mp h
  obtain ⟨_, _, h⟩ := bind_ok_iff.mp h
  obtain ⟨_, hport, _⟩ := bind_ok_iff.mp h
  rw [check_eq_ok] at hport
  simpa using hport rfl

theorem Session.BindingPorts.step (hports : s.BindingPorts) (hrep : s.Represents) (hrange : PortsInRange c)
    (hstep : s.step c = .ok s') : s'.BindingPorts := by
  have hrep' := hrep.step hrange hstep
  obtain ⟨u', hu', hs'⟩ := bind_ok_iff.mp hstep
  cases hs'
  have hlast : (1024 : ℤ) ≤ u'.lastEphemeralPort ∧ u'.lastEphemeralPort < 5000 := hrep'.port
  intro sockId b hb
  cases c with
  | bind gateIndex ctrl =>
    change (s.bindings.insert ctrl.sockId _).find? sockId = some b at hb
    rw [OrderedMap.find?_insert] at hb
    split at hb
    · cases hb
      refine ⟨?_, hrange.2⟩
      dsimp only
      split
      · exact ⟨by omega, by omega⟩
      · exact hrange.1
    · exact hports sockId b hb
  | connect ctrl =>
    simp only [record] at hb
    split at hb
    · exact hports sockId b hb
    · rename_i b' hb'
      rw [OrderedMap.find?_insert] at hb
      split at hb
      · cases hb
        have hdest := connect_destPort hu'
        exact ⟨(hports _ b' hb').1, hdest.1.le, hdest.2⟩
      · exact hports sockId b hb
  | unbind ctrl =>
    change (s.bindings.erase ctrl.sockId).find? sockId = some b at hb
    rw [OrderedMap.find?_erase] at hb
    split at hb
    · cases hb
    · exact hports sockId b hb

theorem Session.Reaches.bindingPorts (h : s.Reaches) : s.Represents ∧ s.BindingPorts := by
  apply Reachable.invariant _ _ h
  · rintro _ rfl
    exact ⟨represents_start, fun sockId b hb ↦ by cases hb⟩
  · intro s c s' hs hrange hstep
    exact ⟨hs.1.step hrange hstep, hs.2.step hs.1 hrange hstep⟩

end

/-! ## The search -/

section

variable {w : UnusedWords} {e : ICMPError} {u : UDPModule} {sd : SockDesc} {b : Binding}

/-- The socket matches in the loop. -/
def isTaken (w : UnusedWords) (e : ICMPError) (sd : SockDesc) : Bool :=
  sd.onlyLocalPortIsSet || matchesSocketError w e sd

theorem findSrcSocket_ok {srcSocket : Option SockDesc} {list : List ℕ}
    (hall : ∀ k ∈ list, ∃ sd, u.socks.find? k = some sd) :
    findSrcSocket w e u srcSocket list =
      .ok (((list.filterMap u.socks.find?).reverse.find? (isTaken w e)).or srcSocket) := by
  induction list generalizing srcSocket with
  | nil => rfl
  | cons k list ih =>
    obtain ⟨sd, hsd⟩ := hall k List.mem_cons_self
    rw [findSrcSocket]
    simp only [hsd]
    rw [ih fun k hk ↦ hall k (List.mem_cons_of_mem _ hk), List.filterMap_cons]
    simp only [hsd, List.reverse_cons, List.find?_append, List.find?_singleton, Option.or_assoc]
    congr 2
    change (if isTaken w e sd = true then some sd else srcSocket) = _
    split <;> rfl

/-- Nothing goes wrong, and the last socket that matches is told. -/
theorem processICMPError_eq (h : Coherent u) :
    processICMPError w e u =
      .ok (((socketsOn u e.localPort).reverse.find? (isTaken w e)).map (sendUpErrorNotification e)) := by
  have hall : ∀ k ∈ u.socketsByPortMap.bucket e.localPort, ∃ sd, u.socks.find? k = some sd := by
    intro k hk
    obtain ⟨sd, hsd, _⟩ := (h.ports.mem_iff _ _).mp hk
    exact ⟨sd, hsd⟩
  unfold processICMPError socketsOn OrderedMap.bucket at *
  cases hfind : u.socketsByPortMap.find? e.localPort with
  | none => rfl
  | some list =>
    rw [hfind] at hall
    simp only [Option.getD_some] at hall ⊢
    rw [findSrcSocket_ok hall, Option.or_none]
    rfl

theorem admits_of_admitsAddr {words : BitVec 96} {restriction addr : IPvXAddress}
    (h : Binding.AdmitsAddr restriction addr) :
    (restriction.isUnspecified || equals words restriction addr) = true := by
  rcases h with hun | rfl
  · rw [hun, Bool.true_or]
  · rw [equals_self, Bool.or_true]

/-- The sockets that match are those without remote port and those in the way. -/
theorem isTaken_iff (hd : sd.Describes b) : isTaken w e sd = true ↔ sd.Open e ∨ sd.InTheWay w e := by
  rw [isTaken, Bool.or_eq_true, matchesSocketError, Bool.and_eq_true, Bool.or_eq_true, beq_iff_eq,
    bne_iff_ne]
  constructor
  · rintro (honly | ⟨hport, haddr⟩)
    · obtain ⟨hlocal, hremote, hport, _⟩ := hd.unrestricted honly
      exact .inl ⟨hport, .inl hlocal, .inl hremote⟩
    · by_cases hopen : sd.Open e
      · exact .inl hopen
      · exact .inr ⟨haddr, fun hne ↦ hport.resolve_left hne, hopen⟩
  · rintro (hopen | hway)
    · refine .inr ⟨.inl hopen.remotePort, ?_⟩
      rw [admitsAddresses, admits_of_admitsAddr hopen.localAddr, admits_of_admitsAddr hopen.remoteAddr,
        Bool.and_self]
    · refine .inr ⟨?_, hway.addresses⟩
      by_cases hzero : sd.remotePort = 0
      · exact .inl hzero
      · exact .inr (hway.remotePort hzero)

theorem toShort_remotePort (hd : sd.Describes b) (hb : 0 ≤ b.remotePort ∧ b.remotePort ≤ 65535) :
    sd.remotePort = 0 ↔ b.remotePort = 0 := by
  rw [hd.remotePort, toShort_eq_iff hb.1 hb.2 (le_refl 0)]
  omega

theorem couldHaveSent_of_open (hd : sd.Describes b)
    (hb : (0 ≤ b.localPort ∧ b.localPort ≤ 65535) ∧ 0 ≤ b.remotePort ∧ b.remotePort ≤ 65535)
    (hport : sd.localPort = e.localPort) (he : e.PortsInRange) (hopen : sd.Open e) : b.CouldHaveSent e where
  localPort := ((toShort_eq_iff hb.1.1 hb.1.2 he.localPort.1).mp (hd.localPort.symm.trans hport)).1
  localAddr := hd.localAddr ▸ hopen.localAddr
  remoteAddr := hd.remoteAddr ▸ hopen.remoteAddr
  remotePort := .inl ((toShort_remotePort hd hb.2).mp hopen.remotePort)

theorem not_couldHaveSent_of_inTheWay (hd : sd.Describes b) (hway : sd.InTheWay w e) :
    ¬ b.CouldHaveSent e := by
  intro hsent
  have hopen (hzero : sd.remotePort = 0) : False :=
    hway.not_open ⟨hzero, hd.localAddr ▸ hsent.localAddr, hd.remoteAddr ▸ hsent.remoteAddr⟩
  rcases hsent.remotePort with hzero | hdest
  · apply hopen
    rw [hd.remotePort, hzero]
    rfl
  · apply hway.remotePort hopen
    rw [hd.remotePort, hdest]

/-- A socket on the port of the packet has a binding with its id. -/
theorem Session.Represents.of_mem_socketsOn {s : Session} (h : s.Represents) {port : ℤ}
    (hmem : sd ∈ socketsOn s.udp port) :
    sd.localPort = port ∧ ∃ b, s.bindings.find? sd.sockId = some b ∧ sd.Describes b := by
  obtain ⟨k, hk, hsd⟩ := List.mem_filterMap.mp hmem
  obtain ⟨sd', hsd', hport⟩ := (h.ports.mem_iff _ _).mp hk
  rw [hsd] at hsd'
  cases hsd'
  exact ⟨hport, h.described k sd hsd⟩

end

/-! ## Right reports -/

section

variable {s : Session} {w : UnusedWords} {e : ICMPError}

theorem Session.OpenLast.reportsRight (hcond : s.OpenLast w e) (hrep : s.Represents)
    (hports : s.BindingPorts) (he : e.PortsInRange) : s.ReportsRight w e := by
  have heq := processICMPError_eq (w := w) (e := e) hrep.toCoherent
  refine ⟨⟨_, heq⟩, fun i hi ↦ ?_, fun sockId b hb hsent hnone ↦ ?_⟩
  · rw [heq] at hi
    obtain ⟨sd, hlast, rfl⟩ := Option.map_eq_some_iff.mp (Except.ok.inj hi)
    obtain ⟨htaken, l₂, l₁, hsplit, hrest⟩ := List.find?_eq_some_iff_append.mp hlast
    have hsplit' : socketsOn s.udp e.localPort = l₁.reverse ++ sd :: l₂.reverse := by
      rw [← List.reverse_reverse (socketsOn s.udp e.localPort), hsplit]
      simp
    have hmem : sd ∈ socketsOn s.udp e.localPort := hsplit' ▸ by simp
    obtain ⟨hport, b, hb, hd⟩ := hrep.of_mem_socketsOn hmem
    refine ⟨b, hb, ?_, hd.appGateIndex⟩
    rcases (isTaken_iff hd).mp htaken with hopen | hway
    · exact couldHaveSent_of_open hd (hports _ b hb) hport he hopen
    · -- A socket without remote port would come later and match as well.
      obtain ⟨sd', hmem', hopen⟩ := hcond.follows _ sd _ hsplit' hway
      have hin : sd' ∈ socketsOn s.udp e.localPort := by
        rw [hsplit']
        exact List.mem_append_right _ (List.mem_cons_of_mem _ hmem')
      obtain ⟨_, b', _, hd'⟩ := hrep.of_mem_socketsOn hin
      have hnot := hrest sd' (List.mem_reverse.mp hmem')
      rw [(isTaken_iff hd').mpr (.inl hopen)] at hnot
      cases hnot
  · obtain ⟨sd, hmem, hopen⟩ := hcond.exists_open sockId b hb hsent
    obtain ⟨_, b', _, hd⟩ := hrep.of_mem_socketsOn hmem
    rw [heq] at hnone
    have hnot := List.find?_eq_none.mp (Option.map_eq_none_iff.mp (Except.ok.inj hnone)) sd
      (List.mem_reverse.mpr hmem)
    exact hnot ((isTaken_iff hd).mpr (.inl hopen))

theorem Session.ReportsRight.openLast (hright : s.ReportsRight w e) (hrep : s.Represents) :
    s.OpenLast w e := by
  have heq := processICMPError_eq (w := w) (e := e) hrep.toCoherent
  -- Whoever is told can have sent the packet, and is not in the way.
  have hopen {sd : SockDesc}
      (hlast : (socketsOn s.udp e.localPort).reverse.find? (isTaken w e) = some sd) : sd.Open e := by
    have hmem : sd ∈ socketsOn s.udp e.localPort := List.mem_reverse.mp (List.mem_of_find?_eq_some hlast)
    rw [hlast] at heq
    obtain ⟨b, hb, hsent, _⟩ := hright.sender _ heq
    obtain ⟨_, b', hb', hd⟩ := hrep.of_mem_socketsOn hmem
    have hsame : b' = b := Option.some.inj (hb'.symm.trans hb)
    rcases (isTaken_iff hd).mp (List.find?_some hlast) with hopen | hway
    · exact hopen
    · exact absurd (hsame ▸ hsent) (not_couldHaveSent_of_inTheWay hd hway)
  refine ⟨fun l₁ sd l₂ hsplit hway ↦ ?_, fun sockId b hb hsent ↦ ?_⟩
  · have hmem : sd ∈ socketsOn s.udp e.localPort := hsplit ▸ by simp
    obtain ⟨_, b, _, hd⟩ := hrep.of_mem_socketsOn hmem
    have hrev : (socketsOn s.udp e.localPort).reverse = l₂.reverse ++ sd :: l₁.reverse := by
      rw [hsplit]
      simp
    cases hfind : l₂.reverse.find? (isTaken w e) with
    | none =>
      have hlast : (socketsOn s.udp e.localPort).reverse.find? (isTaken w e) = some sd := by
        rw [hrev, List.find?_append, hfind, Option.none_or,
          List.find?_cons_of_pos ((isTaken_iff hd).mpr (.inr hway))]
      exact absurd (hopen hlast) hway.not_open
    | some sd' =>
      refine ⟨sd', List.mem_reverse.mp (List.mem_of_find?_eq_some hfind), hopen ?_⟩
      rw [hrev, List.find?_append, hfind, Option.some_or]
  · cases hfind : (socketsOn s.udp e.localPort).reverse.find? (isTaken w e) with
    | none =>
      rw [hfind] at heq
      exact absurd heq (hright.reported sockId b hb hsent)
    | some sd =>
      exact ⟨sd, List.mem_reverse.mp (List.mem_of_find?_eq_some hfind), hopen hfind⟩

/-- The bindings that can have sent a packet are those that its answer is for. -/
theorem couldHaveSent_iff_matches_reply (b : Binding) :
    b.CouldHaveSent e ↔ b.Matches (e.reply b.interfaceId) :=
  ⟨fun h ↦ ⟨h.localPort, h.remotePort, h.localAddr, h.remoteAddr, .inr rfl⟩,
    fun h ↦ ⟨h.localPort, h.localAddr, h.remoteAddr, h.remotePort⟩⟩

end

/-- An error goes to the right socket exactly if sockets without remote port come last. -/
theorem reportsRight_iff (s : Session) (hreach : s.Reaches) (w : UnusedWords) (e : ICMPError)
    (he : e.PortsInRange) :
    (s.ReportsRight w e ↔ s.OpenLast w e) ∧
      ∀ b : Binding, b.CouldHaveSent e ↔ b.Matches (e.reply b.interfaceId) := by
  obtain ⟨hrep, hports⟩ := hreach.bindingPorts
  exact ⟨⟨fun h ↦ h.openLast hrep, fun h ↦ h.reportsRight hrep hports he⟩, couldHaveSent_iff_matches_reply⟩

/-- A socket that is connected to port 2000 of a host, bound to port 1234. -/
def connectedCtrl : UDPControlInfo :=
  { sockId := 7, srcPort := 1234, destAddr := .v4 0x0A000002, destPort := 2000 }

def connectedSession : Session where
  udp := ({} : UDPModule).addSocket (newSockDesc 0 connectedCtrl)
  bindings := record {} .empty (.bind 0 connectedCtrl)

theorem connectedSession_reaches : connectedSession.Reaches := by
  have hrange : PortsInRange (.bind 0 connectedCtrl) := by decide
  refine Reachable.next (.start rfl) hrange ?_
  rfl

def quotedPacket (destinationPort : ℤ) : ICMPError := .icmp 0x0A000001 0x0A000002 1234 destinationPort

theorem reportsRight_iff_connected :
    connectedSession.Reaches ∧ (quotedPacket 2000).PortsInRange ∧
      (connectedSession.ReportsRight ⟨0, 0⟩ (quotedPacket 2000) ↔
        connectedSession.OpenLast ⟨0, 0⟩ (quotedPacket 2000)) :=
  ⟨connectedSession_reaches, ⟨by decide, by decide⟩,
    (reportsRight_iff connectedSession connectedSession_reaches ⟨0, 0⟩ _ ⟨by decide, by decide⟩).1⟩

/-- The socket hears nothing of its own packet, but of one to another port. -/
theorem not_reportsRight_connected :
    connectedSession.Reaches ∧ ¬ connectedSession.ReportsRight ⟨0, 0⟩ (quotedPacket 2000) ∧
      ¬ connectedSession.ReportsRight ⟨0, 0⟩ (quotedPacket 2001) := by
  refine ⟨connectedSession_reaches, fun h ↦ ?_, fun h ↦ ?_⟩
  · exact h.reported 7 ⟨0, 7, -1, .v4 0, .v4 0x0A000002, 1234, 2000, -1⟩ rfl
      ⟨rfl, .inl rfl, .inr rfl, .inr rfl⟩ (by rfl)
  · obtain ⟨b, hb, hsent, _⟩ := h.sender ⟨0, _⟩ (by rfl)
    have hb' : connectedSession.bindings.find? 7 =
      some ⟨0, 7, -1, .v4 0, .v4 0x0A000002, 1234, 2000, -1⟩ := rfl
    cases hb'.symm.trans hb
    rcases hsent.remotePort with hport | hport
    · exact absurd hport (by decide)
    · exact absurd hport (by decide)

end InetManet.UDP
