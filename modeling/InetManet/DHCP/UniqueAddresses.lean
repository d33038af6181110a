import InetManet.DHCP.HostSteps
import InetManet.Library.Executions

/-!
# Addresses are leased once

A DHCP server and its clients on a network that loses, duplicates, delays and reorders messages. The
transaction ids that the clients draw are taken to be their own. `Safe` is the invariant of all runs: an
address that a client holds, or that a reply on its way confirms, is leased to that hardware address, and
the server leases an address to one hardware address for good.
-/

namespace InetManet.DHCP

open TransitionSystem

/-! ## The network -/

variable {ι : Type}

structure Network (ι : Type) where
  server : DHCPServer
  clients : ι → DHCPClient
  /-- All messages that were ever sent. -/
  sent : List DHCPMessage := []

inductive Event (ι : Type)
  | associated (i : ι) (draw : ℤ)
  | timeout (i : ι) (category : TimerType) (draw : ℤ)
  | toServer (msg : DHCPMessage)
  | toClient (i : ι) (msg : DHCPMessage) (draw : ℤ)

namespace Network

/-- What a client does, in its network. -/
def atClient [DecidableEq ι] (n : Network ι) (i : ι) (x : Except Fault (DHCPClient × Option DHCPMessage)) :
    Except Fault (Network ι) :=
  x.map fun r ↦ { n with clients := Function.update n.clients i r.1, sent := r.2.toList ++ n.sent }

def step [DecidableEq ι] (n : Network ι) : Event ι → Except Fault (Network ι)
  | .associated i draw => n.atClient i ((n.clients i).receiveChangeNotification draw)
  | .timeout i category draw => n.atClient i ((n.clients i).handleTimer category draw)
  | .toServer msg =>
    .ok { n with server := (n.server.processPacket msg).1
                 sent := (n.server.processPacket msg).2.toList ++ n.sent }
  | .toClient i msg draw => n.atClient i ((n.clients i).handleDHCPMessage msg draw)

/-- The transaction id is not one of another client. -/
def Own (n : Network ι) (i : ι) (draw : ℤ) : Prop :=
  (∀ j, j ≠ i → (n.clients j).xid ≠ draw) ∧
    ∀ m ∈ n.sent, m.xid = draw → m.chaddr = (n.clients i).client_mac_address

/-- A message that was sent arrives at any time, at any client, and any number of times. -/
def Allowed (n : Network ι) : Event ι → Prop
  | .associated i draw => n.Own i draw
  | .timeout i category draw => (n.clients i).Scheduled category ∧ n.Own i draw
  | .toServer msg => msg ∈ n.sent
  | .toClient i msg draw => msg ∈ n.sent ∧ n.Own i draw

/-- Nothing has happened, and the hardware addresses differ. -/
structure Initial (n : Network ι) : Prop where
  leased : n.server.leased = OrderedMap.empty
  clients : ∀ i, n.clients i = { client_mac_address := (n.clients i).client_mac_address }
  macs : Function.Injective fun i ↦ (n.clients i).client_mac_address
  sent : n.sent = []

/-- The invariant. -/
structure Safe (n : Network ι) : Prop where
  macs : Function.Injective fun i ↦ (n.clients i).client_mac_address
  server : n.server.Consistent
  ready : ∀ i, (n.clients i).Ready
  lease : ∀ i l, (n.clients i).lease = some l →
    l.ip ≠ 0 ∧ n.server.Leases l.ip (n.clients i).client_mac_address
  address : ∀ i, (n.clients i).ipAddress ≠ 0 →
    n.server.Leases (n.clients i).ipAddress (n.clients i).client_mac_address
  reply : ∀ m ∈ n.sent, m.op = .BOOTREPLY → n.server.Leases m.yiaddr m.chaddr ∧ DHCPServer.Readable m.options
  xid : ∀ m ∈ n.sent, ∀ i, m.xid = (n.clients i).xid → m.chaddr = (n.clients i).client_mac_address
  requested : ∀ m ∈ n.sent, m.options.DHCP_MSG_TYPE = .DHCPREQUEST ∨ m.options.DHCP_MSG_TYPE = .DHCPACK →
    ∀ i, m.chaddr = (n.clients i).client_mac_address → (n.clients i).lease.isSome

/-- An address that a client has stays with it, and leases stay with the server. -/
structure Keeps (n n' : Network ι) : Prop where
  server : n.server.Extends n'.server
  mac : ∀ i, (n'.clients i).client_mac_address = (n.clients i).client_mac_address
  address : ∀ i, (n.clients i).ipAddress ≠ 0 → (n'.clients i).ipAddress = (n.clients i).ipAddress

variable {n n' : Network ι} {i : ι} {draw : ℤ}

theorem Initial.safe (h : n.Initial) : n.Safe := by
  have hnot (ip : IPAddress) (mac : MACAddress) : ¬ n.server.Leases ip mac := by
    simp [DHCPServer.Leases, h.leased]
  constructor
  · exact h.macs
  · constructor
    · simp [h.leased]
    · simp [h.leased]
    · simp [h.leased]
    · intro ip ip' mac hleases
      exact absurd hleases (hnot ip mac)
  · intro i
    rw [h.clients i]
    exact ⟨by simp [ClientState.HasLease], by simp⟩
  · intro i l hl
    rw [h.clients i] at hl
    simp at hl
  · intro i hi
    rw [h.clients i] at hi
    simp at hi
  · simp [h.sent]
  · simp [h.sent]
  · simp [h.sent]

theorem Safe.serve (h : n.Safe) {msg : DHCPMessage} (hmsg : msg ∈ n.sent)
    {r : DHCPServer × Option DHCPMessage}
    (hr : n.server.Serves msg r) :
    Safe { n with server := r.1, sent := r.2.toList ++ n.sent } where
  macs := h.macs
  server := hr.consistent
  ready := h.ready
  lease i l hl := ⟨(h.lease i l hl).1, hr.extends_.leases _ _ (h.lease i l hl).2⟩
  address i hi := hr.extends_.leases _ _ (h.address i hi)
  reply m hm hop := by
    rcases List.mem_append.mp hm with hm | hm
    · have hanswer := hr.answers m (by simpa using hm)
      exact ⟨hanswer.leases, hanswer.readable⟩
    · obtain ⟨hleases, hreadable⟩ := h.reply m hm hop
      exact ⟨hr.extends_.leases _ _ hleases, hreadable⟩
  xid m hm i hxid := by
    rcases List.mem_append.mp hm with hm | hm
    · have hanswer := hr.answers m (by simpa using hm)
      rw [hanswer.chaddr]
      exact h.xid msg hmsg i (hanswer.xid ▸ hxid)
    · exact h.xid m hm i hxid
  requested m hm htype i hchaddr := by
    rcases List.mem_append.mp hm with hm | hm
    · have hanswer := hr.answers m (by simpa using hm)
      rcases hanswer.type with ⟨hoffer, -⟩ | ⟨-, hrequest⟩
      · simp [hoffer] at htype
      · exact h.requested msg hmsg (Or.inl hrequest) i (hanswer.chaddr ▸ hchaddr)
    · exact h.requested m hm htype i hchaddr

/-- What a client holds after it has acted is leased to it. -/
theorem Safe.lease_of_acts (h : n.Safe) {P : IPAddress → Prop}
    (hP : ∀ ip, P ip → ip ≠ 0 ∧ n.server.Leases ip (n.clients i).client_mac_address)
    {r : DHCPClient × Option DHCPMessage} (hr : (n.clients i).Acts P draw r) (l : DHCPLease)
    (hl : r.1.lease = some l) : l.ip ≠ 0 ∧ n.server.Leases l.ip (n.clients i).client_mac_address := by
  rcases hr.lease l hl with ⟨l', hl', hip⟩ | hnew
  · rw [hip]
    exact h.lease i l' hl'
  · exact hP l.ip hnew

theorem Safe.acts_handleDHCPMessage (h : n.Safe) {msg : DHCPMessage} (hmsg : msg ∈ n.sent) :
    Outcome ((n.clients i).handleDHCPMessage msg draw)
      ((n.clients i).Acts (fun ip ↦ ip ≠ 0 ∧ n.server.Leases ip (n.clients i).client_mac_address) draw)
      fun _ ↦ False := by
  apply (DHCPClient.acts_handleDHCPMessage (h.ready i) _ _).post
  · intro r hr
    refine ⟨hr.ready, hr.mac, hr.xid, hr.isSome, fun l hl ↦ (hr.lease l hl).imp id ?_, hr.address, hr.request⟩
    intro hip
    obtain ⟨hop, hxid, hne, heq⟩ := hip
    rw [heq, ← h.xid msg hmsg i hxid]
    exact ⟨hne, (h.reply msg hmsg hop).1⟩
  · intro hop
    exact (h.reply msg hmsg hop).2
  · intro htype hxid
    exact h.requested msg hmsg (Or.inr htype) i (h.xid msg hmsg i hxid)

theorem Keeps.trans {n'' : Network ι} (h : n.Keeps n') (h' : n'.Keeps n'') : n.Keeps n'' where
  server := ⟨h'.server.pool.trans h.server.pool, h'.server.ipAddress.trans h.server.ipAddress,
    fun ip mac hleases ↦ h'.server.leases ip mac (h.server.leases ip mac hleases)⟩
  mac i := (h'.mac i).trans (h.mac i)
  address i hi := by
    have heq := h.address i hi
    rw [h'.address i (heq ▸ hi), heq]

variable [DecidableEq ι]

theorem Safe.act (h : n.Safe) (hown : n.Own i draw) {P : IPAddress → Prop}
    (hP : ∀ ip, P ip → ip ≠ 0 ∧ n.server.Leases ip (n.clients i).client_mac_address)
    {r : DHCPClient × Option DHCPMessage} (hr : (n.clients i).Acts P draw r) :
    Safe { n with clients := Function.update n.clients i r.1, sent := r.2.toList ++ n.sent } := by
  have hlease := h.lease_of_acts hP hr
  have hmac (j : ι) : (Function.update n.clients i r.1 j).client_mac_address =
      (n.clients j).client_mac_address := by
    by_cases hj : j = i
    · rw [hj, Function.update_self, hr.mac]
    · rw [Function.update_of_ne hj]
  have hisSome (j : ι) (hj : (n.clients j).lease.isSome) :
      (Function.update n.clients i r.1 j).lease.isSome := by
    by_cases hji : j = i
    · rw [hji, Function.update_self]
      exact hr.isSome (hji ▸ hj)
    · rw [Function.update_of_ne hji]
      exact hj
  constructor
  · simp only [hmac]
    exact h.macs
  · exact h.server
  · intro j
    dsimp only
    by_cases hj : j = i
    · rw [hj, Function.update_self]
      exact hr.ready
    · rw [Function.update_of_ne hj]
      exact h.ready j
  · intro j l hl
    dsimp only at hl ⊢
    rw [hmac]
    by_cases hj : j = i
    · rw [hj, Function.update_self] at hl
      rw [hj]
      exact hlease l hl
    · rw [Function.update_of_ne hj] at hl
      exact h.lease j l hl
  · intro j haddress
    dsimp only at haddress ⊢
    rw [hmac]
    by_cases hj : j = i
    · rw [hj, Function.update_self] at haddress ⊢
      rcases hr.address with heq | ⟨l, hl, heq⟩
      · rw [heq] at haddress ⊢
        exact h.address i haddress
      · rw [heq]
        exact (hlease l hl).2
    · rw [Function.update_of_ne hj] at haddress ⊢
      exact h.address j haddress
  · intro m hm hop
    rcases List.mem_append.mp hm with hm | hm
    · have hrequest := hr.request m (by simpa using hm)
      simp [hrequest.1] at hop
    · exact h.reply m hm hop
  · intro m hm j hxid
    dsimp only at hxid ⊢
    rw [hmac]
    rcases List.mem_append.mp hm with hm | hm
    · obtain ⟨-, hdraw, hchaddr, -⟩ := hr.request m (by simpa using hm)
      by_cases hj : j = i
      · rw [hj, hchaddr]
      · rw [Function.update_of_ne hj, hdraw] at hxid
        exact absurd hxid.symm (hown.1 j hj)
    · by_cases hj : j = i
      · rw [hj, Function.update_self] at hxid
        rw [hj]
        rcases hr.xid with hsame | hdraw
        · exact h.xid m hm i (hsame ▸ hxid)
        · exact hown.2 m hm (hdraw ▸ hxid)
      · rw [Function.update_of_ne hj] at hxid
        exact h.xid m hm j hxid
  · intro m hm htype j hchaddr
    dsimp only at hchaddr ⊢
    rw [hmac] at hchaddr
    rcases List.mem_append.mp hm with hm | hm
    · obtain ⟨-, -, hsender, hkind⟩ := hr.request m (by simpa using hm)
      have hj : j = i := h.macs (hchaddr.symm.trans hsender)
      rcases hkind with hdiscover | ⟨-, hisSome⟩
      · simp [hdiscover] at htype
      · rw [hj, Function.update_self]
        exact hisSome
    · exact hisSome j (h.requested m hm htype j hchaddr)

/-- An address that a client configures is the one it had. -/
theorem Safe.keeps_of_acts (h : n.Safe) {P : IPAddress → Prop}
    (hP : ∀ ip, P ip → ip ≠ 0 ∧ n.server.Leases ip (n.clients i).client_mac_address)
    {r : DHCPClient × Option DHCPMessage} (hr : (n.clients i).Acts P draw r) :
    n.Keeps { n with clients := Function.update n.clients i r.1, sent := r.2.toList ++ n.sent } where
  server := DHCPServer.Extends.refl n.server
  mac j := by
    dsimp only
    by_cases hj : j = i
    · rw [hj, Function.update_self, hr.mac]
    · rw [Function.update_of_ne hj]
  address j haddress := by
    dsimp only
    by_cases hj : j = i
    · rw [hj] at haddress ⊢
      rw [Function.update_self]
      rcases hr.address with heq | ⟨l, hl, heq⟩
      · exact heq
      · rw [heq]
        exact h.server.unique _ _ _ (h.lease_of_acts hP hr l hl).2 (h.address i haddress)
    · rw [Function.update_of_ne hj]

theorem Safe.atClient (h : n.Safe) (hown : n.Own i draw) {P : IPAddress → Prop}
    (hP : ∀ ip, P ip → ip ≠ 0 ∧ n.server.Leases ip (n.clients i).client_mac_address)
    {x : Except Fault (DHCPClient × Option DHCPMessage)}
    (hx : Outcome x ((n.clients i).Acts P draw) fun _ ↦ False) :
    Outcome (n.atClient i x) (fun n' ↦ n'.Safe ∧ n.Keeps n') fun _ ↦ False := by
  apply Outcome.map
  apply hx.post
  intro r hr
  exact ⟨h.act hown hP hr, h.keeps_of_acts hP hr⟩

/-- Every event is handled without a fault, and keeps the invariant and the addresses. -/
theorem Safe.step (h : n.Safe) {e : Event ι} (hallowed : n.Allowed e) :
    Outcome (n.step e) (fun n' ↦ n'.Safe ∧ n.Keeps n') fun _ ↦ False := by
  cases e with
  | associated i draw =>
    apply h.atClient (P := fun _ ↦ False) hallowed
    · simp
    · exact DHCPClient.acts_changeFSMState (h.ready i).timer (by simp [ClientState.HasLease])
  | timeout i category draw =>
    apply h.atClient (P := fun _ ↦ False) hallowed.2
    · simp
    · exact DHCPClient.acts_handleTimer (h.ready i) hallowed.1
  | toServer msg =>
    have hserves := DHCPServer.serves_processPacket h.server msg
    exact ⟨h.serve hallowed hserves, hserves.extends_, fun _ ↦ rfl, fun _ _ ↦ rfl⟩
  | toClient i msg draw =>
    apply h.atClient hallowed.2 _ (h.acts_handleDHCPMessage hallowed.1)
    exact fun _ ↦ id

theorem safe_of_reachable (h : Reachable Initial Allowed step n) : n.Safe := by
  apply h.invariant fun _ h0 ↦ h0.safe
  intro n e n' hsafe hallowed hstep
  exact ((hsafe.step hallowed).of_eq_ok hstep).1

instance [Fintype ι] (n : Network ι) (e : Event ι) : Decidable (n.Allowed e) := by
  cases e <;> simp only [Allowed, Own] <;> infer_instance

/-- A server with two addresses for two clients. -/
def lab : Network (Fin 2) where
  server :=
    { pool :=
        { net := 0xC0A80100, mask := 0xFFFFFF00, gateway := 0xC0A80101, ip_begin := 0xC0A8010A, client_num := 2 }
      ipAddress := 0xC0A80102 }
  clients i := { client_mac_address := BitVec.ofNat 48 (i + 1) }

theorem lab_initial : lab.Initial where
  leased := rfl
  clients _ := rfl
  macs := by decide
  sent := rfl

/-- The server's answer with this type. -/
def answer (type : MessageType) (mac : MACAddress) (draw : ℤ) (yiaddr : IPAddress) : DHCPMessage :=
  let lease := { xid := draw, ip := yiaddr, mac, gateway := lab.server.pool.gateway,
                 netmask := lab.server.pool.mask : DHCPLease }
  if type = .DHCPOFFER then lab.server.sendOffer lease else lab.server.sendACK lease

/-- The events in which the client gets this address. -/
def exchange (i : Fin 2) (draw : ℤ) (yiaddr : IPAddress) : List (Event (Fin 2)) :=
  let client := lab.clients i
  let mac := client.client_mac_address
  let request := { client with client_state := .REQUESTING }.sendRequest
    { ip := yiaddr, server_id := lab.server.ipAddress } draw
  [.associated i draw, .toServer (client.sendDiscover draw).2, .toClient i (answer .DHCPOFFER mac draw yiaddr) draw,
    .toServer request.2, .toClient i (answer .DHCPACK mac draw yiaddr) draw]

/-- Both clients get their addresses, the second one while a copy of the first offer is still on its way. -/
def labRun : List (Event (Fin 2)) :=
  exchange 0 5 0xC0A8010A ++ .toClient 1 (answer .DHCPOFFER 1 5 0xC0A8010A) 6 :: exchange 1 6 0xC0A8010B

/-- The run up to where the first client is bound, and then to its end. -/
theorem lab_run : ∃ n n' : Network (Fin 2), Reachable Initial Allowed step n ∧
    Reachable (· = n) Allowed step n' ∧
    (n.clients 0).ipAddress = 0xC0A8010A ∧ n.server.Leases 0xC0A8010A 1 ∧
    (n'.clients 1).ipAddress = 0xC0A8010B := by
  have hfirst : ((run step lab (labRun.take 5)).toOption.any fun n ↦ decide
      ((n.clients 0).ipAddress = 0xC0A8010A ∧ (n.server.leased.find? 0xC0A8010A).map (·.mac) = some 1) &&
        (admits Allowed step n (labRun.drop 5) &&
        ((run step n (labRun.drop 5)).toOption.any fun n' ↦ decide ((n'.clients 1).ipAddress = 0xC0A8010B)))) =
      true := by
    decide +kernel
  have hfirstAdmits : admits Allowed step lab (labRun.take 5) = true := by
    decide +kernel
  obtain ⟨n, hreach, hcheck⟩ := exists_reachable (labRun.take 5) (.start lab_initial) hfirstAdmits hfirst
  simp only [Bool.and_eq_true, decide_eq_true_eq] at hcheck
  obtain ⟨⟨haddress, hleases⟩, hadmits, hsecond⟩ := hcheck
  have hself : Reachable (· = n) Allowed step n := .start rfl
  obtain ⟨n', hreach', haddress'⟩ := exists_reachable (labRun.drop 5) hself hadmits hsecond
  exact ⟨n, n', hreach, hreach', haddress, Option.map_eq_some_iff.mp hleases, of_decide_eq_true haddress'⟩

/-- In every run, different clients have different addresses, which are addresses of the pool, and no host
stops with a fault. -/
theorem addresses_unique (h : Reachable Initial Allowed step n) :
    (∀ i j, (n.clients i).ipAddress ≠ 0 → (n.clients i).ipAddress = (n.clients j).ipAddress → i = j) ∧
      (∀ i, (n.clients i).ipAddress ≠ 0 → n.server.InPool (n.clients i).ipAddress) ∧
      ∀ e, n.Allowed e → ∃ n', n.step e = .ok n' := by
  have hsafe := safe_of_reachable h
  refine ⟨?_, ?_, ?_⟩
  · intro i j hi heq
    have hleases := hsafe.address j (heq ▸ hi)
    rw [← heq] at hleases
    exact hsafe.macs ((hsafe.address i hi).mac_eq hleases)
  · intro i hi
    obtain ⟨lease, hfind, -⟩ := hsafe.address i hi
    exact hsafe.server.inPool _ lease hfind
  · intro e hallowed
    cases hstep : n.step e with
    | error fault => exact ((hsafe.step hallowed).of_eq_error hstep).elim
    | ok n' => exact ⟨n', rfl⟩

theorem addresses_unique_lab : ∃ n n' : Network (Fin 2), Reachable (· = n) Allowed step n' ∧
    (∀ i j, (n'.clients i).ipAddress ≠ 0 → (n'.clients i).ipAddress = (n'.clients j).ipAddress → i = j) ∧
    (n.clients 0).ipAddress = 0xC0A8010A ∧ (n'.clients 1).ipAddress = 0xC0A8010B := by
  obtain ⟨n, n', hreach, hreach', haddress, -, haddress'⟩ := lab_run
  exact ⟨n, n', hreach', (addresses_unique (hreach.trans hreach')).1, haddress, haddress'⟩

/-- What has been leased and configured stays so in every later state. -/
theorem Safe.keeps (h : n.Safe) (h' : Reachable (· = n) Allowed Network.step n') : n'.Safe ∧ n.Keeps n' := by
  apply h'.invariant
  · intro n₀ heq
    rw [heq]
    exact ⟨h, DHCPServer.Extends.refl n.server, fun _ ↦ rfl, fun _ _ ↦ rfl⟩
  · intro n₁ e n₂ h₁ hallowed hstep
    obtain ⟨hsafe, hkeeps⟩ := (h₁.1.step hallowed).of_eq_ok hstep
    exact ⟨hsafe, h₁.2.trans hkeeps⟩

/-- Whatever happens after a state, the server neither takes a lease back nor gives its address to another
client, and a client that has an address keeps that address. -/
theorem lease_forever (h : Reachable Initial Allowed step n) (h' : Reachable (· = n) Allowed step n') :
    (∀ ip mac, n.server.Leases ip mac → ∀ mac', n'.server.Leases ip mac' ↔ mac' = mac) ∧
      ∀ i, (n.clients i).ipAddress ≠ 0 → (n'.clients i).ipAddress = (n.clients i).ipAddress := by
  obtain ⟨-, hkeeps⟩ := (safe_of_reachable h).keeps h'
  refine ⟨?_, hkeeps.address⟩
  intro ip mac hleases mac'
  have hleases' := hkeeps.server.leases ip mac hleases
  constructor
  · intro hother
    exact hother.mac_eq hleases'
  · intro heq
    rw [heq]
    exact hleases'

theorem lease_forever_lab : ∃ n n' : Network (Fin 2), (n.clients 0).ipAddress = 0xC0A8010A ∧
    (n'.clients 0).ipAddress = 0xC0A8010A ∧ (n'.clients 1).ipAddress = 0xC0A8010B ∧
    ∀ mac, n'.server.Leases 0xC0A8010A mac ↔ mac = 1 := by
  obtain ⟨n, n', hreach, hreach', haddress, hleases, haddress'⟩ := lab_run
  obtain ⟨hforever, hkeep⟩ := lease_forever hreach hreach'
  refine ⟨n, n', haddress, ?_, haddress', hforever _ _ hleases⟩
  rw [hkeep 0 (by rw [haddress]; decide), haddress]

end Network

end InetManet.DHCP
