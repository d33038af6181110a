import InetManet.DHCP.Hosts

/-!
# Steps of DHCP hosts

What the server and a client do with one event. A server whose leases are `Consistent` keeps them, and its
replies confirm leases that it has. A client that is `Ready` has the lease that it is going to work on: it
does not fault, and it configures no other address than that of its lease.
-/

namespace InetManet.DHCP

open TransitionSystem

/-! ## What the server does -/

namespace DHCPServer

variable {s s' : DHCPServer} {ip ip' : IPAddress} {mac : MACAddress} {lease : DHCPLease}

/-- The address is one of the pool. -/
def InPool (s : DHCPServer) (ip : IPAddress) : Prop :=
  ∃ k < s.pool.client_num.toNat, ip = s.pool.ip_begin + BitVec.ofNat 32 k

/-- The address is leased to the hardware address. -/
def Leases (s : DHCPServer) (ip : IPAddress) (mac : MACAddress) : Prop :=
  ∃ lease, s.leased.find? ip = some lease ∧ lease.mac = mac

structure Consistent (s : DHCPServer) : Prop where
  ip_eq : ∀ ip lease, s.leased.find? ip = some lease → lease.ip = ip
  leased : ∀ ip lease, s.leased.find? ip = some lease → lease.leased = true
  inPool : ∀ ip lease, s.leased.find? ip = some lease → s.InPool ip
  unique : ∀ ip ip' mac, s.Leases ip mac → s.Leases ip' mac → ip = ip'

/-- Nothing that was leased is taken back. -/
structure Extends (s s' : DHCPServer) : Prop where
  pool : s'.pool = s.pool
  ipAddress : s'.ipAddress = s.ipAddress
  leases : ∀ ip mac, s.Leases ip mac → s'.Leases ip mac

theorem Extends.refl (s : DHCPServer) : Extends s s := ⟨rfl, rfl, fun _ _ h ↦ h⟩

theorem Leases.mac_eq {mac' : MACAddress} (h : s.Leases ip mac) (h' : s.Leases ip mac') : mac = mac' := by
  obtain ⟨lease, hfind, hmac⟩ := h
  obtain ⟨lease', hfind', hmac'⟩ := h'
  rw [hfind, Option.some_inj] at hfind'
  rw [← hmac, ← hmac', hfind']

theorem leases_store_iff :
    (s.store ip lease).Leases ip' mac ↔ (ip' = ip ∧ lease.mac = mac) ∨ (ip' ≠ ip ∧ s.Leases ip' mac) := by
  unfold Leases store
  by_cases h : ip' = ip
  · simp [h]
  · simp [h, OrderedMap.find?_insert]

theorem Consistent.store (h : s.Consistent) (hip : lease.ip = ip) (hleased : lease.leased = true)
    (hpool : s.InPool ip) (hmac : ∀ ip', s.Leases ip' lease.mac → ip' = ip) :
    (s.store ip lease).Consistent where
  ip_eq ip' lease' hfind := by
    rw [DHCPServer.store, OrderedMap.find?_insert] at hfind
    split at hfind
    · rename_i heq
      rw [← Option.some_inj.mp hfind, hip, heq]
    · exact h.ip_eq ip' lease' hfind
  leased ip' lease' hfind := by
    rw [DHCPServer.store, OrderedMap.find?_insert] at hfind
    split at hfind
    · rw [← Option.some_inj.mp hfind, hleased]
    · exact h.leased ip' lease' hfind
  inPool ip' lease' hfind := by
    rw [DHCPServer.store, OrderedMap.find?_insert] at hfind
    split at hfind
    · rename_i heq
      rw [heq]
      exact hpool
    · exact h.inPool ip' lease' hfind
  unique ip₁ ip₂ mac h₁ h₂ := by
    rw [leases_store_iff] at h₁ h₂
    rcases h₁ with ⟨heq₁, hmac₁⟩ | ⟨-, h₁⟩
    · rcases h₂ with ⟨heq₂, -⟩ | ⟨-, h₂⟩
      · rw [heq₁, heq₂]
      · rw [← hmac₁] at h₂
        rw [heq₁, hmac ip₂ h₂]
    · rcases h₂ with ⟨heq₂, hmac₂⟩ | ⟨-, h₂⟩
      · rw [← hmac₂] at h₁
        rw [heq₂, hmac ip₁ h₁]
      · exact h.unique ip₁ ip₂ mac h₁ h₂

/-- A lease is stored where there was none, or for the hardware address that has it. -/
theorem extends_store (h : ∀ mac, s.Leases ip mac → lease.mac = mac) : Extends s (s.store ip lease) where
  pool := rfl
  ipAddress := rfl
  leases ip' mac hleases := by
    rw [leases_store_iff]
    by_cases heq : ip' = ip
    · rw [heq] at hleases
      exact Or.inl ⟨heq, h mac hleases⟩
    · exact Or.inr ⟨heq, hleases⟩

theorem getLeaseByMac_some (h : s.getLeaseByMac mac = some (ip, lease)) :
    s.leased.find? ip = some lease ∧ lease.mac = mac := by
  obtain ⟨hfind, hmac, -⟩ := OrderedMap.findFirst?_eq_some h
  exact ⟨hfind, by simpa using hmac⟩

theorem getLeaseByMac_none (h : s.getLeaseByMac mac = none) (ip : IPAddress) : ¬ s.Leases ip mac := by
  intro hleases
  obtain ⟨lease, hfind, hmac⟩ := hleases
  have hne := OrderedMap.findFirst?_eq_none h hfind
  simp [hmac] at hne

/-- No lease expires, and so the address is one that was never leased. -/
theorem availableLoop_some (h : s.Consistent) {is : List ℕ} (hsome : s.availableLoop is = some (ip, lease)) :
    (∃ i ∈ is, ip = s.pool.ip_begin + BitVec.ofNat 32 i) ∧ s.leased.find? ip = none ∧ lease.ip = ip := by
  induction is with
  | nil => simp [availableLoop] at hsome
  | cons i rest ih =>
    simp only [availableLoop] at hsome
    split at hsome
    · rename_i found hfind
      rw [h.leased _ found hfind] at hsome
      obtain ⟨hin, hnone⟩ := ih (by simpa using hsome)
      obtain ⟨j, hj, heq⟩ := hin
      exact ⟨⟨j, List.mem_cons_of_mem i hj, heq⟩, hnone⟩
    · rename_i hfind
      rw [Option.some_inj, Prod.mk.injEq] at hsome
      rw [← hsome.1, ← hsome.2]
      exact ⟨⟨i, List.mem_cons_self, rfl⟩, hfind, rfl⟩

/-- The addresses in the options can be read back. -/
def Readable (o : DHCPOption) : Prop :=
  ∃ server_id netmask router : IPAddress, o.SERVER_ID = some server_id.str ∧
    o.SUBNET_MASK = some netmask.str ∧ o.ROUTER = some router.str

/-- A reply confirms an address that is leased to the hardware address that it names. -/
structure Answers (s : DHCPServer) (packet answer : DHCPMessage) : Prop where
  op : answer.op = .BOOTREPLY
  xid : answer.xid = packet.xid
  chaddr : answer.chaddr = packet.chaddr
  leases : s.Leases answer.yiaddr answer.chaddr
  readable : Readable answer.options
  type : (answer.options.DHCP_MSG_TYPE = .DHCPOFFER ∧ packet.options.DHCP_MSG_TYPE = .DHCPDISCOVER) ∨
    (answer.options.DHCP_MSG_TYPE = .DHCPACK ∧ packet.options.DHCP_MSG_TYPE = .DHCPREQUEST)

/-- The server keeps its leases and answers from them. -/
structure Serves (s : DHCPServer) (packet : DHCPMessage) (r : DHCPServer × Option DHCPMessage) : Prop where
  consistent : r.1.Consistent
  extends_ : Extends s r.1
  answers : ∀ answer, r.2 = some answer → Answers r.1 packet answer

theorem serves_none (h : s.Consistent) (packet : DHCPMessage) : Serves s packet (s, none) where
  consistent := h
  extends_ := Extends.refl s
  answers := by simp

variable {packet : DHCPMessage}

theorem serves_store (h : s.Consistent) (hip : lease.ip = ip) (hleased : lease.leased = true)
    (hpool : s.InPool ip) (hmac : ∀ ip', s.Leases ip' lease.mac → ip' = ip)
    (hkeep : ∀ mac, s.Leases ip mac → lease.mac = mac) (hxid : lease.xid = packet.xid)
    (hchaddr : lease.mac = packet.chaddr) {answer : DHCPMessage}
    (hanswer : (answer = s.sendOffer lease ∧ packet.options.DHCP_MSG_TYPE = .DHCPDISCOVER) ∨
      answer = s.sendACK lease ∧ packet.options.DHCP_MSG_TYPE = .DHCPREQUEST) :
    Serves s packet (s.store ip lease, some answer) where
  consistent := h.store hip hleased hpool hmac
  extends_ := extends_store hkeep
  answers a ha := by
    have hleases : (s.store ip lease).Leases lease.ip lease.mac := by
      rw [leases_store_iff]
      exact Or.inl ⟨hip, rfl⟩
    rw [← Option.some_inj.mp ha]
    rcases hanswer with ⟨hoffer, htype⟩ | ⟨hack, htype⟩
    · rw [hoffer]
      exact ⟨rfl, hxid, hchaddr, hleases, ⟨_, _, _, rfl, rfl, rfl⟩, Or.inl ⟨rfl, htype⟩⟩
    · rw [hack]
      exact ⟨rfl, hxid, hchaddr, hleases, ⟨_, _, _, rfl, rfl, rfl⟩, Or.inr ⟨rfl, htype⟩⟩

theorem serves_registered (h : s.Consistent) (hlease : s.getLeaseByMac packet.chaddr = some (ip, lease))
    {lease' : DHCPLease} (hip : lease'.ip = lease.ip) (hmac : lease'.mac = lease.mac)
    (hleased : lease'.leased = true) (hxid : lease'.xid = packet.xid) {answer : DHCPMessage}
    (hanswer : (answer = s.sendOffer lease' ∧ packet.options.DHCP_MSG_TYPE = .DHCPDISCOVER) ∨
      answer = s.sendACK lease' ∧ packet.options.DHCP_MSG_TYPE = .DHCPREQUEST) :
    Serves s packet (s.store ip lease', some answer) := by
  obtain ⟨hfind, hchaddr⟩ := getLeaseByMac_some hlease
  have hleases : s.Leases ip lease'.mac := ⟨lease, hfind, hmac.symm⟩
  apply serves_store h _ hleased (h.inPool ip lease hfind) _ _ hxid (hmac.trans hchaddr) hanswer
  · rw [hip]
    exact h.ip_eq ip lease hfind
  · intro ip' hleases'
    exact h.unique ip' ip _ hleases' hleases
  · intro mac hleases'
    exact hleases.mac_eq hleases'

theorem serves_processPacket (h : s.Consistent) (packet : DHCPMessage) :
    Serves s packet (s.processPacket packet) := by
  unfold processPacket
  split
  · exact serves_none h packet
  · split
    · rename_i htype
      split
      · rename_i hnone
        split
        · rename_i ip lease hsome
          obtain ⟨hin, hfind, hip⟩ := availableLoop_some h hsome
          obtain ⟨i, hi, heq⟩ := hin
          apply serves_store h
          · exact hip
          · rfl
          · exact ⟨i, List.mem_range.mp hi, heq⟩
          · intro ip' hleases
            exact absurd hleases (getLeaseByMac_none hnone ip')
          · intro mac hleases
            obtain ⟨found, hfound, -⟩ := hleases
            simp [hfind] at hfound
          · rfl
          · rfl
          · exact Or.inl ⟨rfl, htype⟩
        · exact serves_none h packet
      · rename_i ip lease hsome
        have hleased := h.leased ip lease (getLeaseByMac_some hsome).1
        apply serves_registered h hsome
        · rfl
        · rfl
        · exact hleased
        · rfl
        · exact Or.inl ⟨rfl, htype⟩
    · rename_i htype
      split
      · exact serves_none h packet
      · rename_i ip lease hsome
        have hleased := h.leased ip lease (getLeaseByMac_some hsome).1
        split
        · apply serves_registered h hsome
          · rfl
          · rfl
          · exact hleased
          · rfl
          · exact Or.inr ⟨rfl, htype⟩
        · apply serves_registered h hsome
          · rfl
          · rfl
          · rfl
          · rfl
          · exact Or.inr ⟨rfl, htype⟩
    · exact serves_none h packet

end DHCPServer

/-! ## What a client does -/

/-- The states in which the client has a lease to ask for. -/
def ClientState.HasLease (state : ClientState) : Prop :=
  state = .REQUESTING ∨ state = .BOUND ∨ state = .RENEWING ∨ state = .REBINDING

namespace DHCPClient

variable {c c₀ : DHCPClient} {draw : ℤ} {P : IPAddress → Prop} {r : DHCPClient × Option DHCPMessage}

/-- The client has the lease that it is going to work on. -/
structure Ready (c : DHCPClient) : Prop where
  state : c.client_state.HasLease → c.lease.isSome
  timer : c.timer_t1 = true → c.lease.isSome

/-- A lease that is new is for an address that satisfies `P`, and the address that is configured is that of
the lease. -/
structure Acts (P : IPAddress → Prop) (c : DHCPClient) (draw : ℤ) (r : DHCPClient × Option DHCPMessage) :
    Prop where
  ready : r.1.Ready
  mac : r.1.client_mac_address = c.client_mac_address
  xid : r.1.xid = c.xid ∨ r.1.xid = draw
  isSome : c.lease.isSome → r.1.lease.isSome
  lease : ∀ l, r.1.lease = some l → (∃ l', c.lease = some l' ∧ l.ip = l'.ip) ∨ P l.ip
  address : r.1.ipAddress = c.ipAddress ∨ ∃ l, r.1.lease = some l ∧ r.1.ipAddress = l.ip
  request : ∀ m, r.2 = some m → m.op = .BOOTREQUEST ∧ m.xid = draw ∧ m.chaddr = c.client_mac_address ∧
    (m.options.DHCP_MSG_TYPE = .DHCPDISCOVER ∨ m.options.DHCP_MSG_TYPE = .DHCPREQUEST ∧ r.1.lease.isSome)

theorem Acts.weaken (h : Acts (fun _ ↦ False) c₀ draw r) (hmac : c₀.client_mac_address = c.client_mac_address)
    (hxid : c₀.xid = c.xid) (haddress : c₀.ipAddress = c.ipAddress) (hisSome : c.lease.isSome → c₀.lease.isSome)
    (hlease : ∀ l, c₀.lease = some l → (∃ l', c.lease = some l' ∧ l.ip = l'.ip) ∨ P l.ip) :
    Acts P c draw r where
  ready := h.ready
  mac := h.mac.trans hmac
  xid := hxid ▸ h.xid
  isSome hc := h.isSome (hisSome hc)
  lease l hl := by
    rcases h.lease l hl with ⟨l', hl', hip⟩ | hfalse
    · rw [hip]
      exact hlease l' hl'
    · exact hfalse.elim
  address := haddress ▸ h.address
  request m hm := hmac ▸ h.request m hm

theorem Acts.of_eq (h : Acts (fun _ ↦ False) c₀ draw r) (hmac : c₀.client_mac_address = c.client_mac_address)
    (hxid : c₀.xid = c.xid) (haddress : c₀.ipAddress = c.ipAddress) (hlease : c₀.lease = c.lease) :
    Acts P c draw r :=
  h.weaken hmac hxid haddress (hlease ▸ id) fun l hl ↦ Or.inl ⟨l, hlease ▸ hl, rfl⟩

theorem acts_none (h : c.Ready) : Acts P c draw (c, none) where
  ready := h
  mac := rfl
  xid := Or.inl rfl
  isSome := id
  lease l hl := Or.inl ⟨l, hl, rfl⟩
  address := Or.inl rfl
  request := by simp

theorem acts_request {lease : DHCPLease} (hlease : c.lease = some lease) :
    Outcome (c.request draw) (Acts P c draw) fun _ ↦ False := by
  simp only [request, hlease, outcome_ok]
  constructor
  · constructor <;> simp [sendRequest, scheduleTimer_TO, hlease]
  · rfl
  · exact Or.inr rfl
  · exact id
  · intro l hl
    exact Or.inl ⟨l, hl, rfl⟩
  · exact Or.inl rfl
  · intro m hm
    rw [← Option.some_inj.mp hm]
    exact ⟨rfl, rfl, rfl, Or.inr ⟨rfl, by simp [sendRequest, scheduleTimer_TO, hlease]⟩⟩

theorem acts_select (draw : ℤ) (h : c.timer_t1 = true → c.lease.isSome) :
    Acts P c draw ((c.select draw).1, some (c.select draw).2) where
  ready := ⟨by simp [select, sendDiscover, scheduleTimer_TO, ClientState.HasLease], h⟩
  mac := rfl
  xid := Or.inr rfl
  isSome := id
  lease l hl := Or.inl ⟨l, hl, rfl⟩
  address := Or.inl rfl
  request m hm := by
    rw [← Option.some_inj.mp hm]
    exact ⟨rfl, rfl, rfl, Or.inl rfl⟩

/-- A change of state does not fault where the new state has its lease. -/
theorem acts_changeFSMState {new_state : ClientState} (htimer : c.timer_t1 = true → c.lease.isSome)
    (hstate : new_state.HasLease → c.lease.isSome) :
    Outcome (c.changeFSMState new_state draw) (Acts (fun _ ↦ False) c draw) fun _ ↦ False := by
  unfold changeFSMState
  cases new_state with
  | IDLE =>
    have hready : ({ c with client_state := .IDLE } : DHCPClient).Ready :=
      ⟨by simp [ClientState.HasLease], htimer⟩
    exact (acts_none hready).of_eq rfl rfl rfl rfl
  | INIT =>
    have htimers : { c with client_state := .INIT }.cancelTimers.timer_t1 = true → c.lease.isSome := by
      simp [cancelTimers]
    exact (acts_select draw htimers).of_eq rfl rfl rfl rfl
  | SELECTING =>
    exact (acts_select (c := { c with client_state := .SELECTING }) draw htimer).of_eq rfl rfl rfl rfl
  | REQUESTING =>
    obtain ⟨lease, hlease⟩ := Option.isSome_iff_exists.mp (hstate (by simp [ClientState.HasLease]))
    apply (acts_request (c := { c with client_state := .REQUESTING }) hlease).post
    intro r hr
    exact hr.of_eq rfl rfl rfl rfl
  | BOUND =>
    have hsome := hstate (by simp [ClientState.HasLease])
    obtain ⟨lease, hlease⟩ := Option.isSome_iff_exists.mp hsome
    simp only [hlease, outcome_ok]
    constructor
    · exact ⟨fun _ ↦ rfl, fun _ ↦ rfl⟩
    · rfl
    · exact Or.inl rfl
    · exact fun _ ↦ rfl
    · intro l hl
      exact Or.inl ⟨l, hlease.trans hl, rfl⟩
    · exact Or.inr ⟨lease, rfl, rfl⟩
    · simp
  | RENEWING =>
    obtain ⟨lease, hlease⟩ := Option.isSome_iff_exists.mp (hstate (by simp [ClientState.HasLease]))
    apply (acts_request (c := { c with client_state := .RENEWING }) hlease).post
    intro r hr
    exact hr.of_eq rfl rfl rfl rfl
  | REBINDING =>
    obtain ⟨lease, hlease⟩ := Option.isSome_iff_exists.mp (hstate (by simp [ClientState.HasLease]))
    apply (acts_request (c := cancelTimers { c with client_state := .REBINDING }) hlease).post
    intro r hr
    exact hr.of_eq rfl rfl rfl rfl

/-- The timer was scheduled. -/
def Scheduled (c : DHCPClient) : TimerType → Prop
  | .T1 => c.timer_t1 = true
  | .T2 => c.timer_t2 = true
  | category => c.timer_to = some category

instance (c : DHCPClient) : DecidablePred c.Scheduled := fun category ↦ by
  cases category <;> simp only [Scheduled] <;> infer_instance

theorem acts_handleTimer (h : c.Ready) {category : TimerType} (hscheduled : c.Scheduled category) :
    Outcome (c.handleTimer category draw) (Acts P c draw) fun _ ↦ False := by
  unfold handleTimer
  cases category with
  | WAIT_OFFER =>
    dsimp only
    apply Outcome.ite
    · intro _
      apply Outcome.map
      apply (acts_changeFSMState (c := { c with timer_to := none }) h.timer
        (by simp [ClientState.HasLease])).post
      intro r hr
      exact ⟨⟨hr.ready.state, hr.ready.timer⟩, hr.mac, hr.xid, hr.isSome,
        fun l hl ↦ (hr.lease l hl).imp id False.elim, hr.address, hr.request⟩
    · intro _
      apply (acts_changeFSMState (c := { c with timer_to := none, retry_count := 0 }) h.timer
        (by simp [ClientState.HasLease])).post
      intro r hr
      exact hr.of_eq rfl rfl rfl rfl
  | WAIT_ACK =>
    have hchange (new_state : ClientState) (hstate : c.client_state = new_state) :
        Outcome (changeFSMState { c with
          timer_to := none
          retry_count := if c.retry_count < retry_max then c.retry_count + 1 else 0 } new_state draw)
          (Acts P c draw) fun _ ↦ False := by
      apply (acts_changeFSMState (c := { c with timer_to := none, retry_count := _ }) h.timer
        (fun hlease ↦ h.state (hstate ▸ hlease))).post
      intro r hr
      exact hr.of_eq rfl rfl rfl rfl
    dsimp only
    split
    · exact hchange _ ‹_›
    · exact hchange _ ‹_›
    · exact hchange _ ‹_›
    · have hready : Ready { c with
          timer_to := none
          retry_count := if c.retry_count < retry_max then c.retry_count + 1 else 0 } :=
        ⟨h.state, h.timer⟩
      exact (acts_none hready).of_eq rfl rfl rfl rfl
  | T1 =>
    apply (acts_changeFSMState (c := { c with timer_t1 := false }) (by simp)
      fun _ ↦ h.timer hscheduled).post
    intro r hr
    exact hr.of_eq rfl rfl rfl rfl
  | T2 =>
    dsimp only
    apply Outcome.ite
    · intro hstate
      apply (acts_changeFSMState (c := { c with timer_t2 := false }) h.timer
        fun _ ↦ h.state (Or.inr (Or.inr (Or.inl hstate)))).post
      intro r hr
      exact hr.of_eq rfl rfl rfl rfl
    · intro _
      exact (acts_none (c := { c with timer_t2 := false }) ⟨h.state, h.timer⟩).of_eq rfl rfl rfl rfl

theorem readAddress_outcome (addr old : IPAddress) :
    Outcome (readAddress addr.str old) (fun _ ↦ True) fun _ ↦ False := by
  unfold readAddress
  apply Outcome.ite
  · intro _
    rw [IPAddress.set_str]
    trivial
  · intro _
    trivial

theorem confirm_outcome {lease : DHCPLease} {options : DHCPOption} (h : DHCPServer.Readable options) :
    Outcome (confirm lease options) (fun l ↦ l.ip = lease.ip) fun _ ↦ False := by
  obtain ⟨server_id, netmask, router, -, hnetmask, hrouter⟩ := h
  simp only [confirm, hnetmask, hrouter, getText, Option.getD_some]
  apply (readAddress_outcome netmask _).bind
  intro mask _
  apply (readAddress_outcome router _).bind
  intro gateway _
  apply (readAddress_outcome router _).bind
  intro dns _
  rfl

theorem acts_handleDHCPMessage (h : c.Ready) {msg : DHCPMessage}
    (hreadable : msg.op = .BOOTREPLY → DHCPServer.Readable msg.options)
    (hack : msg.options.DHCP_MSG_TYPE = .DHCPACK → msg.xid = c.xid → c.lease.isSome) :
    Outcome (c.handleDHCPMessage msg draw)
      (Acts (fun ip ↦ msg.op = .BOOTREPLY ∧ msg.xid = c.xid ∧ msg.yiaddr ≠ 0 ∧ ip = msg.yiaddr) c draw)
      fun _ ↦ False := by
  unfold handleDHCPMessage
  split
  · rename_i hreply
    obtain ⟨server_id, _, _, hserver_id, -, -⟩ := hreadable hreply.1
    have hset : IPAddress.set (getText msg.options.SERVER_ID) = some server_id := by
      rw [hserver_id]
      exact IPAddress.set_str server_id
    split
    · split
      · rename_i hoffer
        rw [hset]
        apply (acts_changeFSMState (c := { c with lease := some _ }) (fun _ ↦ rfl) fun _ ↦ rfl).post
        intro r hr
        refine hr.weaken rfl rfl rfl (fun _ ↦ rfl) ?_
        intro l hl
        rw [← Option.some_inj.mp hl]
        exact Or.inr ⟨hreply.1, hreply.2, hoffer.2, rfl⟩
      · exact acts_none h
    · rename_i htype
      obtain ⟨lease, hlease⟩ := Option.isSome_iff_exists.mp (hack htype hreply.2)
      split
      · rw [hset, hlease]
        apply (confirm_outcome (hreadable hreply.1)).bind
        intro confirmed hconfirmed
        apply (acts_changeFSMState (c := { c with lease := some confirmed }) (fun _ ↦ rfl) fun _ ↦ rfl).post
        intro r hr
        refine hr.weaken rfl rfl rfl (fun _ ↦ rfl) ?_
        intro l hl
        rw [← Option.some_inj.mp hl]
        exact Or.inl ⟨lease, hlease, hconfirmed⟩
      · exact acts_none h
    · exact acts_none h
  · exact acts_none h

end DHCPClient

end InetManet.DHCP
