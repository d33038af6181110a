import InetManet.Library.OrderedMap
import InetManet.Library.TransitionSystem
import InetManet.Network.IPAddressText

/-!
# DHCP servers and clients

A server leases the addresses of its pool to hardware addresses, and a client goes through discovery,
request, renewal and rebinding. The state of a timer is whether it is scheduled, and the transaction ids
that a client draws are arguments. Messages have the fields and the options that one of the hosts reads.
-/

namespace InetManet.DHCP

open TransitionSystem

abbrev MACAddress := BitVec 48

inductive Opcode
  | BOOTREQUEST
  | BOOTREPLY
  deriving DecidableEq

inductive MessageType
  | DHCPDISCOVER
  | DHCPOFFER
  | DHCPREQUEST
  | DHCPACK
  deriving DecidableEq

inductive Fault
  /-- The client has no lease to work on. -/
  | nullLease
  /-- `IPAddress::set` stops with an error. -/
  | invalidAddress
  deriving DecidableEq

/-- The options by their codes; texts are those of addresses. -/
structure DHCPOption where
  DHCP_MSG_TYPE : MessageType
  SERVER_ID : Option (List Char) := none
  REQUESTED_IP : Option (List Char) := none
  SUBNET_MASK : Option (List Char) := none
  ROUTER : Option (List Char) := none
  DNS : Option (List Char) := none
  deriving DecidableEq

structure DHCPMessage where
  op : Opcode
  xid : ℤ
  ciaddr : IPAddress := 0
  yiaddr : IPAddress := 0
  giaddr : IPAddress := 0
  chaddr : MACAddress
  options : DHCPOption
  deriving DecidableEq

/-- An option that is not there is read as a single zero byte. -/
def getText (option : Option (List Char)) : List Char := option.getD ['\x00']

structure DHCPLease where
  xid : ℤ := 0
  ip : IPAddress := 0
  mac : MACAddress := 0
  gateway : IPAddress := 0
  network : IPAddress := 0
  netmask : IPAddress := 0
  dns : IPAddress := 0
  server_id : IPAddress := 0
  leased : Bool := false

/-! ## The server -/

/-- The addresses that are assigned and what comes with them. -/
structure Pool where
  net : IPAddress
  mask : IPAddress
  gateway : IPAddress
  ip_begin : IPAddress
  client_num : ℤ

structure DHCPServer where
  pool : Pool
  /-- The address of the interface that the server listens on. -/
  ipAddress : IPAddress
  leased : OrderedMap IPAddress DHCPLease := OrderedMap.empty

namespace DHCPServer

variable (s : DHCPServer)

def sendOffer (lease : DHCPLease) : DHCPMessage where
  op := .BOOTREPLY
  xid := lease.xid
  yiaddr := lease.ip
  giaddr := lease.gateway
  chaddr := lease.mac
  options :=
    { DHCP_MSG_TYPE := .DHCPOFFER
      SUBNET_MASK := some lease.netmask.str
      DNS := some lease.dns.str
      ROUTER := some lease.gateway.str
      SERVER_ID := some s.ipAddress.str }

def sendACK (lease : DHCPLease) : DHCPMessage where
  op := .BOOTREPLY
  xid := lease.xid
  ciaddr := lease.ip
  yiaddr := lease.ip
  chaddr := lease.mac
  options :=
    { DHCP_MSG_TYPE := .DHCPACK
      SUBNET_MASK := some lease.netmask.str
      ROUTER := some lease.gateway.str
      DNS := some lease.dns.str
      SERVER_ID := some s.ipAddress.str }

/-- The first lease with this hardware address, with its key. -/
def getLeaseByMac (mac : MACAddress) : Option (IPAddress × DHCPLease) :=
  s.leased.findFirst? (·.mac == mac)

/-- The lease of a free address of the pool, with its key. -/
def availableLoop (s : DHCPServer) : List ℕ → Option (IPAddress × DHCPLease)
  | [] => none
  | i :: rest =>
    let ip := s.pool.ip_begin + BitVec.ofNat 32 i
    match s.leased.find? ip with
    | some lease => if !lease.leased then some (ip, lease) else availableLoop s rest
    | none =>
      some (ip, { ip, gateway := s.pool.gateway, netmask := s.pool.mask, network := s.pool.net })

def getAvailableLease : Option (IPAddress × DHCPLease) :=
  s.availableLoop (List.range s.pool.client_num.toNat)

def store (ip : IPAddress) (lease : DHCPLease) : DHCPServer :=
  { s with leased := s.leased.insert ip lease }

/-- The server afterwards and its answer. -/
def processPacket (packet : DHCPMessage) : DHCPServer × Option DHCPMessage :=
  match packet.op with
  | .BOOTREPLY => (s, none)
  | .BOOTREQUEST =>
    match packet.options.DHCP_MSG_TYPE with
    | .DHCPDISCOVER =>
      match s.getLeaseByMac packet.chaddr with
      | none =>
        match s.getAvailableLease with
        | some (ip, lease) =>
          let lease := { lease with mac := packet.chaddr, xid := packet.xid, leased := true }
          (s.store ip lease, some (s.sendOffer lease))
        | none => (s, none)
      | some (ip, lease) =>
        let lease := { lease with xid := packet.xid }
        (s.store ip lease, some (s.sendOffer lease))
    | .DHCPREQUEST =>
      match s.getLeaseByMac packet.chaddr with
      | none => (s, none)
      | some (ip, lease) =>
        if getText packet.options.SERVER_ID = s.ipAddress.str then
          let lease := { lease with xid := packet.xid }
          (s.store ip lease, some (s.sendACK lease))
        else
          let lease := { lease with xid := packet.xid, leased := true }
          (s.store ip lease, some (s.sendACK lease))
    | _ => (s, none)

end DHCPServer

/-! ## The client -/

inductive ClientState
  | IDLE
  | INIT
  | SELECTING
  | REQUESTING
  | BOUND
  | RENEWING
  | REBINDING
  deriving DecidableEq

inductive TimerType
  | WAIT_OFFER
  | WAIT_ACK
  | T1
  | T2
  deriving DecidableEq

structure DHCPClient where
  client_mac_address : MACAddress
  client_state : ClientState := .IDLE
  xid : ℤ := 0
  retry_count : ℕ := 0
  lease : Option DHCPLease := none
  timer_t1 : Bool := false
  timer_t2 : Bool := false
  /-- What the timer that is scheduled waits for. -/
  timer_to : Option TimerType := none
  /-- The address and the netmask of the interface. -/
  ipAddress : IPAddress := 0
  netmask : IPAddress := 0

namespace DHCPClient

def retry_max : ℕ := 10

variable (c : DHCPClient)

def sendDiscover (draw : ℤ) : DHCPClient × DHCPMessage :=
  ({ c with xid := draw },
    { op := .BOOTREQUEST
      xid := draw
      chaddr := c.client_mac_address
      options := { DHCP_MSG_TYPE := .DHCPDISCOVER, REQUESTED_IP := some "0.0.0.0".toList } })

/-- The server and the address are named only in answer to an offer. -/
def sendRequest (lease : DHCPLease) (draw : ℤ) : DHCPClient × DHCPMessage :=
  ({ c with xid := draw },
    { op := .BOOTREQUEST
      xid := draw
      chaddr := c.client_mac_address
      ciaddr := if c.client_state = .REQUESTING then 0 else lease.ip
      options :=
        { DHCP_MSG_TYPE := .DHCPREQUEST
          SERVER_ID := if c.client_state = .REQUESTING then some lease.server_id.str else none
          REQUESTED_IP := if c.client_state = .REQUESTING then some lease.ip.str else none } })

def scheduleTimer_TO (type : TimerType) : DHCPClient := { c with timer_to := some type }

def cancelTimers : DHCPClient :=
  { c with timer_t1 := false, timer_t2 := false, timer_to := none }

/-- `SELECTING`: an offer is asked for. -/
def select (draw : ℤ) : DHCPClient × DHCPMessage :=
  let (c, discover) := { c with client_state := .SELECTING }.sendDiscover draw
  (c.scheduleTimer_TO .WAIT_OFFER, discover)

/-- A request for the lease, and the wait for its answer. -/
def request (draw : ℤ) : Except Fault (DHCPClient × Option DHCPMessage) :=
  match c.lease with
  | none => .error .nullLease
  | some lease =>
    let (c, request) := c.sendRequest lease draw
    .ok (c.scheduleTimer_TO .WAIT_ACK, some request)

/-- The client afterwards and what it sends. -/
def changeFSMState (new_state : ClientState) (draw : ℤ) :
    Except Fault (DHCPClient × Option DHCPMessage) :=
  let c := { c with client_state := new_state }
  match new_state with
  | .IDLE => .ok (c, none)
  | .INIT =>
    let (c, discover) := c.cancelTimers.select draw
    .ok (c, some discover)
  | .SELECTING =>
    let (c, discover) := c.select draw
    .ok (c, some discover)
  | .REQUESTING => c.request draw
  | .BOUND =>
    match c.lease with
    | none => .error .nullLease
    | some lease => .ok
      ({ c with
        timer_to := none
        timer_t1 := true
        timer_t2 := true
        ipAddress := lease.ip
        netmask := lease.netmask }, none)
  | .RENEWING => c.request draw
  | .REBINDING => c.cancelTimers.request draw

/-- The timer has gone off. -/
def handleTimer (category : TimerType) (draw : ℤ) :
    Except Fault (DHCPClient × Option DHCPMessage) :=
  match category with
  | .WAIT_OFFER =>
    let c := { c with timer_to := none }
    if c.retry_count < retry_max then
      (c.changeFSMState .SELECTING draw).map fun r ↦ ({ r.1 with retry_count := r.1.retry_count + 1 }, r.2)
    else
      { c with retry_count := 0 }.changeFSMState .INIT draw
  | .WAIT_ACK =>
    let c := { c with timer_to := none }
    let c := { c with retry_count := if c.retry_count < retry_max then c.retry_count + 1 else 0 }
    match c.client_state with
    | .REQUESTING => c.changeFSMState .REQUESTING draw
    | .RENEWING => c.changeFSMState .RENEWING draw
    | .REBINDING => c.changeFSMState .REBINDING draw
    | _ => .ok (c, none)
  | .T1 => { c with timer_t1 := false }.changeFSMState .RENEWING draw
  | .T2 =>
    let c := { c with timer_t2 := false }
    if c.client_state = .RENEWING then c.changeFSMState .REBINDING draw else .ok (c, none)

/-- An option whose first byte is positive is read as an address; else the old value stays. -/
def readAddress (text : List Char) (old : IPAddress) : Except Fault IPAddress :=
  if text.head?.any (0 < ·.toNat) then
    match IPAddress.set text with
    | some a => .ok a
    | none => .error .invalidAddress
  else .ok old

/-- The lease with what the server has confirmed. -/
def confirm (lease : DHCPLease) (options : DHCPOption) : Except Fault DHCPLease := do
  let netmask ← readAddress (getText options.SUBNET_MASK) lease.netmask
  let gateway ← readAddress (getText options.ROUTER) lease.gateway
  -- the source takes the router for the name server
  let dns ← readAddress (getText options.ROUTER) lease.dns
  return { lease with netmask, gateway, dns }

def handleDHCPMessage (msg : DHCPMessage) (draw : ℤ) :
    Except Fault (DHCPClient × Option DHCPMessage) :=
  if msg.op = .BOOTREPLY ∧ msg.xid = c.xid then
    match msg.options.DHCP_MSG_TYPE with
    | .DHCPOFFER =>
      if c.client_state = .SELECTING ∧ msg.yiaddr ≠ 0 then
        match IPAddress.set (getText msg.options.SERVER_ID) with
        | none => .error .invalidAddress
        | some server_id =>
          { c with lease := some { ip := msg.yiaddr, mac := c.client_mac_address, server_id } }.changeFSMState
            .REQUESTING draw
      else .ok (c, none)
    | .DHCPACK =>
      if msg.yiaddr ≠ 0 then
        match IPAddress.set (getText msg.options.SERVER_ID), c.lease with
        | none, _ => .error .invalidAddress
        | some _, none => .error .nullLease
        | some _, some lease => do
          let lease ← confirm lease msg.options
          { c with lease := some lease }.changeFSMState .BOUND draw
      else .ok (c, none)
    | _ => .ok (c, none)
  else .ok (c, none)

/-- The link is up. -/
def receiveChangeNotification (draw : ℤ) :
    Except Fault (DHCPClient × Option DHCPMessage) :=
  c.changeFSMState .INIT draw

end DHCPClient

end InetManet.DHCP
