import InetManet.Library.OrderedMap
import InetManet.Library.TransitionSystem
import InetManet.Network.Address

/-!
# The ARP cache

Datagrams come from IP with an output interface and a next hop. If the next hop has a valid entry in
the cache the datagram is sent to its MAC address; otherwise it is queued at the entry until the
address is resolved or the retries are exhausted. Entries live at addresses, a timer has the address
of its entry as context pointer, and `timers` holds the scheduled ones. Datagrams are numbered as
they arrive. The log is what has happened so far, the newest first.
-/

namespace InetManet.ARP

open TransitionSystem

abbrev MACAddress := BitVec 48

/-- What the module reads of an interface. -/
structure InterfaceEntry where
  macAddress : MACAddress
  ipAddress : IPAddress
  netmask : IPAddress
  isBroadcast : Bool

/-- The parameters of the module, and the interface table. -/
structure Config where
  retryCount : ℤ
  cacheTimeout : ℤ
  doProxyARP : Bool
  getInterfaceById : ℕ → InterfaceEntry

structure ARPCacheEntry where
  ie : ℕ
  pending : Bool := false
  macAddress : MACAddress := 0
  lastUpdate : ℤ := 0
  numRetries : ℤ := 0
  timer : Option ℕ := none
  pendingPackets : List ℕ := []
  myIter : IPAddress

inductive Opcode
  | request
  | reply
  | rarpRequest
  | rarpReply
  | other (opcode : ℤ)
  deriving DecidableEq

structure ARPPacket where
  opcode : Opcode
  srcMACAddress : MACAddress
  srcIPAddress : IPAddress
  destIPAddress : IPAddress
  destMACAddress : MACAddress := 0
  deriving DecidableEq

/-- What has happened. The first three are the datagrams that need a MAC address. -/
inductive LogEntry
  /-- A datagram comes with its output interface and next hop. -/
  | handed (msg ie : ℕ) (nextHop : IPAddress)
  | sent (msg ie : ℕ) (macAddress : MACAddress)
  | dropped (msg : ℕ)
  /-- An ARP packet comes from this address. -/
  | heard (ip : IPAddress) (macAddress : MACAddress)
  /-- The resolution of an address starts. -/
  | resolving (ip : IPAddress)
  | timedOut (ip : IPAddress)
  /-- An ARP packet is sent. -/
  | arpSent (ie : ℕ) (arp : ARPPacket) (macAddress : MACAddress)
  /-- A datagram that skips ARP because the interface is not broadcast. -/
  | skipped (msg ie : ℕ)
  /-- A multicast or broadcast datagram goes to the broadcast MAC address. -/
  | broadcast (msg ie : ℕ) (macAddress : MACAddress)
  deriving DecidableEq

structure ARPModule where
  entries : OrderedMap ℕ ARPCacheEntry := .empty
  nextEntry : ℕ := 0
  arpCache : OrderedMap IPAddress ℕ := .empty
  timers : OrderedMap ℕ ℕ := .empty
  nextTimer : ℕ := 0
  pendingQueue : List ℕ := []
  nextMsg : ℕ := 0
  log : List LogEntry := []

inductive Fault
  | assertion
  | emptySourceMAC
  | emptySourceIP
  | unsupportedOpcode (opcode : Opcode)
  | notInQueue (msg : ℕ)
  | nullPointer
  | notScheduled (timer : ℕ)
  deriving DecidableEq

def broadcastAddr : MACAddress := 0xFFFFFFFFFFFF

namespace ARPModule

def note (a : ARPModule) (x : LogEntry) : ARPModule := { a with log := x :: a.log }

def store (a : ARPModule) (e : ℕ) (entry : ARPCacheEntry) : ARPModule :=
  { a with entries := a.entries.insert e entry }

/-- `new ARPCacheEntry()`, inserted into the cache. -/
def newEntry (a : ARPModule) (entry : ARPCacheEntry) : ARPModule :=
  { a with
    entries := a.entries.insert a.nextEntry entry
    nextEntry := a.nextEntry + 1
    arpCache := a.arpCache.insert entry.myIter a.nextEntry }

variable (cfg : Config)

def sendARPRequest (a : ARPModule) (ie : ℕ) (ipAddress : IPAddress) : Except Fault ARPModule := do
  let myMACAddress := (cfg.getInterfaceById ie).macAddress
  let myIPAddress := (cfg.getInterfaceById ie).ipAddress
  check true (myMACAddress ≠ 0) Fault.assertion
  check true (myIPAddress ≠ 0) Fault.assertion
  return a.note (.arpSent ie
    { opcode := .request, srcMACAddress := myMACAddress, srcIPAddress := myIPAddress,
      destIPAddress := ipAddress } broadcastAddr)

/-- The entry becomes pending and its timer is started. -/
def startTimer (a : ARPModule) (e : ℕ) (entry : ARPCacheEntry) : ARPModule :=
  { a with
    entries := a.entries.insert e
      { entry with pending := true, numRetries := 0, lastUpdate := 0, timer := some a.nextTimer }
    timers := a.timers.insert a.nextTimer e
    nextTimer := a.nextTimer + 1 }

def initiateARPResolution (a : ARPModule) (e : ℕ) (entry : ARPCacheEntry) : Except Fault ARPModule := do
  let a := (a.note (.resolving entry.myIter)).startTimer e entry
  a.sendARPRequest cfg entry.ie entry.myIter

/-- `entry->pendingPackets.push_back(msg); pendingQueue.insert(msg);` -/
def queuePacket (a : ARPModule) (e : ℕ) (msg : ℕ) : Except Fault ARPModule :=
  match a.entries.find? e with
  | none => .error .nullPointer
  | some entry =>
      .ok { a.store e { entry with pendingPackets := entry.pendingPackets ++ [msg] } with
            pendingQueue := a.pendingQueue ++ [msg] }

/-- The loop that empties `pendingPackets`: each packet leaves `pendingQueue` and is sent or
deleted. -/
def drain (fate : ℕ → LogEntry) : List ℕ → ARPModule → Except Fault ARPModule
  | [], a => .ok a
  | msg :: msgs, a =>
      if msg ∈ a.pendingQueue then
        drain fate msgs ({ a with pendingQueue := a.pendingQueue.erase msg }.note (fate msg))
      else .error (.notInQueue msg)

variable (a : ARPModule)

/-- A datagram for which the cache is used. -/
def resolve (now : ℤ) (msg ie : ℕ) (nextHopAddr : IPAddress) : Except Fault ARPModule :=
  match a.arpCache.find? nextHopAddr with
  | none => do
      let e := a.nextEntry
      let entry : ARPCacheEntry := { ie, myIter := nextHopAddr }
      let a ← (a.newEntry entry).initiateARPResolution cfg e entry
      a.queuePacket e msg
  | some e =>
      match a.entries.find? e with
      | none => .error .nullPointer
      | some entry =>
          if entry.pending then a.queuePacket e msg
          else if entry.lastUpdate + cfg.cacheTimeout < now then do
            let a ← a.initiateARPResolution cfg e { entry with ie }
            a.queuePacket e msg
          else .ok (a.note (.sent msg ie entry.macAddress))

def processOutboundPacket (now : ℤ) (ie : ℕ) (nextHopAddr destAddress : IPAddress) :
    Except Fault ARPModule :=
  let msg := a.nextMsg
  let a := { a with nextMsg := a.nextMsg + 1 }
  let iface := cfg.getInterfaceById ie
  if !iface.isBroadcast then .ok (a.note (.skipped msg ie))
  else
    let nextHopAddr := if nextHopAddr ≠ 0 then nextHopAddr else destAddress
    if nextHopAddr.isMulticast || nextHopAddr == .allOnes 32 ||
        nextHopAddr == iface.ipAddress.getBroadcastAddress iface.netmask then
      .ok (a.note (.broadcast msg ie broadcastAddr))
    else
      (a.note (.handed msg ie nextHopAddr)).resolve cfg now msg ie nextHopAddr

/-- The self message has left the future event set. -/
def requestTimedOut (timer e : ℕ) : Except Fault ARPModule :=
  match a.entries.find? e with
  | none => .error .nullPointer
  | some entry =>
      let entry := { entry with numRetries := entry.numRetries + 1 }
      let a := (a.store e entry).note (.timedOut entry.myIter)
      if entry.numRetries < cfg.retryCount then do
        let a ← a.sendARPRequest cfg entry.ie entry.myIter
        return { a with timers := a.timers.insert timer e }
      else do
        let a ← drain .dropped entry.pendingPackets a
        return { a with arpCache := a.arpCache.erase entry.myIter, entries := a.entries.erase e }

/-- What the routing table says when an ARP packet arrives. -/
structure RoutingTable where
  isLocalAddress : IPAddress → Bool
  getInterfaceForDestAddr : IPAddress → Option ℕ

def addressRecognized (rt : RoutingTable) (destAddr : IPAddress) (ie : ℕ) : Bool :=
  rt.isLocalAddress destAddr ||
    cfg.doProxyARP &&
      match rt.getInterfaceForDestAddr destAddr with
      | none => false
      | some rtie => rtie ≠ ie

/-- The timer is cancelled. -/
def cancelTimer : Option ℕ → ARPModule
  | none => a
  | some timer => { a with timers := a.timers.erase timer }

def updateARPCache (now : ℤ) (e : ℕ) (macAddress : MACAddress) : Except Fault ARPModule :=
  match a.entries.find? e with
  | none => .error .nullPointer
  | some entry =>
      let a := if entry.pending then a.cancelTimer entry.timer else a
      let entry := if entry.pending then { entry with pending := false, timer := none, numRetries := 0 }
        else entry
      let a := a.store e { entry with macAddress, lastUpdate := now, pendingPackets := [] }
      drain (.sent · entry.ie macAddress) entry.pendingPackets a

/-- The cache learns the sender of an ARP packet: an entry that is there is updated, and a new one
is made if the packet is for us. -/
def merge (now : ℤ) (ie : ℕ) (arp : ARPPacket) (recognized : Bool) : Except Fault ARPModule :=
  match a.arpCache.find? arp.srcIPAddress with
  | some e => a.updateARPCache now e arp.srcMACAddress
  | none =>
      if recognized then
        (a.newEntry { ie, myIter := arp.srcIPAddress }).updateARPCache now a.nextEntry
          arp.srcMACAddress
      else .ok a

def answer (ie : ℕ) (arp : ARPPacket) : Except Fault ARPModule :=
  match arp.opcode with
  | .request =>
      .ok (a.note (.arpSent ie
        { opcode := .reply, destIPAddress := arp.srcIPAddress,
          destMACAddress := arp.srcMACAddress, srcIPAddress := arp.destIPAddress,
          srcMACAddress := (cfg.getInterfaceById ie).macAddress } arp.srcMACAddress))
  | .reply => .ok a
  | opcode => .error (.unsupportedOpcode opcode)

def processARPPacket (now : ℤ) (rt : RoutingTable) (ie : ℕ) (arp : ARPPacket) :
    Except Fault ARPModule := do
  check true (arp.srcMACAddress ≠ 0) Fault.emptySourceMAC
  check true (arp.srcIPAddress ≠ 0) Fault.emptySourceIP
  let recognized := addressRecognized cfg rt arp.destIPAddress ie
  let a ← (a.note (.heard arp.srcIPAddress arp.srcMACAddress)).merge now ie arp recognized
  if recognized then a.answer cfg ie arp else return a

inductive Event
  | outbound (now : ℤ) (ie : ℕ) (nextHopAddr destAddress : IPAddress)
  | arp (now : ℤ) (rt : RoutingTable) (ie : ℕ) (arp : ARPPacket)
  | timeout (timer : ℕ)

def handleMessage : Event → Except Fault ARPModule
  | .outbound now ie nextHopAddr destAddress =>
      a.processOutboundPacket cfg now ie nextHopAddr destAddress
  | .arp now rt ie arp => a.processARPPacket cfg now rt ie arp
  | .timeout timer =>
      match a.timers.find? timer with
      | none => .error (.notScheduled timer)
      | some e => { a with timers := a.timers.erase timer }.requestTimedOut cfg timer e

end ARPModule

end InetManet.ARP
