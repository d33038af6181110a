import InetManet.TED.Database

/-!
# Link state routing

Each router keeps a database of links and floods what is new in it. A message is a list of
announcements; one that is newer than what the database holds replaces it and is forwarded to the
other peers. A change of an own link is announced under a new message id and the current time.
Rebuilding the routing table is left out.
-/

namespace InetManet.TED

open TransitionSystem

namespace TELinkStateInfo

/-- The same announcement, by source, message id and timestamp. -/
def sameMessage (x y : TELinkStateInfo) : Bool :=
  x.sourceId == y.sourceId && x.messageId == y.messageId && x.timestamp == y.timestamp

def sameLink (x y : TELinkStateInfo) : Bool := x.advrouter == y.advrouter && x.linkid == y.linkid

def isOlder (x y : TELinkStateInfo) : Bool :=
  decide (x.timestamp < y.timestamp) || x.timestamp == y.timestamp && decide (x.messageId < y.messageId)

/-- The information that is copied over from `link`; the addresses stay. -/
def copyInfo (x link : TELinkStateInfo) : TELinkStateInfo :=
  { x with
    state := link.state
    messageId := link.messageId
    sourceId := link.sourceId
    timestamp := link.timestamp
    unResvBandwidth := link.unResvBandwidth
    maxBandwidth := link.maxBandwidth
    metric := link.metric }

end TELinkStateInfo

inductive Validity
  /-- Seen already, or older than what is known. -/
  | ignore
  /-- Nothing is known of the link. -/
  | unknown
  /-- The entry at this index is older. -/
  | older (i : ℕ)
  deriving DecidableEq

/-- The loop over the database; `i` is the index of the first entry. -/
def checkLinkValidity (link : TELinkStateInfo) : ℕ → List TELinkStateInfo → Validity
  | _, [] => .unknown
  | i, x :: ted =>
      if x.sameMessage link then .ignore
      else if x.sameLink link then
        if x.isOlder link then .older i else .ignore
      else checkLinkValidity link (i + 1) ted

/-- The database of a router and what it needs for sending. -/
structure Router where
  routerId : IPAddress
  peerIfAddrs : List IPAddress
  ted : List TELinkStateInfo
  maxMessageId : ℕ

structure LinkStateMsg where
  sender : IPAddress
  dest : IPAddress
  linkInfo : List TELinkStateInfo
  request : Bool

namespace Router

def sendToPeer (r : Router) (peer : IPAddress) (list : List TELinkStateInfo) (req : Bool) :
    LinkStateMsg :=
  { sender := r.routerId, dest := peer, linkInfo := list, request := req }

/-- A copy for every peer behind an own link that is up, except one. -/
def sendToPeers (r : Router) (list : List TELinkStateInfo) (req : Bool) (exceptPeer : IPAddress) :
    List LinkStateMsg :=
  (r.ted.filter fun x ↦ x.advrouter == r.routerId && x.linkid != exceptPeer && x.state &&
    r.peerIfAddrs.contains x.localAddr).map fun x ↦ r.sendToPeer x.linkid list req

/-- One link of a message: the database and the list `forward`. -/
def processLink (x : List TELinkStateInfo × List TELinkStateInfo) (link : TELinkStateInfo) :
    Except Fault (List TELinkStateInfo × List TELinkStateInfo) :=
  match checkLinkValidity link 0 x.1 with
  | .ignore => .ok x
  | .unknown => do
      check true (link.sourceId == link.advrouter.toNat) Fault.assertion
      return (x.1 ++ [link], x.2 ++ [link])
  | .older i => do
      check true (link.sourceId == link.advrouter.toNat) Fault.assertion
      return (x.1.modify i (·.copyInfo link), x.2 ++ [link])

/-- The router, the list `forward`, and the messages sent. -/
def processLINK_STATE_MESSAGE (r : Router) (msg : LinkStateMsg) :
    Except Fault (Router × List TELinkStateInfo × List LinkStateMsg) := do
  let x ← msg.linkInfo.foldlM processLink (r.ted, [])
  let r := { r with ted := x.1 }
  let answer := if msg.request then [r.sendToPeer msg.sender r.ted false] else []
  let forward := if x.2.isEmpty then [] else r.sendToPeers x.2 false msg.sender
  return (r, x.2, answer ++ forward)

/-- What can change of an own link. -/
structure Contents where
  metric : ℚ
  maxBandwidth : ℚ
  unResvBandwidth : Fin 8 → ℚ
  state : Bool

def updateTimestamp (x : TELinkStateInfo) (c : Contents) (now : ℤ) (messageId : ℕ) :
    TELinkStateInfo :=
  { x with metric := c.metric, maxBandwidth := c.maxBandwidth,
           unResvBandwidth := c.unResvBandwidth, state := c.state, timestamp := now, messageId }

/-- One link of a change notification, which has got new contents. -/
def announceLink (now : ℤ) (contents : ℕ → Contents) (x : Router × List TELinkStateInfo)
    (index : ℕ) : Except Fault (Router × List TELinkStateInfo) :=
  match x.1.ted[index]? with
  | none => .error .assertion
  | some entry => do
      check true (entry.advrouter == x.1.routerId) Fault.assertion
      let link := updateTimestamp entry (contents index) now (x.1.maxMessageId + 1)
      return ({ x.1 with ted := x.1.ted.set index link, maxMessageId := x.1.maxMessageId + 1 },
        x.2 ++ [link])

/-- The links at `indices` have changed to `contents`: the router, the announcements, and the
messages sent. -/
def receiveChangeNotification (r : Router) (now : ℤ) (contents : ℕ → Contents)
    (indices : List ℕ) : Except Fault (Router × List TELinkStateInfo × List LinkStateMsg) := do
  check true (!indices.isEmpty) Fault.assertion
  let x ← indices.foldlM (announceLink now contents) (r, [])
  return (x.1, x.2, x.1.sendToPeers x.2 false 0)

end Router

/-! ## The network -/

/-- A router with the announcements it has received or made, and those it has forwarded. -/
structure Node extends Router where
  seen : List TELinkStateInfo
  forwarded : List TELinkStateInfo

/-- Routers and all messages that have ever been sent. -/
structure Net (ι : Type) where
  node : ι → Node
  sent : List LinkStateMsg
  clock : ℤ

inductive Event (ι : Type)
  /-- A message that was sent at any time is processed, perhaps again. -/
  | deliver (i : ι) (msg : LinkStateMsg)
  | change (i : ι) (now : ℤ) (contents : ℕ → Router.Contents) (indices : List ℕ)
  /-- The database is sent to all peers, with a request for theirs. -/
  | announce (i : ι)

variable {ι : Type} [DecidableEq ι]

def Net.step (net : Net ι) : Event ι → Except Fault (Net ι)
  | .deliver i msg => do
      let x ← (net.node i).processLINK_STATE_MESSAGE msg
      return { net with
        node := Function.update net.node i
          { toRouter := x.1, seen := (net.node i).seen ++ msg.linkInfo,
            forwarded := (net.node i).forwarded ++ x.2.1 }
        sent := net.sent ++ x.2.2 }
  | .change i now contents indices => do
      let x ← (net.node i).receiveChangeNotification now contents indices
      return { net with
        node := Function.update net.node i
          { toRouter := x.1, seen := (net.node i).seen ++ x.2.1,
            forwarded := (net.node i).forwarded }
        sent := net.sent ++ x.2.2
        clock := now }
  | .announce i =>
      .ok { net with sent := net.sent ++ (net.node i).sendToPeers (net.node i).ted true 0 }

end InetManet.TED
