import InetManet.TED.Database

/-!
# Reservations

A reservation state block holds the flows of a session on an outgoing interface and the bandwidth
that is allocated for it. Committing it allocates what the largest flow needs; a flow for which there
is not enough bandwidth is dropped. Allocation lowers the unreserved bandwidth of the link at the
holding priority and all weaker ones, and preempts weaker reservations where too little is left.
Bandwidths are exact numbers. Left out are the messages that create and refresh the blocks.
-/

namespace InetManet.RSVP

open TransitionSystem TED

/-- A session, which never holds its reservations at a weaker priority than it sets them up. -/
structure SessionObj where
  tunnelId : ℤ
  extendedTunnelId : ℤ
  destAddress : IPAddress
  setupPri : Fin 8
  holdingPri : Fin 8
  holding_le_setup : holdingPri ≤ setupPri

/-- The priorities are not compared. -/
def SessionObj.same (a b : SessionObj) : Bool :=
  a.destAddress == b.destAddress && a.tunnelId == b.tunnelId &&
    a.extendedTunnelId == b.extendedTunnelId

structure SenderTemplateObj where
  srcAddress : IPAddress
  lspId : ℤ
  deriving DecidableEq

structure FlowDescriptor where
  reqBandwidth : ℚ
  filterSpec : SenderTemplateObj
  label : ℤ

/-- A block `RSB`; `reqBandwidth` is what is allocated. -/
structure ResvStateBlock where
  id : ℕ
  session : SessionObj
  nextHopAddress : IPAddress
  outInterface : IPAddress
  flowDescriptor : List FlowDescriptor
  inLabelVector : List ℤ
  reqBandwidth : ℚ

/-- A block `PSB`. -/
structure PathStateBlock where
  session : SessionObj
  senderTemplate : SenderTemplateObj
  previousHopAddress : IPAddress
  outInterface : IPAddress
  color : ℤ
  handler : ℤ

inductive LabelOp
  | push (label : ℤ)
  | swap (label : ℤ)
  | pop

structure LIBEntry where
  inLabel : ℤ
  inInterface : String
  outLabel : List LabelOp
  outInterface : String
  color : ℤ

inductive PathErr
  | preempted
  | unfeasible

inductive Output
  | scheduleCommitTimer (id : ℕ)
  | scheduleRefreshTimer (id : ℕ)
  | cancelTimers (id : ℕ)
  | announceLinkChange (index : ℕ)
  | pathError (psb : PathStateBlock) (code : PathErr)
  | pathCreated (psb : PathStateBlock)
  | bind (psb : PathStateBlock) (inLabel : ℤ)

inductive Fault
  | assertion
  | nullPointer
  /-- The address is none of a local peer. -/
  | notALocalPeer
  /-- The variable `maxFlowIndex` is read before it is set. -/
  | unset
  /-- The loop of `commitResv` does not end. -/
  | endless
  deriving DecidableEq

/-- What the routing table knows of the interfaces. -/
structure Interfaces where
  getInterfaceByAddress : IPAddress → Option String
  getInterfaceForDestAddr : IPAddress → Option String

/-- The state of the module, with the tables it works on. -/
structure State where
  routerId : IPAddress
  interfaces : Interfaces
  interfaceAddrs : List IPAddress
  ted : List TELinkStateInfo
  rsbList : List ResvStateBlock := []
  psbList : List PathStateBlock := []
  lib : List LIBEntry := []
  maxLabel : ℤ := 0
  maxRsbId : ℕ := 0
  outputs : List Output := []

namespace State

def isLocalAddress (s : State) (addr : IPAddress) : Bool := s.interfaceAddrs.contains addr

def isLink (s : State) (localInf : IPAddress) (link : TELinkStateInfo) : Bool :=
  link.advrouter == s.routerId && link.localAddr == localInf

def linkIndex (s : State) (localInf : IPAddress) : Except Fault ℕ :=
  match s.ted.findIdx? (s.isLink localInf) with
  | none => .error .assertion
  | some index => .ok index

def getInterfaceAddrByPeerAddress (s : State) (peerIP : IPAddress) : Except Fault IPAddress :=
  match s.ted.find? fun link ↦ link.linkid == peerIP && link.advrouter == s.routerId with
  | none => .error .notALocalPeer
  | some link => .ok link.localAddr

def deref {α : Type} : Option α → Except Fault α
  | none => .error .nullPointer
  | some a => .ok a

def output (s : State) (o : List Output) : State := { s with outputs := s.outputs ++ o }

/-! ## Bandwidth -/

def setUnResvBandwidth (s : State) (index : ℕ) (u : Fin 8 → ℚ) : State :=
  { s with ted := s.ted.modify index fun link ↦ { link with unResvBandwidth := u } }

/-- The bandwidth is given back at the priority and all weaker ones. -/
def release (u : Fin 8 → ℚ) (priority : Fin 8) (bandwidth : ℚ) : Fin 8 → ℚ :=
  fun i ↦ if priority ≤ i then u i + bandwidth else u i

/-- The loop over the blocks: the array of the link, the blocks, and which are to be committed
again. -/
def preemptLoop (outInterface : IPAddress) (priority : Fin 8) :
    ℚ → (Fin 8 → ℚ) → List ResvStateBlock → (Fin 8 → ℚ) × List ResvStateBlock × List Output
  | _, u, [] => (u, [], [])
  | bandwidth, u, rsb :: rsbs =>
      if rsb.outInterface != outInterface || rsb.session.holdingPri != priority ||
          decide (rsb.reqBandwidth = 0) then
        let x := preemptLoop outInterface priority bandwidth u rsbs
        (x.1, rsb :: x.2.1, x.2.2)
      else
        let u := release u priority rsb.reqBandwidth
        let preempted := { rsb with reqBandwidth := 0 }
        if bandwidth - rsb.reqBandwidth ≤ 0 then (u, preempted :: rsbs, [.scheduleCommitTimer rsb.id])
        else
          let x := preemptLoop outInterface priority (bandwidth - rsb.reqBandwidth) u rsbs
          (x.1, preempted :: x.2.1, .scheduleCommitTimer rsb.id :: x.2.2)

def preempt (s : State) (outInterface : IPAddress) (priority : Fin 8) (bandwidth : ℚ) :
    Except Fault State := do
  check true (s.isLocalAddress outInterface) Fault.assertion
  let index ← s.linkIndex outInterface
  let link ← deref s.ted[index]?
  let x := preemptLoop outInterface priority bandwidth link.unResvBandwidth s.rsbList
  return ({ s with rsbList := x.2.1 }.setUnResvBandwidth index x.1).output x.2.2

/-- The body of the loop over the priorities. -/
def allocatePriority (outInterface : IPAddress) (bandwidth : ℚ) (index : ℕ) (s : State)
    (p : Fin 8) : Except Fault State := do
  let link ← deref s.ted[index]?
  let u := Function.update link.unResvBandwidth p (link.unResvBandwidth p - bandwidth)
  let s := s.setUnResvBandwidth index u
  if u p < 0 then s.preempt outInterface p (-u p) else return s

/-- The loop `for (int p = holdingPri; p < 8; p++)`. -/
def priorities (holdingPri : Fin 8) : List (Fin 8) := (List.finRange 8).filter (holdingPri ≤ ·)

section

variable (s : State)

def allocateResource (outInterface : IPAddress) (session : SessionObj) (bandwidth : ℚ) :
    Except Fault (Bool × State) :=
  if outInterface == 0 || !s.isLocalAddress outInterface || decide (bandwidth = 0) then
    .ok (true, s)
  else do
    let index ← s.linkIndex outInterface
    let link ← deref s.ted[index]?
    if link.unResvBandwidth session.setupPri < bandwidth then return (false, s)
    else do
      let s ← (priorities session.holdingPri).foldlM (allocatePriority outInterface bandwidth index) s
      return (true, s.output [.announceLinkChange index])

/-! ## Blocks -/

/-- The first block with the id goes. -/
def eraseRSB (id : ℕ) : State :=
  { s with rsbList := s.rsbList.eraseP fun rsb ↦ rsb.id == id }

def removeRSB (k : ℕ) : Except Fault State := do
  let rsb ← deref s.rsbList[k]?
  check true rsb.flowDescriptor.isEmpty Fault.assertion
  let s := s.output [.cancelTimers rsb.id]
  if 0 < rsb.reqBandwidth then do
    let x ← s.allocateResource rsb.outInterface rsb.session (-rsb.reqBandwidth)
    return x.2.eraseRSB rsb.id
  else return s.eraseRSB rsb.id

def modifyRSB (k : ℕ) (f : ResvStateBlock → ResvStateBlock) : State :=
  { s with rsbList := s.rsbList.modify k f }

def eraseFlow (i : ℕ) (rsb : ResvStateBlock) : ResvStateBlock :=
  { rsb with
    flowDescriptor := rsb.flowDescriptor.eraseIdx i
    inLabelVector := rsb.inLabelVector.eraseIdx i }

def removeLibEntry (inLabel : ℤ) : Except Fault State :=
  if s.lib.any fun e ↦ e.inLabel == inLabel then
    .ok { s with lib := s.lib.eraseP fun e ↦ e.inLabel == inLabel }
  else .error .assertion

/-- The entry of a label that has been installed goes. -/
def removeInLabel (inLabel : ℤ) : Except Fault State :=
  if inLabel != -1 then s.removeLibEntry inLabel else .ok s

def removeRsbFilter (k index : ℕ) : Except Fault State := do
  let rsb ← deref s.rsbList[k]?
  check true (decide (index < rsb.flowDescriptor.length)) Fault.assertion
  check true (rsb.inLabelVector.length == rsb.flowDescriptor.length) Fault.assertion
  let inLabel ← deref rsb.inLabelVector[index]?
  let s ← s.removeInLabel inLabel
  return (s.modifyRSB k (eraseFlow index)).output [.scheduleCommitTimer rsb.id]

def findPSB (session : SessionObj) (sender : SenderTemplateObj) :
    Option PathStateBlock :=
  s.psbList.find? fun psb ↦ psb.session.same session && psb.senderTemplate == sender

/-! ## Committing -/

/-- The loop over the flows, with `req` and `maxFlowIndex`; `i` is the index of the first flow. -/
def maxFlow : ℕ → ℚ × Option ℕ → List FlowDescriptor → ℚ × Option ℕ
  | _, x, [] => x
  | i, x, flow :: flows =>
      maxFlow (i + 1) (if x.1 < flow.reqBandwidth then (flow.reqBandwidth, some i) else x) flows

/-- The bandwidth is not available for the largest flow. -/
def dropFlow (k : ℕ) (rsb : ResvStateBlock) (maxFlowIndex : Option ℕ) :
    Except Fault State := do
  check true (rsb.inLabelVector.length == rsb.flowDescriptor.length) Fault.assertion
  match maxFlowIndex with
  | none => .error .unset
  | some i => do
      let flow ← deref rsb.flowDescriptor[i]?
      let oldInLabel ← deref rsb.inLabelVector[i]?
      let psb ← deref (s.findPSB rsb.session flow.filterSpec)
      let s := s.modifyRSB k (eraseFlow i)
      if oldInLabel != -1 then (s.output [.pathError psb .preempted]).removeLibEntry oldInLabel
      else .ok (s.output [.pathError psb .unfeasible])

end

/-- The loop that allocates bandwidth; the flag says whether the block has been removed. -/
def commitLoop : ℕ → State → ℕ → Except Fault (Bool × State)
  | 0, _, _ => .error .endless
  | fuel + 1, s, k => do
      let rsb ← deref s.rsbList[k]?
      if rsb.flowDescriptor.isEmpty then do
        let s ← s.removeRSB k
        return (true, s)
      else
        let req := maxFlow 0 (0, none) rsb.flowDescriptor
        let needed := req.1 - rsb.reqBandwidth
        if needed = 0 then return (false, s)
        else do
          let x ← s.allocateResource rsb.outInterface rsb.session needed
          if x.1 then
            return (false, x.2.modifyRSB k fun r ↦ { r with reqBandwidth := r.reqBandwidth + needed })
          else do
            let s ← x.2.dropFlow k rsb req.2
            commitLoop fuel s k

def installLibEntry (s : State) (inLabel : ℤ) (inInterface : String) (outLabel : List LabelOp)
    (outInterface : String) (color : ℤ) : Except Fault (ℤ × State) :=
  if inLabel == -1 then
    .ok (s.maxLabel + 1, { s with
      maxLabel := s.maxLabel + 1
      lib := s.lib ++ [⟨s.maxLabel + 1, inInterface, outLabel, outInterface, color⟩] })
  else
    match s.lib.findIdx? fun e ↦ e.inLabel == inLabel with
    | none => .error .assertion
    | some i =>
        .ok (inLabel, { s with
          lib := s.lib.set i ⟨inLabel, inInterface, outLabel, outInterface, color⟩ })

def inInterfaceOf (s : State) (psb : PathStateBlock) : Except Fault String :=
  if psb.previousHopAddress == s.routerId then .ok "any"
  else do
    let localInf ← s.getInterfaceAddrByPeerAddress psb.previousHopAddress
    deref (s.interfaces.getInterfaceByAddress localInf)

/-- The label operation and the outgoing interface. -/
def outInterfaceOf (s : State) (psb : PathStateBlock) (label : ℤ) :
    Except Fault (LabelOp × String) :=
  if s.isLocalAddress psb.outInterface then do
    let name ← deref (s.interfaces.getInterfaceByAddress psb.outInterface)
    return (if psb.previousHopAddress == s.routerId then .push label else .swap label, name)
  else if s.isLocalAddress psb.session.destAddress then .ok (.pop, "lo0")
  else .ok (.pop, (s.interfaces.getInterfaceForDestAddr psb.session.destAddress).getD "lo0")

/-- The body of the loop that installs the labels. -/
def installLabel (k : ℕ) (s : State) (i : ℕ) : Except Fault State := do
  let rsb ← deref s.rsbList[k]?
  let flow ← deref rsb.flowDescriptor[i]?
  let psb ← deref (s.findPSB rsb.session flow.filterSpec)
  let inInterface ← s.inInterfaceOf psb
  let out ← s.outInterfaceOf psb flow.label
  check true (rsb.inLabelVector.length == rsb.flowDescriptor.length) Fault.assertion
  let oldLabel ← deref rsb.inLabelVector[i]?
  let x ← s.installLibEntry oldLabel inInterface [out.1] out.2 psb.color
  check true (decide (0 ≤ x.1)) Fault.assertion
  let created := if psb.previousHopAddress == s.routerId && oldLabel == -1 then [.pathCreated psb]
    else []
  let bound := if oldLabel != x.1 then [.bind psb x.1] else []
  -- backups that merge here have the LSP id as their interface
  let merging := (s.rsbList.filter fun r ↦ r.outInterface == BitVec.ofInt 32 flow.filterSpec.lspId).map
    fun r ↦ Output.scheduleCommitTimer r.id
  return (x.2.modifyRSB k fun r ↦ { r with inLabelVector := r.inLabelVector.set i x.1 }).output
    (created ++ bound ++ merging)

variable (s : State)

def commitResv (k : ℕ) : Except Fault State := do
  let rsb ← deref s.rsbList[k]?
  let x ← commitLoop (rsb.flowDescriptor.length + 1) s k
  if x.1 then return x.2
  else do
    let rsb ← deref x.2.rsbList[k]?
    (List.range rsb.flowDescriptor.length).foldlM (installLabel k) x.2

/-! ## Creation and updates -/

def createRSB (session : SessionObj) (nextHop outInterface : IPAddress)
    (flows : List FlowDescriptor) : State :=
  { s with
    maxRsbId := s.maxRsbId + 1
    rsbList := s.rsbList ++ [
      { id := s.maxRsbId + 1, session, nextHopAddress := nextHop, outInterface
        flowDescriptor := flows, inLabelVector := flows.map fun _ ↦ -1, reqBandwidth := 0 }] }

def createEgressRSB (psb : PathStateBlock) (tspec : ℚ) : State :=
  s.createRSB psb.session psb.previousHopAddress psb.outInterface [⟨tspec, psb.senderTemplate, -1⟩]

/-- One flow of a reservation message. -/
def updateFlow (rsb : ResvStateBlock) (flow : FlowDescriptor) : ResvStateBlock × List Output :=
  match rsb.flowDescriptor.findIdx? fun f ↦ f.filterSpec == flow.filterSpec with
  | some m =>
      if (rsb.flowDescriptor[m]?.map FlowDescriptor.label) == some flow.label then (rsb, [])
      else ({ rsb with flowDescriptor := rsb.flowDescriptor.modify m ({ · with label := flow.label }) },
        [.scheduleCommitTimer rsb.id])
  | none =>
      ({ rsb with flowDescriptor := rsb.flowDescriptor ++ [flow],
                  inLabelVector := rsb.inLabelVector ++ [-1] },
        [.scheduleCommitTimer rsb.id, .scheduleRefreshTimer rsb.id])

def updateRSB (k : ℕ) (flows : List FlowDescriptor) : Except Fault State := do
  let rsb ← deref s.rsbList[k]?
  let x := flows.foldl (fun x flow ↦
    ((updateFlow x.1 flow).1, x.2 ++ (updateFlow x.1 flow).2)) (rsb, ([] : List Output))
  return { s with rsbList := s.rsbList.set k x.1 }.output x.2

/-! ## Runs -/

def findRsbById (id : ℕ) : Except Fault ℕ :=
  match s.rsbList.findIdx? fun rsb ↦ rsb.id == id with
  | none => .error .assertion
  | some k => .ok k

inductive Event
  | create (session : SessionObj) (nextHop outInterface : IPAddress) (flows : List FlowDescriptor)
  | createEgress (psb : PathStateBlock) (tspec : ℚ)
  | update (id : ℕ) (flows : List FlowDescriptor)
  | commit (id : ℕ)
  | removeFilter (id index : ℕ)
  | remove (id : ℕ)
  | preempt (outInterface : IPAddress) (priority : Fin 8) (bandwidth : ℚ)
  /-- Path state blocks come and go. -/
  | paths (psbList : List PathStateBlock)
  /-- Link state messages have changed the database. -/
  | flood (ted : List TELinkStateInfo)

def step : Event → Except Fault State
  | .create session nextHop outInterface flows => .ok (s.createRSB session nextHop outInterface flows)
  | .createEgress psb tspec => .ok (s.createEgressRSB psb tspec)
  | .update id flows => s.findRsbById id >>= fun k ↦ s.updateRSB k flows
  | .commit id => s.findRsbById id >>= fun k ↦ s.commitResv k
  | .removeFilter id index => s.findRsbById id >>= fun k ↦ s.removeRsbFilter k index
  | .remove id => s.findRsbById id >>= fun k ↦ s.removeRSB k
  | .preempt outInterface priority bandwidth => s.preempt outInterface priority bandwidth
  | .paths psbList => .ok { s with psbList }
  | .flood ted => .ok { s with ted }

end State

end InetManet.RSVP
