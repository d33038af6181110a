import InetManet.Ethernet.RelayUnitNP

/-!
# The relay unit with a queue at every port

Every port has its own queue and CPU. A frame stays at the head of its queue while it is processed. The
message of a busy CPU points to the buffer of its port; it is created when the CPU starts, scheduled again
while frames are left, and deleted when the queue is empty. The array `buffer` of port buffers is `ports`.
-/

namespace InetManet.Ethernet

open TransitionSystem RelayUnit

namespace RelayUnit

structure PortBuffer where
  port : ℕ
  cpuBusy : Bool := false
  queue : List Frame := []

/-- A scheduled message with its port buffer. -/
structure EndProcessing where
  contextPointer : ℕ
  time : ℚ
  deriving DecidableEq

end RelayUnit

structure MACRelayUnitPP where
  buffer : RelayBuffer
  ports : List PortBuffer
  messages : List EndProcessing := []

namespace MACRelayUnitPP

/-! ## Operations -/

section

variable (s : MACRelayUnitPP)

def handleIncomingFrame (frame : Frame) : Except RelayUnit.Fault MACRelayUnitPP :=
  if s.buffer.hasRoom frame.byteLength then
    match s.ports[frame.arrivalGate]? with
    | none => .error .noSuchBuffer
    | some portBuffer => do
      let portBuffer := { portBuffer with queue := portBuffer.queue ++ [frame], port := frame.arrivalGate }
      let s := { s with buffer := s.buffer.accept frame }
      if portBuffer.cpuBusy then return { s with ports := s.ports.set frame.arrivalGate portBuffer }
      else
        let time ← s.buffer.endOfProcessing
        return { s with
          ports := s.ports.set frame.arrivalGate { portBuffer with cpuBusy := true }
          messages := s.messages ++ [⟨frame.arrivalGate, time⟩] }
  else .ok { s with buffer := s.buffer.drop }

/-- The message points to this buffer and is not scheduled any more. -/
def processFrame (contextPointer : ℕ) : Except RelayUnit.Fault MACRelayUnitPP :=
  match s.ports[contextPointer]? with
  | none => .error .noSuchBuffer
  | some portBuffer =>
    match portBuffer.queue with
    | [] => .error .emptyQueue
    | frame :: queue => do
      let buffer ← s.buffer.dispatch frame portBuffer.port
      if queue.isEmpty then
        return { s with
          buffer, ports := s.ports.set contextPointer { portBuffer with queue, cpuBusy := false } }
      else
        let time ← buffer.endOfProcessing
        return { s with
          buffer
          ports := s.ports.set contextPointer { portBuffer with queue }
          messages := s.messages ++ [⟨contextPointer, time⟩] }

inductive Event
  | arrival (arrival : FrameArrival)
  | endProcessing (message : EndProcessing)

def step : Event → Except RelayUnit.Fault MACRelayUnitPP
  | .arrival arrival =>
    { s with buffer := s.buffer.arrive arrival.simTime }.handleIncomingFrame (s.buffer.frameOf arrival)
  | .endProcessing message =>
    if message ∈ s.messages then
      { s with
        buffer := { s.buffer with simTime := message.time }
        messages := s.messages.erase message }.processFrame message.contextPointer
    else .error .notScheduled

/-- The relay unit after its initialization. -/
def Initialized : Prop :=
  ∃ base params, s =
    { buffer := .initialized base params, ports := (List.range base.numPorts).map fun i ↦ { port := i } }

/-! ## What a step does -/

/-- The frames in the switch. -/
def held : List Frame := s.ports.flatMap PortBuffer.queue

end

section Steps

variable {s s' : MACRelayUnitPP} {arrival : FrameArrival} {message : EndProcessing}

/-- The state with an arrived frame in the queue of its port. -/
def received (s : MACRelayUnitPP) (arrival : FrameArrival) (queue : List Frame) : MACRelayUnitPP :=
  { s with
    buffer := (s.buffer.arrive arrival.simTime).accept (s.buffer.frameOf arrival)
    ports := s.ports.set arrival.port ⟨arrival.port, true, queue ++ [s.buffer.frameOf arrival]⟩ }

/-- An arriving frame is dropped, or queued at its port, whose CPU is busy then. -/
theorem arrival_cases (h : s.step (.arrival arrival) = .ok s') :
    (s.buffer.hasRoom arrival.byteLength = false ∧
      s' = { s with buffer := (s.buffer.arrive arrival.simTime).drop }) ∨
    s.buffer.hasRoom arrival.byteLength = true ∧
      ∃ portBuffer, s.ports[arrival.port]? = some portBuffer ∧
        ((portBuffer.cpuBusy = true ∧ s' = s.received arrival portBuffer.queue) ∨
        ∃ time, portBuffer.cpuBusy = false ∧ s' = { s.received arrival portBuffer.queue with
          messages := s.messages ++ [⟨arrival.port, time⟩] }) := by
  unfold step handleIncomingFrame at h
  change (if s.buffer.hasRoom arrival.byteLength = true then _ else _) = _ at h
  by_cases hroom : s.buffer.hasRoom arrival.byteLength = true
  · rw [if_pos hroom] at h
    refine Or.inr ⟨hroom, ?_⟩
    change (match s.ports[arrival.port]? with | none => _ | some portBuffer => _) = _ at h
    cases hport : s.ports[arrival.port]? with
    | none =>
      rw [hport] at h
      cases h
    | some portBuffer =>
      rw [hport] at h
      dsimp only at h
      refine ⟨portBuffer, rfl, ?_⟩
      cases hbusy : portBuffer.cpuBusy with
      | true =>
        rw [hbusy, if_pos rfl] at h
        exact Or.inl ⟨rfl, (Except.ok.inj h).symm⟩
      | false =>
        rw [hbusy, if_neg Bool.false_ne_true] at h
        obtain ⟨time, -, hend⟩ := bind_ok_iff.mp h
        exact Or.inr ⟨time, rfl, (Except.ok.inj hend).symm⟩
  · rw [if_neg hroom] at h
    exact Or.inl ⟨Bool.eq_false_iff.mpr hroom, (Except.ok.inj h).symm⟩

/-- The frame at the head of the queue is dispatched; the CPU goes on if frames are left. -/
theorem endProcessing_cases (h : s.step (.endProcessing message) = .ok s') :
    message ∈ s.messages ∧ ∃ portBuffer frame queue b,
      s.ports[message.contextPointer]? = some portBuffer ∧ portBuffer.queue = frame :: queue ∧
      { s.buffer with simTime := message.time }.dispatch frame portBuffer.port = .ok b ∧
      ((queue = [] ∧ s' = ⟨b, s.ports.set message.contextPointer ⟨portBuffer.port, false, []⟩,
          s.messages.erase message⟩) ∨
      ∃ time, queue ≠ [] ∧
        s' = ⟨b, s.ports.set message.contextPointer ⟨portBuffer.port, portBuffer.cpuBusy, queue⟩,
          s.messages.erase message ++ [⟨message.contextPointer, time⟩]⟩) := by
  unfold step at h
  dsimp only at h
  by_cases hmem : message ∈ s.messages
  · rw [if_pos hmem] at h
    refine ⟨hmem, ?_⟩
    unfold processFrame at h
    dsimp only at h
    cases hport : s.ports[message.contextPointer]? with
    | none =>
      rw [hport] at h
      cases h
    | some portBuffer =>
      rw [hport] at h
      dsimp only at h
      cases hqueue : portBuffer.queue with
      | nil =>
        rw [hqueue] at h
        cases h
      | cons frame queue =>
        rw [hqueue] at h
        obtain ⟨b, hdispatch, hrest⟩ := bind_ok_iff.mp h
        refine ⟨portBuffer, frame, queue, b, rfl, hqueue, hdispatch, ?_⟩
        by_cases hempty : queue = []
        · rw [if_pos (List.isEmpty_iff.mpr hempty), hempty] at hrest
          exact Or.inl ⟨hempty, (Except.ok.inj hrest).symm⟩
        · rw [if_neg (fun hnil ↦ hempty (List.isEmpty_iff.mp hnil))] at hrest
          obtain ⟨time, -, hend⟩ := bind_ok_iff.mp hrest
          exact Or.inr ⟨time, hempty, (Except.ok.inj hend).symm⟩
  · rw [if_neg hmem] at h
    cases h

end Steps

/-! ## Over all runs -/

/-- The frames that came in at this port. -/
def ofPort (i : ℕ) (frames : List Frame) : List Frame := frames.filter fun frame ↦ frame.arrivalGate == i

/-- What has come in at the port is dispatched or in its queue, in this order, and its CPU works on the head
of the queue. -/
structure PortInv (s : MACRelayUnitPP) (i : ℕ) (portBuffer : PortBuffer) : Prop where
  port : portBuffer.port = i
  busy : portBuffer.cpuBusy = true ↔ portBuffer.queue ≠ []
  order : ofPort i s.buffer.accepted = ofPort i s.buffer.dispatched ++ portBuffer.queue
  message : s.messages.countP (·.contextPointer == i) = portBuffer.cpuBusy.toNat

structure Inv (s : MACRelayUnitPP) : Prop where
  account : s.buffer.Account
  ports : ∀ i portBuffer, s.ports[i]? = some portBuffer → s.PortInv i portBuffer
  once : s.buffer.accepted.Perm (s.buffer.dispatched ++ s.held)

section Ports

variable {s s' : MACRelayUnitPP} {i p : ℕ} {portBuffer portBuffer' : PortBuffer} {frame : Frame}

theorem ofPort_concat_of_eq {frames : List Frame} (h : frame.arrivalGate = i) :
    ofPort i (frames ++ [frame]) = ofPort i frames ++ [frame] := by
  unfold ofPort
  rw [List.filter_append, List.filter_cons_of_pos (p := fun f : Frame ↦ f.arrivalGate == i)
    (beq_iff_eq.mpr h), List.filter_nil]

theorem ofPort_concat_of_ne {frames : List Frame} (h : frame.arrivalGate ≠ i) :
    ofPort i (frames ++ [frame]) = ofPort i frames := by
  unfold ofPort
  rw [List.filter_append, List.filter_cons_of_neg (p := fun f : Frame ↦ f.arrivalGate == i)
    (fun heq ↦ h (beq_iff_eq.mp heq)), List.filter_nil, List.append_nil]

theorem ports_set (hports : s'.ports = s.ports.set p portBuffer') (hset : s'.PortInv p portBuffer')
    (hothers : ∀ i portBuffer, i ≠ p → s.ports[i]? = some portBuffer → s'.PortInv i portBuffer) :
    ∀ i portBuffer, s'.ports[i]? = some portBuffer → s'.PortInv i portBuffer := by
  intro i portBuffer hi
  rw [hports, List.getElem?_set] at hi
  by_cases hip : p = i
  · subst hip
    rw [if_pos rfl] at hi
    split_ifs at hi
    cases hi
    exact hset
  · rw [if_neg hip] at hi
    exact hothers i portBuffer (Ne.symm hip) hi

/-- The frames in the queues of the other ports. -/
def others (s : MACRelayUnitPP) (p : ℕ) : List Frame := (s.ports.eraseIdx p).flatMap PortBuffer.queue

theorem held_perm (hport : s.ports[p]? = some portBuffer) :
    s.held.Perm (portBuffer.queue ++ s.others p) := by
  obtain ⟨hlt, rfl⟩ := List.getElem?_eq_some_iff.mp hport
  exact ((List.getElem_cons_eraseIdx_perm hlt).symm).flatMap_right PortBuffer.queue

theorem held_set_perm (s' : MACRelayUnitPP) (hport : s.ports[p]? = some portBuffer)
    (hports : s'.ports = s.ports.set p portBuffer') : s'.held.Perm (portBuffer'.queue ++ s.others p) := by
  obtain ⟨hlt, -⟩ := List.getElem?_eq_some_iff.mp hport
  unfold held
  rw [hports]
  exact (List.set_perm_cons_eraseIdx hlt portBuffer').flatMap_right PortBuffer.queue

end Ports

section Runs

variable {s s' : MACRelayUnitPP}

theorem Initialized.inv (h : s.Initialized) : s.Inv := by
  obtain ⟨base, params, rfl⟩ := h
  refine ⟨RelayBuffer.account_initialized base params, ?_, ?_⟩
  · intro i portBuffer hi
    rw [List.getElem?_map] at hi
    obtain ⟨j, hj, rfl⟩ := Option.map_eq_some_iff.mp hi
    obtain ⟨_, rfl⟩ := List.getElem?_eq_some_iff.mp hj
    rw [List.getElem_range]
    exact ⟨rfl, ⟨nofun, fun hne ↦ absurd rfl hne⟩, rfl, rfl⟩
  · have hnone : ((List.range base.numPorts).map fun i ↦ ({ port := i } : PortBuffer)).flatMap
        PortBuffer.queue = [] := by
      rw [List.flatMap_eq_nil_iff]
      intro portBuffer hmem
      obtain ⟨i, -, rfl⟩ := List.mem_map.mp hmem
      rfl
    show ([] : List Frame).Perm ([] ++ List.flatMap _ _)
    rw [hnone]
    exact List.Perm.nil

/-- A frame joins the queue of its port, and the messages are those of the busy CPUs. -/
theorem Inv.enqueue (h : s.Inv) {arrival : FrameArrival} {portBuffer : PortBuffer}
    (hroom : s.buffer.hasRoom arrival.byteLength = true)
    (hport : s.ports[arrival.port]? = some portBuffer) {messages : List EndProcessing}
    (hthis : messages.countP (·.contextPointer == arrival.port) = 1)
    (hothers : ∀ i, i ≠ arrival.port → messages.countP (·.contextPointer == i) =
      s.messages.countP (·.contextPointer == i)) :
    Inv { s.received arrival portBuffer.queue with messages } := by
  have hgate : (s.buffer.frameOf arrival).arrivalGate = arrival.port := rfl
  have haccepted : ((s.buffer.arrive arrival.simTime).accept (s.buffer.frameOf arrival)).accepted =
      s.buffer.accepted ++ [s.buffer.frameOf arrival] := RelayBuffer.accept_accepted
  have hdispatched : ((s.buffer.arrive arrival.simTime).accept (s.buffer.frameOf arrival)).dispatched =
      s.buffer.dispatched := RelayBuffer.accept_dispatched
  refine ⟨h.account.accept hroom rfl, ports_set (s := s) rfl ?_ ?_, ?_⟩
  · have hold := h.ports _ _ hport
    refine ⟨rfl, ?_, ?_, hthis⟩
    · exact iff_of_true rfl (List.append_ne_nil_of_right_ne_nil _ (List.cons_ne_nil _ _))
    · show ofPort _ ((s.buffer.arrive arrival.simTime).accept _).accepted =
        ofPort _ ((s.buffer.arrive arrival.simTime).accept _).dispatched ++ (portBuffer.queue ++ [_])
      rw [haccepted, hdispatched, ofPort_concat_of_eq hgate, hold.order, List.append_assoc]
  · intro i portBuffer' hne hi
    have hold := h.ports i portBuffer' hi
    refine ⟨hold.port, hold.busy, ?_, (hothers i hne).trans hold.message⟩
    show ofPort _ ((s.buffer.arrive arrival.simTime).accept _).accepted =
      ofPort _ ((s.buffer.arrive arrival.simTime).accept _).dispatched ++ _
    rw [haccepted, hdispatched, ofPort_concat_of_ne (hgate.trans_ne hne.symm), hold.order]
  · have hbefore := held_perm hport
    have hafter := held_set_perm { s.received arrival portBuffer.queue with messages } hport rfl
    show ((s.buffer.arrive arrival.simTime).accept _).accepted.Perm
      (((s.buffer.arrive arrival.simTime).accept _).dispatched ++ _)
    rw [haccepted, hdispatched]
    have hheld : (s.held ++ [s.buffer.frameOf arrival]).Perm
        (portBuffer.queue ++ [s.buffer.frameOf arrival] ++ s.others arrival.port) := by
      calc (s.held ++ [s.buffer.frameOf arrival]).Perm
            (portBuffer.queue ++ s.others arrival.port ++ [s.buffer.frameOf arrival]) :=
          hbefore.append_right _
        _ = portBuffer.queue ++ (s.others arrival.port ++ [s.buffer.frameOf arrival]) :=
          List.append_assoc _ _ _
        _ |>.Perm (portBuffer.queue ++ ([s.buffer.frameOf arrival] ++ s.others arrival.port)) :=
          List.perm_append_comm.append_left _
        _ = portBuffer.queue ++ [s.buffer.frameOf arrival] ++ s.others arrival.port :=
          (List.append_assoc _ _ _).symm
    have hall := h.once.append_right [s.buffer.frameOf arrival]
    rw [List.append_assoc] at hall
    exact hall.trans ((hheld.trans hafter.symm).append_left _)

theorem Inv.arrival (h : s.Inv) {arrival : FrameArrival} (hok : s.step (.arrival arrival) = .ok s') :
    s'.Inv := by
  obtain ⟨-, rfl⟩ | ⟨hroom, portBuffer, hport, hcases⟩ := arrival_cases hok
  · exact ⟨h.account.drop, fun i portBuffer hi ↦ ⟨(h.ports i portBuffer hi).port,
      (h.ports i portBuffer hi).busy, (h.ports i portBuffer hi).order,
      (h.ports i portBuffer hi).message⟩, h.once⟩
  · have hmessage := (h.ports _ _ hport).message
    obtain ⟨hbusy, rfl⟩ | ⟨time, hidle, rfl⟩ := hcases
    · rw [hbusy] at hmessage
      exact h.enqueue hroom hport hmessage fun _ _ ↦ rfl
    · rw [hidle] at hmessage
      apply h.enqueue hroom hport
      · rw [List.countP_append, hmessage, List.countP_singleton, beq_self_eq_true]
        rfl
      · intro i hne
        have hnot : (arrival.port == i) = false := beq_eq_false_iff_ne.mpr hne.symm
        rw [List.countP_append, List.countP_singleton, hnot]
        rfl

/-- The head of a queue is dispatched, and the messages are those of the busy CPUs. -/
theorem Inv.dequeue (h : s.Inv) {p : ℕ} {simTime : ℚ} {portBuffer : PortBuffer} {frame : Frame}
    {queue : List Frame} {b : RelayBuffer} (hport : s.ports[p]? = some portBuffer)
    (hqueue : portBuffer.queue = frame :: queue)
    (hdispatch : { s.buffer with simTime }.dispatch frame portBuffer.port = .ok b)
    (cpuBusy : Bool) (hbusy : cpuBusy = true ↔ queue ≠ []) {messages : List EndProcessing}
    (hthis : messages.countP (·.contextPointer == p) = cpuBusy.toNat)
    (hothers : ∀ i, i ≠ p → messages.countP (·.contextPointer == i) =
      s.messages.countP (·.contextPointer == i)) :
    Inv ⟨b, s.ports.set p ⟨portBuffer.port, cpuBusy, queue⟩, messages⟩ := by
  obtain ⟨haccepted, hdispatched, -⟩ := RelayBuffer.dispatch_ok hdispatch
  have hold := h.ports _ _ hport
  have hgate : frame.arrivalGate = p := by
    have hmem : frame ∈ ofPort p s.buffer.accepted := by
      rw [hold.order, hqueue]
      exact List.mem_append_right _ List.mem_cons_self
    exact beq_iff_eq.mp (List.mem_filter.mp hmem).2
  refine ⟨(h.account.setTime simTime).dispatch hdispatch, ports_set (s := s) rfl ?_ ?_, ?_⟩
  · refine ⟨hold.port, hbusy, ?_, hthis⟩
    show ofPort p b.accepted = ofPort p b.dispatched ++ queue
    rw [haccepted, hdispatched, ofPort_concat_of_eq hgate, List.append_assoc, List.singleton_append,
      ← hqueue]
    exact hold.order
  · intro i portBuffer' hne hi
    have hother := h.ports i portBuffer' hi
    refine ⟨hother.port, hother.busy, ?_, (hothers i hne).trans hother.message⟩
    show ofPort i b.accepted = ofPort i b.dispatched ++ _
    rw [haccepted, hdispatched, ofPort_concat_of_ne (hgate.trans_ne hne.symm)]
    exact hother.order
  · have hbefore := held_perm hport
    have hafter := held_set_perm ⟨b, s.ports.set p ⟨portBuffer.port, cpuBusy, queue⟩, messages⟩ hport rfl
    rw [hqueue] at hbefore
    show b.accepted.Perm (b.dispatched ++ _)
    rw [haccepted, hdispatched, List.append_assoc]
    exact h.once.trans ((hbefore.trans (hafter.symm.cons frame)).append_left _)

theorem Inv.endProcessing (h : s.Inv) {message : EndProcessing}
    (hok : s.step (.endProcessing message) = .ok s') : s'.Inv := by
  obtain ⟨hmem, portBuffer, frame, queue, b, hport, hqueue, hdispatch, hcases⟩ := endProcessing_cases hok
  have hold := h.ports _ _ hport
  have hbusy : portBuffer.cpuBusy = true := by
    rw [hold.busy, hqueue]
    nofun
  have hcount := hold.message
  rw [hbusy] at hcount
  have hperm := List.perm_cons_erase hmem
  have herase : (s.messages.erase message).countP (·.contextPointer == message.contextPointer) = 0 := by
    rw [hperm.countP_eq, List.countP_cons] at hcount
    simp only [beq_self_eq_true, if_true, Bool.toNat_true] at hcount
    exact Nat.succ.inj hcount
  have hkeep : ∀ i, i ≠ message.contextPointer → (s.messages.erase message).countP (·.contextPointer == i) =
      s.messages.countP (·.contextPointer == i) := by
    intro i hne
    have hnot : (message.contextPointer == i) = false := beq_eq_false_iff_ne.mpr hne.symm
    rw [hperm.countP_eq, List.countP_cons]
    simp only [hnot, Bool.false_eq_true, if_false, Nat.add_zero]
  obtain ⟨rfl, rfl⟩ | ⟨time, hne, rfl⟩ := hcases
  · exact h.dequeue hport hqueue hdispatch false (iff_of_false Bool.false_ne_true (not_not.mpr rfl))
      herase hkeep
  · apply h.dequeue hport hqueue hdispatch portBuffer.cpuBusy (iff_of_true hbusy hne)
    · rw [List.countP_append, herase, List.countP_singleton, beq_self_eq_true, hbusy]
      rfl
    · intro i hi
      have hnot : (message.contextPointer == i) = false := beq_eq_false_iff_ne.mpr hi.symm
      rw [List.countP_append, List.countP_singleton, hnot, hkeep i hi]
      rfl

theorem Inv.step (h : s.Inv) (e : Event) (hok : s.step e = .ok s') : s'.Inv := by
  cases e with
  | arrival arrival => exact h.arrival hok
  | endProcessing message => exact h.endProcessing hok

theorem inv_of_reachable {allowed : MACRelayUnitPP → Event → Prop}
    (h : Reachable Initialized allowed step s) : s.Inv :=
  h.invariant (fun _ ↦ Initialized.inv) fun _ e _ hs _ hok ↦ hs.step e hok

end Runs

/-! ## Accounting -/

/-- The bytes of the frames in the switch are counted; a frame is dropped if there is no room for it, and
dispatched once otherwise, in the order in which the frames arrived at its port; frames are in a queue only
while the CPU of the port is busy. -/
structure Accounted (s : MACRelayUnitPP) : Prop where
  bufferUsed : s.buffer.bufferUsed = byteLength s.held
  admits : ∀ arrival s', s.step (.arrival arrival) = .ok s' → s.buffer.Admits s.held arrival s'.buffer
  nodup : s.buffer.accepted.Nodup
  once : s.buffer.accepted.Perm (s.buffer.dispatched ++ s.held)
  arrivalOrder : s.buffer.accepted.Pairwise fun f g ↦ f.number < g.number
  queueOrder : ∀ i portBuffer, s.ports[i]? = some portBuffer →
    ofPort i s.buffer.accepted = ofPort i s.buffer.dispatched ++ portBuffer.queue
  dispatches : ∀ message s', s.step (.endProcessing message) = .ok s' → ∃ portBuffer frame,
    s.ports[message.contextPointer]? = some portBuffer ∧ portBuffer.queue.head? = some frame ∧
      s'.buffer.dispatched = s.buffer.dispatched ++ [frame] ∧ s'.buffer.accepted = s.buffer.accepted ∧
      s.buffer.SendsOut frame portBuffer.port s'.buffer
  waits : ∀ i portBuffer, s.ports[i]? = some portBuffer → portBuffer.queue ≠ [] →
    portBuffer.cpuBusy = true ∧ ∃ message ∈ s.messages, message.contextPointer = i
  drained : s.messages = [] → s.buffer.accepted.Perm s.buffer.dispatched
  pops : ∀ e, s.step e ≠ .error .emptyQueue

section Results

variable {s : MACRelayUnitPP}

/-- The CPU that a message belongs to has a frame to work on. -/
theorem Inv.pops (h : s.Inv) (e : Event) : s.step e ≠ .error .emptyQueue := by
  intro herror
  cases e with
  | arrival arrival =>
    unfold MACRelayUnitPP.step handleIncomingFrame at herror
    dsimp only at herror
    split_ifs at herror
    split at herror
    · cases herror
    · rename_i portBuffer _
      cases hbusy : portBuffer.cpuBusy with
      | true =>
        rw [hbusy, if_pos rfl] at herror
        cases herror
      | false =>
        rw [hbusy, if_neg Bool.false_ne_true] at herror
        obtain htime | ⟨time, -, hrest⟩ := bind_error_iff.mp herror
        · cases RelayBuffer.endOfProcessing_error htime
        · cases hrest
  | endProcessing message =>
    unfold MACRelayUnitPP.step processFrame at herror
    dsimp only at herror
    by_cases hmem : message ∈ s.messages
    · rw [if_pos hmem] at herror
      cases hport : s.ports[message.contextPointer]? with
      | none =>
        rw [hport] at herror
        cases herror
      | some portBuffer =>
        rw [hport] at herror
        dsimp only at herror
        have hold := h.ports _ _ hport
        cases hqueue : portBuffer.queue with
        | nil =>
          have hidle : portBuffer.cpuBusy = false := by
            rw [← Bool.not_eq_true, hold.busy, hqueue]
            exact not_not.mpr rfl
          have hcount := hold.message
          rw [hidle] at hcount
          exact List.countP_eq_zero.mp hcount message hmem (beq_self_eq_true _)
        | cons frame queue =>
          rw [hqueue] at herror
          obtain hdispatch | ⟨b, -, hrest⟩ := bind_error_iff.mp herror
          · obtain ⟨cause, hcause⟩ := RelayBuffer.dispatch_error hdispatch
            cases hcause
          · split_ifs at hrest
            · cases hrest
            · obtain htime | ⟨time, -, hend⟩ := bind_error_iff.mp hrest
              · cases RelayBuffer.endOfProcessing_error htime
              · cases hend
    · rw [if_neg hmem] at herror
      cases herror

theorem Inv.waits (h : s.Inv) (i : ℕ) (portBuffer : PortBuffer) (hi : s.ports[i]? = some portBuffer)
    (hne : portBuffer.queue ≠ []) :
    portBuffer.cpuBusy = true ∧ ∃ message ∈ s.messages, message.contextPointer = i := by
  have hport := h.ports i portBuffer hi
  have hbusy := hport.busy.mpr hne
  refine ⟨hbusy, ?_⟩
  have hcount := hport.message
  rw [hbusy] at hcount
  have hpos : 0 < s.messages.countP (·.contextPointer == i) := by
    rw [hcount]
    exact Nat.one_pos
  obtain ⟨message, hmem, hcontext⟩ := List.countP_pos_iff.mp hpos
  exact ⟨message, hmem, beq_iff_eq.mp hcontext⟩

theorem Inv.accounted (h : s.Inv) : s.Accounted where
  bufferUsed := h.account.bufferUsed_eq h.once
  admits arrival s' hok := by
    have hused := h.account.bufferUsed_eq h.once
    obtain ⟨hroom, rfl⟩ | ⟨hroom, portBuffer, -, ⟨-, rfl⟩ | ⟨time, -, rfl⟩⟩ := arrival_cases hok
    · exact RelayBuffer.admits_drop hused hroom
    · exact RelayBuffer.admits_accept hused hroom
    · exact RelayBuffer.admits_accept hused hroom
  nodup := h.account.nodup
  once := h.once
  arrivalOrder := h.account.inOrder
  queueOrder i portBuffer hi := (h.ports i portBuffer hi).order
  dispatches message s' hok := by
    obtain ⟨-, portBuffer, frame, queue, b, hport, hqueue, hdispatch, hcases⟩ := endProcessing_cases hok
    obtain ⟨haccepted, hdispatched, -⟩ := RelayBuffer.dispatch_ok hdispatch
    have hsends := RelayBuffer.dispatch_sendsOut hdispatch
    refine ⟨portBuffer, frame, hport, by rw [hqueue]; rfl, ?_⟩
    obtain ⟨-, rfl⟩ | ⟨time, -, rfl⟩ := hcases
    · exact ⟨hdispatched, haccepted, hsends⟩
    · exact ⟨hdispatched, haccepted, hsends⟩
  waits := h.waits
  drained hidle := by
    have hheld : s.held = [] := by
      unfold held
      rw [List.flatMap_eq_nil_iff]
      intro portBuffer hmem
      obtain ⟨i, hi⟩ := List.mem_iff_getElem?.mp hmem
      by_contra hne
      obtain ⟨_, message, hmessage, _⟩ := h.waits i portBuffer hi hne
      rw [hidle] at hmessage
      cases hmessage
    have honce := h.once
    rwa [hheld, List.append_nil] at honce
  pops := h.pops

end Results

end MACRelayUnitPP

/-! ## Both relay units -/

/-- In every order of arrivals and ends of processing the accounts of both relay units agree with the frames
in the switch. When messages are delivered in time, the frames of a shared queue are dispatched in the order
in which they arrived, by any number of CPUs. -/
theorem relayUnits_accounted {np np' : MACRelayUnitNP} {pp : MACRelayUnitPP}
    (hnp : Reachable MACRelayUnitNP.Initialized (fun _ _ ↦ True) MACRelayUnitNP.step np)
    (hintime : Reachable MACRelayUnitNP.Initialized MACRelayUnitNP.InTime MACRelayUnitNP.step np')
    (hpp : Reachable MACRelayUnitPP.Initialized (fun _ _ ↦ True) MACRelayUnitPP.step pp) :
    np.Accounted ∧ pp.Accounted ∧ np'.buffer.dispatched <+: np'.buffer.accepted := by
  refine ⟨(MACRelayUnitNP.inv_of_reachable hnp).accounted, (MACRelayUnitPP.inv_of_reachable hpp).accounted,
    ?_⟩
  have hstarted : np'.started <+: np'.buffer.accepted :=
    ⟨np'.queue, (MACRelayUnitNP.inv_of_reachable hintime).fifo⟩
  exact (MACRelayUnitNP.inOrder_of_reachable hintime).isPrefix.trans hstarted

/-- Two ports with hosts that do not know each other yet. -/
def twoPorts : MACRelayUnitBase := .initialized 2 100 120 []

/-- No room for more than two frames of 64 bytes. -/
def smallBuffer : Parameters where
  processingTime := 1
  bufferSize := 150
  highWatermark := 100
  pauseUnits := 300

def smallFrame (simTime : ℚ) (port : ℕ) : FrameArrival := ⟨simTime, ⟨port, 0xFFFFFFFFFFFF⟩, 64, port⟩

/-- One CPU works on the first of two frames while the third one is dropped. -/
def sharedArrivals : List MACRelayUnitNP.Event :=
  [.arrival (smallFrame 0 0), .arrival (smallFrame 0 1), .arrival (smallFrame (1 / 2) 0), .endProcessing 0]

def portArrivals : List MACRelayUnitPP.Event :=
  [.arrival (smallFrame 0 0), .arrival (smallFrame 0 1), .arrival (smallFrame (1 / 2) 0),
    .endProcessing ⟨1, 1⟩]

theorem relayUnits_accounted_smallBuffer : ∃ np pp,
    (np.buffer.accepted.map (·.number), np.buffer.dispatched.map (·.number), np.buffer.numDroppedFrames) =
      ([0, 1], [0], 1) ∧
    (pp.buffer.accepted.map (·.number), pp.buffer.dispatched.map (·.number), pp.buffer.numDroppedFrames) =
      ([0, 1], [1], 1) ∧
    MACRelayUnitNP.Accounted np ∧ MACRelayUnitPP.Accounted pp ∧
      np.buffer.dispatched <+: np.buffer.accepted := by
  let np₀ : MACRelayUnitNP := ⟨.initialized twoPorts smallBuffer, [], [{}], 0, []⟩
  let pp₀ : MACRelayUnitPP := ⟨.initialized twoPorts smallBuffer, [⟨0, false, []⟩, ⟨1, false, []⟩], []⟩
  have hnp : (match run MACRelayUnitNP.step np₀ sharedArrivals with
      | .ok np => decide ((np.buffer.accepted.map (·.number), np.buffer.dispatched.map (·.number),
          np.buffer.numDroppedFrames) = ([0, 1], [0], 1))
      | .error _ => false) = true := by decide +kernel
  have hpp : (match run MACRelayUnitPP.step pp₀ portArrivals with
      | .ok pp => decide ((pp.buffer.accepted.map (·.number), pp.buffer.dispatched.map (·.number),
          pp.buffer.numDroppedFrames) = ([0, 1], [1], 1))
      | .error _ => false) = true := by decide +kernel
  have hstart : MACRelayUnitNP.Initialized np₀ := ⟨twoPorts, smallBuffer, 1, rfl⟩
  have hstart' : MACRelayUnitPP.Initialized pp₀ := ⟨twoPorts, smallBuffer, rfl⟩
  cases hrun : run MACRelayUnitNP.step np₀ sharedArrivals with
  | error e =>
    rw [hrun] at hnp
    cases hnp
  | ok np =>
    rw [hrun] at hnp
    cases hrun' : run MACRelayUnitPP.step pp₀ portArrivals with
    | error e =>
      rw [hrun'] at hpp
      cases hpp
    | ok pp =>
      rw [hrun'] at hpp
      obtain ⟨hnpAccounted, hppAccounted, hprefix⟩ := relayUnits_accounted
        ((Reachable.start hstart).of_run sharedArrivals (by decide +kernel) hrun)
        ((Reachable.start hstart).of_run sharedArrivals (by decide +kernel) hrun)
        ((Reachable.start hstart').of_run portArrivals (by decide +kernel) hrun')
      exact ⟨np, pp, of_decide_eq_true hnp, of_decide_eq_true hpp, hnpAccounted, hppAccounted, hprefix⟩

end InetManet.Ethernet
