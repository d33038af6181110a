import InetManet.Ethernet.RelayUnit

/-!
# The buffer of a relay unit

Both relay units count the bytes of the frames that are in the switch, drop a frame that would fill the
buffer, and send PAUSE frames above a watermark. A frame's length is added when the frame is accepted and
taken off when the frame has been dispatched. The histories of the accepted and the dispatched frames are
kept along; frames are numbered as they arrive.
-/

namespace InetManet.Ethernet

namespace RelayUnit

open TransitionSystem

inductive Fault
  | dispatch (fault : Ethernet.Fault)
  | assertionFailed
  | emptyQueue
  | noSuchBuffer
  | notScheduled
  | scheduledInPast
  deriving DecidableEq

structure Frame where
  etherFrame : EtherFrame
  byteLength : ℕ
  arrivalGate : ℕ
  number : ℕ

structure Parameters where
  processingTime : ℚ
  bufferSize : ℤ
  highWatermark : ℤ
  pauseUnits : ℤ

/-- One pause unit is 512 bit times at 100 Mb/s. -/
def Parameters.pauseInterval (params : Parameters) : ℚ := params.pauseUnits * 512 / 100000

/-- A frame comes in at a port. -/
structure FrameArrival where
  simTime : ℚ
  etherFrame : EtherFrame
  byteLength : ℕ
  port : ℕ

inductive Output
  | frame (frame : Frame) (port : ℕ)
  | pause (pauseUnits : ℤ) (port : ℕ)

end RelayUnit

open RelayUnit

/-- What the two relay units have in common. -/
structure RelayBuffer where
  base : MACRelayUnitBase
  params : Parameters
  simTime : ℚ := 0
  bufferUsed : ℤ := 0
  pauseLastSent : ℚ := 0
  numProcessedFrames : ℕ := 0
  numDroppedFrames : ℕ := 0
  outputs : List Output := []
  arrivals : ℕ := 0
  accepted : List Frame := []
  dispatched : List Frame := []

/-- The bytes of these frames. -/
def RelayUnit.byteLength (frames : List Frame) : ℕ := (frames.map (·.byteLength)).sum

namespace RelayBuffer

open TransitionSystem

/-! ## Operations -/

section

variable (b : RelayBuffer)

def hasRoom (length : ℕ) : Bool := length + b.bufferUsed < b.params.bufferSize

/-- Send PAUSE on all ports if above the watermark. -/
def sendPause : RelayBuffer :=
  if 0 < b.params.pauseUnits ∧ 0 < b.params.highWatermark ∧ b.params.highWatermark ≤ b.bufferUsed ∧
      b.params.pauseInterval < b.simTime - b.pauseLastSent then
    { b with
      outputs := b.outputs ++ (List.range b.base.numPorts).map (.pause b.params.pauseUnits)
      pauseLastSent := b.simTime }
  else b

/-- The next frame that arrives. -/
def frameOf (arrival : FrameArrival) : Frame where
  etherFrame := arrival.etherFrame
  byteLength := arrival.byteLength
  arrivalGate := arrival.port
  number := b.arrivals

def arrive (simTime : ℚ) : RelayBuffer :=
  { b with simTime, arrivals := b.arrivals + 1 }

def accept (frame : Frame) : RelayBuffer :=
  { b with
    bufferUsed := b.bufferUsed + frame.byteLength
    accepted := b.accepted ++ [frame] }.sendPause

def drop : RelayBuffer := { b with numDroppedFrames := b.numDroppedFrames + 1 }

/-- The frame goes out, and its bytes are released. -/
def dispatch (frame : Frame) (inputport : ℕ) : Except RelayUnit.Fault RelayBuffer :=
  match b.base.handleAndDispatchFrame b.simTime frame.etherFrame inputport with
  | .ok (ports, base) => .ok
    { b with
      base
      outputs := b.outputs ++ ports.map (.frame frame)
      bufferUsed := b.bufferUsed - frame.byteLength
      numProcessedFrames := b.numProcessedFrames + 1
      dispatched := b.dispatched ++ [frame] }
  | .error fault => .error (.dispatch fault)

/-- `scheduleAt(simTime() + processingTime, msg)`: the time of the event. -/
def endOfProcessing : Except RelayUnit.Fault ℚ :=
  if b.params.processingTime < 0 then .error .scheduledInPast
  else .ok (b.simTime + b.params.processingTime)

end

/-- Nothing has arrived yet. -/
def initialized (base : MACRelayUnitBase) (params : Parameters) : RelayBuffer := { base, params }

/-! ## Accounting -/

/-- Accepted frames less dispatched ones are counted, and every arrival is counted once. The count is below
the size of the buffer and is therefore an `int`. -/
structure Account (b : RelayBuffer) : Prop where
  bufferUsed : b.bufferUsed = byteLength b.accepted - byteLength b.dispatched
  fits : b.bufferUsed ≤ max 0 (b.params.bufferSize - 1)
  processed : b.numProcessedFrames = b.dispatched.length
  arrivals : b.arrivals = b.accepted.length + b.numDroppedFrames
  inOrder : b.accepted.Pairwise fun f g ↦ f.number < g.number
  old : ∀ f ∈ b.accepted, f.number < b.arrivals

section Accounting

variable {b b' : RelayBuffer} {frame : Frame} {inputport : ℕ} {simTime : ℚ}

theorem byteLength_append (frames frames' : List Frame) :
    byteLength (frames ++ frames') = byteLength frames + byteLength frames' := by
  unfold byteLength
  rw [List.map_append, List.sum_append]

@[simp] theorem byteLength_singleton (frame : Frame) : byteLength [frame] = frame.byteLength :=
  List.sum_singleton

theorem byteLength_perm {frames frames' : List Frame} (h : frames.Perm frames') :
    byteLength frames = byteLength frames' := (h.map _).sum_eq

/-- PAUSE frames have no influence on the frames in the buffer. -/
theorem sendPause_core (b : RelayBuffer) : b.sendPause.bufferUsed = b.bufferUsed ∧
    b.sendPause.accepted = b.accepted ∧ b.sendPause.dispatched = b.dispatched ∧
    b.sendPause.simTime = b.simTime ∧ b.sendPause.params = b.params ∧
    b.sendPause.numProcessedFrames = b.numProcessedFrames ∧
    b.sendPause.numDroppedFrames = b.numDroppedFrames ∧ b.sendPause.arrivals = b.arrivals ∧
    b.sendPause.base = b.base := by
  unfold sendPause
  split_ifs
  · exact ⟨rfl, rfl, rfl, rfl, rfl, rfl, rfl, rfl, rfl⟩
  · exact ⟨rfl, rfl, rfl, rfl, rfl, rfl, rfl, rfl, rfl⟩

@[simp] theorem accept_bufferUsed : (b.accept frame).bufferUsed = b.bufferUsed + frame.byteLength :=
  (sendPause_core _).1

@[simp] theorem accept_accepted : (b.accept frame).accepted = b.accepted ++ [frame] :=
  (sendPause_core _).2.1

@[simp] theorem accept_dispatched : (b.accept frame).dispatched = b.dispatched := (sendPause_core _).2.2.1

@[simp] theorem accept_simTime : (b.accept frame).simTime = b.simTime := (sendPause_core _).2.2.2.1

@[simp] theorem accept_params : (b.accept frame).params = b.params := (sendPause_core _).2.2.2.2.1

@[simp] theorem accept_numDroppedFrames : (b.accept frame).numDroppedFrames = b.numDroppedFrames :=
  (sendPause_core _).2.2.2.2.2.2.1

@[simp] theorem accept_numProcessedFrames :
    (b.accept frame).numProcessedFrames = b.numProcessedFrames := (sendPause_core _).2.2.2.2.2.1

@[simp] theorem accept_arrivals : (b.accept frame).arrivals = b.arrivals :=
  (sendPause_core _).2.2.2.2.2.2.2.1

theorem dispatch_ok (h : b.dispatch frame inputport = .ok b') : b'.accepted = b.accepted ∧
    b'.dispatched = b.dispatched ++ [frame] ∧ b'.bufferUsed = b.bufferUsed - frame.byteLength ∧
    b'.simTime = b.simTime ∧ b'.params = b.params ∧ b'.numDroppedFrames = b.numDroppedFrames ∧
    b'.arrivals = b.arrivals ∧ b'.numProcessedFrames = b.numProcessedFrames + 1 := by
  unfold dispatch at h
  split at h
  · cases h
    exact ⟨rfl, rfl, rfl, rfl, rfl, rfl, rfl, rfl⟩
  · cases h

/-- The frame has gone out through the ports that `handleAndDispatchFrame` gives, and nothing else has. -/
def SendsOut (b : RelayBuffer) (frame : Frame) (inputport : ℕ) (b' : RelayBuffer) : Prop :=
  ∃ ports, b.base.handleAndDispatchFrame b'.simTime frame.etherFrame inputport = .ok (ports, b'.base) ∧
    b'.outputs = b.outputs ++ ports.map (.frame frame)

theorem dispatch_sendsOut (h : b.dispatch frame inputport = .ok b') : b.SendsOut frame inputport b' := by
  unfold dispatch at h
  split at h
  · rename_i ports base hports
    cases h
    exact ⟨ports, hports, rfl⟩
  · cases h

theorem dispatch_error {fault : RelayUnit.Fault} (h : b.dispatch frame inputport = .error fault) :
    ∃ cause, fault = .dispatch cause := by
  unfold dispatch at h
  split at h
  · cases h
  · rename_i cause _
    exact ⟨cause, (Except.error.inj h).symm⟩

theorem endOfProcessing_error {fault : RelayUnit.Fault} (h : b.endOfProcessing = .error fault) :
    fault = .scheduledInPast := by
  unfold endOfProcessing at h
  split_ifs at h
  exact (Except.error.inj h).symm

theorem account_initialized (base : MACRelayUnitBase) (params : Parameters) :
    (initialized base params).Account := ⟨rfl, le_max_left _ _, rfl, rfl, List.Pairwise.nil, nofun⟩

theorem Account.accept (h : b.Account) (hroom : b.hasRoom frame.byteLength = true)
    (hnumber : frame.number = b.arrivals) :
    ((b.arrive simTime).accept frame).Account := by
  constructor
  · rw [accept_bufferUsed, accept_accepted, accept_dispatched, byteLength_append, byteLength_singleton]
    have hused := h.bufferUsed
    change b.bufferUsed + _ = _ - (byteLength b.dispatched : ℤ)
    push_cast
    change b.bufferUsed + _ = (byteLength b.accepted : ℤ) + _ - _
    omega
  · rw [accept_bufferUsed, accept_params]
    have hlt := of_decide_eq_true hroom
    change b.bufferUsed + _ ≤ max 0 (b.params.bufferSize - 1)
    omega
  · rw [accept_numProcessedFrames, accept_dispatched]
    exact h.processed
  · rw [accept_arrivals, accept_accepted, accept_numDroppedFrames, List.length_append,
      List.length_singleton]
    show b.arrivals + 1 = b.accepted.length + 1 + b.numDroppedFrames
    have harrivals := h.arrivals
    omega
  · rw [accept_accepted, List.pairwise_append]
    refine ⟨h.inOrder, List.pairwise_singleton _ _, ?_⟩
    intro f hf g hg
    rw [List.mem_singleton.mp hg, hnumber]
    exact h.old f hf
  · intro f hf
    rw [accept_arrivals]
    rw [accept_accepted, List.mem_append, List.mem_singleton] at hf
    obtain hold | rfl := hf
    · exact Nat.lt_succ_of_lt (h.old f hold)
    · rw [hnumber]
      exact Nat.lt_succ_self _

theorem Account.drop (h : b.Account) : (b.arrive simTime).drop.Account := by
  refine ⟨h.bufferUsed, h.fits, h.processed, ?_, h.inOrder, fun f hf ↦ Nat.lt_succ_of_lt (h.old f hf)⟩
  show b.arrivals + 1 = b.accepted.length + (b.numDroppedFrames + 1)
  have harrivals := h.arrivals
  omega

theorem Account.dispatch (h : b.Account) (hok : b.dispatch frame inputport = .ok b') : b'.Account := by
  obtain ⟨haccepted, hdispatched, hused, _, hparams, hdropped, harrivals, hprocessed⟩ := dispatch_ok hok
  constructor
  · rw [haccepted, hdispatched, hused, byteLength_append, byteLength_singleton, h.bufferUsed]
    push_cast
    omega
  · rw [hused, hparams]
    have hfits := h.fits
    omega
  · rw [hprocessed, hdispatched, List.length_append, List.length_singleton, h.processed]
  · rw [harrivals, haccepted, hdropped]
    exact h.arrivals
  · rw [haccepted]
    exact h.inOrder
  · rw [haccepted, harrivals]
    exact h.old

theorem Account.setTime (h : b.Account) (simTime : ℚ) : { b with simTime }.Account :=
  ⟨h.bufferUsed, h.fits, h.processed, h.arrivals, h.inOrder, h.old⟩

/-- The frames in the switch, in any order: what has been accepted and not dispatched. -/
theorem Account.bufferUsed_eq (h : b.Account) {held : List Frame}
    (hheld : b.accepted.Perm (b.dispatched ++ held)) : b.bufferUsed = byteLength held := by
  rw [h.bufferUsed, byteLength_perm hheld, byteLength_append]
  push_cast
  omega

/-- The frame is dropped if it would bring the bytes in the switch up to the size of the buffer, and
accepted otherwise. -/
def Admits (b : RelayBuffer) (held : List Frame) (arrival : FrameArrival) (b' : RelayBuffer) : Prop :=
  if b.params.bufferSize ≤ byteLength held + arrival.byteLength then b' = (b.arrive arrival.simTime).drop
  else b' = (b.arrive arrival.simTime).accept (b.frameOf arrival)

theorem admits_drop {held : List Frame} {arrival : FrameArrival} (hused : b.bufferUsed = byteLength held)
    (hroom : b.hasRoom arrival.byteLength = false) :
    b.Admits held arrival (b.arrive arrival.simTime).drop := by
  unfold hasRoom at hroom
  have hle := of_decide_eq_false hroom
  unfold Admits
  rw [if_pos (by omega)]

theorem admits_accept {held : List Frame} {arrival : FrameArrival} (hused : b.bufferUsed = byteLength held)
    (hroom : b.hasRoom arrival.byteLength = true) :
    b.Admits held arrival ((b.arrive arrival.simTime).accept (b.frameOf arrival)) := by
  unfold hasRoom at hroom
  have hlt := of_decide_eq_true hroom
  unfold Admits
  rw [if_neg (by omega)]

theorem Account.nodup (h : b.Account) : b.accepted.Nodup :=
  h.inOrder.imp fun hlt heq ↦ absurd (congrArg Frame.number heq) hlt.ne

end Accounting

end RelayBuffer

end InetManet.Ethernet
