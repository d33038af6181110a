import InetManet.Ethernet.RelayBuffer
import Mathlib.Data.List.GetD
import Mathlib.Data.List.Perm.Basic

/-!
# The relay unit with a shared queue

Any number of CPUs work from one queue. A frame that is accepted goes to the first idle CPU, whose message
carries it until its processing ends, and into the queue if all CPUs are busy. A CPU that has dispatched its
frame takes the next one from the queue. Messages are delivered by their time, and those of one time in the
order in which they were scheduled.
-/

namespace InetManet.Ethernet

open TransitionSystem RelayUnit

namespace RelayUnit

/-- The message of a CPU: the frame that is processed, and the time for which it is scheduled with the
number of the call that scheduled it. -/
structure EndProcEvent where
  contextPointer : Option Frame := none
  scheduled : Option (ℚ × ℕ) := none

def EndProcEvent.isScheduled (event : EndProcEvent) : Bool := event.scheduled.isSome

end RelayUnit

structure MACRelayUnitNP where
  buffer : RelayBuffer
  queue : List Frame := []
  endProcEvents : List EndProcEvent
  insertions : ℕ := 0
  started : List Frame := []

namespace MACRelayUnitNP

/-! ## Operations -/

section

variable (s : MACRelayUnitNP)

def numCPUs : ℕ := s.endProcEvents.length

def event (cpu : ℕ) : EndProcEvent := s.endProcEvents.getD cpu {}

/-- The frame is parked in the message, and the message is scheduled. -/
def startProcessing (cpu : ℕ) (frame : Frame) :
    Except RelayUnit.Fault MACRelayUnitNP := do
  let time ← s.buffer.endOfProcessing
  return { s with
    endProcEvents := s.endProcEvents.set cpu ⟨some frame, some (time, s.insertions)⟩
    insertions := s.insertions + 1
    started := s.started ++ [frame] }

def handleIncomingFrame (frame : Frame) : Except RelayUnit.Fault MACRelayUnitNP :=
  if s.buffer.hasRoom frame.byteLength then
    let s := { s with buffer := s.buffer.accept frame }
    match s.endProcEvents.findIdx? (!·.isScheduled) with
    | none => .ok { s with queue := s.queue ++ [frame] }
    | some cpu =>
      if (s.event cpu).contextPointer.isNone then s.startProcessing cpu frame else .error .assertionFailed
  else .ok { s with buffer := s.buffer.drop }

/-- The message of this CPU is not scheduled any more. -/
def processFrame (cpu : ℕ) : Except RelayUnit.Fault MACRelayUnitNP :=
  match (s.event cpu).contextPointer with
  | none => .error .assertionFailed
  | some frame => do
    let buffer ← s.buffer.dispatch frame frame.arrivalGate
    let s := { s with buffer, endProcEvents := s.endProcEvents.set cpu {} }
    match s.queue with
    | [] => return s
    | newframe :: queue => startProcessing { s with queue } cpu newframe

inductive Event
  | arrival (arrival : FrameArrival)
  | endProcessing (cpu : ℕ)

def step : Event → Except RelayUnit.Fault MACRelayUnitNP
  | .arrival arrival =>
    { s with buffer := s.buffer.arrive arrival.simTime }.handleIncomingFrame (s.buffer.frameOf arrival)
  | .endProcessing cpu =>
    match (s.event cpu).scheduled with
    | none => .error .notScheduled
    | some (time, _) => { s with buffer := { s.buffer with simTime := time } }.processFrame cpu

/-- The relay unit after its initialization. -/
def Initialized : Prop :=
  ∃ base params numCPUs,
    s = { buffer := .initialized base params, endProcEvents := List.replicate numCPUs {} }

/-- No scheduled message is delivered before one with this time and number. -/
def Earliest (time : ℚ) (number : ℕ) : Prop :=
  ∀ event ∈ s.endProcEvents, ∀ x ∈ event.scheduled, time < x.1 ∨ time = x.1 ∧ number ≤ x.2

/-- Time goes on, and no scheduled message is passed over. -/
def InTime : Event → Prop
  | .arrival arrival => s.buffer.simTime ≤ arrival.simTime ∧
      ∀ event ∈ s.endProcEvents, ∀ x ∈ event.scheduled, arrival.simTime ≤ x.1
  | .endProcessing cpu => ∀ x ∈ (s.event cpu).scheduled, s.Earliest x.1 x.2

end

instance (s : MACRelayUnitNP) (time : ℚ) (number : ℕ) : Decidable (s.Earliest time number) :=
  inferInstanceAs (Decidable (∀ event ∈ s.endProcEvents, ∀ x ∈ event.scheduled, _ ∨ _))

instance (s : MACRelayUnitNP) : (e : Event) → Decidable (s.InTime e)
  | .arrival arrival => inferInstanceAs (Decidable (s.buffer.simTime ≤ arrival.simTime ∧
      ∀ event ∈ s.endProcEvents, ∀ x ∈ event.scheduled, arrival.simTime ≤ x.1))
  | .endProcessing cpu => inferInstanceAs (Decidable (∀ x ∈ (s.event cpu).scheduled, s.Earliest x.1 x.2))

/-! ## What a step does -/

section

variable (s : MACRelayUnitNP)

/-- The frames that are being processed. -/
def processing : List Frame := s.endProcEvents.filterMap EndProcEvent.contextPointer

/-- The frames in the switch. -/
def held : List Frame := s.processing ++ s.queue

/-- The CPU has dispatched its frame. -/
def finish (cpu : ℕ) (b : RelayBuffer) : MACRelayUnitNP :=
  { s with buffer := b, endProcEvents := s.endProcEvents.set cpu {} }

/-- The message of a CPU that starts with this frame. -/
def startedEvent (frame : Frame) : EndProcEvent :=
  ⟨some frame, some (s.buffer.simTime + s.buffer.params.processingTime, s.insertions)⟩

/-- The CPU has started with this frame. -/
def park (cpu : ℕ) (frame : Frame) : MACRelayUnitNP :=
  { s with
    endProcEvents := s.endProcEvents.set cpu (s.startedEvent frame)
    insertions := s.insertions + 1
    started := s.started ++ [frame] }

end

section Steps

variable {s s' : MACRelayUnitNP} {arrival : FrameArrival} {cpu : ℕ}

theorem endOfProcessing_ok {b : RelayBuffer} {time : ℚ} (h : b.endOfProcessing = .ok time) :
    0 ≤ b.params.processingTime ∧ time = b.simTime + b.params.processingTime := by
  unfold RelayBuffer.endOfProcessing at h
  by_cases hneg : b.params.processingTime < 0
  · rw [if_pos hneg] at h
    cases h
  · rw [if_neg hneg] at h
    cases h
    exact ⟨not_lt.mp hneg, rfl⟩

theorem startProcessing_ok {frame : Frame} (h : s.startProcessing cpu frame = .ok s') :
    0 ≤ s.buffer.params.processingTime ∧ s' = s.park cpu frame := by
  obtain ⟨time, htime, hend⟩ := bind_ok_iff.mp h
  obtain ⟨hpos, rfl⟩ := endOfProcessing_ok htime
  cases hend
  exact ⟨hpos, rfl⟩

/-- The state with an arrived frame in the buffer. -/
def received (s : MACRelayUnitNP) (arrival : FrameArrival) : MACRelayUnitNP :=
  { s with buffer := (s.buffer.arrive arrival.simTime).accept (s.buffer.frameOf arrival) }

theorem lt_numCPUs_of_scheduled {scheduled : ℚ × ℕ} (h : (s.event cpu).scheduled = some scheduled) :
    cpu < s.numCPUs := by
  by_contra hge
  have hdefault : s.event cpu = {} := List.getD_eq_default _ _ (not_lt.mp hge)
  rw [hdefault] at h
  cases h

theorem idle_of_findIdx? (h : s.endProcEvents.findIdx? (!·.isScheduled) = some cpu) :
    cpu < s.numCPUs ∧ (s.event cpu).isScheduled = false := by
  obtain ⟨hlt, hnot, -⟩ := List.findIdx?_eq_some_iff_getElem.mp h
  have hevent : s.event cpu = s.endProcEvents[cpu] := List.getD_eq_getElem _ _ hlt
  refine ⟨hlt, ?_⟩
  rw [hevent]
  rwa [Bool.not_eq_true'] at hnot

/-- An arriving frame is dropped, queued behind busy CPUs, or given to an idle CPU. -/
theorem arrival_cases (h : s.step (.arrival arrival) = .ok s') :
    (s.buffer.hasRoom arrival.byteLength = false ∧
      s' = { s with buffer := (s.buffer.arrive arrival.simTime).drop }) ∨
    s.buffer.hasRoom arrival.byteLength = true ∧
      (((∀ event ∈ s.endProcEvents, event.isScheduled = true) ∧
        s' = { s.received arrival with queue := s.queue ++ [s.buffer.frameOf arrival] }) ∨
      ∃ cpu, cpu < s.numCPUs ∧ s.event cpu = {} ∧ 0 ≤ s.buffer.params.processingTime ∧
        s' = (s.received arrival).park cpu (s.buffer.frameOf arrival)) := by
  unfold step handleIncomingFrame at h
  change (if s.buffer.hasRoom arrival.byteLength = true then _ else _) = _ at h
  by_cases hroom : s.buffer.hasRoom arrival.byteLength = true
  · rw [if_pos hroom] at h
    refine Or.inr ⟨hroom, ?_⟩
    cases hidle : s.endProcEvents.findIdx? (!·.isScheduled) with
    | none =>
      simp only [hidle] at h
      refine Or.inl ⟨?_, (Except.ok.inj h).symm⟩
      intro event hevent
      have hbusy := List.findIdx?_eq_none_iff.mp hidle event hevent
      rwa [Bool.not_eq_false'] at hbusy
    | some cpu =>
      simp only [hidle] at h
      obtain ⟨hlt, hnot⟩ := idle_of_findIdx? hidle
      change (if (s.event cpu).contextPointer.isNone = true then _ else _) = _ at h
      by_cases hnull : (s.event cpu).contextPointer.isNone = true
      · rw [if_pos hnull] at h
        obtain ⟨hpos, hs'⟩ := startProcessing_ok h
        rw [RelayBuffer.accept_params] at hpos
        refine Or.inr ⟨cpu, hlt, ?_, hpos, hs'⟩
        unfold EndProcEvent.isScheduled at hnot
        rw [Option.isSome_eq_false_iff] at hnot
        rcases hcase : s.event cpu with ⟨contextPointer, scheduled⟩
        rw [hcase] at hnull hnot
        change contextPointer.isNone = true at hnull
        change scheduled.isNone = true at hnot
        rw [Option.isNone_iff_eq_none.mp hnull, Option.isNone_iff_eq_none.mp hnot]
      · rw [if_neg hnull] at h
        cases h
  · rw [if_neg hroom] at h
    exact Or.inl ⟨Bool.eq_false_iff.mpr hroom, (Except.ok.inj h).symm⟩

/-- A CPU dispatches its frame and takes the next one from the queue. -/
theorem endProcessing_cases (h : s.step (.endProcessing cpu) = .ok s') :
    ∃ time number frame b, cpu < s.numCPUs ∧ s.event cpu = ⟨some frame, some (time, number)⟩ ∧
      { s.buffer with simTime := time }.dispatch frame frame.arrivalGate = .ok b ∧
      ((s.queue = [] ∧ s' = s.finish cpu b) ∨
      ∃ newframe queue, s.queue = newframe :: queue ∧ 0 ≤ b.params.processingTime ∧
        s' = park { s.finish cpu b with queue } cpu newframe) := by
  unfold step at h
  dsimp only at h
  split at h
  · cases h
  · rename_i time number hscheduled
    unfold processFrame at h
    split at h
    · cases h
    · rename_i frame hframe
      change (s.event cpu).contextPointer = some frame at hframe
      obtain ⟨b, hdispatch, hrest⟩ := bind_ok_iff.mp h
      have hevent : s.event cpu = ⟨some frame, some (time, number)⟩ := by
        rcases hcase : s.event cpu with ⟨contextPointer, scheduled⟩
        rw [hcase] at hframe hscheduled
        change contextPointer = _ at hframe
        change scheduled = _ at hscheduled
        rw [hframe, hscheduled]
      have hlt : cpu < s.numCPUs := lt_numCPUs_of_scheduled hscheduled
      refine ⟨time, number, frame, b, hlt, hevent, hdispatch, ?_⟩
      cases hqueue : s.queue with
      | nil =>
        simp only [hqueue] at hrest
        refine Or.inl ⟨rfl, ?_⟩
        rw [← Except.ok.inj hrest, finish, hqueue]
      | cons newframe queue =>
        simp only [hqueue] at hrest
        obtain ⟨hpos, hs'⟩ := startProcessing_ok hrest
        exact Or.inr ⟨newframe, queue, rfl, hpos, hs'⟩

end Steps

/-! ## Frames in the switch -/

section Parked

variable {s : MACRelayUnitNP} {cpu : ℕ} {frame : Frame} {b : RelayBuffer}

/-- The frames of the other CPUs. -/
def others (s : MACRelayUnitNP) (cpu : ℕ) : List Frame :=
  (s.endProcEvents.eraseIdx cpu).filterMap EndProcEvent.contextPointer

theorem set_perm (hlt : cpu < s.numCPUs) (e : EndProcEvent) :
    (s.endProcEvents.set cpu e).Perm (e :: s.endProcEvents.eraseIdx cpu) :=
  List.set_perm_cons_eraseIdx hlt e

theorem endProcEvents_perm (hlt : cpu < s.numCPUs) :
    s.endProcEvents.Perm (s.event cpu :: s.endProcEvents.eraseIdx cpu) := by
  have hevent : s.event cpu = s.endProcEvents[cpu] := List.getD_eq_getElem _ _ hlt
  rw [hevent]
  exact (List.getElem_cons_eraseIdx_perm hlt).symm

theorem event_mem (hlt : cpu < s.numCPUs) : s.event cpu ∈ s.endProcEvents :=
  (endProcEvents_perm hlt).mem_iff.mpr List.mem_cons_self

theorem event_finish (hlt : cpu < s.numCPUs) : cpu < (s.finish cpu b).numCPUs ∧
    (s.finish cpu b).event cpu = {} := by
  have hlength : cpu < (s.endProcEvents.set cpu {}).length := by rwa [List.length_set]
  refine ⟨hlength, ?_⟩
  show (s.endProcEvents.set cpu {}).getD cpu {} = {}
  rw [List.getD_eq_getElem _ _ hlength, List.getElem_set_self]

/-- Every frame that a CPU has started with is dispatched or parked in a message that is scheduled. -/
structure Parked (s : MACRelayUnitNP) : Prop where
  started : s.started.Perm (s.buffer.dispatched ++ s.processing)
  carries : ∀ e ∈ s.endProcEvents, e.contextPointer.isSome = e.isScheduled

theorem Parked.finish (h : s.Parked) (hlt : cpu < s.numCPUs) {scheduled : Option (ℚ × ℕ)}
    (hevent : s.event cpu = ⟨some frame, scheduled⟩)
    (hdispatched : b.dispatched = s.buffer.dispatched ++ [frame]) : (s.finish cpu b).Parked := by
  have hprocessing : s.processing.Perm (frame :: s.others cpu) := by
    have hperm := (endProcEvents_perm hlt).filterMap EndProcEvent.contextPointer
    rwa [hevent] at hperm
  have hafter : (s.finish cpu b).processing.Perm (s.others cpu) :=
    (set_perm hlt {}).filterMap EndProcEvent.contextPointer
  constructor
  · calc s.started.Perm (s.buffer.dispatched ++ s.processing) := h.started
      _ |>.Perm (s.buffer.dispatched ++ (frame :: s.others cpu)) := hprocessing.append_left _
      _ = b.dispatched ++ s.others cpu := by
          rw [hdispatched, List.append_assoc]
          rfl
      _ |>.Perm (b.dispatched ++ (s.finish cpu b).processing) := hafter.symm.append_left _
  · intro e he
    obtain hold | rfl := List.mem_or_eq_of_mem_set he
    · exact h.carries e hold
    · rfl

theorem Parked.park (h : s.Parked) (hlt : cpu < s.numCPUs) (hevent : s.event cpu = {}) (frame : Frame) :
    (s.park cpu frame).Parked := by
  have hprocessing : s.processing.Perm (s.others cpu) := by
    have hperm := (endProcEvents_perm hlt).filterMap EndProcEvent.contextPointer
    rwa [hevent] at hperm
  have hafter : (s.park cpu frame).processing.Perm (frame :: s.others cpu) :=
    (set_perm hlt (s.startedEvent frame)).filterMap EndProcEvent.contextPointer
  constructor
  · have hbefore : s.started.Perm (s.buffer.dispatched ++ s.others cpu) :=
      h.started.trans (hprocessing.append_left _)
    calc (s.started ++ [frame]).Perm (frame :: s.started) := List.perm_append_singleton frame s.started
      _ |>.Perm (frame :: (s.buffer.dispatched ++ s.others cpu)) := hbefore.cons frame
      _ |>.Perm (s.buffer.dispatched ++ frame :: s.others cpu) := List.perm_middle.symm
      _ |>.Perm (s.buffer.dispatched ++ (s.park cpu frame).processing) := hafter.symm.append_left _
  · intro e he
    obtain hold | rfl := List.mem_or_eq_of_mem_set he
    · exact h.carries e hold
    · rfl

end Parked

/-! ## Over all runs -/

structure Inv (s : MACRelayUnitNP) : Prop extends Parked s where
  account : s.buffer.Account
  fifo : s.started ++ s.queue = s.buffer.accepted
  waits : s.queue ≠ [] → ∀ e ∈ s.endProcEvents, e.isScheduled = true

section Runs

variable {s s' : MACRelayUnitNP} {cpu : ℕ} {frame : Frame} {b : RelayBuffer}

theorem Inv.queue_eq_nil (h : s.Inv) (hlt : cpu < s.numCPUs) (hidle : s.event cpu = {}) : s.queue = [] := by
  by_contra hne
  have hscheduled := h.waits hne (s.event cpu) (event_mem hlt)
  rw [hidle] at hscheduled
  cases hscheduled

theorem Initialized.inv (h : s.Initialized) : s.Inv := by
  obtain ⟨base, params, numCPUs, rfl⟩ := h
  have hevents : ∀ e ∈ List.replicate numCPUs ({} : EndProcEvent), e = {} := fun e ↦
    List.eq_of_mem_replicate
  refine ⟨⟨?_, ?_⟩, RelayBuffer.account_initialized base params, rfl, fun hne ↦ absurd rfl hne⟩
  · have hnone : (List.replicate numCPUs ({} : EndProcEvent)).filterMap EndProcEvent.contextPointer = [] := by
      rw [List.filterMap_eq_nil_iff]
      intro e he
      rw [hevents e he]
    show ([] : List Frame).Perm ([] ++ (List.replicate numCPUs _).filterMap _)
    rw [hnone]
    exact List.Perm.nil
  · intro e he
    rw [hevents e he]
    rfl

theorem Inv.arrival (h : s.Inv) {arrival : FrameArrival} (hok : s.step (.arrival arrival) = .ok s') :
    s'.Inv := by
  have hparked : (s.received arrival).Parked := by
    refine ⟨?_, h.carries⟩
    show s.started.Perm (((s.buffer.arrive arrival.simTime).accept _).dispatched ++ s.processing)
    rw [RelayBuffer.accept_dispatched]
    exact h.started
  have haccepted : (s.received arrival).buffer.accepted = s.buffer.accepted ++ [s.buffer.frameOf arrival] :=
    RelayBuffer.accept_accepted
  obtain ⟨-, rfl⟩ | ⟨hroom, ⟨hbusy, rfl⟩ | ⟨cpu, hlt, hidle, -, rfl⟩⟩ := arrival_cases hok
  · exact ⟨⟨h.started, h.carries⟩, h.account.drop, h.fifo, h.waits⟩
  · refine ⟨⟨hparked.started, hparked.carries⟩, h.account.accept hroom rfl, ?_, fun _ ↦ hbusy⟩
    show s.started ++ (s.queue ++ [_]) = (s.received arrival).buffer.accepted
    rw [haccepted, ← List.append_assoc, h.fifo]
  · have hempty := h.queue_eq_nil hlt hidle
    have hfifo := h.fifo
    rw [hempty, List.append_nil] at hfifo
    refine ⟨hparked.park hlt hidle _, h.account.accept hroom rfl, ?_, fun hne ↦ absurd hempty hne⟩
    show s.started ++ [_] ++ s.queue = (s.received arrival).buffer.accepted
    rw [haccepted, hempty, List.append_nil, hfifo]

theorem Inv.endProcessing (h : s.Inv) (hok : s.step (.endProcessing cpu) = .ok s') : s'.Inv := by
  obtain ⟨time, number, frame, b, hlt, hevent, hdispatch, hend⟩ := endProcessing_cases hok
  obtain ⟨haccepted, hdispatched, -⟩ := RelayBuffer.dispatch_ok hdispatch
  have haccount := (h.account.setTime time).dispatch hdispatch
  have hparked := h.toParked.finish hlt hevent hdispatched
  obtain ⟨hempty, rfl⟩ | ⟨newframe, queue, hqueue, -, rfl⟩ := hend
  · refine ⟨hparked, haccount, ?_, fun hne ↦ absurd hempty hne⟩
    exact h.fifo.trans haccepted.symm
  · obtain ⟨hlength, hidle⟩ := event_finish (b := b) hlt
    have hpopped : ({ s.finish cpu b with queue } : MACRelayUnitNP).Parked := ⟨hparked.started, hparked.carries⟩
    refine ⟨hpopped.park hlength hidle newframe, haccount, ?_, ?_⟩
    · show s.started ++ [newframe] ++ queue = b.accepted
      rw [haccepted, List.append_assoc, List.singleton_append, ← hqueue]
      exact h.fifo
    · intro _ e he
      change e ∈ (s.endProcEvents.set cpu {}).set cpu _ at he
      rw [List.set_set] at he
      obtain hold | rfl := List.mem_or_eq_of_mem_set he
      · apply h.waits _ e hold
        rw [hqueue]
        nofun
      · rfl

theorem Inv.step (h : s.Inv) (e : Event) (hok : s.step e = .ok s') : s'.Inv := by
  cases e with
  | arrival arrival => exact h.arrival hok
  | endProcessing cpu => exact h.endProcessing hok

theorem inv_of_reachable {allowed : MACRelayUnitNP → Event → Prop}
    (h : Reachable Initialized allowed step s) : s.Inv :=
  h.invariant (fun _ ↦ Initialized.inv) fun _ e _ hs _ hok ↦ hs.step e hok

end Runs

/-! ## Over the runs in which messages are delivered in time -/

def number? (e : EndProcEvent) : Option ℕ := e.scheduled.map Prod.snd

/-- A message that was scheduled later has a later time, and the scheduled messages carry the frames
behind those that are dispatched. -/
structure InOrder (s : MACRelayUnitNP) : Prop where
  insertions : s.insertions = s.started.length
  isPrefix : s.buffer.dispatched <+: s.started
  numbers : (s.endProcEvents.filterMap number?).Perm
    (List.range' s.buffer.dispatched.length (s.started.length - s.buffer.dispatched.length))
  frames : ∀ e ∈ s.endProcEvents, ∀ time n, e.scheduled = some (time, n) →
    e.contextPointer = s.started[n]?
  times : ∀ e ∈ s.endProcEvents, ∀ e' ∈ s.endProcEvents, ∀ time n time' n',
    e.scheduled = some (time, n) → e'.scheduled = some (time', n') → n ≤ n' → time ≤ time'
  window : ∀ e ∈ s.endProcEvents, ∀ time n, e.scheduled = some (time, n) →
    s.buffer.simTime ≤ time ∧ time ≤ s.buffer.simTime + s.buffer.params.processingTime

section Delivery

variable {s s' : MACRelayUnitNP} {cpu : ℕ} {frame : Frame} {b : RelayBuffer}

theorem number?_eq_some {e : EndProcEvent} {time : ℚ} {n : ℕ} (h : e.scheduled = some (time, n)) :
    number? e = some n := by
  rw [number?, h]
  rfl

/-- The number of a scheduled message is that of a frame that is not dispatched. -/
theorem InOrder.number_bounds (h : s.InOrder) {e : EndProcEvent} (he : e ∈ s.endProcEvents) {time : ℚ} {n : ℕ}
    (hscheduled : e.scheduled = some (time, n)) :
    s.buffer.dispatched.length ≤ n ∧ n < s.started.length := by
  have hmem : n ∈ s.endProcEvents.filterMap number? :=
    List.mem_filterMap.mpr ⟨e, he, number?_eq_some hscheduled⟩
  rw [h.numbers.mem_iff, List.mem_range'_1] at hmem
  omega

theorem InOrder.of_buffer (h : s.InOrder) (hdispatched : b.dispatched = s.buffer.dispatched)
    (hparams : b.params = s.buffer.params) (hle : s.buffer.simTime ≤ b.simTime)
    (hpending : ∀ e ∈ s.endProcEvents, ∀ x ∈ e.scheduled, b.simTime ≤ x.1)
    (queue : List Frame) : ({ s with buffer := b, queue } : MACRelayUnitNP).InOrder := by
  refine ⟨h.insertions, ?_, ?_, h.frames, h.times, ?_⟩
  · show b.dispatched <+: _
    rw [hdispatched]
    exact h.isPrefix
  · show (s.endProcEvents.filterMap number?).Perm (List.range' b.dispatched.length (_ - b.dispatched.length))
    rw [hdispatched]
    exact h.numbers
  · intro e he time n hscheduled
    refine ⟨hpending e he (time, n) hscheduled, ?_⟩
    have hlatest := (h.window e he time n hscheduled).2
    show time ≤ b.simTime + b.params.processingTime
    rw [hparams]
    linarith

/-- A message that is delivered in time is the first of the scheduled ones. -/
theorem InOrder.number_eq (h : s.InOrder) (hlt : cpu < s.numCPUs) {contextPointer : Option Frame} {time : ℚ}
    {number : ℕ} (hevent : s.event cpu = ⟨contextPointer, some (time, number)⟩)
    (hearliest : s.Earliest time number) : number = s.buffer.dispatched.length := by
  have hmem := event_mem hlt
  have hscheduled : (s.event cpu).scheduled = some (time, number) := by rw [hevent]
  obtain ⟨hle, hbound⟩ := h.number_bounds hmem hscheduled
  have hfirst : s.buffer.dispatched.length ∈ s.endProcEvents.filterMap number? := by
    rw [h.numbers.mem_iff, List.mem_range'_1]
    omega
  obtain ⟨e, he, hnumber⟩ := List.mem_filterMap.mp hfirst
  obtain ⟨⟨time', n⟩, hscheduled', rfl⟩ := Option.map_eq_some_iff.mp hnumber
  apply le_antisymm _ hle
  by_contra hgt
  have htime := h.times e he _ hmem time' _ time number hscheduled' hscheduled (by omega)
  obtain hlater | ⟨_, hnumberLe⟩ := hearliest e he (time', _) hscheduled'
  · exact absurd htime (not_le.mpr hlater)
  · exact hgt hnumberLe

theorem InOrder.finish (h : s.InOrder) (hlt : cpu < s.numCPUs) {time : ℚ} {number : ℕ}
    (hevent : s.event cpu = ⟨some frame, some (time, number)⟩) (hearliest : s.Earliest time number)
    (hdispatched : b.dispatched = s.buffer.dispatched ++ [frame]) (hparams : b.params = s.buffer.params)
    (htime : b.simTime = time) : (s.finish cpu b).InOrder := by
  have hmem := event_mem hlt
  have hscheduled : (s.event cpu).scheduled = some (time, number) := by rw [hevent]
  have hnumber := h.number_eq hlt hevent hearliest
  obtain ⟨-, hbound⟩ := h.number_bounds hmem hscheduled
  have hframe : s.started[s.buffer.dispatched.length]? = some frame := by
    have hcarried := h.frames _ hmem time number hscheduled
    rw [hevent] at hcarried
    rw [← hnumber]
    exact hcarried.symm
  have hlength : b.dispatched.length = s.buffer.dispatched.length + 1 := by
    rw [hdispatched, List.length_append, List.length_singleton]
  -- the messages that stay scheduled
  have hold : ∀ e ∈ (s.finish cpu b).endProcEvents, ∀ time' n, e.scheduled = some (time', n) →
      e ∈ s.endProcEvents := by
    intro e he time' n hscheduled'
    obtain hmem' | rfl := List.mem_or_eq_of_mem_set he
    · exact hmem'
    · cases hscheduled'
  constructor
  · exact h.insertions
  · show b.dispatched <+: s.started
    rw [List.prefix_iff_eq_take, hlength, List.take_add_one, hframe, hdispatched]
    rw [← List.prefix_iff_eq_take.mp h.isPrefix]
    rfl
  · show ((s.endProcEvents.set cpu {}).filterMap number?).Perm
      (List.range' b.dispatched.length (s.started.length - b.dispatched.length))
    have hbefore := (endProcEvents_perm hlt).filterMap number?
    have hafter := (set_perm hlt {}).filterMap number?
    rw [List.filterMap_cons_some (number?_eq_some hscheduled), hnumber] at hbefore
    have hrange : List.range' s.buffer.dispatched.length (s.started.length - s.buffer.dispatched.length) =
        s.buffer.dispatched.length ::
          List.range' b.dispatched.length (s.started.length - b.dispatched.length) := by
      have hmore : s.started.length - s.buffer.dispatched.length =
          s.started.length - b.dispatched.length + 1 := by omega
      rw [hmore, List.range'_succ, hlength]
    have hall := hbefore.symm.trans h.numbers
    rw [hrange] at hall
    exact hafter.trans hall.cons_inv
  · intro e he time' n hscheduled'
    exact h.frames e (hold e he time' n hscheduled') time' n hscheduled'
  · intro e he e' he' t n t' n' hs hs'
    exact h.times e (hold e he t n hs) e' (hold e' he' t' n' hs') t n t' n' hs hs'
  · intro e he time' n hscheduled'
    have hmem' := hold e he time' n hscheduled'
    have hnow := (h.window _ hmem time number hscheduled).1
    have hlatest := (h.window e hmem' time' n hscheduled').2
    show b.simTime ≤ time' ∧ time' ≤ b.simTime + b.params.processingTime
    rw [htime, hparams]
    refine ⟨?_, by linarith⟩
    obtain hlater | ⟨hsame, -⟩ := hearliest e hmem' (time', n) hscheduled'
    · exact hlater.le
    · exact hsame.le

theorem InOrder.park (h : s.InOrder) (hlt : cpu < s.numCPUs) (hidle : s.event cpu = {})
    (hpos : 0 ≤ s.buffer.params.processingTime) (frame : Frame) : (s.park cpu frame).InOrder := by
  have hinsertions := h.insertions
  have hle := h.isPrefix.length_le
  have hnew : (s.startedEvent frame).scheduled =
      some (s.buffer.simTime + s.buffer.params.processingTime, s.started.length) := by
    rw [← hinsertions]
    rfl
  constructor
  · show s.insertions + 1 = (s.started ++ [frame]).length
    rw [List.length_append, hinsertions]
    rfl
  · exact h.isPrefix.trans (List.prefix_append _ _)
  · show ((s.endProcEvents.set cpu (s.startedEvent frame)).filterMap number?).Perm
      (List.range' s.buffer.dispatched.length
        ((s.started ++ [frame]).length - s.buffer.dispatched.length))
    have hbefore := (endProcEvents_perm hlt).filterMap number?
    have hafter := (set_perm hlt (s.startedEvent frame)).filterMap number?
    rw [hidle, List.filterMap_cons_none rfl] at hbefore
    rw [List.filterMap_cons_some (number?_eq_some hnew)] at hafter
    have hrange : List.range' s.buffer.dispatched.length
        ((s.started ++ [frame]).length - s.buffer.dispatched.length) =
          List.range' s.buffer.dispatched.length (s.started.length - s.buffer.dispatched.length) ++
            [s.started.length] := by
      have hmore : (s.started ++ [frame]).length - s.buffer.dispatched.length =
          s.started.length - s.buffer.dispatched.length + 1 := by
        rw [List.length_append, List.length_singleton]
        omega
      have hlast : s.buffer.dispatched.length + 1 * (s.started.length - s.buffer.dispatched.length) =
          s.started.length := by omega
      rw [hmore, List.range'_concat, hlast]
    rw [hrange]
    exact (hafter.trans ((hbefore.symm.trans h.numbers).cons _)).trans
      (List.perm_append_singleton _ _).symm
  · intro e he time n hscheduled
    show e.contextPointer = (s.started ++ [frame])[n]?
    obtain hold | rfl := List.mem_or_eq_of_mem_set he
    · rw [List.getElem?_append_left (h.number_bounds hold hscheduled).2]
      exact h.frames e hold time n hscheduled
    · rw [hnew] at hscheduled
      cases hscheduled
      rw [List.getElem?_concat_length]
      rfl
  · intro e he e' he' time n time' n' hscheduled hscheduled' hnn
    obtain hold | rfl := List.mem_or_eq_of_mem_set he
    · obtain hold' | rfl := List.mem_or_eq_of_mem_set he'
      · exact h.times e hold e' hold' time n time' n' hscheduled hscheduled' hnn
      · rw [hnew] at hscheduled'
        cases hscheduled'
        exact (h.window e hold time n hscheduled).2
    · rw [hnew] at hscheduled
      cases hscheduled
      obtain hold' | rfl := List.mem_or_eq_of_mem_set he'
      · exact absurd (h.number_bounds hold' hscheduled').2 (not_lt.mpr hnn)
      · rw [hnew] at hscheduled'
        cases hscheduled'
        exact le_rfl
  · intro e he time n hscheduled
    obtain hold | rfl := List.mem_or_eq_of_mem_set he
    · exact h.window e hold time n hscheduled
    · rw [hnew] at hscheduled
      cases hscheduled
      exact ⟨le_add_of_nonneg_right hpos, le_rfl⟩

theorem Initialized.inOrder (h : s.Initialized) : s.InOrder := by
  obtain ⟨base, params, numCPUs, rfl⟩ := h
  have hevents : ∀ e ∈ List.replicate numCPUs ({} : EndProcEvent), e = {} := fun e ↦
    List.eq_of_mem_replicate
  have hunscheduled : ∀ e ∈ List.replicate numCPUs ({} : EndProcEvent), ∀ time n,
      e.scheduled ≠ some (time, n) := by
    intro e he time n
    rw [hevents e he]
    nofun
  refine ⟨rfl, List.prefix_rfl, ?_, ?_, ?_, ?_⟩
  · have hnone : (List.replicate numCPUs ({} : EndProcEvent)).filterMap number? = [] := by
      rw [List.filterMap_eq_nil_iff]
      intro e he
      rw [hevents e he]
      rfl
    show ((List.replicate numCPUs _).filterMap _).Perm []
    rw [hnone]
  · intro e he time n hscheduled
    exact absurd hscheduled (hunscheduled e he time n)
  · intro e he _ _ time n _ _ hscheduled
    exact absurd hscheduled (hunscheduled e he time n)
  · intro e he time n hscheduled
    exact absurd hscheduled (hunscheduled e he time n)

theorem InOrder.arrival (h : s.InOrder) {arrival : FrameArrival} (htime : s.InTime (.arrival arrival))
    (hok : s.step (.arrival arrival) = .ok s') : s'.InOrder := by
  obtain ⟨hle, hpending⟩ := htime
  have hreceived (queue : List Frame) : ({ s.received arrival with queue } : MACRelayUnitNP).InOrder := by
    refine h.of_buffer (b := (s.received arrival).buffer) RelayBuffer.accept_dispatched
      RelayBuffer.accept_params ?_ ?_ queue
    · show s.buffer.simTime ≤ ((s.buffer.arrive arrival.simTime).accept _).simTime
      rw [RelayBuffer.accept_simTime]
      exact hle
    · show ∀ e ∈ s.endProcEvents, ∀ x ∈ e.scheduled,
        ((s.buffer.arrive arrival.simTime).accept _).simTime ≤ x.1
      rw [RelayBuffer.accept_simTime]
      exact hpending
  obtain ⟨-, rfl⟩ | ⟨-, ⟨-, rfl⟩ | ⟨cpu, hlt, hidle, hpos, rfl⟩⟩ := arrival_cases hok
  · exact h.of_buffer (b := (s.buffer.arrive arrival.simTime).drop) rfl rfl hle hpending s.queue
  · exact hreceived _
  · refine (hreceived s.queue).park hlt hidle ?_ _
    show 0 ≤ ((s.buffer.arrive arrival.simTime).accept _).params.processingTime
    rw [RelayBuffer.accept_params]
    exact hpos

theorem InOrder.endProcessing (h : s.InOrder) (htime : s.InTime (.endProcessing cpu))
    (hok : s.step (.endProcessing cpu) = .ok s') : s'.InOrder := by
  obtain ⟨time, number, frame, b, hlt, hevent, hdispatch, hend⟩ := endProcessing_cases hok
  obtain ⟨-, hdispatched, -, hsimTime, hparams, -⟩ := RelayBuffer.dispatch_ok hdispatch
  have hscheduled : (s.event cpu).scheduled = some (time, number) := by rw [hevent]
  have hfinish : (s.finish cpu b).InOrder :=
    h.finish hlt hevent (htime (time, number) hscheduled) hdispatched hparams hsimTime
  obtain ⟨-, rfl⟩ | ⟨newframe, queue, -, hpos, rfl⟩ := hend
  · exact hfinish
  · obtain ⟨hlength, hidle⟩ := event_finish (b := b) hlt
    have hpopped : ({ s.finish cpu b with queue } : MACRelayUnitNP).InOrder :=
      hfinish.of_buffer rfl rfl le_rfl (fun e he x hx ↦ (hfinish.window e he x.1 x.2 hx).1) queue
    exact hpopped.park hlength hidle hpos newframe

theorem InOrder.step (h : s.InOrder) (e : Event) (htime : s.InTime e) (hok : s.step e = .ok s') :
    s'.InOrder := by
  cases e with
  | arrival arrival => exact h.arrival htime hok
  | endProcessing cpu => exact h.endProcessing htime hok

theorem inOrder_of_reachable (h : Reachable Initialized InTime step s) : s.InOrder :=
  h.invariant (fun _ ↦ Initialized.inOrder) fun _ e _ hs htime hok ↦ hs.step e htime hok

end Delivery

/-! ## Accounting -/

/-- The bytes of the frames in the switch are counted; a frame is dropped if there is no room for it, and
dispatched once otherwise; frames leave the queue in the order in which they arrived, and wait only behind
busy CPUs. -/
structure Accounted (s : MACRelayUnitNP) : Prop where
  bufferUsed : s.buffer.bufferUsed = byteLength s.held
  admits : ∀ arrival s', s.step (.arrival arrival) = .ok s' → s.buffer.Admits s.held arrival s'.buffer
  nodup : s.buffer.accepted.Nodup
  once : s.buffer.accepted.Perm (s.buffer.dispatched ++ s.held)
  arrivalOrder : s.buffer.accepted.Pairwise fun f g ↦ f.number < g.number
  queueOrder : s.buffer.accepted = s.started ++ s.queue
  dispatches : ∀ cpu s', s.step (.endProcessing cpu) = .ok s' → ∃ frame,
    (s.event cpu).contextPointer = some frame ∧ s'.buffer.dispatched = s.buffer.dispatched ++ [frame] ∧
      s'.buffer.accepted = s.buffer.accepted ∧ s.buffer.SendsOut frame frame.arrivalGate s'.buffer
  waits : s.queue ≠ [] → ∀ e ∈ s.endProcEvents, e.isScheduled = true
  drained : 0 < s.numCPUs → (∀ e ∈ s.endProcEvents, e.isScheduled = false) →
    s.buffer.accepted.Perm s.buffer.dispatched
  asserts : ∀ e, s.step e ≠ .error .assertionFailed

section Results

variable {s : MACRelayUnitNP}

theorem Inv.once (h : s.Inv) : s.buffer.accepted.Perm (s.buffer.dispatched ++ s.held) := by
  unfold held
  rw [← h.fifo, ← List.append_assoc]
  exact h.started.append_right _

theorem startProcessing_error {cpu : ℕ} {frame : Frame} {fault : RelayUnit.Fault}
    (h : s.startProcessing cpu frame = .error fault) : fault = .scheduledInPast := by
  unfold startProcessing at h
  obtain htime | ⟨time, -, hrest⟩ := bind_error_iff.mp h
  · exact RelayBuffer.endOfProcessing_error htime
  · cases hrest

theorem Inv.asserts (h : s.Inv) (e : Event) : s.step e ≠ .error .assertionFailed := by
  intro herror
  cases e with
  | arrival arrival =>
    unfold MACRelayUnitNP.step handleIncomingFrame at herror
    change (if s.buffer.hasRoom arrival.byteLength = true then _ else _) = _ at herror
    by_cases hroom : s.buffer.hasRoom arrival.byteLength = true
    · rw [if_pos hroom] at herror
      cases hidle : s.endProcEvents.findIdx? (!·.isScheduled) with
      | none =>
        simp only [hidle] at herror
        cases herror
      | some cpu =>
        simp only [hidle] at herror
        obtain ⟨hlt, hnot⟩ := idle_of_findIdx? hidle
        have hnull : (s.event cpu).contextPointer.isNone = true := by
          rw [← h.carries _ (event_mem hlt)] at hnot
          rwa [Option.isSome_eq_false_iff] at hnot
        change (if (s.event cpu).contextPointer.isNone = true then _ else _) = _ at herror
        rw [if_pos hnull] at herror
        cases startProcessing_error herror
    · rw [if_neg hroom] at herror
      cases herror
  | endProcessing cpu =>
    unfold MACRelayUnitNP.step at herror
    dsimp only at herror
    split at herror
    · cases herror
    · rename_i time number hscheduled
      have hlt : cpu < s.numCPUs := lt_numCPUs_of_scheduled hscheduled
      have hbusy : (s.event cpu).contextPointer.isSome = true := by
        rw [h.carries _ (event_mem hlt), EndProcEvent.isScheduled, hscheduled]
        rfl
      obtain ⟨frame, hframe⟩ := Option.isSome_iff_exists.mp hbusy
      unfold processFrame at herror
      change (match (s.event cpu).contextPointer with | none => _ | some frame => _) = _ at herror
      rw [hframe] at herror
      obtain hdispatch | ⟨b, -, hrest⟩ := bind_error_iff.mp herror
      · obtain ⟨cause, hcause⟩ := RelayBuffer.dispatch_error hdispatch
        cases hcause
      · cases hqueue : s.queue with
        | nil =>
          simp only [hqueue] at hrest
          cases hrest
        | cons newframe queue =>
          simp only [hqueue] at hrest
          cases startProcessing_error hrest

/-- While a frame is in the switch, one of the CPUs is busy. -/
theorem Inv.held_eq_nil (h : s.Inv) (hpos : 0 < s.numCPUs)
    (hidle : ∀ e ∈ s.endProcEvents, e.isScheduled = false) : s.held = [] := by
  have hprocessing : s.processing = [] := by
    rw [processing, List.filterMap_eq_nil_iff]
    intro e he
    rw [← Option.isNone_iff_eq_none, ← Option.isSome_eq_false_iff, h.carries e he]
    exact hidle e he
  have hqueue : s.queue = [] := by
    by_contra hne
    have hbusy := h.waits hne _ (event_mem hpos)
    rw [hidle _ (event_mem hpos)] at hbusy
    cases hbusy
  rw [held, hprocessing, hqueue]
  rfl

theorem Inv.accounted (h : s.Inv) : s.Accounted where
  bufferUsed := h.account.bufferUsed_eq h.once
  admits arrival s' hok := by
    have hused := h.account.bufferUsed_eq h.once
    obtain ⟨hroom, rfl⟩ | ⟨hroom, ⟨-, rfl⟩ | ⟨cpu, -, -, -, rfl⟩⟩ := arrival_cases hok
    · exact RelayBuffer.admits_drop hused hroom
    · exact RelayBuffer.admits_accept hused hroom
    · exact RelayBuffer.admits_accept hused hroom
  nodup := h.account.nodup
  once := h.once
  arrivalOrder := h.account.inOrder
  queueOrder := h.fifo.symm
  dispatches cpu s' hok := by
    obtain ⟨time, number, frame, b, _, hevent, hdispatch, hend⟩ := endProcessing_cases hok
    obtain ⟨haccepted, hdispatched, -⟩ := RelayBuffer.dispatch_ok hdispatch
    have hsends := RelayBuffer.dispatch_sendsOut hdispatch
    refine ⟨frame, by rw [hevent], ?_⟩
    obtain ⟨-, rfl⟩ | ⟨newframe, queue, -, -, rfl⟩ := hend
    · exact ⟨hdispatched, haccepted, hsends⟩
    · exact ⟨hdispatched, haccepted, hsends⟩
  waits := h.waits
  drained hpos hidle := by
    have honce := h.once
    rwa [h.held_eq_nil hpos hidle, List.append_nil] at honce
  asserts := h.asserts

end Results

end MACRelayUnitNP

end InetManet.Ethernet
