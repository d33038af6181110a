import InetManet.Ieee80211.StateMachine

/-!
# What becomes of the frames in the transmission queue

A ledger reads the record of what the MAC did and admits only what the stop-and-wait protocol allows:
the frame at the front is transmitted, and it leaves after an intact ACK, after the end of a broadcast,
or after as many timeouts as there may be transmissions. The ledger of a run is the queue of the MAC,
with the phase that its state stands for and the retry counter.
-/

namespace InetManet

open TransitionSystem

namespace Ieee80211Mac

/-! ## The protocol -/

/-- What the frame at the front of the queue waits for. -/
inductive Phase
  | quiet
  | awaitsCTS
  | clearToSend
  | awaitsACK
  | acknowledged
  | broadcasting
  | broadcastEnded
  deriving DecidableEq

structure Ledger where
  waiting : List Ieee80211Frame
  phase : Phase
  timeouts : ℕ
  deriving DecidableEq

namespace Ledger

variable (config : Config)

variable (ledger : Ledger)

/-- Only an intact frame that is addressed to this station ends a wait. -/
def receive (frame : Ieee80211Frame) (kind : MsgKind) : Ledger :=
  if kind.failed || !isForUs config frame then ledger
  else
    match ledger.phase, frame.type with
    | .awaitsCTS, .cts => { ledger with phase := .clearToSend }
    | .awaitsACK, .ack => { ledger with phase := .acknowledged }
    | _, _ => ledger

def timeOut : Ledger :=
  match ledger.phase with
  | .awaitsCTS => { ledger with phase := .quiet, timeouts := ledger.timeouts + 1 }
  | .awaitsACK => { ledger with phase := .quiet, timeouts := ledger.timeouts + 1 }
  | .broadcasting => { ledger with phase := .broadcastEnded }
  | _ => ledger

def expire (timer : Timer) : Ledger :=
  if timer = .endTimeout then ledger.timeOut else ledger

def mayRequest (frame : Ieee80211Frame) : Bool :=
  ledger.waiting.head? = some frame ∧ isBroadcast frame = false ∧ ledger.phase = .quiet

/-- The phase after the transmission of a frame. A request, which only a unicast frame makes, is
followed by the frame once the medium is granted. Without a request a broadcast is transmitted, or a
frame below the threshold for a request. -/
def afterTransmission (frame : Ieee80211Frame) : Option Phase :=
  if ledger.waiting.head? ≠ some frame then none
  else if ledger.phase = .clearToSend then some .awaitsACK
  else if ledger.phase ≠ .quiet then none
  else if isBroadcast frame then some .broadcasting
  else if frame.byteLength < config.rtsThreshold then some .awaitsACK
  else none

def mayLeave : Departure → Bool
  | .sent => ledger.phase = .acknowledged
  | .broadcastSent => ledger.phase = .broadcastEnded
  | .givenUp => ledger.phase = .quiet ∧ ledger.timeouts = config.transmissionLimit

/-- The ledger after an entry, or none if the protocol does not allow the entry. -/
def book : Record → Option Ledger
  | .arrived frame => some { ledger with waiting := ledger.waiting ++ [frame] }
  | .received frame kind => some (ledger.receive config frame kind)
  | .expired timer => some (ledger.expire timer)
  | .requested frame _ =>
    if ledger.mayRequest frame then some { ledger with phase := .awaitsCTS } else none
  | .transmitted frame _ =>
    (ledger.afterTransmission config frame).map fun phase ↦ { ledger with phase := phase }
  | .departed frame how =>
    match ledger.waiting with
    | [] => none
    | current :: rest =>
      if current = frame ∧ ledger.mayLeave config how then some ⟨rest, .quiet, 0⟩ else none
  | .answered _ => some ledger
  | .sentUp _ => some ledger
  | .configured _ => some ledger

/-- What the delivery of a message to the MAC does to the ledger. -/
def deliver : Message → Ledger
  | .lower frame kind => ledger.receive config frame kind
  | .self timer => ledger.expire timer
  | .upper _ => ledger

end Ledger

def Message.frame : Message → Option Ieee80211Frame
  | .upper frame => some frame
  | .lower frame _ => some frame
  | .self _ => none

/-- The ledger of a whole run. -/
def accounts (config : Config) (log : List Record) : Option Ledger :=
  log.foldlM (Ledger.book config) ⟨[], .quiet, 0⟩

def arrivals (log : List Record) : List Ieee80211Frame :=
  log.filterMap fun
    | .arrived frame => some frame
    | _ => none

def departures (log : List Record) : List Ieee80211Frame :=
  log.filterMap fun
    | .departed frame _ => some frame
    | _ => none

theorem accounts_append (config : Config) (log : List Record) (entry : Record) :
    accounts config (log ++ [entry]) =
      (accounts config log).bind fun ledger ↦ ledger.book config entry := by
  simp [accounts, List.foldlM_append]

namespace Ledger

/-- An entry other than an arrival or a departure leaves the frames of the ledger alone. -/
theorem book_waiting {config : Config} {ledger next : Ledger} {entry : Record}
    (h : ledger.book config entry = some next) :
    ledger.waiting ++ arrivals [entry] = departures [entry] ++ next.waiting := by
  cases entry with
  | arrived frame =>
    cases h
    rfl
  | received frame kind =>
    cases h
    simp only [arrivals, departures, List.filterMap_cons_none, List.filterMap_nil, List.append_nil,
      List.nil_append, receive]
    split
    · rfl
    · split <;> rfl
  | expired timer =>
    cases h
    simp only [arrivals, departures, List.filterMap_cons_none, List.filterMap_nil, List.append_nil,
      List.nil_append, expire]
    split
    · unfold timeOut
      split <;> rfl
    · rfl
  | requested frame built =>
    rw [book] at h
    split at h
    · cases h
      exact List.append_nil _
    · cases h
  | transmitted frame built =>
    rw [book, Option.map_eq_some_iff] at h
    obtain ⟨phase, -, rfl⟩ := h
    exact List.append_nil _
  | departed frame how =>
    rw [book] at h
    split at h
    · cases h
    · rename_i current rest hwaiting
      split at h
      · rename_i hleave
        cases h
        rw [hwaiting, hleave.1]
        exact List.append_nil _
      · cases h
  | answered built =>
    cases h
    exact List.append_nil _
  | sentUp frame =>
    cases h
    exact List.append_nil _
  | configured command =>
    cases h
    exact List.append_nil _

end Ledger

theorem arrivals_eq {config : Config} {log : List Record} {ledger : Ledger}
    (h : accounts config log = some ledger) :
    arrivals log = departures log ++ ledger.waiting := by
  induction log using List.reverseRecOn generalizing ledger with
  | nil =>
    cases h
    rfl
  | append_singleton log entry ih =>
    rw [accounts_append, Option.bind_eq_some_iff] at h
    obtain ⟨before, hbefore, hbook⟩ := h
    have hsplit : ∀ l : List Record, arrivals (l ++ [entry]) = arrivals l ++ arrivals [entry] ∧
        departures (l ++ [entry]) = departures l ++ departures [entry] :=
      fun l ↦ ⟨List.filterMap_append, List.filterMap_append⟩
    calc arrivals (log ++ [entry])
        = departures log ++ (before.waiting ++ arrivals [entry]) := by
          rw [(hsplit log).1, ih hbefore, List.append_assoc]
      _ = departures (log ++ [entry]) ++ ledger.waiting := by
          rw [Ledger.book_waiting hbook, (hsplit log).2, List.append_assoc]

namespace Mac

variable {config : Config} {msg : Message} {s : Mac} {draw : ℕ}

/-! ## The state of the MAC as a ledger -/

/-- The phase that a state stands for. In WAITSIFS it depends on the frame that is answered. -/
def phaseIn (context : Option Ieee80211Frame) : State → Phase
  | .waitCTS => .awaitsCTS
  | .waitACK => .awaitsACK
  | .waitBroadcast => .broadcasting
  | .waitSIFS => if context.any (·.type == .cts) then .clearToSend else .quiet
  | _ => .quiet

def ledger (context : Option Ieee80211Frame) (s : Mac) : Ledger :=
  ⟨s.transmissionQueue, phaseIn context s.state, s.retryCounter⟩

/-- The record of the run agrees with the state. -/
structure Follows (config : Config) (context : Option Ieee80211Frame) (s : Mac) : Prop where
  booked : accounts config s.log = some (s.ledger context)
  retry : s.transmissionQueue = [] → s.retryCounter = 0


theorem accounts_note {ledger next : Ledger} {entry : Record} (h : accounts config s.log = some ledger)
    (hbook : ledger.book config entry = some next) :
    accounts config (s.note entry).log = some next := by
  rw [note, accounts_append, h]
  exact hbook

theorem Follows.congr {context context' : Option Ieee80211Frame} (h : Follows config context s) {t : Mac}
    (hlog : t.log = s.log) (hqueue : t.transmissionQueue = s.transmissionQueue)
    (hretry : t.retryCounter = s.retryCounter)
    (hphase : phaseIn context' t.state = phaseIn context s.state) : Follows config context' t := by
  constructor
  · rw [hlog, h.booked, ledger, ledger, hqueue, hretry, hphase]
  · rw [hqueue, hretry]
    exact h.retry

theorem Follows.note {context : Option Ieee80211Frame} (h : Follows config context s) (entry : Record)
    (hbook : ∀ l : Ledger, l.book config entry = some l) : Follows config context (s.note entry) :=
  ⟨accounts_note h.booked (hbook _), h.retry⟩

theorem phaseIn_eq {state : State} (hstate : state ≠ .waitSIFS) (context context' : Option Ieee80211Frame) :
    phaseIn context state = phaseIn context' state := by
  cases state <;> first | rfl | exact absurd rfl hstate

/-! ## Entering a state -/

theorem Follows.sendDownPendingRadioConfigMsg {context : Option Ieee80211Frame}
    (h : Follows config context s) : Follows config context s.sendDownPendingRadioConfigMsg := by
  unfold Mac.sendDownPendingRadioConfigMsg
  split
  · exact h
  · rename_i command _
    apply Follows.note _ (.configured command) fun _ ↦ rfl
    exact h.congr rfl rfl rfl rfl

theorem Follows.endReception {context : Option Ieee80211Frame} (h : Follows config context s)
    (hfix : config.fixFSM = true) : Follows config context (s.endReception config) := by
  unfold Mac.endReception finishReception
  rw [if_pos hfix]
  split
  · exact h.congr rfl rfl rfl rfl
  · rename_i hempty
    have hqueue : s.transmissionQueue = [] := by simpa using hempty
    exact h.congr rfl rfl (h.retry hqueue).symm rfl

theorem endReception_state : (s.endReception config).state = s.state := by
  unfold Mac.endReception finishReception resetStateVariables
  split_ifs <;> rfl

theorem scheduleAt_frame (time : ℚ) (timer : Timer) :
    Outcome (s.scheduleAt time timer) (fun next ↦ ∃ timers, next = { s with timers := timers })
      (fun _ ↦ True) := by
  unfold scheduleAt
  apply Outcome.ite
  · intro _
    trivial
  · intro _
    apply Outcome.ite
    · intro _
      trivial
    · intro _
      exact ⟨_, rfl⟩

/-- A further state is entered, or the machine rests. -/
def FollowsNext (config : Config) (msg : Message) (next : Mac × Bool) : Prop :=
  if next.2 then Follows config msg.frame next.1
  else Follows config next.1.frameReceivedBeforeSIFS next.1

section

variable (h : Follows config msg.frame s)

include h

theorem Follows.scheduled (hstate : s.state ≠ .waitSIFS) (time : ℚ) (timer : Timer) :
    Outcome (stay <$> s.scheduleAt time timer) (FollowsNext config msg) (fun _ ↦ True) := by
  apply Outcome.map
  apply (scheduleAt_frame time timer).post
  rintro _ ⟨timers, rfl⟩
  exact h.congr rfl rfl rfl (phaseIn_eq hstate _ _)

theorem enterIdle_follows (hstate : s.state = .idle) :
    Outcome (s.enterIdle config) (FollowsNext config msg) (fun _ ↦ True) := by
  have hsent := h.sendDownPendingRadioConfigMsg
  obtain ⟨pending, log, hs⟩ := s.sendDownPendingRadioConfigMsg_eq
  have hquiet : ∀ context, phaseIn context s.sendDownPendingRadioConfigMsg.state = .quiet := by
    intro context
    rw [hs]
    simp only [hstate, phaseIn]
  unfold enterIdle
  dsimp only
  apply Outcome.ite
  · intro _
    apply Outcome.ite
    · intro _
      exact hsent.congr rfl rfl rfl (hquiet _).symm
    · intro _
      trivial
  · intro _
    apply Outcome.ite
    · intro _
      exact hsent.congr rfl rfl rfl (hquiet _).symm
    · intro _
      exact hsent.congr rfl rfl rfl ((hquiet _).trans (hquiet _).symm)

theorem enterDefer_follows (hstate : s.state = .defer) :
    FollowsNext config msg s.enterDefer := by
  have hsent := h.sendDownPendingRadioConfigMsg
  obtain ⟨pending, log, hs⟩ := s.sendDownPendingRadioConfigMsg_eq
  have hquiet : ∀ context, phaseIn context s.sendDownPendingRadioConfigMsg.state = .quiet := by
    intro context
    rw [hs]
    simp only [hstate, phaseIn]
  unfold enterDefer
  dsimp only
  split
  · exact hsent.congr rfl rfl rfl (hquiet _).symm
  · exact hsent.congr rfl rfl rfl ((hquiet _).trans (hquiet _).symm)

theorem enterWaitDIFS_follows (hstate : s.state = .waitDIFS) :
    Outcome s.enterWaitDIFS (FollowsNext config msg) (fun _ ↦ True) := by
  have hquiet : ∀ context, phaseIn context s.state = .quiet := by
    intro context
    simp only [hstate, phaseIn]
  unfold enterWaitDIFS
  apply Outcome.bind (scheduleAt_frame _ _)
  rintro _ ⟨timers, rfl⟩
  apply Outcome.ite
  · intro _
    exact h.congr rfl rfl rfl (hquiet _).symm
  · intro _
    exact h.congr rfl rfl rfl ((hquiet _).trans (hquiet _).symm)

theorem enterReceive_follows (hfix : config.fixFSM = true)
    (hstate : s.state = .receive) : FollowsNext config msg (s.enterReceive config msg) := by
  have hquiet : ∀ context, phaseIn context s.state = .quiet := by
    intro context
    simp only [hstate, phaseIn]
  unfold enterReceive
  split
  · rename_i frame kind
    have hstays : ∀ t, Follows config (Message.lower frame kind).frame t → phaseIn (some frame) t.state = .quiet →
        Follows config (some frame) ((t.endReception config).moveTo .idle) := by
      intro t ht hphase
      refine (ht.endReception hfix).congr rfl rfl rfl ?_
      rw [endReception_state]
      exact hphase.symm
    have hsent := h.note (.sentUp frame) fun _ ↦ rfl
    split
    · exact hstays s h (hquiet _)
    split
    · exact hstays _ hsent (hquiet _)
    split
    · rename_i hdata
      simp only [isDataOrMgmtFrame, Bool.and_eq_true, beq_iff_eq] at hdata
      refine hsent.congr rfl rfl rfl (Eq.trans ?_ (hquiet _).symm)
      simp [phaseIn, moveTo, Message.frame, hdata.2]
    split
    · rename_i hrts
      simp only [Bool.and_eq_true, beq_iff_eq] at hrts
      refine h.congr rfl rfl rfl (Eq.trans ?_ (hquiet _).symm)
      simp [phaseIn, moveTo, Message.frame, hrts.2]
    · exact hstays s h (hquiet _)
  · exact h.congr rfl rfl rfl ((hquiet _).trans (hquiet _).symm)

theorem enterWaitACK_follows (hstate : s.state = .waitACK) :
    Outcome (stay <$> s.scheduleDataTimeoutPeriod config) (FollowsNext config msg) (fun _ ↦ True) := by
  unfold scheduleDataTimeoutPeriod
  split
  · trivial
  · exact h.scheduled (by simp [hstate]) _ _

theorem enterWaitBroadcast_follows (hstate : s.state = .waitBroadcast) :
    Outcome (stay <$> s.scheduleBroadcastTimeoutPeriod config) (FollowsNext config msg)
      (fun _ ↦ True) := by
  unfold scheduleBroadcastTimeoutPeriod
  split
  · trivial
  · exact h.scheduled (by simp [hstate]) _ _

/-- The frame of the message becomes the frame that is answered. -/
theorem enterWaitSIFS_follows :
    Outcome (stay <$> s.scheduleSIFSPeriod msg) (FollowsNext config msg) (fun _ ↦ True) := by
  have hcarried : ∀ frame, msg.frame = some frame → Outcome
      (stay <$> scheduleAt { s with frameReceivedBeforeSIFS := some frame } (s.now + SIFS) .endSIFS)
      (FollowsNext config msg) (fun _ ↦ True) := by
    intro frame hframe
    apply Outcome.map
    apply (scheduleAt_frame _ _).post
    rintro _ ⟨timers, rfl⟩
    rw [hframe] at h
    exact h.congr rfl rfl rfl rfl
  unfold scheduleSIFSPeriod
  split
  · exact hcarried _ rfl
  · exact hcarried _ rfl
  · trivial

theorem enterState_follows (hfix : config.fixFSM = true) :
    Outcome (s.enterState config msg) (FollowsNext config msg) (fun _ ↦ True) := by
  unfold enterState
  cases hstate : s.state with
  | idle => exact enterIdle_follows h hstate
  | defer => exact enterDefer_follows h hstate
  | waitDIFS => exact enterWaitDIFS_follows h hstate
  | backoff =>
    have hsince : Follows config msg.frame { s with backoffSince := s.now } := h.congr rfl rfl rfl rfl
    exact hsince.scheduled (by simp [hstate]) _ _
  | waitACK => exact enterWaitACK_follows h hstate
  | waitBroadcast => exact enterWaitBroadcast_follows h hstate
  | waitCTS => exact h.scheduled (by simp [hstate]) _ _
  | waitSIFS => exact enterWaitSIFS_follows h
  | receive => exact enterReceive_follows h hfix hstate

theorem settle_follows (hfix : config.fixFSM = true) (steps : ℕ) :
    Outcome (s.settle config msg steps) (fun next ↦ Follows config next.frameReceivedBeforeSIFS next)
      (fun _ ↦ True) := by
  induction steps generalizing s with
  | zero => trivial
  | succ steps ih =>
    rw [settle]
    apply Outcome.bind (enterState_follows h hfix)
    intro next hnext
    rw [FollowsNext] at hnext
    split at hnext
    · rename_i hmoved
      rw [if_pos hmoved]
      exact ih hnext
    · rename_i hstays
      rw [if_neg hstays]
      exact hnext

end

/-! ## Transitions for an event -/

/-- The message was booked, but the state has not changed yet. -/
structure Delivered (config : Config) (msg : Message) (s : Mac) : Prop where
  booked : accounts config s.log = some ((s.ledger s.frameReceivedBeforeSIFS).deliver config msg)
  retry : s.transmissionQueue = [] → s.retryCounter = 0

/-- A damaged frame is not one that this station waits for. -/
def Intact (config : Config) (msg : Message) (s : Mac) : Prop :=
  match msg with
  | .lower frame kind => kind.failed = true → isForUs config frame = true →
      ¬ (s.state = .waitACK ∧ frame.type = .ack) ∧ ¬ (s.state = .waitCTS ∧ frame.type = .cts)
  | _ => True

/-- The result of the transition for an event. -/
def FollowsTaken (config : Config) (msg : Message) (s : Mac) : Option Mac → Prop
  | none => Follows config s.frameReceivedBeforeSIFS s
  | some next => Follows config msg.frame next

theorem Delivered.follows (h : Delivered config msg s)
    (hsame : (s.ledger s.frameReceivedBeforeSIFS).deliver config msg = s.ledger s.frameReceivedBeforeSIFS) :
    Follows config s.frameReceivedBeforeSIFS s :=
  ⟨hsame ▸ h.booked, h.retry⟩

/-- Where nothing is awaited, a message leaves the ledger alone. -/
theorem deliver_quiet {ledger : Ledger} (hphase : ledger.phase = .quiet ∨ ledger.phase = .clearToSend) :
    ledger.deliver config msg = ledger := by
  cases msg with
  | upper frame => rfl
  | lower frame kind =>
    simp only [Ledger.deliver, Ledger.receive]
    split
    · rfl
    · rcases hphase with hphase | hphase <;> rw [hphase]
  | self timer =>
    simp only [Ledger.deliver, Ledger.expire]
    split
    · unfold Ledger.timeOut
      rcases hphase with hphase | hphase <;> rw [hphase]
    · rfl

theorem receive_other {ledger : Ledger} {frame : Ieee80211Frame} (kind : MsgKind)
    (hother : isForUs config frame = true → ¬ (ledger.phase = .awaitsCTS ∧ frame.type = .cts) ∧
      ¬ (ledger.phase = .awaitsACK ∧ frame.type = .ack)) :
    ledger.receive config frame kind = ledger := by
  unfold Ledger.receive
  split
  · rfl
  · rename_i hours
    have hours : isForUs config frame = true := by
      simp only [Bool.or_eq_true, not_or, Bool.not_eq_true', Bool.not_eq_false] at hours
      exact hours.2
    split
    · rename_i hphase htype
      exact absurd ⟨hphase, htype⟩ (hother hours).1
    · rename_i hphase htype
      exact absurd ⟨hphase, htype⟩ (hother hours).2
    · rfl

theorem deliver_other {ledger : Ledger} (hlower : ∀ frame kind, msg ≠ .lower frame kind)
    (htimeout : msg ≠ .self .endTimeout) : ledger.deliver config msg = ledger := by
  cases msg with
  | upper frame => rfl
  | lower frame kind => exact absurd rfl (hlower frame kind)
  | self timer =>
    rw [Ledger.deliver, Ledger.expire, if_neg]
    intro htimer
    exact htimeout (by rw [htimer])

theorem transmitCurrent_follows {context : Option Ieee80211Frame} {frame : Ieee80211Frame}
    {rest : List Ieee80211Frame} (h : Follows config context s)
    (hphase : phaseIn context s.state = .quiet) (hqueue : s.transmissionQueue = frame :: rest)
    (context' : Option Ieee80211Frame) : Follows config context' (s.transmitCurrent config frame) := by
  have hbooked : accounts config s.log = some ⟨frame :: rest, .quiet, s.retryCounter⟩ := by
    rw [h.booked, ledger, hqueue, hphase]
  have hretry : s.transmissionQueue = [] → s.retryCounter = 0 := h.retry
  unfold transmitCurrent
  split
  · rename_i hrts
    refine ⟨?_, hretry⟩
    rw [Bool.and_eq_true, Bool.not_eq_true'] at hrts
    have hnote : accounts config (s.note (.requested frame (buildRTSFrame config frame))).log =
        some ⟨frame :: rest, .awaitsCTS, s.retryCounter⟩ :=
      accounts_note hbooked (by simp [Ledger.book, Ledger.mayRequest, hrts.1])
    exact hnote.trans (by simp [ledger, moveTo, Mac.note, phaseIn, hqueue])
  · rename_i hrts
    split
    · rename_i hbroadcast
      refine ⟨?_, hretry⟩
      have hnote : accounts config (s.note (.transmitted frame (buildBroadcastFrame frame))).log =
          some ⟨frame :: rest, .broadcasting, s.retryCounter⟩ :=
        accounts_note hbooked (by simp [Ledger.book, Ledger.afterTransmission, hbroadcast])
      exact hnote.trans (by simp [ledger, moveTo, Mac.note, phaseIn, hqueue])
    · rename_i hunicast
      refine ⟨?_, hretry⟩
      have hshort : (frame.byteLength : ℤ) < config.rtsThreshold := by
        simpa [hunicast] using hrts
      have hnote : accounts config (s.note (.transmitted frame (buildDataFrame config frame))).log =
          some ⟨frame :: rest, .awaitsACK, s.retryCounter⟩ :=
        accounts_note hbooked (by simp [Ledger.book, Ledger.afterTransmission, hunicast, hshort])
      exact hnote.trans (by simp [ledger, moveTo, Mac.note, phaseIn, hqueue])

theorem finishCurrentTransmission_follows {ledger : Ledger} (how : Departure)
    (h : accounts config s.log = some ledger) (hqueue : ledger.waiting = s.transmissionQueue)
    (hleave : ledger.mayLeave config how = true) :
    Outcome (s.finishCurrentTransmission how)
      (fun next ↦ ∀ context, Follows config context (next.moveTo .idle)) (fun _ ↦ True) := by
  unfold finishCurrentTransmission popTransmissionQueue
  cases hs : s.transmissionQueue with
  | nil => trivial
  | cons frame rest =>
    intro context
    refine ⟨?_, fun _ ↦ rfl⟩
    rw [hs] at hqueue
    have hbook : ledger.book config (.departed frame how) = some ⟨rest, .quiet, 0⟩ := by
      simp [Ledger.book, hqueue, hleave]
    have hnote : accounts config (Mac.note { s with transmissionQueue := rest } (.departed frame how)).log =
        some ⟨rest, .quiet, 0⟩ := accounts_note h hbook
    exact hnote

theorem generateBackoffPeriod_frame :
    Outcome (s.generateBackoffPeriod config draw)
      (fun next ↦ ∃ period, next = { s with backoffPeriod := period }) (fun _ ↦ True) := by
  unfold generateBackoffPeriod
  apply Outcome.bind (Q := fun _ ↦ True)
  · unfold computeBackoffPeriod
    split_ifs <;> trivial
  · intro period _
    apply Outcome.ite
    · intro _
      trivial
    · intro _
      exact ⟨period, rfl⟩

theorem timeoutEvent_follows
    (h : accounts config s.log = some ⟨s.transmissionQueue, .quiet, s.retryCounter + 1⟩)
    (hqueue : s.transmissionQueue ≠ []) :
    Outcome (s.timeoutEvent config draw) (FollowsTaken config msg s) (fun _ ↦ True) := by
  have hlimit := config.transmissionLimit_pos
  unfold timeoutEvent
  apply Outcome.ite
  · intro hlast
    have hleave : Ledger.mayLeave config ⟨s.transmissionQueue, .quiet, s.retryCounter + 1⟩ .givenUp := by
      simp only [Ledger.mayLeave, true_and, decide_eq_true_eq]
      omega
    apply Outcome.bind (finishCurrentTransmission_follows .givenUp h rfl hleave)
    intro next hnext
    exact hnext _
  · intro _
    unfold retryCurrentTransmission
    split
    · apply Outcome.bind generateBackoffPeriod_frame
      rintro _ ⟨period, rfl⟩
      exact ⟨h, fun hnil ↦ absurd hnil hqueue⟩
    · trivial

theorem difsOver_follows {context : Option Ieee80211Frame} (h : Follows config context s)
    (hphase : phaseIn context s.state = .quiet) :
    Outcome (s.difsOver config draw) (FollowsTaken config msg s) (fun _ ↦ True) := by
  unfold difsOver
  apply Outcome.ite
  · intro _
    trivial
  · intro _
    apply Outcome.ite
    · intro _
      apply Outcome.bind generateBackoffPeriod_frame
      rintro _ ⟨period, rfl⟩
      exact h.congr rfl rfl rfl hphase.symm
    · intro _
      exact h.congr rfl rfl rfl hphase.symm

section

variable (h : Delivered config msg s)

include h

theorem Delivered.quiet (hphase : phaseIn s.frameReceivedBeforeSIFS s.state = .quiet) :
    Follows config s.frameReceivedBeforeSIFS s :=
  h.follows (deliver_quiet (.inl hphase))

theorem idleEvent_follows (hstate : s.state = .idle) :
    Outcome (s.idleEvent config msg) (FollowsTaken config msg s) (fun _ ↦ True) := by
  have hphase : phaseIn s.frameReceivedBeforeSIFS s.state = .quiet := by simp only [hstate, phaseIn]
  have hfollows := h.quiet hphase
  unfold idleEvent
  split_ifs
  · trivial
  · exact hfollows.congr rfl rfl rfl hphase.symm
  · trivial
  · exact hfollows.congr rfl rfl rfl hphase.symm
  · exact hfollows

theorem deferEvent_follows (hstate : s.state = .defer) :
    Outcome (s.deferEvent msg) (FollowsTaken config msg s) (fun _ ↦ True) := by
  have hphase : phaseIn s.frameReceivedBeforeSIFS s.state = .quiet := by simp only [hstate, phaseIn]
  have hfollows := h.quiet hphase
  unfold deferEvent
  split_ifs
  · exact hfollows.congr rfl rfl rfl hphase.symm
  · exact hfollows.congr rfl rfl rfl hphase.symm
  · exact hfollows

theorem waitDIFSEvent_follows (hstate : s.state = .waitDIFS) :
    Outcome (s.waitDIFSEvent config draw msg) (FollowsTaken config msg s) (fun _ ↦ True) := by
  have hphase : phaseIn s.frameReceivedBeforeSIFS s.state = .quiet := by simp only [hstate, phaseIn]
  have hfollows := h.quiet hphase
  unfold waitDIFSEvent
  apply Outcome.ite
  · intro _
    cases hqueue : s.transmissionQueue with
    | nil => exact difsOver_follows hfollows hphase
    | cons frame rest =>
      apply Outcome.ite
      · intro _
        exact (transmitCurrent_follows hfollows hphase hqueue msg.frame).congr rfl rfl rfl rfl
      · intro _
        exact difsOver_follows hfollows hphase
  · intro _
    split_ifs
    · exact hfollows.congr rfl rfl rfl hphase.symm
    · exact hfollows.congr rfl rfl rfl hphase.symm
    · exact hfollows

theorem backoffEvent_follows (hstate : s.state = .backoff) :
    Outcome (s.backoffEvent config msg) (FollowsTaken config msg s) (fun _ ↦ True) := by
  have hphase : phaseIn s.frameReceivedBeforeSIFS s.state = .quiet := by simp only [hstate, phaseIn]
  have hfollows := h.quiet hphase
  unfold backoffEvent
  apply Outcome.ite
  · intro _
    cases hqueue : s.transmissionQueue with
    | nil => exact hfollows.congr rfl rfl (h.retry hqueue).symm hphase.symm
    | cons frame rest => exact transmitCurrent_follows hfollows hphase hqueue msg.frame
  · intro _
    apply Outcome.ite
    · intro _
      apply Outcome.bind (Q := fun next ↦ ∃ period,
        next = { s.cancelEvent .endBackoff with backoffPeriod := period })
      · unfold decreaseBackoffPeriod
        dsimp only
        split_ifs
        · trivial
        · exact ⟨_, rfl⟩
      · rintro _ ⟨period, rfl⟩
        exact hfollows.congr rfl rfl rfl hphase.symm
    · intro _
      exact hfollows

end

/-- The timeout of the wait for an ACK or a CTS is booked. -/
theorem Delivered.timedOut (h : Delivered config (.self .endTimeout) s)
    (hstate : s.state = .waitACK ∨ s.state = .waitCTS) :
    accounts config s.log = some ⟨s.transmissionQueue, .quiet, s.retryCounter + 1⟩ := by
  rw [h.booked]
  rcases hstate with hstate | hstate <;>
    simp [Ledger.deliver, Ledger.expire, Ledger.timeOut, ledger, hstate, phaseIn]

theorem Intact.good {frame : Ieee80211Frame} {kind : MsgKind} (h : s.Intact config (.lower frame kind))
    (hours : isForUs config frame = true)
    (hawaited : s.state = .waitACK ∧ frame.type = .ack ∨ s.state = .waitCTS ∧ frame.type = .cts) :
    kind.failed = false := by
  by_contra hfailed
  have hnot := h (by simpa using hfailed) hours
  rcases hawaited with hack | hcts
  · exact hnot.1 hack
  · exact hnot.2 hcts

theorem waitACKEvent_follows (hready : Ready config msg s) (h : Delivered config msg s)
    (hintact : s.Intact config msg) (hstate : s.state = .waitACK) :
    Outcome (s.waitACKEvent config draw msg) (FollowsTaken config msg s) (fun _ ↦ True) := by
  unfold waitACKEvent
  split
  · rename_i frame kind
    apply Outcome.ite
    · intro hack
      simp only [Bool.and_eq_true, beq_iff_eq] at hack
      have hbooked : accounts config (s.cancelEvent .endTimeout).log =
          some ⟨s.transmissionQueue, .acknowledged, s.retryCounter⟩ := by
        have hgood := hintact.good hack.1 (.inl ⟨hstate, hack.2⟩)
        exact h.booked.trans (by
          simp [ledger, hstate, phaseIn, Ledger.deliver, Ledger.receive, hgood, hack.1, hack.2])
      have hleave : Ledger.mayLeave config ⟨s.transmissionQueue, .acknowledged, s.retryCounter⟩ .sent := by
        simp [Ledger.mayLeave]
      apply Outcome.bind (finishCurrentTransmission_follows .sent hbooked rfl hleave)
      intro next hnext
      exact hnext _
    · intro hother
      apply h.follows
      apply receive_other
      intro hours
      simp_all [ledger, phaseIn]
  · exact timeoutEvent_follows (h.timedOut (.inl hstate)) (hready.queue_ne_nil (.inl hstate))
  · rename_i hlower htimeout
    exact h.follows (deliver_other hlower htimeout)

theorem waitBroadcastEvent_follows (h : Delivered config msg s) (hstate : s.state = .waitBroadcast) :
    Outcome (s.waitBroadcastEvent msg) (FollowsTaken config msg s) (fun _ ↦ True) := by
  unfold waitBroadcastEvent
  apply Outcome.ite
  · intro hmsg
    subst hmsg
    have hbooked : accounts config s.log =
        some ⟨s.transmissionQueue, .broadcastEnded, s.retryCounter⟩ := by
      rw [h.booked]
      simp [Ledger.deliver, Ledger.expire, Ledger.timeOut, ledger, hstate, phaseIn]
    have hleave : Ledger.mayLeave config ⟨s.transmissionQueue, .broadcastEnded, s.retryCounter⟩
        .broadcastSent := by
      simp [Ledger.mayLeave]
    apply Outcome.bind (finishCurrentTransmission_follows .broadcastSent hbooked rfl hleave)
    intro next hnext
    exact (hnext none).congr rfl rfl rfl rfl
  · intro htimeout
    apply h.follows
    cases msg with
    | lower frame kind =>
      apply receive_other
      intro _
      simp [ledger, hstate, phaseIn]
    | upper frame => exact deliver_other (by simp) htimeout
    | self timer => exact deliver_other (by simp) htimeout

theorem waitCTSEvent_follows (hready : Ready config msg s) (h : Delivered config msg s)
    (hintact : s.Intact config msg) (hstate : s.state = .waitCTS) :
    Outcome (s.waitCTSEvent config draw msg) (FollowsTaken config msg s) (fun _ ↦ True) := by
  unfold waitCTSEvent
  split
  · rename_i frame kind
    apply Outcome.ite
    · intro hcts
      simp only [Bool.and_eq_true, beq_iff_eq] at hcts
      have hgood := hintact.good hcts.1 (.inr ⟨hstate, hcts.2⟩)
      refine ⟨h.booked.trans ?_, h.retry⟩
      simp [ledger, hstate, phaseIn, Ledger.deliver, Ledger.receive, hgood, hcts.1, hcts.2, moveTo,
        cancelEvent, Message.frame]
    · intro hother
      apply h.follows
      apply receive_other
      intro hours
      simp_all [ledger, phaseIn]
  · exact timeoutEvent_follows (h.timedOut (.inr hstate)) (hready.queue_ne_nil (.inr (.inr hstate)))
  · rename_i hlower htimeout
    exact h.follows (deliver_other hlower htimeout)

theorem waitSIFSEvent_follows (h : Delivered config msg s) (hfix : config.fixFSM = true)
    (hstate : s.state = .waitSIFS) :
    Outcome (s.waitSIFSEvent config msg) (FollowsTaken config msg s) (fun _ ↦ True) := by
  have hphase : phaseIn s.frameReceivedBeforeSIFS s.state = .quiet ∨
      phaseIn s.frameReceivedBeforeSIFS s.state = .clearToSend := by
    simp only [hstate, phaseIn]
    split
    · exact .inr rfl
    · exact .inl rfl
  have hfollows := h.follows (deliver_quiet hphase)
  unfold waitSIFSEvent
  apply Outcome.ite
  swap
  · intro _
    exact hfollows
  intro _
  cases hframe : s.frameReceivedBeforeSIFS with
  | none => trivial
  | some frame =>
    rw [hframe] at hfollows
    have hanswered : frame.type ≠ .cts → ∀ built, Follows config msg.frame
        (((Mac.note { s with frameReceivedBeforeSIFS := none } (.answered built)).endReception
          config).moveTo .idle) := by
      intro htype built
      have hsent : Follows config (some frame) { s with frameReceivedBeforeSIFS := none } :=
        hfollows.congr rfl rfl rfl rfl
      have hnote := (hsent.note (.answered built) fun _ ↦ rfl).endReception hfix
      refine hnote.congr rfl rfl rfl ?_
      rw [endReception_state]
      simp [Mac.note, moveTo, hstate, phaseIn, htype]
    dsimp only
    split
    · rename_i htype
      exact hanswered (by simp [htype]) _
    · rename_i htype
      cases hqueue : s.transmissionQueue with
      | nil => trivial
      | cons current rest =>
        refine ⟨?_, fun hnil ↦ by simp [moveTo, Mac.note] at hnil⟩
        have hbooked : accounts config s.log = some ⟨current :: rest, .clearToSend, s.retryCounter⟩ := by
          rw [hfollows.booked]
          simp [ledger, hstate, phaseIn, htype, hqueue]
        have hnote : accounts config (s.note (.transmitted current (buildDataFrame config current))).log =
            some ⟨current :: rest, .awaitsACK, s.retryCounter⟩ :=
          accounts_note hbooked (by simp [Ledger.book, Ledger.afterTransmission])
        exact hnote
    · rename_i htype
      exact hanswered (by simp [htype]) _
    · refine hfollows.congr rfl rfl rfl ?_
      rw [hframe]

theorem eventTransition_follows (hready : Ready config msg s) (h : Delivered config msg s)
    (hintact : s.Intact config msg) (hfix : config.fixFSM = true) :
    Outcome (s.eventTransition config draw msg) (FollowsTaken config msg s) (fun _ ↦ True) := by
  unfold eventTransition
  cases hstate : s.state with
  | idle => exact idleEvent_follows h hstate
  | defer => exact deferEvent_follows h hstate
  | waitDIFS => exact waitDIFSEvent_follows h hstate
  | backoff => exact backoffEvent_follows h hstate
  | waitACK => exact waitACKEvent_follows hready h hintact hstate
  | waitBroadcast => exact waitBroadcastEvent_follows h hstate
  | waitCTS => exact waitCTSEvent_follows hready h hintact hstate
  | waitSIFS => exact waitSIFSEvent_follows h hfix hstate
  | receive => exact h.quiet (by simp only [hstate, phaseIn])

/-! ## Events -/

theorem startReserve_frame (reserve : ℚ) :
    Outcome (s.startReserve reserve) (fun next ↦ ∃ timers, next = { s with timers := timers })
      (fun _ ↦ True) := by
  unfold startReserve
  split
  · trivial
  · exact scheduleAt_frame _ _

theorem scheduleReservePeriod_frame (frame : Ieee80211Frame) :
    Outcome (s.scheduleReservePeriod config frame)
      (fun next ↦ ∃ timers, next = { s with timers := timers }) (fun _ ↦ True) := by
  unfold scheduleReservePeriod
  split
  · split
    · split
      · exact ⟨_, rfl⟩
      · apply (startReserve_frame _).post
        rintro _ ⟨timers, rfl⟩
        exact ⟨timers, rfl⟩
    · apply Outcome.bind (Q := fun next ↦ ∃ timers, next = { s with timers := timers })
      · unfold announceBusy
        split
        · exact scheduleAt_frame _ _
        · exact ⟨_, rfl⟩
      · rintro _ ⟨timers, rfl⟩
        apply (startReserve_frame _).post
        rintro _ ⟨timers, rfl⟩
        exact ⟨timers, rfl⟩
  · exact ⟨_, rfl⟩

theorem noteReception_delivered (h : Follows config s.frameReceivedBeforeSIFS s) (frame : Ieee80211Frame)
    (kind : MsgKind) :
    Outcome (s.noteReception config (.lower frame kind))
      (fun next ↦ Delivered config (.lower frame kind) next ∧ next.state = s.state) (fun _ ↦ True) := by
  unfold noteReception
  apply (scheduleReservePeriod_frame frame).post
  rintro _ ⟨timers, rfl⟩
  refine ⟨⟨?_, h.retry⟩, rfl⟩
  have hnote : accounts config (Mac.note { s with lastReceiveFailed := kind.failed }
      (.received frame kind)).log = some ((s.ledger s.frameReceivedBeforeSIFS).receive config frame kind) :=
    accounts_note h.booked rfl
  exact hnote

theorem handleWithFSM_follows (hupper : msg.isUpper = false) (hfix : config.fixFSM = true)
    (hnote : Outcome (s.noteReception config msg)
      (fun next ↦ Ready config msg next ∧ Delivered config msg next ∧ next.Intact config msg)
      (fun _ ↦ True)) :
    Outcome (s.handleWithFSM config draw msg)
      (fun next ↦ Follows config next.frameReceivedBeforeSIFS next) (fun _ ↦ True) := by
  unfold handleWithFSM
  rw [if_neg (by simp [hupper])]
  apply hnote.bind
  rintro s ⟨hready, hdelivered, hintact⟩
  apply Outcome.bind (eventTransition_follows hready hdelivered hintact hfix)
  intro next hnext
  cases next with
  | none => exact hnext
  | some next => exact settle_follows hnext hfix _

theorem handleLowerMsg_follows (hrest : Resting config s) (h : Follows config s.frameReceivedBeforeSIFS s)
    (hfix : config.fixFSM = true) (frame : Ieee80211Frame) (kind : MsgKind)
    (hintact : s.Intact config (.lower frame kind)) :
    Outcome (s.handleLowerMsg config draw frame kind)
      (fun next ↦ Follows config next.frameReceivedBeforeSIFS next) (fun _ ↦ True) := by
  unfold handleLowerMsg
  split
  · trivial
  · apply handleWithFSM_follows rfl hfix
    have hready : Ready config (.lower frame kind) s := hrest.ready (by simp)
    apply ((noteReception_outcome hready).and (noteReception_delivered h frame kind)).mono
    · rintro next ⟨hnext, hdelivered, hstate⟩
      refine ⟨hnext, hdelivered, ?_⟩
      unfold Intact
      rw [hstate]
      exact hintact
    · intro _ _
      trivial

theorem handleSelfMsg_follows (hrest : Resting config s) (h : Follows config s.frameReceivedBeforeSIFS s)
    (hfix : config.fixFSM = true) {timer : Timer} (hdue : s.timers timer = some s.now) :
    Outcome (s.handleSelfMsg config draw timer)
      (fun next ↦ Follows config next.frameReceivedBeforeSIFS next) (fun _ ↦ True) := by
  apply handleWithFSM_follows rfl hfix
  refine ⟨hrest.expire hdue, ⟨?_, h.retry⟩, trivial⟩
  have hnote : accounts config ((s.cancelEvent timer).note (.expired timer)).log =
      some ((s.ledger s.frameReceivedBeforeSIFS).expire timer) := accounts_note h.booked rfl
  exact hnote

theorem receiveChangeNotification_follows (hrest : Resting config s)
    (h : Follows config s.frameReceivedBeforeSIFS s) (hfix : config.fixFSM = true) (radioState : RadioState) :
    Outcome (s.receiveChangeNotification config draw radioState)
      (fun next ↦ Follows config next.frameReceivedBeforeSIFS next) (fun _ ↦ True) := by
  apply handleWithFSM_follows rfl hfix
  refine ⟨hrest.changeRadioState radioState, ⟨h.booked.trans ?_, h.retry⟩, trivial⟩
  simp [Ledger.deliver, Ledger.expire, ledger]

theorem handleUpperMsg_follows (h : Follows config s.frameReceivedBeforeSIFS s)
    (hfix : config.fixFSM = true) (frame : Ieee80211Frame) :
    Outcome (s.handleUpperMsg config draw frame)
      (fun next ↦ Follows config next.frameReceivedBeforeSIFS next) (fun _ ↦ True) := by
  unfold handleUpperMsg
  apply Outcome.ite
  · intro _
    exact h
  intro _
  apply Outcome.ite
  · intro _
    trivial
  intro _
  apply Outcome.ite
  · intro _
    trivial
  intro _
  dsimp only
  generalize ({ frame with
    transmitterAddress := config.address, sequenceNumber := s.sequenceNumber } : Ieee80211Frame) = frame
  have hpushed : Follows config s.frameReceivedBeforeSIFS
      (Mac.note { s with
        sequenceNumber := (s.sequenceNumber + 1) % 4096
        transmissionQueue := s.transmissionQueue ++ [frame] } (.arrived frame)) := by
    refine ⟨?_, fun hnil ↦ by simp [Mac.note] at hnil⟩
    have hnote : accounts config (s.note (.arrived frame)).log =
        some ⟨s.transmissionQueue ++ [frame], phaseIn s.frameReceivedBeforeSIFS s.state, s.retryCounter⟩ :=
      accounts_note h.booked rfl
    exact hnote
  unfold handleWithFSM
  apply Outcome.ite
  · intro _
    exact hpushed
  · intro hidle
    have hstate : s.state = .idle := by simpa [Mac.note, Message.isUpper] using hidle
    have hdelivered : Delivered config (.upper frame) (Mac.note { s with
        sequenceNumber := (s.sequenceNumber + 1) % 4096
        transmissionQueue := s.transmissionQueue ++ [frame] } (.arrived frame)) :=
      ⟨hpushed.booked, hpushed.retry⟩
    simp only [Mac.note, hstate] at hdelivered
    simp only [noteReception, ok_bind, eventTransition, Mac.note, hstate]
    apply Outcome.bind (idleEvent_follows hdelivered rfl)
    intro next hnext
    cases next with
    | none => exact hnext
    | some next => exact settle_follows hnext hfix _

theorem Follows.handleCommand (h : Follows config s.frameReceivedBeforeSIFS s) (command : PhyControlInfo) :
    Follows config (s.handleCommand command).frameReceivedBeforeSIFS (s.handleCommand command) := by
  unfold Mac.handleCommand
  dsimp only
  split
  · apply Follows.note _ _ fun _ ↦ rfl
    exact h.congr rfl rfl rfl rfl
  · exact h.congr rfl rfl rfl rfl

/-- No damaged ACK or CTS for this station arrives while it waits for one. -/
def ReceivesIntact (config : Config) (s : Mac) (input : Input) : Prop :=
  match input.event with
  | .lower frame kind => s.Intact config (.lower frame kind)
  | _ => True

instance (config : Config) (s : Mac) (input : Input) : Decidable (s.ReceivesIntact config input) :=
  match input with
  | ⟨_, .lower frame kind, _⟩ =>
    inferInstanceAs (Decidable (kind.failed = true → isForUs config frame = true →
      ¬ (s.state = .waitACK ∧ frame.type = .ack) ∧ ¬ (s.state = .waitCTS ∧ frame.type = .cts)))
  | ⟨_, .upper _, _⟩ | ⟨_, .radioStateChanged _, _⟩ | ⟨_, .command _, _⟩ | ⟨_, .timer _, _⟩ => isTrue trivial

theorem handleMessage_follows (hrest : Resting config s) (h : Follows config s.frameReceivedBeforeSIFS s)
    (hfix : config.fixFSM = true) {input : Input} (harrives : s.Arrives input)
    (hintact : s.ReceivesIntact config input) :
    Outcome (s.handleMessage config input)
      (fun next ↦ Follows config next.frameReceivedBeforeSIFS next) (fun _ ↦ True) := by
  have hrest := hrest.advance harrives
  have hnow : Follows config s.frameReceivedBeforeSIFS { s with now := input.time } := h.congr rfl rfl rfl rfl
  obtain ⟨time, event, draw⟩ := input
  unfold handleMessage handleEvent
  cases event with
  | upper frame => exact handleUpperMsg_follows hnow hfix frame
  | lower frame kind => exact handleLowerMsg_follows hrest hnow hfix frame kind hintact
  | radioStateChanged radioState => exact receiveChangeNotification_follows hrest hnow hfix radioState
  | command command => exact hnow.handleCommand command
  | timer timer => exact handleSelfMsg_follows hrest hnow hfix (harrives.2.2 timer rfl)

/-- With the fix of the state machine, the record of every run without damaged ACKs and CTSs is one
that the protocol allows. Its ledger has the frames of the queue, and frames leave in the order of
arrival. -/
theorem stop_and_wait (config : Config) (hfix : config.fixFSM = true) {s : Mac}
    (h : Reachable (· = initialized) (fun s input ↦ s.Arrives input ∧ s.ReceivesIntact config input)
      (handleMessage config) s) :
    accounts config s.log = some (s.ledger s.frameReceivedBeforeSIFS) ∧
      arrivals s.log = departures s.log ++ s.transmissionQueue := by
  have hinv : Resting config s ∧ Follows config s.frameReceivedBeforeSIFS s := by
    apply h.invariant
    · intro s hs
      rw [hs]
      exact ⟨initialized_resting, rfl, fun _ ↦ rfl⟩
    · intro s input next hs hinput hnext
      have hrest := (handleMessage_outcome hs.1 hinput.1).of_eq_ok hnext
      exact ⟨hrest, (handleMessage_follows hs.1 hs.2 hfix hinput.1 hinput.2).of_eq_ok hnext⟩
  exact ⟨hinv.2.booked, arrivals_eq hinv.2.booked⟩

/-- The frame is sent after the CTS, and the ACK arrives. -/
def ackReceived (ctsKind ackKind : MsgKind) : List Input :=
  [⟨1, .upper dataFrame, 0⟩, ⟨1 + getDIFS, .timer .endDIFS, 0⟩,
    ⟨1 + 500 / 1000000, .lower ⟨.cts, 1, 0, 1, LENGTH_CTS, false, 0⟩ ctsKind, 0⟩,
    ⟨1 + 510 / 1000000, .timer .endSIFS, 0⟩,
    ⟨1 + 1200 / 1000000, .lower ⟨.ack, 1, 0, 0, LENGTH_ACK, false, 0⟩ ackKind, 0⟩]

theorem ack_received_accounted : ∃ s, run (handleMessage station) initialized
    (ackReceived .good .good) = .ok s ∧
    s.transmissionQueue = [] ∧ departures s.log = [dataFrame] ∧ arrivals s.log = [dataFrame] := by
  obtain ⟨s, hrun, hcheck⟩ := exists_ok (run (handleMessage station) initialized (ackReceived .good .good))
    (fun s ↦ s.transmissionQueue = [] ∧ departures s.log = [dataFrame]) (by decide +kernel)
  obtain ⟨hqueue, hdeparted⟩ := hcheck
  have hreach : Reachable (· = initialized)
      (fun s input ↦ s.Arrives input ∧ s.ReceivesIntact station input) (handleMessage station) s :=
    Reachable.of_run (.start rfl) (ackReceived .good .good) (by decide +kernel) hrun
  have harrived := (stop_and_wait station rfl hreach).2
  rw [hqueue, hdeparted] at harrived
  exact ⟨s, hrun, hqueue, hdeparted, harrived⟩

/-- A damaged ACK counts as an ACK, and a damaged CTS as a CTS. -/
theorem damaged_ack_and_cts_accepted :
    (∃ s ack built, Reachable (· = initialized) Arrives (handleMessage station) s ∧
      s.log.reverse.take 2 = [.departed built .sent, .received ack .bitError] ∧
      accounts station s.log = none) ∧
    ∃ s cts current built, Reachable (· = initialized) Arrives (handleMessage station) s ∧
      s.log.reverse.take 3 = [.transmitted current built, .expired .endSIFS, .received cts .collision] ∧
      accounts station s.log = none := by
  constructor
  · obtain ⟨s, hrun, hcheck⟩ := exists_ok
      (run (handleMessage station) initialized (ackReceived .good .bitError))
      (fun s ↦ s.log.reverse.take 2 = [.departed dataFrame .sent, .received ⟨.ack, 1, 0, 0, LENGTH_ACK,
        false, 0⟩ .bitError] ∧ accounts station s.log = none) (by decide +kernel)
    have hreach : Reachable (· = initialized) Arrives (handleMessage station) s :=
      Reachable.of_run (.start rfl) (ackReceived .good .bitError) (by decide +kernel) hrun
    obtain ⟨hlog, haccounts⟩ := hcheck
    exact ⟨s, _, _, hreach, hlog, haccounts⟩
  · let unanswered := (ackReceived .collision .good).dropLast
    obtain ⟨s, hrun, hcheck⟩ := exists_ok (run (handleMessage station) initialized unanswered)
      (fun s ↦ s.log.reverse.take 3 = [.transmitted dataFrame (buildDataFrame station dataFrame),
        .expired .endSIFS, .received ⟨.cts, 1, 0, 1, LENGTH_CTS, false, 0⟩ .collision] ∧ accounts station
        s.log = none) (by decide +kernel)
    have hreach : Reachable (· = initialized) Arrives (handleMessage station) s :=
      Reachable.of_run (.start rfl) unanswered (by decide +kernel) hrun
    obtain ⟨hlog, haccounts⟩ := hcheck
    exact ⟨s, _, _, _, hreach, hlog, haccounts⟩

end Mac

end Ieee80211Mac

end InetManet
