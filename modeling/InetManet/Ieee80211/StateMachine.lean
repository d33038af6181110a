import InetManet.Ieee80211.Entering

/-!
# The timers and variables of the 802.11 state machine

Between two events the machine rests. An event takes at most one transition of its own, and what
follows brings the machine to rest again. The medium may only be reserved for a positive time, which
is the one check that a frame from the network can fail.
-/

namespace InetManet

open TransitionSystem

namespace Ieee80211Mac

/-- The handlers refuse a message before it reaches the state machine. -/
def Fault.refusal : Fault → Bool
  | .messageTooLong => true
  | .unspecifiedReceiver => true
  | .ownTransmitter => true
  | _ => false

namespace Mac

variable {config : Config} {msg : Message} {s : Mac} {draw : ℕ}

/-! ## Transitions for an event -/

/-- The result of the transition for an event: none is taken and the machine rests, or a state is
entered. -/
def Taken (config : Config) (msg : Message) (s : Mac) : Option Mac → Prop
  | none => Resting config s
  | some next => Entering config msg next

theorem Entering.cancel (h : Entering config msg s) (timer : Timer) (hlocal : timer.isLocal) :
    Entering config msg (s.cancelEvent timer) := by
  refine ⟨h.toSound.cancel timer hlocal, ?_, h.enters⟩
  intro other hother
  by_cases heq : other = timer
  · simp [cancelEvent, heq]
  · simp [cancelEvent, heq, h.quiet other hother]

theorem entering_transmitCurrent (h : Sound config s) (hquiet : s.Quiet)
    (hqueue : s.transmissionQueue ≠ []) (frame : Ieee80211Frame) :
    Entering config msg (s.transmitCurrent config frame) := by
  unfold transmitCurrent
  have hsound : ∀ entry state, Sound config ((s.note entry).moveTo state) :=
    fun _ _ ↦ ⟨h.retry, h.period, h.due, h.announced⟩
  split
  · exact ⟨hsound _ _, hquiet, hqueue⟩
  split
  · exact ⟨hsound _ _, hquiet, hqueue⟩
  · exact ⟨hsound _ _, hquiet, hqueue⟩

theorem ST_pos : 0 < ST := by norm_num [ST]

theorem generateBackoffPeriod_outcome (h : s.retryCounter < config.transmissionLimit) :
    Outcome (s.generateBackoffPeriod config draw)
      (fun next ↦ ∃ period, 0 ≤ period ∧ next = { s with backoffPeriod := period }) (fun _ ↦ False) := by
  have hnonneg : ∀ n : ℕ, 0 ≤ n * ST := fun n ↦ mul_nonneg n.cast_nonneg ST_pos.le
  have hcompute : Outcome (computeBackoffPeriod config s.transmissionQueue.head? s.retryCounter draw)
      (0 ≤ ·) (fun _ ↦ False) := by
    unfold computeBackoffPeriod
    split
    · exact hnonneg _
    · exact hnonneg _
  unfold generateBackoffPeriod
  apply hcompute.bind
  intro period hperiod
  rw [if_neg (not_lt.mpr hperiod)]
  exact ⟨period, hperiod, rfl⟩

theorem difsOver_outcome (h : Sound config s) (hquiet : s.Quiet) (hbackoff : s.backoff = true) :
    Outcome (s.difsOver config draw) (Taken config msg s) (fun _ ↦ False) := by
  unfold difsOver
  rw [if_neg (by simp [hbackoff])]
  apply Outcome.ite
  · intro _
    apply (generateBackoffPeriod_outcome h.retry).bind
    rintro _ ⟨period, hperiod, rfl⟩
    exact ⟨⟨h.retry, .inr hperiod, h.due, h.announced⟩, hquiet, hbackoff, hperiod⟩
  · intro hvalid
    have hperiod : 0 ≤ s.backoffPeriod := by
      rcases h.period with hinvalid | hperiod
      · simp [isInvalidBackoffPeriod, hinvalid] at hvalid
      · exact hperiod
    exact ⟨⟨h.retry, h.period, h.due, h.announced⟩, hquiet, hbackoff, hperiod⟩

theorem idleEvent_outcome (h : Ready config msg s) (hstate : s.state = .idle)
    (hupper : msg.isUpper = false) :
    Outcome (s.idleEvent config msg) (Taken config msg s) (fun _ ↦ False) := by
  have hquiet : s.Quiet := by
    apply h.quiet
    intro timer _ hruns
    rw [hstate] at hruns
    cases timer <;> cases hruns
  unfold idleEvent
  rw [if_neg (by simp [hupper]), if_neg (by simp [hupper])]
  apply Outcome.ite
  · intro hlower
    exact ⟨⟨h.retry, h.period, h.due, h.announced⟩, hquiet, hlower⟩
  · intro _
    apply h.resting
    · intro timer hlocal hmsg
      have hruns := h.delivered timer hlocal hmsg
      rw [hstate] at hruns
      cases timer <;> cases hruns
    · simp [hstate]

theorem deferEvent_outcome (h : Ready config msg s) (hstate : s.state = .defer) :
    Outcome (s.deferEvent msg) (Taken config msg s) (fun _ ↦ False) := by
  have hrests := h.rests
  simp only [Rests, hstate] at hrests
  have hquiet : s.Quiet := by
    apply h.quiet
    intro timer _ hruns
    rw [hstate] at hruns
    cases timer <;> cases hruns
  unfold deferEvent
  apply Outcome.ite
  · intro _
    exact ⟨⟨h.retry, h.period, h.due, h.announced⟩, hquiet, fun _ ↦ hrests⟩
  · intro hfree
    apply Outcome.ite
    · intro hlower
      exact ⟨⟨h.retry, h.period, h.due, h.announced⟩, hquiet, hlower⟩
    · intro hlower
      apply h.resting
      · intro timer hlocal hmsg
        have hruns := h.delivered timer hlocal hmsg
        rw [hstate] at hruns
        cases timer <;> cases hruns
      · intro _
        rcases h.busy hstate with hbusy | hchange | hlower'
        · exact hbusy
        · simpa [hchange] using hfree
        · exact absurd hlower' hlower

theorem waitDIFSEvent_outcome (h : Ready config msg s) (hstate : s.state = .waitDIFS) :
    Outcome (s.waitDIFSEvent config draw msg) (Taken config msg s) (fun _ ↦ False) := by
  have hrests := h.rests
  simp only [Rests, hstate] at hrests
  have honly : ∀ timer : Timer, timer.isLocal → timer.runsIn s.state → timer = .endDIFS := by
    intro timer _ hruns
    rw [hstate] at hruns
    cases timer <;> first | rfl | cases hruns
  have hsound := h.toSound.cancel .endDIFS rfl
  have hcancel := h.quiet_cancel honly
  unfold waitDIFSEvent
  apply Outcome.ite
  · intro hmsg
    have hquiet : s.Quiet := by
      apply h.quiet
      intro timer hlocal hruns
      rw [honly timer hlocal hruns, hmsg]
    cases hqueue : s.transmissionQueue with
    | nil => exact difsOver_outcome h.toSound hquiet (hrests hqueue)
    | cons frame rest =>
      apply Outcome.ite
      · intro _
        apply Entering.cancel _ .endDIFS rfl
        apply entering_transmitCurrent h.toSound hquiet
        simp [hqueue]
      · intro hbackoff
        exact difsOver_outcome h.toSound hquiet (by simpa using hbackoff)
  · intro hmsg
    apply Outcome.ite
    · intro _
      exact ⟨⟨hsound.retry, hsound.period, hsound.due, hsound.announced⟩, hcancel, fun _ ↦ rfl⟩
    · intro _
      apply Outcome.ite
      · intro hlower
        exact ⟨⟨hsound.retry, hsound.period, hsound.due, hsound.announced⟩, hcancel, hlower⟩
      · intro _
        apply h.resting
        · intro timer hlocal hself
          rw [honly timer hlocal (h.delivered timer hlocal hself)] at hself
          exact hmsg hself
        · simp [hstate]

/-- What is left of the backoff period is never negative, since the timer is not overdue. -/
theorem decreaseBackoffPeriod_outcome {due : ℚ} (hdue : s.now ≤ due)
    (hend : due = s.backoffSince + s.backoffPeriod) :
    Outcome s.decreaseBackoffPeriod
      (fun next ↦ ∃ period, 0 ≤ period ∧ next = { s with backoffPeriod := period }) (fun _ ↦ False) := by
  have helapsed : (⌊(s.now - s.backoffSince) / ST⌋ : ℚ) * ST ≤ s.now - s.backoffSince :=
    (le_div_iff₀ ST_pos).mp (Int.floor_le _)
  have hperiod : 0 ≤ s.backoffPeriod - ⌊(s.now - s.backoffSince) / ST⌋ * ST := by linarith
  simp only [decreaseBackoffPeriod, if_neg (not_lt.mpr hperiod)]
  exact ⟨_, hperiod, rfl⟩

theorem backoffEvent_outcome (h : Ready config msg s) (hstate : s.state = .backoff) :
    Outcome (s.backoffEvent config msg) (Taken config msg s) (fun _ ↦ False) := by
  have hrests := h.rests
  simp only [Rests, hstate] at hrests
  obtain ⟨hbackoff, hperiod, hend⟩ := hrests
  have honly : ∀ timer : Timer, timer.isLocal → timer.runsIn s.state → timer = .endBackoff := by
    intro timer _ hruns
    rw [hstate] at hruns
    cases timer <;> first | rfl | cases hruns
  unfold backoffEvent
  apply Outcome.ite
  · intro hmsg
    have hquiet : s.Quiet := by
      apply h.quiet
      intro timer hlocal hruns
      rw [honly timer hlocal hruns, hmsg]
    cases hqueue : s.transmissionQueue with
    | nil =>
      refine ⟨⟨config.transmissionLimit_pos, .inr (le_refl 0), h.due, h.announced⟩, hquiet, ?_⟩
      intro hpos
      exact absurd hpos (lt_irrefl 0)
    | cons frame rest =>
      apply entering_transmitCurrent h.toSound hquiet
      simp [hqueue]
  · intro hmsg
    apply Outcome.ite
    · intro _
      have hsome : (s.timers .endBackoff).isSome :=
        (h.running .endBackoff rfl).mpr ⟨by rw [hstate]; rfl, hmsg⟩
      obtain ⟨due, hdue⟩ := Option.isSome_iff_exists.mp hsome
      have hsound := h.toSound.cancel .endBackoff rfl
      have hcancel := h.quiet_cancel honly
      apply Outcome.bind (decreaseBackoffPeriod_outcome (s := s.cancelEvent .endBackoff)
        (h.due .endBackoff due hdue) (hend due hdue))
      rintro _ ⟨period, hnonneg, rfl⟩
      exact ⟨⟨hsound.retry, .inr hnonneg, hsound.due, hsound.announced⟩, hcancel, fun _ ↦ hbackoff⟩
    · intro _
      apply h.resting
      · intro timer hlocal hself
        rw [honly timer hlocal (h.delivered timer hlocal hself)] at hself
        exact hmsg hself
      · simp [hstate]

theorem finishCurrentTransmission_outcome (h : Sound config s) (hqueue : s.transmissionQueue ≠ [])
    (how : Departure) :
    Outcome (s.finishCurrentTransmission how)
      (fun next ↦ Sound config next ∧ next.timers = s.timers ∧ next.backoffPeriod = 0)
      (fun _ ↦ False) := by
  unfold finishCurrentTransmission popTransmissionQueue
  cases hs : s.transmissionQueue with
  | nil => exact absurd hs hqueue
  | cons frame rest =>
    exact ⟨⟨config.transmissionLimit_pos, .inr (le_refl 0), h.due, h.announced⟩, rfl, rfl⟩

theorem timeoutEvent_outcome (h : Sound config s) (hquiet : s.Quiet)
    (hqueue : s.transmissionQueue ≠ []) :
    Outcome (s.timeoutEvent config draw) (Taken config msg s) (fun _ ↦ False) := by
  unfold timeoutEvent
  apply Outcome.ite
  · intro _
    apply Outcome.bind (finishCurrentTransmission_outcome h hqueue .givenUp)
    rintro next ⟨hsound, htimers, hperiod⟩
    refine ⟨⟨hsound.retry, hsound.period, hsound.due, hsound.announced⟩, ?_, ?_⟩
    · intro timer hlocal
      exact (congrFun htimers timer).trans (hquiet timer hlocal)
    · intro hpos
      exact absurd hpos (by simp [moveTo, hperiod])
  · intro hlast
    have hlimit := config.transmissionLimit_pos
    have hretry : s.retryCounter < config.transmissionLimit - 1 := by
      have := h.retry
      omega
    rw [retryCurrentTransmission, if_pos hretry]
    apply (generateBackoffPeriod_outcome (by dsimp only; omega)).bind
    rintro _ ⟨period, hnonneg, rfl⟩
    refine ⟨⟨?_, .inr hnonneg, h.due, h.announced⟩, hquiet, fun _ ↦ rfl⟩
    dsimp only [moveTo]
    omega

/-- The states that wait for the end of a transmission run only the timeout. -/
theorem timeout_only (hstate : s.state = .waitACK ∨ s.state = .waitBroadcast ∨ s.state = .waitCTS)
    (timer : Timer) (hlocal : timer.isLocal) (hruns : timer.runsIn s.state) : timer = .endTimeout := by
  rcases hstate with hstate | hstate | hstate <;>
    · rw [hstate] at hruns
      cases timer <;> first | rfl | cases hruns

theorem Ready.queue_ne_nil (h : Ready config msg s)
    (hstate : s.state = .waitACK ∨ s.state = .waitBroadcast ∨ s.state = .waitCTS) :
    s.transmissionQueue ≠ [] := by
  have hrests := h.rests
  rcases hstate with hstate | hstate | hstate <;> simpa only [Rests, hstate] using hrests

theorem Ready.quiet_timeout (h : Ready config (.self .endTimeout) s)
    (hstate : s.state = .waitACK ∨ s.state = .waitBroadcast ∨ s.state = .waitCTS) : s.Quiet := by
  apply h.quiet
  intro timer hlocal hruns
  rw [timeout_only hstate timer hlocal hruns]

section

variable (h : Ready config msg s)

include h

/-- A message other than the timeout leaves the machine waiting. -/
theorem Ready.waits (hstate : s.state = .waitACK ∨ s.state = .waitBroadcast ∨ s.state = .waitCTS)
    (hmsg : msg ≠ .self .endTimeout) : Resting config s := by
  apply h.resting
  · intro timer hlocal hself
    rw [timeout_only hstate timer hlocal (h.delivered timer hlocal hself)] at hself
    exact hmsg hself
  · intro hdefer
    rw [hdefer] at hstate
    simp at hstate

theorem waitACKEvent_outcome (hstate : s.state = .waitACK) :
    Outcome (s.waitACKEvent config draw msg) (Taken config msg s) (fun _ ↦ False) := by
  have hwaits := h.waits (.inl hstate)
  unfold waitACKEvent
  split
  · apply Outcome.ite
    · intro _
      apply Outcome.bind (finishCurrentTransmission_outcome (h.toSound.cancel .endTimeout rfl)
        (h.queue_ne_nil (.inl hstate)) .sent)
      rintro next ⟨hsound, htimers, hperiod⟩
      refine ⟨⟨hsound.retry, hsound.period, hsound.due, hsound.announced⟩, ?_, ?_⟩
      · intro timer hlocal
        exact (congrFun htimers timer).trans (h.quiet_cancel (timeout_only (.inl hstate)) timer hlocal)
      · intro hpos
        exact absurd hpos (by simp [moveTo, hperiod])
    · intro _
      exact hwaits (by simp)
  · exact timeoutEvent_outcome h.toSound (h.quiet_timeout (.inl hstate)) (h.queue_ne_nil (.inl hstate))
  · rename_i hother
    exact hwaits hother

theorem waitBroadcastEvent_outcome (hstate : s.state = .waitBroadcast) :
    Outcome (s.waitBroadcastEvent msg) (Taken config msg s) (fun _ ↦ False) := by
  unfold waitBroadcastEvent
  apply Outcome.ite
  · intro hmsg
    subst hmsg
    apply Outcome.bind (finishCurrentTransmission_outcome h.toSound
      (h.queue_ne_nil (.inr (.inl hstate))) .broadcastSent)
    rintro next ⟨hsound, htimers, -⟩
    refine ⟨⟨hsound.retry, .inl rfl, hsound.due, hsound.announced⟩, ?_, fun _ ↦ rfl⟩
    intro timer hlocal
    exact (congrFun htimers timer).trans (h.quiet_timeout (.inr (.inl hstate)) timer hlocal)
  · intro hmsg
    exact h.waits (.inr (.inl hstate)) hmsg

theorem waitCTSEvent_outcome (hstate : s.state = .waitCTS) :
    Outcome (s.waitCTSEvent config draw msg) (Taken config msg s) (fun _ ↦ False) := by
  have hwaits := h.waits (.inr (.inr hstate))
  have hqueue := h.queue_ne_nil (.inr (.inr hstate))
  unfold waitCTSEvent
  split
  · rename_i frame kind
    apply Outcome.ite
    · intro hcts
      simp only [Bool.and_eq_true, beq_iff_eq] at hcts
      have hsound := h.toSound.cancel .endTimeout rfl
      refine ⟨⟨hsound.retry, hsound.period, hsound.due, hsound.announced⟩, ?_, ?_⟩
      · exact h.quiet_cancel (timeout_only (.inr (.inr hstate)))
      · exact ⟨frame, kind, rfl, .inr (.inr ⟨hcts.2, hqueue⟩)⟩
    · intro _
      exact hwaits (by simp)
  · exact timeoutEvent_outcome h.toSound (h.quiet_timeout (.inr (.inr hstate))) hqueue
  · rename_i hother
    exact hwaits hother

theorem waitSIFSEvent_outcome (hstate : s.state = .waitSIFS) :
    Outcome (s.waitSIFSEvent config msg) (Taken config msg s) (fun _ ↦ False) := by
  have hrests := h.rests
  simp only [Rests, hstate] at hrests
  obtain ⟨frame, hframe, hanswer⟩ := hrests
  have honly : ∀ timer : Timer, timer.isLocal → timer.runsIn s.state → timer = .endSIFS := by
    intro timer _ hruns
    rw [hstate] at hruns
    cases timer <;> first | rfl | cases hruns
  unfold waitSIFSEvent
  apply Outcome.ite
  · intro hmsg
    have hquiet : s.Quiet := by
      apply h.quiet
      intro timer hlocal hruns
      rw [honly timer hlocal hruns, hmsg]
    have hidle : ∀ entry, Entering config msg ((({ s with frameReceivedBeforeSIFS := none }.note
        entry).endReception config).moveTo .idle) := by
      intro entry
      apply entering_endReception
      · exact ⟨h.retry, h.period, h.due, h.announced⟩
      · exact hquiet
    simp only [hframe]
    rcases hanswer with htype | htype | ⟨htype, hqueue⟩
    · simp only [htype]
      exact hidle _
    · simp only [htype]
      exact hidle _
    · simp only [htype]
      cases hs : s.transmissionQueue with
      | nil => exact absurd hs hqueue
      | cons current rest =>
        exact ⟨⟨h.retry, h.period, h.due, h.announced⟩, hquiet, List.cons_ne_nil current rest⟩
  · intro hmsg
    apply h.resting
    · intro timer hlocal hself
      rw [honly timer hlocal (h.delivered timer hlocal hself)] at hself
      exact hmsg hself
    · simp [hstate]

theorem eventTransition_outcome (hupper : msg.isUpper = false) :
    Outcome (s.eventTransition config draw msg) (Taken config msg s) (fun _ ↦ False) := by
  unfold eventTransition
  cases hstate : s.state with
  | idle => exact idleEvent_outcome h hstate hupper
  | defer => exact deferEvent_outcome h hstate
  | waitDIFS => exact waitDIFSEvent_outcome h hstate
  | backoff => exact backoffEvent_outcome h hstate
  | waitACK => exact waitACKEvent_outcome h hstate
  | waitBroadcast => exact waitBroadcastEvent_outcome h hstate
  | waitCTS => exact waitCTSEvent_outcome h hstate
  | waitSIFS => exact waitSIFSEvent_outcome h hstate
  | receive =>
    have hrests := h.rests
    simp only [Rests, hstate] at hrests

end

theorem rank_lt (s : Mac) : s.rank < FSM_MAXT - 1 := by
  have hrank : s.rank ≤ 4 := by
    unfold rank
    split <;> (try split) <;> omega
  have hmax : FSM_MAXT = 64 := rfl
  omega

/-! ## Reservations -/

/-- The frame asks for a reservation of negative length. -/
def ReservesNegative (config : Config) (s : Mac) (frame : Ieee80211Frame) : Prop :=
  isForUs config frame = false ∧ frame.duration < 0 ∧ s.timers .endReserve = none

section

variable (h : Ready config msg s)

include h

theorem Ready.setTimers (hlower : msg.isLower = true) {timers : Timer → Option ℚ}
    (hlocal : ∀ timer : Timer, timer.isLocal → timers timer = s.timers timer)
    (hdue : ∀ timer, ∀ time ∈ timers timer, s.now ≤ time)
    (hannounced : ∀ time ∈ timers .mediumStateChange, ∃ limit ∈ timers .endReserve, time < limit) :
    Ready config msg { s with timers := timers } := by
  refine ⟨⟨h.retry, h.period, hdue, hannounced⟩, ?_, h.delivered, ?_, fun _ ↦ .inr (.inr hlower)⟩
  · intro timer htimer
    simp only [hlocal timer htimer]
    exact h.running timer htimer
  · have hrests := h.rests
    unfold Rests at hrests ⊢
    simp only [hlocal .endBackoff rfl]
    exact hrests

theorem Ready.extendReserve (hlower : msg.isLower = true) {arrival duration : ℚ}
    (hreserve : s.timers .endReserve = some arrival) (hlonger : arrival - s.now ≤ duration)
    (hpos : 0 < duration) :
    Ready config msg { s with timers := Function.update s.timers .endReserve (some (s.now + duration)) } := by
  apply h.setTimers hlower
  · intro timer htimer
    cases timer <;> first | rfl | cases htimer
  · intro timer time htime
    by_cases heq : timer = .endReserve
    · subst heq
      simp only [Function.update_self, Option.mem_some_iff] at htime
      linarith
    · rw [Function.update_of_ne heq] at htime
      exact h.due timer time htime
  · intro time htime
    obtain ⟨limit, hlimit, hlt⟩ := h.announced time htime
    rw [hreserve, Option.mem_some_iff] at hlimit
    refine ⟨s.now + duration, rfl, ?_⟩
    linarith

/-- A reserved period begins, when the busy medium has been announced for now or not at all. -/
theorem startReserve_outcome (hlower : msg.isLower = true) {frame : Ieee80211Frame}
    (hother : isForUs config frame = false) (hne : frame.duration ≠ 0)
    (hreserve : s.timers .endReserve = none) {timers : Timer → Option ℚ}
    (hnone : timers .endReserve = none)
    (hsame : ∀ timer : Timer, timer ≠ .mediumStateChange → timers timer = s.timers timer)
    (hnow : ∀ time ∈ timers .mediumStateChange, time = s.now) :
    Outcome (startReserve { s with timers } frame.duration) (Ready config msg)
      (fun fault ↦ fault = .reservePeriod ∧ s.ReservesNegative config frame) := by
  unfold startReserve
  apply Outcome.ite
  · intro hnonpos
    exact ⟨rfl, hother, lt_of_le_of_ne hnonpos hne, hreserve⟩
  · intro hpos
    have hpos : 0 < frame.duration := not_le.mp hpos
    rw [scheduleAt_eq hnone (le_add_of_nonneg_right hpos.le)]
    apply h.setTimers hlower
    · intro timer htimer
      cases timer <;> first | exact hsame _ (by decide) | cases htimer
    · intro timer time htime
      by_cases heq : timer = .endReserve
      · subst heq
        simp only [Function.update_self, Option.mem_some_iff] at htime
        linarith
      · rw [Function.update_of_ne heq] at htime
        by_cases hchange : timer = .mediumStateChange
        · subst hchange
          exact (hnow time htime).ge
        · have htime : time ∈ timers timer := htime
          rw [hsame timer hchange] at htime
          exact h.due timer time htime
    · intro time htime
      rw [Function.update_of_ne (by decide)] at htime
      refine ⟨s.now + frame.duration, rfl, ?_⟩
      rw [hnow time htime]
      linarith

theorem scheduleReservePeriod_outcome (hlower : msg.isLower = true) (frame : Ieee80211Frame) :
    Outcome (s.scheduleReservePeriod config frame) (Ready config msg)
      (fun fault ↦ fault = .reservePeriod ∧ s.ReservesNegative config frame) := by
  unfold scheduleReservePeriod
  apply Outcome.ite
  swap
  · intro _
    exact h
  intro hcond
  have hcond : (isForUs config frame = false ∧ frame.duration ≠ 0) ∧ frame.duration < 32768 := by
    simpa using hcond
  obtain ⟨⟨hother, hne⟩, -⟩ := hcond
  cases hreserve : s.timers .endReserve with
  | some arrival =>
    have harrival := h.due .endReserve arrival hreserve
    apply Outcome.ite
    · intro _
      exact h
    · intro hlonger
      have hpos : 0 < frame.duration := by
        apply lt_of_le_of_ne _ hne.symm
        linarith
      have hmax : max frame.duration (arrival - s.now) = frame.duration := max_eq_left (not_lt.mp hlonger)
      rw [hmax, startReserve, if_neg (not_le.mpr hpos), scheduleAt_eq (by simp [cancelEvent])
        (le_add_of_nonneg_right hpos.le)]
      have hready := h.extendReserve hlower hreserve (not_lt.mp hlonger) hpos
      simpa [cancelEvent] using hready
  | none =>
    have hmedium : s.timers .mediumStateChange = none := by
      cases hchange : s.timers .mediumStateChange with
      | none => rfl
      | some time =>
        obtain ⟨limit, hlimit, -⟩ := h.announced time hchange
        rw [hreserve] at hlimit
        cases hlimit
    unfold announceBusy
    by_cases hidle : s.radioState = .idle
    · rw [if_pos hidle, scheduleAt_eq hmedium (le_refl s.now)]
      apply startReserve_outcome h hlower hother hne hreserve
      · exact hreserve
      · intro timer hne
        exact Function.update_of_ne hne _ _
      · intro time htime
        simp only [Function.update_self, Option.mem_some_iff] at htime
        exact htime.symm
    · rw [if_neg hidle]
      apply @startReserve_outcome config msg s h hlower frame hother hne hreserve s.timers hreserve
      · intro timer _
        rfl
      · intro time htime
        rw [hmedium] at htime
        cases htime

/-! ## Events -/

theorem noteReception_outcome :
    Outcome (s.noteReception config msg) (Ready config msg) (fun fault ↦ fault = .reservePeriod ∧
      ∃ frame kind, msg = .lower frame kind ∧ s.ReservesNegative config frame) := by
  unfold noteReception
  split
  · rename_i frame kind
    have hready : Ready config (.lower frame kind)
        ({ s with lastReceiveFailed := kind.failed }.note (.received frame kind)) :=
      ⟨⟨h.retry, h.period, h.due, h.announced⟩, h.running, h.delivered, h.rests, h.busy⟩
    apply (scheduleReservePeriod_outcome hready rfl frame).mono fun _ hnext ↦ hnext
    rintro fault ⟨hfault, hnegative⟩
    exact ⟨hfault, frame, kind, rfl, hnegative⟩
  · exact h

theorem handleWithFSM_outcome (hupper : msg.isUpper = false) :
    Outcome (s.handleWithFSM config draw msg) (Resting config) (fun fault ↦ fault = .reservePeriod ∧
      ∃ frame kind, msg = .lower frame kind ∧ s.ReservesNegative config frame) := by
  unfold handleWithFSM
  rw [if_neg (by simp [hupper])]
  apply (noteReception_outcome h).bind
  intro s hs
  apply Outcome.bind ((eventTransition_outcome hs hupper).mono (fun _ hnext ↦ hnext) (by simp))
  intro next hnext
  cases next with
  | none => exact hnext
  | some next => exact (settle_outcome hnext next.rank_lt).mono (fun _ hrest ↦ hrest) (by simp)

end

section

variable (h : Resting config s)

include h

theorem Resting.push (hstate : s.state ≠ .idle) (frame : Ieee80211Frame)
    (number : ℕ) (log : List Record) :
    Resting config { s with
      sequenceNumber := number, transmissionQueue := s.transmissionQueue ++ [frame], log := log } := by
  refine ⟨⟨h.retry, h.period, h.due, h.announced⟩, h.running, ?_, h.busy⟩
  have hrests := h.rests
  unfold Rests Answerable at hrests ⊢
  cases hs : s.state with
  | waitSIFS =>
    simp only [hs] at hrests ⊢
    obtain ⟨answered, hframe, hanswer⟩ := hrests
    exact ⟨answered, hframe, hanswer.imp_right fun hother ↦ hother.imp_right fun hcts ↦ ⟨hcts.1, by simp⟩⟩
  | _ => simp_all

theorem handleUpperMsg_outcome (frame : Ieee80211Frame) :
    Outcome (s.handleUpperMsg config draw frame) (Resting config)
      (fun fault ↦ fault = .messageTooLong ∨ fault = .unspecifiedReceiver) := by
  unfold handleUpperMsg
  apply Outcome.ite
  · intro _
    exact h
  intro _
  apply Outcome.ite
  · intro _
    exact .inl rfl
  intro _
  apply Outcome.ite
  · intro _
    exact .inr rfl
  intro _
  unfold handleWithFSM
  by_cases hstate : s.state = .idle
  · have hrests := h.rests
    simp only [Rests, hstate] at hrests
    have hquiet : s.Quiet := by
      intro timer hlocal
      have hrunning := h.running timer hlocal
      rw [hstate] at hrunning
      cases htimer : s.timers timer with
      | none => rfl
      | some time =>
        rw [htimer] at hrunning
        have hruns := hrunning.mp rfl
        cases timer <;> cases hruns
    have hvalid : (s.isInvalidBackoffPeriod || s.backoffPeriod == 0) = true := by
      rcases h.period with hperiod | hperiod
      · simp [isInvalidBackoffPeriod, hperiod]
      · simp [le_antisymm hrests.2 hperiod]
    have hnot : ¬ 0 < s.backoffPeriod := not_lt.mpr hrests.2
    simp only [note, hstate, Message.isUpper, bne_self_eq_false, Bool.and_false, Bool.false_eq_true,
      if_false, noteReception, ok_bind, eventTransition, idleEvent, hnot, decide_false, Bool.and_true]
    simp only [isInvalidBackoffPeriod] at hvalid
    simp only [isInvalidBackoffPeriod, if_true, hvalid, ok_bind]
    refine (settle_outcome ?_ (rank_lt _)).mono (fun _ hrest ↦ hrest) (by simp)
    refine ⟨⟨h.retry, .inl rfl, h.due, h.announced⟩, hquiet, ?_⟩
    intro hnil
    simp [moveTo, invalidateBackoffPeriod] at hnil
  · rw [if_pos (by simp [note, Message.isUpper, hstate])]
    exact h.push hstate _ _ _

theorem Resting.advance {input : Input} (harrives : s.Arrives input) :
    Resting config { s with now := input.time } :=
  ⟨⟨h.retry, h.period, harrives.2.1, h.announced⟩, h.running, h.rests, h.busy⟩

theorem Resting.ready (hmsg : ∀ timer : Timer, timer.isLocal → msg ≠ .self timer) :
    Ready config msg s := by
  refine ⟨h.toSound, ?_, ?_, h.rests, fun hdefer ↦ .inl (h.busy hdefer)⟩
  · intro timer hlocal
    rw [h.running timer hlocal]
    simp [hmsg timer hlocal]
  · intro timer hlocal hself
    exact absurd hself (hmsg timer hlocal)

theorem Resting.expire {timer : Timer} (hdue : s.timers timer = some s.now) :
    Ready config (.self timer) ((s.cancelEvent timer).note (.expired timer)) := by
  have hother : ∀ other, other ≠ timer → (s.cancelEvent timer).timers other = s.timers other :=
    fun other hne ↦ Function.update_of_ne hne _ _
  have hself : (s.cancelEvent timer).timers timer = none := Function.update_self _ _ _
  refine ⟨⟨h.retry, h.period, ?_, ?_⟩, ?_, ?_, ?_, ?_⟩
  · intro other time htime
    by_cases heq : other = timer
    · subst heq
      have htime : time ∈ (s.cancelEvent other).timers other := htime
      rw [hself] at htime
      cases htime
    · have htime : time ∈ (s.cancelEvent timer).timers other := htime
      rw [hother other heq] at htime
      exact h.due other time htime
  · intro time htime
    have htime : time ∈ (s.cancelEvent timer).timers .mediumStateChange := htime
    by_cases heq : Timer.mediumStateChange = timer
    · rw [heq, hself] at htime
      cases htime
    · rw [hother _ heq] at htime
      obtain ⟨limit, hlimit, hlt⟩ := h.announced time htime
      refine ⟨limit, ?_, hlt⟩
      -- the announced change is due before the reservation ends
      have hne : Timer.endReserve ≠ timer := by
        intro hend
        rw [hend, hdue, Option.mem_some_iff] at hlimit
        have hnow := h.due .mediumStateChange time htime
        linarith
      exact (hother _ hne) ▸ hlimit
  · intro other hlocal
    by_cases heq : other = timer
    · subst heq
      have hnone : (((s.cancelEvent other).note (.expired other)).timers other) = none := hself
      simp [hnone]
    · have hsame : (((s.cancelEvent timer).note (.expired timer)).timers other) = s.timers other :=
        hother other heq
      have hne : Message.self timer ≠ .self other := by
        intro hmsg
        cases hmsg
        exact heq rfl
      rw [hsame, h.running other hlocal]
      simp only [hne, ne_eq, not_false_eq_true, and_true]
      exact Iff.rfl
  · intro other hlocal hmsg
    cases hmsg
    have hruns := (h.running timer hlocal).mp (by simp [hdue])
    exact hruns
  · have hrests := h.rests
    unfold Rests at hrests ⊢
    cases hs : s.state with
    | backoff =>
      simp only [note, cancelEvent, hs] at hrests ⊢
      refine ⟨hrests.1, hrests.2.1, ?_⟩
      intro time htime
      by_cases heq : Timer.endBackoff = timer
      · rw [← heq, Function.update_self] at htime
        cases htime
      · rw [Function.update_of_ne heq] at htime
        exact hrests.2.2 time htime
    | receive => simp only [hs] at hrests
    | _ =>
      simp only [note, cancelEvent, hs] at hrests ⊢
      exact hrests
  · intro hdefer
    have hbusy := h.busy hdefer
    by_cases heq : Timer.endReserve = timer
    · subst heq
      by_cases hradio : s.radioState = .idle
      · exact .inr (.inl (by simp [isMediumStateChange, note, cancelEvent, hradio]))
      · exact .inl (by simp [isMediumFree, note, cancelEvent, hradio])
    · refine .inl ?_
      simpa [isMediumFree, note, cancelEvent, Function.update_of_ne heq] using hbusy

theorem Resting.changeRadioState (radioState : RadioState) :
    Ready config (.self .mediumStateChange) { s with radioState := radioState } := by
  have hlocal : ∀ timer : Timer, timer.isLocal → Message.self .mediumStateChange ≠ .self timer := by
    intro timer htimer hmsg
    cases hmsg
    cases htimer
  have hready := h.ready hlocal
  exact ⟨⟨h.retry, h.period, h.due, h.announced⟩, hready.running, hready.delivered, h.rests,
    fun _ ↦ .inr (.inl rfl)⟩

theorem Resting.handleCommand (command : PhyControlInfo) :
    Resting config (s.handleCommand command) := by
  unfold Mac.handleCommand
  dsimp only
  split
  · exact ⟨⟨h.retry, h.period, h.due, h.announced⟩, h.running, h.rests, h.busy⟩
  · exact ⟨⟨h.retry, h.period, h.due, h.announced⟩, h.running, h.rests, h.busy⟩

/-- A frame of another station with a negative duration arrives only while the medium is reserved. -/
def Reserves (config : Config) (s : Mac) (input : Input) : Prop :=
  match input.event with
  | .lower frame _ => isForUs config frame = true ∨ 0 ≤ frame.duration ∨ (s.timers .endReserve).isSome
  | _ => True

instance (config : Config) (s : Mac) (input : Input) : Decidable (s.Reserves config input) := by
  unfold Reserves
  split <;> infer_instance

theorem handleMessage_outcome {input : Input} (harrives : s.Arrives input) :
    Outcome (s.handleMessage config input) (Resting config)
      (fun fault ↦ fault.refusal = true ∨ fault = .reservePeriod ∧ ¬ s.Reserves config input) := by
  have hrest := h.advance harrives
  obtain ⟨time, event, draw⟩ := input
  unfold handleMessage handleEvent
  cases event with
  | upper frame =>
    apply (handleUpperMsg_outcome hrest frame).mono fun _ hnext ↦ hnext
    rintro fault (rfl | rfl)
    · exact .inl rfl
    · exact .inl rfl
  | lower frame kind =>
    unfold handleLowerMsg
    apply Outcome.ite
    · intro _
      exact .inl rfl
    · intro _
      apply (handleWithFSM_outcome (hrest.ready (by simp)) rfl).mono fun _ hnext ↦ hnext
      rintro fault ⟨hfault, frame', kind', hmsg, hother, hnegative, hnone⟩
      cases hmsg
      refine .inr ⟨hfault, ?_⟩
      rintro (hours | hpositive | hsome)
      · simp [hother] at hours
      · exact absurd hpositive (not_le.mpr hnegative)
      · have hnone : s.timers .endReserve = none := hnone
        simp [hnone] at hsome
  | radioStateChanged radioState =>
    apply (handleWithFSM_outcome (hrest.changeRadioState radioState) rfl).mono fun _ hnext ↦ hnext
    rintro fault ⟨-, frame, kind, hmsg, -⟩
    cases hmsg
  | command command => exact hrest.handleCommand command
  | timer timer =>
    have hdue := harrives.2.2 timer rfl
    apply (handleWithFSM_outcome (hrest.expire hdue) rfl).mono fun _ hnext ↦ hnext
    rintro fault ⟨-, frame, kind, hmsg, -⟩
    cases hmsg

end

theorem initialized_resting : Resting config initialized := by
  refine ⟨⟨config.transmissionLimit_pos, .inl rfl, ?_, ?_⟩, ?_, ?_, ?_⟩
  · intro timer time htime
    cases htime
  · intro time htime
    cases htime
  · intro timer _
    cases timer <;> simp [initialized, Timer.runsIn]
  · exact ⟨rfl, by norm_num [initialized]⟩
  · intro hdefer
    cases hdefer

/-! ## The state machine between two events -/

/-- The timers, the queue and the counter agree with the state in which the machine rests. -/
structure Consistent (config : Config) (s : Mac) : Prop where
  not_receive : s.state ≠ .receive
  endSIFS : (s.timers .endSIFS).isSome ↔ s.state = .waitSIFS
  endDIFS : (s.timers .endDIFS).isSome ↔ s.state = .waitDIFS
  endBackoff : (s.timers .endBackoff).isSome ↔ s.state = .backoff
  endTimeout : (s.timers .endTimeout).isSome ↔
    s.state = .waitACK ∨ s.state = .waitBroadcast ∨ s.state = .waitCTS
  queue_idle : s.state = .idle → s.transmissionQueue = []
  queue_waiting : s.state = .waitACK ∨ s.state = .waitBroadcast ∨ s.state = .waitCTS →
    s.transmissionQueue ≠ []
  retry : s.retryCounter < config.transmissionLimit
  defer_busy : s.state = .defer → s.isMediumFree = false

theorem Resting.consistent (h : Resting config s) : Consistent config s := by
  have hrests := h.rests
  refine ⟨?_, ?_, ?_, ?_, ?_, ?_, ?_, h.retry, h.busy⟩
  · intro hstate
    simp only [Rests, hstate] at hrests
  · rw [h.running .endSIFS rfl]
    cases s.state <;> simp [Timer.runsIn]
  · rw [h.running .endDIFS rfl]
    cases s.state <;> simp [Timer.runsIn]
  · rw [h.running .endBackoff rfl]
    cases s.state <;> simp [Timer.runsIn]
  · rw [h.running .endTimeout rfl]
    cases s.state <;> simp [Timer.runsIn]
  · intro hstate
    simp only [Rests, hstate] at hrests
    exact hrests.1
  · rintro (hstate | hstate | hstate) <;> simpa only [Rests, hstate] using hrests

/-- In every run in which no other station asks for a reservation of negative length, the machine is
consistent after every event, and no event leads to a fault other than the refusal of a message. -/
theorem state_machine_consistent (config : Config) {s : Mac}
    (h : Reachable (· = initialized) (fun s input ↦ s.Arrives input ∧ s.Reserves config input)
      (handleMessage config) s) :
    Consistent config s ∧ ∀ input fault, s.Arrives input → s.Reserves config input →
      handleMessage config s input = .error fault → fault.refusal = true := by
  have hstart : ∀ s, s = initialized → Resting config s := by
    intro s hs
    rw [hs]
    exact initialized_resting
  have hstep : ∀ (s : Mac) (input : Input), Resting config s → s.Arrives input ∧ s.Reserves config input →
      Outcome (handleMessage config s input) (Resting config) (fun fault ↦ fault.refusal = true) := by
    intro s input hs hinput
    apply (handleMessage_outcome hs hinput.1).mono fun _ hnext ↦ hnext
    rintro fault (hrefusal | ⟨-, hnegative⟩)
    · exact hrefusal
    · exact absurd hinput.2 hnegative
  obtain ⟨hrest, hnext⟩ := h.outcome hstart hstep
  refine ⟨hrest.consistent, ?_⟩
  intro input fault harrives hreserves hfault
  exact (hnext input ⟨harrives, hreserves⟩).of_eq_error hfault

/-- A station that always asks with an RTS, and its parameters' defaults. -/
def station : Config where
  address := 1
  fixFSM := true
  maxQueueSize := 14
  bitrate := 2000000
  rtsThreshold := 0
  transmissionLimit := 7
  cwMinData := 31
  cwMinBroadcast := 31
  bitrate_pos := by norm_num
  transmissionLimit_pos := by norm_num

/-- A data frame to station 2. -/
def dataFrame : Ieee80211Frame := ⟨.dataOrMgmt, 2, 1, -1, 800, false, 0⟩

/-- The RTS for the frame was sent and the CTS arrives. -/
def ctsReceived : List Input :=
  [⟨1, .upper dataFrame, 0⟩, ⟨1 + getDIFS, .timer .endDIFS, 0⟩,
    ⟨1 + 500 / 1000000, .lower ⟨.cts, 1, 0, 1, LENGTH_CTS, false, 0⟩ .good, 0⟩]

theorem cts_received_consistent : ∃ s, run (handleMessage station) initialized ctsReceived = .ok s ∧
    s.state = .waitSIFS ∧ (s.timers .endSIFS).isSome ∧ s.timers .endTimeout = none := by
  obtain ⟨s, hrun, hcheck⟩ := exists_ok (run (handleMessage station) initialized ctsReceived)
    (fun s ↦ s.state = .waitSIFS) (by decide +kernel)
  have hstate : s.state = .waitSIFS := hcheck
  have hreach : Reachable (· = initialized)
      (fun s input ↦ s.Arrives input ∧ s.Reserves station input) (handleMessage station) s :=
    Reachable.of_run (.start rfl) ctsReceived (by decide +kernel) hrun
  have hconsistent := (state_machine_consistent station hreach).1
  refine ⟨s, hrun, hstate, hconsistent.endSIFS.mpr hstate, ?_⟩
  have hnone : ¬ (s.timers .endTimeout).isSome := by
    rw [hconsistent.endTimeout, hstate]
    decide
  simpa using hnone

/-- A frame without a duration, which is overheard while the medium is not reserved. -/
theorem no_duration_fails : ∃ s input, Reachable (· = initialized) Arrives (handleMessage station) s ∧
    s.Arrives input ∧ handleMessage station s input = .error .reservePeriod ∧
    Fault.reservePeriod.refusal = false := by
  let overheard : Input := ⟨1, .lower ⟨.ack, 2, 0, -1, LENGTH_ACK, false, 0⟩ .good, 0⟩
  have hfault : (match handleMessage station initialized overheard with
      | .error fault => decide (fault = .reservePeriod)
      | .ok _ => false) = true := by decide +kernel
  refine ⟨initialized, overheard, .start rfl, by decide +kernel, ?_, rfl⟩
  cases hstep : handleMessage station initialized overheard with
  | error fault =>
    rw [hstep] at hfault
    rw [of_decide_eq_true hfault]
  | ok s =>
    rw [hstep] at hfault
    cases hfault

end Mac

end Ieee80211Mac

end InetManet
