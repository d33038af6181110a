import InetManet.Ieee80211.Mac
import Mathlib.Tactic.Positivity

/-!
# Entering the states of the 802.11 state machine

A transition that was taken for an event may be followed by further transitions. `Entering` says what
holds when a state is entered, `Resting` what holds when the machine has come to rest in it. A rank
that every further transition lowers bounds the number of transitions for one event.
-/

namespace InetManet

open TransitionSystem

namespace Ieee80211Mac

/-- The state in which a timer runs. -/
def Timer.runsIn : Timer → State → Bool
  | .endSIFS, .waitSIFS => true
  | .endDIFS, .waitDIFS => true
  | .endBackoff, .backoff => true
  | .endTimeout, .waitACK => true
  | .endTimeout, .waitBroadcast => true
  | .endTimeout, .waitCTS => true
  | _, _ => false

/-- The timers that belong to a state. -/
def Timer.isLocal : Timer → Bool
  | .endReserve => false
  | .mediumStateChange => false
  | _ => true

namespace Mac

variable {config : Config} {msg : Message} {s : Mac} {draw : ℕ}

/-! ## Invariants -/

/-- What holds in every state. A medium state change that is announced comes before the end of the
reservation that it announces. -/
structure Sound (config : Config) (s : Mac) : Prop where
  retry : s.retryCounter < config.transmissionLimit
  period : s.backoffPeriod = -1 ∨ 0 ≤ s.backoffPeriod
  due : ∀ timer, ∀ time ∈ s.timers timer, s.now ≤ time
  announced : ∀ time ∈ s.timers .mediumStateChange, ∃ limit ∈ s.timers .endReserve, time < limit

/-- No timer of a state runs. -/
def Quiet (s : Mac) : Prop := ∀ timer : Timer, timer.isLocal → s.timers timer = none

/-- The frame is answered after a SIFS. -/
def Answerable (s : Mac) (frame : Ieee80211Frame) : Prop :=
  frame.type = .rts ∨ frame.type = .dataOrMgmt ∨ frame.type = .cts ∧ s.transmissionQueue ≠ []

/-- What the variables satisfy when the state is entered. -/
def Enters (msg : Message) (s : Mac) : Prop :=
  match s.state with
  | .idle => 0 < s.backoffPeriod → s.transmissionQueue ≠ [] ∧ s.backoff = true
  | .defer => s.transmissionQueue = [] → s.backoff = true
  | .waitDIFS => s.transmissionQueue = [] → s.backoff = true
  | .backoff => s.backoff = true ∧ 0 ≤ s.backoffPeriod
  | .waitACK => s.transmissionQueue ≠ []
  | .waitBroadcast => s.transmissionQueue ≠ []
  | .waitCTS => s.transmissionQueue ≠ []
  | .waitSIFS => ∃ frame kind, msg = .lower frame kind ∧ s.Answerable frame
  | .receive => msg.isLower = true

structure Entering (config : Config) (msg : Message) (s : Mac) : Prop extends Sound config s where
  quiet : s.Quiet
  enters : s.Enters msg

/-- What the variables satisfy when the machine rests. -/
def Rests (s : Mac) : Prop :=
  match s.state with
  | .idle => s.transmissionQueue = [] ∧ s.backoffPeriod ≤ 0
  | .defer => s.backoff = true
  | .waitDIFS => s.transmissionQueue = [] → s.backoff = true
  | .backoff => s.backoff = true ∧ 0 ≤ s.backoffPeriod ∧
      ∀ time ∈ s.timers .endBackoff, time = s.backoffSince + s.backoffPeriod
  | .waitACK => s.transmissionQueue ≠ []
  | .waitBroadcast => s.transmissionQueue ≠ []
  | .waitCTS => s.transmissionQueue ≠ []
  | .waitSIFS => ∃ frame, s.frameReceivedBeforeSIFS = some frame ∧ s.Answerable frame
  | .receive => False

structure Resting (config : Config) (s : Mac) : Prop extends Sound config s where
  running : ∀ timer : Timer, timer.isLocal → ((s.timers timer).isSome ↔ timer.runsIn s.state)
  rests : s.Rests
  busy : s.state = .defer → s.isMediumFree = false

/-- The machine rests, except for the timer that `msg` delivers and the change that it announces. -/
structure Ready (config : Config) (msg : Message) (s : Mac) : Prop extends Sound config s where
  running : ∀ timer : Timer, timer.isLocal →
    ((s.timers timer).isSome ↔ timer.runsIn s.state ∧ msg ≠ .self timer)
  delivered : ∀ timer : Timer, timer.isLocal → msg = .self timer → timer.runsIn s.state
  rests : s.Rests
  busy : s.state = .defer → s.isMediumFree = false ∨ s.isMediumStateChange msg = true ∨
    msg.isLower = true

/-- A bound on the transitions without event. -/
def rank (s : Mac) : ℕ :=
  match s.state with
  | .receive => 4
  | .idle => 3
  | .defer => if s.isMediumFree || !s.backoff then 2 else 0
  | .waitDIFS => if s.isMediumFree then 0 else 1
  | _ => 0

theorem rank_defer_lt (hstate : s.state = .defer) : s.rank < 3 := by
  simp only [rank, hstate]
  split <;> omega

theorem rank_waitDIFS_lt (hstate : s.state = .waitDIFS) : s.rank < 2 := by
  simp only [rank, hstate]
  split <;> omega

theorem rank_defer_busy (hstate : s.state = .defer) (hbusy : s.isMediumFree = false)
    (hbackoff : s.backoff = true) : s.rank = 0 := by
  simp [rank, hstate, hbusy, hbackoff]

/-! ## Timers -/

theorem scheduleAt_eq {time : ℚ} {timer : Timer} (hnone : s.timers timer = none)
    (htime : s.now ≤ time) :
    s.scheduleAt time timer = .ok { s with timers := Function.update s.timers timer (some time) } := by
  rw [scheduleAt, hnone, if_neg (by simp), if_neg (not_lt.mpr htime)]

theorem Sound.setTimer (h : Sound config s) (timer : Timer) (hlocal : timer.isLocal) {time : Option ℚ}
    (htime : ∀ t ∈ time, s.now ≤ t) :
    Sound config { s with timers := Function.update s.timers timer time } := by
  have hsame : ∀ other : Timer, other.isLocal = false →
      Function.update s.timers timer time other = s.timers other := by
    intro other hother
    apply Function.update_of_ne
    intro heq
    rw [heq, hlocal] at hother
    cases hother
  refine ⟨h.retry, h.period, ?_, ?_⟩
  · intro other t ht
    by_cases heq : other = timer
    · subst heq
      simp only [Function.update_self] at ht
      exact htime t ht
    · simp only [Function.update_of_ne heq] at ht
      exact h.due other t ht
  · intro t ht
    simp only [hsame _ (rfl : Timer.mediumStateChange.isLocal = false),
      hsame _ (rfl : Timer.endReserve.isLocal = false)] at ht ⊢
    exact h.announced t ht

theorem Sound.cancel (h : Sound config s) (timer : Timer) (hlocal : timer.isLocal) :
    Sound config (s.cancelEvent timer) :=
  h.setTimer timer hlocal (by simp)

/-- A timer that is started when a state is entered is the only one of a state that runs. -/
theorem Quiet.running (h : s.Quiet) {timer : Timer} {time : ℚ} {state : State}
    (honly : ∀ other : Timer, other.isLocal → (other.runsIn state ↔ other = timer)) :
    ∀ other : Timer, other.isLocal →
      ((Function.update s.timers timer (some time) other).isSome ↔ other.runsIn state) := by
  intro other hother
  rw [honly other hother]
  by_cases heq : other = timer
  · subst heq
    simp
  · simp [h other hother, heq]

theorem Ready.quiet (h : Ready config msg s)
    (hrun : ∀ timer : Timer, timer.isLocal → timer.runsIn s.state → msg = .self timer) : s.Quiet := by
  intro timer hlocal
  have hnone : ¬ (s.timers timer).isSome := by
    rw [h.running timer hlocal]
    rintro ⟨hruns, hne⟩
    exact hne (hrun timer hlocal hruns)
  simpa using hnone

theorem Ready.quiet_cancel (h : Ready config msg s) {timer : Timer}
    (hrun : ∀ other : Timer, other.isLocal → other.runsIn s.state → other = timer) :
    (s.cancelEvent timer).Quiet := by
  intro other hlocal
  by_cases heq : other = timer
  · subst heq
    simp [cancelEvent]
  · have hnone : ¬ (s.timers other).isSome := by
      rw [h.running other hlocal]
      rintro ⟨hruns, -⟩
      exact heq (hrun other hlocal hruns)
    simpa [cancelEvent, Function.update_of_ne heq] using hnone

theorem Ready.resting (h : Ready config msg s) (hno : ∀ timer : Timer, timer.isLocal → msg ≠ .self timer)
    (hbusy : s.state = .defer → s.isMediumFree = false) : Resting config s := by
  refine ⟨h.toSound, ?_, h.rests, hbusy⟩
  intro timer hlocal
  rw [h.running timer hlocal]
  simp [hno timer hlocal]

/-! ## Entering a state -/

theorem sendDownPendingRadioConfigMsg_eq (s : Mac) :
    ∃ pending log, s.sendDownPendingRadioConfigMsg =
      { s with pendingRadioConfigMsg := pending, log := log } := by
  unfold sendDownPendingRadioConfigMsg
  cases hpending : s.pendingRadioConfigMsg with
  | none => exact ⟨s.pendingRadioConfigMsg, s.log, rfl⟩
  | some command => exact ⟨none, _, rfl⟩

/-- The result of one round of the loop: a further state is entered, or the machine rests. -/
def Entered (config : Config) (msg : Message) (rank : ℕ) (next : Mac × Bool) : Prop :=
  if next.2 then Entering config msg next.1 ∧ next.1.rank < rank else Resting config next.1

theorem enterIdle_outcome (h : Entering config msg s) (hstate : s.state = .idle) :
    Outcome (s.enterIdle config) (Entered config msg s.rank) (fun _ ↦ False) := by
  have henters := h.enters
  have hrank : s.rank = 3 := by simp [rank, hstate]
  simp only [Enters, hstate] at henters
  obtain ⟨pending, log, hs⟩ := s.sendDownPendingRadioConfigMsg_eq
  simp only [enterIdle, hs, hrank]
  apply Outcome.ite
  · intro hcond
    simp only [Bool.and_eq_true, decide_eq_true_eq] at hcond
    obtain ⟨hne, hbackoff⟩ := henters hcond.2
    rw [if_pos hbackoff]
    exact ⟨⟨⟨h.retry, h.period, h.due, h.announced⟩, h.quiet, fun _ ↦ hbackoff⟩, rank_defer_lt rfl⟩
  · intro hcond
    apply Outcome.ite
    · intro hne
      have hqueue : s.transmissionQueue ≠ [] := by simpa using hne
      refine ⟨⟨⟨h.retry, .inl rfl, h.due, h.announced⟩, h.quiet, fun hnil ↦ ?_⟩, rank_defer_lt rfl⟩
      exact absurd hnil hqueue
    · intro hempty
      have hqueue : s.transmissionQueue = [] := by simpa using hempty
      have hperiod : s.backoffPeriod ≤ 0 := by
        by_contra hpos
        exact (henters (not_le.mp hpos)).1 hqueue
      refine ⟨⟨h.retry, h.period, h.due, h.announced⟩, ?_, ?_, ?_⟩
      · intro timer hlocal
        have hnone := h.quiet timer hlocal
        cases timer <;> simp_all [Timer.runsIn]
      · simp only [Rests, hstate]
        exact ⟨hqueue, hperiod⟩
      · intro hdeferred
        simp only [hstate] at hdeferred
        cases hdeferred

theorem enterDefer_entered (h : Entering config msg s) (hstate : s.state = .defer) :
    Entered config msg s.rank s.enterDefer := by
  have henters := h.enters
  simp only [Enters, hstate] at henters
  obtain ⟨pending, log, hs⟩ := s.sendDownPendingRadioConfigMsg_eq
  have hfree : ({ s with pendingRadioConfigMsg := pending, log := log } : Mac).isMediumFree =
      s.isMediumFree := rfl
  simp only [enterDefer, hs, hfree]
  by_cases hcond : (s.isMediumFree || !s.backoff) = true
  · rw [if_pos hcond]
    refine ⟨⟨⟨h.retry, h.period, h.due, h.announced⟩, h.quiet, henters⟩, ?_⟩
    have hrank : s.rank = 2 := by simp only [rank, hstate, if_pos hcond]
    rw [hrank]
    exact rank_waitDIFS_lt rfl
  · rw [if_neg hcond]
    have hcond : s.isMediumFree = false ∧ s.backoff = true := by simpa using hcond
    refine ⟨⟨h.retry, h.period, h.due, h.announced⟩, ?_, ?_, fun _ ↦ hcond.1⟩
    · intro timer hlocal
      have hnone := h.quiet timer hlocal
      cases timer <;> simp_all [Timer.runsIn]
    · simp only [Rests, hstate]
      exact hcond.2

theorem getDIFS_nonneg : 0 ≤ (if s.lastReceiveFailed then getEIFS else getDIFS) := by
  split
  · norm_num [getEIFS, getDIFS, SIFS, ST, LENGTH_ACK, PHY_HEADER_LENGTH]
  · norm_num [getDIFS, SIFS, ST]

theorem enterWaitDIFS_outcome (h : Entering config msg s) (hstate : s.state = .waitDIFS) :
    Outcome s.enterWaitDIFS (Entered config msg s.rank) (fun _ ↦ False) := by
  have henters := h.enters
  simp only [Enters, hstate] at henters
  have hnonneg := getDIFS_nonneg (s := s)
  rw [enterWaitDIFS, scheduleDIFSPeriod]
  generalize (if s.lastReceiveFailed then getEIFS else getDIFS) = period at hnonneg ⊢
  have htime : s.now ≤ s.now + period := le_add_of_nonneg_right hnonneg
  have hsound : Sound config { s with timers := Function.update s.timers .endDIFS (some (s.now + period)) } :=
    h.toSound.setTimer .endDIFS rfl (by simpa using hnonneg)
  rw [scheduleAt_eq (h.quiet .endDIFS rfl) htime, ok_bind]
  have hfree : isMediumFree { s with timers := Function.update s.timers .endDIFS (some (s.now + period)) } =
      s.isMediumFree := rfl
  rw [hfree]
  apply Outcome.ite
  · intro hbusy
    have hnot : s.isMediumFree = false := by simpa using hbusy
    have hrank : s.rank = 1 := by simp [rank, hstate, hnot]
    rw [hrank]
    refine ⟨⟨?_, ?_, fun _ ↦ rfl⟩, ?_⟩
    · have hcancel := hsound.cancel .endDIFS rfl
      exact ⟨hcancel.retry, hcancel.period, hcancel.due, hcancel.announced⟩
    · intro timer hlocal
      by_cases heq : timer = .endDIFS
      · simp [cancelEvent, moveTo, heq]
      · simp [cancelEvent, moveTo, heq, h.quiet timer hlocal]
    · apply lt_of_eq_of_lt (rank_defer_busy rfl ?_ rfl) Nat.one_pos
      exact hnot
  · intro hbusy
    refine ⟨hsound, ?_, ?_, ?_⟩
    · apply h.quiet.running
      intro other hlocal
      simp only [hstate]
      cases other <;> simp_all [Timer.runsIn, Timer.isLocal]
    · simp only [Rests, hstate]
      exact henters
    · intro hdefer
      simp only [hstate] at hdefer
      cases hdefer

theorem Entering.scheduled (h : Entering config msg s) {timer : Timer} {time : ℚ}
    (hlocal : timer.isLocal) (htime : s.now ≤ time)
    (honly : ∀ other : Timer, other.isLocal → (other.runsIn s.state ↔ other = timer))
    (hrests : Rests { s with timers := Function.update s.timers timer (some time) }) {rank : ℕ} :
    Outcome (stay <$> s.scheduleAt time timer) (Entered config msg rank) (fun _ ↦ False) := by
  rw [scheduleAt_eq (h.quiet timer hlocal) htime]
  refine ⟨h.toSound.setTimer timer hlocal (by simpa using htime), h.quiet.running honly, hrests, ?_⟩
  intro hdefer
  have hruns : timer.runsIn s.state := (honly timer hlocal).mpr rfl
  have hdefer : s.state = .defer := hdefer
  rw [hdefer] at hruns
  cases timer <;> cases hruns

theorem computeFrameDuration_nonneg (bits : ℕ) {bitrate : ℚ} (hbitrate : 0 < bitrate) :
    0 ≤ computeFrameDuration bits bitrate := by
  have hheader : (0 : ℚ) < BITRATE_HEADER := by norm_num [BITRATE_HEADER]
  unfold computeFrameDuration
  positivity

section

variable (h : Entering config msg s)

include h

theorem enterBackoff_outcome (hstate : s.state = .backoff) :
    Outcome (stay <$> s.scheduleBackoffPeriod) (Entered config msg s.rank) (fun _ ↦ False) := by
  have henters := h.enters
  simp only [Enters, hstate] at henters
  have hentering : Entering config msg { s with backoffSince := s.now } := by
    refine ⟨⟨h.retry, h.period, h.due, h.announced⟩, h.quiet, ?_⟩
    simp only [Enters, hstate]
    exact henters
  apply hentering.scheduled rfl
  · exact le_add_of_nonneg_right henters.2
  · intro other hlocal
    simp only [hstate]
    cases other <;> simp_all [Timer.runsIn, Timer.isLocal]
  · simp only [Rests, hstate]
    refine ⟨henters.1, henters.2, ?_⟩
    simp

/-- The states that wait for the end of a transmission run the timeout. -/
theorem Entering.timeout {time : ℚ} (htime : s.now ≤ time)
    (hstate : s.state = .waitACK ∨ s.state = .waitBroadcast ∨ s.state = .waitCTS) {rank : ℕ} :
    Outcome (stay <$> s.scheduleAt time .endTimeout) (Entered config msg rank) (fun _ ↦ False) := by
  have henters := h.enters
  apply h.scheduled rfl htime
  · intro other hlocal
    rcases hstate with hstate | hstate | hstate <;>
      · rw [hstate]
        cases other <;> simp_all [Timer.runsIn, Timer.isLocal]
  · rcases hstate with hstate | hstate | hstate <;>
      · simp only [Enters, hstate] at henters
        simpa only [Rests, hstate] using henters

theorem enterWaitACK_outcome (hstate : s.state = .waitACK) :
    Outcome (stay <$> s.scheduleDataTimeoutPeriod config) (Entered config msg s.rank) (fun _ ↦ False) := by
  have henters := h.enters
  simp only [Enters, hstate] at henters
  unfold scheduleDataTimeoutPeriod
  cases hqueue : s.transmissionQueue with
  | nil => exact absurd hqueue henters
  | cons frame rest =>
    apply h.timeout _ (.inl hstate)
    have hframe := computeFrameDuration_nonneg frame.bitLength config.bitrate_pos
    have hbasic : 0 < basicBitrate := by norm_num [basicBitrate]
    have hack := computeFrameDuration_nonneg LENGTH_ACK hbasic
    have hsifs : 0 ≤ SIFS := by norm_num [SIFS]
    have hdelay : 0 ≤ MAX_PROPAGATION_DELAY := by norm_num [MAX_PROPAGATION_DELAY]
    linarith

theorem enterWaitBroadcast_outcome (hstate : s.state = .waitBroadcast) :
    Outcome (stay <$> s.scheduleBroadcastTimeoutPeriod config) (Entered config msg s.rank)
      (fun _ ↦ False) := by
  have henters := h.enters
  simp only [Enters, hstate] at henters
  unfold scheduleBroadcastTimeoutPeriod
  cases hqueue : s.transmissionQueue with
  | nil => exact absurd hqueue henters
  | cons frame rest =>
    apply h.timeout _ (.inr (.inl hstate))
    have hframe := computeFrameDuration_nonneg frame.bitLength config.bitrate_pos
    linarith

theorem enterWaitCTS_outcome (hstate : s.state = .waitCTS) :
    Outcome (stay <$> s.scheduleCTSTimeoutPeriod) (Entered config msg s.rank) (fun _ ↦ False) := by
  apply h.timeout _ (.inr (.inr hstate))
  have hbasic : 0 < basicBitrate := by norm_num [basicBitrate]
  have hrts := computeFrameDuration_nonneg LENGTH_RTS hbasic
  have hcts := computeFrameDuration_nonneg LENGTH_CTS hbasic
  have hsifs : 0 ≤ SIFS := by norm_num [SIFS]
  have hdelay : 0 ≤ MAX_PROPAGATION_DELAY := by norm_num [MAX_PROPAGATION_DELAY]
  linarith

theorem enterWaitSIFS_outcome (hstate : s.state = .waitSIFS) :
    Outcome (stay <$> s.scheduleSIFSPeriod msg) (Entered config msg s.rank) (fun _ ↦ False) := by
  have henters := h.enters
  simp only [Enters, hstate] at henters
  obtain ⟨frame, kind, rfl, hanswer⟩ := henters
  have hentering : Entering config (.lower frame kind) { s with frameReceivedBeforeSIFS := some frame } := by
    refine ⟨⟨h.retry, h.period, h.due, h.announced⟩, h.quiet, ?_⟩
    simp only [Enters, hstate]
    exact ⟨frame, kind, rfl, hanswer⟩
  apply hentering.scheduled rfl
  · have hsifs : 0 ≤ SIFS := by norm_num [SIFS]
    exact le_add_of_nonneg_right hsifs
  · intro other hlocal
    simp only [hstate]
    cases other <;> simp_all [Timer.runsIn, Timer.isLocal]
  · simp only [Rests, hstate]
    exact ⟨frame, rfl, hanswer⟩

end

theorem entering_endReception (h : Sound config s) (hquiet : s.Quiet) :
    Entering config msg ((s.endReception config).moveTo .idle) := by
  have hreset : Entering config msg (s.resetStateVariables.moveTo .idle) := by
    refine ⟨⟨config.transmissionLimit_pos, .inr (le_refl 0), h.due, h.announced⟩, hquiet, ?_⟩
    intro hpos
    exact absurd hpos (lt_irrefl 0)
  unfold endReception
  split
  · unfold finishReception
    split
    · rename_i hne
      refine ⟨⟨h.retry, h.period, h.due, h.announced⟩, hquiet, ?_⟩
      intro _
      have hqueue : s.transmissionQueue ≠ [] := by simpa using hne
      exact ⟨hqueue, rfl⟩
    · refine ⟨⟨config.transmissionLimit_pos, .inr (le_refl 0), h.due, h.announced⟩, hquiet, ?_⟩
      intro hpos
      exact absurd hpos (lt_irrefl 0)
  · exact hreset

theorem enterReceive_entered (h : Entering config msg s) (hstate : s.state = .receive) :
    Entered config msg s.rank (s.enterReceive config msg) := by
  have henters := h.enters
  simp only [Enters, hstate] at henters
  have hrank : s.rank = 4 := by simp [rank, hstate]
  cases msg with
  | upper frame => cases henters
  | self timer => cases henters
  | lower frame kind =>
    rw [hrank]
    have hidle : Entered config (.lower frame kind) 4 ((s.endReception config).moveTo .idle, true) :=
      ⟨entering_endReception h.toSound h.quiet, by simp [rank, moveTo]⟩
    simp only [enterReceive]
    split
    · exact hidle
    split
    · refine ⟨entering_endReception ?_ h.quiet, by simp [rank, moveTo]⟩
      exact ⟨h.retry, h.period, h.due, h.announced⟩
    split
    · rename_i hdata
      refine ⟨⟨⟨h.retry, h.period, h.due, h.announced⟩, h.quiet, ?_⟩, by simp [rank, moveTo]⟩
      simp only [isDataOrMgmtFrame, Bool.and_eq_true, beq_iff_eq] at hdata
      exact ⟨frame, kind, rfl, .inr (.inl hdata.2)⟩
    split
    · rename_i hrts
      refine ⟨⟨⟨h.retry, h.period, h.due, h.announced⟩, h.quiet, ?_⟩, by simp [rank, moveTo]⟩
      simp only [Bool.and_eq_true, beq_iff_eq] at hrts
      exact ⟨frame, kind, rfl, .inl hrts.2⟩
    · exact hidle

theorem enterState_outcome (h : Entering config msg s) :
    Outcome (s.enterState config msg) (Entered config msg s.rank) (fun _ ↦ False) := by
  unfold enterState
  cases hstate : s.state with
  | idle => exact enterIdle_outcome h hstate
  | defer => exact enterDefer_entered h hstate
  | waitDIFS => exact enterWaitDIFS_outcome h hstate
  | backoff => exact enterBackoff_outcome h hstate
  | waitACK => exact enterWaitACK_outcome h hstate
  | waitBroadcast => exact enterWaitBroadcast_outcome h hstate
  | waitCTS => exact enterWaitCTS_outcome h hstate
  | waitSIFS => exact enterWaitSIFS_outcome h hstate
  | receive => exact enterReceive_entered h hstate

theorem settle_outcome (h : Entering config msg s) {steps : ℕ} (hsteps : s.rank < steps) :
    Outcome (s.settle config msg steps) (Resting config) (fun _ ↦ False) := by
  induction steps generalizing s with
  | zero => exact absurd hsteps (Nat.not_lt_zero _)
  | succ steps ih =>
    rw [settle]
    apply Outcome.bind (enterState_outcome h)
    intro next hnext
    rw [Entered] at hnext
    split at hnext
    · rename_i hmoved
      rw [if_pos hmoved]
      exact ih hnext.1 (by omega)
    · rename_i hstays
      rw [if_neg hstays]
      exact hnext

end Mac

end Ieee80211Mac

end InetManet
