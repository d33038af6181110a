import InetManet.TCP.SendFrame

/-!
# State transitions

What `performStateTransition` can do to a connection: nothing, or the FSM state changes and
entering the new state cancels timers. The last section has the connection setup that the concrete
runs of the other modules start from.
-/

namespace InetManet.TCP

open TransitionSystem

/-- A fault of a state transition. -/
def Fault.OfTransition (e : Fault) : Prop :=
  e = .nullPointer ∨ e = .assertion .performStateTransition ∨ e = .assertion .stateEntered

theorem Fault.OfTransition.ofSending {e : Fault} (h : e.OfTransition) : e.OfSending := by
  rcases h with rfl | rfl | rfl
  · exact TCPConnection.ofSending_nullPointer
  · exact TCPConnection.ofSending_assertion nofun
  · exact TCPConnection.ofSending_assertion nofun

namespace TCPConnection

/-! ## Entering a state -/

/-- The states in which the connection is being set up. -/
def InSetup (s : TcpState) : Prop := s = .synSent ∨ s = .synRcvd

/-- CONN-ESTAB or SYN-REXMIT is scheduled. -/
def HasSetupTimer (c : TCPConnection) : Prop := .connEstab ∈ c.timers ∨ .synRexmit ∈ c.timers

/-- The connection without its timers. -/
def sansTimers (c : TCPConnection) : TCPConnection := { c with timers := [], setupTimers := true }

/-- Entering the state of `c` cancels timers and does nothing else. -/
structure Entered (c c' : TCPConnection) : Prop where
  rest : c'.sansTimers = c.sansTimers
  timers : ∀ t ∈ c'.timers, t ∈ c.timers
  setup : c.fsm ≠ .init → ¬ InSetup c.fsm → ¬ c'.HasSetupTimer
  closed : c.fsm = .closed → .the2MSL ∉ c'.timers

namespace Entered

variable {c c' : TCPConnection}

theorem fsm (h : Entered c c') : c'.fsm = c.fsm := congrArg (·.fsm) h.rest
theorem log (h : Entered c c') : c'.log = c.log := congrArg (·.log) h.rest
theorem finAckRcvd (h : Entered c c') : c'.finAckRcvd = c.finAckRcvd :=
  congrArg (·.finAckRcvd) h.rest

end Entered

section Transitions

variable (c : TCPConnection)

@[simp] theorem cancelEvent_sansTimers (t : Timer) : (c.cancelEvent t).sansTimers = c.sansTimers :=
  rfl

theorem entered_refl (h : c.fsm = .init ∨ InSetup c.fsm) : Entered c c := by
  refine ⟨rfl, fun _ ht ↦ ht, fun hi hs ↦ ?_, fun hc ↦ ?_⟩
  · exact absurd h (not_or.mpr ⟨hi, hs⟩)
  · rcases h with h | h | h <;> rw [h] at hc <;> cases hc

theorem entered_cancel (h : c.fsm ≠ .closed) :
    Entered c ((c.cancelEvent .connEstab).cancelEvent .synRexmit) := by
  refine ⟨by simp only [cancelEvent_sansTimers], fun t ht ↦ ?_, fun _ _ ↦ ?_, fun hc ↦ absurd hc h⟩
  · simp only [mem_cancelEvent] at ht
    exact ht.1.1
  · simp [HasSetupTimer, mem_cancelEvent]

theorem cancelSetupTimers_outcome :
    Outcome c.cancelSetupTimers (· = (c.cancelEvent .connEstab).cancelEvent .synRexmit)
      Fault.OfTransition :=
  Outcome.ite (fun _ ↦ rfl) fun _ ↦ .inl rfl

theorem connectionClosed_timers {t : Timer} (h : t ∈ c.connectionClosed.timers) : t ∈ c.timers := by
  unfold connectionClosed at h
  split at h <;> simp only [mem_cancelEvent] at h
  · exact h.1
  · exact h.1.1.1.1

@[simp] theorem connectionClosed_sansTimers : c.connectionClosed.sansTimers = c.sansTimers := by
  unfold connectionClosed
  split <;> simp only [cancelEvent_sansTimers]

theorem stateEntered_outcome : Outcome c.stateEntered (Entered c) Fault.OfTransition := by
  unfold stateEntered
  split <;> rename_i hs
  · exact c.entered_refl (.inl hs)
  · exact c.entered_refl (.inr (.inr hs))
  · exact c.entered_refl (.inr (.inl hs))
  · refine Outcome.check_bind (.inr (.inr rfl)) (c.cancelSetupTimers_outcome.post ?_)
    rintro c' rfl
    exact c.entered_cancel (by simp [hs])
  · refine c.cancelSetupTimers_outcome.bind ?_
    rintro c' rfl
    have h := c.entered_cancel (by simp [hs])
    exact ⟨h.rest, h.timers, h.setup, h.closed⟩
  all_goals try exact c.entered_cancel (by simp [hs])
  refine ⟨by simp only [connectionClosed_sansTimers, cancelEvent_sansTimers], fun t ht ↦ ?_,
    fun _ _ ↦ ?_, fun _ ht ↦ ?_⟩
  · have := connectionClosed_timers _ ht
    simp only [mem_cancelEvent] at this
    exact this.1.1.1.1
  · rintro (ht | ht)
    all_goals
      have := connectionClosed_timers _ ht
      simp [mem_cancelEvent] at this
  · have := connectionClosed_timers _ ht
    simp [mem_cancelEvent] at this

theorem nextState_ignore (active : Bool) (s : TcpState) : nextState active s .ignore = s := by
  cases s <;> rfl

/-- What `performStateTransition` does: nothing, or the state changes and is entered. -/
theorem performStateTransition_outcome (event : TCPEventCode) :
    Outcome (c.performStateTransition event)
      (fun c' ↦ let s := nextState c.active c.fsm event
        (s = c.fsm ∧ c' = c) ∨ (s ≠ c.fsm ∧ Entered (c.goto s) c'))
      Fault.OfTransition := by
  refine Outcome.check_bind (.inr (.inl rfl)) (Outcome.ite (fun he ↦ ?_) fun _ ↦
    Outcome.ite (fun hs ↦ ?_) fun hs ↦ ?_)
  · exact .inl ⟨by rw [he, nextState_ignore], rfl⟩
  · exact .inl ⟨hs, rfl⟩
  · exact (stateEntered_outcome _).post fun c' h ↦ .inr ⟨hs, h⟩

end Transitions

/-! ## A connection being set up -/

/-- A segment from port 80 of host 2 to port 1000 of host 1. -/
def fromPeer (seg : TCPSegment) : Event :=
  .segment { seg with srcPort := 80, destPort := 1000 } 2 1 0

/-- An active open with initial sequence number 100, answered by a SYN+ACK with sequence number
500 and window `window`. -/
def establish (window : ℕ) : List Event :=
  [.openActive 1 2 1000 80 0 100,
    fromPeer { sequenceNo := 500, ackNo := 101, synBit := true, ackBit := true, window }]

/-- A connection as the handshake leaves it. -/
def established (iss irs : Seq) : TCPConnection :=
  { fsm := .established, iss, irs, sndUna := iss + 1, sndNxt := iss + 1, sndMax := iss + 1,
    sndMss := 4, sndWnd := 100, sndCwnd := 100, rcvNxt := irs + 1, rcvWnd := 100,
    sendQueue := .init (iss + 1), receiveQueue := ⟨irs + 1, []⟩, setupTimers := false }

theorem isNew_default : IsNew {} := rfl

end TCPConnection

end InetManet.TCP
