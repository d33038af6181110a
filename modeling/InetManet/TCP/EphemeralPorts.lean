import InetManet.Library.RoundRobin
import InetManet.TCP.Module

/-!
# The search for an ephemeral port

The search begins behind the port that was given out last and goes once around the range, which ends with
that port. So it finds a free port if there is one, and gives up only when every port of the range is used.
-/

namespace InetManet.TCP

open TransitionSystem

namespace TCPModule

/-- The loop stops at last, with this outcome. -/
inductive Stops (used : Multiset ℤ) (searchUntil : ℤ) : ℤ → Except ModuleFault ℤ → Prop
  | free {port : ℤ} : port ∉ used → Stops used searchUntil port (.ok port)
  | exhausted : searchUntil ∈ used → Stops used searchUntil searchUntil (.error .portRangeExhausted)
  | next {port : ℤ} {r : Except ModuleFault ℤ} : port ∈ used → port ≠ searchUntil →
      Stops used searchUntil (nextPort port) r → Stops used searchUntil port r

/-- The number of ports. -/
def rangeSize : ℕ := (ephemeralPortrangeEnd - ephemeralPortrangeStart).toNat

/-- The place of a port in the range. -/
def place (port : ℤ) : ℕ := (port - ephemeralPortrangeStart).toNat

section

variable {used : Multiset ℤ} {port last : ℤ} {rounds : ℕ}

theorem isEphemeral_iff :
    isEphemeral port = true ↔ ephemeralPortrangeStart ≤ port ∧ port < ephemeralPortrangeEnd := by
  rw [isEphemeral, Bool.and_eq_true, decide_eq_true_eq, decide_eq_true_eq]

section

variable (h : isEphemeral port = true)

include h

theorem place_lt : place port < rangeSize := by
  rw [isEphemeral_iff] at h
  unfold place rangeSize
  omega

theorem place_inj {port' : ℤ} (h' : isEphemeral port' = true)
    (heq : place port = place port') : port = port' := by
  rw [isEphemeral_iff] at h h'
  unfold place at heq
  omega

theorem isEphemeral_nextPort : isEphemeral (nextPort port) = true := by
  rw [isEphemeral_iff] at h ⊢
  unfold nextPort
  have hrange : ephemeralPortrangeStart < ephemeralPortrangeEnd := by decide
  split_ifs with hend
  · exact ⟨le_rfl, hrange⟩
  · omega

theorem place_nextPort :
    place (nextPort port) = RoundRobin.next rangeSize (place port) := by
  rw [isEphemeral_iff] at h
  unfold nextPort RoundRobin.next place rangeSize
  split_ifs <;> omega

end

/-- From a port of the range up to `last`: a free port is found, or there is none on the way. -/
theorem portLoop_stops (used : Multiset ℤ) (hlast : isEphemeral last = true) (hport : isEphemeral port = true)
    (hrounds : RoundRobin.steps rangeSize (place port) (place last) < rounds) :
    Stops used last port (portLoop used last rounds port) ∧
      ((∃ p, isEphemeral p = true ∧ p ∉ used ∧ portLoop used last rounds port = .ok p) ∨
        portLoop used last rounds port = .error .portRangeExhausted ∧
          ∀ q, isEphemeral q = true → RoundRobin.steps rangeSize (place port) (place q) ≤
            RoundRobin.steps rangeSize (place port) (place last) → q ∈ used) := by
  induction rounds generalizing port with
  | zero => exact absurd hrounds (Nat.not_lt_zero _)
  | succ rounds ih =>
    unfold portLoop
    by_cases hused : port ∈ used
    · rw [if_pos hused]
      by_cases huntil : port = last
      · subst huntil
        rw [if_pos rfl]
        refine ⟨.exhausted hused, .inr ⟨rfl, ?_⟩⟩
        intro q hq hle
        rw [RoundRobin.steps_self, Nat.le_zero] at hle
        have hsame : place q = place port := by
          apply RoundRobin.steps_inj (place_lt hport) (place_lt hq) (place_lt hport)
          rw [hle, RoundRobin.steps_self]
        rwa [place_inj hq hport hsame]
      · have hplace : place port ≠ place last := fun heq ↦ huntil (place_inj hport hlast heq)
        have hstep := RoundRobin.steps_next (place_lt hport) (place_lt hlast) hplace
        rw [← place_nextPort hport] at hstep
        rw [if_neg huntil]
        obtain ⟨hstops, hfound⟩ := ih (isEphemeral_nextPort hport) (by omega)
        refine ⟨.next hused huntil hstops, hfound.imp_right ?_⟩
        rintro ⟨herror, hall⟩
        refine ⟨herror, ?_⟩
        intro q hq hle
        by_cases hqp : q = port
        · rwa [hqp]
        · have hqplace : place port ≠ place q := fun heq ↦ hqp (place_inj hport hq heq).symm
          have hqstep := RoundRobin.steps_next (place_lt hport) (place_lt hq) hqplace
          rw [← place_nextPort hport] at hqstep
          exact hall q hq (by omega)
    · rw [if_neg hused]
      exact ⟨.free hused, .inl ⟨port, hport, hused, rfl⟩⟩

theorem portLoop_around (used : Multiset ℤ) (hlast : isEphemeral last = true) :
    Stops used last (nextPort last) (portLoop used last rangeSize (nextPort last)) ∧
      ((∃ p, isEphemeral p = true ∧ p ∉ used ∧ portLoop used last rangeSize (nextPort last) = .ok p) ∨
        portLoop used last rangeSize (nextPort last) = .error .portRangeExhausted ∧
          ∀ q, isEphemeral q = true → q ∈ used) := by
  have hnext := isEphemeral_nextPort hlast
  have hlt := RoundRobin.steps_lt (place_lt hnext) (place_lt hlast)
  obtain ⟨hstops, hfound⟩ := portLoop_stops used hlast hnext hlt
  refine ⟨hstops, hfound.imp_right ?_⟩
  rintro ⟨herror, hall⟩
  refine ⟨herror, ?_⟩
  intro q hq
  apply hall q hq
  have hq' := RoundRobin.ahead_le (place_lt hlast) (place_lt hq)
  rw [RoundRobin.ahead_eq_steps (place_lt hlast) (place_lt hq), ← place_nextPort hlast] at hq'
  have hself := RoundRobin.ahead_self rangeSize (place last)
  rw [RoundRobin.ahead_eq_steps (place_lt hlast) (place_lt hlast), ← place_nextPort hlast] at hself
  omega

end

/-- The search stops. It gives a port of the range that is not used whenever there is one, and the error
exactly when there is none. -/
theorem getEphemeralPort_finds (t : TCPModule) (hlast : isEphemeral t.lastEphemeralPort = true) :
    (∃ r, Stops t.usedEphemeralPorts t.lastEphemeralPort (nextPort t.lastEphemeralPort) r ∧
      t.getEphemeralPort = (fun port ↦ (port, { t with lastEphemeralPort := port })) <$> r) ∧
    ((∃ free, isEphemeral free = true ∧ free ∉ t.usedEphemeralPorts) →
      ∃ port, t.getEphemeralPort = .ok (port, { t with lastEphemeralPort := port }) ∧
        isEphemeral port = true ∧ port ∉ t.usedEphemeralPorts) ∧
    (t.getEphemeralPort = .error .portRangeExhausted ↔
      ∀ port, isEphemeral port = true → port ∈ t.usedEphemeralPorts) := by
  have hget : t.getEphemeralPort = (fun port ↦ (port, { t with lastEphemeralPort := port })) <$>
      portLoop t.usedEphemeralPorts t.lastEphemeralPort rangeSize (nextPort t.lastEphemeralPort) := by
    show (portLoop _ _ rangeSize _ >>= _) = _
    cases portLoop t.usedEphemeralPorts t.lastEphemeralPort rangeSize (nextPort t.lastEphemeralPort) <;> rfl
  obtain ⟨hstops, hfound⟩ := portLoop_around t.usedEphemeralPorts hlast
  refine ⟨⟨_, hstops, hget⟩, ?_, ?_⟩
  · rintro ⟨free, hfree, hunused⟩
    rcases hfound with ⟨port, hport, hnot, hok⟩ | ⟨-, hall⟩
    · rw [hok] at hget
      exact ⟨port, hget, hport, hnot⟩
    · exact absurd (hall free hfree) hunused
  · rcases hfound with ⟨port, hport, hnot, hok⟩ | ⟨herror, hall⟩
    · rw [hget, hok]
      exact iff_of_false nofun fun hall ↦ hnot (hall port hport)
    · rw [hget, herror]
      exact iff_of_true rfl hall

/-- A module in which only the last port of the range is in use and was given out last. -/
def lastPortUsed : TCPModule := { usedEphemeralPorts := {4999}, lastEphemeralPort := 4999 }

theorem getEphemeralPort_lastPortUsed :
    (∃ r, Stops lastPortUsed.usedEphemeralPorts lastPortUsed.lastEphemeralPort
        (nextPort lastPortUsed.lastEphemeralPort) r ∧
      lastPortUsed.getEphemeralPort = (fun port ↦ (port, { lastPortUsed with lastEphemeralPort := port })) <$> r) ∧
    ((∃ free, isEphemeral free = true ∧ free ∉ lastPortUsed.usedEphemeralPorts) →
      ∃ port, lastPortUsed.getEphemeralPort = .ok (port, { lastPortUsed with lastEphemeralPort := port }) ∧
        isEphemeral port = true ∧ port ∉ lastPortUsed.usedEphemeralPorts) ∧
    (lastPortUsed.getEphemeralPort = .error .portRangeExhausted ↔
      ∀ port, isEphemeral port = true → port ∈ lastPortUsed.usedEphemeralPorts) :=
  getEphemeralPort_finds lastPortUsed (by decide)

end TCPModule

end InetManet.TCP
