import InetManet.Library.SerialNumber

/-!
# Reception statistics of RTP

`RTPReceiverInfo` extends 16-bit sequence numbers by a count of their cycles. A stream is followed by the
numbers of packets that are expected and received. The statistics follow it from a stream that starts at
zero on, as long as the packets around a wrap are not lost and the numbers fit. The first interval counts
one packet too few. Jitter, clocks and activity are left out.
-/

namespace InetManet.RTP

inductive Fault
  | divisionByZero
  deriving DecidableEq

structure ReceptionReport where
  fractionLost : BitVec 8
  packetsLostCumulative : ℤ
  sequenceNumber : BitVec 32
  deriving DecidableEq

structure RTPReceiverInfo where
  sequenceNumberBase : BitVec 16 := 0
  highestSequenceNumber : BitVec 16 := 0
  highestSequenceNumberPrior : BitVec 32 := 0
  sequenceNumberCycles : BitVec 32 := 0
  packetsReceived : BitVec 32 := 0
  packetsReceivedPrior : BitVec 32 := 0
  silentIntervals : ℕ := 3
  deriving DecidableEq

namespace RTPReceiverInfo

variable (r : RTPReceiverInfo)

/-- The highest number after another packet than the first one. -/
def updateHighest (sequenceNumber : BitVec 16) : RTPReceiverInfo :=
  if r.highestSequenceNumber < sequenceNumber then
    -- A late packet from the cycle before.
    if 0xFFEF < sequenceNumber ∧ r.highestSequenceNumber < 0x10 then r
    else { r with highestSequenceNumber := sequenceNumber }
  else if sequenceNumber < 0x10 ∧ 0xFFEF < r.highestSequenceNumber then
    { r with sequenceNumberCycles := r.sequenceNumberCycles + 0x10000
             highestSequenceNumber := sequenceNumber }
  else r

def processRTPPacket (sequenceNumber : BitVec 16) : RTPReceiverInfo :=
  let r := { r with packetsReceived := r.packetsReceived + 1, silentIntervals := 0 }
  if r.packetsReceived = 1 then { r with sequenceNumberBase := sequenceNumber }
  else r.updateHighest sequenceNumber

def isSender : Bool := r.silentIntervals ≤ 1

def extendedHighest : BitVec 32 := r.sequenceNumberCycles + r.highestSequenceNumber.setWidth 32

def packetsExpectedInInterval : BitVec 32 := r.extendedHighest - r.highestSequenceNumberPrior

def packetsLostInInterval : BitVec 32 :=
  r.packetsExpectedInInterval - (r.packetsReceived - r.packetsReceivedPrior)

def packetsLost : BitVec 64 :=
  r.sequenceNumberCycles.setWidth 64 + r.highestSequenceNumber.setWidth 64 -
    r.sequenceNumberBase.setWidth 64 + 1 - r.packetsReceived.setWidth 64

/-- The quotient of signed numbers, in eight bits. -/
def fractionLost : Except Fault (BitVec 8) :=
  if 0 < r.packetsLostInInterval.toInt then
    if r.packetsExpectedInInterval = 0 then .error .divisionByZero
    else .ok (BitVec.ofInt 8
      ((r.packetsLostInInterval <<< 8).toInt.tdiv r.packetsExpectedInInterval.toInt))
  else .ok 0

/-- No report of a participant that does not send. -/
def receptionReport : Except Fault (Option ReceptionReport) :=
  if r.isSender then do
    let fractionLost ← r.fractionLost
    .ok (some ⟨fractionLost, (r.packetsLost.setWidth 32).toInt, r.extendedHighest⟩)
  else .ok none

def nextInterval : RTPReceiverInfo :=
  { r with
    highestSequenceNumberPrior := r.extendedHighest
    packetsReceivedPrior := r.packetsReceived
    silentIntervals := r.silentIntervals + 1 }

end RTPReceiverInfo

/-! ## Streams -/

/-- A stream from the sequence number `start` on: the packets that should have arrived and that have, now
and at the end of the last interval. -/
structure Stream where
  start : ℕ
  expected : ℕ := 0
  received : ℕ := 0
  expectedPrior : ℕ := 0
  receivedPrior : ℕ := 0
  deriving DecidableEq

/-- A packet arrives after `gap` lost ones, a report is made, or the interval ends. -/
inductive Event
  | packet (gap : ℕ)
  | report
  | nextInterval
  deriving DecidableEq

namespace Stream

variable (t : Stream)

def next : Event → Stream
  | .packet gap => { t with expected := t.expected + gap + 1, received := t.received + 1 }
  | .report => t
  | .nextInterval => { t with expectedPrior := t.expected, receivedPrior := t.received }

/-- The number of the packet after `gap` lost ones, without bound. -/
def position (gap : ℕ) : ℕ := t.start + t.expected + gap

def expectedInInterval : ℕ := t.expected - t.expectedPrior

def lostInInterval : ℕ := t.expectedInInterval - (t.received - t.receivedPrior)

/-- What a report should say. -/
def Right (x : ReceptionReport) : Prop :=
  (x.sequenceNumber.toNat : ℤ) = t.start + t.expected - 1 ∧
    x.packetsLostCumulative = (t.expected : ℤ) - t.received ∧
    x.fractionLost.toNat = min 255 (256 * t.lostInInterval / t.expectedInInterval)

instance (x : ReceptionReport) : Decidable (t.Right x) := inferInstanceAs (Decidable (_ ∧ _ ∧ _))

/-- The first packet is received, and less than half of the numbers are lost in a row. -/
def Valid : Event → Prop
  | .packet gap => (t.expected = 0 → gap = 0) ∧ gap < 2 ^ 15
  | _ => True

/-- The packets before and after a wrap are close to it. -/
def NoticesWrap (gap : ℕ) : Prop :=
  (t.position gap - (gap + 1)) / 65536 < t.position gap / 65536 →
    0xFFEF < (t.position gap - (gap + 1)) % 65536 ∧ t.position gap % 65536 < 0x10

/-- Numbers are small enough, the stream starts at zero and its wraps are noticed, and a report comes
after the first interval or nothing has been lost. -/
def Followed : Event → Prop
  | .packet gap => t.start = 0 ∧ (t.expected ≠ 0 → t.NoticesWrap gap) ∧ t.position gap + 1 < 2 ^ 32
  | .report => (t.expectedPrior = 0 → t.expected = t.received) ∧ t.expectedInInterval < 2 ^ 31 ∧
      t.lostInInterval < 2 ^ 23 ∧ t.expected < t.received + 2 ^ 31
  | .nextInterval => True

end Stream

def RTPReceiverInfo.next (r : RTPReceiverInfo) (t : Stream) : Event → RTPReceiverInfo
  | .packet gap => r.processRTPPacket (BitVec.ofNat 16 (t.position gap))
  | .report => r
  | .nextInterval => r.nextInterval

/-- A report does not fail, and if there is one it is right. -/
def RightAt (r : RTPReceiverInfo) (t : Stream) : Event → Prop
  | .report => match r.receptionReport with
    | .ok none => True
    | .ok (some x) => t.Right x
    | .error _ => False
  | _ => True

instance (r : RTPReceiverInfo) (t : Stream) : (event : Event) → Decidable (RightAt r t event)
  | .packet _ => inferInstanceAs (Decidable True)
  | .nextInterval => inferInstanceAs (Decidable True)
  | .report =>
    match h : r.receptionReport with
    | .ok none => .isTrue (by simp only [RightAt, h])
    | .ok (some x) => decidable_of_iff (t.Right x) (by simp only [RightAt, h])
    | .error _ => .isFalse (by simp only [RightAt, h, not_false_eq_true])

/-- All reports are right. -/
def AlwaysRight : RTPReceiverInfo → Stream → List Event → Prop
  | _, _, [] => True
  | r, t, event :: events => RightAt r t event ∧ AlwaysRight (r.next t event) (t.next event) events

def AlwaysValid : Stream → List Event → Prop
  | _, [] => True
  | t, event :: events => t.Valid event ∧ AlwaysValid (t.next event) events

def AlwaysFollowed : Stream → List Event → Prop
  | _, [] => True
  | t, event :: events => t.Followed event ∧ AlwaysFollowed (t.next event) events

/-! ## Following a stream -/

/-- The state after a stream from zero. -/
structure Tracks (r : RTPReceiverInfo) (t : Stream) : Prop where
  start : t.expected ≠ 0 → t.start = 0
  base : r.sequenceNumberBase = 0
  highest : r.highestSequenceNumber = BitVec.ofNat 16 (t.expected - 1)
  cycles : r.sequenceNumberCycles = BitVec.ofNat 32 ((t.expected - 1) / 65536 * 65536)
  prior : r.highestSequenceNumberPrior = BitVec.ofNat 32 (t.expectedPrior - 1)
  received : r.packetsReceived = BitVec.ofNat 32 t.received
  receivedPrior : r.packetsReceivedPrior = BitVec.ofNat 32 t.receivedPrior
  sender : t.expected = 0 → 1 < r.silentIntervals
  bound : t.expected < 2 ^ 32
  zero : t.expected = 0 ↔ t.received = 0
  receivedPrior_le : t.receivedPrior ≤ t.received
  expectedPrior_le : t.expectedPrior ≤ t.expected
  interval_le : t.received - t.receivedPrior ≤ t.expectedInInterval
  interval_zero : t.received = t.receivedPrior → t.expected = t.expectedPrior
  prior_zero : t.expectedPrior = 0 ↔ t.receivedPrior = 0
  received_le : t.received ≤ t.expected

section

variable {r : RTPReceiverInfo} {t : Stream} {gap : ℕ}

theorem tracks_start (start : ℕ) : Tracks {} { start } where
  start h := absurd rfl h
  base := rfl
  highest := rfl
  cycles := by simp
  prior := rfl
  received := rfl
  receivedPrior := rfl
  sender _ := by decide
  bound := Nat.two_pow_pos 32
  zero := Iff.rfl
  receivedPrior_le := le_refl 0
  expectedPrior_le := le_refl 0
  interval_le := le_refl 0
  interval_zero _ := rfl
  prior_zero := Iff.rfl
  received_le := le_refl 0

theorem extendedHighest_of_tracks (h : Tracks r t) :
    r.extendedHighest = BitVec.ofNat 32 (t.expected - 1) := by
  apply BitVec.eq_of_toNat_eq
  have hbound := h.bound
  rw [RTPReceiverInfo.extendedHighest, h.cycles, h.highest, BitVec.toNat_add, BitVec.toNat_setWidth,
    BitVec.toNat_ofNat, BitVec.toNat_ofNat, BitVec.toNat_ofNat]
  omega

/-- A packet that is not the first one becomes the highest. -/
theorem updateHighest_eq (highest : ℕ) (hnumber : r.highestSequenceNumber = BitVec.ofNat 16 highest)
    (hcycles : r.sequenceNumberCycles = BitVec.ofNat 32 (highest / 65536 * 65536))
    (hgap : gap < 2 ^ 15)
    (hwrap : highest / 65536 < (highest + gap + 1) / 65536 →
      0xFFEF < highest % 65536 ∧ (highest + gap + 1) % 65536 < 0x10) :
    r.updateHighest (BitVec.ofNat 16 (highest + gap + 1)) =
      { r with
        highestSequenceNumber := BitVec.ofNat 16 (highest + gap + 1)
        sequenceNumberCycles := BitVec.ofNat 32 ((highest + gap + 1) / 65536 * 65536) } := by
  have hnew : (BitVec.ofNat 16 (highest + gap + 1)).toNat = (highest + gap + 1) % 65536 :=
    BitVec.toNat_ofNat _ _
  have hold : (BitVec.ofNat 16 highest).toNat = highest % 65536 := BitVec.toNat_ofNat _ _
  have hlow : (0x10 : BitVec 16).toNat = 16 := rfl
  have hhigh : (0xFFEF : BitVec 16).toNat = 65519 := rfl
  unfold RTPReceiverInfo.updateHighest
  simp only [hnumber, BitVec.lt_def, hnew, hold, hlow, hhigh]
  by_cases hcycle : highest / 65536 < (highest + gap + 1) / 65536
  · obtain ⟨hclose, hsmall⟩ := hwrap hcycle
    rw [if_neg (by omega), if_pos ⟨hsmall, hclose⟩, hcycles]
    have hsum : BitVec.ofNat 32 (highest / 65536 * 65536) + 0x10000 =
        BitVec.ofNat 32 ((highest + gap + 1) / 65536 * 65536) := by
      apply BitVec.eq_of_toNat_eq
      rw [BitVec.toNat_add, BitVec.toNat_ofNat, BitVec.toNat_ofNat]
      change (_ + 65536) % _ = _
      omega
    rw [hsum]
  · have hsame : highest / 65536 = (highest + gap + 1) / 65536 := by omega
    rw [if_pos (by omega), if_neg (by omega), ← hsame, ← hcycles]

theorem Stream.position_of_followed (hfollowed : t.Followed (.packet gap)) :
    t.position gap = t.expected + gap := by
  rw [Stream.position, hfollowed.1, Nat.zero_add]

section

variable (h : Tracks r t)

include h

theorem Tracks.packetsReceived_next :
    r.packetsReceived + 1 = BitVec.ofNat 32 (t.received + 1) := by
  rw [h.received, SerialNumber.ofNat_add_one]

/-- The statistics of the stream do not depend on the receiver. -/
theorem Tracks.packet_of_fields (hfollowed : t.Followed (.packet gap)) {r' : RTPReceiverInfo}
    (hbase : r'.sequenceNumberBase = 0)
    (hhighest : r'.highestSequenceNumber = BitVec.ofNat 16 (t.expected + gap))
    (hcycles : r'.sequenceNumberCycles = BitVec.ofNat 32 ((t.expected + gap) / 65536 * 65536))
    (hprior : r'.highestSequenceNumberPrior = r.highestSequenceNumberPrior)
    (hreceived : r'.packetsReceived = r.packetsReceived + 1)
    (hreceivedPrior : r'.packetsReceivedPrior = r.packetsReceivedPrior) :
    Tracks r' (t.next (.packet gap)) := by
  obtain ⟨hstart, -, hlt⟩ := id hfollowed
  rw [Stream.position_of_followed hfollowed] at hlt
  have hle := h.received_le
  have hlePrior := h.receivedPrior_le
  have hexpectedPrior := h.expectedPrior_le
  have hinterval := h.interval_le
  unfold Stream.expectedInInterval at hinterval
  exact {
    start := fun _ ↦ hstart
    base := hbase
    highest := hhighest
    cycles := hcycles
    prior := hprior.trans h.prior
    received := hreceived.trans h.packetsReceived_next
    receivedPrior := hreceivedPrior.trans h.receivedPrior
    sender := fun hzero ↦ by simp [Stream.next] at hzero
    bound := by simp only [Stream.next]; omega
    zero := by simp [Stream.next]
    receivedPrior_le := by simp only [Stream.next]; omega
    expectedPrior_le := by simp only [Stream.next]; omega
    interval_le := by simp only [Stream.next, Stream.expectedInInterval]; omega
    interval_zero := fun hsame ↦ by simp only [Stream.next] at hsame; omega
    prior_zero := h.prior_zero
    received_le := by simp only [Stream.next]; omega }

theorem Tracks.packet_first (hvalid : t.Valid (.packet gap))
    (hfollowed : t.Followed (.packet gap)) (hzero : t.expected = 0) :
    Tracks (r.next t (.packet gap)) (t.next (.packet gap)) := by
  have hgap : gap = 0 := hvalid.1 hzero
  have hnumber : t.expected + gap = 0 := by omega
  have hone : r.packetsReceived + 1 = 1 := by
    rw [h.packetsReceived_next, h.zero.mp hzero]
    rfl
  simp only [RTPReceiverInfo.next, RTPReceiverInfo.processRTPPacket, Stream.position_of_followed hfollowed,
    hone, if_true]
  apply h.packet_of_fields hfollowed
  · rw [hnumber]
    rfl
  · simp only [h.highest, hzero, hgap]
  · simp only [h.cycles, hzero, hgap]
  · rfl
  · exact hone.symm
  · rfl

theorem Tracks.packet_later (hvalid : t.Valid (.packet gap))
    (hfollowed : t.Followed (.packet gap)) (hzero : t.expected ≠ 0) :
    Tracks (r.next t (.packet gap)) (t.next (.packet gap)) := by
  have hposition := Stream.position_of_followed hfollowed
  have hpos : t.received ≠ 0 := fun hreceived ↦ hzero (h.zero.mpr hreceived)
  have hne : ¬ r.packetsReceived + 1 = 1 := by
    have hlt := hfollowed.2.2
    have hle := h.received_le
    rw [h.packetsReceived_next]
    intro hone
    have hnat := congrArg BitVec.toNat hone
    rw [BitVec.toNat_ofNat] at hnat
    change _ = 1 at hnat
    omega
  have hwrap := hfollowed.2.1 hzero
  rw [Stream.NoticesWrap, hposition] at hwrap
  have hindex : t.expected + gap - (gap + 1) = t.expected - 1 := by omega
  have hindex' : t.expected - 1 + gap + 1 = t.expected + gap := by omega
  rw [hindex] at hwrap
  have hupdate := @updateHighest_eq
    { r with packetsReceived := r.packetsReceived + 1, silentIntervals := 0 } gap (t.expected - 1)
    h.highest h.cycles hvalid.2 (by rwa [hindex'])
  rw [hindex'] at hupdate
  simp only [RTPReceiverInfo.next, RTPReceiverInfo.processRTPPacket, hposition, hne, if_false]
  rw [hupdate]
  exact h.packet_of_fields hfollowed h.base rfl rfl rfl rfl rfl

theorem Tracks.packet (hvalid : t.Valid (.packet gap)) (hfollowed : t.Followed (.packet gap)) :
    Tracks (r.next t (.packet gap)) (t.next (.packet gap)) := by
  by_cases hzero : t.expected = 0
  · exact h.packet_first hvalid hfollowed hzero
  · exact h.packet_later hvalid hfollowed hzero

theorem Tracks.nextInterval :
    Tracks (r.next t .nextInterval) (t.next .nextInterval) where
  start := h.start
  base := h.base
  highest := h.highest
  cycles := h.cycles
  prior := extendedHighest_of_tracks h
  received := h.received
  receivedPrior := h.received
  sender hzero := (h.sender hzero).trans (Nat.lt_succ_self _)
  bound := h.bound
  zero := h.zero
  receivedPrior_le := le_refl _
  expectedPrior_le := le_refl _
  interval_le := by simp [Stream.next, Stream.expectedInInterval]
  interval_zero _ := rfl
  prior_zero := h.zero
  received_le := h.received_le

theorem packetsLost_of_tracks (hlt : t.expected < t.received + 2 ^ 31)
    (hne : t.expected ≠ 0) : (r.packetsLost.setWidth 32).toInt = (t.expected : ℤ) - t.received := by
  have hbound := h.bound
  have hle := h.received_le
  have hlost : r.packetsLost = BitVec.ofNat 64 (t.expected - t.received) := by
    rw [← SerialNumber.ofNat_sub_ofNat hle, RTPReceiverInfo.packetsLost, h.base, h.cycles, h.highest,
      h.received]
    have hexpected : (BitVec.ofNat 32 ((t.expected - 1) / 65536 * 65536)).setWidth 64 +
        (BitVec.ofNat 16 (t.expected - 1)).setWidth 64 - (0 : BitVec 16).setWidth 64 + 1 =
        BitVec.ofNat 64 t.expected := by
      apply BitVec.eq_of_toNat_eq
      have hzero : (0 : BitVec 16).setWidth 64 = 0#64 := rfl
      have hone : (1 : BitVec 64).toNat = 1 := rfl
      rw [hzero, BitVec.sub_zero, BitVec.toNat_add, BitVec.toNat_add, hone]
      simp only [BitVec.toNat_setWidth, BitVec.toNat_ofNat]
      omega
    have hreceived : (BitVec.ofNat 32 t.received).setWidth 64 = BitVec.ofNat 64 t.received := by
      apply BitVec.eq_of_toNat_eq
      simp only [BitVec.toNat_setWidth, BitVec.toNat_ofNat]
      omega
    rw [hexpected, hreceived]
  rw [hlost, BitVec.toInt_eq_toNat_cond]
  simp only [BitVec.toNat_setWidth, BitVec.toNat_ofNat]
  split <;> omega

theorem packetsExpectedInInterval_of_tracks :
    r.packetsExpectedInInterval = BitVec.ofNat 32 ((t.expected - 1) - (t.expectedPrior - 1)) := by
  have hprior := h.expectedPrior_le
  rw [RTPReceiverInfo.packetsExpectedInInterval, extendedHighest_of_tracks h, h.prior,
    SerialNumber.ofNat_sub_ofNat (by omega)]

/-- The loss of the interval, for the packets that the receiver has noticed. -/
theorem packetsLostInInterval_of_tracks (hexpected : t.expectedInInterval < 2 ^ 31) :
    r.packetsLostInInterval.toInt =
      ((t.expected - 1 - (t.expectedPrior - 1) : ℕ) : ℤ) - (t.received - t.receivedPrior : ℕ) := by
  have hbound := h.bound
  have hinterval := h.interval_le
  unfold Stream.lostInInterval Stream.expectedInInterval at *
  rw [RTPReceiverInfo.packetsLostInInterval, packetsExpectedInInterval_of_tracks h, h.received,
    h.receivedPrior, SerialNumber.ofNat_sub_ofNat h.receivedPrior_le]
  apply SerialNumber.toInt_ofNat_sub_ofNat (by decide)
  · simp only [Nat.reduceSub, Nat.reducePow]
    omega
  · simp only [Nat.reduceSub, Nat.reducePow]
    omega

theorem fractionLost_of_tracks (hfollowed : t.Followed .report) :
    ∃ fraction, r.fractionLost = .ok fraction ∧
      fraction.toNat = min 255 (256 * t.lostInInterval / t.expectedInInterval) := by
  obtain ⟨hfirst, hexpected, hlost, hcumulative⟩ := hfollowed
  have hpriorLe := h.expectedPrior_le
  have hinterval := h.interval_le
  have hzero := h.interval_zero
  have hpriorZero := h.prior_zero
  have hreceivedPriorLe := h.receivedPrior_le
  have hbound := h.bound
  have hexp := packetsExpectedInInterval_of_tracks h
  have hlostInt := packetsLostInInterval_of_tracks h hexpected
  unfold Stream.lostInInterval Stream.expectedInInterval at *
  unfold RTPReceiverInfo.fractionLost
  by_cases hpositive : 0 < r.packetsLostInInterval.toInt
  · -- Something has been lost, so that this is not the first interval.
    have hprior : t.expectedPrior ≠ 0 := by
      intro hprior
      have hall := hfirst hprior
      have hreceivedPrior := hpriorZero.mp hprior
      omega
    have hsub : t.expected - 1 - (t.expectedPrior - 1) = t.expected - t.expectedPrior := by omega
    rw [hsub] at hexp hlostInt
    generalize hx : t.expected - t.expectedPrior = x at *
    generalize hl : x - (t.received - t.receivedPrior) = l at *
    have hpos : 0 < x := by omega
    have hless : l < x := by
      have hsome : t.received ≠ t.receivedPrior := fun hsame ↦ by
        have := hzero hsame
        omega
      omega
    have hshift : (r.packetsLostInInterval <<< 8).toInt = ((256 * l : ℕ) : ℤ) := by
      have hnat : r.packetsLostInInterval.toNat = l := by
        rw [BitVec.toInt_eq_toNat_cond] at hlostInt
        have hlt := r.packetsLostInInterval.isLt
        split at hlostInt <;> omega
      rw [BitVec.toInt_eq_toNat_cond, BitVec.toNat_shiftLeft, hnat, Nat.shiftLeft_eq]
      split <;> omega
    have hdenominator : r.packetsExpectedInInterval.toInt = (x : ℤ) := by
      rw [hexp, BitVec.toInt_eq_toNat_cond, BitVec.toNat_ofNat]
      split <;> omega
    have hquotient : 256 * l / x ≤ 255 := by
      apply Nat.le_of_lt_succ
      apply Nat.div_lt_of_lt_mul
      omega
    rw [if_pos hpositive, if_neg]
    · refine ⟨_, rfl, ?_⟩
      have hdiv : ((256 * l : ℕ) : ℤ).tdiv (x : ℤ) = ((256 * l / x : ℕ) : ℤ) := rfl
      rw [hshift, hdenominator, hdiv, min_eq_right hquotient, BitVec.toNat_ofInt]
      generalize 256 * l / x = q at hquotient
      omega
    · rw [hexp]
      intro hnone
      have hnat := congrArg BitVec.toNat hnone
      rw [BitVec.toNat_ofNat] at hnat
      change _ = 0 at hnat
      omega
  · rw [if_neg hpositive]
    refine ⟨0, rfl, ?_⟩
    have hnone : t.expected - t.expectedPrior - (t.received - t.receivedPrior) = 0 := by
      by_cases hprior : t.expectedPrior = 0
      · have hall := hfirst hprior
        have hreceivedPrior := hpriorZero.mp hprior
        omega
      · omega
    rw [hnone, Nat.mul_zero, Nat.zero_div]
    rfl

theorem Tracks.report (hfollowed : t.Followed .report) : RightAt r t .report := by
  unfold RightAt RTPReceiverInfo.receptionReport
  by_cases hsender : r.isSender = true
  · have hne : t.expected ≠ 0 := by
      intro hzero
      have hsilent := h.sender hzero
      unfold RTPReceiverInfo.isSender at hsender
      simp only [decide_eq_true_eq] at hsender
      omega
    obtain ⟨fraction, hok, hfraction⟩ := fractionLost_of_tracks h hfollowed
    have hbound := h.bound
    rw [if_pos hsender, hok]
    refine ⟨?_, packetsLost_of_tracks h hfollowed.2.2.2 hne, hfraction⟩
    rw [extendedHighest_of_tracks h, h.start hne, BitVec.toNat_ofNat]
    omega
  · rw [if_neg hsender]
    trivial

theorem Tracks.step {event : Event} (hvalid : t.Valid event) (hfollowed : t.Followed event) :
    RightAt r t event ∧ Tracks (r.next t event) (t.next event) := by
  cases event with
  | packet gap => exact ⟨trivial, h.packet hvalid hfollowed⟩
  | report => exact ⟨h.report hfollowed, h⟩
  | nextInterval => exact ⟨trivial, h.nextInterval⟩

end

end

theorem Tracks.alwaysRight (events : List Event) :
    ∀ {r : RTPReceiverInfo} {t : Stream}, Tracks r t → AlwaysValid t events → AlwaysFollowed t events →
      AlwaysRight r t events := by
  induction events with
  | nil => exact fun _ _ _ ↦ trivial
  | cons event events ih =>
    intro r t h hvalid hfollowed
    obtain ⟨hright, hnext⟩ := h.step hvalid.1 hfollowed.1
    exact ⟨hright, ih hnext hvalid.2 hfollowed.2⟩

/-- All reports of a stream that the statistics can follow are right. -/
theorem alwaysRight_of_followed (start : ℕ) (events : List Event) (hvalid : AlwaysValid { start } events)
    (hfollowed : AlwaysFollowed { start } events) : AlwaysRight {} { start } events :=
  (tracks_start start).alwaysRight events hvalid hfollowed

/-- Five packets with a loss in the second interval. -/
def lossyEvents : List Event :=
  [.packet 0, .packet 0, .report, .nextInterval, .packet 0, .packet 3, .report, .nextInterval]

theorem alwaysRight_of_followed_lossy :
    AlwaysValid { start := 0 } lossyEvents ∧ AlwaysFollowed { start := 0 } lossyEvents ∧
      AlwaysRight {} { start := 0 } lossyEvents := by
  have hvalid : AlwaysValid { start := 0 } lossyEvents := by
    simp [AlwaysValid, lossyEvents, Stream.Valid, Stream.next]
  have hfollowed : AlwaysFollowed { start := 0 } lossyEvents := by
    simp [AlwaysFollowed, lossyEvents, Stream.Followed, Stream.next, Stream.NoticesWrap, Stream.position,
      Stream.lostInInterval, Stream.expectedInInterval]
  exact ⟨hvalid, hfollowed, alwaysRight_of_followed 0 lossyEvents hvalid hfollowed⟩

/-- A single packet with another number than zero, a loss in the first interval, and a loss around a wrap
all give wrong reports. -/
theorem not_alwaysRight_first_packet :
    (AlwaysValid { start := 5 } [.packet 0, .report] ∧ ¬ AlwaysRight {} { start := 5 } [.packet 0, .report]) ∧
      AlwaysValid { start := 0 } [.packet 0, .packet 1, .report] ∧
      ¬ AlwaysRight {} { start := 0 } [.packet 0, .packet 1, .report] := by
  refine ⟨⟨by simp [AlwaysValid, Stream.Valid], fun h ↦ ?_⟩,
    by simp [AlwaysValid, Stream.Valid, Stream.next], fun h ↦ ?_⟩
  · exact absurd h.2.1 (by decide)
  · exact absurd h.2.2.1 (by decide)

end InetManet.RTP
