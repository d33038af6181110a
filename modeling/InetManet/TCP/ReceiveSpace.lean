import InetManet.TCP.ReceiveFrame

/-!
# The receive sequence space

As for the send variables, sequence numbers are read as positions: `Holds q r regions top` says that
the queue expects position `r` next and has the regions `regions` above it, none of them above
`top`. A segment whose text starts at or behind `r` is merged into the list; text that starts at
`r` moves `rcv_nxt` over everything that is now contiguous, and exactly these bytes are handed to
the application.
-/

namespace InetManet.TCP

open TransitionSystem SerialNumber RegionList

/-- The receive queue with `rcv_nxt` at position `r`. -/
def queueAt (r : ℕ) (regions : List (Region ℕ)) : TCPVirtualDataRcvQueue :=
  ⟨BitVec.ofNat 32 r, regions.map (Region.map (BitVec.ofNat 32))⟩

structure Holds (q : TCPVirtualDataRcvQueue) (r : ℕ) (regions : List (Region ℕ)) (top : ℕ) :
    Prop where
  queue : q = queueAt r regions
  normal : Normal regions
  above : ∀ s ∈ regions, r < s.lower
  le_top : ∀ s ∈ regions, s.upper ≤ top

/-- The positions that have arrived: everything in front of `r`, and the regions. -/
def Arrived (r : ℕ) (regions : List (Region ℕ)) (x : ℕ) : Prop := x < r ∨ Covers regions x

section Queue

variable {q : TCPVirtualDataRcvQueue} {seg : TCPSegment} {regions rest : List (Region ℕ)}
  {p r r' top : ℕ}

theorem Holds.mono {top' : ℕ} (h : Holds q r regions top) (htop : top ≤ top') :
    Holds q r regions top' :=
  { h with le_top := fun s hs ↦ (h.le_top s hs).trans htop }

theorem Holds.not_arrived (h : Holds q r regions top) : ¬ Arrived r regions r := by
  rintro (hlt | ⟨s, hs, hle, -⟩)
  · exact lt_irrefl r hlt
  · exact absurd (h.above s hs) (not_lt.mpr hle)

/-- On positions of one half space the sequence number comparisons are those of the positions. -/
theorem respects_ofNat (hroom : top < r + 2 ^ 31) :
    Respects lessOf geOf seqLess seqGE (BitVec.ofNat 32) {x | r ≤ x ∧ x ≤ top} := by
  rintro x ⟨hx, hx'⟩ y ⟨hy, hy'⟩
  exact ⟨seqLess_ofNat (by omega) (by omega), seqGE_ofNat (by omega) (by omega)⟩

section

variable (h : Holds q r regions top)

include h

theorem Holds.endpointsIn :
    EndpointsIn {x | r ≤ x ∧ x ≤ top} regions := by
  intro s hs
  have hlower := h.above s hs
  have hupper := h.le_top s hs
  have hlt := h.normal.nonempty s hs
  exact ⟨⟨by omega, by omega⟩, ⟨by omega, by omega⟩⟩

/-- The merge of the source is the insertion of the positions. -/
theorem Holds.merge (hseq : seg.sequenceNo = BitVec.ofNat 32 p)
    (hp : r ≤ p) (htop : p + seg.payloadLength ≤ top) (hroom : top < r + 2 ^ 31) :
    q.merge seg.sequenceNo (seg.sequenceNo + BitVec.ofNat 32 seg.payloadLength) =
      (RegionList.insert ⟨p, p + seg.payloadLength⟩ regions).map (Region.map (BitVec.ofNat 32)) := by
  have hlow : p ∈ {x | r ≤ x ∧ x ≤ top} := ⟨hp, by omega⟩
  have hupp : p + seg.payloadLength ∈ {x | r ≤ x ∧ x ≤ top} := ⟨by omega, htop⟩
  have hmap := merge_map (respects_ofNat hroom) (t := ⟨p, p + seg.payloadLength⟩) ⟨hlow, hupp⟩
    h.endpointsIn
  unfold TCPVirtualDataRcvQueue.merge
  rw [h.queue, hseq, ← BitVec.ofNat_add]
  exact hmap

theorem Holds.insert_behind (hseq : seg.sequenceNo = BitVec.ofNat 32 p)
    (hlen : 0 < seg.payloadLength) (hp : r < p) (htop : p + seg.payloadLength ≤ top)
    (hroom : top < r + 2 ^ 31) :
    Holds (q.insertBytesFromSegment seg) r
      (RegionList.insert ⟨p, p + seg.payloadLength⟩ regions) top := by
  have hpiece : p < p + seg.payloadLength := by omega
  have hmerge := h.merge hseq hp.le htop hroom
  have hnormal := (insert_normal (t := ⟨p, p + seg.payloadLength⟩) hpiece h.normal).1
  have habove := insert_lower_gt (t := ⟨p, p + seg.payloadLength⟩) hp hpiece h.normal h.above
  have hupper := insert_upper_le (t := ⟨p, p + seg.payloadLength⟩) hpiece h.normal htop h.le_top
  refine ⟨?_, hnormal, habove, hupper⟩
  unfold TCPVirtualDataRcvQueue.insertBytesFromSegment
  dsimp only
  rw [hmerge, h.queue]
  cases hregions : RegionList.insert ⟨p, p + seg.payloadLength⟩ regions with
  | nil => rfl
  | cons s tail =>
    have hs : s ∈ RegionList.insert ⟨p, p + seg.payloadLength⟩ regions := by simp [hregions]
    have hlow := habove s hs
    have hlt := hnormal.nonempty s hs
    have hle := hupper s hs
    rw [List.map_cons]
    dsimp only
    rw [queueAt, Region.map_lower, seqGE_ofNat (by omega) (by omega), if_neg (by simpa using hlow)]
    rfl

/-- Text at `rcv_nxt` moves it to the end of the first region, which is still to be extracted. -/
theorem Holds.insert_at (hseq : seg.sequenceNo = BitVec.ofNat 32 r)
    (hlen : 0 < seg.payloadLength) (htop : r + seg.payloadLength ≤ top) (hroom : top < r + 2 ^ 31) :
    ∃ r' rest, RegionList.insert ⟨r, r + seg.payloadLength⟩ regions = ⟨r, r'⟩ :: rest ∧
      r + seg.payloadLength ≤ r' ∧ r' ≤ top ∧ Holds (queueAt r' rest) r' rest top ∧
      q.insertBytesFromSegment seg = queueAt r' (⟨r, r'⟩ :: rest) := by
  have hpiece : r < r + seg.payloadLength := by omega
  obtain ⟨r', rest, heq, hle⟩ := insert_front (t := ⟨r, r + seg.payloadLength⟩) hpiece h.normal
    h.above
  have hnormal := (insert_normal (t := ⟨r, r + seg.payloadLength⟩) hpiece h.normal).1
  have hupper := insert_upper_le (t := ⟨r, r + seg.payloadLength⟩) hpiece h.normal htop h.le_top
  have hmerge := h.merge hseq le_rfl htop hroom
  rw [heq] at hnormal hupper hmerge
  obtain ⟨-, hsep, hrest⟩ := normal_cons.mp hnormal
  refine ⟨r', rest, heq, hle, hupper ⟨r, r'⟩ (by simp),
    ⟨rfl, hrest, hsep, fun s hs ↦ hupper s (by simp [hs])⟩, ?_⟩
  unfold TCPVirtualDataRcvQueue.insertBytesFromSegment
  dsimp only
  rw [hmerge, List.map_cons]
  dsimp only
  rw [h.queue, queueAt, Region.map_lower, seqGE_ofNat (a := r) (b := r) (by omega) (by omega),
    if_pos (by simp)]
  rfl

theorem Holds.arrived_behind {len : ℕ} (hlen : 0 < len) (x : ℕ) :
    Arrived r (RegionList.insert ⟨p, p + len⟩ regions) x ↔
      Arrived r regions x ∨ (p ≤ x ∧ x < p + len) := by
  have hpiece : p < p + len := by omega
  unfold Arrived
  rw [(insert_normal (t := ⟨p, p + len⟩) hpiece h.normal).2 x, ← or_assoc]
  exact or_right_comm

theorem Holds.arrived_at {len : ℕ} (hlen : 0 < len)
    (heq : RegionList.insert ⟨r, r + len⟩ regions = ⟨r, r'⟩ :: rest) (hr' : r ≤ r')
    (x : ℕ) : Arrived r' rest x ↔ Arrived r regions x ∨ (r ≤ x ∧ x < r + len) := by
  have hpiece : r < r + len := by omega
  have hcovers := (insert_normal (t := ⟨r, r + len⟩) hpiece h.normal).2 x
  rw [heq, covers_cons] at hcovers
  dsimp only at hcovers
  have hsplit : x < r' ↔ x < r ∨ (r ≤ x ∧ x < r') := by omega
  unfold Arrived
  rw [hsplit, or_assoc, hcovers, ← or_assoc]
  exact or_right_comm

end

/-- The plain comparison in `extractTo` fails only for a region across `2 ^ 32`. -/
def WrapAssertion (asserts : Bool) (top : ℕ) (f : Fault) : Prop :=
  f = .assertion .extractTo ∧ asserts = true ∧ 2 ^ 32 ≤ top

theorem extractTo_nonempty {asserts : Bool} {s : Region ℕ} (hs : s.lower < s.upper)
    (htop : s.upper ≤ top) :
    Outcome (check asserts (decide ((BitVec.ofNat 32 s.lower).toNat < (BitVec.ofNat 32 s.upper).toNat))
      (Fault.assertion .extractTo)) (fun _ ↦ True) (WrapAssertion asserts top) := by
  apply outcome_check (fun _ ↦ trivial)
  intro hasserts hcheck
  refine ⟨rfl, hasserts, ?_⟩
  by_contra hlt
  have hlow : s.lower % 2 ^ 32 = s.lower := Nat.mod_eq_of_lt (by omega)
  have hupp : s.upper % 2 ^ 32 = s.upper := Nat.mod_eq_of_lt (by omega)
  rw [BitVec.toNat_ofNat, BitVec.toNat_ofNat, hlow, hupp, decide_eq_false_iff_not] at hcheck
  exact hcheck hs

theorem Holds.extractTo (h : Holds (queueAt r regions) r regions top) (hroom : top < r + 2 ^ 31)
    (asserts : Bool) :
    Outcome ((queueAt r regions).extractTo asserts (BitVec.ofNat 32 r))
      (· = (0, queueAt r regions)) (WrapAssertion asserts top) := by
  unfold TCPVirtualDataRcvQueue.extractTo
  refine Outcome.bind (Q := fun _ ↦ True) (outcome_check (fun _ ↦ trivial) fun _ hcheck ↦ ?_)
    fun _ _ ↦ ?_
  · simp [seqLE, queueAt] at hcheck
  · cases hregions : regions with
    | nil => rfl
    | cons s rest =>
      have hmem : s ∈ regions := by simp [hregions]
      have habove := h.above s hmem
      have hlt := h.normal.nonempty s hmem
      have htop := h.le_top s hmem
      refine (extractTo_nonempty hlt htop).bind fun _ _ ↦ ?_
      rw [Region.map_lower, seqLE_ofNat (by omega) (by omega), if_pos (by simp [habove.le])]
      rfl

/-- The first region, which starts at the old `rcv_nxt`, is extracted as a whole. -/
theorem extractTo_first (hr : r < r') (hr' : r' ≤ top) (hroom : top < r + 2 ^ 31) (asserts : Bool) :
    Outcome ((queueAt r' (⟨r, r'⟩ :: rest)).extractTo asserts (BitVec.ofNat 32 r'))
      (· = (r' - r, queueAt r' rest)) (WrapAssertion asserts top) := by
  unfold TCPVirtualDataRcvQueue.extractTo
  refine Outcome.bind (Q := fun _ ↦ True) (outcome_check (fun _ ↦ trivial) fun _ hcheck ↦ ?_)
    fun _ _ ↦ ?_
  · simp [seqLE, queueAt] at hcheck
  · have hroom' : r' - r < 2 ^ 31 := by omega
    refine (extractTo_nonempty (s := ⟨r, r'⟩) hr hr').bind fun _ _ ↦ ?_
    rw [Region.map_lower, Region.map_upper, seqLE_ofNat (a := r') (b := r) (by omega) (by omega),
      if_neg (by simpa using hr), if_neg (by simp [seqLess])]
    dsimp only
    rw [toNat_ofNat_sub_ofNat hr.le (by omega)]
    rfl

/-- The extract loop hands out the bytes from the old to the new `rcv_nxt`, in one packet. -/
theorem Holds.extractAll (h : Holds (queueAt r' rest) r' rest top) (hr : r < r') (hr' : r' ≤ top)
    (hroom : top < r + 2 ^ 31) (asserts : Bool) :
    Outcome ((queueAt r' (⟨r, r'⟩ :: rest)).extractAll asserts (BitVec.ofNat 32 r'))
      (· = ([r' - r], queueAt r' rest)) (WrapAssertion asserts top) := by
  have hfirst : Outcome ((queueAt r' (⟨r, r'⟩ :: rest)).extractBytesUpTo asserts (BitVec.ofNat 32 r'))
      (· = (some (r' - r), queueAt r' rest)) (WrapAssertion asserts top) := by
    refine (extractTo_first hr hr' hroom asserts).bind ?_
    rintro _ rfl
    exact congrArg₂ Prod.mk (if_neg (by omega)) rfl
  have hlast : Outcome ((queueAt r' rest).extractBytesUpTo asserts (BitVec.ofNat 32 r'))
      (· = (none, queueAt r' rest)) (WrapAssertion asserts top) := by
    refine (h.extractTo (by omega) asserts).bind ?_
    rintro _ rfl
    rfl
  refine hfirst.bind ?_
  rintro _ rfl
  refine Outcome.bind (Q := (· = ([], queueAt r' rest))) (hlast.bind ?_) ?_
  · rintro _ rfl
    rfl
  · rintro _ rfl
    rfl

end Queue

/-! ## Segment text -/

def Output.bytes : Output → ℕ
  | .data byteLength => byteLength
  | _ => 0

namespace TCPConnection

/-- The number of bytes handed to the application. -/
def deliveredBytes (c : TCPConnection) : ℕ := (c.log.map Output.bytes).sum

structure Receiving (c : TCPConnection) (r : ℕ) (regions : List (Region ℕ)) (top : ℕ) : Prop where
  nxt : c.rcvNxt = BitVec.ofNat 32 r
  holds : Holds c.receiveQueue r regions top

def receiveAt (c : TCPConnection) (r : ℕ) (regions : List (Region ℕ)) : TCPConnection :=
  { c with receiveQueue := queueAt r regions, rcvNxt := BitVec.ofNat 32 r }

/-- What the text of a segment leads to: an immediate ACK when it lies behind a gap, else the bytes
that have become contiguous go to the application, and a stored FIN may be next. -/
def TextPost (c : TCPConnection) (r r' : ℕ) (regions : List (Region ℕ)) (c' : TCPConnection) :
    Prop :=
  (r' = r ∧ c' = (c.receiveAt r regions).sendAck) ∨
    (r < r' ∧ c' = ((c.receiveAt r' regions).forwardToApp [r' - r]).advanceOverStoredFin)

section Text

variable {c : TCPConnection} {seg : TCPSegment} {regions : List (Region ℕ)} {p r top : ℕ}

theorem processSegmentText_eq (hs : receivesText c.fsm = true) (hlen : 0 < seg.payloadLength)
    {q : TCPVirtualDataRcvQueue} (hq : c.receiveQueue.insertBytesFromSegment seg = q) :
    c.processSegmentText seg =
      if c.rcvNxt == q.rcvNxt then
        .ok { c with receiveQueue := q, rcvNxt := q.rcvNxt }.receivedOutOfOrderSegment
      else q.extractAll c.assertsEnabled q.rcvNxt >>= fun r ↦
        .ok ({ c with receiveQueue := r.2, rcvNxt := q.rcvNxt }.forwardToApp r.1).advanceOverStoredFin := by
  subst hq
  have hcond : (receivesText c.fsm && decide (0 < seg.payloadLength)) = true := by
    rw [hs, decide_eq_true hlen, Bool.and_self]
  exact if_pos hcond

/-- Text at `p`. No endpoint of a region appears that was not one before, or of the text. -/
theorem processSegmentText_spec (h : Receiving c r regions top) (hs : receivesText c.fsm = true)
    (hseq : seg.sequenceNo = BitVec.ofNat 32 p) (hlen : 0 < seg.payloadLength) (hp : r ≤ p)
    (htop : p + seg.payloadLength ≤ top) (hroom : top < r + 2 ^ 31) {S : Set ℕ}
    (hS : EndpointsIn S regions) (hpS : p ∈ S ∧ p + seg.payloadLength ∈ S) :
    Outcome (c.processSegmentText seg)
      (fun c' ↦ ∃ r' regions', Holds (queueAt r' regions') r' regions' top ∧ r' ≤ top ∧
        (∀ x, Arrived r' regions' x ↔ Arrived r regions x ∨ (p ≤ x ∧ x < p + seg.payloadLength)) ∧
        EndpointsIn S regions' ∧ (r ∈ S → r' ∈ S) ∧ TextPost c r r' regions' c')
      (WrapAssertion c.assertsEnabled top) := by
  have hendpoints : EndpointsIn S (RegionList.insert ⟨p, p + seg.payloadLength⟩ regions) :=
    merge_endpointsIn hpS hS
  rcases hp.lt_or_eq with hlt | rfl
  · have hbehind := h.holds.insert_behind hseq hlen hlt htop hroom
    have hqueue := hbehind.queue
    rw [hqueue] at hbehind
    rw [processSegmentText_eq hs hlen hqueue, if_pos (by rw [h.nxt, queueAt, beq_self_eq_true])]
    exact ⟨r, _, hbehind, by omega, h.holds.arrived_behind hlen, hendpoints, id, .inl ⟨rfl, rfl⟩⟩
  · obtain ⟨r', rest, heq, hle, hr', hrest, hqueue⟩ := h.holds.insert_at hseq hlen htop hroom
    have hne : c.rcvNxt ≠ BitVec.ofNat 32 r' := by
      rw [h.nxt, ne_eq, ofNat_inj (by omega) (by omega)]
      omega
    rw [processSegmentText_eq hs hlen hqueue, if_neg (by simpa [queueAt] using hne)]
    refine (hrest.extractAll (by omega) hr' hroom c.assertsEnabled).bind ?_
    rintro _ rfl
    rw [heq] at hendpoints
    exact ⟨r', rest, hrest, hr', h.holds.arrived_at hlen heq (by omega), hendpoints.tail,
      fun _ ↦ hendpoints.head.2, .inr ⟨by omega, rfl⟩⟩

end Text

/-! ## Facts about the receiving steps -/

section Steps

variable {c c' : TCPConnection} {seg : TCPSegment}

theorem deliveredBytes_append {out : List Output} (hlog : c'.log = c.log ++ out) :
    c'.deliveredBytes = c.deliveredBytes + (out.map Output.bytes).sum := by
  unfold deliveredBytes
  rw [hlog, List.map_append, List.sum_append]

theorem deliveredBytes_receiveAt (c : TCPConnection) (r' : ℕ) (regions' : List (Region ℕ))
    (packets : List ℕ) : ((c.receiveAt r' regions').forwardToApp packets).deliveredBytes =
      c.deliveredBytes + packets.sum := by
  have hlog : ((c.receiveAt r' regions').forwardToApp packets).log = c.log ++ packets.map .data := rfl
  rw [deliveredBytes_append hlog, List.map_map]
  exact congrArg (fun l ↦ c.deliveredBytes + List.sum l) (List.map_id packets)

@[simp] theorem forwardToApp_nil (c : TCPConnection) : c.forwardToApp [] = c := by
  unfold forwardToApp
  rw [List.map_nil, List.append_nil]

theorem advanceOverStoredFin_eq (h : c.finRcvd = false) : c.advanceOverStoredFin = c := by
  unfold advanceOverStoredFin
  rw [h, Bool.false_and, if_neg (by simp)]

theorem processSegmentText_empty (c : TCPConnection) (h : seg.payloadLength = 0) :
    c.processSegmentText seg = .ok c := by
  unfold TCPConnection.processSegmentText
  rw [h, if_neg (by simp)]

theorem processFin_of_not_finBit (c : TCPConnection) (h : seg.finBit = false)
    (event : TCPEventCode) : c.processFin seg event = .ok (c, event) := by
  unfold processFin
  rw [h, if_neg (by simp)]

end Steps

end TCPConnection

end InetManet.TCP
