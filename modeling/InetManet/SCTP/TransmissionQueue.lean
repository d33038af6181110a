import InetManet.SCTP.QueueLinks

/-!
# Counters of the transmission queue

`roomTransQ` and `bookedTransQ` count, for each path, the chunks in `transmissionQ` that are to be
sent there. SACKs and `sendAll` keep them right. A timeout does not: it adds the booksize of a chunk
twice, and it changes the destination of a chunk before it looks whether the chunk is queued already.
-/

namespace InetManet.SCTP

open TransitionSystem OrderedMap

/-- What the counters and the queues read of a chunk. -/
structure SameBooking (c' c : SCTPSentVariables) : Prop where
  tsn : c'.tsn = c.tsn
  len : c'.len = c.len
  booksize : c'.booksize = c.booksize
  nextDestination : c'.nextDestination = c.nextDestination

theorem SameBooking.refl (c : SCTPSentVariables) : SameBooking c c := ⟨rfl, rfl, rfl, rfl⟩

theorem SameBooking.room {c' c : SCTPSentVariables} (h : SameBooking c' c) : c'.room = c.room := by
  unfold SCTPSentVariables.room
  rw [h.len]

theorem Marks.sameBooking {c' c : SCTPSentVariables} (h : Marks c' c) : SameBooking c' c :=
  ⟨h.tsn, h.len, h.booksize, h.nextDestination⟩

namespace SCTPSender

open SCTPSentVariables

/-- The sum of `f` over the chunks that wait in `transmissionQ` for path `p`. -/
def queuedFor (a : SCTPSender) (f : SCTPSentVariables → ℕ) (p : ℕ) : ℤ :=
  a.transmissionQ.sum fun i ↦ if (a.chunks i).nextDestination = p then (f (a.chunks i) : ℤ) else 0

section Sums

variable {a b : SCTPSender} {f : SCTPSentVariables → ℕ} {m : ℕ → BitVec 32} {i k p q : ℕ}

theorem queuedFor_congr (htrans : b.transmissionQ = a.transmissionQ)
    (hnext : ∀ k i, a.transmissionQ.find? k = some i →
      (b.chunks i).nextDestination = (a.chunks i).nextDestination)
    (hf : ∀ k i, a.transmissionQ.find? k = some i → f (b.chunks i) = f (a.chunks i)) :
    b.queuedFor f p = a.queuedFor f p := by
  unfold queuedFor
  rw [htrans]
  apply sum_congr
  intro k i hi
  rw [hnext k i hi, hf k i hi]

theorem ofInt_sub_natCast (x : ℤ) (n : ℕ) :
    BitVec.ofInt 32 (x - n) = BitVec.ofInt 32 x - BitVec.ofNat 32 n := by
  rw [eq_sub_iff_add_eq, ← BitVec.ofInt_natCast, ← BitVec.ofInt_add, sub_add_cancel]

theorem debit_queuedFor (hm : ∀ q, m q = BitVec.ofInt 32 (a.queuedFor f q))
    (hi : a.transmissionQ.find? k = some i) (hp : (a.chunks i).nextDestination = p) (q : ℕ) :
    debit m p (f (a.chunks i)) q = BitVec.ofInt 32
      (queuedFor { a with transmissionQ := a.transmissionQ.erase k } f q) := by
  have hsum : queuedFor { a with transmissionQ := a.transmissionQ.erase k } f q = a.queuedFor f q -
      if (a.chunks i).nextDestination = q then (f (a.chunks i) : ℤ) else 0 := sum_erase _ hi
  unfold debit
  rw [hsum, hp]
  by_cases hq : q = p
  · subst hq
    rw [Function.update_self, if_pos rfl, hm, ofInt_sub_natCast]
  · rw [Function.update_of_ne hq, if_neg (Ne.symm hq), hm, sub_zero]

theorem credit_queuedFor (hm : ∀ q, m q = BitVec.ofInt 32 (a.queuedFor f q))
    (hk : a.transmissionQ.find? k = none) (hp : (a.chunks i).nextDestination = p) (q : ℕ) :
    credit m p (f (a.chunks i)) q = BitVec.ofInt 32
      (queuedFor { a with transmissionQ := a.transmissionQ.insert k i } f q) := by
  have hsum : queuedFor { a with transmissionQ := a.transmissionQ.insert k i } f q =
      (if (a.chunks i).nextDestination = q then (f (a.chunks i) : ℤ) else 0) + a.queuedFor f q :=
    sum_insert _ hk
  unfold credit
  rw [hsum, hp]
  by_cases hq : q = p
  · subst hq
    rw [Function.update_self, if_pos rfl, hm, BitVec.ofInt_add, BitVec.ofInt_natCast, add_comm]
  · rw [Function.update_of_ne hq, if_neg (Ne.symm hq), hm, zero_add]

end Sums

/-- The queues belong together, and the counters agree with them. -/
structure Counted (a : SCTPSender) : Prop extends Linked a where
  room : ∀ p, a.roomTransQ p = BitVec.ofInt 32 (a.queuedFor SCTPSentVariables.room p)
  booked : ∀ p, a.bookedTransQ p = BitVec.ofInt 32 (a.queuedFor booksize p)

section Steps

variable {a b : SCTPSender} {i j k : ℕ}

theorem Counted.congr (h : Counted a) (hchunks : ∀ j, SameBooking (b.chunks j) (a.chunks j))
    (halloc : b.allocated = a.allocated) (hretrans : b.retransmissionQ = a.retransmissionQ)
    (htrans : b.transmissionQ = a.transmissionQ) (hroom : b.roomTransQ = a.roomTransQ)
    (hbooked : b.bookedTransQ = a.bookedTransQ) : Counted b := by
  constructor
  · apply h.toLinked.congr (fun j ↦ (hchunks j).tsn) halloc hretrans
    intro k i hi
    rwa [htrans] at hi
  · intro p
    rw [hroom, h.room, queuedFor_congr htrans (fun _ i _ ↦ (hchunks i).nextDestination)
      fun _ i _ ↦ (hchunks i).room]
  · intro p
    rw [hbooked, h.booked, queuedFor_congr htrans (fun _ i _ ↦ (hchunks i).nextDestination)
      fun _ i _ ↦ (hchunks i).booksize]

theorem modify_sameBooking {f : SCTPSentVariables → SCTPSentVariables}
    (hf : SameBooking (f (a.chunks i)) (a.chunks i)) (j : ℕ) :
    SameBooking ((a.modify i f).chunks j) (a.chunks j) := by
  by_cases hj : j = i
  · subst hj
    rw [modify_chunks_self]
    exact hf
  · rw [modify_chunks_of_ne a hj]
    exact .refl _

section

variable (h : Counted a)

include h

theorem Counted.modify {f : SCTPSentVariables → SCTPSentVariables}
    (hf : SameBooking (f (a.chunks i)) (a.chunks i)) : Counted (a.modify i f) :=
  h.congr (modify_sameBooking hf) rfl rfl rfl rfl rfl

theorem Counted.noLongerOutstanding (i : ℕ) : Counted (a.noLongerOutstanding i) :=
  h.congr (modify_sameBooking (f := setOutstanding false) ⟨rfl, rfl, rfl, rfl⟩) rfl rfl rfl rfl rfl

theorem Counted.removeTrans (hi : a.transmissionQ.find? k = some i) :
    Counted (a.removeTrans k i (a.chunks i).nextDestination) :=
  ⟨h.toLinked.congr (fun _ ↦ rfl) rfl rfl fun _ _ ↦ find?_of_erase, debit_queuedFor h.room hi rfl,
    debit_queuedFor h.booked hi rfl⟩

theorem Counted.insertTrans (hi : a.retransmissionQ.find? k = some i)
    (hfree : a.transmissionQ.find? (a.chunks i).tsn.toNat = none) :
    Counted (a.insertTrans i (a.chunks i).nextDestination) :=
  ⟨h.toLinked.insertTrans hi _, credit_queuedFor h.room hfree rfl, credit_queuedFor h.booked hfree rfl⟩

theorem Counted.detached (hlinked : Linked b)
    (hfree : ∀ k, a.transmissionQ.find? k ≠ some i) (hother : ∀ j, j ≠ i → b.chunks j = a.chunks j)
    (htrans : b.transmissionQ = a.transmissionQ) (hroom : b.roomTransQ = a.roomTransQ)
    (hbooked : b.bookedTransQ = a.bookedTransQ) : Counted b := by
  have hsame : ∀ k j, a.transmissionQ.find? k = some j → b.chunks j = a.chunks j := by
    intro k j hj
    apply hother j
    rintro rfl
    exact hfree k hj
  constructor
  · exact hlinked
  · intro p
    rw [hroom, h.room, queuedFor_congr htrans (fun k j hj ↦ by rw [hsame k j hj])
      fun k j hj ↦ by rw [hsame k j hj]]
  · intro p
    rw [hbooked, h.booked, queuedFor_congr htrans (fun k j hj ↦ by rw [hsame k j hj])
      fun k j hj ↦ by rw [hsame k j hj]]

theorem Counted.sackStep (hstep : SackStep a b) : Counted b := by
  have hlinked := h.toLinked.sackStep hstep
  cases hstep with
  | mark hmark => exact h.modify hmark.sameBooking
  | ack _ => exact h.modify ⟨rfl, rfl, rfl, rfl⟩
  | @settle k i _ _ =>
    have hacked : Counted (a.modify i (setAcked true)) := h.modify ⟨rfl, rfl, rfl, rfl⟩
    exact hacked.noLongerOutstanding i
  | drop _ _ => exact h.noLongerOutstanding _
  | @unqueue k i j hi hj =>
    obtain rfl : j = i := h.queued_by_tsn hi hj
    exact h.removeTrans hj
  | redirect hfree =>
    exact h.detached hlinked (h.not_queued hfree) (fun j hj ↦ modify_chunks_of_ne a hj _) rfl rfl rfl
  | queue hi hfree _ => exact h.insertTrans hi hfree
  | @dequeue k i j hi hfree hj =>
    obtain rfl : j = i := h.found_by_tsn hi hj
    obtain ⟨htrans, hroom, hbooked⟩ := dequeueChunk_frame a (a.chunks j).tsn j
    exact h.detached hlinked (h.not_queued hfree) (fun _ hne ↦ dequeueChunk_chunks_of_ne a _ hne)
      htrans hroom hbooked
  | other => exact h.congr (fun _ ↦ .refl _) rfl rfl rfl rfl rfl

theorem Counted.sackSteps (hsteps : SackSteps a b) : Counted b := by
  induction hsteps with
  | refl => exact h
  | tail _ hstep ih => exact ih.sackStep hstep

end

/-! ## Transmission -/

theorem bookRetransmission_sameBooking (a : SCTPSender) (i j : ℕ) :
    SameBooking ((a.bookRetransmission i).chunks j) (a.chunks j) := by
  have hcount := modify_sameBooking (a := a) (i := i) (f := fun c ↦ { c with
    numberOfRetransmissions := c.numberOfRetransmissions + 1 }) ⟨rfl, rfl, rfl, rfl⟩ j
  unfold bookRetransmission
  dsimp only
  split
  · exact hcount
  · have hsent := modify_sameBooking (a := a.modify i fun c ↦ { c with
      numberOfRetransmissions := c.numberOfRetransmissions + 1 }) (i := i) (f := setSent)
      ⟨rfl, rfl, rfl, rfl⟩ j
    exact ⟨hsent.tsn.trans hcount.tsn, hsent.len.trans hcount.len,
      hsent.booksize.trans hcount.booksize, hsent.nextDestination.trans hcount.nextDestination⟩

theorem Counted.resent (h : Counted a) {newDpi : ℕ} (hi : a.transmissionQ.find? k = some i)
    (hunused : ∀ k j, a.retransmissionQ.find? k = some j → (a.chunks j).tsn ≠ a.nextTSN)
    (hstep : Handled ((a.removeTrans k i (a.chunks i).nextDestination).bookRetransmission i) i
      newDpi b) : Counted b := by
  have hlinked := h.toLinked.resent hi hunused hstep
  have hsame := bookRetransmission_sameBooking (a.removeTrans k i (a.chunks i).nextDestination) i
  obtain ⟨hretrans, htrans, hroom, hbooked, -⟩ :=
    bookRetransmission_frame (a.removeTrans k i (a.chunks i).nextDestination) i
  have halloc := bookRetransmission_allocated (a.removeTrans k i (a.chunks i).nextDestination) i
  have hbook := (h.removeTrans hi).congr hsame halloc hretrans htrans hroom hbooked
  apply hbook.detached hlinked _ hstep.other hstep.transmissionQ hstep.roomTransQ hstep.bookedTransQ
  intro k'
  rw [htrans]
  exact h.taken hi k'

theorem Counted.new (h : Counted a) {len booksize dpi newDpi : ℕ}
    (hunused : ∀ k j, a.retransmissionQ.find? k = some j → (a.chunks j).tsn ≠ a.nextTSN)
    (hstep : Handled (a.newChunk len booksize dpi) a.allocated newDpi b) : Counted b := by
  have hfree : ∀ k, a.transmissionQ.find? k ≠ some a.allocated := fun k ↦ (h.not_queued_allocated k).2
  have hnew : Counted (a.newChunk len booksize dpi) :=
    h.detached (h.toLinked.newChunk len booksize dpi) hfree (fun j hj ↦ Function.update_of_ne hj ..)
      rfl rfl rfl
  exact hnew.detached (h.toLinked.new hunused hstep) hfree hstep.other hstep.transmissionQ
    hstep.roomTransQ hstep.bookedTransQ

end Steps

/-! ## Timeout -/

/-- The chunks that a timeout of `path` finds are queued already, for the path that it chooses for
them now. -/
def Harmless (a : SCTPSender) (path : ℕ) : Prop :=
  ∀ entry ∈ a.retransmissionQ.entries, timedOut path (a.chunks entry.2) = true →
    (a.transmissionQ.find? (a.chunks entry.2).tsn.toNat).isSome = true ∧
    (a.getNextDestination (setFastRetransmitted false (setGapReports 0 (a.chunks entry.2)))).toOption =
      some (a.chunks entry.2).nextDestination

instance (a : SCTPSender) (path : ℕ) : Decidable (a.Harmless path) :=
  inferInstanceAs (Decidable (∀ entry ∈ a.retransmissionQ.entries, _))

/-- What a harmless timeout leaves as it is. -/
structure Untouched (a b : SCTPSender) : Prop where
  chunks : ∀ j, setFastRetransmitted false (setGapReports 0 (b.chunks j)) =
    setFastRetransmitted false (setGapReports 0 (a.chunks j))
  transmissionQ : b.transmissionQ = a.transmissionQ
  paths : b.paths = a.paths
  primaryPathIndex : b.primaryPathIndex = a.primaryPathIndex

section Timeout

variable {a b : SCTPSender} {path : ℕ} {entry : ℕ × ℕ}

theorem Untouched.field (h : Untouched a b) {α : Type} (f : SCTPSentVariables → α)
    (hf : ∀ c, f (setFastRetransmitted false (setGapReports 0 c)) = f c) (j : ℕ) :
    f (b.chunks j) = f (a.chunks j) := by
  rw [← hf, h.chunks j, hf]

theorem Counted.requeued (h : Counted b) (hsame : Untouched a b) (hharmless : a.Harmless path)
    (hentry : entry ∈ a.retransmissionQ.entries) {b' : SCTPSender}
    (hstep : Requeued path b entry.2 b') : Counted b' ∧ Untouched a b' := by
  have htsn := hsame.field SCTPSentVariables.tsn (fun _ ↦ rfl) entry.2
  have hout := hsame.field (timedOut path) (fun _ ↦ rfl) entry.2
  have hnext := hsame.field SCTPSentVariables.nextDestination (fun _ ↦ rfl) entry.2
  cases hstep with
  | skipped _ => exact ⟨h, hsame⟩
  | @present next j hb hdest _ =>
    rw [hout] at hb
    obtain ⟨-, hsome⟩ := hharmless entry hentry hb
    have hget : b.getNextDestination (setFastRetransmitted false (setGapReports 0
        (b.chunks entry.2))) = a.getNextDestination (setFastRetransmitted false (setGapReports 0
        (a.chunks entry.2))) := by
      rw [hsame.chunks entry.2]
      unfold getNextDestination
      rw [hsame.paths, hsame.primaryPathIndex]
    rw [hget] at hdest
    rw [hdest, ← hnext] at hsome
    have hsame_next : next = (b.chunks entry.2).nextDestination := Option.some.inj hsome
    constructor
    · exact h.modify ⟨rfl, rfl, rfl, hsame_next⟩
    · refine ⟨fun j ↦ ?_, hsame.transmissionQ, hsame.paths, hsame.primaryPathIndex⟩
      by_cases hj : j = entry.2
      · subst hj
        rw [modify_chunks_self, ← hsame.chunks]
        unfold retarget
        rw [hsame_next]
        rfl
      · rw [modify_chunks_of_ne b hj]
        exact hsame.chunks j
  | queued hb hfree =>
    rw [hout] at hb
    rw [hsame.transmissionQ, htsn] at hfree
    obtain ⟨hsome, -⟩ := hharmless entry hentry hb
    rw [hfree] at hsome
    cases hsome

theorem Counted.processTimeoutRtx (h : Counted a) (hharmless : a.Harmless path) :
    Outcome (a.processTimeoutRtx path) Counted (fun _ ↦ True) := by
  have hloop : Outcome (a.processTimeoutRtx path) (fun b ↦ Counted b ∧ Untouched a b)
      (fun _ ↦ True) := by
    refine Outcome.foldlM _ (fun b entry hentry hb ↦ ?_) ⟨h, fun _ ↦ rfl, rfl, rfl, rfl⟩
    apply (requeue_cases path b entry).post
    intro b' hb'
    exact hb.1.requeued hb.2 hharmless hentry hb'
  exact hloop.post fun _ hb ↦ hb.1

end Timeout

/-! ## Runs -/

/-- Timeouts are harmless, and the next TSN is not in use. -/
def Accountable (a : SCTPSender) : QueueEvent → Prop
  | .turn _ _ _ _ _ => ∀ entry ∈ a.retransmissionQ.entries, (a.chunks entry.2).tsn ≠ a.nextTSN
  | .timeoutRtx path => a.Harmless path
  | _ => True

instance (a : SCTPSender) (e : QueueEvent) : Decidable (Accountable a e) :=
  match e with
  | .turn _ _ _ _ _ => inferInstanceAs (Decidable (∀ entry ∈ a.retransmissionQ.entries, _))
  | .sack _ _ _ _ => inferInstanceAs (Decidable True)
  | .timeoutRtx path => inferInstanceAs (Decidable (a.Harmless path))
  | .pathStatus _ _ => inferInstanceAs (Decidable True)

/-- Nothing has been sent or counted. -/
def Unused (a : SCTPSender) : Prop :=
  a.retransmissionQ = .empty ∧ a.transmissionQ = .empty ∧ ∀ p, a.roomTransQ p = 0 ∧ a.bookedTransQ p = 0

variable {a : SCTPSender}

theorem Unused.counted (h : Unused a) : Counted a := by
  obtain ⟨hretrans, htrans, hcounters⟩ := h
  have hsum (f : SCTPSentVariables → ℕ) (p : ℕ) : a.queuedFor f p = 0 := by
    unfold queuedFor
    rw [htrans]
    exact sum_empty _
  constructor
  · exact linked_of_empty hretrans htrans
  · intro p
    rw [hsum, (hcounters p).1]
    rfl
  · intro p
    rw [hsum, (hcounters p).2]
    rfl

theorem Counted.queueStep (h : Counted a) (e : QueueEvent) (he : Accountable a e) :
    Outcome (a.queueStep e) Counted (fun _ ↦ True) := by
  cases e with
  | turn pd rtxActive sackTo bytes message =>
    have hunused : ∀ k j, a.retransmissionQ.find? k = some j → (a.chunks j).tsn ≠ a.nextTSN :=
      fun k j hj ↦ he (k, j) (find?_eq_some_iff.mp hj)
    apply (sendTurn_cases a pd rtxActive sackTo bytes message).post
    intro b hb
    cases hb with
    | nothing => exact h
    | resent hi _ _ _ hstep => exact h.resent hi hunused hstep
    | new hstep => exact h.new hunused hstep
  | sack remoteAddr tsna arwnd gaps =>
    exact (processSackArrived_steps a remoteAddr tsna arwnd gaps).post fun _ hb ↦ h.sackSteps hb
  | timeoutRtx path => exact h.processTimeoutRtx he
  | pathStatus paths primary => exact ⟨⟨h.keyed, h.sent, h.distinct⟩, h.room, h.booked⟩

/-- The counters of every path are the sums over the chunks that wait for it, as 32-bit numbers and
exactly as long as these fit, and no chunk is in `transmissionQ` twice. -/
def TransQCounted (a : SCTPSender) : Prop :=
  (∀ p, a.bookedTransQ p = BitVec.ofInt 32 (a.queuedFor booksize p) ∧
    (a.queuedFor booksize p < 2 ^ 32 → ((a.bookedTransQ p).toNat : ℤ) = a.queuedFor booksize p)) ∧
  (∀ p, a.roomTransQ p = BitVec.ofInt 32 (a.queuedFor SCTPSentVariables.room p) ∧
    (a.queuedFor SCTPSentVariables.room p < 2 ^ 32 →
      ((a.roomTransQ p).toNat : ℤ) = a.queuedFor SCTPSentVariables.room p)) ∧
  ∀ k k' i, a.transmissionQ.find? k = some i → a.transmissionQ.find? k' = some i → k = k'

theorem toNat_ofInt_queuedFor (f : SCTPSentVariables → ℕ) (p : ℕ) (h : a.queuedFor f p < 2 ^ 32) :
    ((BitVec.ofInt 32 (a.queuedFor f p)).toNat : ℤ) = a.queuedFor f p := by
  have hnonneg : 0 ≤ a.queuedFor f p := by
    apply sum_nonneg
    intro i
    split
    · exact Int.natCast_nonneg _
    · exact le_rfl
  rw [BitVec.toNat_ofInt]
  omega

/-- In a run in which timeouts are harmless the counters are right. -/
theorem transQ_counted (h : Reachable Unused Accountable queueStep a) : a.TransQCounted := by
  have hcounted : Counted a :=
    h.invariant (fun _ ↦ Unused.counted) fun s e s' hs he hstep ↦ (hs.queueStep e he).of_eq_ok hstep
  refine ⟨fun p ↦ ⟨hcounted.booked p, fun hlt ↦ ?_⟩, fun p ↦ ⟨hcounted.room p, fun hlt ↦ ?_⟩, ?_⟩
  · rw [hcounted.booked p]
    exact toNat_ofInt_queuedFor _ p hlt
  · rw [hcounted.room p]
    exact toNat_ofInt_queuedFor _ p hlt
  · intro k k' i hk hk'
    exact (hcounted.keyed k i hk).1.symm.trans (hcounted.keyed k' i hk').1

/-- Four chunks are sent; three SACKs report the first one missing, so that it is queued for
retransmission. -/
def fastRtx : List QueueEvent :=
  [.turn 1 false none 1468 (some (800, 100)), .turn 1 false none 1468 (some (800, 100)),
    .turn 1 false none 1468 (some (800, 100)), .turn 1 false none 1468 (some (800, 100)),
    .sack 1 4 65535 [⟨6, 6⟩], .sack 1 4 65535 [⟨6, 7⟩], .sack 1 4 65535 [⟨6, 8⟩]]

theorem transQ_counted_fastRtx :
    ∃ a, run queueStep (onePath 5) fastRtx = .ok a ∧ a.bookedTransQ 1 = 100 ∧ a.TransQCounted := by
  have hbooked : (run queueStep (onePath 5) fastRtx).toOption.map (·.bookedTransQ 1) = some 100 := by
    decide +kernel
  cases ha : run queueStep (onePath 5) fastRtx with
  | error e =>
    rw [ha] at hbooked
    cases hbooked
  | ok a =>
    rw [ha] at hbooked
    have hreach : Reachable Unused Accountable queueStep a :=
      Reachable.of_run (.start ⟨rfl, rfl, fun _ ↦ ⟨rfl, rfl⟩⟩) fastRtx (by decide +kernel) ha
    exact ⟨a, rfl, Option.some.inj hbooked, transQ_counted hreach⟩

/-- After a timeout the chunk of 100 bytes is counted with 200. -/
theorem bookedTransQ_twice_timeout :
    ∃ a, Reachable Unused (fun _ _ ↦ True) queueStep a ∧ a.bookedTransQ 1 = 200 ∧
      a.queuedFor booksize 1 = 100 ∧ ¬ a.TransQCounted := by
  obtain ⟨a, ha⟩ : ∃ a, run queueStep (onePath 5) (sendAgain.take 2) = .ok a := ⟨_, rfl⟩
  have hreach : Reachable Unused (fun _ _ ↦ True) queueStep a :=
    Reachable.of_run (.start ⟨rfl, rfl, fun _ ↦ ⟨rfl, rfl⟩⟩) (sendAgain.take 2) (by decide) ha
  cases ha
  refine ⟨_, hreach, rfl, by decide, fun h ↦ ?_⟩
  exact absurd (h.1 1).1 (by decide)

end SCTPSender

end InetManet.SCTP
