import InetManet.SCTP.QueueLinks

/-!
# Outstanding bytes

`outstandingBytes` counts, for each path, the chunks that were sent there last and are neither
acknowledged nor given up as lost. A chunk is booked when it is sent and written off once: by a
cumulative acknowledgement, a gap block, reneging, a fast retransmission or a timeout. The booking of
a retransmission goes to the destination the chunk was queued for, and the chunk then counts for the
destination of the packet; the two differ when a bundled SACK redirects the packet.
-/

namespace InetManet.SCTP

open TransitionSystem OrderedMap

/-- What the booking reads of a chunk. A chunk that becomes acknowledged was not outstanding. -/
structure SameBytes (c' c : SCTPSentVariables) : Prop where
  booksize : c'.booksize = c.booksize
  lastDestination : c'.lastDestination = c.lastDestination
  countsAsOutstanding : c'.countsAsOutstanding = c.countsAsOutstanding
  numberOfTransmissions : c'.numberOfTransmissions = c.numberOfTransmissions
  acked : c'.hasBeenAcked = true → c.hasBeenAcked = true ∨ c.countsAsOutstanding = false

theorem SameBytes.refl (c : SCTPSentVariables) : SameBytes c c := ⟨rfl, rfl, rfl, rfl, .inl⟩

theorem Marks.sameBytes {c' c : SCTPSentVariables} (h : Marks c' c) : SameBytes c' c :=
  ⟨h.booksize, h.lastDestination, h.countsAsOutstanding, h.numberOfTransmissions,
    fun hacked ↦ .inl (h.acked hacked)⟩

/-- The bytes of a chunk that are outstanding on path `p`. -/
def SCTPSentVariables.outstandingOn (c : SCTPSentVariables) (p : ℕ) : ℤ :=
  if c.countsAsOutstanding = true ∧ c.lastDestination = p then c.booksize else 0

namespace SCTPSentVariables

variable {c c' : SCTPSentVariables} {p : ℕ}

theorem outstandingOn_nonneg : 0 ≤ c.outstandingOn p := by
  unfold outstandingOn
  split
  · exact Int.natCast_nonneg _
  · exact le_rfl

theorem outstandingOn_of_not (h : c.countsAsOutstanding = false) : c.outstandingOn p = 0 := by
  unfold outstandingOn
  rw [if_neg]
  intro hout
  rw [h] at hout
  cases hout.1

theorem outstandingOn_of_outstanding (h : c.countsAsOutstanding = true) :
    c.outstandingOn p = if c.lastDestination = p then (c.booksize : ℤ) else 0 := by
  unfold outstandingOn
  simp only [h, true_and]

end SCTPSentVariables

theorem SameBytes.outstandingOn {c' c : SCTPSentVariables} (h : SameBytes c' c) (p : ℕ) :
    c'.outstandingOn p = c.outstandingOn p := by
  unfold SCTPSentVariables.outstandingOn
  rw [h.booksize, h.lastDestination, h.countsAsOutstanding]

namespace SCTPSender

open SCTPSentVariables

/-- The bytes of the chunks in `retransmissionQ` that are outstanding on path `p`. -/
def outstandingOn (a : SCTPSender) (p : ℕ) : ℤ :=
  a.retransmissionQ.sum fun i ↦ (a.chunks i).outstandingOn p

/-- Every chunk in `retransmissionQ` has been sent and is there once; it is outstanding only while it
is neither acknowledged nor queued for retransmission; and the counters agree with the queue. -/
structure Booked (a : SCTPSender) : Prop extends Linked a where
  once : ∀ k k' i, a.retransmissionQ.find? k = some i → a.retransmissionQ.find? k' = some i → k' = k
  idle : ∀ k i, a.transmissionQ.find? k = some i → (a.chunks i).countsAsOutstanding = false
  settled : ∀ k i, a.retransmissionQ.find? k = some i → (a.chunks i).hasBeenAcked = true →
    (a.chunks i).countsAsOutstanding = false
  transmitted : ∀ k i, a.retransmissionQ.find? k = some i → (a.chunks i).numberOfTransmissions ≠ 0
  bytes : ∀ p, a.outstandingBytes p = BitVec.ofInt 32 (a.outstandingOn p)

section Counters

variable {m : ℕ → BitVec 32} {f : ℕ → ℤ} {p n : ℕ}

theorem debit_ofInt (hm : ∀ q, m q = BitVec.ofInt 32 (f q)) (q : ℕ) :
    debit m p n q = BitVec.ofInt 32 (f q - if p = q then (n : ℤ) else 0) := by
  unfold debit
  by_cases hq : q = p
  · subst hq
    rw [Function.update_self, if_pos rfl, hm, sub_eq_add_neg, sub_eq_add_neg, BitVec.ofInt_add,
      BitVec.ofInt_neg, BitVec.ofInt_natCast]
  · rw [Function.update_of_ne hq, if_neg (Ne.symm hq), hm, sub_zero]

theorem credit_ofInt (hm : ∀ q, m q = BitVec.ofInt 32 (f q)) (q : ℕ) :
    credit m p n q = BitVec.ofInt 32 (f q + if p = q then (n : ℤ) else 0) := by
  unfold credit
  by_cases hq : q = p
  · subst hq
    rw [Function.update_self, if_pos rfl, hm, BitVec.ofInt_add, BitVec.ofInt_natCast]
  · rw [Function.update_of_ne hq, if_neg (Ne.symm hq), hm, add_zero]

end Counters

section Steps

variable {a b : SCTPSender} {i j k : ℕ}

/-- Flags change, and chunks that are not outstanding may enter `transmissionQ`. -/
theorem Booked.congr (h : Booked a) (hlinked : Linked b)
    (hchunks : ∀ j, SameBytes (b.chunks j) (a.chunks j))
    (hretrans : b.retransmissionQ = a.retransmissionQ)
    (htrans : ∀ k j, b.transmissionQ.find? k = some j →
      a.transmissionQ.find? k = some j ∨ (a.chunks j).countsAsOutstanding = false)
    (hbytes : b.outstandingBytes = a.outstandingBytes) : Booked b := by
  constructor
  · exact hlinked
  · rw [hretrans]
    exact h.once
  · intro k j hj
    rw [(hchunks j).countsAsOutstanding]
    rcases htrans k j hj with hold | hout
    · exact h.idle k j hold
    · exact hout
  · intro k j hj hacked
    rw [hretrans] at hj
    rw [(hchunks j).countsAsOutstanding]
    rcases (hchunks j).acked hacked with hold | hout
    · exact h.settled k j hj hold
    · exact hout
  · intro k j hj
    rw [hretrans] at hj
    rw [(hchunks j).numberOfTransmissions]
    exact h.transmitted k j hj
  · intro p
    unfold outstandingOn
    rw [hbytes, h.bytes, hretrans]
    exact congrArg _ (sum_congr _ fun _ j _ ↦ ((hchunks j).outstandingOn p).symm)

theorem modify_sameBytes {f : SCTPSentVariables → SCTPSentVariables}
    (hf : SameBytes (f (a.chunks i)) (a.chunks i)) (j : ℕ) :
    SameBytes ((a.modify i f).chunks j) (a.chunks j) := by
  by_cases hj : j = i
  · subst hj
    rw [modify_chunks_self]
    exact hf
  · rw [modify_chunks_of_ne a hj]
    exact .refl _

theorem Booked.writeOff (h : Booked a) (hlinked : Linked b) (hi : a.retransmissionQ.find? k = some i)
    (hout : (a.chunks i).countsAsOutstanding = true) (hother : ∀ j, j ≠ i → b.chunks j = a.chunks j)
    (hout' : (b.chunks i).countsAsOutstanding = false)
    (hsent : (b.chunks i).numberOfTransmissions = (a.chunks i).numberOfTransmissions)
    (hretrans : b.retransmissionQ = a.retransmissionQ)
    (htrans : ∀ k j, b.transmissionQ.find? k = some j → a.transmissionQ.find? k = some j ∨ j = i)
    (hbytes : b.outstandingBytes =
      debit a.outstandingBytes (a.chunks i).lastDestination (a.chunks i).booksize) : Booked b := by
  constructor
  · exact hlinked
  · rw [hretrans]
    exact h.once
  · intro k' j hj
    by_cases hji : j = i
    · subst hji
      exact hout'
    · rw [hother j hji]
      rcases htrans k' j hj with hold | heq
      · exact h.idle k' j hold
      · exact absurd heq hji
  · intro k' j hj hacked
    rw [hretrans] at hj
    by_cases hji : j = i
    · subst hji
      exact hout'
    · rw [hother j hji] at hacked ⊢
      exact h.settled k' j hj hacked
  · intro k' j hj
    rw [hretrans] at hj
    by_cases hji : j = i
    · subst hji
      rw [hsent]
      exact h.transmitted k' j hj
    · rw [hother j hji]
      exact h.transmitted k' j hj
  · intro p
    have hsum : b.outstandingOn p = a.outstandingOn p - (a.chunks i).outstandingOn p +
        (b.chunks i).outstandingOn p := by
      unfold outstandingOn
      rw [hretrans]
      apply sum_update _ hi (fun k' hk' ↦ h.once k k' i hi hk')
      intro j hj
      rw [hother j hj]
    rw [hbytes, debit_ofInt h.bytes, hsum, outstandingOn_of_not hout', add_zero,
      outstandingOn_of_outstanding hout]

/-- Chunk `i` leaves `retransmissionQ`; its bytes are written off if they are outstanding. -/
theorem Booked.erase (h : Booked a) (hlinked : Linked b) (hi : a.retransmissionQ.find? k = some i)
    (hother : ∀ j, j ≠ i → b.chunks j = a.chunks j)
    (hretrans : b.retransmissionQ = a.retransmissionQ.erase k)
    (htrans : b.transmissionQ = a.transmissionQ) (hfree : ∀ k, a.transmissionQ.find? k ≠ some i)
    (hbytes : ∀ p, b.outstandingBytes p =
      BitVec.ofInt 32 (a.outstandingOn p - (a.chunks i).outstandingOn p)) : Booked b := by
  have hne : ∀ k' j, b.retransmissionQ.find? k' = some j →
      j ≠ i ∧ a.retransmissionQ.find? k' = some j := by
    intro k' j hj
    rw [hretrans] at hj
    have hold := find?_of_erase hj
    refine ⟨?_, hold⟩
    intro hji
    subst hji
    obtain rfl : k' = k := h.once k k' j hi hold
    rw [find?_erase_self] at hj
    cases hj
  constructor
  · exact hlinked
  · intro k' k'' j hj hj'
    exact h.once k' k'' j (hne k' j hj).2 (hne k'' j hj').2
  · intro k' j hj
    rw [htrans] at hj
    have hji : j ≠ i := by
      intro hji
      subst hji
      exact hfree k' hj
    rw [hother j hji]
    exact h.idle k' j hj
  · intro k' j hj hacked
    obtain ⟨hji, hold⟩ := hne k' j hj
    rw [hother j hji] at hacked ⊢
    exact h.settled k' j hold hacked
  · intro k' j hj
    obtain ⟨hji, hold⟩ := hne k' j hj
    rw [hother j hji]
    exact h.transmitted k' j hold
  · intro p
    have hsum : b.outstandingOn p = a.outstandingOn p - (a.chunks i).outstandingOn p := by
      unfold outstandingOn
      rw [← sum_erase _ hi, hretrans]
      apply sum_congr
      intro k' j hj
      rw [← hretrans] at hj
      rw [hother j (hne k' j hj).1]
    rw [hbytes, hsum]

theorem Booked.dequeueChunk (h : Booked a) (hlinked : Linked (a.dequeueChunk (a.chunks i).tsn i))
    (hi : a.retransmissionQ.find? (a.chunks i).tsn.toNat = some i)
    (hfree : ∀ k, a.transmissionQ.find? k ≠ some i) :
    Booked (a.dequeueChunk (a.chunks i).tsn i) := by
  have hother : ∀ j, j ≠ i → (a.dequeueChunk (a.chunks i).tsn i).chunks j = a.chunks j :=
    fun j hj ↦ dequeueChunk_chunks_of_ne a _ hj
  apply h.erase hlinked hi hother _ (dequeueChunk_frame a _ i).1 hfree
  · intro p
    unfold SCTPSender.dequeueChunk
    dsimp only
    split <;> rename_i hcond
    · rw [Bool.and_eq_true] at hcond
      exact (debit_ofInt h.bytes p).trans (by rw [outstandingOn_of_outstanding hcond.2])
    · have hout : (a.chunks i).countsAsOutstanding = false := by
        cases hacked : (a.chunks i).hasBeenAcked with
        | true => exact h.settled _ i hi hacked
        | false => simpa [hacked] using hcond
      rw [outstandingOn_of_not hout, sub_zero]
      exact h.bytes p
  · unfold SCTPSender.dequeueChunk
    dsimp only
    split <;> rfl

theorem Booked.sackStep (h : Booked a) (hstep : SackStep a b) : Booked b := by
  have hlinked := h.toLinked.sackStep hstep
  cases hstep with
  | mark hmark =>
    exact h.congr hlinked (modify_sameBytes hmark.sameBytes) rfl (fun _ _ ↦ .inl) rfl
  | @ack i hout =>
    exact h.congr hlinked (modify_sameBytes ⟨rfl, rfl, rfl, rfl, fun _ ↦ .inr hout⟩) rfl
      (fun _ _ ↦ .inl) rfl
  | @settle k i hi hout =>
    have hchunk : ((a.modify i (setAcked true)).noLongerOutstanding i).chunks i =
        setOutstanding false (setAcked true (a.chunks i)) := by
      exact (modify_chunks_self ..).trans (by rw [modify_chunks_self])
    apply h.writeOff hlinked hi hout _ _ _ rfl (fun _ _ ↦ .inl)
    · unfold SCTPSender.noLongerOutstanding
      rw [modify_chunks_self]
      rfl
    · intro j hj
      exact (modify_chunks_of_ne _ hj _).trans (modify_chunks_of_ne a hj _)
    · rw [hchunk]
      rfl
    · rw [hchunk]
      rfl
  | @drop k i hi hout =>
    have hchunk : (a.noLongerOutstanding i).chunks i = setOutstanding false (a.chunks i) :=
      modify_chunks_self ..
    apply h.writeOff hlinked hi hout _ _ _ rfl (fun _ _ ↦ .inl) rfl
    · intro j hj
      exact modify_chunks_of_ne a hj _
    · rw [hchunk]
      rfl
    · rw [hchunk]
      rfl
  | unqueue _ _ =>
    exact h.congr hlinked (fun _ ↦ .refl _) rfl (fun _ _ hj ↦ .inl (find?_of_erase hj)) rfl
  | redirect _ =>
    exact h.congr hlinked (modify_sameBytes ⟨rfl, rfl, rfl, rfl, .inl⟩) rfl (fun _ _ ↦ .inl) rfl
  | @queue k i hi _ hout =>
    apply h.congr hlinked (fun _ ↦ .refl _) rfl _ rfl
    intro k' j hj
    change (a.transmissionQ.insert _ i).find? k' = some j at hj
    rw [find?_insert] at hj
    split at hj
    · cases hj
      exact .inr hout
    · exact .inl hj
  | @dequeue k i j hi hfree hj =>
    obtain rfl : j = i := h.found_by_tsn hi hj
    exact h.dequeueChunk hlinked hj (h.not_queued hfree)
  | other => exact h.congr hlinked (fun _ ↦ .refl _) rfl (fun _ _ ↦ .inl) rfl

theorem Booked.sackSteps (h : Booked a) (hsteps : SackSteps a b) : Booked b := by
  induction hsteps with
  | refl => exact h
  | tail _ hstep ih => exact ih.sackStep hstep

/-! ## Timeout -/

/-- A chunk that is queued is written off if it is outstanding. -/
theorem requeueChunk_bytes (a : SCTPSender) (i next : ℕ) :
    ((a.chunks i).countsAsOutstanding = true →
      (a.requeueChunk i next).chunks = (a.modify i (setOutstanding false)).chunks ∧
      (a.requeueChunk i next).outstandingBytes =
        debit a.outstandingBytes (a.chunks i).lastDestination (a.chunks i).booksize) ∧
    ((a.chunks i).countsAsOutstanding = false →
      (a.requeueChunk i next).chunks = a.chunks ∧
      (a.requeueChunk i next).outstandingBytes = a.outstandingBytes) := by
  unfold requeueChunk
  dsimp only
  split <;> rename_i hout
  · refine ⟨fun _ ↦ ⟨rfl, rfl⟩, fun hnot ↦ ?_⟩
    rw [hout] at hnot
    cases hnot
  · exact ⟨fun hyes ↦ absurd hyes hout, fun _ ↦ ⟨rfl, rfl⟩⟩

theorem Booked.requeued (h : Booked a) {path : ℕ} (hi : a.retransmissionQ.find? k = some i)
    (hstep : Requeued path a i b) : Booked b ∧ b.retransmissionQ = a.retransmissionQ := by
  obtain ⟨hlinked, hretrans⟩ := h.toLinked.requeued hi hstep
  refine ⟨?_, hretrans⟩
  cases hstep with
  | skipped _ => exact h
  | @present next j _ _ _ =>
    exact h.congr hlinked (modify_sameBytes ⟨rfl, rfl, rfl, rfl, .inl⟩) rfl (fun _ _ ↦ .inl) rfl
  | @queued next _ _ =>
    obtain ⟨-, htrans, -⟩ := requeueChunk_frame (a.modify i (retarget next)) i next
    have hinsert (k' j : ℕ) (hj : ((a.modify i (retarget next)).requeueChunk i next).transmissionQ.find?
        k' = some j) : a.transmissionQ.find? k' = some j ∨ j = i := by
      rw [htrans, find?_insert] at hj
      split at hj
      · exact .inr (Option.some.inj hj).symm
      · exact .inl hj
    have hretarget : (a.modify i (retarget next)).chunks i = retarget next (a.chunks i) :=
      modify_chunks_self ..
    have hbytes := requeueChunk_bytes (a.modify i (retarget next)) i next
    rw [hretarget] at hbytes
    cases hout : (a.chunks i).countsAsOutstanding with
    | true =>
      obtain ⟨hchunks, hdebit⟩ := hbytes.1 hout
      apply h.writeOff hlinked hi hout _ _ _ hretrans hinsert hdebit
      · intro j hj
        rw [hchunks]
        exact (modify_chunks_of_ne _ hj _).trans (modify_chunks_of_ne a hj _)
      · rw [hchunks, modify_chunks_self]
        rfl
      · rw [hchunks, modify_chunks_self, modify_chunks_self]
        rfl
    | false =>
      obtain ⟨hchunks, hsame⟩ := hbytes.2 hout
      apply h.congr hlinked _ hretrans _ hsame
      · rw [hchunks]
        exact modify_sameBytes ⟨rfl, rfl, rfl, rfl, .inl⟩
      · intro k' j hj
        rcases hinsert k' j hj with hold | rfl
        · exact .inl hold
        · exact .inr hout

theorem Booked.processTimeoutRtx (h : Booked a) (path : ℕ) :
    Outcome (a.processTimeoutRtx path) Booked (fun _ ↦ True) := by
  have hloop : Outcome (a.processTimeoutRtx path)
      (fun b ↦ Booked b ∧ b.retransmissionQ = a.retransmissionQ) (fun _ ↦ True) := by
    refine Outcome.foldlM _ (fun b entry hentry hb ↦ ?_) ⟨h, rfl⟩
    apply (requeue_cases path b entry).post
    intro b' hb'
    have hi : b.retransmissionQ.find? entry.1 = some entry.2 := by
      rw [hb.2]
      exact find?_eq_some_iff.mpr hentry
    obtain ⟨hbooked, hretrans⟩ := hb.1.requeued hi hb'
    exact ⟨hbooked, hretrans.trans hb.2⟩
  exact hloop.post fun _ hb ↦ hb.1

/-! ## Transmission -/

theorem bookRetransmission_chunk (a : SCTPSender) (i : ℕ) :
    ((a.bookRetransmission i).chunks i).booksize = (a.chunks i).booksize ∧
    ((a.bookRetransmission i).chunks i).hasBeenAcked = (a.chunks i).hasBeenAcked ∧
    ((a.bookRetransmission i).chunks i).numberOfTransmissions =
      (a.chunks i).numberOfTransmissions := by
  unfold bookRetransmission
  dsimp only
  split
  · rw [modify_chunks_self]
    exact ⟨rfl, rfl, rfl⟩
  · change (((a.modify i _).modify i setSent).chunks i).booksize = _ ∧
      (((a.modify i _).modify i setSent).chunks i).hasBeenAcked = _ ∧
      (((a.modify i _).modify i setSent).chunks i).numberOfTransmissions = _
    rw [modify_chunks_self, modify_chunks_self]
    exact ⟨rfl, rfl, rfl⟩

/-- A chunk is taken out of `transmissionQ` and sent to the path it was queued for. -/
theorem Booked.resent (h : Booked a) {newDpi : ℕ} (hi : a.transmissionQ.find? k = some i)
    (hunused : ∀ k j, a.retransmissionQ.find? k = some j → (a.chunks j).tsn ≠ a.nextTSN)
    (hacked : (a.chunks i).hasBeenAcked = false) (hdest : (a.chunks i).nextDestination = newDpi)
    (hstep : Handled ((a.removeTrans k i (a.chunks i).nextDestination).bookRetransmission i) i
      newDpi b) : Booked b := by
  have hlinked := h.toLinked.resent hi hunused hstep
  obtain ⟨-, k', hk'⟩ := h.keyed k i hi
  obtain ⟨hretrans, htrans, -, -, -⟩ :=
    bookRetransmission_frame (a.removeTrans k i (a.chunks i).nextDestination) i
  obtain ⟨hbooksize, hacked', htimes⟩ :=
    bookRetransmission_chunk (a.removeTrans k i (a.chunks i).nextDestination) i
  have hbooked : ((a.removeTrans k i (a.chunks i).nextDestination).bookRetransmission
      i).outstandingBytes = credit a.outstandingBytes newDpi (a.chunks i).booksize := by
    have hnot : ¬ ((a.removeTrans k i (a.chunks i).nextDestination).chunks i).hasBeenAcked = true :=
      Bool.eq_false_iff.mp hacked
    unfold bookRetransmission
    dsimp only
    rw [if_neg hnot, ← hdest]
    rfl
  have hother (j : ℕ) (hj : j ≠ i) : b.chunks j = a.chunks j := by
    rw [hstep.other j hj, bookRetransmission_chunks_of_ne _ hj]
    rfl
  have hagain := hstep.again (by rw [htimes]; exact h.transmitted k' i hk')
  have hretrans' : b.retransmissionQ = a.retransmissionQ := hagain.1.trans hretrans
  have hnot : (b.chunks i).hasBeenAcked = false := by
    rw [Bool.eq_false_iff]
    intro hb
    have hold := (hstep.acked hb).1
    rw [hacked'] at hold
    exact Bool.eq_false_iff.mp hacked hold
  constructor
  · exact hlinked
  · rw [hretrans']
    exact h.once
  · intro k'' j hj
    rw [hstep.transmissionQ, htrans] at hj
    have hji : j ≠ i := by
      intro hji
      subst hji
      exact h.taken hi k'' hj
    rw [hother j hji]
    exact h.idle k'' j (find?_of_erase hj)
  · intro k'' j hj hb
    rw [hretrans'] at hj
    by_cases hji : j = i
    · subst hji
      rw [hnot] at hb
      cases hb
    · rw [hother j hji] at hb ⊢
      exact h.settled k'' j hj hb
  · intro k'' j hj
    rw [hretrans'] at hj
    by_cases hji : j = i
    · subst hji
      rw [hstep.transmitted]
      exact Nat.succ_ne_zero _
    · rw [hother j hji]
      exact h.transmitted k'' j hj
  · intro p
    have hsum : b.outstandingOn p = a.outstandingOn p - (a.chunks i).outstandingOn p +
        (b.chunks i).outstandingOn p := by
      unfold outstandingOn
      rw [hretrans']
      apply sum_update _ hk' (fun k'' hk'' ↦ h.once k' k'' i hk' hk'')
      intro j hj
      rw [hother j hj]
    rw [hagain.2, hbooked, credit_ofInt h.bytes, hsum, outstandingOn_of_not (h.idle k i hi), sub_zero,
      outstandingOn_of_outstanding hstep.outstanding, hstep.lastDestination, hstep.booksize, hbooksize]
    rfl

theorem Booked.new (h : Booked a) {len booksize dpi newDpi : ℕ}
    (hunused : ∀ k j, a.retransmissionQ.find? k = some j → (a.chunks j).tsn ≠ a.nextTSN)
    (hstep : Handled (a.newChunk len booksize dpi) a.allocated newDpi b) : Booked b := by
  have hlinked := h.toLinked.new hunused hstep
  have hchunk : (a.newChunk len booksize dpi).chunks a.allocated =
      { len, booksize, initialDestination := dpi } := Function.update_self ..
  have hother (j : ℕ) (hj : j ≠ a.allocated) : b.chunks j = a.chunks j :=
    (hstep.other j hj).trans (Function.update_of_ne hj ..)
  obtain ⟨hfree, hretrans, hbytes⟩ := hstep.first (by rw [hchunk])
  change b.retransmissionQ = a.retransmissionQ.insert (b.chunks a.allocated).tsn.toNat a.allocated
    at hretrans
  change a.retransmissionQ.find? (b.chunks a.allocated).tsn.toNat = none at hfree
  have hcases (k j : ℕ) (hj : b.retransmissionQ.find? k = some j) :
      a.retransmissionQ.find? k = some j ∧ j ≠ a.allocated ∨
        j = a.allocated ∧ k = (b.chunks a.allocated).tsn.toNat := by
    rw [hretrans, find?_insert] at hj
    split at hj <;> rename_i hk
    · exact .inr ⟨(Option.some.inj hj).symm, hk⟩
    · refine .inl ⟨hj, ?_⟩
      intro hji
      subst hji
      exact (h.not_queued_allocated k).1 hj
  constructor
  · exact hlinked
  · intro k k' j hj hj'
    rcases hcases k j hj with ⟨hold, hne⟩ | ⟨heq, hk⟩
    · rcases hcases k' j hj' with ⟨hold', -⟩ | ⟨heq', -⟩
      · exact h.once k k' j hold hold'
      · exact absurd heq' hne
    · rcases hcases k' j hj' with ⟨-, hne'⟩ | ⟨-, hk'⟩
      · exact absurd heq hne'
      · rw [hk, hk']
  · intro k j hj
    rw [hstep.transmissionQ] at hj
    have hji : j ≠ a.allocated := by
      intro hji
      subst hji
      exact (h.not_queued_allocated k).2 hj
    rw [hother j hji]
    exact h.idle k j hj
  · intro k j hj hacked
    rcases hcases k j hj with ⟨hold, hne⟩ | ⟨rfl, -⟩
    · rw [hother j hne] at hacked ⊢
      exact h.settled k j hold hacked
    · have htimes := (hstep.acked hacked).2
      rw [hchunk] at htimes
      exact absurd rfl htimes
  · intro k j hj
    rcases hcases k j hj with ⟨hold, hne⟩ | ⟨rfl, -⟩
    · rw [hother j hne]
      exact h.transmitted k j hold
    · rw [hstep.transmitted]
      exact Nat.succ_ne_zero _
  · intro p
    have hsum : b.outstandingOn p = (b.chunks a.allocated).outstandingOn p + a.outstandingOn p := by
      unfold outstandingOn
      rw [hretrans, sum_insert _ hfree]
      congr 1
      apply sum_congr
      intro k j hj
      rw [hother j]
      intro hji
      subst hji
      exact (h.not_queued_allocated k).1 hj
    rw [hbytes, hsum, outstandingOn_of_outstanding hstep.outstanding, hstep.lastDestination,
      hstep.booksize, add_comm]
    exact credit_ofInt h.bytes p

end Steps

/-! ## Runs -/

/-- Where a turn of `sendAll` sends to, apart from a bundled SACK. -/
def newDpi (a : SCTPSender) (pd : ℕ) (rtxActive : Bool) : ℕ :=
  if rtxActive then pd else a.primaryPathIndex

/-- No packet is redirected by a bundled SACK to a path that chunks wait for in `transmissionQ`, and
the next TSN is not in use. -/
def Direct (a : SCTPSender) : QueueEvent → Prop
  | .turn pd rtxActive sackTo _ _ =>
      (∀ entry ∈ a.retransmissionQ.entries, (a.chunks entry.2).tsn ≠ a.nextTSN) ∧
      (sackTo.getD (a.newDpi pd rtxActive) ≠ a.newDpi pd rtxActive →
        ∀ entry ∈ a.transmissionQ.entries,
          (a.chunks entry.2).nextDestination ≠ sackTo.getD (a.newDpi pd rtxActive))
  | _ => True

instance (a : SCTPSender) (e : QueueEvent) : Decidable (Direct a e) :=
  match e with
  | .turn _ _ _ _ _ => inferInstanceAs (Decidable ((∀ entry ∈ a.retransmissionQ.entries, _) ∧ (_ → _)))
  | .sack _ _ _ _ => inferInstanceAs (Decidable True)
  | .timeoutRtx _ => inferInstanceAs (Decidable True)
  | .pathStatus _ _ => inferInstanceAs (Decidable True)

/-- Nothing has been sent. -/
def Unsent (a : SCTPSender) : Prop :=
  a.retransmissionQ = .empty ∧ a.transmissionQ = .empty ∧ ∀ p, a.outstandingBytes p = 0

variable {a : SCTPSender}

theorem Unsent.booked (h : Unsent a) : Booked a := by
  obtain ⟨hretrans, htrans, hbytes⟩ := h
  constructor
  · exact linked_of_empty hretrans htrans
  · intro k k' i hi
    rw [hretrans] at hi
    cases hi
  · intro k i hi
    rw [htrans] at hi
    cases hi
  · intro k i hi
    rw [hretrans] at hi
    cases hi
  · intro k i hi
    rw [hretrans] at hi
    cases hi
  · intro p
    unfold outstandingOn
    rw [hbytes, hretrans, sum_empty]
    rfl

theorem Booked.queueStep (h : Booked a) (e : QueueEvent) (he : Direct a e) :
    Outcome (a.queueStep e) Booked (fun _ ↦ True) := by
  cases e with
  | turn pd rtxActive sackTo bytes message =>
    have hunused : ∀ k j, a.retransmissionQ.find? k = some j → (a.chunks j).tsn ≠ a.nextTSN :=
      fun k j hj ↦ he.1 (k, j) (find?_eq_some_iff.mp hj)
    apply (sendTurn_cases a pd rtxActive sackTo bytes message).post
    intro b hb
    cases hb with
    | nothing => exact h
    | @resent k i _ hi hdest _ hacked hstep =>
      apply h.resent hi hunused hacked _ hstep
      by_contra hne
      rw [hdest] at hne
      exact he.2 hne (k, i) (find?_eq_some_iff.mp hi) hdest
    | new hstep => exact h.new hunused hstep
  | sack remoteAddr tsna arwnd gaps =>
    exact (processSackArrived_steps a remoteAddr tsna arwnd gaps).post fun _ hb ↦ h.sackSteps hb
  | timeoutRtx path => exact h.processTimeoutRtx path
  | pathStatus paths primary =>
    exact h.congr ⟨h.keyed, h.sent, h.distinct⟩ (fun _ ↦ .refl _) rfl (fun _ _ ↦ .inl) rfl

/-- The counter of every path is the sum over the outstanding chunks that were sent there last, as a
32-bit number and exactly as long as the sum fits; and then the booksize of such a chunk can be
subtracted. -/
def OutstandingCounted (a : SCTPSender) : Prop :=
  (∀ p, a.outstandingBytes p = BitVec.ofInt 32 (a.outstandingOn p) ∧
    (a.outstandingOn p < 2 ^ 32 → ((a.outstandingBytes p).toNat : ℤ) = a.outstandingOn p)) ∧
  ∀ k i, a.retransmissionQ.find? k = some i → (a.chunks i).countsAsOutstanding = true →
    a.outstandingOn (a.chunks i).lastDestination < 2 ^ 32 →
    (a.chunks i).booksize ≤ (a.outstandingBytes (a.chunks i).lastDestination).toNat

theorem Booked.outstandingCounted (h : Booked a) : a.OutstandingCounted := by
  have hexact (p : ℕ) (hlt : a.outstandingOn p < 2 ^ 32) :
      ((a.outstandingBytes p).toNat : ℤ) = a.outstandingOn p := by
    have hnonneg : 0 ≤ a.outstandingOn p := sum_nonneg _ fun _ ↦ outstandingOn_nonneg
    rw [h.bytes, BitVec.toNat_ofInt]
    omega
  refine ⟨fun p ↦ ⟨h.bytes p, hexact p⟩, ?_⟩
  intro k i hi hout hlt
  have hterm : 0 ≤ (a.retransmissionQ.erase k).sum fun j ↦
      (a.chunks j).outstandingOn (a.chunks i).lastDestination :=
    sum_nonneg _ fun _ ↦ outstandingOn_nonneg
  rw [sum_erase _ hi, outstandingOn_of_outstanding hout, if_pos rfl] at hterm
  have heq := hexact _ hlt
  unfold outstandingOn at heq
  omega

/-- In a run in which no retransmission is redirected the bytes are booked right after every event,
and after every write while a SACK is handled. -/
theorem outstanding_counted (h : Reachable Unsent Direct queueStep a) :
    a.OutstandingCounted ∧ ∀ b, SackSteps a b → b.OutstandingCounted := by
  have hbooked : Booked a :=
    h.invariant (fun _ ↦ Unsent.booked) fun s e s' hs he hstep ↦ (hs.queueStep e he).of_eq_ok hstep
  exact ⟨hbooked.outstandingCounted, fun b hb ↦ (hbooked.sackSteps hb).outstandingCounted⟩

/-- An association with two paths. -/
def twoPaths : SCTPSender :=
  { paths := [{ remoteAddress := 1 }, { remoteAddress := 2 }], primaryPathIndex := 1, nextTSN := 5
    lastTsnAck := 4, highestTsnAcked := 4 }

/-- A chunk of 100 bytes is lost and waits for the second path; four more are sent, and SACKs report
the first of these missing, so that it waits for the first path. -/
def lostTwice : List QueueEvent :=
  [.turn 1 false none 1468 (some (800, 100)), .timeoutRtx 1,
    .turn 1 false none 1468 (some (800, 100)), .turn 1 false none 1468 (some (800, 100)),
    .turn 1 false none 1468 (some (800, 100)), .turn 1 false none 1468 (some (800, 100)),
    .sack 1 4 65535 [⟨7, 7⟩], .sack 1 4 65535 [⟨7, 8⟩], .sack 1 4 65535 [⟨7, 9⟩]]

theorem outstanding_counted_lostTwice :
    ∃ a, run queueStep twoPaths (lostTwice ++ [.turn 2 true none 1468 none]) = .ok a ∧
      a.outstandingBytes 2 = 100 ∧ a.OutstandingCounted := by
  have hbytes : (run queueStep twoPaths (lostTwice ++ [.turn 2 true none 1468 none])).toOption.map
      (·.outstandingBytes 2) = some 100 := by
    decide +kernel
  cases ha : run queueStep twoPaths (lostTwice ++ [.turn 2 true none 1468 none]) with
  | error e =>
    rw [ha] at hbytes
    cases hbytes
  | ok a =>
    rw [ha] at hbytes
    have hreach : Reachable Unsent Direct queueStep a :=
      Reachable.of_run (.start ⟨rfl, rfl, fun _ ↦ rfl⟩) _ (by decide +kernel) ha
    exact ⟨a, rfl, Option.some.inj hbytes, (outstanding_counted hreach).1⟩

/-- A SACK for the first path is bundled with a retransmission on the second: the chunk that waits
for the first path is booked there and counts for the second. -/
theorem outstanding_misplaced_lostTwice :
    ∃ a, Reachable Unsent (fun _ _ ↦ True) queueStep a ∧ a.outstandingBytes 1 = 100 ∧
      a.outstandingOn 1 = 0 ∧ a.outstandingBytes 2 = 0 ∧ a.outstandingOn 2 = 100 ∧
      ¬ a.OutstandingCounted := by
  have hbytes : (run queueStep twoPaths (lostTwice ++ [.turn 2 true (some 1) 1468 none])).toOption.map
      (fun a ↦ (a.outstandingBytes 1, a.outstandingOn 1, a.outstandingBytes 2, a.outstandingOn 2)) =
      some (100, 0, 0, 100) := by
    decide +kernel
  cases ha : run queueStep twoPaths (lostTwice ++ [.turn 2 true (some 1) 1468 none]) with
  | error e =>
    rw [ha] at hbytes
    cases hbytes
  | ok a =>
    rw [ha] at hbytes
    have hreach : Reachable Unsent (fun _ _ ↦ True) queueStep a :=
      Reachable.of_run (.start ⟨rfl, rfl, fun _ ↦ rfl⟩) _ (by decide +kernel) ha
    have hvalues := Option.some.inj hbytes
    simp only [Prod.mk.injEq] at hvalues
    obtain ⟨hbytes1, hon1, hbytes2, hon2⟩ := hvalues
    refine ⟨a, hreach, hbytes1, hon1, hbytes2, hon2, fun h ↦ ?_⟩
    have hcounted := (h.1 1).1
    rw [hbytes1, hon1] at hcounted
    exact absurd hcounted (by decide)

end SCTPSender

end InetManet.SCTP
