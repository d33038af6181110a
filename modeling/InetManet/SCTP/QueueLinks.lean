import InetManet.SCTP.TsnAssignment

/-!
# How the two queues belong together

A chunk that waits in `transmissionQ` is in `retransmissionQ` as well, and both queues find it by its
TSN. `Linked` is kept by SACKs, timeouts and transmissions as long as a chunk that is sent for the
first time does not get a TSN that is still in use; what counts chunks or bytes rests on it.
-/

namespace InetManet.SCTP

open TransitionSystem OrderedMap

namespace SCTPSender

open SCTPSentVariables

/-- A chunk in `transmissionQ` is in `retransmissionQ` too, and is found by its TSN. -/
structure Linked (a : SCTPSender) : Prop where
  keyed : ∀ k i, a.transmissionQ.find? k = some i →
    (a.chunks i).tsn.toNat = k ∧ ∃ k', a.retransmissionQ.find? k' = some i
  sent : ∀ k i, a.retransmissionQ.find? k = some i →
    i < a.allocated ∧ ((a.chunks i).tsn.toNat = k ∨ k = 0)
  distinct : ∀ k k' i j, a.retransmissionQ.find? k = some i → a.retransmissionQ.find? k' = some j →
    (a.chunks i).tsn = (a.chunks j).tsn → i = j

section Steps

variable {a b : SCTPSender} {i j k : ℕ}

theorem linked_of_empty (hretrans : a.retransmissionQ = .empty) (htrans : a.transmissionQ = .empty) :
    Linked a := by
  constructor
  · intro k i hi
    rw [htrans] at hi
    cases hi
  · intro k i hi
    rw [hretrans] at hi
    cases hi
  · intro k k' i j hi
    rw [hretrans] at hi
    cases hi

section

variable (h : Linked a)

include h

/-- Chunks keep their TSNs, and some may leave `transmissionQ`. -/
theorem Linked.congr (htsn : ∀ j, (b.chunks j).tsn = (a.chunks j).tsn)
    (halloc : b.allocated = a.allocated) (hretrans : b.retransmissionQ = a.retransmissionQ)
    (htrans : ∀ k i, b.transmissionQ.find? k = some i → a.transmissionQ.find? k = some i) :
    Linked b := by
  constructor
  · intro k i hi
    rw [hretrans, htsn]
    exact h.keyed k i (htrans k i hi)
  · intro k i hi
    rw [hretrans] at hi
    rw [halloc, htsn]
    exact h.sent k i hi
  · intro k k' i j hi hj heq
    rw [hretrans] at hi hj
    rw [htsn, htsn] at heq
    exact h.distinct k k' i j hi hj heq

theorem Linked.modify {f : SCTPSentVariables → SCTPSentVariables}
    (hf : (f (a.chunks i)).tsn = (a.chunks i).tsn) : Linked (a.modify i f) :=
  h.congr (modify_tsn hf) rfl rfl fun _ _ hi ↦ hi

theorem Linked.noLongerOutstanding (i : ℕ) : Linked (a.noLongerOutstanding i) :=
  h.congr (modify_tsn (f := setOutstanding false) rfl) rfl rfl fun _ _ hi ↦ hi

theorem Linked.insertTrans (hi : a.retransmissionQ.find? k = some i) (p : ℕ) :
    Linked (a.insertTrans i p) := by
  refine ⟨fun k' j hj ↦ ?_, h.sent, h.distinct⟩
  change (a.transmissionQ.insert _ i).find? k' = some j at hj
  rw [find?_insert] at hj
  split at hj <;> rename_i hk'
  · cases hj
    exact ⟨hk'.symm, k, hi⟩
  · exact h.keyed k' j hj

/-- A chunk that is not found by its TSN is not in the queue at all. -/
theorem Linked.not_queued (hfree : a.transmissionQ.find? (a.chunks i).tsn.toNat = none) (k : ℕ) :
    a.transmissionQ.find? k ≠ some i := by
  intro hi
  rw [(h.keyed k i hi).1, hi] at hfree
  cases hfree

theorem Linked.detached (hfree : ∀ k, a.transmissionQ.find? k ≠ some i)
    (hother : ∀ j, j ≠ i → b.chunks j = a.chunks j) (htrans : b.transmissionQ = a.transmissionQ)
    (hretrans : ∀ k j, j ≠ i → a.retransmissionQ.find? k = some j →
      ∃ k', b.retransmissionQ.find? k' = some j) (hsent : ∀ k j, b.retransmissionQ.find? k = some j →
      j < b.allocated ∧ ((b.chunks j).tsn.toNat = k ∨ k = 0))
    (hdistinct : ∀ k k' j j', b.retransmissionQ.find? k = some j →
      b.retransmissionQ.find? k' = some j' → (b.chunks j).tsn = (b.chunks j').tsn → j = j') :
    Linked b := by
  refine ⟨fun k j hj ↦ ?_, hsent, hdistinct⟩
  rw [htrans] at hj
  have hne : j ≠ i := by
    intro hji
    subst hji
    exact hfree k hj
  obtain ⟨hkey, k', hk'⟩ := h.keyed k j hj
  rw [hother j hne]
  exact ⟨hkey, hretrans k' j hne hk'⟩

/-- The chunk that is looked up by the TSN of chunk `i` is chunk `i`. -/
theorem Linked.found_by_tsn (hi : a.retransmissionQ.find? k = some i)
    (hj : a.retransmissionQ.find? (a.chunks i).tsn.toNat = some j) : j = i := by
  rcases (h.sent _ j hj).2 with htsn | hzero
  · exact h.distinct _ _ j i hj hi (BitVec.eq_of_toNat_eq htsn)
  · have hk : k = 0 := by
      rcases (h.sent k i hi).2 with htsn | hk
      · omega
      · exact hk
    rw [hzero] at hj
    rw [hk, hj] at hi
    exact Option.some.inj hi

theorem Linked.queued_by_tsn (hi : a.retransmissionQ.find? k = some i)
    (hj : a.transmissionQ.find? (a.chunks i).tsn.toNat = some j) : j = i := by
  obtain ⟨htsn, k', hk'⟩ := h.keyed _ j hj
  exact h.distinct k' k j i hk' hi (BitVec.eq_of_toNat_eq htsn)

/-- Chunk `j`, which is not in `transmissionQ`, leaves `retransmissionQ`. -/
theorem Linked.erase (hj : a.retransmissionQ.find? k = some j)
    (hfree : ∀ k, a.transmissionQ.find? k ≠ some j) :
    Linked { a with retransmissionQ := a.retransmissionQ.erase k } := by
  refine h.detached hfree (fun _ _ ↦ rfl) rfl ?_ ?_ ?_
  · intro k' j' hne hj'
    refine ⟨k', ?_⟩
    rw [find?_erase_of_ne]
    · exact hj'
    · intro hk
      subst hk
      rw [hj] at hj'
      exact hne (Option.some.inj hj').symm
  · intro k' j' hj'
    exact h.sent k' j' (find?_of_erase hj')
  · intro k' k'' i' j' hi' hj' heq
    exact h.distinct k' k'' i' j' (find?_of_erase hi') (find?_of_erase hj') heq

theorem Linked.sackStep (hstep : SackStep a b) : Linked b := by
  cases hstep with
  | mark hmark => exact h.modify hmark.tsn
  | ack _ => exact h.modify rfl
  | @settle k i _ _ =>
    have hacked : Linked (a.modify i (setAcked true)) := h.modify rfl
    exact hacked.noLongerOutstanding i
  | drop _ _ => exact h.noLongerOutstanding _
  | unqueue _ _ => exact h.congr (fun _ ↦ rfl) rfl rfl fun _ _ hi ↦ find?_of_erase hi
  | redirect _ => exact h.modify rfl
  | queue hi _ _ => exact h.insertTrans hi _
  | @dequeue k i j hi hfree hj =>
    obtain rfl : j = i := h.found_by_tsn hi hj
    have herased := h.erase hj (h.not_queued hfree)
    unfold dequeueChunk
    dsimp only
    split
    · exact (herased.noLongerOutstanding j).modify rfl
    · exact herased
  | other => exact h.congr (fun _ ↦ rfl) rfl rfl fun _ _ hi ↦ hi

end

theorem dequeueChunk_chunks_of_ne (a : SCTPSender) (tsn : BitVec 32) {i j : ℕ} (hj : j ≠ i) :
    (a.dequeueChunk tsn i).chunks j = a.chunks j := by
  unfold dequeueChunk
  dsimp only
  split
  · exact (modify_chunks_of_ne _ hj _).trans (modify_chunks_of_ne a hj (setOutstanding false))
  · rfl

theorem dequeueChunk_frame (a : SCTPSender) (tsn : BitVec 32) (i : ℕ) :
    (a.dequeueChunk tsn i).transmissionQ = a.transmissionQ ∧
    (a.dequeueChunk tsn i).roomTransQ = a.roomTransQ ∧
    (a.dequeueChunk tsn i).bookedTransQ = a.bookedTransQ := by
  unfold dequeueChunk
  dsimp only
  split <;> exact ⟨rfl, rfl, rfl⟩

theorem requeueChunk_frame (a : SCTPSender) (i next : ℕ) :
    (a.requeueChunk i next).retransmissionQ = a.retransmissionQ ∧
    (a.requeueChunk i next).transmissionQ =
      a.transmissionQ.insert (a.chunks i).tsn.toNat i ∧
    ∀ j, ((a.requeueChunk i next).chunks j).tsn = (a.chunks j).tsn := by
  unfold requeueChunk
  dsimp only
  split
  · exact ⟨rfl, rfl, modify_tsn (f := setOutstanding false) rfl⟩
  · exact ⟨rfl, rfl, fun _ ↦ rfl⟩

theorem Linked.requeued (h : Linked a) {path : ℕ} (hi : a.retransmissionQ.find? k = some i)
    (hstep : Requeued path a i b) : Linked b ∧ b.retransmissionQ = a.retransmissionQ := by
  cases hstep with
  | skipped _ => exact ⟨h, rfl⟩
  | present _ _ _ => exact ⟨h.modify rfl, rfl⟩
  | @queued next hout hfree =>
    have hmarked : Linked (a.modify i (retarget next)) := h.modify rfl
    obtain ⟨hretrans, htrans, htsn⟩ := requeueChunk_frame (a.modify i (retarget next)) i next
    have hqueued : Requeued path a i ((a.modify i (retarget next)).requeueChunk i next) :=
      .queued hout hfree
    have halloc := hqueued.allocated
    have hinsert := hmarked.insertTrans hi next
    exact ⟨hinsert.congr htsn halloc hretrans fun k' j hj ↦ by rwa [htrans] at hj, hretrans⟩

/-! ## Transmission -/

/-- The entries of `retransmissionQ` after chunk `i` has been sent. -/
theorem Handled.retransmissionQ_cases {newDpi : ℕ} (hstep : Handled a i newDpi b) :
    (∀ k j, b.retransmissionQ.find? k = some j →
      a.retransmissionQ.find? k = some j ∨ j = i ∧ k = (b.chunks i).tsn.toNat) ∧
    ∀ k j, a.retransmissionQ.find? k = some j → b.retransmissionQ.find? k = some j := by
  by_cases hfirst : (a.chunks i).numberOfTransmissions = 0
  · obtain ⟨hnone, hinsert, -⟩ := hstep.first hfirst
    rw [hinsert]
    constructor
    · intro k j hj
      rw [find?_insert] at hj
      split at hj <;> rename_i hk
      · exact .inr ⟨(Option.some.inj hj).symm, hk⟩
      · exact .inl hj
    · intro k j hj
      rw [find?_insert_of_ne]
      · exact hj
      · rintro rfl
        rw [hnone] at hj
        cases hj
  · rw [(hstep.again hfirst).1]
    exact ⟨fun _ _ ↦ .inl, fun _ _ ↦ id⟩

/-- The chunk in cell `i`, which is not in `transmissionQ`, is sent. If it gets a TSN, no chunk in
`retransmissionQ` has that TSN. -/
theorem Linked.handled (h : Linked a) {newDpi : ℕ} (hstep : Handled a i newDpi b)
    (hfree : ∀ k, a.transmissionQ.find? k ≠ some i) (hi : i < a.allocated)
    (hunused : ∀ k j, a.retransmissionQ.find? k = some j → (a.chunks j).tsn ≠ a.nextTSN)
    (hknown : (a.chunks i).tsn ≠ 0 → ∃ k, a.retransmissionQ.find? k = some i) : Linked b := by
  obtain ⟨hcases, hkept⟩ := hstep.retransmissionQ_cases
  have htsn := hstep.tsn
  have hold : ∀ k j, j ≠ i → b.retransmissionQ.find? k = some j →
      a.retransmissionQ.find? k = some j := by
    intro k j hne hj
    rcases hcases k j hj with hold | ⟨rfl, -⟩
    · exact hold
    · exact absurd rfl hne
  -- another chunk does not have the TSN of chunk `i`
  have hother : ∀ k j, j ≠ i → b.retransmissionQ.find? k = some j →
      (b.chunks j).tsn ≠ (b.chunks i).tsn := by
    intro k j hne hj heq
    have hj' := hold k j hne hj
    rw [hstep.other j hne, htsn] at heq
    split at heq <;> rename_i hzero
    · exact hunused k j hj' heq
    · obtain ⟨k', hk'⟩ := hknown hzero
      exact hne (h.distinct k k' j i hj' hk' heq)
  refine h.detached hfree hstep.other hstep.transmissionQ
    (fun k j _ hj ↦ ⟨k, hkept k j hj⟩) (fun k j hj ↦ ?_) fun k k' j j' hj hj' heq ↦ ?_
  · rw [hstep.allocated]
    by_cases hne : j = i
    · subst hne
      refine ⟨hi, ?_⟩
      rcases hcases k j hj with hk | ⟨-, hk⟩
      · rw [htsn]
        split <;> rename_i hzero
        · have hkey := (h.sent k j hk).2
          rw [hzero] at hkey
          right
          rcases hkey with hkey | hkey
          · exact hkey.symm
          · exact hkey
        · exact (h.sent k j hk).2
      · exact .inl hk.symm
    · rw [hstep.other j hne]
      exact h.sent k j (hold k j hne hj)
  · by_cases hne : j = i
    · by_cases hne' : j' = i
      · rw [hne, hne']
      · subst hne
        exact absurd heq.symm (hother k' j' hne' hj')
    · by_cases hne' : j' = i
      · subst hne'
        exact absurd heq (hother k j hne hj)
      · rw [hstep.other j hne, hstep.other j' hne'] at heq
        exact h.distinct k k' j j' (hold k j hne hj) (hold k' j' hne' hj') heq

theorem bookRetransmission_frame (a : SCTPSender) (i : ℕ) :
    (a.bookRetransmission i).retransmissionQ = a.retransmissionQ ∧
    (a.bookRetransmission i).transmissionQ = a.transmissionQ ∧
    (a.bookRetransmission i).roomTransQ = a.roomTransQ ∧
    (a.bookRetransmission i).bookedTransQ = a.bookedTransQ ∧
    (a.bookRetransmission i).nextTSN = a.nextTSN := by
  unfold bookRetransmission
  dsimp only
  split <;> exact ⟨rfl, rfl, rfl, rfl, rfl⟩

theorem bookRetransmission_chunks_of_ne (a : SCTPSender) {i j : ℕ} (hj : j ≠ i) :
    (a.bookRetransmission i).chunks j = a.chunks j := by
  unfold bookRetransmission
  dsimp only
  split
  · exact modify_chunks_of_ne a hj _
  · exact (modify_chunks_of_ne _ hj setSent).trans (modify_chunks_of_ne a hj _)

/-- Chunk `i` is taken out of `transmissionQ`, where it is nowhere else. -/
theorem Linked.taken (h : Linked a) (hi : a.transmissionQ.find? k = some i) (k' : ℕ) :
    (a.transmissionQ.erase k).find? k' ≠ some i := by
  intro hfound
  have hold := find?_of_erase hfound
  obtain rfl : k' = k := (h.keyed k' i hold).1.symm.trans (h.keyed k i hi).1
  rw [find?_erase_self] at hfound
  cases hfound

theorem Linked.resent (h : Linked a) {p newDpi : ℕ} (hi : a.transmissionQ.find? k = some i)
    (hunused : ∀ k j, a.retransmissionQ.find? k = some j → (a.chunks j).tsn ≠ a.nextTSN)
    (hstep : Handled ((a.removeTrans k i p).bookRetransmission i) i newDpi b) : Linked b := by
  obtain ⟨-, k', hk'⟩ := h.keyed k i hi
  obtain ⟨hretrans, htrans, -, -, hnext⟩ := bookRetransmission_frame (a.removeTrans k i p) i
  have halloc := bookRetransmission_allocated (a.removeTrans k i p) i
  have htsn : ∀ j, (((a.removeTrans k i p).bookRetransmission i).chunks j).tsn = (a.chunks j).tsn := by
    intro j
    by_cases hj : j = i
    · subst hj
      exact bookRetransmission_tsn (a.removeTrans k j p) j
    · rw [bookRetransmission_chunks_of_ne _ hj]
      rfl
  have hbooked : Linked ((a.removeTrans k i p).bookRetransmission i) := by
    apply h.congr htsn halloc hretrans
    intro k'' j hj
    rw [htrans] at hj
    exact find?_of_erase hj
  apply hbooked.handled hstep
  · intro k''
    rw [htrans]
    exact h.taken hi k''
  · rw [halloc]
    exact (h.sent k' i hk').1
  · intro k'' j hj
    rw [hretrans] at hj
    rw [htsn, hnext]
    exact hunused k'' j hj
  · intro _
    rw [hretrans]
    exact ⟨k', hk'⟩

theorem newChunk_chunks_of_lt (a : SCTPSender) (len booksize dpi : ℕ) (hj : j < a.allocated) :
    (a.newChunk len booksize dpi).chunks j = a.chunks j :=
  Function.update_of_ne hj.ne ..

theorem Linked.not_queued_allocated (h : Linked a) (k : ℕ) :
    a.retransmissionQ.find? k ≠ some a.allocated ∧ a.transmissionQ.find? k ≠ some a.allocated := by
  constructor
  · intro hk
    exact absurd (h.sent k _ hk).1 (lt_irrefl _)
  · intro hk
    obtain ⟨-, k', hk'⟩ := h.keyed k _ hk
    exact absurd (h.sent k' _ hk').1 (lt_irrefl _)

theorem Linked.newChunk (h : Linked a) (len booksize dpi : ℕ) :
    Linked (a.newChunk len booksize dpi) := by
  have hold (k j : ℕ) (hj : a.retransmissionQ.find? k = some j) :
      (a.newChunk len booksize dpi).chunks j = a.chunks j :=
    newChunk_chunks_of_lt a len booksize dpi (h.sent k j hj).1
  refine h.detached (fun k ↦ (h.not_queued_allocated k).2) (fun j hj ↦ Function.update_of_ne hj ..)
    rfl ?_ ?_ ?_
  · intro k j _ hj
    exact ⟨k, hj⟩
  · intro k j hj
    rw [hold k j hj]
    exact ⟨Nat.lt_succ_of_lt (h.sent k j hj).1, (h.sent k j hj).2⟩
  · intro k k' j j' hj hj' heq
    rw [hold k j hj, hold k' j' hj'] at heq
    exact h.distinct k k' j j' hj hj' heq

theorem Linked.new (h : Linked a) {len booksize dpi newDpi : ℕ}
    (hunused : ∀ k j, a.retransmissionQ.find? k = some j → (a.chunks j).tsn ≠ a.nextTSN)
    (hstep : Handled (a.newChunk len booksize dpi) a.allocated newDpi b) : Linked b := by
  apply (h.newChunk len booksize dpi).handled hstep (fun k ↦ (h.not_queued_allocated k).2)
    (Nat.lt_succ_self _)
  · intro k j hj
    rw [newChunk_chunks_of_lt a len booksize dpi (h.sent k j hj).1]
    exact hunused k j hj
  · intro hzero
    have hchunk : (a.newChunk len booksize dpi).chunks a.allocated =
        { len, booksize, initialDestination := dpi } := Function.update_self ..
    rw [hchunk] at hzero
    exact absurd rfl hzero

end Steps

end SCTPSender

end InetManet.SCTP
