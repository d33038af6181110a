import InetManet.SCTP.QueueSteps

/-!
# TSN assignment

A chunk gets the next TSN when it is sent and its `tsn` is `0`. That is meant for new chunks, but a
chunk that has been given the TSN `0`, at the start or when the numbers wrap around, gets another
one when it is sent again. Apart from that the `n`-th chunk keeps the `n`-th TSN.
-/

namespace InetManet.SCTP

open TransitionSystem OrderedMap

namespace SCTPSender

open SCTPSentVariables

/-- The `n`-th chunk has the `n`-th TSN, and both queues are keyed by it. -/
structure Numbered (first : BitVec 32) (a : SCTPSender) : Prop where
  tsn : ∀ i < a.allocated, (a.chunks i).tsn = first + BitVec.ofNat 32 i
  next : a.nextTSN = first + BitVec.ofNat 32 a.allocated
  sent : ∀ k i, a.retransmissionQ.find? k = some i → i < a.allocated ∧ (a.chunks i).tsn.toNat = k
  waiting : ∀ k i, a.transmissionQ.find? k = some i → i < a.allocated

section Steps

variable {a b : SCTPSender} {first : BitVec 32} {i k : ℕ}

theorem modify_tsn {f : SCTPSentVariables → SCTPSentVariables}
    (hf : (f (a.chunks i)).tsn = (a.chunks i).tsn) (j : ℕ) :
    ((a.modify i f).chunks j).tsn = (a.chunks j).tsn := by
  by_cases hj : j = i
  · subst hj
    rw [modify_chunks_self, hf]
  · rw [modify_chunks_of_ne a hj]

theorem Numbered.congr (h : Numbered first a) (htsn : ∀ j, (b.chunks j).tsn = (a.chunks j).tsn)
    (halloc : b.allocated = a.allocated) (hnext : b.nextTSN = a.nextTSN)
    (hsent : ∀ k i, b.retransmissionQ.find? k = some i → a.retransmissionQ.find? k = some i ∨
      i < b.allocated ∧ (b.chunks i).tsn.toNat = k)
    (hwaiting : ∀ k i, b.transmissionQ.find? k = some i → i < a.allocated) : Numbered first b := by
  constructor
  · intro i hi
    rw [halloc] at hi
    rw [htsn]
    exact h.tsn i hi
  · rw [hnext, halloc]
    exact h.next
  · intro k i hi
    rcases hsent k i hi with hold | hnew
    · rw [halloc, htsn]
      exact h.sent k i hold
    · exact hnew
  · rw [halloc]
    exact hwaiting

theorem Numbered.modify (h : Numbered first a) {f : SCTPSentVariables → SCTPSentVariables}
    (hf : (f (a.chunks i)).tsn = (a.chunks i).tsn) : Numbered first (a.modify i f) :=
  h.congr (modify_tsn hf) rfl rfl (fun _ _ ↦ .inl) h.waiting

theorem waiting_insertTrans (h : Numbered first a) (hi : i < a.allocated) {k j : ℕ} {key : ℕ}
    (hj : (a.transmissionQ.insert key i).find? k = some j) : j < a.allocated := by
  rw [find?_insert] at hj
  split at hj
  · cases hj
    exact hi
  · exact h.waiting k j hj

theorem find?_of_erase {m : OrderedMap ℕ ℕ} {key k j : ℕ} (h : (m.erase key).find? k = some j) :
    m.find? k = some j := by
  rw [find?_erase] at h
  split at h
  · cases h
  · exact h

theorem Numbered.sackStep (h : Numbered first a) (hstep : SackStep a b) : Numbered first b := by
  cases hstep with
  | mark hmark => exact h.modify hmark.tsn
  | ack _ => exact h.modify rfl
  | @settle k i _ _ =>
    have hacked : Numbered first (a.modify i (setAcked true)) := h.modify rfl
    exact (hacked.modify (f := setOutstanding false) rfl).congr (fun _ ↦ rfl) rfl rfl (fun _ _ ↦ .inl)
      h.waiting
  | drop _ _ =>
    exact (h.modify (f := setOutstanding false) rfl).congr (fun _ ↦ rfl) rfl rfl (fun _ _ ↦ .inl)
      h.waiting
  | unqueue _ _ =>
    exact h.congr (fun _ ↦ rfl) rfl rfl (fun _ _ ↦ .inl) fun k j hj ↦ h.waiting k j (find?_of_erase hj)
  | redirect _ => exact h.modify rfl
  | queue hi _ _ =>
    exact h.congr (fun _ ↦ rfl) rfl rfl (fun _ _ ↦ .inl)
      fun k j hj ↦ waiting_insertTrans h (h.sent _ _ hi).1 hj
  | @dequeue k i j _ _ _ =>
    unfold dequeueChunk
    dsimp only
    have herased : Numbered first { a with retransmissionQ := a.retransmissionQ.erase (a.chunks i).tsn.toNat } :=
      h.congr (fun _ ↦ rfl) rfl rfl (fun k j hj ↦ .inl (find?_of_erase hj)) h.waiting
    split
    · have hdrop := (herased.modify (i := j) (f := setOutstanding false) rfl).modify (i := j)
        (f := setAcked true) rfl
      exact hdrop.congr (fun _ ↦ rfl) rfl rfl (fun _ _ ↦ .inl) h.waiting
    · exact herased
  | other => exact h.congr (fun _ ↦ rfl) rfl rfl (fun _ _ ↦ .inl) h.waiting

theorem Numbered.sackSteps (h : Numbered first a) (hsteps : SackSteps a b) : Numbered first b := by
  induction hsteps with
  | refl => exact h
  | tail _ hstep ih => exact ih.sackStep hstep

theorem Numbered.requeueChunk (h : Numbered first a) (hi : i < a.allocated) (next : ℕ) :
    Numbered first (a.requeueChunk i next) := by
  have hqueued : ∀ k j, (a.transmissionQ.insert (a.chunks i).tsn.toNat i).find? k = some j →
      j < a.allocated := fun k j hj ↦ waiting_insertTrans h hi hj
  unfold SCTPSender.requeueChunk
  dsimp only
  split
  · exact h.congr (modify_tsn rfl) rfl rfl (fun _ _ ↦ .inl) hqueued
  · exact h.congr (fun _ ↦ rfl) rfl rfl (fun _ _ ↦ .inl) hqueued

theorem Numbered.requeued {path : ℕ} (h : Numbered first a) (hi : i < a.allocated)
    (hstep : Requeued path a i b) : Numbered first b := by
  cases hstep with
  | skipped _ => exact h
  | present _ _ _ => exact h.modify rfl
  | queued _ _ => exact (h.modify rfl).requeueChunk hi _

theorem SackStep.allocated (hstep : SackStep a b) : b.allocated = a.allocated := by
  cases hstep with
  | dequeue _ _ _ =>
    unfold dequeueChunk
    dsimp only
    split <;> rfl
  | _ => rfl

theorem Requeued.allocated {path : ℕ} (hstep : Requeued path a i b) :
    b.allocated = a.allocated := by
  cases hstep with
  | queued _ _ =>
    unfold SCTPSender.requeueChunk
    dsimp only
    split <;> rfl
  | _ => rfl

theorem processTimeoutRtx_allocated (a : SCTPSender) (path : ℕ) :
    Outcome (a.processTimeoutRtx path) (·.allocated = a.allocated) (fun _ ↦ True) :=
  Outcome.foldlM _ (fun s entry _ hs ↦ (requeue_cases path s entry).post
    fun _ hb ↦ hb.allocated.trans hs) rfl

theorem Numbered.processTimeoutRtx (h : Numbered first a) (path : ℕ) :
    Outcome (a.processTimeoutRtx path) (Numbered first) (fun _ ↦ True) := by
  have hloop : Outcome (a.processTimeoutRtx path)
      (fun b ↦ Numbered first b ∧ b.allocated = a.allocated) (fun _ ↦ True) := by
    refine Outcome.foldlM _ (fun s entry hentry hs ↦ ?_) ⟨h, rfl⟩
    have hfound := find?_eq_some_iff.mpr hentry
    have hlt : entry.2 < s.allocated := by
      rw [hs.2]
      exact (h.sent _ _ hfound).1
    apply (requeue_cases path s entry).post
    intro b hb
    exact ⟨hs.1.requeued hlt hb, hb.allocated.trans hs.2⟩
  exact hloop.post fun _ hb ↦ hb.1

/-- The entries of `retransmissionQ` after a chunk has been sent. -/
theorem Handled.sent {newDpi : ℕ} (hstep : Handled a i newDpi b) (hi : i < b.allocated) {k j : ℕ}
    (hj : b.retransmissionQ.find? k = some j) :
    a.retransmissionQ.find? k = some j ∨ j < b.allocated ∧ (b.chunks j).tsn.toNat = k := by
  by_cases hfirst : (a.chunks i).numberOfTransmissions = 0
  · obtain ⟨-, hinsert, -⟩ := hstep.first hfirst
    rw [hinsert, find?_insert] at hj
    split at hj <;> rename_i hk
    · cases hj
      exact .inr ⟨hi, hk.symm⟩
    · exact .inl hj
  · rw [(hstep.again hfirst).1] at hj
    exact .inl hj

theorem Numbered.resent (h : Numbered first a) {newDpi : ℕ} (hi : i < a.allocated)
    (hzero : (a.chunks i).tsn ≠ 0) (hstep : Handled a i newDpi b) : Numbered first b := by
  have htsn : ∀ j, (b.chunks j).tsn = (a.chunks j).tsn := by
    intro j
    by_cases hj : j = i
    · subst hj
      rw [hstep.tsn, if_neg hzero]
    · rw [hstep.other j hj]
  have hnext := hstep.nextTSN
  rw [if_neg hzero] at hnext
  have hlt : i < b.allocated := by
    rw [hstep.allocated]
    exact hi
  have hwaiting := h.waiting
  rw [← hstep.transmissionQ] at hwaiting
  exact h.congr htsn hstep.allocated hnext (fun _ _ hj ↦ hstep.sent hlt hj) hwaiting

theorem Numbered.new (h : Numbered first a) {len booksize dpi newDpi : ℕ}
    (hstep : Handled (a.newChunk len booksize dpi) a.allocated newDpi b) : Numbered first b := by
  have hnew : (a.newChunk len booksize dpi).chunks a.allocated =
      { len, booksize, initialDestination := dpi } := Function.update_self ..
  have hzero : ((a.newChunk len booksize dpi).chunks a.allocated).tsn = 0 := by rw [hnew]
  have htsn := hstep.tsn
  have hnext := hstep.nextTSN
  rw [if_pos hzero] at htsn hnext
  have halloc : b.allocated = a.allocated + 1 := hstep.allocated
  have hold : ∀ j, j ≠ a.allocated → b.chunks j = a.chunks j := by
    intro j hj
    rw [hstep.other j hj]
    exact Function.update_of_ne hj ..
  constructor
  · intro j hj
    by_cases hlast : j = a.allocated
    · subst hlast
      exact htsn.trans h.next
    · rw [hold j hlast]
      exact h.tsn j (by omega)
  · rw [hnext, halloc, BitVec.ofNat_add, ← add_assoc, ← h.next]
    rfl
  · intro k j hj
    rcases hstep.sent (by omega) hj with hfound | hsent
    · obtain ⟨hlt, hkey⟩ := h.sent k j hfound
      refine ⟨by omega, ?_⟩
      rw [hold j (by omega)]
      exact hkey
    · exact hsent
  · intro k j hj
    rw [hstep.transmissionQ] at hj
    have := h.waiting k j hj
    omega

theorem Numbered.bookRetransmission (h : Numbered first a) (i : ℕ) :
    Numbered first (a.bookRetransmission i) := by
  unfold SCTPSender.bookRetransmission
  dsimp only
  have hcount : Numbered first (a.modify i fun c ↦ { c with
      numberOfRetransmissions := c.numberOfRetransmissions + 1 }) := h.modify rfl
  split
  · exact hcount
  · exact (hcount.modify (f := setSent) rfl).congr (fun _ ↦ rfl) rfl rfl (fun _ _ ↦ .inl) h.waiting

theorem bookRetransmission_tsn (a : SCTPSender) (i : ℕ) :
    ((a.bookRetransmission i).chunks i).tsn = (a.chunks i).tsn := by
  unfold bookRetransmission
  dsimp only
  split
  · rw [modify_chunks_self]
  · show (((a.modify i _).modify i setSent).chunks i).tsn = _
    rw [modify_chunks_self, modify_chunks_self]
    rfl

theorem bookRetransmission_allocated (a : SCTPSender) (i : ℕ) :
    (a.bookRetransmission i).allocated = a.allocated := by
  unfold bookRetransmission
  dsimp only
  split <;> rfl

/-- The turn does not send a chunk with TSN `0` again: none is queued for the address that the
packet goes to, or it does not fit. -/
def KeepsTsn (a : SCTPSender) : QueueEvent → Prop
  | .turn pd rtxActive sackTo bytes _ => ∀ entry ∈ a.transmissionQ.entries,
      (a.chunks entry.2).tsn = 0 →
      (a.chunks entry.2).nextDestination = sackTo.getD (if rtxActive then pd else a.primaryPathIndex) →
      bytes < (a.chunks entry.2).room
  | _ => True

instance (a : SCTPSender) (e : QueueEvent) : Decidable (KeepsTsn a e) :=
  match e with
  | .turn _ _ _ _ _ => inferInstanceAs (Decidable (∀ entry ∈ a.transmissionQ.entries, _))
  | .sack _ _ _ _ => inferInstanceAs (Decidable True)
  | .timeoutRtx _ => inferInstanceAs (Decidable True)
  | .pathStatus _ _ => inferInstanceAs (Decidable True)

theorem Numbered.queueStep (h : Numbered first a) (e : QueueEvent) (hkeeps : KeepsTsn a e) :
    Outcome (a.queueStep e) (Numbered first) (fun _ ↦ True) := by
  cases e with
  | turn pd rtxActive sackTo bytes message =>
    apply (sendTurn_cases a pd rtxActive sackTo bytes message).post
    intro b hb
    cases hb with
    | nothing => exact h
    | @resent k i _ hfound hdest hfits _ hstep =>
      have hzero : (a.chunks i).tsn ≠ 0 := by
        intro hzero
        have := hkeeps (k, i) (find?_eq_some_iff.mp hfound) hzero hdest
        dsimp only at this
        omega
      have hremoved : Numbered first (a.removeTrans k i (a.chunks i).nextDestination) :=
        h.congr (fun _ ↦ rfl) rfl rfl (fun _ _ ↦ .inl)
          fun k j hj ↦ h.waiting k j (find?_of_erase hj)
      refine (hremoved.bookRetransmission i).resent ?_ ?_ hstep
      · rw [bookRetransmission_allocated]
        exact h.waiting k i hfound
      · rw [bookRetransmission_tsn]
        exact hzero
    | new hstep => exact h.new hstep
  | sack remoteAddr tsna arwnd gaps =>
    exact (processSackArrived_steps a remoteAddr tsna arwnd gaps).post fun _ hb ↦ h.sackSteps hb
  | timeoutRtx path => exact h.processTimeoutRtx path
  | pathStatus paths primary => exact ⟨h.tsn, h.next, h.sent, h.waiting⟩

end Steps

/-! ## Runs -/

/-- Nothing has been sent, and the first chunk will get the TSN `first`. -/
def Fresh (first : BitVec 32) (a : SCTPSender) : Prop :=
  a.allocated = 0 ∧ a.retransmissionQ.entries = [] ∧ a.transmissionQ.entries = [] ∧ a.nextTSN = first

instance (first : BitVec 32) (a : SCTPSender) : Decidable (Fresh first a) :=
  inferInstanceAs (Decidable (_ ∧ _))

variable {a : SCTPSender} {first : BitVec 32}

theorem find?_of_entries_nil {m : OrderedMap ℕ ℕ} (h : m.entries = []) {k i : ℕ} :
    m.find? k ≠ some i := by
  intro hi
  rw [find?_eq_some_iff, h] at hi
  cases hi

theorem Fresh.numbered (h : Fresh first a) : Numbered first a := by
  obtain ⟨halloc, hretrans, htrans, hnext⟩ := h
  constructor
  · intro i hi
    omega
  · rw [hnext, halloc]
    simp
  · intro k i hi
    exact absurd hi (find?_of_entries_nil hretrans)
  · intro k i hi
    exact absurd hi (find?_of_entries_nil htrans)

theorem queueStep_allocated (a : SCTPSender) (e : QueueEvent) :
    Outcome (a.queueStep e) (fun a' ↦ a.allocated ≤ a'.allocated) (fun _ ↦ True) := by
  cases e with
  | turn pd rtxActive sackTo bytes message =>
    apply (sendTurn_cases a pd rtxActive sackTo bytes message).post
    intro b hb
    cases hb with
    | nothing => exact le_rfl
    | resent _ _ _ _ hstep =>
      rw [hstep.allocated, bookRetransmission_allocated]
      exact le_rfl
    | new hstep =>
      rw [hstep.allocated]
      exact Nat.le_succ _
  | sack remoteAddr tsna arwnd gaps =>
    apply (processSackArrived_steps a remoteAddr tsna arwnd gaps).post
    intro b hb
    induction hb with
    | refl => exact le_rfl
    | tail _ hstep ih =>
      rw [hstep.allocated]
      exact ih
  | timeoutRtx path => exact (processTimeoutRtx_allocated a path).post fun _ hb ↦ hb.ge
  | pathStatus paths primary => exact le_rfl

/-- In a run in which no chunk with TSN `0` is sent again, the `n`-th chunk has the `n`-th TSN, then
and in every later state; two chunks in `retransmissionQ` never share a TSN, nor do any two of the
first `2 ^ 32` chunks. -/
theorem tsns_stable (h : Reachable (Fresh first) KeepsTsn queueStep a) :
    (∀ i < a.allocated, (a.chunks i).tsn = first + BitVec.ofNat 32 i) ∧
    (∀ e a', KeepsTsn a e → a.queueStep e = .ok a' →
      ∀ i < a.allocated, (a'.chunks i).tsn = (a.chunks i).tsn) ∧
    (∀ k k' i j, a.retransmissionQ.find? k = some i → a.retransmissionQ.find? k' = some j →
      (a.chunks i).tsn = (a.chunks j).tsn → i = j) ∧
    (∀ i j, i < a.allocated → j < a.allocated → i < 2 ^ 32 → j < 2 ^ 32 →
      (a.chunks i).tsn = (a.chunks j).tsn → i = j) := by
  have hnumbered : Numbered first a :=
    h.invariant (fun _ ↦ Fresh.numbered) fun s e s' hs he hstep ↦ (hs.queueStep e he).of_eq_ok hstep
  refine ⟨hnumbered.tsn, fun e a' he hstep i hi ↦ ?_, fun k k' i j hi hj htsn ↦ ?_,
    fun i j hi hj hi' hj' htsn ↦ ?_⟩
  · have hnext := (hnumbered.queueStep e he).of_eq_ok hstep
    have halloc := (queueStep_allocated a e).of_eq_ok hstep
    rw [hnext.tsn i (by omega), hnumbered.tsn i hi]
  · have hk := (hnumbered.sent k i hi).2
    have hk' := (hnumbered.sent k' j hj).2
    rw [htsn, hk'] at hk
    subst hk
    rw [hi] at hj
    exact Option.some.inj hj
  · rw [hnumbered.tsn i hi, hnumbered.tsn j hj] at htsn
    exact (SerialNumber.ofNat_inj (by omega) (by omega)).mp (add_left_cancel htsn)

/-- An association with one path. -/
def onePath (first : BitVec 32) : SCTPSender :=
  { paths := [{ remoteAddress := 1 }], primaryPathIndex := 1, nextTSN := first
    lastTsnAck := first - 1, highestTsnAcked := first - 1 }

/-- A chunk of 100 bytes is sent, the retransmission timer expires, and it is sent again. -/
def sendAgain : List QueueEvent :=
  [.turn 1 false none 1468 (some (800, 100)), .timeoutRtx 1, .turn 1 true none 1468 none,
    .turn 1 false none 1468 (some (800, 100))]

theorem tsns_stable_sendAgain :
    ∃ a, run queueStep (onePath 5) sendAgain = .ok a ∧ a.allocated = 2 ∧
      ∀ i < a.allocated, (a.chunks i).tsn = 5 + BitVec.ofNat 32 i := by
  obtain ⟨a, ha⟩ : ∃ a, run queueStep (onePath 5) sendAgain = .ok a := ⟨_, rfl⟩
  have hreach : Reachable (Fresh 5) KeepsTsn queueStep a :=
    Reachable.of_run (.start (by decide)) sendAgain (by decide) ha
  refine ⟨a, ha, ?_, (tsns_stable hreach).1⟩
  cases ha
  rfl

/-- The first chunk has the TSN `0`, and the TSN `1` after it has been sent again. -/
theorem tsn_reassigned_sendAgain :
    ∃ a a', Reachable (Fresh 0) (fun _ _ ↦ True) queueStep a ∧
      a.queueStep (.turn 1 true none 1468 none) = .ok a' ∧ a.allocated = 1 ∧
      (a.chunks 0).tsn = 0 ∧ (a'.chunks 0).tsn = 1 ∧
      a'.retransmissionQ.find? 0 = some 0 := by
  obtain ⟨a, ha⟩ : ∃ a, run queueStep (onePath 0) (sendAgain.take 2) = .ok a := ⟨_, rfl⟩
  have hreach : Reachable (Fresh 0) (fun _ _ ↦ True) queueStep a :=
    Reachable.of_run (.start (by decide)) (sendAgain.take 2) (by decide) ha
  cases ha
  exact ⟨_, _, hreach, rfl, rfl, rfl, rfl, by decide⟩

end SCTPSender

end InetManet.SCTP
