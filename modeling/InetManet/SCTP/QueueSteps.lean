import InetManet.SCTP.SendQueues
import Mathlib.Logic.Relation

/-!
# What a SACK does to the queues

A SACK is handled by many small writes to chunks and counters. `SackStep` lists them once, each with
what the code has checked before; `processSackArrived` is a sequence of such steps, so an invariant
need only be shown for the steps. In the same way a T3-RTX timeout and a turn of `sendAll` are
described by what they do to one chunk.
-/

namespace InetManet.SCTP

open TransitionSystem OrderedMap

/-- `c'` differs from `c` in flags and counts only; an acknowledgement may be withdrawn. -/
structure Marks (c' c : SCTPSentVariables) : Prop where
  tsn : c'.tsn = c.tsn
  len : c'.len = c.len
  booksize : c'.booksize = c.booksize
  lastDestination : c'.lastDestination = c.lastDestination
  nextDestination : c'.nextDestination = c.nextDestination
  countsAsOutstanding : c'.countsAsOutstanding = c.countsAsOutstanding
  numberOfTransmissions : c'.numberOfTransmissions = c.numberOfTransmissions
  acked : c'.hasBeenAcked = true → c.hasBeenAcked = true

namespace SCTPSentVariables

variable (c : SCTPSentVariables)

theorem marks_setAcked_false : Marks (setAcked false c) c :=
  ⟨rfl, rfl, rfl, rfl, rfl, rfl, rfl, nofun⟩

theorem marks_setFastRetransmitted (fast : Bool) : Marks (setFastRetransmitted fast c) c :=
  ⟨rfl, rfl, rfl, rfl, rfl, rfl, rfl, id⟩

theorem marks_setGapReports (reports : ℕ) : Marks (setGapReports reports c) c :=
  ⟨rfl, rfl, rfl, rfl, rfl, rfl, rfl, id⟩

theorem marks_setRemoved : Marks (setRemoved c) c :=
  ⟨rfl, rfl, rfl, rfl, rfl, rfl, rfl, id⟩

end SCTPSentVariables

namespace SCTPSender

open SCTPSentVariables

/-- One write while a SACK is handled. -/
inductive SackStep (a : SCTPSender) : SCTPSender → Prop
  | mark {i : ℕ} {c : SCTPSentVariables} : Marks c (a.chunks i) → SackStep a (a.modify i fun _ ↦ c)
  | ack {i : ℕ} : (a.chunks i).countsAsOutstanding = false →
      SackStep a (a.modify i (setAcked true))
  | settle {k i : ℕ} : a.retransmissionQ.find? k = some i →
      (a.chunks i).countsAsOutstanding = true →
      SackStep a ((a.modify i (setAcked true)).noLongerOutstanding i)
  | drop {k i : ℕ} : a.retransmissionQ.find? k = some i →
      (a.chunks i).countsAsOutstanding = true → SackStep a (a.noLongerOutstanding i)
  | unqueue {k i j : ℕ} : a.retransmissionQ.find? k = some i →
      a.transmissionQ.find? (a.chunks i).tsn.toNat = some j →
      SackStep a (a.removeTrans (a.chunks i).tsn.toNat i (a.chunks i).nextDestination)
  | redirect {i p : ℕ} : a.transmissionQ.find? (a.chunks i).tsn.toNat = none →
      SackStep a (a.modify i (setNextDestination p))
  | queue {k i : ℕ} : a.retransmissionQ.find? k = some i →
      a.transmissionQ.find? (a.chunks i).tsn.toNat = none →
      (a.chunks i).countsAsOutstanding = false →
      SackStep a (a.insertTrans i (a.chunks i).nextDestination)
  | dequeue {k i j : ℕ} : a.retransmissionQ.find? k = some i →
      a.transmissionQ.find? (a.chunks i).tsn.toNat = none →
      a.retransmissionQ.find? (a.chunks i).tsn.toNat = some j →
      SackStep a (a.dequeueChunk (a.chunks i).tsn j)
  | other {lastTsnAck highestTsnAcked : BitVec 32} {peerRwnd : ℕ} :
      SackStep a { a with lastTsnAck, highestTsnAcked, peerRwnd }

/-- A sequence of writes. -/
abbrev SackSteps : SCTPSender → SCTPSender → Prop := Relation.ReflTransGen SackStep

@[simp] theorem modify_chunks_self (a : SCTPSender) (i : ℕ)
    (f : SCTPSentVariables → SCTPSentVariables) : (a.modify i f).chunks i = f (a.chunks i) :=
  Function.update_self ..

theorem modify_chunks_of_ne (a : SCTPSender) {i j : ℕ} (h : j ≠ i)
    (f : SCTPSentVariables → SCTPSentVariables) : (a.modify i f).chunks j = a.chunks j :=
  Function.update_of_ne h ..

section Sack

variable {a b : SCTPSender} {i k : ℕ}

/-- Steps from `a` to `b`, then those of a computation that starts in `b`. -/
theorem andThen_steps {α : Type} {x : Except SendFault α} {f : α → SCTPSender}
    (h : SackSteps a b) (hx : Outcome x (fun r ↦ SackSteps b (f r)) (fun _ ↦ True)) :
    Outcome x (fun r ↦ SackSteps a (f r)) (fun _ ↦ True) :=
  hx.post fun _ hr ↦ h.trans hr

theorem sackSteps_mark {f : SCTPSentVariables → SCTPSentVariables}
    (h : Marks (f (a.chunks i)) (a.chunks i)) : SackSteps a (a.modify i f) :=
  .single (.mark h)

theorem sackSteps_drop (hi : a.retransmissionQ.find? k = some i) :
    SackSteps a (a.dropOutstanding i) := by
  unfold dropOutstanding
  split
  · exact .single (.drop hi ‹_›)
  · exact .refl

section Drop

variable (a : SCTPSender) (i : ℕ)

theorem dropOutstanding_chunks_self :
    (a.dropOutstanding i).chunks i = setOutstanding false (a.chunks i) := by
  unfold dropOutstanding
  split <;> rename_i hout
  · exact modify_chunks_self ..
  · have hfalse := Bool.eq_false_iff.mpr hout
    unfold setOutstanding
    rw [← hfalse]

theorem dropOutstanding_transmissionQ : (a.dropOutstanding i).transmissionQ = a.transmissionQ := by
  unfold dropOutstanding
  split <;> rfl

theorem dropOutstanding_retransmissionQ :
    (a.dropOutstanding i).retransmissionQ = a.retransmissionQ := by
  unfold dropOutstanding
  split <;> rfl

end Drop

theorem sackSteps_unqueue (hi : a.retransmissionQ.find? k = some i) : SackSteps a (a.unqueue i) := by
  unfold unqueue
  dsimp only
  split <;> rename_i hfound
  · exact .single (.unqueue hi hfound)
  · exact .refl

theorem unqueue_transmissionQ (a : SCTPSender) (i : ℕ) :
    (a.unqueue i).transmissionQ.find? (a.chunks i).tsn.toNat = none := by
  unfold unqueue
  dsimp only
  split <;> rename_i hfound
  · exact find?_erase_self
  · exact hfound

theorem unqueue_chunks (a : SCTPSender) (i : ℕ) : (a.unqueue i).chunks = a.chunks := by
  unfold unqueue
  dsimp only
  split <;> rfl

theorem unqueue_retransmissionQ (a : SCTPSender) (i : ℕ) :
    (a.unqueue i).retransmissionQ = a.retransmissionQ := by
  unfold unqueue
  dsimp only
  split <;> rfl

theorem dequeueAckedLoop_steps (tsna : BitVec 32) (rounds : ℕ) (a : SCTPSender) :
    Outcome (dequeueAckedLoop tsna rounds a) (SackSteps a) (fun _ ↦ True) := by
  induction rounds generalizing a with
  | zero => exact trivial
  | succ rounds ih =>
    unfold dequeueAckedLoop
    cases hentries : a.retransmissionQ.entries with
    | nil => exact .refl
    | cons entry rest =>
      obtain ⟨k, i⟩ := entry
      have hi : a.retransmissionQ.find? k = some i := by
        rw [find?_eq_some_iff, hentries]
        exact List.mem_cons_self
      dsimp only
      refine Outcome.ite (fun _ ↦ ?_) fun _ ↦ .refl
      cases hj : (a.unqueue i).retransmissionQ.find? (a.chunks i).tsn.toNat with
      | none => exact trivial
      | some j =>
        have hsteps := sackSteps_unqueue hi
        have hdequeue : SackStep (a.unqueue i) ((a.unqueue i).dequeueChunk (a.chunks i).tsn j) := by
          rw [← unqueue_retransmissionQ a i] at hi
          have hstep := @SackStep.dequeue (a.unqueue i) k i j hi
          rw [unqueue_chunks] at hstep
          exact hstep (unqueue_transmissionQ a i) hj
        exact andThen_steps (hsteps.tail hdequeue) (ih _)

theorem highestBelow_outcome (a : SCTPSender) (tsna pos : BitVec 32) :
    Outcome (a.highestBelow tsna pos) (fun _ ↦ True) (fun _ ↦ True) := by
  unfold highestBelow
  refine Outcome.ite (fun _ ↦ ?_) fun _ ↦ trivial
  cases a.hasBeenAcked (pos - 1) <;> exact trivial

theorem renegeAll_steps (tsna : BitVec 32) (a : SCTPSender) (pos : BitVec 32) :
    Outcome (renegeAll tsna a pos) (SackSteps a) (fun _ ↦ True) := by
  unfold renegeAll
  cases hi : a.retransmissionQ.find? pos.toNat with
  | none => exact .refl
  | some i =>
    refine Outcome.ite (fun _ ↦ ?_) fun _ ↦ .refl
    have hack : SackSteps a (a.modify i (setAcked false)) :=
      sackSteps_mark (marks_setAcked_false _)
    refine Outcome.ite (fun _ ↦ hack) fun _ ↦ ?_
    apply (highestBelow_outcome _ tsna pos).bind
    intro highest _
    exact (hack.trans (sackSteps_mark (marks_setRemoved _))).tail .other

theorem sackSteps_renege (hi : a.retransmissionQ.find? k = some i) : SackSteps a (a.renege i) := by
  have hack : SackSteps a (a.modify i (setAcked false)) :=
    sackSteps_mark (marks_setAcked_false _)
  have hdrop : SackSteps (a.modify i (setAcked false))
      ((a.modify i (setAcked false)).dropOutstanding i) := sackSteps_drop hi
  exact (hack.trans hdrop).trans (sackSteps_mark (marks_setRemoved _))

theorem renegeAbove_steps (a : SCTPSender) (pos : BitVec 32) :
    Outcome (renegeAbove a pos) (SackSteps a) (fun _ ↦ True) := by
  unfold renegeAbove
  cases hi : a.retransmissionQ.find? pos.toNat with
  | none => exact .refl
  | some i =>
    refine Outcome.ite (fun _ ↦ ?_) fun _ ↦ .refl
    exact (sackSteps_renege hi).tail .other

theorem sackSteps_acked (hi : a.retransmissionQ.find? k = some i) :
    SackSteps a ((a.modify i (setAcked true)).dropOutstanding i) := by
  have hsame : ((a.modify i (setAcked true)).chunks i).countsAsOutstanding =
      (a.chunks i).countsAsOutstanding := by
    rw [modify_chunks_self]
    rfl
  unfold dropOutstanding
  rw [hsame]
  split
  · exact .single (.settle hi ‹_›)
  · exact .single (.ack (Bool.eq_false_iff.mpr ‹_›))

theorem ackGap_steps (s : SCTPSender × BitVec 32) (pos : BitVec 32) :
    Outcome (ackGap s pos) (fun r ↦ SackSteps s.1 r.1) (fun _ ↦ True) := by
  obtain ⟨a, hiAcked⟩ := s
  unfold ackGap
  dsimp only
  cases hi : a.retransmissionQ.find? pos.toNat with
  | none => exact Relation.ReflTransGen.refl
  | some i =>
    refine Outcome.ite (fun _ ↦ ?_) fun _ ↦ Relation.ReflTransGen.refl
    have hack := sackSteps_acked hi
    have hunqueue := sackSteps_unqueue (a := (a.modify i (setAcked true)).dropOutstanding i)
      (i := i) (k := pos.toNat) (by rw [dropOutstanding_retransmissionQ]; exact hi)
    exact (hack.trans hunqueue).trans (sackSteps_mark (marks_setGapReports _ 0))

/-- A chunk of `retransmissionQ` that is not in `transmissionQ` is queued there. -/
theorem fastRetransmit_steps (hi : a.retransmissionQ.find? k = some i) :
    Outcome (a.fastRetransmit i) (SackSteps a) (fun _ ↦ True) := by
  unfold fastRetransmit
  cases hfree : a.transmissionQ.find? (a.chunks i).tsn.toNat with
  | some _ => exact .refl
  | none =>
    refine Outcome.bind (Q := fun _ ↦ True) ?_ fun pid _ ↦ ?_
    · cases getNextDestination _ _ <;> exact trivial
    have hfast : SackSteps a (a.modify i (setFastRetransmitted true)) :=
      sackSteps_mark (marks_setFastRetransmitted _ true)
    have hredirect : SackStep (a.modify i (setFastRetransmitted true))
        ((a.modify i (setFastRetransmitted true)).modify i (setNextDestination pid)) := by
      apply SackStep.redirect
      rw [modify_chunks_self]
      exact hfree
    generalize hb : (a.modify i (setFastRetransmitted true)).modify i (setNextDestination pid) = b
      at hredirect
    have hretrans : b.retransmissionQ.find? k = some i := by
      rw [← hb]
      exact hi
    have hchunk : b.chunks i = setNextDestination pid (setFastRetransmitted true (a.chunks i)) := by
      rw [← hb, modify_chunks_self, modify_chunks_self]
    have htrans : b.transmissionQ.find? (a.chunks i).tsn.toNat = none := by
      rw [← hb]
      exact hfree
    have hdropped := dropOutstanding_chunks_self b i
    rw [hchunk] at hdropped
    have hqueue := @SackStep.queue (b.dropOutstanding i) k i
    rw [dropOutstanding_retransmissionQ, dropOutstanding_transmissionQ, hdropped] at hqueue
    exact ((hfast.tail hredirect).trans (sackSteps_drop hretrans)).tail (hqueue hretrans htrans rfl)

theorem reportMissing_steps (hiAcked : BitVec 32) (a : SCTPSender) (pos : BitVec 32) :
    Outcome (reportMissing hiAcked a pos) (SackSteps a) (fun _ ↦ True) := by
  unfold reportMissing
  cases hi : a.retransmissionQ.find? pos.toNat with
  | none => exact .refl
  | some i =>
    refine Outcome.ite (fun _ ↦ sackSteps_renege hi) fun _ ↦ ?_
    refine Outcome.ite (fun _ ↦ ?_) fun _ ↦
      sackSteps_mark (marks_setFastRetransmitted _ false)
    have hreport : SackSteps a (a.modify i (setGapReports ((a.chunks i).gapReports + 1))) :=
      sackSteps_mark (marks_setGapReports _ _)
    refine Outcome.ite (fun _ ↦ ?_) fun _ ↦ hreport
    exact andThen_steps hreport (fastRetransmit_steps hi)

theorem forgetAck_steps (a : SCTPSender) (pos : BitVec 32) :
    Outcome (forgetAck a pos) (SackSteps a) (fun _ ↦ True) := by
  unfold forgetAck
  cases a.retransmissionQ.find? pos.toNat with
  | none => exact .refl
  | some i => exact sackSteps_mark (marks_setAcked_false _)

theorem forUp_steps {body : SCTPSender → BitVec 32 → Except SendFault SCTPSender}
    (hbody : ∀ s pos, Outcome (body s pos) (SackSteps s) (fun _ ↦ True)) (hi : BitVec 32)
    (rounds : ℕ) (pos : BitVec 32) (a : SCTPSender) :
    Outcome (forUp .endlessLoop body hi rounds pos a) (SackSteps a) (fun _ ↦ True) :=
  Outcome.forUp trivial (fun s pos hs ↦ andThen_steps hs (hbody s pos)) rounds pos .refl

theorem forDown_steps {body : SCTPSender → BitVec 32 → Except SendFault SCTPSender}
    (hbody : ∀ s pos, Outcome (body s pos) (SackSteps s) (fun _ ↦ True)) (lo : BitVec 32)
    (rounds : ℕ) (pos : BitVec 32) (a : SCTPSender) :
    Outcome (forDown .endlessLoop body lo rounds pos a) (SackSteps a) (fun _ ↦ True) :=
  Outcome.forDown trivial (fun s pos hs ↦ andThen_steps hs (hbody s pos)) rounds pos .refl

theorem missingLoop_steps (hiAcked lo : BitVec 32) (gaps : List Gap) (a : SCTPSender) :
    Outcome (missingLoop hiAcked lo gaps a) (SackSteps a) (fun _ ↦ True) := by
  induction gaps generalizing lo a with
  | nil => exact .refl
  | cons gap gaps ih =>
    apply (forUp_steps (reportMissing_steps hiAcked) _ _ _ a).bind
    intro b hb
    exact andThen_steps hb (ih gap.stop b)

theorem processGaps_steps (a : SCTPSender) (tsna : BitVec 32) (gaps : List Gap)
    (last : BitVec 32) :
    Outcome (a.processGaps tsna gaps last) (SackSteps a) (fun _ ↦ True) := by
  have hrenege : Outcome (a.renegeAboveLast last) (SackSteps a) (fun _ ↦ True) :=
    Outcome.ite (fun _ ↦ forDown_steps renegeAbove_steps _ _ _ a) fun _ ↦ .refl
  apply hrenege.bind
  intro b hb
  have hgaps : Outcome (gaps.foldlM (fun s gap ↦
      forUp .endlessLoop ackGap gap.stop (2 ^ 32) gap.start s) (b, tsna))
      (fun r ↦ SackSteps b r.1) (fun _ ↦ True) :=
    Outcome.foldlM (I := fun r : SCTPSender × BitVec 32 ↦ SackSteps b r.1) gaps (fun s gap _ hs ↦
      Outcome.forUp trivial (fun s pos hs ↦ andThen_steps hs (ackGap_steps s pos)) _ _ hs) .refl
  apply hgaps.bind
  intro r hr
  apply (missingLoop_steps r.2 tsna gaps r.1).bind
  intro d hd
  have hall : SackSteps a { d with highestTsnAcked := last } :=
    ((hb.trans hr).trans hd).tail .other
  refine Outcome.ite (fun _ ↦ ?_) fun _ ↦ hall
  exact andThen_steps hall (forUp_steps forgetAck_steps _ _ _ _)

theorem processSackArrived_steps (a : SCTPSender) (remoteAddr : ℕ) (tsna : BitVec 32) (arwnd : ℕ)
    (gaps : List Gap) :
    Outcome (a.processSackArrived remoteAddr tsna arwnd gaps) (SackSteps a) (fun _ ↦ True) := by
  refine Outcome.ite (fun _ ↦ trivial) fun _ ↦ Outcome.ite (fun _ ↦ .refl) fun _ ↦ ?_
  have hcum : Outcome (a.processCumAck tsna) (SackSteps a) (fun _ ↦ True) := by
    refine Outcome.ite (fun _ ↦ ?_) fun _ ↦ .refl
    apply (dequeueAckedLoop_steps tsna _ a).bind
    intro b hb
    exact hb.tail .other
  apply hcum.bind
  intro b hb
  have hgaps : Outcome (b.processGapReports tsna gaps) (SackSteps b) (fun _ ↦ True) := by
    unfold processGapReports
    cases gaps.getLast? with
    | none => exact Outcome.ite (fun _ ↦ forDown_steps (renegeAll_steps tsna) _ _ _ b) fun _ ↦ .refl
    | some last => exact Outcome.ite (fun _ ↦ .refl) fun _ ↦ processGaps_steps b tsna gaps last.stop
  apply hgaps.bind
  intro d hd
  exact (hb.trans hd).tail .other

end Sack

/-! ## Timeout -/

theorem modify_modify (a : SCTPSender) (i : ℕ) (f g : SCTPSentVariables → SCTPSentVariables) :
    (a.modify i f).modify i g = a.modify i (g ∘ f) := by
  unfold modify
  dsimp only
  rw [Function.update_self, Function.update_idem]
  rfl

/-- What a timeout writes to a chunk that is sent to `next` next. -/
def retarget (next : ℕ) : SCTPSentVariables → SCTPSentVariables :=
  setNextDestination next ∘ setFastRetransmitted false ∘ setGapReports 0

/-- What a timeout of `path` does to the chunk in cell `i`. -/
inductive Requeued (path : ℕ) (a : SCTPSender) (i : ℕ) : SCTPSender → Prop
  | skipped : timedOut path (a.chunks i) = false → Requeued path a i a
  | present {next j : ℕ} : timedOut path (a.chunks i) = true →
      a.getNextDestination (setFastRetransmitted false (setGapReports 0 (a.chunks i))) = .ok next →
      a.transmissionQ.find? (a.chunks i).tsn.toNat = some j →
      Requeued path a i (a.modify i (retarget next))
  | queued {next : ℕ} : timedOut path (a.chunks i) = true →
      a.transmissionQ.find? (a.chunks i).tsn.toNat = none →
      Requeued path a i ((a.modify i (retarget next)).requeueChunk i next)

theorem requeue_cases (path : ℕ) (a : SCTPSender) (entry : ℕ × ℕ) :
    Outcome (requeue path a entry) (Requeued path a entry.2) (fun _ ↦ True) := by
  obtain ⟨k, i⟩ := entry
  unfold requeue
  dsimp only
  split <;> rename_i hout
  · have hnext : (a.modify i (setFastRetransmitted false ∘ setGapReports 0)).getNextDestination
        ((a.modify i (setFastRetransmitted false ∘ setGapReports 0)).chunks i) =
        a.getNextDestination (setFastRetransmitted false (setGapReports 0 (a.chunks i))) := by
      rw [modify_chunks_self]
      rfl
    rw [hnext]
    cases hdest : a.getNextDestination (setFastRetransmitted false (setGapReports 0 (a.chunks i))) with
    | error e => exact trivial
    | ok next =>
      rw [ok_bind, modify_modify]
      have htsn : ((a.modify i (retarget next)).chunks i).tsn = (a.chunks i).tsn := by
        rw [modify_chunks_self]
        rfl
      split
      · rename_i j hfound
        exact Requeued.present hout hdest (htsn ▸ hfound)
      · rename_i hfound
        exact Requeued.queued hout (htsn ▸ hfound)
  · exact Requeued.skipped (Bool.eq_false_iff.mpr hout)

/-! ## Transmission -/

/-- The chunk in cell `i` of `a` has been put into a packet for `newDpi`. -/
structure Handled (a : SCTPSender) (i newDpi : ℕ) (a' : SCTPSender) : Prop where
  other : ∀ j, j ≠ i → a'.chunks j = a.chunks j
  tsn : (a'.chunks i).tsn = if (a.chunks i).tsn = 0 then a.nextTSN else (a.chunks i).tsn
  len : (a'.chunks i).len = (a.chunks i).len
  booksize : (a'.chunks i).booksize = (a.chunks i).booksize
  lastDestination : (a'.chunks i).lastDestination = newDpi
  nextDestination : (a'.chunks i).nextDestination = (a.chunks i).nextDestination
  outstanding : (a'.chunks i).countsAsOutstanding = true
  acked : (a'.chunks i).hasBeenAcked = true →
    (a.chunks i).hasBeenAcked = true ∧ (a.chunks i).numberOfTransmissions ≠ 0
  transmitted : (a'.chunks i).numberOfTransmissions = (a.chunks i).numberOfTransmissions + 1
  nextTSN : a'.nextTSN = if (a.chunks i).tsn = 0 then a.nextTSN + 1 else a.nextTSN
  allocated : a'.allocated = a.allocated
  transmissionQ : a'.transmissionQ = a.transmissionQ
  roomTransQ : a'.roomTransQ = a.roomTransQ
  bookedTransQ : a'.bookedTransQ = a.bookedTransQ
  again : (a.chunks i).numberOfTransmissions ≠ 0 →
    a'.retransmissionQ = a.retransmissionQ ∧ a'.outstandingBytes = a.outstandingBytes
  first : (a.chunks i).numberOfTransmissions = 0 →
    a.retransmissionQ.find? (a'.chunks i).tsn.toNat = none ∧
    a'.retransmissionQ = a.retransmissionQ.insert (a'.chunks i).tsn.toNat i ∧
    a'.outstandingBytes = credit a.outstandingBytes newDpi (a.chunks i).booksize

/-- The chunk and the next TSN after `assignTsn`, and what does not change. -/
structure Assigned (a : SCTPSender) (i : ℕ) (a' : SCTPSender) : Prop where
  other : ∀ j, j ≠ i → a'.chunks j = a.chunks j
  chunk : a'.chunks i =
    setSent (setTsn (if (a.chunks i).tsn = 0 then a.nextTSN else (a.chunks i).tsn) (a.chunks i))
  rest : a' = { a with
    chunks := a'.chunks
    nextTSN := if (a.chunks i).tsn = 0 then a.nextTSN + 1 else a.nextTSN }

theorem assigned (a : SCTPSender) (i : ℕ) : Assigned a i ((a.assignTsn i).modify i setSent) := by
  have hassign : ∀ j, (a.assignTsn i).chunks j = if j = i then
      setTsn (if (a.chunks i).tsn = 0 then a.nextTSN else (a.chunks i).tsn) (a.chunks i)
      else a.chunks j := by
    intro j
    unfold assignTsn
    by_cases hj : j = i
    · subst hj
      split
      · exact (modify_chunks_self ..).trans (if_pos rfl).symm
      · rw [if_pos rfl]
        rfl
    · rw [if_neg hj]
      split
      · exact modify_chunks_of_ne _ hj _
      · rfl
  constructor
  · intro j hj
    rw [modify_chunks_of_ne _ hj, hassign, if_neg hj]
  · rw [modify_chunks_self, hassign, if_pos rfl]
  · unfold assignTsn
    split <;> rfl

/-- `storeFirst` puts a chunk that has not been sent before into `retransmissionQ`. -/
structure Stored (a : SCTPSender) (i newDpi : ℕ) (a' : SCTPSender) : Prop where
  other : ∀ j, j ≠ i → a'.chunks j = a.chunks j
  chunk : ∃ acked last, a'.chunks i = { a.chunks i with hasBeenAcked := acked, lastDestination := last } ∧
    (acked = true → (a.chunks i).hasBeenAcked = true ∧ (a.chunks i).numberOfTransmissions ≠ 0)
  nextTSN : a'.nextTSN = a.nextTSN
  allocated : a'.allocated = a.allocated
  transmissionQ : a'.transmissionQ = a.transmissionQ
  roomTransQ : a'.roomTransQ = a.roomTransQ
  bookedTransQ : a'.bookedTransQ = a.bookedTransQ
  again : (a.chunks i).numberOfTransmissions ≠ 0 →
    a'.retransmissionQ = a.retransmissionQ ∧ a'.outstandingBytes = a.outstandingBytes
  first : (a.chunks i).numberOfTransmissions = 0 →
    a.retransmissionQ.find? (a.chunks i).tsn.toNat = none ∧
    a'.retransmissionQ = a.retransmissionQ.insert (a.chunks i).tsn.toNat i ∧
    a'.outstandingBytes = credit a.outstandingBytes newDpi (a.chunks i).booksize

theorem storeFirst_spec (a : SCTPSender) (i dpi newDpi : ℕ) :
    Outcome (a.storeFirst i dpi newDpi) (Stored a i newDpi) (fun _ ↦ True) := by
  unfold storeFirst
  split <;> rename_i hfirst
  · unfold firstTransmission
    split
    · exact trivial
    cases hfind : a.retransmissionQ.find? (a.chunks i).tsn.toNat with
    | some _ => exact trivial
    | none =>
      refine ⟨fun j hj ↦ modify_chunks_of_ne _ hj _, ⟨false, a.primaryPathIndex, ?_, nofun⟩, rfl, rfl,
        rfl, rfl, rfl, fun hne ↦ absurd hfirst hne, fun _ ↦ ⟨hfind, rfl, rfl⟩⟩
      exact modify_chunks_self ..
  · exact ⟨fun _ _ ↦ rfl, ⟨_, _, rfl, fun hacked ↦ ⟨hacked, hfirst⟩⟩, rfl, rfl, rfl, rfl, rfl,
      fun _ ↦ ⟨rfl, rfl⟩, fun h ↦ absurd h hfirst⟩

theorem handleChunk_spec (a : SCTPSender) (i dpi newDpi : ℕ) :
    Outcome (a.handleChunk i dpi newDpi) (Handled a i newDpi) (fun _ ↦ True) := by
  unfold handleChunk
  dsimp only
  have hassigned := assigned a i
  generalize (a.assignTsn i).modify i setSent = b at hassigned
  obtain ⟨hother, hchunk, hrest⟩ := hassigned
  apply (storeFirst_spec b i dpi newDpi).bind
  intro d hd
  obtain ⟨acked, last, hd_i, hacked⟩ := hd.chunk
  refine Outcome.ite (fun _ ↦ trivial) fun _ ↦ ?_
  have hlast := modify_chunks_self d i (setTransmitted newDpi)
  rw [hd_i] at hlast
  rw [hchunk] at hlast hacked
  have hcount : (b.chunks i).numberOfTransmissions = (a.chunks i).numberOfTransmissions := by
    rw [hchunk]
    rfl
  have hbook : (b.chunks i).booksize = (a.chunks i).booksize := by
    rw [hchunk]
    rfl
  have htsn : ((d.modify i (setTransmitted newDpi)).chunks i).tsn = (b.chunks i).tsn := by
    rw [hlast, hchunk]
    rfl
  have hagain := hd.again
  have hfirst := hd.first
  rw [hcount] at hagain hfirst
  rw [congrArg (·.retransmissionQ) hrest, congrArg (·.outstandingBytes) hrest] at hagain hfirst
  rw [hbook, ← htsn] at hfirst
  constructor
  · intro j hj
    exact ((modify_chunks_of_ne d hj _).trans (hd.other j hj)).trans (hother j hj)
  · exact congrArg (·.tsn) hlast
  · exact congrArg (·.len) hlast
  · exact congrArg (·.booksize) hlast
  · exact congrArg (·.lastDestination) hlast
  · exact congrArg (·.nextDestination) hlast
  · exact congrArg (·.countsAsOutstanding) hlast
  · intro h
    exact hacked ((congrArg (·.hasBeenAcked) hlast).symm.trans h)
  · exact congrArg (·.numberOfTransmissions) hlast
  · exact hd.nextTSN.trans (congrArg (·.nextTSN) hrest)
  · exact hd.allocated.trans (congrArg (·.allocated) hrest)
  · exact hd.transmissionQ.trans (congrArg (·.transmissionQ) hrest)
  · exact hd.roomTransQ.trans (congrArg (·.roomTransQ) hrest)
  · exact hd.bookedTransQ.trans (congrArg (·.bookedTransQ) hrest)
  · exact hagain
  · exact hfirst

theorem getOutboundLoop_cases (a : SCTPSender) (pid : ℕ) (bytes : ℤ) (entries : List (ℕ × ℕ)) :
    Outcome (a.getOutboundLoop pid bytes entries)
      (fun r ↦ r = (none, a) ∨ ∃ k i, (k, i) ∈ entries ∧ (a.chunks i).nextDestination = pid ∧
        ((a.chunks i).room : ℤ) ≤ bytes ∧ (a.chunks i).hasBeenAcked = false ∧
        r = (some i, a.removeTrans k i pid)) (fun _ ↦ True) := by
  induction entries with
  | nil => exact .inl rfl
  | cons entry rest ih =>
    obtain ⟨k, i⟩ := entry
    refine Outcome.ite (fun hfits ↦ Outcome.ite (fun _ ↦ trivial) fun hacked ↦ ?_) fun _ ↦ ?_
    · exact .inr ⟨k, i, List.mem_cons_self, hfits.1, hfits.2, Bool.eq_false_iff.mpr hacked, rfl⟩
    · apply ih.post
      intro r hr
      apply hr.imp_right
      rintro ⟨k', i', hmem, hrest⟩
      exact ⟨k', i', List.mem_cons_of_mem _ hmem, hrest⟩

/-- What a turn of `sendAll` does: nothing, a chunk is sent again, or a new chunk is sent. -/
inductive Turned (a : SCTPSender) (pd : ℕ) (rtxActive : Bool) (sackTo : Option ℕ) (bytes : ℤ) :
    SCTPSender → Prop
  | nothing : Turned a pd rtxActive sackTo bytes a
  | resent {k i : ℕ} {a' : SCTPSender} : a.transmissionQ.find? k = some i →
      (a.chunks i).nextDestination = sackTo.getD (if rtxActive then pd else a.primaryPathIndex) →
      ((a.chunks i).room : ℤ) ≤ bytes → (a.chunks i).hasBeenAcked = false →
      Handled ((a.removeTrans k i (a.chunks i).nextDestination).bookRetransmission i) i
        (if rtxActive then pd else a.primaryPathIndex) a' →
      Turned a pd rtxActive sackTo bytes a'
  | new {len booksize dpi : ℕ} {a' : SCTPSender} :
      Handled (a.newChunk len booksize dpi) a.allocated
        (if rtxActive then pd else a.primaryPathIndex) a' →
      Turned a pd rtxActive sackTo bytes a'

theorem sendTurn_cases (a : SCTPSender) (pd : ℕ) (rtxActive : Bool) (sackTo : Option ℕ) (bytes : ℤ)
    (message : Option (ℕ × ℕ)) :
    Outcome (a.sendTurn pd rtxActive sackTo bytes message) (Turned a pd rtxActive sackTo bytes)
      (fun _ ↦ True) := by
  unfold sendTurn
  dsimp only
  refine Outcome.ite (fun _ ↦ ?_) fun _ ↦ Outcome.ite (fun _ ↦ ?_) fun _ ↦ .nothing
  · apply (getOutboundLoop_cases a _ bytes a.transmissionQ.entries).bind
    rintro r (rfl | ⟨k, i, hmem, hdest, hfits, hacked, rfl⟩)
    · exact .nothing
    · apply (handleChunk_spec _ i _ _).post
      intro a' ha'
      have hfound : a.transmissionQ.find? k = some i := find?_eq_some_iff.mpr hmem
      refine .resent hfound hdest hfits hacked ?_
      rw [hdest]
      exact ha'
  · cases message with
    | none => exact .nothing
    | some m =>
      apply (handleChunk_spec _ _ _ _).post
      intro a' ha'
      exact .new ha'

end SCTPSender

end InetManet.SCTP
