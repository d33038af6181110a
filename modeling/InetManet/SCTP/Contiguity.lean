import InetManet.Library.Contiguous
import InetManet.SCTP.SendStreams

/-!
# Fragments of one message

The scheduler moves on to another stream after every chunk, and within a stream unordered messages
go first, also in the middle of a message. The fragments of a message get consecutive TSNs as long
as nothing else can be chosen while some of them are still queued.
-/

namespace InetManet.SCTP

open TransitionSystem Contiguous

namespace SCTPSendStreams

/-- The message numbers of a queue. -/
def nums (q : List SCTPDataMsg) : List ℕ := q.map (·.msgNum)

/-- The message numbers of the chunks that have been sent, in the order of their TSNs. -/
def sentNums (a : SCTPSendStreams) : List ℕ := a.sent.map (·.2.msgNum)

section Queues

variable {a : SCTPSendStreams} {sid sid' : ℕ} {ordered ordered' : Bool} {q : List SCTPDataMsg}

theorem stream_setQueue_self (h : sid < a.sendStreams.length) :
    (a.setQueue sid ordered q).stream sid = if ordered then { a.stream sid with streamQ := q }
      else { a.stream sid with unorderedStreamQ := q } := by
  simp [stream, setQueue, List.getD, h]

theorem stream_setQueue_of_ne (h : sid' ≠ sid) :
    (a.setQueue sid ordered q).stream sid' = a.stream sid' := by
  simp [stream, setQueue, List.getD, List.getElem?_set_ne h.symm]

theorem queue_setQueue_self (h : sid < a.sendStreams.length) :
    (a.setQueue sid ordered q).queue sid ordered = q := by
  unfold queue
  rw [stream_setQueue_self h]
  cases ordered <;> rfl

theorem queue_setQueue_of_ne (h : sid < a.sendStreams.length)
    (hne : ¬ (sid' = sid ∧ ordered' = ordered)) :
    (a.setQueue sid ordered q).queue sid' ordered' = a.queue sid' ordered' := by
  unfold queue
  by_cases hsid : sid' = sid
  · subst hsid
    rw [stream_setQueue_self h]
    cases ordered <;> cases ordered' <;> simp_all
  · rw [stream_setQueue_of_ne hsid]

theorem lt_of_mem_queue {m : SCTPDataMsg} (h : m ∈ a.queue sid ordered) :
    sid < a.sendStreams.length := by
  by_contra hge
  have hempty : a.stream sid = {} := by
    unfold stream
    rw [List.getD_eq_getElem?_getD, List.getElem?_eq_none (by omega)]
    rfl
  unfold queue at h
  rw [hempty] at h
  cases ordered <;> cases h

end Queues

/-! ## The scheduler -/

section Scheduler

variable {a : SCTPSendStreams} {sid : ℕ}

theorem usable_of_schedulerLoop {rounds start : ℕ} (h : a.schedulerLoop rounds start = some sid) :
    usable (a.stream sid) = true := by
  induction rounds generalizing start with
  | zero => cases h
  | succ rounds ih =>
    unfold schedulerLoop at h
    split at h
    · cases h
    · split at h
      · rename_i husable
        cases h
        exact husable
      · exact ih h

theorem usable_of_streamScheduler (h : a.streamScheduler = some sid) :
    usable (a.stream sid) = true := by
  unfold streamScheduler at h
  split at h
  · exact usable_of_schedulerLoop h
  · split at h
    · obtain ⟨hlt, hp, -⟩ := List.findIdx?_eq_some_iff_getElem.mp h
      unfold stream
      rw [List.getD_eq_getElem?_getD, List.getElem?_eq_getElem hlt]
      exact hp
    · cases h

end Scheduler

/-! ## Fragmentation -/

/-- The fragments carry the number of their message, and there is at least one. -/
theorem fragmentLoop_nums (payload : ℕ) (datMsg : SCTPDataMsg) (rounds offset : ℕ) :
    Outcome (fragmentLoop payload datMsg rounds offset)
      (fun fs ↦ ∃ n, nums fs = List.replicate (n + 1) datMsg.msgNum) (fun _ ↦ True) := by
  induction rounds generalizing offset with
  | zero => exact trivial
  | succ rounds ih =>
    refine Outcome.ite (fun _ ↦ ⟨0, rfl⟩) fun _ ↦ ?_
    apply (ih _).bind
    rintro rest ⟨n, hn⟩
    refine ⟨n + 1, ?_⟩
    show _ :: nums rest = _
    rw [hn]
    rfl

theorem fragmentFront_nums (a : SCTPSendStreams) (datMsg : SCTPDataMsg) (rest : List SCTPDataMsg) :
    Outcome (a.fragmentFront datMsg rest)
      (fun q ↦ ∃ n, nums q = List.replicate (n + 1) datMsg.msgNum ++ nums rest) (fun _ ↦ True) := by
  refine Outcome.ite (fun _ ↦ ?_) fun _ ↦ ⟨0, rfl⟩
  apply (fragmentLoop_nums _ _ _ _).bind
  rintro fragments ⟨n, hn⟩
  refine ⟨n, ?_⟩
  unfold nums at hn ⊢
  rw [List.map_append, hn]

/-! ## The invariant -/

/-- A message that has been sent in part is at the front of its queue and was the last one served.
-/
structure Orderly (a : SCTPSendStreams) (first : BitVec 32) : Prop where
  grouped : ∀ sid ordered, Together (nums (a.queue sid ordered))
  apart : ∀ sid ordered sid' ordered' n, n ∈ nums (a.queue sid ordered) →
    n ∈ nums (a.queue sid' ordered') → sid' = sid ∧ ordered' = ordered
  queued : ∀ sid ordered, ∀ n ∈ nums (a.queue sid ordered), n ≤ a.msgNum
  numbered : ∀ n ∈ a.sentNums, n ≤ a.msgNum
  resumed : ∀ n ∈ a.sentNums, ∀ sid ordered, n ∈ nums (a.queue sid ordered) →
    (nums (a.queue sid ordered)).head? = some n ∧ a.sentNums.getLast? = some n
  together : Together a.sentNums
  tsn : ∀ k, k < a.sent.length → (a.sent.map (·.1))[k]? = some (first + BitVec.ofNat 32 k)
  next : a.nextTSN = first + BitVec.ofNat 32 a.sent.length

/-- While chunks of the message that was sent last are queued, no other stream has messages, and if
they are ordered, there are no unordered messages in their stream. -/
def Undisturbed (a : SCTPSendStreams) : Prop :=
  ∀ sid < a.sendStreams.length, ∀ ordered : Bool, ∀ n ∈ a.sentNums.getLast?,
    n ∈ nums (a.queue sid ordered) →
      (∀ sid' < a.sendStreams.length, sid' ≠ sid → usable (a.stream sid') = false) ∧
      (ordered = true → (a.stream sid).unorderedStreamQ = [])

instance (a : SCTPSendStreams) : Decidable a.Undisturbed :=
  inferInstanceAs (Decidable (∀ sid < a.sendStreams.length, ∀ _ordered : Bool, _))

section Steps

variable {a b : SCTPSendStreams} {first : BitVec 32} {sid : ℕ} {ordered : Bool} {x : ℕ}
  {q : List SCTPDataMsg} {r : List ℕ}

/-- The queue of `a.setQueue sid ordered q` at another place or at its own. -/
theorem nums_setQueue (hsid : sid < a.sendStreams.length) (s : ℕ) (o : Bool) :
    nums ((a.setQueue sid ordered q).queue s o) =
      if s = sid ∧ o = ordered then nums q else nums (a.queue s o) := by
  split <;> rename_i hself
  · obtain ⟨rfl, rfl⟩ := hself
    rw [queue_setQueue_self hsid]
  · rw [queue_setQueue_of_ne hsid hself]

section

variable (h : Orderly a first)

include h

theorem Orderly.send (len : ℕ) :
    Outcome (a.send sid len ordered) (Orderly · first) (fun _ ↦ True) := by
  refine Outcome.ite (fun _ ↦ trivial) fun hlt ↦ ?_
  have hsid : sid < a.sendStreams.length := by omega
  have hnums (s : ℕ) (o : Bool) : nums ((a.setQueue sid ordered (a.queue sid ordered ++
      [{ sid, msgNum := a.msgNum + 1, len, ordered }])).queue s o) =
      if s = sid ∧ o = ordered then nums (a.queue sid ordered) ++ [a.msgNum + 1]
        else nums (a.queue s o) := by
    rw [nums_setQueue hsid]
    split
    · simp [nums]
    · rfl
  have hnew (s : ℕ) (o : Bool) : a.msgNum + 1 ∉ nums (a.queue s o) := by
    intro hmem
    have := h.queued s o _ hmem
    omega
  have hold {n s : ℕ} {o : Bool} (hmem : n ∈ nums ((a.setQueue sid ordered (a.queue sid ordered ++
      [{ sid, msgNum := a.msgNum + 1, len, ordered }])).queue s o)) (hn : n ≠ a.msgNum + 1) :
      n ∈ nums (a.queue s o) := by
    rw [hnums] at hmem
    split at hmem <;> rename_i hself
    · obtain ⟨rfl, rfl⟩ := hself
      simpa [hn] using hmem
    · exact hmem
  have hplace {s : ℕ} {o : Bool} (hmem : a.msgNum + 1 ∈ nums ((a.setQueue sid ordered
      (a.queue sid ordered ++ [{ sid, msgNum := a.msgNum + 1, len, ordered }])).queue s o)) :
      s = sid ∧ o = ordered := by
    rw [hnums] at hmem
    split at hmem <;> rename_i hself
    · exact hself
    · exact absurd hmem (hnew s o)
  refine ⟨fun s o ↦ ?_, fun s o s' o' n hn hn' ↦ ?_, fun s o n hn ↦ ?_, fun n hn ↦ ?_,
    fun n hn s o hmem ↦ ?_, h.together, h.tsn, h.next⟩
  · show Together (nums ((a.setQueue sid ordered _).queue s o))
    rw [hnums]
    split
    · exact (h.grouped sid ordered).append fun hmem ↦ absurd hmem (hnew sid ordered)
    · exact h.grouped s o
  · by_cases hnum : n = a.msgNum + 1
    · subst hnum
      obtain ⟨rfl, rfl⟩ := hplace hn
      exact hplace hn'
    · exact h.apart s o s' o' n (hold hn hnum) (hold hn' hnum)
  · show n ≤ a.msgNum + 1
    by_cases hnum : n = a.msgNum + 1
    · omega
    · have := h.queued s o n (hold hn hnum)
      omega
  · show n ≤ a.msgNum + 1
    have := h.numbered n hn
    omega
  · have hle := h.numbered n hn
    have hin := hold hmem (by omega)
    obtain ⟨hhead, hlast⟩ := h.resumed n hn s o hin
    refine ⟨?_, hlast⟩
    show (nums ((a.setQueue sid ordered _).queue s o)).head? = some n
    rw [hnums]
    split <;> rename_i hself
    · obtain ⟨rfl, rfl⟩ := hself
      rw [List.head?_append, hhead]
      rfl
    · exact hhead

/-- The front message `x` of a queue is replaced by chunks of itself. -/
theorem Orderly.refragment (hsid : sid < a.sendStreams.length)
    (hqueue : nums (a.queue sid ordered) = x :: r) {n : ℕ} (hq : nums q = List.replicate n x ++ r) :
    (∀ s o, Together (nums ((a.setQueue sid ordered q).queue s o))) ∧
    (∀ s o m, m ∈ nums ((a.setQueue sid ordered q).queue s o) → m ∈ nums (a.queue s o)) := by
  constructor
  · intro s o
    rw [nums_setQueue hsid]
    split
    · have hgrouped := h.grouped sid ordered
      rw [hqueue] at hgrouped
      rw [hq]
      exact hgrouped.repeat_head n
    · exact h.grouped s o
  · intro s o m hmem
    rw [nums_setQueue hsid] at hmem
    split at hmem <;> rename_i hself
    · obtain ⟨rfl, rfl⟩ := hself
      rw [hq] at hmem
      rw [hqueue]
      rcases List.mem_append.mp hmem with hrep | hrest
      · rw [List.eq_of_mem_replicate hrep]
        exact List.mem_cons_self
      · exact List.mem_cons_of_mem _ hrest
    · exact hmem

theorem Orderly.postponed (hsid : sid < a.sendStreams.length)
    (hqueue : nums (a.queue sid ordered) = x :: r) {n : ℕ}
    (hq : nums q = List.replicate (n + 1) x ++ r) : Orderly (a.setQueue sid ordered q) first := by
  obtain ⟨hgrouped, hsub⟩ := h.refragment hsid hqueue hq
  refine ⟨hgrouped, fun s o s' o' m hm hm' ↦ h.apart s o s' o' m (hsub s o m hm) (hsub s' o' m hm'),
    fun s o m hm ↦ h.queued s o m (hsub s o m hm), h.numbered, fun m hm s o hmem ↦ ?_, h.together,
    h.tsn, h.next⟩
  obtain ⟨hhead, hlast⟩ := h.resumed m hm s o (hsub s o m hmem)
  refine ⟨?_, hlast⟩
  rw [nums_setQueue hsid]
  split <;> rename_i hself
  · obtain ⟨rfl, rfl⟩ := hself
    rw [hqueue] at hhead
    rw [hq]
    exact hhead
  · exact hhead

/-- The first chunk of the queue is sent. If the message that was sent last is not complete, it is
the one at the front. -/
theorem Orderly.served (hsid : sid < a.sendStreams.length)
    (hqueue : nums (a.queue sid ordered) = x :: r) {n : ℕ}
    (hq : nums q = List.replicate n x ++ r) {datMsg : SCTPDataMsg} (hx : datMsg.msgNum = x)
    (hchosen : ∀ s o, ∀ m ∈ a.sentNums.getLast?, m ∈ nums (a.queue s o) → s = sid ∧ o = ordered) :
    Orderly { a.setQueue sid ordered q with
      sent := a.sent ++ [(a.nextTSN, datMsg)]
      nextTSN := a.nextTSN + 1 } first := by
  obtain ⟨hgrouped, hsub⟩ := h.refragment hsid hqueue hq
  have hfront : x ∈ nums (a.queue sid ordered) := by
    rw [hqueue]
    exact List.mem_cons_self
  have hsent : SCTPSendStreams.sentNums { a.setQueue sid ordered q with
      sent := a.sent ++ [(a.nextTSN, datMsg)]
      nextTSN := a.nextTSN + 1 } = a.sentNums ++ [x] := by
    simp [sentNums, hx]
  refine ⟨hgrouped, fun s o s' o' m hm hm' ↦ h.apart s o s' o' m (hsub s o m hm) (hsub s' o' m hm'),
    fun s o m hm ↦ h.queued s o m (hsub s o m hm), fun m hm ↦ ?_, fun m hm s o hmem ↦ ?_, ?_,
    fun k hk ↦ ?_, ?_⟩
  · rw [hsent] at hm
    rcases List.mem_append.mp hm with hm | hm
    · exact h.numbered m hm
    · rw [List.mem_singleton.mp hm]
      exact h.queued sid ordered x hfront
  · rw [hsent] at hm ⊢
    change m ∈ nums ((a.setQueue sid ordered q).queue s o) at hmem
    show (nums ((a.setQueue sid ordered q).queue s o)).head? = some m ∧ _
    have hmx : m = x := by
      by_contra hne
      have hin := hsub s o m hmem
      have hold : m ∈ a.sentNums := by
        rcases List.mem_append.mp hm with hm | hm
        · exact hm
        · exact absurd (List.mem_singleton.mp hm) hne
      obtain ⟨hhead, hlast⟩ := h.resumed m hold s o hin
      obtain ⟨rfl, rfl⟩ := hchosen s o m hlast hin
      rw [hqueue] at hhead
      exact hne (Option.some.inj hhead).symm
    subst hmx
    obtain ⟨rfl, rfl⟩ := h.apart sid ordered s o m hfront (hsub s o m hmem)
    refine ⟨?_, by simp⟩
    rw [nums_setQueue hsid, if_pos ⟨rfl, rfl⟩] at hmem ⊢
    rw [hq] at hmem ⊢
    cases n with
    | zero =>
      have hgroup := h.grouped s o
      rw [hqueue] at hgroup
      exact hgroup.2 hmem
    | succ n => rfl
  · rw [hsent]
    refine h.together.append fun hmem ↦ ?_
    exact (h.resumed x hmem sid ordered hfront).2
  · show ((a.sent ++ [(a.nextTSN, datMsg)]).map (·.1))[k]? = _
    rw [List.map_append]
    have hlen : k < a.sent.length + 1 := by simpa using hk
    by_cases hlt : k < a.sent.length
    · rw [List.getElem?_append_left (by simpa using hlt)]
      exact h.tsn k hlt
    · obtain rfl : k = a.sent.length := by omega
      rw [List.getElem?_append_right (by simp), h.next]
      simp
  · show a.nextTSN + 1 = first + BitVec.ofNat 32 (a.sent ++ [(a.nextTSN, datMsg)]).length
    rw [h.next, List.length_append, List.length_singleton, BitVec.ofNat_add, ← add_assoc]
    rfl

theorem Orderly.schedule (last : ℕ) (fragment : Bool) :
    Orderly { a with lastStreamScheduled := last, lastMsgWasFragment := fragment } first :=
  ⟨h.grouped, h.apart, h.queued, h.numbered, h.resumed, h.together, h.tsn, h.next⟩

end

theorem queue_servesOrdered_ne_nil (h : usable (a.stream sid) = true) :
    a.queue sid (a.servesOrdered sid) ≠ [] := by
  unfold usable at h
  unfold queue servesOrdered
  cases hu : (a.stream sid).unorderedStreamQ with
  | nil =>
    intro hnil
    simp_all
  | cons m q => simp

/-- Undisturbed, the queue that is served is the one with the chunks of the message sent last. -/
theorem Undisturbed.chosen (h : a.Undisturbed) (husable : usable (a.stream sid) = true)
    (hsid : sid < a.sendStreams.length) {s : ℕ} {o : Bool} {m : ℕ}
    (hlast : m ∈ a.sentNums.getLast?) (hmem : m ∈ nums (a.queue s o)) :
    s = sid ∧ o = a.servesOrdered sid := by
  obtain ⟨msg, hmsg, -⟩ := List.mem_map.mp hmem
  obtain ⟨hother, hunordered⟩ := h s (lt_of_mem_queue hmsg) o m hlast hmem
  have hs : s = sid := by
    by_contra hne
    have := hother sid hsid (Ne.symm hne)
    simp_all
  subst hs
  refine ⟨rfl, ?_⟩
  unfold servesOrdered
  cases o with
  | true => simp [hunordered rfl]
  | false =>
    unfold queue at hmsg
    cases hu : (a.stream s).unorderedStreamQ with
    | nil => simp [hu] at hmsg
    | cons m q => rfl

theorem wholeBits_msgNum (datMsg : SCTPDataMsg) : (wholeBits datMsg).msgNum = datMsg.msgNum := by
  unfold wholeBits
  split <;> rfl

/-- What `dequeueOutboundDataMsg` can do: nothing, or the front message of a usable stream is
replaced by chunks, of which the first may be taken. -/
inductive Dequeued (a : SCTPSendStreams) : Option SCTPDataMsg × SCTPSendStreams → Prop
  | nothing : Dequeued a (none, a)
  | postponed {sid last n : ℕ} {fragment : Bool} {datMsg : SCTPDataMsg} {rest q : List SCTPDataMsg} :
      usable (a.stream sid) = true → a.queue sid (a.servesOrdered sid) = datMsg :: rest →
      nums q = List.replicate (n + 1) datMsg.msgNum ++ nums rest →
      Dequeued a (none, { a with
        lastStreamScheduled := last
        lastMsgWasFragment := fragment }.setQueue sid (a.servesOrdered sid) q)
  | taken {sid last n : ℕ} {fragment : Bool} {datMsg msg : SCTPDataMsg}
      {rest q : List SCTPDataMsg} :
      usable (a.stream sid) = true → a.queue sid (a.servesOrdered sid) = datMsg :: rest →
      msg.msgNum = datMsg.msgNum → nums q = List.replicate n datMsg.msgNum ++ nums rest →
      Dequeued a (some msg, { a with
        lastStreamScheduled := last
        lastMsgWasFragment := fragment }.setQueue sid (a.servesOrdered sid) q)

theorem dequeueOutboundDataMsg_cases (a : SCTPSendStreams) (bytes : ℤ) :
    Outcome (a.dequeueOutboundDataMsg bytes) (Dequeued a) (fun _ ↦ True) := by
  unfold dequeueOutboundDataMsg
  cases hsched : a.streamScheduler with
  | none => exact .nothing
  | some sid =>
    have husable := usable_of_streamScheduler hsched
    have hne := queue_servesOrdered_ne_nil husable
    dsimp only
    split
    · rename_i hqueue
      exact absurd hqueue hne
    · rename_i datMsg rest hqueue
      apply (fragmentFront_nums _ datMsg rest).bind
      rintro q ⟨n, hq⟩
      cases q with
      | nil => exact trivial
      | cons msg q =>
        have hmsg : msg.msgNum = datMsg.msgNum := (List.cons.inj hq).1
        refine Outcome.ite (fun _ ↦ ?_) fun _ ↦ ?_
        · have hwhole : (wholeBits msg).msgNum = datMsg.msgNum := by
            rw [wholeBits_msgNum, hmsg]
          exact @Dequeued.taken a sid sid n (msg.fragment && !msg.eBit) datMsg _ rest q husable hqueue
            hwhole (List.cons.inj hq).2
        · exact Dequeued.postponed husable hqueue hq

theorem Orderly.transmit (h : Orderly a first) (hun : a.Undisturbed) (bytes : ℤ) :
    Outcome (a.transmit bytes) (Orderly · first) (fun _ ↦ True) := by
  have hsid {sid : ℕ} {ordered : Bool} {datMsg : SCTPDataMsg} {rest : List SCTPDataMsg}
      (hqueue : a.queue sid ordered = datMsg :: rest) : sid < a.sendStreams.length :=
    lt_of_mem_queue (hqueue ▸ List.mem_cons_self)
  have hnums {sid : ℕ} {ordered : Bool} {datMsg : SCTPDataMsg} {rest : List SCTPDataMsg}
      (hqueue : a.queue sid ordered = datMsg :: rest) :
      nums (a.queue sid ordered) = datMsg.msgNum :: nums rest := by
    rw [hqueue]
    rfl
  apply (dequeueOutboundDataMsg_cases a bytes).bind
  intro result hresult
  cases hresult with
  | nothing => exact h
  | @postponed sid last n fragment datMsg rest q husable hqueue hq =>
    exact (h.schedule last fragment).postponed (hsid hqueue) (hnums hqueue) hq
  | @taken sid last n fragment datMsg msg rest q husable hqueue hmsg hq =>
    exact (h.schedule last fragment).served (hsid hqueue) (hnums hqueue) hq hmsg
      fun s o m hlast hmem ↦ hun.chosen husable (hsid hqueue) hlast hmem

end Steps

/-! ## Runs -/

/-- Nothing is queued, and the first chunk will get the TSN `first`. -/
def Initial (first : BitVec 32) (a : SCTPSendStreams) : Prop :=
  (∀ s ∈ a.sendStreams, s = {}) ∧ a.sent = [] ∧ a.nextTSN = first

instance (first : BitVec 32) (a : SCTPSendStreams) : Decidable (Initial first a) :=
  inferInstanceAs (Decidable (_ ∧ _))

/-- Chunks are sent only while the message that was sent last is undisturbed. -/
def Permitted (a : SCTPSendStreams) : SendEvent → Prop
  | .send _ _ _ => True
  | .transmit _ => a.Undisturbed

instance (a : SCTPSendStreams) (e : SendEvent) : Decidable (Permitted a e) :=
  match e with
  | .send _ _ _ => inferInstanceAs (Decidable True)
  | .transmit _ => inferInstanceAs (Decidable a.Undisturbed)

variable {a : SCTPSendStreams} {first : BitVec 32}

theorem Initial.orderly (h : Initial first a) : Orderly a first := by
  obtain ⟨hstreams, hsent, hnext⟩ := h
  have hqueue (sid : ℕ) (ordered : Bool) : nums (a.queue sid ordered) = [] := by
    cases hq : a.queue sid ordered with
    | nil => rfl
    | cons m q =>
      have hsid := lt_of_mem_queue (hq ▸ List.mem_cons_self)
      have hstream : a.stream sid = {} := by
        unfold stream
        rw [List.getD_eq_getElem?_getD, List.getElem?_eq_getElem hsid]
        exact hstreams _ (List.getElem_mem hsid)
      unfold queue at hq
      rw [hstream] at hq
      cases ordered <;> cases hq
  have hnums : a.sentNums = [] := by
    rw [sentNums, hsent]
    rfl
  constructor
  · intro sid ordered
    rw [hqueue]
    exact trivial
  · intro sid ordered sid' ordered' n hn
    rw [hqueue] at hn
    cases hn
  · intro sid ordered n hn
    rw [hqueue] at hn
    cases hn
  · intro n hn
    rw [hnums] at hn
    cases hn
  · intro n hn
    rw [hnums] at hn
    cases hn
  · rw [hnums]
    exact trivial
  · intro k hk
    rw [hsent] at hk
    cases hk
  · rw [hnext, hsent]
    simp

/-- Between two chunks of one message no chunk of another message has been sent. -/
def FragmentsContiguous (a : SCTPSendStreams) : Prop :=
  ∀ i j k : ℕ, ∀ x ∈ a.sent[i]?, ∀ y ∈ a.sent[j]?, ∀ z ∈ a.sent[k]?, i ≤ j → j ≤ k →
    x.2.msgNum = z.2.msgNum → y.2.msgNum = x.2.msgNum

/-- In a run without disturbance the chunks get consecutive TSNs, and between two chunks of one
message there is none of another message. -/
theorem fragments_contiguous (h : Reachable (Initial first) Permitted sendStep a) :
    (∀ k : ℕ, ∀ x ∈ a.sent[k]?, x.1 = first + BitVec.ofNat 32 k) ∧ a.FragmentsContiguous := by
  have horderly : Orderly a first := by
    refine h.invariant (fun _ ↦ Initial.orderly) fun s e s' hs he hstep ↦ ?_
    cases e with
    | send sid len ordered => exact (hs.send len).of_eq_ok hstep
    | transmit bytes => exact (hs.transmit he bytes).of_eq_ok hstep
  constructor
  · intro k x hx
    have hk : k < a.sent.length := (List.getElem?_eq_some_iff.mp hx).1
    have htsn := horderly.tsn k hk
    rw [List.getElem?_map, hx] at htsn
    exact Option.some.inj htsn
  · intro i j k x hx y hy z hz hij hjk heq
    have hnum {i : ℕ} {x : BitVec 32 × SCTPDataMsg} (hx : a.sent[i]? = some x) :
        a.sentNums[i]? = some x.2.msgNum := by
      rw [sentNums, List.getElem?_map, hx]
      rfl
    have hbetween := horderly.together.between hij hjk (hnum hx) (heq.symm ▸ hnum hz)
    rw [hnum hy] at hbetween
    exact Option.some.inj hbetween

/-- An association with two streams. -/
def twoStreams : SCTPSendStreams := { sendStreams := [{}, {}], nextTSN := 7 }

/-- The fragments of a message of 3000 bytes on stream 0 are sent before a message on stream 1 is
queued. -/
def quietEvents : List SendEvent :=
  [.send 0 3000 true, .transmit 1468, .transmit 1468, .transmit 1468, .send 1 10 true,
    .transmit 1468]

/-- The message on stream 1 is queued between two fragments. -/
def mixedEvents : List SendEvent :=
  [.send 0 3000 true, .transmit 1468, .send 1 10 true, .transmit 1468, .transmit 1468]

theorem fragments_contiguous_quietEvents :
    ∃ a, run sendStep twoStreams quietEvents = .ok a ∧ a.sentNums = [1, 1, 1, 2] ∧
      a.FragmentsContiguous := by
  obtain ⟨a, ha⟩ : ∃ a, run sendStep twoStreams quietEvents = .ok a := ⟨_, rfl⟩
  have hreach : Reachable (Initial 7) Permitted sendStep a :=
    Reachable.of_run (.start (by decide)) quietEvents (by decide) ha
  refine ⟨a, ha, ?_, (fragments_contiguous hreach).2⟩
  cases ha
  decide

/-- The message on stream 1 gets the TSN between those of the first two fragments. -/
theorem fragments_apart_mixedEvents :
    ∃ a, run sendStep twoStreams mixedEvents = .ok a ∧ Initial 7 twoStreams ∧
      a.sent.map (fun x ↦ (x.1, x.2.msgNum)) = [(7, 1), (8, 2), (9, 1)] ∧
      ¬ a.FragmentsContiguous := by
  refine ⟨_, rfl, by decide, by decide, fun h ↦ ?_⟩
  have := h 0 1 2 _ rfl _ rfl _ rfl (by decide) (by decide) rfl
  exact absurd this (by decide)

end SCTPSendStreams

end InetManet.SCTP
