import InetManet.SCTP.ReceiveData

/-!
# Ordered delivery

Ordered messages without fragmentation are sent on one stream with stream sequence numbers that
count modulo `2 ^ 16`. The chunks arrive in any order, each once, mixed with chunks of other streams
and with calls of `pushUlp`. What the application has been handed is a prefix of what was sent, if no
message arrives 65536 or more messages ahead of one that is missing, and if the messages that wait
in `deliveryQ` for a `pushUlp` have increasing TSNs as plain integers.
-/

namespace InetManet.SCTP

open TransitionSystem SerialNumber

/-! ## Streams that hold nothing of one stream -/

namespace SCTPReceiveStream

/-- No chunk of stream `sid` is stored. -/
structure Without (sid : ℕ) (s : SCTPReceiveStream) : Prop where
  ordered : ∀ key v, s.orderedQ.find? key = some v → v.sid ≠ sid
  delivery : ∀ key v, s.deliveryQ.find? key = some v → v.sid ≠ sid
  unordered : ∀ key v, s.unorderedQ.find? key = some v → v.sid ≠ sid

section Without

variable {sid : ℕ} {s : SCTPReceiveStream} {q : SCTPQueue} {v : SCTPDataVariables}

section

variable (hq : ∀ key v, q.find? key = some v → v.sid ≠ sid)

include hq

theorem without_insert (hv : v.sid ≠ sid)
    (k key : ℕ) (w : SCTPDataVariables) (h : (q.insert k v).find? key = some w) : w.sid ≠ sid := by
  rw [OrderedMap.find?_insert] at h
  split at h
  · cases h
    exact hv
  · exact hq key w h

theorem without_erase (k key : ℕ)
    (w : SCTPDataVariables) (h : (q.erase k).find? key = some w) : w.sid ≠ sid := by
  rw [OrderedMap.find?_erase] at h
  split at h
  · cases h
  · exact hq key w h

theorem without_checkAndInsertVar (hv : v.sid ≠ sid) (k : BitVec 32) (key : ℕ) (w : SCTPDataVariables)
    (h : (q.checkAndInsertVar k v).2.find? key = some w) : w.sid ≠ sid := by
  unfold SCTPQueue.checkAndInsertVar at h
  split at h
  · exact hq key w h
  · exact without_insert hq hv _ key w h

end

theorem Without.moveExpected (h : Without sid s) {key : ℕ} {chunk : SCTPDataVariables}
    (hfind : s.orderedQ.find? key = some chunk) : Without sid (s.moveExpected key chunk) :=
  ⟨without_erase h.ordered key, without_insert h.delivery (h.ordered key chunk hfind) _,
    h.unordered⟩

theorem Without.dequeueExpected (h : Without sid s) : Without sid s.dequeueExpected.2 := by
  rcases s.dequeueExpected_cases with ⟨-, heq⟩ | ⟨key, chunk, hfind, -, -, -, ⟨-, heq⟩ | ⟨-, heq⟩⟩
  · rw [heq]
    exact h
  · rw [heq]
    exact h.moveExpected hfind
  · rw [heq]
    exact ⟨without_erase h.ordered key, h.delivery, h.unordered⟩

theorem mergeLoop_without {endtsn : BitVec 32} (rounds : ℕ) {first : SCTPDataVariables}
    {begintsn : BitVec 32} (hq : ∀ key v, q.find? key = some v → v.sid ≠ sid)
    (hfirst : first.sid ≠ sid) :
    Outcome (mergeLoop endtsn rounds q first begintsn)
      (fun r ↦ r.1.sid ≠ sid ∧ ∀ key v, r.2.find? key = some v → v.sid ≠ sid) (fun _ ↦ True) := by
  induction rounds generalizing q first begintsn with
  | zero => exact trivial
  | succ rounds ih =>
    refine Outcome.ite (fun _ ↦ ?_) fun _ ↦ ⟨hfirst, hq⟩
    unfold SCTPQueue.getAndExtractMessage
    split
    · exact ih (without_erase hq _) hfirst
    · exact trivial

theorem Without.reassemble (h : Without sid s) (queue : SCTPQueue) (tsn : BitVec 32) :
    Outcome (s.reassemble queue tsn) (fun r ↦ Without sid r.2) (fun _ ↦ True) := by
  refine Outcome.bind (Q := fun _ ↦ True) (by cases lowerLoop s.orderedQ allTsns tsn <;> trivial)
    fun begintsn _ ↦ ?_
  cases hbegin : s.orderedQ.getVar begintsn with
  | none => exact h
  | some first =>
    refine Outcome.bind (Q := fun _ ↦ True)
      (by cases upperLoop s.orderedQ allTsns begintsn <;> trivial) fun endtsn _ ↦ ?_
    cases s.orderedQ.getVar endtsn with
    | none => exact h
    | some _ =>
      refine (mergeLoop_without allTsns h.ordered (h.ordered _ first hbegin)).bind ?_
      rintro ⟨first', q⟩ ⟨hfirst, hq⟩
      exact ⟨without_insert hq (by exact hfirst) _, h.delivery, h.unordered⟩

theorem Without.enqueueNewDataChunk (h : Without sid s) {dchunk : SCTPDataVariables}
    (hchunk : dchunk.sid ≠ sid) :
    Outcome (s.enqueueNewDataChunk dchunk) (fun r ↦ Without sid r.2) (fun _ ↦ True) := by
  refine Outcome.ite (fun _ ↦ Outcome.ite (fun _ ↦ ?_) fun _ ↦ ?_) fun _ ↦ ?_
  · have hdelivery := without_checkAndInsertVar h.delivery hchunk dchunk.tsn
    cases hins : s.deliveryQ.checkAndInsertVar dchunk.tsn dchunk with
    | mk inserted deliveryQ =>
      rw [hins] at hdelivery
      cases inserted
      · exact h
      · exact ⟨h.ordered, hdelivery, h.unordered⟩
  · have hstart : Without sid
        { s with unorderedQ := (s.unorderedQ.checkAndInsertVar dchunk.tsn dchunk).2 } :=
      ⟨h.ordered, h.delivery, without_checkAndInsertVar h.unordered hchunk dchunk.tsn⟩
    refine (hstart.reassemble _ _).bind ?_
    rintro ⟨reassembled, s'⟩ hs'
    dsimp only at hs' ⊢
    cases hvar : s'.unorderedQ.getVar reassembled with
    | none => exact trivial
    | some w =>
      refine Outcome.ite (fun _ ↦ ?_) fun _ ↦ hs'
      unfold SCTPQueue.getAndExtractMessage
      rw [hvar, ok_bind]
      have hdelivery := without_checkAndInsertVar hs'.delivery (hs'.unordered _ w hvar) reassembled
      dsimp only
      cases hins : s'.deliveryQ.checkAndInsertVar reassembled w with
      | mk inserted deliveryQ =>
        rw [hins] at hdelivery
        cases inserted
        · exact ⟨hs'.ordered, hs'.delivery, without_erase hs'.unordered _⟩
        · exact ⟨hs'.ordered, hdelivery, without_erase hs'.unordered _⟩
  · have hstart : Without sid
        { s with orderedQ := (s.orderedQ.checkAndInsertVar dchunk.tsn dchunk).2 } :=
      ⟨without_checkAndInsertVar h.ordered hchunk dchunk.tsn, h.delivery, h.unordered⟩
    rw [SCTPReceiveStream.enqueueOrdered_eq]
    refine Outcome.bind (Q := fun r : Delivery × SCTPReceiveStream ↦ Without sid r.2) ?_
      fun r hr ↦ Without.dequeueExpected hr
    refine Outcome.ite (fun _ ↦ ?_) fun _ ↦ hstart
    exact (hstart.reassemble _ _).bind fun r hr ↦ hr

end Without

end SCTPReceiveStream

/-! ## The messages of the stream -/

/-- Ordered messages without fragmentation, numbered modulo `2 ^ 16`, with distinct TSNs. -/
structure InSequence (sid : ℕ) (sent : List SCTPDataChunk) : Prop where
  sid : ∀ c ∈ sent, c.sid = sid
  ssn : ∀ i c, sent[i]? = some c → c.ssn = BitVec.ofNat 16 i
  whole : ∀ c ∈ sent, c.uBit = false ∧ c.bBit = true ∧ c.eBit = true
  once : sent.Pairwise fun a b ↦ a.tsn ≠ b.tsn

/-- The chunk with TSN `key` that is stored for message `i`. -/
def IsMessage (sent : List SCTPDataChunk) (i key : ℕ) (v : SCTPDataVariables) : Prop :=
  ∃ c, sent[i]? = some c ∧ key = c.tsn.toNat ∧ v = makeVarFromMsg c

/-- Messages `[d, e)` wait in `deliveryQ`, the arrived messages from `e` on in `orderedQ`. -/
structure Waiting (s : SCTPReceiveStream) (sent : List SCTPDataChunk) (arrived : List ℕ)
    (d e : ℕ) : Prop where
  le : d ≤ e
  expected : s.expectedStreamSeqNum = BitVec.ofNat 16 e
  delivery : ∀ key v, s.deliveryQ.find? key = some v ↔ ∃ i, d ≤ i ∧ i < e ∧ IsMessage sent i key v
  ordered : ∀ key v, s.orderedQ.find? key = some v ↔
    ∃ i ∈ arrived, e ≤ i ∧ IsMessage sent i key v
  before : ∀ i < e, i ∈ arrived
  inside : ∀ i ∈ arrived, i < sent.length ∧ i < e + 65536

section Waiting

variable {sid d e i j key : ℕ} {sent : List SCTPDataChunk} {arrived : List ℕ}
  {s : SCTPReceiveStream} {v : SCTPDataVariables}

theorem InSequence.eq_of_key {v w : SCTPDataVariables} (h : InSequence sid sent)
    (hi : IsMessage sent i key v) (hj : IsMessage sent j key w) : i = j ∧ v = w := by
  obtain ⟨c, hc, hkey, rfl⟩ := hi
  obtain ⟨c', hc', hkey', rfl⟩ := hj
  obtain ⟨hi, rfl⟩ := List.getElem?_eq_some_iff.mp hc
  obtain ⟨hj, rfl⟩ := List.getElem?_eq_some_iff.mp hc'
  have htsn : sent[i].tsn = sent[j].tsn := BitVec.eq_of_toNat_eq (hkey.symm.trans hkey')
  have hij : i = j := by
    rcases Nat.lt_trichotomy i j with hlt | heq | hlt
    · exact absurd htsn (List.pairwise_iff_getElem.mp h.once i j hi hj hlt)
    · exact heq
    · exact absurd htsn.symm (List.pairwise_iff_getElem.mp h.once j i hj hi hlt)
  subst hij
  exact ⟨rfl, rfl⟩

section

variable (h : Waiting s sent arrived d e)

include h

/-- The message with the expected stream sequence number is message `e`. -/
theorem Waiting.eq_expected (hsent : InSequence sid sent)
    (hi : i ∈ arrived) (hle : e ≤ i) (hv : IsMessage sent i key v)
    (hssn : v.ssn = s.expectedStreamSeqNum) : i = e := by
  obtain ⟨c, hc, -, rfl⟩ := hv
  have hin := h.inside i hi
  have hssn' : BitVec.ofNat 16 i = BitVec.ofNat 16 e := by
    rw [← hsent.ssn i c hc, ← h.expected]
    exact hssn
  exact (ofNat_inj (w := 16) (by omega) (by omega)).mp hssn'

theorem Waiting.moveExpected (hsent : InSequence sid sent)
    (hfind : s.orderedQ.find? key = some v) (hssn : v.ssn = s.expectedStreamSeqNum) :
    s.deliveryQ.find? v.tsn.toNat = none ∧
      Waiting (s.moveExpected key v) sent arrived d (e + 1) := by
  obtain ⟨i, hi, hle, hmessage⟩ := (h.ordered key v).mp hfind
  obtain rfl := h.eq_expected hsent hi hle hmessage hssn
  have hkey : v.tsn.toNat = key := by
    obtain ⟨c, -, rfl, rfl⟩ := hmessage
    rfl
  refine ⟨?_, ⟨h.le.trans (by omega), ?_, fun k w ↦ ?_, fun k w ↦ ?_, fun j hj ↦ ?_, fun j hj ↦ ?_⟩⟩
  · rw [hkey]
    cases hdel : s.deliveryQ.find? key with
    | none => rfl
    | some w =>
      obtain ⟨j, -, hj, hw⟩ := (h.delivery key w).mp hdel
      have := (hsent.eq_of_key hw hmessage).1
      omega
  · show s.expectedStreamSeqNum + 1 = _
    rw [h.expected, ofNat_add_one]
  · show (s.deliveryQ.insert v.tsn.toNat v).find? k = some w ↔ _
    rw [OrderedMap.find?_insert, hkey]
    split <;> rename_i hk
    · subst hk
      refine ⟨fun hw ↦ ?_, fun ⟨j, _, _, hw⟩ ↦ ?_⟩
      · cases hw
        exact ⟨i, h.le, by omega, hmessage⟩
      · rw [(hsent.eq_of_key hw hmessage).2]
    · rw [h.delivery k w]
      refine ⟨fun ⟨j, hd, hj, hw⟩ ↦ ⟨j, hd, by omega, hw⟩, fun ⟨j, hd, hj, hw⟩ ↦ ⟨j, hd, ?_, hw⟩⟩
      rcases (show j ≤ i by omega).eq_or_lt with rfl | hlt
      · obtain ⟨c, hc, hck, -⟩ := hw
        obtain ⟨c', hc', hck', -⟩ := hmessage
        rw [hc] at hc'
        cases hc'
        exact absurd (hck.trans hck'.symm) hk
      · exact hlt
  · show (s.orderedQ.erase key).find? k = some w ↔ _
    rw [OrderedMap.find?_erase]
    split <;> rename_i hk
    · subst hk
      refine ⟨nofun, fun ⟨j, _, hj, hw⟩ ↦ ?_⟩
      have := (hsent.eq_of_key hw hmessage).1
      omega
    · rw [h.ordered k w]
      refine ⟨fun ⟨j, hmem, hj, hw⟩ ↦ ⟨j, hmem, ?_, hw⟩, fun ⟨j, hmem, hj, hw⟩ ↦
        ⟨j, hmem, by omega, hw⟩⟩
      rcases hj.eq_or_lt with rfl | hlt
      · obtain ⟨c, hc, hck, -⟩ := hw
        obtain ⟨c', hc', hck', -⟩ := hmessage
        rw [hc] at hc'
        cases hc'
        exact absurd (hck.trans hck'.symm) hk
      · exact hlt
  · rcases (show j ≤ i by omega).eq_or_lt with rfl | hlt
    · exact hi
    · exact h.before j hlt
  · have := h.inside j hj
    omega

theorem Waiting.not_mem (hsent : InSequence sid sent)
    (hnone : s.orderedQ.dequeueVarBySsn s.expectedStreamSeqNum = none) : e ∉ arrived := by
  intro he
  obtain ⟨hlt, -⟩ := h.inside e he
  have hc : sent[e]? = some sent[e] := List.getElem?_eq_getElem hlt
  have hfind : s.orderedQ.find? sent[e].tsn.toNat = some (makeVarFromMsg sent[e]) :=
    (h.ordered _ _).mpr ⟨e, he, le_rfl, sent[e], hc, rfl, rfl⟩
  refine SCTPReceiveStream.dequeueVarBySsn_eq_none hnone hfind ⟨?_, ?_, ?_⟩
  · rw [h.expected]
    exact hsent.ssn e _ hc
  · exact (hsent.whole _ (List.getElem_mem hlt)).2.1
  · exact (hsent.whole _ (List.getElem_mem hlt)).2.2

theorem Waiting.dequeueExpected (hsent : InSequence sid sent) :
    ∃ e', Waiting s.dequeueExpected.2 sent arrived d e' := by
  rcases s.dequeueExpected_cases with ⟨-, heq⟩ | ⟨key, chunk, hfind, hssn, -, -, hcase⟩
  · rw [heq]
    exact ⟨e, h⟩
  · obtain ⟨hfree, hmoved⟩ := h.moveExpected hsent hfind hssn
    rcases hcase with ⟨-, heq⟩ | ⟨⟨w, hw⟩, -⟩
    · rw [heq]
      exact ⟨e + 1, hmoved⟩
    · rw [hfree] at hw
      cases hw

end

/-- The loop ends at the first message that has not arrived. -/
theorem Waiting.putLoop (hsent : InSequence sid sent) (queued : ℤ) (rounds : ℕ)
    (h : Waiting s sent arrived d e) (hrounds : s.orderedQ.size ≤ rounds) :
    ∃ e', Waiting (SCTPReceiver.putLoop rounds s queued).1 sent arrived d e' ∧ e' ∉ arrived := by
  induction rounds generalizing s e queued with
  | zero =>
    refine ⟨e, h, h.not_mem hsent ?_⟩
    have hnil : s.orderedQ.entries = [] := List.length_eq_zero_iff.mp (Nat.le_zero.mp hrounds)
    unfold SCTPQueue.dequeueVarBySsn OrderedMap.findFirst?
    rw [hnil]
    rfl
  | succ rounds ih =>
    unfold SCTPReceiver.putLoop
    cases hdeq : s.orderedQ.dequeueVarBySsn s.expectedStreamSeqNum with
    | none => exact ⟨e, h, h.not_mem hsent hdeq⟩
    | some r =>
      obtain ⟨chunk, q'⟩ := r
      obtain ⟨key, hfind, hssn, -, -, rfl⟩ := SCTPReceiveStream.dequeueVarBySsn_eq_some hdeq
      obtain ⟨hfree, hmoved⟩ := h.moveExpected hsent hfind hssn
      have hinsert : s.deliveryQ.checkAndInsertVar chunk.tsn chunk =
          (true, s.deliveryQ.insert chunk.tsn.toNat chunk) := by
        rcases SCTPReceiveStream.checkAndInsertVar_cases s.deliveryQ chunk.tsn chunk with
          ⟨-, heq⟩ | ⟨⟨w, hw⟩, -⟩
        · exact heq
        · rw [hfree] at hw
          cases hw
      dsimp only
      rw [hinsert]
      have hsize := OrderedMap.size_erase hfind
      exact ih _ hmoved (show (s.orderedQ.erase key).size ≤ rounds by omega)

theorem Waiting.insert (h : Waiting s sent arrived d e) (hsent : InSequence sid sent)
    {c : SCTPDataChunk} (hc : sent[i]? = some c) (hnew : i ∉ arrived) (hwindow : i < e + 65536) :
    s.orderedQ.find? c.tsn.toNat = none ∧
      Waiting { s with orderedQ := s.orderedQ.insert c.tsn.toNat (makeVarFromMsg c) } sent
        (i :: arrived) d e := by
  have hmessage : IsMessage sent i c.tsn.toNat (makeVarFromMsg c) := ⟨c, hc, rfl, rfl⟩
  have hie : e ≤ i := not_lt.mp fun hlt ↦ hnew (h.before i hlt)
  refine ⟨?_, ⟨h.le, h.expected, h.delivery, fun k w ↦ ?_, fun j hj ↦ ?_, fun j hj ↦ ?_⟩⟩
  · cases hfind : s.orderedQ.find? c.tsn.toNat with
    | none => rfl
    | some w =>
      obtain ⟨j, hj, -, hw⟩ := (h.ordered _ w).mp hfind
      exact absurd ((hsent.eq_of_key hw hmessage).1 ▸ hj) hnew
  · dsimp only
    rw [OrderedMap.find?_insert]
    split <;> rename_i hk
    · subst hk
      refine ⟨fun hw ↦ ?_, fun ⟨j, _, _, hw⟩ ↦ ?_⟩
      · cases hw
        exact ⟨i, by simp, hie, hmessage⟩
      · rw [(hsent.eq_of_key hw hmessage).2]
    · rw [h.ordered k w]
      refine ⟨fun ⟨j, hj, hle, hw⟩ ↦ ⟨j, by simp [hj], hle, hw⟩, fun ⟨j, hj, hle, hw⟩ ↦
        ⟨j, ?_, hle, hw⟩⟩
      rcases List.mem_cons.mp hj with rfl | hj
      · obtain ⟨c', hc', hck, -⟩ := hw
        rw [hc] at hc'
        cases hc'
        exact absurd hck hk
      · exact hj
  · exact List.mem_cons_of_mem _ (h.before j hj)
  · rcases List.mem_cons.mp hj with rfl | hj
    · exact ⟨(List.getElem?_eq_some_iff.mp hc).1, hwindow⟩
    · exact h.inside j hj

end Waiting

/-! ## The association -/

namespace SCTPReceiver

/-- `d` messages of the stream have been delivered and `[d, e)` wait for delivery. -/
structure Ready (a : SCTPReceiver) (sid : ℕ) (sent : List SCTPDataChunk) (arrived : List ℕ)
    (d e : ℕ) : Prop where
  sid_lt : sid < a.receiveStreams.length
  waiting : Waiting (a.receiveStreams.getD sid {}) sent arrived d e
  others : ∀ k ≠ sid, (a.receiveStreams.getD k {}).Without sid
  delivered : a.delivered.filter (·.sid = sid) = (sent.take d).map makeVarFromMsg

/-- Of two messages in the queue the one sent first has the smaller TSN. -/
def PlainOrder (sent : List SCTPDataChunk) (q : SCTPQueue) : Prop :=
  sent.Pairwise fun a b ↦ (q.getVar a.tsn).isSome → (q.getVar b.tsn).isSome →
    a.tsn.toNat < b.tsn.toNat

instance (sent : List SCTPDataChunk) (q : SCTPQueue) : Decidable (PlainOrder sent q) :=
  inferInstanceAs (Decidable (List.Pairwise _ _))

section Ready

variable {a : SCTPReceiver} {sid d e k : ℕ} {sent : List SCTPDataChunk} {arrived : List ℕ}

theorem getD_set_self {l : List SCTPReceiveStream} (h : k < l.length) (s : SCTPReceiveStream) :
    (l.set k s).getD k {} = s := by
  simp [List.getD, h]

theorem getD_set_of_ne {l : List SCTPReceiveStream} {k' : ℕ} (h : k' ≠ k) (s : SCTPReceiveStream) :
    (l.set k s).getD k' {} = l.getD k' {} := by
  simp [List.getD, List.getElem?_set_ne h.symm]

theorem Ready.setOther (h : Ready a sid sent arrived d e) (hk : k ≠ sid) {s : SCTPReceiveStream}
    (hs : s.Without sid) {a' : SCTPReceiver}
    (hstreams : a'.receiveStreams = a.receiveStreams.set k s)
    (hdelivered : a'.delivered.filter (·.sid = sid) = a.delivered.filter (·.sid = sid)) :
    Ready a' sid sent arrived d e := by
  refine ⟨by rw [hstreams, List.length_set]; exact h.sid_lt, ?_, fun k' hk' ↦ ?_,
    hdelivered.trans h.delivered⟩
  · rw [hstreams, getD_set_of_ne hk.symm]
    exact h.waiting
  · rw [hstreams]
    by_cases heq : k' = k
    · subst heq
      by_cases hlt : k' < a.receiveStreams.length
      · rw [getD_set_self hlt]
        exact hs
      · rw [List.set_eq_of_length_le (by omega)]
        exact h.others k' hk'
    · rw [getD_set_of_ne heq]
      exact h.others k' hk'

theorem Ready.setSelf (h : Ready a sid sent arrived d e) {s : SCTPReceiveStream}
    {arrived' : List ℕ} {d' e' : ℕ} (hs : Waiting s sent arrived' d' e') {a' : SCTPReceiver}
    (hstreams : a'.receiveStreams = a.receiveStreams.set sid s)
    (hdelivered : a'.delivered.filter (·.sid = sid) = (sent.take d').map makeVarFromMsg) :
    Ready a' sid sent arrived' d' e' := by
  refine ⟨by rw [hstreams, List.length_set]; exact h.sid_lt, ?_, fun k' hk' ↦ ?_, hdelivered⟩
  · rw [hstreams, getD_set_self h.sid_lt]
    exact hs
  · rw [hstreams, getD_set_of_ne hk']
    exact h.others k' hk'

theorem without_putLoop {s : SCTPReceiveStream} (rounds : ℕ) (queued : ℤ) (h : s.Without sid) :
    (putLoop rounds s queued).1.Without sid := by
  induction rounds generalizing s queued with
  | zero => exact h
  | succ rounds ih =>
    unfold putLoop
    cases hdeq : s.orderedQ.dequeueVarBySsn s.expectedStreamSeqNum with
    | none => exact h
    | some r =>
      obtain ⟨chunk, q'⟩ := r
      obtain ⟨key, hfind, -, -, -, rfl⟩ := SCTPReceiveStream.dequeueVarBySsn_eq_some hdeq
      dsimp only
      rcases SCTPReceiveStream.checkAndInsertVar_cases s.deliveryQ chunk.tsn chunk with
        ⟨-, heq⟩ | ⟨-, heq⟩
      · rw [heq]
        exact ih _ (h.moveExpected hfind)
      · rw [heq]
        exact ih _ ⟨SCTPReceiveStream.without_erase h.ordered key, h.delivery, h.unordered⟩

theorem Ready.putOther (h : Ready a sid sent arrived d e) (hk : k ≠ sid) :
    Ready (a.putInDeliveryQ k) sid sent arrived d e :=
  h.setOther hk (without_putLoop _ _ (h.others k hk)) rfl rfl

theorem Ready.putSelf (h : Ready a sid sent arrived d e) (hsent : InSequence sid sent) :
    ∃ e', Ready (a.putInDeliveryQ sid) sid sent arrived d e' ∧ e' ∉ arrived := by
  obtain ⟨e', hwaiting, he'⟩ := h.waiting.putLoop hsent a.queuedRcvBytes _ le_rfl
  exact ⟨e', h.setSelf hwaiting rfl h.delivered, he'⟩

/-- When message `e` has not arrived, `putInDeliveryQ` has nothing to do for any stream. -/
theorem Ready.putAll (h : Ready a sid sent arrived d e) (hsent : InSequence sid sent)
    (he : e ∉ arrived) (ks : List ℕ) :
    ∃ e', Ready (ks.foldl putInDeliveryQ a) sid sent arrived d e' ∧ e' ∉ arrived := by
  induction ks generalizing a e with
  | nil => exact ⟨e, h, he⟩
  | cons k ks ih =>
    rw [List.foldl_cons]
    by_cases hk : k = sid
    · subst hk
      obtain ⟨e', h', he'⟩ := h.putSelf hsent
      exact ih h' he'
    · exact ih (h.putOther hk) he

theorem extractMessage_eq_some {q q' : SCTPQueue} {v : SCTPDataVariables}
    (h : q.extractMessage = some (v, q')) :
    ∃ key, q.find? key = some v ∧ q' = q.erase key ∧ ∀ k w, q.find? k = some w → key ≤ k := by
  unfold SCTPQueue.extractMessage at h
  split at h
  · cases h
  · rename_i key datVar rest hentries
    cases h
    obtain ⟨hfind, hle⟩ := OrderedMap.head_le hentries
    exact ⟨key, hfind, rfl, hle⟩

theorem extractMessage_eq_none {q : SCTPQueue} (h : q.extractMessage = none) :
    q.size = 0 := by
  unfold SCTPQueue.extractMessage at h
  split at h
  · rename_i hentries
    exact List.length_eq_zero_iff.mpr hentries
  · cases h

theorem deliver_streams_self (a : SCTPReceiver) (hk : k < a.receiveStreams.length)
    (chunk : SCTPDataVariables) (q : SCTPQueue) :
    (a.deliver k chunk q).receiveStreams.getD k {} =
      { a.receiveStreams.getD k {} with deliveryQ := q } := by
  rw [deliver_receiveStreams, getD_set_self hk]

theorem Ready.pushOther (restrict : Bool) (h : Ready a sid sent arrived d e) (hk : k ≠ sid)
    (rounds : ℕ) :
    Ready (pushLoop restrict k rounds a) sid sent arrived d e ∧
      (pushLoop restrict k rounds a).pushMessagesLeft ≤ a.pushMessagesLeft ∧
      (pushLoop restrict k rounds a).receiveStreams.getD sid {} = a.receiveStreams.getD sid {} := by
  induction rounds generalizing a with
  | zero => exact ⟨h, le_rfl, rfl⟩
  | succ rounds ih =>
    unfold pushLoop
    cases hextract : (a.receiveStreams.getD k {}).deliveryQ.extractMessage with
    | none => exact ⟨h, le_rfl, rfl⟩
    | some r =>
      obtain ⟨chunk, q'⟩ := r
      obtain ⟨key, hfind, rfl, -⟩ := extractMessage_eq_some hextract
      have hother := h.others k hk
      dsimp only
      split
      · exact ⟨h, le_rfl, rfl⟩
      · have hfilter : (a.deliver k chunk ((a.receiveStreams.getD k {}).deliveryQ.erase
            key)).delivered.filter (·.sid = sid) = a.delivered.filter (·.sid = sid) := by
          rw [deliver_delivered, List.filter_append,
            List.filter_cons_of_neg (by simpa using hother.delivery key chunk hfind)]
          simp
        have hwithout : SCTPReceiveStream.Without sid { a.receiveStreams.getD k {} with
            deliveryQ := (a.receiveStreams.getD k {}).deliveryQ.erase key } :=
          ⟨hother.ordered, SCTPReceiveStream.without_erase hother.delivery key, hother.unordered⟩
        have hnext := h.setOther hk hwithout (deliver_receiveStreams a k chunk _) hfilter
        obtain ⟨hready, hleft, hstream⟩ := ih hnext
        refine ⟨hready, hleft.trans (deliver_pushMessagesLeft_le a k chunk _), hstream.trans ?_⟩
        rw [deliver_receiveStreams, getD_set_of_ne hk.symm]

/-- The smallest TSN in `deliveryQ` belongs to the message that is next. -/
theorem Waiting.first {s : SCTPReceiveStream} (h : Waiting s sent arrived d e)
    (hplain : PlainOrder sent s.deliveryQ) {key : ℕ} {v : SCTPDataVariables}
    (hfind : s.deliveryQ.find? key = some v)
    (hleast : ∀ k w, s.deliveryQ.find? k = some w → key ≤ k) : IsMessage sent d key v ∧ d < e := by
  obtain ⟨i, hdi, hie, hv⟩ := (h.delivery key v).mp hfind
  rcases hdi.eq_or_lt with rfl | hlt
  · exact ⟨hv, hie⟩
  · obtain ⟨c, hc, hkey, -⟩ := hv
    obtain ⟨hi, hci⟩ := List.getElem?_eq_some_iff.mp hc
    have hd : d < sent.length := by omega
    have hfindd : s.deliveryQ.find? sent[d].tsn.toNat = some (makeVarFromMsg sent[d]) :=
      (h.delivery _ _).mpr ⟨d, le_rfl, by omega, _, List.getElem?_eq_getElem hd, rfl, rfl⟩
    have hlt' := List.pairwise_iff_getElem.mp hplain d i hd hi hlt
      (by rw [SCTPQueue.getVar, hfindd]; rfl)
      (by rw [SCTPQueue.getVar, hci, ← hkey, hfind]; rfl)
    rw [hci, ← hkey] at hlt'
    have := hleast _ _ hfindd
    omega

theorem Waiting.extract {s : SCTPReceiveStream} (h : Waiting s sent arrived d e)
    (hsent : InSequence sid sent) {key : ℕ} {v : SCTPDataVariables}
    (hv : IsMessage sent d key v) (hde : d < e) :
    Waiting { s with deliveryQ := s.deliveryQ.erase key } sent arrived (d + 1) e := by
  refine ⟨hde, h.expected, fun k w ↦ ?_, h.ordered, h.before, h.inside⟩
  dsimp only
  rw [OrderedMap.find?_erase]
  split <;> rename_i hk
  · subst hk
    refine ⟨nofun, fun ⟨j, hj, _, hw⟩ ↦ ?_⟩
    have := (hsent.eq_of_key hw hv).1
    omega
  · rw [h.delivery k w]
    refine ⟨fun ⟨j, hd, hj, hw⟩ ↦ ⟨j, ?_, hj, hw⟩, fun ⟨j, hd, hj, hw⟩ ↦ ⟨j, by omega, hj, hw⟩⟩
    rcases hd.eq_or_lt with rfl | hlt
    · obtain ⟨c, hc, hck, -⟩ := hw
      obtain ⟨c', hc', hck', -⟩ := hv
      rw [hc] at hc'
      cases hc'
      exact absurd (hck.trans hck'.symm) hk
    · exact hlt

theorem PlainOrder.erase {q : SCTPQueue} (h : PlainOrder sent q) (key : ℕ) :
    PlainOrder sent (q.erase key) := by
  refine List.Pairwise.imp (fun hab ha hb ↦ hab ?_ ?_) h
  all_goals
    unfold SCTPQueue.getVar at *
    rw [OrderedMap.find?_erase] at ha hb
    split at ha <;> split at hb <;> simp_all

/-- The messages of the stream itself are delivered, in the order in which they were sent. -/
theorem Ready.pushSelf (restrict : Bool) (h : Ready a sid sent arrived d e)
    (hsent : InSequence sid sent)
    (hplain : PlainOrder sent (a.receiveStreams.getD sid {}).deliveryQ) (rounds : ℕ) :
    ∃ d' ≥ d, Ready (pushLoop restrict sid rounds a) sid sent arrived d' e ∧
      PlainOrder sent ((pushLoop restrict sid rounds a).receiveStreams.getD sid {}).deliveryQ ∧
      (pushLoop restrict sid rounds a).pushMessagesLeft ≤ a.pushMessagesLeft ∧
      ((a.receiveStreams.getD sid {}).deliveryQ.size ≤ rounds → d' = e ∨
        (restrict = true ∧ (pushLoop restrict sid rounds a).pushMessagesLeft ≤ 0)) := by
  have hempty : (a.receiveStreams.getD sid {}).deliveryQ.size = 0 → d = e := by
    intro hsize
    by_contra hne
    have hle := h.waiting.le
    have hd := (h.waiting.inside d (h.waiting.before d (by omega))).1
    have hfind := (h.waiting.delivery sent[d].tsn.toNat (makeVarFromMsg sent[d])).mpr
      ⟨d, le_rfl, by omega, _, List.getElem?_eq_getElem hd, rfl, rfl⟩
    have := OrderedMap.size_erase hfind
    omega
  induction rounds generalizing a d with
  | zero => exact ⟨d, le_rfl, h, hplain, le_rfl, fun hsize ↦ .inl (hempty (by omega))⟩
  | succ rounds ih =>
    unfold pushLoop
    cases hextract : (a.receiveStreams.getD sid {}).deliveryQ.extractMessage with
    | none =>
      exact ⟨d, le_rfl, h, hplain, le_rfl, fun _ ↦ .inl (hempty (extractMessage_eq_none hextract))⟩
    | some r =>
      obtain ⟨chunk, q'⟩ := r
      obtain ⟨key, hfind, rfl, hleast⟩ := extractMessage_eq_some hextract
      dsimp only
      split <;> rename_i hquota
      · simp only [Bool.and_eq_true, decide_eq_true_eq] at hquota
        exact ⟨d, le_rfl, h, hplain, le_rfl, fun _ ↦ .inr hquota⟩
      · obtain ⟨hmessage, hde⟩ := Waiting.first h.waiting hplain hfind hleast
        obtain ⟨c, hc, -, rfl⟩ := id hmessage
        have hsid : (makeVarFromMsg c).sid = sid := hsent.sid c (List.mem_of_getElem? hc)
        have hfilter : (a.deliver sid (makeVarFromMsg c)
            ((a.receiveStreams.getD sid {}).deliveryQ.erase key)).delivered.filter (·.sid = sid) =
            (sent.take (d + 1)).map makeVarFromMsg := by
          rw [deliver_delivered, List.filter_append, h.delivered,
            List.filter_cons_of_pos (by simpa using hsid), List.take_add_one, hc, List.map_append]
          rfl
        have hnext := h.setSelf (Waiting.extract h.waiting hsent hmessage hde)
          (deliver_receiveStreams a sid _ _) hfilter
        have hstream := deliver_streams_self a h.sid_lt (makeVarFromMsg c)
          ((a.receiveStreams.getD sid {}).deliveryQ.erase key)
        have hsize := OrderedMap.size_erase hfind
        obtain ⟨d', hd', hready, hplain', hleft, hdone⟩ := ih hnext
          (by rw [hstream]; exact hplain.erase key) (by
            intro hzero
            by_contra hne
            have hle := hnext.waiting.le
            have hlt := (hnext.waiting.inside _ (hnext.waiting.before (d + 1) (by omega))).1
            have hfind' := (hnext.waiting.delivery _ (makeVarFromMsg sent[d + 1])).mpr
              ⟨d + 1, le_rfl, by omega, _, List.getElem?_eq_getElem hlt, rfl, rfl⟩
            have := OrderedMap.size_erase hfind'
            omega)
        refine ⟨d', by omega, hready, hplain', hleft.trans (deliver_pushMessagesLeft_le _ _ _ _),
          fun hrounds ↦ hdone ?_⟩
        rw [hstream]
        show ((a.receiveStreams.getD sid {}).deliveryQ.erase key).size ≤ rounds
        omega

/-- Streams are served one after another. Whatever is left of the messages of stream `sid` once it
has been served is left because `pushMessagesLeft` is used up. -/
theorem Ready.pushStreams (restrict : Bool) (hsent : InSequence sid sent) (ks : List ℕ)
    (h : Ready a sid sent arrived d e)
    (hplain : PlainOrder sent (a.receiveStreams.getD sid {}).deliveryQ) :
    ∃ d' ≥ d, Ready (ks.foldl (pushStream restrict) a) sid sent arrived d' e ∧
      (ks.foldl (pushStream restrict) a).pushMessagesLeft ≤ a.pushMessagesLeft ∧
      (sid ∈ ks → d' = e ∨
        (restrict = true ∧ (ks.foldl (pushStream restrict) a).pushMessagesLeft ≤ 0)) := by
  induction ks generalizing a d with
  | nil => exact ⟨d, le_rfl, h, le_rfl, fun hmem ↦ by cases hmem⟩
  | cons k ks ih =>
    rw [List.foldl_cons]
    by_cases hk : k = sid
    · subst hk
      obtain ⟨d₁, hd₁, h₁, hplain₁, hleft₁, hdone⟩ := h.pushSelf restrict hsent hplain _
      obtain ⟨d₂, hd₂, h₂, hleft₂, -⟩ := ih h₁ hplain₁
      refine ⟨d₂, by omega, h₂, hleft₂.trans hleft₁, fun _ ↦ ?_⟩
      rcases hdone le_rfl with rfl | ⟨hrestrict, hzero⟩
      · exact .inl (le_antisymm h₂.waiting.le hd₂)
      · exact .inr ⟨hrestrict, hleft₂.trans hzero⟩
    · obtain ⟨h₁, hleft₁, hstream⟩ := h.pushOther restrict hk
        (a.receiveStreams.getD k {}).deliveryQ.size
      obtain ⟨d₂, hd₂, h₂, hleft₂, hdone⟩ := ih h₁ (hstream.symm ▸ hplain)
      refine ⟨d₂, hd₂, h₂, hleft₂.trans hleft₁, fun hmem ↦ hdone ?_⟩
      exact (List.mem_cons.mp hmem).resolve_left fun heq ↦ hk heq.symm

theorem mem_pushOrder (a : SCTPReceiver) (h : sid < a.receiveStreams.length) : sid ∈ a.pushOrder := by
  unfold pushOrder
  rw [List.mem_map]
  have hn : 0 < a.receiveStreams.length := by omega
  have hr := Nat.mod_lt a.nextRSid hn
  refine ⟨(sid + (a.receiveStreams.length - a.nextRSid % a.receiveStreams.length)) %
    a.receiveStreams.length, by simpa using Nat.mod_lt _ hn, ?_⟩
  rw [Nat.add_mod, Nat.mod_mod, ← Nat.add_mod, Nat.add_comm,
    ← Nat.add_mod_mod, Nat.add_assoc, Nat.sub_add_cancel hr.le, Nat.add_mod_right,
    Nat.mod_eq_of_lt h]

/-- The quota of a `pushUlp` call was not used up. -/
def AskedForEnough (a : SCTPReceiver) : Prop :=
  0 < a.pushUlp.pushMessagesLeft ∨ (a.pushMessagesLeft ≤ 0 ∧ a.messagesToPush = 0)

theorem putAll_frame (ks : List ℕ) (a : SCTPReceiver) :
    (ks.foldl putInDeliveryQ a).pushMessagesLeft = a.pushMessagesLeft ∧
      (ks.foldl putInDeliveryQ a).messagesToPush = a.messagesToPush := by
  induction ks generalizing a with
  | nil => exact ⟨rfl, rfl⟩
  | cons k ks ih => exact ih (a.putInDeliveryQ k)

/-- The first message that has not arrived is determined by `arrived`. -/
theorem Waiting.eq_of_not_mem {s s' : SCTPReceiveStream} {d' e' : ℕ}
    (h : Waiting s sent arrived d e) (h' : Waiting s' sent arrived d' e') (he : e ∉ arrived)
    (he' : e' ∉ arrived) : e' = e := by
  rcases Nat.lt_trichotomy e e' with hlt | heq | hlt
  · exact absurd (h'.before e hlt) he
  · exact heq.symm
  · exact absurd (h.before e' hlt) he'

theorem Waiting.plainOrder {s s' : SCTPReceiveStream} (h : Waiting s sent arrived d e)
    (h' : Waiting s' sent arrived d e) (hplain : PlainOrder sent s.deliveryQ) :
    PlainOrder sent s'.deliveryQ := by
  have hfind : ∀ key, s'.deliveryQ.find? key = s.deliveryQ.find? key := by
    intro key
    ext v
    rw [h.delivery key v, h'.delivery key v]
  unfold PlainOrder SCTPQueue.getVar at *
  simp only [hfind]
  exact hplain

theorem Ready.pushUlp (h : Ready a sid sent arrived d e) (hsent : InSequence sid sent)
    (he : e ∉ arrived) (hplain : PlainOrder sent (a.receiveStreams.getD sid {}).deliveryQ) :
    ∃ d' ≥ d, Ready a.pushUlp sid sent arrived d' e ∧ (a.AskedForEnough → d' = e) := by
  obtain ⟨e', hput, he'⟩ := h.putAll hsent he (List.range a.receiveStreams.length)
  obtain rfl := Waiting.eq_of_not_mem h.waiting hput.waiting he he'
  have hplain' := Waiting.plainOrder h.waiting hput.waiting hplain
  obtain ⟨hleft, hpush⟩ := putAll_frame (List.range a.receiveStreams.length) a
  let b := (List.range a.receiveStreams.length).foldl putInDeliveryQ a
  let b' : SCTPReceiver := { b with pushMessagesLeft :=
    if b.pushMessagesLeft ≤ 0 then b.messagesToPush else b.pushMessagesLeft }
  have hready : Ready b' sid sent arrived d e' :=
    ⟨hput.sid_lt, hput.waiting, hput.others, hput.delivered⟩
  obtain ⟨d', hd', hready', -, hdone⟩ := hready.pushStreams (decide (0 < b'.pushMessagesLeft)) hsent
    b'.pushOrder hplain'
  refine ⟨d', hd', ⟨hready'.sid_lt, hready'.waiting, hready'.others, hready'.delivered⟩, ?_⟩
  intro hasked
  rcases hdone (b'.mem_pushOrder hready.sid_lt) with heq | ⟨hrestrict, hused⟩
  · exact heq
  · -- the quota was used up, and it was a real one
    rcases hasked with hpos | ⟨hzero, hall⟩
    · exact absurd hpos (not_lt.mpr hused)
    · have hb : b'.pushMessagesLeft = 0 := by
        show (if b.pushMessagesLeft ≤ 0 then (b.messagesToPush : ℤ) else b.pushMessagesLeft) = 0
        rw [hleft, hpush, if_pos hzero, hall]
        rfl
      rw [hb] at hrestrict
      cases hrestrict

theorem enqueueNew_eq (a : SCTPReceiver) (c : SCTPDataChunk) {s : SCTPReceiveStream}
    (hs : a.receiveStreams[c.sid]? = some s) :
    a.enqueueNew c = s.enqueueNewDataChunk (makeVarFromMsg c) >>= fun r ↦
      let a : SCTPReceiver := { a with receiveStreams := a.receiveStreams.set c.sid r.2,
                                       newChunkReceived := false }
      .ok (match r.1 with
        | .none => a
        | .fragment => { a with queuedRcvBytes := a.queuedRcvBytes + c.payload.length }
        | .orderedQ | .deliveryQ =>
            { a with queuedRcvBytes := a.queuedRcvBytes + c.payload.length
            }.putInDeliveryQ c.sid) := by
  unfold enqueueNew
  rw [hs]
  dsimp only
  cases s.enqueueNewDataChunk (makeVarFromMsg c) with
  | error e => rfl
  | ok r =>
    obtain ⟨ret, s'⟩ := r
    cases ret <;> rfl

theorem Ready.enqueueOther (h : Ready a sid sent arrived d e) {c : SCTPDataChunk}
    (hc : c.sid ≠ sid) :
    Outcome (a.enqueueNew c) (fun a' ↦ Ready a' sid sent arrived d e) (fun _ ↦ True) := by
  cases hs : a.receiveStreams[c.sid]? with
  | none =>
    unfold enqueueNew
    rw [hs]
    exact trivial
  | some s =>
    rw [enqueueNew_eq a c hs]
    have hwithout : s.Without sid := by
      have := h.others c.sid hc
      rwa [List.getD_eq_getElem?_getD, hs] at this
    have hvar : (makeVarFromMsg c).sid ≠ sid := hc
    apply (hwithout.enqueueNewDataChunk hvar).bind
    rintro ⟨ret, s'⟩ hs'
    dsimp only at hs' ⊢
    have hset : Ready { a with
        receiveStreams := a.receiveStreams.set c.sid s'
        newChunkReceived := false
        queuedRcvBytes := a.queuedRcvBytes + c.payload.length } sid sent arrived d e :=
      h.setOther hc hs' rfl rfl
    cases ret with
    | none => exact h.setOther hc hs' rfl rfl
    | fragment => exact h.setOther hc hs' rfl rfl
    | orderedQ => exact hset.putOther hc
    | deliveryQ => exact hset.putOther hc

/-- A complete ordered chunk is inserted, and the next message in sequence may be moved. -/
theorem enqueueWhole_eq {s : SCTPReceiveStream} {c : SCTPDataChunk}
    (hwhole : c.uBit = false ∧ c.bBit = true ∧ c.eBit = true)
    (hfree : s.orderedQ.find? c.tsn.toNat = none) :
    ∃ ret ≠ SCTPReceiveStream.Delivery.none, ret ≠ SCTPReceiveStream.Delivery.fragment ∧
      s.enqueueNewDataChunk (makeVarFromMsg c) = .ok (ret, SCTPReceiveStream.dequeueExpected
        { s with orderedQ := s.orderedQ.insert c.tsn.toNat (makeVarFromMsg c) } |>.2) := by
  obtain ⟨hu, hb, he⟩ := hwhole
  have hinsert : s.orderedQ.checkAndInsertVar c.tsn (makeVarFromMsg c) =
      (true, s.orderedQ.insert c.tsn.toNat (makeVarFromMsg c)) := by
    rcases SCTPReceiveStream.checkAndInsertVar_cases s.orderedQ c.tsn (makeVarFromMsg c) with
      ⟨-, heq⟩ | ⟨⟨w, hw⟩, -⟩
    · exact heq
    · rw [hfree] at hw
      cases hw
  have hordered : s.enqueueNewDataChunk (makeVarFromMsg c) =
      s.enqueueOrdered (makeVarFromMsg c) := by
    unfold SCTPReceiveStream.enqueueNewDataChunk
    rw [if_neg (by simp [makeVarFromMsg, hu])]
  rw [hordered, SCTPReceiveStream.enqueueOrdered_eq, if_neg (by simp [makeVarFromMsg, hb, he]),
    show (makeVarFromMsg c).tsn = c.tsn from rfl, hinsert]
  simp only [ok_bind, if_true]
  refine ⟨_, ?_, ?_, rfl⟩
  · split <;> nofun
  · split <;> nofun

theorem Ready.enqueueMessage (h : Ready a sid sent arrived d e) (hsent : InSequence sid sent)
    {c : SCTPDataChunk} {i : ℕ} (hc : sent[i]? = some c) (hnew : i ∉ arrived)
    (hwindow : i < e + 65536) :
    Outcome (a.enqueueNew c)
      (fun a' ↦ ∃ e', Ready a' sid sent (i :: arrived) d e' ∧ e' ∉ i :: arrived)
      (fun _ ↦ False) := by
  have hmem := List.mem_of_getElem? hc
  have hsid : c.sid = sid := hsent.sid c hmem
  have hs : a.receiveStreams[c.sid]? = some (a.receiveStreams.getD sid {}) := by
    rw [hsid, List.getD_eq_getElem?_getD, List.getElem?_eq_getElem h.sid_lt]
    rfl
  obtain ⟨hfree, hwaiting⟩ := h.waiting.insert hsent hc hnew hwindow
  obtain ⟨e₁, hwaiting₁⟩ := hwaiting.dequeueExpected hsent
  obtain ⟨ret, hret, hret', heq⟩ := enqueueWhole_eq (hsent.whole c hmem) hfree
  rw [enqueueNew_eq a c hs, heq, ok_bind, hsid]
  have hset : Ready { a with
      receiveStreams := a.receiveStreams.set sid _
      newChunkReceived := false
      queuedRcvBytes := a.queuedRcvBytes + c.payload.length } sid sent (i :: arrived) d e₁ :=
    h.setSelf hwaiting₁ rfl h.delivered
  cases ret with
  | none => exact absurd rfl hret
  | fragment => exact absurd rfl hret'
  | orderedQ => exact hset.putSelf hsent
  | deliveryQ => exact hset.putSelf hsent

end Ready

end SCTPReceiver

/-! ## Runs -/

/-- The association and the numbers of the messages that have arrived. -/
structure StreamRun where
  receiver : SCTPReceiver
  arrived : List ℕ

inductive StreamEvent
  | message (i : ℕ)
  | other (c : SCTPDataChunk)
  | pushUlp

namespace StreamRun

open SCTPReceiver

def step (sent : List SCTPDataChunk) (r : StreamRun) : StreamEvent → Except Fault StreamRun
  | .message i =>
      match sent[i]? with
      | none => .ok r
      | some c => do
          let receiver ← r.receiver.enqueueNew c
          return ⟨receiver, i :: r.arrived⟩
  | .other c => do
      let receiver ← r.receiver.enqueueNew c
      return { r with receiver }
  | .pushUlp => .ok { r with receiver := r.receiver.pushUlp }

/-- Nothing has arrived yet. -/
def Fresh (sid : ℕ) (r : StreamRun) : Prop :=
  sid < r.receiver.receiveStreams.length ∧ (∀ s ∈ r.receiver.receiveStreams, s = {}) ∧
    r.receiver.delivered = [] ∧ r.arrived = []

/-- The messages of the stream arrive once each, and other chunks belong to other streams. -/
def Once (sid : ℕ) (sent : List SCTPDataChunk) (r : StreamRun) : StreamEvent → Prop
  | .message i => i < sent.length ∧ i ∉ r.arrived
  | .other c => c.sid ≠ sid
  | .pushUlp => True

/-- Message `i` does not arrive 65536 messages ahead of a missing one, and the TSNs that wait for
`pushUlp` do not wrap around. -/
def Sequential (sid : ℕ) (sent : List SCTPDataChunk) (r : StreamRun) : StreamEvent → Prop
  | .message i => ∀ j < i + 1 - 65536, j ∈ r.arrived
  | .other _ => True
  | .pushUlp => PlainOrder sent (r.receiver.receiveStreams.getD sid {}).deliveryQ

instance (sid : ℕ) (sent : List SCTPDataChunk) (r : StreamRun) (e : StreamEvent) :
    Decidable (Once sid sent r e) :=
  match e with
  | .message i => inferInstanceAs (Decidable (i < sent.length ∧ i ∉ r.arrived))
  | .other c => inferInstanceAs (Decidable (c.sid ≠ sid))
  | .pushUlp => .isTrue trivial

instance (sid : ℕ) (sent : List SCTPDataChunk) (r : StreamRun) (e : StreamEvent) :
    Decidable (Sequential sid sent r e) :=
  match e with
  | .message i => inferInstanceAs (Decidable (∀ j < i + 1 - 65536, j ∈ r.arrived))
  | .other _ => .isTrue trivial
  | .pushUlp => inferInstanceAs (Decidable (PlainOrder _ _))

/-- What the application has received on stream `sid`. -/
def received (a : SCTPReceiver) (sid : ℕ) : List SCTPDataVariables :=
  a.delivered.filter (·.sid = sid)

/-- Everything before the first message that has not arrived is delivered or waits for delivery. -/
def Inv (sid : ℕ) (sent : List SCTPDataChunk) (r : StreamRun) : Prop :=
  ∃ d e, Ready r.receiver sid sent r.arrived d e ∧ e ∉ r.arrived

section Runs

variable {sid : ℕ} {sent : List SCTPDataChunk} {r : StreamRun}

theorem inv_fresh (h : Fresh sid r) : Inv sid sent r := by
  obtain ⟨hsid, hempty, hdelivered, harrived⟩ := h
  have hstream : ∀ k, r.receiver.receiveStreams.getD k {} = {} := by
    intro k
    rw [List.getD_eq_getElem?_getD]
    cases hk : r.receiver.receiveStreams[k]? with
    | none => rfl
    | some s => exact hempty s (List.mem_of_getElem? hk)
  have hnone : ∀ (key : ℕ) (v : SCTPDataVariables),
      (OrderedMap.empty : SCTPQueue).find? key ≠ some v := fun key v ↦ nofun
  refine ⟨0, 0, ⟨hsid, ?_, fun k _ ↦ ?_, ?_⟩, ?_⟩
  · rw [hstream, harrived]
    refine ⟨le_rfl, rfl, fun key v ↦ ⟨fun h ↦ (hnone key v h).elim, ?_⟩,
      fun key v ↦ ⟨fun h ↦ (hnone key v h).elim, ?_⟩, nofun, nofun⟩
    · rintro ⟨i, -, hi, -⟩
      exact absurd hi (Nat.not_lt_zero i)
    · rintro ⟨i, hi, -⟩
      cases hi
  · rw [hstream]
    exact ⟨fun key v h ↦ (hnone key v h).elim, fun key v h ↦ (hnone key v h).elim,
      fun key v h ↦ (hnone key v h).elim⟩
  · rw [hdelivered]
    rfl
  · rw [harrived]
    exact List.not_mem_nil

theorem inv_message (hsent : InSequence sid sent) {i : ℕ} (hinv : Inv sid sent r)
    (honce : Once sid sent r (.message i)) (hseq : Sequential sid sent r (.message i)) :
    Outcome (step sent r (.message i)) (Inv sid sent) (fun _ ↦ False) := by
  obtain ⟨d, e, hready, he⟩ := hinv
  obtain ⟨hi, hnew⟩ := honce
  have hwindow : i < e + 65536 := by
    by_contra hle
    exact he (hseq e (by omega))
  have hc : sent[i]? = some sent[i] := List.getElem?_eq_getElem hi
  simp only [step, hc]
  apply (hready.enqueueMessage hsent hc hnew hwindow).bind
  rintro a' ⟨e', hready', he'⟩
  exact ⟨d, e', hready', he'⟩

theorem inv_step (hsent : InSequence sid sent) (ev : StreamEvent) (hinv : Inv sid sent r)
    (h : Once sid sent r ev ∧ Sequential sid sent r ev) :
    Outcome (step sent r ev) (Inv sid sent) (fun _ ↦ True) := by
  cases ev with
  | message i => exact (inv_message hsent hinv h.1 h.2).mono (fun _ h ↦ h) fun _ _ ↦ trivial
  | other c =>
    obtain ⟨d, e, hready, he⟩ := hinv
    apply (hready.enqueueOther h.1).bind
    intro a' hready'
    exact ⟨d, e, hready', he⟩
  | pushUlp =>
    obtain ⟨d, e, hready, he⟩ := hinv
    obtain ⟨d', -, hready', -⟩ := hready.pushUlp hsent he h.2
    exact ⟨d', e, hready', he⟩

/-- In every run, what has been received is a prefix of what was sent, a message that arrives is
taken in, and when all of them have arrived the next `pushUlp` that asks for enough delivers the
rest. -/
theorem received_in_order (hsent : InSequence sid sent)
    (h : Reachable (Fresh sid) (fun r e ↦ Once sid sent r e ∧ Sequential sid sent r e) (step sent)
      r) :
    received r.receiver sid <+: sent.map makeVarFromMsg ∧
      (∀ i, Once sid sent r (.message i) → Sequential sid sent r (.message i) →
        ∃ r', step sent r (.message i) = .ok r') ∧
      ((∀ i < sent.length, i ∈ r.arrived) → Sequential sid sent r .pushUlp →
        r.receiver.AskedForEnough →
          received r.receiver.pushUlp sid = sent.map makeVarFromMsg) := by
  have hinv : Inv sid sent r :=
    (h.outcome (E := fun _ ↦ True) (fun _ ↦ inv_fresh) fun _ ev hi ↦ inv_step hsent ev hi).1
  refine ⟨?_, fun i honce hseq ↦ ?_, fun hall hseq hasked ↦ ?_⟩
  · obtain ⟨d, e, hready, -⟩ := hinv
    unfold received
    rw [hready.delivered]
    exact (List.take_prefix d sent).map makeVarFromMsg
  · have hstep := inv_message hsent hinv honce hseq
    cases hr : step sent r (.message i) with
    | ok r' => exact ⟨r', rfl⟩
    | error f => exact (hstep.of_eq_error hr).elim
  · obtain ⟨d, e, hready, he⟩ := hinv
    obtain ⟨d', -, hready', hdone⟩ := hready.pushUlp hsent he hseq
    have hlen : sent.length ≤ e := by
      by_contra hlt
      exact he (hall e (by omega))
    unfold received
    rw [hready'.delivered, hdone hasked, List.take_of_length_le hlen]

/-- Two messages with the TSNs `tsn` and `tsn + 1`. -/
def pairFrom (tsn : BitVec 32) : List SCTPDataChunk :=
  [{ tsn := tsn, ssn := 0, payload := [1] }, { tsn := tsn + 1, ssn := 1, payload := [2] }]

theorem inSequence_pairFrom (tsn : BitVec 32) : InSequence 0 (pairFrom tsn) := by
  refine ⟨by simp [pairFrom], fun i c hc ↦ ?_, by simp [pairFrom], ?_⟩
  · match i, hc with
    | 0, hc => cases hc; rfl
    | 1, hc => cases hc; rfl
  · simp only [pairFrom, List.pairwise_cons, List.mem_singleton, forall_eq]
    refine ⟨fun heq ↦ ?_, by simp⟩
    exact absurd heq (by simp)

/-- The second message arrives first. -/
theorem received_in_order_pairFrom :
    ∃ r, run (step (pairFrom 7)) ⟨{}, []⟩ [.message 1, .pushUlp, .message 0] = .ok r ∧
      received r.receiver 0 = [] ∧
      received r.receiver.pushUlp 0 = (pairFrom 7).map makeVarFromMsg := by
  have hreach (r : StreamRun)
      (hrun : run (step (pairFrom 7)) ⟨{}, []⟩ [.message 1, .pushUlp, .message 0] = .ok r) :
      Reachable (Fresh 0) (fun r e ↦ Once 0 (pairFrom 7) r e ∧ Sequential 0 (pairFrom 7) r e)
        (step (pairFrom 7)) r :=
    Reachable.of_run (.start ⟨by decide, by simp, rfl, rfl⟩) _ (by decide) hrun
  refine ⟨_, rfl, by decide, (received_in_order (inSequence_pairFrom 7) (hreach _ rfl)).2.2 ?_ ?_ ?_⟩
  · decide
  · decide
  · exact .inr ⟨by decide, rfl⟩

/-- TSN `0` follows `2 ^ 32 - 1`; the second message is handed out first. -/
theorem received_reversed :
    ∃ r, InSequence 0 (pairFrom 0xFFFFFFFF) ∧
      Reachable (Fresh 0) (Once 0 (pairFrom 0xFFFFFFFF)) (step (pairFrom 0xFFFFFFFF)) r ∧
      received r.receiver 0 = ((pairFrom 0xFFFFFFFF).map makeVarFromMsg).reverse ∧
      ¬ received r.receiver 0 <+: (pairFrom 0xFFFFFFFF).map makeVarFromMsg := by
  have hreach (r : StreamRun) (hrun : run (step (pairFrom 0xFFFFFFFF)) ⟨{}, []⟩
      [.message 0, .message 1, .pushUlp] = .ok r) :
      Reachable (Fresh 0) (Once 0 (pairFrom 0xFFFFFFFF)) (step (pairFrom 0xFFFFFFFF)) r :=
    Reachable.of_run (.start ⟨by decide, by simp, rfl, rfl⟩) _ (by decide) hrun
  exact ⟨_, inSequence_pairFrom _, hreach _ rfl, by decide, by decide⟩

end Runs

end StreamRun

end InetManet.SCTP
