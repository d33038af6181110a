import Mathlib.Algebra.Order.BigOperators.Group.List
import InetManet.SCTP.OrderedDelivery

/-!
# Receive buffer accounting

`queuedRcvBytes` counts the payload bytes in the queues of the receive streams: bytes enter when a
chunk arrives, move between queues when a message is reassembled or becomes deliverable, and leave
when a message is handed out or evicted. The counter is exact as long as no chunk is taken as new
while its TSN is still stored, and then the advertised window is at most `localRwnd`.
-/

namespace InetManet.SCTP

open TransitionSystem SerialNumber

/-! ## Bytes of a queue -/

namespace SCTPQueue

/-- Chunks are stored under their TSN and have whole bytes. -/
def Keyed (q : SCTPQueue) : Prop :=
  ∀ key v, q.find? key = some v → key = v.tsn.toNat ∧ 8 ∣ v.len

variable {q : SCTPQueue} {key : ℕ} {v : SCTPDataVariables}

theorem keyed_empty : Keyed .empty := fun _ _ h ↦ by cases h

theorem Keyed.insert (h : Keyed q) (hlen : 8 ∣ v.len) : Keyed (q.insert v.tsn.toNat v) := by
  intro key w hw
  rw [OrderedMap.find?_insert] at hw
  split at hw <;> rename_i hkey
  · cases hw
    exact ⟨hkey, hlen⟩
  · exact h key w hw

theorem Keyed.erase (h : Keyed q) (key : ℕ) : Keyed (q.erase key) := by
  intro k w hw
  rw [OrderedMap.find?_erase] at hw
  split at hw
  · cases hw
  · exact h k w hw

theorem getNumBytes_insert (h : q.find? key = none) :
    getNumBytes (q.insert key v) = (v.len / 8 : ℕ) + q.getNumBytes :=
  OrderedMap.sum_insert _ h

theorem getNumBytes_erase (h : q.find? key = some v) :
    getNumBytes (q.erase key) = q.getNumBytes - (v.len / 8 : ℕ) :=
  OrderedMap.sum_erase _ h

theorem getNumBytes_nonneg (q : SCTPQueue) : 0 ≤ q.getNumBytes :=
  OrderedMap.sum_nonneg _ fun _ ↦ Int.natCast_nonneg _

end SCTPQueue

/-! ## Bytes of a stream -/

namespace SCTPReceiveStream

/-- The payload bytes in the three queues. -/
def bytes (s : SCTPReceiveStream) : ℤ :=
  s.orderedQ.getNumBytes + s.unorderedQ.getNumBytes + s.deliveryQ.getNumBytes

theorem bytes_nonneg (s : SCTPReceiveStream) : 0 ≤ s.bytes := by
  have h₁ := s.orderedQ.getNumBytes_nonneg
  have h₂ := s.unorderedQ.getNumBytes_nonneg
  have h₃ := s.deliveryQ.getNumBytes_nonneg
  unfold bytes
  omega

/-- A chunk that waits for its turn is not in `deliveryQ` already. -/
structure Consistent (s : SCTPReceiveStream) : Prop where
  ordered : s.orderedQ.Keyed
  unordered : s.unorderedQ.Keyed
  delivery : s.deliveryQ.Keyed
  apart : ∀ key v, s.orderedQ.find? key = some v → s.deliveryQ.find? key = none

/-- TSN `tsn` is in none of the queues. -/
def Free (s : SCTPReceiveStream) (tsn : BitVec 32) : Prop :=
  s.orderedQ.find? tsn.toNat = none ∧ s.unorderedQ.find? tsn.toNat = none ∧
    s.deliveryQ.find? tsn.toNat = none

instance (s : SCTPReceiveStream) (tsn : BitVec 32) : Decidable (s.Free tsn) :=
  inferInstanceAs (Decidable (_ ∧ _ ∧ _))

variable {s : SCTPReceiveStream} {key : ℕ} {v : SCTPDataVariables}

theorem consistent_empty : Consistent {} :=
  ⟨SCTPQueue.keyed_empty, SCTPQueue.keyed_empty, SCTPQueue.keyed_empty, nofun⟩

theorem Consistent.moveExpected (h : s.Consistent) (hfind : s.orderedQ.find? key = some v) :
    s.deliveryQ.find? v.tsn.toNat = none ∧ (s.moveExpected key v).Consistent ∧
      (s.moveExpected key v).bytes = s.bytes := by
  obtain ⟨hkey, hlen⟩ := h.ordered key v hfind
  have hfree : s.deliveryQ.find? v.tsn.toNat = none := by
    rw [← hkey]
    exact h.apart key v hfind
  refine ⟨hfree, ⟨h.ordered.erase key, h.unordered, h.delivery.insert hlen, fun k w hw ↦ ?_⟩, ?_⟩
  · change (s.orderedQ.erase key).find? k = some w at hw
    show (s.deliveryQ.insert v.tsn.toNat v).find? k = none
    rw [OrderedMap.find?_erase] at hw
    split at hw
    · cases hw
    · rw [OrderedMap.find?_insert_of_ne (by omega)]
      exact h.apart k w hw
  · have hin := SCTPQueue.getNumBytes_insert (v := v) hfree
    have hout := SCTPQueue.getNumBytes_erase hfind
    simp only [bytes, SCTPReceiveStream.moveExpected]
    omega

theorem Consistent.dequeueExpected (h : s.Consistent) :
    s.dequeueExpected.2.Consistent ∧ s.dequeueExpected.2.bytes = s.bytes := by
  rcases s.dequeueExpected_cases with ⟨-, heq⟩ | ⟨key, chunk, hfind, -, -, -, hcase⟩
  · rw [heq]
    exact ⟨h, rfl⟩
  · obtain ⟨hfree, hmoved⟩ := h.moveExpected hfind
    rcases hcase with ⟨-, heq⟩ | ⟨⟨w, hw⟩, -⟩
    · rw [heq]
      exact hmoved
    · rw [hfree] at hw
      cases hw

/-! ## Reassembly -/

/-- With the greatest TSN as the last one the comparison is always true. -/
theorem mergeLoop_last {endtsn : BitVec 32} (hlast : endtsn.toNat = 2 ^ 32 - 1) (rounds : ℕ)
    (q : SCTPQueue) (first : SCTPDataVariables) (begintsn : BitVec 32) :
    Outcome (mergeLoop endtsn rounds q first begintsn) (fun _ ↦ False) (fun _ ↦ True) := by
  induction rounds generalizing q first begintsn with
  | zero => exact trivial
  | succ rounds ih =>
    unfold mergeLoop
    rw [if_pos (by rw [hlast]; omega)]
    refine Outcome.bind (Q := fun _ ↦ True) ?_ fun r _ ↦ ih _ _ _
    cases q.getAndExtractMessage (begintsn + 1) <;> trivial

/-- The bytes that leave the queue are added to the first fragment, which itself stays. -/
theorem mergeLoop_bytes {endtsn k : BitVec 32} (hlast : endtsn.toNat < 2 ^ 32 - 1)
    {orig : SCTPDataVariables} (rounds : ℕ) {q : SCTPQueue} {first : SCTPDataVariables}
    {begintsn : BitVec 32} (hq : q.Keyed) (hlen : 8 ∣ first.len) (hk : q.find? k.toNat = some orig)
    (hwalk : begintsn = k ∨
      (begintsn.toNat ≤ endtsn.toNat ∧ (k.toNat ≤ begintsn.toNat ∨ k.toNat = 2 ^ 32 - 1))) :
    Outcome (mergeLoop endtsn rounds q first begintsn)
      (fun r ↦ r.2.Keyed ∧ 8 ∣ r.1.len ∧ r.1.tsn = first.tsn ∧ r.2.find? k.toNat = some orig ∧
        (∀ key v, r.2.find? key = some v → q.find? key = some v) ∧
        r.2.getNumBytes + (r.1.len / 8 : ℕ) = q.getNumBytes + (first.len / 8 : ℕ))
      (fun _ ↦ True) := by
  induction rounds generalizing q first begintsn with
  | zero => exact trivial
  | succ rounds ih =>
    refine Outcome.ite (fun hle ↦ ?_) fun _ ↦ ⟨hq, hlen, rfl, hk, fun _ _ h ↦ h, rfl⟩
    unfold SCTPQueue.getAndExtractMessage SCTPQueue.getVar
    cases hnext : q.find? (begintsn + 1).toNat with
    | none => exact trivial
    | some process =>
      have hb := begintsn.isLt
      have hsucc : (begintsn + 1).toNat = (begintsn.toNat + 1) % 2 ^ 32 := BitVec.toNat_add _ _
      have hne : k.toNat ≠ (begintsn + 1).toNat := by
        rw [hsucc] at hle ⊢
        rcases hwalk with rfl | ⟨hb', hk'⟩ <;> omega
      have hprocess := (hq _ process hnext).2
      have hsum : ((addFragment first process).len / 8 : ℕ) = first.len / 8 + process.len / 8 := by
        show (first.len + process.len) / 8 = _
        omega
      have hdvd : 8 ∣ (addFragment first process).len := Nat.dvd_add hlen hprocess
      refine (@ih _ _ (begintsn + 1) (hq.erase _) hdvd ?_ ?_).post ?_
      · rw [OrderedMap.find?_erase_of_ne hne]
        exact hk
      · refine .inr ⟨hle, ?_⟩
        rw [hsucc] at hle ⊢
        rcases hwalk with rfl | ⟨hb', hk'⟩ <;> omega
      · rintro ⟨first', q'⟩ ⟨hq', hlen', htsn, hk', hsub, hbytes⟩
        refine ⟨hq', hlen', htsn, hk', fun key v hv ↦ ?_, ?_⟩
        · have := hsub key v hv
          rw [OrderedMap.find?_erase] at this
          split at this
          · cases this
          · exact this
        · dsimp only at hbytes ⊢
          rw [hbytes, SCTPQueue.getNumBytes_erase hnext, hsum]
          push_cast
          omega

/-- Reassembly moves bytes between the chunks of `orderedQ`. -/
theorem Consistent.reassemble (h : s.Consistent) (queue : SCTPQueue) (tsn : BitVec 32) :
    Outcome (s.reassemble queue tsn) (fun r ↦ r.2.Consistent ∧ r.2.bytes = s.bytes)
      (fun _ ↦ True) := by
  refine Outcome.bind (Q := fun _ ↦ True) (by cases lowerLoop s.orderedQ allTsns tsn <;> trivial)
    fun begintsn _ ↦ ?_
  cases hbegin : s.orderedQ.getVar begintsn with
  | none => exact ⟨h, rfl⟩
  | some first =>
    refine Outcome.bind (Q := fun _ ↦ True)
      (by cases upperLoop s.orderedQ allTsns begintsn <;> trivial) fun endtsn _ ↦ ?_
    cases s.orderedQ.getVar endtsn with
    | none => exact ⟨h, rfl⟩
    | some _ =>
      obtain ⟨hkey, hlen⟩ := h.ordered _ first hbegin
      by_cases hlast : endtsn.toNat = 2 ^ 32 - 1
      · exact (mergeLoop_last hlast _ _ _ _).bind fun _ hfalse ↦ hfalse.elim
      · have hlt : endtsn.toNat < 2 ^ 32 - 1 := by
          have := endtsn.isLt
          omega
        refine (mergeLoop_bytes hlt allTsns h.ordered hlen hbegin (.inl rfl)).bind ?_
        rintro ⟨first', q⟩ ⟨hq, hlen', htsn, hk, hsub, hbytes⟩
        dsimp only at hbytes htsn hlen' hk hsub
        have hkey' : begintsn.toNat = first'.tsn.toNat := by rw [htsn, hkey]
        refine ⟨⟨?_, h.unordered, h.delivery, fun key v hv ↦ ?_⟩, ?_⟩
        · show SCTPQueue.Keyed (OrderedMap.insert q begintsn.toNat { first' with ebit := true })
          rw [hkey']
          exact hq.insert (v := { first' with ebit := true }) hlen'
        · change (OrderedMap.insert q begintsn.toNat _).find? key = some v at hv
          rw [OrderedMap.find?_insert] at hv
          split at hv <;> rename_i heq
          · subst heq
            exact h.apart _ first hbegin
          · exact h.apart key v (hsub key v hv)
        · have hreplace := OrderedMap.sum_replace (v := { first' with ebit := true })
            (f := fun datVar : SCTPDataVariables ↦ ((datVar.len / 8 : ℕ) : ℤ)) hk
          simp only [bytes, SCTPQueue.getNumBytes] at hbytes hreplace ⊢
          omega

/-! ## Arrival of a chunk -/

/-- Reassembly starts from a TSN that `orderedQ` does not hold: nothing happens. -/
theorem reassemble_absent (queue : SCTPQueue) {tsn : BitVec 32}
    (h : s.orderedQ.find? tsn.toNat = none) : s.reassemble queue tsn = .ok (tsn, s) := by
  have hlower : lowerLoop s.orderedQ allTsns tsn = .ok tsn := by
    show lowerLoop s.orderedQ (4294967295 + 1) tsn = _
    unfold lowerLoop SCTPQueue.getVar
    rw [h]
  unfold SCTPReceiveStream.reassemble SCTPQueue.getVar
  rw [hlower, ok_bind, h]
  rfl

theorem Consistent.enqueueUnorderedFragment (h : s.Consistent) {dchunk : SCTPDataVariables}
    (hlen : 8 ∣ dchunk.len) (hfree : s.Free dchunk.tsn) :
    Outcome (s.enqueueUnorderedFragment dchunk)
      (fun r ↦ r.2.Consistent ∧ r.2.bytes = s.bytes + (dchunk.len / 8 : ℕ) ∧ r.1 ≠ .none)
      (fun _ ↦ True) := by
  obtain ⟨hordered, hunordered, hdelivery⟩ := hfree
  have hin : s.unorderedQ.checkAndInsertVar dchunk.tsn dchunk =
      (true, s.unorderedQ.insert dchunk.tsn.toNat dchunk) := by
    unfold SCTPQueue.checkAndInsertVar SCTPQueue.getVar
    rw [hunordered]
  unfold SCTPReceiveStream.enqueueUnorderedFragment
  dsimp only
  rw [reassemble_absent _ (by exact hordered), hin, ok_bind]
  dsimp only
  have hbytes := SCTPQueue.getNumBytes_insert (v := dchunk) hunordered
  unfold SCTPQueue.getAndExtractMessage SCTPQueue.getVar
  rw [OrderedMap.find?_insert_self]
  dsimp only
  refine Outcome.ite (fun _ ↦ ?_) fun _ ↦ ?_
  · rw [ok_bind]
    have hout : s.deliveryQ.checkAndInsertVar dchunk.tsn dchunk =
        (true, s.deliveryQ.insert dchunk.tsn.toNat dchunk) := by
      unfold SCTPQueue.checkAndInsertVar SCTPQueue.getVar
      rw [hdelivery]
    have hdeliver := SCTPQueue.getNumBytes_insert (v := dchunk) hdelivery
    have herase := SCTPQueue.getNumBytes_erase (q := s.unorderedQ.insert dchunk.tsn.toNat dchunk)
      (v := dchunk) OrderedMap.find?_insert_self
    rw [hout]
    refine ⟨⟨h.ordered, (h.unordered.insert hlen).erase _, h.delivery.insert hlen,
      fun key v hv ↦ ?_⟩, ?_, nofun⟩
    · have hne : key ≠ dchunk.tsn.toNat := by
        rintro rfl
        rw [hordered] at hv
        cases hv
      show OrderedMap.find? (OrderedMap.insert s.deliveryQ _ _) key = none
      rw [OrderedMap.find?_insert_of_ne hne]
      exact h.apart key v hv
    · simp only [bytes]
      omega
  · refine ⟨⟨h.ordered, h.unordered.insert hlen, h.delivery, h.apart⟩, ?_, nofun⟩
    simp only [bytes]
    omega

theorem Consistent.enqueueOrdered (h : s.Consistent) {dchunk : SCTPDataVariables}
    (hlen : 8 ∣ dchunk.len) (hfree : s.Free dchunk.tsn) :
    Outcome (s.enqueueOrdered dchunk)
      (fun r ↦ r.2.Consistent ∧ r.2.bytes = s.bytes + (dchunk.len / 8 : ℕ) ∧ r.1 ≠ .none)
      (fun _ ↦ True) := by
  obtain ⟨hordered, -, hdelivery⟩ := hfree
  have hin : s.orderedQ.checkAndInsertVar dchunk.tsn dchunk =
      (true, s.orderedQ.insert dchunk.tsn.toNat dchunk) := by
    unfold SCTPQueue.checkAndInsertVar SCTPQueue.getVar
    rw [hordered]
  have hstart : Consistent { s with orderedQ := s.orderedQ.insert dchunk.tsn.toNat dchunk } := by
    refine ⟨h.ordered.insert hlen, h.unordered, h.delivery, fun key v hv ↦ ?_⟩
    change (s.orderedQ.insert dchunk.tsn.toNat dchunk).find? key = some v at hv
    rw [OrderedMap.find?_insert] at hv
    split at hv <;> rename_i hkey
    · rw [hkey]
      exact hdelivery
    · exact h.apart key v hv
  have hbytes : bytes { s with orderedQ := s.orderedQ.insert dchunk.tsn.toNat dchunk } =
      s.bytes + (dchunk.len / 8 : ℕ) := by
    have := SCTPQueue.getNumBytes_insert (v := dchunk) hordered
    simp only [bytes]
    omega
  rw [enqueueOrdered_eq, hin]
  refine Outcome.bind (Q := fun r : Delivery × SCTPReceiveStream ↦ r.2.Consistent ∧
    r.2.bytes = s.bytes + (dchunk.len / 8 : ℕ) ∧ r.1 ≠ .none) ?_ ?_
  · refine Outcome.ite (fun _ ↦ ?_) fun _ ↦ ⟨hstart, hbytes, nofun⟩
    apply (hstart.reassemble _ _).bind
    intro r hr
    exact ⟨hr.1, hr.2.trans hbytes, nofun⟩
  · rintro ⟨ret, s'⟩ ⟨hs', hbytes', hret⟩
    obtain ⟨hdeq, hsame⟩ := hs'.dequeueExpected
    refine ⟨hdeq, hsame.trans hbytes', ?_⟩
    dsimp only
    split
    · nofun
    · exact hret

theorem Consistent.enqueueNewDataChunk (h : s.Consistent) {dchunk : SCTPDataVariables}
    (hlen : 8 ∣ dchunk.len) (hfree : s.Free dchunk.tsn) :
    Outcome (s.enqueueNewDataChunk dchunk)
      (fun r ↦ r.2.Consistent ∧ r.2.bytes = s.bytes + (dchunk.len / 8 : ℕ) ∧ r.1 ≠ .none)
      (fun _ ↦ True) := by
  refine Outcome.ite (fun _ ↦ Outcome.ite (fun _ ↦ ?_) fun _ ↦ ?_) fun _ ↦ ?_
  · obtain ⟨hordered, -, hdelivery⟩ := hfree
    have hin : s.deliveryQ.checkAndInsertVar dchunk.tsn dchunk =
        (true, s.deliveryQ.insert dchunk.tsn.toNat dchunk) := by
      unfold SCTPQueue.checkAndInsertVar SCTPQueue.getVar
      rw [hdelivery]
    rw [hin]
    refine ⟨⟨h.ordered, h.unordered, h.delivery.insert hlen, fun key v hv ↦ ?_⟩, ?_, nofun⟩
    · have hne : key ≠ dchunk.tsn.toNat := by
        rintro rfl
        rw [hordered] at hv
        cases hv
      show OrderedMap.find? (OrderedMap.insert s.deliveryQ _ _) key = none
      rw [OrderedMap.find?_insert_of_ne hne]
      exact h.apart key v hv
    · have := SCTPQueue.getNumBytes_insert (v := dchunk) hdelivery
      simp only [bytes]
      omega
  · exact h.enqueueUnorderedFragment hlen hfree
  · exact h.enqueueOrdered hlen hfree

end SCTPReceiveStream

/-! ## The association -/

namespace SCTPReceiver

/-- `getQueuedBytes`: the payload bytes that the receive streams hold. -/
def getQueuedBytes (a : SCTPReceiver) : ℤ := (a.receiveStreams.map (·.bytes)).sum

/-- The counter is exact and at most `limit`. -/
structure Accounted (a : SCTPReceiver) (rwnd : ℕ) (limit : ℤ) : Prop where
  streams : ∀ s ∈ a.receiveStreams, s.Consistent
  bytes : a.queuedRcvBytes = a.getQueuedBytes
  rwnd : a.localRwnd = rwnd
  le : a.queuedRcvBytes ≤ limit

/-- TSN `tsn` is not stored in stream `sid`. -/
def Absent (a : SCTPReceiver) (sid : ℕ) (tsn : BitVec 32) : Prop :=
  ∀ s ∈ a.receiveStreams[sid]?, s.Free tsn

/-- The fields that the accounting is about are the same. -/
structure SameBuffer (a b : SCTPReceiver) : Prop where
  receiveStreams : b.receiveStreams = a.receiveStreams
  queuedRcvBytes : b.queuedRcvBytes = a.queuedRcvBytes
  localRwnd : b.localRwnd = a.localRwnd

section Accounted

variable {a b : SCTPReceiver} {rwnd k sid : ℕ} {limit : ℤ} {s : SCTPReceiveStream}
  {tsn : BitVec 32}

theorem Accounted.same (h : Accounted a rwnd limit) (hb : SameBuffer a b) :
    Accounted b rwnd limit := by
  refine ⟨?_, ?_, hb.localRwnd.trans h.rwnd, hb.queuedRcvBytes.trans_le h.le⟩
  · rw [hb.receiveStreams]
    exact h.streams
  · unfold getQueuedBytes
    rw [hb.queuedRcvBytes, hb.receiveStreams]
    exact h.bytes

theorem Absent.same (h : Absent a sid tsn) (hb : SameBuffer a b) : Absent b sid tsn := by
  unfold Absent
  rw [hb.receiveStreams]
  exact h

theorem Accounted.mono (h : Accounted a rwnd limit) {limit' : ℤ} (hle : limit ≤ limit') :
    Accounted a rwnd limit' :=
  ⟨h.streams, h.bytes, h.rwnd, h.le.trans hle⟩

theorem Accounted.nonneg (h : Accounted a rwnd limit) : 0 ≤ a.queuedRcvBytes := by
  rw [h.bytes]
  refine List.sum_nonneg fun x hx ↦ ?_
  obtain ⟨s, -, rfl⟩ := List.mem_map.mp hx
  exact s.bytes_nonneg

theorem Accounted.set (h : Accounted a rwnd limit) {old : SCTPReceiveStream}
    (hold : a.receiveStreams[k]? = some old) (hs : s.Consistent) {limit' : ℤ}
    (hstreams : b.receiveStreams = a.receiveStreams.set k s)
    (hbytes : b.queuedRcvBytes = a.queuedRcvBytes + (s.bytes - old.bytes))
    (hrwnd : b.localRwnd = a.localRwnd) (hle : b.queuedRcvBytes ≤ limit') :
    Accounted b rwnd limit' := by
  obtain ⟨hlt, rfl⟩ := List.getElem?_eq_some_iff.mp hold
  refine ⟨fun t ht ↦ ?_, ?_, hrwnd.trans h.rwnd, hle⟩
  · rw [hstreams] at ht
    rcases List.mem_or_eq_of_mem_set ht with hmem | rfl
    · exact h.streams t hmem
    · exact hs
  · have hsum := h.bytes
    unfold getQueuedBytes at hsum ⊢
    rw [hbytes, hsum, hstreams, List.map_set, List.sum_set', dif_pos (by simpa using hlt),
      List.getElem_map]
    omega

theorem getD_of_getElem? {l : List SCTPReceiveStream} (h : l[k]? = some s) : l.getD k {} = s := by
  rw [List.getD_eq_getElem?_getD, h]
  rfl

theorem set_of_getElem?_none {l : List SCTPReceiveStream} (h : l[k]? = none)
    (s : SCTPReceiveStream) : l.set k s = l :=
  List.set_eq_of_length_le (List.getElem?_eq_none_iff.mp h)

/-! ## Delivery -/

theorem putLoop_bytes (rounds : ℕ) (queued : ℤ) (h : s.Consistent) :
    (putLoop rounds s queued).1.Consistent ∧ (putLoop rounds s queued).1.bytes = s.bytes ∧
      (putLoop rounds s queued).2 = queued := by
  induction rounds generalizing s queued with
  | zero => exact ⟨h, rfl, rfl⟩
  | succ rounds ih =>
    unfold putLoop
    cases hdeq : s.orderedQ.dequeueVarBySsn s.expectedStreamSeqNum with
    | none => exact ⟨h, rfl, rfl⟩
    | some r =>
      obtain ⟨chunk, q'⟩ := r
      obtain ⟨key, hfind, -, -, -, rfl⟩ := SCTPReceiveStream.dequeueVarBySsn_eq_some hdeq
      obtain ⟨hfree, hmoved, hbytes⟩ := h.moveExpected hfind
      dsimp only
      rcases SCTPReceiveStream.checkAndInsertVar_cases s.deliveryQ chunk.tsn chunk with
        ⟨-, heq⟩ | ⟨⟨w, hw⟩, -⟩
      · rw [heq]
        obtain ⟨hcons, hsame, hqueued⟩ := ih (queued - (chunk.len / 8 : ℕ) + (chunk.len / 8 : ℕ)) hmoved
        exact ⟨hcons, hsame.trans hbytes, hqueued.trans (by omega)⟩
      · rw [hfree] at hw
        cases hw

theorem Accounted.putInDeliveryQ (h : Accounted a rwnd limit) (sid : ℕ) :
    Accounted (a.putInDeliveryQ sid) rwnd limit := by
  cases hs : a.receiveStreams[sid]? with
  | none =>
    have hcons : (a.receiveStreams.getD sid {}).Consistent := by
      rw [List.getD_eq_getElem?_getD, hs]
      exact SCTPReceiveStream.consistent_empty
    have hput := putLoop_bytes (a.receiveStreams.getD sid {}).orderedQ.size a.queuedRcvBytes hcons
    exact h.same ⟨set_of_getElem?_none hs _, hput.2.2, rfl⟩
  | some s =>
    have hgetD := getD_of_getElem? hs
    have hold : (a.receiveStreams.getD sid {}).Consistent := by
      rw [hgetD]
      exact h.streams s (List.mem_of_getElem? hs)
    obtain ⟨hcons, hbytes, hqueued⟩ := putLoop_bytes (a.receiveStreams.getD sid {}).orderedQ.size
      a.queuedRcvBytes hold
    refine h.set hs hcons rfl ?_ rfl (hqueued.trans_le h.le)
    rw [hbytes, hgetD, sub_self, add_zero]
    exact hqueued

theorem Accounted.deliver (h : Accounted a rwnd limit) {chunk : SCTPDataVariables} {key : ℕ}
    (hfind : (a.receiveStreams.getD sid {}).deliveryQ.find? key = some chunk) :
    Accounted (a.deliver sid chunk ((a.receiveStreams.getD sid {}).deliveryQ.erase key)) rwnd
      limit := by
  cases hs : a.receiveStreams[sid]? with
  | none =>
    rw [List.getD_eq_getElem?_getD, hs] at hfind
    cases hfind
  | some s =>
    have hgetD := getD_of_getElem? hs
    rw [hgetD] at hfind ⊢
    have hcons := h.streams s (List.mem_of_getElem? hs)
    have hle := h.le
    have herase := SCTPQueue.getNumBytes_erase hfind
    refine h.set hs (s := { s with deliveryQ := s.deliveryQ.erase key })
      ⟨hcons.ordered, hcons.unordered, hcons.delivery.erase key, fun k v hv ↦ ?_⟩ ?_ ?_
      (deliver_localRwnd ..) ?_
    · show (s.deliveryQ.erase key).find? k = none
      rw [OrderedMap.find?_erase]
      split
      · rfl
      · exact hcons.apart k v hv
    · rw [deliver_receiveStreams, hgetD]
    · rw [deliver_queuedRcvBytes]
      simp only [SCTPReceiveStream.bytes]
      omega
    · rw [deliver_queuedRcvBytes]
      omega

theorem Accounted.pushLoop (restrict : Bool) (sid rounds : ℕ) (h : Accounted a rwnd limit) :
    Accounted (pushLoop restrict sid rounds a) rwnd limit := by
  induction rounds generalizing a with
  | zero => exact h
  | succ rounds ih =>
    unfold SCTPReceiver.pushLoop
    cases hextract : (a.receiveStreams.getD sid {}).deliveryQ.extractMessage with
    | none => exact h
    | some r =>
      obtain ⟨chunk, q'⟩ := r
      obtain ⟨key, hfind, rfl, -⟩ := extractMessage_eq_some hextract
      dsimp only
      split
      · exact h
      · exact ih (h.deliver hfind)

theorem Accounted.pushUlp (h : Accounted a rwnd limit) : Accounted a.pushUlp rwnd limit := by
  have hput : ∀ (ks : List ℕ) {a : SCTPReceiver}, Accounted a rwnd limit →
      Accounted (ks.foldl SCTPReceiver.putInDeliveryQ a) rwnd limit := by
    intro ks
    induction ks with
    | nil => exact fun h ↦ h
    | cons k ks ih => exact fun h ↦ ih (h.putInDeliveryQ k)
  have hpush : ∀ (restrict : Bool) (ks : List ℕ) {a : SCTPReceiver}, Accounted a rwnd limit →
      Accounted (ks.foldl (pushStream restrict) a) rwnd limit := by
    intro restrict ks
    induction ks with
    | nil => exact fun h ↦ h
    | cons k ks ih => exact fun h ↦ ih (h.pushLoop restrict k _)
  let b := (List.range a.receiveStreams.length).foldl SCTPReceiver.putInDeliveryQ a
  let b' : SCTPReceiver := { b with pushMessagesLeft :=
    if b.pushMessagesLeft ≤ 0 then b.messagesToPush else b.pushMessagesLeft }
  have hb : Accounted b rwnd limit := hput _ h
  have hb' : Accounted b' rwnd limit := hb.same ⟨rfl, rfl, rfl⟩
  exact (hpush (decide (0 < b'.pushMessagesLeft)) b'.pushOrder hb').same ⟨rfl, rfl, rfl⟩

/-! ## Eviction -/

theorem outcome_ofGapList {α : Type} (x : Except GapFault α) :
    Outcome (ofGapList x) (fun _ ↦ True) (fun _ ↦ True) := by
  cases x <;> trivial

/-- Of the queues of `s` some chunks have been taken out, `n` bytes in all. -/
structure Reduced (s s' : SCTPReceiveStream) (n : ℕ) : Prop where
  consistent : s'.Consistent
  bytes : s'.bytes = s.bytes - n
  free : ∀ tsn, s.Free tsn → s'.Free tsn

section Reduced

variable {key : ℕ} {v : SCTPDataVariables}

theorem find?_erase_none {q : SCTPQueue} {k : ℕ} (h : q.find? k = none) :
    OrderedMap.find? (q.erase key) k = none := by
  rw [OrderedMap.find?_erase]
  split
  · rfl
  · exact h

theorem reduced_ordered (hs : s.Consistent) (hfind : s.orderedQ.find? key = some v) :
    Reduced s { s with orderedQ := s.orderedQ.erase key } (v.len / 8) := by
  have herase := SCTPQueue.getNumBytes_erase hfind
  refine ⟨⟨hs.ordered.erase _, hs.unordered, hs.delivery, fun k w hw ↦ ?_⟩, ?_,
    fun tsn ht ↦ ⟨find?_erase_none ht.1, ht.2⟩⟩
  · change (s.orderedQ.erase key).find? k = some w at hw
    rw [OrderedMap.find?_erase] at hw
    split at hw
    · cases hw
    · exact hs.apart k w hw
  · simp only [SCTPReceiveStream.bytes]
    omega

theorem reduced_unordered (hs : s.Consistent) (hfind : s.unorderedQ.find? key = some v) :
    Reduced s { s with unorderedQ := s.unorderedQ.erase key } (v.len / 8) := by
  have herase := SCTPQueue.getNumBytes_erase hfind
  refine ⟨⟨hs.ordered, hs.unordered.erase _, hs.delivery, hs.apart⟩, ?_,
    fun tsn ht ↦ ⟨ht.1, find?_erase_none ht.2.1, ht.2.2⟩⟩
  simp only [SCTPReceiveStream.bytes]
  omega

theorem reduced_delivery (hs : s.Consistent) (hfind : s.deliveryQ.find? key = some v) :
    Reduced s { s with deliveryQ := s.deliveryQ.erase key } (v.len / 8) := by
  have herase := SCTPQueue.getNumBytes_erase hfind
  refine ⟨⟨hs.ordered, hs.unordered, hs.delivery.erase _, fun k w hw ↦
    find?_erase_none (hs.apart k w hw)⟩, ?_, fun tsn ht ↦ ⟨ht.1, ht.2.1, find?_erase_none ht.2.2⟩⟩
  simp only [SCTPReceiveStream.bytes]
  omega

theorem evictVar_reduced {high : BitVec 32} {uBit : Bool} {datVar : SCTPDataVariables}
    {s' : SCTPReceiveStream} (hs : s.Consistent) (h : evictVar s high uBit = some (datVar, s')) :
    Reduced s s' (datVar.len / 8) := by
  unfold evictVar SCTPQueue.getVar at h
  split at h <;> rename_i hfind
  · cases h
    cases uBit with
    | true => exact reduced_unordered hs hfind
    | false => exact reduced_ordered hs hfind
  · split at h <;> rename_i hdelivery
    · cases h
      exact reduced_delivery hs hdelivery
    · cases h

end Reduced

/-- Accounted, and TSN `tsn` of stream `sid` is not stored. -/
def Room (rwnd : ℕ) (limit : ℤ) (sid : ℕ) (tsn : BitVec 32) (a : SCTPReceiver) : Prop :=
  Accounted a rwnd limit ∧ Absent a sid tsn

theorem Room.same (h : Room rwnd limit sid tsn a) (hb : SameBuffer a b) :
    Room rwnd limit sid tsn b :=
  ⟨h.1.same hb, h.2.same hb⟩

theorem Room.evicted (h : Room rwnd limit sid tsn a) {datVar : SCTPDataVariables}
    (hs : a.receiveStreams[k]? = some s) {s' : SCTPReceiveStream}
    (hreduced : Reduced s s' (datVar.len / 8)) (t high : BitVec 32) :
    Outcome (a.evicted t high k datVar s') (Room rwnd limit sid tsn) (fun _ ↦ True) := by
  have hle := h.1.le
  -- the expected stream sequence number may go back as well
  let s'' := if ssnGt s'.expectedStreamSeqNum datVar.ssn then
      { s' with expectedStreamSeqNum := datVar.ssn } else s'
  have hqueues : s''.orderedQ = s'.orderedQ ∧ s''.unorderedQ = s'.unorderedQ ∧
      s''.deliveryQ = s'.deliveryQ := by
    show _ ∧ _ ∧ _
    dsimp only [s'']
    split <;> exact ⟨rfl, rfl, rfl⟩
  have hbytes : s''.bytes = s'.bytes := by
    unfold SCTPReceiveStream.bytes
    rw [hqueues.1, hqueues.2.1, hqueues.2.2]
  have hcons : s''.Consistent := by
    have hc := hreduced.consistent
    refine ⟨hqueues.1 ▸ hc.ordered, hqueues.2.1 ▸ hc.unordered, hqueues.2.2 ▸ hc.delivery, ?_⟩
    rw [hqueues.1, hqueues.2.2]
    exact hc.apart
  have hstep : Room rwnd limit sid tsn { a with
      receiveStreams := a.receiveStreams.set k s'',
      queuedRcvBytes := a.queuedRcvBytes - (datVar.len / 8 : ℕ) } := by
    have hout := hreduced.bytes
    refine ⟨h.1.set hs hcons rfl (by dsimp only; omega) rfl (by dsimp only; omega), ?_⟩
    intro t' ht'
    by_cases hk : k = sid
    · subst hk
      have hlt := (List.getElem?_eq_some_iff.mp hs).1
      change (a.receiveStreams.set k s'')[k]? = some t' at ht'
      rw [List.getElem?_set_self hlt] at ht'
      cases ht'
      have hfree := hreduced.free tsn (h.2 s hs)
      unfold SCTPReceiveStream.Free at hfree ⊢
      rw [hqueues.1, hqueues.2.1, hqueues.2.2]
      exact hfree
    · change (a.receiveStreams.set k s'')[sid]? = some t' at ht'
      rw [List.getElem?_set_ne hk] at ht'
      exact h.2 t' ht'
  refine Outcome.bind (outcome_ofGapList _) fun g _ ↦ ?_
  exact hstep.same ⟨rfl, rfl, rfl⟩

theorem Room.evictHigh (h : Room rwnd limit sid tsn a) (t high : BitVec 32) (uBit : Bool)
    (rest : List SCTPReceiveStream) (k : ℕ) (hrest : a.receiveStreams.drop k = rest) :
    Outcome (a.evictHigh t high uBit rest k) (fun r ↦ Room rwnd limit sid tsn r.2)
      (fun _ ↦ True) := by
  induction rest generalizing k with
  | nil => exact h
  | cons s rest ih =>
    have hs : a.receiveStreams[k]? = some s := by
      rw [← List.head?_drop, hrest]
      rfl
    unfold SCTPReceiver.evictHigh
    split
    · exact h
    · cases hevict : evictVar s high uBit with
      | some r =>
        obtain ⟨datVar, s'⟩ := r
        have hreduced := evictVar_reduced (h.1.streams s (List.mem_of_getElem? hs)) hevict
        apply (h.evicted hs hreduced t high).bind
        intro a' ha'
        exact ha'
      | none =>
        refine ih (k + 1) ?_
        rw [← List.tail_drop, hrest]
        rfl

theorem Room.makeRoomLoop (t : BitVec 32) (length : ℕ) (uBit : Bool) (rounds sum : ℕ)
    (high : BitVec 32) (h : Room rwnd limit sid tsn a) :
    Outcome (makeRoomLoop t length uBit rounds a sum high) (fun r ↦ Room rwnd limit sid tsn r.2)
      (fun _ ↦ True) := by
  induction rounds generalizing a sum high with
  | zero => exact trivial
  | succ rounds ih =>
    refine Outcome.ite (fun _ ↦ ?_) fun _ ↦ h
    apply (h.evictHigh t high uBit a.receiveStreams 0 rfl).bind
    rintro ⟨eviction, a'⟩ ha'
    have hstored (x : BitVec 32) : Room rwnd limit sid tsn { a' with highestTsnStored := x } :=
      Room.same ha' ⟨rfl, rfl, rfl⟩
    cases eviction with
    | noRoom => exact ha'
    | notFound => exact Outcome.ite (fun _ ↦ hstored _) fun _ ↦ ih _ _ (hstored _)
    | found len => exact Outcome.ite (fun _ ↦ hstored _) fun _ ↦ ih _ _ (hstored _)

theorem Room.makeRoom {c : SCTPDataChunk} (h : Room rwnd limit sid tsn a) :
    Outcome (a.makeRoom c) (fun r ↦ Room rwnd limit sid tsn r.2) (fun _ ↦ True) := by
  refine Outcome.ite (fun _ ↦ h) fun _ ↦ Outcome.ite (fun _ ↦ h) fun _ ↦ Outcome.ite (fun _ ↦ ?_)
    fun _ ↦ h
  exact h.makeRoomLoop _ _ _ _ _ _

theorem sameBuffer_enterTsn (a : SCTPReceiver) (t : BitVec 32) :
    Outcome (a.enterTsn t) (SameBuffer a) (fun _ ↦ True) := by
  apply (outcome_ofGapList _).bind
  rintro ⟨checkCtsnaChange, t'⟩ -
  refine Outcome.ite (fun _ ↦ ?_) fun _ ↦ ⟨rfl, rfl, rfl⟩
  apply (outcome_ofGapList _).bind
  intro g _
  exact ⟨rfl, rfl, rfl⟩

theorem sameBuffer_recordTsn (a : SCTPReceiver) (t : BitVec 32) :
    Outcome (a.recordTsn t) (fun r ↦ ∀ b ∈ r, SameBuffer a b) (fun _ ↦ True) := by
  let a' : SCTPReceiver := { a with highestTsnReceived := t, highestTsnStored := t }
  refine Outcome.ite (fun _ ↦ ?_) fun _ ↦ Outcome.ite (fun _ ↦ ?_) fun _ ↦ ?_
  · refine Outcome.ite (fun _ ↦ ?_) fun _ ↦ ?_
    · intro b hb
      cases hb
      exact ⟨rfl, rfl, rfl⟩
    · apply (sameBuffer_enterTsn a' t).bind
      intro b hb c hc
      cases hc
      exact ⟨hb.receiveStreams, hb.queuedRcvBytes, hb.localRwnd⟩
  · intro b hb
    cases hb
  · apply (sameBuffer_enterTsn a t).bind
    intro b hb c hc
    cases hc
    exact hb

/-! ## Arrival -/

theorem Room.enqueueNew {c : SCTPDataChunk} (h : Room rwnd limit c.sid c.tsn a) :
    Outcome (a.enqueueNew c) (fun a' ↦ Accounted a' rwnd (limit + c.payload.length))
      (fun _ ↦ True) := by
  obtain ⟨hacc, habsent⟩ := h
  cases hs : a.receiveStreams[c.sid]? with
  | none =>
    unfold SCTPReceiver.enqueueNew
    rw [hs]
    exact trivial
  | some s =>
    rw [enqueueNew_eq a c hs]
    have hcons := hacc.streams s (List.mem_of_getElem? hs)
    have hlen : (makeVarFromMsg c).len / 8 = c.payload.length := by
      show 8 * c.payload.length / 8 = _
      omega
    have hdvd : 8 ∣ (makeVarFromMsg c).len := Nat.dvd_mul_right 8 _
    apply (hcons.enqueueNewDataChunk hdvd (habsent s hs)).bind
    rintro ⟨ret, s'⟩ ⟨hcons', hbytes, hret⟩
    rw [hlen] at hbytes
    dsimp only at hcons' hbytes hret ⊢
    have hle := hacc.le
    have hset : Accounted { a with
        receiveStreams := a.receiveStreams.set c.sid s', newChunkReceived := false,
        queuedRcvBytes := a.queuedRcvBytes + c.payload.length } rwnd (limit + c.payload.length) :=
      hacc.set hs hcons' rfl (by dsimp only; omega) rfl (by dsimp only; omega)
    cases ret with
    | none => exact absurd rfl hret
    | fragment => exact hset
    | orderedQ => exact hset.putInDeliveryQ _
    | deliveryQ => exact hset.putInDeliveryQ _

/-- A TSN that is stored is recognised as a duplicate. -/
def Recognised (a : SCTPReceiver) (c : SCTPDataChunk) : Prop :=
  Absent a c.sid c.tsn ∨ tsnLe c.tsn a.cTsnAck = true ∨
    (tsnGt c.tsn a.noteHighest.highestTsnReceived = false ∧ a.tsnIsDuplicate c.tsn = true)

instance (a : SCTPReceiver) (sid : ℕ) (tsn : BitVec 32) : Decidable (Absent a sid tsn) :=
  inferInstanceAs (Decidable (∀ s ∈ a.receiveStreams[sid]?, s.Free tsn))

instance (a : SCTPReceiver) (c : SCTPDataChunk) : Decidable (Recognised a c) :=
  inferInstanceAs (Decidable (_ ∨ _ ∨ _))

theorem makeRoom_of_duplicate {c : SCTPDataChunk}
    (hnew : tsnGt c.tsn a.highestTsnReceived = false) (hdup : a.tsnIsDuplicate c.tsn = true) :
    a.makeRoom c = .ok (true, a) := by
  unfold makeRoom
  split
  · rfl
  · rw [if_neg (by simp [hnew]), if_neg (by simp [hdup])]

theorem Accounted.processDataArrived {c : SCTPDataChunk} (h : Accounted a rwnd limit)
    (hknown : Recognised a c) :
    Outcome (a.processDataArrived c) (fun a' ↦ Accounted a' rwnd (limit + c.payload.length))
      (fun _ ↦ True) := by
  have hsame : SameBuffer a a.noteHighest := ⟨rfl, rfl, rfl⟩
  have hmono {b : SCTPReceiver} (hb : Accounted b rwnd limit) :
      Accounted b rwnd (limit + c.payload.length) := hb.mono (by omega)
  refine Outcome.ite (fun _ ↦ hmono (h.same hsame)) fun _ ↦ Outcome.ite
    (fun _ ↦ hmono (h.same ⟨rfl, rfl, rfl⟩)) fun hle ↦ ?_
  rcases hknown with habsent | hle' | ⟨hgt, hdup⟩
  · have hroom : Room rwnd limit c.sid c.tsn a.noteHighest := ⟨h.same hsame, habsent.same hsame⟩
    apply hroom.makeRoom.bind
    rintro ⟨room, b⟩ hb
    refine Outcome.ite (fun _ ↦ hmono hb.1) fun _ ↦ ?_
    dsimp only at hb ⊢
    apply (sameBuffer_recordTsn b c.tsn).bind
    intro r hr
    cases r with
    | none => exact hmono (hb.1.same ⟨rfl, rfl, rfl⟩)
    | some b' =>
      have hb' := hb.same (hr b' rfl)
      exact Outcome.ite (fun _ ↦ hb'.enqueueNew) fun _ ↦ hmono hb'.1
  · exact absurd hle' hle
  · -- the chunk is a duplicate: the window test does nothing
    rw [makeRoom_of_duplicate hgt hdup, ok_bind]
    have hnone : a.noteHighest.recordTsn c.tsn = .ok none := by
      unfold recordTsn
      rw [if_neg (by simp [hgt]), if_pos (by exact hdup)]
    dsimp only
    rw [hnone]
    exact hmono (h.same (b := a.noteHighest.addDuplicate c.tsn) ⟨rfl, rfl, rfl⟩)

/-! ## The advertised window -/

theorem freeWindow_pos (hle : a.queuedRcvBytes ≤ a.localRwnd + 2 ^ 31) (h : 0 < a.freeWindow) :
    a.queuedRcvBytes < a.localRwnd := by
  unfold freeWindow at h
  rw [BitVec.toInt_ofInt, Int.bmod_def] at h
  split at h <;> omega

theorem advertisedWindow_le (hnonneg : 0 ≤ a.queuedRcvBytes)
    (hle : a.queuedRcvBytes ≤ a.localRwnd + 2 ^ 31) :
    a.advertisedWindow ≤ a.localRwnd := by
  unfold advertisedWindow
  split
  · exact Nat.zero_le _
  · rename_i hfree
    have hpos := freeWindow_pos hle (by omega)
    split
    · omega
    · rw [BitVec.toNat_ofInt]
      omega

/-! ## Runs -/

inductive ReceiveEvent
  | data (c : SCTPDataChunk)
  | receive
  | sack

def receiveStep (a : SCTPReceiver) : ReceiveEvent → Except Fault SCTPReceiver
  | .data c => a.processDataArrived c
  | .receive => .ok a.pushUlp
  | .sack => .ok a.createSack

/-- Every stream is empty. -/
def EmptyBuffer (a : SCTPReceiver) : Prop :=
  (∀ s ∈ a.receiveStreams, s = {}) ∧ a.queuedRcvBytes = 0

/-- A TSN that is still stored is not taken as new, and less than 2 GiB are stored beyond the
window. -/
def ReceiveEvent.Accountable (a : SCTPReceiver) : ReceiveEvent → Prop
  | .data c => Recognised a c ∧ a.queuedRcvBytes + c.payload.length ≤ a.localRwnd + 2 ^ 31
  | .receive => True
  | .sack => True

instance (a : SCTPReceiver) (e : ReceiveEvent) : Decidable (e.Accountable a) :=
  match e with
  | .data _ => inferInstanceAs (Decidable (_ ∧ _))
  | .receive => .isTrue trivial
  | .sack => .isTrue trivial

def Exact (a : SCTPReceiver) : Prop := Accounted a a.localRwnd (a.localRwnd + 2 ^ 31)

theorem Accounted.exact (h : Accounted b a.localRwnd (a.localRwnd + 2 ^ 31)) : Exact b := by
  have hrwnd := h.rwnd
  unfold Exact
  rw [hrwnd]
  exact h

theorem Exact.step (h : Exact a) (e : ReceiveEvent) (he : e.Accountable a) :
    Outcome (receiveStep a e) Exact (fun _ ↦ True) := by
  cases e with
  | data c =>
    obtain ⟨hknown, hbound⟩ := he
    have hexact : Accounted a a.localRwnd a.queuedRcvBytes := ⟨h.streams, h.bytes, rfl, le_rfl⟩
    apply (hexact.processDataArrived hknown).post
    intro b hb
    exact (hb.mono hbound).exact
  | receive => exact (Accounted.pushUlp h).exact
  | sack => exact (Accounted.same h (b := a.createSack) ⟨rfl, rfl, rfl⟩).exact

/-- In every run the counter is the number of stored bytes, and no more than `localRwnd` is
advertised. -/
theorem queuedRcvBytes_eq_getQueuedBytes
    (h : Reachable EmptyBuffer (fun a e ↦ e.Accountable a) receiveStep a) :
    a.queuedRcvBytes = a.getQueuedBytes ∧ a.advertisedWindow ≤ a.localRwnd := by
  have hexact : Exact a := by
    refine (h.outcome (E := fun _ ↦ True) (fun a ha ↦ ?_) fun a e hi he ↦ hi.step e he).1
    obtain ⟨hempty, hzero⟩ := ha
    have hsum : a.getQueuedBytes = 0 := by
      refine List.sum_eq_zero fun x hx ↦ ?_
      obtain ⟨s, hs, rfl⟩ := List.mem_map.mp hx
      rw [hempty s hs]
      rfl
    refine ⟨fun s hs ↦ ?_, hzero.trans hsum.symm, rfl, by omega⟩
    rw [hempty s hs]
    exact SCTPReceiveStream.consistent_empty
  exact ⟨hexact.bytes, advertisedWindow_le (Accounted.nonneg hexact) hexact.le⟩

/-- Nothing has been received; the first TSN is `tsn`. -/
def startAt (tsn : BitVec 32) : SCTPReceiver :=
  { initPeerTsn := tsn, cTsnAck := tsn - 1, lastTsnAck := tsn - 1 }

theorem emptyBuffer_startAt (tsn : BitVec 32) : EmptyBuffer (startAt tsn) :=
  ⟨by simp [startAt], rfl⟩

/-- A message in two fragments, the second one first, and a duplicate. -/
theorem queuedRcvBytes_eq_getQueuedBytes_twoFragments :
    ∃ a, run receiveStep (startAt 5) [.data { tsn := 6, bBit := false, payload := [3] },
        .data { tsn := 6, bBit := false, payload := [3] },
        .data { tsn := 5, eBit := false, payload := [1, 2] }] = .ok a ∧ a.queuedRcvBytes = 3 ∧
      a.queuedRcvBytes = a.getQueuedBytes ∧ a.advertisedWindow ≤ a.localRwnd := by
  have hreach (a : SCTPReceiver)
      (hrun : run receiveStep (startAt 5) [.data { tsn := 6, bBit := false, payload := [3] },
        .data { tsn := 6, bBit := false, payload := [3] },
        .data { tsn := 5, eBit := false, payload := [1, 2] }] = .ok a) :
      Reachable EmptyBuffer (fun a e ↦ e.Accountable a) receiveStep a :=
    Reachable.of_run (.start (emptyBuffer_startAt 5)) _ (by decide) hrun
  exact ⟨_, rfl, by decide, queuedRcvBytes_eq_getQueuedBytes (hreach _ rfl)⟩

/-- A gap that starts at TSN 0 is passed over, the fragment with TSN 0 is taken as new when it
comes again, and its bytes are counted twice. -/
theorem queuedRcvBytes_counted_twice :
    ∃ a, Reachable EmptyBuffer (fun _ _ ↦ True) receiveStep a ∧
      a.queuedRcvBytes = 3 ∧ a.getQueuedBytes = 2 := by
  have hreach (a : SCTPReceiver)
      (hrun : run receiveStep (startAt 0xFFFFFFFE)
        [.data { tsn := 0, eBit := false, payload := [1] },
          .data { tsn := 0xFFFFFFFF, ssn := 1, payload := [2] },
          .data { tsn := 0, eBit := false, payload := [1] }] = .ok a) :
      Reachable EmptyBuffer (fun _ _ ↦ True) receiveStep a :=
    Reachable.of_run (.start (emptyBuffer_startAt 0xFFFFFFFE)) _ (by decide) hrun
  exact ⟨_, hreach _ rfl, by decide, by decide⟩

end Accounted

end SCTPReceiver

end InetManet.SCTP
