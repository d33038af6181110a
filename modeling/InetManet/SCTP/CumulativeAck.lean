import InetManet.SCTP.QueueLinks
import Mathlib.Data.List.TakeWhile

/-!
# The cumulative acknowledgment

The loop of `dequeueAckedChunks` takes chunks from the front of `retransmissionQ` up to the first one
that is not acknowledged. The map is in the order of the plain numbers, and a chunk is acknowledged in
serial order, so chunks from before the wrap are missed when one from behind it is outstanding.
-/

namespace InetManet.SCTP

open TransitionSystem OrderedMap

namespace SCTPSender

open SCTPSentVariables

/-- What a removed chunk adds to `newlyAckedBytes`. -/
def newlyAcked (c : SCTPSentVariables) : BitVec 32 :=
  if c.hasBeenAcked then 0 else BitVec.ofNat 32 c.booksize

/-- The loop of `dequeueAckedChunks` with the value that it returns. -/
def ackedBytesLoop (tsna : BitVec 32) :
    ℕ → BitVec 32 → SCTPSender → Except SendFault (BitVec 32 × SCTPSender)
  | 0, _, _ => .error .endlessLoop
  | rounds + 1, newlyAckedBytes, a =>
      match a.retransmissionQ.entries with
      | [] => .ok (newlyAckedBytes, a)
      | (_, i) :: _ =>
          let tsn := (a.chunks i).tsn
          if tsnGe tsna tsn then
            let a := a.unqueue i
            match a.retransmissionQ.find? tsn.toNat with
            | none => .error .endOfMap
            | some i =>
                ackedBytesLoop tsna rounds (newlyAckedBytes + newlyAcked (a.chunks i))
                  (a.dequeueChunk tsn i)
          else .ok (newlyAckedBytes, a)

/-- `dequeueAckedChunks` with its result, without the measured round-trip time. -/
def ackedBytes (a : SCTPSender) (tsna : BitVec 32) : Except SendFault (BitVec 32 × SCTPSender) :=
  ackedBytesLoop tsna (a.retransmissionQ.size + 1) 0 a

/-- Each chunk is stored under its TSN. -/
def Keyed (a : SCTPSender) : Prop :=
  ∀ k i, (k, i) ∈ a.retransmissionQ.entries → k = (a.chunks i).tsn.toNat

/-- The TSN `k` is at or before `tsna`. -/
def isAcked (tsna : BitVec 32) (k : ℕ) : Bool := tsnGe tsna (BitVec.ofNat 32 k)

/-- Exactly the acknowledged chunks leave both queues, and the result is the sum of their sizes
without those that were acknowledged before. -/
structure AcksExactly (a : SCTPSender) (tsna newlyAckedBytes : BitVec 32) (a' : SCTPSender) : Prop where
  retransmissionQ : ∀ k, a'.retransmissionQ.find? k =
    if isAcked tsna k then none else a.retransmissionQ.find? k
  transmissionQ : ∀ k, a'.transmissionQ.find? k =
    if isAcked tsna k ∧ (a.retransmissionQ.find? k).isSome then none else a.transmissionQ.find? k
  newlyAckedBytes : newlyAckedBytes =
    ((a.retransmissionQ.entries.filter fun e ↦ isAcked tsna e.1).map fun e ↦
      newlyAcked (a.chunks e.2)).sum

/-- No outstanding chunk has a smaller number than an acknowledged one. -/
def AckedFirst (a : SCTPSender) (tsna : BitVec 32) : Prop :=
  ∀ k k', (a.retransmissionQ.find? k).isSome → (a.retransmissionQ.find? k').isSome →
    isAcked tsna k = true → isAcked tsna k' = false → k < k'

section Loop

variable {a a' : SCTPSender} {tsna : BitVec 32} {k i rounds : ℕ} {rest : List (ℕ × ℕ)}

/-- The state after the first chunk has been taken. -/
def dequeueFirst (a : SCTPSender) (i : ℕ) : SCTPSender :=
  (a.unqueue i).dequeueChunk (a.chunks i).tsn i

theorem dequeueChunk_retransmissionQ (tsn : BitVec 32) :
    (a.dequeueChunk tsn i).retransmissionQ = a.retransmissionQ.erase tsn.toNat := by
  unfold dequeueChunk
  dsimp only
  split <;> rfl

theorem unqueue_find? (a : SCTPSender) (i k : ℕ) :
    (a.unqueue i).transmissionQ.find? k =
      if k = (a.chunks i).tsn.toNat then none else a.transmissionQ.find? k := by
  unfold unqueue
  dsimp only
  split <;> rename_i hfound
  · exact find?_erase
  · split
    · rename_i hk
      rw [hk, hfound]
    · rfl

theorem Keyed.entries_eq (h : a.Keyed) (hentries : a.retransmissionQ.entries = (k, i) :: rest) :
    k = (a.chunks i).tsn.toNat := h k i (by rw [hentries]; exact List.mem_cons_self)

/-- The other entries stay, and their chunks are not touched. -/
theorem Keyed.dequeueFirst_entries (h : a.Keyed)
    (hentries : a.retransmissionQ.entries = (k, i) :: rest) :
    (a.dequeueFirst i).retransmissionQ.entries = rest ∧
      ∀ e ∈ rest, (a.dequeueFirst i).chunks e.2 = a.chunks e.2 := by
  have hk := h.entries_eq hentries
  have hsorted := a.retransmissionQ.sorted
  rw [hentries] at hsorted
  have hlt : ∀ e ∈ rest, k < e.1 := (List.pairwise_cons.mp hsorted).1
  constructor
  · unfold dequeueFirst
    rw [dequeueChunk_retransmissionQ, unqueue_retransmissionQ, ← hk]
    change a.retransmissionQ.entries.filter _ = rest
    rw [hentries, List.filter_cons_of_neg (by simp), List.filter_eq_self]
    intro e he
    simpa using (hlt e he).ne'
  · intro e he
    unfold dequeueFirst
    rw [dequeueChunk_chunks_of_ne, unqueue_chunks]
    intro hei
    have hke := h e.1 e.2 (by rw [hentries]; exact List.mem_cons_of_mem _ he)
    have := hlt e he
    rw [hke, hei, ← hk] at this
    exact lt_irrefl _ this

theorem Keyed.dequeueFirst (h : a.Keyed)
    (hentries : a.retransmissionQ.entries = (k, i) :: rest) : (a.dequeueFirst i).Keyed := by
  obtain ⟨hrest, hchunks⟩ := h.dequeueFirst_entries hentries
  intro k' j hj
  rw [hrest] at hj
  rw [hchunks _ hj]
  exact h k' j (by rw [hentries]; exact List.mem_cons_of_mem _ hj)

/-- The entries that the loop takes. -/
def taken (a : SCTPSender) (tsna : BitVec 32) : List (ℕ × ℕ) :=
  a.retransmissionQ.entries.takeWhile fun e ↦ isAcked tsna e.1

/-- The entries that the loop leaves. -/
def left (a : SCTPSender) (tsna : BitVec 32) : List (ℕ × ℕ) :=
  a.retransmissionQ.entries.dropWhile fun e ↦ isAcked tsna e.1

theorem taken_append_left (a : SCTPSender) (tsna : BitVec 32) :
    a.taken tsna ++ a.left tsna = a.retransmissionQ.entries := List.takeWhile_append_dropWhile

/-- The loop takes the acknowledged entries at the front of the map. -/
theorem Keyed.ackedBytesLoop (h : a.Keyed) (tsna : BitVec 32)
    (hrounds : a.retransmissionQ.size < rounds) (newlyAckedBytes : BitVec 32) :
    ∃ a', ackedBytesLoop tsna rounds newlyAckedBytes a =
        .ok (newlyAckedBytes + ((a.taken tsna).map fun e ↦ newlyAcked (a.chunks e.2)).sum, a') ∧
      a'.retransmissionQ.entries = a.left tsna ∧
      ∀ k, a'.transmissionQ.find? k =
        if k ∈ (a.taken tsna).map Prod.fst then none else a.transmissionQ.find? k := by
  induction rounds generalizing a newlyAckedBytes with
  | zero => exact absurd hrounds (Nat.not_lt_zero _)
  | succ rounds ih =>
    unfold SCTPSender.ackedBytesLoop taken left
    cases hentries : a.retransmissionQ.entries with
    | nil => exact ⟨a, by simp, by simp [hentries], by simp⟩
    | cons entry rest =>
      obtain ⟨k, i⟩ := entry
      have hk := h.entries_eq hentries
      have hacked : isAcked tsna k = tsnGe tsna (a.chunks i).tsn := by
        rw [isAcked, hk, BitVec.ofNat_toNat, BitVec.setWidth_eq]
      dsimp only
      rw [List.takeWhile_cons, List.dropWhile_cons, hacked]
      split
      · have hfound : (a.unqueue i).retransmissionQ.find? (a.chunks i).tsn.toNat = some i := by
          rw [unqueue_retransmissionQ, ← hk, find?_eq_some_iff, hentries]
          exact List.mem_cons_self
        obtain ⟨hrest, hchunks⟩ := h.dequeueFirst_entries hentries
        have hsize : (a.dequeueFirst i).retransmissionQ.size < rounds := by
          unfold size at hrounds ⊢
          rw [hentries, List.length_cons] at hrounds
          rw [hrest]
          omega
        obtain ⟨a', hloop, hleft, htrans⟩ := ih (h.dequeueFirst hentries) hsize
          (newlyAckedBytes + newlyAcked (a.chunks i))
        have hsum : ((a.dequeueFirst i).taken tsna).map
            (fun e ↦ newlyAcked ((a.dequeueFirst i).chunks e.2)) =
            (rest.takeWhile fun e ↦ isAcked tsna e.1).map fun e ↦ newlyAcked (a.chunks e.2) := by
          unfold taken
          rw [hrest]
          apply List.map_congr_left
          intro e he
          rw [hchunks e ((List.takeWhile_sublist _).subset he)]
        rw [hfound]
        dsimp only
        rw [unqueue_chunks]
        refine ⟨a', ?_, ?_, ?_⟩
        · rw [hsum] at hloop
          rw [List.map_cons, List.sum_cons, ← add_assoc]
          exact hloop
        · rw [hleft, left, hrest]
        · intro k'
          rw [htrans k', taken, hrest, SCTPSender.dequeueFirst, (dequeueChunk_frame _ _ _).1,
            unqueue_find?, ← hk]
          simp only [List.map_cons, List.mem_cons]
          by_cases hself : k' = k
          · simp [hself]
          · simp only [hself, false_or, if_false]
      · exact ⟨a, by simp, hentries, by simp⟩

/-- What is taken is acknowledged and has smaller numbers than what is left. -/
theorem taken_lt_left {e e' : ℕ × ℕ} (he : e ∈ a.taken tsna) (he' : e' ∈ a.left tsna) :
    e.1 < e'.1 := by
  have hsorted := a.retransmissionQ.sorted
  rw [← taken_append_left a tsna] at hsorted
  exact (List.pairwise_append.mp hsorted).2.2 e he e' he'

theorem isAcked_of_taken {e : ℕ × ℕ} (he : e ∈ a.taken tsna) : isAcked tsna e.1 = true :=
  List.mem_takeWhile_imp (p := fun e : ℕ × ℕ ↦ isAcked tsna e.1) he

theorem mem_entries_iff (a : SCTPSender) (tsna : BitVec 32) {e : ℕ × ℕ} :
    e ∈ a.retransmissionQ.entries ↔ e ∈ a.taken tsna ∨ e ∈ a.left tsna := by
  rw [← taken_append_left a tsna, List.mem_append]

theorem isSome_find?_iff (m : OrderedMap ℕ ℕ) (k : ℕ) :
    (m.find? k).isSome ↔ ∃ i, (k, i) ∈ m.entries := by
  rw [Option.isSome_iff_exists]
  exact exists_congr fun i ↦ find?_eq_some_iff

/-- With the acknowledged chunks in front, nothing acknowledged is left. -/
theorem AckedFirst.not_isAcked_of_left (h : a.AckedFirst tsna) {e : ℕ × ℕ}
    (he : e ∈ a.left tsna) : isAcked tsna e.1 = false := by
  by_contra hacked
  rw [Bool.not_eq_false] at hacked
  have hne : a.left tsna ≠ [] := List.ne_nil_of_mem he
  obtain ⟨first, others, hleft⟩ := List.exists_cons_of_ne_nil hne
  have hfirst : first ∈ a.left tsna := by rw [hleft]; exact List.mem_cons_self
  have hfalse : isAcked tsna first.1 = false := by
    have hhead : isAcked tsna ((a.left tsna).head hne).1 = false :=
      List.head_dropWhile_not (fun e : ℕ × ℕ ↦ isAcked tsna e.1) hne
    have heq : (a.left tsna).head hne = first := by simp [hleft]
    rwa [heq] at hhead
  have hlt := h e.1 first.1
    ((isSome_find?_iff _ _).mpr ⟨e.2, (mem_entries_iff a tsna).mpr (.inr he)⟩)
    ((isSome_find?_iff _ _).mpr ⟨first.2, (mem_entries_iff a tsna).mpr (.inr hfirst)⟩) hacked hfalse
  have hsorted := a.retransmissionQ.sorted
  rw [← taken_append_left a tsna, hleft] at hsorted
  have hrest := (List.pairwise_cons.mp (List.pairwise_append.mp hsorted).2.1).1
  rw [hleft] at he
  rcases List.mem_cons.mp he with rfl | hmem
  · exact lt_irrefl _ hlt
  · exact lt_asymm hlt (hrest e hmem)

/-- The acknowledged chunks are dequeued exactly just if none of them lies behind an outstanding
one. -/
theorem ackedBytes_exactly_iff (h : a.Keyed) (tsna : BitVec 32) :
    (∃ newlyAckedBytes a', a.ackedBytes tsna = .ok (newlyAckedBytes, a') ∧
      a.AcksExactly tsna newlyAckedBytes a') ↔ a.AckedFirst tsna := by
  obtain ⟨a', hrun, hleft, htrans⟩ := h.ackedBytesLoop tsna (Nat.lt_succ_self _) 0
  have hfind : ∀ k i, a'.retransmissionQ.find? k = some i ↔ (k, i) ∈ a.left tsna := by
    intro k i
    rw [find?_eq_some_iff, hleft]
  rw [zero_add] at hrun
  constructor
  · rintro ⟨newlyAckedBytes, b, hok, hexact⟩ k k' hk hk' hacked hacked'
    obtain rfl : a' = b := congrArg Prod.snd (Except.ok.inj (hrun.symm.trans hok))
    obtain ⟨i, hi⟩ := (isSome_find?_iff _ _).mp hk
    obtain ⟨i', hi'⟩ := (isSome_find?_iff _ _).mp hk'
    have htaken : (k, i) ∈ a.taken tsna := by
      apply ((mem_entries_iff a tsna).mp hi).resolve_right
      intro hmem
      have hgone := hexact.retransmissionQ k
      rw [if_pos hacked, (hfind k i).mpr hmem] at hgone
      cases hgone
    have hmem' : (k', i') ∈ a.left tsna := by
      apply ((mem_entries_iff a tsna).mp hi').resolve_left
      intro hmem
      rw [isAcked_of_taken hmem] at hacked'
      cases hacked'
    exact taken_lt_left htaken hmem'
  · intro hfirst
    have hnone : ∀ e ∈ a.left tsna, isAcked tsna e.1 = false :=
      fun e he ↦ hfirst.not_isAcked_of_left he
    have hfilter : a.retransmissionQ.entries.filter (fun e ↦ isAcked tsna e.1) = a.taken tsna := by
      rw [← taken_append_left a tsna, List.filter_append,
        List.filter_eq_self.mpr fun e he ↦ isAcked_of_taken he,
        List.filter_eq_nil_iff.mpr fun e he ↦ by simp [hnone e he], List.append_nil]
    have hmem : ∀ k, k ∈ (a.taken tsna).map Prod.fst ↔
        isAcked tsna k = true ∧ (a.retransmissionQ.find? k).isSome = true := by
      intro k
      rw [isSome_find?_iff, List.mem_map]
      constructor
      · rintro ⟨e, he, rfl⟩
        exact ⟨isAcked_of_taken he, e.2, (mem_entries_iff a tsna).mpr (.inl he)⟩
      · rintro ⟨hacked, i, hi⟩
        refine ⟨(k, i), ((mem_entries_iff a tsna).mp hi).resolve_right fun hmem ↦ ?_, rfl⟩
        rw [hnone _ hmem] at hacked
        cases hacked
    refine ⟨_, a', hrun, ?_, ?_, ?_⟩
    · intro k
      split
      · rename_i hacked
        rw [find?_eq_none_iff, hleft]
        intro i hi
        rw [hnone _ hi] at hacked
        cases hacked
      · rename_i hacked
        ext i
        rw [hfind, find?_eq_some_iff]
        constructor
        · intro hi
          exact (mem_entries_iff a tsna).mpr (.inr hi)
        · intro hi
          rcases (mem_entries_iff a tsna).mp hi with hmem' | hmem'
          · exact absurd (isAcked_of_taken hmem') hacked
          · exact hmem'
    · intro k
      rw [htrans k]
      exact if_congr (hmem k) rfl rfl
    · rw [hfilter]

end Loop

/-- The numbers `2 ^ 32 - 1` and `0` are outstanding, one chunk each. -/
def acrossWrap : SCTPSender where
  chunks i := if i = 0 then { tsn := 0xFFFFFFFF, booksize := 10 } else { booksize := 10 }
  allocated := 2
  retransmissionQ := (OrderedMap.empty.insert 0xFFFFFFFF 0).insert 0 1

theorem acrossWrap_keyed : acrossWrap.Keyed := by
  intro k i hi
  have hentries : acrossWrap.retransmissionQ.entries = [(0, 1), (0xFFFFFFFF, 0)] := by decide
  rw [hentries, List.mem_cons, List.mem_singleton] at hi
  rcases hi with hi | hi <;> cases hi <;> rfl

theorem ackedBytes_exactly_iff_acrossWrap :
    (∃ newlyAckedBytes a', acrossWrap.ackedBytes 0 = .ok (newlyAckedBytes, a') ∧
      acrossWrap.AcksExactly 0 newlyAckedBytes a') ↔ acrossWrap.AckedFirst 0 :=
  ackedBytes_exactly_iff acrossWrap_keyed 0

/-- The chunk before the wrap is acknowledged, but the one behind it is looked at first. -/
theorem acked_before_wrap_stays :
    ¬ ∃ newlyAckedBytes a', acrossWrap.ackedBytes 0xFFFFFFFF = .ok (newlyAckedBytes, a') ∧
      acrossWrap.AcksExactly 0xFFFFFFFF newlyAckedBytes a' := by
  rintro ⟨n, a', hok, hexact⟩
  have hrun : acrossWrap.ackedBytes 0xFFFFFFFF = .ok (0, acrossWrap) := rfl
  obtain rfl : acrossWrap = a' := congrArg Prod.snd (Except.ok.inj (hrun.symm.trans hok))
  have hgone := hexact.retransmissionQ 0xFFFFFFFF
  revert hgone
  decide

end SCTPSender

end InetManet.SCTP
