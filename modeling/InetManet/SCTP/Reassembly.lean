import Mathlib.Algebra.BigOperators.Ring.List
import InetManet.SCTP.ReceiveStream

/-!
# Reassembly of user messages

User messages are cut into fragments that carry consecutive TSNs, and the fragments arrive in any
order. As long as every fragmented message is ordered and its TSNs do not run over `2 ^ 32 - 1`, what
the receive streams hold is determined by the set of fragments that have arrived: a message with a
missing fragment is kept as its fragments, a complete one as a single chunk with the concatenated
payload. A complete unordered message is in `deliveryQ`; an ordered one waits in `orderedQ` until
an arrival finds that its sequence number is the expected one, which moves it to `deliveryQ`.
-/

namespace InetManet.SCTP

open TransitionSystem SerialNumber

/-- The key of a position in the sequence of TSNs. -/
def keyAt (p : ℕ) : ℕ := (BitVec.ofNat 32 p).toNat

theorem keyAt_inj {p p' : ℕ} (h : p < p' + 2 ^ 32) (h' : p' < p + 2 ^ 32) :
    keyAt p = keyAt p' ↔ p = p' := by
  unfold keyAt
  rw [← BitVec.toNat_eq, ofNat_inj h h']

/-! ## The loops of `reassemble` -/

namespace SCTPReceiveStream

section Loops

variable {q : SCTPQueue} {start k : ℕ} {here : ℕ → Prop} [DecidablePred here]
  {f : ℕ → SCTPDataVariables}

/-- The queue holds those of the `k` fragments from position `start` that are `here`. -/
structure Fragments (q : SCTPQueue) (start k : ℕ) (here : ℕ → Prop) [DecidablePred here]
    (f : ℕ → SCTPDataVariables) : Prop where
  find : ∀ i < k, q.find? (keyAt (start + i)) = if here i then some (f i) else none
  bbit : ∀ i < k, (f i).bbit = decide (i = 0)
  ebit : ∀ i < k, (f i).ebit = decide (i + 1 = k)

theorem Fragments.getVar (h : Fragments q start k here f) {i : ℕ} (hi : i < k) :
    q.getVar (BitVec.ofNat 32 (start + i)) = if here i then some (f i) else none :=
  h.find i hi

theorem ofNat_succ_sub_one (p : ℕ) : BitVec.ofNat 32 (p + 1) - 1 = BitVec.ofNat 32 p := by
  rw [← ofNat_add_one, BitVec.add_sub_cancel]

/-- Going down from fragment `j` ends at the first fragment or at one that is missing. -/
theorem lowerLoop_fragments (h : Fragments q start k here f) {j rounds : ℕ} (hj : j < k)
    (hrounds : j < rounds) :
    ∃ i ≤ j, lowerLoop q rounds (BitVec.ofNat 32 (start + j)) = .ok (BitVec.ofNat 32 (start + i)) ∧
      (here i → i = 0) := by
  induction j generalizing rounds with
  | zero =>
    obtain ⟨n, rfl⟩ := Nat.exists_eq_add_of_lt hrounds
    refine ⟨0, le_rfl, ?_, fun _ ↦ rfl⟩
    rw [Nat.zero_add, lowerLoop, h.getVar hj]
    by_cases h0 : here 0
    · rw [if_pos h0]
      simp [h.bbit 0 hj]
    · rw [if_neg h0]
  | succ j ih =>
    obtain ⟨n, rfl⟩ := Nat.exists_eq_add_of_lt hrounds
    rw [lowerLoop, h.getVar hj]
    by_cases hhere : here (j + 1)
    · obtain ⟨i, hij, heq, hi⟩ := @ih (j + 1 + n) (by omega) (by omega)
      refine ⟨i, by omega, ?_, hi⟩
      rw [if_pos hhere]
      dsimp only
      rw [h.bbit (j + 1) hj, if_neg (by simp), ← Nat.add_assoc, ofNat_succ_sub_one]
      exact heq
    · refine ⟨j + 1, le_rfl, ?_, fun hh ↦ absurd hh hhere⟩
      rw [if_neg hhere]

/-- Going up from fragment `i` ends at the last fragment, if all are there, or at the first one
that is missing. -/
theorem upperLoop_fragments (h : Fragments q start k here f) {i rounds : ℕ} (hi : i < k)
    (hrounds : k ≤ i + rounds) :
    ∃ j, i ≤ j ∧ j < k ∧
      upperLoop q rounds (BitVec.ofNat 32 (start + i)) = .ok (BitVec.ofNat 32 (start + j)) ∧
      (∀ l, i ≤ l → l < j → here l) ∧ (here j → j + 1 = k) := by
  induction rounds generalizing i with
  | zero => omega
  | succ rounds ih =>
    rw [upperLoop, h.getVar hi]
    by_cases hhere : here i
    · rw [if_pos hhere]
      dsimp only
      rw [h.ebit i hi]
      by_cases hlast : i + 1 = k
      · exact ⟨i, le_rfl, hi, by rw [if_pos (by simpa using hlast)], fun l _ _ ↦ by omega,
          fun _ ↦ hlast⟩
      · obtain ⟨j, hij, hjk, heq, hbelow, hj⟩ := ih (i := i + 1) (by omega) (by omega)
        refine ⟨j, by omega, hjk, ?_, fun l hl hlj ↦ ?_, hj⟩
        · rw [if_neg (by simpa using hlast), ofNat_add_one]
          exact heq
        · rcases hl.eq_or_lt with rfl | hlt
          · exact hhere
          · exact hbelow l hlt hlj
    · exact ⟨i, le_rfl, hi, by rw [if_neg hhere], fun l _ _ ↦ by omega, fun hh ↦ absurd hh hhere⟩

/-- The fragments `[c, c + n)`, counted by key, are merged into the first chunk and leave the
queue. -/
theorem mergeLoop_fragments {g : ℕ → SCTPDataVariables} (n : ℕ) {rounds c : ℕ} {q : SCTPQueue}
    {first : SCTPDataVariables} {begintsn endtsn : BitVec 32} (hrounds : n < rounds)
    (hnext : (begintsn + 1).toNat = c) (hlast : endtsn.toNat + 1 = c + n) (hspace : c + n < 2 ^ 32)
    (hfind : ∀ i < n, q.find? (c + i) = some (g i)) :
    ∃ q', mergeLoop endtsn rounds q first begintsn =
        .ok (((List.range n).map g).foldl addFragment first, q') ∧
      ∀ k, q'.find? k = if c ≤ k ∧ k < c + n then none else q.find? k := by
  induction n generalizing rounds c q first begintsn g with
  | zero =>
    obtain ⟨m, rfl⟩ := Nat.exists_eq_add_of_lt hrounds
    refine ⟨q, ?_, fun k ↦ ?_⟩
    · rw [mergeLoop, if_neg (by omega)]
      rfl
    · rw [if_neg (by omega)]
  | succ n ih =>
    obtain ⟨m, rfl⟩ := Nat.exists_eq_add_of_lt hrounds
    have hfirst : q.getAndExtractMessage (begintsn + 1) = .ok (g 0, q.erase c) := by
      unfold SCTPQueue.getAndExtractMessage SCTPQueue.getVar
      rw [hnext, show q.find? c = some (g 0) from hfind 0 (by omega)]
    have hnext' : (begintsn + 1 + 1).toNat = c + 1 := by
      rw [BitVec.toNat_add, hnext]
      exact Nat.mod_eq_of_lt (show c + 1 < 2 ^ 32 by omega)
    have hrest : ∀ i < n, (q.erase c).find? (c + 1 + i) = some (g (i + 1)) := by
      intro i hi
      rw [OrderedMap.find?_erase_of_ne (by omega), show c + 1 + i = c + (i + 1) by omega]
      exact hfind (i + 1) (by omega)
    obtain ⟨q', heq, hq'⟩ := @ih (fun i ↦ g (i + 1)) (n + 1 + m) (c + 1) (q.erase c)
      (addFragment first (g 0)) (begintsn + 1) (by omega) hnext' (by omega) (by omega) hrest
    refine ⟨q', ?_, fun k ↦ ?_⟩
    · rw [mergeLoop, if_pos (by omega), hfirst]
      show mergeLoop endtsn (n + 1 + m) (q.erase c) (addFragment first (g 0)) (begintsn + 1) = _
      rw [heq, List.range_succ_eq_map, List.map_cons, List.foldl_cons, List.map_map]
      rfl
    · rw [hq', OrderedMap.find?_erase]
      split <;> split <;> rename_i h₁ h₂ <;> first | rfl | omega | skip
      · rw [if_pos (by omega)]
      · rw [if_neg (by omega)]

/-- The TSNs of the fragments do not run over the largest TSN. -/
def NoWrap (start k : ℕ) : Prop := keyAt start + k < 2 ^ 32 ∨ keyAt start = 2 ^ 32 - 1

instance (start k : ℕ) : Decidable (NoWrap start k) := inferInstanceAs (Decidable (_ ∨ _))

/-- All fragments behind the first one have consecutive keys. -/
theorem NoWrap.keyAt_add (h : NoWrap start k) (hk : k ≤ 2 ^ 32) {i : ℕ} (hi : i + 1 < k) :
    keyAt (start + (i + 1)) = keyAt (start + 1) + i ∧ keyAt (start + 1) + (k - 1) < 2 ^ 32 := by
  unfold NoWrap keyAt at *
  simp only [BitVec.toNat_ofNat] at *
  omega

/-- The chunk that the fragments are merged into. -/
def merged (f : ℕ → SCTPDataVariables) (k : ℕ) : SCTPDataVariables :=
  { ((List.range (k - 1)).map fun i ↦ f (i + 1)).foldl addFragment (f 0) with ebit := true }

theorem reassemble_incomplete {s : SCTPReceiveStream} (h : Fragments s.orderedQ start k here f)
    (hk : k ≤ 2 ^ 32) {j : ℕ} (hj : j < k) (hmissing : ¬ ∀ i < k, here i) (queue : SCTPQueue) :
    s.reassemble queue (BitVec.ofNat 32 (start + j)) = .ok (BitVec.ofNat 32 (start + j), s) := by
  obtain ⟨i, hij, hlower, hi⟩ := lowerLoop_fragments h hj (show j < allTsns by unfold allTsns; omega)
  unfold reassemble
  rw [hlower, ok_bind, h.getVar (by omega)]
  by_cases hhere : here i
  · obtain rfl := hi hhere
    obtain ⟨l, -, hl, hupper, hbelow, hlast⟩ := upperLoop_fragments h (show 0 < k by omega)
      (show k ≤ 0 + allTsns by unfold allTsns; omega)
    have hend : ¬ here l := by
      intro hend
      refine hmissing fun i hi ↦ ?_
      rcases (show i ≤ l by have := hlast hend; omega).eq_or_lt with rfl | hlt
      · exact hend
      · exact hbelow i (Nat.zero_le i) hlt
    rw [if_pos hhere]
    dsimp only
    rw [hupper, ok_bind, h.getVar hl, if_neg hend]
    rfl
  · rw [if_neg hhere]
    rfl

theorem reassemble_complete {s : SCTPReceiveStream} (h : Fragments s.orderedQ start k here f)
    (hk : k ≤ 2 ^ 32) (hk2 : 1 < k) (hwrap : NoWrap start k) {j : ℕ} (hj : j < k)
    (hall : ∀ i < k, here i) (queue : SCTPQueue) :
    ∃ q, s.reassemble queue (BitVec.ofNat 32 (start + j)) =
        .ok ((merged f k).tsn, { s with orderedQ := q }) ∧
      ∀ key, q.find? key = if key = keyAt start then some (merged f k)
        else if ∃ i < k, key = keyAt (start + i) then none else s.orderedQ.find? key := by
  have hvar : ∀ i < k, s.orderedQ.getVar (BitVec.ofNat 32 (start + i)) = some (f i) := by
    intro i hi
    rw [h.getVar hi, if_pos (hall i hi)]
  obtain ⟨i, hij, hlower, hi⟩ := lowerLoop_fragments h hj (show j < allTsns by unfold allTsns; omega)
  obtain rfl := hi (hall i (by omega))
  obtain ⟨l, -, hl, hupper, -, hlast⟩ := upperLoop_fragments h (show 0 < k by omega)
    (show k ≤ 0 + allTsns by unfold allTsns; omega)
  obtain rfl : k = l + 1 := (hlast (hall l hl)).symm
  have hkeys : ∀ i < l, keyAt (start + (i + 1)) = keyAt (start + 1) + i :=
    fun i hi ↦ (hwrap.keyAt_add hk (by omega)).1
  have hfits : keyAt (start + 1) + l < 2 ^ 32 := by
    have := (hwrap.keyAt_add hk (show 0 + 1 < l + 1 by omega)).2
    omega
  have hend : (BitVec.ofNat 32 (start + l)).toNat + 1 = keyAt (start + 1) + l := by
    have : keyAt (start + l) = keyAt (start + 1) + (l - 1) := by
      rw [← hkeys (l - 1) (by omega), Nat.sub_add_cancel (by omega)]
    unfold keyAt at this ⊢
    omega
  have hnext : (BitVec.ofNat 32 start + 1).toNat = keyAt (start + 1) := by
    rw [ofNat_add_one]
    rfl
  obtain ⟨q', hmerge, hq'⟩ := mergeLoop_fragments (g := fun i ↦ f (i + 1)) l
    (show l < allTsns by unfold allTsns; omega) hnext hend hfits
    (fun i hi ↦ by rw [← hkeys i hi]; exact hvar (i + 1) (by omega))
  refine ⟨q'.insert (keyAt start) (merged f (l + 1)), ?_, fun key ↦ ?_⟩
  · unfold reassemble
    rw [hlower, ok_bind, hvar 0 (by omega)]
    dsimp only
    rw [hupper, ok_bind, hvar l hl]
    dsimp only
    rw [Nat.add_zero, hmerge]
    rfl
  · rw [OrderedMap.find?_insert, hq']
    by_cases hfirst : key = keyAt start
    · rw [if_pos hfirst, if_pos hfirst]
    · rw [if_neg hfirst, if_neg hfirst]
      have hiff : (∃ i < l + 1, key = keyAt (start + i)) ↔
          keyAt (start + 1) ≤ key ∧ key < keyAt (start + 1) + l := by
        refine ⟨fun ⟨i, hi, heq⟩ ↦ ?_, fun ⟨hlow, hhigh⟩ ↦ ?_⟩
        · rcases i with _ | i
          · exact absurd heq hfirst
          · rw [hkeys i (by omega)] at heq
            omega
        · refine ⟨key - keyAt (start + 1) + 1, by omega, ?_⟩
          rw [hkeys _ (by omega)]
          omega
      simp only [hiff]

end Loops

end SCTPReceiveStream

/-! ## Messages and their fragments -/

/-- A user message as it is put on the wire. -/
structure UserMessage where
  sid : ℕ
  ssn : BitVec 16
  ordered : Bool
  fragments : List (List (BitVec 8))
  deriving DecidableEq, Repr

/-- A message whose first fragment has position `start` in the sequence of TSNs. -/
structure Placed where
  start : ℕ
  message : UserMessage
  deriving DecidableEq, Repr

namespace Placed

def count (P : Placed) : ℕ := P.message.fragments.length

/-- The chunk with the `i`-th fragment. -/
def fragment (P : Placed) (i : ℕ) : SCTPDataVariables :=
  let data := P.message.fragments.getD i []
  { tsn := BitVec.ofNat 32 (P.start + i), sid := P.message.sid, ssn := P.message.ssn,
    ordered := P.message.ordered, bbit := i = 0, ebit := i + 1 = P.count, len := 8 * data.length,
    userData := data }

/-- The chunk of the complete message. -/
def whole (P : Placed) : SCTPDataVariables :=
  { tsn := BitVec.ofNat 32 P.start, sid := P.message.sid, ssn := P.message.ssn,
    ordered := P.message.ordered, bbit := true, ebit := true,
    len := 8 * P.message.fragments.flatten.length, userData := P.message.fragments.flatten }

/-- Reassembly can be relied on: the message is not fragmented, or it is ordered and its TSNs do
not run over the largest one. -/
def Reassemblable (P : Placed) : Prop :=
  P.count = 1 ∨ (P.message.ordered = true ∧ SCTPReceiveStream.NoWrap P.start P.count)

instance (P : Placed) : Decidable P.Reassemblable := inferInstanceAs (Decidable (_ ∨ _))

theorem foldl_addFragment (first : SCTPDataVariables) (l : List SCTPDataVariables) :
    l.foldl SCTPReceiveStream.addFragment first =
      { first with len := first.len + (l.map (·.len)).sum,
                   userData := first.userData ++ (l.map (·.userData)).flatten } := by
  induction l generalizing first with
  | nil => simp
  | cons v l ih =>
    rw [List.foldl_cons, ih]
    simp [SCTPReceiveStream.addFragment, Nat.add_assoc]

theorem merged_fragment (P : Placed) (h : 0 < P.count) :
    SCTPReceiveStream.merged P.fragment P.count = P.whole := by
  obtain ⟨first, rest, hfragments⟩ : ∃ first rest, P.message.fragments = first :: rest :=
    List.exists_cons_of_length_pos h
  have hcount : P.count - 1 = rest.length := by simp [count, hfragments]
  have hdata : (List.range rest.length).map (fun i ↦ (P.fragment (i + 1)).userData) = rest := by
    apply List.ext_getElem
    · simp
    · intro i h₁ h₂
      simp [fragment, hfragments, h₂]
  have hlen : ((List.range rest.length).map (fun i ↦ (P.fragment (i + 1)).len)).sum =
      8 * rest.flatten.length := by
    have hmap : (List.range rest.length).map (fun i ↦ (P.fragment (i + 1)).len) =
        rest.map (8 * ·.length) := by
      nth_rewrite 2 [← hdata]
      rw [List.map_map]
      rfl
    rw [hmap, List.length_flatten, List.sum_map_mul_left]
  unfold SCTPReceiveStream.merged
  rw [foldl_addFragment, hcount, List.map_map, List.map_map]
  simp only [Function.comp_def, hdata, hlen]
  simp [fragment, whole, hfragments, Nat.mul_add]

end Placed

/-- Consecutive TSNs from position `start` on. -/
def placeFrom (start : ℕ) : List UserMessage → List Placed
  | [] => []
  | m :: ms => ⟨start, m⟩ :: placeFrom (start + m.fragments.length) ms

/-- Messages in distinct positions of one round of TSNs. -/
structure Layout (first : ℕ) (placed : List Placed) : Prop where
  nonempty : ∀ P ∈ placed, 0 < P.count
  low : ∀ P ∈ placed, first ≤ P.start
  high : ∀ P ∈ placed, P.start + P.count ≤ first + 2 ^ 32
  apart : ∀ P ∈ placed, ∀ Q ∈ placed, P ≠ Q →
    P.start + P.count ≤ Q.start ∨ Q.start + Q.count ≤ P.start

theorem Layout.eq_of_key {first : ℕ} {placed : List Placed} (h : Layout first placed)
    {P Q : Placed} (hP : P ∈ placed) (hQ : Q ∈ placed) {i j : ℕ} (hi : i < P.count)
    (hj : j < Q.count) (hkey : keyAt (P.start + i) = keyAt (Q.start + j)) : P = Q ∧ i = j := by
  have hPlow := h.low P hP
  have hPhigh := h.high P hP
  have hQlow := h.low Q hQ
  have hQhigh := h.high Q hQ
  rw [keyAt_inj (by omega) (by omega)] at hkey
  by_cases heq : P = Q
  · subst heq
    exact ⟨rfl, by omega⟩
  · rcases h.apart P hP Q hQ heq with hapart | hapart <;> omega

theorem mem_placeFrom {start : ℕ} {ms : List UserMessage} {P : Placed} (h : P ∈ placeFrom start ms) :
    P.message ∈ ms ∧ start ≤ P.start ∧
      P.start + P.count ≤ start + (ms.map (·.fragments.length)).sum := by
  induction ms generalizing start with
  | nil => cases h
  | cons m ms ih =>
    rw [List.map_cons, List.sum_cons]
    rcases List.mem_cons.mp h with rfl | h
    · exact ⟨by simp, le_rfl, by unfold Placed.count; dsimp only; omega⟩
    · obtain ⟨hmem, hlow, hhigh⟩ := ih h
      exact ⟨by simp [hmem], by omega, by omega⟩

theorem layout_placeFrom {start : ℕ} {ms : List UserMessage} (hne : ∀ m ∈ ms, m.fragments ≠ [])
    (htotal : (ms.map (·.fragments.length)).sum ≤ 2 ^ 32) : Layout start (placeFrom start ms) := by
  refine ⟨fun P hP ↦ ?_, fun P hP ↦ (mem_placeFrom hP).2.1, fun P hP ↦ ?_, ?_⟩
  · exact List.length_pos_iff.mpr (hne _ (mem_placeFrom hP).1)
  · exact (mem_placeFrom hP).2.2.trans (by omega)
  · clear hne htotal
    induction ms generalizing start with
    | nil => exact fun P hP ↦ by cases hP
    | cons m ms ih =>
      intro P hP Q hQ hne
      rcases List.mem_cons.mp hP with rfl | hP <;> rcases List.mem_cons.mp hQ with rfl | hQ
      · exact absurd rfl hne
      · exact .inl (mem_placeFrom hQ).2.1
      · exact .inr (mem_placeFrom hP).2.1
      · exact ih P hP Q hQ hne

/-! ## The queues of a stream -/

/-- What is stored under this key for an ordered message or for delivery. -/
def SCTPReceiveStream.find (s : SCTPReceiveStream) (key : ℕ) : Option SCTPDataVariables :=
  (s.orderedQ.find? key).or (s.deliveryQ.find? key)

/-- Every fragment of `P` has arrived. -/
def Complete (arrived : Set ℕ) (P : Placed) : Prop := ∀ i < P.count, P.start + i ∈ arrived

open Classical in
/-- What the receiver keeps for the `i`-th fragment of `P`: the message in place of its first
fragment when all have arrived, else the fragment if it has arrived. -/
noncomputable def content (arrived : Set ℕ) (P : Placed) (i : ℕ) : Option SCTPDataVariables :=
  if Complete arrived P then if i = 0 then some P.whole else none
  else if P.start + i ∈ arrived then some (P.fragment i) else none

/-- The queues of stream `sid` hold the messages as far as they have arrived, and nothing else. -/
structure Queued (s : SCTPReceiveStream) (sid : ℕ) (placed : List Placed) (arrived : Set ℕ) :
    Prop where
  content : ∀ P ∈ placed, P.message.sid = sid → ∀ i < P.count,
    s.find (keyAt (P.start + i)) = content arrived P i
  only : ∀ key v, s.find key = some v →
    ∃ P ∈ placed, P.message.sid = sid ∧ ∃ i < P.count, key = keyAt (P.start + i)
  disjoint : ∀ key, s.orderedQ.find? key = none ∨ s.deliveryQ.find? key = none
  delivered : ∀ key v, s.deliveryQ.find? key = some v → v.bbit = true ∧ v.ebit = true
  waiting : ∀ key v, s.orderedQ.find? key = some v → v.ordered = true
  unordered : s.unorderedQ = .empty

/-- The complete chunk of `P` is in `deliveryQ`, or in `orderedQ` until its turn. -/
def Deliverable (s : SCTPReceiveStream) (P : Placed) : Prop :=
  s.orderedQ.find? (keyAt P.start) = some P.whole ∨ s.deliveryQ.find? (keyAt P.start) = some P.whole

/-- What the queues of stream `sid` say about the messages: a message is deliverable from the arrival
of its last missing fragment on, and an unordered one is then in `deliveryQ`. -/
structure Reassembled (s : SCTPReceiveStream) (sid : ℕ) (placed : List Placed) (arrived : Set ℕ) :
    Prop where
  queued : Queued s sid placed arrived
  deliverable : ∀ P ∈ placed, P.message.sid = sid → (Deliverable s P ↔ Complete arrived P)
  unordered : ∀ P ∈ placed, P.message.sid = sid → P.message.ordered = false → Complete arrived P →
    s.deliveryQ.find? (keyAt P.start) = some P.whole

/-- The ordered message `Q` of stream `sid` has arrived, and its sequence number is the expected
one. -/
structure Expected (s : SCTPReceiveStream) (sid : ℕ) (placed : List Placed) (arrived : Set ℕ)
    (Q : Placed) : Prop where
  mem : Q ∈ placed
  sid : Q.message.sid = sid
  ordered : Q.message.ordered = true
  complete : Complete arrived Q
  ssn : Q.message.ssn = s.expectedStreamSeqNum

/-- What the arrival of a fragment of `P` moves to `deliveryQ`. An unordered message goes there
itself. An ordered one lets the expected message go there, which may be itself; nothing else does,
and the next sequence number is expected only then. -/
structure HandsOver (s s' : SCTPReceiveStream) (placed : List Placed) (arrived : Set ℕ) (P : Placed) :
    Prop where
  unordered : P.message.ordered = false → s'.expectedStreamSeqNum = s.expectedStreamSeqNum ∧
    s'.deliveryQ = s.deliveryQ.insert (keyAt P.start) P.whole
  ordered : P.message.ordered = true →
    (∃ Q, Expected s P.message.sid placed arrived Q ∧ s.deliveryQ.find? (keyAt Q.start) = none ∧
      s'.expectedStreamSeqNum = s.expectedStreamSeqNum + 1 ∧
      s'.deliveryQ = s.deliveryQ.insert (keyAt Q.start) Q.whole) ∨
    (s'.expectedStreamSeqNum = s.expectedStreamSeqNum ∧ s'.deliveryQ = s.deliveryQ ∧
      ∀ Q, Expected s P.message.sid placed arrived Q →
        s.deliveryQ.find? (keyAt Q.start) = some Q.whole)
  turn : P.message.ordered = true → ∀ Q, Expected s P.message.sid placed arrived Q →
    (∀ R, Expected s P.message.sid placed arrived R → R = Q) →
    s'.deliveryQ.find? (keyAt Q.start) = some Q.whole

section Queued

variable {s s' : SCTPReceiveStream} {sid first : ℕ} {placed : List Placed} {arrived : Set ℕ}
  {P : Placed} {i : ℕ}

theorem content_tsn {v : SCTPDataVariables} (h : content arrived P i = some v) :
    v.tsn = BitVec.ofNat 32 (P.start + i) := by
  unfold content at h
  split at h
  · split at h
    · rename_i hi
      cases h
      rw [hi, Nat.add_zero]
      rfl
    · cases h
  · split at h
    · cases h
      rfl
    · cases h

theorem content_ordered {v : SCTPDataVariables} (h : content arrived P i = some v) :
    v.ordered = P.message.ordered := by
  unfold content at h
  split at h
  · split at h
    · cases h
      rfl
    · cases h
  · split at h
    · cases h
      rfl
    · cases h

theorem content_of_bits {v : SCTPDataVariables} (h : content arrived P i = some v)
    (hb : v.bbit = true) (he : v.ebit = true) : Complete arrived P ∧ i = 0 ∧ v = P.whole := by
  unfold content at h
  split at h
  · rename_i hcomplete
    split at h
    · rename_i hi
      cases h
      exact ⟨hcomplete, hi, rfl⟩
    · cases h
  · rename_i hmissing
    split at h
    · rename_i hmem
      cases h
      have hbegin : i = 0 := by simpa [Placed.fragment] using hb
      have hend : i + 1 = P.count := by simpa [Placed.fragment] using he
      refine absurd (fun j hj ↦ ?_) hmissing
      obtain rfl : j = i := by omega
      exact hmem
    · cases h

theorem Queued.tsn_eq_key (h : Queued s sid placed arrived) {key : ℕ} {v : SCTPDataVariables}
    (hv : s.find key = some v) : v.tsn.toNat = key := by
  obtain ⟨P, hP, hsid, i, hi, rfl⟩ := h.only key v hv
  rw [h.content P hP hsid i hi] at hv
  rw [content_tsn hv]
  rfl

theorem find_of_orderedQ {key : ℕ} {v : SCTPDataVariables} (h : s.orderedQ.find? key = some v) :
    s.find key = some v := by
  unfold SCTPReceiveStream.find
  rw [h]
  rfl

section

variable (h : Queued s sid placed arrived)

include h

/-- Moving a complete message to `deliveryQ` changes nothing for the messages. -/
theorem Queued.dequeueExpected :
    Queued s.dequeueExpected.2 sid placed arrived := by
  unfold SCTPReceiveStream.dequeueExpected SCTPQueue.dequeueVarBySsn
  cases hfirst : s.orderedQ.findFirst? fun datVar ↦
      datVar.ssn == s.expectedStreamSeqNum && datVar.bbit && datVar.ebit with
  | none => exact h
  | some e =>
    obtain ⟨key, chunk⟩ := e
    obtain ⟨hfind, hbits, -⟩ := OrderedMap.findFirst?_eq_some hfirst
    have hkey : chunk.tsn.toNat = key := h.tsn_eq_key (find_of_orderedQ hfind)
    have hfree : s.deliveryQ.find? key = none := by
      rcases h.disjoint key with hnone | hnone
      · rw [hfind] at hnone
        cases hnone
      · exact hnone
    have hinsert : s.deliveryQ.checkAndInsertVar chunk.tsn chunk =
        (true, s.deliveryQ.insert key chunk) := by
      unfold SCTPQueue.checkAndInsertVar SCTPQueue.getVar
      rw [hkey, hfree]
    simp only [Option.map_some, hinsert]
    simp only [Bool.and_eq_true] at hbits
    have hsame : ∀ k, SCTPReceiveStream.find
        { s with orderedQ := s.orderedQ.erase key, deliveryQ := s.deliveryQ.insert key chunk,
                 expectedStreamSeqNum := s.expectedStreamSeqNum + 1 } k = s.find k := by
      intro k
      unfold SCTPReceiveStream.find
      dsimp only
      rw [OrderedMap.find?_erase, OrderedMap.find?_insert]
      split <;> rename_i hk
      · rw [hk, hfind]
        rfl
      · rfl
    refine ⟨fun P hP hsid i hi ↦ (hsame _).trans (h.content P hP hsid i hi),
      fun k v hv ↦ h.only k v ((hsame k).symm.trans hv), fun k ↦ ?_, fun k v hv ↦ ?_,
      fun k v hv ↦ ?_, h.unordered⟩
    · dsimp only
      rw [OrderedMap.find?_erase, OrderedMap.find?_insert]
      split
      · exact .inl rfl
      · exact h.disjoint k
    · dsimp only at hv
      rw [OrderedMap.find?_insert] at hv
      split at hv
      · cases hv
        exact ⟨hbits.1.2, hbits.2⟩
      · exact h.delivered k v hv
    · dsimp only at hv
      rw [OrderedMap.find?_erase] at hv
      split at hv
      · cases hv
      · exact h.waiting k v hv

theorem Queued.find_whole (hP : P ∈ placed)
    (hsid : P.message.sid = sid) (hpos : 0 < P.count) (hc : Complete arrived P) :
    s.find (keyAt P.start) = some P.whole := by
  have hcontent := h.content P hP hsid 0 hpos
  unfold SCTP.content at hcontent
  rwa [if_pos hc, if_pos rfl] at hcontent

/-- A chunk with both bits in `orderedQ` is a complete ordered message. -/
theorem Queued.orderedQ_whole {key : ℕ} {v : SCTPDataVariables}
    (hv : s.orderedQ.find? key = some v) (hb : v.bbit = true) (he : v.ebit = true) :
    ∃ Q ∈ placed, Q.message.sid = sid ∧ Q.message.ordered = true ∧ Complete arrived Q ∧
      key = keyAt Q.start ∧ v = Q.whole := by
  obtain ⟨Q, hQ, hsid, i, hi, rfl⟩ := h.only key v (find_of_orderedQ hv)
  have hcontent := (h.content Q hQ hsid i hi).symm.trans (find_of_orderedQ hv)
  obtain ⟨hcomplete, rfl, rfl⟩ := content_of_bits hcontent hb he
  exact ⟨Q, hQ, hsid, h.waiting _ _ hv, hcomplete, rfl, rfl⟩

theorem Queued.handsOver (hlayout : Layout first placed) :
    (∃ Q, Expected s sid placed arrived Q ∧ s.deliveryQ.find? (keyAt Q.start) = none ∧
      s.dequeueExpected.2.expectedStreamSeqNum = s.expectedStreamSeqNum + 1 ∧
      s.dequeueExpected.2.deliveryQ = s.deliveryQ.insert (keyAt Q.start) Q.whole) ∨
    (s.dequeueExpected.2.expectedStreamSeqNum = s.expectedStreamSeqNum ∧
      s.dequeueExpected.2.deliveryQ = s.deliveryQ ∧
      ∀ Q, Expected s sid placed arrived Q → s.deliveryQ.find? (keyAt Q.start) = some Q.whole) := by
  rcases s.dequeueExpected_cases with ⟨hnone, heq⟩ | ⟨key, chunk, hfind, hssn, hb, he, hcase⟩
  · rw [heq]
    refine .inr ⟨rfl, rfl, fun Q hQ ↦ ?_⟩
    have hwhole := h.find_whole hQ.mem hQ.sid (hlayout.nonempty Q hQ.mem) hQ.complete
    unfold SCTPReceiveStream.find at hwhole
    cases hordered : s.orderedQ.find? (keyAt Q.start) with
    | none => rwa [hordered, Option.none_or] at hwhole
    | some v =>
      rw [hordered, Option.some_or] at hwhole
      cases hwhole
      exact absurd ⟨hQ.ssn, rfl, rfl⟩ (SCTPReceiveStream.dequeueVarBySsn_eq_none hnone hordered)
  · obtain ⟨Q, hQ, hsid, hordered, hcomplete, rfl, rfl⟩ := h.orderedQ_whole hfind hb he
    have hfree : s.deliveryQ.find? (keyAt Q.start) = none := by
      rcases h.disjoint (keyAt Q.start) with hnone | hnone
      · rw [hfind] at hnone
        cases hnone
      · exact hnone
    rcases hcase with ⟨-, heq⟩ | ⟨⟨w, hw⟩, -⟩
    · rw [heq]
      exact .inl ⟨Q, ⟨hQ, hsid, hordered, hcomplete, hssn⟩, hfree, rfl, rfl⟩
    · have hsome : s.deliveryQ.find? (keyAt Q.start) = some w := hw
      rw [hfree] at hsome
      cases hsome

end

/-- What an ordered fragment moves, after its place in `orderedQ` is settled. -/
theorem HandsOver.of_ordered (hlayout : Layout first placed) {s₀ : SCTPReceiveStream}
    (h : Queued s P.message.sid placed arrived) (hordered : P.message.ordered = true)
    (hdelivery : s.deliveryQ = s₀.deliveryQ)
    (hexpected : s.expectedStreamSeqNum = s₀.expectedStreamSeqNum) :
    HandsOver s₀ s.dequeueExpected.2 placed arrived P := by
  have hsame : ∀ Q, Expected s₀ P.message.sid placed arrived Q ↔
      Expected s P.message.sid placed arrived Q :=
    fun Q ↦ ⟨fun hQ ↦ ⟨hQ.mem, hQ.sid, hQ.ordered, hQ.complete, hQ.ssn.trans hexpected.symm⟩,
      fun hQ ↦ ⟨hQ.mem, hQ.sid, hQ.ordered, hQ.complete, hQ.ssn.trans hexpected⟩⟩
  have hmoves := h.handsOver hlayout
  simp only [← hsame, hdelivery, hexpected] at hmoves
  refine ⟨fun hnot ↦ ?_, fun _ ↦ hmoves, fun _ Q hQ honly ↦ ?_⟩
  · rw [hordered] at hnot
    cases hnot
  · rcases hmoves with ⟨R, hR, -, -, hinsert⟩ | ⟨-, hkept, hall⟩
    · rw [hinsert, honly R hR]
      exact OrderedMap.find?_insert_self
    · rw [hkept]
      exact hall Q hQ

theorem Queued.reassembled (h : Queued s sid placed arrived) (hlayout : Layout first placed) :
    Reassembled s sid placed arrived := by
  refine ⟨h, fun P hP hsid ↦ ⟨fun hd ↦ ?_, fun hc ↦ ?_⟩, fun P hP hsid hnot hc ↦ ?_⟩
  · have hfind : s.find (keyAt P.start) = some P.whole := by
      unfold SCTPReceiveStream.find
      rcases hd with hfind | hfind
      · rw [hfind]
        rfl
      · rw [(h.disjoint _).resolve_right (by simp [hfind]), hfind]
        rfl
    have hcontent := (h.content P hP hsid 0 (hlayout.nonempty P hP)).symm.trans hfind
    exact (content_of_bits hcontent rfl rfl).1
  · exact Option.or_eq_some_iff.mp (h.find_whole hP hsid (hlayout.nonempty P hP) hc) |>.imp_right (·.2)
  · have hwhole := h.find_whole hP hsid (hlayout.nonempty P hP) hc
    rcases Option.or_eq_some_iff.mp hwhole with hfind | ⟨-, hfind⟩
    · have hordered : P.message.ordered = true := h.waiting _ _ hfind
      rw [hordered] at hnot
      cases hnot
    · exact hfind

/-- While a fragment of `P` is missing, nothing of `P` is in `deliveryQ`. -/
theorem Queued.deliveryQ_eq_none (h : Queued s sid placed arrived) (hP : P ∈ placed)
    (hsid : P.message.sid = sid) (hmissing : ¬ Complete arrived P) (hi : i < P.count) :
    s.deliveryQ.find? (keyAt (P.start + i)) = none := by
  cases hfind : s.deliveryQ.find? (keyAt (P.start + i)) with
  | none => rfl
  | some v =>
    have hbits := h.delivered _ v hfind
    have hcontent := h.content P hP hsid i hi
    have hordered : s.orderedQ.find? (keyAt (P.start + i)) = none := by
      rcases h.disjoint (keyAt (P.start + i)) with hnone | hnone
      · exact hnone
      · rw [hfind] at hnone
        cases hnone
    unfold SCTPReceiveStream.find at hcontent
    rw [hordered, Option.none_or, hfind] at hcontent
    exact absurd (content_of_bits hcontent.symm hbits.1 hbits.2).1 hmissing

theorem content_insert_of_ne (hlayout : Layout first placed) (hP : P ∈ placed) {Q : Placed}
    (hQ : Q ∈ placed) (hne : Q ≠ P) (hi : i < P.count) {j : ℕ} (hj : j < Q.count) :
    content (insert (P.start + i) arrived) Q j = content arrived Q j := by
  have hmem : ∀ l < Q.count, Q.start + l ∈ insert (P.start + i) arrived ↔ Q.start + l ∈ arrived := by
    intro l hl
    refine ⟨fun hmem ↦ (Set.mem_insert_iff.mp hmem).resolve_left fun heq ↦ ?_,
      fun hmem ↦ Set.mem_insert_of_mem _ hmem⟩
    rcases hlayout.apart Q hQ P hP hne with hapart | hapart <;> omega
  have hcomplete : Complete (insert (P.start + i) arrived) Q ↔ Complete arrived Q :=
    forall₂_congr hmem
  unfold content
  by_cases hc : Complete arrived Q
  · rw [if_pos (hcomplete.mpr hc), if_pos hc]
  · rw [if_neg (mt hcomplete.mp hc), if_neg hc]
    by_cases hm : Q.start + j ∈ arrived
    · rw [if_pos ((hmem j hj).mpr hm), if_pos hm]
    · rw [if_neg (mt (hmem j hj).mp hm), if_neg hm]

/-- `orderedQ` has changed for the message whose fragment has arrived. -/
theorem Queued.update (h : Queued s sid placed arrived) (hlayout : Layout first placed)
    (hP : P ∈ placed) (hsid : P.message.sid = sid) (hi : i < P.count)
    (hnew : P.start + i ∉ arrived) (hordered : P.message.ordered = true)
    (hdelivery : s'.deliveryQ = s.deliveryQ)
    (hunordered : s'.unorderedQ = s.unorderedQ)
    (hmine : ∀ j < P.count, s'.orderedQ.find? (keyAt (P.start + j)) =
      SCTP.content (insert (P.start + i) arrived) P j)
    (hother : ∀ key, (∀ j < P.count, key ≠ keyAt (P.start + j)) →
      s'.orderedQ.find? key = s.orderedQ.find? key) :
    Queued s' sid placed (insert (P.start + i) arrived) := by
  have hmissing : ¬ Complete arrived P := fun hc ↦ hnew (hc i hi)
  have hfree : ∀ j < P.count, s'.deliveryQ.find? (keyAt (P.start + j)) = none := by
    intro j hj
    rw [hdelivery]
    exact h.deliveryQ_eq_none hP hsid hmissing hj
  have hfind : ∀ key, (∀ j < P.count, key ≠ keyAt (P.start + j)) → s'.find key = s.find key := by
    intro key hkey
    unfold SCTPReceiveStream.find
    rw [hother key hkey, hdelivery]
  refine ⟨fun Q hQ hQsid j hj ↦ ?_, fun key v hv ↦ ?_, fun key ↦ ?_, hdelivery ▸ h.delivered,
    fun key v hv ↦ ?_, hunordered.trans h.unordered⟩
  · by_cases heq : Q = P
    · subst heq
      unfold SCTPReceiveStream.find
      rw [hfree j hj, Option.or_none, hmine j hj]
    · rw [content_insert_of_ne hlayout hP hQ heq hi hj, ← h.content Q hQ hQsid j hj]
      refine hfind _ fun l hl hkey ↦ heq (hlayout.eq_of_key hQ hP hj hl hkey).1
  · by_cases hkey : ∃ j < P.count, key = keyAt (P.start + j)
    · exact ⟨P, hP, hsid, hkey⟩
    · push Not at hkey
      rw [hfind key hkey] at hv
      exact h.only key v hv
  · by_cases hkey : ∃ j < P.count, key = keyAt (P.start + j)
    · obtain ⟨j, hj, rfl⟩ := hkey
      exact .inr (hfree j hj)
    · push Not at hkey
      rw [hother key hkey, hdelivery]
      exact h.disjoint key
  · by_cases hkey : ∃ j < P.count, key = keyAt (P.start + j)
    · obtain ⟨j, hj, rfl⟩ := hkey
      rw [hmine j hj] at hv
      exact (content_ordered hv).trans hordered
    · push Not at hkey
      rw [hother key hkey] at hv
      exact h.waiting key v hv

theorem checkAndInsertVar_new {q : SCTPQueue} {key : BitVec 32} (v : SCTPDataVariables)
    (h : q.find? key.toNat = none) : q.checkAndInsertVar key v = (true, q.insert key.toNat v) := by
  unfold SCTPQueue.checkAndInsertVar SCTPQueue.getVar
  rw [h]

theorem Queued.find_new (h : Queued s sid placed arrived) (hP : P ∈ placed)
    (hsid : P.message.sid = sid) (hi : i < P.count) (hnew : P.start + i ∉ arrived) :
    s.orderedQ.find? (keyAt (P.start + i)) = none ∧
      s.deliveryQ.find? (keyAt (P.start + i)) = none := by
  have hmissing : ¬ Complete arrived P := fun hc ↦ hnew (hc i hi)
  have hcontent := h.content P hP hsid i hi
  unfold SCTP.content at hcontent
  rw [if_neg hmissing, if_neg hnew] at hcontent
  exact Option.or_eq_none_iff.mp hcontent

/-- The fragments of `P` in `orderedQ` after the `i`-th one has been inserted. -/
theorem Queued.fragments (h : Queued s sid placed arrived) (hlayout : Layout first placed)
    (hP : P ∈ placed) (hsid : P.message.sid = sid) (hi : i < P.count)
    (hnew : P.start + i ∉ arrived) [DecidablePred (P.start + · ∈ insert (P.start + i) arrived)] :
    SCTPReceiveStream.Fragments (s.orderedQ.insert (keyAt (P.start + i)) (P.fragment i)) P.start
      P.count (P.start + · ∈ insert (P.start + i) arrived) P.fragment := by
  have hmissing : ¬ Complete arrived P := fun hc ↦ hnew (hc i hi)
  refine ⟨fun j hj ↦ ?_, fun _ _ ↦ rfl, fun _ _ ↦ rfl⟩
  by_cases hji : j = i
  · subst hji
    rw [OrderedMap.find?_insert_self, if_pos (Set.mem_insert _ _)]
  · have hkey : keyAt (P.start + j) ≠ keyAt (P.start + i) :=
      fun heq ↦ hji (hlayout.eq_of_key hP hP hj hi heq).2
    have hcontent := h.content P hP hsid j hj
    unfold SCTPReceiveStream.find SCTP.content at hcontent
    rw [h.deliveryQ_eq_none hP hsid hmissing hj, Option.or_none, if_neg hmissing] at hcontent
    rw [OrderedMap.find?_insert_of_ne hkey, hcontent]
    have hmem : P.start + j ∈ insert (P.start + i) arrived ↔ P.start + j ∈ arrived := by
      simp [hji]
    by_cases hm : P.start + j ∈ arrived
    · rw [if_pos hm, if_pos (hmem.mpr hm)]
    · rw [if_neg hm, if_neg (mt hmem.mp hm)]

/-- A fragment of an ordered message: either one is still missing, or the message is merged. -/
theorem Queued.enqueueFragment (h : Queued s sid placed arrived) (hlayout : Layout first placed)
    (hP : P ∈ placed) (hsid : P.message.sid = sid) (hi : i < P.count)
    (hnew : P.start + i ∉ arrived) (hordered : P.message.ordered = true) (hcount : 1 < P.count)
    (hwrap : SCTPReceiveStream.NoWrap P.start P.count) :
    ∃ tsn s', SCTPReceiveStream.reassemble
        { s with orderedQ := s.orderedQ.insert (keyAt (P.start + i)) (P.fragment i) }
        (s.orderedQ.insert (keyAt (P.start + i)) (P.fragment i)) (P.fragment i).tsn =
          .ok (tsn, s') ∧ Queued s' sid placed (insert (P.start + i) arrived) ∧
        s'.deliveryQ = s.deliveryQ ∧ s'.expectedStreamSeqNum = s.expectedStreamSeqNum := by
  classical
  have hfragments := h.fragments hlayout hP hsid hi hnew
  have hsize : P.count ≤ 2 ^ 32 := by
    have := hlayout.low P hP
    have := hlayout.high P hP
    omega
  by_cases hall : ∀ j < P.count, P.start + j ∈ insert (P.start + i) arrived
  · obtain ⟨q, heq, hq⟩ := SCTPReceiveStream.reassemble_complete
      (s := { s with orderedQ := s.orderedQ.insert (keyAt (P.start + i)) (P.fragment i) })
      hfragments hsize hcount hwrap hi hall
      (s.orderedQ.insert (keyAt (P.start + i)) (P.fragment i))
    refine ⟨_, _, heq, h.update hlayout hP hsid hi hnew hordered rfl rfl (fun j hj ↦ ?_)
      fun key hkey ↦ ?_, rfl, rfl⟩
    · dsimp only
      have hcomplete : Complete (insert (P.start + i) arrived) P := hall
      unfold SCTP.content
      rw [hq, if_pos hcomplete, Placed.merged_fragment P (by omega)]
      by_cases hj0 : j = 0
      · rw [if_pos (by rw [hj0, Nat.add_zero]), if_pos hj0]
      · have hne : keyAt (P.start + j) ≠ keyAt P.start := fun heq ↦
          hj0 (hlayout.eq_of_key hP hP hj (show 0 < P.count by omega) heq).2
        rw [if_neg hne, if_pos ⟨j, hj, rfl⟩, if_neg hj0]
    · dsimp only
      have hfirst : key ≠ keyAt P.start := hkey 0 (by omega)
      rw [hq, if_neg hfirst, if_neg (by push Not; exact hkey),
        OrderedMap.find?_insert_of_ne (hkey i hi)]
  · have heq := SCTPReceiveStream.reassemble_incomplete
      (s := { s with orderedQ := s.orderedQ.insert (keyAt (P.start + i)) (P.fragment i) })
      hfragments hsize hi hall (s.orderedQ.insert (keyAt (P.start + i)) (P.fragment i))
    refine ⟨_, _, heq, h.update hlayout hP hsid hi hnew hordered rfl rfl (fun j hj ↦ ?_)
      fun key hkey ↦ ?_, rfl, rfl⟩
    · have hmissing : ¬ Complete (insert (P.start + i) arrived) P := hall
      unfold SCTP.content
      rw [if_neg hmissing]
      exact (hfragments.find j hj).trans (by congr)
    · exact OrderedMap.find?_insert_of_ne (hkey i hi)

/-- An unfragmented message is complete with its only chunk. -/
theorem Placed.fragment_zero_eq_whole (hcount : P.count = 1) : P.fragment 0 = P.whole := by
  obtain ⟨data, hdata⟩ : ∃ data, P.message.fragments = [data] := List.length_eq_one_iff.mp hcount
  simp [Placed.fragment, Placed.whole, hcount, hdata]

theorem content_of_single (hcount : P.count = 1) :
    content (insert (P.start + 0) arrived) P 0 = some P.whole := by
  have hcomplete : Complete (insert (P.start + 0) arrived) P := by
    intro j hj
    obtain rfl : j = 0 := by omega
    exact Set.mem_insert _ _
  unfold content
  rw [if_pos hcomplete, if_pos rfl]

theorem Queued.deliver (h : Queued s sid placed arrived) (hlayout : Layout first placed)
    (hP : P ∈ placed) (hsid : P.message.sid = sid) (hnew : P.start + 0 ∉ arrived)
    (hcount : P.count = 1) :
    Queued { s with deliveryQ := s.deliveryQ.insert (keyAt (P.start + 0)) P.whole } sid placed
      (insert (P.start + 0) arrived) := by
  obtain ⟨hordered, -⟩ := h.find_new hP hsid (show 0 < P.count by omega) hnew
  have hfind : ∀ key, key ≠ keyAt (P.start + 0) → SCTPReceiveStream.find
      { s with deliveryQ := s.deliveryQ.insert (keyAt (P.start + 0)) P.whole } key = s.find key := by
    intro key hkey
    unfold SCTPReceiveStream.find
    dsimp only
    rw [OrderedMap.find?_insert_of_ne hkey]
  refine ⟨fun Q hQ hQsid j hj ↦ ?_, fun key v hv ↦ ?_, fun key ↦ ?_, fun key v hv ↦ ?_, h.waiting,
    h.unordered⟩
  · by_cases heq : Q = P
    · subst heq
      obtain rfl : j = 0 := by omega
      unfold SCTPReceiveStream.find
      dsimp only
      rw [hordered, Option.none_or, OrderedMap.find?_insert_self, content_of_single hcount]
    · rw [content_insert_of_ne hlayout hP hQ heq (show 0 < P.count by omega) hj,
        ← h.content Q hQ hQsid j hj]
      exact hfind _ fun hkey ↦
        heq (hlayout.eq_of_key hQ hP hj (show 0 < P.count by omega) hkey).1
  · by_cases hkey : key = keyAt (P.start + 0)
    · exact ⟨P, hP, hsid, 0, by omega, hkey⟩
    · exact h.only key v ((hfind key hkey).symm.trans hv)
  · by_cases hkey : key = keyAt (P.start + 0)
    · exact .inl (hkey ▸ hordered)
    · dsimp only
      rw [OrderedMap.find?_insert_of_ne hkey]
      exact h.disjoint key
  · dsimp only at hv
    rw [OrderedMap.find?_insert] at hv
    split at hv
    · cases hv
      exact ⟨rfl, rfl⟩
    · exact h.delivered key v hv

theorem Queued.enqueueOrdered (h : Queued s P.message.sid placed arrived)
    (hlayout : Layout first placed) (hP : P ∈ placed) (hi : i < P.count)
    (hnew : P.start + i ∉ arrived) (hordered : P.message.ordered = true)
    (hwrap : P.count = 1 ∨ SCTPReceiveStream.NoWrap P.start P.count) :
    Outcome (s.enqueueOrdered (P.fragment i))
      (fun r ↦ Queued r.2 P.message.sid placed (insert (P.start + i) arrived) ∧
        HandsOver s r.2 placed (insert (P.start + i) arrived) P) (fun _ ↦ False) := by
  have hinsert : s.orderedQ.checkAndInsertVar (P.fragment i).tsn (P.fragment i) =
      (true, s.orderedQ.insert (keyAt (P.start + i)) (P.fragment i)) :=
    checkAndInsertVar_new _ (h.find_new hP rfl hi hnew).1
  unfold SCTPReceiveStream.enqueueOrdered
  rw [hinsert]
  dsimp only
  by_cases hcount : P.count = 1
  · obtain rfl : i = 0 := by omega
    have hwhole := P.fragment_zero_eq_whole hcount
    rw [if_neg (by rw [hwhole]; simp [Placed.whole])]
    have hqueued : Queued { s with orderedQ := s.orderedQ.insert (keyAt (P.start + 0)) (P.fragment 0) }
        P.message.sid placed (insert (P.start + 0) arrived) := by
      refine h.update hlayout hP rfl hi hnew hordered rfl rfl (fun j hj ↦ ?_)
        fun key hkey ↦ OrderedMap.find?_insert_of_ne (hkey 0 hi)
      obtain rfl : j = 0 := by omega
      rw [content_of_single hcount, ← hwhole]
      exact OrderedMap.find?_insert_self
    exact ⟨hqueued.dequeueExpected, .of_ordered hlayout hqueued hordered rfl rfl⟩
  · have hbits : (!(P.fragment i).bbit || !(P.fragment i).ebit) = true := by
      simp only [Placed.fragment, Bool.or_eq_true, Bool.not_eq_true', decide_eq_false_iff_not]
      omega
    obtain ⟨tsn, s', heq, hqueued, hdelivery, hexpected⟩ := h.enqueueFragment hlayout hP rfl hi hnew
      hordered (by omega) (hwrap.resolve_left hcount)
    rw [if_pos hbits, heq]
    exact ⟨hqueued.dequeueExpected, .of_ordered hlayout hqueued hordered hdelivery hexpected⟩

theorem Queued.enqueueNewDataChunk (h : Queued s P.message.sid placed arrived)
    (hlayout : Layout first placed) (hP : P ∈ placed) (hi : i < P.count)
    (hnew : P.start + i ∉ arrived) (hok : P.Reassemblable) :
    Outcome (s.enqueueNewDataChunk (P.fragment i))
      (fun r ↦ Queued r.2 P.message.sid placed (insert (P.start + i) arrived) ∧
        HandsOver s r.2 placed (insert (P.start + i) arrived) P) (fun _ ↦ False) := by
  unfold SCTPReceiveStream.enqueueNewDataChunk
  refine Outcome.ite (fun hunordered ↦ ?_) fun hordered ↦ ?_
  · have hcount : P.count = 1 := by
      refine hok.resolve_right fun hor ↦ ?_
      have : (P.fragment i).ordered = true := hor.1
      simp [this] at hunordered
    obtain rfl : i = 0 := by omega
    have hwhole := P.fragment_zero_eq_whole hcount
    have hinsert : s.deliveryQ.checkAndInsertVar (P.fragment 0).tsn (P.fragment 0) =
        (true, s.deliveryQ.insert (keyAt (P.start + 0)) (P.fragment 0)) :=
      checkAndInsertVar_new _ (h.find_new hP rfl hi hnew).2
    rw [if_pos (by rw [hwhole]; rfl), hinsert]
    dsimp only
    rw [hwhole]
    refine ⟨h.deliver hlayout hP rfl hnew hcount, fun _ ↦ ⟨rfl, rfl⟩, fun ho ↦ ?_, fun ho ↦ ?_⟩
    · exact absurd ho (by simpa [Placed.fragment] using hunordered)
    · exact absurd ho (by simpa [Placed.fragment] using hunordered)
  · exact h.enqueueOrdered hlayout hP hi hnew (by simpa [Placed.fragment] using hordered)
      (hok.imp_right fun hor ↦ hor.2)

end Queued

/-! ## Runs -/

/-- The chunk goes to the stream it belongs to. -/
def enqueueChunk (streams : ℕ → SCTPReceiveStream) (a : Placed × ℕ) :
    Except Fault (ℕ → SCTPReceiveStream) := do
  let (_, s) ← (streams a.1.message.sid).enqueueNewDataChunk (a.1.fragment a.2)
  return Function.update streams a.1.message.sid s

/-- The positions of the fragments that have arrived. -/
def positions (order : List (Placed × ℕ)) : Set ℕ := {p | ∃ a ∈ order, p = a.1.start + a.2}

theorem queued_empty (sid : ℕ) (placed : List Placed) (hne : ∀ P ∈ placed, 0 < P.count) :
    Queued {} sid placed (positions []) := by
  refine ⟨fun P hP _ i hi ↦ ?_, fun key v hv ↦ ?_, fun _ ↦ .inl rfl, fun key v hv ↦ ?_,
    fun key v hv ↦ ?_, rfl⟩
  · have hmissing : ¬ Complete (positions []) P := by
      intro hc
      obtain ⟨a, ha, -⟩ := hc 0 (hne P hP)
      cases ha
    have hnot : P.start + i ∉ positions [] := by
      rintro ⟨a, ha, -⟩
      cases ha
    unfold content
    rw [if_neg hmissing, if_neg hnot]
    rfl
  · cases hv
  · cases hv
  · cases hv

theorem enqueueChunk_queued {streams : ℕ → SCTPReceiveStream} {first : ℕ} {placed : List Placed}
    {arrived : Set ℕ} (h : ∀ sid, Queued (streams sid) sid placed arrived)
    (hlayout : Layout first placed) {P : Placed} {i : ℕ} (hP : P ∈ placed) (hi : i < P.count)
    (hnew : P.start + i ∉ arrived) (hok : P.Reassemblable) :
    Outcome (enqueueChunk streams (P, i))
      (fun streams' ↦ (∀ sid, Queued (streams' sid) sid placed (insert (P.start + i) arrived)) ∧
        HandsOver (streams P.message.sid) (streams' P.message.sid) placed
          (insert (P.start + i) arrived) P)
      (fun _ ↦ False) := by
  refine ((h P.message.sid).enqueueNewDataChunk hlayout hP hi hnew hok).bind fun r hr ↦ ?_
  refine ⟨fun sid ↦ ?_, ?_⟩
  case refine_2 =>
    show HandsOver _ (Function.update streams P.message.sid r.2 P.message.sid) _ _ _
    rw [Function.update_self]
    exact hr.2
  show Queued (Function.update streams P.message.sid r.2 sid) sid placed _
  by_cases hsid : sid = P.message.sid
  · subst hsid
    rw [Function.update_self]
    exact hr.1
  · rw [Function.update_of_ne hsid]
    have hold := h sid
    -- the other streams hold nothing of this message
    refine ⟨fun Q hQ hQsid j hj ↦ ?_, hold.only, hold.disjoint, hold.delivered, hold.waiting,
      hold.unordered⟩
    have hne : Q ≠ P := by
      rintro rfl
      exact hsid hQsid.symm
    rw [content_insert_of_ne hlayout hP hQ hne hi hj]
    exact hold.content Q hQ hQsid j hj

theorem insert_positions (before : List (Placed × ℕ)) (P : Placed) (i : ℕ) :
    insert (P.start + i) (positions before) = positions (before ++ [(P, i)]) := by
  ext p
  simp [positions, or_comm]

theorem run_enqueueChunk {streams : ℕ → SCTPReceiveStream} {first : ℕ} {placed : List Placed}
    (before order : List (Placed × ℕ))
    (h : ∀ sid, Queued (streams sid) sid placed (positions before)) (hlayout : Layout first placed)
    (horder : ∀ a ∈ order, a.1 ∈ placed ∧ a.2 < a.1.count ∧ a.1.Reassemblable)
    (hnodup : (before ++ order).Pairwise fun a b ↦ a.1.start + a.2 ≠ b.1.start + b.2) :
    Outcome (run enqueueChunk streams order)
      (fun streams' ↦ ∀ sid, Queued (streams' sid) sid placed (positions (before ++ order)))
      (fun _ ↦ False) := by
  induction order generalizing streams before with
  | nil =>
    rw [List.append_nil]
    exact h
  | cons a order ih =>
    obtain ⟨P, i⟩ := a
    obtain ⟨hP, hi, hok⟩ := horder (P, i) (by simp)
    have hnew : P.start + i ∉ positions before := by
      rintro ⟨b, hb, heq⟩
      exact (List.pairwise_append.mp hnodup).2.2 b hb (P, i) (by simp) heq.symm
    have hsplit : before ++ (P, i) :: order = (before ++ [(P, i)]) ++ order := by simp
    rw [run_cons]
    refine (enqueueChunk_queued h hlayout hP hi hnew hok).bind fun streams' h' ↦ ?_
    rw [insert_positions] at h'
    rw [hsplit] at hnodup ⊢
    exact ih _ h'.1 (fun b hb ↦ horder b (by simp [hb])) hnodup

/-- Fragments of messages with consecutive TSNs, in any order and each once. After the run every
stream holds the fragments of the incomplete messages, and each complete message as one chunk with
its whole payload, and at every arrival the messages whose turn it is go to `deliveryQ`. -/
theorem messages_reassembled (start : ℕ) (ms : List UserMessage)
    (hne : ∀ m ∈ ms, m.fragments ≠ [])
    (htotal : (ms.map (·.fragments.length)).sum ≤ 2 ^ 32)
    (hok : ∀ P ∈ placeFrom start ms, P.Reassemblable) (order : List (Placed × ℕ))
    (horder : ∀ a ∈ order, a.1 ∈ placeFrom start ms ∧ a.2 < a.1.count)
    (honce : order.Pairwise fun a b ↦ a.1.start + a.2 ≠ b.1.start + b.2) :
    Outcome (run enqueueChunk (fun _ ↦ {}) order)
      (fun streams ↦ ∀ sid, Reassembled (streams sid) sid (placeFrom start ms) (positions order))
      (fun _ ↦ False) ∧
    ∀ before a after, order = before ++ a :: after →
      Outcome (run enqueueChunk (fun _ ↦ {}) before)
        (fun streams ↦ Outcome (enqueueChunk streams a)
          (fun streams' ↦ HandsOver (streams a.1.message.sid) (streams' a.1.message.sid)
            (placeFrom start ms) (positions (before ++ [a])) a.1)
          (fun _ ↦ False))
        (fun _ ↦ False) := by
  have hlayout : Layout start (placeFrom start ms) := layout_placeFrom hne htotal
  have hempty : ∀ sid, Queued {} sid (placeFrom start ms) (positions []) :=
    fun sid ↦ queued_empty sid _ hlayout.nonempty
  have hall : ∀ a ∈ order, a.1 ∈ placeFrom start ms ∧ a.2 < a.1.count ∧ a.1.Reassemblable :=
    fun a ha ↦ ⟨(horder a ha).1, (horder a ha).2, hok _ (horder a ha).1⟩
  refine ⟨?_, fun before a after hsplit ↦ ?_⟩
  · exact (run_enqueueChunk [] order hempty hlayout hall honce).post
      fun streams h sid ↦ (h sid).reassembled hlayout
  · subst hsplit
    obtain ⟨P, i⟩ := a
    obtain ⟨hP, hi, hPok⟩ := hall (P, i) (by simp)
    have hnew : P.start + i ∉ positions before := by
      rintro ⟨b, hb, heq⟩
      exact (List.pairwise_append.mp honce).2.2 b hb (P, i) (by simp) heq.symm
    have hbefore := run_enqueueChunk [] before hempty hlayout
      (fun b hb ↦ hall b (List.mem_append_left _ hb)) (List.pairwise_append.mp honce).1
    refine hbefore.post fun streams h ↦ ?_
    refine (enqueueChunk_queued h hlayout hP hi hnew hPok).post fun streams' h' ↦ ?_
    rw [← insert_positions]
    exact h'.2

/-- An ordered message in three fragments on stream 0, and an unordered one on stream 1. -/
def twoMessages : List UserMessage :=
  [⟨0, 0, true, [[1], [2, 3], [4]]⟩, ⟨1, 0, false, [[5]]⟩]

theorem messages_reassembled_on_twoMessages :
    ∃ streams, run enqueueChunk (fun _ ↦ {}) ((placeFrom 10 twoMessages).flatMap fun P ↦
        ((List.range P.count).map (P, ·)).reverse) = .ok streams ∧
      (streams 0).deliveryQ.getVar 10 = some (Placed.mk 10 ⟨0, 0, true, [[1], [2, 3], [4]]⟩).whole ∧
      ∀ sid, Reassembled (streams sid) sid (placeFrom 10 twoMessages)
        (positions ((placeFrom 10 twoMessages).flatMap fun P ↦
          ((List.range P.count).map (P, ·)).reverse)) := by
  have hrun := messages_reassembled 10 twoMessages (by decide) (by decide) (by decide)
    ((placeFrom 10 twoMessages).flatMap fun P ↦ ((List.range P.count).map (P, ·)).reverse)
    (by decide) (by decide)
  exact ⟨_, rfl, by decide, hrun.1.of_eq_ok rfl⟩

/-- An unordered message in two fragments, and an ordered one across the largest TSN. -/
def lostMessages : List Placed :=
  [⟨5, ⟨0, 0, false, [[1], [2]]⟩⟩, ⟨2 ^ 32 - 2, ⟨1, 0, true, [[1], [2], [3]]⟩⟩]

/-- Of both messages only the first byte can be fetched although all fragments have arrived. -/
theorem fragments_lost :
    ∃ streams, run enqueueChunk (fun _ ↦ {}) (lostMessages.flatMap fun P ↦
        (List.range P.count).map (P, ·)) = .ok streams ∧
      ((streams 0).deliveryQ.getVar 5).map (·.userData) = some [1] ∧
      ((streams 0).unorderedQ.getVar 6).map (·.userData) = some [2] ∧
      ((streams 1).deliveryQ.getVar (BitVec.ofNat 32 (2 ^ 32 - 2))).map (·.userData) = some [1] ∧
      ((streams 1).orderedQ.getVar 0).map (·.userData) = some [3] := by
  exact ⟨_, rfl, by decide, by decide, by decide, by decide⟩

end InetManet.SCTP
