import InetManet.TCP.MessageQueues
import InetManet.TCP.ReceiveSpace

/-!
# Delivery of messages

As long as no sequence number passes `2 ^ 32` the application gets the messages below `rcv_nxt`, each
once and in order. Past it the map hands out the messages behind the wrap first.
-/

namespace InetManet.TCP

open TransitionSystem SerialNumber RegionList

variable {α : Type}

/-- The messages with the positions behind their last bytes. -/
def positions : ℕ → List (ℕ × α) → List (ℕ × α)
  | _, [] => []
  | s, (len, msg) :: msgs => (s + len, msg) :: positions (s + len) msgs

def totalLength (msgs : List (ℕ × α)) : ℕ := (msgs.map Prod.fst).sum

def wire (x : ℕ × α) : Seq × α := (BitVec.ofNat 32 x.1, x.2)

section Positions

variable {s : ℕ} {msgs : List (ℕ × α)}

theorem lt_of_mem_positions (hpos : ∀ x ∈ msgs, 0 < x.1) {x : ℕ × α} (hx : x ∈ positions s msgs) :
    s < x.1 ∧ x.1 ≤ s + totalLength msgs := by
  induction msgs generalizing s with
  | nil => cases hx
  | cons msg msgs ih =>
    have hlen := hpos msg List.mem_cons_self
    unfold positions at hx
    unfold totalLength
    rw [List.map_cons, List.sum_cons]
    rcases List.mem_cons.mp hx with rfl | hx
    · dsimp only
      omega
    · have hrest := ih (fun x hx ↦ hpos x (List.mem_cons_of_mem msg hx)) hx
      unfold totalLength at hrest
      omega

theorem sorted_positions (hpos : ∀ x ∈ msgs, 0 < x.1) :
    (positions s msgs).Pairwise fun x y ↦ x.1 < y.1 := by
  induction msgs generalizing s with
  | nil => exact List.Pairwise.nil
  | cons msg msgs ih =>
    have hrest : ∀ x ∈ msgs, 0 < x.1 := fun x hx ↦ hpos x (List.mem_cons_of_mem msg hx)
    unfold positions
    rw [List.pairwise_cons]
    refine ⟨fun x hx ↦ ?_, ih hrest⟩
    exact (lt_of_mem_positions hrest hx).1

/-- The send queue after the messages have been put into it. -/
theorem foldl_enqueueAppData (q : TCPMsgBasedSendQueue α) (hq : q.endSeq = BitVec.ofNat 32 s) :
    msgs.foldl TCPMsgBasedSendQueue.enqueueAppData q =
      ⟨q.beginSeq, BitVec.ofNat 32 (s + totalLength msgs),
        q.payloadQueue ++ (positions s msgs).map wire⟩ := by
  induction msgs generalizing q s with
  | nil =>
    have htotal : s + totalLength ([] : List (ℕ × α)) = s := rfl
    rw [List.foldl_nil, positions, List.map_nil, List.append_nil, htotal, ← hq]
  | cons msg msgs ih =>
    rw [List.foldl_cons, ih (s := s + msg.1)]
    · unfold TCPMsgBasedSendQueue.enqueueAppData totalLength
      rw [List.map_cons, List.sum_cons, Nat.add_assoc]
      dsimp only
      rw [hq, ← BitVec.ofNat_add, List.append_assoc]
      rfl
    · unfold TCPMsgBasedSendQueue.enqueueAppData
      dsimp only
      rw [hq, ← BitVec.ofNat_add]

theorem takeWhile_eq_filter {l : List (ℕ × α)} (hl : l.Pairwise fun x y ↦ x.1 < y.1) {t : ℕ}
    {f : ℕ × α → Bool} (hf : ∀ x ∈ l, f x = decide (x.1 ≤ t)) :
    l.takeWhile f = l.filter fun x ↦ decide (x.1 ≤ t) := by
  induction l with
  | nil => rfl
  | cons x l ih =>
    rw [List.pairwise_cons] at hl
    have hx := hf x List.mem_cons_self
    by_cases hle : x.1 ≤ t
    · rw [List.takeWhile_cons_of_pos (by simpa [hx] using hle),
        List.filter_cons_of_pos (by simpa using hle),
        ih hl.2 fun y hy ↦ hf y (List.mem_cons_of_mem x hy)]
    · rw [List.takeWhile_cons_of_neg (by simpa [hx] using hle), eq_comm, List.filter_eq_nil_iff]
      intro y hy
      have hlt : t < y.1 := by
        rcases List.mem_cons.mp hy with rfl | hy
        · exact not_le.mp hle
        · exact (not_le.mp hle).trans (hl.1 y hy)
      simpa using hlt

theorem dropWhile_eq_filter {l : List (ℕ × α)} (hl : l.Pairwise fun x y ↦ x.1 < y.1) {t : ℕ}
    {f : ℕ × α → Bool} (hf : ∀ x ∈ l, f x = decide (x.1 ≤ t)) :
    l.dropWhile f = l.filter fun x ↦ decide (t < x.1) := by
  induction l with
  | nil => rfl
  | cons x l ih =>
    rw [List.pairwise_cons] at hl
    have hx := hf x List.mem_cons_self
    by_cases hle : x.1 ≤ t
    · rw [List.dropWhile_cons_of_pos (by simpa [hx] using hle),
        List.filter_cons_of_neg (by simpa using hle),
        ih hl.2 fun y hy ↦ hf y (List.mem_cons_of_mem x hy)]
    · rw [List.dropWhile_cons_of_neg (by simpa [hx] using hle), eq_comm, List.filter_eq_self]
      intro y hy
      have hlt : t < y.1 := by
        rcases List.mem_cons.mp hy with rfl | hy
        · exact not_le.mp hle
        · exact (not_le.mp hle).trans (hl.1 y hy)
      simpa using hlt

/-- What is below a position, and then up to the next one. -/
theorem filter_append_filter {l : List (ℕ × α)} (hl : l.Pairwise fun x y ↦ x.1 < y.1) {r r' : ℕ}
    (hr : r ≤ r') : (l.filter fun x ↦ decide (x.1 ≤ r)) ++
      (l.filter fun x ↦ decide (r < x.1 ∧ x.1 ≤ r')) = l.filter fun x ↦ decide (x.1 ≤ r') := by
  induction l with
  | nil => rfl
  | cons x l ih =>
    rw [List.pairwise_cons] at hl
    by_cases hx : x.1 ≤ r
    · rw [List.filter_cons_of_pos (by simpa using hx), List.filter_cons_of_neg (by simp [hx]),
        List.filter_cons_of_pos (by simpa using hx.trans hr), List.cons_append, ih hl.2]
    · -- nothing below `r` comes any more
      have hnone : (l.filter fun x ↦ decide (x.1 ≤ r)) = [] := by
        rw [List.filter_eq_nil_iff]
        intro y hy
        have hlt := hl.1 y hy
        simp
        omega
      have hrest := ih hl.2
      rw [hnone, List.nil_append] at hrest
      rw [List.filter_cons_of_neg (by simpa using hx), hnone, List.nil_append]
      by_cases hx' : x.1 ≤ r'
      · rw [List.filter_cons_of_pos (by simp [hx', not_le.mp hx]),
          List.filter_cons_of_pos (by simpa using hx'), hrest]
      · rw [List.filter_cons_of_neg (by simp [hx']), List.filter_cons_of_neg (by simpa using hx'),
          hrest]

end Positions

/-! ## Segments -/

section Segments

variable {s top : ℕ} {ms : List (ℕ × α)} {q : TCPMsgBasedSendQueue α}

theorem createSegmentWithBytes_eq (hms : ms.Pairwise fun x y ↦ x.1 < y.1)
    (hbound : ∀ x ∈ ms, s < x.1 ∧ x.1 ≤ top) (hroom : top < s + 2 ^ 31) (asserts : Bool)
    {p len : ℕ} (hp : s ≤ p) (hlen : p + len ≤ top) :
    (⟨BitVec.ofNat 32 s, BitVec.ofNat 32 top, ms.map wire⟩ :
        TCPMsgBasedSendQueue α).createSegmentWithBytes asserts (BitVec.ofNat 32 p) len =
      .ok ({ sequenceNo := BitVec.ofNat 32 p, payloadLength := len },
        (ms.filter fun x ↦ decide (p < x.1 ∧ x.1 ≤ p + len)).map wire) := by
  unfold TCPMsgBasedSendQueue.createSegmentWithBytes
  dsimp only
  rw [← BitVec.ofNat_add, seqLE_ofNat (a := s) (b := p) (by omega) (by omega),
    seqLE_ofNat (a := p + len) (b := top) (by omega) (by omega), decide_eq_true hp,
    decide_eq_true hlen, Bool.and_self, check_true, ok_bind, List.dropWhile_map,
    List.takeWhile_map]
  have hfrom : ∀ x ∈ ms, ((fun x ↦ seqLE x.1 (BitVec.ofNat 32 p)) ∘ wire) x =
      decide (x.1 ≤ p) := by
    intro x hx
    have hx' := hbound x hx
    exact seqLE_ofNat (by omega) (by omega)
  have hto : ∀ x ∈ ms.filter fun x ↦ decide (p < x.1),
      ((fun x ↦ seqLE x.1 (BitVec.ofNat 32 (p + len))) ∘ wire) x = decide (x.1 ≤ p + len) := by
    intro x hx
    have hx' := hbound x (List.mem_filter.mp hx).1
    exact seqLE_ofNat (by omega) (by omega)
  rw [dropWhile_eq_filter hms hfrom, takeWhile_eq_filter (hms.filter _) hto, List.filter_filter]
  congr 4
  funext x
  simp [and_comm]

end Segments

/-! ## The map -/

/-- The map holds the messages with a property. -/
def Holding (m : OrderedMap Seq α) (ms : List (ℕ × α)) (P : ℕ × α → Prop) : Prop :=
  ∀ e, e ∈ m.entries ↔ ∃ x ∈ ms, P x ∧ e = wire x

section Map

variable {m : OrderedMap Seq α} {ms : List (ℕ × α)} {P : ℕ × α → Prop}

section

variable (hms : ms.Pairwise fun x y ↦ x.1 < y.1)

include hms

theorem wire_injective (hbound : ∀ x ∈ ms, x.1 < 2 ^ 32)
    {x y : ℕ × α} (hx : x ∈ ms) (hy : y ∈ ms) (h : (wire x).1 = (wire y).1) : x = y := by
  have hx' := hbound x hx
  have hy' := hbound y hy
  have hpos : x.1 = y.1 := (ofNat_inj (by omega) (by omega)).mp h
  have hnodup : (ms.map Prod.fst).Nodup := List.pairwise_map.mpr (hms.imp fun hlt ↦ hlt.ne)
  exact List.inj_on_of_nodup_map hnodup hx hy hpos

theorem Holding.insertPayload
    (hbound : ∀ x ∈ ms, x.1 < 2 ^ 32) (h : Holding m ms P) {x : ℕ × α} (hx : x ∈ ms) :
    Holding (TCPMsgBasedRcvQueue.insertPayload m (wire x)) ms fun y ↦ P y ∨ y = x := by
  unfold TCPMsgBasedRcvQueue.insertPayload
  intro e
  cases hfind : m.find? (wire x).1 with
  | some v =>
    have hmem := OrderedMap.find?_eq_some_iff.mp hfind
    obtain ⟨y, hy, hPy, heq⟩ := (h _).mp hmem
    have hkey : (wire x).1 = (wire y).1 := by rw [← heq]
    have hyx : x = y := wire_injective hms hbound hx hy hkey
    dsimp only
    rw [h e]
    constructor
    · rintro ⟨z, hz, hPz, he⟩
      exact ⟨z, hz, .inl hPz, he⟩
    · rintro ⟨z, hz, hPz | rfl, he⟩
      · exact ⟨z, hz, hPz, he⟩
      · exact ⟨z, hz, hyx ▸ hPy, he⟩
  | none =>
    dsimp only
    rw [OrderedMap.mem_insert, h e]
    constructor
    · rintro (rfl | ⟨⟨z, hz, hPz, he⟩, _⟩)
      · exact ⟨x, hx, .inr rfl, rfl⟩
      · exact ⟨z, hz, .inl hPz, he⟩
    · rintro ⟨z, hz, hPz | rfl, he⟩
      · refine .inr ⟨⟨z, hz, hPz, he⟩, fun hkey ↦ ?_⟩
        have hmem := (h e).mpr ⟨z, hz, hPz, he⟩
        apply OrderedMap.find?_eq_none_iff.mp hfind e.2
        rw [← hkey]
        exact hmem
      · exact .inl he

theorem Holding.foldl_insertPayload
    (hbound : ∀ x ∈ ms, x.1 < 2 ^ 32) {l : List (ℕ × α)} (hl : ∀ x ∈ l, x ∈ ms) (h : Holding m ms P) :
    Holding ((l.map wire).foldl TCPMsgBasedRcvQueue.insertPayload m) ms fun y ↦ P y ∨ y ∈ l := by
  induction l generalizing m P with
  | nil =>
    intro e
    rw [List.map_nil, List.foldl_nil, h e]
    simp
  | cons x l ih =>
    intro e
    rw [List.map_cons, List.foldl_cons, ih (fun y hy ↦ hl y (List.mem_cons_of_mem x hy))
      (h.insertPayload hms hbound (hl x List.mem_cons_self)) e]
    simp only [List.mem_cons, or_assoc]

theorem Holding.entries_eq [DecidablePred P] (hbound : ∀ x ∈ ms, x.1 < 2 ^ 32) (h : Holding m ms P) :
    m.entries = (ms.filter fun x ↦ decide (P x)).map wire := by
  have hsorted : ((ms.filter fun x ↦ decide (P x)).map wire).Pairwise fun a b ↦ a.1 < b.1 := by
    rw [List.pairwise_map]
    apply (hms.filter _).imp_of_mem
    intro x y hx hy hxy
    have hx' := hbound x (List.mem_filter.mp hx).1
    have hy' := hbound y (List.mem_filter.mp hy).1
    change (BitVec.ofNat 32 x.1).toNat < (BitVec.ofNat 32 y.1).toNat
    rw [BitVec.toNat_ofNat, BitVec.toNat_ofNat, Nat.mod_eq_of_lt hx', Nat.mod_eq_of_lt hy']
    exact hxy
  let m' : OrderedMap Seq α := ⟨_, hsorted⟩
  have heq : m = m' := by
    apply OrderedMap.ext_find?
    intro k
    apply Option.ext
    intro v
    rw [OrderedMap.find?_eq_some_iff, OrderedMap.find?_eq_some_iff, h (k, v)]
    simp [m', eq_comm, and_assoc]
  rw [heq]

end

theorem erase_first {e : Seq × α} {es : List (Seq × α)} (h : m.entries = e :: es) :
    (m.erase e.1).entries = es := by
  have hsorted := m.sorted
  rw [h, List.pairwise_cons] at hsorted
  unfold OrderedMap.erase
  dsimp only
  rw [h, List.filter_cons_of_neg (by simp), List.filter_eq_self]
  intro x hx
  simpa using (hsorted.1 x hx).ne'

end Map

/-! ## Extraction -/

section Extraction

variable {r top : ℕ} {rest : List (Region ℕ)} {asserts : Bool} {q : TCPVirtualDataRcvQueue}
  {m : OrderedMap Seq α}

theorem outcome_extractLoop (hrest : Holds (queueAt r rest) r rest top) (hroom : top < r + 2 ^ 31)
    (l : List (ℕ × α)) (hl : ∀ x ∈ l, r ≤ x.1 + 2 ^ 31 ∧ x.1 < r + 2 ^ 31)
    (hq : Outcome (q.extractTo asserts (BitVec.ofNat 32 r)) (fun x ↦ x.2 = queueAt r rest)
      (WrapAssertion asserts top)) (hm : m.entries = l.map wire) {rounds : ℕ}
    (hrounds : l.length < rounds) :
    Outcome (TCPMsgBasedRcvQueue.extractLoop asserts (BitVec.ofNat 32 r) rounds ⟨q, m⟩)
      (fun x ↦ x.1 = (l.takeWhile fun x ↦ decide (x.1 ≤ r)).map Prod.snd ∧
        x.2.queue = queueAt r rest ∧
        x.2.payloadList.entries = (l.dropWhile fun x ↦ decide (x.1 ≤ r)).map wire)
      (WrapAssertion asserts top) := by
  induction l generalizing q m rounds with
  | nil =>
    obtain ⟨rounds, rfl⟩ := Nat.exists_eq_add_of_lt hrounds
    unfold TCPMsgBasedRcvQueue.extractLoop TCPMsgBasedRcvQueue.extractBytesUpTo
    dsimp only
    rw [hm]
    apply Outcome.bind (Q := fun x ↦ x = (none, ⟨queueAt r rest, m⟩))
    · apply hq.bind
      intro x hx
      rw [hx]
      rfl
    · rintro x rfl
      exact ⟨rfl, rfl, hm⟩
  | cons x l ih =>
    obtain ⟨rounds, rfl⟩ : ∃ k, rounds = k + 1 := ⟨rounds - 1, by omega⟩
    have hx := hl x List.mem_cons_self
    unfold TCPMsgBasedRcvQueue.extractLoop TCPMsgBasedRcvQueue.extractBytesUpTo
    dsimp only
    rw [hm, List.map_cons]
    dsimp only
    have hgreater : seqGreater (wire x).1 (BitVec.ofNat 32 r) = decide (r < x.1) :=
      seqGreater_ofNat hx.1 hx.2
    rw [hgreater]
    by_cases hle : x.1 ≤ r
    · rw [List.takeWhile_cons_of_pos (by simpa using hle),
        List.dropWhile_cons_of_pos (by simpa using hle)]
      apply Outcome.bind (Q := fun y ↦ y = (some x.2, ⟨queueAt r rest, m.erase (wire x).1⟩))
      · apply hq.bind
        intro y hy
        rw [hy, if_neg (by simpa using hle)]
        rfl
      · rintro y rfl
        have hnext := (hrest.extractTo hroom asserts).post fun y hy ↦ congrArg Prod.snd hy
        have herase := erase_first (hm.trans List.map_cons)
        apply (ih (fun y hy ↦ hl y (List.mem_cons_of_mem x hy)) hnext herase
          (Nat.lt_of_succ_lt_succ hrounds)).bind
        intro z hz
        exact ⟨congrArg (x.2 :: ·) hz.1, hz.2⟩
    · rw [List.takeWhile_cons_of_neg (by simpa using hle),
        List.dropWhile_cons_of_neg (by simpa using hle)]
      apply Outcome.bind (Q := fun y ↦ y = (none, ⟨queueAt r rest, m⟩))
      · apply hq.bind
        intro y hy
        rw [hy, if_pos (by simpa using hle)]
        rfl
      · rintro y rfl
        exact ⟨rfl, rfl, hm⟩

end Extraction

/-! ## Runs -/

/-- The application has got the messages in front of `r`, and the map has those that end in the
regions behind it. -/
structure Transferred (s top : ℕ) (ms : List (ℕ × α)) (t : MessageReceiver α) (r : ℕ)
    (regions : List (Region ℕ)) : Prop where
  nxt : t.rcvNxt = BitVec.ofNat 32 r
  lower : s ≤ r
  upper : r ≤ top
  holds : Holds t.receiveQueue.queue r regions top
  payload : Holding t.receiveQueue.payloadList ms fun x ↦
    r < x.1 ∧ Arrived r regions (x.1 - 1)
  delivered : t.delivered = (ms.filter fun x ↦ decide (x.1 ≤ r)).map Prod.snd

section Runs

variable {s top r p : ℕ} {ms : List (ℕ × α)} {t : MessageReceiver α}
  {regions : List (Region ℕ)} {asserts : Bool} {seg : TCPSegment}

variable (h : Transferred s top ms t r regions)

include h

theorem Transferred.insert
    (hms : ms.Pairwise fun x y ↦ x.1 < y.1) (hbound : ∀ x ∈ ms, s < x.1 ∧ x.1 ≤ top)
    (hwrap : top < 2 ^ 32) {len r' : ℕ} {regions' : List (Region ℕ)} (hp : r ≤ p)
    (harrived : ∀ x, Arrived r' regions' x ↔ Arrived r regions x ∨ (p ≤ x ∧ x < p + len)) :
    Holding (((ms.filter fun x ↦ decide (p < x.1 ∧ x.1 ≤ p + len)).map wire).foldl
      TCPMsgBasedRcvQueue.insertPayload t.receiveQueue.payloadList) ms
      fun x ↦ r < x.1 ∧ Arrived r' regions' (x.1 - 1) := by
  have hsmall : ∀ x ∈ ms, x.1 < 2 ^ 32 := fun x hx ↦ (hbound x hx).2.trans_lt hwrap
  have hinserted := h.payload.foldl_insertPayload hms hsmall
    (l := ms.filter fun x ↦ decide (p < x.1 ∧ x.1 ≤ p + len)) fun x hx ↦ (List.mem_filter.mp hx).1
  intro e
  rw [hinserted e]
  apply exists_congr
  intro x
  apply and_congr_right
  intro hx
  have hpos := (hbound x hx).1
  have hiff : (p ≤ x.1 - 1 ∧ x.1 - 1 < p + len) ↔ (p < x.1 ∧ x.1 ≤ p + len) := by omega
  dsimp only
  rw [harrived, hiff, List.mem_filter, decide_eq_true_iff]
  constructor
  · rintro ⟨hP | hP, he⟩
    · exact ⟨⟨hP.1, .inl hP.2⟩, he⟩
    · exact ⟨⟨by omega, .inr hP.2⟩, he⟩
  · rintro ⟨⟨hr, hP | hP⟩, he⟩
    · exact ⟨.inl ⟨hr, hP⟩, he⟩
    · exact ⟨.inr ⟨hx, hP⟩, he⟩

theorem Transferred.processSegmentText
    (hms : ms.Pairwise fun x y ↦ x.1 < y.1) (hbound : ∀ x ∈ ms, s < x.1 ∧ x.1 ≤ top)
    (hroom : top < s + 2 ^ 31) (hwrap : top < 2 ^ 32)
    (hseq : seg.sequenceNo = BitVec.ofNat 32 p) (hp : r ≤ p) (hlen : 0 < seg.payloadLength)
    (htop : p + seg.payloadLength ≤ top) :
    Outcome (t.processSegmentText asserts seg
        ((ms.filter fun x ↦ decide (p < x.1 ∧ x.1 ≤ p + seg.payloadLength)).map wire))
      (fun t' ↦ ∃ r' regions', Transferred s top ms t' r' regions') fun _ ↦ False := by
  have hlower := h.lower
  unfold MessageReceiver.processSegmentText TCPMsgBasedRcvQueue.insertBytesFromSegment
  dsimp only
  rcases hp.lt_or_eq with hlt | rfl
  · have hbehind := h.holds.insert_behind hseq hlen hlt htop (by omega)
    have hqueue := hbehind.queue
    rw [if_pos (by rw [hqueue, h.nxt, queueAt, beq_self_eq_true])]
    exact ⟨r, _, h.nxt, h.lower, h.upper, hbehind,
      h.insert hms hbound hwrap hp (h.holds.arrived_behind hlen), h.delivered⟩
  · obtain ⟨r', rest, heq, hle, hr', hrest, hqueue⟩ := h.holds.insert_at hseq hlen htop (by omega)
    have hne : t.rcvNxt ≠ BitVec.ofNat 32 r' := by
      rw [h.nxt, ne_eq, ofNat_inj (by omega) (by omega)]
      omega
    have hpayload := h.insert hms hbound hwrap le_rfl (h.holds.arrived_at hlen heq (by omega))
    rw [hqueue, if_neg (by simpa [queueAt] using hne)]
    classical
    have hsmall : ∀ x ∈ ms, x.1 < 2 ^ 32 := fun x hx ↦ (hbound x hx).2.trans_lt hwrap
    have hentries := hpayload.entries_eq hms hsmall
    have hfirst : Outcome ((queueAt r' (⟨r, r'⟩ :: rest)).extractTo asserts (BitVec.ofNat 32 r'))
        (fun x ↦ x.2 = queueAt r' rest) (WrapAssertion asserts top) :=
      (extractTo_first (by omega) hr' (by omega) asserts).post fun x hx ↦ congrArg Prod.snd hx
    have hsorted := hms.filter fun x ↦ decide (r < x.1 ∧ Arrived r' rest (x.1 - 1))
    have hloop := outcome_extractLoop hrest (by omega) _ (fun x hx ↦ ?_) hfirst hentries
      (Nat.lt_succ_of_le (by rw [← List.length_map wire, ← hentries]))
    · apply Outcome.bind (hloop.mono (fun _ hx ↦ hx) fun _ hf ↦ absurd hf.2.2 (by omega))
      intro x hx
      obtain ⟨hmsgs, hq, hleft⟩ := hx
      refine ⟨r', rest, rfl, by omega, hr', hq ▸ hrest, fun e ↦ ?_, ?_⟩
      · dsimp only
        rw [hleft, dropWhile_eq_filter hsorted fun _ _ ↦ rfl, List.filter_filter]
        simp only [List.mem_map, List.mem_filter, Bool.and_eq_true, decide_eq_true_iff]
        constructor
        · rintro ⟨y, ⟨hy, hlt, hP⟩, rfl⟩
          exact ⟨y, hy, ⟨hlt, hP.2⟩, rfl⟩
        · rintro ⟨y, hy, ⟨hlt, hP⟩, rfl⟩
          exact ⟨y, ⟨hy, hlt, by omega, hP⟩, rfl⟩
      · dsimp only
        rw [h.delivered, hmsgs, takeWhile_eq_filter hsorted fun _ _ ↦ rfl, List.filter_filter,
          ← List.map_append, ← filter_append_filter hms (by omega : r ≤ r')]
        congr 2
        apply List.filter_congr
        intro y hy
        have hpos := (hbound y hy).1
        rw [Bool.eq_iff_iff, Bool.and_eq_true, decide_eq_true_iff, decide_eq_true_iff,
          decide_eq_true_iff]
        constructor
        · exact fun hy' ↦ ⟨hy'.2.1, hy'.1⟩
        · exact fun hy' ↦ ⟨hy'.2, hy'.1, .inl (by omega)⟩
    · have hx' := hbound x (List.mem_filter.mp hx).1
      omega

/-- Bytes of the stream are cut out of it. -/
def Cut (s top : ℕ) (cut : Seq × ℕ) : Prop :=
  ∃ p, cut.1 = BitVec.ofNat 32 p ∧ s ≤ p ∧ 0 < cut.2 ∧ p + cut.2 ≤ top

theorem Transferred.step (hms : ms.Pairwise fun x y ↦ x.1 < y.1) (hbound : ∀ x ∈ ms, s < x.1 ∧ x.1 ≤ top)
    (hroom : top < s + 2 ^ 31) (hwrap : top < 2 ^ 32) {cut : Seq × ℕ} (hcut : Cut s top cut)
    (rcvWnd : Seq) :
    Outcome (t.step asserts ⟨BitVec.ofNat 32 s, BitVec.ofNat 32 top, ms.map wire⟩ rcvWnd cut)
      (fun t' ↦ ∃ r' regions', Transferred s top ms t' r' regions') fun _ ↦ False := by
  obtain ⟨p, hp, hsp, hlen, htop⟩ := hcut
  have hlower := h.lower
  have hupper := h.upper
  unfold MessageReceiver.step
  rw [hp, createSegmentWithBytes_eq hms hbound hroom asserts hsp htop, ok_bind]
  apply Outcome.ite
  · intro haccept
    have hge := (Bool.and_eq_true_iff.mp haccept).1
    rw [h.nxt, seqGE_ofNat (by omega) (by omega), decide_eq_true_iff] at hge
    exact h.processSegmentText hms hbound hroom hwrap rfl hge hlen htop
  · intro _
    exact ⟨r, regions, h⟩

end Runs

/-- The send queue with the messages. -/
def sendingQueue (s : ℕ) (msgs : List (ℕ × α)) : TCPMsgBasedSendQueue α :=
  msgs.foldl TCPMsgBasedSendQueue.enqueueAppData
    (({} : TCPMsgBasedSendQueue α).init (BitVec.ofNat 32 s))

/-- Nothing has arrived yet. -/
def newReceiver (s : ℕ) : MessageReceiver α :=
  ⟨BitVec.ofNat 32 s, ({} : TCPMsgBasedRcvQueue α).init (BitVec.ofNat 32 s), []⟩

/-- Whatever way the bytes are cut and in whatever order they arrive, the application has got exactly
the messages in front of `rcv_nxt`, in order, and nothing fails. -/
theorem messages_delivered_in_order {s : ℕ} {msgs : List (ℕ × α)} (hpos : ∀ x ∈ msgs, 0 < x.1)
    (hroom : totalLength msgs < 2 ^ 31) (hwrap : s + totalLength msgs < 2 ^ 32) (asserts : Bool)
    (rcvWnd : Seq) {t : MessageReceiver α}
    (h : Reachable (· = newReceiver s) (fun _ ↦ Cut s (s + totalLength msgs))
      (MessageReceiver.step asserts (sendingQueue s msgs) rcvWnd) t) :
    t.delivered = ((positions s msgs).filter fun x ↦ decide (x.1 ≤ t.rcvNxt.toNat)).map Prod.snd ∧
    ∀ cut fault, Cut s (s + totalLength msgs) cut →
      t.step asserts (sendingQueue s msgs) rcvWnd cut ≠ .error fault := by
  have hms := sorted_positions (s := s) hpos
  have hbound : ∀ x ∈ positions s msgs, s < x.1 ∧ x.1 ≤ s + totalLength msgs :=
    fun x hx ↦ lt_of_mem_positions hpos hx
  have hqueue : sendingQueue s msgs = ⟨BitVec.ofNat 32 s, BitVec.ofNat 32 (s + totalLength msgs),
      (positions s msgs).map wire⟩ := by
    unfold sendingQueue
    rw [foldl_enqueueAppData _ rfl]
    rfl
  have hinit : ∀ t, t = newReceiver s → ∃ r regions,
      Transferred s (s + totalLength msgs) (positions s msgs) t r regions := by
    rintro t rfl
    refine ⟨s, [], rfl, le_refl _, by omega, ⟨rfl, normal_nil, nofun, nofun⟩, fun e ↦ ?_, ?_⟩
    · constructor
      · nofun
      · rintro ⟨x, hx, ⟨hlt, harrived | ⟨_, hmem, _⟩⟩, _⟩
        · omega
        · cases hmem
    · have hnone : ((positions s msgs).filter fun x ↦ decide (x.1 ≤ s)) = [] := by
        rw [List.filter_eq_nil_iff]
        intro x hx
        have hlt := (hbound x hx).1
        simpa using hlt
      rw [hnone]
      rfl
  rw [hqueue] at h ⊢
  obtain ⟨⟨r, regions, ht⟩, hstep⟩ := h.outcome hinit fun t cut ht hcut ↦ by
    obtain ⟨r, regions, ht⟩ := ht
    exact ht.step hms hbound (by omega) hwrap hcut rcvWnd
  refine ⟨?_, fun cut fault hcut hfault ↦ (hstep cut hcut).of_eq_error hfault⟩
  have hupper := ht.upper
  rw [ht.delivered, ht.nxt, BitVec.toNat_ofNat, Nat.mod_eq_of_lt (by omega)]

/-- Two messages, the second of which arrives first. -/
def twoCuts (s : ℕ) : List (Seq × ℕ) :=
  [(BitVec.ofNat 32 (s + 3), 4), (BitVec.ofNat 32 s, 3)]

def twoMessages : List (ℕ × ℕ) := [(3, 1), (4, 2)]

theorem messages_delivered_in_order_twoMessages : ∃ t,
    run (MessageReceiver.step true (sendingQueue 5 twoMessages) 16384) (newReceiver 5) (twoCuts 5) =
      .ok t ∧ t.rcvNxt = 12 ∧ t.delivered = [1, 2] ∧
    t.delivered = ((positions 5 twoMessages).filter fun x ↦ decide (x.1 ≤ t.rcvNxt.toNat)).map
      Prod.snd := by
  have hcheck : (match run (MessageReceiver.step true (sendingQueue 5 twoMessages) 16384)
        (newReceiver 5) (twoCuts 5) with
      | .ok t => decide (t.rcvNxt = 12 ∧ t.delivered = [1, 2])
      | .error _ => false) = true := by decide +kernel
  have hpos : ∀ x ∈ twoMessages, 0 < x.1 := by decide
  cases hrun : run (MessageReceiver.step true (sendingQueue 5 twoMessages) 16384) (newReceiver 5)
      (twoCuts 5) with
  | error e =>
    rw [hrun] at hcheck
    cases hcheck
  | ok t =>
    rw [hrun] at hcheck
    obtain ⟨hnxt, hdelivered⟩ := of_decide_eq_true hcheck
    have hreach : Reachable (· = newReceiver 5) (fun _ ↦ Cut 5 (5 + totalLength twoMessages))
        (MessageReceiver.step true (sendingQueue 5 twoMessages) 16384) t := by
      obtain ⟨t₁, h₁, hrun⟩ := bind_ok_iff.mp hrun
      obtain ⟨t₂, h₂, hrun⟩ := bind_ok_iff.mp hrun
      cases hrun
      have hsecond : Cut 5 (5 + totalLength twoMessages) (BitVec.ofNat 32 (5 + 3), 4) :=
        ⟨8, rfl, by decide, by decide, by decide⟩
      have hfirst : Cut 5 (5 + totalLength twoMessages) (BitVec.ofNat 32 5, 3) :=
        ⟨5, rfl, by decide, by decide, by decide⟩
      have hstart : Reachable (· = newReceiver 5) (fun _ ↦ Cut 5 (5 + totalLength twoMessages))
          (MessageReceiver.step true (sendingQueue 5 twoMessages) 16384) (newReceiver 5) :=
        .start rfl
      exact (hstart.next hsecond h₁).next hfirst h₂
    exact ⟨t, rfl, hnxt, hdelivered,
      (messages_delivered_in_order hpos (by decide) (by decide) true 16384 hreach).1⟩

/-- Across the wrap the second message is handed out first. -/
theorem wrapped_messages_out_of_order : ∃ t,
    run (MessageReceiver.step false (sendingQueue 4294967291 twoMessages) 16384)
      (newReceiver 4294967291) (twoCuts 4294967291) = .ok t ∧
    t.rcvNxt = 2 ∧ t.delivered = [2, 1] := by
  have hcheck : (match run (MessageReceiver.step false (sendingQueue 4294967291 twoMessages) 16384)
        (newReceiver 4294967291) (twoCuts 4294967291) with
      | .ok t => decide (t.rcvNxt = 2 ∧ t.delivered = [2, 1])
      | .error _ => false) = true := by decide +kernel
  cases hrun : run (MessageReceiver.step false (sendingQueue 4294967291 twoMessages) 16384)
      (newReceiver 4294967291) (twoCuts 4294967291) with
  | error e =>
    rw [hrun] at hcheck
    cases hcheck
  | ok t =>
    rw [hrun] at hcheck
    exact ⟨t, rfl, of_decide_eq_true hcheck⟩

end InetManet.TCP
