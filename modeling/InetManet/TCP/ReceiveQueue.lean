import InetManet.TCP.ReceiveSpace

/-!
# Runs of the virtual receive queue

Segments are inserted and bytes are extracted in any order. Each byte of the stream has a position,
the first one that of the initial sequence number, and a segment is read at the position that it
has in front of `rcv_nxt`. As long as text stays in the window, and the window and the bytes kept
for the application are less than half of the sequence space together, the regions of the queue are
the bytes received and not yet extracted.
-/

namespace InetManet.TCP

open TransitionSystem SerialNumber RegionList

/-- A queue and what happened to it: the position of `rcv_nxt`, the pieces of the stream that were
received, and how many bytes were extracted. -/
structure QueueRun where
  queue : TCPVirtualDataRcvQueue
  start : ℕ
  next : ℕ
  received : List (Region ℕ)
  extracted : ℕ
  deriving DecidableEq

inductive QueueEvent
  | insert (seg : TCPSegment)
  | extract (seq : Seq)
  | extractAll

namespace QueueRun

def init (startSeq : Seq) : QueueRun where
  queue := TCPVirtualDataRcvQueue.init {} startSeq
  start := startSeq.toNat
  next := startSeq.toNat
  received := []
  extracted := 0

/-- The position of the first byte that was not extracted. -/
def head (t : QueueRun) : ℕ := t.start + t.extracted

/-- The position of a byte at or after `rcv_nxt`. -/
def position (t : QueueRun) (seq : Seq) : ℕ := t.next + (seq - t.queue.rcvNxt).toNat

def insert (t : QueueRun) (seg : TCPSegment) : QueueRun :=
  let queue := t.queue.insertBytesFromSegment seg
  let p := t.position seg.sequenceNo
  { t with
    queue
    next := t.next + (queue.rcvNxt - t.queue.rcvNxt).toNat
    received := ⟨p, p + seg.payloadLength⟩ :: t.received }

def step (asserts : Bool) (t : QueueRun) : QueueEvent → Except Fault QueueRun
  | .insert seg => .ok (t.insert seg)
  | .extract seq => do
    let (packet, queue) ← t.queue.extractBytesUpTo asserts seq
    return { t with queue, extracted := t.extracted + packet.getD 0 }
  | .extractAll => do
    let (packets, queue) ← t.queue.extractAll asserts t.queue.rcvNxt
    return { t with queue, extracted := t.extracted + packets.sum }

/-- A segment that `isSegmentAcceptable` lets pass, with text. -/
def Accepts (rcvWnd : Seq) (t : QueueRun) : QueueEvent → Prop
  | .insert seg =>
    0 < seg.payloadLength ∧
      ({ rcvNxt := t.queue.rcvNxt, rcvWnd := rcvWnd : TCPConnection }.isSegmentAcceptable seg)
  | .extract _ => True
  | .extractAll => True

instance (rcvWnd : Seq) (t : QueueRun) (e : QueueEvent) : Decidable (t.Accepts rcvWnd e) := by
  cases e <;> unfold Accepts <;> infer_instance

/-- The text lies in the window, which is less than half of the sequence space together with the
bytes that are kept; and what is extracted ends less than this behind `rcv_nxt`. -/
def InWindow (rcvWnd : Seq) (t : QueueRun) : QueueEvent → Prop
  | .insert seg =>
    (seg.sequenceNo - t.queue.rcvNxt).toNat + seg.payloadLength ≤ rcvWnd.toNat ∧
      t.next + rcvWnd.toNat < t.head + 2 ^ 31
  | .extract seq => (t.queue.rcvNxt - seq).toNat + rcvWnd.toNat < 2 ^ 31
  | .extractAll => True

instance (rcvWnd : Seq) (t : QueueRun) (e : QueueEvent) : Decidable (t.InWindow rcvWnd e) := by
  cases e <;> unfold InWindow <;> infer_instance

/-- The list is sorted with gaps between its regions and denotes the bytes received and not yet
extracted, and `rcv_nxt` is the first byte that was not received. -/
structure Exact (t : QueueRun) : Prop where
  sorted : t.queue.regionList.Pairwise fun a b ↦ seqLess a.upper b.lower = true
  nonempty : ∀ s ∈ t.queue.regionList, seqLess s.lower s.upper = true
  denotes : ∃ regions : List (Region ℕ), Normal regions ∧
    t.queue.regionList = regions.map (Region.map (BitVec.ofNat 32)) ∧
    ∀ x, Covers regions x ↔ Covers t.received x ∧ t.head ≤ x
  rcvNxt : t.queue.rcvNxt = BitVec.ofNat 32 t.next
  start_le : t.start ≤ t.next
  before : ∀ x, t.start ≤ x → x < t.next → Covers t.received x
  missing : ¬ Covers t.received t.next

/-- The queue at positions, where text reaches at most a window beyond `rcv_nxt`. -/
structure Held (window : ℕ) (t : QueueRun) (regions : List (Region ℕ)) : Prop where
  queue : t.queue = queueAt t.next regions
  normal : Normal regions
  covers : ∀ x, Covers regions x ↔ Covers t.received x ∧ t.head ≤ x
  le_window : ∀ s ∈ regions, s.upper ≤ t.next + window
  room : ∀ s ∈ regions, s.upper < t.head + 2 ^ 31
  head_le : t.head ≤ t.next
  kept : t.next < t.head + 2 ^ 31
  before : ∀ x, t.start ≤ x → x < t.next → Covers t.received x
  missing : ¬ Covers t.received t.next

section Held

variable {window : ℕ} {t : QueueRun} {regions : List (Region ℕ)}

theorem held_init (window : ℕ) (startSeq : Seq) : Held window (init startSeq) [] where
  queue := by
    simp [init, TCPVirtualDataRcvQueue.init, queueAt]
  normal := normal_nil
  covers x := by simp [init]
  le_window := by simp
  room := by simp
  head_le := by simp [head, init]
  kept := by simp [head, init]
  before x hx hx' := by
    simp only [init] at hx hx'
    omega
  missing := covers_nil _

section

variable (h : Held window t regions)

include h

theorem Held.head_le_lower {s : Region ℕ} (hs : s ∈ regions) :
    t.head ≤ s.lower :=
  ((h.covers s.lower).mp (h.normal.covers_lower hs)).2

theorem Held.endpointsIn :
    EndpointsIn {x | t.head ≤ x ∧ x ≤ t.next + window} regions := by
  intro s hs
  have hlow := h.head_le_lower hs
  have hlt := h.normal.nonempty s hs
  have htop := h.le_window s hs
  exact ⟨⟨hlow, by omega⟩, ⟨by omega, htop⟩⟩

theorem Held.covers_kept {x : ℕ} (hx : t.head ≤ x) (hx' : x < t.next) : Covers regions x :=
  (h.covers x).mpr ⟨h.before x ((Nat.le_add_right _ _).trans hx) hx', hx⟩

/-- Kept bytes are the first region; without any, all regions are above a gap. -/
theorem Held.shape :
    (t.head < t.next ∧ ∃ rest, regions = ⟨t.head, t.next⟩ :: rest) ∨
      t.head = t.next ∧ ∀ s ∈ regions, t.next < s.lower := by
  have hmissing : ¬ Covers regions t.next := fun hc ↦ h.missing ((h.covers _).mp hc).1
  rcases h.head_le.lt_or_eq with hlt | heq
  · exact .inl ⟨hlt, h.normal.eq_cons hlt (fun x hx ↦ ((h.covers x).mp hx).2)
      (fun x hx hx' ↦ h.covers_kept hx hx') hmissing⟩
  · right
    refine ⟨heq, fun s hs ↦ ?_⟩
    apply lt_of_le_of_ne (heq ▸ h.head_le_lower hs)
    intro hnext
    exact hmissing (hnext ▸ h.normal.covers_lower hs)

/-! ## Insertion -/

/-- The merge of the source is the insertion of the positions. -/
theorem Held.merge {p len : ℕ} (hp : t.next ≤ p)
    (hend : p + len ≤ t.next + window) (hroom : t.next + window < t.head + 2 ^ 31) :
    t.queue.merge (BitVec.ofNat 32 p) (BitVec.ofNat 32 p + BitVec.ofNat 32 len) =
      (RegionList.insert ⟨p, p + len⟩ regions).map (Region.map (BitVec.ofNat 32)) := by
  have hhead := h.head_le
  have hpiece : p ∈ {x | t.head ≤ x ∧ x ≤ t.next + window} ∧
      p + len ∈ {x | t.head ≤ x ∧ x ≤ t.next + window} :=
    ⟨⟨by omega, by omega⟩, ⟨by omega, hend⟩⟩
  have hmap := merge_map (respects_ofNat hroom) (t := ⟨p, p + len⟩) hpiece h.endpointsIn
  unfold TCPVirtualDataRcvQueue.merge
  rw [h.queue, ← BitVec.ofNat_add]
  exact hmap

end

/-- The bytes in front of the end of the first region have all been received. -/
theorem next_le_upper {first : Region ℕ} {rest : List (Region ℕ)} {a b : ℕ}
    (hnormal : Normal (first :: rest)) (hlow : a ≤ first.lower)
    (hall : ∀ x, a ≤ x → x < b → Covers (first :: rest) x) : b ≤ first.upper := by
  by_contra hlt
  have hfirst := hnormal.nonempty first (by simp)
  exact hnormal.not_covers_upper (hall _ (by omega) (by omega))

/-- What is in the list after a piece has arrived, in terms of what was received. -/
theorem Held.covers_insert (h : Held window t regions) {p q : ℕ} (hpiece : p < q)
    (hp : t.next ≤ p) (x : ℕ) :
    Covers (RegionList.insert ⟨p, q⟩ regions) x ↔ Covers (⟨p, q⟩ :: t.received) x ∧ t.head ≤ x := by
  have hhead := h.head_le
  have hcovers := (insert_normal (t := ⟨p, q⟩) hpiece h.normal).2
  rw [hcovers, h.covers, covers_cons]
  dsimp only
  constructor
  · rintro (hx | ⟨hx, hx'⟩)
    · exact ⟨.inl hx, by omega⟩
    · exact ⟨.inr hx, hx'⟩
  · rintro ⟨hx | hx, hx'⟩
    · exact .inl hx
    · exact .inr ⟨hx, hx'⟩

/-- The next position is behind the first region if this reaches it, and in a gap otherwise. -/
theorem not_covers_next {first : Region ℕ} {rest : List (Region ℕ)} (h : Normal (first :: rest))
    (next : ℕ) :
    ¬ Covers (first :: rest) (if first.lower ≤ next then first.upper else next) := by
  split
  · exact h.not_covers_upper
  · rename_i hgap
    intro ⟨s, hs, hle, _⟩
    rcases List.mem_cons.mp hs with rfl | hs
    · exact hgap hle
    · have hfirst := h.nonempty first (by simp)
      have hbehind := (normal_cons.mp h).2.1 s hs
      omega

theorem Held.insert (h : Held window t regions) {seg : TCPSegment} (hlen : 0 < seg.payloadLength)
    (hend : (seg.sequenceNo - t.queue.rcvNxt).toNat + seg.payloadLength ≤ window)
    (hroom : t.next + window < t.head + 2 ^ 31) :
    ∃ regions', Held window (t.insert seg) regions' := by
  have hnxt : t.queue.rcvNxt = BitVec.ofNat 32 t.next := congrArg (·.rcvNxt) h.queue
  have hseq : seg.sequenceNo = BitVec.ofNat 32 (t.position seg.sequenceNo) := by
    unfold position
    rw [hnxt]
    exact eq_ofNat_add _ _
  have hp : t.next ≤ t.position seg.sequenceNo := Nat.le_add_right _ _
  have hend' : t.position seg.sequenceNo + seg.payloadLength ≤ t.next + window := by
    unfold position
    omega
  generalize hpos : t.position seg.sequenceNo = p at hseq hp hend'
  have hhead := h.head_le
  have hkept := h.kept
  have hpiece : p < p + seg.payloadLength := by omega
  obtain ⟨hnormal, hcovers⟩ := insert_normal (t := ⟨p, p + seg.payloadLength⟩) hpiece h.normal
  have hupper := insert_upper_le (t := ⟨p, p + seg.payloadLength⟩) hpiece h.normal hend' h.le_window
  have hmerge := h.merge hp hend' hroom
  rw [← hseq] at hmerge
  have hbytes := h.covers_insert hpiece hp
  have hbefore : ∀ x, t.start ≤ x → x < t.next →
      Covers (⟨p, p + seg.payloadLength⟩ :: t.received) x :=
    fun x hx hx' ↦ (covers_cons _ _ x).mpr (.inr (h.before x hx hx'))
  cases hregions : RegionList.insert ⟨p, p + seg.payloadLength⟩ regions with
  | nil =>
    have hfirst := (hcovers p).mpr (.inl ⟨le_rfl, hpiece⟩)
    rw [hregions] at hfirst
    exact absurd hfirst (covers_nil p)
  | cons first rest =>
    rw [hregions] at hnormal hbytes hupper hmerge
    have hlow : t.head ≤ first.lower := ((hbytes _).mp (hnormal.covers_lower (by simp))).2
    have hfirst := hnormal.nonempty first (by simp)
    have htop := hupper first (by simp)
    -- the new `rcv_nxt` as a position
    have hqueue : t.queue.insertBytesFromSegment seg =
        queueAt (if first.lower ≤ t.next then first.upper else t.next) (first :: rest) := by
      unfold TCPVirtualDataRcvQueue.insertBytesFromSegment
      dsimp only
      rw [hmerge, List.map_cons]
      dsimp only
      rw [hnxt, Region.map_lower, seqGE_ofNat (by omega) (by omega)]
      by_cases hle : first.lower ≤ t.next <;> simp [hle, queueAt]
    have hnew : (t.insert seg).next =
        if first.lower ≤ t.next then first.upper else t.next := by
      change t.next + ((t.queue.insertBytesFromSegment seg).rcvNxt - t.queue.rcvNxt).toNat = _
      rw [hqueue, hnxt]
      split
      · have hle : t.next ≤ first.upper := next_le_upper hnormal hlow fun x hx hx' ↦
          (hbytes x).mpr ⟨hbefore x ((Nat.le_add_right _ _).trans hx) hx', hx⟩
        rw [queueAt, toNat_ofNat_sub_ofNat hle (by omega)]
        omega
      · simp [queueAt]
    have hreceived : (t.insert seg).received = ⟨p, p + seg.payloadLength⟩ :: t.received := by
      rw [← hpos]
      rfl
    have hmissing := not_covers_next hnormal t.next
    have hnext : t.next ≤ (t.insert seg).next := Nat.le_add_right _ _
    refine ⟨first :: rest, ?_, hnormal, ?_, ?_, ?_, ?_, ?_, ?_, ?_⟩
    · rw [hnew, ← hqueue]
      rfl
    · rw [hreceived]
      exact hbytes
    · exact fun s hs ↦ (hupper s hs).trans (by omega)
    · exact fun s hs ↦ (hupper s hs).trans_lt hroom
    · exact hhead.trans hnext
    · change (t.insert seg).next < t.head + 2 ^ 31
      rw [hnew]
      split <;> omega
    · intro x hx hx'
      rw [hreceived]
      by_cases hold : x < t.next
      · exact hbefore x hx hold
      · rw [hnew] at hx'
        split at hx'
        · exact ((hbytes x).mp ⟨first, by simp, by omega, hx'⟩).1
        · exact absurd hx' hold
    · rw [hreceived, hnew]
      intro hc
      refine hmissing ((hbytes _).mpr ⟨hc, ?_⟩)
      split <;> omega

/-! ## Extraction -/

theorem seqLE_sub (a b d : Seq) : seqLE (a - d) b = seqLE a (b + d) := by
  have hdiff : b - (a - d) = b + d - a := by ring
  unfold seqLE
  rw [hdiff]

theorem seqLess_sub (a b d : Seq) : seqLess (a - d) b = seqLess a (b + d) := by
  have hdiff : b - (a - d) = b + d - a := by ring
  have hne : (a - d != b) = (a != b + d) := by
    rw [Bool.eq_iff_iff, bne_iff_ne, bne_iff_ne, ne_eq, ne_eq, sub_eq_iff_eq_add]
  unfold seqLess
  rw [hdiff, hne]

/-- A plain comparison of the ends of the first region fails. -/
def FirstWraps (asserts : Bool) (t : QueueRun) : Prop :=
  asserts = true ∧ ∃ first ∈ t.queue.regionList.head?, first.upper.toNat ≤ first.lower.toNat

/-- The state after bytes were extracted. -/
def afterExtract (t : QueueRun) (r : ℕ × TCPVirtualDataRcvQueue) : QueueRun :=
  { t with queue := r.2, extracted := t.extracted + r.1 }

/-- The comparison of the ends of the first region, which is an assertion. -/
theorem outcome_checkFirst {first : Region Seq} (hfirst : t.queue.regionList.head? = some first)
    (asserts : Bool) :
    Outcome (check asserts (decide (first.lower.toNat < first.upper.toNat))
      (.assertion .extractTo)) (fun _ ↦ True) fun _ : Fault ↦ t.FirstWraps asserts := by
  apply outcome_check (fun _ ↦ trivial)
  intro hasserts hcheck
  exact ⟨hasserts, first, hfirst, not_lt.mp (of_decide_eq_false hcheck)⟩

section

variable (h : Held window t regions)

include h

/-- Extracting nothing from a queue that holds nothing up to the given number. -/
theorem Held.extract_none {behind : ℕ} (hnone : t.next ≤ t.head + behind) :
    (∃ regions', Held window (t.afterExtract (0, t.queue)) regions') ∧
      (t.afterExtract (0, t.queue)).head = max t.head (t.next - behind) := by
  refine ⟨⟨regions, h⟩, ?_⟩
  change t.head = _
  omega

theorem Held.cut {rest : List (Region ℕ)} {x : ℕ}
    (hregions : regions = ⟨t.head, t.next⟩ :: rest) (hx : t.head < x) (hx' : x ≤ t.next)
    {q : TCPVirtualDataRcvQueue} (hq : q = queueAt t.next
      (if x < t.next then ⟨x, t.next⟩ :: rest else rest)) :
    ∃ regions', Held window (t.afterExtract (x - t.head, q)) regions' := by
  subst hregions
  have hhead : (t.afterExtract (x - t.head, q)).head = x := by
    change t.start + (t.extracted + (x - t.head)) = x
    unfold head at hx ⊢
    omega
  have hkept := h.kept
  obtain ⟨hlt, hsep, hrest⟩ := normal_cons.mp h.normal
  have hall : ∀ y, Covers rest y → t.next < y := by
    rintro y ⟨s, hs, hle, -⟩
    exact (hsep s hs).trans_le hle
  refine ⟨_, hq, ?_, ?_, ?_, ?_, ?_, ?_, h.before, h.missing⟩
  · split
    · rename_i hcut
      exact normal_cons.mpr ⟨hcut, hsep, hrest⟩
    · exact hrest
  · intro y
    rw [hhead]
    have hy := h.covers y
    rw [covers_cons] at hy
    dsimp only at hy
    change Covers _ y ↔ Covers t.received y ∧ x ≤ y
    have hbeyond := hall y
    constructor
    · intro hc
      split at hc
      · rcases (covers_cons _ _ y).mp hc with ⟨hxy, hyn⟩ | hc
        · exact ⟨(hy.mp (.inl ⟨hx.le.trans hxy, hyn⟩)).1, hxy⟩
        · exact ⟨(hy.mp (.inr hc)).1, by have := hbeyond hc; omega⟩
      · exact ⟨(hy.mp (.inr hc)).1, by have := hbeyond hc; omega⟩
    · rintro ⟨hc, hxy⟩
      rcases hy.mpr ⟨hc, by omega⟩ with ⟨-, hyn⟩ | hc
      · rw [if_pos (by omega)]
        exact (covers_cons _ _ y).mpr (.inl ⟨hxy, hyn⟩)
      · split
        · exact (covers_cons _ _ y).mpr (.inr hc)
        · exact hc
  · intro s hs
    change s.upper ≤ t.next + window
    split at hs
    · rcases List.mem_cons.mp hs with rfl | hs
      · exact Nat.le_add_right _ _
      · exact h.le_window s (by simp [hs])
    · exact h.le_window s (by simp [hs])
  · intro s hs
    rw [hhead]
    have hroom : ∀ s ∈ rest, s.upper < t.head + 2 ^ 31 := fun s hs ↦ h.room s (by simp [hs])
    split at hs
    · rcases List.mem_cons.mp hs with rfl | hs
      · change t.next < x + 2 ^ 31
        omega
      · exact (hroom s hs).trans (by omega)
    · exact (hroom s hs).trans (by omega)
  · rw [hhead]
    exact hx'
  · rw [hhead]
    change t.next < x + 2 ^ 31
    omega

/-- Bytes up to the given number are extracted, at most those of the first region. -/
theorem Held.extractTo (asserts : Bool) {seq : Seq}
    (hseq : (t.queue.rcvNxt - seq).toNat + window < 2 ^ 31) :
    Outcome (t.queue.extractTo asserts seq)
      (fun r ↦ (∃ regions', Held window (t.afterExtract r) regions') ∧
        (t.afterExtract r).head = max t.head (t.next - (t.queue.rcvNxt - seq).toNat) ∧
        (seq = t.queue.rcvNxt → r.1 = 0 ∨ r.2.regionList = t.queue.regionList.tail))
      (fun _ ↦ t.FirstWraps asserts) := by
  have hnxt : t.queue.rcvNxt = BitVec.ofNat 32 t.next := congrArg (·.rcvNxt) h.queue
  have hlist : t.queue.regionList = regions.map (Region.map (BitVec.ofNat 32)) :=
    congrArg (·.regionList) h.queue
  have hkept := h.kept
  have hhead := h.head_le
  generalize hbehind : (t.queue.rcvNxt - seq).toNat = behind at hseq
  have hback : seq = BitVec.ofNat 32 t.next - BitVec.ofNat 32 behind := by
    rw [← hbehind, ← hnxt, BitVec.ofNat_toNat, BitVec.setWidth_eq]
    ring
  -- the comparison of the source at a position
  have hle : ∀ b, t.next < b + behind + 2 ^ 31 → b + behind < t.next + 2 ^ 31 →
      seqLE seq (BitVec.ofNat 32 b) = decide (t.next ≤ b + behind) := by
    intro b hb hb'
    rw [hback, seqLE_sub, ← BitVec.ofNat_add, seqLE_ofNat (by omega) (by omega)]
  unfold TCPVirtualDataRcvQueue.extractTo
  apply Outcome.bind (Q := fun _ ↦ True)
  · apply outcome_check (fun _ ↦ trivial)
    intro _ hcheck
    rw [seqLE, hbehind, decide_eq_false_iff_not] at hcheck
    omega
  intro _ _
  rcases h.shape with ⟨hlt, rest, hregions⟩ | ⟨heq, habove⟩
  · rw [hlist, hregions, List.map_cons]
    dsimp only
    apply (outcome_checkFirst (by rw [hlist, hregions]; rfl) asserts).bind
    intro _ _
    have hless : seqLess seq (BitVec.ofNat 32 t.next) = decide (0 < behind) := by
      rw [hback, seqLess_sub, ← BitVec.ofNat_add, seqLess_ofNat (by omega) (by omega)]
      simp
    have hcut : behind ≤ t.next → seq = BitVec.ofNat 32 (t.next - behind) := by
      intro hpos
      rw [hback, ofNat_sub_ofNat hpos]
    refine Outcome.ite (fun hcond ↦ ?_) fun hcond ↦ ?_
    · rw [Region.map_lower, hle t.head (by omega) (by omega), decide_eq_true_eq] at hcond
      obtain ⟨hheld, hend⟩ := h.extract_none hcond
      exact ⟨hheld, hend, fun _ ↦ .inl rfl⟩
    rw [Region.map_lower, hle t.head (by omega) (by omega), decide_eq_true_eq] at hcond
    have hend : ∀ q, (t.afterExtract (t.next - behind - t.head, q)).head =
        max t.head (t.next - behind) := by
      intro q
      change t.start + (t.extracted + (t.next - behind - t.head)) = _
      unfold head at hcond ⊢
      omega
    refine Outcome.ite (fun hpart ↦ ?_) fun hpart ↦ ?_
    · rw [Region.map_upper, hless, decide_eq_true_eq] at hpart
      rw [Region.map_lower, Region.map_upper, hcut (by omega),
        toNat_ofNat_sub_ofNat (a := t.head) (by omega) (by omega)]
      refine ⟨h.cut hregions (by omega) (by omega) ?_, hend _, fun heq ↦ ?_⟩
      swap
      · rw [(hcut (by omega)).trans heq, BitVec.sub_self, BitVec.toNat_zero] at hbehind
        omega
      rw [if_pos (by omega), hnxt]
      rfl
    · rw [Region.map_upper, hless, decide_eq_true_eq, not_lt, Nat.le_zero] at hpart
      subst hpart
      rw [Region.map_lower, Region.map_upper,
        toNat_ofNat_sub_ofNat (a := t.head) hhead (by omega)]
      refine ⟨h.cut hregions hlt le_rfl ?_, hend _, fun _ ↦ .inr rfl⟩
      rw [if_neg (lt_irrefl _), hnxt]
      rfl
  · rw [hlist]
    cases regions with
    | nil =>
      obtain ⟨hheld, hend⟩ := h.extract_none (show t.next ≤ t.head + behind by omega)
      exact ⟨hheld, hend, fun _ ↦ .inl rfl⟩
    | cons s rest =>
      have hs := habove s (by simp)
      have hlower := h.normal.nonempty s (by simp)
      have htop := h.le_window s (by simp)
      rw [List.map_cons]
      dsimp only
      apply (outcome_checkFirst (by rw [hlist]; rfl) asserts).bind
      intro _ _
      rw [Region.map_lower, hle s.lower (by omega) (by omega), if_pos (decide_eq_true (by omega))]
      obtain ⟨hheld, hend⟩ := h.extract_none (show t.next ≤ t.head + behind by omega)
      exact ⟨hheld, hend, fun _ ↦ .inl rfl⟩

theorem Held.extractBytesUpTo (asserts : Bool) {seq : Seq}
    (hseq : (t.queue.rcvNxt - seq).toNat + window < 2 ^ 31) :
    Outcome (t.queue.extractBytesUpTo asserts seq)
      (fun r ↦ (∃ regions', Held window (t.afterExtract (r.1.getD 0, r.2)) regions') ∧
        (t.afterExtract (r.1.getD 0, r.2)).head =
          max t.head (t.next - (t.queue.rcvNxt - seq).toNat) ∧
        ∀ n, r.1 = some n → 0 < n ∧
          (seq = t.queue.rcvNxt → r.2.regionList = t.queue.regionList.tail))
      (fun _ ↦ t.FirstWraps asserts) := by
  apply (h.extractTo asserts hseq).bind
  rintro ⟨n, q⟩ ⟨hheld, hhead, htail⟩
  have hget : (if n = 0 then none else some n).getD 0 = n := by
    split <;> simp_all
  change _ ∧ _ ∧ _
  dsimp only
  rw [hget]
  refine ⟨hheld, hhead, fun m hm ↦ ?_⟩
  split at hm
  · cases hm
  · rename_i hn
    obtain rfl : n = m := Option.some_inj.mp hm
    exact ⟨Nat.pos_of_ne_zero hn, fun heq ↦ (htail heq).resolve_left hn⟩

theorem Held.extractLoop_done (hwindow : window < 2 ^ 31)
    (hdone : t.head = t.next) (asserts : Bool) (rounds : ℕ) :
    Outcome (TCPVirtualDataRcvQueue.extractLoop asserts t.queue.rcvNxt (rounds + 1) t.queue)
      (fun r ↦ r.1 = [] ∧ ∃ regions', Held window (t.afterExtract (0, r.2)) regions')
      (fun _ ↦ t.FirstWraps asserts) := by
  unfold TCPVirtualDataRcvQueue.extractLoop
  apply (h.extractBytesUpTo asserts (by simpa using hwindow)).bind
  rintro ⟨packet, q⟩ ⟨hheld, hhead, hpos⟩
  cases packet with
  | none => exact ⟨rfl, hheld⟩
  | some n =>
    have hn := (hpos n rfl).1
    change t.start + (t.extracted + n) = _ at hhead
    rw [hdone, BitVec.sub_self, BitVec.toNat_zero, Nat.sub_zero, max_self, ← hdone] at hhead
    unfold head at hhead
    omega

end

/-- The regions that the rounds of the extraction loop look at: the first one, and the next one
if bytes of the first one are extracted. -/
def examined (t : QueueRun) : List (Region Seq) :=
  match t.queue.regionList with
  | [] => []
  | first :: rest =>
    if seqLess first.lower t.queue.rcvNxt then first :: rest.take 1 else [first]

/-- The region holds the byte with the highest sequence number. -/
def HoldsHighest (s : Region Seq) : Prop :=
  2 ^ 32 - 1 - s.lower.toNat < (s.upper - s.lower).toNat

theorem holdsHighest_of_le {s : Region Seq} (hne : s.lower ≠ s.upper)
    (hle : s.upper.toNat ≤ s.lower.toNat) : HoldsHighest s := by
  have hlt : s.upper.toNat < s.lower.toNat := by
    apply lt_of_le_of_ne hle
    intro heq
    exact hne (BitVec.eq_of_toNat_eq heq.symm)
  have hlow := s.lower.isLt
  unfold HoldsHighest
  rw [BitVec.toNat_sub]
  omega

variable (h : Held window t regions)

include h

theorem Held.ends_ne {s : Region Seq} (hs : s ∈ t.queue.regionList) : s.lower ≠ s.upper := by
  have hlist : t.queue.regionList = regions.map (Region.map (BitVec.ofNat 32)) :=
    congrArg (·.regionList) h.queue
  rw [hlist] at hs
  obtain ⟨g, hg, rfl⟩ := List.mem_map.mp hs
  have hlow := h.head_le_lower hg
  have hlt := h.normal.nonempty g hg
  have htop := h.room g hg
  rw [Region.map_lower, Region.map_upper, ne_eq, ofNat_inj (by omega) (by omega)]
  omega

theorem Held.firstWraps {asserts : Bool} (hw : t.FirstWraps asserts) :
    asserts = true ∧ ∃ first ∈ t.queue.regionList.head?, HoldsHighest first := by
  obtain ⟨hasserts, first, hfirst, hle⟩ := hw
  exact ⟨hasserts, first, hfirst,
    holdsHighest_of_le (h.ends_ne (List.mem_of_mem_head? hfirst)) hle⟩

theorem Held.extractAll (hwindow : window < 2 ^ 31) (asserts : Bool) :
    Outcome (t.queue.extractAll asserts t.queue.rcvNxt)
      (fun r ↦ (∃ regions', Held window (t.afterExtract (r.1.sum, r.2)) regions') ∧
        (t.afterExtract (r.1.sum, r.2)).head = t.next)
      (fun _ ↦ asserts = true ∧ ∃ s ∈ t.examined, HoldsHighest s) := by
  have hself : (t.queue.rcvNxt - t.queue.rcvNxt).toNat + window < 2 ^ 31 := by simpa using hwindow
  have hround := h.extractBytesUpTo asserts hself
  rw [BitVec.sub_self, BitVec.toNat_zero, Nat.sub_zero, max_eq_right h.head_le] at hround
  unfold TCPVirtualDataRcvQueue.extractAll TCPVirtualDataRcvQueue.extractLoop
  apply (hround.mono (fun _ hr ↦ hr) fun _ hf ↦ ?_).bind
  · rintro ⟨packet, q⟩ ⟨⟨regions', hheld⟩, hhead, hpos⟩
    cases packet with
    | none => exact ⟨⟨regions', hheld⟩, hhead⟩
    | some n =>
      obtain ⟨hn, htail⟩ := hpos n rfl
      replace hheld : Held window (t.afterExtract (n, q)) regions' := hheld
      have hnxt : t.queue.rcvNxt = (t.afterExtract (n, q)).queue.rcvNxt :=
        (congrArg (·.rcvNxt) h.queue).trans (congrArg (·.rcvNxt) hheld.queue).symm
      have hloop := hheld.extractLoop_done hwindow hhead asserts t.queue.regionList.length
      rw [← hnxt] at hloop
      apply (hloop.mono (fun _ hr ↦ hr) fun _ hf ↦ ?_).bind
      · rintro ⟨packets, q'⟩ ⟨hnil, regions'', hheld'⟩
        dsimp only at hnil
        subst hnil
        exact ⟨⟨regions'', hheld'⟩, hhead⟩
      · -- the second round looks at the second region, as the first one holds kept bytes
        obtain ⟨hasserts, second, hsecond, hhighest⟩ := hheld.firstWraps hf
        refine ⟨hasserts, second, ?_, hhighest⟩
        have hlt : t.head < t.next := by
          rw [← hhead]
          change t.start + t.extracted < t.start + (t.extracted + n)
          omega
        rcases h.shape with ⟨-, rest, hregions⟩ | ⟨heq, -⟩
        · have hlist : t.queue.regionList = regions.map (Region.map (BitVec.ofNat 32)) :=
            congrArg (·.regionList) h.queue
          have hnext : t.queue.rcvNxt = BitVec.ofNat 32 t.next := congrArg (·.rcvNxt) h.queue
          have hq : q.regionList = t.queue.regionList.tail := htail rfl
          change second ∈ q.regionList.head? at hsecond
          rw [hq, hlist, hregions] at hsecond
          have hkept := h.kept
          unfold examined
          rw [hlist, hregions, List.map_cons]
          dsimp only
          rw [Region.map_lower, hnext, seqLess_ofNat (a := t.head) (by omega) (by omega),
            if_pos (decide_eq_true hlt)]
          apply List.mem_cons_of_mem
          rw [List.map_cons, List.tail_cons] at hsecond
          cases hrest : rest.map (Region.map (BitVec.ofNat 32)) with
          | nil => simp [hrest] at hsecond
          | cons a l => simp_all
        · omega
  · obtain ⟨hasserts, first, hfirst, hhighest⟩ := h.firstWraps hf
    refine ⟨hasserts, first, ?_, hhighest⟩
    unfold examined
    cases hlist : t.queue.regionList with
    | nil => simp [hlist] at hfirst
    | cons a l =>
      rw [hlist] at hfirst
      obtain rfl : a = first := by simpa using hfirst
      dsimp only
      split <;> simp

theorem Held.exact : t.Exact := by
  have hlist : t.queue.regionList = regions.map (Region.map (BitVec.ofNat 32)) :=
    congrArg (·.regionList) h.queue
  have hless : ∀ a b, t.head ≤ a → b < t.head + 2 ^ 31 → a < b →
      seqLess (BitVec.ofNat 32 a) (BitVec.ofNat 32 b) = true := by
    intro a b ha hb hab
    rw [seqLess_ofNat (by omega) (by omega), decide_eq_true hab]
  refine ⟨?_, ?_, ⟨regions, h.normal, hlist, h.covers⟩, congrArg (·.rcvNxt) h.queue,
    (Nat.le_add_right _ _).trans h.head_le, h.before, h.missing⟩
  · rw [hlist, List.pairwise_map]
    apply h.normal.separated.imp_of_mem
    intro a b ha hb hab
    have hlow := h.head_le_lower ha
    have hlt := h.normal.nonempty a ha
    have hlt' := h.normal.nonempty b hb
    have htop := h.room b hb
    exact hless _ _ (by omega) (by omega) hab
  · rw [hlist]
    intro s hs
    obtain ⟨g, hg, rfl⟩ := List.mem_map.mp hs
    exact hless _ _ (h.head_le_lower hg) (h.room g hg) (h.normal.nonempty g hg)

end Held

/-! ## Runs -/

section Runs

variable {asserts : Bool} {rcvWnd startSeq : Seq} {t t' : QueueRun}

/-- An event that is accepted and in the window keeps the queue in order. -/
theorem Held.step {regions : List (Region ℕ)} (h : Held rcvWnd.toNat t regions)
    (hwnd : rcvWnd.toNat < 2 ^ 31) {e : QueueEvent} (haccepts : t.Accepts rcvWnd e)
    (hwindow : t.InWindow rcvWnd e) :
    Outcome (t.step asserts e)
      (fun t' ↦ (∃ regions', Held rcvWnd.toNat t' regions') ∧ t'.start = t.start ∧
        (e = .extractAll → t'.head = t'.next))
      (fun _ ↦ e = .extractAll → asserts = true ∧ ∃ s ∈ t.examined, HoldsHighest s) := by
  cases e with
  | insert seg => exact ⟨h.insert haccepts.1 hwindow.1 hwindow.2, rfl, nofun⟩
  | extract seq =>
    apply ((h.extractBytesUpTo asserts hwindow).mono (fun _ hr ↦ hr) fun _ _ he ↦ by cases he).bind
    rintro ⟨packet, q⟩ ⟨hheld, -, -⟩
    exact ⟨hheld, rfl, nofun⟩
  | extractAll =>
    apply ((h.extractAll hwnd asserts).mono (fun _ hr ↦ hr) fun _ hf _ ↦ hf).bind
    rintro ⟨packets, q⟩ ⟨hheld, hhead⟩
    exact ⟨hheld, rfl, fun _ ↦ hhead⟩

theorem reachable_held (hwnd : rcvWnd.toNat < 2 ^ 31) {allowed : QueueRun → QueueEvent → Prop}
    (hallowed : ∀ t e, allowed t e → t.Accepts rcvWnd e ∧ t.InWindow rcvWnd e)
    (ht : Reachable (· = init startSeq) allowed (step asserts) t) :
    (∃ regions, Held rcvWnd.toNat t regions) ∧ t.start = startSeq.toNat := by
  apply ht.invariant
  · rintro _ rfl
    exact ⟨⟨[], held_init _ _⟩, rfl⟩
  · rintro t e t' ⟨⟨regions, hheld⟩, hstart⟩ he hstep
    obtain ⟨haccepts, hwindow⟩ := hallowed t e he
    have hpost := (hheld.step hwnd haccepts hwindow).of_eq_ok hstep
    exact ⟨hpost.1, hpost.2.1.trans hstart⟩

/-- The list is exact in every state of a run whose text stays in the window. -/
theorem regionList_exact (hwnd : rcvWnd.toNat < 2 ^ 31)
    (ht : Reachable (· = init startSeq) (fun t e ↦ t.Accepts rcvWnd e ∧ t.InWindow rcvWnd e)
      (step asserts) t) : t.Exact := by
  obtain ⟨⟨regions, hheld⟩, -⟩ := reachable_held hwnd (fun _ _ he ↦ he) ht
  exact hheld.exact

/-- Bytes are extracted in loops only. With the checks compiled in, no region that a loop looks at
holds the byte with the highest sequence number. -/
def Looping (asserts : Bool) (t : QueueRun) : QueueEvent → Prop
  | .insert _ => True
  | .extract _ => False
  | .extractAll => asserts = true → ∀ s ∈ t.examined, ¬ HoldsHighest s

/-- No check fails, and after a loop everything up to `rcv_nxt` was extracted. -/
theorem extracted_eq (hwnd : rcvWnd.toNat < 2 ^ 31)
    (ht : Reachable (· = init startSeq)
      (fun t e ↦ t.Accepts rcvWnd e ∧ t.InWindow rcvWnd e ∧ t.Looping asserts e)
      (step asserts) t)
    (e : QueueEvent) (haccepts : t.Accepts rcvWnd e) (hwindow : t.InWindow rcvWnd e)
    (hlooping : t.Looping asserts e) :
    ∃ t', t.step asserts e = .ok t' ∧
      (e = .extractAll → BitVec.ofNat 32 t'.extracted = t'.queue.rcvNxt - startSeq) := by
  obtain ⟨⟨regions, hheld⟩, hstart⟩ := reachable_held hwnd (fun _ _ he ↦ ⟨he.1, he.2.1⟩) ht
  have hpost : Outcome (t.step asserts e) _ _ := hheld.step hwnd haccepts hwindow
  cases hstep : t.step asserts e with
  | error fault =>
    exfalso
    cases e with
    | insert seg => cases hstep
    | extract seq => exact hlooping
    | extractAll =>
      obtain ⟨hasserts, s, hs, hhighest⟩ := hpost.of_eq_error hstep rfl
      exact hlooping hasserts s hs hhighest
  | ok t' =>
    refine ⟨t', rfl, fun he ↦ ?_⟩
    obtain ⟨⟨regions', hheld'⟩, hstart', hhead⟩ := hpost.of_eq_ok hstep
    have hnext : t'.queue.rcvNxt = BitVec.ofNat 32 t'.next := congrArg (·.rcvNxt) hheld'.queue
    have hstartSeq : startSeq = BitVec.ofNat 32 t'.start := by
      rw [hstart', hstart, BitVec.ofNat_toNat, BitVec.setWidth_eq]
    rw [hnext, ← hhead he, hstartSeq, head, ofNat_sub_ofNat (Nat.le_add_right _ _),
      Nat.add_sub_cancel_left]

end Runs

theorem reachable_insert {start : QueueRun → Prop} {allowed : QueueRun → QueueEvent → Prop}
    {asserts : Bool} {t : QueueRun} {seg : TCPSegment}
    (ht : Reachable start allowed (step asserts) t) (he : allowed t (.insert seg)) :
    Reachable start allowed (step asserts) (t.insert seg) :=
  ht.next he rfl

/-- A segment of text. -/
def text (sequenceNo : Seq) (payloadLength : ℕ) : TCPSegment where
  sequenceNo := sequenceNo
  payloadLength := payloadLength

/-- Text behind a gap, and then the missing text. -/
theorem regionList_exact_gap_filled :
    (((init 1000).insert (text 1100 50)).insert (text 1000 100)).Exact :=
  @regionList_exact true 14336 1000 _ (by decide)
    (reachable_insert (reachable_insert (.start rfl) (by decide)) (by decide))

/-- Text that starts half of the sequence space ahead is accepted when it is longer than the window.
The text that is missing then goes behind it, and `rcv_nxt` stays where it was. -/
theorem regionList_not_exact_beyond_window :
    ¬ ∀ t, Reachable (· = init 0) (fun t e ↦ t.Accepts 16384 e) (step true) t → t.Exact := by
  intro h
  have ht : Reachable (· = init 0) (fun t e ↦ t.Accepts 16384 e) (step true)
      (((init 0).insert (text 0x7FFFFFFF 16386)).insert (text 0 1)) :=
    reachable_insert (reachable_insert (.start rfl) (by decide)) (by decide)
  exact (h _ ht).missing ⟨⟨0, 1⟩, by decide, by decide, by decide⟩

/-- All text of a stream that ends in front of the wrap is extracted. -/
theorem extracted_eq_hundred :
    ∃ t', ((init 1000).insert (text 1000 100)).step true .extractAll = .ok t' ∧
      (QueueEvent.extractAll = .extractAll →
        BitVec.ofNat 32 t'.extracted = t'.queue.rcvNxt - 1000) :=
  @extracted_eq true 14336 1000 _ (by decide)
    (reachable_insert (.start rfl) ⟨by decide, by decide, trivial⟩)
    .extractAll trivial trivial (by unfold Looping HoldsHighest; decide)

/-- Two bytes across the wrap make the check for empty regions fail. -/
theorem extraction_fails_at_wrap :
    ¬ ∀ t, Reachable (· = init 0xFFFFFFFF)
        (fun t e ↦ t.Accepts 16384 e ∧ ∀ seq, e ≠ .extract seq) (step true) t →
      ∃ t', t.step true .extractAll = .ok t' := by
  intro h
  obtain ⟨t', ht'⟩ := h ((init 0xFFFFFFFF).insert (text 0xFFFFFFFF 2))
    (reachable_insert (.start rfl) ⟨by decide, nofun⟩)
  have hfail : ((init 0xFFFFFFFF).insert (text 0xFFFFFFFF 2)).step true .extractAll =
      .error (.assertion .extractTo) := by decide
  rw [hfail] at ht'
  cases ht'

end QueueRun

end InetManet.TCP
