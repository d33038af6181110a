import InetManet.SCTP.SendStreams

/-!
# Fragmentation of a queued message

When the message at the front of a stream queue is too long for the path MTU of the association,
`dequeueOutboundDataMsg` takes it out and puts its fragments in its place, and keeps the number of
queued messages and the two sums of queued bytes up to date. `InetManet.SCTP.SendStreams` follows
the lengths only. Here a message has its bytes, a fragment is put into the queue next to the
fragment that the loop holds a pointer to, and the counters are those of the source.

A fragment takes all the payload that a packet has room for, but the test that decides whether to
fragment rounds the chunk up to a multiple of four. The two agree for an MTU that is a multiple of
four. The MTU of a PPP interface, 4470 bytes, is not.
-/

namespace InetManet.SCTP.Fragmentation

/-- The user's bytes; `dataLen` and the byte length of the packet are their number. The length of the
padded chunk is an `int32`. -/
structure SCTPSimpleMessage where
  name : String := ""
  creationTime : ℕ := 0
  data : List (BitVec 8) := []
  short : data.length < 2 ^ 31 - 19 := by decide
  deriving DecidableEq, Repr

theorem SCTPSimpleMessage.short_piece (msg : SCTPSimpleMessage) (offset msgbytes : ℕ) :
    ((msg.data.drop offset).take msgbytes).length < 2 ^ 31 - 19 := by
  have hshort := msg.short
  rw [List.length_take, List.length_drop]
  omega

structure SCTPDataMsg where
  eBit : Bool := false
  bBit : Bool := false
  enqueuingTime : ℕ := 0
  expiryTime : ℕ := 0
  ppid : ℕ := 0
  initialDestination : ℕ := 0
  msgNum : ℕ := 0
  sid : ℕ := 0
  ordered : Bool := true
  booksize : BitVec 32 := 0
  rtx : ℕ := 0
  fragment : Bool := false
  encapsulatedMsg : SCTPSimpleMessage := {}
  deriving DecidableEq, Repr

namespace SCTPDataMsg

def payload (datMsg : SCTPDataMsg) : List (BitVec 8) := datMsg.encapsulatedMsg.data

def dataLen (datMsg : SCTPDataMsg) : ℕ := datMsg.payload.length

/-- Room of the padded chunk, header included. -/
def chunkRoom (datMsg : SCTPDataMsg) : ℕ := addPadding (datMsg.dataLen + sctpDataChunkLength)

end SCTPDataMsg

/-- The association as far as `dequeueOutboundDataMsg` reads and counts; `header` is what a message
costs beyond its bytes. -/
structure SendCounters where
  assocPmtu : BitVec 32 := 1500
  header : BitVec 16 := 0
  lastMsgWasFragment : Bool := false
  queuedMessages : BitVec 64 := 0
  roomSumSendStreams : BitVec 64 := 0
  bookedSumSendStreams : BitVec 64 := 0
  deriving DecidableEq, Repr

/-- The test that a message has to be fragmented, on signed numbers. -/
def ExceedsPmtu (assocPmtu : BitVec 32) (datMsg : SCTPDataMsg) : Prop :=
  assocPmtu.toInt - ipHeaderLength - sctpCommonHeader < (BitVec.ofNat 32 datMsg.chunkRoom).toInt

instance (assocPmtu : BitVec 32) (datMsg : SCTPDataMsg) :
    Decidable (ExceedsPmtu assocPmtu datMsg) := by
  unfold ExceedsPmtu
  infer_instance

theorem exceedsPmtu_iff (assocPmtu : BitVec 32) (datMsg : SCTPDataMsg) : ExceedsPmtu assocPmtu datMsg ↔
    assocPmtu.toInt - ipHeaderLength - sctpCommonHeader < (datMsg.chunkRoom : ℤ) := by
  have hshort := datMsg.encapsulatedMsg.short
  have hroom : datMsg.chunkRoom < 2 ^ 31 := by
    simp only [SCTPDataMsg.chunkRoom, SCTPDataMsg.dataLen, SCTPDataMsg.payload, addPadding,
      sctpDataChunkLength]
    omega
  have hint : (BitVec.ofNat 32 datMsg.chunkRoom).toInt = datMsg.chunkRoom := by
    rw [BitVec.toInt_eq_toNat_of_lt, BitVec.toNat_ofNat, Nat.mod_eq_of_lt (by omega)]
    rw [BitVec.toNat_ofNat]
    omega
  rw [ExceedsPmtu, hint]

namespace SendCounters

/-- Payload of a fragment that is not the last, an unsigned difference. -/
def maxPayload (a : SendCounters) : ℕ :=
  (a.assocPmtu - BitVec.ofNat 32 ipHeaderLength - BitVec.ofNat 32 sctpCommonHeader -
    BitVec.ofNat 32 sctpDataChunkLength).toNat

/-- The counters when `datMsg` joins a stream queue. -/
def count (a : SendCounters) (datMsg : SCTPDataMsg) : SendCounters :=
  { a with
    queuedMessages := a.queuedMessages + 1
    roomSumSendStreams := a.roomSumSendStreams + BitVec.ofNat 64 datMsg.chunkRoom
    bookedSumSendStreams := a.bookedSumSendStreams + datMsg.booksize.setWidth 64 }

/-- The counters when `datMsg` is deleted. -/
def uncount (a : SendCounters) (datMsg : SCTPDataMsg) : SendCounters :=
  { a with
    queuedMessages := a.queuedMessages - 1
    roomSumSendStreams := a.roomSumSendStreams - BitVec.ofNat 64 datMsg.chunkRoom
    bookedSumSendStreams := a.bookedSumSendStreams - datMsg.booksize.setWidth 64 }

end SendCounters

/-! ## The loop -/

/-- `streamQ` while the message is cut up; the last fragment inserted is known by its position. -/
structure FragmentLoop where
  a : SendCounters
  streamQ : List SCTPDataMsg
  datMsgLastFragment : Option ℕ := none
  offset : ℕ := 0
  deriving DecidableEq, Repr

/-- The fragment that starts at `offset`. The E bit is set in the source when the fragment is
already in the queue. -/
def nextFragment (a : SendCounters) (datMsgQueued : SCTPDataMsg) (offset : ℕ) : SCTPDataMsg :=
  let msgbytes := min a.maxPayload (datMsgQueued.dataLen - offset)
  { sid := datMsgQueued.sid
    ppid := datMsgQueued.ppid
    initialDestination := datMsgQueued.initialDestination
    enqueuingTime := datMsgQueued.enqueuingTime
    msgNum := datMsgQueued.msgNum
    ordered := datMsgQueued.ordered
    expiryTime := datMsgQueued.expiryTime
    rtx := datMsgQueued.rtx
    fragment := true
    booksize := BitVec.ofNat 32 msgbytes + a.header.setWidth 32
    bBit := offset == 0
    eBit := datMsgQueued.dataLen == offset + msgbytes
    encapsulatedMsg :=
      { name := datMsgQueued.encapsulatedMsg.name
        creationTime := datMsgQueued.encapsulatedMsg.creationTime
        data := (datMsgQueued.payload.drop offset).take msgbytes
        short := datMsgQueued.encapsulatedMsg.short_piece offset msgbytes } }

/-- The queue with a new fragment, and the position of that fragment. -/
def insertFragment (streamQ : List SCTPDataMsg) (datMsgLastFragment : Option ℕ)
    (datMsgFragment : SCTPDataMsg) : List SCTPDataMsg × ℕ :=
  match streamQ, datMsgLastFragment with
  | [], _ => ([datMsgFragment], 0)
  | front :: streamQ, none => (datMsgFragment :: front :: streamQ, 0)
  | front :: streamQ, some last => ((front :: streamQ).insertIdx (last + 1) datMsgFragment, last + 1)

namespace FragmentLoop

/-- One turn of `while (datMsgQueued)`, without the test at its end. -/
def addFragment (s : FragmentLoop) (datMsgQueued : SCTPDataMsg) : FragmentLoop :=
  let datMsgFragment := nextFragment s.a datMsgQueued s.offset
  let inserted := insertFragment s.streamQ s.datMsgLastFragment datMsgFragment
  { a := s.a.count datMsgFragment
    streamQ := inserted.1
    datMsgLastFragment := some inserted.2
    offset := s.offset + datMsgFragment.dataLen }

/-- `while (datMsgQueued)`. The message is deleted when all its bytes are in fragments. -/
def run (datMsgQueued : SCTPDataMsg) : ℕ → FragmentLoop → Except Fault FragmentLoop
  | 0, _ => .error .endlessLoop
  | rounds + 1, s =>
      let s := s.addFragment datMsgQueued
      if datMsgQueued.dataLen = s.offset then .ok { s with a := s.a.uncount datMsgQueued }
      else run datMsgQueued rounds s

end FragmentLoop

/-- `dequeueOutboundDataMsg` up to the test whether the chunk at the front fits into the packet:
`datMsg` is at the front of the stream queue that is served, and `rest` is behind it. -/
def fragmentFront (a : SendCounters) (datMsg : SCTPDataMsg) (rest : List SCTPDataMsg) :
    Except Fault (SendCounters × List SCTPDataMsg) :=
  if ExceedsPmtu a.assocPmtu datMsg then do
    let s ← FragmentLoop.run datMsg (datMsg.dataLen + 1) { a, streamQ := rest }
    return ({ s.a with lastMsgWasFragment := true }, s.streamQ)
  else .ok (a, datMsg :: rest)

/-! ## The fragments of a message -/

section Pieces

variable (a : SendCounters) (datMsg : SCTPDataMsg) (rest : List SCTPDataMsg)

/-- The first `k` fragments. -/
def pieces (k : ℕ) : List SCTPDataMsg :=
  (List.range k).map fun i ↦ nextFragment a datMsg (i * a.maxPayload)

theorem pieces_succ (k : ℕ) :
    pieces a datMsg (k + 1) = pieces a datMsg k ++ [nextFragment a datMsg (k * a.maxPayload)] := by
  simp [pieces, List.range_succ]

@[simp] theorem length_pieces (k : ℕ) : (pieces a datMsg k).length = k := by
  simp [pieces]

theorem getElem?_pieces {k i : ℕ} {f : SCTPDataMsg} (h : (pieces a datMsg k)[i]? = some f) :
    i < k ∧ f = nextFragment a datMsg (i * a.maxPayload) := by
  obtain ⟨hi, hf⟩ := List.getElem?_eq_some_iff.mp h
  rw [length_pieces] at hi
  simp only [pieces, List.getElem_map, List.getElem_range] at hf
  exact ⟨hi, hf.symm⟩

theorem payload_nextFragment (offset : ℕ) :
    (nextFragment a datMsg offset).payload = (datMsg.payload.drop offset).take a.maxPayload := by
  apply List.ext_getElem?
  intro i
  simp only [nextFragment, SCTPDataMsg.payload, SCTPDataMsg.dataLen, List.getElem?_take,
    List.getElem?_drop]
  by_cases hi : offset + i < datMsg.encapsulatedMsg.data.length
  · apply if_congr _ rfl rfl
    omega
  · rw [List.getElem?_eq_none (by omega), ite_self, ite_self]

theorem dataLen_nextFragment (offset : ℕ) :
    (nextFragment a datMsg offset).dataLen = min a.maxPayload (datMsg.dataLen - offset) := by
  simp [SCTPDataMsg.dataLen, payload_nextFragment]

/-- The fragments hold the bytes up to the offset, in their order. -/
theorem flatten_pieces (k : ℕ) :
    ((pieces a datMsg k).map SCTPDataMsg.payload).flatten =
      datMsg.payload.take (k * a.maxPayload) := by
  induction k with
  | zero => simp [pieces]
  | succ k ih =>
      rw [pieces_succ, List.map_append, List.flatten_append, ih]
      simp only [List.map_cons, List.map_nil, List.flatten_cons, List.flatten_nil,
        List.append_nil, payload_nextFragment]
      rw [Nat.succ_mul, List.take_add]

end Pieces

/-! ## Counters -/

namespace SendCounters

variable (a : SendCounters)

/-- Counting messages touches the three counters and nothing else. -/
theorem foldl_count_eq (fs : List SCTPDataMsg) :
    fs.foldl count a = { a with
      queuedMessages := a.queuedMessages + BitVec.ofNat 64 fs.length
      roomSumSendStreams := a.roomSumSendStreams +
        (fs.map fun f ↦ BitVec.ofNat 64 f.chunkRoom).sum
      bookedSumSendStreams := a.bookedSumSendStreams +
        (fs.map fun f ↦ f.booksize.setWidth 64).sum } := by
  induction fs generalizing a with
  | nil => simp
  | cons f fs ih =>
      rw [List.foldl_cons, ih]
      simp only [count, List.map_cons, List.sum_cons, List.length_cons, mk.injEq, true_and]
      have hl : BitVec.ofNat 64 (fs.length + 1) = 1 + BitVec.ofNat 64 fs.length := by
        rw [Nat.add_comm, BitVec.ofNat_add]
        rfl
      exact ⟨by rw [hl, add_assoc], add_assoc _ _ _, add_assoc _ _ _⟩

theorem nextFragment_foldl_count (fs : List SCTPDataMsg) (datMsg : SCTPDataMsg) (offset : ℕ) :
    nextFragment (fs.foldl count a) datMsg offset = nextFragment a datMsg offset := by
  rw [foldl_count_eq]
  rfl

end SendCounters

/-! ## The loop inserts them in their order -/

theorem insertIdx_length_append {α : Type} (xs ys : List α) (x : α) :
    (xs ++ ys).insertIdx xs.length x = xs ++ x :: ys := by
  induction xs with
  | nil => rfl
  | cons y xs ih => simpa using ih

/-- The next fragment comes behind the fragments inserted so far. -/
theorem insertFragment_append (fs rest : List SCTPDataMsg) (last : Option ℕ) (f : SCTPDataMsg)
    (h : last.elim 0 (· + 1) = fs.length) :
    insertFragment (fs ++ rest) last f = (fs ++ f :: rest, fs.length) := by
  cases last with
  | none =>
      have hfs : fs = [] := List.length_eq_zero_iff.mp h.symm
      subst hfs
      cases rest <;> rfl
  | some i =>
      have hi : i + 1 = fs.length := h
      have hinsert : (fs ++ rest).insertIdx (i + 1) f = fs ++ f :: rest := by
        rw [hi, insertIdx_length_append]
      cases fs with
      | nil => simp at hi
      | cons g fs => exact Prod.ext hinsert hi

namespace FragmentLoop

variable (a : SendCounters) (datMsg : SCTPDataMsg) (rest : List SCTPDataMsg)

/-- The loop after `k` fragments. -/
def after (k : ℕ) : FragmentLoop :=
  { a := (pieces a datMsg k).foldl SendCounters.count a
    streamQ := pieces a datMsg k ++ rest
    datMsgLastFragment := if k = 0 then none else some (k - 1)
    offset := k * a.maxPayload }

theorem addFragment_after (k : ℕ) :
    (after a datMsg rest k).addFragment datMsg = { after a datMsg rest (k + 1) with
      offset := k * a.maxPayload + min a.maxPayload (datMsg.dataLen - k * a.maxPayload) } := by
  have hlast : (if k = 0 then none else some (k - 1) : Option ℕ).elim 0 (· + 1) =
      (pieces a datMsg k).length := by
    rw [length_pieces]
    cases k <;> rfl
  simp only [addFragment, after, SendCounters.nextFragment_foldl_count,
    insertFragment_append _ _ _ _ hlast, dataLen_nextFragment, length_pieces, pieces_succ,
    List.foldl_append, List.foldl_cons, List.foldl_nil, List.append_assoc, List.singleton_append,
    Nat.add_sub_cancel, Nat.succ_ne_zero, if_false]

/-- The loop ends with the fragments up to the first that reaches the end of the message. -/
theorem run_after (hp : 0 < a.maxPayload) (rounds k : ℕ)
    (hk : k * a.maxPayload < datMsg.dataLen ∨ k = 0)
    (hr : datMsg.dataLen < k * a.maxPayload + rounds) :
    ∃ m s, run datMsg rounds (after a datMsg rest k) = .ok s ∧
      s.streamQ = pieces a datMsg (m + 1) ++ rest ∧
      s.a = ((pieces a datMsg (m + 1)).foldl SendCounters.count a).uncount datMsg ∧
      (m * a.maxPayload < datMsg.dataLen ∨ m = 0) ∧ datMsg.dataLen ≤ (m + 1) * a.maxPayload := by
  induction rounds generalizing k with
  | zero =>
      rcases hk with hk | rfl
      · omega
      · simp at hr
  | succ rounds ih =>
      have hmul : (k + 1) * a.maxPayload = k * a.maxPayload + a.maxPayload := Nat.succ_mul _ _
      have hle : k * a.maxPayload ≤ datMsg.dataLen := by
        rcases hk with hk | rfl
        · exact hk.le
        · simp
      simp only [run, addFragment_after]
      by_cases hlast : datMsg.dataLen ≤ (k + 1) * a.maxPayload
      · rw [if_pos (by omega)]
        exact ⟨k, _, rfl, rfl, rfl, hk, hlast⟩
      · rw [if_neg (by omega)]
        have hoffset : k * a.maxPayload + min a.maxPayload (datMsg.dataLen - k * a.maxPayload) =
            (k + 1) * a.maxPayload := by omega
        rw [hoffset]
        exact ih (k + 1) (Or.inl (by omega)) (by omega)

end FragmentLoop

/-! ## A faithful cut -/

/-- The fragments carry the bytes of the message, none is empty, the bits mark the first and the
last, and none of them has to be fragmented again. -/
structure IsCut (assocPmtu : BitVec 32) (datMsg : SCTPDataMsg) (fragments : List SCTPDataMsg) :
    Prop where
  payloads : (fragments.map SCTPDataMsg.payload).flatten = datMsg.payload
  nonempty : ∀ f ∈ fragments, f.payload ≠ []
  bBit : ∀ i f, fragments[i]? = some f → (f.bBit = true ↔ i = 0)
  eBit : ∀ i f, fragments[i]? = some f → (f.eBit = true ↔ i + 1 = fragments.length)
  fits : ∀ f ∈ fragments, ¬ ExceedsPmtu assocPmtu f

/-- The counters change by what the fragments count for, less what the message counts for. -/
structure CountsDifference (a a' : SendCounters) (datMsg : SCTPDataMsg)
    (fragments : List SCTPDataMsg) : Prop where
  queuedMessages : a'.queuedMessages = a.queuedMessages + BitVec.ofNat 64 fragments.length - 1
  roomSum : a'.roomSumSendStreams = a.roomSumSendStreams +
    (fragments.map fun f ↦ BitVec.ofNat 64 f.chunkRoom).sum - BitVec.ofNat 64 datMsg.chunkRoom
  bookedSum : a'.bookedSumSendStreams = a.bookedSumSendStreams +
    (fragments.map fun f ↦ f.booksize.setWidth 64).sum - datMsg.booksize.setWidth 64

/-- The message at the front is replaced by a cut of it. -/
def CutFaithfully (a : SendCounters) (datMsg : SCTPDataMsg) (rest : List SCTPDataMsg) : Prop :=
  ∃ a' fragments, fragmentFront a datMsg rest = .ok (a', fragments ++ rest) ∧
    IsCut a.assocPmtu datMsg fragments ∧ CountsDifference a a' datMsg fragments

section Cut

variable {a : SendCounters} {datMsg : SCTPDataMsg}

theorem maxPayload_eq (h : 48 < a.assocPmtu.toNat) : a.maxPayload = a.assocPmtu.toNat - 48 := by
  unfold SendCounters.maxPayload ipHeaderLength sctpCommonHeader sctpDataChunkLength
  bv_omega

/-- What fragmentation does to a message of `m + 1` pieces, whether or not they fit. -/
theorem fragmentFront_eq (rest : List SCTPDataMsg) (hp : 0 < a.maxPayload)
    (hx : ExceedsPmtu a.assocPmtu datMsg) :
    ∃ m a', fragmentFront a datMsg rest = .ok (a', pieces a datMsg (m + 1) ++ rest) ∧
      CountsDifference a a' datMsg (pieces a datMsg (m + 1)) ∧
      (m * a.maxPayload < datMsg.dataLen ∨ m = 0) ∧ datMsg.dataLen ≤ (m + 1) * a.maxPayload := by
  obtain ⟨m, s, hrun, hq, ha, hm, hlen⟩ := FragmentLoop.run_after a datMsg rest hp
    (datMsg.dataLen + 1) 0 (Or.inr rfl) (by omega)
  have hstart : FragmentLoop.after a datMsg rest 0 = { a, streamQ := rest } := by
    simp [FragmentLoop.after, pieces]
  rw [hstart] at hrun
  refine ⟨m, { s.a with lastMsgWasFragment := true }, ?_, ?_, hm, hlen⟩
  · rw [fragmentFront, if_pos hx, hrun, ← hq]
    rfl
  · rw [ha, SendCounters.foldl_count_eq]
    exact ⟨rfl, rfl, rfl⟩

theorem not_exceedsPmtu_nextFragment (hfull : a.assocPmtu.toNat < 2 ^ 31)
    (h4 : 4 ∣ a.assocPmtu.toNat) (h : 48 < a.assocPmtu.toNat) (offset : ℕ) :
    ¬ ExceedsPmtu a.assocPmtu (nextFragment a datMsg offset) := by
  have hint : a.assocPmtu.toInt = a.assocPmtu.toNat := BitVec.toInt_eq_toNat_of_lt (by omega)
  have hlen : (nextFragment a datMsg offset).dataLen ≤ a.assocPmtu.toNat - 48 := by
    rw [dataLen_nextFragment, maxPayload_eq h]
    exact min_le_left _ _
  simp only [exceedsPmtu_iff, hint, SCTPDataMsg.chunkRoom, addPadding, ipHeaderLength,
    sctpCommonHeader, sctpDataChunkLength]
  omega

theorem dvd_of_not_exceedsPmtu (h : 48 < a.assocPmtu.toNat) (hx : ExceedsPmtu a.assocPmtu datMsg)
    (hfits : ¬ ExceedsPmtu a.assocPmtu (nextFragment a datMsg 0)) :
    a.assocPmtu.toNat < 2 ^ 31 ∧ 4 ∣ a.assocPmtu.toNat := by
  have hlen : (nextFragment a datMsg 0).dataLen =
      min (a.assocPmtu.toNat - 48) datMsg.dataLen := by
    rw [dataLen_nextFragment, maxPayload_eq h, Nat.sub_zero]
  simp only [exceedsPmtu_iff, SCTPDataMsg.chunkRoom, addPadding, ipHeaderLength,
    sctpCommonHeader, sctpDataChunkLength, hlen] at hx hfits
  have hsmall : a.assocPmtu.toNat < 2 ^ 31 := by
    by_contra hbig
    have hneg : a.assocPmtu.toInt < 0 := by
      rw [BitVec.toInt_eq_toNat_cond, if_neg (by omega)]
      omega
    omega
  have hint : a.assocPmtu.toInt = a.assocPmtu.toNat := BitVec.toInt_eq_toNat_of_lt (by omega)
  rw [hint] at hx hfits
  exact ⟨hsmall, by omega⟩

theorem isCut_pieces (h : 48 < a.assocPmtu.toNat) (hfull : a.assocPmtu.toNat < 2 ^ 31)
    (h4 : 4 ∣ a.assocPmtu.toNat) (hx : ExceedsPmtu a.assocPmtu datMsg) {m : ℕ}
    (hm : m * a.maxPayload < datMsg.dataLen ∨ m = 0)
    (hlen : datMsg.dataLen ≤ (m + 1) * a.maxPayload) :
    IsCut a.assocPmtu datMsg (pieces a datMsg (m + 1)) := by
  have hp : 0 < a.maxPayload := by
    rw [maxPayload_eq h]
    omega
  have hpos : 0 < datMsg.dataLen := by
    have hint : a.assocPmtu.toInt = a.assocPmtu.toNat := BitVec.toInt_eq_toNat_of_lt (by omega)
    simp only [exceedsPmtu_iff, hint, SCTPDataMsg.chunkRoom, addPadding, ipHeaderLength,
      sctpCommonHeader, sctpDataChunkLength] at hx
    omega
  have hlast : m * a.maxPayload < datMsg.dataLen := by
    rcases hm with hm | rfl
    · exact hm
    · simpa using hpos
  constructor
  case payloads => rw [flatten_pieces, List.take_of_length_le hlen]
  case nonempty =>
    intro f hf hnil
    obtain ⟨i, hi⟩ := List.mem_iff_getElem?.mp hf
    obtain ⟨hlt, rfl⟩ := getElem?_pieces a datMsg hi
    have hstart : i * a.maxPayload ≤ m * a.maxPayload := Nat.mul_le_mul_right _ (by omega)
    have hzero : (nextFragment a datMsg (i * a.maxPayload)).dataLen = 0 := by
      rw [SCTPDataMsg.dataLen, hnil, List.length_nil]
    rw [dataLen_nextFragment] at hzero
    omega
  case bBit =>
    intro i f hi
    obtain ⟨_, rfl⟩ := getElem?_pieces a datMsg hi
    simp [nextFragment, hp.ne']
  case eBit =>
    intro i f hi
    obtain ⟨hlt, rfl⟩ := getElem?_pieces a datMsg hi
    have hstart : i * a.maxPayload ≤ m * a.maxPayload := Nat.mul_le_mul_right _ (by omega)
    have hsucc : (i + 1) * a.maxPayload = i * a.maxPayload + a.maxPayload := Nat.succ_mul _ _
    rw [length_pieces]
    constructor
    · intro he
      have hend : datMsg.dataLen ≤ (i + 1) * a.maxPayload := by
        have he' := eq_of_beq he
        omega
      have hmi : m < i + 1 := Nat.lt_of_mul_lt_mul_right (hlast.trans_le hend)
      omega
    · intro he
      have him : i = m := by omega
      subst him
      apply beq_iff_eq.mpr
      omega
  case fits =>
    intro f hf
    obtain ⟨i, hi⟩ := List.mem_iff_getElem?.mp hf
    obtain ⟨_, rfl⟩ := getElem?_pieces a datMsg hi
    exact not_exceedsPmtu_nextFragment hfull h4 h _

/-- A faithful cut needs an MTU that is a multiple of four. -/
theorem dvd_of_cutFaithfully {rest : List SCTPDataMsg} (h : 48 < a.assocPmtu.toNat)
    (hx : ExceedsPmtu a.assocPmtu datMsg) (hcut : CutFaithfully a datMsg rest) :
    a.assocPmtu.toNat < 2 ^ 31 ∧ 4 ∣ a.assocPmtu.toNat := by
  have hp : 0 < a.maxPayload := by
    rw [maxPayload_eq h]
    omega
  obtain ⟨m, a', hfront, _⟩ := fragmentFront_eq rest hp hx
  obtain ⟨b, fragments, hb, hcut, _⟩ := hcut
  rw [hfront] at hb
  have hfragments : pieces a datMsg (m + 1) = fragments := by
    apply (List.append_left_inj rest).mp
    exact congrArg Prod.snd (Except.ok.inj hb)
  apply dvd_of_not_exceedsPmtu h hx
  apply hcut.fits
  rw [← hfragments, pieces, List.mem_map]
  exact ⟨0, by simp, by rw [Nat.zero_mul]⟩

end Cut

/-- A message that exceeds the path MTU is cut faithfully exactly when the MTU is a multiple of
four; otherwise a full fragment has to be fragmented again. -/
theorem fragmentFront_cutFaithfully_iff (a : SendCounters) (datMsg : SCTPDataMsg)
    (rest : List SCTPDataMsg) (h : 48 < a.assocPmtu.toNat)
    (hx : ExceedsPmtu a.assocPmtu datMsg) :
    CutFaithfully a datMsg rest ↔ a.assocPmtu.toNat < 2 ^ 31 ∧ 4 ∣ a.assocPmtu.toNat := by
  have hp : 0 < a.maxPayload := by
    rw [maxPayload_eq h]
    omega
  constructor
  · exact dvd_of_cutFaithfully h hx
  · intro hpmtu
    obtain ⟨m, a', hfront, hcounts, hm, hlen⟩ := fragmentFront_eq rest hp hx
    exact ⟨a', _, hfront, isCut_pieces h hpmtu.1 hpmtu.2 hx hm hlen, hcounts⟩

/-- A message of `n` bytes. -/
def zeros (n : ℕ) (h : n < 2 ^ 31 - 19) : SCTPDataMsg where
  encapsulatedMsg := { data := List.replicate n 0, short := List.length_replicate.trans_lt h }

theorem chunkRoom_zeros (n : ℕ) (h : n < 2 ^ 31 - 19) :
    (zeros n h).chunkRoom = addPadding (n + sctpDataChunkLength) := by
  simp only [SCTPDataMsg.chunkRoom, SCTPDataMsg.dataLen, SCTPDataMsg.payload, zeros,
    List.length_replicate]

/-- A message of 1500 bytes over Ethernet. -/
theorem fragmentFront_cutFaithfully_iff_1500 :
    CutFaithfully { assocPmtu := 1500 } (zeros 1500 (by decide)) [] ↔
      (1500 : BitVec 32).toNat < 2 ^ 31 ∧ 4 ∣ (1500 : BitVec 32).toNat := by
  apply fragmentFront_cutFaithfully_iff
  · decide
  · rw [ExceedsPmtu, chunkRoom_zeros]
    decide

/-- Over a PPP interface the first fragment of a message of 4452 bytes has 4422 bytes. With header
and padding these are 4440, and the packet has room for 4438. -/
theorem not_cutFaithfully_4470 : ¬ CutFaithfully { assocPmtu := 4470 } (zeros 4452 (by decide)) [] := by
  intro hcut
  have hdvd := dvd_of_cutFaithfully (by decide) (by rw [ExceedsPmtu, chunkRoom_zeros]; decide) hcut
  have hodd : ¬ 4 ∣ (4470 : BitVec 32).toNat := by decide
  exact hodd hdvd.2

end InetManet.SCTP.Fragmentation
