import Mathlib.Data.List.GetD
import InetManet.Serializers.Packets

/-!
# Checksums of serialized packets

A checksum goes over the memory as it is. The serializers for UDP and ICMP leave what has been in the place
of the checksum there, and the one for TCP adds the padding of the pseudo header, so that packets are whole
only if these do not count.
-/

namespace InetManet.Serializers

open ByteOrder OnesComplement

/-! ## Memory -/

namespace Buffer

variable (buf : Buffer) (i m n : ℕ) (bs : List Byte)

@[simp] theorem length_take : (buf.take n).length = n := by
  rw [take, List.length_map, List.length_range]

theorem take_add : buf.take (m + n) = buf.take m ++ (buf.drop m).take n := by
  rw [take, List.range_add, List.map_append, List.map_map]
  rfl

theorem mem_take {b : Byte} : b ∈ buf.take n ↔ ∃ j < n, buf j = b := by
  rw [take, List.mem_map]
  simp only [List.mem_range]

theorem take_write (h : i + bs.length ≤ n) :
    (buf.write i bs).take n =
      buf.take i ++ bs ++ (buf.drop (i + bs.length)).take (n - (i + bs.length)) := by
  apply List.ext_getElem
  · simp only [length_take, List.length_append]
    omega
  · intro j hj _
    rw [length_take] at hj
    simp only [take, List.getElem_map, List.getElem_range, write, List.getElem_append, List.length_map,
      List.length_range, List.length_append, drop]
    by_cases hlow : j < i
    · rw [if_neg (by omega), dif_pos (by omega), dif_pos hlow]
    · by_cases hin : j < i + bs.length
      · rw [if_pos (by omega), dif_pos hin, dif_neg hlow, List.getD_eq_getElem _ _ (by omega)]
      · rw [if_neg (by omega), dif_neg hin]
        congr 1
        omega

/-- The words of the first `n` bytes other than the one at `i`. -/
def rest : ℕ := total (buf.take i) + total ((buf.drop (i + 2)).take (n - (i + 2)))

/-- The word at `i`. -/
def wordAt : ℕ := total [buf i, buf (i + 1)]

variable {buf i n} (heven : i % 2 = 0) (hle : i + 2 ≤ n)

include heven hle

theorem total_take : total (buf.take n) = buf.rest i n + buf.wordAt i := by
  obtain ⟨m, rfl⟩ := Nat.exists_eq_add_of_le hle
  have htwo : (buf.drop i).take 2 = [buf i, buf (i + 1)] := rfl
  rw [rest, wordAt, take_add, take_add, htwo, total_append _ (by simp; omega), total_append _ (by simpa),
    Nat.add_sub_cancel_left]
  ring

theorem total_take_write {x : ℕ} (hx : x ≤ 65535) :
    total ((buf.write i (word x)).take n) = buf.rest i n + x := by
  rw [take_write _ _ _ _ hle, total_append _ (by simp [word]; omega), total_append _ (by simpa),
    total_word hx, rest]
  simp only [word, List.length_cons, List.length_nil, Nat.zero_add, Nat.reduceAdd]
  ring

end Buffer

theorem byte_eq_zero_iff (a : Byte) : a = 0 ↔ a.toNat = 0 := BitVec.toNat_eq

theorem byte_eq_ones_iff (a : Byte) : a = 0xff ↔ a.toNat = 255 := BitVec.toNat_eq

theorem total_eq_zero_iff (bs : List Byte) : total bs = 0 ↔ ∀ b ∈ bs, b = 0 := by
  induction bs using total.induct with
  | case1 => simp [total]
  | case2 a => rw [total, List.forall_mem_singleton, byte_eq_zero_iff]
  | case3 a b bs ih =>
    rw [total, Nat.add_eq_zero_iff, Nat.add_eq_zero_iff, ih, List.forall_mem_cons, List.forall_mem_cons,
      byte_eq_zero_iff, byte_eq_zero_iff, and_assoc]
    simp

/-! ## A checksum in its place -/

/-- The place of a checksum holds nothing that counts: zeros, or ones if not all of the packet is zero. -/
def FieldClear (buf : Buffer) (i n : ℕ) : Prop :=
  (buf i = 0 ∧ buf (i + 1) = 0) ∨
    (buf i = 0xff ∧ buf (i + 1) = 0xff ∧ ∃ j < n, j ≠ i ∧ j ≠ i + 1 ∧ buf j ≠ 0)

section

variable {buf : Buffer} {i n : ℕ}

theorem wordAt_mod_iff :
    buf.wordAt i % 65535 = 0 ↔ (buf i = 0 ∧ buf (i + 1) = 0) ∨ (buf i = 0xff ∧ buf (i + 1) = 0xff) := by
  have hlow := (buf i).isLt
  have hhigh := (buf (i + 1)).isLt
  rw [Buffer.wordAt, total, total, Nat.add_zero]
  simp only [byte_eq_zero_iff, byte_eq_ones_iff]
  rcases Nat.lt_or_ge ((buf i).toNat + 256 * (buf (i + 1)).toNat) 65535 with hlt | hge
  · rw [Nat.mod_eq_of_lt hlt]
    omega
  · have hones : (buf i).toNat = 255 ∧ (buf (i + 1)).toNat = 255 := by omega
    rw [hones.1, hones.2]
    decide

theorem wordAt_eq_zero_iff : buf.wordAt i = 0 ↔ buf i = 0 ∧ buf (i + 1) = 0 := by
  rw [Buffer.wordAt, total_eq_zero_iff]
  simp

theorem rest_eq_zero_iff (hle : i + 2 ≤ n) :
    buf.rest i n = 0 ↔ ∀ j < n, j ≠ i → j ≠ i + 1 → buf j = 0 := by
  rw [Buffer.rest, Nat.add_eq_zero_iff, total_eq_zero_iff, total_eq_zero_iff]
  simp only [Buffer.mem_take, forall_exists_index, and_imp, forall_apply_eq_imp_iff₂]
  constructor
  · rintro ⟨hlow, hhigh⟩ j hj hne hne'
    rcases Nat.lt_or_ge j i with hlt | hge
    · exact hlow j hlt
    · have hbyte := hhigh (j - (i + 2)) (by omega)
      have hindex : i + 2 + (j - (i + 2)) = j := by omega
      rwa [Buffer.drop, hindex] at hbyte
  · intro h
    refine ⟨fun j hj ↦ h j (by omega) (by omega) (by omega), fun j hj ↦ ?_⟩
    exact h (i + 2 + j) (by omega) (by omega) (by omega)

theorem fieldClear_iff (hle : i + 2 ≤ n) :
    FieldClear buf i n ↔ buf.wordAt i % 65535 = 0 ∧ (buf.rest i n = 0 → buf.wordAt i = 0) := by
  have hones : buf i = 0xff → ¬ buf i = 0 := by
    intro h h'
    rw [h] at h'
    exact absurd h' (by decide)
  have hrest : buf.rest i n ≠ 0 ↔ ∃ j < n, j ≠ i ∧ j ≠ i + 1 ∧ buf j ≠ 0 := by
    rw [ne_eq, rest_eq_zero_iff hle]
    push Not
    rfl
  rw [FieldClear, ← hrest, wordAt_mod_iff, wordAt_eq_zero_iff]
  tauto

/-- A packet whose checksum is written at `i` is whole exactly if the place has been clear. -/
theorem whole_write_checksum_iff (heven : i % 2 = 0) (hle : i + 2 ≤ n) :
    onesSum ((buf.write i (word (checksum (buf.take n)))).take n) = 65535 ↔ FieldClear buf i n := by
  have hsum : total ((buf.write i (word (checksum (buf.take n)))).take n) =
      buf.rest i n + (65535 - fold (buf.rest i n + buf.wordAt i)) := by
    rw [checksum_eq, Buffer.total_take_write heven hle (Nat.sub_le _ _), Buffer.total_take heven hle]
  rw [onesSum_eq_max_iff, hsum, whole_iff, fieldClear_iff hle]

theorem fieldClear_of_ne {j : ℕ} (hj : j < n) (hne : j ≠ i ∧ j ≠ i + 1) (hbyte : buf j ≠ 0) :
    FieldClear buf i n ↔ (buf i = 0 ∧ buf (i + 1) = 0) ∨ (buf i = 0xff ∧ buf (i + 1) = 0xff) := by
  unfold FieldClear
  constructor
  · rintro (hzero | ⟨hlow, hhigh, _⟩)
    · exact .inl hzero
    · exact .inr ⟨hlow, hhigh⟩
  · rintro (hzero | ⟨hlow, hhigh⟩)
    · exact .inl hzero
    · exact .inr ⟨hlow, hhigh, j, hj, hne.1, hne.2, hbyte⟩

end

/-! ## The packets -/

/-- The packet in the memory is whole. -/
def Whole (r : Buffer × ℕ) : Prop := onesSum (r.1.take r.2) = 65535

/-- The message is serialized to a packet that is whole. -/
def ICMPWhole (padding : BitVec 32) (msg : Packet) (buf : Buffer) : Prop :=
  ∃ r, IPSerializer.icmp padding msg buf = .ok r ∧ Whole r

/-- The segment with its pseudo header is whole. -/
def TCPWhole (msg : TCPSegment) (buf : Buffer) (pseudo : PseudoHeader) : Prop :=
  let r := TCPSerializer.serialize msg buf pseudo
  onesSum (pseudo.wire ++ r.1.take r.2) = 65535

theorem udp_whole_iff (pkt : UDPPacket) (buf : Buffer) :
    Whole (UDPSerializer.serialize pkt buf) ↔ FieldClear (UDPSerializer.fields pkt buf) 6 pkt.byteLength :=
  whole_write_checksum_iff rfl (Nat.le_add_right _ _)

/-! ### ICMP -/

/-- The place of the checksum holds zeros or ones. -/
def ZerosOrOnes (buf : Buffer) : Prop := (buf 2 = 0 ∧ buf 3 = 0) ∨ (buf 2 = 0xff ∧ buf 3 = 0xff)

/-- The message is one that the serializer knows, with what belongs to it, and the place of its checksum is
clear. Only an echo reply can consist of zeros. -/
def ICMPClear (padding : BitVec 32) : Packet → Buffer → Prop
  | .icmpEcho type _ pp, buf =>
    (type = ICMPSerializer.echoRequest ∧ 4 ≤ pp.byteLength ∧ ZerosOrOnes buf) ∨
      (type = ICMPSerializer.echoReply ∧ FieldClear (ICMPSerializer.echo 0 pp pp.data buf).1 2
        (8 + pp.data.length))
  | .icmpError type _ dgram encapPacket, buf =>
    (type = ICMPSerializer.destinationUnreachable ∨ type = ICMPSerializer.timeExceeded) ∧
      ZerosOrOnes buf ∧ ∃ r, IPSerializer.serialize padding ⟨dgram, encapPacket⟩ (buf.drop 8) = .ok r
  | _, _ => False

section

variable {buf : Buffer}

theorem finish_whole_iff {r : Buffer × ℕ} (h : 4 ≤ r.2) :
    Whole (ICMPSerializer.finish r) ↔ FieldClear r.1 2 r.2 :=
  whole_write_checksum_iff rfl h

theorem not_whole_unknown : ¬ Whole (ICMPSerializer.finish (buf, 0)) := by
  intro h
  exact absurd h (by decide : ¬ onesSum [] = 65535)

theorem echo_fieldClear_iff {type : Byte} {pp : PingPayload} {data : List Byte} (htype : type ≠ 0) :
    FieldClear (ICMPSerializer.echo type pp data buf).1 2 (8 + data.length) ↔ ZerosOrOnes buf := by
  rw [fieldClear_of_ne (j := 0) (by omega) (by omega) (by simpa [ICMPSerializer.echo, Buffer.write])]
  simp [ICMPSerializer.echo, Buffer.write, ZerosOrOnes, put16]

/-- The datagram stands behind the header, which does not touch it. -/
theorem error_fieldClear_iff {type code : Byte} {rest : Buffer} {n : ℕ} (htype : type ≠ 0) :
    FieldClear ((buf.write 0 [type, code]).setDrop 8 rest) 2 (8 + n) ↔ ZerosOrOnes buf := by
  rw [fieldClear_of_ne (j := 0) (by omega) (by omega) (by simpa [Buffer.setDrop, Buffer.write])]
  simp [Buffer.setDrop, Buffer.write, ZerosOrOnes]

theorem drop_write_header (type code : Byte) : (buf.write 0 [type, code]).drop 8 = buf.drop 8 := by
  funext j
  rw [Buffer.drop, Buffer.write, if_neg (by simp; omega)]
  rfl

/-- An error message is whole if its datagram can be serialized and the place of its checksum is clear. -/
theorem error_whole_iff {type code : Byte} {dgram : Buffer → Except Fault (Buffer × ℕ)}
    (htype : type ≠ 0) :
    (∃ r, (ICMPSerializer.error type code dgram buf).map ICMPSerializer.finish = .ok r ∧ Whole r) ↔
      ZerosOrOnes buf ∧ ∃ r, dgram (buf.drop 8) = .ok r := by
  unfold ICMPSerializer.error
  simp only [drop_write_header]
  cases hdgram : dgram (buf.drop 8) with
  | error f =>
    constructor
    · rintro ⟨r, hr, _⟩
      cases hr
    · rintro ⟨_, r, hr⟩
      cases hr
  | ok r =>
    have hwhole := @finish_whole_iff ((buf.write 0 [type, code]).setDrop 8 r.1, 8 + r.2)
      (by change 4 ≤ 8 + r.2; omega)
    rw [error_fieldClear_iff htype] at hwhole
    constructor
    · rintro ⟨_, hr, hr'⟩
      cases hr
      exact ⟨hwhole.mp hr', r, rfl⟩
    · rintro ⟨hclear, _⟩
      exact ⟨_, rfl, hwhole.mpr hclear⟩

theorem exists_ok_iff {r : Buffer × ℕ} :
    (∃ r', (Except.ok r : Except Fault (Buffer × ℕ)) = .ok r' ∧ Whole r') ↔ Whole r :=
  ⟨fun ⟨_, heq, h⟩ ↦ by cases heq; exact h, fun h ↦ ⟨r, rfl, h⟩⟩

theorem not_exists_error {f : Fault} :
    ¬ ∃ r, (Except.error f : Except Fault (Buffer × ℕ)) = .ok r ∧ Whole r :=
  fun ⟨_, heq, _⟩ ↦ by cases heq

end

theorem icmp_whole_iff (padding : BitVec 32) (msg : Packet) (buf : Buffer) :
    ICMPWhole padding msg buf ↔ ICMPClear padding msg buf := by
  unfold ICMPWhole
  cases msg with
  | udp | tcp | sctp => exact iff_of_false not_exists_error id
  | icmpEcho type code pp =>
    rw [IPSerializer.icmp, ICMPClear]
    by_cases hrequest : type = ICMPSerializer.echoRequest
    · have hreply : type ≠ ICMPSerializer.echoReply := by rw [hrequest]; decide
      rw [if_pos hrequest]
      simp only [hrequest, true_and]
      have hne : ¬ ICMPSerializer.echoRequest = ICMPSerializer.echoReply := by decide
      simp only [hne, false_and, or_false]
      split
      · exact iff_of_false not_exists_error (by omega)
      · rename_i hlen
        rw [exists_ok_iff, finish_whole_iff (by simp [ICMPSerializer.echo]; omega)]
        exact (echo_fieldClear_iff (by decide)).trans (by simp; omega)
    · rw [if_neg hrequest]
      by_cases hreply : type = ICMPSerializer.echoReply
      · rw [if_pos hreply, exists_ok_iff, finish_whole_iff (by simp [ICMPSerializer.echo]; omega)]
        have hne : ¬ ICMPSerializer.echoReply = ICMPSerializer.echoRequest := by decide
        rw [hreply]
        simp only [hne, false_and, true_and, false_or]
        rfl
      · rw [if_neg hreply]
        simp only [hrequest, hreply, false_and, or_false]
        split
        · exact iff_of_false not_exists_error id
        · rw [exists_ok_iff]
          exact iff_of_false not_whole_unknown id
  | icmpError type code dgram encapPacket =>
    rw [IPSerializer.icmp, ICMPClear]
    by_cases hdest : type = ICMPSerializer.destinationUnreachable
    · simp only [hdest, true_or, true_and, if_true]
      exact error_whole_iff (by decide)
    · by_cases htime : type = ICMPSerializer.timeExceeded
      · have hne : ¬ ICMPSerializer.timeExceeded = ICMPSerializer.destinationUnreachable := by decide
        rw [htime]
        simp only [hne, or_true, true_and, if_true, if_false]
        exact error_whole_iff (by decide)
      · simp only [hdest, htime, or_self, false_and, if_false]
        split
        · exact iff_of_false not_exists_error id
        · rw [exists_ok_iff]
          exact iff_of_false not_whole_unknown id
  | icmpEmpty type code =>
    rw [IPSerializer.icmp, ICMPClear]
    split
    · exact iff_of_false not_exists_error id
    · rw [exists_ok_iff]
      exact iff_of_false not_whole_unknown id
    all_goals exact fun _ _ _ ↦ nofun

/-! ### TCP -/

theorem length_wire (pseudo : PseudoHeader) : pseudo.wire.length = 12 := rfl

theorem length_memory (pseudo : PseudoHeader) : pseudo.memory.length = 24 := rfl

theorem total_memory (pseudo : PseudoHeader) :
    total pseudo.memory = total pseudo.wire + total (put32 pseudo.padding) := by
  have hzero : (0 : Byte).toNat = 0 := rfl
  simp only [PseudoHeader.memory, PseudoHeader.wire, put32, put16, List.cons_append, List.nil_append, total,
    hzero]
  ring

theorem tcp_whole_iff (msg : TCPSegment) (buf : Buffer) (pseudo : PseudoHeader) :
    TCPWhole msg buf pseudo ↔ total (put32 pseudo.padding) % 65535 = 0 := by
  have hle : 16 + 2 ≤ msg.byteLength := by
    unfold TCPSegment.byteLength
    omega
  have hfield : (TCPSerializer.fields msg buf).wordAt 16 = 0 := by
    rw [wordAt_eq_zero_iff]
    exact ⟨rfl, rfl⟩
  have hrest : (TCPSerializer.fields msg buf).rest 16 msg.byteLength ≠ 0 := by
    intro hzero
    have hoff := (rest_eq_zero_iff hle).mp hzero 12 (by omega) (by decide) (by decide)
    exact absurd hoff (by change ¬ (0x50 : Byte) = 0; decide)
  unfold TCPWhole TCPSerializer.serialize
  dsimp only
  rw [onesSum_eq_max_iff, checksum_eq, total_append _ (by rw [length_wire]), total_append _ (by rw [length_memory]),
    Buffer.total_take_write rfl hle (Nat.sub_le _ _), Buffer.total_take rfl hle, hfield, total_memory]
  have hwhole := whole_iff (total pseudo.wire + (TCPSerializer.fields msg buf).rest 16 msg.byteLength)
    (total (put32 pseudo.padding))
  have horder : total pseudo.wire + total (put32 pseudo.padding) +
      ((TCPSerializer.fields msg buf).rest 16 msg.byteLength + 0) =
      total pseudo.wire + (TCPSerializer.fields msg buf).rest 16 msg.byteLength +
        total (put32 pseudo.padding) := by
    ring
  rw [horder, ← Nat.add_assoc, hwhole]
  omega

/-! ## All packets -/

/-- Which packets are whole: for UDP and ICMP those with a clear place for the checksum, and for TCP those
with a padding that does not count. -/
theorem serialized_whole_iff (pkt : UDPPacket) (padding : BitVec 32) (msg : Packet) (segment : TCPSegment)
    (pseudo : PseudoHeader) (buf : Buffer) :
    (Whole (UDPSerializer.serialize pkt buf) ↔
      FieldClear (UDPSerializer.fields pkt buf) 6 pkt.byteLength) ∧
    (ICMPWhole padding msg buf ↔ ICMPClear padding msg buf) ∧
    (TCPWhole segment buf pseudo ↔ total (put32 pseudo.padding) % 65535 = 0) :=
  ⟨udp_whole_iff pkt buf, icmp_whole_iff padding msg buf, tcp_whole_iff segment buf pseudo⟩

/-- An empty ping with an identifier. -/
def smallPing : PingPayload := ⟨1, 1, [], 4⟩

/-- In memory that holds ones everywhere no empty UDP packet and no ping is whole, and no segment if the
padding holds a one. -/
theorem not_whole_ones :
    ¬ Whole (UDPSerializer.serialize ⟨1, 1, 0⟩ fun _ ↦ 1) ∧
      ¬ ICMPWhole 0 (.icmpEcho ICMPSerializer.echoRequest 0 smallPing) (fun _ ↦ 1) ∧
      ¬ TCPWhole ⟨1, 1, 0, 0, false, false, false, false, false, false, 0, 0, 0⟩ (fun _ ↦ 0)
        ⟨0, 0, 6, 20, 1⟩ := by
  refine ⟨fun h ↦ ?_, fun h ↦ ?_, fun h ↦ ?_⟩
  · rcases (udp_whole_iff _ _).mp h with ⟨hlow, _⟩ | ⟨hlow, _⟩
    · exact absurd hlow (by decide)
    · exact absurd hlow (by decide)
  · rcases (icmp_whole_iff _ _ _).mp h with ⟨_, _, ⟨hlow, _⟩ | ⟨hlow, _⟩⟩ | ⟨htype, _⟩
    · exact absurd hlow (by decide)
    · exact absurd hlow (by decide)
    · exact absurd htype (by decide)
  · exact absurd ((tcp_whole_iff _ _ _).mp h) (by decide)

end InetManet.Serializers
