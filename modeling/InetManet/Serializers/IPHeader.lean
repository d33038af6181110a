import InetManet.Serializers.Packets

/-!
# Round trips of IP headers

`serialize` writes the fragment offset of a datagram, which counts bytes, into a field that `parse` masks
with thirteen bits, and neither of them carries the flags. What is encapsulated is only of interest as far
as it is written and read back at all.
-/

namespace InetManet.Serializers

open ByteOrder

/-- The values of the fields that a datagram can have. The offset is a number of bytes. -/
structure IPHeader.InRange (h : IPHeader) : Prop where
  version : 0 ≤ h.version ∧ h.version < 16
  headerLength : 20 ≤ h.headerLength ∧ h.headerLength ≤ 60 ∧ h.headerLength % 4 = 0
  transportProtocol : 0 ≤ h.transportProtocol ∧ h.transportProtocol < 256
  timeToLive : 0 ≤ h.timeToLive ∧ h.timeToLive < 256
  identification : 0 ≤ h.identification ∧ h.identification < 65536
  fragmentOffset : 0 ≤ h.fragmentOffset ∧ h.fragmentOffset ≤ 65528 ∧ h.fragmentOffset % 8 = 0
  diffServCodePoint : 0 ≤ h.diffServCodePoint ∧ h.diffServCodePoint < 256

section

variable (padding : BitVec 32) (dgram : IPDatagram) (buf : Buffer)

/-- The packet that the datagram encapsulates, as it is written behind the header. -/
def writeEncapsulated : Except Fault (Buffer × ℕ) :=
  IPSerializer.encapsulated padding (IPSerializer.icmp padding dgram.encapPacket) dgram.header
    dgram.encapPacket ((IPSerializer.fields dgram.header buf).drop 20)

/-- `parse` gives a datagram with the same header from what `serialize` has written. -/
def RoundTrips : Prop :=
  ∃ buf' n, IPSerializer.serialize padding dgram buf = .ok (buf', n) ∧
    ∃ rounds dest, IPSerializer.parse rounds buf' n = .ok dest ∧ dest.header = dgram.header

/-- The encapsulated packet is written, and read in the bytes that the length field says it has. -/
def PayloadSurvives : Prop :=
  ∃ rest n, writeEncapsulated padding dgram buf = .ok (rest, n) ∧
    ∃ rounds encapPacket, IPSerializer.parseEncapsulated rounds dgram.header.transportProtocol rest
      ((min ((20 + n) % 65536) (20 + n) + (2 ^ 32 - 20)) % 2 ^ 32) = .ok encapPacket

/-- There are no options, no flags and no offset beyond thirteen bits, and the encapsulated packet
survives. -/
structure Survives : Prop where
  headerLength : dgram.header.headerLength = 20
  moreFragments : dgram.header.moreFragments = false
  dontFragment : dgram.header.dontFragment = false
  fragmentOffset : dgram.header.fragmentOffset < 8192
  payload : PayloadSurvives padding dgram buf

end

/-! ## What is in the memory -/

/-- The memory after `serialize`, when `rest` and `n` bytes of it are the encapsulated packet. -/
def written (h : IPHeader) (buf rest : Buffer) (n : ℕ) : Buffer :=
  ((IPSerializer.fields h buf).setDrop 20 rest).write 2 (put16 (BitVec.ofNat 16 (20 + n)))

section

variable {h : IPHeader} {buf rest : Buffer} {n : ℕ}

theorem drop_written : (written h buf rest n).drop 20 = rest := by
  funext j
  rw [Buffer.drop, written, Buffer.write, if_neg (by simp; omega), Buffer.setDrop, if_neg (by omega)]
  congr 1
  omega

theorem totalLength_written : ((written h buf rest n).u16 2).toNat = (20 + n) % 65536 := by
  have hlen : (written h buf rest n).u16 2 = BitVec.ofNat 16 (20 + n) := append_extract16 _
  rw [hlen, BitVec.toNat_ofNat]

theorem headerLength_written : ((written h buf rest n 0).extractLsb' 0 4).toNat = 5 := by
  have hbyte : written h buf rest n 0 = BitVec.ofInt 4 h.version ++ (5 : BitVec 4) := rfl
  rw [hbyte]
  generalize BitVec.ofInt 4 h.version = v
  revert v
  decide

theorem extract_version (v : BitVec 4) : (v ++ (5 : BitVec 4)).extractLsb' 4 4 = v := by
  revert v
  decide

theorem toNat_ofInt_of_range {w : ℕ} {x : ℤ} (hle : 0 ≤ x) (hlt : x < 2 ^ w) :
    ((BitVec.ofInt w x).toNat : ℤ) = x := by
  rw [BitVec.toNat_ofInt]
  push_cast
  rw [Int.toNat_of_nonneg (Int.emod_nonneg _ (by positivity)), Int.emod_eq_of_lt hle hlt]

theorem toNat_offset {x : ℤ} (hle : 0 ≤ x) (hlt : x < 65536) :
    ((BitVec.ofInt 16 x &&& 0x1fff).toNat : ℤ) = x % 8192 := by
  have hnat : (BitVec.ofInt 16 x &&& 0x1fff).toNat = (BitVec.ofInt 16 x).toNat % 8192 := by
    rw [BitVec.toNat_and]
    exact Nat.and_two_pow_sub_one_eq_mod _ 13
  rw [hnat]
  push_cast
  rw [toNat_ofInt_of_range hle (by omega)]

/-- The header that is read: no flags, no options and thirteen bits of the offset. -/
theorem parseHeader_written (hrange : h.InRange) :
    IPSerializer.parseHeader (written h buf rest n) =
      { h with headerLength := 20, moreFragments := false, dontFragment := false,
               fragmentOffset := h.fragmentOffset % 8192 } := by
  have hversion : (written h buf rest n 0).extractLsb' 4 4 = BitVec.ofInt 4 h.version :=
    extract_version _
  have hid : (written h buf rest n).u16 4 = BitVec.ofInt 16 h.identification := append_extract16 _
  have hoff : (written h buf rest n).u16 6 = BitVec.ofInt 16 h.fragmentOffset := append_extract16 _
  have hsrc : (written h buf rest n).u32 12 = h.srcAddress := append_extract32 _
  have hdst : (written h buf rest n).u32 16 = h.destAddress := append_extract32 _
  have htos : written h buf rest n 1 = BitVec.ofInt 8 h.diffServCodePoint := rfl
  have httl : written h buf rest n 8 = BitVec.ofInt 8 h.timeToLive := rfl
  have hproto : written h buf rest n 9 = BitVec.ofInt 8 h.transportProtocol := rfl
  have hoffset := hrange.fragmentOffset
  unfold IPSerializer.parseHeader
  rw [hversion, hid, hoff, hsrc, hdst, htos, httl, hproto,
    toNat_ofInt_of_range hrange.version.1 hrange.version.2,
    toNat_ofInt_of_range hrange.identification.1 hrange.identification.2,
    toNat_ofInt_of_range hrange.diffServCodePoint.1 hrange.diffServCodePoint.2,
    toNat_ofInt_of_range hrange.timeToLive.1 hrange.timeToLive.2,
    toNat_ofInt_of_range hrange.transportProtocol.1 hrange.transportProtocol.2,
    toNat_offset hoffset.1 (by omega)]
  simp

end

/-! ## Round trips -/

theorem map_eq_ok_iff {α β : Type} {f : α → β} {x : Except Fault α} {b : β} :
    x.map f = .ok b ↔ ∃ a, x = .ok a ∧ f a = b := by
  cases x with
  | error e => simp [Except.map]
  | ok a => simp [Except.map]

section

variable {padding : BitVec 32} {dgram : IPDatagram} {buf : Buffer}

theorem serialize_eq :
    IPSerializer.serialize padding dgram buf =
      (writeEncapsulated padding dgram buf).map fun r ↦ (written dgram.header buf r.1 r.2, 20 + r.2) := by
  change (writeEncapsulated padding dgram buf >>= fun r ↦
    Except.ok (written dgram.header buf r.1 r.2, 20 + r.2)) = _
  cases writeEncapsulated padding dgram buf <;> rfl

theorem parse_written {rest : Buffer} {n rounds : ℕ} (hrange : dgram.header.InRange) :
    IPSerializer.parse rounds (written dgram.header buf rest n) (20 + n) =
      (IPSerializer.parseEncapsulated rounds dgram.header.transportProtocol rest
        ((min ((20 + n) % 65536) (20 + n) + (2 ^ 32 - 20)) % 2 ^ 32)).map fun encapPacket ↦
        { header := IPSerializer.parseHeader (written dgram.header buf rest n), encapPacket } := by
  have hprotocol : (IPSerializer.parseHeader (written dgram.header buf rest n)).transportProtocol =
      dgram.header.transportProtocol := by
    rw [parseHeader_written hrange]
  have hdrop : (written dgram.header buf rest n).drop (5 * 4) = rest := drop_written
  unfold IPSerializer.parse
  simp only [totalLength_written, headerLength_written, hdrop, hprotocol]
  cases IPSerializer.parseEncapsulated rounds dgram.header.transportProtocol rest
    ((min ((20 + n) % 65536) (20 + n) + (2 ^ 32 - 20)) % 2 ^ 32) <;> rfl

/-- The fields that do not survive have to have the values that `parse` gives them. -/
theorem header_eq_iff {h : IPHeader} (hrange : h.InRange) :
    { h with headerLength := 20, moreFragments := false, dontFragment := false,
             fragmentOffset := h.fragmentOffset % 8192 } = h ↔
      h.headerLength = 20 ∧ h.moreFragments = false ∧ h.dontFragment = false ∧
        h.fragmentOffset < 8192 := by
  have hoffset := hrange.fragmentOffset
  rw [IPHeader.mk.injEq]
  simp only [true_and]
  constructor
  · rintro ⟨hlen, hmf, hdf, hoff, _⟩
    exact ⟨hlen.symm, hmf.symm, hdf.symm, by omega⟩
  · rintro ⟨hlen, hmf, hdf, hoff⟩
    exact ⟨hlen.symm, hmf.symm, hdf.symm, by omega, trivial⟩

end

/-- A header survives exactly if it has no options, no flags and a small offset, and what it heads can be
written and read. -/
theorem roundTrips_iff_survives (padding : BitVec 32) (dgram : IPDatagram) (hrange : dgram.header.InRange)
    (buf : Buffer) : RoundTrips padding dgram buf ↔ Survives padding dgram buf := by
  have hheader := header_eq_iff hrange
  unfold RoundTrips
  rw [serialize_eq]
  constructor
  · rintro ⟨buf', n, hser, rounds, dest, hparse, hsame⟩
    obtain ⟨⟨rest, m⟩, hwrite, heq⟩ := map_eq_ok_iff.mp hser
    cases heq
    rw [parse_written hrange] at hparse
    obtain ⟨encapPacket, hread, rfl⟩ := map_eq_ok_iff.mp hparse
    have hfields := hheader.mp ((parseHeader_written hrange).symm.trans hsame)
    exact ⟨hfields.1, hfields.2.1, hfields.2.2.1, hfields.2.2.2, rest, m, hwrite, rounds, encapPacket, hread⟩
  · rintro ⟨hlen, hmf, hdf, hoff, rest, n, hwrite, rounds, encapPacket, hread⟩
    refine ⟨_, _, by rw [hwrite]; rfl, rounds, _, by rw [parse_written hrange, hread]; rfl, ?_⟩
    exact (parseHeader_written hrange).trans (hheader.mpr ⟨hlen, hmf, hdf, hoff⟩)

/-- An empty UDP packet in a datagram. -/
def udpDatagram (dontFragment : Bool) : IPDatagram where
  header := {
    version := 4
    headerLength := 20
    srcAddress := 0x0A000001
    destAddress := 0x0A000002
    transportProtocol := 17
    timeToLive := 64
    identification := 1
    moreFragments := false
    dontFragment
    fragmentOffset := 0
    diffServCodePoint := 0 }
  encapPacket := .udp ⟨1, 2, 0⟩

theorem udpDatagram_inRange (dontFragment : Bool) : (udpDatagram dontFragment).header.InRange := by
  cases dontFragment <;> constructor <;> decide

theorem roundTrips_iff_survives_udp :
    (udpDatagram false).header.InRange ∧
      (RoundTrips 0 (udpDatagram false) (fun _ ↦ 0) ↔ Survives 0 (udpDatagram false) fun _ ↦ 0) :=
  ⟨udpDatagram_inRange false, roundTrips_iff_survives 0 (udpDatagram false) (udpDatagram_inRange false) _⟩

/-- A datagram that must not be fragmented loses this flag. -/
theorem not_roundTrips_dontFragment :
    (udpDatagram true).header.InRange ∧ ¬ RoundTrips 0 (udpDatagram true) fun _ ↦ 0 := by
  refine ⟨udpDatagram_inRange true, ?_⟩
  rintro ⟨buf', n, hser, rounds, dest, hparse, hsame⟩
  rw [serialize_eq] at hser
  obtain ⟨r, _, heq⟩ := map_eq_ok_iff.mp hser
  cases heq
  rw [parse_written (udpDatagram_inRange true)] at hparse
  obtain ⟨encapPacket, _, rfl⟩ := map_eq_ok_iff.mp hparse
  have hflag := congrArg IPHeader.dontFragment hsame
  change (IPSerializer.parseHeader _).dontFragment = true at hflag
  rw [parseHeader_written (udpDatagram_inRange true)] at hflag
  cases hflag

end InetManet.Serializers
