import InetManet.SCTP.Serializer

/-!
# Round trips through the wire format

What `serialize` writes for a chunk and what `parse` reads meet at `Written`: the bytes of a chunk are
read back as the chunk, whatever follows them, and both functions move on by the same length.
`Faithful` says for which chunks this is so. It leaves out what the serializer does not write or the
parser does not read back: the address and the time of a HEARTBEAT, the length of an ERROR chunk,
unrecognized parameters, a state cookie in an INIT_ACK and a cookie array in a COOKIE_ECHO.
-/

namespace InetManet.SCTP

open TransitionSystem ByteOrder

/-- `parse` gives back the message that was serialized. -/
def RoundTrips (msg : SCTPMessage) : Prop :=
  ∃ buf, serialize msg = .ok buf ∧ ∃ rounds, parse rounds buf = .ok msg

/-! ## Messages that survive -/

/-- A whole number of seconds that fits into 32 bits. -/
def WholeSeconds (t : ℕ) : Prop := t % picoseconds = 0 ∧ t / picoseconds < 2 ^ 32

def Address.IsV4 : Address → Prop
  | .v4 _ => True
  | .v6 _ => False

/-- The offset of a TSN in a gap block fits into 16 bits. -/
def GapInRange (cumTsnAck tsn : BitVec 32) : Prop := (tsn - cumTsnAck).toNat < 2 ^ 16

namespace SCTPChunk

/-- How far `serialize` moves on. -/
def wireLength : SCTPChunk → ℕ
  | .data c => addPadding c.byteLength
  | .init c => 28 + 8 * c.addresses.length
  | .initAck c => 32 + 8 * c.addresses.length + c.cookie.length
  | .sack c => c.byteLength
  | .heartbeat c => c.byteLength
  | .heartbeatAck c => c.byteLength
  | .abort _ byteLength => byteLength
  | .shutdown _ byteLength => byteLength
  | .shutdownAck byteLength => byteLength
  | .error _ => 4
  | .cookieEcho c => addPadding c.byteLength
  | .cookieAck byteLength => byteLength
  | .shutdownComplete _ byteLength => byteLength

/-- The parser moves on by the padded length, which the serializer does not do for the cookie of an
INIT_ACK. -/
def Aligned : SCTPChunk → Prop
  | .initAck c => c.cookie.length % 4 = 0
  | _ => True

/-- What the serializer writes of the chunk is what the parser makes of it. -/
def Faithful : SCTPChunk → Prop
  | .data c => ∃ d, c.data = some d ∧ d ≠ [] ∧ c.byteLength = 16 + d.length ∧ c.byteLength < 2 ^ 16
  | .init c => (∀ a ∈ c.addresses, a.IsV4) ∧ c.unrecognizedParameters = [] ∧
      28 + 8 * c.addresses.length < 2 ^ 16
  | .initAck c => (∀ a ∈ c.addresses, a.IsV4) ∧ c.unrecognizedParameters = [] ∧ c.cookie ≠ [] ∧
      c.stateCookie = none ∧ 32 + 8 * c.addresses.length + c.cookie.length < 2 ^ 16
  | .sack c => (∀ g ∈ c.gaps, GapInRange c.cumTsnAck g.1 ∧ GapInRange c.cumTsnAck g.2) ∧
      c.byteLength = 16 + 4 * c.gaps.length + 4 * c.dupTsns.length ∧ c.byteLength < 2 ^ 16
  | .heartbeat c => c.remoteAddr = .v4 0 ∧ c.timeField = 0 ∧ c.info = List.replicate 8 0 ∧
      c.byteLength = 16
  | .heartbeatAck c => c.remoteAddr.IsV4 ∧ WholeSeconds c.timeField ∧ c.info = [] ∧
      c.byteLength = 16
  | .abort _ byteLength => 4 ≤ byteLength ∧ byteLength < 2 ^ 16
  | .shutdown _ byteLength => 8 ≤ byteLength ∧ byteLength % 4 = 0 ∧ byteLength < 2 ^ 16
  | .error _ => False
  | .cookieEcho c => c.cookie = [] ∧ c.unrecognizedParameters = [] ∧ 80 ≤ c.byteLength ∧
      c.byteLength < 2 ^ 16 ∧ ∃ cookie, c.stateCookie = some cookie ∧
        cookie.localTieTag.length = 32 ∧ cookie.peerTieTag.length = 32 ∧
        WholeSeconds cookie.creationTime
  | .shutdownAck byteLength | .cookieAck byteLength | .shutdownComplete _ byteLength =>
      4 ≤ byteLength ∧ byteLength % 4 = 0 ∧ byteLength < 2 ^ 16

end SCTPChunk

/-- Every chunk is faithful, only the last one may be unaligned, and all fit into the buffer. -/
def SCTPMessage.Faithful (msg : SCTPMessage) : Prop :=
  (∀ c ∈ msg.chunks, c.Faithful) ∧ (∀ c ∈ msg.chunks.dropLast, c.Aligned) ∧
    (msg.chunks.map SCTPChunk.wireLength).sum + 3 < 2 ^ 32

/-! ## One chunk -/

/-- `serialize` writes `bs` for the chunk and moves on by `n`; `parse` reads the chunk back and moves
on as far, up to the padding. -/
structure Written (c : SCTPChunk) (bs : List Byte) (n : ℕ) : Prop where
  serialize : ∀ b, serializeChunk b c = .ok (b.write bs n)
  length_le : bs.length ≤ n
  length_pos : 0 < n
  parse : ∀ r, parseChunk (bs ++ r) = .ok (some c)
  moves : ∀ r, n ≤ cLen (bs ++ r) ∧ cLen (bs ++ r) ≤ n + 3
  aligned : c.Aligned → ∀ r, cLen (bs ++ r) = n

section Header

variable (type flag : Byte) {length : ℕ} (r : List Byte)

theorem chunkType_header : chunkType (chunkHeader type flag length ++ r) = type.toNat := rfl

theorem flags_header : flags (chunkHeader type flag length ++ r) = flag := rfl

theorem chunkLength_header (h : length < 2 ^ 16) :
    chunkLength (chunkHeader type flag length ++ r) = length := by
  have hu16 : u16 (chunkHeader type flag length ++ r) 2 = BitVec.ofNat 16 length :=
    append_extract16 _
  unfold chunkLength
  rw [hu16, BitVec.toNat_ofNat, Nat.mod_eq_of_lt h]

theorem cLen_header (h : length < 2 ^ 16) (htype : type.toNat ≠ 6) :
    cLen (chunkHeader type flag length ++ r) = addPadding length := by
  unfold cLen
  rw [chunkType_header, if_neg htype, chunkLength_header _ _ _ h]

end Header

theorem addPadding_of_dvd {n : ℕ} (h : n % 4 = 0) : addPadding n = n := by
  unfold addPadding
  omega

theorem addPadding_bounds (n : ℕ) : n ≤ addPadding n ∧ addPadding n ≤ n + 3 := by
  unfold addPadding
  omega

theorem need_of_le {bs : List Byte} {n : ℕ} (h : n ≤ bs.length) : need bs n = .ok () := if_pos h

/-- All chunks but ABORT and INIT_ACK are padded by both functions. -/
theorem written_padded {c : SCTPChunk} {type flag : Byte} {length n : ℕ} {body : List Byte}
    (hserialize : ∀ b, serializeChunk b c = .ok (b.write (chunkHeader type flag length ++ body) n))
    (hparse : ∀ r, parseChunk (chunkHeader type flag length ++ (body ++ r)) = .ok (some c))
    (hlength : length < 2 ^ 16) (htype : type.toNat ≠ 6) (hbody : 4 + body.length ≤ n)
    (hn : addPadding length = n) : Written c (chunkHeader type flag length ++ body) n := by
  have hcLen (r : List Byte) : cLen (chunkHeader type flag length ++ body ++ r) = n := by
    rw [List.append_assoc, cLen_header _ _ _ hlength htype, hn]
  constructor
  · exact hserialize
  · rw [List.length_append]
    exact hbody
  · omega
  · intro r
    rw [List.append_assoc]
    exact hparse r
  · intro r
    rw [hcLen]
    omega
  · exact fun _ ↦ hcLen

theorem need_header (type flag : Byte) (length : ℕ) (r : List Byte) :
    need (chunkHeader type flag length ++ r) 4 = .ok () :=
  need_of_le (by simp [chunkHeader])

section Chunks

variable {byteLength : ℕ}

theorem written_abort (tBit : Bool) (h : (SCTPChunk.abort tBit byteLength).Faithful) :
    Written (.abort tBit byteLength) (chunkHeader 6 (flag tBit 1) byteLength) byteLength := by
  have hcLen (r : List Byte) : cLen (chunkHeader 6 (flag tBit 1) byteLength ++ r) = byteLength := by
    unfold cLen
    rw [chunkType_header, if_pos (by decide), chunkLength_header _ _ _ h.2]
  constructor
  · exact fun _ ↦ rfl
  · exact h.1
  · exact Nat.lt_of_lt_of_le (by decide) h.1
  · intro r
    unfold parseChunk
    rw [need_header, ok_bind, chunkType_header, flags_header, hcLen]
    cases tBit <;> rfl
  · intro r
    rw [hcLen]
    omega
  · exact fun _ ↦ hcLen

theorem written_shutdown (cumTsnAck : BitVec 32)
    (h : (SCTPChunk.shutdown cumTsnAck byteLength).Faithful) :
    Written (.shutdown cumTsnAck byteLength) (chunkHeader 7 0 byteLength ++ put32 cumTsnAck)
      byteLength := by
  obtain ⟨hmin, hdvd, hmax⟩ := h
  apply written_padded (fun _ ↦ rfl) _ hmax (by decide) hmin (addPadding_of_dvd hdvd)
  intro r
  have hcum : u32 (chunkHeader 7 0 byteLength ++ (put32 cumTsnAck ++ r)) 4 = cumTsnAck :=
    append_extract32 cumTsnAck
  have hneed : need (chunkHeader 7 0 byteLength ++ (put32 cumTsnAck ++ r)) 8 = .ok () :=
    need_of_le (by simp [chunkHeader]; omega)
  unfold parseChunk
  rw [need_header, ok_bind, chunkType_header, cLen_header _ _ _ hmax (by decide),
    addPadding_of_dvd hdvd, hcum]
  change (need _ 8 >>= _) = _
  rw [hneed]
  rfl

theorem written_bare {c : SCTPChunk} {type flag : Byte}
    (hserialize : ∀ b, serializeChunk b c = .ok (b.write (chunkHeader type flag byteLength) byteLength))
    (hparse : ∀ r, cLen (chunkHeader type flag byteLength ++ r) = byteLength →
      parseChunk (chunkHeader type flag byteLength ++ r) = .ok (some c))
    (htype : type.toNat ≠ 6)
    (h : 4 ≤ byteLength ∧ byteLength % 4 = 0 ∧ byteLength < 2 ^ 16) :
    Written c (chunkHeader type flag byteLength ++ []) byteLength := by
  obtain ⟨hmin, hdvd, hmax⟩ := h
  apply written_padded _ _ hmax htype hmin (addPadding_of_dvd hdvd)
  · intro b
    rw [List.append_nil]
    exact hserialize b
  · intro r
    apply hparse
    rw [cLen_header _ _ _ hmax htype, addPadding_of_dvd hdvd]

theorem written_shutdownAck (h : (SCTPChunk.shutdownAck byteLength).Faithful) :
    Written (.shutdownAck byteLength) (chunkHeader 8 0 byteLength ++ []) byteLength := by
  apply written_bare (fun _ ↦ rfl) _ (by decide) h
  intro r hcLen
  unfold parseChunk
  rw [need_header, ok_bind, chunkType_header, hcLen]
  rfl

theorem written_cookieAck (h : (SCTPChunk.cookieAck byteLength).Faithful) :
    Written (.cookieAck byteLength) (chunkHeader 11 0 byteLength ++ []) byteLength := by
  apply written_bare (fun _ ↦ rfl) _ (by decide) h
  intro r hcLen
  unfold parseChunk
  rw [need_header, ok_bind, chunkType_header, hcLen]
  rfl

theorem written_shutdownComplete (tBit : Bool)
    (h : (SCTPChunk.shutdownComplete tBit byteLength).Faithful) :
    Written (.shutdownComplete tBit byteLength)
      (chunkHeader 14 (flag tBit 1) byteLength ++ []) byteLength := by
  apply written_bare (fun _ ↦ rfl) _ (by decide) h
  intro r hcLen
  unfold parseChunk
  rw [need_header, ok_bind, chunkType_header, flags_header, hcLen]
  cases tBit <;> rfl

theorem dataFlags_bits (c : WireData) :
    (dataFlags c).getLsbD 2 = c.uBit ∧ (dataFlags c).getLsbD 1 = c.bBit ∧
      (dataFlags c).getLsbD 0 = c.eBit := by
  unfold dataFlags
  cases c.uBit <;> cases c.bBit <;> cases c.eBit <;> decide

theorem written_data (c : WireData) (h : (SCTPChunk.data c).Faithful) :
    ∃ bs, Written (.data c) bs (addPadding c.byteLength) := by
  obtain ⟨d, hd, hne, hlen, hmax⟩ := h
  have hpos : 0 < d.length := List.length_pos_of_ne_nil hne
  have hwritten : Written (.data c) (chunkHeader 0 (dataFlags c) c.byteLength ++ (dataFields c ++ d))
      (addPadding c.byteLength) := by
    apply written_padded _ _ hmax (by decide) _ rfl
    · intro b
      simp only [serializeChunk, hd]
    · intro r
      have htsn : u32 (chunkHeader 0 (dataFlags c) c.byteLength ++ (dataFields c ++ d ++ r)) 4 = c.tsn :=
        append_extract32 c.tsn
      have hsid : u16 (chunkHeader 0 (dataFlags c) c.byteLength ++ (dataFields c ++ d ++ r)) 8 = c.sid :=
        append_extract16 c.sid
      have hssn : u16 (chunkHeader 0 (dataFlags c) c.byteLength ++ (dataFields c ++ d ++ r)) 10 =
        c.ssn := append_extract16 c.ssn
      have hppid : u32 (chunkHeader 0 (dataFlags c) c.byteLength ++ (dataFields c ++ d ++ r)) 12 =
        c.ppid := append_extract32 c.ppid
      have hbytes : bytes (chunkHeader 0 (dataFlags c) c.byteLength ++ (dataFields c ++ d ++ r)) 16
          (c.byteLength - 16) = d := by
        rw [List.append_assoc, ← List.append_assoc]
        exact (bytes_append _ (d ++ r) 0 _).trans (bytes_self d r _ (by omega))
      have hneed (n : ℕ) (hn : n ≤ 16 + d.length) :
          need (chunkHeader 0 (dataFlags c) c.byteLength ++ (dataFields c ++ d ++ r)) n = .ok () := by
        apply need_of_le
        simp only [chunkHeader, dataFields, List.length_append, put16_length, put32_length,
          List.length_cons, List.length_nil]
        omega
      obtain ⟨hu, hb, he⟩ := dataFlags_bits c
      unfold parseChunk
      rw [need_header, ok_bind, chunkType_header]
      change some <$> parseData _ = _
      unfold parseData
      have hnz : addPadding c.byteLength ≠ 0 := by
        have := (addPadding_bounds c.byteLength).1
        omega
      simp only [chunkLength_header _ _ _ hmax, if_neg hnz, hneed 16 (by omega), ok_bind,
        if_pos (show 16 < c.byteLength by omega), hneed c.byteLength (by omega), flags_header, htsn, hsid,
        hssn, hppid, hbytes, hu, hb, he, ← hd]
      rfl
    · have := (addPadding_bounds c.byteLength).1
      simp only [dataFields, List.length_append, put32_length, put16_length]
      omega
  exact ⟨_, hwritten⟩

theorem gap_offset {cumTsnAck tsn : BitVec 32} (h : GapInRange cumTsnAck tsn) :
    ((tsn - cumTsnAck).setWidth 16).setWidth 32 + cumTsnAck = tsn := by
  have hoffset : ((tsn - cumTsnAck).setWidth 16).setWidth 32 = tsn - cumTsnAck := by
    apply BitVec.eq_of_toNat_eq
    unfold GapInRange at h
    rw [BitVec.toNat_setWidth, BitVec.toNat_setWidth, Nat.mod_eq_of_lt h, Nat.mod_eq_of_lt (by omega)]
  rw [hoffset]
  exact BitVec.sub_add_cancel tsn cumTsnAck

theorem u16_at (l r : List Byte) (x : BitVec 16) : u16 (l ++ (put16 x ++ r)) l.length = x :=
  (u16_append l _ 0).trans (u16_put16 r x)

theorem u32_at (l r : List Byte) (x : BitVec 32) : u32 (l ++ (put32 x ++ r)) l.length = x :=
  (u32_append l _ 0).trans (u32_put32 r x)

theorem sackGaps_read (cum : BitVec 32) (gaps : List (BitVec 32 × BitVec 32)) (l r : List Byte)
    (h : ∀ g ∈ gaps, GapInRange cum g.1 ∧ GapInRange cum g.2) :
    (List.range gaps.length).map (fun i ↦
      ((u16 (l ++ (gaps.flatMap (sackGap cum) ++ r)) (l.length + 4 * i)).setWidth 32 + cum,
        (u16 (l ++ (gaps.flatMap (sackGap cum) ++ r)) (l.length + 4 * i + 2)).setWidth 32 + cum)) =
      gaps := by
  have hread (g : BitVec 32 × BitVec 32) (hg : g ∈ gaps) (l r : List Byte) :
      ((u16 (l ++ (sackGap cum g ++ r)) l.length).setWidth 32 + cum,
        (u16 (l ++ (sackGap cum g ++ r)) (l.length + 2)).setWidth 32 + cum) = g := by
    have hstop : u16 (sackGap cum g ++ r) 2 = (g.2 - cum).setWidth 16 := append_extract16 _
    rw [u16_append, hstop, sackGap, List.append_assoc, u16_at, gap_offset (h g hg).1,
      gap_offset (h g hg).2]
  exact (map_range_blocks l r (sackGap cum) (fun bs i ↦ ((u16 bs i).setWidth 32 + cum,
    (u16 bs (i + 2)).setWidth 32 + cum)) id (fun _ ↦ rfl) gaps hread).trans (List.map_id gaps)

theorem written_sack (c : SackChunk) (h : (SCTPChunk.sack c).Faithful) :
    ∃ bs, Written (.sack c) bs c.byteLength := by
  obtain ⟨hgaps, hlen, hmax⟩ := h
  have hpadding : addPadding c.byteLength = c.byteLength := addPadding_of_dvd (by omega)
  have hgapsLen : (c.gaps.flatMap (sackGap c.cumTsnAck)).length = 4 * c.gaps.length := by
    rw [List.length_flatMap]
    simp [sackGap, Nat.mul_comm]
  have hdupsLen : (c.dupTsns.flatMap put32).length = 4 * c.dupTsns.length := by
    rw [List.length_flatMap]
    simp [Nat.mul_comm]
  have hwritten : Written (.sack c) (chunkHeader 3 0 c.byteLength ++ (sackFields c ++
      (c.gaps.flatMap (sackGap c.cumTsnAck) ++ c.dupTsns.flatMap put32))) c.byteLength := by
    apply written_padded (fun _ ↦ rfl) _ hmax (by decide) _ hpadding
    · intro r
      generalize hbs : chunkHeader 3 0 c.byteLength ++ (sackFields c ++
        (c.gaps.flatMap (sackGap c.cumTsnAck) ++ c.dupTsns.flatMap put32) ++ r) = bs
      have hcum : u32 bs 4 = c.cumTsnAck := by
        rw [← hbs]
        exact append_extract32 c.cumTsnAck
      have hrwnd : u32 bs 8 = c.a_rwnd := by
        rw [← hbs]
        exact append_extract32 c.a_rwnd
      have hngaps : (u16 bs 12).toNat = c.gaps.length := by
        have hu16 : u16 bs 12 = BitVec.ofNat 16 c.gaps.length := by
          rw [← hbs]
          exact append_extract16 _
        rw [hu16, BitVec.toNat_ofNat, Nat.mod_eq_of_lt (by omega)]
      have hndups : (u16 bs 14).toNat = c.dupTsns.length := by
        have hu16 : u16 bs 14 = BitVec.ofNat 16 c.dupTsns.length := by
          rw [← hbs]
          exact append_extract16 _
        rw [hu16, BitVec.toNat_ofNat, Nat.mod_eq_of_lt (by omega)]
      have hfixed : (chunkHeader 3 0 c.byteLength ++ sackFields c).length = 16 := rfl
      have hlength : c.byteLength ≤ bs.length := by
        rw [← hbs]
        simp only [chunkHeader, sackFields, List.length_append, put32_length, put16_length,
          List.length_cons, List.length_nil, hgapsLen, hdupsLen]
        omega
      have hcLen : cLen bs = c.byteLength := by
        rw [← hbs, cLen_header _ _ _ hmax (by decide), hpadding]
      have hparseGaps : (List.range c.gaps.length).map (fun i ↦
          ((u16 bs (16 + 4 * i)).setWidth 32 + c.cumTsnAck,
            (u16 bs (16 + 4 * i + 2)).setWidth 32 + c.cumTsnAck)) = c.gaps := by
        have hblocks := sackGaps_read c.cumTsnAck c.gaps (chunkHeader 3 0 c.byteLength ++ sackFields c)
          (c.dupTsns.flatMap put32 ++ r) hgaps
        rw [hfixed] at hblocks
        rw [← hbs]
        simpa only [List.append_assoc] using hblocks
      have hparseDups : (List.range c.dupTsns.length).map (fun i ↦
          u32 bs (16 + 4 * c.gaps.length + 4 * i)) = c.dupTsns := by
        have hblocks := map_range_blocks (chunkHeader 3 0 c.byteLength ++ sackFields c ++
          c.gaps.flatMap (sackGap c.cumTsnAck)) r put32 u32 id put32_length c.dupTsns
          fun x _ l r ↦ u32_at l r x
        rw [List.length_append, hfixed, hgapsLen] at hblocks
        rw [← hbs]
        simpa only [List.append_assoc, List.map_id] using hblocks
      unfold parseChunk
      rw [need_of_le (by omega), ok_bind, show chunkType bs = 3 by rw [← hbs]; rfl]
      change some <$> parseSack bs = _
      unfold parseSack
      simp only [need_of_le (show 16 ≤ bs.length by omega), ok_bind, hngaps, hndups,
        need_of_le (show 16 + 4 * c.gaps.length + 4 * c.dupTsns.length ≤ bs.length by omega), hcum,
        hrwnd, hparseGaps, hparseDups, hcLen]
      rfl
    · simp only [sackFields, List.length_append, put32_length, put16_length, hgapsLen, hdupsLen]
      omega
  exact ⟨_, hwritten⟩

theorem seconds_toNat {t : ℕ} (h : WholeSeconds t) : (seconds t).toNat * picoseconds = t := by
  unfold seconds
  rw [BitVec.toNat_ofNat, Nat.mod_eq_of_lt h.2]
  exact Nat.div_mul_cancel (Nat.dvd_of_mod_eq_zero h.1)

theorem written_heartbeat (c : HeartbeatChunk) (h : (SCTPChunk.heartbeat c).Faithful) :
    ∃ bs, Written (.heartbeat c) bs c.byteLength := by
  obtain ⟨remoteAddr, timeField, info, byteLength⟩ := c
  obtain ⟨haddr, htime, hinfo, hlen⟩ := h
  dsimp only at haddr htime hinfo hlen
  subst haddr htime hinfo hlen
  have hwritten : Written (.heartbeat ⟨.v4 0, 0, List.replicate 8 0, 16⟩)
      (chunkHeader 4 0 16 ++ (put16 1 ++ put16 12 ++ put32 0 ++ put32 (seconds 0))) 16 := by
    apply written_padded (fun _ ↦ rfl) _ (by decide) (by decide) (by decide) rfl
    intro r
    generalize hbs : chunkHeader 4 0 16 ++
      (put16 1 ++ put16 12 ++ put32 0 ++ put32 (seconds 0) ++ r) = bs
    have htype : infoType bs 0 = 1 := by
      rw [← hbs]
      exact congrArg BitVec.toNat (append_extract16 1)
    have hinfoLen : infoLength bs 0 = 12 := by
      rw [← hbs]
      exact congrArg BitVec.toNat (append_extract16 12)
    have hinfo : bytes bs 8 8 = List.replicate 8 0 := by
      rw [← hbs]
      rfl
    have hlength : 16 ≤ bs.length := by
      rw [← hbs]
      simp [chunkHeader]
      omega
    have hcLen : cLen bs = 16 := by
      rw [← hbs, cLen_header _ _ _ (by decide) (by decide)]
      rfl
    have hfirst : infoBody bs 0 { byteLength := 16 } =
        .ok (⟨.v4 0, 0, List.replicate 8 0, 16⟩, some 12) := by
      unfold infoBody
      rw [hcLen, if_pos (by decide), need_of_le (by omega), ok_bind, if_pos htype, hinfoLen,
        need_of_le (by omega), ok_bind]
      simp only [Nat.reduceAdd, Nat.reduceSub, hinfo]
      rfl
    have hsecond : infoBody bs 12 ⟨.v4 0, 0, List.replicate 8 0, 16⟩ =
        .ok (⟨.v4 0, 0, List.replicate 8 0, 16⟩, none) := by
      unfold infoBody
      rw [hcLen, if_neg (by decide)]
    unfold parseChunk
    rw [need_of_le (by omega), ok_bind, show chunkType bs = 4 by rw [← hbs]; rfl]
    change some <$> parseHeartbeat bs false = _
    unfold parseHeartbeat
    rw [if_neg Bool.false_ne_true, hcLen, walk_step hfirst, walk, hsecond]
    rfl
  exact ⟨_, hwritten⟩

theorem written_heartbeatAck (c : HeartbeatChunk) (h : (SCTPChunk.heartbeatAck c).Faithful) :
    ∃ bs, Written (.heartbeatAck c) bs c.byteLength := by
  obtain ⟨remoteAddr, timeField, info, byteLength⟩ := c
  obtain ⟨haddr, htime, hinfo, hlen⟩ := h
  dsimp only at haddr htime hinfo hlen
  subst hinfo hlen
  cases remoteAddr with
  | v6 address => exact absurd haddr id
  | v4 address =>
    have hwritten : Written (.heartbeatAck ⟨.v4 address, timeField, [], 16⟩)
        (chunkHeader 5 0 16 ++ (put16 1 ++ put16 12 ++ put32 address ++ put32 (seconds timeField)))
        16 := by
      apply written_padded (fun _ ↦ rfl) _ (by decide) (by decide) (by simp [addPadding]) rfl
      intro r
      generalize hbs : chunkHeader 5 0 16 ++
        (put16 1 ++ put16 12 ++ put32 address ++ put32 (seconds timeField) ++ r) = bs
      have haddr : u32 bs 8 = address := by
        rw [← hbs]
        exact append_extract32 address
      have htime : (u32 bs 12).toNat * picoseconds = timeField := by
        rw [← seconds_toNat htime, ← hbs]
        exact congrArg (fun x ↦ BitVec.toNat x * picoseconds) (append_extract32 (seconds timeField))
      have hlength : 16 ≤ bs.length := by
        rw [← hbs]
        simp [chunkHeader]
        omega
      have hcLen : cLen bs = 16 := by
        rw [← hbs, cLen_header _ _ _ (by decide) (by decide)]
        rfl
      have hfirst : ackInfoBody bs 0 { byteLength := 16 } =
          .ok (⟨.v4 address, timeField, [], 16⟩, some 12) := by
        have htype : infoType bs 0 = 1 := by
          rw [← hbs]
          exact congrArg BitVec.toNat (append_extract16 1)
        unfold ackInfoBody
        rw [hcLen, if_pos (by decide), need_of_le (by omega), ok_bind, if_pos htype,
          need_of_le (by omega), ok_bind]
        simp only [Nat.reduceAdd, haddr, htime]
        rfl
      have hsecond : ackInfoBody bs 12 ⟨.v4 address, timeField, [], 16⟩ =
          .ok (⟨.v4 address, timeField, [], 16⟩, none) := by
        unfold ackInfoBody
        rw [hcLen, if_neg (by decide)]
      unfold parseChunk
      rw [need_of_le (by omega), ok_bind, show chunkType bs = 5 by rw [← hbs]; rfl]
      change some <$> parseHeartbeat bs true = _
      unfold parseHeartbeat
      rw [if_pos rfl, hcLen, walk_step hfirst, walk, hsecond]
      rfl
    exact ⟨_, hwritten⟩

theorem written_cookieEcho (c : CookieEchoChunk) (h : (SCTPChunk.cookieEcho c).Faithful) :
    ∃ bs, Written (.cookieEcho c) bs (addPadding c.byteLength) := by
  obtain ⟨cookieArray, stateCookie, unrecognizedParameters, byteLength⟩ := c
  obtain ⟨hcookie, hunknown, hmin, hmax, cookie, hstate, hlocal, hpeer, htime⟩ := h
  dsimp only at hcookie hunknown hmin hmax hstate
  subst hcookie hunknown hstate
  have hlocalTake : cookie.localTieTag.take 32 = cookie.localTieTag :=
    List.take_of_length_le (Nat.le_of_eq hlocal)
  have hpeerTake : cookie.peerTieTag.take 32 = cookie.peerTieTag :=
    List.take_of_length_le (Nat.le_of_eq hpeer)
  have hwritten : Written (.cookieEcho ⟨[], some cookie, [], byteLength⟩)
      (chunkHeader 10 0 byteLength ++ (put32 (seconds cookie.creationTime) ++ put32 cookie.localTag ++
        put32 cookie.peerTag ++ cookie.localTieTag ++ cookie.peerTieTag)) (addPadding byteLength) := by
    have hpadding := addPadding_bounds byteLength
    apply written_padded _ _ hmax (by decide) _ rfl
    · intro b
      simp only [serializeChunk, castCookie, cookieParameter, hlocal, hpeer, hlocalTake, hpeerTake,
        if_true, le_refl, and_self, ok_bind, unrecognized]
      rfl
    · intro r
      generalize hbs : chunkHeader 10 0 byteLength ++ (put32 (seconds cookie.creationTime) ++
        put32 cookie.localTag ++ put32 cookie.peerTag ++ cookie.localTieTag ++ cookie.peerTieTag ++
          r) = bs
      have htime : (u32 bs 4).toNat * picoseconds = cookie.creationTime := by
        rw [← seconds_toNat htime, ← hbs]
        exact congrArg (fun x ↦ BitVec.toNat x * picoseconds)
          (append_extract32 (seconds cookie.creationTime))
      have hlocalTag : u32 bs 8 = cookie.localTag := by
        rw [← hbs]
        exact append_extract32 cookie.localTag
      have hpeerTag : u32 bs 12 = cookie.peerTag := by
        rw [← hbs]
        exact append_extract32 cookie.peerTag
      have hlocalTieTag : bytes bs 16 32 = cookie.localTieTag := by
        rw [← hbs, List.append_assoc, List.append_assoc, ← List.append_assoc]
        exact (bytes_append _ (cookie.localTieTag ++ _) 0 _).trans (bytes_self _ _ 32 hlocal)
      have hpeerTieTag : bytes bs 48 32 = cookie.peerTieTag := by
        rw [← hbs, List.append_assoc, ← List.append_assoc]
        rw [show 48 = (chunkHeader 10 0 byteLength ++ (put32 (seconds cookie.creationTime) ++
          put32 cookie.localTag ++ put32 cookie.peerTag ++ cookie.localTieTag)).length + 0 by
            simp [chunkHeader, hlocal]]
        exact (bytes_append _ (cookie.peerTieTag ++ r) 0 _).trans (bytes_self _ _ 32 hpeer)
      have hlength : 80 ≤ bs.length := by
        rw [← hbs]
        simp only [chunkHeader, List.length_append, put32_length, put16_length, List.length_cons,
          List.length_nil, hlocal, hpeer]
        omega
      have hcLen : cLen bs = addPadding byteLength := by
        rw [← hbs, cLen_header _ _ _ hmax (by decide)]
      have hchunkLength : chunkLength bs = byteLength := by
        rw [← hbs, chunkLength_header _ _ _ hmax]
      unfold parseChunk
      rw [need_of_le (by omega), ok_bind, show chunkType bs = 10 by rw [← hbs]; rfl]
      change some <$> parseCookieEcho bs = _
      unfold parseCookieEcho
      rw [hcLen, if_pos (by omega), need_of_le hlength, ok_bind, htime, hlocalTag, hpeerTag,
        hlocalTieTag, hpeerTieTag, hchunkLength]
      rfl
    · simp only [List.length_append, put32_length, hlocal, hpeer]
      omega
  exact ⟨_, hwritten⟩

end Chunks

/-! ### INIT and INIT_ACK -/

section Init

variable {bs l r : List Byte} {ack : Bool} {p : ℕ} {c : InitAckChunk}

theorem initBody_end (h : cLen bs ≤ 20 + p) : initBody bs ack p c = .ok (c, none) :=
  if_neg (Nat.not_lt.mpr h)

theorem initBody_supportedAddressTypes (hbs : bs = l ++ (supportedAddressTypes ++ r))
    (hl : l.length = 20 + p) (hp : 20 + p < cLen bs) :
    initBody bs ack p c = .ok (c, some 8) := by
  have htype : u16 bs (20 + p) = 12 := by
    rw [hbs, ← hl]
    exact (u16_append l _ 0).trans (append_extract16 12)
  have hlength : u16 bs (20 + p + 2) = 6 := by
    rw [hbs, ← hl, u16_append]
    exact append_extract16 6
  have hfits : 20 + p + 8 ≤ bs.length := by
    rw [hbs, ← hl]
    simp [supportedAddressTypes]
    omega
  unfold initBody initParam paramType paramLength
  rw [if_pos hp, need_of_le (by omega), htype, hlength]
  rfl

theorem initBody_v4Param {address : BitVec 32} (hbs : bs = l ++ (v4Param address ++ r))
    (hl : l.length = 20 + p) (hp : 20 + p < cLen bs) :
    initBody bs ack p c = .ok ({ c with addresses := c.addresses ++ [.v4 address] }, some 8) := by
  have htype : u16 bs (20 + p) = 5 := by
    rw [hbs, ← hl]
    exact (u16_append l _ 0).trans (append_extract16 5)
  have hlength : u16 bs (20 + p + 2) = 8 := by
    rw [hbs, ← hl, u16_append]
    exact append_extract16 8
  have haddress : u32 bs (20 + p + 4) = address := by
    rw [hbs, ← hl, u32_append]
    exact append_extract32 address
  have hfits : 20 + p + 8 ≤ bs.length := by
    rw [hbs, ← hl]
    simp [v4Param]
    omega
  unfold initBody initParam paramType paramLength
  rw [if_pos hp, need_of_le (by omega), htype, hlength, haddress]
  simp only [ok_bind]
  rw [if_neg (by decide), if_pos (by decide), need_of_le hfits]
  rfl

theorem initBody_cookie {cookie : List Byte}
    (hbs : bs = l ++ (put16 7 ++ put16 (BitVec.ofNat 16 (cookie.length + 4)) ++ cookie ++ r))
    (hcookie : cookie.length + 4 < 2 ^ 16) (hl : l.length = 20 + p) (hp : 20 + p < cLen bs) :
    initBody bs true p c = .ok ({ c with cookie }, some (addPadding (cookie.length + 4))) := by
  have htype : u16 bs (20 + p) = 7 := by
    rw [hbs, ← hl]
    exact (u16_append l _ 0).trans (append_extract16 7)
  have hlength : (u16 bs (20 + p + 2)).toNat = cookie.length + 4 := by
    have hu16 : u16 bs (20 + p + 2) = BitVec.ofNat 16 (cookie.length + 4) := by
      rw [hbs, ← hl, u16_append]
      exact append_extract16 _
    rw [hu16, BitVec.toNat_ofNat, Nat.mod_eq_of_lt hcookie]
  have hbytes : bytes bs (20 + p + 4) (cookie.length + 4 - 4) = cookie := by
    rw [hbs, ← hl, bytes_append, List.append_assoc]
    exact (bytes_append (put16 7 ++ put16 _) (cookie ++ r) 0 _).trans (bytes_self cookie r _ rfl)
  have hfits : 20 + p + (cookie.length + 4) ≤ bs.length := by
    rw [hbs, ← hl]
    simp only [List.length_append, put16_length]
    omega
  unfold initBody initParam paramType paramLength
  rw [if_pos hp, need_of_le (by omega), htype, hlength]
  simp only [ok_bind]
  rw [if_neg (by decide), if_neg (by decide), if_neg (by decide), if_pos (by decide),
    need_of_le (by omega), ok_bind, hbytes]
  rfl

theorem walk_addresses {addresses : List (BitVec 32)} {rounds : ℕ}
    (hbs : bs = l ++ (addresses.flatMap v4Param ++ r)) (hl : l.length = 20 + p)
    (hp : 20 + p + 8 * addresses.length ≤ cLen bs) :
    walk .endlessLoop (initBody bs ack) (rounds + addresses.length) p c =
      walk .endlessLoop (initBody bs ack) rounds (p + 8 * addresses.length)
        { c with addresses := c.addresses ++ addresses.map .v4 } := by
  induction addresses generalizing l p c with
  | nil => simp
  | cons address addresses ih =>
    rw [List.length_cons] at hp
    rw [List.flatMap_cons, List.append_assoc] at hbs
    have hstep : initBody bs ack p c =
        .ok ({ c with addresses := c.addresses ++ [.v4 address] }, some 8) :=
      initBody_v4Param hbs hl (by omega)
    have hl' : (l ++ v4Param address).length = 20 + (p + 8) := by
      rw [List.length_append, hl]
      rfl
    rw [List.length_cons, ← Nat.add_assoc, walk_step hstep,
      ih (hbs.trans (List.append_assoc _ _ _).symm) hl' (by omega)]
    have hpos : p + 8 + 8 * addresses.length = p + 8 * (addresses.length + 1) := by omega
    rw [hpos]
    simp

theorem mapM_get4 (addresses : List (BitVec 32)) :
    (addresses.map Address.v4).mapM get4 = .ok addresses := by
  induction addresses with
  | nil => rfl
  | cons address addresses ih =>
    rw [List.map_cons, List.mapM_cons, ih]
    rfl

theorem exists_map_v4 {addresses : List Address} (h : ∀ a ∈ addresses, a.IsV4) :
    ∃ as : List (BitVec 32), addresses = as.map .v4 := by
  induction addresses with
  | nil => exact ⟨[], rfl⟩
  | cons address addresses ih =>
    obtain ⟨as, has⟩ := ih fun a ha ↦ h a (List.mem_cons_of_mem address ha)
    have hfirst := h address List.mem_cons_self
    cases address with
    | v4 a => exact ⟨a :: as, by rw [List.map_cons, has]⟩
    | v6 a => exact absurd hfirst id

/-- The fixed fields of an INIT or INIT_ACK chunk. -/
def InitChunk.start (c : InitChunk) : InitAckChunk :=
  { initTag := c.initTag, a_rwnd := c.a_rwnd, noOutStreams := c.noOutStreams
    noInStreams := c.noInStreams, initTSN := c.initTSN }

theorem parseInit_fields {type : Byte} {length : ℕ} {rest : List Byte} (c : InitChunk)
    (hbs : bs = chunkHeader type 0 length ++ (initFields c ++ rest)) :
    parseInit bs ack = (fun c ↦ if ack then .initAck c else .init c.toInitChunk) <$>
      walk .endlessLoop (initBody bs ack) (cLen bs + 1) 0 c.start := by
  have hinitTag : u32 bs 4 = c.initTag := by
    rw [hbs]
    exact append_extract32 c.initTag
  have hrwnd : u32 bs 8 = c.a_rwnd := by
    rw [hbs]
    exact append_extract32 c.a_rwnd
  have hout : u16 bs 12 = c.noOutStreams := by
    rw [hbs]
    exact append_extract16 c.noOutStreams
  have hin : u16 bs 14 = c.noInStreams := by
    rw [hbs]
    exact append_extract16 c.noInStreams
  have htsn : u32 bs 16 = c.initTSN := by
    rw [hbs]
    exact append_extract32 c.initTSN
  have hfits : 20 ≤ bs.length := by
    rw [hbs]
    simp [chunkHeader, initFields]
    omega
  unfold parseInit
  rw [need_of_le hfits, ok_bind, hinitTag, hrwnd, hout, hin, htsn, bind_pure_comp]
  rfl

theorem walk_initParams {type : Byte} {length rounds : ℕ} {rest : List Byte} (c : InitChunk)
    (addresses : List (BitVec 32))
    (hbs : bs = chunkHeader type 0 length ++ (initFields c ++
      (supportedAddressTypes ++ (addresses.flatMap v4Param ++ rest))))
    (hcLen : 28 + 8 * addresses.length ≤ cLen bs) :
    walk .endlessLoop (initBody bs ack) (rounds + addresses.length + 1) 0 c.start =
      walk .endlessLoop (initBody bs ack) rounds (8 + 8 * addresses.length)
        { c.start with addresses := addresses.map .v4 } := by
  have hfirst : initBody bs ack 0 c.start = .ok (c.start, some 8) :=
    initBody_supportedAddressTypes (hbs.trans (List.append_assoc _ _ _).symm) rfl (by omega)
  have hl : (chunkHeader type 0 length ++ (initFields c ++ supportedAddressTypes)).length = 20 + 8 := rfl
  have hrest : bs = (chunkHeader type 0 length ++ (initFields c ++ supportedAddressTypes)) ++
      (addresses.flatMap v4Param ++ rest) := by
    rw [hbs]
    simp only [List.append_assoc]
  rw [walk_step hfirst]
  exact walk_addresses hrest hl (by omega)

/-- The fixed fields and the addresses are all of the chunk. -/
theorem start_addresses {c : InitChunk} {addresses : List (BitVec 32)} (cookie : List Byte)
    (haddresses : c.addresses = addresses.map .v4) (hunknown : c.unrecognizedParameters = []) :
    { c.start with addresses := addresses.map .v4, cookie } = InitAckChunk.mk c cookie none := by
  cases c
  dsimp only at haddresses hunknown
  subst haddresses hunknown
  rfl

theorem initParams_eq {c : InitChunk} {addresses : List (BitVec 32)}
    (haddresses : c.addresses = addresses.map .v4) :
    initParams c = .ok (supportedAddressTypes ++ addresses.flatMap v4Param) := by
  unfold initParams
  rw [haddresses, mapM_get4]
  rfl

theorem initParams_length (addresses : List (BitVec 32)) :
    (supportedAddressTypes ++ addresses.flatMap v4Param).length = 8 + 8 * addresses.length := by
  rw [List.length_append, List.length_flatMap]
  simp [v4Param, supportedAddressTypes, Nat.mul_comm]

theorem written_init (c : InitChunk) (h : (SCTPChunk.init c).Faithful) :
    ∃ bs, Written (.init c) bs (28 + 8 * c.addresses.length) := by
  obtain ⟨hv4, hunknown, hmax⟩ := h
  obtain ⟨addresses, haddresses⟩ := exists_map_v4 hv4
  rw [haddresses, List.length_map] at hmax ⊢
  generalize hparams : supportedAddressTypes ++ addresses.flatMap v4Param = params
  have hlength : params.length = 8 + 8 * addresses.length := by
    rw [← hparams]
    exact initParams_length addresses
  have hpadding : addPadding (20 + params.length) = 28 + 8 * addresses.length := by
    unfold addPadding
    omega
  have hwritten : Written (.init c) (chunkHeader 1 0 (20 + params.length) ++ (initFields c ++ params))
      (28 + 8 * addresses.length) := by
    apply written_padded _ _ (by omega) (by decide) _ hpadding
    · intro b
      simp only [serializeChunk, initParams_eq haddresses, ok_bind, hparams]
      rw [show 28 + 8 * addresses.length = 20 + params.length by omega]
      rfl
    · intro r
      generalize hbs : chunkHeader 1 0 (20 + params.length) ++ (initFields c ++ params ++ r) = bs
      have hcLen : cLen bs = 28 + 8 * addresses.length := by
        rw [← hbs, cLen_header _ _ _ (by omega) (by decide), hpadding]
      have hfields : bs = chunkHeader 1 0 (20 + params.length) ++ (initFields c ++
          (supportedAddressTypes ++ (addresses.flatMap v4Param ++ r))) := by
        rw [← hbs, ← List.append_assoc supportedAddressTypes, hparams, List.append_assoc]
      have hwalk : walk .endlessLoop (initBody bs false) (cLen bs + 1) 0 c.start =
          .ok ⟨c, [], none⟩ := by
        have hrounds : cLen bs + 1 = 27 + 7 * addresses.length + 1 + addresses.length + 1 := by omega
        rw [hrounds, walk_initParams c addresses hfields (by omega), walk, initBody_end (by omega),
          ← start_addresses [] haddresses hunknown]
        rfl
      unfold parseChunk
      rw [← hbs, need_header, ok_bind, chunkType_header, hbs]
      change some <$> parseInit bs false = _
      rw [parseInit_fields c hfields, hwalk]
      rfl
    · simp only [List.length_append, initFields, put32_length, put16_length]
      omega
  exact ⟨_, hwritten⟩

theorem written_initAck (c : InitAckChunk) (h : (SCTPChunk.initAck c).Faithful) :
    ∃ bs, Written (.initAck c) bs (32 + 8 * c.addresses.length + c.cookie.length) := by
  obtain ⟨c, cookie, stateCookie⟩ := c
  obtain ⟨hv4, hunknown, hcookie, hstate, hmax⟩ := h
  obtain ⟨addresses, haddresses⟩ := exists_map_v4 hv4
  dsimp only at hunknown hcookie hstate hmax haddresses ⊢
  subst hstate
  rw [haddresses, List.length_map] at hmax ⊢
  generalize hparams : supportedAddressTypes ++ addresses.flatMap v4Param ++
    (put16 7 ++ put16 (BitVec.ofNat 16 (cookie.length + 4)) ++ cookie) = params
  have hlength : 20 + params.length = 32 + 8 * addresses.length + cookie.length := by
    rw [← hparams, List.length_append, initParams_length]
    simp only [List.length_append, put16_length]
    omega
  have hcLen (r : List Byte) :
      cLen (chunkHeader 2 0 (20 + params.length) ++ (initFields c ++ params ++ r)) =
        addPadding (20 + params.length) :=
    cLen_header _ _ _ (by omega) (by decide)
  have hbounds := addPadding_bounds (20 + params.length)
  have hwritten : Written (.initAck ⟨c, cookie, none⟩)
      (chunkHeader 2 0 (20 + params.length) ++ (initFields c ++ params)) (20 + params.length) := by
    constructor
    · intro b
      simp only [serializeChunk, initParams_eq haddresses, hunknown, ok_bind, unrecognized,
        initAckCookie, if_neg hcookie, unrecognizedBytes, List.flatMap_nil, List.append_nil, hparams]
      rfl
    · simp only [chunkHeader, initFields, List.length_append, put32_length, put16_length,
        List.length_cons, List.length_nil]
      omega
    · omega
    · intro r
      have hcLen := hcLen r
      rw [List.append_assoc]
      generalize hbs : chunkHeader 2 0 (20 + params.length) ++ (initFields c ++ params ++ r) = bs
        at hcLen ⊢
      have hfields : bs = chunkHeader 2 0 (20 + params.length) ++ (initFields c ++
          (supportedAddressTypes ++ (addresses.flatMap v4Param ++
            (put16 7 ++ put16 (BitVec.ofNat 16 (cookie.length + 4)) ++ cookie ++ r)))) := by
        rw [← hbs, ← hparams]
        simp only [List.append_assoc]
      have hcookieAt : bs = (chunkHeader 2 0 (20 + params.length) ++ (initFields c ++
          (supportedAddressTypes ++ addresses.flatMap v4Param))) ++
            (put16 7 ++ put16 (BitVec.ofNat 16 (cookie.length + 4)) ++ cookie ++ r) := by
        rw [hfields]
        simp only [List.append_assoc]
      have hposition : (chunkHeader 2 0 (20 + params.length) ++ (initFields c ++
          (supportedAddressTypes ++ addresses.flatMap v4Param))).length =
            20 + (8 + 8 * addresses.length) := by
        rw [← List.append_assoc, List.length_append, initParams_length]
        rfl
      have hwalk : walk .endlessLoop (initBody bs true) (cLen bs + 1) 0 c.start =
          .ok ⟨c, cookie, none⟩ := by
        have hend : cLen bs ≤ 20 + (8 + 8 * addresses.length + addPadding (cookie.length + 4)) := by
          rw [hcLen, hlength]
          unfold addPadding
          omega
        obtain ⟨k, hk⟩ : ∃ k, cLen bs + 1 = k + 1 + 1 + addresses.length + 1 :=
          ⟨cLen bs - addresses.length - 2, by omega⟩
        rw [hk, walk_initParams c addresses hfields (by omega),
          walk_step (initBody_cookie hcookieAt (by omega) hposition (by omega)), walk,
          initBody_end hend, ← start_addresses cookie haddresses hunknown]
      unfold parseChunk
      rw [← hbs, need_header, ok_bind, chunkType_header, hbs]
      change some <$> parseInit bs true = _
      rw [parseInit_fields c hfields, hwalk]
      rfl
    · intro r
      rw [List.append_assoc, hcLen]
      exact hbounds
    · intro haligned r
      change cookie.length % 4 = 0 at haligned
      rw [List.append_assoc, hcLen]
      exact addPadding_of_dvd (by omega)
  rw [← hlength]
  exact ⟨_, hwritten⟩

end Init

theorem exists_written {c : SCTPChunk} (h : c.Faithful) : ∃ bs, Written c bs c.wireLength := by
  cases c with
  | data c => exact written_data c h
  | init c => exact written_init c h
  | initAck c => exact written_initAck c h
  | sack c => exact written_sack c h
  | heartbeat c => exact written_heartbeat c h
  | heartbeatAck c => exact written_heartbeatAck c h
  | abort tBit byteLength => exact ⟨_, written_abort tBit h⟩
  | shutdown cumTsnAck byteLength => exact ⟨_, written_shutdown cumTsnAck h⟩
  | shutdownAck byteLength => exact ⟨_, written_shutdownAck h⟩
  | error parameters => exact absurd h id
  | cookieEcho c => exact written_cookieEcho c h
  | cookieAck byteLength => exact ⟨_, written_cookieAck h⟩
  | shutdownComplete tBit byteLength => exact ⟨_, written_shutdownComplete tBit h⟩

/-! ## Whole messages -/

namespace WireBuffer

variable {b : WireBuffer}

/-- Nothing has been written past `writtenbytes`. -/
def Tight (b : WireBuffer) : Prop := b.buf.length ≤ b.writtenbytes

theorem first_length (n : ℕ) : (b.first n).length = n := by
  unfold first
  rw [List.length_append, List.length_take, List.length_replicate]
  omega

theorem Tight.write (hb : b.Tight) {bs : List Byte} {n : ℕ} (hn : bs.length ≤ n) :
    (b.write bs n).Tight := by
  unfold Tight WireBuffer.write at *
  rw [List.length_append, List.length_append, first_length, List.length_drop]
  dsimp only
  omega

theorem Tight.first_write (hb : b.Tight) {bs : List Byte} {n : ℕ} (hn : bs.length ≤ n) :
    (b.write bs n).first (b.writtenbytes + n) =
      b.first b.writtenbytes ++ (bs ++ List.replicate (n - bs.length) 0) := by
  have hdrop : b.buf.drop (b.writtenbytes + bs.length) = [] :=
    List.drop_eq_nil_of_le (Nat.le_trans hb (Nat.le_add_right _ _))
  have hlength : (b.first b.writtenbytes ++ bs).length = b.writtenbytes + bs.length := by
    rw [List.length_append, first_length]
  unfold WireBuffer.write
  rw [hdrop, List.append_nil]
  change (b.first b.writtenbytes ++ bs).take (b.writtenbytes + n) ++
    List.replicate (b.writtenbytes + n - (b.first b.writtenbytes ++ bs).length) 0 = _
  rw [List.take_of_length_le (by omega), hlength, Nat.add_sub_add_left, List.append_assoc]

end WireBuffer

/-- The bytes of a chunk as they lie in the packet. -/
structure Slot (c : SCTPChunk) (w : List Byte) : Prop where
  length : w.length = c.wireLength
  length_pos : 0 < w.length
  parse : ∀ r, parseChunk (w ++ r) = .ok (some c)
  moves : ∀ r, w.length ≤ cLen (w ++ r) ∧ cLen (w ++ r) ≤ w.length + 3
  aligned : c.Aligned → ∀ r, cLen (w ++ r) = w.length

theorem Written.slot {c : SCTPChunk} {bs : List Byte} (h : Written c bs c.wireLength) :
    Slot c (bs ++ List.replicate (c.wireLength - bs.length) 0) := by
  have hlength : (bs ++ List.replicate (c.wireLength - bs.length) 0).length = c.wireLength := by
    rw [List.length_append, List.length_replicate]
    exact Nat.add_sub_cancel' h.length_le
  constructor
  · exact hlength
  · rw [hlength]
    exact h.length_pos
  · intro r
    rw [List.append_assoc]
    exact h.parse _
  · intro r
    rw [List.append_assoc, hlength]
    exact h.moves _
  · intro haligned r
    rw [List.append_assoc, hlength]
    exact h.aligned haligned _

theorem serializeChunks_slots {cs : List SCTPChunk} (h : ∀ c ∈ cs, c.Faithful) {b : WireBuffer}
    (hb : b.Tight) :
    ∃ ws b', List.Forall₂ Slot cs ws ∧ cs.foldlM serializeChunk b = .ok b' ∧
      b'.first b'.writtenbytes = b.first b.writtenbytes ++ ws.flatten := by
  induction cs generalizing b with
  | nil => exact ⟨[], b, .nil, rfl, (List.append_nil _).symm⟩
  | cons c cs ih =>
    obtain ⟨bs, hbs⟩ := exists_written (h c List.mem_cons_self)
    obtain ⟨ws, b', hws, hfold, hfirst⟩ :=
      ih (fun c hc ↦ h c (List.mem_cons_of_mem _ hc)) (hb.write hbs.length_le)
    refine ⟨_ :: ws, b', .cons hbs.slot hws, ?_, ?_⟩
    · rw [List.foldlM_cons, hbs.serialize]
      exact hfold
    · rw [hfirst, List.flatten_cons, ← List.append_assoc]
      congr 1
      exact hb.first_write hbs.length_le

theorem parseChunks_slots {cs : List SCTPChunk} {ws : List (List Byte)} (h : List.Forall₂ Slot cs ws)
    (haligned : ∀ c ∈ cs.dropLast, c.Aligned) (l : List Byte)
    (hlength : l.length + (cs.map SCTPChunk.wireLength).sum + 3 < 2 ^ 32) (acc : List SCTPChunk) :
    parseChunks (l ++ ws.flatten) (cs.length + 1) l.length acc = .ok (acc ++ cs) := by
  induction h generalizing l acc with
  | nil => simp [parseChunks]
  | @cons c w cs ws hw hws ih =>
    rw [List.map_cons, List.sum_cons, ← hw.length] at hlength
    have hpos := hw.length_pos
    have hdrop : (l ++ (w ++ ws.flatten)).drop l.length = w ++ ws.flatten := List.drop_left
    have hlt : l.length < (l ++ (w ++ ws.flatten)).length := by
      simp only [List.length_append]
      omega
    have hmoves := hw.moves ws.flatten
    rw [List.flatten_cons, parseChunks, if_pos hlt, hdrop, hw.parse]
    cases hws with
    | nil =>
      -- the position may lie behind the end, by the padding of the last chunk
      rw [List.flatten_nil, List.append_nil] at hmoves ⊢
      rw [List.map_nil, List.sum_nil] at hlength
      have hend : (l ++ w).length ≤ l.length + cLen w := by
        rw [List.length_append]
        omega
      dsimp only
      rw [Nat.mod_eq_of_lt (by omega)]
      change parseChunks (l ++ w) (0 + 1) (l.length + cLen w) (acc ++ [c]) = _
      rw [parseChunks, if_neg (Nat.not_lt.mpr hend)]
    | cons hw' hws' =>
      have hcLen := hw.aligned (haligned c (by simp))
      have hnext := ih (fun c hc ↦ haligned c (by simp_all)) (l ++ w) (by
        rw [List.length_append]
        omega) (acc ++ [c])
      rw [List.length_append, List.append_assoc, List.append_assoc] at hnext
      dsimp only
      rw [hcLen, Nat.mod_eq_of_lt (by omega)]
      exact hnext

/-- A faithful message survives the way through the wire format. -/
theorem roundTrips_of_faithful (msg : SCTPMessage) (h : msg.Faithful) : RoundTrips msg := by
  obtain ⟨srcPort, destPort, tag, chunks⟩ := msg
  obtain ⟨hfaithful, haligned, hlength⟩ := h
  dsimp only at hfaithful haligned hlength
  generalize hheader : put16 srcPort ++ put16 destPort ++ put32 tag ++ List.replicate 4 (0 : Byte) =
    header
  have hheaderLength : header.length = 12 := by
    rw [← hheader]
    rfl
  have htight : (WireBuffer.mk header 12).Tight := Nat.le_of_eq hheaderLength
  obtain ⟨ws, b, hws, hfold, hfirst⟩ := serializeChunks_slots hfaithful htight
  have hstart : (WireBuffer.mk header 12).first 12 = header := by
    rw [← hheader]
    rfl
  have hserialize : serialize ⟨srcPort, destPort, tag, chunks⟩ = .ok (header ++ ws.flatten) := by
    unfold serialize
    dsimp only
    rw [hheader, hfold, ok_bind, hfirst, hstart]
    rfl
  have hparse : parse (chunks.length + 1) (header ++ ws.flatten) =
      .ok ⟨srcPort, destPort, tag, chunks⟩ := by
    have hchunks : parseChunks ws.flatten (chunks.length + 1) 0 [] = .ok chunks :=
      parseChunks_slots hws haligned [] (by simpa using hlength) []
    have hdrop : (header ++ ws.flatten).drop 12 = ws.flatten := by
      rw [← hheaderLength]
      exact List.drop_left
    have hsrcPort : u16 (header ++ ws.flatten) 0 = srcPort := by
      rw [← hheader]
      exact append_extract16 srcPort
    have hdestPort : u16 (header ++ ws.flatten) 2 = destPort := by
      rw [← hheader]
      exact append_extract16 destPort
    have htag : u32 (header ++ ws.flatten) 4 = tag := by
      rw [← hheader]
      exact append_extract32 tag
    unfold parse
    rw [need_of_le (by rw [List.length_append]; omega), ok_bind, hdrop, hsrcPort, hdestPort, htag,
      hchunks]
    rfl
  exact ⟨_, hserialize, _, hparse⟩

/-- A packet with the chunks of an association that is set up and sends data. -/
def dataAndSack : SCTPMessage :=
  { srcPort := 5000, destPort := 6000, tag := 77
    chunks := [.cookieAck 4, .sack { cumTsnAck := 9, a_rwnd := 1500, gaps := [(11, 12)], byteLength := 20 },
      .data { bBit := true, eBit := true, tsn := 3, data := some [1, 2, 3], byteLength := 19 }] }

theorem roundTrips_dataAndSack : dataAndSack.Faithful ∧ RoundTrips dataAndSack := by
  have hfaithful : dataAndSack.Faithful := by
    constructor
    · intro c hc
      simp only [dataAndSack, List.mem_cons, List.not_mem_nil, or_false] at hc
      obtain rfl | rfl | rfl := hc
      · exact ⟨by decide, by decide, by decide⟩
      · exact ⟨by simp [GapInRange], by decide, by decide⟩
      · exact ⟨[1, 2, 3], rfl, by decide, by decide, by decide⟩
    · constructor
      · intro c hc
        simp only [dataAndSack, List.dropLast_cons_cons, List.dropLast_singleton, List.mem_cons,
          List.not_mem_nil, or_false] at hc
        obtain rfl | rfl := hc
        · exact trivial
        · exact trivial
      · decide
  exact ⟨hfaithful, roundTrips_of_faithful _ hfaithful⟩

/-! ## A message that does not -/

theorem parseChunks_succ {chunks : List Byte} {rounds pos : ℕ} {acc cs : List SCTPChunk}
    (h : parseChunks chunks rounds pos acc = .ok cs) :
    parseChunks chunks (rounds + 1) pos acc = .ok cs := by
  induction rounds generalizing pos acc with
  | zero => cases h
  | succ rounds ih =>
    rw [parseChunks] at h ⊢
    by_cases hpos : pos < chunks.length
    · rw [if_pos hpos] at h ⊢
      cases hchunk : parseChunk (chunks.drop pos) with
      | error e =>
        rw [hchunk] at h
        cases h
      | ok chunk =>
        rw [hchunk] at h
        exact ih h
    · rw [if_neg hpos] at h ⊢
      exact h

theorem parse_add {buf : List Byte} {rounds : ℕ} {msg : SCTPMessage} (h : parse rounds buf = .ok msg)
    (k : ℕ) : parse (rounds + k) buf = .ok msg := by
  induction k with
  | zero => exact h
  | succ k ih =>
    unfold parse at ih ⊢
    rw [bind_ok_iff] at ih ⊢
    obtain ⟨u, hneed, ih⟩ := ih
    rw [bind_ok_iff] at ih
    obtain ⟨cs, hcs, hmsg⟩ := ih
    refine ⟨u, hneed, ?_⟩
    rw [bind_ok_iff]
    exact ⟨cs, parseChunks_succ hcs, hmsg⟩

theorem parse_unique {buf : List Byte} {rounds rounds' : ℕ} {msg msg' : SCTPMessage}
    (h : parse rounds buf = .ok msg) (h' : parse rounds' buf = .ok msg') : msg = msg' := by
  have hadd := parse_add h rounds'
  have hadd' := parse_add h' rounds
  rw [Nat.add_comm, hadd] at hadd'
  exact Except.ok.inj hadd'

def probe : SCTPMessage :=
  { chunks := [.heartbeat { remoteAddr := .v4 0x0a000001, timeField := 5 * picoseconds }] }

/-- The address and the time of a HEARTBEAT come back as bytes of its info. -/
theorem not_roundTrips_probe :
    ¬ RoundTrips probe := by
  intro h
  obtain ⟨buf, hserialize, rounds, hparse⟩ := h
  have hbuf : (serialize probe).toOption.bind (fun buf ↦ (parse 2 buf).toOption) = some
      { chunks := [.heartbeat { info := [10, 0, 0, 1, 0, 0, 0, 5] }] } := by
    decide +kernel
  rw [hserialize] at hbuf
  change (parse 2 buf).toOption = _ at hbuf
  cases hres : parse 2 buf with
  | error e =>
    rw [hres] at hbuf
    cases hbuf
  | ok msg =>
    rw [hres, ← parse_unique hparse hres] at hbuf
    exact absurd hbuf (by decide)

end InetManet.SCTP
