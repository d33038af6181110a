import InetManet.SCTP.ParserSafety

/-!
# Unrecognized parameters

A peer gets the parameters of its INIT chunk that are not known back, in the INIT_ACK and in an error chunk
behind the COOKIE_ECHO. The parser stores them one behind the other, and the serializer finds their ends
again by a length whose upper byte it multiplies by 16.
-/

namespace InetManet.SCTP

open TransitionSystem ByteOrder

/-- A parameter that is to be reported, with its padding. -/
@[ext] structure UnknownParameter where
  stored : List Byte
  reported : (u16 stored 0).getLsbD 14 = true
  length_eq : stored.length = addPadding (u16 stored 2).toNat
  nonempty : stored ≠ []

namespace UnknownParameter

def length (p : UnknownParameter) : ℕ := (u16 p.stored 2).toNat

/-- The parameter as the value of an `UNRECOGNIZED_PARAMETER`. -/
def echo (p : UnknownParameter) : List Byte :=
  put16 8 ++ put16 (BitVec.ofNat 16 (p.length + 4)) ++ p.stored

/-- The array that the parameters are stored in. -/
def array (ps : List UnknownParameter) : List Byte := ps.flatMap stored

end UnknownParameter

open UnknownParameter

/-- What the loops for INIT_ACK and COOKIE_ECHO write for the array. -/
def reemit (params : List Byte) : Except SerializeFault (List Byte) :=
  unrecognizedBytes <$> unrecognized params.length params

/-- The loops end without a read past the array, and each parameter comes back as it was. -/
def Echoes (ps : List UnknownParameter) : Prop := reemit (array ps) = .ok (ps.flatMap echo)

/-! ## The serializer -/

section Serializer

variable {p : UnknownParameter} {ps : List UnknownParameter} {rest : List Byte}

theorem UnknownParameter.four_le_length (p : UnknownParameter) : 4 ≤ p.stored.length := by
  have hlength := p.length_eq
  have hpos := List.length_pos_of_ne_nil p.nonempty
  unfold addPadding at hlength
  omega

/-- The length is read from the third and the fourth byte. -/
theorem UnknownParameter.length_append (p : UnknownParameter) (rest : List Byte) :
    p.length = (u8 (p.stored ++ rest) 2).toNat * 256 + (u8 (p.stored ++ rest) 3).toNat := by
  have hfour := p.four_le_length
  rw [u8_append_left _ _ (by omega), u8_append_left _ _ (by omega), length, u16, BitVec.toNat_append]
  rw [← Nat.shiftLeft_add_eq_or_of_lt (u8 p.stored 3).isLt, Nat.shiftLeft_eq]

theorem unrecognized_cons {rounds : ℕ} {params : List Byte} (h : params ≠ []) :
    unrecognized (rounds + 1) params =
      (let pLen := (u8 params 2).toNat * 16 + (u8 params 3).toNat
      if params.length < 4 ∨ params.length < addPadding pLen then .error .runtimeError
      else if pLen = 0 then .error .endlessLoop
      else do
        let rest ← unrecognized rounds (params.drop (addPadding pLen))
        return (pLen, params.take (addPadding pLen)) :: rest) := by
  cases params with
  | nil => exact absurd rfl h
  | cons b params =>
    rw [unrecognized]
    exact h

theorem unrecognized_append_of_lt {rounds : ℕ} (hlt : p.length < 256) :
    unrecognized (rounds + 1) (p.stored ++ rest) = do
      let out ← unrecognized rounds rest
      return (p.length, p.stored) :: out := by
  have hlength := p.length_append rest
  have hpadded := p.length_eq
  have hfour := p.four_le_length
  have hpLen : (u8 (p.stored ++ rest) 2).toNat * 16 + (u8 (p.stored ++ rest) 3).toNat = p.length := by omega
  have hpos : p.length ≠ 0 := by
    intro hzero
    rw [show (u16 p.stored 2).toNat = 0 from hzero] at hpadded
    unfold addPadding at hpadded
    omega
  have htotal : ¬ ((p.stored ++ rest).length < 4 ∨ (p.stored ++ rest).length < addPadding p.length) := by
    rw [List.length_append, show addPadding p.length = p.stored.length from hpadded.symm]
    omega
  rw [unrecognized_cons (List.append_ne_nil_of_left_ne_nil p.nonempty rest)]
  dsimp only
  rw [hpLen, if_neg htotal, if_neg hpos, show addPadding p.length = p.stored.length from hpadded.symm,
    List.drop_left, List.take_left]

theorem unrecognized_append_of_le {rounds : ℕ} (hle : 256 ≤ p.length) {out : List (ℕ × List Byte)}
    (h : unrecognized (rounds + 1) (p.stored ++ rest) = .ok out) :
    ∃ pLen value out', out = (pLen, value) :: out' ∧ pLen < p.length := by
  have hlength := p.length_append rest
  have hlow := (u8 (p.stored ++ rest) 3).isLt
  rw [unrecognized_cons (List.append_ne_nil_of_left_ne_nil p.nonempty rest)] at h
  dsimp only at h
  split_ifs at h
  obtain ⟨out', -, hout⟩ := bind_ok_iff.mp h
  cases hout
  exact ⟨_, _, out', rfl, by omega⟩

theorem unrecognizedBytes_cons (pLen : ℕ) (value : List Byte) (out : List (ℕ × List Byte)) :
    unrecognizedBytes ((pLen, value) :: out) =
      put16 8 ++ (put16 (BitVec.ofNat 16 (pLen + 4)) ++ (value ++ unrecognizedBytes out)) := by
  unfold unrecognizedBytes
  rw [List.flatMap_cons, List.append_assoc, List.append_assoc]

theorem u16_echo (x : BitVec 16) (r : List Byte) : u16 (put16 8 ++ (put16 x ++ r)) 2 = x := by
  have h := u16_append (put16 8) (put16 x ++ r) 0
  rwa [u16_put16] at h

/-- The parameters come back exactly if all of them are short. -/
theorem unrecognized_array_iff (ps : List UnknownParameter) : ∀ {rounds : ℕ}, ps.length ≤ rounds →
    (unrecognizedBytes <$> unrecognized rounds (array ps) = .ok (ps.flatMap echo) ↔
      ∀ p ∈ ps, p.length < 256) := by
  induction ps with
  | nil =>
    intro rounds _
    refine iff_of_true ?_ (List.forall_mem_nil _)
    cases rounds <;> rfl
  | cons p ps ih =>
    intro rounds hrounds
    rw [List.length_cons] at hrounds
    obtain ⟨rounds, rfl⟩ := Nat.exists_eq_succ_of_ne_zero (by omega : rounds ≠ 0)
    rw [List.forall_mem_cons, array, List.flatMap_cons, List.flatMap_cons]
    by_cases hlt : p.length < 256
    · rw [unrecognized_append_of_lt hlt, and_iff_right hlt, ← ih (by omega : ps.length ≤ rounds), array]
      cases unrecognized rounds (ps.flatMap stored) with
      | error e => exact iff_of_false nofun nofun
      | ok out =>
        change Except.ok (unrecognizedBytes ((p.length, p.stored) :: out)) = _ ↔
          Except.ok (unrecognizedBytes out) = _
        rw [unrecognizedBytes_cons, Except.ok.injEq, Except.ok.injEq, echo, List.append_assoc,
          List.append_assoc, List.append_cancel_left_eq, List.append_cancel_left_eq,
          List.append_cancel_left_eq]
    · refine iff_of_false ?_ fun h ↦ hlt h.1
      intro h
      obtain ⟨out, hout, hbytes⟩ : ∃ out, unrecognized (rounds + 1) (p.stored ++ ps.flatMap stored) = .ok out ∧
          unrecognizedBytes out = p.echo ++ ps.flatMap echo := by
        cases hrun : unrecognized (rounds + 1) (p.stored ++ ps.flatMap stored) with
        | error e =>
          rw [hrun] at h
          cases h
        | ok out =>
          rw [hrun] at h
          exact ⟨out, rfl, Except.ok.inj h⟩
      obtain ⟨pLen, value, out', rfl, hless⟩ := unrecognized_append_of_le (by omega) hout
      rw [unrecognizedBytes_cons, echo, List.append_assoc, List.append_assoc] at hbytes
      have hfield := congrArg (fun bs ↦ (u16 bs 2).toNat) hbytes
      simp only [u16_echo, BitVec.toNat_ofNat] at hfield
      have hbound := (u16 p.stored 2).isLt
      change p.length < 2 ^ 16 at hbound
      omega

theorem UnknownParameter.length_le_array (ps : List UnknownParameter) : ps.length ≤ (array ps).length := by
  induction ps with
  | nil => exact le_rfl
  | cons p ps ih =>
    have hfour := p.four_le_length
    rw [array, List.flatMap_cons, List.length_append, List.length_cons]
    change ps.length ≤ (ps.flatMap stored).length at ih
    omega

theorem echoes_iff (ps : List UnknownParameter) : Echoes ps ↔ ∀ p ∈ ps, p.length < 256 :=
  unrecognized_array_iff ps (length_le_array ps)

theorem UnknownParameter.array_injective : ∀ {ps ps' : List UnknownParameter}, array ps = array ps' → ps = ps'
  | [], [], _ => rfl
  | [], p' :: ps', h => absurd (List.append_eq_nil_iff.mp h.symm).1 p'.nonempty
  | p :: ps, [], h => absurd (List.append_eq_nil_iff.mp h).1 p.nonempty
  | p :: ps, p' :: ps', h => by
    rw [array, array, List.flatMap_cons, List.flatMap_cons] at h
    have hlength : p.length = p'.length := by
      rw [p.length_append (ps.flatMap stored), p'.length_append (ps'.flatMap stored), h]
    have hbytes : p.stored.length = p'.stored.length := by
      rw [p.length_eq, p'.length_eq]
      exact congrArg addPadding hlength
    obtain ⟨hhead, htail⟩ := List.append_inj h hbytes
    rw [UnknownParameter.ext hhead, array_injective htail]

end Serializer

/-! ## The parser -/

/-- The array holds parameters from the buffer. -/
def StoredFrom (buf params : List Byte) : Prop :=
  ∃ ps : List UnknownParameter, params = array ps ∧ ∀ p ∈ ps, p.stored <:+: buf

section Parser

variable {bs buf : List Byte}

theorem StoredFrom.mono {params : List Byte} (h : StoredFrom bs params) (hbs : bs <:+: buf) :
    StoredFrom buf params := by
  obtain ⟨ps, hps, hwithin⟩ := h
  exact ⟨ps, hps, fun p hp ↦ (hwithin p hp).trans hbs⟩

theorem outcome_need_trivial (n : ℕ) : Outcome (need bs n) (fun _ ↦ n ≤ bs.length) fun _ ↦ True :=
  (outcome_need n).mono (fun _ hn ↦ hn) fun _ _ ↦ trivial

/-- A parameter that is reported is stored with its padding. -/
theorem initParam_storedFrom (ack : Bool) (p : ℕ) {c : InitAckChunk}
    (h : StoredFrom bs c.unrecognizedParameters) :
    Outcome (initParam bs ack p c) (fun x ↦ StoredFrom bs x.1.unrecognizedParameters) fun _ ↦ True := by
  apply Outcome.bind (outcome_need_trivial _)
  intro _ _
  apply Outcome.ite
  · exact fun _ ↦ h
  intro _
  apply Outcome.ite
  · exact fun _ ↦ Outcome.bind (outcome_need_trivial _) fun _ _ ↦ h
  intro _
  apply Outcome.ite
  · exact fun _ ↦ Outcome.bind (outcome_need_trivial _) fun _ _ ↦ h
  intro _
  apply Outcome.ite
  · exact fun _ ↦ Outcome.bind (outcome_need_trivial _) fun _ _ ↦ h
  intro _
  apply Outcome.ite
  · intro hreport
    apply Outcome.bind (outcome_need_trivial _)
    intro _ hfits
    obtain ⟨ps, hps, hwithin⟩ := h
    have hwithin' : bytes bs (20 + p) (addPadding (paramLength bs p)) <:+: bs :=
      (List.take_prefix _ _).isInfix.trans (List.drop_suffix _ _).isInfix
    have hlength : (bytes bs (20 + p) (addPadding (paramLength bs p))).length =
        addPadding (paramLength bs p) := by
      rw [bytes, List.length_take, List.length_drop]
      omega
    by_cases hempty : bytes bs (20 + p) (addPadding (paramLength bs p)) = []
    · refine ⟨ps, ?_, hwithin⟩
      change c.unrecognizedParameters ++ _ = _
      rw [hempty, List.append_nil, hps]
    · have hpos := List.length_pos_of_ne_nil hempty
      have hfour : 4 ≤ addPadding (paramLength bs p) := by
        rw [hlength] at hpos
        unfold addPadding at hpos ⊢
        omega
      have hreported : (u16 (bytes bs (20 + p) (addPadding (paramLength bs p))) 0).getLsbD 14 = true := by
        rw [u16_bytes _ (by omega)]
        exact hreport
      have hpadded : (bytes bs (20 + p) (addPadding (paramLength bs p))).length =
          addPadding (u16 (bytes bs (20 + p) (addPadding (paramLength bs p))) 2).toNat := by
        rw [hlength, u16_bytes _ (by omega)]
        rfl
      refine ⟨ps ++ [⟨_, hreported, hpadded, hempty⟩], ?_, ?_⟩
      · change c.unrecognizedParameters ++ _ = _
        rw [hps, array, array, List.flatMap_append, List.flatMap_singleton]
      · exact List.forall_mem_append.mpr ⟨hwithin, List.forall_mem_singleton.mpr hwithin'⟩
  · exact fun _ ↦ h

/-- Only INIT chunks count here, whose array holds parameters from the buffer. -/
def ChunkStoredFrom (buf : List Byte) (chunk : SCTPChunk) : Prop :=
  ∀ c, chunk = .init c → StoredFrom buf c.unrecognizedParameters

theorem parseInit_storedFrom (ack : Bool) :
    Outcome (parseInit bs ack) (ChunkStoredFrom bs) fun _ ↦ True := by
  apply Outcome.bind (outcome_need_trivial _)
  intro _ _
  refine Outcome.bind (Q := fun c : InitAckChunk ↦ StoredFrom bs c.unrecognizedParameters)
    (Outcome.walk_invariant trivial ?_ _ _ ⟨[], rfl, List.forall_mem_nil _⟩) ?_
  · intro p c hc
    apply Outcome.ite
    · exact fun _ ↦ Outcome.bind (initParam_storedFrom ack p hc) fun _ hx ↦ hx
    · exact fun _ ↦ hc
  · intro c hc c' hc'
    cases ack with
    | true => cases hc'
    | false =>
      cases hc'
      exact hc

theorem parseData_storedFrom : Outcome (parseData bs) (ChunkStoredFrom bs) fun _ ↦ True := by
  apply Outcome.ite
  · exact fun _ ↦ trivial
  · intro _
    apply Outcome.bind (outcome_need_trivial _)
    intro _ _
    apply Outcome.ite
    · exact fun _ ↦ Outcome.bind (outcome_need_trivial _) fun _ _ ↦ nofun
    · exact fun _ ↦ nofun

theorem parseSack_storedFrom : Outcome (parseSack bs) (ChunkStoredFrom bs) fun _ ↦ True := by
  apply Outcome.bind (outcome_need_trivial _)
  intro _ _
  exact Outcome.bind (outcome_need_trivial _) fun _ _ ↦ nofun

theorem parseHeartbeat_storedFrom (ack : Bool) :
    Outcome (parseHeartbeat bs ack) (ChunkStoredFrom bs) fun _ ↦ True := by
  apply Outcome.ite
  · intro _
    refine Outcome.bind (Outcome.walk trivial (fun p c ↦ ?_) _ _ _) fun _ _ ↦ nofun
    exact (ackInfoBody_fault p c).mono (fun _ _ ↦ trivial) fun _ _ ↦ trivial
  · intro _
    refine Outcome.bind (Outcome.walk trivial (fun p c ↦ ?_) _ _ _) fun _ _ ↦ nofun
    exact (infoBody_fault p c).mono (fun _ _ ↦ trivial) fun _ _ ↦ trivial

theorem parseCookieEcho_storedFrom :
    Outcome (parseCookieEcho bs) (ChunkStoredFrom bs) fun _ ↦ True := by
  apply Outcome.ite
  · exact fun _ ↦ Outcome.bind (outcome_need_trivial _) fun _ _ ↦ nofun
  · exact fun _ ↦ nofun

theorem parseChunk_storedFrom :
    Outcome (parseChunk bs) (fun o ↦ ∀ chunk ∈ o, ChunkStoredFrom bs chunk) fun _ ↦ True := by
  have hsome {x : Except ParseFault SCTPChunk} (h : Outcome x (ChunkStoredFrom bs) fun _ ↦ True) :
      Outcome (some <$> x) (fun o ↦ ∀ chunk ∈ o, ChunkStoredFrom bs chunk) fun _ ↦ True := by
    apply (h.post ?_).map
    intro chunk hchunk chunk' hmem
    rwa [← Option.mem_some_iff.mp hmem]
  have hother {chunk : SCTPChunk} (h : ∀ c, chunk ≠ .init c) :
      ∀ chunk' ∈ some chunk, ChunkStoredFrom bs chunk' := by
    intro chunk' hmem c hc
    rw [← Option.mem_some_iff.mp hmem] at hc
    exact absurd hc (h c)
  apply Outcome.bind (outcome_need_trivial _)
  intro _ _
  split
  · exact hsome parseData_storedFrom
  · exact hsome (parseInit_storedFrom false)
  · exact hsome (parseInit_storedFrom true)
  · exact hsome parseSack_storedFrom
  · exact hsome (parseHeartbeat_storedFrom false)
  · exact hsome (parseHeartbeat_storedFrom true)
  · exact hother nofun
  · exact Outcome.bind (outcome_need_trivial _) fun _ _ ↦ hother nofun
  · exact hother nofun
  · exact hother nofun
  · exact hsome parseCookieEcho_storedFrom
  · exact hother nofun
  · exact hother nofun
  · exact nofun

theorem parseChunks_storedFrom (chunks : List Byte) (rounds : ℕ) : ∀ {pos : ℕ} {acc : List SCTPChunk},
    (∀ chunk ∈ acc, ChunkStoredFrom chunks chunk) →
    Outcome (parseChunks chunks rounds pos acc) (fun out ↦ ∀ chunk ∈ out, ChunkStoredFrom chunks chunk)
      fun _ ↦ True := by
  induction rounds with
  | zero => exact fun _ ↦ trivial
  | succ rounds ih =>
    intro pos acc hacc
    rw [parseChunks]
    apply Outcome.ite
    · intro _
      have hchunk := @parseChunk_storedFrom (chunks.drop pos)
      cases hrun : parseChunk (chunks.drop pos) with
      | error e => trivial
      | ok o =>
        apply ih
        intro chunk hmem c hc
        rcases List.mem_append.mp hmem with hold | hnew
        · exact hacc chunk hold c hc
        · exact (hchunk.of_eq_ok hrun chunk (Option.mem_toList.mp hnew) c hc).mono
            (List.drop_suffix pos chunks).isInfix
    · exact fun _ ↦ hacc

theorem parse_storedFrom {rounds : ℕ} {msg : SCTPMessage} (h : parse rounds buf = .ok msg) {c : InitChunk}
    (hc : .init c ∈ msg.chunks) : StoredFrom buf c.unrecognizedParameters := by
  obtain ⟨_, -, h⟩ := bind_ok_iff.mp h
  obtain ⟨chunks, hchunks, h⟩ := bind_ok_iff.mp h
  cases h
  have hstored := (parseChunks_storedFrom (buf.drop 12) rounds (List.forall_mem_nil _)).of_eq_ok hchunks
  exact (hstored _ hc c rfl).mono (List.drop_suffix 12 buf).isInfix

end Parser

/-! ## Packets -/

/-- In a packet that the parser accepts, the unrecognized parameters of an INIT chunk come back as they were
exactly if none is longer than 255 bytes. -/
theorem parse_echoes_iff {rounds : ℕ} {buf : List Byte} {msg : SCTPMessage} {c : InitChunk}
    (h : parse rounds buf = .ok msg) (hc : .init c ∈ msg.chunks) :
    ∃ ps : List UnknownParameter, c.unrecognizedParameters = array ps ∧
      (∀ ps', c.unrecognizedParameters = array ps' → ps' = ps) ∧ (∀ p ∈ ps, p.stored <:+: buf) ∧
      (Echoes ps ↔ ∀ p ∈ ps, p.length < 256) := by
  obtain ⟨ps, hps, hwithin⟩ := parse_storedFrom h hc
  refine ⟨ps, hps, fun ps' hps' ↦ ?_, hwithin, echoes_iff ps⟩
  exact array_injective (hps'.symm.trans hps)

/-- A packet with an INIT chunk that has one parameter, of type 0xC001. -/
def initPacket (high low : Byte) (value : List Byte) : List Byte :=
  List.replicate 12 0 ++ chunkHeader 1 0 (24 + value.length) ++ List.replicate 16 0 ++
    ([0xC0, 1, high, low] ++ value)

theorem parse_echoes_iff_short :
    ∃ ps : List UnknownParameter, ([0xC0, 1, 0, 8, 1, 2, 3, 4] : List Byte) = array ps ∧
      (∀ ps', ([0xC0, 1, 0, 8, 1, 2, 3, 4] : List Byte) = array ps' → ps' = ps) ∧
      (∀ p ∈ ps, p.stored <:+: initPacket 0 8 [1, 2, 3, 4]) ∧
      (Echoes ps ↔ ∀ p ∈ ps, p.length < 256) :=
  @parse_echoes_iff 2 (initPacket 0 8 [1, 2, 3, 4])
    { chunks := [.init { unrecognizedParameters := [0xC0, 1, 0, 8, 1, 2, 3, 4] }] }
    { unrecognizedParameters := [0xC0, 1, 0, 8, 1, 2, 3, 4] } (by decide +kernel) (by decide)

/-- A parameter of 260 bytes. -/
def longParameter : UnknownParameter where
  stored := [0xC0, 1, 1, 4] ++ List.replicate 256 0
  reported := by decide
  length_eq := by decide +kernel
  nonempty := nofun

theorem not_parse_echoes_long : ¬ ∀ (rounds : ℕ) (buf : List Byte) (msg : SCTPMessage) (c : InitChunk),
    parse rounds buf = .ok msg → .init c ∈ msg.chunks →
    ∃ ps : List UnknownParameter, c.unrecognizedParameters = array ps ∧ Echoes ps := by
  intro h
  obtain ⟨ps, hps, hechoes⟩ := h 2 (initPacket 1 4 (List.replicate 256 0))
    { chunks := [.init { unrecognizedParameters := longParameter.stored }] }
    { unrecognizedParameters := longParameter.stored } (by decide +kernel) (by simp)
  have hlong : array [longParameter] = longParameter.stored := List.flatMap_singleton ..
  have hone := array_injective (hlong.trans hps)
  rw [echoes_iff, ← hone] at hechoes
  exact absurd (hechoes longParameter (by simp)) (by decide)

end InetManet.SCTP
