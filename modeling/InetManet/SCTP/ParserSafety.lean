import InetManet.SCTP.Serializer

/-!
# Buffers the parser can read

`SCTPSerializer::parse` takes every length from the packet and compares none of them with `bufsize`.
`WellFormed` says of a buffer what the parser relies on: the fixed part of every chunk and every
parameter that is read lie within it, and every length that moves a loop on is positive. On these
buffers, and on no others, `parse` ends without a read past the buffer.
-/

namespace InetManet.SCTP

open TransitionSystem ByteOrder

/-- `parse` ends, with a message or with the exception for an empty DATA chunk, after reads within
the buffer only. -/
def ParsesSafely (buf : List Byte) : Prop :=
  ∃ rounds, Succeeds (parse rounds buf) ∨ parse rounds buf = .error .runtimeError

/-! ## Well-formed buffers -/

section Conditions

variable (bs : List Byte)

/-- How much of the INIT or INIT_ACK parameter at `p` is read. -/
def paramNeed (ack : Bool) (p : ℕ) : ℕ :=
  if paramType bs p = 12 then 4
  else if paramType bs p = 5 then 8
  else if paramType bs p = 6 then 20
  else if ack ∧ paramType bs p = 7 then max 4 (paramLength bs p)
  else if (u16 bs (20 + p)).getLsbD 14 then max 4 (addPadding (paramLength bs p))
  else 4

/-- The parameter at `p` is unknown and its type says to stop there. -/
def paramStops (ack : Bool) (p : ℕ) : Bool :=
  paramType bs p ≠ 12 ∧ paramType bs p ≠ 5 ∧ paramType bs p ≠ 6 ∧
    ¬ (ack ∧ paramType bs p = 7) ∧ !(u16 bs (20 + p)).getLsbD 15

/-- Where the loop over INIT parameters goes from `p`. -/
def paramNext (ack : Bool) (p : ℕ) : Option (Option ℕ) :=
  if cLen bs ≤ 20 + p then some none
  else if bs.length < 20 + p + paramNeed bs ack p then none
  else if paramStops bs ack p then some none
  else some (some (addPadding (paramLength bs p)))

/-- Where the loop over HEARTBEAT parameters goes from `p`. -/
def infoNext (p : ℕ) : Option (Option ℕ) :=
  if cLen bs ≤ 4 + p then some none
  else if bs.length < 4 + p + (if infoType bs p = 1 then max 4 (infoLength bs p) else 4) then none
  else some (some (addPadding (infoLength bs p)))

/-- Where the loop over HEARTBEAT_ACK parameters goes from `p`. -/
def ackInfoNext (p : ℕ) : Option (Option ℕ) :=
  if cLen bs ≤ 4 + p then some none
  else if bs.length < 4 + p + (if infoType bs p = 1 then 12 else 4) then none
  else some (some (if infoType bs p = 1 then 12 else infoLength bs p))

/-- What the parser reads of the chunk lies within the buffer. -/
def ChunkFits : Prop :=
  4 ≤ bs.length ∧
    match chunkType bs with
    | 0 => chunkLength bs ≠ 0 ∧ 16 ≤ bs.length ∧ chunkLength bs ≤ bs.length
    | 1 => 20 ≤ bs.length ∧ Walks (paramNext bs false) 0
    | 2 => 20 ≤ bs.length ∧ Walks (paramNext bs true) 0
    | 3 => 16 + 4 * (u16 bs 12).toNat + 4 * (u16 bs 14).toNat ≤ bs.length
    | 4 => Walks (infoNext bs) 0
    | 5 => Walks (ackInfoNext bs) 0
    | 7 => 8 ≤ bs.length
    | 10 => cLen bs ≤ 4 ∨ 80 ≤ bs.length
    | _ => True

/-- An empty DATA chunk, which makes the parser throw. -/
def EmptyData : Prop := 4 ≤ bs.length ∧ chunkType bs = 0 ∧ chunkLength bs = 0

end Conditions

/-- From `pos` on there are chunks that fit, up to the end or to an empty DATA chunk. A chunk of
length `0` is followed by itself. -/
inductive ChunksFit (chunks : List Byte) : ℕ → Prop
  | done {pos : ℕ} : chunks.length ≤ pos → ChunksFit chunks pos
  | rejected {pos : ℕ} : EmptyData (chunks.drop pos) → ChunksFit chunks pos
  | next {pos : ℕ} : ChunkFits (chunks.drop pos) →
      ChunksFit chunks ((pos + cLen (chunks.drop pos)) % 2 ^ 32) → ChunksFit chunks pos

/-- The common header and all chunks lie within the buffer. -/
def WellFormed (buf : List Byte) : Prop := 12 ≤ buf.length ∧ ChunksFit (buf.drop 12) 0

/-! ## One chunk -/

section Chunk

variable {α : Type} {bs : List Byte}

theorem succeeds_need_bind {n : ℕ} {k : Unit → Except ParseFault α} :
    Succeeds (need bs n >>= k) ↔ n ≤ bs.length ∧ Succeeds (k ()) := by
  unfold need
  by_cases h : n ≤ bs.length
  · rw [if_pos h, ok_bind]
    exact (and_iff_right h).symm
  · rw [if_neg h, error_bind]
    exact iff_of_false (not_succeeds_error _) fun hn ↦ h hn.1

theorem addPadding_eq_zero {n : ℕ} : addPadding n = 0 ↔ n = 0 := by
  unfold addPadding
  omega

theorem initParam_succeeds {ack : Bool} {p : ℕ} {c : InitAckChunk} :
    Succeeds (initParam bs ack p c) ↔ 20 + p + paramNeed bs ack p ≤ bs.length := by
  unfold initParam paramNeed
  rw [succeeds_need_bind]
  by_cases h12 : paramType bs p = 12
  · simp only [if_pos h12, succeeds_pure, and_true]
  by_cases h5 : paramType bs p = 5
  · simp only [if_neg h12, if_pos h5, succeeds_need_bind, succeeds_pure, and_true]
    omega
  by_cases h6 : paramType bs p = 6
  · simp only [if_neg h12, if_neg h5, if_pos h6, succeeds_need_bind, succeeds_pure, and_true]
    omega
  by_cases h7 : ack = true ∧ paramType bs p = 7
  · simp only [if_neg h12, if_neg h5, if_neg h6, if_pos h7, succeeds_need_bind, succeeds_pure,
      and_true]
    omega
  by_cases h14 : (u16 bs (20 + p)).getLsbD 14
  · simp only [if_neg h12, if_neg h5, if_neg h6, if_neg h7, if_pos h14, succeeds_need_bind,
      succeeds_pure, and_true]
    omega
  · simp only [if_neg h12, if_neg h5, if_neg h6, if_neg h7, if_neg h14, succeeds_pure, and_true]

theorem initParam_stops {ack stop : Bool} {p : ℕ} {c c' : InitAckChunk}
    (h : initParam bs ack p c = .ok (c', stop)) : stop = paramStops bs ack p := by
  unfold initParam at h
  rw [bind_ok_iff] at h
  obtain ⟨_, _, h⟩ := h
  unfold paramStops
  by_cases h12 : paramType bs p = 12
  · simp_all [pure, Except.pure]
  by_cases h5 : paramType bs p = 5
  · simp_all [pure, Except.pure, bind_ok_iff]
  by_cases h6 : paramType bs p = 6
  · simp_all [pure, Except.pure, bind_ok_iff]
  by_cases h7 : ack = true ∧ paramType bs p = 7
  · simp_all [pure, Except.pure, bind_ok_iff]
  simp only [h12, h5, h6, h7, if_false] at h
  by_cases h14 : (u16 bs (20 + p)).getLsbD 14
  · simp_all [pure, Except.pure, bind_ok_iff]
  · simp_all [pure, Except.pure]

theorem initBody_describes (ack : Bool) : Describes (paramNext bs ack) (initBody bs ack) := by
  intro p c
  unfold paramNext initBody
  by_cases hend : 20 + p < cLen bs
  · rw [if_neg (Nat.not_le.mpr hend), if_pos hend]
    by_cases hfit : 20 + p + paramNeed bs ack p ≤ bs.length
    · rw [if_neg (Nat.not_lt.mpr hfit)]
      obtain ⟨⟨c', stop⟩, hres⟩ := initParam_succeeds.mpr hfit
      have hstop := initParam_stops hres
      rw [hres, ← hstop]
      cases stop with
      | false => exact ⟨c', rfl⟩
      | true => exact ⟨c', rfl⟩
    · rw [if_pos (Nat.not_le.mp hfit)]
      obtain ⟨e, he⟩ := error_of_not_succeeds fun h ↦ hfit ((initParam_succeeds (c := c)).mp h)
      rw [he]
      exact ⟨e, rfl⟩
  · rw [if_pos (Nat.not_lt.mp hend), if_neg hend]
    exact ⟨c, rfl⟩

theorem infoBody_describes : Describes (infoNext bs) (infoBody bs) := by
  intro p c
  unfold infoNext infoBody need
  by_cases hend : 4 + p < cLen bs
  · rw [if_neg (Nat.not_le.mpr hend), if_pos hend]
    split_ifs <;> first | exact ⟨_, rfl⟩ | omega
  · rw [if_pos (Nat.not_lt.mp hend), if_neg hend]
    exact ⟨c, rfl⟩

theorem ackInfoBody_describes : Describes (ackInfoNext bs) (ackInfoBody bs) := by
  intro p c
  unfold ackInfoNext ackInfoBody need
  by_cases hend : 4 + p < cLen bs
  · rw [if_neg (Nat.not_le.mpr hend), if_pos hend]
    split_ifs <;> first | exact ⟨_, rfl⟩ | omega
  · rw [if_pos (Nat.not_lt.mp hend), if_neg hend]
    exact ⟨c, rfl⟩

theorem parseData_succeeds :
    Succeeds (parseData bs) ↔
      chunkLength bs ≠ 0 ∧ 16 ≤ bs.length ∧ chunkLength bs ≤ bs.length := by
  unfold parseData
  by_cases hzero : chunkLength bs = 0
  · rw [if_pos (addPadding_eq_zero.mpr hzero)]
    exact iff_of_false (not_succeeds_error _) fun h ↦ h.1 hzero
  rw [if_neg fun h ↦ hzero (addPadding_eq_zero.mp h), succeeds_need_bind]
  by_cases hdata : 16 < chunkLength bs
  · simp only [if_pos hdata, succeeds_need_bind, succeeds_pure, and_true]
    exact (and_iff_right hzero).symm
  · simp only [if_neg hdata, succeeds_pure, and_true]
    omega

theorem parseInit_succeeds {ack : Bool} :
    Succeeds (parseInit bs ack) ↔ 20 ≤ bs.length ∧ Walks (paramNext bs ack) 0 := by
  have hbound (p : ℕ) (hp : cLen bs ≤ p) : paramNext bs ack p = some none := if_pos (by omega)
  unfold parseInit
  rw [succeeds_need_bind, bind_pure_comp, succeeds_map,
    walk_ok_iff (initBody_describes ack) hbound (by omega)]

theorem parseSack_succeeds :
    Succeeds (parseSack bs) ↔
      16 + 4 * (u16 bs 12).toNat + 4 * (u16 bs 14).toNat ≤ bs.length := by
  unfold parseSack
  rw [succeeds_need_bind, succeeds_need_bind]
  simp only [succeeds_pure, and_true]
  omega

theorem parseHeartbeat_succeeds {ack : Bool} :
    Succeeds (parseHeartbeat bs ack) ↔ Walks (if ack then ackInfoNext bs else infoNext bs) 0 := by
  unfold parseHeartbeat
  cases ack with
  | true =>
    have hbound (p : ℕ) (hp : cLen bs ≤ p) : ackInfoNext bs p = some none := if_pos (by omega)
    rw [if_pos rfl, if_pos rfl, bind_pure_comp, succeeds_map,
      walk_ok_iff ackInfoBody_describes hbound (by omega)]
  | false =>
    have hbound (p : ℕ) (hp : cLen bs ≤ p) : infoNext bs p = some none := if_pos (by omega)
    rw [if_neg Bool.false_ne_true, if_neg Bool.false_ne_true, bind_pure_comp, succeeds_map,
      walk_ok_iff infoBody_describes hbound (by omega)]

theorem parseCookieEcho_succeeds :
    Succeeds (parseCookieEcho bs) ↔ cLen bs ≤ 4 ∨ 80 ≤ bs.length := by
  unfold parseCookieEcho
  by_cases hcookie : 4 < cLen bs
  · simp only [if_pos hcookie, succeeds_need_bind, succeeds_pure, and_true]
    omega
  · rw [if_neg hcookie]
    exact iff_of_true (succeeds_pure _) (.inl (Nat.not_lt.mp hcookie))

theorem parseChunk_succeeds : Succeeds (parseChunk bs) ↔ ChunkFits bs := by
  unfold parseChunk ChunkFits
  rw [succeeds_need_bind]
  apply and_congr_right
  intro _
  generalize chunkType bs = type
  split
  · exact (succeeds_map _ _).trans parseData_succeeds
  · exact (succeeds_map _ _).trans parseInit_succeeds
  · exact (succeeds_map _ _).trans parseInit_succeeds
  · exact (succeeds_map _ _).trans parseSack_succeeds
  · exact (succeeds_map _ _).trans parseHeartbeat_succeeds
  · exact (succeeds_map _ _).trans parseHeartbeat_succeeds
  · simp
  · exact succeeds_need_bind.trans (and_iff_left (succeeds_pure _))
  · simp
  · simp
  · exact (succeeds_map _ _).trans parseCookieEcho_succeeds
  · simp
  · simp
  · simp_all

/-! Only an empty DATA chunk makes the parser throw. -/

theorem outcome_need (n : ℕ) :
    Outcome (need bs n) (fun _ ↦ n ≤ bs.length) (· ≠ .runtimeError) := by
  apply Outcome.ite
  · exact fun hn ↦ hn
  · exact fun _ h ↦ by cases h

theorem initParam_fault (ack : Bool) (p : ℕ) (c : InitAckChunk) :
    Outcome (initParam bs ack p c) (fun _ ↦ True) (· ≠ .runtimeError) := by
  apply Outcome.bind (outcome_need _)
  intro _ _
  repeat' apply Outcome.ite <;> intro _
  all_goals first | exact trivial | exact Outcome.bind (outcome_need _) fun _ _ ↦ trivial

theorem initBody_fault (ack : Bool) (p : ℕ) (c : InitAckChunk) :
    Outcome (initBody bs ack p c) (fun _ ↦ True) (· ≠ .runtimeError) := by
  apply Outcome.ite
  · exact fun _ ↦ Outcome.bind (initParam_fault ack p c) fun _ _ ↦ trivial
  · exact fun _ ↦ trivial

theorem infoBody_fault (p : ℕ) (c : HeartbeatChunk) :
    Outcome (infoBody bs p c) (fun _ ↦ True) (· ≠ .runtimeError) := by
  apply Outcome.ite
  · intro _
    apply Outcome.bind (outcome_need _)
    intro _ _
    apply Outcome.ite
    · exact fun _ ↦ Outcome.bind (outcome_need _) fun _ _ ↦ trivial
    · exact fun _ ↦ trivial
  · exact fun _ ↦ trivial

theorem ackInfoBody_fault (p : ℕ) (c : HeartbeatChunk) :
    Outcome (ackInfoBody bs p c) (fun _ ↦ True) (· ≠ .runtimeError) := by
  apply Outcome.ite
  · intro _
    apply Outcome.bind (outcome_need _)
    intro _ _
    apply Outcome.ite
    · exact fun _ ↦ Outcome.bind (outcome_need _) fun _ _ ↦ trivial
    · exact fun _ ↦ trivial
  · exact fun _ ↦ trivial

theorem parseInit_fault (ack : Bool) :
    Outcome (parseInit bs ack) (fun _ ↦ True) (· ≠ .runtimeError) := by
  apply Outcome.bind (outcome_need _)
  intro _ _
  apply Outcome.bind (Outcome.walk (by simp) (initBody_fault ack) _ _ _)
  exact fun _ _ ↦ trivial

theorem parseSack_fault : Outcome (parseSack bs) (fun _ ↦ True) (· ≠ .runtimeError) := by
  apply Outcome.bind (outcome_need _)
  intro _ _
  exact Outcome.bind (outcome_need _) fun _ _ ↦ trivial

theorem parseHeartbeat_fault (ack : Bool) :
    Outcome (parseHeartbeat bs ack) (fun _ ↦ True) (· ≠ .runtimeError) := by
  apply Outcome.ite
  · intro _
    exact Outcome.bind (Outcome.walk (by simp) ackInfoBody_fault _ _ _) fun _ _ ↦ trivial
  · intro _
    exact Outcome.bind (Outcome.walk (by simp) infoBody_fault _ _ _) fun _ _ ↦ trivial

theorem parseCookieEcho_fault :
    Outcome (parseCookieEcho bs) (fun _ ↦ True) (· ≠ .runtimeError) := by
  apply Outcome.ite
  · exact fun _ ↦ Outcome.bind (outcome_need _) fun _ _ ↦ trivial
  · exact fun _ ↦ trivial

theorem parseData_fault (h : chunkLength bs ≠ 0) :
    Outcome (parseData bs) (fun _ ↦ True) (· ≠ .runtimeError) := by
  apply Outcome.ite
  · exact fun hzero ↦ absurd (addPadding_eq_zero.mp hzero) h
  · intro _
    apply Outcome.bind (outcome_need _)
    intro _ _
    apply Outcome.ite
    · exact fun _ ↦ Outcome.bind (outcome_need _) fun _ _ ↦ trivial
    · exact fun _ ↦ trivial

theorem parseChunk_fault (h : ¬ EmptyData bs) :
    Outcome (parseChunk bs) (fun _ ↦ True) (· ≠ .runtimeError) := by
  apply Outcome.bind (outcome_need _)
  intro _ hlen
  have hdata : chunkType bs = 0 → chunkLength bs ≠ 0 := fun h0 hz ↦ h ⟨hlen, h0, hz⟩
  generalize chunkType bs = type at hdata
  split
  · exact (parseData_fault (hdata rfl)).map
  · exact (parseInit_fault false).map
  · exact (parseInit_fault true).map
  · exact parseSack_fault.map
  · exact (parseHeartbeat_fault false).map
  · exact (parseHeartbeat_fault true).map
  · exact trivial
  · exact Outcome.bind (outcome_need _) fun _ _ ↦ trivial
  · exact trivial
  · exact trivial
  · exact parseCookieEcho_fault.map
  · exact trivial
  · exact trivial
  · exact trivial

theorem parseChunk_runtimeError :
    parseChunk bs = .error .runtimeError ↔ EmptyData bs := by
  constructor
  · intro h
    by_contra hne
    exact (parseChunk_fault hne).of_eq_error h rfl
  · intro h
    unfold parseChunk need parseData
    rw [if_pos h.1, h.2.1, h.2.2]
    rfl

end Chunk

/-! ## Whole buffers -/

theorem parseChunks_safe_iff (chunks : List Byte) (pos : ℕ) (acc : List SCTPChunk) :
    (∃ rounds, Succeeds (parseChunks chunks rounds pos acc) ∨
      parseChunks chunks rounds pos acc = .error .runtimeError) ↔ ChunksFit chunks pos := by
  constructor
  · intro h
    obtain ⟨rounds, h⟩ := h
    induction rounds generalizing pos acc with
    | zero => simp [parseChunks] at h
    | succ rounds ih =>
      unfold parseChunks at h
      by_cases hpos : pos < chunks.length
      · rw [if_pos hpos] at h
        cases hres : parseChunk (chunks.drop pos) with
        | error e =>
          rw [hres] at h
          obtain h | h := h
          · exact absurd h (not_succeeds_error e)
          · rw [Except.error.inj h] at hres
            exact .rejected (parseChunk_runtimeError.mp hres)
        | ok chunk =>
          rw [hres] at h
          exact .next (parseChunk_succeeds.mp ⟨chunk, hres⟩) (ih _ _ h)
      · exact .done (Nat.not_lt.mp hpos)
  · intro h
    induction h generalizing acc with
    | done hpos =>
      refine ⟨1, .inl ?_⟩
      unfold parseChunks
      rw [if_neg (Nat.not_lt.mpr hpos)]
      exact succeeds_ok acc
    | @rejected pos hempty =>
      have hpos : pos < chunks.length := by
        have hlen := hempty.1
        rw [List.length_drop] at hlen
        omega
      refine ⟨1, .inr ?_⟩
      unfold parseChunks
      rw [if_pos hpos, parseChunk_runtimeError.mpr hempty]
    | @next pos hfits _ ih =>
      have hpos : pos < chunks.length := by
        have hlen := hfits.1
        rw [List.length_drop] at hlen
        omega
      obtain ⟨chunk, hchunk⟩ := parseChunk_succeeds.mpr hfits
      obtain ⟨rounds, hrounds⟩ := ih (acc ++ chunk.toList)
      refine ⟨rounds + 1, ?_⟩
      unfold parseChunks
      rw [if_pos hpos, hchunk]
      exact hrounds

theorem parse_short {buf : List Byte} (h : ¬ 12 ≤ buf.length) (rounds : ℕ) :
    parse rounds buf = .error .outOfBounds := by
  unfold parse need
  rw [if_neg h, error_bind]

theorem parse_chunks {buf : List Byte} (h : 12 ≤ buf.length) (rounds : ℕ) :
    parse rounds buf = (fun chunks ↦ ⟨u16 buf 0, u16 buf 2, u32 buf 4, chunks⟩) <$>
      parseChunks (buf.drop 12) rounds 0 [] := by
  unfold parse need
  rw [if_pos h, ok_bind, bind_pure_comp]

/-- `parse` reads within the buffer and ends exactly on the well-formed buffers. -/
theorem parsesSafely_iff_wellFormed (buf : List Byte) : ParsesSafely buf ↔ WellFormed buf := by
  unfold ParsesSafely WellFormed
  by_cases hlen : 12 ≤ buf.length
  · rw [and_iff_right hlen, ← parseChunks_safe_iff _ _ []]
    apply exists_congr
    intro rounds
    rw [parse_chunks hlen, succeeds_map]
    apply or_congr_right
    cases parseChunks (buf.drop 12) rounds 0 [] with
    | error e => simp
    | ok chunks => simp
  · simp [hlen, parse_short]

/-- A COOKIE_ACK chunk of length `0`. -/
def emptyChunk : List Byte := [11, 0, 0, 0]

theorem parseChunks_emptyChunk (rounds : ℕ) (acc : List SCTPChunk) :
    parseChunks emptyChunk rounds 0 acc = .error .endlessLoop := by
  induction rounds generalizing acc with
  | zero => rfl
  | succ rounds ih => exact ih (acc ++ [.cookieAck 0])

/-- The parser never leaves a chunk of length `0`, and it reads four bytes of a chunk that has one. -/
theorem not_parsesSafely_emptyChunk :
    ¬ ParsesSafely (List.replicate 12 0 ++ emptyChunk) ∧
      parse 1 (List.replicate 13 0) = .error .outOfBounds := by
  constructor
  · intro h
    obtain ⟨rounds, h⟩ := h
    have hparse : parse rounds (List.replicate 12 0 ++ emptyChunk) = .error .endlessLoop := by
      calc parse rounds (List.replicate 12 0 ++ emptyChunk)
          = _ <$> parseChunks emptyChunk rounds 0 [] := parse_chunks (by decide) rounds
        _ = .error .endlessLoop := by rw [parseChunks_emptyChunk]; rfl
    rw [hparse] at h
    simp at h
  · rfl

end InetManet.SCTP
