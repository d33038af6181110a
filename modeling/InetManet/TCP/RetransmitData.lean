import InetManet.TCP.SendData

/-!
# What `retransmitData` puts on the wire

Everything from `snd_una` to `snd_max` is sent again in segments of at most `snd_mss` bytes, and our FIN
with the last one if it has been sent before. The loop ends early behind `snd_fin_seq`: if bytes were queued
behind the place of the FIN and sent without it, a segment that ends there gets a FIN that was never sent,
and the bytes behind it are left out.
-/

namespace InetManet.TCP

open TransitionSystem SerialNumber

namespace TCPConnection

/-- The outstanding bytes; our FIN is not among them. -/
def outstandingBytes (c : TCPConnection) : ℕ :=
  min c.inFlight (c.sendQueue.getBytesAvailable c.sndUna)

/-- The segments cover exactly what is outstanding, and `snd_nxt` is `snd_max` again. -/
structure Resent (c : TCPConnection) (segs : List TCPSegment) (c' : TCPConnection) : Prop where
  contiguous : Contiguous c.sndUna segs
  sizes : ∀ seg ∈ segs, seg.payloadLength ≤ c.sndMss.toNat
  bytes : totalBytes segs = c.outstandingBytes
  fin : finCount segs = c.inFlight - c.outstandingBytes
  nxt : c'.sndNxt = c.sndMax
  max : c'.sndMax = c.sndMax

/-- `retransmitData` returns, and has sent what is outstanding and nothing else. -/
def ResendsOutstanding (c : TCPConnection) : Prop :=
  ∃ c' segs, c.retransmitData = .ok c' ∧ c'.log = c.log ++ segs.map .toIP ∧ c.Resent segs c'

/-- The place of the FIN allows `len` sequence numbers to be sent from `snd_nxt` on. If the queue holds them
all, no segment among them ends at `snd_fin_seq`, and only the last one may end right behind it. If it does
not, `snd_fin_seq` is the end of the queue. -/
structure Resendable (c : TCPConnection) (len : ℕ) : Prop where
  data : len ≤ c.sendQueue.getBytesAvailable c.sndNxt → 0 < c.sndMss.toNat ∧
    (c.sendFinFlag = true → c.sndNxt + BitVec.ofNat 32 len ≠ c.sndFinSeq ∧
      ∀ k, 0 < k → k * c.sndMss.toNat < len →
        c.sndNxt + BitVec.ofNat 32 (k * c.sndMss.toNat) ≠ c.sndFinSeq ∧
        c.sndNxt + BitVec.ofNat 32 (k * c.sndMss.toNat) ≠ c.sndFinSeq + 1)
  fin : c.sendQueue.getBytesAvailable c.sndNxt < len → c.sendFinFlag = true ∧
    c.sndNxt + BitVec.ofNat 32 (c.sendQueue.getBytesAvailable c.sndNxt) = c.sndFinSeq ∧
    (0 < c.sndMss.toNat ∨ c.sendQueue.getBytesAvailable c.sndNxt = 0)

section Loop

variable {c c' : TCPConnection} {bytes len rounds : ℕ} {segs : List TCPSegment}

theorem Holding.available_eq (h : c.Holding 0) :
    c.sendQueue.getBytesAvailable c.sndNxt = c.offset c.sendQueue.endSeq - c.offset c.sndNxt := by
  have hfits := h.fits
  have hroom := h.room
  unfold offset at hfits hroom ⊢
  unfold TCPVirtualDataSendQueue.getBytesAvailable TCPVirtualDataSendQueue.getBufferEndSeq seqLess
  by_cases heq : c.sndNxt = c.sendQueue.endSeq
  · rw [heq]
    simp
  · have hne : (c.sndNxt != c.sendQueue.endSeq) = true := bne_iff_ne.mpr heq
    have hsub : (c.sendQueue.endSeq - c.sndNxt).toNat =
        (c.sendQueue.endSeq - c.sendQueue.beginSeq).toNat -
          (c.sndNxt - c.sendQueue.beginSeq).toNat := by
      bv_omega
    rw [hne, hsub, Bool.true_and, if_pos (by rw [decide_eq_true_eq]; omega)]

theorem Holding.of_le (h : c.Holding 0) (hle : bytes ≤ c.sendQueue.getBytesAvailable c.sndNxt) :
    c.Holding bytes := by
  rw [h.available_eq] at hle
  have hfits := h.fits
  exact ⟨by omega, h.room⟩

/-- The segment goes out, and if the FIN does not ride on it the rest of the queue remains. -/
theorem Holding.sendSegment_ok (h : c.Holding 0)
    (hle : bytes ≤ c.sendQueue.getBytesAvailable c.sndNxt) :
    c.sendSegment bytes = .ok (c.afterSegment bytes) := by
  rw [sendSegment_eq, (h.of_le hle).queueHolds, check_true, ok_bind]

theorem Holding.after (h : c.Holding 0) (hle : bytes ≤ c.sendQueue.getBytesAvailable c.sndNxt)
    (hride : c.finRides bytes = false) :
    (c.afterSegment bytes).Holding 0 ∧
      (c.afterSegment bytes).sendQueue.getBytesAvailable (c.afterSegment bytes).sndNxt =
        c.sendQueue.getBytesAvailable c.sndNxt - bytes := by
  have hheld : c.Holding (bytes + 0) := h.of_le hle
  have hnext := hheld.next c hride
  refine ⟨hnext, ?_⟩
  have hnxt := c.afterSegment_sndNxt bytes
  have hfits := (h.of_le hle).fits
  have hroom := h.room
  rw [hnext.available_eq, h.available_eq]
  rw [hride] at hnxt
  unfold offset at hfits hroom ⊢
  rw [(c.sends_afterSegment bytes).sendQueue, hnxt]
  simp only [Bool.toNat_false]
  bv_omega

/-! ### One round -/

/-- The bytes that the round takes. -/
def roundBytes (c : TCPConnection) (len : ℕ) : ℕ :=
  min (min len c.sndMss.toNat) (c.sendQueue.getBytesAvailable c.sndNxt)

/-- The loop is left behind `snd_fin_seq`, whether the FIN rides on the segment or not. -/
def stopsBehind (c : TCPConnection) (bytes : ℕ) : Bool :=
  c.sendFinFlag && c.sndNxt + BitVec.ofNat 32 bytes == c.sndFinSeq + 1

theorem log_afterSegment (bytes : ℕ) :
    (c.afterSegment bytes).log = c.log ++ [.toIP (c.addressed (c.segmentOf bytes))] := rfl

theorem sndNxt_of_rides (h : c.finRides bytes = true) : (c.afterSegment bytes).sndNxt = c.sndFinSeq + 1 :=
  if_pos h

theorem sndNxt_of_not_rides (h : c.finRides bytes = false) :
    (c.afterSegment bytes).sndNxt = c.sndNxt + BitVec.ofNat 32 bytes := by
  apply if_neg
  rw [h]
  exact Bool.false_ne_true

theorem roundBytes_le : c.roundBytes len ≤ c.sendQueue.getBytesAvailable c.sndNxt := min_le_right _ _

theorem retransmitLoop_round (h : c.Holding 0) (hpos : 0 < len) :
    retransmitLoop (rounds + 1) c len =
      if c.finRides (c.roundBytes len) || c.stopsBehind (c.roundBytes len) then
        .ok (c.afterSegment (c.roundBytes len))
      else retransmitLoop rounds (c.afterSegment (c.roundBytes len)) (len - c.roundBytes len) := by
  have hsends := c.sends_afterSegment (c.roundBytes len)
  rw [retransmitLoop, if_pos hpos]
  show (c.sendSegment (c.roundBytes len) >>= _) = _
  rw [h.sendSegment_ok roundBytes_le, ok_bind, hsends.sendFinFlag, hsends.sndFinSeq]
  cases hride : c.finRides (c.roundBytes len) with
  | true =>
    have hflag : c.sendFinFlag = true := by
      rw [finRides, Bool.and_eq_true] at hride
      exact hride.1
    rw [sndNxt_of_rides hride, hflag]
    simp only [beq_self_eq_true, Bool.and_self, Bool.true_or, if_true]
    rfl
  | false =>
    rw [sndNxt_of_not_rides hride, Bool.false_or]
    rfl

/-! ### The place of the FIN, round by round -/

theorem resendable_of_rides (hride : c.finRides (c.roundBytes len) = true) (hpos : 0 < len)
    (hroom : c.sendQueue.getBytesAvailable c.sndNxt < 2 ^ 31) :
    c.Resendable len ↔ c.sendQueue.getBytesAvailable c.sndNxt < len ∧
      c.roundBytes len = c.sendQueue.getBytesAvailable c.sndNxt := by
  rw [finRides, Bool.and_eq_true, beq_iff_eq] at hride
  obtain ⟨hflag, hseq⟩ := hride
  have hle : c.roundBytes len ≤ c.sendQueue.getBytesAvailable c.sndNxt := roundBytes_le
  constructor
  · intro h
    by_cases hlen : len ≤ c.sendQueue.getBytesAvailable c.sndNxt
    · obtain ⟨hmss, hplace⟩ := h.data hlen
      obtain ⟨hend, hinside⟩ := hplace hflag
      by_cases hone : len ≤ c.sndMss.toNat
      · have hall : c.roundBytes len = len := by
          unfold roundBytes
          omega
        rw [hall] at hseq
        exact absurd hseq hend
      · have hmssBytes : c.roundBytes len = 1 * c.sndMss.toNat := by
          unfold roundBytes
          omega
        rw [hmssBytes] at hseq
        exact absurd hseq (hinside 1 Nat.one_pos (by omega)).1
    · refine ⟨not_le.mp hlen, ?_⟩
      obtain ⟨-, hplace, -⟩ := h.fin (not_le.mp hlen)
      have hsame := congrArg BitVec.toNat ((BitVec.add_right_inj _).mp (hseq.trans hplace.symm))
      rw [BitVec.toNat_ofNat, BitVec.toNat_ofNat] at hsame
      omega
  · rintro ⟨hlen, hall⟩
    refine ⟨fun hdata ↦ absurd hlen (not_lt.mpr hdata), fun _ ↦ ⟨hflag, hall ▸ hseq, ?_⟩⟩
    unfold roundBytes at hall
    omega

theorem resendable_last (hall : c.roundBytes len = len) (hpos : 0 < len) :
    c.Resendable len ↔ c.finRides (c.roundBytes len) = false := by
  have hbounds : len ≤ c.sndMss.toNat ∧ len ≤ c.sendQueue.getBytesAvailable c.sndNxt := by
    unfold roundBytes at hall
    omega
  rw [hall, ← Bool.not_eq_true, finRides, Bool.and_eq_true, beq_iff_eq]
  constructor
  · rintro h ⟨hflag, hseq⟩
    exact ((h.data hbounds.2).2 hflag).1 hseq
  · intro hnot
    refine ⟨fun _ ↦ ⟨by omega, fun hflag ↦ ⟨fun hseq ↦ hnot ⟨hflag, hseq⟩, ?_⟩⟩,
      fun hlt ↦ absurd hbounds.2 (not_le.mpr hlt)⟩
    intro k hk hlt
    have hmss := Nat.le_mul_of_pos_left c.sndMss.toNat hk
    omega

theorem not_resendable_of_stops (hstop : c.stopsBehind (c.roundBytes len) = true)
    (hrest : c.roundBytes len < len) (hroom : c.sendQueue.getBytesAvailable c.sndNxt < 2 ^ 31) :
    ¬ c.Resendable len := by
  rw [stopsBehind, Bool.and_eq_true, beq_iff_eq] at hstop
  obtain ⟨hflag, hseq⟩ := hstop
  intro h
  by_cases hlen : len ≤ c.sendQueue.getBytesAvailable c.sndNxt
  · obtain ⟨hmss, hplace⟩ := h.data hlen
    have hmssBytes : c.roundBytes len = 1 * c.sndMss.toNat := by
      unfold roundBytes at hrest ⊢
      omega
    rw [hmssBytes] at hseq
    exact ((hplace hflag).2 1 Nat.one_pos (by omega)).2 hseq
  · obtain ⟨-, hplace, -⟩ := h.fin (not_le.mp hlen)
    have hle : c.roundBytes len ≤ c.sendQueue.getBytesAvailable c.sndNxt := roundBytes_le
    rw [← hplace, BitVec.add_assoc] at hseq
    have hsame := congrArg BitVec.toNat ((BitVec.add_right_inj _).mp hseq)
    rw [BitVec.toNat_add, BitVec.toNat_ofNat, BitVec.toNat_ofNat] at hsame
    change _ = (_ + 1) % _ at hsame
    omega

/-- The round takes something off, or nothing if the loop is endless, and the same remains to be asked of
the rest. -/
theorem resendable_next (h : c.Holding 0) (hrest : c.roundBytes len < len)
    (hride : c.finRides (c.roundBytes len) = false) (hstop : c.stopsBehind (c.roundBytes len) = false) :
    c.Resendable len ↔ (c.afterSegment (c.roundBytes len)).Resendable (len - c.roundBytes len) := by
  obtain ⟨-, havail⟩ := h.after roundBytes_le hride
  have hle : c.roundBytes len ≤ c.sendQueue.getBytesAvailable c.sndNxt := roundBytes_le
  have hsends := c.sends_afterSegment (c.roundBytes len)
  have hnxt := sndNxt_of_not_rides hride
  rw [← Bool.not_eq_true, finRides, Bool.and_eq_true, beq_iff_eq] at hride
  rw [← Bool.not_eq_true, stopsBehind, Bool.and_eq_true, beq_iff_eq] at hstop
  have hadd (a b : ℕ) : c.sndNxt + BitVec.ofNat 32 a + BitVec.ofNat 32 b = c.sndNxt + BitVec.ofNat 32 (a + b) := by
    rw [BitVec.add_assoc, BitVec.ofNat_add]
  have hdata : len ≤ c.sendQueue.getBytesAvailable c.sndNxt → c.roundBytes len = c.sndMss.toNat := by
    intro hlen
    unfold roundBytes at hrest ⊢
    omega
  constructor
  · intro hall
    constructor
    · rw [havail, hsends.sndMss, hsends.sendFinFlag, hsends.sndFinSeq, hnxt]
      intro hlen
      have hmssBytes := hdata (by omega)
      obtain ⟨hmss, hplace⟩ := hall.data (by omega)
      refine ⟨hmss, fun hflag ↦ ?_⟩
      obtain ⟨hend, hinside⟩ := hplace hflag
      have hwhole : c.roundBytes len + (len - c.roundBytes len) = len := by omega
      rw [hadd, hwhole]
      refine ⟨hend, ?_⟩
      intro k hk hlt
      have hsucc : c.roundBytes len + k * c.sndMss.toNat = (k + 1) * c.sndMss.toNat := by
        rw [hmssBytes]
        ring
      rw [hadd, hsucc]
      exact hinside (k + 1) k.succ_pos (by omega)
    · rw [havail, hsends.sndMss, hsends.sendFinFlag, hsends.sndFinSeq, hnxt]
      intro hlen
      obtain ⟨hflag, hplace, hmss⟩ := hall.fin (by omega)
      have hwhole : c.roundBytes len + (c.sendQueue.getBytesAvailable c.sndNxt - c.roundBytes len) =
          c.sendQueue.getBytesAvailable c.sndNxt := by omega
      rw [hadd, hwhole]
      exact ⟨hflag, hplace, by omega⟩
  · intro hall
    have hdata' := hall.data
    have hfin' := hall.fin
    rw [havail, hsends.sndMss, hsends.sendFinFlag, hsends.sndFinSeq, hnxt] at hdata' hfin'
    constructor
    · intro hlen
      have hmssBytes := hdata hlen
      obtain ⟨hmss, hplace⟩ := hdata' (by omega)
      refine ⟨hmss, fun hflag ↦ ?_⟩
      obtain ⟨hend, hinside⟩ := hplace hflag
      have hwhole : c.roundBytes len + (len - c.roundBytes len) = len := by omega
      rw [hadd, hwhole] at hend
      refine ⟨hend, ?_⟩
      intro k hk hlt
      obtain ⟨j, rfl⟩ : ∃ j, k = j + 1 := ⟨k - 1, by omega⟩
      by_cases hj : j = 0
      · rw [hj, Nat.zero_add, Nat.one_mul, ← hmssBytes]
        exact ⟨fun hseq ↦ hride ⟨hflag, hseq⟩, fun hseq ↦ hstop ⟨hflag, hseq⟩⟩
      · have hsucc : c.roundBytes len + j * c.sndMss.toNat = (j + 1) * c.sndMss.toNat := by
          rw [hmssBytes]
          ring
        have hplaces := hinside j (Nat.pos_of_ne_zero hj) (by omega)
        rwa [hadd, hsucc] at hplaces
    · intro hlen
      obtain ⟨hflag, hplace, hmss⟩ := hfin' (by omega)
      have hwhole : c.roundBytes len + (c.sendQueue.getBytesAvailable c.sndNxt - c.roundBytes len) =
          c.sendQueue.getBytesAvailable c.sndNxt := by omega
      rw [hadd, hwhole] at hplace
      refine ⟨hflag, hplace, ?_⟩
      unfold roundBytes at hmss
      omega

/-- A round sends something: with no byte left to be sent the FIN rides. -/
theorem roundBytes_pos (h : c.Resendable len) (hpos : 0 < len)
    (hride : c.finRides (c.roundBytes len) = false) : 0 < c.roundBytes len := by
  by_contra hnone
  have hzero : c.roundBytes len = 0 := Nat.eq_zero_of_not_pos hnone
  by_cases hlen : len ≤ c.sendQueue.getBytesAvailable c.sndNxt
  · have hmss := (h.data hlen).1
    unfold roundBytes at hzero
    omega
  · obtain ⟨hflag, hplace, hmss⟩ := h.fin (not_le.mp hlen)
    have hav : c.sendQueue.getBytesAvailable c.sndNxt = 0 := by
      unfold roundBytes at hzero
      omega
    rw [hav] at hplace
    rw [hzero, finRides, hflag, hplace, beq_self_eq_true] at hride
    exact Bool.false_ne_true hride.symm

/-! ### The loop -/

theorem totalBytes_cons (seg : TCPSegment) (segs : List TCPSegment) :
    totalBytes (seg :: segs) = seg.payloadLength + totalBytes segs := List.sum_cons

theorem finCount_cons (seg : TCPSegment) (segs : List TCPSegment) :
    finCount (seg :: segs) = seg.finBit.toNat + finCount segs := by
  rw [finCount, List.countP_cons, Nat.add_comm]
  cases seg.finBit <;> rfl

/-- The segments of a run are those that the log has more. -/
theorem segs_eq {segs' : List TCPSegment} {log : List Output}
    (h : log ++ segs.map .toIP = log ++ segs'.map .toIP) : segs = segs' :=
  List.map_injective_iff.mpr (fun _ _ ↦ Output.toIP.inj) (List.append_cancel_left h)

/-- With `len` sequence numbers to go: the bytes that the queue holds of them have been sent, and our FIN if
they are not all of them. -/
structure SentRest (c : TCPConnection) (len : ℕ) (segs : List TCPSegment) (c' : TCPConnection) : Prop where
  log : c'.log = c.log ++ segs.map .toIP
  contiguous : Contiguous c.sndNxt segs
  sizes : ∀ seg ∈ segs, seg.payloadLength ≤ c.sndMss.toNat
  bytes : totalBytes segs = min len (c.sendQueue.getBytesAvailable c.sndNxt)
  fin : finCount segs = len - min len (c.sendQueue.getBytesAvailable c.sndNxt)
  nxt : c'.sndNxt = c.sndNxt + BitVec.ofNat 32 len
  max : c'.sndMax = c.sndMax

theorem roundBytes_le_mss : c.roundBytes len ≤ c.sndMss.toNat := (min_le_left _ _).trans (min_le_right _ _)

theorem roundBytes_le_len : c.roundBytes len ≤ len := (min_le_left _ _).trans (min_le_left _ _)

theorem sentRest_last (hbytes : c.roundBytes len = min len (c.sendQueue.getBytesAvailable c.sndNxt))
    (hfin : (c.finRides (c.roundBytes len)).toNat =
      len - min len (c.sendQueue.getBytesAvailable c.sndNxt))
    (hnxt : (c.afterSegment (c.roundBytes len)).sndNxt = c.sndNxt + BitVec.ofNat 32 len) :
    c.SentRest len [c.addressed (c.segmentOf (c.roundBytes len))] (c.afterSegment (c.roundBytes len)) where
  log := rfl
  contiguous := ⟨rfl, trivial⟩
  sizes := List.forall_mem_singleton.mpr roundBytes_le_mss
  bytes := by
    rw [totalBytes_cons]
    exact hbytes
  fin := by
    rw [finCount_cons]
    exact hfin
  nxt := hnxt
  max := rfl

theorem sentRest_whole (hall : c.roundBytes len = len) (hride : c.finRides (c.roundBytes len) = false) :
    c.SentRest len [c.addressed (c.segmentOf (c.roundBytes len))] (c.afterSegment (c.roundBytes len)) := by
  have hle : c.roundBytes len ≤ c.sendQueue.getBytesAvailable c.sndNxt := roundBytes_le
  apply sentRest_last
  · omega
  · rw [hride, Bool.toNat_false]
    omega
  · rw [sndNxt_of_not_rides hride, hall]

theorem SentRest.cons (h : c.Holding 0) (hrest : c.roundBytes len < len)
    (hride : c.finRides (c.roundBytes len) = false)
    (hsent : (c.afterSegment (c.roundBytes len)).SentRest (len - c.roundBytes len) segs c') :
    c.SentRest len (c.addressed (c.segmentOf (c.roundBytes len)) :: segs) c' := by
  have hle : c.roundBytes len ≤ c.sendQueue.getBytesAvailable c.sndNxt := roundBytes_le
  have havail := (h.after roundBytes_le hride).2
  have hbytes := hsent.bytes
  have hfin := hsent.fin
  have hcontig := hsent.contiguous
  have hsizes := hsent.sizes
  rw [havail] at hbytes hfin
  rw [sndNxt_of_not_rides hride] at hcontig
  rw [(c.sends_afterSegment _).sndMss] at hsizes
  refine ⟨?_, ⟨rfl, hcontig⟩, List.forall_mem_cons.mpr ⟨roundBytes_le_mss, hsizes⟩, ?_, ?_, ?_, hsent.max⟩
  · rw [hsent.log, log_afterSegment, List.append_assoc]
    rfl
  · rw [totalBytes_cons, hbytes]
    show c.roundBytes len + _ = _
    omega
  · rw [finCount_cons, hfin]
    show (c.finRides (c.roundBytes len)).toNat + _ = _
    rw [hride, Bool.toNat_false]
    omega
  · have hwhole : c.roundBytes len + (len - c.roundBytes len) = len := by omega
    rw [hsent.nxt, sndNxt_of_not_rides hride, BitVec.add_assoc, ← BitVec.ofNat_add, hwhole]

/-- The loop ends and sends what is left of the queue with our FIN, where the FIN belongs behind it. -/
theorem retransmitLoop_resends (rounds : ℕ) : ∀ {c : TCPConnection} {len : ℕ}, c.Holding 0 → 0 < len →
    len < rounds → len ≤ c.sendQueue.getBytesAvailable c.sndNxt + 1 →
    c.sendQueue.getBytesAvailable c.sndNxt < 2 ^ 31 → c.Resendable len →
    ∃ c' segs, retransmitLoop rounds c len = .ok c' ∧ c.SentRest len segs c' := by
  induction rounds with
  | zero =>
    intro c len _ _ hrounds
    exact absurd hrounds (Nat.not_lt_zero _)
  | succ rounds ih =>
    intro c len h hpos hrounds hlen hroom hall
    have hone : c.roundBytes len ≤ len := roundBytes_le_len
    rw [retransmitLoop_round h hpos]
    cases hride : c.finRides (c.roundBytes len) with
    | true =>
      obtain ⟨hshort, hbytes⟩ := (resendable_of_rides hride hpos hroom).mp hall
      rw [Bool.true_or, if_pos rfl]
      refine ⟨_, _, rfl, sentRest_last (by omega) ?_ ?_⟩
      · rw [hride, Bool.toNat_true]
        omega
      · have hplace := (hall.fin hshort).2.1
        have hwhole : len = c.sendQueue.getBytesAvailable c.sndNxt + 1 := by omega
        rw [sndNxt_of_rides hride, ← hplace, hwhole, BitVec.ofNat_add, ← BitVec.add_assoc]
        rfl
    | false =>
      rw [Bool.false_or]
      cases hstop : c.stopsBehind (c.roundBytes len) with
      | true =>
        have hlast : c.roundBytes len = len := by
          by_contra hne
          exact not_resendable_of_stops hstop (by omega) hroom hall
        exact ⟨_, _, if_pos rfl, sentRest_whole hlast hride⟩
      | false =>
        rw [if_neg Bool.false_ne_true]
        by_cases hlast : c.roundBytes len = len
        · have hdone : retransmitLoop rounds (c.afterSegment (c.roundBytes len)) (len - c.roundBytes len) =
              .ok (c.afterSegment (c.roundBytes len)) := by
            obtain ⟨r, rfl⟩ : ∃ r, rounds = r + 1 := ⟨rounds - 1, by omega⟩
            rw [hlast, Nat.sub_self]
            rfl
          exact ⟨_, _, hdone, sentRest_whole hlast hride⟩
        · have hrest : c.roundBytes len < len := by omega
          obtain ⟨hnext, havail⟩ := h.after roundBytes_le hride
          have hsome := roundBytes_pos hall hpos hride
          have hall' := (resendable_next h hrest hride hstop).mp hall
          obtain ⟨c', segs, hloop, hsent⟩ :=
            @ih _ (len - c.roundBytes len) hnext (by omega) (by omega) (by omega) (by omega) hall'
          exact ⟨c', _, hloop, hsent.cons h hrest hride⟩

/-- If the loop sends all that, the FIN belongs behind it. -/
theorem resendable_of_resends (rounds : ℕ) : ∀ {c : TCPConnection} {len : ℕ} {segs : List TCPSegment},
    c.Holding 0 → 0 < len → c.sendQueue.getBytesAvailable c.sndNxt < 2 ^ 31 →
    retransmitLoop rounds c len = .ok c' → c'.log = c.log ++ segs.map .toIP →
    totalBytes segs = min len (c.sendQueue.getBytesAvailable c.sndNxt) →
    finCount segs = len - min len (c.sendQueue.getBytesAvailable c.sndNxt) → c.Resendable len := by
  induction rounds with
  | zero =>
    intro c len segs _ _ _ hloop
    cases hloop
  | succ rounds ih =>
    intro c len segs h hpos hroom hloop hlog hbytes hfin
    have hle : c.roundBytes len ≤ c.sendQueue.getBytesAvailable c.sndNxt := roundBytes_le
    have hone : c.roundBytes len ≤ len := roundBytes_le_len
    rw [retransmitLoop_round h hpos] at hloop
    -- the round is the last one
    have hsingle (hlast : c.afterSegment (c.roundBytes len) = c') :
        c.roundBytes len = min len (c.sendQueue.getBytesAvailable c.sndNxt) ∧
          (c.finRides (c.roundBytes len)).toNat = len - min len (c.sendQueue.getBytesAvailable c.sndNxt) := by
      have hsegs : [c.addressed (c.segmentOf (c.roundBytes len))] = segs := by
        have hsame : c'.log = c.log ++ [c.addressed (c.segmentOf (c.roundBytes len))].map .toIP := by
          rw [← hlast]
          rfl
        exact segs_eq (hsame.symm.trans hlog)
      rw [← hsegs] at hbytes hfin
      rw [totalBytes_cons] at hbytes
      rw [finCount_cons] at hfin
      exact ⟨hbytes, hfin⟩
    cases hride : c.finRides (c.roundBytes len) with
    | true =>
      rw [hride, Bool.true_or, if_pos rfl] at hloop
      obtain ⟨hall, hcount⟩ := hsingle (Except.ok.inj hloop)
      rw [hride, Bool.toNat_true] at hcount
      apply (resendable_of_rides hride hpos hroom).mpr
      omega
    | false =>
      rw [hride, Bool.false_or] at hloop
      by_cases hlast : c.roundBytes len = len
      · exact (resendable_last hlast hpos).mpr hride
      cases hstop : c.stopsBehind (c.roundBytes len) with
      | true =>
        rw [hstop, if_pos rfl] at hloop
        obtain ⟨hall, hcount⟩ := hsingle (Except.ok.inj hloop)
        rw [hride, Bool.toNat_false] at hcount
        exact absurd hall (by omega)
      | false =>
        rw [hstop, if_neg Bool.false_ne_true] at hloop
        have hrest : c.roundBytes len < len := by omega
        obtain ⟨hnext, havail⟩ := h.after roundBytes_le hride
        apply (resendable_next h hrest hride hstop).mpr
        have hsends := Outcome.of_eq_ok (retransmitLoop_sends rounds _ _) hloop
        obtain ⟨segs', hlog'⟩ := hsends.log
        have hsegs : c.addressed (c.segmentOf (c.roundBytes len)) :: segs' = segs := by
          have hsame : c'.log =
              c.log ++ (c.addressed (c.segmentOf (c.roundBytes len)) :: segs').map .toIP := by
            rw [hlog', log_afterSegment, List.append_assoc]
            rfl
          exact segs_eq (hsame.symm.trans hlog)
        rw [← hsegs, totalBytes_cons] at hbytes
        rw [← hsegs, finCount_cons] at hfin
        change c.roundBytes len + _ = _ at hbytes
        change (c.finRides (c.roundBytes len)).toNat + _ = _ at hfin
        rw [hride, Bool.toNat_false] at hfin
        apply ih hnext (by omega) (by omega) hloop hlog'
        · omega
        · omega

end Loop

/-! ## The whole retransmission -/

section Outstanding

variable {c : TCPConnection}

/-- While something is outstanding, the queue starts at `snd_una`. -/
theorem SendSequence.beginSeq_eq (h : c.SendSequence) (hlt : seqLess c.sndUna c.sndMax = true) :
    c.sendQueue.beginSeq = c.sndUna := by
  apply h.start.resolve_right
  rintro ⟨hbegin, hempty, hsent⟩
  have hmax := h.finSent.mp hsent
  unfold offset at hmax
  rw [← hempty, BitVec.sub_self] at hmax
  have hend : c.sndMax = c.sndUna := by
    rw [← hbegin]
    bv_omega
  rw [hend] at hlt
  unfold seqLess at hlt
  rw [bne_self_eq_false, Bool.false_and] at hlt
  exact Bool.false_ne_true hlt

theorem SendSequence.holding (h : c.SendSequence) (hlt : seqLess c.sndUna c.sndMax = true) :
    c.sendFromUna.Holding 0 := by
  constructor
  · show (c.sndUna - c.sendQueue.beginSeq).toNat + 0 ≤ _
    rw [h.beginSeq_eq hlt, BitVec.sub_self]
    exact Nat.zero_le _
  · exact Nat.lt_of_succ_lt h.room

theorem SendSequence.available_eq (h : c.SendSequence) (hlt : seqLess c.sndUna c.sndMax = true) :
    c.sendQueue.getBytesAvailable c.sndUna = c.offset c.sendQueue.endSeq := by
  have hall := (h.holding hlt).available_eq
  change c.sendQueue.getBytesAvailable c.sndUna =
    c.offset c.sendQueue.endSeq - (c.sndUna - c.sendQueue.beginSeq).toNat at hall
  rwa [h.beginSeq_eq hlt, BitVec.sub_self, BitVec.toNat_zero, Nat.sub_zero] at hall

/-- The outstanding numbers are bytes of the queue, and perhaps our FIN behind it. -/
theorem SendSequence.outstanding (h : c.SendSequence) (hlt : seqLess c.sndUna c.sndMax = true) :
    0 < c.inFlight ∧ c.inFlight ≤ c.sendQueue.getBytesAvailable c.sndUna + 1 ∧
      c.sendQueue.getBytesAvailable c.sndUna < 2 ^ 31 := by
  have hbegin := h.beginSeq_eq hlt
  have havail := h.available_eq hlt
  have hmax := h.max_le_end
  have hroom := h.room
  have hflight : c.inFlight = c.offset c.sndMax := by
    rw [inFlight, offset, hbegin]
  unfold seqLess at hlt
  rw [Bool.and_eq_true, bne_iff_ne] at hlt
  refine ⟨?_, by omega, by omega⟩
  have hne := hlt.1
  unfold inFlight
  bv_omega

/-- With something outstanding, `retransmitData` sends it again exactly if the place of the FIN allows it. -/
theorem retransmitData_resends_iff (c : TCPConnection) (h : c.SendSequence)
    (hlt : seqLess c.sndUna c.sndMax = true) :
    c.ResendsOutstanding ↔ c.sendFromUna.Resendable c.inFlight := by
  have hholding := h.holding hlt
  obtain ⟨hpos, hlen, hroom⟩ := h.outstanding hlt
  have hdata : c.retransmitData = retransmitLoop (c.inFlight + 1) c.sendFromUna c.inFlight := by
    have hne : decide ((c.sndMax - c.sndUna).toNat ≠ 0) = true :=
      decide_eq_true (Nat.pos_iff_ne_zero.mp hpos)
    rw [retransmitData_eq, hne, check_true, ok_bind]
    rfl
  unfold ResendsOutstanding
  rw [hdata]
  constructor
  · intro ⟨c', segs, hloop, hlog, hresent⟩
    exact resendable_of_resends _ hholding hpos hroom hloop hlog hresent.bytes hresent.fin
  · intro hall
    obtain ⟨c', segs, hloop, hsent⟩ :=
      retransmitLoop_resends _ hholding hpos (Nat.lt_succ_self _) hlen hroom hall
    refine ⟨c', segs, hloop, hsent.log, hsent.contiguous, hsent.sizes, hsent.bytes, hsent.fin, ?_, hsent.max⟩
    rw [hsent.nxt]
    show c.sndUna + BitVec.ofNat 32 (c.sndMax - c.sndUna).toNat = c.sndMax
    bv_omega

end Outstanding

/-- Of twenty bytes, eight are outstanding. -/
def eightOutstanding : TCPConnection := { twentyPending with sndNxt := 109, sndMax := 109 }

theorem retransmitData_resends_eightOutstanding :
    eightOutstanding.ResendsOutstanding ↔
      eightOutstanding.sendFromUna.Resendable eightOutstanding.inFlight := by
  apply retransmitData_resends_iff
  · exact sendSequence_of_inOrderBeforeFin (by decide)
  · decide

/-- With segments of four bytes, four bytes are in flight and two wait. CLOSE is deferred, the application
sends four more, and half of the first segment is acknowledged. -/
def acknowledgesHalf : List Event :=
  establish 1000 ++ [.send 4 0, .send 2 0, .close, .send 4 0,
    fromPeer { sequenceNo := 501, ackNo := 103, ackBit := true, window := 1000 }]

/-- The first segment that is sent again ends where the FIN was to be, takes the FIN along and is the last
one. -/
theorem retransmitData_stops_at_fin :
    ∃ c, Reachable IsNew (fun _ _ ↦ True) step c ∧ c.SendSequence ∧
      seqLess c.sndUna c.sndMax = true ∧ 0 < c.sndMss.toNat ∧ ¬ c.ResendsOutstanding := by
  have hnew : IsNew { mss := 4 } := rfl
  have hrun : (match run step { mss := 4 } acknowledgesHalf with
      | .ok c => c.inOrderBeforeFin && seqLess c.sndUna c.sndMax && decide (0 < c.sndMss.toNat) &&
          (match c.retransmitData with
            | .ok c' => c'.sndNxt != c.sndMax
            | .error _ => true)
      | .error _ => false) = true := by
    decide +kernel
  cases hc : run step { mss := 4 } acknowledgesHalf with
  | error e =>
      rw [hc] at hrun
      cases hrun
  | ok c =>
      rw [hc] at hrun
      simp only [Bool.and_eq_true, decide_eq_true_eq] at hrun
      obtain ⟨⟨⟨horder, hlt⟩, hmss⟩, hstops⟩ := hrun
      have hreach : Reachable IsNew (fun _ _ ↦ True) step c :=
        (Reachable.start hnew).of_run acknowledgesHalf (by decide +kernel) hc
      refine ⟨c, hreach, sendSequence_of_inOrderBeforeFin horder, hlt, hmss, ?_⟩
      intro ⟨c', segs, hdata, _, hresent⟩
      rw [hdata, bne_iff_ne] at hstops
      exact hstops hresent.nxt

end TCPConnection

end InetManet.TCP
