import InetManet.TCP.SendSequence

/-!
# What `sendData` puts on the wire

`sendData` starts at `snd_max` and sends what the send queue holds and the two windows leave room
for: in one segment when it fits, else in whole segments. A negative congestion window means that
there is none. The FIN of an earlier CLOSE rides on the segment whose end is `snd_fin_seq` and takes
one sequence number. When data was queued behind that place and more of it is sent in the same call,
the segment after the FIN starts one byte too far.
-/

namespace InetManet.TCP

open TransitionSystem

namespace TCPConnection

/-! ## A row of segments -/

/-- A segment as `sendToIP` addresses it. -/
def addressed (c : TCPConnection) (seg : TCPSegment) : TCPSegment :=
  { seg with srcPort := c.localPort, destPort := c.remotePort }

/-- The segments of the given sizes, one after the other. -/
def segmentsOf : TCPConnection → List ℕ → List TCPSegment
  | _, [] => []
  | c, bytes :: sizes => c.addressed (c.segmentOf bytes) :: segmentsOf (c.afterSegment bytes) sizes

/-- Each segment starts where the one before it ends. -/
def Contiguous : Seq → List TCPSegment → Prop
  | _, [] => True
  | seq, seg :: segs => seg.sequenceNo = seq ∧
      Contiguous (seq + BitVec.ofNat 32 seg.payloadLength) segs

/-- The FIN rides on the last segment or on none. -/
def NoFinInside : TCPConnection → List ℕ → Prop
  | _, [] => True
  | _, [_] => True
  | c, bytes :: sizes => c.finRides bytes = false ∧ NoFinInside (c.afterSegment bytes) sizes

/-- The bytes that the segments carry. -/
def totalBytes (segs : List TCPSegment) : ℕ := (segs.map (·.payloadLength)).sum

/-- The sequence numbers that their FINs occupy. -/
def finCount (segs : List TCPSegment) : ℕ := segs.countP (·.finBit)

section Row

variable (c : TCPConnection)

theorem afterSegment_sndNxt (bytes : ℕ) :
    (c.afterSegment bytes).sndNxt =
      c.sndNxt + BitVec.ofNat 32 bytes + BitVec.ofNat 32 (c.finRides bytes).toNat := by
  show (if c.finRides bytes then c.sndFinSeq + 1 else c.sndNxt + BitVec.ofNat 32 bytes) = _
  cases hr : c.finRides bytes with
  | true =>
      simp only [finRides, Bool.and_eq_true, beq_iff_eq] at hr
      rw [if_pos rfl, hr.2]
      rfl
  | false => simp

theorem log_foldl_afterSegment (sizes : List ℕ) :
    (sizes.foldl afterSegment c).log = c.log ++ (c.segmentsOf sizes).map .toIP := by
  induction sizes generalizing c with
  | nil => simp [segmentsOf]
  | cons bytes sizes ih =>
      have hlog : (c.afterSegment bytes).log =
          c.log ++ [.toIP (c.addressed (c.segmentOf bytes))] := rfl
      rw [List.foldl_cons, ih, hlog, segmentsOf, List.map_cons, List.append_assoc]
      rfl

theorem payloadLength_segmentsOf (sizes : List ℕ) :
    (c.segmentsOf sizes).map (·.payloadLength) = sizes := by
  induction sizes generalizing c with
  | nil => rfl
  | cons bytes sizes ih =>
      rw [segmentsOf, List.map_cons, ih]
      rfl

theorem sndNxt_foldl_afterSegment (sizes : List ℕ) :
    (sizes.foldl afterSegment c).sndNxt =
      c.sndNxt + BitVec.ofNat 32 (sizes.sum + finCount (c.segmentsOf sizes)) := by
  induction sizes generalizing c with
  | nil => simp [segmentsOf, finCount]
  | cons bytes sizes ih =>
      have hbit : (c.addressed (c.segmentOf bytes)).finBit = c.finRides bytes := rfl
      have hcount : finCount (c.segmentsOf (bytes :: sizes)) =
          finCount ((c.afterSegment bytes).segmentsOf sizes) + (c.finRides bytes).toNat := by
        rw [segmentsOf, finCount, List.countP_cons, hbit]
        cases c.finRides bytes <;> rfl
      rw [List.foldl_cons, ih, afterSegment_sndNxt, hcount, List.sum_cons]
      simp only [BitVec.ofNat_add]
      ring

theorem noFinInside_cons_cons (bytes next : ℕ) (sizes : List ℕ) :
    c.NoFinInside (bytes :: next :: sizes) ↔
      c.finRides bytes = false ∧ (c.afterSegment bytes).NoFinInside (next :: sizes) := Iff.rfl

/-- A FIN in the middle leaves a gap, and nothing else does. -/
theorem contiguous_segmentsOf_iff (sizes : List ℕ) :
    Contiguous c.sndNxt (c.segmentsOf sizes) ↔ c.NoFinInside sizes := by
  induction sizes generalizing c with
  | nil => exact Iff.rfl
  | cons bytes sizes ih =>
      have hseq : (c.addressed (c.segmentOf bytes)).sequenceNo = c.sndNxt := rfl
      have hlen : (c.addressed (c.segmentOf bytes)).payloadLength = bytes := rfl
      cases sizes with
      | nil => simp [segmentsOf, Contiguous, NoFinInside, hseq]
      | cons next sizes =>
          rw [segmentsOf, Contiguous, hlen, noFinInside_cons_cons, ← ih]
          simp only [hseq, true_and]
          cases hr : c.finRides bytes with
          | true =>
              have hnxt := c.afterSegment_sndNxt bytes
              rw [hr] at hnxt
              have hgap : (c.afterSegment bytes).sndNxt ≠ c.sndNxt + BitVec.ofNat 32 bytes := by
                rw [hnxt]
                simp
              simp only [segmentsOf, Contiguous]
              constructor
              · intro h
                exact absurd h.1 hgap
              · intro h
                cases h.1
          | false =>
              have hnxt := c.afterSegment_sndNxt bytes
              rw [hr] at hnxt
              rw [hnxt]
              simp

/-- The FIN flag is on the segments whose end is `snd_fin_seq`. -/
theorem finBit_segmentsOf (sizes : List ℕ) : ∀ seg ∈ c.segmentsOf sizes,
    (seg.finBit = true ↔ c.sendFinFlag = true ∧
      seg.sequenceNo + BitVec.ofNat 32 seg.payloadLength = c.sndFinSeq) := by
  induction sizes generalizing c with
  | nil =>
      intro seg hseg
      cases hseg
  | cons bytes sizes ih =>
      intro seg hseg
      rcases List.mem_cons.mp hseg with rfl | hseg
      · show c.finRides bytes = true ↔ _
        rw [finRides, Bool.and_eq_true, beq_iff_eq]
        rfl
      · exact ih (c.afterSegment bytes) seg hseg

end Row

/-! ## Sending them -/

section Sending

variable (c : TCPConnection)

/-- The sizes of the segments that `sendSegments` sends. -/
def segmentSizes (c : TCPConnection) (bytesToSend : ℕ) : List ℕ :=
  if bytesToSend ≤ c.sndMss.toNat then [bytesToSend]
  else List.replicate (bytesToSend / c.sndMss.toNat) c.sndMss.toNat

theorem sendSegment_ok_eq {bytes : ℕ} {c' : TCPConnection} (h : c.sendSegment bytes = .ok c') :
    c' = c.afterSegment bytes := by
  rw [sendSegment_eq] at h
  obtain ⟨_, _, h⟩ := bind_ok_iff.mp h
  exact (Except.ok.inj h).symm

theorem sendWholeSegments_eq (rounds : ℕ) (bytesToSend : ℕ) (hmss : 0 < c.sndMss.toNat)
    (hrounds : bytesToSend / c.sndMss.toNat < rounds) :
    sendWholeSegments rounds c bytesToSend =
      (List.replicate (bytesToSend / c.sndMss.toNat) c.sndMss.toNat).foldlM sendSegment c := by
  induction rounds generalizing c bytesToSend with
  | zero => exact absurd hrounds (Nat.not_lt_zero _)
  | succ rounds ih =>
      unfold sendWholeSegments
      by_cases hle : c.sndMss.toNat ≤ bytesToSend
      · have hdiv : bytesToSend / c.sndMss.toNat =
            (bytesToSend - c.sndMss.toNat) / c.sndMss.toNat + 1 :=
          Nat.div_eq_sub_div hmss hle
        rw [if_pos hle, hdiv, List.replicate_succ, List.foldlM_cons]
        cases hseg : c.sendSegment c.sndMss.toNat with
        | error e => rfl
        | ok c' =>
            have hsame : c'.sndMss = c.sndMss := by
              rw [c.sendSegment_ok_eq hseg]
              exact (c.sends_afterSegment _).sndMss
            simp only [ok_bind]
            rw [ih c' _ (by rw [hsame]; exact hmss) (by rw [hsame]; omega), hsame]
      · rw [if_neg hle, Nat.div_eq_of_lt (by omega)]
        rfl

theorem sendSegments_eq (bytesToSend : ℕ) (hmss : 0 < c.sndMss.toNat) :
    c.sendSegments bytesToSend = (c.segmentSizes bytesToSend).foldlM sendSegment c := by
  unfold sendSegments segmentSizes
  by_cases hle : bytesToSend ≤ c.sndMss.toNat
  · rw [if_pos hle, if_pos hle]
    simp only [List.foldlM_cons, List.foldlM_nil]
    cases c.sendSegment bytesToSend <;> rfl
  · rw [if_neg hle, if_neg hle]
    apply sendWholeSegments_eq c _ _ hmss
    have hdiv := Nat.div_le_self bytesToSend c.sndMss.toNat
    omega

/-- When nothing faults, the row of segments has been sent. -/
theorem foldlM_sendSegment_eq (sizes : List ℕ) {c' : TCPConnection}
    (h : sizes.foldlM sendSegment c = .ok c') : c' = sizes.foldl afterSegment c := by
  induction sizes generalizing c with
  | nil => exact (Except.ok.inj h).symm
  | cons bytes sizes ih =>
      rw [List.foldlM_cons] at h
      obtain ⟨c₁, h₁, h₂⟩ := bind_ok_iff.mp h
      rw [List.foldl_cons, ← c.sendSegment_ok_eq h₁]
      exact ih c₁ h₂

/-- `snd_nxt` is in the queue, with `bytes` bytes behind it. -/
structure Holding (c : TCPConnection) (bytes : ℕ) : Prop where
  fits : c.offset c.sndNxt + bytes ≤ c.offset c.sendQueue.endSeq
  room : c.offset c.sendQueue.endSeq < 2 ^ 31

theorem Holding.queueHolds {bytes : ℕ} (h : c.Holding bytes) : c.queueHolds bytes = true := by
  have hfits := h.fits
  have hroom := h.room
  unfold offset at hfits hroom
  unfold TCPConnection.queueHolds seqLE
  rw [Bool.and_eq_true, decide_eq_true_eq, decide_eq_true_eq]
  constructor
  · omega
  · bv_omega

theorem Holding.next {bytes rest : ℕ} (h : c.Holding (bytes + rest))
    (hride : c.finRides bytes = false) : (c.afterSegment bytes).Holding rest := by
  have hfits := h.fits
  have hroom := h.room
  have hnxt := c.afterSegment_sndNxt bytes
  have hsends := c.sends_afterSegment bytes
  rw [hride] at hnxt
  unfold offset at hfits hroom
  constructor
  · unfold offset
    rw [hsends.sendQueue, hnxt]
    simp only [Bool.toNat_false]
    bv_omega
  · unfold offset
    rw [hsends.sendQueue]
    exact hroom

/-- Without a FIN inside, all segments find their bytes in the queue. -/
theorem foldlM_sendSegment_ok (sizes : List ℕ) (h : c.Holding sizes.sum)
    (hfin : c.NoFinInside sizes) :
    sizes.foldlM sendSegment c = .ok (sizes.foldl afterSegment c) := by
  induction sizes generalizing c with
  | nil => rfl
  | cons bytes sizes ih =>
      rw [List.sum_cons] at h
      have hfirst : c.Holding bytes := ⟨by have := h.fits; omega, h.room⟩
      have hsend : c.sendSegment bytes = .ok (c.afterSegment bytes) := by
        rw [sendSegment_eq, hfirst.queueHolds, check_true, ok_bind]
      rw [List.foldlM_cons, hsend, ok_bind, List.foldl_cons]
      cases sizes with
      | nil => rfl
      | cons next sizes =>
          have hrest := (c.noFinInside_cons_cons _ _ _).mp hfin
          exact ih _ (h.next c hrest.1) hrest.2

/-- A FIN inside a row of equal segments is at a multiple of their size. -/
theorem noFinInside_replicate_iff (k bytes : ℕ) :
    c.NoFinInside (List.replicate k bytes) ↔
      ∀ j, 0 < j → j < k → ¬ (c.sendFinFlag = true ∧
        c.sndNxt + BitVec.ofNat 32 (j * bytes) = c.sndFinSeq) := by
  induction k generalizing c with
  | zero => simp [NoFinInside]
  | succ k ih =>
      cases k with
      | zero =>
          apply iff_of_true trivial
          intro j hpos hlt
          omega
      | succ k =>
          have hsends := c.sends_afterSegment bytes
          have hnxt := c.afterSegment_sndNxt bytes
          have hstep : ∀ j, c.finRides bytes = false →
              (c.afterSegment bytes).sndNxt + BitVec.ofNat 32 (j * bytes) =
                c.sndNxt + BitVec.ofNat 32 ((j + 1) * bytes) := by
            intro j hride
            rw [hnxt, hride, Nat.succ_mul, Nat.add_comm (j * bytes), BitVec.ofNat_add]
            simp [BitVec.add_assoc]
          have hfirst : c.finRides bytes = true ↔ c.sendFinFlag = true ∧
              c.sndNxt + BitVec.ofNat 32 (1 * bytes) = c.sndFinSeq := by
            rw [finRides, Bool.and_eq_true, beq_iff_eq, Nat.one_mul]
          have hcons : c.NoFinInside (List.replicate (k + 1 + 1) bytes) ↔
              c.finRides bytes = false ∧
                (c.afterSegment bytes).NoFinInside (List.replicate (k + 1) bytes) := Iff.rfl
          rw [hcons, ih, hsends.sendFinFlag, hsends.sndFinSeq]
          constructor
          · rintro ⟨hride, hrest⟩ j hpos hlt hfin
            cases j with
            | zero => omega
            | succ j =>
                cases j with
                | zero =>
                    rw [hfirst.mpr hfin] at hride
                    cases hride
                | succ j =>
                    rw [← hstep _ hride] at hfin
                    exact hrest (j + 1) (by omega) (by omega) hfin
          · intro hall
            have hride : c.finRides bytes = false := by
              rw [← Bool.not_eq_true, hfirst]
              exact hall 1 (by omega) (by omega)
            constructor
            · exact hride
            · intro j hpos hlt hfin
              rw [hstep _ hride] at hfin
              exact hall (j + 1) (by omega) (by omega) hfin

end Sending

/-! ## The whole of `sendData` -/

/-- The smaller of `snd_wnd` and the congestion window, if there is one. -/
def windowLimit (c : TCPConnection) (congestionWindow : ℤ) : ℤ :=
  if 0 ≤ congestionWindow then min (c.sndWnd.toNat : ℤ) congestionWindow else c.sndWnd.toNat

/-- The bytes that have been sent and not acknowledged. -/
def inFlight (c : TCPConnection) : ℕ := (c.sndMax - c.sndUna).toNat

/-- The bytes of the send queue that have not been sent. -/
def unsent (c : TCPConnection) : ℕ := c.offset c.sendQueue.endSeq - c.offset c.sndMax

/-- What a call of `sendData` may put on the wire, and where it leaves the send variables. -/
structure Permitted (c : TCPConnection) (congestionWindow : ℤ) (segs : List TCPSegment)
    (c' : TCPConnection) : Prop where
  contiguous : Contiguous c.sndMax segs
  sizes : ∀ seg ∈ segs, 1 ≤ seg.payloadLength ∧ seg.payloadLength ≤ c.sndMss.toNat
  window : (totalBytes segs : ℤ) ≤ max 0 (c.windowLimit congestionWindow - c.inFlight)
  queue : totalBytes segs ≤ c.unsent
  fin : ∀ seg ∈ segs, (seg.finBit = true ↔ c.sendFinFlag = true ∧
    seg.sequenceNo + BitVec.ofNat 32 seg.payloadLength = c.sndFinSeq)
  nxt : c'.sndNxt = c'.sndMax
  max : c'.sndMax = c.sndMax + BitVec.ofNat 32 (totalBytes segs + finCount segs)

/-- `sendData` returns, and has sent what is permitted and nothing else. -/
def SendsPermitted (c : TCPConnection) (fullSegmentsOnly : Bool) (congestionWindow : ℤ) : Prop :=
  ∃ sent c' segs, c.sendData fullSegmentsOnly congestionWindow = .ok (sent, c') ∧
    c'.log = c.log ++ segs.map .toIP ∧ c.Permitted congestionWindow segs c'

/-- The bytes that `sendData` would like to send. -/
def bytesToSend (c : TCPConnection) (congestionWindow : ℤ) : ℕ :=
  min (c.sendFromMax.effectiveWindow congestionWindow).toNat
    (c.sendQueue.getBytesAvailable c.sndMax)

/-- The number of segments it sends. -/
def segmentCount (c : TCPConnection) (fullSegmentsOnly : Bool) (congestionWindow : ℤ) : ℕ :=
  let bytesToSend := c.bytesToSend congestionWindow
  if bytesToSend = 0 ∨ fullSegmentsOnly = true ∧ bytesToSend < c.sndMss.toNat then 0
  else (c.segmentSizes bytesToSend).length

/-- The place of the FIN is the end of a segment that is followed by another one. -/
def finBeforeData (c : TCPConnection) (fullSegmentsOnly : Bool) (congestionWindow : ℤ) : Prop :=
  c.sendFinFlag = true ∧ ∃ j, 0 < j ∧ j < c.segmentCount fullSegmentsOnly congestionWindow ∧
    c.sndMax + BitVec.ofNat 32 (j * c.sndMss.toNat) = c.sndFinSeq

section SendData

variable {c : TCPConnection}

theorem SendSequence.unsent_eq (h : c.SendSequence) :
    c.sendQueue.getBytesAvailable c.sndMax = c.unsent := by
  have hmax := h.max_le_end
  have hroom := h.room
  unfold unsent
  unfold offset at hmax hroom ⊢
  unfold TCPVirtualDataSendQueue.getBytesAvailable TCPVirtualDataSendQueue.getBufferEndSeq seqLess
  by_cases hlt : (c.sndMax - c.sendQueue.beginSeq).toNat <
      (c.sendQueue.endSeq - c.sendQueue.beginSeq).toNat
  · have hsub : (c.sendQueue.endSeq - c.sndMax).toNat =
        (c.sendQueue.endSeq - c.sendQueue.beginSeq).toNat -
          (c.sndMax - c.sendQueue.beginSeq).toNat := by
      bv_omega
    have hne : (c.sndMax != c.sendQueue.endSeq) = true := by
      rw [bne_iff_ne]
      intro heq
      rw [heq] at hlt
      omega
    rw [hne, hsub, Bool.true_and, if_pos (by rw [decide_eq_true_eq]; omega)]
  · rw [if_neg, Nat.sub_eq_zero_of_le (by omega)]
    simp only [Bool.and_eq_true, bne_iff_ne, decide_eq_true_eq, not_and]
    intro hne
    bv_omega

theorem effectiveWindow_sendFromMax (congestionWindow : ℤ) :
    c.sendFromMax.effectiveWindow congestionWindow =
      c.windowLimit congestionWindow - c.inFlight := by
  have hwin : (if 0 ≤ congestionWindow ∧ congestionWindow < (c.sndWnd.toNat : ℤ)
      then congestionWindow else c.sndWnd.toNat) = c.windowLimit congestionWindow := by
    unfold windowLimit
    split_ifs <;> omega
  rw [← hwin]
  rfl

theorem bytesToSend_eq_zero_iff (congestionWindow : ℤ) :
    c.bytesToSend congestionWindow = 0 ↔
      c.sendQueue.getBytesAvailable c.sndMax = 0 ∨
        c.sendFromMax.effectiveWindow congestionWindow ≤ 0 := by
  unfold bytesToSend
  omega

theorem sendData_idle {fullSegmentsOnly : Bool} {congestionWindow : ℤ}
    (h : c.bytesToSend congestionWindow = 0 ∨
      fullSegmentsOnly = true ∧ c.bytesToSend congestionWindow < c.sndMss.toNat) :
    c.sendData fullSegmentsOnly congestionWindow = .ok (false, c.sendFromMax) := by
  unfold sendData
  by_cases hbuf : c.sendQueue.getBytesAvailable c.sndMax = 0
  · exact if_pos hbuf
  · by_cases hwin : c.sendFromMax.effectiveWindow congestionWindow ≤ 0
    · exact (if_neg hbuf).trans (if_pos hwin)
    · have hpos : c.bytesToSend congestionWindow ≠ 0 := by
        rw [ne_eq, bytesToSend_eq_zero_iff]
        exact not_or.mpr ⟨hbuf, hwin⟩
      have hfull := h.resolve_left hpos
      apply (if_neg hbuf).trans
      apply (if_neg hwin).trans
      apply if_pos
      rw [hfull.1, Bool.true_and, decide_eq_true_eq]
      exact hfull.2

theorem sendData_sending {fullSegmentsOnly : Bool} {congestionWindow : ℤ}
    (h : ¬ (c.bytesToSend congestionWindow = 0 ∨
      fullSegmentsOnly = true ∧ c.bytesToSend congestionWindow < c.sndMss.toNat)) :
    c.sendData fullSegmentsOnly congestionWindow =
      (c.sendFromMax.sendSegments (c.bytesToSend congestionWindow) >>= fun c' ↦
        c'.rememberSent >>= fun c' ↦ .ok (true, c')) := by
  have hpos : c.bytesToSend congestionWindow ≠ 0 := fun hzero ↦ h (Or.inl hzero)
  have hsome := hpos
  rw [ne_eq, bytesToSend_eq_zero_iff, not_or] at hsome
  have hfull : ¬ (fullSegmentsOnly &&
      decide (c.bytesToSend congestionWindow < c.sndMss.toNat)) = true := by
    rw [Bool.and_eq_true, decide_eq_true_eq]
    exact fun hf ↦ h (Or.inr hf)
  have hcheck : decide (0 < c.bytesToSend congestionWindow) = true :=
    decide_eq_true (Nat.pos_of_ne_zero hpos)
  unfold sendData
  apply (if_neg hsome.1).trans
  apply (if_neg hsome.2).trans
  apply (if_neg hfull).trans
  show (check c.assertsEnabled (decide (0 < c.bytesToSend congestionWindow))
    (Fault.assertion .sendData) >>= _) = _
  rw [hcheck, check_true]
  rfl

/-- The notification never faults: REXMIT is scheduled only when it is not. -/
theorem dataSent_ok (c : TCPConnection) : ∃ c', c.dataSent = .ok c' := by
  have hschedule : ∀ c : TCPConnection, .rexmit ∉ c.timers →
      ∃ c', c.scheduleTimeout .rexmit = .ok c' := by
    intro c hnot
    have hexists : c.timerExists .rexmit = true := by simp [timerExists]
    have hidle : ¬ c.isScheduled .rexmit = true := by rwa [isScheduled_iff]
    unfold scheduleTimeout
    rw [hexists, Bool.not_true, if_neg (by decide), if_neg hidle]
    exact ⟨_, rfl⟩
  unfold dataSent
  split
  · apply hschedule
    split
    · exact c.not_mem_cancelEvent .rexmit
    · rename_i hno
      rwa [isScheduled_iff] at hno
  · split
    · rename_i hno
      apply hschedule
      intro hmem
      rw [(c.isScheduled_iff .rexmit).mpr hmem] at hno
      cases hno
    · exact ⟨c, rfl⟩

theorem rememberSent_ok (c : TCPConnection) :
    ∃ c', c.rememberSent = .ok c' ∧ c'.log = c.log ∧ c'.sndNxt = c.sndNxt ∧
      c'.sndMax = c.sndNxt := by
  obtain ⟨c', hc'⟩ := dataSent_ok { c with sndMax := c.sndNxt }.ackSent
  have hre := (retimes_ackSent { c with sndMax := c.sndNxt }).trans
    ((dataSent_retimes _).of_eq_ok hc')
  have hkey := hre.key
  simp only [sendKey, Prod.mk.injEq] at hkey
  exact ⟨c', hc', hre.log, hkey.2.1, hkey.2.2.1⟩

theorem segmentSizes_bounds {bytesToSend : ℕ} (hpos : 0 < bytesToSend) (hmss : 0 < c.sndMss.toNat) :
    ∀ bytes ∈ c.segmentSizes bytesToSend, 1 ≤ bytes ∧ bytes ≤ c.sndMss.toNat := by
  intro bytes hmem
  unfold segmentSizes at hmem
  split at hmem
  · rw [List.mem_singleton] at hmem
    omega
  · rw [List.eq_of_mem_replicate hmem]
    omega

theorem sum_segmentSizes_le (bytesToSend : ℕ) : (c.segmentSizes bytesToSend).sum ≤ bytesToSend := by
  unfold segmentSizes
  split
  · simp
  · rw [List.sum_replicate_nat]
    exact Nat.div_mul_le_self _ _

theorem noFinInside_segmentSizes_iff (bytesToSend : ℕ) :
    c.sendFromMax.NoFinInside (c.segmentSizes bytesToSend) ↔
      ∀ j, 0 < j → j < (c.segmentSizes bytesToSend).length → ¬ (c.sendFinFlag = true ∧
        c.sndMax + BitVec.ofNat 32 (j * c.sndMss.toNat) = c.sndFinSeq) := by
  unfold segmentSizes
  split
  · apply iff_of_true trivial
    intro j hpos hlt
    rw [List.length_singleton] at hlt
    omega
  · rw [noFinInside_replicate_iff, List.length_replicate]
    exact Iff.rfl

theorem not_finBeforeData_iff {fullSegmentsOnly : Bool} {congestionWindow : ℤ}
    (h : ¬ (c.bytesToSend congestionWindow = 0 ∨
      fullSegmentsOnly = true ∧ c.bytesToSend congestionWindow < c.sndMss.toNat)) :
    ¬ c.finBeforeData fullSegmentsOnly congestionWindow ↔
      c.sendFromMax.NoFinInside (c.segmentSizes (c.bytesToSend congestionWindow)) := by
  have hcount : c.segmentCount fullSegmentsOnly congestionWindow =
      (c.segmentSizes (c.bytesToSend congestionWindow)).length := if_neg h
  rw [noFinInside_segmentSizes_iff, finBeforeData, hcount]
  constructor
  · intro hno j hpos hlt hfin
    exact hno ⟨hfin.1, j, hpos, hlt, hfin.2⟩
  · intro hall ⟨hflag, j, hpos, hlt, hfin⟩
    exact hall j hpos hlt ⟨hflag, hfin⟩

theorem permitted_nil (congestionWindow : ℤ) : c.Permitted congestionWindow [] c.sendFromMax := by
  constructor
  case contiguous => trivial
  case sizes => exact List.forall_mem_nil _
  case window => exact le_max_left _ _
  case queue => exact Nat.zero_le _
  case fin => exact List.forall_mem_nil _
  case nxt => rfl
  case max => exact (BitVec.add_zero _).symm

/-- The row of segments is what is permitted, if it has no FIN inside. -/
theorem permitted_segmentsOf (h : c.SendSequence) {congestionWindow : ℤ} {c' : TCPConnection}
    (hmss : 0 < c.sndMss.toNat) (hpos : 0 < c.bytesToSend congestionWindow)
    (hfin : c.sendFromMax.NoFinInside (c.segmentSizes (c.bytesToSend congestionWindow)))
    (hnxt : c'.sndNxt = c'.sndMax)
    (hmax : c'.sndMax = ((c.segmentSizes (c.bytesToSend congestionWindow)).foldl afterSegment
      c.sendFromMax).sndNxt) :
    c.Permitted congestionWindow
      (c.sendFromMax.segmentsOf (c.segmentSizes (c.bytesToSend congestionWindow))) c' := by
  generalize hsizes : c.segmentSizes (c.bytesToSend congestionWindow) = sizes at *
  have hlen := payloadLength_segmentsOf c.sendFromMax sizes
  have htotal : totalBytes (c.sendFromMax.segmentsOf sizes) = sizes.sum := congrArg List.sum hlen
  have hsum : sizes.sum ≤ c.bytesToSend congestionWindow := hsizes ▸ c.sum_segmentSizes_le _
  have hqueue := h.unsent_eq
  have hwindow := c.effectiveWindow_sendFromMax congestionWindow
  constructor
  case contiguous => exact (contiguous_segmentsOf_iff c.sendFromMax sizes).mpr hfin
  case sizes =>
    intro seg hseg
    have hmem : seg.payloadLength ∈ sizes := hlen ▸ List.mem_map_of_mem hseg
    exact c.segmentSizes_bounds hpos hmss _ (hsizes ▸ hmem)
  case window =>
    rw [htotal, ← hwindow]
    unfold bytesToSend at hsum
    omega
  case queue =>
    rw [htotal, ← hqueue]
    exact hsum.trans (min_le_right _ _)
  case fin => exact finBit_segmentsOf c.sendFromMax sizes
  case nxt => exact hnxt
  case max => rw [hmax, sndNxt_foldl_afterSegment, htotal]; rfl

end SendData

/-- From a state with its send variables in order, `sendData` returns and sends exactly what is
permitted, unless data follows the place of the FIN in the same call. -/
theorem sendData_sendsPermitted_iff (c : TCPConnection) (h : c.SendSequence)
    (hmss : 0 < c.sndMss.toNat) (fullSegmentsOnly : Bool) (congestionWindow : ℤ) :
    c.SendsPermitted fullSegmentsOnly congestionWindow ↔
      ¬ c.finBeforeData fullSegmentsOnly congestionWindow := by
  by_cases hidle : c.bytesToSend congestionWindow = 0 ∨
      fullSegmentsOnly = true ∧ c.bytesToSend congestionWindow < c.sndMss.toNat
  · have hcount : c.segmentCount fullSegmentsOnly congestionWindow = 0 := if_pos hidle
    apply iff_of_true
    · exact ⟨false, _, [], sendData_idle hidle, (List.append_nil _).symm,
        c.permitted_nil congestionWindow⟩
    · rintro ⟨_, j, hpos, hlt, _⟩
      omega
  · have hpos : 0 < c.bytesToSend congestionWindow :=
      Nat.pos_of_ne_zero fun hzero ↦ hidle (Or.inl hzero)
    rw [not_finBeforeData_iff hidle]
    have hmss' : 0 < c.sendFromMax.sndMss.toNat := hmss
    have hsend := c.sendFromMax.sendSegments_eq (c.bytesToSend congestionWindow) hmss'
    have hsizes : c.sendFromMax.segmentSizes (c.bytesToSend congestionWindow) =
        c.segmentSizes (c.bytesToSend congestionWindow) := rfl
    rw [hsizes] at hsend
    constructor
    · intro ⟨sent, c', segs, hdata, hlog, hpermitted⟩
      rw [sendData_sending hidle, hsend] at hdata
      obtain ⟨c₁, h₁, hdata⟩ := bind_ok_iff.mp hdata
      obtain ⟨c₂, h₂, hlog₂, _⟩ := c₁.rememberSent_ok
      rw [h₂, ok_bind] at hdata
      have hc' : c₂ = c' := congrArg Prod.snd (Except.ok.inj hdata)
      have hc₁ := foldlM_sendSegment_eq _ _ h₁
      rw [← hc', hlog₂, hc₁, log_foldl_afterSegment] at hlog
      have hsegs : c.sendFromMax.segmentsOf (c.segmentSizes (c.bytesToSend congestionWindow)) =
          segs := by
        apply List.map_injective_iff.mpr (fun _ _ ↦ Output.toIP.inj)
        exact List.append_cancel_left hlog
      apply (contiguous_segmentsOf_iff c.sendFromMax _).mp
      rw [hsegs]
      exact hpermitted.contiguous
    · intro hfin
      have hholding : c.sendFromMax.Holding
          (c.segmentSizes (c.bytesToSend congestionWindow)).sum := by
        have hsum := c.sum_segmentSizes_le (c.bytesToSend congestionWindow)
        have hqueue : c.bytesToSend congestionWindow ≤ c.unsent := by
          rw [← h.unsent_eq]
          exact min_le_right _ _
        have hroom := h.room
        constructor
        · show c.offset c.sndMax + _ ≤ c.offset c.sendQueue.endSeq
          unfold unsent at hqueue
          omega
        · show c.offset c.sendQueue.endSeq < 2 ^ 31
          omega
      have hok := foldlM_sendSegment_ok _ _ hholding hfin
      obtain ⟨c₂, h₂, hlog₂, hnxt₂, hmax₂⟩ := rememberSent_ok
        ((c.segmentSizes (c.bytesToSend congestionWindow)).foldl afterSegment c.sendFromMax)
      refine ⟨true, c₂, _, ?_, ?_, permitted_segmentsOf h hmss hpos hfin (hnxt₂.trans hmax₂.symm)
        hmax₂⟩
      · rw [sendData_sending hidle, hsend, hok, ok_bind, h₂, ok_bind]
      · rw [hlog₂, log_foldl_afterSegment]
        rfl

/-- Whether an output is a segment with a FIN. -/
def carriesFin : Output → Bool
  | .toIP seg => seg.finBit
  | _ => false

theorem not_finSent_of_log {c : TCPConnection} (h : c.log.any carriesFin = false) :
    ¬ c.finSent := by
  intro ⟨seg, hmem, hbit⟩
  rw [List.any_eq_false] at h
  exact h _ hmem hbit

/-- The send variables are in order before our FIN is sent, as a test. -/
def inOrderBeforeFin (c : TCPConnection) : Bool :=
  decide (c.offset c.sndUna ≤ c.offset c.sndNxt) && decide (c.offset c.sndNxt ≤ c.offset c.sndMax) &&
    decide (c.offset c.sndMax ≤ c.offset c.sendQueue.endSeq) &&
    decide (c.offset c.sendQueue.endSeq + 1 < 2 ^ 31) && c.sendQueue.beginSeq == c.sndUna &&
    !c.log.any carriesFin

theorem sendSequence_of_inOrderBeforeFin {c : TCPConnection} (h : c.inOrderBeforeFin = true) :
    c.SendSequence := by
  simp only [inOrderBeforeFin, Bool.and_eq_true, decide_eq_true_eq, beq_iff_eq,
    Bool.not_eq_true'] at h
  obtain ⟨⟨⟨⟨⟨hun, hnm⟩, hmax⟩, hroom⟩, hstart⟩, hlog⟩ := h
  have hmax' : c.offset c.sndMax ≤ c.offset c.sendQueue.endSeq + 1 := Nat.le_succ_of_le hmax
  have hfin : c.finSent ↔ c.offset c.sndMax = c.offset c.sendQueue.endSeq + 1 :=
    iff_of_false (not_finSent_of_log hlog) (by omega)
  exact ⟨hun, hnm, hmax', hfin, hroom, Or.inl hstart⟩

/-- Twenty bytes wait behind our SYN. -/
def twentyPending : TCPConnection := { established 100 500 with sendQueue := ⟨101, 121⟩ }

theorem sendData_sendsPermitted_twentyPending :
    twentyPending.SendsPermitted false (-1) ↔ ¬ twentyPending.finBeforeData false (-1) := by
  apply sendData_sendsPermitted_iff
  · exact sendSequence_of_inOrderBeforeFin (by decide)
  · decide

/-- With segments of four bytes and a congestion window of one segment, four bytes are in flight,
four wait, CLOSE is deferred, and the application sends four more. -/
def sendsBehindFin : List Event :=
  establish 1000 ++ [.send 4 0, .send 4 0, .close, .send 4 0]

/-- The FIN goes out between the waiting bytes and those behind it, and the second segment is not
found in the queue. -/
theorem sendData_not_permitted_behind_fin :
    ∃ c, Reachable IsNew (fun _ _ ↦ True) step c ∧ c.SendSequence ∧ 0 < c.sndMss.toNat ∧
      ¬ c.SendsPermitted false (-1) := by
  have hnew : IsNew { mss := 4 } := rfl
  have hrun : (match run step { mss := 4 } sendsBehindFin with
      | .ok c => c.inOrderBeforeFin && decide (0 < c.sndMss.toNat) &&
          !(c.sendData false (-1)).isOk
      | .error _ => false) = true := by
    decide +kernel
  cases hc : run step { mss := 4 } sendsBehindFin with
  | error e =>
      rw [hc] at hrun
      cases hrun
  | ok c =>
      rw [hc] at hrun
      simp only [Bool.and_eq_true, decide_eq_true_eq, Bool.not_eq_true'] at hrun
      have hreach : Reachable IsNew (fun _ _ ↦ True) step c :=
        (Reachable.start hnew).of_run sendsBehindFin (by decide +kernel) hc
      refine ⟨c, hreach, sendSequence_of_inOrderBeforeFin hrun.1.1, hrun.1.2, ?_⟩
      intro ⟨sent, c', segs, hdata, _⟩
      have hfault := hrun.2
      rw [hdata] at hfault
      cases hfault

end TCPConnection

end InetManet.TCP
