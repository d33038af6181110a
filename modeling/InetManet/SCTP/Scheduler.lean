import InetManet.Library.RoundRobin
import InetManet.SCTP.SendStreams
import Mathlib.Data.List.FinRange

/-!
# The round-robin stream scheduler

`streamScheduler` looks for a stream with something in its queues, starting behind the one that was
served last. The number of that one, `lastStreamScheduled`, is a 32-bit number, and so is the counter
of the search; a call that only peeks leaves it alone. The streams are numbered from 0 on, as
`initStreams` makes them.
-/

namespace InetManet.SCTP.Scheduler

open RoundRobin

inductive Fault
  | endlessLoop
  | noSuchStream
  deriving DecidableEq

variable {n : ℕ}

/-- There is something in one of the two queues. -/
def waiting (stream : SCTPSendStream) : Bool :=
  0 < stream.streamQ.length || 0 < stream.unorderedStreamQ.length

section

variable (sendStreams : Fin n → SCTPSendStream)

def numUsableStreams : ℕ :=
  (List.finRange n).countP fun sid ↦ waiting (sendStreams sid)

/-- `while (sid != state->lastStreamScheduled)`; `none` is the end of the loop without a stream. -/
def schedulerLoop (sendStreams : Fin n → SCTPSendStream) (lastStreamScheduled : BitVec 32) :
    ℕ → BitVec 32 → Except Fault (Option (BitVec 32))
  | 0, _ => .error .endlessLoop
  | rounds + 1, sid =>
    if sid = lastStreamScheduled then .ok none
    else if h : sid.toNat < n then
      let stream := sendStreams ⟨sid.toNat, h⟩
      if 0 < stream.unorderedStreamQ.length then .ok (some sid)
      else if 0 < stream.streamQ.length then .ok (some sid)
      else schedulerLoop sendStreams lastStreamScheduled rounds ((sid + 1) % BitVec.ofNat 32 n)
    else .error .noSuchStream

/-- The loop over the map when one stream is usable. -/
def onlyStream : Option (BitVec 32) :=
  ((List.finRange n).find? fun sid ↦
    0 < (sendStreams sid).unorderedStreamQ.length || 0 < (sendStreams sid).streamQ.length).map
      fun sid ↦ BitVec.ofNat 32 sid.val

/-- The stream that is returned as an `int32`, and `lastStreamScheduled` afterwards. -/
def streamScheduler (lastStreamScheduled : BitVec 32) (peek : Bool) : Except Fault (ℤ × BitVec 32) := do
  let num := numUsableStreams sendStreams
  let found ←
    if num > 1 then
      schedulerLoop sendStreams lastStreamScheduled (n + 1)
        ((lastStreamScheduled + 1) % BitVec.ofNat 32 n)
    else if num = 1 then .ok (onlyStream sendStreams)
    else .ok none
  match found with
  | some sid => return (sid.toInt, if peek then lastStreamScheduled else sid)
  | none => return (-1, lastStreamScheduled)

end

/-! ## Rows of calls -/

/-- What is in the queues when the scheduler is called, and whether the call only peeks. -/
structure Call (n : ℕ) where
  sendStreams : Fin n → SCTPSendStream
  peek : Bool

/-- `lastStreamScheduled` before call `k`. -/
def position (calls : ℕ → Call n) (lastStreamScheduled : BitVec 32) : ℕ → Except Fault (BitVec 32)
  | 0 => .ok lastStreamScheduled
  | k + 1 => do
    let last ← position calls lastStreamScheduled k
    let r ← streamScheduler (calls k).sendStreams last (calls k).peek
    return r.2

/-- What call `k` returns. -/
def scheduled (calls : ℕ → Call n) (lastStreamScheduled : BitVec 32) (k : ℕ) : Except Fault ℤ := do
  let last ← position calls lastStreamScheduled k
  let r ← streamScheduler (calls k).sendStreams last (calls k).peek
  return r.1

/-! ## The search -/

section Search

variable (sendStreams : Fin n → SCTPSendStream) {last : BitVec 32}

theorem next_sid (hn : n < 2 ^ 31) {sid : ℕ} (hsid : sid < n) :
    (BitVec.ofNat 32 sid + 1) % BitVec.ofNat 32 n = BitVec.ofNat 32 (next n sid) := by
  apply BitVec.eq_of_toNat_eq
  have hsum : (BitVec.ofNat 32 sid + 1).toNat = sid + 1 := by
    rw [BitVec.toNat_add, BitVec.toNat_ofNat]
    change (sid % 2 ^ 32 + 1) % 2 ^ 32 = sid + 1
    omega
  have hcount : (BitVec.ofNat 32 n).toNat = n := by
    rw [BitVec.toNat_ofNat]
    omega
  have hlt : next n sid < n := next_lt hsid
  rw [BitVec.toNat_umod, hsum, hcount, ← next_eq_mod hsid, BitVec.toNat_ofNat]
  omega

theorem toNat_sid (hn : n < 2 ^ 31) {sid : ℕ} (hsid : sid < n) :
    (BitVec.ofNat 32 sid).toNat = sid := by
  rw [BitVec.toNat_ofNat]
  omega

/-- From `sid` on a waiting stream is found that lies before all the others that wait, if one of
them lies before the stream that was served last. -/
theorem schedulerLoop_spec (hn : n < 2 ^ 31) {rounds sid : ℕ} (hsid : sid < n) {target : Fin n}
    (htarget : waiting (sendStreams target)) (hrounds : steps n sid target < rounds)
    (hlast : ∀ x < n, BitVec.ofNat 32 x = last → steps n sid target < steps n sid x) :
    ∃ s : Fin n, schedulerLoop sendStreams last rounds (BitVec.ofNat 32 sid) =
        .ok (some (BitVec.ofNat 32 s.val)) ∧ waiting (sendStreams s) ∧
      ∀ t : Fin n, waiting (sendStreams t) → steps n sid s ≤ steps n sid t := by
  induction rounds generalizing sid with
  | zero => omega
  | succ rounds ih =>
    have hne : BitVec.ofNat 32 sid ≠ last := by
      intro heq
      have hself := hlast sid hsid heq
      rw [steps_self] at hself
      omega
    have hin : (BitVec.ofNat 32 sid).toNat < n := by rwa [toNat_sid hn hsid]
    have hstream : (⟨(BitVec.ofNat 32 sid).toNat, hin⟩ : Fin n) = ⟨sid, hsid⟩ :=
      Fin.ext (toNat_sid hn hsid)
    rw [schedulerLoop, if_neg hne, dif_pos hin, hstream]
    simp only
    by_cases hwaits : waiting (sendStreams ⟨sid, hsid⟩)
    · refine ⟨⟨sid, hsid⟩, ?_, hwaits, fun t _ ↦ ?_⟩
      · split_ifs with hunordered hordered
        · rfl
        · rfl
        · simp [waiting] at hwaits hunordered hordered
          grind
      · rw [steps_self]
        exact Nat.zero_le _
    · have hempty : ¬ 0 < (sendStreams ⟨sid, hsid⟩).unorderedStreamQ.length ∧
          ¬ 0 < (sendStreams ⟨sid, hsid⟩).streamQ.length := by
        simp [waiting] at hwaits ⊢
        grind
      have hother : ∀ t : Fin n, waiting (sendStreams t) → sid ≠ t.val := by
        intro t ht heq
        exact hwaits (by rwa [show (⟨sid, hsid⟩ : Fin n) = t from Fin.ext heq])
      have hstep := steps_next hsid target.isLt (hother target htarget)
      rw [if_neg hempty.1, if_neg hempty.2, next_sid hn hsid]
      obtain ⟨s, hrun, hs, hfirst⟩ := ih (next_lt hsid) (by omega) (by
        intro x hx heq
        have hxs : sid ≠ x := fun h ↦ hne (h ▸ heq)
        have hbefore := hlast x hx heq
        have hstepx := steps_next hsid hx hxs
        omega)
      refine ⟨s, hrun, hs, fun t ht ↦ ?_⟩
      rw [steps_next hsid s.isLt (hother s hs), steps_next hsid t.isLt (hother t ht)]
      exact Nat.succ_le_succ (hfirst t ht)

/-! ## One call -/

/-- The streams that are counted. -/
def usableStreams : List (Fin n) := (List.finRange n).filter fun sid ↦ waiting (sendStreams sid)

theorem numUsableStreams_eq : numUsableStreams sendStreams = (usableStreams sendStreams).length :=
  List.countP_eq_length_filter

theorem mem_usableStreams {t : Fin n} : t ∈ usableStreams sendStreams ↔ waiting (sendStreams t) := by
  simp [usableStreams]

theorem nodup_usableStreams : (usableStreams sendStreams).Nodup :=
  (List.nodup_finRange n).filter _

/-- With more than one usable stream one of them is not the one that was served last. -/
theorem exists_other (hn : n < 2 ^ 31) (h : 1 < numUsableStreams sendStreams) (last : BitVec 32) :
    ∃ t : Fin n, waiting (sendStreams t) ∧ BitVec.ofNat 32 t.val ≠ last := by
  have hnodup := nodup_usableStreams sendStreams
  have hmem : ∀ t ∈ usableStreams sendStreams, waiting (sendStreams t) :=
    fun t ht ↦ (mem_usableStreams sendStreams).mp ht
  rw [numUsableStreams_eq] at h
  match hlist : usableStreams sendStreams with
  | [] => simp [hlist] at h
  | [_] => simp [hlist] at h
  | a :: b :: rest =>
    rw [hlist] at hnodup hmem
    have hab : a ≠ b := fun hab ↦ (List.nodup_cons.mp hnodup).1 (hab ▸ List.mem_cons_self)
    by_cases ha : BitVec.ofNat 32 a.val = last
    · refine ⟨b, hmem b (List.mem_cons_of_mem _ List.mem_cons_self), fun hb ↦ hab ?_⟩
      have heq := congrArg BitVec.toNat (ha.trans hb.symm)
      rw [toNat_sid hn a.isLt, toNat_sid hn b.isLt] at heq
      exact Fin.ext heq
    · exact ⟨a, hmem a List.mem_cons_self, ha⟩

/-- With one usable stream it is found, and no other waits. -/
theorem onlyStream_spec (h : numUsableStreams sendStreams = 1) :
    ∃ s : Fin n, onlyStream sendStreams = some (BitVec.ofNat 32 s.val) ∧ waiting (sendStreams s) ∧
      ∀ t : Fin n, waiting (sendStreams t) → t = s := by
  rw [numUsableStreams_eq, List.length_eq_one_iff] at h
  obtain ⟨s, hs⟩ := h
  have honly : ∀ t : Fin n, waiting (sendStreams t) ↔ t = s := by
    intro t
    rw [← mem_usableStreams, hs, List.mem_singleton]
  have hwaits : waiting (sendStreams s) := (honly s).mpr rfl
  have hsame : ∀ t : Fin n, (decide (0 < (sendStreams t).unorderedStreamQ.length) ||
      decide (0 < (sendStreams t).streamQ.length)) = waiting (sendStreams t) :=
    fun t ↦ Bool.or_comm _ _
  refine ⟨s, ?_, hwaits, fun t ht ↦ (honly t).mp ht⟩
  rw [onlyStream]
  simp only [hsame]
  cases hfind : (List.finRange n).find? fun t ↦ waiting (sendStreams t) with
  | none =>
    rw [List.find?_eq_none] at hfind
    exact absurd hwaits (hfind s (List.mem_finRange s))
  | some t =>
    have ht := List.find?_some hfind
    rw [(honly t).mp ht]
    rfl

theorem toInt_sid (hn : n < 2 ^ 31) {sid : ℕ} (hsid : sid < n) :
    (BitVec.ofNat 32 sid).toInt = sid := by
  rw [BitVec.toInt_eq_toNat_cond, toNat_sid hn hsid]
  split <;> omega

/-- Where the search starts: behind the stream that was served last, if that is one of the streams. -/
theorem exists_start (hn : n < 2 ^ 31) (target : Fin n) (hother : BitVec.ofNat 32 target.val ≠ last) :
    ∃ sid < n, (last + 1) % BitVec.ofNat 32 n = BitVec.ofNat 32 sid ∧
      (∀ x < n, BitVec.ofNat 32 x = last → steps n sid target < steps n sid x) ∧
      (last.toNat < n → sid = next n last.toNat) := by
  have hpos : 0 < n := Nat.zero_lt_of_lt target.isLt
  have hcount : (BitVec.ofNat 32 n).toNat = n := by
    rw [BitVec.toNat_ofNat]
    omega
  by_cases hin : last.toNat < n
  · refine ⟨next n last.toNat, next_lt hin, ?_, ?_, fun _ ↦ rfl⟩
    · rw [← next_sid hn hin, BitVec.ofNat_toNat, BitVec.setWidth_eq]
    · intro x hx heq
      have hxl : last.toNat = x := by rw [← heq, toNat_sid hn hx]
      have htx : target.val ≠ x := fun h ↦ hother (h ▸ heq)
      have hfull : ahead n last.toNat x = n := by
        rw [hxl]
        unfold ahead
        grind
      have hless : ahead n last.toNat target < n := by
        rw [hxl]
        have htarget := target.isLt
        unfold ahead
        grind
      rw [ahead_eq_steps hin hx] at hfull
      rw [ahead_eq_steps hin target.isLt] at hless
      omega
  · refine ⟨((last + 1) % BitVec.ofNat 32 n).toNat, ?_, ?_, ?_, fun h ↦ absurd h hin⟩
    · rw [BitVec.toNat_umod, hcount]
      exact Nat.mod_lt _ hpos
    · rw [BitVec.ofNat_toNat, BitVec.setWidth_eq]
    · intro x hx heq
      rw [← heq, toNat_sid hn hx] at hin
      exact absurd hx hin

/-- A call finds nothing if nothing waits, and otherwise the first that waits behind the one that was
served last. -/
theorem streamScheduler_spec (hn : n < 2 ^ 31) (last : BitVec 32) (peek : Bool) :
    (streamScheduler sendStreams last peek = .ok (-1, last) ∧
      ∀ t : Fin n, ¬ waiting (sendStreams t)) ∨
    ∃ s : Fin n, streamScheduler sendStreams last peek =
        .ok (s.val, if peek then last else BitVec.ofNat 32 s.val) ∧
      waiting (sendStreams s) ∧
      ∀ t : Fin n, waiting (sendStreams t) → t ≠ s → last.toNat < n →
        ahead n last.toNat s < ahead n last.toNat t := by
  rw [streamScheduler]
  by_cases hmany : 1 < numUsableStreams sendStreams
  · right
    obtain ⟨target, htarget, hother⟩ := exists_other sendStreams hn hmany last
    obtain ⟨sid, hsid, hstart, hlast, hbehind⟩ := exists_start hn target hother
    obtain ⟨s, hrun, hs, hfirst⟩ := schedulerLoop_spec sendStreams hn hsid htarget
      ((steps_lt hsid target.isLt).trans (Nat.lt_succ_self n)) hlast
    refine ⟨s, ?_, hs, fun t ht hne hin ↦ ?_⟩
    · rw [← toInt_sid hn s.isLt]
      simp only [gt_iff_lt, if_pos hmany, hstart, hrun]
      rfl
    · rw [ahead_eq_steps hin s.isLt, ahead_eq_steps hin t.isLt, ← hbehind hin]
      have hle := hfirst t ht
      have hdiffer : steps n sid s ≠ steps n sid t :=
        fun h ↦ hne (Fin.ext (steps_inj hsid t.isLt s.isLt h.symm))
      omega
  · by_cases hone : numUsableStreams sendStreams = 1
    · right
      obtain ⟨s, hrun, hs, honly⟩ := onlyStream_spec sendStreams hone
      refine ⟨s, ?_, hs, fun t ht hne ↦ absurd (honly t ht) hne⟩
      rw [← toInt_sid hn s.isLt]
      simp only [gt_iff_lt, if_neg hmany, if_pos hone, hrun]
      rfl
    · left
      constructor
      · simp only [gt_iff_lt, if_neg hmany, if_neg hone]
        rfl
      · intro t ht
        have hmem := (mem_usableStreams sendStreams).mpr ht
        have hpos := List.length_pos_of_mem hmem
        rw [← numUsableStreams_eq] at hpos
        omega

theorem streamScheduler_returns (hn : n < 2 ^ 31) {last pos : BitVec 32} {peek : Bool} {sid : ℤ}
    (h : streamScheduler sendStreams last peek = .ok (sid, pos)) :
    (sid = -1 ∧ pos = last ∧ ∀ t : Fin n, ¬ waiting (sendStreams t)) ∨
    ∃ s : Fin n, sid = s.val ∧ pos = (if peek then last else BitVec.ofNat 32 s.val) ∧
      waiting (sendStreams s) ∧
      ∀ t : Fin n, waiting (sendStreams t) → t ≠ s → last.toNat < n →
        ahead n last.toNat s < ahead n last.toNat t := by
  rcases streamScheduler_spec sendStreams hn last peek with ⟨hrun, hempty⟩ | ⟨s, hrun, hs⟩
  · left
    rw [hrun] at h
    cases h
    exact ⟨rfl, rfl, hempty⟩
  · right
    rw [hrun] at h
    cases h
    exact ⟨s, rfl, rfl, hs⟩

end Search

/-! ## Rows of calls -/

theorem exists_position (hn : n < 2 ^ 31) (calls : ℕ → Call n) (last : BitVec 32) (k : ℕ) :
    ∃ pos sid pos', position calls last k = .ok pos ∧
      streamScheduler (calls k).sendStreams pos (calls k).peek = .ok (sid, pos') ∧
      position calls last (k + 1) = .ok pos' ∧ scheduled calls last k = .ok sid := by
  have hstep : ∀ k pos, position calls last k = .ok pos → ∃ sid pos',
      streamScheduler (calls k).sendStreams pos (calls k).peek = .ok (sid, pos') ∧
        position calls last (k + 1) = .ok pos' ∧ scheduled calls last k = .ok sid := by
    intro k pos hpos
    have hcall : ∃ r, streamScheduler (calls k).sendStreams pos (calls k).peek = .ok r := by
      rcases streamScheduler_spec (calls k).sendStreams hn pos (calls k).peek with
        ⟨hrun, -⟩ | ⟨s, hrun, -⟩
      · exact ⟨_, hrun⟩
      · exact ⟨_, hrun⟩
    obtain ⟨r, hr⟩ := hcall
    refine ⟨r.1, r.2, hr, ?_, ?_⟩
    · rw [position, hpos]
      change (streamScheduler _ _ _ >>= _) = _
      rw [hr]
      rfl
    · rw [scheduled, hpos]
      change (streamScheduler _ _ _ >>= _) = _
      rw [hr]
      rfl
  have hpos : ∃ pos, position calls last k = .ok pos := by
    induction k with
    | zero => exact ⟨last, rfl⟩
    | succ k ih =>
      obtain ⟨pos, hpos⟩ := ih
      obtain ⟨sid, pos', -, hnext, -⟩ := hstep k pos hpos
      exact ⟨pos', hnext⟩
  obtain ⟨pos, hpos⟩ := hpos
  obtain ⟨sid, pos', h⟩ := hstep k pos hpos
  exact ⟨pos, sid, pos', hpos, h⟩

/-- What is asked of the scheduler over any row of calls. -/
structure RoundRobin (calls : ℕ → Call n) (last : BitVec 32) : Prop where
  /-- Every call returns -1 or a stream with something in its queues. -/
  returns : ∀ k, ∃ sid, scheduled calls last k = .ok sid ∧
    (sid = -1 ↔ ∀ s, ¬ waiting ((calls k).sendStreams s)) ∧
    (sid ≠ -1 → ∃ s : Fin n, sid = s.val ∧ waiting ((calls k).sendStreams s))
  peek : ∀ k, (calls k).peek → position calls last (k + 1) = position calls last k
  fair : ∀ i j (a b : Fin n), i < j → ¬ (calls i).peek → ¬ (calls j).peek → a ≠ b →
    scheduled calls last i = .ok a.val → scheduled calls last j = .ok a.val →
    (∀ k, i < k → k ≤ j → waiting ((calls k).sendStreams b)) →
    ∃ k, i < k ∧ k < j ∧ ¬ (calls k).peek ∧ scheduled calls last k = .ok b.val

/-- Whom call `k` serves: nobody if it peeks or finds nothing. -/
def servedBy (calls : ℕ → Call n) (sid : ℕ → ℤ) (k : ℕ) : Option ℕ :=
  if (calls k).peek ∨ sid k = -1 then none else some (sid k).toNat

theorem serves (hn : n < 2 ^ 31) (calls : ℕ → Call n) {pos : ℕ → BitVec 32} {sid : ℕ → ℤ}
    (hrun : ∀ k, streamScheduler (calls k).sendStreams (pos k) (calls k).peek =
      .ok (sid k, pos (k + 1))) (b : Fin n) {i j : ℕ}
    (hb : ∀ k, i < k → k ≤ j → waiting ((calls k).sendStreams b)) :
    Serves n b.val (fun k ↦ (pos k).toNat) (servedBy calls sid) i j := by
  have hcases : ∀ k, (sid k = -1 ∧ pos (k + 1) = pos k) ∨ ∃ s : Fin n, sid k = s.val ∧
      pos (k + 1) = (if (calls k).peek then pos k else BitVec.ofNat 32 s.val) ∧
      ∀ t : Fin n, waiting ((calls k).sendStreams t) → t ≠ s → (pos k).toNat < n →
        ahead n (pos k).toNat s < ahead n (pos k).toNat t := by
    intro k
    rcases streamScheduler_returns (calls k).sendStreams hn (hrun k) with
      ⟨hsid, hpos, -⟩ | ⟨s, hsid, hpos, -, hfirst⟩
    · exact Or.inl ⟨hsid, hpos⟩
    · exact Or.inr ⟨s, hsid, hpos, hfirst⟩
  have hserved : ∀ k t, servedBy calls sid k = some t → ∃ s : Fin n, t = s.val ∧
      (pos (k + 1)).toNat = t ∧ (waiting ((calls k).sendStreams b) → s ≠ b → (pos k).toNat < n →
        ahead n (pos k).toNat s < ahead n (pos k).toNat b) := by
    intro k t ht
    obtain ⟨hnot, ht⟩ := Option.ite_none_left_eq_some.mp ht
    obtain ⟨hpeek, hsome⟩ := not_or.mp hnot
    cases ht
    rcases hcases k with ⟨hnone, -⟩ | ⟨s, hsid, hpos, hfirst⟩
    · exact absurd hnone hsome
    · rw [if_neg hpeek] at hpos
      rw [hsid, hpos, Int.toNat_natCast, toNat_sid hn s.isLt]
      exact ⟨s, rfl, rfl, fun hwaits hne ↦ hfirst b hwaits hne.symm⟩
  constructor
  · intro k _ _ hnone
    have hidle : (calls k).peek = true ∨ sid k = -1 := by
      by_contra h
      rw [servedBy, if_neg h] at hnone
      cases hnone
    rcases hcases k with ⟨-, hpos⟩ | ⟨s, hsid, hpos, -⟩
    · rw [hpos]
    · rw [hpos, if_pos (hidle.resolve_right (by omega))]
  · intro k _ _ t ht
    obtain ⟨s, hts, hpos, -⟩ := hserved k t ht
    exact ⟨hts ▸ s.isLt, hpos⟩
  · intro k hik hkj t ht htb hin
    obtain ⟨s, rfl, -, hfirst⟩ := hserved k t ht
    exact hfirst (hb k hik hkj) (fun h ↦ htb (congrArg Fin.val h)) hin

theorem roundRobin (hn : n < 2 ^ 31) (calls : ℕ → Call n) (last : BitVec 32) :
    RoundRobin calls last := by
  choose pos sid pos' hpos hrun hnext hsched using exists_position hn calls last
  have hsame : ∀ k, pos (k + 1) = pos' k := fun k ↦
    Except.ok.inj ((hpos (k + 1)).symm.trans (hnext k))
  have hserves : ∀ k, streamScheduler (calls k).sendStreams (pos k) (calls k).peek =
      .ok (sid k, pos (k + 1)) := by
    intro k
    rw [hrun k, hsame k]
  constructor
  · intro k
    refine ⟨sid k, hsched k, ?_⟩
    rcases streamScheduler_returns (calls k).sendStreams hn (hrun k) with
      ⟨hsid, -, hempty⟩ | ⟨s, hsid, -, hs, -⟩
    · exact ⟨iff_of_true hsid hempty, fun hne ↦ absurd hsid hne⟩
    · exact ⟨iff_of_false (by omega) (fun hempty ↦ hempty s hs), fun _ ↦ ⟨s, hsid, hs⟩⟩
  · intro k hpeek
    rw [hpos (k + 1), hpos k, hsame k]
    apply congrArg Except.ok
    rcases streamScheduler_returns (calls k).sendStreams hn (hrun k) with
      ⟨-, hstays, -⟩ | ⟨s, -, hstays, -⟩
    · exact hstays
    · rw [hstays, if_pos hpeek]
  · intro i j a b hij hpeeki hpeekj hab hi hj hb
    have hserved : ∀ k (s : Fin n), servedBy calls sid k = some s.val ↔
        ¬ (calls k).peek ∧ scheduled calls last k = .ok s.val := by
      intro k s
      have hreturn : sid k = -1 ∨ 0 ≤ sid k := by
        rcases streamScheduler_returns (calls k).sendStreams hn (hrun k) with
          ⟨hsid, -⟩ | ⟨s, hsid, -⟩
        · exact Or.inl hsid
        · right
          rw [hsid]
          exact Int.natCast_nonneg _
      rw [hsched k, servedBy, Option.ite_none_left_eq_some, Option.some.injEq, Except.ok.injEq]
      constructor
      · intro ⟨hnot, htoNat⟩
        exact ⟨fun h ↦ hnot (Or.inl h), by omega⟩
      · intro ⟨hpeek, hsid⟩
        refine ⟨fun h ↦ h.elim hpeek fun h ↦ ?_, ?_⟩ <;> omega
    obtain ⟨k, hik, hkj, hk⟩ := (serves hn calls hserves b hb).fair b.isLt
      (fun h ↦ hab (Fin.ext h)) hij ((hserved i a).mpr ⟨hpeeki, hi⟩) ((hserved j a).mpr ⟨hpeekj, hj⟩)
    exact ⟨k, hik, hkj, (hserved k b).mp hk⟩

/-- Three streams, the first two of which always have a message waiting. -/
theorem roundRobin_witness :
    RoundRobin (n := 3) (fun _ ↦ ⟨fun s ↦ if s.val < 2 then { streamQ := [{}] } else {}, false⟩) 0 :=
  roundRobin (by decide) (fun _ ↦ ⟨fun s ↦ if s.val < 2 then { streamQ := [{}] } else {}, false⟩) 0

end InetManet.SCTP.Scheduler
