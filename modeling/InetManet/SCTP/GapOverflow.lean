import InetManet.SCTP.GapEviction

/-!
# Growth of the gap list

Every TSN that is next to no other gets a run of its own, and nothing on the way from
`processDataArrived` to the two places where a run is added looks at the size of the arrays. They hold
as long as such TSNs do not arrive when there is room for one more run only.
-/

namespace InetManet.SCTP

open TransitionSystem SerialNumber

namespace GapState

variable {g g' : GapState} {receivedTsn lo : BitVec 32} {i n : ℕ}

/-! ## New runs -/

theorem before_of_pos (hi : 0 < i) (hlt : i < maxGapCount) : before i = i - 1 := by
  unfold maxGapCount at hlt
  unfold before
  bv_omega

/-- A run that is inserted in full arrays is written behind their last entry. -/
theorem insertRun_full (hi : i ≤ g.numGaps) (hfull : ¬ g.numGaps + 1 < maxGapCount) :
    g.insertRun receivedTsn i = .error .outOfBounds := by
  obtain ⟨n, hn⟩ : ∃ n, g.numGaps + 1 - i = n + 1 := ⟨g.numGaps - i, by omega⟩
  have hout : ¬ i + n + 1 < maxGapCount := by omega
  unfold insertRun
  dsimp only
  rw [hn, shiftUp, copy, setStop, if_neg hout]
  rfl

/-- The TSN gets a run of its own: it is in the gap between `lo` and the start of a run but at neither
end of it, or behind the last run and not next to it. -/
def opensRun (receivedTsn : BitVec 32) (g : GapState) : ℕ → ℕ → BitVec 32 → Bool
  | 0, _, lo => receivedTsn != lo
  | n + 1, i, lo =>
    if 0 < (g.gapStartList i).toNat then
      if tsnBetween lo receivedTsn (g.gapStartList i - 1) then
        decide (1 < (g.gapStartList i - 1 - lo + 1).toNat) &&
          receivedTsn != g.gapStartList i - 1 && receivedTsn != lo
      else opensRun receivedTsn g n (i + 1) (g.gapStopList i + 1)
    else opensRun receivedTsn g n (i + 1) lo

/-- No write is out of bounds, and there are as many runs as before or fewer. -/
def Keeps (g : GapState) (x : Except GapFault GapState) : Prop :=
  Outcome x (fun g' ↦ g'.numGaps ≤ g.numGaps) fun _ ↦ False

/-- There is one run more, and no write is out of bounds if the new number is below the size of the
arrays. -/
def Grows (g : GapState) (x : Except GapFault GapState) : Prop :=
  Outcome x (fun g' ↦ g'.numGaps = g.numGaps + 1) fun _ ↦ ¬ g.numGaps + 1 < maxGapCount

theorem keeps_ok (h : g'.numGaps = g.numGaps) : g.Keeps (.ok g') := h.le

theorem keeps_setStart (hi : i < maxGapCount) (tsn : BitVec 32) : g.Keeps (g.setStart i tsn) := by
  unfold setStart
  rw [if_pos hi]
  exact Nat.le_refl _

theorem keeps_setStop (hi : i < maxGapCount) (tsn : BitVec 32) : g.Keeps (g.setStop i tsn) := by
  unfold setStop
  rw [if_pos hi]
  exact Nat.le_refl _

theorem keeps_shiftDown {entries : ℕ} (h : i + entries ≤ maxGapCount) :
    Outcome (shiftDown entries i g) (fun g' ↦ g'.numGaps = g.numGaps) fun _ ↦ False := by
  rw [shiftDown_eq h]
  rfl

theorem keeps_closeRun {entries : ℕ} (hi : i < maxGapCount) (h : i + entries ≤ maxGapCount) :
    g.Keeps (g.closeRun entries i) := by
  unfold closeRun Keeps
  split
  · simp only [setStart, setStop, hi, if_true, ok_bind]
    exact Nat.sub_le _ _
  · apply (keeps_shiftDown h).bind
    intro g' hg'
    show g'.numGaps - 1 ≤ g.numGaps
    omega

theorem grows_insertRun (hi : i ≤ g.numGaps) :
    g.Grows (g.insertRun receivedTsn i) := by
  unfold Grows
  by_cases hroom : g.numGaps + 1 < maxGapCount
  · have hi' : i < maxGapCount := by omega
    unfold insertRun
    dsimp only
    rw [shiftUp_eq (by omega), ok_bind]
    simp only [setStart, setStop, hi', if_true, ok_bind]
    rfl
  · rw [insertRun_full hi hroom]
    exact hroom

theorem keeps_fillBefore (hi : i < g.numGaps) (hlt : g.numGaps < maxGapCount)
    (hlo : i = 0 → lo = g.cTsnAck + 1)
    (hopens : ¬ (1 < (g.gapStartList i - 1 - lo + 1).toNat ∧
      receivedTsn ≠ g.gapStartList i - 1 ∧ receivedTsn ≠ lo)) :
    g.Keeps (g.fillBefore receivedTsn i lo) := by
  have hi' : i < maxGapCount := hi.trans hlt
  have hbefore (hpos : 0 < i) : before i < maxGapCount := by
    rw [before_of_pos hpos hi']
    omega
  unfold fillBefore
  dsimp only
  split
  · rename_i hsize
    split
    · exact keeps_setStart hi' _
    · rename_i hhi
      split
      · rename_i htsn
        split
        · exact keeps_ok rfl
        · rename_i hack
          have hpos : 0 < i := by
            apply Nat.pos_of_ne_zero
            intro hzero
            rw [htsn, hlo hzero] at hack
            exact hack rfl
          exact keeps_setStop (hbefore hpos) _
      · rename_i htsn
        exact absurd ⟨hsize, hhi, htsn⟩ hopens
  · split
    · exact keeps_closeRun (g := { g with cTsnAck := g.gapStopList i }) hi' (by omega)
    · rename_i hack
      have hpos : 0 < i := by
        apply Nat.pos_of_ne_zero
        intro hzero
        exact hack (hlo hzero)
      unfold Keeps
      unfold setStop
      rw [if_pos (hbefore hpos), ok_bind]
      apply keeps_closeRun hi'
      show i + (g.numGaps + 1 - i) ≤ maxGapCount
      omega

theorem grows_fillBefore (hi : i < g.numGaps)
    (hopens : 1 < (g.gapStartList i - 1 - lo + 1).toNat ∧
      receivedTsn ≠ g.gapStartList i - 1 ∧ receivedTsn ≠ lo) :
    g.Grows (g.fillBefore receivedTsn i lo) := by
  unfold fillBefore
  dsimp only
  rw [if_pos hopens.1, if_neg hopens.2.1, if_neg hopens.2.2]
  exact grows_insertRun hi.le

section

variable (hlt : g.numGaps < maxGapCount)

include hlt

theorem keeps_fillAfter (hlo : g.numGaps = 0 → lo = g.cTsnAck + 1)
    (htsn : receivedTsn = lo) : g.Keeps (g.fillAfter receivedTsn lo) := by
  unfold fillAfter
  rw [if_pos htsn]
  split
  · exact keeps_ok rfl
  · rename_i hack
    have hpos : 0 < g.numGaps := by
      apply Nat.pos_of_ne_zero
      intro hzero
      rw [htsn, hlo hzero] at hack
      exact hack rfl
    have hbefore : before g.numGaps < maxGapCount := by
      rw [before_of_pos hpos hlt]
      omega
    exact keeps_setStop hbefore _

theorem grows_fillAfter (htsn : receivedTsn ≠ lo) :
    g.Grows (g.fillAfter receivedTsn lo) := by
  unfold fillAfter
  rw [if_neg htsn]
  simp only [setStart, setStop, hlt, if_true, ok_bind]
  rfl

/-- The loop adds a run exactly for the TSNs that open one. -/
theorem gapLoop_spec (hn : i + n = g.numGaps) (hlo : i = 0 → lo = g.cTsnAck + 1) :
    if g.opensRun receivedTsn n i lo then g.Grows (g.gapLoop receivedTsn n i lo)
    else g.Keeps (g.gapLoop receivedTsn n i lo) := by
  induction n generalizing i lo with
  | zero =>
    unfold opensRun gapLoop
    by_cases htsn : receivedTsn = lo
    · rw [if_neg (by simp [htsn])]
      apply keeps_fillAfter hlt _ htsn
      intro hzero
      exact hlo (by omega)
    · rw [if_pos (by simp [htsn])]
      exact grows_fillAfter hlt htsn
  | succ n ih =>
    rw [opensRun, gapLoop]
    split
    · split
      · by_cases hopens : 1 < (g.gapStartList i - 1 - lo + 1).toNat ∧
          receivedTsn ≠ g.gapStartList i - 1 ∧ receivedTsn ≠ lo
        · rw [if_pos (by simpa [and_assoc] using hopens)]
          exact grows_fillBefore (by omega) hopens
        · rw [if_neg (by simpa [and_assoc] using hopens)]
          exact keeps_fillBefore (by omega) hlt hlo hopens
      · exact ih (by omega) (by omega)
    · exact ih (by omega) (by omega)

theorem numGaps_le_of_gapLoop
    (h : g.gapLoop receivedTsn g.numGaps 0 (g.cTsnAck + 1) = .ok g') : g'.numGaps ≤ maxGapCount := by
  have hspec := @gapLoop_spec g receivedTsn _ _ _ hlt (Nat.zero_add g.numGaps) fun _ ↦ rfl
  rw [h] at hspec
  split at hspec
  · have hgrows : g'.numGaps = g.numGaps + 1 := hspec
    omega
  · exact le_trans hspec hlt.le

end

/-- `advanceCtsna` writes within the arrays and leaves the number of runs as it is. -/
theorem keeps_advanceLoop {rounds : ℕ} (hle : g.numGaps ≤ maxGapCount) :
    Outcome (advanceLoop rounds g) (fun g' ↦ g'.numGaps = g.numGaps) fun _ ↦ False := by
  induction rounds generalizing g with
  | zero => exact rfl
  | succ rounds ih =>
    unfold advanceLoop
    split
    · have hshift : Outcome (shiftDown (g.numGaps - 1) 0 { g with cTsnAck := g.gapStopList 0 })
          (fun g' ↦ g'.numGaps = g.numGaps) fun _ ↦ False := by
        apply keeps_shiftDown
        omega
      apply hshift.bind
      intro g' hg'
      rw [← hg']
      apply ih
      rw [hg']
      exact hle
    · exact rfl

theorem opensRun_congr (hstart : g'.gapStartList = g.gapStartList)
    (hstop : g'.gapStopList = g.gapStopList) :
    g'.opensRun receivedTsn n i lo = g.opensRun receivedTsn n i lo := by
  induction n generalizing i lo with
  | zero => rfl
  | succ n ih =>
    unfold opensRun
    rw [hstart, hstop, ih, ih]

end GapState

namespace TsnState

variable {a a' : TsnState} {d : TsnArrival}

/-- With an open window the list is always looked through. -/
theorem updateGapList_eq (h : 0 < d.freeWindow) : a.updateGapList d.freeWindow d.tsn =
    (a.gapLoop d.tsn a.numGaps 0 (a.cTsnAck + 1)).map fun g ↦ (true,
      { a with
        toGapState := g
        highestTsnStored :=
          if tsnGt d.tsn a.highestTsnStored then d.tsn else a.highestTsnStored }) := by
  have hopen : ¬ d.freeWindow ≤ 0 := by omega
  unfold updateGapList
  dsimp only
  rw [if_neg fun hfull ↦ hopen hfull.1]
  split
  · cases a.gapLoop d.tsn a.numGaps 0 (a.cTsnAck + 1) with
    | error e => rfl
    | ok g => rfl
  · cases a.gapLoop d.tsn a.numGaps 0 (a.cTsnAck + 1) with
    | error e => rfl
    | ok g => rfl

/-! ## Arrivals -/

/-- The TSN gets as far as to `updateGapList`. -/
def reachesGapList (a : TsnState) (tsn : BitVec 32) : Bool :=
  !a.stopReceiving && !tsnLe tsn a.cTsnAck &&
    if tsnGt tsn a.noteHighest.highestTsnReceived then tsn != a.initPeerTsn
    else !a.tsnIsDuplicate tsn

/-- The TSN adds a run to the gap list. -/
def opensRun (a : TsnState) (tsn : BitVec 32) : Bool :=
  a.reachesGapList tsn && a.toGapState.opensRun tsn a.numGaps 0 (a.cTsnAck + 1)

/-- What one arrival does to the number of runs. -/
def Spec (a : TsnState) (opens : Bool) (x : Except GapFault TsnState) : Prop :=
  if opens then
    Outcome x (fun a' ↦ a'.numGaps = a.numGaps + 1) fun _ ↦ ¬ a.numGaps + 1 < maxGapCount
  else Outcome x (fun a' ↦ a'.numGaps ≤ a.numGaps) fun _ ↦ False

theorem fill_spec (hlt : a.numGaps < maxGapCount) :
    a.Spec (a.toGapState.opensRun d.tsn a.numGaps 0 (a.cTsnAck + 1)) (a.fill d) := by
  have hloop : if a.toGapState.opensRun d.tsn a.numGaps 0 (a.cTsnAck + 1) then
      a.toGapState.Grows (a.gapLoop d.tsn a.numGaps 0 (a.cTsnAck + 1))
      else a.toGapState.Keeps (a.gapLoop d.tsn a.numGaps 0 (a.cTsnAck + 1)) :=
    GapState.gapLoop_spec hlt (Nat.zero_add _) fun _ ↦ rfl
  unfold fill Spec
  rw [updateGapList_eq d.isOpen]
  cases hresult : a.gapLoop d.tsn a.numGaps 0 (a.cTsnAck + 1) with
  | error e =>
    rw [hresult] at hloop
    exact hloop
  | ok g =>
    rw [hresult] at hloop
    have hle : g.numGaps ≤ maxGapCount := GapState.numGaps_le_of_gapLoop hlt hresult
    have hadvance : Outcome g.advanceCtsna (fun g' ↦ g'.numGaps = g.numGaps) fun _ ↦ False :=
      GapState.keeps_advanceLoop hle
    obtain ⟨g', hg'⟩ : ∃ g', g.advanceCtsna = .ok g' := by
      cases hadv : g.advanceCtsna with
      | error e =>
        rw [hadv] at hadvance
        exact hadvance.elim
      | ok g' => exact ⟨g', rfl⟩
    have hsame : g'.numGaps = g.numGaps := hadvance.of_eq_ok hg'
    simp only [Except.map, ok_bind, if_true, hg']
    split at hloop
    · rename_i hopens
      rw [if_pos hopens]
      exact hsame.trans hloop
    · rename_i hopens
      rw [if_neg hopens]
      exact hsame.trans_le hloop

/-- An arrival leaves the runs as they are, or it is one call of `fill`. -/
theorem processDataArrived_cases (a : TsnState) (d : TsnArrival) :
    (a.reachesGapList d.tsn = false ∧
      ∃ a', a.processDataArrived d = .ok a' ∧ a'.numGaps = a.numGaps) ∨
    (a.reachesGapList d.tsn = true ∧ ∃ a₁ : TsnState, a.processDataArrived d = a₁.fill d ∧
      a₁.numGaps = a.numGaps ∧ a₁.gapStartList = a.gapStartList ∧
      a₁.gapStopList = a.gapStopList ∧ a₁.cTsnAck = a.cTsnAck) := by
  unfold processDataArrived
  dsimp only
  by_cases hstop : a.stopReceiving = true
  · rw [if_pos (show a.noteHighest.stopReceiving = true from hstop)]
    exact .inl ⟨by simp [reachesGapList, hstop], _, rfl, rfl⟩
  rw [if_neg (show ¬ a.noteHighest.stopReceiving = true from hstop)]
  by_cases hle : tsnLe d.tsn a.cTsnAck = true
  · rw [if_pos (show tsnLe d.tsn a.noteHighest.cTsnAck = true from hle)]
    exact .inl ⟨by simp [reachesGapList, hle], _, rfl, rfl⟩
  rw [if_neg (show ¬ tsnLe d.tsn a.noteHighest.cTsnAck = true from hle)]
  by_cases hgt : tsnGt d.tsn a.noteHighest.highestTsnReceived = true
  · rw [if_pos hgt]
    by_cases hinit : d.tsn = a.initPeerTsn
    · rw [if_pos (show d.tsn = a.noteHighest.initPeerTsn from hinit)]
      rw [hinit] at hgt
      exact .inl ⟨by simp [reachesGapList, hgt, hinit], _, rfl, rfl⟩
    · rw [if_neg (show ¬ d.tsn = a.noteHighest.initPeerTsn from hinit)]
      exact .inr ⟨by simp [reachesGapList, hstop, hle, hgt, hinit], _, rfl, rfl, rfl, rfl, rfl⟩
  rw [if_neg hgt]
  by_cases hdup : a.tsnIsDuplicate d.tsn = true
  · rw [if_pos (show a.noteHighest.tsnIsDuplicate d.tsn = true from hdup)]
    exact .inl ⟨by simp [reachesGapList, hgt, hdup], _, rfl, rfl⟩
  · rw [if_neg (show ¬ a.noteHighest.tsnIsDuplicate d.tsn = true from hdup)]
    exact .inr ⟨by simp [reachesGapList, hstop, hle, hgt, hdup], _, rfl, rfl, rfl, rfl, rfl⟩

theorem processDataArrived_spec (hlt : a.numGaps < maxGapCount) (d : TsnArrival) :
    a.Spec (a.opensRun d.tsn) (a.processDataArrived d) := by
  unfold opensRun
  rcases a.processDataArrived_cases d with ⟨hreach, a', hok, hnum⟩ | ⟨hreach, a₁, hfill, hsame⟩
  · rw [hreach, hok]
    exact hnum.le
  · obtain ⟨hnum, hstart, hstop, hack⟩ := hsame
    have hspec := a₁.fill_spec (d := d) (hnum ▸ hlt)
    rw [GapState.opensRun_congr hstart hstop, hnum, hack] at hspec
    rw [hreach, hfill, Bool.true_and]
    unfold Spec at hspec ⊢
    rw [hnum] at hspec
    exact hspec

/-- An arrival keeps the bounds exactly if it finds room for the run that it adds. -/
theorem processDataArrived_within_iff (hlt : a.numGaps < maxGapCount) (d : TsnArrival) :
    (∃ a', a.processDataArrived d = .ok a' ∧ a'.numGaps < maxGapCount) ↔
      (a.opensRun d.tsn = true → a.numGaps + 1 < maxGapCount) := by
  have hspec := a.processDataArrived_spec hlt d
  unfold Spec at hspec
  cases hopens : a.opensRun d.tsn with
  | true =>
    rw [if_pos hopens] at hspec
    cases hresult : a.processDataArrived d with
    | error e =>
      rw [hresult] at hspec
      have hfull : ¬ a.numGaps + 1 < maxGapCount := hspec
      simp [hfull]
    | ok a' =>
      rw [hresult] at hspec
      have hnum : a'.numGaps = a.numGaps + 1 := hspec
      simp [hnum]
  | false =>
    rw [if_neg (by simp [hopens])] at hspec
    cases hresult : a.processDataArrived d with
    | error e =>
      rw [hresult] at hspec
      exact hspec.elim
    | ok a' =>
      rw [hresult] at hspec
      have hnum : a'.numGaps ≤ a.numGaps := hspec
      simp [hnum.trans_lt hlt]

/-! ## Runs -/

/-- In the run over these arrivals no write is out of bounds, and the number of runs stays below the
size of the arrays. -/
def NeverOverflows : TsnState → List TsnArrival → Prop
  | a, [] => a.numGaps < maxGapCount
  | a, d :: ds => a.numGaps < maxGapCount ∧
      ∃ a', a.arrive d = .ok a' ∧ NeverOverflows a' ds

/-- No TSN adds a run when there is room for less than two. -/
def AlwaysRoom : TsnState → List TsnArrival → Prop
  | _, [] => True
  | a, d :: ds => ((a.afterSack d.sackSent).opensRun d.tsn = true → a.numGaps + 1 < maxGapCount) ∧
      ∀ a', a.arrive d = .ok a' → AlwaysRoom a' ds

theorem NeverOverflows.numGaps_lt {ds : List TsnArrival} (h : a.NeverOverflows ds) :
    a.numGaps < maxGapCount := by
  cases ds with
  | nil => exact h
  | cons d ds => exact h.1

theorem neverOverflows_iff (hlt : a.numGaps < maxGapCount) (ds : List TsnArrival) :
    a.NeverOverflows ds ↔ a.AlwaysRoom ds := by
  induction ds generalizing a with
  | nil => exact iff_of_true hlt trivial
  | cons d ds ih =>
    have hstep : (∃ a', a.arrive d = .ok a' ∧ a'.numGaps < maxGapCount) ↔
        ((a.afterSack d.sackSent).opensRun d.tsn = true → a.numGaps + 1 < maxGapCount) :=
      (a.afterSack d.sackSent).processDataArrived_within_iff hlt d
    constructor
    · rintro ⟨_, a', hok, hrest⟩
      refine ⟨hstep.mp ⟨a', hok, hrest.numGaps_lt⟩, ?_⟩
      intro a'' hok'
      rw [hok, Except.ok.injEq] at hok'
      rw [← hok']
      exact (ih hrest.numGaps_lt).mp hrest
    · intro h
      obtain ⟨a', hok, hnum⟩ := hstep.mpr h.1
      exact ⟨hlt, a', hok, (ih hnum).mpr (h.2 a' hok)⟩

/-- Whatever the peer sends while the window is open, the gap arrays hold exactly as long as no TSN
adds a run when there is room for less than two. -/
theorem neverOverflows_iff_alwaysRoom (initPeerTsn : BitVec 32) (ds : List TsnArrival) :
    (newAssociation initPeerTsn).NeverOverflows ds ↔ (newAssociation initPeerTsn).AlwaysRoom ds := by
  apply neverOverflows_iff
  show 0 < maxGapCount
  decide

/-! ## Isolated TSNs -/

/-- Every other TSN. -/
def isolated (j : ℕ) : TsnArrival := ⟨BitVec.ofNat 32 (2 * j + 2), 65535, by decide, false⟩

/-- The first `n` isolated TSNs are there, each in a run of its own. -/
structure HasIsolated (a : TsnState) (n : ℕ) : Prop where
  numGaps : a.numGaps = n
  cTsnAck : a.cTsnAck = 0
  initPeerTsn : a.initPeerTsn = 1
  stopReceiving : a.stopReceiving = false
  start : ∀ j < n, a.gapStartList j = BitVec.ofNat 32 (2 * j + 2)
  stop : ∀ j < n, a.gapStopList j = BitVec.ofNat 32 (2 * j + 2)

theorem gapLoop_isolated {g : GapState} {n m i : ℕ} (hn : n < maxGapCount) (hm : i + m = n)
    (hstart : ∀ j < n, g.gapStartList j = BitVec.ofNat 32 (2 * j + 2))
    (hstop : ∀ j < n, g.gapStopList j = BitVec.ofNat 32 (2 * j + 2)) :
    g.gapLoop (isolated n).tsn m i (BitVec.ofNat 32 (2 * i + 1)) =
      g.fillAfter (isolated n).tsn (BitVec.ofNat 32 (2 * n + 1)) := by
  have hsize : maxGapCount = 500 := rfl
  induction m generalizing i with
  | zero =>
    rw [Nat.add_zero] at hm
    rw [hm]
    rfl
  | succ m ih =>
    have hi : i < n := by omega
    have hpos : 0 < (g.gapStartList i).toNat := by
      rw [hstart i hi, BitVec.toNat_ofNat, Nat.mod_eq_of_lt (by omega)]
      omega
    have hprev : g.gapStartList i - 1 = BitVec.ofNat 32 (2 * i + 1) := by
      rw [hstart i hi, GapState.ofNat_sub_one (by omega)]
      rfl
    have hdist : (BitVec.ofNat 32 (2 * n + 2) - BitVec.ofNat 32 (2 * i + 1)).toNat =
        2 * n + 2 - (2 * i + 1) := toNat_ofNat_sub_ofNat (by omega) (by omega)
    have hbehind : tsnBetween (BitVec.ofNat 32 (2 * i + 1)) (isolated n).tsn
        (g.gapStartList i - 1) = false := by
      unfold tsnBetween isolated
      rw [hprev, BitVec.sub_self, hdist]
      simp
      omega
    rw [GapState.gapLoop, if_pos hpos, hbehind, if_neg Bool.false_ne_true, hstop i hi,
      ofNat_add_one, ← ih (i := i + 1) (by omega)]
    rfl

/-- The next isolated TSN is appended as a run of its own. -/
theorem HasIsolated.fill {n : ℕ} (h : a.HasIsolated n) (hn : n < maxGapCount) :
    ∃ a', a.fill (isolated n) = .ok a' ∧ a'.HasIsolated (n + 1) := by
  have hsize : maxGapCount = 500 := rfl
  have hnot : ¬ (isolated n).tsn = BitVec.ofNat 32 (2 * n + 1) := by
    show ¬ BitVec.ofNat 32 (2 * n + 2) = BitVec.ofNat 32 (2 * n + 1)
    rw [ofNat_inj (by omega) (by omega)]
    omega
  let g : GapState :=
    { a.toGapState with
      gapStartList := Function.update a.gapStartList n (isolated n).tsn
      gapStopList := Function.update a.gapStopList n (isolated n).tsn
      numGaps := n + 1 }
  have happend : a.gapLoop (isolated n).tsn a.numGaps 0 (a.cTsnAck + 1) = .ok g := by
    have hlo : a.cTsnAck + 1 = BitVec.ofNat 32 (2 * 0 + 1) := by
      rw [h.cTsnAck]
      rfl
    rw [hlo, h.numGaps, gapLoop_isolated hn (Nat.zero_add n) h.start h.stop]
    unfold GapState.fillAfter
    rw [if_neg hnot]
    simp only [GapState.setStart, GapState.setStop, h.numGaps, hn, if_true, ok_bind]
    rfl
  have hentry {entries : ℕ → BitVec 32}
      (hold : ∀ j < n, entries j = BitVec.ofNat 32 (2 * j + 2)) (j : ℕ) (hj : j < n + 1) :
      Function.update entries n (isolated n).tsn j = BitVec.ofNat 32 (2 * j + 2) := by
    by_cases hjn : j = n
    · rw [hjn, Function.update_self]
      rfl
    · rw [Function.update_of_ne hjn]
      exact hold j (by omega)
  have hadvance : g.advanceCtsna = .ok g := by
    have hfirst : ¬ g.cTsnAck + 1 = g.gapStartList 0 := by
      show ¬ a.cTsnAck + 1 = Function.update a.gapStartList n (isolated n).tsn 0
      rw [h.cTsnAck, hentry h.start 0 (Nat.succ_pos n)]
      decide
    show GapState.advanceLoop (n + 1) g = .ok g
    rw [GapState.advanceLoop, if_neg hfirst]
  unfold TsnState.fill
  rw [updateGapList_eq (isolated n).isOpen, happend]
  simp only [Except.map, ok_bind, if_true, hadvance]
  refine ⟨_, rfl, ?_⟩
  constructor
  · rfl
  · exact h.cTsnAck
  · exact h.initPeerTsn
  · exact h.stopReceiving
  · exact hentry h.start
  · exact hentry h.stop

theorem HasIsolated.next {n : ℕ} (h : a.HasIsolated n) (hn : n < maxGapCount) :
    ∃ a', a.processDataArrived (isolated n) = .ok a' ∧ a'.HasIsolated (n + 1) := by
  have hsize : maxGapCount = 500 := rfl
  have htsn : (isolated n).tsn = BitVec.ofNat 32 (2 * n + 2) := rfl
  have hhighest : a.noteHighest.highestTsnReceived = BitVec.ofNat 32 (2 * n) := by
    show (if a.numGaps = 0 then a.cTsnAck else a.gapStopList (a.numGaps - 1)) = _
    rw [h.numGaps, h.cTsnAck]
    split
    · rename_i hzero
      rw [hzero]
      rfl
    · rw [h.stop _ (by omega)]
      congr 1
      omega
  have hle : tsnLe (isolated n).tsn a.noteHighest.cTsnAck = false := by
    show signedLe (BitVec.ofNat 32 (2 * n + 2)) a.cTsnAck = false
    rw [h.cTsnAck, show (0 : BitVec 32) = BitVec.ofNat 32 0 from rfl,
      signedLe_ofNat (by omega) (by omega) (by omega)]
    simp
  have hgt : tsnGt (isolated n).tsn a.noteHighest.highestTsnReceived = true := by
    unfold tsnGt
    rw [hhighest, htsn, toInt_ofNat_sub_ofNat (by omega) (by omega) (by omega)]
    simp
  have hinit : ¬ (isolated n).tsn = a.noteHighest.initPeerTsn := by
    show ¬ BitVec.ofNat 32 (2 * n + 2) = a.initPeerTsn
    rw [h.initPeerTsn, show (1 : BitVec 32) = BitVec.ofNat 32 1 from rfl,
      ofNat_inj (by omega) (by omega)]
    omega
  have hstop : ¬ a.noteHighest.stopReceiving = true := by
    show ¬ a.stopReceiving = true
    rw [h.stopReceiving]
    exact Bool.false_ne_true
  unfold processDataArrived
  dsimp only
  rw [if_neg hstop, if_neg (by simp [hle]), if_pos hgt, if_neg hinit]
  apply HasIsolated.fill _ hn
  constructor
  · exact h.numGaps
  · exact h.cTsnAck
  · exact h.initPeerTsn
  · exact h.stopReceiving
  · exact h.start
  · exact h.stop

theorem HasIsolated.overflows {n k : ℕ} (h : a.HasIsolated n)
    (hk : n + k = maxGapCount) :
    ¬ a.NeverOverflows ((List.range' n k).map isolated) := by
  induction k generalizing a n with
  | zero =>
    have hfull : ¬ a.numGaps < maxGapCount := by
      rw [h.numGaps]
      omega
    exact hfull
  | succ k ih =>
    rintro ⟨_, a', hok, hrest⟩
    obtain ⟨a'', hok', hnext⟩ := h.next (by omega)
    have hsame : a' = a'' := Except.ok.inj (hok.symm.trans hok')
    rw [hsame] at hrest
    exact ih hnext (by omega) hrest

/-- A peer that starts with TSN 1 and sends the TSNs 2, 4, …, 1000 fills the arrays. -/
theorem not_neverOverflows :
    ¬ ∀ (initPeerTsn : BitVec 32) (ds : List TsnArrival),
      (newAssociation initPeerTsn).NeverOverflows ds := by
  intro h
  have hstart : (newAssociation 1).HasIsolated 0 := by
    constructor
    · rfl
    · rfl
    · rfl
    · rfl
    · exact nofun
    · exact nofun
  exact hstart.overflows (k := 500) rfl (h 1 _)

end TsnState

end InetManet.SCTP
