import InetManet.DYMO.LoopFreedom

/-!
# Sequence numbers of a destination

A destination counts its messages, and a node prefers the message with the fresher number. Numbers are
compared as signed ones, so that the comparison turns over where the count goes from `0x7fff` to `0x8000`,
and not where it starts again.
-/

namespace InetManet.DYMO

/-! ## The count -/

/-- The count goes from the lower half of the numbers to the upper one within `k` steps. -/
def Crosses (seqNum : SeqNum) (k : ℕ) : Prop := seqNum.toNat < 0x8000 ∧ 0x8000 ≤ seqNum.toNat + k

instance (seqNum : SeqNum) (k : ℕ) : Decidable (Crosses seqNum k) :=
  inferInstanceAs (Decidable (_ ∧ _))

theorem toNat_incSeqNum (seqNum : SeqNum) :
    (incSeqNum seqNum).toNat = if seqNum.toNat = 0xffff then 0x100 else seqNum.toNat + 1 := by
  have hlt := seqNum.isLt
  unfold incSeqNum
  by_cases hmax : seqNum = 0xffff
  · rw [if_pos hmax, hmax]
    rfl
  · have hmax' : seqNum.toNat ≠ 0xffff := fun h ↦ hmax (BitVec.eq_of_toNat_eq h)
    rw [if_neg hmax, if_neg hmax', BitVec.toNat_add]
    apply Nat.mod_eq_of_lt
    change seqNum.toNat + 1 < 65536
    omega

/-- The count starts again above the first numbers, once at most within half of the numbers. -/
theorem toNat_iterate_incSeqNum {seqNum : SeqNum} {k : ℕ} (hle : k ≤ 0x7eff) :
    (incSeqNum^[k] seqNum).toNat =
      if seqNum.toNat + k ≤ 0xffff then seqNum.toNat + k else seqNum.toNat + k - 0xff00 := by
  have hlt := seqNum.isLt
  induction k with
  | zero => rw [if_pos (by omega)]; rfl
  | succ k ih =>
    rw [Function.iterate_succ_apply', toNat_incSeqNum, ih (by omega)]
    split_ifs <;> omega

theorem iterate_incSeqNum_ne_zero {seqNum : SeqNum} {k : ℕ} (hne : seqNum ≠ 0) (hle : k ≤ 0x7eff) :
    incSeqNum^[k] seqNum ≠ 0 := by
  intro hzero
  have hnat := @toNat_iterate_incSeqNum seqNum k hle
  have hpos : seqNum.toNat ≠ 0 := fun h ↦ hne (BitVec.eq_of_toNat_eq h)
  rw [hzero] at hnat
  change 0 = _ at hnat
  split_ifs at hnat <;> omega

section

variable {seqNum : SeqNum} {k : ℕ} (hpos : 0 < k) (hle : k ≤ 0x7eff)

include hpos hle

/-- As signed numbers, the count goes up unless it crosses. -/
theorem toInt_lt_iterate_incSeqNum_iff :
    seqNum.toInt < (incSeqNum^[k] seqNum).toInt ↔ ¬ Crosses seqNum k := by
  have hlt := seqNum.isLt
  have hnat := @toNat_iterate_incSeqNum seqNum k hle
  rw [BitVec.toInt_eq_toNat_cond, BitVec.toInt_eq_toNat_cond, hnat, Crosses]
  split_ifs <;> omega

theorem iterate_incSeqNum_ne : incSeqNum^[k] seqNum ≠ seqNum := by
  intro hsame
  have hnat := @toNat_iterate_incSeqNum seqNum k hle
  have hlt := seqNum.isLt
  rw [hsame] at hnat
  split_ifs at hnat <;> omega

theorem seqNumIsFresher_iterate_iff :
    seqNumIsFresher (incSeqNum^[k] seqNum) seqNum = true ↔ ¬ Crosses seqNum k := by
  rw [← toInt_lt_iterate_incSeqNum_iff hpos hle, seqNumIsFresher, decide_eq_true_iff]
  omega

theorem seqNumIsFresher_of_iterate_iff :
    seqNumIsFresher seqNum (incSeqNum^[k] seqNum) = false ↔ ¬ Crosses seqNum k := by
  have hne : seqNum.toInt ≠ (incSeqNum^[k] seqNum).toInt :=
    fun h ↦ iterate_incSeqNum_ne hpos hle (BitVec.eq_of_toInt_eq h).symm
  rw [← toInt_lt_iterate_incSeqNum_iff hpos hle, seqNumIsFresher, decide_eq_false_iff_not]
  omega

/-- A route with the number from before is replaced unless the count has crossed. -/
theorem isRBlockBetter_iterate_iff {entry : RoutingEntry} {ab : AddressBlock} {isRREQ : Bool}
    (hentry : entry.routeSeqNum = seqNum) :
    isRBlockBetter entry ab (incSeqNum^[k] seqNum) isRREQ = true ↔ ¬ Crosses seqNum k := by
  rw [← seqNumIsFresher_of_iterate_iff hpos hle, isRBlockBetter, hentry]
  cases seqNumIsFresher seqNum (incSeqNum^[k] seqNum) with
  | true => simp
  | false => simp [iterate_incSeqNum_ne hpos hle]

end

/-! ## A node that hears a destination -/

/-- A message of the destination, and how far the destination has counted since the one before. -/
structure Hearing where
  increments : ℕ
  dist : Option ℕ
  isRREQ : Bool
  nextHopAddress : IPAddress
  nextHopInterface : ℕ
  pos : 0 < increments
  le : increments ≤ 0x7eff

/-- What happens at the node: it hears of the destination, or of another one, routes break or expire. -/
inductive TableEvent (dest : IPAddress)
  | hear (m : Hearing)
  | other (address : IPAddress) (hne : address ≠ dest) (seqNum : SeqNum) (dist : Option ℕ) (isRREQ : Bool)
    (nextHopAddress : IPAddress) (nextHopInterface : ℕ)
  | rerr (sourceAddr : IPAddress) (sourceInterface : ℕ) (unreachableNode : AddressBlock)
  | failed (nextHopAddress : IPAddress)
  | expire (i : ℕ)

/-- The number of the destination and the table of the node. -/
structure Listening where
  ownSeqNum : SeqNum
  routingTable : List RoutingEntry

variable {dest : IPAddress}

/-- The state afterwards, and whether the node has taken what it has heard of the destination. -/
def Listening.step (s : Listening) : TableEvent dest → Except Fault (Listening × Bool)
  | .hear m => do
    let ownSeqNum := incSeqNum^[m.increments] s.ownSeqNum
    let (routingTable, better) ← updateRoutesFromAddressBlock m.isRREQ m.nextHopAddress
      m.nextHopInterface s.routingTable ⟨dest, some ownSeqNum, m.dist⟩
    .ok (⟨ownSeqNum, routingTable⟩, better)
  | .other address _ seqNum dist isRREQ nextHopAddress nextHopInterface => do
    let (routingTable, _) ← updateRoutesFromAddressBlock isRREQ nextHopAddress nextHopInterface
      s.routingTable ⟨address, some seqNum, dist⟩
    .ok (⟨s.ownSeqNum, routingTable⟩, true)
  | .rerr sourceAddr sourceInterface unreachableNode =>
    .ok (⟨s.ownSeqNum, (invalidateRoutes sourceAddr sourceInterface (s.routingTable, []) unreachableNode).1⟩,
      true)
  | .failed nextHopAddress =>
    .ok (⟨s.ownSeqNum, breakRoutes (·.routeNextHopAddress == nextHopAddress) s.routingTable⟩, true)
  | .expire i => .ok (⟨s.ownSeqNum, s.routingTable.eraseIdx i⟩, true)

/-- The node takes all that it hears of the destination. -/
def AlwaysAccepts : Listening → List (TableEvent dest) → Prop
  | _, [] => True
  | s, event :: events => ∃ s', s.step event = .ok (s', true) ∧ AlwaysAccepts s' events

/-- If the node has a route to the destination, the count does not cross before the message. -/
def Listening.NotCrossing (s : Listening) : TableEvent dest → Prop
  | .hear m => (getForAddress s.routingTable dest).isSome = true → ¬ Crosses s.ownSeqNum m.increments
  | _ => True

def NeverCrosses : Listening → List (TableEvent dest) → Prop
  | _, [] => True
  | s, event :: events =>
    s.NotCrossing event ∧ ∀ s' better, s.step event = .ok (s', better) → NeverCrosses s' events

/-- Routes to the destination have the number that has been heard last. -/
structure Listening.Current (dest : IPAddress) (s : Listening) : Prop where
  ne_zero : s.ownSeqNum ≠ 0
  routeSeqNum : ∀ entry ∈ s.routingTable, entry.routeAddress = dest → entry.routeSeqNum = s.ownSeqNum

section

variable {s : Listening} {t : List RoutingEntry} {event : TableEvent dest}

theorem mem_setRoute {new entry : RoutingEntry} (h : entry ∈ setRoute t new) :
    entry = new ∨ (entry ∈ t ∧ ((getForAddress t new.routeAddress).isSome = true →
      entry.routeAddress ≠ new.routeAddress)) := by
  unfold setRoute at h
  split at h
  · obtain ⟨old, hold, rfl⟩ := List.mem_map.mp h
    by_cases hsame : old.routeAddress = new.routeAddress
    · rw [if_pos hsame]
      exact .inl rfl
    · rw [if_neg hsame]
      exact .inr ⟨hold, fun _ ↦ hsame⟩
  · rename_i hnone
    rcases List.mem_append.mp h with hold | hnew
    · exact .inr ⟨hold, fun hsome ↦ absurd hsome hnone⟩
    · exact .inl (List.mem_singleton.mp hnew)

theorem exists_of_mem_breakRoutes {p : RoutingEntry → Bool} {entry : RoutingEntry}
    (h : entry ∈ breakRoutes p t) :
    ∃ old ∈ t, entry.routeAddress = old.routeAddress ∧ entry.routeSeqNum = old.routeSeqNum := by
  obtain ⟨old, hold, rfl⟩ := List.mem_map.mp h
  refine ⟨old, hold, ?_⟩
  split <;> exact ⟨rfl, rfl⟩

theorem Listening.Current.of_breakRoutes (hcur : s.Current dest) (p : RoutingEntry → Bool) :
    Listening.Current dest ⟨s.ownSeqNum, breakRoutes p s.routingTable⟩ where
  ne_zero := hcur.ne_zero
  routeSeqNum entry hmem haddr := by
    obtain ⟨old, hold, haddress, hseq⟩ := exists_of_mem_breakRoutes hmem
    rw [hseq]
    exact hcur.routeSeqNum old hold (haddress ▸ haddr)

/-- Only what is heard of the destination can be rejected, and only if the count has crossed. -/
theorem isSuperior_hear_iff (hcur : s.Current dest) (m : Hearing) (ab : AddressBlock)
    (hab : ab.address = dest) :
    isSuperior s.routingTable ab (incSeqNum^[m.increments] s.ownSeqNum) m.isRREQ = true ↔
      s.NotCrossing (.hear m : TableEvent dest) := by
  unfold isSuperior Listening.NotCrossing
  rw [hab]
  cases hget : getForAddress s.routingTable dest with
  | none => simp
  | some entry =>
    have hseq := hcur.routeSeqNum entry (List.mem_of_find?_eq_some hget) (routeAddress_of_get hget)
    simpa using isRBlockBetter_iterate_iff m.pos m.le hseq

/-- One step: the node takes what it hears exactly if the count does not cross, and its routes stay
current. -/
theorem Listening.Current.step (hcur : s.Current dest) (event : TableEvent dest) :
    ∃ s' better, s.step event = .ok (s', better) ∧ (better = true ↔ s.NotCrossing event) ∧
      (better = true → s'.Current dest) := by
  cases event with
  | hear m =>
    have hiff := isSuperior_hear_iff hcur m ⟨dest, some (incSeqNum^[m.increments] s.ownSeqNum), m.dist⟩ rfl
    simp only [Listening.step, updateRoutesFromAddressBlock]
    by_cases hsup : isSuperior s.routingTable
        ⟨dest, some (incSeqNum^[m.increments] s.ownSeqNum), m.dist⟩
        (incSeqNum^[m.increments] s.ownSeqNum) m.isRREQ = true
    · rw [if_pos hsup]
      refine ⟨_, true, rfl, by rw [← hiff, hsup], fun _ ↦ ?_⟩
      constructor
      · exact iterate_incSeqNum_ne_zero hcur.ne_zero m.le
      · intro entry hmem haddr
        rcases mem_setRoute hmem with rfl | ⟨hold, hother⟩
        · rfl
        · -- An old route to the destination has been overwritten.
          by_contra
          apply hother ?_ haddr
          apply List.find?_isSome.mpr
          exact ⟨entry, hold, beq_iff_eq.mpr haddr⟩
    · rw [if_neg hsup]
      exact ⟨_, false, rfl, by rw [← hiff]; simp [hsup], fun h ↦ absurd h (by decide)⟩
  | other address hne seqNum dist isRREQ nextHopAddress nextHopInterface =>
    simp only [Listening.step, updateRoutesFromAddressBlock]
    split
    · refine ⟨_, true, rfl, by simp [Listening.NotCrossing], fun _ ↦ ⟨hcur.ne_zero, ?_⟩⟩
      intro entry hmem haddr
      rcases mem_setRoute hmem with rfl | ⟨hold, -⟩
      · exact absurd haddr hne
      · exact hcur.routeSeqNum entry hold haddr
    · exact ⟨_, true, rfl, by simp [Listening.NotCrossing], fun _ ↦ hcur⟩
  | rerr sourceAddr sourceInterface unreachableNode =>
    refine ⟨_, true, rfl, by simp [Listening.NotCrossing], fun _ ↦ ?_⟩
    rw [invalidateRoutes]
    split
    · exact hcur
    · exact hcur.of_breakRoutes _
  | failed nextHopAddress =>
    exact ⟨_, true, rfl, by simp [Listening.NotCrossing], fun _ ↦ hcur.of_breakRoutes _⟩
  | expire i =>
    refine ⟨_, true, rfl, by simp [Listening.NotCrossing], fun _ ↦ ⟨hcur.ne_zero, ?_⟩⟩
    intro entry hmem haddr
    exact hcur.routeSeqNum entry (List.mem_of_mem_eraseIdx hmem) haddr

theorem Listening.Current.alwaysAccepts_iff (events : List (TableEvent dest)) :
    ∀ {s : Listening}, s.Current dest → (AlwaysAccepts s events ↔ NeverCrosses s events) := by
  induction events with
  | nil => exact fun _ ↦ Iff.rfl
  | cons event events ih =>
    intro s hcur
    obtain ⟨s', better, hstep, hiff, hnext⟩ := hcur.step event
    rw [AlwaysAccepts, NeverCrosses, ← hiff, hstep]
    constructor
    · rintro ⟨s'', heq, hrest⟩
      cases heq
      refine ⟨rfl, fun s'' better heq ↦ ?_⟩
      cases heq
      exact (ih (hnext rfl)).mp hrest
    · rintro ⟨rfl, hrest⟩
      exact ⟨s', rfl, (ih (hnext rfl)).mpr (hrest s' true rfl)⟩

end

/-! ## Comparable numbers -/

/-- A later number of a destination is fresher than an earlier one, and not the other way round. -/
def Comparable (seqNum : SeqNum) (k : ℕ) : Prop :=
  seqNumIsFresher (incSeqNum^[k] seqNum) seqNum = true ∧
    seqNumIsFresher seqNum (incSeqNum^[k] seqNum) = false

instance (seqNum : SeqNum) (k : ℕ) : Decidable (Comparable seqNum k) :=
  inferInstanceAs (Decidable (_ ∧ _))

/-- Numbers are comparable exactly if the count does not cross in between, and a node that hears all of a
destination takes all exactly if the count does not cross between two messages. -/
theorem comparable_iff_not_crosses (seqNum : SeqNum) (hne : seqNum ≠ 0) :
    (∀ k, 1 ≤ k → k ≤ 0x7eff → (Comparable seqNum k ↔ ¬ Crosses seqNum k)) ∧
      ∀ (dest : IPAddress) (events : List (TableEvent dest)),
        AlwaysAccepts ⟨seqNum, []⟩ events ↔ NeverCrosses ⟨seqNum, []⟩ events := by
  constructor
  · intro k hpos hle
    rw [Comparable, seqNumIsFresher_iterate_iff hpos hle, seqNumIsFresher_of_iterate_iff hpos hle, and_self]
  · intro dest events
    have hcur : Listening.Current dest ⟨seqNum, []⟩ := ⟨hne, fun entry hmem ↦ by simp at hmem⟩
    exact hcur.alwaysAccepts_iff events

theorem comparable_iff_not_crosses_one :
    (1 : SeqNum) ≠ 0 ∧ (Comparable 1 1 ↔ ¬ Crosses 1 1) :=
  ⟨by decide, (comparable_iff_not_crosses 1 (by decide)).1 1 (by decide) (by decide)⟩

/-- The number after `0x7fff` is taken for an older one, and the message with it is rejected. -/
theorem not_comparable_crossing :
    ¬ ((∀ seqNum : SeqNum, seqNum ≠ 0 → ∀ k, 1 ≤ k → k ≤ 0x7eff → Comparable seqNum k) ∧
      ∀ (seqNum : SeqNum), seqNum ≠ 0 → ∀ (dest : IPAddress) (events : List (TableEvent dest)),
        AlwaysAccepts ⟨seqNum, []⟩ events) := by
  intro h
  have hbad : ¬ Comparable 0x7fff 1 := by decide
  exact hbad (h.1 0x7fff (by decide) 1 (by decide) (by decide))

end InetManet.DYMO
