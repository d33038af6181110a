import InetManet.Library.Best
import InetManet.OSPF.LinkState

/-!
# Lookup in the routing table of a router

Among the network entries that match a destination the lookup takes the one with the largest masked
destination. Configured address ranges that contain an intra-area network stand for discard entries. The
longest match is the rule the lookup is compared with.
-/

namespace InetManet.OSPF.Routing

abbrev AreaID := ℕ

inductive RoutingPathType
  | intraArea
  | interArea
  | type1External
  | type2External
  deriving DecidableEq

/-- A bit field. The destination is a network if no bit is set. -/
structure RoutingDestinationType where
  areaBorderRouter : Bool
  asBoundaryRouter : Bool
  deriving DecidableEq

def networkDestination : RoutingDestinationType := ⟨false, false⟩

structure NextHop where
  ifIndex : BitVec 8
  hopAddress : IPAddress
  advertisingRouter : IPAddress
  deriving DecidableEq

structure ASExternalLSAContents where
  networkMask : IPAddress
  e_ExternalMetricType : Bool
  routeCost : ℕ
  forwardingAddress : IPAddress
  deriving DecidableEq

/-- What is read of the LSA that an entry was made from. -/
structure OriginLSA where
  lsAge : ℕ
  advertisingRouter : IPAddress
  asExternal : Option ASExternalLSAContents
  deriving DecidableEq

structure RoutingTableEntry where
  destinationType : RoutingDestinationType
  destinationID : IPAddress
  addressMask : IPAddress
  optionalCapabilities : BitVec 8
  area : AreaID
  pathType : RoutingPathType
  cost : ℕ
  type2Cost : ℕ
  linkStateOrigin : Option OriginLSA
  nextHops : List NextHop
  deriving DecidableEq

structure IPv4AddressRange where
  address : IPAddress
  mask : IPAddress
  deriving DecidableEq

/-- The part of an area that is configured. -/
structure AreaRanges where
  areaID : AreaID
  areaAddressRanges : List IPv4AddressRange

/-- The bytes are added as integers, so that the sign is extended to an unsigned long. -/
def uLongFromIPv4Address (byteForm : IPAddress) : BitVec 64 := byteForm.signExtend 64

namespace RoutingTableEntry

def isNetwork (entry : RoutingTableEntry) : Bool := entry.destinationType == networkDestination

def isMatch (dest : IPAddress) (entry : RoutingTableEntry) : Bool :=
  entry.destinationID &&& entry.addressMask == dest &&& entry.addressMask

/-- What the lookup compares. -/
def masked (dest : IPAddress) (entry : RoutingTableEntry) : ℕ := (dest &&& entry.addressMask).toNat

/-- The network lies in the range, which is therefore active. -/
def activates (range : IPv4AddressRange) (entry : RoutingTableEntry) : Bool :=
  entry.isNetwork &&
    ((entry.destinationID &&& entry.addressMask).setWidth 64 &&& uLongFromIPv4Address range.mask ==
        uLongFromIPv4Address (range.address &&& range.mask) &&
      entry.pathType == .intraArea)

end RoutingTableEntry

def discardEntry (area : AreaRanges) (range : IPv4AddressRange) : RoutingTableEntry where
  destinationType := networkDestination
  destinationID := (uLongFromIPv4Address range.address).setWidth 32
  addressMask := (uLongFromIPv4Address range.mask).setWidth 32
  optionalCapabilities := 0
  area := area.areaID
  pathType := .interArea
  cost := 0
  type2Cost := 0
  linkStateOrigin := none
  nextHops := []

/-- One discard entry for each active range. -/
def discardEntries (areas : List AreaRanges) (rTable : List RoutingTableEntry) :
    List RoutingTableEntry :=
  areas.flatMap fun area ↦ area.areaAddressRanges.filterMap fun range ↦
    if rTable.any (·.activates range) then some (discardEntry area range) else none

/-- The loop over the table, with `bestMatch` and `longestMatch`. -/
def considerMatch (dest : IPAddress) (s : Option RoutingTableEntry × ℕ) (entry : RoutingTableEntry) :
    Option RoutingTableEntry × ℕ :=
  if entry.isNetwork then
    if entry.isMatch dest then
      if s.2 < entry.masked dest then (some entry, entry.masked dest) else s
    else s
  else s

def lookup (areas : List AreaRanges) (rTable : List RoutingTableEntry) (dest : IPAddress) :
    Option RoutingTableEntry :=
  let (bestMatch, longestMatch) := rTable.foldl (considerMatch dest) (none, 0)
  match bestMatch with
  | none => none
  | some entry =>
    if (discardEntries areas rTable).any fun discard ↦
        discard.isMatch dest && longestMatch < discard.masked dest then none
    else some entry

/-! ## The longest match -/

/-- The number of bits that are set. -/
def maskLength (mask : IPAddress) : ℕ := ((List.range 32).filter (mask.getLsbD ·)).length

def netmask (length : ℕ) : IPAddress := BitVec.allOnes 32 <<< (32 - length)

def Contiguous (mask : IPAddress) : Prop := ∃ length ≤ 32, mask = netmask length

namespace IPv4AddressRange

def Covers (range : IPv4AddressRange) (dest : IPAddress) : Prop :=
  range.address &&& range.mask = dest &&& range.mask

def IsActive (range : IPv4AddressRange) (rTable : List RoutingTableEntry) : Prop :=
  ∃ entry ∈ rTable, entry.isNetwork = true ∧ entry.pathType = .intraArea ∧
    entry.destinationID &&& entry.addressMask &&& range.mask = range.address &&& range.mask

end IPv4AddressRange

/-- The network entries that match the destination. -/
def matching (rTable : List RoutingTableEntry) (dest : IPAddress) : List RoutingTableEntry :=
  rTable.filter fun entry ↦ entry.isNetwork && entry.isMatch dest

def IsLongest (l : List RoutingTableEntry) (entry : RoutingTableEntry) : Prop :=
  entry ∈ l ∧ ∀ other ∈ l, maskLength other.addressMask ≤ maskLength entry.addressMask

/-- An active range covers the destination, with a longer mask than all entries that match. -/
def Discarded (areas : List AreaRanges) (rTable : List RoutingTableEntry) (dest : IPAddress) : Prop :=
  ∃ area ∈ areas, ∃ range ∈ area.areaAddressRanges, range.IsActive rTable ∧ range.Covers dest ∧
    ∀ entry ∈ matching rTable dest, maskLength entry.addressMask < maskLength range.mask

def IsLongestMatch (areas : List AreaRanges) (rTable : List RoutingTableEntry) (dest : IPAddress)
    (result : Option RoutingTableEntry) : Prop :=
  (matching rTable dest = [] → result = none) ∧
    (matching rTable dest ≠ [] → (Discarded areas rTable dest → result = none) ∧
      (¬ Discarded areas rTable dest → ∃ entry, result = some entry ∧
        IsLongest (matching rTable dest) entry))

/-! ## The searches -/

section

variable {areas : List AreaRanges} {rTable : List RoutingTableEntry} {dest : IPAddress}
  {range : IPv4AddressRange} {entry : RoutingTableEntry}

/-- Nothing is as bad as a masked destination of zero. -/
def maskedOption (dest : IPAddress) : Option RoutingTableEntry → ℕ
  | none => 0
  | some entry => entry.masked dest

theorem foldl_considerMatch (rTable : List RoutingTableEntry) (dest : IPAddress) :
    rTable.foldl (considerMatch dest) (none, 0) =
      (best (maskedOption dest) none ((matching rTable dest).map some),
        maskedOption dest (best (maskedOption dest) none ((matching rTable dest).map some))) := by
  induction rTable using List.reverseRecOn with
  | nil => rfl
  | append_singleton l entry ih =>
    rw [List.foldl_append, List.foldl_cons, List.foldl_nil, ih]
    have hfilter : matching (l ++ [entry]) dest = matching l dest ++
        if entry.isNetwork && entry.isMatch dest then [entry] else [] := by
      rw [matching, List.filter_append, List.filter_cons, List.filter_nil]
      rfl
    rw [hfilter, considerMatch]
    cases entry.isNetwork <;> cases entry.isMatch dest
    all_goals simp only [Bool.and_true, Bool.and_false, Bool.false_eq_true, if_true, if_false,
      List.append_nil]
    rw [List.map_append, List.map_singleton, best_concat, better]
    split
    · rename_i hlt
      rw [if_pos (by exact hlt)]
      rfl
    · rename_i hle
      rw [if_neg (by exact hle)]

/-- Nothing is found if all masked destinations are zero. Otherwise the first entry with the largest one
is found. -/
theorem bestMatch_cases (rTable : List RoutingTableEntry) (dest : IPAddress) :
    ((rTable.foldl (considerMatch dest) (none, 0)).1 = none ∧
        ∀ x ∈ matching rTable dest, x.masked dest = 0) ∨
      ∃ before entry after, matching rTable dest = before ++ entry :: after ∧
        rTable.foldl (considerMatch dest) (none, 0) = (some entry, entry.masked dest) ∧
        0 < entry.masked dest ∧ (∀ x ∈ before, x.masked dest < entry.masked dest) ∧
        ∀ x ∈ after, x.masked dest ≤ entry.masked dest := by
  rw [foldl_considerMatch]
  rcases best_cases (maskedOption dest) none ((matching rTable dest).map some) with
    ⟨hnone, hzero⟩ | ⟨before, after, hsplit, hpositive, hbefore, hafter⟩
  · left
    refine ⟨hnone, ?_⟩
    intro x hx
    exact Nat.le_zero.mp (hzero (some x) (List.mem_map_of_mem hx))
  · right
    generalize best (maskedOption dest) none ((matching rTable dest).map some) = found
      at hsplit hpositive hbefore hafter ⊢
    obtain ⟨before, rest, heq, rfl, hrest⟩ := List.map_eq_append_iff.mp hsplit
    obtain ⟨entry, after, rfl, rfl, rfl⟩ := List.map_eq_cons_iff.mp hrest
    refine ⟨before, entry, after, heq, rfl, hpositive, ?_, ?_⟩
    · intro x hx
      exact hbefore (some x) (List.mem_map_of_mem hx)
    · intro x hx
      exact hafter (some x) (List.mem_map_of_mem hx)

theorem setWidth_uLongFromIPv4Address (a : IPAddress) : (uLongFromIPv4Address a).setWidth 32 = a := by
  ext i hi
  have hlt : i < 64 := by omega
  simp [uLongFromIPv4Address, BitVec.getElem_signExtend, hi, hlt]

/-- A discard entry with a larger masked destination covers the destination. -/
def Hidden (areas : List AreaRanges) (rTable : List RoutingTableEntry) (dest : IPAddress) : Prop :=
  ∃ area ∈ areas, ∃ range ∈ area.areaAddressRanges, rTable.any (·.activates range) = true ∧
    range.Covers dest ∧
    ∀ entry ∈ matching rTable dest, entry.masked dest < (dest &&& range.mask).toNat

theorem mem_discardEntries {discard : RoutingTableEntry} :
    discard ∈ discardEntries areas rTable ↔ ∃ area ∈ areas, ∃ range ∈ area.areaAddressRanges,
      rTable.any (·.activates range) = true ∧ discard = discardEntry area range := by
  simp only [discardEntries, List.mem_flatMap, List.mem_filterMap]
  constructor
  · rintro ⟨area, harea, range, hrange, hsome⟩
    split at hsome
    · rename_i hactive
      exact ⟨area, harea, range, hrange, hactive, (Option.some.inj hsome).symm⟩
    · cases hsome
  · rintro ⟨area, harea, range, hrange, hactive, rfl⟩
    exact ⟨area, harea, range, hrange, if_pos hactive⟩

theorem isMatch_discardEntry {area : AreaRanges} :
    (discardEntry area range).isMatch dest = true ↔ range.Covers dest := by
  simp only [RoutingTableEntry.isMatch, discardEntry, setWidth_uLongFromIPv4Address, beq_iff_eq,
    IPv4AddressRange.Covers]

theorem masked_discardEntry {area : AreaRanges} :
    (discardEntry area range).masked dest = (dest &&& range.mask).toNat := by
  simp only [RoutingTableEntry.masked, discardEntry, setWidth_uLongFromIPv4Address]

theorem any_discardEntries (hentry : entry ∈ matching rTable dest)
    (hmax : ∀ x ∈ matching rTable dest, x.masked dest ≤ entry.masked dest) :
    ((discardEntries areas rTable).any fun discard ↦
      discard.isMatch dest && entry.masked dest < discard.masked dest) = true ↔
      Hidden areas rTable dest := by
  rw [List.any_eq_true]
  simp only [Bool.and_eq_true, decide_eq_true_eq, mem_discardEntries]
  constructor
  · rintro ⟨_, ⟨area, harea, range, hrange, hactive, rfl⟩, hmatch, hlt⟩
    refine ⟨area, harea, range, hrange, hactive, isMatch_discardEntry.mp hmatch, ?_⟩
    intro x hx
    rw [masked_discardEntry] at hlt
    exact (hmax x hx).trans_lt hlt
  · rintro ⟨area, harea, range, hrange, hactive, hcovers, hall⟩
    refine ⟨_, ⟨area, harea, range, hrange, hactive, rfl⟩, isMatch_discardEntry.mpr hcovers, ?_⟩
    rw [masked_discardEntry]
    exact hall entry hentry

/-! ## Contiguous masks -/

theorem maskLength_netmask : ∀ length ≤ 32, maskLength (netmask length) = length := by
  decide +kernel

theorem netmask_and_netmask : ∀ length ≤ 32, ∀ longer ≤ 32, length ≤ longer →
    netmask longer &&& netmask length = netmask length := by
  decide +kernel

theorem masked_le {mask longer : IPAddress} (hmask : Contiguous mask) (hlonger : Contiguous longer)
    (hle : maskLength mask ≤ maskLength longer) (dest : IPAddress) :
    (dest &&& mask).toNat ≤ (dest &&& longer).toNat := by
  obtain ⟨n, hn, rfl⟩ := hmask
  obtain ⟨k, hk, rfl⟩ := hlonger
  rw [maskLength_netmask n hn, maskLength_netmask k hk] at hle
  have hand : dest &&& netmask n = (dest &&& netmask k) &&& netmask n := by
    rw [BitVec.and_assoc, netmask_and_netmask n hn k hk hle]
  rw [hand, BitVec.toNat_and]
  exact Nat.and_le_left

/-! ## When the longest match is found -/

/-- The longest entry is told from the others by the masked destination: it is not zero, and no entry
before has the same one. -/
def ToldApart (rTable : List RoutingTableEntry) (dest : IPAddress) : Prop :=
  ∃ before entry after, matching rTable dest = before ++ entry :: after ∧
    IsLongest (matching rTable dest) entry ∧ dest &&& entry.addressMask ≠ 0 ∧
    ∀ x ∈ before, dest &&& x.addressMask ≠ dest &&& entry.addressMask

/-- Nothing matches, or the destination is discarded and the masked destinations show it, or it is not
discarded and the longest entry is told apart and not hidden by a range. -/
def Decided (areas : List AreaRanges) (rTable : List RoutingTableEntry) (dest : IPAddress) : Prop :=
  matching rTable dest = [] ∨
    (Discarded areas rTable dest ∧ ((∀ entry ∈ matching rTable dest, dest &&& entry.addressMask = 0) ∨
      Hidden areas rTable dest)) ∨
    (¬ Discarded areas rTable dest ∧ ToldApart rTable dest ∧ ¬ Hidden areas rTable dest)

theorem masked_eq_zero : entry.masked dest = 0 ↔ dest &&& entry.addressMask = 0 := by
  rw [RoutingTableEntry.masked, ← BitVec.toNat_inj]
  rfl

theorem masked_eq_iff {other : RoutingTableEntry} : entry.masked dest = other.masked dest ↔
    dest &&& entry.addressMask = dest &&& other.addressMask :=
  BitVec.toNat_inj

/-- The first entry with the largest masked destination is the longest one if and only if the longest
one is told apart. -/
theorem isLongest_iff (hmask : ∀ e ∈ rTable, Contiguous e.addressMask)
    {before after : List RoutingTableEntry} (hsplit : matching rTable dest = before ++ entry :: after)
    (hpositive : 0 < entry.masked dest) (hbefore : ∀ x ∈ before, x.masked dest < entry.masked dest)
    (hmax : ∀ x ∈ matching rTable dest, x.masked dest ≤ entry.masked dest) :
    IsLongest (matching rTable dest) entry ↔ ToldApart rTable dest := by
  constructor
  · intro hlongest
    refine ⟨before, entry, after, hsplit, hlongest, ?_, ?_⟩
    · intro hzero
      exact hpositive.ne' (masked_eq_zero.mpr hzero)
    · intro x hx hsame
      exact (hbefore x hx).ne (masked_eq_iff.mpr hsame)
  · rintro ⟨before', longest, after', hsplit', hlongest, -, hapart⟩
    have hmem : entry ∈ matching rTable dest := by
      rw [hsplit]
      exact List.mem_append_right before List.mem_cons_self
    have hsame : longest.masked dest = entry.masked dest := by
      apply le_antisymm (hmax longest hlongest.1)
      exact masked_le (hmask entry (List.mem_of_mem_filter hmem))
        (hmask longest (List.mem_of_mem_filter hlongest.1)) (hlongest.2 entry hmem) dest
    rcases List.append_eq_append_iff.mp (hsplit.symm.trans hsplit') with
      ⟨rest, hlater, hrest⟩ | ⟨rest, hearlier, hrest⟩
    · cases rest with
      | nil =>
        rw [List.nil_append, List.cons.injEq] at hrest
        rw [hrest.1]
        exact hlongest
      | cons x rest =>
        obtain ⟨rfl, -⟩ := List.cons.inj hrest
        exfalso
        apply hapart entry _ (masked_eq_iff.mp hsame.symm)
        rw [hlater]
        exact List.mem_append_right before List.mem_cons_self
    · cases rest with
      | nil =>
        rw [List.nil_append, List.cons.injEq] at hrest
        rw [← hrest.1]
        exact hlongest
      | cons x rest =>
        obtain ⟨rfl, -⟩ := List.cons.inj hrest
        exfalso
        apply (hbefore longest _).ne hsame
        rw [hearlier]
        exact List.mem_append_right before' List.mem_cons_self

/-- With contiguous masks the lookup is the longest match if and only if the masked destinations
decide it. -/
theorem lookup_longest_match_iff (areas : List AreaRanges) (rTable : List RoutingTableEntry)
    (dest : IPAddress) (hmask : ∀ e ∈ rTable, Contiguous e.addressMask) :
    IsLongestMatch areas rTable dest (lookup areas rTable dest) ↔ Decided areas rTable dest := by
  unfold IsLongestMatch Decided lookup
  rcases bestMatch_cases rTable dest with ⟨hnone, hzero⟩ | ⟨before, entry, after, hsplit, hfound, hpositive,
    hbefore, hafter⟩
  · generalize rTable.foldl (considerMatch dest) (none, 0) = found at hnone ⊢
    obtain ⟨bestMatch, longestMatch⟩ := found
    obtain rfl : bestMatch = none := hnone
    have hall : ∀ e ∈ matching rTable dest, dest &&& e.addressMask = 0 :=
      fun e he ↦ masked_eq_zero.mp (hzero e he)
    have hnot : ToldApart rTable dest → False := by
      rintro ⟨_, longest, _, -, hlongest, hne, -⟩
      exact hne (hall longest hlongest.1)
    by_cases hempty : matching rTable dest = []
    · simp [hempty]
    · by_cases hdiscarded : Discarded areas rTable dest
      · simp only [hempty, hdiscarded, false_imp_iff, true_and, ne_eq, not_false_eq_true, true_imp_iff,
          not_true_eq_false, and_true, false_or, true_iff]
        exact .inl (.inl hall)
      · simp only [hempty, hdiscarded, false_imp_iff, true_and, ne_eq, not_false_eq_true, true_imp_iff,
          reduceCtorEq, false_and, exists_false, false_or, false_iff]
        exact fun h ↦ hnot h.1
  · rw [hfound]
    have hmem : entry ∈ matching rTable dest := by
      rw [hsplit]
      exact List.mem_append_right before List.mem_cons_self
    have hempty : matching rTable dest ≠ [] := List.ne_nil_of_mem hmem
    have hmax : ∀ x ∈ matching rTable dest, x.masked dest ≤ entry.masked dest := by
      intro x hx
      rw [hsplit, List.mem_append, List.mem_cons] at hx
      rcases hx with hx | rfl | hx
      · exact (hbefore x hx).le
      · exact le_refl _
      · exact hafter x hx
    have hnonzero : ¬ ∀ e ∈ matching rTable dest, dest &&& e.addressMask = 0 := by
      intro hall
      exact hpositive.ne' (masked_eq_zero.mpr (hall entry hmem))
    have hlongest := isLongest_iff hmask hsplit hpositive hbefore hmax
    have hdiscard := @any_discardEntries areas rTable dest entry hmem hmax
    by_cases hhidden : Hidden areas rTable dest
    · simp only [hdiscard.mpr hhidden, if_true, hempty, hhidden, hnonzero, true_and, ne_eq,
        not_false_eq_true, true_imp_iff, reduceCtorEq, false_and, exists_false, implies_true, or_true,
        and_true, not_true_eq_false, and_false, or_false, false_or]
      tauto
    · have hno := mt hdiscard.mp hhidden
      simp only [if_neg hno, hempty, hhidden, hnonzero, false_imp_iff, true_and, ne_eq, not_false_eq_true,
        true_imp_iff, reduceCtorEq, and_true, or_false, and_false, false_or, Option.some.injEq,
        exists_eq_left', hlongest]
      tauto

def networkEntry (destinationID addressMask : IPAddress) : RoutingTableEntry :=
  ⟨networkDestination, destinationID, addressMask, 0, 0, .intraArea, 1, 0, none, []⟩

/-- 10.1.2.3 is looked up where 10.0.0.0/8 is the only network. -/
theorem lookup_only_network : IsLongestMatch [] [networkEntry 0x0A000000 0xFF000000] 0x0A010203
    (lookup [] [networkEntry 0x0A000000 0xFF000000] 0x0A010203) := by
  apply (lookup_longest_match_iff [] [networkEntry 0x0A000000 0xFF000000] 0x0A010203 _).mpr
  · right
    right
    refine ⟨?_, ⟨[], networkEntry 0x0A000000 0xFF000000, [], by decide, ?_, by decide, ?_⟩, ?_⟩
    · rintro ⟨_, harea, -⟩
      cases harea
    · exact ⟨by decide, by decide⟩
    · intro x hx
      cases hx
    · rintro ⟨_, harea, -⟩
      cases harea
  · intro e he
    rw [List.mem_singleton.mp he]
    exact ⟨8, by decide, by decide⟩

/-- The default route is not found, and 10.0.0.0/8 hides 10.0.0.0/16. -/
theorem lookup_not_longest :
    ¬ IsLongestMatch [] [networkEntry 0 0] 0x0A000005 (lookup [] [networkEntry 0 0] 0x0A000005) ∧
    ¬ IsLongestMatch [] [networkEntry 0x0A000000 0xFF000000, networkEntry 0x0A000000 0xFFFF0000] 0x0A000005
      (lookup [] [networkEntry 0x0A000000 0xFF000000, networkEntry 0x0A000000 0xFFFF0000] 0x0A000005) := by
  constructor
  · rintro ⟨-, hmatch⟩
    obtain ⟨entry, hfound, -⟩ := (hmatch (by decide)).2 (by rintro ⟨_, harea, -⟩; cases harea)
    have hnone : lookup [] [networkEntry 0 0] 0x0A000005 = none := by decide
    rw [hnone] at hfound
    cases hfound
  · rintro ⟨-, hmatch⟩
    obtain ⟨entry, hfound, -, hlongest⟩ := (hmatch (by decide)).2 (by rintro ⟨_, harea, -⟩; cases harea)
    have hshort : lookup [] [networkEntry 0x0A000000 0xFF000000, networkEntry 0x0A000000 0xFFFF0000]
        0x0A000005 = some (networkEntry 0x0A000000 0xFF000000) := by decide
    rw [hshort] at hfound
    obtain rfl := Option.some.inj hfound
    exact absurd (hlongest (networkEntry 0x0A000000 0xFFFF0000) (by decide)) (by decide)

end

end InetManet.OSPF.Routing
