import InetManet.OSPF.SummaryOrigination

/-!
# What the summaries say

A summary describes a network that the area does not reach itself, with its address, mask and cost. The
summaries are right only while there is no network to describe: an LSA of a network is never originated
again, because the comparison that looks for the network is not the one that was meant. Link state IDs
are made from addresses by extending the sign, which is kept by the bit operations on them.
-/

namespace InetManet.OSPF.Routing

section

variable {router : Router} {area : Area} {oldRoutingTable : List RoutingTableEntry}
  {s : SummaryDatabase} {entry : RoutingTableEntry} {lsa : SummaryLSA} {Q : SummaryLSA → Prop}

/-! ## The rule -/

/-- A network that the area does not reach itself, and which is new or has changed. -/
structure MustDescribe (router : Router) (area : Area) (oldRoutingTable : List RoutingTableEntry)
    (entry : RoutingTableEntry) : Prop where
  mem : entry ∈ router.routingTable
  network : entry.destinationType = networkDestination
  internal : entry.pathType = .intraArea ∨ entry.pathType = .interArea
  otherArea : entry.area ≠ area.areaID
  hops : ∃ hop ∈ entry.nextHops, ∃ areaID,
    router.nonVirtualInterfaceArea hop.ifIndex = some areaID ∧ areaID ≠ area.areaID
  cost : entry.cost < lsInfinity
  changed : isChanged oldRoutingTable entry = true

/-- An intra-area network that lies in a configured range, which is not ignored. -/
def HasRange (router : Router) (area : Area) (entry : RoutingTableEntry) : Prop :=
  entry.pathType = .intraArea ∧ ¬ (entry.area = backboneAreaID ∧ area.transitCapability = true) ∧
    (router.getContainingAddressRange ⟨entry.destinationID, entry.addressMask⟩).1 ≠ nullIPv4AddressRange

/-- The network or the range as which it is described, if the range is advertised. -/
def IsDescribedAs (router : Router) (area : Area) (entry : RoutingTableEntry) (d : IPv4AddressRange) : Prop :=
  (¬ HasRange router area entry ∧ d = ⟨entry.destinationID, entry.addressMask⟩) ∨
    (HasRange router area entry ∧
      router.getContainingAddressRange ⟨entry.destinationID, entry.addressMask⟩ = (d, true))

/-- The LSA describes the destination. -/
def SummaryLSA.Describes (lsa : SummaryLSA) (d : IPv4AddressRange) : Prop :=
  lsa.lsType = .summaryNetworks ∧ lsa.networkMask = d.mask ∧
    lsa.linkStateID.setWidth 32 &&& d.mask = d.address &&& d.mask

/-- The intra-area networks that lie in the range. -/
def InRange (range : IPv4AddressRange) (entry : RoutingTableEntry) : Prop :=
  entry.destinationType = networkDestination ∧ entry.pathType = .intraArea ∧
    entry.destinationID &&& entry.addressMask &&& range.mask = range.address &&& range.mask

structure DescribesTable (router : Router) (area : Area) (oldRoutingTable : List RoutingTableEntry)
    (summaryLSAs : List SummaryLSA) : Prop where
  carried : ∀ entry d, MustDescribe router area oldRoutingTable entry →
    IsDescribedAs router area entry d → ∃ lsa ∈ summaryLSAs, lsa.Describes d
  distinct : ∀ lsa ∈ summaryLSAs, ∀ lsa' ∈ summaryLSAs, ∀ d d', lsa.Describes d → lsa'.Describes d' →
    lsa.linkStateID = lsa'.linkStateID → d.mask = d'.mask ∧ d.address &&& d.mask = d'.address &&& d'.mask
  small : ∀ lsa ∈ summaryLSAs, lsa.lsType = .summaryNetworks → lsa.linkStateID.toNat < 2 ^ 32
  ranges : ∀ entry d, MustDescribe router area oldRoutingTable entry → HasRange router area entry →
    IsDescribedAs router area entry d → ∃ lsa ∈ summaryLSAs, lsa.Describes d ∧
      (∀ lsa' ∈ summaryLSAs, lsa'.Describes d → lsa' = lsa) ∧
      (∃ e ∈ router.routingTable, InRange d e ∧ lsa.routeCost = e.cost) ∧
      ∀ e ∈ router.routingTable, InRange d e → e.cost ≤ lsa.routeCost
  again : ∀ lsa ∈ summaryLSAs, lsa.lsType = .summaryNetworks →
    ∃ lsa', originateSummaryLSAAgain router area summaryLSAs lsa = some lsa' ∧
      lsa'.Describes ⟨lsa.linkStateID.setWidth 32, lsa.networkMask⟩

/-! ## What a round installs -/

/-- What holds of all LSAs of the database. -/
def All (Q : SummaryLSA → Prop) (s : SummaryDatabase) : Prop := ∀ lsa ∈ s.summaryLSAs, Q lsa

/-- `Q` depends on the type and the ID only. -/
def OfHeader (Q : SummaryLSA → Prop) : Prop :=
  ∀ lsa lsa' : SummaryLSA, lsa'.lsType = lsa.lsType → lsa'.linkStateID = lsa.linkStateID → Q lsa → Q lsa'

/-- What holds of all LSAs that are to be installed. -/
def Origination.AllNew (Q : SummaryLSA → Prop) (o : Origination) : Prop :=
  (∀ lsa, o.newLSA = some lsa → Q lsa) ∧ ∀ lsa, o.lsaToReoriginate = some lsa → Q lsa

theorem allNew_nothing : nothing.AllNew Q := ⟨nofun, nofun⟩

theorem findSummaryLSA_mem {summaryLSAs : List SummaryLSA} {key : SummaryKey}
    (h : findSummaryLSA summaryLSAs key = some lsa) : lsa ∈ summaryLSAs :=
  List.mem_of_find?_eq_some h

theorem All.originate (h : All Q s) (hlsa : Q lsa) : All Q (s.originate router lsa) := by
  intro x hx
  unfold SummaryDatabase.originate installSummaryLSA at hx
  dsimp only at hx
  split at hx
  · obtain ⟨y, hy, rfl⟩ := List.mem_map.mp hx
    split
    · exact hlsa
    · exact h y hy
  · rcases List.mem_append.mp hx with hx | hx
    · exact h x hx
    · rw [List.mem_singleton.mp hx]
      exact hlsa

theorem All.modify (h : All Q s) {key : SummaryKey} {f : SummaryLSA → SummaryLSA}
    (hf : ∀ lsa, Q lsa → Q (f lsa)) : All Q (s.modify key f) := by
  intro x hx
  obtain ⟨y, hy, rfl⟩ := List.mem_map.mp hx
  split
  · exact hf y (h y hy)
  · exact h y hy

theorem All.reduce (h : All Q s) (hQ : OfHeader Q) {range : IPv4AddressRange} {cost : ℕ} :
    All Q (s.reduce router range cost) := by
  unfold SummaryDatabase.reduce
  dsimp only
  split
  · split
    · exact h.modify fun lsa ↦ hQ _ _ rfl rfl
    · split
      · exact h
      · exact h.modify fun lsa ↦ hQ _ _ rfl rfl
  · exact h

theorem All.notifyAboutEntry (h : All Q s) (hQ : OfHeader Q)
    (horigination : isChanged oldRoutingTable entry = true →
      (originateSummaryLSA router area s entry).AllNew Q) :
    All Q (notifyAboutEntry router area oldRoutingTable s entry) := by
  unfold InetManet.OSPF.Routing.notifyAboutEntry
  cases hchanged : isChanged oldRoutingTable entry with
  | false => exact h
  | true =>
    obtain ⟨hnew, hreoriginate⟩ := horigination hchanged
    generalize originateSummaryLSA router area s entry = o at hnew hreoriginate ⊢
    obtain ⟨newLSA, lsaToReoriginate⟩ := o
    simp only [Bool.not_true, Bool.false_eq_true, if_false]
    cases newLSA with
    | some lsa =>
      apply All.originate _ (hnew lsa rfl)
      cases lsaToReoriginate with
      | some lsa' => exact h.originate (hreoriginate lsa' rfl)
      | none => exact h
    | none =>
      dsimp only
      split
      · exact h
      · split
        · exact h.reduce hQ
        · exact h

theorem All.notifyAboutOldEntry (h : All Q s) (hQ : OfHeader Q) :
    All Q (notifyAboutOldEntry router s entry) := by
  unfold InetManet.OSPF.Routing.notifyAboutOldEntry
  split
  · exact h
  · dsimp only
    split
    · exact h.reduce hQ
    · exact h

/-- What holds of all LSAs that are originated holds of all LSAs. -/
theorem all_notifyArea (hQ : OfHeader Q)
    (horigination : ∀ s, All Q s → ∀ entry ∈ router.routingTable, isChanged oldRoutingTable entry = true →
      (originateSummaryLSA router area s entry).AllNew Q) :
    ∀ lsa ∈ notifyArea router area oldRoutingTable [], Q lsa := by
  have hfirst : ∀ (l : List RoutingTableEntry) (s : SummaryDatabase), (∀ e ∈ l, e ∈ router.routingTable) →
      All Q s → All Q (l.foldl (notifyAboutEntry router area oldRoutingTable) s) := by
    intro l
    induction l with
    | nil => exact fun _ _ h ↦ h
    | cons e l ih =>
      intro s hl hs
      apply ih _ fun x hx ↦ hl x (List.mem_cons_of_mem e hx)
      exact hs.notifyAboutEntry hQ (horigination s hs e (hl e List.mem_cons_self))
  have hsecond : ∀ (l : List RoutingTableEntry) (s : SummaryDatabase), All Q s →
      All Q (l.foldl (notifyAboutOldEntry router) s) := by
    intro l
    induction l with
    | nil => exact fun _ h ↦ h
    | cons e l ih => exact fun s hs ↦ ih _ (hs.notifyAboutOldEntry hQ)
  exact hsecond _ _ (hfirst _ ⟨[], [], []⟩ (fun _ he ↦ he) nofun)

/-! ## Link state IDs -/

/-- The upper bits are equal. -/
def SignExtended (w : BitVec 64) : Prop := ∀ i, 31 ≤ i → i < 64 → w.getLsbD i = w.getLsbD 31

theorem signExtended_uLong (a : IPAddress) : SignExtended (uLongFromIPv4Address a) := by
  intro i hle hlt
  unfold uLongFromIPv4Address
  simp only [BitVec.getLsbD_signExtend, hlt, decide_true, Bool.true_and]
  rcases Nat.eq_or_lt_of_le hle with rfl | hgt
  · rfl
  · have hnot : ¬ i < 32 := by omega
    simp [hnot, BitVec.msb_eq_getLsbD_last]

theorem SignExtended.or {v w : BitVec 64} (hv : SignExtended v) (hw : SignExtended w) :
    SignExtended (v ||| w) := by
  intro i hle hlt
  rw [BitVec.getLsbD_or, BitVec.getLsbD_or, hv i hle hlt, hw i hle hlt]

theorem SignExtended.not {w : BitVec 64} (hw : SignExtended w) : SignExtended (~~~w) := by
  intro i hle hlt
  rw [BitVec.getLsbD_not, BitVec.getLsbD_not, hw i hle hlt]
  simp [hlt]

/-- The ID of an LSA that describes a network. -/
def IDExtended (lsa : SummaryLSA) : Prop := lsa.lsType = .summaryNetworks → SignExtended lsa.linkStateID

theorem idExtended_ofHeader : OfHeader IDExtended := by
  intro lsa lsa' htype hid h hnetwork
  rw [hid]
  exact h (htype ▸ hnetwork)

theorem signExtended_unique (summaryLSAs : List SummaryLSA) (destination : IPv4AddressRange) (cost : ℕ) :
    SignExtended (getUniqueLinkStateID router summaryLSAs destination cost).linkStateID := by
  unfold getUniqueLinkStateID
  dsimp only
  split
  · exact signExtended_uLong _
  · split
    · exact signExtended_uLong _
    · split
      · exact (signExtended_uLong _).or (signExtended_uLong _).not
      · exact (signExtended_uLong _).or (signExtended_uLong _).not

theorem reoriginated_mem {summaryLSAs : List SummaryLSA} {destination : IPv4AddressRange} {cost : ℕ}
    (h : (getUniqueLinkStateID router summaryLSAs destination cost).lsaToReoriginate = some lsa) :
    ∃ found ∈ summaryLSAs, lsa.lsType = found.lsType ∧ lsa.linkStateID = found.linkStateID := by
  unfold getUniqueLinkStateID at h
  dsimp only at h
  split at h
  · cases h
  · rename_i found hfound
    split at h
    · cases h
    · split at h
      · cases h
      · cases h
        exact ⟨found, findSummaryLSA_mem hfound, rfl, rfl⟩

theorem allNew_moveSummaryLSA {destination : IPv4AddressRange} {cost : ℕ} (h : All IDExtended s) :
    (moveSummaryLSA router s.summaryLSAs entry
      (getUniqueLinkStateID router s.summaryLSAs destination cost)).AllNew IDExtended := by
  unfold moveSummaryLSA
  split
  · exact allNew_nothing
  · constructor
    · intro lsa hlsa _
      cases hlsa
      exact signExtended_unique _ _ _
    · intro lsa hlsa
      obtain ⟨found, hmem, htype, hid⟩ := reoriginated_mem hlsa
      exact idExtended_ofHeader found lsa htype hid (h found hmem)

theorem allNew_newSummaryLSA {destination : IPv4AddressRange} {cost : ℕ} :
    Origination.AllNew IDExtended ⟨some (newSummaryLSA router area .summaryNetworks
      (getUniqueLinkStateID router s.summaryLSAs destination cost).linkStateID entry), none⟩ := by
  constructor
  · intro lsa hlsa _
    cases hlsa
    exact signExtended_unique _ _ _
  · nofun

theorem allNew_originateForNetwork (h : All IDExtended s) :
    (originateForNetwork router area s.summaryLSAs entry).AllNew IDExtended := by
  unfold originateForNetwork
  dsimp only
  split
  · exact allNew_moveSummaryLSA h
  · exact allNew_newSummaryLSA

theorem allNew_originateSummaryLSA (h : All IDExtended s) :
    (originateSummaryLSA router area s entry).AllNew IDExtended := by
  unfold originateSummaryLSA
  split
  · exact allNew_nothing
  · split
    · exact allNew_nothing
    · split
      · split
        · split
          · constructor
            · intro lsa hlsa hnetwork
              cases hlsa
              cases hnetwork
            · nofun
          · exact allNew_nothing
        · exact allNew_nothing
      · split
        · exact allNew_originateForNetwork h
        · dsimp only
          split
          · exact allNew_originateForNetwork h
          · split
            · unfold originateForRange
              dsimp only
              split
              · split
                · exact allNew_nothing
                · exact allNew_moveSummaryLSA h
              · split
                · exact allNew_nothing
                · exact allNew_newSummaryLSA
            · exact allNew_nothing

/-- No entry of the table is found again from an LSA that describes a network. -/
theorem describesNetwork_eq_false (hid : SignExtended lsa.linkStateID) (hmask : Contiguous entry.addressMask) :
    describesNetwork lsa entry = false := by
  by_contra hdescribes
  rw [Bool.not_eq_false] at hdescribes
  simp only [describesNetwork, Bool.and_eq_true, beq_iff_eq, bne_iff_ne] at hdescribes
  obtain ⟨⟨-, hsame⟩, hne⟩ := hdescribes
  rw [← hsame] at hne
  split at hne
  · rename_i hequal
    obtain ⟨n, hn, hnetmask⟩ := hmask
    rw [hnetmask] at hequal hne
    rcases Nat.eq_or_lt_of_le hn with rfl | hlt
    · have hbits := hid 32 (by decide) (by decide)
      rw [← hequal] at hbits
      revert hbits
      decide
    · apply hne
      have hzero : ∀ n < 32, (1 : BitVec 64) &&& (netmask n).setWidth 64 = 0 := by decide +kernel
      rw [BitVec.and_assoc, hzero n hlt]
      exact BitVec.and_zero
  · apply hne
    have hzero : entry.destinationID.setWidth 64 &&& (0 : BitVec 64) = 0 := BitVec.and_zero
    rw [hzero]
    exact BitVec.zero_and

theorem originateSummaryLSAAgain_eq_none (hmask : ∀ e ∈ router.routingTable, Contiguous e.addressMask)
    (htype : lsa.lsType = .summaryNetworks) (hid : SignExtended lsa.linkStateID)
    (summaryLSAs : List SummaryLSA) : originateSummaryLSAAgain router area summaryLSAs lsa = none := by
  have hnone : (router.routingTable.find? fun entry ↦
      lsa.lsType == .summaryASBoundaryRouters && describesRouter lsa entry ||
        lsa.lsType == .summaryNetworks && describesNetwork lsa entry) = none := by
    rw [List.find?_eq_none]
    intro e he
    rw [htype, describesNetwork_eq_false hid (hmask e he)]
    simp
  rw [originateSummaryLSAAgain, hnone]

/-! ## Nothing to describe -/

theorem mustDescribe_of_guards (hmem : entry ∈ router.routingTable)
    (hchanged : isChanged oldRoutingTable entry = true)
    (hguard : ¬ (entry.destinationType.areaBorderRouter || entry.pathType == .type1External ||
      entry.pathType == .type2External || entry.area == area.areaID) = true)
    (hhops : ¬ (allNextHopsInThisArea router area entry || decide (lsInfinity ≤ entry.cost)) = true)
    (hboundary : ¬ entry.destinationType.asBoundaryRouter = true) :
    MustDescribe router area oldRoutingTable entry := by
  simp only [Bool.or_eq_true, beq_iff_eq, not_or, Bool.not_eq_true] at hguard
  obtain ⟨⟨⟨hborder, htype1⟩, htype2⟩, hotherArea⟩ := hguard
  have hnetwork : entry.destinationType = networkDestination := by
    rw [Bool.not_eq_true] at hboundary
    cases hdestination : entry.destinationType
    rw [hdestination] at hborder hboundary
    cases hborder
    cases hboundary
    rfl
  have hinternal : entry.pathType = .intraArea ∨ entry.pathType = .interArea := by
    cases hpath : entry.pathType with
    | intraArea => exact .inl rfl
    | interArea => exact .inr rfl
    | type1External => exact absurd hpath htype1
    | type2External => exact absurd hpath htype2
  simp only [Bool.or_eq_true, decide_eq_true_eq, not_or, not_le] at hhops
  have hsome : ∃ hop ∈ entry.nextHops, ∃ areaID,
      router.nonVirtualInterfaceArea hop.ifIndex = some areaID ∧ areaID ≠ area.areaID := by
    have hnot := hhops.1
    simp only [allNextHopsInThisArea, List.all_eq_true, not_forall] at hnot
    obtain ⟨hop, hhop, hother⟩ := hnot
    refine ⟨hop, hhop, ?_⟩
    split at hother
    · rename_i areaID hintf
      exact ⟨areaID, hintf, by simpa using hother⟩
    · exact absurd rfl hother
  exact ⟨hmem, hnetwork, hinternal, hotherArea, hsome, hhops.2, hchanged⟩

theorem allNew_of_nothing_to_describe (hmem : entry ∈ router.routingTable)
    (hchanged : isChanged oldRoutingTable entry = true)
    (hnone : MustDescribe router area oldRoutingTable entry → ∀ d, ¬ IsDescribedAs router area entry d) :
    (originateSummaryLSA router area s entry).AllNew (·.lsType ≠ .summaryNetworks) := by
  unfold originateSummaryLSA
  split
  · exact allNew_nothing
  · rename_i hguard
    split
    · exact allNew_nothing
    · rename_i hhops
      split
      · split
        · split
          · constructor
            · intro lsa hlsa
              cases hlsa
              nofun
            · nofun
          · exact allNew_nothing
        · exact allNew_nothing
      · rename_i hboundary
        have hno := hnone (mustDescribe_of_guards hmem hchanged hguard hhops hboundary)
        have hranged : HasRange router area entry := by
          by_contra hnot
          exact hno _ (.inl ⟨hnot, rfl⟩)
        have hrange := hranged
        obtain ⟨hintra, hignored, hcontaining⟩ := hrange
        rw [if_neg (by rw [hintra]; nofun)]
        cases hfound : router.getContainingAddressRange ⟨entry.destinationID, entry.addressMask⟩ with
        | mk range doAdvertise =>
          rw [hfound] at hcontaining
          dsimp only
          rw [if_neg]
          · cases doAdvertise with
            | true => exact absurd (.inr ⟨hranged, hfound⟩) (hno range)
            | false => exact allNew_nothing
          · simp only [Bool.or_eq_true, Bool.and_eq_true, beq_iff_eq, not_or]
            exact ⟨hignored, hcontaining⟩

/-- With something to describe the rule is broken, since its LSA is not originated again. -/
theorem nothing_to_describe_of_describesTable
    (hmask : ∀ e ∈ router.routingTable, Contiguous e.addressMask)
    (h : ∀ p ∈ router.notifyAboutRoutingTableChanges oldRoutingTable,
      DescribesTable router p.1 oldRoutingTable p.2) :
    ∀ area ∈ router.areas, ∀ entry, MustDescribe router area oldRoutingTable entry →
      ∀ d, ¬ IsDescribedAs router area entry d := by
  intro area harea entry hmust d hd
  have hrule := h _ (List.mem_map_of_mem harea)
  dsimp only at hrule
  obtain ⟨lsa, hlsa, hdescribes⟩ := hrule.carried entry d hmust hd
  obtain ⟨lsa', hagain, -⟩ := hrule.again lsa hlsa hdescribes.1
  have hid : IDExtended lsa := by
    split at hlsa
    · cases hlsa
    · exact all_notifyArea idExtended_ofHeader (fun _ hs _ _ _ ↦ allNew_originateSummaryLSA hs) lsa hlsa
  rw [originateSummaryLSAAgain_eq_none hmask hdescribes.1 (hid hdescribes.1)] at hagain
  cases hagain

/-- For tables with contiguous masks the summaries follow the rule if and only if there is nothing to
describe. -/
theorem summaries_describe_iff (router : Router) (oldRoutingTable : List RoutingTableEntry)
    (hmask : ∀ e ∈ router.routingTable, Contiguous e.addressMask) :
    (∀ p ∈ router.notifyAboutRoutingTableChanges oldRoutingTable,
      DescribesTable router p.1 oldRoutingTable p.2) ↔
    ∀ area ∈ router.areas, ∀ entry, MustDescribe router area oldRoutingTable entry →
      ∀ d, ¬ IsDescribedAs router area entry d := by
  constructor
  · exact nothing_to_describe_of_describesTable hmask
  · intro hnone p hp
    obtain ⟨area, harea, rfl⟩ := List.mem_map.mp hp
    dsimp only
    have hnetwork : ∀ lsa ∈ (if router.areas.length ≤ 1 then [] else
        notifyArea router area oldRoutingTable []), lsa.lsType ≠ .summaryNetworks := by
      split
      · nofun
      · apply all_notifyArea (Q := (·.lsType ≠ .summaryNetworks))
        · intro lsa lsa' htype _ hne
          rw [htype]
          exact hne
        · intro s _ entry hentry hchanged
          exact allNew_of_nothing_to_describe hentry hchanged (hnone area harea entry)
    constructor
    · intro entry d hmust hd
      exact absurd hd (hnone area harea entry hmust d)
    · intro lsa hlsa lsa' _ d d' hdescribes
      exact absurd hdescribes.1 (hnetwork lsa hlsa)
    · intro lsa hlsa htype
      exact absurd htype (hnetwork lsa hlsa)
    · intro entry d hmust _ hd
      exact absurd hd (hnone area harea entry hmust d)
    · intro lsa hlsa htype
      exact absurd htype (hnetwork lsa hlsa)

/-- A router with one interface in the backbone and one in area 1. -/
def borderRouter (routingTable : List RoutingTableEntry) : Router where
  routerID := 0x0A000001
  rfc1583Compatibility := false
  areas := [⟨⟨0, []⟩, false, true, [⟨1, false⟩], []⟩, ⟨⟨1, []⟩, false, true, [⟨2, false⟩], []⟩]
  routingTable := routingTable

/-- 10.1.0.0/16, reached by the interface in area 1. -/
def networkOfArea (pathType : RoutingPathType) : RoutingTableEntry where
  destinationType := networkDestination
  destinationID := 0x0A010000
  addressMask := 0xFFFF0000
  optionalCapabilities := 0
  area := 1
  pathType := pathType
  cost := 1
  type2Cost := 0
  linkStateOrigin := none
  nextHops := [⟨2, 0x0A010002, 0⟩]

theorem contiguous_borderRouter (pathType : RoutingPathType) :
    ∀ e ∈ (borderRouter [networkOfArea pathType]).routingTable, Contiguous e.addressMask := by
  intro e he
  rw [List.mem_singleton.mp he]
  exact ⟨16, by decide, (by decide : (0xFFFF0000 : IPAddress) = netmask 16)⟩

theorem external_route_not_described :
    (borderRouter [networkOfArea .type1External]).routingTable ≠ [] ∧
    ∀ p ∈ (borderRouter [networkOfArea .type1External]).notifyAboutRoutingTableChanges [],
      DescribesTable (borderRouter [networkOfArea .type1External]) p.1 [] p.2 := by
  refine ⟨List.cons_ne_nil _ _, ?_⟩
  apply (summaries_describe_iff (borderRouter [networkOfArea .type1External]) []
    (contiguous_borderRouter _)).mpr
  intro area _ entry hmust
  have hinternal := hmust.internal
  rw [List.mem_singleton.mp hmust.mem] at hinternal
  rcases hinternal with hpath | hpath <;> cases hpath

/-- The backbone gets an LSA for 10.1.0.0/16, which is not originated again. -/
theorem network_described_once :
    ((borderRouter [networkOfArea .intraArea]).notifyAboutRoutingTableChanges []).map
      (fun p ↦ p.2.map fun lsa ↦ (lsa.linkStateID, lsa.networkMask,
        (originateSummaryLSAAgain (borderRouter [networkOfArea .intraArea]) p.1 p.2 lsa).isSome)) =
      [[(0x0A010000, 0xFFFF0000, false)], []] ∧
    ¬ ∀ p ∈ (borderRouter [networkOfArea .intraArea]).notifyAboutRoutingTableChanges [],
      DescribesTable (borderRouter [networkOfArea .intraArea]) p.1 [] p.2 := by
  refine ⟨by decide, ?_⟩
  intro h
  apply nothing_to_describe_of_describesTable (contiguous_borderRouter _) h _ List.mem_cons_self
    (networkOfArea .intraArea) _ _ (.inl ⟨_, rfl⟩)
  · exact ⟨List.mem_cons_self, rfl, .inl rfl, by decide, ⟨_, List.mem_cons_self, 1, by decide, by decide⟩,
      by decide, by decide⟩
  · rintro ⟨-, -, hrange⟩
    exact hrange (by decide)

end

end InetManet.OSPF.Routing
