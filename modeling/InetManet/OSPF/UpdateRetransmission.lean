import InetManet.OSPF.LinkState

/-!
# Retransmission of link state updates

One update packet is filled from the retransmission list of a neighbor. The length that an LSA is
tested with is that of a packet with no other LSA in it, since the length is not increased as LSAs
are added. Thus the packet keeps below the MTU only if all LSAs that pass the test do so together.
-/

namespace InetManet.OSPF.Retransmission

def ipv4HeaderLength : ℕ := 60
def ipv4DatagramLength : ℕ := 65536
def ospfHeaderLength : ℕ := 24
def ospfLSAHeaderLength : ℕ := 20
def ospfRouterLSAHeaderLength : ℕ := 4
def ospfLinkHeaderLength : ℕ := 12
def ospfTOSLength : ℕ := 4
def ospfNetworkLSAMaskLength : ℕ := 4
def ospfNetworkLSAAddressLength : ℕ := 4
def ospfSummaryLSAHeaderLength : ℕ := 8
def ospfASExternalLSAHeaderLength : ℕ := 16
def ospfASExternalLSATOSInfoLength : ℕ := 12
def virtualLinkTTL : ℕ := 32

structure TOSData where
  tos : UInt8
  tosMetric : BitVec 24
  deriving DecidableEq

inductive LinkType
  | pointToPointLink
  | transitLink
  | stubLink
  | virtualLink
  deriving DecidableEq

structure Link where
  linkID : IPAddress
  linkData : ℕ
  type : LinkType
  numberOfTOS : UInt8
  linkCost : ℕ
  tosData : List TOSData
  deriving DecidableEq

structure RouterLSAContents where
  v_VirtualLinkEndpoint : Bool
  e_ASBoundaryRouter : Bool
  b_AreaBorderRouter : Bool
  numberOfLinks : UInt16
  links : List Link
  deriving DecidableEq

structure NetworkLSAContents where
  networkMask : IPAddress
  attachedRouters : List IPAddress
  deriving DecidableEq

structure SummaryLSAContents where
  networkMask : IPAddress
  routeCost : ℕ
  tosData : List TOSData
  deriving DecidableEq

structure ExternalTOSInfo where
  tosData : TOSData
  e_ExternalMetricType : Bool
  forwardingAddress : IPAddress
  externalRouteTag : ℤ
  deriving DecidableEq

structure ASExternalLSAContents where
  networkMask : IPAddress
  e_ExternalMetricType : Bool
  routeCost : ℕ
  forwardingAddress : IPAddress
  externalRouteTag : ℤ
  externalTOSInfo : List ExternalTOSInfo
  deriving DecidableEq

/-- The contents of an LSA, one constructor for each class of LSAs. -/
inductive Contents
  | router (contents : RouterLSAContents)
  | network (contents : NetworkLSAContents)
  | summary (contents : SummaryLSAContents)
  | asExternal (contents : ASExternalLSAContents)
  deriving DecidableEq

namespace Contents

/-- The class of an LSA is one for its type, as `AddToRetransmissionList` checks. -/
def IsOfType : Contents → LSAType → Prop
  | router _, t => t = .routerLSA
  | network _, t => t = .networkLSA
  | summary _, t => t = .summaryNetworks ∨ t = .summaryASBoundaryRouters
  | asExternal _, t => t = .asExternalLSA

/-- The lengths are unsigned integers of 32 bits, and the links are counted with 16. -/
def calculateLSASize : Contents → ℕ
  | router contents =>
    (contents.links.take (contents.links.length % 65536)).foldl (fun lsaLength link ↦
      (lsaLength + (ospfLinkHeaderLength + link.tosData.length * ospfTOSLength)) % 2 ^ 32)
      (ospfLSAHeaderLength + ospfRouterLSAHeaderLength)
  | network contents =>
    (ospfLSAHeaderLength + ospfNetworkLSAMaskLength +
      contents.attachedRouters.length * ospfNetworkLSAAddressLength) % 2 ^ 32
  | summary contents =>
    (ospfLSAHeaderLength + ospfSummaryLSAHeaderLength +
      contents.tosData.length * ospfTOSLength) % 2 ^ 32
  | asExternal contents =>
    (ospfLSAHeaderLength + ospfASExternalLSAHeaderLength +
      contents.externalTOSInfo.length * ospfASExternalLSATOSInfoLength) % 2 ^ 32

end Contents

/-- An LSA of the retransmission list. -/
structure ListedLSA extends LSA Contents where
  typed : contents.IsOfType header.lsType

namespace ListedLSA

def lsaSize (lsa : ListedLSA) : ℕ := lsa.contents.calculateLSASize

/-- The LSA with its age raised by the transmission delay, at most to `maxAge`. -/
def setLsAge (transmissionDelay : ℤ) (lsa : ListedLSA) : ListedLSA :=
  { lsa with
    header := { lsa.header with
      lsAge :=
        if (lsa.header.lsAge : ℤ) < maxAge - transmissionDelay then
          ((lsa.header.lsAge + transmissionDelay) % 65536).toNat
        else maxAge } }

def isRouterLSA (lsa : ListedLSA) : Bool := lsa.header.lsType == .routerLSA

def isNetworkLSA (lsa : ListedLSA) : Bool := lsa.header.lsType == .networkLSA

def isSummaryLSA (lsa : ListedLSA) : Bool :=
  lsa.header.lsType == .summaryNetworks || lsa.header.lsType == .summaryASBoundaryRouters

def isASExternalLSA (lsa : ListedLSA) : Bool := lsa.header.lsType == .asExternalLSA

end ListedLSA

/-- What the packet is given of the interface, its area and the router. -/
structure ParentInterface where
  routerID : IPAddress
  areaID : IPAddress
  authenticationType : ℕ
  authenticationKey : BitVec 64
  mtu : UInt16
  transmissionDelay : ℤ
  ifIndex : UInt8
  isVirtual : Bool

structure LinkStateUpdatePacket where
  routerID : IPAddress
  areaID : IPAddress
  authenticationType : ℕ
  authentication : BitVec 64
  routerLSAs : List ListedLSA
  networkLSAs : List ListedLSA
  summaryLSAs : List ListedLSA
  asExternalLSAs : List ListedLSA
  packetLength : ℕ
  checksum : ℕ

namespace LinkStateUpdatePacket

def lsas (p : LinkStateUpdatePacket) : List ListedLSA :=
  p.routerLSAs ++ p.networkLSAs ++ p.summaryLSAs ++ p.asExternalLSAs

/-- A copy of the LSA goes to the end of the array of its type. -/
def includeLSA (transmissionDelay : ℤ) (p : LinkStateUpdatePacket) (lsa : ListedLSA) :
    LinkStateUpdatePacket :=
  match lsa.header.lsType with
  | .routerLSA => { p with routerLSAs := p.routerLSAs ++ [lsa.setLsAge transmissionDelay] }
  | .networkLSA => { p with networkLSAs := p.networkLSAs ++ [lsa.setLsAge transmissionDelay] }
  | .summaryNetworks | .summaryASBoundaryRouters =>
    { p with summaryLSAs := p.summaryLSAs ++ [lsa.setLsAge transmissionDelay] }
  | .asExternalLSA =>
    { p with asExternalLSAs := p.asExternalLSAs ++ [lsa.setLsAge transmissionDelay] }

end LinkStateUpdatePacket

structure FillState where
  packetFull : Bool
  lsaCount : ℕ
  updatePacket : LinkStateUpdatePacket

/-- The length before any LSA; no LSA is added to it later. -/
def packetLength : ℕ := ipv4HeaderLength + ospfLSAHeaderLength

/-- The LSA alone passes the test against the MTU. -/
def fitsMTU (mtu : ℕ) (lsa : ListedLSA) : Bool := decide (packetLength + lsa.lsaSize < mtu)

/-- The LSA alone passes the test for the largest datagram. -/
def fitsDatagram (lsa : ListedLSA) : Bool :=
  decide (packetLength + lsa.lsaSize < ipv4DatagramLength)

namespace FillState

/-- One round of the loop. -/
def consider (i : ParentInterface) (s : FillState) (lsa : ListedLSA) : FillState :=
  if fitsMTU i.mtu.toNat lsa then
    { s with
      lsaCount := (s.lsaCount + 1) % 65536
      updatePacket := s.updatePacket.includeLSA i.transmissionDelay lsa }
  else if s.lsaCount = 0 ∧ fitsDatagram lsa then
    { packetFull := true
      lsaCount := (s.lsaCount + 1) % 65536
      updatePacket := s.updatePacket.includeLSA i.transmissionDelay lsa }
  else s

def fill (i : ParentInterface) : List ListedLSA → FillState → FillState
  | [], s => s
  | lsa :: rest, s => if s.packetFull then s else fill i rest (s.consider i lsa)

end FillState

/-- The packet before the loop. -/
def emptyPacket (i : ParentInterface) : LinkStateUpdatePacket where
  routerID := i.routerID
  areaID := i.areaID
  authenticationType := i.authenticationType
  authentication := i.authenticationKey
  routerLSAs := []
  networkLSAs := []
  summaryLSAs := []
  asExternalLSAs := []
  packetLength := 0
  checksum := 0

/-- The arguments of `SendPacket`. -/
structure Sent where
  packet : LinkStateUpdatePacket
  destination : IPAddress
  outputIfIndex : UInt8
  ttl : ℕ

def retransmitUpdatePacket (parentInterface : ParentInterface) (neighborIPAddress : IPAddress)
    (linkStateRetransmissionList : List ListedLSA) : Sent where
  packet :=
    (FillState.fill parentInterface linkStateRetransmissionList
      ⟨false, 0, emptyPacket parentInterface⟩).updatePacket
  destination := neighborIPAddress
  outputIfIndex := parentInterface.ifIndex
  ttl := if parentInterface.isVirtual then virtualLinkTTL else 1

/-! ## What is sent -/

/-- The arrays of the packet hold the given LSAs, in their order and with raised ages. -/
structure LinkStateUpdatePacket.Carries (transmissionDelay : ℤ) (p : LinkStateUpdatePacket)
    (sent : List ListedLSA) : Prop where
  routerLSAs : p.routerLSAs =
    (sent.filter ListedLSA.isRouterLSA).map (ListedLSA.setLsAge transmissionDelay)
  networkLSAs : p.networkLSAs =
    (sent.filter ListedLSA.isNetworkLSA).map (ListedLSA.setLsAge transmissionDelay)
  summaryLSAs : p.summaryLSAs =
    (sent.filter ListedLSA.isSummaryLSA).map (ListedLSA.setLsAge transmissionDelay)
  asExternalLSAs : p.asExternalLSAs =
    (sent.filter ListedLSA.isASExternalLSA).map (ListedLSA.setLsAge transmissionDelay)

/-- The length of the packet with its headers and LSAs. -/
def LinkStateUpdatePacket.totalLength (p : LinkStateUpdatePacket) : ℕ :=
  ipv4HeaderLength + ospfHeaderLength + (p.lsas.map ListedLSA.lsaSize).sum

/-- The packet carries a part of the list, with the first LSA if this fits a datagram, and
is shorter than the MTU or has a single LSA. -/
structure RespectsMTU (i : ParentInterface) (list : List ListedLSA) (p : LinkStateUpdatePacket) :
    Prop where
  subsequence : ∃ sent : List ListedLSA, sent.Sublist list ∧ p.Carries i.transmissionDelay sent ∧
    ∀ first ∈ list.head?,
      ipv4HeaderLength + ospfHeaderLength + first.lsaSize < ipv4DatagramLength →
        sent.head? = some first
  below_mtu : p.totalLength < i.mtu.toNat ∨ p.lsas.length = 1

/-- Either no LSA below the MTU precedes one that is sent alone; or no LSA that is too long for
the MTU meets a zero count, and those below the MTU are one or are below it together. -/
def FitTogether (mtu : ℕ) (list : List ListedLSA) : Prop :=
  (∃ before lsa after, list = before ++ lsa :: after ∧ before.filter (fitsMTU mtu) = [] ∧
    fitsMTU mtu lsa = false ∧ fitsDatagram lsa = true) ∨
  (∀ before lsa after, list = before ++ lsa :: after → fitsMTU mtu lsa = false →
    fitsDatagram lsa = true → (before.filter (fitsMTU mtu)).length % 65536 ≠ 0) ∧
  ((list.filter (fitsMTU mtu)).length = 1 ∨
    ipv4HeaderLength + ospfHeaderLength +
      ((list.filter (fitsMTU mtu)).map ListedLSA.lsaSize).sum < mtu)

namespace LinkStateUpdatePacket

variable {p : LinkStateUpdatePacket} {sent : List ListedLSA} {d : ℤ}

theorem Carries.includeLSA (h : p.Carries d sent) (lsa : ListedLSA) :
    (p.includeLSA d lsa).Carries d (sent ++ [lsa]) := by
  obtain ⟨hr, hn, hs, he⟩ := h
  unfold LinkStateUpdatePacket.includeLSA
  cases ht : lsa.header.lsType <;>
    constructor <;>
      simp [List.filter_append, ListedLSA.isRouterLSA, ListedLSA.isNetworkLSA,
        ListedLSA.isSummaryLSA, ListedLSA.isASExternalLSA, ht, hr, hn, hs, he]

theorem kinds_perm (sent : List ListedLSA) :
    (sent.filter ListedLSA.isRouterLSA ++ (sent.filter ListedLSA.isNetworkLSA ++
      (sent.filter ListedLSA.isSummaryLSA ++ sent.filter ListedLSA.isASExternalLSA))).Perm
        sent := by
  induction sent with
  | nil => simp
  | cons lsa rest ih =>
    cases ht : lsa.header.lsType <;>
      simp only [List.filter_cons, ListedLSA.isRouterLSA, ListedLSA.isNetworkLSA,
        ListedLSA.isSummaryLSA, ListedLSA.isASExternalLSA, ht] <;>
      simp only [List.cons_append, reduceCtorEq, beq_iff_eq, beq_self_eq_true,
        Bool.or_true, Bool.true_or, if_true, if_false]
    case routerLSA => exact ih.cons lsa
    case networkLSA => exact List.perm_middle.trans (ih.cons lsa)
    case asExternalLSA =>
      apply List.Perm.trans _ (ih.cons lsa)
      simp only [← List.append_assoc]
      exact List.perm_middle
    all_goals
      apply List.Perm.trans _ (ih.cons lsa)
      rw [← List.append_assoc, ← List.append_assoc]
      exact List.perm_middle

theorem Carries.lsas_perm (h : p.Carries d sent) :
    p.lsas.Perm (sent.map (ListedLSA.setLsAge d)) := by
  have hp := (kinds_perm sent).map (ListedLSA.setLsAge d)
  rw [List.map_append, List.map_append, List.map_append, ← h.routerLSAs, ← h.networkLSAs,
    ← h.summaryLSAs, ← h.asExternalLSAs, ← List.append_assoc, ← List.append_assoc] at hp
  exact hp

theorem Carries.length_lsas (h : p.Carries d sent) : p.lsas.length = sent.length := by
  rw [h.lsas_perm.length_eq, List.length_map]

theorem Carries.totalLength_eq (h : p.Carries d sent) :
    p.totalLength = ipv4HeaderLength + ospfHeaderLength + (sent.map ListedLSA.lsaSize).sum := by
  have hs := (h.lsas_perm.map ListedLSA.lsaSize).sum_nat
  rw [List.map_map] at hs
  unfold totalLength
  rw [hs]
  rfl

end LinkStateUpdatePacket

/-! ## What the loop chooses -/

/-- The LSAs that are included when `count` others have been. -/
def chosen (mtu : ℕ) : ℕ → List ListedLSA → List ListedLSA
  | _, [] => []
  | count, lsa :: rest =>
    if fitsMTU mtu lsa then lsa :: chosen mtu (count + 1) rest
    else if count % 65536 = 0 ∧ fitsDatagram lsa then [lsa]
    else chosen mtu count rest

section Chosen

variable {mtu count : ℕ} {list before after : List ListedLSA} {lsa : ListedLSA}

theorem chosen_sublist (mtu count : ℕ) (list : List ListedLSA) :
    (chosen mtu count list).Sublist list := by
  fun_induction chosen mtu count list with
  | case1 => exact List.Sublist.refl _
  | case2 _ _ _ _ ih => exact ih.cons_cons _
  | case3 _ lsa rest => exact (List.nil_sublist rest).cons_cons lsa
  | case4 _ _ _ _ _ ih => exact ih.cons _

theorem FillState.fill_of_full (i : ParentInterface) (list : List ListedLSA) (s : FillState)
    (h : s.packetFull = true) : s.fill i list = s := by
  cases list <;> simp [FillState.fill, h]

/-- The packet at the end carries what it had and what is chosen of the rest. -/
theorem FillState.fill_carries (i : ParentInterface) (list sent : List ListedLSA) (s : FillState)
    (hfull : s.packetFull = false) (hcount : s.lsaCount = count % 65536)
    (hs : s.updatePacket.Carries i.transmissionDelay sent) :
    (s.fill i list).updatePacket.Carries i.transmissionDelay
      (sent ++ chosen i.mtu.toNat count list) := by
  induction list generalizing s sent count with
  | nil => simpa [FillState.fill, chosen] using hs
  | cons lsa rest ih =>
    simp only [FillState.fill, hfull, Bool.false_eq_true, if_false, FillState.consider, chosen,
      hcount]
    split_ifs with hmtu hdatagram
    · rw [List.append_cons]
      exact ih (sent ++ [lsa]) _ rfl (Nat.mod_add_mod _ _ _) (hs.includeLSA lsa)
    · rw [FillState.fill_of_full i rest _ rfl]
      exact hs.includeLSA lsa
    · exact ih sent s hfull hcount hs

theorem emptyPacket_carries (i : ParentInterface) :
    (emptyPacket i).Carries i.transmissionDelay [] := by
  constructor <;> rfl

theorem retransmitUpdatePacket_carries (i : ParentInterface) (destination : IPAddress)
    (list : List ListedLSA) :
    (retransmitUpdatePacket i destination list).packet.Carries i.transmissionDelay
      (chosen i.mtu.toNat 0 list) :=
  FillState.fill_carries i list [] _ rfl rfl (emptyPacket_carries i)

theorem chosen_head (mtu : ℕ) (rest : List ListedLSA)
    (h : ipv4HeaderLength + ospfHeaderLength + lsa.lsaSize < ipv4DatagramLength) :
    (chosen mtu 0 (lsa :: rest)).head? = some lsa := by
  have hfits : fitsDatagram lsa = true := by
    simp only [fitsDatagram, decide_eq_true_eq]
    simp only [packetLength, ospfHeaderLength, ospfLSAHeaderLength] at h ⊢
    omega
  rw [chosen]
  split_ifs with hmtu hcount
  · rfl
  · rfl
  · exact absurd ⟨rfl, hfits⟩ hcount

/-- Nothing is skipped as long as the count is not zero at an LSA beyond the MTU. -/
theorem chosen_eq_filter
    (h : ∀ before lsa after, list = before ++ lsa :: after → fitsMTU mtu lsa = false →
      fitsDatagram lsa = true → (count + (before.filter (fitsMTU mtu)).length) % 65536 ≠ 0) :
    chosen mtu count list = list.filter (fitsMTU mtu) := by
  induction list generalizing count with
  | nil => rfl
  | cons lsa rest ih =>
    rw [chosen]
    split_ifs with hmtu hcount
    · rw [List.filter_cons_of_pos hmtu, ih]
      intro before next after hrest hnext hfits
      have := h (lsa :: before) next after (by rw [hrest, List.cons_append]) hnext hfits
      rw [List.filter_cons_of_pos hmtu, List.length_cons] at this
      rwa [Nat.add_right_comm]
    · exact absurd hcount.1 (h [] lsa rest rfl (Bool.not_eq_true _ ▸ hmtu) hcount.2)
    · rw [List.filter_cons_of_neg hmtu, ih]
      intro before next after hrest hnext hfits
      have := h (lsa :: before) next after (by rw [hrest, List.cons_append]) hnext hfits
      rwa [List.filter_cons_of_neg hmtu] at this

/-- At a zero count an LSA beyond the MTU ends the packet. -/
theorem chosen_stops (hlist : ∃ before lsa after, list = before ++ lsa :: after ∧
      fitsMTU mtu lsa = false ∧ fitsDatagram lsa = true ∧
      (count + (before.filter (fitsMTU mtu)).length) % 65536 = 0) :
    ∃ before lsa after, list = before ++ lsa :: after ∧ fitsMTU mtu lsa = false ∧
      fitsDatagram lsa = true ∧ chosen mtu count list = before.filter (fitsMTU mtu) ++ [lsa] := by
  induction list generalizing count with
  | nil => simp at hlist
  | cons lsa rest ih =>
    obtain ⟨before, last, after, heq, hlast, hfits, hzero⟩ := hlist
    rw [chosen]
    split_ifs with hmtu hcount
    · cases before with
      | nil => simp_all
      | cons b before =>
        obtain ⟨rfl, rfl⟩ := List.cons_eq_cons.mp heq
        rw [List.filter_cons_of_pos hmtu, List.length_cons, ← Nat.add_assoc,
          Nat.add_right_comm] at hzero
        obtain ⟨pre, x, post, hrest, hx, hxfits, hchosen⟩ :=
          ih ⟨before, last, after, rfl, hlast, hfits, hzero⟩
        exact ⟨lsa :: pre, x, post, by rw [hrest, List.cons_append], hx, hxfits,
          by rw [hchosen, List.filter_cons_of_pos hmtu, List.cons_append]⟩
    · exact ⟨[], lsa, rest, rfl, Bool.not_eq_true _ ▸ hmtu, hcount.2, rfl⟩
    · cases before with
      | nil => simp_all
      | cons b before =>
        obtain ⟨rfl, rfl⟩ := List.cons_eq_cons.mp heq
        rw [List.filter_cons_of_neg hmtu] at hzero
        obtain ⟨pre, x, post, hrest, hx, hxfits, hchosen⟩ :=
          ih ⟨before, last, after, rfl, hlast, hfits, hzero⟩
        exact ⟨lsa :: pre, x, post, by rw [hrest, List.cons_append], hx, hxfits,
          by rw [hchosen, List.filter_cons_of_neg hmtu]⟩

/-- An LSA beyond the MTU that no shorter one precedes goes alone. -/
theorem length_chosen_of_first (hbefore : before.filter (fitsMTU mtu) = [])
    (hlsa : fitsMTU mtu lsa = false) (hfits : fitsDatagram lsa = true) :
    (chosen mtu 0 (before ++ lsa :: after)).length = 1 := by
  induction before with
  | nil => simp [chosen, hlsa, hfits]
  | cons b before ih =>
    have hb : fitsMTU mtu b = false := by
      have := List.filter_eq_nil_iff.mp hbefore b List.mem_cons_self
      simpa using this
    rw [List.filter_cons_of_neg (by simp [hb])] at hbefore
    rw [List.cons_append, chosen]
    simp only [hb, Bool.false_eq_true, if_false]
    split_ifs
    · rfl
    · exact ih hbefore

end Chosen

/-! ## When the MTU is respected -/

/-- The length of what is chosen is within the MTU just if it is for the list. -/
theorem chosen_fits_iff (mtu : ℕ) (list : List ListedLSA) :
    (ipv4HeaderLength + ospfHeaderLength + ((chosen mtu 0 list).map ListedLSA.lsaSize).sum < mtu ∨
      (chosen mtu 0 list).length = 1) ↔ FitTogether mtu list := by
  by_cases hstop : ∀ before lsa after, list = before ++ lsa :: after → fitsMTU mtu lsa = false →
    fitsDatagram lsa = true → (before.filter (fitsMTU mtu)).length % 65536 ≠ 0
  · have heq : chosen mtu 0 list = list.filter (fitsMTU mtu) := by
      apply chosen_eq_filter
      simpa only [Nat.zero_add] using hstop
    rw [heq]
    constructor
    · intro h
      exact .inr ⟨hstop, h.symm⟩
    · rintro (⟨before, lsa, after, hlist, hnone, hlsa, hfits⟩ | ⟨-, h⟩)
      · exact absurd (by rw [hnone]; rfl) (hstop before lsa after hlist hlsa hfits)
      · exact h.symm
  · have hlist : ∃ before lsa after, list = before ++ lsa :: after ∧ fitsMTU mtu lsa = false ∧
        fitsDatagram lsa = true ∧ (0 + (before.filter (fitsMTU mtu)).length) % 65536 = 0 := by
      push Not at hstop
      simpa only [Nat.zero_add] using hstop
    obtain ⟨before, lsa, after, heq, hlsa, hfits, hchosen⟩ := chosen_stops hlist
    constructor
    · intro h
      rw [hchosen] at h
      refine .inl ⟨before, lsa, after, heq, ?_, hlsa, hfits⟩
      -- the LSA alone is already too long, so it is the only one
      have hlong : mtu ≤ packetLength + lsa.lsaSize := by
        simpa [fitsMTU] using hlsa
      simp only [List.map_append, List.sum_append, List.map_cons, List.map_nil, List.sum_cons,
        List.sum_nil, List.length_append, List.length_cons, List.length_nil] at h
      simp only [packetLength, ospfHeaderLength, ospfLSAHeaderLength] at h hlong
      apply List.eq_nil_of_length_eq_zero
      omega
    · rintro (⟨pre, x, post, rfl, hnone, hx, hxfits⟩ | ⟨hnever, -⟩)
      · exact .inr (length_chosen_of_first hnone hx hxfits)
      · exact absurd hnever hstop

/-- The packet respects the MTU just if the LSAs below the MTU fit together. -/
theorem retransmitUpdatePacket_respectsMTU_iff (i : ParentInterface) (destination : IPAddress)
    (list : List ListedLSA) :
    RespectsMTU i list (retransmitUpdatePacket i destination list).packet ↔
      FitTogether i.mtu.toNat list := by
  have hcarries := retransmitUpdatePacket_carries i destination list
  rw [← chosen_fits_iff]
  constructor
  · intro h
    have hb := h.below_mtu
    rwa [hcarries.totalLength_eq, hcarries.length_lsas] at hb
  · intro h
    constructor
    · refine ⟨chosen i.mtu.toNat 0 list, chosen_sublist _ _ _, hcarries, ?_⟩
      intro first hfirst hfits
      cases list with
      | nil => simp at hfirst
      | cons lsa rest =>
        obtain rfl : lsa = first := by simpa using hfirst
        exact chosen_head _ rest hfits
    · rwa [hcarries.totalLength_eq, hcarries.length_lsas]

/-- A network LSA of a network with the given number of routers. -/
def networkOf (linkStateID : IPAddress) (routers : ℕ) : ListedLSA where
  header := ⟨1, .networkLSA, linkStateID, 7, 1, 0⟩
  contents := .network ⟨0xFFFFFF00, List.replicate routers 7⟩
  typed := rfl

def shortInterface : ParentInterface where
  routerID := 7
  areaID := 0
  authenticationType := 0
  authenticationKey := 0
  mtu := 130
  transmissionDelay := 1
  ifIndex := 0
  isVirtual := false

/-- Two network LSAs of 32 bytes each go in one packet of 148 bytes, with an MTU of 130. -/
theorem two_networks_exceed_mtu :
    ¬ RespectsMTU shortInterface [networkOf 1 2, networkOf 2 2]
      (retransmitUpdatePacket shortInterface 9 [networkOf 1 2, networkOf 2 2]).packet := by
  intro h
  have hb := h.below_mtu
  revert hb
  decide

end InetManet.OSPF.Retransmission
