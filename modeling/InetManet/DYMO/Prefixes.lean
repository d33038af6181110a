import InetManet.DYMO.LoopFreedom

/-!
# DYMO routes to networks

The lookup in the table of a node takes the longest prefix that matches. An update takes the same entry for
the one to change and gives it the address and the prefix of the block, so that a block for a host or a
network overwrites the route of a network around it. A route with the empty prefix is never found.
-/

namespace InetManet.DYMO.Prefixes

/-- `IPAddress::prefixMatches`. -/
def prefixMatches (addr toCmp : IPAddress) (numbits : ℕ) : Bool :=
  if numbits < 1 then true
  else if 31 < numbits then addr == toCmp
  else
    let mask : IPAddress := ~~~(0xFFFFFFFF#32 >>> numbits)
    addr &&& mask == toCmp &&& mask

/-- A route to the addresses that begin with `routePrefix` bits of its own one. -/
structure Entry extends RoutingEntry where
  routePrefix : ℕ
  deriving DecidableEq

structure Block extends AddressBlock where
  blockPrefix : Option ℕ
  deriving DecidableEq

/-- A block without prefix is for a host. -/
def Block.routePrefix (ab : Block) : ℕ := ab.blockPrefix.getD 32

def Entry.covers (entry : Entry) (addr : IPAddress) : Bool :=
  prefixMatches addr entry.routeAddress entry.routePrefix

/-- The loop of the lookup from position `k` on, with the entry found so far and its position. -/
def getLoop (addr : IPAddress) : Option (ℕ × Entry) → ℕ → List Entry → Option (ℕ × Entry)
  | longest, _, [] => longest
  | longest, k, entry :: routingTable =>
    if (longest.map (·.2.routePrefix)).getD 0 < entry.routePrefix ∧ entry.covers addr = true then
      getLoop addr (some (k, entry)) (k + 1) routingTable
    else getLoop addr longest (k + 1) routingTable

def getForAddress (routingTable : List Entry) (addr : IPAddress) : Option (ℕ × Entry) :=
  getLoop addr none 0 routingTable

section

variable (isRREQ : Bool) (nextHopAddress : IPAddress) (nextHopInterface : ℕ)

def routeFromBlock (ab : Block) (seqNum : SeqNum) : Entry where
  toRoutingEntry := DYMO.routeFromBlock nextHopAddress nextHopInterface ab.toAddressBlock seqNum
  routePrefix := ab.routePrefix

def isSuperior (routingTable : List Entry) (ab : Block) (seqNum : SeqNum) : Bool :=
  match getForAddress routingTable ab.address with
  | some (_, entry) => isRBlockBetter entry.toRoutingEntry ab.toAddressBlock seqNum isRREQ
  | none => true

/-- The table and whether the block was better than the entry found for its address. -/
def updateRoutesFromAddressBlock (routingTable : List Entry) (ab : Block) :
    Except Fault (List Entry × Bool) :=
  match ab.seqNum with
  | none => .error .noSeqNum
  | some seqNum =>
    if isSuperior isRREQ routingTable ab seqNum then
      match getForAddress routingTable ab.address with
      | some (k, _) =>
        .ok (routingTable.set k (routeFromBlock nextHopAddress nextHopInterface ab seqNum), true)
      | none => .ok (routingTable ++ [routeFromBlock nextHopAddress nextHopInterface ab seqNum], true)
    else .ok (routingTable, false)

end

/-! ## Isolated updates -/

/-- The entry is for the network of the block. -/
def Entry.IsFor (ab : Block) (entry : Entry) : Prop :=
  entry.routeAddress = ab.address ∧ entry.routePrefix = ab.routePrefix

/-- Nothing changes, or an entry for the network of the block is replaced, or one is added where there has
been none. -/
def Frame (ab : Block) (new : Entry) (t t' : List Entry) : Prop :=
  t' = t ∨ (∃ k old, t[k]? = some old ∧ old.IsFor ab ∧ t' = t.set k new) ∨
    ((∀ entry ∈ t, ¬ entry.IsFor ab) ∧ t' = t ++ [new])

/-- The lookup gives an entry with the longest prefix that covers the address. -/
def FindsLongest (t : List Entry) : Prop :=
  ∀ addr, (∃ entry ∈ t, entry.covers addr = true) →
    ∃ k entry, getForAddress t addr = some (k, entry) ∧ t[k]? = some entry ∧ entry.covers addr = true ∧
      ∀ other ∈ t, other.covers addr = true → other.routePrefix ≤ entry.routePrefix

section

variable (isRREQ : Bool) (nextHopAddress : IPAddress) (nextHopInterface : ℕ) (t : List Entry) (ab : Block)

/-- What an update does: it changes the entry of the block's network only, no lookup of an address outside
of it changes, and every address keeps its route. Lookups find the longest prefix before and after. -/
structure Isolated : Prop where
  frame : ∀ t' better, updateRoutesFromAddressBlock isRREQ nextHopAddress nextHopInterface t ab =
    .ok (t', better) → ∃ seqNum, Frame ab (routeFromBlock nextHopAddress nextHopInterface ab seqNum) t t'
  outside : ∀ t' better, updateRoutesFromAddressBlock isRREQ nextHopAddress nextHopInterface t ab =
    .ok (t', better) → ∀ addr, prefixMatches addr ab.address ab.routePrefix = false →
      getForAddress t' addr = getForAddress t addr
  covered : ∀ t' better, updateRoutesFromAddressBlock isRREQ nextHopAddress nextHopInterface t ab =
    .ok (t', better) → ∀ addr, (getForAddress t addr).isSome = true → (getForAddress t' addr).isSome = true
  longest : FindsLongest t ∧ ∀ t' better, updateRoutesFromAddressBlock isRREQ nextHopAddress
    nextHopInterface t ab = .ok (t', better) → FindsLongest t'

/-- The block is taken. -/
def Taken : Prop := ∃ seqNum, ab.seqNum = some seqNum ∧ isSuperior isRREQ t ab seqNum = true

/-- A block that is taken has a prefix, and the entry found for its address is the one for its network. If
there is an entry with the empty prefix, others cover all addresses. -/
structure Separate : Prop where
  nonempty : Taken isRREQ t ab → ab.routePrefix ≠ 0
  same : Taken isRREQ t ab → ∀ k entry, getForAddress t ab.address = some (k, entry) → entry.IsFor ab
  default : ∀ entry ∈ t, entry.routePrefix = 0 →
    ∀ addr, ∃ other ∈ t, other.routePrefix ≠ 0 ∧ other.covers addr = true

end

/-! ## The lookup -/

section

variable {t : List Entry} {addr : IPAddress} {entry new : Entry} {ab : Block}

theorem prefixMatches_self (numbits : ℕ) : prefixMatches addr addr numbits = true := by
  unfold prefixMatches
  split_ifs <;> simp

theorem prefixMatches_zero (toCmp : IPAddress) : prefixMatches addr toCmp 0 = true := rfl

theorem Entry.IsFor.covers (h : entry.IsFor ab) :
    entry.covers addr = prefixMatches addr ab.address ab.routePrefix := by
  rw [Entry.covers, h.1, h.2]

/-- What the loop has found: a covering entry of the table with a prefix, no shorter than any other. -/
structure Found (addr : IPAddress) (t : List Entry) (k : ℕ) (entry : Entry) : Prop where
  get : t[k]? = some entry
  covers : entry.covers addr = true
  nonempty : entry.routePrefix ≠ 0
  longest : ∀ other ∈ t, other.covers addr = true → other.routePrefix ≤ entry.routePrefix

/-- The invariant of the loop: the part `l` of the table has been visited. -/
def Visited (addr : IPAddress) (l : List Entry) : Option (ℕ × Entry) → Prop
  | none => ∀ other ∈ l, other.covers addr = true → other.routePrefix = 0
  | some (k, entry) => Found addr l k entry

theorem Visited.next {l : List Entry} {longest : Option (ℕ × Entry)} (h : Visited addr l longest)
    (entry : Entry) :
    Visited addr (l ++ [entry])
      (if (longest.map (·.2.routePrefix)).getD 0 < entry.routePrefix ∧ entry.covers addr = true then
        some (l.length, entry) else longest) := by
  split
  · rename_i hbetter
    obtain ⟨hlonger, hcovers⟩ := hbetter
    refine ⟨by simp, hcovers, by omega, fun other hmem hother ↦ ?_⟩
    rcases List.mem_append.mp hmem with hold | hnew
    · cases longest with
      | none => rw [h other hold hother]; exact Nat.zero_le _
      | some best => exact (h.longest other hold hother).trans hlonger.le
    · rw [List.mem_singleton.mp hnew]
  · rename_i hworse
    cases longest with
    | none =>
      intro other hmem hother
      rcases List.mem_append.mp hmem with hold | hnew
      · exact h other hold hother
      · rw [List.mem_singleton.mp hnew] at hother ⊢
        by_contra hne
        exact hworse ⟨Nat.pos_of_ne_zero hne, hother⟩
    | some best =>
      refine ⟨?_, h.covers, h.nonempty, fun other hmem hother ↦ ?_⟩
      · rw [List.getElem?_append_left (List.getElem?_eq_some_iff.mp h.get).1]
        exact h.get
      · rcases List.mem_append.mp hmem with hold | hnew
        · exact h.longest other hold hother
        · rw [List.mem_singleton.mp hnew] at hother ⊢
          by_contra hlonger
          exact hworse ⟨Nat.lt_of_not_le hlonger, hother⟩

theorem visited_getLoop (rest : List Entry) :
    ∀ {l : List Entry} {longest : Option (ℕ × Entry)}, Visited addr l longest →
      Visited addr (l ++ rest) (getLoop addr longest l.length rest) := by
  induction rest with
  | nil =>
    intro l longest h
    rwa [List.append_nil]
  | cons entry rest ih =>
    intro l longest h
    have hnext := ih (h.next entry)
    rw [List.append_assoc, List.singleton_append, List.length_append, List.length_singleton] at hnext
    rw [getLoop]
    split
    · rename_i hbetter
      rwa [if_pos hbetter] at hnext
    · rename_i hworse
      rwa [if_neg hworse] at hnext

theorem visited_getForAddress (t : List Entry) (addr : IPAddress) :
    Visited addr t (getForAddress t addr) :=
  @visited_getLoop addr t [] none fun _ hmem ↦ by cases hmem

theorem found_of_getForAddress {k : ℕ} (h : getForAddress t addr = some (k, entry)) :
    Found addr t k entry := by
  have hvisited := visited_getForAddress t addr
  rwa [h] at hvisited

/-- An address has a route exactly if an entry with a prefix covers it. -/
theorem isSome_getForAddress_iff :
    (getForAddress t addr).isSome = true ↔ ∃ entry ∈ t, entry.routePrefix ≠ 0 ∧ entry.covers addr = true := by
  have hvisited := visited_getForAddress t addr
  cases hget : getForAddress t addr with
  | none =>
    rw [hget] at hvisited
    refine iff_of_false (by simp) ?_
    rintro ⟨entry, hmem, hne, hcovers⟩
    exact hne (hvisited entry hmem hcovers)
  | some best =>
    rw [hget] at hvisited
    refine iff_of_true rfl ⟨best.2, List.mem_of_getElem? hvisited.get, hvisited.nonempty, hvisited.covers⟩

/-- Lookups find the longest prefix exactly if an entry with the empty prefix is never needed. -/
theorem findsLongest_iff :
    FindsLongest t ↔ ∀ entry ∈ t, entry.routePrefix = 0 →
      ∀ addr, ∃ other ∈ t, other.routePrefix ≠ 0 ∧ other.covers addr = true := by
  constructor
  · intro h entry hmem hzero addr
    have hcovers : entry.covers addr = true := by
      rw [Entry.covers, hzero, prefixMatches_zero]
    obtain ⟨k, best, hget, -⟩ := h addr ⟨entry, hmem, hcovers⟩
    have hfound := found_of_getForAddress hget
    exact ⟨best, List.mem_of_getElem? hfound.get, hfound.nonempty, hfound.covers⟩
  · rintro h addr ⟨entry, hmem, hcovers⟩
    have hsome : (getForAddress t addr).isSome = true := by
      rw [isSome_getForAddress_iff]
      by_cases hzero : entry.routePrefix = 0
      · exact h entry hmem hzero addr
      · exact ⟨entry, hmem, hzero, hcovers⟩
    obtain ⟨⟨k, best⟩, hget⟩ := Option.isSome_iff_exists.mp hsome
    have hfound := found_of_getForAddress hget
    exact ⟨k, best, hget, hfound.get, hfound.covers, hfound.longest⟩

/-- An entry that does not cover the address may be exchanged for another such entry. -/
theorem getLoop_set (hnew : new.covers addr = false) (i : ℕ) :
    ∀ {t : List Entry} {longest : Option (ℕ × Entry)} {k : ℕ},
      (∀ old, t[i]? = some old → old.covers addr = false) →
      getLoop addr longest k (t.set i new) = getLoop addr longest k t := by
  induction i with
  | zero =>
    intro t longest k hold
    cases t with
    | nil => rfl
    | cons old t =>
      have hold' := hold old rfl
      rw [List.set_cons_zero, getLoop, getLoop]
      simp only [hnew, hold', Bool.false_eq_true, and_false, if_false]
  | succ i ih =>
    intro t longest k hold
    cases t with
    | nil => rfl
    | cons entry t =>
      have hrest : ∀ old, t[i]? = some old → old.covers addr = false := fun old h ↦ hold old (by simpa)
      rw [List.set_cons_succ, getLoop, getLoop]
      split
      · exact ih hrest
      · exact ih hrest

theorem getLoop_append (hnew : new.covers addr = false) :
    ∀ {t : List Entry} {longest : Option (ℕ × Entry)} {k : ℕ},
      getLoop addr longest k (t ++ [new]) = getLoop addr longest k t := by
  intro t
  induction t with
  | nil =>
    intro longest k
    rw [List.nil_append, getLoop, getLoop]
    simp only [hnew, Bool.false_eq_true, and_false, if_false, getLoop]
  | cons entry t ih =>
    intro longest k
    rw [List.cons_append, getLoop, getLoop]
    split
    · exact ih
    · exact ih

end

/-! ## What an update does -/

section

variable {isRREQ : Bool} {nextHopAddress : IPAddress} {nextHopInterface : ℕ} {t t' : List Entry} {ab : Block}
  {better : Bool} {new : Entry}

theorem routeFromBlock_isFor (seqNum : SeqNum) :
    (routeFromBlock nextHopAddress nextHopInterface ab seqNum).IsFor ab := ⟨rfl, rfl⟩

/-- The outcomes of an update: the block is not taken, overwrites the entry found, or adds one. -/
theorem update_cases
    (h : updateRoutesFromAddressBlock isRREQ nextHopAddress nextHopInterface t ab = .ok (t', better)) :
    t' = t ∨ (Taken isRREQ t ab ∧ ∃ seqNum,
      (∃ k entry, getForAddress t ab.address = some (k, entry) ∧
        t' = t.set k (routeFromBlock nextHopAddress nextHopInterface ab seqNum)) ∨
      (getForAddress t ab.address = none ∧
        t' = t ++ [routeFromBlock nextHopAddress nextHopInterface ab seqNum])) := by
  unfold updateRoutesFromAddressBlock at h
  cases hseq : ab.seqNum with
  | none =>
    rw [hseq] at h
    cases h
  | some seqNum =>
    rw [hseq] at h
    dsimp only at h
    by_cases hsup : isSuperior isRREQ t ab seqNum = true
    · rw [if_pos hsup] at h
      refine .inr ⟨⟨seqNum, hseq, hsup⟩, seqNum, ?_⟩
      cases hget : getForAddress t ab.address with
      | none =>
        rw [hget] at h
        cases h
        exact .inr ⟨rfl, rfl⟩
      | some best =>
        rw [hget] at h
        cases h
        exact .inl ⟨best.1, best.2, rfl, rfl⟩
    · rw [if_neg hsup] at h
      cases h
      exact .inl rfl

/-- A block that is taken changes the table in one of two ways. -/
theorem update_of_taken (h : Taken isRREQ t ab) :
    ∃ seqNum, updateRoutesFromAddressBlock isRREQ nextHopAddress nextHopInterface t ab =
      .ok (match getForAddress t ab.address with
        | some (k, _) => t.set k (routeFromBlock nextHopAddress nextHopInterface ab seqNum)
        | none => t ++ [routeFromBlock nextHopAddress nextHopInterface ab seqNum], true) := by
  obtain ⟨seqNum, hseq, hsup⟩ := h
  refine ⟨seqNum, ?_⟩
  unfold updateRoutesFromAddressBlock
  rw [hseq]
  dsimp only
  rw [if_pos hsup]
  cases getForAddress t ab.address <;> rfl

theorem getElem?_set_of_get {k i : ℕ} {entry : Entry} (hget : t[k]? = some entry) :
    (t.set k new)[i]? = if i = k then some new else t[i]? := by
  obtain ⟨hlt, -⟩ := List.getElem?_eq_some_iff.mp hget
  rw [List.getElem?_set]
  by_cases hik : k = i
  · subst hik
    rw [if_pos rfl, if_pos hlt, if_pos rfl]
  · rw [if_neg hik, if_neg fun h ↦ hik h.symm]

/-- The entry overwritten is for the network of the block. -/
theorem isFor_of_frame {k : ℕ} {entry new' : Entry} (hget : t[k]? = some entry) (hnew : new.IsFor ab)
    (hframe : Frame ab new' t (t.set k new)) : entry.IsFor ab := by
  have hat : (t.set k new)[k]? = some new := by
    rw [getElem?_set_of_get hget, if_pos rfl]
  rcases hframe with hsame | ⟨i, old, hold, hfor, hset⟩ | ⟨-, happend⟩
  · rw [hsame, hget] at hat
    exact (Option.some.inj hat) ▸ hnew
  · by_cases hik : k = i
    · subst hik
      rw [hget] at hold
      exact (Option.some.inj hold) ▸ hfor
    · rw [hset, getElem?_set_of_get hold, if_neg hik, hget] at hat
      exact (Option.some.inj hat) ▸ hnew
  · have hlength := congrArg List.length happend
    rw [List.length_set, List.length_append, List.length_singleton] at hlength
    omega

theorem Isolated.separate (h : Isolated isRREQ nextHopAddress nextHopInterface t ab) :
    Separate isRREQ t ab := by
  have hsame : Taken isRREQ t ab → ∀ k entry, getForAddress t ab.address = some (k, entry) →
      entry.IsFor ab := by
    intro htaken k entry hget
    obtain ⟨seqNum, hupdate⟩ := @update_of_taken isRREQ nextHopAddress nextHopInterface t ab htaken
    rw [hget] at hupdate
    obtain ⟨seqNum', hframe⟩ := h.frame _ _ hupdate
    exact isFor_of_frame (found_of_getForAddress hget).get (routeFromBlock_isFor seqNum) hframe
  refine ⟨fun htaken hzero ↦ ?_, hsame, findsLongest_iff.mp h.longest.1⟩
  obtain ⟨seqNum, hupdate⟩ := @update_of_taken isRREQ nextHopAddress nextHopInterface t ab htaken
  cases hget : getForAddress t ab.address with
  | some best =>
    have hfor := hsame htaken best.1 best.2 hget
    exact (found_of_getForAddress hget).nonempty (hfor.2.trans hzero)
  | none =>
    -- The new entry has the empty prefix, and no other one covers the address of the block.
    rw [hget] at hupdate
    have hcover := findsLongest_iff.mp (h.longest.2 _ _ hupdate)
      (routeFromBlock nextHopAddress nextHopInterface ab seqNum) (by simp) hzero ab.address
    obtain ⟨other, hmem, hne, hcovers⟩ := hcover
    rcases List.mem_append.mp hmem with hold | hnew
    · have hsome := isSome_getForAddress_iff.mpr ⟨other, hold, hne, hcovers⟩
      rw [hget] at hsome
      cases hsome
    · rw [List.mem_singleton.mp hnew] at hne
      exact hne hzero

/-- The three ways of a table after an update that is separate. -/
theorem Separate.update (h : Separate isRREQ t ab)
    (hupdate : updateRoutesFromAddressBlock isRREQ nextHopAddress nextHopInterface t ab = .ok (t', better)) :
    t' = t ∨ ∃ seqNum, ab.routePrefix ≠ 0 ∧
      ((∃ k old, t[k]? = some old ∧ old.IsFor ab ∧
        t' = t.set k (routeFromBlock nextHopAddress nextHopInterface ab seqNum)) ∨
      ((∀ entry ∈ t, ¬ entry.IsFor ab) ∧
        t' = t ++ [routeFromBlock nextHopAddress nextHopInterface ab seqNum])) := by
  rcases update_cases hupdate with hsame | ⟨htaken, seqNum, ⟨k, entry, hget, hset⟩ | ⟨hget, happend⟩⟩
  · exact .inl hsame
  · refine .inr ⟨seqNum, h.nonempty htaken, .inl ⟨k, entry, (found_of_getForAddress hget).get, ?_, hset⟩⟩
    exact h.same htaken k entry hget
  · refine .inr ⟨seqNum, h.nonempty htaken, .inr ⟨fun entry hmem hfor ↦ ?_, happend⟩⟩
    have hsome : (getForAddress t ab.address).isSome = true := by
      rw [isSome_getForAddress_iff]
      refine ⟨entry, hmem, fun hzero ↦ h.nonempty htaken (hfor.2 ▸ hzero), ?_⟩
      rw [hfor.covers, prefixMatches_self]
    rw [hget] at hsome
    cases hsome

/-- Whoever covered an address with a prefix still does after an entry is replaced by one for the same
network. -/
theorem exists_covers_set {k : ℕ} {old : Entry} {addr : IPAddress} (hget : t[k]? = some old)
    (hold : old.IsFor ab) (hnew : new.IsFor ab)
    (h : ∃ entry ∈ t, entry.routePrefix ≠ 0 ∧ entry.covers addr = true) :
    ∃ entry ∈ t.set k new, entry.routePrefix ≠ 0 ∧ entry.covers addr = true := by
  obtain ⟨entry, hmem, hne, hcovers⟩ := h
  obtain ⟨i, hi⟩ := List.mem_iff_getElem?.mp hmem
  by_cases hik : i = k
  · subst hik
    rw [hget] at hi
    cases hi
    refine ⟨new, List.mem_of_getElem? (i := i) (by rw [getElem?_set_of_get hget, if_pos rfl]), ?_, ?_⟩
    · rw [hnew.2, ← hold.2]
      exact hne
    · rw [hnew.covers, ← hold.covers]
      exact hcovers
  · exact ⟨entry, List.mem_of_getElem? (i := i) (by rw [getElem?_set_of_get hget, if_neg hik, hi]), hne,
      hcovers⟩

theorem Separate.isolated (h : Separate isRREQ t ab) :
    Isolated isRREQ nextHopAddress nextHopInterface t ab := by
  have hlongest : FindsLongest t := findsLongest_iff.mpr h.default
  refine ⟨fun t' better hupdate ↦ ?_, fun t' better hupdate addr hout ↦ ?_,
    fun t' better hupdate addr hsome ↦ ?_, hlongest, fun t' better hupdate ↦ ?_⟩
  · rcases h.update hupdate with hsame | ⟨seqNum, -, hset | happend⟩
    · exact ⟨0, .inl hsame⟩
    · exact ⟨seqNum, .inr (.inl hset)⟩
    · exact ⟨seqNum, .inr (.inr happend)⟩
  · rcases h.update hupdate with rfl | ⟨seqNum, -, ⟨k, old, hold, hfor, rfl⟩ | ⟨-, rfl⟩⟩
    · rfl
    · apply getLoop_set ((routeFromBlock_isFor seqNum).covers.trans hout)
      intro old' hold'
      rw [hold] at hold'
      cases hold'
      exact hfor.covers.trans hout
    · exact getLoop_append ((routeFromBlock_isFor seqNum).covers.trans hout)
  · rw [isSome_getForAddress_iff] at hsome ⊢
    rcases h.update hupdate with rfl | ⟨seqNum, -, ⟨k, old, hold, hfor, rfl⟩ | ⟨-, rfl⟩⟩
    · exact hsome
    · exact exists_covers_set hold hfor (routeFromBlock_isFor seqNum) hsome
    · obtain ⟨entry, hmem, hentry⟩ := hsome
      exact ⟨entry, List.mem_append_left _ hmem, hentry⟩
  · rw [findsLongest_iff]
    intro entry hmem hzero addr
    rcases h.update hupdate with rfl | ⟨seqNum, hne, ⟨k, old, hold, hfor, rfl⟩ | ⟨-, rfl⟩⟩
    · exact h.default entry hmem hzero addr
    · rcases List.mem_or_eq_of_mem_set hmem with hin | rfl
      · exact exists_covers_set hold hfor (routeFromBlock_isFor seqNum) (h.default entry hin hzero addr)
      · exact absurd hzero hne
    · rcases List.mem_append.mp hmem with hin | hnew
      · obtain ⟨other, hother, hcovers⟩ := h.default entry hin hzero addr
        exact ⟨other, List.mem_append_left _ hother, hcovers⟩
      · rw [List.mem_singleton.mp hnew] at hzero
        exact absurd hzero hne

end

/-- Updates are isolated exactly if a block that is taken meets the entry of its own network, and the empty
prefix is not needed. -/
theorem isolated_iff_separate (isRREQ : Bool) (nextHopAddress : IPAddress) (nextHopInterface : ℕ)
    (t : List Entry) (ab : Block) :
    Isolated isRREQ nextHopAddress nextHopInterface t ab ↔ Separate isRREQ t ab :=
  ⟨fun h ↦ h.separate, fun h ↦ h.isolated⟩

/-- A route to 10.0.0.0/8. -/
def networkRoute : Entry where
  routeAddress := 0x0A000000
  routeSeqNum := 1
  routeNextHopAddress := 0xC0000001
  routeNextHopInterface := 0
  routeBroken := false
  routeDist := 1
  routePrefix := 8

/-- A block of the host 10.0.0.1. -/
def hostBlock : Block where
  address := 0x0A000001
  seqNum := some 2
  dist := some 0
  blockPrefix := none

/-- The block overwrites the route of the network, and 10.0.0.2 is left without one. -/
theorem not_isolated_host_in_network : ¬ Isolated false 0xC0000002 0 [networkRoute] hostBlock := by
  intro h
  have hupdate : updateRoutesFromAddressBlock false 0xC0000002 0 [networkRoute] hostBlock =
      .ok ([routeFromBlock 0xC0000002 0 hostBlock 2], true) := by
    rfl
  have hcovered := h.covered _ true hupdate 0x0A000002
  exact absurd (hcovered (by decide)) (by decide)

end InetManet.DYMO.Prefixes
