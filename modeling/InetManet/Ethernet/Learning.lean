import InetManet.Ethernet.RelayUnit
import Mathlib.Data.List.Induction

/-!
# What a switch has learned

The switch is watched over whole runs: the log says which address was seen as a source on which port,
and which address was evicted from a full table, the newest first. The entry of an address is where it
was last seen, and an address that was seen not too long ago and not evicted since has an entry. Every
frame goes where this says.
-/

namespace InetManet.Ethernet

open TransitionSystem

inductive Sighting
  | seen (address : MACAddress) (entry : AddressEntry)
  | evicted (address : MACAddress)

/-- Where and when the address was last seen. -/
def lastSeen (address : MACAddress) : List Sighting → Option AddressEntry
  | [] => none
  | .seen a entry :: log => if a = address then some entry else lastSeen address log
  | .evicted _ :: log => lastSeen address log

/-- Where and when the address was last seen, unless it has been evicted since. -/
def remembered (address : MACAddress) : List Sighting → Option AddressEntry
  | [] => none
  | .seen a entry :: log => if a = address then some entry else remembered address log
  | .evicted a :: log => if a = address then none else remembered address log

theorem lastSeen_of_remembered {address : MACAddress} {entry : AddressEntry} {log : List Sighting}
    (h : remembered address log = some entry) : lastSeen address log = some entry := by
  induction log with
  | nil => cases h
  | cons sighting log ih =>
    cases sighting with
    | seen a e =>
      rw [remembered] at h
      rw [lastSeen]
      split
      · rename_i ha
        rwa [if_pos ha] at h
      · rename_i ha
        rw [if_neg ha] at h
        exact ih h
    | evicted a =>
      rw [remembered] at h
      split at h
      · cases h
      · exact ih h

namespace MACRelayUnitBase

variable {s : MACRelayUnitBase} {simTime : ℚ} {address b : MACAddress} {portno : ℤ}
  {entry : AddressEntry}

/-- The address that makes room for a new one. -/
def evictedBy (s : MACRelayUnitBase) (simTime : ℚ) (address : MACAddress) : Option MACAddress :=
  if s.addresstable.find? address = none ∧ s.isFull ∧
      (s.removeAgedEntriesFromTable simTime).isFull then
    (s.removeAgedEntriesFromTable simTime).oldest simTime
  else none

/-! ## The oldest entry -/

theorem foldl_older {es : List (MACAddress × AddressEntry)} {bound : ℚ}
    {start : Option MACAddress × ℚ} (h : es.foldl older start = (some b, bound)) :
    bound ≤ start.2 ∧ (∀ e ∈ es, bound ≤ e.2.insertionTime) ∧
      (start = (some b, bound) ∨ ∃ entry, (b, entry) ∈ es ∧ entry.insertionTime = bound) := by
  induction es generalizing start with
  | nil =>
    cases h
    exact ⟨le_refl _, nofun, .inl rfl⟩
  | cons e es ih =>
    obtain ⟨hle, hall, hfrom⟩ := ih h
    unfold older at hle hfrom
    split at hle
    · rename_i hlt
      rw [if_pos hlt] at hfrom
      refine ⟨hle.trans hlt.le, ?_, ?_⟩
      · intro e' he'
        rcases List.mem_cons.mp he' with rfl | he'
        · exact hle
        · exact hall e' he'
      · right
        rcases hfrom with hfrom | ⟨entry, hmem, hentry⟩
        · cases hfrom
          exact ⟨e.2, List.mem_cons_self, rfl⟩
        · exact ⟨entry, List.mem_cons_of_mem _ hmem, hentry⟩
    · rename_i hlt
      rw [if_neg hlt] at hfrom
      refine ⟨hle, ?_, ?_⟩
      · intro e' he'
        rcases List.mem_cons.mp he' with rfl | he'
        · exact hle.trans (not_lt.mp hlt)
        · exact hall e' he'
      · rcases hfrom with hfrom | ⟨entry, hmem, hentry⟩
        · exact .inl hfrom
        · exact .inr ⟨entry, List.mem_cons_of_mem _ hmem, hentry⟩

/-- The oldest entry is in the table, and no entry is older. -/
theorem oldest_eq_some (h : s.oldest simTime = some b) :
    ∃ entry, s.addresstable.find? b = some entry ∧ ∀ a entry',
      s.addresstable.find? a = some entry' → entry.insertionTime ≤ entry'.insertionTime := by
  have hpair : s.addresstable.entries.foldl older (none, simTime + 1) =
      (some b, (s.addresstable.entries.foldl older (none, simTime + 1)).2) := Prod.ext h rfl
  obtain ⟨_, hall, hfrom⟩ := foldl_older hpair
  rcases hfrom with hfrom | ⟨entry, hmem, hentry⟩
  · cases hfrom
  · refine ⟨entry, OrderedMap.find?_eq_some_iff.mpr hmem, ?_⟩
    intro a entry' ha
    rw [hentry]
    exact hall _ (OrderedMap.find?_eq_some_iff.mp ha)

theorem foldl_older_ne_none {es : List (MACAddress × AddressEntry)} {start : Option MACAddress × ℚ}
    (h : (es.foldl older start).1 = none) :
    start.1 = none ∧ ∀ e ∈ es, start.2 ≤ e.2.insertionTime := by
  induction es generalizing start with
  | nil => exact ⟨h, nofun⟩
  | cons e es ih =>
    obtain ⟨hnone, hall⟩ := ih h
    unfold older at hnone hall
    split at hnone
    · cases hnone
    · rename_i hlt
      rw [if_neg hlt] at hall
      refine ⟨hnone, ?_⟩
      intro e' he'
      rcases List.mem_cons.mp he' with rfl | he'
      · exact not_lt.mp hlt
      · exact hall e' he'

theorem exists_oldest (hpos : 0 < s.addresstable.size)
    (htimes : ∀ a entry, s.addresstable.find? a = some entry → entry.insertionTime ≤ simTime) :
    ∃ b, s.oldest simTime = some b := by
  cases hold : s.oldest simTime with
  | some b => exact ⟨b, rfl⟩
  | none =>
    obtain ⟨e, he⟩ := List.exists_mem_of_length_pos hpos
    have hle := (foldl_older_ne_none hold).2 e he
    have hnow := htimes e.1 e.2 (OrderedMap.find?_eq_some_iff.mpr he)
    dsimp only at hle
    linarith

/-! ## Entering an address -/

theorem makeRoom_eq (s : MACRelayUnitBase) (simTime : ℚ) :
    s.makeRoom simTime = { s with addresstable := (s.makeRoom simTime).addresstable } := by
  unfold makeRoom removeOldestTableEntry removeAgedEntriesFromTable
  repeat' split
  all_goals rfl

theorem updateTableWithAddress_eq (s : MACRelayUnitBase) (simTime : ℚ) (address : MACAddress)
    (portno : ℤ) : s.updateTableWithAddress simTime address portno =
      { s with addresstable := (s.updateTableWithAddress simTime address portno).addresstable } := by
  unfold updateTableWithAddress
  split
  · dsimp only
    rw [makeRoom_eq]
  · rfl

theorem find?_removeAged :
    (s.removeAgedEntriesFromTable simTime).addresstable.find? b = some entry ↔
      s.addresstable.find? b = some entry ∧ s.isAged simTime entry = false := by
  unfold removeAgedEntriesFromTable
  rw [OrderedMap.find?_filter_eq_some, Bool.not_eq_true']

theorem find?_removeOldest :
    (s.removeOldestTableEntry simTime).addresstable.find? b = some entry ↔
      s.addresstable.find? b = some entry ∧ s.oldest simTime ≠ some b := by
  unfold removeOldestTableEntry
  cases hold : s.oldest simTime with
  | none => simp
  | some a =>
    dsimp only
    rw [OrderedMap.find?_erase]
    by_cases hb : b = a
    · simp [hb]
    · simp [hb, Ne.symm hb]

/-- What is in the table when room has been made was there before. -/
theorem of_find?_makeRoom (h : (s.makeRoom simTime).addresstable.find? b = some entry) :
    s.addresstable.find? b = some entry := by
  unfold makeRoom at h
  split at h
  · split at h
    · exact (find?_removeAged.mp (find?_removeOldest.mp h).1).1
    · exact (find?_removeAged.mp h).1
  · exact h

/-- An entry that is not aged stays unless it is evicted. -/
theorem find?_makeRoom (haddress : s.addresstable.find? address = none)
    (h : s.addresstable.find? b = some entry) (hnew : s.isAged simTime entry = false)
    (hevicted : s.evictedBy simTime address ≠ some b) :
    (s.makeRoom simTime).addresstable.find? b = some entry := by
  unfold evictedBy at hevicted
  unfold makeRoom
  split
  · rename_i hfull
    split
    · rename_i hfull'
      rw [if_pos ⟨haddress, hfull, hfull'⟩] at hevicted
      exact find?_removeOldest.mpr ⟨find?_removeAged.mpr ⟨h, hnew⟩, hevicted⟩
    · exact find?_removeAged.mpr ⟨h, hnew⟩
  · exact h

theorem find?_makeRoom_evicted (h : s.evictedBy simTime address = some b) :
    (s.makeRoom simTime).addresstable.find? b = none := by
  unfold evictedBy at h
  split at h
  · rename_i hcond
    obtain ⟨_, hfull, hfull'⟩ := hcond
    unfold makeRoom
    rw [if_pos hfull, if_pos hfull']
    apply Option.eq_none_iff_forall_ne_some.mpr
    intro entry hentry
    exact (find?_removeOldest.mp hentry).2 h
  · cases h

@[simp] theorem find?_update_self :
    (s.updateTableWithAddress simTime address portno).addresstable.find? address =
      some ⟨portno, simTime⟩ := by
  unfold updateTableWithAddress
  split
  · exact OrderedMap.find?_insert_self
  · exact OrderedMap.find?_insert_self

theorem of_find?_update (hb : b ≠ address)
    (h : (s.updateTableWithAddress simTime address portno).addresstable.find? b = some entry) :
    s.addresstable.find? b = some entry ∧ s.evictedBy simTime address ≠ some b := by
  unfold updateTableWithAddress at h
  split at h
  · rw [OrderedMap.find?_insert_of_ne hb] at h
    refine ⟨of_find?_makeRoom h, ?_⟩
    intro hevicted
    rw [find?_makeRoom_evicted hevicted] at h
    cases h
  · rename_i hsome
    rw [OrderedMap.find?_insert_of_ne hb] at h
    refine ⟨h, ?_⟩
    unfold evictedBy
    rw [hsome]
    simp

/-- An entry that is not aged stays unless it is evicted. -/
theorem find?_update (hb : b ≠ address) (h : s.addresstable.find? b = some entry)
    (hnew : s.isAged simTime entry = false) (hevicted : s.evictedBy simTime address ≠ some b) :
    (s.updateTableWithAddress simTime address portno).addresstable.find? b = some entry := by
  unfold updateTableWithAddress
  split
  · rename_i hnone
    rw [OrderedMap.find?_insert_of_ne hb]
    exact find?_makeRoom hnone h hnew hevicted
  · rw [OrderedMap.find?_insert_of_ne hb]
    exact h

/-! ## Eviction -/

/-- Only a table that is full of entries that are not aged loses one that is not aged, and it loses the
one that was least recently updated. -/
theorem evictedBy_eq_some (h : s.evictedBy simTime address = some b) :
    s.addressTableSize ≠ 0 ∧ s.addresstable.size = s.addressTableSize ∧
    (∀ a entry, s.addresstable.find? a = some entry → s.isAged simTime entry = false) ∧
    ∃ entry, s.addresstable.find? b = some entry ∧ ∀ a entry',
      s.addresstable.find? a = some entry' → entry.insertionTime ≤ entry'.insertionTime := by
  unfold evictedBy at h
  split at h
  · rename_i hcond
    obtain ⟨_, hfull, hfull'⟩ := hcond
    unfold isFull at hfull hfull'
    rw [Bool.and_eq_true, bne_iff_ne, beq_iff_eq] at hfull hfull'
    have hlength : (s.removeAgedEntriesFromTable simTime).addresstable.size =
        s.addresstable.size := hfull'.2.trans hfull.2.symm
    have hnew : ∀ a entry, s.addresstable.find? a = some entry →
        s.isAged simTime entry = false := by
      intro a entry ha
      have hkept := List.length_filter_eq_length_iff.mp hlength (a, entry)
        (OrderedMap.find?_eq_some_iff.mp ha)
      rwa [Bool.not_eq_true'] at hkept
    obtain ⟨entry, hb, hleast⟩ := oldest_eq_some h
    refine ⟨hfull.1, hfull.2, hnew, entry, (find?_removeAged.mp hb).1, ?_⟩
    intro a entry' ha
    exact hleast a entry' (find?_removeAged.mpr ⟨ha, hnew a entry' ha⟩)
  · cases h

theorem size_makeRoom (hpos : s.addressTableSize ≠ 0)
    (hsize : s.addresstable.size ≤ s.addressTableSize)
    (htimes : ∀ a entry, s.addresstable.find? a = some entry → entry.insertionTime ≤ simTime) :
    (s.makeRoom simTime).addresstable.size < s.addressTableSize := by
  have hle : (s.removeAgedEntriesFromTable simTime).addresstable.size ≤ s.addresstable.size :=
    List.length_filter_le _ _
  have hsame : (s.removeAgedEntriesFromTable simTime).addressTableSize = s.addressTableSize := rfl
  unfold makeRoom
  split
  · split
    · rename_i hfull
      unfold isFull at hfull
      rw [Bool.and_eq_true, bne_iff_ne, beq_iff_eq] at hfull
      have holdest : ∃ b, (s.removeAgedEntriesFromTable simTime).oldest simTime = some b := by
        apply exists_oldest
        · omega
        · intro a entry ha
          exact htimes a entry (find?_removeAged.mp ha).1
      obtain ⟨b, hb⟩ := holdest
      obtain ⟨entry, hentry, _⟩ := oldest_eq_some hb
      have herase := OrderedMap.size_erase hentry
      unfold removeOldestTableEntry
      rw [hb]
      dsimp only
      omega
    · rename_i hfull
      unfold isFull at hfull
      rw [Bool.and_eq_true, bne_iff_ne, beq_iff_eq] at hfull
      have hne : (s.removeAgedEntriesFromTable simTime).addresstable.size ≠ s.addressTableSize :=
        fun heq ↦ hfull ⟨hpos, heq⟩
      omega
  · rename_i hfull
    unfold isFull at hfull
    rw [Bool.and_eq_true, bne_iff_ne, beq_iff_eq] at hfull
    have hne : s.addresstable.size ≠ s.addressTableSize := fun heq ↦ hfull ⟨hpos, heq⟩
    omega

theorem size_update (hpos : s.addressTableSize ≠ 0)
    (hsize : s.addresstable.size ≤ s.addressTableSize)
    (htimes : ∀ a entry, s.addresstable.find? a = some entry → entry.insertionTime ≤ simTime) :
    (s.updateTableWithAddress simTime address portno).addresstable.size ≤ s.addressTableSize := by
  unfold updateTableWithAddress
  split
  · rename_i hnone
    have hroom := size_makeRoom hpos hsize htimes
    have hnone' : (s.makeRoom simTime).addresstable.find? address = none := by
      apply Option.eq_none_iff_forall_ne_some.mpr
      intro entry hentry
      rw [of_find?_makeRoom hentry] at hnone
      cases hnone
    rw [OrderedMap.size_insert_of_none hnone']
    exact hroom
  · rename_i hsome
    rw [OrderedMap.size_insert_of_some hsome]
    exact hsize

/-! ## What the switch knows -/

/-- The table and the log agree. -/
structure Knows (s : MACRelayUnitBase) (simTime : ℚ) (log : List Sighting) : Prop where
  current : ∀ a entry, s.addresstable.find? a = some entry → remembered a log = some entry
  complete : ∀ a entry, remembered a log = some entry → s.isAged simTime entry = false →
    s.addresstable.find? a = some entry
  times : ∀ a entry, s.addresstable.find? a = some entry → entry.insertionTime ≤ simTime

variable {log : List Sighting}

theorem isAged_mono {now : ℚ} (hle : now ≤ simTime) (h : s.isAged simTime entry = false) :
    s.isAged now entry = false := by
  unfold isAged at *
  rw [decide_eq_false_iff_not, not_le] at *
  exact hle.trans_lt h

/-- The log when the address has been entered. -/
def learned (s : MACRelayUnitBase) (simTime : ℚ) (address : MACAddress) (portno : ℤ)
    (log : List Sighting) : List Sighting :=
  .seen address ⟨portno, simTime⟩ ::
    ((s.evictedBy simTime address).map Sighting.evicted).toList ++ log

theorem remembered_learned (hb : b ≠ address) :
    remembered b (s.learned simTime address portno log) =
      if s.evictedBy simTime address = some b then none else remembered b log := by
  unfold learned
  rw [List.cons_append, remembered, if_neg hb.symm]
  cases s.evictedBy simTime address with
  | none => rfl
  | some a => simp [remembered]

theorem Knows.update {now : ℚ} (h : s.Knows now log) (hle : now ≤ simTime) :
    (s.updateTableWithAddress simTime address portno).Knows simTime
      (s.learned simTime address portno log) := by
  have haged (entry : AddressEntry) :
      (s.updateTableWithAddress simTime address portno).isAged simTime entry =
        s.isAged simTime entry := by
    rw [updateTableWithAddress_eq]
    rfl
  constructor
  · intro a entry ha
    by_cases haddress : a = address
    · subst haddress
      rw [find?_update_self] at ha
      simpa [learned, remembered] using ha
    · obtain ⟨hbefore, hevicted⟩ := of_find?_update haddress ha
      rw [remembered_learned haddress, if_neg hevicted]
      exact h.current a entry hbefore
  · intro a entry ha hnew
    rw [haged] at hnew
    by_cases haddress : a = address
    · subst haddress
      rw [find?_update_self]
      simpa [learned, remembered] using ha
    · rw [remembered_learned haddress] at ha
      split at ha
      · cases ha
      · rename_i hevicted
        have hbefore := h.complete a entry ha (isAged_mono hle hnew)
        exact find?_update haddress hbefore hnew hevicted
  · intro a entry ha
    by_cases haddress : a = address
    · subst haddress
      rw [find?_update_self, Option.some.injEq] at ha
      rw [← ha]
    · exact (h.times a entry (of_find?_update haddress ha).1).trans hle

/-- The port where the address was last seen, if that was not too long ago and it has not been evicted
since. -/
def knownPort (s : MACRelayUnitBase) (simTime : ℚ) (address : MACAddress) (log : List Sighting) :
    Option ℤ :=
  ((remembered address log).filter fun entry ↦ !s.isAged simTime entry).map AddressEntry.portno

theorem Knows.fst_getPortForAddress (h : s.Knows simTime log) :
    (s.getPortForAddress simTime address).1 = (s.knownPort simTime address log).getD (-1) := by
  unfold getPortForAddress knownPort
  cases hfind : s.addresstable.find? address with
  | none =>
    cases hlog : remembered address log with
    | none => rfl
    | some entry =>
      -- a remembered address without an entry is too old
      have haged : s.isAged simTime entry = true := by
        apply Bool.eq_true_of_not_eq_false
        intro hnew
        rw [h.complete address entry hlog hnew] at hfind
        cases hfind
      simp [Option.filter, haged]
  | some entry =>
    rw [h.current address entry hfind]
    dsimp only
    split
    · rename_i haged
      simp [Option.filter, haged]
    · rename_i hnew
      simp [Option.filter, Bool.eq_false_of_not_eq_true hnew]

theorem snd_getPortForAddress (s : MACRelayUnitBase) (simTime : ℚ) (address : MACAddress) :
    (s.getPortForAddress simTime address).2 = s ∨ ∃ entry,
      s.addresstable.find? address = some entry ∧ s.isAged simTime entry = true ∧
      (s.getPortForAddress simTime address).2 =
        { s with addresstable := s.addresstable.erase address } := by
  unfold getPortForAddress
  cases hfind : s.addresstable.find? address with
  | none => exact .inl rfl
  | some entry =>
    dsimp only
    split
    · rename_i haged
      exact .inr ⟨entry, rfl, haged, rfl⟩
    · exact .inl rfl

theorem Knows.snd_getPortForAddress (h : s.Knows simTime log) :
    (s.getPortForAddress simTime address).2.Knows simTime log := by
  rcases MACRelayUnitBase.snd_getPortForAddress s simTime address with hsame | ⟨entry, hfind, haged, heq⟩
  · rw [hsame]
    exact h
  · rw [heq]
    have hkept {a : MACAddress} {entry' : AddressEntry}
        (ha : (s.addresstable.erase address).find? a = some entry') :
        s.addresstable.find? a = some entry' := by
      rw [OrderedMap.find?_erase] at ha
      split at ha
      · cases ha
      · exact ha
    refine ⟨fun a entry' ha ↦ h.current a entry' (hkept ha), ?_,
      fun a entry' ha ↦ h.times a entry' (hkept ha)⟩
    intro a entry' ha hnew
    have hbefore := h.complete a entry' ha hnew
    have hne : a ≠ address := by
      rintro rfl
      rw [hfind, Option.some.injEq] at hbefore
      subst hbefore
      rw [show s.isAged simTime entry = false from hnew] at haged
      cases haged
    dsimp only
    rw [OrderedMap.find?_erase_of_ne hne]
    exact hbefore

/-! ## Runs -/

end MACRelayUnitBase

/-- A frame arrives at a port. -/
structure Arrival where
  time : ℚ
  frame : EtherFrame
  inputport : ℕ

/-- A switch, the time of its last event and the log. -/
structure Watched where
  relay : MACRelayUnitBase
  now : ℚ
  log : List Sighting

namespace Watched

open MACRelayUnitBase

variable {w w₀ : Watched} {e : Arrival}

/-- What has been seen when the source of the frame has been entered. -/
def learned (w : Watched) (e : Arrival) : List Sighting :=
  w.relay.learned e.time e.frame.src e.inputport w.log

def step (w : Watched) (e : Arrival) : Except Fault Watched := do
  let (_, relay) ← w.relay.handleAndDispatchFrame e.time e.frame e.inputport
  return ⟨relay, e.time, w.learned e⟩

/-- Time does not go back, and frames come from the ports of the switch. -/
def Allowed (w : Watched) (e : Arrival) : Prop := w.now ≤ e.time ∧ e.inputport < w.relay.numPorts

/-- The switch after its initialization, with the addresses of the table file as seen at time 0. -/
def start (numPorts : ℕ) (addressTableSize : ℤ) (agingTime : ℚ)
    (entries : List (MACAddress × ℤ)) : Watched where
  relay := initialized numPorts addressTableSize agingTime entries
  now := 0
  log := (entries.map fun e ↦ Sighting.seen e.1 ⟨e.2, 0⟩).reverse

/-- The port of the destination as far as it is known when the frame is dispatched. -/
def destPort (w : Watched) (e : Arrival) : Option ℤ :=
  w.relay.knownPort e.time e.frame.dest (w.learned e)

/-- A frame to a known port is sent there and nowhere else, or dropped if it came from there; every
other frame is sent once on each of the other ports. -/
structure Forwarded (w : Watched) (e : Arrival) : Prop where
  flooded : e.frame.dest.isBroadcast = true ∨ w.destPort e = none →
    ∃ relay, w.relay.handleAndDispatchFrame e.time e.frame e.inputport =
      .ok ((List.range w.relay.numPorts).filter (· != e.inputport), relay)
  dropped : e.frame.dest.isBroadcast = false → w.destPort e = some (e.inputport : ℤ) →
    ∃ relay, w.relay.handleAndDispatchFrame e.time e.frame e.inputport = .ok ([], relay)
  forwarded : ∀ q : ℕ, e.frame.dest.isBroadcast = false → w.destPort e = some (q : ℤ) →
    q ≠ e.inputport → q < w.relay.numPorts →
    ∃ relay, w.relay.handleAndDispatchFrame e.time e.frame e.inputport = .ok ([q], relay)

/-- An entry that is not aged goes only when it is evicted. This happens only when the table is full of
entries that are not aged, and to one that was least recently updated. -/
structure Evicting (w : Watched) (e : Arrival) : Prop where
  lost : ∀ w' a entry, w.step e = .ok w' → w.relay.addresstable.find? a = some entry →
    w.relay.isAged e.time entry = false → w'.relay.addresstable.find? a = none →
    w.relay.evictedBy e.time e.frame.src = some a
  full : ∀ a, w.relay.evictedBy e.time e.frame.src = some a →
    w.relay.addressTableSize ≠ 0 ∧ w.relay.addresstable.size = w.relay.addressTableSize ∧
    (∀ a' entry', w.relay.addresstable.find? a' = some entry' →
      w.relay.isAged e.time entry' = false) ∧
    ∃ entry, w.relay.addresstable.find? a = some entry ∧ ∀ a' entry',
      w.relay.addresstable.find? a' = some entry' → entry.insertionTime ≤ entry'.insertionTime

/-- What every run keeps. -/
structure Inv (w : Watched) : Prop where
  knows : w.relay.Knows w.now w.log
  aging : 0 < w.relay.agingTime

/-- The table is limited, and within its limit. -/
def Sized (w : Watched) : Prop :=
  w.relay.addressTableSize ≠ 0 ∧ w.relay.addresstable.size ≤ w.relay.addressTableSize

/-- A frame leaves the table as it is when its source has been entered and its destination has been
looked up. -/
theorem outcome_handleAndDispatchFrame (s : MACRelayUnitBase) (simTime : ℚ) (frame : EtherFrame)
    (inputport : ℕ) :
    Outcome (s.handleAndDispatchFrame simTime frame inputport)
      (fun x ↦ x.2 = s.updateTableWithAddress simTime frame.src inputport ∨
        x.2 = ((s.updateTableWithAddress simTime frame.src inputport).getPortForAddress simTime
          frame.dest).2) fun _ ↦ True := by
  unfold handleAndDispatchFrame
  dsimp only
  apply Outcome.ite
  · intro _
    exact .inl rfl
  · intro _
    apply Outcome.ite
    · intro _
      exact .inr rfl
    · intro _
      apply Outcome.ite
      · intro _
        apply Outcome.ite
        · intro _
          exact .inr rfl
        · intro _
          trivial
      · intro _
        exact .inr rfl

/-- What holds of the table after the source has been entered, and stays when the destination is looked
up, holds after the step. -/
theorem outcome_step {P : MACRelayUnitBase → Prop}
    (hupdate : P (w.relay.updateTableWithAddress e.time e.frame.src e.inputport))
    (hlookup : ∀ s, P s → P (s.getPortForAddress e.time e.frame.dest).2) :
    Outcome (w.step e) (fun w' ↦ P w'.relay ∧ w'.now = e.time ∧ w'.log = w.learned e)
      fun _ ↦ True := by
  unfold step
  apply (outcome_handleAndDispatchFrame w.relay e.time e.frame e.inputport).bind
  intro x hx
  refine ⟨?_, rfl, rfl⟩
  dsimp only
  rcases hx with hx | hx
  · rw [hx]
    exact hupdate
  · rw [hx]
    exact hlookup _ hupdate

theorem agingTime_getPortForAddress (s : MACRelayUnitBase) (simTime : ℚ) (address : MACAddress) :
    (s.getPortForAddress simTime address).2.agingTime = s.agingTime := by
  rcases snd_getPortForAddress s simTime address with hsame | ⟨_, _, _, heq⟩
  · rw [hsame]
  · rw [heq]

theorem Inv.step (h : w.Inv) (he : w.Allowed e) : Outcome (w.step e) Inv fun _ ↦ True := by
  apply (outcome_step (P := fun s ↦ s.Knows e.time (w.learned e) ∧ 0 < s.agingTime) _ _).post
  · intro w' hw'
    obtain ⟨⟨hknows, haging⟩, hnow, hlog⟩ := hw'
    refine ⟨?_, haging⟩
    rw [hnow, hlog]
    exact hknows
  · refine ⟨h.knows.update he.1, ?_⟩
    rw [updateTableWithAddress_eq]
    exact h.aging
  · intro s hs
    rw [agingTime_getPortForAddress]
    exact ⟨hs.1.snd_getPortForAddress, hs.2⟩

theorem Sized.step (h : w.Sized) (hw : w.Inv) (he : w.Allowed e) :
    Outcome (w.step e) Sized fun _ ↦ True := by
  apply (outcome_step (P := fun s ↦ s.addressTableSize ≠ 0 ∧
    s.addresstable.size ≤ s.addressTableSize) _ _).post
  · intro w' hw'
    exact hw'.1
  · have hsize : (w.relay.updateTableWithAddress e.time e.frame.src
        e.inputport).addresstable.size ≤ w.relay.addressTableSize := by
      apply size_update h.1 h.2
      intro a entry ha
      exact (hw.knows.times a entry ha).trans he.1
    rw [updateTableWithAddress_eq]
    exact ⟨h.1, hsize⟩
  · intro s hs
    rcases snd_getPortForAddress s e.time e.frame.dest with hsame | ⟨_, _, _, heq⟩
    · rw [hsame]
      exact hs
    · rw [heq]
      exact ⟨hs.1, (List.length_filter_le _ _).trans hs.2⟩

theorem Inv.forwarded (h : w.Inv) (he : w.Allowed e) : w.Forwarded e := by
  have hports : (w.relay.updateTableWithAddress e.time e.frame.src e.inputport).numPorts =
      w.relay.numPorts := by
    rw [updateTableWithAddress_eq]
  have hports' : ((w.relay.updateTableWithAddress e.time e.frame.src
      e.inputport).getPortForAddress e.time e.frame.dest).2.numPorts = w.relay.numPorts := by
    rcases snd_getPortForAddress (w.relay.updateTableWithAddress e.time e.frame.src e.inputport)
      e.time e.frame.dest with hsame | ⟨_, _, _, heq⟩
    · rw [hsame, hports]
    · rw [heq, ← hports]
  have hknown : (w.relay.updateTableWithAddress e.time e.frame.src e.inputport).knownPort e.time
      e.frame.dest (w.learned e) = w.destPort e := by
    rw [updateTableWithAddress_eq]
    rfl
  have hport' : ((w.relay.updateTableWithAddress e.time e.frame.src
      e.inputport).getPortForAddress e.time e.frame.dest).1 = (w.destPort e).getD (-1) := by
    have hknows : (w.relay.updateTableWithAddress e.time e.frame.src e.inputport).Knows e.time
        (w.learned e) := h.knows.update he.1
    rw [hknows.fst_getPortForAddress, hknown]
  constructor
  · intro hcases
    unfold handleAndDispatchFrame
    dsimp only
    by_cases hbroadcast : e.frame.dest.isBroadcast = true
    · rw [if_pos hbroadcast, broadcastFrame, hports]
      exact ⟨_, rfl⟩
    · have hunknown := hcases.resolve_left hbroadcast
      rw [hunknown] at hport'
      rw [if_neg hbroadcast, hport', Option.getD_none, if_neg (by omega), if_neg (by omega),
        broadcastFrame, hports']
      exact ⟨_, rfl⟩
  · intro hbroadcast hknown'
    unfold handleAndDispatchFrame
    dsimp only
    rw [hbroadcast, hport', hknown']
    exact ⟨_, if_pos rfl⟩
  · intro q hbroadcast hknown' hne hlt
    unfold handleAndDispatchFrame
    dsimp only
    rw [hbroadcast, hport', hknown', Option.getD_some, hports', if_neg (by simp),
      if_neg (by omega), if_pos (by omega), if_pos (by omega), Int.toNat_natCast]
    exact ⟨_, rfl⟩

theorem Inv.evicting (h : w.Inv) (e : Arrival) : w.Evicting e := by
  refine ⟨?_, fun a ha ↦ evictedBy_eq_some ha⟩
  intro w' a entry hstep ha hnew hlost
  apply Classical.byContradiction
  intro hevicted
  -- an entry that is not aged and not evicted survives both halves of the step
  have hkept : ∃ entry', w'.relay.addresstable.find? a = some entry' := by
    have hout := outcome_step (w := w) (e := e) (P := fun s ↦ ∃ entry',
      s.addresstable.find? a = some entry' ∧ s.isAged e.time entry' = false) ?_ ?_
    · obtain ⟨entry', hentry', _⟩ := (hout.of_eq_ok hstep).1
      exact ⟨entry', hentry'⟩
    · by_cases hsrc : a = e.frame.src
      · subst hsrc
        refine ⟨_, find?_update_self, ?_⟩
        rw [updateTableWithAddress_eq]
        have hpos := h.aging
        unfold isAged
        rw [decide_eq_false_iff_not, not_le]
        dsimp only
        linarith
      · refine ⟨entry, find?_update hsrc ha hnew hevicted, ?_⟩
        rw [updateTableWithAddress_eq]
        exact hnew
    · intro s hs
      obtain ⟨entry', hentry', hnew'⟩ := hs
      rcases snd_getPortForAddress s e.time e.frame.dest with hsame | ⟨old, hold, haged, heq⟩
      · rw [hsame]
        exact ⟨entry', hentry', hnew'⟩
      · rw [heq]
        refine ⟨entry', ?_, hnew'⟩
        have hne : a ≠ e.frame.dest := by
          rintro rfl
          rw [hold, Option.some.injEq] at hentry'
          rw [hentry', hnew'] at haged
          cases haged
        dsimp only
        rw [OrderedMap.find?_erase_of_ne hne]
        exact hentry'
  obtain ⟨entry', hentry'⟩ := hkept
  rw [hlost] at hentry'
  cases hentry'

/-! ## The table file -/

theorem knows_start (numPorts : ℕ) (addressTableSize : ℤ) (agingTime : ℚ)
    (entries : List (MACAddress × ℤ)) :
    (initialized numPorts addressTableSize agingTime entries).Knows 0
      (entries.map fun e ↦ Sighting.seen e.1 ⟨e.2, 0⟩).reverse := by
  have hfind (a : MACAddress) : (readAddressTable entries).find? a =
      remembered a (entries.map fun e ↦ Sighting.seen e.1 ⟨e.2, 0⟩).reverse := by
    induction entries using List.reverseRecOn with
    | nil => rfl
    | append_singleton entries e ih =>
      unfold readAddressTable at *
      rw [List.foldl_concat, OrderedMap.find?_insert, ih, List.map_append, List.reverse_append]
      by_cases ha : a = e.1
      · simp [ha, remembered]
      · simp [ha, Ne.symm ha, remembered]
  have htime (a : MACAddress) (entry : AddressEntry)
      (ha : remembered a (entries.map fun e ↦ Sighting.seen e.1 ⟨e.2, 0⟩).reverse = some entry) :
      entry.insertionTime ≤ 0 := by
    rw [← hfind a] at ha
    clear hfind
    induction entries using List.reverseRecOn with
    | nil => cases ha
    | append_singleton entries e ih =>
      unfold readAddressTable at *
      rw [List.foldl_concat, OrderedMap.find?_insert] at ha
      split at ha
      · cases ha
        exact le_refl _
      · exact ih ha
  refine ⟨fun a entry ha ↦ ?_, fun a entry ha _ ↦ ?_, fun a entry ha ↦ ?_⟩
  · rw [← hfind a]
    exact ha
  · rw [← hfind a] at ha
    exact ha
  · apply htime a
    rw [← hfind a]
    exact ha

theorem inv_start (numPorts : ℕ) (addressTableSize : ℤ) (agingTime : ℚ)
    (entries : List (MACAddress × ℤ)) :
    (start numPorts addressTableSize agingTime entries).Inv := by
  refine ⟨knows_start numPorts addressTableSize agingTime entries, ?_⟩
  show (0 : ℚ) < if 0 < agingTime then agingTime else 10
  split
  · assumption
  · norm_num

/-- What holds of the switch in every run. A destination counts as known if it was seen as a source less
than `agingTime` ago and has not been evicted since. -/
theorem learning_switch {numPorts : ℕ} {addressTableSize : ℤ} {agingTime : ℚ}
    {lines : List (List Char)}
    (hfile : start numPorts addressTableSize agingTime <$> readLines lines = .ok w₀)
    (h : Reachable (· = w₀) Allowed step w) :
    (w.relay.addresstable.entries.map Prod.fst).Nodup ∧
    (∀ a entry, w.relay.addresstable.find? a = some entry → lastSeen a w.log = some entry) ∧
    (w₀.Sized → w.relay.addresstable.size ≤ w.relay.addressTableSize) ∧
    ∀ e, w.Allowed e → w.Forwarded e ∧ w.Evicting e := by
  have hstart : w₀.Inv := by
    cases hentries : readLines lines with
    | error fault =>
      rw [hentries] at hfile
      cases hfile
    | ok entries =>
      rw [hentries] at hfile
      cases hfile
      exact inv_start numPorts addressTableSize agingTime entries
  have hw : w.Inv := by
    apply h.invariant
    · rintro _ rfl
      exact hstart
    · intro w e w' hw he hstep
      exact (hw.step he).of_eq_ok hstep
  refine ⟨w.relay.addresstable.nodup_keys, ?_, ?_, fun e he ↦ ⟨hw.forwarded he, hw.evicting e⟩⟩
  · intro a entry ha
    exact lastSeen_of_remembered (hw.knows.current a entry ha)
  · intro hsized
    have hboth : w.Inv ∧ w.Sized := by
      apply h.invariant
      · rintro _ rfl
        exact ⟨hstart, hsized⟩
      · intro w e w' hw he hstep
        exact ⟨(hw.1.step he).of_eq_ok hstep, (hw.2.step hw.1 he).of_eq_ok hstep⟩
    exact hboth.2.2

/-- The lines of a table file that lists two addresses. -/
def tableFile : List (List Char) :=
  ["# static entries".toList, "0A-AA-00-00-00-01 2".toList, "".toList,
    "810000000001\t2".toList]

/-- A frame from port 0 to an address of the table file. -/
def toListed (dest : MACAddress) : Arrival := ⟨1, ⟨0x0AAA00000002, dest⟩, 0⟩

theorem learning_switch_tableFile : ∃ w₀ w, start 3 8 120 <$> readLines tableFile = .ok w₀ ∧
    run step w₀ [toListed 0x0AAA00000001] = .ok w ∧ w.relay.addresstable.size ≤ 8 ∧
    w.Forwarded ⟨2, ⟨0x0AAA00000001, 0x0AAA00000002⟩, 2⟩ ∧
    w.destPort ⟨2, ⟨0x0AAA00000001, 0x0AAA00000002⟩, 2⟩ = some 0 := by
  have hcheck : (match start 3 8 120 <$> readLines tableFile with
      | .error _ => false
      | .ok w₀ => decide (w₀.now ≤ 1 ∧ 0 < w₀.relay.numPorts ∧ w₀.relay.addressTableSize = 8 ∧
          w₀.relay.addresstable.size ≤ 8) &&
        match run step w₀ [toListed 0x0AAA00000001] with
        | .error _ => false
        | .ok w => decide (w.now ≤ 2 ∧ 2 < w.relay.numPorts ∧ w.relay.addressTableSize = 8 ∧
            w.destPort ⟨2, ⟨0x0AAA00000001, 0x0AAA00000002⟩, 2⟩ = some 0)) = true := by
    decide +kernel
  cases hfile : start 3 8 120 <$> readLines tableFile with
  | error fault =>
    rw [hfile] at hcheck
    cases hcheck
  | ok w₀ =>
    rw [hfile] at hcheck
    dsimp only at hcheck
    rw [Bool.and_eq_true, decide_eq_true_eq] at hcheck
    obtain ⟨⟨hnow, hports, hlimit, hsize⟩, hcheck⟩ := hcheck
    cases hrun : run step w₀ [toListed 0x0AAA00000001] with
    | error fault =>
      rw [hrun] at hcheck
      cases hcheck
    | ok w =>
      rw [hrun] at hcheck
      obtain ⟨hnow', hports', hlimit', hport⟩ := of_decide_eq_true hcheck
      have hreach : Reachable (· = w₀) Allowed step w := by
        obtain ⟨w₁, h₁, hrun⟩ := bind_ok_iff.mp hrun
        cases hrun
        have hstart : Reachable (· = w₀) Allowed step w₀ := .start rfl
        have hallowed : w₀.Allowed (toListed 0x0AAA00000001) := ⟨hnow, hports⟩
        exact hstart.next hallowed h₁
      obtain ⟨_, _, hsized, hstep⟩ := learning_switch hfile hreach
      have hallowed : w.Allowed ⟨2, ⟨0x0AAA00000001, 0x0AAA00000002⟩, 2⟩ := ⟨hnow', hports'⟩
      refine ⟨w₀, w, rfl, hrun, ?_, (hstep _ hallowed).1, hport⟩
      rw [← hlimit']
      exact hsized ⟨by omega, by omega⟩

/-- A frame to a group address of the table file goes to the port listed there only. -/
theorem multicast_not_flooded : ∃ w₀ relay, start 3 8 120 <$> readLines tableFile = .ok w₀ ∧
    w₀.Allowed (toListed 0x810000000001) ∧
    (toListed 0x810000000001).frame.dest.isMulticast = true ∧
    w₀.relay.handleAndDispatchFrame 1 (toListed 0x810000000001).frame 0 = .ok ([2], relay) ∧
    [2] ≠ (List.range w₀.relay.numPorts).filter (· != 0) := by
  have hcheck : (match start 3 8 120 <$> readLines tableFile with
      | .error _ => false
      | .ok w₀ => decide (w₀.now ≤ 1 ∧ 0 < w₀.relay.numPorts ∧ w₀.relay.numPorts = 3) &&
        match w₀.relay.handleAndDispatchFrame 1 (toListed 0x810000000001).frame 0 with
        | .error _ => false
        | .ok x => decide (x.1 = [2])) = true := by
    decide +kernel
  cases hfile : start 3 8 120 <$> readLines tableFile with
  | error fault =>
    rw [hfile] at hcheck
    cases hcheck
  | ok w₀ =>
    rw [hfile] at hcheck
    dsimp only at hcheck
    rw [Bool.and_eq_true, decide_eq_true_eq] at hcheck
    obtain ⟨⟨hnow, hports, hthree⟩, hcheck⟩ := hcheck
    cases hrun : w₀.relay.handleAndDispatchFrame 1 (toListed 0x810000000001).frame 0 with
    | error fault =>
      rw [hrun] at hcheck
      cases hcheck
    | ok x =>
      rw [hrun] at hcheck
      have hsent : x.1 = [2] := of_decide_eq_true hcheck
      refine ⟨w₀, x.2, rfl, ⟨hnow, hports⟩, by decide, ?_, ?_⟩
      · rw [hrun, ← hsent]
      · rw [hthree]
        decide

end Watched

end InetManet.Ethernet
