import InetManet.Library.OrderedMap
import InetManet.Network.Address
import InetManet.Network.ReassemblyBuffer
import Mathlib.Data.Prod.Lex
import Mathlib.Data.Set.List

/-!
# Fragment buffers

A map keeps a reassembly buffer for each datagram whose fragments have not all come. What the buffers are
for is said by the pieces that have come since a datagram was last complete or given up. The two go together
until a datagram comes in one piece, whose buffer is erased by an iterator that does not point to it, or a
datagram is given up of which no piece with the message has come.
-/

namespace InetManet

namespace FragBuf

inductive Fault
  | endlessLoop
  | eraseEnd
  | nullDatagram
  deriving DecidableEq

/-- How the two kinds of fragment buffers read a fragment of type `δ`. -/
structure Layout (δ κ : Type) where
  key : δ → κ
  beg : δ → BitVec 16
  stop : δ → BitVec 16
  islast : δ → Bool
  encapsulatedMsg : δ → Bool
  headerLength : δ → ℤ
  setByteLength : δ → ℤ → δ

structure DatagramBuffer (δ : Type) where
  buf : ReassemblyBuffer := {}
  datagram : Option δ := none
  lastupdate : ℤ := 0

abbrev Buffers (κ δ : Type) [LinearOrder κ] := OrderedMap κ (DatagramBuffer δ)

variable {κ δ : Type} [LinearOrder κ] (L : Layout δ κ)

/-- The buffers and, if it is complete, the datagram. A buffer made by this call is in the map, but the
iterator is still the end of it. -/
def addFragment (bufs : Buffers κ δ) (datagram : δ) (now : ℤ) : Except Fault (Buffers κ δ × Option δ) :=
  let found := bufs.find? (L.key datagram)
  let buf := found.getD {}
  match buf.buf.addFragment (L.beg datagram) (L.stop datagram) (L.islast datagram) with
  | none => .error .endlessLoop
  | some (b, isComplete) =>
    let stored := if L.encapsulatedMsg datagram then some datagram else buf.datagram
    if isComplete then
      match stored with
      | none => .error .nullDatagram
      | some ret =>
        if found.isNone then .error .eraseEnd
        else .ok (bufs.erase (L.key datagram),
          some (L.setByteLength ret (L.headerLength ret + b.getTotalLength.toNat)))
    else .ok (bufs.insert (L.key datagram) ⟨b, stored, now⟩, none)

/-- The loop over the buffers, with the datagrams that `sendErrorMessage` gets. -/
def purgeLoop (lastupdate : ℤ) :
    List (κ × DatagramBuffer δ) → Buffers κ δ → Except Fault (Buffers κ δ × List δ)
  | [], bufs => .ok (bufs, [])
  | (key, buf) :: rest, bufs =>
    if buf.lastupdate < lastupdate then
      match buf.datagram with
      | none => .error .nullDatagram
      | some datagram => do
        let (bufs, errors) ← purgeLoop lastupdate rest (bufs.erase key)
        .ok (bufs, datagram :: errors)
    else purgeLoop lastupdate rest bufs

def purgeStaleFragments (bufs : Buffers κ δ) (lastupdate : ℤ) : Except Fault (Buffers κ δ × List δ) :=
  purgeLoop lastupdate bufs.entries bufs

end FragBuf

/-! ## IPv4 and IPv6 -/

namespace IPFragBuf

structure IPDatagram where
  identification : ℤ
  srcAddress : IPAddress
  destAddress : IPAddress
  fragmentOffset : ℤ
  moreFragments : Bool
  headerLength : ℤ
  byteLength : ℤ
  encapsulatedMsg : Bool
  deriving DecidableEq

/-- Ordered by the identification, the source and the destination. -/
abbrev Key := ℕ ×ₗ ℕ ×ₗ ℕ

def layout : FragBuf.Layout IPDatagram Key where
  key d := toLex ((BitVec.ofInt 16 d.identification).toNat, toLex (d.srcAddress.toNat, d.destAddress.toNat))
  beg d := BitVec.ofInt 16 d.fragmentOffset
  stop d := BitVec.ofInt 16 (d.fragmentOffset + (d.byteLength - d.headerLength))
  islast d := !d.moreFragments
  encapsulatedMsg d := d.encapsulatedMsg
  headerLength d := d.headerLength
  setByteLength d byteLength := { d with byteLength }

def addFragment := FragBuf.addFragment layout

def purgeStaleFragments := @FragBuf.purgeStaleFragments Key IPDatagram _

end IPFragBuf

namespace IPv6FragBuf

/-- A datagram with its fragment header. -/
structure IPv6Datagram where
  srcAddress : IPv6Address
  destAddress : IPv6Address
  headerByteLength : ℤ
  byteLength : ℤ
  encapsulatedMsg : Bool
  identification : BitVec 32
  fragmentOffset : BitVec 16
  moreFragments : Bool
  deriving DecidableEq

abbrev Key := ℕ ×ₗ ℕ ×ₗ ℕ

def layout : FragBuf.Layout IPv6Datagram Key where
  key d := toLex (d.identification.toNat, toLex (d.srcAddress.toNat, d.destAddress.toNat))
  beg d := d.fragmentOffset
  stop d := BitVec.ofInt 16 (d.fragmentOffset.toNat + (d.byteLength - d.headerByteLength))
  islast d := !d.moreFragments
  encapsulatedMsg d := d.encapsulatedMsg
  headerLength d := d.headerByteLength
  setByteLength d byteLength := { d with byteLength }

def addFragment := FragBuf.addFragment layout

def purgeStaleFragments := @FragBuf.purgeStaleFragments Key IPv6Datagram _

end IPv6FragBuf

namespace FragBuf

/-! ## Datagrams in pieces -/

variable {κ δ : Type} [LinearOrder κ]

/-- A datagram that is cut into fragments, at least one of which carries the message. -/
structure Source (L : Layout δ κ) extends Datagram where
  key : κ
  fragment : ℕ → δ
  header : ℤ
  key_eq : ∀ i < n, L.key (fragment i) = key
  beg_eq : ∀ i < n, L.beg (fragment i) = BitVec.ofNat 16 (cut i)
  stop_eq : ∀ i < n, L.stop (fragment i) = BitVec.ofNat 16 (cut (i + 1))
  islast_eq : ∀ i < n, L.islast (fragment i) = decide (i + 1 = n)
  header_eq : ∀ i < n, L.headerLength (fragment i) = header
  carrier : ∃ i < n, L.encapsulatedMsg (fragment i) = true

/-- The pieces of a datagram that have come, the last one with a message, and when the last piece has
come. -/
structure Pending (L : Layout δ κ) where
  source : Source L
  pieces : List ℕ
  lastupdate : ℤ

/-- What the buffers are for: the datagrams of which pieces have come. -/
abbrev Table (L : Layout δ κ) := κ → Option (Pending L)

inductive Event (L : Layout δ κ)
  | add (source : Source L) (i : ℕ) (now : ℤ)
  | purge (lastupdate : ℤ)

variable {L : Layout δ κ}

/-- The pieces of the datagram that have come after this one. -/
def Table.pieces (t : Table L) (source : Source L) (i : ℕ) : List ℕ :=
  ((t source.key).map (·.pieces)).getD [] ++ [i]

/-- All pieces have come. -/
def Source.Complete (source : Source L) (pieces : List ℕ) : Prop := ∀ j < source.n, j ∈ pieces

instance (source : Source L) (pieces : List ℕ) : Decidable (source.Complete pieces) :=
  inferInstanceAs (Decidable (∀ j < source.n, j ∈ pieces))

def Table.next (t : Table L) : Event L → Table L
  | .add source i now =>
    Function.update t source.key
      (if source.Complete (t.pieces source i) then none else some ⟨source, t.pieces source i, now⟩)
  | .purge lastupdate => fun k ↦ (t k).filter fun pending ↦ decide (lastupdate ≤ pending.lastupdate)

/-- Fragments come of one datagram with their key at a time. -/
def Table.Valid (t : Table L) : Event L → Prop
  | .add source i _ => i < source.n ∧ ∀ pending, t source.key = some pending → pending.source = source
  | .purge _ => True

/-- There are buffers for the datagrams in the table. -/
def Kept (bufs : Buffers κ δ) (t : Table L) : Prop :=
  ∀ k, (bufs.find? k).isSome = (t k).isSome

/-- What a step should do. A fragment completes its datagram if no other piece is missing, and gives it with
its length; purging sends one error for each datagram that has waited too long. -/
def StepRight (bufs : Buffers κ δ) (t : Table L) (bufs' : Buffers κ δ) : Event L → Prop
  | .add source i now => ∃ ret, addFragment L bufs (source.fragment i) now = .ok (bufs', ret) ∧
      (ret.isSome = true ↔ source.Complete (t.pieces source i)) ∧
      (∀ d, ret = some d → ∃ j < source.n, L.encapsulatedMsg (source.fragment j) = true ∧
        d = L.setByteLength (source.fragment j) (source.header + source.cut source.n)) ∧
      Kept bufs' (t.next (.add source i now))
  | .purge lastupdate => ∃ errors keys, purgeStaleFragments bufs lastupdate = .ok (bufs', errors) ∧
      keys.Nodup ∧ (∀ k, k ∈ keys ↔ ∃ pending, t k = some pending ∧ pending.lastupdate < lastupdate) ∧
      List.Forall₂ (fun k d ↦ ∃ pending, t k = some pending ∧
        ∃ j ∈ pending.pieces, d = pending.source.fragment j) keys errors ∧
      Kept bufs' (t.next (.purge lastupdate))

def AlwaysRight : Buffers κ δ → Table L → List (Event L) → Prop
  | _, _, [] => True
  | bufs, t, event :: events => ∃ bufs', StepRight bufs t bufs' event ∧ AlwaysRight bufs' (t.next event) events

def AlwaysValid : Table L → List (Event L) → Prop
  | _, [] => True
  | t, event :: events => t.Valid event ∧ AlwaysValid (t.next event) events

/-- The datagram has more than one piece, or each datagram given up has got its message. -/
def Table.Safe (t : Table L) : Event L → Prop
  | .add source _ _ => source.n ≠ 1
  | .purge lastupdate => ∀ k pending, t k = some pending → pending.lastupdate < lastupdate →
      ∃ j ∈ pending.pieces, L.encapsulatedMsg (pending.source.fragment j) = true

def AlwaysSafe : Table L → List (Event L) → Prop
  | _, [] => True
  | t, event :: events => t.Safe event ∧ AlwaysSafe (t.next event) events

/-! ## Buffers of pieces -/

/-- The stored datagram is a piece with a message, if there is one. -/
structure Stored (source : Source L) (pieces : List ℕ) (datagram : Option δ) : Prop where
  mem : ∀ d, datagram = some d → ∃ j ∈ pieces, L.encapsulatedMsg (source.fragment j) = true ∧
    d = source.fragment j
  none : datagram = none → ∀ j ∈ pieces, L.encapsulatedMsg (source.fragment j) = false

/-- The buffer holds the pieces. -/
structure Pending.Holds (pending : Pending L) (buf : DatagramBuffer δ) : Prop where
  lt : ∀ j ∈ pending.pieces, j < pending.source.n
  nonempty : pending.pieces ≠ []
  incomplete : ¬ pending.source.Complete pending.pieces
  received : pending.source.received pending.pieces = some buf.buf
  stored : Stored pending.source pending.pieces buf.datagram
  lastupdate : buf.lastupdate = pending.lastupdate

/-- The buffers are those of the table. -/
structure Represents (bufs : Buffers κ δ) (t : Table L) : Prop where
  absent : ∀ k, t k = none → bufs.find? k = none
  present : ∀ k pending, t k = some pending → pending.source.key = k ∧
    ∃ buf, bufs.find? k = some buf ∧ pending.Holds buf

section

variable {bufs bufs' : Buffers κ δ} {t : Table L} {source : Source L} {i : ℕ} {now lastupdate : ℤ}
  {event : Event L}

theorem represents_start : Represents (OrderedMap.empty : Buffers κ δ) (fun _ ↦ none : Table L) where
  absent _ _ := rfl
  present _ _ := nofun

theorem Represents.kept (h : Represents bufs t) : Kept bufs t := by
  intro k
  cases hk : t k with
  | none =>
    rw [h.absent k hk]
    rfl
  | some pending =>
    obtain ⟨-, buf, hbuf, -⟩ := h.present k pending hk
    rw [hbuf]
    rfl

theorem add_of_received (p : Datagram) {is : List ℕ} (his : ∀ j ∈ is ++ [i], j < p.n) :
    ∃ b b', p.received is = some b ∧ p.add b i = some (b', decide (∀ j < p.n, j ∈ is ++ [i])) ∧
      p.received (is ++ [i]) = some b' ∧
      ((∀ j < p.n, j ∈ is ++ [i]) → b'.getTotalLength.toNat = p.cut p.n) := by
  obtain ⟨hbefore, hlast⟩ := List.forall_mem_append.mp his
  have hi := List.forall_mem_singleton.mp hlast
  obtain ⟨k, pending, hrun, hsettled, hk, hpending⟩ := p.received_eq hbefore
  obtain ⟨k', pending', hreceive, hsettled'⟩ := hsettled.receive i
  have hadd := p.add_eq hk hpending hi hreceive
  have hall : (∀ j < p.n, j ∈ is ++ [i]) ↔ k' = p.n := by
    have hk' := (p.merge_eq hk hpending hi hreceive).2.1
    rw [hsettled'.all_iff]
    omega
  refine ⟨p.bufferAt (k, pending), p.bufferAt (k', pending'), hrun, ?_, ?_, fun hcomplete ↦ ?_⟩
  · rw [hadd]
    simp only [hall]
  · rw [Datagram.received] at hrun ⊢
    rw [List.foldlM_append, hrun]
    simp [hadd]
  · rw [ReassemblyBuffer.getTotalLength, Datagram.bufferAt, hall.mp hcomplete, Datagram.mainAt,
      p.toNat_cut le_rfl]

omit [LinearOrder κ] in
theorem addFragment_fragment (b : ReassemblyBuffer) (hi : i < source.n) :
    b.addFragment (L.beg (source.fragment i)) (L.stop (source.fragment i)) (L.islast (source.fragment i)) =
      source.add b i := by
  rw [source.beg_eq i hi, source.stop_eq i hi, source.islast_eq i hi]
  rfl

omit [LinearOrder κ] in
theorem Stored.next {pieces : List ℕ} {datagram : Option δ} (h : Stored source pieces datagram) :
    Stored source (pieces ++ [i])
      (if L.encapsulatedMsg (source.fragment i) then some (source.fragment i) else datagram) where
  mem d hd := by
    split at hd
    · rename_i hmsg
      cases hd
      exact ⟨i, by simp, hmsg, rfl⟩
    · obtain ⟨j, hj, hmsg⟩ := h.mem d hd
      exact ⟨j, List.mem_append_left _ hj, hmsg⟩
  none hnone j hj := by
    split at hnone
    · cases hnone
    · rename_i hmsg
      rcases List.mem_append.mp hj with hold | hnew
      · exact h.none hnone j hold
      · rw [List.mem_singleton.mp hnew]
        exact Bool.not_eq_true _ ▸ hmsg

/-- What the buffer of a datagram holds before a piece of it comes, which may be nothing. -/
theorem Represents.before (h : Represents bufs t) (hvalid : t.Valid (.add source i now)) :
    ∃ pieces, ((t source.key).map (·.pieces)).getD [] = pieces ∧ (∀ j ∈ pieces, j < source.n) ∧
      ¬ source.Complete pieces ∧
      source.received pieces = some ((bufs.find? source.key).getD {}).buf ∧
      Stored source pieces ((bufs.find? source.key).getD {}).datagram ∧
      ((bufs.find? source.key).isNone = true ↔ pieces = []) := by
  refine ⟨_, rfl, ?_⟩
  cases hk : t source.key with
  | none =>
    rw [h.absent _ hk]
    refine ⟨List.forall_mem_nil _, fun hall ↦ ?_, rfl, ⟨nofun, fun _ ↦ List.forall_mem_nil _⟩, by simp⟩
    cases hall 0 source.nonempty
  | some pending =>
    obtain ⟨-, buf, hbuf, hholds⟩ := h.present _ pending hk
    have hsource := hvalid.2 pending hk
    subst hsource
    rw [hbuf]
    exact ⟨hholds.lt, hholds.incomplete, hholds.received, hholds.stored, by simp [hholds.nonempty]⟩

theorem Represents.insert (h : Represents bufs t) {pieces : List ℕ} {buf : DatagramBuffer δ}
    (hholds : (⟨source, pieces, now⟩ : Pending L).Holds buf) :
    Represents (bufs.insert source.key buf) (Function.update t source.key (some ⟨source, pieces, now⟩)) where
  absent k hk := by
    by_cases hsame : k = source.key
    · rw [hsame, Function.update_self] at hk
      cases hk
    · rw [Function.update_of_ne hsame] at hk
      rw [OrderedMap.find?_insert_of_ne hsame]
      exact h.absent k hk
  present k pending hk := by
    by_cases hsame : k = source.key
    · rw [hsame, Function.update_self] at hk
      cases hk
      refine ⟨hsame.symm, buf, ?_, hholds⟩
      rw [hsame, OrderedMap.find?_insert_self]
    · rw [Function.update_of_ne hsame] at hk
      rw [OrderedMap.find?_insert_of_ne hsame]
      exact h.present k pending hk

theorem Represents.erase (h : Represents bufs t) (key : κ) :
    Represents (bufs.erase key) (Function.update t key none) where
  absent k hk := by
    by_cases hsame : k = key
    · rw [hsame, OrderedMap.find?_erase_self]
    · rw [Function.update_of_ne hsame] at hk
      rw [OrderedMap.find?_erase_of_ne hsame]
      exact h.absent k hk
  present k pending hk := by
    by_cases hsame : k = key
    · rw [hsame, Function.update_self] at hk
      cases hk
    · rw [Function.update_of_ne hsame] at hk
      rw [OrderedMap.find?_erase_of_ne hsame]
      exact h.present k pending hk

omit [LinearOrder κ] in
theorem complete_single_iff (hi : i < source.n) : source.Complete [i] ↔ source.n = 1 := by
  constructor
  · intro h
    by_contra hne
    have hpos := source.nonempty
    have hzero := List.mem_singleton.mp (h 0 hpos)
    have hone := List.mem_singleton.mp (h 1 (by omega))
    omega
  · intro h j hj
    exact List.mem_singleton.mpr (by omega)

/-- The datagram that is stored after a piece. -/
def Source.keep (source : Source L) (i : ℕ) (datagram : Option δ) : Option δ :=
  if L.encapsulatedMsg (source.fragment i) then some (source.fragment i) else datagram

theorem addFragment_eq (hi : i < source.n) {b : ReassemblyBuffer} {isComplete : Bool}
    (hadd : source.add ((bufs.find? source.key).getD {}).buf i = some (b, isComplete)) :
    addFragment L bufs (source.fragment i) now =
      if isComplete then
        match source.keep i ((bufs.find? source.key).getD {}).datagram with
        | none => .error .nullDatagram
        | some ret => if (bufs.find? source.key).isNone then .error .eraseEnd
          else .ok (bufs.erase source.key,
            some (L.setByteLength ret (L.headerLength ret + b.getTotalLength.toNat)))
      else .ok (bufs.insert source.key
        ⟨b, source.keep i ((bufs.find? source.key).getD {}).datagram, now⟩, none) := by
  unfold addFragment
  rw [source.key_eq i hi]
  simp only [addFragment_fragment _ hi, hadd]
  rfl

section

variable (h : Represents bufs t)

include h

section

variable (hvalid : t.Valid (.add source i now))

include hvalid

theorem Represents.receive :
    (∀ j ∈ t.pieces source i, j < source.n) ∧
    Stored source (t.pieces source i) (source.keep i ((bufs.find? source.key).getD {}).datagram) ∧
    (source.Complete (t.pieces source i) → ((bufs.find? source.key).isNone = true ↔ source.n = 1)) ∧
    (source.n = 1 → source.Complete (t.pieces source i)) ∧
    ∃ b, source.add ((bufs.find? source.key).getD {}).buf i =
        some (b, decide (source.Complete (t.pieces source i))) ∧
      source.received (t.pieces source i) = some b ∧
      (source.Complete (t.pieces source i) → b.getTotalLength.toNat = source.cut source.n) := by
  obtain ⟨pieces, hpieces, hlt, hincomplete, hreceived, hstored, hfirst⟩ := h.before hvalid
  have hi := hvalid.1
  have htable : t.pieces source i = pieces ++ [i] := by rw [Table.pieces, hpieces]
  have hall : ∀ j ∈ pieces ++ [i], j < source.n :=
    List.forall_mem_append.mpr ⟨hlt, List.forall_mem_singleton.mpr hi⟩
  obtain ⟨b, b', hb, hadd, hb', hlength⟩ := add_of_received source.toDatagram hall
  rw [hreceived] at hb
  cases hb
  rw [htable]
  refine ⟨hall, hstored.next, fun hcomplete ↦ ?_, fun hone j hj ↦ ?_, b', hadd, hb', hlength⟩
  · rw [hfirst]
    constructor
    · intro hnil
      rw [hnil, List.nil_append, complete_single_iff hi] at hcomplete
      exact hcomplete
    · intro hone
      by_contra hne
      obtain ⟨j, hj⟩ := List.exists_mem_of_ne_nil _ hne
      apply hincomplete
      intro k hk
      have hjn := hlt j hj
      have hsame : k = j := by omega
      rwa [hsame]
  · have hji : j = i := by omega
    rw [hji]
    simp

/-- The iterator of a datagram that comes in one piece is the end. -/
theorem Represents.add_single
    (hone : source.n = 1) : ∃ e, addFragment L bufs (source.fragment i) now = .error e := by
  obtain ⟨-, -, hnew, hcomplete, b, hadd, -, -⟩ := h.receive hvalid
  rw [addFragment_eq hvalid.1 hadd, decide_eq_true (hcomplete hone), if_pos rfl]
  cases source.keep i ((bufs.find? source.key).getD {}).datagram with
  | none => exact ⟨_, rfl⟩
  | some ret => exact ⟨_, if_pos ((hnew (hcomplete hone)).mpr hone)⟩

/-- The last missing piece gives the datagram, and its buffer is taken out. -/
theorem Represents.add_complete (hcomplete : source.Complete (t.pieces source i)) (hne : source.n ≠ 1) :
    ∃ j < source.n, L.encapsulatedMsg (source.fragment j) = true ∧
      addFragment L bufs (source.fragment i) now = .ok (bufs.erase source.key,
        some (L.setByteLength (source.fragment j) (source.header + source.cut source.n))) := by
  obtain ⟨hall, hstored, hnew, -, b, hadd, -, hlength⟩ := h.receive hvalid
  rw [addFragment_eq hvalid.1 hadd, decide_eq_true hcomplete, if_pos rfl]
  cases hkeep : source.keep i ((bufs.find? source.key).getD {}).datagram with
  | none =>
    obtain ⟨j, hj, hmsg⟩ := source.carrier
    rw [hstored.none hkeep j (hcomplete j hj)] at hmsg
    cases hmsg
  | some d =>
    obtain ⟨j, hj, hmsg, rfl⟩ := hstored.mem d hkeep
    refine ⟨j, hall j hj, hmsg, ?_⟩
    dsimp only
    rw [if_neg fun hnone ↦ hne ((hnew hcomplete).mp hnone), source.header_eq j (hall j hj),
      hlength hcomplete]

theorem Represents.add_incomplete (hincomplete : ¬ source.Complete (t.pieces source i)) :
    ∃ buf, addFragment L bufs (source.fragment i) now = .ok (bufs.insert source.key buf, none) ∧
      (⟨source, t.pieces source i, now⟩ : Pending L).Holds buf := by
  obtain ⟨hall, hstored, -, -, b, hadd, hreceived, -⟩ := h.receive hvalid
  rw [addFragment_eq hvalid.1 hadd, decide_eq_false hincomplete, if_neg Bool.false_ne_true]
  have hnonempty : t.pieces source i ≠ [] := by
    rw [Table.pieces]
    exact List.append_ne_nil_of_right_ne_nil _ (List.cons_ne_nil _ _)
  exact ⟨_, rfl, hall, hnonempty, hincomplete, hreceived, hstored, rfl⟩

/-- One fragment: the step is right unless the datagram has a single piece. -/
theorem Represents.add :
    ((∃ bufs', StepRight bufs t bufs' (.add source i now)) ↔ t.Safe (.add source i now)) ∧
      ∀ bufs', StepRight bufs t bufs' (.add source i now) →
        Represents bufs' (t.next (.add source i now)) := by
  by_cases hone : source.n = 1
  · obtain ⟨e, herror⟩ := h.add_single hvalid hone
    have hnot : ∀ bufs', ¬ StepRight bufs t bufs' (.add source i now) := by
      rintro bufs' ⟨ret, hrun, -⟩
      rw [herror] at hrun
      cases hrun
    refine ⟨iff_of_false ?_ fun hsafe ↦ hsafe hone, fun bufs' hright ↦ absurd hright (hnot bufs')⟩
    exact fun ⟨bufs', hright⟩ ↦ hnot bufs' hright
  by_cases hcomplete : source.Complete (t.pieces source i)
  · obtain ⟨j, hj, hmsg, hrun⟩ := h.add_complete hvalid hcomplete hone
    have hrep : Represents (bufs.erase source.key) (t.next (.add source i now)) := by
      rw [Table.next, if_pos hcomplete]
      exact h.erase source.key
    refine ⟨iff_of_true ⟨_, _, hrun, iff_of_true rfl hcomplete, ?_, hrep.kept⟩ hone, ?_⟩
    · intro d hd
      cases hd
      exact ⟨j, hj, hmsg, rfl⟩
    · rintro bufs' ⟨ret, hret, -⟩
      rw [hrun] at hret
      cases hret
      exact hrep
  · obtain ⟨buf, hrun, hholds⟩ := h.add_incomplete hvalid hcomplete
    have hrep : Represents (bufs.insert source.key buf) (t.next (.add source i now)) := by
      rw [Table.next, if_neg hcomplete]
      exact h.insert hholds
    refine ⟨iff_of_true ⟨_, none, hrun, iff_of_false (by simp) hcomplete, nofun, hrep.kept⟩ hone, ?_⟩
    rintro bufs' ⟨ret, hret, -⟩
    rw [hrun] at hret
    cases hret
    exact hrep

end

end

/-! ### Purging -/

/-- The entry has waited too long. -/
def isStale (lastupdate : ℤ) (e : κ × DatagramBuffer δ) : Bool := decide (e.2.lastupdate < lastupdate)

/-- The loop gives an error for each entry that has waited too long and takes it out, provided that its
datagram is there. -/
theorem purgeLoop_ok_iff (entries : List (κ × DatagramBuffer δ)) :
    ∀ {bufs bufs' : Buffers κ δ} {errors : List δ},
      purgeLoop lastupdate entries bufs = .ok (bufs', errors) ↔
        bufs' = ((entries.filter (isStale lastupdate)).map Prod.fst).foldl OrderedMap.erase bufs ∧
        (entries.filter (isStale lastupdate)).map (·.2.datagram) = errors.map some := by
  induction entries with
  | nil =>
    intro bufs bufs' errors
    rw [purgeLoop]
    constructor
    · intro hrun
      cases hrun
      exact ⟨rfl, rfl⟩
    · rintro ⟨hbufs, herrors⟩
      rw [List.map_eq_nil_iff.mp herrors.symm, hbufs]
      rfl
  | cons e entries ih =>
    obtain ⟨key, buf⟩ := e
    intro bufs bufs' errors
    rw [purgeLoop]
    by_cases hold : buf.lastupdate < lastupdate
    · rw [if_pos hold, List.filter_cons_of_pos (by simpa [isStale] using hold)]
      cases hdatagram : buf.datagram with
      | none =>
        refine iff_of_false nofun ?_
        rintro ⟨-, herrors⟩
        cases errors <;> simp [hdatagram] at herrors
      | some datagram =>
        dsimp only
        constructor
        · intro hrun
          cases hrest : purgeLoop lastupdate entries (bufs.erase key) with
          | error f =>
            rw [hrest] at hrun
            cases hrun
          | ok r =>
            rw [hrest] at hrun
            cases hrun
            obtain ⟨hbufs, herrors⟩ := ih.mp hrest
            exact ⟨hbufs, by simp [hdatagram, herrors]⟩
        · rintro ⟨hbufs, herrors⟩
          cases errors with
          | nil => simp at herrors
          | cons d errors =>
            rw [List.map_cons, List.map_cons, List.cons.injEq, hdatagram] at herrors
            have hrest := ih.mpr ⟨hbufs, herrors.2⟩
            rw [hrest]
            cases herrors.1
            rfl
    · rw [if_neg hold, List.filter_cons_of_neg (by simpa [isStale] using hold)]
      exact ih

theorem find?_foldl_erase (keys : List κ) (k : κ) :
    ∀ {bufs : Buffers κ δ}, (keys.foldl OrderedMap.erase bufs).find? k =
      if k ∈ keys then none else bufs.find? k := by
  induction keys with
  | nil => intro bufs; simp
  | cons key keys ih =>
    intro bufs
    rw [List.foldl_cons, ih, OrderedMap.find?_erase]
    by_cases hmem : k ∈ keys
    · simp [hmem]
    · by_cases hsame : k = key
      · simp [hsame]
      · simp [hmem, hsame]

/-- The keys that a purge takes out. -/
def staleKeys (bufs : Buffers κ δ) (lastupdate : ℤ) : List κ :=
  (bufs.entries.filter (isStale lastupdate)).map Prod.fst

theorem nodup_staleKeys : (staleKeys bufs lastupdate).Nodup :=
  bufs.nodup_keys.sublist (List.filter_sublist.map _)

theorem mem_staleKeys {k : κ} :
    k ∈ staleKeys bufs lastupdate ↔ ∃ buf, bufs.find? k = some buf ∧ buf.lastupdate < lastupdate := by
  rw [staleKeys, List.mem_map]
  constructor
  · rintro ⟨⟨k', buf⟩, hmem, rfl⟩
    obtain ⟨hentry, hstale⟩ := List.mem_filter.mp hmem
    exact ⟨buf, OrderedMap.find?_eq_some_iff.mpr hentry, by simpa [isStale] using hstale⟩
  · rintro ⟨buf, hfind, hstale⟩
    exact ⟨(k, buf), List.mem_filter.mpr ⟨OrderedMap.find?_eq_some_iff.mp hfind, by simpa [isStale]⟩, rfl⟩

section

variable (h : Represents bufs t)

include h

theorem Represents.mem_staleKeys_iff {k : κ} :
    k ∈ staleKeys bufs lastupdate ↔ ∃ pending, t k = some pending ∧ pending.lastupdate < lastupdate := by
  rw [mem_staleKeys]
  cases hk : t k with
  | none =>
    rw [h.absent k hk]
    simp
  | some pending =>
    obtain ⟨-, buf, hbuf, hholds⟩ := h.present k pending hk
    rw [hbuf]
    simp [hholds.lastupdate]

theorem Represents.purged :
    Represents ((staleKeys bufs lastupdate).foldl OrderedMap.erase bufs) (t.next (.purge lastupdate)) where
  absent k hk := by
    rw [find?_foldl_erase]
    split
    · rfl
    · rename_i hfresh
      rw [h.mem_staleKeys_iff] at hfresh
      apply h.absent
      by_contra hne
      obtain ⟨pending, hpending⟩ := Option.ne_none_iff_exists'.mp hne
      have hlate : lastupdate ≤ pending.lastupdate := by
        by_contra hlt
        exact hfresh ⟨pending, hpending, by omega⟩
      dsimp only [Table.next] at hk
      rw [hpending, Option.filter_some, decide_eq_true hlate] at hk
      cases hk
  present k pending hk := by
    rw [Table.next, Option.filter_eq_some_iff, decide_eq_true_iff] at hk
    rw [find?_foldl_erase, if_neg]
    · exact h.present k pending hk.1
    · rw [h.mem_staleKeys_iff]
      rintro ⟨pending', hpending', hlt⟩
      rw [hk.1] at hpending'
      cases hpending'
      omega

/-- The stored datagrams of the stale buffers are pieces of the datagrams in the table. -/
theorem Represents.forall₂_errors :
    ∀ {entries : List (κ × DatagramBuffer δ)} {errors : List δ},
      (∀ e ∈ entries, bufs.find? e.1 = some e.2) → entries.map (·.2.datagram) = errors.map some →
      List.Forall₂ (fun k d ↦ ∃ pending, t k = some pending ∧
        ∃ j ∈ pending.pieces, d = pending.source.fragment j) (entries.map Prod.fst) errors := by
  intro entries
  induction entries with
  | nil =>
    intro errors _ herrors
    cases errors with
    | nil => exact .nil
    | cons d errors => cases herrors
  | cons e entries ih =>
    intro errors hentries herrors
    cases errors with
    | nil => cases herrors
    | cons d errors =>
      rw [List.map_cons, List.map_cons, List.cons.injEq] at herrors
      obtain ⟨hhead, hrest⟩ := List.forall_mem_cons.mp hentries
      refine .cons ?_ (ih hrest herrors.2)
      cases hk : t e.1 with
      | none =>
        rw [h.absent _ hk] at hhead
        cases hhead
      | some pending =>
        obtain ⟨-, buf, hbuf, hholds⟩ := h.present _ pending hk
        rw [hhead] at hbuf
        cases hbuf
        obtain ⟨j, hj, -, hd⟩ := hholds.stored.mem d herrors.1
        exact ⟨pending, rfl, j, hj, hd⟩

/-- Each stale buffer has a datagram exactly if its message has come. -/
theorem Represents.exists_errors_iff :
    (∃ errors, (bufs.entries.filter (isStale lastupdate)).map (·.2.datagram) =
      (errors : List δ).map some) ↔ t.Safe (.purge lastupdate) := by
  constructor
  · rintro ⟨errors, herrors⟩ k pending hk hlt
    obtain ⟨-, buf, hbuf, hholds⟩ := h.present k pending hk
    have hmem : (k, buf) ∈ bufs.entries.filter (isStale lastupdate) := by
      refine List.mem_filter.mpr ⟨OrderedMap.find?_eq_some_iff.mp hbuf, ?_⟩
      rw [isStale, decide_eq_true_iff, hholds.lastupdate]
      exact hlt
    have hin : buf.datagram ∈ errors.map some := herrors ▸ List.mem_map_of_mem (f := (·.2.datagram)) hmem
    obtain ⟨d, -, hd⟩ := List.mem_map.mp hin
    obtain ⟨j, hj, hmsg, -⟩ := hholds.stored.mem d hd.symm
    exact ⟨j, hj, hmsg⟩
  · intro hsafe
    have hall : ∀ o ∈ (bufs.entries.filter (isStale lastupdate)).map (·.2.datagram),
        ∃ d : δ, some d = o := by
      intro o ho
      obtain ⟨⟨k, buf⟩, hmem, rfl⟩ := List.mem_map.mp ho
      obtain ⟨hentry, hstale⟩ := List.mem_filter.mp hmem
      have hfind := OrderedMap.find?_eq_some_iff.mpr hentry
      cases hk : t k with
      | none =>
        rw [h.absent k hk] at hfind
        cases hfind
      | some pending =>
        obtain ⟨-, buf', hbuf, hholds⟩ := h.present k pending hk
        rw [hfind] at hbuf
        cases hbuf
        rw [isStale, decide_eq_true_iff, hholds.lastupdate] at hstale
        obtain ⟨j, hj, hmsg⟩ := hsafe k pending hk hstale
        cases hdatagram : buf.datagram with
        | some d => exact ⟨d, rfl⟩
        | none =>
          rw [hholds.stored.none hdatagram j hj] at hmsg
          cases hmsg
    have hrange : (bufs.entries.filter (isStale lastupdate)).map (·.2.datagram) ∈
        Set.range (List.map (some : δ → Option δ)) := by
      rw [Set.range_list_map]
      exact hall
    obtain ⟨errors, herrors⟩ := hrange
    exact ⟨errors, herrors.symm⟩

theorem Represents.purge :
    ((∃ bufs', StepRight bufs t bufs' (.purge lastupdate)) ↔ t.Safe (.purge lastupdate)) ∧
      ∀ bufs', StepRight bufs t bufs' (.purge lastupdate) →
        Represents bufs' (t.next (.purge lastupdate)) := by
  rw [← h.exists_errors_iff]
  refine ⟨⟨?_, ?_⟩, ?_⟩
  · rintro ⟨bufs', errors, keys, hrun, -⟩
    exact ⟨errors, ((purgeLoop_ok_iff _).mp hrun).2⟩
  · rintro ⟨errors, herrors⟩
    refine ⟨_, errors, staleKeys bufs lastupdate, (purgeLoop_ok_iff _).mpr ⟨rfl, herrors⟩, nodup_staleKeys,
      fun k ↦ h.mem_staleKeys_iff, ?_, h.purged.kept⟩
    exact h.forall₂_errors (fun e he ↦ OrderedMap.find?_eq_some_iff.mpr (List.mem_filter.mp he).1) herrors
  · rintro bufs' ⟨errors, keys, hrun, -⟩
    rw [((purgeLoop_ok_iff _).mp hrun).1]
    exact h.purged

theorem Represents.step (hvalid : t.Valid event) :
    ((∃ bufs', StepRight bufs t bufs' event) ↔ t.Safe event) ∧
      ∀ bufs', StepRight bufs t bufs' event → Represents bufs' (t.next event) := by
  cases event with
  | add source i now => exact h.add hvalid
  | purge lastupdate => exact h.purge

end

end

theorem Represents.alwaysRight_iff (events : List (Event L)) :
    ∀ {bufs : Buffers κ δ} {t : Table L}, Represents bufs t → AlwaysValid t events →
      (AlwaysRight bufs t events ↔ AlwaysSafe t events) := by
  induction events with
  | nil => exact fun _ _ ↦ Iff.rfl
  | cons event events ih =>
    intro bufs t h hvalid
    obtain ⟨hiff, hnext⟩ := h.step hvalid.1
    rw [AlwaysRight, AlwaysSafe, ← hiff]
    constructor
    · rintro ⟨bufs', hright, hrest⟩
      exact ⟨⟨bufs', hright⟩, (ih (hnext bufs' hright) hvalid.2).mp hrest⟩
    · rintro ⟨⟨bufs', hright⟩, hrest⟩
      exact ⟨bufs', hright, (ih (hnext bufs' hright) hvalid.2).mpr hrest⟩

/-! ## Runs from the start -/

/-- In every run with valid fragments, both kinds of buffers do what they are for exactly if no datagram comes
in one piece and none is given up before its message has come. -/
theorem fragBufs_alwaysRight_iff (events : List (Event IPFragBuf.layout))
    (events6 : List (Event IPv6FragBuf.layout)) (hvalid : AlwaysValid (fun _ ↦ none) events)
    (hvalid6 : AlwaysValid (fun _ ↦ none) events6) :
    (AlwaysRight OrderedMap.empty (fun _ ↦ none) events ↔ AlwaysSafe (fun _ ↦ none) events) ∧
      (AlwaysRight OrderedMap.empty (fun _ ↦ none) events6 ↔ AlwaysSafe (fun _ ↦ none) events6) :=
  ⟨represents_start.alwaysRight_iff events hvalid, represents_start.alwaysRight_iff events6 hvalid6⟩

/-- A datagram of 20 bytes under a header of 20, in one piece. -/
def singlePiece : Source IPFragBuf.layout where
  n := 1
  cut i := 20 * i
  nonempty := by decide
  zero := rfl
  increasing _ _ := by omega
  bounded := by decide
  key := toLex (7, toLex (1, 2))
  fragment _ := ⟨7, 1, 2, 0, false, 20, 40, true⟩
  header := 20
  key_eq _ _ := rfl
  beg_eq i hi := by
    have hzero : i = 0 := by omega
    subst hzero
    decide
  stop_eq i hi := by
    have hzero : i = 0 := by omega
    subst hzero
    decide
  islast_eq i hi := by
    have hzero : i = 0 := by omega
    subst hzero
    decide
  header_eq _ _ := rfl
  carrier := ⟨0, by decide, rfl⟩

/-- A datagram in two pieces, the second one with the message. -/
def twoPieces : Source IPv6FragBuf.layout where
  n := 2
  cut i := 8 * i
  nonempty := by decide
  zero := Nat.mul_zero 8
  increasing _ _ := (Nat.mul_lt_mul_left (by decide)).mpr (Nat.lt_succ_self _)
  bounded := by decide
  key := toLex (7, toLex (1, 2))
  fragment i := ⟨1, 2, 48, 56, i == 1, 7, BitVec.ofNat 16 (8 * i), i == 0⟩
  header := 48
  key_eq _ _ := rfl
  beg_eq _ _ := rfl
  stop_eq i hi := by
    have hcases : i = 0 ∨ i = 1 := by omega
    rcases hcases with rfl | rfl <;> decide
  islast_eq i hi := by
    have hcases : i = 0 ∨ i = 1 := by omega
    rcases hcases with rfl | rfl <;> decide
  header_eq _ _ := rfl
  carrier := ⟨1, by decide, rfl⟩

/-- A datagram whose pieces come in the wrong order. -/
def swapped : List (Event IPv6FragBuf.layout) := [.add twoPieces 1 0, .add twoPieces 0 1]

theorem fragBufs_alwaysRight_swapped :
    (AlwaysRight OrderedMap.empty (fun _ ↦ none) ([] : List (Event IPFragBuf.layout)) ↔
      AlwaysSafe (fun _ ↦ none) ([] : List (Event IPFragBuf.layout))) ∧
    (AlwaysRight OrderedMap.empty (fun _ ↦ none) swapped ↔ AlwaysSafe (fun _ ↦ none) swapped) := by
  apply fragBufs_alwaysRight_iff
  · trivial
  · refine ⟨⟨by decide, nofun⟩, ⟨by decide, ?_⟩, trivial⟩
    intro pending hpending
    cases hpending
    rfl

/-- Neither kind is always right: the first fragment of a datagram in one piece, and a purge when only the
first half of a datagram has come. -/
theorem not_fragBufs_alwaysRight :
    (¬ ∀ events : List (Event IPFragBuf.layout), AlwaysValid (fun _ ↦ none) events →
      AlwaysRight OrderedMap.empty (fun _ ↦ none) events) ∧
    ¬ ∀ events : List (Event IPv6FragBuf.layout), AlwaysValid (fun _ ↦ none) events →
      AlwaysRight OrderedMap.empty (fun _ ↦ none) events := by
  constructor
  · intro h
    have hvalid : AlwaysValid (fun _ ↦ none) [.add singlePiece 0 0] := ⟨⟨by decide, nofun⟩, trivial⟩
    have hsafe := (represents_start.alwaysRight_iff _ hvalid).mp (h _ hvalid)
    exact hsafe.1 rfl
  · intro h
    have hvalid : AlwaysValid (fun _ ↦ none) [.add twoPieces 0 0, .purge 1] :=
      ⟨⟨by decide, nofun⟩, trivial, trivial⟩
    have hsafe := (represents_start.alwaysRight_iff _ hvalid).mp (h _ hvalid)
    have hpending : Table.next (fun _ ↦ none) (.add twoPieces 0 0) twoPieces.key =
        some ⟨twoPieces, [0], 0⟩ := by
      rw [Table.next, Function.update_self, if_neg (by decide)]
      rfl
    obtain ⟨j, hj, hmsg⟩ := hsafe.2.1 twoPieces.key _ hpending (by decide)
    cases List.mem_singleton.mp hj
    cases hmsg

end FragBuf

end InetManet
