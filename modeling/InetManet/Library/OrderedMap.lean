import Mathlib.Data.List.Sort
import Mathlib.Data.List.Nodup
import Mathlib.Algebra.BigOperators.Group.List.Basic
import Mathlib.Tactic.Linarith

/-!
# Ordered maps

A finite map kept as a list of entries in increasing order of their keys, the way an ordered
associative container of a standard library is iterated. Keys are unique by construction. Besides
`find?`, `insert` and `erase` there is the first entry that satisfies a predicate, and the two
permutation lemmas `perm_insert` and `perm_erase` turn any sum over the values into a sum with one
summand more or less. `Indexes` relates a map of keys to a map of the objects that carry them.
-/

namespace InetManet

/-- A finite map whose entries are sorted by key. -/
structure OrderedMap (κ α : Type) [LinearOrder κ] where
  entries : List (κ × α)
  sorted : entries.Pairwise fun a b ↦ a.1 < b.1

namespace OrderedMap

variable {κ α : Type} [LinearOrder κ]

def empty : OrderedMap κ α := ⟨[], List.Pairwise.nil⟩

instance : Inhabited (OrderedMap κ α) := ⟨empty⟩

section

variable (m : OrderedMap κ α)

def find? (k : κ) : Option α :=
  (m.entries.find? fun e ↦ e.1 = k).map Prod.snd

def size : ℕ := m.entries.length

/-- The first entry, in key order, whose value satisfies `p`. -/
def findFirst? (p : α → Bool) : Option (κ × α) :=
  m.entries.find? fun e ↦ p e.2

def erase (k : κ) : OrderedMap κ α :=
  ⟨m.entries.filter fun e ↦ e.1 ≠ k, m.sorted.filter _⟩

def filter (p : κ × α → Bool) : OrderedMap κ α :=
  ⟨m.entries.filter p, m.sorted.filter _⟩

/-- Insertion into a sorted list, in front of the first larger key. -/
def insertEntry (k : κ) (v : α) : List (κ × α) → List (κ × α)
  | [] => [(k, v)]
  | e :: es => if k < e.1 then (k, v) :: e :: es else e :: insertEntry k v es

theorem perm_insertEntry (k : κ) (v : α) (es : List (κ × α)) :
    (insertEntry k v es).Perm ((k, v) :: es) := by
  induction es with
  | nil => exact List.Perm.refl _
  | cons e es ih =>
    unfold insertEntry
    split
    · exact List.Perm.refl _
    · exact (ih.cons e).trans (List.Perm.swap _ _ _)

theorem sorted_insertEntry {k : κ} (v : α) {es : List (κ × α)}
    (hs : es.Pairwise fun a b ↦ a.1 < b.1) (hk : ∀ e ∈ es, e.1 ≠ k) :
    (insertEntry k v es).Pairwise fun a b ↦ a.1 < b.1 := by
  induction es with
  | nil => exact List.pairwise_singleton _ _
  | cons e es ih =>
    obtain ⟨hhead, htail⟩ := List.pairwise_cons.mp hs
    unfold insertEntry
    split <;> rename_i hlt
    · refine List.pairwise_cons.mpr ⟨fun e' he' ↦ ?_, hs⟩
      rcases List.mem_cons.mp he' with rfl | he'
      · exact hlt
      · exact hlt.trans (hhead e' he')
    · refine List.pairwise_cons.mpr ⟨fun e' he' ↦ ?_, ih htail fun e' he' ↦ hk e' (by simp [he'])⟩
      rcases List.mem_cons.mp ((perm_insertEntry k v es).mem_iff.mp he') with rfl | he'
      · exact lt_of_le_of_ne (not_lt.mp hlt) (hk e (by simp))
      · exact hhead e' he'

/-- `m[k] = v`: an entry with this key is replaced. -/
def insert (k : κ) (v : α) : OrderedMap κ α :=
  ⟨insertEntry k v (m.erase k).entries,
    sorted_insertEntry v (m.erase k).sorted fun e he ↦ by simpa using (List.mem_filter.mp he).2⟩

end

/-! ## Entries and lookups -/

section Lookup

variable {m : OrderedMap κ α} {k k' : κ} {v w : α} {p : α → Bool}

theorem eq_of_mem (hv : (k, v) ∈ m.entries) (hw : (k, w) ∈ m.entries) : v = w := by
  obtain ⟨es, hsorted⟩ := m
  dsimp only at hv hw
  induction es with
  | nil => cases hv
  | cons e es ih =>
    obtain ⟨hhead, htail⟩ := List.pairwise_cons.mp hsorted
    rcases List.mem_cons.mp hv with hve | hve
    · rcases List.mem_cons.mp hw with hwe | hwe
      · exact (Prod.ext_iff.mp (hve.trans hwe.symm)).2
      · subst hve
        exact absurd (hhead _ hwe) (lt_irrefl k)
    · rcases List.mem_cons.mp hw with hwe | hwe
      · subst hwe
        exact absurd (hhead _ hve) (lt_irrefl k)
      · exact ih htail hve hwe

theorem find?_eq_some_iff : m.find? k = some v ↔ (k, v) ∈ m.entries := by
  unfold find?
  rw [Option.map_eq_some_iff]
  refine ⟨fun ⟨⟨k', v'⟩, hfind, hv⟩ ↦ ?_, fun hmem ↦ ?_⟩
  · have hkey : k' = k := by simpa using List.find?_some hfind
    have hval : v' = v := hv
    exact hkey ▸ hval ▸ List.mem_of_find?_eq_some hfind
  · cases hfind : m.entries.find? fun e ↦ e.1 = k with
    | none => exact absurd (List.find?_eq_none.mp hfind _ hmem) (by simp)
    | some e =>
      have hkey : e.1 = k := by simpa using List.find?_some hfind
      have hentry : (k, e.2) ∈ m.entries := hkey ▸ List.mem_of_find?_eq_some hfind
      exact ⟨e, rfl, eq_of_mem hentry hmem⟩

theorem find?_eq_none_iff : m.find? k = none ↔ ∀ v, (k, v) ∉ m.entries := by
  rw [← Option.not_isSome_iff_eq_none, Option.isSome_iff_exists, not_exists]
  simp only [find?_eq_some_iff]

@[simp] theorem find?_empty (k : κ) : (empty : OrderedMap κ α).find? k = none := rfl

theorem mem_erase {e : κ × α} : e ∈ (m.erase k).entries ↔ e ∈ m.entries ∧ e.1 ≠ k := by
  simp [erase]

theorem find?_erase : (m.erase k).find? k' = if k' = k then none else m.find? k' := by
  split <;> rename_i h
  · rw [find?_eq_none_iff]
    intro v hv
    exact (mem_erase.mp hv).2 h
  · apply Option.ext
    intro v
    rw [find?_eq_some_iff, find?_eq_some_iff, mem_erase, and_iff_left h]

theorem mem_insert {e : κ × α} :
    e ∈ (m.insert k v).entries ↔ e = (k, v) ∨ (e ∈ m.entries ∧ e.1 ≠ k) := by
  rw [← mem_erase]
  exact (perm_insertEntry k v _).mem_iff.trans List.mem_cons

theorem find?_insert : (m.insert k v).find? k' = if k' = k then some v else m.find? k' := by
  apply Option.ext
  intro w
  rw [find?_eq_some_iff, mem_insert]
  split <;> rename_i h
  · simp [h, eq_comm]
  · simp [h, find?_eq_some_iff]

@[simp] theorem find?_insert_self : (m.insert k v).find? k = some v := by simp [find?_insert]

theorem find?_insert_of_ne (h : k' ≠ k) : (m.insert k v).find? k' = m.find? k' := by
  simp [find?_insert, h]

@[simp] theorem find?_erase_self : (m.erase k).find? k = none := by simp [find?_erase]

theorem find?_erase_of_ne (h : k' ≠ k) : (m.erase k).find? k' = m.find? k' := by
  simp [find?_erase, h]

theorem findFirst?_eq_some (h : m.findFirst? p = some (k, v)) :
    m.find? k = some v ∧ p v = true ∧ ∀ k' v', m.find? k' = some v' → p v' = true → k ≤ k' := by
  obtain ⟨hp, before, after, heq, hbefore⟩ := List.find?_eq_some_iff_append.mp h
  refine ⟨find?_eq_some_iff.mpr (by rw [heq]; simp), hp, fun k' v' hv' hp' ↦ ?_⟩
  have hmem := find?_eq_some_iff.mp hv'
  have hsorted := m.sorted
  rw [heq, List.pairwise_append, List.pairwise_cons] at hsorted
  rw [heq, List.mem_append, List.mem_cons] at hmem
  rcases hmem with hmem | hmem | hmem
  · have hnot := hbefore _ hmem
    simp [hp'] at hnot
  · exact (Prod.ext_iff.mp hmem).1.ge
  · exact (hsorted.2.1.1 _ hmem).le

theorem findFirst?_eq_none (h : m.findFirst? p = none) (hv : m.find? k = some v) : p v = false := by
  simpa using List.find?_eq_none.mp h _ (find?_eq_some_iff.mp hv)

theorem find?_filter_eq_some {q : κ × α → Bool} :
    (m.filter q).find? k = some v ↔ m.find? k = some v ∧ q (k, v) = true := by
  rw [find?_eq_some_iff, find?_eq_some_iff]
  exact List.mem_filter

theorem nodup_keys (m : OrderedMap κ α) : (m.entries.map Prod.fst).Nodup := by
  apply List.Pairwise.map _ _ m.sorted
  intro a b hab
  exact ne_of_lt hab

theorem head_le {e : κ × α} {es : List (κ × α)} (h : m.entries = e :: es) :
    m.find? e.1 = some e.2 ∧ ∀ k v, m.find? k = some v → e.1 ≤ k := by
  refine ⟨find?_eq_some_iff.mpr (by simp [h]), fun k v hv ↦ ?_⟩
  have hmem := find?_eq_some_iff.mp hv
  have hsorted := m.sorted
  rw [h] at hmem hsorted
  rcases List.mem_cons.mp hmem with heq | hmem
  · exact (congrArg Prod.fst heq).ge
  · exact ((List.pairwise_cons.mp hsorted).1 _ hmem).le

end Lookup

/-! ## Permutations of the entries -/

section Perm

variable {m : OrderedMap κ α} {k : κ} {v : α}

theorem erase_eq_self (h : m.find? k = none) : m.erase k = m := by
  have hall : ∀ e ∈ m.entries, decide (e.1 ≠ k) = true := by
    intro e he
    rw [decide_eq_true_eq]
    rintro rfl
    exact find?_eq_none_iff.mp h e.2 he
  cases m
  simp only [erase, mk.injEq]
  exact List.filter_eq_self.mpr hall

theorem perm_insert (h : m.find? k = none) : (m.insert k v).entries.Perm ((k, v) :: m.entries) := by
  have hentries : (m.erase k).entries = m.entries := congrArg entries (erase_eq_self h)
  show (insertEntry k v (m.erase k).entries).Perm _
  rw [hentries]
  exact perm_insertEntry k v m.entries

theorem perm_erase (h : m.find? k = some v) : m.entries.Perm ((k, v) :: (m.erase k).entries) := by
  obtain ⟨before, after, heq⟩ := List.append_of_mem (find?_eq_some_iff.mp h)
  have hsorted := m.sorted
  rw [heq, List.pairwise_append, List.pairwise_cons] at hsorted
  obtain ⟨-, ⟨hafter, -⟩, hbefore⟩ := hsorted
  have hkept : (m.erase k).entries = before ++ after := by
    show m.entries.filter _ = _
    rw [heq, List.filter_append, List.filter_cons, if_neg (by simp)]
    congr 1
    · exact List.filter_eq_self.mpr fun e he ↦ by
        simpa using (hbefore e he (k, v) (by simp)).ne
    · exact List.filter_eq_self.mpr fun e he ↦ by simpa using (hafter e he).ne'
  rw [hkept, heq]
  exact List.perm_middle

theorem size_erase (h : m.find? k = some v) : (m.erase k).size + 1 = m.size := by
  simpa [size] using (perm_erase h).length_eq.symm

theorem size_insert_of_none (h : m.find? k = none) : (m.insert k v).size = m.size + 1 := by
  simpa [size] using (perm_insert h).length_eq

theorem size_insert_of_some (h : m.find? k = some w) : (m.insert k v).size = m.size := by
  have hinsert : (m.insert k v).size = (m.erase k).size + 1 :=
    (perm_insertEntry k v (m.erase k).entries).length_eq
  rw [hinsert, size_erase h]

end Perm

/-! ## Maps that index another map -/

theorem ext_find? {m m' : OrderedMap κ α} (h : ∀ k, m.find? k = m'.find? k) : m = m' := by
  have hmem : ∀ e, e ∈ m.entries ↔ e ∈ m'.entries := by
    rintro ⟨k, v⟩
    rw [← find?_eq_some_iff, ← find?_eq_some_iff, h k]
  have hnodup (m : OrderedMap κ α) : m.entries.Nodup :=
    m.sorted.imp fun hlt heq ↦ absurd (congrArg Prod.fst heq) hlt.ne
  have hperm := (List.perm_ext_iff_of_nodup (hnodup m) (hnodup m')).mpr hmem
  have hentries : m.entries = m'.entries :=
    hperm.eq_of_pairwise (fun a b _ _ hab hba ↦ absurd hba hab.asymm) m.sorted m'.sorted
  cases m
  cases m'
  cases hentries
  rfl

theorem insert_erase_self {m : OrderedMap κ α} {k : κ} {v : α} (h : m.find? k = some v) :
    (m.erase k).insert k v = m := by
  apply ext_find?
  intro k'
  rw [find?_insert, find?_erase]
  split <;> rename_i hk
  · rw [hk, h]
  · rfl

section Index

variable {ι : Type} [LinearOrder ι] {m : OrderedMap κ ι} {c : OrderedMap ι α} {f : α → κ} {p : ι}
  {o o' : α}

/-- `m` finds an entry of `c` by the key `f` of its value. -/
def Indexes (m : OrderedMap κ ι) (c : OrderedMap ι α) (f : α → κ) : Prop :=
  ∀ key p, m.find? key = some p ↔ ∃ o, c.find? p = some o ∧ f o = key

theorem Indexes.find? (h : Indexes m c f) (ho : c.find? p = some o) : m.find? (f o) = some p :=
  (h _ _).mpr ⟨o, ho, rfl⟩

theorem indexes_empty (f : α → κ) : Indexes (empty : OrderedMap κ ι) (empty : OrderedMap ι α) f :=
  fun _ _ ↦ ⟨nofun, fun ⟨_, h, _⟩ ↦ by cases h⟩

variable (h : Indexes m c f)

include h

theorem Indexes.key_eq (ho : c.find? p = some o) {key : κ} (hkey : m.find? key = some p) : f o = key := by
  obtain ⟨o₁, ho₁, rfl⟩ := (h key p).mp hkey
  rw [ho] at ho₁
  cases ho₁
  rfl

/-- The value at `p` changes, and its entry in the index moves. -/
theorem Indexes.rekey (ho : c.find? p = some o) (hfree : f o' = f o ∨ m.find? (f o') = none) :
    Indexes ((m.erase (f o)).insert (f o') p) (c.insert p o') f := by
  intro key q
  rw [find?_insert, find?_erase]
  constructor
  · intro hq
    split at hq
    · cases hq
      exact ⟨o', find?_insert_self, by simp_all⟩
    · split at hq
      · cases hq
      · rename_i hold
        obtain ⟨o₁, ho₁, hkey⟩ := (h key q).mp hq
        have hne : q ≠ p := by
          rintro rfl
          rw [ho] at ho₁
          cases ho₁
          exact hold hkey.symm
        exact ⟨o₁, by rw [find?_insert_of_ne hne]; exact ho₁, hkey⟩
  · rintro ⟨o₁, ho₁, rfl⟩
    rw [find?_insert] at ho₁
    split at ho₁ <;> rename_i hqp
    · cases ho₁
      rw [if_pos rfl, hqp]
    · have hq := h.find? ho₁
      have hp := h.find? ho
      have hne : f o₁ ≠ f o := by
        intro heq
        rw [heq, hp] at hq
        exact hqp (Option.some.inj hq).symm
      have hne' : f o₁ ≠ f o' := by
        intro heq
        rcases hfree with hsame | hnone
        · exact hne (heq.trans hsame)
        · rw [heq, hnone] at hq
          cases hq
      rw [if_neg hne', if_neg hne]
      exact hq

theorem Indexes.update (ho : c.find? p = some o) (hkey : f o' = f o) :
    Indexes m (c.insert p o') f := by
  have := h.rekey ho (.inl hkey)
  rwa [hkey, insert_erase_self (h.find? ho)] at this

theorem Indexes.add (hp : c.find? p = none) (hfree : m.find? (f o) = none) :
    Indexes (m.insert (f o) p) (c.insert p o) f := by
  intro key q
  rw [find?_insert]
  constructor
  · intro hq
    split at hq
    · cases hq
      exact ⟨o, find?_insert_self, by simp_all⟩
    · obtain ⟨o₁, ho₁, hkey⟩ := (h key q).mp hq
      have hne : q ≠ p := by
        rintro rfl
        rw [hp] at ho₁
        cases ho₁
      exact ⟨o₁, by rw [find?_insert_of_ne hne]; exact ho₁, hkey⟩
  · rintro ⟨o₁, ho₁, rfl⟩
    rw [find?_insert] at ho₁
    split at ho₁ <;> rename_i hqp
    · cases ho₁
      rw [if_pos rfl, hqp]
    · have hq := h.find? ho₁
      have hne : f o₁ ≠ f o := by
        intro heq
        rw [heq, hfree] at hq
        cases hq
      rw [if_neg hne]
      exact hq

theorem Indexes.remove (ho : c.find? p = some o) :
    Indexes (m.erase (f o)) (c.erase p) f := by
  intro key q
  rw [find?_erase]
  constructor
  · intro hq
    split at hq
    · cases hq
    · rename_i hold
      obtain ⟨o₁, ho₁, hkey⟩ := (h key q).mp hq
      have hne : q ≠ p := by
        rintro rfl
        rw [ho] at ho₁
        cases ho₁
        exact hold hkey.symm
      exact ⟨o₁, by rw [find?_erase_of_ne hne]; exact ho₁, hkey⟩
  · rintro ⟨o₁, ho₁, rfl⟩
    rw [find?_erase] at ho₁
    split at ho₁
    · cases ho₁
    · rename_i hqp
      have hq := h.find? ho₁
      have hne : f o₁ ≠ f o := by
        intro heq
        rw [heq, h.find? ho] at hq
        exact hqp (Option.some.inj hq).symm
      rw [if_neg hne]
      exact hq

end Index

/-! ## Sums over the values -/

/-- The sum of `f` over all values. -/
def sum (m : OrderedMap κ α) (f : α → ℤ) : ℤ := (m.entries.map fun e ↦ f e.2).sum

section Sum

variable {m : OrderedMap κ α} {k : κ} {v w : α} (f : α → ℤ)

@[simp] theorem sum_empty : (empty : OrderedMap κ α).sum f = 0 := rfl

theorem sum_insert (h : m.find? k = none) : (m.insert k v).sum f = f v + m.sum f := by
  unfold sum
  rw [((perm_insert h).map _).sum_eq, List.map_cons, List.sum_cons]

theorem sum_erase (h : m.find? k = some v) : (m.erase k).sum f = m.sum f - f v := by
  have hperm := ((perm_erase h).map fun e ↦ f e.2).sum_eq
  rw [List.map_cons, List.sum_cons] at hperm
  unfold sum
  linarith

theorem sum_replace (h : m.find? k = some w) : (m.insert k v).sum f = m.sum f - f w + f v := by
  have hsame : m.insert k v = (m.erase k).insert k v := by
    unfold insert
    have htwice : (m.erase k).erase k = m.erase k := erase_eq_self find?_erase_self
    rw [OrderedMap.mk.injEq, htwice]
  rw [hsame, sum_insert f find?_erase_self, sum_erase f h]
  omega

theorem sum_congr {g : α → ℤ} (h : ∀ k v, m.find? k = some v → f v = g v) : m.sum f = m.sum g := by
  unfold sum
  apply congrArg List.sum
  apply List.map_congr_left
  intro e he
  exact h e.1 e.2 (find?_eq_some_iff.mpr he)

/-- Functions that differ in one value, which is in the map once. -/
theorem sum_update {g : α → ℤ} (h : m.find? k = some v) (honce : ∀ k', m.find? k' = some v → k' = k)
    (hother : ∀ w, w ≠ v → g w = f w) : m.sum g = m.sum f - f v + g v := by
  have herase : (m.erase k).sum g = (m.erase k).sum f := by
    apply sum_congr
    intro k' w hw
    apply hother
    intro hwv
    subst hwv
    rw [find?_erase] at hw
    split at hw
    · cases hw
    · exact absurd (honce k' hw) ‹_›
  rw [sum_erase g h, sum_erase f h] at herase
  omega

theorem sum_nonneg (h : ∀ v, 0 ≤ f v) : 0 ≤ m.sum f := by
  unfold sum
  induction m.entries with
  | nil => exact le_rfl
  | cons e es ih =>
    rw [List.map_cons, List.sum_cons]
    exact Int.add_nonneg (h e.2) ih

end Sum

end OrderedMap

end InetManet
