import InetManet.Library.OrderedMap

/-!
# Maps of lists

A map that finds the entries of another map by a key of their values, where several entries may
share a key: `m` holds a list for each key, in the order in which the entries came. `Buckets` is
the counterpart of `OrderedMap.Indexes` for such maps. No list is empty, so that looking up a key
tells whether the key is in use.
-/

namespace InetManet.OrderedMap

variable {κ ι α : Type} [LinearOrder κ] [LinearOrder ι]

/-- The list at `key`, empty where there is none. -/
def bucket (m : OrderedMap κ (List ι)) (key : κ) : List ι := (m.find? key).getD []

/-- `m[key].push_back(p)`. -/
def pushBucket (m : OrderedMap κ (List ι)) (key : κ) (p : ι) : OrderedMap κ (List ι) :=
  m.insert key (m.bucket key ++ [p])

/-- `p` is taken out of the list at `key`, and the list is dropped when nothing is left. -/
def pullBucket (m : OrderedMap κ (List ι)) (key : κ) (p : ι) : OrderedMap κ (List ι) :=
  if ((m.bucket key).erase p).isEmpty then m.erase key else m.insert key ((m.bucket key).erase p)

/-- Each entry of `c` is exactly once in the list of its key, and no list is empty. -/
structure Buckets (m : OrderedMap κ (List ι)) (c : OrderedMap ι α) (f : α → κ) : Prop where
  nonempty : ∀ key, m.find? key ≠ some []
  nodup : ∀ key, (m.bucket key).Nodup
  mem_iff : ∀ key p, p ∈ m.bucket key ↔ ∃ o, c.find? p = some o ∧ f o = key

variable {m : OrderedMap κ (List ι)} {c : OrderedMap ι α} {f : α → κ} {p : ι} {o o' : α}
  {key key' : κ}

omit [LinearOrder ι] in
theorem bucket_pushBucket :
    (m.pushBucket key p).bucket key' = if key' = key then m.bucket key ++ [p] else m.bucket key' := by
  unfold pushBucket bucket
  rw [find?_insert]
  split <;> rfl

theorem bucket_pullBucket :
    (m.pullBucket key p).bucket key' =
      if key' = key then (m.bucket key).erase p else m.bucket key' := by
  unfold pullBucket
  by_cases hempty : ((m.bucket key).erase p).isEmpty = true
  · rw [if_pos hempty]
    by_cases hkey : key' = key
    · subst hkey
      rw [if_pos rfl, List.isEmpty_iff.mp hempty, bucket, find?_erase_self]
      rfl
    · rw [if_neg hkey, bucket, find?_erase_of_ne hkey]
      rfl
  · rw [if_neg hempty]
    by_cases hkey : key' = key
    · subst hkey
      rw [if_pos rfl]
      conv_lhs => rw [bucket, find?_insert_self]
      rfl
    · rw [if_neg hkey]
      conv_lhs => rw [bucket, find?_insert_of_ne hkey]
      rfl

theorem buckets_empty (f : α → κ) :
    Buckets (empty : OrderedMap κ (List ι)) (empty : OrderedMap ι α) f where
  nonempty _ := nofun
  nodup _ := List.nodup_nil
  mem_iff _ _ := ⟨nofun, fun ⟨_, h, _⟩ ↦ by cases h⟩

theorem Buckets.add (h : Buckets m c f) (hp : c.find? p = none) :
    Buckets (m.pushBucket (f o) p) (c.insert p o) f := by
  have hnew : ∀ key, p ∉ m.bucket key := by
    intro key hmem
    obtain ⟨o₁, ho₁, _⟩ := (h.mem_iff key p).mp hmem
    rw [hp] at ho₁
    cases ho₁
  constructor
  · intro key hkey
    rw [pushBucket, find?_insert] at hkey
    split at hkey
    · have hlen := congrArg List.length (Option.some.inj hkey)
      rw [List.length_append, List.length_singleton, List.length_nil] at hlen
      omega
    · exact h.nonempty key hkey
  · intro key
    rw [bucket_pushBucket]
    split
    · apply List.Nodup.append (h.nodup _) (List.nodup_singleton p)
      rw [List.disjoint_singleton]
      exact hnew _
    · exact h.nodup key
  · intro key q
    rw [bucket_pushBucket, find?_insert]
    by_cases hq : q = p
    · subst hq
      rw [if_pos rfl]
      by_cases hkey : key = f o
      · subst hkey
        simp
      · rw [if_neg hkey]
        constructor
        · intro hmem
          exact absurd hmem (hnew key)
        · rintro ⟨o₁, ho₁, hk⟩
          cases ho₁
          exact absurd hk.symm hkey
    · rw [if_neg hq, ← h.mem_iff key q]
      split <;> rename_i hkey
      · rw [List.mem_append, List.mem_singleton, hkey]
        exact or_iff_left hq
      · rfl

theorem Buckets.update (h : Buckets m c f) (ho : c.find? p = some o) (hkey : f o' = f o) :
    Buckets m (c.insert p o') f where
  nonempty := h.nonempty
  nodup := h.nodup
  mem_iff key q := by
    rw [h.mem_iff key q, find?_insert]
    split <;> rename_i hq
    · subst hq
      rw [ho]
      constructor
      · rintro ⟨o₁, ho₁, hk⟩
        cases ho₁
        exact ⟨o', rfl, hkey.trans hk⟩
      · rintro ⟨o₁, ho₁, hk⟩
        cases ho₁
        exact ⟨o, rfl, hkey.symm.trans hk⟩
    · rfl

theorem Buckets.remove (h : Buckets m c f) (ho : c.find? p = some o) :
    Buckets (m.pullBucket (f o) p) (c.erase p) f := by
  constructor
  · intro key hkey
    unfold pullBucket at hkey
    split at hkey <;> rename_i hempty
    · rw [find?_erase] at hkey
      split at hkey
      · cases hkey
      · exact h.nonempty key hkey
    · rw [find?_insert] at hkey
      split at hkey
      · rw [Option.some.inj hkey] at hempty
        exact hempty rfl
      · exact h.nonempty key hkey
  · intro key
    rw [bucket_pullBucket]
    split
    · exact (h.nodup _).erase p
    · exact h.nodup key
  · intro key q
    rw [bucket_pullBucket, find?_erase]
    by_cases hq : q = p
    · subst hq
      rw [if_pos rfl]
      have hout : ¬ ∃ o₁ : α, none = some o₁ ∧ f o₁ = key := by
        rintro ⟨o₁, ho₁, _⟩
        cases ho₁
      apply iff_of_false _ hout
      split <;> rename_i hkey
      · exact (h.nodup _).not_mem_erase
      · intro hmem
        obtain ⟨o₁, ho₁, hk⟩ := (h.mem_iff key q).mp hmem
        rw [ho] at ho₁
        cases ho₁
        exact hkey hk.symm
    · rw [if_neg hq, ← h.mem_iff key q]
      split <;> rename_i hkey
      · rw [List.mem_erase_of_ne hq, hkey]
      · rfl

end InetManet.OrderedMap
