import InetManet.OSPF.LinkState

/-!
# Which instance of an LSA is more recent

Routers decide by the two operators on headers which copy of an LSA they keep. An instance at MaxAge is
meant to be the more recent one of its sequence number and checksum, but the difference of the ages is
compared for it too.
-/

namespace InetManet.OSPF.LSAHeader

variable {a b : LSAHeader}

/-- The copy that a router has after an update: the received one if the stored one is older. -/
def kept (stored received : LSAHeader) : LSAHeader :=
  if stored.isOlder received then received else stored

def SameNumbers (a b : LSAHeader) : Prop :=
  a.lsSequenceNumber = b.lsSequenceNumber ∧ a.lsChecksum = b.lsChecksum

/-- Exactly one of the two operators holds, in exactly one direction. -/
def Trichotomous (a b : LSAHeader) : Prop :=
  (a.isOlder b = true ∧ a.sameInstance b = false ∧ b.isOlder a = false) ∨
    (a.isOlder b = false ∧ a.sameInstance b = true ∧ b.isOlder a = false) ∨
    (a.isOlder b = false ∧ a.sameInstance b = false ∧ b.isOlder a = true)

/-- An instance at MaxAge is not older than one below MaxAge with the same numbers. -/
def MaxAgeIsRecent (a b : LSAHeader) : Prop :=
  SameNumbers a b → a.lsAge = maxAge → b.lsAge < maxAge → a.isOlder b = false

/-- Two routers that send each other their copies end up with the same instance. -/
def Agree (a b : LSAHeader) : Prop := (kept a b).sameInstance (kept b a) = true

/-- The first instance is at MaxAge and the second one is much younger. -/
def Expired (a b : LSAHeader) : Prop :=
  SameNumbers a b ∧ a.lsAge = maxAge ∧ b.lsAge + maxAgeDiff < maxAge

/-! ## The operators -/

theorem isOlder_iff : a.isOlder b = true ↔
    a.lsSequenceNumber < b.lsSequenceNumber ∨ a.lsSequenceNumber = b.lsSequenceNumber ∧
      (a.lsChecksum < b.lsChecksum ∨ a.lsChecksum = b.lsChecksum ∧
        (a.lsAge ≠ maxAge ∧ b.lsAge = maxAge ∨ b.lsAge + maxAgeDiff < a.lsAge)) := by
  have hage : (maxAgeDiff < Int.natAbs (a.lsAge - b.lsAge) ∧ b.lsAge < a.lsAge) ↔
      b.lsAge + maxAgeDiff < a.lsAge := by
    omega
  rw [← hage]
  simp only [isOlder, Bool.or_eq_true, Bool.and_eq_true, decide_eq_true_eq, beq_iff_eq, bne_iff_ne]

theorem sameInstance_iff : a.sameInstance b = true ↔
    SameNumbers a b ∧ (a.lsAge = maxAge ∧ b.lsAge = maxAge ∨ (a.lsAge ≠ maxAge ∧ b.lsAge ≠ maxAge ∧
      a.lsAge ≤ b.lsAge + maxAgeDiff ∧ b.lsAge ≤ a.lsAge + maxAgeDiff)) := by
  have hage : Int.natAbs (a.lsAge - b.lsAge) ≤ maxAgeDiff ↔
      a.lsAge ≤ b.lsAge + maxAgeDiff ∧ b.lsAge ≤ a.lsAge + maxAgeDiff := by
    omega
  rw [← hage]
  simp only [sameInstance, SameNumbers, Bool.or_eq_true, Bool.and_eq_true, decide_eq_true_eq, beq_iff_eq,
    bne_iff_ne, and_assoc]

theorem sameInstance_self (a : LSAHeader) : a.sameInstance a = true := by
  rw [sameInstance_iff]
  refine ⟨⟨rfl, rfl⟩, ?_⟩
  by_cases hage : a.lsAge = maxAge
  · exact .inl ⟨hage, hage⟩
  · exact .inr ⟨hage, hage, Nat.le_add_right _ _, Nat.le_add_right _ _⟩

theorem trichotomous_of_numbers (h : ¬ SameNumbers a b) : Trichotomous a b := by
  have hsame : a.sameInstance b = false := by
    rw [Bool.eq_false_iff, ne_eq, sameInstance_iff]
    exact fun hinstance ↦ h hinstance.1
  have hlt : ∀ {x y : LSAHeader}, ¬ SameNumbers x y → x.isOlder y = true → y.isOlder x = false := by
    intro x y hxy holder
    rw [Bool.eq_false_iff, ne_eq, isOlder_iff]
    rw [isOlder_iff] at holder
    unfold SameNumbers at hxy
    omega
  have hgt : a.isOlder b = false → b.isOlder a = true := by
    intro hnot
    rw [Bool.eq_false_iff, ne_eq, isOlder_iff] at hnot
    rw [isOlder_iff]
    unfold SameNumbers at h
    omega
  cases holder : a.isOlder b with
  | true => exact .inl ⟨holder, hsame, hlt h holder⟩
  | false => exact .inr (.inr ⟨holder, hsame, hgt holder⟩)

/-- With the same numbers the ages decide, and only an expired instance against a much younger one is
older in both directions. -/
theorem trichotomous_of_ages (h : SameNumbers a b) (ha : a.lsAge ≤ maxAge) (hb : b.lsAge ≤ maxAge)
    (hab : ¬ Expired a b) (hba : ¬ Expired b a) : Trichotomous a b := by
  obtain ⟨hsequence, hchecksum⟩ := h
  have hab : ¬ (a.lsAge = maxAge ∧ b.lsAge + maxAgeDiff < maxAge) :=
    fun hage ↦ hab ⟨⟨hsequence, hchecksum⟩, hage⟩
  have hba : ¬ (b.lsAge = maxAge ∧ a.lsAge + maxAgeDiff < maxAge) :=
    fun hage ↦ hba ⟨⟨hsequence.symm, hchecksum.symm⟩, hage⟩
  unfold Trichotomous
  simp only [Bool.eq_false_iff, ne_eq, isOlder_iff, sameInstance_iff, SameNumbers, hsequence, hchecksum,
    lt_irrefl, true_and, false_or]
  omega

theorem agree_of_trichotomous (h : Trichotomous a b) : Agree a b := by
  unfold Agree kept
  rcases h with ⟨hab, -, hba⟩ | ⟨hab, hsame, hba⟩ | ⟨hab, -, hba⟩
  · simpa [hab, hba] using sameInstance_self b
  · simpa [hab, hba] using hsame
  · simpa [hab, hba] using sameInstance_self a

/-- Each of the two instances is older than the other one. -/
theorem Expired.isOlder (h : Expired a b) : a.isOlder b = true ∧ b.isOlder a = true := by
  obtain ⟨⟨hsequence, hchecksum⟩, hage, hyoung⟩ := h
  constructor
  · rw [isOlder_iff]
    exact .inr ⟨hsequence, .inr ⟨hchecksum, .inr (hage ▸ hyoung)⟩⟩
  · rw [isOlder_iff]
    exact .inr ⟨hsequence.symm, .inr ⟨hchecksum.symm, .inl ⟨by omega, hage⟩⟩⟩

theorem Trichotomous.not_both (h : Trichotomous a b) : ¬ (a.isOlder b = true ∧ b.isOlder a = true) := by
  rintro ⟨hab, hba⟩
  rcases h with ⟨-, -, hnot⟩ | ⟨hnot, -, -⟩ | ⟨hnot, -, -⟩
  · rw [hba] at hnot
    cases hnot
  · rw [hab] at hnot
    cases hnot
  · rw [hab] at hnot
    cases hnot

theorem maxAgeIsRecent_of_not_expired (h : ¬ Expired a b) : MaxAgeIsRecent a b := by
  intro hnumbers hage hyoung
  rw [Bool.eq_false_iff, ne_eq, isOlder_iff, hnumbers.1, hnumbers.2]
  have hold : ¬ b.lsAge + maxAgeDiff < maxAge := fun hdiff ↦ h ⟨hnumbers, hage, hdiff⟩
  omega

/-- The comparison of two instances is total, prefers MaxAge and lets both routers keep the same one,
except for an instance at MaxAge and one that is more than MaxAgeDiff younger. -/
theorem freshness_total_iff (a b : LSAHeader) (ha : a.lsAge ≤ maxAge) (hb : b.lsAge ≤ maxAge) :
    (Trichotomous a b ∧ MaxAgeIsRecent a b ∧ MaxAgeIsRecent b a ∧ Agree a b) ↔
      ¬ Expired a b ∧ ¬ Expired b a := by
  constructor
  · rintro ⟨htotal, -, -, -⟩
    constructor
    · intro hexpired
      exact htotal.not_both hexpired.isOlder
    · intro hexpired
      exact htotal.not_both hexpired.isOlder.symm
  · rintro ⟨hab, hba⟩
    have htotal : Trichotomous a b := by
      by_cases hnumbers : SameNumbers a b
      · exact trichotomous_of_ages hnumbers ha hb hab hba
      · exact trichotomous_of_numbers hnumbers
    exact ⟨htotal, maxAgeIsRecent_of_not_expired hab, maxAgeIsRecent_of_not_expired hba,
      agree_of_trichotomous htotal⟩

/-- A header of one LSA that differs in its age only. -/
def aged (lsAge : ℕ) : LSAHeader := ⟨lsAge, .routerLSA, 1, 1, 5, 0⟩

theorem recent_instances_total : Trichotomous (aged 10) (aged maxAge.pred) ∧
    Agree (aged 10) (aged maxAge.pred) := by
  have htotal := (freshness_total_iff (aged 10) (aged maxAge.pred) (by decide) (by decide)).mpr
    ⟨fun h ↦ absurd h.2.1 (by decide), fun h ↦ absurd h.2.1 (by decide)⟩
  exact ⟨htotal.1, htotal.2.2.2⟩

/-- Each router keeps the copy of the other one. -/
theorem expired_instance_swapped : (aged maxAge).isOlder (aged 0) = true ∧
    (aged 0).isOlder (aged maxAge) = true ∧ ¬ Trichotomous (aged maxAge) (aged 0) ∧
    ¬ MaxAgeIsRecent (aged maxAge) (aged 0) ∧ ¬ Agree (aged maxAge) (aged 0) := by
  have hboth : (aged maxAge).isOlder (aged 0) = true ∧ (aged 0).isOlder (aged maxAge) = true := by
    decide
  refine ⟨hboth.1, hboth.2, fun htotal ↦ htotal.not_both hboth, ?_, ?_⟩
  · intro hrecent
    exact absurd (hrecent ⟨rfl, rfl⟩ rfl (by decide)) (by decide)
  · unfold Agree kept
    decide

end InetManet.OSPF.LSAHeader
