import InetManet.OSPF.AreaDatabase
import Mathlib.Data.List.Nodup

/-!
# Consistency of the link state database

The vector and the map hold the same LSAs, each under its own key, as long as what is originated in
place of an own LSA has its key. The router LSA always has the ID of this router, so that an own router
LSA with another ID gets into disorder when it is refreshed.
-/

namespace InetManet.OSPF

open TransitionSystem

namespace LSAStore

variable {κ β : Type} {key : LSAHeader → κ} {Q : LSA β → Prop} {s s' : LSAStore κ β}

/-- What the map finds has not been freed and has the key. -/
def Live (key : LSAHeader → κ) (Q : LSA β → Prop) (s : LSAStore κ β) : Prop :=
  ∀ k p, s.byID k = some p → ∃ x, s.heap p = some x ∧ key x.header = k ∧ Q x

/-- The vector and the map hold the same LSAs. -/
structure Consistent (key : LSAHeader → κ) (Q : LSA β → Prop) (s : LSAStore κ β) : Prop where
  live : Live key Q s
  mem_iff : ∀ p, some p ∈ s.vector ↔ ∃ k, s.byID k = some p
  noNull : none ∉ s.vector
  nodup : s.vector.Nodup
  old : ∀ k p, s.byID k = some p → p < s.fresh

theorem Live.key_unique (h : Live key Q s) {k k' : κ} {p : ℕ} (hk : s.byID k = some p)
    (hk' : s.byID k' = some p) : k = k' := by
  obtain ⟨x, hx, hxk, _⟩ := h k p hk
  obtain ⟨y, hy, hyk, _⟩ := h k' p hk'
  rw [hx, Option.some.injEq] at hy
  rw [← hxk, ← hyk, hy]

/-! ## Installing -/

theorem Live.update (h : Live key Q s) {p : ℕ} {x y : LSA β} (hx : s.heap p = some x)
    (hkey : key y.header = key x.header) (hy : Q y) :
    Live key Q { s with heap := Function.update s.heap p (some y) } := by
  intro k q hq
  obtain ⟨z, hz, hzk, hzQ⟩ := h k q hq
  by_cases hqp : q = p
  · subst hqp
    rw [hx, Option.some.injEq] at hz
    refine ⟨y, Function.update_self _ _ _, ?_, hy⟩
    rw [hkey, hz, hzk]
  · refine ⟨z, ?_, hzk, hzQ⟩
    dsimp only
    rw [Function.update_of_ne hqp]
    exact hz

theorem Consistent.install [DecidableEq κ] (h : Consistent key Q s) {lsa : LSA β} (hlsa : Q lsa) :
    Outcome (s.install key lsa) (Consistent key Q) fun _ ↦ False := by
  unfold LSAStore.install
  cases hk : s.byID (key lsa.header) with
  | some p =>
    obtain ⟨x, hx, hxk, _⟩ := h.live _ p hk
    dsimp only
    rw [hx]
    exact ⟨h.live.update hx hxk.symm hlsa, h.mem_iff, h.noNull, h.nodup, h.old⟩
  | none =>
    have hfresh : some s.fresh ∉ s.vector := by
      intro hmem
      obtain ⟨k, hk'⟩ := (h.mem_iff _).mp hmem
      exact lt_irrefl _ (h.old k _ hk')
    refine ⟨fun k q hq ↦ ?_, fun p ↦ ?_, ?_, ?_, fun k q hq ↦ ?_⟩
    · dsimp only at hq ⊢
      by_cases hkk : k = key lsa.header
      · rw [hkk, Function.update_self, Option.some.injEq] at hq
        rw [← hq, hkk]
        exact ⟨lsa, Function.update_self _ _ _, rfl, hlsa⟩
      · rw [Function.update_of_ne hkk] at hq
        rw [Function.update_of_ne (h.old k q hq).ne]
        exact h.live k q hq
    · dsimp only
      rw [List.mem_append, List.mem_singleton, Option.some.injEq, h.mem_iff]
      constructor
      · rintro (⟨k, hk'⟩ | rfl)
        · refine ⟨k, ?_⟩
          have hkk : k ≠ key lsa.header := by
            rintro rfl
            rw [hk] at hk'
            cases hk'
          rw [Function.update_of_ne hkk]
          exact hk'
        · exact ⟨key lsa.header, Function.update_self _ _ _⟩
      · rintro ⟨k, hk'⟩
        by_cases hkk : k = key lsa.header
        · rw [hkk, Function.update_self, Option.some.injEq] at hk'
          exact .inr hk'.symm
        · rw [Function.update_of_ne hkk] at hk'
          exact .inl ⟨k, hk'⟩
    · simp [h.noNull]
    · rw [List.nodup_append]
      refine ⟨h.nodup, List.nodup_singleton _, ?_⟩
      intro a ha b hb hab
      rw [List.mem_singleton.mp hb] at hab
      rw [hab] at ha
      exact hfresh ha
    · dsimp only at hq ⊢
      by_cases hkk : k = key lsa.header
      · rw [hkk, Function.update_self, Option.some.injEq] at hq
        omega
      · rw [Function.update_of_ne hkk] at hq
        exact (h.old k q hq).trans (Nat.lt_succ_self _)

/-! ## Aging -/

/-- What is left of an LSA. -/
def result : Action β → Option (LSA β)
  | .keep lsa => some lsa
  | _ => none

/-- An LSA that stays keeps its key, and none is only freed. -/
def Acts (key : LSAHeader → κ) (Q : LSA β → Prop) (x : LSA β) : Action β → Prop
  | .keep y => key y.header = key x.header ∧ Q y
  | .remove => True
  | .free => False

/-- What the loop does with the entries that are left. -/
structure Aged (key : LSAHeader → κ) (Q : LSA β → Prop) (action : ℕ → LSA β → Action β) (i : ℕ)
    (entries entries' : List (Option ℕ)) (s s' : LSAStore κ β) : Prop where
  live : Live key Q s'
  other : ∀ k q, some q ∉ entries → (s'.byID k = some q ↔ s.byID k = some q)
  heap : ∀ q, some q ∉ entries → s'.heap q = s.heap q
  mem_iff : ∀ q, some q ∈ entries' ↔ some q ∈ entries ∧ ∃ k, s'.byID k = some q
  sublist : (entries'.filter Option.isSome).Sublist entries
  turned : ∀ j p x, entries[j]? = some (some p) → s.heap p = some x →
    s'.heap p = result (action (i + j) x)
  sub : ∀ k q, s'.byID k = some q → s.byID k = some q
  fresh : s'.fresh = s.fresh

theorem Aged.cons {action : ℕ → LSA β → Action β} {i p : ℕ} {x : LSA β}
    {entries entries' : List (Option ℕ)} {s₁ : LSAStore κ β}
    (h : Aged key Q action (i + 1) entries entries' s₁ s') (hp : some p ∉ entries)
    (hx : s.heap p = some x) (hin : ∃ k, s.byID k = some p)
    (hheap : ∀ q, q ≠ p → s₁.heap q = s.heap q) (hturn : s₁.heap p = result (action i x))
    (hby : ∀ k q, s₁.byID k = some q ↔
      s.byID k = some q ∧ (q = p → result (action i x) ≠ none))
    (hfresh : s₁.fresh = s.fresh) :
    Aged key Q action i (some p :: entries) ((result (action i x)).map (fun _ ↦ p) :: entries')
      s s' := by
  have hne : ∀ q, some q ∈ entries → q ≠ p := by
    rintro q hq rfl
    exact hp hq
  refine ⟨h.live, fun k q hq ↦ ?_, fun q hq ↦ ?_, fun q ↦ ?_, ?_, fun j q y hq hy ↦ ?_,
    fun k q hq ↦ ((hby k q).mp (h.sub k q hq)).1, h.fresh.trans hfresh⟩
  · have hqp : q ≠ p := by
      rintro rfl
      exact hq List.mem_cons_self
    rw [h.other k q fun hmem ↦ hq (List.mem_cons_of_mem _ hmem), hby]
    exact and_iff_left fun heq ↦ absurd heq hqp
  · have hqp : q ≠ p := by
      rintro rfl
      exact hq List.mem_cons_self
    rw [h.heap q fun hmem ↦ hq (List.mem_cons_of_mem _ hmem), hheap q hqp]
  · by_cases hqp : q = p
    · subst hqp
      have hrest : some q ∉ entries' := fun hmem ↦ hp ((h.mem_iff q).mp hmem).1
      have hmap : (∃ k, s'.byID k = some q) ↔ result (action i x) ≠ none := by
        constructor
        · rintro ⟨k, hk⟩
          exact ((hby k q).mp ((h.other k q hp).mp hk)).2 rfl
        · intro hresult
          obtain ⟨k, hk⟩ := hin
          exact ⟨k, (h.other k q hp).mpr ((hby k q).mpr ⟨hk, fun _ ↦ hresult⟩)⟩
      rw [hmap]
      cases result (action i x) with
      | none => simp [hrest]
      | some y => simp
    · have hhead : some q ≠ (result (action i x)).map fun _ ↦ p := by
        cases result (action i x) with
        | none => simp
        | some y => simpa using hqp
      rw [List.mem_cons, or_iff_right hhead, h.mem_iff, List.mem_cons, Option.some.injEq,
        or_iff_right hqp]
  · cases result (action i x) with
    | none => exact (h.sublist).cons _
    | some y => exact (h.sublist).cons_cons _
  · cases j with
    | zero =>
      rw [List.getElem?_cons_zero, Option.some.injEq, Option.some.injEq] at hq
      subst hq
      rw [hx, Option.some.injEq] at hy
      subst hy
      rw [h.heap p hp]
      exact hturn
    | succ j =>
      rw [List.getElem?_cons_succ] at hq
      rw [← hheap q (hne q (List.mem_of_getElem? hq))] at hy
      rw [h.turned j q y hq hy, Nat.add_right_comm i 1 j]
      rfl

/-- Without one of the keys the map still holds the other LSAs. -/
theorem Live.byID_erase [DecidableEq κ] (h : Live key Q s) {k : κ} {p : ℕ} (hk : s.byID k = some p)
    (k' : κ) (q : ℕ) :
    Function.update s.byID k none k' = some q ↔ s.byID k' = some q ∧ q ≠ p := by
  by_cases hkk : k' = k
  · rw [hkk, Function.update_self, hk, Option.some.injEq]
    constructor
    · nofun
    · rintro ⟨rfl, hno⟩
      exact absurd rfl hno
  · rw [Function.update_of_ne hkk]
    constructor
    · intro hq
      refine ⟨hq, ?_⟩
      rintro rfl
      exact hkk (h.key_unique hq hk)
    · exact fun h ↦ h.1

theorem Live.erase [DecidableEq κ] (h : Live key Q s) {k : κ} {p : ℕ} (hk : s.byID k = some p) :
    Live key Q { s with
      heap := Function.update s.heap p none
      byID := Function.update s.byID k none } := by
  intro k' q hq
  obtain ⟨hq', hno⟩ := (h.byID_erase hk k' q).mp hq
  obtain ⟨y, hy, hyk, hyQ⟩ := h k' q hq'
  exact ⟨y, (Function.update_of_ne hno _ _).trans hy, hyk, hyQ⟩

theorem outcome_ageEntries [DecidableEq κ] {action : ℕ → LSA β → Action β}
    (entries : List (Option ℕ)) (i : ℕ)
    (haction : ∀ j p x, entries[j]? = some (some p) → s.heap p = some x → Q x →
      Acts key Q x (action (i + j) x)) (hlive : Live key Q s)
    (hentries : ∀ p, some p ∈ entries → ∃ k, s.byID k = some p) (hnoNull : none ∉ entries)
    (hnodup : entries.Nodup) :
    Outcome (ageEntries key action i entries s)
      (fun x ↦ Aged key Q action i entries x.1 s x.2) fun _ ↦ False := by
  induction entries generalizing i s with
  | nil =>
    exact ⟨hlive, fun _ _ _ ↦ Iff.rfl, fun _ _ ↦ rfl, fun q ↦ ⟨nofun, fun h ↦ by cases h.1⟩,
      List.Sublist.refl _, nofun, fun _ _ h ↦ h, rfl⟩
  | cons entry entries ih =>
    rw [List.nodup_cons] at hnodup
    cases entry with
    | none => exact absurd List.mem_cons_self hnoNull
    | some p =>
      obtain ⟨k, hk⟩ := hentries p List.mem_cons_self
      obtain ⟨x, hx, hxk, hxQ⟩ := hlive k p hk
      have hacts := haction 0 p x rfl hx hxQ
      rw [Nat.add_zero] at hacts
      have hne : ∀ q, some q ∈ entries → q ≠ p := by
        rintro q hq rfl
        exact hnodup.1 hq
      -- the other LSAs are still there when their turn comes
      have hrest : ∀ {s₁ : LSAStore κ β}, (∀ q, q ≠ p → s₁.heap q = s.heap q) →
          ∀ j q y, entries[j]? = some (some q) → s₁.heap q = some y → Q y →
            Acts key Q y (action (i + 1 + j) y) := by
        intro s₁ hheap j q y hq hy hyQ
        rw [hheap q (hne q (List.mem_of_getElem? hq))] at hy
        rw [Nat.add_assoc, Nat.add_comm 1 j]
        exact haction (j + 1) q y hq hy hyQ
      unfold ageEntries ageEntry
      dsimp only
      rw [hx]
      dsimp only
      cases hact : action i x with
      | free =>
        rw [hact] at hacts
        exact hacts.elim
      | keep y =>
        rw [hact] at hacts
        have hlive' := hlive.update hx hacts.1 hacts.2
        rw [ok_bind]
        apply (ih (i + 1) (hrest fun q hq ↦ Function.update_of_ne hq _ _) hlive'
          (fun q hq ↦ hentries q (List.mem_cons_of_mem _ hq))
          (fun h ↦ hnoNull (List.mem_cons_of_mem _ h)) hnodup.2).bind
        intro z hz
        have hcons := hz.cons hnodup.1 hx ⟨k, hk⟩ (fun q hq ↦ Function.update_of_ne hq _ _)
          ((Function.update_self _ _ _).trans (by rw [hact]; rfl))
          (fun k' q ↦ (and_iff_left fun _ ↦ by rw [hact]; nofun).symm) rfl
        rw [hact] at hcons
        exact hcons
      | remove =>
        rw [← hxk] at hk
        have hby : ∀ k' q, Function.update s.byID (key x.header) none k' = some q ↔
            s.byID k' = some q ∧ (q = p → result (action i x) ≠ none) := by
          intro k' q
          rw [hact, hlive.byID_erase hk]
          exact and_congr_right fun _ ↦ ⟨fun hno heq ↦ absurd heq hno, fun hno heq ↦ hno heq rfl⟩
        let s₁ : LSAStore κ β := { s with
          heap := Function.update s.heap p none
          byID := Function.update s.byID (key x.header) none }
        have hentries' : ∀ q, some q ∈ entries → ∃ k, s₁.byID k = some q := by
          intro q hq
          obtain ⟨k', hk'⟩ := hentries q (List.mem_cons_of_mem _ hq)
          exact ⟨k', (hby k' q).mpr ⟨hk', fun heq ↦ absurd heq (hne q hq)⟩⟩
        rw [ok_bind]
        apply (ih (i + 1) (hrest fun q hq ↦ Function.update_of_ne hq _ _) (hlive.erase hk) hentries'
          (fun h ↦ hnoNull (List.mem_cons_of_mem _ h)) hnodup.2).bind
        intro z hz
        have hcons := hz.cons hnodup.1 hx ⟨_, hk⟩ (fun q hq ↦ Function.update_of_ne hq _ _)
          ((Function.update_self _ _ _).trans (by rw [hact]; rfl)) hby rfl
        rw [hact] at hcons
        exact hcons

theorem Consistent.age [DecidableEq κ] (h : Consistent key Q s) {action : ℕ → LSA β → Action β}
    (haction : ∀ j p x, s.vector[j]? = some (some p) → s.heap p = some x → Q x →
      Acts key Q x (action j x)) :
    Outcome (s.age key action) (fun s' ↦ Consistent key Q s' ∧
      ∀ j p x, s.vector[j]? = some (some p) → s.heap p = some x →
        s'.heap p = result (action j x)) fun _ ↦ False := by
  unfold LSAStore.age
  have haction' : ∀ j p x, s.vector[j]? = some (some p) → s.heap p = some x → Q x →
      Acts key Q x (action (0 + j) x) := by
    intro j
    rw [Nat.zero_add]
    exact haction j
  apply (outcome_ageEntries s.vector 0 haction' h.live (fun p hp ↦ (h.mem_iff p).mp hp) h.noNull
    h.nodup).bind
  intro x hx
  refine ⟨⟨hx.live, fun p ↦ ?_, ?_, h.nodup.sublist hx.sublist, fun k p hk ↦ ?_⟩,
    fun j p y hp hy ↦ ?_⟩
  · dsimp only
    rw [List.mem_filter, hx.mem_iff]
    constructor
    · exact fun hp ↦ hp.1.2
    · rintro ⟨k, hk⟩
      exact ⟨⟨(h.mem_iff p).mpr ⟨k, hx.sub k p hk⟩, k, hk⟩, rfl⟩
  · simp
  · dsimp only at hk ⊢
    rw [hx.fresh]
    exact h.old k p (hx.sub k p hk)
  · have hturned := hx.turned j p y hp hy
    rw [Nat.zero_add] at hturned
    exact hturned

end LSAStore

/-! ## One LSA -/

section OneLSA

variable {β : Type} (selfOriginated : Bool) (newLSA : Option (LSA β)) (withoutNew : Action β)
  (t : Turn β) {lsa : LSA β} {routerID : IPAddress}

/-- The ways of an LSA in its turn: only its age changes, it is replaced by an own LSA, it is removed,
or there is nothing to replace it. -/
theorem ageLSA_cases (hage : lsa.header.lsAge ≤ maxAge) :
    (∃ n, n ≤ maxAge ∧ ageLSA selfOriginated newLSA withoutNew t lsa =
        .keep { lsa with header := { lsa.header with lsAge := n } } ∧
      (selfOriginated = false → lsa.header.lsAge < maxAge → n = lsa.header.lsAge + 1)) ∨
    (∃ new n, selfOriginated = true ∧ newLSA = some new ∧
      ageLSA selfOriginated newLSA withoutNew t lsa = .keep (new.withSequenceNumber n)) ∨
    (lsa.header.lsAge = maxAge ∧ t.isOnAnyRetransmissionList = false ∧
      t.hasAnyNeighborInStates = false ∧
      (ageLSA selfOriginated newLSA withoutNew t lsa = .remove ∨
        selfOriginated = true ∧ newLSA = none ∧
          ageLSA selfOriginated newLSA withoutNew t lsa = withoutNew)) := by
  unfold ageLSA
  dsimp only
  split
  · rename_i hyoung
    refine .inl ⟨lsa.header.lsAge + 1, ?_, rfl, fun _ _ ↦ rfl⟩
    unfold maxAge lsRefreshTime at *
    omega
  · rename_i hyoung
    split
    · rename_i hrefresh
      split
      · refine .inl ⟨maxAge, le_refl _, rfl, fun hself ↦ ?_⟩
        rw [hself] at hrefresh
        cases hrefresh.1
      · split
        · refine .inl ⟨maxAge, le_refl _, rfl, fun hself ↦ ?_⟩
          rw [hself] at hrefresh
          cases hrefresh.1
        · exact .inr (.inl ⟨_, _, hrefresh.1, rfl, rfl⟩)
    · split
      · rename_i hlast
        refine .inl ⟨maxAge, le_refl _, rfl, fun _ _ ↦ ?_⟩
        rw [hlast.2]
        rfl
      · rename_i hlast
        split
        · rename_i hremovable
          have hlists : t.isOnAnyRetransmissionList = false := by
            simpa using hremovable.2.1
          have hneighbors : t.hasAnyNeighborInStates = false := by
            simpa using hremovable.2.2
          split
          · exact .inr (.inr ⟨hremovable.1, hlists, hneighbors, .inl rfl⟩)
          · rename_i hown
            have hself : selfOriginated = true := by
              cases selfOriginated with
              | false => exact absurd (.inl rfl) hown
              | true => rfl
            split
            · exact .inr (.inr ⟨hremovable.1, hlists, hneighbors, .inr ⟨hself, rfl, rfl⟩⟩)
            · exact .inr (.inl ⟨_, _, hself, rfl, rfl⟩)
        · refine .inl ⟨lsa.header.lsAge, hage, rfl, fun hself hlt ↦ ?_⟩
          subst hself
          simp only [Bool.false_eq_true, false_and, Bool.not_false, true_and, false_or, not_lt]
            at hyoung hlast
          omega

/-- A foreign LSA grows older, and an LSA is removed only at MaxAge. -/
theorem result_ageLSA (hage : lsa.header.lsAge ≤ maxAge) :
    (selfOriginated = false → lsa.header.lsAge < maxAge →
      LSAStore.result (ageLSA selfOriginated newLSA withoutNew t lsa) =
        some { lsa with header := { lsa.header with lsAge := lsa.header.lsAge + 1 } }) ∧
    (LSAStore.result (ageLSA selfOriginated newLSA withoutNew t lsa) = none →
      lsa.header.lsAge = maxAge ∧ t.isOnAnyRetransmissionList = false ∧
        t.hasAnyNeighborInStates = false) := by
  rcases ageLSA_cases selfOriginated newLSA withoutNew t hage with
    ⟨n, _, heq, hn⟩ | ⟨new, n, hself, _, heq⟩ | ⟨hmax, hlists, hneighbors, _⟩
  · rw [heq]
    refine ⟨fun hself hlt ↦ ?_, nofun⟩
    rw [hn hself hlt]
    rfl
  · rw [heq]
    refine ⟨fun hself' ↦ ?_, nofun⟩
    rw [hself] at hself'
    cases hself'
  · refine ⟨fun _ hlt ↦ ?_, fun _ ↦ ⟨hmax, hlists, hneighbors⟩⟩
    omega

variable {κ : Type} {key : LSAHeader → κ} {Q : LSA β → Prop}

/-- The key and what is known of the LSA survive if they do not depend on the age and are those of
what this router originates. -/
theorem acts_ageLSA (hage : lsa.header.lsAge ≤ maxAge)
    (hkeep : ∀ n ≤ maxAge, key { lsa.header with lsAge := n } = key lsa.header ∧
      Q { lsa with header := { lsa.header with lsAge := n } })
    (hnew : selfOriginated = true → ∀ new, newLSA = some new → ∀ n,
      key (new.withSequenceNumber n).header = key lsa.header ∧ Q (new.withSequenceNumber n))
    (hnone : selfOriginated = true → newLSA = none → withoutNew = .remove) :
    LSAStore.Acts key Q lsa (ageLSA selfOriginated newLSA withoutNew t lsa) := by
  rcases ageLSA_cases selfOriginated newLSA withoutNew t hage with
    ⟨n, hn, heq, _⟩ | ⟨new, n, hself, hsome, heq⟩ | ⟨_, _, _, heq | ⟨hself, hnull, heq⟩⟩
  · rw [heq]
    exact hkeep n hn
  · rw [heq]
    exact hnew hself new hsome n
  · rw [heq]
    trivial
  · rw [heq, hnone hself hnull]
    trivial

/-- Own router LSAs have the ID of this router. -/
def IsRouterEntry (routerID : IPAddress) (lsa : LSA β) : Prop :=
  lsa.header.lsAge ≤ maxAge ∧
    (lsa.header.advertisingRouter = routerID → lsa.header.linkStateID = routerID)

def IsEntry (lsa : LSA β) : Prop := lsa.header.lsAge ≤ maxAge

theorem acts_ageRouterLSA (h : IsRouterEntry routerID lsa) :
    LSAStore.Acts LSAHeader.linkStateID (IsRouterEntry routerID) lsa (ageRouterLSA routerID t lsa) := by
  unfold ageRouterLSA
  apply acts_ageLSA _ _ _ _ h.1 (fun n hn ↦ ⟨rfl, hn, h.2⟩) _ (fun _ h ↦ by cases h)
  intro hself new hnew n
  cases hnew
  have hown : lsa.header.advertisingRouter = routerID := by simpa [isSelfOriginated] using hself
  exact ⟨(h.2 hown).symm, Nat.zero_le _, fun _ ↦ rfl⟩

theorem acts_ageNetworkLSA (h : IsEntry lsa) :
    LSAStore.Acts LSAHeader.linkStateID IsEntry lsa (ageNetworkLSA routerID t lsa) := by
  unfold ageNetworkLSA
  apply acts_ageLSA _ _ _ _ h fun n hn ↦ ⟨rfl, hn⟩
  · intro _ new hnew n
    split at hnew
    · cases hnew
      exact ⟨rfl, Nat.zero_le _⟩
    · cases hnew
  · intro hself hnull
    have hfull := (Bool.and_eq_true_iff.mp hself).2
    rw [if_pos hfull] at hnull
    cases hnull

theorem acts_ageSummaryLSA (h : IsEntry lsa)
    (hsummary : isSelfOriginated routerID lsa = true → ∀ new, t.summaryLSA = some new →
      new.header.key = lsa.header.key ∧ new.header.lsAge ≤ maxAge) :
    LSAStore.Acts LSAHeader.key IsEntry lsa (ageSummaryLSA routerID t lsa) := by
  unfold ageSummaryLSA
  apply acts_ageLSA _ _ _ _ h (fun n hn ↦ ⟨rfl, hn⟩) _ fun _ _ ↦ rfl
  intro hself new hnew n
  exact hsummary hself new hnew

end OneLSA

namespace Area

variable {β : Type} {a : Area β} {routerID : IPAddress}

structure Consistent (routerID : IPAddress) (a : Area β) : Prop where
  routers : a.routers.Consistent LSAHeader.linkStateID (IsRouterEntry routerID)
  networks : a.networks.Consistent LSAHeader.linkStateID IsEntry
  summaries : a.summaries.Consistent LSAHeader.key IsEntry

/-- The database is empty. -/
structure Started (a : Area β) : Prop where
  routers : a.routers.vector = [] ∧ ∀ k, a.routers.byID k = none
  networks : a.networks.vector = [] ∧ ∀ k, a.networks.byID k = none
  summaries : a.summaries.vector = [] ∧ ∀ k, a.summaries.byID k = none

/-- LSAs are installed with a valid age, own router LSAs with the ID of this router, and a summary LSA
is originated again with its own key. -/
def Allowed (routerID : IPAddress) (a : Area β) : Call β → Prop
  | .installRouterLSA lsa => IsRouterEntry routerID lsa
  | .installNetworkLSA lsa => IsEntry lsa
  | .installSummaryLSA lsa => IsEntry lsa
  | .ageDatabase _ _ summary => ∀ j p x, a.summaries.vector[j]? = some (some p) →
      a.summaries.heap p = some x → isSelfOriginated routerID x = true →
        ∀ new, (summary j).summaryLSA = some new →
          new.header.key = x.header.key ∧ new.header.lsAge ≤ maxAge

/-- Foreign LSAs grow older by one until MaxAge, and an LSA is removed only at MaxAge, if it is on no
list and no neighbor is in Exchange or Loading. -/
def GrowsOlder {κ : Type} (selfOriginated : ℕ → LSA β → Bool) (turns : ℕ → Turn β)
    (s s' : LSAStore κ β) : Prop :=
  ∀ j p x, s.vector[j]? = some (some p) → s.heap p = some x →
    (selfOriginated j x = false → x.header.lsAge < maxAge →
      s'.heap p = some { x with header := { x.header with lsAge := x.header.lsAge + 1 } }) ∧
    (s'.heap p = none → x.header.lsAge = maxAge ∧
      (turns j).isOnAnyRetransmissionList = false ∧ (turns j).hasAnyNeighborInStates = false)

theorem Consistent.ageDatabase (h : a.Consistent routerID) {router network summary : ℕ → Turn β}
    (hsummary : a.Allowed routerID (.ageDatabase router network summary)) :
    Outcome (a.ageDatabase routerID router network summary) (fun a' ↦ a'.Consistent routerID ∧
      GrowsOlder (fun _ ↦ isSelfOriginated routerID) router a.routers a'.routers ∧
      GrowsOlder (fun j _ ↦ isOwnNetwork (network j)) network a.networks a'.networks ∧
      GrowsOlder (fun _ ↦ isSelfOriginated routerID) summary a.summaries a'.summaries)
      fun _ ↦ False := by
  -- the ages in the database are valid
  have hvalid {κ : Type} {key : LSAHeader → κ} {Q : LSA β → Prop} {s : LSAStore κ β}
      (hs : s.Consistent key Q) {j p : ℕ} {x : LSA β} (hp : s.vector[j]? = some (some p))
      (hx : s.heap p = some x) : Q x := by
    obtain ⟨k, hk⟩ := (hs.mem_iff p).mp (List.mem_of_getElem? hp)
    obtain ⟨y, hy, _, hyQ⟩ := hs.live k p hk
    rw [hx, Option.some.injEq] at hy
    rw [hy]
    exact hyQ
  unfold Area.ageDatabase
  apply (h.routers.age fun j p x _ _ hx ↦ acts_ageRouterLSA (router j) hx).bind
  intro routers hrouters
  apply (h.networks.age fun j p x _ _ hx ↦ acts_ageNetworkLSA (network j) hx).bind
  intro networks hnetworks
  apply (h.summaries.age fun j p x hp hx hQ ↦
    acts_ageSummaryLSA (summary j) hQ (hsummary j p x hp hx)).bind
  intro summaries hsummaries
  refine ⟨⟨hrouters.1, hnetworks.1, hsummaries.1⟩, fun j p x hp hx ↦ ?_, fun j p x hp hx ↦ ?_,
    fun j p x hp hx ↦ ?_⟩
  · dsimp only
    rw [hrouters.2 j p x hp hx]
    exact result_ageLSA _ _ _ _ (hvalid h.routers hp hx).1
  · dsimp only
    rw [hnetworks.2 j p x hp hx]
    exact result_ageLSA _ _ _ _ (hvalid h.networks hp hx)
  · dsimp only
    rw [hsummaries.2 j p x hp hx]
    exact result_ageLSA _ _ _ _ (hvalid h.summaries hp hx)

theorem Consistent.step (h : a.Consistent routerID) (call : Call β) (hcall : a.Allowed routerID call) :
    Outcome (a.step routerID call) (Consistent routerID) fun _ ↦ False := by
  cases call with
  | installRouterLSA lsa =>
    apply (h.routers.install hcall).bind
    intro routers hrouters
    exact ⟨hrouters, h.networks, h.summaries⟩
  | installNetworkLSA lsa =>
    apply (h.networks.install hcall).bind
    intro networks hnetworks
    exact ⟨h.routers, hnetworks, h.summaries⟩
  | installSummaryLSA lsa =>
    apply (h.summaries.install hcall).bind
    intro summaries hsummaries
    exact ⟨h.routers, h.networks, hsummaries⟩
  | ageDatabase router network summary =>
    apply (h.ageDatabase hcall).post
    intro a' ha'
    exact ha'.1

end Area

end InetManet.OSPF
