import InetManet.OSPF.DesignatedRouter

/-!
# What the election decides

The searches for the two routers are searches for the best candidate of a list. The neighbors are
considered by the rule, and the router itself is considered by the rule where it may be the backup.
Where it may not, the highest neighbor is forgotten.
-/

namespace InetManet.OSPF.Election

def Candidate.key (c : Candidate) : ℕ ×ₗ RouterID := toLex (c.priority, c.id)

theorem isHigher_iff {priority : ℕ} {id : RouterID} {c : Candidate} :
    isHigher priority id c = true ↔ c.key < toLex (priority, id) := by
  have hcomm : priority = c.priority ↔ c.priority = priority := eq_comm
  simp only [isHigher, Candidate.key, Prod.Lex.toLex_lt_toLex, Bool.or_eq_true, Bool.and_eq_true,
    decide_eq_true_eq, beq_iff_eq, hcomm]

theorem better_of_isHigher {c x : Candidate} (h : isHigher x.priority x.id c = true) :
    better Candidate.key c x = x :=
  if_pos (isHigher_iff.mp h)

theorem better_of_not_isHigher {c x : Candidate} (h : ¬ isHigher x.priority x.id c = true) :
    better Candidate.key c x = c :=
  if_neg fun hlt ↦ h (isHigher_iff.mpr hlt)

/-- A search whose result is not lower than a candidate has found something. -/
theorem found_of_not_isHigher {l : List Neighbor} {f : Neighbor → Candidate} {c x : Candidate}
    (hc : c = best Candidate.key noCandidate (l.map f)) (hx : noCandidate.key < x.key)
    (h : ¬ isHigher x.priority x.id c = true) : (!l.isEmpty) = true := by
  cases l with
  | cons n rest => rfl
  | nil =>
    exfalso
    apply h
    rw [isHigher_iff, hc]
    exact hx

namespace Neighbor

variable {n : Neighbor}

def mayBeBackup (n : Neighbor) : Bool := n.isEligible && !n.declaresDesignated

def rank (n : Neighbor) : ℕ ×ₗ RouterID := toLex (n.priority, n.neighborID)

/-- The candidate under which a neighbor is remembered that declares itself backup. -/
def asBackup (n : Neighbor) : Candidate := ⟨n.backupDesignatedRouter, n.priority, n.neighborID⟩

def asHighest (n : Neighbor) : Candidate := ⟨⟨n.neighborID, n.address⟩, n.priority, n.neighborID⟩

def asDesignated (n : Neighbor) : Candidate := ⟨n.designatedRouter, n.priority, n.neighborID⟩

theorem noCandidate_lt (h : n.isEligible = true) : noCandidate.key < n.rank := by
  have hpriority : 0 < n.priority := by
    simp only [isEligible, Bool.and_eq_true, bne_iff_ne] at h
    exact Nat.pos_of_ne_zero h.2
  rw [Candidate.key, rank, Prod.Lex.toLex_lt_toLex]
  exact .inl hpriority

end Neighbor

section

variable (l : List Neighbor)

/-- The neighbors that may be backup, those of them that declare it, and those that declare themselves
designated router. -/
def eligible : List Neighbor := l.filter (·.mayBeBackup)

def declaring : List Neighbor := l.filter fun n ↦ n.mayBeBackup && n.declaresBackup

def designated : List Neighbor :=
  l.filter fun n ↦ n.isEligible && n.declaresDesignated

/-! ## The searches -/

theorem considerForBackup_cases (s : BackupSearch) (n : Neighbor) :
    (n.mayBeBackup = false ∧ considerForBackup s n = s) ∨
      (n.mayBeBackup = true ∧ considerForBackup s n = considerHighest (considerDeclared s n) n) := by
  unfold considerForBackup Neighbor.mayBeBackup
  cases n.isEligible <;> cases n.declaresDesignated <;> simp

/-- The search has the best declared backup and, as long as there is none, the highest neighbor. -/
theorem backupSearch_eq :
    (l.foldl considerForBackup ⟨noCandidate, false, noCandidate⟩).declared =
        best Candidate.key noCandidate ((declaring l).map (·.asBackup)) ∧
      (l.foldl considerForBackup ⟨noCandidate, false, noCandidate⟩).backupDeclared =
        !(declaring l).isEmpty ∧
      (declaring l = [] → (l.foldl considerForBackup ⟨noCandidate, false, noCandidate⟩).highest =
        best Candidate.key noCandidate ((eligible l).map (·.asHighest))) := by
  induction l using List.reverseRecOn with
  | nil => exact ⟨rfl, rfl, fun _ ↦ rfl⟩
  | append_singleton l n ih =>
    rw [List.foldl_append, List.foldl_cons, List.foldl_nil]
    generalize l.foldl considerForBackup ⟨noCandidate, false, noCandidate⟩ = s at ih ⊢
    obtain ⟨hdeclared, hflag, hhighest⟩ := ih
    rcases considerForBackup_cases s n with ⟨hno, heq⟩ | ⟨hmay, heq⟩
    · have hd : declaring (l ++ [n]) = declaring l := by simp [declaring, hno]
      have he : eligible (l ++ [n]) = eligible l := by simp [eligible, hno]
      rw [heq, hd, he]
      exact ⟨hdeclared, hflag, hhighest⟩
    · rw [heq]
      have hstart : noCandidate.key < n.rank := by
        apply Neighbor.noCandidate_lt
        simp only [Neighbor.mayBeBackup, Bool.and_eq_true] at hmay
        exact hmay.1
      have he : eligible (l ++ [n]) = eligible l ++ [n] := by simp [eligible, hmay]
      cases hbackup : n.declaresBackup with
      | false =>
        have hd : declaring (l ++ [n]) = declaring l := by simp [declaring, hbackup]
        have hsame : considerDeclared s n = s := by
          rw [considerDeclared, if_neg]
          simp [Neighbor.declaresBackup] at hbackup
          simp [hbackup]
        rw [hd, he, hsame]
        refine ⟨?_, ?_, ?_⟩
        · rw [← hdeclared, considerHighest]
          split <;> rfl
        · rw [← hflag, considerHighest]
          split <;> rfl
        · intro hnone
          have hopen : s.backupDeclared = false := by simp [hflag, hnone]
          rw [List.map_append, List.map_singleton, best_concat, ← hhighest hnone, considerHighest, hopen,
            Bool.not_false, Bool.true_and]
          by_cases hhigher : isHigher n.priority n.neighborID s.highest = true
          · rw [if_pos hhigher, better_of_isHigher (x := n.asHighest) hhigher]
            rfl
          · rw [if_neg hhigher, better_of_not_isHigher (x := n.asHighest) hhigher]
      | true =>
        have hd : declaring (l ++ [n]) = declaring l ++ [n] := by simp [declaring, hbackup, hmay]
        have hclosed : (considerDeclared s n).backupDeclared = true := by
          rw [considerDeclared]
          split
          · rfl
          · rename_i hnot
            simp only [Neighbor.declaresBackup] at hbackup
            rw [hbackup, Bool.true_and] at hnot
            have hlower : noCandidate.key < n.asBackup.key := hstart
            exact hflag.trans (found_of_not_isHigher hdeclared hlower hnot)
        have hsame : considerHighest (considerDeclared s n) n = considerDeclared s n := by
          rw [considerHighest, hclosed]
          rfl
        rw [hd, hsame]
        refine ⟨?_, ?_, ?_⟩
        · rw [List.map_append, List.map_singleton, best_concat, ← hdeclared, considerDeclared]
          simp only [Neighbor.declaresBackup] at hbackup
          rw [hbackup, Bool.true_and]
          by_cases hhigher : isHigher n.priority n.neighborID s.declared = true
          · rw [if_pos hhigher, better_of_isHigher (x := n.asBackup) hhigher]
            rfl
          · rw [if_neg hhigher, better_of_not_isHigher (x := n.asBackup) hhigher]
        · simp [hclosed]
        · intro hnone
          simp at hnone

theorem designatedSearch_eq :
    (l.foldl considerForDesignated ⟨noCandidate, false⟩).declared =
        best Candidate.key noCandidate ((designated l).map (·.asDesignated)) ∧
      (l.foldl considerForDesignated ⟨noCandidate, false⟩).designatedRouterDeclared =
        !(designated l).isEmpty := by
  induction l using List.reverseRecOn with
  | nil => exact ⟨rfl, rfl⟩
  | append_singleton l n ih =>
    rw [List.foldl_append, List.foldl_cons, List.foldl_nil]
    generalize l.foldl considerForDesignated ⟨noCandidate, false⟩ = s at ih ⊢
    obtain ⟨hdeclared, hflag⟩ := ih
    unfold considerForDesignated
    cases heligible : n.isEligible with
    | false =>
      have hd : designated (l ++ [n]) = designated l := by simp [designated, heligible]
      rw [hd]
      exact ⟨hdeclared, hflag⟩
    | true =>
      cases hdesignated : n.declaresDesignated with
      | false =>
        have hd : designated (l ++ [n]) = designated l := by simp [designated, hdesignated]
        rw [hd]
        exact ⟨hdeclared, hflag⟩
      | true =>
        have hd : designated (l ++ [n]) = designated l ++ [n] := by
          simp [designated, heligible, hdesignated]
        rw [hd, List.map_append, List.map_singleton, best_concat, ← hdeclared]
        simp only [Bool.not_true, Bool.false_eq_true, if_false, Bool.true_and]
        by_cases hhigher : isHigher n.priority n.neighborID s.declared = true
        · rw [if_pos hhigher, better_of_isHigher (x := n.asDesignated) hhigher]
          exact ⟨rfl, by simp⟩
        · rw [if_neg hhigher, better_of_not_isHigher (x := n.asDesignated) hhigher]
          have hlower : noCandidate.key < n.asDesignated.key := Neighbor.noCandidate_lt heligible
          have hfound := found_of_not_isHigher hdeclared hlower hhigher
          exact ⟨rfl, by simp [hflag, hfound]⟩

end

/-! ## Closed forms -/

namespace Interface

variable {intf : Interface} {current : Choice}

section

variable (intf : Interface)

/-- The router itself may be the backup. -/
def mayBeBackup (current : Choice) : Bool :=
  0 < intf.routerPriority && current.designated.routerID != intf.routerID

def declaresBackup (current : Choice) : Bool :=
  current.backup.routerID == intf.routerID

/-- The router itself declares itself designated router. -/
def declaresDesignated (current : Choice) : Bool :=
  0 < intf.routerPriority && current.designated.routerID == intf.routerID

/-- The candidates for the backup, among which the best one is found. -/
def backupCandidates (current : Choice) (l : List Neighbor) : List Candidate :=
  if intf.mayBeBackup current then
    if intf.declaresBackup current then (declaring l).map (·.asBackup) ++ [intf.self]
    else if declaring l = [] then (eligible l).map (·.asHighest) ++ [intf.self]
    else (declaring l).map (·.asBackup)
  else (declaring l).map (·.asBackup)

def designatedCandidates (current : Choice) (l : List Neighbor) : List Candidate :=
  (designated l).map (·.asDesignated) ++ if intf.declaresDesignated current then [intf.self] else []

end

theorem noCandidate_lt_self (h : 0 < intf.routerPriority) : noCandidate.key < intf.self.key := by
  rw [Candidate.key, Candidate.key, Prod.Lex.toLex_lt_toLex]
  exact .inl h

theorem electBackup_eq : intf.electBackup current =
    best Candidate.key noCandidate (intf.backupCandidates current intf.neighboringRouters) := by
  unfold electBackup
  obtain ⟨hdeclared, hflag, hhighest⟩ := backupSearch_eq intf.neighboringRouters
  generalize intf.neighboringRouters.foldl considerForBackup ⟨noCandidate, false, noCandidate⟩ = s
    at hdeclared hflag hhighest ⊢
  generalize intf.neighboringRouters = l at hdeclared hflag hhighest ⊢
  unfold includeSelf backupCandidates
  cases hmay : intf.mayBeBackup current with
  | false =>
    rw [mayBeBackup] at hmay
    simp only [hmay, Bool.false_eq_true, if_false]
    exact hdeclared
  | true =>
    have hpriority : 0 < intf.routerPriority := by
      simp only [mayBeBackup, Bool.and_eq_true, decide_eq_true_eq] at hmay
      exact hmay.1
    rw [mayBeBackup] at hmay
    simp only [hmay, if_true]
    cases hself : intf.declaresBackup current with
    | true =>
      rw [declaresBackup] at hself
      simp only [includeSelfDeclared, hself, Bool.true_and, if_true, best_concat, ← hdeclared]
      by_cases hhigher : isHigher intf.routerPriority intf.routerID s.declared = true
      · simp only [if_pos hhigher, better_of_isHigher (x := intf.self) hhigher, Bool.not_true,
          Bool.false_eq_true, if_false]
      · have hclosed : s.backupDeclared = true :=
          hflag.trans (found_of_not_isHigher hdeclared (noCandidate_lt_self hpriority) hhigher)
        simp only [if_neg hhigher, better_of_not_isHigher (x := intf.self) hhigher, hclosed, Bool.not_true,
          Bool.false_eq_true, if_false]
    | false =>
      rw [declaresBackup] at hself
      simp only [includeSelfDeclared, hself, Bool.false_and, Bool.false_eq_true, if_false]
      cases hnone : declaring l with
      | nil =>
        have hopen : s.backupDeclared = false := by simp [hflag, hnone]
        simp only [hopen, Bool.not_false, if_true, best_concat, ← hhighest hnone]
        by_cases hhigher : isHigher intf.routerPriority intf.routerID s.highest = true
        · rw [if_pos hhigher, better_of_isHigher (x := intf.self) hhigher]
        · rw [if_neg hhigher, better_of_not_isHigher (x := intf.self) hhigher]
      | cons n rest =>
        have hclosed : s.backupDeclared = true := by simp [hflag, hnone]
        simp only [hclosed, Bool.not_true, Bool.false_eq_true, if_false, reduceCtorEq, hdeclared, hnone]

theorem electDesignated_eq (backup : Candidate) : intf.electDesignated current backup =
    if intf.designatedCandidates current intf.neighboringRouters = [] then backup
    else best Candidate.key noCandidate (intf.designatedCandidates current intf.neighboringRouters) := by
  unfold electDesignated
  obtain ⟨hdeclared, hflag⟩ := designatedSearch_eq intf.neighboringRouters
  generalize intf.neighboringRouters.foldl considerForDesignated ⟨noCandidate, false⟩ = s
    at hdeclared hflag ⊢
  generalize intf.neighboringRouters = l at hdeclared hflag ⊢
  unfold includeSelfInDesignated designatedCandidates
  cases hself : intf.declaresDesignated current with
  | false =>
    rw [declaresDesignated] at hself
    simp only [hself, Bool.false_and, Bool.false_eq_true, if_false, List.append_nil, hflag, hdeclared]
    cases hnone : designated l <;> simp
  | true =>
    have hpriority : 0 < intf.routerPriority := by
      simp only [declaresDesignated, Bool.and_eq_true, decide_eq_true_eq] at hself
      exact hself.1
    rw [declaresDesignated] at hself
    have hne : (designated l).map (·.asDesignated) ++ [intf.self] ≠ [] := by simp
    rw [if_pos rfl, if_neg hne, best_concat, ← hdeclared]
    simp only [hself, Bool.true_and]
    by_cases hhigher : isHigher intf.routerPriority intf.routerID s.declared = true
    · simp only [if_pos hhigher, better_of_isHigher (x := intf.self) hhigher, Bool.not_true,
        Bool.false_eq_true, if_false]
    · have hclosed : s.designatedRouterDeclared = true :=
        hflag.trans (found_of_not_isHigher hdeclared (noCandidate_lt_self hpriority) hhigher)
      simp only [if_neg hhigher, better_of_not_isHigher (x := intf.self) hhigher, hclosed, Bool.not_true,
        Bool.false_eq_true, if_false]

/-! ## The rule -/

theorem participants_eligible : (intf.participants current).filter (!·.declaresDesignated) =
    (eligible intf.neighboringRouters).map (·.participant) ++
      if intf.mayBeBackup current then [intf.ownParticipant current] else [] := by
  have hself : (if 0 < intf.routerPriority then [intf.ownParticipant current] else []).filter
      (!·.declaresDesignated) =
      if intf.mayBeBackup current then [intf.ownParticipant current] else [] := by
    unfold mayBeBackup
    by_cases hpriority : 0 < intf.routerPriority <;>
      by_cases hdesignated : current.designated.routerID = intf.routerID <;>
      simp [hpriority, hdesignated, ownParticipant]
  rw [participants, List.filter_append, hself, List.filter_map, List.filter_filter]
  congr 3
  funext n
  simp only [Function.comp_apply, Neighbor.participant, Neighbor.mayBeBackup, Bool.and_comm]

theorem participants_declaring : ((intf.participants current).filter (!·.declaresDesignated)).filter
    (·.declaresBackup) = (declaring intf.neighboringRouters).map (·.participant) ++
      if intf.mayBeBackup current && intf.declaresBackup current then [intf.ownParticipant current]
      else [] := by
  have hself : (if intf.mayBeBackup current then [intf.ownParticipant current] else []).filter
      (·.declaresBackup) = if intf.mayBeBackup current && intf.declaresBackup current then
        [intf.ownParticipant current] else [] := by
    cases hmay : intf.mayBeBackup current with
    | false => rfl
    | true =>
      cases hbackup : intf.declaresBackup current <;>
        · rw [declaresBackup] at hbackup
          simp [ownParticipant, hbackup]
  rw [participants_eligible, List.filter_append, hself, List.filter_map, eligible, List.filter_filter]
  congr 3
  funext n
  simp only [Function.comp_apply, Neighbor.participant, Bool.and_comm]

theorem participants_designated : (intf.participants current).filter (·.declaresDesignated) =
    (designated intf.neighboringRouters).map (·.participant) ++
      if intf.declaresDesignated current then [intf.ownParticipant current] else [] := by
  have hself : (if 0 < intf.routerPriority then [intf.ownParticipant current] else []).filter
      (·.declaresDesignated) =
      if intf.declaresDesignated current then [intf.ownParticipant current] else [] := by
    unfold declaresDesignated
    by_cases hpriority : 0 < intf.routerPriority <;>
      by_cases hdesignated : current.designated.routerID = intf.routerID <;>
      simp [hpriority, hdesignated, ownParticipant]
  rw [participants, List.filter_append, hself, List.filter_map, List.filter_filter]
  congr 3
  funext n
  simp only [Function.comp_apply, Neighbor.participant, Bool.and_comm]

/-- A candidate has a priority, and the router ID that it declares is its own. -/
def Candidate.Valid (c : Candidate) : Prop := noCandidate.key < c.key ∧ c.router.routerID = c.id

theorem valid_asBackup {l : List Neighbor} :
    ∀ c ∈ (declaring l).map (·.asBackup), Candidate.Valid c := by
  intro c hc
  obtain ⟨n, hn, rfl⟩ := List.mem_map.mp hc
  simp only [declaring, List.mem_filter, Neighbor.mayBeBackup, Neighbor.declaresBackup,
    Bool.and_eq_true, beq_iff_eq] at hn
  exact ⟨Neighbor.noCandidate_lt hn.2.1.1, hn.2.2⟩

theorem valid_asHighest {l : List Neighbor} :
    ∀ c ∈ (eligible l).map (·.asHighest), Candidate.Valid c := by
  intro c hc
  obtain ⟨n, hn, rfl⟩ := List.mem_map.mp hc
  simp only [eligible, List.mem_filter, Neighbor.mayBeBackup, Bool.and_eq_true] at hn
  exact ⟨Neighbor.noCandidate_lt hn.2.1, rfl⟩

theorem valid_asDesignated {l : List Neighbor} :
    ∀ c ∈ (designated l).map (·.asDesignated), Candidate.Valid c := by
  intro c hc
  obtain ⟨n, hn, rfl⟩ := List.mem_map.mp hc
  simp only [designated, List.mem_filter, Neighbor.declaresDesignated, Bool.and_eq_true,
    beq_iff_eq] at hn
  exact ⟨Neighbor.noCandidate_lt hn.2.1, hn.2.2⟩

theorem valid_self (h : 0 < intf.routerPriority) : Candidate.Valid intf.self :=
  ⟨noCandidate_lt_self h, rfl⟩

theorem valid_append_self {L : List Candidate} (hL : ∀ c ∈ L, Candidate.Valid c)
    (hself : Candidate.Valid intf.self) : ∀ c ∈ L ++ [intf.self], Candidate.Valid c := by
  intro c hc
  rcases List.mem_append.mp hc with hc | hc
  · exact hL c hc
  · rw [List.mem_singleton.mp hc]
    exact hself

/-- The best of the candidates is the highest of the participants. -/
theorem isHighest_best {L : List Candidate} {P : List Participant}
    (hrank : P.map (·.rank) = L.map Candidate.key) (hvalid : ∀ c ∈ L, Candidate.Valid c)
    (hne : L ≠ []) : IsHighest P (best Candidate.key noCandidate L).router.routerID := by
  have hmem : best Candidate.key noCandidate L ∈ L :=
    best_mem_of_lt (fun c hc ↦ (hvalid c hc).1) hne
  have hmax : ∀ c ∈ L, c.key ≤ (best Candidate.key noCandidate L).key :=
    fun c hc ↦ key_le_best (List.mem_cons_of_mem _ hc)
  generalize best Candidate.key noCandidate L = found at hmem hmax ⊢
  have hfound : found.key ∈ P.map (·.rank) := hrank ▸ List.mem_map_of_mem hmem
  obtain ⟨p, hp, hkey⟩ := List.mem_map.mp hfound
  refine ⟨p, hp, ?_, ?_⟩
  · rw [(hvalid found hmem).2]
    exact congrArg (fun key ↦ (ofLex key).2) hkey
  · intro q hq
    have hqrank : q.rank ∈ L.map Candidate.key := hrank ▸ List.mem_map_of_mem hq
    obtain ⟨c, hc, hckey⟩ := List.mem_map.mp hqrank
    rw [hkey, ← hckey]
    exact hmax c hc

theorem rank_map (l : List Neighbor) (f : Neighbor → Candidate) (hf : ∀ n, (f n).key = n.rank) :
    (l.map (·.participant)).map (·.rank) = (l.map f).map Candidate.key := by
  rw [List.map_map, List.map_map]
  apply List.map_congr_left
  intro n _
  exact (hf n).symm

/-- The router itself may not be the backup, no neighbor declares itself backup, and the neighbors that
may be backup are forgotten. -/
def Forgets (intf : Interface) (current : Choice) : Prop :=
  intf.mayBeBackup current = false ∧ declaring intf.neighboringRouters = [] ∧
    eligible intf.neighboringRouters ≠ []

theorem backupRight_iff (hnull : ∀ n ∈ intf.neighboringRouters, n.neighborID ≠ 0) :
    BackupRight (intf.participants current) (intf.electBackup current).router ↔
      ¬ intf.Forgets current := by
  unfold BackupRight Forgets
  dsimp only
  rw [participants_declaring, participants_eligible, electBackup_eq]
  generalize intf.neighboringRouters = l at hnull ⊢
  unfold backupCandidates
  have hpositive : intf.mayBeBackup current = true → 0 < intf.routerPriority := by
    intro hmay
    simp only [mayBeBackup, Bool.and_eq_true, decide_eq_true_eq] at hmay
    exact hmay.1
  cases hmay : intf.mayBeBackup current with
  | true =>
    have hself := valid_self (hpositive hmay)
    simp only [Bool.true_eq_false, false_and, not_false_eq_true, iff_true, if_true, Bool.true_and]
    cases hbackup : intf.declaresBackup current with
    | true =>
      simp only [if_true, List.append_eq_nil_iff, List.cons_ne_self, and_false, if_false]
      apply isHighest_best
      · rw [List.map_append, List.map_append, rank_map _ (·.asBackup) fun _ ↦ rfl]
        rfl
      · exact valid_append_self valid_asBackup hself
      · simp
    | false =>
      simp only [Bool.false_eq_true, if_false, List.append_nil]
      cases hnone : declaring l with
      | nil =>
        simp only [List.map_nil, if_true, List.append_eq_nil_iff, List.cons_ne_self, and_false, if_false]
        apply isHighest_best
        · rw [List.map_append, List.map_append, rank_map _ (·.asHighest) fun _ ↦ rfl]
          rfl
        · exact valid_append_self valid_asHighest hself
        · simp
      | cons n rest =>
        rw [← hnone]
        have hne : declaring l ≠ [] := by simp [hnone]
        simp only [List.map_eq_nil_iff, hne, if_false]
        apply isHighest_best
        · exact rank_map _ (·.asBackup) fun _ ↦ rfl
        · exact valid_asBackup
        · simp [hne]
  | false =>
    simp only [true_and, Bool.false_and, Bool.false_eq_true, if_false, List.append_nil]
    cases hnone : declaring l with
    | nil =>
      simp only [List.map_nil, if_true, List.map_eq_nil_iff, best_nil, true_and, not_not, ne_eq]
      constructor
      · intro hright
        by_contra hsome
        rw [if_neg hsome] at hright
        obtain ⟨p, hp, hid, -⟩ := hright
        obtain ⟨n, hn, rfl⟩ := List.mem_map.mp hp
        exact hnull n (List.mem_filter.mp hn).1 hid
      · intro hempty
        rw [if_pos hempty]
        rfl
    | cons n rest =>
      rw [← hnone]
      have hne : declaring l ≠ [] := by simp [hnone]
      simp only [List.map_eq_nil_iff, hne, if_false, false_and, not_false_eq_true, iff_true]
      apply isHighest_best
      · exact rank_map _ (·.asBackup) fun _ ↦ rfl
      · exact valid_asBackup
      · simp [hne]

theorem designatedRight (intf : Interface) (current : Choice) :
    DesignatedRight (intf.participants current) (intf.electionRound current) := by
  unfold DesignatedRight electionRound
  dsimp only
  rw [participants_designated, electDesignated_eq]
  generalize intf.electBackup current = backup
  have hrank : ((designated intf.neighboringRouters).map (·.participant) ++
      if intf.declaresDesignated current then [intf.ownParticipant current] else []).map (·.rank) =
      (intf.designatedCandidates current intf.neighboringRouters).map Candidate.key := by
    rw [designatedCandidates, List.map_append, List.map_append, rank_map _ (·.asDesignated) fun _ ↦ rfl]
    congr 1
    split <;> rfl
  have hempty : ((designated intf.neighboringRouters).map (·.participant) ++
      if intf.declaresDesignated current then [intf.ownParticipant current] else []) = [] ↔
      intf.designatedCandidates current intf.neighboringRouters = [] := by
    rw [← List.map_eq_nil_iff (f := fun p : Participant ↦ p.rank), hrank, List.map_eq_nil_iff]
  by_cases hnone : intf.designatedCandidates current intf.neighboringRouters = []
  · rw [if_pos (hempty.mpr hnone), if_pos hnone]
  · rw [if_neg (fun h ↦ hnone (hempty.mp h)), if_neg hnone]
    apply isHighest_best hrank _ hnone
    intro c hc
    rcases List.mem_append.mp hc with hc | hc
    · exact valid_asDesignated c hc
    · split at hc
      · rename_i hself
        simp only [declaresDesignated, Bool.and_eq_true, decide_eq_true_eq] at hself
        rw [List.mem_singleton.mp hc]
        exact valid_self hself.1
      · cases hc

/-! ## The order of the neighbors -/

/-- The router IDs on the network are distinct, and none of them is the null ID. -/
def Distinct (intf : Interface) : Prop :=
  (0 :: intf.routerID :: intf.neighboringRouters.map (·.neighborID)).Nodup

theorem Distinct.ne_null (h : intf.Distinct) : ∀ n ∈ intf.neighboringRouters, n.neighborID ≠ 0 := by
  intro n hn hnull
  apply (List.nodup_cons.mp h).1
  rw [← hnull]
  exact List.mem_cons_of_mem _ (List.mem_map_of_mem hn)

theorem Distinct.self_ne_null (h : intf.Distinct) : intf.routerID ≠ 0 := by
  intro hnull
  apply (List.nodup_cons.mp h).1
  rw [hnull]
  exact List.mem_cons_self

theorem Distinct.ne_self (h : intf.Distinct) :
    ∀ n ∈ intf.neighboringRouters, n.neighborID ≠ intf.routerID := by
  intro n hn hself
  apply (List.nodup_cons.mp (List.nodup_cons.mp h).2).1
  rw [← hself]
  exact List.mem_map_of_mem hn

/-- Candidates made from distinct neighbors have distinct keys. -/
theorem best_map_perm {l l' : List Neighbor} {f : Neighbor → Candidate} {rest : List Candidate}
    (hperm : l.Perm l') (hid : (0 :: rest.map (·.id) ++ l.map (·.neighborID)).Nodup)
    (hf : ∀ n, (f n).id = n.neighborID) :
    best Candidate.key noCandidate (l.map f ++ rest) =
      best Candidate.key noCandidate (l'.map f ++ rest) := by
  have hids : ((noCandidate :: (l.map f ++ rest)).map (·.id)).Nodup := by
    have hmap : (l.map f).map (·.id) = l.map (·.neighborID) := by
      rw [List.map_map]
      exact List.map_congr_left fun n _ ↦ hf n
    rw [List.map_cons, List.map_append, hmap]
    apply List.Perm.nodup _ hid
    exact (List.perm_append_comm).cons 0
  apply best_perm ((hperm.map f).append_right rest)
  intro x hx y hy hkey
  exact List.inj_on_of_nodup_map hids hx hy (congrArg (fun key ↦ (ofLex key).2) hkey)

/-- The interface with the neighbors in another order. -/
def reorder (intf : Interface) (l : List Neighbor) : Interface := { intf with neighboringRouters := l }

section

variable (h : intf.Distinct)

include h

theorem Distinct.filter (p : Neighbor → Bool) (withSelf : Bool) :
    (0 :: (if withSelf then [intf.self] else []).map (·.id) ++
      (intf.neighboringRouters.filter p).map (·.neighborID)).Nodup := by
  apply List.Sublist.nodup _ h
  rw [List.cons_append]
  apply List.Sublist.cons_cons
  cases withSelf with
  | true => exact (List.Sublist.map _ List.filter_sublist).cons_cons _
  | false => exact (List.Sublist.map _ List.filter_sublist).cons _

section

variable {l : List Neighbor}

section

variable (hperm : intf.neighboringRouters.Perm l)

include hperm

theorem Distinct.best_perm (p : Neighbor → Bool) (withSelf : Bool)
    {f : Neighbor → Candidate} (hf : ∀ n, (f n).id = n.neighborID) :
    best Candidate.key noCandidate ((intf.neighboringRouters.filter p).map f ++
        if withSelf then [intf.self] else []) =
      best Candidate.key noCandidate ((l.filter p).map f ++ if withSelf then [intf.self] else []) :=
  best_map_perm (hperm.filter p) (h.filter p withSelf) hf

theorem electBackup_reorder :
    (intf.reorder l).electBackup current = intf.electBackup current := by
  have hdeclared (withSelf : Bool) := h.best_perm hperm (fun n ↦ n.mayBeBackup && n.declaresBackup)
    withSelf (f := Neighbor.asBackup) fun _ ↦ rfl
  have hhighest := h.best_perm hperm (·.mayBeBackup) true (f := Neighbor.asHighest) fun _ ↦ rfl
  have hnone : declaring l = [] ↔ declaring intf.neighboringRouters = [] := by
    have hfilter := hperm.filter fun n ↦ n.mayBeBackup && n.declaresBackup
    constructor
    · intro hempty
      exact (hempty ▸ hfilter : List.Perm (declaring intf.neighboringRouters) []).eq_nil
    · intro hempty
      exact (hempty ▸ hfilter.symm : List.Perm (declaring l) []).eq_nil
  rw [electBackup_eq, electBackup_eq]
  change best Candidate.key noCandidate (intf.backupCandidates current l) = _
  unfold backupCandidates
  simp only [hnone]
  split
  · split
    · exact (hdeclared true).symm
    · split
      · exact hhighest.symm
      · simpa [declaring] using (hdeclared false).symm
  · simpa [declaring] using (hdeclared false).symm

theorem electDesignated_reorder (backup : Candidate) :
    (intf.reorder l).electDesignated current backup = intf.electDesignated current backup := by
  have hbest := h.best_perm hperm (fun n ↦ n.isEligible && n.declaresDesignated)
    (intf.declaresDesignated current) (f := Neighbor.asDesignated) fun _ ↦ rfl
  have hnone : intf.designatedCandidates current l = [] ↔
      intf.designatedCandidates current intf.neighboringRouters = [] := by
    have hfilter := (hperm.filter fun n ↦ n.isEligible && n.declaresDesignated).length_eq
    rw [← List.length_eq_zero_iff, ← List.length_eq_zero_iff]
    simp only [designatedCandidates, List.length_append, List.length_map, designated, hfilter]
  rw [electDesignated_eq, electDesignated_eq]
  change (if intf.designatedCandidates current l = [] then backup
    else best Candidate.key noCandidate (intf.designatedCandidates current l)) = _
  simp only [hnone]
  split
  · rfl
  · exact hbest.symm

theorem electionRound_reorder (current : Choice) :
    (intf.reorder l).electionRound current = intf.electionRound current := by
  unfold electionRound
  simp only [electBackup_reorder h hperm, electDesignated_reorder h hperm]

theorem electionRounds_reorder (fuel repeatCount : ℕ) (current : Choice) :
    (intf.reorder l).electionRounds fuel repeatCount current =
      intf.electionRounds fuel repeatCount current := by
  induction fuel generalizing repeatCount current with
  | zero => rfl
  | succ fuel ih =>
    unfold electionRounds
    simp only [electionRound_reorder h hperm, ih]
    rfl

theorem calculateDesignatedRouter_reorder : (intf.reorder l).calculateDesignatedRouter =
      intf.calculateDesignatedRouter.map (·.reorder l) := by
  unfold calculateDesignatedRouter
  have hrounds := electionRounds_reorder h hperm 2 0 intf.currentChoice
  change ((intf.reorder l).electionRounds 2 0 intf.currentChoice >>= _) = _
  rw [hrounds]
  cases intf.electionRounds 2 0 intf.currentChoice with
  | none => rfl
  | some rounds => cases hlast : rounds.getLast? <;> (simp [hlast]; try rfl)

end

end

end

/-! ## The rounds -/

/-- A second round is held if the router itself gains or loses a role in the first one. -/
theorem electionRounds_eq (intf : Interface) (current : Choice) :
    intf.electionRounds 2 0 current = some (
      if intf.mustRepeat current (intf.electionRound current) then
        [(current, intf.electionRound current),
          (intf.electionRound current, intf.electionRound (intf.electionRound current))]
      else [(current, intf.electionRound current)]) := by
  cases hfirst : intf.mustRepeat current (intf.electionRound current) with
  | false => simp [electionRounds, hfirst]
  | true =>
    cases hagain : intf.mustRepeat (intf.electionRound current)
      (intf.electionRound (intf.electionRound current)) <;> simp [electionRounds, hfirst, hagain]

theorem mustRepeat_of_gain {declared : Choice} (hbefore : current.designated.routerID ≠ intf.routerID)
    (hafter : declared.designated.routerID = intf.routerID) :
    intf.mustRepeat current declared = true := by
  simp [mustRepeat, hbefore, hafter]

theorem mayBeBackup_iff : intf.mayBeBackup current = true ↔
    0 < intf.routerPriority ∧ current.designated.routerID ≠ intf.routerID := by
  simp only [mayBeBackup, Bool.and_eq_true, decide_eq_true_eq, bne_iff_ne]

theorem best_self (h : 0 < intf.routerPriority) : best Candidate.key noCandidate [intf.self] = intf.self :=
  if_pos (noCandidate_lt_self h)

/-- A search among the neighbors alone does not find the router itself. -/
theorem Distinct.best_ne_self (h : intf.Distinct) {L : List Candidate}
    (hvalid : ∀ c ∈ L, Candidate.Valid c) (hid : ∀ c ∈ L, ∃ n ∈ intf.neighboringRouters, c.id = n.neighborID) :
    (best Candidate.key noCandidate L).router.routerID ≠ intf.routerID := by
  rcases List.mem_cons.mp (best_mem : best Candidate.key noCandidate L ∈ noCandidate :: L) with
    hnone | hmem
  · rw [hnone]
    exact h.self_ne_null.symm
  · obtain ⟨n, hn, heq⟩ := hid _ hmem
    rw [(hvalid _ hmem).2, heq]
    exact h.ne_self n hn

theorem id_of_filter {p : Neighbor → Bool} {f : Neighbor → Candidate} (hf : ∀ n, (f n).id = n.neighborID) :
    ∀ c ∈ (intf.neighboringRouters.filter p).map f, ∃ n ∈ intf.neighboringRouters, c.id = n.neighborID := by
  intro c hc
  obtain ⟨n, hn, rfl⟩ := List.mem_map.mp hc
  exact ⟨n, (List.mem_filter.mp hn).1, hf n⟩

theorem electBackup_self (h : intf.Distinct)
    (hself : (intf.electBackup current).router.routerID = intf.routerID) :
    intf.mayBeBackup current = true ∧
      (intf.declaresBackup current = true ∨ declaring intf.neighboringRouters = []) := by
  have hneighbors : (best Candidate.key noCandidate ((declaring intf.neighboringRouters).map
      (·.asBackup))).router.routerID ≠ intf.routerID :=
    h.best_ne_self valid_asBackup (id_of_filter fun _ ↦ rfl)
  rw [electBackup_eq, backupCandidates] at hself
  cases hmay : intf.mayBeBackup current with
  | false =>
    rw [hmay] at hself
    exact absurd hself hneighbors
  | true =>
    refine ⟨rfl, ?_⟩
    by_contra hneither
    obtain ⟨hbackup, hnone⟩ := not_or.mp hneither
    rw [if_pos hmay, if_neg hbackup, if_neg hnone] at hself
    exact hneighbors hself

theorem electDesignated_self (h : intf.Distinct) {backup : Candidate}
    (hother : intf.declaresDesignated current = false)
    (hself : (intf.electDesignated current backup).router.routerID = intf.routerID) :
    designated intf.neighboringRouters = [] ∧ backup.router.routerID = intf.routerID := by
  rw [electDesignated_eq, designatedCandidates, hother] at hself
  simp only [Bool.false_eq_true, if_false, List.append_nil, List.map_eq_nil_iff] at hself
  by_cases hnone : designated intf.neighboringRouters = []
  · rw [if_pos hnone] at hself
    exact ⟨hnone, hself⟩
  · rw [if_neg hnone] at hself
    exact absurd hself (h.best_ne_self valid_asDesignated (id_of_filter fun _ ↦ rfl))

theorem electDesignated_of_none (hother : intf.declaresDesignated current = false)
    (hnone : designated intf.neighboringRouters = []) (backup : Candidate) :
    intf.electDesignated current backup = backup := by
  rw [electDesignated_eq, designatedCandidates, hother, hnone]
  rfl

theorem declaresDesignated_eq_false (h : current.designated.routerID ≠ intf.routerID) :
    intf.declaresDesignated current = false := by
  simp [declaresDesignated, h]

/-- Where nobody declares itself, the router itself is backup if it was or if it is the highest one. -/
theorem electBackup_self_iff (h : intf.Distinct) (hmay : intf.mayBeBackup current = true)
    (hnone : declaring intf.neighboringRouters = []) :
    (intf.electBackup current).router.routerID = intf.routerID ↔
      intf.declaresBackup current = true ∨ ∀ n ∈ eligible intf.neighboringRouters, n.rank < intf.self.key := by
  have hpriority : 0 < intf.routerPriority := (mayBeBackup_iff.mp hmay).1
  rw [electBackup_eq, backupCandidates, if_pos hmay]
  cases hbackup : intf.declaresBackup current with
  | true =>
    simp only [if_true, hnone, List.map_nil, List.nil_append, true_or, iff_true]
    rw [best_self hpriority]
    rfl
  | false =>
    simp only [Bool.false_eq_true, if_false, hnone, if_true, false_or, best_concat, better]
    have hmax : ∀ n ∈ eligible intf.neighboringRouters, n.rank ≤
        (best Candidate.key noCandidate ((eligible intf.neighboringRouters).map (·.asHighest))).key := by
      intro n hn
      change n.asHighest.key ≤ _
      exact key_le_best (List.mem_cons_of_mem _ (List.mem_map_of_mem hn))
    have hmem : best Candidate.key noCandidate ((eligible intf.neighboringRouters).map (·.asHighest)) ∈
        noCandidate :: (eligible intf.neighboringRouters).map (·.asHighest) := best_mem
    have hother : (best Candidate.key noCandidate ((eligible intf.neighboringRouters).map
        (·.asHighest))).router.routerID ≠ intf.routerID :=
      h.best_ne_self valid_asHighest (id_of_filter fun _ ↦ rfl)
    generalize best Candidate.key noCandidate ((eligible intf.neighboringRouters).map (·.asHighest)) =
      found at hmax hmem hother ⊢
    split
    · rename_i hlt
      constructor
      · intro _ n hn
        exact (hmax n hn).trans_lt hlt
      · intro _
        rfl
    · rename_i hnot
      constructor
      · intro hself
        exact absurd hself hother
      · intro hall
        exfalso
        apply hnot
        rcases List.mem_cons.mp hmem with hfound | hfound
        · rw [hfound]
          exact noCandidate_lt_self hpriority
        · obtain ⟨n, hn, hfound⟩ := List.mem_map.mp hfound
          rw [← hfound]
          exact hall n hn

/-- A router that is elected to both roles was neither and is asked again. -/
theorem electionRound_both (h : intf.Distinct)
    (hdesignated : (intf.electionRound current).designated.routerID = intf.routerID)
    (hbackup : (intf.electionRound current).backup.routerID = intf.routerID) :
    intf.mayBeBackup current = true ∧ designated intf.neighboringRouters = [] := by
  have hmay := (electBackup_self h hbackup).1
  have hother := declaresDesignated_eq_false (mayBeBackup_iff.mp hmay).2
  exact ⟨hmay, (electDesignated_self h hother hdesignated).1⟩

/-- In the second round the router is not elected to both roles. -/
theorem electionRound_again_ne (h : intf.Distinct)
    (hdesignated : (intf.electionRound (intf.electionRound current)).designated.routerID = intf.routerID) :
    (intf.electionRound (intf.electionRound current)).backup.routerID ≠ intf.routerID := by
  intro hbackup
  obtain ⟨hmay, hnone⟩ := electionRound_both h hdesignated hbackup
  obtain ⟨hpriority, hnot⟩ := mayBeBackup_iff.mp hmay
  by_cases hcurrent : current.designated.routerID = intf.routerID
  · apply hnot
    have hdeclares : intf.declaresDesignated current = true := by
      simp [declaresDesignated, hpriority, hcurrent]
    change (intf.electDesignated current (intf.electBackup current)).router.routerID = _
    rw [electDesignated_eq, designatedCandidates, hdeclares, hnone]
    simp only [List.map_nil, if_true, List.nil_append, List.cons_ne_self, if_false]
    rw [best_self hpriority]
    rfl
  · have hfirst : (intf.electBackup current).router.routerID ≠ intf.routerID := by
      rw [electionRound, electDesignated_of_none (declaresDesignated_eq_false hcurrent) hnone] at hnot
      exact hnot
    have hagain : intf.declaresBackup (intf.electionRound current) = false := by
      rw [declaresBackup, beq_eq_false_iff_ne]
      exact hfirst
    have hdeclaring : declaring intf.neighboringRouters = [] := by
      rcases (electBackup_self h hbackup).2 with htrue | hnone
      · rw [hagain] at htrue
        cases htrue
      · exact hnone
    have hhighest := (electBackup_self_iff h hmay hdeclaring).mp hbackup
    rw [hagain] at hhighest
    apply hfirst
    apply (electBackup_self_iff h (mayBeBackup_iff.mpr ⟨hpriority, hcurrent⟩) hdeclaring).mpr
    exact .inr (hhighest.resolve_left Bool.false_ne_true)

/-! ## The state of the interface -/

/-- The roles that are stored are those of the interface state. -/
def Agrees (intf : Interface) : Prop :=
  (intf.designatedRouter.routerID = intf.routerID →
    intf.backupDesignatedRouter.routerID ≠ intf.routerID ∧ intf.state = .designatedRouter) ∧
  (intf.backupDesignatedRouter.routerID = intf.routerID →
    intf.designatedRouter.routerID ≠ intf.routerID ∧ intf.state = .backup)

def StateOfRoles (intf : Interface) : Prop :=
  intf.state =
    if intf.designatedRouter.routerID = intf.routerID then .designatedRouter
    else if intf.backupDesignatedRouter.routerID = intf.routerID then .backup
    else .notDesignatedRouter

theorem changeState_eq (h : intf.Agrees) {declared : Choice}
    (hboth : declared.designated.routerID = intf.routerID → declared.backup.routerID ≠ intf.routerID) :
    intf.changeState declared =
      if declared.designated.routerID = intf.routerID then .designatedRouter
      else if declared.backup.routerID = intf.routerID then .backup
      else .notDesignatedRouter := by
  obtain ⟨hdesignated, hbackup⟩ := h
  unfold changeState
  by_cases hD : declared.designated.routerID = intf.routerID <;>
    by_cases hB : declared.backup.routerID = intf.routerID <;>
    by_cases hwasD : intf.designatedRouter.routerID = intf.routerID <;>
    by_cases hwasB : intf.backupDesignatedRouter.routerID = intf.routerID <;>
    by_cases hwasOther : intf.state = .notDesignatedRouter <;>
    simp_all

theorem calculateDesignatedRouter_cases (h : intf.Distinct) :
    ∃ declared, (declared.designated.routerID = intf.routerID → declared.backup.routerID ≠ intf.routerID) ∧
      intf.calculateDesignatedRouter = some { intf with
        designatedRouter := declared.designated
        backupDesignatedRouter := declared.backup
        state := intf.changeState declared } := by
  unfold calculateDesignatedRouter
  rw [electionRounds_eq]
  cases hrepeat : intf.mustRepeat intf.currentChoice (intf.electionRound intf.currentChoice) with
  | false =>
    refine ⟨intf.electionRound intf.currentChoice, ?_, rfl⟩
    intro hdesignated hbackup
    have hmay := (electionRound_both h hdesignated hbackup).1
    rw [mustRepeat_of_gain (mayBeBackup_iff.mp hmay).2 hdesignated] at hrepeat
    cases hrepeat
  | true => exact ⟨_, electionRound_again_ne h, rfl⟩

theorem stateOfRoles_calculate (h : intf.Distinct) (hagrees : intf.Agrees) :
    ∃ elected, intf.calculateDesignatedRouter = some elected ∧ elected.StateOfRoles ∧ elected.Agrees := by
  obtain ⟨declared, hboth, heq⟩ := calculateDesignatedRouter_cases h
  have hstate := changeState_eq hagrees hboth
  refine ⟨_, heq, hstate, ?_, ?_⟩
  · intro hdesignated
    refine ⟨hboth hdesignated, ?_⟩
    change intf.changeState declared = _
    rw [hstate]
    exact if_pos hdesignated
  · intro hbackup
    have hnot : declared.designated.routerID ≠ intf.routerID := fun hD ↦ hboth hD hbackup
    refine ⟨hnot, ?_⟩
    change intf.changeState declared = _
    rw [hstate, if_neg hnot]
    exact if_pos hbackup

/-! ## When the rule is followed -/

/-- In each of at most two rounds the backup and the designated router are those of the rule. -/
def RoundsRight (intf : Interface) : Prop :=
  ∃ rounds, intf.electionRounds 2 0 intf.currentChoice = some rounds ∧ rounds.length ≤ 2 ∧
    ∀ round ∈ rounds, BackupRight (intf.participants round.1) round.2.backup ∧
      DesignatedRight (intf.participants round.1) round.2

def OrderIndependent (intf : Interface) : Prop :=
  ∀ l, intf.neighboringRouters.Perm l →
    (intf.reorder l).calculateDesignatedRouter = intf.calculateDesignatedRouter.map (·.reorder l)

/-- Some neighbors may be backup, none of them declares it, and the router itself may not be backup in
one of the rounds: it has no priority, it is designated router, or it becomes designated router because
it is elected backup and nobody is designated router. -/
def PassedOver (intf : Interface) : Prop :=
  eligible intf.neighboringRouters ≠ [] ∧ declaring intf.neighboringRouters = [] ∧
    (intf.routerPriority = 0 ∨ intf.designatedRouter.routerID = intf.routerID ∨
      (designated intf.neighboringRouters = [] ∧
        (intf.backupDesignatedRouter.routerID = intf.routerID ∨
          ∀ n ∈ eligible intf.neighboringRouters, n.rank < intf.self.key)))

theorem passedOver_iff (h : intf.Distinct) : intf.PassedOver ↔
    intf.Forgets intf.currentChoice ∨
      (intf.mustRepeat intf.currentChoice (intf.electionRound intf.currentChoice) = true ∧
        intf.Forgets (intf.electionRound intf.currentChoice)) := by
  have hmay_false (c : Choice) : intf.mayBeBackup c = false ↔
      intf.routerPriority = 0 ∨ c.designated.routerID = intf.routerID := by
    rw [Bool.eq_false_iff, ne_eq, mayBeBackup_iff, not_and_or, not_lt, Nat.le_zero, ne_eq, not_not]
  constructor
  · rintro ⟨heligible, hdeclaring, hreason⟩
    by_cases hmay : intf.mayBeBackup intf.currentChoice = true
    · right
      obtain ⟨hpriority, hother⟩ := mayBeBackup_iff.mp hmay
      obtain ⟨hnone, hbackup⟩ := (hreason.resolve_left hpriority.ne').resolve_left hother
      have hself : (intf.electBackup intf.currentChoice).router.routerID = intf.routerID := by
        apply (electBackup_self_iff h hmay hdeclaring).mpr
        rw [declaresBackup, beq_iff_eq]
        exact hbackup
      have hgain : (intf.electionRound intf.currentChoice).designated.routerID = intf.routerID := by
        rw [electionRound, electDesignated_of_none (declaresDesignated_eq_false hother) hnone]
        exact hself
      exact ⟨mustRepeat_of_gain hother hgain, (hmay_false _).mpr (.inr hgain), hdeclaring, heligible⟩
    · left
      exact ⟨Bool.eq_false_iff.mpr hmay, hdeclaring, heligible⟩
  · rintro (⟨hmay, hdeclaring, heligible⟩ | ⟨-, hmay, hdeclaring, heligible⟩)
    · refine ⟨heligible, hdeclaring, ?_⟩
      rcases (hmay_false _).mp hmay with hzero | hself
      · exact .inl hzero
      · exact .inr (.inl hself)
    · refine ⟨heligible, hdeclaring, ?_⟩
      rcases (hmay_false _).mp hmay with hzero | hself
      · exact .inl hzero
      · by_cases hfirst : intf.mayBeBackup intf.currentChoice = true
        · have hother := (mayBeBackup_iff.mp hfirst).2
          obtain ⟨hnone, hbackup⟩ := electDesignated_self h (declaresDesignated_eq_false hother) hself
          have hwhy := (electBackup_self_iff h hfirst hdeclaring).mp hbackup
          rw [declaresBackup, beq_iff_eq] at hwhy
          exact .inr (.inr ⟨hnone, hwhy⟩)
        · rcases (hmay_false _).mp (Bool.eq_false_iff.mpr hfirst) with hzero | hself
          · exact .inl hzero
          · exact .inr (.inl hself)

theorem roundsRight_iff (h : intf.Distinct) : intf.RoundsRight ↔ ¬ intf.PassedOver := by
  have hround (c : Choice) : (BackupRight (intf.participants c) (intf.electionRound c).backup ∧
      DesignatedRight (intf.participants c) (intf.electionRound c)) ↔ ¬ intf.Forgets c := by
    rw [and_iff_left (designatedRight intf c)]
    exact backupRight_iff h.ne_null
  have hfirst := hround intf.currentChoice
  have hsecond := hround (intf.electionRound intf.currentChoice)
  rw [passedOver_iff h, RoundsRight, electionRounds_eq]
  cases intf.mustRepeat intf.currentChoice (intf.electionRound intf.currentChoice) with
  | false => simpa using hfirst
  | true =>
    simp only [if_true, Option.some.injEq, exists_eq_left', List.length_cons, List.length_nil, le_refl,
      true_and, List.forall_mem_cons, List.not_mem_nil, false_imp_iff, implies_true, and_true, not_or,
      hfirst, hsecond]

/-- The rule is followed, in any order of the neighbors, except where the neighbors that may be backup
are passed over. -/
theorem election_follows_rule_iff (intf : Interface) (h : intf.Distinct) (hagrees : intf.Agrees) :
    (intf.RoundsRight ∧ intf.OrderIndependent ∧
      ∃ elected, intf.calculateDesignatedRouter = some elected ∧ elected.StateOfRoles) ↔
      ¬ intf.PassedOver := by
  rw [roundsRight_iff h]
  constructor
  · intro hall
    exact hall.1
  · intro hnot
    obtain ⟨elected, heq, hstate, -⟩ := stateOfRoles_calculate h hagrees
    exact ⟨hnot, fun l hperm ↦ calculateDesignatedRouter_reorder h hperm, elected, heq, hstate⟩

/-- A waiting interface of router 5 with one neighbor, which declares nothing. -/
def waitingInterface (routerPriority : ℕ) : Interface where
  routerID := 5
  address := 50
  routerPriority := routerPriority
  state := .waiting
  designatedRouter := nullDesignatedRouterID
  backupDesignatedRouter := nullDesignatedRouterID
  neighboringRouters := [⟨7, 70, 1, .full, nullDesignatedRouterID, nullDesignatedRouterID⟩]

theorem waitingInterface_distinct (routerPriority : ℕ) : (waitingInterface routerPriority).Distinct := by
  unfold Distinct
  change [0, 5, 7].Nodup
  decide

theorem waitingInterface_agrees (routerPriority : ℕ) : (waitingInterface routerPriority).Agrees := by
  constructor <;>
    · intro hrole
      change 0 = 5 at hrole
      cases hrole

theorem waitingInterface_not_passedOver : ¬ (waitingInterface 1).PassedOver := by
  rintro ⟨-, -, hzero | hself | ⟨-, hself | hhighest⟩⟩
  · exact absurd hzero (by decide)
  · exact absurd hself (by decide)
  · exact absurd hself (by decide)
  · exact absurd (hhighest _ List.mem_cons_self) (by decide)

theorem waitingInterface_elects : (waitingInterface 1).RoundsRight :=
  ((election_follows_rule_iff (waitingInterface 1) (waitingInterface_distinct 1)
    (waitingInterface_agrees 1)).mpr waitingInterface_not_passedOver).1

/-- A router without priority does not see that its neighbor is the only one that can be elected. -/
theorem passed_over_neighbor : (waitingInterface 0).calculateDesignatedRouter.map
      (fun intf ↦ (intf.designatedRouter, intf.backupDesignatedRouter)) =
        some (nullDesignatedRouterID, nullDesignatedRouterID) ∧
    ¬ (waitingInterface 0).RoundsRight := by
  refine ⟨by decide, ?_⟩
  rw [roundsRight_iff (waitingInterface_distinct 0), not_not]
  exact ⟨by decide, by decide, .inl rfl⟩

end Interface

end InetManet.OSPF.Election
