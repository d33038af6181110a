import InetManet.Library.Loops
import InetManet.RSVP.Reservation
import Mathlib.Algebra.BigOperators.Group.List.Basic
import Mathlib.Data.List.Forall2
import Mathlib.Tactic.Linarith
import Mathlib.Tactic.Ring

/-!
# The bandwidth that is left on a link

At every priority, a link has what its reservations at this priority and stronger ones leave of its
bandwidth. Inside an allocation the reservation it is made for does not count its bandwidth yet, which
is then `extra`.
-/

namespace InetManet.RSVP

open TransitionSystem TED

/-! ## Allocated bandwidth -/

/-- What the reservations on the interface hold at the priority and stronger ones. -/
def allocated (rsbs : List ResvStateBlock) (L : IPAddress) (p : Fin 8) : ℚ :=
  ((rsbs.filter fun r ↦ r.outInterface = L ∧ r.session.holdingPri ≤ p).map (·.reqBandwidth)).sum

def ResvStateBlock.share (r : ResvStateBlock) (L : IPAddress) (p : Fin 8) : ℚ :=
  if r.outInterface = L ∧ r.session.holdingPri ≤ p then r.reqBandwidth else 0

/-- What the reservations on the interface hold at exactly the priority. -/
def held (rsbs : List ResvStateBlock) (L : IPAddress) (p : Fin 8) : ℚ :=
  ((rsbs.filter fun r ↦ r.outInterface = L ∧ r.session.holdingPri = p).map (·.reqBandwidth)).sum

section Allocated

variable {rsbs : List ResvStateBlock} {r : ResvStateBlock} {L : IPAddress} {p q : Fin 8}

@[simp] theorem allocated_nil : allocated [] L p = 0 := rfl

@[simp] theorem allocated_cons : allocated (r :: rsbs) L p = r.share L p + allocated rsbs L p := by
  unfold allocated ResvStateBlock.share
  by_cases h : r.outInterface = L ∧ r.session.holdingPri ≤ p <;> simp [h]

@[simp] theorem allocated_append {rsbs' : List ResvStateBlock} :
    allocated (rsbs ++ rsbs') L p = allocated rsbs L p + allocated rsbs' L p := by
  simp [allocated]

@[simp] theorem held_cons : held (r :: rsbs) L p =
    (if r.outInterface = L ∧ r.session.holdingPri = p then r.reqBandwidth else 0) + held rsbs L p := by
  unfold held
  by_cases h : r.outInterface = L ∧ r.session.holdingPri = p <;> simp [h]

theorem allocated_succ (h : q.val + 1 = p.val) :
    allocated rsbs L p = allocated rsbs L q + held rsbs L p := by
  induction rsbs with
  | nil => simp [allocated, held]
  | cons r rsbs ih =>
    have hsplit : r.share L p = r.share L q +
        if r.outInterface = L ∧ r.session.holdingPri = p then r.reqBandwidth else 0 := by
      unfold ResvStateBlock.share
      by_cases hL : r.outInterface = L
      · rcases lt_trichotomy r.session.holdingPri p with hlt | heq | hgt
        · have hle : r.session.holdingPri ≤ q := by omega
          simp [hL, hle, hlt.le, hlt.ne]
        · have hle : ¬ p ≤ q := by omega
          simp [hL, hle, heq]
        · have hle : ¬ r.session.holdingPri ≤ q := by omega
          simp [hL, hle, hgt.not_ge, hgt.ne']
      · simp [hL]
    rw [allocated_cons, allocated_cons, held_cons, ih, hsplit]
    ring

theorem ResvStateBlock.share_mono (hr : 0 ≤ r.reqBandwidth) (h : p ≤ q) :
    r.share L p ≤ r.share L q := by
  unfold share
  split
  · rename_i hp
    rw [if_pos ⟨hp.1, hp.2.trans h⟩]
  · split
    · exact hr
    · exact le_refl 0

theorem allocated_mono (hrs : ∀ r ∈ rsbs, 0 ≤ r.reqBandwidth) (h : p ≤ q) :
    allocated rsbs L p ≤ allocated rsbs L q := by
  induction rsbs with
  | nil => exact le_refl _
  | cons r rsbs ih =>
    rw [allocated_cons, allocated_cons]
    exact add_le_add (ResvStateBlock.share_mono (hrs r List.mem_cons_self) h)
      (ih fun r' hr' ↦ hrs r' (List.mem_cons_of_mem r hr'))

end Allocated

/-- The reservation is kept, or is preempted at a priority in `P`. -/
def Preempted (L : IPAddress) (P : Fin 8 → Prop) (r r' : ResvStateBlock) : Prop :=
  r' = r ∨ r.outInterface = L ∧ P r.session.holdingPri ∧ r' = { r with reqBandwidth := 0 }

namespace Preempted

variable {L : IPAddress} {P Q : Fin 8 → Prop} {r r' : ResvStateBlock}
  {rsbs rsbs' rsbs'' : List ResvStateBlock}

theorem refl (rsbs : List ResvStateBlock) : List.Forall₂ (Preempted L P) rsbs rsbs :=
  List.forall₂_same.mpr fun _ _ ↦ .inl rfl

theorem mono (hPQ : ∀ p, P p → Q p) (h : List.Forall₂ (Preempted L P) rsbs rsbs') :
    List.Forall₂ (Preempted L Q) rsbs rsbs' := by
  apply h.imp
  rintro r r' (h | ⟨hL, hP, h⟩)
  · exact .inl h
  · exact .inr ⟨hL, hPQ _ hP, h⟩

theorem trans (h : List.Forall₂ (Preempted L P) rsbs rsbs')
    (h' : List.Forall₂ (Preempted L P) rsbs' rsbs'') :
    List.Forall₂ (Preempted L P) rsbs rsbs'' := by
  induction h generalizing rsbs'' with
  | nil =>
    cases h'
    exact .nil
  | cons hr _ ih =>
    cases h' with
    | cons hr' hrest =>
      refine .cons ?_ (ih hrest)
      rcases hr with rfl | ⟨hL, hP, rfl⟩
      · exact hr'
      · rcases hr' with rfl | ⟨_, _, rfl⟩
        · exact .inr ⟨hL, hP, rfl⟩
        · exact .inr ⟨hL, hP, rfl⟩

theorem map_eq {β : Type} {f : ResvStateBlock → β} (hf : ∀ r, f { r with reqBandwidth := 0 } = f r)
    (h : List.Forall₂ (Preempted L P) rsbs rsbs') : rsbs'.map f = rsbs.map f := by
  induction h with
  | nil => rfl
  | cons hr _ ih =>
    rw [List.map_cons, List.map_cons, ih]
    rcases hr with rfl | ⟨_, _, rfl⟩
    · rfl
    · rw [hf]

/-- Every block comes from one with the same flows and labels. -/
theorem forall_of {T : ResvStateBlock → Prop} (hT : ∀ r, T r → T { r with reqBandwidth := 0 })
    (h : List.Forall₂ (Preempted L P) rsbs rsbs') (hrs : ∀ r ∈ rsbs, T r) : ∀ r ∈ rsbs', T r := by
  induction h with
  | nil => exact nofun
  | cons hr _ ih =>
    intro x hx
    rcases List.mem_cons.mp hx with rfl | hx
    · have hfirst := hrs _ List.mem_cons_self
      rcases hr with rfl | ⟨_, _, rfl⟩
      · exact hfirst
      · exact hT _ hfirst
    · exact ih (fun y hy ↦ hrs y (List.mem_cons_of_mem _ hy)) x hx

/-- A reservation at a priority that is not preempted keeps its bandwidth. -/
theorem getElem? (h : List.Forall₂ (Preempted L P) rsbs rsbs') {k : ℕ} (hk : rsbs[k]? = some r)
    (hP : ¬ P r.session.holdingPri) : rsbs'[k]? = some r := by
  induction h generalizing k with
  | nil => cases hk
  | cons hr _ ih =>
    cases k with
    | zero =>
      cases hk
      rcases hr with rfl | ⟨_, hP', _⟩
      · rfl
      · exact absurd hP' hP
    | succ k => exact ih hk

end Preempted

theorem preemptLoop_spec (L : IPAddress) (priority : Fin 8) {rsbs : List ResvStateBlock}
    (hrs : ∀ r ∈ rsbs, 0 ≤ r.reqBandwidth) (bandwidth : ℚ) (u : Fin 8 → ℚ) :
    ∃ released, 0 ≤ released ∧
      (State.preemptLoop L priority bandwidth u rsbs).1 = State.release u priority released ∧
      (∀ L' q, allocated (State.preemptLoop L priority bandwidth u rsbs).2.1 L' q =
        allocated rsbs L' q - if L' = L ∧ priority ≤ q then released else 0) ∧
      (bandwidth ≤ released ∨ released = held rsbs L priority) ∧
      List.Forall₂ (Preempted L (· = priority)) rsbs
        (State.preemptLoop L priority bandwidth u rsbs).2.1 := by
  induction rsbs generalizing bandwidth u with
  | nil =>
    refine ⟨0, le_refl 0, ?_, ?_, .inr rfl, .nil⟩
    · ext i
      simp [State.preemptLoop, State.release]
    · simp [State.preemptLoop]
  | cons r rsbs ih =>
    have hr := hrs r List.mem_cons_self
    have hrest : ∀ r' ∈ rsbs, 0 ≤ r'.reqBandwidth := fun r' hr' ↦ hrs r' (List.mem_cons_of_mem r hr')
    unfold State.preemptLoop
    split
    · rename_i hskip
      obtain ⟨released, hnonneg, hu, halloc, henough, hpre⟩ := ih hrest bandwidth u
      refine ⟨released, hnonneg, hu, fun L' q ↦ ?_, ?_, .cons (.inl rfl) hpre⟩
      · rw [allocated_cons, halloc, allocated_cons]
        ring
      · rcases henough with h | h
        · exact .inl h
        · right
          have hzero : (if r.outInterface = L ∧ r.session.holdingPri = priority then r.reqBandwidth
              else 0) = 0 := by
            simp only [Bool.or_eq_true, bne_iff_ne, decide_eq_true_eq] at hskip
            split <;> tauto
          rw [held_cons, hzero, h, zero_add]
    · rename_i hskip
      simp only [Bool.or_eq_true, bne_iff_ne, decide_eq_true_eq, not_or, not_not] at hskip
      obtain ⟨⟨hL, hpri⟩, _⟩ := hskip
      have hshare : ∀ L' q, r.share L' q = if L' = L ∧ priority ≤ q then r.reqBandwidth else 0 := by
        intro L' q
        unfold ResvStateBlock.share
        rw [hL, hpri]
        simp only [eq_comm]
      have hzero : ∀ L' q, ({ r with reqBandwidth := 0 } : ResvStateBlock).share L' q = 0 := by
        intro L' q
        unfold ResvStateBlock.share
        simp
      have hpreempted : Preempted L (· = priority) r { r with reqBandwidth := 0 } :=
        .inr ⟨hL, hpri, rfl⟩
      dsimp only
      split
      · rename_i hdone
        refine ⟨r.reqBandwidth, hr, rfl, fun L' q ↦ ?_, .inl (by linarith), .cons hpreempted (Preempted.refl _)⟩
        rw [allocated_cons, allocated_cons, hzero, hshare]
        ring
      · obtain ⟨released, hnonneg, hu, halloc, henough, hpre⟩ :=
          ih hrest (bandwidth - r.reqBandwidth) (State.release u priority r.reqBandwidth)
        refine ⟨r.reqBandwidth + released, add_nonneg hr hnonneg, ?_, fun L' q ↦ ?_, ?_,
          .cons hpreempted hpre⟩
        · rw [hu]
          ext i
          unfold State.release
          split
          · ring
          · rfl
        · rw [allocated_cons, allocated_cons, hzero, hshare, halloc]
          split
          · ring
          · ring
        · rcases henough with h | h
          · left
            linarith
          · right
            rw [held_cons, if_pos ⟨hL, hpri⟩, h]

/-! ## The links -/

namespace State

def IsOwn (s : State) (link : TELinkStateInfo) : Prop := link.advrouter = s.routerId

instance (s : State) : DecidablePred s.IsOwn := fun link ↦
  inferInstanceAs (Decidable (link.advrouter = s.routerId))

/-- The addresses and the bandwidth of the own links. -/
def ownLinks (s : State) : List (IPAddress × ℚ × (Fin 8 → ℚ)) :=
  (s.ted.filter (s.IsOwn ·)).map fun link ↦ (link.localAddr, link.maxBandwidth, link.unResvBandwidth)

theorem getElem?_setUnResvBandwidth {s : State} {index : ℕ} {link : TELinkStateInfo}
    (h : s.ted[index]? = some link) (u : Fin 8 → ℚ) :
    (s.setUnResvBandwidth index u).ted[index]? = some { link with unResvBandwidth := u } := by
  unfold setUnResvBandwidth
  dsimp only
  rw [List.getElem?_modify, h]
  simp

theorem nodup_ownLinks_iff {s : State} : (s.ownLinks.map Prod.fst).Nodup ↔
    (s.ted.map fun link ↦ (link.advrouter, link.localAddr)).Pairwise fun x y ↦
      x.1 = s.routerId → y.1 = s.routerId → x.2 ≠ y.2 := by
  rw [ownLinks, List.map_map, List.Nodup, List.pairwise_map, List.pairwise_filter, List.pairwise_map]
  simp only [decide_eq_true_eq]
  exact Iff.rfl

theorem map_addresses_modify (ted : List TELinkStateInfo) (index : ℕ) (u : Fin 8 → ℚ) :
    (ted.modify index fun link ↦ { link with unResvBandwidth := u }).map
      (fun link ↦ (link.advrouter, link.localAddr)) =
    ted.map fun link ↦ (link.advrouter, link.localAddr) := by
  apply List.ext_getElem?
  intro i
  rw [List.getElem?_map, List.getElem?_map, List.getElem?_modify]
  cases ted[i]? with
  | none => rfl
  | some link =>
    by_cases hi : index = i
    · simp [hi]
    · simp [hi]

end State

/-- The books agree, with bandwidth in `extra` that no block counts yet. -/
structure Booked (extra : IPAddress → Fin 8 → ℚ) (s : State) : Prop where
  links : ∀ link ∈ s.ted, s.IsOwn link → ∀ p, link.unResvBandwidth p =
    link.maxBandwidth - allocated s.rsbList link.localAddr p - extra link.localAddr p
  nonneg : ∀ r ∈ s.rsbList, 0 ≤ r.reqBandwidth
  lengths : ∀ r ∈ s.rsbList, r.inLabelVector.length = r.flowDescriptor.length
  addresses : ∀ link ∈ s.ted, s.IsOwn link →
    link.localAddr ≠ 0 ∧ s.isLocalAddress link.localAddr = true
  distinct : (s.ownLinks.map Prod.fst).Nodup
  ids : (s.rsbList.map ResvStateBlock.id).Nodup
  bounded : ∀ r ∈ s.rsbList, r.id ≤ s.maxRsbId

/-- No link is overbooked, except the one at `L` from priority `n` on. -/
def FreeBelow (L : IPAddress) (n : ℕ) (s : State) : Prop :=
  ∀ link ∈ s.ted, s.IsOwn link → ∀ p : Fin 8, (link.localAddr = L → p.val < n) →
    0 ≤ link.unResvBandwidth p

structure Balanced (s : State) : Prop where
  booked : Booked 0 s
  free : ∀ link ∈ s.ted, s.IsOwn link → ∀ p, 0 ≤ link.unResvBandwidth p

namespace Booked

variable {extra extra' : IPAddress → Fin 8 → ℚ} {s : State} {index : ℕ} {link : TELinkStateInfo}

variable (h : Booked extra s)

include h

/-- Own links at different places have different addresses. -/
theorem index_eq {i j : ℕ} {a b : TELinkStateInfo} (hi : s.ted[i]? = some a)
    (hj : s.ted[j]? = some b) (ha : s.IsOwn a) (hb : s.IsOwn b)
    (hab : a.localAddr = b.localAddr) : i = j := by
  have hpair : s.ted.Pairwise fun x y ↦ s.IsOwn x → s.IsOwn y → x.localAddr ≠ y.localAddr :=
    List.pairwise_map.mp (State.nodup_ownLinks_iff.mp h.distinct)
  obtain ⟨hilt, rfl⟩ := List.getElem?_eq_some_iff.mp hi
  obtain ⟨hjlt, rfl⟩ := List.getElem?_eq_some_iff.mp hj
  rcases lt_trichotomy i j with hlt | heq | hgt
  · exact absurd hab (List.pairwise_iff_getElem.mp hpair i j hilt hjlt hlt ha hb)
  · exact heq
  · exact absurd hab.symm (List.pairwise_iff_getElem.mp hpair j i hjlt hilt hgt hb ha)

theorem others_ne (hlink : s.ted[index]? = some link) (hown : s.IsOwn link) :
    ∀ i x, i ≠ index → s.ted[i]? = some x → s.IsOwn x → x.localAddr ≠ link.localAddr := by
  intro i x hi hx hxown hxL
  exact hi (h.index_eq hx hlink hxown hown hxL)

theorem linkIndex_eq (hlink : s.ted[index]? = some link)
    (hown : s.IsOwn link) : s.linkIndex link.localAddr = .ok index := by
  unfold State.linkIndex
  have hlt := (List.getElem?_eq_some_iff.mp hlink).1
  cases hfind : s.ted.findIdx? (s.isLink link.localAddr) with
  | none =>
    have hnone := List.findIdx?_eq_none_iff.mp hfind link (List.mem_of_getElem? hlink)
    rw [State.isLink, hown, beq_self_eq_true, beq_self_eq_true] at hnone
    cases hnone
  | some j =>
    obtain ⟨hj, hjlink, _⟩ := List.findIdx?_eq_some_iff_getElem.mp hfind
    simp only [State.isLink, Bool.and_eq_true, beq_iff_eq] at hjlink
    have hjget : s.ted[j]? = some s.ted[j] := List.getElem?_eq_getElem hj
    rw [h.index_eq hjget hlink hjlink.1 hown hjlink.2]

theorem output (o : List Output) : Booked extra (s.output o) :=
  ⟨h.links, h.nonneg, h.lengths, h.addresses, h.distinct, h.ids, h.bounded⟩

theorem update (hlink : s.ted[index]? = some link) (hown : s.IsOwn link)
    {rsbs : List ResvStateBlock} {u : Fin 8 → ℚ} {P : Fin 8 → Prop} {L : IPAddress}
    (hu : ∀ p, u p = link.maxBandwidth - allocated rsbs link.localAddr p - extra' link.localAddr p)
    (hothers : ∀ L' p, L' ≠ link.localAddr →
      allocated rsbs L' p + extra' L' p = allocated s.rsbList L' p + extra L' p)
    (hrsbs : List.Forall₂ (Preempted L P) s.rsbList rsbs) :
    Booked extra' ({ s with rsbList := rsbs }.setUnResvBandwidth index u) := by
  have hmem : ∀ x ∈ s.ted.modify index (fun l ↦ { l with unResvBandwidth := u }), s.IsOwn x →
      x = { link with unResvBandwidth := u } ∨ x ∈ s.ted ∧ x.localAddr ≠ link.localAddr := by
    intro x hx hxown
    obtain ⟨i, hi⟩ := List.mem_iff_getElem?.mp hx
    rw [List.getElem?_modify] at hi
    obtain ⟨y, hy, rfl⟩ := Option.map_eq_some_iff.mp hi
    by_cases hindex : index = i
    · subst hindex
      rw [hlink, Option.some.injEq] at hy
      subst hy
      rw [if_pos rfl]
      exact .inl rfl
    · rw [if_neg hindex] at hxown ⊢
      refine .inr ⟨List.mem_of_getElem? hy, fun heq ↦ hindex ?_⟩
      exact (h.index_eq hy hlink hxown hown heq).symm
  refine ⟨fun x hx hxown p ↦ ?_, ?_, ?_, fun x hx hxown ↦ ?_, ?_, ?_, ?_⟩
  · rcases hmem x hx hxown with rfl | ⟨hxted, hne⟩
    · exact hu p
    · have hold := h.links x hxted hxown p
      have heq := hothers x.localAddr p hne
      change x.unResvBandwidth p = x.maxBandwidth - allocated rsbs x.localAddr p - _
      linarith
  · exact Preempted.forall_of (fun _ _ ↦ le_refl 0) hrsbs h.nonneg
  · exact Preempted.forall_of (fun _ hr ↦ hr) hrsbs h.lengths
  · rcases hmem x hx hxown with rfl | ⟨hxted, _⟩
    · exact h.addresses link (List.mem_of_getElem? hlink) hown
    · exact h.addresses x hxted hxown
  · apply State.nodup_ownLinks_iff.mpr
    change (List.map _ (s.ted.modify index _)).Pairwise _
    rw [State.map_addresses_modify]
    exact State.nodup_ownLinks_iff.mp h.distinct
  · change (rsbs.map ResvStateBlock.id).Nodup
    rw [Preempted.map_eq (fun _ ↦ rfl) hrsbs]
    exact h.ids
  · exact Preempted.forall_of (fun _ hr ↦ hr) hrsbs h.bounded

/-- Preemption gives back enough, or all there is at the priority. -/
theorem preempt (hlink : s.ted[index]? = some link) (hown : s.IsOwn link)
    (priority : Fin 8) (bandwidth : ℚ) :
    ∃ released rsbs outputs, s.preempt link.localAddr priority bandwidth =
        .ok (({ s with rsbList := rsbs }.setUnResvBandwidth index
          (State.release link.unResvBandwidth priority released)).output outputs) ∧
      0 ≤ released ∧ (bandwidth ≤ released ∨ released = held s.rsbList link.localAddr priority) ∧
      List.Forall₂ (Preempted link.localAddr (· = priority)) s.rsbList rsbs ∧
      Booked extra ({ s with rsbList := rsbs }.setUnResvBandwidth index
        (State.release link.unResvBandwidth priority released)) := by
  obtain ⟨released, hnonneg, hu, halloc, henough, hpre⟩ :=
    preemptLoop_spec link.localAddr priority h.nonneg bandwidth link.unResvBandwidth
  have hlocal := (h.addresses link (List.mem_of_getElem? hlink) hown).2
  refine ⟨released, _, (State.preemptLoop link.localAddr priority bandwidth link.unResvBandwidth
    s.rsbList).2.2, ?_, hnonneg, henough, hpre, h.update hlink hown ?_ ?_ hpre⟩
  · unfold State.preempt
    rw [hlocal, check_true, ok_bind, h.linkIndex_eq hlink hown, ok_bind, hlink, ← hu]
    rfl
  · intro p
    have hold := h.links link (List.mem_of_getElem? hlink) hown p
    rw [halloc]
    unfold State.release
    by_cases hp : priority ≤ p
    · rw [if_pos hp, if_pos ⟨rfl, hp⟩]
      linarith
    · rw [if_neg hp, if_neg fun hc ↦ hp hc.2]
      linarith
  · intro L' p hne
    rw [halloc, if_neg fun hc ↦ hne hc.1, sub_zero]

end Booked

/-! ## One allocation -/

/-- What a reservation gets at the priorities below `n` so far. -/
def pending (L : IPAddress) (holdingPri : Fin 8) (bandwidth : ℚ) (n : ℕ) (L' : IPAddress)
    (p : Fin 8) : ℚ :=
  if L' = L ∧ holdingPri ≤ p ∧ p.val < n then bandwidth else 0

/-- The loop over the priorities has come to priority `n`. -/
structure Allocating (s₀ : State) (index : ℕ) (L : IPAddress) (session : SessionObj) (bandwidth : ℚ)
    (n : ℕ) (s : State) : Prop where
  booked : Booked (pending L session.holdingPri bandwidth n) s
  free : FreeBelow L n s
  link : ∃ link, s.ted[index]? = some link ∧ s.IsOwn link ∧ link.localAddr = L ∧
    ∀ p : Fin 8, n ≤ p.val → p ≤ session.setupPri → bandwidth ≤ link.unResvBandwidth p
  rsbs : List.Forall₂ (Preempted L (session.setupPri < ·)) s₀.rsbList s.rsbList

namespace Allocating

variable {s₀ s : State} {index : ℕ} {L : IPAddress} {session : SessionObj} {bandwidth : ℚ}

theorem free_setUnResvBandwidth {n m : ℕ} {link : TELinkStateInfo} {u : Fin 8 → ℚ}
    {rsbs : List ResvStateBlock} {extra : IPAddress → Fin 8 → ℚ} (hbooked : Booked extra s)
    (hfree : FreeBelow L n s) (hlink : s.ted[index]? = some link) (hown : s.IsOwn link)
    (hL : link.localAddr = L) (hu : ∀ p : Fin 8, p.val < m → 0 ≤ u p) :
    FreeBelow L m ({ s with rsbList := rsbs }.setUnResvBandwidth index u) := by
  intro x hx hxown p hp
  obtain ⟨i, hi⟩ := List.mem_iff_getElem?.mp hx
  change (s.ted.modify index _)[i]? = some x at hi
  rw [List.getElem?_modify] at hi
  obtain ⟨y, hy, rfl⟩ := Option.map_eq_some_iff.mp hi
  by_cases hindex : index = i
  · subst hindex
    rw [hlink, Option.some.injEq] at hy
    subst hy
    rw [if_pos rfl] at hp ⊢
    exact hu p (hp hL)
  · rw [if_neg hindex] at hxown hp ⊢
    have hxL := hbooked.others_ne hlink hown i y (Ne.symm hindex) hy hxown
    exact hfree y (List.mem_of_getElem? hy) hxown p fun hc ↦ absurd (hc.trans hL.symm) hxL

theorem take {p : Fin 8} {link : TELinkStateInfo}
    (h : Allocating s₀ index L session bandwidth p s) (hp : session.holdingPri ≤ p)
    (hlink : s.ted[index]? = some link) (hown : s.IsOwn link) (hL : link.localAddr = L) :
    Booked (pending L session.holdingPri bandwidth (p + 1)) (s.setUnResvBandwidth index
      (Function.update link.unResvBandwidth p (link.unResvBandwidth p - bandwidth))) := by
  subst hL
  refine h.booked.update hlink hown (fun q ↦ ?_) (fun L' q hne ↦ ?_)
    (Preempted.refl s.rsbList (L := link.localAddr) (P := fun _ ↦ True))
  · have hold := h.booked.links link (List.mem_of_getElem? hlink) hown q
    unfold pending at hold ⊢
    by_cases hq : q = p
    · subst hq
      rw [if_neg (by omega)] at hold
      rw [Function.update_self, if_pos ⟨rfl, hp, Nat.lt_succ_self _⟩]
      linarith
    · rw [Function.update_of_ne hq, hold]
      have hiff : (q.val < p.val + 1) = (q.val < p.val) := by
        rw [eq_iff_iff]
        omega
      simp only [hiff]
  · unfold pending
    rw [if_neg fun hc ↦ hne hc.1, if_neg fun hc ↦ hne hc.1]

/-- Where too little is left, the reservations at the priority hold enough. -/
theorem deficit_le {p : Fin 8} {link : TELinkStateInfo}
    (h : Allocating s₀ index L session bandwidth p s) (hp : session.setupPri < p)
    (hlink : s.ted[index]? = some link) (hown : s.IsOwn link) (hL : link.localAddr = L) :
    -(link.unResvBandwidth p - bandwidth) ≤ held s.rsbList L p := by
  subst hL
  have hmem := List.mem_of_getElem? hlink
  have hpos : 0 < p.val := by omega
  let q : Fin 8 := ⟨p.val - 1, by omega⟩
  have hq : q.val + 1 = p.val := by
    dsimp only [q]
    omega
  have hfree : 0 ≤ link.unResvBandwidth q := h.free link hmem hown q fun _ ↦ by omega
  have hle : session.holdingPri ≤ q := by
    have := session.holding_le_setup
    omega
  have hq' := h.booked.links link hmem hown q
  have hp' := h.booked.links link hmem hown p
  unfold pending at hq' hp'
  rw [if_pos ⟨rfl, hle, by omega⟩] at hq'
  rw [if_neg (by omega)] at hp'
  have hsucc : allocated s.rsbList link.localAddr p =
      allocated s.rsbList link.localAddr q + held s.rsbList link.localAddr p := allocated_succ hq
  linarith

theorem allocatePriority {p : Fin 8} (h : Allocating s₀ index L session bandwidth p s)
    (hp : session.holdingPri ≤ p) :
    ∃ s', State.allocatePriority L bandwidth index s p = .ok s' ∧
      Allocating s₀ index L session bandwidth (p + 1) s' := by
  obtain ⟨link, hlink, hown, hL, henough⟩ := h.link
  have hbooked := h.take hp hlink hown hL
  have hbelow : ∀ q : Fin 8, q.val < p.val → 0 ≤ link.unResvBandwidth q := by
    intro q hq
    exact h.free link (List.mem_of_getElem? hlink) hown q fun _ ↦ hq
  unfold State.allocatePriority
  rw [hlink]
  change ∃ s', (if Function.update link.unResvBandwidth p (link.unResvBandwidth p - bandwidth) p < 0
    then _ else _) = Except.ok s' ∧ _
  rw [Function.update_self]
  by_cases hneg : link.unResvBandwidth p - bandwidth < 0
  · rw [if_pos hneg]
    have hsetup : session.setupPri < p := by
      by_contra hle
      have := henough p (le_refl _) (not_lt.mp hle)
      linarith
    let u := Function.update link.unResvBandwidth p (link.unResvBandwidth p - bandwidth)
    have hu : ∀ q : Fin 8, q.val < p.val → 0 ≤ u q := by
      intro q hq
      have hne : q ≠ p := by
        rintro rfl
        exact lt_irrefl _ hq
      dsimp only [u]
      rw [Function.update_of_ne hne]
      exact hbelow q hq
    have hnew := State.getElem?_setUnResvBandwidth hlink u
    have hfree : FreeBelow L p (s.setUnResvBandwidth index u) :=
      free_setUnResvBandwidth h.booked h.free hlink hown hL hu
    obtain ⟨released, rsbs, outputs, hok, hnonneg, hrel, hpre, hbooked'⟩ :=
      hbooked.preempt hnew hown p (-(link.unResvBandwidth p - bandwidth))
    have hup : u p = link.unResvBandwidth p - bandwidth := Function.update_self ..
    have hdeficit : -(link.unResvBandwidth p - bandwidth) ≤ released := by
      rcases hrel with hrel | hrel
      · exact hrel
      · have hheld := h.deficit_le hsetup hlink hown hL
        rw [← hL] at hheld
        exact hheld.trans_eq hrel.symm
    subst hL
    refine ⟨_, hok, hbooked'.output outputs, ?_, ?_, Preempted.trans h.rsbs ?_⟩
    · refine free_setUnResvBandwidth hbooked hfree hnew hown rfl fun q hq ↦ ?_
      unfold State.release
      split
      · rename_i hpq
        have hqp : q = p := by omega
        subst hqp
        linarith
      · exact hu q (by omega)
    · refine ⟨{ link with unResvBandwidth := State.release u p released }, ?_, hown, rfl, ?_⟩
      · exact State.getElem?_setUnResvBandwidth hnew _
      · intro q hq hqs
        omega
    · apply Preempted.mono _ hpre
      rintro q rfl
      exact hsetup
  · rw [if_neg hneg]
    subst hL
    refine ⟨_, rfl, hbooked, ?_, ?_, h.rsbs⟩
    · refine free_setUnResvBandwidth h.booked h.free hlink hown rfl fun q hq ↦ ?_
      by_cases hqp : q = p
      · subst hqp
        rw [Function.update_self]
        exact not_lt.mp hneg
      · rw [Function.update_of_ne hqp]
        exact hbelow q (by omega)
    · let u := Function.update link.unResvBandwidth p (link.unResvBandwidth p - bandwidth)
      refine ⟨{ link with unResvBandwidth := u }, ?_, hown, rfl, fun q hq hqs ↦ ?_⟩
      · exact State.getElem?_setUnResvBandwidth hlink u
      · have hne : q ≠ p := by
          rintro rfl
          omega
        dsimp only [u]
        rw [Function.update_of_ne hne]
        exact henough q (by omega) hqs

theorem foldlM {k n : ℕ} (hk : n + k = 8) (h : Allocating s₀ index L session bandwidth n s)
    (hn : session.holdingPri.val ≤ n) :
    ∃ s', ((List.finRange 8).drop n).foldlM (State.allocatePriority L bandwidth index) s = .ok s' ∧
      Allocating s₀ index L session bandwidth 8 s' := by
  induction k generalizing n s with
  | zero =>
    obtain rfl : n = 8 := hk
    exact ⟨s, rfl, h⟩
  | succ k ih =>
    have hlt : n < 8 := by omega
    have hdrop : (List.finRange 8).drop n = ⟨n, hlt⟩ :: (List.finRange 8).drop (n + 1) := by
      rw [List.drop_eq_getElem_cons (by simpa using hlt)]
      simp
    obtain ⟨s₁, hs₁, h₁⟩ := h.allocatePriority (p := ⟨n, hlt⟩) hn
    obtain ⟨s', hs', h'⟩ := ih (n := n + 1) (by omega) h₁ (Nat.le_succ_of_le hn)
    refine ⟨s', ?_, h'⟩
    rw [hdrop, List.foldlM_cons]
    exact bind_ok_iff.mpr ⟨s₁, hs₁, hs'⟩

end Allocating

theorem linkIndex_ok {s : State} {L : IPAddress} {index : ℕ} (h : s.linkIndex L = .ok index) :
    ∃ link, s.ted[index]? = some link ∧ s.IsOwn link ∧ link.localAddr = L := by
  unfold State.linkIndex at h
  split at h
  · cases h
  · rename_i hfind
    cases h
    obtain ⟨hlt, hlink, _⟩ := List.findIdx?_eq_some_iff_getElem.mp hfind
    simp only [State.isLink, Bool.and_eq_true, beq_iff_eq] at hlink
    exact ⟨_, List.getElem?_eq_getElem hlt, hlink⟩

theorem priorities_eq : ∀ p : Fin 8, State.priorities p = (List.finRange 8).drop p := by decide

/-- The faults of the code that the bookkeeping does not exclude. -/
def Harmless (e : Fault) : Prop := e ≠ .unset ∧ e ≠ .endless

namespace Balanced

variable {s : State}

theorem antitone (h : Balanced s) {link : TELinkStateInfo} (hlink : link ∈ s.ted)
    (hown : s.IsOwn link) : Antitone link.unResvBandwidth := by
  intro p q hpq
  rw [h.booked.links link hlink hown p, h.booked.links link hlink hown q]
  have hmono := allocated_mono (L := link.localAddr) h.booked.nonneg hpq
  simp only [Pi.zero_apply]
  linarith

/-- The result of `allocateResource`. -/
structure Allocated (L : IPAddress) (session : SessionObj) (bandwidth : ℚ) (s s' : State) :
    Prop where
  booked : Booked (pending L session.holdingPri bandwidth 8) s'
  free : ∀ link ∈ s'.ted, s'.IsOwn link → ∀ p, 0 ≤ link.unResvBandwidth p
  rsbs : List.Forall₂ (Preempted L (session.setupPri < ·)) s.rsbList s'.rsbList

/-- Bandwidth is allocated, or there is not enough of it. -/
theorem allocateResource (h : Balanced s) (L : IPAddress) (session : SessionObj) (bandwidth : ℚ) :
    Outcome (s.allocateResource L session bandwidth)
      (fun x ↦ x.1 = true ∧ Allocated L session bandwidth s x.2 ∨ x.1 = false ∧ x.2 = s ∧ 0 < bandwidth)
      Harmless := by
  unfold State.allocateResource
  apply Outcome.ite
  · intro hskip
    simp only [Bool.or_eq_true, beq_iff_eq, Bool.not_eq_true', decide_eq_true_eq] at hskip
    refine .inl ⟨rfl, ⟨fun link hlink hown p ↦ ?_, h.booked.nonneg, h.booked.lengths,
      h.booked.addresses, h.booked.distinct, h.booked.ids, h.booked.bounded⟩, h.free, Preempted.refl _⟩
    have hzero : pending L session.holdingPri bandwidth 8 link.localAddr p = 0 := by
      obtain ⟨hne, hlocal⟩ := h.booked.addresses link hlink hown
      unfold pending
      split
      · rename_i hL
        rw [hL.1] at hne hlocal
        rcases hskip with (hskip | hskip) | hskip
        · exact absurd hskip hne
        · rw [hskip] at hlocal
          cases hlocal
        · exact hskip
      · rfl
    rw [hzero]
    exact h.booked.links link hlink hown p
  · intro hlocal
    cases hindex : s.linkIndex L with
    | error e =>
      unfold State.linkIndex at hindex
      split at hindex
      · cases hindex
        exact ⟨nofun, nofun⟩
      · cases hindex
    | ok index =>
      obtain ⟨link, hlink, hown, hL⟩ := linkIndex_ok hindex
      have hmem := List.mem_of_getElem? hlink
      rw [ok_bind, hlink]
      change Outcome (if link.unResvBandwidth session.setupPri < bandwidth then _ else _) _ _
      apply Outcome.ite
      · intro hlt
        exact .inr ⟨rfl, rfl, (h.free link hmem hown _).trans_lt hlt⟩
      · intro henough
        have hstart : Allocating s index L session bandwidth session.holdingPri s := by
          refine ⟨?_, fun x hx hxown p _ ↦ h.free x hx hxown p,
            ⟨link, hlink, hown, hL, fun p _ hp ↦ ?_⟩, Preempted.refl _⟩
          · have hzero : pending L session.holdingPri bandwidth session.holdingPri = 0 := by
              ext L' p
              unfold pending
              rw [if_neg (by omega)]
              rfl
            rw [hzero]
            exact h.booked
          · exact (not_lt.mp henough).trans (h.antitone hmem hown hp)
        obtain ⟨s', hs', hdone⟩ :=
          hstart.foldlM (k := 8 - session.holdingPri) (by omega) (le_refl _)
        rw [priorities_eq, hs', ok_bind]
        refine .inl ⟨rfl, hdone.booked.output _, fun x hx hxown p ↦ ?_, hdone.rsbs⟩
        exact hdone.free x hx hxown p fun _ ↦ p.isLt

end Balanced

end InetManet.RSVP
