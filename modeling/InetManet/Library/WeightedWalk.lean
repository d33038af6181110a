import Mathlib.Algebra.Order.Group.Defs
import Mathlib.Data.Finset.Card
import Mathlib.Data.Set.Basic
import Mathlib.Order.Bounds.Basic
import Mathlib.Tactic.Abel
import Mathlib.Tactic.Linarith

/-!
# Walks in weighted graphs

A graph is a set of weighted edges, parallel edges and loops included. `Walk G s n v w` says that
`n` edges of total weight `w` lead from `s` to `v`. Where weights are not negative, cutting out the
part between two visits of a vertex never makes a walk heavier, so walks with fewer edges than
vertices are enough.
-/

namespace InetManet.WeightedGraph

structure Edge (V α : Type) where
  src : V
  dest : V
  weight : α

variable {V α : Type} [AddCommGroup α] [LinearOrder α] [IsOrderedAddMonoid α]

inductive Walk (G : Set (Edge V α)) (s : V) : ℕ → V → α → Prop
  | start : Walk G s 0 s 0
  | step {n : ℕ} {w : α} {e : Edge V α} : Walk G s n e.src w → e ∈ G →
      Walk G s (n + 1) e.dest (w + e.weight)

/-- A walk with the list of its vertices. -/
inductive Route (G : Set (Edge V α)) (s : V) : List V → V → α → Prop
  | start : Route G s [s] s 0
  | step {path : List V} {w : α} {e : Edge V α} : Route G s path e.src w → e ∈ G →
      Route G s (path ++ [e.dest]) e.dest (w + e.weight)

variable {G : Set (Edge V α)} {s v : V} {n : ℕ} {w : α}

theorem Walk.nonneg (h : Walk G s n v w) (hG : ∀ e ∈ G, 0 ≤ e.weight) : 0 ≤ w := by
  induction h with
  | start => exact le_refl 0
  | step _ he ih => exact add_nonneg ih (hG _ he)

omit [LinearOrder α] [IsOrderedAddMonoid α] in
theorem Walk.trans {m : ℕ} {x : V} {w' : α} (h : Walk G s n v w) (h' : Walk G v m x w') :
    Walk G s (n + m) x (w + w') := by
  induction h' with
  | start => rwa [Nat.add_zero, add_zero]
  | step _ he ih =>
    rw [← Nat.add_assoc, ← add_assoc]
    exact ih.step he

omit [LinearOrder α] [IsOrderedAddMonoid α] in
theorem Walk.single {e : Edge V α} (he : e ∈ G) : Walk G e.src 1 e.dest e.weight := by
  have h := (Walk.start (G := G) (s := e.src)).step he
  rwa [Nat.zero_add, zero_add] at h

/-- `f` goes through the vertices of a walk from `i` to `j`, with the weight so far. -/
def Visits (G : Set (Edge V α)) (f : ℕ → V × α) (i j : ℕ) : Prop :=
  ∀ k, i ≤ k → k < j → ∃ e ∈ G, e.src = (f k).1 ∧ f (k + 1) = (e.dest, (f k).2 + e.weight)

omit [LinearOrder α] [IsOrderedAddMonoid α] in
theorem Walk.visits (h : Walk G s n v w) :
    ∃ f : ℕ → V × α, f 0 = (s, 0) ∧ f n = (v, w) ∧ Visits G f 0 n := by
  induction h with
  | start => exact ⟨fun _ ↦ (s, 0), rfl, rfl, fun k _ hk ↦ absurd hk (Nat.not_lt_zero k)⟩
  | @step n w e _ he ih =>
    obtain ⟨f, hstart, hend, hvisits⟩ := ih
    refine ⟨Function.update f (n + 1) (e.dest, w + e.weight), ?_, Function.update_self .., ?_⟩
    · rw [Function.update_of_ne (Nat.zero_ne_add_one n)]
      exact hstart
    · intro k hk hkn
      rw [Function.update_of_ne (show k ≠ n + 1 by omega)]
      by_cases hlast : k = n
      · subst hlast
        rw [Function.update_self, hend]
        exact ⟨e, he, rfl, rfl⟩
      · rw [Function.update_of_ne (show k + 1 ≠ n + 1 by omega)]
        exact hvisits k hk (by omega)

omit [LinearOrder α] [IsOrderedAddMonoid α] in
/-- The part of a walk from `i` to `j` continues a walk to its first vertex. -/
theorem Visits.continue {f : ℕ → V × α} {i : ℕ} (d : ℕ) (hf : Visits G f i (i + d))
    (h : Walk G s n (f i).1 w) :
    Walk G s (n + d) (f (i + d)).1 (w + ((f (i + d)).2 - (f i).2)) := by
  induction d with
  | zero => rwa [Nat.add_zero, Nat.add_zero, sub_self, add_zero]
  | succ d ih =>
    have hwalk := ih fun k hk hkd ↦ hf k hk (by omega)
    obtain ⟨e, he, hsrc, hnext⟩ := hf (i + d) (by omega) (by omega)
    rw [← hsrc] at hwalk
    have hlonger := hwalk.step he
    rw [← Nat.add_assoc, ← Nat.add_assoc, hnext]
    have hsum : w + ((f (i + d)).2 + e.weight - (f i).2) =
        w + ((f (i + d)).2 - (f i).2) + e.weight := by abel
    change Walk G s (n + d + 1) e.dest (w + ((f (i + d)).2 + e.weight - (f i).2))
    rw [hsum]
    exact hlonger

theorem Visits.weight_le {f : ℕ → V × α} {i : ℕ} (hG : ∀ e ∈ G, 0 ≤ e.weight) (d : ℕ)
    (hf : Visits G f i (i + d)) : (f i).2 ≤ (f (i + d)).2 := by
  induction d with
  | zero => exact le_refl _
  | succ d ih =>
    have hle := ih fun k hk hkd ↦ hf k hk (by omega)
    obtain ⟨e, he, _, hnext⟩ := hf (i + d) (by omega) (by omega)
    rw [← Nat.add_assoc, hnext]
    exact hle.trans (le_add_of_nonneg_right (hG e he))

theorem Walk.shorten {S : Finset V} (hs : s ∈ S) (hS : ∀ e ∈ G, e.dest ∈ S)
    (hG : ∀ e ∈ G, 0 ≤ e.weight) (h : Walk G s n v w) :
    ∃ m < S.card, ∃ w' ≤ w, Walk G s m v w' := by
  classical
  induction n using Nat.strong_induction_on generalizing w with
  | _ n ih =>
    by_cases hn : n < S.card
    · exact ⟨n, hn, w, le_refl w, h⟩
    obtain ⟨f, hstart, hend, hvisits⟩ := h.visits
    have hmem : ∀ k ∈ Finset.range (n + 1), (f k).1 ∈ S := by
      intro k hk
      rw [Finset.mem_range] at hk
      cases k with
      | zero =>
        rw [hstart]
        exact hs
      | succ k =>
        obtain ⟨e, he, _, hnext⟩ := hvisits k (Nat.zero_le k) (by omega)
        rw [hnext]
        exact hS e he
    -- some vertex is visited twice
    have htwice : ∃ i j, i < j ∧ j ≤ n ∧ (f i).1 = (f j).1 := by
      have hcard : S.card < (Finset.range (n + 1)).card := by
        rw [Finset.card_range]
        omega
      obtain ⟨i, hi, j, hj, hne, heq⟩ := Finset.exists_ne_map_eq_of_card_lt_of_maps_to hcard hmem
      rw [Finset.mem_range] at hi hj
      rcases Nat.lt_or_gt_of_ne hne with hlt | hlt
      · exact ⟨i, j, hlt, by omega, heq⟩
      · exact ⟨j, i, hlt, by omega, heq.symm⟩
    obtain ⟨i, j, hij, hjn, hsame⟩ := htwice
    have hfirst : Walk G s (0 + i) (f (0 + i)).1 (0 + ((f (0 + i)).2 - (f 0).2)) := by
      apply Visits.continue i fun k hk hki ↦ hvisits k hk (by omega)
      rw [hstart]
      exact .start
    rw [Nat.zero_add, hsame, hstart] at hfirst
    obtain ⟨d, rfl⟩ := Nat.exists_eq_add_of_le hjn
    obtain ⟨c, rfl⟩ := Nat.exists_eq_add_of_lt hij
    have hcut := Visits.continue d (fun k hk hkd ↦ hvisits k (Nat.zero_le k) hkd) hfirst
    rw [hend] at hcut
    have hle : (f i).2 ≤ (f (i + (c + 1))).2 :=
      Visits.weight_le hG (c + 1) fun k hk hkc ↦ hvisits k (Nat.zero_le k) (by omega)
    obtain ⟨m, hm, w', hw', hwalk⟩ := ih (i + d) (by omega) hcut
    refine ⟨m, hm, w', hw'.trans ?_, hwalk⟩
    rw [← Nat.add_assoc] at hle
    rw [zero_add, sub_zero]
    calc (f i).2 + (w - (f (i + c + 1)).2)
        ≤ (f (i + c + 1)).2 + (w - (f (i + c + 1)).2) := by gcongr
      _ = w := add_sub_cancel _ _

end InetManet.WeightedGraph
