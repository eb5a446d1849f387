import Mathlib.Data.List.Basic
import EpFormat.Diff.Unified
/-!
# CommonLines — the blocks that two lists share are shared

A block fits a window if it lies in it on both sides and its lines are the same.  What is found in a window fits, whichever
lines were passed over as too common, since a run is only prolonged by lines that are the same.  So the common blocks of two
lists follow each other on both sides, each with the same lines there (`commonBlocks_along`).
-/
namespace EpFormat.Diff

/-! ## One block -/

namespace Pair

/-- A block in a window, with the same lines on both sides. -/
structure Fits (p : Pair) (w : Window) (m : Match) : Prop where
  leftFrom : w.leftFrom ≤ m.left
  rightFrom : w.rightFrom ≤ m.right
  leftTo : m.left + m.size ≤ w.leftTo
  rightTo : m.right + m.size ≤ w.rightTo
  same : ∀ k < m.size, p.same (m.left + k) (m.right + k) = true

/-- The places of lines are places of the same line. -/
def Placed (p : Pair) : Prop := ∀ i, ∀ j ∈ (p.places[i]?).getD [], p.same i j = true

/-- A run of the same lines up to the left index `i`, which it does not reach. -/
structure RunTo (p : Pair) (w : Window) (i : Nat) (r : Nat × Nat) : Prop where
  left : r.2 ≤ i
  right : r.2 ≤ r.1 + 1
  fits : p.Fits w ⟨i - r.2, r.1 + 1 - r.2, r.2⟩

variable {p : Pair} {w : Window}

theorem Fits.empty (hl : w.leftFrom ≤ w.leftTo) (hr : w.rightFrom ≤ w.rightTo) :
    p.Fits w ⟨w.leftFrom, w.rightFrom, 0⟩ :=
  ⟨Nat.le_refl _, Nat.le_refl _, hl, hr, fun _ hk => absurd hk (Nat.not_lt_zero _)⟩

theorem Fits.snoc {m : Match} (h : p.Fits w m) (hl : m.left + m.size < w.leftTo) (hr : m.right + m.size < w.rightTo)
    (hs : p.same (m.left + m.size) (m.right + m.size) = true) : p.Fits w { m with size := m.size + 1 } := by
  refine ⟨h.leftFrom, h.rightFrom, hl, hr, fun k hk => ?_⟩
  rcases Nat.lt_succ_iff_lt_or_eq.1 hk with hk | rfl
  · exact h.same k hk
  · exact hs

theorem Fits.cons {m : Match} (h : p.Fits w m) (hl : w.leftFrom < m.left) (hr : w.rightFrom < m.right)
    (hs : p.same (m.left - 1) (m.right - 1) = true) : p.Fits w ⟨m.left - 1, m.right - 1, m.size + 1⟩ := by
  have hleft := h.leftTo
  have hright := h.rightTo
  refine ⟨Nat.le_sub_one_of_lt hl, Nat.le_sub_one_of_lt hr, by simp only; omega, by simp only; omega, fun k hk => ?_⟩
  cases k with
  | zero => exact hs
  | succ k =>
    have hsame := h.same k (Nat.lt_of_succ_lt_succ hk)
    rwa [show m.left - 1 + (k + 1) = m.left + k by omega, show m.right - 1 + (k + 1) = m.right + k by omega]

theorem runTo_of_mem_runsAt (hp : p.Placed) {i : Nat} (hi : w.leftFrom ≤ i) (hlt : i < w.leftTo) {before : List (Nat × Nat)}
    (hb : ∀ r ∈ before, p.RunTo w i r) {r : Nat × Nat} (hr : r ∈ runsAt w before ((p.places[i]?).getD [])) :
    p.RunTo w (i + 1) r := by
  obtain ⟨j, hj, rfl⟩ := List.mem_map.1 hr
  obtain ⟨hplace, hwindow⟩ := List.mem_filter.1 hj
  simp only [Bool.and_eq_true, decide_eq_true_eq] at hwindow
  have hsame := hp i j hplace
  cases hfind : before.find? (fun r => r.1 + 1 == j) with
  | none =>
    refine ⟨Nat.le_add_left 1 i, Nat.le_add_left 1 j, hi, hwindow.1, hlt, hwindow.2, fun k hk => ?_⟩
    obtain rfl : k = 0 := Nat.lt_one_iff.1 hk
    exact hsame
  | some q =>
    have hq := hb q (List.mem_of_find?_eq_some hfind)
    have hnext : q.1 + 1 = j := by simpa using List.find?_some hfind
    have hfits := hq.fits
    have hl := hq.left
    have hright := hq.right
    rw [hnext] at hfits hright
    have hsnoc := hfits.snoc (by simp only; omega) (by simp only; omega)
      (by simpa only [Nat.sub_add_cancel hl, Nat.sub_add_cancel hright] using hsame)
    refine ⟨Nat.succ_le_succ hl, Nat.succ_le_succ hright, ?_⟩
    simpa only [Option.map_some, Option.getD_some, Nat.add_sub_add_right] using hsnoc

theorem better_fits {i : Nat} : ∀ {runs : List (Nat × Nat)} {best : Match}, (∀ r ∈ runs, p.RunTo w (i + 1) r) →
    p.Fits w best → p.Fits w (better i best runs)
  | [], _, _, h => h
  | r :: runs, best, hr, h => by
    have hrest : ∀ q ∈ runs, p.RunTo w (i + 1) q := fun q hq => hr q (List.mem_cons_of_mem r hq)
    rw [better, List.foldl_cons]
    split_ifs
    · exact better_fits hrest (hr r List.mem_cons_self).fits
    · exact better_fits hrest h

theorem search_fits (hp : p.Placed) : ∀ (count i : Nat) {before : List (Nat × Nat)} {best : Match}, w.leftFrom ≤ i →
    i + count ≤ w.leftTo → (∀ r ∈ before, p.RunTo w i r) → p.Fits w best → p.Fits w (p.search w count i before best)
  | 0, _, _, _, _, _, _, h => h
  | count + 1, i, before, best, hi, hto, hb, h => by
    have hruns : ∀ r ∈ runsAt w before ((p.places[i]?).getD []), p.RunTo w (i + 1) r :=
      fun r hr => runTo_of_mem_runsAt hp hi (by omega) hb hr
    rw [search]
    exact search_fits hp count (i + 1) (Nat.le_succ_of_le hi) (by omega) hruns (better_fits hruns h)

theorem growLeft_fits : ∀ (fuel : Nat) {m : Match}, p.Fits w m → p.Fits w (p.growLeft w fuel m)
  | 0, _, h => h
  | fuel + 1, m, h => by
    rw [growLeft]
    split_ifs with hgrow
    · simp only [Bool.and_eq_true, decide_eq_true_eq] at hgrow
      exact growLeft_fits fuel (h.cons hgrow.1.1 hgrow.1.2 hgrow.2)
    · exact h

theorem growRight_fits : ∀ (fuel : Nat) {m : Match}, p.Fits w m → p.Fits w (p.growRight w fuel m)
  | 0, _, h => h
  | fuel + 1, m, h => by
    rw [growRight]
    split_ifs with hgrow
    · simp only [Bool.and_eq_true, decide_eq_true_eq] at hgrow
      exact growRight_fits fuel (h.snoc hgrow.1.1 hgrow.1.2 hgrow.2)
    · exact h

/-- **The block that is found in a window fits it.** -/
theorem longest_fits (hp : p.Placed) (hl : w.leftFrom ≤ w.leftTo) (hr : w.rightFrom ≤ w.rightTo) : p.Fits w (p.longest w) := by
  refine growRight_fits _ (growLeft_fits _ (search_fits hp _ _ (Nat.le_refl _) ?_ ?_ (.empty hl hr)))
  · exact Nat.le_of_eq (Nat.add_sub_cancel' hl)
  · exact fun r hr => by cases hr

/-! ## Blocks in order -/

/-- Blocks that follow each other in a window. -/
def Along (p : Pair) : Window → List Match → Prop
  | _, [] => True
  | w, m :: rest => p.Fits w m ∧ p.Along { w with leftFrom := m.left + m.size, rightFrom := m.right + m.size } rest

theorem Fits.append_along {m : Match} {after : List Match} : ∀ {before : List Match} {w : Window}, p.Fits w m →
    p.Along { w with leftTo := m.left, rightTo := m.right } before →
    p.Along { w with leftFrom := m.left + m.size, rightFrom := m.right + m.size } after → p.Along w (before ++ m :: after)
  | [], _, hm, _, hafter => ⟨hm, hafter⟩
  | n :: before, w, hm, ⟨hn, hbefore⟩, hafter => by
    have hleft := hm.leftTo
    have hright := hm.rightTo
    have hfits : p.Fits w n :=
      ⟨hn.leftFrom, hn.rightFrom, Nat.le_trans hn.leftTo (by simp only; omega), Nat.le_trans hn.rightTo (by simp only; omega),
        hn.same⟩
    refine ⟨hfits, append_along ⟨?_, ?_, hleft, hright, hm.same⟩ hbefore hafter⟩
    · exact hn.leftTo
    · exact hn.rightTo

theorem blocks_along (hp : p.Placed) : ∀ (fuel : Nat) (w : Window), p.Along w (p.blocks fuel w)
  | 0, _ => trivial
  | fuel + 1, w => by
    rw [blocks]
    split_ifs with hwindow
    · simp only [Bool.and_eq_true, decide_eq_true_eq] at hwindow
      by_cases hsize : (p.longest w).size = 0
      · rw [if_pos hsize]
        trivial
      · rw [if_neg hsize]
        have hfits := longest_fits hp (Nat.le_of_lt hwindow.1) (Nat.le_of_lt hwindow.2)
        exact hfits.append_along (blocks_along hp fuel _) (blocks_along hp fuel _)
    · trivial

theorem Fits.join {m n : Match} (hm : p.Fits w m)
    (hn : p.Fits { w with leftFrom := m.left + m.size, rightFrom := m.right + m.size } n) (hl : m.left + m.size = n.left)
    (hr : m.right + m.size = n.right) : p.Fits w { m with size := m.size + n.size } := by
  have hleft := hn.leftTo
  have hright := hn.rightTo
  refine ⟨hm.leftFrom, hm.rightFrom, by simp only at hleft ⊢; omega, by simp only at hright ⊢; omega, fun k hk => ?_⟩
  by_cases hfirst : k < m.size
  · exact hm.same k hfirst
  · have hsame := hn.same (k - m.size) (by simp only at hk; omega)
    rwa [← hl, ← hr, Nat.add_assoc, Nat.add_assoc, Nat.add_sub_cancel' (Nat.le_of_not_lt hfirst)] at hsame

theorem mergeTouching_along : ∀ {ms : List Match} {w : Window}, p.Along w ms → p.Along w (mergeTouching ms)
  | [], _, h => h
  | m :: rest, w, ⟨hm, hrest⟩ => by
    have hmerged := mergeTouching_along hrest
    rw [mergeTouching]
    cases hmore : mergeTouching rest with
    | nil => exact ⟨hm, trivial⟩
    | cons n more =>
      rw [hmore] at hmerged
      simp only [Bool.and_eq_true, decide_eq_true_eq]
      split_ifs with htouch
      · refine ⟨hm.join hmerged.1 htouch.1 htouch.2, ?_⟩
        simpa only [← Nat.add_assoc, htouch.1, htouch.2] using hmerged.2
      · exact ⟨hm, hmerged⟩

end Pair

/-! ## The blocks of two lists -/

/-- `n` lines that two lists share, from `i` on in one and `j` in the other. -/
def Kept (a b : List Text) (i j n : Nat) : Prop := ∀ k < n, ∃ l, a[i + k]? = some l ∧ b[j + k]? = some l

variable {a b : List Text}

theorem same_ofLists {i j : Nat} : (Pair.ofLists a b).same i j = true ↔ ∃ l, a[i]? = some l ∧ b[j]? = some l := by
  simp only [Pair.same, Pair.ofLists, List.getElem?_toArray]
  cases a[i]? with
  | none => simp
  | some x =>
    cases b[j]? with
    | none => simp
    | some y =>
      simp only [beq_iff_eq, Option.some.injEq]
      constructor
      · exact fun h => ⟨x, rfl, h.symm⟩
      · rintro ⟨l, hx, hy⟩
        exact hx.trans hy.symm

theorem placed_ofLists : (Pair.ofLists a b).Placed := by
  intro i j hj
  simp only [Pair.ofLists, List.getElem?_toArray, List.getElem?_map] at hj
  cases hi : a[i]? with
  | none =>
    rw [hi] at hj
    cases hj
  | some l =>
    rw [hi, Option.map_some, Option.getD_some, placesOf] at hj
    split_ifs at hj
    · cases hj
    · obtain ⟨q, hq, rfl⟩ := List.mem_map.1 hj
      obtain ⟨hmem, heq⟩ := List.mem_filter.1 hq
      have hget : b[q.2]? = some q.1 := List.mem_zipIdx_iff_getElem?.1 hmem
      rw [same_ofLists]
      exact ⟨l, hi, by rw [hget, beq_iff_eq.1 heq]⟩

theorem Pair.Fits.kept {w : Window} {m : Match} (h : (Pair.ofLists a b).Fits w m) : Kept a b m.left m.right m.size :=
  fun k hk => same_ofLists.1 (h.same k hk)

/-- **The common blocks of two lists follow each other on both sides, and the lists share the lines of each.** -/
theorem commonBlocks_along (a b : List Text) :
    (Pair.ofLists a b).Along ⟨0, a.length, 0, b.length⟩ (commonBlocks a b) :=
  Pair.mergeTouching_along (Pair.blocks_along placed_ofLists _ _)

end EpFormat.Diff
