import Mathlib
import EpFormat.Measure.Round
/-!
# Plateau — what the walk over the rounds of a search keeps

After any rounds the walk holds their least result and the number of rounds since that first came (`Holds`).  One round
keeps this (`Holds.step`), so it holds after all of them.  A search therefore stops for want of gain exactly if more rounds
have passed than its patience and none of the last ones went below the least of the earlier ones (`reached_iff`).
-/
namespace EpFormat.Measure

namespace Plateau

/-- The least result of some rounds, and the rounds since it first came. -/
structure Holds (rounds : List Nat) (p : Plateau) : Prop where
  mem : p.best ∈ rounds
  le : ∀ r ∈ rounds, p.best ≤ r
  since : p.since + rounds.idxOf p.best + 1 = rounds.length

theorem holds_first (r : Nat) : Holds [r] ⟨r, 0⟩ where
  mem := List.mem_singleton_self r
  le _ h := Nat.le_of_eq (List.mem_singleton.1 h).symm
  since := by simp

variable {rounds : List Nat} {p : Plateau}

/-- A result below the best one has not come before; any other leaves the best one where it first came. -/
theorem Holds.step (h : Holds rounds p) (r : Nat) : Holds (rounds ++ [r]) (p.step r) := by
  unfold Plateau.step
  split
  · rename_i hr
    have hnew : r ∉ rounds := fun hm => absurd (h.le r hm) (Nat.not_le_of_lt hr)
    refine ⟨by simp, ?_, by simp [List.idxOf_append_of_notMem hnew]⟩
    intro x hx
    rcases List.mem_append.1 hx with hx | hx
    · exact (Nat.le_of_lt hr).trans (h.le x hx)
    · exact Nat.le_of_eq (List.mem_singleton.1 hx).symm
  · rename_i hr
    refine ⟨List.mem_append_left _ h.mem, ?_, ?_⟩
    · intro x hx
      rcases List.mem_append.1 hx with hx | hx
      · exact h.le x hx
      · exact (List.mem_singleton.1 hx).symm ▸ Nat.le_of_not_lt hr
    · change p.since + 1 + (rounds ++ [r]).idxOf p.best + 1 = (rounds ++ [r]).length
      rw [List.idxOf_append_of_mem h.mem, List.length_append, List.length_singleton, ← h.since]
      omega

theorem Holds.foldl (h : Holds rounds p) (more : List Nat) : Holds (rounds ++ more) (more.foldl Plateau.step p) := by
  induction more generalizing rounds p with
  | nil => rwa [List.append_nil]
  | cons r more ih =>
    rw [List.foldl_cons, List.append_cons]
    exact ih (h.step r)

theorem holds_ofRounds (h : rounds ≠ []) : ∃ p, ofRounds rounds = some p ∧ Holds rounds p := by
  obtain ⟨first, rest, rfl⟩ := List.exists_cons_of_ne_nil h
  exact ⟨_, rfl, (holds_first first).foldl rest⟩

/-- The last `n` rounds are without gain if the best result came before them. -/
theorem Holds.le_since_iff (h : Holds rounds p) (n : Nat) : n ≤ p.since ↔ p.best ∈ rounds.take (rounds.length - n) := by
  have hsince := h.since
  rw [List.mem_take_iff_idxOf_lt h.mem]
  omega

/-- The best result is among the first rounds if none of the later ones is below the least of them. -/
theorem Holds.best_mem_take_iff (h : Holds rounds p) (k : Nat) :
    p.best ∈ rounds.take k ↔ ∃ m ∈ (rounds.take k).min?, ∀ r ∈ rounds.drop k, ¬ r < m := by
  constructor
  · intro hmem
    have hle : ∀ r ∈ rounds.take k, p.best ≤ r := fun r hr => h.le r (List.mem_of_mem_take hr)
    refine ⟨p.best, List.min?_eq_some_iff.2 ⟨hmem, hle⟩, fun r hr => ?_⟩
    exact Nat.not_lt_of_le (h.le r (List.mem_of_mem_drop hr))
  · rintro ⟨m, hm, hlater⟩
    obtain ⟨hmem, -⟩ := List.min?_eq_some_iff.1 hm
    have hbest : p.best ∈ rounds.take k ++ rounds.drop k := by
      rw [List.take_append_drop]
      exact h.mem
    rcases List.mem_append.1 hbest with hb | hb
    · exact hb
    · -- a later round reached the best result, and `m` is no larger
      have heq : p.best = m := Nat.le_antisymm (h.le m (List.mem_of_mem_take hmem)) (Nat.le_of_not_lt (hlater _ hb))
      exact heq ▸ hmem

theorem reached_iff_le_since (hp : ofRounds rounds = some p) : reached rounds = true ↔ patience ≤ p.since := by
  rw [reached, hp]
  exact decide_eq_true_iff

/-- **A search has stopped getting better** exactly if it has earlier rounds than the last few, and none of the last few
went below the least of the earlier ones. -/
theorem reached_iff (rounds : List Nat) : reached rounds = true ↔
    ∃ m ∈ (rounds.take (rounds.length - patience)).min?, ∀ r ∈ rounds.drop (rounds.length - patience), ¬ r < m := by
  by_cases hne : rounds = []
  · subst hne
    simp [reached, ofRounds]
  · obtain ⟨p, hp, hholds⟩ := holds_ofRounds hne
    rw [reached_iff_le_since hp, hholds.le_since_iff, hholds.best_mem_take_iff]

end Plateau

/-- **When a round with marked shares says to stop**: exactly if there are results before the last three, and none of the
last three is below the least of them. -/
theorem stopText_ne_nil_iff {earlier : List Json} {f : Found} {n : Nat} (hgate : ¬ f.coverage < gate)
    (hresult : f.result? = some n) (hn : n ≠ 0) :
    let rounds := earlierResults earlier ++ [n]
    stopText earlier f ≠ [] ↔ ∃ m ∈ (rounds.take (rounds.length - 3)).min?, ∀ r ∈ rounds.drop (rounds.length - 3), ¬ r < m := by
  intro rounds
  have hstop : stopText earlier f ≠ [] ↔ Plateau.reached rounds = true := by
    unfold stopText
    rw [if_neg hgate, hresult]
    split
    · rename_i heq
      cases heq
    · rename_i heq
      exact absurd (Option.some.inj heq) hn
    · rename_i heq
      obtain rfl := Option.some.inj heq
      split
      · rename_i hreached
        exact iff_of_true (by decide) hreached
      · rename_i hreached
        exact iff_of_false (fun h => h rfl) hreached
  exact hstop.trans (Plateau.reached_iff rounds)

end EpFormat.Measure
