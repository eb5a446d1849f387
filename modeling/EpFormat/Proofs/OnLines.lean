import EpFormat.Proofs.Idempotence
import EpFormat.Proofs.Inline
import EpFormat.Proofs.Marks
import EpFormat.Proofs.Outline
/-!
# OnLines — rows and blocks on lines of their own

The second pass cuts the written rows into lines at every line break, and not only at line feeds.  So rows without line
breaks are the lines that the second pass sees, and the lines that it writes are the rows of the result (`rows_format`).
-/
namespace EpFormat

open Template Template.Tag Perl

/-- Rows up to one that is not empty are lines of the text that they make up. -/
theorem Text.lines_unrows_split {a b : List Text} {m : Text} (hu : ∀ r ∈ a ++ m :: b, r.Unbroken) (hm : m ≠ []) :
    ∃ more, Text.lines (Text.unrows (a ++ m :: b)) = a ++ m :: more ∧ ∀ l ∈ more, l ∈ b := by
  rcases List.eq_nil_or_concat b with rfl | ⟨ks, k, rfl⟩
  · refine ⟨[], ?_, by simp⟩
    rw [Text.lines_unrows (hu m (by simp)) (fun r hr => hu r (by simp [hr])), if_neg (by simpa using hm)]
  · rw [List.concat_eq_append] at hu ⊢
    refine ⟨ks ++ (if k.isEmpty then [] else [k]), ?_, fun l hl => ?_⟩
    rotate_left
    · rw [List.mem_append] at hl ⊢
      refine hl.imp id (fun hl => ?_)
      split at hl
      · cases hl
      · exact hl
    have hrows : a ++ m :: (ks ++ [k]) = (a ++ m :: ks) ++ [k] := by simp
    rw [hrows] at hu ⊢
    rw [Text.lines_unrows (hu k (by simp)) (fun r hr => hu r (List.mem_append_left _ hr))]
    simp

namespace Treatment

variable {τ : Treatment} {cfg : Config}

/-- **The lines that the second pass writes are rows of the result.** -/
theorem rows_format (hb : τ.Lays cfg) {source : Text} (hne : Text.lines (τ.laid cfg source) ≠ [])
    (hu : ∀ l ∈ Text.lines (τ.laid cfg source), l.Unbroken) :
    ∃ more, Text.rows (Eol.unify (τ.format cfg source)) = τ.blocks (Text.lines (τ.laid cfg source)) ++ more := by
  have hblocks := τ.blocks_ne_nil hne
  have hunbroken := unbroken_blocks hb hu
  rw [format, blockText]
  split
  · rw [← Text.unrows_feed hblocks]
    obtain ⟨more, hmore⟩ := @rows_finish cfg source (τ.blocks (Text.lines (τ.laid cfg source)) ++ [[]])
      (by simp) (List.forall_mem_append.2 ⟨hunbroken, by simp [Text.Unbroken]⟩)
    exact ⟨[[]] ++ more, by rw [hmore, List.append_assoc]⟩
  · rw [List.append_nil]
    exact rows_finish cfg source hblocks hunbroken

end Treatment
end EpFormat
