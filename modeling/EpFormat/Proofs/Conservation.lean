import EpFormat.Proofs.Limit
import EpFormat.Proofs.Unwrap
/-!
# Conservation — what of a template formatting keeps

Without a tidier formatting keeps the ink of a template (`ink_format_unavailable`).  A tidier that gives back what it is
sent could be expected to do the same, but the code of expressions and blocks is unwrapped by counting braces: formatting
then keeps the ink exactly if all that code is self-contained (`ink_format_echoes_iff`).
-/
namespace EpFormat

open Perl Template

namespace Treatment

section

variable (cfg : Config) (t : Text)

theorem ink_absent_code (kind : Kind) : ink ((absent cfg).code kind t) = ink t := by
  cases kind with
  | comment => rfl
  | statement => simp only [code, absent_statement, ink_spaceIf, ink_onOneLine, ink_lines, ink_trim]
  | expression => simp only [code, absent_expression, ink_spaceIf, ink_trim]
  | rawExpression => simp only [code, absent_expression, ink_spaceIf, ink_trim]

theorem ink_absent_block : ink ((absent cfg).block t) = ink t := by rw [absent_block, ink_indentByBraces]

theorem cutting_absent : (absent cfg).Cutting where
  statement t := ink_absent_code cfg t .statement ▸ List.Sublist.refl _
  expression t := ink_absent_code cfg t .expression ▸ List.Sublist.refl _
  block t := ink_absent_block cfg t ▸ List.Sublist.refl _

/-! ## Code that a tidier gives back -/

theorem ink_echo_statement : ink ((echo cfg).statement t) = ink t := by
  have h : (echo cfg).statement t = spaceIf cfg.keywordSpacing (onOneLine (Text.lines (Text.trim t))) := rfl
  simp only [h, ink_spaceIf, ink_onOneLine, ink_lines, ink_trim]

theorem cut_echo_expression : Cut ((echo cfg).expression t) t (SelfContained t) := by
  have h : (echo cfg).expression t = spaceIf cfg.keywordSpacing
      (onOneLine ((Text.lines ((insideBraces? (wrap ' ' t)).getD (Text.trim t))).map Text.trim)) := by
    rw [← wrap_space]
    rfl
  refine (cut_unwrap isBlank_space (ink_trim t)).congr ?_ rfl Iff.rfl
  simp only [h, ink_spaceIf, ink_onOneLine, List.flatMap_map, ink_trim, ink_lines]

theorem cut_echo_block : Cut ((echo cfg).block t) t (SelfContained t) := by
  have h : (echo cfg).block t
      = ((insideBraces? (wrap '\n' t)).map dropOuterBreaks).getD (indentByBraces t cfg.indentWidth) := by
    rw [← wrap_feed]
    rfl
  refine (cut_unwrap isBlank_feed (ink_indentByBraces t cfg.indentWidth)).congr ?_ rfl Iff.rfl
  rw [h]
  cases insideBraces? (wrap '\n' t) with
  | none => rfl
  | some inner => exact ink_dropOuterBreaks inner

theorem cutting_echo : (echo cfg).Cutting where
  statement t := ink_echo_statement cfg t ▸ List.Sublist.refl _
  expression t := (cut_echo_expression cfg t).sublist
  block t := (cut_echo_block cfg t).sublist

theorem ink_echo_code_iff (kind : Kind) :
    ink ((echo cfg).code kind t) = ink t ↔ (kind = .expression ∨ kind = .rawExpression → SelfContained t) := by
  cases kind with
  | comment => simp [code]
  | statement => simp [code, ink_echo_statement]
  | expression => simpa [code] using (cut_echo_expression cfg t).same_iff
  | rawExpression => simpa [code] using (cut_echo_expression cfg t).same_iff

end

end Treatment

variable {tidier : Tidier} {cfg : Config} {source : Text}

/-- **With a tidier that gives back its input, the ink stays exactly if all wrapped code is self-contained**: the code of
every expression outside raw elements, and the code of every block of the rows as the first pass writes them.  With a
usual width formatting always has a result. -/
theorem ink_format_echoes_iff (h : tidier.Echoes cfg) (hn : cfg.normalizeDelimiters = true)
    (h₁ : Text.contains (txt "<%#") source = false) (h₂ : Text.contains (txt "<%-#") source = false) (s : Session) :
    let rows := Text.rows (Eol.unify source)
    let written := ((formatRows tidier cfg [] {} rows).run s).1
    (ink ((format tidier cfg source).run s).1 = ink source ↔
      (∀ c ∈ Place.codes {} rows, c.1 = .expression ∨ c.1 = .rawExpression → SelfContained c.2) ∧
        ∀ b ∈ finds Block.finder (Text.lines (Text.unrows written)), SelfContained b.code) ∧
      (cfg.usualWidth = true →
        ((formatWithin tidier cfg source).run s).1 = .ok ((format tidier cfg source).run s).1) := by
  intro rows written
  refine ⟨?_, fun hw => formatWithin_usual hw source s⟩
  have hwritten : written = (Treatment.echo cfg).rows cfg {} rows := rows_gives h.steady rows [] {} s
  have hcut := (cut_format (Treatment.cutting_echo cfg) hn (uncommented_of_contains h₁ h₂)).same_iff
  rw [format_gives h.steady source s, hwritten]
  refine hcut.trans (and_comm.trans (and_congr ?_ ?_))
  · exact forall₂_congr fun c _ => Treatment.ink_echo_code_iff cfg c.2 c.1
  · exact forall₂_congr fun b _ => (Treatment.cut_echo_block cfg b.code).same_iff

/-- Code with its braces in pairs is kept, in an expression and in a block. -/
theorem ink_format_echoes_pairs :
    let source := txt "<p><%= join '', map \x7b $_ \x7d @x %></p>\n<%\nif ($x) \x7b\ny();\n\x7d\n%>"
    ink ((format (Tidier.echo (some (txt "perltidy"))) {} source).run {}).1 = ink source :=
  (ink_format_echoes_iff ⟨by decide, fun _ _ => ⟨[], rfl⟩⟩ rfl (by decide +kernel) (by decide +kernel) {}).1.2
    (by decide +kernel)

/-- A closing brace in a literal ends the code of an expression. -/
theorem ink_format_echoes_literal :
    ((formatWithin (Tidier.echo (some (txt "perltidy"))) {} (txt "<%= \"\x7d\" %>")).run {}).1 = .ok (txt "<%= \" %>\n") ∧
      ink (txt "<%= \" %>\n") ≠ ink (txt "<%= \"\x7d\" %>") := by
  rw [formatWithin_usual (by decide)]
  exact ⟨congrArg Except.ok (by decide +kernel), by decide +kernel⟩

end EpFormat
