import EpFormat.Proofs.Conservation
/-!
# Marks — the marks of tags where delimiters are not normalised

The choice to normalise delimiters is meant to be one of white space.  But where they are not normalised, a tag is
written without its left chomp mark and without the mark of its kind, as a comment always is.  So the two choices give
the same ink exactly if no other tag has such marks (`ink_format_unspaced_iff`).
-/
namespace EpFormat

open Perl Template Template.Tag

/-- The rows outside raw elements, from a place on. -/
def Place.outside : Place → List Text → List Text
  | _, [] => []
  | place, row :: rest => (if place.raw.isSome then [] else [row]) ++ outside (place.walk row).2 rest

/-- A comment, or a tag without marks on its left. -/
def Template.Tag.Bare (tag : Tag) : Prop := tag.kind = .comment ∨ tag.leftChomp = false ∧ tag.kind = .statement

theorem Cut.lost {m : Text} (hm : ∀ c ∈ m, isBlank c = false) : Cut [] m (m = []) := by
  have hink : ink m = m := List.filter_eq_self.2 (fun c hc => by rw [hm c hc]; rfl)
  refine ⟨List.nil_sublist _, ?_⟩
  rw [hink]
  exact eq_comm

namespace Treatment

variable {τ : Treatment}

theorem tag_unspaced (tag : Tag) :
    τ.tag false tag = ['<', '%'] ++ (τ.code tag.kind tag.body ++ (chomp tag.rightChomp ++ ['%', '>'])) := by
  simp [Treatment.tag, delimit]

theorem ink_inside {tag : Tag} (h : tag.kind ≠ .comment) : ink (τ.inside tag)
    = ink (chomp tag.leftChomp ++ tag.kind.mark) ++ (ink (τ.code tag.kind tag.body) ++ ink (chomp tag.rightChomp)) := by
  rw [τ.inside_of_ne_comment h]
  cases tag.rightChomp <;> simp [chomp]

theorem marks_eq_nil_iff {tag : Tag} (h : tag.kind ≠ .comment) :
    chomp tag.leftChomp ++ tag.kind.mark = [] ↔ tag.Bare := by
  obtain ⟨left, kind, _, _⟩ := tag
  cases left <;> cases kind <;> simp_all [Tag.Bare, chomp, Kind.mark]

theorem cut_tag (tag : Tag) : Cut (τ.tag false tag) (τ.tag true tag) tag.Bare := by
  by_cases hk : tag.kind = .comment
  · have hsame : τ.tag false tag = τ.tag true tag := by
      rw [Treatment.tag, Treatment.tag, hk]
      rfl
    exact (Cut.of_ink (congrArg ink hsame)).congr rfl rfl (by simp [Tag.Bare, hk])
  · have hmarks : ∀ c ∈ chomp tag.leftChomp ++ tag.kind.mark, isBlank c = false := by
      cases tag.leftChomp <;> cases tag.kind <;> exact Text.forall_mem_of_all (by decide)
    have h := (Cut.of_ink (Eq.refl (ink ['<', '%']))).append ((Cut.lost hmarks).append
      (Cut.of_ink (Eq.refl (ink (τ.code tag.kind tag.body ++ (chomp tag.rightChomp ++ ['%', '>']))))))
    refine h.congr ?_ ?_ ?_
    · rw [tag_unspaced, List.nil_append]
    · have hopen : ∀ t : Text, ink ('<' :: '%' :: t) = ink ['<', '%'] ++ ink t := fun t => ink_append ['<', '%'] t
      rw [tag_normal, hopen, ink_append, ink_inside hk]
      simp only [ink_append, List.append_assoc]
    · rw [true_and, and_true, marks_eq_nil_iff hk]

/-- **A line loses the marks of its tags.** -/
theorem cut_line_unspaced (row : Text) : Cut (τ.line false row) (τ.line true row) (∀ tag ∈ Tag.all row, tag.Bare) := by
  induction row using tag_induct with
  | nil => exact (Cut.of_ink rfl).congr rfl rfl (by simp)
  | tag u post hu ih =>
    rw [line_hit _ hu, line_hit _ hu, all_tag hu]
    exact ((cut_tag (ofInside u)).append ih).congr rfl rfl (by rw [List.forall_mem_cons])
  | char c rest hc ih =>
    rw [τ.line_char hc, τ.line_char hc, all_char hc]
    exact ((Cut.of_ink (Eq.refl (ink [c]))).append ih).congr rfl rfl (by simp)

theorem cut_content_unspaced (row : Text) : Cut (τ.content false row) (τ.content true row)
    (Directive.read? row = none → ∀ tag ∈ Tag.all row, tag.Bare) := by
  unfold Treatment.content
  cases Directive.read? row with
  | some d => exact (Cut.of_ink (by rw [ink_directive, ink_directive])).congr rfl rfl (by simp)
  | none => exact (cut_line_unspaced row).congr rfl rfl (by simp)

variable {cfg cfg' : Config} (hn : cfg.normalizeDelimiters = true) (hn' : cfg'.normalizeDelimiters = false)

include hn hn'

theorem cut_row_unspaced (place : Place) (row : Text) : Cut (τ.row cfg' place row) (τ.row cfg place row)
    (∀ r ∈ (if place.raw.isSome then [] else [row]), Directive.read? r = none → ∀ tag ∈ Tag.all r, tag.Bare) := by
  cases hraw : place.raw with
  | some name =>
    have hink : ∀ c : Config, ink (τ.row c place row) = ink row := fun c => by
      unfold Treatment.row
      split
      · rfl
      · simp [hraw, Config.indentation]
    exact (Cut.of_ink (Eq.refl (ink row))).congr (hink cfg') (hink cfg) (by simp)
  | none =>
    have hlevel : (place.walk row).1 = some (place.step row).1 := by simp [Place.walk, hraw]
    refine (cut_content_unspaced (τ := τ) row).congr ?_ ?_ (by simp)
    · simp [Treatment.row, hraw, hlevel, hn', Config.indentation]
    · simp [Treatment.row, hraw, hlevel, hn, Config.indentation]

theorem cut_rows_unspaced : ∀ (rows : List Text) (place : Place),
    Cut (τ.rows cfg' place rows).flatten (τ.rows cfg place rows).flatten
      (∀ row ∈ place.outside rows, Directive.read? row = none → ∀ tag ∈ Tag.all row, tag.Bare)
  | [], _ => (Cut.of_ink rfl).congr rfl rfl (by simp [Place.outside])
  | row :: rest, place => by
    have h := (cut_row_unspaced (τ := τ) hn hn' place row).append (cut_rows_unspaced rest (place.walk row).2)
    exact h.congr rfl rfl (by rw [Place.outside, List.forall_mem_append])

end Treatment

variable {tidier : Tidier} {cfg : Config} {source : Text}

/-- The second pass keeps the ink of the first. -/
theorem ink_absent_format (cfg : Config) (source : Text) : ink ((Treatment.absent cfg).format cfg source)
    = ink ((Treatment.absent cfg).rows cfg {} (Text.rows (Eol.unify source))).flatten := by
  have hblocks := cut_blocks (Treatment.cutting_absent cfg) (Text.lines ((Treatment.absent cfg).laid cfg source))
  rw [ink_format, hblocks.same_iff.2 (fun b _ => Treatment.ink_absent_block cfg b.code), ink_laid]

/-- **Without a tidier, the choice to normalise delimiters is one of white space exactly if no tag has marks to lose**: if
every tag of a line outside raw elements is a comment, or has no chomp mark on its left and no mark of a kind.  Within
the widths of lines both texts are the results, unless something is too wide; with a usual width nothing is. -/
theorem ink_format_unspaced_iff (h : tidier.Unavailable cfg) (s s' : Session) :
    let spaced := { cfg with normalizeDelimiters := true }
    let unspaced := { cfg with normalizeDelimiters := false }
    (ink ((format tidier unspaced source).run s').1 = ink ((format tidier spaced source).run s).1 ↔
      ∀ row ∈ Place.outside {} (Text.rows (Eol.unify source)), Directive.read? row = none →
        ∀ tag ∈ Tag.all row, tag.kind = .comment ∨ tag.leftChomp = false ∧ tag.kind = .statement) ∧
      ((formatWithin tidier spaced source).run s).1
        = WidthError.unless ((format tidier spaced source).run s).1 (tooWide? noReply spaced source) ∧
      ((formatWithin tidier unspaced source).run s').1
        = WidthError.unless ((format tidier unspaced source).run s').1 (tooWide? noReply unspaced source) ∧
      (cfg.usualWidth = true → tooWide? noReply spaced source = none ∧ tooWide? noReply unspaced source = none) := by
  intro spaced unspaced
  have hs : Steady tidier spaced noReply := Tidier.Unavailable.steady h
  have hu : Steady tidier unspaced noReply := Tidier.Unavailable.steady h
  have hcut := @Treatment.cut_rows_unspaced (Treatment.absent cfg) spaced unspaced rfl rfl
    (Text.rows (Eol.unify source)) {}
  refine ⟨?_, ?_, ?_, fun hw => ⟨if_pos hw, if_pos hw⟩⟩
  · rw [format_gives hs source s, format_gives hu source s']
    refine Iff.trans ?_ hcut.same_iff
    rw [show ink ((Treatment.ofReply noReply spaced).format spaced source) = _ from ink_absent_format spaced source,
      show ink ((Treatment.ofReply noReply unspaced).format unspaced source) = _ from ink_absent_format unspaced source]
    exact Iff.rfl
  · rw [formatWithin_gives hs source s, format_gives hs source s]
  · rw [formatWithin_gives hu source s', format_gives hu source s']

/-- Statements, a comment and a directive lose nothing more where delimiters are not normalised. -/
theorem ink_format_unspaced_statements :
    let source := txt "<ul>\n%= title 'x'\n<% for (1..3) \x7b %><li></li><%\x7d -%>\n<%-# done %>\n</ul>"
    ink ((format Tidier.absent { normalizeDelimiters := false } source).run {}).1
      = ink ((format Tidier.absent { normalizeDelimiters := true } source).run {}).1 :=
  (@ink_format_unspaced_iff Tidier.absent {} _ (Or.inr (fun _ _ => rfl)) {} {}).1.2 (by decide +kernel)

/-- An expression becomes a statement where delimiters are not normalised. -/
theorem expression_loses_mark :
    ((formatWithin Tidier.absent { normalizeDelimiters := false } (txt "<%=$x%>")).run {}).1 = .ok (txt "<%$x%>\n") ∧
      ((formatWithin Tidier.absent {} (txt "<%=$x%>")).run {}).1 = .ok (txt "<%= $x %>\n") ∧
      ink (txt "<%$x%>\n") ≠ ink (txt "<%= $x %>\n") := by
  rw [formatWithin_usual (by decide), formatWithin_usual (by decide)]
  exact ⟨congrArg Except.ok (by decide +kernel), congrArg Except.ok (by decide +kernel), by decide +kernel⟩

end EpFormat
