import EpFormat.Proofs.Comment
/-!
# Surround — what writing its tags leaves of a line

Tidying code may put spaces into it, but it joins nothing, so that no closing delimiter comes about within a tag.  Hence a
line as it is written has its tags where the line had them, each with its marks, and the text around them stays
(`tags_keep_marks`).
-/
namespace EpFormat

open Template Template.Tag

/-! ## Spacing within a tag -/

theorem inner_of_loosened {s t : Text} (h : Loosened s t) (hs : Inner s) : Inner t := by
  refine ⟨fun hi => hs.1 (h.isInfix (Text.forall_mem_of_all (by decide)) hi), fun hn => ?_⟩
  rcases h.mem hn with hn | hn
  · exact absurd hn (by decide)
  · exact hs.2 hn

/-- Without a tidier code stays inside its tag, with keyword spacing or without it. -/
theorem inward_spaced (cfg : Config) : (Treatment.absent cfg).Inward := by
  have hplain := @inward_absent { cfg with keywordSpacing := false } rfl
  refine ⟨fun t h => ?_, fun t h => ?_⟩
  · have hinner := hplain.statement t h
    rw [Treatment.absent_statement] at hinner ⊢
    exact inner_of_loosened (Perl.loosened_spaceIf cfg.keywordSpacing _) hinner
  · have hinner := hplain.expression t h
    rw [Treatment.absent_expression] at hinner ⊢
    exact inner_of_loosened (Perl.loosened_spaceIf cfg.keywordSpacing _) hinner

/-! ## Around the tags -/

def Template.Tag.marks (tag : Tag) : Bool × Kind × Bool := (tag.leftChomp, tag.kind, tag.rightChomp)

/-- The texts between the finds of a scan, with the one before the first and the one after the last. -/
def textsBetween : List (Piece Char Tag) → List Text
  | [] => [[]]
  | .hit _ _ :: ps => [] :: textsBetween ps
  | .item c :: ps => (textsBetween ps).modifyHead (c :: ·)

/-- The text before the tags of a line, those between each two of them, and the one after them. -/
def Template.Tag.around (line : Text) : List Text := textsBetween (scan finder line)

theorem textsBetween_map (τ : Treatment) (ps : List (Piece Char Tag)) : textsBetween (ps.map τ.piece) = textsBetween ps := by
  induction ps with
  | nil => rfl
  | cons p ps ih =>
    cases p with
    | item c => rw [List.map_cons, Treatment.piece, textsBetween, textsBetween, ih]
    | hit tag source => rw [List.map_cons, Treatment.piece, textsBetween, textsBetween, ih]

variable {tidier : Perl.Tidier} {cfg : Config} {line : Text}

/-- **Tags keep their marks and what stands around them.**  Where there is no tidier, a line without comment tags is written
with as many tags, each with the marks it had and its code between spaces, or a space and the chomp mark; the text before, between
and after them stays as it is. -/
theorem tags_keep_marks (h : tidier.Unavailable cfg) (hn : cfg.normalizeDelimiters = true) (hl : '\n' ∉ line)
    (hc : ∀ tag ∈ Tag.all line, tag.kind ≠ .comment) (s : Perl.Session) :
    let written := ((Tag.formatAll tidier cfg line).run s).1
    (Tag.all written).map Tag.marks = (Tag.all line).map Tag.marks ∧
      (Tag.all written).map Tag.body = (Tag.all line).map (fun tag =>
        ' ' :: (Treatment.absent cfg).code tag.kind tag.body ++ if tag.rightChomp then [] else [' ']) ∧
      Tag.around written = Tag.around line := by
  intro written
  have hwritten : written = (Treatment.absent cfg).line true line := by
    rw [← hn]
    exact line_gives h.steady line s
  have hall : Tag.all written = (Tag.all line).map (fun tag => { tag with
      body := ' ' :: (Treatment.absent cfg).code tag.kind tag.body ++ if tag.rightChomp then [] else [' '] }) := by
    rw [hwritten, Treatment.all_line (inward_spaced cfg) line hl]
    exact List.map_congr_left (fun tag ht => Treatment.ofInside_inside (hc tag ht))
  refine ⟨?_, ?_, ?_⟩
  · rw [hall, List.map_map]
    rfl
  · rw [hall, List.map_map]
    rfl
  · rw [hwritten, Tag.around, Treatment.scan_line (inward_spaced cfg) line hl, textsBetween_map]
    rfl

/-- Two tags side by side, with marks in their code, where keywords are spaced. -/
theorem tags_keep_marks_adjacent :
    let line := txt "<p><%-= my$x  --%><%% if($y)\x7b%>%></p>"
    let written := ((Tag.formatAll Perl.Tidier.absent { keywordSpacing := true } line).run {}).1
    written = txt "<p><%-= my $x  --%><% % if ($y) \x7b %>%></p>" ∧
      (Tag.all written).map Tag.marks = (Tag.all line).map Tag.marks ∧ Tag.around written = Tag.around line := by
  intro line written
  have hkept := @tags_keep_marks Perl.Tidier.absent { keywordSpacing := true } line
    (Or.inr (fun _ _ => rfl)) rfl (by decide) (by decide) {}
  exact ⟨by decide +kernel, hkept.1, hkept.2.2⟩

end EpFormat
