import EpFormat.Format
import EpFormat.Proofs.Shift
/-!
# CommentShift — what comments do to the depth of Perl

The move of depth at a line is read from braces and from the word `begin`, and the mark of a comment is not looked at.  So
a line that is nothing but a comment moves the depth by what stands in the comment (`shift_comment`), and leaves it alone
exactly if that happens to be even (`comment_still_iff`).
-/
namespace EpFormat

open Template Template.Tag

/-! ## Lines that are comments -/

/-- The line is a comment and nothing else, with this text in it: a directive that is a comment, or one comment tag with
white space around it. -/
inductive Template.CommentLine (line text : Text) : Prop
  | directive (pad : Text) (blank : allBlank pad = true) (eq : line = pad ++ '%' :: '#' :: text)
  | tag (tag : Tag) (kind : tag.kind = .comment) (body : tag.body = text) (eq : Text.trim line = tag.source)
      (single : Tag.all line = [tag])

variable {line text : Text}

theorem hasBegin_comment {a b : Text} (ha : ∀ c ∈ a, isWord c = false) (hb : ∀ c ∈ b, isWord c = false) (text : Text) :
    hasBegin (a ++ text ++ b) = hasBegin text := by
  rw [hasBegin_eq, hasBegin_eq, words_append_right hb, words_append_left ha]

theorem shift_comment_directive (hn : '\n' ∉ line) {pad : Text} (hpad : allBlank pad = true)
    (heq : line = pad ++ '%' :: '#' :: text) : Shift.ofLine line = ⟨0, braceBalance text + once (hasBegin text)⟩ := by
  have hleft : Text.trimLeft line = '%' :: '#' :: text := by
    rw [heq, Text.trimLeft_append_of_blank hpad]
    rfl
  have hmarks : ∀ c ∈ pad ++ ['%', '#'], isWord c = false :=
    List.forall_mem_append.2 ⟨isWord_of_allBlank hpad, Text.forall_mem_of_all (by decide)⟩
  have hbegin : hasBegin line = hasBegin text := by
    have hwords := hasBegin_comment hmarks (List.forall_mem_nil _) text
    rwa [List.append_nil, List.append_assoc, List.cons_append, List.cons_append, List.nil_append, ← heq] at hwords
  have hend : isEndDirective line = false := by
    rw [isEndDirective, show line.dropWhile isBlank = _ from hleft]
    rfl
  have hbraces : leadingBraces line = 0 := by
    rw [leadingBraces, show line.dropWhile isBlank = _ from hleft]
    rfl
  have htag : insideTag? line = none := by
    rw [insideTag?, show line.dropWhile isBlank = _ from hleft]
    rfl
  rw [Shift.ofLine, Directive.read?_percent hleft hn, hend, hbraces, isEndTag, isBraceTag, htag, hbegin]
  rfl

/-- What is read of a comment tag past its mark is neither an end nor a brace. -/
theorem isTagOf_comment {read : Text → Option Text} (hread : Lead read) {tag : Tag} (hk : tag.kind = .comment) :
    isTagOf read tag.source = false := by
  obtain ⟨rest, hrest⟩ : ∃ rest, insideTag? tag.source = some ('#' :: rest) := by
    rw [source, hk]
    cases tag.leftChomp <;> exact ⟨_, rfl⟩
  rw [isTagOf, hrest]
  simp only [hread.mark (Or.inr rfl)]

theorem isStatementLine_comment {tag : Tag} (hk : tag.kind = .comment) (ht : Text.trim tag.source = tag.source) :
    isStatementLine tag.source = true := by
  have hclose : Text.endsWith ['%', '>'] tag.source = true :=
    Text.endsWith_iff.2 ⟨'<' :: '%' :: tag.inside, (source_eq tag).symm⟩
  rw [isStatementLine, ht, hclose, source, hk]
  cases tag.leftChomp <;> rfl

theorem hasBegin_source (tag : Tag) : hasBegin tag.source = hasBegin tag.body := by
  have hbefore : ∀ c ∈ '<' :: '%' :: (chomp tag.leftChomp ++ tag.kind.mark), isWord c = false := by
    simpa [show isWord '<' = false from rfl, show isWord '%' = false from rfl] using isWord_marks tag.leftChomp tag.kind
  have hafter : ∀ c ∈ chomp tag.rightChomp ++ ['%', '>'], isWord c = false :=
    List.forall_mem_append.2 ⟨isWord_chomp _, Text.forall_mem_of_all (by decide)⟩
  rw [← hasBegin_comment hbefore hafter tag.body, source]
  simp only [List.cons_append, List.append_assoc]

theorem shift_comment_tag (hn : '\n' ∉ line) {tag : Tag} (hk : tag.kind = .comment) (heq : Text.trim line = tag.source)
    (hall : Tag.all line = [tag]) : Shift.ofLine line = ⟨0, braceBalance tag.body + once (hasBegin tag.body)⟩ := by
  have ht : Text.trim tag.source = tag.source := by rw [← heq, Text.trim_idem]
  have hne : ∀ r, Text.trimLeft tag.source ≠ '%' :: r := by
    intro r hr
    rw [source, Text.trimLeft_cons_of_not_blank (by decide)] at hr
    cases hr
  rw [← all_trim, heq] at hall
  rw [← shift_trim hn, heq, Shift.ofLine, isEndTag_eq, isBraceTag_eq, isTagOf_comment lead_end hk, isTagOf_comment lead_braces hk,
    isEndDirective_of_ne hne, leadingBraces_of_ne hne, Directive.read?_of_ne hne, hall, hasBegin_source]
  simp [isStatementLine_comment hk ht, once]

/-- **A comment moves the depth by what stands in it**: by its braces, and by one for the word `begin`. -/
theorem shift_comment (hn : '\n' ∉ line) (h : CommentLine line text) :
    Shift.ofLine line = ⟨0, braceBalance text + once (hasBegin text)⟩ := by
  cases h with
  | directive pad blank eq => exact shift_comment_directive hn blank eq
  | tag tag kind body eq single => exact body ▸ shift_comment_tag hn kind eq single

/-- The depth of Perl after a row that takes nothing back before it. -/
theorem Place.perl_walk {place : Place} (hraw : place.raw = none) {row : Text} {after : Int}
    (h : Shift.ofLine row = ⟨0, after⟩) : (place.walk row).2.perl = (place.perl + after).toNat := by
  simp [Place.walk, hraw, Place.step, h]

/-- **A line that is nothing but a comment leaves the depth of Perl alone exactly if the comment has as many closing braces
as opening ones**, the word `begin` counted as one more that opens.  Whatever it is, it steps back nowhere, and the lines after
it are moved by the difference. -/
theorem comment_still_iff (hn : '\n' ∉ line) (h : CommentLine line text) :
    Shift.ofLine line = ⟨0, braceBalance text + once (hasBegin text)⟩ ∧
      (Shift.ofLine line = ⟨0, 0⟩ ↔ text.count '\x7b' + once (hasBegin text) = text.count '\x7d') ∧
      ((∀ place : Place, place.raw = none → (place.walk line).2.perl = place.perl) ↔ Shift.ofLine line = ⟨0, 0⟩) := by
  have hshift := shift_comment hn h
  refine ⟨hshift, ?_, fun hstay => ?_, fun hstill place hraw => ?_⟩
  · rw [hshift, Shift.mk.injEq, braceBalance]
    omega
  · -- From a depth as large as the move the clamp at zero is not felt.
    rw [hshift, Shift.mk.injEq]
    generalize braceBalance text + once (hasBegin text) = move at hshift ⊢
    have hfar := hstay { perl := move.natAbs } rfl
    rw [Place.perl_walk rfl hshift] at hfar
    simp only at hfar
    omega
  · rw [Place.perl_walk hraw hstill]
    omega

/-- Commented code with both its braces in it, in a tag with chomp marks and white space around it. -/
theorem comment_still_iff_tag :
    let line := txt "\t<%-# if ($x) \x7b beginning() \x7d -%> "
    CommentLine line (txt " if ($x) \x7b beginning() \x7d ") ∧ Shift.ofLine line = ⟨0, 0⟩ := by
  intro line
  have hline : CommentLine line (txt " if ($x) \x7b beginning() \x7d ") :=
    .tag ⟨true, .comment, txt " if ($x) \x7b beginning() \x7d ", true⟩ rfl rfl (by decide +kernel) (by decide +kernel)
  exact ⟨hline, (comment_still_iff (by decide +kernel) hline).2.1.2 (by decide +kernel)⟩

/-- Code that opens a block, commented out as a directive or in a tag, moves the lines after it. -/
theorem comment_opens_block :
    (CommentLine (txt "%# if (x) \x7b") (txt " if (x) \x7b") ∧ Shift.ofLine (txt "%# if (x) \x7b") = ⟨0, 1⟩) ∧
      CommentLine (txt "<%# if ($x) \x7b %>") (txt " if ($x) \x7b ") ∧ Shift.ofLine (txt "<%# if ($x) \x7b %>") = ⟨0, 1⟩ :=
  ⟨⟨.directive [] rfl rfl, by decide +kernel⟩,
    .tag ⟨false, .comment, txt " if ($x) \x7b ", false⟩ rfl rfl (by decide +kernel) (by decide +kernel), by decide +kernel⟩

end EpFormat
