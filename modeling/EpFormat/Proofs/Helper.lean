import EpFormat.Proofs.RawElement
/-!
# Helper — the indentation of blocks between `begin` and `end`

A helper is given a block of rows, from a row that ends in `begin` to a row with `end`.  The row with `end` takes one level
of Perl away, and the row with `begin` adds one if it is a directive or a tag with a statement.  A tag with an expression
adds none.  So the outline of a template with such blocks is balanced exactly if every block that an expression tag opens
is in no other block and has nothing but blank rows in it (`helpers_balanced_iff`).
-/
namespace EpFormat

open Perl Template Template.Tag

/-! ## Rows that open and close the block of a helper -/

/-- The kind of a row: it prints what the helper gives, or not. -/
def callKind (printed : Bool) : Kind := if printed then .expression else .statement

/-- The code of a row that opens a block, past the mark of its kind. -/
def beginCode (helper : Text) : Text := ' ' :: (helper ++ txt " begin")

/-- A row that opens a block, as a tag or as a directive, without white space around it. -/
def beginText (isTag printed : Bool) (helper : Text) : Text :=
  if isTag then '<' :: '%' :: ((callKind printed).mark ++ beginCode helper ++ txt " %>")
  else '%' :: ((callKind printed).mark ++ beginCode helper)

/-- A call of a helper: letters, digits and spaces, among which the word `end` does not stand. -/
structure IsCall (helper : Text) : Prop where
  chars : ∀ c ∈ helper, isWord c = true ∨ c = ' '
  no_end : txt "end" ∉ words helper

/-- A row that opens the block of a helper. -/
def IsBegin (row : Text) : Prop :=
  row.Unbroken ∧ ∃ isTag printed helper, IsCall helper ∧ Text.trim row = beginText isTag printed helper

/-- A row that closes the block of a helper. -/
def IsEnd (row : Text) : Prop := row.Unbroken ∧ (Text.trim row = txt "% end" ∨ Text.trim row = txt "<% end %>")

/-- Whether a row begins with an expression tag. -/
def opensPrinted (row : Text) : Bool := Text.startsWith (txt "<%=") (Text.trim row)

namespace Outline

/-- The outline of a template whose blocks are those of helpers. -/
def Helpers : Outline → Prop
  | nil => True
  | line row rest => IsText row ∧ rest.Helpers
  | block head inner close rest => IsBegin head ∧ inner.Helpers ∧ IsEnd close ∧ rest.Helpers

/-- Every block that an expression tag opens is in no other block and has nothing but blank rows in it; the outline itself
is in `depth` blocks. -/
def PrintsApart : Outline → Nat → Prop
  | nil, _ => True
  | line _ rest, depth => rest.PrintsApart depth
  | block head inner _ rest, depth =>
    (opensPrinted head = true → depth = 0 ∧ ∀ row ∈ inner.rows, allBlank row = true) ∧ inner.PrintsApart (depth + 1) ∧
      rest.PrintsApart depth

instance decidablePrintsApart : ∀ (t : Outline) (depth : Nat), Decidable (t.PrintsApart depth)
  | nil, _ => isTrue trivial
  | line _ rest, depth => decidablePrintsApart rest depth
  | block _ inner _ rest, depth =>
    have := decidablePrintsApart inner (depth + 1)
    have := decidablePrintsApart rest depth
    inferInstanceAs (Decidable ((_ → _) ∧ _ ∧ _))

end Outline

/-! ## The move of depth at these rows -/

section

variable {helper : Text}

theorem words_beginCode (helper : Text) : words (beginCode helper) = words helper ++ [txt "begin"] := by
  rw [beginCode, words_cons (by decide), show txt " begin" = ' ' :: txt "begin" from rfl, words_append_cons (by decide)]
  exact congrArg (words helper ++ ·) (by decide)

theorem IsCall.no_end_code (h : IsCall helper) : txt "end" ∉ words (beginCode helper) := by
  rw [words_beginCode, List.mem_append, not_or]
  exact ⟨h.no_end, by decide⟩

theorem IsCall.not_mem_code (h : IsCall helper) {c : Char} (hw : isWord c = false) (hs : c ≠ ' ') :
    c ∉ beginCode helper := by
  have hbegin : c ∉ txt " begin" := fun hc => by
    rcases List.mem_cons.1 hc with rfl | hc
    · exact hs rfl
    · have hword : ∀ d ∈ txt "begin", isWord d = true := Text.forall_mem_of_all (by decide)
      rw [hword c hc] at hw
      cases hw
  rw [beginCode, List.mem_cons, List.mem_append, not_or, not_or]
  refine ⟨hs, fun hc => ?_, hbegin⟩
  rcases h.chars c hc with hc | hc
  · rw [hw] at hc
    cases hc
  · exact hs hc

theorem IsCall.balance (h : IsCall helper) : braceBalance (beginCode helper) = 0 := by
  rw [braceBalance, List.count_eq_zero.2 (h.not_mem_code (by decide) (by decide)),
    List.count_eq_zero.2 (h.not_mem_code (by decide) (by decide))]
  rfl

/-- A directive that opens a block goes one level in. -/
theorem shift_begin_directive (h : IsCall helper) (printed : Bool) :
    Shift.ofLine (beginText false printed helper) = ⟨0, 1⟩ := by
  set body := (callKind printed).mark ++ beginCode helper with hbody
  change Shift.ofLine ('%' :: body) = ⟨0, 1⟩
  have hwords : words body = words (beginCode helper) := words_append_left (isWord_marks false (callKind printed)) _
  have hlead : Text.trimLeft ('%' :: body) = '%' :: body := Text.trimLeft_cons_of_not_blank (by decide) body
  have hfeed : '\n' ∉ '%' :: body := by
    have hcode := h.not_mem_code (c := '\n') (by decide) (by decide)
    cases printed <;> simpa [hbody, callKind, Kind.mark] using hcode
  have hread : Directive.read? ('%' :: body) = some ⟨[], callKind printed, beginCode helper⟩ := by
    rw [Directive.read?_percent hlead hfeed, hbody, beginCode, Kind.read_mark_space]
    rfl
  have hbegin : hasBegin ('%' :: body) = true := by
    rw [hasBegin_eq, words_cons (by decide), hwords, words_beginCode]
    simp
  have hend : isEndDirective ('%' :: body) = false := isEndDirective_of_words (hwords ▸ h.no_end_code)
  have hbraces : leadingBraces ('%' :: body) = 0 := by
    have hcode := h.not_mem_code (c := '\x7d') (by decide) (by decide)
    refine leadingBraces_of_not_mem ?_
    cases printed <;> simpa [hbody, callKind, Kind.mark] using hcode
  have htag : insideTag? ('%' :: body) = none := insideTag?_of_ne (fun r hr => by rw [hlead] at hr; cases hr)
  rw [Shift.ofLine, hread, hend, hbraces, isEndTag, isBraceTag, htag]
  simp [hbegin, h.balance, once]

/-- What stands between the delimiters of a tag that opens a block. -/
def beginInside (printed : Bool) (helper : Text) : Text := (callKind printed).mark ++ (beginCode helper ++ [' '])

theorem beginText_tag (printed : Bool) (helper : Text) :
    beginText true printed helper = '<' :: '%' :: (beginInside printed helper ++ ['%', '>']) := by
  simp [beginText, beginInside, txt]

theorem IsCall.inner (h : IsCall helper) (printed : Bool) : Inner (beginInside printed helper) := by
  have hpercent := h.not_mem_code (c := '%') (by decide) (by decide)
  have hfeed := h.not_mem_code (c := '\n') (by decide) (by decide)
  refine ⟨fun hi => ?_, ?_⟩
  · have hm := hi.subset (show '%' ∈ ['%', '>'] by simp)
    cases printed <;> simp [beginInside, callKind, Kind.mark, hpercent] at hm
  · cases printed <;> simp [beginInside, callKind, Kind.mark, hfeed]

theorem ofInside_begin (printed : Bool) (helper : Text) :
    ofInside (beginInside printed helper) = ⟨false, callKind printed, beginCode helper ++ [' '], false⟩ := by
  have hlast : (beginCode helper ++ [' ']).getLast? ≠ some '-' := by simp
  have hread : Kind.read (beginInside printed helper) = (callKind printed, beginCode helper ++ [' ']) :=
    Kind.read_mark_space _ _
  have hchomp : readChomp (beginInside printed helper) = (false, beginInside printed helper) := by cases printed <;> rfl
  rw [ofInside, hchomp]
  simp only [hread, splitChomp_of_ne hlast]

theorem words_begin_body (helper : Text) : words (beginCode helper ++ [' ']) = words helper ++ [txt "begin"] := by
  rw [words_append_right (Text.forall_mem_of_all (by decide)), words_beginCode]

/-- A tag that opens a block holds neither `end` alone nor braces alone. -/
theorem IsCall.not_alone (h : IsCall helper) (printed : Bool) :
    isEndTag (beginText true printed helper) = false ∧ isBraceTag (beginText true printed helper) = false := by
  have hword : txt "end" ∉ words (Text.trimLeft (beginCode helper ++ [' '])) := by
    rw [words_trimLeft, words_append_right (Text.forall_mem_of_all (by decide))]
    exact h.no_end_code
  have hend : (Text.after? (txt "end") (Text.trimLeft (beginCode helper ++ [' ']))).any allBlank = false := by
    cases hafter : Text.after? (txt "end") (Text.trimLeft (beginCode helper ++ [' '])) with
    | none => rfl
    | some rest =>
      cases hblank : allBlank rest with
      | false => exact hblank
      | true =>
        have hstart : startsWord rest = false := by
          cases rest with
          | nil => rfl
          | cons c rest => exact isWord_of_allBlank hblank c List.mem_cons_self
        exact absurd (mem_words_of_after? (by decide) (Text.forall_mem_of_all (by decide)) hafter hstart) hword
  have hbrace : readBraces (Text.trimLeft (beginCode helper ++ [' '])) = none := by
    unfold readBraces
    split
    · rename_i rest hrest
      have hm : '\x7d' ∈ beginCode helper ++ [' '] := by
        refine (List.dropWhile_suffix isBlank).subset ?_
        rw [show (beginCode helper ++ [' ']).dropWhile isBlank = _ from hrest]
        exact List.mem_cons_self
      simp [h.not_mem_code (c := '\x7d') (by decide) (by decide)] at hm
    · rfl
  rw [isEndTag_eq, isBraceTag_eq, beginText_tag, isTagOf_tag lead_end (h.inner printed),
    isTagOf_tag lead_braces (h.inner printed), ofInside_begin, hend, hbrace]
  simp

/-- A tag that opens a block goes one level in, unless it prints. -/
theorem shift_begin_tag (h : IsCall helper) (printed : Bool)
    (ht : Text.trim (beginText true printed helper) = beginText true printed helper) :
    Shift.ofLine (beginText true printed helper) = ⟨0, once (!printed)⟩ := by
  obtain ⟨hend, hbrace⟩ := h.not_alone printed
  have hdirective : ∀ r, Text.trimLeft (beginText true printed helper) ≠ '%' :: r := fun r hr => by
    rw [Text.trimLeft_of_trimmed ht] at hr
    cases hr
  have hstatement : isStatementLine (beginText true printed helper) = !printed := by
    have hclose : Text.endsWith ['%', '>'] (beginText true printed helper) = true := by
      rw [Text.endsWith_iff, beginText_tag]
      exact ⟨'<' :: '%' :: beginInside printed helper, rfl⟩
    rw [isStatementLine, ht, hclose]
    cases printed <;> rfl
  have hbegin : hasBegin (beginText true printed helper) = true := by
    have hwords : words (beginInside printed helper) = words helper ++ [txt "begin"] :=
      (words_append_left (isWord_marks false (callKind printed)) _).trans (words_begin_body helper)
    rw [hasBegin_eq, beginText_tag, words_cons (by decide), words_cons (by decide),
      words_append_right (Text.forall_mem_of_all (by decide)), hwords]
    simp
  have hbalance : (Tag.all (beginText true printed helper)).map (fun tag => braceBalance tag.body) = [0] := by
    rw [beginText_tag, all_tag (h.inner printed), ofInside_begin]
    have hbody : braceBalance (beginCode helper ++ [' ']) = 0 := by rw [← h.balance]; simp [braceBalance]
    simp [hbody]
  rw [Shift.ofLine, hend, hbrace, isEndDirective_of_ne hdirective, leadingBraces_of_ne hdirective,
    Directive.read?_of_ne hdirective, hstatement, hbegin, hbalance]
  cases printed <;> rfl

theorem rowNesting_begin (h : IsCall helper) (isTag printed : Bool) :
    rowNesting (beginText isTag printed helper) = ⟨0, 0, none, none⟩ := by
  cases isTag with
  | false =>
    have hangle := h.not_mem_code (c := '<') (by decide) (by decide)
    refine rowNesting_of_no_angle ?_
    cases printed <;> simp [beginText, callKind, Kind.mark, hangle]
  | true =>
    have hblank := allBlank_replicate (ofInside (beginInside printed helper)).source.length
    have hnil : Respaced (List.replicate (ofInside (beginInside printed helper)).source.length ' ') [] := by
      rw [Respaced, Text.trimLeft_eq_nil_iff.2 hblank]
      exact Aligned.refl _
    rw [rowNesting, beginText_tag, blankOut_tag (h.inner printed), blankOut_nil, List.append_nil, hnil.nesting_eq]
    rfl

end

section

variable {row : Text}

theorem Place.walk_begin (h : IsBegin row) (m p : Nat) :
    (⟨m, p, none⟩ : Place).walk row = (some (m + p), ⟨m, p + once (!opensPrinted row), none⟩) := by
  obtain ⟨hu, isTag, printed, helper, hcall, htrim⟩ := h
  have hopens : opensPrinted row = (isTag && printed) := by
    rw [opensPrinted, htrim]
    cases isTag <;> cases printed <;> rfl
  have hshift : Shift.ofLine (beginText isTag printed helper) = ⟨0, once (!(isTag && printed))⟩ := by
    cases isTag with
    | false => exact shift_begin_directive hcall printed
    | true => exact shift_begin_tag hcall printed (htrim ▸ Text.trim_idem row)
  have hnesting : Markup.Nesting.ofLine (blankOut (beginText isTag printed helper)) = ⟨0, 0, none, none⟩ :=
    rowNesting_begin hcall isTag printed
  rw [← Place.walk_trim _ hu.feed_not_mem, htrim, hopens]
  simp [Place.walk, Place.step, hshift, hnesting]
  omega

theorem Place.walk_end (h : IsEnd row) (m p : Nat) :
    (⟨m, p, none⟩ : Place).walk row = (some (m + (p - 1)), ⟨m, p - 1, none⟩) := by
  have hmoves : Shift.ofLine (Text.trim row) = ⟨1, 0⟩ ∧
      Markup.Nesting.ofLine (blankOut (Text.trim row)) = ⟨0, 0, none, none⟩ := by
    rcases h.2 with h | h <;> rw [h] <;> exact ⟨by decide, by decide⟩
  rw [← Place.walk_trim _ h.1.feed_not_mem]
  simp [Place.walk, Place.step, hmoves.1, hmoves.2]

/-- The letter that the words `begin` and `end` have in common. -/
theorem IsBegin.letter_mem (h : IsBegin row) : 'n' ∈ row := by
  obtain ⟨-, isTag, printed, helper, -, htrim⟩ := h
  refine (Text.trim_isInfix row).subset ?_
  rw [htrim]
  cases isTag <;> simp [beginText, beginCode, txt]

theorem IsEnd.letter_mem (h : IsEnd row) : 'n' ∈ row := by
  refine (Text.trim_isInfix row).subset ?_
  rcases h.2 with h | h <;> rw [h] <;> decide

end

/-! ## Letters as they are written -/

namespace Treatment

variable {cfg : Config} {row : Text} {c : Char}

theorem mem_of_ink_eq {s t : Text} (h : ink s = ink t) (hb : isBlank c = false) (hc : c ∈ t) : c ∈ s := by
  have hink := mem_ink_iff.2 ⟨hc, hb⟩
  rw [← h] at hink
  exact (mem_ink_iff.1 hink).1

theorem mem_tag (normalize : Bool) (tag : Tag) (hb : isBlank c = false) (h : c ∈ tag.body) :
    c ∈ (absent cfg).tag normalize tag :=
  List.mem_append_left _ (List.mem_append_right _ (mem_of_ink_eq (ink_absent_code cfg tag.body tag.kind) hb h))

theorem mem_directive (normalize : Bool) (d : Directive) (hb : isBlank c = false) (h : c ∈ d.body) :
    c ∈ (absent cfg).directive normalize d := by
  obtain ⟨indent, kind, body⟩ := d
  have hspace : ∀ {t : Text}, c ∈ t → c ∈ Directive.afterSpace t := fun {t} ht => by
    rw [Directive.afterSpace, if_neg (by simpa using List.ne_nil_of_mem ht)]
    exact List.mem_cons_of_mem ' ' ht
  have hcode : ∀ k : Kind, c ∈ (absent cfg).code k body := fun k => mem_of_ink_eq (ink_absent_code cfg body k) hb h
  cases kind with
  | comment =>
    refine List.mem_cons_of_mem _ (List.mem_cons_of_mem _ ?_)
    split
    · exact hspace (mem_of_ink_eq (ink_trim body) hb h)
    · exact h
  | statement => exact List.mem_cons_of_mem _ (hspace (hcode .statement))
  | expression => exact List.mem_cons_of_mem _ (List.mem_append_right _ (hspace (hcode .expression)))
  | rawExpression => exact List.mem_cons_of_mem _ (List.mem_append_right _ (hspace (hcode .rawExpression)))

theorem not_mem_of_isWord {m : Text} (hw : isWord c = true) (hm : ∀ d ∈ m, isWord d = false) : c ∉ m := by
  intro hc
  rw [hm c hc] at hw
  cases hw

theorem ne_of_isWord {d : Char} (hw : isWord c = true) (hd : isWord d = false) : c ≠ d := by
  rintro rfl
  rw [hd] at hw
  cases hw

theorem mem_line_of_isWord (hw : isWord c = true) (normalize : Bool) (h : c ∈ row) :
    c ∈ (absent cfg).line normalize row := by
  induction row using tag_induct with
  | nil => cases h
  | tag u post hu ih =>
    rw [line_hit _ hu]
    simp only [List.mem_cons, List.mem_append] at h
    rcases h with h | h | h | h | h | h
    · exact absurd h (ne_of_isWord hw (by decide))
    · exact absurd h (ne_of_isWord hw (by decide))
    · refine List.mem_append_left _ (mem_tag normalize _ (isBlank_of_isWord hw) ?_)
      rw [← inside_ofInside u, Tag.inside, List.mem_append, List.mem_append] at h
      rcases h with (h | h) | h
      · exact absurd h (not_mem_of_isWord hw (isWord_marks _ _))
      · exact h
      · exact absurd h (not_mem_of_isWord hw (isWord_chomp _))
    · exact absurd h (ne_of_isWord hw (by decide))
    · exact absurd h (ne_of_isWord hw (by decide))
    · exact List.mem_append_right _ (ih h)
  | char d rest hd ih =>
    rw [line_char _ hd]
    exact List.mem_cons.2 ((List.mem_cons.1 h).imp id ih)

/-- **A letter of a row is written**, whether it stands in code, in a comment or in text. -/
theorem mem_content_of_isWord (hw : isWord c = true) (hn : '\n' ∉ row) (h : c ∈ row) (normalize : Bool) :
    c ∈ (absent cfg).content normalize row := by
  by_cases hp : ∃ r, Text.trimLeft row = '%' :: r
  · obtain ⟨r, hr⟩ := hp
    rw [content, Directive.read?_percent hr hn]
    refine mem_directive normalize _ (isBlank_of_isWord hw) ?_
    obtain ⟨a, ha, hrow⟩ := Text.exists_trimLeft row
    rw [hrow, hr, ← Kind.mark_read r, List.mem_append, List.mem_cons, List.mem_append] at h
    rcases h with h | h | h | h
    · exact absurd h (not_mem_of_isWord hw (isWord_of_allBlank ha))
    · exact absurd h (ne_of_isWord hw (by decide))
    · exact absurd h (not_mem_of_isWord hw (isWord_marks false _))
    · exact h
  · rw [content, Directive.read?_of_ne (fun r hr => hp ⟨r, hr⟩)]
    exact mem_line_of_isWord hw normalize h

theorem allBlank_content_of_letter (hn : '\n' ∉ row) (h : 'n' ∈ row) (normalize : Bool) :
    allBlank ((absent cfg).content normalize row) = false :=
  allBlank_of_mem_ink (mem_ink_iff.2 ⟨mem_content_of_isWord (by decide) hn h normalize, by decide⟩)

/-- A row with a letter is written on a line that opens no block. -/
theorem opening_of_letter (h : 'n' ∈ row) (place : Place) : Opening.read? ((absent cfg).row cfg place row) = none := by
  refine Option.eq_none_iff_forall_ne_some.2 (fun o ho => ?_)
  have hink : 'n' ∈ ink (Text.trim row) := by
    rw [ink_trim]
    exact mem_ink_iff.2 ⟨h, by decide⟩
  rw [trim_of_opening_row ho] at hink
  revert hink
  cases o.left <;> decide

end Treatment

/-! ## Levels -/

namespace Outline

theorem Helpers.printsApart_of_blank : ∀ {t : Outline}, t.Helpers → (∀ row ∈ t.rows, allBlank row = true) →
    ∀ depth, t.PrintsApart depth
  | nil, _, _, _ => trivial
  | line row rest, h, hblank, depth =>
    printsApart_of_blank (t := rest) h.2 (fun r hr => hblank r (List.mem_cons_of_mem row hr)) depth
  | block head inner close rest, h, hblank, _ => by
    have hhead := allBlank_iff.1 (hblank head List.mem_cons_self) 'n' h.1.letter_mem
    cases hhead

/-- A block that comes out balanced is entered one level deeper than its closing row leaves it. -/
theorem PrintsApart.inside {head close : Text} {inner rest : Outline} {p : Nat} (hinner : inner.Helpers)
    (h : (block head inner close rest).PrintsApart p) :
    inner.PrintsApart (p + once (!opensPrinted head)) ∧ p + once (!opensPrinted head) - 1 = p := by
  obtain ⟨hprinted, hdeeper, -⟩ := h
  cases hp : opensPrinted head with
  | false => exact ⟨hdeeper, rfl⟩
  | true =>
    obtain ⟨hzero, hblank⟩ := hprinted hp
    exact ⟨hinner.printsApart_of_blank hblank _, by subst hzero; rfl⟩

theorem PrintsApart.through_rows : ∀ {t : Outline}, t.Helpers → ∀ {p : Nat}, t.PrintsApart p →
    (⟨0, p, none⟩ : Place).through t.rows = ⟨0, p, none⟩
  | nil, _, _, _ => rfl
  | line row rest, h, p, hp => by
    rw [rows, Place.through_cons, Place.walk_text h.1]
    exact through_rows (t := rest) h.2 hp
  | block head inner close rest, h, p, hp => by
    obtain ⟨hdeeper, hback⟩ := hp.inside h.2.1
    rw [rows, Place.through_cons, Place.walk_begin h.1, Place.through_append, through_rows h.2.1 hdeeper,
      Place.through_cons, Place.walk_end h.2.2.1, hback]
    exact through_rows h.2.2.2 hp.2.2

end Outline

section

variable {cfg : Config} (hw : 0 < cfg.indentWidth)

include hw

namespace Treatment

theorem begin_at {row : Text} (h : IsBegin row) (p l : Nat) :
    (allBlank ((absent cfg).row cfg ⟨0, p, none⟩ row) = true ∨
      Text.margin ((absent cfg).row cfg ⟨0, p, none⟩ row) = cfg.indentation l) ↔ p = l :=
  row_at hw (by rw [Place.walk_begin h, Nat.zero_add]) (allBlank_content_of_letter h.1.feed_not_mem h.letter_mem _) l

theorem end_at {row : Text} (h : IsEnd row) (p l : Nat) :
    (allBlank ((absent cfg).row cfg ⟨0, p, none⟩ row) = true ∨
      Text.margin ((absent cfg).row cfg ⟨0, p, none⟩ row) = cfg.indentation l) ↔ p - 1 = l :=
  row_at hw (by rw [Place.walk_end h, Nat.zero_add]) (allBlank_content_of_letter h.1.feed_not_mem h.letter_mem _) l

/-- The rows directly in an outline stand where it begins, so at another level only if none of them can be seen. -/
theorem direct_at_iff : ∀ {t : Outline}, t.Helpers → ∀ {p : Nat}, t.PrintsApart p → ∀ l : Nat,
    (∀ row ∈ ((absent cfg).outline cfg ⟨0, p, none⟩ t).direct,
      allBlank row = true ∨ Text.margin row = cfg.indentation l) ↔ p = l ∨ ∀ row ∈ t.rows, allBlank row = true
  | .nil, _, _, _, _ => by simp [outline, Outline.direct, Outline.rows]
  | .line row rest, h, p, hp, l => by
    rw [outline, Place.walk_text h.1, Outline.direct, List.forall_mem_cons, text_at hw h.1, direct_at_iff h.2 hp l,
      Outline.rows, List.forall_mem_cons]
    tauto
  | .block head inner close rest, h, p, hp, l => by
    obtain ⟨hdeeper, hback⟩ := hp.inside h.2.1
    have hhead : allBlank head ≠ true := fun hb => absurd (allBlank_iff.1 hb 'n' h.1.letter_mem) (by decide)
    rw [outline, Place.walk_begin h.1]
    simp only [hdeeper.through_rows h.2.1, Place.walk_end h.2.2.1, hback, Outline.direct, List.forall_mem_cons,
      begin_at hw h.1, end_at hw h.2.2.1, direct_at_iff h.2.2.2 hp.2.2 l, Outline.rows, hhead]
    tauto

/-- **The blocks of helpers are balanced exactly if those that an expression tag opens stand apart.** -/
theorem balanced_iff_printsApart : ∀ {t : Outline}, t.Helpers → ∀ (p : Nat),
    ((absent cfg).outline cfg ⟨0, p, none⟩ t).Balanced cfg.indentWidth ↔ t.PrintsApart p
  | .nil, _, _ => Iff.rfl
  | .line row rest, h, p => by
    rw [outline, Place.walk_text h.1]
    exact balanced_iff_printsApart h.2 p
  | .block head inner close rest, h, p => by
    obtain ⟨hhead, hinner, hclose, hrest⟩ := h
    have hmargin : Text.margin ((absent cfg).row cfg ⟨0, p, none⟩ head) = cfg.indentation p :=
      (margin_row (by rw [Place.walk_begin hhead, Nat.zero_add])
        (allBlank_content_of_letter hhead.1.feed_not_mem hhead.letter_mem _)).1
    rw [outline, Place.walk_begin hhead]
    simp only [Outline.Balanced, hmargin, ← Config.indentation_succ hw]
    constructor
    · rintro ⟨⟨hlast, hdirect⟩, hdeeper, hmore⟩
      have happart := (balanced_iff_printsApart hinner _).1 hdeeper
      rw [happart.through_rows hinner] at hlast hmore
      have hback := (end_at hw hclose _ p).1 (Or.inr hlast)
      rw [Place.walk_end hclose, hback] at hmore
      -- Either the rows inside stand one level deeper, or none of them can be seen.
      have hseen := (direct_at_iff hw hinner happart (p + 1)).1 hdirect
      refine ⟨fun hprinted => ?_, ?_, (balanced_iff_printsApart hrest p).1 hmore⟩
      · rw [hprinted] at hback hseen
        exact ⟨by simp [once] at hback; omega, hseen.resolve_left (by simp [once])⟩
      · rcases hseen with hdepth | hblank
        · rwa [hdepth] at happart
        · exact hinner.printsApart_of_blank hblank (p + 1)
    · intro hp
      obtain ⟨hdeeper, hback⟩ := hp.inside hinner
      have hlast : Text.margin ((absent cfg).row cfg ⟨0, p + once (!opensPrinted head), none⟩ close) = cfg.indentation p :=
        (margin_row (by rw [Place.walk_end hclose, Nat.zero_add, hback])
          (allBlank_content_of_letter hclose.1.feed_not_mem hclose.letter_mem _)).1
      rw [hdeeper.through_rows hinner, Place.walk_end hclose, hback]
      refine ⟨⟨hlast, (direct_at_iff hw hinner hdeeper (p + 1)).2 ?_⟩, (balanced_iff_printsApart hinner _).2 hdeeper,
        (balanced_iff_printsApart hrest p).2 hp.2.2⟩
      cases hprinted : opensPrinted head with
      | false => exact Or.inl rfl
      | true => exact Or.inr (hp.1 hprinted).2

end Treatment

end

/-! ## Rows on lines of their own -/

/-- A row of a template with blocks of helpers. -/
def IsHelperRow (row : Text) : Prop := IsText row ∨ IsBegin row ∨ IsEnd row

theorem Outline.Helpers.isHelperRow : ∀ {t : Outline}, t.Helpers → ∀ row ∈ t.rows, IsHelperRow row
  | nil, _, _, hm => by cases hm
  | line row rest, h, r, hm => by
    rcases List.mem_cons.1 hm with rfl | hm
    · exact Or.inl h.1
    · exact h.2.isHelperRow r hm
  | block head inner close rest, h, r, hm => by
    simp only [Outline.rows, List.mem_cons, List.mem_append] at hm
    rcases hm with rfl | hm | rfl | hm
    · exact Or.inr (Or.inl h.1)
    · exact h.2.1.isHelperRow r hm
    · exact Or.inr (Or.inr h.2.2.1)
    · exact h.2.2.2.isHelperRow r hm

namespace Treatment

variable {cfg : Config} {row : Text}

theorem helperRow_on_line (h : IsHelperRow row) {place : Place} (hr : place.raw = none) :
    (place.walk row).2.raw = none ∧
      ((absent cfg).row cfg place row).Unbroken ∧ Opening.read? ((absent cfg).row cfg place row) = none := by
  obtain ⟨m, p, raw⟩ := place
  subst hr
  rcases h with h | h | h
  · exact ⟨by rw [Place.walk_text h], row_on_line (Or.inl h) _⟩
  · exact ⟨by rw [Place.walk_begin h], unbroken_row _ h.1, opening_of_letter h.letter_mem _⟩
  · exact ⟨by rw [Place.walk_end h], unbroken_row _ h.1, opening_of_letter h.letter_mem _⟩

end Treatment

/-! ## Balance -/

variable {tidier : Tidier} {cfg : Config} {source : Text} {t : Outline}

/-- **The blocks of helpers in a template are balanced, as it is written without a tidier, exactly if every block that an
expression tag opens is in no other block and has nothing but blank rows in it.**  So they are balanced wherever blocks
are opened by directives and by tags with a statement, in any nesting.  Within the widths of lines the text is the result,
unless something is too wide; with a usual width nothing is. -/
theorem helpers_balanced_iff (h : tidier.Unavailable cfg) (hw : 0 < cfg.indentWidth) (ht : t.Helpers)
    (hrows : Text.rows (Eol.unify source) = t.rows) (s : Session) :
    let out := ((format tidier cfg source).run s).1
    ((t.fill (Text.rows (Eol.unify out))).1.Balanced cfg.indentWidth ↔ t.PrintsApart 0) ∧
      ((formatWithin tidier cfg source).run s).1 = WidthError.unless out (tooWide? noReply cfg source) ∧
      (cfg.usualWidth = true → tooWide? noReply cfg source = none) := by
  intro out
  have hwritten : Gives (formatRows tidier cfg [] {} (Text.rows (Eol.unify source)))
      ((Treatment.absent cfg).rows cfg {} t.rows) := by
    rw [hrows]
    exact rows_gives h.steady t.rows [] {}
  have hlines : ∀ r ∈ (Treatment.absent cfg).rows cfg {} t.rows, r.Unbroken ∧ Opening.read? r = none :=
    Treatment.forall_rows (fun row hrow _ hr => Treatment.helperRow_on_line (ht.isHelperRow row hrow) hr) rfl
  have hout : out = finish cfg source (Text.unrows ((Treatment.absent cfg).rows cfg {} t.rows)) :=
    (gives_of_not_opening hwritten (fun r hr => (hlines r hr).1) (fun r hr => (hlines r hr).2)).1 s
  have hne : (Treatment.absent cfg).rows cfg {} t.rows ≠ [] :=
    Treatment.rows_ne_nil (hrows ▸ Text.rows_ne_nil (Eol.unify source)) {}
  obtain ⟨more, hmore⟩ := rows_finish cfg source hne (fun r hr => (hlines r hr).1)
  refine ⟨?_, ?_, fun hu => if_pos hu⟩
  · rw [hout, hmore, Treatment.fill_rows]
    exact Treatment.balanced_iff_printsApart hw ht 0
  · rw [formatWithin_gives h.steady source s, ← format_gives h.steady source s]

/-- Blocks in all their forms, of which the one that an expression tag opens has a blank row in it. -/
theorem helpers_balanced_nested :
    let t : Outline := .block (txt "%= form begin") (.line (txt "x") (.block (txt " <% row begin %>")
      (.block (txt "% cell begin") (.line (txt "y") .nil) (txt "<% end %>") (.line (txt "z") .nil)) (txt "% end") .nil))
      (txt "% end") (.block (txt "<%= note begin %>") (.line [] .nil) (txt "<% end %>") (.line [] .nil))
    let source := txt ("%= form begin\nx\n <% row begin %>\n% cell begin\ny\n<% end %>\nz\n% end\n% end\n" ++
      "<%= note begin %>\n\n<% end %>\n")
    (t.fill (Text.rows (Eol.unify ((format Tidier.absent { indentWidth := 3 } source).run {}).1))).1.Balanced 3 := by
  intro t source
  have hcall : ∀ helper ∈ [txt "form", txt "row", txt "cell", txt "note"], IsCall helper := fun helper hm => by
    simp only [List.mem_cons, List.not_mem_nil, or_false] at hm
    rcases hm with rfl | rfl | rfl | rfl <;> exact ⟨Text.forall_mem_of_all (by decide), by decide⟩
  have hend : IsEnd (txt "% end") ∧ IsEnd (txt "<% end %>") := ⟨⟨by decide, by decide⟩, by decide, by decide⟩
  have hhelpers : t.Helpers :=
    ⟨⟨by decide, false, true, txt "form", hcall _ (by simp), by decide⟩,
      ⟨⟨by decide, by decide, by decide⟩,
        ⟨by decide, true, false, txt "row", hcall _ (by simp), by decide⟩,
        ⟨⟨by decide, false, false, txt "cell", hcall _ (by simp), by decide⟩, ⟨⟨by decide, by decide, by decide⟩, trivial⟩,
          hend.2, ⟨by decide, by decide, by decide⟩, trivial⟩, hend.1, trivial⟩, hend.1,
      ⟨by decide, true, true, txt "note", hcall _ (by simp), by decide⟩, ⟨⟨by decide, by decide, by decide⟩, trivial⟩,
      hend.2, ⟨by decide, by decide, by decide⟩, trivial⟩
  exact (@helpers_balanced_iff Tidier.absent _ source t (Or.inr (fun _ _ => rfl)) (by decide) hhelpers
    (by decide +kernel) {}).1.2 (by decide +kernel)

/-- A row in a block that an expression tag opens comes out where the tag stands. -/
theorem row_in_printed_block_misplaced :
    let t : Outline := .block (txt "<%= h begin %>") (.line (txt "x") .nil) (txt "<% end %>") (.line [] .nil)
    let source := txt "<%= h begin %>\nx\n<% end %>\n"
    t.Helpers ∧ Text.rows (Eol.unify source) = t.rows ∧
      ((formatWithin Tidier.absent {} source).run {}).1 = .ok source ∧
      ¬ (t.fill (Text.rows (Eol.unify source))).1.Balanced 2 := by
  intro t source
  have hhead : IsBegin (txt "<%= h begin %>") :=
    ⟨by decide, true, true, txt "h", ⟨Text.forall_mem_of_all (by decide), by decide⟩, by decide⟩
  have hhelpers : t.Helpers :=
    ⟨hhead, ⟨⟨by decide, by decide, by decide⟩, trivial⟩, ⟨by decide, by decide⟩, ⟨by decide, by decide, by decide⟩, trivial⟩
  rw [formatWithin_usual (by decide)]
  exact ⟨hhelpers, by decide +kernel, congrArg Except.ok (by decide +kernel), by decide +kernel⟩

end EpFormat
