import EpFormat.Proofs.Comment
import EpFormat.Proofs.LineShift
/-!
# Settle — rows that formatting leaves as they are

Where spaces and tabs are the only white space, code that has been written is written the same again (`Settles`).  So a
row, as it is written at some place, is written the same again at that place, and moves the place as it did
(`row_again`).
-/
namespace EpFormat

open Template Template.Tag

/-! ## Spaces and tabs as the only white space -/

/-- The text has no white space but spaces and tabs. -/
def Plain (t : Text) : Prop := ∀ c ∈ t, isBlank c = true → isPad c = true

theorem isPad_of_isLineBreak {c : Char} (h : isLineBreak c = true) : isPad c = false := by
  cases hp : isPad c with
  | false => rfl
  | true =>
    simp only [isPad, Bool.or_eq_true, decide_eq_true_eq] at hp
    rcases hp with rfl | rfl <;> exact absurd h (by decide)

namespace Plain

variable {s t : Text}

theorem of_subset (h : Plain t) (hs : ∀ c ∈ s, c ∈ t) : Plain s := fun c hc => h c (hs c hc)

theorem of_isInfix (h : Plain t) (hs : s <:+: t) : Plain s := h.of_subset (fun _ hc => hs.subset hc)

theorem append (hs : Plain s) (ht : Plain t) : Plain (s ++ t) := fun c hc => (List.mem_append.1 hc).elim (hs c) (ht c)

theorem of_pad (h : ∀ c ∈ t, isPad c = true) : Plain t := fun c hc _ => h c hc

theorem of_ink (h : ∀ c ∈ t, isBlank c = false) : Plain t := fun c hc hb => by rw [h c hc] at hb; cases hb

theorem cons {c : Char} (hc : isBlank c = true → isPad c = true) (h : Plain t) : Plain (c :: t) := by
  intro d hd
  rcases List.mem_cons.1 hd with rfl | hd
  · exact hc
  · exact h d hd

theorem unbroken (h : Plain t) : ∀ c ∈ t, isLineBreak c = false := by
  intro c hc
  cases hb : isLineBreak c with
  | false => rfl
  | true =>
    have hp := h c hc (isBlank_of_isLineBreak hb)
    rw [isPad_of_isLineBreak hb] at hp
    cases hp

theorem feed_not_mem (h : Plain t) : '\n' ∉ t := fun hm => absurd (h.unbroken _ hm) (by decide)

theorem dropWhile_isPad (h : Plain t) : t.dropWhile isPad = Text.trimLeft t := by
  induction t with
  | nil => rfl
  | cons c t ih =>
    have hc : isPad c = isBlank c := Bool.eq_iff_iff.2 ⟨isBlank_of_isPad, h c List.mem_cons_self⟩
    rw [Text.trimLeft, List.dropWhile_cons, List.dropWhile_cons, hc,
      ih (h.of_subset (fun d hd => List.mem_cons_of_mem c hd))]
    rfl

theorem dropTrailingPad (h : Plain t) : Text.dropTrailingPad t = Text.trimRight t := by
  rw [Text.dropTrailingPad, Text.dropEndWhile, dropWhile_isPad (h.of_subset (fun c hc => List.mem_reverse.1 hc))]
  rfl

end Plain

theorem plain_marks (left : Bool) (kind : Kind) : Plain (chomp left ++ kind.mark) := by
  cases left <;> cases kind <;> exact .of_ink (Text.forall_mem_of_all (by decide))

theorem plain_chomp (right : Bool) : Plain (chomp right) := by
  cases right <;> exact .of_ink (Text.forall_mem_of_all (by decide))

theorem plain_spaces (n : Int) : Plain (Text.spaces n) :=
  Plain.of_pad (fun c hc => by rw [List.eq_of_mem_replicate hc]; rfl)

/-! ## Code that is written the same again -/

/-- The function changes the spacing alone, drops white space at the ends, and leaves its results as they are. -/
structure Settles (f : Text → Text) : Prop where
  respaced : ∀ t, Respaced t (f t)
  trim : ∀ t, f (Text.trim t) = f t
  trimmed : ∀ t, Text.trim (f t) = f t
  again : ∀ t, Plain t → f (f t) = f t
  plain : ∀ t, Plain t → Plain (f t)

theorem settles_trim : Settles Text.trim where
  respaced := Respaced.trim
  trim := Text.trim_idem
  trimmed := Text.trim_idem
  again t _ := Text.trim_idem t
  plain t h := h.of_isInfix (Text.trim_isInfix t)

namespace Perl

theorem head?_collapsePad {t : Text} (h : ∀ c ∈ t.head?, isPad c = false) : (collapsePad t).head? = t.head? := by
  cases t with
  | nil => rfl
  | cons c t => rw [collapsePad_char (h c rfl)]; rfl

theorem getLast?_collapsePad {t : Text} (h : ∀ c ∈ t.getLast?, isPad c = false) :
    (collapsePad t).getLast? = t.getLast? := by
  induction t using pad_induct with
  | nil => rfl
  | pad g t hg hp ht ih =>
    rw [List.getLast?_append] at h ⊢
    cases hl : t.getLast? with
    | none =>
      obtain ⟨d, hd⟩ : ∃ d, g.getLast? = some d := ⟨g.getLast hg, List.getLast?_eq_some_getLast hg⟩
      have hpad := h d (by rw [hl]; exact hd)
      rw [hp d (List.mem_of_getLast? hd)] at hpad
      cases hpad
    | some c =>
      rw [collapsePad_pad hg hp ht, List.getLast?_cons, ih (fun d hd => h d (by rw [Option.mem_def.1 hd]; rfl)), hl]
      rfl
  | char c t hc ih =>
    have hrest : ∀ d ∈ t.getLast?, isPad d = false := fun d hd =>
      h d (by rw [List.getLast?_cons, Option.mem_def.1 hd]; rfl)
    rw [collapsePad_char hc, List.getLast?_cons, List.getLast?_cons, ih hrest]

theorem collapsePad_idem (t : Text) : collapsePad (collapsePad t) = collapsePad t := by
  induction t using pad_induct with
  | nil => rfl
  | pad g t hg hp ht ih =>
    have hspace := collapsePad_pad (g := [' ']) (t := collapsePad t) (by simp) (by simp [isPad])
      (by rwa [head?_collapsePad ht])
    rw [collapsePad_pad hg hp ht]
    exact hspace.trans (congrArg _ ih)
  | char c t hc ih => rw [collapsePad_char hc, collapsePad_char hc, ih]

/-- A line of spaces, tabs and ink, on one line, is trimmed and has its spaces and tabs collapsed. -/
theorem onOneLine_plain {t : Text} (h : Plain t) :
    onOneLine (Text.lines (Text.trim t)) = collapsePad (Text.trim t) := by
  have hplain : Plain (Text.trim t) := h.of_isInfix (Text.trim_isInfix t)
  have hjoin : Text.join [' '] (Text.lines (Text.trim t)) = Text.trim t := by
    by_cases hne : Text.trim t = []
    · rw [hne]; rfl
    · rw [Text.lines_unbroken hplain.unbroken hne]
      exact List.intercalate_singleton
  obtain ⟨hhead, hlast⟩ := Text.trimmed_iff.1 (Text.trim_idem t)
  rw [onOneLine, hjoin, Text.trimmed_iff, head?_collapsePad (fun c hc => isPad_of_not_blank (hhead c hc)),
    getLast?_collapsePad (fun c hc => isPad_of_not_blank (hlast c hc))]
  exact ⟨hhead, hlast⟩

theorem settles_onOneLine : Settles (fun t => onOneLine (Text.lines (Text.trim t))) := by
  have hplain : ∀ t, Plain t → Plain (onOneLine (Text.lines (Text.trim t))) := by
    intro t h c hc
    rcases mem_onOneLine hc with ⟨hc, -⟩ | rfl
    · exact h c ((Text.trim_isInfix t).subset hc)
    · exact fun _ => rfl
  refine ⟨fun t => (Respaced.trim t).trans (Respaced.onOneLine _), fun t => ?_, fun t => Text.trim_idem _, fun t h => ?_, hplain⟩
  · rw [Text.trim_idem]
  · have htrim : Text.trim (onOneLine (Text.lines (Text.trim t))) = onOneLine (Text.lines (Text.trim t)) := Text.trim_idem _
    rw [onOneLine_plain (hplain t h), htrim, onOneLine_plain h, collapsePad_idem]

end Perl

/-- Where the function has been, white space around its result does not matter. -/
theorem Settles.surrounded {f : Text → Text} (hf : Settles f) {a b t : Text} (ha : allBlank a = true)
    (hb : allBlank b = true) (ht : Plain t) : f (a ++ (f t ++ b)) = f t := by
  rw [← hf.trim, Text.trim_append_of_blank ha, Text.trim_append_blank hb, hf.trim, hf.again t ht]

theorem Settles.singleton {f : Text → Text} (hf : Settles f) {c : Char} (hc : isBlank c = false) : f [c] = [c] := by
  have h := hf.respaced [c]
  rw [Respaced, Text.trimLeft_cons_of_not_blank hc, Text.trimLeft_of_trimmed (hf.trimmed _)] at h
  obtain ⟨r, hr, hal⟩ := h.cons_inv hc
  have hblank : Text.trimRight r = [] := Text.trimRight_eq_nil_iff.2 hal.allBlank_eq.symm
  have htrim := hf.trimmed [c]
  rw [hr, Text.trim_eq_cons (Text.trimLeft_cons_of_not_blank hc r), hblank] at htrim
  rw [hr, ← htrim]

namespace Treatment

/-- Code as it is written in a directive: a comment is trimmed. -/
def written (τ : Treatment) : Kind → Text → Text
  | .comment, t => Text.trim t
  | kind, t => τ.code kind t

/-- What the treatment has written it writes the same again. -/
structure Settling (τ : Treatment) : Prop where
  statement : Settles τ.statement
  expression : Settles τ.expression

theorem settling_absent {cfg : Config} (hk : cfg.keywordSpacing = false) : (absent cfg).Settling where
  statement := by
    have h : (absent cfg).statement = fun t => Perl.onOneLine (Text.lines (Text.trim t)) := by
      funext t
      rw [absent_statement, hk]
      rfl
    exact h ▸ Perl.settles_onOneLine
  expression := by
    have h : (absent cfg).expression = Text.trim := by
      funext t
      rw [absent_expression, hk]
      rfl
    exact h ▸ settles_trim

variable {τ : Treatment}

theorem written_of_ne_comment {kind : Kind} (h : kind ≠ .comment) (t : Text) : τ.written kind t = τ.code kind t := by
  cases kind <;> first | exact absurd rfl h | rfl

theorem Settling.written (hτ : τ.Settling) (kind : Kind) : Settles (τ.written kind) := by
  cases kind with
  | statement => exact hτ.statement
  | expression => exact hτ.expression
  | rawExpression => exact hτ.expression
  | comment => exact settles_trim

theorem Settling.respacing (hτ : τ.Settling) : τ.Respacing := ⟨hτ.statement.respaced, hτ.expression.respaced⟩

/-! ## Lines -/

theorem inside_inside (hτ : τ.Settling) {tag : Tag} (hk : tag.kind ≠ .comment) (hp : Plain tag.body) :
    τ.inside (ofInside (τ.inside tag)) = τ.inside tag := by
  have hcode := (hτ.written tag.kind).surrounded (a := [' ']) (b := if tag.rightChomp then [] else [' ']) rfl
    (by split <;> rfl) hp
  rw [written_of_ne_comment hk, written_of_ne_comment hk] at hcode
  have hk' : (ofInside (τ.inside tag)).kind ≠ .comment := by rwa [ofInside_inside hk]
  rw [τ.inside_of_ne_comment hk', ofInside_inside hk, τ.inside_of_ne_comment hk]
  simp only
  rw [show ' ' :: τ.code tag.kind tag.body ++ (if tag.rightChomp then [] else [' '])
    = [' '] ++ (τ.code tag.kind tag.body ++ (if tag.rightChomp then [] else [' '])) from rfl, hcode]

/-- **A line is written the same again.** -/
theorem line_line (hτ : τ.Settling) (hin : τ.Inward) (row : Text) (hp : Plain row)
    (hk : ∀ tag ∈ Tag.all row, tag.kind ≠ .comment) : τ.line true (τ.line true row) = τ.line true row := by
  induction row using tag_induct with
  | nil => rfl
  | tag u post hu ih =>
    rw [all_tag hu] at hk
    have hbody : Plain (ofInside u).body :=
      (hp.of_isInfix (s := u) ⟨['<', '%'], '%' :: '>' :: post, by simp⟩).of_isInfix (body_isInfix u)
    have hpost : Plain post := hp.of_isInfix ⟨'<' :: '%' :: (u ++ ['%', '>']), [], by simp⟩
    rw [τ.line_tag hu, τ.line_tag (hin.inside hu), inside_inside hτ (hk _ List.mem_cons_self) hbody,
      ih hpost (fun tag htag => hk tag (List.mem_cons_of_mem _ htag))]
  | char c rest hc ih =>
    rw [all_char hc] at hk
    rw [τ.line_char hc, τ.line_char (read?_line_none hp.feed_not_mem hc),
      ih (hp.of_isInfix (List.suffix_cons c rest).isInfix) hk]

theorem plain_inside (hτ : τ.Settling) {tag : Tag} (h : Plain tag.body) : Plain (τ.inside tag) := by
  by_cases hk : tag.kind = .comment
  · rw [inside]
    simp only [hk]
    exact h.append (plain_chomp tag.rightChomp)
  · have hcode := (hτ.written tag.kind).plain _ h
    rw [written_of_ne_comment hk] at hcode
    have hend : Plain (if tag.rightChomp then ['-'] else [' ']) := by
      split
      · exact plain_chomp true
      · exact plain_spaces 1
    rw [τ.inside_of_ne_comment hk]
    exact (plain_marks tag.leftChomp tag.kind).append ((Plain.cons (fun _ => rfl) hcode).append hend)

theorem plain_line (hτ : τ.Settling) (row : Text) (hp : Plain row) : Plain (τ.line true row) := by
  induction row using tag_induct with
  | nil => exact hp
  | tag u post hu ih =>
    have hbody : Plain (ofInside u).body :=
      (hp.of_isInfix (s := u) ⟨['<', '%'], '%' :: '>' :: post, by simp⟩).of_isInfix (body_isInfix u)
    have hpost : Plain post := hp.of_isInfix ⟨'<' :: '%' :: (u ++ ['%', '>']), [], by simp⟩
    rw [τ.line_tag hu]
    exact .cons (by decide) (.cons (by decide) ((plain_inside hτ hbody).append (.cons (by decide) (.cons (by decide)
      (ih hpost)))))
  | char c rest hc ih =>
    rw [τ.line_char hc]
    exact .cons (hp c List.mem_cons_self) (ih (hp.of_isInfix (List.suffix_cons c rest).isInfix))

/-! ## Directives -/

theorem directive_normal (d : Directive) :
    τ.directive true d = '%' :: (d.kind.mark ++ Directive.afterSpace (τ.written d.kind d.body)) := by
  obtain ⟨_, kind, _⟩ := d
  cases kind <;> rfl

end Treatment

namespace Template.Directive

theorem afterSpace_eq_append (t : Text) : ∃ a, allBlank a = true ∧ (∀ c ∈ a, isPad c = true) ∧ afterSpace t = a ++ t := by
  cases t with
  | nil => exact ⟨[], rfl, by simp, rfl⟩
  | cons c t => exact ⟨[' '], rfl, by simp [isPad], rfl⟩

theorem plain_afterSpace {t : Text} (h : Plain t) : Plain (afterSpace t) := by
  obtain ⟨a, -, ha, heq⟩ := afterSpace_eq_append t
  rw [heq]
  exact (Plain.of_pad ha).append h

theorem read_mark_afterSpace (kind : Kind) (t : Text) : Kind.read (kind.mark ++ afterSpace t) = (kind, afterSpace t) := by
  cases t with
  | nil => cases kind <;> rfl
  | cons c t => exact Kind.read_mark_space kind (c :: t)

theorem respaced_afterSpace (t : Text) : Respaced t (afterSpace t) := by
  obtain ⟨a, ha, -, heq⟩ := afterSpace_eq_append t
  rw [heq, Respaced, Text.trimLeft_append_of_blank ha]
  exact Aligned.refl _

/-- A directive with trimmed code is trimmed. -/
theorem trim_written {kind : Kind} {t : Text} (ht : Text.trim t = t) :
    Text.trim ('%' :: (kind.mark ++ afterSpace t)) = '%' :: (kind.mark ++ afterSpace t) := by
  rw [Text.trimmed_iff]
  refine ⟨fun c hc => by rw [← Option.mem_some_iff.1 hc]; decide, fun c hc => ?_⟩
  cases t with
  | nil => cases kind <;> (rw [← Option.mem_some_iff.1 hc]; decide)
  | cons d t =>
    have hsplit : '%' :: (kind.mark ++ afterSpace (d :: t)) = ('%' :: kind.mark ++ [' ']) ++ (d :: t) := by simp [afterSpace]
    rw [hsplit, List.getLast?_append, List.getLast?_cons] at hc
    exact (Text.trimmed_iff.1 ht).2 c (by rwa [List.getLast?_cons])

end Template.Directive

/-! ## Rows outside raw elements -/

theorem Place.step_congr (place : Place) {r s : Text} (hs : Shift.ofLine r = Shift.ofLine s)
    (hn : rowNesting r = rowNesting s) : place.step r = place.step s := by
  have hn' : Markup.Nesting.ofLine (Tag.blankOut r) = Markup.Nesting.ofLine (Tag.blankOut s) := hn
  rw [Place.step, Place.step, hs, hn']

theorem Place.step_trim (place : Place) {row : Text} (hn : '\n' ∉ row) : place.step (Text.trim row) = place.step row :=
  place.step_congr (shift_trim hn)
    ((Respaced.trim row).rowNesting_eq hn (fun hm => hn ((Text.trim_isInfix row).subset hm))).symm

/-- A row without comment tags, and without white space but spaces and tabs. -/
structure Regular (row : Text) : Prop where
  plain : Plain row
  uncommented : Uncommented row

theorem Regular.trim {row : Text} (h : Regular row) : Regular (Text.trim row) :=
  ⟨h.plain.of_isInfix (Text.trim_isInfix row), h.uncommented.of_isInfix (Text.trim_isInfix row)⟩

namespace Treatment

variable {τ : Treatment}

theorem content_percent {row r : Text} (h : Text.trimLeft row = '%' :: r) (hn : '\n' ∉ row) :
    τ.content true row
      = '%' :: ((Kind.read r).1.mark ++ Directive.afterSpace (τ.written (Kind.read r).1 (Kind.read r).2)) := by
  rw [content, Directive.read?_percent h hn]
  exact directive_normal _

theorem content_of_ne {row : Text} (h : ∀ r, Text.trimLeft row ≠ '%' :: r) : τ.content true row = τ.line true row := by
  rw [content, Directive.read?_of_ne h]

/-- **The content of a row is that of the trimmed row.** -/
theorem content_trim (hτ : τ.Settling) {row : Text} (hn : '\n' ∉ row) :
    Text.trim (τ.content true row) = τ.content true (Text.trim row) := by
  have hn' : '\n' ∉ Text.trim row := fun hm => hn ((Text.trim_isInfix row).subset hm)
  by_cases hp : ∃ r, Text.trimLeft row = '%' :: r
  · obtain ⟨r, hr⟩ := hp
    have hr' : Text.trimLeft (Text.trim row) = '%' :: Text.trimRight r := by
      rw [Text.trimLeft_trim, Text.trim_eq_cons hr]
    have hcode := hτ.written (Kind.read r).1
    have hbody : τ.written (Kind.read r).1 (Text.trimRight (Kind.read r).2) = τ.written (Kind.read r).1 (Kind.read r).2 := by
      rw [← hcode.trim, Text.trim_trimRight, hcode.trim]
    rw [content_percent hr hn, content_percent hr' hn', Kind.read_trimRight, hbody, Directive.trim_written (hcode.trimmed _)]
  · have hp' : ∀ r, Text.trimLeft row ≠ '%' :: r := fun r hr => hp ⟨r, hr⟩
    have hp'' : ∀ r, Text.trimLeft (Text.trim row) ≠ '%' :: r := by
      rw [Text.trimLeft_trim]
      exact Text.trim_ne_cons hp'
    rw [content_of_ne hp', content_of_ne hp'', line_trim]

theorem plain_content (hτ : τ.Settling) {row : Text} (h : Plain row) : Plain (τ.content true row) := by
  by_cases hp : ∃ r, Text.trimLeft row = '%' :: r
  · obtain ⟨r, hr⟩ := hp
    have hr' : Plain r := h.of_subset (fun c hc => (List.dropWhile_suffix (p := isBlank)).subset
      (by rw [show row.dropWhile isBlank = _ from hr]; exact List.mem_cons_of_mem _ hc))
    have hbody : Plain (Kind.read r).2 := hr'.of_isInfix ⟨(Kind.read r).1.mark, [], by rw [List.append_nil, Kind.mark_read]⟩
    have hmark : Plain (Kind.read r).1.mark := plain_marks false (Kind.read r).1
    rw [content_percent hr h.feed_not_mem]
    exact .cons (by decide) (hmark.append (Directive.plain_afterSpace ((hτ.written _).plain _ hbody)))
  · rw [content_of_ne (fun r hr => hp ⟨r, hr⟩)]
    exact plain_line hτ row h

theorem content_directive {kind : Kind} {body : Text} (hk : Kind.read (kind.mark ++ body) = (kind, body))
    (hn : '\n' ∉ '%' :: (kind.mark ++ body)) :
    τ.content true ('%' :: (kind.mark ++ body)) = '%' :: (kind.mark ++ Directive.afterSpace (τ.written kind body)) := by
  rw [content_percent (Text.trimLeft_cons_of_not_blank (by decide) _) hn, hk]

/-- A trimmed row is a directive or a line with tags. -/
theorem directive_or_line {row : Text} (ht : Text.trim row = row) :
    (∃ kind body, row = '%' :: (kind.mark ++ body) ∧ Kind.read (kind.mark ++ body) = (kind, body)) ∨
      (∀ r, row ≠ '%' :: r) ∧ τ.content true row = τ.line true row := by
  by_cases hp : ∃ r, row = '%' :: r
  · obtain ⟨r, rfl⟩ := hp
    exact Or.inl ⟨(Kind.read r).1, (Kind.read r).2, by rw [Kind.mark_read], by rw [Kind.mark_read]⟩
  · refine Or.inr ⟨fun r hr => hp ⟨r, hr⟩, content_of_ne (fun r hr => ?_)⟩
    rw [Text.trimLeft_of_trimmed ht] at hr
    exact hp ⟨r, hr⟩

section

variable (hτ : τ.Settling) (hin : τ.Inward) {row : Text} (h : Regular row) (ht : Text.trim row = row)

include hτ hin h ht

/-- **The content of a trimmed row has itself as its content.** -/
theorem content_content : τ.content true (τ.content true row) = τ.content true row := by
  rcases τ.directive_or_line ht with ⟨kind, body, rfl, hk⟩ | ⟨hp, hline⟩
  · have hplain := plain_content hτ h.plain
    have hbody : Plain body := h.plain.of_isInfix ⟨'%' :: kind.mark, [], by simp⟩
    obtain ⟨a, ha, -, hspace⟩ := Directive.afterSpace_eq_append (τ.written kind body)
    have hwritten := (hτ.written kind).surrounded ha allBlank_nil hbody
    rw [List.append_nil, ← hspace] at hwritten
    rw [content_directive hk h.plain.feed_not_mem] at hplain ⊢
    rw [content_directive (Directive.read_mark_afterSpace kind _) hplain.feed_not_mem, hwritten]
  · have hcontent : τ.content true (τ.line true row) = τ.line true (τ.line true row) := by
      refine content_of_ne ?_
      rw [Text.trimLeft_of_trimmed (by rw [line_trim, ht])]
      exact τ.line_ne_cons hp
    rw [hline, hcontent, line_line hτ hin row h.plain h.uncommented.kinds]

/-- **A trimmed row and its content lead from a place to the same place**, at the same level. -/
theorem step_content (place : Place) : place.step (τ.content true row) = place.step row := by
  rcases τ.directive_or_line ht with ⟨kind, body, rfl, hk⟩ | ⟨hp, hline⟩
  · have hplain := plain_content hτ h.plain
    rw [content_directive hk h.plain.feed_not_mem] at hplain ⊢
    have hbody : '\n' ∉ body := fun hm => h.plain.feed_not_mem (by simp [hm])
    have hbody' : '\n' ∉ Directive.afterSpace (τ.written kind body) := fun hm => hplain.feed_not_mem (by simp [hm])
    have hres := ((hτ.written kind).respaced body).trans (Directive.respaced_afterSpace _)
    exact (Place.step_congr place (shift_directive hres hbody hbody' hk (Directive.read_mark_afterSpace kind _))
      (rowNesting_directive hres hbody hbody')).symm
  · rw [hline]
    exact Place.step_congr place (shift_line hτ.respacing hin h.plain.feed_not_mem h.uncommented.kinds ht hp)
      (rowNesting_line hin h.plain.feed_not_mem)

end

/-! ## Rows at a place -/

/-- A trimmed row without its indentation: its content, or inside a raw element the row itself. -/
def shown (τ : Treatment) (place : Place) (row : Text) : Text :=
  if place.raw.isSome then row else τ.content true row

end Treatment

/-- A text at a level; nothing for an empty text. -/
def Config.atLevel (cfg : Config) (level : Nat) (t : Text) : Text := if t.isEmpty then [] else cfg.indentation level ++ t

theorem Text.trim_dropTrailingPad (t : Text) : Text.trim (Text.dropTrailingPad t) = Text.trim t := by
  have hblank : allBlank (t.reverse.takeWhile isPad).reverse = true := allBlank_iff.2 (fun c hc =>
    isBlank_of_isPad (List.all_eq_true.1 List.all_takeWhile c (List.mem_reverse.1 hc)))
  have ht : t = Text.dropTrailingPad t ++ (t.reverse.takeWhile isPad).reverse := by
    rw [Text.dropTrailingPad, Text.dropEndWhile, ← List.reverse_append, List.takeWhile_append_dropWhile, List.reverse_reverse]
  conv => rhs; rw [ht, Text.trim_append_blank hblank]

theorem allBlank_indentation (cfg : Config) (level : Nat) : allBlank (cfg.indentation level) = true :=
  List.all_eq_true.2 (fun c hc => by rw [List.eq_of_mem_replicate hc]; rfl)

theorem trim_atLevel (cfg : Config) (level : Nat) (t : Text) : Text.trim (cfg.atLevel level t) = Text.trim t := by
  rw [Config.atLevel]
  split
  · rename_i h
    rw [List.isEmpty_iff.1 h]
  · exact Text.trim_append_of_blank (allBlank_indentation cfg level) t

theorem dropTrailingPad_indentation (cfg : Config) (level : Nat) {t : Text} (h : Plain t) :
    Text.dropTrailingPad (cfg.indentation level ++ Text.trimLeft t) = cfg.atLevel level (Text.trim t) := by
  have hplain : Plain (cfg.indentation level ++ Text.trimLeft t) :=
    (plain_spaces _).append (h.of_subset (fun c hc => (List.dropWhile_suffix _).subset hc))
  rw [hplain.dropTrailingPad, Config.atLevel, Text.trim]
  cases hl : Text.trimLeft t with
  | nil =>
    rw [List.append_nil, ← List.nil_append (cfg.indentation level),
      Text.trimRight_append_of_blank (allBlank_indentation cfg level)]
    rfl
  | cons c z =>
    have hc := Text.isBlank_of_trimLeft hl
    rw [Text.trimRight_append_left (by simp [hc]), Text.trimRight_cons hc]
    rfl

theorem Place.walk_trim (place : Place) {row : Text} (hn : '\n' ∉ row) : place.walk (Text.trim row) = place.walk row := by
  rw [Place.walk, Place.walk, ← (Respaced.trim row).rawClose?_eq, place.step_trim hn]

namespace Treatment

variable {τ : Treatment} {cfg : Config} {place : Place}

theorem row_of_none {row : Text} (h : (place.walk row).1 = none) : τ.row cfg place row = row := by
  rw [Treatment.row, h]

theorem trim_shown (hτ : τ.Settling) {row : Text} (hn : '\n' ∉ row) :
    Text.trim (if place.raw.isSome then row else τ.content true row) = τ.shown place (Text.trim row) := by
  rw [shown]
  split
  · rfl
  · exact content_trim hτ hn

theorem row_of_level (hτ : τ.Settling) (hd : cfg.normalizeDelimiters = true) {row : Text} (hp : Plain row) {level : Nat}
    (h : (place.walk row).1 = some level) : τ.row cfg place row = cfg.atLevel level (τ.shown place (Text.trim row)) := by
  have hplain : Plain (if place.raw.isSome then row else τ.content true row) := by
    split
    · exact hp
    · exact plain_content hτ hp
  rw [Treatment.row, h, hd, ← trim_shown hτ hp.feed_not_mem]
  exact dropTrailingPad_indentation cfg level hplain

theorem shown_shown (hτ : τ.Settling) (hin : τ.Inward) {row : Text} (h : Regular row) (ht : Text.trim row = row) :
    τ.shown place (τ.shown place row) = τ.shown place row := by
  unfold shown
  split
  · rfl
  · exact content_content hτ hin h ht

theorem walk_shown (hτ : τ.Settling) (hin : τ.Inward) {row : Text} (h : Regular row) (ht : Text.trim row = row) :
    place.walk (τ.shown place row) = place.walk row := by
  unfold shown
  split
  · rfl
  · rename_i hraw
    rw [Place.walk, Place.walk, Option.not_isSome_iff_eq_none.1 hraw, step_content hτ hin h ht]

/-- **A row as it is written is written the same again**, and so is any row that differs from it in the white space at
its ends, unless it stays as it is; and the place moves as it did. -/
theorem row_again (hτ : τ.Settling) (hin : τ.Inward) (hd : cfg.normalizeDelimiters = true) (place : Place)
    {row other : Text} (h : Regular row) (hother : Plain other) (ht : Text.trim other = Text.trim (τ.row cfg place row)) :
    place.walk other = place.walk row ∧
      τ.row cfg place other = if (place.walk row).1.isSome then τ.row cfg place row else other := by
  cases hw : (place.walk row).1 with
  -- A row without a level is inside a raw element and stays; any other is its trimmed text at its level.
  | none =>
    rw [row_of_none hw] at ht
    have hwo : place.walk other = place.walk row := by
      rw [← place.walk_trim hother.feed_not_mem, ht, place.walk_trim h.plain.feed_not_mem]
    exact ⟨hwo, by rw [row_of_none (by rw [hwo, hw])]; rfl⟩
  | some level =>
    have htrim : Text.trim (τ.shown place (Text.trim row)) = τ.shown place (Text.trim row) := by
      rw [← trim_shown hτ h.plain.feed_not_mem, Text.trim_idem]
    rw [row_of_level hτ hd h.plain hw, trim_atLevel, htrim] at ht
    have hwo : place.walk other = place.walk row := by
      rw [← place.walk_trim hother.feed_not_mem, ht, walk_shown hτ hin h.trim (Text.trim_idem row),
        place.walk_trim h.plain.feed_not_mem]
    refine ⟨hwo, ?_⟩
    rw [row_of_level hτ hd hother (by rw [hwo, hw]), row_of_level hτ hd h.plain hw, ht,
      shown_shown hτ hin h.trim (Text.trim_idem row)]
    rfl

end Treatment

end EpFormat
