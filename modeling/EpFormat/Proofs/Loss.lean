import EpFormat.Proofs.Block
import EpFormat.Proofs.Lines
import EpFormat.Proofs.Spacing
import EpFormat.Proofs.TagLine
/-!
# Loss — the ink that formatting loses

Formatting by a treatment that never adds ink (`Treatment.Cutting`) never adds ink either, and it loses none exactly
if the treatment loses none of the code that it meets: of the tags and directives outside raw elements, and of the
blocks (`cut_format`).  `Cut` says both at once, so that it adds up along a text and along the two passes.
-/
namespace EpFormat

open Template Template.Tag

/-- What is in `out` is in `source`, in its order, and all of it exactly if `kept`. -/
structure Kept {α : Type} (out source : List α) (kept : Prop) : Prop where
  sublist : out.Sublist source
  same_iff : out = source ↔ kept

namespace Kept

variable {α : Type} {a b s t : List α} {p q : Prop}

theorem of_eq (h : a = s) : Kept a s True := ⟨h ▸ List.Sublist.refl _, by simp [h]⟩

theorem congr (h : Kept a s p) (ha : b = a) (hs : t = s) (hp : p ↔ q) : Kept b t q :=
  ⟨by rw [ha, hs]; exact h.sublist, by rw [ha, hs, h.same_iff, hp]⟩

theorem append (h₁ : Kept a s p) (h₂ : Kept b t q) : Kept (a ++ b) (s ++ t) (p ∧ q) := by
  refine ⟨h₁.sublist.append h₂.sublist, ?_⟩
  rw [← h₁.same_iff, ← h₂.same_iff]
  constructor
  · intro h
    have hlen := congrArg List.length h
    simp only [List.length_append] at hlen
    have h₁' := h₁.sublist.length_le
    have h₂' := h₂.sublist.length_le
    exact ⟨h₁.sublist.eq_of_length (by omega), h₂.sublist.eq_of_length (by omega)⟩
  · rintro ⟨h₁, h₂⟩
    rw [h₁, h₂]

end Kept

/-- The ink of `out` is ink of `source` in its order, and all of it exactly if `kept`. -/
structure Cut (out source : Text) (kept : Prop) : Prop where
  sublist : (ink out).Sublist (ink source)
  same_iff : ink out = ink source ↔ kept

namespace Cut

variable {a b c s t : Text} {p q : Prop}

theorem of_ink (h : ink a = ink s) : Cut a s True := ⟨h ▸ List.Sublist.refl _, by simp [h]⟩

theorem congr (h : Cut a s p) (ha : ink b = ink a) (hs : ink t = ink s) (hp : p ↔ q) : Cut b t q :=
  ⟨by rw [ha, hs]; exact h.sublist, by rw [ha, hs, h.same_iff, hp]⟩

theorem append (h₁ : Cut a s p) (h₂ : Cut b t q) : Cut (a ++ b) (s ++ t) (p ∧ q) := by
  have h := Kept.append ⟨h₁.sublist, h₁.same_iff⟩ ⟨h₂.sublist, h₂.same_iff⟩
  rw [← ink_append, ← ink_append] at h
  exact ⟨h.sublist, h.same_iff⟩

theorem trans (h₁ : Cut a b p) (h₂ : Cut b c q) : Cut a c (p ∧ q) := by
  refine ⟨h₁.sublist.trans h₂.sublist, ?_⟩
  rw [← h₁.same_iff, ← h₂.same_iff]
  constructor
  · intro h
    have hb : ink b = ink c := h₂.sublist.eq_of_length_le (by rw [← h]; exact h₁.sublist.length_le)
    exact ⟨by rw [h, hb], hb⟩
  · rintro ⟨h₁, h₂⟩
    rw [h₁, h₂]

end Cut

/-! ## What a treatment meets -/

/-- The text has no comment tag. -/
def Uncommented (t : Text) : Prop := ¬ txt "<%#" <:+: t ∧ ¬ txt "<%-#" <:+: t

/-- The Perl code of a row outside raw elements: that of its directive, or of its tags. -/
def Template.codes (row : Text) : List (Kind × Text) :=
  match Directive.read? row with
  | some d => [(d.kind, d.body)]
  | none => (Tag.all row).map (fun tag => (tag.kind, tag.body))

/-- The Perl code of rows, from a place on; rows inside raw elements have none. -/
def Place.codes : Place → List Text → List (Kind × Text)
  | _, [] => []
  | place, row :: rest => (if place.raw.isSome then [] else Template.codes row) ++ codes (place.walk row).2 rest

/-- The treatment adds no ink. -/
structure Treatment.Cutting (τ : Treatment) : Prop where
  statement : ∀ t, (ink (τ.statement t)).Sublist (ink t)
  expression : ∀ t, (ink (τ.expression t)).Sublist (ink t)
  block : ∀ t, (ink (τ.block t)).Sublist (ink t)

variable {τ : Treatment}

theorem Treatment.Cutting.code (hτ : τ.Cutting) (kind : Kind) (t : Text) : (ink (τ.code kind t)).Sublist (ink t) := by
  cases kind with
  | comment => exact List.Sublist.refl _
  | statement => exact hτ.statement t
  | expression => exact hτ.expression t
  | rawExpression => exact hτ.expression t

theorem Treatment.Cutting.cut (hτ : τ.Cutting) (kind : Kind) (t : Text) :
    Cut (τ.code kind t) t (ink (τ.code kind t) = ink t) := ⟨hτ.code kind t, Iff.rfl⟩

/-! ## Rows -/

theorem uncommented_of_contains {t : Text} (h₁ : Text.contains (txt "<%#") t = false)
    (h₂ : Text.contains (txt "<%-#") t = false) : Uncommented t :=
  ⟨Text.contains_eq_false_iff.1 h₁, Text.contains_eq_false_iff.1 h₂⟩

theorem Uncommented.of_isInfix {s t : Text} (h : Uncommented t) (hs : s <:+: t) : Uncommented s :=
  ⟨fun hi => h.1 (hi.trans hs), fun hi => h.2 (hi.trans hs)⟩

theorem Uncommented.kind_ne {u post : Text} (h : Uncommented ('<' :: '%' :: (u ++ '%' :: '>' :: post))) :
    (ofInside u).kind ≠ .comment := by
  intro hk
  rcases (ofInside_comment_iff u).1 hk with ⟨v, rfl⟩ | ⟨v, rfl⟩
  · exact h.1 ⟨[], v ++ '%' :: '>' :: post, rfl⟩
  · exact h.2 ⟨[], v ++ '%' :: '>' :: post, rfl⟩

theorem Uncommented.after_tag {u post : Text} (h : Uncommented ('<' :: '%' :: (u ++ '%' :: '>' :: post))) :
    Uncommented post := h.of_isInfix ⟨'<' :: '%' :: (u ++ ['%', '>']), [], by simp⟩

theorem cut_inside (hτ : τ.Cutting) {u : Text} (hk : (ofInside u).kind ≠ .comment) :
    Cut (τ.inside (ofInside u)) u (ink (τ.code (ofInside u).kind (ofInside u).body) = ink (ofInside u).body) := by
  have h := ((Cut.of_ink (Eq.refl (ink (chomp (ofInside u).leftChomp ++ (ofInside u).kind.mark)))).append
    (hτ.cut (ofInside u).kind (ofInside u).body)).append (Cut.of_ink (Eq.refl (ink (chomp (ofInside u).rightChomp))))
  refine h.congr ?_ ?_ (by simp)
  · rw [τ.inside_of_ne_comment hk]
    cases (ofInside u).rightChomp <;> simp [chomp]
  · conv => lhs; rw [← inside_ofInside u]
    simp [Tag.inside]

/-- **A line loses the ink that its tags lose.** -/
theorem cut_line (hτ : τ.Cutting) (row : Text) (hu : Uncommented row) :
    Cut (τ.line true row) row (∀ tag ∈ Tag.all row, ink (τ.code tag.kind tag.body) = ink tag.body) := by
  induction row using tag_induct with
  | nil => exact (Cut.of_ink rfl).congr rfl rfl (by simp)
  | tag u post hin ih =>
    have h := (Cut.of_ink (Eq.refl (ink ['<', '%']))).append ((cut_inside hτ hu.kind_ne).append
      ((Cut.of_ink (Eq.refl (ink ['%', '>']))).append (ih hu.after_tag)))
    rw [τ.line_tag hin, all_tag hin]
    refine h.congr rfl rfl ?_
    rw [List.forall_mem_cons]
    simp
  | char c rest hc ih =>
    have h := (Cut.of_ink (Eq.refl (ink [c]))).append (ih (hu.of_isInfix (List.suffix_cons c rest).isInfix))
    rw [τ.line_char hc, all_char hc]
    exact h.congr rfl rfl (by simp)

theorem Directive.ink_toLineEnd {t body : Text} (h : Directive.toLineEnd? t = some body) : ink body = ink t := by
  have hsplit := List.takeWhile_append_dropWhile (p := fun c => c != '\n') (l := t)
  unfold Directive.toLineEnd? at h
  split at h
  · rw [Option.some.inj h]
  · rename_i hd
    rw [hd] at hsplit
    rw [← hsplit, ink_append, Option.some.inj h]
    simp
  · cases h

theorem ink_directive_row {row : Text} {d : Directive} (h : Directive.read? row = some d) :
    ink row = '%' :: (ink d.kind.mark ++ ink d.body) := by
  unfold Directive.read? at h
  split at h
  · rename_i rest hrest
    simp only at h
    split at h
    · rename_i body hbody
      obtain rfl := Option.some.inj h
      rw [← ink_dropWhile (fun _ hc => hc) row, hrest, ink_cons_of_not_blank (by decide), Directive.ink_toLineEnd hbody,
        ← ink_append, Kind.mark_read]
    · cases h
  · cases h

theorem ink_afterSpace (t : Text) : ink (Directive.afterSpace t) = ink t := by
  unfold Directive.afterSpace
  split
  · rename_i h
    rw [List.isEmpty_iff.1 h]
  · simp

theorem ink_directive (d : Directive) (normalize : Bool) :
    ink (τ.directive normalize d) = '%' :: (ink d.kind.mark ++ ink (τ.code d.kind d.body)) := by
  obtain ⟨_, kind, body⟩ := d
  have hp : isBlank '%' = false := by decide
  have hh : isBlank '#' = false := by decide
  cases kind with
  | comment =>
    cases normalize <;>
      simp [Treatment.directive, Treatment.code, Kind.mark, ink_afterSpace, ink_cons_of_not_blank hp,
        ink_cons_of_not_blank hh]
  | statement => simp [Treatment.directive, Treatment.code, Kind.mark, ink_afterSpace, ink_cons_of_not_blank hp]
  | expression => simp [Treatment.directive, Treatment.code, ink_afterSpace, ink_cons_of_not_blank hp]
  | rawExpression => simp [Treatment.directive, Treatment.code, ink_afterSpace, ink_cons_of_not_blank hp]

theorem cut_content (hτ : τ.Cutting) (row : Text) (hu : Uncommented row) :
    Cut (τ.content true row) row (∀ c ∈ Template.codes row, ink (τ.code c.1 c.2) = ink c.2) := by
  unfold Treatment.content Template.codes
  cases hd : Directive.read? row with
  | some d =>
    have hpre : ∀ t : Text, ink ('%' :: (d.kind.mark ++ t)) = '%' :: (ink d.kind.mark ++ ink t) := fun t => by
      rw [ink_cons_of_not_blank (by decide), ink_append]
    have h := (Cut.of_ink (Eq.refl (ink ('%' :: d.kind.mark)))).append (hτ.cut d.kind d.body)
    refine h.congr ?_ ?_ (by simp)
    · rw [ink_directive, List.cons_append, hpre]
    · rw [ink_directive_row hd, List.cons_append, hpre]
  | none =>
    refine (cut_line hτ row hu).congr rfl rfl ?_
    simp

theorem cut_row (hτ : τ.Cutting) {cfg : Config} (hn : cfg.normalizeDelimiters = true) (place : Place) (row : Text)
    (hu : Uncommented row) :
    Cut (τ.row cfg place row) row
      (∀ c ∈ (if place.raw.isSome then [] else Template.codes row), ink (τ.code c.1 c.2) = ink c.2) := by
  unfold Treatment.row
  cases hraw : place.raw with
  | some name =>
    refine (Cut.of_ink (Eq.refl (ink row))).congr ?_ rfl (by simp)
    split
    · rfl
    · simp [Config.indentation]
  | none =>
    have hlevel : (place.walk row).1 = some (place.step row).1 := by simp [Place.walk, hraw]
    refine (cut_content hτ row hu).congr ?_ rfl (by simp)
    simp [hlevel, hn, Config.indentation]

/-- **Rows lose the ink that their tags and directives lose.** -/
theorem cut_rows (hτ : τ.Cutting) {cfg : Config} (hn : cfg.normalizeDelimiters = true) :
    ∀ (rows : List Text) (place : Place), (∀ row ∈ rows, Uncommented row) →
      Cut (τ.rows cfg place rows).flatten rows.flatten
        (∀ c ∈ place.codes rows, ink (τ.code c.1 c.2) = ink c.2)
  | [], _, _ => (Cut.of_ink rfl).congr rfl rfl (by simp [Place.codes])
  | row :: rest, place, hu => by
    have h := (cut_row hτ hn place row (hu row List.mem_cons_self)).append
      (cut_rows hτ hn rest (place.walk row).2 (fun r hr => hu r (List.mem_cons_of_mem _ hr)))
    refine h.congr rfl rfl ?_
    rw [Place.codes]
    simp only [List.mem_append]
    constructor
    · rintro ⟨h₁, h₂⟩ c (hc | hc)
      · exact h₁ c hc
      · exact h₂ c hc
    · intro h
      exact ⟨fun c hc => h c (Or.inl hc), fun c hc => h c (Or.inr hc)⟩

/-! ## Blocks -/

theorem ink_takeWhile_isPad (t : Text) : ink (t.takeWhile isPad) = [] :=
  ink_of_all_blank (fun _ hc => isBlank_of_isPad (List.all_eq_true.1 List.all_takeWhile _ hc))

theorem ink_of_allBlank {t : Text} (h : allBlank t = true) : ink t = [] := (ink_eq_nil_iff t).2 h

theorem ink_opening {line : Text} {o : Opening} (h : Opening.read? line = some o) :
    ink line = ink (['<', '%'] ++ chomp o.left) ∧ ink o.base = [] := by
  unfold Opening.read? at h
  split at h
  · rename_i rest hrest
    simp only at h
    split at h
    · rename_i hb
      obtain rfl := Option.some.inj h
      refine ⟨?_, ink_takeWhile_isPad line⟩
      have hink : ink rest = ink (chomp (readChomp rest).1) := by
        conv => lhs; rw [← chomp_readChomp rest]
        rw [ink_append, ink_of_allBlank hb, List.append_nil]
      rw [← ink_dropWhile (fun _ hc => isBlank_of_isPad hc) line, hrest, ink_append, ← hink, ← ink_append]
      rfl
    · cases h
  · cases h

theorem ink_closing {line : Text} {right : Bool} (h : readClosing? line = some right) :
    ink line = ink (chomp right ++ ['%', '>']) := by
  have hsplit := chomp_readChomp (line.dropWhile isPad)
  rw [← ink_dropWhile (fun _ hc => isBlank_of_isPad hc) line, ← hsplit]
  unfold readClosing? at h
  simp only at h
  split at h
  · rename_i tail htail
    split at h
    · rename_i hb
      rw [htail, Option.some.inj h, ink_append, ink_append, ink_cons '%', ink_cons '>', ink_of_allBlank hb]
      rfl
    · cases h
  · rename_i tail htail
    split at h
    · rename_i hb
      rw [htail, Option.some.inj h, ink_append, ink_append, ink_cons '%', ink_cons ' ', ink_cons '>', ink_of_allBlank hb]
      rfl
    · cases h
  · cases h

/-! ## The code of a block -/

open Perl

theorem commonStart_subset : ∀ (s t : Text), ∀ c ∈ commonStart s t, c ∈ s
  | [], _, c, h => by simp [commonStart] at h
  | a :: s, [], c, h => by simp [commonStart] at h
  | a :: s, b :: t, c, h => by
    rw [commonStart] at h
    split at h
    · rcases List.mem_cons.1 h with rfl | h
      · exact List.mem_cons_self
      · exact List.mem_cons_of_mem _ (commonStart_subset s t c h)
    · cases h

theorem isPad_commonPadFrom : ∀ (ls : List Text) (so : Option Text), (∀ ws ∈ so, ∀ c ∈ ws, isPad c = true) →
    ∀ ws ∈ commonPadFrom so ls, ∀ c ∈ ws, isPad c = true
  | [], _, hso, ws, h, c, hc => hso ws h c hc
  | line :: ls, so, hso, ws, h, c, hc => by
    have hlead : ∀ d ∈ leadingPad line, isPad d = true := fun d hd => List.all_eq_true.1 List.all_takeWhile d hd
    unfold commonPadFrom at h
    split at h
    · exact isPad_commonPadFrom ls so hso ws h c hc
    · refine isPad_commonPadFrom ls _ (fun ws' hws' d hd => ?_) ws h c hc
      obtain rfl := Option.some.inj hws'
      cases so with
      | none => exact hlead d hd
      | some ws₀ => exact hso ws₀ rfl d (commonStart_subset _ _ d hd)

/-- The indentation that lines share is made of spaces and tabs. -/
theorem isPad_commonPad (ls : List Text) : ∀ c ∈ commonPad ls, isPad c = true := by
  intro c hc
  unfold commonPad at hc
  cases h : commonPadFrom none ls with
  | none => rw [h] at hc; cases hc
  | some ws => rw [h] at hc; exact isPad_commonPadFrom ls none (fun _ h => by cases h) ws h c hc

theorem ink_dropPad {ind : Text} (h : ∀ c ∈ ind, isPad c = true) (line : Text) : ink (dropPad ind line) = ink line := by
  unfold dropPad
  cases ha : Text.after? ind line with
  | none => rfl
  | some rest =>
    rw [Text.after?_eq_some ha, ink_append, ink_of_all_blank (fun c hc => isBlank_of_isPad (h c hc))]
    rfl

theorem flatMap_ink_dropWhile : ∀ ls : List Text, (ls.dropWhile allBlank).flatMap ink = ls.flatMap ink
  | [] => rfl
  | l :: ls => by
    rw [List.dropWhile_cons]
    split
    · rename_i hl
      rw [flatMap_ink_dropWhile ls, List.flatMap_cons, ink_of_allBlank hl, List.nil_append]
    · rfl

theorem flatMap_ink_dropEnd (ls : List Text) : (ls.reverse.dropWhile allBlank).reverse.flatMap ink = ls.flatMap ink := by
  obtain ⟨pre, hpre, hblank⟩ : ∃ pre, ls.reverse = pre ++ ls.reverse.dropWhile allBlank ∧ pre.flatMap ink = [] := by
    refine ⟨ls.reverse.takeWhile allBlank, List.takeWhile_append_dropWhile.symm, ?_⟩
    refine List.flatMap_eq_nil_iff.2 (fun l hl => ink_of_allBlank (List.all_eq_true.1 List.all_takeWhile l hl))
  have hls : ls = (ls.reverse.dropWhile allBlank).reverse ++ pre.reverse := by
    rw [← List.reverse_append, ← hpre, List.reverse_reverse]
  have hback : pre.reverse.flatMap ink = [] := by
    rw [List.flatMap_eq_nil_iff] at hblank ⊢
    exact fun l hl => hblank l (List.mem_reverse.1 hl)
  conv => rhs; rw [hls, List.flatMap_append, hback, List.append_nil]

@[simp] theorem ink_dedent (t : Text) : ink (dedent t) = ink t := by
  simp only [dedent, ink_unrows, List.flatMap_map, ink_dropPad (isPad_commonPad _)]
  rw [dropBlankEnds, flatMap_ink_dropEnd, flatMap_ink_dropWhile, ink_lines]

theorem flatMap_ink_indentLines (width : Int) : ∀ (ls : List Text) (depth : Nat),
    (indentLines width depth ls).flatMap ink = ls.flatMap ink
  | [], _ => rfl
  | raw :: ls, depth => by
    simp only [indentLines]
    split
    · rename_i h
      rw [List.flatMap_cons, List.flatMap_cons, flatMap_ink_indentLines width ls, ← ink_trimRight raw,
        List.isEmpty_iff.1 h]
    · rw [List.flatMap_cons, List.flatMap_cons, flatMap_ink_indentLines width ls]
      simp

@[simp] theorem ink_indentByBraces (t : Text) (width : Int) : ink (indentByBraces t width) = ink t := by
  rw [indentByBraces, ink_unrows, flatMap_ink_indentLines, ink_lines]

theorem ink_code (b : Block) : ink b.code = b.body.flatMap ink := by
  rw [Block.code, ink_dedent, ink_unrows]

theorem flatMap_ink_layOut (b : Block) (hbase : ink b.opening.base = []) (tidied : Text) :
    (b.layOut tidied).flatMap ink
      = ink (['<', '%'] ++ chomp b.opening.left) ++ ink tidied ++ ink (chomp b.right ++ ['%', '>']) := by
  have hinner : ((Text.lines (Text.dropEndWhile (· = '\n') tidied)).map (b.opening.base ++ ·)).flatMap ink
      = ink tidied := by
    simp only [List.flatMap_map, ink_append, hbase, List.nil_append]
    rw [ink_lines, ink_dropEndWhile (fun c hc => by rw [of_decide_eq_true hc]; rfl)]
  simp only [Block.layOut, List.cons_append, List.flatMap_cons, List.flatMap_append, hinner, ink_append, hbase,
    List.nil_append, List.flatMap_nil, List.append_nil, List.append_assoc]

/-- **Lines lose the ink that their blocks lose.** -/
theorem cut_blocks (hτ : τ.Cutting) (ls : List Text) :
    Cut (τ.blocks ls).flatten ls.flatten (∀ b ∈ finds Block.finder ls, ink (τ.block b.code) = ink b.code) := by
  induction ls using Block.block_induct with
  | nil => exact (Cut.of_ink rfl).congr rfl rfl (by simp [finds])
  | block line o body close right post hopen hclose hbody ih =>
    have hb : Cut (τ.block (Block.code ⟨o, body, right⟩)) (Block.code ⟨o, body, right⟩)
        (ink (τ.block (Block.code ⟨o, body, right⟩)) = ink (Block.code ⟨o, body, right⟩)) := ⟨hτ.block _, Iff.rfl⟩
    have h := (((Cut.of_ink (ink_opening hopen).1.symm).append hb).append (Cut.of_ink (ink_closing hclose).symm)).append ih
    refine h.congr ?_ ?_ ?_
    · rw [τ.blocks_block hopen hclose hbody, List.flatten_append, ink_append, ink_flatten, Treatment.blockLines,
        flatMap_ink_layOut _ (ink_opening hopen).2]
      simp only [ink_append]
    · simp only [List.flatten_cons, List.flatten_append, ink_append, ink_flatten, ink_code, List.append_assoc]
    · rw [Block.finds_block hopen hclose hbody, List.forall_mem_cons]
      simp
  | line line rest hl ih =>
    have h := (Cut.of_ink (Eq.refl (ink line))).append ih
    rw [τ.blocks_line hl, Block.finds_line hl]
    exact h.congr rfl rfl (by simp)

/-! ## Both passes -/

theorem Uncommented.of_mem_rows {source row : Text} (h : Uncommented source) (hr : row ∈ Text.rows (Eol.unify source)) :
    Uncommented row :=
  ⟨fun hi => h.1 (Eol.infix_of_infix_unify (by decide) (hi.trans (infix_of_mem_rows hr))),
    fun hi => h.2 (Eol.infix_of_infix_unify (by decide) (hi.trans (infix_of_mem_rows hr)))⟩

theorem ink_format (cfg : Config) (source : Text) :
    ink (τ.format cfg source) = ink (τ.blocks (Text.lines (τ.laid cfg source))).flatten := by
  have hend : ink (if (τ.laid cfg source).getLast? = some '\n' then ['\n'] else []) = [] := by split <;> simp
  rw [Treatment.format, ink_finish, Treatment.blockText, ink_append, ink_unrows, ink_flatten, hend, List.append_nil]

theorem ink_laid (cfg : Config) (source : Text) : ink (Text.lines (τ.laid cfg source)).flatten
    = ink (τ.rows cfg {} (Text.rows (Eol.unify source))).flatten := by
  rw [ink_flatten, ink_flatten, ink_lines, Treatment.laid, ink_unrows]

/-- **Formatting loses the ink that the treatment loses**, of the code in tags and directives and of the code of the
blocks. -/
theorem cut_format (hτ : τ.Cutting) {cfg : Config} (hn : cfg.normalizeDelimiters = true) {source : Text}
    (hu : Uncommented source) :
    Cut (τ.format cfg source) source
      ((∀ b ∈ finds Block.finder (Text.lines (τ.laid cfg source)), ink (τ.block b.code) = ink b.code) ∧
        ∀ c ∈ Place.codes {} (Text.rows (Eol.unify source)), ink (τ.code c.1 c.2) = ink c.2) := by
  have hrows := cut_rows hτ hn (Text.rows (Eol.unify source)) {} (fun _ hr => hu.of_mem_rows hr)
  have hblocks := cut_blocks hτ (Text.lines (τ.laid cfg source))
  refine Cut.trans (hblocks.congr (ink_format cfg source) (ink_laid cfg source).symm Iff.rfl)
    (hrows.congr (t := source) rfl ?_ Iff.rfl)
  rw [ink_flatten, ink_rows, ink_unify]

end EpFormat
