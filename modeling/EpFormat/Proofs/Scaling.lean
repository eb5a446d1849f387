import EpFormat.Proofs.LineCount
import EpFormat.Proofs.Outline
/-!
# Scaling — one template at every width of indentation

A line of the result is an indentation of so many levels and its content.  Neither depends on the width: the levels of rows
come from the walk through the template, a block takes the indentation of its opening line as a whole, and its body is laid
out by braces after all other indentation has been trimmed away.  So lines at one width are the same lines at any other,
with as many levels each (`Scales`), and so is the result (`format_scales`).
-/
namespace EpFormat

open Template Template.Tag Perl Markup

/-! ## Lines at a level -/

/-- A line at a level: after its indentation there is nothing, or something that does not begin with white space. -/
structure LevelLine where
  level : Nat
  content : Text
  inked : ∀ c ∈ content.head?, isBlank c = false

namespace LevelLine

def empty : LevelLine := ⟨0, [], by simp⟩

def text (l : LevelLine) (width : Nat) : Text := Text.spaces (width * l.level) ++ l.content

def deeper (l : LevelLine) (levels : Nat) : LevelLine := { l with level := levels + l.level }

theorem text_deeper (l : LevelLine) (levels width : Nat) :
    (l.deeper levels).text width = Text.spaces (width * levels) ++ l.text width := by
  have hwidth : ((width : Int) * (levels + l.level : Nat)).toNat
      = (width * levels : Int).toNat + (width * l.level : Int).toNat := by
    rw [← Int.natCast_mul, ← Int.natCast_mul, ← Int.natCast_mul, Int.toNat_natCast, Int.toNat_natCast, Int.toNat_natCast,
      Nat.mul_add]
  rw [text, text, deeper, ← List.append_assoc, Text.spaces, Text.spaces, Text.spaces, List.replicate_append_replicate, hwidth]

@[simp] theorem text_zero (l : LevelLine) : l.text 0 = l.content := by
  simp [text, Text.spaces]

theorem trim_text (l : LevelLine) (width : Nat) : Text.trim (l.text width) = Text.trim l.content :=
  Text.trim_append_of_blank (allBlank_iff.2 (fun c hc => isBlank_of_isPad (isPad_spaces _ c hc))) _

theorem unbroken_text {l : LevelLine} (h : l.content.Unbroken) (width : Nat) : (l.text width).Unbroken := by
  refine List.forall_mem_append.2 ⟨fun c hc => ?_, h⟩
  rw [List.eq_of_mem_replicate hc]
  rfl

theorem takeWhile_content (l : LevelLine) : l.content.takeWhile isPad = [] := by
  obtain ⟨level, content, hink⟩ := l
  cases content with
  | nil => rfl
  | cons c t =>
    simp [isPad_of_not_blank (hink c rfl)]

theorem takeWhile_text (l : LevelLine) (width : Nat) : (l.text width).takeWhile isPad = Text.spaces (width * l.level) := by
  rw [text, List.takeWhile_append_of_pos (isPad_spaces _), takeWhile_content, List.append_nil]

theorem dropWhile_text (l : LevelLine) (width : Nat) : (l.text width).dropWhile isPad = l.content := by
  have hcontent := List.takeWhile_append_dropWhile (p := isPad) (l := l.content)
  rw [takeWhile_content, List.nil_append] at hcontent
  rw [text, List.dropWhile_append_of_pos (isPad_spaces _), hcontent]

/-- Whether a line opens a block depends on its content, and the block is then as deep as the line. -/
theorem read?_text (l : LevelLine) (width : Nat) : Opening.read? (l.text width)
    = (Opening.read? l.content).map (fun o => ⟨Text.spaces (width * l.level), o.left⟩) := by
  have hcontent := l.dropWhile_text 0
  rw [text_zero] at hcontent
  rw [Opening.read?, Opening.read?, dropWhile_text, takeWhile_text, hcontent]
  split
  · simp only
    split <;> rfl
  · rfl

theorem readClosing?_text (l : LevelLine) (width : Nat) : readClosing? (l.text width) = readClosing? l.content := by
  have hcontent := l.dropWhile_text 0
  rw [text_zero] at hcontent
  rw [readClosing?, readClosing?, dropWhile_text, hcontent]

/-- An empty line is at no level. -/
def Tight (l : LevelLine) : Prop := l.content = [] → l.level = 0

theorem isEmpty_text {l : LevelLine} (h : l.Tight) (width : Nat) : (l.text width).isEmpty = l.content.isEmpty := by
  cases hc : l.content with
  | nil => simp [text, hc, h hc, Text.spaces]
  | cons c t => simp [text, hc]

end LevelLine

/-- Lines that a width of indentation only moves. -/
def Scales (f : Nat → List Text) : Prop := ∃ ls : List LevelLine, ∀ width, f width = ls.map (·.text width)

namespace Scales

variable {f g : Nat → List Text}

theorem congr (h : ∀ width, f width = g width) (hg : Scales g) : Scales f := by
  obtain ⟨ls, hls⟩ := hg
  exact ⟨ls, fun width => (h width).trans (hls width)⟩

theorem nil : Scales (fun _ => []) := ⟨[], fun _ => rfl⟩

theorem cons (l : LevelLine) (h : Scales f) : Scales (fun width => l.text width :: f width) := by
  obtain ⟨ls, hls⟩ := h
  exact ⟨l :: ls, fun width => congrArg (l.text width :: ·) (hls width)⟩

theorem append (hf : Scales f) (hg : Scales g) : Scales (fun width => f width ++ g width) := by
  obtain ⟨ls, hls⟩ := hf
  obtain ⟨ks, hks⟩ := hg
  exact ⟨ls ++ ks, fun width => by simp only [hls, hks, List.map_append]⟩

/-- Lines that are set at a level stay in scale. -/
theorem indent (h : Scales f) (level : Nat) : Scales (fun width => (f width).map (Text.spaces (width * level) ++ ·)) := by
  obtain ⟨ls, hls⟩ := h
  refine ⟨ls.map (·.deeper level), fun width => ?_⟩
  simp only [hls, List.map_map]
  exact List.map_congr_left (fun l _ => (l.text_deeper level width).symm)

/-- **Lines laid out by braces.** -/
theorem indentLines : ∀ (ls : List Text) (depth : Nat), Scales (fun width => Perl.indentLines width depth ls)
  | [], _ => nil
  | l :: ls, depth => by
    have ih := indentLines ls (depth + (Text.trim l).count '\x7b' - (Text.trim l).count '\x7d')
    by_cases hl : Text.trim l = []
    · refine congr (fun width => ?_) (ih.cons .empty)
      rw [indentLines_cons, if_pos (List.isEmpty_iff.2 hl)]
      rfl
    · refine congr (fun width => ?_) (ih.cons ⟨depth - ((Text.trim l).takeWhile (· = '\x7d')).length, Text.trim l,
        (Text.trimmed_iff.1 (Text.trim_idem l)).1⟩)
      rw [indentLines_cons, if_neg (by simpa using hl), Int.mul_comm]
      rfl

end Scales

/-! ## Blocks -/

def Config.withWidth (cfg : Config) (width : Nat) : Config := { cfg with indentWidth := width }

/-- A block begins at a line exactly if one does at its content. -/
theorem finder_text (l : LevelLine) (ls : List LevelLine) (width : Nat) :
    Block.finder none ((l :: ls).map (·.text width)) = none ↔ Block.finder none ((l :: ls).map (·.content)) = none := by
  simp only [List.map_cons, Block.finder_eq_none_iff, List.forall_mem_map, LevelLine.read?_text, LevelLine.readClosing?_text,
    Option.map_eq_none_iff]

namespace Treatment

variable {cfg : Config}

/-- **One block**: its delimiters are at the level of its opening line, and its body from there on. -/
theorem scales_blockLines (level : Nat) (left right : Bool) {body : List LevelLine} (hu : ∀ l ∈ body, l.content.Unbroken) :
    Scales (fun width => (absent (cfg.withWidth width)).blockLines
      ⟨⟨Text.spaces (width * level), left⟩, body.map (·.text width), right⟩) := by
  have hopening : ∀ c ∈ ('<' :: '%' :: chomp left).head?, isBlank c = false := by
    rintro c ⟨⟩
    rfl
  have hclosing : ∀ c ∈ (chomp right ++ ['%', '>']).head?, isBlank c = false := by
    cases right <;> rintro c ⟨⟩ <;> rfl
  have hinner := (Scales.indentLines (dropBlankEnds (body.map (fun l => Text.trim l.content))) 0).indent level
  refine .congr (fun width => ?_) ((hinner.append (Scales.nil.cons ⟨level, chomp right ++ ['%', '>'], hclosing⟩)).cons
    ⟨level, '<' :: '%' :: chomp left, hopening⟩)
  -- The indentation of the body is trimmed away before it is laid out.
  have htrim : indentLines width 0 (dropBlankEnds (body.map (·.text width)))
      = indentLines width 0 (dropBlankEnds (body.map (fun l => Text.trim l.content))) := by
    rw [← indentLines_trim, ← dropBlankEnds_map_trim, List.map_map]
    simp only [Function.comp_def, LevelLine.trim_text]
  have hlines : ∀ l ∈ body.map (·.text width), l.Unbroken :=
    List.forall_mem_map.2 (fun l hl => LevelLine.unbroken_text (hu l hl) width)
  rw [blockLines_eq (lays_absent _) _ right hlines, Opening.inner, Opening.text, Opening.closing]
  simp only [List.append_assoc]
  rw [← htrim]
  rfl

/-- **All blocks**: where they begin and end is known from the contents of lines. -/
theorem scales_blocks (ls : List Text) : ∀ {lines : List LevelLine}, lines.map (·.content) = ls →
    (∀ l ∈ lines, l.content.Unbroken) →
      Scales (fun width => (absent (cfg.withWidth width)).blocks (lines.map (·.text width))) := by
  induction ls using Block.block_induct with
  | nil =>
    intro lines hls _
    rw [List.map_eq_nil_iff.1 hls]
    exact .nil
  | line l rest hl ih =>
    intro lines hls hu
    obtain ⟨first, more, rfl, rfl, rfl⟩ := List.map_eq_cons_iff.1 hls
    refine .congr (fun width => ?_) ((ih rfl (fun k hk => hu k (List.mem_cons_of_mem first hk))).cons first)
    exact blocks_line _ ((finder_text first more width).2 hl)
  | block l o body close right post hopen hclose hbody ih =>
    intro lines hls hu
    obtain ⟨first, more, rfl, rfl, hmore⟩ := List.map_eq_cons_iff.1 hls
    obtain ⟨inner, tail, rfl, rfl, htail⟩ := List.map_eq_append_iff.1 hmore
    obtain ⟨last, after, rfl, rfl, rfl⟩ := List.map_eq_cons_iff.1 htail
    have hlines := @scales_blockLines cfg first.level o.left right inner (fun k hk => hu k (by simp [hk]))
    refine .congr (fun width => ?_) (hlines.append (ih rfl (fun k hk => hu k (by simp [hk]))))
    have hopened : Opening.read? (first.text width) = some ⟨Text.spaces (width * first.level), o.left⟩ := by
      rw [LevelLine.read?_text, hopen]
      rfl
    rw [List.map_cons, List.map_append, List.map_cons,
      blocks_block _ hopened (by rw [LevelLine.readClosing?_text, hclose]) (List.forall_mem_map.2 (fun k hk => ?_))]
    rw [LevelLine.readClosing?_text]
    exact hbody _ (List.mem_map_of_mem hk)

/-! ## Rows -/

/-- **One row**: a level from the walk, and a content that no width has a part in. -/
theorem exists_levelLine {place : Place} (hplace : place.raw = none) (row : Text) : ∃ l : LevelLine, l.Tight ∧
    ∀ width, (absent (cfg.withWidth width)).row (cfg.withWidth width) place row = l.text width := by
  have hrow : ∀ width, (absent (cfg.withWidth width)).row (cfg.withWidth width) place row
      = if allBlank ((absent cfg).content cfg.normalizeDelimiters row) then [] else
        Text.spaces (width * (place.step row).1)
          ++ Text.dropTrailingPad (Text.trimLeft ((absent cfg).content cfg.normalizeDelimiters row)) := by
    intro width
    rw [row_eq hplace, dropTrailingPad_row]
    rfl
  generalize (absent cfg).content cfg.normalizeDelimiters row = t at hrow
  cases ht : Text.trimLeft t with
  | nil =>
    refine ⟨.empty, fun _ => rfl, fun width => ?_⟩
    rw [hrow, if_pos (Text.trimLeft_eq_nil_iff.1 ht)]
    simp [LevelLine.text, LevelLine.empty, Text.spaces]
  | cons c r =>
    have hc := Text.isBlank_of_trimLeft ht
    obtain ⟨s, hs⟩ := dropTrailingPad_cons (isPad_of_not_blank hc) r
    have hink : ∀ d ∈ (c :: s).head?, isBlank d = false := by
      rintro d ⟨⟩
      exact hc
    refine ⟨⟨(place.step row).1, c :: s, hink⟩, fun h => absurd h (List.cons_ne_nil c s), fun width => ?_⟩
    have hblank : ¬ allBlank t = true := fun hb => by rw [Text.trimLeft_eq_nil_iff.2 hb] at ht; cases ht
    rw [hrow, if_neg hblank, ht, hs]
    rfl

/-- **All rows**, where none opens a raw element. -/
theorem exists_levelLines : ∀ {rs : List Text}, (∀ r ∈ rs, rawOpen? (blankOut r) = none) → ∀ {place : Place},
    place.raw = none → ∃ ls : List LevelLine, (∀ l ∈ ls, l.Tight) ∧
      ∀ width, (absent (cfg.withWidth width)).rows (cfg.withWidth width) place rs = ls.map (·.text width)
  | [], _, _, _ => ⟨[], List.forall_mem_nil _, fun _ => rfl⟩
  | row :: rs, hraw, place, hplace => by
    obtain ⟨hrow, hrest⟩ := List.forall_mem_cons.1 hraw
    obtain ⟨l, hl, hline⟩ := @exists_levelLine cfg place hplace row
    obtain ⟨ls, hls, hlines⟩ := exists_levelLines hrest (Place.raw_walk hplace hrow)
    exact ⟨l :: ls, List.forall_mem_cons.2 ⟨hl, hls⟩, fun width => by rw [rows, hline, hlines, List.map_cons]⟩

/-- With line feeds as line ends, and rows without line breaks, the result is the lines of the second pass and a line feed. -/
theorem format_eq_of_lf {τ : Treatment} (hb : τ.Lays cfg) (he : cfg.eol = .lf) {source : Text}
    (hu : ∀ l ∈ τ.rows cfg {} (Text.rows (Eol.unify source)), l.Unbroken) :
    τ.format cfg source = Text.unrows (τ.blocks (Text.lines (τ.laid cfg source))) ++ ['\n'] := by
  have hreturn : '\r' ∉ Text.unrows (τ.blocks (Text.lines (τ.laid cfg source))) :=
    Text.return_not_mem_unrows (fun l hl => (unbroken_blocks hb unbroken_of_mem_lines l hl).return_not_mem)
  rw [format_eq hb hu, he, if_neg (by decide), Eol.apply, Eol.unify_of_not_mem (by simp [hreturn])]

end Treatment

/-- The lines of rows are rows at every width, since at every width the last one is empty or none is. -/
theorem exists_lines_unrows {rs : List LevelLine} (hne : rs ≠ []) (ht : ∀ l ∈ rs, l.Tight)
    (hu : ∀ l ∈ rs, l.content.Unbroken) : ∃ ls : List LevelLine, (∀ l ∈ ls, l.content.Unbroken) ∧
      ∀ width, Text.lines (Text.unrows (rs.map (·.text width))) = ls.map (·.text width) := by
  obtain ⟨ks, k, rfl⟩ := (List.eq_nil_or_concat rs).resolve_left hne
  rw [List.concat_eq_append] at ht hu
  refine ⟨ks ++ (if k.content.isEmpty then [] else [k]), fun l hl => hu l ?_, fun width => ?_⟩
  · rw [List.mem_append] at hl ⊢
    refine hl.imp id (fun hl => ?_)
    split at hl
    · cases hl
    · exact hl
  · rw [List.concat_eq_append, List.map_append, List.map_singleton,
      Text.lines_unrows (LevelLine.unbroken_text (hu k (by simp)) width)
        (List.forall_mem_map.2 (fun l hl => LevelLine.unbroken_text (hu l (by simp [hl])) width)),
      LevelLine.isEmpty_text (ht k (by simp)), List.map_append]
    split <;> rfl

/-- Lines put together, with a line feed at the end, are lines with a line feed each: where there is none, an empty one. -/
theorem exists_flatMap (ls : List LevelLine) : ∃ ks : List LevelLine, ∀ width,
    Text.unrows (ls.map (·.text width)) ++ ['\n'] = ks.flatMap (fun l => l.text width ++ ['\n']) := by
  by_cases hls : ls = []
  · subst hls
    refine ⟨[.empty], fun width => ?_⟩
    simp [LevelLine.text, LevelLine.empty, Text.spaces, Text.unrows, Text.join]
  · refine ⟨ls, fun width => ?_⟩
    rw [← Text.unrows_feed (by simpa using hls), Text.unrows_concat, List.append_nil, List.flatMap_map]

end EpFormat
