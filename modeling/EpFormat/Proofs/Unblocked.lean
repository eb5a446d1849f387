import Mathlib.Data.List.TakeWhile
import EpFormat.Proofs.Block
import EpFormat.Proofs.Limit
import EpFormat.Proofs.Shift
/-!
# Unblocked — templates whose second pass finds nothing

Rows without a percent sign are written without the help of the tidier, and move no depth of Perl.  A row is written at
its level without the padding at its end; a blank one comes out empty (`dropTrailingPad_row`).  Where no row that is
written opens a block, the rows are the result (`gives_of_not_opening`).
-/
namespace EpFormat

open Perl Template

/-! ## Rows without Perl -/

theorem Template.Tag.scan_of_not_percent : ∀ {row : Text}, '%' ∉ row → scan Tag.finder row = row.map Piece.item
  | [], _ => rfl
  | c :: row, h => by
    have hclose : ¬ ['%', '>'] <:+: c :: row := fun hi => h (hi.subset List.mem_cons_self)
    rw [Tag.scan_char (Tag.read?_of_not_close hclose), scan_of_not_percent (fun hm => h (List.mem_cons_of_mem c hm))]
    rfl

section

variable {tidier : Tidier} {cfg : Config} {row : Text}

theorem Template.Tag.substitute_of_not_percent (f : Tag → Text) (h : '%' ∉ row) : substitute Tag.finder f row = row := by
  rw [substitute_eq, show scanFrom Tag.finder none = scan Tag.finder from rfl, Tag.scan_of_not_percent h, List.flatMap_map]
  exact List.flatMap_singleton' row

theorem Template.Tag.blankOut_of_not_percent (h : '%' ∉ row) : Tag.blankOut row = row :=
  Tag.substitute_of_not_percent _ h

theorem trimLeft_ne_percent (h : '%' ∉ row) : ∀ r, Text.trimLeft row ≠ '%' :: r := fun r hr =>
  h ((List.dropWhile_suffix isBlank).subset (by rw [show row.dropWhile isBlank = _ from hr]; exact List.mem_cons_self))

theorem shift_of_not_percent (h : '%' ∉ row) : Shift.ofLine row = ⟨0, 0⟩ := by
  have htag : insideTag? row = none := by
    unfold insideTag?
    split
    · rename_i rest hrest
      refine absurd ((List.dropWhile_suffix isBlank).subset ?_) h
      rw [hrest]
      simp
    · rfl
  have hend : isEndTag row = false := by rw [isEndTag, htag]
  have hbrace : isBraceTag row = false := by rw [isBraceTag, htag]
  have hline : isStatementLine row = false := by
    unfold isStatementLine
    cases hs : Text.startsWith ['<', '%'] (Text.trim row) with
    | false => simp [hs]
    | true =>
      have hin := (Text.startsWith_iff.1 hs).subset (show '%' ∈ ['<', '%'] by simp)
      exact absurd ((Text.trim_isInfix row).subset hin) h
  have hdir := trimLeft_ne_percent h
  rw [Shift.ofLine, Directive.read?_of_ne hdir, isEndDirective_of_ne hdir, leadingBraces_of_ne hdir, hend, hbrace, hline]
  rfl

theorem formatContent_of_not_percent (h : '%' ∉ row) (place : Place) :
    formatContent tidier cfg place row = pure row := by
  have hparts : (row.map Piece.item).mapM (Tag.formatPiece tidier cfg) = pure (row.map fun c => [c]) := by
    rw [List.mapM_map]
    exact List.mapM_pure
  unfold formatContent
  split
  · rfl
  · rw [Directive.read?_of_ne (trimLeft_ne_percent h)]
    simp only [Tag.formatAll, Tag.scan_of_not_percent h, hparts, pure_bind]
    rw [← List.flatMap_def, List.flatMap_singleton']

theorem Opening.read?_of_not_percent (h : '%' ∉ row) : Opening.read? row = none := by
  unfold Opening.read?
  split
  · rename_i rest hrest
    refine absurd ((List.dropWhile_suffix isPad).subset ?_) h
    rw [hrest]
    simp
  · rfl

end

/-! ## Texts without blocks -/

section

variable {tidier : Tidier} {cfg : Config}

theorem formatPieces_items : ∀ (ls : List Text) (first : Nat),
    Block.formatPieces tidier cfg first (ls.map Piece.item) = pure (ls.map fun l => [l])
  | [], _ => rfl
  | l :: ls, first => by
    rw [List.map_cons, Block.formatPieces, formatPieces_items ls]
    rfl

theorem blocksWithin_items : ∀ (ls : List Text) (done : List (List Text)) (first : Nat),
    blocksWithin tidier cfg done first (ls.map Piece.item) = pure (.ok (done.reverse ++ ls.map fun l => [l]))
  | [], done, _ => by simp [blocksWithin]
  | l :: ls, done, first => by
    rw [List.map_cons, blocksWithin, blocksWithin_items ls]
    simp

/-- **A template without blocks**: the rows as they are written are the result, unless one of them is too wide. -/
theorem gives_of_not_opening {source : Text} {written : List Text}
    (hw : Gives (formatRows tidier cfg [] {} (Text.rows (Eol.unify source))) written)
    (hline : ∀ r ∈ written, ∀ c ∈ r, isLineBreak c = false) (ho : ∀ r ∈ written, Opening.read? r = none) :
    Gives (format tidier cfg source) (finish cfg source (Text.unrows written)) ∧
      Gives (formatWithin tidier cfg source) (WidthError.unless (finish cfg source (Text.unrows written))
        (if cfg.usualWidth then none
          else (({} : Place).levels (Text.rows (Eol.unify source))).findSome? cfg.levelError?)) := by
  have hscan := Block.scan_of_not_opening (fun l hl => ho l (Text.mem_of_mem_lines_unrows hline hl))
  have hassemble : Block.assemble (Text.unrows written) ((Text.lines (Text.unrows written)).map fun l => [l])
      = Text.unrows written := by
    rw [Block.assemble, ← List.flatMap_def, List.flatMap_singleton', Text.unrows_lines hline]
  have hformat : Gives (format tidier cfg source) (finish cfg source (Text.unrows written)) := by
    refine hw.bind ?_
    rw [Block.formatAll, hscan, formatPieces_items, pure_bind, hassemble, pure_bind]
    exact Gives.pure _
  refine ⟨hformat, ?_⟩
  cases hu : cfg.usualWidth with
  | true =>
    rw [formatWithin, if_pos hu]
    exact hformat.bind (Gives.pure _)
  | false =>
    have hrow := wideRow?_snd cfg (Text.rows (Eol.unify source)) 0 {}
    rw [formatWithin, hu, ← hrow]
    simp only [Bool.false_eq_true, if_false]
    cases wideRow? cfg 0 {} (Text.rows (Eol.unify source)) with
    | some p => exact Gives.after (fun _ => Gives.pure _)
    | none =>
      refine hw.bind ?_
      rw [formatBlocksWithin, hu, hscan, blocksWithin_items]
      simp only [Bool.false_eq_true, if_false, pure_bind, List.reverse_nil, List.nil_append, hassemble]
      exact Gives.pure _

end

/-! ## A row at its level -/

theorem dropTrailingPad_of_blank {a : Text} (ha : ∀ c ∈ a, isPad c = true) : Text.dropTrailingPad a = [] := by
  rw [Text.dropTrailingPad, Text.dropEndWhile, List.reverse_eq_nil_iff]
  exact List.dropWhile_eq_nil_iff.2 (fun c hc => ha c (List.mem_reverse.1 hc))

theorem dropTrailingPad_of_trimmed {t : Text} (h : Text.trim t = t) : Text.dropTrailingPad t = t := by
  obtain ⟨-, hlast⟩ := Text.trimmed_iff.1 h
  rcases List.eq_nil_or_concat t with rfl | ⟨s, c, rfl⟩
  · rfl
  · have hc : isPad c = false := isPad_of_not_blank (hlast c (by simp))
    rw [List.concat_eq_append, Text.dropTrailingPad, Text.dropEndWhile, List.reverse_append]
    simp [hc]

theorem dropTrailingPad_append {t : Text} (h : ∃ c ∈ t, isPad c = false) (a : Text) :
    Text.dropTrailingPad (a ++ t) = a ++ Text.dropTrailingPad t := by
  obtain ⟨c, hc, hpad⟩ := h
  have hne : t.reverse.dropWhile isPad ≠ [] := fun hd => by
    have := List.dropWhile_eq_nil_iff.1 hd c (List.mem_reverse.2 hc)
    rw [hpad] at this
    cases this
  simp only [Text.dropTrailingPad, Text.dropEndWhile, List.reverse_append, List.dropWhile_append,
    List.isEmpty_eq_false_iff.2 hne]
  simp

theorem isPad_spaces (n : Int) : ∀ c ∈ Text.spaces n, isPad c = true := by
  intro c hc
  rw [List.eq_of_mem_replicate hc]
  rfl

theorem isPad_indentation (cfg : Config) (level : Nat) : ∀ c ∈ cfg.indentation level, isPad c = true := isPad_spaces _

/-- A row as it is written at a level: nothing if it is blank. -/
theorem dropTrailingPad_row (cfg : Config) (level : Nat) (t : Text) :
    Text.dropTrailingPad (cfg.indentation level ++ Text.trimLeft t)
      = if allBlank t then [] else cfg.indentation level ++ Text.dropTrailingPad (Text.trimLeft t) := by
  cases ht : Text.trimLeft t with
  | nil =>
    rw [if_pos (Text.trimLeft_eq_nil_iff.1 ht), List.append_nil, dropTrailingPad_of_blank (isPad_indentation cfg level)]
  | cons c r =>
    have hc := Text.isBlank_of_trimLeft ht
    have hblank : ¬ allBlank t = true := fun hb => by rw [Text.trimLeft_eq_nil_iff.2 hb] at ht; cases ht
    rw [if_neg hblank, dropTrailingPad_append ⟨c, List.mem_cons_self, isPad_of_not_blank hc⟩]

/-- Setting a text at a level adds nothing but spaces. -/
theorem mem_of_mem_level {cfg : Config} {level : Nat} {t : Text} {c : Char}
    (h : c ∈ Text.dropTrailingPad (cfg.indentation level ++ Text.trimLeft t)) : c = ' ' ∨ c ∈ t := by
  have hdrop := List.mem_reverse.1 ((List.dropWhile_suffix isPad).subset (List.mem_reverse.1 h))
  rcases List.mem_append.1 hdrop with hc | hc
  · exact Or.inl (List.eq_of_mem_replicate hc)
  · exact Or.inr ((List.dropWhile_suffix isBlank).subset hc)

end EpFormat
