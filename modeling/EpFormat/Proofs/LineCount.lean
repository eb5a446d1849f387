import Mathlib
import EpFormat.Proofs.Idempotence
import EpFormat.Proofs.Inline
import EpFormat.Proofs.Seam
/-!
# LineCount — one line for each line

The first pass writes one row for each line of a template.  The second pass cuts the rows into lines at every line break,
form feeds and line separators among them, and puts the lines together with line feeds.  So each such character in a row
makes one more line, and each blank line at an end of a block one less (`count_feed_format`).  Where no line of a template
opens a block, each line becomes one line exactly if no row that is written has a line break in it (`one_line_each_iff`).
-/
namespace EpFormat

open Template Template.Tag Perl

/-! ## Line ends and line breaks -/

namespace Text

/-- The number of line ends of a text: line feeds, and carriage returns that no line feed follows. -/
def lineEnds : Text → Nat
  | [] => 0
  | c :: t => lineEnds t + (if c = '\n' ∨ c = '\r' ∧ t.head? ≠ some '\n' then 1 else 0)

/-- After a carriage return the line feed of a pair has been counted already. -/
theorem count_feed_unifyAux : ∀ t : Text, (Eol.unifyAux [] false t).count '\n' = lineEnds t ∧
    (Eol.unifyAux [] true t).count '\n' + (if t.head? = some '\n' then 1 else 0) = lineEnds t
  | [] => ⟨rfl, rfl⟩
  | c :: t => by
    obtain ⟨hfalse, htrue⟩ := count_feed_unifyAux t
    by_cases hr : c = '\r'
    · subst hr
      rw [Eol.unifyAux_return, Eol.unifyAux_return, List.count_cons_self, lineEnds, ← htrue]
      by_cases hn : t.head? = some '\n' <;> simp [hn]
    by_cases hn : c = '\n'
    · subst hn
      rw [Eol.unifyAux_char (by decide) (Or.inr rfl), Eol.unifyAux_pair, List.count_cons_self, lineEnds, hfalse]
      simp
    · rw [Eol.unifyAux_char hr (Or.inl hn), Eol.unifyAux_char hr (Or.inl hn), List.count_cons_of_ne hn, lineEnds, hfalse]
      simp [hr, hn]

theorem count_feed_unify (t : Text) : (Eol.unify t).count '\n' = lineEnds t := (count_feed_unifyAux t).1

theorem countP_unrows {p : Char → Bool} (hp : p '\n' = true) : ∀ {rs : List Text}, rs ≠ [] →
    (unrows rs).countP p + 1 = (rs.map (List.countP p)).sum + rs.length
  | [], h => absurd rfl h
  | [r], _ => by simp [unrows, join]
  | r :: k :: rs, _ => by
    have ih := countP_unrows hp (List.cons_ne_nil k rs)
    rw [unrows_cons (List.cons_ne_nil k rs), List.countP_append, List.countP_cons_of_pos hp, List.map_cons, List.sum_cons,
      List.length_cons]
    omega

/-- Rows without line feeds, put together, have one line feed less than there are rows. -/
theorem count_feed_unrows {rs : List Text} (hne : rs ≠ []) (h : ∀ r ∈ rs, '\n' ∉ r) :
    (unrows rs).count '\n' + 1 = rs.length := by
  have hcount := countP_unrows (p := (· == '\n')) rfl hne
  have hzero : (rs.map (List.countP (· == '\n'))).sum = 0 :=
    List.sum_eq_zero_iff_forall_eq_nat.2 (List.forall_mem_map.2 (fun r hr => List.count_eq_zero.2 (h r hr)))
  rw [hzero, Nat.zero_add] at hcount
  exact hcount

theorem length_rows (t : Text) : (rows t).length = t.count '\n' + 1 := by
  have hcount := count_feed_unrows (rows_ne_nil t) (fun r hr => feed_not_mem_rows hr)
  rw [unrows_rows] at hcount
  exact hcount.symm

/-- **A text that ends with a line break has as many lines as line breaks**, if no carriage return makes a pair. -/
theorem length_lines {t : Text} (hr : '\r' ∉ t) (hend : ∀ c ∈ t.getLast?, isLineBreak c = true) :
    (lines t).length = t.countP isLineBreak := by
  induction t using lines_induct with
  | nil => rfl
  | last l hl hne =>
    have hlast := List.getLast?_eq_some_getLast hne
    have hbreak := hend _ hlast
    rw [hl _ (List.mem_of_getLast? hlast)] at hbreak
    cases hbreak
  | single l c rest hl hc hp ih =>
    have hrest : ∀ d ∈ rest.getLast?, isLineBreak d = true := by
      intro d hd
      refine hend d ?_
      rw [List.getLast?_append, List.getLast?_cons, Option.mem_def.1 hd]
      rfl
    have hzero : l.countP isLineBreak = 0 := List.countP_eq_zero.2 (fun d hd => by simp [hl d hd])
    rw [lines_break hl hc hp, List.length_cons, ih (fun hm => hr (by simp [hm])) hrest, List.countP_append, hzero,
      List.countP_cons_of_pos hc, Nat.zero_add]
  | pair l rest hl _ => exact absurd (by simp) hr

end Text

/-! ## The lines of the result -/

/-- The number of blank lines at the ends of the body of a block. -/
def Template.Block.blankEnds (b : Block) : Nat := (blankFront b.body).length + (blankBack b.body).length

namespace Treatment

variable {τ : Treatment} {cfg : Config}

theorem length_inner (o : Opening) (width : Int) (body : List Text) :
    (o.inner width body).length = (dropBlankEnds body).length := by
  have hlength := congrArg List.length (map_trim_indentLines width (dropBlankEnds body) 0)
  rw [List.length_map, List.length_map] at hlength
  rw [Opening.inner, List.length_map, hlength]

/-- **The second pass keeps every line** but the blank ones at the ends of blocks. -/
theorem length_blocks (hb : τ.Lays cfg) (ls : List Text) (hu : ∀ l ∈ ls, l.Unbroken) :
    (τ.blocks ls).length + ((finds Block.finder ls).map Block.blankEnds).sum = ls.length := by
  induction ls using Block.block_induct with
  | nil => rfl
  | line l rest hl ih =>
    have hrest := ih (fun k hk => hu k (List.mem_cons_of_mem l hk))
    rw [τ.blocks_line hl, Block.finds_line hl, List.length_cons, List.length_cons]
    omega
  | block l o body close right post hopen hclose hbody ih =>
    have hpost := ih (fun k hk => hu k (by simp [hk]))
    have hends := congrArg List.length (eq_dropBlankEnds body)
    rw [τ.blocks_block hopen hclose hbody, blockLines_eq hb o right (fun k hk => hu k (by simp [hk])),
      Block.finds_block hopen hclose hbody]
    simp only [List.length_append, List.length_cons, List.length_nil, length_inner, List.map_cons, List.sum_cons,
      Block.blankEnds] at hends ⊢
    omega

section

variable {source : Text} (hb : τ.Lays cfg) (he : cfg.eol = .lf) (hend : source.getLast? = some '\n')

include hb he hend

/-- With line feeds as line ends, the result is the lines of the second pass, each with a line feed. -/
theorem format_eq_unrows : τ.format cfg source = Text.unrows (τ.blocks (Text.lines (τ.laid cfg source)) ++ [[]]) := by
  have hlaid : (τ.laid cfg source).getLast? = some '\n' := getLast?_laid hend
  have hne := τ.blocks_ne_nil (Text.lines_ne_nil (List.ne_nil_of_mem (List.mem_of_getLast? hlaid)))
  have hunbroken := unbroken_blocks hb (unbroken_of_mem_lines (t := τ.laid cfg source))
  have hreturn : '\r' ∉ Text.unrows (τ.blocks (Text.lines (τ.laid cfg source)) ++ [[]]) :=
    Text.return_not_mem_unrows (List.forall_mem_append.2 ⟨fun l hl => (hunbroken l hl).return_not_mem, by simp⟩)
  have hfeed : (Text.unrows (τ.blocks (Text.lines (τ.laid cfg source)) ++ [[]])).getLast? = some '\n' := by
    rw [Text.unrows_feed hne, List.getLast?_concat]
  rw [format, blockText, if_pos hlaid, ← Text.unrows_feed hne, finish, he, if_neg (by decide), endLine, if_pos hfeed, Eol.apply,
    Eol.unify_of_not_mem hreturn]

theorem rows_format_eq : Text.rows (τ.format cfg source) = τ.blocks (Text.lines (τ.laid cfg source)) ++ [[]] := by
  rw [format_eq_unrows hb he hend]
  exact Text.rows_unrows (by simp) (fun l hl => (unbroken_blocks hb unbroken_of_mem_lines l hl).feed_not_mem)

theorem count_feed_format_eq : (τ.format cfg source).count '\n' = (τ.blocks (Text.lines (τ.laid cfg source))).length := by
  have hunbroken := unbroken_blocks hb (unbroken_of_mem_lines (t := τ.laid cfg source))
  have hcount := @Text.count_feed_unrows (τ.blocks (Text.lines (τ.laid cfg source)) ++ [[]]) (by simp)
    (List.forall_mem_append.2 ⟨fun l hl => (hunbroken l hl).feed_not_mem, by simp⟩)
  rw [List.length_append] at hcount
  rw [format_eq_unrows hb he hend]
  exact Nat.succ.inj hcount

end

section

variable {source : Text} (he : cfg.eol = .lf) (hend : source.getLast? = some '\n')

theorem return_not_mem_laid : '\r' ∉ (absent cfg).laid cfg source := by
  refine Text.return_not_mem_unrows (fun l hl hm => ?_)
  obtain ⟨r, hr, place, rfl⟩ := exists_of_mem_rows hl
  exact (mem_of_mem_rows_unify hr (noNewBreak_row place r _ hm (by decide))).2.2 rfl

include he hend

/-- **What becomes of the number of lines**: each line break in a row that is written adds one, and each blank line at an
end of a block takes one away. -/
theorem count_feed_format : ((absent cfg).format cfg source).count '\n'
      + ((finds Block.finder (Text.lines ((absent cfg).laid cfg source))).map Block.blankEnds).sum
    = source.lineEnds + (((absent cfg).rows cfg {} (Text.rows (Eol.unify source))).map (List.countP isLineBreak)).sum := by
  have hlaid := @Text.countP_unrows isLineBreak rfl ((absent cfg).rows cfg {} (Text.rows (Eol.unify source)))
    (rows_ne_nil (Text.rows_ne_nil (Eol.unify source)) {})
  rw [length_rows, Text.length_rows, Text.count_feed_unify, ← laid] at hlaid
  have hlines := Text.length_lines (@return_not_mem_laid cfg source) (fun c hc => by
    rw [getLast?_laid hend] at hc
    cases hc
    rfl)
  rw [count_feed_format_eq (lays_absent cfg) he hend, length_blocks (lays_absent cfg) _ unbroken_of_mem_lines, hlines]
  omega

/-- **The rows that are written are the lines of the result exactly if none has a line break in it**, where no row opens a
block. -/
theorem rows_format_eq_iff (hopen : ∀ r ∈ Text.rows (Eol.unify source), Opening.read? (Text.trim r) = none) :
    Text.rows ((absent cfg).format cfg source) = (absent cfg).rows cfg {} (Text.rows (Eol.unify source)) ↔
      ∀ r ∈ (absent cfg).rows cfg {} (Text.rows (Eol.unify source)), r.Unbroken := by
  rw [rows_format_eq (lays_absent cfg) he hend]
  constructor
  · intro h
    rw [← h]
    exact List.forall_mem_append.2 ⟨unbroken_blocks (lays_absent cfg) unbroken_of_mem_lines, by simp [Text.Unbroken]⟩
  · intro hu
    have hlines : ∀ l ∈ (absent cfg).rows cfg {} (Text.rows (Eol.unify source)), Opening.read? l = none := by
      intro l hl
      obtain ⟨r, hr, place, rfl⟩ := exists_of_mem_rows hl
      refine Option.eq_none_iff_forall_ne_some.2 (fun o ho => ?_)
      have hopened := hopen r hr
      rw [trim_of_opening_row ho, show '<' :: '%' :: chomp o.left = Opening.text ⟨[], o.left⟩ from rfl,
        Opening.read?_text _ (by simp)] at hopened
      cases hopened
    -- The last row is empty, and the second pass sees the ones before it.
    obtain ⟨rs, -, hrows, -⟩ := exists_rows_of_feed hend
    rw [laid]
    rw [hrows, rows_append, rows_empty] at hu hlines ⊢
    rw [Text.lines_unrows (by simp) (fun l hl => hu l (List.mem_append_left _ hl))]
    simp only [List.isEmpty_nil, if_true, List.append_nil]
    rw [blocks_of_not_opening (fun l hl => hlines l (List.mem_append_left _ hl))]

end
end Treatment

/-- Where all line breaks of a template are line ends, its rows have none. -/
theorem unbroken_rows_of_line_ends {source : Text} (h : ∀ c ∈ source, isLineBreak c = true → c = '\n' ∨ c = '\r') :
    ∀ r ∈ Text.rows (Eol.unify source), r.Unbroken := by
  intro r hr c hc
  obtain ⟨hmem, hfeed, hreturn⟩ := mem_of_mem_rows_unify hr hc
  cases hb : isLineBreak c with
  | false => rfl
  | true => exact absurd (h c hmem hb) (by simp [hfeed, hreturn])

/-- **Each line becomes one line, exactly if no row that is written has a line break in it**: for a template that ends with a
line feed, none of whose lines opens a block, with line feeds as line ends and without a tidier.  The line feeds of the result
are as many as the line ends of the template, and one more for each line break in a row that is written, less the blank lines
at the ends of blocks that come of them.  Where all line breaks of the template are line ends, there are none in the rows.
Within the widths of lines the text is the result, unless something is too wide; with a usual width nothing is. -/
theorem one_line_each_iff {tidier : Tidier} {cfg : Config} {source : Text} (ha : tidier.Unavailable cfg) (he : cfg.eol = .lf)
    (hend : source.getLast? = some '\n') (hopen : ∀ r ∈ Text.rows (Eol.unify source), Opening.read? (Text.trim r) = none)
    (s : Session) :
    let written := ((formatRows tidier cfg [] {} (Text.rows (Eol.unify source))).run s).1
    let out := ((format tidier cfg source).run s).1
    (Text.rows out = written ∧ out.count '\n' = source.lineEnds ↔ ∀ r ∈ written, r.Unbroken) ∧
      out.count '\n' + ((finds Block.finder (Text.lines (Text.unrows written))).map Block.blankEnds).sum
        = source.lineEnds + (written.map (List.countP isLineBreak)).sum ∧
      ((∀ c ∈ source, isLineBreak c = true → c = '\n' ∨ c = '\r') → ∀ r ∈ written, r.Unbroken) ∧
      ((formatWithin tidier cfg source).run s).1 = WidthError.unless out (tooWide? noReply cfg source) ∧
      (cfg.usualWidth = true → tooWide? noReply cfg source = none) := by
  intro written out
  have hwritten : written = (Treatment.absent cfg).rows cfg {} (Text.rows (Eol.unify source)) :=
    rows_gives ha.steady _ [] {} s
  have hout : out = (Treatment.absent cfg).format cfg source := format_gives ha.steady source s
  have hiff := Treatment.rows_format_eq_iff he hend hopen
  refine ⟨?_, ?_, fun hsource => ?_, ?_, fun hu => if_pos hu⟩
  · rw [hout, hwritten, ← hiff]
    refine and_iff_left_of_imp (fun hrows => ?_)
    -- As many rows as were written are as many as there were.
    have hlength := congrArg List.length hrows
    rw [Treatment.length_rows, Text.length_rows, Text.length_rows, Text.count_feed_unify] at hlength
    exact Nat.succ.inj hlength
  · rw [hout, hwritten]
    exact Treatment.count_feed_format he hend
  · rw [hwritten]
    refine Treatment.unbroken_rows {} (fun r hr c hc => ?_)
    obtain ⟨hmem, hfeed, hreturn⟩ := mem_of_mem_rows_unify hr hc
    cases hb : isLineBreak c with
    | false => rfl
    | true => exact absurd (hsource c hmem hb) (by simp [hfeed, hreturn])
  · rw [formatWithin_gives ha.steady source s, hout]
    rfl

/-- Pairs and lone carriage returns, and a form feed in a tag that does not come out. -/
theorem one_line_each_tag :
    let source := txt "<p>\r\n<%= $x\x0c%>\r</p>\n"
    let out := ((format Tidier.absent {} source).run {}).1
    out = txt "<p>\n  <%= $x %>\n</p>\n" ∧ Text.rows out = [txt "<p>", txt "  <%= $x %>", txt "</p>", []] ∧
      source.lineEnds = 3 ∧ out.count '\n' = source.lineEnds := by
  intro source out
  have hwritten : ((formatRows Tidier.absent {} [] {} (Text.rows (Eol.unify source))).run {}).1
      = [txt "<p>", txt "  <%= $x %>", txt "</p>", []] := by decide +kernel
  have heach := (@one_line_each_iff Tidier.absent {} source (Or.inr (fun _ _ => rfl)) rfl (by decide +kernel)
    (by decide +kernel) {}).1
  rw [hwritten] at heach
  obtain ⟨hrows, hcount⟩ := heach.2 (Text.forall_mem_rows_of_all (by decide +kernel))
  exact ⟨by decide +kernel, hrows, by decide +kernel, hcount⟩

/-- A form feed in a line makes two lines of it. -/
theorem form_feed_breaks_line :
    let source := txt "a\x0cb\n"
    (source.getLast? = some '\n' ∧ ∀ r ∈ Text.rows (Eol.unify source), Opening.read? (Text.trim r) = none) ∧
      ((formatWithin Tidier.absent {} source).run {}).1 = .ok (txt "a\nb\n") ∧
      (txt "a\nb\n").count '\n' = 2 ∧ source.lineEnds = 1 := by
  intro source
  have hout : ((format Tidier.absent {} source).run {}).1 = txt "a\nb\n" := by decide +kernel
  refine ⟨⟨by decide +kernel, by decide +kernel⟩, ?_, by decide +kernel, by decide +kernel⟩
  rw [formatWithin_usual (by decide +kernel), hout]

end EpFormat
