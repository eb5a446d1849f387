import EpFormat.Proofs.LineCount
import EpFormat.Proofs.Outline
/-!
# TrailingPad — spaces and tabs at the ends of lines

The first pass takes spaces and tabs from the end of every row that it sets at a level.  The second pass sets the lines of a
block at the indentation of its opening line, a blank one too, which is then nothing but that indentation.  So no line of
the result ends with a space or a tab exactly if none outside of blocks did, and no block that is indented has a blank line
between the lines of its body (`no_trailing_pad_iff`).
-/
namespace EpFormat

open Template Template.Tag Perl Markup

/-! ## Texts that end with padding -/

namespace Text

def endsPad (t : Text) : Bool := t.getLast?.any isPad

theorem endsPad_append {t : Text} (h : t ≠ []) (a : Text) : endsPad (a ++ t) = endsPad t := by
  rw [endsPad, endsPad, List.getLast?_append_of_ne_nil a h]

theorem endsPad_of_pad {t : Text} (h : ∀ c ∈ t, isPad c = true) : endsPad t = false ↔ t = [] := by
  rcases List.eq_nil_or_concat t with rfl | ⟨s, c, rfl⟩
  · simp [endsPad]
  · have hc := h c (by simp)
    simp [endsPad, hc]

theorem endsPad_dropTrailingPad (t : Text) : endsPad (dropTrailingPad t) = false := by
  have hstop := List.head?_dropWhile_not isPad t.reverse
  rw [endsPad, dropTrailingPad, dropEndWhile, List.getLast?_reverse]
  cases hd : (t.reverse.dropWhile isPad).head? with
  | none => rfl
  | some c =>
    rw [hd] at hstop
    exact hstop

theorem endsPad_trim (t : Text) : endsPad (trim t) = false := by
  rw [← dropTrailingPad_of_trimmed (trim_idem t)]
  exact endsPad_dropTrailingPad (trim t)

end Text

/-! ## The lines of blocks -/

/-- A line that the second pass sees, without padding at its end; or a block that is not indented, or has no blank line
between the lines of its body. -/
def PadFree : Piece Text Block → Prop
  | .item l => l.endsPad = false
  | .hit b _ => b.opening.base = [] ∨ ∀ l ∈ dropBlankEnds b.body, allBlank l = false

/-- Of lines laid out by braces, and set at an indentation, the blank ones end with it. -/
theorem endsPad_indentLines {base : Text} (hb : ∀ c ∈ base, isPad c = true) (width : Int) : ∀ (ls : List Text) (depth : Nat),
    (∀ l ∈ (indentLines width depth ls).map (base ++ ·), l.endsPad = false) ↔ base = [] ∨ ∀ l ∈ ls, allBlank l = false
  | [], _ => by simp [indentLines]
  | l :: ls, depth => by
    rw [indentLines_cons, List.map_cons, List.forall_mem_cons, List.forall_mem_cons, endsPad_indentLines hb width ls]
    cases hl : allBlank l with
    | true =>
      rw [Text.trim_eq_nil_iff.2 hl, List.isEmpty_nil, if_pos rfl, List.append_nil, Text.endsPad_of_pad hb]
      constructor
      · exact fun h => Or.inl h.1
      · rintro (h | ⟨h, -⟩)
        · exact ⟨h, Or.inl h⟩
        · cases h
    | false =>
      have hne : Text.trim l ≠ [] := fun h => by
        rw [Text.trim_eq_nil_iff.1 h] at hl
        cases hl
      rw [if_neg (by simpa using hne), ← List.append_assoc, Text.endsPad_append hne, Text.endsPad_trim]
      simp

namespace Treatment

variable {τ : Treatment} {cfg : Config}

theorem endsPad_blockLines (hb : τ.Lays cfg) {o : Opening} (hbase : ∀ c ∈ o.base, isPad c = true) (right : Bool)
    {body : List Text} (hu : ∀ l ∈ body, l.Unbroken) (source : List Text) :
    (∀ l ∈ τ.blockLines ⟨o, body, right⟩, l.endsPad = false) ↔ PadFree (.hit ⟨o, body, right⟩ source) := by
  have htext : o.text.endsPad = false := by
    rw [Opening.text, List.append_assoc, Text.endsPad_append (by simp)]
    cases o.left <;> decide
  have hclosing : (o.closing right).endsPad = false := by
    rw [Opening.closing, Text.endsPad_append (by simp)]
    decide
  rw [blockLines_eq hb o right hu, List.forall_mem_cons, List.forall_mem_append, List.forall_mem_singleton, Opening.inner,
    endsPad_indentLines hbase]
  simp only [htext, hclosing, true_and, and_true]
  rfl

/-- **The lines of the second pass end without padding exactly if its pieces do.** -/
theorem endsPad_blocks_iff (hb : τ.Lays cfg) (ls : List Text) (hu : ∀ l ∈ ls, l.Unbroken) :
    (∀ l ∈ τ.blocks ls, l.endsPad = false) ↔ ∀ p ∈ scan Block.finder ls, PadFree p := by
  induction ls using Block.block_induct with
  | nil => exact ⟨fun _ => List.forall_mem_nil _, fun _ => List.forall_mem_nil _⟩
  | line l rest hl ih =>
    rw [τ.blocks_line hl, Block.scan_line hl, List.forall_mem_cons, List.forall_mem_cons,
      ih (fun k hk => hu k (List.mem_cons_of_mem l hk))]
    rfl
  | block l o body close right post hopen hclose hbody ih =>
    rw [τ.blocks_block hopen hclose hbody, Block.scan_block hopen hclose hbody, List.forall_mem_append, List.forall_mem_cons,
      ih (fun k hk => hu k (by simp [hk])),
      endsPad_blockLines hb (Opening.trim_of_read? hopen).1 right (fun k hk => hu k (by simp [hk]))]

/-- The text of the second pass with a line feed at its end is its lines and empty ones. -/
theorem exists_endLine_blockText (t : Text) :
    ∃ n, τ.blocks (Text.lines t) ++ List.replicate n [] ≠ [] ∧
      endLine (τ.blockText t) = Text.unrows (τ.blocks (Text.lines t) ++ List.replicate n []) := by
  cases t with
  | nil => exact ⟨2, by simp, rfl⟩
  | cons c t =>
    have hne := τ.blocks_ne_nil (Text.lines_ne_nil (List.cons_ne_nil c t))
    have hfeed : ∃ n, endLine (τ.blockText (c :: t)) = Text.unrows (τ.blocks (Text.lines (c :: t)) ++ List.replicate n []) := by
      rw [blockText]
      split
      · refine ⟨1, ?_⟩
        rw [endLine, if_pos (List.getLast?_concat), List.replicate_one, Text.unrows_feed hne]
      · rw [List.append_nil, endLine]
        split
        · exact ⟨0, by rw [List.replicate_zero, List.append_nil]⟩
        · exact ⟨1, by rw [List.replicate_one, Text.unrows_feed hne]⟩
    obtain ⟨n, hn⟩ := hfeed
    exact ⟨n, List.append_ne_nil_of_left_ne_nil hne _, hn⟩

/-- With line feeds as line ends, the rows of the result are the lines of the second pass and empty ones. -/
theorem exists_rows_format (hb : τ.Lays cfg) (he : cfg.eol = .lf) (source : Text) :
    ∃ n, Text.rows (τ.format cfg source) = τ.blocks (Text.lines (τ.laid cfg source)) ++ List.replicate n [] := by
  obtain ⟨n, hne, hend⟩ := τ.exists_endLine_blockText (τ.laid cfg source)
  have hunbroken : ∀ l ∈ τ.blocks (Text.lines (τ.laid cfg source)) ++ List.replicate n [], l.Unbroken := by
    refine List.forall_mem_append.2 ⟨unbroken_blocks hb unbroken_of_mem_lines, fun l hl => ?_⟩
    rw [List.eq_of_mem_replicate hl]
    exact List.forall_mem_nil _
  refine ⟨n, ?_⟩
  rw [format, finish, he, if_neg (by decide), hend, Eol.apply,
    Eol.unify_of_not_mem (Text.return_not_mem_unrows (fun l hl => (hunbroken l hl).return_not_mem))]
  generalize τ.blocks (Text.lines (τ.laid cfg source)) ++ List.replicate n [] = rs at hne hunbroken
  obtain ⟨ks, k, hrs⟩ := (List.eq_nil_or_concat rs).resolve_left hne
  rw [List.concat_eq_append] at hrs
  rw [hrs] at hunbroken ⊢
  exact Text.rows_unrows (hunbroken k (by simp)).feed_not_mem (fun l hl => (hunbroken l (by simp [hl])).feed_not_mem)

theorem endsPad_rows {rs : List Text} (hraw : ∀ r ∈ rs, rawOpen? (blankOut r) = none) :
    ∀ l ∈ τ.rows cfg {} rs, l.endsPad = false := by
  refine forall_rows (fun row hrow place hplace => ⟨Place.raw_walk hplace (hraw row hrow), ?_⟩) rfl
  rw [row_eq hplace]
  exact Text.endsPad_dropTrailingPad _

end Treatment

/-- **No line of the result ends with a space or a tab exactly if none outside of blocks does, and no block that is indented has
a blank line between the lines of its body**, as the rows that were written are seen by the second pass, with line feeds as
line ends and without a tidier.  Where no row opens a raw element, and all line breaks of the template are line ends, no line
that was written ends so, and only such blocks are in the way.  Within the widths of lines the text is the result, unless
something is too wide; with a usual width nothing is. -/
theorem no_trailing_pad_iff {tidier : Tidier} {cfg : Config} (ha : tidier.Unavailable cfg) (he : cfg.eol = .lf) (source : Text)
    (s : Session) :
    let written := ((formatRows tidier cfg [] {} (Text.rows (Eol.unify source))).run s).1
    let out := ((format tidier cfg source).run s).1
    ((∀ r ∈ Text.rows out, r.endsPad = false) ↔ ∀ p ∈ scan Block.finder (Text.lines (Text.unrows written)), PadFree p) ∧
      ((∀ r ∈ Text.rows (Eol.unify source), rawOpen? (blankOut r) = none) →
        (∀ c ∈ source, isLineBreak c = true → c = '\n' ∨ c = '\r') →
          ∀ l ∈ Text.lines (Text.unrows written), l.endsPad = false) ∧
      ((formatWithin tidier cfg source).run s).1 = WidthError.unless out (tooWide? noReply cfg source) ∧
      (cfg.usualWidth = true → tooWide? noReply cfg source = none) := by
  intro written out
  have hwritten : written = (Treatment.absent cfg).rows cfg {} (Text.rows (Eol.unify source)) :=
    rows_gives ha.steady _ [] {} s
  have hout : out = (Treatment.absent cfg).format cfg source := format_gives ha.steady source s
  refine ⟨?_, fun hraw hsource l hl => ?_, ?_, fun hu => if_pos hu⟩
  · obtain ⟨n, hrows⟩ := Treatment.exists_rows_format (lays_absent cfg) he source
    have hempty : ∀ r ∈ List.replicate n ([] : Text), Text.endsPad r = false := fun r hr => by
      rw [List.eq_of_mem_replicate hr]
      rfl
    rw [hout, hwritten, hrows, List.forall_mem_append, and_iff_left hempty]
    exact Treatment.endsPad_blocks_iff (lays_absent cfg) _ unbroken_of_mem_lines
  · rw [hwritten] at hl
    have hunbroken := @Treatment.unbroken_rows cfg {} _ (unbroken_rows_of_line_ends hsource)
    exact Treatment.endsPad_rows hraw l (Text.mem_of_mem_lines_unrows hunbroken hl)
  · rw [formatWithin_gives ha.steady source s, hout]
    rfl

/-- A blank line in a block that is not indented, and blank lines at the ends of one that is. -/
theorem no_trailing_pad_blocks :
    let source := txt "<%\na\n \nb\n%> \n<p>\n<%\n\n c\t\n\t\n%>\n</p>"
    let out := ((format Tidier.absent {} source).run {}).1
    out = txt "<%\na\n\nb\n%>\n<p>\n  <%\n  c\n  %>\n</p>\n" ∧ ∀ r ∈ Text.rows out, r.endsPad = false := by
  intro source out
  have hwritten : ((formatRows Tidier.absent {} [] {} (Text.rows (Eol.unify source))).run {}).1
      = [txt "<%", txt "a", [], txt "b", txt "% >", txt "<p>", txt "  <%", [], txt "  c", [], txt "  % >", txt "</p>"] := by
    decide +kernel
  have hiff := (@no_trailing_pad_iff Tidier.absent {} (Or.inr (fun _ _ => rfl)) rfl source {}).1
  rw [hwritten] at hiff
  have hscan : scan Block.finder (Text.lines (Text.unrows [txt "<%", txt "a", [], txt "b", txt "% >", txt "<p>", txt "  <%", [],
        txt "  c", [], txt "  % >", txt "</p>"]))
      = [.hit ⟨⟨[], false⟩, [txt "a", [], txt "b"], false⟩ [txt "<%", txt "a", [], txt "b", txt "% >"], .item (txt "<p>"),
        .hit ⟨⟨txt "  ", false⟩, [[], txt "  c", []], false⟩ [txt "  <%", [], txt "  c", [], txt "  % >"],
        .item (txt "</p>")] := by
    rfl
  rw [hscan] at hiff
  refine ⟨by decide +kernel, hiff.2 ?_⟩
  simp only [List.forall_mem_cons, PadFree]
  exact ⟨Or.inl trivial, by decide, Or.inr (by decide), by decide, List.forall_mem_nil _⟩

/-- A blank line in a block that is indented ends with the indentation. -/
theorem blank_line_padded :
    let source := txt "<div>\n<%\na\n\nb\n%>\n</div>\n"
    (∀ r ∈ Text.rows (Eol.unify source), rawOpen? r = none) ∧
      ((formatWithin Tidier.absent {} source).run {}).1 = .ok (txt "<div>\n  <%\n  a\n  \n  b\n  %>\n</div>\n") ∧
      (Text.rows (txt "<div>\n  <%\n  a\n  \n  b\n  %>\n</div>\n")).filter Text.endsPad = [txt "  "] := by
  intro source
  refine ⟨by decide +kernel, ?_, by decide +kernel⟩
  rw [formatWithin_usual (by decide)]
  exact congrArg Except.ok (by decide +kernel)

end EpFormat
