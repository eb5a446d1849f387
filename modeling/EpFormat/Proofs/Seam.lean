import EpFormat.Proofs.Block
import EpFormat.Proofs.LineEnds
import EpFormat.Proofs.Rows
/-!
# Seam — one template after another

A template that ends where it began, with no element, no Perl block and no opening line left open, does not touch what
comes after it: formatting it together with another template is formatting them one by one (`formatWithin_append`).  Both
passes are cut at the line feed between the two: the rows (`laid_append`) and the blocks (`scan_append`).
-/
namespace EpFormat

open Perl Template

/-! ## Blocks on both sides of a seam -/

namespace Template.Block

/-- The opening lines that no closing line follows. -/
def unclosed (ls : List Text) : List Text :=
  ((scan finder ls).flatMap (Piece.put (fun _ => []))).filter (fun line => (Opening.read? line).isSome)

theorem unclosed_block {line close : Text} {opening : Opening} {right : Bool} {body : List Text}
    (hopen : Opening.read? line = some opening) (hclose : readClosing? close = some right)
    (hbody : ∀ l ∈ body, readClosing? l = none) (post : List Text) :
    unclosed (line :: (body ++ close :: post)) = unclosed post := by
  rw [unclosed, scan_block hopen hclose hbody]
  rfl

theorem unclosed_line {line : Text} {rest : List Text} (h : finder none (line :: rest) = none) :
    unclosed (line :: rest) = [line].filter (fun line => (Opening.read? line).isSome) ++ unclosed rest := by
  rw [unclosed, scan_line h, List.flatMap_cons, List.filter_append]
  rfl

/-- **Blocks do not reach over a seam** that no opening line before it is left open at. -/
theorem scan_append {a : List Text} (h : unclosed a = []) (b : List Text) :
    scan finder (a ++ b) = scan finder a ++ scan finder b := by
  induction a using block_induct with
  | nil => rfl
  | block line opening body close right post hopen hclose hbody ih =>
    rw [unclosed_block hopen hclose hbody] at h
    rw [List.cons_append, List.append_assoc, List.cons_append, scan_block hopen hclose hbody,
      scan_block hopen hclose hbody, ih h, List.cons_append]
  | line line rest hl ih =>
    rw [unclosed_line hl, List.append_eq_nil_iff, List.filter_eq_nil_iff] at h
    have hopen : Opening.read? line = none := by simpa using h.1
    have hl' : finder none (line :: (rest ++ b)) = none := finder_eq_none_iff.2 (Or.inl hopen)
    rw [List.cons_append, scan_line hl', scan_line hl, ih h.2, List.cons_append]

theorem finds_append {a : List Text} (h : unclosed a = []) (b : List Text) :
    finds finder (a ++ b) = finds finder a ++ finds finder b := by
  unfold finds
  rw [scan_append h, List.filterMap_append]

end Template.Block

/-! ## Rows on both sides of a seam -/

/-- The rows of a template that ends with a line feed: whatever comes after it takes the place of the last one, which is
empty. -/
theorem exists_rows_of_feed {a : Text} (ha : a.getLast? = some '\n') : ∃ rs, rs ≠ [] ∧
    Text.rows (Eol.unify a) = rs ++ [[]] ∧ ∀ b, Text.rows (Eol.unify (a ++ b)) = rs ++ Text.rows (Eol.unify b) := by
  obtain ⟨u, hu⟩ := List.getLast?_eq_some_iff.1 (Eol.getLast?_unify ha)
  refine ⟨Text.rows u, Text.rows_ne_nil u, ?_, fun b => ?_⟩
  · rw [hu, Text.rows_append, Text.rows_nil]
  · rw [Eol.unify_append ha, hu, List.append_assoc, List.singleton_append, Text.rows_append]

theorem Place.through_concat_nil (place : Place) (rs : List Text) : place.through (rs ++ [[]]) = place.through rs := by
  rw [Place.through_append, Place.through_cons, Place.walk_nil, Place.through_nil]

theorem Eol.apply_append (e : Eol) {x : Text} (hx : x.getLast? = some '\n') (y : Text) :
    e.apply (x ++ y) = e.apply x ++ e.apply y := by
  cases e with
  | lf => exact Eol.unify_append hx y
  | crlf =>
    unfold Eol.apply
    rw [Eol.unify_append hx]
    exact List.flatMap_append
  | preserve => rfl

namespace Treatment

variable {τ : Treatment} {cfg : Config} {a b : Text}

theorem getLast?_laid (ha : a.getLast? = some '\n') : (τ.laid cfg a).getLast? = some '\n' := by
  obtain ⟨rs, hne, hrows, -⟩ := exists_rows_of_feed ha
  rw [laid, hrows, rows_append, rows_empty, Text.unrows_feed (rows_ne_nil hne _), List.getLast?_append]
  rfl

/-- **The first pass of two templates is that of the one and that of the other.** -/
theorem laid_append (ha : a.getLast? = some '\n') (hplace : ({} : Place).through (Text.rows (Eol.unify a)) = {})
    (b : Text) : τ.laid cfg (a ++ b) = τ.laid cfg a ++ τ.laid cfg b := by
  obtain ⟨rs, -, hrows, happend⟩ := exists_rows_of_feed ha
  rw [hrows, Place.through_concat_nil] at hplace
  rw [laid, laid, laid, hrows, happend, rows_append, rows_append, hplace, rows_empty,
    Text.unrows_append _ (rows_ne_nil (Text.rows_ne_nil (Eol.unify b)) _)]

theorem getLast?_blockText {x : Text} (hx : x.getLast? = some '\n') : (τ.blockText x).getLast? = some '\n' := by
  rw [blockText, if_pos hx, List.getLast?_append]
  rfl

/-- **The blocks of two texts are those of the one and those of the other.** -/
theorem blockText_append {x y : Text} (hx : x.getLast? = some '\n') (hy : y.getLast? = some '\n')
    (hclosed : Block.unclosed (Text.lines x) = []) : τ.blockText (x ++ y) = τ.blockText x ++ τ.blockText y := by
  have hxy : (x ++ y).getLast? = some '\n' := by rw [List.getLast?_append, hy]; rfl
  have hblocks : τ.blocks (Text.lines x ++ Text.lines y) = τ.blocks (Text.lines x) ++ τ.blocks (Text.lines y) := by
    unfold blocks
    rw [Block.scan_append hclosed, List.flatMap_append]
  have hne : ∀ {z : Text}, z.getLast? = some '\n' → τ.blocks (Text.lines z) ≠ [] := fun hz =>
    τ.blocks_ne_nil (Text.lines_ne_nil (List.ne_nil_of_mem (List.mem_of_getLast? hz)))
  rw [blockText, blockText, blockText, if_pos hxy, if_pos hx, if_pos hy, Text.lines_append hx, hblocks,
    Text.unrows_append _ (hne hy), Text.unrows_feed (hne hx), List.append_assoc]

theorem format_append (he : cfg.eol ≠ .preserve) (ha : a.getLast? = some '\n') (hb : b.getLast? = some '\n')
    (hplace : ({} : Place).through (Text.rows (Eol.unify a)) = {})
    (hclosed : Block.unclosed (Text.lines (τ.laid cfg a)) = []) :
    τ.format cfg (a ++ b) = τ.format cfg a ++ τ.format cfg b := by
  have hend {t : Text} (ht : t.getLast? = some '\n') :
      τ.format cfg t = cfg.eol.apply (τ.blockText (τ.laid cfg t)) := by
    rw [format, finish, if_neg he, endLine, if_pos (getLast?_blockText (getLast?_laid ht))]
  have hab : (a ++ b).getLast? = some '\n' := by rw [List.getLast?_append, hb]; rfl
  rw [hend ha, hend hb, hend hab, laid_append ha hplace, blockText_append (getLast?_laid ha) (getLast?_laid hb) hclosed,
    Eol.apply_append _ (getLast?_blockText (getLast?_laid ha))]

end Treatment

/-! ## The law -/

/-- Two templates are too wide where the one is, or else where the other is. -/
theorem tooWide?_append {reply : Text → Int × Text} {cfg : Config} {a : Text} (ha : a.getLast? = some '\n')
    (hplace : ({} : Place).through (Text.rows (Eol.unify a)) = {})
    (hclosed : Block.unclosed (Text.lines ((Treatment.ofReply reply cfg).laid cfg a)) = []) (b : Text) :
    (tooWide? reply cfg a = none → tooWide? reply cfg (a ++ b) = tooWide? reply cfg b) ∧
      (tooWide? reply cfg (a ++ b) = none → tooWide? reply cfg a = none) := by
  unfold tooWide?
  by_cases hw : cfg.usualWidth = true
  · simp only [if_pos hw, implies_true, and_self]
  rw [if_neg hw, if_neg hw, if_neg hw, Treatment.laid_append ha hplace, Text.lines_append (Treatment.getLast?_laid ha),
    Block.finds_append hclosed]
  obtain ⟨rs, -, hrows, happend⟩ := exists_rows_of_feed ha
  rw [hrows, Place.through_concat_nil] at hplace
  -- The empty row after the first template is at the margin, so it is not too wide.
  have hlevels : ({} : Place).levels [[]] = [some 0] := by
    rw [Place.levels, Place.walk_nil]
    rfl
  have hmargin : cfg.levelError? (some 0) = none := by
    change widthError? (cfg.indentWidth * 0) = none
    rw [Int.mul_zero]
    rfl
  rw [happend, hrows, Place.levels_append, Place.levels_append, hplace, hlevels]
  simp only [List.findSome?_append, List.findSome?_singleton, hmargin, Option.or_eq_none_iff, and_true]
  constructor
  · rintro ⟨hrow, hblock⟩
    rw [hrow, hblock, Option.none_or, Option.none_or]
  · rintro ⟨⟨hrow, -⟩, hblock, -⟩
    exact ⟨hrow, hblock⟩

/-- **Formatting is local.**  After a template whose first pass ends at the place where it began, and whose second pass
leaves no opening line without a closing one, another template is formatted as if it stood alone: where the one has a
result, the result of both is that with the result of the other after it, and if the other has none they have none, for
the same reason.  Where the one has no result they have none.  With a usual width there is a result. -/
theorem formatWithin_append {tidier : Tidier} {cfg : Config} (h : tidier.Functional) (he : cfg.eol ≠ .preserve)
    {a b : Text} (ha : a.getLast? = some '\n') (hb : b.getLast? = some '\n')
    (hplace : ({} : Place).through (Text.rows (Eol.unify a)) = {}) {s₀ : Session}
    (hclosed : Block.unclosed (Text.lines (Text.unrows
      ((formatRows tidier cfg [] {} (Text.rows (Eol.unify a))).run s₀).1)) = []) (s s₁ s₂ : Session) :
    (∀ x, ((formatWithin tidier cfg a).run s₁).1 = .ok x →
        ((formatWithin tidier cfg (a ++ b)).run s).1 = ((formatWithin tidier cfg b).run s₂).1.map (x ++ ·)) ∧
      (∀ out, ((formatWithin tidier cfg (a ++ b)).run s).1 = .ok out → ∃ x, ((formatWithin tidier cfg a).run s₁).1 = .ok x) ∧
      (cfg.usualWidth = true → ∃ out, ((formatWithin tidier cfg (a ++ b)).run s).1 = .ok out) := by
  have hsteady := h.steady cfg
  rw [rows_gives hsteady _ [] {} s₀, List.reverse_nil, List.nil_append, ← Treatment.laid] at hclosed
  obtain ⟨hnarrow, hwide⟩ := tooWide?_append ha hplace hclosed b
  rw [formatWithin_gives hsteady a s₁, formatWithin_gives hsteady b s₂, formatWithin_gives hsteady (a ++ b) s]
  refine ⟨fun x hx => ?_, fun out hout => ?_, fun hw => ?_⟩
  · obtain ⟨hnone, rfl⟩ := WidthError.unless_eq_ok_iff.1 hx
    rw [hnarrow hnone, Treatment.format_append he ha hb hplace hclosed]
    cases tooWide? _ cfg b <;> rfl
  · exact ⟨_, WidthError.unless_eq_ok_iff.2 ⟨hwide (WidthError.unless_eq_ok_iff.1 hout).1, rfl⟩⟩
  · exact ⟨_, WidthError.unless_eq_ok_iff.2 ⟨if_pos hw, rfl⟩⟩

/-- A list with a block after it, and a page that leaves an element, a Perl block and an opening line open. -/
theorem formatWithin_append_open :
    let tidier := Tidier.echo (some (txt "perltidy"))
    let cfg : Config := { indentWidth := 4 }
    let a := txt "<ul>\r\n% for (1..3) \x7b\n<li><%=$_%></li>\n%\x7d\n</ul>\n<%\n  f();\n%>\n"
    let b := txt "<div>\n% if (1) \x7b\n<pre>\n<%\n"
    ∃ x y, ((formatWithin tidier cfg a).run {}).1 = .ok x ∧ ((formatWithin tidier cfg b).run {}).1 = .ok y ∧
      ((formatWithin tidier cfg (a ++ b)).run {}).1 = .ok (x ++ y) := by
  intro tidier cfg a b
  have hb := @formatWithin_usual tidier cfg (by decide) b {}
  obtain ⟨happend, hfirst, hresult⟩ := @formatWithin_append tidier cfg (fun _ _ => rfl) (by decide) a b (by decide) (by decide)
    (by decide +kernel) {} (by decide +kernel) {} {} {}
  obtain ⟨out, hout⟩ := hresult (by decide)
  obtain ⟨x, hx⟩ := hfirst out hout
  exact ⟨x, _, hx, hb, by rw [happend x hx, hb]; rfl⟩

end EpFormat
