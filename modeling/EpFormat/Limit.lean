import EpFormat.Format

/-!
# Limit — widths that no line can have

A line has fewer than `2 ^ 63` characters, and far fewer fit into memory.  With a usual width of indentation no
level comes near that, and formatting never fails.  With a huge width, formatting stops at the first line whose
indentation is too wide; what was done before that stays done.
-/
namespace EpFormat

inductive WidthError
  | tooWide
  | outOfMemory
  deriving DecidableEq, Repr

def WidthError.message : WidthError → Text
  | tooWide => txt "cannot fit 'int' into an index-sized integer"
  | outOfMemory => []

/-- What is wrong with an indentation of `n` spaces. -/
def widthError? (n : Int) : Option WidthError :=
  -- a length is a signed number of 64 bits, and no memory holds `2 ^ 40` characters
  if Int.pow 2 63 ≤ n || n < -(Int.pow 2 63) then some .tooWide else if Int.pow 2 40 ≤ n then some .outOfMemory else none

/-- Whether every level that a text can reach may be indented by this width. -/
def Config.usualWidth (cfg : Config) : Bool := cfg.indentWidth.natAbs < Nat.pow 2 20

/-- The number of rows before the first one that is too wide, and what is wrong with it. -/
def wideRow? (cfg : Config) : Nat → Place → List Text → Option (Nat × WidthError)
  | _, _, [] => none
  | k, place, row :: rest =>
    let (level, next) := place.walk row
    match level.bind (fun l => widthError? (cfg.indentWidth * l)) with
    | some e => some (k, e)
    | none => wideRow? cfg (k + 1) next rest

/-- What is wrong with the first line that is too wide when a block is laid out by braces. -/
def wideLine? (width : Int) : Nat → List Text → Option WidthError
  | _, [] => none
  | depth, raw :: rest =>
    let line := Text.trimRight raw
    if line.isEmpty then wideLine? width depth rest
    else
      let closing := ((Text.trimLeft line).takeWhile (· = '\x7d')).length
      match widthError? ((depth - closing : Nat) * width) with
      | some e => some e
      | none => wideLine? width (depth + line.count '\x7b' - line.count '\x7d') rest

def indentWithin (t : Text) (width : Int) : Except WidthError Text :=
  match wideLine? width 0 (Text.lines t) with
  | some e => .error e
  | none => .ok (Perl.indentByBraces t width)

/-- Blocks formatted up to the first one that is too wide. -/
def blocksWithin (tidier : Perl.Tidier) (cfg : Config) :
    List (List Text) → Nat → List (Piece Text Template.Block) → Perl.Tidying (Except WidthError (List (List Text)))
  | done, _, [] => pure (.ok done.reverse)
  | done, first, .item line :: rest => blocksWithin tidier cfg ([line] :: done) (first + 1) rest
  | done, first, .hit b source :: rest => do
    match ← Perl.tidyBlock tidier cfg b.code with
    | some tidied =>
      modify (·.report (.blockTidied first (first + b.body.length + 1) (Text.lines tidied).length))
      blocksWithin tidier cfg (b.layOut tidied :: done) (first + source.length) rest
    | none =>
      modify (·.report (.blockIndented first (first + b.body.length + 1)))
      match indentWithin b.code cfg.indentWidth with
      | .error e => return .error e
      | .ok laid => blocksWithin tidier cfg (b.layOut laid :: done) (first + source.length) rest

def formatBlocksWithin (tidier : Perl.Tidier) (cfg : Config) (t : Text) : Perl.Tidying (Except WidthError Text) := do
  if cfg.usualWidth then
    return .ok (← Template.Block.formatAll tidier cfg t)
  else
    match ← blocksWithin tidier cfg [] 1 (scan Template.Block.finder (Text.lines t)) with
    | .error e => return .error e
    | .ok out => return .ok (Template.Block.assemble t out)

def formatWithin (tidier : Perl.Tidier) (cfg : Config) (source : Text) : Perl.Tidying (Except WidthError Text) := do
  if cfg.usualWidth then
    return .ok (← format tidier cfg source)
  else
    let rows := Text.rows (Eol.unify source)
    match wideRow? cfg 0 {} rows with
    | some (k, e) =>
      -- the rows before are lost, but not what the tidier was asked for them
      let _ ← formatRows tidier cfg [] {} (rows.take k)
      return .error e
    | none =>
      let written ← formatRows tidier cfg [] {} rows
      match ← formatBlocksWithin tidier cfg (Text.unrows written) with
      | .error e => return .error e
      | .ok laid => return .ok (finish cfg source laid)

end EpFormat
