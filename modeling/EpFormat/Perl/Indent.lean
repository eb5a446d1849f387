import EpFormat.Text.Blank
import EpFormat.Text.Lines

/-!
# Indent — the indentation of a block of Perl

`dedent` takes away the indentation that all lines share; `indentByBraces` lays a block out by the depth of its
braces.
-/
namespace EpFormat.Perl

/-- The longest common beginning of two texts. -/
def commonStart : Text → Text → Text
  | a :: s, b :: t => if a = b then a :: commonStart s t else []
  | _, _ => []

def leadingPad (line : Text) : Text := line.takeWhile isPad

/-- The indentation that all lines share, blank lines left out; `so` is what the lines so far share. -/
def commonPadFrom : Option Text → List Text → Option Text
  | so, [] => so
  | so, line :: rest =>
    if allBlank line then commonPadFrom so rest
    else commonPadFrom (some (match so with
      | none => leadingPad line
      | some ws => commonStart ws (leadingPad line))) rest

def commonPad (ls : List Text) : Text := (commonPadFrom none ls).getD []

/-- The lines without the blank ones at both ends. -/
def dropBlankEnds (ls : List Text) : List Text :=
  ((ls.dropWhile allBlank).reverse.dropWhile allBlank).reverse

/-- A line without `ind` at its start; a line that does not start so stays. -/
def dropPad (ind line : Text) : Text := (Text.after? ind line).getD line

/-- A text without blank lines at its ends and without the indentation that its lines share. -/
def dedent (t : Text) : Text :=
  let ls := dropBlankEnds (Text.lines t)
  let ind := commonPad ls
  Text.unrows (ls.map (dropPad ind))

/-- The lines of a block laid out by braces, from the depth given: a line stands at the depth before it, less
the closing braces that begin it.  The depth never falls below zero. -/
def indentLines (width : Int) : Nat → List Text → List Text
  | _, [] => []
  | depth, raw :: rest =>
    let line := Text.trimRight raw
    if line.isEmpty then [] :: indentLines width depth rest
    else
      let shown := Text.trimLeft line
      let closing := (shown.takeWhile (· = '\x7d')).length
      (Text.spaces ((depth - closing : Nat) * width) ++ shown)
        :: indentLines width (depth + line.count '\x7b' - line.count '\x7d') rest

/-- A block laid out by the depth of its braces. -/
def indentByBraces (t : Text) (width : Int) : Text := Text.unrows (indentLines width 0 (Text.lines t))

end EpFormat.Perl
