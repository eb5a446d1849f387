import EpFormat.Perl.Tidier
import EpFormat.Perl.Spacing

/-!
# Tidy — Perl statements, expressions and blocks through the tidier

A statement goes to the tidier as it is.  An expression or a block goes wrapped in `do` and braces, and is taken
out of the first pair of braces of the answer.  Statements and expressions come back on one line.
-/
namespace EpFormat.Perl

/-- Each run of spaces and tabs as one space. -/
def collapsePad (t : Text) : Text :=
  substitute (fun _ s =>
    match s.takeWhile isPad with
    | [] => none
    | ws => some ((), ws.length)) (fun _ => [' ']) t

def spaceIf (enable : Bool) (t : Text) : Text := if enable then spaceKeywords t else t

/-- What stands before the closing brace that matches; `depth` counts the braces opened since. -/
def beforeClosing : Text → Nat → Text → Option Text
  | _, _, [] => none
  | inner, depth, c :: rest =>
    -- a brace counts wherever it stands, in a literal or a comment too
    if c = '\x7b' then beforeClosing (c :: inner) (depth + 1) rest
    else if c = '\x7d' then
      match depth with
      | 0 => some inner.reverse
      | d + 1 => beforeClosing (c :: inner) d rest
    else beforeClosing (c :: inner) depth rest

/-- The inside of the first pair of braces. -/
def insideBraces? (t : Text) : Option Text :=
  match t.dropWhile (· != '\x7b') with
  | [] => none
  | _ :: rest => beforeClosing [] 0 rest

/-- A text on one line: the lines joined by a space, runs of spaces and tabs made one space, ends trimmed. -/
def onOneLine (ls : List Text) : Text := Text.trim (collapsePad (Text.join [' '] ls))

def tidyStatement (tidier : Tidier) (cfg : Config) (code : Text) : Tidying Text := do
  let answer ← runTidier tidier cfg code
  let out := if answer.code ≠ 0 then code else answer.out
  return spaceIf cfg.keywordSpacing (onOneLine (Text.lines (Text.trim out)))

/-- An expression, tidied on one line.  If the answer has no closed pair of braces the code stays. -/
def tidyExpression (tidier : Tidier) (cfg : Config) (code : Text) : Tidying Text := do
  let answer ← runTidier tidier cfg (txt "do \x7b " ++ code ++ txt " \x7d")
  if answer.code ≠ 0 then
    -- the code stays on its lines here; below it is put on one line even where the answer is of no use
    return spaceIf cfg.keywordSpacing (Text.trim code)
  let inner := (insideBraces? answer.out).getD (Text.trim code)
  return spaceIf cfg.keywordSpacing (onOneLine ((Text.lines inner).map Text.trim))

/-- A text without one line feed at its start and one at its end. -/
def dropOuterBreaks (t : Text) : Text :=
  let t := match t with
    | '\n' :: rest => rest
    | _ => t
  match t.reverse with
  | '\n' :: rest => rest.reverse
  | _ => t

/-- A block, tidied; none if the tidier fails or its answer has no closed pair of braces. -/
def tidyBlock (tidier : Tidier) (cfg : Config) (code : Text) : Tidying (Option Text) := do
  let answer ← runTidier tidier cfg (txt "do \x7b\n" ++ code ++ txt "\n\x7d")
  if answer.code ≠ 0 then
    return none
  return (insideBraces? answer.out).map dropOuterBreaks

end EpFormat.Perl
