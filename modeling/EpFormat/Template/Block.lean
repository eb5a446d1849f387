import EpFormat.Perl.Indent
import EpFormat.Template.Depth

/-!
# Block — Perl blocks with delimiters on lines of their own

A block begins at a line with `<%` alone and ends at the first later line with `%>` alone.  Its code is dedented
and tidied, or laid out by braces if the tidier is of no help, and set at the indentation of the opening line.
-/
namespace EpFormat.Template

/-- The opening line of a block: its indentation and chomp mark. -/
structure Opening where
  base : Text
  left : Bool
  deriving DecidableEq, Repr

def Opening.read? (line : Text) : Option Opening :=
  match line.dropWhile isPad with
  | '<' :: '%' :: rest =>
    let (left, rest) := Tag.readChomp rest
    if allBlank rest then some ⟨line.takeWhile isPad, left⟩ else none
  | _ => none

/-- Reads a closing line: its chomp mark.  One space may part the two characters of the delimiter. -/
def readClosing? (line : Text) : Option Bool :=
  let (right, rest) := Tag.readChomp (line.dropWhile isPad)
  match rest with
  | '%' :: '>' :: tail => if allBlank tail then some right else none
  | '%' :: ' ' :: '>' :: tail => if allBlank tail then some right else none
  | _ => none

/-- A block: its opening line, the lines of its body, and the chomp mark of its closing line. -/
structure Block where
  opening : Opening
  body : List Text
  right : Bool
  deriving DecidableEq, Repr

namespace Block

/-- The lines up to the first closing line, and the chomp mark of that line. -/
def upToClosing : List Text → List Text → Option (List Text × Bool)
  | _, [] => none
  | body, line :: rest =>
    match readClosing? line with
    | some right => some (body.reverse, right)
    | none => upToClosing (line :: body) rest

def finder : Finder Text Block := fun _ ls =>
  match ls with
  | [] => none
  | line :: rest =>
    match Opening.read? line with
    | none => none
    | some opening =>
      match upToClosing [] rest with
      | none => none
      | some (body, right) => some (⟨opening, body, right⟩, body.length + 2)

/-- The code of a block, tidied or laid out; the numbers of its first and last line are for the report. -/
def tidyBody (tidier : Perl.Tidier) (cfg : Config) (first last : Nat) (code : Text) : Perl.Tidying Text := do
  match ← Perl.tidyBlock tidier cfg code with
  | none =>
    modify (·.report (.blockIndented first last))
    return Perl.indentByBraces code cfg.indentWidth
  | some tidied =>
    modify (·.report (.blockTidied first last (Text.lines tidied).length))
    return tidied

def code (b : Block) : Text := Perl.dedent (Text.unrows b.body)

/-- A block with tidied code between its delimiters, all at the indentation of its opening line. -/
def layOut (b : Block) (tidied : Text) : List Text :=
  let base := b.opening.base
  -- an empty line gets the indentation as well
  let inner := (Text.lines (Text.dropEndWhile (· = '\n') tidied)).map (base ++ ·)
  (base ++ ['<', '%'] ++ Tag.chomp b.opening.left) :: inner ++ [base ++ Tag.chomp b.right ++ ['%', '>']]

def format (tidier : Perl.Tidier) (cfg : Config) (first : Nat) (b : Block) : Perl.Tidying (List Text) := do
  let tidied ← tidyBody tidier cfg first (first + b.body.length + 1) b.code
  return b.layOut tidied

/-- The lines of a text with every block formatted; `first` is the number of the line at hand. -/
def formatPieces (tidier : Perl.Tidier) (cfg : Config) :
    Nat → List (Piece Text Block) → Perl.Tidying (List (List Text))
  | _, [] => pure []
  | first, .item line :: rest => do
    let more ← formatPieces tidier cfg (first + 1) rest
    return [line] :: more
  | first, .hit b source :: rest => do
    let ls ← format tidier cfg first b
    let more ← formatPieces tidier cfg (first + source.length) rest
    return ls :: more

/-- The lines put together; the text ends with a line feed if the one before did. -/
def assemble (t : Text) (out : List (List Text)) : Text :=
  Text.unrows out.flatten ++ (if t.getLast? = some '\n' then ['\n'] else [])

def formatAll (tidier : Perl.Tidier) (cfg : Config) (t : Text) : Perl.Tidying Text := do
  let out ← formatPieces tidier cfg 1 (scan finder (Text.lines t))
  return assemble t out

end Block
end EpFormat.Template
