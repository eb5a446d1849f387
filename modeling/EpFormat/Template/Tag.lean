import EpFormat.Perl.Tidy

/-!
# Tag — inline tags of a template line

A tag stands between `<%` and `%>` on one line.  A minus inside either delimiter is a chomp mark, and a mark
after the opening says what the tag is: an expression, a raw expression or a comment; without a mark it is a
statement.
-/
namespace EpFormat.Template

inductive Kind
  | statement
  | expression
  | rawExpression
  | comment
  deriving DecidableEq, Repr

namespace Kind

def mark : Kind → Text
  | statement => []
  | expression => ['=']
  | rawExpression => ['=', '=']
  | comment => ['#']

/-- The kind at the head of a text, and the text after its mark. -/
def read : Text → Kind × Text
  | '=' :: '=' :: rest => (rawExpression, rest)
  | '=' :: rest => (expression, rest)
  | '#' :: rest => (comment, rest)
  | rest => (statement, rest)

end Kind

structure Tag where
  leftChomp : Bool
  kind : Kind
  body : Text
  rightChomp : Bool
  deriving DecidableEq, Repr

namespace Tag

def chomp (present : Bool) : Text := if present then ['-'] else []

/-- The tag as it is written. -/
def source (tag : Tag) : Text :=
  '<' :: '%' :: (chomp tag.leftChomp ++ tag.kind.mark ++ tag.body ++ chomp tag.rightChomp ++ ['%', '>'])

/-- What stands before the first `%>` of a text, if no line feed comes before it; `body` is what was passed,
backwards. -/
def upToClose : Text → Text → Option Text
  | _, [] => none
  | body, '%' :: '>' :: _ => some body.reverse
  | body, c :: rest => if c = '\n' then none else upToClose (c :: body) rest

/-- The body proper and whether a chomp mark ends it. -/
def splitChomp (body : Text) : Text × Bool :=
  match body.reverse with
  | '-' :: rest => (rest.reverse, true)
  | _ => (body, false)

def readChomp : Text → Bool × Text
  | '-' :: rest => (true, rest)
  | rest => (false, rest)

def read? : Text → Option Tag
  | '<' :: '%' :: rest =>
    let (left, rest) := readChomp rest
    let (kind, rest) := Kind.read rest
    match upToClose [] rest with
    | none => none
    | some body =>
      let (body, right) := splitChomp body
      some ⟨left, kind, body, right⟩
  | _ => none

def finder : Finder Char Tag := fun _ t => (read? t).map (fun tag => (tag, tag.source.length))

def all (line : Text) : List Tag := finds finder line

/-- A line with every tag blanked by as many spaces. -/
def blankOut (line : Text) : Text := substitute finder (fun tag => List.replicate tag.source.length ' ') line

end Tag

/-- A tag taken apart for writing: what opens it, its marks where they are kept apart, its body, and what closes
it. -/
structure Delimited where
  opening : Text
  left : Text
  kind : Text
  body : Text
  closing : Text
  deriving DecidableEq, Repr

/-- The delimiters of a tag.  A comment, or any tag where delimiters are not normalised, keeps its marks apart and
its body as it is.  Otherwise the marks go into the opening, the body is trimmed, one space follows the opening,
and one space comes before the closing if the right mark is known to be empty. -/
def delimit (normalize : Bool) (left kind : Option Text) (body : Text) (right : Option Text) : Delimited :=
  if !normalize || kind = some ['#'] then
    ⟨['<', '%'], left.getD [], kind.getD [], body, right.getD [] ++ ['%', '>']⟩
  else
    ⟨['<', '%'] ++ left.getD [] ++ kind.getD [] ++ [' '], [], [], Text.trim body,
      (if right = some [] then [' '] else []) ++ right.getD [] ++ ['%', '>']⟩

namespace Tag

/-- The body of a tag as it is written: comments stay, expressions and statements are tidied. -/
def tidyBody (tidier : Perl.Tidier) (cfg : Config) (tag : Tag) : Perl.Tidying Text :=
  match tag.kind with
  | .comment => pure tag.body
  | .expression | .rawExpression => Perl.tidyExpression tidier cfg tag.body
  | .statement => Perl.tidyStatement tidier cfg tag.body

def format (tidier : Perl.Tidier) (cfg : Config) (tag : Tag) : Perl.Tidying Text := do
  let d := delimit cfg.normalizeDelimiters (some (chomp tag.leftChomp)) (some tag.kind.mark) tag.body
    (some (chomp tag.rightChomp))
  let inner ← tidyBody tidier cfg tag
  -- `d.left` and `d.kind` are not written: marks that are kept apart get lost
  return d.opening ++ inner ++ d.closing

def formatPiece (tidier : Perl.Tidier) (cfg : Config) : Piece Char Tag → Perl.Tidying Text
  | .item c => pure [c]
  | .hit tag _ => format tidier cfg tag

def formatAll (tidier : Perl.Tidier) (cfg : Config) (line : Text) : Perl.Tidying Text := do
  let parts ← (scan finder line).mapM (formatPiece tidier cfg)
  return parts.flatten

end Tag
end EpFormat.Template
