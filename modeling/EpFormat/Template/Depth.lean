import EpFormat.Template.Directive

/-!
# Depth — how a template line moves the depth of its Perl blocks

Directives and lines that are nothing but a statement tag open and close Perl blocks, by braces and by the words
`begin` and `end`.
-/
namespace EpFormat.Template

/-- The move of depth at a line: how many levels to step back before the line is written, and the change for the
lines after it. -/
structure Shift where
  before : Nat
  after : Int
  deriving DecidableEq, Repr

def wordFinder (word : Text) : Finder Char Unit := fun prev t =>
  match Text.after? word t with
  | none => none
  | some rest => if atWordBoundary prev t && !startsWord rest then some ((), word.length) else none

def hasBegin (line : Text) : Bool := !(finds (wordFinder (txt "begin")) line).isEmpty

/-- Whether the line is a directive that begins with the word `end`. -/
def isEndDirective (line : Text) : Bool :=
  match line.dropWhile isBlank with
  | '%' :: rest =>
    match Text.after? (txt "end") (rest.dropWhile isBlank) with
    | some after => !startsWord after
    | none => false
  | _ => false

/-- Reads the rest of a tag that holds nothing further: white space, a chomp mark or none, the closing
delimiter, and white space to the end. -/
def closesTag (t : Text) : Bool :=
  match (Tag.readChomp (t.dropWhile isBlank)).2 with
  | '%' :: '>' :: rest => allBlank rest
  | _ => false

/-- The text inside a tag that opens the line, past its chomp mark and white space. -/
def insideTag? (line : Text) : Option Text :=
  match line.dropWhile isBlank with
  | '<' :: '%' :: rest => some ((Tag.readChomp rest).2.dropWhile isBlank)
  | _ => none

/-- Whether the line is a tag with the word `end` alone. -/
def isEndTag (line : Text) : Bool :=
  match insideTag? line with
  | some inner =>
    match Text.after? (txt "end") inner with
    | some rest => closesTag rest
    | none => false
  | none => false

/-- Whether the line is a tag with closing braces alone. -/
def isBraceTag (line : Text) : Bool :=
  match insideTag? line with
  | some ('\x7d' :: rest) => closesTag (rest.dropWhile (· = '\x7d'))
  | _ => false

/-- How many closing braces begin a directive. -/
def leadingBraces (line : Text) : Nat :=
  match line.dropWhile isBlank with
  | '%' :: rest => ((rest.dropWhile isBlank).takeWhile (· = '\x7d')).length
  | _ => 0

/-- Whether the line, apart from white space around it, begins and ends like a tag and is no expression. -/
def isStatementLine (line : Text) : Bool :=
  let s := Text.trim line
  Text.startsWith ['<', '%'] s && Text.endsWith ['%', '>'] s && !Text.startsWith ['<', '%', '='] s

def braceBalance (t : Text) : Int := (t.count '\x7b' : Int) - (t.count '\x7d' : Int)

/-- One for a true statement, none for a false one. -/
def once (b : Bool) : Nat := if b then 1 else 0

def Shift.ofLine (line : Text) : Shift where
  before := once (isEndDirective line || isEndTag line) + leadingBraces line + once (isBraceTag line)
  after :=
    match Directive.read? line with
    | some d => braceBalance d.body + once (hasBegin line)
    | none =>
      -- tags of any kind count here, comments among them
      if isStatementLine line then
        ((Tag.all line).map (fun tag => braceBalance tag.body)).foldl (· + ·) 0 + once (hasBegin line)
      else 0

end EpFormat.Template
