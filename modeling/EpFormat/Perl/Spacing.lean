import EpFormat.Perl.Chunk
import EpFormat.Text.Word
import EpFormat.Text.Search

/-!
# Spacing — one space after Perl keywords

The rules put one space between a keyword and what follows it.  They hold in code only: literals stay as they
are, and within a stretch of code everything from a number sign on is a comment and stays too.  Each rule is a
finder that gives the new text of what it finds; the rules are applied one after the other.
-/
namespace EpFormat.Perl

/-- A rule of spacing: what it finds, and the text to put there. -/
abbrev Rule := Finder Char Text

namespace Rule

/-- One of the words, white space, and what `next` accepts after it: the word, one space, and the text that
`next` gives.  The word begins at a word boundary. -/
def spaced (words : List Text) (next : Text → Option (Text × Nat)) : Rule := fun prev t =>
  if atWordBoundary prev t then
    -- no boundary is asked for behind the word: what `next` accepts may continue it
    words.findSome? (fun word =>
      match Text.after? word t with
      | none => none
      | some rest =>
        match next (rest.dropWhile isBlank) with
        | none => none
        | some (shown, n) => some (word ++ ' ' :: shown, word.length + (rest.takeWhile isBlank).length + n))
  else none

def exactly (c : Char) : Text → Option (Text × Nat)
  | [] => none
  | d :: _ => if d = c then some ([c], 1) else none

/-- Looks ahead to a character of the class and takes nothing. -/
def ahead (p : Char → Bool) : Text → Option (Text × Nat)
  | [] => none
  | c :: _ => if p c then some ([], 0) else none

def isNameStart (c : Char) : Bool := c.isAlpha || c = '_'

def name? : Text → Option Text
  | [] => none
  | c :: rest => if isNameStart c then some (c :: rest.takeWhile isWord) else none

/-- What may follow a declarator: a sigil, a backslash or a parenthesis. -/
def isSigil (c : Char) : Bool :=
  c = '$' || c = '@' || c = '%' || c = '*' || c = '&' || c = '\\' || c = '('

/-- `if(` and its kin. -/
def control : Rule :=
  spaced [txt "if", txt "elsif", txt "unless", txt "while", txt "until", txt "for", txt "foreach", txt "given",
    txt "when"] (exactly '(')

/-- `my$x` and its kin. -/
def declarator : Rule := spaced [txt "my", txt "our", txt "state", txt "local"] (ahead isSigil)

/-- A named subroutine: one space before the name. -/
def subNamed : Rule := spaced [txt "sub"] (fun t => (name? t).map (fun n => (n, n.length)))

/-- A named subroutine with its opening brace: one space before the brace. -/
def subNamedBrace : Rule := fun prev t =>
  if atWordBoundary prev t then
    match Text.after? (txt "sub") t with
    | none => none
    | some rest =>
      let gap := rest.takeWhile isBlank
      match name? (rest.dropWhile isBlank) with
      | none => none
      | some n =>
        let tail := (rest.dropWhile isBlank).drop n.length
        match exactly '\x7b' (tail.dropWhile isBlank) with
        | none => none
        | some _ =>
          -- unlike in `spaced` the white space has to be there; `subNamed` has put it there before
          if gap.isEmpty then none
          else some (txt "sub " ++ n ++ [' ', '\x7b'], 3 + gap.length + n.length + (tail.takeWhile isBlank).length + 1)
  else none

def subAnonymous : Rule := spaced [txt "sub"] (exactly '\x7b')

def callWords : List Text := [txt "return", txt "print", txt "say", txt "die", txt "warn", txt "exit"]

/-- `return(` and its kin. -/
def callParen : Rule := spaced callWords (exactly '(')

/-- `return` and its kin before anything else. -/
def callSpace : Rule := spaced callWords (ahead (fun _ => true))

/-- A closing brace and the keyword that goes on after it. -/
def braceKeyword : Rule := fun _ t =>
  match t with
  | '\x7d' :: rest =>
    let next := rest.dropWhile isBlank
    if [txt "else", txt "elsif", txt "continue", txt "when"].any (fun word =>
        match Text.after? word next with
        | none => false
        | some after => !startsWord after)
    then some (['\x7d', ' '], 1 + (rest.takeWhile isBlank).length)
    else none
  | _ => none

/-- `else` and its kin before their brace. -/
def elseBrace : Rule := spaced [txt "else", txt "continue", txt "do", txt "eval"] (exactly '\x7b')

/-- A brace after a closing parenthesis. -/
def parenBrace : Rule := fun _ t =>
  match t with
  | ')' :: rest =>
    match rest.dropWhile isBlank with
    | '\x7b' :: _ => some ([')', ' ', '\x7b'], 2 + (rest.takeWhile isBlank).length)
    | _ => none
  | _ => none

/-- The rules in the order in which they are applied. -/
def all : List Rule :=
  [control, declarator, subNamed, subNamedBrace, subAnonymous, callParen, callSpace, braceKeyword, elseBrace,
    parenBrace]

end Rule

/-- Applies every rule to code that holds no comment. -/
def spaceCode (code : Text) : Text := Rule.all.foldl (fun t rule => substitute rule id t) code

def spaceChunk : Chunk → Text
  | .literal t => t
  | .code t =>
    let (code, comment) := splitComment t
    spaceCode code ++ comment.getD []

/-- Puts one space after the keywords of a Perl text. -/
def spaceKeywords (t : Text) : Text := (Chunk.split t).flatMap spaceChunk

end EpFormat.Perl
