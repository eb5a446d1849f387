import EpFormat.Text.LowerCase
import EpFormat.Text.Word
import EpFormat.Text.Scan

/-!
# Element — start and end tags of markup

A tag of markup is read as far as nesting needs it: whether it is an end tag, its name, and whether it closes
itself.
-/
namespace EpFormat.Markup

structure Element where
  isEnd : Bool
  name : Text
  selfClosing : Bool
  size : Nat
  deriving DecidableEq, Repr

namespace Element

/-- Elements that have no content and no end tag. -/
def void : List Text :=
  [txt "area", txt "base", txt "br", txt "col", txt "embed", txt "hr", txt "img", txt "input", txt "link", txt "meta",
    txt "param", txt "source", txt "track", txt "wbr"]

def isNameChar (c : Char) : Bool := isWord c || c = ':' || c = '-'

/-- A character that may stand between a name and the end of the tag. -/
def isAttributeChar (c : Char) : Bool := c != '<' && c != '>'

/-- Reads what follows the name up to `>`: whether a slash comes right before it, and how many characters that
takes.  Attributes are set off by white space. -/
def readClose : Text → Option (Bool × Nat)
  | '>' :: _ => some (false, 1)
  | '/' :: '>' :: _ => some (true, 2)
  | c :: rest =>
    if isBlank c then
      let attributes := c :: rest.takeWhile isAttributeChar
      match rest.dropWhile isAttributeChar with
      | '>' :: _ => some (attributes.getLast? == some '/', attributes.length + 1)
      | _ => none
    else none
  | [] => none

def readSlash : Text → Bool × Text
  | '/' :: rest => (true, rest)
  | rest => (false, rest)

def read? : Text → Option Element
  | '<' :: rest =>
    let (isEnd, body) := readSlash rest
    match body with
    | c :: more =>
      if c.isAlpha then
        let name := c :: more.takeWhile isNameChar
        match readClose (more.dropWhile isNameChar) with
        | some (selfClosing, n) => some ⟨isEnd, name, selfClosing, (if isEnd then 2 else 1) + name.length + n⟩
        | none => none
      else none
    | [] => none
  | _ => none

def finder : Finder Char Element := fun _ t => (read? t).map (fun e => (e, e.size))

def all (line : Text) : List Element := finds finder line

/-- What a tag adds to the depth: an end tag takes one away, a start tag with content adds one. -/
def weight (e : Element) : Int :=
  if e.isEnd then -1 else if e.selfClosing || void.contains (Text.lower e.name) then 0 else 1

/-- The end tags that begin a text, white space between them left out. -/
def leadingEnds : Nat → Text → Nat
  | 0, _ => 0
  | fuel + 1, t =>
    let t := t.dropWhile isBlank
    match read? t with
    | some e => if e.isEnd then leadingEnds fuel (t.drop e.size) + 1 else 0
    | none => 0

end Element
end EpFormat.Markup
