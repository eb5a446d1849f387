import EpFormat.Markup.Element

/-!
# Raw — elements whose content is left alone

The lines between a line that opens such an element and the line that closes it are kept as they are.  Names are
read without regard to case; two further letters, the long s and the dotless and dotted capital i, count as
forms of s and i when a name is read, though not when it is compared.
-/
namespace EpFormat.Markup

def rawNames : List Text := [txt "pre", txt "script", txt "style", txt "textarea"]

/-- Whether `c` is a form of the small letter `a`. -/
def sameLetter (a c : Char) : Bool :=
  c = a || c.toNat + 32 = a.toNat || (a = 's' && c.toNat = 0x17F) || (a = 'i' && (c.toNat = 0x130 || c.toNat = 0x131))

/-- The beginning of the text that spells `word` in any case, and the rest. -/
def spelled? : Text → Text → Option (Text × Text)
  | [], t => some ([], t)
  | _ :: _, [] => none
  | a :: word, c :: t =>
    if sameLetter a c then (spelled? word t).map (fun (s, rest) => (c :: s, rest)) else none

/-- The raw name that a text begins with, as it is spelled there, and the rest. -/
def rawName? (t : Text) : Option (Text × Text) := rawNames.findSome? (fun word => spelled? word t)

/-- Whether the text, past anything that is no `>`, is `>` and white space. -/
def endsAtClose (t : Text) : Bool :=
  match t.dropWhile (· != '>') with
  | _ :: rest => allBlank rest
  | [] => false

/-- The raw element that a line opens, if the line is its start tag and nothing else; in lower case. -/
def rawOpen? (line : Text) : Option Text :=
  match line.dropWhile isBlank with
  | '<' :: rest =>
    match rawName? rest with
    -- a slash before `>` makes no difference: an element that closes itself is opened all the same
    | some (name, after) => if !startsWord after && endsAtClose after then some (Text.lower name) else none
    | none => none
  | _ => none

/-- The raw element that a line closes, if the line is its end tag and nothing else; in lower case. -/
def rawClose? (line : Text) : Option Text :=
  match line.dropWhile isBlank with
  | '<' :: '/' :: rest =>
    match rawName? rest with
    | some (name, after) =>
      match after.dropWhile isBlank with
      | '>' :: tail => if allBlank tail then some (Text.lower name) else none
      | _ => none
    | none => none
  | _ => none

/-- The nesting of markup at a line: end tags that begin it, what its tags add up to, and the raw element that it
opens or closes. -/
structure Nesting where
  before : Nat
  net : Int
  rawOpen : Option Text
  rawClose : Option Text
  deriving DecidableEq, Repr

def Nesting.ofLine (line : Text) : Nesting where
  before := Element.leadingEnds line.length line
  net := ((Element.all line).map Element.weight).foldl (· + ·) 0
  rawOpen := rawOpen? line
  rawClose := rawClose? line

end EpFormat.Markup
