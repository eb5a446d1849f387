import EpFormat.Text.Ranges

/-!
# Blank — white space, and cutting it away

`isBlank` is the class of white space that templates may hold: the controls from tab to carriage return, the
four information separators, and every Unicode space.  The other class of use is `isPad`, the two characters
that indentation is made of.  `ink` is what remains of a text when white space is left out; most laws of the
formatter say that it keeps the ink.
-/
namespace EpFormat

/-- White space: controls, separators and spaces. -/
def isBlank (c : Char) : Bool :=
  let n := c.toNat
  if n < 128 then n = 32 || (9 ≤ n && n ≤ 13) || (28 ≤ n && n ≤ 31)
  else n = 0x85 || n = 0xA0 || n = 0x1680 || (0x2000 ≤ n && n ≤ 0x200A) || n = 0x2028 || n = 0x2029
    || n = 0x202F || n = 0x205F || n = 0x3000

/-- The two characters of indentation. -/
def isPad (c : Char) : Bool := c = ' ' || c = '\t'

/-- The characters of a text that are not white space. -/
def ink (t : Text) : Text := t.filter (fun c => !isBlank c)

def allBlank (t : Text) : Bool := t.all isBlank

namespace Text

def dropEndWhile (p : Char → Bool) (t : Text) : Text := (t.reverse.dropWhile p).reverse

def trimLeft (t : Text) : Text := t.dropWhile isBlank

def trimRight (t : Text) : Text := dropEndWhile isBlank t

def trim (t : Text) : Text := trimRight (trimLeft t)

def dropTrailingPad (t : Text) : Text := dropEndWhile isPad t

/-- A run of spaces; a width below zero counts as none. -/
def spaces (n : Int) : Text := List.replicate n.toNat ' '

end Text
end EpFormat
