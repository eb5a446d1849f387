import EpFormat.Text.Printable

/-!
# Quoted — a text shown between quotes

Messages show a value between single quotes, or between double quotes if it holds a single quote and no double
one.  The quote in use and the backslash are escaped, the three common controls have short escapes, and any other
character that is not printable is written by its code point in hexadecimal.
-/
namespace EpFormat

/-- The last `width` hexadecimal digits of a number, lower case. -/
def hexDigits : Nat → Nat → Text
  | 0, _ => []
  | width + 1, n => hexDigits width (n / 16) ++ [Nat.digitChar (n % 16)]

def quoteChar (q c : Char) : Text :=
  if c = q || c = '\\' then ['\\', c]
  else if c = '\n' then txt "\\n"
  else if c = '\r' then txt "\\r"
  else if c = '\t' then txt "\\t"
  else if isPrintable c then [c]
  else if c.toNat < 256 then '\\' :: 'x' :: hexDigits 2 c.toNat
  else if c.toNat < 65536 then '\\' :: 'u' :: hexDigits 4 c.toNat
  else '\\' :: 'U' :: hexDigits 8 c.toNat

def singleQuote : Char := Char.ofNat 39

def Text.quoted (t : Text) : Text :=
  let q := if t.any (· = singleQuote) && !t.any (· = '"') then '"' else singleQuote
  q :: t.flatMap (quoteChar q) ++ [q]

end EpFormat
