import EpFormat.Json.Basic
import EpFormat.Decimal.Shortest

/-!
# Json.Write — writing the exchange format
-/
namespace EpFormat.Json

/-- The last `width` hexadecimal digits of a number. -/
def hexText : Nat → Nat → Text
  | 0, _ => []
  | width + 1, n => hexText width (n / 16) ++ [Nat.digitChar (n % 16)]

def charText (c : Char) : Text :=
  if c = '"' || c = '\\' then ['\\', c]
  else if c = '\n' then ['\\', 'n']
  else if c.toNat < 32 || c.toNat = 127 then '\\' :: 'u' :: hexText 4 c.toNat
  else [c]

def stringText (s : Text) : Text := '"' :: s.flatMap charText ++ ['"']

/-- A float; what is no number has its own word. -/
def floatText (x : Float) : Text :=
  match Decimal.Parts.ofFloat x with
  | .nan => txt "NaN"
  | .infinite negative => if negative then txt "-Infinity" else txt "Infinity"
  | .finite _ _ _ => Decimal.floatText x

mutual

def render : Json → Text
  | null => txt "null"
  | bool b => if b then txt "true" else txt "false"
  | int n => Decimal.intText n
  | float x => floatText x
  | str s => stringText s
  | arr items => '[' :: renderItems items ++ [']']
  | obj members => '\x7b' :: renderMembers members ++ ['\x7d']

def renderItems : List Json → Text
  | [] => []
  | [v] => render v
  | v :: rest => render v ++ ',' :: renderItems rest

def renderMembers : List (Text × Json) → Text
  | [] => []
  | [(key, v)] => stringText key ++ ':' :: render v
  | (key, v) :: rest => stringText key ++ ':' :: render v ++ ',' :: renderMembers rest

end

end EpFormat.Json
