import EpFormat.Json.Basic

/-!
# Json.View — values read as plain data

Each view gives a default where the value is of another kind.
-/
namespace EpFormat.Json

def toFloat? : Json → Option Float
  | int n => some (Float.ofInt n)
  | float x => some x
  | _ => none

/-- The member of an object, null if there is none. -/
def member (key : String) (j : Json) : Json := (j.get? (txt key)).getD null

def toFloat (j : Json) : Float := j.toFloat?.getD 0.0

def toInt : Json → Int
  | int n => n
  | _ => 0

def toText : Json → Text
  | str s => s
  | _ => []

def items : Json → List Json
  | arr xs => xs
  | _ => []

def members : Json → List (Text × Json)
  | obj ms => ms
  | _ => []

def isObject : Json → Bool
  | obj _ => true
  | _ => false

end EpFormat.Json
