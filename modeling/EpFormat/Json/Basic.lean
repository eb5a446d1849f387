import EpFormat.Text.Ranges

/-!
# Json — values of the exchange format

Whole numbers and floats are kept apart, and the members of an object keep their order.
-/
namespace EpFormat

/-- A value of the exchange format. -/
inductive Json
  | null
  | bool (b : Bool)
  | int (n : Int)
  | float (x : Float)
  | str (s : Text)
  | arr (items : List Json)
  | obj (members : List (Text × Json))
  deriving Inhabited

namespace Json

/-- Sets a member: a key that is there keeps its place and gets the new value. -/
def insert (key : Text) (v : Json) : List (Text × Json) → List (Text × Json)
  | [] => [(key, v)]
  | (k, old) :: rest => if k = key then (k, v) :: rest else (k, old) :: insert key v rest

def get? (key : Text) : Json → Option Json
  | obj members => (members.find? (fun m => m.1 == key)).map (·.2)
  | _ => none

end Json
end EpFormat
