import EpFormat.Decimal.Shortest
import EpFormat.Text.Utf8

/-!
# Value — what a benchmark returns

A value has a kind, which is named in reports, and a content.  Sequences that are told apart only by their name
share a constructor.
-/
namespace EpFormat.Measure

inductive BytesKind
  | bytes
  | bytearray
  | memoryview
  deriving DecidableEq, Repr

inductive SeqKind
  | list
  | tuple
  deriving DecidableEq, Repr

inductive SetKind
  | set
  | frozen
  deriving DecidableEq, Repr

/-- A value that a benchmark returns.  A `printed` value is known by its printed form, a `record` by its named
fields, an `array` by its element type, shape and elements, and an `other` value only by its type. -/
inductive Value
  | none
  | bool (b : Bool)
  | int (n : Int)
  | float (x : Float)
  | complex (re im : Float)
  | text (t : Text)
  | bytes (kind : BytesKind) (content : Utf8.Bytes)
  | seq (kind : SeqKind) (items : List Value)
  | set (kind : SetKind) (items : List Value)
  | dict (entries : List (Value × Value))
  | record (typeName : Text) (fields : List (Value × Value))
  | printed (typeName shown : Text)
  | array (element : Text) (shape : List Nat) (items : List Value) (content : Utf8.Bytes)
  | other (space typeName : Text)
  deriving Inhabited

namespace Value

def typeName : Value → Text
  | none => txt "NoneType"
  | bool _ => txt "bool"
  | int _ => txt "int"
  | float _ => txt "float"
  | complex _ _ => txt "complex"
  | text _ => txt "str"
  | bytes .bytes _ => txt "bytes"
  | bytes .bytearray _ => txt "bytearray"
  | bytes .memoryview _ => txt "memoryview"
  | seq .list _ => txt "list"
  | seq .tuple _ => txt "tuple"
  | set .set _ => txt "set"
  | set .frozen _ => txt "frozenset"
  | dict _ => txt "dict"
  | record name _ => name
  | printed name _ => name
  | array _ _ _ _ => txt "ndarray"
  | other _ name => name

/-- The number of a truth value, whole number or float. -/
def number? : Value → Option Float
  | bool b => some (if b then 1.0 else 0.0)
  | int n => some (Float.ofInt n)
  | float x => some x
  | _ => Option.none

mutual

/-- Whether two values are one key: numbers by what they count, texts and sequences by their content. -/
def same : Value → Value → Bool
  | none, none => true
  | text a, text b => a == b
  | bytes _ a, bytes _ b => a == b
  | int a, int b => a == b
  | seq k xs, seq l ys => k == l && sameAll xs ys
  | printed n a, printed m b => n == m && a == b
  | a, b =>
    match a.number?, b.number? with
    | some x, some y => x == y
    | _, _ => false

def sameAll : List Value → List Value → Bool
  | [], [] => true
  | x :: xs, y :: ys => same x y && sameAll xs ys
  | _, _ => false

end

/-- The values without repetition, the first of each kept. -/
def distinct (vs : List Value) : List Value :=
  (vs.foldl (fun kept v => if kept.any (same v) then kept else v :: kept) []).reverse

/-- Sets an entry: a key that is there stays and gets the new value. -/
def setEntry (key v : Value) : List (Value × Value) → List (Value × Value)
  | [] => [(key, v)]
  | (k, old) :: rest => if same k key then (k, v) :: rest else (k, old) :: setEntry key v rest

/-- A dictionary from its entries, the later value of a key counting. -/
def dictOf (entries : List (Value × Value)) : Value :=
  dict (entries.foldl (fun acc (k, v) => setEntry k v acc) [])

/-- A value in so many lists of one. -/
def nest : Nat → Value → Value
  | 0, v => v
  | n + 1, v => seq .list [nest n v]

/-- The list of the numbers below `n`. -/
def count (n : Nat) : Value := seq .list ((List.range n).map (fun i : Nat => int i))

end Value
end EpFormat.Measure
