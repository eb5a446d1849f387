import EpFormat.Decimal.Binary
import EpFormat.Text.Ranges

/-!
# Shortest — floats in decimal

`shortest` gives the fewest digits that read back as the same double, and of those the nearest.  `render` writes
them: positional from `1e-4` up to below `1e16`, with at least one place after the point, else with an exponent
of at least two digits.  `roundPlaces` and `fixed` round the exact binary value, a half going to the even
neighbour.
-/
namespace EpFormat.Decimal

/-- A decimal number: `digits · 10 ^ exponent`. -/
structure Digits where
  digits : Nat
  exponent : Int
  deriving DecidableEq, Repr

/-- Drops zeros from the end of the digits, at most `fuel` of them. -/
def Digits.dropZeros : Nat → Digits → Digits
  | 0, d => d
  | fuel + 1, d => if d.digits ≠ 0 && d.digits % 10 = 0 then dropZeros fuel ⟨d.digits / 10, d.exponent + 1⟩ else d

/-- The interval of numbers that read as `m · 2 ^ q`, and whether its ends do too. -/
structure Interval where
  lo : Fraction
  hi : Fraction
  closed : Bool

/-- The interval around a finite double.  Below a power of two the next double is half as far. -/
def Interval.around (m : Nat) (q : Int) : Interval :=
  let below := if m = Nat.pow 2 52 && -1074 < q then 1 else 2
  ⟨.ofBinary (4 * m - below) (q - 2), .ofBinary (4 * m + 2) (q - 2), m % 2 = 0⟩

def Interval.holds (i : Interval) (f : Fraction) : Bool :=
  if i.closed then i.lo.le f && f.le i.hi else i.lo.lt f && f.lt i.hi

/-- The point of the grid `10 ^ e` that is nearest to `v` among its two neighbours in the interval. -/
def gridPoint? (v : Fraction) (i : Interval) (e : Int) : Option Nat :=
  let scaled := v.scale (-e)
  let down := scaled.num / scaled.den
  let up := down + 1
  let inside (n : Nat) : Bool := i.holds (Fraction.scale ⟨n, 1⟩ e)
  let nearest := scaled.round
  if inside nearest then some nearest
  else if inside down then some down
  else if inside up then some up
  else none

/-- The first of the grids with one, two, … digits that has a point in the interval. -/
def shortestFrom (v : Fraction) (i : Interval) : Nat → Int → Digits
  | 0, e => ⟨(v.scale (-e)).round, e⟩
  | fuel + 1, e =>
    match gridPoint? v i e with
    | some n => if n = 0 then shortestFrom v i fuel (e - 1) else ⟨n, e⟩
    | none => shortestFrom v i fuel (e - 1)

/-- The fewest digits that read back as `m · 2 ^ q`. -/
def shortest (m : Nat) (q : Int) : Digits :=
  if m = 0 then ⟨0, 0⟩
  else
    let v := Fraction.ofBinary m q
    (shortestFrom v (.around m q) 17 v.magnitude).dropZeros 400

def natText (n : Nat) : Text := Nat.toDigits 10 n

def intText : Int → Text
  | .ofNat n => natText n
  | .negSucc n => '-' :: natText (n + 1)

/-- The exponent as it is written: a sign and at least two digits. -/
def exponentText (e : Int) : Text :=
  let n := natText e.natAbs
  'e' :: (if e < 0 then '-' else '+') :: (if n.length < 2 then '0' :: n else n)

def Digits.render (d : Digits) : Text :=
  let s := natText d.digits
  let point : Int := s.length + d.exponent
  if d.digits = 0 then txt "0.0"
  else if point ≤ -4 || 16 < point then
    match s with
    | [] => []
    | [c] => c :: exponentText (point - 1)
    | c :: more => c :: '.' :: more ++ exponentText (point - 1)
  else if point ≤ 0 then '0' :: '.' :: List.replicate (-point).toNat '0' ++ s
  else if point < s.length then s.take point.toNat ++ '.' :: s.drop point.toNat
  else s ++ List.replicate (point.toNat - s.length) '0' ++ ['.', '0']

def floatText (x : Float) : Text :=
  match Parts.ofFloat x with
  | .nan => txt "nan"
  | .infinite negative => if negative then txt "-inf" else txt "inf"
  | .finite negative m q => (if negative then ['-'] else []) ++ (shortest m q).render

/-- The double nearest to `± digits · 10 ^ exponent`. -/
def Digits.toFloat (negative : Bool) (d : Digits) : Float :=
  let x := Float.ofScientific d.digits (d.exponent < 0) d.exponent.natAbs
  if negative then -x else x

def roundPlaces (places : Nat) (x : Float) : Float :=
  match Parts.ofFloat x with
  | .finite negative m q => Digits.toFloat negative ⟨((Fraction.ofBinary m q).scale places).round, -places⟩
  | _ => x

def roundSignificant (count : Nat) (x : Float) : Float :=
  match Parts.ofFloat x with
  | .finite negative m q =>
    if m = 0 then x
    else
      let v := Fraction.ofBinary m q
      let e : Int := v.magnitude - (count - 1 : Nat)
      Digits.toFloat negative ⟨(v.scale (-e)).round, e⟩
  | _ => x

def fixed (places : Nat) (x : Float) : Text :=
  match Parts.ofFloat x with
  | .nan => txt "nan"
  | .infinite negative => if negative then txt "-inf" else txt "inf"
  | .finite negative m q =>
    let n := ((Fraction.ofBinary m q).scale places).round
    let whole := natText (n / Nat.pow 10 places)
    let part := natText (n % Nat.pow 10 places)
    (if negative then ['-'] else []) ++ whole
      ++ (if places = 0 then [] else '.' :: List.replicate (places - part.length) '0' ++ part)

end EpFormat.Decimal
