/-!
# Binary — the exact value of a float

A finite double is a whole number times a power of two.  All work on its decimal digits starts from that pair and
is exact.
-/
namespace EpFormat.Decimal

/-- The parts of a double: no number, an infinity, or `mantissa · 2 ^ exponent` with a sign. -/
inductive Parts
  | nan
  | infinite (negative : Bool)
  | finite (negative : Bool) (mantissa : Nat) (exponent : Int)
  deriving DecidableEq, Repr

def Parts.ofFloat (x : Float) : Parts :=
  let bits : Nat := x.toBits.toNat
  let negative := bits / Nat.pow 2 63 = 1
  let e : Nat := bits / Nat.pow 2 52 % 2048
  let f : Nat := bits % Nat.pow 2 52
  if e = 2047 then (if f = 0 then .infinite negative else .nan)
  else if e = 0 then .finite negative f (-1074)
  else .finite negative (f + Nat.pow 2 52) ((e : Int) - 1075)

/-- A fraction of whole numbers, its denominator above zero. -/
structure Fraction where
  num : Nat
  den : Nat
  deriving DecidableEq, Repr

/-- `n · 2 ^ e` as a fraction. -/
def Fraction.ofBinary (n : Nat) (e : Int) : Fraction :=
  if 0 ≤ e then ⟨n * Nat.pow 2 e.toNat, 1⟩ else ⟨n, Nat.pow 2 (-e).toNat⟩

/-- The fraction times `10 ^ e`. -/
def Fraction.scale (f : Fraction) (e : Int) : Fraction :=
  if 0 ≤ e then ⟨f.num * Nat.pow 10 e.toNat, f.den⟩ else ⟨f.num, f.den * Nat.pow 10 (-e).toNat⟩

/-- The nearest whole number; of two, the even one. -/
def Fraction.round (f : Fraction) : Nat :=
  let q := f.num / f.den
  let r := f.num % f.den
  if 2 * r < f.den then q else if f.den < 2 * r then q + 1 else q + q % 2

def Fraction.le (a b : Fraction) : Bool := a.num * b.den ≤ b.num * a.den

def Fraction.lt (a b : Fraction) : Bool := a.num * b.den < b.num * a.den

/-- How many decimal digits a number above zero has before the point, less one: the greatest `e` with
`10 ^ e ≤ f`, searched downwards from `start` by at most `fuel` steps. -/
def Fraction.magnitudeFrom (f : Fraction) : Nat → Int → Int
  | 0, start => start
  | fuel + 1, start => if Fraction.le ⟨1, 1⟩ (f.scale (-start)) then start else f.magnitudeFrom fuel (start - 1)

/-- The decimal magnitude of a positive fraction: the greatest `e` with `10 ^ e ≤ f`. -/
def Fraction.magnitude (f : Fraction) : Int :=
  let guess : Int := ((f.num.log2 : Int) - (f.den.log2 : Int) + 1) * 30103 / 100000 + 1
  f.magnitudeFrom 4 guess

end EpFormat.Decimal
