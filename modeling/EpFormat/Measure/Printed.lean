import EpFormat.Files.Path
import EpFormat.Json.Basic
import EpFormat.Measure.Value
import EpFormat.Text.Quoted

/-!
# Printed — the printed forms of values

Dates, spans of time, exact numbers, paths and identifiers are known by their printed form, and an error message
shows its arguments in theirs.
-/
namespace EpFormat.Measure.Printed

open Decimal (natText intText)

def call (name : String) (arguments : List Text) : Text :=
  txt name ++ '(' :: Text.join (txt ", ") arguments ++ [')']

def date (parts : List Int) : Value :=
  .printed (txt "date") (call "datetime.date" (parts.map intText))

/-- A time of day: seconds and microseconds are left out where they are zero and nothing follows. -/
def time (parts : List Int) : Value :=
  let part (i : Nat) : Int := parts.getD i 0
  let shown :=
    if part 3 ≠ 0 then [part 0, part 1, part 2, part 3]
    else if part 2 ≠ 0 then [part 0, part 1, part 2]
    else [part 0, part 1]
  .printed (txt "time") (call "datetime.time" (shown.map intText))

/-- A span of time from days, seconds, microseconds, milliseconds, minutes, hours and weeks. -/
def timedelta (parts : List Int) : Value :=
  let part (i : Nat) : Int := parts.getD i 0
  let micros := part 2 + 1000 * part 3
    + 1000000 * (part 1 + 60 * part 4 + 3600 * part 5 + 86400 * (part 0 + 7 * part 6))
  let days := micros / 86400000000
  let seconds := micros % 86400000000 / 1000000
  let rest := micros % 1000000
  let named (name : String) (n : Int) : List Text := if n = 0 then [] else [txt name ++ intText n]
  let shown := named "days=" days ++ named "seconds=" seconds ++ named "microseconds=" rest
  .printed (txt "timedelta") (call "datetime.timedelta" (if shown.isEmpty then [['0']] else shown))

/-- A fraction in lowest terms, its denominator above zero. -/
def fraction (n d : Int) : Value :=
  let g : Int := Int.gcd n d
  let s : Int := if d < 0 then -1 else 1
  .printed (txt "Fraction") (call "Fraction" [intText (s * n / g), intText (s * d / g)])

def path (t : Text) : Value :=
  .printed (txt "PurePosixPath") (call "PurePosixPath" [(Files.Path.ofText t).toText.quoted])

/-- An identifier of 32 hexadecimal digits, in groups. -/
def uuid (digits : Text) : Value :=
  let part (i n : Nat) : Text := (digits.drop i).take n
  .printed (txt "UUID") (call "UUID" [(Text.join ['-'] [part 0 8, part 8 4, part 12 4, part 16 4, part 20 12]).quoted])

/-- A decimal number with its digits and exponent kept: positional if the exponent is not above zero and no more
than five zeros follow the point, else with an exponent. -/
def decimalText (negative : Bool) (digits : Text) (exponent : Int) : Text :=
  let kept := digits.dropWhile (· = '0')
  let kept := if kept.isEmpty then ['0'] else kept
  let left : Int := exponent + kept.length
  let plain := exponent ≤ 0 && -6 < left
  let point : Int := if plain then left else 1
  let body :=
    if point ≤ 0 then '0' :: '.' :: List.replicate (-point).toNat '0' ++ kept
    else if (kept.length : Int) ≤ point then kept ++ List.replicate (point - kept.length).toNat '0'
    else kept.take point.toNat ++ '.' :: kept.drop point.toNat
  let scale := left - point
  (if negative then ['-'] else []) ++ body
    ++ (if scale = 0 then [] else 'E' :: (if scale < 0 then intText scale else '+' :: intText scale))

def signOf : Text → Bool × Text
  | '-' :: rest => (true, rest)
  | '+' :: rest => (false, rest)
  | rest => (false, rest)

/-- An exact decimal number from its text. -/
def decimal (t : Text) : Value :=
  let (negative, body) := signOf (t.filter (· ≠ '_'))
  let whole := body.takeWhile Char.isDigit
  let rest := body.dropWhile Char.isDigit
  let (places, rest) := match rest with
    | '.' :: more => (more.takeWhile Char.isDigit, more.dropWhile Char.isDigit)
    | _ => ([], rest)
  let power : Int := match rest with
    | _ :: more =>
      let (down, ds) := signOf more
      let n : Int := ds.foldl (fun n c => n * 10 + (c.toNat - 48)) 0
      if down then -n else n
    | [] => 0
  let shown :=
    if (whole ++ places).isEmpty then t
    else decimalText negative (whole ++ places) (power - places.length)
  .printed (txt "Decimal") (call "Decimal" [shown.quoted])

mutual

/-- A plain value as it is shown in a message. -/
def json : Json → Text
  | .null => txt "None"
  | .bool b => if b then txt "True" else txt "False"
  | .int n => intText n
  | .float x => Decimal.floatText x
  | .str s => s.quoted
  | .arr items => '[' :: jsonItems items ++ [']']
  | .obj members => '\x7b' :: jsonMembers members ++ ['\x7d']

def jsonItems : List Json → Text
  | [] => []
  | [v] => json v
  | v :: rest => json v ++ txt ", " ++ jsonItems rest

def jsonMembers : List (Text × Json) → Text
  | [] => []
  | [(key, v)] => key.quoted ++ txt ": " ++ json v
  | (key, v) :: rest => key.quoted ++ txt ": " ++ json v ++ txt ", " ++ jsonMembers rest

end

/-- A plain value as it is shown by itself: a text without quotes. -/
def jsonPlain : Json → Text
  | .str s => s
  | j => json j

end EpFormat.Measure.Printed
