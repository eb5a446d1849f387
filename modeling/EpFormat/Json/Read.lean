import EpFormat.Json.Basic

/-!
# Json.Read — reading the exchange format

The reader takes the whole text or refuses it.  A number with a point or an exponent is a float, any other is a
whole number of at most `maxDigits` digits.  `NaN` and the two infinities are read too.  Of two members with one key the later one
counts.
-/
namespace EpFormat.Json

def isSpace (c : Char) : Bool := c = ' ' || c = '\t' || c = '\n' || c = '\r'

def skipSpace (t : Text) : Text := t.dropWhile isSpace

def hexValue? (c : Char) : Option Nat :=
  if c.isDigit then some (c.toNat - 48)
  else if 'a' ≤ c && c ≤ 'f' then some (c.toNat - 87)
  else if 'A' ≤ c && c ≤ 'F' then some (c.toNat - 55)
  else none

def hex4? : Text → Option (Nat × Text)
  | a :: b :: c :: d :: rest =>
    match hexValue? a, hexValue? b, hexValue? c, hexValue? d with
    | some w, some x, some y, some z => some (((w * 16 + x) * 16 + y) * 16 + z, rest)
    | _, _, _, _ => none
  | _ => none

def shortEscape? (c : Char) : Option Char :=
  if c = '"' || c = '\\' || c = '/' then some c
  else if c = 'b' then some (Char.ofNat 8)
  else if c = 'f' then some (Char.ofNat 12)
  else if c = 'n' then some '\n'
  else if c = 'r' then some '\r'
  else if c = 't' then some '\t'
  else none

/-- Reads an escape after its backslash: two surrogates in a row are one character, and one alone becomes the
replacement character. -/
def escape? : Text → Option (Char × Text)
  | 'u' :: rest =>
    match hex4? rest with
    | none => none
    | some (n, after) =>
      if 0xD800 ≤ n && n < 0xDC00 then
        match after with
        | '\\' :: 'u' :: more =>
          match hex4? more with
          | some (low, tail) =>
            if 0xDC00 ≤ low && low < 0xE000 then
              some (Char.ofNat (0x10000 + (n - 0xD800) * 1024 + (low - 0xDC00)), tail)
            -- a surrogate without its other half is no character of a text
            else some (Char.ofNat 0xFFFD, after)
          | none => some (Char.ofNat 0xFFFD, after)
        | _ => some (Char.ofNat 0xFFFD, after)
      else if 0xDC00 ≤ n && n < 0xE000 then some (Char.ofNat 0xFFFD, after)
      else some (Char.ofNat n, after)
  | c :: rest => (shortEscape? c).map (·, rest)
  | [] => none

/-- Reads a string after its opening quote; `fuel` bounds the characters.  Controls may not stand in it. -/
def string? : Nat → Text → Text → Option (Text × Text)
  | 0, _, _ => none
  | _ + 1, _, [] => none
  | fuel + 1, done, c :: rest =>
    if c = '"' then some (done.reverse, rest)
    else if c = '\\' then
      match escape? rest with
      | some (e, after) => string? fuel (e :: done) after
      | none => none
    else if c.toNat < 32 then none
    else string? fuel (c :: done) rest

def digitsValue (t : Text) : Nat := t.foldl (fun n c => n * 10 + (c.toNat - 48)) 0

/-- Reads the digits after a point, if there are any. -/
def fraction? : Text → Option (Text × Text)
  | '.' :: rest =>
    match rest.takeWhile Char.isDigit with
    | [] => none
    | ds => some (ds, rest.dropWhile Char.isDigit)
  | _ => none

/-- Reads an exponent, if there is one. -/
def exponent? : Text → Option (Int × Text)
  | c :: rest =>
    if c = 'e' || c = 'E' then
      let (negative, body) := match rest with
        | '-' :: more => (true, more)
        | '+' :: more => (false, more)
        | _ => (false, rest)
      match body.takeWhile Char.isDigit with
      | [] => none
      | ds =>
        let n : Int := digitsValue ds
        some (if negative then -n else n, body.dropWhile Char.isDigit)
    else none
  | [] => none

/-- A float from its digits and the power of ten they are taken by.  Beyond 400 places on either side it is
infinite or zero, whatever the digits are. -/
def floatOf (negative : Bool) (digits : Text) (exponent : Int) : Float :=
  let significant := digits.dropWhile (· = '0')
  let size : Int := exponent + significant.length
  let x :=
    if significant.isEmpty || size < -400 then 0.0
    else if 400 < size then 1.0 / 0.0
    else Float.ofScientific (digitsValue significant) (exponent < 0) exponent.natAbs
  if negative then -x else x

/-- The most digits that a whole number may have. -/
def maxDigits : Nat := 4300

def sign : Text → Bool × Text
  | '-' :: rest => (true, rest)
  | rest => (false, rest)

/-- Reads the whole part of a number: a zero, or digits that do not begin with one. -/
def wholePart? : Text → Option (Text × Text)
  | '0' :: rest => some (['0'], rest)
  | t =>
    match t.takeWhile Char.isDigit with
    | [] => none
    | ds => some (ds, t.dropWhile Char.isDigit)

def number? (t : Text) : Option (Json × Text) :=
  let (negative, body) := sign t
  match wholePart? body with
  | none => none
  | some (whole, rest) =>
    let (places, rest, pointed) := match fraction? rest with
      | some (ds, more) => (ds, more, true)
      | none => ([], rest, false)
    let (power, rest, scaled) := match exponent? rest with
      | some (n, more) => (n, more, true)
      | none => (0, rest, false)
    if pointed || scaled then
      some (float (floatOf negative (whole ++ places) (power - places.length)), rest)
    else if maxDigits < whole.length then none
    else
      let n : Int := digitsValue whole
      some (int (if negative then -n else n), rest)

def word? (t : Text) : Option (Json × Text) :=
  match t with
  | 'n' :: 'u' :: 'l' :: 'l' :: rest => some (null, rest)
  | 't' :: 'r' :: 'u' :: 'e' :: rest => some (bool true, rest)
  | 'f' :: 'a' :: 'l' :: 's' :: 'e' :: rest => some (bool false, rest)
  | 'N' :: 'a' :: 'N' :: rest => some (float (0.0 / 0.0), rest)
  | 'I' :: 'n' :: 'f' :: 'i' :: 'n' :: 'i' :: 't' :: 'y' :: rest => some (float (1.0 / 0.0), rest)
  | '-' :: 'I' :: 'n' :: 'f' :: 'i' :: 'n' :: 'i' :: 't' :: 'y' :: rest => some (float (-1.0 / 0.0), rest)
  | _ => none

mutual

/-- Reads a value at the head of the text. -/
def value? : Nat → Text → Option (Json × Text)
  | 0, _ => none
  | fuel + 1, t =>
    match t with
    | '"' :: rest => (string? (rest.length + 1) [] rest).map (fun (s, more) => (str s, more))
    | '[' :: rest =>
      match skipSpace rest with
      | ']' :: more => some (arr [], more)
      | more => items? fuel [] more
    | '\x7b' :: rest =>
      match skipSpace rest with
      | '\x7d' :: more => some (obj [], more)
      | more => members? fuel [] more
    | _ => (word? t).or (number? t)

/-- Reads the items of a list, at least one, after those in `done` (latest first). -/
def items? : Nat → List Json → Text → Option (Json × Text)
  | 0, _, _ => none
  | fuel + 1, done, t =>
    match value? fuel t with
    | none => none
    | some (v, rest) =>
      match skipSpace rest with
      | ',' :: more => items? fuel (v :: done) (skipSpace more)
      | ']' :: more => some (arr (v :: done).reverse, more)
      | _ => none

/-- Reads the members of an object, at least one, after those in `done`. -/
def members? : Nat → List (Text × Json) → Text → Option (Json × Text)
  | 0, _, _ => none
  | fuel + 1, done, t =>
    match t with
    | '"' :: rest =>
      match string? (rest.length + 1) [] rest with
      | none => none
      | some (key, more) =>
        match skipSpace more with
        | ':' :: after =>
          match value? fuel (skipSpace after) with
          | none => none
          | some (v, tail) =>
            let done := insert key v done
            match skipSpace tail with
            | ',' :: next => members? fuel done (skipSpace next)
            | '\x7d' :: next => some (obj done, next)
            | _ => none
        | _ => none
    | _ => none

end

/-- Reads a text that holds one value and white space. -/
def parse? (t : Text) : Option Json :=
  match value? (t.length + 1) (skipSpace t) with
  | some (v, rest) => if (skipSpace rest).isEmpty then some v else none
  | none => none

end EpFormat.Json
