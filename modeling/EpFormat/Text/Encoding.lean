import EpFormat.Text.Utf8

/-!
# Encoding — which form a run of bytes is in

A document that must begin with an ASCII character shows by its first bytes whether its characters take one, two
or four bytes and which byte of a number comes first; a byte order mark says so too.  `Encoding.guess` reads these
signs, and `decodeAny?` the text.
-/
namespace EpFormat

/-- The forms of a text in bytes.  In a wide form, `big` says that the highest byte comes first. -/
inductive Encoding
  | utf8
  | utf16 (big : Bool)
  | utf32 (big : Bool)
  deriving DecidableEq, Repr

namespace Encoding

open Utf8 (Bytes)

/-- The form that the first bytes show without a mark. -/
def ofZeros (bs : Bytes) : Encoding :=
  match bs with
  | a :: b :: c :: d :: _ =>
    if a = 0 then if b = 0 then utf32 true else utf16 true
    else if b = 0 then if c = 0 && d = 0 then utf32 false else utf16 false
    else utf8
  | [a, b] => if a = 0 then utf16 true else if b = 0 then utf16 false else utf8
  | _ => utf8

/-- The form of some bytes, and the bytes after the mark if there is one. -/
def guess (bs : Bytes) : Encoding × Bytes :=
  match bs with
  -- the four bytes come first: with the low byte in front, two of them are the mark of the 16-bit form
  | 0x00 :: 0x00 :: 0xFE :: 0xFF :: rest => (utf32 true, rest)
  | 0xFF :: 0xFE :: 0x00 :: 0x00 :: rest => (utf32 false, rest)
  | 0xFE :: 0xFF :: rest => (utf16 true, rest)
  | 0xFF :: 0xFE :: rest => (utf16 false, rest)
  | 0xEF :: 0xBB :: 0xBF :: rest => (utf8, rest)
  | _ => (ofZeros bs, bs)

def pair (big : Bool) (a b : UInt8) : Nat := if big then a.toNat * 256 + b.toNat else b.toNat * 256 + a.toNat

def units? (big : Bool) : Bytes → Option (List Nat)
  | [] => some []
  | [_] => none
  | a :: b :: rest => (units? big rest).map (pair big a b :: ·)

def char? (n : Nat) : Option Char := if n.isValidChar then some (Char.ofNat n) else none

/-- The text of 16-bit units: a high and a low surrogate in a row are one character. -/
def ofUnits? : List Nat → Option Text
  | [] => some []
  | n :: rest =>
    if 0xD800 ≤ n && n < 0xDC00 then
      match rest with
      | low :: more =>
        if 0xDC00 ≤ low && low < 0xE000 then
          (ofUnits? more).map (Char.ofNat (0x10000 + (n - 0xD800) * 1024 + (low - 0xDC00)) :: ·)
        else none
      | [] => none
    else
      match char? n, ofUnits? rest with
      | some c, some t => some (c :: t)
      | _, _ => none

/-- The text of 32-bit numbers, given as their halves. -/
def ofHalves? (big : Bool) : List Nat → Option Text
  | [] => some []
  | [_] => none
  | x :: y :: rest =>
    match char? (if big then x * 65536 + y else y * 65536 + x), ofHalves? big rest with
    | some c, some t => some (c :: t)
    | _, _ => none

def decode? (e : Encoding) (bs : Bytes) : Option Text :=
  match e with
  | utf8 => Utf8.decode? bs
  | utf16 big => (units? big bs).bind ofUnits?
  | utf32 big => (units? big bs).bind (ofHalves? big)

end Encoding

/-- The text of some bytes in the form that they show. -/
def decodeAny? (bs : Utf8.Bytes) : Option Text :=
  let (e, rest) := Encoding.guess bs
  e.decode? rest

end EpFormat
