import EpFormat.Measure.Sha256
import EpFormat.Measure.Value
import EpFormat.Text.Search

/-!
# Fingerprint — a digest that tells results apart

`encode` writes a value as bytes, and the fingerprint is their digest.  A float counts with six significant digits,
so that noise in the last places does not show.  The members of sets and dictionaries are put in the order of
their fingerprints, so that their own order does not show.  Values nested too deep are left out.
-/
namespace EpFormat.Measure

open Utf8 (Bytes)

def ascii (t : Text) : Bytes := Utf8.encode t

/-- Whether one text comes before another, or is the same. -/
def textLe : Text → Text → Bool
  | [], _ => true
  | _ :: _, [] => false
  | a :: s, b :: t => if a = b then textLe s t else a.toNat < b.toNat

/-- A float with six significant digits; zero has no sign. -/
def floatForm (x : Float) : Text :=
  if x == 0.0 then txt "0.0" else Decimal.floatText (Decimal.roundSignificant 6 x)

def shapeText : List Nat → Text
  | [n] => '(' :: Decimal.natText n ++ txt ",)"
  | ns => '(' :: Text.join (txt ", ") (ns.map Decimal.natText) ++ [')']

def tag (c : Char) (n : Nat) : Bytes := ascii (c :: Decimal.natText n)

def maxDepth : Nat := 8

def maxItems : Nat := 2000

/-- Puts pairs in the order of the digests of their first parts. -/
def inDigestOrder (parts : List (Bytes × Bytes)) : Bytes :=
  let keyed := parts.map (fun (k, v) => (Sha256.hexDigest k, k ++ v))
  (keyed.mergeSort (fun a b => textLe a.1 b.1)).flatMap (·.2)

/-- A value as bytes, `fuel` levels deep. -/
def encodeAt : Nat → Value → Bytes
  | 0, _ => []
  | fuel + 1, v =>
    match v with
    -- nothing marks where a part ends, so that two lists may be written alike
    | .none => ascii (txt "None")
    | .bool b => ascii (if b then txt "True" else txt "False")
    | .int n => ascii (Decimal.intText n)
    | .float x => ascii (floatForm x)
    | .complex re im => ascii ('c' :: floatForm re ++ floatForm im)
    | .text t => ascii ('s' :: t)
    | .bytes _ content => ascii ['s'] ++ content
    | .seq _ items => tag 'L' items.length ++ (items.take maxItems).flatMap (encodeAt fuel)
    | .set _ items =>
      tag 'S' items.length
        ++ ascii ((items.map (fun x => Sha256.hexDigest (encodeAt fuel x))).mergeSort textLe).flatten
    | .dict entries | .record _ entries =>
      tag 'D' entries.length ++ inDigestOrder (entries.map (fun (k, x) => (encodeAt fuel k, encodeAt fuel x)))
    | .printed _ shown => ascii shown
    | .array element shape items content =>
      ascii ('A' :: shapeText shape ++ element)
        ++ (if element.any (· = 'f') then items.flatMap (encodeAt fuel) else Sha256.digest content)
    | .other space name => ascii ('<' :: space ++ '.' :: name ++ ['>'])

def encode (v : Value) : Bytes := encodeAt (maxDepth + 1) v

def fingerprint (v : Value) : Text := Sha256.hexDigest (encode v)

end EpFormat.Measure
