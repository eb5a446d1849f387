import EpFormat.Json.Read
import EpFormat.Text.Search
import EpFormat.Text.Utf8

/-!
# Target — the address that a request asks for

A target is a path and a query.  The path is kept as text, with percent escapes resolved; in an address it is
written with escapes again where a character needs one.
-/
namespace EpFormat.Service

/-- The bytes of a text in which `%` and two hexadecimal digits stand for a byte. -/
def unescapeBytes : Text → Utf8.Bytes
  | [] => []
  | '%' :: a :: b :: rest =>
    match Json.hexValue? a, Json.hexValue? b with
    | some x, some y => (x * 16 + y).toUInt8 :: unescapeBytes rest
    | _, _ => 0x25 :: unescapeBytes (a :: b :: rest)
  | c :: rest => Utf8.encodeChar c ++ unescapeBytes rest

def unescape (t : Text) : Text := Utf8.decode (unescapeBytes t)

def escapeDigit (n : Nat) : Char := (Nat.digitChar n).toUpper

/-- A text with escapes for every character that is not in `safe` and no letter, digit or one of `_.-~`. -/
def escape (safe : Text) (t : Text) : Text :=
  t.flatMap (fun c =>
    if c.isAlphanum || c = '_' || c = '.' || c = '-' || c = '~' || safe.any (· = c) then [c]
    else (Utf8.encodeChar c).flatMap (fun b => ['%', escapeDigit (b.toNat / 16), escapeDigit (b.toNat % 16)]))

/-- Characters that stand for themselves in a path. -/
def pathSafe : Text := txt "!$&'()*+,/:;=@%"

structure Target where
  path : Text
  query : Text
  deriving DecidableEq, Repr

namespace Target

/-- The target that a text spells.  What follows a `#` is not sent. -/
def ofText (t : Text) : Target :=
  let sent := t.takeWhile (· ≠ '#')
  { path := '/' :: (unescape (sent.takeWhile (· ≠ '?'))).dropWhile (· = '/')
    query := (sent.dropWhile (· ≠ '?')).drop 1 }

def secureUrl (target : Target) (host : Text) : Text :=
  txt "https://" ++ host ++ escape pathSafe target.path
    ++ (if target.query.isEmpty then [] else '?' :: escape ('?' :: pathSafe) target.query)

end Target
end EpFormat.Service
