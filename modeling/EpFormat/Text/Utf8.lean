import EpFormat.Text.Ranges

/-!
# Utf8 — bytes and texts

`decode?` reads well-formed UTF-8 and refuses anything else.  `decode` reads any bytes: each maximal part that
begins like a character and breaks off, and each byte that begins none, becomes one replacement character.
`encode` writes a text.
-/
namespace EpFormat.Utf8

/-- Bytes are handled as a list of numbers below 256. -/
abbrev Bytes := List UInt8

def encodeChar (c : Char) : Bytes :=
  let n := c.toNat
  if n < 0x80 then [n.toUInt8]
  else if n < 0x800 then [(0xC0 + n / 64).toUInt8, (0x80 + n % 64).toUInt8]
  else if n < 0x10000 then [(0xE0 + n / 4096).toUInt8, (0x80 + n / 64 % 64).toUInt8, (0x80 + n % 64).toUInt8]
  else [(0xF0 + n / 262144).toUInt8, (0x80 + n / 4096 % 64).toUInt8, (0x80 + n / 64 % 64).toUInt8,
    (0x80 + n % 64).toUInt8]

def encode (t : Text) : Bytes := t.flatMap encodeChar

def size (t : Text) : Nat := t.foldl (fun n c => n + c.utf8Size) 0

/-- What a first byte announces: how many bytes follow, the bits it gives, and the bounds of the second byte. -/
def lead? (b : UInt8) : Option (Nat × Nat × Nat × Nat) :=
  let n := b.toNat
  if n < 0x80 then some (0, n, 0, 0)
  else if n < 0xC2 then none
  else if n < 0xE0 then some (1, n - 0xC0, 0x80, 0xBF)
  else if n = 0xE0 then some (2, 0, 0xA0, 0xBF) -- less would fit into two bytes
  else if n = 0xED then some (2, 0xD, 0x80, 0x9F) -- more would be a surrogate
  else if n < 0xF0 then some (2, n - 0xE0, 0x80, 0xBF)
  else if n = 0xF0 then some (3, 0, 0x90, 0xBF) -- less would fit into three bytes
  else if n < 0xF4 then some (3, n - 0xF0, 0x80, 0xBF)
  else if n = 0xF4 then some (3, 4, 0x80, 0x8F) -- more would be no code point
  else none

/-- Reads `k` continuation bytes, the first of them between `lo` and `hi`.  Gives the code point if all are there,
and how many bytes were taken. -/
def continuation : Nat → Nat → Nat → Nat → Bytes → Nat → Option Nat × Nat
  | 0, acc, _, _, _, taken => (some acc, taken)
  | _ + 1, _, _, _, [], taken => (none, taken)
  | k + 1, acc, lo, hi, b :: rest, taken =>
    if lo ≤ b.toNat && b.toNat ≤ hi then continuation k (acc * 64 + (b.toNat - 0x80)) 0x80 0xBF rest (taken + 1)
    else (none, taken)

/-- The reading of one character at the head of the bytes: the character, or none for a bad part, and how many
bytes beyond the first belong to it. -/
def step (b : UInt8) (rest : Bytes) : Option Char × Nat :=
  match lead? b with
  | none => (none, 0)
  | some (k, acc, lo, hi) =>
    match continuation k acc lo hi rest 0 with
    | (some n, taken) => (some (Char.ofNat n), taken)
    | (none, taken) => (none, taken)

/-- The characters of the bytes, `none` for each bad part; `skip` bytes are still part of the last one. -/
def readAux : List (Option Char) → Nat → Bytes → List (Option Char)
  | done, _, [] => done.reverse
  | done, k + 1, _ :: rest => readAux done k rest
  | done, 0, b :: rest =>
    let (c, taken) := step b rest
    readAux (c :: done) taken rest

def read (bs : Bytes) : List (Option Char) := readAux [] 0 bs

def decode? (bs : Bytes) : Option Text :=
  let cs := read bs
  if cs.all Option.isSome then some (cs.filterMap id) else none

/-- The text of any bytes, with the replacement character for each bad part. -/
def decode (bs : Bytes) : Text := (read bs).map (fun c => c.getD (Char.ofNat 0xFFFD))

inductive Fault
  | start
  | continuation
  | cutOff
  deriving DecidableEq, Repr

/-- The first bad part of some bytes: where it is, its first byte, and what is wrong with it. -/
structure DecodeError where
  first : Nat
  last : Nat
  byte : UInt8
  fault : Fault
  deriving DecidableEq, Repr

def Fault.message : Fault → Text
  | start => txt "invalid start byte"
  | continuation => txt "invalid continuation byte"
  | cutOff => txt "unexpected end of data"

def DecodeError.message (e : DecodeError) : Text :=
  let number (n : Nat) : Text := Nat.toDigits 10 n
  if e.first = e.last then
    txt "'utf-8' codec can't decode byte 0x" ++ [Nat.digitChar (e.byte.toNat / 16), Nat.digitChar (e.byte.toNat % 16)]
      ++ txt " in position " ++ number e.first ++ txt ": " ++ e.fault.message
  else
    txt "'utf-8' codec can't decode bytes in position " ++ number e.first ++ '-' :: number e.last ++ txt ": "
      ++ e.fault.message

/-- The first bad part, from byte number `pos` on; `skip` bytes are still part of the last character. -/
def firstBad : Nat → Nat → Bytes → Option DecodeError
  | _, _, [] => none
  | pos, k + 1, _ :: rest => firstBad (pos + 1) k rest
  | pos, 0, b :: rest =>
    match step b rest with
    | (some _, taken) => firstBad (pos + 1) taken rest
    | (none, taken) =>
      let fault := if (lead? b).isNone then .start else if rest.length = taken then .cutOff else .continuation
      some ⟨pos, pos + taken, b, fault⟩

/-- The text of well-formed bytes, or the first bad part. -/
def decodeStrict (bs : Bytes) : Except DecodeError Text :=
  match firstBad 0 0 bs with
  | some e => .error e
  | none => .ok (decode bs)

end EpFormat.Utf8
