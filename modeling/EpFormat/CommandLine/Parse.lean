import EpFormat.CommandLine.Options
import EpFormat.Text.Blank
import EpFormat.Text.Digit

/-!
# Parse — reading the command line

The words are first told apart: flags with what is joined to them, the double dash, and plain words.  A long flag
may be shortened as long as only one flag is meant.  Then they are taken from left to right: plain words in one
group are the paths, and any further plain word or unknown flag is left over and refused at the end.
-/
namespace EpFormat.CommandLine

/-- Why reading ends early: help is asked for, or the command line is refused. -/
inductive Stop
  | help
  | refused (e : UsageError)

inductive Word
  | plain (text : Text)
  | doubleDash
  /-- A word that looks like a flag: the flag, if it is known, its spelling, and the value joined to it. -/
  | flag (text : Text) (known : Option Flag) (name : Text) (value : Option Text)

namespace Word

/-- Whether a text reads as a negative number. -/
def isNegativeNumber (t : Text) : Bool :=
  let isDigit (c : Char) : Bool := (digit? c).isSome
  let body := match t.reverse with
    | '\n' :: rest => rest.reverse
    | _ => t
  match body with
  | '-' :: digits =>
    match digits.dropWhile isDigit with
    | [] => !digits.isEmpty
    | '.' :: places => !places.isEmpty && places.all isDigit
    | _ => false
  | _ => false

/-- A text cut at its first equals sign. -/
def cutEquals (t : Text) : Text × Option Text :=
  match t.dropWhile (· != '=') with
  | [] => (t, none)
  | _ :: value => (t.takeWhile (· != '='), some value)

/-- The flags that a long word may mean: those whose spelling it begins. -/
def longCandidates (t : Text) : List (Flag × Text × Option Text) :=
  let (start, value) := cutEquals t
  (Flag.spellings.filter (fun s => Text.startsWith start s.1)).map (fun s => (s.2, s.1, value))

/-- The flags that a short word may mean: the one of its first letter, with the rest as its value, and those whose
spelling it begins. -/
def shortCandidates (t : Text) : List (Flag × Text × Option Text) :=
  Flag.spellings.filterMap (fun s =>
    if s.1 = t.take 2 then some (s.2, s.1, some (t.drop 2))
    else if Text.startsWith t s.1 then some (s.2, s.1, none)
    else none)

def ofText (t : Text) : Except Stop Word :=
  match t with
  | '-' :: c :: _ =>
    match Flag.ofName? t with
    | some f => .ok (flag t (some f) t none)
    | none =>
      -- the spelling before an equals sign goes first: only what is no flag as it stands may be a shortened one
      let (name, value) := cutEquals t
      match value, Flag.ofName? name with
      | some v, some f => .ok (flag t (some f) name (some v))
      | _, _ =>
        match (if c = '-' then longCandidates t else shortCandidates t) with
        | [(f, name, value)] => .ok (flag t (some f) name value)
        | [] => .ok (if isNegativeNumber t || t.any (· = ' ') then plain t else flag t none t none)
        | several => .error (.refused (.ambiguous t (several.map (fun s => s.2.1))))
  | _ => .ok (plain t)

/-- The words of a command line.  After a double dash all are plain. -/
def all : List Text → Except Stop (List Word)
  | [] => .ok []
  | t :: rest =>
    if t = ['-', '-'] then .ok (doubleDash :: rest.map plain)
    else
      match ofText t with
      | .error e => .error e
      | .ok w =>
        match all rest with
        | .error e => .error e
        | .ok ws => .ok (w :: ws)

def text : Word → Text
  | plain t => t
  | doubleDash => ['-', '-']
  | flag t _ _ _ => t

def isFlag : Word → Bool
  | flag _ _ _ _ => true
  | _ => false

end Word

/-! ## Values -/

/-- Reads digits of any script with single underscores between them; `after` says that a digit came before. -/
def digitsAux : Nat → Bool → Text → Option Nat
  | n, after, [] => if after then some n else none
  | n, after, c :: rest =>
    if c = '_' then (if after then digitsAux n false rest else none)
    else match digit? c with
      | some d => digitsAux (n * 10 + d) true rest
      | none => none

def mostDigits : Nat := 4300

/-- Reads an integer: white space around it, a sign, digits of any script with single underscores between them. -/
def integer? (t : Text) : Option Int :=
  let body := Text.trim t
  let (negative, digits) := match body with
    | '-' :: rest => (true, rest)
    | '+' :: rest => (false, rest)
    | _ => (false, body)
  if mostDigits < (digits.filter (· != '_')).length then none
  else (digitsAux 0 false digits).map (fun n => if negative then -(n : Int) else (n : Int))

def eolNames : List Text := [txt "lf", txt "crlf", txt "preserve"]

def levelNames : List Text := [txt "error", txt "info", txt "debug"]

def levelOf (t : Text) : Level := if t = txt "debug" then .debug else if t = txt "info" then .info else .error

/-- What the command line says, with a flag that takes no value. -/
def Options.turnOn (o : Options) : Flag → Except Stop Options
  | .help => .error .help
  | .write => .ok { o with write := true }
  | .check => .ok { o with check := true }
  | .diff => .ok { o with diff := true }
  | .stdin => .ok { o with stdin := true }
  | .stdout => .ok { o with stdout := true }
  | .noSpaceInDelims => .ok { o with noSpaceInDelims := true }
  | .perlKeywordSpacing => .ok { o with perlKeywordSpacing := true }
  | .selfTest => .ok { o with selfTest := true }
  | .verbose => .ok { o with verbose := true }
  | .version => .ok { o with version := true }
  | _ => .ok o

/-- What the command line says, with a flag and its value.  A double dash joined to a flag is no value. -/
def Options.give (o : Options) (f : Flag) (value : Text) : Except Stop Options :=
  match f with
  | .out => .ok { o with out := some (if value = ['-', '-'] then [] else value) }
  | .perltidy => .ok { o with perltidy := some (if value = ['-', '-'] then [] else value) }
  | .indent =>
    match integer? value with
    | some n => .ok { o with indent := some n }
    | none => .error (.refused (.invalidInteger f value))
  | .eol =>
    if eolNames.contains value || value = ['-', '-'] then .ok { o with eol := .ofName value }
    else .error (.refused (.invalidChoice f value eolNames))
  | .logLevel =>
    if value = ['-', '-'] then .ok { o with logLevel := none }
    else if levelNames.contains value then .ok { o with logLevel := some (levelOf value) }
    else .error (.refused (.invalidChoice f value levelNames))
  | _ => .ok o

/-! ## Reading -/

/-- Short flags written together: those that take no value, and the last one with the value joined to it.  `seen`
are the ones before, latest first. -/
def unbundle : List Flag → Flag → Bool → Text → Except Stop (List Flag × Flag × Option Text)
  | seen, f, isShort, value =>
    if f.takesValue then .ok (seen.reverse, f, some value)
    else
      match value with
      | [] => .error (.refused (.ignoredArgument f value))
      | c :: rest =>
        if isShort then
          match Flag.ofName? ['-', c] with
          | none => .error (.refused (.ignoredArgument f value))
          | some g => if rest.isEmpty then .ok ((f :: seen).reverse, g, none) else unbundle (f :: seen) g true rest
        else .error (.refused (.ignoredArgument f value))
  termination_by _ _ _ value => value.length

def turnOnAll (o : Options) : List Flag → Except Stop Options
  | [] => .ok o
  | f :: rest =>
    match o.turnOn f with
    | .error e => .error e
    | .ok o => turnOnAll o rest

def isShortName : Text → Bool
  | _ :: '-' :: _ => false
  | _ => true

/-- The paths of a group of plain words: its first double dash is left out. -/
def pathsOf (ws : List Word) : List Text := (ws.map Word.text).erase ['-', '-']

structure Reading where
  options : Options := {}
  /-- Whether the group of paths has been read. -/
  grouped : Bool := false
  leftOver : List Text := []

/-- Reads words from left to right. -/
def readWords : Nat → Reading → List Word → Except Stop Reading
  | 0, r, _ => .ok r
  | _ + 1, r, [] => .ok r
  | fuel + 1, r, .flag text none _ _ :: rest => readWords fuel { r with leftOver := r.leftOver ++ [text] } rest
  | fuel + 1, r, .flag _ (some f) name value :: rest =>
    match (match value with
      | some v => unbundle [] f (isShortName name) v
      | none => .ok ([], f, none)) with
    | .error e => .error e
    | .ok (on, last, value) =>
      match value, last.takesValue, rest with
      | some v, _, _ =>
        match (turnOnAll r.options on).bind (·.give last v) with
        | .error e => .error e
        | .ok o => readWords fuel { r with options := o } rest
      | none, true, .plain v :: more =>
        match (turnOnAll r.options on).bind (·.give last v) with
        | .error e => .error e
        | .ok o => readWords fuel { r with options := o } more
      | none, true, _ => .error (.refused (.expectedArgument last))
      | none, false, _ =>
        match turnOnAll r.options (on ++ [last]) with
        | .error e => .error e
        | .ok o => readWords fuel { r with options := o } rest
  | fuel + 1, r, w :: rest =>
    let group := w :: rest.takeWhile (fun w => !w.isFlag)
    let more := rest.dropWhile (fun w => !w.isFlag)
    if r.grouped then readWords fuel { r with leftOver := r.leftOver ++ group.map Word.text } more
    else
      readWords fuel { r with grouped := true, options := { r.options with paths := pathsOf group } } more

def parse (args : List Text) : Except Stop Options :=
  match Word.all args with
  | .error e => .error e
  | .ok words =>
    match readWords (words.length + 1) {} words with
    | .error e => .error e
    | .ok r => if r.leftOver.isEmpty then .ok r.options else .error (.refused (.unrecognized r.leftOver))

end EpFormat.CommandLine
