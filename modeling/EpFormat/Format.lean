import EpFormat.Markup.Raw
import EpFormat.Template.Block

/-!
# Format — a whole template

The rows of a template are written one by one, each at the indentation that the markup and the Perl blocks
before it ask for.  Between the lines that open and close a raw element rows stay as they are.  A second pass
formats the Perl blocks that stand on lines of their own.  The result ends with a line end, and its line ends
are those of the settings.
-/
namespace EpFormat

/-- Where a walk through a template stands: the depth of markup, the depth of Perl blocks, and the raw element
that is open. -/
structure Place where
  markup : Nat := 0
  perl : Nat := 0
  raw : Option Text := none
  deriving DecidableEq, Repr

def Config.indentation (cfg : Config) (level : Nat) : Text := Text.spaces (cfg.indentWidth * level)

/-- The place after a row outside raw elements, and the level that the row is written at. -/
def Place.step (place : Place) (row : Text) : Nat × Place :=
  let shift := Template.Shift.ofLine row
  let nesting := Markup.Nesting.ofLine (Template.Tag.blankOut row)
  let markup := place.markup - nesting.before
  let perl := place.perl - shift.before
  (markup + perl,
    -- `net` counts the end tags at the head of the row too, and these were taken off already; nothing is added back
    -- for braces, so that those at the head of a directive count twice
    { markup := (markup + nesting.net + nesting.before).toNat
      perl := (perl + shift.after).toNat
      raw := nesting.rawOpen.filter (Markup.rawNames.contains ·) })

/-- The place after a row, and the level that the row is written at.  Inside a raw element only the line that
closes it has a level; the other rows stay where they are. -/
def Place.walk (place : Place) (row : Text) : Option Nat × Place :=
  match place.raw with
  | some name =>
    if Markup.rawClose? row = some name then
      (some (place.markup - 1 + place.perl), { place with markup := place.markup - 1, raw := none })
    else (none, place)
  | none =>
    let (level, next) := place.step row
    (some level, next)

/-- The content of a row: a directive, or a line with its tags formatted; inside a raw element the row itself. -/
def formatContent (tidier : Perl.Tidier) (cfg : Config) (place : Place) (row : Text) : Perl.Tidying Text :=
  if place.raw.isSome then pure row
  else
    match Template.Directive.read? row with
    | some d => d.format tidier cfg
    | none => Template.Tag.formatAll tidier cfg row

def formatRow (tidier : Perl.Tidier) (cfg : Config) (place : Place) (row : Text) : Perl.Tidying (Text × Place) :=
  match place.walk row with
  | (none, next) => pure (row, next)
  | (some level, next) => do
    let content ← formatContent tidier cfg place row
    return (Text.dropTrailingPad (cfg.indentation level ++ Text.trimLeft content), next)

/-- Rows as they are written, from a place on, put after the rows in `done` (latest first). -/
def formatRows (tidier : Perl.Tidier) (cfg : Config) : List Text → Place → List Text → Perl.Tidying (List Text)
  | done, _, [] => pure done.reverse
  | done, place, row :: rest => do
    let (line, next) ← formatRow tidier cfg place row
    formatRows tidier cfg (line :: done) next rest

def endLine (t : Text) : Text := if t.getLast? = some '\n' then t else t ++ ['\n']

/-- The end of formatting: a line end at the end, and the line ends of the settings. -/
def finish (cfg : Config) (source laid : Text) : Text :=
  let eol := if cfg.eol = .preserve then Eol.detect source else cfg.eol
  eol.apply (endLine laid)

def format (tidier : Perl.Tidier) (cfg : Config) (source : Text) : Perl.Tidying Text := do
  let rows ← formatRows tidier cfg [] {} (Text.rows (Eol.unify source))
  let laid ← Template.Block.formatAll tidier cfg (Text.unrows rows)
  return finish cfg source laid

end EpFormat
