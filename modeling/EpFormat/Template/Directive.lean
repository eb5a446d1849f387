import EpFormat.Template.Tag

/-!
# Directive — template lines of Perl

A line directive is a line that begins with `%` after white space.
-/
namespace EpFormat.Template

structure Directive where
  indent : Text
  kind : Kind
  body : Text
  deriving DecidableEq, Repr

namespace Directive

/-- The text up to its end, where one line feed at the very end is left out; none if there is any other. -/
def toLineEnd? (t : Text) : Option Text :=
  match t.dropWhile (· != '\n') with
  | [] => some t
  | ['\n'] => some (t.takeWhile (· != '\n'))
  | _ => none

def read? (line : Text) : Option Directive :=
  match line.dropWhile isBlank with
  | '%' :: rest =>
    let (kind, rest) := Kind.read rest
    match toLineEnd? rest with
    | some body => some ⟨line.takeWhile isBlank, kind, body⟩
    | none => none
  | _ => none

/-- A text after one space, or nothing for an empty one. -/
def afterSpace (t : Text) : Text := if t.isEmpty then [] else ' ' :: t

/-- The directive as it is written, without indentation. -/
def format (tidier : Perl.Tidier) (cfg : Config) (d : Directive) : Perl.Tidying Text :=
  match d.kind with
  | .comment =>
    pure ('%' :: '#' :: (if cfg.normalizeDelimiters then afterSpace (Text.trim d.body) else d.body))
  | .statement => do
    let inner ← Perl.tidyStatement tidier cfg d.body
    return '%' :: afterSpace inner
  | kind => do
    let inner ← Perl.tidyExpression tidier cfg d.body
    return '%' :: (kind.mark ++ afterSpace inner)

end Directive
end EpFormat.Template
