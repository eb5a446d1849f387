import EpFormat.Text.LowerCase
import EpFormat.Text.Search

/-!
# Path — names of files

A path is a root and components.  Empty components and single dots are left out; two dots stay, because where
they lead depends on the files.  Two slashes at the start are a root of their own, three or more are one.
-/
namespace EpFormat.Files

structure Path where
  root : Text
  parts : List Text
  deriving DecidableEq, Repr

namespace Path

def components (t : Text) : List Text :=
  t.foldr (fun c acc =>
    if c = '/' then [] :: acc
    else match acc with
      | [] => [[c]]
      | r :: rs => (c :: r) :: rs) [[]]

/-- The root at the head of a text. -/
def rootOf : Text → Text
  | '/' :: '/' :: '/' :: _ => ['/']
  | '/' :: '/' :: _ => ['/', '/']
  | '/' :: _ => ['/']
  | _ => []

def ofText (t : Text) : Path := ⟨rootOf t, (components t).filter (fun p => !p.isEmpty && p ≠ ['.'])⟩

/-- The path as it is written; the empty one is a dot. -/
def toText (p : Path) : Text :=
  if p.root.isEmpty && p.parts.isEmpty then ['.'] else p.root ++ Text.join ['/'] p.parts

def name (p : Path) : Text := p.parts.getLast?.getD []

def child (p : Path) (part : Text) : Path := { p with parts := p.parts ++ [part] }

def backup (p : Path) : Path := { p with parts := p.parts.dropLast ++ [p.name ++ txt ".bak"] }

/-- Whether the name, in lower case, ends in one of the extensions. -/
def hasExtension (extensions : List Text) (p : Path) : Bool :=
  extensions.any (fun e => Text.endsWith e (Text.lower p.name))

end Path
end EpFormat.Files
