import EpFormat.Text.Lines

/-!
# Config — the settings of the formatter
-/
namespace EpFormat

def templateExtensions : List Text := [txt ".ep", txt ".htm.ep", txt ".html.ep"]

structure Config where
  /-- Spaces per level; none for a width below one. -/
  indentWidth : Int := 2
  eol : Eol := .lf
  /-- Whether tags get exactly one space inside their delimiters. -/
  normalizeDelimiters : Bool := true
  /-- The tidier to run; an empty path, like none, means to look for it. -/
  tidierPath : Option Text := none
  tidierOptions : Option (List Text) := none
  extensions : List Text := templateExtensions
  respectGitignore : Bool := true
  verbose : Bool := false
  keywordSpacing : Bool := false

end EpFormat
