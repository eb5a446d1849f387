import EpFormat.Service.Submission
import EpFormat.Text.AsciiResidue
import EpFormat.Text.Printable
import EpFormat.Text.Search

/-!
# Upload — files sent to the service

A file has a name and bytes, and reading it moves a position.  The check looks at the name first, then at the
size, then at the content; a file whose bytes are not UTF-8 is left read to its end.
-/
namespace EpFormat.Service

def pieces (t : Text) : List Text :=
  let (last, done) := t.foldl (fun (current, done) c =>
    if isBlank c then (([] : Text), if current.isEmpty then done else current.reverse :: done)
    else (c :: current, done)) (([] : Text), ([] : List Text))
  (if last.isEmpty then done else last.reverse :: done).reverse

def isNameChar (c : Char) : Bool := c.isAlphanum || c = '_' || c = '.' || c = '-'

/-- A name that is safe to store under: ASCII only, without folders, and with neither a point nor an underscore
at its ends. -/
def safeName (name : Text) : Text :=
  let ascii := name.flatMap asciiResidue
  let joined := Text.join ['_'] (pieces (ascii.map (fun c => if c = '/' then ' ' else c)))
  let isEdge (c : Char) : Bool := c = '.' || c = '_'
  Text.dropEndWhile isEdge ((joined.filter isNameChar).dropWhile isEdge)

def uploadEndings : List Text := [txt ".ep"]

inductive Verdict
  | noFile
  | wrongType
  | tooLarge
  | wrongContent
  | notUtf8
  | valid
  deriving DecidableEq, Repr

def Verdict.message : Verdict → Text
  | noFile => txt "No file provided"
  | wrongType => txt "Invalid file type"
  | tooLarge => txt "File too large"
  | wrongContent => txt "Invalid file content"
  | notUtf8 => txt "File must be valid UTF-8 text"
  | valid => txt "Valid file"

/-- A file as it is sent, with the position that the next read begins at. -/
structure Upload where
  name : Option Text
  content : Utf8.Bytes
  position : Nat := 0

/-- Whether every character may stand in a template file: a printable one, a tab, or a line end. -/
def isTemplateText (t : Text) : Bool := t.all (fun c => isPrintable c || c = '\n' || c = '\r' || c = '\t')

abbrev Reading := StateM Upload

namespace Reading

def seek (n : Nat) : Reading Unit := modify (fun file => { file with position := n })

def seekEnd : Reading Unit := modify (fun file => { file with position := file.content.length })

def tell : Reading Nat := do return (← get).position

/-- The bytes from the position on, which is then at the end.  Behind the end there are none, and the position stays. -/
def read : Reading Utf8.Bytes := do
  let file ← get
  set { file with position := max file.position file.content.length }
  return file.content.drop file.position

/-- How many bytes there are.  The file is then at its start. -/
def size : Reading Nat := do
  seekEnd
  let n ← tell
  seek 0
  return n

/-- The check of what is read.  The file goes back to its start when the bytes have been decoded. -/
def checkContent : Reading Verdict := do
  match Utf8.decode? (← read) with
  -- no `seek` here: a file that is refused for its bytes stays at its end
  | none => return .notUtf8
  | some t =>
    seek 0
    return if isTemplateText t then .valid else .wrongContent

/-- The check of a file: its name, its size, its content. -/
def check : Reading Verdict := do
  match (← get).name with
  | none => return .noFile
  | some name =>
    if name.isEmpty then
      return .noFile
    else if !uploadEndings.any (Text.endsWith · (safeName name)) then
      return .wrongType
    else
      let n ← size
      if maxBytes < n then
        return .tooLarge
      else
        checkContent

end Reading

/-- The verdict on a file, and the file as the check leaves it. -/
def Upload.check (file : Upload) : Verdict × Upload := Reading.check.run file

end EpFormat.Service
