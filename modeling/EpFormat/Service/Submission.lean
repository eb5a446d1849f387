import EpFormat.Json.Basic
import EpFormat.Text.Blank
import EpFormat.Text.Lines
import EpFormat.Text.Utf8

/-!
# Submission — texts sent to the service

Two gates stand before the formatter.  `acceptsText` lets a text through that has at most a mebibyte and only
visible ASCII and white space.  `Submission.read` takes the text out of the object that a client sends, and says
what is wrong with the object if it cannot.
-/
namespace EpFormat.Service

/-- The most bytes that a text, a file or a request body may have. -/
def maxBytes : Nat := 1024 * 1024

/-- Visible ASCII, the space, and white space of any kind. -/
def isPlain (c : Char) : Bool := (0x20 ≤ c.toNat && c.toNat ≤ 0x7E) || isBlank c

/-- Whether the formatter is given this text. -/
def acceptsText (t : Text) : Bool := Utf8.size t ≤ maxBytes && t.all isPlain

inductive SubmissionError
  | notAnObject
  | notAText
  | empty
  | tooLarge
  deriving DecidableEq, Repr

def SubmissionError.message : SubmissionError → Text
  | notAnObject => txt "Invalid data format"
  | notAText => txt "input_text must be a string"
  | empty => txt "input_text cannot be empty"
  | tooLarge => txt "input_text too large"

/-- Whether a value counts as yes: not null, false, zero or empty. -/
def isTrue : Json → Bool
  | .null => false
  | .bool b => b
  | .int n => n ≠ 0
  | .float x => !(x == 0.0)
  | .str s => !s.isEmpty
  | .arr items => !items.isEmpty
  | .obj members => !members.isEmpty

/-- A text to format, and whether blank lines are to go. -/
structure Submission where
  text : Text
  dropBlankLines : Bool
  deriving DecidableEq, Repr

namespace Submission

def textKey : Text := txt "input_text"

def dropKey : Text := txt "remove_empty"

/-- The text of an object; a missing one counts as empty. -/
def textOf (data : Json) : Except SubmissionError Text :=
  match data with
  | .obj _ =>
    match (data.get? textKey).getD (.str []) with
    | .str t =>
      if allBlank t then .error .empty
      else if maxBytes < Utf8.size t then .error .tooLarge
      else .ok t
    | _ => .error .notAText
  | _ => .error .notAnObject

def read (data : Json) : Except SubmissionError Submission :=
  (textOf data).map (fun t => ⟨t, ((data.get? dropKey).map isTrue).getD false⟩)

end Submission

/-- The lines that are not blank, with a line feed between each two. -/
def withoutBlankLines (t : Text) : Text := Text.unrows ((Text.lines t).filter (fun l => !allBlank l))

end EpFormat.Service
