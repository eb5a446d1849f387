import EpFormat.CommandLine.Run
import EpFormat.Service.Submission

/-!
# Worker — the formatter that the service starts

The service runs the formatter as a program of its own, which may be missing, fail, take too long, not start, or
write nothing.  The text goes to it in a file, and comes back in another one.  A text that the formatter is not given
is refused before anything is started.
-/
namespace EpFormat.Service

open Files (Path Workspace)

/-- How the formatter behaves when it is started. -/
inductive Worker
  | working
  | missing
  | failing
  | timedOut
  | unstartable
  | silent
  deriving DecidableEq, Repr

inductive WorkError
  | refused
  | missing
  | timedOut
  | failed
  | noOutput
  deriving DecidableEq, Repr

def WorkError.message : WorkError → Text
  | refused => txt "Invalid input text"
  | missing => txt "Formatter script not found"
  | timedOut => txt "Formatting operation timed out"
  | failed => txt "Formatting failed"
  | noOutput => txt "Failed to read output file"

def inputName : Text := txt "input.txt"

def outputName : Text := txt "output.txt"

/-- The directory made for one formatting, with the text in it. -/
def workplace (t : Text) : Workspace := ⟨[([inputName], .file (Utf8.encode t))]⟩

/-- The formatter at work on the text, where no tidier is installed. -/
def formatting (t : Text) : CommandLine.Report :=
  CommandLine.run .absent (workplace t) [] [txt "-o", outputName, inputName]

/-- The text that the formatter left, with every line end read as a line feed. -/
def collect (files : Workspace) : Except WorkError Text :=
  match files.read (Path.ofText outputName) with
  | .error _ => .error .noOutput
  | .ok bytes =>
    match Utf8.decodeStrict bytes with
    | .error _ => .error .noOutput
    | .ok t => .ok (Eol.unify t)

namespace Worker

def run (w : Worker) (t : Text) : Except WorkError Text :=
  if !acceptsText t then .error .refused
  else
    match w with
    | working =>
      match (formatting t).outcome with
      | .returned 0 => collect (formatting t).files
      | _ => .error .failed
    | missing => .error .missing
    | timedOut => .error .timedOut
    | failing | unstartable => .error .failed
    -- it ends well without an output: the directory holds the input alone
    | silent => collect (workplace t)

def version : Worker → Text
  | working => Text.trim CommandLine.versionLine
  | silent => []
  | _ => txt "Unknown"

end Worker
end EpFormat.Service
