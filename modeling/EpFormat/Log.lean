import EpFormat.Text.Search

/-!
# Log — what the program reports while it works

Every report is an `Event`; its level decides whether it is shown, and `message` is its wording.
-/
namespace EpFormat

inductive Level
  | debug
  | info
  | error
  deriving DecidableEq, Repr

namespace Level

def rank : Level → Nat
  | debug => 0
  | info => 1
  | error => 2

def label : Level → Text
  | debug => txt "DEBUG"
  | info => txt "INFO"
  | error => txt "ERROR"

end Level

inductive Event
  | tidierNotFound
  | tidierNotStarted
  | tidierRun (command : List Text)
  | tidierFailed (code : Int) (err : Text)
  /-- A block from one line to another was indented by brace depth. -/
  | blockIndented (first last : Nat)
  /-- A block from one line to another was tidied to so many lines. -/
  | blockTidied (first last count : Nat)
  | tidierProbed (verdict : Text)
  | selfTestFailed
  | selfTestFailure (what : Text)
  | selfTestPassed
  | fileFound (path : Text)
  | fileFormatted (path : Text)
  | backupWritten (path : Text)
  | fileOverwritten (path : Text)
  | fileUnchanged (path : Text)
  | stdinFormatted
  | wroteFromStdin (out : Text)
  | wroteFrom (out source : Text)
  | fileFailed (path reason : Text)
  deriving DecidableEq, Repr

namespace Event

def level : Event → Level
  | tidierNotFound | tidierNotStarted | selfTestFailed | selfTestFailure _ | fileFailed _ _ => .error
  | tidierRun _ | tidierFailed _ _ | blockIndented _ _ | blockTidied _ _ _ | fileFound _ => .debug
  | _ => .info

def number (n : Nat) : Text := Nat.toDigits 10 n

def integer : Int → Text
  | .ofNat n => number n
  | .negSucc n => '-' :: number (n + 1)

def message : Event → Text
  | tidierNotFound => txt "perltidy not found; Perl inside template will not be reformatted"
  | tidierNotStarted => txt "perltidy not found while executing"
  | tidierRun command => txt "Running perltidy: " ++ Text.join [' '] command
  | tidierFailed code err => txt "perltidy non-zero exit " ++ integer code ++ txt ": " ++ err
  | blockIndented first last =>
    txt "EP block " ++ number first ++ ['-'] ++ number last
      ++ txt ": perltidy failed/unavailable; using naive indenter"
  | blockTidied first last count =>
    txt "EP block " ++ number first ++ ['-'] ++ number last ++ txt ": perltidy formatted (" ++ number count
      ++ txt " lines)"
  | tidierProbed verdict => verdict
  | selfTestFailed => txt "SELF-TEST FAILURES:"
  | selfTestFailure what => txt " - " ++ what
  | selfTestPassed => txt "Self-test passed"
  | fileFound path => txt "Found file: " ++ path
  | fileFormatted path => txt "Formatted: " ++ path
  | backupWritten path => txt "Backup written: " ++ path
  | fileOverwritten path => txt "Overwritten: " ++ path
  | fileUnchanged path => txt "Unchanged: " ++ path
  | stdinFormatted => txt "Formatted stdin to stdout"
  | wroteFromStdin out => txt "Wrote " ++ out ++ txt " (from stdin)"
  | wroteFrom out source => txt "Wrote " ++ out ++ txt " (from " ++ source ++ [')']
  | fileFailed path reason => txt "Error processing " ++ path ++ txt ": " ++ reason

/-- Whether the event says that the tidier is missing, in either wording. -/
def isTidierMissing : Event → Bool
  | tidierNotFound | tidierNotStarted => true
  | _ => false

end Event
end EpFormat
