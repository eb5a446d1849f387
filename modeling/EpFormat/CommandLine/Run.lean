import EpFormat.CommandLine.Parse
import EpFormat.CommandLine.Usage
import EpFormat.Diff.Unified
import EpFormat.Files.Workspace
import EpFormat.SelfTest

/-!
# Run — one run of the program

A run sees a workspace, a standard input and a tidier, and leaves a workspace, two output streams and an outcome.
-/
namespace EpFormat.CommandLine

open Files (Path Workspace FileError)
open Utf8 (Bytes)

inductive Failure
  | file (e : FileError)
  | width (e : WidthError)
  | input (e : Utf8.DecodeError)

def Failure.message : Failure → Text
  | file e => e.message
  | width e => e.message
  | input e => e.message

structure State where
  files : Workspace
  stdin : Bytes
  tidier : Perl.Tidier
  session : Perl.Session := {}
  stdout : Text := []

/-- A part of a run: it may fail, and what it did before that stays done. -/
abbrev Run := ExceptT Failure (StateM State)

def report (e : Event) : Run Unit := modify (fun s => { s with session := s.session.report e })

def print (t : Text) : Run Unit := modify (fun s => { s with stdout := s.stdout ++ t })

def formatText (cfg : Config) (source : Text) : Run Text := do
  let s ← get
  let (out, session) := (formatWithin s.tidier cfg source).run s.session
  set { s with session := session }
  match out with
  | .ok t => return t
  | .error e => throw (.width e)

def readFile (p : Path) : Run Text := do
  match (← get).files.read p with
  | .ok bytes => return Utf8.decode bytes
  | .error e => throw (.file e)

def writeFile (p : Path) (t : Text) : Run Unit := do
  let s ← get
  match s.files.write p (Utf8.encode t) with
  | .ok files => set { s with files := files }
  | .error e => throw (.file e)

/-- The text of standard input, every line end a line feed. -/
def readStdin : Run Text := do
  match Utf8.decodeStrict (← get).stdin with
  | .ok t => return Eol.unify t
  | .error e => throw (.input e)

/-- Formats one file and does with the result what the options say; whether it changed. -/
def processFile (o : Options) (p : Path) : Run Bool := do
  let source ← readFile p
  let formatted ← formatText o.config source
  if source = formatted then
    report (.fileUnchanged p.toText)
    return false
  else
    report (.fileFormatted p.toText)
    if o.diff then
      print (Diff.unified source formatted p.toText)
    if o.write then
      -- the backup holds the text as it was decoded, which need not be the bytes of the file
      writeFile p.backup source
      report (.backupWritten p.backup.toText)
      writeFile p formatted
      report (.fileOverwritten p.toText)
    return true

/-- What became of a list of files: whether any changed, and whether any failed. -/
structure Tally where
  changed : Bool := false
  failed : Bool := false

/-- Processes files one after the other.  A file that fails is reported and does not stop the others. -/
def processFiles (o : Options) : Tally → List Path → Run Tally
  | tally, [] => return tally
  | tally, p :: rest => do
    report (.fileFound p.toText)
    let outcome ← (tryCatch (do return some (← processFile o p)) (fun e => do
      report (.fileFailed p.toText e.message)
      return none) : Run (Option Bool))
    match outcome with
    | some changed => processFiles o { tally with changed := tally.changed || changed } rest
    | none => processFiles o { tally with failed := true } rest

/-- Processes the files that each of the paths stands for. -/
def processPaths (o : Options) : Tally → List Text → Run Tally
  | tally, [] => return tally
  | tally, t :: rest => do
    match (← get).files.filesOf o.config.extensions (Path.ofText t) with
    | .error e => throw (.file e)
    | .ok ps =>
      let tally ← processFiles o tally ps
      processPaths o tally rest

/-- How a run ends when nothing breaks: it returns a code, or it refuses the command line after all. -/
inductive Ending
  | returned (code : Nat)
  | refused (e : UsageError)

/-- Formats into the file that the options name. -/
def runOut (o : Options) (out : Text) : Run Ending := do
  let target := Path.ofText out
  if o.write || o.check || o.diff then
    return .refused .outConflicts
  else if o.stdin then
    let formatted ← formatText o.config (← readStdin)
    writeFile target formatted
    report (.wroteFromStdin target.toText)
    return .returned 0
  else
    match o.paths with
    | [path] =>
      let source := Path.ofText path
      let formatted ← formatText o.config (← readFile source)
      writeFile target formatted
      report (.wroteFrom target.toText source.toText)
      return .returned 0
    | _ => return .refused .outNeedsOneFile

def runSelfTest (o : Options) : Run Ending := do
  let s ← get
  let (outcome, session) := (SelfTest.run s.tidier o.config).run.run s.session
  set { s with session := session }
  match outcome with
  | .ok code => return .returned code
  | .error e => throw (.width e)

def runStdin (o : Options) : Run Ending := do
  print (← formatText o.config (← readStdin))
  report .stdinFormatted
  return .returned 0

/-- Formats, checks or compares the files of the paths. -/
def runPaths (o : Options) : Run Ending := do
  if o.paths.isEmpty then
    return .refused .noPaths
  else
    let tally ← processPaths o {} o.paths
    return .returned (if (o.check && tally.changed) || tally.failed then 1 else 0)

def runOptions (o : Options) : Run Ending := do
  if o.version then
    print (versionLine ++ ['\n'])
    return .returned 0
  else if o.selfTest then
    runSelfTest o
  else
    match o.out with
    | some (c :: path) => runOut o (c :: path)
    | _ => if o.stdin then runStdin o else runPaths o

inductive Outcome
  | returned (code : Nat)
  | exited (code : Nat)
  | failed (e : Failure)

structure Report where
  outcome : Outcome
  stdout : Text
  stderr : Text
  files : Workspace

/-- The lines of the log from a level on. -/
def logText (threshold : Level) (events : Array Event) : Text :=
  (events.toList.filter (fun e => threshold.rank ≤ e.level.rank)).flatMap (fun e =>
    txt "mojofmt: " ++ e.level.label ++ txt ": " ++ e.message ++ ['\n'])

/-- One run of the program. -/
def run (tidier : Perl.Tidier) (files : Workspace) (stdin : Bytes) (args : List Text) : Report :=
  match parse args with
  | .error .help => ⟨.exited 0, help, [], files⟩
  | .error (.refused e) => ⟨.exited 2, [], refusal e, files⟩
  | .ok o =>
    let (outcome, s) := (runOptions o).run.run { files := files, stdin := stdin, tidier := tidier }
    let log := logText o.threshold s.session.events
    match outcome with
    | .ok (.returned code) => ⟨.returned code, s.stdout, log, s.files⟩
    | .ok (.refused e) => ⟨.exited 2, s.stdout, log ++ refusal e, s.files⟩
    | .error e => ⟨.failed e, s.stdout, log, s.files⟩

end EpFormat.CommandLine
