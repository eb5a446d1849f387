import EpFormat.Config
import EpFormat.Log
import EpFormat.Text.Blank

/-!
# Tidier — the external tidier of Perl code

A `Tidier` is what is known of the program on this machine: where it is found, and what each run of it does with
its input.  `Session` is what a stretch of work leaves behind: the runs of the tidier, what became of each attempt to
use it, the events, and whether the missing tidier has been reported.  That report is made once per session.
-/
namespace EpFormat.Perl

/-- What becomes of one run: the program cannot be started, or it ends with a code and two outputs. -/
inductive Outcome
  | notStarted
  | exited (code : Int) (out err : Text)

/-- The tidier of a machine.  `run k input` is its run number `k`, counted from zero. -/
structure Tidier where
  /-- Where the search path finds it; an empty text means that it does not. -/
  onPath : Option Text
  run : Nat → Text → Outcome

namespace Tidier

/-- No tidier: nothing on the search path, and no path starts it. -/
def absent : Tidier := ⟨none, fun _ _ => .notStarted⟩

def broken (onPath : Option Text) : Tidier := ⟨onPath, fun _ _ => .notStarted⟩

/-- A tidier that gives back its input. -/
def echo (onPath : Option Text) : Tidier := ⟨onPath, fun _ input => .exited 0 input []⟩

def replacing (onPath : Option Text) (pairs : List (Text × Text)) : Tidier :=
  ⟨onPath, fun _ input => .exited 0 (pairs.foldl (fun t p => Text.replaceAll p.1 p.2 t) input) []⟩

/-- A tidier with fixed answers, one per run; the last one repeats. -/
def scripted (onPath : Option Text) (answers : List (Int × Text × Text)) : Tidier :=
  ⟨onPath, fun k _ =>
    match answers[min k (answers.length - 1)]? with
    | some (code, out, err) => .exited code out err
    | none => .exited 0 [] []⟩

/-- The program to run: the one of the settings, else the one on the search path. -/
def program? (tidier : Tidier) (cfg : Config) : Option Text :=
  match cfg.tidierPath with
  | some (c :: path) => some (c :: path)
  | _ =>
    match tidier.onPath with
    | some (c :: path) => some (c :: path)
    | _ => none

/-- The options of a run: those of the settings, which must send the result to standard output, or the usual
ones. -/
def options (cfg : Config) : List Text :=
  match cfg.tidierOptions with
  | some (o :: os) =>
    let given := o :: os
    if given.any (Text.startsWith (txt "-st")) then given else given ++ [txt "-st"]
  | _ =>
    [txt "-i=" ++ Event.integer cfg.indentWidth, txt "-ci=" ++ Event.integer cfg.indentWidth, txt "-l=100", txt "-q",
      txt "-se", txt "-st", txt "-nbbc", txt "-noll"]

end Tidier

structure Call where
  command : List Text
  input : Text
  deriving DecidableEq, Repr

/-- What became of an attempt to use the tidier: there is no program, it cannot be started, or it ran. -/
inductive Attempt
  | noProgram
  | notStarted
  | ran
  deriving DecidableEq, Repr

/-- What a stretch of work leaves behind. -/
structure Session where
  warned : Bool := false
  events : Array Event := #[]
  calls : Array Call := #[]
  attempts : Array Attempt := #[]

namespace Session

def report (s : Session) (e : Event) : Session := { s with events := s.events.push e }

/-- Reports a missing tidier, unless that has been done. -/
def reportMissing (s : Session) (e : Event) : Session :=
  if s.warned then s else { s.report e with warned := true }

def record (s : Session) (c : Call) : Session := { s with calls := s.calls.push c }

def attempt (s : Session) (a : Attempt) : Session := { s with attempts := s.attempts.push a }

end Session

abbrev Tidying := StateM Session

structure Answer where
  code : Int
  out : Text
  err : Text

/-- The answer when there is no tidier: the code as it was, and the code of a command that is not there. -/
def Answer.notFound (code : Text) : Answer := ⟨127, code, txt "perltidy not found"⟩

def runTidier (tidier : Tidier) (cfg : Config) (code : Text) : Tidying Answer := fun s =>
  match tidier.program? cfg with
  | none => (.notFound code, (s.attempt .noProgram).reportMissing .tidierNotFound)
  | some exe =>
    let command := exe :: Tidier.options cfg
    let started := (s.report (.tidierRun command)).record ⟨command, code⟩
    match tidier.run s.calls.size code with
    | .notStarted => (.notFound code, (started.attempt .notStarted).reportMissing .tidierNotStarted)
    | .exited 0 out err => (⟨0, out, err⟩, started.attempt .ran)
    | .exited rc out err => (⟨rc, out, err⟩, (started.attempt .ran).report (.tidierFailed rc (Text.trim err)))

def probeCode : Text := txt "my $x=  \x7ba=>1,b =>2 \x7d;"

/-- What a tidier in the usual style makes of the probe holds these. -/
def probeWants : List Text := [txt "my $x = \x7b", txt "a => 1", txt "b => 2"]

/-- Whether the tidier is there and works, with the verdict in words. -/
def probe (tidier : Tidier) (cfg : Config) : Tidying (Bool × Text) := do
  match tidier.program? cfg with
  | none => return (false, txt "perltidy not found on PATH (install Perl::Tidy or pass --perltidy)")
  | some exe =>
    let answer ← runTidier tidier cfg probeCode
    if answer.code ≠ 0 then
      return (false, txt "perltidy exit " ++ Event.integer answer.code ++ txt ": " ++ Text.trim answer.err)
    if probeWants.all (fun w => Text.contains w answer.out) then
      return (true, txt "perltidy OK: " ++ exe)
    let shown := Text.trim answer.out
    if !shown.isEmpty && shown ≠ probeCode then
      return (true, txt "perltidy OK (non-default style): " ++ exe)
    return (false, txt "perltidy produced unexpected output")

end EpFormat.Perl
