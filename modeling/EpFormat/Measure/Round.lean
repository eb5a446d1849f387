import EpFormat.Json.Read
import EpFormat.Measure.Bench
import EpFormat.Measure.CoverageTable
import EpFormat.Measure.Plateau
import EpFormat.Measure.Verdict
import EpFormat.Text.Blank
import EpFormat.Text.Lines

/-!
# Round — one round of measuring

A round runs the coverage tool, then, where their scripts exist, the profiler and the self-check, prints what they
found, and adds a line to a checkpoint file.  It says so when nothing is left to gain.
-/
namespace EpFormat.Measure

/-- What starting a program leads to: an error, or its output and the report that it writes. -/
structure Program where
  fails : Option Failure := none
  code : Int := 0
  stdout : Text := []
  stderr : Text := []
  report : Option Json := none

inductive Step
  | coverage
  | repotime
  | git
  | semcheck
  deriving DecidableEq, Repr

/-- What a round is given: the files in the repository's directory, the programs, and the clocks. -/
structure Setting where
  files : List (Text × Text)
  program : Step → Program
  started : Float
  ended : Float
  now : Float

structure Outcome where
  stdout : Text
  stderr : Text
  steps : List Step
  checkpoint : Option Json
  exit : Option Int := none

namespace Setting

def file? (s : Setting) (name : String) : Option Text := (s.files.find? (fun f => f.1 == txt name)).map (·.2)

def benchFunctions (s : Setting) : Nat :=
  ((Text.rows ((s.file? "microbench.py").getD [])).filter (Text.startsWith (txt "def bench_"))).length

def earlierLines (s : Setting) : List Text :=
  (Text.lines ((s.file? ".pti_checkpoint.jsonl").getD [])).filter (fun l => !allBlank l)

/-- The earlier rounds; none if a line cannot be read. -/
def earlier? (s : Setting) : Option (List Json) := s.earlierLines.mapM Json.parse?

end Setting

/-- The value in the last line of a program's output; an empty object if it prints nothing. -/
def lastValue (p : Program) : Except Text Json :=
  match p.fails with
  | some f => .error f.report
  | none =>
    match ((Text.lines p.stdout).filter (fun l => !allBlank l)).getLast? with
    | none => .ok (.obj [])
    | some line =>
      match Json.parse? line with
      | some v => .ok v
      | none => .error (txt "JSONDecodeError: Expecting value: line 1 column 1 (char 0)")

/-! ## What is printed -/

def errorSection (report : Json) : Text :=
  let errors := ((report.member "meta").member "_pti_bench_errors").members
  if errors.isEmpty then []
  else
    '\n' :: Decimal.natText errors.length ++ txt " bench error(s):\n"
      ++ (errors.take 8).flatMap (fun (name, e) => txt "  " ++ name ++ txt ": " ++ e.toText ++ ['\n'])

/-- The share below which a benchmark is marked, in percent. -/
def markedBelow : Float := 45.0

def isMeasured (percent : Float) : Bool := 0.0 ≤ percent

def isBelow (percent : Float) : Bool := isMeasured percent && percent < markedBelow

/-- The shares of time in the repository, the least first. -/
def timeSection (times : List (Text × Float)) : Text :=
  if times.isEmpty then []
  else
    txt "\nrepo_time (target 50%; * = below 45%):\n"
      ++ (times.mergeSort (fun a b => a.2 ≤ b.2)).flatMap (fun (name, percent) =>
        (if isBelow percent then txt "  * " else txt "    ") ++ Text.padRight 32 name ++ ' ' ::
          Text.padLeft 5 (Decimal.fixed 1 (if isMeasured percent then percent else 0.0)) ++ ['%']
          ++ (if isMeasured percent then [] else txt "  <error>") ++ ['\n'])

/-- The files of the repository that were changed, from the list of the version control. -/
def modifiedFiles (p : Program) : List Text :=
  match p.fails with
  | some _ => []
  | none =>
    (((Text.lines p.stdout).filter (fun l => !allBlank l && !Text.startsWith (txt "??") l)).map (·.drop 3)).filter
      (fun path => !isHarness path && !Text.startsWith (txt ".pti_") path)

def modifiedSection (paths : List Text) : Text :=
  if paths.isEmpty then []
  else
    txt "\n** repo modified (" ++ Decimal.natText paths.length
      ++ txt " file(s)) — revert these; only microbench.py is yours to edit:\n"
      ++ (paths.take 10).flatMap (fun p => txt "   " ++ p ++ ['\n'])

/-- What to do about each verdict. -/
def advice : List String :=
  ["returns-none: run() has no return — collect and return the call results",
   "unstable: seed RNG in setup; avoid time/uuid/id in the return",
   "returns-input: return repo output, not the parameter value",
   "low-repo-time: <50% of run() time is in repo code — move glue to setup",
   "param-invariant: return something derived from run()'s work, not setup",
   "repo-modified: revert edits to repo files (git checkout -- <path>)"]

def Judged.line (j : Judged) : Text :=
  (if j.verdict.isOk then txt "    " else txt "  * ") ++ Text.padRight 32 j.name ++ ' ' ::
    Text.padRight 16 j.verdict.name ++ txt " (" ++ j.returns ++ txt ", repo " ++ Decimal.fixed 0 (100.0 * j.share)
    ++ txt "%) " ++ Decimal.fixed 1 j.millis ++ txt "ms\n"

/-- The judged benchmarks, those to be mended first. -/
def checkSection (judged : List Judged) : Text :=
  if judged.isEmpty then []
  else
    let ordered := (judged.filter (fun j => !j.verdict.isOk)) ++ judged.filter (·.verdict.isOk)
    txt "\nself-check (* = fix needed):\n" ++ advice.flatMap (fun a => txt "  " ++ txt a ++ ['\n'])
      ++ ordered.flatMap Judged.line

/-! ## The round -/

structure Found where
  report : Json
  times : List (Text × Float)
  modified : List Text
  judged : List Judged

namespace Found

def coverage (f : Found) : Float := ((f.report.member "totals").member "percent_covered").toFloat

def measured (f : Found) : Nat := (f.times.filter (fun t => isMeasured t.2)).length

def below (f : Found) : Nat := (f.times.filter (fun t => isBelow t.2)).length

/-- The result of the round: how many shares are marked, if any was measured. -/
def result? (f : Found) : Option Nat := if f.measured = 0 then none else some f.below

def faulty (f : Found) : Nat := (f.judged.filter (fun j => !j.verdict.isOk)).length

end Found

/-- The coverage from which on a search may stop. -/
def gate : Float := 60.0

/-- The results of earlier rounds that passed the gate. -/
def earlierResults (rounds : List Json) : List Nat :=
  rounds.filterMap (fun r =>
    if (r.member "coverage_pct").toFloat < gate then none
    else
      match r.member "n_below_repo_time" with
      | .int n => some n.toNat
      | _ => none)

/-- What a round says about stopping. -/
def stopText (earlier : List Json) (f : Found) : Text :=
  if f.coverage < gate then []
  else
    match f.result? with
    | none => []
    | some 0 => txt "\n>>> STOP: repo_time converged (0 below). Finalize microbench.py now. <<<\n"
    | some n =>
      if Plateau.reached (earlierResults earlier ++ [n]) then
        txt "\n>>> STOP: repo_time plateaued (no improvement in 3 rounds). Finalize microbench.py now. <<<\n"
      else []

def summaryLine (s : Setting) (f : Found) : Text :=
  let number := Decimal.natText
  txt "\n[round " ++ number (s.earlierLines.length + 1) ++ txt ": " ++ number s.benchFunctions ++ txt " benches, "
    ++ Decimal.fixed 1 f.coverage ++ txt "% covered"
    ++ (if f.times.isEmpty then []
        else txt ", " ++ number f.below ++ '/' :: number f.measured ++ txt " below repo_time 45%")
    ++ (if f.judged.isEmpty then []
        else txt ", " ++ number f.faulty ++ '/' :: number f.judged.length ++ txt " not self-checking")
    ++ txt ", measured in " ++ Decimal.fixed 1 (s.ended - s.started) ++ txt "s]\n"

/-- The time since the last round, or zero. -/
def sinceLast (s : Setting) (earlier : List Json) : Float :=
  match (earlier.getLast?.getD .null).member "ts" with
  | .null => 0.0
  | ts => Decimal.roundPlaces 2 (s.now - ts.toFloat)

def checkpoint (s : Setting) (earlier : List Json) (f : Found) : Json :=
  let totals := f.report.member "totals"
  let count (n : Nat) : Json := .int n
  .obj [(txt "round", count (s.earlierLines.length + 1)), (txt "ts", .float s.now),
    (txt "wall_since_prev_s", .float (sinceLast s earlier)), (txt "coverage_pct", .float f.coverage),
    (txt "covered_lines", .int (totals.member "covered_lines").toInt),
    (txt "num_statements", .int (totals.member "num_statements").toInt),
    (txt "n_bench_fns", count s.benchFunctions),
    (txt "n_bench_errors", count ((f.report.member "meta").member "_pti_bench_errors").members.length),
    (txt "cov_measure_s", .float (Decimal.roundPlaces 3 (s.ended - s.started))),
    (txt "repo_time_pct", .obj (f.times.map (fun (n, p) => (n, .float p)))),
    (txt "n_below_repo_time", match f.result? with
      | some n => count n
      | none => .null),
    (txt "semcheck", .obj (f.judged.map (fun j => (j.name, .str j.verdict.name)))),
    (txt "n_not_self_checking", count f.faulty)]

def runnerLine (name : String) (e : Text) : Text := txt "[" ++ txt name ++ txt " runner: " ++ e ++ txt "]\n"

/-- What a program prints on its error channel, and its value. -/
def valueOf (name : String) (p : Program) : Text × Json :=
  let passed := match p.fails with
    | some _ => []
    | none => p.stderr
  match lastValue p with
  | .ok v => (passed, v)
  | .error e => (passed ++ runnerLine name e, .obj [])

def measure (s : Setting) : Outcome :=
  match (s.program .coverage).report with
  | none => ⟨[], (s.program .coverage).stderr, [.coverage], none, some 1⟩
  | some report =>
    let profiles := (s.file? "_pti_repotime.py").isSome
    let checks := (s.file? "_pti_semcheck.py").isSome
    let (timeErrors, timeValue) := if profiles then valueOf "repotime" (s.program .repotime) else ([], .obj [])
    let modified := if checks then modifiedFiles (s.program .git) else []
    let (checkErrors, checkValue) := if checks then valueOf "semcheck" (s.program .semcheck) else ([], .obj [])
    let found : Found :=
      { report := report
        times := (timeValue.member "repo_time_pct").members.map (fun (n, p) => (n, p.toFloat))
        modified := modified
        judged := judgeAll (!modified.isEmpty) (checkValue.member "semcheck") }
    let earlier := s.earlier?.getD []
    { stdout := coverageTable report ++ errorSection report ++ timeSection found.times ++ modifiedSection modified
        ++ checkSection found.judged ++ summaryLine s found ++ stopText earlier found
      stderr := timeErrors ++ checkErrors
      steps := .coverage :: (if profiles then [.repotime] else []) ++ (if checks then [.git, .semcheck] else [])
      checkpoint := s.earlier?.map (fun rounds => checkpoint s rounds found) }

end EpFormat.Measure
