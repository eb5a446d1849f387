import EpFormat.Json.View
import EpFormat.Measure.Fingerprint

/-!
# Verdict — what a finding says about a benchmark

The first fault in the order of the constructors counts.
-/
namespace EpFormat.Measure

inductive Verdict
  | error
  | returnsNone
  | unstable
  | returnsInput
  | lowRepoTime
  | tooFast
  | paramInvariant
  | repoModified
  | okUnparam
  | ok
  deriving DecidableEq, Repr

def Verdict.name : Verdict → Text
  | error => txt "error"
  | returnsNone => txt "returns-none"
  | unstable => txt "unstable"
  | returnsInput => txt "returns-input"
  | lowRepoTime => txt "low-repo-time"
  | tooFast => txt "too-fast"
  | paramInvariant => txt "param-invariant"
  | repoModified => txt "repo-modified"
  | okUnparam => txt "ok-unparam"
  | ok => txt "ok"

/-- Whether nothing needs to be mended. -/
def Verdict.isOk (v : Verdict) : Bool := v = ok || v = okUnparam

structure Judged where
  name : Text
  verdict : Verdict
  returns : Text
  share : Float
  millis : Float

/-- The least of some numbers, or zero. -/
def least : List Float → Float
  | [] => 0.0
  | x :: rest => rest.foldl (fun a b => if b < a then b else a) x

/-- The number in the middle, or the mean of the two there, or zero. -/
def median (xs : List Float) : Float :=
  let sorted := xs.mergeSort (fun a b => a ≤ b)
  let n := sorted.length
  if n = 0 then 0.0
  else if n % 2 = 1 then sorted.getD (n / 2) 0.0
  else (sorted.getD (n / 2 - 1) 0.0 + sorted.getD (n / 2) 0.0) / 2.0

def numbersOf (j : Json) : List Float := j.members.filterMap (fun m => m.2.toFloat?)

/-- The least share of time in the repository that is enough. -/
def enoughShare : Float := 0.5

/-- The least time in milliseconds that is enough. -/
def enoughMillis : Float := 1.0

/-- The verdict on a reported finding; `modified` says that files of the repository were changed. -/
def judge (modified : Bool) (finding : Json) : Verdict :=
  let returns := (finding.member "ret_type").toText
  let prints := (finding.member "fp_stable").items.map Json.toText
  let first := prints.head?.getD []
  let byParameters := (finding.member "fp_by_param").members.map (fun m => m.2.toText)
  let shares := numbersOf (finding.member "repo_frac")
  let millis := numbersOf (finding.member "repo_tt_ms")
  if returns.isEmpty || returns.head? = some '<' then .error
  else if returns = txt "NoneType" then .returnsNone
  else if prints.length < 2 || prints.any (· ≠ first) then .unstable
  else if ((finding.member "param_fps").items.map Json.toText).contains first then .returnsInput
  else if !shares.isEmpty && least shares < enoughShare then .lowRepoTime
  else if !millis.isEmpty && median millis < enoughMillis then .tooFast
  else if 2 ≤ byParameters.length && byParameters.all (fun p => byParameters.head? = some p) then .paramInvariant
  else if modified then .repoModified
  else if byParameters.length < 2 then .okUnparam
  else .ok

def Judged.ofFinding (modified : Bool) (name : Text) (finding : Json) : Judged :=
  let returns := (finding.member "ret_type").toText
  { name := name
    verdict := judge modified finding
    returns := if returns.isEmpty then ['?'] else returns
    share := least (numbersOf (finding.member "repo_frac"))
    millis := median (numbersOf (finding.member "repo_tt_ms")) }

/-- The findings of a report judged; what is no object is passed over. -/
def judgeAll (modified : Bool) (report : Json) : List Judged :=
  report.members.filterMap (fun (name, finding) =>
    if finding.isObject then some (Judged.ofFinding modified name finding) else none)

end EpFormat.Measure
