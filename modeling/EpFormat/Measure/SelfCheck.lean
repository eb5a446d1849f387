import EpFormat.Json.Basic
import EpFormat.Measure.Bench
import EpFormat.Measure.Profile

/-!
# SelfCheck — do benchmarks return what they compute?

Each benchmark is called twice as it is and once for each of its parameters.  The fingerprints of the results
show whether it is stable and whether it depends on its parameters, and the profiles show how much of its time is
spent in the repository.
-/
namespace EpFormat.Measure

/-- What is found about a benchmark.  The three lists of numbers have one entry for each profile. -/
structure Finding where
  returns : Text
  stable : List Text := []
  byParameters : List (Text × Text) := []
  parameterPrints : List Text := []
  profiles : List (Text × Profile) := []

/-- The profiles of a session; the last one repeats. -/
def profileAt (ps : List Profile) (k : Nat) : Profile :=
  match ps[k]? with
  | some p => p
  | none => ps.getLast?.getD ⟨[], 0.0⟩

namespace Finding

def defaultLabel : Text := txt "<default>"

/-- What is found about a benchmark, with the profiles from number `k` on, and how many of these were taken. -/
def ofBench (ps : List Profile) (k : Nat) (b : Bench) : Finding × Nat :=
  match b.failure? with
  | some f => ({ returns := '<' :: f.typeName ++ ['>'] }, 0)
  | none =>
    let calls := b.parameters.zipIdx
    let found : Finding :=
      { returns := (b.result 0).typeName
        stable := [fingerprint (b.result 0), fingerprint (b.result 1)]
        byParameters := calls.map (fun (p, i) => (p.label, fingerprint (b.resultOf (i + 2) p)))
        parameterPrints := b.parameters.flatMap (fun p => p.map (fun (_, v) => fingerprint v))
        profiles := (defaultLabel, profileAt ps k)
          :: calls.map (fun (p, i) => (p.label, profileAt ps (k + 1 + i))) }
    (found, found.profiles.length)

def ofBenches (ps : List Profile) : Nat → List Bench → List (Text × Finding)
  | _, [] => []
  | k, b :: rest =>
    let (f, taken) := ofBench ps k b
    (b.name, f) :: ofBenches ps (k + taken) rest

/-- An object with a number for each profile. -/
def numbers (f : Finding) (measure : Profile → Float) : Json :=
  .obj (f.profiles.foldl (fun acc (label, p) => Json.insert label (.float (measure p)) acc) [])

def toJson (f : Finding) : Json :=
  .obj [(txt "fp_stable", .arr (f.stable.map .str)),
    (txt "fp_by_param", .obj (f.byParameters.foldl (fun acc (l, p) => Json.insert l (.str p) acc) [])),
    (txt "param_fps", .arr (f.parameterPrints.map .str)),
    (txt "repo_frac", f.numbers Profile.repoShare), (txt "ext_frac", f.numbers Profile.nativeShare),
    (txt "repo_tt_ms", f.numbers Profile.repoMillis), (txt "ret_type", .str f.returns)]

end Finding

/-- The report on a module: what went wrong when it was loaded, or what is found about its benchmarks. -/
def selfCheck (loading : Option Failure) (benches : List Bench) (ps : List Profile) : Json :=
  match loading with
  | some f => .obj [(txt "_import_error", .str f.report)]
  | none =>
    .obj [(txt "semcheck", .obj ((Finding.ofBenches ps 0 (Bench.ofModule benches)).map (fun (n, f) => (n, f.toJson))))]

/-- One benchmark's share of time in the repository, what else is hot, and how many profiles were taken. -/
def repoTimeOf (ps : List Profile) (k : Nat) (b : Bench) : Float × List (Float × Text) × Nat :=
  match b.failure? with
  | some _ => (-1.0, [], 0)
  | none => ((profileAt ps k).repoPercent, (profileAt ps k).hottest, 1)

def repoTimes (ps : List Profile) : Nat → List Bench → List (Text × Float × List (Float × Text))
  | _, [] => []
  | k, b :: rest =>
    let (percent, hot, taken) := repoTimeOf ps k b
    (b.name, percent, hot) :: repoTimes ps (k + taken) rest

/-- The report on where the time of each benchmark goes. -/
def repoTime (loading : Option Failure) (benches : List Bench) (ps : List Profile) : Json :=
  match loading with
  | some f => .obj [(txt "_import_error", .str f.report)]
  | none =>
    let times := repoTimes ps 0 (Bench.ofModule benches)
    .obj [(txt "repo_time_pct", .obj (times.map (fun (n, p, _) => (n, .float p)))),
      (txt "hot_ext", .obj (times.map (fun (n, _, hot) =>
        (n, .arr (hot.map (fun (p, l) => .arr [.float p, .str l]))))))]

end EpFormat.Measure
