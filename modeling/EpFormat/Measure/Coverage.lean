import EpFormat.Json.View
import EpFormat.Measure.Bench

/-!
# Coverage — a run of all benchmarks under the coverage tool

The tool is set up, started, stopped and asked for its report.  The errors of benchmarks and their number are put
into the report, and one line sums it up.
-/
namespace EpFormat.Measure

inductive CoverageCall
  | new (leftOut : List Text)
  | start
  | stop
  | jsonReport
  deriving DecidableEq, Repr

structure CoverageRun where
  calls : List CoverageCall
  report : Json
  stdout : Text
  missing : Option Text

/-- The errors of a run: one for loading, or one for each benchmark that fails. -/
def benchErrors (loading : Option Failure) (benches : List Bench) : List (Text × Text) :=
  match loading with
  | some f => [(txt "<import>", f.report)]
  | none => (Bench.ofModule benches).filterMap (fun b => b.failure?.map (fun f => (b.name, f.report)))

def benchCount (loading : Option Failure) (benches : List Bench) : Nat :=
  match loading with
  | some _ => 0
  | none => (Bench.ofModule benches).length

/-- The line that sums up a report, or the member that it lacks. -/
def coverageLine (report : Json) (count errors : Nat) : Except Text Text :=
  match report.get? (txt "totals") with
  | none => .error (txt "totals")
  | some totals =>
    match totals.get? (txt "percent_covered"), totals.get? (txt "covered_lines"), totals.get? (txt "num_statements") with
    | none, _, _ => .error (txt "percent_covered")
    | _, none, _ => .error (txt "covered_lines")
    | _, _, none => .error (txt "num_statements")
    | some percent, some covered, some all =>
      .ok (txt "coverage: " ++ Decimal.fixed 1 percent.toFloat ++ txt "% (" ++ Printed.json covered ++ '/' ::
        Printed.json all ++ txt " stmts, " ++ Decimal.natText count ++ txt " benches, " ++ Decimal.natText errors
        ++ txt " errors)\n")

def coverageRun (loading : Option Failure) (benches : List Bench) (leftOut : List Text) (report : Json) : CoverageRun :=
  let errors := benchErrors loading benches
  let count := benchCount loading benches
  let marks := Json.insert (txt "_pti_n_benches") (.int count)
    (Json.insert (txt "_pti_bench_errors") (.obj (errors.map (fun (n, e) => (n, .str e)))) (report.member "meta").members)
  let marked := Json.obj (Json.insert (txt "meta") (.obj marks) report.members)
  let calls := [.new leftOut, .start, .stop, .jsonReport]
  match coverageLine report count errors.length with
  | .ok line => ⟨calls, marked, line, none⟩
  | .error key => ⟨calls, marked, [], some key⟩

end EpFormat.Measure
