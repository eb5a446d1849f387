import EpFormat.Measure.Fingerprint
import EpFormat.Measure.Printed

/-!
# Bench — the functions that are measured

A benchmark is a function that sets up its work and returns the work itself; the work returns a result.  Here a
benchmark is described by what its calls do.
-/
namespace EpFormat.Measure

structure Failure where
  typeName : Text
  arguments : List Json

/-- The message of an error: its one argument, or all of them between brackets.  A missing key is shown as it is
written. -/
def Failure.message (f : Failure) : Text :=
  match f.arguments with
  | [] => []
  | [a] => if f.typeName = txt "KeyError" then Printed.json a else Printed.jsonPlain a
  | arguments => '(' :: Printed.jsonItems arguments ++ [')']

def Failure.report (f : Failure) : Text := f.typeName ++ txt ": " ++ f.message

abbrev Parameters := List (Text × Value)

/-- A benchmark.  The `k`-th call gives the `k`-th of `results`, and the last one from then on. -/
structure Bench where
  name : Text
  callable : Bool := true
  results : List Value := []
  callFails : Option Failure := none
  runFails : Option Failure := none
  echoes : Bool := false
  parameters : List Parameters := []

namespace Bench

/-- Whether the module's attribute is a benchmark. -/
def isBench (b : Bench) : Bool := b.callable && Text.startsWith (txt "bench_") b.name

/-- The benchmarks of a module in the order of their names. -/
def ofModule (bs : List Bench) : List Bench :=
  (bs.filter isBench).mergeSort (fun a b => textLe a.name b.name)

/-- The result of the `k`-th call without parameters. -/
def result (b : Bench) (k : Nat) : Value :=
  match b.results[k]? with
  | some v => v
  | none => b.results.getLast?.getD .none

def firstParameter (ps : Parameters) : Option Value :=
  ((ps.mergeSort (fun a b => textLe a.1 b.1)).head?).map (·.2)

/-- The result of the `k`-th call, with these parameters. -/
def resultOf (b : Bench) (k : Nat) (ps : Parameters) : Value :=
  if b.echoes then (firstParameter ps).getD (b.result k) else b.result k

/-- What goes wrong when the benchmark is called and its work is run. -/
def failure? (b : Bench) : Option Failure := b.callFails.or b.runFails

end Bench

def labelValue : Value → Text
  | .text t => t
  | .int n => Decimal.intText n
  | .float x => Decimal.floatText x
  | .bool b => if b then txt "True" else txt "False"
  | .none => txt "None"
  | v => v.typeName

def Parameters.label (ps : Parameters) : Text :=
  if ps.isEmpty then ['-']
  else Text.join [','] (ps.map (fun (name, v) => name ++ '=' :: labelValue v))

end EpFormat.Measure
