import EpFormat.Decimal.Shortest
import EpFormat.Json.View
import EpFormat.Measure.Profile
import EpFormat.Text.Columns

/-!
# CoverageTable — the coverage of each file as a table

The files with the least coverage come first, and of these the larger ones.
-/
namespace EpFormat.Measure

structure FileCoverage where
  name : Text
  statements : Int
  missed : Int
  percent : Float
  missing : List Json

/-- A file name as seen from the repository's directory. -/
def fromRepo (name : Text) : Text :=
  let parts := if name.head? = some '/' then resolved name else resolved (txt "/repo/" ++ name)
  match parts with
  | root :: rest =>
    if root = txt "repo" then (if rest.isEmpty then ['.'] else Text.join ['/'] rest)
    else Text.join ['/'] (txt ".." :: parts)
  | [] => txt ".."

/-- The coverage of the files in a report, in the order of the table. -/
def FileCoverage.ofReport (report : Json) : List FileCoverage :=
  let all := (report.member "files").members.map (fun (name, j) =>
    let summary := j.member "summary"
    ({ name := fromRepo name
       statements := (summary.member "num_statements").toInt
       missed := (summary.member "missing_lines").toInt
       percent := (summary.member "percent_covered").toFloat
       missing := (j.member "missing_lines").items } : FileCoverage))
  all.mergeSort (fun a b => if a.percent == b.percent then b.statements ≤ a.statements else a.percent < b.percent)

def maxNameWidth : Nat := 60

def maxFiles : Nat := 120

def maxMissing : Nat := 12

/-- The missing lines of a file, cut short with an ellipsis. -/
def missingText (missing : List Json) : Text :=
  Text.join [','] ((missing.take maxMissing).map (fun n => Decimal.intText n.toInt))
    ++ (if maxMissing < missing.length then ['…'] else [])

/-- The columns that each line of the table has. -/
def tableRow (width : Nat) (name : Text) (statements missed : Int) (percent : Float) : Text :=
  Text.padRight width name ++ txt "  " ++ Text.padLeft 5 (Decimal.intText statements) ++ txt "  "
    ++ Text.padLeft 4 (Decimal.intText missed) ++ txt "  " ++ Text.padLeft 4 (Decimal.fixed 0 percent) ++ ['%']

def coverageTable (report : Json) : Text :=
  let files := FileCoverage.ofReport report
  let shown := files.take maxFiles
  let width := shown.foldl (fun w f => max w (min f.name.length maxNameWidth)) 4
  let rule := List.replicate (width + 42) '-' ++ ['\n']
  let totals := report.member "totals"
  let statements := (totals.member "num_statements").toInt
  let covered := (totals.member "covered_lines").toInt
  Text.padRight width (txt "Name") ++ txt "  Stmts  Miss  Cover  Missing\n" ++ rule
    ++ shown.flatMap (fun f =>
      tableRow width (f.name.take maxNameWidth) f.statements f.missed f.percent ++ txt "  " ++ missingText f.missing
        ++ ['\n'])
    ++ rule ++ tableRow width (txt "TOTAL") statements (statements - covered) (totals.member "percent_covered").toFloat
    ++ ['\n']

end EpFormat.Measure
