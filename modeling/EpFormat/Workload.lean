import EpFormat.CommandLine.Run
import EpFormat.Decimal.Shortest

/-!
# Workload — sample work of any size

Each workload builds an input of a given size, sends it through one part of the formatter, and returns what shows
that the work was done.  No tidier is installed.
-/
namespace EpFormat.Workload

def spaced : Config := { keywordSpacing := true }

/-- Some tidying work where no tidier is installed. -/
def untidied {α : Type} (work : Perl.Tidying α) : α := (work.run {}).1

/-- A line of Perl with quotes, a comment, and keywords without spaces around them. -/
def statement : Text :=
  txt "my $msg='hello \\'quoted\\' world';if($x)\x7bprint\"val=$x and \\\"more\\\" text\";\x7d"
    ++ txt "elsif($y)\x7bwarn'oops';\x7delse\x7bdie$msg;\x7d # comment"

/-- As many copies of a text as fit into a size, and at least one. -/
def fill (t : Text) (size : Nat) : Text := (List.replicate (max 1 (size / t.length)) t).flatten

/-! ## Directives and tags -/

def directive : Text := txt "% " ++ statement

/-- A line with the statement in tags of three kinds, and a comment. -/
def tagLine : Text :=
  txt "<p><%=" ++ statement ++ txt "%> and <%==" ++ statement ++ txt "-%> and <%-" ++ statement
    ++ txt "-%> and <%#c%></p>"

def formatLine (line : Text) : Text :=
  untidied (match Template.Directive.read? line with
    | some d => d.format .absent spaced
    | none => Template.Tag.formatAll .absent spaced line)

/-- Lines with `n` directives, and a line of tags for every ten, at least one. -/
def directiveLines (n : Nat) : List Text :=
  List.replicate n directive ++ List.replicate (max 1 (n / 10)) tagLine

/-- Formats directives and tags: how many lines there are, the first and the last. -/
def directives (n : Nat) : Nat × Text × Text :=
  let out := (directiveLines n).map formatLine
  (out.length, out.head?.getD [], out.getLast?.getD [])

/-! ## Statements and expressions -/

/-- Tidies a long line as a statement and as an expression and takes it apart: both lengths, and the number of
chunks. -/
def helpers (size : Nat) : Nat × Nat × Nat :=
  let code := fill statement size
  ((untidied (Perl.tidyStatement .absent spaced code)).length,
   (untidied (Perl.tidyExpression .absent spaced code)).length,
   (Perl.Chunk.split code).length)

/-! ## Files -/

def templateName (i : Nat) : Text :=
  let digits := Decimal.natText i
  't' :: List.replicate (3 - digits.length) '0' ++ digits ++ txt ".html.ep"

def templates (n : Nat) : Files.Workspace :=
  (List.range n).foldl (fun w i => w.put [templateName i] (.file (Utf8.encode (tagLine ++ ['\n'])))) {}

/-- Formats the first of `n` templates into a file: the exit code, the number of files afterwards, and their names.
There must be a first one. -/
def outputFile (n : Nat) : Option (Int × Nat × List Text) :=
  if n = 0 then none
  else
    let r := CommandLine.run .absent (templates n) [] [txt "-o", txt "out.ep", templateName 0]
    match r.outcome with
    | .returned code =>
      let names := r.files.entries.map (fun e => Text.join ['/'] e.1)
      some (code, names.length, names.mergeSort Files.nameLe)
    | _ => none

end EpFormat.Workload
