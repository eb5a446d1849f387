import EpFormat.Limit
import EpFormat.Text.Quoted

/-!
# SelfTest — the built-in sanity checks

The tidier is probed and a handful of small templates are formatted.  Each check that fails is reported.
-/
namespace EpFormat.SelfTest

/-- The name of a check, if it failed. -/
def check (name : Text) (passed : Bool) : List Text := if passed then [] else [name]

def quotedList (ts : List Text) : Text := '[' :: Text.join [',', ' '] (ts.map Text.quoted) ++ [']']

def inner (ls : List Text) : List Text := (ls.drop 1).dropLast

def mixed : Text :=
  txt "% if (1) \x7b\n<ul>\n% for my $i (1..2) \x7b\n<li><%= $i %></li>\n% \x7d\n</ul>\n% \x7d\n"

def chomped : Text := txt "<li><%= $title -%>\n<%= $sub %></li>\n"

def script : Text :=
  txt "<script>\n  var x=1;    // keep spacing\nif(true)\x7bconsole.log(x)\x7d\n</script>\n"

def block : Text := txt "<%\nmy $x=1;\nif($x)\x7b\nsay \"hi\";\n\x7d\n%>\n"

/-- The check of the raw element: its inner lines stay. -/
def checkRaw (formatted : Text) : List Text :=
  let given := Text.lines script
  let got := Text.lines formatted
  if 3 ≤ given.length && 3 ≤ got.length then
    if inner given = inner got then [] else [txt "raw inner unchanged: got " ++ quotedList (inner got)]
  else [txt "raw structure: unexpected line count"]

/-- Work with the tidier that may stop at a line that is too wide. -/
abbrev Checking := ExceptT WidthError Perl.Tidying

/-- All checks but the probe; gives the names of those that failed. -/
def templates (tidier : Perl.Tidier) (cfg : Config) : Checking (List Text) := do
  let format (t : Perl.Tidier) (c : Config) (source : Text) : Checking Text := ExceptT.mk (formatWithin t c source)
  let once ← format tidier cfg mixed
  let twice ← format tidier cfg once
  let chomp ← format tidier cfg chomped
  let raw ← format tidier cfg script
  let spaced ← format tidier cfg (txt "<%my $x=1;%>\n")
  let keywords := { cfg with keywordSpacing := true }
  let ifTag ← format tidier keywords (txt "<% if($x)\x7b %>\n")
  let returnTag ← format tidier keywords (txt "<%= return(1) %>\n")
  let sayTag ← format tidier keywords (txt "<% say\"hi\"; %>\n")
  let myTag ← format tidier keywords (txt "<% my($x,$y)=@_; %>\n")
  let subTag ← format tidier keywords (txt "<% sub foo\x7b %>\n")
  let blocks ← format tidier cfg block
  let has (t : Text) (word : String) : Bool := Text.contains (txt word) t
  return check (txt "idempotence") (once = twice)
    ++ check (txt "chomp presence") (has chomp "-%>")
    ++ check (txt "no-left-chomp-added") (!has chomp "<%-")
    ++ checkRaw raw
    ++ check (txt "delimiter spacing") (has spaced "<% " && has spaced "%>")
    ++ check (txt "kw if(...)") (has ifTag "if (" && has ifTag " \x7b")
    ++ check (txt "kw return(...)") (has returnTag "return (")
    ++ check (txt "kw say \"...\"") (has sayTag "say \"")
    ++ check (txt "kw my $") (has myTag "my (" && has myTag " = @_")
    ++ check (txt "kw sub foo \x7b") (has subTag "sub foo \x7b")
    ++ check (txt "extended block indented")
      ((has blocks "if (" && has blocks "say" && has blocks "\x7b\n") || !has blocks "if(")

/-- Runs every check and reports the outcome; the exit code is zero if all passed. -/
def run (tidier : Perl.Tidier) (cfg : Config) : Checking Nat := do
  let (works, verdict) ← Perl.probe tidier cfg
  if works then modify (·.report (.tidierProbed verdict))
  let failed ← templates tidier cfg
  let failures := (if works then [] else [txt "perltidy: " ++ verdict]) ++ failed
  if failures.isEmpty then
    modify (·.report .selfTestPassed)
    return 0
  else
    modify (·.report .selfTestFailed)
    modify (fun s => failures.foldl (fun s f => s.report (.selfTestFailure f)) s)
    return 1

end EpFormat.SelfTest
