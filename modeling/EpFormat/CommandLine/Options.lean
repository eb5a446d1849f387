import EpFormat.Config
import EpFormat.Log
import EpFormat.Text.Quoted

/-!
# Options — what can be said on the command line
-/
namespace EpFormat.CommandLine

inductive Flag
  | help
  | write
  | out
  | check
  | diff
  | stdin
  | stdout
  | perltidy
  | indent
  | eol
  | noSpaceInDelims
  | perlKeywordSpacing
  | selfTest
  | logLevel
  | verbose
  | version
  deriving DecidableEq, Repr

namespace Flag

/-- All flags, in the order of the help. -/
def all : List Flag :=
  [help, write, out, check, diff, stdin, stdout, perltidy, indent, eol, noSpaceInDelims, perlKeywordSpacing, selfTest,
    logLevel, verbose, version]

/-- The spellings of a flag, short before long. -/
def names : Flag → List Text
  | help => [txt "-h", txt "--help"]
  | write => [txt "-w", txt "--write"]
  | out => [txt "-o", txt "--out"]
  | check => [txt "--check"]
  | diff => [txt "--diff"]
  | stdin => [txt "--stdin"]
  | stdout => [txt "--stdout"]
  | perltidy => [txt "--perltidy"]
  | indent => [txt "--indent"]
  | eol => [txt "--eol"]
  | noSpaceInDelims => [txt "--no-space-in-delims"]
  | perlKeywordSpacing => [txt "--perl-keyword-spacing"]
  | selfTest => [txt "--self-test"]
  | logLevel => [txt "--log-level"]
  | verbose => [txt "--verbose"]
  | version => [txt "--version"]

def takesValue : Flag → Bool
  | out | perltidy | indent | eol | logLevel => true
  | _ => false

/-- The flag as messages name it. -/
def label (f : Flag) : Text := Text.join ['/'] f.names

/-- Every spelling with its flag, in order. -/
def spellings : List (Text × Flag) := all.flatMap (fun f => f.names.map (fun n => (n, f)))

def ofName? (name : Text) : Option Flag := (spellings.find? (fun s => s.1 == name)).map (·.2)

end Flag

structure Options where
  paths : List Text := []
  write : Bool := false
  out : Option Text := none
  check : Bool := false
  diff : Bool := false
  stdin : Bool := false
  stdout : Bool := false
  perltidy : Option Text := none
  indent : Option Int := none
  eol : Eol := .lf
  noSpaceInDelims : Bool := false
  perlKeywordSpacing : Bool := false
  selfTest : Bool := false
  logLevel : Option Level := none
  verbose : Bool := false
  version : Bool := false

def Options.config (o : Options) : Config where
  indentWidth := o.indent.getD 2
  eol := o.eol
  normalizeDelimiters := !o.noSpaceInDelims
  tidierPath := o.perltidy.filter (fun p => !p.isEmpty)
  verbose := o.verbose
  keywordSpacing := o.perlKeywordSpacing

/-- The least level that is shown. -/
def Options.threshold (o : Options) : Level := o.logLevel.getD (if o.verbose then .info else .error)

inductive UsageError
  | ambiguous (given : Text) (candidates : List Text)
  | expectedArgument (flag : Flag)
  | ignoredArgument (flag : Flag) (value : Text)
  | invalidInteger (flag : Flag) (value : Text)
  | invalidChoice (flag : Flag) (value : Text) (choices : List Text)
  | unrecognized (words : List Text)
  | outConflicts
  | outNeedsOneFile
  | noPaths
  deriving DecidableEq, Repr

def UsageError.message : UsageError → Text
  | ambiguous given candidates =>
    txt "ambiguous option: " ++ given ++ txt " could match " ++ Text.join [',', ' '] candidates
  | expectedArgument flag => txt "argument " ++ flag.label ++ txt ": expected one argument"
  | ignoredArgument flag value =>
    txt "argument " ++ flag.label ++ txt ": ignored explicit argument " ++ value.quoted
  | invalidInteger flag value => txt "argument " ++ flag.label ++ txt ": invalid int value: " ++ value.quoted
  | invalidChoice flag value choices =>
    txt "argument " ++ flag.label ++ txt ": invalid choice: " ++ value.quoted ++ txt " (choose from "
      ++ Text.join [',', ' '] (choices.map Text.quoted) ++ [')']
  | unrecognized words => txt "unrecognized arguments: " ++ Text.join [' '] words
  | outConflicts => txt "--out conflicts with --write/--check/--diff"
  | outNeedsOneFile => txt "--out requires exactly one input file (or use --stdin)"
  | noPaths => txt "No input paths provided (or use --stdin)."

end EpFormat.CommandLine
