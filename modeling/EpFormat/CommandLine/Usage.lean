import EpFormat.CommandLine.Options

/-!
# Usage — the texts of the command line
-/
namespace EpFormat.CommandLine

def usage : Text :=
  txt ("usage: mojofmt [-h] [-w] [-o OUT] [--check] [--diff] [--stdin] [--stdout]\n"
    ++ "               [--perltidy PERLTIDY] [--indent INDENT]\n"
    ++ "               [--eol \x7blf,crlf,preserve\x7d] [--no-space-in-delims]\n"
    ++ "               [--perl-keyword-spacing] [--self-test]\n"
    ++ "               [--log-level \x7berror,info,debug\x7d] [--verbose] [--version]\n"
    ++ "               [paths ...]\n")

def help : Text :=
  usage ++ txt ("\nFormat Mojolicious templates (.ep, .htm.ep, .html.ep)\n"
    ++ "\npositional arguments:\n"
    ++ "  paths                 Files or directories\n"
    ++ "\noptions:\n"
    ++ "  -h, --help            show this help message and exit\n"
    ++ "  -w, --write           Overwrite files in place (writes a .bak backup)\n"
    ++ "  -o OUT, --out OUT     Write formatted output to this file (single input file\n"
    ++ "                        or --stdin). Conflicts with --write/--check/--diff\n"
    ++ "  --check               Exit non-zero if any file would change\n"
    ++ "  --diff                Print unified diff for changes\n"
    ++ "  --stdin               Read from stdin\n"
    ++ "  --stdout              Write to stdout (with --stdin)\n"
    ++ "  --perltidy PERLTIDY   Path to perltidy executable (defaults to PATH)\n"
    ++ "  --indent INDENT       Indent width (spaces, default 2)\n"
    ++ "  --eol \x7blf,crlf,preserve\x7d\n"
    ++ "                        EOL handling (default lf)\n"
    ++ "  --no-space-in-delims  Do not normalize spaces inside <% %> delimiters\n"
    ++ "  --perl-keyword-spacing\n"
    ++ "                        Aggressively insert a space after Perl keywords\n"
    ++ "                        (if(...)->if (...), my$->my $, return(...)->return\n"
    ++ "                        (...), etc.)\n"
    ++ "  --self-test           Run internal sanity checks and exit 0/1\n"
    ++ "  --log-level \x7berror,info,debug\x7d\n"
    ++ "                        Logging level (default error)\n"
    ++ "  --verbose             Shorthand for --log-level info\n"
    ++ "  --version             Print version and exit\n")

def versionLine : Text := txt "mojofmt 0.1.9"

/-- What is printed when the command line is refused. -/
def refusal (e : UsageError) : Text := usage ++ txt "mojofmt: error: " ++ e.message ++ ['\n']

end EpFormat.CommandLine
