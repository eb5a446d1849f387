import EpFormat.Text.Search

/-!
# Lines — rows, lines and line ends

There are two ways to cut a text.  *Rows* are what stands between line feeds, so that a text with `n` line feeds
has `n + 1` rows.  *Lines* end at every line boundary (line feed, carriage return, both as one, vertical tab,
form feed, three of the information separators, next line, line and paragraph separator), and a boundary at the
very end begins no further line.  `Eol` is the choice of line ends that a text is written with.
-/
namespace EpFormat

/-- A character that ends a line. -/
def isLineBreak (c : Char) : Bool :=
  let n := c.toNat
  (10 ≤ n && n ≤ 13) || (28 ≤ n && n ≤ 30) || n = 0x85 || n = 0x2028 || n = 0x2029

namespace Text

/-- What stands between the line feeds. -/
def rows (t : Text) : List Text :=
  t.foldr (fun c acc =>
    if c = '\n' then [] :: acc
    else match acc with
      -- never the case: there is a row from the start
      | [] => [[c]]
      | r :: rs => (c :: r) :: rs) [[]]

def unrows (rs : List Text) : Text := join ['\n'] rs

/-- The lines with the boundary that ends each; `line` is the current one, backwards.  A carriage return and
the line feed after it are one boundary. -/
def linesKeepAux : List Text → Text → Text → List Text
  | done, line, [] => (if line.isEmpty then done else line.reverse :: done).reverse
  | done, line, '\r' :: '\n' :: rest => linesKeepAux (('\n' :: '\r' :: line).reverse :: done) [] rest
  | done, line, c :: rest =>
    if isLineBreak c then linesKeepAux ((c :: line).reverse :: done) [] rest
    else linesKeepAux done (c :: line) rest

def linesKeep (t : Text) : List Text := linesKeepAux [] [] t

def lines (t : Text) : List Text := (linesKeep t).map (·.filter (fun c => !isLineBreak c))

end Text

inductive Eol
  | lf
  | crlf
  | preserve
  deriving DecidableEq, Repr

namespace Eol

def name : Eol → Text
  | lf => txt "lf"
  | crlf => txt "crlf"
  | preserve => txt "preserve"

/-- The choice that a name stands for; a name that is none of the three means `lf`. -/
def ofName (n : Text) : Eol :=
  if n = txt "crlf" then crlf else if n = txt "preserve" then preserve else lf

/-- Every line end as one line feed: a carriage return with the line feed after it, and a carriage return
alone.  `afterCr` says that the character before was a carriage return. -/
def unifyAux : Text → Bool → Text → Text
  | done, _, [] => done.reverse
  | done, afterCr, c :: rest =>
    if c = '\r' then unifyAux ('\n' :: done) true rest
    else if c = '\n' && afterCr then unifyAux done false rest
    else unifyAux (c :: done) false rest

def unify (t : Text) : Text := unifyAux [] false t

/-- Every line feed as carriage return and line feed. -/
def widen (t : Text) : Text := t.flatMap (fun c => if c = '\n' then ['\r', '\n'] else [c])

/-- The line ends that a text has: `crlf` if that pair occurs in it. -/
def detect (t : Text) : Eol := if Text.contains ['\r', '\n'] t then crlf else lf

def apply (e : Eol) (t : Text) : Text :=
  match e with
  | preserve => t
  | lf => unify t
  | crlf => widen (unify t)

end Eol
end EpFormat
