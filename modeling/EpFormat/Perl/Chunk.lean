import EpFormat.Text.Blank

/-!
# Chunk — Perl text as code and string literals

A literal begins at a single or double quote and ends at the next free quote of the same kind; a backslash takes
the character after it along.  What is not literal is code.  A literal that is not closed runs to the end.
-/
namespace EpFormat.Perl

/-- A stretch of Perl text: code, or a string literal with its quotes. -/
inductive Chunk
  | code (text : Text)
  | literal (text : Text)
  deriving DecidableEq, Repr

namespace Chunk

def text : Chunk → Text
  | code t => t
  | literal t => t

def isCode : Chunk → Bool
  | code _ => true
  | literal _ => false

/-- A quote that begins a literal. -/
def isQuote (c : Char) : Bool := c.toNat = 39 || c = '"'

/-- Adds the stretch `buf` (backwards) to the chunks, unless it is empty. -/
def flush (done : List Chunk) (mk : Text → Chunk) (buf : Text) : List Chunk :=
  if buf.isEmpty then done else mk buf.reverse :: done

/-- The chunks of a text; `done` are the finished ones, latest first, `buf` the current one backwards, and the
open quote is given while inside a literal. -/
def splitAux : List Chunk → Text → Option Char → Text → List Chunk
  | done, buf, none, [] => (flush done code buf).reverse
  | done, buf, some _, [] => (flush done literal buf).reverse
  | done, buf, none, c :: rest =>
    if isQuote c then splitAux (flush done code buf) [c] (some c) rest
    else splitAux done (c :: buf) none rest
  | done, buf, some q, '\\' :: c :: rest => splitAux done (c :: '\\' :: buf) (some q) rest
  -- a backslash comes here only as the last character
  | done, buf, some q, c :: rest =>
    if c = q then splitAux (literal (c :: buf).reverse :: done) [] none rest
    else splitAux done (c :: buf) (some q) rest

/-- Cuts Perl text into code and literals. -/
def split (t : Text) : List Chunk := splitAux [] [] none t

end Chunk

/-- Cuts code at the first number sign: the code before it, and the comment if there is one. -/
def splitComment (t : Text) : Text × Option Text :=
  let code := t.takeWhile (· != '#')
  match t.dropWhile (· != '#') with
  | [] => (code, none)
  | comment => (code, some comment)

end EpFormat.Perl
