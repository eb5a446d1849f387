import EpFormat.Decimal.Shortest
import EpFormat.Text.Search

/-!
# Profile — where the time of a run goes

A profile has the own time of each function, by the file that it stands in.  A file belongs to the repository if
it is below the repository's directory, outside folders that hold installed or built code, and is not part of the
measurement itself.  Native code is what has no source: built-in functions and shared libraries.
-/
namespace EpFormat.Measure

structure Row where
  file : Text
  time : Float

/-- The functions of a run, and the time of the whole. -/
structure Profile where
  rows : List Row
  total : Float

/-- The parts of a path, with `.` and `..` resolved. -/
def resolved (path : Text) : List Text :=
  let parts := (path.foldr (fun c acc =>
    if c = '/' then [] :: acc
    else match acc with
      | [] => [[c]]
      | p :: ps => (c :: p) :: ps) [[]])
  (parts.foldl (fun done p =>
    if p.isEmpty || p = ['.'] then done
    else if p = ['.', '.'] then done.drop 1
    else p :: done) []).reverse

/-- Folders that hold installed or built code. -/
def foreignFolders : List Text :=
  ["venv", ".venv", "env", ".env", "build", "dist", "site-packages", "dist-packages", "node_modules", ".git",
   ".tox", ".eggs", "__pycache__"].map txt

def isForeign (folder : Text) : Bool := foreignFolders.contains folder || Text.endsWith (txt ".egg-info") folder

/-- Whether a file is part of the measurement. -/
def isHarness (name : Text) : Bool := name = txt "microbench.py" || Text.startsWith (txt "_pti_") name

namespace Row

/-- Whether the function belongs to the repository in `/repo`. -/
def inRepo (r : Row) : Bool :=
  r.file.head? = some '/' &&
    match resolved r.file with
    | root :: rest =>
      root = txt "repo" && !rest.isEmpty && !rest.dropLast.any isForeign && !isHarness (rest.getLast?.getD [])
    | [] => false

def isNative (r : Row) : Bool :=
  r.file = ['~'] || Text.endsWith (txt ".so") r.file || Text.endsWith (txt ".pyd") r.file

/-- The name that time outside the repository is booked under: the file without its folder and ending. -/
def label (r : Row) : Text :=
  if r.file = ['~'] then txt "builtins"
  else
    let base := (r.file.reverse.takeWhile (· ≠ '/')).reverse
    let stem := if Text.endsWith (txt ".py") base then base.take (base.length - 3) else base
    if stem.isEmpty then r.file else stem

end Row

namespace Profile

/-- The time of the functions that a test picks. -/
def timeOf (p : Profile) (pick : Row → Bool) : Float :=
  p.rows.foldl (fun acc r => if pick r then acc + r.time else acc) 0.0

def share (p : Profile) (time : Float) : Float := if p.total > 0.0 then time / p.total else 0.0

def repoShare (p : Profile) : Float := Decimal.roundPlaces 3 (p.share (p.timeOf Row.inRepo))

def nativeShare (p : Profile) : Float := Decimal.roundPlaces 3 (p.share (p.timeOf Row.isNative))

def repoMillis (p : Profile) : Float := Decimal.roundPlaces 3 (p.timeOf Row.inRepo * 1000.0)

def repoPercent (p : Profile) : Float := Decimal.roundPlaces 1 (100.0 * p.share (p.timeOf Row.inRepo))

/-- Adds time to what is booked under a name. -/
def book (name : Text) (time : Float) : List (Text × Float) → List (Text × Float)
  | [] => [(name, time)]
  | (n, t) :: rest => if n = name then (n, t + time) :: rest else (n, t) :: book name time rest

def textAfter : Text → Text → Bool
  | _ :: _, [] => true
  | [], _ => false
  | a :: s, b :: t => if a = b then textAfter s t else b.toNat < a.toNat

/-- The two names outside the repository with the most time, in percent with one place; of two with the same
percentage, the later name. -/
def hottest (p : Profile) : List (Float × Text) :=
  let booked := p.rows.foldl (fun acc r => if r.inRepo then acc else book r.label r.time acc) []
  let shares := booked.map (fun (name, t) => (Decimal.roundPlaces 1 (100.0 * p.share t), name))
  (shares.mergeSort (fun a b => if a.1 == b.1 then !textAfter b.2 a.2 else b.1 < a.1)).take 2

end Profile
end EpFormat.Measure
