import EpFormat.Files.Path
import EpFormat.Text.Quoted
import EpFormat.Text.Utf8

/-!
# Workspace — the files that a run of the program sees

A workspace holds the files and directories below the working directory, each by the list of its components.
Reading, writing and listing fail as a file system does: something is not there, is a directory, or is used as a
directory and is none.
-/
namespace EpFormat.Files

open Utf8 (Bytes)

inductive Entry
  | file (bytes : Bytes)
  | directory
  deriving DecidableEq, Repr

/-- A place in a workspace: the components from the working directory on. -/
abbrev Place := List Text

/-- Files and directories below the working directory. -/
structure Workspace where
  entries : List (Place × Entry) := []

inductive FileError
  | notFound (path : Text)
  | notDirectory (path : Text)
  | isDirectory (path : Text)
  | nameTooLong (path : Text)
  | nulInName
  deriving DecidableEq, Repr

def FileError.message : FileError → Text
  | notFound p => txt "[Errno 2] No such file or directory: " ++ p.quoted
  | notDirectory p => txt "[Errno 20] Not a directory: " ++ p.quoted
  | isDirectory p => txt "[Errno 21] Is a directory: " ++ p.quoted
  | nameTooLong p => txt "[Errno 36] File name too long: " ++ p.quoted
  | nulInName => txt "embedded null byte"

/-- Order of names: by code points. -/
def nameLe : Text → Text → Bool
  | [], _ => true
  | _ :: _, [] => false
  | a :: s, b :: t => if a = b then nameLe s t else a.toNat < b.toNat

namespace Workspace

/-- What is at a place; the working directory itself is a directory. -/
def get? (w : Workspace) (loc : Place) : Option Entry :=
  if loc.isEmpty then some .directory else (w.entries.find? (fun e => e.1 == loc)).map (·.2)

def set (w : Workspace) (loc : Place) (entry : Entry) : Workspace :=
  if w.entries.any (fun e => e.1 == loc) then
    ⟨w.entries.map (fun e => if e.1 == loc then (e.1, entry) else e)⟩
  else ⟨w.entries ++ [(loc, entry)]⟩

def erase (w : Workspace) (loc : Place) : Workspace := ⟨w.entries.filter (fun e => e.1 != loc)⟩

/-- Makes the directories on the way to a place. -/
def makeParents (w : Workspace) (loc : Place) : Workspace :=
  (List.range loc.length).foldl (fun w n =>
    let dir := loc.take n
    match w.get? dir with
    | some _ => w
    | none => w.set dir .directory) w

/-- Puts something at a place, with the directories on the way to it. -/
def put (w : Workspace) (loc : Place) (entry : Entry) : Workspace := (w.makeParents loc).set loc entry

/-- Where a path leads, from a place on.  Every place on the way has to be a directory. -/
def follow (w : Workspace) (path : Text) : Place → List Text → Except FileError Place
  | here, [] => .ok here
  | here, part :: rest =>
    match w.get? here with
    | none => .error (.notFound path)
    | some (.file _) => .error (.notDirectory path)
    | some .directory =>
      if part = ['.', '.'] then
        if here.isEmpty then .error (.notFound path) else follow w path here.dropLast rest
      else if 255 < Utf8.size part then .error (.nameTooLong path)
      else follow w path (here ++ [part]) rest

/-- Where a path leads.  Only paths from the working directory lead anywhere. -/
def locate (w : Workspace) (p : Path) : Except FileError Place :=
  if p.root.isEmpty then follow w p.toText [] p.parts else .error (.notFound p.toText)

def hasNul (p : Path) : Bool := p.toText.any (fun c => c.toNat = 0)

def isDirectory (w : Workspace) (p : Path) : Except FileError Bool :=
  if hasNul p then .ok false
  else
    match w.locate p with
    | .ok here => .ok (w.get? here = some .directory)
    -- all other errors mean that there is no directory
    | .error (.nameTooLong path) => .error (.nameTooLong path)
    | .error _ => .ok false

def read (w : Workspace) (p : Path) : Except FileError Bytes :=
  if hasNul p then .error .nulInName
  else
    match w.locate p with
    | .error e => .error e
    | .ok here =>
      match w.get? here with
      | none => .error (.notFound p.toText)
      | some .directory => .error (.isDirectory p.toText)
      | some (.file bytes) => .ok bytes

def write (w : Workspace) (p : Path) (bytes : Bytes) : Except FileError Workspace :=
  if hasNul p then .error .nulInName
  else
    match w.locate p with
    | .error e => .error e
    | .ok here =>
      match w.get? here with
      | some .directory => .error (.isDirectory p.toText)
      | _ => .ok (w.set here (.file bytes))

/-- The names in a directory whose entries satisfy `keep`, in order. -/
def names (w : Workspace) (dir : Place) (keep : Entry → Bool) : List Text :=
  (w.entries.filterMap (fun e =>
    match e.1.getLast? with
    | some name => if e.1.dropLast == dir && keep e.2 then some name else none
    | none => none)).mergeSort nameLe

def isFile : Entry → Bool
  | .file _ => true
  | .directory => false

/-- The files below a directory, those of a directory before those of its subdirectories, each as a path that
continues `p`. -/
def filesBelow (w : Workspace) : Nat → Place → Path → List Path
  | 0, _, _ => []
  | fuel + 1, dir, p =>
    (w.names dir isFile).map p.child
      ++ (w.names dir (fun e => !isFile e)).flatMap (fun d => filesBelow w fuel (dir ++ [d]) (p.child d))

/-- The files that a path stands for: the path itself, or the files below it if it is a directory; only those
with one of the extensions. -/
def filesOf (w : Workspace) (extensions : List Text) (p : Path) : Except FileError (List Path) :=
  match w.isDirectory p with
  | .error e => .error e
  | .ok false => .ok ([p].filter (Path.hasExtension extensions))
  | .ok true =>
    match w.locate p with
    | .error e => .error e
    | .ok dir => .ok ((w.filesBelow (w.entries.length + 1) dir p).filter (Path.hasExtension extensions))

end Workspace
end EpFormat.Files
