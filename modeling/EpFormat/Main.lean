import EpFormat.CommandLine.Run

/-!
# Main — the command line

The files and folders that the arguments name are read into a workspace, the program runs on it, and what it
changed is written back.  Paths are taken from the working directory on.
-/
namespace EpFormat.CommandLine

open Files (Workspace Path)

def maxFolders : Nat := 100

/-- Reads what is at a place into a workspace. -/
def load : Nat → Workspace → Files.Place → IO Workspace
  | 0, w, _ => pure w
  | fuel + 1, w, place => do
    let path := (← IO.currentDir) / String.ofList (Text.join ['/'] place)
    if ← path.isDir then
      let mut seen := w.put place .directory
      for entry in ← path.readDir do
        seen ← load fuel seen (place ++ [entry.fileName.toList])
      return seen
    else if ← path.pathExists then
      return w.put place (.file (← IO.FS.readBinFile path).toList)
    else
      return w

/-- The places that a run may read or write. -/
def placesOf (o : Options) : List Files.Place :=
  let given := o.paths.map Path.ofText
  (given ++ given.map Path.backup ++ o.out.toList.map Path.ofText).filterMap (fun p =>
    if p.root.isEmpty && !p.parts.isEmpty then some p.parts else none)

def store (before after : Workspace) : IO Unit := do
  for (place, entry) in after.entries do
    match entry with
    | .directory => pure ()
    | .file bytes =>
      if before.get? place != some entry then
        let path := (← IO.currentDir) / String.ofList (Text.join ['/'] place)
        IO.FS.writeBinFile path ⟨bytes.toArray⟩

/-- Reads a stream to its end, after the bytes already read. -/
partial def readAll (stream : IO.FS.Stream) (done : ByteArray) : IO ByteArray := do
  let part ← stream.read 65536
  if part.isEmpty then return done else readAll stream (done ++ part)

end EpFormat.CommandLine

open EpFormat EpFormat.CommandLine in
def main (args : List String) : IO UInt32 := do
  let args := args.map String.toList
  let options := match parse args with
    | .ok o => some o
    | .error _ => none
  let places := (options.map placesOf).getD []
  let mut before : Files.Workspace := {}
  for place in places do
    before ← load maxFolders before place
  let readsInput := (options.map (·.stdin)).getD false
  let input ← if readsInput then readAll (← IO.getStdin) .empty else pure .empty
  let report := run .absent before input.toList args
  (← IO.getStdout).putStr (String.ofList report.stdout)
  (← IO.getStderr).putStr (String.ofList report.stderr)
  store before report.files
  match report.outcome with
  | .returned code | .exited code => return code.toUInt32
  | .failed e =>
    (← IO.getStderr).putStrLn (String.ofList e.message)
    return 1
