import EpFormat.Files.Workspace
import EpFormat.Service.Server

/-!
# Startup — how the service comes up

Started with `--genenv`, the program writes fresh keys to a file and ends.  Otherwise it needs the two keys in its
environment; outside debugging it also makes a folder for its log.
-/
namespace EpFormat.Service

/-- A source of random texts, by their number of bytes. -/
structure Secrets where
  urlSafe : Nat → Text
  hex : Nat → Text

/-- What a start is given: arguments, the environment, and the names in the working folder, all of
which are folders. -/
structure Launch where
  arguments : List Text
  environment : List (Text × Text)
  folders : List Text

/-- How a start ends. -/
inductive Started
  | keysWritten (stdout : Text) (envFile : Text)
  | fileFailed (e : Files.FileError)
  | keysMissing
  | serving (settings : Settings)

def keysMissingMessage : Text :=
  txt "FLASK_SECRET_KEY and FLASK_API_TOKEN must be set (use --genenv to create .env)"

namespace Launch

def setting? (l : Launch) (name : String) : Option Text :=
  (l.environment.find? (fun v => v.1 == txt name)).map (·.2)

def debug (l : Launch) : Bool := (l.setting? "FLASK_DEBUG").map Text.lower == some (txt "true")

def envName : Text := txt ".env"

def logName : Text := txt "logs"

/-- The lines of a file with fresh keys that are also shown. -/
def keyLines (s : Secrets) : Text :=
  txt "FLASK_SECRET_KEY=" ++ s.urlSafe 32 ++ txt "\nFLASK_API_TOKEN=" ++ s.hex 20 ++ ['\n']

def start (l : Launch) (s : Secrets) : Started :=
  if l.arguments.contains (txt "--genenv") then
    if l.folders.contains envName then .fileFailed (.isDirectory envName)
    else
      .keysWritten (txt "✅ .env generated\n" ++ keyLines s ++ txt "⚠ Keep .env out of version control!\n")
        (keyLines s ++ txt "FLASK_DEBUG=False\n")
  else
    match l.setting? "FLASK_SECRET_KEY", l.setting? "FLASK_API_TOKEN" with
    | some key, some token =>
      if key.isEmpty || token.isEmpty then .keysMissing
      else .serving ⟨l.debug, key, token, Worker.working.version⟩
    | _, _ => .keysMissing

/-- The names in the working folder after a start, in order. -/
def namesAfter (l : Launch) (outcome : Started) : List Text :=
  let made := match outcome with
    | .keysWritten _ _ => [envName]
    | .serving settings => if settings.debug then [] else [logName]
    | _ => []
  ((made.filter (fun n => !l.folders.contains n)) ++ l.folders).mergeSort (fun a b => Files.nameLe a b)

end Launch
end EpFormat.Service
