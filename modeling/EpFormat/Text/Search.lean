import EpFormat.Text.Scan

/-!
# Search — fixed words in a text
-/
namespace EpFormat.Text

/-- The text after `word`, if the text starts with it. -/
def after? : Text → Text → Option Text
  | [], t => some t
  | _ :: _, [] => none
  | a :: word, c :: t => if a = c then after? word t else none

def startsWith (word t : Text) : Bool := (after? word t).isSome

def endsWith (word t : Text) : Bool := startsWith word.reverse t.reverse

def contains (word : Text) : Text → Bool
  | [] => word.isEmpty
  | c :: t => startsWith word (c :: t) || contains word t

/-- The text before the first `word` and the text after it. -/
def cut? (word : Text) : Text → Option (Text × Text)
  | [] => (after? word []).map (([], ·))
  | c :: t =>
    match after? word (c :: t) with
    | some rest => some ([], rest)
    | none => (cut? word t).map (fun (before, rest) => (c :: before, rest))

/-- Replaces `old`, left to right and without overlap.  An empty `old` stands before every character and at
the end. -/
def replaceAll (old new t : Text) : Text :=
  if old.isEmpty then new ++ t.flatMap (fun c => c :: new)
  else substitute (fun _ s => if startsWith old s then some ((), old.length) else none) (fun _ => new) t

def join (sep : Text) (ts : List Text) : Text := sep.intercalate ts

end EpFormat.Text
