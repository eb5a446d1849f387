import EpFormat.Json.Basic
import EpFormat.Service.Submission
import EpFormat.Text.Search

/-!
# Response — what the service answers

An answer has a status, a body and sometimes a place to go to.  `Fault` lists the answers that carry an error
message.
-/
namespace EpFormat.Service

inductive Body
  | json (v : Json)
  | html (t : Text)

structure Response where
  status : Nat
  body : Body
  location : Option Text := none

def markupText (t : Text) : Text :=
  t.flatMap (fun c =>
    if c = '&' then txt "&amp;"
    else if c = '<' then txt "&lt;"
    else if c = '>' then txt "&gt;"
    else if c = '"' then txt "&#34;"
    else if c.toNat = 39 then txt "&#39;"
    else [c])

namespace Response

/-- An object with one text member. -/
def object (status : Nat) (key : Text) (value : Text) : Response := ⟨status, .json (.obj [(key, .str value)]), none⟩

/-- An answer that sends the client elsewhere. -/
def redirect (location : Text) : Response :=
  let shown := markupText location
  { status := 302
    body := .html (txt "<!doctype html>\n<html lang=en>\n<title>Redirecting...</title>\n<h1>Redirecting...</h1>\n"
      ++ txt "<p>You should be redirected automatically to the target URL: <a href=\"" ++ shown ++ txt "\">" ++ shown
      ++ txt "</a>. If not, click the link.\n")
    location := some location }

end Response

/-- Why a request is not answered with what it asks for. -/
inductive Fault
  | badRequest
  | notJson
  | invalid (message : Text)
  | unauthorized
  | notFound
  | tooLarge
  | rateLimited
  | processing
  | internal
  deriving DecidableEq, Repr

namespace Fault

def status : Fault → Nat
  | badRequest | notJson | invalid _ => 400
  | unauthorized => 401
  | notFound => 404
  | tooLarge => 413
  | rateLimited => 429
  | processing | internal => 500

def message : Fault → Text
  | badRequest => txt "Bad request"
  | notJson => txt "JSON body required"
  | invalid m => m
  | unauthorized => txt "Unauthorized"
  | notFound => txt "Not found"
  | tooLarge => txt "File too large"
  | rateLimited => txt "Rate limit exceeded"
  | processing => txt "Processing failed"
  | internal => txt "Internal server error"

def response (f : Fault) : Response := .object f.status (txt "error") f.message

end Fault
end EpFormat.Service
