import EpFormat.Json.Read
import EpFormat.Service.Endpoint
import EpFormat.Service.Page
import EpFormat.Service.Response
import EpFormat.Service.Target
import EpFormat.Service.Worker
import EpFormat.Text.Encoding
import EpFormat.Text.LowerCase

/-!
# Server — requests and their answers

A request goes through these gates in order: outside debugging it must be secure; its path must be known; the
endpoint must take its method; its address must be within the quotas; and for the endpoint that asks for a token,
the token must be right.  Only then is the body looked at.  What comes of this is a task, to give an answer or to have
a text formatted; the formatter is started for a task of the second kind only.
-/
namespace EpFormat.Service

structure Settings where
  debug : Bool
  secretKey : Text
  apiToken : Text
  version : Text
  deriving DecidableEq, Repr

structure Request where
  method : Text
  target : Target
  headers : List (Text × Text)
  body : Utf8.Bytes
  address : Text
  secure : Bool

namespace Request

/-- A header by its name in any case; several of one name are put together. -/
def header? (req : Request) (name : Text) : Option Text :=
  match (req.headers.filter (fun h => Text.lower h.1 == Text.lower name)).map (·.2) with
  | [] => none
  | values => some (Text.join (txt ", ") values)

/-- Whether the request came over a secure connection, to the service or to what stands before it. -/
def isSecure (req : Request) : Bool := req.secure || req.header? (txt "X-Forwarded-Proto") == some (txt "https")

def isJson (req : Request) : Bool :=
  let kind := Text.lower (Text.trim (((req.header? (txt "Content-Type")).getD []).takeWhile (· ≠ ';')))
  kind = txt "application/json" || (Text.startsWith (txt "application/") kind && Text.endsWith (txt "+json") kind)

def bears (req : Request) (token : Text) : Bool :=
  Text.after? (txt "Bearer ") ((req.header? (txt "Authorization")).getD []) == some token

/-- The value in the body; none if the body is too large or is no JSON. -/
def json? (req : Request) : Option Json :=
  if maxBytes < req.body.length then none else (decodeAny? req.body).bind Json.parse?

end Request

/-- What is to be done for a request: give an answer, or have a text formatted. -/
inductive Task
  | reply (r : Response)
  | format (s : Submission)

namespace Task

/-- The task that an object with a text to format sets. -/
def ofObject (data : Json) : Task :=
  match Submission.read data with
  | .error e => .reply (Fault.invalid e.message).response
  | .ok s => .format s

/-- The task that the body of a request sets, with `shape` bringing it into the form of a submission. -/
def ofBody (shape : Json → Option Json) (req : Request) : Task :=
  if !req.isJson then .reply Fault.notJson.response
  else
    match req.json?.bind shape with
    -- a body that cannot be read is taken for a fault of the service itself
    | none => .reply Fault.internal.response
    | some data => ofObject data

def perform (worker : Worker) : Task → Response
  | reply r => r
  | format s =>
    match worker.run s.text with
    | .ok t => .object 200 (txt "formatted_text") (if s.dropBlankLines then withoutBlankLines t else t)
    | .error .refused => (Fault.invalid WorkError.refused.message).response
    | .error _ => Fault.processing.response

end Task

/-- The object of the token endpoint, in the form of the other one. -/
def Submission.ofTokenObject? (data : Json) : Option Json :=
  match data with
  | .obj _ => some (.obj [(Submission.textKey, (data.get? (txt "text")).getD (.str [])),
      (Submission.dropKey, (data.get? Submission.dropKey).getD (.bool false))])
  | _ => none

/-- The task of an endpoint for a request that came through the quotas. -/
def Task.ofEndpoint (settings : Settings) (e : Endpoint) (req : Request) : Task :=
  match e with
  | .page =>
    if req.method = txt "POST" then .reply (.redirect (txt "/"))
    else .reply ⟨200, .html (page settings.version), none⟩
  | .health =>
    .reply ⟨200, .json (.obj [(txt "status", .str (txt "healthy")), (txt "version", .str settings.version),
      (txt "debug", .bool settings.debug)]), none⟩
  | .quickFormat => .ofBody some req
  | .tokenFormat =>
    if req.bears settings.apiToken then .ofBody Submission.ofTokenObject? req else .reply Fault.unauthorized.response
  | .asset => .reply Fault.notFound.response

/-- The endpoint that a request comes to, or the answer that it gets before. -/
def Request.route (settings : Settings) (req : Request) : Except Response Endpoint :=
  if !settings.debug && !req.isSecure then .error (.redirect (req.target.secureUrl (txt "localhost")))
  else
    match Endpoint.ofPath req.target.path with
    | none => .error Fault.notFound.response
    | some e =>
      if req.method = txt "OPTIONS" then .error ⟨200, .html [], none⟩
      -- a method that is not taken is a fault of the service too, and does not count as a visit
      else if e.methods.contains req.method then .ok e
      else .error Fault.internal.response

/-- The endpoint that lets a request through its quotas, or the answer that the request gets before. -/
def Request.entry (settings : Settings) (visits : Visits) (req : Request) : Except Response Endpoint :=
  match req.route settings with
  | .error r => .error r
  | .ok e => if visits.admits req.address e then .ok e else .error Fault.rateLimited.response

def Request.task (settings : Settings) (visits : Visits) (req : Request) : Task :=
  match req.entry settings visits with
  | .error r => .reply r
  | .ok e => .ofEndpoint settings e req

/-- The visits after a request: one that comes to the quotas is counted. -/
def Visits.after (settings : Settings) (visits : Visits) (req : Request) : Visits :=
  match req.route settings with
  | .error _ => visits
  | .ok e => (req.address, e) :: visits

/-- The answer to a request, and the visits afterwards. -/
def handle (settings : Settings) (worker : Worker) (visits : Visits) (req : Request) : Response × Visits :=
  ((req.task settings visits).perform worker, visits.after settings req)

/-- The answers to requests that come one after the other. -/
def serve (settings : Settings) : Visits → List (Worker × Request) → List Response
  | _, [] => []
  | visits, (worker, req) :: rest =>
    let (r, after) := handle settings worker visits req
    r :: serve settings after rest

end EpFormat.Service
