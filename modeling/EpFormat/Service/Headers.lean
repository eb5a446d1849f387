import EpFormat.Service.Server

/-!
# Headers — what every answer carries

The content policy names the places that a page may load from; while debugging, scripts and styles may stand in the
page itself.  Outside debugging, an answer over a secure connection asks the client to stay with secure ones.
-/
namespace EpFormat.Service

/-- The directives of the content policy, in order. -/
def contentPolicy (debug : Bool) : List (String × List String) :=
  let inline := if debug then ["'unsafe-inline'"] else []
  let network := "https://cdn.jsdelivr.net"
  [("default-src", ["'self'"]),
   ("script-src", ["'self'", network] ++ inline),
   ("style-src", ["'self'", network] ++ inline),
   ("img-src", ["'self'", "data:"]),
   ("font-src", ["'self'", network]),
   ("connect-src", ["'self'"]),
   ("frame-ancestors", ["'none'"]),
   ("base-uri", ["'self'"]),
   ("form-action", ["'self'"])]

def contentPolicyText (debug : Bool) : Text :=
  Text.join (txt "; ") ((contentPolicy debug).map (fun (name, values) =>
    Text.join [' '] (txt name :: values.map txt)))

def Body.contentType : Body → Text
  | json _ => txt "application/json"
  | html _ => txt "text/html; charset=utf-8"

def headers (settings : Settings) (req : Request) (r : Response) : List (Text × Text) :=
  [(txt "Content-Type", r.body.contentType),
   (txt "X-Frame-Options", txt "DENY"),
   (txt "X-Content-Type-Options", txt "nosniff"),
   (txt "Content-Security-Policy", contentPolicyText settings.debug),
   (txt "Referrer-Policy", txt "strict-origin-when-cross-origin"),
   (txt "Permissions-Policy", txt "browsing-topics=()"),
   (txt "X-XSS-Protection", txt "0"),
   (txt "X-Download-Options", txt "noopen"),
   (txt "X-Permitted-Cross-Domain-Policies", txt "none"),
   (txt "Access-Control-Allow-Origin", (req.header? (txt "Origin")).getD (txt "*"))]
  ++ (if !settings.debug && req.isSecure then
      [(txt "Strict-Transport-Security", txt "max-age=31536000; includeSubDomains")] else [])
  ++ (match r.location with
      | some l => [(txt "Location", l)]
      | none => [])

/-- The value of a header by its name in any case. -/
def headerOf (name : Text) (hs : List (Text × Text)) : Option Text :=
  (hs.find? (fun h => Text.lower h.1 == Text.lower name)).map (·.2)

end EpFormat.Service
