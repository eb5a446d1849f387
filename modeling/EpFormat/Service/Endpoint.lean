import EpFormat.Text.Search

/-!
# Endpoint — what the service offers, and how often

Each endpoint has a path, the methods that it takes, and quotas: how many requests of one address it answers
within a window.  A request that comes to the quotas is counted, also when it is turned away.
-/
namespace EpFormat.Service

inductive Endpoint
  | page
  | quickFormat
  | tokenFormat
  | health
  | asset
  deriving DecidableEq, Repr

namespace Endpoint

/-- The endpoint of a path.  Below the folder of assets every name is one. -/
def ofPath (path : Text) : Option Endpoint :=
  if path = txt "/" then some page
  else if path = txt "/api/format_ajax" then some quickFormat
  else if path = txt "/api/format" then some tokenFormat
  else if path = txt "/health" then some health
  else
    match Text.after? (txt "/static/") path with
    | some (c :: _) => if c = '/' then none else some asset
    | _ => none

/-- The methods that an endpoint takes, apart from the question which ones these are. -/
def methods : Endpoint → List Text
  | page => [txt "GET", txt "HEAD", txt "POST"]
  | quickFormat | tokenFormat => [txt "POST"]
  | health | asset => [txt "GET", txt "HEAD"]

/-- How many requests of one address are answered: in a day and in an hour for pages, in a minute for
formatting. -/
def quotas : Endpoint → List Nat
  | page | health => [1000, 100]
  | quickFormat | tokenFormat => [5]
  | asset => []

end Endpoint

/-- The requests counted so far, each by its address and endpoint. -/
abbrev Visits := List (Text × Endpoint)

/-- Whether one more request of an address is within every quota of the endpoint. -/
def Visits.admits (visits : Visits) (address : Text) (e : Endpoint) : Bool :=
  e.quotas.all (fun q => decide (visits.count (address, e) < q))

end EpFormat.Service
