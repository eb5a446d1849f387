import Mathlib.Data.List.Forall2
import EpFormat.Proofs.Words
import EpFormat.Service.Headers
/-!
# Gates — what a request has to pass before its body is looked at

A request must be secure outside debugging, be within the quotas of its endpoint, and for the token endpoint name the token.
Where it is turned away at one of these gates, what the service does depends on nothing behind them: a request to the token
endpoint that does not name the token is never formatted and never answered well, and its body makes no difference, now or
later (`unauthorized_blind`).
-/
namespace EpFormat.Service

/-! ## The gates one by one -/

theorem Endpoint.options_not_mem (e : Endpoint) : txt "OPTIONS" ∉ e.methods := by cases e <;> decide

/-- Outside debugging a request that is not secure is sent elsewhere; any other comes to its endpoint. -/
theorem Request.route_eq {req : Request} {e : Endpoint} (hpath : Endpoint.ofPath req.target.path = some e)
    (hmethod : req.method ∈ e.methods) (settings : Settings) :
    req.route settings = if settings.debug || req.isSecure then .ok e
      else .error (.redirect (req.target.secureUrl (txt "localhost"))) := by
  have hoptions : req.method ≠ txt "OPTIONS" := fun h => e.options_not_mem (h ▸ hmethod)
  simp only [route, hpath, hoptions, if_false, List.contains_iff_mem.2 hmethod, if_true]
  cases settings.debug <;> cases req.isSecure <;> rfl

theorem Request.route_eq_ok_iff {settings : Settings} {req : Request} {e : Endpoint} : req.route settings = .ok e ↔
    (settings.debug || req.isSecure) = true ∧ Endpoint.ofPath req.target.path = some e ∧ req.method ∈ e.methods := by
  constructor
  · intro h
    rw [route] at h
    by_cases hsecure : (!settings.debug && !req.isSecure) = true
    · rw [if_pos hsecure] at h
      cases h
    rw [if_neg hsecure] at h
    cases hpath : Endpoint.ofPath req.target.path with
    | none => rw [hpath] at h; cases h
    | some reached =>
      simp only [hpath] at h
      by_cases hoptions : req.method = txt "OPTIONS"
      · rw [if_pos hoptions] at h
        cases h
      rw [if_neg hoptions] at h
      by_cases hmethod : reached.methods.contains req.method = true
      · rw [if_pos hmethod] at h
        cases h
        exact ⟨by simpa [Bool.or_eq_true, or_iff_not_imp_left] using hsecure, rfl, List.contains_iff_mem.1 hmethod⟩
      · rw [if_neg hmethod] at h
        cases h
  · rintro ⟨hsecure, hpath, hmethod⟩
    rw [route_eq hpath hmethod, if_pos hsecure]

def formattingPaths : List (Endpoint × Text) :=
  [(.quickFormat, txt "/api/format_ajax"), (.tokenFormat, txt "/api/format")]

theorem formattingPaths_spec {e : Endpoint} {path : Text} (h : (e, path) ∈ formattingPaths) :
    (∀ p, Endpoint.ofPath p = some e ↔ p = path) ∧ e.methods = [txt "POST"] ∧ e.quotas = [5] := by
  simp only [formattingPaths, List.mem_cons, Prod.mk.injEq, List.not_mem_nil, or_false] at h
  rcases h with ⟨rfl, rfl⟩ | ⟨rfl, rfl⟩
  all_goals
    refine ⟨fun p => ⟨fun hp => ?_, fun hp => by rw [hp]; decide⟩, rfl, rfl⟩
    unfold Endpoint.ofPath at hp
    grind

theorem Request.bears_iff (req : Request) (token : Text) :
    req.bears token = true ↔ req.header? (txt "Authorization") = some (txt "Bearer " ++ token) := by
  rw [bears, beq_iff_eq]
  cases hauth : req.header? (txt "Authorization") with
  | none => exact iff_of_false (fun h => absurd (Text.after?_eq_some h) (by simp [txt])) (by simp)
  | some value =>
    rw [Option.getD_some, Option.some.injEq]
    constructor
    · exact Text.after?_eq_some
    · rintro rfl
      exact Text.after?_append _ token

/-- A request to the token endpoint that does not name the token. -/
structure Request.Unauthorized (settings : Settings) (req : Request) : Prop where
  method : req.method = txt "POST"
  path : req.target.path = txt "/api/format"
  token : req.header? (txt "Authorization") ≠ some (txt "Bearer " ++ settings.apiToken)

/-- What such a request is answered, which depends on no more than its address, its target and whether it is secure. -/
theorem Request.Unauthorized.task_eq {settings : Settings} {req : Request} (h : req.Unauthorized settings)
    (visits : Visits) :
    req.task settings visits = .reply (
      if settings.debug || req.isSecure then
        (if visits.admits req.address .tokenFormat then Fault.unauthorized else Fault.rateLimited).response
      else .redirect (req.target.secureUrl (txt "localhost"))) := by
  have hroute := Request.route_eq (e := .tokenFormat) (by rw [h.path]; decide) (by rw [h.method]; decide) settings
  have hbears : req.bears settings.apiToken = false :=
    Bool.eq_false_iff.2 (fun hb => h.token ((req.bears_iff _).1 hb))
  rw [Request.task, Request.entry, hroute]
  cases settings.debug || req.isSecure with
  | false => rfl
  | true =>
    cases hadmits : visits.admits req.address .tokenFormat with
    | false => simp [hadmits]
    | true => simp [hadmits, Task.ofEndpoint, hbears]

/-! ## Requests alike but for their bodies -/

/-- Whether a header says what the body is. -/
def describesBody (name : Text) : Bool := [txt "content-type", txt "content-length"].contains (Text.lower name)

theorem describesBody_congr {a b : Text} (h : Text.lower a = Text.lower b) : describesBody a = describesBody b := by
  rw [describesBody, describesBody, h]

/-- Requests that are alike but for their bodies and for what is said about these. -/
structure Request.SameButBody (a b : Request) : Prop where
  method : a.method = b.method
  target : a.target = b.target
  address : a.address = b.address
  secure : a.secure = b.secure
  headers : a.headers.filter (fun h => !describesBody h.1) = b.headers.filter (fun h => !describesBody h.1)

namespace Request.SameButBody

variable {settings : Settings} {a b : Request}

theorem header?_eq (h : a.SameButBody b) {name : Text} (hn : describesBody name = false) :
    a.header? name = b.header? name := by
  have hfilter : ∀ req : Request, req.headers.filter (fun x => Text.lower x.1 == Text.lower name)
      = (req.headers.filter (fun x => !describesBody x.1)).filter (fun x => Text.lower x.1 == Text.lower name) := by
    intro req
    rw [List.filter_filter]
    refine List.filter_congr (fun x _ => ?_)
    cases hx : Text.lower x.1 == Text.lower name with
    | false => rfl
    | true => rw [describesBody_congr (beq_iff_eq.1 hx), hn]; rfl
  rw [Request.header?, Request.header?, hfilter a, hfilter b, h.headers]

theorem isSecure_eq (h : a.SameButBody b) : a.isSecure = b.isSecure := by
  rw [isSecure, isSecure, h.secure, h.header?_eq (by decide)]

theorem unauthorized (h : a.SameButBody b) (ha : a.Unauthorized settings) : b.Unauthorized settings := by
  have hsame : a.header? (txt "Authorization") = b.header? (txt "Authorization") := h.header?_eq (by decide)
  exact ⟨h.method ▸ ha.method, h.target ▸ ha.path, hsame ▸ ha.token⟩

theorem task_eq (h : a.SameButBody b) (ha : a.Unauthorized settings) (visits : Visits) :
    a.task settings visits = b.task settings visits := by
  rw [ha.task_eq, (h.unauthorized ha).task_eq, h.isSecure_eq, h.address, h.target]

theorem route_eq (h : a.SameButBody b) : a.route settings = b.route settings := by
  rw [route, route, h.isSecure_eq, h.target, h.method]

theorem after_eq (h : a.SameButBody b) (visits : Visits) : visits.after settings a = visits.after settings b := by
  rw [Visits.after, Visits.after, h.route_eq, h.address]

theorem headers_eq (h : a.SameButBody b) (r : Response) : Service.headers settings a r = Service.headers settings b r := by
  rw [Service.headers, Service.headers, h.isSecure_eq, h.header?_eq (by decide)]

end Request.SameButBody

/-! ## Two runs -/

variable {settings : Settings}

/-- Requests, each with its formatter, that the service is not to tell apart: the same, or without the token and alike but
for their bodies. -/
def Indistinct (settings : Settings) (x y : Worker × Request) : Prop :=
  x = y ∨ x.2.Unauthorized settings ∧ x.2.SameButBody y.2

theorem Indistinct.handle_eq {x y : Worker × Request} (h : Indistinct settings x y) (visits : Visits) :
    handle settings x.1 visits x.2 = handle settings y.1 visits y.2 := by
  rcases h with rfl | ⟨hx, hsame⟩
  · rfl
  · rw [handle, handle, ← hsame.task_eq hx, ← hsame.after_eq, hx.task_eq]
    rfl

/-- **Runs that are alike but for the bodies of requests without the token have the same answers.** -/
theorem serve_indistinct {xs ys : List (Worker × Request)} (h : List.Forall₂ (Indistinct settings) xs ys)
    (visits : Visits) : serve settings visits xs = serve settings visits ys := by
  induction h generalizing visits with
  | nil => rfl
  | @cons x y xs ys hxy _ ih =>
    rw [serve, serve, hxy.handle_eq visits]
    exact congrArg _ (ih _)

end EpFormat.Service
