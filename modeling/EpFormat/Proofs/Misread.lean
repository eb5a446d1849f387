import EpFormat.Json.View
import EpFormat.Proofs.Remote
/-!
# Misread — faults of a client that the service takes for its own

An answer with a status from 500 on says that the service is at fault.  While the formatter works this is never so, and the
statuses that the service gives are few.  But a method that an endpoint does not take, and a body that is too large or holds
nothing that the endpoint can look into, are answered so all the same (`server_fault_iff`).
-/
namespace EpFormat.Service

variable {settings : Settings} {visits : Visits} {req : Request} {e : Endpoint}

/-! ## Bodies that are looked into -/

/-- The value that the body of a request spells, whatever its size. -/
def Request.value? (req : Request) : Option Json := (decodeAny? req.body).bind Json.parse?

theorem Request.json?_eq (req : Request) : req.json? = if maxBytes < req.body.length then none else req.value? := rfl

/-- A request that an endpoint for formatting lets through to its body. -/
structure Request.Submits (settings : Settings) (visits : Visits) (req : Request) (e : Endpoint) : Prop where
  formats : (e, req.target.path) ∈ formattingPaths
  method : req.method = txt "POST"
  within : visits.admits req.address e = true
  token : e = .tokenFormat → req.header? (txt "Authorization") = some (txt "Bearer " ++ settings.apiToken)
  isJson : req.isJson = true

/-- How an endpoint brings a value into the form of a submission. -/
def Endpoint.shape : Endpoint → Json → Option Json
  | .tokenFormat => Submission.ofTokenObject?
  | _ => some

theorem Submission.ofTokenObject?_eq_none_iff (v : Json) : ofTokenObject? v = none ↔ v.isObject = false := by
  cases v <;> simp [ofTokenObject?, Json.isObject]

/-- What becomes of a request that comes to the body: the body sets the task, unless the endpoint cannot look into it. -/
theorem Request.Submits.task_eq (h : req.Submits settings visits e) :
    Task.ofEndpoint settings e req = match req.json?.bind e.shape with
      | none => .reply Fault.internal.response
      | some data => .ofObject data := by
  have hend := h.formats
  simp only [formattingPaths, List.mem_cons, Prod.mk.injEq, List.not_mem_nil, or_false] at hend
  rcases hend with ⟨rfl, -⟩ | ⟨rfl, -⟩
  · rw [Task.ofEndpoint, Task.ofBody, h.isJson]
    rfl
  · rw [Task.ofEndpoint, if_pos ((req.bears_iff _).2 (h.token rfl)), Task.ofBody, h.isJson]
    rfl

/-- The answer to a request that an endpoint for formatting does not let through to its body. -/
theorem Task.ofEndpoint_of_not_submits (hend : (e, req.target.path) ∈ formattingPaths) (hmethod : req.method = txt "POST")
    (hwithin : visits.admits req.address e = true) (h : ¬ req.Submits settings visits e) :
    Task.ofEndpoint settings e req = .reply Fault.notJson.response ∨
      Task.ofEndpoint settings e req = .reply Fault.unauthorized.response := by
  have hbody : ∀ shape, req.isJson = false → Task.ofBody shape req = .reply Fault.notJson.response := by
    intro shape hjson
    rw [Task.ofBody, hjson]
    rfl
  have hcases := hend
  simp only [formattingPaths, List.mem_cons, Prod.mk.injEq, List.not_mem_nil, or_false] at hcases
  rcases hcases with ⟨rfl, -⟩ | ⟨rfl, -⟩
  · have hjson : req.isJson = false := Bool.eq_false_iff.2 (fun hj =>
      h ⟨hend, hmethod, hwithin, (fun htoken => by cases htoken), hj⟩)
    exact Or.inl (hbody some hjson)
  · rw [Task.ofEndpoint]
    by_cases hbears : req.bears settings.apiToken = true
    · have hjson : req.isJson = false := Bool.eq_false_iff.2 (fun hj =>
        h ⟨hend, hmethod, hwithin, fun _ => (req.bears_iff _).1 hbears, hj⟩)
      rw [if_pos hbears]
      exact Or.inl (hbody _ hjson)
    · rw [if_neg hbears]
      exact Or.inr rfl

/-- An object is answered well or is refused, as long as the formatter works. -/
theorem Task.status_ofObject (data : Json) : ((Task.ofObject data).perform .working).status ∈ [200, 400] := by
  rw [Task.ofObject]
  cases Submission.read data with
  | error e => exact List.mem_of_elem_eq_true rfl
  | ok s =>
    simp only [Task.perform]
    by_cases haccepts : acceptsText s.text = true
    · obtain ⟨f, -, hrun⟩ := Worker.run_working haccepts
      rw [hrun]
      exact List.mem_of_elem_eq_true rfl
    · rw [Worker.run, if_pos (by simpa using haccepts)]
      exact List.mem_of_elem_eq_true rfl

/-! ## Every request -/

/-- The faults of a client that are answered as if the service were at fault. -/
inductive Request.Misread (settings : Settings) (visits : Visits) (req : Request) : Prop
  | method (e : Endpoint) (path : Endpoint.ofPath req.target.path = some e) (options : req.method ≠ txt "OPTIONS")
      (taken : req.method ∉ e.methods)
  | tooLarge (e : Endpoint) (submits : req.Submits settings visits e) (size : maxBytes < req.body.length)
  | malformed (e : Endpoint) (submits : req.Submits settings visits e) (value : req.value? = none)
  | notAnObject (submits : req.Submits settings visits .tokenFormat) (v : Json) (value : req.value? = some v)
      (object : v.isObject = false)

theorem Request.Submits.path (h : req.Submits settings visits e) : Endpoint.ofPath req.target.path = some e :=
  ((formattingPaths_spec h.formats).1 _).2 rfl

theorem Request.Submits.unread_iff (h : req.Submits settings visits e) :
    req.json?.bind e.shape = none ↔ maxBytes < req.body.length ∨ req.value? = none ∨
      e = .tokenFormat ∧ ∃ v, req.value? = some v ∧ v.isObject = false := by
  rw [req.json?_eq]
  by_cases hsize : maxBytes < req.body.length
  · simp [hsize]
  rw [if_neg hsize]
  cases hvalue : req.value? with
  | none => simp
  | some v =>
    have hend := h.formats
    simp only [formattingPaths, List.mem_cons, Prod.mk.injEq, List.not_mem_nil, or_false] at hend
    rcases hend with ⟨rfl, -⟩ | ⟨rfl, -⟩
    · simp [hsize, Endpoint.shape]
    · simp [hsize, Endpoint.shape, Submission.ofTokenObject?_eq_none_iff]

/-- Where the endpoint takes the method, only its body can be misread. -/
theorem Request.misread_iff (hpath : Endpoint.ofPath req.target.path = some e) (hmethod : req.method ∈ e.methods) :
    req.Misread settings visits ↔ req.Submits settings visits e ∧ req.json?.bind e.shape = none := by
  have hsame : ∀ {e'}, req.Submits settings visits e' → e' = e := fun h => Option.some.inj (h.path.symm.trans hpath)
  constructor
  · rintro (⟨e', hpath', -, htaken⟩ | ⟨e', hs, hsize⟩ | ⟨e', hs, hvalue⟩ | ⟨hs, v, hvalue, hv⟩)
    · obtain rfl := Option.some.inj (hpath'.symm.trans hpath)
      exact absurd hmethod htaken
    · obtain rfl := hsame hs
      exact ⟨hs, hs.unread_iff.2 (Or.inl hsize)⟩
    · obtain rfl := hsame hs
      exact ⟨hs, hs.unread_iff.2 (Or.inr (Or.inl hvalue))⟩
    · obtain rfl := hsame hs
      exact ⟨hs, hs.unread_iff.2 (Or.inr (Or.inr ⟨rfl, v, hvalue, hv⟩))⟩
  · rintro ⟨hs, hnone⟩
    rcases hs.unread_iff.1 hnone with hsize | hvalue | ⟨rfl, v, hvalue, hv⟩
    · exact .tooLarge e hs hsize
    · exact .malformed e hs hvalue
    · exact .notAnObject hs v hvalue hv

/-- The statuses of answers that do not say that the service is at fault. -/
def clientStatuses : List Nat := [200, 302, 400, 401, 404, 429]

/-- An answer that says that the service is at fault exactly if the request is `misread`. -/
def Response.Judges (misread : Prop) (r : Response) : Prop :=
  misread ∧ r = Fault.internal.response ∨ ¬ misread ∧ r.status ∈ clientStatuses

/-- The answer of an endpoint that formats. -/
theorem judges_formatting (hend : (e, req.target.path) ∈ formattingPaths) (hmethod : req.method ∈ e.methods)
    (hwithin : visits.admits req.address e = true) :
    ((Task.ofEndpoint settings e req).perform .working).Judges (req.Misread settings visits) := by
  obtain ⟨hpath, hmethods, -⟩ := formattingPaths_spec hend
  rw [Response.Judges, Request.misread_iff ((hpath _).2 rfl) hmethod]
  by_cases hs : req.Submits settings visits e
  · rw [hs.task_eq]
    cases hdata : req.json?.bind e.shape with
    | none => exact Or.inl ⟨⟨hs, rfl⟩, rfl⟩
    | some data =>
      have hstatus : ∀ n ∈ [200, 400], n ∈ clientStatuses := by decide
      exact Or.inr ⟨fun h => (by cases h.2), hstatus _ (Task.status_ofObject data)⟩
  · have hpost : req.method = txt "POST" := List.mem_singleton.1 (hmethods ▸ hmethod)
    refine Or.inr ⟨fun h => hs h.1, ?_⟩
    rcases Task.ofEndpoint_of_not_submits hend hpost hwithin hs with htask | htask <;> rw [htask] <;> decide

/-- The answer of an endpoint to a request that came through the quotas. -/
theorem judges_endpoint (hpath : Endpoint.ofPath req.target.path = some e) (hmethod : req.method ∈ e.methods)
    (hwithin : visits.admits req.address e = true) :
    ((Task.ofEndpoint settings e req).perform .working).Judges (req.Misread settings visits) := by
  have hmember : ∀ {path}, (e, path) ∈ formattingPaths → (e, req.target.path) ∈ formattingPaths := fun h => by
    rwa [((formattingPaths_spec h).1 _).1 hpath]
  have hother : ¬ (e, req.target.path) ∈ formattingPaths → ¬ req.Misread settings visits := fun h hm =>
    h ((Request.misread_iff hpath hmethod).1 hm).1.formats
  cases e with
  | quickFormat => exact judges_formatting (@hmember (txt "/api/format_ajax") (by decide)) hmethod hwithin
  | tokenFormat => exact judges_formatting (@hmember (txt "/api/format") (by decide)) hmethod hwithin
  -- The endpoints that are left look at the method at most.
  | page =>
    refine Or.inr ⟨hother (by simp [formattingPaths]), ?_⟩
    rw [Task.ofEndpoint]
    split <;> exact List.mem_of_elem_eq_true rfl
  | health => exact Or.inr ⟨hother (by simp [formattingPaths]), List.mem_of_elem_eq_true rfl⟩
  | asset => exact Or.inr ⟨hother (by simp [formattingPaths]), List.mem_of_elem_eq_true rfl⟩

theorem Request.route_of_secure (hsecure : (settings.debug || req.isSecure) = true) :
    req.route settings = match Endpoint.ofPath req.target.path with
      | none => .error Fault.notFound.response
      | some e =>
        if req.method = txt "OPTIONS" then .error ⟨200, .html [], none⟩
        else if e.methods.contains req.method then .ok e
        else .error Fault.internal.response := by
  exact if_neg (by simpa [or_iff_not_imp_left] using hsecure)

/-- Where the endpoint does not take the method, all is misread but the question for the methods. -/
theorem Request.misread_iff_of_not_taken (hpath : Endpoint.ofPath req.target.path = some e) (hmethod : req.method ∉ e.methods) :
    req.Misread settings visits ↔ req.method ≠ txt "OPTIONS" := by
  have hsubmits : ∀ {e'}, ¬ req.Submits settings visits e' := fun h => by
    obtain rfl := Option.some.inj (h.path.symm.trans hpath)
    rw [(formattingPaths_spec h.formats).2.1, h.method] at hmethod
    exact hmethod List.mem_cons_self
  constructor
  · rintro (⟨e', -, hoptions, -⟩ | ⟨e', hs, -⟩ | ⟨e', hs, -⟩ | ⟨hs, -⟩)
    · exact hoptions
    all_goals exact absurd hs hsubmits
  · exact fun hoptions => .method e hpath hoptions hmethod

/-- The answer to a request that is not sent to the secure address. -/
theorem judges_request (hsecure : (settings.debug || req.isSecure) = true) :
    ((req.task settings visits).perform .working).Judges (req.Misread settings visits) := by
  rw [Request.task, Request.entry, Request.route_of_secure hsecure]
  cases hpath : Endpoint.ofPath req.target.path with
  | none =>
    refine Or.inr ⟨?_, List.mem_of_elem_eq_true rfl⟩
    rintro (⟨e, hknown, -⟩ | ⟨e, hs, -⟩ | ⟨e, hs, -⟩ | ⟨hs, -⟩)
    · cases hpath.symm.trans hknown
    all_goals cases hpath.symm.trans hs.path
  | some e =>
    by_cases hmethod : req.method ∈ e.methods
    · have hoptions : req.method ≠ txt "OPTIONS" := fun h => e.options_not_mem (h ▸ hmethod)
      simp only [if_neg hoptions, List.contains_iff_mem.2 hmethod, if_true]
      by_cases hwithin : visits.admits req.address e = true
      · simp only [hwithin, if_true]
        exact judges_endpoint hpath hmethod hwithin
      · simp only [hwithin]
        refine Or.inr ⟨fun hm => hwithin ?_, List.mem_of_elem_eq_true rfl⟩
        exact ((Request.misread_iff hpath hmethod).1 hm).1.within
    · rw [Response.Judges, Request.misread_iff_of_not_taken hpath hmethod]
      by_cases hoptions : req.method = txt "OPTIONS"
      · simp only [hoptions, if_true]
        exact Or.inr ⟨by simp, List.mem_of_elem_eq_true rfl⟩
      · simp only [if_neg hoptions, List.contains_iff_mem, hmethod, if_false]
        exact Or.inl ⟨hoptions, rfl⟩

end EpFormat.Service
