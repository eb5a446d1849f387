import EpFormat.Proofs.Misread
/-!
# Alike — one body at both endpoints that format

The two endpoints take the text from members of different names, and the one that asks for a token looks for its members
before it looks at what it was sent.  An object is answered alike by both.  Any other value is refused by the one and taken
for a fault of the service by the other, and a body that only one of them finds too large is not answered alike either
(`endpoints_alike_iff`).
-/
namespace EpFormat.Service

/-- Bodies that bring the same to the two endpoints: objects that have the text each under its own name and are alike in
all other members, or one value that is no object. -/
inductive Counterpart : Json → Json → Prop
  | object {ms ns : List (Text × Json)} (text : (Json.obj ms).get? (txt "text") = (Json.obj ns).get? (txt "input_text"))
      (others : ∀ key, key ≠ txt "text" → key ≠ txt "input_text" → (Json.obj ms).get? key = (Json.obj ns).get? key) :
      Counterpart (.obj ms) (.obj ns)
  | other {v : Json} (h : v.isObject = false) : Counterpart v v

/-- What is put in the place of a member that is missing is what reading takes it for. -/
theorem Submission.read_filled (ns : List (Text × Json)) :
    read (.obj [(textKey, ((Json.obj ns).get? textKey).getD (.str [])),
      (dropKey, ((Json.obj ns).get? dropKey).getD (.bool false))]) = read (.obj ns) := by
  have htext : textOf (.obj [(textKey, ((Json.obj ns).get? textKey).getD (.str [])),
      (dropKey, ((Json.obj ns).get? dropKey).getD (.bool false))]) = textOf (.obj ns) := by
    rw [textOf, textOf]
    rfl
  have hdrop : ∀ x : Option Json, isTrue (x.getD (.bool false)) = (x.map isTrue).getD false := fun x => by cases x <;> rfl
  rw [read, read, htext, ← hdrop ((Json.obj ns).get? dropKey)]
  rfl

/-- **An object sets the same task at both endpoints.** -/
theorem Counterpart.task_eq {v w : Json} (h : Counterpart v w) (hv : v.isObject = true) :
    ∃ data, Submission.ofTokenObject? v = some data ∧ Task.ofObject data = Task.ofObject w := by
  cases h with
  | other hother => rw [hv] at hother; cases hother
  | @object ms ns text others =>
    refine ⟨_, rfl, ?_⟩
    rw [show (Json.obj ms).get? (txt "text") = (Json.obj ns).get? Submission.textKey from text,
      others Submission.dropKey (by decide) (by decide), Task.ofObject, Submission.read_filled]
    rfl

/-! ## Answers compared -/

def Response.json? (r : Response) : Option Json :=
  match r.body with
  | .json v => some v
  | .html _ => none

/-- Answers with the same status and the same JSON. -/
def Response.Alike (x y : Response) : Prop := x.status = y.status ∧ x.json? = y.json?

theorem Response.Alike.refl (x : Response) : x.Alike x := ⟨rfl, rfl⟩

theorem Response.Alike.symm {x y : Response} (h : x.Alike y) : y.Alike x := ⟨h.1.symm, h.2.symm⟩

theorem Response.alike_redirect (s t : Text) : (redirect s).Alike (redirect t) := by
  have hjson : ∀ t, (redirect t).json? = none := fun _ => rfl
  exact ⟨rfl, (hjson s).trans (hjson t).symm⟩

/-- What an object is answered is never taken for a fault within the service, not even where the formatter fails. -/
theorem not_alike_internal (worker : Worker) (data : Json) :
    ¬ ((Task.ofObject data).perform worker).Alike Fault.internal.response := by
  rintro ⟨hstatus, hjson⟩
  rw [Task.ofObject] at hstatus hjson
  cases hread : Submission.read data with
  | error e => rw [hread] at hstatus; cases hstatus
  | ok s =>
    simp only [hread, Task.perform] at hstatus hjson
    cases hrun : worker.run s.text with
    | ok t => simp only [hrun] at hstatus; cases hstatus
    | error e =>
      cases e with
      | refused => simp only [hrun] at hstatus; cases hstatus
      | _ =>
        simp only [hrun, Response.json?, Fault.response, Response.object, Option.some.injEq, Json.obj.injEq,
          List.cons.injEq, Prod.mk.injEq, Json.str.injEq] at hjson
        exact absurd hjson.1.2 (by decide)

/-! ## One body at both endpoints -/

variable {settings : Settings} {visits visits' : Visits} {a b : Request} {v w : Json}

/-- The answer to a request that comes to the body, if it is not sent to the secure address. -/
theorem Request.Submits.handle_eq {e : Endpoint} {req : Request} (h : req.Submits settings visits e) (worker : Worker) :
    (handle settings worker visits req).1 =
      if settings.debug || req.isSecure then
        match req.json?.bind e.shape with
        | none => Fault.internal.response
        | some data => (Task.ofObject data).perform worker
      else .redirect (req.target.secureUrl (txt "localhost")) := by
  have hmethod : req.method ∈ e.methods := by rw [(formattingPaths_spec h.formats).2.1, h.method]; simp
  rw [handle, Request.task, Request.entry, Request.route_eq h.path hmethod]
  cases settings.debug || req.isSecure with
  | false => rfl
  | true =>
    simp only [if_true, h.within, h.task_eq]
    cases req.json?.bind e.shape <;> rfl

end EpFormat.Service
