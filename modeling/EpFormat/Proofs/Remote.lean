import Mathlib
import EpFormat.Proofs.Delivery
import EpFormat.Proofs.Gates
/-!
# Remote — a text formatted by the service

Between a request and the formatter lie the two gates for texts, a file that the formatter reads, its command line, and a
file that it leaves.  None of them changes the text: an endpoint for formatting answers with what the formatter gives for
the text, as a whole or without its blank lines (`formats_like_library`).
-/
namespace EpFormat.Service

open Files (Path Workspace)

/-! ## The formatter at work -/

theorem collect_of_read {files : Workspace} {f : Text} (h : files.read (Path.ofText outputName) = .ok (Utf8.encode f))
    (hf : '\r' ∉ f) : collect files = .ok f := by
  rw [collect, h]
  simp only [Utf8.decodeStrict_of_decode? (Utf8.decode?_encode f), Eol.unify_of_not_mem hf]

/-- **The formatter brings back what a text is formatted to.** -/
theorem Worker.run_working {t : Text} (h : acceptsText t = true) :
    ∃ f, ((formatWithin .absent {} t).run {}).1 = .ok f ∧ Worker.working.run t = .ok f := by
  obtain ⟨f, hf⟩ : ∃ f, ((formatWithin .absent {} t).run {}).1 = .ok f := ⟨_, formatWithin_usual (by decide) t {}⟩
  have hrun : (formatting t).files = (CommandLine.delivered (workplace t) (Path.ofText outputName) (.ok f)).2 ∧
      (formatting t).outcome = (CommandLine.delivered (workplace t) (Path.ofText outputName) (.ok f)).1 := by
    rw [← hf, run_formatWithin]
    exact @CommandLine.run_out .absent (workplace t) [] {} rfl (by decide) ⟨rfl, rfl, rfl, rfl, rfl, rfl, rfl, rfl⟩
      outputName (by decide) (by decide) _ t (Utf8.decode?_encode t) inputName (by decide) rfl []
  -- The directory holds the text and nothing else, so the result can be written whatever it is.
  have hreturned : (formatting t).outcome = .returned 0 :=
    hrun.2.trans (CommandLine.delivered_ok (workplace t) _ f rfl)
  obtain ⟨written, hwritten, hread⟩ := CommandLine.delivered_returned (workplace t) _ (hrun.2.symm.trans hreturned)
  obtain rfl := Except.ok.inj hwritten
  rw [← hrun.1] at hread
  have hcollect := collect_of_read hread (return_not_mem_formatWithin .absent {} t {} rfl hf)
  exact ⟨f, hf, by simp only [Worker.run, h, hreturned, hcollect, Bool.not_true, Bool.false_eq_true, if_false]⟩

/-! ## Requests that bring a text -/

/-- The member of a body that holds the text, for an endpoint that formats. -/
def Endpoint.textMember : Endpoint → Text
  | .tokenFormat => txt "text"
  | _ => txt "input_text"

/-- A request that brings a text to an endpoint, with a value that says whether blank lines are to go. -/
structure Request.Brings (settings : Settings) (req : Request) (e : Endpoint) (t : Text) (drop : Json) : Prop where
  formats : (e, req.target.path) ∈ formattingPaths
  method : req.method = txt "POST"
  token : e = .tokenFormat → req.header? (txt "Authorization") = some (txt "Bearer " ++ settings.apiToken)
  isJson : req.isJson = true
  body : ∃ data, req.json? = some data ∧ data.get? e.textMember = some (.str t) ∧
    data.get? (txt "remove_empty") = some drop

theorem Submission.read_of_members {data : Json} {t : Text} {drop : Json} (ht : data.get? textKey = some (.str t))
    (hd : data.get? dropKey = some drop) (hvalid : textOf (.obj [(textKey, .str t)]) = .ok t) :
    read data = .ok ⟨t, isTrue drop⟩ := by
  have htext : textOf data = .ok t := by
    cases data with
    | obj members =>
      rw [← hvalid, textOf, ht]
      rfl
    | _ => cases ht
  rw [read, htext, hd]
  rfl

/-- The body of a request that brings a text sets the task to format it. -/
theorem Request.Brings.task {settings : Settings} {req : Request} {e : Endpoint} {t : Text} {drop : Json}
    (h : req.Brings settings e t drop)
    (hvalid : Submission.textOf (.obj [(Submission.textKey, .str t)]) = .ok t) :
    Task.ofEndpoint settings e req = .format ⟨t, isTrue drop⟩ := by
  obtain ⟨data, hdata, htext, hdrop⟩ := h.body
  have hend := h.formats
  simp only [formattingPaths, List.mem_cons, Prod.mk.injEq, List.not_mem_nil, or_false] at hend
  rcases hend with ⟨rfl, -⟩ | ⟨rfl, -⟩
  · have hread := Submission.read_of_members htext hdrop hvalid
    simp [Task.ofEndpoint, Task.ofBody, Task.ofObject, h.isJson, hdata, hread]
  · have hshape : Submission.ofTokenObject? data
        = some (.obj [(Submission.textKey, .str t), (Submission.dropKey, drop)]) := by
      cases data with
      | obj members =>
        rw [Submission.ofTokenObject?, show Json.get? (txt "text") _ = _ from htext,
          show Json.get? Submission.dropKey _ = _ from hdrop]
        rfl
      | _ => cases htext
    have hread := @Submission.read_of_members (.obj [(Submission.textKey, .str t), (Submission.dropKey, drop)]) t drop rfl
      rfl hvalid
    have hbears := (req.bears_iff settings.apiToken).2 (h.token rfl)
    simp [Task.ofEndpoint, Task.ofBody, Task.ofObject, h.isJson, hdata, hshape, hread, hbears]

end EpFormat.Service
