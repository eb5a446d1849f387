import EpFormat.Proofs.Arguments
import EpFormat.Proofs.LineEnds
import EpFormat.Proofs.Visit
/-!
# Delivery — a result in a file of its own

A run may take its text from standard input or from a file, and write the result to a target.  Standard input comes with
its line ends unified, a file with those that it has.  So both ways lead to the same outcome, and to the same bytes unless
the line ends are to be preserved and there is a pair among them (`stdin_like_file_iff`).
-/
namespace EpFormat

/-! ## Line ends unified beforehand -/

/-- **Line ends that are unified beforehand are missed only where pairs are to be preserved.** -/
theorem finish_unify_iff (cfg : Config) (source laid : Text) : finish cfg (Eol.unify source) laid = finish cfg source laid ↔
    ¬ (cfg.eol = .preserve ∧ Text.contains ['\r', '\n'] source = true) := by
  by_cases he : cfg.eol = .preserve
  · have hlf : Eol.detect (Eol.unify source) = .lf := Eol.detect_of_not_mem (Eol.return_not_mem_unify source)
    simp only [finish, hlf, he, true_and]
    by_cases hc : Text.contains ['\r', '\n'] source = true
    · rw [Eol.detect, if_pos hc]
      refine iff_of_false (fun hsame => ?_) (not_not_intro hc)
      have hpair : '\r' ∈ Eol.widen (Eol.unify (endLine laid)) :=
        List.mem_flatMap.2 ⟨'\n', feed_mem_unify_endLine laid, by decide⟩
      rw [← show Eol.unify (endLine laid) = Eol.widen (Eol.unify (endLine laid)) from hsame] at hpair
      exact Eol.return_not_mem_unify _ hpair
    · rw [Eol.detect, if_neg hc]
      exact iff_of_true rfl hc
  · rw [finish_source he source (Eol.unify source)]
    exact iff_of_true rfl (fun h => he h.1)

namespace CommandLine

open Files (Path Workspace FileError)
open Utf8 (Bytes decode? encode)

/-! ## Both ways -/

/-- The options say how to format, and nothing else. -/
structure Options.OnlyFormat (o : Options) : Prop where
  paths : o.paths = []
  write : o.write = false
  check : o.check = false
  diff : o.diff = false
  stdin : o.stdin = false
  out : o.out = none
  selfTest : o.selfTest = false
  version : o.version = false

/-- What becomes of a result that is written to a target. -/
def delivered (files : Workspace) (target : Path) : Except WidthError Text → Outcome × Workspace
  | .error e => (.failed (.width e), files)
  | .ok t =>
    match files.write target (encode t) with
    | .error e => (.failed (.file e), files)
    | .ok left => (.returned 0, left)

section

variable (files : Workspace) (target : Path)

/-- How a delivery ends does not depend on what the result is, only on whether there is one. -/
theorem delivered_map (r : Except WidthError Text) (f g : Text → Text) :
    (delivered files target (r.map f)).1 = (delivered files target (r.map g)).1 := by
  cases r with
  | error e => rfl
  | ok t =>
    have hsame := files.write_bytes target (encode (f t)) (encode (g t))
    simp only [Except.map, delivered]
    cases hf : files.write target (encode (f t)) with
    | error e =>
      cases hg : files.write target (encode (g t)) with
      | error e' =>
        rw [hf, hg] at hsame
        cases hsame
        rfl
      | ok left => rw [hf, hg] at hsame; cases hsame
    | ok left =>
      cases hg : files.write target (encode (g t)) with
      | error e => rw [hf, hg] at hsame; cases hsame
      | ok left' => rfl

theorem delivered_returned {r : Except WidthError Text} (h : (delivered files target r).1 = .returned 0) :
    ∃ t, r = .ok t ∧ (delivered files target r).2.read target = .ok (encode t) := by
  cases r with
  | error e => cases h
  | ok t =>
    refine ⟨t, rfl, ?_⟩
    simp only [delivered] at h ⊢
    cases hwrite : files.write target (encode t) with
    | error e => rw [hwrite] at h; cases h
    | ok left => exact Workspace.read_of_write hwrite

theorem delivered_failed {r : Except WidthError Text} (h : (delivered files target r).1 ≠ .returned 0) :
    (delivered files target r).2 = files := by
  cases r with
  | error e => rfl
  | ok t =>
    simp only [delivered] at h ⊢
    cases hwrite : files.write target (encode t) with
    | error e => rfl
    | ok left => rw [hwrite] at h; exact absurd rfl h

theorem delivered_ok (t : Text) {left : Workspace} (h : files.write target [] = .ok left) :
    (delivered files target (.ok t)).1 = .returned 0 := by
  have hsame := files.write_bytes target (encode t) []
  simp only [delivered]
  cases hwrite : files.write target (encode t) with
  | error e => rw [hwrite, h] at hsame; cases hsame
  | ok left => rfl

end

theorem run_delivered (cfg : Config) (target : Path) (e : Event) (t : Text) (s : State) :
    let done := (do
      let new ← formatText cfg t
      writeFile target new
      report e
      return .returned 0 : Run Ending).run.run s
    done.2.files = (delivered s.files target (s.tidied cfg t)).2 ∧
      outcomeOf done.1 = (delivered s.files target (s.tidied cfg t)).1 := by
  intro done
  have hdone : done = _ := run_bind (formatText cfg t) _ s
  rw [run_formatText] at hdone
  cases hnew : s.tidied cfg t with
  | error e =>
    rw [hdone, hnew]
    exact ⟨rfl, rfl⟩
  | ok new =>
    rw [hnew] at hdone
    simp only at hdone
    rw [run_bind, run_writeFile] at hdone
    simp only at hdone
    rw [hdone]
    cases hwrite : s.files.write target (encode new) with
    | error e =>
      rw [delivered, hwrite]
      exact ⟨rfl, rfl⟩
    | ok left =>
      rw [delivered, hwrite]
      exact ⟨rfl, rfl⟩

section

variable (tidier : Perl.Tidier) (files : Workspace) {opts : List Text} {o : Options} (hopts : parse opts = .ok o)
  (hdash : ['-', '-'] ∉ opts) (ho : o.OnlyFormat) {out : Text} (hout : isPath out = true) (hne : out ≠ [])
  {content : Bytes} {text : Text} (hcontent : decode? content = some text)

include hopts hdash ho hout hne hcontent

theorem run_stdin_out :
    let left := run tidier files content (txt "--stdin" :: txt "-o" :: out :: opts)
    let result := ((laidWithin tidier o.config text).run {}).1.map (finish o.config (Eol.unify text))
    left.files = (delivered files (Path.ofText out) result).2 ∧
      left.outcome = (delivered files (Path.ofText out) result).1 := by
  intro left result
  obtain ⟨hfiles, houtcome⟩ := run_of_parse tidier files content _ (parse_stdin_out hopts hdash ho.paths hout)
  obtain ⟨c, path, rfl⟩ := List.exists_cons_of_ne_nil hne
  have hstdin : (o.stdin || true) = true := Bool.or_true _
  have hresult : result = ((formatWithin tidier o.config (Eol.unify text)).run {}).1 := by
    rw [run_formatWithin, @laidWithin_unify tidier o.config text (Eol.unify text) (Eol.unify_apply .lf text)]
  rw [houtcome, hfiles, hresult]
  simp only [runOptions, runOut, Options.over, ho.version, ho.selfTest, ho.out, ho.write, ho.check, ho.diff, hstdin,
    Option.none_or, Bool.or_self, Bool.false_eq_true, if_false, if_true]
  rw [run_bind, run_readStdin]
  simp only [Utf8.decodeStrict_of_decode? hcontent]
  exact run_delivered o.config _ _ _ _

theorem run_out {inp : Text} (hinp : isPath inp = true) (hfile : files.read (Path.ofText inp) = .ok content)
    (stdin : Bytes) :
    let left := run tidier files stdin (txt "-o" :: out :: (opts ++ [inp]))
    let result := ((laidWithin tidier o.config text).run {}).1.map (finish o.config text)
    left.files = (delivered files (Path.ofText out) result).2 ∧
      left.outcome = (delivered files (Path.ofText out) result).1 := by
  intro left result
  obtain ⟨hfiles, houtcome⟩ := run_of_parse tidier files stdin _
    (parse_out hopts hdash ho.paths hout (List.forall_mem_singleton.2 hinp))
  obtain ⟨c, path, rfl⟩ := List.exists_cons_of_ne_nil hne
  have hstdin : (o.stdin || false) = false := by rw [Bool.or_false, ho.stdin]
  have hresult : result = ((formatWithin tidier o.config text).run {}).1 := by rw [run_formatWithin]
  rw [houtcome, hfiles, hresult]
  simp only [runOptions, runOut, Options.over, ho.version, ho.selfTest, ho.out, ho.write, ho.check, ho.diff, hstdin,
    Option.none_or, Bool.or_self, Bool.false_eq_true, if_false]
  rw [run_bind, run_readFile, hfile]
  simp only [Utf8.decode_of_decode? hcontent]
  exact run_delivered o.config _ _ _ _

/-- **Standard input and a file lead to the same result**, but for the line ends: both runs end in the same way, and if
they end well the bytes at the target are the same exactly if no pair of carriage return and line feed is to be preserved.
With a usual width, and a target that can be written, they end well. -/
theorem stdin_like_file_iff {inp : Text} (hinp : isPath inp = true) (hfile : files.read (Path.ofText inp) = .ok content)
    (stdin : Bytes) :
    let fromStdin := run tidier files content (txt "--stdin" :: txt "-o" :: out :: opts)
    let fromFile := run tidier files stdin (txt "-o" :: out :: (opts ++ [inp]))
    fromStdin.outcome = fromFile.outcome ∧
      (fromStdin.outcome = .returned 0 → ∃ a b, fromStdin.files.read (Path.ofText out) = .ok a ∧
        fromFile.files.read (Path.ofText out) = .ok b ∧
        (a = b ↔ ¬ (o.eol = .preserve ∧ Text.contains ['\r', '\n'] text = true))) ∧
      (fromStdin.outcome ≠ .returned 0 → fromStdin.files = files ∧ fromFile.files = files) ∧
      (o.config.usualWidth = true → (∃ left, files.write (Path.ofText out) [] = .ok left) →
        fromStdin.outcome = .returned 0) := by
  intro fromStdin fromFile
  obtain ⟨hleft, hs⟩ := run_stdin_out tidier files hopts hdash ho hout hne hcontent
  obtain ⟨hleft', hf⟩ := run_out tidier files hopts hdash ho hout hne hcontent hinp hfile stdin
  change fromStdin.files = _ at hleft
  change fromFile.files = _ at hleft'
  have hsame : fromStdin.outcome = fromFile.outcome := by
    rw [hs, hf]
    exact delivered_map files _ _ _ _
  refine ⟨hsame, fun hreturned => ?_, fun hfailed => ⟨?_, ?_⟩, fun hw ⟨left, hwrite⟩ => ?_⟩
  · obtain ⟨a, ha, hread⟩ := delivered_returned files _ (hs.symm.trans hreturned)
    obtain ⟨b, hb, hread'⟩ := delivered_returned files _ (hf.symm.trans (hsame.symm.trans hreturned))
    refine ⟨encode a, encode b, by rw [hleft, hread], by rw [hleft', hread'], ?_⟩
    -- Both results are the same layout with the line ends written over it.
    cases hlaid : ((laidWithin tidier o.config text).run {}).1 with
    | error e => rw [hlaid] at ha; cases ha
    | ok laid =>
      rw [hlaid] at ha hb
      obtain rfl := Except.ok.inj ha
      obtain rfl := Except.ok.inj hb
      exact Utf8.encode_injective.eq_iff.trans (finish_unify_iff o.config text laid)
  · rw [hleft]
    exact delivered_failed files _ (hs ▸ hfailed)
  · rw [hleft']
    exact delivered_failed files _ (hf ▸ hsame ▸ hfailed)
  · have hresult := run_formatWithin tidier o.config text {}
    rw [formatWithin_usual hw] at hresult
    cases hlaid : ((laidWithin tidier o.config text).run {}).1 with
    | error e => rw [hlaid] at hresult; cases hresult
    | ok laid =>
      rw [hs, hlaid]
      exact delivered_ok files _ _ hwrite

end

/-- Line ends that are to be preserved, with a carriage return alone and no pair among them. -/
theorem stdin_like_file_iff_alone :
    let files : Workspace := ⟨[([txt "in.ep"], .file (encode (txt "<ul>\r<li>\n</ul>")))]⟩
    let opts := [txt "--eol", txt "preserve", txt "--indent", txt "4"]
    let fromStdin := run (.echo (some (txt "perltidy"))) files (encode (txt "<ul>\r<li>\n</ul>"))
      (txt "--stdin" :: txt "-o" :: txt "out.ep" :: opts)
    let fromFile := run (.echo (some (txt "perltidy"))) files [] (txt "-o" :: txt "out.ep" :: (opts ++ [txt "in.ep"]))
    ∃ a, fromStdin.files.read (Path.ofText (txt "out.ep")) = .ok a ∧
      fromFile.files.read (Path.ofText (txt "out.ep")) = .ok a := by
  intro files opts fromStdin fromFile
  obtain ⟨-, hreturned, -, husual⟩ := @stdin_like_file_iff (.echo (some (txt "perltidy"))) files opts
    { eol := .preserve, indent := some 4 } rfl (by decide) ⟨rfl, rfl, rfl, rfl, rfl, rfl, rfl, rfl⟩ (txt "out.ep")
    (by decide) (by decide) _ (txt "<ul>\r<li>\n</ul>") (Utf8.decode?_encode _) (txt "in.ep") (by decide) rfl []
  obtain ⟨a, b, ha, hb, hsame⟩ := hreturned (husual (by decide) ⟨_, rfl⟩)
  obtain rfl := hsame.2 (by decide)
  exact ⟨a, ha, hb⟩

/-- A pair that is to be preserved is kept from a file, and not from standard input. -/
theorem pair_lost_from_stdin :
    let files : Workspace := ⟨[([txt "in.ep"], .file (encode (txt "x\r\n")))]⟩
    let fromStdin := run .absent files (encode (txt "x\r\n"))
      [txt "--stdin", txt "-o", txt "a.ep", txt "--eol", txt "preserve"]
    let fromFile := run .absent files [] [txt "-o", txt "b.ep", txt "--eol", txt "preserve", txt "in.ep"]
    fromStdin.files.get? [txt "a.ep"] = some (.file (encode (txt "x\n"))) ∧
      fromFile.files.get? [txt "b.ep"] = some (.file (encode (txt "x\r\n"))) := by
  decide +kernel

end CommandLine
end EpFormat
