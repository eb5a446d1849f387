import EpFormat.Proofs.Arguments
import EpFormat.Proofs.Visit
/-!
# InPlace — a run over distinct files

Each file of a run that writes in place has two places that the run may write to, its own and that of its backup.  Those
of different templates are four different places, so what becomes of one file does not depend on the others: `Leaves`
says what a run leaves in terms of the files it found, and no order of the paths comes into it.
-/
namespace EpFormat
namespace CommandLine

open Files (Path Workspace IsTemplate backupOf backupOf_injective)
open Utf8 (Bytes decode encode decode?)

/-! ## What is due -/

/-- The file of a path has to be rewritten: its place, its bytes, and that formatting changes its text. -/
structure Due (f : Text → Text) (w : Workspace) (p : Path) (loc : Files.Place) (b : Bytes) : Prop where
  read : w.read p = .ok b
  located : w.locate p = .ok loc
  differs : f (decode b) ≠ decode b

/-- The file of a path fails: it cannot be read, or it has to be rewritten and its backup cannot be written. -/
def Fails (f : Text → Text) (w : Workspace) (p : Path) : Prop :=
  (∀ b, w.read p ≠ .ok b) ∨ ∃ loc b, Due f w p loc b ∧ ¬ w.Backable loc

/-- Two paths do not lead to one place. -/
def Apart (w : Workspace) (p q : Path) : Prop := ∀ loc, w.locate p = .ok loc → w.locate q ≠ .ok loc

theorem Apart.symm {w : Workspace} {p q : Path} (h : Apart w p q) : Apart w q p := fun loc hq hp => h loc hp hq

section

variable {f : Text → Text} {w w' : Workspace} {p : Path} {loc : Files.Place} {b : Bytes}

theorem Due.was (h : Due f w p loc b) : w.get? loc = some (.file b) := by
  obtain ⟨-, loc', hloc', hget⟩ := Workspace.read_eq_ok_iff.1 h.read
  obtain rfl : loc' = loc := Except.ok.inj (hloc'.symm.trans h.located)
  exact hget

theorem Due.unique (h : Due f w p loc b) {loc' : Files.Place} {b' : Bytes} (h' : Due f w p loc' b') : loc' = loc ∧ b' = b :=
  ⟨Except.ok.inj (h'.located.symm.trans h.located), Except.ok.inj (h'.read.symm.trans h.read)⟩

/-- **All that can become of a file in place.** -/
theorem visits_inPlace {r : Option Bool} (h : Visits true (fun t => .ok (f t)) w p r w') :
    (w' = w ∧ (∀ loc b, Due f w p loc b → ¬ w.Backable loc) ∧ (r = none ↔ Fails f w p))
      ∨ ∃ loc b, Due f w p loc b ∧ w.Backable loc ∧ Overwrites w loc b (f (decode b)) w' ∧ r ≠ none ∧ ¬ Fails f w p := by
  cases h with
  | unread h => exact Or.inl ⟨rfl, fun loc b hd => absurd hd.read (h b), iff_of_true rfl (Or.inl h)⟩
  | unformatted b e _ hf => cases hf
  | unchanged b hread hf =>
    have hnot : ∀ loc b, ¬ Due f w p loc b := by
      intro loc b' hd
      obtain rfl : b' = b := Except.ok.inj (hd.read.symm.trans hread)
      exact hd.differs (Except.ok.inj hf)
    refine Or.inl ⟨rfl, fun loc b hd => absurd hd (hnot loc b), ⟨fun h => (by cases h), ?_⟩⟩
    rintro (h | ⟨loc, b, hd, -⟩)
    · exact absurd hread (h b)
    · exact absurd hd (hnot loc b)
  | shown _ _ _ _ _ hw => cases hw
  | refused b new loc hread hf hne _ hloc hback =>
    obtain rfl := Except.ok.inj hf
    have hdue : Due f w p loc b := ⟨hread, hloc, Ne.symm hne⟩
    refine Or.inl ⟨rfl, fun loc' b' hd => ?_, iff_of_true rfl (Or.inr ⟨loc, b, hdue, hback⟩)⟩
    rw [(hdue.unique hd).1]
    exact hback
  | overwritten b new loc _ hread hf _ hloc h =>
    obtain rfl := Except.ok.inj hf
    have hdue : Due f w p loc b := ⟨hread, hloc, Ne.symm h.differs⟩
    refine Or.inr ⟨loc, b, hdue, h.backable, h, by simp, ?_⟩
    rintro (hno | ⟨loc', b', hd, hback⟩)
    · exact hno b hread
    · rw [(hdue.unique hd).1] at hback
      exact hback h.backable

end

/-! ## Other files -/

section

variable {f : Text → Text} {w w' : Workspace} (hfolders : w.SameFolders w') {q : Path}
  (hq : ∀ loc, w.locate q = .ok loc → w'.get? loc = w.get? loc)

include hfolders hq

theorem read_iff (b : Bytes) : w'.read q = .ok b ↔ w.read q = .ok b := by
  rw [Workspace.read_eq_ok_iff, Workspace.read_eq_ok_iff]
  refine and_congr_right (fun _ => exists_congr (fun loc => ?_))
  rw [← hfolders.locate_iff]
  refine and_congr_right (fun hloc => ?_)
  rw [hq loc hloc]

theorem due_iff (loc : Files.Place) (b : Bytes) : Due f w' q loc b ↔ Due f w q loc b := by
  constructor
  · intro h
    exact ⟨(read_iff hfolders hq b).1 h.read, hfolders.locate_iff.2 h.located, h.differs⟩
  · intro h
    exact ⟨(read_iff hfolders hq b).2 h.read, hfolders.locate_iff.1 h.located, h.differs⟩

theorem fails_iff : Fails f w' q ↔ Fails f w q := by
  unfold Fails
  simp only [ne_eq, read_iff hfolders hq, due_iff hfolders hq, ← hfolders.backable_iff]

end

/-! ## The whole run -/

/-- What a run in place over paths leaves of a workspace. -/
structure Leaves (f : Text → Text) (w : Workspace) (ps : List Path) (w' : Workspace) : Prop where
  rewritten : ∀ p ∈ ps, ∀ loc b, Due f w p loc b → w.Backable loc →
    w'.get? loc = some (.file (encode (f (decode b)))) ∧ w'.get? (backupOf loc) = some (.file (encode (decode b)))
  same : ∀ x, (∀ p ∈ ps, ∀ loc b, Due f w p loc b → w.Backable loc → x ≠ loc ∧ x ≠ backupOf loc) → w'.get? x = w.get? x

/-- **What is left does not depend on the order of the paths.** -/
theorem Leaves.unique {f : Text → Text} {w w₁ w₂ : Workspace} {ps qs : List Path} (h₁ : Leaves f w ps w₁)
    (h₂ : Leaves f w qs w₂) (hmem : ∀ p, p ∈ ps ↔ p ∈ qs) (x : Files.Place) : w₁.get? x = w₂.get? x := by
  by_cases hx : ∃ p ∈ ps, ∃ loc b, Due f w p loc b ∧ w.Backable loc ∧ (x = loc ∨ x = backupOf loc)
  · obtain ⟨p, hp, loc, b, hdue, hback, hx⟩ := hx
    have hleft := h₁.rewritten p hp loc b hdue hback
    have hright := h₂.rewritten p ((hmem p).1 hp) loc b hdue hback
    rcases hx with rfl | rfl
    · rw [hleft.1, hright.1]
    · rw [hleft.2, hright.2]
  · have hout : ∀ p ∈ ps, ∀ loc b, Due f w p loc b → w.Backable loc → x ≠ loc ∧ x ≠ backupOf loc := by
      intro p hp loc b hdue hback
      rw [← not_or]
      exact fun h => hx ⟨p, hp, loc, b, hdue, hback, h⟩
    rw [h₁.same x hout, h₂.same x (fun p hp => hout p ((hmem p).2 hp))]

section

variable {f : Text → Text} {w w₁ w' : Workspace} {p : Path} {ps : List Path}

/-- A template whose backup cannot be written stays. -/
theorem Leaves.refused (h : Leaves f w ps w') {loc : Files.Place} {b : Bytes} (hdue : Due f w p loc b)
    (hloc : IsTemplate loc) (hback : ¬ w.Backable loc) : w'.get? loc = some (.file b) := by
  rw [h.same loc, hdue.was]
  intro q _ loc' b' _ hback'
  refine ⟨?_, hloc.ne_backupOf⟩
  rintro rfl
  exact hback hback'

/-- A file that is not rewritten leaves the rest of the run as it is. -/
theorem Leaves.cons_same (hp : ∀ loc b, Due f w p loc b → ¬ w.Backable loc) (h : Leaves f w ps w') :
    Leaves f w (p :: ps) w' := by
  constructor
  · intro q hq loc b hdue hback
    rcases List.mem_cons.1 hq with rfl | hq
    · exact absurd hback (hp loc b hdue)
    · exact h.rewritten q hq loc b hdue hback
  · intro x hx
    exact h.same x (fun q hq => hx q (List.mem_cons_of_mem p hq))

section

variable {loc : Files.Place} {b : Bytes} (hover : Overwrites w loc b (f (decode b)) w₁) (hp : w.locate p = .ok loc)
  {q : Path} (hapart : Apart w p q) (hq : q.hasExtension templateExtensions = true)

include hover hp hapart hq

/-- The file of another path is as it was when a file is overwritten. -/
theorem Overwrites.apart (x : Files.Place) (hx : w.locate q = .ok x) : w₁.get? x = w.get? x := by
  rw [hover.get?_template (Workspace.isTemplate_of_locate hq hx), if_neg]
  rintro rfl
  exact hapart x hp hx

end

/-- **A file that is rewritten shares neither its place nor that of its backup with the rest of the run.** -/
theorem Leaves.cons_rewritten {loc : Files.Place} {b : Bytes} (hdue : Due f w p loc b)
    (hover : Overwrites w loc b (f (decode b)) w₁) (hapart : ∀ q ∈ ps, Apart w p q)
    (htemplate : ∀ q ∈ ps, q.hasExtension templateExtensions = true) (h : Leaves f w₁ ps w') :
    Leaves f w (p :: ps) w' := by
  have hsame : ∀ q ∈ ps, ∀ x b', Due f w₁ q x b' ↔ Due f w q x b' := fun q hq =>
    due_iff hover.sameFolders (hover.apart hdue.located (hapart q hq) (htemplate q hq))
  have hother : ∀ q ∈ ps, ∀ x b', Due f w₁ q x b' → IsTemplate x ∧ loc ≠ x := by
    intro q hq x b' hd
    have hx := ((hsame q hq x b').1 hd).located
    refine ⟨Workspace.isTemplate_of_locate (htemplate q hq) hx, ?_⟩
    rintro rfl
    exact hapart q hq loc hdue.located hx
  constructor
  · intro q hq x b' hd hback
    rcases List.mem_cons.1 hq with rfl | hq
    · obtain ⟨rfl, rfl⟩ := hdue.unique hd
      constructor
      · rw [h.same x (fun q hq y c hy _ => ⟨(hother q hq y c hy).2, hover.template.ne_backupOf⟩),
          hover.get?_template hover.template, if_pos rfl]
      · rw [h.same (backupOf x), hover.get?_backup]
        intro q hq y c hy _
        obtain ⟨hy, hne⟩ := hother q hq y c hy
        exact ⟨fun heq => hy.ne_backupOf heq.symm, fun heq => hne (backupOf_injective hover.template hy heq)⟩
    · exact h.rewritten q hq x b' ((hsame q hq x b').2 hd) ((hover.sameFolders.backable_iff x).1 hback)
  · intro x hx
    obtain ⟨hloc, hback⟩ := hx p List.mem_cons_self loc b hdue hover.backable
    rw [h.same x, hover.get?, if_neg hloc, if_neg hback]
    intro q hq y c hy hbackable
    exact hx q (List.mem_cons_of_mem p hq) y c ((hsame q hq y c).1 hy) ((hover.sameFolders.backable_iff y).2 hbackable)

end

/-- **What a run in place leaves, and whether anything failed.** -/
theorem visitAll_leaves {o : Options} (hw : o.write = true) (ho : o.config = {}) : ∀ (ps : List Path) (tally : Tally) (s : State),
    s.tidier.Functional → (∀ p ∈ ps, p.hasExtension templateExtensions = true) → ps.Pairwise (Apart s.files) →
      Leaves (formatted s.tidier) s.files ps (visitAll o (tally, s) ps).2.files
        ∧ ((visitAll o (tally, s) ps).1.failed = true
            ↔ tally.failed = true ∨ ∃ p ∈ ps, Fails (formatted s.tidier) s.files p)
  | [], tally, s, _, _, _ => ⟨⟨by simp, fun _ _ => rfl⟩, by simp [visitAll]⟩
  | p :: ps, tally, s, hfun, htemplate, hapart => by
    obtain ⟨hp, hps⟩ := List.forall_mem_cons.1 htemplate
    obtain ⟨hfirst, hrest⟩ := List.pairwise_cons.1 hapart
    obtain ⟨htidier, hvisits⟩ := visit_spec hp o s
    rw [hw, State.formatter_eq ho hfun] at hvisits
    have ih := visitAll_leaves hw ho ps (tally.add (s.visit o p).1) (s.visit o p).2 (by rwa [htidier]) hps
    rw [htidier] at ih
    rw [show visitAll o (tally, s) (p :: ps) = visitAll o (tally.add (s.visit o p).1, (s.visit o p).2) ps from rfl]
    rcases visits_inPlace hvisits with ⟨hsame, hnot, hfails⟩ | ⟨loc, b, hdue, hback, hover, hok, hfails⟩
    · rw [hsame] at ih
      obtain ⟨hleaves, hfailed⟩ := ih hrest
      refine ⟨hleaves.cons_same hnot, ?_⟩
      rw [hfailed, Tally.failed_add, hfails, or_assoc, List.exists_mem_cons_iff]
    · have hfolders := hover.sameFolders
      have hrest' : ps.Pairwise (Apart (s.visit o p).2.files) := hrest.imp (fun {q q'} h loc hq hq' =>
        h loc (hfolders.locate_iff.2 hq) (hfolders.locate_iff.2 hq'))
      obtain ⟨hleaves, hfailed⟩ := ih hrest'
      refine ⟨hleaves.cons_rewritten hdue hover hfirst hps, ?_⟩
      have hothers : (∃ q ∈ ps, Fails (formatted s.tidier) (s.visit o p).2.files q)
          ↔ ∃ q ∈ ps, Fails (formatted s.tidier) s.files q :=
        exists_congr (fun q => and_congr_right (fun hq =>
          fails_iff hfolders (hover.apart hdue.located (hfirst q hq) (hps q hq))))
      rw [hfailed, Tally.failed_add, hothers, List.exists_mem_cons_iff]
      simp [hok, hfails]

theorem filesOf_file {w : Workspace} {p : Path} (hp : p.hasExtension templateExtensions = true)
    (h : w.isDirectory p = .ok false) : w.filesOf templateExtensions p = .ok [p] := by
  unfold Workspace.filesOf
  rw [h]
  simp [hp]

theorem processPaths_files (o : Options) : ∀ (paths : List Text) (tally : Tally) (s : State),
    (∀ t ∈ paths, (Path.ofText t).hasExtension templateExtensions = true) →
    (∀ t ∈ paths, s.files.isDirectory (Path.ofText t) = .ok false) →
      (processPaths o tally paths).run.run s = (.ok (visitAll o (tally, s) (paths.map Path.ofText)).1,
        (visitAll o (tally, s) (paths.map Path.ofText)).2)
  | [], _, _, _, _ => rfl
  | t :: rest, tally, s, hname, hfile => by
    obtain ⟨ht, hrest⟩ := List.forall_mem_cons.1 hname
    obtain ⟨hdir, hdirs⟩ := List.forall_mem_cons.1 hfile
    have hfolders := (visit_spec ht o s).2.step.sameFolders
    rw [run_processPaths, show o.config.extensions = templateExtensions from rfl, filesOf_file ht hdir]
    exact processPaths_files o rest _ _ hrest (fun u hu => (hfolders.isDirectory_eq _).symm.trans (hdirs u hu))

theorem returned_one_iff {paths : List Text} {failed : Bool} {outcome : Outcome} (hnil : paths = [] → failed = false)
    (h : outcome = if paths = [] then .exited 2 else .returned (if failed then 1 else 0)) :
    (outcome = .returned 1 ↔ failed = true)
      ∧ (outcome ≠ .returned 1 → outcome = if paths = [] then .exited 2 else .returned 0) := by
  rw [h]
  by_cases hpaths : paths = []
  · simp [hpaths, hnil hpaths]
  · cases failed <;> simp [hpaths]

section

variable {tidier : Perl.Tidier} (hfun : tidier.Functional) (files : Workspace) (stdin : Bytes)

include hfun

/-- What the command line for writing paths in place leaves, and how it ends. -/
theorem run_leaves {paths : List Text} (hword : ∀ t ∈ paths, isPath t = true)
    (hname : ∀ t ∈ paths, (Path.ofText t).hasExtension templateExtensions = true)
    (hfile : ∀ t ∈ paths, files.isDirectory (Path.ofText t) = .ok false)
    (hapart : (paths.map Path.ofText).Pairwise (Apart files)) :
    let left := run tidier files stdin (txt "-w" :: paths)
    Leaves (formatted tidier) files (paths.map Path.ofText) left.files
      ∧ ∃ failed : Bool, (failed = true ↔ ∃ t ∈ paths, Fails (formatted tidier) files (Path.ofText t))
        ∧ left.outcome = if paths = [] then .exited 2 else .returned (if failed then 1 else 0) := by
  have hparse := parse_paths (by decide) ofText_write rfl rfl rfl hword
  obtain ⟨hleaves, hfailed⟩ := visitAll_leaves (o := { write := true, paths := paths }) rfl rfl (paths.map Path.ofText) {}
    { files := files, stdin := stdin, tidier := tidier } hfun (by simpa using hname) hapart
  by_cases hnil : paths = []
  · subst hnil
    exact ⟨hleaves, false, by simp, rfl⟩
  · obtain ⟨hfiles, houtcome⟩ := run_of_processPaths tidier files stdin _ hparse rfl hnil
      (processPaths_files _ paths {} _ hname hfile)
    intro left
    rw [show left.files = _ from hfiles, show left.outcome = _ from houtcome]
    exact ⟨hleaves, _, by simpa using hfailed, (if_neg hnil).symm⟩

end

end CommandLine
end EpFormat
