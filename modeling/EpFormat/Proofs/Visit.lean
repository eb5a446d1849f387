import Mathlib
import EpFormat.CommandLine.Run
import EpFormat.Proofs.Limit
import EpFormat.Proofs.Utf8
import EpFormat.Proofs.Workspace
/-!
# Visit — what a run does to one file

A run works through files one by one.  `Visits` says all that can become of a file: it cannot be read, it cannot be
formatted, it stays, it would change, its backup cannot be written, or it is overwritten after its backup was written
(`visit_spec`).
-/
namespace EpFormat

/-- A text as the usual settings format it. -/
def formatted (tidier : Perl.Tidier) (t : Text) : Text := ((format tidier {} t).run {}).1

theorem formatWithin_formatted {tidier : Perl.Tidier} (h : tidier.Functional) (t : Text) (s : Perl.Session) :
    ((formatWithin tidier {} t).run s).1 = .ok (formatted tidier t) := by
  rw [formatWithin_usual (by decide), formatted, format_gives (h.steady {}) t s, format_gives (h.steady {}) t {}]

namespace CommandLine

open Files (Path Workspace FileError IsTemplate backupOf backupOf_ne_nil)
open Utf8 (Bytes decode encode)

deriving instance DecidableEq for Failure, Outcome

/-! ## Runs -/

section

variable {α β : Type}

theorem run_bind (x : Run α) (f : α → Run β) (s : State) : (x >>= f).run.run s
    = match x.run.run s with
      | (.ok a, after) => (f a).run.run after
      | (.error e, after) => (.error e, after) := by
  unfold ExceptT.run StateT.run
  simp only [bind, ExceptT.bind, ExceptT.mk, StateT.bind, ExceptT.bindCont]
  cases x s with
  | mk r after => cases r <;> rfl

theorem run_tryCatch (x : Run α) (f : Failure → Run α) (s : State) : (tryCatch x f : Run α).run.run s
    = match x.run.run s with
      | (.ok a, after) => (.ok a, after)
      | (.error e, after) => (f e).run.run after := by
  unfold ExceptT.run StateT.run
  simp only [tryCatch, tryCatchThe, MonadExceptOf.tryCatch, ExceptT.tryCatch, ExceptT.mk, bind, StateT.bind]
  cases x s with
  | mk r after => cases r <;> rfl

end

theorem run_report (e : Event) (s : State) :
    (report e).run.run s = (.ok ⟨⟩, { s with session := s.session.report e }) := rfl

theorem run_readFile (p : Path) (s : State) : (readFile p).run.run s
    = match s.files.read p with
      | .ok bytes => (.ok (decode bytes), s)
      | .error e => (.error (.file e), s) := by
  show (match s.files.read p with | .ok bytes => _ | .error e => _ : Run Text).run.run s = _
  cases s.files.read p <;> rfl

theorem run_readStdin (s : State) : readStdin.run.run s
    = (match Utf8.decodeStrict s.stdin with
        | .ok t => .ok (Eol.unify t)
        | .error e => .error (.input e), s) := by
  show (match Utf8.decodeStrict s.stdin with | .ok t => _ | .error e => _ : Run Text).run.run s = _
  cases Utf8.decodeStrict s.stdin <;> rfl

theorem run_writeFile (p : Path) (t : Text) (s : State) : (writeFile p t).run.run s
    = match s.files.write p (encode t) with
      | .ok files => (.ok ⟨⟩, { s with files := files })
      | .error e => (.error (.file e), s) := by
  show (match s.files.write p (encode t) with | .ok files => _ | .error e => _ : Run Unit).run.run s = _
  cases s.files.write p (encode t) <;> rfl

def State.tidied (s : State) (cfg : Config) (t : Text) : Except WidthError Text :=
  ((formatWithin s.tidier cfg t).run s.session).1

theorem run_formatText (cfg : Config) (t : Text) (s : State) : (formatText cfg t).run.run s
    = (match s.tidied cfg t with
        | .ok new => .ok new
        | .error e => .error (.width e), { s with session := ((formatWithin s.tidier cfg t).run s.session).2 }) := by
  unfold State.tidied
  show (match ((formatWithin s.tidier cfg t).run s.session).1 with | .ok new => _ | .error e => _ : Run Text).run.run _ = _
  cases ((formatWithin s.tidier cfg t).run s.session).1 <;> rfl

/-! ## One file -/

/-- The file at a place is overwritten: first its text is written to the backup, then the new text over it. -/
structure Overwrites (w : Workspace) (loc : Files.Place) (old : Bytes) (new : Text) (w' : Workspace) : Prop where
  template : IsTemplate loc
  was : w.get? loc = some (.file old)
  backable : w.Backable loc
  differs : decode old ≠ new
  get? : ∀ x, w'.get? x = if x = loc then some (.file (encode new))
    else if x = backupOf loc then some (.file (encode (decode old))) else w.get? x

namespace Overwrites

variable {w w' : Workspace} {loc : Files.Place} {old : Bytes} {new : Text} (h : Overwrites w loc old new w')

include h

theorem get?_backup : w'.get? (backupOf loc) = some (.file (encode (decode old))) := by
  rw [h.get?, if_neg (fun heq => h.template.ne_backupOf heq.symm), if_pos rfl]

theorem get?_template {x : Files.Place} (hx : IsTemplate x) :
    w'.get? x = if x = loc then some (.file (encode new)) else w.get? x := by
  rw [h.get?, if_neg (c := x = backupOf loc) hx.ne_backupOf]

theorem changes : w'.get? loc ≠ w.get? loc := by
  rw [h.get?_template h.template, if_pos rfl, h.was]
  intro heq
  have hbytes : encode new = old := by simpa using heq
  exact h.differs (by rw [← hbytes, Utf8.decode_encode])

theorem sameFolders : w.SameFolders w' := by
  intro x
  rw [h.get?]
  by_cases hloc : x = loc
  · rw [if_pos hloc, hloc, h.was]
    simp
  · rw [if_neg hloc]
    by_cases hback : x = backupOf loc
    · rw [if_pos hback, hback]
      simp [h.backable.2]
    · rw [if_neg hback]

end Overwrites

/-- What can become of a file of a run.  The result is whether the file changed, or none where it failed. -/
inductive Visits (write : Bool) (f : Text → Except WidthError Text) (w : Workspace) (p : Path) :
    Option Bool → Workspace → Prop
  | unread (h : ∀ b, w.read p ≠ .ok b) : Visits write f w p none w
  | unformatted (b : Bytes) (e : WidthError) (hread : w.read p = .ok b) (hf : f (decode b) = .error e) :
    Visits write f w p none w
  | unchanged (b : Bytes) (hread : w.read p = .ok b) (hf : f (decode b) = .ok (decode b)) :
    Visits write f w p (some false) w
  | shown (b : Bytes) (new : Text) (hread : w.read p = .ok b) (hf : f (decode b) = .ok new) (hne : decode b ≠ new)
    (hw : write = false) : Visits write f w p (some true) w
  | refused (b : Bytes) (new : Text) (loc : Files.Place) (hread : w.read p = .ok b) (hf : f (decode b) = .ok new)
    (hne : decode b ≠ new) (hw : write = true) (hloc : w.locate p = .ok loc) (h : ¬ w.Backable loc) :
    Visits write f w p none w
  | overwritten (b : Bytes) (new : Text) (loc : Files.Place) (w' : Workspace) (hread : w.read p = .ok b)
    (hf : f (decode b) = .ok new) (hw : write = true) (hloc : w.locate p = .ok loc) (h : Overwrites w loc b new w') :
    Visits write f w p (some true) w'

/-- What is done with a file that changed. -/
def saved (write : Bool) (p : Path) (old new : Text) : Run Bool := do
  if write then
    writeFile p.backup old
    report (.backupWritten p.backup.toText)
    writeFile p new
    report (.fileOverwritten p.toText)
  return true

section

variable {p : Path} {s : State} (hp : p.hasExtension templateExtensions = true)

include hp

theorem saved_spec {write : Bool} {f : Text → Except WidthError Text} {b : Bytes} {new : Text}
    (hread : s.files.read p = .ok b) (hf : f (decode b) = .ok new) (hne : decode b ≠ new) :
    ∃ r after, (saved write p (decode b) new).run.run s = (r, after) ∧ after.tidier = s.tidier
      ∧ Visits write f s.files p r.toOption after.files := by
  obtain ⟨hnul, loc, hloc, hget⟩ := Workspace.read_eq_ok_iff.1 hread
  have htemplate := Workspace.isTemplate_of_locate hp hloc
  unfold saved
  cases write with
  | false => exact ⟨.ok true, s, rfl, rfl, .shown b new hread hf hne rfl⟩
  | true =>
    simp only [if_true]
    rw [run_bind, run_writeFile]
    cases hw : s.files.write p.backup (encode (decode b)) with
    | error e =>
      refine ⟨.error (.file e), s, rfl, rfl, .refused b new loc hread hf hne rfl hloc (fun hb => ?_)⟩
      rw [(Workspace.write_backup_iff hp hnul hloc _).2 ⟨hb, rfl⟩] at hw
      cases hw
    | ok w =>
      obtain ⟨hb, rfl⟩ := (Workspace.write_backup_iff hp hnul hloc _).1 hw
      -- The backup is no template, so the file is found again where it was, and as it was.
      have hfolders := Workspace.sameFolders_set hb.2 (encode (decode b))
      have hstill : (s.files.set (backupOf loc) (.file (encode (decode b)))).get? loc = some (.file b) := by
        rw [Workspace.get?_set (backupOf_ne_nil loc), if_neg htemplate.ne_backupOf, hget]
      have hsecond : (s.files.set (backupOf loc) (.file (encode (decode b)))).write p (encode new) = .ok _ :=
        Workspace.write_eq_ok_iff.2 ⟨hnul, loc, hfolders.locate_iff.1 hloc, by rw [hstill]; simp, rfl⟩
      simp only
      rw [run_bind, run_report]
      simp only
      rw [run_bind, run_writeFile]
      simp only [hsecond]
      refine ⟨.ok true, _, rfl, rfl, .overwritten b new loc _ hread hf rfl hloc ⟨htemplate, hget, hb, hne, fun x => ?_⟩⟩
      simp only
      rw [Workspace.get?_set htemplate.ne_nil, Workspace.get?_set (backupOf_ne_nil loc)]

theorem processFile_spec (o : Options) : ∃ r after, (processFile o p).run.run s = (r, after) ∧ after.tidier = s.tidier
    ∧ Visits o.write (s.tidied o.config) s.files p r.toOption after.files := by
  unfold processFile
  rw [run_bind, run_readFile]
  cases hread : s.files.read p with
  | error e => exact ⟨.error (.file e), s, rfl, rfl, .unread (fun b hb => by rw [hb] at hread; cases hread)⟩
  | ok b =>
    simp only
    rw [run_bind, run_formatText]
    cases hf : s.tidied o.config (decode b) with
    | error e => exact ⟨.error (.width e), _, rfl, rfl, .unformatted b e hread hf⟩
    | ok new =>
      simp only
      split
      · rename_i heq
        exact ⟨.ok false, _, rfl, rfl, .unchanged b hread (by rw [hf, ← heq])⟩
      · rename_i hne
        rw [run_bind, run_report]
        simp only
        split
        · rw [run_bind]
          exact saved_spec (s := State.mk _ _ _ _ _) hp hread hf hne
        · exact saved_spec (s := State.mk _ _ _ _ _) hp hread hf hne

end

/-- A file of a run: what became of it, and the state after it. -/
def State.visit (o : Options) (s : State) (p : Path) : Option Bool × State :=
  match (processFile o p).run.run { s with session := s.session.report (.fileFound p.toText) } with
  | (.ok changed, after) => (some changed, after)
  | (.error e, after) => (none, { after with session := after.session.report (.fileFailed p.toText e.message) })

def State.formatter (o : Options) (s : State) (p : Path) (t : Text) : Except WidthError Text :=
  State.tidied { s with session := s.session.report (.fileFound p.toText) } o.config t

/-- **All that can become of a file of a run.** -/
theorem visit_spec {p : Path} (hp : p.hasExtension templateExtensions = true) (o : Options) (s : State) :
    (s.visit o p).2.tidier = s.tidier
      ∧ Visits o.write (s.formatter o p) s.files p (s.visit o p).1 (s.visit o p).2.files := by
  obtain ⟨r, after, hrun, htidier, hvisits⟩ :=
    processFile_spec (s := { s with session := s.session.report (.fileFound p.toText) }) hp o
  unfold State.visit
  rw [hrun]
  cases r <;> exact ⟨htidier, hvisits⟩

theorem State.formatter_eq {o : Options} (ho : o.config = {}) {s : State} (h : s.tidier.Functional) (p : Path) :
    s.formatter o p = fun t => .ok (formatted s.tidier t) := by
  funext t
  unfold State.formatter State.tidied
  rw [ho]
  exact formatWithin_formatted h t _

/-! ## File by file -/

def Tally.add (t : Tally) : Option Bool → Tally
  | some changed => { t with changed := t.changed || changed }
  | none => { t with failed := true }

theorem Tally.changed_add (t : Tally) (r : Option Bool) :
    (t.add r).changed = true ↔ t.changed = true ∨ r = some true := by
  rcases r with _ | changed
  · simp [Tally.add]
  · simp [Tally.add]

theorem Tally.failed_add (t : Tally) (r : Option Bool) : (t.add r).failed = true ↔ t.failed = true ∨ r = none := by
  cases r <;> simp [Tally.add]

def visitAll (o : Options) (x : Tally × State) (ps : List Path) : Tally × State :=
  ps.foldl (fun x p => (x.1.add (x.2.visit o p).1, (x.2.visit o p).2)) x

theorem run_processFiles (o : Options) : ∀ (ps : List Path) (tally : Tally) (s : State),
    (processFiles o tally ps).run.run s = (.ok (visitAll o (tally, s) ps).1, (visitAll o (tally, s) ps).2)
  | [], _, _ => rfl
  | p :: ps, tally, s => by
    rw [processFiles, run_bind, run_report]
    simp only
    rw [run_bind, run_tryCatch, run_bind]
    rw [visitAll, List.foldl_cons, ← visitAll, State.visit]
    cases (processFile o p).run.run { s with session := s.session.report (.fileFound p.toText) } with
    | mk r after =>
      cases r with
      | ok changed => exact run_processFiles o ps _ _
      | error e => exact run_processFiles o ps _ _

theorem run_processPaths (o : Options) (tally : Tally) (s : State) (t : Text) (rest : List Text) :
    (processPaths o tally (t :: rest)).run.run s
      = match s.files.filesOf o.config.extensions (Path.ofText t) with
        | .error e => (.error (.file e), s)
        | .ok ps => (processPaths o (visitAll o (tally, s) ps).1 rest).run.run (visitAll o (tally, s) ps).2 := by
  show (match s.files.filesOf o.config.extensions (Path.ofText t) with | .error e => _ | .ok ps => _ : Run Tally).run.run s = _
  cases s.files.filesOf o.config.extensions (Path.ofText t) with
  | error e => rfl
  | ok ps =>
    simp only
    rw [run_bind, run_processFiles]

/-! ## The course of a run -/

/-- The states before each of some files, and then those of `next`. -/
def through (o : Options) (next : State → List State) : List Path → State → List State
  | [], s => next s
  | p :: ps, s => s :: through o next ps (s.visit o p).2

/-- The states of a run over paths: before each file, and the last one. -/
def course (o : Options) : List Text → State → List State
  | [], s => [s]
  | t :: rest, s =>
    match s.files.filesOf o.config.extensions (Path.ofText t) with
    | .error _ => [s]
    | .ok ps => through o (course o rest) ps s

/-- The file at a place is overwritten, or nothing happens. -/
def Step (w w' : Workspace) : Prop := w' = w ∨ ∃ loc old new, Overwrites w loc old new w'

theorem Visits.step {write : Bool} {f : Text → Except WidthError Text} {w w' : Workspace} {p : Path} {r : Option Bool}
    (h : Visits write f w p r w') : Step w w' := by
  cases h with
  | overwritten b new loc _ _ _ _ _ h => exact Or.inr ⟨loc, b, new, h⟩
  | _ => exact Or.inl rfl

theorem Step.sameFolders {w w' : Workspace} (h : Step w w') : w.SameFolders w' := by
  rcases h with rfl | ⟨loc, old, new, h⟩
  · exact Workspace.SameFolders.refl _
  · exact h.sameFolders

theorem hasExtension_of_mem_filesOf {w : Workspace} {extensions : List Text} {p q : Path} {ps : List Path}
    (h : w.filesOf extensions p = .ok ps) (hq : q ∈ ps) : q.hasExtension extensions = true := by
  unfold Workspace.filesOf at h
  split at h
  · cases h
  · cases h
    exact (List.mem_filter.1 hq).2
  · split at h
    · cases h
    · cases h
      exact (List.mem_filter.1 hq).2

section

variable (o : Options)

theorem isChain_through {next : State → List State}
    (hnext : ∀ s, (next s).head? = some s ∧ (next s).IsChain (fun s s' => Step s.files s'.files)) :
    ∀ (ps : List Path), (∀ p ∈ ps, p.hasExtension templateExtensions = true) → ∀ s,
      (through o next ps s).head? = some s ∧ (through o next ps s).IsChain (fun s s' => Step s.files s'.files)
  | [], _, s => hnext s
  | p :: ps, hps, s => by
    obtain ⟨hhead, hchain⟩ := isChain_through hnext ps (fun q hq => hps q (List.mem_cons_of_mem p hq)) (s.visit o p).2
    refine ⟨rfl, ?_⟩
    rw [through, List.isChain_cons]
    refine ⟨fun s' hs' => ?_, hchain⟩
    rw [hhead, Option.mem_some_iff] at hs'
    subst hs'
    exact (visit_spec (hps p List.mem_cons_self) o s).2.step

/-- **From state to state of a run at most one file is overwritten.** -/
theorem isChain_course : ∀ (paths : List Text) (s : State),
    (course o paths s).head? = some s ∧ (course o paths s).IsChain (fun s s' => Step s.files s'.files)
  | [], s => ⟨rfl, List.isChain_singleton s⟩
  | t :: rest, s => by
    rw [course]
    cases hps : s.files.filesOf o.config.extensions (Path.ofText t) with
    | error e => exact ⟨rfl, List.isChain_singleton s⟩
    | ok ps => exact isChain_through o (isChain_course rest) ps (fun p hp => hasExtension_of_mem_filesOf hps hp) s

theorem getLast?_through {next : State → List State} (hnext : ∀ s, (next s).head? = some s) :
    ∀ (ps : List Path) (tally : Tally) (s : State),
      (through o next ps s).getLast? = (next (visitAll o (tally, s) ps).2).getLast?
  | [], _, _ => rfl
  | p :: ps, tally, s => by
    have ih := getLast?_through hnext ps (tally.add (s.visit o p).1) (s.visit o p).2
    have hne : through o next ps (s.visit o p).2 ≠ [] := by
      intro hnil
      rw [hnil, List.getLast?_nil] at ih
      have := hnext (visitAll o (tally.add (s.visit o p).1, (s.visit o p).2) ps).2
      rw [List.getLast?_eq_none_iff.1 ih.symm] at this
      cases this
    rw [through, List.getLast?_cons_of_ne_nil hne, ih]
    rfl

theorem getLast?_course : ∀ (paths : List Text) (tally : Tally) (s : State),
    (course o paths s).getLast? = some ((processPaths o tally paths).run.run s).2
  | [], _, _ => rfl
  | t :: rest, tally, s => by
    rw [course, run_processPaths]
    cases s.files.filesOf o.config.extensions (Path.ofText t) with
    | error e => rfl
    | ok ps =>
      simp only
      rw [getLast?_through o (fun s => (isChain_course o rest s).1) ps tally s]
      exact getLast?_course rest _ _

end

theorem run_runPaths (o : Options) (s : State) : (runPaths o).run.run s
    = if o.paths = [] then (.ok (.refused .noPaths), s)
      else match (processPaths o {} o.paths).run.run s with
        | (.ok tally, after) => (.ok (.returned (if (o.check && tally.changed) || tally.failed then 1 else 0)), after)
        | (.error e, after) => (.error e, after) := by
  unfold runPaths
  by_cases h : o.paths = []
  · simp only [h, List.isEmpty_nil, if_true]
    rfl
  · rw [if_neg (by simpa using h), if_neg h, run_bind]
    cases (processPaths o {} o.paths).run.run s with
    | mk r after => cases r <;> rfl

/-- Whether the options lead to the files of the paths. -/
def Options.overFiles (o : Options) : Bool := !o.version && !o.selfTest && (o.out.getD []).isEmpty && !o.stdin

/-- The workspaces that a run goes through, file by file. -/
def history (tidier : Perl.Tidier) (files : Workspace) (stdin : Bytes) (args : List Text) : List Workspace :=
  match parse args with
  | .error _ => [files]
  | .ok o =>
    if o.overFiles then (course o o.paths { files := files, stdin := stdin, tidier := tidier }).map State.files else [files]

theorem run_overFiles {o : Options} (h : o.overFiles = true) : runOptions o = runPaths o := by
  simp only [Options.overFiles, Bool.and_eq_true, Bool.not_eq_true', List.isEmpty_iff] at h
  obtain ⟨⟨⟨hversion, hself⟩, hout⟩, hstdin⟩ := h
  unfold runOptions
  rw [hversion, hself, hstdin]
  simp only [Bool.false_eq_true, if_false]
  cases ho : o.out with
  | none => rfl
  | some path =>
    rw [ho, Option.getD_some] at hout
    rw [hout]

theorem files_runSelfTest (o : Options) (s : State) : ((runSelfTest o).run.run s).2.files = s.files := by
  unfold runSelfTest
  rw [run_bind, show (get : Run State).run.run s = (.ok s, s) from rfl]
  simp only
  obtain ⟨outcome, session⟩ := (SelfTest.run s.tidier o.config).run.run s.session
  cases outcome <;> rfl

theorem files_runStdin (o : Options) (s : State) : ((runStdin o).run.run s).2.files = s.files := by
  unfold runStdin
  rw [run_bind, run_readStdin]
  cases Utf8.decodeStrict s.stdin with
  | error e => rfl
  | ok t =>
    simp only
    rw [run_bind, run_formatText]
    cases s.tidied o.config (Eol.unify t) <;> rfl

theorem files_of_not_overFiles {o : Options} (h : o.overFiles = false) (hw : o.write = true) (s : State) :
    ((runOptions o).run.run s).2.files = s.files := by
  unfold runOptions
  by_cases hversion : o.version = true
  · rw [if_pos hversion]
    rfl
  rw [if_neg hversion]
  by_cases hself : o.selfTest = true
  · rw [if_pos hself]
    exact files_runSelfTest o s
  rw [if_neg hself]
  split
  · unfold runOut
    rw [hw]
    rfl
  · rename_i hout
    have hstdin : o.stdin = true := by
      have hempty : (o.out.getD []).isEmpty = true := by
        cases ho : o.out with
        | none => rfl
        | some path =>
          cases path with
          | nil => rfl
          | cons c path => exact absurd ho (hout c path)
      simpa [Options.overFiles, hversion, hself, hempty] using h
    rw [if_pos hstdin]
    exact files_runStdin o s

def outcomeOf : Except Failure Ending → Outcome
  | .ok (.returned code) => .returned code
  | .ok (.refused _) => .exited 2
  | .error e => .failed e

section

variable (tidier : Perl.Tidier) (files : Workspace) (stdin : Bytes) (args : List Text)

theorem run_of_parse {o : Options} (h : parse args = .ok o) :
    let done := (runOptions o).run.run { files := files, stdin := stdin, tidier := tidier }
    (run tidier files stdin args).files = done.2.files ∧ (run tidier files stdin args).outcome = outcomeOf done.1 := by
  simp only [run, h]
  cases (runOptions o).run.run { files := files, stdin := stdin, tidier := tidier } with
  | mk r after =>
    cases r with
    | error e => exact ⟨rfl, rfl⟩
    | ok ending => cases ending <;> exact ⟨rfl, rfl⟩

theorem run_of_processPaths {o : Options} (hparse : parse args = .ok o) (ho : o.overFiles = true) (hpaths : o.paths ≠ [])
    {tally : Tally} {after : State}
    (h : (processPaths o {} o.paths).run.run { files := files, stdin := stdin, tidier := tidier } = (.ok tally, after)) :
    (run tidier files stdin args).files = after.files ∧ (run tidier files stdin args).outcome
      = .returned (if (o.check && tally.changed) || tally.failed then 1 else 0) := by
  obtain ⟨hfiles, houtcome⟩ := run_of_parse tidier files stdin args hparse
  rw [hfiles, houtcome, run_overFiles ho, run_runPaths, if_neg hpaths, h]
  exact ⟨rfl, rfl⟩

/-- **The history of a run begins with the files it finds, and from one workspace to the next at most one file is
overwritten.** -/
theorem isChain_history : (history tidier files stdin args).head? = some files
    ∧ (history tidier files stdin args).IsChain Step := by
  unfold history
  split
  · exact ⟨rfl, List.isChain_singleton files⟩
  · split
    · obtain ⟨hhead, hchain⟩ := isChain_course _ _ _
      exact ⟨by rw [List.head?_map, hhead]; rfl, (List.isChain_map _).2 hchain⟩
    · exact ⟨rfl, List.isChain_singleton files⟩

/-- **The history of a run that writes in place ends with the files it leaves.** -/
theorem getLast?_history (hw : ∀ o, parse args = .ok o → o.write = true) :
    (history tidier files stdin args).getLast? = some (run tidier files stdin args).files := by
  unfold history
  cases hparse : parse args with
  | error e =>
    unfold run
    rw [hparse]
    cases e <;> rfl
  | ok o =>
    rw [(run_of_parse tidier files stdin args hparse).1]
    simp only
    cases ho : o.overFiles with
    | false =>
      rw [files_of_not_overFiles ho (hw o hparse)]
      rfl
    | true =>
      rw [run_overFiles ho, run_runPaths, if_pos rfl, List.getLast?_map, getLast?_course o o.paths {}]
      split
      · rename_i hnil
        rw [hnil]
        rfl
      · cases (processPaths o {} o.paths).run.run { files := files, stdin := stdin, tidier := tidier } with
        | mk r after => cases r <;> rfl

end

end CommandLine
end EpFormat
