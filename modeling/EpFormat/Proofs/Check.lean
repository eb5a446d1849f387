import EpFormat.Proofs.InPlace
/-!
# Check — a check says what writing in place would do

A check visits files as a run that writes in place does, up to the first file that this overwrites.  Until then the two find
the same files, so the check meets a file whose text formatting changes exactly if the other run overwrites one, or
cannot because the name of the backup would be too long.
-/
namespace EpFormat
namespace CommandLine

open Files (Path Workspace IsTemplate backupOf)
open Utf8 (Bytes decode encode)

/-- The files that paths stand for. -/
def visited (w : Workspace) (paths : List Text) : List Path :=
  paths.flatMap (fun t => match w.filesOf templateExtensions (Path.ofText t) with
    | .ok ps => ps
    | .error _ => [])

theorem visited_cons {w : Workspace} {t : Text} {ps : List Path}
    (h : w.filesOf templateExtensions (Path.ofText t) = .ok ps) (rest : List Text) :
    visited w (t :: rest) = ps ++ visited w rest := by
  rw [visited, List.flatMap_cons, h]
  rfl

/-- Some file of a workspace is no longer as it was. -/
def SomeOverwritten (w w' : Workspace) : Prop := ∃ loc b, w.get? loc = some (.file b) ∧ w'.get? loc ≠ some (.file b)

theorem not_someOverwritten_self (w : Workspace) : ¬ SomeOverwritten w w := by
  rintro ⟨loc, b, h, hne⟩
  exact hne h

theorem Overwrites.someOverwritten {w w' : Workspace} {loc : Files.Place} {old : Bytes} {new : Text}
    (h : Overwrites w loc old new w') : SomeOverwritten w w' := ⟨loc, old, h.was, by rw [← h.was]; exact h.changes⟩

/-- The paths of a command line, none of which is too long to be looked up, stand for lists of files. -/
theorem exists_filesOf {w : Workspace} {p : Path} {d : Bool} (h : w.isDirectory p = .ok d) (extensions : List Text) :
    ∃ ps, w.filesOf extensions p = .ok ps := by
  unfold Workspace.filesOf
  rw [h]
  cases d with
  | false => exact ⟨_, rfl⟩
  | true =>
    cases hloc : w.locate p with
    | ok loc => exact ⟨_, rfl⟩
    | error e =>
      unfold Workspace.isDirectory at h
      rw [hloc] at h
      split at h
      · cases h
      · split at h
        · rename_i heq
          cases heq
        · cases h
        · cases h

/-! ## The check -/

theorem visits_check {f : Text → Text} {w w' : Workspace} {p : Path} {r : Option Bool}
    (h : Visits false (fun t => .ok (f t)) w p r w') :
    w' = w ∧ (r = some true ↔ ∃ loc b, Due f w p loc b) ∧ (r = none ↔ ∀ b, w.read p ≠ .ok b) := by
  cases h with
  | unread h => exact ⟨rfl, ⟨fun h => (by cases h), fun ⟨loc, b, hd⟩ => absurd hd.read (h b)⟩, iff_of_true rfl h⟩
  | unformatted b e _ hf => cases hf
  | unchanged b hread hf =>
    refine ⟨rfl, ⟨fun h => (by cases h), ?_⟩, ⟨fun h => (by cases h), fun h => absurd hread (h b)⟩⟩
    rintro ⟨loc, b', hd⟩
    obtain rfl : b' = b := Except.ok.inj (hd.read.symm.trans hread)
    exact absurd (Except.ok.inj hf) hd.differs
  | shown b new hread hf hne _ =>
    obtain ⟨-, loc, hloc, -⟩ := Workspace.read_eq_ok_iff.1 hread
    obtain rfl := Except.ok.inj hf
    exact ⟨rfl, iff_of_true rfl ⟨loc, b, hread, hloc, Ne.symm hne⟩, ⟨fun h => (by cases h), fun h => absurd hread (h b)⟩⟩
  | refused _ _ _ _ _ _ hw => cases hw
  | overwritten _ _ _ _ _ _ hw => cases hw

/-- A check changes nothing, and sees what would change and what cannot be read. -/
theorem visitAll_check {o : Options} (hw : o.write = false) (ho : o.config = {}) : ∀ (ps : List Path) (tally : Tally)
    (s : State), s.tidier.Functional → (∀ p ∈ ps, p.hasExtension templateExtensions = true) →
      let done := visitAll o (tally, s) ps
      done.2.files = s.files ∧ done.2.tidier = s.tidier
        ∧ (done.1.changed = true ↔ tally.changed = true ∨ ∃ p ∈ ps, ∃ loc b, Due (formatted s.tidier) s.files p loc b)
        ∧ (done.1.failed = true ↔ tally.failed = true ∨ ∃ p ∈ ps, ∀ b, s.files.read p ≠ .ok b)
  | [], tally, s, _, _ => ⟨rfl, rfl, by simp [visitAll], by simp [visitAll]⟩
  | p :: ps, tally, s, hfun, htemplate => by
    obtain ⟨hp, hps⟩ := List.forall_mem_cons.1 htemplate
    obtain ⟨htidier, hvisits⟩ := visit_spec hp o s
    rw [hw, State.formatter_eq ho hfun] at hvisits
    obtain ⟨hsame, hchanged, hfailed⟩ := visits_check hvisits
    have ih := visitAll_check hw ho ps (tally.add (s.visit o p).1) (s.visit o p).2 (by rwa [htidier]) hps
    rw [htidier, hsame, Tally.changed_add, Tally.failed_add, hchanged, hfailed] at ih
    rw [List.exists_mem_cons_iff, List.exists_mem_cons_iff, ← or_assoc, ← or_assoc]
    exact ih

theorem processPaths_check {o : Options} (hw : o.write = false) (ho : o.config = {}) : ∀ (paths : List Text) (tally : Tally)
    (s : State), s.tidier.Functional → (∀ t ∈ paths, ∃ d, s.files.isDirectory (Path.ofText t) = .ok d) →
      ∃ tally' after, (processPaths o tally paths).run.run s = (.ok tally', after) ∧ after.files = s.files
        ∧ (tally'.changed = true
            ↔ tally.changed = true ∨ ∃ p ∈ visited s.files paths, ∃ loc b, Due (formatted s.tidier) s.files p loc b)
        ∧ (tally'.failed = true ↔ tally.failed = true ∨ ∃ p ∈ visited s.files paths, ∀ b, s.files.read p ≠ .ok b)
  | [], tally, s, _, _ => ⟨tally, s, rfl, rfl, by simp [visited], by simp [visited]⟩
  | t :: rest, tally, s, hfun, hdirs => by
    obtain ⟨⟨d, hd⟩, hrest⟩ := List.forall_mem_cons.1 hdirs
    obtain ⟨ps, hps⟩ := exists_filesOf hd templateExtensions
    obtain ⟨hfiles, htidier, hchanged, hfailed⟩ :=
      visitAll_check hw ho ps tally s hfun (fun p hp => hasExtension_of_mem_filesOf hps hp)
    have ih := processPaths_check hw ho rest (visitAll o (tally, s) ps).1 (visitAll o (tally, s) ps).2
      (by rwa [htidier]) (by rwa [hfiles])
    rw [htidier, hfiles, hchanged, hfailed] at ih
    rw [run_processPaths, show o.config.extensions = templateExtensions from rfl, hps, visited_cons hps]
    simp only [List.mem_append, or_and_right, exists_or]
    simpa only [or_assoc] using ih

/-! ## Writing in place -/

/-- The file of a path is overwritten when it is visited. -/
def Overwritable (f : Text → Text) (w : Workspace) (p : Path) : Prop := ∃ loc b, Due f w p loc b ∧ w.Backable loc

section

variable {o : Options} (hw : o.write = true) (ho : o.config = {}) {tidier : Perl.Tidier} (hfun : tidier.Functional)
  {w : Workspace}

include hw ho hfun

/-- Up to the first file that is overwritten every file is found as the run began with it. -/
theorem through_overwrites_iff {next : State → List State} {later : Prop}
    (hchain : ∀ s, (next s).head? = some s ∧ (next s).IsChain (fun s s' => Step s.files s'.files))
    (hnext : ∀ s, s.files = w → s.tidier = tidier → ((∃ s' ∈ next s, SomeOverwritten w s'.files) ↔ later)) :
    ∀ (ps : List Path), (∀ p ∈ ps, p.hasExtension templateExtensions = true) → ∀ s, s.files = w → s.tidier = tidier →
      ((∃ s' ∈ through o next ps s, SomeOverwritten w s'.files) ↔ (∃ p ∈ ps, Overwritable (formatted tidier) w p) ∨ later)
  | [], _, s, hs, ht => by
    rw [through, hnext s hs ht]
    simp
  | p :: ps, htemplate, s, hs, ht => by
    obtain ⟨hp, hps⟩ := List.forall_mem_cons.1 htemplate
    obtain ⟨htidier, hvisits⟩ := visit_spec hp o s
    rw [hw, State.formatter_eq ho (by rwa [ht]), ht, hs] at hvisits
    rw [through, List.exists_mem_cons_iff, List.exists_mem_cons_iff, hs, or_iff_right (not_someOverwritten_self w)]
    rcases visits_inPlace hvisits with ⟨hsame, hnot, -⟩ | ⟨loc, b, hdue, hback, hover, -, -⟩
    · have hp' : ¬ Overwritable (formatted tidier) w p := by
        rintro ⟨loc, b, hdue, hback⟩
        exact hnot loc b hdue hback
      rw [through_overwrites_iff hchain hnext ps hps _ hsame (htidier.trans ht), or_assoc, or_iff_right hp']
    · have hhead := (isChain_through o hchain ps hps (s.visit o p).2).1
      exact iff_of_true ⟨_, List.mem_of_mem_head? hhead, hover.someOverwritten⟩ (Or.inl (Or.inl ⟨loc, b, hdue, hback⟩))

/-- **A run that writes in place overwrites a file exactly if one of the files it began with is there to be overwritten.** -/
theorem course_overwrites_iff : ∀ (paths : List Text), (∀ t ∈ paths, ∃ d, w.isDirectory (Path.ofText t) = .ok d) →
    ∀ s : State, s.files = w → s.tidier = tidier →
      ((∃ s' ∈ course o paths s, SomeOverwritten w s'.files) ↔ ∃ p ∈ visited w paths, Overwritable (formatted tidier) w p)
  | [], _, s, hs, _ => by
    subst hs
    simp [course, visited, not_someOverwritten_self]
  | t :: rest, hdirs, s, hs, ht => by
    obtain ⟨⟨d, hd⟩, hrest⟩ := List.forall_mem_cons.1 hdirs
    obtain ⟨ps, hps⟩ := exists_filesOf hd templateExtensions
    rw [course, show o.config.extensions = templateExtensions from rfl, hs, hps, visited_cons hps]
    simp only [List.mem_append, or_and_right, exists_or]
    exact through_overwrites_iff hw ho hfun (isChain_course o rest) (course_overwrites_iff rest hrest) ps
      (fun p hp => hasExtension_of_mem_filesOf hps hp) s hs ht

end

/-! ## The two together -/

theorem history_overwrites_iff {tidier : Perl.Tidier} (hfun : tidier.Functional) (files : Workspace) (stdin : Bytes)
    {paths : List Text} (hword : ∀ t ∈ paths, isPath t = true)
    (hdirs : ∀ t ∈ paths, ∃ d, files.isDirectory (Path.ofText t) = .ok d) :
    (∃ w ∈ history tidier files stdin (txt "-w" :: paths), SomeOverwritten files w)
      ↔ ∃ p ∈ visited files paths, Overwritable (formatted tidier) files p := by
  rw [← course_overwrites_iff (o := { write := true, paths := paths }) rfl rfl hfun paths hdirs
    { files := files, stdin := stdin, tidier := tidier } rfl rfl]
  unfold history
  rw [parse_paths (by decide) ofText_write rfl rfl rfl hword]
  show (∃ w ∈ (course _ paths _).map State.files, _) ↔ _
  simp only [List.mem_map, exists_exists_and_eq_and]

/-- Where no backup is a directory, only the length of its name keeps a file from being overwritten. -/
theorem exists_due_iff {f : Text → Text} {w : Workspace} (ps : List Path)
    (hbackup : ∀ loc b, w.get? loc = some (.file b) → w.get? (backupOf loc) ≠ some .directory) :
    (∃ p ∈ ps, ∃ loc b, Due f w p loc b)
      ↔ (∃ p ∈ ps, Overwritable f w p)
        ∨ ∃ p ∈ ps, ∃ loc b, Due f w p loc b ∧ 255 < Utf8.size (Path.name ⟨[], backupOf loc⟩) := by
  constructor
  · rintro ⟨p, hp, loc, b, hdue⟩
    by_cases hsize : 255 < Utf8.size (Path.name ⟨[], backupOf loc⟩)
    · exact Or.inr ⟨p, hp, loc, b, hdue, hsize⟩
    · exact Or.inl ⟨p, hp, loc, b, hdue, by omega, hbackup loc b hdue.was⟩
  · rintro (⟨p, hp, loc, b, hdue, -⟩ | ⟨p, hp, loc, b, hdue, -⟩)
    · exact ⟨p, hp, loc, b, hdue⟩
    · exact ⟨p, hp, loc, b, hdue⟩

end CommandLine
end EpFormat
