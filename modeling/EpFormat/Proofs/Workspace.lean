import Mathlib
import EpFormat.Config
import EpFormat.Files.Workspace
import EpFormat.Proofs.Lines
import EpFormat.Proofs.Trim
/-!
# Workspace — places, and what a written file leaves as it was

A file that is written is found at its place and nowhere else (`get?_set`).  It makes no directory and takes none away, so
paths lead where they led (`SameFolders.locate_iff`) and what was a directory still is one (`SameFolders.isDirectory_eq`).
The backup of a template stands next to it, under a name that no template has (`locate_backup`, `not_template_backup`).
-/
namespace EpFormat

/-! ## Names of templates -/

theorem getLast?_lowerAux : ∀ (t done before : Text), (lowerAux done before (t ++ ['k'])).getLast? = some 'k'
  | [], done, before => by
    have hk : lowerAux done before ['k'] = done.reverse ++ ['k'] := by
      simp [lowerAux, show lowerChar 'k' = 'k' by decide]
    rw [List.nil_append, hk, List.getLast?_append]
    rfl
  | c :: t, done, before => by
    rw [List.cons_append, lowerAux]
    split
    · exact getLast?_lowerAux t _ _
    · split
      · exact getLast?_lowerAux t _ _
      · exact getLast?_lowerAux t _ _

theorem Text.mem_join_of_mem {sep : Text} {c : Char} : ∀ {ls : List Text} {l : Text}, l ∈ ls → c ∈ l → c ∈ Text.join sep ls
  | [k], l, hl, hc => by
    rw [List.mem_singleton.1 hl] at hc
    simpa [Text.join] using hc
  | k :: m :: ls, l, hl, hc => by
    rw [Text.join, List.intercalate_cons_cons, List.mem_append]
    rcases List.mem_cons.1 hl with rfl | hl
    · exact Or.inl (List.mem_append_left _ hc)
    · exact Or.inr (Text.mem_join_of_mem hl hc)

namespace Files

/-- The place is named like a template. -/
def IsTemplate (loc : Place) : Prop := Path.hasExtension templateExtensions ⟨[], loc⟩ = true

instance (loc : Place) : Decidable (IsTemplate loc) := inferInstanceAs (Decidable (_ = _))

/-- The place of the backup of what is at a place. -/
def backupOf (loc : Place) : Place := (Path.backup ⟨[], loc⟩).parts

theorem Path.name_backup (p : Path) : p.backup.name = p.name ++ txt ".bak" := by
  simp [Path.name, Path.backup]

theorem Path.hasExtension_iff (p : Path) :
    p.hasExtension templateExtensions = true ↔ txt ".ep" <:+ Text.lower p.name := by
  have hep : ∀ e ∈ templateExtensions, txt ".ep" <:+ e := by decide
  rw [Path.hasExtension, List.any_eq_true]
  constructor
  · rintro ⟨e, he, hends⟩
    exact (hep e he).trans (Text.endsWith_iff.1 hends)
  · intro h
    exact ⟨txt ".ep", by decide, Text.endsWith_iff.2 h⟩

theorem Path.not_hasExtension_backup (p : Path) : p.backup.hasExtension templateExtensions = false := by
  rw [← Bool.not_eq_true, Path.hasExtension_iff, Path.name_backup]
  have hlast : (Text.lower (p.name ++ txt ".bak")).getLast? = some 'k' := by
    rw [show p.name ++ txt ".bak" = (p.name ++ txt ".ba") ++ ['k'] by simp [txt]]
    exact getLast?_lowerAux _ [] []
  rintro ⟨s, hs⟩
  rw [← hs, List.getLast?_append, show (txt ".ep").getLast? = some 'p' by decide] at hlast
  exact absurd hlast (by simp)

theorem not_template_backup (loc : Place) : ¬ IsTemplate (backupOf loc) := by
  intro h
  have := Path.not_hasExtension_backup ⟨[], loc⟩
  rw [show Path.backup ⟨[], loc⟩ = ⟨[], backupOf loc⟩ from rfl] at this
  rw [IsTemplate, this] at h
  cases h

theorem backupOf_concat (dir : Place) (name : Text) : backupOf (dir ++ [name]) = dir ++ [name ++ txt ".bak"] := by
  simp [backupOf, Path.backup, Path.name]

theorem isTemplate_concat (dir : Place) (name : Text) :
    IsTemplate (dir ++ [name]) ↔ Path.hasExtension templateExtensions ⟨[], [name]⟩ = true := by
  rw [IsTemplate, Path.hasExtension_iff, Path.hasExtension_iff]
  simp [Path.name]

theorem IsTemplate.ne_nil {loc : Place} (h : IsTemplate loc) : loc ≠ [] := by
  rintro rfl
  exact absurd h (by decide)

theorem IsTemplate.exists_concat {loc : Place} (h : IsTemplate loc) : ∃ dir name, loc = dir ++ [name] := by
  rcases List.eq_nil_or_concat loc with hnil | ⟨dir, name, hloc⟩
  · exact absurd hnil h.ne_nil
  · exact ⟨dir, name, by rw [hloc, List.concat_eq_append]⟩

theorem backupOf_ne_nil (loc : Place) : backupOf loc ≠ [] := by simp [backupOf, Path.backup]

theorem backupOf_injective {loc loc' : Place} (h : IsTemplate loc) (h' : IsTemplate loc')
    (heq : backupOf loc = backupOf loc') : loc = loc' := by
  obtain ⟨dir, name, rfl⟩ := h.exists_concat
  obtain ⟨dir', name', rfl⟩ := h'.exists_concat
  rw [backupOf_concat, backupOf_concat] at heq
  obtain ⟨hdir, hname⟩ := List.append_inj' heq rfl
  rw [hdir, List.append_cancel_right (List.cons.inj hname).1]

theorem IsTemplate.ne_backupOf {loc loc' : Place} (h : IsTemplate loc) : loc ≠ backupOf loc' := by
  rintro rfl
  exact not_template_backup loc' h

/-! ## Places -/

namespace Workspace

theorem get?_nil (w : Workspace) : w.get? [] = some .directory := rfl

/-- **What is set at a place is there, and nothing else changes.** -/
theorem get?_set {loc : Place} (h : loc ≠ []) (w : Workspace) (entry : Entry) (x : Place) :
    (w.set loc entry).get? x = if x = loc then some entry else w.get? x := by
  by_cases hx : x = []
  · subst hx
    rw [if_neg (fun he => h he.symm), get?_nil, get?_nil]
  have hget : ∀ v : Workspace, v.get? x = (v.entries.find? (fun e => e.1 == x)).map (·.2) := fun v => by
    rw [get?, if_neg (by simpa using hx)]
  rw [hget, hget, set]
  split
  -- an entry that is there is replaced under its place, so that the search stops where it did
  · rename_i hany
    simp only
    have hkey : (fun e : Place × Entry => e.1 == x) ∘ (fun e => if e.1 == loc then (e.1, entry) else e)
        = fun e => e.1 == x := by
      funext e
      simp only [Function.comp]
      split <;> rfl
    rw [List.find?_map, hkey, Option.map_map]
    by_cases hxl : x = loc
    · subst hxl
      rw [if_pos rfl]
      obtain ⟨e, he, hex⟩ := List.any_eq_true.1 hany
      have hfound : (w.entries.find? (fun e => e.1 == x)).isSome = true := List.find?_isSome.2 ⟨e, he, hex⟩
      obtain ⟨f, hf⟩ := Option.isSome_iff_exists.1 hfound
      have hfx := List.find?_some hf
      rw [hf, Option.map_some, Function.comp_apply, if_pos hfx]
    · rw [if_neg hxl]
      cases hf : w.entries.find? (fun e => e.1 == x) with
      | none => rfl
      | some f =>
        have hfx := List.find?_some hf
        have hne : ¬ (f.1 == loc) = true := fun hfl => hxl ((beq_iff_eq.1 hfx).symm.trans (beq_iff_eq.1 hfl))
        rw [Option.map_some, Option.map_some, Function.comp_apply, if_neg hne]
  -- a new entry comes last, and is found only if the search comes to it
  · rename_i hany
    simp only
    rw [List.find?_append]
    by_cases hxl : x = loc
    · subst hxl
      have hnone : w.entries.find? (fun e => e.1 == x) = none := by
        rw [List.find?_eq_none]
        intro e he hex
        exact hany (List.any_eq_true.2 ⟨e, he, hex⟩)
      rw [hnone, if_pos rfl]
      simp
    · rw [if_neg hxl]
      cases w.entries.find? (fun e => e.1 == x) with
      | some f => rfl
      | none => simp [Ne.symm hxl]

theorem mem_of_get? {w : Workspace} {loc : Place} {bytes : Utf8.Bytes} (h : w.get? loc = some (.file bytes)) :
    (loc, .file bytes) ∈ w.entries := by
  unfold get? at h
  split at h
  · cases h
  · obtain ⟨e, he, heq⟩ := Option.map_eq_some_iff.1 h
    have hloc : e.1 = loc := by simpa using List.find?_some he
    rw [← hloc, ← heq]
    exact List.mem_of_find?_eq_some he

theorem follow_directory {w : Workspace} {here : Place} (h : w.get? here = some .directory) (path part : Text)
    (rest : List Text) : w.follow path here (part :: rest)
      = if part = ['.', '.'] then
          if here.isEmpty then .error (.notFound path) else w.follow path here.dropLast rest
        else if 255 < Utf8.size part then .error (.nameTooLong path)
        else w.follow path (here ++ [part]) rest := by
  rw [follow, h]

theorem follow_eq_ok_of_cons {w : Workspace} {path part : Text} {rest : List Text} {here loc : Place}
    (h : w.follow path here (part :: rest) = .ok loc) : w.get? here = some .directory := by
  unfold follow at h
  split at h
  · cases h
  · cases h
  · assumption

theorem follow_append (w : Workspace) (path : Text) : ∀ (a b : List Text) (here : Place),
    w.follow path here (a ++ b) = (w.follow path here a).bind (fun there => w.follow path there b)
  | [], _, _ => rfl
  | part :: a, b, here => by
    rw [List.cons_append, follow, follow]
    split
    · rfl
    · rfl
    · split
      · split
        · rfl
        · exact follow_append w path a b _
      · split
        · rfl
        · exact follow_append w path a b _

/-- Where a path leads does not depend on what messages call it. -/
theorem follow_eq_ok_iff (w : Workspace) (path path' : Text) {loc : Place} : ∀ (parts : List Text) (here : Place),
    w.follow path here parts = .ok loc ↔ w.follow path' here parts = .ok loc
  | [], _ => Iff.rfl
  | part :: rest, here => by
    unfold follow
    split
    · simp
    · simp
    · split
      · split
        · simp
        · exact follow_eq_ok_iff w path path' rest _
      · split
        · simp
        · exact follow_eq_ok_iff w path path' rest _

/-! ## Workspaces with the same directories -/

/-- The two workspaces have the same directories. -/
def SameFolders (w w' : Workspace) : Prop := ∀ loc, w.get? loc = some .directory ↔ w'.get? loc = some .directory

theorem SameFolders.refl (w : Workspace) : SameFolders w w := fun _ => Iff.rfl

theorem sameFolders_set {w : Workspace} {loc : Place} (h : w.get? loc ≠ some .directory) (bytes : Utf8.Bytes) :
    SameFolders w (w.set loc (.file bytes)) := by
  intro x
  have hne : loc ≠ [] := by
    rintro rfl
    exact h rfl
  rw [get?_set hne]
  by_cases hx : x = loc
  · subst hx
    simp [h]
  · rw [if_neg hx]

/-- An error that only more directories can mend, or none. -/
def lasting : FileError → Option FileError
  | .nameTooLong path => some (.nameTooLong path)
  | _ => none

theorem follow_stuck {w : Workspace} {here : Place} (h : w.get? here ≠ some .directory) (path part : Text)
    (rest : List Text) : (w.follow path here (part :: rest)).mapError lasting = .error none := by
  unfold follow
  split
  · rfl
  · rfl
  · rename_i hdir
    exact absurd hdir h

theorem SameFolders.follow {w w' : Workspace} (h : SameFolders w w') (path : Text) : ∀ (parts : List Text) (here : Place),
    (w.follow path here parts).mapError lasting = (w'.follow path here parts).mapError lasting
  | [], _ => rfl
  | part :: rest, here => by
    by_cases hdir : w.get? here = some .directory
    · rw [follow_directory hdir, follow_directory ((h here).1 hdir)]
      split
      · split
        · rfl
        · exact h.follow path rest _
      · split
        · rfl
        · exact h.follow path rest _
    · rw [follow_stuck hdir, follow_stuck (fun hd => hdir ((h here).2 hd))]

theorem SameFolders.locate {w w' : Workspace} (h : SameFolders w w') (p : Path) :
    (w.locate p).mapError lasting = (w'.locate p).mapError lasting := by
  unfold Workspace.locate
  split
  · exact h.follow _ _ _
  · rfl

theorem SameFolders.locate_iff {w w' : Workspace} (h : SameFolders w w') {p : Path} {loc : Place} :
    w.locate p = .ok loc ↔ w'.locate p = .ok loc := by
  have hsame := h.locate p
  have hok : ∀ v : Workspace, v.locate p = .ok loc ↔ (v.locate p).mapError lasting = .ok loc := fun v => by
    cases v.locate p <;> simp [Except.mapError]
  rw [hok w, hok w', hsame]

/-- **A path that leads to a directory does so as long as the directories are the same.** -/
theorem SameFolders.isDirectory_eq {w w' : Workspace} (h : SameFolders w w') (p : Path) :
    w.isDirectory p = w'.isDirectory p := by
  have hsame := h.locate p
  have hdir : ∀ v : Workspace, v.isDirectory p = if hasNul p then .ok false else
      match (v.locate p).mapError lasting with
      | .ok here => .ok (decide (v.get? here = some .directory))
      | .error none => .ok false
      | .error (some e) => .error e := by
    intro v
    unfold isDirectory
    split
    · rfl
    · cases v.locate p with
      | ok here => rfl
      | error e => cases e <;> rfl
  rw [hdir w, hdir w', hsame]
  split
  · rfl
  · cases (w'.locate p).mapError lasting with
    | error e => cases e <;> rfl
    | ok here => simp [h here]

/-! ## Reading and writing -/

theorem read_eq_ok_iff {w : Workspace} {p : Path} {bytes : Utf8.Bytes} :
    w.read p = .ok bytes ↔ hasNul p = false ∧ ∃ loc, w.locate p = .ok loc ∧ w.get? loc = some (.file bytes) := by
  unfold read
  cases hasNul p with
  | true => simp
  | false =>
    cases w.locate p with
    | error e => simp
    | ok loc =>
      cases hget : w.get? loc with
      | none => simp [hget]
      | some entry => cases entry <;> simp [hget]

theorem write_eq_ok_iff {w w' : Workspace} {p : Path} {bytes : Utf8.Bytes} :
    w.write p bytes = .ok w' ↔ hasNul p = false ∧
      ∃ loc, w.locate p = .ok loc ∧ w.get? loc ≠ some .directory ∧ w.set loc (.file bytes) = w' := by
  unfold write
  cases hasNul p with
  | true => simp
  | false =>
    cases w.locate p with
    | error e => simp
    | ok loc =>
      cases hget : w.get? loc with
      | none => simp [hget]
      | some entry => cases entry <;> simp [hget]

/-- **What was written is read.** -/
theorem read_of_write {w w' : Workspace} {p : Path} {bytes : Utf8.Bytes} (h : w.write p bytes = .ok w') :
    w'.read p = .ok bytes := by
  obtain ⟨hnul, loc, hloc, hdir, rfl⟩ := write_eq_ok_iff.1 h
  have hne : loc ≠ [] := by
    rintro rfl
    exact hdir rfl
  refine read_eq_ok_iff.2 ⟨hnul, loc, (sameFolders_set hdir bytes).locate_iff.1 hloc, ?_⟩
  rw [get?_set hne, if_pos rfl]

/-- Whether a file can be written, and what is wrong if not, does not depend on the bytes. -/
theorem write_bytes (w : Workspace) (p : Path) (bytes bytes' : Utf8.Bytes) :
    (w.write p bytes).map (fun _ => ()) = (w.write p bytes').map (fun _ => ()) := by
  unfold write
  split
  · rfl
  · cases w.locate p with
    | error e => rfl
    | ok loc =>
      simp only
      split <;> rfl

/-! ## The backup of a template -/

/-- The backup of what is at a place can be written: its name is not too long, and it is no directory. -/
def Backable (w : Workspace) (loc : Place) : Prop :=
  Utf8.size (Path.name ⟨[], backupOf loc⟩) ≤ 255 ∧ w.get? (backupOf loc) ≠ some .directory

instance (w : Workspace) (loc : Place) : Decidable (w.Backable loc) := inferInstanceAs (Decidable (_ ∧ _))

theorem SameFolders.backable_iff {w w' : Workspace} (h : SameFolders w w') (loc : Place) : w.Backable loc ↔ w'.Backable loc :=
  and_congr_right (fun _ => not_congr (h _))

section

variable {w : Workspace} {p : Path} (hp : p.hasExtension templateExtensions = true)

include hp

theorem name_ne_of_template : p.name ≠ [] ∧ p.name ≠ ['.', '.'] := by
  rw [Path.hasExtension_iff] at hp
  constructor
  · intro h
    rw [h] at hp
    exact absurd hp (by decide)
  · intro h
    rw [h] at hp
    exact absurd hp (by decide)

theorem parts_of_template : p.parts = p.parts.dropLast ++ [p.name] := by
  have hne : p.parts ≠ [] := by
    intro h
    exact (name_ne_of_template hp).1 (by rw [Path.name, h]; rfl)
  rw [Path.name, List.getLast?_eq_some_getLast hne]
  exact (List.dropLast_concat_getLast hne).symm

/-- **A template stands under its name in a directory.** -/
theorem locate_template {loc : Place} : w.locate p = .ok loc ↔ p.root = [] ∧ Utf8.size p.name ≤ 255 ∧
    ∃ dir, w.follow p.toText [] p.parts.dropLast = .ok dir ∧ w.get? dir = some .directory ∧ dir ++ [p.name] = loc := by
  have hlast : ∀ dir, w.get? dir = some .directory → w.follow p.toText dir [p.name]
      = if 255 < Utf8.size p.name then .error (.nameTooLong p.toText) else .ok (dir ++ [p.name]) := by
    intro dir hdir
    rw [follow_directory hdir, if_neg (name_ne_of_template hp).2]
    rfl
  unfold locate
  rw [parts_of_template hp, follow_append, List.dropLast_concat]
  constructor
  · intro h
    split at h
    · rename_i hroot
      cases hdir : w.follow p.toText [] p.parts.dropLast with
      | error e => rw [hdir] at h; cases h
      | ok dir =>
        rw [hdir] at h
        have hfolder := follow_eq_ok_of_cons h
        have hname := (hlast dir hfolder).symm.trans h
        split at hname
        · cases hname
        · exact ⟨List.isEmpty_iff.1 hroot, by omega, dir, rfl, hfolder, Except.ok.inj hname⟩
    · cases h
  · rintro ⟨hroot, hsize, dir, hdir, hfolder, rfl⟩
    rw [if_pos (by rw [hroot]; rfl), hdir]
    exact (hlast dir hfolder).trans (if_neg (by omega))

theorem isTemplate_of_locate {loc : Place} (h : w.locate p = .ok loc) : IsTemplate loc := by
  obtain ⟨-, -, dir, -, -, rfl⟩ := (locate_template hp).1 h
  rw [Path.hasExtension_iff] at hp
  rw [isTemplate_concat, Path.hasExtension_iff]
  exact hp

/-- **The backup of a template stands next to it**, unless its name is too long. -/
theorem locate_backup {loc : Place} (h : w.locate p = .ok loc) : w.locate p.backup
    = if Utf8.size (Path.name ⟨[], backupOf loc⟩) ≤ 255 then .ok (backupOf loc) else .error (.nameTooLong p.backup.toText) := by
  obtain ⟨hroot, -, dir, hdir, hfolder, rfl⟩ := (locate_template hp).1 h
  have hname : p.name ++ txt ".bak" ≠ ['.', '.'] := by
    intro hd
    have := congrArg List.length hd
    simp [txt] at this
  have hback : Path.name ⟨[], backupOf (dir ++ [p.name])⟩ = p.name ++ txt ".bak" := by
    rw [backupOf_concat]
    simp [Path.name]
  have hparts : p.backup.parts = p.parts.dropLast ++ [p.name ++ txt ".bak"] := rfl
  unfold locate
  rw [if_pos (by rw [show p.backup.root = p.root from rfl, hroot]; rfl), hparts, follow_append,
    (follow_eq_ok_iff w _ p.toText _ _).2 hdir, hback, backupOf_concat]
  show w.follow p.backup.toText dir [p.name ++ txt ".bak"] = _
  rw [follow_directory hfolder, if_neg hname]
  by_cases hsize : Utf8.size (p.name ++ txt ".bak") ≤ 255
  · rw [if_neg (by omega), if_pos hsize]
    rfl
  · rw [if_pos (by omega), if_neg hsize]

theorem hasNul_backup (h : hasNul p = false) : hasNul p.backup = false := by
  have htext : ∀ {q : Path}, q.parts ≠ [] → q.toText = q.root ++ Text.join ['/'] q.parts := fun hq => by
    rw [Path.toText, if_neg (by simp [hq])]
  have hne : p.parts ≠ [] := by
    rw [parts_of_template hp]
    simp
  rw [hasNul, List.any_eq_false, htext hne] at h
  rw [hasNul, List.any_eq_false, htext (by simp [Path.backup])]
  intro c hc
  rcases List.mem_append.1 hc with hc | hc
  · exact h c (List.mem_append_left _ hc)
  · have hin : ∀ part ∈ p.parts, c ∈ part → ¬ decide (c.toNat = 0) = true := fun part hpart hm =>
      h c (List.mem_append_right _ (Text.mem_join_of_mem hpart hm))
    rcases Text.mem_join hc with hc | ⟨part, hpart, hm⟩
    · rw [List.mem_singleton.1 hc]
      decide
    · rw [show p.backup.parts = p.parts.dropLast ++ [p.name ++ txt ".bak"] from rfl] at hpart
      rcases List.mem_append.1 hpart with hpart | hpart
      · exact hin part (List.dropLast_subset _ hpart) hm
      · rw [List.mem_singleton.1 hpart] at hm
        rcases List.mem_append.1 hm with hm | hm
        · exact hin p.name (by rw [parts_of_template hp]; simp) hm
        · exact Text.forall_mem_of_all (p := fun c => ¬ decide (c.toNat = 0) = true) (t := txt ".bak") (by decide) c hm

theorem write_backup_iff {w' : Workspace} {loc : Place} (hnul : hasNul p = false) (h : w.locate p = .ok loc)
    (bytes : Utf8.Bytes) :
    w.write p.backup bytes = .ok w' ↔ w.Backable loc ∧ w.set (backupOf loc) (.file bytes) = w' := by
  rw [write_eq_ok_iff, locate_backup hp h, Backable]
  by_cases hsize : Utf8.size (Path.name ⟨[], backupOf loc⟩) ≤ 255
  · simp [hsize, hasNul_backup hp hnul]
  · simp [hsize]

end

end Workspace
end Files
end EpFormat
