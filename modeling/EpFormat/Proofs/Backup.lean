import EpFormat.Proofs.Arguments
import EpFormat.Proofs.Visit
/-!
# Backup — what the backup of an overwritten file holds

Each time a file is overwritten its backup is written anew, from the text of the file.  So after a run the backup holds
what the file held before its last change, with what is not UTF-8 replaced.
-/
namespace EpFormat.CommandLine

open Files (Workspace IsTemplate backupOf backupOf_injective)
open Utf8 (Bytes decode encode decode?)

/-- The entry that a place held before its last change, in a list of workspaces one after the other. -/
def LastHeld (past : List Workspace) (loc : Files.Place) (e : Option Files.Entry) : Prop :=
  ∃ before w w' after, past = before ++ w :: w' :: after ∧ w.get? loc = e ∧ w'.get? loc ≠ e
    ∧ ∀ v ∈ after, v.get? loc = w'.get? loc

theorem LastHeld.cons {past : List Workspace} {loc : Files.Place} {e : Option Files.Entry} (h : LastHeld past loc e)
    (w : Workspace) : LastHeld (w :: past) loc e := by
  obtain ⟨before, v, v', after, rfl, hrest⟩ := h
  exact ⟨w :: before, v, v', after, rfl, hrest⟩

/-- A place stays as it is, or it has a last change. -/
theorem same_or_lastHeld (loc : Files.Place) : ∀ (past : List Workspace) (w : Workspace),
    (∀ v ∈ past, v.get? loc = w.get? loc) ∨ ∃ e, LastHeld (w :: past) loc e
  | [], _ => Or.inl (by simp)
  | w' :: past, w => by
    rcases same_or_lastHeld loc past w' with hsame | ⟨e, he⟩
    · by_cases hw : w'.get? loc = w.get? loc
      · left
        intro v hv
        rcases List.mem_cons.1 hv with rfl | hv
        · exact hw
        · rw [hsame v hv, hw]
      · exact Or.inr ⟨w.get? loc, [], w, w', past, rfl, rfl, hw, hsame⟩
    · exact Or.inr ⟨e, he.cons w⟩

/-! ## One step -/

section

variable {w w' : Workspace} (h : Step w w') {loc : Files.Place} (hloc : IsTemplate loc)

include h hloc

theorem step_template : w'.get? loc = w.get? loc ∨ ∃ old new, Overwrites w loc old new w' := by
  rcases h with rfl | ⟨loc', old, new, h⟩
  · exact Or.inl rfl
  · by_cases heq : loc = loc'
    · subst heq
      exact Or.inr ⟨old, new, h⟩
    · exact Or.inl (by rw [h.get?_template hloc, if_neg heq])

/-- **A backup stays as long as its file does.** -/
theorem step_backup (hsame : w'.get? loc = w.get? loc) : w'.get? (backupOf loc) = w.get? (backupOf loc) := by
  rcases h with rfl | ⟨loc', old, new, h⟩
  · rfl
  · have hne : loc ≠ loc' := by
      rintro rfl
      exact h.changes hsame
    rw [h.get?, if_neg (fun heq => h.template.ne_backupOf heq.symm),
      if_neg (fun heq => hne (backupOf_injective hloc h.template heq))]

end

/-! ## All steps -/

theorem backup_stays {loc : Files.Place} (hloc : IsTemplate loc) : ∀ {past : List Workspace} {w : Workspace},
    (w :: past).IsChain Step → (∀ v ∈ past, v.get? loc = w.get? loc) →
      ∀ v ∈ past, v.get? (backupOf loc) = w.get? (backupOf loc)
  | [], _, _, _ => by simp
  | w' :: past, w, hchain, hsame => by
    obtain ⟨hstep, hrest⟩ := List.isChain_cons_cons.1 hchain
    have hw := hsame w' List.mem_cons_self
    have hback := step_backup hstep hloc hw
    intro v hv
    rcases List.mem_cons.1 hv with rfl | hv
    · exact hback
    · rw [← hback]
      exact backup_stays hloc hrest (fun u hu => by rw [hw]; exact hsame u (List.mem_cons_of_mem _ hu)) v hv

/-- A template holds what it held at first, or a text that was written to it. -/
theorem held_or_written {loc : Files.Place} (hloc : IsTemplate loc) : ∀ {past : List Workspace} {w : Workspace},
    (w :: past).IsChain Step → ∀ v ∈ past, v.get? loc = w.get? loc ∨ ∃ t, v.get? loc = some (.file (encode t))
  | [], _, _ => by simp
  | w' :: past, w, hchain => by
    obtain ⟨hstep, hrest⟩ := List.isChain_cons_cons.1 hchain
    have hw' : w'.get? loc = w.get? loc ∨ ∃ t, w'.get? loc = some (.file (encode t)) := by
      rcases step_template hstep hloc with hsame | ⟨old, new, h⟩
      · exact Or.inl hsame
      · exact Or.inr ⟨new, by rw [h.get?_template hloc, if_pos rfl]⟩
    intro v hv
    rcases List.mem_cons.1 hv with rfl | hv
    · exact hw'
    · rcases held_or_written hloc hrest v hv with hsame | hwritten
      · rw [hsame]
        exact hw'
      · exact Or.inr hwritten

theorem LastHeld.held {past : List Workspace} {loc : Files.Place} {w : Workspace} {e : Option Files.Entry}
    (h : LastHeld (w :: past) loc e) (hloc : IsTemplate loc) (hchain : (w :: past).IsChain Step) :
    e = w.get? loc ∨ ∃ t, e = some (.file (encode t)) := by
  obtain ⟨before, v, v', after, heq, rfl, -⟩ := h
  have hv : v ∈ w :: past := by
    rw [heq]
    simp
  rcases List.mem_cons.1 hv with rfl | hv
  · exact Or.inl rfl
  · exact held_or_written hloc hchain v hv

/-- **The backup holds the text that the file held before its last change.** -/
theorem LastHeld.backup {past : List Workspace} {loc : Files.Place} {e : Option Files.Entry} (h : LastHeld past loc e)
    (hloc : IsTemplate loc) (hchain : past.IsChain Step) {w : Workspace} (hw : past.getLast? = some w) :
    ∃ old, e = some (.file old) ∧ w.get? (backupOf loc) = some (.file (encode (decode old))) := by
  obtain ⟨before, v, v', after, rfl, rfl, hne, hsame⟩ := h
  have hpair := (List.isChain_append.1 hchain).2.1
  obtain ⟨hstep, hrest⟩ := List.isChain_cons_cons.1 hpair
  rcases step_template hstep hloc with heq | ⟨old, new, hover⟩
  · exact absurd heq hne
  refine ⟨old, hover.was, ?_⟩
  rw [List.getLast?_append, List.getLast?_cons_cons] at hw
  rw [← hover.get?_backup]
  cases hlast : (v' :: after).getLast? with
  | none => simp at hlast
  | some u =>
    rw [hlast, Option.some_or, Option.some.injEq] at hw
    subst hw
    rcases List.mem_cons.1 (List.mem_of_getLast? hlast) with rfl | hu
    · rfl
    · exact backup_stays hloc hrest hsame u hu

/-- What is changed and is no template is the backup of one that is changed. -/
theorem changed_backup {loc : Files.Place} (hloc : ¬ IsTemplate loc) : ∀ {past : List Workspace} {w : Workspace},
    (w :: past).IsChain Step → ∀ v ∈ past, v.get? loc ≠ w.get? loc →
      ∃ file, IsTemplate file ∧ loc = backupOf file ∧ ∃ u ∈ past, u.get? file ≠ w.get? file
  | [], _, _ => by simp
  | w' :: past, w, hchain => by
    obtain ⟨hstep, hrest⟩ := List.isChain_cons_cons.1 hchain
    intro v hv hne
    by_cases hw : w'.get? loc = w.get? loc
    · have hv' : v ∈ past := by
        rcases List.mem_cons.1 hv with rfl | hv
        · exact absurd hw hne
        · exact hv
      obtain ⟨file, hfile, heq, u, hu, hchanged⟩ := changed_backup hloc hrest v hv' (by rwa [hw])
      refine ⟨file, hfile, heq, ?_⟩
      by_cases hsame : w'.get? file = w.get? file
      · exact ⟨u, List.mem_cons_of_mem _ hu, by rwa [hsame] at hchanged⟩
      · exact ⟨w', List.mem_cons_self, hsame⟩
    · rcases hstep with rfl | ⟨file, old, new, h⟩
      · exact absurd rfl hw
      · refine ⟨file, h.template, ?_, w', List.mem_cons_self, h.changes⟩
        by_contra hback
        refine hw ?_
        rw [h.get?, if_neg (fun heq : loc = file => hloc (heq ▸ h.template)), if_neg hback]

/-! ## The run -/

/-- **When the backup restores the original.**  After a run that writes in place, every file whose bytes it changed is a
template or the backup of one that was changed.  Next to a template stands its backup, and that holds the bytes from
before the run exactly if they are UTF-8 and the template still held them when it was changed for the last time. -/
theorem backup_holds_original_iff (tidier : Perl.Tidier) (files : Workspace) (stdin : Bytes) (args : List Text)
    {loc : Files.Place} {b : Bytes} (hb : files.get? loc = some (.file b))
    (hchanged : (run tidier files stdin (txt "-w" :: args)).files.get? loc ≠ some (.file b)) :
    let past := history tidier files stdin (txt "-w" :: args)
    let left := (run tidier files stdin (txt "-w" :: args)).files
    (IsTemplate loc ∧ (left.get? (backupOf loc) = some (.file b)
        ↔ (decode? b).isSome = true ∧ LastHeld past loc (some (.file b))))
      ∨ ∃ file, IsTemplate file ∧ loc = backupOf file ∧ ∃ w ∈ past, w.get? file ≠ files.get? file := by
  intro past left
  obtain ⟨hhead, hchain⟩ := isChain_history tidier files stdin (txt "-w" :: args)
  have hlast : past.getLast? = some left := getLast?_history tidier files stdin _ (fun o ho => parse_write ho)
  obtain ⟨later, hpast⟩ : ∃ later, past = files :: later := List.head?_eq_some_iff.1 hhead
  rw [show history tidier files stdin (txt "-w" :: args) = files :: later from hpast] at hchain
  have hleft : left ∈ later := by
    rw [hpast] at hlast
    rcases List.mem_cons.1 (List.mem_of_getLast? hlast) with heq | hm
    · exact absurd ((congrArg (fun w => w.get? loc) heq).trans hb) hchanged
    · exact hm
  by_cases hloc : IsTemplate loc
  · refine Or.inl ⟨hloc, ?_⟩
    rcases same_or_lastHeld loc later files with hsame | ⟨e, he⟩
    · exact absurd ((hsame left hleft).trans hb) hchanged
    rw [hpast] at hlast ⊢
    obtain ⟨old, rfl, hback⟩ := he.backup hloc hchain hlast
    constructor
    · intro hb'
      have hbytes : encode (decode old) = b := by simpa using hback.symm.trans hb'
      have hold : old = b := by
        rcases he.held hloc hchain with hfirst | ⟨t, ht⟩
        · exact (by simpa using hfirst.trans hb : old = b)
        · have hutf8 : old = encode t := by simpa using ht
          rw [← hbytes, hutf8, Utf8.decode_encode]
      rw [← hold, ← Utf8.encode_decode_iff]
      exact ⟨hbytes.trans hold.symm, he⟩
    · rintro ⟨hutf8, hheld⟩
      obtain ⟨old', heq, hback'⟩ := hheld.backup hloc hchain hlast
      cases heq
      rw [hback', (Utf8.encode_decode_iff).2 hutf8]
  · right
    obtain ⟨file, hfile, heq, u, hu, hne⟩ := changed_backup hloc hchain left hleft (by rwa [hb])
    exact ⟨file, hfile, heq, u, by rw [hpast]; exact List.mem_cons_of_mem _ hu, hne⟩

/-- A file that is given twice, with a backup from an earlier run next to it: the second visit finds it formatted, and the
backup holds what it held before. -/
theorem backup_holds_original_twice :
    let files : Workspace :=
      ⟨[([txt "a.ep"], .file (encode (txt "<%=1%>\n"))), ([txt "a.ep.bak"], .file (encode (txt "<p>\n")))]⟩
    let args := [txt "-w", txt "a.ep", txt "a.ep"]
    let left := (run .absent files [] args).files
    files.get? [txt "a.ep"] = some (.file (encode (txt "<%=1%>\n")))
      ∧ left.get? [txt "a.ep"] = some (.file (encode (txt "<%= 1 %>\n")))
      ∧ left.get? (backupOf [txt "a.ep"]) = some (.file (encode (txt "<%=1%>\n")))
      ∧ LastHeld (history .absent files [] args) [txt "a.ep"] (some (.file (encode (txt "<%=1%>\n")))) := by
  intro files args left
  have hchanged : left.get? [txt "a.ep"] = some (.file (encode (txt "<%= 1 %>\n"))) := by decide +kernel
  have hback : left.get? (backupOf [txt "a.ep"]) = some (.file (encode (txt "<%=1%>\n"))) := by decide +kernel
  refine ⟨rfl, hchanged, hback, ?_⟩
  rcases @backup_holds_original_iff .absent files [] [txt "a.ep", txt "a.ep"] [txt "a.ep"] _ rfl
    (by rw [hchanged]; decide) with ⟨-, hiff⟩ | ⟨file, hfile, heq, -⟩
  · exact (hiff.1 hback).2
  · exact absurd heq (IsTemplate.ne_backupOf (by decide))

/-- A byte that is no UTF-8 is lost: the backup holds what the byte was read as. -/
theorem backup_replaces_byte :
    let left := (run .absent ⟨[([txt "a.ep"], .file [0xff])]⟩ [] [txt "-w", txt "a.ep"]).files
    left.get? [txt "a.ep"] = some (.file [0xef, 0xbf, 0xbd, 0x0a])
      ∧ left.get? [txt "a.ep.bak"] = some (.file [0xef, 0xbf, 0xbd]) := by
  decide +kernel

end EpFormat.CommandLine
