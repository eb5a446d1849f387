import EpFormat.Proofs.Lines
import EpFormat.Proofs.Utf8
import EpFormat.Service.Upload
import EpFormat.Service.Worker
/-!
# FileCheck — what the check of a file leaves and what it promises

The check reads the file, and goes back to its start once the bytes are decoded.  So a file that was at its start is at its
start again exactly if its bytes were not found to be other than UTF-8 (`check_rewinds_iff`).  A file that is called valid may
hold any printable character, while the formatter is given visible ASCII and white space only, so that it takes the text of
such a file exactly if the file is ASCII (`valid_file_formats_iff`).
-/
namespace EpFormat

/-! ## Texts and their bytes -/

namespace Utf8

theorem length_encodeChar (c : Char) : (encodeChar c).length = c.utf8Size := by
  have hone := @Char.utf8Size_eq_one_iff c
  have htwo := @Char.utf8Size_eq_two_iff c
  have hthree := @Char.utf8Size_eq_three_iff c
  have hfour := @Char.utf8Size_eq_four_iff c
  rw [UInt32.le_iff_toNat_le] at hone
  rw [UInt32.lt_iff_toNat_lt, UInt32.le_iff_toNat_le] at htwo hthree
  rw [UInt32.lt_iff_toNat_lt] at hfour
  change c.utf8Size = 1 ↔ c.toNat ≤ 127 at hone
  change c.utf8Size = 2 ↔ 127 < c.toNat ∧ c.toNat ≤ 2047 at htwo
  change c.utf8Size = 3 ↔ 2047 < c.toNat ∧ c.toNat ≤ 65535 at hthree
  change c.utf8Size = 4 ↔ 65535 < c.toNat at hfour
  rw [encodeChar]
  split_ifs with h h' h''
  · exact (hone.2 (by omega)).symm
  · exact (htwo.2 (by omega)).symm
  · exact (hthree.2 (by omega)).symm
  · exact (hfour.2 (by omega)).symm

theorem length_encode (t : Text) : (encode t).length = size t := by
  have hfold : ∀ (t : Text) (n : Nat), t.foldl (fun n c => n + c.utf8Size) n = n + (encode t).length := by
    intro t
    induction t with
    | nil => exact fun n => rfl
    | cons c t ih =>
      intro n
      rw [List.foldl_cons, ih, encode, encode, List.flatMap_cons, List.length_append, length_encodeChar, Nat.add_assoc]
  rw [size, hfold, Nat.zero_add]

theorem ascii_encodeChar (c : Char) : (∀ b ∈ encodeChar c, b.toNat < 0x80) ↔ c.toNat < 0x80 := by
  have hmax : c.toNat < 0x110000 := by
    have := c.valid
    rcases this with h | h
    · exact Nat.lt_of_lt_of_le h (by decide)
    · exact h.2
  rw [encodeChar]
  split_ifs with h h' h''
  · rw [List.forall_mem_singleton, toNat_toUInt8 (by omega)]
  all_goals
    refine iff_of_false (fun hb => ?_) h
    have hlead := hb _ List.mem_cons_self
    rw [toNat_toUInt8 (by omega)] at hlead
    omega

theorem ascii_encode (t : Text) : (∀ b ∈ encode t, b.toNat < 0x80) ↔ ∀ c ∈ t, c.toNat < 0x80 := by
  simp only [encode, List.forall_mem_flatMap, ascii_encodeChar]

end Utf8

namespace Service

/-- White space beyond ASCII is not printable. -/
theorem not_isPrintable_of_isBlank {c : Char} (h : 128 ≤ c.toNat) (hc : isBlank c = true) : isPrintable c = false := by
  have hspaces : ∀ n ∈ [0x85, 0xA0, 0x1680, 0x2000, 0x2001, 0x2002, 0x2003, 0x2004, 0x2005, 0x2006, 0x2007, 0x2008, 0x2009,
      0x200A, 0x2028, 0x2029, 0x202F, 0x205F, 0x3000], inRanges n unprintableRanges = true := by decide +kernel
  have hn : ¬ c.toNat < 128 := Nat.not_lt.2 h
  rw [isBlank, if_neg hn] at hc
  rw [isPrintable, if_neg hn, hspaces]
  · rfl
  · simp only [Bool.or_eq_true, Bool.and_eq_true, decide_eq_true_eq] at hc
    simp only [List.mem_cons, List.not_mem_nil, or_false]
    omega

/-- Of the characters of template files, the formatter is given those that are ASCII. -/
theorem isPlain_iff_of_template {c : Char} (h : (isPrintable c || c = '\n' || c = '\r' || c = '\t') = true) :
    isPlain c = true ↔ c.toNat < 0x80 := by
  simp only [Bool.or_eq_true, decide_eq_true_eq] at h
  rcases h with ((h | rfl) | rfl) | rfl
  · constructor
    · intro hp
      by_contra hn
      simp only [isPlain, Bool.or_eq_true, Bool.and_eq_true, decide_eq_true_eq] at hp
      rcases hp with hp | hp
      · omega
      · rw [not_isPrintable_of_isBlank (Nat.not_lt.1 hn) hp] at h
        cases h
    · intro hn
      rw [isPrintable, if_pos hn] at h
      simp only [Bool.and_eq_true, decide_eq_true_eq] at h
      simp only [isPlain, Bool.or_eq_true, Bool.and_eq_true, decide_eq_true_eq]
      exact Or.inl ⟨h.1, Nat.le_of_lt_succ h.2⟩
  all_goals exact iff_of_true (by decide) (by decide)

theorem acceptsText_iff_of_template {t : Text} (h : isTemplateText t = true) :
    acceptsText t = true ↔ Utf8.size t ≤ maxBytes ∧ ∀ c ∈ t, c.toNat < 0x80 := by
  rw [acceptsText, Bool.and_eq_true, decide_eq_true_eq, List.all_eq_true]
  exact and_congr_right fun _ => forall₂_congr fun c hc => isPlain_iff_of_template (List.all_eq_true.1 h c hc)

theorem Worker.run_eq_refused_iff (worker : Worker) (t : Text) : worker.run t = .error .refused ↔ acceptsText t = false := by
  have hcollect : ∀ files, collect files ≠ .error .refused := fun files h => by
    rw [collect] at h
    split at h
    · cases h
    · split at h <;> cases h
  cases ht : acceptsText t with
  | false => simp [run, ht]
  | true =>
    refine iff_of_false (fun h => ?_) (by decide)
    simp only [run, ht, Bool.not_true, Bool.false_eq_true, if_false] at h
    cases worker with
    | working =>
      simp only at h
      split at h
      · exact hcollect _ h
      · cases h
    | silent => exact hcollect _ h
    | missing | failing | timedOut | unstartable => cases h

/-! ## The check step by step -/

namespace Upload

variable {file : Upload}

/-- A file that the check comes to read: its name has one of the endings, and it is not too large. -/
structure IsRead (file : Upload) : Prop where
  name : ∃ name, file.name = some name ∧ name ≠ [] ∧ ∃ e ∈ uploadEndings, e <:+ safeName name
  size : file.content.length ≤ maxBytes

theorem run_checkContent_of_decode? {t : Text} (h : Utf8.decode? (file.content.drop file.position) = some t) :
    Reading.checkContent.run file = (if isTemplateText t then .valid else .wrongContent, { file with position := 0 }) := by
  simp only [Reading.checkContent, Reading.read, StateT.run_bind, StateT.run_get, StateT.run_set, pure_bind, StateT.run_pure, h]
  rfl

theorem run_checkContent_of_none (h : Utf8.decode? (file.content.drop file.position) = none) :
    Reading.checkContent.run file = (.notUtf8, { file with position := max file.position file.content.length }) := by
  simp only [Reading.checkContent, Reading.read, StateT.run_bind, StateT.run_get, StateT.run_set, pure_bind, StateT.run_pure, h]
  rfl

theorem run_size (file : Upload) : Reading.size.run file = (file.content.length, { file with position := 0 }) := rfl

/-- A file with the right name is read from its start, unless it is too large. -/
theorem check_of_name {name : Text} (hname : file.name = some name) (hne : name ≠ [])
    (hend : uploadEndings.any (Text.endsWith · (safeName name)) = true) :
    file.check = if maxBytes < file.content.length then (.tooLarge, { file with position := 0 })
      else Reading.checkContent.run { file with position := 0 } := by
  have hempty : name.isEmpty = false := List.isEmpty_eq_false_iff.2 hne
  simp only [check, Reading.check, StateT.run_bind, StateT.run_get, pure_bind, hname, hempty, hend, run_size,
    Bool.not_true, Bool.false_eq_true, if_false]
  change StateT.run (if maxBytes < file.content.length then pure Verdict.tooLarge else Reading.checkContent) _ = _
  split_ifs <;> rfl

theorem check_of_isRead (h : file.IsRead) : file.check = Reading.checkContent.run { file with position := 0 } := by
  obtain ⟨⟨name, hname, hne, e, he, hend⟩, hsize⟩ := h
  rw [check_of_name hname hne (List.any_eq_true.2 ⟨e, he, Text.endsWith_iff.2 hend⟩), if_neg (Nat.not_lt.2 hsize)]

/-- A file that is not read is left where it was, or at its start. -/
theorem check_of_not_isRead (h : ¬ file.IsRead) :
    file.check.1 ∈ [Verdict.noFile, .wrongType, .tooLarge] ∧
      (file.check.2 = file ∨ file.check.2 = { file with position := 0 }) := by
  cases hname : file.name with
  | none =>
    have hcheck : file.check = (.noFile, file) := by
      simp only [check, Reading.check, StateT.run_bind, StateT.run_get, pure_bind, hname]
      rfl
    rw [hcheck]
    exact ⟨by simp, Or.inl rfl⟩
  | some name =>
    cases hempty : name.isEmpty with
    | true =>
      have hcheck : file.check = (.noFile, file) := by
        simp only [check, Reading.check, StateT.run_bind, StateT.run_get, pure_bind, hname, hempty, if_true]
        rfl
      rw [hcheck]
      exact ⟨by simp, Or.inl rfl⟩
    | false =>
      have hne : name ≠ [] := List.isEmpty_eq_false_iff.1 hempty
      cases hend : uploadEndings.any (Text.endsWith · (safeName name)) with
      | false =>
        have hcheck : file.check = (.wrongType, file) := by
          simp only [check, Reading.check, StateT.run_bind, StateT.run_get, pure_bind, hname, hempty, hend, Bool.not_false,
            Bool.false_eq_true, if_false, if_true]
          rfl
        rw [hcheck]
        exact ⟨by simp, Or.inl rfl⟩
      -- past its name only its size can keep a file from being read, and measuring it takes it to its start
      | true =>
        obtain ⟨e, he, hsuffix⟩ := List.any_eq_true.1 hend
        have hlarge : maxBytes < file.content.length := Nat.not_le.1 (fun hsize =>
          h ⟨⟨name, hname, hne, e, he, Text.endsWith_iff.1 hsuffix⟩, hsize⟩)
        rw [check_of_name hname hne hend, if_pos hlarge, hname]
        exact ⟨by simp, Or.inr rfl⟩

/-- A file with one of the verdicts on what was read has been read. -/
theorem isRead_of_check (h : file.check.1 ∈ [Verdict.valid, .notUtf8, .wrongContent]) : file.IsRead := by
  by_contra hread
  have hother := (check_of_not_isRead hread).1
  generalize file.check.1 = v at h hother
  revert v
  decide

/-- Whether the bytes are UTF-8, if the check comes to read them. -/
def Decodes (file : Upload) : Prop := file.IsRead → ∃ t, file.content = Utf8.encode t

/-- What the check finds in a file that was at its start, and where it leaves it. -/
theorem check_cases (h : file.position = 0) :
    (file.Decodes ∧ file.check.1 ≠ .notUtf8 ∧ file.check.2 = file) ∨
      ¬ file.Decodes ∧ file.check = (.notUtf8, { file with position := file.content.length }) := by
  have hstart : { file with position := 0 } = file := by rw [← h]
  by_cases hread : file.IsRead
  · rw [check_of_isRead hread, hstart]
    cases hdecode : Utf8.decode? (file.content.drop file.position) with
    | some t =>
      rw [run_checkContent_of_decode? hdecode, hstart]
      rw [h, List.drop_zero] at hdecode
      refine Or.inl ⟨fun _ => ⟨t, (Utf8.encode_of_decode? hdecode).symm⟩, ?_, rfl⟩
      cases isTemplateText t <;> exact Verdict.noConfusion
    | none =>
      rw [run_checkContent_of_none hdecode, h, Nat.zero_max]
      refine Or.inr ⟨fun hd => ?_, rfl⟩
      obtain ⟨t, ht⟩ := hd hread
      rw [h, List.drop_zero, ht, Utf8.decode?_encode] at hdecode
      cases hdecode
  · obtain ⟨-, hafter⟩ := check_of_not_isRead hread
    rw [hstart, or_self] at hafter
    exact Or.inl ⟨fun hr => absurd hr hread, fun hv => hread (isRead_of_check (by simp [hv])), hafter⟩

/-- **The check leaves a file at its start, from where it can be read whole, exactly if its bytes are UTF-8 or were not read.**
Otherwise the verdict says that they are not.  The file itself stays as it is. -/
theorem check_rewinds_iff (h : file.position = 0) :
    (file.check.2.position = 0 ↔ file.Decodes) ∧
      ((Reading.read.run file.check.2).1 = file.content ↔ file.Decodes) ∧
      (file.check.1 ≠ .notUtf8 ↔ file.Decodes) ∧
      file.check.2.name = file.name ∧ file.check.2.content = file.content := by
  rcases check_cases h with ⟨hd, hv, hafter⟩ | ⟨hd, hcheck⟩
  · rw [hafter]
    refine ⟨iff_of_true h hd, iff_of_true ?_ hd, iff_of_true hv hd, rfl, rfl⟩
    change file.content.drop file.position = file.content
    rw [h, List.drop_zero]
  · -- The empty file is UTF-8, so there is a byte between the two ends.
    have hne : file.content ≠ [] := fun hnil => hd (fun _ => ⟨[], hnil⟩)
    rw [hcheck]
    refine ⟨iff_of_false (fun hl => hne (List.length_eq_zero_iff.1 hl)) hd, iff_of_false (fun hl => hne ?_) hd,
      iff_of_false (fun hn => hn rfl) hd, rfl, rfl⟩
    change file.content.drop file.content.length = file.content at hl
    rw [← hl, List.drop_length]

/-- A file that holds no template text, behind a name with folders in it. -/
theorem check_rewinds_control :
    let file : Upload := { name := some (txt "../a b.ep"), content := Utf8.encode (txt "\x00é") }
    file.check.1 = .wrongContent ∧ file.check.2.position = 0 ∧ (Reading.read.run file.check.2).1 = file.content := by
  intro file
  have hd : file.Decodes := fun _ => ⟨txt "\x00é", rfl⟩
  obtain ⟨hposition, hread, -⟩ := @check_rewinds_iff file rfl
  exact ⟨by decide +kernel, hposition.2 hd, hread.2 hd⟩

/-- A byte that is not UTF-8 leaves the file read to its end. -/
theorem not_utf8_not_rewound :
    let file : Upload := { name := some (txt "a.ep"), content := [0xFF] }
    file.position = 0 ∧ file.check = (.notUtf8, { file with position := 1 }) ∧ (Reading.read.run file.check.2).1 = [] := by
  intro file
  have hcheck : file.check = (.notUtf8, { file with position := 1 }) := by rfl
  exact ⟨rfl, hcheck, by rw [hcheck]; rfl⟩

/-! ## Files called valid -/

/-- What is called valid is a text of template characters, and not too large. -/
theorem exists_text_of_valid (h : file.check.1 = .valid) :
    ∃ t, file.content = Utf8.encode t ∧ isTemplateText t = true ∧ Utf8.size t ≤ maxBytes := by
  have hread : file.IsRead := isRead_of_check (by simp [h])
  rw [check_of_isRead hread] at h
  cases hdecode : Utf8.decode? file.content with
  | none =>
    rw [@run_checkContent_of_none { file with position := 0 } hdecode] at h
    cases h
  | some t =>
    rw [@run_checkContent_of_decode? { file with position := 0 } t hdecode] at h
    have hcontent := Utf8.encode_of_decode? hdecode
    refine ⟨t, hcontent.symm, ?_, ?_⟩
    · by_contra ht
      rw [if_neg ht] at h
      cases h
    · rw [← Utf8.length_encode, hcontent]
      exact hread.size

/-- **The formatter takes the text of a file that was called valid exactly if the file is ASCII.**  A byte beyond is the only
reason to refuse it; the size never is. -/
theorem valid_file_formats_iff (h : file.check.1 = .valid) :
    ∃ t, Utf8.decode? file.content = some t ∧ Utf8.size t ≤ maxBytes ∧
      (acceptsText t = true ↔ ∀ b ∈ file.content, b.toNat < 0x80) ∧
      ∀ worker : Worker, worker.run t = .error .refused ↔ ∃ b ∈ file.content, 0x80 ≤ b.toNat := by
  obtain ⟨t, hcontent, htemplate, hsize⟩ := exists_text_of_valid h
  have haccepts : acceptsText t = true ↔ ∀ b ∈ file.content, b.toNat < 0x80 := by
    rw [acceptsText_iff_of_template htemplate, and_iff_right hsize, hcontent, Utf8.ascii_encode]
  refine ⟨t, by rw [hcontent, Utf8.decode?_encode], hsize, haccepts, fun worker => ?_⟩
  rw [worker.run_eq_refused_iff, ← Bool.not_eq_true, haccepts]
  simp only [not_forall, Nat.not_lt, exists_prop]

/-- Line ends, a tab and every mark of ASCII. -/
theorem valid_file_formats_ascii :
    let file : Upload :=
      { name := some (txt "list.html.ep"), content := Utf8.encode (txt "% my $x = q(~);\r\n\t<b> <%= $x %></b>\n") }
    file.check.1 = .valid ∧ ∃ t, Utf8.decode? file.content = some t ∧ acceptsText t = true := by
  intro file
  have hvalid : file.check.1 = .valid := by decide +kernel
  obtain ⟨t, hdecode, -, haccepts, -⟩ := @valid_file_formats_iff file hvalid
  exact ⟨hvalid, t, hdecode, haccepts.2 (by decide +kernel)⟩

/-- A letter beyond ASCII is printable, so that a file with it is called valid, and its text is refused. -/
theorem valid_file_refused :
    let file : Upload := { name := some (txt "a.ep"), content := Utf8.encode (txt "é") }
    file.check.1 = .valid ∧ Utf8.decode? file.content = some (txt "é") ∧ acceptsText (txt "é") = false ∧
      Worker.working.run (txt "é") = .error .refused := by
  intro file
  have hrefused : acceptsText (txt "é") = false := by decide +kernel
  exact ⟨by decide +kernel, by decide +kernel, hrefused, (Worker.working.run_eq_refused_iff _).2 hrefused⟩

end Upload
end Service
end EpFormat
