import Mathlib.Data.List.Forall2
import EpFormat.Proofs.Layout
/-!
# Dedent — the indentation that lines share

The indentation that lines share is found line by line.  At each step the texts of spaces and tabs that begin it are the
texts that begin every line with ink so far (`prefix_commonPadFrom_iff`), so in the end it is the longest such text.
Dedenting takes it from every line with ink (`dedent_exact`).  What is left shares no indentation, and dedenting it again
changes nothing (`dedent_idem`).
-/
namespace EpFormat.Perl

/-- The longest text of spaces and tabs that every line with ink begins with. -/
structure IsCommonPad (ls : List Text) (ind : Text) : Prop where
  pad : ∀ c ∈ ind, isPad c = true
  starts : ∀ l ∈ ls, allBlank l = false → ind <+: l
  longest : ∀ p : Text, (∀ c ∈ p, isPad c = true) → (∀ l ∈ ls, allBlank l = false → p <+: l) → p.length ≤ ind.length

/-- A line without an indentation; a blank line stays blank. -/
structure Dedented (ind line out : Text) : Prop where
  ink : allBlank line = false → line = ind ++ out
  blank : allBlank out = allBlank line

/-! ## Beginnings that texts share -/

theorem prefix_commonStart_iff {p : Text} : ∀ {s t : Text}, p <+: commonStart s t ↔ p <+: s ∧ p <+: t := by
  induction p with
  | nil => simp
  | cons c p ih =>
    intro s t
    cases s with
    | nil => simp [commonStart]
    | cons a s =>
      cases t with
      | nil => simp [commonStart]
      | cons b t =>
        rw [commonStart]
        split
        · rename_i hab
          subst hab
          rw [List.cons_prefix_cons, List.cons_prefix_cons, List.cons_prefix_cons, ih]
          tauto
        · rename_i hab
          rw [List.cons_prefix_cons, List.cons_prefix_cons]
          simp only [List.prefix_nil, List.cons_ne_nil, false_iff]
          rintro ⟨⟨rfl, -⟩, rfl, -⟩
          exact hab rfl

theorem prefix_leadingPad_iff {p : Text} (hp : ∀ c ∈ p, isPad c = true) {line : Text} :
    p <+: leadingPad line ↔ p <+: line := by
  constructor
  · exact fun h => h.trans (List.takeWhile_prefix _)
  · rintro ⟨rest, rfl⟩
    rw [leadingPad, List.takeWhile_append_of_pos hp]
    exact List.prefix_append p _

/-- **The indentation shared so far**: the texts of spaces and tabs that begin it are those that begin every line with
ink. -/
theorem prefix_commonPadFrom_iff {p : Text} (hp : ∀ c ∈ p, isPad c = true) {ws : Text} : ∀ {ls : List Text} {so : Option Text},
    commonPadFrom so ls = some ws → (p <+: ws ↔ (∀ w ∈ so, p <+: w) ∧ ∀ l ∈ ls, allBlank l = false → p <+: l)
  | [], so, h => by
    rw [commonPadFrom] at h
    simp [h]
  | line :: ls, so, h => by
    unfold commonPadFrom at h
    rw [List.forall_mem_cons]
    split at h
    · rename_i hblank
      rw [prefix_commonPadFrom_iff hp h]
      simp [hblank]
    · rename_i hink
      rw [prefix_commonPadFrom_iff hp h, ← and_assoc]
      refine and_congr_left (fun _ => ?_)
      rw [Bool.not_eq_true] at hink
      cases so with
      | none => simp [hink, prefix_leadingPad_iff hp]
      | some w => simp [hink, prefix_commonStart_iff, prefix_leadingPad_iff hp]

theorem commonPadFrom_eq_none_iff : ∀ {ls : List Text} {so : Option Text},
    commonPadFrom so ls = none ↔ so = none ∧ ∀ l ∈ ls, allBlank l = true
  | [], so => by simp [commonPadFrom]
  | line :: ls, so => by
    unfold commonPadFrom
    rw [List.forall_mem_cons]
    split
    · rename_i hblank
      rw [commonPadFrom_eq_none_iff]
      simp [hblank]
    · rename_i hink
      rw [commonPadFrom_eq_none_iff]
      simp [hink]

theorem prefix_commonPad_iff {p : Text} (hp : ∀ c ∈ p, isPad c = true) {ls : List Text}
    (hink : ∃ l ∈ ls, allBlank l = false) : p <+: commonPad ls ↔ ∀ l ∈ ls, allBlank l = false → p <+: l := by
  cases hws : commonPadFrom none ls with
  | none =>
    obtain ⟨l, hl, hl'⟩ := hink
    rw [(commonPadFrom_eq_none_iff.1 hws).2 l hl] at hl'
    cases hl'
  | some ws =>
    rw [commonPad, hws, Option.getD_some, prefix_commonPadFrom_iff hp hws]
    simp

theorem isCommonPad_commonPad {ls : List Text} (hink : ∃ l ∈ ls, allBlank l = false) : IsCommonPad ls (commonPad ls) where
  pad := isPad_commonPad ls
  starts := (prefix_commonPad_iff (isPad_commonPad ls) hink).1 List.prefix_rfl
  longest _ hp h := ((prefix_commonPad_iff hp hink).2 h).length_le

/-! ## Lines without it -/

theorem append_dropPad {ind line : Text} (h : ind <+: line) : ind ++ dropPad ind line = line := by
  obtain ⟨rest, hrest⟩ := Option.isSome_iff_exists.1 (Text.startsWith_iff.2 h)
  rw [dropPad, hrest, Option.getD_some, ← Text.after?_eq_some hrest]

theorem allBlank_dropPad {ind : Text} (h : ∀ c ∈ ind, isPad c = true) (line : Text) :
    allBlank (dropPad ind line) = allBlank line := by
  rw [← Text.allBlank_trim, trim_dropPad h, Text.allBlank_trim]

theorem dedented_dropPad {ls : List Text} (hink : ∃ l ∈ ls, allBlank l = false) {l : Text} (hl : l ∈ ls) :
    Dedented (commonPad ls) l (dropPad (commonPad ls) l) where
  ink h := (append_dropPad ((isCommonPad_commonPad hink).starts l hl h)).symm
  blank := allBlank_dropPad (isPad_commonPad ls) l

/-- Lines without the indentation that they shared share none. -/
theorem commonPad_dropPad (ls : List Text) : commonPad (ls.map (dropPad (commonPad ls))) = [] := by
  by_cases hink : ∃ l ∈ ls, allBlank l = false
  · have hink' : ∃ k ∈ ls.map (dropPad (commonPad ls)), allBlank k = false := by
      obtain ⟨l, hl, hl'⟩ := hink
      exact ⟨_, List.mem_map_of_mem hl, (dedented_dropPad ⟨l, hl, hl'⟩ hl).blank.trans hl'⟩
    have hrest := isCommonPad_commonPad hink'
    generalize commonPad (ls.map (dropPad (commonPad ls))) = p at hrest
    -- With `p` behind it the shared indentation would be longer.
    have hlong : (commonPad ls ++ p).length ≤ (commonPad ls).length := by
      refine (isCommonPad_commonPad hink).longest _ (List.forall_mem_append.2 ⟨isPad_commonPad ls, hrest.pad⟩) ?_
      intro l hl hl'
      have hcut := dedented_dropPad hink hl
      rw [hcut.ink hl', List.prefix_append_right_inj]
      exact hrest.starts _ (List.mem_map_of_mem hl) (hcut.blank.trans hl')
    rw [List.length_append] at hlong
    exact List.eq_nil_of_length_eq_zero (by omega)
  · have hnone : commonPadFrom none (ls.map (dropPad (commonPad ls))) = none := by
      refine commonPadFrom_eq_none_iff.2 ⟨rfl, fun k hk => ?_⟩
      obtain ⟨l, hl, rfl⟩ := List.mem_map.1 hk
      rw [allBlank_dropPad (isPad_commonPad ls), ← Bool.not_eq_false]
      exact fun hl' => hink ⟨l, hl, hl'⟩
    rw [commonPad, hnone]
    rfl

theorem dedent_idem (t : Text) : dedent (dedent t) = dedent t := by
  rw [dedent, lines_dedent, dropBlankEnds_map (allBlank_dropPad (isPad_commonPad _)), dropBlankEnds_idem,
    commonPad_dropPad]
  exact congrArg Text.unrows (List.map_id _)

/-- **Dedenting takes away exactly the indentation that lines share**: of the lines between the blank ones at both ends,
every line with ink loses the longest text of spaces and tabs that they all begin with. -/
theorem dedent_exact {t : Text} (hink : ∃ l ∈ Text.lines t, allBlank l = false) :
    let ls := dropBlankEnds (Text.lines t)
    (∃ front back, Text.lines t = front ++ (ls ++ back) ∧ ∀ l ∈ front ++ back, allBlank l = true) ∧
      (∃ l ∈ ls.head?, allBlank l = false) ∧ (∃ l ∈ ls.getLast?, allBlank l = false) ∧
      IsCommonPad ls (commonPad ls) ∧ List.Forall₂ (Dedented (commonPad ls)) ls (Text.lines (dedent t)) ∧
      dedent (dedent t) = dedent t := by
  intro ls
  obtain ⟨front, back, hfront, hback, hlines⟩ := exists_dropBlankEnds (Text.lines t)
  have hmid : ∃ l ∈ ls, allBlank l = false := by
    obtain ⟨l, hl, hl'⟩ := hink
    rw [hlines, List.mem_append, List.mem_append] at hl
    rcases hl with hl | hl | hl
    · rw [hfront l hl] at hl'
      cases hl'
    · exact ⟨l, hl, hl'⟩
    · rw [hback l hl] at hl'
      cases hl'
  have hne : ls ≠ [] := by
    obtain ⟨l, hl, -⟩ := hmid
    exact List.ne_nil_of_mem hl
  refine ⟨⟨front, back, hlines, List.forall_mem_append.2 ⟨hfront, hback⟩⟩, ?_, ?_, isCommonPad_commonPad hmid, ?_,
    dedent_idem t⟩
  · obtain ⟨k, hk⟩ := Option.ne_none_iff_exists'.1 (mt List.head?_eq_none_iff.1 hne)
    exact ⟨k, hk, head?_dropBlankEnds hk⟩
  · obtain ⟨k, hk⟩ := Option.ne_none_iff_exists'.1 (mt List.getLast?_eq_none_iff.1 hne)
    exact ⟨k, hk, endsInk_dropBlankEnds _ k hk⟩
  · rw [lines_dedent, List.forall₂_map_right_iff, List.forall₂_same]
    exact fun l hl => dedented_dropPad hmid hl

/-- A blank line in front, one at the back and one between, which is shorter than the indentation; tabs and spaces mixed. -/
theorem dedent_exact_mixed :
    let t := txt " \n\t  if (1) \x7b\n \n\t \tx;\n\t  \x7d\n\n"
    let ls := [txt "\t  if (1) \x7b", txt " ", txt "\t \tx;", txt "\t  \x7d"]
    (∃ l ∈ Text.lines t, allBlank l = false) ∧ dropBlankEnds (Text.lines t) = ls ∧ IsCommonPad ls (txt "\t ") ∧
      List.Forall₂ (Dedented (txt "\t ")) ls [txt " if (1) \x7b", txt " ", txt "\tx;", txt " \x7d"] ∧
      dedent (dedent t) = dedent t := by
  intro t ls
  have hink : ∃ l ∈ Text.lines t, allBlank l = false := ⟨txt "\t \tx;", by decide +kernel, by decide⟩
  have hls : dropBlankEnds (Text.lines t) = ls := by decide +kernel
  have hpad : commonPad ls = txt "\t " := by decide +kernel
  have hout : Text.lines (dedent t) = [txt " if (1) \x7b", txt " ", txt "\tx;", txt " \x7d"] := by decide +kernel
  obtain ⟨-, -, -, hcommon, hlines, hidem⟩ := dedent_exact hink
  rw [hls, hpad] at hcommon hlines
  rw [hout] at hlines
  exact ⟨hink, hls, hcommon, hlines, hidem⟩

end EpFormat.Perl
