import EpFormat.Proofs.Glued
/-!
# Usable — when a printed patch can be carried out

A patch names the file in its first two rows, and the name is printed as it is.  A line feed in the name makes rows of their
own, which then stand twice, and no reader gets through them (`applyPatch_feed_name`).  With any other name, a patch turns the
one text into the other if its rows can be told apart, and is refused if not: it never makes a third text
(`applyPatch_unified`).
-/
namespace EpFormat.Diff

/-! ## A name with a line feed in it -/

theorem Row.size_eq {r r' : Row} (h : r.text.head? = r'.text.head?) : r.size = r'.size := by
  cases r <;> cases r' <;> first | rfl | simp [Row.text] at h

namespace Progress

/-- How many lines are due after a row, if `n` were due before it: a head says it, and any other row counts down. -/
def due (n : Nat) (w : Text) : Nat :=
  if n = 0 then ((readHead w).map fun ranges => ranges.1.count + ranges.2.count).getD 0 else n - weight w

theorem step_due {s s' : Progress} {w : Text} (h : s.step w = some s') : s'.old + s'.new = due (s.old + s.new) w := by
  rcases step_eq_some h with ⟨hdone, ranges, hhead, hseek⟩ | ⟨hmore, r, rfl, htake⟩
  · obtain ⟨-, hold, hnew⟩ := seek_eq_some hseek
    rw [due, if_pos hdone, hhead, Option.map_some, Option.getD_some, hold, hnew]
  · obtain ⟨-, hold, hnew⟩ := take_eq_some htake
    rw [due, if_neg hmore, weight_text, Row.size]
    omega

theorem run_due : ∀ {ws : List Text} {s s' : Progress}, s.run ws = some s' → s'.old + s'.new = ws.foldl due (s.old + s.new)
  | [], s, s', h => by
    cases h
    rfl
  | w :: ws, s, s', h => by
    obtain ⟨s₁, hstep, hrun⟩ := Option.bind_eq_some_iff.1 h
    rw [run_due hrun, step_due hstep, List.foldl_cons]

/-- Nothing stands behind the head of a hunk. -/
theorem readHead_formatted (y : Text) : readHead (y ++ txt " (formatted)\n") = none := by
  cases h : readHead (y ++ txt " (formatted)\n") with
  | none => rfl
  | some ranges =>
    obtain ⟨t, ht⟩ := (readHead_ends h).2
    have hreverse := congrArg List.reverse ht
    simp [txt] at hreverse

theorem exists_at_of_step {s s' : Progress} {w : Text} (hs : s.old + s.new = 0) (h : s.step w = some s') :
    ∃ t, w = '@' :: t := by
  rcases step_eq_some h with ⟨-, ranges, hhead, -⟩ | ⟨hmore, -⟩
  · exact exists_at_of_readHead hhead
  · exact absurd hs hmore

/-- A row counts the same with more text in it, if it can be read at all. -/
theorem step_formatted {s s' t t' : Progress} {y : Text} (hsame : s.old + s.new = s'.old + s'.new)
    (h : s.step (y ++ ['\n']) = some t) (h' : s'.step (y ++ txt " (formatted)\n") = some t') :
    t.old + t.new = t'.old + t'.new := by
  rcases step_eq_some h' with ⟨-, ranges, hhead, -⟩ | ⟨hmore, r', hr', -⟩
  · rw [readHead_formatted] at hhead
    cases hhead
  · rcases step_eq_some h with ⟨hnone, -⟩ | ⟨-, r, hr, -⟩
    · exact absurd (hsame ▸ hnone) hmore
    · have hmark : r.text.head? = r'.text.head? := by
        cases y with
        | nil => cases r <;> cases hr
        | cons c y =>
          rw [← hr, ← hr']
          rfl
      rw [step_due h, step_due h', hsame, due, due, if_neg hmore, if_neg hmore, hr, hr', weight_text, weight_text,
        Row.size_eq hmark]

/-- Rows that are read twice, the second time with more text in the last of them: if a head begins them, they begin and end at
the same counts both times. -/
theorem run_again {s s' t t' : Progress} {ys : List Text} {y : Text} (hs : s.old + s.new = 0)
    (h : s.run (ys ++ [y ++ ['\n']]) = some t) (h' : s'.run (ys ++ [y ++ txt " (formatted)\n"]) = some t') :
    t.old + t.new = t'.old + t'.new := by
  rw [run_append] at h h'
  obtain ⟨s₁, hfirst, h⟩ := Option.bind_eq_some_iff.1 h
  obtain ⟨s₁', hfirst', h'⟩ := Option.bind_eq_some_iff.1 h'
  obtain ⟨s₂, hy, hend⟩ := Option.bind_eq_some_iff.1 h
  obtain ⟨s₂', hy', hend'⟩ := Option.bind_eq_some_iff.1 h'
  cases hend
  cases hend'
  have hagain : s'.old + s'.new = 0 := by
    cases ys with
    | nil =>
      cases hfirst
      cases hfirst'
      obtain ⟨q, hq⟩ := exists_at_of_step hs hy
      cases y with
      | nil => cases hq
      | cons c y =>
        obtain rfl : c = '@' := (List.cons.inj hq).1
        exact done_of_step hy'
    | cons w ys =>
      obtain ⟨r, hw, -⟩ := Option.bind_eq_some_iff.1 hfirst
      obtain ⟨r', hw', -⟩ := Option.bind_eq_some_iff.1 hfirst'
      obtain ⟨q, rfl⟩ := exists_at_of_step hs hw
      exact done_of_step hw'
  exact step_formatted (by rw [run_due hfirst, run_due hfirst', hs, hagain]) hy hy'

/-- Rows that stand twice in a patch, with a row between them that gives a line.  So lines are due after the first time, and
none may be after the second, where the head of a hunk follows. -/
theorem run_twice {s : Progress} (hs : s.old + s.new = 0) (ys : List Text) (y u x t : Text) :
    s.run (ys ++ (y ++ ['\n']) :: ('+' :: u) :: x :: (ys ++ (y ++ txt " (formatted)\n") :: feedLines ('@' :: t))) = none := by
  have hcut : ys ++ (y ++ ['\n']) :: ('+' :: u) :: x :: (ys ++ (y ++ txt " (formatted)\n") :: feedLines ('@' :: t))
      = (ys ++ [y ++ ['\n']]) ++ ([('+' :: u), x] ++ ((ys ++ [y ++ txt " (formatted)\n"]) ++ feedLines ('@' :: t))) := by
    simp
  rw [hcut, run_append, Option.bind_eq_none_iff]
  intro s₁ hfirst
  rw [run_append, Option.bind_eq_none_iff]
  intro s₂ hbetween
  rw [run_append, Option.bind_eq_none_iff]
  intro s₃ hsecond
  rw [Option.eq_none_iff_forall_ne_some]
  intro s' hrest
  obtain ⟨r, hplus, -⟩ := Option.bind_eq_some_iff.1 hbetween
  have hdue : s₁.old + s₁.new ≠ 0 := by
    intro hnone
    obtain ⟨q, hq⟩ := exists_at_of_step hnone hplus
    cases hq
  exact hdue ((run_again hs hfirst hsecond).trans (done_of_run hrest))

end Progress

/-- The two rows that name the file. -/
def header (name : Text) : Text := txt "--- " ++ name ++ txt "\n+++ " ++ name ++ txt " (formatted)\n"

/-- A text cut behind its last line feed. -/
theorem exists_last_feed : ∀ v : Text, ∃ x y, v = x ++ y ∧ '\n' ∉ y ∧ (x = [] ∨ x.getLast? = some '\n')
  | [] => ⟨[], [], rfl, List.not_mem_nil, .inl rfl⟩
  | c :: v => by
    obtain ⟨x, y, rfl, hy, hx | hx⟩ := exists_last_feed v
    · subst hx
      by_cases hc : c = '\n'
      · exact ⟨[c], y, rfl, hy, .inr (by rw [hc]; rfl)⟩
      · exact ⟨[], c :: y, rfl, by simp [Ne.symm hc, hy], .inl rfl⟩
    · exact ⟨c :: x, y, rfl, hy, .inr (by rw [List.getLast?_cons, hx]; rfl)⟩

theorem applyPatch_eq_none {patch first second : Text} {rows lines : List Text}
    (hrows : feedLines patch = first :: second :: rows)
    (hrun : Progress.run ⟨lines, 0, [], 0, 0⟩ rows = none) : applyPatch patch lines = none := by
  rw [applyPatch, hrows]
  simp only [hrun, Option.bind_none, ite_self]

/-- A name with a line feed in it makes rows of its own, and they stand twice. -/
theorem applyPatch_feed_name {name : Text} (hname : '\n' ∈ name) (t : Text) (lines : List Text) :
    applyPatch (header name ++ '@' :: t) lines = none := by
  obtain ⟨u, v, rfl, hu⟩ := List.eq_append_cons_of_mem hname
  obtain ⟨x, y, rfl, hy, hx⟩ := exists_last_feed v
  have htext : header (u ++ '\n' :: (x ++ y)) ++ '@' :: t = (txt "--- " ++ u) ++ '\n' :: (x ++ (y ++ '\n' ::
      ((txt "+++ " ++ u) ++ '\n' :: (x ++ ((y ++ txt " (formatted)") ++ '\n' :: '@' :: t))))) := by
    simp [header, txt]
  have hcut (z : Text) : feedLines (x ++ z) = feedLines x ++ feedLines z := by
    rcases hx with rfl | hx
    · rfl
    · exact feedLines_append hx
  have hplus : txt "+++ " ++ u ++ ['\n'] = '+' :: (txt "++ " ++ u ++ ['\n']) := rfl
  have hlast : y ++ txt " (formatted)" ++ ['\n'] = y ++ txt " (formatted)\n" := by simp [txt]
  have hrows : feedLines (header (u ++ '\n' :: (x ++ y)) ++ '@' :: t) = (txt "--- " ++ u ++ ['\n']) ::
      (feedLines x ++ (y ++ ['\n']) :: ('+' :: (txt "++ " ++ u ++ ['\n'])) ::
        (feedLines x ++ (y ++ txt " (formatted)\n") :: feedLines ('@' :: t))) := by
    rw [htext, feedLines_line (by simp [txt, hu]), hcut, feedLines_line hy, feedLines_line (by simp [txt, hu]), hcut,
      feedLines_line (by simp [txt, hy]), hplus, hlast]
  cases hfirst : feedLines x with
  | nil =>
    rw [hfirst] at hrows
    exact applyPatch_eq_none hrows rfl
  | cons x₁ ys =>
    rw [hfirst] at hrows
    exact applyPatch_eq_none hrows (Progress.run_twice rfl ys y _ x₁ t)

theorem applyPatch_header {name : Text} (hname : '\n' ∉ name) (body : Text) (lines : List Text) :
    applyPatch (header name ++ body) lines = (Progress.run ⟨lines, 0, [], 0, 0⟩ (feedLines body)).bind Progress.finish := by
  have htext : header name ++ body =
      (txt "--- " ++ name) ++ '\n' :: ((txt "+++ " ++ (name ++ txt " (formatted)")) ++ '\n' :: body) := by
    simp [header, txt]
  have hfirst : Text.startsWith (txt "--- ") (txt "--- " ++ name ++ ['\n']) = true :=
    Text.startsWith_iff.2 ⟨name ++ ['\n'], (List.append_assoc _ _ _).symm⟩
  have hsecond : Text.startsWith (txt "+++ ") (txt "+++ " ++ (name ++ txt " (formatted)") ++ ['\n']) = true :=
    Text.startsWith_iff.2 ⟨name ++ txt " (formatted)" ++ ['\n'], (List.append_assoc _ _ _).symm⟩
  rw [applyPatch, htext, feedLines_line (by simp [txt, hname]), feedLines_line (by simp [txt, hname])]
  simp only [hfirst, hsecond, Bool.and_self, if_true]

/-- The lines that the patch from one text to another shows. -/
def shown (a b : Text) : List Text := (patchHunks (Text.linesKeep a) (Text.linesKeep b)).flatMap Hunk.lines

theorem patchHunks_linesKeep_ne_nil {a b : Text} (h : a ≠ b) : patchHunks (Text.linesKeep a) (Text.linesKeep b) ≠ [] := by
  refine patchHunks_ne_nil fun hsame => h ?_
  rw [← flatten_linesKeep a, hsame, flatten_linesKeep]

theorem unified_of_ne {a b : Text} (h : a ≠ b) (name : Text) :
    unified a b name = header name ++ (patchHunks (Text.linesKeep a) (Text.linesKeep b)).flatMap Hunk.text := by
  have hhunks : hunks (steps (Text.linesKeep a) (Text.linesKeep b)) ≠ [] := fun hnone =>
    patchHunks_linesKeep_ne_nil h (by rw [patchHunks, hnone, List.map_nil])
  obtain ⟨g, gs, hg⟩ := List.exists_cons_of_ne_nil hhunks
  rw [← flatMap_hunkText, unified, header]
  simp only [hg]

/-- **What comes of a printed patch**: it is refused if the name has a line feed in it or if two of its rows run together, and
turns the one text into the other if not. -/
theorem applyPatch_unified {a b : Text} (h : a ≠ b) (name : Text) :
    applyPatch (unified a b name) (Text.linesKeep a) = if '\n' ∉ name ∧ Parted (shown a b) then some b else none := by
  have hplan := patchHunks_plan (Text.linesKeep a) (Text.linesKeep b)
  have ha := Text.linesKeep_whole a
  have hb := Text.linesKeep_whole b
  have hparted := parted_pieces_iff (hplan.whole ha.1 hb.1)
  rw [unified_of_ne h]
  by_cases hname : '\n' ∈ name
  · obtain ⟨g, gs, hg⟩ := List.exists_cons_of_ne_nil (patchHunks_linesKeep_ne_nil h)
    obtain ⟨t, ht⟩ := exists_hunks_text g gs
    rw [if_neg fun hgood => hgood.1 hname, hg, ht, applyPatch_feed_name hname]
  · rw [applyPatch_header hname]
    by_cases hshown : Parted (shown a b)
    · rw [if_pos ⟨hname, hshown⟩, feedLines_hunks (hplan.whole ha.1 hb.1) (hparted.2 hshown)]
      obtain ⟨s', hrun, hfinish⟩ := @Plan.run_pieces _ _ _ _ _ hplan ⟨Text.linesKeep a, 0, [], 0, 0⟩ ⟨rfl, rfl, rfl, rfl, rfl⟩
      rw [hrun, Option.bind_some, hfinish, List.nil_append, flatten_linesKeep]
    · rw [if_neg fun hgood => hshown hgood.2, Option.bind_eq_none_iff]
      intro s' hrun
      rw [Progress.finish, if_neg fun hend => hshown (hparted.1 ?_)]
      exact hplan.parted_of_run ha.1 hb.1 ha.2 ⟨rfl, rfl, rfl, rfl, rfl⟩ hrun hend

theorem feedLines_of_parted {a : Text} (h : Parted (Text.linesKeep a)) : feedLines a = Text.linesKeep a := by
  have hwhole := (Text.linesKeep_whole a).1
  have hcut := feedLines_flatten (fun l hl => ⟨(hwhole l hl).ne_nil, (hwhole l hl).feed_not_mem⟩) h
  rwa [flatten_linesKeep] at hcut

theorem parted_shown {a b : Text} (h : ∀ l ∈ Text.linesKeep a ++ Text.linesKeep b, l.getLast? = some '\n') :
    Parted (shown a b) := by
  obtain ⟨ha, hb⟩ := List.forall_mem_append.1 h
  have hrows := (patchHunks_plan _ _).forall_rows ha hb
  intro l hl
  obtain ⟨g, hg, hlg⟩ := List.mem_flatMap.1 (List.dropLast_subset _ hl)
  obtain ⟨r, hr, rfl⟩ := List.mem_map.1 hlg
  exact (hrows g hg).2 r hr

/-- **A printed patch turns the one text into the other just if a reader can tell its rows apart**, and is refused if not.
Where only line feeds end the lines of a text, a reader that cuts it at line feeds finds the same lines as the patch counts.
All rows can be told apart where every line of both texts ends with a line feed. -/
theorem printed_patch_applies {a b : Text} (h : a ≠ b) (name : Text) :
    (applyPatch (unified a b name) (Text.linesKeep a) = if '\n' ∉ name ∧ Parted (shown a b) then some b else none) ∧
      (Parted (Text.linesKeep a) → feedLines a = Text.linesKeep a) ∧
      ((∀ l ∈ Text.linesKeep a ++ Text.linesKeep b, l.getLast? = some '\n') → Parted (shown a b)) :=
  ⟨applyPatch_unified h name, feedLines_of_parted, parted_shown⟩

/-- Two lines with seven between them that stay: each has a hunk of its own. -/
theorem printed_patch_applies_two_hunks :
    applyPatch (unified (txt "a\n1\n2\n3\n4\n5\n6\n7\nb\n") (txt "c\n1\n2\n3\n4\n5\n6\n7\nd\n") (txt "f.ep"))
      (feedLines (txt "a\n1\n2\n3\n4\n5\n6\n7\nb\n")) = some (txt "c\n1\n2\n3\n4\n5\n6\n7\nd\n") := by
  have h := @printed_patch_applies (txt "a\n1\n2\n3\n4\n5\n6\n7\nb\n") (txt "c\n1\n2\n3\n4\n5\n6\n7\nd\n") (by decide)
    (txt "f.ep")
  rw [h.2.1 (by decide), h.1]
  exact if_pos ⟨by decide, h.2.2 (by decide)⟩

/-- A last line with no line feed runs together with the line that comes for it. -/
theorem printed_patch_glued :
    unified (txt "x") (txt "x\n") (txt "f.ep") = txt "--- f.ep\n+++ f.ep (formatted)\n@@ -1 +1 @@\n-x+x\n" ∧
      applyPatch (unified (txt "x") (txt "x\n") (txt "f.ep")) (Text.linesKeep (txt "x")) = none := by
  decide

end EpFormat.Diff
