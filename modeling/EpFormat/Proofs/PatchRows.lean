import EpFormat.Proofs.Ink
import EpFormat.Proofs.Patch
/-!
# PatchRows — telling the rows of a patch apart

The rows of a patch are printed one after the other with nothing between them, and a reader cuts the patch at its line feeds.
A line has nothing after its boundary, so a row has a line feed at its end or nowhere.  The reader finds the rows again if each
of them but the last ends with one (`feedLines_hunks`), which is a condition on the lines that the patch shows
(`parted_pieces_iff`).
-/
namespace EpFormat

/-! ## Lines and their boundaries -/

namespace Text

theorem linesKeep_unbroken {l : Text} (hl : ∀ c ∈ l, isLineBreak c = false) (hne : l ≠ []) : linesKeep l = [l] := by
  have h := linesKeepAux_append hl [] []
  rw [List.append_nil, List.append_nil, linesKeepAux] at h
  rw [linesKeep, h, if_neg (by simpa using hne)]
  simp

theorem linesKeep_break {l : Text} (hl : ∀ c ∈ l, isLineBreak c = false) {c : Char} (hc : isLineBreak c = true) {rest : Text}
    (hpair : ∀ more, c = '\r' → rest = '\n' :: more → False) : linesKeep (l ++ c :: rest) = (l ++ [c]) :: linesKeep rest := by
  rw [linesKeep, linesKeepAux_append hl, linesKeepAux.eq_3 _ _ _ _ hpair, if_pos hc, linesKeepAux_done, linesKeep]
  simp

theorem linesKeep_pair {l : Text} (hl : ∀ c ∈ l, isLineBreak c = false) (rest : Text) :
    linesKeep (l ++ '\r' :: '\n' :: rest) = (l ++ ['\r', '\n']) :: linesKeep rest := by
  rw [linesKeep, linesKeepAux_append hl, linesKeepAux, linesKeepAux_done, linesKeep]
  simp

/-- A line with its boundary: nothing comes after a boundary, but for the line feed of a carriage return. -/
structure Whole (l : Text) : Prop where
  ne_nil : l ≠ []
  inner : ∀ {u v : Text} {c d : Char}, l = u ++ c :: d :: v → isLineBreak c = true → c = '\r' ∧ d = '\n'

theorem Whole.of_append {l e : Text} (hl : ∀ c ∈ l, isLineBreak c = false) (hne : l ++ e ≠ [])
    (he : ∀ {u v : Text} {c d : Char}, e = u ++ c :: d :: v → c = '\r' ∧ d = '\n') : (l ++ e).Whole := by
  refine ⟨hne, fun {u v c d} h hc => ?_⟩
  rcases List.append_eq_append_iff.1 h with ⟨w, -, hw⟩ | ⟨w, hw, hrest⟩
  · exact he hw
  · cases w with
    | nil => exact @he [] v c d hrest.symm
    | cons x w =>
      obtain rfl : c = x := (List.cons.inj hrest).1
      exact absurd hc (by simp [hl c (by simp [hw])])

theorem Whole.feed_not_mem {l : Text} (h : l.Whole) : '\n' ∉ l.dropLast := by
  intro hmem
  obtain ⟨u, v, huv⟩ := List.append_of_mem hmem
  have hlast := List.dropLast_append_getLast h.ne_nil
  rw [huv, List.append_assoc, List.cons_append] at hlast
  obtain ⟨d, w, hdw⟩ := List.exists_cons_of_ne_nil (l := v ++ [l.getLast h.ne_nil]) (by simp)
  rw [hdw] at hlast
  exact absurd (h.inner hlast.symm (by decide)).1 (by decide)

theorem mem_dropLast_append {α : Type} {x : α} {xs ys : List α} (h : x ∈ (xs ++ ys).dropLast) : x ∈ xs ∨ x ∈ ys.dropLast := by
  rw [List.dropLast_append] at h
  split_ifs at h
  · exact .inl (List.dropLast_subset _ h)
  · exact List.mem_append.1 h

/-- The lines of a text are whole, and all but the last have a boundary. -/
theorem linesKeep_whole (t : Text) : (∀ l ∈ linesKeep t, l.Whole) ∧
    ∀ l ∈ (linesKeep t).dropLast, ∃ u c, l = u ++ [c] ∧ isLineBreak c = true := by
  induction t using lines_induct with
  | nil => exact ⟨List.forall_mem_nil _, List.forall_mem_nil _⟩
  | last l hl hne =>
    rw [linesKeep_unbroken hl hne]
    refine ⟨List.forall_mem_singleton.2 ?_, List.forall_mem_nil _⟩
    have hwhole := @Whole.of_append l [] hl (by simpa using hne) (fun h => by simp at h)
    rwa [List.append_nil] at hwhole
  | single l c rest hl hc hpair ih =>
    rw [linesKeep_break hl hc hpair]
    refine ⟨List.forall_mem_cons.2 ⟨.of_append hl (by simp) fun {u v _ _} h => ?_, ih.1⟩, fun k hk => ?_⟩
    · have hlength := congrArg List.length h
      simp only [List.length_append, List.length_cons, List.length_nil] at hlength
      omega
    · rcases @mem_dropLast_append _ k [l ++ [c]] _ hk with hk | hk
      · exact ⟨l, c, List.mem_singleton.1 hk, hc⟩
      · exact ih.2 k hk
  | pair l rest hl ih =>
    rw [linesKeep_pair hl]
    refine ⟨List.forall_mem_cons.2 ⟨.of_append hl (by simp) fun {u v c d} h => ?_, ih.1⟩, fun k hk => ?_⟩
    · have hlength := congrArg List.length h
      simp only [List.length_append, List.length_cons, List.length_nil] at hlength
      obtain rfl : u = [] := List.eq_nil_of_length_eq_zero (by omega)
      cases h
      exact ⟨rfl, rfl⟩
    · rcases @mem_dropLast_append _ k [l ++ ['\r', '\n']] _ hk with hk | hk
      · exact ⟨l ++ ['\r'], '\n', by simpa using List.mem_singleton.1 hk, by decide⟩
      · exact ih.2 k hk

end Text

namespace Diff

/-! ## Cutting at line feeds -/

theorem feedLines_feed (t : Text) : feedLines ('\n' :: t) = ['\n'] :: feedLines t := rfl

theorem feedLines_char {c : Char} (hc : c ≠ '\n') {t q : Text} {qs : List Text} (ht : feedLines t = q :: qs) :
    feedLines (c :: t) = (c :: q) :: qs := by
  rw [feedLines, if_neg hc, ht]

theorem exists_feedLines_cons (c : Char) (t : Text) : ∃ q qs, feedLines (c :: t) = (c :: q) :: qs := by
  rw [feedLines]
  split_ifs
  · exact ⟨[], _, rfl⟩
  · cases feedLines t <;> exact ⟨_, _, rfl⟩

/-- A stretch with no line feed stands before the first row of the rest. -/
theorem feedLines_glue {t q : Text} {qs : List Text} (ht : feedLines t = q :: qs) : ∀ {l : Text}, '\n' ∉ l →
    feedLines (l ++ t) = (l ++ q) :: qs
  | [], _ => ht
  | c :: l, hl => by
    rw [List.mem_cons, not_or] at hl
    exact feedLines_char (Ne.symm hl.1) (feedLines_glue ht hl.2)

theorem feedLines_line {l : Text} (hl : '\n' ∉ l) (t : Text) : feedLines (l ++ '\n' :: t) = (l ++ ['\n']) :: feedLines t :=
  feedLines_glue (feedLines_feed t) hl

theorem feedLines_last : ∀ {l : Text}, '\n' ∉ l → l ≠ [] → feedLines l = [l]
  | [c], hl, _ => by
    rw [feedLines, if_neg (by simpa [eq_comm] using hl)]
    rfl
  | c :: d :: l, hl, _ => by
    rw [List.mem_cons, not_or] at hl
    exact feedLines_char (Ne.symm hl.1) (feedLines_last hl.2 (List.cons_ne_nil d l))

theorem feedLines_append {y : Text} : ∀ {x : Text}, x.getLast? = some '\n' → feedLines (x ++ y) = feedLines x ++ feedLines y
  | [c], hx => by
    cases hx
    rfl
  | c :: d :: x, hx => by
    rw [List.getLast?_cons_cons] at hx
    have ih := @feedLines_append y (d :: x) hx
    obtain ⟨q, qs, hq⟩ := exists_feedLines_cons d x
    by_cases hc : c = '\n'
    · subst hc
      rw [List.cons_append, feedLines_feed, feedLines_feed, ih, List.cons_append]
    · rw [hq] at ih
      rw [List.cons_append, feedLines_char hc ih, feedLines_char hc hq]
      rfl

/-- Rows that a reader can tell apart: each but the last ends with a line feed. -/
def Parted (ps : List Text) : Prop := ∀ p ∈ ps.dropLast, p.getLast? = some '\n'

instance (ps : List Text) : Decidable (Parted ps) := inferInstanceAs (Decidable (∀ p ∈ ps.dropLast, _))

theorem parted_append {ps qs : List Text} (h : qs ≠ []) :
    Parted (ps ++ qs) ↔ (∀ p ∈ ps, p.getLast? = some '\n') ∧ Parted qs := by
  rw [Parted, List.dropLast_append_of_ne_nil h, List.forall_mem_append, Parted]

theorem parted_cons {p : Text} {ps : List Text} : Parted (p :: ps) ↔ (ps ≠ [] → p.getLast? = some '\n') ∧ Parted ps := by
  by_cases hps : ps = []
  · subst hps
    exact iff_of_true (List.forall_mem_nil _) ⟨fun h => absurd rfl h, List.forall_mem_nil _⟩
  · rw [← List.singleton_append, parted_append hps, List.forall_mem_singleton]
    exact and_congr_left fun _ => ⟨fun hp _ => hp, fun hp => hp hps⟩

theorem parted_feedLines : ∀ t : Text, Parted (feedLines t)
  | [] => List.forall_mem_nil _
  | c :: t => by
    have ih := parted_feedLines t
    by_cases hc : c = '\n'
    · subst hc
      exact parted_cons.2 ⟨fun _ => rfl, ih⟩
    · cases ht : feedLines t with
      | nil =>
        rw [feedLines, if_neg hc, ht]
        exact List.forall_mem_nil _
      | cons q qs =>
        rw [ht, parted_cons] at ih
        rw [feedLines_char hc ht, parted_cons]
        refine ⟨fun hqs => ?_, ih.2⟩
        rw [List.getLast?_cons, ih.1 hqs]
        rfl

/-- A row with no line feed before its end has one there or nowhere. -/
theorem eq_or_feed_not_mem {p : Text} (h : '\n' ∉ p.dropLast) : (∃ l, '\n' ∉ l ∧ p = l ++ ['\n']) ∨ '\n' ∉ p := by
  rcases List.eq_nil_or_concat p with rfl | ⟨l, c, rfl⟩
  · exact .inr List.not_mem_nil
  · rw [List.concat_eq_append, List.dropLast_concat] at h
    rw [List.concat_eq_append]
    by_cases hc : c = '\n'
    · exact .inl ⟨l, h, by rw [hc]⟩
    · exact .inr (by simp [h, Ne.symm hc])

theorem feedLines_cons {p : Text} (h : '\n' ∉ p.dropLast) (hp : p.getLast? = some '\n') (t : Text) :
    feedLines (p ++ t) = p :: feedLines t := by
  rcases eq_or_feed_not_mem h with ⟨l, hl, rfl⟩ | hnone
  · rw [List.append_assoc]
    exact feedLines_line hl t
  · exact absurd (List.mem_of_getLast? hp) hnone

theorem feedLines_flatten : ∀ {ps : List Text}, (∀ p ∈ ps, p ≠ [] ∧ '\n' ∉ p.dropLast) → Parted ps → feedLines ps.flatten = ps
  | [], _, _ => rfl
  | [p], hps, _ => by
    obtain ⟨hne, hp⟩ := hps p List.mem_cons_self
    rw [List.flatten_singleton]
    rcases eq_or_feed_not_mem hp with ⟨l, hl, rfl⟩ | hnone
    · exact feedLines_line hl []
    · exact feedLines_last hnone hne
  | p :: q :: ps, hps, hparted => by
    obtain ⟨hp, hrest⟩ := parted_cons.1 hparted
    rw [List.flatten_cons, feedLines_cons (hps p List.mem_cons_self).2 (hp (List.cons_ne_nil q ps)),
      feedLines_flatten (fun r hr => hps r (List.mem_cons_of_mem p hr)) hrest]

/-! ## The rows of a patch -/

namespace Row

theorem exists_mark (r : Row) : ∃ c, c ≠ '\n' ∧ r.text = c :: r.line := by
  cases r <;> exact ⟨_, by decide, rfl⟩

theorem getLast?_text {r : Row} (h : r.line ≠ []) : r.text.getLast? = r.line.getLast? := by
  obtain ⟨c, -, htext⟩ := r.exists_mark
  rw [htext, List.getLast?_cons_of_ne_nil h]

theorem feed_not_mem {r : Row} (h : r.line.Whole) : '\n' ∉ r.text.dropLast := by
  obtain ⟨c, hc, htext⟩ := r.exists_mark
  rw [htext, List.dropLast_cons_of_ne_nil h.ne_nil, List.mem_cons, not_or]
  exact ⟨Ne.symm hc, h.feed_not_mem⟩

theorem text_ne_nil (r : Row) : r.text ≠ [] := by
  obtain ⟨c, -, htext⟩ := r.exists_mark
  rw [htext]
  exact List.cons_ne_nil _ _

end Row

theorem feed_not_mem_rangeText (i k : Nat) : '\n' ∉ rangeText i k := by
  have hdigits (n : Nat) : '\n' ∉ Nat.toDigits 10 n := fun h => absurd (isDigit_of_mem_toDigits h) (by decide)
  simp only [rangeText]
  split_ifs
  · exact hdigits _
  all_goals simp [hdigits]

theorem Hunk.head_eq (h : Hunk) : ∃ t, '\n' ∉ t ∧ h.head = '@' :: (t ++ ['\n']) := by
  refine ⟨txt "@ -" ++ rangeText h.left (h.left + h.old.length) ++ txt " +" ++ rangeText h.right (h.right + h.new.length)
    ++ txt " @@", ?_, ?_⟩
  · simp [feed_not_mem_rangeText, txt]
  · simp [Hunk.head, txt]

theorem Hunk.text_eq (h : Hunk) : h.text = h.pieces.flatten := by
  rw [Hunk.text, Hunk.pieces, List.flatten_cons, List.flatMap_def]

theorem flatMap_text (hs : List Hunk) : hs.flatMap Hunk.text = (hs.flatMap Hunk.pieces).flatten := by
  rw [← List.flatMap_id, List.flatMap_assoc]
  exact List.flatMap_congr fun h _ => by rw [h.text_eq, List.flatMap_id]

def Hunk.lines (h : Hunk) : List Text := h.rows.map Row.line

/-- A hunk that shows something, and only whole lines. -/
structure Hunk.Whole (h : Hunk) : Prop where
  rows_ne_nil : h.rows ≠ []
  line : ∀ r ∈ h.rows, r.line.Whole

/-- A hunk shows something, and only lines of the two lists. -/
theorem Plan.forall_rows {P : Text → Prop} {i j : Nat} {as bs : List Text} {hs : List Hunk} (plan : Plan i j as bs hs) :
    (∀ l ∈ as, P l) → (∀ l ∈ bs, P l) → ∀ h ∈ hs, h.rows ≠ [] ∧ ∀ r ∈ h.rows, P r.line := by
  induction plan with
  | done => exact fun _ _ => List.forall_mem_nil _
  | @hunk i j as bs h hs gap left right rows closed rest ih =>
    intro ha hb
    simp only [List.forall_mem_append] at ha hb
    refine List.forall_mem_cons.2 ⟨⟨rows, fun r hr => ?_⟩, ih ha.2.2 hb.2.2⟩
    cases r with
    | keep l | drop l => exact ha.2.1 l (List.mem_flatMap.2 ⟨_, hr, List.mem_singleton_self l⟩)
    | add l => exact hb.2.1 l (List.mem_flatMap.2 ⟨_, hr, List.mem_singleton_self l⟩)

theorem Plan.whole {i j : Nat} {as bs : List Text} {hs : List Hunk} (plan : Plan i j as bs hs) (ha : ∀ l ∈ as, l.Whole)
    (hb : ∀ l ∈ bs, l.Whole) : ∀ h ∈ hs, h.Whole := fun h hh =>
  ⟨(plan.forall_rows ha hb h hh).1, (plan.forall_rows ha hb h hh).2⟩

namespace Hunk

theorem Whole.piece {h : Hunk} (hw : h.Whole) : ∀ p ∈ h.pieces, p ≠ [] ∧ '\n' ∉ p.dropLast := by
  refine List.forall_mem_cons.2 ⟨?_, List.forall_mem_map.2 fun r hr => ⟨r.text_ne_nil, Row.feed_not_mem (hw.line r hr)⟩⟩
  obtain ⟨t, ht, hhead⟩ := h.head_eq
  rw [hhead, ← List.cons_append, List.dropLast_concat]
  simp [ht]

theorem getLast?_head (h : Hunk) : h.head.getLast? = some '\n' := by
  obtain ⟨t, -, hhead⟩ := h.head_eq
  rw [hhead, ← List.cons_append, List.getLast?_concat]

theorem Whole.getLast?_text {h : Hunk} (hw : h.Whole) {r : Row} (hr : r ∈ h.rows) :
    r.text.getLast? = some '\n' ↔ r.line.getLast? = some '\n' := by
  rw [Row.getLast?_text (hw.line r hr).ne_nil]

theorem Whole.fed_pieces_iff {h : Hunk} (hw : h.Whole) :
    (∀ p ∈ h.pieces, p.getLast? = some '\n') ↔ ∀ l ∈ h.lines, l.getLast? = some '\n' := by
  rw [pieces, List.forall_mem_cons, and_iff_right h.getLast?_head, lines, List.forall_mem_map, List.forall_mem_map]
  exact forall₂_congr fun r hr => hw.getLast?_text hr

theorem Whole.parted_pieces_iff {h : Hunk} (hw : h.Whole) : Parted h.pieces ↔ Parted h.lines := by
  rw [pieces, parted_cons, and_iff_right fun _ => h.getLast?_head, Parted, Parted, lines, ← List.map_dropLast,
    ← List.map_dropLast, List.forall_mem_map, List.forall_mem_map]
  exact forall₂_congr fun r hr => hw.getLast?_text (List.dropLast_subset _ hr)

end Hunk

/-- The rows of a patch can be told apart if the lines can that it shows. -/
theorem parted_pieces_iff : ∀ {hs : List Hunk}, (∀ h ∈ hs, h.Whole) →
    (Parted (hs.flatMap Hunk.pieces) ↔ Parted (hs.flatMap Hunk.lines))
  | [], _ => Iff.rfl
  | [h], hw => by
    rw [List.flatMap_singleton, List.flatMap_singleton]
    exact (hw h List.mem_cons_self).parted_pieces_iff
  | h :: h' :: hs, hw => by
    obtain ⟨hh, hrest⟩ := List.forall_mem_cons.1 hw
    have hpieces : (h' :: hs).flatMap Hunk.pieces ≠ [] := List.cons_ne_nil _ _
    have hlines : (h' :: hs).flatMap Hunk.lines ≠ [] := by simp [Hunk.lines, (hrest h' List.mem_cons_self).rows_ne_nil]
    have hcons (f : Hunk → List Text) : (h :: h' :: hs).flatMap f = f h ++ (h' :: hs).flatMap f := List.flatMap_cons
    rw [hcons, hcons, parted_append hpieces, parted_append hlines, parted_pieces_iff hrest, hh.fed_pieces_iff]

/-- A reader finds the rows of a patch again if they can be told apart. -/
theorem feedLines_hunks {hs : List Hunk} (hw : ∀ h ∈ hs, h.Whole) (hparted : Parted (hs.flatMap Hunk.pieces)) :
    feedLines (hs.flatMap Hunk.text) = hs.flatMap Hunk.pieces := by
  rw [flatMap_text]
  refine feedLines_flatten (fun p hp => ?_) hparted
  obtain ⟨h, hh, hph⟩ := List.mem_flatMap.1 hp
  exact (hw h hh).piece p hph

end Diff
end EpFormat
