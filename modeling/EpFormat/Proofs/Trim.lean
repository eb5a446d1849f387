import EpFormat.Text.Blank
/-!
# Trim — white space at the ends of a text

A text is white space, the trimmed text, and white space again (`exists_trim`).  A text is trimmed if it neither begins
nor ends with white space (`trimmed_iff`).
-/
namespace EpFormat

/-- What holds of the characters of a given text is found out by looking at each of them. -/
theorem Text.forall_mem_of_all {p : Char → Prop} [DecidablePred p] {t : Text} (h : t.all (fun c => decide (p c)) = true) :
    ∀ c ∈ t, p c := by
  simpa using h

theorem Text.forall_mem_rows_of_all {p : Char → Prop} [DecidablePred p] {rows : List Text}
    (h : rows.all (fun row => row.all (fun c => decide (p c))) = true) : ∀ row ∈ rows, ∀ c ∈ row, p c := fun row hr =>
  Text.forall_mem_of_all (List.all_eq_true.1 h row hr)

@[simp] theorem allBlank_nil : allBlank [] = true := rfl

@[simp] theorem allBlank_cons (c : Char) (t : Text) : allBlank (c :: t) = (isBlank c && allBlank t) := rfl

@[simp] theorem allBlank_append (s t : Text) : allBlank (s ++ t) = (allBlank s && allBlank t) := List.all_append

theorem allBlank_iff {t : Text} : allBlank t = true ↔ ∀ c ∈ t, isBlank c = true := List.all_eq_true

@[simp] theorem allBlank_reverse (t : Text) : allBlank t.reverse = allBlank t := List.all_reverse

theorem ne_of_isBlank {c d : Char} (hd : isBlank d = false) (hc : isBlank c = true) : c ≠ d := by
  rintro rfl
  rw [hc] at hd
  cases hd

/-- White space at the head of a text comes before any ink in it. -/
theorem split_blank_append {c : Char} (hc : isBlank c = false) : ∀ {g s u post : Text}, allBlank g = true →
    g ++ s = u ++ c :: post → ∃ v, u = g ++ v ∧ s = v ++ c :: post
  | [], _, u, _, _, h => ⟨u, rfl, h⟩
  | d :: g, s, [], post, hg, h => by
    rw [allBlank_cons, Bool.and_eq_true, (List.cons.inj h).1, hc] at hg
    cases hg.1
  | d :: g, s, e :: u, post, hg, h => by
    obtain ⟨rfl, htail⟩ := List.cons.inj h
    rw [allBlank_cons, Bool.and_eq_true] at hg
    obtain ⟨v, rfl, hs⟩ := split_blank_append hc hg.2 htail
    exact ⟨v, rfl, hs⟩

/-- White space at the end of a text comes after any ink in it. -/
theorem split_append_blank {c : Char} (hc : isBlank c = false) {s g pre post : Text} (hg : allBlank g = true)
    (h : s ++ g = pre ++ c :: post) : ∃ v, post = v ++ g ∧ s = pre ++ c :: v := by
  have hrev := congrArg List.reverse h
  rw [List.reverse_append, List.reverse_append, List.reverse_cons, List.append_assoc] at hrev
  obtain ⟨v, hpost, hs⟩ := split_blank_append hc (by rwa [allBlank_reverse]) hrev
  refine ⟨v.reverse, List.reverse_inj.1 ?_, List.reverse_inj.1 ?_⟩
  · rw [hpost, List.reverse_append, List.reverse_reverse]
  · rw [hs, List.reverse_append, List.reverse_cons, List.reverse_reverse, List.append_assoc]
    rfl

namespace Text

theorem trimLeft_cons_of_blank {c : Char} (h : isBlank c = true) (t : Text) : trimLeft (c :: t) = trimLeft t :=
  List.dropWhile_cons_of_pos h

theorem trimLeft_cons_of_not_blank {c : Char} (h : isBlank c = false) (t : Text) : trimLeft (c :: t) = c :: t :=
  List.dropWhile_cons_of_neg (by simp [h])

theorem trimLeft_append_of_blank {a : Text} (h : allBlank a = true) (t : Text) : trimLeft (a ++ t) = trimLeft t :=
  List.dropWhile_append_of_pos (allBlank_iff.1 h)

theorem trimLeft_eq_nil_iff {t : Text} : trimLeft t = [] ↔ allBlank t = true := by
  induction t with
  | nil => simp [trimLeft]
  | cons c t ih =>
    cases h : isBlank c with
    | true => rw [trimLeft_cons_of_blank h, ih, allBlank_cons, h, Bool.true_and]
    | false => simp [trimLeft_cons_of_not_blank h, h]

theorem exists_trimLeft (t : Text) : ∃ a, allBlank a = true ∧ t = a ++ trimLeft t :=
  ⟨t.takeWhile isBlank, List.all_takeWhile, List.takeWhile_append_dropWhile.symm⟩

/-- The head of what is left of a text is no white space. -/
theorem isBlank_of_trimLeft {c : Char} {s t : Text} (h : trimLeft t = c :: s) : isBlank c = false := by
  induction t with
  | nil => cases h
  | cons d t ih =>
    cases hd : isBlank d with
    | true => exact ih (by rw [← trimLeft_cons_of_blank hd]; exact h)
    | false =>
      rw [trimLeft_cons_of_not_blank hd] at h
      rw [← (List.cons.inj h).1, hd]

theorem trimLeft_idem (t : Text) : trimLeft (trimLeft t) = trimLeft t := by
  cases h : trimLeft t with
  | nil => rfl
  | cons c s => exact trimLeft_cons_of_not_blank (isBlank_of_trimLeft h) s

theorem trimRight_eq (t : Text) : trimRight t = (trimLeft t.reverse).reverse := rfl

theorem trimRight_append_of_blank {b : Text} (h : allBlank b = true) (t : Text) : trimRight (t ++ b) = trimRight t := by
  rw [trimRight_eq, List.reverse_append, trimLeft_append_of_blank (by rw [allBlank_reverse, h]), ← trimRight_eq]

theorem trimRight_eq_nil_iff {t : Text} : trimRight t = [] ↔ allBlank t = true := by
  rw [trimRight_eq, List.reverse_eq_nil_iff, trimLeft_eq_nil_iff, allBlank_reverse]

theorem exists_trimRight (t : Text) : ∃ b, allBlank b = true ∧ t = trimRight t ++ b := by
  obtain ⟨a, ha, ht⟩ := exists_trimLeft t.reverse
  refine ⟨a.reverse, by rw [allBlank_reverse, ha], ?_⟩
  rw [trimRight_eq, ← List.reverse_append, ← ht, List.reverse_reverse]

/-- Text that does not begin with white space keeps its beginning. -/
theorem trimRight_cons {c : Char} (h : isBlank c = false) (t : Text) : trimRight (c :: t) = c :: trimRight t := by
  have hsplit : trimLeft (t.reverse ++ [c]) = trimLeft t.reverse ++ [c] := by
    obtain ⟨a, ha, ht⟩ := exists_trimLeft t.reverse
    conv => lhs; rw [ht, List.append_assoc, trimLeft_append_of_blank ha]
    cases hl : trimLeft t.reverse with
    | nil => exact trimLeft_cons_of_not_blank h []
    | cons d s => exact trimLeft_cons_of_not_blank (isBlank_of_trimLeft hl) _
  rw [trimRight_eq, List.reverse_cons, hsplit, List.reverse_append, trimRight_eq]
  rfl

theorem trimRight_idem (t : Text) : trimRight (trimRight t) = trimRight t := by
  rw [trimRight_eq, trimRight_eq, List.reverse_reverse, trimLeft_idem]

theorem trim_append_of_blank {a : Text} (h : allBlank a = true) (t : Text) : trim (a ++ t) = trim t := by
  rw [trim, trimLeft_append_of_blank h, trim]

theorem trimLeft_append_right {t : Text} (h : allBlank t = false) (b : Text) : trimLeft (t ++ b) = trimLeft t ++ b := by
  induction t with
  | nil => cases h
  | cons c t ih =>
    cases hc : isBlank c with
    | true =>
      rw [allBlank_cons, hc, Bool.true_and] at h
      rw [List.cons_append, trimLeft_cons_of_blank hc, trimLeft_cons_of_blank hc, ih h]
    | false => rw [List.cons_append, trimLeft_cons_of_not_blank hc, trimLeft_cons_of_not_blank hc, List.cons_append]

theorem trimRight_append_left {t : Text} (h : allBlank t = false) (a : Text) : trimRight (a ++ t) = a ++ trimRight t := by
  rw [trimRight_eq, List.reverse_append, trimLeft_append_right (by rwa [allBlank_reverse]), List.reverse_append,
    List.reverse_reverse, trimRight_eq]

theorem trim_append_blank {b : Text} (h : allBlank b = true) (t : Text) : trim (t ++ b) = trim t := by
  cases ht : allBlank t with
  | true =>
    have h₁ : trimLeft (t ++ b) = [] := trimLeft_eq_nil_iff.2 (by simp [ht, h])
    rw [trim, trim, h₁, trimLeft_eq_nil_iff.2 ht]
  | false => rw [trim, trimLeft_append_right ht, trimRight_append_of_blank h, trim]

/-- Trimming keeps the head of what is left of a text. -/
theorem trim_eq_cons {c : Char} {s t : Text} (h : trimLeft t = c :: s) : trim t = c :: trimRight s := by
  rw [trim, h, trimRight_cons (isBlank_of_trimLeft h)]

theorem trim_ne_cons {c : Char} {t : Text} (h : ∀ s, trimLeft t ≠ c :: s) : ∀ s, trim t ≠ c :: s := by
  intro s hs
  cases hl : trimLeft t with
  | nil => rw [trim, hl] at hs; cases hs
  | cons d z =>
    rw [trim_eq_cons hl] at hs
    exact h z (by rw [hl, (List.cons.inj hs).1])

theorem trimLeft_trim (t : Text) : trimLeft (trim t) = trim t := by
  cases h : trimLeft t with
  | nil => rw [trim, h]; rfl
  | cons c s => rw [trim_eq_cons h, trimLeft_cons_of_not_blank (isBlank_of_trimLeft h)]

theorem trimLeft_of_trimmed {t : Text} (h : trim t = t) : trimLeft t = t := by
  rw [← h, trimLeft_trim]

theorem trim_idem (t : Text) : trim (trim t) = trim t := by
  conv => lhs; rw [trim, trimLeft_trim]
  rw [trim, trimRight_idem]

theorem trim_trimRight (t : Text) : trim (trimRight t) = trim t := by
  obtain ⟨b, hb, ht⟩ := exists_trimRight t
  conv => rhs; rw [ht, trim_append_blank hb]

/-- **A text is its trimmed self between white space.** -/
theorem exists_trim (t : Text) : ∃ a b, allBlank a = true ∧ allBlank b = true ∧ t = a ++ (trim t ++ b) := by
  obtain ⟨a, ha, ht⟩ := exists_trimLeft t
  obtain ⟨b, hb, hl⟩ := exists_trimRight (trimLeft t)
  refine ⟨a, b, ha, hb, ?_⟩
  conv => lhs; rw [ht, hl]
  rfl

theorem trim_isInfix (t : Text) : trim t <:+: t := by
  obtain ⟨a, b, -, -, ht⟩ := exists_trim t
  exact ⟨a, b, by rw [List.append_assoc]; exact ht.symm⟩

theorem trim_eq_nil_iff {t : Text} : trim t = [] ↔ allBlank t = true := by
  constructor
  · intro h
    obtain ⟨a, b, ha, hb, ht⟩ := exists_trim t
    rw [ht, h]
    simp [ha, hb]
  · intro h
    rw [trim, trimLeft_eq_nil_iff.2 h]
    rfl

theorem allBlank_trim (t : Text) : allBlank (trim t) = allBlank t := by
  obtain ⟨a, b, ha, hb, ht⟩ := exists_trim t
  conv => rhs; rw [ht]
  rw [allBlank_append, allBlank_append, ha, hb, Bool.true_and, Bool.and_true]

/-- The two ends can be trimmed in either order. -/
theorem trimLeft_trimRight (t : Text) : trimLeft (trimRight t) = trim t := by
  obtain ⟨a, b, ha, hb, ht⟩ := exists_trim t
  conv => lhs; rw [ht, ← List.append_assoc, trimRight_append_of_blank hb]
  cases h : allBlank (trim t) with
  | true =>
    have hnil : trim t = [] := by rw [← trim_idem, trim_eq_nil_iff.2 h]
    rw [hnil, List.append_nil, trimRight_eq_nil_iff.2 ha]
    rfl
  | false =>
    have hright : trimRight (trim t) = trim t := by rw [trim, trimRight_idem]
    rw [trimRight_append_left h, hright, trimLeft_append_of_blank ha, trimLeft_trim]

/-- A text is trimmed if it neither begins nor ends with white space. -/
theorem trimmed_iff {t : Text} :
    trim t = t ↔ (∀ c ∈ t.head?, isBlank c = false) ∧ ∀ c ∈ t.getLast?, isBlank c = false := by
  have hleft : ∀ s : Text, (∀ c ∈ s.head?, isBlank c = false) → trimLeft s = s := by
    intro s hs
    cases s with
    | nil => rfl
    | cons c s => exact trimLeft_cons_of_not_blank (hs c rfl) s
  constructor
  · intro h
    refine ⟨fun c hc => ?_, fun c hc => ?_⟩
    · obtain ⟨s, hs⟩ : ∃ s, t = c :: s := by
        cases t with
        | nil => cases hc
        | cons d s => exact ⟨s, by rw [Option.mem_some_iff.1 hc]⟩
      refine isBlank_of_trimLeft (t := t) (s := s) ?_
      rw [← h, trimLeft_trim, h, hs]
    · obtain ⟨s, hs⟩ := List.getLast?_eq_some_iff.1 (Option.mem_def.1 hc)
      refine isBlank_of_trimLeft (t := t.reverse) (s := s.reverse) ?_
      have hr : trimRight t = t := by
        conv => lhs; rw [← h, trim, trimRight_idem]
        exact h
      have := congrArg List.reverse hr
      rw [trimRight_eq, List.reverse_reverse] at this
      rw [this, hs]
      simp
  · rintro ⟨h₁, h₂⟩
    have hr : trimLeft t.reverse = t.reverse := hleft _ (fun c hc => h₂ c (by rwa [List.head?_reverse] at hc))
    rw [trim, hleft t h₁, trimRight_eq, hr, List.reverse_reverse]

end Text
end EpFormat
