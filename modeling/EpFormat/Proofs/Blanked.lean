import EpFormat.Proofs.BlankOut
/-!
# Blanked — what blanking leaves of a line, place by place

`Covered` says which places of a line lie inside its tags.  Blanking puts a space there, keeps every other character where
it stands, and leaves nothing behind that reads as a tag (`Blanked`).  The texts before, between and after the tags stay
as they are with gaps between them (`gapped_blankOut`), and how wide the gaps are has no part in the nesting of the line.
-/
namespace EpFormat

open Template Template.Tag Markup

namespace Template.Tag

/-- A place of a text lies inside one of its tags.  They are taken from left to right: a tag at the head covers its own
places, and the search goes on after it, or after a character that begins none. -/
inductive Covered : Text → Nat → Prop
  | tag {t : Text} {a : Tag} {k : Nat} (h : read? t = some a) (hk : k < a.source.length) : Covered t k
  | beyond {t : Text} {a : Tag} {k : Nat} (h : read? t = some a) (hk : Covered (t.drop a.source.length) k) :
      Covered t (a.source.length + k)
  | char {c : Char} {t : Text} {k : Nat} (h : read? (c :: t) = none) (hk : Covered t k) : Covered (c :: t) (k + 1)

/-- The texts before, between and after the tags of a line. -/
def texts (line : Text) : List Text :=
  ((scan finder line).splitOnP (fun p => p.found?.isSome)).map (fun ps => ps.flatMap Piece.source)

/-- A line with its tags blanked. -/
structure Blanked (row out : Text) : Prop where
  length : out.length = row.length
  inside : ∀ k, Covered row k → out[k]? = some ' '
  outside : ∀ k, ¬ Covered row k → out[k]? = row[k]?
  untagged : ∀ s, s <:+ out → read? s = none

/-! ## Places -/

theorem length_source_ofInside (u : Text) : (ofInside u).source.length = u.length + 4 := by
  rw [source_eq, inside_ofInside]
  simp

theorem not_covered_nil (k : Nat) : ¬ Covered [] k := by
  intro h
  cases h with
  | tag h _ => cases h
  | beyond h _ => cases h

theorem covered_char_iff {c : Char} {rest : Text} (hc : read? (c :: rest) = none) (k : Nat) :
    Covered (c :: rest) k ↔ ∃ j, k = j + 1 ∧ Covered rest j := by
  constructor
  · intro h
    cases h with
    | tag h _ => rw [hc] at h; cases h
    | beyond h _ => rw [hc] at h; cases h
    | char _ hk => exact ⟨_, rfl, hk⟩
  · rintro ⟨j, rfl, hj⟩
    exact Covered.char hc hj

theorem covered_tag_iff {u : Text} (hu : Inner u) (post : Text) (k : Nat) :
    Covered ('<' :: '%' :: (u ++ '%' :: '>' :: post)) k ↔ k < u.length + 4 ∨ ∃ j, k = u.length + 4 + j ∧ Covered post j := by
  have hread := read?_inner hu post
  have hlen := length_source_ofInside u
  have hdrop : ('<' :: '%' :: (u ++ '%' :: '>' :: post)).drop (ofInside u).source.length = post := by
    have := beyond_inner u post
    rwa [beyond, Nat.max_eq_left (by omega), ← hlen] at this
  constructor
  · intro h
    cases h with
    | tag h hk =>
      obtain rfl := Option.some.inj (hread.symm.trans h)
      exact Or.inl (hlen ▸ hk)
    | beyond h hk =>
      obtain rfl := Option.some.inj (hread.symm.trans h)
      rw [hdrop] at hk
      exact Or.inr ⟨_, by rw [hlen], hk⟩
    | char h _ => rw [hread] at h; cases h
  · rintro (hk | ⟨j, rfl, hj⟩)
    · exact Covered.tag hread (hlen ▸ hk)
    · rw [← hlen]
      exact Covered.beyond hread (hdrop.symm ▸ hj)

theorem length_blankOut (line : Text) : (blankOut line).length = line.length := by
  induction line using tag_induct with
  | nil => rfl
  | tag u post hu ih =>
    rw [blankOut_tag hu, List.length_append, List.length_replicate, length_source_ofInside, ih]
    simp only [List.length_cons, List.length_append]
    omega
  | char c rest hc ih => rw [blankOut_char hc, List.length_cons, List.length_cons, ih]

/-- Inside a tag stands a space, and at any other place the character of the line. -/
theorem getElem?_blankOut (row : Text) : ∀ k, (Covered row k → (blankOut row)[k]? = some ' ') ∧
    (¬ Covered row k → (blankOut row)[k]? = row[k]?) := by
  induction row using tag_induct with
  | nil => exact fun k => ⟨fun h => absurd h (not_covered_nil k), fun _ => rfl⟩
  | tag u post hu ih =>
    intro k
    rw [blankOut_tag hu, length_source_ofInside, covered_tag_iff hu]
    by_cases hk : k < u.length + 4
    · refine ⟨fun _ => ?_, fun h => absurd (Or.inl hk) h⟩
      rw [List.getElem?_append_left (by rwa [List.length_replicate]), List.getElem?_replicate_of_lt hk]
    -- past the tag both are read at the same distance from its end
    · obtain ⟨j, rfl⟩ := Nat.exists_eq_add_of_le (Nat.le_of_not_lt hk)
      have hline : ('<' :: '%' :: (u ++ '%' :: '>' :: post))[u.length + 4 + j]? = post[j]? := by
        have hsplit := taken_append_beyond (u.length + 4) ('<' :: '%' :: (u ++ '%' :: '>' :: post))
        rw [taken_inner, beyond_inner] at hsplit
        rw [← hsplit, List.getElem?_append_right (by simp)]
        simp
      have hout : (List.replicate (u.length + 4) ' ' ++ blankOut post)[u.length + 4 + j]? = (blankOut post)[j]? := by
        rw [List.getElem?_append_right (by simp)]
        simp
      rw [hline, hout]
      constructor
      · rintro (h | ⟨i, hi, h⟩)
        · exact absurd h hk
        · obtain rfl := Nat.add_left_cancel hi
          exact (ih j).1 h
      · exact fun h => (ih j).2 (fun hj => h (Or.inr ⟨j, rfl, hj⟩))
  | char c rest hc ih =>
    intro k
    rw [blankOut_char hc, covered_char_iff hc]
    cases k with
    | zero =>
      refine ⟨?_, fun _ => rfl⟩
      rintro ⟨j, hj, -⟩
      cases hj
    | succ k =>
      rw [List.getElem?_cons_succ, List.getElem?_cons_succ]
      constructor
      · rintro ⟨j, hj, h⟩
        obtain rfl := Nat.succ.inj hj
        exact (ih k).1 h
      · exact fun h => (ih k).2 (fun hk => h ⟨k, rfl, hk⟩)

/-! ## No tag is left -/

theorem blankOut_of_not_close {t : Text} (h : ¬ ['%', '>'] <:+: t) : blankOut t = t := by
  induction t with
  | nil => rfl
  | cons c t ih =>
    rw [blankOut_char (read?_of_not_close h), ih (fun hi => h (hi.trans (List.suffix_cons c t).isInfix))]

/-- A character that begins no tag begins none after blanking: a delimiter that nothing closes stays as it is, with all
that follows it. -/
theorem read?_blankOut_none {c : Char} {rest : Text} (hn : '\n' ∉ rest) (hc : read? (c :: rest) = none) :
    read? (c :: blankOut rest) = none := by
  by_cases hlt : c = '<'
  · subst hlt
    cases hr : read? ('<' :: blankOut rest) with
    | none => rfl
    | some tag =>
      obtain ⟨u, post, hs, -, -⟩ := read?_eq_some_iff.1 hr
      have hout : blankOut rest = '%' :: (u ++ '%' :: '>' :: post) := (List.cons.inj hs).2
      induction rest using tag_induct with
      | nil => cases hout
      | tag v post' hv _ =>
        rw [blankOut_tag hv, length_source_ofInside, List.replicate_succ] at hout
        exact absurd (List.cons.inj hout).1 (by decide)
      | char d rest hd _ =>
        rw [blankOut_char hd] at hout hr
        obtain ⟨rfl, -⟩ := List.cons.inj hout
        have hclose := not_close_of_read?_none (fun hm => hn (List.mem_cons_of_mem _ hm)) hc
        rw [blankOut_of_not_close hclose, hc] at hr
        cases hr
  · exact read?_cons_of_ne hlt _

theorem read?_of_isSuffix_blankOut {line : Text} (hn : '\n' ∉ line) : ∀ s, s <:+ blankOut line → read? s = none := by
  induction line using tag_induct with
  | nil =>
    intro s hs
    rw [List.suffix_nil.1 hs]
    rfl
  | tag u post hu ih =>
    have hpost : '\n' ∉ post := fun hm => hn (by simp [hm])
    rw [blankOut_tag hu]
    -- what begins in the blanks begins with a space
    generalize (ofInside u).source.length = n
    induction n with
    | zero => exact ih hpost
    | succ n ihn =>
      intro s hs
      rw [List.replicate_succ, List.cons_append] at hs
      rcases List.suffix_cons_iff.1 hs with rfl | hs
      · exact read?_cons_of_ne (by decide) _
      · exact ihn s hs
  | char c rest hc ih =>
    have hrest : '\n' ∉ rest := fun hm => hn (List.mem_cons_of_mem c hm)
    intro s hs
    rw [blankOut_char hc] at hs
    rcases List.suffix_cons_iff.1 hs with rfl | hs
    · exact read?_blankOut_none hrest hc
    · exact ih hrest s hs

theorem blanked_blankOut {line : Text} (hn : '\n' ∉ line) : Blanked line (blankOut line) where
  length := length_blankOut line
  inside k := (getElem?_blankOut line k).1
  outside k := (getElem?_blankOut line k).2
  untagged := read?_of_isSuffix_blankOut hn

/-! ## Texts and the gaps between them -/

theorem texts_nil : texts [] = [[]] := by simp [texts]

theorem texts_tag {u : Text} (hu : Inner u) (post : Text) :
    texts ('<' :: '%' :: (u ++ '%' :: '>' :: post)) = [] :: texts post := by
  rw [texts, scan_tag hu, List.splitOnP_cons_eq_if_modifyHead]
  simp [Piece.found?, texts]

theorem texts_char {c : Char} {rest : Text} (hc : read? (c :: rest) = none) :
    texts (c :: rest) = (texts rest).modifyHead (c :: ·) := by
  rw [texts, scan_char hc, List.splitOnP_cons_eq_if_modifyHead, texts]
  cases (scan finder rest).splitOnP (fun p => p.found?.isSome) <;> simp [Piece.found?, Piece.source]

end Template.Tag

/-- A text made of texts with gaps between them. -/
inductive Gapped : List Text → Text → Prop
  | last (t : Text) : Gapped [t] t
  | next (t : Text) {g s : Text} {ts : List Text} (hg : g ≠ []) (hb : allBlank g = true) (h : Gapped ts s) :
      Gapped (t :: ts) (t ++ (g ++ s))

theorem Gapped.cons {ts : List Text} {s : Text} (h : Gapped ts s) (c : Char) : Gapped (ts.modifyHead (c :: ·)) (c :: s) := by
  cases h with
  | last => exact Gapped.last (c :: s)
  | next t hg hb h => exact Gapped.next (c :: t) hg hb h

/-- The same texts are aligned, whatever the gaps between them. -/
theorem Gapped.aligned {ts : List Text} {s s' : Text} (h : Gapped ts s) (h' : Gapped ts s') : Aligned s s' := by
  induction h generalizing s' with
  | last t =>
    cases h' with
    | last => exact Aligned.refl _
    | next _ _ _ h => cases h
  | next t hg hb h ih =>
    cases h' with
    | last => cases h
    | next _ hg' hb' h' => exact (Aligned.gap hg hg' hb hb' (ih h')).append_left t

theorem gapped_blankOut (line : Text) : Gapped (texts line) (blankOut line) := by
  induction line using tag_induct with
  | nil =>
    rw [texts_nil, blankOut_nil]
    exact Gapped.last []
  | tag u post hu ih =>
    rw [texts_tag hu, blankOut_tag hu]
    exact Gapped.next [] (replicate_source_ne_nil _) (allBlank_replicate _) ih
  | char c rest hc ih =>
    rw [texts_char hc, blankOut_char hc]
    exact ih.cons c

theorem nesting_blankOut_eq {line other : Text} (h : texts other = texts line) :
    Nesting.ofLine (blankOut other) = Nesting.ofLine (blankOut line) := by
  have hal : Aligned (blankOut other) (blankOut line) := (gapped_blankOut other).aligned (h ▸ gapped_blankOut line)
  exact Respaced.nesting_eq hal.trimLeft

/-- **Blanking tags keeps places and leaves no tag**: a space stands at every place inside a tag, every other character
stays where it is, and no tag begins anywhere.  The nesting of what is left follows from the texts around the tags alone:
no matter what a tag holds, or how long it is. -/
theorem blankOut_exact {line : Text} (hn : '\n' ∉ line) : Blanked line (blankOut line) ∧
    ∀ other, texts other = texts line → Nesting.ofLine (blankOut other) = Nesting.ofLine (blankOut line) :=
  ⟨blanked_blankOut hn, fun _ => nesting_blankOut_eq⟩

/-- Tags among the attributes of an element and inside a quotation, one of them with a `>` in it, and a delimiter at the end
that opens no tag. -/
theorem blankOut_exact_attributes :
    let line := txt "</b><p <% a %>id='<%= b %>'>1<%"
    let other := txt "</b><p <%# a > b %>id='<%-== b->c -%>'>1<%"
    '\n' ∉ line ∧ texts other = texts line ∧ texts line = [txt "</b><p ", txt "id='", txt "'>1<%"] ∧
      Blanked line (txt "</b><p        id='        '>1<%") ∧ Nesting.ofLine (blankOut other) = ⟨1, 0, none, none⟩ := by
  intro line other
  have hn : '\n' ∉ line := by decide
  have hline : texts line = [txt "</b><p ", txt "id='", txt "'>1<%"] := by decide +kernel
  have hother : texts other = texts line := by decide +kernel
  have hout : blankOut line = txt "</b><p        id='        '>1<%" := by decide +kernel
  have hnesting : Nesting.ofLine (blankOut line) = ⟨1, 0, none, none⟩ := by decide +kernel
  obtain ⟨hblanked, hsame⟩ := blankOut_exact hn
  rw [hout] at hblanked
  exact ⟨hn, hother, hline, hblanked, (hsame other hother).trans hnesting⟩

end EpFormat
