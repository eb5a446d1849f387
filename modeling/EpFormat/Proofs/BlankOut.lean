import EpFormat.Proofs.Nesting
import EpFormat.Proofs.TagLine
/-!
# BlankOut — the nesting of a row, its template tags blanked

Blanking a tag leaves a gap, so that it does not matter what stands in the tag or how it is spaced.  Rows that differ in
spacing have the same nesting (`Respaced.rowNesting_eq`), and so has a row as it is written (`rowNesting_line`).
-/
namespace EpFormat

open Template Template.Tag Markup

theorem blankOut_nil : blankOut [] = [] := rfl

theorem blankOut_hit {c : Char} {rest : Text} {tag : Tag} {n : Nat} (h : finder none (c :: rest) = some (tag, n)) :
    blankOut (c :: rest) = List.replicate tag.source.length ' ' ++ blankOut (beyond n (c :: rest)) := by
  rw [blankOut, substitute_eq, show scanFrom finder none = scan finder from rfl, scan_hit finder_blind h]
  rfl

theorem blankOut_tag {u : Text} (h : Inner u) (post : Text) :
    blankOut ('<' :: '%' :: (u ++ '%' :: '>' :: post)) = List.replicate (ofInside u).source.length ' ' ++ blankOut post := by
  rw [blankOut_hit (finder_inner h post), beyond_inner]

theorem blankOut_char {c : Char} {rest : Text} (h : read? (c :: rest) = none) :
    blankOut (c :: rest) = c :: blankOut rest := by
  rw [blankOut, substitute_eq, show scanFrom finder none = scan finder from rfl, scan_char h]
  rfl

theorem blankOut_cons_of_ne {c : Char} (h : c ≠ '<') (rest : Text) : blankOut (c :: rest) = c :: blankOut rest :=
  blankOut_char (read?_cons_of_ne h rest)

theorem blankOut_append_of_ne : ∀ {a : Text}, (∀ c ∈ a, c ≠ '<') → ∀ t, blankOut (a ++ t) = a ++ blankOut t
  | [], _, _ => rfl
  | c :: a, ha, t => by
    rw [List.cons_append, blankOut_cons_of_ne (ha c List.mem_cons_self),
      blankOut_append_of_ne (fun d hd => ha d (List.mem_cons_of_mem c hd))]
    rfl

theorem blankOut_blank_append {a : Text} (ha : allBlank a = true) (t : Text) : blankOut (a ++ t) = a ++ blankOut t :=
  blankOut_append_of_ne (fun c hc => ne_of_isBlank (by decide) (allBlank_iff.1 ha c hc)) t

theorem replicate_source_ne_nil (tag : Tag) : List.replicate tag.source.length ' ' ≠ [] := by
  rw [source_eq]
  simp

theorem allBlank_replicate (n : Nat) : allBlank (List.replicate n ' ') = true :=
  allBlank_iff.2 (fun c hc => by rw [(List.mem_replicate.1 hc).2]; rfl)

namespace Aligned

variable {s t : Text}

/-- The first closing delimiter of one text is the first of the other. -/
theorem close (h : Aligned s t) : '\n' ∉ t → ∀ {u post : Text}, s = u ++ '%' :: '>' :: post → Inner u →
    ∃ u' post', t = u' ++ '%' :: '>' :: post' ∧ Inner u' ∧ Aligned post post' := by
  induction h with
  | @blank s t hbs hbt =>
    rintro - u post rfl
    simp [show isBlank '%' = false by decide] at hbs
  | @char c s t h ih =>
    intro hn u post hs hu
    have hnt : '\n' ∉ t := fun hm => hn (List.mem_cons_of_mem c hm)
    cases u with
    | nil =>
      obtain ⟨rfl, rfl⟩ := List.cons.inj hs
      obtain ⟨t, rfl, h'⟩ := h.cons_inv (by decide)
      exact ⟨[], t, rfl, inner_nil, h'⟩
    | cons d u =>
      obtain ⟨rfl, rfl⟩ := List.cons.inj hs
      obtain ⟨u', post', rfl, hu', hal⟩ := ih hnt rfl hu.tail
      refine ⟨c :: u', post', rfl, ⟨fun hi => ?_, fun hm => hn ((List.prefix_append (c :: u') _).subset hm)⟩, hal⟩
      -- an earlier closing delimiter at the head of the second text would be one of the first as well
      rcases List.infix_cons_iff.1 hi with hp | hi
      · obtain ⟨rfl, w, rfl⟩ := List.cons_prefix_cons.1 hp
        obtain ⟨v, hv, -⟩ := h.symm.cons_inv (s := w ++ '%' :: '>' :: post') (by decide)
        cases u with
        | nil => cases hv
        | cons e u =>
          obtain ⟨rfl, -⟩ := List.cons.inj hv
          exact hu.1 ⟨[], u, rfl⟩
      · exact hu'.1 hi
  | @gap g k s t hg hk hbg hbk h ih =>
    intro hn u post hs hu
    obtain ⟨v, rfl, rfl⟩ := split_blank_append (by decide) hbg hs
    obtain ⟨v', post', rfl, hv', hal⟩ := ih (fun hm => hn (List.mem_append_right k hm)) rfl
      (hu.of_isInfix (List.suffix_append g v).isInfix)
    refine ⟨k ++ v', post', by rw [List.append_assoc], inner_append (fun c hc => ?_) hv', hal⟩
    exact ⟨ne_of_isBlank (by decide) (allBlank_iff.1 hbk c hc), fun hcn => hn (List.mem_append_left _ (hcn ▸ hc))⟩

theorem finder_tag (h : Aligned s t) (hn : '\n' ∉ t) {tag : Tag} {n : Nat} (hr : finder none s = some (tag, n)) :
    ∃ tag' m, finder none t = some (tag', m) ∧ True ∧ Aligned (beyond n s) (beyond m t) := by
  obtain ⟨_, ha, -⟩ := Option.map_eq_some_iff.1 hr
  obtain ⟨u, post, rfl, hu, rfl⟩ := read?_eq_some_iff.1 ha
  obtain ⟨t₁, rfl, h₁⟩ := h.cons_inv (by decide)
  obtain ⟨t₂, rfl, h₂⟩ := h₁.cons_inv (by decide)
  obtain ⟨u', post', rfl, hu', hal⟩ := h₂.close (fun hm => hn (by simp [hm])) rfl hu
  rw [finder_inner hu] at hr
  obtain ⟨rfl, rfl⟩ := Prod.mk.inj (Option.some.inj hr)
  refine ⟨ofInside u', u'.length + 4, finder_inner hu' post', trivial, ?_⟩
  rw [beyond_inner, beyond_inner]
  exact hal

/-- **Blanking keeps texts aligned.** -/
theorem blankOut (h : Aligned s t) (hs : '\n' ∉ s) (ht : '\n' ∉ t) : Aligned (Tag.blankOut s) (Tag.blankOut t) := by
  have hblank : ∀ {b : Text}, allBlank b = true → Tag.blankOut b = b := fun {b} hb => by
    have := blankOut_blank_append hb []
    rwa [blankOut_nil, List.append_nil] at this
  refine scan_induct (P := fun u => '\n' ∉ u) (fun hn hm => hn (List.mem_append_right _ hm))
    (fun h _ hn => h.finder_tag hn) (motive := fun s t => Aligned (Tag.blankOut s) (Tag.blankOut t)) ?_ ?_ ?_ ?_ h hs ht
  · intro s t hbs hbt
    rw [hblank hbs, hblank hbt]
    exact blank hbs hbt
  · intro g k s t hg hk hbg hbk ih
    rw [blankOut_blank_append hbg, blankOut_blank_append hbk]
    exact gap hg hk hbg hbk ih
  · intro c s t tag n tag' m htag htag' _ ih
    rw [blankOut_hit htag, blankOut_hit htag']
    exact gap (replicate_source_ne_nil tag) (replicate_source_ne_nil tag') (allBlank_replicate _) (allBlank_replicate _) ih
  · intro c s t hs ht ih
    rw [blankOut_char (Option.map_eq_none_iff.1 hs), blankOut_char (Option.map_eq_none_iff.1 ht)]
    exact char c ih

end Aligned

/-! ## Rows -/

def rowNesting (row : Text) : Nesting := Nesting.ofLine (Tag.blankOut row)

/-- **Rows that differ in spacing have the same nesting.** -/
theorem Respaced.rowNesting_eq {s t : Text} (h : Respaced s t) (hs : '\n' ∉ s) (ht : '\n' ∉ t) :
    rowNesting s = rowNesting t := by
  have hfront : ∀ u : Text, Respaced (Tag.blankOut u) (Tag.blankOut (Text.trimLeft u)) := by
    intro u
    obtain ⟨a, ha, hu⟩ := Text.exists_trimLeft u
    conv => lhs; rw [hu, blankOut_blank_append ha]
    rw [Respaced, Text.trimLeft_append_of_blank ha]
    exact Aligned.refl _
  have hleft : ∀ {u : Text}, '\n' ∉ u → '\n' ∉ Text.trimLeft u := fun hn hm => hn ((List.dropWhile_suffix _).subset hm)
  have hal : Aligned (Tag.blankOut (Text.trimLeft s)) (Tag.blankOut (Text.trimLeft t)) :=
    Aligned.blankOut h (hleft hs) (hleft ht)
  exact ((hfront s).trans (Respaced.trans hal.trimLeft (hfront t).symm)).nesting_eq

/-- **A line as it is written has the nesting of the line.** -/
theorem rowNesting_line {τ : Treatment} (hτ : τ.Inward) {row : Text} (hn : '\n' ∉ row) :
    rowNesting (τ.line true row) = rowNesting row := by
  suffices h : Aligned (Tag.blankOut row) (Tag.blankOut (τ.line true row)) from
    (Respaced.nesting_eq h.trimLeft).symm
  induction row using tag_induct with
  | nil => exact Aligned.refl _
  | tag u post hu ih =>
    rw [τ.line_tag hu, blankOut_tag hu, blankOut_tag (hτ.inside hu)]
    exact Aligned.gap (replicate_source_ne_nil _) (replicate_source_ne_nil _) (allBlank_replicate _)
      (allBlank_replicate _) (ih (fun hm => hn (by simp [hm])))
  | char c rest hc ih =>
    rw [τ.line_char hc, blankOut_char hc, blankOut_char (Treatment.read?_line_none hn hc)]
    exact Aligned.char c (ih (fun hm => hn (List.mem_cons_of_mem c hm)))

/-- A directive has no nesting at its beginning, and the rest of it counts whatever its spacing. -/
theorem rowNesting_directive {kind : Kind} {s t : Text} (h : Respaced s t) (hs : '\n' ∉ s) (ht : '\n' ∉ t) :
    rowNesting ('%' :: (kind.mark ++ s)) = rowNesting ('%' :: (kind.mark ++ t)) := by
  have hmark : ∀ c ∈ kind.mark, c ≠ '<' := by cases kind <;> exact Text.forall_mem_of_all (by decide)
  have hrow : ∀ u : Text, rowNesting ('%' :: (kind.mark ++ u)) = ⟨0, (rowNesting u).net, none, none⟩ := by
    intro u
    have hblank : isBlank '%' = false := by decide
    have hfirst : ∀ v : Text, ('%' :: v).dropWhile isBlank = '%' :: v := Text.trimLeft_cons_of_not_blank hblank
    rw [rowNesting, blankOut_cons_of_ne (by decide), blankOut_append_of_ne hmark, Nesting.ofLine, List.length_cons,
      Element.leadingEnds, Element.all_cons_of_ne (by decide), Element.all_append_of_ne hmark, rawOpen?, rawClose?]
    simp only [hfirst, Element.read?_cons_of_ne (show '%' ≠ '<' by decide)]
    rfl
  rw [hrow, hrow, h.rowNesting_eq hs ht]

end EpFormat
