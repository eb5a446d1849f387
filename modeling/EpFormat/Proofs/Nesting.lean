import EpFormat.Proofs.Respace
/-!
# Nesting — the nesting of a line does not depend on its spacing

Tags of markup are read word by word, so that aligned texts have the same tags one by one (`Aligned.readElement`), and
respaced lines have the same nesting (`Respaced.nesting_eq`).  `Aligned.scan_induct` walks through two aligned texts at
once with a finder that reads the same in both.
-/
namespace EpFormat

namespace Aligned

variable {s t : Text}

/-- **Induction through two aligned texts**, find by find: what is found at the head of one is found at the head of the
other, with aligned texts after it.  The finder may ask for texts of a kind that all their ends are of. -/
theorem scan_induct {α : Type} {find : Finder Char α} {P : Text → Prop} {R : α → α → Prop}
    (hP : ∀ {a b : Text}, P (a ++ b) → P b)
    (hread : ∀ {s t : Text}, Aligned s t → P s → P t → ∀ {a n}, find none s = some (a, n) →
      ∃ b m, find none t = some (b, m) ∧ R a b ∧ Aligned (beyond n s) (beyond m t))
    {motive : Text → Text → Prop} (blank : ∀ s t, allBlank s = true → allBlank t = true → motive s t)
    (gap : ∀ g k s t, g ≠ [] → k ≠ [] → allBlank g = true → allBlank k = true → motive s t → motive (g ++ s) (k ++ t))
    (hit : ∀ c s t a n b m, find none (c :: s) = some (a, n) → find none (c :: t) = some (b, m) → R a b →
      motive (beyond n (c :: s)) (beyond m (c :: t)) → motive (c :: s) (c :: t))
    (char : ∀ c s t, find none (c :: s) = none → find none (c :: t) = none → motive s t → motive (c :: s) (c :: t))
    {s t : Text} (h : Aligned s t) (hs : P s) (ht : P t) : motive s t := by
  have hbeyond : ∀ (n : Nat) {u : Text}, P u → P (beyond n u) := fun n u hu =>
    hP (a := taken n u) (by rwa [taken_append_beyond])
  -- a find may take any number of characters, so the induction is on the length and not along the alignment
  obtain ⟨n, hn⟩ : ∃ n, s.length = n := ⟨_, rfl⟩
  induction n using Nat.strongRecOn generalizing s t with
  | ind n ih =>
    subst hn
    cases h with
    | blank hbs hbt => exact blank s t hbs hbt
    | @gap g k s t hg hk hbg hbk h =>
      have hlen : s.length < (g ++ s).length := by
        rw [List.length_append]
        have := List.length_pos_iff.2 hg
        omega
      exact gap g k s t hg hk hbg hbk (ih _ hlen h (hP hs) (hP ht) rfl)
    | @char c s t h =>
      cases hf : find none (c :: s) with
      | none =>
        have hf' : find none (c :: t) = none := by
          cases hf' : find none (c :: t) with
          | none => rfl
          | some p =>
            obtain ⟨b, m, hb, -⟩ := hread (Aligned.char c h).symm ht hs hf'
            rw [hb] at hf
            cases hf
        exact char c s t hf hf' (ih _ (Nat.lt_succ_self _) h (hP (a := [c]) hs) (hP (a := [c]) ht) rfl)
      | some p =>
        obtain ⟨b, m, hb, hr, hal⟩ := hread (Aligned.char c h) hs ht hf
        exact hit c s t p.1 p.2 b m hf hb hr (ih _ (length_beyond_lt p.2 c s) hal (hbeyond _ hs) (hbeyond _ ht) rfl)

end Aligned

/-! ## Tags of markup -/

namespace Markup.Element

theorem isNameChar_of_isBlank {c : Char} (h : isBlank c = true) : isNameChar c = false := by
  have h₁ : c ≠ ':' := ne_of_isBlank (by decide) h
  have h₂ : c ≠ '-' := ne_of_isBlank (by decide) h
  simp [isNameChar, isWord_of_isBlank h, h₁, h₂]

theorem isAttributeChar_of_isBlank {c : Char} (h : isBlank c = true) : isAttributeChar c = true := by
  have h₁ : c ≠ '<' := ne_of_isBlank (by decide) h
  have h₂ : c ≠ '>' := ne_of_isBlank (by decide) h
  simp [isAttributeChar, h₁, h₂]

theorem readSlash_of_ne {t : Text} (h : ∀ r, t ≠ '/' :: r) : readSlash t = (false, t) := by
  unfold readSlash
  split
  · rename_i r
    exact absurd rfl (h r)
  · rfl

end Markup.Element

open Markup Markup.Element

namespace Aligned

variable {s t : Text}

theorem readSlash (h : Aligned s t) :
    (Element.readSlash s).1 = (Element.readSlash t).1 ∧ Aligned (Element.readSlash s).2 (Element.readSlash t).2 := by
  rcases h.head_cases (show isBlank '/' = false by decide) with ⟨r, r', rfl, rfl, hr⟩ | ⟨hs, ht⟩
  · exact ⟨rfl, hr⟩
  · rw [readSlash_of_ne hs, readSlash_of_ne ht]
    exact ⟨rfl, h⟩

theorem getLast?_blank_append {g : Text} (hg : g ≠ []) (hb : allBlank g = true) (r : Text) (a : Char) :
    ∃ y, isBlank y = true ∧ (g ++ r).getLast?.getD a = r.getLast?.getD y := by
  refine ⟨g.getLast hg, allBlank_iff.1 hb _ (List.getLast_mem hg), ?_⟩
  rw [List.getLast?_append, List.getLast?_eq_some_getLast hg]
  cases r.getLast? <;> rfl

/-- Up to the same closing character both texts end with the same ink, or with white space. -/
theorem getLast_takeWhile {p : Char → Bool} (hp : ∀ c, isBlank c = true → p c = true) (h : Aligned s t) :
    s.dropWhile p ≠ [] → ∀ {a b x : Char}, a = b ∨ isBlank a = true ∧ isBlank b = true → isBlank x = false →
      ((s.takeWhile p).getLast?.getD a = x ↔ (t.takeWhile p).getLast?.getD b = x) := by
  have hends : ∀ {a b x : Char}, a = b ∨ isBlank a = true ∧ isBlank b = true → isBlank x = false → (a = x ↔ b = x) := by
    rintro a b x (rfl | ⟨ha, hb⟩) hx
    · exact Iff.rfl
    · exact iff_of_false (by rintro rfl; rw [ha] at hx; cases hx) (by rintro rfl; rw [hb] at hx; cases hx)
  have hblank : ∀ {g r : Text}, allBlank g = true → (g ++ r).takeWhile p = g ++ r.takeWhile p ∧
      (g ++ r).dropWhile p = r.dropWhile p := fun hg =>
    ⟨List.takeWhile_append_of_pos (fun c hc => hp c (allBlank_iff.1 hg c hc)),
      List.dropWhile_append_of_pos (fun c hc => hp c (allBlank_iff.1 hg c hc))⟩
  induction h with
  | blank hs ht =>
    intro hne a b x
    have := (hblank (r := []) hs).2
    rw [List.append_nil] at this
    exact absurd this hne
  -- `a` and `b` are the characters before the place: they are the last ones if the class stops here
  | char c h ih =>
    intro hne a b x hab hx
    cases hc : p c with
    | true =>
      rw [List.dropWhile_cons_of_pos hc] at hne
      rw [List.takeWhile_cons_of_pos hc, List.takeWhile_cons_of_pos hc, List.getLast?_cons, List.getLast?_cons]
      exact ih hne (Or.inl rfl) hx
    | false =>
      rw [List.takeWhile_cons_of_neg (by simp [hc]), List.takeWhile_cons_of_neg (by simp [hc])]
      exact hends hab hx
  | gap hg hk hbg hbk h ih =>
    intro hne a b x hab hx
    rw [(hblank hbg).2] at hne
    rw [(hblank hbg).1, (hblank hbk).1]
    obtain ⟨y, hy, hly⟩ := getLast?_blank_append hg hbg _ a
    obtain ⟨z, hz, hlz⟩ := getLast?_blank_append hk hbk _ b
    rw [hly, hlz]
    exact ih hne (Or.inr ⟨hy, hz⟩) hx

theorem drop_takeWhile (p : Char → Bool) (r : Text) : r.drop (r.takeWhile p).length = r.dropWhile p := by
  have := @List.drop_left _ (r.takeWhile p) (r.dropWhile p)
  rwa [List.takeWhile_append_dropWhile] at this

/-- A tag with a gap after its name ends at the next `>`, if no `<` comes before it. -/
theorem readClose_gap {c : Char} (hc : isBlank c = true) (r : Text) :
    Element.readClose (c :: r) = match r.dropWhile isAttributeChar with
      | '>' :: _ =>
        some ((r.takeWhile isAttributeChar).getLast?.getD c == '/', (r.takeWhile isAttributeChar).length + 2)
      | _ => none := by
  have h₁ : c ≠ '>' := ne_of_isBlank (by decide) hc
  have h₂ : c ≠ '/' := ne_of_isBlank (by decide) hc
  rw [Element.readClose]
  · simp only [hc, if_true, List.getLast?_cons, List.length_cons]
    rfl
  · exact h₁
  · exact fun _ h => absurd h h₂

theorem drop_readClose_gap (c : Char) {r post : Text} (h : r.dropWhile isAttributeChar = '>' :: post) :
    (c :: r).drop ((r.takeWhile isAttributeChar).length + 2) = post := by
  rw [List.drop_succ_cons, ← List.drop_drop, drop_takeWhile, h]
  rfl

/-- Right after a name a tag ends with `>` or `/>`, and then both texts do. -/
theorem readClose_of_ink {c : Char} {r : Text} (hc : isBlank c = false) (h : Aligned (c :: r) t) {b : Bool} {n : Nat}
    (hr : Element.readClose (c :: r) = some (b, n)) :
    ∃ m, Element.readClose t = some (b, m) ∧ Aligned ((c :: r).drop n) (t.drop m) := by
  unfold Element.readClose at hr
  split at hr
  · rename_i post heq
    obtain ⟨rfl, rfl⟩ := List.cons.inj heq
    obtain ⟨t, rfl, h'⟩ := h.cons_inv hc
    obtain ⟨rfl, rfl⟩ := Prod.mk.inj (Option.some.inj hr)
    exact ⟨1, rfl, h'⟩
  · rename_i post heq
    obtain ⟨rfl, rfl⟩ := List.cons.inj heq
    obtain ⟨t, rfl, h'⟩ := h.cons_inv hc
    obtain ⟨t, rfl, h''⟩ := h'.cons_inv (by decide)
    obtain ⟨rfl, rfl⟩ := Prod.mk.inj (Option.some.inj hr)
    exact ⟨2, rfl, h''⟩
  · rename_i heq
    obtain ⟨rfl, rfl⟩ := List.cons.inj heq
    rw [hc] at hr
    cases hr
  · cases hr

/-- After a gap both texts go on to the same `>`, and both have a slash before it or neither. -/
theorem readClose_of_blank {c : Char} {r : Text} (hc : isBlank c = true) (h : Aligned (c :: r) t) {b : Bool} {n : Nat}
    (hr : Element.readClose (c :: r) = some (b, n)) :
    ∃ m, Element.readClose t = some (b, m) ∧ Aligned ((c :: r).drop n) (t.drop m) := by
  rw [readClose_gap hc] at hr
  split at hr
  · rename_i post hpost
    obtain ⟨rfl, rfl⟩ := Prod.mk.inj (Option.some.inj hr)
    have hclose : '>' ∈ r := (List.dropWhile_suffix _).subset (hpost ▸ List.mem_cons_self)
    have hne : allBlank (c :: r) = false := by
      cases hb : allBlank (c :: r) with
      | false => rfl
      | true => exact absurd (allBlank_iff.1 hb '>' (List.mem_cons_of_mem c hclose)) (by decide)
    obtain ⟨d, r', rfl, hd⟩ := h.blank_inv hc hne
    have hpass := h.dropWhile_blank (fun _ => isAttributeChar_of_isBlank)
    have hlast := h.getLast_takeWhile (fun _ => isAttributeChar_of_isBlank)
      (by rw [List.dropWhile_cons_of_pos (isAttributeChar_of_isBlank hc), hpost]; simp) (Or.inr ⟨hc, hd⟩)
      (show isBlank '/' = false by decide)
    rw [List.takeWhile_cons_of_pos (isAttributeChar_of_isBlank hc),
      List.takeWhile_cons_of_pos (isAttributeChar_of_isBlank hd), List.getLast?_cons, List.getLast?_cons] at hlast
    rw [List.dropWhile_cons_of_pos (isAttributeChar_of_isBlank hc),
      List.dropWhile_cons_of_pos (isAttributeChar_of_isBlank hd), hpost] at hpass
    obtain ⟨post', hpost', halign⟩ := hpass.cons_inv (by decide)
    refine ⟨(r'.takeWhile isAttributeChar).length + 2, ?_, ?_⟩
    · have hsame : ((r.takeWhile isAttributeChar).getLast?.getD c == '/')
          = ((r'.takeWhile isAttributeChar).getLast?.getD d == '/') := by
        rw [Bool.eq_iff_iff, beq_iff_eq, beq_iff_eq]
        exact hlast
      rw [readClose_gap hd, hpost', hsame]
      rfl
    · rw [drop_readClose_gap c hpost, drop_readClose_gap d hpost']
      exact halign
  · cases hr

theorem readClose (h : Aligned s t) {b : Bool} {n : Nat} (hr : Element.readClose s = some (b, n)) :
    ∃ m, Element.readClose t = some (b, m) ∧ Aligned (s.drop n) (t.drop m) := by
  cases s with
  | nil => cases hr
  | cons c r =>
    cases hc : isBlank c with
    | false => exact readClose_of_ink hc h hr
    | true => exact readClose_of_blank hc h hr

theorem drop_name {isEnd : Bool} {c : Char} {more rest : Text} (n : Nat) (h : Element.readSlash rest = (isEnd, c :: more)) :
    ('<' :: rest).drop ((if isEnd then 2 else 1) + (c :: more.takeWhile isNameChar).length + n)
      = (more.dropWhile isNameChar).drop n := by
  unfold Element.readSlash at h
  split at h
  · obtain ⟨rfl, rfl⟩ := Prod.mk.inj h
    have hn : (if true = true then 2 else 1) + (c :: more.takeWhile isNameChar).length + n
        = (more.takeWhile isNameChar).length + n + 1 + 1 + 1 := by simp; omega
    rw [hn, List.drop_succ_cons, List.drop_succ_cons, List.drop_succ_cons, ← List.drop_drop, drop_takeWhile]
  · obtain ⟨rfl, rfl⟩ := Prod.mk.inj h
    have hn : (if false = true then 2 else 1) + (c :: more.takeWhile isNameChar).length + n
        = (more.takeWhile isNameChar).length + n + 1 + 1 := by simp; omega
    rw [hn, List.drop_succ_cons, List.drop_succ_cons, ← List.drop_drop, drop_takeWhile]

/-- **What is read at the head of one text is read at the head of the other**, but for its size. -/
theorem readElement (h : Aligned s t) {e : Element} (hr : Element.read? s = some e) :
    ∃ e', Element.read? t = some e' ∧ (e'.isEnd = e.isEnd ∧ e'.name = e.name ∧ e'.selfClosing = e.selfClosing) ∧
      Aligned (s.drop e.size) (t.drop e'.size) := by
  cases s with
  | nil => cases hr
  | cons c₀ rest =>
    by_cases hc₀ : c₀ = '<'
    · subst hc₀
      obtain ⟨rest', rfl, h'⟩ := h.cons_inv (by decide)
      obtain ⟨hend, hbody⟩ := h'.readSlash
      simp only [Element.read?] at hr ⊢
      split at hr
      · rename_i c more hcm
        split at hr
        · rename_i halpha
          rw [hcm] at hbody
          obtain ⟨more', hmore', hm⟩ := hbody.cons_inv (isBlank_of_isAlpha halpha)
          obtain ⟨htake, hdrop⟩ := hm.takeWhile_ink (fun _ => isNameChar_of_isBlank)
          split at hr
          · rename_i b n hclose
            obtain rfl := Option.some.inj hr
            obtain ⟨m, hm', hal⟩ := hdrop.readClose hclose
            rw [hmore']
            simp only [halpha, if_true, hm', ← htake, ← hend]
            refine ⟨_, rfl, ⟨rfl, rfl, rfl⟩, ?_⟩
            rw [drop_name n (Prod.ext rfl hcm), htake, hend, drop_name m (Prod.ext rfl hmore')]
            exact hal
          · cases hr
        · cases hr
      · cases hr
    · simp [Element.read?, hc₀] at hr

theorem readElement_none (h : Aligned s t) (hr : Element.read? s = none) : Element.read? t = none := by
  refine h.read_none (fun h _ hr => ?_) hr
  obtain ⟨e', he', -⟩ := h.readElement hr
  exact ⟨e', he'⟩

end Aligned

/-! ## What the tags of a line add up to -/

namespace Markup.Element

theorem finder_blind : Finder.Blind finder := fun _ _ _ => rfl

theorem read?_cons_of_ne {c : Char} (h : c ≠ '<') (t : Text) : read? (c :: t) = none := by simp [read?, h]

theorem size_pos {t : Text} {e : Element} (h : read? t = some e) : 0 < e.size := by
  unfold read? at h
  split at h
  · simp only at h
    split at h
    · split at h
      · split at h
        · obtain rfl := Option.some.inj h
          simp only [List.length_cons]
          omega
        · cases h
      · cases h
    · cases h
  · cases h

theorem all_item {c : Char} {t : Text} (h : finder none (c :: t) = none) : all (c :: t) = all t := by
  rw [all, finds, scan_item finder_blind h]
  rfl

theorem all_hit {c : Char} {t : Text} {e : Element} {n : Nat} (h : finder none (c :: t) = some (e, n)) :
    all (c :: t) = e :: all (beyond n (c :: t)) := by
  rw [all, finds, scan_hit finder_blind h]
  rfl

theorem all_cons_of_ne {c : Char} (h : c ≠ '<') (t : Text) : all (c :: t) = all t :=
  all_item (by rw [finder, read?_cons_of_ne h]; rfl)

theorem all_append_of_ne : ∀ {a : Text}, (∀ c ∈ a, c ≠ '<') → ∀ t, all (a ++ t) = all t
  | [], _, _ => rfl
  | c :: a, ha, t => by
    rw [List.cons_append, all_cons_of_ne (ha c List.mem_cons_self),
      all_append_of_ne (fun d hd => ha d (List.mem_cons_of_mem c hd))]

theorem all_blank_append {b : Text} (hb : allBlank b = true) (t : Text) : all (b ++ t) = all t :=
  all_append_of_ne (fun c hc => ne_of_isBlank (by decide) (allBlank_iff.1 hb c hc)) t

theorem all_trimLeft (t : Text) : all (Text.trimLeft t) = all t := by
  obtain ⟨a, ha, ht⟩ := Text.exists_trimLeft t
  conv => rhs; rw [ht, all_blank_append ha]

end Markup.Element

namespace Aligned

variable {s t : Text}

theorem finder_element (h : Aligned s t) {e : Element} {n : Nat} (hr : Element.finder none s = some (e, n)) :
    ∃ e' m, Element.finder none t = some (e', m) ∧ e.weight = e'.weight ∧ Aligned (beyond n s) (beyond m t) := by
  obtain ⟨a, ha, hp⟩ := Option.map_eq_some_iff.1 hr
  obtain ⟨rfl, rfl⟩ := Prod.mk.inj hp
  obtain ⟨e', he', ⟨h₁, h₂, h₃⟩, hal⟩ := h.readElement ha
  have hmax : max a.size 1 = a.size ∧ max e'.size 1 = e'.size := by
    have := size_pos ha
    have := size_pos he'
    omega
  refine ⟨e', e'.size, by rw [Element.finder, he']; rfl, ?_, by rw [beyond, beyond, hmax.1, hmax.2]; exact hal⟩
  rw [Element.weight, Element.weight, h₁, h₂, h₃]

/-- **Aligned texts have tags of the same weights.** -/
theorem weights_eq (h : Aligned s t) : (Element.all s).map Element.weight = (Element.all t).map Element.weight := by
  have hblank : ∀ {b : Text}, allBlank b = true → Element.all b = [] := fun {b} hb => by
    have := all_blank_append hb []
    rwa [List.append_nil] at this
  refine scan_induct (P := fun _ => True) (fun _ => trivial) (fun h _ _ => h.finder_element)
    (motive := fun s t => (Element.all s).map Element.weight = (Element.all t).map Element.weight)
    ?_ ?_ ?_ ?_ h trivial trivial
  · intro s t hs ht
    rw [hblank hs, hblank ht]
  · intro g k s t _ _ hbg hbk ih
    rw [all_blank_append hbg, all_blank_append hbk, ih]
  · intro c s t e n e' m he he' hw ih
    rw [all_hit he, all_hit he', List.map_cons, List.map_cons, hw, ih]
  · intro c s t hs ht ih
    rw [all_item hs, all_item ht, ih]

end Aligned

namespace Respaced

variable {s t : Text}

theorem weights_eq (h : Respaced s t) : (Element.all s).map Element.weight = (Element.all t).map Element.weight := by
  rw [← all_trimLeft s, ← all_trimLeft t]
  exact Aligned.weights_eq h

theorem leadingEnds_blank {t : Text} (ht : allBlank t = true) (k : Nat) : Element.leadingEnds k t = 0 := by
  cases k with
  | zero => rfl
  | succ k => simp only [Element.leadingEnds, show t.dropWhile isBlank = [] from Text.trimLeft_eq_nil_iff.2 ht, Element.read?]

/-- The end tags that begin respaced texts are as many, and enough steps find them all. -/
theorem leadingEnds_eq : ∀ {f k : Nat} {s t : Text}, s.length ≤ f → t.length ≤ k → Respaced s t →
    Element.leadingEnds f s = Element.leadingEnds k t
  | 0, k, s, t, hs, _, h => by
    obtain rfl : s = [] := List.eq_nil_of_length_eq_zero (by omega)
    have hb := h.allBlank_eq
    rw [leadingEnds_blank (hb ▸ rfl : allBlank t = true)]
    rfl
  | f + 1, 0, s, t, _, ht, h => by
    obtain rfl : t = [] := List.eq_nil_of_length_eq_zero (by omega)
    have hb := h.allBlank_eq
    rw [leadingEnds_blank (hb.trans rfl : allBlank s = true)]
    rfl
  | f + 1, k + 1, s, t, hs, ht, h => by
    -- Each end tag takes some characters, so that the steps are enough for what follows it.
    have hal : Aligned (s.dropWhile isBlank) (t.dropWhile isBlank) := h
    have hslen : (s.dropWhile isBlank).length ≤ s.length := (List.dropWhile_sublist _).length_le
    have htlen : (t.dropWhile isBlank).length ≤ t.length := (List.dropWhile_sublist _).length_le
    simp only [Element.leadingEnds]
    cases hr : Element.read? (s.dropWhile isBlank) with
    | none => rw [hal.readElement_none hr]
    | some e =>
      obtain ⟨e', he', ⟨hend, -, -⟩, hrest⟩ := hal.readElement hr
      have hsize := size_pos hr
      have hsize' := size_pos he'
      rw [he']
      simp only [hend]
      split
      · refine congrArg (· + 1) (leadingEnds_eq ?_ ?_ hrest.trimLeft)
        · rw [List.length_drop]
          omega
        · rw [List.length_drop]
          omega
      · rfl

end Respaced

/-! ## Raw elements -/

namespace Markup

def IsSmall (a : Char) : Prop := 97 ≤ a.toNat ∧ a.toNat ≤ 122

theorem isBlank_of_sameLetter {a c : Char} (ha : IsSmall a) (h : sameLetter a c = true) : isBlank c = false := by
  cases hb : isBlank c with
  | false => rfl
  | true =>
    have hcodes : ∀ n ∈ blankCodes, ¬ (97 ≤ n ∧ n ≤ 122) ∧ ¬ (65 ≤ n ∧ n ≤ 90) ∧ n ≠ 0x17F ∧ n ≠ 0x130 ∧ n ≠ 0x131 := by
      decide
    obtain ⟨h₁, h₂, h₃, h₄, h₅⟩ := hcodes c.toNat (toNat_mem_blankCodes hb)
    obtain ⟨ha₁, ha₂⟩ := ha
    simp only [sameLetter, Bool.or_eq_true, Bool.and_eq_true, decide_eq_true_eq] at h
    rcases h with ((rfl | h) | h) | h <;> omega

instance (a : Char) : Decidable (IsSmall a) := inferInstanceAs (Decidable (_ ∧ _))

theorem small_rawNames : ∀ word ∈ rawNames, ∀ a ∈ word, IsSmall a := by
  have hall : ∀ word ∈ rawNames, word.all (fun a => decide (IsSmall a)) = true := by decide
  exact fun word hword => Text.forall_mem_of_all (hall word hword)

end Markup

namespace Aligned

variable {s t : Text}

theorem spelled? : ∀ {word : Text}, (∀ a ∈ word, IsSmall a) → ∀ {s t name r : Text}, Aligned s t →
    Markup.spelled? word s = some (name, r) → ∃ r', Markup.spelled? word t = some (name, r') ∧ Aligned r r'
  | [], _, s, t, name, r, h, hr => by
    obtain ⟨rfl, rfl⟩ := Prod.mk.inj (Option.some.inj hr)
    exact ⟨t, rfl, h⟩
  | _ :: _, _, [], _, _, _, _, hr => by cases hr
  | a :: word, hw, c :: s, t, name, r, h, hr => by
    rw [Markup.spelled?] at hr
    split at hr
    · rename_i hac
      obtain ⟨⟨name', r'⟩, hsp, hp⟩ := Option.map_eq_some_iff.1 hr
      obtain ⟨rfl, rfl⟩ := Prod.mk.inj hp
      obtain ⟨t, rfl, hst⟩ := h.cons_inv (isBlank_of_sameLetter (hw a List.mem_cons_self) hac)
      obtain ⟨r'', hr'', hal⟩ := spelled? (fun b hb => hw b (List.mem_cons_of_mem a hb)) hst hsp
      exact ⟨r'', by rw [Markup.spelled?, if_pos hac, hr'']; rfl, hal⟩
    · cases hr

theorem rawName? (h : Aligned s t) {name r : Text} (hr : Markup.rawName? s = some (name, r)) :
    ∃ r', Markup.rawName? t = some (name, r') ∧ Aligned r r' := by
  have hwords : ∀ words : List Text, (∀ word ∈ words, ∀ a ∈ word, IsSmall a) →
      words.findSome? (fun word => Markup.spelled? word s) = some (name, r) →
        ∃ r', words.findSome? (fun word => Markup.spelled? word t) = some (name, r') ∧ Aligned r r' := by
    intro words
    induction words with
    | nil => exact fun _ hf => by cases hf
    | cons word words ih =>
      intro hsmall hf
      rw [List.findSome?_cons] at hf ⊢
      have hword := hsmall word List.mem_cons_self
      cases hs : Markup.spelled? word s with
      | some p =>
        rw [hs] at hf
        obtain rfl := Option.some.inj hf
        obtain ⟨r', hr', hal⟩ := spelled? hword h hs
        exact ⟨r', by rw [hr'], hal⟩
      | none =>
        rw [hs] at hf
        have ht : Markup.spelled? word t = none := by
          refine h.read_none (fun h p hp => ?_) hs
          obtain ⟨r', hr', -⟩ := spelled? hword h hp
          exact ⟨_, hr'⟩
        rw [ht]
        exact ih (fun w hw => hsmall w (List.mem_cons_of_mem word hw)) hf
  exact hwords rawNames small_rawNames hr

theorem endsAtClose_eq (h : Aligned s t) : endsAtClose s = endsAtClose t := by
  have hpass := h.dropWhile_blank (p := fun c => c != '>') (fun c hc => by
    simpa using ne_of_isBlank (show isBlank '>' = false by decide) hc)
  have hhead : ∀ {u : Text} {c : Char} {r : Text}, u.dropWhile (fun c => c != '>') = c :: r → c = '>' := by
    intro u c r hu
    have := List.head?_dropWhile_not (fun c => c != '>') u
    rw [hu] at this
    simpa using this
  unfold endsAtClose
  cases hs : s.dropWhile (fun c => c != '>') with
  | cons c r =>
    obtain rfl := hhead hs
    rw [hs] at hpass
    obtain ⟨r', hr', hal⟩ := hpass.cons_inv (by decide)
    rw [hr']
    exact hal.allBlank_eq
  | nil =>
    cases ht : t.dropWhile (fun c => c != '>') with
    | nil => rfl
    | cons c r =>
      obtain rfl := hhead ht
      rw [hs, ht] at hpass
      obtain ⟨_, h', -⟩ := hpass.symm.cons_inv (by decide)
      cases h'

end Aligned

namespace Respaced

variable {s t : Text}

theorem rawOpen?_eq_some (h : Respaced s t) {name : Text} (hs : rawOpen? s = some name) : rawOpen? t = some name := by
  have hal : Aligned (s.dropWhile isBlank) (t.dropWhile isBlank) := h
  unfold rawOpen? at hs ⊢
  split at hs
  · rename_i rest hrest
    rw [hrest] at hal
    obtain ⟨rest', hrest', hal⟩ := hal.cons_inv (by decide)
    split at hs
    · rename_i spelling after hname
      obtain ⟨after', hname', hal⟩ := hal.rawName? hname
      rw [hrest']
      simp only [hname', ← hal.startsWord_eq, ← hal.endsAtClose_eq]
      exact hs
    · cases hs
  · cases hs

theorem rawClose?_eq_some (h : Respaced s t) {name : Text} (hs : rawClose? s = some name) : rawClose? t = some name := by
  have hal : Aligned (s.dropWhile isBlank) (t.dropWhile isBlank) := h
  unfold rawClose? at hs ⊢
  split at hs
  · rename_i rest hrest
    rw [hrest] at hal
    obtain ⟨slash, hslash, hal₁⟩ := hal.cons_inv (by decide)
    obtain ⟨rest', rfl, hal₂⟩ := hal₁.cons_inv (by decide)
    split at hs
    · rename_i spelling after hname
      obtain ⟨after', hname', hal⟩ := hal₂.rawName? hname
      split at hs
      · rename_i tail htail
        have hgap : Aligned (after.dropWhile isBlank) (after'.dropWhile isBlank) := hal.trimLeft
        rw [htail] at hgap
        obtain ⟨tail', htail', hal⟩ := hgap.cons_inv (by decide)
        rw [hslash]
        simp only [hname', htail', ← hal.allBlank_eq]
        exact hs
      · cases hs
    · cases hs
  · cases hs

theorem rawClose?_eq (h : Respaced s t) : rawClose? s = rawClose? t :=
  Option.ext fun _ => ⟨h.rawClose?_eq_some, h.symm.rawClose?_eq_some⟩

/-- **Respaced lines have the same nesting.** -/
theorem nesting_eq (h : Respaced s t) : Nesting.ofLine s = Nesting.ofLine t := by
  have hopen : rawOpen? s = rawOpen? t := Option.ext fun _ => ⟨h.rawOpen?_eq_some, h.symm.rawOpen?_eq_some⟩
  rw [Nesting.ofLine, Nesting.ofLine, leadingEnds_eq (Nat.le_refl _) (Nat.le_refl _) h, h.weights_eq, hopen,
    h.rawClose?_eq]

end Respaced
end EpFormat
