import EpFormat.Proofs.Ink
import EpFormat.Proofs.Spacing
import EpFormat.Proofs.Trim
/-!
# Respace — texts that differ in white space only, and nowhere but at white space

Two texts with the same ink may still differ in where words begin and end.  `Aligned` texts do not: a gap of one is a gap
of the other, however wide, and nothing else differs but white space at the end.  `Respaced` texts may differ in white
space at the beginning too.  What is read from a text word by word reads the same from both.
-/
namespace EpFormat

/-- Texts that begin alike and have their gaps in the same places; white space at the end does not count. -/
inductive Aligned : Text → Text → Prop
  | blank {s t : Text} (hs : allBlank s = true) (ht : allBlank t = true) : Aligned s t
  | char (c : Char) {s t : Text} (h : Aligned s t) : Aligned (c :: s) (c :: t)
  | gap {g k s t : Text} (hg : g ≠ []) (hk : k ≠ []) (hbg : allBlank g = true) (hbk : allBlank k = true)
      (h : Aligned s t) : Aligned (g ++ s) (k ++ t)

namespace Aligned

variable {s t : Text}

theorem refl : ∀ t : Text, Aligned t t
  | [] => blank rfl rfl
  | c :: t => char c (refl t)

theorem symm (h : Aligned s t) : Aligned t s := by
  induction h with
  | blank hs ht => exact blank ht hs
  | char c _ ih => exact char c ih
  | gap hg hk hbg hbk _ ih => exact gap hk hg hbk hbg ih

theorem append_left (p : Text) (h : Aligned s t) : Aligned (p ++ s) (p ++ t) := by
  induction p with
  | nil => exact h
  | cons c p ih => exact char c ih

theorem append_blank {b : Text} (hb : allBlank b = true) (t : Text) : Aligned t (t ++ b) := by
  have := append_left t (blank (s := []) rfl hb)
  rwa [List.append_nil] at this

theorem allBlank_eq (h : Aligned s t) : allBlank s = allBlank t := by
  induction h with
  | blank hs ht => rw [hs, ht]
  | char c _ ih => rw [allBlank_cons, allBlank_cons, ih]
  | gap _ _ hbg hbk _ ih => rw [allBlank_append, allBlank_append, hbg, hbk, ih]

theorem trimLeft (h : Aligned s t) : Aligned (Text.trimLeft s) (Text.trimLeft t) := by
  induction h with
  | blank hs ht =>
    rw [Text.trimLeft_eq_nil_iff.2 hs, Text.trimLeft_eq_nil_iff.2 ht]
    exact refl []
  | @char c s t h ih =>
    cases hc : isBlank c with
    | true => rwa [Text.trimLeft_cons_of_blank hc, Text.trimLeft_cons_of_blank hc]
    | false =>
      rw [Text.trimLeft_cons_of_not_blank hc, Text.trimLeft_cons_of_not_blank hc]
      exact char c h
  | gap _ _ hbg hbk _ ih => rwa [Text.trimLeft_append_of_blank hbg, Text.trimLeft_append_of_blank hbk]

/-- What begins with ink begins alike. -/
theorem cons_inv {c : Char} (hc : isBlank c = false) {u : Text} (h : Aligned (c :: s) u) :
    ∃ t, u = c :: t ∧ Aligned s t := by
  generalize hv : c :: s = v at h
  cases h with
  | blank hs ht =>
    rw [← hv] at hs
    simp [hc] at hs
  | char d h =>
    obtain ⟨rfl, rfl⟩ := List.cons.inj hv
    exact ⟨_, rfl, h⟩
  | @gap g k s' t' hg hk hbg hbk h =>
    obtain ⟨d, g, rfl⟩ := List.exists_cons_of_ne_nil hg
    rw [← (List.cons.inj hv).1] at hbg
    simp [hc] at hbg

/-- Both begin with a given ink, or neither does. -/
theorem head_cases {c : Char} (hc : isBlank c = false) (h : Aligned s t) :
    (∃ r r', s = c :: r ∧ t = c :: r' ∧ Aligned r r') ∨ (∀ r, s ≠ c :: r) ∧ ∀ r, t ≠ c :: r := by
  by_cases hs : ∃ r, s = c :: r
  · obtain ⟨r, rfl⟩ := hs
    obtain ⟨r', rfl, hr⟩ := h.cons_inv hc
    exact Or.inl ⟨r, r', rfl, rfl, hr⟩
  · refine Or.inr ⟨fun r hr => hs ⟨r, hr⟩, ?_⟩
    rintro r rfl
    obtain ⟨r', hr', -⟩ := h.symm.cons_inv hc
    exact hs ⟨r', hr'⟩

/-- What reads something from one of two aligned texts whenever it does from the other reads nothing from both. -/
theorem read_none {α : Type} {read : Text → Option α}
    (hread : ∀ {s t : Text}, Aligned s t → ∀ {a}, read s = some a → ∃ b, read t = some b) (h : Aligned s t)
    (hs : read s = none) : read t = none := by
  cases ht : read t with
  | none => rfl
  | some a =>
    obtain ⟨b, hb⟩ := hread h.symm ht
    rw [hb] at hs
    cases hs

/-- What begins with white space begins so in both, or is white space throughout. -/
theorem blank_inv {c : Char} (hc : isBlank c = true) {u : Text} (h : Aligned (c :: s) u)
    (hne : allBlank (c :: s) = false) : ∃ d t, u = d :: t ∧ isBlank d = true := by
  generalize hv : c :: s = v at h
  cases h with
  | blank hs ht => rw [hv, hs] at hne; cases hne
  | char d h => exact ⟨d, _, rfl, (List.cons.inj hv).1 ▸ hc⟩
  | @gap g k s' t' hg hk hbg hbk h =>
    obtain ⟨d, k, rfl⟩ := List.exists_cons_of_ne_nil hk
    exact ⟨d, k ++ t', rfl, by simpa using (Bool.and_eq_true _ _ ▸ hbk : isBlank d = true ∧ _).1⟩

/-- Two texts that begin with white space are aligned if they are after it. -/
theorem of_gap {c d : Char} (hc : isBlank c = true) (hd : isBlank d = true)
    (h : Aligned (Text.trimLeft s) (Text.trimLeft t)) : Aligned (c :: s) (d :: t) := by
  obtain ⟨a, ha, hs⟩ := Text.exists_trimLeft s
  obtain ⟨b, hb, ht⟩ := Text.exists_trimLeft t
  rw [hs, ht]
  exact gap (g := c :: a) (k := d :: b) (by simp) (by simp) (by simp [hc, ha]) (by simp [hd, hb]) h

theorem trans {s t u : Text} (h₁ : Aligned s t) (h₂ : Aligned t u) : Aligned s u := by
  match s with
  | [] => exact blank rfl (by rw [← h₂.allBlank_eq, ← h₁.allBlank_eq]; rfl)
  | c :: s =>
    cases hc : isBlank c with
    | false =>
      obtain ⟨t, rfl, hst⟩ := h₁.cons_inv hc
      obtain ⟨u, rfl, htu⟩ := h₂.cons_inv hc
      exact char c (trans hst htu)
    | true =>
      cases hb : allBlank (c :: s) with
      | true => exact blank hb (by rw [← h₂.allBlank_eq, ← h₁.allBlank_eq, hb])
      | false =>
        obtain ⟨d, t, rfl, hd⟩ := h₁.blank_inv hc hb
        obtain ⟨e, u, rfl, he⟩ := h₂.blank_inv hd (by rw [← h₁.allBlank_eq, hb])
        have hst := h₁.trimLeft
        have htu := h₂.trimLeft
        rw [Text.trimLeft_cons_of_blank hc, Text.trimLeft_cons_of_blank hd] at hst
        rw [Text.trimLeft_cons_of_blank hd, Text.trimLeft_cons_of_blank he] at htu
        have hlen : (Text.trimLeft s).length ≤ s.length := (List.dropWhile_sublist _).length_le
        exact of_gap hc he (trans hst htu)
termination_by s.length

theorem ink_eq (h : Aligned s t) : ink s = ink t := by
  induction h with
  | blank hs ht => rw [(ink_eq_nil_iff _).2 hs, (ink_eq_nil_iff _).2 ht]
  | @char c s t _ ih => rw [ink_cons c s, ink_cons c t, ih]
  | gap _ _ hbg hbk _ ih => rw [ink_append, ink_append, (ink_eq_nil_iff _).2 hbg, (ink_eq_nil_iff _).2 hbk, ih]

/-! ## Reading aligned texts -/

theorem startsWord_eq (h : Aligned s t) : startsWord s = startsWord t := by
  have hword : ∀ {b : Text}, allBlank b = true → ∀ r, b = [] ∨ startsWord (b ++ r) = false := by
    intro b hb r
    cases b with
    | nil => exact Or.inl rfl
    | cons c b => exact Or.inr (isWord_of_isBlank (allBlank_iff.1 hb c List.mem_cons_self))
  cases h with
  | blank hs ht =>
    have hnone : ∀ {b : Text}, allBlank b = true → startsWord b = false := fun {b} hb => by
      rcases hword hb [] with rfl | h
      · rfl
      · rwa [List.append_nil] at h
    rw [hnone hs, hnone ht]
  | char c h => rfl
  | gap hg hk hbg hbk h => rw [(hword hbg _).resolve_left hg, (hword hbk _).resolve_left hk]

theorem after? : ∀ {word : Text}, (∀ c ∈ word, isBlank c = false) → ∀ {s t r : Text}, Aligned s t →
    Text.after? word s = some r → ∃ r', Text.after? word t = some r' ∧ Aligned r r'
  | [], _, s, t, r, h, hr => ⟨t, rfl, by rwa [← Option.some.inj hr]⟩
  | a :: word, hw, [], t, r, h, hr => by cases hr
  | a :: word, hw, c :: s, t, r, h, hr => by
    rw [Text.after?] at hr
    split at hr
    · rename_i hac
      subst hac
      obtain ⟨t, rfl, h'⟩ := h.cons_inv (hw a List.mem_cons_self)
      obtain ⟨r', hr', hrr⟩ := after? (fun d hd => hw d (List.mem_cons_of_mem _ hd)) h' hr
      exact ⟨r', by rw [Text.after?, if_pos rfl, hr'], hrr⟩
    · cases hr

section

variable {p : Char → Bool}

/-- A class without white space stops at the same place in both. -/
theorem takeWhile_ink (hp : ∀ c, isBlank c = true → p c = false) (h : Aligned s t) :
    s.takeWhile p = t.takeWhile p ∧ Aligned (s.dropWhile p) (t.dropWhile p) := by
  have hstop : ∀ {b : Text}, allBlank b = true → ∀ r, b = [] ∨ (b ++ r).takeWhile p = [] ∧ (b ++ r).dropWhile p = b ++ r := by
    intro b hb r
    cases b with
    | nil => exact Or.inl rfl
    | cons c b =>
      have hc := hp c (allBlank_iff.1 hb c List.mem_cons_self)
      exact Or.inr ⟨List.takeWhile_cons_of_neg (by simp [hc]), List.dropWhile_cons_of_neg (by simp [hc])⟩
  induction h with
  | blank hs ht =>
    have hnone : ∀ {b : Text}, allBlank b = true → b.takeWhile p = [] ∧ b.dropWhile p = b := fun {b} hb => by
      rcases hstop hb [] with rfl | h
      · exact ⟨rfl, rfl⟩
      · rwa [List.append_nil] at h
    rw [(hnone hs).1, (hnone ht).1, (hnone hs).2, (hnone ht).2]
    exact ⟨rfl, blank hs ht⟩
  | char c h ih =>
    rw [List.takeWhile_cons, List.takeWhile_cons, List.dropWhile_cons, List.dropWhile_cons]
    split
    · exact ⟨by rw [ih.1], ih.2⟩
    · exact ⟨rfl, char c h⟩
  | gap hg hk hbg hbk h _ =>
    obtain ⟨h₁, h₂⟩ := (hstop hbg _).resolve_left hg
    obtain ⟨h₃, h₄⟩ := (hstop hbk _).resolve_left hk
    rw [h₁, h₂, h₃, h₄]
    exact ⟨rfl, gap hg hk hbg hbk h⟩

/-- A class with all white space is passed in both alike. -/
theorem dropWhile_blank (hp : ∀ c, isBlank c = true → p c = true) (h : Aligned s t) :
    Aligned (s.dropWhile p) (t.dropWhile p) := by
  have hpass : ∀ {b : Text}, allBlank b = true → ∀ r, (b ++ r).dropWhile p = r.dropWhile p := fun hb r =>
    List.dropWhile_append_of_pos (fun c hc => hp c (allBlank_iff.1 hb c hc))
  induction h with
  | blank hs ht =>
    have hs' := hpass hs []
    have ht' := hpass ht []
    rw [List.append_nil] at hs' ht'
    rw [hs', ht']
    exact refl _
  | char c h ih =>
    rw [List.dropWhile_cons, List.dropWhile_cons]
    split
    · exact ih
    · exact char c h
  | gap _ _ hbg hbk _ ih => rwa [hpass hbg, hpass hbk]

end

/-! ## Texts put on one line -/

theorem collapsePad (t : Text) : Aligned t (Perl.collapsePad t) := by
  induction t using Perl.pad_induct with
  | nil => exact refl []
  | pad g t hg hp ht ih =>
    rw [Perl.collapsePad_pad hg hp ht]
    exact gap (k := [' ']) hg (by simp) (allBlank_iff.2 (fun c hc => isBlank_of_isPad (hp c hc))) rfl ih
  | char c t hc ih =>
    rw [Perl.collapsePad_char hc]
    exact char c ih

theorem joinLines (t : Text) : Aligned t (Text.join [' '] (Text.lines t)) := by
  -- A line and its boundary become the line and a space, unless nothing follows.
  have hline : ∀ (l b rest : Text), b ≠ [] → allBlank b = true → Aligned rest (Text.join [' '] (Text.lines rest)) →
      Aligned (l ++ (b ++ rest)) (Text.join [' '] (l :: Text.lines rest)) := by
    intro l b rest hb hbb ih
    cases hr : Text.lines rest with
    | nil =>
      have hrest : allBlank rest = true := by rw [ih.allBlank_eq, hr]; rfl
      have := append_blank (b := b ++ rest) (by simp [hbb, hrest]) l
      simpa [Text.join] using this.symm
    | cons m ls =>
      rw [hr] at ih
      rw [Text.join, List.intercalate_cons_cons, List.append_assoc]
      exact append_left l (gap (k := [' ']) hb (by simp) hbb rfl ih)
  induction t using Text.lines_induct with
  | nil => exact refl []
  | last l hl hne =>
    rw [Text.lines_unbroken hl hne]
    simpa [Text.join] using refl l
  | single l c rest hl hc hpair ih =>
    rw [Text.lines_break hl hc hpair]
    exact hline l [c] rest (by simp) (by simp [isBlank_of_isLineBreak hc]) ih
  | pair l rest hl ih =>
    rw [Text.lines_pair hl]
    exact hline l ['\r', '\n'] rest (by simp) (by simp) ih

theorem isPrefix : ∀ {w s t : Text}, (∀ c ∈ w, isBlank c = false) → Aligned s t → w <+: s → w <+: t
  | [], _, _, _, _, _ => List.nil_prefix
  | _ :: _, [], _, _, _, hp => absurd (List.prefix_nil.1 hp) (by simp)
  | c :: w, d :: s, t, hw, h, hp => by
    obtain ⟨rfl, hps⟩ := List.cons_prefix_cons.1 hp
    obtain ⟨t, rfl, hst⟩ := h.cons_inv (hw c List.mem_cons_self)
    exact List.cons_prefix_cons.2 ⟨rfl, isPrefix (fun d hd => hw d (List.mem_cons_of_mem _ hd)) hst hps⟩

theorem infix_of_blank_append {w : Text} (hw : ∀ c ∈ w, isBlank c = false) (hne : w ≠ []) : ∀ {b r : Text},
    allBlank b = true → w <:+: b ++ r → w <:+: r
  | [], _, _, hi => hi
  | c :: b, r, hb, hi => by
    rw [allBlank_cons, Bool.and_eq_true] at hb
    refine infix_of_blank_append hw hne hb.2 ((List.infix_cons_iff.1 hi).resolve_left (fun hp => ?_))
    obtain ⟨d, w, rfl⟩ := List.exists_cons_of_ne_nil hne
    have := hw d List.mem_cons_self
    rw [(List.cons_prefix_cons.1 hp).1, hb.1] at this
    cases this

/-- A word that stands in one text stands in the other. -/
theorem isInfix {w : Text} (hw : ∀ c ∈ w, isBlank c = false) (hne : w ≠ []) (h : Aligned s t) (hi : w <:+: s) :
    w <:+: t := by
  induction h with
  | blank hs ht => exact absurd (List.infix_nil.1 (infix_of_blank_append hw hne (r := []) hs (by simpa using hi))) hne
  | char c h ih =>
    rcases List.infix_cons_iff.1 hi with hp | hi
    · exact (isPrefix hw (char c h) hp).isInfix
    · exact (ih hi).trans (List.suffix_cons c _).isInfix
  | gap _ _ hbg _ _ ih => exact (ih (infix_of_blank_append hw hne hbg hi)).trans (List.suffix_append _ _).isInfix

end Aligned

theorem mem_of_mem_onOneLine {c : Char} {ls : List Text} (h : c ∈ Perl.onOneLine ls) : c = ' ' ∨ ∃ l ∈ ls, c ∈ l := by
  rcases Perl.mem_collapsePad ((Text.trim_isInfix _).subset h) with hc | hc
  · exact (Text.mem_join hc).imp List.mem_singleton.1 id
  · exact Or.inl hc

theorem mem_onOneLine {c : Char} {t : Text} (h : c ∈ Perl.onOneLine (Text.lines t)) :
    c ∈ t ∧ isLineBreak c = false ∨ c = ' ' := by
  rcases mem_of_mem_onOneLine h with hc | ⟨l, hl, hc⟩
  · exact Or.inr hc
  · exact Or.inl (Text.mem_of_mem_lines hl hc)

/-- Texts that are aligned but for white space at their beginning. -/
def Respaced (s t : Text) : Prop := Aligned (Text.trimLeft s) (Text.trimLeft t)

namespace Respaced

variable {s t u : Text}

theorem symm (h : Respaced s t) : Respaced t s := Aligned.symm h

theorem trans (h₁ : Respaced s t) (h₂ : Respaced t u) : Respaced s u := Aligned.trans h₁ h₂

theorem allBlank_eq (h : Respaced s t) : allBlank s = allBlank t := by
  have := Aligned.allBlank_eq h
  rw [Bool.eq_iff_iff, ← Text.trimLeft_eq_nil_iff, ← Text.trimLeft_eq_nil_iff] at this ⊢
  rwa [Text.trimLeft_idem, Text.trimLeft_idem] at this

theorem trim (t : Text) : Respaced t (Text.trim t) := by
  rw [Respaced, Text.trimLeft_trim]
  obtain ⟨b, hb, ht⟩ := Text.exists_trimRight (Text.trimLeft t)
  conv => lhs; rw [ht]
  exact (Aligned.append_blank hb _).symm

theorem head?_trimLeft (h : Respaced s t) {c : Char} (hs : (Text.trimLeft s).head? = some c) :
    (Text.trimLeft t).head? = some c := by
  obtain ⟨r, hr⟩ := List.head?_eq_some_iff.1 hs
  rw [Respaced, hr] at h
  obtain ⟨r', hr', -⟩ := Aligned.cons_inv (Text.isBlank_of_trimLeft hr) h
  rw [hr', List.head?_cons]

/-- **A text on one line is the text respaced.** -/
theorem onOneLine (t : Text) : Respaced t (Perl.onOneLine (Text.lines t)) :=
  trans (Aligned.joinLines t |>.trans (Aligned.collapsePad _)).trimLeft (trim _)

theorem isInfix {w : Text} (hw : ∀ c ∈ w, isBlank c = false) (hne : w ≠ []) (h : Respaced s t) (hi : w <:+: s) :
    w <:+: t := by
  obtain ⟨a, ha, hs⟩ := Text.exists_trimLeft s
  have hleft : w <:+: Text.trimLeft s := Aligned.infix_of_blank_append hw hne ha (by rwa [← hs])
  exact (Aligned.isInfix hw hne h hleft).trans (List.dropWhile_suffix _).isInfix

end Respaced
end EpFormat
