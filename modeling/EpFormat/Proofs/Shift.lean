import EpFormat.Proofs.BlankOut
import EpFormat.Proofs.Words
/-!
# Shift — the move of depth at a row, and at the row as it is written

What moves the depth of Perl blocks is read past white space, so that trimming a row does not change its shift
(`shift_trim`).  A directive keeps its shift when its code is respaced (`shift_directive`).
-/
namespace EpFormat

open Template Template.Tag

/-! ## Reading past white space -/

namespace Aligned

variable {s t : Text}

theorem readChomp (h : Aligned s t) :
    (Tag.readChomp s).1 = (Tag.readChomp t).1 ∧ Aligned (Tag.readChomp s).2 (Tag.readChomp t).2 := by
  rcases h.head_cases (show isBlank '-' = false by decide) with ⟨r, r', rfl, rfl, hr⟩ | ⟨hs, ht⟩
  · exact ⟨rfl, hr⟩
  · rw [readChomp_of_ne hs, readChomp_of_ne ht]
    exact ⟨rfl, h⟩

theorem closesTag (h : Aligned s t) (hs : Template.closesTag s = true) : Template.closesTag t = true := by
  have hal := h.trimLeft.readChomp.2
  unfold Template.closesTag at hs ⊢
  split at hs
  · rename_i rest hrest
    rw [show Text.trimLeft s = s.dropWhile isBlank from rfl, hrest] at hal
    obtain ⟨r₁, h₁, hal₁⟩ := hal.cons_inv (by decide)
    obtain ⟨r₂, rfl, hal₂⟩ := hal₁.cons_inv (by decide)
    rw [show t.dropWhile isBlank = Text.trimLeft t from rfl, h₁]
    simp only
    rw [← hal₂.allBlank_eq, hs]
  · cases hs

end Aligned

/-! ## What a tag holds alone -/

/-- A reader of what a tag may hold alone: it takes ink from the head of a text, never a mark or a delimiter. -/
structure Lead (read : Text → Option Text) : Prop where
  nil : read [] = none
  suffix : ∀ {t rest : Text}, read t = some rest → rest <:+ t
  append : ∀ {c : Char}, c = '%' ∨ c = '-' → ∀ a r : Text, read (a ++ c :: r) = (read a).map (· ++ c :: r)
  mark : ∀ {c : Char}, c = '=' ∨ c = '#' → ∀ t : Text, read (c :: t) = none
  aligned : ∀ {s t rest : Text}, Aligned s t → read s = some rest → ∃ rest', read t = some rest' ∧ Aligned rest rest'

/-- Reads closing braces. -/
def readBraces : Text → Option Text
  | '\x7d' :: t => some (t.dropWhile (· = '\x7d'))
  | _ => none

theorem Text.after?_append_cons {c : Char} : ∀ {w : Text}, c ∉ w → ∀ a r : Text,
    Text.after? w (a ++ c :: r) = (Text.after? w a).map (· ++ c :: r)
  | [], _, a, r => by simp [Text.after?]
  | b :: w, hw, [], r => by
    have hbc : b ≠ c := fun h => hw (h ▸ List.mem_cons_self)
    show Text.after? (b :: w) (c :: r) = none
    rw [Text.after?, if_neg hbc]
  | b :: w, hw, d :: a, r => by
    rw [List.cons_append, Text.after?, Text.after?]
    split
    · exact Text.after?_append_cons (fun h => hw (List.mem_cons_of_mem b h)) a r
    · rfl

theorem lead_end : Lead (Text.after? (txt "end")) where
  nil := rfl
  suffix h := ⟨_, (Text.after?_eq_some h).symm⟩
  append hc a r := Text.after?_append_cons (by rcases hc with rfl | rfl <;> decide) a r
  mark hc t := by rcases hc with rfl | rfl <;> rfl
  aligned h hr := h.after? (Text.forall_mem_of_all (by decide)) hr

theorem lead_braces : Lead readBraces where
  nil := rfl
  suffix {t rest} h := by
    unfold readBraces at h
    split at h
    · obtain rfl := Option.some.inj h
      exact (List.dropWhile_suffix _).trans (List.suffix_cons _ _)
    · cases h
  append {c} hc a r := by
    have hne : c ≠ '\x7d' := by rcases hc with rfl | rfl <;> decide
    cases a with
    | nil => simp [readBraces, hne]
    | cons d a =>
      by_cases hd : d = '\x7d'
      · subst hd
        have hdrop : (a ++ c :: r).dropWhile (· = '\x7d') = a.dropWhile (· = '\x7d') ++ c :: r := by
          induction a with
          | nil => simp [hne]
          | cons e a ih =>
            rw [List.cons_append, List.dropWhile_cons, List.dropWhile_cons]
            split
            · exact ih
            · rfl
        exact congrArg some hdrop
      · simp [readBraces, hd]
  mark hc t := by rcases hc with rfl | rfl <;> rfl
  aligned {s t rest} h hr := by
    unfold readBraces at hr
    split at hr
    · obtain rfl := Option.some.inj hr
      obtain ⟨t, rfl, h'⟩ := h.cons_inv (by decide)
      refine ⟨_, rfl, (h'.takeWhile_ink (fun c hc => ?_)).2⟩
      simpa using ne_of_isBlank (show isBlank '\x7d' = false by decide) hc
    · cases hr

/-- Whether the line is a tag that holds alone what the reader takes. -/
def isTagOf (read : Text → Option Text) (line : Text) : Bool :=
  match insideTag? line with
  | some inner =>
    match read inner with
    | some rest => closesTag rest
    | none => false
  | none => false

theorem isEndTag_eq (line : Text) : isEndTag line = isTagOf (Text.after? (txt "end")) line := rfl

theorem isBraceTag_eq (line : Text) : isBraceTag line = isTagOf readBraces line := by
  unfold isBraceTag isTagOf
  cases insideTag? line with
  | none => rfl
  | some inner =>
    unfold readBraces
    split
    · rename_i h
      obtain rfl := Option.some.inj h
      rfl
    · rename_i h
      simp only
      split
      · rename_i heq
        split at heq
        · exact absurd rfl (h _)
        · cases heq
      · rfl

theorem Respaced.insideTag? {s t inner : Text} (h : Respaced s t) (hs : Template.insideTag? s = some inner) :
    ∃ inner', Template.insideTag? t = some inner' ∧ Aligned inner inner' := by
  have hal : Aligned (s.dropWhile isBlank) (t.dropWhile isBlank) := h
  unfold Template.insideTag? at hs ⊢
  split at hs
  · rename_i rest hrest
    obtain rfl := Option.some.inj hs
    rw [hrest] at hal
    obtain ⟨r₁, h₁, hal₁⟩ := hal.cons_inv (by decide)
    obtain ⟨r₂, rfl, hal₂⟩ := hal₁.cons_inv (by decide)
    rw [h₁]
    exact ⟨_, rfl, hal₂.readChomp.2.trimLeft⟩
  · cases hs

theorem Respaced.isTagOf_eq {read : Text → Option Text} (hread : Lead read) {s t : Text} (h : Respaced s t) :
    isTagOf read s = isTagOf read t := by
  have himp : ∀ {s t : Text}, Respaced s t → isTagOf read s = true → isTagOf read t = true := by
    intro s t h hs
    unfold isTagOf at hs ⊢
    split at hs
    · rename_i inner hinner
      obtain ⟨inner', hinner', hal⟩ := h.insideTag? hinner
      split at hs
      · rename_i rest hrest
        obtain ⟨rest', hrest', hal'⟩ := hread.aligned hal hrest
        rw [hinner']
        simp only [hrest']
        exact hal'.closesTag hs
      · cases hs
    · cases hs
  exact Bool.eq_iff_iff.2 ⟨himp h, himp h.symm⟩

/-! ## Directives -/

theorem isEndDirective_percent {s t r r' : Text} (hs : Text.trimLeft s = '%' :: r) (ht : Text.trimLeft t = '%' :: r')
    (h : Respaced r r') : isEndDirective s = isEndDirective t := by
  have himp : ∀ {s t r r' : Text}, Text.trimLeft s = '%' :: r → Text.trimLeft t = '%' :: r' → Respaced r r' →
      isEndDirective s = true → isEndDirective t = true := by
    intro s t r r' hs ht h hd
    rw [isEndDirective, show s.dropWhile isBlank = _ from hs] at hd
    rw [isEndDirective, show t.dropWhile isBlank = _ from ht]
    simp only at hd ⊢
    split at hd
    · rename_i after hafter
      obtain ⟨after', hafter', hal⟩ := Aligned.after? (Text.forall_mem_of_all (by decide)) h hafter
      rw [show r'.dropWhile isBlank = Text.trimLeft r' from rfl, hafter']
      simp only
      rw [← hal.startsWord_eq, hd]
    · cases hd
  exact Bool.eq_iff_iff.2 ⟨himp hs ht h, himp ht hs h.symm⟩

theorem leadingBraces_percent {s t r r' : Text} (hs : Text.trimLeft s = '%' :: r) (ht : Text.trimLeft t = '%' :: r')
    (h : Respaced r r') : leadingBraces s = leadingBraces t := by
  have htake := (Aligned.takeWhile_ink (p := fun c => decide (c = '\x7d'))
    (fun c hc => by simpa using ne_of_isBlank (show isBlank '\x7d' = false by decide) hc) h).1
  rw [leadingBraces, leadingBraces, show s.dropWhile isBlank = _ from hs, show t.dropWhile isBlank = _ from ht]
  exact congrArg List.length htake

theorem isEndDirective_of_ne {s : Text} (hs : ∀ r, Text.trimLeft s ≠ '%' :: r) : isEndDirective s = false := by
  unfold isEndDirective
  split
  · rename_i r hr
    exact absurd hr (hs r)
  · rfl

theorem leadingBraces_of_ne {s : Text} (hs : ∀ r, Text.trimLeft s ≠ '%' :: r) : leadingBraces s = 0 := by
  unfold leadingBraces
  split
  · rename_i r hr
    exact absurd hr (hs r)
  · rfl

theorem Directive.toLineEnd?_of_not_mem {t : Text} (h : '\n' ∉ t) : Directive.toLineEnd? t = some t := by
  have hdrop : t.dropWhile (· != '\n') = [] := by
    have := @List.dropWhile_append_of_pos _ (fun c => c != '\n') t []
      (fun c hc => by simpa using fun hcn : c = '\n' => h (hcn ▸ hc))
    simpa using this
  rw [Directive.toLineEnd?, hdrop]

theorem Directive.read?_percent {s r : Text} (hs : Text.trimLeft s = '%' :: r) (hn : '\n' ∉ s) :
    Directive.read? s = some ⟨s.takeWhile isBlank, (Kind.read r).1, (Kind.read r).2⟩ := by
  have hr : '\n' ∉ (Kind.read r).2 := fun hm => by
    have h₁ : '\n' ∈ r := by
      rw [← Kind.mark_read r]
      exact List.mem_append_right _ hm
    exact hn ((List.dropWhile_suffix (p := isBlank)).subset (by
      rw [show s.dropWhile isBlank = _ from hs]
      exact List.mem_cons_of_mem _ h₁))
  rw [Directive.read?, show s.dropWhile isBlank = _ from hs]
  simp only [Directive.toLineEnd?_of_not_mem hr]

theorem Directive.read?_of_ne {s : Text} (hs : ∀ r, Text.trimLeft s ≠ '%' :: r) : Directive.read? s = none := by
  unfold Directive.read?
  split
  · rename_i r hr
    exact absurd hr (hs r)
  · rfl

theorem Kind.read_of_ne {t : Text} (h₁ : ∀ v, t ≠ '=' :: v) (h₂ : ∀ v, t ≠ '#' :: v) : Kind.read t = (.statement, t) := by
  unfold Kind.read
  split
  · exact absurd rfl (h₁ _)
  · exact absurd rfl (h₁ _)
  · exact absurd rfl (h₂ _)
  · rfl

theorem Kind.read_equals {t : Text} (h : ∀ v, t ≠ '=' :: v) : Kind.read ('=' :: t) = (.expression, t) := by
  unfold Kind.read
  split
  · rename_i v heq
    exact absurd (List.cons.inj heq).2 (h v)
  · rename_i v _ heq
    rw [(List.cons.inj heq).2]
  · rename_i heq
    exact absurd (List.cons.inj heq).1 (by decide)
  · rename_i h₁ _
    exact absurd rfl (h₁ t)

theorem Kind.read_trimRight (r : Text) :
    Kind.read (Text.trimRight r) = ((Kind.read r).1, Text.trimRight (Kind.read r).2) := by
  -- What is left of a text begins as the text did.
  have hhead : ∀ {t : Text} {c : Char}, (∀ v, t ≠ c :: v) → ∀ v, Text.trimRight t ≠ c :: v := by
    intro t c ht v hv
    obtain ⟨b, -, hb⟩ := Text.exists_trimRight t
    rw [hv] at hb
    exact ht (v ++ b) hb
  by_cases h₁ : ∃ v, r = '=' :: v
  · obtain ⟨v, rfl⟩ := h₁
    rw [Text.trimRight_cons (by decide)]
    by_cases h₂ : ∃ w, v = '=' :: w
    · obtain ⟨w, rfl⟩ := h₂
      rw [Text.trimRight_cons (by decide)]
      rfl
    · have hv : ∀ w, v ≠ '=' :: w := fun w hw => h₂ ⟨w, hw⟩
      rw [Kind.read_equals hv, Kind.read_equals (hhead hv)]
  · by_cases h₂ : ∃ v, r = '#' :: v
    · obtain ⟨v, rfl⟩ := h₂
      rw [Text.trimRight_cons (by decide)]
      rfl
    · have hr₁ : ∀ v, r ≠ '=' :: v := fun v hv => h₁ ⟨v, hv⟩
      have hr₂ : ∀ v, r ≠ '#' :: v := fun v hv => h₂ ⟨v, hv⟩
      rw [Kind.read_of_ne hr₁ hr₂, Kind.read_of_ne (hhead hr₁) (hhead hr₂)]

theorem braceBalance_eq {s t : Text} (h : ink s = ink t) : braceBalance s = braceBalance t := by
  rw [braceBalance, braceBalance, ← count_ink (by decide) s, ← count_ink (by decide) s, h, count_ink (by decide),
    count_ink (by decide)]

theorem Respaced.hasBegin_eq {s t : Text} (h : Respaced s t) : hasBegin s = hasBegin t := by
  rw [EpFormat.hasBegin_eq, EpFormat.hasBegin_eq, h.words_eq]

/-- **Trimming a row does not change its shift.** -/
theorem shift_trim {s : Text} (hn : '\n' ∉ s) : Shift.ofLine (Text.trim s) = Shift.ofLine s := by
  have hres := Respaced.trim s
  have hn' : '\n' ∉ Text.trim s := fun hm => hn ((Text.trim_isInfix s).subset hm)
  have htags : isEndTag (Text.trim s) = isEndTag s ∧ isBraceTag (Text.trim s) = isBraceTag s := by
    rw [isEndTag_eq, isEndTag_eq, isBraceTag_eq, isBraceTag_eq, hres.isTagOf_eq lead_end, hres.isTagOf_eq lead_braces]
    exact ⟨rfl, rfl⟩
  by_cases hp : ∃ r, Text.trimLeft s = '%' :: r
  · obtain ⟨r, hr⟩ := hp
    have hr' : Text.trimLeft (Text.trim s) = '%' :: Text.trimRight r := by rw [Text.trimLeft_trim, Text.trim_eq_cons hr]
    have hrest : Respaced r (Text.trimRight r) := by
      obtain ⟨b, hb, hrb⟩ := Text.exists_trimRight r
      conv => lhs; rw [hrb]
      exact (Aligned.append_blank hb _).symm.trimLeft
    have hbalance : braceBalance (Text.trimRight (Kind.read r).2) = braceBalance (Kind.read r).2 :=
      braceBalance_eq (ink_trimRight _)
    simp only [Shift.ofLine, htags.1, htags.2, isEndDirective_percent hr hr' hrest, leadingBraces_percent hr hr' hrest,
      Directive.read?_percent hr hn, Directive.read?_percent hr' hn', Kind.read_trimRight, hbalance, hres.hasBegin_eq]
  · have hp' : ∀ r, Text.trimLeft s ≠ '%' :: r := fun r hr => hp ⟨r, hr⟩
    have hp'' : ∀ r, Text.trimLeft (Text.trim s) ≠ '%' :: r := by
      rw [Text.trimLeft_trim]
      exact Text.trim_ne_cons hp'
    have hstatement : isStatementLine (Text.trim s) = isStatementLine s := by
      rw [isStatementLine, isStatementLine, Text.trim_idem]
    simp only [Shift.ofLine, htags.1, htags.2, isEndDirective_of_ne hp', isEndDirective_of_ne hp'',
      leadingBraces_of_ne hp', leadingBraces_of_ne hp'', Directive.read?_of_ne hp', Directive.read?_of_ne hp'',
      hstatement, all_trim, hres.hasBegin_eq]

theorem Kind.read_mark_space (kind : Kind) (t : Text) : Kind.read (kind.mark ++ ' ' :: t) = (kind, ' ' :: t) := by
  cases kind <;> rfl

/-- **Respacing the code of a directive does not change its shift.** -/
theorem shift_directive {kind : Kind} {s t : Text} (h : Respaced s t) (hs : '\n' ∉ s) (ht : '\n' ∉ t)
    (hks : Kind.read (kind.mark ++ s) = (kind, s)) (hkt : Kind.read (kind.mark ++ t) = (kind, t)) :
    Shift.ofLine ('%' :: (kind.mark ++ s)) = Shift.ofLine ('%' :: (kind.mark ++ t)) := by
  have hleft : ∀ u : Text, Text.trimLeft ('%' :: (kind.mark ++ u)) = '%' :: (kind.mark ++ u) :=
    fun u => Text.trimLeft_cons_of_not_blank (by decide) _
  have hfeed : ∀ {u : Text}, '\n' ∉ u → '\n' ∉ '%' :: (kind.mark ++ u) := by
    intro u hu
    cases kind <;> simpa [Kind.mark] using hu
  have hmark : ∀ c ∈ kind.mark, isWord c = false := isWord_marks false kind
  have hwords : ∀ u : Text, words ('%' :: (kind.mark ++ u)) = words u := by
    intro u
    rw [words_cons (by decide), words_append_left hmark]
  have hbegin : hasBegin ('%' :: (kind.mark ++ s)) = hasBegin ('%' :: (kind.mark ++ t)) := by
    rw [hasBegin_eq, hasBegin_eq, hwords, hwords, h.words_eq]
  have hbefore : isEndDirective ('%' :: (kind.mark ++ s)) = isEndDirective ('%' :: (kind.mark ++ t)) ∧
      leadingBraces ('%' :: (kind.mark ++ s)) = leadingBraces ('%' :: (kind.mark ++ t)) := by
    cases kind with
    | statement => exact ⟨isEndDirective_percent (hleft s) (hleft t) h, leadingBraces_percent (hleft s) (hleft t) h⟩
    | expression => exact ⟨rfl, rfl⟩
    | rawExpression => exact ⟨rfl, rfl⟩
    | comment => exact ⟨rfl, rfl⟩
  have htag : ∀ u : Text, isEndTag ('%' :: u) = false ∧ isBraceTag ('%' :: u) = false := fun u => ⟨rfl, rfl⟩
  have hink : ink s = ink t := by
    have := Aligned.ink_eq h
    rwa [ink_trimLeft, ink_trimLeft] at this
  simp only [Shift.ofLine, hbefore.1, hbefore.2, (htag _).1, (htag _).2, Directive.read?_percent (hleft _) (hfeed hs),
    Directive.read?_percent (hleft _) (hfeed ht), hks, hkt, hbegin, braceBalance_eq hink]

end EpFormat
