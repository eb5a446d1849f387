import EpFormat.Proofs.MarkupDepth
import EpFormat.Proofs.RawElement
/-!
# RawStart — lines that open a raw element

A line that opens a raw element is read twice: for the name of the element, from its first `<` on, and for its tags, of
which there is at most one, from its last `<` on.  The readings differ where the name goes on past the word, where no white
space sets off the attributes, where the tag closes itself and where a letter of the name is none of a tag.

`raw_start_iff` says when the line is one start tag of the element that it opens, and what the depth of markup is after
the line that closes the element.
-/
namespace EpFormat

open Template Template.Tag Perl Markup

/-! ## A tag up to its end -/

namespace Markup.Element

/-- A name that a tag may have. -/
def IsName (t : Text) : Prop := ∃ c more, t = c :: more ∧ c.isAlpha = true ∧ ∀ d ∈ more, isNameChar d = true

def slash (isEnd : Bool) : Text := if isEnd then ['/'] else []

theorem span_upTo {p : Char → Bool} {c : Char} (hc : p c = false) (t post : Text) :
    (t ++ c :: post).takeWhile p = t.takeWhile p ∧ (t ++ c :: post).dropWhile p = t.dropWhile p ++ c :: post := by
  induction t with
  | nil => simp [hc]
  | cons d t ih =>
    cases hd : p d with
    | true => simp [hd, ih]
    | false => simp [hd]

/-- What is read between a name and the end of its tag: nothing, a slash, or attributes that white space sets off. -/
theorem readClose_upTo {v : Text} (hv : ∀ c ∈ v, isAttributeChar c = true) (post : Text) :
    readClose (v ++ '>' :: post)
      = if v = ['/'] ∨ v.head?.all isBlank = true then some (v.getLast? == some '/', v.length + 1) else none := by
  cases v with
  | nil => rfl
  | cons c v =>
    obtain ⟨hattr, hrest⟩ := List.forall_mem_cons.1 hv
    cases hc : isBlank c with
    | true =>
      obtain ⟨htake, hdrop⟩ := @span_upTo isAttributeChar '>' rfl v post
      rw [List.takeWhile_eq_self_iff.2 hrest] at htake
      rw [List.dropWhile_eq_nil_iff.2 hrest] at hdrop
      rw [if_pos (Or.inr (by simpa using hc)), List.cons_append, Aligned.readClose_gap hc, htake, hdrop]
      simp [List.getLast?_cons]
    | false =>
      by_cases hslash : c = '/'
      · subst hslash
        cases v with
        | nil => rfl
        | cons d v =>
          have hd : d ≠ '>' := fun h => by
            rw [h] at hrest
            exact absurd (hrest '>' List.mem_cons_self) (by decide)
          simp [readClose, hc, hd]
      · have hne : c ≠ '>' := fun h => by rw [h] at hattr; cases hattr
        rw [List.cons_append, readClose, if_neg (by simp [hc]), if_neg (by simp [hslash, hc])]
        · exact hne
        · exact fun _ h _ => hslash h

theorem isAttributeChar_of_isNameChar {c : Char} (h : isNameChar c = true) : isAttributeChar c = true := by
  by_cases hlt : c = '<'
  · rw [hlt] at h
    exact absurd h (by decide)
  by_cases hgt : c = '>'
  · rw [hgt] at h
    exact absurd h (by decide)
  simp [isAttributeChar, hlt, hgt]

theorem isNameChar_of_isAlpha {c : Char} (h : c.isAlpha = true) : isNameChar c = true := by
  simp [isNameChar, isWord_of_isAlpha h]

theorem IsName.attributeChars {name : Text} (h : IsName name) : ∀ c ∈ name, isAttributeChar c = true := by
  obtain ⟨c, more, rfl, hc, hmore⟩ := h
  exact List.forall_mem_cons.2 ⟨isAttributeChar_of_isNameChar (isNameChar_of_isAlpha hc),
    fun d hd => isAttributeChar_of_isNameChar (hmore d hd)⟩

theorem attributeChars_slash (isEnd : Bool) : ∀ c ∈ slash isEnd, isAttributeChar c = true := by
  cases isEnd <;> exact Text.forall_mem_of_all (by decide)

theorem slash_readSlash (t : Text) : slash (readSlash t).1 ++ (readSlash t).2 = t := by
  unfold readSlash
  split <;> rfl

theorem exists_close {t : Text} {p : Bool × Nat} (h : readClose t = some p) :
    ∃ v post, t = v ++ '>' :: post ∧ ∀ c ∈ v, isAttributeChar c = true := by
  unfold readClose at h
  split at h
  · rename_i post
    exact ⟨[], post, rfl, List.forall_mem_nil _⟩
  · rename_i post
    exact ⟨['/'], post, rfl, Text.forall_mem_of_all (by decide)⟩
  · rename_i c rest _ _
    split at h
    · rename_i hc
      simp only at h
      split at h
      · rename_i post hpost
        refine ⟨c :: rest.takeWhile isAttributeChar, post, ?_, ?_⟩
        · rw [List.cons_append, ← hpost, List.takeWhile_append_dropWhile]
        · exact List.forall_mem_cons.2 ⟨isAttributeChar_of_isBlank hc, List.all_eq_true.1 List.all_takeWhile⟩
      · cases h
    · cases h
  · cases h

/-- **The parts of a tag**: the slash of an end tag, a name, and what is read between it and the end. -/
theorem exists_parts {t : Text} {e : Element} (h : read? ('<' :: t) = some e) : IsName e.name ∧
    ∃ u v post, t = u ++ '>' :: post ∧ (∀ c ∈ u, isAttributeChar c = true) ∧ u = slash e.isEnd ++ (e.name ++ v) ∧
      (v = ['/'] ∨ v.head?.all isBlank = true) ∧ e.selfClosing = (v.getLast? == some '/') ∧ e.size = u.length + 2 := by
  have hslash := slash_readSlash t
  simp only [read?] at h
  split at h
  · rename_i c more hbody
    split at h
    · rename_i hc
      split at h
      · rename_i selfClosing n hclose
        obtain rfl := Option.some.inj h
        obtain ⟨v, post, hrest, hv⟩ := exists_close hclose
        rw [hrest, readClose_upTo hv] at hclose
        split at hclose
        · rename_i hgap
          obtain ⟨hself, hn⟩ := Prod.mk.inj (Option.some.inj hclose)
          have hname : IsName (c :: more.takeWhile isNameChar) :=
            ⟨c, more.takeWhile isNameChar, rfl, hc, List.all_eq_true.1 List.all_takeWhile⟩
          refine ⟨hname, _, v, post, ?_, ?_, rfl, hgap, hself.symm, ?_⟩
          · rw [List.append_assoc, List.append_assoc, ← hrest, List.cons_append, List.takeWhile_append_dropWhile, ← hbody,
              hslash]
          · exact List.forall_mem_append.2 ⟨attributeChars_slash _, List.forall_mem_append.2 ⟨hname.attributeChars, hv⟩⟩
          · rw [← hn]
            cases (readSlash t).1 <;> simp [slash] <;> omega
        · cases hclose
      · cases h
    · cases h
  · cases h

theorem read?_tag {name v : Text} (hname : IsName name) (hv : ∀ c ∈ v, isAttributeChar c = true)
    (hgap : v.head?.all isBlank = true) (isEnd : Bool) (post : Text) :
    read? ('<' :: (slash isEnd ++ (name ++ v) ++ '>' :: post)) = some ⟨isEnd, name, v.getLast? == some '/',
      (slash isEnd ++ (name ++ v)).length + 2⟩ := by
  obtain ⟨c, more, rfl, hc, hmore⟩ := hname
  have hslash : readSlash (slash isEnd ++ (c :: more ++ (v ++ '>' :: post))) = (isEnd, c :: (more ++ (v ++ '>' :: post))) := by
    cases isEnd with
    | true => rfl
    | false => exact readSlash_of_ne (fun r hr => by rw [(List.cons.inj hr).1] at hc; cases hc)
  -- The name ends where attributes or the end of the tag begin.
  obtain ⟨d, rest, hrest, hd⟩ : ∃ d rest, v ++ '>' :: post = d :: rest ∧ isNameChar d = false := by
    cases v with
    | nil => exact ⟨'>', post, rfl, rfl⟩
    | cons d v => exact ⟨d, v ++ '>' :: post, rfl, isNameChar_of_isBlank (by simpa using hgap)⟩
  have htake : (more ++ (v ++ '>' :: post)).takeWhile isNameChar = more := by
    rw [hrest, List.takeWhile_append_of_pos hmore, List.takeWhile_cons_of_neg (by simp [hd]), List.append_nil]
  have hdrop : (more ++ (v ++ '>' :: post)).dropWhile isNameChar = v ++ '>' :: post := by
    rw [hrest, List.dropWhile_append_of_pos hmore, List.dropWhile_cons_of_neg (by simp [hd])]
  rw [List.append_assoc, List.append_assoc]
  simp only [read?, hslash, if_pos hc, htake, hdrop, readClose_upTo hv, if_pos (Or.inr hgap)]
  cases isEnd <;> simp [slash] <;> omega

/-- Where a tag ends is known from its text. -/
theorem eq_of_upTo {u w post tail : Text} (hu : ∀ c ∈ u, isAttributeChar c = true)
    (hw : ∀ c ∈ w, isAttributeChar c = true) (h : u ++ '>' :: tail = w ++ '>' :: post) : u = w := by
  have htake : ∀ {t rest : Text}, (∀ c ∈ t, isAttributeChar c = true) → (t ++ '>' :: rest).takeWhile isAttributeChar = t :=
    fun ht => (span_upTo rfl _ _).1.trans (List.takeWhile_eq_self_iff.2 ht)
  rw [← htake hu, h, htake hw]

theorem exists_parts_upTo {u post : Text} (hu : ∀ c ∈ u, isAttributeChar c = true) {e : Element}
    (h : read? ('<' :: (u ++ '>' :: post)) = some e) : IsName e.name ∧
      ∃ v, u = slash e.isEnd ++ (e.name ++ v) ∧ (v = ['/'] ∨ v.head?.all isBlank = true) ∧
        e.selfClosing = (v.getLast? == some '/') ∧ e.size = u.length + 2 := by
  obtain ⟨hname, w, v, rest, ht, hw, hparts⟩ := exists_parts h
  obtain rfl := eq_of_upTo hu hw ht
  exact ⟨hname, v, hparts⟩

/-- A tag does not reach over the beginning of another one. -/
theorem read?_of_open {pre : Text} (hpre : '>' ∉ pre) (post : Text) : read? ('<' :: (pre ++ '<' :: post)) = none := by
  refine Option.eq_none_iff_forall_ne_some.2 (fun e he => ?_)
  obtain ⟨-, w, -, rest, ht, hw, -⟩ := exists_parts he
  have hlt : '<' ∉ w := fun hm => absurd (hw '<' hm) (by decide)
  rcases List.append_eq_append_iff.1 ht with ⟨z, rfl, hz⟩ | ⟨z, rfl, hz⟩
  · cases z with
    | nil => exact absurd (List.cons.inj hz).1 (by decide)
    | cons c z =>
      obtain ⟨rfl, -⟩ := List.cons.inj hz
      exact hlt (by simp)
  · cases z with
    | nil => exact absurd (List.cons.inj hz).1 (by decide)
    | cons c z =>
      obtain ⟨rfl, -⟩ := List.cons.inj hz
      exact hpre (by simp)

theorem all_of_not_mem {t : Text} (h : '<' ∉ t) : all t = [] := by
  have hall := all_append_of_ne (a := t) (fun c hc hlt => h (hlt ▸ hc)) []
  rwa [List.append_nil] at hall

/-- **In a line that closes no tag but at its end, the only tag is the one that begins at the last `<`.** -/
theorem all_upTo {u tail : Text} (hu : ∀ c ∈ u, isAttributeChar c = true) (htail : '<' ∉ tail) : ∀ {pre : Text}, '>' ∉ pre →
    all (pre ++ '<' :: (u ++ '>' :: tail)) = (read? ('<' :: (u ++ '>' :: tail))).toList
  | [], _ => by
    cases h : read? ('<' :: (u ++ '>' :: tail)) with
    | none =>
      have hlt : '<' ∉ u ++ '>' :: tail := by
        simp only [List.mem_append, List.mem_cons, not_or]
        exact ⟨fun hm => absurd (hu '<' hm) (by decide), by decide, htail⟩
      rw [List.nil_append, all_item (by rw [finder, h]; rfl), all_of_not_mem hlt]
      rfl
    | some e =>
      obtain ⟨-, v, -, -, -, hsize⟩ := exists_parts_upTo hu h
      have hbeyond : beyond e.size ('<' :: (u ++ '>' :: tail)) = tail := by
        have happend := beyond_append (s := '<' :: (u ++ ['>'])) (by simp) tail
        rw [hsize]
        simpa using happend
      rw [List.nil_append, all_hit (n := e.size) (by rw [finder, h]; rfl), hbeyond, all_of_not_mem htail]
      rfl
  | c :: pre, h => by
    have ih := all_upTo hu htail (fun hm => h (List.mem_cons_of_mem c hm))
    by_cases hc : c = '<'
    · subst hc
      rw [List.cons_append, all_item (by rw [finder, read?_of_open (fun hm => h (List.mem_cons_of_mem _ hm))]; rfl), ih]
    · rw [List.cons_append, all_cons_of_ne hc, ih]

end Markup.Element

/-! ## Raw names -/

namespace Markup

/-- A spelling of a word: letter by letter in any case. -/
def Spells (word t : Text) : Prop := List.Forall₂ (fun a c => sameLetter a c = true) word t

theorem spelled?_eq_some : ∀ {word t name rest : Text}, spelled? word t = some (name, rest) →
    t = name ++ rest ∧ Spells word name
  | [], t, name, rest, h => by
    obtain ⟨rfl, rfl⟩ := Prod.mk.inj (Option.some.inj h)
    exact ⟨rfl, .nil⟩
  | _ :: _, [], _, _, h => by cases h
  | a :: word, c :: t, name, rest, h => by
    rw [spelled?] at h
    split at h
    · rename_i hac
      obtain ⟨⟨name', rest'⟩, hmore, heq⟩ := Option.map_eq_some_iff.1 h
      obtain ⟨rfl, rfl⟩ := Prod.mk.inj heq
      obtain ⟨rfl, hspells⟩ := spelled?_eq_some hmore
      exact ⟨rfl, .cons hac hspells⟩
    · cases h

/-- The forms of a small letter: itself, its capital, and three further letters. -/
theorem sameLetter_cases {a c : Char} (ha : IsSmall a) (h : sameLetter a c = true) :
    c.isAlpha = true ∧ lowerChar c = a ∨ c.toNat ∈ [0x17F, 0x130, 0x131] := by
  obtain ⟨hlow, hhigh⟩ := ha
  simp only [sameLetter, Bool.or_eq_true, Bool.and_eq_true, decide_eq_true_eq] at h
  rcases h with ((rfl | hcapital) | hlong) | hdot
  · refine Or.inl ⟨isAlpha_iff.2 (Or.inr ⟨hlow, hhigh⟩), ?_⟩
    simp [lowerChar, show c.toNat < 128 by omega, show ¬ c.toNat ≤ 90 by omega]
  · refine Or.inl ⟨isAlpha_iff.2 (by omega), ?_⟩
    rw [lowerChar]
    simp [show c.toNat < 128 by omega, show 65 ≤ c.toNat by omega, show c.toNat ≤ 90 by omega, hcapital]
  · exact Or.inr (by simp [hlong.2])
  · exact Or.inr (by rcases hdot.2 with h | h <;> simp [h])

theorem isWord_of_sameLetter {a c : Char} (ha : IsSmall a) (h : sameLetter a c = true) : isWord c = true := by
  rcases sameLetter_cases ha h with ⟨halpha, -⟩ | hcode
  · exact isWord_of_isAlpha halpha
  · have hforms : ∀ n ∈ [0x17F, 0x130, 0x131], isWord (Char.ofNat n) = true := by decide +kernel
    have hword := hforms c.toNat hcode
    rwa [Char.ofNat_toNat] at hword

/-! ## Lower case of a raw name -/

theorem lowerAux_done : ∀ (t done before : Text), lowerAux done before t = done.reverse ++ lowerAux [] before t
  | [], done, before => by simp [lowerAux]
  | c :: t, done, before => by
    rw [lowerAux, lowerAux]
    split
    · rw [lowerAux_done t (_ :: done), lowerAux_done t [_]]
      simp
    · split
      · rw [lowerAux_done t (_ :: _ :: done), lowerAux_done t [_, _]]
        simp
      · rw [lowerAux_done t (_ :: done), lowerAux_done t [_]]
        simp

theorem lowerAux_cons {c : Char} (hsigma : c.toNat ≠ 0x3A3) (hdot : c.toNat ≠ 0x130) (before t : Text) :
    lowerAux [] before (c :: t) = lowerChar c :: lowerAux [] (c :: before) t := by
  rw [lowerAux, if_neg hsigma, if_neg hdot, lowerAux_done]
  rfl

theorem lowerAux_dotted {c : Char} (h : c.toNat = 0x130) (before t : Text) :
    lowerAux [] before (c :: t) = 'i' :: Char.ofNat 0x307 :: lowerAux [] (c :: before) t := by
  rw [lowerAux, if_neg (by omega), if_pos h, lowerAux_done]
  rfl

/-- A letter beyond the alphabet stays one in lower case. -/
theorem toNat_lowerChar {c : Char} (h : c.toNat ∈ [0x17F, 0x131]) : 128 ≤ (lowerChar c).toNat := by
  have hforms : ∀ n ∈ [0x17F, 0x131], 128 ≤ (lowerChar (Char.ofNat n)).toNat := by decide +kernel
  have hform := hforms c.toNat h
  rwa [Char.ofNat_toNat] at hform

/-- **In lower case a spelling is the word, or has a letter beyond the alphabet.** -/
theorem Spells.lower {word t : Text} (h : Spells word t) : (∀ a ∈ word, IsSmall a) → ∀ before : Text,
    lowerAux [] before t = word ∨ ∃ c ∈ lowerAux [] before t, 128 ≤ c.toNat := by
  induction h with
  | nil => exact fun _ _ => Or.inl rfl
  | @cons a c word t hac _ ih =>
    intro hsmall before
    obtain ⟨ha, hword⟩ := List.forall_mem_cons.1 hsmall
    rcases sameLetter_cases ha hac with ⟨halpha, hlower⟩ | hcode
    · have hlt := toNat_lt_of_isAlpha halpha
      rw [lowerAux_cons (by omega) (by omega), hlower]
      rcases ih hword (c :: before) with heq | ⟨d, hd, hcode⟩
      · exact Or.inl (by rw [heq])
      · exact Or.inr ⟨d, List.mem_cons_of_mem a hd, hcode⟩
    · right
      by_cases hdot : c.toNat = 0x130
      · rw [lowerAux_dotted hdot]
        exact ⟨Char.ofNat 0x307, by simp, by decide⟩
      · have hother : c.toNat ∈ [0x17F, 0x131] := by simpa [hdot] using hcode
        have hsigma : c.toNat ≠ 0x3A3 := fun h => absurd (h ▸ hother) (by decide)
        rw [lowerAux_cons hsigma hdot]
        exact ⟨lowerChar c, List.mem_cons_self, toNat_lowerChar hother⟩

/-- No spelling of a raw name is the name of an element without content. -/
theorem Spells.not_void {word t : Text} (hword : word ∈ rawNames) (h : Spells word t) : Text.lower t ∉ Element.void := by
  have hraw : ∀ word ∈ rawNames, word ∉ Element.void := by decide +kernel
  have hplain : ∀ name ∈ Element.void, name.all (fun c => decide (c.toNat < 128)) = true := by decide +kernel
  rcases h.lower (small_rawNames word hword) [] with heq | ⟨c, hc, hcode⟩
  · rw [Text.lower, heq]
    exact hraw word hword
  · intro hm
    have hlt := Text.forall_mem_of_all (hplain _ hm) c hc
    omega

theorem Spells.isWord {word t : Text} (h : Spells word t) : (∀ a ∈ word, IsSmall a) → ∀ c ∈ t, isWord c = true := by
  induction h with
  | nil => exact fun _ => List.forall_mem_nil _
  | cons hac _ ih =>
    intro hsmall
    obtain ⟨ha, hword⟩ := List.forall_mem_cons.1 hsmall
    exact List.forall_mem_cons.2 ⟨isWord_of_sameLetter ha hac, ih hword⟩

theorem toNat_lowerChar_of_isAlpha {c : Char} (h : c.isAlpha = true) : (lowerChar c).toNat < 128 := by
  have hforms : ∀ n < 128, (lowerChar (Char.ofNat n)).toNat < 128 := by decide +kernel
  have hform := hforms c.toNat (toNat_lt_of_isAlpha h)
  rwa [Char.ofNat_toNat] at hform

/-- A raw name begins with a letter that has no form with a dot. -/
theorem Spells.exists_head {word t : Text} (hword : word ∈ rawNames) (h : Spells word t) :
    ∃ a c rest, t = c :: rest ∧ IsSmall a ∧ sameLetter a c = true ∧ sameLetter a (Char.ofNat 0x130) = false := by
  have hfirst : ∃ a more, word = a :: more ∧ sameLetter a (Char.ofNat 0x130) = false := by
    simp only [rawNames, List.mem_cons, List.not_mem_nil, or_false] at hword
    rcases hword with rfl | rfl | rfl | rfl <;> exact ⟨_, _, rfl, by decide⟩
  obtain ⟨a, more, rfl, hdotted⟩ := hfirst
  cases h with
  | @cons _ c _ rest hac _ => exact ⟨a, c, rest, rfl, small_rawNames _ hword a List.mem_cons_self, hac, hdotted⟩

/-- A spelling with the lower case of a name is a name. -/
theorem Spells.isName {word t name : Text} (hword : word ∈ rawNames) (h : Spells word t) (hname : Element.IsName name)
    (heq : Text.lower t = Text.lower name) : Element.IsName t := by
  have hletters := h.isWord (small_rawNames word hword)
  obtain ⟨a, c, rest, rfl, ha, hac, hdotted⟩ := h.exists_head hword
  refine ⟨c, rest, rfl, ?_, fun d hd => by simp [Element.isNameChar, hletters d (List.mem_cons_of_mem c hd)]⟩
  rcases sameLetter_cases ha hac with ⟨halpha, -⟩ | hcode
  · exact halpha
  · -- The first letter in lower case would be beyond the alphabet, and that of a name is not.
    obtain ⟨d, more, rfl, hd, -⟩ := hname
    have hlt := toNat_lt_of_isAlpha hd
    have hdot : c.toNat ≠ 0x130 := fun h => by
      rw [← h, Char.ofNat_toNat, hac] at hdotted
      cases hdotted
    have hother : c.toNat ∈ [0x17F, 0x131] := by simpa [hdot] using hcode
    have hsigma : c.toNat ≠ 0x3A3 := fun h => absurd (h ▸ hother) (by decide)
    rw [Text.lower, Text.lower, lowerAux_cons hsigma hdot, lowerAux_cons (by omega) (by omega)] at heq
    have hlow := toNat_lowerChar_of_isAlpha hd
    have hhigh := toNat_lowerChar hother
    rw [(List.cons.inj heq).1] at hhigh
    omega

/-! ## Lines with a raw element -/

/-- **What opens a raw element**: a spelling of its name after `<`, and `>` at the end of the line. -/
theorem exists_rawOpen {line name : Text} (h : rawOpen? line = some name) :
    ∃ pad word spelling rest tail, allBlank pad = true ∧ word ∈ rawNames ∧ Spells word spelling ∧ Text.lower spelling = name ∧
      line = pad ++ '<' :: (spelling ++ (rest ++ '>' :: tail)) ∧ '>' ∉ rest ∧ allBlank tail = true := by
  unfold rawOpen? at h
  split at h
  · rename_i t ht
    split at h
    · rename_i spelling after hname
      split at h
      · rename_i hend
        obtain ⟨word, hword, hspelled⟩ := List.exists_of_findSome?_eq_some hname
        obtain ⟨rfl, hspells⟩ := spelled?_eq_some hspelled
        obtain ⟨pad, hpad, hline⟩ := Text.exists_trimLeft line
        rw [Bool.and_eq_true, endsAtClose] at hend
        obtain ⟨-, hclose⟩ := hend
        split at hclose
        · rename_i c tail htail
          have hc : c = '>' := by
            have hstop := List.head?_dropWhile_not (fun c => c != '>') after
            rw [htail] at hstop
            simpa using hstop
          subst hc
          refine ⟨pad, word, spelling, after.takeWhile (fun c => c != '>'), tail, hpad, hword, hspells, Option.some.inj h, ?_,
            fun hm => ?_, hclose⟩
          · rw [← htail, List.takeWhile_append_dropWhile, ← ht]
            exact hline
          · exact absurd (List.all_eq_true.1 List.all_takeWhile _ hm) (by decide)
        · cases hclose
      · cases h
    · cases h
  · cases h

/-- **What closes a raw element**: a spelling of its name after `</`, and `>` at the end of the line. -/
theorem exists_rawClose {line name : Text} (h : rawClose? line = some name) :
    ∃ pad word spelling gap tail, allBlank pad = true ∧ word ∈ rawNames ∧ Spells word spelling ∧ Text.lower spelling = name ∧
      line = pad ++ '<' :: '/' :: (spelling ++ (gap ++ '>' :: tail)) ∧ allBlank gap = true ∧ allBlank tail = true := by
  unfold rawClose? at h
  split at h
  · rename_i t ht
    split at h
    · rename_i spelling after hname
      split at h
      · rename_i tail htail
        split at h
        · rename_i hblank
          obtain ⟨word, hword, hspelled⟩ := List.exists_of_findSome?_eq_some hname
          obtain ⟨rfl, hspells⟩ := spelled?_eq_some hspelled
          obtain ⟨pad, hpad, hline⟩ := Text.exists_trimLeft line
          obtain ⟨gap, hgap, hafter⟩ := Text.exists_trimLeft after
          refine ⟨pad, word, spelling, gap, tail, hpad, hword, hspells, Option.some.inj h, ?_, hgap, hblank⟩
          rw [← htail, show after.dropWhile isBlank = Text.trimLeft after from rfl, ← hafter, ← ht]
          exact hline
        · cases h
      · cases h
    · cases h
  · cases h

/-- What stands between the last `<` of a line and the next `>`. -/
def lastInside (line : Text) : Text := (line.reverse.takeWhile (· != '<')).reverse.takeWhile (· != '>')

theorem lastInside_eq {u tail : Text} (hu : ∀ c ∈ u, Element.isAttributeChar c = true) (htail : '<' ∉ tail) (pre : Text) :
    lastInside (pre ++ '<' :: (u ++ '>' :: tail)) = u := by
  have hlt : ∀ c ∈ (u ++ '>' :: tail).reverse, (c != '<') = true := by
    simp only [List.mem_reverse, List.mem_append, List.mem_cons, bne_iff_ne, ne_eq]
    rintro c (hc | hc | hc) rfl
    · exact absurd (hu '<' hc) (by decide)
    · exact absurd hc (by decide)
    · exact htail hc
  have hgt : ∀ c ∈ u, (c != '>') = true := by
    intro c hc
    rw [bne_iff_ne]
    rintro rfl
    exact absurd (hu '>' hc) (by decide)
  rw [lastInside, List.reverse_append, List.reverse_cons, List.append_assoc, List.takeWhile_append_of_pos hlt,
    List.singleton_append, List.takeWhile_cons_of_neg (by simp), List.append_nil, List.reverse_reverse,
    List.takeWhile_append_of_pos hgt, List.takeWhile_cons_of_neg (by simp), List.append_nil]

/-- The only tag of a line that opens a raw element begins at the last `<`. -/
theorem exists_lastInside {line name : Text} (h : rawOpen? line = some name) :
    (∀ c ∈ lastInside line, Element.isAttributeChar c = true) ∧
      ∃ tail, Element.all line = (Element.read? ('<' :: (lastInside line ++ '>' :: tail))).toList := by
  obtain ⟨pad, word, spelling, rest, tail, hpad, hword, hspells, -, rfl, hrest, htail⟩ := exists_rawOpen h
  have hletters := hspells.isWord (small_rawNames word hword)
  have hpad' : '>' ∉ pad := fun hm => absurd (allBlank_iff.1 hpad _ hm) (by decide)
  have hspelling : '>' ∉ spelling := fun hm => absurd (hletters _ hm) (by decide)
  have htail' : '<' ∉ tail := fun hm => absurd (allBlank_iff.1 htail _ hm) (by decide)
  -- The last `<` is found from the end.
  obtain ⟨back, front, hsplit, hback⟩ := List.eq_append_cons_of_mem (show '<' ∈ ('<' :: (spelling ++ rest)).reverse by simp)
  have hinside : '<' :: (spelling ++ rest) = front.reverse ++ '<' :: back.reverse := by
    have hreverse := congrArg List.reverse hsplit
    simpa using hreverse
  have hgt : '>' ∉ front.reverse ∧ '>' ∉ back.reverse := by
    have hnone : '>' ∉ '<' :: (spelling ++ rest) := by simp [hspelling, hrest]
    rw [hinside] at hnone
    simpa using hnone
  have hline : pad ++ '<' :: (spelling ++ (rest ++ '>' :: tail))
      = (pad ++ front.reverse) ++ '<' :: (back.reverse ++ '>' :: tail) := by
    calc pad ++ '<' :: (spelling ++ (rest ++ '>' :: tail)) = pad ++ (('<' :: (spelling ++ rest)) ++ '>' :: tail) := by simp
      _ = _ := by rw [hinside]; simp
  have hattr : ∀ c ∈ back.reverse, Element.isAttributeChar c = true := by
    intro c hc
    have hlt : c ≠ '<' := fun h => hback (by rw [← h]; simpa using hc)
    have hne : c ≠ '>' := fun h => hgt.2 (h ▸ hc)
    simp [Element.isAttributeChar, hlt, hne]
  rw [hline, lastInside_eq hattr htail']
  exact ⟨hattr, tail, Element.all_upTo hattr htail' (by simp [hpad', hgt.1])⟩

/-- The tags of a line are one start tag with this name, and it does not close itself. -/
def OneStart (line name : Text) : Prop :=
  ∃ e, Element.all line = [e] ∧ e.isEnd = false ∧ e.selfClosing = false ∧ Text.lower e.name = name

/-- The inside of a start tag with this name that does not close itself: a name, and nothing after it or attributes that
white space sets off. -/
def StartsTag (inside name : Text) : Prop :=
  ∃ spelling attributes, inside = spelling ++ attributes ∧ Element.IsName spelling ∧ Text.lower spelling = name ∧
    attributes.head?.all isBlank = true ∧ attributes.getLast? ≠ some '/'

/-- **The two readings of a line agree exactly if the tag at its last `<` is one of the element.** -/
theorem oneStart_iff {line name : Text} (h : rawOpen? line = some name) :
    OneStart line name ↔ StartsTag (lastInside line) name := by
  obtain ⟨hattr, tail, hall⟩ := exists_lastInside h
  generalize lastInside line = inside at hattr hall ⊢
  rw [OneStart, hall]
  constructor
  · rintro ⟨e, he, hstart, hopen, hname⟩
    obtain ⟨hisName, v, hinside, hgap, hself, -⟩ := Element.exists_parts_upTo hattr (Option.toList_eq_singleton_iff.1 he)
    have hlast : v.getLast? ≠ some '/' := by
      rw [hopen] at hself
      simpa using hself.symm
    refine ⟨e.name, v, ?_, hisName, hname, hgap.resolve_left (fun hv => hlast (by rw [hv]; rfl)), hlast⟩
    rw [hinside, hstart]
    rfl
  · rintro ⟨spelling, attributes, rfl, hisName, hname, hgap, hlast⟩
    have hread : Element.read? ('<' :: (spelling ++ attributes ++ '>' :: tail)) = some _ :=
      Element.read?_tag hisName (fun c hc => hattr c (List.mem_append_right _ hc)) hgap false tail
    exact ⟨_, congrArg Option.toList hread, rfl, by simpa using hlast, hname⟩

theorem net_of_oneStart {line name : Text} (h : rawOpen? line = some name) (hone : OneStart line name) :
    (Nesting.ofLine line).net = 1 := by
  obtain ⟨e, hall, hstart, hopen, hname⟩ := hone
  obtain ⟨_, word, spelling, _, _, -, hword, hspells, hlower, -⟩ := exists_rawOpen h
  have hvoid : Text.lower e.name ∉ Element.void := by
    rw [hname, ← hlower]
    exact hspells.not_void hword
  simp [Nesting.ofLine, hall, Element.weight, hstart, hopen, hvoid]

theorem before_eq (line : Text) : (Nesting.ofLine line).before = (Element.openingEnds (Text.trimLeft line)).length := by
  rw [Element.openingEnds_trimLeft]
  exact Element.leadingEnds_eq_length (Nat.le_refl _)

/-- No end tag opens a line that opens a raw element. -/
theorem before_of_rawOpen {line name : Text} (h : rawOpen? line = some name) : (Nesting.ofLine line).before = 0 := by
  obtain ⟨pad, word, spelling, rest, tail, hpad, hword, hspells, -, rfl, -, -⟩ := exists_rawOpen h
  rw [before_eq, Text.trimLeft_append_of_blank hpad, Text.trimLeft_cons_of_not_blank (by decide)]
  generalize rest ++ '>' :: tail = after
  cases hread : Element.read? ('<' :: (spelling ++ after)) with
  | none =>
    rw [Element.openingEnds, scan_item Element.finder_blind (by rw [Element.finder, hread]; rfl),
      List.takeWhile_cons_of_neg (by decide)]
    rfl
  | some e =>
    have hstart : e.isEnd = false := by
      obtain ⟨a, c, more, rfl, ha, hac, -⟩ := hspells.exists_head hword
      obtain ⟨-, u, v, post, ht, -, hu, -⟩ := Element.exists_parts hread
      cases he : e.isEnd with
      | false => rfl
      | true =>
        rw [hu, he] at ht
        have hslash := isWord_of_sameLetter ha hac
        rw [(List.cons.inj ht).1] at hslash
        cases hslash
    rw [Element.openingEnds_hit hread, hstart]
    rfl

/-- **A line that closes a raw element is its end tag**, if the name is one that a tag may have. -/
theorem nesting_of_rawClose {closing name : Text} (h : rawClose? closing = some (Text.lower name))
    (hname : Element.IsName name) :
    (Nesting.ofLine closing).before = 1 ∧ (Nesting.ofLine closing).net = -1 ∧ '%' ∉ closing := by
  obtain ⟨pad, word, spelling, gap, tail, hpad, hword, hspells, hlower, rfl, hgap, htail⟩ := exists_rawClose h
  have hisName := hspells.isName hword hname hlower
  have hattr : ∀ c ∈ gap, Element.isAttributeChar c = true := fun c hc =>
    Element.isAttributeChar_of_isBlank (allBlank_iff.1 hgap c hc)
  have hset : gap.head?.all isBlank = true := by
    cases gap with
    | nil => rfl
    | cons c gap => exact allBlank_iff.1 hgap c List.mem_cons_self
  have hinside : ∀ c ∈ Element.slash true ++ (spelling ++ gap), Element.isAttributeChar c = true :=
    List.forall_mem_append.2 ⟨Element.attributeChars_slash true, List.forall_mem_append.2 ⟨hisName.attributeChars, hattr⟩⟩
  have hread : Element.read? ('<' :: (Element.slash true ++ (spelling ++ gap) ++ '>' :: tail)) = some _ :=
    Element.read?_tag hisName hattr hset true tail
  have hblank : ∀ {c : Char} {b : Text}, isBlank c = false → allBlank b = true → c ∉ b := fun hc hb hm =>
    absurd (allBlank_iff.1 hb _ hm) (by simp [hc])
  have hnone : Element.openingEnds tail = [] := by
    have hlead := Element.openingEnds_prefix tail
    rw [Element.all_of_not_mem (hblank (by decide) htail)] at hlead
    exact List.prefix_nil.1 hlead
  -- the line in the form in which tags are read: white space, `<`, what is inside, `>`, white space
  have hline : pad ++ '<' :: '/' :: (spelling ++ (gap ++ '>' :: tail))
      = pad ++ '<' :: (Element.slash true ++ (spelling ++ gap) ++ '>' :: tail) := by simp [Element.slash]
  refine ⟨?_, ?_, ?_⟩
  · have hdrop : ('<' :: (Element.slash true ++ (spelling ++ gap) ++ '>' :: tail)).drop
        ((Element.slash true ++ (spelling ++ gap)).length + 2) = tail := by
      rw [List.drop_succ_cons, List.drop_append, List.drop_eq_nil_of_le (by omega)]
      simp
    rw [hline, before_eq, Text.trimLeft_append_of_blank hpad, Text.trimLeft_cons_of_not_blank (by decide),
      Element.openingEnds_hit hread, if_pos rfl, hdrop, hnone]
    rfl
  · rw [hline, Nesting.ofLine, Element.all_upTo hinside (hblank (by decide) htail) (hblank (by decide) hpad), hread]
    rfl
  · have hletters : '%' ∉ spelling := fun hm => absurd (hspells.isWord (small_rawNames word hword) _ hm) (by decide)
    have hmark : ∀ {b : Text}, allBlank b = true → '%' ∉ b := hblank (by decide)
    simp [hmark hpad, hmark hgap, hmark htail, hletters]

end Markup

/-! ## The depth after a raw element -/

section

variable {place : Place} {opening closing name : Text} {inner : List Text}

theorem Place.walk_opening (hraw : place.raw = none) (hopen : rawOpen? (blankOut opening) = some name) :
    (place.walk opening).2.markup = (place.markup + (Nesting.ofLine (blankOut opening)).net).toNat ∧
      (place.walk opening).2.raw = (if name ∈ rawNames then some name else none) := by
  have hnesting : (Nesting.ofLine (blankOut opening)).rawOpen = some name := hopen
  simp [Place.walk, hraw, Place.step, before_of_rawOpen hopen, hnesting, Option.filter]

/-- **The depth after a raw element** is what its opening line led to, less one. -/
theorem Place.markup_through_raw (hopen : rawOpen? (blankOut opening) = some name)
    (h : Encloses place opening inner closing) :
    (place.through (opening :: (inner ++ [closing]))).markup
      = (place.markup + (Nesting.ofLine (blankOut opening)).net).toNat - 1 := by
  obtain ⟨hraw, element, hin, hinner, hclose⟩ := h
  obtain ⟨hmarkup, -⟩ := Place.walk_opening hraw hopen
  rw [Place.through_cons, Place.through_append, Place.through_raw hin hinner, Place.through_cons, Place.through_nil,
    Place.walk, hin]
  simp [hclose, hmarkup]

/-- A name that no raw element has opens none, and its end tag is read as any other. -/
theorem Place.markup_through_other (hraw : place.raw = none) (hopen : rawOpen? (blankOut opening) = some name)
    (hname : name ∉ rawNames) (hone : OneStart (blankOut opening) name) (hclose : rawClose? closing = some name) :
    (place.through [opening, closing]).markup = place.markup := by
  obtain ⟨hmarkup, hin⟩ := Place.walk_opening hraw hopen
  rw [if_neg hname] at hin
  rw [net_of_oneStart hopen hone] at hmarkup
  obtain ⟨spelling, -, -, hisName, rfl, -, -⟩ := (oneStart_iff hopen).1 hone
  obtain ⟨hbefore, hnet, hpercent⟩ := nesting_of_rawClose hclose hisName
  have hwalk : ∀ q : Place, q.raw = none → q.markup = place.markup + 1 → (q.walk closing).2.markup = place.markup := by
    intro q hq hm
    simp [Place.walk, hq, Place.step, blankOut_of_not_percent hpercent, hbefore, hnet, hm]
  exact hwalk _ hin (by rw [hmarkup]; omega)

end

/-- **A line that opens a raw element is one start tag of it exactly if the tag at its last `<` is**: a name with the lower
case that was read, and then nothing or attributes that white space sets off and that do not end with a slash.  Then the
line adds one to the depth of markup, and the line that closes the element leads back to the depth before, with the content
of the element between them or with nothing.  In any case the depth after a raw element is the one that its opening line
led to, less one, so that it drifts where that line adds anything but one. -/
theorem raw_start_iff {line name : Text} (h : rawOpen? line = some name) :
    (OneStart line name ↔ StartsTag (lastInside line) name) ∧
      (OneStart line name → (Nesting.ofLine line).net = 1 ∧
        ∀ (place : Place) (opening : Text) (inner : List Text) (closing : Text), blankOut opening = line →
          (Encloses place opening inner closing ∨ place.raw = none ∧ inner = [] ∧ rawClose? closing = some name) →
            (place.through (opening :: (inner ++ [closing]))).markup = place.markup) ∧
      ∀ (place : Place) (opening : Text) (inner : List Text) (closing : Text), blankOut opening = line →
        Encloses place opening inner closing →
          (place.through (opening :: (inner ++ [closing]))).markup = (place.markup + (Nesting.ofLine line).net).toNat - 1 := by
  refine ⟨oneStart_iff h, fun hone => ⟨net_of_oneStart h hone, ?_⟩, ?_⟩
  · have hback : ∀ (place : Place) (opening : Text) (inner : List Text) (closing : Text), blankOut opening = line →
        Encloses place opening inner closing → (place.through (opening :: (inner ++ [closing]))).markup = place.markup := by
      rintro place opening inner closing rfl hraw
      rw [Place.markup_through_raw h hraw, net_of_oneStart h hone]
      omega
    rintro place opening inner closing hline (hraw | ⟨hraw, rfl, hclose⟩)
    · exact hback place opening inner closing hline hraw
    · subst hline
      by_cases hname : name ∈ rawNames
      · refine hback place opening [] closing rfl ⟨hraw, name, ?_, List.forall_mem_nil _, hclose⟩
        rw [(Place.walk_opening hraw h).2, if_pos hname]
      · exact Place.markup_through_other hraw h hname hone hclose
  · rintro place opening inner closing rfl hraw
    exact Place.markup_through_raw h hraw

/-- A line with two beginnings of a tag, of which the last one counts, and content that would be a tag elsewhere. -/
theorem raw_start_iff_pre :
    let line := txt "  <PRE <pre id=a> "
    rawOpen? line = some (txt "pre") ∧ OneStart line (txt "pre") ∧
      (({ markup := 2 } : Place).through [line, txt "<b>", txt "</Pre>"]).markup = 2 := by
  intro line
  have hopen : rawOpen? line = some (txt "pre") := by decide +kernel
  have hstart : StartsTag (lastInside line) (txt "pre") :=
    ⟨txt "pre", txt " id=a", by decide +kernel, ⟨'p', txt "re", rfl, by decide, Text.forall_mem_of_all (by decide +kernel)⟩,
      by decide +kernel, by decide +kernel, by decide +kernel⟩
  obtain ⟨hiff, hback, -⟩ := raw_start_iff hopen
  have hraw : Encloses { markup := 2 } line [txt "<b>"] (txt "</Pre>") :=
    ⟨rfl, txt "pre", by decide +kernel, by decide +kernel, by decide +kernel⟩
  exact ⟨hopen, hiff.2 hstart,
    (hback (hiff.2 hstart)).2 { markup := 2 } line [txt "<b>"] (txt "</Pre>") (by decide +kernel) (Or.inl hraw)⟩

/-- A script without content opens a raw element, and adds nothing to the depth that its end takes from. -/
theorem raw_start_self_closing :
    let line := txt "<script src=\"a.js\"/>"
    rawOpen? line = some (txt "script") ∧ (Element.all line).map (·.selfClosing) = [true] ∧
      ¬ OneStart line (txt "script") ∧ (Nesting.ofLine line).net = 0 ∧
      (({ markup := 2 } : Place).through [line, txt "</script>"]).markup = 1 := by
  intro line
  have hself : (Element.all line).map (·.selfClosing) = [true] := by decide +kernel
  refine ⟨by decide +kernel, hself, ?_, by decide +kernel, by decide +kernel⟩
  rintro ⟨e, hall, -, hopen, -⟩
  rw [hall, List.map_singleton, hopen] at hself
  cases hself

end EpFormat
