import EpFormat.Format
import EpFormat.Proofs.Lines
import EpFormat.Proofs.Scan
/-!
# Ink — what of a text is not white space

Cutting into rows or lines, trimming, putting line ends in order: none of these touches the ink of a text.  Two
texts with the same ink differ in white space only.
-/
namespace EpFormat

theorem isBlank_of_isPad {c : Char} (h : isPad c = true) : isBlank c = true := by
  simp only [isPad, Bool.or_eq_true, decide_eq_true_eq] at h
  rcases h with rfl | rfl <;> decide

theorem isPad_of_not_blank {c : Char} (h : isBlank c = false) : isPad c = false := by
  cases hp : isPad c with
  | false => rfl
  | true => rw [isBlank_of_isPad hp] at h; cases h

theorem isBlank_of_isLineBreak {c : Char} (h : isLineBreak c = true) : isBlank c = true := by
  simp only [isLineBreak, Bool.or_eq_true, Bool.and_eq_true, decide_eq_true_eq] at h
  unfold isBlank
  simp only
  split <;> simp only [Bool.or_eq_true, Bool.and_eq_true, decide_eq_true_eq] <;> omega

@[simp] theorem isBlank_space : isBlank ' ' = true := by decide

@[simp] theorem isBlank_feed : isBlank '\n' = true := by decide

@[simp] theorem isBlank_return : isBlank '\r' = true := by decide

def blankCodes : List Nat :=
  [32, 9, 10, 11, 12, 13, 28, 29, 30, 31, 0x85, 0xA0, 0x1680, 0x2000, 0x2001, 0x2002, 0x2003, 0x2004, 0x2005, 0x2006,
    0x2007, 0x2008, 0x2009, 0x200A, 0x2028, 0x2029, 0x202F, 0x205F, 0x3000]

theorem toNat_mem_blankCodes {c : Char} (h : isBlank c = true) : c.toNat ∈ blankCodes := by
  unfold isBlank at h
  simp only at h
  simp only [blankCodes, List.mem_cons, List.not_mem_nil, or_false]
  split at h <;> simp only [Bool.or_eq_true, Bool.and_eq_true, decide_eq_true_eq] at h <;> omega

theorem isWord_of_isBlank {c : Char} (h : isBlank c = true) : isWord c = false := by
  have hcodes : ∀ n ∈ blankCodes, isWord (Char.ofNat n) = false := by decide +kernel
  have := hcodes c.toNat (toNat_mem_blankCodes h)
  rwa [Char.ofNat_toNat] at this

theorem isBlank_of_isWord {c : Char} (hw : isWord c = true) : isBlank c = false := by
  cases hb : isBlank c with
  | false => rfl
  | true => rw [isWord_of_isBlank hb] at hw; cases hw

theorem isAlpha_iff {c : Char} :
    c.isAlpha = true ↔ 65 ≤ c.toNat ∧ c.toNat ≤ 90 ∨ 97 ≤ c.toNat ∧ c.toNat ≤ 122 := by
  have hupper : c.isUpper = true ↔ 65 ≤ c.toNat ∧ c.toNat ≤ 90 := decide_eq_true_iff
  have hlower : c.isLower = true ↔ 97 ≤ c.toNat ∧ c.toNat ≤ 122 :=
    Bool.and_eq_true_iff.trans (and_congr decide_eq_true_iff decide_eq_true_iff)
  rw [← hupper, ← hlower]
  exact Bool.or_eq_true_iff

theorem toNat_lt_of_isAlpha {c : Char} (h : c.isAlpha = true) : c.toNat < 128 := by
  rw [isAlpha_iff] at h
  omega

theorem isWord_of_isAlpha {c : Char} (h : c.isAlpha = true) : isWord c = true := by
  simp [isWord, toNat_lt_of_isAlpha h, Char.isAlphanum, h]

theorem isBlank_of_isAlpha {c : Char} (h : c.isAlpha = true) : isBlank c = false := isBlank_of_isWord (isWord_of_isAlpha h)

@[simp] theorem ink_nil : ink [] = [] := rfl

@[simp] theorem ink_append (s t : Text) : ink (s ++ t) = ink s ++ ink t := List.filter_append ..

theorem ink_cons (c : Char) (t : Text) : ink (c :: t) = ink [c] ++ ink t := ink_append [c] t

@[simp] theorem ink_cons_of_blank {c : Char} (h : isBlank c = true) (t : Text) : ink (c :: t) = ink t := by
  simp [ink, h]

@[simp] theorem ink_cons_of_not_blank {c : Char} (h : isBlank c = false) (t : Text) : ink (c :: t) = c :: ink t := by
  simp [ink, h]

@[simp] theorem ink_flatten (ls : List Text) : ink ls.flatten = ls.flatMap ink := by
  rw [ink, List.filter_flatten]
  rfl

theorem ink_reverse (t : Text) : ink t.reverse = (ink t).reverse := List.filter_reverse ..

theorem ink_of_all_blank {t : Text} (h : ∀ c ∈ t, isBlank c = true) : ink t = [] := by
  simpa [ink] using h

theorem ink_eq_nil_iff (t : Text) : ink t = [] ↔ allBlank t = true := by
  simp [ink, allBlank]

theorem count_ink {c : Char} (hc : isBlank c = false) (t : Text) : (ink t).count c = t.count c :=
  List.count_filter (by simp [hc])

/-! ## Cutting white space away -/

theorem ink_dropWhile {p : Char → Bool} (hp : ∀ c, p c = true → isBlank c = true) : ∀ t : Text,
    ink (t.dropWhile p) = ink t
  | [] => rfl
  | c :: t => by
    rw [List.dropWhile_cons]
    split
    · rename_i hc
      rw [ink_dropWhile hp t, ink_cons_of_blank (hp c hc)]
    · rfl

theorem ink_dropEndWhile {p : Char → Bool} (hp : ∀ c, p c = true → isBlank c = true) (t : Text) :
    ink (Text.dropEndWhile p t) = ink t := by
  rw [Text.dropEndWhile, ink_reverse, ink_dropWhile hp, ink_reverse, List.reverse_reverse]

@[simp] theorem ink_trimLeft (t : Text) : ink (Text.trimLeft t) = ink t := ink_dropWhile (fun _ h => h) t

@[simp] theorem ink_trimRight (t : Text) : ink (Text.trimRight t) = ink t := ink_dropEndWhile (fun _ h => h) t

@[simp] theorem ink_trim (t : Text) : ink (Text.trim t) = ink t := by
  rw [Text.trim, ink_trimRight, ink_trimLeft]

@[simp] theorem ink_dropTrailingPad (t : Text) : ink (Text.dropTrailingPad t) = ink t :=
  ink_dropEndWhile (fun _ h => isBlank_of_isPad h) t

@[simp] theorem ink_replicate_space (n : Nat) : ink (List.replicate n ' ') = [] :=
  ink_of_all_blank (fun c hc => by rw [(List.mem_replicate.1 hc).2]; rfl)

@[simp] theorem ink_spaces (n : Int) : ink (Text.spaces n) = [] := ink_replicate_space _

/-! ## Rows and lines -/

theorem ink_join {sep : Text} (hsep : ∀ c ∈ sep, isBlank c = true) : ∀ ts : List Text,
    ink (Text.join sep ts) = ts.flatMap ink
  | [] => rfl
  | [t] => by simp [Text.join]
  | t :: u :: ts => by
    have ih := ink_join hsep (u :: ts)
    rw [Text.join] at ih ⊢
    rw [List.intercalate_cons_cons, ink_append, ink_append, ih, ink_of_all_blank hsep]
    simp

@[simp] theorem ink_unrows (rs : List Text) : ink (Text.unrows rs) = rs.flatMap ink :=
  ink_join (by simp) rs

theorem ink_rows (t : Text) : (Text.rows t).flatMap ink = ink t := by
  induction t with
  | nil => rfl
  | cons c t ih =>
    simp only [Text.rows, List.foldr_cons] at ih ⊢
    split
    · rename_i hc
      subst hc
      rw [List.flatMap_cons, ih]
      simp
    · split
      · rename_i _ h
        rw [h] at ih
        rw [ink_cons, ← ih]
        simp
      · rename_i _ r rs h
        rw [h] at ih
        rw [List.flatMap_cons, ink_cons, ink_cons c t, ← ih, List.flatMap_cons, List.append_assoc]

theorem flatten_linesKeepAux (done : List Text) (line t : Text) :
    (Text.linesKeepAux done line t).flatten = done.reverse.flatten ++ line.reverse ++ t := by
  fun_induction Text.linesKeepAux done line t with
  | case1 done line =>
    split
    · rename_i h
      simp [List.isEmpty_iff.1 h]
    · simp
  | case2 done line rest ih => rw [ih]; simp
  | case3 done line c rest _ hc ih => rw [ih]; simp
  | case4 done line c rest _ hc ih => rw [ih]; simp

theorem flatten_linesKeep (t : Text) : (Text.linesKeep t).flatten = t := by
  rw [Text.linesKeep, flatten_linesKeepAux]
  rfl

theorem Text.lines_ne_nil {t : Text} (h : t ≠ []) : Text.lines t ≠ [] := by
  intro hnil
  have hflat := flatten_linesKeep t
  rw [List.map_eq_nil_iff.1 hnil] at hflat
  exact h hflat.symm

theorem Text.mem_of_mem_lines {t l : Text} (hl : l ∈ Text.lines t) {c : Char} (hc : c ∈ l) :
    c ∈ t ∧ isLineBreak c = false := by
  obtain ⟨k, hk, rfl⟩ := List.mem_map.1 hl
  obtain ⟨hck, hb⟩ := List.mem_filter.1 hc
  refine ⟨?_, by simpa using hb⟩
  rw [← flatten_linesKeep t]
  exact List.mem_flatten.2 ⟨k, hk, hck⟩

theorem ink_withoutBreaks (t : Text) : ink (t.filter (fun c => !isLineBreak c)) = ink t := by
  rw [ink, ink, List.filter_filter]
  refine List.filter_congr (fun c _ => ?_)
  cases hb : isLineBreak c with
  | false => simp
  | true => simp [isBlank_of_isLineBreak hb]

theorem ink_lines (t : Text) : (Text.lines t).flatMap ink = ink t := by
  rw [Text.lines, List.flatMap_map]
  simp only [ink_withoutBreaks]
  rw [← ink_flatten, flatten_linesKeep]

/-! ## Line ends -/

theorem ink_unifyAux : ∀ (t done : Text) (afterCr : Bool), ink (Eol.unifyAux done afterCr t) = ink done.reverse ++ ink t
  | [], done, _ => by simp [Eol.unifyAux]
  | c :: t, done, afterCr => by
    rw [Eol.unifyAux]
    split
    · rename_i hc
      subst hc
      rw [ink_unifyAux t]
      simp
    · split
      · rename_i hc
        simp only [Bool.and_eq_true, decide_eq_true_eq] at hc
        rw [ink_unifyAux t, hc.1]
        simp
      · rw [ink_unifyAux t, ink_cons c t]
        simp

@[simp] theorem ink_unify (t : Text) : ink (Eol.unify t) = ink t := by
  rw [Eol.unify, ink_unifyAux]
  rfl

@[simp] theorem ink_widen (t : Text) : ink (Eol.widen t) = ink t := by
  induction t with
  | nil => rfl
  | cons c t ih =>
    rw [Eol.widen] at ih ⊢
    rw [List.flatMap_cons, ink_append, ih, ink_cons c t]
    split
    · rename_i hc
      subst hc
      simp
    · rfl

@[simp] theorem ink_eol (e : Eol) (t : Text) : ink (e.apply t) = ink t := by
  cases e <;> simp [Eol.apply]

@[simp] theorem ink_endLine (t : Text) : ink (endLine t) = ink t := by
  unfold endLine
  split <;> simp

@[simp] theorem ink_finish (cfg : Config) (source laid : Text) : ink (finish cfg source laid) = ink laid := by
  simp [finish]

end EpFormat
