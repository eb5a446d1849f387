import EpFormat.Proofs.Loss
import EpFormat.Proofs.Trim
/-!
# Unwrap — code taken out of its wrapper

An expression or a block goes to the tidier inside `do` and braces, and comes back as what stands between the first
brace of the answer and the one that matches it.  Braces are counted wherever they stand, in literals too.  So if the
answer is what was sent, the code comes back whole if it closes no brace that it did not open (`SelfContained`);
otherwise it is cut before the first brace that does.
-/
namespace EpFormat.Perl

/-- The code closes no brace that it did not open, counted from its start, where `depth` braces are open. -/
def ClosesWithin (depth : Nat) (code : Text) : Prop :=
  ∀ pre, pre <+: code → pre.count '\x7d' ≤ depth + pre.count '\x7b'

/-- No beginning of the code closes more braces than it opens. -/
def SelfContained (code : Text) : Prop := ∀ pre, pre <+: code → pre.count '\x7d' ≤ pre.count '\x7b'

theorem selfContained_iff (code : Text) : SelfContained code ↔ ClosesWithin 0 code := by
  simp only [SelfContained, ClosesWithin, Nat.zero_add]

theorem closesWithin_nil (depth : Nat) : ClosesWithin depth [] := by
  intro pre hpre
  rw [List.prefix_nil.1 hpre]
  simp

theorem closesWithin_open {depth : Nat} {code : Text} :
    ClosesWithin depth ('\x7b' :: code) ↔ ClosesWithin (depth + 1) code := by
  constructor
  · intro h pre hpre
    have := h ('\x7b' :: pre) (List.cons_prefix_cons.2 ⟨rfl, hpre⟩)
    simp at this
    omega
  · rintro h (_ | ⟨c, pre⟩) hpre
    · simp
    · obtain ⟨rfl, htail⟩ := List.cons_prefix_cons.1 hpre
      have := h pre htail
      simp
      omega

theorem closesWithin_close {depth : Nat} {code : Text} :
    ClosesWithin depth ('\x7d' :: code) ↔ 0 < depth ∧ ClosesWithin (depth - 1) code := by
  constructor
  · intro h
    have hfirst := h ['\x7d'] (List.cons_prefix_cons.2 ⟨rfl, List.nil_prefix⟩)
    simp at hfirst
    refine ⟨by omega, fun pre hpre => ?_⟩
    have := h ('\x7d' :: pre) (List.cons_prefix_cons.2 ⟨rfl, hpre⟩)
    simp at this
    omega
  · rintro ⟨hpos, h⟩ (_ | ⟨c, pre⟩) hpre
    · simp
    · obtain ⟨rfl, htail⟩ := List.cons_prefix_cons.1 hpre
      have := h pre htail
      simp
      omega

theorem closesWithin_char {c : Char} (h₁ : c ≠ '\x7b') (h₂ : c ≠ '\x7d') {depth : Nat} {code : Text} :
    ClosesWithin depth (c :: code) ↔ ClosesWithin depth code := by
  constructor
  · intro h pre hpre
    have := h (c :: pre) (List.cons_prefix_cons.2 ⟨rfl, hpre⟩)
    rwa [List.count_cons_of_ne h₁, List.count_cons_of_ne h₂] at this
  · rintro h (_ | ⟨d, pre⟩) hpre
    · simp
    · obtain ⟨rfl, htail⟩ := List.cons_prefix_cons.1 hpre
      rw [List.count_cons_of_ne h₁, List.count_cons_of_ne h₂]
      exact h pre htail

instance decidableClosesWithin : ∀ (depth : Nat) (code : Text), Decidable (ClosesWithin depth code)
  | depth, [] => isTrue (closesWithin_nil depth)
  | depth, c :: code =>
    if h₁ : c = '\x7b' then
      have := decidableClosesWithin (depth + 1) code
      decidable_of_iff (ClosesWithin (depth + 1) code) (h₁ ▸ closesWithin_open.symm)
    else if h₂ : c = '\x7d' then
      have := decidableClosesWithin (depth - 1) code
      decidable_of_iff (0 < depth ∧ ClosesWithin (depth - 1) code) (h₂ ▸ closesWithin_close.symm)
    else
      have := decidableClosesWithin depth code
      decidable_of_iff (ClosesWithin depth code) (closesWithin_char h₁ h₂).symm

instance (code : Text) : Decidable (SelfContained code) :=
  decidable_of_iff (ClosesWithin 0 code) (selfContained_iff code).symm

/-! ## The matching brace -/

theorem beforeClosing_open (inner : Text) (depth : Nat) (t : Text) :
    beforeClosing inner depth ('\x7b' :: t) = beforeClosing ('\x7b' :: inner) (depth + 1) t := by
  cases depth <;> rfl

theorem beforeClosing_close (inner : Text) (depth : Nat) (t : Text) :
    beforeClosing inner (depth + 1) ('\x7d' :: t) = beforeClosing ('\x7d' :: inner) depth t := rfl

theorem beforeClosing_match (inner t : Text) : beforeClosing inner 0 ('\x7d' :: t) = some inner.reverse := rfl

theorem beforeClosing_char {c : Char} (h₁ : c ≠ '\x7b') (h₂ : c ≠ '\x7d') (inner : Text) (depth : Nat) (t : Text) :
    beforeClosing inner depth (c :: t) = beforeClosing (c :: inner) depth t := by
  cases depth <;> rw [beforeClosing, if_neg h₁, if_neg h₂]

/-- Code that closes no brace of the wrapper is passed over as a whole. -/
theorem beforeClosing_append : ∀ (code inner : Text) (depth : Nat) (rest : Text), ClosesWithin depth code →
    beforeClosing inner depth (code ++ rest)
      = beforeClosing (code.reverse ++ inner) (depth + code.count '\x7b' - code.count '\x7d') rest
  | [], _, _, _, _ => by simp
  | c :: code, inner, depth, rest, h => by
    by_cases h₁ : c = '\x7b'
    · subst h₁
      rw [List.cons_append, beforeClosing_open, beforeClosing_append code _ _ rest (closesWithin_open.1 h)]
      simp [Nat.add_right_comm, Nat.add_assoc]
    · by_cases h₂ : c = '\x7d'
      · subst h₂
        obtain ⟨hpos, hcode⟩ := closesWithin_close.1 h
        obtain ⟨d, rfl⟩ : ∃ d, depth = d + 1 := ⟨depth - 1, by omega⟩
        have hd : d + 1 + List.count '\x7b' ('\x7d' :: code) - List.count '\x7d' ('\x7d' :: code)
            = d + List.count '\x7b' code - List.count '\x7d' code := by
          simp
          omega
        rw [List.cons_append, beforeClosing_close, beforeClosing_append code _ d rest hcode, hd]
        simp
      · rw [List.cons_append, beforeClosing_char h₁ h₂,
          beforeClosing_append code _ depth rest ((closesWithin_char h₁ h₂).1 h), List.count_cons_of_ne h₁,
          List.count_cons_of_ne h₂]
        simp

/-- Code that closes a brace of the wrapper has a first such brace, and before it every brace is closed. -/
theorem exists_excess : ∀ {code : Text} {depth : Nat}, ¬ ClosesWithin depth code →
    ∃ p q, code = p ++ '\x7d' :: q ∧ ClosesWithin depth p ∧ p.count '\x7d' = depth + p.count '\x7b'
  | [], depth, h => absurd (closesWithin_nil depth) h
  | c :: code, depth, h => by
    by_cases h₁ : c = '\x7b'
    · subst h₁
      rw [closesWithin_open] at h
      obtain ⟨p, q, rfl, hp, hcount⟩ := exists_excess h
      refine ⟨'\x7b' :: p, q, rfl, closesWithin_open.2 hp, ?_⟩
      simp only [List.count_cons_self, List.count_cons_of_ne (show '\x7b' ≠ '\x7d' by decide)]
      omega
    by_cases h₂ : c = '\x7d'
    · subst h₂
      cases depth with
      | zero => exact ⟨[], code, rfl, closesWithin_nil 0, rfl⟩
      | succ d =>
        rw [closesWithin_close] at h
        obtain ⟨p, q, rfl, hp, hcount⟩ := exists_excess (fun hc => h ⟨Nat.succ_pos d, hc⟩)
        refine ⟨'\x7d' :: p, q, rfl, closesWithin_close.2 ⟨Nat.succ_pos d, hp⟩, ?_⟩
        simp only [List.count_cons_self, List.count_cons_of_ne (show '\x7d' ≠ '\x7b' by decide)]
        omega
    · rw [closesWithin_char h₁ h₂] at h
      obtain ⟨p, q, rfl, hp, hcount⟩ := exists_excess h
      refine ⟨c :: p, q, rfl, (closesWithin_char h₁ h₂).2 hp, ?_⟩
      rwa [List.count_cons_of_ne h₁, List.count_cons_of_ne h₂]

/-- The code is `p`, the first brace that closes more than was opened, and `q`. -/
structure CutAt (code p q : Text) : Prop where
  code_eq : code = p ++ '\x7d' :: q
  selfContained : SelfContained p
  exceeds : p.count '\x7b' < (p ++ ['\x7d']).count '\x7d'

namespace CutAt

variable {code p q p' q' : Text}

theorem count_eq (h : CutAt code p q) : p.count '\x7b' = p.count '\x7d' := by
  have hself := h.selfContained p List.prefix_rfl
  have hover := h.exceeds
  rw [List.count_append, List.count_singleton_self] at hover
  omega

theorem length_le (h : CutAt code p q) (h' : CutAt code p' q') : p'.length ≤ p.length := by
  refine Nat.le_of_not_lt (fun hlt => ?_)
  have hbrace : p ++ ['\x7d'] <+: code := ⟨q, by rw [h.code_eq, List.append_assoc]; rfl⟩
  have hstart : p' <+: code := ⟨'\x7d' :: q', h'.code_eq.symm⟩
  have hin : p ++ ['\x7d'] <+: p' := List.prefix_of_prefix_length_le hbrace hstart (by simp; omega)
  have hopen : (p ++ ['\x7d']).count '\x7b' = p.count '\x7b' := List.count_append
  have hwithin := h'.selfContained _ hin
  rw [hopen] at hwithin
  exact Nat.not_lt_of_le hwithin h.exceeds

theorem unique (h : CutAt code p q) (h' : CutAt code p' q') : p' = p := by
  have hstart : p <+: code := ⟨'\x7d' :: q, h.code_eq.symm⟩
  have hstart' : p' <+: code := ⟨'\x7d' :: q', h'.code_eq.symm⟩
  have hin := List.prefix_of_prefix_length_le hstart' hstart (h.length_le h')
  exact hin.eq_of_length_le (h'.length_le h)

end CutAt

/-- Code that closes a brace that it did not open is cut at the first of these. -/
theorem exists_cutAt {code : Text} (h : ¬ SelfContained code) : ∃ p q, CutAt code p q := by
  rw [selfContained_iff] at h
  obtain ⟨p, q, hcode, hp, hcount⟩ := exists_excess h
  refine ⟨p, q, hcode, (selfContained_iff p).2 hp, ?_⟩
  rw [List.count_append, List.count_singleton_self]
  omega

/-- Code in its wrapper; `gap` parts it from both braces. -/
def wrap (gap : Char) (code : Text) : Text := txt "do \x7b" ++ gap :: (code ++ [gap, '\x7d'])

theorem insideBraces?_wrap {gap : Char} (hgap : isBlank gap = true) (code : Text) :
    insideBraces? (wrap gap code) = beforeClosing [gap] 0 (code ++ [gap, '\x7d']) := by
  have h₁ : gap ≠ '\x7b' := ne_of_isBlank (by decide) hgap
  have h₂ : gap ≠ '\x7d' := ne_of_isBlank (by decide) hgap
  have hdrop : (wrap gap code).dropWhile (· != '\x7b') = '\x7b' :: gap :: (code ++ [gap, '\x7d']) := rfl
  rw [insideBraces?, hdrop]
  simp only
  rw [beforeClosing_char h₁ h₂]

/-- **Code that closes no brace that it did not open comes back whole**, between its gaps, if it closes all that it
opened; otherwise nothing comes back. -/
theorem insideBraces?_selfContained {gap : Char} (hgap : isBlank gap = true) {code : Text} (h : SelfContained code) :
    insideBraces? (wrap gap code)
      = if code.count '\x7b' = code.count '\x7d' then some (gap :: (code ++ [gap])) else none := by
  have h₁ : gap ≠ '\x7b' := ne_of_isBlank (by decide) hgap
  have h₂ : gap ≠ '\x7d' := ne_of_isBlank (by decide) hgap
  have hclosed := h code List.prefix_rfl
  rw [insideBraces?_wrap hgap, beforeClosing_append _ _ _ _ ((selfContained_iff code).1 h), beforeClosing_char h₁ h₂,
    Nat.zero_add]
  by_cases hcount : code.count '\x7b' = code.count '\x7d'
  · rw [if_pos hcount, hcount, Nat.sub_self, beforeClosing_match]
    simp
  · obtain ⟨d, hd⟩ : ∃ d, code.count '\x7b' - code.count '\x7d' = d + 1 := ⟨code.count '\x7b' - code.count '\x7d' - 1, by omega⟩
    rw [if_neg hcount, hd]
    rfl

/-- **Code that closes a brace that it did not open is cut before it.** -/
theorem insideBraces?_cut {gap : Char} (hgap : isBlank gap = true) {code p q : Text} (h : CutAt code p q) :
    insideBraces? (wrap gap code) = some (gap :: p) := by
  have hwithin := (selfContained_iff p).1 h.selfContained
  rw [insideBraces?_wrap hgap, h.code_eq, List.append_assoc, beforeClosing_append _ _ _ _ hwithin, h.count_eq, Nat.zero_add,
    Nat.sub_self, List.cons_append, beforeClosing_match]
  simp

theorem wrap_space (code : Text) : txt "do \x7b " ++ code ++ txt " \x7d" = wrap ' ' code := by
  rw [List.append_assoc]
  rfl

theorem wrap_feed (code : Text) : txt "do \x7b\n" ++ code ++ txt "\n\x7d" = wrap '\n' code := by
  rw [List.append_assoc]
  rfl

/-- **Unwrapping keeps the ink of code exactly if the code is self-contained.** -/
theorem cut_unwrap {gap : Char} (hgap : isBlank gap = true) {code other : Text} (hother : ink other = ink code) :
    Cut ((insideBraces? (wrap gap code)).getD other) code (SelfContained code) := by
  by_cases h : SelfContained code
  · refine (Cut.of_ink ?_).congr rfl rfl (iff_of_true trivial h)
    rw [insideBraces?_selfContained hgap h]
    split
    · simp [hgap]
    · exact hother
  · obtain ⟨p, q, hcut⟩ := exists_cutAt h
    have hw := insideBraces?_cut hgap hcut
    obtain rfl := hcut.code_eq
    have hbrace : ink ('\x7d' :: q) = '\x7d' :: ink q := ink_cons_of_not_blank (by decide) q
    rw [hw, Option.getD_some]
    refine ⟨?_, iff_of_false (fun hsame => ?_) h⟩
    · rw [ink_cons_of_blank hgap, ink_append]
      exact List.sublist_append_left _ _
    · rw [ink_cons_of_blank hgap, ink_append, hbrace] at hsame
      have := congrArg List.length hsame
      simp at this

theorem ink_dropOuterBreaks (t : Text) : ink (dropOuterBreaks t) = ink t := by
  unfold dropOuterBreaks
  extract_lets u
  have hfront : ink u = ink t := by
    simp only [u]
    split
    · simp
    · rfl
  rw [← hfront]
  split
  · rename_i rest hu
    rw [← List.reverse_reverse u, hu]
    simp
  · rfl

end EpFormat.Perl
