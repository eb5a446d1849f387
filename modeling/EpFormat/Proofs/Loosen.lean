import EpFormat.Proofs.Ink
import EpFormat.Proofs.Scan
import EpFormat.Proofs.Trim
/-!
# Loosen — spaces put into a text

A text is loosened by putting in spaces and by making gaps one space.  Its ink stays, no other white space comes in, and
nothing is joined that stood apart: what stands in the loosened text without white space stood so in the text (`isInfix`).
-/
namespace EpFormat

/-- A text, and the text with spaces put in and with gaps made one space. -/
inductive Loosened : Text → Text → Prop
  | nil : Loosened [] []
  | char (c : Char) {s t : Text} (h : Loosened s t) : Loosened (c :: s) (c :: t)
  | space {g s t : Text} (hg : allBlank g = true) (h : Loosened s t) : Loosened (g ++ s) (' ' :: t)

namespace Loosened

variable {s t u w : Text}

theorem refl : ∀ t : Text, Loosened t t
  | [] => nil
  | c :: t => char c (refl t)

theorem append (h : Loosened s t) {s' t' : Text} (h' : Loosened s' t') : Loosened (s ++ s') (t ++ t') := by
  induction h with
  | nil => exact h'
  | char c _ ih => exact char c ih
  | space hg _ ih =>
    rw [List.append_assoc, List.cons_append]
    exact space hg ih

theorem append_left (p : Text) (h : Loosened s t) : Loosened (p ++ s) (p ++ t) := (refl p).append h

/-- White space in the loosened text comes from white space in the text, or from none at all. -/
theorem blank_inv : ∀ {g : Text}, allBlank g = true → ∀ {s t : Text}, Loosened s (g ++ t) →
    ∃ k r, s = k ++ r ∧ allBlank k = true ∧ Loosened r t
  | [], _, s, t, h => ⟨[], s, rfl, rfl, h⟩
  | c :: g, hg, s, t, h => by
    rw [allBlank_cons, Bool.and_eq_true] at hg
    cases h with
    | char _ h =>
      obtain ⟨k, r, rfl, hk, hr⟩ := blank_inv hg.2 h
      exact ⟨c :: k, r, rfl, by rw [allBlank_cons, hg.1, hk]; rfl, hr⟩
    | space hg' h =>
      obtain ⟨k, r, rfl, hk, hr⟩ := blank_inv hg.2 h
      exact ⟨_ ++ k, r, (List.append_assoc ..).symm, by rw [allBlank_append, hg', hk]; rfl, hr⟩

theorem trans (h₁ : Loosened s t) (h₂ : Loosened t u) : Loosened s u := by
  induction h₂ generalizing s with
  | nil => exact h₁
  | char c _ ih =>
    cases h₁ with
    | char _ h => exact char c (ih h)
    | space hg h => exact space hg (ih h)
  | space hg _ ih =>
    obtain ⟨k, r, rfl, hk, hr⟩ := blank_inv hg h₁
    exact space hk (ih hr)

theorem ink_eq (h : Loosened s t) : ink t = ink s := by
  induction h with
  | nil => rfl
  | @char c s t _ ih => rw [ink_cons c s, ink_cons c t, ih]
  | space hg _ ih => rw [ink_cons_of_blank isBlank_space, ink_append, (ink_eq_nil_iff _).2 hg, ih, List.nil_append]

theorem ne_nil (h : Loosened s t) (hs : s ≠ []) : t ≠ [] := by
  cases h with
  | nil => exact hs
  | char c h => exact List.cons_ne_nil _ _
  | space hg h => exact List.cons_ne_nil _ _

/-- No character comes in but the space. -/
theorem mem (h : Loosened s t) {c : Char} (hc : c ∈ t) : c = ' ' ∨ c ∈ s := by
  induction h with
  | nil => exact absurd hc List.not_mem_nil
  | char d _ ih =>
    rcases List.mem_cons.1 hc with rfl | hc
    · exact Or.inr List.mem_cons_self
    · exact (ih hc).imp id (List.mem_cons_of_mem d)
  | @space g s t hg _ ih =>
    rcases List.mem_cons.1 hc with rfl | hc
    · exact Or.inl rfl
    · exact (ih hc).imp id (List.mem_append_right g)

theorem isPrefix : ∀ {w s t : Text}, (∀ c ∈ w, isBlank c = false) → Loosened s t → w <+: t → w <+: s
  | [], _, _, _, _, _ => List.nil_prefix
  | c :: w, s, t, hw, h, hp => by
    cases h with
    | nil => exact hp
    | char d h =>
      obtain ⟨rfl, hrest⟩ := List.cons_prefix_cons.1 hp
      exact List.cons_prefix_cons.2 ⟨rfl, isPrefix (fun d hd => hw d (List.mem_cons_of_mem _ hd)) h hrest⟩
    | space hg h =>
      have hc := hw c List.mem_cons_self
      rw [(List.cons_prefix_cons.1 hp).1, isBlank_space] at hc
      cases hc

/-- **Nothing is joined**: a word that stands in the loosened text stood in the text. -/
theorem isInfix (hw : ∀ c ∈ w, isBlank c = false) (h : Loosened s t) (hi : w <:+: t) : w <:+: s := by
  induction h with
  | nil => exact hi
  | char c h ih =>
    rcases List.infix_cons_iff.1 hi with hp | hi
    · exact (isPrefix hw (char c h) hp).isInfix
    · exact (ih hi).trans (List.suffix_cons c _).isInfix
  | @space g s t hg h ih =>
    rcases List.infix_cons_iff.1 hi with hp | hi
    · exact (isPrefix hw (space hg h) hp).isInfix
    · exact (ih hi).trans (List.suffix_append g s).isInfix

end Loosened

/-- **Replacing each find by a text that it is loosened to loosens the text.** -/
theorem loosened_substituteFrom {α : Type} {find : Finder Char α} {f : α → Text}
    (h : ∀ prev x rest a n, find prev (x :: rest) = some (a, n) → Loosened (taken n (x :: rest)) (f a))
    (prev : Option Char) (t : Text) : Loosened t ((scanFrom find prev t).flatMap (Piece.put f)) := by
  induction prev, t using scanFrom_induct find with
  | nil prev => exact .nil
  | hit prev x rest a n hf ih =>
    rw [scanFrom_hit hf, List.flatMap_cons]
    have happend := (h prev x rest a n hf).append ih
    rwa [taken_append_beyond] at happend
  | item prev x rest hf ih =>
    rw [scanFrom_item hf, List.flatMap_cons]
    exact .char x ih

end EpFormat
