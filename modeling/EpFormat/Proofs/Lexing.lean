import Mathlib.Data.List.Chain
import EpFormat.Proofs.Chunks
/-!
# Lexing — the one way to cut Perl text

`Lexes cs t` says what the chunks of a text have to be, without saying how they are found: put together they are the text;
code has no quote in it and no code right after it; a literal has no free quote of its own before its end, and only the last
chunk may be a literal that is not closed.  `lexes_iff` says that `split` gives such chunks and that no others do.

What is free in a literal is read off its `steps`, where a backslash and the character after it are one step.
-/
namespace EpFormat.Perl.Chunk

/-- The steps of a scan through a literal: a backslash takes the character after it along. -/
def steps : Text → List Text
  | [] => []
  | '\\' :: c :: t => ['\\', c] :: steps t
  | c :: t => [c] :: steps t

/-- The chunks are a cut of the text into code and literals. -/
structure Lexes (cs : List Chunk) (t : Text) : Prop where
  joined : cs.flatMap text = t
  nonempty : ∀ c ∈ cs, c.text ≠ []
  unquoted : ∀ s, code s ∈ cs → ∀ c ∈ s, isQuote c = false
  apart : cs.IsChain (fun a b => ¬ (a.isCode = true ∧ b.isCode = true))
  quoted : ∀ s, literal s ∈ cs → ∃ q body, s = q :: body ∧ isQuote q = true ∧ [q] ∉ (steps body).dropLast
  closed : ∀ s, literal s ∈ cs.dropLast → ∃ q body, s = q :: body ∧ (steps body).getLast? = some [q]

/-! ## Steps and the quote that closes -/

theorem steps_char {c : Char} (hc : c ≠ '\\') (t : Text) : steps (c :: t) = [c] :: steps t :=
  steps.eq_3 c t (fun _ _ h => absurd h hc)

theorem steps_ne_nil (c : Char) (t : Text) : steps (c :: t) ≠ [] := by
  by_cases hc : c = '\\'
  · subst hc
    cases t <;> simp [steps]
  · rw [steps_char hc]
    exact List.cons_ne_nil _ _

section

variable {q : Char} (hq : q ≠ '\\')

include hq

/-- Nothing closes a literal whose steps hold no free quote. -/
theorem afterQuote?_eq_none_iff (body : Text) : afterQuote? q false body = none ↔ [q] ∉ steps body := by
  fun_induction steps body with
  | case1 => simp [afterQuote?]
  | case2 c t ih =>
    rw [afterQuote?_backslash, afterQuote?, ih]
    simp
  | case3 c t hne ih =>
    by_cases hb : c = '\\'
    · subst hb
      -- a backslash with nothing behind it
      cases t with
      | nil => simp [afterQuote?, steps, hq]
      | cons d t => exact absurd rfl (hne d t rfl)
    by_cases hc : c = q
    · subst hc
      rw [afterQuote?_quote hb]
      simp
    · rw [afterQuote?_char hb hc, ih]
      simp [Ne.symm hc]

/-- A literal is closed at its end if its last step is the one free quote. -/
theorem afterQuote?_eq_nil_iff (body : Text) :
    afterQuote? q false body = some [] ↔ [q] ∉ (steps body).dropLast ∧ (steps body).getLast? = some [q] := by
  fun_induction steps body with
  | case1 => simp [afterQuote?]
  | case2 c t ih =>
    rw [afterQuote?_backslash, afterQuote?]
    cases t with
    | nil => simp [afterQuote?, steps]
    | cons d t =>
      rw [ih, List.dropLast_cons_of_ne_nil (steps_ne_nil d t), List.getLast?_cons_of_ne_nil (steps_ne_nil d t)]
      simp
  | case3 c t hne ih =>
    cases t with
    | nil =>
      by_cases hb : c = '\\'
      · subst hb
        simp [afterQuote?, steps, Ne.symm hq]
      · by_cases hc : c = q
        · subst hc
          simp [afterQuote?_quote hb, steps]
        · simp [afterQuote?, steps, hb, hc]
    | cons d t =>
      have hb : c ≠ '\\' := fun hb => hne d t hb rfl
      rw [List.dropLast_cons_of_ne_nil (steps_ne_nil d t), List.getLast?_cons_of_ne_nil (steps_ne_nil d t)]
      by_cases hc : c = q
      · subst hc
        simp [afterQuote?_quote hb]
      · rw [afterQuote?_char hb hc, ih]
        simp [Ne.symm hc]

/-- A literal without a free quote before its end is closed there, or not at all. -/
theorem afterQuote?_of_not_mem {body : Text} (h : [q] ∉ (steps body).dropLast) :
    afterQuote? q false body = none ∨ afterQuote? q false body = some [] := by
  by_cases hlast : (steps body).getLast? = some [q]
  · exact Or.inr ((afterQuote?_eq_nil_iff hq body).2 ⟨h, hlast⟩)
  · refine Or.inl ((afterQuote?_eq_none_iff hq body).2 (fun hmem => ?_))
    obtain ⟨us, u, hus⟩ := (List.eq_nil_or_concat (steps body)).resolve_left (List.ne_nil_of_mem hmem)
    rw [List.concat_eq_append] at hus
    rw [hus, List.dropLast_concat] at h
    rw [hus, List.getLast?_concat] at hlast
    rw [hus] at hmem
    rcases List.mem_append.1 hmem with hmem | hmem
    · exact h hmem
    · exact hlast (by rw [List.mem_singleton.1 hmem])

end

/-! ## Chunk by chunk -/

/-- What the first chunk has to be, where the chunks `cs` follow it. -/
inductive Leads : Chunk → List Chunk → Prop
  | code {s : Text} {cs : List Chunk} (ne_nil : s ≠ []) (unquoted : ∀ c ∈ s, isQuote c = false)
      (next : ∀ d ∈ cs.head?, d.isCode = false) : Leads (code s) cs
  | literal {q : Char} {body : Text} {cs : List Chunk} (quote : isQuote q = true) (free : [q] ∉ (steps body).dropLast)
      (closed : cs ≠ [] → (steps body).getLast? = some [q]) : Leads (literal (q :: body)) cs

theorem lexes_nil : Lexes [] [] := ⟨rfl, by simp, by simp, .nil, by simp, by simp⟩

theorem mem_dropLast_cons {c d : Chunk} {cs : List Chunk} :
    d ∈ (c :: cs).dropLast ↔ cs ≠ [] ∧ (d = c ∨ d ∈ cs.dropLast) := by
  cases cs with
  | nil => simp
  | cons e cs => rw [List.dropLast_cons_of_ne_nil (List.cons_ne_nil e cs)]; simp

theorem Lexes.leads {c : Chunk} {cs : List Chunk} {t : Text} (h : Lexes (c :: cs) t) : Leads c cs := by
  cases c with
  | code s =>
    refine .code (h.nonempty _ List.mem_cons_self) (h.unquoted s List.mem_cons_self) (fun d hd => ?_)
    simpa [isCode] using (List.isChain_cons.1 h.apart).1 d hd
  | literal s =>
    obtain ⟨q, body, rfl, hq, hfree⟩ := h.quoted s List.mem_cons_self
    refine .literal hq hfree (fun hne => ?_)
    obtain ⟨q', body', hs, hlast⟩ := h.closed _ (mem_dropLast_cons.2 ⟨hne, Or.inl rfl⟩)
    obtain ⟨rfl, rfl⟩ := List.cons.inj hs
    exact hlast

theorem Lexes.tail {c : Chunk} {cs : List Chunk} {t : Text} (h : Lexes (c :: cs) t) : Lexes cs (cs.flatMap text) where
  joined := rfl
  nonempty d hd := h.nonempty d (List.mem_cons_of_mem c hd)
  unquoted s hs := h.unquoted s (List.mem_cons_of_mem c hs)
  apart := (List.isChain_cons.1 h.apart).2
  quoted s hs := h.quoted s (List.mem_cons_of_mem c hs)
  closed s hs := h.closed s (mem_dropLast_cons.2 ⟨List.ne_nil_of_mem (List.dropLast_subset cs hs), Or.inr hs⟩)

theorem Lexes.cons {c : Chunk} {cs : List Chunk} {t : Text} (hc : Leads c cs) (h : Lexes cs t) :
    Lexes (c :: cs) (c.text ++ t) where
  joined := by rw [List.flatMap_cons, h.joined]
  nonempty d hd := by
    rcases List.mem_cons.1 hd with rfl | hd
    · cases hc with
      | code hne _ _ => exact hne
      | literal _ _ _ => exact List.cons_ne_nil _ _
    · exact h.nonempty d hd
  unquoted s hs := by
    rcases List.mem_cons.1 hs with rfl | hs
    · cases hc with
      | code _ hunquoted _ => exact hunquoted
    · exact h.unquoted s hs
  apart := by
    refine List.isChain_cons.2 ⟨fun d hd => ?_, h.apart⟩
    cases hc with
    | code _ _ hnext => simp [hnext d hd]
    | literal _ _ _ => simp [isCode]
  quoted s hs := by
    rcases List.mem_cons.1 hs with rfl | hs
    · cases hc with
      | literal hq hfree _ => exact ⟨_, _, rfl, hq, hfree⟩
    · exact h.quoted s hs
  closed s hs := by
    obtain ⟨hne, rfl | hs⟩ := mem_dropLast_cons.1 hs
    · cases hc with
      | literal _ _ hclosed => exact ⟨_, _, rfl, hclosed hne⟩
    · exact h.closed s hs

/-- The first chunk of a text is no code if the text begins with a quote, or is empty. -/
theorem head?_split_iff (t : Text) :
    (∀ d ∈ (split t).head?, d.isCode = false) ↔ ∀ q ∈ t.head?, isQuote q = true := by
  induction t using split_induct with
  | nil => simp
  | code s t hne hs ht _ =>
    obtain ⟨c, s, rfl⟩ := List.exists_cons_of_ne_nil hne
    rw [split_code hne hs ht]
    simp [isCode, hs c List.mem_cons_self]
  | literal q body t hq hb _ =>
    rw [split_literal hq hb]
    simp [isCode, hq]
  | unclosed q body hq hb =>
    rw [split_unclosed hq hb]
    simp [isCode, hq]

theorem lexes_split (t : Text) : Lexes (split t) t := by
  induction t using split_induct with
  | nil => exact lexes_nil
  | code s t hne hs ht ih =>
    rw [split_code hne hs ht]
    exact ih.cons (.code hne hs ((head?_split_iff t).2 ht))
  | literal q body t hq hb ih =>
    obtain ⟨hfree, hlast⟩ := (afterQuote?_eq_nil_iff (ne_backslash_of_isQuote hq) body).1 hb
    rw [split_literal hq hb]
    exact ih.cons (.literal hq hfree (fun _ => hlast))
  | unclosed q body hq hb =>
    have hfree := (afterQuote?_eq_none_iff (ne_backslash_of_isQuote hq) body).1 hb
    have hlexes := lexes_nil.cons (.literal hq (fun h => hfree (List.dropLast_subset _ h)) (by simp))
    rw [split_unclosed hq hb]
    rwa [List.append_nil] at hlexes

/-- A chunk that may lead the chunks of a text is the first chunk of the text with it in front. -/
theorem split_of_leads {c : Chunk} {t : Text} (h : Leads c (split t)) : split (c.text ++ t) = c :: split t := by
  cases h with
  | code hne hs hnext => exact split_code hne hs ((head?_split_iff t).1 hnext)
  | @literal q body _ hq hfree hclosed =>
    have hb := ne_backslash_of_isQuote hq
    by_cases ht : split t = []
    · -- nothing follows: the literal may be closed or not
      obtain rfl : t = [] := by rw [← (lexes_split t).joined, ht, List.flatMap_nil]
      rcases afterQuote?_of_not_mem hb hfree with hnone | hnil
      · rw [List.append_nil]
        exact split_unclosed hq hnone
      · exact split_literal hq hnil []
    · exact split_literal hq ((afterQuote?_eq_nil_iff hb body).2 ⟨hfree, hclosed ht⟩) t

/-- **Cutting Perl text is exact**: its chunks are code and literals as they have to be, and there is no other way to cut it. -/
theorem lexes_iff (cs : List Chunk) (t : Text) : Lexes cs t ↔ cs = split t := by
  constructor
  · intro h
    induction cs generalizing t with
    | nil => rw [← h.joined]; rfl
    | cons c cs ih =>
      have hrest := ih _ h.tail
      have hlead := h.leads
      rw [hrest] at hlead
      rw [← h.joined, List.flatMap_cons, split_of_leads hlead, ← hrest]
  · rintro rfl
    exact lexes_split t

end EpFormat.Perl.Chunk
