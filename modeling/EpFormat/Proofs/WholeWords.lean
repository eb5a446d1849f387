import EpFormat.Proofs.Keyword
import Mathlib.Data.List.Chain
/-!
# WholeWords — when keyword spacing keeps every word

Perl text is spaced chunk by chunk.  Chunks meet at a quote, so no word reaches over a seam and the tokens of a text are
the tokens of its chunks (`Chunk.tokens_flatMap`).  Within a chunk only words of the code are cut, and a cut makes more
words (`Refines`): words are kept exactly where nothing is cut (`words_kept_iff`).
-/
namespace EpFormat.Perl

/-! ## Seams -/

namespace Chunk

/-- A literal that begins with its quote. -/
def opens : Chunk → Bool
  | code _ => false
  | literal t => t.head?.any isQuote

/-- A literal that ends with a quote. -/
def closes : Chunk → Bool
  | code _ => false
  | literal t => t.getLast?.any isQuote

/-- Two chunks with a quote where they meet. -/
def Apart (a b : Chunk) : Prop := a.closes = true ∨ b.opens = true

theorem isWord_of_isQuote {c : Char} (h : isQuote c = true) : isWord c = false := by
  rcases eq_of_isQuote h with rfl | rfl <;> rfl

/-- What the loop of the cutting keeps: in code the latest chunk is a closed literal, in a literal the stretch begins
with a quote. -/
def Ready (done : List Chunk) (buf : Text) : Option Char → Prop
  | none => ∀ a ∈ done.head?, a.closes = true
  | some q => isQuote q = true ∧ buf.getLast?.any isQuote = true

theorem isChain_flush {done : List Chunk} {mk : Text → Chunk} {buf : Text} (hdone : done.IsChain (fun b a => Apart a b))
    (hnext : ∀ a ∈ done.head?, Apart a (mk buf.reverse)) : (flush done mk buf).IsChain (fun b a => Apart a b) := by
  unfold flush
  split
  · exact hdone
  · exact List.isChain_cons.2 ⟨hnext, hdone⟩

theorem opens_literal {buf : Text} (h : buf.getLast?.any isQuote = true) : (literal buf.reverse).opens = true := by
  rw [opens, List.head?_reverse, h]

theorem quoted_cons {buf : Text} (h : buf.getLast?.any isQuote = true) (c : Char) :
    (c :: buf).getLast?.any isQuote = true := by
  cases buf with
  | nil => cases h
  | cons d buf => rwa [List.getLast?_cons_cons]

theorem isChain_splitAux (done : List Chunk) (buf : Text) (quote : Option Char) (t : Text)
    (hdone : done.IsChain (fun b a => Apart a b)) (hready : Ready done buf quote) :
    (splitAux done buf quote t).IsChain Apart := by
  fun_induction splitAux done buf quote t with
  | case1 done buf => exact List.isChain_reverse.2 (isChain_flush hdone (fun a ha => Or.inl (hready a ha)))
  | case2 done buf q => exact List.isChain_reverse.2 (isChain_flush hdone (fun _ _ => Or.inr (opens_literal hready.2)))
  | case3 done buf c rest hc ih =>
    exact ih (isChain_flush hdone (fun a ha => Or.inl (hready a ha))) ⟨hc, hc⟩
  | case4 done buf c rest hc ih => exact ih hdone hready
  | case5 done buf q c rest ih => exact ih hdone ⟨hready.1, quoted_cons (quoted_cons hready.2 _) c⟩
  -- the literal that is closed here begins and ends with a quote: it is apart from both its neighbours
  | case6 done buf q rest _ ih =>
    have hopens := opens_literal (quoted_cons hready.2 q)
    have hcloses : (literal (q :: buf).reverse).closes = true := by
      rw [closes, List.getLast?_reverse, List.head?_cons, Option.any_some, hready.1]
    refine ih (List.isChain_cons.2 ⟨fun _ _ => Or.inr hopens, hdone⟩) (fun a ha => ?_)
    rw [List.head?_cons, Option.mem_some] at ha
    rw [← ha, hcloses]
  | case7 done buf q c rest _ hc ih => exact ih hdone ⟨hready.1, quoted_cons hready.2 c⟩

theorem parted_of_closes {a : Chunk} {g : Chunk → Text} (hg : ∀ t, g (literal t) = t) (h : a.closes = true) (t : Text) :
    Parted (g a) t := by
  cases a with
  | code s => cases h
  | literal s =>
    obtain ⟨q, hlast, hq⟩ := Option.any_eq_true _ _ |>.1 h
    left
    rw [hg, hlast, Option.any_some, isWord_of_isQuote hq]

theorem parted_of_opens {b : Chunk} {g : Chunk → Text} (hg : ∀ t, g (literal t) = t) (h : b.opens = true) (s t : Text) :
    Parted s (g b ++ t) := by
  cases b with
  | code u => cases h
  | literal u =>
    cases u with
    | nil => cases h
    | cons q u =>
      right
      rw [hg]
      exact isWord_of_isQuote h

theorem isChain_split (t : Text) : (split t).IsChain Apart :=
  isChain_splitAux [] [] none t List.isChain_nil (fun a ha => by cases ha)

/-- **No token reaches over a seam**, whatever is done to the code between the literals. -/
theorem tokens_flatMap {g : Chunk → Text} (hg : ∀ t, g (literal t) = t) : ∀ {cs : List Chunk}, cs.IsChain Apart →
    tokens (cs.flatMap g) = cs.flatMap (fun c => tokens (g c))
  | [], _ => rfl
  | [a], _ => by simp
  | a :: b :: cs, h => by
    obtain ⟨hseam, hrest⟩ := List.isChain_cons_cons.1 h
    have hparted : Parted (g a) ((b :: cs).flatMap g) :=
      hseam.elim (fun ha => parted_of_closes hg ha _) (fun hb => parted_of_opens hg hb (g a) (cs.flatMap g))
    rw [List.flatMap_cons, tokens_append hparted, tokens_flatMap hg hrest]
    rfl

end Chunk

/-- The code of a chunk: what stands before its comment. -/
def Chunk.code? : Chunk → Option Text
  | code t => some (splitComment t).1
  | literal _ => none

theorem startsWord_comment (t : Text) : startsWord ((splitComment t).2.getD []) = false := by
  have hhead := List.head?_dropWhile_not (fun c => c != '#') t
  unfold splitComment
  cases hcomment : t.dropWhile (fun c => c != '#') with
  | nil => rfl
  | cons c comment =>
    rw [hcomment] at hhead
    obtain rfl : c = '#' := by simpa using hhead
    rfl

/-- No token reaches into the comment. -/
theorem tokens_comment (s t : Text) :
    tokens (s ++ (splitComment t).2.getD []) = tokens s ++ tokens ((splitComment t).2.getD []) :=
  tokens_append (Or.inr (startsWord_comment t))

theorem tokens_code (t : Text) : tokens t = tokens (splitComment t).1 ++ tokens ((splitComment t).2.getD []) := by
  rw [← tokens_comment, splitComment_append]

theorem tokens_spaceChunk (t : Text) :
    tokens (spaceChunk (.code t)) = tokens (spaceCode (splitComment t).1) ++ tokens ((splitComment t).2.getD []) :=
  tokens_comment _ t

/-! ## Cutting makes words -/

/-- Tokens `us` that come of cutting words of `ts`: no fewer words, and as many only if nothing is cut. -/
structure Refines (ts us : List Text) : Prop where
  le : (ts.filter startsWord).length ≤ (us.filter startsWord).length
  eq : (us.filter startsWord).length = (ts.filter startsWord).length → us = ts

namespace Refines

variable {ts us vs ts' us' : List Text}

theorem refl (ts : List Text) : Refines ts ts := ⟨Nat.le_refl _, fun _ => rfl⟩

theorem trans (h : Refines ts us) (h' : Refines us vs) : Refines ts vs := by
  have hle := h.le
  have hle' := h'.le
  refine ⟨Nat.le_trans hle hle', fun heq => ?_⟩
  rw [h'.eq (by omega), h.eq (by omega)]

theorem append (h : Refines ts us) (h' : Refines ts' us') : Refines (ts ++ ts') (us ++ us') := by
  have hle := h.le
  have hle' := h'.le
  refine ⟨by simp only [List.filter_append, List.length_append]; omega, fun heq => ?_⟩
  simp only [List.filter_append, List.length_append] at heq
  rw [h.eq (by omega), h'.eq (by omega)]

/-- A word cut in two. -/
theorem cut {w k v : Text} (hk : startsWord k = true) (hv : startsWord v = true) : Refines [w] [k, v] := by
  have hle : ([w].filter startsWord).length ≤ 1 := List.length_filter_le _ _
  have htwo : ([k, v].filter startsWord).length = 2 := by simp [hk, hv]
  exact ⟨by omega, fun heq => by omega⟩

theorem eq_of_trans (h : Refines ts us) (h' : Refines us vs) (heq : vs = ts) : us = ts := by
  have hle := h.le
  have hle' := h'.le
  rw [heq] at hle'
  exact h.eq (by omega)

theorem eq_of_append (h : Refines ts us) (h' : Refines ts' us') (heq : us ++ us' = ts ++ ts') : us = ts ∧ us' = ts' := by
  have hle := h.le
  have hle' := h'.le
  have hlen := congrArg (fun l => (l.filter startsWord).length) heq
  simp only [List.filter_append, List.length_append] at hlen
  exact ⟨h.eq (by omega), h'.eq (by omega)⟩

theorem flatMap {α : Type} {f g : α → List Text} : ∀ {l : List α}, (∀ a ∈ l, Refines (f a) (g a)) →
    Refines (l.flatMap f) (l.flatMap g)
  | [], _ => refl []
  | a :: _, h => (h a List.mem_cons_self).append (flatMap (fun b hb => h b (List.mem_cons_of_mem a hb)))

theorem eq_of_flatMap {α : Type} {f g : α → List Text} : ∀ {l : List α}, (∀ a ∈ l, Refines (f a) (g a)) →
    l.flatMap g = l.flatMap f → ∀ a ∈ l, g a = f a
  | [], _, _ => fun a ha => absurd ha List.not_mem_nil
  | a :: l, h, heq => by
    have hrest : ∀ b ∈ l, Refines (f b) (g b) := fun b hb => h b (List.mem_cons_of_mem a hb)
    obtain ⟨ha, hl⟩ := eq_of_append (h a List.mem_cons_self) (flatMap hrest) heq
    intro b hb
    rcases List.mem_cons.1 hb with rfl | hb
    · exact ha
    · exact eq_of_flatMap hrest hl b hb

end Refines

/-- The tokens but for those that are taken as the name after a `sub` of its own. -/
def unnamed : List Text → List Text
  | [] => []
  | [w] => [w]
  | w :: name :: ts => if w = txt "sub" ∧ isName name then w :: unnamed ts else w :: unnamed (name :: ts)

theorem refines_cutSub (w : Text) : Refines [w] (cutSub w) := by
  unfold cutSub
  split
  · rename_i name hafter
    split
    · rename_i hname
      exact .cut rfl (Rule.startsWord_of_isName hname)
    · exact .refl _
  · exact .refl _

theorem refines_cutSubs (ts : List Text) : Refines ts (cutSubs ts) := by
  fun_induction cutSubs ts with
  | case1 => exact .refl []
  | case2 w => exact refines_cutSub w
  | case3 w name ts h ih => exact (Refines.refl [w, name]).append ih
  | case4 w name ts h ih => exact (refines_cutSub w).append ih

/-- **Exactly the tokens that are not taken as names are cut.** -/
theorem cutSubs_eq_iff (ts : List Text) : cutSubs ts = ts ↔ ∀ w ∈ unnamed ts, cutSub w = [w] := by
  fun_induction cutSubs ts with
  | case1 => simp [unnamed]
  | case2 w => simp [unnamed]
  | case3 w name ts h ih =>
    rw [unnamed, if_pos h, List.forall_mem_cons, ← ih, h.1]
    simp only [List.cons.injEq, true_and]
    exact ⟨fun hts => ⟨rfl, hts⟩, fun hts => hts.2⟩
  | case4 w name ts h ih =>
    rw [unnamed, if_neg h, List.forall_mem_cons, ← ih]
    constructor
    · exact (refines_cutSub w).eq_of_append (refines_cutSubs _)
    · rintro ⟨hw, hts⟩
      rw [hw, hts]
      rfl

theorem isWord_of_mem_tokens (t : Text) : ∀ w ∈ tokens t, startsWord w = true → ∀ c ∈ w, isWord c = true := by
  induction t using token_induct with
  | nil => exact fun w hw => absurd hw List.not_mem_nil
  | blank c t hb ih => rwa [tokens_blank hb]
  | mark c t hb hw ih =>
    rw [tokens_single hb (Or.inl hw), List.forall_mem_cons]
    refine ⟨fun hstart => ?_, ih⟩
    rw [show startsWord [c] = isWord c from rfl, hw] at hstart
    cases hstart
  | word w t hne hw ht ih =>
    rw [tokens_word hne hw ht, List.forall_mem_cons]
    exact ⟨fun _ => hw, ih⟩

theorem startsWord_of_keyword {k w : Text} (hk : k ∈ Rule.callWords) (hp : k <+: w) : startsWord w = true := by
  obtain ⟨c, k', rfl⟩ := List.exists_cons_of_ne_nil (Rule.distinct_calls.ne_nil k hk)
  obtain ⟨v, rfl⟩ := hp
  exact Rule.distinct_calls.isWord _ hk c List.mem_cons_self

theorem refines_cutCall {w : Text} (hw : startsWord w = true → ∀ c ∈ w, isWord c = true) : Refines [w] (cutCall w) := by
  by_cases hcut : ∃ k ∈ Rule.callWords, k <+: w ∧ k ≠ w
  · obtain ⟨k, hk, ⟨v, rfl⟩, hne⟩ := hcut
    have hv : v ≠ [] := fun hnil => hne (by rw [hnil, List.append_nil])
    have hword := hw (startsWord_of_keyword hk (List.prefix_append k v))
    rw [Rule.cutCall_append hk hv]
    refine .cut (startsWord_of_keyword hk (List.prefix_refl k)) ?_
    obtain ⟨c, v, rfl⟩ := List.exists_cons_of_ne_nil hv
    exact hword c (List.mem_append_right k List.mem_cons_self)
  · rw [Rule.cutCall_of_whole]
    · exact .refl [w]
    · intro k hk hp
      by_contra hne
      exact hcut ⟨k, hk, hp, hne⟩

theorem cutCall_eq_iff {w : Text} : cutCall w = [w] ↔ ∀ k ∈ Rule.callWords, k <+: w → k = w := by
  refine ⟨fun h k hk hp => ?_, Rule.cutCall_of_whole⟩
  obtain ⟨v, rfl⟩ := hp
  by_cases hv : v = []
  · rw [hv, List.append_nil]
  · rw [Rule.cutCall_append hk hv] at h
    exact absurd (congrArg List.length h) (by simp)

theorem cutSub_eq_iff {w : Text} : cutSub w = [w] ↔ (Text.after? (txt "sub") w).any isName = false := by
  unfold cutSub
  cases Text.after? (txt "sub") w with
  | none => simp
  | some name => cases hname : isName name <;> simp [hname]

/-! ## Code that is kept -/

/-- Code of which no word is cut.  A word that begins with the keyword of a call is that keyword, and `sub` with a name
stuck to it is found only as the name of a subroutine. -/
structure Whole (code : Text) : Prop where
  calls : ∀ w ∈ words code, ∀ k ∈ Rule.callWords, k <+: w → k = w
  names : ∀ w ∈ unnamed (tokens code), (Text.after? (txt "sub") w).any isName = false

section

variable {ts : List Text} (h : ∀ w ∈ ts, startsWord w = true → ∀ c ∈ w, isWord c = true)
include h

theorem refines_calls : Refines ts (ts.flatMap cutCall) := by
  have hparts := Refines.flatMap (fun w hw => refines_cutCall (h w hw))
  rwa [List.flatMap_singleton'] at hparts

theorem flatMap_cutCall_eq_iff : ts.flatMap cutCall = ts ↔ ∀ w ∈ ts, cutCall w = [w] := by
  have hself : ts.flatMap (fun w => [w]) = ts := List.flatMap_singleton' ts
  constructor
  · intro heq
    exact Refines.eq_of_flatMap (fun w hw => refines_cutCall (h w hw)) (heq.trans hself.symm)
  · intro hall
    rw [List.flatMap_congr hall, hself]

end

/-- What the rule for names leaves are tokens of code again. -/
theorem isWord_of_mem_cutSubs (code : Text) :
    ∀ w ∈ cutSubs (tokens code), startsWord w = true → ∀ c ∈ w, isWord c = true := by
  rw [← Rule.cuts_subNamed code none (Or.inl rfl)]
  exact isWord_of_mem_tokens _

theorem refines_spaceCode (code : Text) : Refines (tokens code) (tokens (spaceCode code)) := by
  rw [tokens_spaceCode]
  exact (refines_cutSubs _).trans (refines_calls (isWord_of_mem_cutSubs code))

/-- Only words begin with the keyword of a call. -/
theorem cutCall_tokens_iff (code : Text) : (∀ w ∈ tokens code, cutCall w = [w]) ↔
    ∀ w ∈ words code, ∀ k ∈ Rule.callWords, k <+: w → k = w := by
  simp only [words_eq, List.mem_filter, cutCall_eq_iff]
  exact ⟨fun h w hw => h w hw.1, fun h w hw k hk hp => h w ⟨hw, startsWord_of_keyword hk hp⟩ k hk hp⟩

theorem tokens_spaceCode_eq_iff (code : Text) : tokens (spaceCode code) = tokens code ↔ Whole code := by
  have hcalls := flatMap_cutCall_eq_iff (isWord_of_mem_tokens code)
  rw [cutCall_tokens_iff] at hcalls
  have hnames := cutSubs_eq_iff (tokens code)
  simp only [cutSub_eq_iff] at hnames
  rw [tokens_spaceCode]
  constructor
  · intro heq
    -- a word cut by the first rule could only be made up for by joining, which the second does not do
    have hsubs := (refines_cutSubs (tokens code)).eq_of_trans (refines_calls (isWord_of_mem_cutSubs code)) heq
    rw [hsubs] at heq
    exact ⟨hcalls.1 heq, hnames.1 hsubs⟩
  · intro hwhole
    rw [hnames.2 hwhole.names, hcalls.2 hwhole.calls]

theorem refines_spaceChunk (c : Chunk) : Refines (tokens c.text) (tokens (spaceChunk c)) := by
  cases c with
  | literal t => exact .refl _
  | code t =>
    rw [tokens_spaceChunk, Chunk.text, tokens_code t]
    exact (refines_spaceCode _).append (.refl _)

/-- **Only the code of a chunk is cut.** -/
theorem tokens_spaceChunk_eq_iff (c : Chunk) : tokens (spaceChunk c) = tokens c.text ↔ ∀ code ∈ c.code?, Whole code := by
  cases c with
  | literal t => simp [Chunk.code?, spaceChunk, Chunk.text]
  | code t =>
    rw [tokens_spaceChunk, Chunk.text, tokens_code t, List.append_left_inj, tokens_spaceCode_eq_iff]
    simp [Chunk.code?]

/-! ## Texts -/

theorem tokens_chunks (t : Text) : tokens t = (Chunk.split t).flatMap (fun c => tokens c.text) := by
  rw [← Chunk.tokens_flatMap (fun _ => rfl) (Chunk.isChain_split t), Chunk.text_split]

theorem tokens_spaceKeywords (t : Text) :
    tokens (spaceKeywords t) = (Chunk.split t).flatMap (fun c => tokens (spaceChunk c)) :=
  Chunk.tokens_flatMap (fun _ => rfl) (Chunk.isChain_split t)

theorem refines_spaceKeywords (t : Text) : Refines (tokens t) (tokens (spaceKeywords t)) := by
  rw [tokens_spaceKeywords, tokens_chunks t]
  exact .flatMap (fun c _ => refines_spaceChunk c)

theorem tokens_spaceKeywords_eq_iff (t : Text) :
    tokens (spaceKeywords t) = tokens t ↔ ∀ c ∈ Chunk.split t, tokens (spaceChunk c) = tokens c.text := by
  rw [tokens_spaceKeywords, tokens_chunks t]
  constructor
  · exact Refines.eq_of_flatMap (fun c _ => refines_spaceChunk c)
  · exact List.flatMap_congr

/-- **Keyword spacing keeps the words of a text exactly if it finds no longer word at a keyword in its code**: what stands
in literals and in comments does not matter. -/
theorem words_kept_iff (enable : Bool) (t : Text) : words (spaceIf enable t) = words t ↔
    (enable = true → ∀ code ∈ (Chunk.split t).filterMap Chunk.code?, Whole code) := by
  cases enable with
  | false => simp [spaceIf]
  | true =>
    have hwords : words (spaceKeywords t) = words t ↔ tokens (spaceKeywords t) = tokens t := by
      rw [words_eq, words_eq]
      exact ⟨fun h => (refines_spaceKeywords t).eq (by rw [h]), fun h => by rw [h]⟩
    rw [spaceIf, if_pos rfl, hwords, tokens_spaceKeywords_eq_iff]
    simp only [tokens_spaceChunk_eq_iff, List.mem_filterMap]
    constructor
    · rintro h - code ⟨c, hc, hcode⟩
      exact h c hc code hcode
    · exact fun h c hc code hcode => h trivial code ⟨c, hc, hcode⟩

-- a name that begins with `sub` is kept where it is declared, and cut where it is called
example : spaceIf true (txt "sub subtotal") = txt "sub subtotal" ∧ spaceIf true (txt "subtotal") = txt "sub total" := by
  decide +kernel

/-- A longer word that begins with the keyword of a call is cut in two. -/
theorem printer_cut : words (spaceIf true (txt "printer")) = [txt "print", txt "er"] ∧
    words (txt "printer") = [txt "printer"] := by
  constructor <;> decide +kernel

end EpFormat.Perl
