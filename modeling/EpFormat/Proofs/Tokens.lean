import EpFormat.Proofs.Words
/-!
# Tokens — Perl code word by word

The tokens of code are its words, and on its own every other character that is no white space.  A text cut where no word
is parted has the tokens of its pieces (`tokens_append`), so that a gap may be widened or narrowed as long as it does not come
or go within a word.  Eight of the ten rules of spacing do no more than that (`Rule.KeepsTokens`).
-/
namespace EpFormat

/-- The words of a text, and on its own every other character that is no white space. -/
def tokens : Text → List Text
  | [] => []
  | c :: t =>
    if isBlank c then tokens t
    else if isWord c && startsWord t then (tokens t).modifyHead (c :: ·)
    else [c] :: tokens t

variable {s t u v w : Text}

theorem tokens_blank {c : Char} (hc : isBlank c = true) (t : Text) : tokens (c :: t) = tokens t := by
  rw [tokens, if_pos hc]

theorem tokens_single {c : Char} (hb : isBlank c = false) (h : isWord c = false ∨ startsWord t = false) :
    tokens (c :: t) = [c] :: tokens t := by
  rw [tokens, if_neg (by simp [hb]), if_neg (by simpa using fun hw => h.resolve_left (by simp [hw]))]

theorem tokens_glued {c : Char} (hc : isWord c = true) (ht : startsWord t = true) :
    tokens (c :: t) = (tokens t).modifyHead (c :: ·) := by
  rw [tokens, if_neg (by simp [isBlank_of_isWord hc]), if_pos (by simp [hc, ht])]

theorem tokens_word : ∀ {w : Text}, w ≠ [] → (∀ c ∈ w, isWord c = true) → startsWord t = false →
    tokens (w ++ t) = w :: tokens t
  | [], hne, _, _ => absurd rfl hne
  | [c], _, hw, ht => tokens_single (isBlank_of_isWord (hw c List.mem_cons_self)) (Or.inr ht)
  | c :: d :: w, _, hw, ht => by
    have hrest := tokens_word (w := d :: w) (by simp) (fun e he => hw e (List.mem_cons_of_mem c he)) ht
    have hnext : startsWord (d :: w ++ t) = true := hw d (by simp)
    rw [List.cons_append, tokens_glued (hw c List.mem_cons_self) hnext, hrest]
    rfl

theorem tokens_ne_nil : ∀ {t : Text}, startsWord t = true → tokens t ≠ []
  | [], h => by cases h
  | c :: t, h => by
    cases ht : startsWord t with
    | false =>
      rw [tokens_single (isBlank_of_isWord h) (Or.inr ht)]
      exact List.cons_ne_nil _ _
    | true =>
      obtain ⟨w, ws, hws⟩ := List.exists_cons_of_ne_nil (tokens_ne_nil ht)
      rw [tokens_glued h ht, hws]
      exact List.cons_ne_nil _ _

/-! ## Texts side by side -/

/-- No word goes on from the one text into the other. -/
def Parted (s t : Text) : Prop := s.getLast?.any isWord = false ∨ startsWord t = false

/-- **Texts side by side have the tokens of both.** -/
theorem tokens_append : ∀ {s : Text}, Parted s t → tokens (s ++ t) = tokens s ++ tokens t
  | [], _ => rfl
  | [c], h => by
    cases hb : isBlank c with
    | true => rw [List.singleton_append, tokens_blank hb, tokens_blank hb]; rfl
    | false =>
      rw [List.singleton_append, tokens_single hb h, tokens_single hb (Or.inr rfl)]
      rfl
  | c :: d :: s, h => by
    have hrest : tokens (d :: (s ++ t)) = tokens (d :: s) ++ tokens t :=
      tokens_append (s := d :: s) (by rwa [Parted, List.getLast?_cons_cons] at h)
    rw [List.cons_append, List.cons_append]
    cases hb : isBlank c with
    | true => rw [tokens_blank hb, tokens_blank hb, hrest]
    | false =>
      by_cases hglued : isWord c = true ∧ isWord d = true
      · obtain ⟨x, xs, hxs⟩ := List.exists_cons_of_ne_nil (tokens_ne_nil (t := d :: s) hglued.2)
        rw [tokens_glued hglued.1 (t := d :: (s ++ t)) hglued.2, tokens_glued hglued.1 (t := d :: s) hglued.2, hrest, hxs]
        rfl
      · have hsingle : ∀ r : Text, isWord c = false ∨ startsWord (d :: r) = false := by
          intro r
          by_cases hc : isWord c = true
          · exact Or.inr (Bool.eq_false_iff.2 (fun hd => hglued ⟨hc, hd⟩))
          · exact Or.inl (Bool.eq_false_iff.2 hc)
        rw [tokens_single hb (hsingle _), tokens_single hb (hsingle _), hrest]
        rfl

theorem startsWord_blank_append {g : Text} (hg : allBlank g = true) (h : g ≠ [] ∨ startsWord v = false) :
    startsWord (g ++ v) = false := by
  cases g with
  | nil => exact h.resolve_left (fun hne => hne rfl)
  | cons c g => exact isWord_of_isBlank (allBlank_iff.1 hg c List.mem_cons_self)

theorem tokens_blank_append : ∀ {g : Text}, allBlank g = true → ∀ t, tokens (g ++ t) = tokens t
  | [], _, _ => rfl
  | c :: g, hg, t => by
    rw [allBlank_cons, Bool.and_eq_true] at hg
    rw [List.cons_append, tokens_blank hg.1, tokens_blank_append hg.2]

/-- A gap is in no token. -/
theorem tokens_gap {g : Text} (hg : allBlank g = true) (h : Parted u (g ++ v)) :
    tokens (u ++ (g ++ v)) = tokens u ++ tokens v := by
  rw [tokens_append h, tokens_blank_append hg]

theorem tokens_space (u v : Text) : tokens (u ++ ' ' :: v) = tokens u ++ tokens v :=
  tokens_gap (g := [' ']) rfl (Or.inr (by decide : isWord ' ' = false))

/-! ## Tokens and words -/

/-- What a text begins with: nothing, white space, a character that is in no word, or a whole word. -/
theorem token_cases (t : Text) : t = [] ∨ (∃ c r, t = c :: r ∧ isBlank c = true) ∨
    (∃ c r, t = c :: r ∧ isBlank c = false ∧ isWord c = false) ∨
    ∃ w r, t = w ++ r ∧ w ≠ [] ∧ (∀ c ∈ w, isWord c = true) ∧ startsWord r = false := by
  cases t with
  | nil => exact Or.inl rfl
  | cons c t =>
    cases hb : isBlank c with
    | true => exact Or.inr (Or.inl ⟨c, t, rfl, hb⟩)
    | false =>
      cases hw : isWord c with
      | false => exact Or.inr (Or.inr (Or.inl ⟨c, t, rfl, hb, hw⟩))
      | true =>
        have hrest : startsWord (t.dropWhile isWord) = false := by
          have := List.head?_dropWhile_not isWord t
          cases hd : t.dropWhile isWord with
          | nil => rfl
          | cons d r => rw [hd] at this; exact this
        refine Or.inr (Or.inr (Or.inr ⟨c :: t.takeWhile isWord, t.dropWhile isWord, ?_, by simp, fun d hd => ?_, hrest⟩))
        · rw [List.cons_append, List.takeWhile_append_dropWhile]
        · rcases List.mem_cons.1 hd with rfl | hd
          · exact hw
          · exact List.all_eq_true.1 List.all_takeWhile d hd

/-- **Induction through a text token by token.** -/
theorem token_induct {motive : Text → Prop} (nil : motive []) (blank : ∀ c t, isBlank c = true → motive t → motive (c :: t))
    (mark : ∀ c t, isBlank c = false → isWord c = false → motive t → motive (c :: t))
    (word : ∀ w t, w ≠ [] → (∀ c ∈ w, isWord c = true) → startsWord t = false → motive t → motive (w ++ t)) (t : Text) :
    motive t := by
  rcases token_cases t with rfl | ⟨c, r, rfl, hb⟩ | ⟨c, r, rfl, hb, hw⟩ | ⟨w, r, rfl, hne, hw, hr⟩
  · exact nil
  · exact blank c r hb (token_induct nil blank mark word r)
  · exact mark c r hb hw (token_induct nil blank mark word r)
  · have hlen : 0 < w.length := List.length_pos_iff.2 hne
    exact word w r hne hw hr (token_induct nil blank mark word r)
termination_by t.length
decreasing_by
  all_goals
    subst_vars
    simp only [List.length_cons, List.length_append]
    omega

theorem words_word (hne : w ≠ []) (hw : ∀ c ∈ w, isWord c = true) (ht : startsWord t = false) :
    words (w ++ t) = w :: words t := by
  have hself : words w = [w] := by
    have : w.splitOnP (fun c => !isWord c) = [w] := List.splitOnP_eq_singleton (fun c hc => by simp [hw c hc])
    rw [words, this]
    simp [hne]
  cases t with
  | nil => rw [List.append_nil, hself]; rfl
  | cons c t => rw [words_append_cons ht, words_cons ht, hself]; rfl

/-- **The words are the tokens that are words.** -/
theorem words_eq (t : Text) : words t = (tokens t).filter startsWord := by
  induction t using token_induct with
  | nil => rfl
  | blank c t hc ih => rw [words_cons (isWord_of_isBlank hc), tokens_blank hc, ih]
  | mark c t hb hw ih =>
    rw [words_cons hw, tokens_single hb (Or.inl hw), List.filter_cons_of_neg (by simp [startsWord, hw]), ih]
  | word w t hne hw ht ih =>
    obtain ⟨c, w, rfl⟩ := List.exists_cons_of_ne_nil hne
    have hstart : startsWord (c :: w) = true := hw c List.mem_cons_self
    rw [words_word hne hw ht, tokens_word hne hw ht, List.filter_cons_of_pos hstart, ih]

namespace Perl.Rule

/-! ## A text as a rule writes it -/

/-- The text from a place on as the rule writes it; `prev` is the character before the place. -/
def write (rule : Rule) (prev : Option Char) (t : Text) : Text := (scanFrom rule prev t).flatMap (Piece.put id)

theorem substitute_eq_write (rule : Rule) (t : Text) : substitute rule id t = rule.write none t := rfl

variable {rule : Rule} {prev : Option Char} {x : Char} {rest a : Text} {n : Nat}

theorem write_hit (h : rule prev (x :: rest) = some (a, n)) :
    rule.write prev (x :: rest) = a ++ rule.write (taken n (x :: rest)).getLast? (beyond n (x :: rest)) := by
  rw [write, scanFrom_hit h, List.flatMap_cons]
  rfl

theorem write_item (h : rule prev (x :: rest) = none) : rule.write prev (x :: rest) = x :: rule.write (some x) rest := by
  rw [write, scanFrom_item h, List.flatMap_cons]
  rfl

/-- A find that takes the text `s` is replaced, and the rule goes on after it. -/
theorem write_find {s t : Text} (hs : s ≠ []) (h : rule prev (s ++ t) = some (a, s.length)) :
    rule.write prev (s ++ t) = a ++ rule.write s.getLast? t := by
  obtain ⟨x, s, rfl⟩ := List.exists_cons_of_ne_nil hs
  rw [List.cons_append] at h
  have hhit := write_hit h
  rwa [← List.cons_append, taken_append hs, beyond_append hs] at hhit

/-- What the rule writes in the place of a find has the tokens of the find, whatever stands before it. -/
def KeepsTokens (rule : Rule) : Prop :=
  ∀ prev x rest a n, rule prev (x :: rest) = some (a, n) → ∀ p : Text,
    tokens (p ++ (a ++ beyond n (x :: rest))) = tokens (p ++ (x :: rest))

theorem tokens_write (h : rule.KeepsTokens) (prev : Option Char) (t : Text) :
    ∀ p : Text, tokens (p ++ rule.write prev t) = tokens (p ++ t) := by
  induction prev, t using scanFrom_induct rule with
  | nil prev => exact fun p => rfl
  | hit prev x rest a n hf ih =>
    intro p
    rw [write_hit hf, ← List.append_assoc, ih (p ++ a), List.append_assoc, h prev x rest a n hf p]
  | item prev x rest hf ih =>
    intro p
    rw [write_item hf, List.append_cons, ih (p ++ [x]), ← List.append_cons]

/-! ## The rules that keep the tokens -/

theorem keepsTokens_spaced {words : List Text} {next : Text → Option (Text × Nat)} (hw : ∀ w ∈ words, w ≠ [])
    (hn : Shows next) (hstop : ∀ t found, next t = some found → startsWord t = false) : KeepsTokens (spaced words next) := by
  intro prev x rest a n h p
  obtain ⟨word, hword, gap, shown, after, hgap, ht, hnext, rfl, rfl⟩ := spaced_eq_some hn h
  have hparted : Parted (p ++ word) (gap ++ (shown ++ after)) :=
    Or.inr (startsWord_blank_append hgap (Or.inr (hstop _ _ hnext)))
  rw [ht, beyond_append (by simp [hw word hword])]
  calc tokens (p ++ (word ++ ' ' :: shown ++ after))
      = tokens (p ++ word ++ ' ' :: (shown ++ after)) := by simp
    _ = tokens (p ++ word) ++ tokens (shown ++ after) := tokens_space _ _
    _ = tokens (p ++ word ++ (gap ++ (shown ++ after))) := (tokens_gap hgap hparted).symm
    _ = tokens (p ++ (word ++ (gap ++ shown) ++ after)) := by simp

theorem stops_exactly {c : Char} (hc : isWord c = false) (t : Text) (found : Text × Nat) (h : exactly c t = some found) :
    startsWord t = false := by
  obtain ⟨-, after, rfl⟩ := exactly_eq_some h
  exact hc

theorem stops_ahead {p : Char → Bool} (hp : ∀ c, p c = true → isWord c = false) (t : Text) (found : Text × Nat)
    (h : ahead p t = some found) : startsWord t = false := by
  obtain ⟨-, c, after, rfl, hc⟩ := ahead_eq_some h
  exact hp c hc

theorem isWord_of_isSigil {c : Char} (h : isSigil c = true) : isWord c = false := by
  simp only [isSigil, Bool.or_eq_true, decide_eq_true_eq] at h
  rcases h with (((((rfl | rfl) | rfl) | rfl) | rfl) | rfl) | rfl <;> decide

theorem keepsTokens_subNamedBrace : KeepsTokens subNamedBrace := by
  intro prev x rest a n h p
  obtain ⟨gap, name, gap', after, hne, hgap, hgap', ht, rfl, rfl⟩ := subNamedBrace_eq_some h
  have hbrace : startsWord ('\x7b' :: after) = false := (by decide : isWord '\x7b' = false)
  have hparted : ∀ v, Parted (p ++ txt "sub") (gap ++ v) := fun v => Or.inr (startsWord_blank_append hgap (Or.inl hne))
  have hparted' : Parted name (gap' ++ '\x7b' :: after) := Or.inr (startsWord_blank_append hgap' (Or.inr hbrace))
  rw [ht, beyond_append (by simp [txt])]
  calc tokens (p ++ (txt "sub " ++ name ++ [' ', '\x7b'] ++ after))
      = tokens (p ++ txt "sub" ++ ' ' :: (name ++ ' ' :: '\x7b' :: after)) := by simp [txt]
    _ = tokens (p ++ txt "sub") ++ (tokens name ++ tokens ('\x7b' :: after)) := by rw [tokens_space, tokens_space]
    _ = tokens (p ++ txt "sub" ++ (gap ++ (name ++ (gap' ++ '\x7b' :: after)))) := by
      rw [tokens_gap hgap (hparted _), tokens_gap hgap' hparted']
    _ = tokens (p ++ (txt "sub" ++ (gap ++ (name ++ (gap' ++ ['\x7b']))) ++ after)) := by simp

/-- A gap after a character that is in no word may be made a space. -/
theorem tokens_after_mark {c : Char} (hc : isWord c = false) {gap : Text} (hgap : allBlank gap = true) (p after : Text) :
    tokens (p ++ c :: ' ' :: after) = tokens (p ++ c :: (gap ++ after)) := by
  have hparted : Parted (p ++ [c]) (gap ++ after) := Or.inl (by simp [hc])
  rw [List.append_cons p c, List.append_cons p c (gap ++ after), tokens_space, tokens_gap hgap hparted]

theorem keepsTokens_braceKeyword : KeepsTokens braceKeyword := by
  intro prev x rest a n h p
  obtain ⟨gap, after, hgap, ht, rfl, rfl⟩ := braceKeyword_eq_some h
  rw [ht, beyond_append (by simp)]
  exact tokens_after_mark (by decide) hgap p after

theorem keepsTokens_parenBrace : KeepsTokens parenBrace := by
  intro prev x rest a n h p
  obtain ⟨gap, after, hgap, ht, rfl, rfl⟩ := parenBrace_eq_some h
  rw [ht, beyond_append (by simp)]
  have hgaps := tokens_after_mark (c := ')') (by decide) hgap p ('\x7b' :: after)
  simpa using hgaps

end Perl.Rule
end EpFormat
