import Mathlib
import EpFormat.Proofs.Tokens
/-!
# Keyword — words that keyword spacing cuts

Two of the rules find a keyword at the beginning of a word and do not look where the word ends: the one for the names of
subroutines, and the one for calls.  So they cut longer words that begin with a keyword, and nothing else is cut or
joined (`tokens_spaceCode`).
-/
namespace EpFormat.Perl

/-! ## Cuts -/

/-- Whether a text begins as a Perl name does. -/
def isName (t : Text) : Bool := t.head?.any Rule.isNameStart

/-- A word that is `sub` and a name is cut between the two. -/
def cutSub (w : Text) : List Text :=
  match Text.after? (txt "sub") w with
  | some name => if isName name then [txt "sub", name] else [w]
  | none => [w]

/-- Tokens with every such word cut, but for a word that is taken as the name after a `sub` of its own. -/
def cutSubs : List Text → List Text
  | [] => []
  | [w] => cutSub w
  | w :: name :: ts => if w = txt "sub" ∧ isName name then w :: name :: cutSubs ts else cutSub w ++ cutSubs (name :: ts)

/-- A word that begins with the keyword of a call and goes on is cut after it. -/
def cutCall (w : Text) : List Text :=
  match Rule.callWords.find? (fun k => k.isPrefixOf w && k != w) with
  | some k => [k, w.drop k.length]
  | none => [w]

theorem cutSubs_named {name : Text} (h : isName name = true) (ts : List Text) :
    cutSubs (txt "sub" :: name :: ts) = txt "sub" :: name :: cutSubs ts := by
  rw [cutSubs, if_pos ⟨rfl, h⟩]

theorem cutSubs_cons {w : Text} {ts : List Text} (h : w = txt "sub" → ts.head?.any isName = false) :
    cutSubs (w :: ts) = cutSub w ++ cutSubs ts := by
  cases ts with
  | nil => rw [cutSubs, cutSubs, List.append_nil]
  | cons name ts =>
    rw [cutSubs, if_neg]
    rintro ⟨hw, hname⟩
    have hnot := h hw
    simp only [List.head?_cons, Option.any_some, hname] at hnot
    cases hnot

theorem cutSub_single (c : Char) : cutSub [c] = [[c]] := by
  have hnone : Text.after? (txt "sub") [c] = none := by
    show (if 's' = c then none else none) = none
    split <;> rfl
  rw [cutSub, hnone]

namespace Rule

/-! ## Where a keyword is found -/

variable {words : List Text} {next : Text → Option (Text × Nat)} {prev : Option Char} {k w r t : Text}

/-- Keywords that are words, none of them the beginning of another. -/
structure Distinct (words : List Text) : Prop where
  ne_nil : ∀ k ∈ words, k ≠ []
  isWord : ∀ k ∈ words, ∀ c ∈ k, EpFormat.isWord c = true
  alone : ∀ k ∈ words, ∀ k' ∈ words, k' <+: k → k' = k

theorem distinct_sub : Distinct [txt "sub"] := by
  refine ⟨by decide, ?_, by decide⟩
  intro k hk
  rw [List.mem_singleton.1 hk]
  exact Text.forall_mem_of_all (by decide)

theorem distinct_calls : Distinct callWords := by
  have hwords : ∀ k ∈ callWords, k.all EpFormat.isWord = true := by decide
  exact ⟨by decide, fun k hk => List.all_eq_true.1 (hwords k hk), by decide⟩

/-- A keyword at the head of a text stands within the word there. -/
theorem prefix_of_word : ∀ {k w : Text}, (∀ c ∈ k, isWord c = true) → startsWord r = false → k <+: w ++ r → k <+: w
  | [], _, _, _, _ => List.nil_prefix
  | c :: k, [], hk, hr, h => by
    obtain ⟨tail, rfl⟩ := h
    have hc : startsWord (c :: k ++ tail) = true := hk c List.mem_cons_self
    rw [hr] at hc
    cases hc
  | c :: k, d :: w, hk, hr, h => by
    obtain ⟨rfl, hrest⟩ := List.cons_prefix_cons.1 h
    exact List.cons_prefix_cons.2 ⟨rfl, prefix_of_word (fun e he => hk e (List.mem_cons_of_mem _ he)) hr hrest⟩

theorem spaced_of_inside (h : atWordBoundary prev t = false) : spaced words next prev t = none := by
  simp [spaced, h]

theorem spaced_of_no_keyword (h : ∀ k ∈ words, ¬ k <+: t) : spaced words next prev t = none := by
  unfold spaced
  split
  · rw [List.findSome?_eq_none_iff]
    intro k hk
    cases hafter : Text.after? k t with
    | none => rfl
    | some rest => exact absurd ⟨rest, (Text.after?_eq_some hafter).symm⟩ (h k hk)
  · rfl

theorem findSome?_of_unique {α β : Type} {f : α → Option β} {x : α} : ∀ {l : List α}, x ∈ l →
    (∀ y ∈ l, y ≠ x → f y = none) → l.findSome? f = f x
  | [], hx, _ => absurd hx List.not_mem_nil
  | y :: l, hx, h => by
    by_cases hy : y = x
    · subst hy
      rw [List.findSome?_cons]
      cases hf : f y with
      | some b => rfl
      | none =>
        rw [List.findSome?_eq_none_iff]
        intro z hz
        by_cases hzy : z = y
        · rw [hzy, hf]
        · exact h z (List.mem_cons_of_mem _ hz) hzy
    · rw [List.findSome?_cons, h y List.mem_cons_self hy]
      have hxl : x ∈ l := (List.mem_cons.1 hx).resolve_left (Ne.symm hy)
      exact findSome?_of_unique hxl (fun z hz => h z (List.mem_cons_of_mem _ hz))

theorem spaced_of_keyword (hk : k ∈ words) (hunique : ∀ k' ∈ words, k' <+: k ++ r → k' = k)
    (hb : atWordBoundary prev (k ++ r) = true) :
    spaced words next prev (k ++ r) = (next (r.dropWhile isBlank)).map
      (fun found => (k ++ ' ' :: found.1, k.length + (r.takeWhile isBlank).length + found.2)) := by
  have hothers : ∀ k' ∈ words, k' ≠ k → Text.after? k' (k ++ r) = none := by
    intro k' hk' hne
    cases hafter : Text.after? k' (k ++ r) with
    | none => rfl
    | some rest => exact absurd (hunique k' hk' ⟨rest, (Text.after?_eq_some hafter).symm⟩) hne
  rw [spaced, if_pos hb, findSome?_of_unique hk (fun k' hk' hne => by rw [hothers k' hk' hne]), Text.after?_append]
  cases hnext : next (r.dropWhile isBlank) <;> simp only [hnext, Option.map_none, Option.map_some]

/-! ## What is written where -/

theorem startsWord_write (hw : ∀ k ∈ words, k ≠ []) (hn : Shows next) (prev : Option Char) (t : Text) :
    startsWord ((spaced words next).write prev t) = startsWord t := by
  cases t with
  | nil => rfl
  | cons x rest =>
    cases hfind : spaced words next prev (x :: rest) with
    | none => rw [write_item hfind]; rfl
    | some found =>
      obtain ⟨k, hk, gap, shown, after, -, ht, -, ha, -⟩ := spaced_eq_some (a := found.1) (n := found.2) hn hfind
      obtain ⟨c, k, rfl⟩ := List.exists_cons_of_ne_nil (hw k hk)
      rw [write_hit hfind, ha, ht]
      rfl

/-- Within a word nothing is found. -/
theorem write_inside (words : List Text) (next : Text → Option (Text × Nat)) (t : Text) :
    ∀ {w : Text}, (∀ c ∈ w, isWord c = true) → ∀ {c : Char}, isWord c = true →
    ∃ prev', (spaced words next).write (some c) (w ++ t) = w ++ (spaced words next).write prev' t
  | [], _, c, _ => ⟨some c, rfl⟩
  | d :: w, hw, c, hc => by
    have hd := hw d List.mem_cons_self
    have hinside : atWordBoundary (some c) (d :: (w ++ t)) = false := by simp [atWordBoundary, startsWord, hc, hd]
    obtain ⟨prev', hwrite⟩ := write_inside words next t (fun e he => hw e (List.mem_cons_of_mem _ he)) hd
    exact ⟨prev', by rw [List.cons_append, write_item (spaced_of_inside hinside), hwrite]; rfl⟩

theorem write_word (hne : w ≠ []) (hw : ∀ c ∈ w, isWord c = true) (hnone : spaced words next prev (w ++ t) = none) :
    ∃ prev', (spaced words next).write prev (w ++ t) = w ++ (spaced words next).write prev' t := by
  obtain ⟨c, w, rfl⟩ := List.exists_cons_of_ne_nil hne
  obtain ⟨prev', hwrite⟩ :=
    write_inside words next t (fun e he => hw e (List.mem_cons_of_mem c he)) (hw c List.mem_cons_self)
  rw [List.cons_append] at hnone
  exact ⟨prev', by rw [List.cons_append, write_item hnone, hwrite]; rfl⟩

/-! ## The tokens of what is written -/

/-- From every place where no word goes on, the rule writes a text whose tokens are cut so. -/
def Cuts (rule : Rule) (cut : List Text → List Text) (t : Text) : Prop :=
  ∀ prev : Option Char, prev.any isWord = false ∨ startsWord t = false → tokens (rule.write prev t) = cut (tokens t)

theorem spaced_of_mark (hd : Distinct words) {c : Char} (hc : isWord c = false) :
    spaced words next prev (c :: t) = none := by
  refine spaced_of_no_keyword (fun k hk hp => ?_)
  obtain ⟨d, k', rfl⟩ := List.exists_cons_of_ne_nil (hd.ne_nil k hk)
  have hd := hd.isWord _ hk d List.mem_cons_self
  rw [(List.cons_prefix_cons.1 hp).1, hc] at hd
  cases hd

/-- **What becomes of a text is known once it is known what becomes of a word and what follows it.** -/
theorem cuts_of_words (hd : Distinct words) {cut : List Text → List Text} (hnil : cut [] = [])
    (hmark : ∀ c ts, isWord c = false → cut ([c] :: ts) = [c] :: cut ts)
    (hword : ∀ w t prev, w ≠ [] → (∀ c ∈ w, isWord c = true) → startsWord t = false → prev.any isWord = false →
      (∀ r : Text, r.length ≤ t.length → Cuts (spaced words next) cut r) →
      tokens ((spaced words next).write prev (w ++ t)) = cut (w :: tokens t)) (t : Text) :
    Cuts (spaced words next) cut t := by
  -- the induction is on the length, not on the tokens: a find may take blanks and a name along with its keyword
  intro prev happart
  rcases token_cases t with rfl | ⟨c, r, rfl, hb⟩ | ⟨c, r, rfl, hb, hw⟩ | ⟨w, r, rfl, hne, hw, hr⟩
  · exact hnil.symm
  · have hw := isWord_of_isBlank hb
    have hrest := cuts_of_words hd hnil hmark hword r (some c) (Or.inl hw)
    rw [write_item (spaced_of_mark hd hw), tokens_blank hb, tokens_blank hb, hrest]
  · have hrest := cuts_of_words hd hnil hmark hword r (some c) (Or.inl hw)
    rw [write_item (spaced_of_mark hd hw), tokens_single hb (Or.inl hw), tokens_single hb (Or.inl hw), hrest, hmark c _ hw]
  · have hlen : 0 < w.length := List.length_pos_iff.2 hne
    have hstart : startsWord (w ++ r) = true := by
      obtain ⟨c, w, rfl⟩ := List.exists_cons_of_ne_nil hne
      exact hw c List.mem_cons_self
    have hprev : prev.any isWord = false := happart.resolve_right (by simp [hstart])
    rw [tokens_word hne hw hr]
    exact hword w r prev hne hw hr hprev (fun s hs => cuts_of_words hd hnil hmark hword s)
termination_by t.length
decreasing_by
  all_goals
    subst_vars
    simp only [List.length_cons, List.length_append]
    omega

/-- A word that is written as it stands stays a token. -/
theorem tokens_passed (hd : Distinct words) (hn : Shows next) {cut : List Text → List Text} (hne : w ≠ [])
    (hw : ∀ c ∈ w, isWord c = true) (ht : startsWord t = false) (hrest : Cuts (spaced words next) cut t)
    (prev : Option Char) : tokens (w ++ (spaced words next).write prev t) = w :: cut (tokens t) := by
  have hstart : startsWord ((spaced words next).write prev t) = false := by rw [startsWord_write hd.ne_nil hn, ht]
  rw [tokens_word hne hw hstart, hrest prev (Or.inr ht)]

theorem tokens_self (hne : w ≠ []) (hw : ∀ c ∈ w, isWord c = true) : tokens w = [w] := by
  have h := tokens_word (t := []) hne hw rfl
  rwa [List.append_nil] at h

theorem atWordBoundary_word (hne : w ≠ []) (hw : ∀ c ∈ w, isWord c = true) (hprev : prev.any isWord = false) (t : Text) :
    atWordBoundary prev (w ++ t) = true := by
  obtain ⟨c, w, rfl⟩ := List.exists_cons_of_ne_nil hne
  have hstart : startsWord (c :: w ++ t) = true := hw c List.mem_cons_self
  rw [atWordBoundary, hprev, hstart]
  rfl

theorem dropWhile_word (hne : w ≠ []) (hw : ∀ c ∈ w, isWord c = true) (t : Text) :
    (w ++ t).dropWhile isBlank = w ++ t ∧ (w ++ t).takeWhile isBlank = [] := by
  obtain ⟨c, w, rfl⟩ := List.exists_cons_of_ne_nil hne
  have hc := isBlank_of_isWord (hw c List.mem_cons_self)
  exact ⟨List.dropWhile_cons_of_neg (by simp [hc]), List.takeWhile_cons_of_neg (by simp [hc])⟩

/-- Of keywords none of which begins another, at most one stands at the head of a text. -/
theorem Distinct.unique (hd : Distinct words) (hk : k ∈ words) (hkw : k <+: w) (ht : startsWord t = false) :
    ∀ k' ∈ words, k' <+: w ++ t → k' = k := by
  intro k' hk' hp
  rcases List.prefix_or_prefix_of_prefix (prefix_of_word (hd.isWord k' hk') ht hp) hkw with h | h
  · exact hd.alone k hk k' hk' h
  · exact (hd.alone k' hk' k hk h).symm

/-- A keyword that is a word of its own, found or not by what follows the blanks after it. -/
theorem spaced_alone (hd : Distinct words) (hk : k ∈ words) (ht : startsWord t = false) (hprev : prev.any isWord = false) :
    spaced words next prev (k ++ t) = (next (t.dropWhile isBlank)).map
      (fun found => (k ++ ' ' :: found.1, k.length + (t.takeWhile isBlank).length + found.2)) :=
  spaced_of_keyword hk (hd.unique hk (List.prefix_refl k) ht)
    (atWordBoundary_word (hd.ne_nil k hk) (hd.isWord k hk) hprev t)

/-- A keyword at the beginning of a longer word, found or not by the rest of that word. -/
theorem spaced_within (hd : Distinct words) (hk : k ∈ words) {v : Text} (hne : v ≠ []) (hv : ∀ c ∈ v, isWord c = true)
    (ht : startsWord t = false) (hprev : prev.any isWord = false) :
    spaced words next prev (k ++ (v ++ t)) = (next (v ++ t)).map
      (fun found => (k ++ ' ' :: found.1, k.length + found.2)) := by
  have hunique := hd.unique hk (List.prefix_append k v) ht
  rw [List.append_assoc] at hunique
  rw [spaced_of_keyword hk hunique (atWordBoundary_word (hd.ne_nil k hk) (hd.isWord k hk) hprev _),
    (dropWhile_word hne hv t).1, (dropWhile_word hne hv t).2]
  rfl

/-- Nothing is found at a word that begins with no keyword. -/
theorem spaced_of_other (hd : Distinct words) (ht : startsWord t = false) (h : ∀ k ∈ words, ¬ k <+: w) :
    spaced words next prev (w ++ t) = none :=
  spaced_of_no_keyword (fun k hk hp => h k hk (prefix_of_word (hd.isWord k hk) ht hp))

theorem parted_gap {gap : Text} (hgap : allBlank gap = true) (h : startsWord (gap ++ r) = false) (k : Text) :
    Parted (k ++ gap) r := by
  rcases gap.eq_nil_or_concat with rfl | ⟨init, c, rfl⟩
  · exact Or.inr h
  · rw [List.concat_eq_append] at hgap ⊢
    have hc : isBlank c = true := List.all_eq_true.1 hgap c (List.mem_append_right _ List.mem_cons_self)
    left
    rw [← List.append_assoc, List.getLast?_concat, Option.any_some, isWord_of_isBlank hc]

/-! ## Calls -/

section calls

variable {v : Text}

theorem cutCall_of_whole (h : ∀ k ∈ callWords, k <+: w → k = w) : cutCall w = [w] := by
  have hnone : callWords.find? (fun k => k.isPrefixOf w && k != w) = none := by
    rw [List.find?_eq_none]
    intro k hk hfound
    rw [Bool.and_eq_true, List.isPrefixOf_iff_prefix, bne_iff_ne] at hfound
    exact hfound.2 (h k hk hfound.1)
  rw [cutCall, hnone]

theorem cutCall_self (hk : k ∈ callWords) : cutCall k = [k] :=
  cutCall_of_whole (fun k' hk' h => distinct_calls.alone k hk k' hk' h)

theorem cutCall_append (hk : k ∈ callWords) (hv : v ≠ []) : cutCall (k ++ v) = [k, v] := by
  have hunique := distinct_calls.unique (t := []) hk (List.prefix_append k v) rfl
  rw [List.append_nil] at hunique
  cases hfind : callWords.find? (fun k' => k'.isPrefixOf (k ++ v) && k' != k ++ v) with
  | none =>
    rw [List.find?_eq_none] at hfind
    exact absurd (by simp [hv]) (hfind k hk)
  | some k' =>
    have hfound := List.find?_some hfind
    rw [Bool.and_eq_true, List.isPrefixOf_iff_prefix] at hfound
    obtain rfl := hunique k' (List.mem_of_find?_eq_some hfind) hfound.1
    rw [cutCall, hfind]
    show [k', (k' ++ v).drop k'.length] = [k', v]
    rw [List.drop_left]

theorem cutCall_single {c : Char} (hc : isWord c = false) : cutCall [c] = [[c]] := by
  refine cutCall_of_whole (fun k hk hp => ?_)
  obtain ⟨d, k', rfl⟩ := List.exists_cons_of_ne_nil (distinct_calls.ne_nil k hk)
  have hd := distinct_calls.isWord _ hk d List.mem_cons_self
  rw [(List.cons_prefix_cons.1 hp).1, hc] at hd
  cases hd

/-- A keyword of its own gets one space after it, unless nothing follows. -/
theorem tokens_call_alone (hk : k ∈ callWords) (ht : startsWord t = false) (hprev : prev.any isWord = false)
    (hrest : ∀ r : Text, r.length ≤ t.length → Cuts callSpace (List.flatMap cutCall) r) :
    tokens (callSpace.write prev (k ++ t)) = k :: (tokens t).flatMap cutCall := by
  have hne := distinct_calls.ne_nil k hk
  have hw := distinct_calls.isWord k hk
  have hfind : callSpace prev (k ++ t) = _ := spaced_alone distinct_calls hk ht hprev
  have hgap := allBlank_takeWhile t
  have hsplit : t.takeWhile isBlank ++ t.dropWhile isBlank = t := List.takeWhile_append_dropWhile
  generalize t.takeWhile isBlank = gap at hfind hgap hsplit
  generalize t.dropWhile isBlank = r at hfind hsplit
  subst hsplit
  cases r with
  | nil =>
    obtain ⟨prev', hwrite⟩ := write_word hne hw hfind
    rw [callSpace, hwrite]
    exact tokens_passed distinct_calls (shows_ahead _) hne hw ht (hrest _ (Nat.le_refl _)) prev'
  | cons c r =>
    have hhit : callSpace prev ((k ++ gap) ++ c :: r) = some (k ++ [' '], (k ++ gap).length) := by
      rw [List.append_assoc, hfind, List.length_append]
      rfl
    have hparted := parted_gap hgap ht k
    rw [← List.append_assoc, write_find (by simp [hne]) hhit, List.append_assoc, List.singleton_append, tokens_space,
      tokens_self hne hw, tokens_blank_append hgap, hrest _ (by simp) _ hparted]
    rfl

/-- A keyword at the beginning of a longer word is cut off. -/
theorem tokens_call_within (hk : k ∈ callWords) (hne : v ≠ []) (hv : ∀ c ∈ v, isWord c = true) (ht : startsWord t = false)
    (hprev : prev.any isWord = false) (hrest : Cuts callSpace (List.flatMap cutCall) t) :
    tokens (callSpace.write prev (k ++ (v ++ t))) = k :: v :: (tokens t).flatMap cutCall := by
  have hkne := distinct_calls.ne_nil k hk
  have hkw := distinct_calls.isWord k hk
  have hhit : callSpace prev (k ++ (v ++ t)) = some (k ++ [' '], k.length) := by
    obtain ⟨c, v, rfl⟩ := List.exists_cons_of_ne_nil hne
    exact spaced_within distinct_calls hk hne hv ht hprev
  obtain ⟨c, hlast⟩ : ∃ c, k.getLast? = some c := ⟨_, List.getLast?_eq_some_getLast hkne⟩
  have hc : isWord c = true := hkw c (List.mem_of_getLast? hlast)
  obtain ⟨prev', hwrite⟩ := write_inside callWords (ahead (fun _ => true)) t hv hc
  rw [write_find hkne hhit, hlast, List.append_assoc, List.singleton_append, tokens_space, tokens_self hkne hkw, callSpace,
    hwrite, tokens_passed distinct_calls (shows_ahead _) hne hv ht hrest prev']
  rfl

theorem cuts_callSpace : ∀ t, Cuts callSpace (List.flatMap cutCall) t := by
  refine cuts_of_words distinct_calls rfl (fun c ts hc => ?_) (fun w t prev hne hw ht hprev hrest => ?_)
  · rw [List.flatMap_cons, cutCall_single hc]
    rfl
  rw [List.flatMap_cons]
  by_cases hk : ∃ k ∈ callWords, k <+: w
  · obtain ⟨k, hk, v, rfl⟩ := hk
    by_cases hv : v = []
    · subst hv
      rw [List.append_nil, cutCall_self hk]
      exact tokens_call_alone hk ht hprev hrest
    · have hvw : ∀ c ∈ v, isWord c = true := fun c hc => hw c (List.mem_append_right _ hc)
      rw [cutCall_append hk hv, List.append_assoc]
      exact tokens_call_within hk hv hvw ht hprev (hrest t (Nat.le_refl _))
  · have hother : ∀ k ∈ callWords, ¬ k <+: w := fun k hmem hp => hk ⟨k, hmem, hp⟩
    obtain ⟨prev', hwrite⟩ := write_word hne hw (spaced_of_other distinct_calls ht hother)
    rw [hwrite, cutCall_of_whole (fun k hmem hp => absurd hp (hother k hmem))]
    exact tokens_passed distinct_calls (shows_ahead _) hne hw ht (hrest t (Nat.le_refl _)) prev'

end calls

/-! ## Names of subroutines -/

section names

variable {v : Text}

theorem isWord_of_isNameStart {c : Char} (h : isNameStart c = true) : isWord c = true := by
  rw [isNameStart, Bool.or_eq_true, decide_eq_true_eq] at h
  rcases h with halpha | rfl
  · exact isWord_of_isAlpha halpha
  · rfl

theorem startsWord_of_isName (h : isName w = true) : startsWord w = true := by
  cases w with
  | nil => cases h
  | cons c w => exact isWord_of_isNameStart h

theorem isNameStart_of_mark {c : Char} (hc : isWord c = false) : isNameStart c = false := by
  cases h : isNameStart c with
  | false => rfl
  | true =>
    rw [isWord_of_isNameStart h] at hc
    cases hc

theorem name?_mark {c : Char} (hc : isWord c = false) (t : Text) : name? (c :: t) = none := by
  rw [name?, isNameStart_of_mark hc]
  rfl

theorem takeWhile_word : ∀ {w : Text}, (∀ c ∈ w, isWord c = true) → startsWord t = false → (w ++ t).takeWhile isWord = w
  | [], _, ht => by
    cases t with
    | nil => rfl
    | cons c t => exact List.takeWhile_cons_of_neg (by simpa [startsWord] using ht)
  | c :: w, hw, ht => by
    rw [List.cons_append, List.takeWhile_cons_of_pos (hw c List.mem_cons_self),
      takeWhile_word (fun d hd => hw d (List.mem_cons_of_mem c hd)) ht]

theorem name?_word (hne : w ≠ []) (hw : ∀ c ∈ w, isWord c = true) (ht : startsWord t = false) :
    name? (w ++ t) = if isName w then some w else none := by
  obtain ⟨c, w, rfl⟩ := List.exists_cons_of_ne_nil hne
  rw [List.cons_append, name?, takeWhile_word (fun d hd => hw d (List.mem_cons_of_mem c hd)) ht]
  rfl

/-- What is found behind the blanks after a `sub` of its own: the token there, if it is a name. -/
theorem name?_cases (t : Text) :
    (name? (t.dropWhile isBlank) = none ∧ (tokens t).head?.any isName = false) ∨
    ∃ n r, t.dropWhile isBlank = n ++ r ∧ n ≠ [] ∧ (∀ c ∈ n, isWord c = true) ∧ startsWord r = false ∧ isName n = true := by
  have hgap := allBlank_takeWhile t
  have hsplit : t.takeWhile isBlank ++ t.dropWhile isBlank = t := List.takeWhile_append_dropWhile
  have hhead := List.head?_dropWhile_not isBlank t
  generalize t.takeWhile isBlank = gap at hgap hsplit
  generalize t.dropWhile isBlank = r at hsplit hhead
  subst hsplit
  rw [tokens_blank_append hgap]
  rcases token_cases r with rfl | ⟨c, r, rfl, hb⟩ | ⟨c, r, rfl, hb, hw⟩ | ⟨w, r, rfl, hne, hw, hr⟩
  · exact Or.inl ⟨rfl, rfl⟩
  · simp [hb] at hhead
  · left
    rw [tokens_single hb (Or.inl hw)]
    exact ⟨name?_mark hw r, isNameStart_of_mark hw⟩
  · by_cases hname : isName w = true
    · exact Or.inr ⟨w, r, rfl, hne, hw, hr, hname⟩
    · left
      rw [name?_word hne hw hr, if_neg hname, tokens_word hne hw hr]
      exact ⟨rfl, by simpa using hname⟩

theorem cutSub_append (v : Text) : cutSub (txt "sub" ++ v) = if isName v then [txt "sub", v] else [txt "sub" ++ v] := by
  rw [cutSub, Text.after?_append]

theorem cutSub_of_other (h : ¬ txt "sub" <+: w) : cutSub w = [w] := by
  cases hafter : Text.after? (txt "sub") w with
  | none => rw [cutSub, hafter]
  | some name => exact absurd ⟨name, (Text.after?_eq_some hafter).symm⟩ h

/-- A `sub` of its own takes the name that follows, and neither is cut. -/
theorem tokens_sub_alone (ht : startsWord t = false) (hprev : prev.any isWord = false)
    (hrest : ∀ r : Text, r.length ≤ t.length → Cuts subNamed cutSubs r) :
    tokens (subNamed.write prev (txt "sub" ++ t)) = cutSubs (txt "sub" :: tokens t) := by
  have hk : txt "sub" ∈ [txt "sub"] := List.mem_singleton.2 rfl
  have hne := distinct_sub.ne_nil _ hk
  have hw := distinct_sub.isWord _ hk
  have hfind : subNamed prev (txt "sub" ++ t) = _ := spaced_alone distinct_sub hk ht hprev
  rcases name?_cases t with ⟨hnone, hhead⟩ | ⟨n, r, hdrop, hnne, hn, hr, hname⟩
  · rw [hnone] at hfind
    obtain ⟨prev', hwrite⟩ := write_word hne hw hfind
    rw [subNamed, hwrite, cutSubs_cons (fun _ => hhead)]
    exact tokens_passed distinct_sub shows_name hne hw ht (hrest t (Nat.le_refl _)) prev'
  · have hgap := allBlank_takeWhile t
    have hsplit : t.takeWhile isBlank ++ t.dropWhile isBlank = t := List.takeWhile_append_dropWhile
    rw [hdrop] at hfind hsplit
    rw [name?_word hnne hn hr, if_pos hname] at hfind
    generalize t.takeWhile isBlank = gap at hfind hgap hsplit
    subst hsplit
    have hhit : subNamed prev ((txt "sub" ++ (gap ++ n)) ++ r) =
        some (txt "sub" ++ ' ' :: n, (txt "sub" ++ (gap ++ n)).length) := by
      rw [List.append_assoc, List.append_assoc, hfind, List.length_append, List.length_append, ← Nat.add_assoc]
      rfl
    have hassoc : txt "sub" ++ (gap ++ (n ++ r)) = (txt "sub" ++ (gap ++ n)) ++ r := by simp only [List.append_assoc]
    rw [tokens_blank_append hgap, tokens_word hnne hn hr, cutSubs_named hname, hassoc, write_find (by simp [hne]) hhit,
      List.append_assoc, List.cons_append, tokens_space, tokens_self hne hw, subNamed,
      tokens_passed distinct_sub shows_name hnne hn hr (hrest r (by simp; omega))]
    rfl

/-- A longer word that begins with `sub` is cut if the rest of it is a name. -/
theorem tokens_sub_within (hne : v ≠ []) (hv : ∀ c ∈ v, isWord c = true) (ht : startsWord t = false)
    (hprev : prev.any isWord = false) (hrest : Cuts subNamed cutSubs t) :
    tokens (subNamed.write prev (txt "sub" ++ (v ++ t))) = cutSub (txt "sub" ++ v) ++ cutSubs (tokens t) := by
  have hk : txt "sub" ∈ [txt "sub"] := List.mem_singleton.2 rfl
  have hkne := distinct_sub.ne_nil _ hk
  have hkw := distinct_sub.isWord _ hk
  have hfind : subNamed prev (txt "sub" ++ (v ++ t)) = _ := spaced_within distinct_sub hk hne hv ht hprev
  rw [name?_word hne hv ht] at hfind
  rw [cutSub_append, ← List.append_assoc]
  rw [← List.append_assoc] at hfind
  by_cases hname : isName v = true
  · rw [if_pos hname] at hfind ⊢
    have hhit : subNamed prev (txt "sub" ++ v ++ t) = some (txt "sub" ++ ' ' :: v, (txt "sub" ++ v).length) := by
      rw [hfind, List.length_append]
      rfl
    rw [write_find (by simp [hkne]) hhit, List.append_assoc, List.cons_append, tokens_space, tokens_self hkne hkw, subNamed,
      tokens_passed distinct_sub shows_name hne hv ht hrest]
    rfl
  · rw [if_neg hname] at hfind ⊢
    have hwne : txt "sub" ++ v ≠ [] := by simp [hkne]
    have hww : ∀ c ∈ txt "sub" ++ v, isWord c = true := fun c hc => (List.mem_append.1 hc).elim (hkw c) (hv c)
    obtain ⟨prev', hwrite⟩ := write_word hwne hww hfind
    rw [subNamed, hwrite]
    exact tokens_passed distinct_sub shows_name hwne hww ht hrest prev'

theorem cuts_subNamed : ∀ t, Cuts subNamed cutSubs t := by
  refine cuts_of_words distinct_sub rfl (fun c ts hc => ?_) (fun w t prev hne hw ht hprev hrest => ?_)
  · rw [cutSubs_cons (fun h => by cases h), cutSub_single]
    rfl
  by_cases hk : txt "sub" <+: w
  · obtain ⟨v, rfl⟩ := hk
    by_cases hv : v = []
    · subst hv
      rw [List.append_nil]
      exact tokens_sub_alone ht hprev hrest
    · have hvw : ∀ c ∈ v, isWord c = true := fun c hc => hw c (List.mem_append_right _ hc)
      rw [cutSubs_cons (fun h => absurd h (by simpa using hv)), List.append_assoc]
      exact tokens_sub_within hv hvw ht hprev (hrest t (Nat.le_refl _))
  · have hother : ∀ k ∈ [txt "sub"], ¬ k <+: w := fun k hmem => List.mem_singleton.1 hmem ▸ hk
    obtain ⟨prev', hwrite⟩ := write_word hne hw (spaced_of_other distinct_sub ht hother)
    rw [hwrite, cutSubs_cons (fun h => absurd (h ▸ List.prefix_refl _) hk), cutSub_of_other hk]
    exact tokens_passed distinct_sub shows_name hne hw ht (hrest t (Nat.le_refl _)) prev'

end names

end Rule

/-! ## Code -/

theorem tokens_substitute {rule : Rule} (h : rule.KeepsTokens) (t : Text) : tokens (substitute rule id t) = tokens t :=
  Rule.tokens_write h none t []

/-- **Spacing cuts words at the two keywords without an end, and keeps all other tokens.** -/
theorem tokens_spaceCode (code : Text) : tokens (spaceCode code) = (cutSubs (tokens code)).flatMap cutCall := by
  have hsub : ∀ t, tokens (substitute Rule.subNamed id t) = cutSubs (tokens t) := fun t =>
    Rule.cuts_subNamed t none (Or.inl rfl)
  have hcall : ∀ t, tokens (substitute Rule.callSpace id t) = (tokens t).flatMap cutCall := fun t =>
    Rule.cuts_callSpace t none (Or.inl rfl)
  have hexactly : ∀ {words : List Text} {c : Char}, (∀ w ∈ words, w ≠ []) → isWord c = false →
      (Rule.spaced words (Rule.exactly c)).KeepsTokens := fun hw hc =>
    Rule.keepsTokens_spaced hw (Rule.shows_exactly _) (Rule.stops_exactly hc)
  have hcontrol : Rule.control.KeepsTokens := hexactly (by decide) (by decide)
  have hdeclarator : Rule.declarator.KeepsTokens :=
    Rule.keepsTokens_spaced (by decide) (Rule.shows_ahead _) (Rule.stops_ahead (fun _ => Rule.isWord_of_isSigil))
  have hanonymous : Rule.subAnonymous.KeepsTokens := hexactly (by decide) (by decide)
  have hparen : Rule.callParen.KeepsTokens := hexactly (by decide) (by decide)
  have helse : Rule.elseBrace.KeepsTokens := hexactly (by decide) (by decide)
  simp only [spaceCode, Rule.all, List.foldl_cons, List.foldl_nil]
  rw [tokens_substitute Rule.keepsTokens_parenBrace, tokens_substitute helse,
    tokens_substitute Rule.keepsTokens_braceKeyword, hcall, tokens_substitute hparen, tokens_substitute hanonymous, tokens_substitute Rule.keepsTokens_subNamedBrace, hsub,
    tokens_substitute hdeclarator, tokens_substitute hcontrol]

end EpFormat.Perl
