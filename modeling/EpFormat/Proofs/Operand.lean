import EpFormat.Proofs.LeftAlone
/-!
# Operand — the space between a call and its operand

A call at the beginning of a text gets one space before its operand.  The two rules for calls see to it, and the eight others
pass the call by: what they find begins with a word or a mark of their own (`Rule.Begins`).  But the rules see one chunk at a time,
and a literal is a chunk of its own, so there is no space before an operand that begins with a quote (`call_spaced_iff`).
-/
namespace EpFormat.Perl

namespace Rule

variable {rule : Rule} {marks words : List Text} {next : Text → Option (Text × Nat)} {k g r t : Text} {c : Char}

/-! ## What a rule passes by -/

/-- What the rule finds and what it writes there begin with the same of these texts. -/
def Begins (rule : Rule) (marks : List Text) : Prop :=
  ∀ prev x rest a n, rule prev (x :: rest) = some (a, n) → ∃ w ∈ marks, w <+: x :: rest ∧ w <+: a

theorem begins_spaced (hn : Shows next) : Begins (spaced words next) words := by
  intro prev x rest a n h
  obtain ⟨word, hword, gap, shown, after, -, ht, -, rfl, -⟩ := spaced_eq_some hn h
  exact ⟨word, hword, ⟨gap ++ shown ++ after, by rw [ht]; simp⟩, List.prefix_append _ _⟩

theorem begins_subNamedBrace : Begins subNamedBrace [txt "sub"] := by
  intro prev x rest a n h
  obtain ⟨gap, name, gap', after, -, -, -, ht, rfl, -⟩ := subNamedBrace_eq_some h
  refine ⟨txt "sub", List.mem_singleton.2 rfl, ⟨_, by rw [ht, List.append_assoc]⟩, ?_⟩
  rw [List.append_assoc]
  exact ⟨' ' :: (name ++ [' ', '\x7b']), rfl⟩

theorem begins_braceKeyword : Begins braceKeyword [['\x7d']] := by
  intro prev x rest a n h
  obtain ⟨gap, after, -, ht, rfl, -⟩ := braceKeyword_eq_some h
  exact ⟨['\x7d'], List.mem_singleton.2 rfl, ⟨gap ++ after, ht.symm⟩, ⟨[' '], rfl⟩⟩

theorem begins_parenBrace : Begins parenBrace [[')']] := by
  intro prev x rest a n h
  obtain ⟨gap, after, -, ht, rfl, -⟩ := parenBrace_eq_some h
  exact ⟨[')'], List.mem_singleton.2 rfl, ⟨gap ++ ['\x7b'] ++ after, by rw [ht]; rfl⟩, ⟨[' ', '\x7b'], rfl⟩⟩

/-- A stretch within which none of the texts begins is written as it stands. -/
theorem write_past (h : rule.Begins marks) : ∀ {s : Text}, (∀ v, v <:+ s → v ≠ [] → ∀ w ∈ marks, ¬ w <+: v ++ r) →
    ∀ prev, ∃ prev', rule.write prev (s ++ r) = s ++ rule.write prev' r
  | [], _, prev => ⟨prev, rfl⟩
  | x :: s, hs, prev => by
    have hnone : rule prev (x :: (s ++ r)) = none := by
      cases hfind : rule prev (x :: (s ++ r)) with
      | none => rfl
      | some found =>
        obtain ⟨w, hw, hstart, -⟩ := h prev x (s ++ r) found.1 found.2 hfind
        exact absurd hstart (hs (x :: s) List.suffix_rfl (List.cons_ne_nil x s) w hw)
    obtain ⟨prev', hwrite⟩ := write_past h (fun v hv => hs v (hv.trans (List.suffix_cons x s))) (some x)
    exact ⟨prev', by rw [List.cons_append, write_item hnone, hwrite]; rfl⟩

/-- The first character stays where it is. -/
theorem write_head (h : rule.Begins marks) (hne : ∀ w ∈ marks, w ≠ []) (prev : Option Char) (x : Char) (r : Text) :
    ∃ r', rule.write prev (x :: r) = x :: r' := by
  cases hfind : rule prev (x :: r) with
  | none => exact ⟨_, write_item hfind⟩
  | some found =>
    obtain ⟨w, hw, hstart, hwritten⟩ := h prev x r found.1 found.2 hfind
    obtain ⟨d, w, rfl⟩ := List.exists_cons_of_ne_nil (hne w hw)
    obtain ⟨a, ha⟩ := hwritten
    obtain rfl := (List.cons_prefix_cons.1 hstart).1
    exact ⟨_, by rw [write_hit hfind, ← ha]; rfl⟩

/-! ## Calls that are passed by -/

/-- A keyword, a gap and the first character of an operand at the head of a text stay there. -/
def Passes (rule : Rule) (k g : Text) (c : Char) : Prop :=
  ∀ t, k ++ (g ++ [c]) <+: t → k ++ (g ++ [c]) <+: substitute rule id t

/-- Texts of which none begins within the word, whatever stands after it, and none with white space. -/
structure Clear (marks : List Text) (k : Text) : Prop where
  ink : ∀ w ∈ marks, ∃ d w', w = d :: w' ∧ isBlank d = false
  apart : ∀ v, v <:+ k → v ≠ [] → ∀ r, startsWord r = false → ∀ w ∈ marks, ¬ w <+: v ++ r

theorem Clear.ne_nil (h : Clear marks k) : ∀ w ∈ marks, w ≠ [] := by
  intro w hw
  obtain ⟨d, w', rfl, -⟩ := h.ink w hw
  exact List.cons_ne_nil d w'

theorem startsWord_operand (hg : allBlank g = true) (hc : isWord c = false) (r : Text) : startsWord (g ++ c :: r) = false :=
  startsWord_blank_append hg (Or.inr hc)

theorem passes_of_clear (h : rule.Begins marks) (hk : Clear marks k) (hg : allBlank g = true) (hc : isWord c = false) :
    rule.Passes k g c := by
  rintro t ⟨r, rfl⟩
  have hassoc : k ++ (g ++ [c]) ++ r = k ++ (g ++ c :: r) := by simp
  obtain ⟨prev, hkeyword⟩ := write_past h (r := g ++ c :: r)
    (fun v hv hne => hk.apart v hv hne _ (startsWord_operand hg hc r)) none
  have hgap : ∀ v, v <:+ g → v ≠ [] → ∀ w ∈ marks, ¬ w <+: v ++ c :: r := by
    intro v hv hne w hw hp
    obtain ⟨d, w, rfl, hd⟩ := hk.ink w hw
    obtain ⟨e, v, rfl⟩ := List.exists_cons_of_ne_nil hne
    have he := allBlank_iff.1 hg e (hv.subset List.mem_cons_self)
    rw [← (List.cons_prefix_cons.1 hp).1, hd] at he
    cases he
  obtain ⟨prev', hblank⟩ := write_past h hgap prev
  obtain ⟨r', hhead⟩ := write_head h hk.ne_nil prev' c r
  exact ⟨r', by rw [substitute_eq_write, hassoc, hkeyword, hblank, hhead]; simp⟩

theorem clear_of_words (hk : k ∈ callWords) (hne : ∀ w ∈ words, w ≠ []) (hw : ∀ w ∈ words, w.all isWord = true)
    (hcalls : ∀ k ∈ callWords, ∀ w ∈ words, ¬ w <:+: k) : Clear words k where
  ink w hmem := by
    obtain ⟨d, w, rfl⟩ := List.exists_cons_of_ne_nil (hne w hmem)
    exact ⟨d, w, rfl, isBlank_of_isWord (List.all_eq_true.1 (hw _ hmem) d List.mem_cons_self)⟩
  apart v hv _ r hr w hmem hp :=
    hcalls k hk w hmem ((prefix_of_word (List.all_eq_true.1 (hw w hmem)) hr hp).isInfix.trans hv.isInfix)

theorem clear_of_mark {m : Char} (hb : isBlank m = false) (hm : isWord m = false) (hk : ∀ d ∈ k, isWord d = true) :
    Clear [[m]] k where
  ink w hmem := ⟨m, [], List.mem_singleton.1 hmem, hb⟩
  apart v hv hne r _ w hmem hp := by
    rw [List.mem_singleton.1 hmem] at hp
    obtain ⟨e, v, rfl⟩ := List.exists_cons_of_ne_nil hne
    have he := hk e (hv.subset List.mem_cons_self)
    rw [← (List.cons_prefix_cons.1 hp).1, hm] at he
    cases he

def beforeCalls : List Rule := [control, declarator, subNamed, subNamedBrace, subAnonymous]

def afterCalls : List Rule := [braceKeyword, elseBrace, parenBrace]

/-- **Every rule that is not for calls passes a call by.** -/
theorem passes_others (hk : k ∈ callWords) (hg : allBlank g = true) (hc : isWord c = false) :
    ∀ rule ∈ beforeCalls ++ afterCalls, rule.Passes k g c := by
  have hword := distinct_calls.isWord k hk
  have hsub : Clear [txt "sub"] k := clear_of_words hk (by decide) (by decide) (by decide +kernel)
  intro rule hrule
  simp only [beforeCalls, afterCalls, List.mem_append, List.mem_cons, List.not_mem_nil, or_false] at hrule
  rcases hrule with (rfl | rfl | rfl | rfl | rfl) | rfl | rfl | rfl
  · exact passes_of_clear (begins_spaced (shows_exactly _))
      (clear_of_words hk (by decide) (by decide) (by decide +kernel)) hg hc
  · exact passes_of_clear (begins_spaced (shows_ahead _))
      (clear_of_words hk (by decide) (by decide) (by decide +kernel)) hg hc
  · exact passes_of_clear (begins_spaced shows_name) hsub hg hc
  · exact passes_of_clear begins_subNamedBrace hsub hg hc
  · exact passes_of_clear (begins_spaced (shows_exactly _)) hsub hg hc
  · exact passes_of_clear begins_braceKeyword (clear_of_mark (by decide) (by decide) hword) hg hc
  · exact passes_of_clear (begins_spaced (shows_exactly _))
      (clear_of_words hk (by decide) (by decide) (by decide +kernel)) hg hc
  · exact passes_of_clear begins_parenBrace (clear_of_mark (by decide) (by decide) hword) hg hc

theorem foldl_passes : ∀ {rules : List Rule}, (∀ rule ∈ rules, rule.Passes k g c) → ∀ {t : Text}, k ++ (g ++ [c]) <+: t →
    k ++ (g ++ [c]) <+: rules.foldl (fun t rule => substitute rule id t) t
  | [], _, _, ht => ht
  | rule :: _, h, t, ht =>
    foldl_passes (fun r hr => h r (List.mem_cons_of_mem rule hr)) (h rule List.mem_cons_self t ht)

/-! ## Calls that are spaced -/

theorem dropWhile_gap (hg : allBlank g = true) (hb : isBlank c = false) (r : Text) :
    (g ++ c :: r).dropWhile isBlank = c :: r ∧ (g ++ c :: r).takeWhile isBlank = g := by
  have hpos := allBlank_iff.1 hg
  rw [List.dropWhile_append_of_pos hpos, List.takeWhile_append_of_pos hpos, List.dropWhile_cons_of_neg (by simp [hb]),
    List.takeWhile_cons_of_neg (by simp [hb]), List.append_nil]
  exact ⟨rfl, rfl⟩

/-- Before a parenthesis there is one space, before any other operand what there was. -/
theorem callParen_operand (hk : k ∈ callWords) (hb : isBlank c = false) (hw : isWord c = false)
    (h : k ++ ([] ++ [c]) <+: t) : ∃ g, allBlank g = true ∧ k ++ (g ++ [c]) <+: substitute callParen id t := by
  obtain ⟨r, rfl⟩ := h
  have hne := distinct_calls.ne_nil k hk
  have hassoc : k ++ ([] ++ [c]) ++ r = k ++ c :: r := by simp
  have hfind : callParen none (k ++ c :: r) = _ := spaced_alone distinct_calls hk hw rfl
  rw [List.dropWhile_cons_of_neg (by simp [hb]), List.takeWhile_cons_of_neg (by simp [hb]), exactly] at hfind
  rw [substitute_eq_write, hassoc]
  split at hfind
  · rename_i hparen
    subst hparen
    have hhit : callParen none ((k ++ ['(']) ++ r) = some (k ++ [' ', '('], (k ++ ['(']).length) := by
      rw [← List.append_cons, hfind, List.length_append]
      rfl
    refine ⟨[' '], rfl, ?_⟩
    rw [List.append_cons k '(' r, write_find (by simp) hhit]
    exact List.prefix_append _ _
  · obtain ⟨prev, hpast⟩ := write_word hne (distinct_calls.isWord k hk) hfind
    obtain ⟨r', hhead⟩ := write_head (begins_spaced (shows_exactly '(')) distinct_calls.ne_nil prev c r
    exact ⟨[], rfl, r', by rw [callParen, hpast, hhead]; simp⟩

/-- Before an operand there is one space. -/
theorem callSpace_operand (hk : k ∈ callWords) (hg : allBlank g = true) (hb : isBlank c = false) (hw : isWord c = false)
    (h : k ++ (g ++ [c]) <+: t) : k ++ ([' '] ++ [c]) <+: substitute callSpace id t := by
  obtain ⟨r, rfl⟩ := h
  have hassoc : k ++ (g ++ [c]) ++ r = k ++ g ++ c :: r := by simp
  have hfind : callSpace none (k ++ (g ++ c :: r)) = _ :=
    spaced_alone distinct_calls hk (startsWord_operand hg hw r) rfl
  rw [(dropWhile_gap hg hb r).1, (dropWhile_gap hg hb r).2] at hfind
  have hhit : callSpace none (k ++ g ++ c :: r) = some (k ++ [' '], (k ++ g).length) := by
    rw [List.append_assoc, hfind, List.length_append]
    rfl
  obtain ⟨r', hhead⟩ := write_head (begins_spaced (shows_ahead _)) distinct_calls.ne_nil (k ++ g).getLast? c r
  refine ⟨r', ?_⟩
  rw [substitute_eq_write, hassoc, write_find (by simp [distinct_calls.ne_nil k hk]) hhit, callSpace, hhead]
  simp

end Rule

/-- **A call at the head of code gets one space before its operand.** -/
theorem spaceCode_call {k : Text} (hk : k ∈ Rule.callWords) {c : Char} (hb : isBlank c = false) (hw : isWord c = false)
    (r : Text) : k ++ [' ', c] <+: spaceCode (k ++ c :: r) := by
  have hall : Rule.all = Rule.beforeCalls ++ ([Rule.callParen, Rule.callSpace] ++ Rule.afterCalls) := rfl
  have hbefore : ∀ rule ∈ Rule.beforeCalls, rule.Passes k [] c :=
    fun rule hr => Rule.passes_others hk rfl hw rule (List.mem_append_left _ hr)
  have hafter : ∀ rule ∈ Rule.afterCalls, rule.Passes k [' '] c :=
    fun rule hr => Rule.passes_others hk rfl hw rule (List.mem_append_right _ hr)
  have hhead : k ++ ([] ++ [c]) <+: k ++ c :: r := ⟨r, by simp⟩
  obtain ⟨g, hg, hparen⟩ := Rule.callParen_operand hk hb hw (Rule.foldl_passes hbefore hhead)
  rw [spaceCode, hall, List.foldl_append, List.foldl_append, List.foldl_cons, List.foldl_cons, List.foldl_nil]
  exact Rule.foldl_passes hafter (Rule.callSpace_operand hk hg hb hw hparen)

/-! ## Texts -/

theorem spaceChunk_keyword : ∀ k ∈ Rule.callWords, spaceChunk (.code k) = k := by decide +kernel

theorem isQuote_of_isWord {c : Char} (h : isWord c = true) : Chunk.isQuote c = false := by
  cases hq : Chunk.isQuote c with
  | false => rfl
  | true =>
    rw [Chunk.isWord_of_isQuote hq] at h
    cases h

theorem spaceKeywords_quoted {k : Text} (hk : k ∈ Rule.callWords) {q : Char} (hq : Chunk.isQuote q = true) (r : Text) :
    k ++ [q] <+: spaceKeywords (k ++ q :: r) := by
  -- the call is a chunk of its own, and no rule finds anything in it
  obtain ⟨body, cs, hsplit⟩ := Chunk.exists_literal hq r
  have hliteral : spaceKeywords (q :: r) = q :: body ++ cs.flatMap spaceChunk := by
    rw [spaceKeywords, hsplit, List.flatMap_cons]
    rfl
  rw [spaceKeywords_code (Rule.distinct_calls.ne_nil k hk)
    (fun c hc => isQuote_of_isWord (Rule.distinct_calls.isWord k hk c hc)) (by simpa using hq), spaceChunk_keyword k hk, hliteral]
  exact ⟨body ++ cs.flatMap spaceChunk, by simp⟩

theorem spaceKeywords_unquoted {k : Text} (hk : k ∈ Rule.callWords) {c : Char} (hb : isBlank c = false)
    (hw : isWord c = false) (hc : c ≠ '#') (hq : Chunk.isQuote c = false) (r : Text) :
    k ++ [' ', c] <+: spaceKeywords (k ++ c :: r) := by
  have hword := Rule.distinct_calls.isWord k hk
  obtain ⟨s, t, rfl, hs, ht⟩ := Chunk.exists_unquoted r
  have hunquoted : ∀ d ∈ k ++ c :: s, Chunk.isQuote d = false := by
    intro d hd
    rcases List.mem_append.1 hd with hd | hd
    · exact isQuote_of_isWord (hword d hd)
    rcases List.mem_cons.1 hd with rfl | hd
    · exact hq
    · exact hs d hd
  have hcode : (splitComment (k ++ c :: s)).1 = k ++ c :: s.takeWhile (· != '#') := by
    rw [splitComment_fst, List.takeWhile_append_of_pos, List.takeWhile_cons_of_pos (by simpa using hc)]
    rintro d hd
    have hne : d ≠ '#' := by
      rintro rfl
      exact absurd (hword _ hd) (by decide)
    simpa using hne
  have hassoc : k ++ c :: (s ++ t) = (k ++ c :: s) ++ t := by simp
  have hchunk : k ++ [' ', c] <+: spaceChunk (.code (k ++ c :: s)) := by
    rw [spaceChunk_code, hcode]
    exact (spaceCode_call hk hb hw _).trans (List.prefix_append _ _)
  rw [hassoc, spaceKeywords_code (by simp) hunquoted ht]
  exact hchunk.trans (List.prefix_append _ _)

/-- **A call at the head of a text is spaced from its operand exactly if the operand does not begin with a quote.** -/
theorem call_spaced_iff {k : Text} (hk : k ∈ Rule.callWords) {c : Char} (hb : isBlank c = false) (hw : isWord c = false)
    (hc : c ≠ '#') (r : Text) : k ++ [' ', c] <+: spaceIf true (k ++ c :: r) ↔ Chunk.isQuote c = false := by
  rw [spaceIf, if_pos rfl]
  refine ⟨fun h => ?_, fun hq => spaceKeywords_unquoted hk hb hw hc hq r⟩
  by_contra hq
  obtain ⟨u, hu⟩ := spaceKeywords_quoted hk (by simpa using hq) r
  rw [← hu, List.append_assoc, List.prefix_append_right_inj] at h
  obtain rfl : ' ' = c := (List.cons_prefix_cons.1 h).1
  cases hb

/-- An operand that closes a brace, which a rule after those for calls finds too. -/
theorem call_spaced_brace : txt "return \x7d" <+: spaceIf true (txt "return\x7delse\x7bdie\"x\"") ∧
    Chunk.isQuote '\x7d' = false :=
  ⟨(call_spaced_iff (k := txt "return") (c := '\x7d') (by decide) (by decide) (by decide) (by decide)
    (txt "else\x7bdie\"x\"")).2 (by decide), by decide⟩

/-- Before a literal there is no space. -/
theorem call_not_spaced :
    spaceIf true (txt "say\"hi\"") = txt "say\"hi\"" ∧ ¬ txt "say \"" <+: spaceIf true (txt "say\"hi\"") := by
  constructor <;> decide +kernel

end EpFormat.Perl
