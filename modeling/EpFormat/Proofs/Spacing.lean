import EpFormat.Proofs.Loosen
/-!
# Spacing — keyword spacing puts in spaces

A rule of spacing puts one space where it found any white space or none, so that what it found is loosened to what it
writes (`Rule.Loosens`).  All ten rules do no more than that, and keyword spacing is made of them
(`loosened_spaceKeywords`).
-/
namespace EpFormat

theorem Text.after?_eq_some {word t rest : Text} (h : Text.after? word t = some rest) : t = word ++ rest := by
  fun_induction Text.after? word t with
  | case1 t => simpa using h
  | case2 => cases h
  | case3 a word t ih => rw [ih h, List.cons_append]
  | case4 => cases h

theorem allBlank_takeWhile (t : Text) : allBlank (t.takeWhile isBlank) = true := List.all_takeWhile

namespace Perl

/-! ## What the rules find -/

namespace Rule

/-- What `next` shows stands at the head of the text, and is what it takes. -/
def Shows (next : Text → Option (Text × Nat)) : Prop :=
  ∀ t shown n, next t = some (shown, n) → n = shown.length ∧ shown <+: t

theorem exactly_eq_some {c : Char} {t : Text} {found : Text × Nat} (h : exactly c t = some found) :
    found = ([c], 1) ∧ ∃ after, t = c :: after := by
  unfold exactly at h
  split at h
  · cases h
  · rename_i d after
    split at h
    · rename_i hd
      exact ⟨(Option.some.inj h).symm, after, by rw [hd]⟩
    · cases h

theorem shows_exactly (c : Char) : Shows (exactly c) := by
  intro t shown n h
  obtain ⟨hfound, after, rfl⟩ := exactly_eq_some h
  obtain ⟨rfl, rfl⟩ := Prod.mk.inj hfound
  exact ⟨rfl, after, rfl⟩

theorem ahead_eq_some {p : Char → Bool} {t : Text} {found : Text × Nat} (h : ahead p t = some found) :
    found = ([], 0) ∧ ∃ c after, t = c :: after ∧ p c = true := by
  unfold ahead at h
  split at h
  · cases h
  · rename_i c after
    split at h
    · rename_i hc
      exact ⟨(Option.some.inj h).symm, c, after, rfl, hc⟩
    · cases h

theorem shows_ahead (p : Char → Bool) : Shows (ahead p) := by
  intro t shown n h
  obtain ⟨rfl, rfl⟩ := Prod.mk.inj (ahead_eq_some h).1
  exact ⟨rfl, List.nil_prefix⟩

theorem name?_eq_some {t name : Text} (h : name? t = some name) : t = name ++ t.drop name.length := by
  cases t with
  | nil => cases h
  | cons c rest =>
    simp only [name?] at h
    split at h
    · simp only [Option.some.injEq] at h
      have htake : rest.takeWhile isWord = rest.take (rest.takeWhile isWord).length :=
        List.prefix_iff_eq_take.1 (List.takeWhile_prefix _)
      rw [← h, List.length_cons, List.drop_succ_cons, List.cons_append]
      conv => lhs; rw [← List.take_append_drop (rest.takeWhile isWord).length rest, ← htake]
    · cases h

theorem shows_name : Shows (fun t => (name? t).map (fun n => (n, n.length))) := by
  intro t shown n h
  obtain ⟨name, hname, hpair⟩ := Option.map_eq_some_iff.1 h
  obtain ⟨rfl, rfl⟩ := Prod.mk.inj hpair
  exact ⟨rfl, _, (name?_eq_some hname).symm⟩

variable {prev : Option Char} {t a : Text} {n : Nat}

theorem spaced_eq_some {words : List Text} {next : Text → Option (Text × Nat)} (hn : Shows next)
    (h : spaced words next prev t = some (a, n)) :
    ∃ word ∈ words, ∃ gap shown after, allBlank gap = true ∧ t = word ++ (gap ++ shown) ++ after ∧
      next (shown ++ after) = some (shown, shown.length) ∧ a = word ++ ' ' :: shown ∧
      n = (word ++ (gap ++ shown)).length := by
  simp only [spaced] at h
  split at h
  case isFalse => cases h
  obtain ⟨word, hword, hf⟩ := List.exists_of_findSome?_eq_some h
  split at hf
  case h_1 => cases hf
  rename_i rest hrest
  split at hf
  case h_1 => cases hf
  rename_i shown k hnext
  obtain ⟨rfl, rfl⟩ := Prod.mk.inj (Option.some.inj hf)
  obtain ⟨rfl, after, hafter⟩ := hn _ _ _ hnext
  rw [← hafter] at hnext
  refine ⟨word, hword, rest.takeWhile isBlank, shown, after, allBlank_takeWhile rest, ?_, hnext, rfl, ?_⟩
  · rw [List.append_assoc, List.append_assoc, hafter, List.takeWhile_append_dropWhile, ← Text.after?_eq_some hrest]
  · rw [List.length_append, List.length_append, Nat.add_assoc]

theorem subNamedBrace_eq_some (h : subNamedBrace prev t = some (a, n)) :
    ∃ gap name gap' after, gap ≠ [] ∧ allBlank gap = true ∧ allBlank gap' = true ∧
      t = txt "sub" ++ (gap ++ (name ++ (gap' ++ ['\x7b']))) ++ after ∧ a = txt "sub " ++ name ++ [' ', '\x7b'] ∧
      n = (txt "sub" ++ (gap ++ (name ++ (gap' ++ ['\x7b'])))).length := by
  simp only [subNamedBrace] at h
  split at h
  case isFalse => cases h
  split at h
  case h_1 => cases h
  rename_i rest hrest
  split at h
  case h_1 => cases h
  rename_i name hname
  split at h
  case h_1 => cases h
  rename_i brace hbrace
  split at h
  case isTrue => cases h
  rename_i hgap
  obtain ⟨rfl, rfl⟩ := Prod.mk.inj (Option.some.inj h)
  obtain ⟨-, after, hafter⟩ := exactly_eq_some hbrace
  generalize htail : (rest.dropWhile isBlank).drop name.length = tail at hafter ⊢
  refine ⟨rest.takeWhile isBlank, name, tail.takeWhile isBlank, after, by simpa using hgap, allBlank_takeWhile rest,
    allBlank_takeWhile tail, ?_, rfl, ?_⟩
  · simp only [List.append_assoc, List.singleton_append]
    rw [← hafter, List.takeWhile_append_dropWhile, ← htail, ← name?_eq_some hname, List.takeWhile_append_dropWhile,
      ← Text.after?_eq_some hrest]
  · have hsub : (txt "sub").length = 3 := rfl
    simp only [List.length_append, List.length_cons, List.length_nil, hsub]
    omega

theorem braceKeyword_eq_some (h : braceKeyword prev t = some (a, n)) :
    ∃ gap after, allBlank gap = true ∧ t = '\x7d' :: gap ++ after ∧ a = ['\x7d', ' '] ∧ n = ('\x7d' :: gap).length := by
  unfold braceKeyword at h
  split at h
  case h_2 => cases h
  rename_i rest
  simp only at h
  split at h
  case isFalse => cases h
  obtain ⟨rfl, rfl⟩ := Prod.mk.inj (Option.some.inj h)
  refine ⟨rest.takeWhile isBlank, rest.dropWhile isBlank, allBlank_takeWhile rest, ?_, rfl, ?_⟩
  · rw [List.cons_append, List.takeWhile_append_dropWhile]
  · rw [List.length_cons, Nat.add_comm]

theorem parenBrace_eq_some (h : parenBrace prev t = some (a, n)) :
    ∃ gap after, allBlank gap = true ∧ t = ')' :: (gap ++ ['\x7b']) ++ after ∧ a = [')', ' ', '\x7b'] ∧
      n = (')' :: (gap ++ ['\x7b'])).length := by
  unfold parenBrace at h
  split at h
  case h_2 => cases h
  rename_i rest
  split at h
  case h_2 => cases h
  rename_i after hafter
  obtain ⟨rfl, rfl⟩ := Prod.mk.inj (Option.some.inj h)
  refine ⟨rest.takeWhile isBlank, after, allBlank_takeWhile rest, ?_, rfl, ?_⟩
  · rw [List.cons_append, List.append_assoc, List.singleton_append, ← hafter, List.takeWhile_append_dropWhile]
  · simp only [List.length_cons, List.length_append, List.length_nil]
    omega

/-! ## What the rules write -/

/-- What the rule finds is loosened to what it writes. -/
def Loosens (rule : Rule) : Prop :=
  ∀ prev x rest a n, rule prev (x :: rest) = some (a, n) → Loosened (taken n (x :: rest)) a

theorem loosens_spaced {words : List Text} {next : Text → Option (Text × Nat)} (hw : ∀ w ∈ words, w ≠ [])
    (hn : Shows next) : Loosens (spaced words next) := by
  intro prev x rest a n h
  obtain ⟨word, hword, gap, shown, after, hgap, ht, -, rfl, rfl⟩ := spaced_eq_some hn h
  rw [ht, taken_append (by simp [hw word hword])]
  exact .append_left word (.space hgap (.refl shown))

theorem loosens_subNamedBrace : Loosens subNamedBrace := by
  intro prev x rest a n h
  obtain ⟨gap, name, gap', after, -, hgap, hgap', ht, rfl, rfl⟩ := subNamedBrace_eq_some h
  rw [ht, taken_append (by simp [txt])]
  have hbrace := Loosened.append_left name (.space hgap' (.refl ['\x7b']))
  exact .append_left (txt "sub") (.space hgap hbrace)

theorem loosens_braceKeyword : Loosens braceKeyword := by
  intro prev x rest a n h
  obtain ⟨gap, after, hgap, ht, rfl, rfl⟩ := braceKeyword_eq_some h
  rw [ht, taken_append (by simp)]
  have hspace := Loosened.space hgap .nil
  rw [List.append_nil] at hspace
  exact .char '\x7d' hspace

theorem loosens_parenBrace : Loosens parenBrace := by
  intro prev x rest a n h
  obtain ⟨gap, after, hgap, ht, rfl, rfl⟩ := parenBrace_eq_some h
  rw [ht, taken_append (by simp)]
  exact .char ')' (.space hgap (.refl ['\x7b']))

/-- **Every rule of spacing loosens what it finds.** -/
theorem loosens_all : ∀ rule ∈ all, Loosens rule := by
  intro rule hrule
  simp only [all, List.mem_cons, List.not_mem_nil, or_false] at hrule
  rcases hrule with rfl | rfl | rfl | rfl | rfl | rfl | rfl | rfl | rfl | rfl
  · exact loosens_spaced (by decide) (shows_exactly _)
  · exact loosens_spaced (by decide) (shows_ahead _)
  · exact loosens_spaced (by decide) shows_name
  · exact loosens_subNamedBrace
  · exact loosens_spaced (by decide) (shows_exactly _)
  · exact loosens_spaced (by decide) (shows_exactly _)
  · exact loosens_spaced (by decide) (shows_ahead _)
  · exact loosens_braceKeyword
  · exact loosens_spaced (by decide) (shows_exactly _)
  · exact loosens_parenBrace

end Rule

/-! ## Code, chunks, texts -/

theorem loosened_foldl_rules : ∀ (rules : List Rule), (∀ rule ∈ rules, rule.Loosens) → ∀ code : Text,
    Loosened code (rules.foldl (fun t rule => substitute rule id t) code)
  | [], _, code => .refl code
  | rule :: rules, h, code => by
    have hfirst : Loosened code (substitute rule id code) :=
      loosened_substituteFrom (f := id) (h rule List.mem_cons_self) none code
    exact hfirst.trans (loosened_foldl_rules rules (fun r hr => h r (List.mem_cons_of_mem _ hr)) _)

theorem splitComment_append (t : Text) : (splitComment t).1 ++ (splitComment t).2.getD [] = t := by
  unfold splitComment
  simp only
  split
  · rename_i h
    have := List.takeWhile_append_dropWhile (p := fun c => c != '#') (l := t)
    rw [h] at this
    simpa using this
  · exact List.takeWhile_append_dropWhile

theorem loosened_spaceChunk (c : Chunk) : Loosened c.text (spaceChunk c) := by
  cases c with
  | literal t => exact .refl t
  | code t =>
    have h := (loosened_foldl_rules _ Rule.loosens_all (splitComment t).1).append (.refl ((splitComment t).2.getD []))
    rwa [splitComment_append] at h

theorem Chunk.eq_of_isQuote {c : Char} (h : Chunk.isQuote c = true) : c = Char.ofNat 39 ∨ c = '"' := by
  rw [Chunk.isQuote, Bool.or_eq_true, decide_eq_true_eq, decide_eq_true_eq] at h
  exact h.imp (fun h => by rw [← h, Char.ofNat_toNat]) id

theorem Chunk.text_flush (done : List Chunk) (mk : Text → Chunk) (hmk : ∀ t, (mk t).text = t) (buf : Text) :
    (Chunk.flush done mk buf).reverse.flatMap Chunk.text = done.reverse.flatMap Chunk.text ++ buf.reverse := by
  unfold Chunk.flush
  split
  · rename_i h
    simp [List.isEmpty_iff.1 h]
  · simp [hmk]

theorem Chunk.text_splitAux (done : List Chunk) (buf : Text) (quote : Option Char) (t : Text) :
    (Chunk.splitAux done buf quote t).flatMap Chunk.text = done.reverse.flatMap Chunk.text ++ buf.reverse ++ t := by
  fun_induction Chunk.splitAux done buf quote t with
  | case1 done buf => rw [Chunk.text_flush done Chunk.code (fun _ => rfl)]; simp
  | case2 done buf q => rw [Chunk.text_flush done Chunk.literal (fun _ => rfl)]; simp
  | case3 done buf c rest hc ih =>
    rw [ih, Chunk.text_flush done Chunk.code (fun _ => rfl)]
    simp
  | case4 done buf c rest hc ih => rw [ih]; simp
  | case5 done buf q c rest ih => rw [ih]; simp
  | case6 done buf q rest _ ih => rw [ih]; simp [Chunk.text]
  | case7 done buf q c rest _ hc ih => rw [ih]; simp

theorem Chunk.text_split (t : Text) : (Chunk.split t).flatMap Chunk.text = t := by
  rw [Chunk.split, Chunk.text_splitAux]
  rfl

/-- **Keyword spacing loosens a text.** -/
theorem loosened_spaceKeywords (t : Text) : Loosened t (spaceKeywords t) := by
  have hchunks : ∀ cs : List Chunk, Loosened (cs.flatMap Chunk.text) (cs.flatMap spaceChunk) := by
    intro cs
    induction cs with
    | nil => exact .nil
    | cons c cs ih => exact (loosened_spaceChunk c).append ih
  have h := hchunks (Chunk.split t)
  rwa [Chunk.text_split] at h

/-- **Keyword spacing keeps the ink.** -/
@[simp] theorem ink_spaceKeywords (t : Text) : ink (spaceKeywords t) = ink t := (loosened_spaceKeywords t).ink_eq

theorem loosened_spaceIf (enable : Bool) (t : Text) : Loosened t (spaceIf enable t) := by
  unfold spaceIf
  split
  · exact loosened_spaceKeywords t
  · exact .refl t

@[simp] theorem ink_spaceIf (enable : Bool) (t : Text) : ink (spaceIf enable t) = ink t := (loosened_spaceIf enable t).ink_eq

/-- **Keyword spacing brings in nothing but spaces.** -/
theorem mem_spaceIf {enable : Bool} {c : Char} {t : Text} (h : c ∈ spaceIf enable t) : c = ' ' ∨ c ∈ t :=
  (loosened_spaceIf enable t).mem h

theorem mem_ink_iff {c : Char} {t : Text} : c ∈ ink t ↔ c ∈ t ∧ isBlank c = false := by
  simp [ink]

/-! ## One line -/

def padFinder : Finder Char Unit := fun _ s =>
  match s.takeWhile isPad with
  | [] => none
  | ws => some ((), ws.length)

theorem collapsePad_eq (t : Text) : collapsePad t = (scan padFinder t).flatMap (Piece.put (fun _ => [' '])) := rfl

theorem padFinder_blind : Finder.Blind padFinder := fun _ _ _ => rfl

theorem padFinder_char {c : Char} (hc : isPad c = false) (t : Text) : padFinder none (c :: t) = none := by
  rw [padFinder, List.takeWhile_cons_of_neg (by simp [hc])]

theorem padFinder_pad {g t : Text} (hg : g ≠ []) (hp : ∀ c ∈ g, isPad c = true) (ht : ∀ c ∈ t.head?, isPad c = false) :
    padFinder none (g ++ t) = some ((), g.length) := by
  have htake : (g ++ t).takeWhile isPad = g := by
    rw [List.takeWhile_append_of_pos hp]
    cases t with
    | nil => simp
    | cons c t => rw [List.takeWhile_cons_of_neg (by simp [ht c rfl]), List.append_nil]
  rw [padFinder, htake]
  cases g with
  | nil => exact absurd rfl hg
  | cons c g => rfl

@[simp] theorem collapsePad_nil : collapsePad [] = [] := rfl

theorem collapsePad_char {c : Char} (hc : isPad c = false) (t : Text) : collapsePad (c :: t) = c :: collapsePad t := by
  rw [collapsePad_eq, scan_item padFinder_blind (padFinder_char hc t)]
  rfl

theorem collapsePad_pad {g t : Text} (hg : g ≠ []) (hp : ∀ c ∈ g, isPad c = true) (ht : ∀ c ∈ t.head?, isPad c = false) :
    collapsePad (g ++ t) = ' ' :: collapsePad t := by
  have hfind := padFinder_pad hg hp ht
  obtain ⟨c, g, rfl⟩ := List.exists_cons_of_ne_nil hg
  have hmax : max (c :: g).length 1 = (c :: g).length := by simp
  rw [List.cons_append] at hfind
  rw [collapsePad_eq, List.cons_append, scan_hit padFinder_blind hfind, beyond, hmax, ← List.cons_append,
    List.drop_left]
  rfl

/-- **Induction through a text by its runs of spaces and tabs.** -/
theorem pad_induct {motive : Text → Prop} (nil : motive [])
    (pad : ∀ g t, g ≠ [] → (∀ c ∈ g, isPad c = true) → (∀ c ∈ t.head?, isPad c = false) → motive t → motive (g ++ t))
    (char : ∀ c t, isPad c = false → motive t → motive (c :: t)) : ∀ t, motive t
  | [] => nil
  | c :: t => by
    cases hc : isPad c with
    | false => exact char c t hc (pad_induct nil pad char t)
    | true =>
      have hsplit := List.takeWhile_append_dropWhile (p := isPad) (l := t)
      have hhead : ∀ d ∈ (t.dropWhile isPad).head?, isPad d = false := fun d hd => by
        have := List.head?_dropWhile_not isPad t
        rw [Option.mem_def.1 hd] at this
        exact this
      have hlen : (t.dropWhile isPad).length ≤ t.length := (List.dropWhile_sublist _).length_le
      rw [← hsplit, ← List.cons_append]
      refine pad _ _ (by simp) (fun d hd => ?_) hhead (pad_induct nil pad char _)
      rcases List.mem_cons.1 hd with rfl | hd
      · exact hc
      · exact List.all_eq_true.1 List.all_takeWhile d hd
termination_by t => t.length

@[simp] theorem ink_collapsePad (t : Text) : ink (collapsePad t) = ink t := by
  induction t using pad_induct with
  | nil => rfl
  | pad g t hg hp ht ih =>
    rw [collapsePad_pad hg hp ht, ink_append, ink_of_all_blank (fun c hc => isBlank_of_isPad (hp c hc)),
      ink_cons_of_blank isBlank_space, ih]
    rfl
  | char c t hc ih => rw [collapsePad_char hc, ink_cons, ih, ← ink_cons]

theorem mem_collapsePad {c : Char} {t : Text} (h : c ∈ collapsePad t) : c ∈ t ∨ c = ' ' := by
  induction t using pad_induct with
  | nil => exact Or.inl h
  | pad g t hg hp ht ih =>
    rw [collapsePad_pad hg hp ht] at h
    rcases List.mem_cons.1 h with h | h
    · exact Or.inr h
    · exact (ih h).imp (List.mem_append_right g) id
  | char d t hd ih =>
    rw [collapsePad_char hd] at h
    rcases List.mem_cons.1 h with rfl | h
    · exact Or.inl List.mem_cons_self
    · exact (ih h).imp (List.mem_cons_of_mem d) id

@[simp] theorem ink_onOneLine (ls : List Text) : ink (onOneLine ls) = ls.flatMap ink := by
  rw [onOneLine, ink_trim, ink_collapsePad, ink_join (by simp)]

end Perl
end EpFormat
