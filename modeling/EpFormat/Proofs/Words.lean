import EpFormat.Template.Depth
import EpFormat.Proofs.Respace
import EpFormat.Proofs.TagLine
/-!
# Words — the words of a text

The words of a text are its longest runs of word characters.  A word stands on its own in a text exactly if it is one of
them (`finds_word_iff`).  Respacing a text keeps its words, and so does writing a line with its tags, for the marks
of a tag are no word characters (`words_line`).
-/
namespace EpFormat

open Template Template.Tag

/-- The longest runs of word characters. -/
def words (t : Text) : List Text := (t.splitOnP (fun c => !isWord c)).filter (fun w => !w.isEmpty)

/-- **Words end at a character that is in none.** -/
theorem words_append_cons {c : Char} (hc : isWord c = false) (s t : Text) : words (s ++ c :: t) = words s ++ words t := by
  rw [words, List.splitOnP_append_cons s t (by simp [hc]), List.filter_append, words, words]

theorem words_cons {c : Char} (hc : isWord c = false) (t : Text) : words (c :: t) = words t :=
  words_append_cons hc [] t

theorem words_append_left : ∀ {a : Text}, (∀ c ∈ a, isWord c = false) → ∀ t, words (a ++ t) = words t
  | [], _, _ => rfl
  | c :: a, ha, t => by
    rw [List.cons_append, words_cons (ha c List.mem_cons_self),
      words_append_left (fun d hd => ha d (List.mem_cons_of_mem c hd))]

theorem words_append_right {b : Text} (hb : ∀ c ∈ b, isWord c = false) (t : Text) : words (t ++ b) = words t := by
  cases b with
  | nil => rw [List.append_nil]
  | cons c b =>
    have hrest : words b = [] := by
      have := words_append_left (fun d hd => hb d (List.mem_cons_of_mem c hd)) []
      rwa [List.append_nil] at this
    rw [words_append_cons (hb c List.mem_cons_self), hrest, List.append_nil]

theorem isWord_of_allBlank {b : Text} (hb : allBlank b = true) : ∀ c ∈ b, isWord c = false := fun c hc =>
  isWord_of_isBlank (allBlank_iff.1 hb c hc)

/-- Aligned texts have the same words, also after a beginning that may end in the middle of one. -/
theorem Aligned.words_append {s t : Text} (h : Aligned s t) : ∀ p : Text, words (p ++ s) = words (p ++ t) := by
  have hgap : ∀ {g : Text}, g ≠ [] → allBlank g = true → ∀ p r : Text, words (p ++ (g ++ r)) = words p ++ words r := by
    intro g hg hb p r
    obtain ⟨c, g, rfl⟩ := List.exists_cons_of_ne_nil hg
    have hword := isWord_of_allBlank hb
    rw [List.cons_append, words_append_cons (hword c List.mem_cons_self),
      words_append_left (fun d hd => hword d (List.mem_cons_of_mem c hd))]
  induction h with
  | blank hs ht =>
    intro p
    rw [words_append_right (isWord_of_allBlank hs), words_append_right (isWord_of_allBlank ht)]
  | @char c s t h ih =>
    intro p
    rw [List.append_cons p c s, List.append_cons p c t, ih]
  | gap hg hk hbg hbk h ih =>
    intro p
    rw [hgap hg hbg, hgap hk hbk]
    exact congrArg (words p ++ ·) (ih [])

theorem words_trimLeft (t : Text) : words (Text.trimLeft t) = words t := by
  obtain ⟨a, ha, ht⟩ := Text.exists_trimLeft t
  conv => rhs; rw [ht, words_append_left (isWord_of_allBlank ha)]

theorem Respaced.words_eq {s t : Text} (h : Respaced s t) : words s = words t := by
  rw [← words_trimLeft s, ← words_trimLeft t]
  exact Aligned.words_append h []

/-! ## A word on its own -/

/-- The runs of word characters that begin at a place or after it, the characters before the place known. -/
def runsFrom (prev : Option Char) (t : Text) : List Text :=
  if prev.any isWord then (t.splitOnP (fun c => !isWord c)).tail else t.splitOnP (fun c => !isWord c)

theorem splitOnP_head : ∀ t : Text, ∃ rest, t.splitOnP (fun c => !isWord c) = t.takeWhile isWord :: rest
  | [] => ⟨[], rfl⟩
  | c :: t => by
    rw [List.splitOnP_cons_eq_if_modifyHead]
    cases hc : isWord c with
    | false => exact ⟨_, by rw [List.takeWhile_cons_of_neg (by simp [hc])]; rfl⟩
    | true =>
      obtain ⟨rest, hrest⟩ := splitOnP_head t
      exact ⟨rest, by rw [hrest, List.takeWhile_cons_of_pos hc]; rfl⟩

/-- The first run is the one that begins here, if one does. -/
theorem mem_runsFrom_cons {w : Text} (hne : w ≠ []) (prev : Option Char) (c : Char) (t : Text) :
    w ∈ runsFrom prev (c :: t) ↔
      (prev.any isWord = false ∧ isWord c = true ∧ c :: t.takeWhile isWord = w) ∨ w ∈ runsFrom (some c) t := by
  obtain ⟨rest, hrest⟩ := splitOnP_head t
  have hsome : (some c).any isWord = isWord c := rfl
  simp only [runsFrom, hsome, List.splitOnP_cons_eq_if_modifyHead, hrest]
  cases hp : prev.any isWord <;> cases hc : isWord c <;> simp [hne, eq_comm]

theorem Text.after?_append (w r : Text) : Text.after? w (w ++ r) = some r := by
  induction w with
  | nil => rfl
  | cons a w ih => rw [List.cons_append, Text.after?, if_pos rfl, ih]

theorem wordFinder_isSome_iff {w : Text} (hw : ∀ c ∈ w, isWord c = true) (hne : w ≠ []) (prev : Option Char) (c : Char)
    (t : Text) : (wordFinder w prev (c :: t)).isSome = true ↔
      prev.any isWord = false ∧ isWord c = true ∧ c :: t.takeWhile isWord = w := by
  constructor
  · intro h
    unfold wordFinder at h
    split at h
    · cases h
    · rename_i rest hrest
      split at h
      · rename_i hb
        rw [Bool.and_eq_true] at hb
        have ht := Text.after?_eq_some hrest
        obtain ⟨d, w, rfl⟩ := List.exists_cons_of_ne_nil hne
        obtain ⟨rfl, rfl⟩ := List.cons.inj ht
        have hc := hw c List.mem_cons_self
        have hstop : rest.takeWhile isWord = [] := by
          cases rest with
          | nil => rfl
          | cons e rest => exact List.takeWhile_cons_of_neg (by simpa [startsWord] using hb.2)
        refine ⟨?_, hc, ?_⟩
        · simpa [atWordBoundary, startsWord, hc] using hb.1
        · show c :: (w ++ rest).takeWhile isWord = c :: w
          rw [List.takeWhile_append_of_pos (fun e he => hw e (List.mem_cons_of_mem c he)), hstop, List.append_nil]
      · cases h
  · rintro ⟨hp, hc, rfl⟩
    have hafter : Text.after? (c :: t.takeWhile isWord) (c :: t) = some (t.dropWhile isWord) := by
      have := Text.after?_append (c :: t.takeWhile isWord) (t.dropWhile isWord)
      rwa [List.cons_append, List.takeWhile_append_dropWhile] at this
    have hrest : startsWord (t.dropWhile isWord) = false := by
      have := List.head?_dropWhile_not isWord t
      cases hd : t.dropWhile isWord with
      | nil => rfl
      | cons e r => rw [hd] at this; exact this
    have hhere : startsWord (c :: t) = true := hc
    simp [wordFinder, hafter, hrest, atWordBoundary, hp, hhere]

/-- **A word is found on its own exactly if it is among the words of the text.** -/
theorem finds_word_iff {w : Text} (hw : ∀ c ∈ w, isWord c = true) (hne : w ≠ []) (t : Text) :
    finds (wordFinder w) t ≠ [] ↔ w ∈ words t := by
  have hfrom : ∀ prev t, (scanFrom (wordFinder w) prev t).filterMap Piece.found? ≠ [] ↔ w ∈ runsFrom prev t := by
    intro prev t
    induction prev, t using scanFrom_induct (wordFinder w) with
    | nil prev =>
      refine iff_of_false (by simp [scanFrom, scanAux]) ?_
      unfold runsFrom
      split <;> simp [hne]
    | hit prev x rest a n h _ =>
      have hsome := (wordFinder_isSome_iff hw hne prev x rest).1 (by rw [h]; rfl)
      rw [scanFrom_hit h, mem_runsFrom_cons hne]
      exact iff_of_true (by simp [Piece.found?]) (Or.inl hsome)
    | item prev x rest h ih =>
      have hnone : ¬ _ := mt (wordFinder_isSome_iff hw hne prev x rest).2 (by simp [h])
      rw [scanFrom_item h, mem_runsFrom_cons hne, or_iff_right hnone, ← ih]
      rfl
  have hwords : w ∈ words t ↔ w ∈ runsFrom none t := by simp [words, runsFrom, hne]
  rw [hwords]
  exact hfrom none t

theorem hasBegin_eq (t : Text) : hasBegin t = decide (txt "begin" ∈ words t) := by
  have h := finds_word_iff (w := txt "begin") (Text.forall_mem_of_all (by decide)) (by decide) t
  rw [hasBegin, Bool.eq_iff_iff, decide_eq_true_iff, ← h]
  simp

/-! ## Words of a line as it is written -/

theorem isWord_marks (left : Bool) (kind : Kind) : ∀ c ∈ chomp left ++ kind.mark, isWord c = false := by
  cases left <;> cases kind <;> exact Text.forall_mem_of_all (by decide)

theorem isWord_chomp (right : Bool) : ∀ c ∈ chomp right, isWord c = false := by
  cases right <;> exact Text.forall_mem_of_all (by decide)

variable {τ : Treatment}

theorem words_inside (hτ : ∀ kind t, words (τ.code kind t) = words t) (u : Text) :
    words (τ.inside (ofInside u)) = words u := by
  have hu : words u = words (ofInside u).body := by
    conv => lhs; rw [← inside_ofInside u, Tag.inside, words_append_right (isWord_chomp _), words_append_left (isWord_marks _ _)]
  rw [hu]
  by_cases hk : (ofInside u).kind = .comment
  · rw [Treatment.inside]
    simp only [hk]
    rw [words_append_right (isWord_chomp _)]
  · have hend : ∀ c ∈ (if (ofInside u).rightChomp then ['-'] else [' ']), isWord c = false := by
      split <;> exact Text.forall_mem_of_all (by decide)
    rw [τ.inside_of_ne_comment hk, words_append_left (isWord_marks _ _), words_append_right hend, words_cons (by decide), hτ]

theorem words_line_append (hτ : ∀ kind t, words (τ.code kind t) = words t) (row : Text) :
    ∀ p : Text, words (p ++ τ.line true row) = words (p ++ row) := by
  induction row using tag_induct with
  | nil => exact fun p => rfl
  | tag u post hu ih =>
    intro p
    have hsplit : ∀ v w : Text, words (p ++ '<' :: '%' :: (v ++ '%' :: '>' :: w)) = words p ++ (words v ++ words w) := by
      intro v w
      rw [words_append_cons (by decide), words_cons (by decide), words_append_cons (by decide), words_cons (by decide)]
    rw [τ.line_tag hu, hsplit, hsplit, words_inside hτ]
    exact congrArg (fun w => words p ++ (words u ++ w)) (ih [])
  | char c rest hc ih =>
    intro p
    rw [τ.line_char hc, List.append_cons p c, List.append_cons p c rest, ih]

/-- **A line as it is written has the words of the line.** -/
theorem words_line (hτ : ∀ kind t, words (τ.code kind t) = words t) (row : Text) : words (τ.line true row) = words row :=
  words_line_append hτ row []

end EpFormat
