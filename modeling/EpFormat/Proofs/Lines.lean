import EpFormat.Text.Lines
/-!
# Lines — rows, lines and line ends of a text

A row stands in its text as it is (`infix_of_mem_rows`), and a word without line ends that stands in a text with unified
line ends stood there before (`infix_of_infix_unify`).  Rows put together are cut apart again where they were
(`Text.rows_unrows`, `Text.lines_unrows`, `Text.unrows_lines`).  A line feed parts what stands before it from what stands
after it (`Text.rows_append`, `Text.lines_append`, `Eol.unify_append`), and line ends that are written over a text are found in
it and unified again (`Eol.detect_apply`, `Eol.unify_apply`).
-/
namespace EpFormat

def Text.Unbroken (row : Text) : Prop := ∀ c ∈ row, isLineBreak c = false

instance (row : Text) : Decidable row.Unbroken := List.decidableBAll _ row

theorem Text.Unbroken.feed_not_mem {row : Text} (h : row.Unbroken) : '\n' ∉ row := fun hm => absurd (h _ hm) (by decide)

theorem Text.Unbroken.return_not_mem {row : Text} (h : row.Unbroken) : '\r' ∉ row := fun hm => absurd (h _ hm) (by decide)

theorem Text.startsWith_iff {word t : Text} : Text.startsWith word t = true ↔ word <+: t := by
  rw [Text.startsWith]
  fun_induction Text.after? word t with
  | case1 t => simp
  | case2 => simp
  | case3 a word t ih => rw [ih, List.cons_prefix_cons]; simp
  | case4 a word d t hne => simp [List.cons_prefix_cons, hne]

theorem Text.endsWith_iff {word t : Text} : Text.endsWith word t = true ↔ word <:+ t := by
  rw [Text.endsWith, Text.startsWith_iff, List.reverse_prefix]

theorem Text.contains_eq_true_iff {word : Text} : ∀ {t : Text}, Text.contains word t = true ↔ word <:+: t
  | [] => by simp [Text.contains]
  | c :: t => by
    rw [Text.contains, Bool.or_eq_true, Text.contains_eq_true_iff, List.infix_cons_iff, Text.startsWith_iff]

theorem Text.contains_eq_false_iff {word t : Text} : Text.contains word t = false ↔ ¬ word <:+: t := by
  rw [← Text.contains_eq_true_iff, Bool.not_eq_true]

theorem Text.mem_join {sep : Text} {c : Char} : ∀ {ls : List Text}, c ∈ Text.join sep ls → c ∈ sep ∨ ∃ l ∈ ls, c ∈ l
  | [], h => by cases h
  | [l], h => Or.inr ⟨l, List.mem_singleton_self l, by simpa [Text.join] using h⟩
  | l :: m :: ls, h => by
    rw [Text.join, List.intercalate_cons_cons, List.mem_append, List.mem_append] at h
    rcases h with (h | h) | h
    · exact Or.inr ⟨l, List.mem_cons_self, h⟩
    · exact Or.inl h
    · rcases @Text.mem_join sep c (m :: ls) h with h | ⟨k, hk, h⟩
      · exact Or.inl h
      · exact Or.inr ⟨k, List.mem_cons_of_mem l hk, h⟩

/-! ## Rows -/

@[simp] theorem Text.rows_nil : Text.rows [] = [[]] := rfl

theorem Text.rows_feed (t : Text) : Text.rows ('\n' :: t) = [] :: Text.rows t := rfl

theorem Text.rows_ne_nil (t : Text) : Text.rows t ≠ [] := by
  cases t with
  | nil => simp
  | cons c t =>
    simp only [Text.rows, List.foldr_cons]
    split
    · simp
    · split <;> simp

theorem Text.rows_char {c : Char} (hc : c ≠ '\n') {t r : Text} {rs : List Text} (h : Text.rows t = r :: rs) :
    Text.rows (c :: t) = (c :: r) :: rs := by
  simp only [Text.rows, List.foldr_cons, if_neg hc] at h ⊢
  rw [h]

theorem rows_isInfix : ∀ {t r : Text} {rs : List Text}, Text.rows t = r :: rs → r <+: t ∧ ∀ x ∈ rs, x <:+: t
  | [], r, rs, h => by
    obtain ⟨rfl, rfl⟩ := List.cons.inj h
    simp
  | c :: t, r, rs, h => by
    obtain ⟨r', rs', ht⟩ := List.exists_cons_of_ne_nil (Text.rows_ne_nil t)
    have ih := rows_isInfix ht
    have hinf : ∀ {x : Text}, x <:+: t → x <:+: c :: t := fun hx => hx.trans (List.suffix_cons c t).isInfix
    by_cases hc : c = '\n'
    · subst hc
      rw [Text.rows_feed, ht] at h
      obtain ⟨rfl, rfl⟩ := List.cons.inj h
      refine ⟨List.nil_prefix, fun x hx => hinf ?_⟩
      rcases List.mem_cons.1 hx with rfl | hx
      · exact ih.1.isInfix
      · exact ih.2 x hx
    · rw [Text.rows_char hc ht] at h
      obtain ⟨rfl, rfl⟩ := List.cons.inj h
      exact ⟨List.cons_prefix_cons.2 ⟨rfl, ih.1⟩, fun x hx => hinf (ih.2 x hx)⟩

theorem infix_of_mem_rows {t row : Text} (h : row ∈ Text.rows t) : row <:+: t := by
  obtain ⟨r, rs, ht⟩ := List.exists_cons_of_ne_nil (Text.rows_ne_nil t)
  rw [ht] at h
  rcases List.mem_cons.1 h with rfl | h
  · exact (rows_isInfix ht).1.isInfix
  · exact (rows_isInfix ht).2 row h

theorem feed_not_mem_rows : ∀ {t row : Text}, row ∈ Text.rows t → '\n' ∉ row
  | [], row, h => by
    obtain rfl : row = [] := by simpa using h
    simp
  | c :: t, row, h => by
    obtain ⟨r, rs, ht⟩ := List.exists_cons_of_ne_nil (Text.rows_ne_nil t)
    by_cases hc : c = '\n'
    · subst hc
      rw [Text.rows_feed] at h
      rcases List.mem_cons.1 h with rfl | h
      · simp
      · exact feed_not_mem_rows h
    · rw [Text.rows_char hc ht] at h
      rcases List.mem_cons.1 h with rfl | h
      · have := @feed_not_mem_rows t r (by rw [ht]; exact List.mem_cons_self)
        simpa [Ne.symm hc] using this
      · exact @feed_not_mem_rows t row (by rw [ht]; exact List.mem_cons_of_mem _ h)

/-! ## Lines -/

namespace Text

theorem linesKeepAux_older (older new : List Text) (line t : Text) :
    linesKeepAux (new ++ older) line t = older.reverse ++ linesKeepAux new line t := by
  fun_induction linesKeepAux new line t with
  | case1 new line =>
    rw [linesKeepAux]
    split <;> simp
  | case2 new line rest ih => rw [← ih, linesKeepAux, List.cons_append]
  | case3 new line c rest hne hc ih => rw [← ih, linesKeepAux.eq_3 _ _ _ _ hne, if_pos hc, List.cons_append]
  | case4 new line c rest hne hc ih => rw [← ih, linesKeepAux.eq_3 _ _ _ _ hne, if_neg hc]

theorem linesKeepAux_done (done : List Text) (line t : Text) :
    linesKeepAux done line t = done.reverse ++ linesKeepAux [] line t := linesKeepAux_older done [] line t

theorem linesKeepAux_append : ∀ {l : Text}, (∀ c ∈ l, isLineBreak c = false) → ∀ line rest : Text,
    linesKeepAux [] line (l ++ rest) = linesKeepAux [] (l.reverse ++ line) rest
  | [], _, _, _ => rfl
  | c :: l, hl, line, rest => by
    have hc := hl c List.mem_cons_self
    have hne : ∀ more, c = '\r' → l ++ rest = '\n' :: more → False := by
      rintro more rfl
      exact absurd hc (by decide)
    rw [List.cons_append, linesKeepAux.eq_3 _ _ _ _ hne, if_neg (by simp [hc]),
      linesKeepAux_append (fun d hd => hl d (List.mem_cons_of_mem _ hd))]
    simp

@[simp] theorem lines_nil : lines [] = [] := rfl

theorem filter_unbroken {l : Text} (hl : ∀ c ∈ l, isLineBreak c = false) : l.filter (fun c => !isLineBreak c) = l :=
  List.filter_eq_self.2 (fun c hc => by rw [hl c hc]; rfl)

theorem lines_unbroken {l : Text} (hl : ∀ c ∈ l, isLineBreak c = false) (hne : l ≠ []) : lines l = [l] := by
  have h := linesKeepAux_append hl [] []
  rw [List.append_nil, List.append_nil, linesKeepAux] at h
  rw [lines, linesKeep, h, if_neg (by simpa using hne)]
  simp [filter_unbroken hl]

theorem lines_break {l : Text} (hl : ∀ c ∈ l, isLineBreak c = false) {c : Char} (hc : isLineBreak c = true) {rest : Text}
    (hpair : ∀ more, c = '\r' → rest = '\n' :: more → False) : lines (l ++ c :: rest) = l :: lines rest := by
  rw [lines, linesKeep, linesKeepAux_append hl, linesKeepAux.eq_3 _ _ _ _ hpair, if_pos hc, linesKeepAux_done, lines,
    linesKeep]
  simp [hc, filter_unbroken hl]

theorem lines_pair {l : Text} (hl : ∀ c ∈ l, isLineBreak c = false) (rest : Text) :
    lines (l ++ '\r' :: '\n' :: rest) = l :: lines rest := by
  rw [lines, linesKeep, linesKeepAux_append hl, linesKeepAux, linesKeepAux_done, lines, linesKeep]
  simp [filter_unbroken hl, show isLineBreak '\r' = true by decide, show isLineBreak '\n' = true by decide]

/-- **Induction through a text line by line**: a boundary is one character, or a carriage return and a line feed. -/
theorem lines_induct {motive : Text → Prop} (nil : motive [])
    (last : ∀ l, (∀ c ∈ l, isLineBreak c = false) → l ≠ [] → motive l)
    (single : ∀ l c rest, (∀ d ∈ l, isLineBreak d = false) → isLineBreak c = true →
      (∀ more, c = '\r' → rest = '\n' :: more → False) → motive rest → motive (l ++ c :: rest))
    (pair : ∀ l rest, (∀ d ∈ l, isLineBreak d = false) → motive rest → motive (l ++ '\r' :: '\n' :: rest))
    (t : Text) : motive t := by
  have hsplit := List.takeWhile_append_dropWhile (p := fun c => !isLineBreak c) (l := t)
  have hl : ∀ c ∈ t.takeWhile (fun c => !isLineBreak c), isLineBreak c = false := fun c hc => by
    simpa using List.all_eq_true.1 List.all_takeWhile c hc
  have hlen := congrArg List.length hsplit
  rw [List.length_append] at hlen
  rw [← hsplit]
  cases hd : t.dropWhile (fun c => !isLineBreak c) with
  | nil =>
    rw [List.append_nil]
    cases ht : t.takeWhile (fun c => !isLineBreak c) with
    | nil => exact nil
    | cons c l => exact last _ (ht ▸ hl) (by simp)
  | cons c rest =>
    have hrest : rest.length < t.length := by
      rw [hd, List.length_cons] at hlen
      omega
    have hc : isLineBreak c = true := by
      have hne : t.dropWhile (fun c => !isLineBreak c) ≠ [] := by simp [hd]
      have := List.head_dropWhile_not (fun c => !isLineBreak c) hne
      simpa [hd] using this
    by_cases hp : ∃ more, c = '\r' ∧ rest = '\n' :: more
    · obtain ⟨more, rfl, rfl⟩ := hp
      have hmore : more.length < t.length := by
        rw [List.length_cons] at hrest
        omega
      exact pair _ more hl (lines_induct nil last single pair more)
    · exact single _ c rest hl hc (fun more h₁ h₂ => hp ⟨more, h₁, h₂⟩) (lines_induct nil last single pair rest)
termination_by t.length

theorem lines_append_of_single {l : Text} (hl : ∀ d ∈ l, isLineBreak d = false) {c : Char} (hc : isLineBreak c = true)
    {more : Text} (hp : ∀ s, c = '\r' → more = '\n' :: s → False) (hne : c = '\r' → more ≠ []) (r : Text) :
    lines (l ++ c :: more ++ r) = l :: lines (more ++ r) := by
  rw [List.append_assoc, List.cons_append]
  refine lines_break hl hc (fun s hr hs => ?_)
  obtain ⟨d, m, rfl⟩ := List.exists_cons_of_ne_nil (hne hr)
  exact hp m hr (by rw [(List.cons.inj hs).1])

theorem lines_append_of_pair {l : Text} (hl : ∀ d ∈ l, isLineBreak d = false) (more r : Text) :
    lines (l ++ '\r' :: '\n' :: more ++ r) = l :: lines (more ++ r) := by
  rw [List.append_assoc]
  exact lines_pair hl _

/-- A line feed ends a line, also where a carriage return comes before it. -/
theorem lines_append_feed (t rest : Text) : lines (t ++ '\n' :: rest) = lines (t ++ ['\n']) ++ lines rest := by
  have hfeed : ∀ {l : Text}, (∀ c ∈ l, isLineBreak c = false) → ∀ r, lines (l ++ '\n' :: r) = l :: lines r := fun hl _ =>
    lines_break hl (by decide) (fun _ h => absurd h (by decide))
  induction t using lines_induct with
  | nil => exact hfeed (l := []) (by simp) rest
  | last l hl hne => rw [hfeed hl, hfeed hl, lines_nil, List.singleton_append]
  | single l c more hl hc hp ih =>
    by_cases hr : c = '\r' ∧ more = []
    · obtain ⟨rfl, rfl⟩ := hr
      have hpair : ∀ r, lines (l ++ ['\r'] ++ '\n' :: r) = l :: lines r := fun r => by
        rw [List.append_assoc]
        exact lines_pair hl r
      rw [hpair, hpair, lines_nil, List.singleton_append]
    · have hne : c = '\r' → more ≠ [] := fun hc he => hr ⟨hc, he⟩
      rw [lines_append_of_single hl hc hp hne, lines_append_of_single hl hc hp hne, ih]
      rfl
  | pair l more hl ih =>
    rw [lines_append_of_pair hl, lines_append_of_pair hl, ih]
    rfl

theorem lines_append {x : Text} (hx : x.getLast? = some '\n') (y : Text) : lines (x ++ y) = lines x ++ lines y := by
  obtain ⟨t, rfl⟩ := List.getLast?_eq_some_iff.1 hx
  rw [List.append_assoc, List.singleton_append, lines_append_feed]

/-- A line feed at the end of a text ends its last line, or makes an empty one. -/
theorem lines_feed (t : Text) : lines (t ++ ['\n']) = lines t ∨ lines (t ++ ['\n']) = lines t ++ [[]] := by
  have hfeed : ∀ {l : Text}, (∀ c ∈ l, isLineBreak c = false) → lines (l ++ ['\n']) = [l] := fun hl =>
    lines_break hl (by decide) (fun _ h => absurd h (by decide))
  induction t using lines_induct with
  | nil => exact Or.inr (hfeed (l := []) (by simp))
  | last l hl hne => exact Or.inl (by rw [hfeed hl, lines_unbroken hl hne])
  | single l c more hl hc hp ih =>
    rw [lines_break hl hc hp]
    by_cases hr : c = '\r' ∧ more = []
    · obtain ⟨rfl, rfl⟩ := hr
      rw [List.append_assoc]
      exact Or.inl (lines_pair hl [])
    · rw [lines_append_of_single hl hc hp (fun hc he => hr ⟨hc, he⟩)]
      exact ih.imp (congrArg (l :: ·)) (congrArg (l :: ·))
  | pair l more hl ih =>
    rw [lines_append_of_pair hl, lines_pair hl]
    exact ih.imp (congrArg (l :: ·)) (congrArg (l :: ·))

/-! ## Rows put together again -/

theorem unrows_concat : ∀ (ls : List Text) (l : Text), unrows (ls ++ [l]) = ls.flatMap (· ++ ['\n']) ++ l
  | [], l => by simp [unrows, join]
  | [k], l => by simp [unrows, join, List.intercalate_cons_cons]
  | k :: m :: ls, l => by
    have ih := unrows_concat (m :: ls) l
    rw [unrows, join] at ih ⊢
    rw [List.cons_append, List.cons_append, List.intercalate_cons_cons, ← List.cons_append, ih,
      @List.flatMap_cons _ _ k, List.append_assoc (k ++ ['\n'])]

theorem return_not_mem_unrows {rs : List Text} (h : ∀ r ∈ rs, '\r' ∉ r) : '\r' ∉ unrows rs := by
  intro hm
  rcases mem_join hm with hm | ⟨r, hr, hm⟩
  · exact absurd hm (by decide)
  · exact h r hr hm

theorem unrows_append (a : List Text) {b : List Text} (h : b ≠ []) : unrows (a ++ b) = unrows (a ++ [[]]) ++ unrows b := by
  obtain ⟨ks, k, rfl⟩ := (List.eq_nil_or_concat b).resolve_left h
  rw [List.concat_eq_append, ← List.append_assoc, unrows_concat, unrows_concat, unrows_concat, List.flatMap_append,
    List.append_nil, List.append_assoc]

/-- **The lines of rows put together are the rows**, save for an empty last row. -/
theorem lines_unrows {l : Text} (hl : ∀ c ∈ l, isLineBreak c = false) : ∀ {ls : List Text},
    (∀ k ∈ ls, ∀ c ∈ k, isLineBreak c = false) → lines (unrows (ls ++ [l])) = ls ++ (if l.isEmpty then [] else [l])
  | [], _ => by
    rw [unrows_concat]
    cases l with
    | nil => rfl
    | cons c l => exact lines_unbroken hl (by simp)
  | k :: ls, hls => by
    have ih := lines_unrows hl (fun m hm => hls m (List.mem_cons_of_mem k hm))
    rw [unrows_concat] at ih ⊢
    rw [List.flatMap_cons, List.append_assoc, List.append_assoc, List.singleton_append,
      lines_break (hls k List.mem_cons_self) (by decide) (fun _ h => absurd h (by decide)), ih, List.cons_append]

theorem mem_of_mem_lines_unrows {rs : List Text} (hrs : ∀ r ∈ rs, ∀ c ∈ r, isLineBreak c = false) {l : Text}
    (h : l ∈ lines (unrows rs)) : l ∈ rs := by
  rcases List.eq_nil_or_concat rs with rfl | ⟨ks, k, hk⟩
  · cases h
  · rw [List.concat_eq_append] at hk
    subst hk
    rw [lines_unrows (hrs k (by simp)) (fun r hr => hrs r (by simp [hr]))] at h
    split at h
    · exact List.mem_append_left [k] (by simpa using h)
    · exact h

theorem unrows_cons {rs : List Text} (h : rs ≠ []) (r : Text) : unrows (r :: rs) = r ++ '\n' :: unrows rs := by
  obtain ⟨k, ks, rfl⟩ := List.exists_cons_of_ne_nil h
  simp [unrows, join]

theorem unrows_rows (t : Text) : unrows (rows t) = t := by
  induction t with
  | nil => rfl
  | cons c t ih =>
    by_cases hc : c = '\n'
    · rw [hc, rows_feed, unrows_cons (rows_ne_nil t), ih]
      rfl
    · obtain ⟨r, rs, hrs⟩ := List.exists_cons_of_ne_nil (rows_ne_nil t)
      rw [hrs] at ih
      rw [rows_char hc hrs, ← ih]
      cases rs with
      | nil => rfl
      | cons k ks =>
        have hcons : ∀ x, unrows (x :: k :: ks) = x ++ '\n' :: unrows (k :: ks) := unrows_cons (by simp)
        rw [hcons, hcons, List.cons_append]

theorem rows_unbroken {l : Text} (h : '\n' ∉ l) : rows l = [l] := by
  induction l with
  | nil => rfl
  | cons c l ih =>
    exact rows_char (fun hc => h (by simp [hc])) (ih (fun hm => h (List.mem_cons_of_mem c hm)))

/-- **A line feed parts the rows before it from the rows after it.** -/
theorem rows_append (t rest : Text) : rows (t ++ '\n' :: rest) = rows t ++ rows rest := by
  induction t with
  | nil => exact rows_feed rest
  | cons c t ih =>
    by_cases hc : c = '\n'
    · rw [hc, List.cons_append, rows_feed, rows_feed, ih, List.cons_append]
    · obtain ⟨r, rs, hrs⟩ := List.exists_cons_of_ne_nil (rows_ne_nil t)
      rw [hrs, List.cons_append] at ih
      rw [List.cons_append, rows_char hc ih, rows_char hc hrs, List.cons_append]

theorem rows_append_feed {l : Text} (h : '\n' ∉ l) (rest : Text) : rows (l ++ '\n' :: rest) = l :: rows rest := by
  rw [rows_append, rows_unbroken h, List.singleton_append]

/-- **The rows of rows put together are the rows.** -/
theorem rows_unrows {l : Text} (hl : '\n' ∉ l) : ∀ {ls : List Text}, (∀ k ∈ ls, '\n' ∉ k) →
    rows (unrows (ls ++ [l])) = ls ++ [l]
  | [], _ => by rw [unrows_concat]; exact rows_unbroken hl
  | k :: ls, hls => by
    have ih := rows_unrows hl (fun m hm => hls m (List.mem_cons_of_mem k hm))
    rw [unrows_concat] at ih ⊢
    rw [List.flatMap_cons, List.append_assoc, List.append_assoc, List.singleton_append,
      rows_append_feed (hls k List.mem_cons_self), ih, List.cons_append]

theorem getLast?_unrows {l : Text} (h : l ≠ []) (ls : List Text) : (unrows (ls ++ [l])).getLast? = l.getLast? := by
  rw [unrows_concat, List.getLast?_append]
  cases hl : l.getLast? with
  | none => exact absurd (List.getLast?_eq_none_iff.1 hl) h
  | some c => rfl

theorem unrows_feed {ls : List Text} (h : ls ≠ []) : unrows (ls ++ [[]]) = unrows ls ++ ['\n'] := by
  rcases List.eq_nil_or_concat ls with rfl | ⟨ks, k, hk⟩
  · exact absurd rfl h
  · rw [hk, List.concat_eq_append, unrows_concat, unrows_concat]
    simp

/-- **Rows put together, cut into lines and put together again are what they were.** -/
theorem unrows_lines {rs : List Text} (hrs : ∀ r ∈ rs, ∀ c ∈ r, isLineBreak c = false) :
    unrows (lines (unrows rs)) ++ (if (unrows rs).getLast? = some '\n' then ['\n'] else []) = unrows rs := by
  rcases List.eq_nil_or_concat rs with rfl | ⟨ks, k, hk⟩
  · rfl
  · rw [List.concat_eq_append] at hk
    subst hk
    have hk := hrs k (by simp)
    rw [lines_unrows hk (fun l hl => hrs l (by simp [hl]))]
    by_cases hne : k = []
    · subst hne
      cases ks with
      | nil => rfl
      | cons l ks =>
        rw [unrows_feed (by simp), if_pos (by simp)]
        simp
    · have hlast : k.getLast? ≠ some '\n' := fun h => absurd (hk _ (List.mem_of_getLast? h)) (by decide)
      rw [getLast?_unrows hne, if_neg (by simpa using hne), if_neg hlast, List.append_nil]

end Text

/-! ## Unified line ends -/

namespace Eol

theorem unifyAux_done : ∀ (t done : Text) (afterCr : Bool),
    unifyAux done afterCr t = done.reverse ++ unifyAux [] afterCr t
  | [], done, _ => by simp [unifyAux]
  | c :: t, done, afterCr => by
    rw [unifyAux, unifyAux]
    split
    · rw [unifyAux_done t ('\n' :: done), unifyAux_done t ['\n']]
      simp
    · split
      · rw [unifyAux_done t done]
      · rw [unifyAux_done t (c :: done), unifyAux_done t [c]]
        simp

theorem unifyAux_return (t : Text) (afterCr : Bool) :
    unifyAux [] afterCr ('\r' :: t) = '\n' :: unifyAux [] true t := by
  rw [unifyAux, if_pos rfl, unifyAux_done]
  rfl

theorem unifyAux_pair (t : Text) : unifyAux [] true ('\n' :: t) = unifyAux [] false t := rfl

theorem unifyAux_char {c : Char} {afterCr : Bool} (hc : c ≠ '\r') (hn : c ≠ '\n' ∨ afterCr = false) (t : Text) :
    unifyAux [] afterCr (c :: t) = c :: unifyAux [] false t := by
  have hpair : ¬ (c = '\n' && afterCr) = true := by
    rcases hn with hn | hn <;> simp [hn]
  rw [unifyAux, if_neg hc, if_neg hpair, unifyAux_done]
  rfl

theorem prefix_of_prefix_unifyAux : ∀ {t w : Text}, '\n' ∉ w → w <+: unifyAux [] false t → w <+: t
  | [], w, _, h => h
  | c :: t, [], _, _ => List.nil_prefix
  | c :: t, d :: w, hw, h => by
    by_cases hc : c = '\r'
    · subst hc
      rw [unifyAux_return, List.cons_prefix_cons] at h
      exact absurd h.1 (by rintro rfl; simp at hw)
    · rw [unifyAux_char hc (Or.inr rfl), List.cons_prefix_cons] at h
      exact List.cons_prefix_cons.2 ⟨h.1, prefix_of_prefix_unifyAux (fun hm => hw (List.mem_cons_of_mem _ hm)) h.2⟩

/-- A character is a carriage return, or the line feed after one, or it stays. -/
theorem unifyAux_cases (c : Char) (t : Text) (afterCr : Bool) :
    (c = '\r' ∧ unifyAux [] afterCr (c :: t) = '\n' :: unifyAux [] true t) ∨
      unifyAux [] afterCr (c :: t) = unifyAux [] false t ∨
      (c ≠ '\r' ∧ unifyAux [] afterCr (c :: t) = c :: unifyAux [] false t) := by
  by_cases hc : c = '\r'
  · subst hc
    exact Or.inl ⟨rfl, unifyAux_return t afterCr⟩
  · by_cases hn : c = '\n' ∧ afterCr = true
    · obtain ⟨rfl, rfl⟩ := hn
      exact Or.inr (Or.inl (unifyAux_pair t))
    · have hn' : c ≠ '\n' ∨ afterCr = false := by
        by_cases hcn : c = '\n'
        · exact Or.inr (by simpa using fun h => hn ⟨hcn, h⟩)
        · exact Or.inl hcn
      exact Or.inr (Or.inr ⟨hc, unifyAux_char hc hn' t⟩)

theorem infix_of_infix_unifyAux {w : Text} (hw : '\n' ∉ w) : ∀ {t : Text} {afterCr : Bool},
    w <:+: unifyAux [] afterCr t → w <:+: t
  | [], _, h => h
  | c :: t, afterCr, h => by
    have hcons : w <:+: t → w <:+: c :: t := fun hi => hi.trans (List.suffix_cons c t).isInfix
    rcases unifyAux_cases c t afterCr with ⟨-, heq⟩ | heq | ⟨hc, heq⟩
    · rw [heq, List.infix_cons_iff] at h
      rcases h with h | h
      · cases w with
        | nil => exact List.nil_infix
        | cons d w => exact absurd (List.cons_prefix_cons.1 h).1 (by rintro rfl; simp at hw)
      · exact hcons (infix_of_infix_unifyAux hw h)
    · rw [heq] at h
      exact hcons (infix_of_infix_unifyAux hw h)
    · rw [heq, List.infix_cons_iff] at h
      rcases h with h | h
      · refine (prefix_of_prefix_unifyAux hw ?_).isInfix
        rw [unifyAux_char hc (Or.inr rfl)]
        exact h
      · exact hcons (infix_of_infix_unifyAux hw h)

theorem infix_of_infix_unify {w t : Text} (hw : '\n' ∉ w) (h : w <:+: unify t) : w <:+: t :=
  infix_of_infix_unifyAux hw h

theorem return_not_mem_unifyAux : ∀ (t : Text) (afterCr : Bool), '\r' ∉ unifyAux [] afterCr t
  | [], _ => by simp [unifyAux]
  | c :: t, afterCr => by
    rcases unifyAux_cases c t afterCr with ⟨-, heq⟩ | heq | ⟨hc, heq⟩
    · simpa [heq] using return_not_mem_unifyAux t true
    · simpa [heq] using return_not_mem_unifyAux t false
    · simpa [heq, Ne.symm hc] using return_not_mem_unifyAux t false

theorem return_not_mem_unify (t : Text) : '\r' ∉ unify t := return_not_mem_unifyAux t false

/-- A character adds what it stands for, and says whether a line feed after it is part of the same line end. -/
theorem unifyAux_cons (c : Char) (afterCr : Bool) : ∃ (new : Text) (next : Bool),
    (next = true → new = ['\n']) ∧ ∀ t, unifyAux [] afterCr (c :: t) = new ++ unifyAux [] next t := by
  by_cases hc : c = '\r'
  · subst hc
    exact ⟨['\n'], true, fun _ => rfl, fun t => unifyAux_return t afterCr⟩
  by_cases hn : c = '\n' ∧ afterCr = true
  · obtain ⟨rfl, rfl⟩ := hn
    exact ⟨[], false, nofun, unifyAux_pair⟩
  · have hn' : c ≠ '\n' ∨ afterCr = false := (Classical.not_and_iff_not_or_not.1 hn).imp id eq_false_of_ne_true
    exact ⟨[c], false, nofun, unifyAux_char hc hn'⟩

theorem unifyAux_append_feed : ∀ (a b : Text) (afterCr : Bool),
    unifyAux [] afterCr (a ++ '\n' :: b) = unifyAux [] afterCr (a ++ ['\n']) ++ unifyAux [] false b
  | [], b, true => rfl
  | [], b, false => by
    rw [List.nil_append, unifyAux_char (by decide) (Or.inr rfl)]
    rfl
  | c :: a, b, afterCr => by
    obtain ⟨new, next, -, hstep⟩ := unifyAux_cons c afterCr
    rw [List.cons_append, List.cons_append, hstep, hstep, unifyAux_append_feed a b, List.append_assoc]

/-- **A line feed ends what is unified together.** -/
theorem unify_append {x : Text} (hx : x.getLast? = some '\n') (y : Text) : unify (x ++ y) = unify x ++ unify y := by
  obtain ⟨t, rfl⟩ := List.getLast?_eq_some_iff.1 hx
  rw [List.append_assoc]
  exact unifyAux_append_feed t y false

theorem getLast?_unifyAux : ∀ (a : Text) (afterCr : Bool),
    ((if afterCr then ['\n'] else []) ++ unifyAux [] afterCr (a ++ ['\n'])).getLast? = some '\n'
  | [], true => rfl
  | [], false => rfl
  | c :: a, afterCr => by
    obtain ⟨new, next, hnext, hstep⟩ := unifyAux_cons c afterCr
    have ih := getLast?_unifyAux a next
    rw [List.cons_append, hstep, List.getLast?_append]
    cases next with
    | true =>
      rw [if_pos rfl] at ih
      rw [hnext rfl, ih]
      rfl
    | false =>
      rw [List.getLast?_append, show (unifyAux [] false (a ++ ['\n'])).getLast? = _ from ih]
      rfl

theorem getLast?_unify {t : Text} (h : t.getLast? = some '\n') : (unify t).getLast? = some '\n' := by
  obtain ⟨a, rfl⟩ := List.getLast?_eq_some_iff.1 h
  exact getLast?_unifyAux a false

/-! ## Line ends applied -/

theorem unify_of_not_mem {t : Text} (h : '\r' ∉ t) : unify t = t := by
  induction t with
  | nil => rfl
  | cons c t ih =>
    rw [List.mem_cons, not_or] at h
    rw [unify, unifyAux_char (Ne.symm h.1) (Or.inr rfl)]
    exact congrArg _ (ih h.2)

theorem unify_widen {t : Text} (h : '\r' ∉ t) : unify (widen t) = t := by
  induction t with
  | nil => rfl
  | cons c t ih =>
    rw [List.mem_cons, not_or] at h
    by_cases hc : c = '\n'
    · subst hc
      show unify ('\r' :: '\n' :: widen t) = _
      rw [unify, unifyAux_return, unifyAux_pair]
      exact congrArg _ (ih h.2)
    · have hwiden : widen (c :: t) = c :: widen t := by simp [widen, hc]
      rw [hwiden, unify, unifyAux_char (Ne.symm h.1) (Or.inr rfl)]
      exact congrArg _ (ih h.2)

theorem detect_widen {t : Text} (h : '\n' ∈ t) : detect (widen t) = crlf := by
  obtain ⟨a, b, rfl⟩ := List.append_of_mem h
  refine if_pos (Text.contains_eq_true_iff.2 ⟨widen a, widen b, ?_⟩)
  simp [widen]

theorem detect_of_not_mem {t : Text} (h : '\r' ∉ t) : detect t = lf :=
  if_neg (fun hc => h ((Text.contains_eq_true_iff.1 hc).subset List.mem_cons_self))

/-- **Line ends that are applied to a text are gone when they are unified.** -/
theorem unify_apply (e : Eol) (t : Text) : unify (e.apply t) = unify t := by
  cases e with
  | lf => exact unify_of_not_mem (return_not_mem_unify t)
  | crlf => exact unify_widen (return_not_mem_unify t)
  | preserve => rfl

theorem detect_apply {e : Eol} (he : e ≠ .preserve) {t : Text} (h : '\r' ∉ t) (hn : '\n' ∈ t) : detect (e.apply t) = e := by
  cases e with
  | lf => rw [apply, unify_of_not_mem h, detect_of_not_mem h]
  | crlf => rw [apply, unify_of_not_mem h, detect_widen hn]
  | preserve => exact absurd rfl he

end Eol
/-- A character of a row is one of the template, and ends no line there. -/
theorem mem_of_mem_rows_unify {source row : Text} (hr : row ∈ Text.rows (Eol.unify source)) {c : Char} (hc : c ∈ row) :
    c ∈ source ∧ c ≠ '\n' ∧ c ≠ '\r' := by
  have hunify : c ∈ Eol.unify source := (infix_of_mem_rows hr).subset hc
  have hfeed : c ≠ '\n' := by rintro rfl; exact feed_not_mem_rows hr hc
  have hreturn : c ≠ '\r' := by rintro rfl; exact Eol.return_not_mem_unify source hunify
  obtain ⟨pre, post, hsplit⟩ := List.append_of_mem hunify
  have hsource : [c] <:+: source :=
    Eol.infix_of_infix_unify (by simpa using hfeed.symm) ⟨pre, post, by rw [hsplit]; simp⟩
  exact ⟨hsource.subset List.mem_cons_self, hfeed, hreturn⟩

end EpFormat
