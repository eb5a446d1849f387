import EpFormat.Proofs.Spacing
/-!
# Chunks — cutting Perl text, chunk by chunk

`Chunk.split` gathers its chunks in an accumulator.  Here it is read as a recursion on the text: code runs up to a quote
(`split_code`), a literal up to the quote that closes it (`split_literal`) or, where none does, to the end
(`split_unclosed`).  `split_induct` is the induction that goes with it.  A text whose chunks are changed so that each stays
what it is has the changed chunks as its own (`split_map`).
-/
namespace EpFormat.Perl.Chunk

/-! ## Where a literal ends -/

/-- What stands after the quote that closes a literal; `escaped` says that a backslash takes the first character along. -/
def afterQuote? (q : Char) : Bool → Text → Option Text
  | _, [] => none
  | true, _ :: t => afterQuote? q false t
  | false, c :: t =>
    if c = '\\' then afterQuote? q true t
    else if c = q then some t
    else afterQuote? q false t

section

variable {q : Char}

theorem afterQuote?_backslash (t : Text) : afterQuote? q false ('\\' :: t) = afterQuote? q true t := by
  rw [afterQuote?, if_pos rfl]

theorem afterQuote?_quote (hq : q ≠ '\\') (t : Text) : afterQuote? q false (q :: t) = some t := by
  rw [afterQuote?, if_neg hq, if_pos rfl]

theorem afterQuote?_char {c : Char} (hb : c ≠ '\\') (hc : c ≠ q) (t : Text) :
    afterQuote? q false (c :: t) = afterQuote? q false t := by
  rw [afterQuote?, if_neg hb, if_neg hc]

/-- A closed literal is the part of the text up to its quote. -/
theorem exists_closed {t rest : Text} {escaped : Bool} (h : afterQuote? q escaped t = some rest) :
    ∃ body, t = body ++ rest ∧ afterQuote? q escaped body = some [] := by
  fun_induction afterQuote? q escaped t with
  | case1 => cases h
  | case2 c t ih =>
    obtain ⟨body, rfl, hbody⟩ := ih h
    exact ⟨c :: body, rfl, hbody⟩
  | case3 t ih =>
    obtain ⟨body, rfl, hbody⟩ := ih h
    exact ⟨'\\' :: body, rfl, by rw [afterQuote?_backslash, hbody]⟩
  | case4 t hq =>
    obtain rfl := Option.some.inj h
    exact ⟨[q], rfl, afterQuote?_quote hq []⟩
  | case5 c t hb hc ih =>
    obtain ⟨body, rfl, hbody⟩ := ih h
    exact ⟨c :: body, rfl, by rw [afterQuote?_char hb hc, hbody]⟩

theorem getLast?_closed {body : Text} {escaped : Bool} (h : afterQuote? q escaped body = some []) :
    body.getLast? = some q := by
  fun_induction afterQuote? q escaped body with
  | case1 => cases h
  | case2 c body ih => rw [List.getLast?_cons, ih h]; rfl
  | case3 body ih => rw [List.getLast?_cons, ih h]; rfl
  | case4 body hq => rw [Option.some.inj h]; rfl
  | case5 c body hb hc ih => rw [List.getLast?_cons, ih h]; rfl

theorem ne_backslash_of_isQuote (h : isQuote q = true) : q ≠ '\\' := by
  rintro rfl
  cases h

/-! ## The loop of the cutting -/

theorem flush_append (older new : List Chunk) (mk : Text → Chunk) (buf : Text) :
    flush (new ++ older) mk buf = flush new mk buf ++ older := by
  unfold flush
  split <;> rfl

theorem splitAux_older (older new : List Chunk) (buf : Text) (quote : Option Char) (t : Text) :
    splitAux (new ++ older) buf quote t = older.reverse ++ splitAux new buf quote t := by
  fun_induction splitAux new buf quote t with
  | case1 new buf => rw [splitAux, flush_append, List.reverse_append]
  | case2 new buf q => rw [splitAux, flush_append, List.reverse_append]
  | case3 new buf c rest hc ih => rw [splitAux, if_pos hc, flush_append, ih]
  | case4 new buf c rest hc ih => rw [splitAux, if_neg hc, ih]
  | case5 new buf q c rest ih => rw [splitAux, ih]
  | case6 new buf q rest hne ih => rw [splitAux.eq_5 _ _ _ _ _ hne, if_pos rfl, ← List.cons_append, ih]
  | case7 new buf q c rest hne hc ih => rw [splitAux.eq_5 _ _ _ _ _ hne, if_neg hc, ih]

theorem splitAux_done (done : List Chunk) (buf : Text) (quote : Option Char) (t : Text) :
    splitAux done buf quote t = done.reverse ++ splitAux [] buf quote t := splitAux_older done [] buf quote t

theorem splitAux_code : ∀ {s : Text}, (∀ c ∈ s, isQuote c = false) → ∀ (buf t : Text),
    splitAux [] buf none (s ++ t) = splitAux [] (s.reverse ++ buf) none t
  | [], _, _, _ => rfl
  | c :: s, hs, buf, t => by
    rw [List.cons_append, splitAux, if_neg (by simp [hs c List.mem_cons_self]),
      splitAux_code (fun d hd => hs d (List.mem_cons_of_mem c hd))]
    simp

/-- In a literal the loop runs up to the quote that closes it. -/
theorem splitAux_literal (hq : q ≠ '\\') (t : Text) : ∀ {body : Text}, afterQuote? q false body = some [] → ∀ buf : Text,
    splitAux [] buf (some q) (body ++ t) = literal (buf.reverse ++ body) :: split t
  | [], h, _ => by cases h
  | c :: body, h, buf => by
    by_cases hb : c = '\\'
    · subst hb
      rw [afterQuote?_backslash] at h
      cases body with
      | nil => cases h
      | cons d body =>
        rw [List.cons_append, List.cons_append, splitAux, splitAux_literal hq t h]
        simp
    have hne : ∀ d rest, c = '\\' → body ++ t = d :: rest → False := fun _ _ hc => absurd hc hb
    rw [List.cons_append, splitAux.eq_5 _ _ _ _ _ hne]
    by_cases hc : c = q
    · subst hc
      rw [afterQuote?_quote hb] at h
      rw [Option.some.inj h, if_pos rfl, splitAux_done, split]
      simp
    · rw [afterQuote?_char hb hc] at h
      rw [if_neg hc, splitAux_literal hq t h]
      simp

/-- In a literal that nothing closes the loop runs to the end. -/
theorem splitAux_unclosed (hq : q ≠ '\\') : ∀ {body : Text}, afterQuote? q false body = none → ∀ {buf : Text}, buf ≠ [] →
    splitAux [] buf (some q) body = [literal (buf.reverse ++ body)]
  | [], _, buf, hbuf => by
    rw [splitAux, flush, if_neg (by simpa using hbuf), List.append_nil]
    rfl
  | c :: body, h, buf, _ => by
    by_cases hb : c = '\\'
    · subst hb
      -- a backslash that ends the text takes nothing along
      cases body with
      | nil =>
        rw [splitAux.eq_5 _ _ _ _ _ (by simp), if_neg (Ne.symm hq), splitAux_unclosed hq rfl (by simp)]
        simp
      | cons d body =>
        rw [afterQuote?_backslash] at h
        rw [splitAux, splitAux_unclosed hq h (by simp)]
        simp
    rw [splitAux.eq_5 _ _ _ _ _ (fun _ _ hc => absurd hc hb)]
    by_cases hc : c = q
    · subst hc
      rw [afterQuote?_quote hb] at h
      cases h
    · rw [afterQuote?_char hb hc] at h
      rw [if_neg hc, splitAux_unclosed hq h (by simp)]
      simp

/-! ## Chunk by chunk -/

@[simp] theorem split_nil : split [] = [] := rfl

theorem split_quote (hq : isQuote q = true) (t : Text) : split (q :: t) = splitAux [] [q] (some q) t := by
  rw [split, splitAux, if_pos hq]
  rfl

theorem split_code {s t : Text} (hne : s ≠ []) (hs : ∀ c ∈ s, isQuote c = false)
    (ht : ∀ q ∈ t.head?, isQuote q = true) : split (s ++ t) = code s :: split t := by
  have hflush : flush [] code s.reverse = [code s] := by
    rw [flush, if_neg (by simpa using hne), List.reverse_reverse]
  rw [split, splitAux_code hs, List.append_nil]
  cases t with
  | nil => rw [splitAux, hflush]; rfl
  | cons q t =>
    have hq := ht q rfl
    rw [splitAux, if_pos hq, hflush, splitAux_done, split_quote hq]
    rfl

theorem split_literal (hq : isQuote q = true) {body : Text} (hb : afterQuote? q false body = some []) (t : Text) :
    split (q :: body ++ t) = literal (q :: body) :: split t := by
  rw [List.cons_append, split_quote hq, splitAux_literal (ne_backslash_of_isQuote hq) t hb]
  rfl

theorem split_unclosed (hq : isQuote q = true) {body : Text} (hb : afterQuote? q false body = none) :
    split (q :: body) = [literal (q :: body)] := by
  rw [split_quote hq, splitAux_unclosed (ne_backslash_of_isQuote hq) hb (by simp)]
  rfl

end

theorem exists_unquoted (t : Text) :
    ∃ s u, t = s ++ u ∧ (∀ c ∈ s, isQuote c = false) ∧ ∀ q ∈ u.head?, isQuote q = true := by
  refine ⟨t.takeWhile (fun c => !isQuote c), t.dropWhile (fun c => !isQuote c), List.takeWhile_append_dropWhile.symm,
    fun c hc => ?_, fun q hq => ?_⟩
  · simpa using List.all_eq_true.1 List.all_takeWhile c hc
  · have hhead := List.head?_dropWhile_not (fun c => !isQuote c) t
    rw [Option.mem_def.1 hq] at hhead
    simpa using hhead

/-- **Induction through a text chunk by chunk.** -/
theorem split_induct {motive : Text → Prop} (nil : motive [])
    (code : ∀ s t, s ≠ [] → (∀ c ∈ s, isQuote c = false) → (∀ q ∈ t.head?, isQuote q = true) → motive t →
      motive (s ++ t))
    (literal : ∀ q body t, isQuote q = true → afterQuote? q false body = some [] → motive t → motive (q :: body ++ t))
    (unclosed : ∀ q body, isQuote q = true → afterQuote? q false body = none → motive (q :: body)) : ∀ t, motive t
  | [] => nil
  | c :: t => by
    cases hc : isQuote c with
    | true =>
      cases h : afterQuote? c false t with
      | none => exact unclosed c t hc h
      | some rest =>
        obtain ⟨body, ht, hbody⟩ := exists_closed h
        have hlen : rest.length ≤ t.length := by simp [ht]
        rw [ht, ← List.cons_append]
        exact literal c body rest hc hbody (split_induct nil code literal unclosed rest)
    | false =>
      obtain ⟨s, u, ht, hs, hu⟩ := exists_unquoted t
      have hlen : u.length ≤ t.length := by simp [ht]
      rw [ht, ← List.cons_append]
      refine code (c :: s) u (List.cons_ne_nil c s) (fun d hd => ?_) hu (split_induct nil code literal unclosed u)
      rcases List.mem_cons.1 hd with rfl | hd
      · exact hc
      · exact hs d hd
termination_by t => t.length
decreasing_by
  · exact Nat.lt_succ_of_le hlen
  · exact Nat.lt_succ_of_le hlen

theorem exists_literal {q : Char} (hq : isQuote q = true) (t : Text) :
    ∃ body cs, split (q :: t) = literal (q :: body) :: cs := by
  cases h : afterQuote? q false t with
  | none => exact ⟨t, [], split_unclosed hq h⟩
  | some rest =>
    obtain ⟨body, rfl, hbody⟩ := exists_closed h
    exact ⟨body, split rest, split_literal hq hbody rest⟩

/-! ## Chunks changed -/

/-- A chunk with its text changed, code in one way and literals in another. -/
def map (f g : Text → Text) : Chunk → Chunk
  | code t => code (f t)
  | literal t => literal (g t)

/-- Changes under which code stays code, and a literal keeps its quote and is closed or not as it was. -/
structure Reshapes (f g : Text → Text) : Prop where
  ne_nil : ∀ s, s ≠ [] → f s ≠ []
  unquoted : ∀ s, (∀ c ∈ s, isQuote c = false) → ∀ c ∈ f s, isQuote c = false
  literal : ∀ q body, isQuote q = true → ∃ body', g (q :: body) = q :: body' ∧
    (afterQuote? q false body = some [] → afterQuote? q false body' = some []) ∧
    (afterQuote? q false body = none → afterQuote? q false body' = none)

variable {f g : Text → Text}

theorem Reshapes.head? (h : Reshapes f g) {t : Text} (ht : ∀ q ∈ t.head?, isQuote q = true) :
    ∀ q ∈ ((split t).flatMap (fun c => (c.map f g).text)).head?, isQuote q = true := by
  cases t with
  | nil => simp
  | cons q t =>
    have hq := ht q rfl
    obtain ⟨body, cs, hsplit⟩ := exists_literal hq t
    obtain ⟨body', hg, -⟩ := h.literal q body hq
    rw [hsplit, List.flatMap_cons, map, text, hg]
    simpa using hq

/-- **A text put together from changed chunks is cut into them.** -/
theorem split_map (h : Reshapes f g) (t : Text) :
    split ((split t).flatMap (fun c => (c.map f g).text)) = (split t).map (map f g) := by
  induction t using split_induct with
  | nil => rfl
  | code s t hne hs ht ih =>
    rw [split_code hne hs ht, List.flatMap_cons, List.map_cons, ← ih]
    exact split_code (h.ne_nil s hne) (h.unquoted s hs) (h.head? ht)
  | literal q body t hq hb ih =>
    obtain ⟨body', hg, hclosed, -⟩ := h.literal q body hq
    rw [split_literal hq hb, List.flatMap_cons, List.map_cons, ← ih, map, text, hg]
    exact split_literal hq (hclosed hb) _
  | unclosed q body hq hb =>
    obtain ⟨body', hg, -, hunclosed⟩ := h.literal q body hq
    rw [split_unclosed hq hb, List.flatMap_singleton, List.map_singleton, map, text, hg]
    exact split_unclosed hq (hunclosed hb)

end EpFormat.Perl.Chunk
