import Mathlib.Data.List.Basic
import EpFormat.Proofs.Layout
/-!
# Delims — the delimiters of a text

The delimiters of a text are read from left to right, a pair of characters at a time, so that `<%>` has two.  White space
parts them: spacing a text anew, cutting it into rows or lines and laying out the code of a block keep its delimiters.
-/
namespace EpFormat

open Template Template.Tag Perl

inductive Delim
  | opening
  | closing
  deriving DecidableEq, Repr

/-- The delimiter that a character makes with the next one. -/
def delimAt (c : Char) (next : Option Char) : List Delim :=
  if c = '<' ∧ next = some '%' then [.opening] else if c = '%' ∧ next = some '>' then [.closing] else []

/-- The delimiters of a text, those that overlap included. -/
def delims : Text → List Delim
  | [] => []
  | c :: t => delimAt c t.head? ++ delims t

/-! ## Texts put together -/

/-- A character that is in no delimiter. -/
def isApart (c : Char) : Bool := c != '<' && c != '%' && c != '>'

theorem isApart_of_isBlank {c : Char} (h : isBlank c = true) : isApart c = true := by
  have hne : ∀ d, isBlank d = false → (c != d) = true := fun d hd => by simpa using ne_of_isBlank hd h
  simp [isApart, hne '<' (by decide), hne '%' (by decide), hne '>' (by decide)]

theorem delimAt_apart {c : Char} (h : isApart c = true) (next : Option Char) : delimAt c next = [] := by
  simp only [isApart, Bool.and_eq_true, bne_iff_ne] at h
  simp [delimAt, h]

theorem delimAt_some_apart (c : Char) {d : Char} (h : isApart d = true) : delimAt c (some d) = [] := by
  simp only [isApart, Bool.and_eq_true, bne_iff_ne] at h
  simp [delimAt, h]

theorem delimAt_none (c : Char) : delimAt c none = [] := by simp [delimAt]

/-- **Delimiters of two texts put together**: those of both, and the one that the two make where they meet. -/
theorem delims_append : ∀ s t : Text,
    delims (s ++ t) = delims s ++ s.getLast?.elim [] (delimAt · t.head?) ++ delims t
  | [], t => rfl
  | [c], t => by simp [delims, delimAt_none]
  | c :: d :: s, t => by
    rw [List.cons_append, delims, delims_append (d :: s) t, List.getLast?_cons_cons]
    simp only [delims, List.cons_append, List.head?_cons, List.append_assoc]

theorem delims_append_of_last {s : Text} (h : ∀ c ∈ s.getLast?, ∀ next, delimAt c next = []) (t : Text) :
    delims (s ++ t) = delims s ++ delims t := by
  rw [delims_append]
  cases hs : s.getLast? with
  | none => simp
  | some c => simp [h c hs]

theorem delims_append_of_head (s : Text) {t : Text} (h : ∀ c ∈ t.head?, isApart c = true) :
    delims (s ++ t) = delims s ++ delims t := by
  rw [delims_append]
  cases hs : s.getLast? with
  | none => simp
  | some c =>
    cases ht : t.head? with
    | none => simp [delimAt_none]
    | some d => simp [delimAt_some_apart c (h d ht)]

theorem delims_cons_apart {c : Char} (h : isApart c = true) (t : Text) : delims (c :: t) = delims t := by
  rw [delims, delimAt_apart h, List.nil_append]

theorem delims_append_cons {c : Char} (h : isApart c = true) (s t : Text) : delims (s ++ c :: t) = delims s ++ delims t := by
  rw [delims_append_of_head s (by simpa using h), delims_cons_apart h]

theorem delims_of_apart : ∀ {t : Text}, (∀ c ∈ t, isApart c = true) → delims t = []
  | [], _ => rfl
  | c :: t, h => by
    rw [delims_cons_apart (h c List.mem_cons_self), delims_of_apart (fun d hd => h d (List.mem_cons_of_mem c hd))]

theorem delims_apart_append {a : Text} (h : ∀ c ∈ a, isApart c = true) (t : Text) : delims (a ++ t) = delims t := by
  rw [delims_append_of_last (fun c hc next => delimAt_apart (h c (List.mem_of_getLast? hc)) next), delims_of_apart h,
    List.nil_append]

theorem delims_append_apart {b : Text} (h : ∀ c ∈ b, isApart c = true) (t : Text) : delims (t ++ b) = delims t := by
  rw [delims_append_of_head t (fun c hc => h c (List.mem_of_head? hc)), delims_of_apart h, List.append_nil]

theorem isApart_of_allBlank {a : Text} (h : allBlank a = true) : ∀ c ∈ a, isApart c = true := fun c hc =>
  isApart_of_isBlank (allBlank_iff.1 h c hc)

theorem delims_allBlank {a : Text} (h : allBlank a = true) : delims a = [] := delims_of_apart (isApart_of_allBlank h)

/-! ## White space -/

theorem delims_trimLeft (t : Text) : delims (Text.trimLeft t) = delims t := by
  obtain ⟨a, ha, ht⟩ := Text.exists_trimLeft t
  conv => rhs; rw [ht, delims_apart_append (isApart_of_allBlank ha)]

theorem delims_trim (t : Text) : delims (Text.trim t) = delims t := by
  obtain ⟨a, b, ha, hb, ht⟩ := Text.exists_trim t
  conv => rhs; rw [ht, delims_apart_append (isApart_of_allBlank ha), delims_append_apart (isApart_of_allBlank hb)]

theorem delims_dropEndWhile {p : Char → Bool} (hp : ∀ c, p c = true → isBlank c = true) (t : Text) :
    delims (Text.dropEndWhile p t) = delims t := by
  have hcut : t = Text.dropEndWhile p t ++ (t.reverse.takeWhile p).reverse := by
    rw [Text.dropEndWhile, ← List.reverse_append, List.takeWhile_append_dropWhile, List.reverse_reverse]
  conv => rhs; rw [hcut]
  refine (delims_append_apart (fun c hc => isApart_of_isBlank (hp c ?_)) _).symm
  exact List.all_eq_true.1 List.all_takeWhile c (List.mem_reverse.1 hc)

theorem delims_dropTrailingPad (t : Text) : delims (Text.dropTrailingPad t) = delims t :=
  delims_dropEndWhile (fun _ => isBlank_of_isPad) t

theorem Aligned.delimAt_head {s t : Text} (h : Aligned s t) (c : Char) : delimAt c s.head? = delimAt c t.head? := by
  have hsame : ∀ d, isBlank d = false → (s.head? = some d ↔ t.head? = some d) := by
    intro d hd
    rcases h.head_cases hd with ⟨r, r', rfl, rfl, -⟩ | ⟨hs, ht⟩
    · simp
    · simp only [List.head?_eq_some_iff]
      exact ⟨fun ⟨r, hr⟩ => absurd hr (hs r), fun ⟨r, hr⟩ => absurd hr (ht r)⟩
  simp only [delimAt, hsame '%' (by decide), hsame '>' (by decide)]

/-- **Texts that differ in spacing have the same delimiters.** -/
theorem Aligned.delims_eq {s t : Text} (h : Aligned s t) : delims s = delims t := by
  induction h with
  | blank hs ht => rw [delims_allBlank hs, delims_allBlank ht]
  | char c h ih => rw [delims, delims, h.delimAt_head, ih]
  | gap _ _ hbg hbk _ ih =>
    rw [delims_apart_append (isApart_of_allBlank hbg), delims_apart_append (isApart_of_allBlank hbk), ih]

theorem Respaced.delims_eq {s t : Text} (h : Respaced s t) : delims s = delims t := by
  rw [← delims_trimLeft s, ← delims_trimLeft t]
  exact Aligned.delims_eq h

/-! ## Rows, lines and line ends -/

theorem delims_unrows : ∀ ls : List Text, delims (Text.unrows ls) = ls.flatMap delims
  | [] => rfl
  | [l] => by simp [Text.unrows, Text.join]
  | l :: k :: ls => by
    rw [Text.unrows_cons (by simp), delims_append_cons (isApart_of_isBlank isBlank_feed), delims_unrows (k :: ls),
      ← List.flatMap_cons]

theorem flatMap_delims_rows (t : Text) : (Text.rows t).flatMap delims = delims t := by
  rw [← delims_unrows, Text.unrows_rows]

theorem flatMap_delims_lines (t : Text) : (Text.lines t).flatMap delims = delims t := by
  induction t using Text.lines_induct with
  | nil => rfl
  | last l hl hne => simp [Text.lines_unbroken hl hne]
  | single l c rest hl hc hp ih =>
    rw [Text.lines_break hl hc hp, List.flatMap_cons, ih,
      delims_append_cons (isApart_of_isBlank (isBlank_of_isLineBreak hc))]
  | pair l rest hl ih =>
    rw [Text.lines_pair hl, List.flatMap_cons, ih, delims_append_cons (by decide), delims_cons_apart (by decide)]

theorem aligned_unify : ∀ t : Text, Aligned t (Eol.unify t)
  | [] => .refl []
  | c :: t => by
    by_cases hc : c = '\r'
    · subst hc
      rw [Eol.unify, Eol.unifyAux_return]
      cases t with
      | nil => exact .blank rfl rfl
      | cons d t =>
        by_cases hd : d = '\n'
        · subst hd
          rw [Eol.unifyAux_pair]
          exact .gap (g := ['\r', '\n']) (k := ['\n']) (by simp) (by simp) rfl rfl (aligned_unify t)
        · have hsame : Eol.unifyAux [] true (d :: t) = Eol.unify (d :: t) := by simp [Eol.unify, Eol.unifyAux, hd]
          rw [hsame]
          exact .gap (g := ['\r']) (k := ['\n']) (by simp) (by simp) rfl rfl (aligned_unify (d :: t))
    · rw [Eol.unify, Eol.unifyAux_char hc (Or.inr rfl)]
      exact .char c (aligned_unify t)
termination_by t => t.length

theorem aligned_widen : ∀ t : Text, Aligned t (Eol.widen t)
  | [] => .refl []
  | c :: t => by
    by_cases hc : c = '\n'
    · subst hc
      exact .gap (g := ['\n']) (k := ['\r', '\n']) (by simp) (by simp) rfl rfl (aligned_widen t)
    · have hcons : Eol.widen (c :: t) = c :: Eol.widen t := by simp [Eol.widen, hc]
      rw [hcons]
      exact .char c (aligned_widen t)

theorem delims_finish (cfg : Config) (source laid : Text) : delims (finish cfg source laid) = delims laid := by
  have hend : delims (endLine laid) = delims laid := by
    rw [endLine]
    split
    · rfl
    · exact delims_append_apart (Text.forall_mem_of_all (by decide)) laid
  have happly : ∀ e : Eol, delims (e.apply (endLine laid)) = delims (endLine laid) := by
    intro e
    cases e with
    | lf => exact (aligned_unify _).delims_eq.symm
    | crlf => exact ((aligned_unify _).trans (aligned_widen _)).delims_eq.symm
    | preserve => rfl
  rw [finish, happly, hend]

/-! ## The code of a block -/

theorem flatMap_delims_trim (ls : List Text) : (ls.map Text.trim).flatMap delims = ls.flatMap delims := by
  rw [List.flatMap_map]
  exact List.flatMap_congr (fun l _ => delims_trim l)

theorem flatMap_delims_blank {ls : List Text} (h : ∀ l ∈ ls, allBlank l = true) : ls.flatMap delims = [] :=
  List.flatMap_eq_nil_iff.2 (fun l hl => delims_allBlank (h l hl))

theorem delims_dedent (t : Text) : delims (dedent t) = delims t := by
  obtain ⟨a, b, ha, hb, hcut⟩ := exists_dropBlankEnds (Text.lines t)
  have hlines := flatMap_delims_lines t
  rw [hcut, List.flatMap_append, List.flatMap_append, flatMap_delims_blank ha, flatMap_delims_blank hb, List.append_nil,
    List.nil_append] at hlines
  rw [dedent, delims_unrows, ← hlines, List.flatMap_map]
  refine List.flatMap_congr (fun l _ => ?_)
  rw [← delims_trim, trim_dropPad (isPad_commonPad _), delims_trim]

theorem delims_indentByBraces (t : Text) (width : Int) : delims (indentByBraces t width) = delims t := by
  rw [indentByBraces, delims_unrows, ← flatMap_delims_trim, map_trim_indentLines, flatMap_delims_trim, flatMap_delims_lines]

theorem delims_code (b : Block) : delims b.code = b.body.flatMap delims := by
  rw [Block.code, delims_dedent, delims_unrows]

theorem isApart_chomp (present : Bool) : ∀ c ∈ chomp present, isApart c = true := by
  cases present <;> exact Text.forall_mem_of_all (by decide)

theorem delims_opening {line : Text} {o : Opening} (h : Opening.read? line = some o) :
    delims line = [.opening] ∧ ∀ c ∈ o.base, isPad c = true := by
  unfold Opening.read? at h
  split at h
  · rename_i rest hrest
    simp only at h
    split at h
    · rename_i hblank
      obtain rfl := Option.some.inj h
      refine ⟨?_, List.all_eq_true.1 List.all_takeWhile⟩
      have hapart : ∀ c ∈ rest, isApart c = true := by
        rw [← chomp_readChomp rest]
        exact List.forall_mem_append.2 ⟨isApart_chomp _, isApart_of_allBlank hblank⟩
      have hpads : ∀ c ∈ line.takeWhile isPad, isApart c = true := fun c hc =>
        isApart_of_isBlank (isBlank_of_isPad (List.all_eq_true.1 List.all_takeWhile c hc))
      rw [← List.takeWhile_append_dropWhile (p := isPad) (l := line), hrest, delims_apart_append hpads]
      exact delims_append_apart hapart ['<', '%']
    · cases h
  · cases h

theorem flatMap_delims_layOut (b : Block) (hbase : ∀ c ∈ b.opening.base, isPad c = true) (tidied : Text) :
    (b.layOut tidied).flatMap delims = .opening :: (delims tidied ++ [.closing]) := by
  have hpads : ∀ c ∈ b.opening.base, isApart c = true := fun c hc => isApart_of_isBlank (isBlank_of_isPad (hbase c hc))
  have hinner : ((Text.lines (Text.dropEndWhile (· = '\n') tidied)).map (b.opening.base ++ ·)).flatMap delims
      = delims tidied := by
    simp only [List.flatMap_map, delims_apart_append hpads]
    rw [flatMap_delims_lines, delims_dropEndWhile (fun c hc => by rw [of_decide_eq_true hc]; rfl)]
  have hopen : delims (b.opening.base ++ ['<', '%'] ++ chomp b.opening.left) = [.opening] := by
    rw [List.append_assoc, delims_apart_append hpads, delims_append_apart (isApart_chomp _)]
    rfl
  have hclose : delims (b.opening.base ++ chomp b.right ++ ['%', '>']) = [.closing] := by
    rw [List.append_assoc, delims_apart_append hpads, delims_apart_append (isApart_chomp _)]
    rfl
  rw [Block.layOut, List.cons_append, List.flatMap_cons, List.flatMap_append, hinner, hopen, List.flatMap_singleton, hclose]
  rfl

/-! ## Blocks -/

/-- Whether a block is open after a line, if it was before it or not. -/
def Template.Block.goesOn (pending : Bool) (line : Text) : Bool :=
  if pending then (readClosing? line).isNone else (Opening.read? line).isSome

/-- Whether lines end in a block that has been opened and not closed. -/
def Template.Block.pending (ls : List Text) : Bool := ls.foldl Block.goesOn false

/-- The delimiters of lines whose blocks are laid out: a line that closes a block has the closing delimiter, also if
it was spaced. -/
def mended : Bool → List Text → List Delim
  | _, [] => []
  | pending, l :: ls =>
    (if pending && (readClosing? l).isSome then [.closing] else delims l) ++ mended (Block.goesOn pending l) ls

theorem mended_append : ∀ (a b : List Text) (pending : Bool),
    mended pending (a ++ b) = mended pending a ++ mended (a.foldl Block.goesOn pending) b
  | [], _, _ => rfl
  | l :: a, b, pending => by rw [List.cons_append, mended, mended, mended_append a b, List.append_assoc, List.foldl_cons]

/-- Where no closing line is spaced there is nothing to mend. -/
theorem mended_of_closing : ∀ {ls : List Text}, (∀ l ∈ ls, (readClosing? l).isSome → delims l = [.closing]) →
    ∀ pending, mended pending ls = ls.flatMap delims
  | [], _, _ => rfl
  | l :: ls, h, pending => by
    rw [mended, mended_of_closing (fun k hk => h k (List.mem_cons_of_mem l hk)), List.flatMap_cons]
    split
    · rename_i hc
      rw [h l List.mem_cons_self (Bool.and_eq_true_iff.1 hc).2]
    · rfl

theorem mended_of_not_closing {ls : List Text} (h : ∀ l ∈ ls, readClosing? l = none) (pending : Bool) :
    mended pending ls = ls.flatMap delims :=
  mended_of_closing (fun l hl hc => by rw [h l hl] at hc; cases hc) pending

theorem foldl_goesOn_of_not_closing : ∀ {ls : List Text}, (∀ l ∈ ls, readClosing? l = none) →
    ls.foldl Block.goesOn true = true
  | [], _ => rfl
  | l :: ls, h => by
    have hl : Block.goesOn true l = true := by simp [Block.goesOn, h l List.mem_cons_self]
    rw [List.foldl_cons, hl, foldl_goesOn_of_not_closing (fun k hk => h k (List.mem_cons_of_mem l hk))]

/-- **The second pass mends the delimiters of the lines that close blocks**, and keeps all others. -/
theorem delims_blocks {τ : Treatment} (hτ : ∀ t, delims (τ.block t) = delims t) (ls : List Text) :
    (τ.blocks ls).flatMap delims = mended false ls := by
  induction ls using Block.block_induct with
  | nil => rfl
  | block line o body close right post hopen hclose hbody ih =>
    obtain ⟨hline, hbase⟩ := delims_opening hopen
    have hopens : Block.goesOn false line = true := by simp [Block.goesOn, hopen]
    have hcloses : Block.goesOn true close = false := by simp [Block.goesOn, hclose]
    rw [τ.blocks_block hopen hclose hbody, List.flatMap_append, Treatment.blockLines, flatMap_delims_layOut _ hbase, hτ,
      delims_code, ih, mended, hline, hopens, mended_append, mended_of_not_closing hbody,
      foldl_goesOn_of_not_closing hbody, mended, hcloses, hclose]
    simp
  | line line rest hl ih =>
    rw [τ.blocks_line hl, List.flatMap_cons, ih, mended]
    have hrest : mended false rest = mended (Block.goesOn false line) rest := by
      rcases Block.finder_eq_none_iff.1 hl with hopen | hclose
      · simp [Block.goesOn, hopen]
      · rw [mended_of_not_closing hclose, mended_of_not_closing hclose]
    rw [hrest]
    rfl

end EpFormat
