import EpFormat.Proofs.Chunks
import EpFormat.Proofs.Lines
import EpFormat.Proofs.Treatment
/-!
# Squeeze — literals of code that is put on one line

Without a tidier an expression is only trimmed, but a statement is put on one line: each run of spaces, tabs and line breaks
is made one space (`onOneLine_eq`).  That goes on in literals as in code.  No quote and no backslash is in such a run, so the chunks of the
statement are the chunks of the code, squeezed each (`split_squeeze`), and literals stay exactly if there is nothing to squeeze in
them (`literals_kept_iff`).
-/
namespace EpFormat

/-! ## Runs made one space -/

/-- A text with each run of characters of the class made one space. -/
def squeeze (p : Char → Bool) : Text → Text
  | [] => []
  | c :: t => if p c then (if t.head?.any p then squeeze p t else ' ' :: squeeze p t) else c :: squeeze p t

section

variable {p : Char → Bool} {c : Char} {s t : Text}

theorem squeeze_inner (hc : p c = true) (ht : t.head?.any p = true) : squeeze p (c :: t) = squeeze p t := by
  rw [squeeze, if_pos hc, if_pos ht]

theorem squeeze_end (hc : p c = true) (ht : t.head?.any p = false) : squeeze p (c :: t) = ' ' :: squeeze p t := by
  rw [squeeze, if_pos hc, if_neg (by simp [ht])]

theorem squeeze_other (hc : p c = false) (t : Text) : squeeze p (c :: t) = c :: squeeze p t := by
  rw [squeeze, if_neg (by simp [hc])]

theorem squeeze_run : ∀ {g : Text}, g ≠ [] → (∀ c ∈ g, p c = true) → t.head?.any p = false →
    squeeze p (g ++ t) = ' ' :: squeeze p t
  | [], hne, _, _ => absurd rfl hne
  | [c], _, hg, ht => squeeze_end (hg c List.mem_cons_self) ht
  | c :: d :: g, _, hg, ht => by
    have hrest : ∀ e ∈ d :: g, p e = true := fun e he => hg e (List.mem_cons_of_mem c he)
    have hnext : (d :: g ++ t).head?.any p = true := hrest d List.mem_cons_self
    rw [List.cons_append, squeeze_inner (hg c List.mem_cons_self) hnext, squeeze_run (List.cons_ne_nil d g) hrest ht]

theorem squeeze_append : ∀ {s : Text}, s.getLast?.any p = false ∨ t.head?.any p = false →
    squeeze p (s ++ t) = squeeze p s ++ squeeze p t
  | [], _ => rfl
  | [c], h => by
    cases hc : p c with
    | false => rw [squeeze_other hc, List.singleton_append, squeeze_other hc]; rfl
    | true =>
      have ht : t.head?.any p = false := h.resolve_left (by simp [hc])
      rw [squeeze_end hc rfl, List.singleton_append, squeeze_end hc ht]
      rfl
  | c :: d :: s, h => by
    have hrest := squeeze_append (s := d :: s) (by rwa [List.getLast?_cons_cons] at h)
    have hhead : (d :: s ++ t).head?.any p = (d :: s).head?.any p := rfl
    cases hc : p c with
    | false => rw [List.cons_append, squeeze_other hc, squeeze_other hc, hrest, List.cons_append]
    | true =>
      cases hd : (d :: s).head?.any p with
      | true => rw [List.cons_append, squeeze_inner hc (hhead.trans hd), squeeze_inner hc hd, hrest]
      | false => rw [List.cons_append, squeeze_end hc (hhead.trans hd), squeeze_end hc hd, hrest, List.cons_append]

theorem head?_squeeze (h : ∀ c ∈ t.head?, p c = false) : (squeeze p t).head? = t.head? := by
  cases t with
  | nil => rfl
  | cons c t => rw [squeeze_other (h c rfl)]; rfl

theorem getLast?_squeeze (h : ∀ c ∈ t.getLast?, p c = false) : (squeeze p t).getLast? = t.getLast? := by
  rcases t.eq_nil_or_concat with rfl | ⟨init, c, rfl⟩
  · rfl
  rw [List.concat_eq_append] at h ⊢
  have hc : p c = false := h c List.getLast?_concat
  rw [squeeze_append (t := [c]) (Or.inr hc), squeeze_other hc, squeeze, List.getLast?_concat, List.getLast?_concat]

theorem squeeze_ne_nil (h : t ≠ []) : squeeze p t ≠ [] := by
  fun_induction squeeze p t with
  | case1 => exact h
  | case2 c t hc ht ih =>
    refine ih (fun hnil => ?_)
    rw [hnil] at ht
    cases ht
  | case3 c t hc ht ih => exact List.cons_ne_nil _ _
  | case4 c t hc ih => exact List.cons_ne_nil _ _

theorem mem_squeeze {d : Char} (h : d ∈ squeeze p t) : d = ' ' ∨ d ∈ t := by
  fun_induction squeeze p t with
  | case1 => exact Or.inr h
  | case2 c t hc ht ih => exact (ih h).imp id (List.mem_cons_of_mem c)
  | case3 c t hc ht ih =>
    rcases List.mem_cons.1 h with h | h
    · exact Or.inl h
    · exact (ih h).imp id (List.mem_cons_of_mem c)
  | case4 c t hc ih =>
    rcases List.mem_cons.1 h with rfl | h
    · exact Or.inr List.mem_cons_self
    · exact (ih h).imp id (List.mem_cons_of_mem c)

end

/-! ## One line -/

/-- What is squeezed out of a statement: spaces, tabs and line breaks. -/
def isGap (c : Char) : Bool := isPad c || isLineBreak c

theorem isBlank_of_isGap {c : Char} (h : isGap c = true) : isBlank c = true :=
  (Bool.or_eq_true_iff.1 h).elim isBlank_of_isPad isBlank_of_isLineBreak

theorem collapsePad_eq_squeeze (t : Text) : Perl.collapsePad t = squeeze isPad t := by
  induction t using Perl.pad_induct with
  | nil => rfl
  | pad g t hg hp ht ih =>
    have hhead : t.head?.any isPad = false := by
      cases t with
      | nil => rfl
      | cons c t => exact ht c rfl
    rw [Perl.collapsePad_pad hg hp ht, squeeze_run hg hp hhead, ih]
  | char c t hc ih => rw [Perl.collapsePad_char hc, squeeze_other hc, ih]

/-- The text `v` has a space for each line break of `u`: both come to the same when the one loses its pads and the other
its gaps, also after a pad or a gap. -/
structure Joins (u v : Text) : Prop where
  squeeze_eq : squeeze isPad v = squeeze isGap u
  head?_eq : v.head?.any isPad = u.head?.any isGap

namespace Joins

variable {u v : Text}

theorem space {c : Char} (hc : isLineBreak c = true) (h : Joins u v) : Joins (c :: u) (' ' :: v) := by
  have hgap : isGap c = true := by rw [isGap, hc, Bool.or_true]
  refine ⟨?_, hgap.symm⟩
  have hpad : isPad ' ' = true := rfl
  rw [squeeze, squeeze, if_pos hpad, if_pos hgap, h.squeeze_eq, h.head?_eq]

/-- A carriage return and a line feed are one line break. -/
theorem pair (h : Joins u v) : Joins ('\r' :: '\n' :: u) (' ' :: v) := by
  have hfeed := space (c := '\n') (by decide) h
  have hreturn : squeeze isGap ('\r' :: '\n' :: u) = squeeze isGap ('\n' :: u) := squeeze_inner rfl rfl
  exact ⟨by rw [hreturn, hfeed.squeeze_eq], hfeed.head?_eq⟩

theorem append (h : Joins u v) : ∀ {l : Text}, (∀ c ∈ l, isLineBreak c = false) → Joins (l ++ u) (l ++ v)
  | [], _ => h
  | c :: l, hl => by
    have hrest := append h (fun d hd => hl d (List.mem_cons_of_mem c hd))
    have hgap : isGap c = isPad c := by rw [isGap, hl c List.mem_cons_self, Bool.or_false]
    refine ⟨?_, hgap.symm⟩
    rw [List.cons_append, List.cons_append, squeeze, squeeze, hrest.squeeze_eq, hrest.head?_eq, hgap]

end Joins

/-- The lines of a text that does not end with a line break, joined by spaces. -/
theorem joins_lines {t : Text} (h : ∀ c ∈ t.getLast?, isLineBreak c = false) : Joins t (Text.join [' '] (Text.lines t)) := by
  have hlast : ∀ {l b rest : Text}, (∀ c ∈ (l ++ (b ++ rest)).getLast?, isLineBreak c = false) →
      ∀ c ∈ rest.getLast?, isLineBreak c = false := by
    intro l b rest h c hc
    refine h c ?_
    rw [List.getLast?_append, List.getLast?_append, Option.mem_def.1 hc]
    rfl
  have hjoin : ∀ {rest : Text}, rest ≠ [] → ∀ l : Text, Text.join [' '] (l :: Text.lines rest) =
      l ++ ' ' :: Text.join [' '] (Text.lines rest) := by
    intro rest hne l
    obtain ⟨m, ls, hlines⟩ := List.exists_cons_of_ne_nil (Text.lines_ne_nil hne)
    rw [hlines, Text.join, List.intercalate_cons_cons, List.append_assoc]
    rfl
  induction t using Text.lines_induct with
  | nil => exact ⟨rfl, rfl⟩
  | last l hl hne =>
    have hself := Joins.append (u := []) (v := []) ⟨rfl, rfl⟩ hl
    rw [List.append_nil] at hself
    rw [Text.lines_unbroken hl hne, Text.join, List.intercalate_singleton]
    exact hself
  -- behind a line break something has to follow, since the text does not end with one
  | single l c rest hl hc hpair ih =>
    have hne : rest ≠ [] := by
      rintro rfl
      have hbreak := h c List.getLast?_concat
      rw [hc] at hbreak
      cases hbreak
    rw [Text.lines_break hl hc hpair, hjoin hne]
    exact ((ih (hlast (b := [c]) h)).space hc).append hl
  | pair l rest hl ih =>
    have hne : rest ≠ [] := by
      rintro rfl
      exact absurd (h '\n' (by simp)) (by decide)
    rw [Text.lines_pair hl, hjoin hne]
    exact (ih (hlast (b := ['\r', '\n']) h)).pair.append hl

/-- **A trimmed text on one line is the text with its gaps squeezed.** -/
theorem onOneLine_eq {t : Text} (h : Text.trim t = t) : Perl.onOneLine (Text.lines t) = squeeze isGap t := by
  obtain ⟨hhead, hlast⟩ := Text.trimmed_iff.1 h
  have hgap : ∀ {c : Char}, isBlank c = false → isGap c = false := by
    intro c hc
    cases hg : isGap c with
    | false => rfl
    | true => rw [isBlank_of_isGap hg] at hc; cases hc
  have hbreak : ∀ c ∈ t.getLast?, isLineBreak c = false := fun c hc => (Bool.or_eq_false_iff.1 (hgap (hlast c hc))).2
  rw [Perl.onOneLine, collapsePad_eq_squeeze, (joins_lines hbreak).squeeze_eq, Text.trimmed_iff,
    head?_squeeze (fun c hc => hgap (hhead c hc)), getLast?_squeeze (fun c hc => hgap (hlast c hc))]
  exact ⟨hhead, hlast⟩

/-! ## Texts with nothing to squeeze -/

/-- Every gap is one space: there is no tab, no line break, and no two spaces in a row. -/
structure Tight (t : Text) : Prop where
  spaces : ∀ c ∈ t, isGap c = true → c = ' '
  single : ¬ [' ', ' '] <:+: t

theorem tight_cons {c : Char} {t : Text} :
    Tight (c :: t) ↔ (isGap c = true → c = ' ' ∧ t.head?.any isGap = false) ∧ Tight t := by
  constructor
  · intro h
    have hrest : Tight t :=
      ⟨fun d hd => h.spaces d (List.mem_cons_of_mem c hd), fun hi => h.single (hi.trans (List.suffix_cons c t).isInfix)⟩
    refine ⟨fun hc => ?_, hrest⟩
    obtain rfl := h.spaces c List.mem_cons_self hc
    refine ⟨rfl, Bool.eq_false_iff.2 (fun ht => h.single ?_)⟩
    cases t with
    | nil => cases ht
    | cons d t =>
      obtain rfl := hrest.spaces d List.mem_cons_self ht
      exact ⟨[], t, rfl⟩
  · rintro ⟨hc, hrest⟩
    refine ⟨fun d hd hgap => ?_, fun hi => ?_⟩
    · rcases List.mem_cons.1 hd with rfl | hd
      · exact (hc hgap).1
      · exact hrest.spaces d hd hgap
    rcases List.infix_cons_iff.1 hi with hp | hi
    · obtain ⟨rfl, r, rfl⟩ := List.cons_prefix_cons.1 hp
      exact absurd (show isGap ' ' = false from (hc rfl).2) (by decide)
    · exact hrest.single hi

theorem length_squeeze_le (p : Char → Bool) (t : Text) : (squeeze p t).length ≤ t.length := by
  fun_induction squeeze p t with
  | case1 => exact Nat.le_refl _
  | case2 c t hc ht ih => exact Nat.le_succ_of_le ih
  | case3 c t hc ht ih => exact Nat.succ_le_succ ih
  | case4 c t hc ih => exact Nat.succ_le_succ ih

/-- **Squeezing leaves a text alone exactly if every gap of it is one space.** -/
theorem squeeze_eq_iff (t : Text) : squeeze isGap t = t ↔ Tight t := by
  fun_induction squeeze isGap t with
  | case1 => exact ⟨fun _ => ⟨by simp, by simp⟩, fun _ => rfl⟩
  | case2 c t hc ht ih =>
    refine ⟨fun h => ?_, fun h => ?_⟩
    · have hlen := length_squeeze_le isGap t
      rw [h] at hlen
      exact absurd hlen (Nat.not_succ_le_self _)
    · have hnot := ((tight_cons.1 h).1 hc).2
      rw [ht] at hnot
      cases hnot
  | case3 c t hc ht ih =>
    have hend : t.head?.any isGap = false := by simpa using ht
    rw [List.cons.injEq, ih, tight_cons]
    exact and_congr_left (fun _ => ⟨fun h _ => ⟨h.symm, hend⟩, fun h => (h hc).1.symm⟩)
  | case4 c t hc ih =>
    rw [List.cons.injEq, ih, tight_cons]
    exact and_congr_left (fun _ => ⟨fun _ h => absurd h hc, fun _ => rfl⟩)

instance (t : Text) : Decidable (Tight t) := decidable_of_iff _ (squeeze_eq_iff t)

namespace Perl

/-! ## Chunks of a squeezed text -/

namespace Chunk

theorem isGap_of_isQuote {q : Char} (h : isQuote q = true) : isGap q = false := by
  rcases eq_of_isQuote h with rfl | rfl <;> rfl

/-- A gap in a literal neither closes it nor takes the next character along. -/
theorem afterQuote?_gap {q c : Char} (hq : isQuote q = true) (hc : isGap c = true) (escaped : Bool) (t : Text) :
    afterQuote? q escaped (c :: t) = afterQuote? q false t := by
  cases escaped with
  | true => rfl
  | false =>
    refine afterQuote?_char (fun hb => ?_) (fun heq => ?_) t
    · rw [hb] at hc
      cases hc
    · rw [heq, isGap_of_isQuote hq] at hc
      cases hc

/-- The end of a literal does not move when its gaps are squeezed. -/
theorem afterQuote?_squeeze {q : Char} (hq : isQuote q = true) (t : Text) : ∀ escaped : Bool,
    afterQuote? q escaped (squeeze isGap t) = (afterQuote? q escaped t).map (squeeze isGap) := by
  fun_induction squeeze isGap t with
  | case1 => intro escaped; cases escaped <;> rfl
  | case2 c t hc ht ih =>
    -- a backslash before the run takes its first character along, whichever that is
    intro escaped
    cases t with
    | nil => cases ht
    | cons d t => rw [ih, afterQuote?_gap hq hc, afterQuote?_gap hq ht, afterQuote?_gap hq ht]
  | case3 c t hc ht ih =>
    intro escaped
    rw [afterQuote?_gap hq hc, afterQuote?_gap hq rfl, ih]
  | case4 c t hc ih =>
    intro escaped
    cases escaped with
    | true => exact ih false
    | false =>
      by_cases hb : c = '\\'
      · subst hb
        rw [afterQuote?_backslash, afterQuote?_backslash, ih]
      by_cases heq : c = q
      · subst heq
        rw [afterQuote?_quote hb, afterQuote?_quote hb]
        rfl
      · rw [afterQuote?_char hb heq, afterQuote?_char hb heq, ih]

theorem reshapes_squeeze : Reshapes (squeeze isGap) (squeeze isGap) where
  ne_nil _ hs := squeeze_ne_nil hs
  unquoted s hs c hc := by
    rcases mem_squeeze hc with rfl | hc
    · rfl
    · exact hs c hc
  literal q body hq := by
    refine ⟨squeeze isGap body, squeeze_other (isGap_of_isQuote hq) body, fun h => ?_, fun h => ?_⟩
    · rw [afterQuote?_squeeze hq, h]
      rfl
    · rw [afterQuote?_squeeze hq, h]
      rfl

/-- No gap reaches from one chunk into another. -/
theorem squeeze_chunks (t : Text) :
    squeeze isGap t = (split t).flatMap (fun c => (c.map (squeeze isGap) (squeeze isGap)).text) := by
  induction t using split_induct with
  | nil => rfl
  | code s t hne hs ht ih =>
    have hhead : t.head?.any isGap = false := by
      cases t with
      | nil => rfl
      | cons q t => exact isGap_of_isQuote (ht q rfl)
    rw [squeeze_append (Or.inr hhead), ih, split_code hne hs ht, List.flatMap_cons]
    rfl
  | literal q body t hq hb ih =>
    have hlast : (q :: body).getLast?.any isGap = false := by
      rw [List.getLast?_cons, getLast?_closed hb]
      exact isGap_of_isQuote hq
    rw [squeeze_append (Or.inl hlast), ih, split_literal hq hb, List.flatMap_cons]
    rfl
  | unclosed q body hq hb =>
    rw [split_unclosed hq hb, List.flatMap_singleton]
    rfl

/-- **A squeezed text is cut where the text was.** -/
theorem split_squeeze (t : Text) : split (squeeze isGap t) = (split t).map (map (squeeze isGap) (squeeze isGap)) := by
  rw [← split_map reshapes_squeeze, ← squeeze_chunks]

def literal? : Chunk → Option Text
  | code _ => none
  | literal t => some t

end Chunk

def literals (t : Text) : List Text := (Chunk.split t).filterMap Chunk.literal?

theorem literals_squeeze (t : Text) : literals (squeeze isGap t) = (literals t).map (squeeze isGap) := by
  rw [literals, Chunk.split_squeeze, List.filterMap_map, literals, List.map_filterMap]
  congr 1
  funext c
  cases c <;> rfl

/-! ## Code without a tidier -/

variable {tidier : Tidier} {cfg : Config}

/-- **Without a tidier a statement keeps its literals exactly if every gap in them is one space; an expression keeps them
always.** -/
theorem literals_kept_iff (h : tidier.Unavailable cfg) (hk : cfg.keywordSpacing = false) (code : Text) (s : Session) :
    (literals ((tidyStatement tidier cfg code).run s).1 = literals (Text.trim code) ↔
      ∀ l ∈ literals (Text.trim code), Tight l) ∧
    literals ((tidyExpression tidier cfg code).run s).1 = literals (Text.trim code) := by
  have hstatement : ((tidyStatement tidier cfg code).run s).1 = squeeze isGap (Text.trim code) := by
    rw [tidyStatement_gives h.steady code s, ← onOneLine_eq (Text.trim_idem code)]
    exact if_neg (by simp [hk])
  have hexpression : ((tidyExpression tidier cfg code).run s).1 = Text.trim code := by
    rw [tidyExpression_gives h.steady code s]
    exact if_neg (by simp [hk])
  refine ⟨?_, by rw [hexpression]⟩
  rw [hstatement, literals_squeeze]
  conv => lhs; rhs; rw [← List.map_id (literals (Text.trim code))]
  simp only [List.map_inj_left, id, squeeze_eq_iff]

/-- A statement with gaps between its literals, and within them an escaped quote after a single space. -/
theorem literals_kept_apart :
    let code := txt " f( \"a \\\" b\",\t\t'c' )\n"
    ((tidyStatement Tidier.absent {} code).run {}).1 = txt "f( \"a \\\" b\", 'c' )" ∧
      literals ((tidyStatement Tidier.absent {} code).run {}).1 = [txt "\"a \\\" b\"", txt "'c'"] := by
  intro code
  have hliterals : literals (Text.trim code) = [txt "\"a \\\" b\"", txt "'c'"] := by decide +kernel
  have hkept := (@literals_kept_iff Tidier.absent {} (Or.inr (fun _ _ => rfl)) rfl code {}).1.2
    (by rw [hliterals]; decide)
  exact ⟨by decide +kernel, hkept.trans hliterals⟩

/-- Two spaces in a literal become one in a statement, and stay in an expression. -/
theorem literal_squeezed :
    let code := txt "say \"a  b\""
    ((tidyStatement Tidier.absent {} code).run {}).1 = txt "say \"a b\"" ∧
      ((tidyExpression Tidier.absent {} code).run {}).1 = code ∧
      literals (txt "say \"a b\"") ≠ literals (Text.trim code) := by
  refine ⟨?_, ?_, ?_⟩ <;> decide +kernel

end Perl
end EpFormat
