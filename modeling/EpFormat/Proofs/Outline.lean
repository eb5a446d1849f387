import Mathlib
import EpFormat.Proofs.Blocks
import EpFormat.Proofs.Inline
/-!
# Outline — the indentation of blocks in braces

A template of text rows and directives that open and close braces has an outline, a tree of its blocks.  An outline is
balanced if every closing row stands where its opening row does and all that is directly inside stands one width
further.  The formatter takes each closing brace away twice, before its row and after it: after a block the depth of Perl
is one too low, or zero.  So the outline as it is written is balanced exactly if no rows feel that (`balanced_iff`).
-/
namespace EpFormat

open Perl Template

/-! ## Outlines -/

/-- Rows of text, and blocks between a row that opens them and a row that closes them. -/
inductive Outline
  | nil
  | line (row : Text) (rest : Outline)
  | block (head : Text) (inner : Outline) (close : Text) (rest : Outline)

def Text.margin (row : Text) : Text := row.takeWhile isBlank

namespace Outline

def rows : Outline → List Text
  | nil => []
  | line row rest => row :: rest.rows
  | block head inner close rest => head :: (inner.rows ++ close :: rest.rows)

/-- Other rows put in the place of those of an outline, and the rows that are left over. -/
def fill : Outline → List Text → Outline × List Text
  | nil, rs => (nil, rs)
  | line _ rest, rs => (line (rs.headD []) (rest.fill rs.tail).1, (rest.fill rs.tail).2)
  | block _ inner _ rest, rs =>
    let filled := inner.fill rs.tail
    (block (rs.headD []) filled.1 (filled.2.headD []) (rest.fill filled.2.tail).1, (rest.fill filled.2.tail).2)

/-- The rows that are in no block of the outline, those that open and close its blocks with them. -/
def direct : Outline → List Text
  | nil => []
  | line row rest => row :: rest.direct
  | block head _ close rest => head :: close :: rest.direct

/-- Every closing row stands where its opening row does, and what is directly inside stands one width further, if it is
not blank. -/
def Balanced (width : Int) : Outline → Prop
  | nil => True
  | line _ rest => rest.Balanced width
  | block head inner close rest =>
    (Text.margin close = Text.margin head ∧
      ∀ row ∈ inner.direct, allBlank row = true ∨ Text.margin row = Text.margin head ++ Text.spaces width) ∧
      inner.Balanced width ∧ rest.Balanced width

def heads : Outline → List Text
  | nil => []
  | line _ rest => rest.heads
  | block head inner _ rest => head :: (inner.heads ++ rest.heads)

def depth : Outline → Nat
  | nil => 0
  | line _ rest => rest.depth
  | block _ inner _ rest => max (inner.depth + 1) rest.depth

/-- Inside a block nothing but blank rows comes after a block. -/
def NestsLast (inside : Bool) : Outline → Prop
  | nil => True
  | line _ rest => rest.NestsLast inside
  | block _ inner _ rest =>
    inner.NestsLast true ∧ (inside = true → ∀ row ∈ rest.rows, allBlank row = true) ∧ rest.NestsLast inside

instance decidableBalanced (width : Int) : ∀ t : Outline, Decidable (t.Balanced width)
  | nil => isTrue trivial
  | line _ rest => decidableBalanced width rest
  | block _ inner _ rest =>
    have := decidableBalanced width inner
    have := decidableBalanced width rest
    inferInstanceAs (Decidable ((_ ∧ _) ∧ _ ∧ _))

instance decidableNestsLast : ∀ (inside : Bool) (t : Outline), Decidable (t.NestsLast inside)
  | _, nil => isTrue trivial
  | inside, line _ rest => decidableNestsLast inside rest
  | inside, block _ inner _ rest =>
    have := decidableNestsLast true inner
    have := decidableNestsLast inside rest
    inferInstanceAs (Decidable (_ ∧ (_ → _) ∧ _))

end Outline

/-! ## Rows of text, opening rows and closing rows -/

/-- A line without Perl and without markup. -/
structure IsText (row : Text) : Prop where
  unbroken : row.Unbroken
  no_percent : '%' ∉ row
  no_angle : '<' ∉ row

/-- A directive with code of no braces, in which the words `begin` and `end` do not stand, and an opening brace. -/
def IsHead (row : Text) : Prop :=
  row.Unbroken ∧ ∃ code, Text.trim row = txt "% " ++ code ++ txt " \x7b" ∧ '\x7b' ∉ code ∧ '\x7d' ∉ code ∧
    txt "begin" ∉ words code ∧ txt "end" ∉ words code

def IsClose (row : Text) : Prop := row.Unbroken ∧ Text.trim row = txt "% \x7d"

/-- The outline of a template whose directives open and close braces. -/
def Outline.WellFormed : Outline → Prop
  | nil => True
  | line row rest => IsText row ∧ rest.WellFormed
  | block head inner close rest => IsHead head ∧ inner.WellFormed ∧ IsClose close ∧ rest.WellFormed

section

variable {row : Text}

theorem rowNesting_of_no_angle (h : '<' ∉ row) : rowNesting row = ⟨0, 0, none, none⟩ := by
  have hne : ∀ t, Text.trimLeft row ≠ '<' :: t := fun t ht =>
    h ((List.dropWhile_suffix isBlank).subset
      (by rw [show row.dropWhile isBlank = _ from ht]; exact List.mem_cons_self))
  have hchars : ∀ c ∈ row, c ≠ '<' := fun c hc he => h (he ▸ hc)
  have hbefore : Markup.Element.leadingEnds row.length row = 0 := by
    cases row.length with
    | zero => rfl
    | succ k =>
      unfold Markup.Element.leadingEnds
      have hread : Markup.Element.read? (row.dropWhile isBlank) = none := by
        unfold Markup.Element.read?
        split
        · rename_i rest hrest
          exact absurd hrest (hne rest)
        · rfl
      simp only [hread]
  have hall : Markup.Element.all row = [] := by
    have := Markup.Element.all_append_of_ne hchars []
    rwa [List.append_nil] at this
  have hopen : Markup.rawOpen? row = none := by
    unfold Markup.rawOpen?
    split
    · rename_i rest hrest
      exact absurd hrest (hne rest)
    · rfl
  have hclose : Markup.rawClose? row = none := by
    unfold Markup.rawClose?
    split
    · rename_i rest hrest
      exact absurd hrest (hne _)
    · rfl
  have hblank : Tag.blankOut row = row := by
    have := blankOut_append_of_ne hchars []
    rwa [List.append_nil, blankOut_nil, List.append_nil] at this
  rw [rowNesting, hblank, Markup.Nesting.ofLine, hbefore, hall, hopen, hclose]
  rfl

theorem rowNesting_of_isText (h : IsText row) : rowNesting row = ⟨0, 0, none, none⟩ := rowNesting_of_no_angle h.no_angle

theorem Place.walk_text (h : IsText row) (m p : Nat) : (⟨m, p, none⟩ : Place).walk row = (some (m + p), ⟨m, p, none⟩) := by
  have hnesting := rowNesting_of_isText h
  have hclose : Markup.rawClose? row = none := by
    rw [rowNesting, Tag.blankOut_of_not_percent h.no_percent] at hnesting
    exact congrArg Markup.Nesting.rawClose hnesting
  rw [Place.walk_of_still _ (shift_of_not_percent h.no_percent) hnesting hclose]
  rfl

theorem Place.walk_close (h : IsClose row) (m p : Nat) :
    (⟨m, p, none⟩ : Place).walk row = (some (m + (p - 1)), ⟨m, p - 2, none⟩) := by
  have hs : Shift.ofLine (txt "% \x7d") = ⟨1, -1⟩ := by decide
  have hm : Markup.Nesting.ofLine (Tag.blankOut (txt "% \x7d")) = ⟨0, 0, none, none⟩ := by decide
  rw [← Place.walk_trim _ h.1.feed_not_mem, h.2]
  simp [Place.walk, Place.step, hs, hm]
  omega

theorem rowNesting_percent (t : Text) :
    (rowNesting ('%' :: t)).before = 0 ∧ (rowNesting ('%' :: t)).rawOpen = none := by
  have hrow : rowNesting ('%' :: t) = Markup.Nesting.ofLine ('%' :: Tag.blankOut t) := by
    rw [rowNesting, blankOut_cons_of_ne (by decide)]
  rw [hrow]
  exact ⟨rfl, rfl⟩

theorem mem_words_of_after? {word t rest : Text} (hne : word ≠ []) (hw : ∀ c ∈ word, isWord c = true)
    (h : Text.after? word t = some rest) (hrest : startsWord rest = false) : word ∈ words t := by
  have hrun : t.takeWhile isWord = word := by
    rw [Text.after?_eq_some h, List.takeWhile_append_of_pos hw]
    cases rest with
    | nil => simp
    | cons c rest => rw [List.takeWhile_cons_of_neg (by simpa [startsWord] using hrest), List.append_nil]
  obtain ⟨more, hmore⟩ := splitOnP_head t
  rw [words, hmore, hrun]
  simp [hne]

theorem isEndDirective_of_words {body : Text} (h : txt "end" ∉ words body) : isEndDirective ('%' :: body) = false := by
  rw [isEndDirective, List.dropWhile_cons_of_neg (by decide)]
  simp only
  rw [show body.dropWhile isBlank = Text.trimLeft body from rfl]
  cases hafter : Text.after? (txt "end") (Text.trimLeft body) with
  | none => rfl
  | some after =>
    cases hstart : startsWord after with
    | true => simp [hstart]
    | false =>
      have hmem := mem_words_of_after? (by decide) (Text.forall_mem_of_all (by decide)) hafter hstart
      exact absurd (words_trimLeft body ▸ hmem) h

theorem leadingBraces_of_not_mem {body : Text} (h : '\x7d' ∉ body) : leadingBraces ('%' :: body) = 0 := by
  change ((Text.trimLeft body).takeWhile (· = '\x7d')).length = 0
  refine List.length_eq_zero_iff.2 (List.eq_nil_iff_forall_not_mem.2 (fun c hmem => ?_))
  have hbrace : c = '\x7d' := by simpa using List.all_eq_true.1 List.all_takeWhile c hmem
  exact h (hbrace ▸ (List.dropWhile_suffix isBlank).subset ((List.takeWhile_prefix _).subset hmem))

theorem shift_head {code : Text} (hn : '\n' ∉ code) (ho : '\x7b' ∉ code) (hc : '\x7d' ∉ code)
    (hb : txt "begin" ∉ words code) (he : txt "end" ∉ words code) :
    Shift.ofLine ('%' :: ' ' :: (code ++ [' ', '\x7b'])) = ⟨0, 1⟩ := by
  set body := ' ' :: (code ++ [' ', '\x7b']) with hbody
  have hlead : Text.trimLeft ('%' :: body) = '%' :: body := Text.trimLeft_cons_of_not_blank (by decide) body
  have hwords : words body = words code := by
    rw [words_cons (by decide), words_append_right (Text.forall_mem_of_all (by decide))]
  have hread : Directive.read? ('%' :: body) = some ⟨[], .statement, body⟩ := by
    rw [Directive.read?_percent hlead (by simp [hbody, hn])]
    rfl
  have hbegin : hasBegin ('%' :: body) = false := by
    rw [hasBegin_eq, words_cons (by decide), hwords, decide_eq_false hb]
  have hend : isEndDirective ('%' :: body) = false := isEndDirective_of_words (hwords ▸ he)
  have hbraces : leadingBraces ('%' :: body) = 0 := leadingBraces_of_not_mem (by simp [hbody, hc])
  have htag : insideTag? ('%' :: body) = none := insideTag?_of_ne (fun r hr => by rw [hlead] at hr; cases hr)
  have hbalance : braceBalance body = 1 := by
    simp [braceBalance, hbody, List.count_eq_zero.2 ho, List.count_eq_zero.2 hc]
  rw [Shift.ofLine, hread, hend, hbraces, isEndTag, isBraceTag, htag]
  simp [hbegin, hbalance, once]

theorem Place.walk_head (h : IsHead row) (m p : Nat) :
    (⟨m, p, none⟩ : Place).walk row = (some (m + p), ⟨(m + (rowNesting row).net).toNat, p + 1, none⟩) := by
  obtain ⟨hline, code, htrim, ho, hc, hb, he⟩ := h
  have hn := hline.feed_not_mem
  have hrow : Text.trim row = '%' :: ' ' :: (code ++ [' ', '\x7b']) := htrim
  have hnt : '\n' ∉ Text.trim row := fun hm => hn ((Text.trim_isInfix row).subset hm)
  have hs : Shift.ofLine (Text.trim row) = ⟨0, 1⟩ := by
    rw [hrow]
    refine shift_head (fun hm => hnt ?_) ho hc hb he
    rw [hrow]
    simp [hm]
  have hm : rowNesting row = rowNesting (Text.trim row) := (Respaced.trim row).rowNesting_eq hn hnt
  obtain ⟨hbefore, hopen⟩ := rowNesting_percent (' ' :: (code ++ [' ', '\x7b']))
  rw [← hrow] at hbefore hopen
  rw [← Place.walk_trim _ hn, hm]
  unfold rowNesting at hbefore hopen ⊢
  simp [Place.walk, Place.step, hs, hbefore, hopen]

/-- A row that is a directive with a space after its percent sign. -/
def IsDirective (row : Text) : Prop := ∃ body, Text.trimLeft row = '%' :: ' ' :: body

theorem isDirective_of_trim {s : Text} (h : Text.trim row = '%' :: ' ' :: s) : IsDirective row := by
  obtain ⟨b, -, hcut⟩ := Text.exists_trimRight (Text.trimLeft row)
  rw [show Text.trimRight (Text.trimLeft row) = _ from h] at hcut
  exact ⟨s ++ b, hcut⟩

theorem IsHead.isDirective (h : IsHead row) : IsDirective row := by
  obtain ⟨-, code, htrim, -⟩ := h
  exact isDirective_of_trim (s := code ++ [' ', '\x7b']) htrim

theorem IsClose.isDirective (h : IsClose row) : IsDirective row := isDirective_of_trim (s := ['\x7d']) h.2

def IsRow (row : Text) : Prop := IsText row ∨ row.Unbroken ∧ IsDirective row

theorem IsRow.unbroken (h : IsRow row) : row.Unbroken := h.elim (·.unbroken) (·.1)

theorem Outline.WellFormed.isRow : ∀ {t : Outline}, t.WellFormed → ∀ row ∈ t.rows, IsRow row
  | .nil, _, _, hm => by cases hm
  | .line row rest, h, r, hm => by
    rcases List.mem_cons.1 hm with rfl | hm
    · exact Or.inl h.1
    · exact h.2.isRow r hm
  | .block head inner close rest, ⟨hhead, hinner, hclose, hrest⟩, r, hm => by
    simp only [Outline.rows, List.mem_cons, List.mem_append] at hm
    rcases hm with rfl | hm | rfl | hm
    · exact Or.inr ⟨hhead.1, hhead.isDirective⟩
    · exact hinner.isRow r hm
    · exact Or.inr ⟨hclose.1, hclose.isDirective⟩
    · exact hrest.isRow r hm

theorem Place.raw_walk {place : Place} (hr : place.raw = none) (hopen : (rowNesting row).rawOpen = none) :
    (place.walk row).2.raw = none := by
  unfold rowNesting at hopen
  simp [Place.walk, hr, Place.step, hopen]

theorem IsRow.rawOpen_eq_none (h : IsRow row) : (rowNesting row).rawOpen = none := by
  rcases h with h | ⟨hu, body, hrow⟩
  · rw [rowNesting_of_isText h]
  · have hnt : '\n' ∉ Text.trim row := fun hm => hu.feed_not_mem ((Text.trim_isInfix row).subset hm)
    rw [(Respaced.trim row).rowNesting_eq hu.feed_not_mem hnt, Text.trim_eq_cons hrow]
    exact (rowNesting_percent _).2

end

/-! ## Rows as they are written -/

theorem dropTrailingPad_cons {c : Char} (hc : isPad c = false) (t : Text) : ∃ s, Text.dropTrailingPad (c :: t) = c :: s := by
  have hstart : Text.dropTrailingPad (c :: t) <+: c :: t := by
    have := List.dropWhile_suffix isPad (l := (c :: t).reverse)
    rw [← List.reverse_prefix, List.reverse_reverse] at this
    exact this
  cases hd : Text.dropTrailingPad (c :: t) with
  | nil =>
    have hnil : (c :: t).reverse.dropWhile isPad = [] := List.reverse_eq_nil_iff.1 hd
    have := List.dropWhile_eq_nil_iff.1 hnil c (by simp)
    rw [hc] at this
    cases this
  | cons d s =>
    rw [hd, List.cons_prefix_cons] at hstart
    exact ⟨s, by rw [hstart.1]⟩

namespace Treatment

variable {τ : Treatment} {cfg : Config} {row : Text}

theorem content_text (h : IsText row) (normalize : Bool) : τ.content normalize row = row := by
  rw [content, Directive.read?_of_ne (trimLeft_ne_percent h.no_percent)]
  exact Tag.substitute_of_not_percent _ h.no_percent

theorem content_isDirective (h : IsDirective row) (hn : '\n' ∉ row) (normalize : Bool) :
    ∃ body, (∀ c ∈ body, c ∈ row) ∧ τ.content normalize row = '%' :: Directive.afterSpace (τ.statement body) := by
  obtain ⟨body, hrow⟩ := h
  refine ⟨' ' :: body, fun c hc => ?_, ?_⟩
  · refine (List.dropWhile_suffix isBlank).subset ?_
    rw [show row.dropWhile isBlank = _ from hrow]
    exact List.mem_cons_of_mem _ hc
  · rw [content, Directive.read?_percent hrow hn]
    rfl

/-- A row that is not blank stands at the indentation of its level. -/
theorem margin_row {m p level : Nat} (h : ((⟨m, p, none⟩ : Place).walk row).1 = some level)
    (hc : allBlank (τ.content cfg.normalizeDelimiters row) = false) :
    Text.margin (τ.row cfg ⟨m, p, none⟩ row) = cfg.indentation level ∧
      allBlank (τ.row cfg ⟨m, p, none⟩ row) = false := by
  have hrow : τ.row cfg ⟨m, p, none⟩ row
      = Text.dropTrailingPad (cfg.indentation level ++ Text.trimLeft (τ.content cfg.normalizeDelimiters row)) := by
    rw [Treatment.row, h]
    rfl
  rw [dropTrailingPad_row, hc] at hrow
  cases ht : Text.trimLeft (τ.content cfg.normalizeDelimiters row) with
  | nil => rw [Text.trimLeft_eq_nil_iff.1 ht] at hc; cases hc
  | cons c r =>
    have hblank := Text.isBlank_of_trimLeft ht
    obtain ⟨s, hs⟩ := dropTrailingPad_cons (isPad_of_not_blank hblank) r
    rw [hrow, ht, hs]
    have hind := allBlank_iff.1 (allBlank_indentation cfg level)
    refine ⟨?_, by simp [hblank]⟩
    simp only [Bool.false_eq_true, if_false]
    rw [Text.margin, List.takeWhile_append_of_pos hind, List.takeWhile_cons_of_neg (by simp [hblank]), List.append_nil]

theorem margin_text (τ : Treatment) (cfg : Config) {row : Text} (h : IsText row) (hb : allBlank row = false) (m p : Nat) :
    Text.margin (τ.row cfg ⟨m, p, none⟩ row) = cfg.indentation (m + p) ∧ allBlank (τ.row cfg ⟨m, p, none⟩ row) = false :=
  margin_row (by rw [Place.walk_text h]) (by rw [content_text h, hb])

theorem allBlank_content {row : Text} (h : IsDirective row) (hn : '\n' ∉ row) (normalize : Bool) :
    allBlank (τ.content normalize row) = false := by
  obtain ⟨body, -, hcontent⟩ := content_isDirective (τ := τ) h hn normalize
  rw [hcontent]
  rfl

theorem margin_head (τ : Treatment) (cfg : Config) {row : Text} (h : IsHead row) (m p : Nat) :
    Text.margin (τ.row cfg ⟨m, p, none⟩ row) = cfg.indentation (m + p) ∧ allBlank (τ.row cfg ⟨m, p, none⟩ row) = false :=
  margin_row (by rw [Place.walk_head h]) (allBlank_content h.isDirective h.1.feed_not_mem _)

theorem margin_close (τ : Treatment) (cfg : Config) {row : Text} (h : IsClose row) (m p : Nat) :
    Text.margin (τ.row cfg ⟨m, p, none⟩ row) = cfg.indentation (m + (p - 1)) ∧
      allBlank (τ.row cfg ⟨m, p, none⟩ row) = false :=
  margin_row (by rw [Place.walk_close h]) (allBlank_content h.isDirective h.1.feed_not_mem _)

theorem row_blank {m p : Nat} (h : IsText row) (hb : allBlank row = true) : τ.row cfg ⟨m, p, none⟩ row = [] := by
  rw [Treatment.row, Place.walk_text h]
  change Text.dropTrailingPad (cfg.indentation (m + p) ++ Text.trimLeft (τ.content cfg.normalizeDelimiters row)) = []
  rw [content_text h, dropTrailingPad_row, if_pos hb]

/-! ## The outline as it is written -/

/-- The outline with its rows as they are written, from a place on. -/
def outline (τ : Treatment) (cfg : Config) : Place → Outline → Outline
  | _, .nil => .nil
  | place, .line row rest => .line (τ.row cfg place row) (outline τ cfg (place.walk row).2 rest)
  | place, .block head inner close rest =>
    let inside := (place.walk head).2
    let last := inside.through inner.rows
    .block (τ.row cfg place head) (outline τ cfg inside inner) (τ.row cfg last close)
      (outline τ cfg (last.walk close).2 rest)

theorem fill_rows : ∀ (t : Outline) (place : Place) (more : List Text),
    t.fill (τ.rows cfg place t.rows ++ more) = (τ.outline cfg place t, more)
  | .nil, _, _ => rfl
  | .line row rest, place, more => by
    have ih := fill_rows rest (place.walk row).2 more
    simp [Outline.fill, Outline.rows, rows, outline, ih]
  | .block head inner close rest, place, more => by
    have hinner := fill_rows inner (place.walk head).2
      (τ.rows cfg ((place.walk head).2.through inner.rows) (close :: rest.rows) ++ more)
    have hrest := fill_rows rest ((((place.walk head).2).through inner.rows).walk close).2 more
    simp only [Outline.fill, Outline.rows, rows, outline, List.cons_append, List.headD_cons, List.tail_cons, rows_append,
      List.append_assoc] at hinner hrest ⊢
    rw [hinner]
    simp only [List.headD_cons, List.tail_cons, hrest]

end Treatment

/-! ## Levels -/

namespace Outline

/-- The depth of Perl after the rows of an outline: a block leaves one level less than it found. -/
def after : Outline → Nat → Nat
  | nil, p => p
  | line _ rest, p => rest.after p
  | block _ inner _ rest, p => rest.after (inner.after (p + 1) - 2)

/-- From a depth of Perl on, the rows directly in the outline stand at the level that is asked for, if one is, and its
blocks are balanced. -/
def Level : Outline → Option Nat → Nat → Prop
  | nil, _, _ => True
  | line row rest, want, p => (allBlank row = true ∨ ∀ l ∈ want, p = l) ∧ rest.Level want p
  | block head inner _ rest, want, p =>
    (∀ l ∈ want, p = l) ∧ (rowNesting head).net ≤ 0 ∧ inner.Level (some (p + 1)) (p + 1) ∧ inner.after (p + 1) - 1 = p ∧
      rest.Level want (inner.after (p + 1) - 2)

theorem Level.heads : ∀ {t : Outline} {want : Option Nat} {p : Nat}, t.Level want p →
    ∀ head ∈ t.heads, (rowNesting head).net ≤ 0
  | nil, _, _, _, _, hm => by cases hm
  | line _ rest, _, _, h, head, hm => h.2.heads head hm
  | block _ inner _ rest, _, _, ⟨_, hhead, hinner, _, hrest⟩, head, hm => by
    rcases List.mem_cons.1 hm with rfl | hm
    · exact hhead
    · rcases List.mem_append.1 hm with hm | hm
      · exact hinner.heads head hm
      · exact hrest.heads head hm

theorem through_rows : ∀ {t : Outline}, t.WellFormed → (∀ head ∈ t.heads, (rowNesting head).net ≤ 0) → ∀ p : Nat,
    (⟨0, p, none⟩ : Place).through t.rows = ⟨0, t.after p, none⟩
  | nil, _, _, _ => rfl
  | line row rest, hw, hh, p => by
    rw [rows, Place.through_cons, Place.walk_text hw.1, after]
    exact through_rows hw.2 hh p
  | block head inner close rest, hw, hh, p => by
    have hhead : (0 + (rowNesting head).net).toNat = 0 := by
      have := hh head List.mem_cons_self
      omega
    have hinner := through_rows hw.2.1 (fun h hm => hh h (List.mem_cons_of_mem head (List.mem_append_left _ hm))) (p + 1)
    have hrest := through_rows hw.2.2.2 (fun h hm => hh h (List.mem_cons_of_mem head (List.mem_append_right _ hm)))
      (inner.after (p + 1) - 2)
    rw [rows, Place.through_cons, Place.walk_head hw.1]
    simp only [Int.natCast_zero, hhead, Place.through_append, hinner, Place.through_cons, Place.walk_close hw.2.2.1, hrest,
      after]

end Outline

section

variable {cfg : Config} (hw : 0 < cfg.indentWidth)

include hw

theorem Config.indentation_inj {a b : Nat} : cfg.indentation a = cfg.indentation b ↔ a = b := by
  refine ⟨fun h => ?_, fun h => by rw [h]⟩
  have hlength := congrArg List.length h
  have ha : 0 ≤ cfg.indentWidth * (a : Int) := Int.mul_nonneg (by omega) (by omega)
  have hb : 0 ≤ cfg.indentWidth * (b : Int) := Int.mul_nonneg (by omega) (by omega)
  simp only [Config.indentation, Text.spaces, List.length_replicate] at hlength
  have hsame : cfg.indentWidth * (a : Int) = cfg.indentWidth * (b : Int) := by omega
  exact Int.ofNat.inj (Int.eq_of_mul_eq_mul_left (by omega) hsame)

theorem Config.indentation_succ (p : Nat) : cfg.indentation (p + 1) = cfg.indentation p ++ Text.spaces cfg.indentWidth := by
  have hp : 0 ≤ cfg.indentWidth * (p : Int) := Int.mul_nonneg (by omega) (by omega)
  have hsum : (cfg.indentWidth * ((p + 1 : Nat) : Int)).toNat
      = (cfg.indentWidth * (p : Int)).toNat + cfg.indentWidth.toNat := by
    rw [Int.natCast_add, Int.natCast_one, Int.mul_add, Int.mul_one, Int.toNat_add hp (by omega)]
  rw [Config.indentation, Text.spaces, hsum, ← List.replicate_append_replicate]
  rfl

namespace Treatment

variable {τ : Treatment}

/-- The first row inside a block that is not blank, or else the closing row, shows whether the opening row has moved the
depth of markup. -/
theorem markup_eq_zero {close : Text} (hclose : IsClose close) : ∀ {t : Outline}, t.WellFormed → ∀ {k p : Nat},
    (∀ row ∈ (τ.outline cfg ⟨k, p + 1, none⟩ t).direct,
      allBlank row = true ∨ Text.margin row = cfg.indentation (p + 1)) →
    Text.margin (τ.row cfg ((⟨k, p + 1, none⟩ : Place).through t.rows) close) = cfg.indentation p → k = 0
  | .nil, _, k, p, _, hlast => by
    rw [Outline.rows, Place.through_nil, (margin_close τ cfg hclose k (p + 1)).1, Config.indentation_inj hw] at hlast
    omega
  | .line row rest, hwf, k, p, hdirect, hlast => by
    cases hb : allBlank row with
    | true =>
      rw [Outline.rows, Place.through_cons, Place.walk_text hwf.1] at hlast
      rw [outline, Place.walk_text hwf.1] at hdirect
      exact markup_eq_zero hclose hwf.2 (fun r hr => hdirect r (List.mem_cons_of_mem _ hr)) hlast
    | false =>
      obtain ⟨hmargin, hink⟩ := margin_text τ cfg hwf.1 hb k (p + 1)
      have hrow := (hdirect _ List.mem_cons_self).resolve_left (by rw [hink]; exact Bool.false_ne_true)
      rw [hmargin, Config.indentation_inj hw] at hrow
      omega
  | .block head inner close' rest, hwf, k, p, hdirect, _ => by
    obtain ⟨hmargin, hink⟩ := margin_head τ cfg hwf.1 k (p + 1)
    have hrow := (hdirect _ List.mem_cons_self).resolve_left (by rw [hink]; exact Bool.false_ne_true)
    rw [hmargin, Config.indentation_inj hw] at hrow
    omega

theorem text_at {row : Text} (h : IsText row) (p l : Nat) :
    (allBlank (τ.row cfg ⟨0, p, none⟩ row) = true ∨ Text.margin (τ.row cfg ⟨0, p, none⟩ row) = cfg.indentation l) ↔
      (allBlank row = true ∨ p = l) := by
  cases hb : allBlank row with
  | true => simp [row_blank h hb]
  | false =>
    obtain ⟨hmargin, hink⟩ := margin_text τ cfg h hb 0 p
    rw [hmargin, hink, Config.indentation_inj hw, Nat.zero_add]

theorem row_at {row : Text} {p level : Nat} (h : ((⟨0, p, none⟩ : Place).walk row).1 = some level)
    (hc : allBlank (τ.content cfg.normalizeDelimiters row) = false) (l : Nat) :
    (allBlank (τ.row cfg ⟨0, p, none⟩ row) = true ∨ Text.margin (τ.row cfg ⟨0, p, none⟩ row) = cfg.indentation l) ↔
      level = l := by
  obtain ⟨hmargin, hink⟩ := margin_row h hc
  rw [hmargin, hink, Config.indentation_inj hw]
  simp

theorem head_at {row : Text} (h : IsHead row) (p l : Nat) :
    (allBlank (τ.row cfg ⟨0, p, none⟩ row) = true ∨ Text.margin (τ.row cfg ⟨0, p, none⟩ row) = cfg.indentation l) ↔
      p = l :=
  row_at hw (by rw [Place.walk_head h, Nat.zero_add]) (allBlank_content h.isDirective h.1.feed_not_mem _) l

theorem close_at {row : Text} (h : IsClose row) (p l : Nat) :
    (allBlank (τ.row cfg ⟨0, p, none⟩ row) = true ∨ Text.margin (τ.row cfg ⟨0, p, none⟩ row) = cfg.indentation l) ↔
      p - 1 = l :=
  row_at hw (by rw [Place.walk_close h, Nat.zero_add]) (allBlank_content h.isDirective h.1.feed_not_mem _) l

/-- **An outline is written as its levels ask.** -/
theorem level_iff : ∀ {t : Outline}, t.WellFormed → ∀ (want : Option Nat) (p : Nat),
    ((∀ l ∈ want, ∀ row ∈ (τ.outline cfg ⟨0, p, none⟩ t).direct,
        allBlank row = true ∨ Text.margin row = cfg.indentation l) ∧
      (τ.outline cfg ⟨0, p, none⟩ t).Balanced cfg.indentWidth) ↔ t.Level want p
  | .nil, _, want, p => by simp [outline, Outline.direct, Outline.Balanced, Outline.Level]
  | .line row rest, hwf, want, p => by
    have ih := level_iff hwf.2 want p
    rw [outline, Place.walk_text hwf.1, Nat.zero_add, Outline.Level, ← ih]
    cases want with
    | none => simp [Outline.direct, Outline.Balanced]
    | some l => simp [Outline.direct, Outline.Balanced, text_at hw hwf.1, and_assoc]
  | .block head inner close rest, hwf, want, p => by
    obtain ⟨hhead, hinnerwf, hclose, hrestwf⟩ := hwf
    have hmargin := (margin_head τ cfg hhead 0 p).1
    rw [Nat.zero_add] at hmargin
    have hinner := level_iff hinnerwf (some (p + 1)) (p + 1)
    have hrest := level_iff hrestwf want (inner.after (p + 1) - 2)
    rw [outline, Place.walk_head hhead]
    simp only [Outline.Balanced, hmargin, ← Config.indentation_succ hw]
    by_cases hnet : (rowNesting head).net ≤ 0
    · have hzero : ((0 : Nat) + (rowNesting head).net).toNat = 0 := by omega
      rw [hzero]
      -- The rows inside lead to a known place only if their own opening rows move no markup, as their levels say.
      have hthrough : inner.Level (some (p + 1)) (p + 1) →
          (⟨0, p + 1, none⟩ : Place).through inner.rows = ⟨0, inner.after (p + 1), none⟩ :=
        fun h => Outline.through_rows hinnerwf h.heads (p + 1)
      constructor
      · rintro ⟨hwant, ⟨hlast, hdirect⟩, hbalanced, hmore⟩
        have hlevel := hinner.1 ⟨fun l hl row hrow => Option.some.inj hl ▸ hdirect row hrow, hbalanced⟩
        rw [hthrough hlevel] at hlast hmore hwant
        have hsame := (close_at hw hclose _ _).1 (Or.inr hlast)
        refine ⟨fun l hl => ?_, hnet, hlevel, hsame, hrest.1 ⟨fun l hl row hrow => ?_, ?_⟩⟩
        · exact (head_at hw hhead p l).1 (hwant l hl _ List.mem_cons_self)
        · rw [Place.walk_close hclose] at hwant
          exact hwant l hl row (List.mem_cons_of_mem _ (List.mem_cons_of_mem _ hrow))
        · rwa [Place.walk_close hclose] at hmore
      · rintro ⟨hp, -, hlevel, hsame, hmore⟩
        obtain ⟨hdirect, hbalanced⟩ := hinner.2 hlevel
        obtain ⟨hwant, hmore⟩ := hrest.2 hmore
        rw [hthrough hlevel, Place.walk_close hclose]
        have hlast := (margin_close τ cfg hclose 0 (inner.after (p + 1))).1
        rw [Nat.zero_add, hsame] at hlast
        refine ⟨fun l hl row hrow => ?_, ⟨hlast, hdirect (p + 1) rfl⟩, hbalanced, hmore⟩
        rcases List.mem_cons.1 hrow with rfl | hrow
        · exact (head_at hw hhead p l).2 (hp l hl)
        · rcases List.mem_cons.1 hrow with rfl | hrow
          · exact (close_at hw hclose _ l).2 (hsame.trans (hp l hl))
          · exact hwant l hl row hrow
    · constructor
      · rintro ⟨-, ⟨hlast, hdirect⟩, -⟩
        have hzero := markup_eq_zero hw hclose hinnerwf hdirect hlast
        omega
      · exact fun h => absurd h.2.1 hnet

end Treatment

end

/-! ## Levels and the shape of the outline -/

theorem IsHead.allBlank_eq_false {row : Text} (h : IsHead row) : allBlank row = false := by
  obtain ⟨-, code, htrim, -⟩ := h
  rw [← Text.allBlank_trim, htrim]
  rfl

namespace Outline

/-- Blank rows are in no block, and stand anywhere. -/
theorem of_blank : ∀ {t : Outline}, t.WellFormed → (∀ row ∈ t.rows, allBlank row = true) →
    t.heads = [] ∧ t.depth = 0 ∧ t.NestsLast true ∧ (∀ p, t.after p = p) ∧ ∀ want p, t.Level want p
  | nil, _, _ => ⟨rfl, rfl, trivial, fun _ => rfl, fun _ _ => trivial⟩
  | line row rest, hwf, h => by
    obtain ⟨hheads, hdepth, hlast, hafter, hlevel⟩ := of_blank hwf.2 (fun r hr => h r (List.mem_cons_of_mem row hr))
    exact ⟨hheads, hdepth, hlast, hafter, fun want p => ⟨Or.inl (h row List.mem_cons_self), hlevel want p⟩⟩
  | block head inner close rest, hwf, h => by
    have hblank := h head List.mem_cons_self
    rw [hwf.1.allBlank_eq_false] at hblank
    cases hblank

/-- At a depth of Perl that is not asked for nothing but blank rows can stand. -/
theorem Level.blank : ∀ {t : Outline} {l p : Nat}, p ≠ l → t.Level (some l) p → ∀ row ∈ t.rows, allBlank row = true
  | nil, _, _, _, _, _, hm => by cases hm
  | line row rest, l, p, hne, h, r, hm => by
    rcases List.mem_cons.1 hm with rfl | hm
    · exact h.1.resolve_right (fun hp => hne (hp l rfl))
    · exact Level.blank hne h.2 r hm
  | block head inner close rest, l, p, hne, h, _, _ => absurd (h.1 l rfl) hne

/-- **Inside a block**: the depth comes out right only if no block is inside it, or if it is at the very outside and the
one block inside comes last. -/
theorem level_inside_iff : ∀ {t : Outline}, t.WellFormed → ∀ p : Nat,
    (t.Level (some (p + 1)) (p + 1) ∧ t.after (p + 1) - 1 = p) ↔
      (∀ head ∈ t.heads, (rowNesting head).net ≤ 0) ∧ t.NestsLast true ∧ (t.depth = 0 ∨ p = 0 ∧ t.depth ≤ 1)
  | nil, _, p => by simp [Level, after, heads, NestsLast, depth]
  | line row rest, hwf, p => by
    have ih := level_inside_iff hwf.2 p
    simpa [Level, after, heads, NestsLast, depth] using ih
  | block head inner close rest, hwf, p => by
    obtain ⟨-, hinnerwf, -, hrestwf⟩ := hwf
    have hinner := level_inside_iff hinnerwf (p + 1)
    constructor
    · rintro ⟨⟨-, hnet, hlevel, hclose, hrest⟩, hlast⟩
      obtain ⟨hheads, hnests, hdepth⟩ := hinner.1 ⟨hlevel, hclose⟩
      have hback : inner.after (p + 1 + 1) - 2 = p := by omega
      rw [hback] at hrest
      have hblank := hrest.blank (by omega)
      obtain ⟨hnone, hflat, hends, hstays, -⟩ := of_blank hrestwf hblank
      rw [after, hback, hstays] at hlast
      refine ⟨?_, ⟨hnests, fun _ => hblank, hends⟩, Or.inr ⟨by omega, ?_⟩⟩
      · simp only [heads, hnone, List.append_nil, List.forall_mem_cons]
        exact ⟨hnet, hheads⟩
      · rw [depth, hflat]
        omega
    · rintro ⟨hheads, ⟨hnests, hblank, -⟩, hdepth⟩
      simp only [heads, List.forall_mem_cons, List.forall_mem_append] at hheads
      rw [depth] at hdepth
      obtain ⟨hlevel, hclose⟩ := hinner.2 ⟨hheads.2.1, hnests, by omega⟩
      obtain ⟨-, -, -, hstays, hanywhere⟩ := of_blank hrestwf (hblank rfl)
      refine ⟨⟨fun l hl => Option.some.inj hl, hheads.1, hlevel, hclose, hanywhere _ _⟩, ?_⟩
      rw [after, hstays]
      omega

/-- **Outside of all blocks** the depth is zero again after each block. -/
theorem level_outside_iff : ∀ {t : Outline}, t.WellFormed →
    (t.Level none 0 ↔ (∀ head ∈ t.heads, (rowNesting head).net ≤ 0) ∧ t.depth ≤ 2 ∧ t.NestsLast false)
  | nil, _ => by simp [Level, heads, NestsLast, depth]
  | line row rest, hwf => by
    have ih := level_outside_iff hwf.2
    simpa [Level, heads, NestsLast, depth] using ih
  | block head inner close rest, hwf => by
    obtain ⟨-, hinnerwf, -, hrestwf⟩ := hwf
    have hinner := level_inside_iff hinnerwf 0
    have hrest := level_outside_iff hrestwf
    simp only [heads, List.forall_mem_cons, List.forall_mem_append, depth, NestsLast]
    constructor
    · rintro ⟨-, hnet, hlevel, hclose, hmore⟩
      obtain ⟨hheads, hnests, hdepth⟩ := hinner.1 ⟨hlevel, hclose⟩
      rw [show inner.after (0 + 1) - 2 = 0 by omega] at hmore
      obtain ⟨hothers, hflat, hends⟩ := hrest.1 hmore
      exact ⟨⟨hnet, hheads, hothers⟩, by omega, hnests, by simp, hends⟩
    · rintro ⟨⟨hnet, hheads, hothers⟩, hdepth, hnests, -, hends⟩
      obtain ⟨hlevel, hclose⟩ := hinner.2 ⟨hheads, hnests, by omega⟩
      refine ⟨by simp, hnet, hlevel, hclose, ?_⟩
      rw [show inner.after (0 + 1) - 2 = 0 by omega]
      exact hrest.2 ⟨hothers, by omega, hends⟩

end Outline

/-! ## Rows on lines of their own -/

namespace Treatment

variable {cfg : Config}

/-- A row is written on one line that opens no block. -/
theorem row_on_line {row : Text} (h : IsRow row) (place : Place) :
    ((absent cfg).row cfg place row).Unbroken ∧ Opening.read? ((absent cfg).row cfg place row) = none := by
  refine ⟨unbroken_row place h.unbroken, Option.eq_none_iff_forall_ne_some.2 (fun o ho => ?_)⟩
  have htrim := trim_of_opening_row ho
  rcases h with h | ⟨-, body, hbody⟩
  · exact h.no_percent ((Text.trim_isInfix row).subset (by simp [htrim]))
  · rw [Text.trim, hbody, Text.trimRight_cons (by decide)] at htrim
    cases htrim

/-- What rows keep outside of raw elements, one by one, holds of all of them as they are written. -/
theorem forall_rows {τ : Treatment} {P : Text → Prop} : ∀ {rs : List Text}, (∀ row ∈ rs, ∀ place : Place, place.raw = none →
    (place.walk row).2.raw = none ∧ P (τ.row cfg place row)) → ∀ {place : Place}, place.raw = none →
      ∀ r ∈ τ.rows cfg place rs, P r
  | [], _, _, _, _, hm => by cases hm
  | row :: rs, h, place, hr, r, hm => by
    obtain ⟨hnext, hrow⟩ := h row List.mem_cons_self place hr
    rcases List.mem_cons.1 hm with rfl | hm
    · exact hrow
    · exact forall_rows (fun x hx => h x (List.mem_cons_of_mem row hx)) hnext r hm

theorem rows_on_lines {rs : List Text} (h : ∀ row ∈ rs, IsRow row) {place : Place} (hr : place.raw = none) :
    ∀ r ∈ (absent cfg).rows cfg place rs, r.Unbroken ∧ Opening.read? r = none :=
  forall_rows (fun row hrow _ hp => ⟨Place.raw_walk hp (h row hrow).rawOpen_eq_none, row_on_line (h row hrow) _⟩) hr

end Treatment

/-- The rows of a text come back from the finished text; a line end at the end makes one more. -/
theorem rows_finish (cfg : Config) (source : Text) {written : List Text} (hne : written ≠ [])
    (hu : ∀ r ∈ written, r.Unbroken) :
    ∃ more, Text.rows (Eol.unify (finish cfg source (Text.unrows written))) = written ++ more := by
  have hreturn : '\r' ∉ endLine (Text.unrows written) := by
    have hrows := Text.return_not_mem_unrows (fun r hr => (hu r hr).return_not_mem)
    rw [endLine]
    split
    · exact hrows
    · simp [hrows]
  rw [finish, Eol.unify_apply, Eol.unify_of_not_mem hreturn, endLine]
  obtain ⟨ks, k, hk⟩ := (List.eq_nil_or_concat written).resolve_left hne
  rw [List.concat_eq_append] at hk
  split
  · refine ⟨[], ?_⟩
    rw [List.append_nil, hk, Text.rows_unrows (hu k (by simp [hk])).feed_not_mem]
    exact fun r hr => (hu r (by simp [hk, hr])).feed_not_mem
  · refine ⟨[[]], ?_⟩
    rw [← Text.unrows_feed hne, Text.rows_unrows (by simp) (fun r hr => (hu r hr).feed_not_mem)]

/-! ## Balance -/

variable {tidier : Tidier} {cfg : Config} {source : Text} {t : Outline}

/-- **The blocks of a template are balanced, as it is written without a tidier, exactly if no closing brace that counts
twice is felt**: if no opening row raises the depth of markup, no block is inside a block inside a block, and inside a
block nothing but blank rows comes after a block.  Within the widths of lines the text is the result, unless something is
too wide; with a usual width nothing is. -/
theorem outline_balanced_iff (h : tidier.Unavailable cfg) (hw : 0 < cfg.indentWidth) (hwf : t.WellFormed)
    (hrows : Text.rows (Eol.unify source) = t.rows) (s : Session) :
    let out := ((format tidier cfg source).run s).1
    ((t.fill (Text.rows (Eol.unify out))).1.Balanced cfg.indentWidth ↔
      (∀ head ∈ t.heads, (rowNesting head).net ≤ 0) ∧ t.depth ≤ 2 ∧ t.NestsLast false) ∧
      ((formatWithin tidier cfg source).run s).1 = WidthError.unless out (tooWide? noReply cfg source) ∧
      (cfg.usualWidth = true → tooWide? noReply cfg source = none) := by
  intro out
  have hwritten : Gives (formatRows tidier cfg [] {} (Text.rows (Eol.unify source)))
      ((Treatment.absent cfg).rows cfg {} t.rows) := by
    rw [hrows]
    exact rows_gives h.steady t.rows [] {}
  have hlines : ∀ r ∈ (Treatment.absent cfg).rows cfg {} t.rows, r.Unbroken ∧ Opening.read? r = none :=
    Treatment.rows_on_lines hwf.isRow rfl
  have hout : out = finish cfg source (Text.unrows ((Treatment.absent cfg).rows cfg {} t.rows)) :=
    (gives_of_not_opening hwritten (fun r hr => (hlines r hr).1) (fun r hr => (hlines r hr).2)).1 s
  have hne : (Treatment.absent cfg).rows cfg {} t.rows ≠ [] :=
    Treatment.rows_ne_nil (hrows ▸ Text.rows_ne_nil (Eol.unify source)) {}
  obtain ⟨more, hmore⟩ := rows_finish cfg source hne (fun r hr => (hlines r hr).1)
  refine ⟨?_, ?_, fun hu => if_pos hu⟩
  · rw [hout, hmore, Treatment.fill_rows, ← Outline.level_outside_iff hwf,
      ← Treatment.level_iff (τ := Treatment.absent cfg) hw hwf none 0]
    simp
  · rw [formatWithin_gives h.steady source s, ← format_gives h.steady source s]

/-- A block inside a block, the last of its rows but for a blank one, comes out balanced. -/
theorem outline_balanced_nested :
    let t : Outline := .block (txt "% if (1) \x7b") (.line (txt "x") (.block (txt " % for my $i (1..3) \x7b")
      (.line [] (.line (txt "y") .nil)) (txt "% \x7d") (.line [] .nil))) (txt "% \x7d") (.line (txt "z") .nil)
    let source := txt "% if (1) \x7b\nx\n % for my $i (1..3) \x7b\n\ny\n% \x7d\n\n% \x7d\nz"
    (t.fill (Text.rows (Eol.unify ((format Tidier.absent { indentWidth := 3 } source).run {}).1))).1.Balanced 3 := by
  intro t source
  have hhead : IsHead (txt "% if (1) \x7b") :=
    ⟨by decide, txt "if (1)", by decide, by decide, by decide, by decide +kernel, by decide +kernel⟩
  have hinner : IsHead (txt " % for my $i (1..3) \x7b") :=
    ⟨by decide, txt "for my $i (1..3)", by decide, by decide, by decide, by decide +kernel, by decide +kernel⟩
  have hclose : IsClose (txt "% \x7d") := ⟨by decide, by decide⟩
  have hwf : t.WellFormed :=
    ⟨hhead, ⟨⟨by decide, by decide, by decide⟩, hinner, ⟨⟨by decide, by decide, by decide⟩,
      ⟨by decide, by decide, by decide⟩, trivial⟩, hclose, ⟨by decide, by decide, by decide⟩, trivial⟩, hclose,
      ⟨by decide, by decide, by decide⟩, trivial⟩
  exact (@outline_balanced_iff Tidier.absent _ source t (Or.inr (fun _ _ => rfl)) (by decide) hwf (by decide +kernel) {}).1.2
    ⟨by decide +kernel, by decide, by decide⟩

/-- A row after a block inside a block comes out where the outer block stands. -/
theorem row_after_block_misplaced :
    let t : Outline := .block (txt "% if (1) \x7b") (.line (txt "text") (.block (txt "% if (2) \x7b")
      (.line (txt "a") .nil) (txt "% \x7d") (.line (txt "b") .nil))) (txt "% \x7d") (.line [] .nil)
    let source := txt "% if (1) \x7b\ntext\n% if (2) \x7b\na\n% \x7d\nb\n% \x7d\n"
    let out := txt "% if (1) \x7b\n  text\n  % if (2) \x7b\n    a\n  % \x7d\nb\n% \x7d\n"
    t.WellFormed ∧ Text.rows (Eol.unify source) = t.rows ∧
      ((formatWithin Tidier.absent {} source).run {}).1 = .ok out ∧
      ¬ (t.fill (Text.rows (Eol.unify out))).1.Balanced 2 := by
  intro t source out
  have hhead : IsHead (txt "% if (1) \x7b") :=
    ⟨by decide, txt "if (1)", by decide, by decide, by decide, by decide +kernel, by decide +kernel⟩
  have hinner : IsHead (txt "% if (2) \x7b") :=
    ⟨by decide, txt "if (2)", by decide, by decide, by decide, by decide +kernel, by decide +kernel⟩
  have hclose : IsClose (txt "% \x7d") := ⟨by decide, by decide⟩
  have hwf : t.WellFormed :=
    ⟨hhead, ⟨⟨by decide, by decide, by decide⟩, hinner, ⟨⟨by decide, by decide, by decide⟩, trivial⟩, hclose,
      ⟨by decide, by decide, by decide⟩, trivial⟩, hclose, ⟨by decide, by decide, by decide⟩, trivial⟩
  rw [formatWithin_usual (by decide)]
  exact ⟨hwf, by decide +kernel, congrArg Except.ok (by decide +kernel), by decide +kernel⟩

end EpFormat
