import Mathlib.Data.List.Forall2
import Mathlib.Data.List.ReduceOption
import EpFormat.Proofs.OnLines
/-!
# RawElement — the content of raw elements

The first pass leaves the rows between the opening and the closing row of a raw element as they are.  The second pass
looks for blocks in all lines and knows nothing of raw elements: a block may begin in one, or before it, and may end
there or after it.  `fates` says what the second pass makes of each line, and the content of a raw element stands in the
result exactly if it makes of each line of the content that line (`raw_content_kept_iff`).
-/
namespace EpFormat

open Template Template.Tag Perl Markup

/-! ## What the second pass makes of each line -/

/-- What becomes of the lines of a body: blank ones at its ends are dropped, the others are laid out. -/
def Template.Opening.fates (o : Opening) (width : Int) (body : List Text) : List (Option Text) :=
  (blankFront body).map (fun _ => none) ++ ((o.inner width body).map some ++ (blankBack body).map (fun _ => none))

def Template.Block.fates (width : Int) (b : Block) : List (Option Text) :=
  some b.opening.text :: (b.opening.fates width b.body ++ [some (b.opening.closing b.right)])

/-- What becomes of each line in the second pass, without a tidier: the line that is written for it, if one is. -/
def fates (width : Int) (ls : List Text) : List (Option Text) :=
  (scan Block.finder ls).flatMap (fun
    | .item line => [some line]
    | .hit b _ => b.fates width)

theorem fates_block {line close : Text} {opening : Opening} {right : Bool} {body : List Text}
    (hopen : Opening.read? line = some opening) (hclose : readClosing? close = some right)
    (hbody : ∀ l ∈ body, readClosing? l = none) (width : Int) (post : List Text) :
    fates width (line :: (body ++ close :: post)) = Block.fates width ⟨opening, body, right⟩ ++ fates width post := by
  rw [fates, Block.scan_block hopen hclose hbody]
  rfl

theorem fates_line {line : Text} {rest : List Text} (h : Block.finder none (line :: rest) = none) (width : Int) :
    fates width (line :: rest) = some line :: fates width rest := by
  rw [fates, Block.scan_line h]
  rfl

theorem reduceOption_map_some (ls : List Text) : (ls.map some).reduceOption = ls := by
  simp [List.reduceOption]

/-- **The lines that are written are those of the second pass.** -/
theorem reduceOption_fates {τ : Treatment} {cfg : Config} (hb : τ.Lays cfg) (ls : List Text) (hu : ∀ l ∈ ls, l.Unbroken) :
    (fates cfg.indentWidth ls).reduceOption = τ.blocks ls := by
  induction ls using Block.block_induct with
  | nil => rfl
  | line line rest hl ih =>
    rw [fates_line hl, τ.blocks_line hl, List.reduceOption_cons_of_some, ih (fun l hm => hu l (List.mem_cons_of_mem line hm))]
  | block line o body close right post hopen hclose hbody ih =>
    rw [fates_block hopen hclose hbody, τ.blocks_block hopen hclose hbody,
      Treatment.blockLines_eq hb o right (fun l hl => hu l (by simp [hl])), List.reduceOption_append,
      ih (fun l hm => hu l (by simp [hm])), Block.fates, Opening.fates]
    simp [List.reduceOption_append, reduceOption_map_some]

/-- What may become of a line: nothing if it is blank, and otherwise a line with its ink.  But for closing lines of
blocks, the trimmed text is the same too. -/
def Becomes (line : Text) : Option Text → Prop
  | none => allBlank line = true
  | some written => ink written = ink line ∧ (readClosing? line = none → Text.trim written = Text.trim line)

theorem Becomes.of_trim {line written : Text} (h : Text.trim written = Text.trim line) : Becomes line (some written) :=
  ⟨by rw [← ink_trim, h, ink_trim], fun _ => h⟩

theorem becomes_body (o : Opening) (hb : ∀ c ∈ o.base, isPad c = true) (width : Int) (body : List Text) :
    List.Forall₂ Becomes body (o.fates width body) := by
  have hblank : ∀ {ls : List Text}, (∀ l ∈ ls, allBlank l = true) →
      List.Forall₂ Becomes ls (ls.map (fun _ => (none : Option Text))) := by
    intro ls hls
    rw [List.forall₂_map_right_iff, List.forall₂_same]
    exact hls
  have hinner : List.Forall₂ Becomes (dropBlankEnds body) ((o.inner width body).map some) := by
    rw [List.forall₂_map_right_iff]
    have htrim := map_trim_inner hb width body
    rw [← List.forall₂_eq_eq_eq, List.forall₂_map_left_iff, List.forall₂_map_right_iff] at htrim
    exact htrim.flip.imp (fun _ _ h => Becomes.of_trim h)
  rw [Opening.fates]
  conv => arg 2; rw [eq_dropBlankEnds body]
  exact List.rel_append (hblank allBlank_of_mem_blankFront)
    (List.rel_append hinner (hblank allBlank_of_mem_blankBack))

theorem becomes_closing {o : Opening} (hb : ∀ c ∈ o.base, isPad c = true) {close : Text} {right : Bool}
    (h : readClosing? close = some right) : Becomes close (some (o.closing right)) := by
  refine ⟨?_, fun hno => by rw [h] at hno; cases hno⟩
  obtain ⟨a, spaced, b, ha, hb', rfl⟩ := exists_closingText h
  have hbase := ink_of_allBlank (allBlank_base hb)
  rw [Opening.closing, ink_append, ink_append, ink_append, ink_append, ink_of_allBlank ha, ink_of_allBlank hb', hbase]
  cases right <;> cases spaced <;> rfl

theorem becomes_fates (width : Int) (ls : List Text) : List.Forall₂ Becomes ls (fates width ls) := by
  induction ls using Block.block_induct with
  | nil => exact .nil
  | line line rest hl ih =>
    rw [fates_line hl]
    exact .cons (Becomes.of_trim rfl) ih
  | block line o body close right post hopen hclose hbody ih =>
    obtain ⟨hbase, htrim⟩ := Opening.trim_of_read? hopen
    rw [fates_block hopen hclose hbody, Block.fates, List.cons_append, List.append_assoc]
    refine .cons (Becomes.of_trim (by rw [trim_text hbase, htrim])) ?_
    exact List.rel_append (becomes_body o hbase width body) (.cons (becomes_closing hbase hclose) ih)

/-! ## Lines outside of blocks -/

theorem fates_of_not_opening (width : Int) (b : List Text) : ∀ {a : List Text}, (∀ l ∈ a, Opening.read? l = none) →
    fates width (a ++ b) = a.map some ++ fates width b
  | [], _ => rfl
  | l :: a, h => by
    have hrest := fates_of_not_opening width b (fun k hk => h k (List.mem_cons_of_mem l hk))
    rw [List.cons_append, fates_line (Block.finder_eq_none_iff.2 (Or.inl (h l List.mem_cons_self))), hrest]
    rfl

theorem fates_of_not_closing (width : Int) {b : List Text} (h : ∀ l ∈ b, readClosing? l = none) (a : List Text) :
    fates width (a ++ b) = fates width a ++ b.map some := by
  induction a using Block.block_induct with
  | nil =>
    rw [List.nil_append]
    induction b with
    | nil => rfl
    | cons l b ih =>
      have hrest := fun k hk => h k (List.mem_cons_of_mem l hk)
      rw [fates_line (Block.finder_eq_none_iff.2 (Or.inr hrest)), ih hrest]
      rfl
  | line line rest hl ih =>
    have hl' : Block.finder none (line :: (rest ++ b)) = none := by
      rw [Block.finder_eq_none_iff] at hl ⊢
      exact hl.imp id (fun hno => List.forall_mem_append.2 ⟨hno, h⟩)
    rw [List.cons_append, fates_line hl', fates_line hl, ih, List.cons_append]
  | block line o body close right post hopen hclose hbody ih =>
    rw [List.cons_append, List.append_assoc, List.cons_append, fates_block hopen hclose hbody,
      fates_block hopen hclose hbody, ih, List.append_assoc]

/-- **Lines stay if no line up to their end opens a block, or none from their beginning on closes one.** -/
theorem fates_outside (width : Int) {a b c : List Text}
    (h : (∀ l ∈ a ++ b, Opening.read? l = none) ∨ ∀ l ∈ b ++ c, readClosing? l = none) :
    ((fates width (a ++ (b ++ c))).drop a.length).take b.length = b.map some := by
  rcases h with h | h
  · rw [← List.append_assoc, fates_of_not_opening width c h, List.map_append, List.append_assoc,
      List.drop_left' (by simp), List.take_left' (by simp)]
  · rw [fates_of_not_closing width h, List.drop_left' (becomes_fates width a).length_eq.symm, List.map_append,
      List.take_left' (by simp)]

/-! ## Content in its place -/

/-- The lines `inner` stand in the rows of a text after what stood before them, between an opening and a closing row that
may be indented anew. -/
def Stand (rows before : List Text) (opening : Text) (inner : List Text) (closing : Text) : Prop :=
  ∃ a o c b, rows = a ++ o :: (inner ++ c :: b) ∧ ink a.flatten = ink before.flatten ∧
    Text.trim o = Text.trim opening ∧ Text.trim c = Text.trim closing

theorem Becomes.exists_written {line : Text} {fate : Option Text} (h : Becomes line fate) (hl : allBlank line = false)
    (hc : readClosing? line = none) : ∃ written, fate = some written ∧ Text.trim written = Text.trim line := by
  cases fate with
  | none => rw [show allBlank line = true from h] at hl; cases hl
  | some written => exact ⟨written, rfl, h.2 hc⟩

/-- What is written for lines has their ink. -/
theorem ink_reduceOption {ls : List Text} {fs : List (Option Text)} (h : List.Forall₂ Becomes ls fs) :
    ink fs.reduceOption.flatten = ink ls.flatten := by
  induction h with
  | nil => rfl
  | @cons line fate ls fs hl _ ih =>
    cases fate with
    | none => rw [List.reduceOption_cons_of_none, ih, List.flatten_cons, ink_append, ink_of_allBlank hl, List.nil_append]
    | some written =>
      rw [List.reduceOption_cons_of_some, List.flatten_cons, ink_append, ih, List.flatten_cons, ink_append, hl.1]

theorem eq_map_some {fs : List (Option Text)} : fs.reduceOption.length = fs.length → fs = fs.reduceOption.map some := by
  rw [List.reduceOption_length_eq_iff]
  intro h
  induction fs with
  | nil => rfl
  | cons fate fs ih =>
    obtain ⟨hfate, hrest⟩ := List.forall_mem_cons.1 h
    obtain ⟨written, rfl⟩ := Option.isSome_iff_exists.1 hfate
    rw [List.reduceOption_cons_of_some, List.map_cons, ← ih hrest]

/-- A row with ink is found again by the ink before it. -/
theorem eq_of_ink_eq {a b as bs : List Text} {x y : Text} (h : a ++ x :: as = b ++ y :: bs)
    (hink : ink a.flatten = ink b.flatten) (hx : allBlank x = false) (hy : allBlank y = false) :
    a = b ∧ x = y ∧ as = bs := by
  have hmore : ∀ {ks ls : List Text} {l : Text}, allBlank l = false → ink ks.flatten ≠ ink (ks ++ l :: ls).flatten := by
    intro ks ls l hl hsame
    rw [List.flatten_append, List.flatten_cons, ink_append, ink_append] at hsame
    have hnil : ink l = [] := (List.append_eq_nil_iff.1 (List.self_eq_append_right.1 hsame)).1
    rw [(ink_eq_nil_iff l).1 hnil] at hl
    cases hl
  rcases List.append_eq_append_iff.1 h with ⟨z, rfl, hz⟩ | ⟨z, rfl, hz⟩
  · cases z with
    | nil => simpa using hz
    | cons l z =>
      obtain ⟨rfl, -⟩ := List.cons.inj hz
      exact absurd hink (hmore hx)
  · cases z with
    | nil => simpa [eq_comm] using hz
    | cons l z =>
      obtain ⟨rfl, -⟩ := List.cons.inj hz
      exact absurd hink.symm (hmore hy)

/-- Of two lists with a row after them, the one that is no longer is the other if the other does not have its row. -/
theorem eq_of_length_le {a b as bs : List Text} {x y : Text} (h : a ++ x :: as = b ++ y :: bs) (hle : b.length ≤ a.length)
    (hy : y ∉ a) : b = a := by
  rcases List.append_eq_append_iff.1 h with ⟨z, rfl, -⟩ | ⟨z, rfl, hz⟩
  · rw [List.length_append] at hle
    rw [List.length_eq_zero_iff.1 (show z.length = 0 by omega), List.append_nil]
  · cases z with
    | nil => rw [List.append_nil]
    | cons l z =>
      obtain ⟨rfl, -⟩ := List.cons.inj hz
      exact absurd (by simp) hy

/-- **Lines stand in their place exactly if each of them becomes itself**, between rows with ink of which the closing one
is like none of the lines. -/
theorem stand_iff {before inner after : List Text} {opening closing : Text} {fs : List (Option Text)}
    (h : List.Forall₂ Becomes (before ++ opening :: (inner ++ closing :: after)) fs)
    (hopen : allBlank opening = false) (hopen' : readClosing? opening = none)
    (hclose : allBlank closing = false) (hclose' : readClosing? closing = none)
    (hinner : ∀ r ∈ inner, Text.trim r ≠ Text.trim closing) (more : List Text) :
    Stand (fs.reduceOption ++ more) before opening inner closing
      ↔ (fs.drop (before.length + 1)).take inner.length = inner.map some := by
  have hsplit : ∀ {a b : List Text} {fs : List (Option Text)}, List.Forall₂ Becomes (a ++ b) fs →
      List.Forall₂ Becomes a (fs.take a.length) ∧ List.Forall₂ Becomes b (fs.drop a.length) := fun {a b fs} h =>
    ⟨by simpa using List.forall₂_take a.length h, by simpa using List.forall₂_drop a.length h⟩
  -- The fates fall into those of the lines before, of the opening row, of the lines, and of the closing row and the rest.
  obtain ⟨hbefore, hrest⟩ := hsplit h
  rw [← List.tail_drop]
  have hfs := List.take_append_drop before.length fs
  generalize fs.take before.length = front, fs.drop before.length = rest at hbefore hrest hfs ⊢
  obtain ⟨fate, rest, hfate, htail, rfl⟩ := List.forall₂_cons_left_iff.1 hrest
  obtain ⟨hin, hback⟩ := hsplit htail
  have hrest' := List.take_append_drop inner.length rest
  rw [List.tail_cons]
  generalize rest.take inner.length = kept, rest.drop inner.length = back at hin hback hrest' ⊢
  obtain ⟨fate', back, hfate', -, rfl⟩ := List.forall₂_cons_left_iff.1 hback
  obtain ⟨o, rfl, ho⟩ := hfate.exists_written hopen hopen'
  obtain ⟨c, rfl, hc⟩ := hfate'.exists_written hclose hclose'
  have hrows : fs.reduceOption ++ more
      = front.reduceOption ++ o :: (kept.reduceOption ++ c :: (back.reduceOption ++ more)) := by
    rw [← hfs, ← hrest', List.reduceOption_append, List.reduceOption_cons_of_some, List.reduceOption_append,
      List.reduceOption_cons_of_some]
    simp
  rw [hrows]
  constructor
  · rintro ⟨a, o', c', b, heq, hink, ho', -⟩
    have hblank : ∀ {s t : Text}, Text.trim s = Text.trim t → allBlank t = false → allBlank s = false := fun hst ht => by
      rw [← Text.allBlank_trim, hst, Text.allBlank_trim, ht]
    obtain ⟨-, -, hmid⟩ := eq_of_ink_eq heq ((ink_reduceOption hbefore).trans hink.symm) (hblank ho hopen)
      (hblank ho' hopen)
    have hlen := hin.length_eq
    have hle := List.reduceOption_length_le kept
    -- The closing row comes no sooner than after all of the lines, as none of them is like it.
    have hkept : kept.reduceOption = inner := eq_of_length_le hmid.symm (by omega) (fun hm => hinner c hm hc)
    have hall := eq_map_some (show kept.reduceOption.length = kept.length by rw [hkept, hlen])
    rwa [hkept] at hall
  · intro hkept
    refine ⟨front.reduceOption, o, c, back.reduceOption ++ more, ?_, ink_reduceOption hbefore, ho, hc⟩
    rw [hkept, reduceOption_map_some]

/-! ## Raw elements -/

/-- A raw element of a template: at a place outside of raw elements a row that opens it, rows that do not close it, and
the row that closes it. -/
def Encloses (place : Place) (opening : Text) (inner : List Text) (closing : Text) : Prop :=
  place.raw = none ∧ ∃ name, (place.walk opening).2.raw = some name ∧ (∀ r ∈ inner, rawClose? r ≠ some name) ∧
    rawClose? closing = some name

theorem allBlank_of_mem_ink {line : Text} {c : Char} (h : c ∈ ink line) : allBlank line = false := by
  rw [← Bool.not_eq_true, ← ink_eq_nil_iff]
  exact List.ne_nil_of_mem h

/-- A line with ink other than that of delimiters neither closes a block nor opens one. -/
theorem no_delimiter_line {line : Text} {c : Char} (hc : c ∈ ink line) (hm : c ∉ txt "<-%>") :
    readClosing? line = none ∧ Opening.read? line = none := by
  have hclosing : ∀ right spaced : Bool, ∀ d ∈ ink (closingText right spaced), d ∈ txt "<-%>" := fun right spaced => by
    cases right <;> cases spaced <;> exact Text.forall_mem_of_all (by decide)
  have hopening : ∀ left : Bool, ∀ d ∈ ink ('<' :: '%' :: chomp left), d ∈ txt "<-%>" := fun left => by
    cases left <;> exact Text.forall_mem_of_all (by decide)
  simp only [Option.eq_none_iff_forall_ne_some]
  refine ⟨fun right h => ?_, fun o h => ?_⟩
  · obtain ⟨a, spaced, b, ha, hb, rfl⟩ := exists_closingText h
    rw [ink_append, ink_append, ink_of_allBlank ha, ink_of_allBlank hb, List.nil_append, List.append_nil] at hc
    exact hm (hclosing right spaced c hc)
  · rw [← ink_trim, (Opening.trim_of_read? h).2] at hc
    exact hm (hopening o.left c hc)

theorem exists_letter {t name rest : Text} (h : rawName? t = some (name, rest)) :
    ∃ c ∈ t, isBlank c = false ∧ c ∉ txt "<-%>" := by
  obtain ⟨word, hword, hspelled⟩ := List.exists_of_findSome?_eq_some h
  have hsmall := small_rawNames word hword
  have hmarks : ∀ word ∈ rawNames, ∃ a more, word = a :: more ∧ ∀ d ∈ txt "<-%>", sameLetter a d = false := by
    intro word hword
    simp only [rawNames, List.mem_cons, List.not_mem_nil, or_false] at hword
    rcases hword with rfl | rfl | rfl | rfl <;> exact ⟨_, _, rfl, Text.forall_mem_of_all (by decide)⟩
  obtain ⟨a, more, rfl, hmark⟩ := hmarks word hword
  cases t with
  | nil => cases hspelled
  | cons c t =>
    rw [Markup.spelled?] at hspelled
    split at hspelled
    · rename_i hac
      refine ⟨c, List.mem_cons_self, isBlank_of_sameLetter (hsmall a List.mem_cons_self) hac, fun hc => ?_⟩
      rw [hmark c hc] at hac
      cases hac
    · cases hspelled

theorem exists_letter_of_rawOpen? {line name : Text} (h : rawOpen? line = some name) :
    ∃ c ∈ line, isBlank c = false ∧ c ∉ txt "<-%>" := by
  unfold rawOpen? at h
  split at h
  · rename_i rest hrest
    split at h
    · rename_i spelling after hname
      obtain ⟨c, hc, hletter⟩ := exists_letter hname
      exact ⟨c, (List.dropWhile_suffix isBlank).subset (hrest ▸ List.mem_cons_of_mem '<' hc), hletter⟩
    · cases h
  · cases h

theorem slash_mem_of_rawClose? {line name : Text} (h : rawClose? line = some name) : '/' ∈ line := by
  unfold rawClose? at h
  split at h
  · rename_i rest hrest
    exact (List.dropWhile_suffix isBlank).subset (hrest ▸ by simp)
  · cases h

theorem directive_of_rawOpen? {row name : Text} (h : rawOpen? (blankOut row) = some name) : Directive.read? row = none := by
  refine Directive.read?_of_ne (fun r hr => ?_)
  obtain ⟨a, ha, hrow⟩ := Text.exists_trimLeft row
  rw [hrow, hr, blankOut_blank_append ha, blankOut_cons_of_ne (by decide), rawOpen?,
    show (a ++ '%' :: blankOut r).dropWhile isBlank = Text.trimLeft _ from rfl, Text.trimLeft_append_of_blank ha,
    Text.trimLeft_cons_of_not_blank (by decide)] at h
  cases h

theorem Place.walk_raw {place : Place} {name row : Text} (hr : place.raw = some name) (h : rawClose? row ≠ some name) :
    place.walk row = (none, place) := by
  simp [Place.walk, hr, h]

theorem Place.through_raw {place : Place} {name : Text} (hr : place.raw = some name) : ∀ {inner : List Text},
    (∀ r ∈ inner, rawClose? r ≠ some name) → place.through inner = place
  | [], _ => rfl
  | r :: inner, h => by
    obtain ⟨hclose, hrest⟩ := List.forall_mem_cons.1 h
    rw [Place.through_cons, Place.walk_raw hr hclose, through_raw hr hrest]

namespace Treatment

variable {τ : Treatment} {cfg : Config} {place : Place}

/-- What stands outside of the tags of a line is written. -/
theorem mem_line_of_mem_blankOut {c : Char} (hb : isBlank c = false) (normalize : Bool) {row : Text}
    (h : c ∈ blankOut row) : c ∈ τ.line normalize row := by
  induction row using tag_induct with
  | nil => cases h
  | tag u post hu ih =>
    rw [blankOut_tag hu] at h
    rw [line_hit _ hu]
    rcases List.mem_append.1 h with hc | hc
    · rw [List.eq_of_mem_replicate hc] at hb
      cases hb
    · exact List.mem_append_right _ (ih hc)
  | char d rest hd ih =>
    rw [blankOut_char hd] at h
    rw [τ.line_char hd]
    exact List.mem_cons.2 ((List.mem_cons.1 h).imp id ih)

/-- The row that opens a raw element is written with ink other than that of delimiters. -/
theorem row_opening (hr : place.raw = none) {opening name : Text} (h : (place.walk opening).2.raw = some name) :
    ∃ c ∈ ink (τ.row cfg place opening), c ∉ txt "<-%>" := by
  have hname : rawOpen? (blankOut opening) = some name := by
    rw [Place.walk, hr] at h
    exact (Option.filter_eq_some_iff.1 h).1
  obtain ⟨c, hc, hb, hm⟩ := exists_letter_of_rawOpen? hname
  have hink : ink (τ.row cfg place opening) = ink (τ.line cfg.normalizeDelimiters opening) := by
    rw [row_eq hr, content, directive_of_rawOpen? hname]
    simp [Config.indentation]
  refine ⟨c, ?_, hm⟩
  rw [hink, mem_ink_iff]
  exact ⟨mem_line_of_mem_blankOut hb _ hc, hb⟩

theorem rows_raw {name : Text} (hr : place.raw = some name) : ∀ {inner : List Text},
    (∀ r ∈ inner, rawClose? r ≠ some name) → τ.rows cfg place inner = inner
  | [], _ => rfl
  | r :: inner, h => by
    obtain ⟨hclose, hrest⟩ := List.forall_mem_cons.1 h
    have hwalk := Place.walk_raw hr hclose
    rw [rows, row_of_none (by rw [hwalk]), hwalk, rows_raw hr hrest]

/-- The row that closes a raw element is indented anew. -/
theorem trim_row_closing {name closing : Text} (hr : place.raw = some name) (h : rawClose? closing = some name) :
    Text.trim (τ.row cfg place closing) = Text.trim closing := by
  obtain ⟨a, ha, hline⟩ := Text.exists_trimLeft closing
  have hrow : τ.row cfg place closing
      = Text.dropTrailingPad (cfg.indentation (place.markup - 1 + place.perl) ++ Text.trimLeft closing) := by
    simp [Treatment.row, Place.walk, hr, h]
  rw [hrow, Text.trim_dropTrailingPad, Text.trim_append_of_blank (allBlank_indentation cfg _)]
  conv => rhs; rw [hline, Text.trim_append_of_blank ha]

theorem slash_mem_row_closing {name closing : Text} (hr : place.raw = some name) (h : rawClose? closing = some name) :
    '/' ∈ ink (τ.row cfg place closing) := by
  rw [← ink_trim, trim_row_closing hr h, ink_trim, mem_ink_iff]
  exact ⟨slash_mem_of_rawClose? h, by decide⟩

end Treatment

/-- Lines like none that closes a raw element are not trimmed to the line that does. -/
theorem trim_ne_of_rawClose? {name closing line : Text} (hc : rawClose? closing = some name)
    (hl : rawClose? line ≠ some name) : Text.trim line ≠ Text.trim closing := by
  intro htrim
  rw [(Respaced.trim line).rawClose?_eq, htrim, ← (Respaced.trim closing).rawClose?_eq] at hl
  exact hl hc

theorem unbroken_of_mem_rows {source : Text} (h : ∀ c ∈ source, isLineBreak c = true → c = '\n') :
    ∀ r ∈ Text.rows (Eol.unify source), r.Unbroken := by
  have hreturn : '\r' ∉ source := fun hm => absurd (h _ hm (by decide)) (by decide)
  rw [Eol.unify_of_not_mem hreturn]
  intro r hr c hc
  cases hb : isLineBreak c with
  | false => rfl
  | true =>
    obtain rfl := h c ((infix_of_mem_rows hr).subset hc) hb
    exact absurd hc (feed_not_mem_rows hr)

variable {tidier : Tidier} {cfg : Config} {source opening closing : Text} {before inner after : List Text}

section

variable (hfeed : ∀ c ∈ source, isLineBreak c = true → c = '\n')
  (hrows : Text.rows (Eol.unify source) = before ++ opening :: (inner ++ closing :: after)) {place : Place}
  (hplace : ({} : Place).through before = place) {name : Text} (hopen : (place.walk opening).2.raw = some name)
  (hinner : ∀ r ∈ inner, rawClose? r ≠ some name) (hclose : rawClose? closing = some name)

include hfeed hrows hplace hopen hinner hclose

/-- **The second pass sees the content of a raw element as it is**, between the rows that open and close it. -/
theorem lines_laid (cfg : Config) :
    let τ := Treatment.absent cfg
    ∃ more, Text.lines (τ.laid cfg source) = τ.rows cfg {} before
        ++ τ.row cfg place opening :: (inner ++ τ.row cfg (place.walk opening).2 closing :: more) ∧
      ∀ l ∈ more, l ∈ τ.rows cfg ((place.walk opening).2.walk closing).2 after := by
  intro τ
  have hkept := @Treatment.rows_raw τ cfg _ name hopen inner hinner
  have hthrough := Place.through_raw hopen hinner
  have hwritten : τ.rows cfg {} (Text.rows (Eol.unify source)) = (τ.rows cfg {} before ++ τ.row cfg place opening :: inner)
      ++ τ.row cfg (place.walk opening).2 closing :: τ.rows cfg ((place.walk opening).2.walk closing).2 after := by
    rw [hrows, Treatment.rows_append, hplace, Treatment.rows, Treatment.rows_append, hthrough, hkept, Treatment.rows]
    simp
  have hne : τ.row cfg (place.walk opening).2 closing ≠ [] := by
    intro hnil
    have hslash := @Treatment.slash_mem_row_closing τ cfg _ name closing hopen hclose
    rw [hnil] at hslash
    cases hslash
  obtain ⟨more, hmore, hafter⟩ :=
    Text.lines_unrows_split (hwritten ▸ Treatment.unbroken_rows {} (unbroken_of_mem_rows hfeed)) hne
  refine ⟨more, ?_, hafter⟩
  rw [Treatment.laid, hwritten, hmore]
  simp

/-- The content stands in the result exactly if the second pass makes of each of its lines that line. -/
theorem stand_format_iff (hr : place.raw = none) (cfg : Config) :
    let τ := Treatment.absent cfg
    Stand (Text.rows (Eol.unify (τ.format cfg source))) (τ.rows cfg {} before) (τ.row cfg place opening) inner closing
      ↔ ((fates cfg.indentWidth (Text.lines (τ.laid cfg source))).drop (before.length + 1)).take inner.length
        = inner.map some := by
  intro τ
  obtain ⟨more, hlines, -⟩ := lines_laid hfeed hrows hplace hopen hinner hclose cfg
  obtain ⟨c, hc, hm⟩ := @Treatment.row_opening τ cfg place hr opening name hopen
  -- Both rows around the content have ink of their own, so that the second pass takes neither for a delimiter.
  have hslash := @Treatment.slash_mem_row_closing τ cfg _ name closing hopen hclose
  have htrim := @Treatment.trim_row_closing τ cfg _ name closing hopen hclose
  have hunbroken : ∀ l ∈ Text.lines (τ.laid cfg source), l.Unbroken := fun l hl =>
    Treatment.unbroken_rows {} (unbroken_of_mem_rows hfeed) l (Text.mem_of_mem_lines_unrows
      (Treatment.unbroken_rows {} (unbroken_of_mem_rows hfeed)) hl)
  obtain ⟨rest, hrest⟩ := Treatment.rows_format (lays_absent cfg) (by rw [hlines]; simp) hunbroken
  have hlike : ∀ r ∈ inner, Text.trim r ≠ Text.trim (τ.row cfg (place.walk opening).2 closing) := fun r hr => by
    rw [htrim]
    exact trim_ne_of_rawClose? hclose (hinner r hr)
  have hfates := becomes_fates cfg.indentWidth (Text.lines (τ.laid cfg source))
  rw [hlines] at hfates
  have hiff := stand_iff hfates (allBlank_of_mem_ink hc) (no_delimiter_line hc hm).1 (allBlank_of_mem_ink hslash)
    (no_delimiter_line hslash (by decide)).1 hlike rest
  rw [← hlines, reduceOption_fates (lays_absent cfg) _ hunbroken, ← hrest, Stand, htrim, Treatment.length_rows] at hiff
  exact hiff

end

/-- **A raw element is opaque where no block can touch it**: where no line up to the end of its content opens a block, or
no line from the beginning of its content on closes one. -/
theorem raw_content_kept (h : tidier.Unavailable cfg) (hfeed : ∀ c ∈ source, isLineBreak c = true → c = '\n')
    (hrows : Text.rows (Eol.unify source) = before ++ opening :: (inner ++ closing :: after))
    (hraw : Encloses (({} : Place).through before) opening inner closing)
    (hblock : (∀ l ∈ (Treatment.absent cfg).rows cfg {} before ++ inner, Opening.read? l = none) ∨
      ∀ l ∈ inner ++ (Treatment.absent cfg).rows cfg (({} : Place).through (before ++ opening :: (inner ++ [closing]))) after,
        readClosing? l = none) (s : Session) :
    Stand (Text.rows (Eol.unify ((format tidier cfg source).run s).1)) ((Treatment.absent cfg).rows cfg {} before)
      ((Treatment.absent cfg).row cfg (({} : Place).through before) opening) inner closing := by
  obtain ⟨hplace, name, hopen, hinner, hclose⟩ := hraw
  obtain ⟨more, hlines, hmore⟩ := lines_laid hfeed hrows rfl hopen hinner hclose cfg
  obtain ⟨c, hc, hm⟩ := @Treatment.row_opening (.absent cfg) cfg _ hplace opening name hopen
  have hslash := @Treatment.slash_mem_row_closing (.absent cfg) cfg _ name closing hopen hclose
  have hafter := Place.through_raw hopen hinner
  rw [show ((format tidier cfg source).run s).1 = _ from format_gives h.steady source s]
  refine (stand_format_iff hfeed hrows rfl hopen hinner hclose hplace cfg).2 ?_
  rw [hlines, List.append_cons]
  have hlength : before.length + 1 = ((Treatment.absent cfg).rows cfg {} before
      ++ [(Treatment.absent cfg).row cfg (({} : Place).through before) opening]).length := by
    rw [List.length_append, Treatment.length_rows]
    rfl
  rw [hlength]
  refine fates_outside cfg.indentWidth (hblock.imp (fun hno => ?_) (fun hno => ?_))
  · simp only [List.forall_mem_append, List.forall_mem_singleton] at hno ⊢
    exact ⟨⟨hno.1, (no_delimiter_line hc hm).2⟩, hno.2⟩
  · rw [Place.through_append, Place.through_cons, Place.through_append, hafter] at hno
    simp only [List.forall_mem_append, List.forall_mem_cons] at hno ⊢
    exact ⟨hno.1, (no_delimiter_line hslash (by decide)).1, fun l hl => hno.2 l (hmore l hl)⟩

/-- **The content of a raw element stands in the result as it was exactly if the second pass makes of each of its lines
that line.**  A line outside of blocks becomes itself; one in a block, wherever the block begins and ends, becomes what is
laid out for it.  Within the widths of lines the text is the result, unless something is too wide; with a usual width
nothing is. -/
theorem raw_content_kept_iff (h : tidier.Unavailable cfg) (hfeed : ∀ c ∈ source, isLineBreak c = true → c = '\n')
    (hrows : Text.rows (Eol.unify source) = before ++ opening :: (inner ++ closing :: after))
    (hraw : Encloses (({} : Place).through before) opening inner closing) (s : Session) :
    let τ := Treatment.absent cfg
    let out := ((format tidier cfg source).run s).1
    (Stand (Text.rows (Eol.unify out)) (τ.rows cfg {} before) (τ.row cfg (({} : Place).through before) opening) inner closing
      ↔ ((fates cfg.indentWidth (Text.lines (τ.laid cfg source))).drop (before.length + 1)).take inner.length
        = inner.map some) ∧
      ((formatWithin tidier cfg source).run s).1 = WidthError.unless out (tooWide? noReply cfg source) ∧
      (cfg.usualWidth = true → tooWide? noReply cfg source = none) := by
  intro τ out
  obtain ⟨hplace, name, hopen, hinner, hclose⟩ := hraw
  have hout : out = τ.format cfg source := format_gives h.steady source s
  refine ⟨?_, ?_, fun hu => if_pos hu⟩
  · rw [hout]
    exact stand_format_iff hfeed hrows rfl hopen hinner hclose hplace cfg
  · rw [formatWithin_gives h.steady source s, hout]
    rfl

/-- A block in a `pre` element whose lines are as they are laid out is kept, and so are the other lines. -/
theorem raw_content_kept_laid_out :
    let source := txt "<div>\n<pre class=\"<%=$c%>\">\n  a  \n<%\nif ($x) \x7b\n   y;\n\x7d\n%>\n\n\t  b\n   </pre>\n<%\n  z\n%>"
    let inner := [txt "  a  ", txt "<%", txt "if ($x) \x7b", txt "   y;", txt "\x7d", txt "%>", [], txt "\t  b"]
    Stand (Text.rows (Eol.unify ((format Tidier.absent { indentWidth := 3 } source).run {}).1)) [txt "<div>"]
      (txt "   <pre class=\"<%= $c %>\">") inner (txt "   </pre>") := by
  intro source inner
  have hraw : Encloses (({} : Place).through [txt "<div>"]) (txt "<pre class=\"<%=$c%>\">") inner (txt "   </pre>") :=
    ⟨by decide +kernel, txt "pre", by decide +kernel, by decide +kernel, by decide +kernel⟩
  have hiff := (@raw_content_kept_iff Tidier.absent { indentWidth := 3 } source _ _ _ _ [txt "<%", txt "  z", txt "%>"]
    (Or.inr (fun _ _ => rfl)) (Text.forall_mem_of_all (by decide +kernel)) (by decide +kernel) hraw {}).1
  have hbefore : (Treatment.absent { indentWidth := 3 }).rows { indentWidth := 3 } {} [txt "<div>"] = [txt "<div>"] := by
    decide +kernel
  have hopening : (Treatment.absent { indentWidth := 3 }).row { indentWidth := 3 } (({} : Place).through [txt "<div>"])
      (txt "<pre class=\"<%=$c%>\">") = txt "   <pre class=\"<%= $c %>\">" := by
    decide +kernel
  rw [hbefore, hopening] at hiff
  exact hiff.2 (by decide +kernel)

/-- A block in a `pre` element loses the indentation of its line. -/
theorem raw_content_dedented :
    let source := txt "<pre>\n<%\n  x\n%>\n</pre>\n"
    let inner := [txt "<%", txt "  x", txt "%>"]
    let out := txt "<pre>\n<%\nx\n%>\n</pre>\n"
    Text.rows (Eol.unify source) = txt "<pre>" :: (inner ++ [txt "</pre>", []]) ∧
      Encloses {} (txt "<pre>") inner (txt "</pre>") ∧ ((formatWithin Tidier.absent {} source).run {}).1 = .ok out ∧
      ¬ Stand (Text.rows (Eol.unify out)) [] (txt "<pre>") inner (txt "</pre>") := by
  intro source inner out
  rw [formatWithin_usual (by decide)]
  refine ⟨by decide +kernel, ⟨rfl, txt "pre", by decide +kernel, by decide +kernel, by decide +kernel⟩,
    congrArg Except.ok (by decide +kernel), ?_⟩
  rintro ⟨a, o, c, b, hrows, -⟩
  have hmem : txt "  x" ∈ Text.rows (Eol.unify out) := by
    rw [hrows]
    simp [inner]
  exact absurd hmem (by decide +kernel)

end EpFormat
