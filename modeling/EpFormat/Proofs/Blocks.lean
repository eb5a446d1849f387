import EpFormat.Proofs.Layout
/-!
# Blocks — blocks laid out again

A block that has been laid out opens and closes where it did, whatever the rows of a second pass make of its lines, and
is laid out the same again.  So rows and blocks, written once, stay when both are written again (`again_blocks`).
-/
namespace EpFormat

open Template Template.Tag Perl

/-! ## The lines of a block -/

def Template.Opening.text (o : Opening) : Text := o.base ++ ['<', '%'] ++ chomp o.left

def Template.Opening.closing (o : Opening) (right : Bool) : Text := o.base ++ chomp right ++ ['%', '>']

/-- The lines between them, laid out by braces. -/
def Template.Opening.inner (o : Opening) (width : Int) (body : List Text) : List Text :=
  (indentLines width 0 (dropBlankEnds body)).map (o.base ++ ·)

/-- The line opens a block: spaces and tabs, the opening delimiter with its chomp mark, and white space. -/
def Template.Opening.Opens (o : Opening) (line : Text) : Prop :=
  (∀ c ∈ o.base, isPad c = true) ∧ ∃ tail, allBlank tail = true ∧ line = o.text ++ tail

theorem Template.Opening.read?_iff_opens {line : Text} {o : Opening} : Opening.read? line = some o ↔ o.Opens line := by
  constructor
  · intro h
    unfold Opening.read? at h
    split at h
    · rename_i rest hrest
      simp only at h
      split at h
      · rename_i hblank
        obtain rfl := Option.some.inj h
        refine ⟨List.all_eq_true.1 List.all_takeWhile, (readChomp rest).2, hblank, ?_⟩
        rw [Opening.text, List.append_assoc, List.append_assoc, chomp_readChomp, List.cons_append, List.cons_append,
          List.nil_append, ← hrest, List.takeWhile_append_dropWhile]
      · cases h
    · cases h
  · rintro ⟨hb, tail, htail, rfl⟩
    obtain ⟨base, left⟩ := o
    have hread : readChomp (chomp left ++ tail) = (left, tail) := by
      cases left with
      | true => rfl
      | false =>
        refine readChomp_of_ne (fun r hr => ?_)
        rw [show tail = '-' :: r from hr] at htail
        exact absurd (allBlank_iff.1 htail '-' List.mem_cons_self) (by decide)
    rw [Opening.read?, Opening.text, List.append_assoc, List.append_assoc, List.dropWhile_append_of_pos hb,
      List.takeWhile_append_of_pos hb]
    simp [isPad, hread, htail]

theorem Template.Opening.read?_text (o : Opening) (hb : ∀ c ∈ o.base, isPad c = true) : Opening.read? o.text = some o :=
  Opening.read?_iff_opens.2 ⟨hb, [], rfl, (List.append_nil _).symm⟩

section

variable {o : Opening} (hb : ∀ c ∈ o.base, isPad c = true)

include hb

theorem allBlank_base : allBlank o.base = true := allBlank_iff.2 (fun c hc => isBlank_of_isPad (hb c hc))

theorem plain_text : Plain o.text := by
  have hopen : Plain ['<', '%'] := .of_ink (Text.forall_mem_of_all (by decide))
  exact ((Plain.of_pad hb).append hopen).append (plain_chomp o.left)

theorem trim_text : Text.trim o.text = '<' :: '%' :: chomp o.left := by
  rw [Opening.text, List.append_assoc, Text.trim_append_of_blank (allBlank_base hb)]
  cases o.left <;> rfl

theorem plain_closing (right : Bool) : Plain (o.closing right) := by
  have hclose : Plain ['%', '>'] := .of_ink (Text.forall_mem_of_all (by decide))
  exact ((Plain.of_pad hb).append (plain_chomp right)).append hclose

theorem readClosing?_closing (right : Bool) : readClosing? (o.closing right) = some right := by
  refine (readClosing?_eq_some_iff (plain_closing hb right)).2 ⟨false, ?_⟩
  rw [Opening.closing, List.append_assoc, Text.trim_append_of_blank (allBlank_base hb)]
  cases right <;> rfl

theorem plain_inner (width : Int) {body : List Text} (hp : ∀ l ∈ body, Plain l) : ∀ l ∈ o.inner width body, Plain l := by
  intro l hl
  obtain ⟨k, hk, rfl⟩ := List.mem_map.1 hl
  refine (Plain.of_pad hb).append (fun c hc => ?_)
  rcases mem_indentLines hk hc with rfl | ⟨m, hm, hcm⟩
  · decide
  · exact hp m (mem_of_mem_dropBlankEnds hm) c hcm

/-- Blank lines at the ends of the body are gone, and the others have a new indentation. -/
theorem map_trim_inner (width : Int) (body : List Text) :
    (o.inner width body).map Text.trim = (dropBlankEnds body).map Text.trim := by
  rw [← map_trim_indentLines width (dropBlankEnds body) 0, Opening.inner, List.map_map]
  exact List.map_congr_left (fun k _ => Text.trim_append_of_blank (allBlank_base hb) k)

end

/-- An opening line is its indentation, the opening delimiter and white space. -/
theorem Template.Opening.trim_of_read? {line : Text} {o : Opening} (h : Opening.read? line = some o) :
    (∀ c ∈ o.base, isPad c = true) ∧ Text.trim line = '<' :: '%' :: chomp o.left := by
  obtain ⟨hb, tail, htail, rfl⟩ := Opening.read?_iff_opens.1 h
  exact ⟨hb, by rw [Text.trim_append_blank htail, trim_text hb]⟩

theorem readClosing?_congr {l k : Text} (hl : Plain l) (hk : Plain k) (h : Text.trim l = Text.trim k) :
    readClosing? l = readClosing? k := by
  refine Option.ext (fun right => ?_)
  rw [readClosing?_eq_some_iff hl, readClosing?_eq_some_iff hk, h]

/-- Lines with the trimmed text of lines that close no block close none. -/
theorem not_closing_of_trim {body others : List Text} (hp : ∀ l ∈ body, Plain l) (hq : ∀ l ∈ others, Plain l)
    (h : others.map Text.trim = (dropBlankEnds body).map Text.trim) (hno : ∀ l ∈ body, readClosing? l = none) :
    ∀ l ∈ others, readClosing? l = none := by
  intro l hl
  have hmem : Text.trim l ∈ (dropBlankEnds body).map Text.trim := by
    rw [← h]
    exact List.mem_map_of_mem hl
  obtain ⟨k, hk, hkl⟩ := List.mem_map.1 hmem
  have hkbody := mem_of_mem_dropBlankEnds hk
  rw [readClosing?_congr (hq l hl) (hp k hkbody) hkl.symm, hno k hkbody]

/-- What is too wide in the body of a block, laid out by braces. -/
def bodyError? (width : Int) (b : Block) : Option WidthError := wideLine? width 0 (Text.lines b.code)

theorem dropBlankEnds_congr {body other : List Text} (h : other.map Text.trim = (dropBlankEnds body).map Text.trim) :
    (dropBlankEnds other).map Text.trim = (dropBlankEnds body).map Text.trim := by
  rw [← dropBlankEnds_map_trim, h, dropBlankEnds_map_trim, dropBlankEnds_idem]

theorem bodyError?_congr (width : Int) (o : Opening) (right : Bool) {body other : List Text} (hp : ∀ l ∈ body, Plain l)
    (hq : ∀ l ∈ other, Plain l) (h : other.map Text.trim = (dropBlankEnds body).map Text.trim) :
    bodyError? width ⟨o, other, right⟩ = bodyError? width ⟨o, body, right⟩ := by
  rw [bodyError?, bodyError?, Block.code, Block.code, ← wideLine?_trim,
    map_trim_lines_dedent (fun l hl => (hq l hl).unbroken), dropBlankEnds_congr h,
    ← map_trim_lines_dedent (fun l hl => (hp l hl).unbroken), wideLine?_trim]

/-! ## Blocks and rows -/

namespace Treatment

variable {τ : Treatment} {cfg : Config}

/-- A treatment that lays blocks out by braces. -/
def Lays (τ : Treatment) (cfg : Config) : Prop := ∀ t, τ.block t = indentByBraces t cfg.indentWidth

theorem blockLines_eq (hb : τ.Lays cfg) (o : Opening) (right : Bool) {body : List Text} (hu : ∀ l ∈ body, l.Unbroken) :
    τ.blockLines ⟨o, body, right⟩ = o.text :: (o.inner cfg.indentWidth body ++ [o.closing right]) := by
  rw [blockLines, hb, Block.layOut, Block.code, lines_indentByBraces cfg.indentWidth hu]
  rfl

theorem blockLines_congr (hb : τ.Lays cfg) (o : Opening) (right : Bool) {body other : List Text}
    (hp : ∀ l ∈ body, Plain l) (hq : ∀ l ∈ other, Plain l)
    (h : other.map Text.trim = (dropBlankEnds body).map Text.trim) :
    τ.blockLines ⟨o, other, right⟩ = τ.blockLines ⟨o, body, right⟩ := by
  rw [blockLines_eq hb o right (fun l hl => (hp l hl).unbroken), blockLines_eq hb o right (fun l hl => (hq l hl).unbroken),
    Opening.inner, ← indentLines_trim, dropBlankEnds_congr h, indentLines_trim, ← Opening.inner]

/-- Blocks bring nothing into a list of lines but delimiters, spaces and tabs. -/
theorem mem_blocks (hb : τ.Lays cfg) {c : Char} (ls : List Text) (hu : ∀ l ∈ ls, l.Unbroken) : ∀ {l : Text},
    l ∈ τ.blocks ls → c ∈ l → isPad c = true ∨ c ∈ txt "<-%>" ∨ ∃ k ∈ ls, c ∈ k := by
  have hopening : ∀ left : Bool, ∀ d ∈ ['<', '%'] ++ chomp left, d ∈ txt "<-%>" := fun left => by
    cases left <;> exact Text.forall_mem_of_all (by decide)
  have hclosing : ∀ right : Bool, ∀ d ∈ chomp right ++ ['%', '>'], d ∈ txt "<-%>" := fun right => by
    cases right <;> exact Text.forall_mem_of_all (by decide)
  induction ls using Block.block_induct with
  | nil =>
    intro l hl
    cases hl
  | line line rest hline ih =>
    intro l hl hc
    rw [τ.blocks_line hline] at hl
    rcases List.mem_cons.1 hl with rfl | hl
    · exact Or.inr (Or.inr ⟨l, List.mem_cons_self, hc⟩)
    · refine (ih (fun k hk => hu k (List.mem_cons_of_mem line hk)) hl hc).imp id (Or.imp id ?_)
      exact fun ⟨k, hk, hck⟩ => ⟨k, List.mem_cons_of_mem line hk, hck⟩
  | block line o body close right post hopen hclose hbody ih =>
    intro l hl hc
    have hbase := (Opening.trim_of_read? hopen).1
    rw [τ.blocks_block hopen hclose hbody, blockLines_eq hb o right (fun k hk => hu k (by simp [hk]))] at hl
    simp only [List.cons_append, List.append_assoc, List.nil_append, List.mem_cons, List.mem_append] at hl
    rcases hl with rfl | hl | rfl | hl
    · rw [Opening.text, List.append_assoc] at hc
      exact (List.mem_append.1 hc).imp (hbase c) (fun hc => Or.inl (hopening o.left c hc))
    · obtain ⟨k, hk, rfl⟩ := List.mem_map.1 hl
      rcases List.mem_append.1 hc with hc | hc
      · exact Or.inl (hbase c hc)
      · rcases mem_indentLines hk hc with rfl | ⟨m, hm, hcm⟩
        · exact Or.inl rfl
        · exact Or.inr (Or.inr ⟨m, by simp [mem_of_mem_dropBlankEnds hm], hcm⟩)
    · rw [Opening.closing, List.append_assoc] at hc
      exact (List.mem_append.1 hc).imp (hbase c) (fun hc => Or.inl (hclosing right c hc))
    · refine (ih (fun k hk => hu k (by simp [hk])) hl hc).imp id (Or.imp id ?_)
      exact fun ⟨k, hk, hck⟩ => ⟨k, by simp [hk], hck⟩

theorem unbroken_blocks (hb : τ.Lays cfg) {ls : List Text} (hu : ∀ l ∈ ls, l.Unbroken) :
    ∀ l ∈ τ.blocks ls, l.Unbroken := by
  intro l hl c hc
  have hmarks : ∀ d ∈ txt "<-%>", isLineBreak d = false := Text.forall_mem_of_all (by decide)
  rcases mem_blocks hb ls hu hl hc with hpad | hmark | ⟨k, hk, hck⟩
  · cases hbreak : isLineBreak c with
    | false => rfl
    | true =>
      rw [isPad_of_isLineBreak hbreak] at hpad
      cases hpad
  · exact hmarks c hmark
  · exact hu k hk c hck

theorem plain_blocks (hb : τ.Lays cfg) {ls : List Text} (hp : ∀ l ∈ ls, Plain l) : ∀ l ∈ τ.blocks ls, Plain l := by
  intro l hl c hc hblank
  have hmarks : ∀ d ∈ txt "<-%>", isBlank d = false := Text.forall_mem_of_all (by decide)
  rcases mem_blocks hb ls (fun k hk => (hp k hk).unbroken) hl hc with hpad | hmark | ⟨k, hk, hck⟩
  · exact hpad
  · rw [hmarks c hmark] at hblank
    cases hblank
  · exact hp k hk c hck hblank

theorem trim_row (cfg : Config) (place : Place) (row : Text) : Text.trim (τ.row cfg place row)
    = Text.trim (if place.raw.isSome then row else τ.content cfg.normalizeDelimiters row) := by
  cases hw : (place.walk row).1 with
  | none =>
    -- Only inside a raw element is a row without a level.
    have hraw : place.raw.isSome = true := by
      cases hraw : place.raw with
      | none => simp [Place.walk, hraw] at hw
      | some name => rfl
    rw [row_of_none hw, if_pos hraw]
  | some level =>
    rw [Treatment.row, hw]
    simp only
    rw [Text.trim_dropTrailingPad, Text.trim_append_of_blank (allBlank_indentation cfg level), Text.trim, Text.trimLeft_idem,
      ← Text.trim]

/-- **A row that is written as an opening line is one but for white space.** -/
theorem trim_of_opening_row {cfg : Config} {place : Place} {row : Text} {o : Opening}
    (h : Opening.read? (τ.row cfg place row) = some o) : Text.trim row = '<' :: '%' :: chomp o.left := by
  have htrim := (Opening.trim_of_read? h).2
  rw [trim_row] at htrim
  split at htrim
  · exact htrim
  · rw [content] at htrim
    split at htrim
    · rename_i d _
      -- A directive begins with a percent sign.
      have hpercent : ∃ t, τ.directive cfg.normalizeDelimiters d = '%' :: t := by
        unfold directive
        split <;> exact ⟨_, rfl⟩
      obtain ⟨t, ht⟩ := hpercent
      rw [ht, Text.trim, Text.trimLeft_cons_of_not_blank (by decide), Text.trimRight_cons (by decide)] at htrim
      cases htrim
    · have hend : '>' ∉ τ.line cfg.normalizeDelimiters row := by
        intro hm
        have hink : '>' ∈ ink (Text.trim (τ.line cfg.normalizeDelimiters row)) := by
          rw [ink_trim]
          exact mem_ink_iff.2 ⟨hm, by decide⟩
        rw [htrim] at hink
        revert hink
        cases o.left <;> decide
      rwa [τ.line_of_not_mem hend] at htrim

theorem blocks_of_not_opening {ls : List Text} (h : ∀ l ∈ ls, Opening.read? l = none) : τ.blocks ls = ls := by
  rw [blocks, Block.scan_of_not_opening h, List.flatMap_map]
  exact List.flatMap_singleton' ls

theorem blocks_of_not_closing : ∀ {ls : List Text}, (∀ l ∈ ls, readClosing? l = none) → τ.blocks ls = ls
  | [], _ => rfl
  | l :: ls, h => by
    have hrest := fun k hk => h k (List.mem_cons_of_mem l hk)
    rw [τ.blocks_line (Block.finder_eq_none_iff.2 (Or.inr hrest)), blocks_of_not_closing hrest]

section

variable (hτ : τ.Settling) (hin : τ.Inward) (hd : cfg.normalizeDelimiters = true) {place : Place}

include hτ hin hd

/-- Rows that are written blank leave the place as it was. -/
theorem through_of_blank {rs : List Text} (h : ∀ r ∈ rs, Regular r) (hb : ∀ l ∈ τ.rows cfg place rs, allBlank l = true) :
    place.through rs = place := by
  have hplain := plain_rows hτ hd place (fun r hr => (h r hr).plain)
  rw [← (rows_again hτ hin hd h hplain rfl).2.1]
  exact place.through_blank (fun l hl => ⟨hplain l hl, hb l hl⟩)

/-- **The body of a block may lose the blank lines at its ends**, and its lines may change the white space at theirs. -/
theorem rows_body (place : Place) {rs others : List Text} (h : ∀ r ∈ rs, Regular r) (hp : ∀ l ∈ others, Plain l)
    (ht : others.map Text.trim = (dropBlankEnds (τ.rows cfg place rs)).map Text.trim) :
    (∀ level ∈ place.levels others, level ∈ place.levels rs) ∧ place.through others = place.through rs ∧
      (τ.rows cfg place others).map Text.trim = others.map Text.trim := by
  obtain ⟨a, b, ha, hb, hrows⟩ := exists_dropBlankEnds (τ.rows cfg place rs)
  obtain ⟨as, rest, rfl, has, hrest⟩ := rows_eq_append hrows
  obtain ⟨ds, bs, rfl, hds, hbs⟩ := rows_eq_append hrest
  have hfront : place.through as = place :=
    through_of_blank hτ hin hd (fun r hr => h r (by simp [hr])) (by rwa [has])
  rw [hfront] at hds hbs
  have hback : (place.through ds).through bs = place.through ds :=
    through_of_blank hτ hin hd (fun r hr => h r (by simp [hr])) (by rwa [hbs])
  rw [← hds] at ht
  obtain ⟨hlevels, hthrough, htrim⟩ := rows_again hτ hin hd (fun r hr => h r (by simp [hr])) hp ht
  refine ⟨fun level hl => ?_, ?_, htrim⟩
  · rw [hlevels] at hl
    rw [Place.levels_append, Place.levels_append, hfront]
    simp [hl]
  · rw [Place.through_append, Place.through_append, hfront, hback, hthrough]

/-- The opening line of a block that has been laid out opens it again, and moves the place as before. -/
theorem opening_again {row : Text} (h : Regular row) {o : Opening} (ho : Opening.read? (τ.row cfg place row) = some o) :
    place.walk o.text = place.walk row ∧ Opening.read? (τ.row cfg place o.text) = some o := by
  obtain ⟨hbase, htrim⟩ := Opening.trim_of_read? ho
  obtain ⟨hwalk, hrow⟩ := row_again hτ hin hd place h (plain_text hbase) (by rw [trim_text hbase, htrim])
  refine ⟨hwalk, ?_⟩
  rw [hrow]
  split
  · exact ho
  · exact o.read?_text hbase

/-- A row that is written as a closing line leaves the place as it is. -/
theorem walk_of_closing {row : Text} (h : Regular row) {right : Bool}
    (hc : readClosing? (τ.row cfg place row) = some right) : place.walk row = place.walk [] := by
  have hplain := plain_row hτ hd h.plain place
  rw [← (row_again hτ hin hd place h hplain rfl).1, place.walk_closing hplain hc]

end

/-- What a second pass makes of rows, once they and their blocks have been written: the lines stay, they lead to the
place where the rows led, no level is new, and the blocks are as wide as they were. -/
structure Again (τ : Treatment) (cfg : Config) (place : Place) (rs ls : List Text) : Prop where
  blocks : τ.blocks (τ.rows cfg place (τ.blocks ls)) = τ.blocks ls
  through : place.through (τ.blocks ls) = place.through rs
  levels : ∀ level ∈ place.levels (τ.blocks ls), level ∈ place.levels rs
  errors : (finds Block.finder (τ.rows cfg place (τ.blocks ls))).map (bodyError? cfg.indentWidth)
    = (finds Block.finder ls).map (bodyError? cfg.indentWidth)

section

variable (hτ : τ.Settling) (hin : τ.Inward) (hd : cfg.normalizeDelimiters = true)

include hτ hin hd

theorem Again.line {place : Place} {row : Text} {rs rest : List Text} (h : Regular row) (hrs : ∀ r ∈ rs, Regular r)
    (hrest : τ.rows cfg (place.walk row).2 rs = rest) (hl : Block.finder none (τ.row cfg place row :: rest) = none)
    (ih : Again τ cfg (place.walk row).2 rs rest) : Again τ cfg place (row :: rs) (τ.row cfg place row :: rest) := by
  obtain ⟨hwalk, hrow⟩ := row_again hτ hin hd place h (plain_row hτ hd h.plain place) rfl
  rw [ite_self] at hrow
  -- Where no closing line follows, none does after the rows have been written again.
  have hnone : Block.finder none (τ.row cfg place row :: τ.rows cfg (place.walk row).2 (τ.blocks rest)) = none := by
    rw [Block.finder_eq_none_iff] at hl ⊢
    refine hl.imp id (fun hno => ?_)
    rw [blocks_of_not_closing hno, ← hrest, rows_rows hτ hin hd hrs, hrest]
    exact hno
  have hblocks := τ.blocks_line hl
  have hrows : τ.rows cfg place (τ.blocks (τ.row cfg place row :: rest))
      = τ.row cfg place row :: τ.rows cfg (place.walk row).2 (τ.blocks rest) := by
    rw [hblocks, rows, hwalk, hrow]
  refine ⟨?_, ?_, ?_, ?_⟩
  · rw [hrows, τ.blocks_line hnone, ih.blocks, hblocks]
  · rw [hblocks, Place.through_cons, Place.through_cons, hwalk, ih.through]
  · intro level hlevel
    rw [hblocks, Place.levels, hwalk] at hlevel
    exact List.mem_cons.2 ((List.mem_cons.1 hlevel).imp id (ih.levels level))
  · rw [hrows, Block.finds_line hnone, Block.finds_line hl, ih.errors]

theorem Again.block (hb : τ.Lays cfg) {place : Place} {row c : Text} {bs ps body post : List Text} (h : Regular row)
    (hbs : ∀ r ∈ bs, Regular r) (hc : Regular c) {o : Opening} {right : Bool}
    (hopen : Opening.read? (τ.row cfg place row) = some o) (hbody : τ.rows cfg (place.walk row).2 bs = body)
    (hno : ∀ l ∈ body, readClosing? l = none)
    (hclose : readClosing? (τ.row cfg ((place.walk row).2.through bs) c) = some right)
    (ih : Again τ cfg ((place.walk row).2.through bs) ps post) :
    Again τ cfg place (row :: (bs ++ c :: ps))
      (τ.row cfg place row :: (body ++ τ.row cfg ((place.walk row).2.through bs) c :: post)) := by
  have hplain : ∀ l ∈ body, Plain l := hbody ▸ plain_rows hτ hd _ (fun r hr => (hbs r hr).plain)
  have hbase := (Opening.trim_of_read? hopen).1
  have hinner := plain_inner hbase cfg.indentWidth hplain
  have htrim := map_trim_inner hbase cfg.indentWidth body
  obtain ⟨hwalk, hopen'⟩ := opening_again hτ hin hd h hopen
  obtain ⟨hlevels, hthrough, hagain⟩ := rows_body hτ hin hd (place.walk row).2 hbs hinner (by rw [hbody]; exact htrim)
  have hinner' := plain_rows hτ hd (place.walk row).2 hinner
  have htrim' := hagain.trans htrim
  have hno' := not_closing_of_trim hplain hinner' htrim' hno
  have hc' := walk_of_closing hτ hin hd hc hclose
  -- from here on only the place before the closing line matters, not how the body led to it
  generalize hnext : (place.walk row).2.through bs = next at *
  have hend : next.walk (o.closing right) = next.walk [] :=
    next.walk_closing (plain_closing hbase right) (readClosing?_closing hbase right)
  have hclose' := readClosing?_row hτ hd next (plain_closing hbase right) (readClosing?_closing hbase right)
  have hblocks : τ.blocks (τ.row cfg place row :: (body ++ τ.row cfg next c :: post))
      = o.text :: (o.inner cfg.indentWidth body ++ o.closing right :: τ.blocks post) := by
    rw [τ.blocks_block hopen hclose hno, blockLines_eq hb o right (fun l hl => (hplain l hl).unbroken)]
    simp
  have hrows : τ.rows cfg place (τ.blocks (τ.row cfg place row :: (body ++ τ.row cfg next c :: post)))
      = τ.row cfg place o.text :: (τ.rows cfg (place.walk row).2 (o.inner cfg.indentWidth body)
        ++ τ.row cfg next (o.closing right) :: τ.rows cfg next (τ.blocks post)) := by
    rw [hblocks, rows, hwalk, rows_append, hthrough, rows, hend, next.walk_nil]
  refine ⟨?_, ?_, ?_, ?_⟩
  · rw [hrows, τ.blocks_block hopen' hclose' hno', ih.blocks, blockLines_congr hb o right hplain hinner' htrim',
      τ.blocks_block hopen hclose hno]
  · calc place.through (τ.blocks (τ.row cfg place row :: (body ++ τ.row cfg next c :: post)))
        = next.through (τ.blocks post) := by
          rw [hblocks, Place.through_cons, hwalk, Place.through_append, hthrough, Place.through_cons, hend, next.walk_nil]
      _ = next.through ps := ih.through
      _ = place.through (row :: (bs ++ c :: ps)) := by
          rw [Place.through_cons, Place.through_append, hnext, Place.through_cons, hc', next.walk_nil]
  · intro level hlevel
    rw [hblocks, Place.levels, hwalk, Place.levels_append, hthrough, Place.levels, hend, next.walk_nil] at hlevel
    rw [Place.levels, Place.levels_append, hnext, Place.levels, hc', next.walk_nil]
    simp only [List.mem_cons, List.mem_append] at hlevel ⊢
    exact hlevel.imp id (Or.imp (hlevels level) (Or.imp id (ih.levels level)))
  · rw [hrows, Block.finds_block hopen' hclose' hno', Block.finds_block hopen hclose hno, List.map_cons, List.map_cons,
      ih.errors, bodyError?_congr cfg.indentWidth o right hplain hinner' htrim']

/-- **Rows and their blocks, written once, stay when both are written again.** -/
theorem again_blocks (hb : τ.Lays cfg) (ls : List Text) : ∀ {place : Place} {rs : List Text}, (∀ r ∈ rs, Regular r) →
    τ.rows cfg place rs = ls → Again τ cfg place rs ls := by
  induction ls using Block.block_induct with
  | nil =>
    intro place rs _ hrows
    cases rs with
    | nil => exact ⟨rfl, rfl, fun _ hl => hl, rfl⟩
    | cons r rs => cases hrows
  | line line rest hl ih =>
    intro place rs h hrows
    cases rs with
    | nil => cases hrows
    | cons r rs =>
      obtain ⟨rfl, hrest⟩ := List.cons.inj hrows
      have hrs : ∀ x ∈ rs, Regular x := fun x hx => h x (List.mem_cons_of_mem r hx)
      exact Again.line hτ hin hd (h r List.mem_cons_self) hrs hrest hl (ih hrs hrest)
  | block line o body close right post hopen hclose hbody ih =>
    intro place rs h hrows
    cases rs with
    | nil => cases hrows
    | cons r rs =>
      obtain ⟨rfl, hrest⟩ := List.cons.inj hrows
      obtain ⟨bs, cs, rfl, hbs, hcs⟩ := rows_eq_append hrest
      cases cs with
      | nil => cases hcs
      | cons c ps =>
        obtain ⟨rfl, hps⟩ := List.cons.inj hcs
        rw [walk_of_closing hτ hin hd (h c (by simp)) hclose, Place.walk_nil] at hps
        exact Again.block hτ hin hd hb (h r (by simp)) (fun x hx => h x (by simp [hx])) (h c (by simp)) hopen hbs hbody
          hclose (ih (fun x hx => h x (by simp [hx])) hps)

end

end Treatment

end EpFormat
