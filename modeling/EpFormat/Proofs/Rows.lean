import EpFormat.Proofs.Limit
import EpFormat.Proofs.Settle
/-!
# Rows — formatting rows again

Rows as they are written stay when they are written again from the same place (`rows_rows`).  Lines that differ from
them in the white space at their ends come out with the same trimmed text, at the same levels, and lead to the same
place (`rows_again`).  A blank row and the closing line of a block leave the place as it is.
-/
namespace EpFormat

open Template Template.Tag

/-! ## From place to place -/

def Place.through (place : Place) (rows : List Text) : Place := rows.foldl (fun p row => (p.walk row).2) place

@[simp] theorem Place.through_nil (place : Place) : place.through [] = place := rfl

@[simp] theorem Place.through_cons (place : Place) (row : Text) (rows : List Text) :
    place.through (row :: rows) = (place.walk row).2.through rows := rfl

theorem Place.through_append (place : Place) (a b : List Text) : place.through (a ++ b) = (place.through a).through b :=
  List.foldl_append ..

theorem Place.levels_append : ∀ (a b : List Text) (place : Place),
    place.levels (a ++ b) = place.levels a ++ (place.through a).levels b
  | [], _, _ => rfl
  | r :: a, b, place => by
    rw [List.cons_append, Place.levels, Place.levels, Place.levels_append a b]
    rfl

namespace Treatment

variable {τ : Treatment} {cfg : Config}

theorem row_eq {place : Place} (hr : place.raw = none) (row : Text) : τ.row cfg place row
    = Text.dropTrailingPad
        (cfg.indentation (place.step row).1 ++ Text.trimLeft (τ.content cfg.normalizeDelimiters row)) := by
  simp [Treatment.row, Place.walk, hr]

theorem rows_ne_nil {rs : List Text} (h : rs ≠ []) (place : Place) : τ.rows cfg place rs ≠ [] := by
  obtain ⟨r, rs, rfl⟩ := List.exists_cons_of_ne_nil h
  simp [rows]

theorem rows_append : ∀ (a b : List Text) (place : Place),
    τ.rows cfg place (a ++ b) = τ.rows cfg place a ++ τ.rows cfg (place.through a) b
  | [], _, _ => rfl
  | r :: a, b, place => by
    rw [List.cons_append, rows, rows, rows_append a b]
    rfl

/-- Where the rows as written are cut in two, the rows can be cut there. -/
theorem rows_eq_append : ∀ {a b : List Text} {place : Place} {rs : List Text}, τ.rows cfg place rs = a ++ b →
    ∃ as bs, rs = as ++ bs ∧ τ.rows cfg place as = a ∧ τ.rows cfg (place.through as) bs = b
  | [], b, place, rs, h => ⟨[], rs, rfl, rfl, h⟩
  | l :: a, b, place, [], h => by cases h
  | l :: a, b, place, r :: rs, h => by
    obtain ⟨hl, htail⟩ := List.cons.inj h
    obtain ⟨as, bs, rfl, ha, hb⟩ := rows_eq_append htail
    exact ⟨r :: as, bs, rfl, by rw [rows, hl, ha], hb⟩

theorem plain_row (hτ : τ.Settling) (hd : cfg.normalizeDelimiters = true) {row : Text} (h : Plain row) (place : Place) :
    Plain (τ.row cfg place row) := by
  cases hw : (place.walk row).1 with
  | none => rwa [row_of_none hw]
  | some level =>
    have htrim : Plain (Text.trim row) := h.of_isInfix (Text.trim_isInfix row)
    have hshown : Plain (τ.shown place (Text.trim row)) := by
      unfold shown
      split
      · exact htrim
      · exact plain_content hτ htrim
    rw [row_of_level hτ hd h hw, Config.atLevel]
    split
    · exact Plain.of_ink (by simp)
    · exact (plain_spaces _).append hshown

theorem plain_rows (hτ : τ.Settling) (hd : cfg.normalizeDelimiters = true) : ∀ (place : Place) {rs : List Text},
    (∀ r ∈ rs, Plain r) → ∀ l ∈ τ.rows cfg place rs, Plain l
  | _, [], _, _, hl => by cases hl
  | place, r :: rs, h, l, hl => by
    rcases List.mem_cons.1 hl with rfl | hl
    · exact plain_row hτ hd (h r List.mem_cons_self) place
    · exact plain_rows hτ hd _ (fun x hx => h x (List.mem_cons_of_mem r hx)) l hl

/-- **Rows are written the same again.** -/
theorem rows_rows (hτ : τ.Settling) (hin : τ.Inward) (hd : cfg.normalizeDelimiters = true) : ∀ {rs : List Text}
    {place : Place}, (∀ r ∈ rs, Regular r) → τ.rows cfg place (τ.rows cfg place rs) = τ.rows cfg place rs
  | [], _, _ => rfl
  | r :: rs, place, h => by
    have hr := h r List.mem_cons_self
    obtain ⟨hwalk, hrow⟩ := row_again hτ hin hd place hr (plain_row hτ hd hr.plain place) rfl
    rw [ite_self] at hrow
    rw [rows, rows, hwalk, hrow, rows_rows hτ hin hd (fun x hx => h x (List.mem_cons_of_mem r hx))]

/-- **White space at the ends of rows that have been written does not matter.** -/
theorem rows_again (hτ : τ.Settling) (hin : τ.Inward) (hd : cfg.normalizeDelimiters = true) : ∀ {rs others : List Text}
    {place : Place}, (∀ r ∈ rs, Regular r) → (∀ l ∈ others, Plain l) →
      others.map Text.trim = (τ.rows cfg place rs).map Text.trim →
        place.levels others = place.levels rs ∧ place.through others = place.through rs ∧
          (τ.rows cfg place others).map Text.trim = others.map Text.trim
  | [], [], _, _, _, _ => ⟨rfl, rfl, rfl⟩
  | r :: rs, [], _, _, _, ht => by cases ht
  | [], l :: others, _, _, _, ht => by cases ht
  | r :: rs, l :: others, place, h, hplain, ht => by
    obtain ⟨htrim, htail⟩ := List.cons.inj ht
    obtain ⟨hwalk, hrow⟩ := row_again hτ hin hd place (h r List.mem_cons_self) (hplain l List.mem_cons_self) htrim
    rw [← hwalk] at htail
    have hsame : Text.trim (τ.row cfg place l) = Text.trim l := by
      rw [hrow]
      split
      · exact htrim.symm
      · rfl
    obtain ⟨hlevels, hthrough, hrest⟩ := rows_again hτ hin hd (fun x hx => h x (List.mem_cons_of_mem r hx))
      (fun x hx => hplain x (List.mem_cons_of_mem l hx)) htail
    rw [Place.levels, Place.levels, Place.through_cons, Place.through_cons, ← hwalk, hlevels, hthrough, rows, List.map_cons,
      List.map_cons, hsame, hrest]
    exact ⟨rfl, rfl, rfl⟩

end Treatment

/-! ## Rows that leave the place as it is -/

/-- A row that moves no depth and opens nothing leaves the place as it is, unless it closes a raw element. -/
theorem Place.walk_of_still (place : Place) {row : Text} (hs : Shift.ofLine row = ⟨0, 0⟩)
    (hn : rowNesting row = ⟨0, 0, none, none⟩) (hc : Markup.rawClose? row = none) :
    place.walk row = (if place.raw.isSome then none else some (place.markup + place.perl), place) := by
  have hn' : Markup.Nesting.ofLine (Tag.blankOut row) = ⟨0, 0, none, none⟩ := hn
  obtain ⟨markup, perl, raw⟩ := place
  cases raw with
  | some name => simp [Place.walk, hc]
  | none => simp [Place.walk, Place.step, hs, hn']

theorem Place.walk_nil (place : Place) :
    place.walk [] = (if place.raw.isSome then none else some (place.markup + place.perl), place) :=
  place.walk_of_still (by decide) (by decide) (by decide)

theorem Treatment.row_nil {τ : Treatment} {cfg : Config} (place : Place) : τ.row cfg place [] = [] := by
  have hcontent : (if place.raw.isSome then [] else τ.content cfg.normalizeDelimiters []) = [] := by
    split <;> rfl
  unfold Treatment.row
  rw [hcontent]
  cases (place.walk []).1 with
  | none => rfl
  | some level => exact dropTrailingPad_indentation cfg level (Plain.of_ink (by simp))

theorem Treatment.rows_empty {τ : Treatment} {cfg : Config} (place : Place) : τ.rows cfg place [[]] = [[]] :=
  congrArg (fun l => [l]) (Treatment.row_nil place)

theorem Place.walk_blank (place : Place) {row : Text} (hp : Plain row) (hb : allBlank row = true) :
    place.walk row = place.walk [] := by
  rw [← place.walk_trim hp.feed_not_mem, Text.trim_eq_nil_iff.2 hb]

theorem Place.through_blank : ∀ {rows : List Text} (place : Place), (∀ r ∈ rows, Plain r ∧ allBlank r = true) →
    place.through rows = place
  | [], _, _ => rfl
  | r :: rows, place, h => by
    obtain ⟨hp, hb⟩ := h r List.mem_cons_self
    have hrest := Place.through_blank place (fun x hx => h x (List.mem_cons_of_mem r hx))
    rw [Place.through_cons, place.walk_blank hp hb, place.walk_nil, hrest]

/-! ## Closing lines of blocks -/

/-- A closing line, without white space at its ends: the delimiter may have a space in it. -/
def closingText (right spaced : Bool) : Text := chomp right ++ '%' :: (if spaced then [' ', '>'] else ['>'])

/-- The line closes a block: spaces and tabs, a closing delimiter, and white space. -/
def Closes (line : Text) (right : Bool) : Prop :=
  ∃ a spaced b, (∀ c ∈ a, isPad c = true) ∧ allBlank b = true ∧ line = a ++ (closingText right spaced ++ b)

theorem readClosing?_iff_closes {line : Text} {right : Bool} : readClosing? line = some right ↔ Closes line right := by
  constructor
  · intro h
    have hpads : ∀ c ∈ line.takeWhile isPad, isPad c = true := List.all_eq_true.1 List.all_takeWhile
    have hline : line = line.takeWhile isPad
        ++ (chomp (readChomp (line.dropWhile isPad)).1 ++ (readChomp (line.dropWhile isPad)).2) := by
      rw [chomp_readChomp, List.takeWhile_append_dropWhile]
    rw [readClosing?] at h
    -- What is read past the chomp mark is the delimiter and white space.
    simp only at h
    split at h
    · rename_i tail hrest
      split at h
      · rename_i hblank
        rw [Option.some.inj h, hrest] at hline
        exact ⟨_, false, tail, hpads, hblank, by simpa [closingText] using hline⟩
      · cases h
    · rename_i tail hrest
      split at h
      · rename_i hblank
        rw [Option.some.inj h, hrest] at hline
        exact ⟨_, true, tail, hpads, hblank, by simpa [closingText] using hline⟩
      · cases h
    · cases h
  · rintro ⟨a, spaced, b, ha, hb, rfl⟩
    rw [readClosing?, List.dropWhile_append_of_pos ha]
    cases right <;> cases spaced <;> simp [closingText, chomp, readChomp, isPad, hb]

theorem exists_closingText {line : Text} {right : Bool} (h : readClosing? line = some right) :
    ∃ a spaced b, allBlank a = true ∧ allBlank b = true ∧ line = a ++ (closingText right spaced ++ b) := by
  obtain ⟨a, spaced, b, ha, hb, rfl⟩ := readClosing?_iff_closes.1 h
  exact ⟨a, spaced, b, allBlank_iff.2 (fun c hc => isBlank_of_isPad (ha c hc)), hb, rfl⟩

/-- **A closing line is white space around a closing delimiter.** -/
theorem readClosing?_eq_some_iff {line : Text} (hp : Plain line) {right : Bool} :
    readClosing? line = some right ↔ ∃ spaced, Text.trim line = closingText right spaced := by
  constructor
  · intro h
    obtain ⟨a, spaced, b, ha, hb, rfl⟩ := exists_closingText h
    have htrim : ∀ (right spaced : Bool), Text.trim (closingText right spaced) = closingText right spaced := by decide
    exact ⟨spaced, by rw [Text.trim_append_of_blank ha, Text.trim_append_blank hb, htrim]⟩
  · rintro ⟨spaced, hspaced⟩
    obtain ⟨b, hb, hline⟩ := Text.exists_trimRight (Text.trimLeft line)
    rw [readClosing?, hp.dropWhile_isPad, hline, show Text.trimRight (Text.trimLeft line) = _ from hspaced]
    cases right <;> cases spaced <;> simp [closingText, chomp, readChomp, hb]

theorem Place.walk_closing (place : Place) {line : Text} (hp : Plain line) {right : Bool}
    (h : readClosing? line = some right) : place.walk line = place.walk [] := by
  obtain ⟨spaced, hspaced⟩ := (readClosing?_eq_some_iff hp).1 h
  rw [← place.walk_trim hp.feed_not_mem, hspaced, place.walk_nil]
  cases right <;> cases spaced <;> exact place.walk_of_still (by decide) (by decide) (by decide)

namespace Treatment

variable {τ : Treatment} {cfg : Config}

/-- Outside raw elements a closing delimiter without a chomp mark is a directive, and gets a space. -/
theorem content_closing (hτ : τ.Settling) (right spaced : Bool) :
    τ.content true (closingText right spaced) = closingText right (!right || spaced) := by
  have hcode : τ.statement ['>'] = ['>'] := hτ.statement.singleton (by decide)
  have hspace : τ.statement [' ', '>'] = ['>'] := by rw [← hτ.statement.trim]; exact hcode
  cases right with
  | true => cases spaced <;> rfl
  | false =>
    cases spaced with
    | true => exact congrArg (fun t => '%' :: Directive.afterSpace t) hspace
    | false => exact congrArg (fun t => '%' :: Directive.afterSpace t) hcode

/-- **A closing line as it is written is a closing line**, with the same chomp mark. -/
theorem readClosing?_row (hτ : τ.Settling) (hd : cfg.normalizeDelimiters = true) (place : Place) {line : Text}
    (hp : Plain line) {right : Bool} (h : readClosing? line = some right) :
    readClosing? (τ.row cfg place line) = some right := by
  rw [readClosing?_eq_some_iff (plain_row hτ hd hp place)]
  obtain ⟨spaced, hspaced⟩ := (readClosing?_eq_some_iff hp).1 h
  cases hw : (place.walk line).1 with
  | none => exact ⟨spaced, by rw [row_of_none hw, hspaced]⟩
  | some level =>
    rw [row_of_level hτ hd hp hw, trim_atLevel, hspaced, shown]
    split
    · exact ⟨spaced, by cases right <;> cases spaced <;> rfl⟩
    · exact ⟨!right || spaced, by rw [content_closing hτ]; cases right <;> cases spaced <;> rfl⟩

end Treatment

end EpFormat
