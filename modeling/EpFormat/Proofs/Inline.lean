import Mathlib.Data.List.Forall2
import EpFormat.Proofs.Unblocked
/-!
# Inline — Perl code stays on its line

The tidier may answer with any number of lines, well or badly, and something else in each of its runs.  What comes of a
statement or an expression is put on one line again, in every branch: where the tidier fails, where the braces of its
answer do not close, and where they do.  So a directive or a line with tags, as it is written, has no line break that it
did not have (`ensures_directive`, `ensures_line`), and that goes for rows as a whole (`ensures_rows`).
-/
namespace EpFormat

open Perl Template Template.Tag

/-! ## Line breaks of a text in another -/

/-- Every line break of `out` is a character of `source`. -/
def Text.NoNewBreak (source out : Text) : Prop := ∀ c ∈ out, isLineBreak c = true → c ∈ source

namespace Text.NoNewBreak

variable {source other a b out : Text}

theorem of_unbroken (h : out.Unbroken) : NoNewBreak source out := by
  intro c hc hb
  rw [h c hc] at hb
  cases hb

theorem spaced (h : ∀ c ∈ out, c = ' ' ∨ c ∈ source) : NoNewBreak source out := by
  intro c hc hb
  rcases h c hc with rfl | hc
  · exact absurd hb (by decide)
  · exact hc

theorem append (ha : NoNewBreak source a) (hb : NoNewBreak source b) : NoNewBreak source (a ++ b) :=
  fun c hc => (List.mem_append.1 hc).elim (ha c) (hb c)

theorem flatten {parts : List Text} (h : ∀ part ∈ parts, NoNewBreak source part) : NoNewBreak source parts.flatten := by
  intro c hc
  obtain ⟨part, hpart, hc⟩ := List.mem_flatten.1 hc
  exact h part hpart c hc

theorem mono (h : NoNewBreak source out) (hs : ∀ c ∈ source, c ∈ other) : NoNewBreak other out :=
  fun c hc hb => hs c (h c hc hb)

theorem unbroken (h : NoNewBreak source out) (hs : source.Unbroken) : out.Unbroken := by
  intro c hc
  cases hb : isLineBreak c with
  | false => rfl
  | true => exact absurd (hs c (h c hc hb)) (by simp [hb])

theorem not_mem {c : Char} (h : NoNewBreak source out) (hb : isLineBreak c = true) (hc : c ∉ source) : c ∉ out :=
  fun hm => hc (h c hm hb)

end Text.NoNewBreak

/-! ## Statements and expressions -/

section

variable (tidier : Tidier) (cfg : Config)

theorem unbroken_onOneLine {ls : List Text} (h : ∀ l ∈ ls, l.Unbroken) (enable : Bool) :
    (spaceIf enable (onOneLine ls)).Unbroken := by
  intro c hc
  rcases mem_spaceIf hc with rfl | hc
  · decide
  · rcases mem_of_mem_onOneLine hc with rfl | ⟨l, hl, hc⟩
    · decide
    · exact h l hl c hc

theorem unbroken_of_mem_lines {t : Text} : ∀ l ∈ Text.lines t, l.Unbroken := fun _ hl _ hc => (Text.mem_of_mem_lines hl hc).2

/-- A statement comes on one line, whatever the code and the answer. -/
theorem ensures_statement (code : Text) : Ensures (tidyStatement tidier cfg code) Text.Unbroken :=
  Ensures.after (fun _ => Ensures.pure (unbroken_onOneLine unbroken_of_mem_lines cfg.keywordSpacing))

/-- An expression comes on one line, unless the tidier fails; then it is the code. -/
theorem ensures_expression (code : Text) : Ensures (tidyExpression tidier cfg code) (Text.NoNewBreak code) := by
  refine Ensures.after (fun answer => ?_)
  split
  · refine Ensures.pure (Text.NoNewBreak.spaced (fun c hc => ?_))
    exact (mem_spaceIf hc).imp id (fun hc => (Text.trim_isInfix code).subset hc)
  · refine Ensures.pure (Text.NoNewBreak.of_unbroken (unbroken_onOneLine (fun l hl => ?_) cfg.keywordSpacing))
    obtain ⟨k, hk, rfl⟩ := List.mem_map.1 hl
    exact fun c hc => unbroken_of_mem_lines k hk c ((Text.trim_isInfix k).subset hc)

/-! ## Tags and directives -/

theorem unbroken_delimit (normalize : Bool) (tag : Tag) :
    let d := delimit normalize (some (chomp tag.leftChomp)) (some tag.kind.mark) tag.body (some (chomp tag.rightChomp))
    d.opening.Unbroken ∧ d.closing.Unbroken := by
  obtain ⟨left, kind, body, right⟩ := tag
  cases normalize <;> cases left <;> cases kind <;> cases right <;>
    simp [delimit, chomp, Kind.mark, Text.Unbroken, isLineBreak]

theorem ensures_tag (tag : Tag) : Ensures (tag.format tidier cfg) (Text.NoNewBreak tag.body) := by
  have hbody : Ensures (tag.tidyBody tidier cfg) (Text.NoNewBreak tag.body) := by
    obtain ⟨_, kind, body, _⟩ := tag
    cases kind with
    | comment => exact Ensures.pure (fun c hc _ => hc)
    | statement => exact fun s => Text.NoNewBreak.of_unbroken (ensures_statement tidier cfg body s)
    | expression => exact ensures_expression tidier cfg body
    | rawExpression => exact ensures_expression tidier cfg body
  obtain ⟨hopening, hclosing⟩ := unbroken_delimit cfg.normalizeDelimiters tag
  refine hbody.bind (fun inner hinner => Ensures.pure ?_)
  exact ((Text.NoNewBreak.of_unbroken hopening).append hinner).append (Text.NoNewBreak.of_unbroken hclosing)

theorem mem_of_mem_scan (line : Text) : ∀ p ∈ scan finder line,
    (∀ c, p = .item c → c ∈ line) ∧ ∀ tag source, p = .hit tag source → ∀ c ∈ tag.body, c ∈ line := by
  induction line using tag_induct with
  | nil => simp
  | tag u post hu ih =>
    rw [scan_tag hu]
    refine List.forall_mem_cons.2 ⟨⟨by simp, fun tag source h c hc => ?_⟩, fun p hp => ?_⟩
    · obtain ⟨rfl, -⟩ := Piece.hit.inj h
      simp [(Treatment.body_isInfix u).subset hc]
    · obtain ⟨hitem, hhit⟩ := ih p hp
      exact ⟨fun c h => by simp [hitem c h], fun tag source h c hc => by simp [hhit tag source h c hc]⟩
  | char c rest hc ih =>
    rw [scan_char hc]
    refine List.forall_mem_cons.2 ⟨⟨fun d h => ?_, by simp⟩, fun p hp => ?_⟩
    · rw [Piece.item.inj h]
      exact List.mem_cons_self
    · obtain ⟨hitem, hhit⟩ := ih p hp
      exact ⟨fun d h => by simp [hitem d h], fun tag source h d hd => by simp [hhit tag source h d hd]⟩

/-- **No line break comes into a line with tags.** -/
theorem ensures_line (line : Text) : Ensures (Tag.formatAll tidier cfg line) (Text.NoNewBreak line) := by
  have hpiece : ∀ p ∈ scan finder line, Ensures (Tag.formatPiece tidier cfg p) (Text.NoNewBreak line) := by
    intro p hp
    obtain ⟨hitem, hhit⟩ := mem_of_mem_scan line p hp
    cases p with
    | item c =>
      refine Ensures.pure (fun d hd _ => ?_)
      rw [List.mem_singleton.1 hd]
      exact hitem c rfl
    | hit tag source => exact fun s => (ensures_tag tidier cfg tag s).mono (hhit tag source rfl)
  exact (Ensures.mapM hpiece).bind (fun parts hparts => Ensures.pure (Text.NoNewBreak.flatten hparts))

theorem Directive.mem_of_mem_body {row : Text} {d : Directive} (h : Directive.read? row = some d) :
    ∀ c ∈ d.body, c ∈ row := by
  intro c hc
  unfold Directive.read? at h
  split at h
  · rename_i rest hrest
    simp only at h
    split at h
    · rename_i body hbody
      obtain rfl := Option.some.inj h
      -- The body is what is read past the mark, up to a line feed.
      have hline : c ∈ (Kind.read rest).2 := by
        unfold Directive.toLineEnd? at hbody
        split at hbody
        · exact (Option.some.inj hbody).symm ▸ hc
        · exact (List.takeWhile_prefix _).subset ((Option.some.inj hbody).symm ▸ hc)
        · cases hbody
      have hrow : c ∈ '%' :: rest := by
        rw [← Kind.mark_read rest]
        simp [hline]
      exact (List.dropWhile_suffix isBlank).subset (hrest ▸ hrow)
    · cases h
  · cases h

theorem Text.NoNewBreak.after_mark {source t : Text} (m : Text) (hm : m.Unbroken) (h : Text.NoNewBreak source t) :
    Text.NoNewBreak source (m ++ t) := (Text.NoNewBreak.of_unbroken hm).append h

theorem Text.NoNewBreak.afterSpace {source t : Text} (h : Text.NoNewBreak source t) :
    Text.NoNewBreak source (Directive.afterSpace t) := by
  unfold Directive.afterSpace
  split
  · exact Text.NoNewBreak.of_unbroken (by simp [Text.Unbroken])
  · exact h.after_mark [' '] (by decide)

/-- **No line break comes into a directive.** -/
theorem ensures_directive (d : Directive) : Ensures (d.format tidier cfg) (Text.NoNewBreak d.body) := by
  obtain ⟨indent, kind, body⟩ := d
  cases kind with
  | comment =>
    have hbody : Text.NoNewBreak body (if cfg.normalizeDelimiters then Directive.afterSpace (Text.trim body) else body) := by
      split
      · exact Text.NoNewBreak.afterSpace (fun c hc _ => (Text.trim_isInfix body).subset hc)
      · exact fun c hc _ => hc
    exact Ensures.pure (hbody.after_mark ['%', '#'] (by decide))
  | statement =>
    refine (ensures_statement tidier cfg body).bind (fun inner hinner => Ensures.pure ?_)
    exact (Text.NoNewBreak.of_unbroken hinner).afterSpace.after_mark ['%'] (by decide)
  | expression =>
    refine (ensures_expression tidier cfg body).bind (fun inner hinner => Ensures.pure ?_)
    exact hinner.afterSpace.after_mark ['%', '='] (by decide)
  | rawExpression =>
    refine (ensures_expression tidier cfg body).bind (fun inner hinner => Ensures.pure ?_)
    exact hinner.afterSpace.after_mark ['%', '=', '='] (by decide)

/-! ## Rows -/

theorem ensures_content (place : Place) (row : Text) :
    Ensures (formatContent tidier cfg place row) (Text.NoNewBreak row) := by
  unfold formatContent
  split
  · exact Ensures.pure (fun c hc _ => hc)
  · cases hd : Directive.read? row with
    | some d => exact fun s => (ensures_directive tidier cfg d s).mono (Directive.mem_of_mem_body hd)
    | none => exact ensures_line tidier cfg row

theorem ensures_row (place : Place) (row : Text) :
    Ensures (formatRow tidier cfg place row) (fun r => Text.NoNewBreak row r.1) := by
  unfold formatRow
  split
  · exact Ensures.pure (fun c hc _ => hc)
  · refine (ensures_content tidier cfg place row).bind (fun content hcontent => Ensures.pure ?_)
    exact fun c hc hb => hcontent c ((mem_of_mem_level hc).resolve_left (by rintro rfl; cases hb)) hb

/-- **No line break comes into rows**, from any place on. -/
theorem ensures_rows : ∀ (rows done : List Text) (place : Place),
    Ensures (formatRows tidier cfg done place rows)
      (fun out => ∃ written, out = done.reverse ++ written ∧ List.Forall₂ Text.NoNewBreak rows written)
  | [], done, _ => Ensures.pure ⟨[], (List.append_nil _).symm, .nil⟩
  | row :: rows, done, place => by
    refine (ensures_row tidier cfg place row).bind (fun r hr => ?_)
    intro s
    obtain ⟨written, hout, hrows⟩ := ensures_rows rows (r.1 :: done) r.2 s
    refine ⟨r.1 :: written, ?_, .cons hr hrows⟩
    rw [hout, List.reverse_cons, List.append_assoc]
    rfl

end

namespace Treatment

variable {cfg : Config}

theorem noNewBreak_row (place : Place) (row : Text) : Text.NoNewBreak row ((absent cfg).row cfg place row) := by
  have hrow := ensures_row Tidier.absent cfg place row {}
  rwa [row_gives (Tidier.Unavailable.steady (Or.inr (fun _ _ => rfl))) place row {}] at hrow

theorem unbroken_row (place : Place) {row : Text} (h : row.Unbroken) : ((absent cfg).row cfg place row).Unbroken :=
  (noNewBreak_row place row).unbroken h

theorem unbroken_rows (place : Place) {rs : List Text} (h : ∀ r ∈ rs, r.Unbroken) :
    ∀ l ∈ (absent cfg).rows cfg place rs, l.Unbroken := by
  intro l hl
  obtain ⟨r, hr, place, rfl⟩ := exists_of_mem_rows hl
  exact unbroken_row place (h r hr)

end Treatment

/-- **Perl code stays on its line**: whatever the settings, and whatever the tidier does in each of its runs, a directive and a
line with tags on one line are written on one line. -/
theorem inline_on_one_line {line : Text} (hn : '\n' ∉ line) (hr : '\r' ∉ line) (tidier : Tidier) (cfg : Config) (s : Session) :
    (∀ d, Directive.read? line = some d →
      '\n' ∉ ((d.format tidier cfg).run s).1 ∧ '\r' ∉ ((d.format tidier cfg).run s).1) ∧
      '\n' ∉ ((Tag.formatAll tidier cfg line).run s).1 ∧ '\r' ∉ ((Tag.formatAll tidier cfg line).run s).1 := by
  have hline := ensures_line tidier cfg line s
  refine ⟨fun d hd => ?_, hline.not_mem (by decide) hn, hline.not_mem (by decide) hr⟩
  have hdirective := (ensures_directive tidier cfg d s).mono (Directive.mem_of_mem_body hd)
  exact ⟨hdirective.not_mem (by decide) hn, hdirective.not_mem (by decide) hr⟩

/-- A tidier that answers on several lines: with braces to unwrap, then with braces that do not close, then with none. -/
theorem inline_on_one_line_answers :
    let tidier := Tidier.scripted (some (txt "perltidy"))
      [(0, txt "do \x7b\r\n  f(\n    1 )\n\x7d\n", []), (0, txt "do \x7b\r", []), (0, txt "g;\r\nh;\n", [])]
    let line := txt "<p><%= f(1) %><%== $y %><% g; h; %></p>"
    let tags := ((Tag.formatAll tidier {} line).run {}).1
    let directive := ((Directive.format tidier {} ⟨[' '], .expression, txt "f(1)"⟩).run {}).1
    (directive = txt "%= f( 1 )" ∧ '\n' ∉ directive ∧ '\r' ∉ directive) ∧
      tags = txt "<p><%= f( 1 ) %><%== $y %><% g; h; %></p>" ∧ '\n' ∉ tags ∧ '\r' ∉ tags := by
  intro tidier line tags directive
  have hread : Directive.read? (txt " %=f(1)") = some ⟨[' '], .expression, txt "f(1)"⟩ := by decide +kernel
  have hdirective := (inline_on_one_line (by decide) (by decide) tidier {} {}).1 _ hread
  have htags := (@inline_on_one_line line (by decide) (by decide) tidier {} {}).2
  exact ⟨⟨by decide +kernel, hdirective⟩, by decide +kernel, htags⟩

end EpFormat
