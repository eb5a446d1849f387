import EpFormat.Proofs.Respace
import EpFormat.Proofs.TagLine
/-!
# Comment — what becomes of comment tags

A comment tag is written without its mark and without its left chomp mark.  So no comment of a line is read again as it
was, and one whose code begins with no mark of its own comes to life (`comments_kept_iff`).
-/
namespace EpFormat

open Template Template.Tag

/-! ## Code stays inside its tag -/

theorem inner_of_respaced {s t : Text} (h : Respaced s t) (hs : Inner s) (hn : '\n' ∉ t) : Inner t :=
  ⟨fun hi => hs.1 (h.symm.isInfix (Text.forall_mem_of_all (by decide)) (by decide) hi), hn⟩

theorem inward_absent {cfg : Config} (hk : cfg.keywordSpacing = false) : (Treatment.absent cfg).Inward where
  statement t h := by
    have ht : Inner (Text.trim t) := h.of_isInfix (Text.trim_isInfix t)
    rw [Treatment.absent_statement, hk]
    refine inner_of_respaced (Respaced.onOneLine (Text.trim t)) ht (fun hn => ?_)
    rcases mem_onOneLine hn with ⟨hn, -⟩ | hn
    · exact ht.2 hn
    · exact absurd hn (by decide)
  expression t h := by
    rw [Treatment.absent_expression, hk]
    exact h.of_isInfix (Text.trim_isInfix t)

/-! ## Comments -/

/-- What a comment tag reads as once its mark and its left chomp mark are gone. -/
def Template.Tag.unmarked (tag : Tag) : Tag := ofInside (tag.body ++ chomp tag.rightChomp)

theorem inside_unmarked {tag : Tag} (h : tag.kind = .comment) : tag.unmarked.inside.length < tag.inside.length := by
  rw [Tag.unmarked, inside_ofInside, Tag.inside, h, Kind.mark]
  simp only [List.length_append, List.length_cons]
  omega

/-- What is left of a comment is a comment only if its code begins with a mark of its own. -/
theorem unmarked_comment_iff (tag : Tag) :
    tag.unmarked.kind = .comment ↔ ['#'] <+: tag.body ∨ ['-', '#'] <+: tag.body := by
  rw [Tag.unmarked, ofInside_comment_iff]
  -- The chomp mark at the end is never the mark that is looked for.
  cases tag.body with
  | nil => cases tag.rightChomp <;> simp [chomp, List.cons_prefix_cons]
  | cons c body =>
    cases body with
    | nil => cases tag.rightChomp <;> simp [chomp, List.cons_prefix_cons]
    | cons d body => simp [List.cons_prefix_cons]

variable {tidier : Perl.Tidier} {cfg : Config} {line : Text}

/-- The tags of a line as it is written without a tidier. -/
theorem all_formatAll (h : tidier.Unavailable cfg) (hn : cfg.normalizeDelimiters = true) (hk : cfg.keywordSpacing = false)
    (hl : '\n' ∉ line) (s : Perl.Session) :
    Tag.all ((Tag.formatAll tidier cfg line).run s).1
      = (Tag.all line).map (fun tag => ofInside ((Treatment.absent cfg).inside tag)) := by
  rw [line_gives h.steady line s, hn]
  exact Treatment.all_line (inward_absent hk) line hl

/-- Every comment that comes back is what is left of a longer one. -/
theorem exists_longer_comment (τ : Treatment) {tags : List Tag} {tag : Tag}
    (hmem : tag ∈ tags.map (fun tag => ofInside (τ.inside tag))) (hc : tag.kind = .comment) :
    ∃ tag' ∈ tags, tag'.kind = .comment ∧ tag.inside.length < tag'.inside.length := by
  obtain ⟨tag', hmem', rfl⟩ := List.mem_map.1 hmem
  by_cases hc' : tag'.kind = .comment
  · refine ⟨tag', hmem', hc', ?_⟩
    have : τ.inside tag' = tag'.body ++ chomp tag'.rightChomp := by simp only [Treatment.inside, hc']
    rw [this]
    exact inside_unmarked hc'
  · rw [Treatment.ofInside_inside hc'] at hc
    exact absurd hc hc'

/-- Tags among which every comment has a longer one beside it have no comment: else there would be ever longer ones. -/
theorem not_comment_of_longer {tags : List Tag} (hlonger : ∀ tag ∈ tags, tag.kind = .comment →
    ∃ tag' ∈ tags, tag'.kind = .comment ∧ tag.inside.length < tag'.inside.length) :
    ∀ tag ∈ tags, tag.kind ≠ .comment := by
  have hbound : ∀ l : List Tag, ∃ n, ∀ tag ∈ l, tag.inside.length ≤ n := by
    intro l
    induction l with
    | nil => exact ⟨0, by simp⟩
    | cons tag l ih =>
      obtain ⟨n, hn⟩ := ih
      refine ⟨max tag.inside.length n, fun t ht => ?_⟩
      rcases List.mem_cons.1 ht with rfl | ht
      · exact Nat.le_max_left _ _
      · exact Nat.le_trans (hn t ht) (Nat.le_max_right _ _)
  have hgrow : ∀ n, ∀ tag ∈ tags, tag.kind = .comment →
      ∃ tag' ∈ tags, tag.inside.length + n ≤ tag'.inside.length := by
    intro n
    induction n with
    | zero => exact fun tag ht _ => ⟨tag, ht, Nat.le_refl _⟩
    | succ n ih =>
      intro tag ht hc
      obtain ⟨tag', ht', hc', hlen⟩ := hlonger tag ht hc
      obtain ⟨tag'', ht'', hlen'⟩ := ih tag' ht' hc'
      exact ⟨tag'', ht'', by omega⟩
  -- A comment longer by more than the bound cannot be.
  obtain ⟨n, hn⟩ := hbound tags
  intro tag ht hc
  obtain ⟨tag', ht', hlen⟩ := hgrow (n + 1) tag ht hc
  have := hn tag' ht'
  omega

/-- **No comment stays a comment as it was**: they all come back only where there is none.  In the place of each the line
as written has what is left of it without its marks, and that is live unless its code begins with a mark of its own. -/
theorem comments_kept_iff (h : tidier.Unavailable cfg) (hn : cfg.normalizeDelimiters = true)
    (hk : cfg.keywordSpacing = false) (hl : '\n' ∉ line) (s : Perl.Session) :
    let written := Tag.all ((Tag.formatAll tidier cfg line).run s).1
    ((∀ tag ∈ Tag.all line, tag.kind = .comment → tag ∈ written) ↔ ∀ tag ∈ Tag.all line, tag.kind ≠ .comment) ∧
      ∀ (i : Nat) (tag : Tag), (Tag.all line)[i]? = some tag → tag.kind = .comment →
        written[i]? = some tag.unmarked ∧
          (tag.unmarked.kind = .comment ↔ ['#'] <+: tag.body ∨ ['-', '#'] <+: tag.body) := by
  intro written
  have hwritten : written = _ := all_formatAll h hn hk hl s
  refine ⟨⟨fun hall => ?_, fun hnone tag ht hc => absurd hc (hnone tag ht)⟩, fun i tag hi hc => ⟨?_, unmarked_comment_iff tag⟩⟩
  · exact not_comment_of_longer (fun tag ht hc => exists_longer_comment _ (hwritten ▸ hall tag ht hc) hc)
  · rw [hwritten, List.getElem?_map, hi, Option.map_some, Treatment.inside]
    simp only [hc]
    rfl

/-- In a line with two comments, the one with a mark of its own stays a comment and the other comes to life. -/
theorem comments_kept_iff_marks :
    let line := txt "<p><%#= $x %><%-##  y -%></p>"
    let written := Tag.all ((Tag.formatAll Perl.Tidier.absent {} line).run {}).1
    ((∀ tag ∈ Tag.all line, tag.kind = .comment → tag ∈ written) ↔ ∀ tag ∈ Tag.all line, tag.kind ≠ .comment) ∧
      ∀ (i : Nat) (tag : Tag), (Tag.all line)[i]? = some tag → tag.kind = .comment →
        written[i]? = some tag.unmarked ∧
          (tag.unmarked.kind = .comment ↔ ['#'] <+: tag.body ∨ ['-', '#'] <+: tag.body) :=
  comments_kept_iff (Or.inr (fun _ _ => rfl)) rfl rfl (by decide) {}

/-- A commented expression comes to life. -/
theorem comment_comes_to_life :
    ((Tag.formatAll Perl.Tidier.absent {} (txt "<%#= expr %>")).run {}).1 = txt "<%= expr %>" ∧
      Tag.all (txt "<%#= expr %>") = [⟨false, .comment, txt "= expr ", false⟩] ∧
      Tag.all (txt "<%= expr %>") = [⟨false, .expression, txt " expr ", false⟩] := by
  decide +kernel

end EpFormat
