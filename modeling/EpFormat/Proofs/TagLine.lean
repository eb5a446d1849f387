import EpFormat.Proofs.Tag
import EpFormat.Proofs.Treatment
/-!
# TagLine — the tags of a line that has been written

A line is written tag by tag, and the characters between the tags stay.  If the treatment puts no closing delimiter
and no line feed into code that had none (`Treatment.Inward`), the line as written has its tags where the line had them:
reading the line again gives, one by one, the tags with their new insides (`all_line`).
-/
namespace EpFormat

open Template Template.Tag

namespace Treatment

variable (τ : Treatment)

/-- What stands between the delimiters of a tag as it is written: a comment loses its marks on the left, any other tag
has one space on the left of its code, and one on the right unless a chomp mark stands there. -/
def inside (tag : Tag) : Text :=
  match tag.kind with
  | .comment => tag.body ++ chomp tag.rightChomp
  | kind => chomp tag.leftChomp ++ kind.mark ++ (' ' :: τ.code kind tag.body ++ (if tag.rightChomp then ['-'] else [' ']))

theorem inside_of_ne_comment {tag : Tag} (h : tag.kind ≠ .comment) :
    τ.inside tag = chomp tag.leftChomp ++ tag.kind.mark
      ++ (' ' :: τ.code tag.kind tag.body ++ (if tag.rightChomp then ['-'] else [' '])) := by
  unfold inside
  split
  · rename_i hk
    exact absurd hk h
  · rfl

theorem tag_normal (tag : Tag) : τ.tag true tag = '<' :: '%' :: (τ.inside tag ++ ['%', '>']) := by
  obtain ⟨left, kind, body, right⟩ := tag
  cases left <;> cases kind <;> cases right <;> simp [Treatment.tag, inside, delimit, chomp, Kind.mark, Treatment.code]

def piece : Piece Char Tag → Piece Char Tag
  | .item c => .item c
  | .hit tag _ => .hit (ofInside (τ.inside tag)) (τ.tag true tag)

@[simp] theorem line_nil (normalize : Bool) : τ.line normalize [] = [] := rfl

theorem line_hit {u : Text} (h : Inner u) (post : Text) (normalize : Bool) :
    τ.line normalize ('<' :: '%' :: (u ++ '%' :: '>' :: post)) = τ.tag normalize (ofInside u) ++ τ.line normalize post := by
  rw [line, substitute_eq, show scanFrom finder none = scan finder from rfl, scan_tag h, List.flatMap_cons, Piece.put]
  rfl

theorem line_tag {u : Text} (h : Inner u) (post : Text) :
    τ.line true ('<' :: '%' :: (u ++ '%' :: '>' :: post))
      = '<' :: '%' :: (τ.inside (ofInside u) ++ '%' :: '>' :: τ.line true post) := by
  rw [τ.line_hit h, tag_normal]
  simp only [List.cons_append, List.append_assoc, List.nil_append]

theorem line_char {c : Char} {rest : Text} (h : read? (c :: rest) = none) (normalize : Bool) :
    τ.line normalize (c :: rest) = c :: τ.line normalize rest := by
  rw [line, substitute_eq, show scanFrom finder none = scan finder from rfl, scan_char h]
  rfl

theorem head?_line (row : Text) : (τ.line true row).head? = row.head? := by
  induction row using tag_induct with
  | nil => rfl
  | tag u post hu _ => rw [τ.line_tag hu]; rfl
  | char c rest h _ => rw [τ.line_char h]; rfl

theorem line_ne_cons {c : Char} {row : Text} (h : ∀ r, row ≠ c :: r) : ∀ r, τ.line true row ≠ c :: r := by
  intro r hr
  have hhead := τ.head?_line row
  rw [hr] at hhead
  cases row with
  | nil => cases hhead
  | cons d rest => exact h rest (by rw [Option.some.inj hhead])

/-- A text without a closing delimiter has no tag, and stays. -/
theorem line_of_not_close : ∀ {row : Text}, ¬ ['%', '>'] <:+: row → τ.line true row = row
  | [], _ => rfl
  | c :: rest, h => by
    rw [τ.line_char (read?_of_not_close h)]
    rw [line_of_not_close (fun hi => h (hi.trans (List.suffix_cons c rest).isInfix))]

/-- A line that comes out without the end of a tag had no tag, and stays. -/
theorem line_of_not_mem {normalize : Bool} {row : Text} (h : '>' ∉ τ.line normalize row) : τ.line normalize row = row := by
  induction row using tag_induct with
  | nil => rfl
  | tag u post hu _ =>
    rw [τ.line_hit hu] at h
    refine absurd (List.mem_append_left _ ?_) h
    rw [Treatment.tag, delimit]
    split <;> simp
  | char c rest hc ih =>
    rw [τ.line_char hc] at h ⊢
    rw [ih (fun hm => h (List.mem_cons_of_mem c hm))]

/-! ## Reading the line again -/

/-- Code that may stand inside a tag may still stand there after it has been treated. -/
structure Inward : Prop where
  statement : ∀ t, Inner t → Inner (τ.statement t)
  expression : ∀ t, Inner t → Inner (τ.expression t)

variable {τ}

theorem Inward.code (hτ : τ.Inward) (kind : Kind) {t : Text} (h : Inner t) : Inner (τ.code kind t) := by
  cases kind with
  | comment => exact h
  | statement => exact hτ.statement t h
  | expression => exact hτ.expression t h
  | rawExpression => exact hτ.expression t h

theorem inner_append_mark {t : Text} (h : Inner t) {c : Char} (hc : c ≠ '>') (hn : c ≠ '\n') : Inner (t ++ [c]) := by
  refine ⟨fun hi => ?_, ?_⟩
  · rcases List.infix_concat_iff.1 hi with hs | hi
    · obtain ⟨pre, hpre⟩ := hs
      have hlast := congrArg List.getLast? hpre
      rw [List.getLast?_append, List.getLast?_append] at hlast
      exact hc (by simpa using hlast.symm)
    · exact h.1 hi
  · simpa using ⟨h.2, hn.symm⟩

theorem body_isInfix (u : Text) : (ofInside u).body <:+: u :=
  ⟨chomp (ofInside u).leftChomp ++ (ofInside u).kind.mark, chomp (ofInside u).rightChomp, inside_ofInside u⟩

theorem inner_body {u : Text} (h : Inner u) : Inner (ofInside u).body := h.of_isInfix (body_isInfix u)

theorem Inward.inside (hτ : τ.Inward) {u : Text} (h : Inner u) : Inner (τ.inside (ofInside u)) := by
  have hbody := inner_body h
  by_cases hk : (ofInside u).kind = .comment
  · rw [Treatment.inside]
    simp only [hk]
    cases (ofInside u).rightChomp with
    | false => simpa [chomp] using hbody
    | true => exact inner_append_mark hbody (by decide) (by decide)
  · rw [τ.inside_of_ne_comment hk]
    refine inner_append (marks_ne _ _) ?_
    have hcode := inner_cons (c := ' ') (by decide) (by decide) (hτ.code (ofInside u).kind hbody)
    split
    · exact inner_append_mark hcode (by decide) (by decide)
    · exact inner_append_mark hcode (by decide) (by decide)

/-- **A tag that is no comment is read again with its marks**, and its code between spaces. -/
theorem ofInside_inside {tag : Tag} (h : tag.kind ≠ .comment) :
    ofInside (τ.inside tag)
      = { tag with body := ' ' :: τ.code tag.kind tag.body ++ (if tag.rightChomp then [] else [' ']) } := by
  have hsplit : ∀ t : Text, splitChomp (t ++ ['-']) = (t, true) ∧ splitChomp (t ++ [' ']) = (t ++ [' '], false) := by
    intro t
    simp [splitChomp]
  obtain ⟨left, kind, body, right⟩ := tag
  rw [τ.inside_of_ne_comment h, ofInside]
  have hcode := hsplit (' ' :: τ.code kind body)
  have hmarks : ∀ t : Text, readChomp (chomp left ++ kind.mark ++ ' ' :: t) = (left, kind.mark ++ ' ' :: t) ∧
      Kind.read (kind.mark ++ ' ' :: t) = (kind, ' ' :: t) := by
    intro t
    cases left <;> cases kind <;> first | exact absurd rfl h | exact ⟨rfl, rfl⟩
  cases right with
  | true => simp only [List.cons_append, if_true, (hmarks _).1, (hmarks _).2, List.append_nil] at hcode ⊢; rw [hcode.1]
  | false =>
    simp only [List.cons_append, Bool.false_eq_true, if_false, (hmarks _).1, (hmarks _).2] at hcode ⊢
    rw [hcode.2]

/-- No tag comes to begin where none began. -/
theorem read?_line_none {c : Char} {rest : Text} (hn : '\n' ∉ c :: rest)
    (h : read? (c :: rest) = none) : read? (c :: τ.line true rest) = none := by
  by_cases hc : c = '<'
  · subst hc
    cases rest with
    | nil => rfl
    | cons d rest =>
      by_cases hd : d = '%'
      · subst hd
        have hclose : ¬ ['%', '>'] <:+: rest := not_close_of_read?_none (fun hm => hn (by simp [hm])) h
        rw [τ.line_char (read?_cons_of_ne (by decide) rest), τ.line_of_not_close hclose]
        exact h
      · have hhead := τ.head?_line (d :: rest)
        cases hl : τ.line true (d :: rest) with
        | nil => rw [hl] at hhead; cases hhead
        | cons e tail =>
          rw [hl] at hhead
          have he : e = d := by simpa using hhead
          cases hr : read? ('<' :: e :: tail) with
          | none => rfl
          | some tag =>
            obtain ⟨u, post, hs, -, -⟩ := read?_eq_some_iff.1 hr
            exact absurd ((List.cons.inj (List.cons.inj hs).2).1) (he ▸ hd)
  · exact read?_cons_of_ne hc _

/-- **The pieces of a line as written are its pieces as they are written.** -/
theorem scan_line (hτ : τ.Inward) (row : Text) (hn : '\n' ∉ row) :
    scan finder (τ.line true row) = (scan finder row).map τ.piece := by
  induction row using tag_induct with
  | nil => rfl
  | tag u post hu ih =>
    rw [τ.line_tag hu, Tag.scan_tag hu, Tag.scan_tag (hτ.inside hu), ih (fun hm => hn (by simp [hm])), List.map_cons,
      piece, tag_normal]
  | char c rest h ih =>
    rw [τ.line_char h, Tag.scan_char h, Tag.scan_char (read?_line_none hn h), ih (fun hm => hn (by simp [hm])),
      List.map_cons, piece]

/-- **The tags of a line as written**, one for each tag of the line. -/
theorem all_line (hτ : τ.Inward) (row : Text) (hn : '\n' ∉ row) :
    Tag.all (τ.line true row) = (Tag.all row).map (fun tag => ofInside (τ.inside tag)) := by
  rw [Tag.all, finds, scan_line hτ row hn, List.filterMap_map, Tag.all, finds, List.map_filterMap]
  congr 1
  funext p
  cases p <;> rfl

end Treatment
end EpFormat
