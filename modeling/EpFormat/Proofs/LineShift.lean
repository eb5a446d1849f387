import EpFormat.Proofs.Loss
import EpFormat.Proofs.Shift
/-!
# LineShift — the move of depth at a line with tags

A line whose tags are written keeps its first and its last characters, the marks of its tags and the ink of their
code.  So it moves the depth of Perl blocks as it did before (`shift_line`).
-/
namespace EpFormat

open Template Template.Tag

/-! ## Tags at the head of a line -/

theorem splitChomp_append_minus (t : Text) : splitChomp (t ++ ['-']) = (t, true) := by simp [splitChomp]

theorem splitChomp_of_ne {t : Text} (h : t.getLast? ≠ some '-') : splitChomp t = (t, false) := by
  unfold splitChomp
  split
  · rename_i rest hr
    refine absurd ?_ h
    rw [← List.reverse_reverse t, hr]
    simp
  · rfl

theorem trimLeft_append_close (v post : Text) :
    Text.trimLeft (v ++ '%' :: post) = Text.trimLeft v ++ '%' :: post := by
  cases hv : allBlank v with
  | true =>
    rw [Text.trimLeft_append_of_blank hv, Text.trimLeft_eq_nil_iff.2 hv, Text.trimLeft_cons_of_not_blank (by decide)]
    rfl
  | false => exact Text.trimLeft_append_right hv _

theorem readChomp_suffix (t : Text) : (readChomp t).2 <:+ t := ⟨_, chomp_readChomp t⟩

/-- Past white space and a chomp mark nothing is left of a text exactly if it is white space before its chomp mark. -/
theorem readChomp_trimLeft_isEmpty (v : Text) :
    (readChomp (Text.trimLeft v)).2.isEmpty = allBlank (splitChomp v).1 := by
  have hcons : ∀ {c : Char} {z : Text}, (c = '-' → z ≠ []) → (readChomp (c :: z)).2.isEmpty = false := by
    intro c z hz
    unfold readChomp
    split
    · rename_i heq
      obtain ⟨rfl, rfl⟩ := List.cons.inj heq
      simpa using hz rfl
    · rfl
  by_cases hlast : v.getLast? = some '-'
  · obtain ⟨w, rfl⟩ := List.getLast?_eq_some_iff.1 hlast
    rw [splitChomp_append_minus]
    cases hw : allBlank w with
    | true =>
      rw [Text.trimLeft_append_of_blank hw]
      rfl
    | false =>
      rw [Text.trimLeft_append_right hw]
      cases hz : Text.trimLeft w with
      | nil => rw [Text.trimLeft_eq_nil_iff.1 hz] at hw; cases hw
      | cons c z => exact hcons (fun _ => by simp)
  · rw [splitChomp_of_ne hlast]
    cases hv : Text.trimLeft v with
    | nil => rw [Text.trimLeft_eq_nil_iff.1 hv]; rfl
    | cons c z =>
      have hblank : allBlank v = false := by
        cases hb : allBlank v with
        | false => rfl
        | true => rw [Text.trimLeft_eq_nil_iff.2 hb] at hv; cases hv
      rw [hblank]
      refine hcons (fun hc hz => hlast ?_)
      obtain ⟨a, -, ha⟩ := Text.exists_trimLeft v
      rw [ha, hv, hc, hz]
      simp

/-- A tag closes after white space and a chomp mark at most. -/
theorem closesTag_inner {v : Text} (hv : Inner v) (post : Text) :
    closesTag (v ++ '%' :: '>' :: post) = (allBlank (splitChomp v).1 && allBlank post) := by
  have hy : Inner (readChomp (Text.trimLeft v)).2 :=
    hv.of_isInfix ((readChomp_suffix _).trans (List.dropWhile_suffix _)).isInfix
  unfold closesTag
  rw [show (v ++ '%' :: '>' :: post).dropWhile isBlank = Text.trimLeft (v ++ '%' :: '>' :: post) from rfl,
    trimLeft_append_close, readChomp_append_percent, ← readChomp_trimLeft_isEmpty]
  generalize (readChomp (Text.trimLeft v)).2 = y at hy
  simp only
  split
  · rename_i rest heq
    cases y with
    | nil =>
      obtain rfl := (List.cons.inj (List.cons.inj heq).2).2
      rfl
    | cons c y =>
      obtain ⟨rfl, htail⟩ := List.cons.inj heq
      cases y with
      | nil => cases htail
      | cons d y =>
        obtain ⟨rfl, -⟩ := List.cons.inj htail
        exact absurd ⟨[], y, rfl⟩ hy.1
  · rename_i hne
    cases y with
    | nil => exact absurd rfl (hne post)
    | cons c y => rfl

/-- What is read from a statement does not depend on the chomp mark after it. -/
theorem closesTag_read {read : Text → Option Text} (hread : Lead read) {v : Text} (hv : Inner v) (post : Text) :
    ((read (Text.trimLeft v)).map (· ++ '%' :: '>' :: post)).any closesTag
      = ((read (Text.trimLeft (splitChomp v).1)).any allBlank && allBlank post) := by
  have hleft : Text.trimLeft v <:+ v := List.dropWhile_suffix _
  by_cases hlast : v.getLast? = some '-'
  · obtain ⟨w, rfl⟩ := List.getLast?_eq_some_iff.1 hlast
    rw [splitChomp_append_minus]
    cases hw : allBlank w with
    -- with white space alone before the mark, the reader comes to the mark itself, and takes nothing
    | true =>
      have hminus : read (Text.trimLeft ['-']) = none := by
        rw [Text.trimLeft_cons_of_not_blank (by decide), ← List.nil_append ['-'], hread.append (Or.inr rfl), hread.nil]
        rfl
      rw [Text.trimLeft_append_of_blank hw, Text.trimLeft_eq_nil_iff.2 hw, hminus, hread.nil]
      rfl
    | false =>
      rw [Text.trimLeft_append_right hw] at hleft ⊢
      rw [hread.append (Or.inr rfl)]
      cases hz : read (Text.trimLeft w) with
      | none => rfl
      | some z =>
        have hin : Inner (z ++ ['-']) := by
          obtain ⟨pre, hpre⟩ := hread.suffix hz
          refine hv.of_isInfix (List.IsSuffix.isInfix (List.IsSuffix.trans ⟨pre, ?_⟩ hleft))
          rw [← List.append_assoc, hpre]
        have := closesTag_inner hin post
        rw [splitChomp_append_minus] at this
        simpa using this
  · rw [splitChomp_of_ne hlast]
    cases hz : read (Text.trimLeft v) with
    | none => rfl
    | some z =>
      have hsuffix : z <:+ v := (hread.suffix hz).trans hleft
      have hz' : z.getLast? ≠ some '-' := by
        intro hzl
        obtain ⟨pre, rfl⟩ := hsuffix
        rw [List.getLast?_append, hzl] at hlast
        exact hlast rfl
      have := closesTag_inner (hv.of_isInfix hsuffix.isInfix) post
      rw [splitChomp_of_ne hz'] at this
      simpa using this

/-- **A tag at the head of a line holds alone what its statement is**, if nothing follows it. -/
theorem isTagOf_tag {read : Text → Option Text} (hread : Lead read) {u : Text} (hu : Inner u) (post : Text) :
    isTagOf read ('<' :: '%' :: (u ++ '%' :: '>' :: post))
      = (decide ((ofInside u).kind = .statement) &&
        ((read (Text.trimLeft (ofInside u).body)).any allBlank && allBlank post)) := by
  have hv : Inner (readChomp u).2 := hu.of_isInfix (readChomp_suffix u).isInfix
  have hinside : insideTag? ('<' :: '%' :: (u ++ '%' :: '>' :: post))
      = some (Text.trimLeft (readChomp u).2 ++ '%' :: '>' :: post) := by
    rw [← trimLeft_append_close]
    show some (Text.trimLeft (readChomp (u ++ '%' :: '>' :: post)).2) = _
    rw [readChomp_append_percent]
  have htag : isTagOf read ('<' :: '%' :: (u ++ '%' :: '>' :: post))
      = ((read (Text.trimLeft (readChomp u).2)).map (· ++ '%' :: '>' :: post)).any closesTag := by
    rw [isTagOf, hinside]
    simp only
    rw [hread.append (Or.inl rfl)]
    cases read (Text.trimLeft (readChomp u).2) <;> rfl
  have hkind : (ofInside u).kind = (Kind.read (readChomp u).2).1 := rfl
  have hbody : (ofInside u).body = (splitChomp (Kind.read (readChomp u).2).2).1 := rfl
  have hmark := Kind.mark_read (readChomp u).2
  rw [htag, hkind, hbody]
  cases hk : (Kind.read (readChomp u).2).1 with
  | statement =>
    rw [hk] at hmark
    rw [show (Kind.read (readChomp u).2).2 = (readChomp u).2 from hmark, closesTag_read hread hv]
    rfl
  -- A mark stands where the statement would begin.
  | expression =>
    rw [← hmark, hk, Kind.mark, List.cons_append, Text.trimLeft_cons_of_not_blank (by decide), hread.mark (Or.inl rfl)]
    rfl
  | rawExpression =>
    rw [← hmark, hk, Kind.mark, List.cons_append, Text.trimLeft_cons_of_not_blank (by decide), hread.mark (Or.inl rfl)]
    rfl
  | comment =>
    rw [← hmark, hk, Kind.mark, List.cons_append, Text.trimLeft_cons_of_not_blank (by decide), hread.mark (Or.inr rfl)]
    rfl

/-! ## The ends of a line as it is written -/

theorem suffix_append_iff {w q t : Text} (h : w.length ≤ t.length) : w <:+ q ++ t ↔ w <:+ t :=
  ⟨fun hs => List.suffix_of_suffix_length_le hs (List.suffix_append q t) h, fun hs => hs.trans (List.suffix_append q t)⟩

namespace Treatment

variable {τ : Treatment}

/-- A line keeps its last two characters. -/
theorem suffix_line_iff {w : Text} (hw : w.length ≤ 2) (row : Text) :
    ∀ p : Text, w <:+ p ++ τ.line true row ↔ w <:+ p ++ row := by
  induction row using tag_induct with
  | nil => exact fun p => Iff.rfl
  | tag u post hu ih =>
    intro p
    have hclose : ∀ v t : Text, w <:+ p ++ '<' :: '%' :: (v ++ '%' :: '>' :: t) ↔ w <:+ ['%', '>'] ++ t := by
      intro v t
      rw [show p ++ '<' :: '%' :: (v ++ '%' :: '>' :: t) = (p ++ '<' :: '%' :: v) ++ (['%', '>'] ++ t) by simp]
      exact suffix_append_iff (by simp; omega)
    rw [τ.line_tag hu, hclose, hclose, ih]
  | char c rest hc ih =>
    intro p
    rw [τ.line_char hc, List.append_cons p c, List.append_cons p c rest, ih]

theorem getLast?_line (row : Text) : (τ.line true row).getLast? = row.getLast? := by
  have hlast : ∀ (t : Text) (c : Char), t.getLast? = some c ↔ [c] <:+ t := by
    intro t c
    rw [List.getLast?_eq_some_iff]
    exact ⟨fun ⟨s, hs⟩ => ⟨s, hs.symm⟩, fun ⟨s, hs⟩ => ⟨s, hs.symm⟩⟩
  refine Option.ext (fun c => ?_)
  rw [hlast, hlast]
  exact suffix_line_iff (by simp) row []

theorem allBlank_line (row : Text) : allBlank (τ.line true row) = allBlank row := by
  induction row using tag_induct with
  | nil => rfl
  | tag u post hu _ => rw [τ.line_tag hu]; rfl
  | char c rest hc ih => rw [τ.line_char hc, allBlank_cons, allBlank_cons, ih]

theorem line_append_blank {a b : Text} (ha : allBlank a = true) (hb : allBlank b = true) (t : Text) :
    τ.line true (a ++ (t ++ b)) = a ++ (τ.line true t ++ b) := by
  have hitems : ∀ s : Text, (s.map Piece.item).flatMap (Piece.put (τ.tag true)) = s := by
    intro s
    rw [List.flatMap_map]
    exact List.flatMap_singleton' s
  have hscan : ∀ s : Text, τ.line true s = (scan finder s).flatMap (Piece.put (τ.tag true)) := fun s => substitute_eq ..
  rw [hscan, hscan, scan_append_left (fun c hc => ne_of_isBlank (by decide) (allBlank_iff.1 ha c hc)),
    scan_append_right hb, List.flatMap_append, List.flatMap_append, hitems, hitems]

/-- **Trimming and writing the tags go past each other.** -/
theorem line_trim (row : Text) : Text.trim (τ.line true row) = τ.line true (Text.trim row) := by
  obtain ⟨a, b, ha, hb, hrow⟩ := Text.exists_trim row
  conv => lhs; rw [hrow, line_append_blank ha hb, Text.trim_append_of_blank ha, Text.trim_append_blank hb]
  have htrim := Text.trimmed_iff.1 (Text.trim_idem row)
  rw [Text.trimmed_iff, τ.head?_line, getLast?_line]
  exact htrim

/-- At its head a line has a tag; or it stays; or it has no opening delimiter, before and after. -/
theorem line_head (row : Text) (hn : '\n' ∉ row) :
    (∃ u post, Inner u ∧ row = '<' :: '%' :: (u ++ '%' :: '>' :: post)) ∨ τ.line true row = row ∨
      (∀ r, row ≠ '<' :: '%' :: r) ∧ ∀ r, τ.line true row ≠ '<' :: '%' :: r := by
  induction row using tag_induct with
  | nil => exact Or.inr (Or.inl rfl)
  | tag u post hu _ => exact Or.inl ⟨u, post, hu, rfl⟩
  | char c rest hc _ =>
    right
    by_cases hopen : ∃ r, c :: rest = '<' :: '%' :: r
    · obtain ⟨r, hr⟩ := hopen
      obtain ⟨rfl, rfl⟩ := List.cons.inj hr
      have hclose : ¬ ['%', '>'] <:+: r := not_close_of_read?_none (fun hm => hn (by simp [hm])) hc
      left
      -- An opening delimiter that opens no tag has no closing one after it, so that no tag follows either.
      rw [τ.line_char hc, τ.line_char (read?_cons_of_ne (by decide) r), τ.line_of_not_close hclose]
    · refine Or.inr ⟨fun r hr => hopen ⟨r, hr⟩, fun r hr => ?_⟩
      rw [τ.line_char hc] at hr
      obtain ⟨rfl, hrest⟩ := List.cons.inj hr
      have hhead := τ.head?_line rest
      rw [hrest] at hhead
      cases rest with
      | nil => cases hhead
      | cons d rest =>
        obtain rfl : '%' = d := by simpa using hhead
        exact hopen ⟨rest, rfl⟩

/-! ## Treatments that change the spacing alone -/

/-- The treatment changes nothing but the spacing of statements and expressions. -/
structure Respacing (τ : Treatment) : Prop where
  statement : ∀ t, Respaced t (τ.statement t)
  expression : ∀ t, Respaced t (τ.expression t)

theorem Respacing.code (hτ : τ.Respacing) (kind : Kind) (t : Text) : Respaced t (τ.code kind t) := by
  cases kind with
  | comment => exact Aligned.refl _
  | statement => exact hτ.statement t
  | expression => exact hτ.expression t
  | rawExpression => exact hτ.expression t

/-- The code of a tag, read again from the tag as it is written. -/
theorem Respacing.body (hτ : τ.Respacing) {tag : Tag} (hk : tag.kind ≠ .comment) :
    Respaced tag.body (ofInside (τ.inside tag)).body := by
  have hblank : allBlank (if tag.rightChomp then [] else [' ']) = true := by split <;> rfl
  have hspace : ∀ t b : Text, allBlank b = true → Respaced t (' ' :: t ++ b) := by
    intro t b hb
    rw [Respaced, List.cons_append, Text.trimLeft_cons_of_blank isBlank_space]
    exact (Aligned.append_blank hb t).trimLeft
  rw [ofInside_inside hk]
  exact (hτ.code tag.kind tag.body).trans (hspace _ _ hblank)

end Treatment

theorem Respaced.ink_eq {s t : Text} (h : Respaced s t) : ink s = ink t := by
  have := Aligned.ink_eq h
  rwa [ink_trimLeft, ink_trimLeft] at this

theorem Respaced.read_any {read : Text → Option Text} (hread : Lead read) {s t : Text} (h : Respaced s t) :
    (read (Text.trimLeft s)).any allBlank = (read (Text.trimLeft t)).any allBlank := by
  have himp : ∀ {s t : Text}, Respaced s t → (read (Text.trimLeft s)).any allBlank = true →
      (read (Text.trimLeft t)).any allBlank = true := by
    intro s t h hs
    cases hr : read (Text.trimLeft s) with
    | none => rw [hr] at hs; cases hs
    | some rest =>
      obtain ⟨rest', hrest', hal⟩ := hread.aligned h hr
      rw [hr] at hs
      rw [hrest']
      exact hal.allBlank_eq.symm.trans hs
  exact Bool.eq_iff_iff.2 ⟨himp h, himp h.symm⟩

theorem insideTag?_of_ne {t : Text} (h : ∀ r, Text.trimLeft t ≠ '<' :: '%' :: r) : insideTag? t = none := by
  unfold insideTag?
  split
  · rename_i r hr
    exact absurd hr (h r)
  · rfl

/-- Whether a tag begins like an expression is written in its marks. -/
theorem startsWith_equals (u post : Text) : Text.startsWith ['='] (u ++ '%' :: post)
    = decide ((ofInside u).leftChomp = false ∧ (ofInside u).kind ∈ [Kind.expression, Kind.rawExpression]) := by
  have hfirst : ∀ {c : Char} {w : Text}, c ≠ '=' → Text.startsWith ['='] (c :: w ++ '%' :: post) = false := by
    intro c w hc
    rw [← Bool.not_eq_true, Text.startsWith_iff]
    rintro ⟨r, hr⟩
    exact hc (List.cons.inj hr).1.symm
  have hother : ∀ {c : Char} {w : Text}, c ≠ '-' → ofInside (c :: w)
      = ⟨false, (Kind.read (c :: w)).1, (splitChomp (Kind.read (c :: w)).2).1, (splitChomp (Kind.read (c :: w)).2).2⟩ := by
    intro c w hc
    rw [ofInside, readChomp_of_ne (fun r hr => hc (List.cons.inj hr).1)]
  cases u with
  | nil => rfl
  | cons c w =>
    by_cases hminus : c = '-'
    · subst hminus
      rw [hfirst (by decide)]
      rfl
    · rw [hother hminus]
      by_cases hequals : c = '='
      · subst hequals
        by_cases hw : ∃ v, w = '=' :: v
        · obtain ⟨v, rfl⟩ := hw
          rfl
        · rw [Kind.read_equals (fun v hv => hw ⟨v, hv⟩)]
          rfl
      · rw [hfirst hequals]
        by_cases hnumber : c = '#'
        · subst hnumber
          rfl
        · rw [Kind.read_of_ne (fun v hv => hequals (List.cons.inj hv).1) (fun v hv => hnumber (List.cons.inj hv).1)]
          rfl

theorem Uncommented.kinds {row : Text} (h : Uncommented row) : ∀ tag ∈ Tag.all row, tag.kind ≠ .comment := by
  induction row using tag_induct with
  | nil => simp
  | tag u post hu ih =>
    intro tag htag
    rw [all_tag hu] at htag
    rcases List.mem_cons.1 htag with rfl | htag
    · exact h.kind_ne
    · exact ih h.after_tag tag htag
  | char c rest hc ih =>
    rw [all_char hc]
    exact ih (h.of_isInfix (List.suffix_cons c rest).isInfix)

section

variable {τ : Treatment} (hτ : τ.Respacing) (hin : τ.Inward) {row : Text} (hn : '\n' ∉ row)
  (hk : ∀ tag ∈ Tag.all row, tag.kind ≠ .comment)

include hτ hin hn hk

theorem isTagOf_line {read : Text → Option Text} (hread : Lead read) (ht : Text.trim row = row) :
    isTagOf read (τ.line true row) = isTagOf read row := by
  rcases τ.line_head row hn with ⟨u, post, hu, rfl⟩ | hrow | ⟨h, hline⟩
  · rw [all_tag hu] at hk
    have hu' := hk _ List.mem_cons_self
    have hkind : (ofInside (τ.inside (ofInside u))).kind = (ofInside u).kind := by rw [Treatment.ofInside_inside hu']
    rw [τ.line_tag hu, isTagOf_tag hread hu, isTagOf_tag hread (hin.inside hu), hkind,
      (hτ.body hu').read_any hread, Treatment.allBlank_line]
  · rw [hrow]
  · have hnone : ∀ {t : Text}, Text.trim t = t → (∀ r, t ≠ '<' :: '%' :: r) → isTagOf read t = false := by
      intro t htrim hopen
      rw [isTagOf, insideTag?_of_ne (by rwa [Text.trimLeft_of_trimmed htrim])]
    rw [hnone ht h, hnone (by rw [Treatment.line_trim, ht]) hline]

omit hτ hin in
theorem isStatementLine_line (ht : Text.trim row = row) : isStatementLine (τ.line true row) = isStatementLine row := by
  rw [isStatementLine, isStatementLine, Treatment.line_trim, ht]
  have hend : Text.endsWith ['%', '>'] (τ.line true row) = Text.endsWith ['%', '>'] row := by
    rw [Bool.eq_iff_iff, Text.endsWith_iff, Text.endsWith_iff]
    exact Treatment.suffix_line_iff (by simp) row []
  simp only [hend]
  rcases τ.line_head row hn with ⟨u, post, hu, rfl⟩ | hrow | ⟨h, hline⟩
  · rw [all_tag hu] at hk
    have hu' := hk _ List.mem_cons_self
    have hequals : ∀ t : Text, Text.startsWith ['<', '%', '='] ('<' :: '%' :: t) = Text.startsWith ['='] t := fun _ => rfl
    have htag : ∀ t : Text, Text.startsWith ['<', '%'] ('<' :: '%' :: t) = true := fun _ => rfl
    rw [τ.line_tag hu, htag, htag, hequals, hequals, startsWith_equals, startsWith_equals, Treatment.ofInside_inside hu']
  · rw [hrow]
  · have hnone : ∀ {t : Text}, (∀ r, t ≠ '<' :: '%' :: r) → Text.startsWith ['<', '%'] t = false := by
      intro t ht
      rw [← Bool.not_eq_true, Text.startsWith_iff]
      rintro ⟨r, rfl⟩
      exact ht r rfl
    rw [hnone h, hnone hline, Bool.false_and, Bool.false_and, Bool.false_and]

theorem balance_line : (Tag.all (τ.line true row)).map (fun tag => braceBalance tag.body)
    = (Tag.all row).map (fun tag => braceBalance tag.body) := by
  rw [Treatment.all_line hin row hn, List.map_map]
  refine List.map_congr_left (fun tag htag => ?_)
  exact (braceBalance_eq (hτ.body (hk tag htag)).ink_eq).symm

/-- **A line as it is written moves the depth as the line does.** -/
theorem shift_line (ht : Text.trim row = row) (hd : ∀ r, row ≠ '%' :: r) :
    Shift.ofLine (τ.line true row) = Shift.ofLine row := by
  have ht' : Text.trim (τ.line true row) = τ.line true row := by rw [Treatment.line_trim, ht]
  have hp : ∀ r, Text.trimLeft row ≠ '%' :: r := by rwa [Text.trimLeft_of_trimmed ht]
  have hp' : ∀ r, Text.trimLeft (τ.line true row) ≠ '%' :: r := by
    rw [Text.trimLeft_of_trimmed ht']
    exact τ.line_ne_cons hd
  have htags : isEndTag (τ.line true row) = isEndTag row ∧ isBraceTag (τ.line true row) = isBraceTag row := by
    rw [isEndTag_eq, isEndTag_eq, isBraceTag_eq, isBraceTag_eq, isTagOf_line hτ hin hn hk lead_end ht,
      isTagOf_line hτ hin hn hk lead_braces ht]
    exact ⟨rfl, rfl⟩
  have hbegin : hasBegin (τ.line true row) = hasBegin row := by
    rw [hasBegin_eq, hasBegin_eq, words_line (fun kind t => (hτ.code kind t).words_eq.symm)]
  simp only [Shift.ofLine, htags.1, htags.2, isEndDirective_of_ne hp, isEndDirective_of_ne hp', leadingBraces_of_ne hp,
    leadingBraces_of_ne hp', Directive.read?_of_ne hp, Directive.read?_of_ne hp', isStatementLine_line hn hk ht,
    balance_line hτ hin hn hk, hbegin]

end

end EpFormat
