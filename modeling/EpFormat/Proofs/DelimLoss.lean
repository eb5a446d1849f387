import Mathlib
import EpFormat.Proofs.Delims
import EpFormat.Proofs.Unblocked
/-!
# DelimLoss — the delimiters that formatting loses

A row that begins with `%>` is a directive, and is written with a space in the delimiter.  The second pass takes the
space away again where the row closes a block.  A template that has no such space to begin with gains no delimiter, and
`delims_format_iff` says when it loses none: `kept_row` is the step, a row at its place after an open block or not, and
`kept_rows` the run.
-/
namespace EpFormat

open Template Template.Tag Perl

/-! ## Spaced closing delimiters -/

/-- Whether white space and then `>` begin the text. -/
def gapClose (t : Text) : Bool := t.head?.any isBlank && (Text.trimLeft t).head? == some '>'

/-- White space, and what the marks of tags are made of. -/
def isLoose (c : Char) : Bool := isBlank c || c == '%' || c == '-' || c == '=' || c == '#'

/-- No closing delimiter is spaced: a percent sign at the beginning or after a loose character does not stand before
white space and `>`.  The first argument says whether the text begins so. -/
def Unspaced : Bool → Text → Prop
  | _, [] => True
  | loose, c :: t => (c = '%' → loose = true → gapClose t = false) ∧ Unspaced (isLoose c) t

instance decidableUnspaced : ∀ (loose : Bool) (t : Text), Decidable (Unspaced loose t)
  | _, [] => isTrue trivial
  | _, c :: t =>
    have := decidableUnspaced (isLoose c) t
    inferInstanceAs (Decidable ((_ → _ → _) ∧ _))

/-- Whether what comes after the text begins it or comes after a loose character. -/
def endsLoose (loose : Bool) (t : Text) : Bool := t.foldl (fun _ c => isLoose c) loose

theorem endsLoose_gap {a : Text} (h : allBlank a = true) (hne : a ≠ []) (loose : Bool) : endsLoose loose a = true := by
  rcases List.eq_nil_or_concat a with rfl | ⟨b, c, rfl⟩
  · exact absurd rfl hne
  · have hc := allBlank_iff.1 h c (by simp)
    rw [endsLoose, List.concat_eq_append, List.foldl_append]
    simp [isLoose, hc]

theorem endsLoose_blank {a : Text} (h : allBlank a = true) : endsLoose true a = true := by
  by_cases hne : a = []
  · rw [hne]
    rfl
  · exact endsLoose_gap h hne true

theorem gapClose_iff {t : Text} :
    gapClose t = true ↔ t.head?.any isBlank = true ∧ (Text.trimLeft t).head? = some '>' := by
  rw [gapClose, Bool.and_eq_true, beq_iff_eq]

theorem allBlank_of_gapClose {t : Text} (h : gapClose t = true) : allBlank t = false := by
  cases hb : allBlank t with
  | false => rfl
  | true =>
    have hclose := (gapClose_iff.1 h).2
    rw [Text.trimLeft_eq_nil_iff.2 hb] at hclose
    cases hclose

theorem gapClose_append {s : Text} (h : gapClose s = true) (t : Text) : gapClose (s ++ t) = true := by
  have hink := allBlank_of_gapClose h
  obtain ⟨hgap, hclose⟩ := gapClose_iff.1 h
  cases s with
  | nil => cases hgap
  | cons c s =>
    refine gapClose_iff.2 ⟨hgap, ?_⟩
    rw [Text.trimLeft_append_right hink, List.head?_append, hclose]
    rfl

theorem gapClose_append_of_ne {t : Text} (ht : (Text.trimLeft t).head? ≠ some '>') {s : Text}
    (hs : gapClose s = false) : gapClose (s ++ t) = false := by
  cases hg : gapClose (s ++ t) with
  | false => rfl
  | true =>
    obtain ⟨hgap, hclose⟩ := gapClose_iff.1 hg
    cases hb : allBlank s with
    | true => rw [Text.trimLeft_append_of_blank hb] at hclose; exact absurd hclose ht
    | false =>
      obtain ⟨c, s, rfl⟩ := List.exists_cons_of_ne_nil (show s ≠ [] by rintro rfl; cases hb)
      have hink : Text.trimLeft (c :: s) ≠ [] := fun hn => by rw [Text.trimLeft_eq_nil_iff.1 hn] at hb; cases hb
      rw [Text.trimLeft_append_right hb, List.head?_append_of_ne_nil _ hink] at hclose
      have hsome : gapClose (c :: s) = true := gapClose_iff.2 ⟨hgap, hclose⟩
      rw [hsome] at hs
      cases hs

theorem Aligned.gapClose {s t : Text} (h : Aligned s t) (ht : EpFormat.gapClose t = true) : EpFormat.gapClose s = true := by
  have hink := allBlank_of_gapClose ht
  obtain ⟨hgap, hclose⟩ := gapClose_iff.1 ht
  cases t with
  | nil => cases hgap
  | cons d t =>
    obtain ⟨e, r, rfl, he⟩ := h.symm.blank_inv hgap hink
    exact gapClose_iff.2 ⟨he, Respaced.head?_trimLeft h.symm.trimLeft hclose⟩

namespace Unspaced

variable {loose : Bool} {s t : Text}

theorem append_inv : ∀ {s : Text} {loose : Bool}, Unspaced loose (s ++ t) →
    Unspaced loose s ∧ Unspaced (endsLoose loose s) t
  | [], _, h => ⟨trivial, h⟩
  | c :: s, loose, ⟨hc, h⟩ => by
    obtain ⟨hs, ht⟩ := append_inv h
    refine ⟨⟨fun he ha => ?_, hs⟩, ht⟩
    have hgap : gapClose (s ++ t) = false := hc he ha
    cases hg : gapClose s with
    | false => rfl
    | true => rw [gapClose_append hg] at hgap; cases hgap

theorem append (hs : Unspaced loose s) (ht : Unspaced (endsLoose loose s) t) (hne : (Text.trimLeft t).head? ≠ some '>') :
    Unspaced loose (s ++ t) := by
  induction s generalizing loose with
  | nil => exact ht
  | cons c s ih => exact ⟨fun he ha => gapClose_append_of_ne hne (hs.1 he ha), ih hs.2 ht⟩

theorem append_of_not_percent (ht : Unspaced (endsLoose loose s) t) (hs : '%' ∉ s) : Unspaced loose (s ++ t) := by
  induction s generalizing loose with
  | nil => exact ht
  | cons c s ih =>
    exact ⟨fun he => absurd he (fun he => hs (he ▸ List.mem_cons_self)), ih ht (fun hm => hs (List.mem_cons_of_mem c hm))⟩

theorem percent_not_mem_blank {a : Text} (ha : allBlank a = true) : '%' ∉ a := fun hm =>
  absurd (allBlank_iff.1 ha _ hm) (by decide)

theorem of_blank {a : Text} (h : allBlank a = true) : Unspaced loose a := by
  rw [← List.append_nil a]
  exact append_of_not_percent trivial (percent_not_mem_blank h)

theorem blank_append {a : Text} (ha : allBlank a = true) (h : Unspaced true t) : Unspaced true (a ++ t) :=
  append_of_not_percent (by rwa [endsLoose_blank ha]) (percent_not_mem_blank ha)

theorem trimLeft (h : Unspaced true t) : Unspaced true (Text.trimLeft t) := by
  obtain ⟨a, ha, ht⟩ := Text.exists_trimLeft t
  rw [ht] at h
  have := h.append_inv.2
  rwa [endsLoose_blank ha] at this

theorem of_isPrefix (h : Unspaced loose t) (hp : s <+: t) : Unspaced loose s := by
  obtain ⟨r, rfl⟩ := hp
  exact h.append_inv.1

theorem lines (h : Unspaced true t) : ∀ l ∈ Text.lines t, Unspaced true l := by
  have hbreak : ∀ {c : Char} {s : Text}, isLineBreak c = true → ∀ a, endsLoose a (s ++ [c]) = true := by
    intro c s hc a
    rw [endsLoose, List.foldl_append]
    simp [isLoose, isBlank_of_isLineBreak hc]
  induction t using Text.lines_induct with
  | nil => intro l hl; cases hl
  | last l hl hne =>
    rw [Text.lines_unbroken hl hne]
    intro k hk
    rwa [List.mem_singleton.1 hk]
  | single l c rest hl hc hp ih =>
    rw [Text.lines_break hl hc hp]
    have hcut : l ++ c :: rest = (l ++ [c]) ++ rest := by simp
    rw [hcut] at h
    obtain ⟨hfirst, hrest⟩ := h.append_inv
    rw [hbreak hc] at hrest
    exact List.forall_mem_cons.2 ⟨hfirst.append_inv.1, ih hrest⟩
  | pair l rest hl ih =>
    rw [Text.lines_pair hl]
    have hcut : l ++ '\r' :: '\n' :: rest = (l ++ ['\r'] ++ ['\n']) ++ rest := by simp
    rw [hcut] at h
    obtain ⟨hfirst, hrest⟩ := h.append_inv
    rw [hbreak (by decide)] at hrest
    exact List.forall_mem_cons.2 ⟨hfirst.append_inv.1.append_inv.1, ih hrest⟩

/-- A closing line that is not spaced has its delimiter. -/
theorem delims_closing (h : Unspaced true t) (hc : (readClosing? t).isSome = true) : delims t = [.closing] := by
  obtain ⟨right, hright⟩ := Option.isSome_iff_exists.1 hc
  obtain ⟨a, spaced, b, ha, hb, rfl⟩ := exists_closingText hright
  rw [delims_apart_append (isApart_of_allBlank ha), delims_append_apart (isApart_of_allBlank hb)]
  have hclose := h.append_inv.2
  rw [endsLoose_blank ha] at hclose
  have hspaced : ∀ right, ¬ Unspaced true (closingText right true) := by decide
  cases spaced with
  | false => cases right <;> rfl
  | true => exact absurd hclose.append_inv.1 (hspaced right)

/-- Nothing is to be mended in a row without spaced closing delimiters. -/
theorem mended_lines (h : Unspaced true t) (pending : Bool) : mended pending (Text.lines (t ++ ['\n'])) = delims t := by
  have hline : Unspaced true (t ++ ['\n']) := h.append (of_blank rfl) (by decide)
  rw [mended_of_closing (fun l hl => (hline.lines l hl).delims_closing), flatMap_delims_lines,
    delims_append_apart (Text.forall_mem_of_all (by decide))]

theorem aligned {loose : Bool} (hs : Unspaced loose s) (h : Aligned s t) : Unspaced loose t := by
  induction h generalizing loose with
  | blank _ ht => exact of_blank ht
  | char c h ih =>
    refine ⟨fun he ha => ?_, ih hs.2⟩
    have hno := hs.1 he ha
    cases hg : gapClose _ with
    | false => rfl
    | true => rw [h.gapClose hg] at hno; cases hno
  | @gap g k s t hg hk hbg hbk h ih =>
    have hrest := hs.append_inv.2
    rw [endsLoose_gap hbg hg] at hrest
    exact append_of_not_percent (by rw [endsLoose_gap hbk hk]; exact ih hrest) (percent_not_mem_blank hbk)

theorem respaced (hr : Respaced s t) (h : Unspaced true s) : Unspaced true t := by
  obtain ⟨a, ha, ht⟩ := Text.exists_trimLeft t
  rw [ht]
  exact blank_append ha (h.trimLeft.aligned hr)

end Unspaced

/-! ## Tags -/

theorem delims_tag (v post : Text) : delims ('<' :: '%' :: (v ++ '%' :: '>' :: post))
    = [.opening] ++ (if v.head? = some '>' then [.closing] else []) ++ delims v
      ++ (if v.getLast? = some '<' then [.opening] else []) ++ [.closing] ++ delims post := by
  have hlast : v.getLast?.elim [] (delimAt · (some '%')) = if v.getLast? = some '<' then [.opening] else [] := by
    cases v.getLast? with
    | none => rfl
    | some c => simp [delimAt]
  have hfirst : delimAt '%' (v ++ '%' :: '>' :: post).head? = if v.head? = some '>' then [.closing] else [] := by
    cases v with
    | nil => rfl
    | cons c v => simp [delimAt]
  have hend : delims ('%' :: '>' :: post) = .closing :: delims post := by simp [delims, delimAt]
  rw [delims, delims, hfirst, delims_append, hend]
  simp only [List.head?_cons, hlast]
  simp [delimAt]

/-- A tag in which the delimiters overlap begins with `<%>` or ends so. -/
theorem overlap_iff {u : Text} (h : Inner u) : txt "<%>" <:+: '<' :: '%' :: (u ++ ['%', '>']) ↔
    u.head? = some '>' ∨ u.getLast? = some '<' := by
  constructor
  · rintro ⟨pre, post, heq⟩
    rcases pre with _ | ⟨x, _ | ⟨y, pre⟩⟩
    · left
      have : '>' :: post = u ++ ['%', '>'] := by simpa [txt] using heq
      cases u with
      | nil => cases this
      | cons c u => rw [(List.cons.inj this).1]; rfl
    · simp [txt] at heq
    · right
      have hcut : (pre ++ ['<']) ++ '%' :: '>' :: post = u ++ ['%', '>'] := by
        simp only [txt, List.cons_append, List.cons.injEq] at heq
        simpa using heq.2.2
      -- The closing delimiter after `<` is the one that ends the tag, since the inside has none.
      rcases List.append_eq_append_iff.1 hcut with ⟨v, hu, hpost⟩ | ⟨v, hpre, hend⟩
      · rcases v with _ | ⟨z, _ | ⟨z', v⟩⟩
        · simp [hu]
        · have := (List.cons.inj (List.cons.inj hpost).2).1
          cases this
        · obtain ⟨hz, hpost⟩ := List.cons.inj hpost
          rw [← hz, ← (List.cons.inj hpost).1] at hu
          exact absurd ⟨pre ++ ['<'], v, by simp [hu]⟩ h.1
      · cases v with
        | nil => rw [List.append_nil] at hpre; simp [← hpre]
        | cons z v =>
          have hlength := congrArg List.length hend
          simp only [List.length_append, List.length_cons, List.length_nil] at hlength
          omega
  · rintro (hhead | hlast)
    · obtain ⟨v, rfl⟩ := List.head?_eq_some_iff.1 hhead
      exact ⟨[], v ++ ['%', '>'], rfl⟩
    · obtain ⟨v, rfl⟩ := List.getLast?_eq_some_iff.1 hlast
      exact ⟨'<' :: '%' :: v, [], by simp [txt]⟩

theorem isApart_mark (kind : Kind) : ∀ c ∈ kind.mark, isApart c = true := by
  cases kind <;> exact Text.forall_mem_of_all (by decide)

theorem isApart_marks (tag : Tag) : ∀ c ∈ chomp tag.leftChomp ++ tag.kind.mark, isApart c = true :=
  List.forall_mem_append.2 ⟨isApart_chomp tag.leftChomp, isApart_mark tag.kind⟩

theorem delims_inside (tag : Tag) : delims tag.inside = delims tag.body := by
  rw [Tag.inside, delims_append_apart (isApart_chomp _), delims_apart_append (isApart_marks tag)]

namespace Treatment

variable {τ : Treatment}

theorem delims_inside (hτ : τ.Respacing) {tag : Tag} (hk : tag.kind ≠ .comment) :
    delims (τ.inside tag) = delims tag.body ∧ (τ.inside tag).head? ≠ some '>' ∧ (τ.inside tag).getLast? ≠ some '<' := by
  rw [inside_of_ne_comment τ hk]
  refine ⟨?_, ?_, ?_⟩
  · have hend : ∀ c ∈ (if tag.rightChomp then ['-'] else [' ']), isApart c = true := by
      split <;> exact Text.forall_mem_of_all (by decide)
    rw [delims_apart_append (isApart_marks tag), delims_append_apart hend, delims_cons_apart (by decide),
      ← (hτ.code tag.kind tag.body).delims_eq]
  · cases tag.leftChomp <;> cases tag.kind <;> simp [chomp, Kind.mark]
  · rw [← List.append_assoc]
    split <;> rw [List.getLast?_append_of_ne_nil _ (by simp)] <;> decide

/-- **A line keeps its delimiters exactly if in none of its tags they overlap.** -/
theorem kept_line (hτ : τ.Respacing) {row : Text} (hu : Uncommented row) :
    Kept (delims (τ.line true row)) (delims row) (∀ tag ∈ Tag.all row, ¬ txt "<%>" <:+: tag.source) := by
  induction row using tag_induct with
  | nil => exact (Kept.of_eq rfl).congr rfl rfl (by simp [Tag.all_nil])
  | tag u post hinner ih =>
    obtain ⟨hdelims, hhead, hlast⟩ := delims_inside hτ hu.kind_ne
    have hsome : ∀ (q : Prop) [Decidable q] (d : Delim), Kept [] (if q then [d] else []) (¬ q) := fun q _ d =>
      ⟨List.nil_sublist _, by by_cases hq : q <;> simp [hq]⟩
    have hsource : delims (ofInside u).body = delims u := by rw [← EpFormat.delims_inside, inside_ofInside]
    have h := (((((Kept.of_eq (Eq.refl [Delim.opening])).append (hsome (u.head? = some '>') .closing)).append
      (Kept.of_eq hsource)).append (hsome (u.getLast? = some '<') .opening)).append
        (Kept.of_eq (Eq.refl [Delim.closing]))).append (ih hu.after_tag)
    refine h.congr ?_ (delims_tag u post) ?_
    · rw [τ.line_tag hinner, delims_tag, hdelims, if_neg hhead, if_neg hlast]
    · rw [Tag.all_tag hinner, List.forall_mem_cons, source_eq, inside_ofInside, overlap_iff hinner]
      tauto
  | char c rest hc ih =>
    have h := (Kept.of_eq (Eq.refl (delimAt c rest.head?))).append (ih (hu.of_isInfix (List.suffix_cons c rest).isInfix))
    rw [τ.line_char hc, Tag.all_char hc]
    refine h.congr ?_ rfl (by simp)
    rw [delims, head?_line]

theorem unspaced_inside (hτ : τ.Respacing) {tag : Tag} (hk : tag.kind ≠ .comment) (h : Unspaced true tag.inside) :
    Unspaced true (τ.inside tag) := by
  have hmarks : endsLoose true (chomp tag.leftChomp ++ tag.kind.mark) = true ∧
      '%' ∉ chomp tag.leftChomp ++ tag.kind.mark := by
    cases tag.leftChomp <;> cases tag.kind <;> decide
  have hbody := h.append_inv.1.append_inv.2
  rw [hmarks.1] at hbody
  have hcode : Unspaced true (' ' :: τ.code tag.kind tag.body) :=
    (hbody.respaced (hτ.code tag.kind tag.body)).blank_append (a := [' ']) rfl
  rw [inside_of_ne_comment τ hk]
  refine Unspaced.append_of_not_percent ?_ hmarks.2
  rw [hmarks.1]
  split
  · exact hcode.append ⟨fun he => absurd he (by decide), trivial⟩ (by decide)
  · exact hcode.append ⟨fun he => absurd he (by decide), trivial⟩ (by decide)

theorem gapClose_line (row : Text) : gapClose (τ.line true row) = gapClose row := by
  obtain ⟨a, ha, hrow⟩ := Text.exists_trimLeft row
  have hline : τ.line true row = a ++ τ.line true (Text.trimLeft row) := by
    have := τ.line_append_blank ha allBlank_nil (Text.trimLeft row)
    simpa [← hrow] using this
  have htrim : (Text.trimLeft (τ.line true row)).head? = (Text.trimLeft row).head? := by
    rw [hline, Text.trimLeft_append_of_blank ha, ← τ.head?_line (Text.trimLeft row)]
    cases hc : τ.line true (Text.trimLeft row) with
    | nil => rfl
    | cons c r =>
      have hhead := τ.head?_line (Text.trimLeft row)
      rw [hc] at hhead
      obtain ⟨v, hv⟩ := List.head?_eq_some_iff.1 hhead.symm
      rw [Text.trimLeft_cons_of_not_blank (Text.isBlank_of_trimLeft hv)]
  rw [gapClose, gapClose, htrim, head?_line]

/-- Writing a line spaces no closing delimiter but those that overlap the opening one. -/
theorem unspaced_line (hτ : τ.Respacing) {row : Text} (hu : Uncommented row) {loose : Bool} (h : Unspaced loose row) :
    Unspaced loose (τ.line true row) := by
  induction row using tag_induct generalizing loose with
  | nil => trivial
  | tag u post hinner ih =>
    obtain ⟨hinside, hrest⟩ := Unspaced.append_inv h.2.2
    have hw : Unspaced true (τ.inside (ofInside u)) :=
      unspaced_inside hτ hu.kind_ne (by rw [inside_ofInside]; exact hinside)
    have hpost : Unspaced false (τ.line true post) := ih hu.after_tag hrest.2.2
    rw [τ.line_tag hinner]
    refine ⟨fun he => absurd he (by decide), fun _ ha => absurd ha (by decide), ?_⟩
    refine hw.append ⟨fun _ _ => rfl, fun he => absurd he (by decide), hpost⟩ ?_
    rw [Text.trimLeft_cons_of_not_blank (by decide)]
    simp
  | char c rest hc ih =>
    rw [τ.line_char hc]
    refine ⟨fun he ha => ?_, ih (hu.of_isInfix (List.suffix_cons c rest).isInfix) h.2⟩
    rw [gapClose_line]
    exact h.1 he ha

end Treatment

/-! ## Directives -/

namespace Treatment

variable {τ : Treatment} {r : Text}

/-- A directive keeps its delimiters, unless it is a closing one itself. -/
theorem delims_directive (hτ : τ.Settling) (hne : r.head? ≠ some '>') :
    delims ('%' :: ((Kind.read r).1.mark ++ Directive.afterSpace (τ.written (Kind.read r).1 (Kind.read r).2)))
      = delims ('%' :: r) := by
  have hread := Kind.mark_read r
  generalize Kind.read r = k at hread
  obtain ⟨kind, body⟩ := k
  have hfirst : delimAt '%' (kind.mark ++ Directive.afterSpace (τ.written kind body)).head? = [] := by
    cases τ.written kind body <;> cases kind <;> rfl
  have hsource : delimAt '%' r.head? = [] := by simp [delimAt, hne]
  have hres := ((hτ.written kind).respaced body).trans (Directive.respaced_afterSpace _)
  rw [delims, delims, hfirst, hsource, ← hread, delims_apart_append (isApart_mark kind),
    delims_apart_append (isApart_mark kind), hres.delims_eq]

theorem unspaced_directive (hτ : τ.Settling) (hne : r.head? ≠ some '>') (h : Unspaced true ('%' :: r)) :
    Unspaced true
      ('%' :: ((Kind.read r).1.mark ++ Directive.afterSpace (τ.written (Kind.read r).1 (Kind.read r).2))) := by
  have hread := Kind.mark_read r
  generalize Kind.read r = k at hread
  obtain ⟨kind, body⟩ := k
  have hmark : endsLoose true kind.mark = true ∧ '%' ∉ kind.mark := by cases kind <;> decide
  have hres := ((hτ.written kind).respaced body).trans (Directive.respaced_afterSpace _)
  obtain ⟨hgap, hrest⟩ := h
  have hbody : Unspaced true body := by
    rw [← hread] at hrest
    have := Unspaced.append_inv hrest
    rw [show isLoose '%' = true from rfl, hmark.1] at this
    exact this.2
  refine ⟨fun _ _ => ?_, Unspaced.append_of_not_percent ?_ hmark.2⟩
  · cases kind with
    | statement =>
      -- What is written begins with `>` only if the directive does, and there nothing comes before it.
      have hr : body = r := hread
      cases hg : gapClose (Directive.afterSpace (τ.written .statement body)) with
      | false => exact hg
      | true =>
        have hclose := hres.symm.head?_trimLeft (gapClose_iff.1 hg).2
        have hsource := hgap rfl rfl
        rw [hr] at hclose
        cases r with
        | nil => cases hclose
        | cons c r =>
          cases hc : isBlank c with
          | true => simp [gapClose, hc, hclose] at hsource
          | false => rw [Text.trimLeft_cons_of_not_blank hc] at hclose; exact absurd hclose hne
    | expression => rfl
    | rawExpression => rfl
    | comment => rfl
  · rw [show isLoose '%' = true from rfl, hmark.1]
    exact hbody.respaced hres

end Treatment

/-! ## Rows -/

/-- The row has what keeps its delimiters: a closing delimiter that begins it is all of it and closes a block, and the
delimiters of its tags, if it is no directive, do not overlap. -/
def KeepsDelims (pending : Bool) (row : Text) : Prop :=
  (txt "%>" <+: Text.trimLeft row → allBlank ((Text.trimLeft row).drop 2) = true ∧ pending = true) ∧
    (Directive.read? row = none → ∀ tag ∈ Tag.all row, ¬ txt "<%>" <:+: tag.source)

instance (pending : Bool) (row : Text) : Decidable (KeepsDelims pending row) := inferInstanceAs (Decidable (_ ∧ _))

/-- A row that is put at its level keeps its delimiters where no closing one is spaced. -/
theorem mended_level {cfg : Config} {t : Text} (h : Unspaced true t) (level : Nat) (pending : Bool) :
    mended pending (Text.lines (Text.dropTrailingPad (cfg.indentation level ++ Text.trimLeft t) ++ ['\n'])) = delims t := by
  have hblank := allBlank_indentation cfg level
  have hpad : ∀ r : Text, Text.dropTrailingPad r <+: r := fun r => by
    rw [Text.dropTrailingPad, Text.dropEndWhile, ← List.reverse_suffix, List.reverse_reverse]
    exact List.dropWhile_suffix _
  rw [((h.trimLeft.blank_append hblank).of_isPrefix (hpad _)).mended_lines, delims_dropTrailingPad,
    delims_apart_append (isApart_of_allBlank hblank), delims_trimLeft]

namespace Treatment

variable {cfg : Config}

theorem isLineBreak_absent_statement (hk : cfg.keywordSpacing = false) (t : Text) :
    ∀ c ∈ (absent cfg).statement t, isLineBreak c = false := by
  intro c hc
  rw [absent_statement, hk] at hc
  rcases mem_onOneLine hc with ⟨-, hb⟩ | rfl
  · exact hb
  · rfl

section

variable (hk : cfg.keywordSpacing = false) (hd : cfg.normalizeDelimiters = true) {place : Place} (hr : place.raw = none)
  {row tail : Text} (hrow : Text.trimLeft row = '%' :: '>' :: tail) (hn : '\n' ∉ row)

include hk hd hr hrow hn

/-- A row that begins with a closing delimiter is written on one line, with a space in the delimiter. -/
theorem row_closing : ∃ s, Aligned tail s ∧ (∀ c ∈ s, isLineBreak c = false) ∧
    (absent cfg).row cfg place row = cfg.indentation (place.step row).1 ++ '%' :: ' ' :: '>' :: s := by
  have hτ := (settling_absent hk).statement
  have hres := hτ.respaced ('>' :: tail)
  rw [Respaced, Text.trimLeft_cons_of_not_blank (by decide), Text.trimLeft_of_trimmed (hτ.trimmed _)] at hres
  obtain ⟨s, hs, hal⟩ := hres.cons_inv (by decide)
  have hunbroken := isLineBreak_absent_statement hk ('>' :: tail)
  have htrimmed := @Directive.trim_written .statement _ (hτ.trimmed ('>' :: tail))
  have hcontent : (absent cfg).content true row = '%' :: Directive.afterSpace ((absent cfg).statement ('>' :: tail)) :=
    content_percent hrow hn
  rw [hs] at hunbroken htrimmed hcontent
  refine ⟨s, hal, fun c hc => hunbroken c (List.mem_cons_of_mem _ hc), ?_⟩
  rw [row_eq hr, hd, hcontent, Text.trimLeft_cons_of_not_blank (by decide),
    dropTrailingPad_append ⟨'%', List.mem_cons_self, by decide⟩]
  exact congrArg _ (dropTrailingPad_of_trimmed htrimmed)

/-- A row that begins with a closing delimiter loses it, unless it closes a block by it alone. -/
theorem kept_closing (pending : Bool) :
    Kept (mended pending (Text.lines ((absent cfg).row cfg place row ++ ['\n']))) (delims row)
      (allBlank tail = true ∧ pending = true) := by
  obtain ⟨s, hal, hs, hwritten⟩ := row_closing hk hd hr hrow hn
  have hline : Text.lines ((absent cfg).row cfg place row ++ ['\n']) = [(absent cfg).row cfg place row] := by
    refine Text.lines_break (fun c hc => ?_) (by decide) (fun _ h => absurd h (by decide))
    rw [hwritten] at hc
    simp only [List.mem_append, List.mem_cons] at hc
    rcases hc with hc | rfl | rfl | rfl | hc
    · rw [List.eq_of_mem_replicate hc]
      rfl
    · rfl
    · rfl
    · rfl
    · exact hs c hc
  have hclosing : (readClosing? ((absent cfg).row cfg place row)).isSome = allBlank tail := by
    rw [hwritten, readClosing?, List.dropWhile_append_of_pos (isPad_indentation cfg _), hal.allBlank_eq]
    cases hb : allBlank s <;> simp [isPad, readChomp, hb]
  have hdelims : delims ((absent cfg).row cfg place row) = delims tail := by
    rw [hwritten, delims_apart_append (isApart_of_allBlank (allBlank_indentation cfg _)), hal.delims_eq]
    simp [delims, delimAt]
  have hsource : delims row = .closing :: delims tail := by
    rw [← delims_trimLeft, hrow]
    simp [delims, delimAt]
  rw [hline, mended, hclosing, hdelims, hsource, mended, List.append_nil]
  by_cases hclose : allBlank tail = true ∧ pending = true
  · obtain ⟨hb, rfl⟩ := hclose
    exact (Kept.of_eq (by rw [delims_allBlank hb, hb]; rfl)).congr rfl rfl (by simp [hb])
  · rw [if_neg (by rwa [Bool.and_eq_true, and_comm])]
    exact ⟨List.sublist_cons_self _ _, by simp [hclose]⟩

end

/-- **A row loses delimiters exactly if it has not what keeps them**, and gains none; what a row inside a raw element
has, it keeps. -/
theorem kept_row (hk : cfg.keywordSpacing = false) (hd : cfg.normalizeDelimiters = true) (place : Place) {row : Text}
    (hn : '\n' ∉ row) (hu : Uncommented row) (hs : Unspaced true row) (pending : Bool) :
    Kept (mended pending (Text.lines ((absent cfg).row cfg place row ++ ['\n']))) (delims row)
      (place.raw = none → KeepsDelims pending row) := by
  have hτ := settling_absent hk
  cases hr : place.raw with
  | some name =>
    refine (Kept.of_eq ?_).congr rfl rfl (by simp)
    rw [Treatment.row, hr]
    split
    · exact hs.mended_lines pending
    · exact mended_level hs _ pending
  | none =>
    by_cases hp : ∃ r, Text.trimLeft row = '%' :: r
    · obtain ⟨r, hrow⟩ := hp
      have hread := Directive.read?_percent hrow hn
      -- a closing delimiter at the head of a row is read as a directive
      by_cases hclose : r.head? = some '>'
      · obtain ⟨tail, rfl⟩ := List.head?_eq_some_iff.1 hclose
        exact (kept_closing hk hd hr hrow hn pending).congr rfl rfl (by simp [KeepsDelims, hread, hrow, txt])
      · have hkeeps : KeepsDelims pending row := by
          refine ⟨fun hstart => absurd ?_ hclose, fun hnone => by rw [hread] at hnone; cases hnone⟩
          obtain ⟨tail, htail⟩ := hstart
          rw [hrow] at htail
          rw [← (List.cons.inj htail).2]
          rfl
        have hline : Unspaced true ('%' :: r) := hrow ▸ hs.trimLeft
        refine (Kept.of_eq ?_).congr rfl rfl (by simp [hkeeps])
        rw [row_eq hr, hd, content_percent hrow hn, mended_level (unspaced_directive hτ hclose hline),
          delims_directive hτ hclose, ← hrow, delims_trimLeft]
    · have hp' : ∀ r, Text.trimLeft row ≠ '%' :: r := fun r hr => hp ⟨r, hr⟩
      have hstart : ¬ txt "%>" <+: Text.trimLeft row := by
        rintro ⟨tail, htail⟩
        exact hp' _ htail.symm
      refine (kept_line hτ.respacing hu).congr ?_ rfl (by simp [KeepsDelims, hstart, Directive.read?_of_ne hp'])
      rw [row_eq hr, hd, content_of_ne hp', mended_level (unspaced_line hτ.respacing hu hs)]

/-- **Rows lose delimiters exactly if one of them does**, at the place where it stands and with the block, if there is one,
that the rows before it as they are written have left open. -/
theorem kept_rows (hk : cfg.keywordSpacing = false) (hd : cfg.normalizeDelimiters = true) : ∀ {rs : List Text},
    (∀ row ∈ rs, '\n' ∉ row ∧ Uncommented row ∧ Unspaced true row) → ∀ (place : Place) (pending : Bool),
    Kept (mended pending (Text.lines (((absent cfg).rows cfg place rs).flatMap (· ++ ['\n'])))) (rs.flatMap delims)
      (∀ pre row post, rs = pre ++ row :: post → (place.through pre).raw = none → KeepsDelims
        ((Text.lines (((absent cfg).rows cfg place pre).flatMap (· ++ ['\n']))).foldl Block.goesOn pending) row)
  | [], _, _, _ => (Kept.of_eq rfl).congr rfl rfl (by simp)
  | row :: rs, h, place, pending => by
    have hlines : ∀ rest, Text.lines (((absent cfg).rows cfg place (row :: rest)).flatMap (· ++ ['\n']))
        = Text.lines ((absent cfg).row cfg place row ++ ['\n'])
          ++ Text.lines (((absent cfg).rows cfg (place.walk row).2 rest).flatMap (· ++ ['\n'])) := fun rest => by
      rw [rows, List.flatMap_cons, List.append_assoc, List.singleton_append, Text.lines_append_feed]
    obtain ⟨hn, hu, hs⟩ := h row List.mem_cons_self
    have hfirst := kept_row hk hd place hn hu hs pending
    have hrest := kept_rows hk hd (fun r hr => h r (List.mem_cons_of_mem row hr)) (place.walk row).2
      ((Text.lines ((absent cfg).row cfg place row ++ ['\n'])).foldl Block.goesOn pending)
    refine (hfirst.append hrest).congr (by rw [hlines, mended_append]) List.flatMap_cons ⟨?_, ?_⟩
    · rintro ⟨hrow, hrows⟩ pre row' post hsplit
      cases pre with
      | nil =>
        obtain ⟨rfl, -⟩ := List.cons.inj hsplit
        exact hrow
      | cons p pre =>
        obtain ⟨rfl, rfl⟩ := List.cons.inj hsplit
        rw [hlines, List.foldl_append]
        exact hrows pre row' post rfl
    · refine fun hall => ⟨hall [] row rs rfl, fun pre row' post hsplit => ?_⟩
      have hrow := hall (row :: pre) row' post (by rw [hsplit]; rfl)
      rwa [hlines, List.foldl_append] at hrow

theorem mended_feed (pending : Bool) (t : Text) :
    mended pending (Text.lines (t ++ ['\n'])) = mended pending (Text.lines t) := by
  rcases Text.lines_feed t with h | h
  · rw [h]
  · have hempty : ∀ p, mended p [[]] = [] := by decide
    rw [h, mended_append, hempty, List.append_nil]

/-- The delimiters of a template as it is written are those of its rows, mended. -/
theorem delims_format (cfg : Config) (source : Text) : delims ((absent cfg).format cfg source)
    = mended false (Text.lines (((absent cfg).rows cfg {} (Text.rows (Eol.unify source))).flatMap (· ++ ['\n']))) := by
  have hblock : ∀ t, delims ((absent cfg).block t) = delims t := fun t => delims_indentByBraces t _
  have hend : ∀ c ∈ (if ((absent cfg).laid cfg source).getLast? = some '\n' then ['\n'] else []), isApart c = true := by
    split <;> exact Text.forall_mem_of_all (by decide)
  have hne : (absent cfg).rows cfg {} (Text.rows (Eol.unify source)) ≠ [] := rows_ne_nil (Text.rows_ne_nil _) {}
  have hlaid : (absent cfg).laid cfg source ++ ['\n']
      = ((absent cfg).rows cfg {} (Text.rows (Eol.unify source))).flatMap (· ++ ['\n']) := by
    rw [laid, ← Text.unrows_feed hne, Text.unrows_concat, List.append_nil]
  rw [Treatment.format, delims_finish, blockText, delims_append_apart hend, delims_unrows, delims_blocks hblock, ← hlaid,
    mended_feed]

end Treatment

/-! ## Templates -/

/-- What holds of every split of a list can be checked at each place of it. -/
theorem forall_split_iff {α : Type} {l : List α} {p : List α → α → Prop} :
    (∀ pre a post, l = pre ++ a :: post → p pre a) ↔ ∀ k : Fin l.length, p (l.take k) (l.get k) := by
  constructor
  · exact fun h k => h _ _ (l.drop (k + 1)) (by simp)
  · rintro h pre a post rfl
    simpa using h ⟨pre.length, by simp⟩

variable {tidier : Tidier} {cfg : Config} {source : Text}

/-- **Without a tidier a template without comment tags and spaced closing delimiters gains no delimiter, and it loses
none exactly if every row outside raw elements has what keeps its own**: no such row begins with a closing delimiter, but
for one that closes an open block by it alone, and in no tag the delimiters overlap.  Within the widths of lines the text is
the result, unless something is too wide; with a usual width nothing is. -/
theorem delims_format_iff (h : tidier.Unavailable cfg) (hn : cfg.normalizeDelimiters = true)
    (hk : cfg.keywordSpacing = false) (h₁ : Text.contains (txt "<%#") source = false)
    (h₂ : Text.contains (txt "<%-#") source = false) (hu : ∀ row ∈ Text.rows (Eol.unify source), Unspaced true row)
    (s : Session) :
    let out := ((format tidier cfg source).run s).1
    let written := fun rows => ((formatRows tidier cfg [] {} rows).run s).1
    (delims out).Sublist (delims source) ∧
      (delims out = delims source ↔ ∀ pre row post, Text.rows (Eol.unify source) = pre ++ row :: post →
        (({} : Place).through pre).raw = none →
          KeepsDelims (Block.pending (Text.lines ((written pre).flatMap (· ++ ['\n'])))) row) ∧
      ((formatWithin tidier cfg source).run s).1 = WidthError.unless out (tooWide? noReply cfg source) ∧
      (cfg.usualWidth = true → tooWide? noReply cfg source = none) := by
  intro out written
  have hout : out = (Treatment.absent cfg).format cfg source := format_gives h.steady source s
  have hwritten : ∀ rows, written rows = (Treatment.absent cfg).rows cfg {} rows := fun rows =>
    rows_gives h.steady rows [] {} s
  have hrows : ∀ row ∈ Text.rows (Eol.unify source), '\n' ∉ row ∧ Uncommented row ∧ Unspaced true row := fun row hr =>
    ⟨feed_not_mem_rows hr, (uncommented_of_contains h₁ h₂).of_mem_rows hr, hu row hr⟩
  have hkept := Treatment.kept_rows hk hn hrows {} false
  rw [← Treatment.delims_format, ← hout, flatMap_delims_rows, ← (aligned_unify source).delims_eq] at hkept
  simp only [← hwritten] at hkept
  refine ⟨hkept.sublist, hkept.same_iff, ?_, fun hw => if_pos hw⟩
  rw [formatWithin_gives h.steady source s, hout]
  rfl

/-- A block that a closing delimiter alone closes, a closing delimiter in a raw element, tags and a directive keep their
delimiters. -/
theorem delims_format_page :
    let source := txt "<%\nmy $w=50;\n%>\n<hr width=<%=$w%>% >\n% if ($w) \x7b\n<script>\n  %> x\n</script>\n% \x7d"
    delims ((format Tidier.absent {} source).run {}).1 = delims source :=
  (delims_format_iff (Or.inr (fun _ _ => rfl)) rfl rfl (by decide +kernel) (by decide +kernel) (by decide +kernel)
    {}).2.1.2 (forall_split_iff.2 (by decide +kernel))

/-- The delimiter that closes a tag over several rows is split. -/
theorem closing_delimiter_split :
    let source := txt "<%= f(\n  1\n%>\n"
    let out := txt "<%= f(\n1\n% >\n"
    ((formatWithin Tidier.absent {} source).run {}).1 = .ok out ∧
      delims source = [.opening, .closing] ∧ delims out = [.opening] := by
  intro source out
  rw [formatWithin_usual (by decide)]
  exact ⟨congrArg Except.ok (by decide +kernel), by decide, by decide⟩

end EpFormat
