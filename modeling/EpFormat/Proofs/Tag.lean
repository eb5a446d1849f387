import EpFormat.Template.Tag
import EpFormat.Proofs.Scan
import EpFormat.Proofs.Trim
/-!
# Tag — reading a tag by what stands between its delimiters

A tag is `<%`, its inside, and the first `%>` after it.  The inside is any text without `%>` and without a line feed
(`Inner`), and reading takes it apart without loss (`inside_ofInside`).  So a tag is read at the head of a text exactly
if the text begins with the delimiters around some inside (`read?_eq_some_iff`), and `tag_induct` goes through a line
tag by tag.
-/
namespace EpFormat.Template

theorem Kind.mark_read (t : Text) : (Kind.read t).1.mark ++ (Kind.read t).2 = t := by
  unfold Kind.read
  split <;> rfl

/-- A character that does not begin the closing delimiter leaves the mark at the head of a text as it is. -/
theorem Kind.read_append_percent (u post : Text) :
    Kind.read (u ++ '%' :: post) = ((Kind.read u).1, (Kind.read u).2 ++ '%' :: post) := by
  match u with
  | [] => rfl
  | [c] =>
    by_cases h1 : c = '='
    · subst h1; rfl
    · by_cases h2 : c = '#'
      · subst h2; rfl
      · simp [Kind.read, h1, h2]
  | c :: d :: u =>
    by_cases h1 : c = '='
    · subst h1
      by_cases h2 : d = '='
      · subst h2; rfl
      · simp [Kind.read, h2]
    · by_cases h2 : c = '#'
      · subst h2; rfl
      · simp [Kind.read, h1, h2]

namespace Tag

theorem chomp_readChomp (t : Text) : chomp (readChomp t).1 ++ (readChomp t).2 = t := by
  unfold readChomp
  split <;> rfl

theorem readChomp_of_ne {t : Text} (h : ∀ r, t ≠ '-' :: r) : readChomp t = (false, t) := by
  unfold readChomp
  split
  · rename_i r
    exact absurd rfl (h r)
  · rfl

theorem splitChomp_append (t : Text) : (splitChomp t).1 ++ chomp (splitChomp t).2 = t := by
  unfold splitChomp
  split
  · rename_i rest h
    rw [← List.reverse_reverse t, h]
    simp [chomp]
  · simp [chomp]

theorem readChomp_append_percent (u post : Text) :
    readChomp (u ++ '%' :: post) = ((readChomp u).1, (readChomp u).2 ++ '%' :: post) := by
  cases u with
  | nil => rfl
  | cons c u =>
    by_cases h : c = '-'
    · subst h; rfl
    · simp [readChomp, h]

/-! ## The inside of a tag -/

/-- A text that may stand between the delimiters of a tag. -/
def Inner (t : Text) : Prop := ¬ ['%', '>'] <:+: t ∧ '\n' ∉ t

def inside (tag : Tag) : Text := chomp tag.leftChomp ++ tag.kind.mark ++ tag.body ++ chomp tag.rightChomp

/-- The tag with a text between its delimiters. -/
def ofInside (u : Text) : Tag :=
  let marked := Kind.read (readChomp u).2
  ⟨(readChomp u).1, marked.1, (splitChomp marked.2).1, (splitChomp marked.2).2⟩

theorem source_eq (tag : Tag) : tag.source = '<' :: '%' :: (tag.inside ++ ['%', '>']) := by
  simp [source, inside]

/-- **Taking the inside of a tag apart loses nothing.** -/
theorem inside_ofInside (u : Text) : (ofInside u).inside = u := by
  simp only [inside, ofInside, List.append_assoc]
  rw [splitChomp_append, Kind.mark_read, chomp_readChomp]

theorem ofInside_comment_iff (u : Text) : (ofInside u).kind = .comment ↔ ['#'] <+: u ∨ ['-', '#'] <+: u := by
  have hkind : ∀ t, (Kind.read t).1 = .comment ↔ ['#'] <+: t := by
    intro t
    unfold Kind.read
    split
    · simp [List.cons_prefix_cons]
    · simp [List.cons_prefix_cons]
    · simp [List.cons_prefix_cons]
    · rename_i h
      refine iff_of_false (by simp) ?_
      rintro ⟨v, rfl⟩
      exact h v rfl
  rw [show (ofInside u).kind = (Kind.read (readChomp u).2).1 from rfl, hkind]
  cases u with
  | nil => simp [readChomp]
  | cons c u =>
    by_cases hc : c = '-'
    · subst hc
      simp [readChomp, List.cons_prefix_cons]
    · have : readChomp (c :: u) = (false, c :: u) := readChomp_of_ne (fun r hr => hc (List.cons.inj hr).1)
      rw [this]
      simp [List.cons_prefix_cons, Ne.symm hc]

theorem inner_nil : Inner [] := by
  refine ⟨fun h => ?_, List.not_mem_nil⟩
  have := h.length_le
  simp at this

theorem Inner.of_isInfix {s t : Text} (h : Inner t) (hs : s <:+: t) : Inner s :=
  ⟨fun hc => h.1 (hc.trans hs), fun hn => h.2 (hs.subset hn)⟩

theorem Inner.tail {c : Char} {t : Text} (h : Inner (c :: t)) : Inner t :=
  h.of_isInfix (List.suffix_cons c t).isInfix

theorem inner_cons {c : Char} {t : Text} (hc : c ≠ '%') (hn : c ≠ '\n') (h : Inner t) : Inner (c :: t) := by
  refine ⟨fun hi => ?_, ?_⟩
  · rcases List.infix_cons_iff.1 hi with hp | hi
    · exact hc (List.cons_prefix_cons.1 hp).1.symm
    · exact h.1 hi
  · simpa [hn.symm] using h.2

theorem inner_append {s t : Text} (hs : ∀ c ∈ s, c ≠ '%' ∧ c ≠ '\n') (h : Inner t) : Inner (s ++ t) := by
  induction s with
  | nil => exact h
  | cons c s ih =>
    have hc := hs c List.mem_cons_self
    exact inner_cons hc.1 hc.2 (ih (fun d hd => hs d (List.mem_cons_of_mem _ hd)))

theorem upToClose_body : ∀ (t body : Text), upToClose body t = (upToClose [] t).map (body.reverse ++ ·)
  | [], body => rfl
  | c :: rest, body => by
    by_cases hclose : ∃ post, c :: rest = '%' :: '>' :: post
    · obtain ⟨post, hpost⟩ := hclose
      rw [hpost]
      simp [upToClose]
    · have hne : ∀ post, c = '%' → rest = '>' :: post → False := fun post h1 h2 => hclose ⟨post, by rw [h1, h2]⟩
      rw [upToClose, upToClose]
      · split
        · rfl
        · rw [upToClose_body rest (c :: body), upToClose_body rest [c]]
          cases upToClose [] rest <;> simp
      · exact hne
      · exact hne

theorem upToClose_append {u : Text} (h : Inner u) (post : Text) :
    upToClose [] (u ++ '%' :: '>' :: post) = some u := by
  induction u with
  | nil => rfl
  | cons c u ih =>
    have hne : ∀ post', c = '%' → u ++ '%' :: '>' :: post = '>' :: post' → False := by
      rintro post' rfl heq
      cases u with
      | nil => simp at heq
      | cons d u =>
        obtain ⟨rfl, -⟩ := List.cons.inj heq
        exact h.1 ⟨[], u, rfl⟩
    have hn : c ≠ '\n' := fun hc => h.2 (hc ▸ List.mem_cons_self)
    rw [List.cons_append, upToClose]
    · rw [if_neg hn, upToClose_body, ih h.tail]
      rfl
    · exact hne

theorem upToClose_eq_some : ∀ (t u : Text), upToClose [] t = some u →
    Inner u ∧ ∃ post, t = u ++ '%' :: '>' :: post
  | [], _, h => by cases h
  | c :: rest, u, h => by
    by_cases hclose : ∃ post, c :: rest = '%' :: '>' :: post
    · obtain ⟨post, hpost⟩ := hclose
      rw [hpost] at h ⊢
      simp only [upToClose, List.reverse_nil, Option.some.injEq] at h
      subst h
      exact ⟨inner_nil, post, rfl⟩
    · rw [upToClose] at h
      · split at h
        · cases h
        · rename_i hn
          rw [upToClose_body] at h
          obtain ⟨v, hv, hu⟩ := Option.map_eq_some_iff.1 h
          obtain rfl : c :: v = u := hu
          obtain ⟨hinner, post, hpost⟩ := upToClose_eq_some rest v hv
          refine ⟨⟨fun hi => ?_, ?_⟩, post, by rw [hpost]; rfl⟩
          · rcases List.infix_cons_iff.1 hi with hp | hi
            · obtain ⟨hc, hp⟩ := List.cons_prefix_cons.1 hp
              obtain ⟨w, hw⟩ := hp
              refine hclose ⟨w ++ '%' :: '>' :: post, ?_⟩
              rw [← hc, hpost, ← hw]
              rfl
            · exact hinner.1 hi
          · simpa [Ne.symm hn] using hinner.2
      · exact fun post h1 h2 => hclose ⟨post, by rw [h1, h2]⟩

/-! ## Reading -/

/-- A text that begins with delimiters around an inside begins with that tag. -/
theorem read?_inner {u : Text} (h : Inner u) (post : Text) :
    read? ('<' :: '%' :: (u ++ '%' :: '>' :: post)) = some (ofInside u) := by
  have hinner : Inner (Kind.read (readChomp u).2).2 := by
    refine h.of_isInfix (List.IsSuffix.isInfix ?_)
    refine List.IsSuffix.trans ⟨_, Kind.mark_read (readChomp u).2⟩ ⟨_, chomp_readChomp u⟩
  simp only [read?, readChomp_append_percent, Kind.read_append_percent, upToClose_append hinner, ofInside]

theorem marks_ne (left : Bool) (kind : Kind) : ∀ c ∈ chomp left ++ kind.mark, c ≠ '%' ∧ c ≠ '\n' := by
  cases left <;> cases kind <;> exact Text.forall_mem_of_all (by decide)

/-- **What is read at the head of a text**: delimiters around an inside. -/
theorem read?_eq_some_iff {s : Text} {tag : Tag} :
    read? s = some tag ↔ ∃ u post, s = '<' :: '%' :: (u ++ '%' :: '>' :: post) ∧ Inner u ∧ tag = ofInside u := by
  constructor
  · intro h
    have hs := h
    unfold read? at h
    split at h
    · rename_i rest
      simp only at h
      split at h
      · cases h
      · rename_i body hbody
        obtain ⟨hinner, post, hpost⟩ := upToClose_eq_some _ _ hbody
        have hrest : rest = (chomp (readChomp rest).1 ++ (Kind.read (readChomp rest).2).1.mark ++ body)
            ++ '%' :: '>' :: post := by
          conv => lhs; rw [← chomp_readChomp rest, ← Kind.mark_read (readChomp rest).2, hpost]
          simp only [List.append_assoc]
        have hu := inner_append (marks_ne (readChomp rest).1 (Kind.read (readChomp rest).2).1) hinner
        rw [hrest, read?_inner hu] at hs
        exact ⟨_, post, by rw [← hrest], hu, (Option.some.inj hs).symm⟩
    · cases h
  · rintro ⟨u, post, rfl, hu, rfl⟩
    exact read?_inner hu post

/-- The first closing delimiter of a text. -/
theorem exists_inner_append : ∀ {t : Text}, '\n' ∉ t → ['%', '>'] <:+: t → ∃ u post, t = u ++ '%' :: '>' :: post ∧ Inner u
  | [], _, h => absurd h inner_nil.1
  | c :: t, hn, h => by
    simp only [List.mem_cons, not_or] at hn
    by_cases hp : ['%', '>'] <+: c :: t
    · obtain ⟨post, hpost⟩ := hp
      exact ⟨[], post, hpost.symm, inner_nil⟩
    · obtain ⟨u, post, rfl, hu⟩ := exists_inner_append hn.2 ((List.infix_cons_iff.1 h).resolve_left hp)
      refine ⟨c :: u, post, rfl, fun hi => ?_, by simpa using ⟨hn.1, hu.2⟩⟩
      rcases List.infix_cons_iff.1 hi with hi | hi
      · exact hp (hi.trans (List.prefix_append (c :: u) _))
      · exact hu.1 hi

/-- Where a delimiter opens no tag, none closes one later. -/
theorem not_close_of_read?_none {t : Text} (hn : '\n' ∉ t) (h : read? ('<' :: '%' :: t) = none) :
    ¬ ['%', '>'] <:+: t := by
  intro hc
  obtain ⟨u, post, rfl, hu⟩ := exists_inner_append hn hc
  rw [read?_inner hu] at h
  cases h

theorem read?_cons_of_ne {c : Char} (h : c ≠ '<') (t : Text) : read? (c :: t) = none := by
  cases hr : read? (c :: t) with
  | none => rfl
  | some tag =>
    obtain ⟨u, post, hs, -, -⟩ := read?_eq_some_iff.1 hr
    exact absurd (List.cons.inj hs).1 h

theorem read?_of_not_close {s : Text} (h : ¬ ['%', '>'] <:+: s) : read? s = none := by
  cases hr : read? s with
  | none => rfl
  | some tag =>
    obtain ⟨u, post, rfl, -, -⟩ := read?_eq_some_iff.1 hr
    exact absurd ⟨'<' :: '%' :: u, post, by simp⟩ h

/-! ## Scanning -/

theorem finder_blind : Finder.Blind finder := fun _ _ _ => rfl

theorem finder_inner {u : Text} (h : Inner u) (post : Text) :
    finder none ('<' :: '%' :: (u ++ '%' :: '>' :: post)) = some (ofInside u, u.length + 4) := by
  simp only [finder, read?_inner h, Option.map_some, source_eq, inside_ofInside, List.length_cons, List.length_append,
    List.length_nil]

theorem taken_inner (u post : Text) :
    taken (u.length + 4) ('<' :: '%' :: (u ++ '%' :: '>' :: post)) = '<' :: '%' :: (u ++ ['%', '>']) := by
  have h : max (u.length + 4) 1 = u.length + 2 + 1 + 1 := by omega
  rw [taken, h, List.take_succ_cons, List.take_succ_cons, List.take_length_add_append]
  rfl

theorem beyond_inner (u post : Text) : beyond (u.length + 4) ('<' :: '%' :: (u ++ '%' :: '>' :: post)) = post := by
  have h : max (u.length + 4) 1 = u.length + 2 + 1 + 1 := by omega
  rw [beyond, h, List.drop_succ_cons, List.drop_succ_cons, List.drop_length_add_append]
  rfl

theorem scan_tag {u : Text} (h : Inner u) (post : Text) :
    scan finder ('<' :: '%' :: (u ++ '%' :: '>' :: post))
      = .hit (ofInside u) ('<' :: '%' :: (u ++ ['%', '>'])) :: scan finder post := by
  rw [scan_hit finder_blind (finder_inner h post), taken_inner, beyond_inner]

theorem finder_none {c : Char} {rest : Text} (h : read? (c :: rest) = none) : finder none (c :: rest) = none := by
  rw [finder, h]
  rfl

theorem scan_char {c : Char} {rest : Text} (h : read? (c :: rest) = none) :
    scan finder (c :: rest) = .item c :: scan finder rest := scan_item finder_blind (finder_none h)

@[simp] theorem all_nil : all [] = [] := rfl

theorem all_tag {u : Text} (h : Inner u) (post : Text) :
    all ('<' :: '%' :: (u ++ '%' :: '>' :: post)) = ofInside u :: all post := by
  rw [all, finds, scan_tag h]
  rfl

theorem all_char {c : Char} {rest : Text} (h : read? (c :: rest) = none) : all (c :: rest) = all rest := by
  rw [all, finds, scan_char h]
  rfl

/-- **Induction through a line**: a tag at the head, or a character that begins none. -/
theorem tag_induct {motive : Text → Prop} (nil : motive [])
    (tag : ∀ u post, Inner u → motive post → motive ('<' :: '%' :: (u ++ '%' :: '>' :: post)))
    (char : ∀ c rest, read? (c :: rest) = none → motive rest → motive (c :: rest)) (t : Text) : motive t := by
  induction t using scan_induct finder with
  | nil => exact nil
  | hit x rest a n h ih =>
    obtain ⟨t, ht, hp⟩ := Option.map_eq_some_iff.1 h
    obtain ⟨u, post, hs, hu, rfl⟩ := read?_eq_some_iff.1 ht
    rw [hs] at h ih ⊢
    rw [finder_inner hu] at h
    obtain ⟨rfl, rfl⟩ := Prod.mk.inj (Option.some.inj h)
    rw [beyond_inner] at ih
    exact tag u post hu ih
  | item x rest h ih => exact char x rest (Option.map_eq_none_iff.1 h) ih

/-! ## White space around a line -/

theorem scan_append_left : ∀ {a : Text}, (∀ c ∈ a, c ≠ '<') → ∀ t, scan finder (a ++ t) = a.map Piece.item ++ scan finder t
  | [], _, _ => rfl
  | c :: a, ha, t => by
    rw [List.cons_append, scan_char (read?_cons_of_ne (ha c List.mem_cons_self) _),
      scan_append_left (fun d hd => ha d (List.mem_cons_of_mem c hd))]
    rfl

theorem read?_append_blank {b : Text} (hb : allBlank b = true) {t : Text} (h : read? t = none) : read? (t ++ b) = none := by
  cases hr : read? (t ++ b) with
  | none => rfl
  | some tag =>
    obtain ⟨u, post, hs, hu, -⟩ := read?_eq_some_iff.1 hr
    have hclose : t ++ b = ('<' :: '%' :: (u ++ ['%'])) ++ '>' :: post := by rw [hs]; simp
    obtain ⟨v, -, ht⟩ := split_append_blank (by decide) hb hclose
    rw [show t = '<' :: '%' :: (u ++ '%' :: '>' :: v) by rw [ht]; simp, read?_inner hu] at h
    cases h

theorem scan_append_right {b : Text} (hb : allBlank b = true) (t : Text) :
    scan finder (t ++ b) = scan finder t ++ b.map Piece.item := by
  induction t using tag_induct with
  | nil =>
    have := scan_append_left (fun c hc => ne_of_isBlank (by decide) (allBlank_iff.1 hb c hc)) []
    simpa using this
  | tag u post hu ih =>
    rw [List.cons_append, List.cons_append, List.append_assoc, List.cons_append, List.cons_append, scan_tag hu, scan_tag hu, ih]
    rfl
  | char c rest hc ih =>
    have hend := read?_append_blank hb hc
    rw [List.cons_append] at hend ⊢
    rw [scan_char hend, scan_char hc, ih]
    rfl

/-- White space around a line is no part of its tags. -/
theorem scan_trim (t : Text) : ∃ a b : Text, allBlank a = true ∧ allBlank b = true ∧
    scan finder t = a.map Piece.item ++ (scan finder (Text.trim t) ++ b.map Piece.item) := by
  obtain ⟨a, b, ha, hb, ht⟩ := Text.exists_trim t
  refine ⟨a, b, ha, hb, ?_⟩
  conv => lhs; rw [ht]
  rw [scan_append_left (fun c hc => ne_of_isBlank (by decide) (allBlank_iff.1 ha c hc)), scan_append_right hb]

theorem all_trim (t : Text) : all (Text.trim t) = all t := by
  have hitems : ∀ a : Text, (a.map Piece.item).filterMap (Piece.found? : Piece Char Tag → Option Tag) = [] := by
    intro a
    simp [Piece.found?]
  obtain ⟨a, b, -, -, ht⟩ := scan_trim t
  rw [all, all, finds, finds, ht, List.filterMap_append, List.filterMap_append, hitems, hitems, List.nil_append,
    List.append_nil]

end Tag
end EpFormat.Template
