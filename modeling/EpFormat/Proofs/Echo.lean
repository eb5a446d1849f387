import EpFormat.Proofs.Squeeze
import EpFormat.Proofs.Unwrap
/-!
# Echo — wrapped code that comes back as it was sent

Where the tidier gives back its input, what becomes of an expression or a block is decided by the two hands that wrap and
unwrap it.  If the braces of the code are in pairs it comes back as it is; if some stay open, nothing is unwrapped and the
code takes the place of the answer; if one closes too much, the code is cut before it (`wrapped_echo`).  An expression is
then put on one line, and there the white space around it makes no difference (`lineForm_trim`).
-/
namespace EpFormat.Perl

/-! ## One line -/

/-- Code on one line: the lines trimmed and joined by single spaces, each run of spaces and tabs one space, the ends
trimmed. -/
def lineForm (code : Text) : Text :=
  Text.trim (squeeze isPad (Text.join [' '] ((Text.lines code).map Text.trim)))

theorem onOneLine_trimmed (code : Text) : onOneLine ((Text.lines code).map Text.trim) = lineForm code := by
  rw [onOneLine, collapsePad_eq_squeeze, lineForm]

theorem trimRight_append_congr {s t : Text} (h : Text.trimRight s = Text.trimRight t) (a : Text) :
    Text.trimRight (a ++ s) = Text.trimRight (a ++ t) := by
  obtain ⟨b, hb, hs⟩ := Text.exists_trimRight s
  obtain ⟨d, hd, ht⟩ := Text.exists_trimRight t
  rw [hs, ht, ← List.append_assoc, ← List.append_assoc, Text.trimRight_append_of_blank hb,
    Text.trimRight_append_of_blank hd, h]

theorem trim_squeeze_space (u : Text) : Text.trim (squeeze isPad (' ' :: u)) = Text.trim (squeeze isPad u) := by
  cases hu : u.head?.any isPad with
  | true => rw [squeeze_inner rfl hu]
  | false =>
    rw [squeeze_end rfl hu]
    exact Text.trim_append_of_blank (a := [' ']) rfl _

/-- A space at the end goes into the run before it, or is trimmed. -/
theorem trimRight_squeeze_concat : ∀ u : Text,
    Text.trimRight (squeeze isPad (u ++ [' '])) = Text.trimRight (squeeze isPad u)
  | [] => rfl
  | [c] => by
    cases hc : isPad c with
    | true =>
      rw [List.singleton_append, squeeze_inner hc rfl, squeeze_end hc rfl]
      rfl
    | false =>
      rw [List.singleton_append, squeeze_other hc, squeeze_other hc]
      exact Text.trimRight_append_of_blank (b := [' ']) rfl [c]
  | c :: d :: u => by
    have ih := trimRight_squeeze_concat (d :: u)
    have hhead : (d :: u ++ [' ']).head?.any isPad = (d :: u).head?.any isPad := rfl
    cases hc : isPad c with
    | false =>
      rw [List.cons_append, squeeze_other hc, squeeze_other hc]
      exact trimRight_append_congr ih [c]
    | true =>
      cases hd : (d :: u).head?.any isPad with
      | true => rw [List.cons_append, squeeze_inner hc (hhead.trans hd), squeeze_inner hc hd, ih]
      | false =>
        rw [List.cons_append, squeeze_end hc (hhead.trans hd), squeeze_end hc hd]
        exact trimRight_append_congr ih [' ']

theorem onOneLine_empty_cons (ls : List Text) : onOneLine ([] :: ls) = onOneLine ls := by
  cases ls with
  | nil => rfl
  | cons l ls =>
    rw [onOneLine, onOneLine, collapsePad_eq_squeeze, collapsePad_eq_squeeze, Text.join, List.intercalate_cons_cons]
    exact trim_squeeze_space _

theorem onOneLine_concat_empty (ls : List Text) : onOneLine (ls ++ [[]]) = onOneLine ls := by
  have hjoin : ∀ ls : List Text, ls ≠ [] → Text.join [' '] (ls ++ [[]]) = Text.join [' '] ls ++ [' '] := by
    intro ls hne
    induction ls with
    | nil => exact absurd rfl hne
    | cons l ls ih =>
      cases ls with
      | nil => simp [Text.join]
      | cons m ls =>
        have := ih (List.cons_ne_nil m ls)
        simp only [Text.join, List.cons_append, List.intercalate_cons_cons] at this ⊢
        rw [this, List.append_assoc, List.append_assoc, List.append_assoc]
  by_cases hne : ls = []
  · rw [hne]
    rfl
  · rw [onOneLine, onOneLine, collapsePad_eq_squeeze, collapsePad_eq_squeeze, hjoin ls hne, ← Text.trimLeft_trimRight,
      trimRight_squeeze_concat, Text.trimLeft_trimRight]

/-! ## White space around code -/

/-- White space before a text goes into its first line, or makes an empty line. -/
theorem lines_blank_cons {c : Char} (hc : isBlank c = true) (t : Text) :
    (Text.lines (c :: t)).map Text.trim = (Text.lines t).map Text.trim ∨
      (Text.lines (c :: t)).map Text.trim = [] :: (Text.lines t).map Text.trim := by
  have htrim : ∀ l : Text, Text.trim (c :: l) = Text.trim l := Text.trim_append_of_blank (a := [c]) (by simp [hc])
  cases hb : isLineBreak c with
  | true =>
    by_cases hpair : ∃ more, c = '\r' ∧ t = '\n' :: more
    -- a carriage return joins the line feed after it, which made the empty line already
    · obtain ⟨more, rfl, rfl⟩ := hpair
      have hboth : Text.lines ('\r' :: '\n' :: more) = [] :: Text.lines more := Text.lines_pair (l := []) (by simp) more
      have hfeed : Text.lines ('\n' :: more) = [] :: Text.lines more :=
        Text.lines_break (l := []) (by simp) (by decide) (fun _ h => absurd h (by decide))
      left
      rw [hboth, hfeed]
    · have hline : Text.lines (c :: t) = [] :: Text.lines t :=
        Text.lines_break (l := []) (by simp) hb (fun more h₁ h₂ => hpair ⟨more, h₁, h₂⟩)
      right
      rw [hline]
      rfl
  | false =>
    have hcons : ∀ {l : Text}, (∀ d ∈ l, isLineBreak d = false) → ∀ d ∈ c :: l, isLineBreak d = false := fun hl =>
      List.forall_mem_cons.2 ⟨hb, hl⟩
    induction t using Text.lines_induct with
    | nil =>
      right
      rw [Text.lines_unbroken (hcons (by simp)) (by simp), List.map_singleton, htrim]
      rfl
    | last l hl hne =>
      left
      rw [Text.lines_unbroken hl hne, Text.lines_unbroken (hcons hl) (by simp), List.map_singleton, htrim]
      rfl
    | single l d rest hl hd hp _ =>
      left
      rw [← List.cons_append, Text.lines_break hl hd hp, Text.lines_break (hcons hl) hd hp, List.map_cons, htrim]
      rfl
    | pair l rest hl _ =>
      left
      rw [← List.cons_append, Text.lines_pair hl, Text.lines_pair (hcons hl), List.map_cons, htrim]
      rfl

/-- White space after a text goes into its last line, or ends it, or makes an empty line. -/
theorem lines_concat_blank {c : Char} (hc : isBlank c = true) (t : Text) :
    (Text.lines (t ++ [c])).map Text.trim = (Text.lines t).map Text.trim ∨
      (Text.lines (t ++ [c])).map Text.trim = (Text.lines t).map Text.trim ++ [[]] := by
  have htrim : ∀ l : Text, Text.trim (l ++ [c]) = Text.trim l := Text.trim_append_blank (by simp [hc])
  have hend : ∀ {l : Text}, (∀ d ∈ l, isLineBreak d = false) → isLineBreak c = true → Text.lines (l ++ [c]) = [l] :=
    fun hl hb => Text.lines_break hl hb (fun _ _ h => absurd h (List.cons_ne_nil _ _).symm)
  induction t using Text.lines_induct with
  | nil =>
    right
    cases hb : isLineBreak c with
    | true => rw [hend (by simp) hb]; rfl
    | false => rw [Text.lines_unbroken (by simpa using hb) (by simp), List.map_singleton, htrim]; rfl
  | last l hl hne =>
    left
    cases hb : isLineBreak c with
    | true => rw [hend hl hb, Text.lines_unbroken hl hne]
    | false =>
      have hlc : ∀ d ∈ l ++ [c], isLineBreak d = false := List.forall_mem_append.2 ⟨hl, by simpa using hb⟩
      rw [Text.lines_unbroken hl hne, Text.lines_unbroken hlc (by simp), List.map_singleton, htrim]
      rfl
  | single l d rest hl hd hp ih =>
    by_cases hpair : d = '\r' ∧ rest = [] ∧ c = '\n'
    · obtain ⟨rfl, rfl, rfl⟩ := hpair
      left
      rw [Text.lines_break hl hd hp, List.append_assoc, List.cons_append, List.nil_append, Text.lines_pair hl]
    · have hp' : ∀ more, d = '\r' → rest ++ [c] = '\n' :: more → False := by
        intro more hr hmore
        cases rest with
        | nil => exact hpair ⟨hr, rfl, (List.cons.inj hmore).1⟩
        | cons e rest => exact hp rest hr (by rw [(List.cons.inj hmore).1])
      rw [Text.lines_break hl hd hp, List.append_assoc, List.cons_append, Text.lines_break hl hd hp', List.map_cons,
        List.map_cons]
      exact ih.imp (congrArg _) (congrArg _)
  | pair l rest hl ih =>
    rw [Text.lines_pair hl, Text.lines_append_of_pair hl, List.map_cons, List.map_cons]
    exact ih.imp (congrArg _) (congrArg _)

theorem lineForm_blank_cons {c : Char} (hc : isBlank c = true) (t : Text) : lineForm (c :: t) = lineForm t := by
  rw [← onOneLine_trimmed, ← onOneLine_trimmed]
  rcases lines_blank_cons hc t with h | h
  · rw [h]
  · rw [h, onOneLine_empty_cons]

theorem lineForm_concat_blank {c : Char} (hc : isBlank c = true) (t : Text) : lineForm (t ++ [c]) = lineForm t := by
  rw [← onOneLine_trimmed, ← onOneLine_trimmed]
  rcases lines_concat_blank hc t with h | h
  · rw [h]
  · rw [h, onOneLine_concat_empty]

theorem lineForm_blank_append : ∀ {a : Text}, allBlank a = true → ∀ t : Text, lineForm (a ++ t) = lineForm t
  | [], _, _ => rfl
  | c :: a, h, t => by
    rw [allBlank_cons, Bool.and_eq_true] at h
    rw [List.cons_append, lineForm_blank_cons h.1, lineForm_blank_append h.2]

theorem lineForm_append_blank : ∀ {b : Text}, allBlank b = true → ∀ t : Text, lineForm (t ++ b) = lineForm t
  | [], _, t => by rw [List.append_nil]
  | c :: b, h, t => by
    rw [allBlank_cons, Bool.and_eq_true] at h
    rw [List.append_cons, lineForm_append_blank h.2, lineForm_concat_blank h.1]

/-- **The white space around code makes no difference on one line.** -/
theorem lineForm_trim (t : Text) : lineForm (Text.trim t) = lineForm t := by
  obtain ⟨a, b, ha, hb, ht⟩ := Text.exists_trim t
  conv => rhs; rw [ht, lineForm_blank_append ha, lineForm_append_blank hb]

/-! ## Code that comes back -/

theorem dropOuterBreaks_feed (p : Text) :
    dropOuterBreaks ('\n' :: p) = if p.getLast? = some '\n' then p.dropLast else p := by
  rcases p.eq_nil_or_concat with rfl | ⟨init, c, rfl⟩
  · rfl
  rw [List.concat_eq_append, List.getLast?_concat, List.dropLast_concat]
  simp only [dropOuterBreaks, List.reverse_append, List.reverse_singleton, List.singleton_append]
  by_cases hc : c = '\n'
  · subst hc
    simp
  · rw [if_neg (by simpa using hc)]
    split
    · rename_i heq
      exact absurd (List.cons.inj heq).1 hc
    · rfl

section

variable {tidier : Tidier} {cfg : Config}

theorem tidyBlock_echo (h : tidier.Echoes cfg) (code : Text) (s : Session) :
    ((tidyBlock tidier cfg code).run s).1 = (insideBraces? (wrap '\n' code)).map dropOuterBreaks := by
  rw [tidyBlock_gives h.steady code s, ← wrap_feed]
  rfl

theorem tidyExpression_echo (h : tidier.Echoes cfg) (hk : cfg.keywordSpacing = false) (code : Text) (s : Session) :
    ((tidyExpression tidier cfg code).run s).1 = lineForm ((insideBraces? (wrap ' ' code)).getD (Text.trim code)) := by
  rw [tidyExpression_gives h.steady code s, ← wrap_space, ← onOneLine_trimmed]
  exact if_neg (by simp [hk])

end

end EpFormat.Perl
