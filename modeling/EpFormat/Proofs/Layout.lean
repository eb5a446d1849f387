import EpFormat.Proofs.Rows
/-!
# Layout — what laying out a block reads

Laying out the code of a block by its braces reads the trimmed lines of the body, without the blank ones at its ends,
and nothing else (`lines_indentByBraces`).
-/
namespace EpFormat

open Template Template.Tag Perl

/-! ## Blank lines at the ends -/

theorem dropBlankEnds_map {f : Text → Text} (hf : ∀ l, allBlank (f l) = allBlank l) (ls : List Text) :
    dropBlankEnds (ls.map f) = (dropBlankEnds ls).map f := by
  have hblank : allBlank ∘ f = allBlank := funext hf
  simp only [dropBlankEnds, List.dropWhile_map, hblank, ← List.map_reverse]

theorem dropBlankEnds_map_trim (ls : List Text) : dropBlankEnds (ls.map Text.trim) = (dropBlankEnds ls).map Text.trim :=
  dropBlankEnds_map Text.allBlank_trim ls

/-- The blank lines in front. -/
def blankFront (ls : List Text) : List Text := ls.takeWhile allBlank

/-- The blank lines at the back, unless all lines are blank. -/
def blankBack (ls : List Text) : List Text := ((ls.dropWhile allBlank).reverse.takeWhile allBlank).reverse

theorem allBlank_of_mem_blankFront {ls : List Text} : ∀ l ∈ blankFront ls, allBlank l = true :=
  List.all_eq_true.1 List.all_takeWhile

theorem allBlank_of_mem_blankBack {ls : List Text} : ∀ l ∈ blankBack ls, allBlank l = true :=
  fun l hl => List.all_eq_true.1 List.all_takeWhile l (List.mem_reverse.1 hl)

theorem eq_dropBlankEnds (ls : List Text) : ls = blankFront ls ++ (dropBlankEnds ls ++ blankBack ls) := by
  rw [dropBlankEnds, blankBack, ← List.reverse_append, List.takeWhile_append_dropWhile, List.reverse_reverse, blankFront,
    List.takeWhile_append_dropWhile]

theorem exists_dropBlankEnds (ls : List Text) : ∃ a b, (∀ l ∈ a, allBlank l = true) ∧ (∀ l ∈ b, allBlank l = true) ∧
    ls = a ++ (dropBlankEnds ls ++ b) :=
  ⟨blankFront ls, blankBack ls, allBlank_of_mem_blankFront, allBlank_of_mem_blankBack, eq_dropBlankEnds ls⟩

/-- The last of the lines, if there is one, has ink. -/
def EndsInk (ls : List Text) : Prop := ∀ l ∈ ls.getLast?, allBlank l = false

theorem EndsInk.of_trim {ks ls : List Text} (hls : EndsInk ls) (h : ks.map Text.trim = ls.map Text.trim) : EndsInk ks := by
  intro k hk
  have hlast := congrArg List.getLast? h
  rw [List.getLast?_map, List.getLast?_map, Option.mem_def.1 hk, Option.map_some] at hlast
  obtain ⟨l, hl, htrim⟩ := Option.map_eq_some_iff.1 hlast.symm
  rw [← Text.allBlank_trim, ← htrim, Text.allBlank_trim, hls l hl]

theorem head?_dropWhile_allBlank {ls : List Text} {l : Text} (h : l ∈ (ls.dropWhile allBlank).head?) :
    allBlank l = false := by
  have := List.head?_dropWhile_not allBlank ls
  rwa [Option.mem_def.1 h] at this

theorem endsInk_dropBlankEnds (ls : List Text) : EndsInk (dropBlankEnds ls) := by
  intro l hl
  rw [dropBlankEnds, List.getLast?_reverse] at hl
  exact head?_dropWhile_allBlank hl

/-- What is left of the lines begins as they do without the blank ones in front. -/
theorem head?_dropBlankEnds {ls : List Text} {l : Text} (h : l ∈ (dropBlankEnds ls).head?) : allBlank l = false := by
  have hstart : dropBlankEnds ls <+: ls.dropWhile allBlank := by
    rw [dropBlankEnds, ← List.reverse_suffix, List.reverse_reverse]
    exact List.dropWhile_suffix _
  obtain ⟨more, hmore⟩ := hstart
  have hfront : l ∈ (ls.dropWhile allBlank).head? := by
    rw [← hmore, List.head?_append, Option.mem_def.1 h]
    rfl
  exact head?_dropWhile_allBlank hfront

theorem dropBlankEnds_idem (ls : List Text) : dropBlankEnds (dropBlankEnds ls) = dropBlankEnds ls := by
  have hstay : ∀ ks : List Text, (∀ k ∈ ks.head?, allBlank k = false) → ks.dropWhile allBlank = ks := by
    intro ks hks
    cases ks with
    | nil => rfl
    | cons k ks => rw [List.dropWhile_cons_of_neg (by simp [hks k rfl])]
  have hlast := endsInk_dropBlankEnds ls
  rw [EndsInk, ← List.head?_reverse] at hlast
  conv => lhs; rw [dropBlankEnds, hstay _ (fun _ => head?_dropBlankEnds), hstay _ hlast, List.reverse_reverse]

theorem dropBlankEnds_concat {l : Text} (hl : allBlank l = true) (ls : List Text) :
    dropBlankEnds (ls ++ [l]) = dropBlankEnds ls := by
  rw [dropBlankEnds, dropBlankEnds, List.dropWhile_append]
  split
  · rename_i h
    rw [List.isEmpty_iff.1 h, List.dropWhile_cons_of_pos hl]
    rfl
  · rw [List.reverse_append, List.reverse_singleton, List.singleton_append, List.dropWhile_cons_of_pos hl]

/-! ## Lines put together and cut again -/

section

variable {ls : List Text} (hu : ∀ l ∈ ls, l.Unbroken)

include hu

theorem lines_unrows_of_endsInk (h : EndsInk ls) : Text.lines (Text.unrows ls) = ls := by
  cases hlast : ls.getLast? with
  | none => rw [List.getLast?_eq_none_iff.1 hlast]; rfl
  | some k =>
    have hk : k.isEmpty = false := by
      cases k with
      | nil => exact absurd (h [] hlast) (by simp)
      | cons c k => rfl
    obtain ⟨ks, rfl⟩ := List.getLast?_eq_some_iff.1 hlast
    rw [Text.lines_unrows (hu k (by simp)) (fun l hl => hu l (by simp [hl])), hk]
    rfl

theorem dropBreaks_unrows (h : EndsInk ls) : Text.dropEndWhile (· = '\n') (Text.unrows ls) = Text.unrows ls := by
  cases hlast : ls.getLast? with
  | none => rw [List.getLast?_eq_none_iff.1 hlast]; rfl
  | some k =>
    cases hchar : k.getLast? with
    | none => exact absurd (h k hlast) (by simp [List.getLast?_eq_none_iff.1 hchar])
    | some c =>
      obtain ⟨ks, rfl⟩ := List.getLast?_eq_some_iff.1 hlast
      have hc : c ≠ '\n' := fun hc => (hu k (by simp)).feed_not_mem (hc ▸ List.mem_of_getLast? hchar)
      obtain ⟨z, rfl⟩ := List.getLast?_eq_some_iff.1 hchar
      rw [Text.unrows_concat, ← List.append_assoc, Text.dropEndWhile, List.reverse_append, List.reverse_singleton,
        List.singleton_append, List.dropWhile_cons_of_neg (by simpa using hc), List.reverse_cons, List.reverse_reverse]

theorem dropBlankEnds_lines : dropBlankEnds (Text.lines (Text.unrows ls)) = dropBlankEnds ls := by
  cases hlast : ls.getLast? with
  | none => rw [List.getLast?_eq_none_iff.1 hlast]; rfl
  | some k =>
    obtain ⟨ks, rfl⟩ := List.getLast?_eq_some_iff.1 hlast
    rw [Text.lines_unrows (hu k (by simp)) (fun l hl => hu l (by simp [hl]))]
    cases k with
    | nil => rw [dropBlankEnds_concat allBlank_nil]; simp
    | cons c k => rfl

end

/-! ## The code of a block -/

theorem count_trimRight {c : Char} (hc : isBlank c = false) (t : Text) : (Text.trimRight t).count c = (Text.trim t).count c := by
  rw [← count_ink hc, ink_trimRight, ← ink_trim, count_ink hc]

theorem isEmpty_trimRight (t : Text) : (Text.trimRight t).isEmpty = (Text.trim t).isEmpty := by
  rw [Bool.eq_iff_iff, List.isEmpty_iff, List.isEmpty_iff, Text.trimRight_eq_nil_iff, Text.trim_eq_nil_iff]

/-- A line laid out by braces depends on its trimmed text. -/
theorem indentLines_cons (width : Int) (depth : Nat) (raw : Text) (rest : List Text) :
    indentLines width depth (raw :: rest)
      = (if (Text.trim raw).isEmpty then [] else
          Text.spaces ((depth - ((Text.trim raw).takeWhile (· = '\x7d')).length : Nat) * width) ++ Text.trim raw)
        :: indentLines width (depth + (Text.trim raw).count '\x7b' - (Text.trim raw).count '\x7d') rest := by
  rw [indentLines, isEmpty_trimRight, Text.trimLeft_trimRight, count_trimRight (by decide), count_trimRight (by decide)]
  simp only
  split
  · rename_i h
    rw [List.isEmpty_iff.1 h]
    rfl
  · rfl

theorem indentLines_trim (width : Int) : ∀ (ls : List Text) (depth : Nat),
    indentLines width depth (ls.map Text.trim) = indentLines width depth ls
  | [], _ => rfl
  | l :: ls, depth => by
    rw [List.map_cons, indentLines_cons, indentLines_cons, Text.trim_idem, indentLines_trim width ls]

theorem map_trim_indentLines (width : Int) : ∀ (ls : List Text) (depth : Nat),
    (indentLines width depth ls).map Text.trim = ls.map Text.trim
  | [], _ => rfl
  | l :: ls, depth => by
    have hspaces : ∀ n : Int, allBlank (Text.spaces n) = true := fun n =>
      allBlank_iff.2 (fun c hc => by rw [List.eq_of_mem_replicate hc]; rfl)
    rw [indentLines_cons, List.map_cons, List.map_cons, map_trim_indentLines width ls]
    split
    · rename_i hl
      rw [List.isEmpty_iff.1 hl]
      rfl
    · rw [Text.trim_append_of_blank (hspaces _), Text.trim_idem]

/-- Laying out by braces adds nothing but spaces. -/
theorem mem_indentLines {width : Int} {c : Char} : ∀ {ls : List Text} {depth : Nat} {k : Text},
    k ∈ indentLines width depth ls → c ∈ k → c = ' ' ∨ ∃ l ∈ ls, c ∈ l
  | [], _, _, hk, _ => by cases hk
  | l :: ls, depth, k, hk, hc => by
    rw [indentLines_cons] at hk
    rcases List.mem_cons.1 hk with rfl | hk
    · split at hc
      · cases hc
      · rcases List.mem_append.1 hc with hc | hc
        · exact Or.inl (List.eq_of_mem_replicate hc)
        · exact Or.inr ⟨l, List.mem_cons_self, (Text.trim_isInfix l).subset hc⟩
    · exact (mem_indentLines hk hc).imp id (fun ⟨m, hm, hcm⟩ => ⟨m, List.mem_cons_of_mem l hm, hcm⟩)

theorem trim_dropPad {ind : Text} (h : ∀ c ∈ ind, isPad c = true) (line : Text) :
    Text.trim (dropPad ind line) = Text.trim line := by
  unfold dropPad
  cases ha : Text.after? ind line with
  | none => rfl
  | some rest =>
    rw [Text.after?_eq_some ha, Text.trim_append_of_blank (allBlank_iff.2 (fun c hc => isBlank_of_isPad (h c hc)))]
    rfl

theorem mem_of_mem_dropBlankEnds {ls : List Text} {l : Text} (h : l ∈ dropBlankEnds ls) : l ∈ ls := by
  rw [eq_dropBlankEnds ls]
  simp [h]

theorem mem_of_mem_dropPad {ind line : Text} {c : Char} (h : c ∈ dropPad ind line) : c ∈ line := by
  unfold dropPad at h
  cases ha : Text.after? ind line with
  | none => rwa [ha] at h
  | some rest =>
    rw [ha] at h
    rw [Text.after?_eq_some ha]
    exact List.mem_append_right ind h

/-- **The lines of a dedented text**: those of the text, but for blank ones at the ends, without the indentation they share. -/
theorem lines_dedent (t : Text) : Text.lines (dedent t)
    = (dropBlankEnds (Text.lines t)).map (dropPad (commonPad (dropBlankEnds (Text.lines t)))) := by
  have hunbroken : ∀ l ∈ dropBlankEnds (Text.lines t), l.Unbroken := fun l hl c hc =>
    (Text.mem_of_mem_lines (mem_of_mem_dropBlankEnds hl) hc).2
  have hend := endsInk_dropBlankEnds (Text.lines t)
  rw [dedent]
  generalize dropBlankEnds (Text.lines t) = ls at hunbroken hend
  have htrim : (ls.map (dropPad (commonPad ls))).map Text.trim = ls.map Text.trim := by
    rw [List.map_map]
    exact List.map_congr_left (fun l _ => trim_dropPad (isPad_commonPad ls) l)
  refine lines_unrows_of_endsInk (fun l hl => ?_) (hend.of_trim htrim)
  obtain ⟨k, hk, rfl⟩ := List.mem_map.1 hl
  exact fun c hc => hunbroken k hk c (mem_of_mem_dropPad hc)

/-- The code of a block has the lines of its body, but for blank ones at the ends and for their indentation. -/
theorem map_trim_lines_dedent {body : List Text} (hu : ∀ l ∈ body, l.Unbroken) :
    (Text.lines (dedent (Text.unrows body))).map Text.trim = (dropBlankEnds body).map Text.trim := by
  rw [lines_dedent, dropBlankEnds_lines hu, List.map_map]
  exact List.map_congr_left (fun l _ => trim_dropPad (isPad_commonPad _) l)

/-- **The code of a block, laid out by braces**: its lines but for blank ones at the ends, each at its depth. -/
theorem lines_indentByBraces (width : Int) {body : List Text} (hu : ∀ l ∈ body, l.Unbroken) :
    Text.lines (Text.dropEndWhile (· = '\n') (indentByBraces (dedent (Text.unrows body)) width))
      = indentLines width 0 (dropBlankEnds body) := by
  have hindent : indentLines width 0 (Text.lines (dedent (Text.unrows body))) = indentLines width 0 (dropBlankEnds body) := by
    rw [← indentLines_trim, map_trim_lines_dedent hu, indentLines_trim]
  have hunbroken : ∀ l ∈ indentLines width 0 (dropBlankEnds body), l.Unbroken := by
    intro l hl c hc
    rcases mem_indentLines hl hc with rfl | ⟨k, hk, hck⟩
    · decide
    · exact hu k (mem_of_mem_dropBlankEnds hk) c hck
  have hlast : EndsInk (indentLines width 0 (dropBlankEnds body)) :=
    (endsInk_dropBlankEnds body).of_trim (map_trim_indentLines width (dropBlankEnds body) 0)
  rw [indentByBraces, hindent, dropBreaks_unrows hunbroken hlast, lines_unrows_of_endsInk hunbroken hlast]

/-- What is too wide in a block depends on the trimmed lines of its code. -/
theorem wideLine?_trim (width : Int) : ∀ (ls : List Text) (depth : Nat),
    wideLine? width depth (ls.map Text.trim) = wideLine? width depth ls
  | [], _ => rfl
  | l :: ls, depth => by
    simp only [List.map_cons, wideLine?, isEmpty_trimRight, Text.trimLeft_trimRight, Text.trim_idem,
      count_trimRight (show isBlank '\x7b' = false by decide), count_trimRight (show isBlank '\x7d' = false by decide),
      wideLine?_trim width ls]

end EpFormat
