import EpFormat.Proofs.Blocks
/-!
# Idempotence — formatting a formatted template

Without a tidier, and with spaces, tabs and line ends as the only white space, a formatted template stays as it is
(`format_again`).  The second pass has one row more than the lines of the first, the empty one after the last line end,
and where the width of the settings is huge that row alone may be too wide.
-/
namespace EpFormat

open Template Template.Tag Perl

namespace Treatment

variable {τ : Treatment} {cfg : Config}

/-! ## The lines of the result -/

/-- If the last line is not empty, it does not come out empty. -/
theorem getLast?_blocks (ls : List Text) (h : ∃ l ∈ ls.getLast?, l ≠ []) : ∃ l ∈ (τ.blocks ls).getLast?, l ≠ [] := by
  induction ls using Block.block_induct with
  | nil => exact h
  | line line rest hl ih =>
    rw [τ.blocks_line hl]
    cases rest with
    | nil => exact h
    | cons r rest =>
      obtain ⟨l, hlast, hne⟩ := ih (by rwa [List.getLast?_cons_cons] at h)
      exact ⟨l, by rw [List.getLast?_cons, Option.mem_def.1 hlast]; rfl, hne⟩
  | block line o body close right post hopen hclose hbody ih =>
    rw [τ.blocks_block hopen hclose hbody, List.getLast?_append]
    cases post with
    | nil =>
      refine ⟨o.base ++ chomp right ++ ['%', '>'], ?_, by simp⟩
      have hnil : τ.blocks [] = [] := rfl
      rw [hnil, List.getLast?_nil, Option.none_or, blockLines, Block.layOut, List.getLast?_append]
      rfl
    | cons p post =>
      have hpost : (line :: (body ++ close :: p :: post)).getLast? = (p :: post).getLast? := by
        rw [List.getLast?_cons, List.getLast?_append, List.getLast?_cons_cons, List.getLast?_cons]
        rfl
      obtain ⟨l, hlast, hne⟩ := ih (by rwa [hpost] at h)
      exact ⟨l, by rw [Option.mem_def.1 hlast]; rfl, hne⟩

end Treatment

namespace Treatment

variable {τ : Treatment} {cfg : Config}

/-- **The result ends with one line end after its lines.** -/
theorem endLine_blockText (hb : τ.Lays cfg) {ls : List Text} (hu : ∀ l ∈ ls, l.Unbroken) (hne : ls ≠ []) :
    endLine (τ.blockText (Text.unrows ls)) = Text.unrows (τ.blocks (Text.lines (Text.unrows ls))) ++ ['\n'] := by
  rw [blockText]
  by_cases hlast : (Text.unrows ls).getLast? = some '\n'
  · rw [if_pos hlast, endLine, List.getLast?_append]
    rfl
  · rw [if_neg hlast, List.append_nil, endLine, if_neg]
    intro hfeed
    obtain ⟨k, hk⟩ : ∃ k, ls.getLast? = some k := ⟨ls.getLast hne, List.getLast?_eq_some_getLast hne⟩
    obtain ⟨ks, rfl⟩ := List.getLast?_eq_some_iff.1 hk
    by_cases hempty : k = []
    · subst hempty
      cases ks with
      | nil => cases hfeed
      | cons m ks =>
        rw [Text.unrows_feed (by simp), List.getLast?_append] at hlast
        exact hlast rfl
    · have hlines : Text.lines (Text.unrows (ks ++ [k])) = ks ++ [k] := by
        rw [Text.lines_unrows (hu k (by simp)) (fun l hl => hu l (by simp [hl])), if_neg (by simpa using hempty)]
      obtain ⟨l, hl, hl'⟩ := τ.getLast?_blocks (ks ++ [k]) ⟨k, hk, hempty⟩
      obtain ⟨bs, hbs⟩ := List.getLast?_eq_some_iff.1 (Option.mem_def.1 hl)
      rw [hlines, hbs, Text.getLast?_unrows hl'] at hfeed
      exact (unbroken_blocks hb hu l (List.mem_of_getLast? hl)).feed_not_mem (List.mem_of_getLast? hfeed)

section

variable (hτ : τ.Settling) (hin : τ.Inward) (hd : cfg.normalizeDelimiters = true) {source : Text}
  (hr : ∀ r ∈ Text.rows (Eol.unify source), Regular r)

include hτ hin hd hr

/-- The lines of the first pass are those of rows that lead to the same place: the rows of the template, or all but the
last of them. -/
theorem exists_rows : ∃ rs : List Text, rs ≠ [] ∧ (∀ r ∈ rs, Regular r) ∧
    ({} : Place).through rs = ({} : Place).through (Text.rows (Eol.unify source)) ∧
    (∀ level ∈ ({} : Place).levels rs, level ∈ ({} : Place).levels (Text.rows (Eol.unify source))) ∧
    Text.unrows (τ.blocks (Text.lines (τ.laid cfg source))) = Text.unrows (τ.blocks (τ.rows cfg {} rs)) ∧
    finds Block.finder (Text.lines (τ.laid cfg source)) = finds Block.finder (τ.rows cfg {} rs) := by
  have hne := Text.rows_ne_nil (Eol.unify source)
  rw [laid]
  generalize Text.rows (Eol.unify source) = rows at hr hne
  obtain ⟨r, hlast⟩ : ∃ r, rows.getLast? = some r := ⟨rows.getLast hne, List.getLast?_eq_some_getLast hne⟩
  obtain ⟨rs, rfl⟩ := List.getLast?_eq_some_iff.1 hlast
  -- A last row that is written empty is no line of the first pass, and does not move the place.
  have hplain := plain_rows hτ hd {} (fun x hx => (hr x hx).plain)
  have hwritten : τ.rows cfg {} (rs ++ [r]) = τ.rows cfg {} rs ++ [τ.row cfg (({} : Place).through rs) r] := rows_append ..
  rw [hwritten] at hplain ⊢
  have hlines := Text.lines_unrows (hplain _ (List.mem_append_right _ List.mem_cons_self)).unbroken
    (fun l hl => (hplain l (List.mem_append_left _ hl)).unbroken)
  rw [hlines]
  by_cases hempty : τ.row cfg (({} : Place).through rs) r = []
  · rw [hempty]
    cases rs with
    | nil =>
      have hone : τ.rows cfg {} [r] = [[]] := congrArg (fun l => [l]) hempty
      exact ⟨[r], by simp, hr, rfl, fun _ h => h, by rw [hone]; rfl, by rw [hone]; rfl⟩
    | cons x xs =>
      have hstay : (({} : Place).through (x :: xs)).through [r] = ({} : Place).through (x :: xs) :=
        through_of_blank hτ hin hd (fun y hy => hr y (List.mem_append_right _ hy))
          (fun l hl => by rw [List.mem_singleton.1 hl, hempty]; rfl)
      refine ⟨x :: xs, by simp, fun y hy => hr y (List.mem_append_left _ hy), ?_, fun level hl => ?_, ?_, ?_⟩
      · rw [Place.through_append, hstay]
      · rw [Place.levels_append]
        exact List.mem_append_left _ hl
      · rw [List.isEmpty_nil, if_pos rfl, List.append_nil]
      · rw [List.isEmpty_nil, if_pos rfl, List.append_nil]
  · exact ⟨rs ++ [r], by simp, hr, rfl, fun _ h => h, by rw [hwritten, if_neg (by simpa using hempty)],
      by rw [hwritten, if_neg (by simpa using hempty)]⟩

/-- **The second pass**: from a text whose lines are those that the first pass came to. -/
theorem second_pass (hb : τ.Lays cfg) {out : Text}
    (hout : Eol.unify out = Text.unrows (τ.blocks (Text.lines (τ.laid cfg source))) ++ ['\n']) :
    (∀ r ∈ Text.rows (Eol.unify out), Plain r) ∧
    Text.unrows (τ.blocks (Text.lines (τ.laid cfg out))) = Text.unrows (τ.blocks (Text.lines (τ.laid cfg source))) ∧
    (∃ levels, ({} : Place).levels (Text.rows (Eol.unify out))
        = levels ++ [((({} : Place).through (Text.rows (Eol.unify source))).walk []).1] ∧
      ∀ level ∈ levels, level ∈ ({} : Place).levels (Text.rows (Eol.unify source))) ∧
    (finds Block.finder (Text.lines (τ.laid cfg out))).map (bodyError? cfg.indentWidth)
      = (finds Block.finder (Text.lines (τ.laid cfg source))).map (bodyError? cfg.indentWidth) := by
  obtain ⟨rs, hne, hreg, hthrough, hlevels, hlines, hfinds⟩ := exists_rows hτ hin hd hr
  have hagain := again_blocks hτ hin hd hb (τ.rows cfg {} rs) hreg rfl
  have hrsplain := plain_rows hτ hd {} (fun r hr => (hreg r hr).plain)
  have hplain := plain_blocks hb hrsplain
  have hwritten : τ.blocks (τ.rows cfg {} rs) ≠ [] := τ.blocks_ne_nil (by
    cases rs with
    | nil => exact absurd rfl hne
    | cons r rs => simp [rows])
  have hrows : Text.rows (Eol.unify out) = τ.blocks (τ.rows cfg {} rs) ++ [[]] := by
    rw [hout, hlines, ← Text.unrows_feed hwritten, Text.rows_unrows (by simp) (fun l hl => (hplain l hl).feed_not_mem)]
  have hlaid : Text.lines (τ.laid cfg out) = τ.rows cfg {} (τ.blocks (τ.rows cfg {} rs)) := by
    rw [laid, hrows, rows_append, rows_empty, Text.lines_unrows (by simp) (fun l hl => (plain_rows hτ hd _ hplain l hl).unbroken)]
    simp
  refine ⟨?_, ?_, ⟨({} : Place).levels (τ.blocks (τ.rows cfg {} rs)), ?_, fun level hl => hlevels _ (hagain.levels level hl)⟩, ?_⟩
  · rw [hrows]
    exact List.forall_mem_append.2 ⟨hplain, by simp [Plain]⟩
  · rw [hlaid, hagain.blocks, hlines]
  · rw [hrows, Place.levels_append, hagain.through, hthrough]
    rfl
  · rw [hlaid, hagain.errors, hfinds]

end

theorem format_eq (hb : τ.Lays cfg) {source : Text}
    (hu : ∀ l ∈ τ.rows cfg {} (Text.rows (Eol.unify source)), l.Unbroken) :
    τ.format cfg source = (if cfg.eol = .preserve then Eol.detect source else cfg.eol).apply
      (Text.unrows (τ.blocks (Text.lines (τ.laid cfg source))) ++ ['\n']) := by
  rw [format, finish, laid, endLine_blockText hb hu (rows_ne_nil (Text.rows_ne_nil _) {})]

theorem unbroken_rows_of_plain (hτ : τ.Settling) (hd : cfg.normalizeDelimiters = true) {rs : List Text}
    (hp : ∀ r ∈ rs, Plain r) : ∀ l ∈ τ.rows cfg {} rs, l.Unbroken := fun l hl => (plain_rows hτ hd {} hp l hl).unbroken

end Treatment

/-! ## Line ends -/

theorem regular_of_mem_rows {source : Text} (hblank : ∀ c ∈ source, isBlank c = true → c ∈ [' ', '\t', '\r', '\n'])
    (hu : Uncommented source) : ∀ r ∈ Text.rows (Eol.unify source), Regular r := by
  refine fun r hr => ⟨fun c hc hb => ?_, hu.of_mem_rows hr⟩
  obtain ⟨hsource, hfeed, hreturn⟩ := mem_of_mem_rows_unify hr hc
  have hcases := hblank c hsource hb
  simp only [List.mem_cons, hfeed, hreturn, or_false, List.not_mem_nil] at hcases
  rcases hcases with rfl | rfl <;> rfl

/-! ## Formatting again -/

/-- What is wrong with an empty row after the last one, at the width of the settings. -/
def lastRowError? (cfg : Config) (source : Text) : Option WidthError :=
  if cfg.usualWidth then none
  else cfg.levelError? ((({} : Place).through (Text.rows (Eol.unify source))).walk []).1

section

variable {τ : Treatment} {cfg : Config} (hτ : τ.Settling) (hin : τ.Inward) (hb : τ.Lays cfg)
  (hd : cfg.normalizeDelimiters = true) {source : Text} (hr : ∀ r ∈ Text.rows (Eol.unify source), Regular r)

include hτ hin hb hd hr

theorem Treatment.return_not_mem_result :
    '\r' ∉ Text.unrows (τ.blocks (Text.lines (τ.laid cfg source))) ++ ['\n'] := by
  obtain ⟨rs, -, hreg, -, -, hlines, -⟩ := Treatment.exists_rows hτ hin hd hr
  have hplain := Treatment.plain_rows hτ hd {} (fun r hr => (hreg r hr).plain)
  rw [hlines, List.mem_append, not_or]
  refine ⟨Text.return_not_mem_unrows (fun l hl => Text.Unbroken.return_not_mem ?_), by decide⟩
  exact (Treatment.plain_blocks hb hplain l hl).unbroken

/-- The result, its line ends unified, is its lines. -/
theorem Treatment.unify_format : Eol.unify (τ.format cfg source)
    = Text.unrows (τ.blocks (Text.lines (τ.laid cfg source))) ++ ['\n'] := by
  rw [Treatment.format_eq hb (Treatment.unbroken_rows_of_plain hτ hd (fun r h => (hr r h).plain)), Eol.unify_apply,
    Eol.unify_of_not_mem (Treatment.return_not_mem_result hτ hin hb hd hr)]

/-- **A formatted template stays as it is.** -/
theorem Treatment.format_format : τ.format cfg (τ.format cfg source) = τ.format cfg source := by
  have hsource := Treatment.format_eq hb (Treatment.unbroken_rows_of_plain hτ hd (fun r h => (hr r h).plain))
  obtain ⟨hplain, hsame, -, -⟩ := Treatment.second_pass hτ hin hd hr hb (Treatment.unify_format hτ hin hb hd hr)
  -- The line ends that are found in the result are those that it was written with.
  have heol : (if cfg.eol = .preserve then Eol.detect (τ.format cfg source) else cfg.eol)
      = if cfg.eol = .preserve then Eol.detect source else cfg.eol := by
    split
    · rename_i hp
      have hdetect : Eol.detect source ≠ .preserve := by
        rw [Eol.detect]
        split <;> decide
      rw [hsource, if_pos hp, Eol.detect_apply hdetect (Treatment.return_not_mem_result hτ hin hb hd hr) (by simp)]
    · rfl
  rw [Treatment.format_eq hb (Treatment.unbroken_rows_of_plain hτ hd hplain), heol, hsame, ← hsource]

end

section

variable {tidier : Tidier} {cfg : Config} {source : Text}

theorem lays_absent (cfg : Config) : (Treatment.absent cfg).Lays cfg := Treatment.absent_block cfg

/-- What is too wide for a second pass, if nothing was for the first: the empty row at the end. -/
theorem tooWide?_format (hd : cfg.normalizeDelimiters = true) (hk : cfg.keywordSpacing = false)
    (hr : ∀ r ∈ Text.rows (Eol.unify source), Regular r) (h : tooWide? noReply cfg source = none) :
    tooWide? noReply cfg ((Treatment.absent cfg).format cfg source) = lastRowError? cfg source := by
  have hτ := Treatment.settling_absent hk
  have hin := inward_absent hk
  obtain ⟨-, -, ⟨levels, hlevels, hold⟩, herrors⟩ := Treatment.second_pass hτ hin hd hr (lays_absent cfg)
    (Treatment.unify_format hτ hin (lays_absent cfg) hd hr)
  have hbody : blockError? noReply cfg = bodyError? cfg.indentWidth := rfl
  rw [tooWide?, hbody] at h ⊢
  rw [lastRowError?]
  split at h
  · rename_i hw
    rw [if_pos hw, if_pos hw]
  · rename_i hw
    rw [if_neg hw, if_neg hw]
    obtain ⟨hrows, hblocks⟩ := Option.or_eq_none_iff.1 h
    have hold' : levels.findSome? cfg.levelError? = none :=
      List.findSome?_eq_none_iff.2 (fun level hl => List.findSome?_eq_none_iff.1 hrows level (hold level hl))
    have hmap : ∀ bs : List Block, bs.findSome? (bodyError? cfg.indentWidth)
        = (bs.map (bodyError? cfg.indentWidth)).findSome? id := fun bs => by
      rw [List.findSome?_map]
      rfl
    have hblocks' : (finds Block.finder (Text.lines ((Treatment.absent cfg).laid cfg
        ((Treatment.absent cfg).format cfg source)))).findSome? (bodyError? cfg.indentWidth) = none := by
      rw [hmap, herrors, ← hmap]
      exact hblocks
    rw [hlevels, List.findSome?_append, hold', Option.none_or]
    refine (congrArg (Option.or _) hblocks').trans ?_
    rw [Option.or_none, List.findSome?_singleton]

end

end EpFormat
