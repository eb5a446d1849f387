import Mathlib.Data.List.Forall2
import EpFormat.Proofs.Blocks
import EpFormat.Proofs.Inline
/-!
# Segments — the lines of a text cut into blocks and single lines

From left to right, a line that opens a block begins one if a later line closes it, and the block goes up to the first such
line; every other line stands alone.  There is one way to cut lines like this.  In a text whose lines end with line feeds
alone, the lines that stand alone stay as they are and where they are, and each block is written between its delimiters,
whatever the tidier answers (`blocks_segmented`).
-/
namespace EpFormat

open Template Template.Tag Perl

/-- Lines cut from left to right: into blocks up to the first line that closes them, and into lines that stand alone. -/
inductive Segments : List Text → List (Piece Text Block) → Prop
  | nil : Segments [] []
  | line {l : Text} {rest : List Text} {pieces : List (Piece Text Block)}
      (alone : ¬ ((∃ o : Opening, o.Opens l) ∧ ∃ k ∈ rest, ∃ right, Closes k right)) (h : Segments rest pieces) :
      Segments (l :: rest) (.item l :: pieces)
  | block {l close : Text} {o : Opening} {right : Bool} {body rest : List Text} {pieces : List (Piece Text Block)}
      (hopen : o.Opens l) (hbody : ∀ k ∈ body, ∀ r, ¬ Closes k r) (hclose : Closes close right)
      (h : Segments rest pieces) :
      Segments (l :: (body ++ close :: rest)) (.hit ⟨o, body, right⟩ (l :: (body ++ [close])) :: pieces)

theorem readClosing?_eq_none_iff {line : Text} : readClosing? line = none ↔ ∀ right, ¬ Closes line right := by
  rw [Option.eq_none_iff_forall_ne_some]
  exact forall_congr' (fun right => not_congr readClosing?_iff_closes)

theorem finder_eq_none_iff_alone {l : Text} {rest : List Text} : Block.finder none (l :: rest) = none ↔
    ¬ ((∃ o : Opening, o.Opens l) ∧ ∃ k ∈ rest, ∃ right, Closes k right) := by
  have hopen : Opening.read? l = none ↔ ¬ ∃ o : Opening, o.Opens l := by
    rw [Option.eq_none_iff_forall_ne_some, not_exists]
    exact forall_congr' (fun o => not_congr Opening.read?_iff_opens)
  have hclose : (∀ k ∈ rest, readClosing? k = none) ↔ ¬ ∃ k ∈ rest, ∃ right, Closes k right := by
    simp only [readClosing?_eq_none_iff, not_exists, not_and]
  rw [Block.finder_eq_none_iff, hopen, hclose, not_and_or]

/-- **There is one way to cut lines into blocks and single lines**, and the search for blocks finds it. -/
theorem segments_iff {ls : List Text} {pieces : List (Piece Text Block)} :
    Segments ls pieces ↔ pieces = scan Block.finder ls := by
  constructor
  · intro h
    induction h with
    | nil => rfl
    | line alone _ ih => rw [Block.scan_line (finder_eq_none_iff_alone.2 alone), ih]
    | block hopen hbody hclose _ ih =>
      rw [Block.scan_block (Opening.read?_iff_opens.2 hopen) (readClosing?_iff_closes.2 hclose)
        (fun k hk => readClosing?_eq_none_iff.2 (hbody k hk)), ih]
  · rintro rfl
    induction ls using Block.block_induct with
    | nil => exact .nil
    | line l rest hl ih =>
      rw [Block.scan_line hl]
      exact .line (finder_eq_none_iff_alone.1 hl) ih
    | block l o body close right post hopen hclose hbody ih =>
      rw [Block.scan_block hopen hclose hbody]
      exact .block (Opening.read?_iff_opens.1 hopen) (fun k hk => readClosing?_eq_none_iff.1 (hbody k hk))
        (readClosing?_iff_closes.1 hclose) ih

section

variable (tidier : Tidier) (cfg : Config)

/-! ## Pieces as they are written -/

/-- Code that may stand in a block: what the tidier makes of the block's code in some session, or the block laid out by
braces. -/
def Template.Block.Becomes (b : Block) (code : Text) : Prop :=
  (∃ s : Session, ((tidyBlock tidier cfg b.code).run s).1 = some code) ∨ code = indentByBraces b.code cfg.indentWidth

/-- The lines that a piece is written as.  A line stands as it is.  A block stands between its delimiters at the indentation
of its opening line, and so does every line of its code. -/
inductive Emits : Piece Text Block → List Text → Prop
  | line (l : Text) : Emits (.item l) [l]
  | block {b : Block} {inner : List Text} {code : Text} (source : List Text) (base : ∀ k ∈ inner, b.opening.base <+: k)
      (becomes : b.Becomes tidier cfg code)
      (lines : inner.map (List.drop b.opening.base.length) = Text.lines (Text.dropEndWhile (· = '\n') code)) :
      Emits (.hit b source) ((b.opening.base ++ ['<', '%'] ++ chomp b.opening.left)
        :: (inner ++ [b.opening.base ++ chomp b.right ++ ['%', '>']]))

/-- A block for which the tidier has nothing in some session, and which is too wide when it is laid out by braces. -/
def Template.Block.Overflows (b : Block) (e : WidthError) : Prop :=
  (∃ s : Session, ((tidyBlock tidier cfg b.code).run s).1 = none) ∧ wideLine? cfg.indentWidth 0 (Text.lines b.code) = some e

variable {tidier cfg}

theorem emits_layOut {b : Block} {code : Text} (h : b.Becomes tidier cfg code) (source : List Text) :
    Emits tidier cfg (.hit b source) (b.layOut code) := by
  refine .block source (fun k hk => ?_) h ?_
  · obtain ⟨l, -, rfl⟩ := List.mem_map.1 hk
    exact List.prefix_append _ l
  · rw [List.map_map]
    refine (List.map_congr_left (fun l _ => ?_)).trans (List.map_id _)
    exact List.drop_left

theorem ensures_tidyBody (b : Block) (first last : Nat) :
    Ensures (Block.tidyBody tidier cfg first last b.code) (b.Becomes tidier cfg) := by
  refine Ensures.reached.bind (fun a ha => ?_)
  cases a with
  | none => exact Ensures.after (fun _ => Ensures.pure (Or.inr rfl))
  | some code => exact Ensures.after (fun _ => Ensures.pure (Or.inl ha))

theorem ensures_pieces : ∀ (pieces : List (Piece Text Block)) (first : Nat),
    Ensures (Block.formatPieces tidier cfg first pieces) (List.Forall₂ (Emits tidier cfg) pieces)
  | [], _ => Ensures.pure .nil
  | .item l :: rest, first =>
    (ensures_pieces rest (first + 1)).bind (fun _ hmore => Ensures.pure (.cons (.line l) hmore))
  | .hit b source :: rest, first => by
    have hblock : Ensures (Block.format tidier cfg first b) (Emits tidier cfg (.hit b source)) :=
      (ensures_tidyBody b _ _).bind (fun _ hcode => Ensures.pure (emits_layOut hcode source))
    refine hblock.bind (fun _ hls => ?_)
    exact (ensures_pieces rest _).bind (fun _ hmore => Ensures.pure (.cons hls hmore))

/-- What becomes of pieces with any width: each is written, or one of the blocks is too wide. -/
def Fits (tidier : Tidier) (cfg : Config) (done : List (List Text)) (pieces : List (Piece Text Block))
    (r : Except WidthError (List (List Text))) : Prop :=
  (∃ emitted, r = .ok (done.reverse ++ emitted) ∧ List.Forall₂ (Emits tidier cfg) pieces emitted) ∨
    ∃ e, r = .error e ∧ ∃ b source, Piece.hit b source ∈ pieces ∧ b.Overflows tidier cfg e

theorem Fits.cons {p : Piece Text Block} {ls : List Text} (hp : Emits tidier cfg p ls) {done : List (List Text)}
    {pieces : List (Piece Text Block)} {r : Except WidthError (List (List Text))} (h : Fits tidier cfg (ls :: done) pieces r) :
    Fits tidier cfg done (p :: pieces) r := by
  rcases h with ⟨emitted, rfl, hmore⟩ | ⟨e, rfl, b, source, hb, he⟩
  · refine Or.inl ⟨ls :: emitted, ?_, .cons hp hmore⟩
    rw [List.reverse_cons, List.append_assoc]
    rfl
  · exact Or.inr ⟨e, rfl, b, source, List.mem_cons_of_mem p hb, he⟩

theorem ensures_blocksWithin : ∀ (pieces : List (Piece Text Block)) (done : List (List Text)) (first : Nat),
    Ensures (blocksWithin tidier cfg done first pieces) (Fits tidier cfg done pieces)
  | [], done, _ => Ensures.pure (Or.inl ⟨[], by rw [List.append_nil], .nil⟩)
  | .item l :: rest, done, first => fun s => Fits.cons (.line l) (ensures_blocksWithin rest ([l] :: done) (first + 1) s)
  | .hit b source :: rest, done, first => by
    have hmore : ∀ code, b.Becomes tidier cfg code →
        Ensures (blocksWithin tidier cfg (b.layOut code :: done) (first + source.length) rest)
          (Fits tidier cfg done (.hit b source :: rest)) := fun code hcode s =>
      Fits.cons (emits_layOut hcode source) (ensures_blocksWithin rest _ _ s)
    refine Ensures.reached.bind (fun a ha => ?_)
    cases a with
    | some code => exact Ensures.after (fun _ => hmore code (Or.inl ha))
    | none =>
      refine Ensures.after (fun _ => ?_)
      cases hwide : wideLine? cfg.indentWidth 0 (Text.lines b.code) with
      | some e =>
        rw [indentWithin, hwide]
        exact Ensures.pure (Or.inr ⟨e, rfl, b, source, List.mem_cons_self, ha, hwide⟩)
      | none =>
        rw [indentWithin, hwide]
        exact hmore _ (Or.inr rfl)

/-! ## The lines of the result -/

/-- Lines that may stand in a text in the place of others: the text ends with a line feed or not, as it did. -/
structure Replaces (ls out : List Text) : Prop where
  unbroken : ∀ l ∈ out, l.Unbroken
  nil_iff : out = [] ↔ ls = []
  last : (∀ l ∈ ls.getLast?, l ≠ []) → ∀ l ∈ out.getLast?, l ≠ []

theorem Replaces.append {a x ls out : List Text} (ha : Replaces a x) (h : Replaces ls out) : Replaces (a ++ ls) (x ++ out) where
  unbroken l hl := (List.mem_append.1 hl).elim (ha.unbroken l) (h.unbroken l)
  nil_iff := by rw [List.append_eq_nil_iff, List.append_eq_nil_iff, ha.nil_iff, h.nil_iff]
  last hlast := by
    by_cases hls : ls = []
    · rw [hls, List.append_nil] at hlast
      rw [h.nil_iff.2 hls, List.append_nil]
      exact ha.last hlast
    · rw [List.getLast?_append_of_ne_nil _ hls] at hlast
      rw [List.getLast?_append_of_ne_nil _ (mt h.nil_iff.1 hls)]
      exact h.last hlast

theorem replaces_line {l : Text} (h : l.Unbroken) : Replaces [l] [l] :=
  ⟨fun _ hk => List.mem_singleton.1 hk ▸ h, by simp, id⟩

theorem Emits.replaces {b : Block} {source out : List Text} (h : Emits tidier cfg (.hit b source) out)
    (hbase : ∀ c ∈ b.opening.base, isPad c = true) (hs : source ≠ []) : Replaces source out := by
  cases h with
  | @block _ inner code _ hinner _ hlines =>
    refine ⟨?_, by simp [hs], ?_⟩
    · intro l hl
      rcases List.mem_cons.1 hl with rfl | hl
      · exact (plain_text hbase).unbroken
      rcases List.mem_append.1 hl with hl | hl
      · -- Past the indentation such a line is a line of the code.
        have hcode : l.drop b.opening.base.length ∈ Text.lines (Text.dropEndWhile (· = '\n') code) := by
          rw [← hlines]
          exact List.mem_map_of_mem hl
        rw [← List.prefix_iff_eq_append.1 (hinner l hl)]
        intro c hc
        exact (List.mem_append.1 hc).elim ((Plain.of_pad hbase).unbroken c) (unbroken_of_mem_lines _ hcode c)
      · rw [List.mem_singleton.1 hl]
        exact (plain_closing hbase b.right).unbroken
    · rw [← List.cons_append, List.getLast?_concat]
      simp

theorem Segments.replaces {ls : List Text} {pieces : List (Piece Text Block)} (h : Segments ls pieces) :
    ∀ {emitted : List (List Text)}, (∀ l ∈ ls, l.Unbroken) → List.Forall₂ (Emits tidier cfg) pieces emitted →
      Replaces ls emitted.flatten := by
  induction h with
  | nil =>
    intro emitted _ he
    cases he
    exact ⟨by simp, by simp, fun h => h⟩
  | line _ _ ih =>
    intro emitted hu he
    obtain ⟨hline, hu⟩ := List.forall_mem_cons.1 hu
    cases he with
    | cons hl hmore =>
      cases hl
      exact (replaces_line hline).append (ih hu hmore)
  | block hopen hbody hclose _ ih =>
    intro emitted hu he
    cases he with
    | cons hb hmore =>
      have hrest := ih (fun k hk => hu k (by simp [hk])) hmore
      have happend := (hb.replaces hopen.1 (by simp)).append hrest
      rwa [List.cons_append, List.append_assoc, List.singleton_append] at happend

/-- The rows of a text whose lines end with line feeds alone are without line breaks. -/
theorem unbroken_rows_of_feeds {t : Text} (hlf : ∀ c ∈ t, isLineBreak c = true → c = '\n') : ∀ r ∈ Text.rows t, r.Unbroken := by
  intro r hr c hc
  cases hb : isLineBreak c with
  | false => rfl
  | true =>
    rw [hlf c ((infix_of_mem_rows hr).subset hc) hb] at hc
    exact absurd hc (feed_not_mem_rows hr)

/-- The last line of a text that does not end with a line feed is not empty. -/
theorem last_line_ne_nil {t : Text} (hlf : ∀ c ∈ t, isLineBreak c = true → c = '\n') (h : t.getLast? ≠ some '\n') :
    ∀ l ∈ (Text.lines t).getLast?, l ≠ [] := by
  have hrows := unbroken_rows_of_feeds hlf
  have ht := Text.unrows_rows t
  obtain ⟨ks, k, hk⟩ := (List.eq_nil_or_concat (Text.rows t)).resolve_left (Text.rows_ne_nil t)
  rw [List.concat_eq_append] at hk
  rw [hk] at hrows ht
  rw [← ht, Text.lines_unrows (hrows k (by simp)) (fun r hr => hrows r (by simp [hr]))]
  by_cases hne : k = []
  · -- An empty last row means a line feed at the end, unless it is the only one.
    subst hne
    by_cases hks : ks = []
    · subst hks
      simp
    · rw [Text.unrows_feed hks] at ht
      exact absurd (ht ▸ List.getLast?_concat) h
  · simp [hne]

/-- **A text put together again has the lines that it is made of**, and ends with a line feed if it did. -/
theorem lines_assemble {t : Text} {out : List Text} (hlf : ∀ c ∈ t, isLineBreak c = true → c = '\n')
    (h : Replaces (Text.lines t) out) :
    let w := Text.unrows out ++ (if t.getLast? = some '\n' then ['\n'] else [])
    Text.lines w = out ∧ (w.getLast? = some '\n' ↔ t.getLast? = some '\n') := by
  intro w
  by_cases hfeed : t.getLast? = some '\n'
  · have hne : out ≠ [] := mt h.nil_iff.1 (Text.lines_ne_nil (List.ne_nil_of_mem (List.mem_of_getLast? hfeed)))
    have hw : w = Text.unrows out ++ ['\n'] := by simp only [w, if_pos hfeed]
    rw [hw]
    refine ⟨?_, by simp [hfeed]⟩
    rw [← Text.unrows_feed hne, Text.lines_unrows (by simp) h.unbroken]
    simp
  · have hw : w = Text.unrows out := by simp only [w, if_neg hfeed, List.append_nil]
    have hlast := h.last (last_line_ne_nil hlf hfeed)
    rw [hw]
    rcases List.eq_nil_or_concat out with rfl | ⟨ks, k, hk⟩
    · exact ⟨rfl, by simp [hfeed, Text.unrows, Text.join]⟩
    · rw [List.concat_eq_append] at hk
      subst hk
      have hk : k.Unbroken := h.unbroken k (by simp)
      have hne : k ≠ [] := hlast k (by simp)
      rw [Text.lines_unrows hk (fun r hr => h.unbroken r (by simp [hr])), Text.getLast?_unrows hne]
      refine ⟨by simp [hne], ?_⟩
      simp only [hfeed, iff_false]
      exact fun hlf => hk.feed_not_mem (List.mem_of_getLast? hlf)

/-- A text whose lines end with line feeds alone is its lines put together. -/
theorem assemble_lines {t : Text} (hlf : ∀ c ∈ t, isLineBreak c = true → c = '\n') :
    Text.unrows (Text.lines t) ++ (if t.getLast? = some '\n' then ['\n'] else []) = t := by
  have hrows := Text.unrows_lines (unbroken_rows_of_feeds hlf)
  rwa [Text.unrows_rows] at hrows

theorem formatBlocksWithin_usual (hw : cfg.usualWidth = true) (t : Text) (s : Session) :
    ((formatBlocksWithin tidier cfg t).run s).1 = .ok ((Block.formatAll tidier cfg t).run s).1 := by
  rw [formatBlocksWithin, if_pos hw]
  rfl

/-- The pieces of a text are written one by one, unless the width is huge and one of its blocks is too wide. -/
theorem ensures_formatBlocksWithin (t : Text) : Ensures (formatBlocksWithin tidier cfg t) (fun r =>
    (∃ emitted, r = .ok (Block.assemble t emitted) ∧
      List.Forall₂ (Emits tidier cfg) (scan Block.finder (Text.lines t)) emitted) ∨
    ∃ e, r = .error e ∧ cfg.usualWidth = false ∧
      ∃ b source, Piece.hit b source ∈ scan Block.finder (Text.lines t) ∧ b.Overflows tidier cfg e) := by
  rw [formatBlocksWithin]
  cases hw : cfg.usualWidth with
  | true =>
    refine Ensures.bind (p := fun out => ∃ emitted, out = Block.assemble t emitted ∧
      List.Forall₂ (Emits tidier cfg) (scan Block.finder (Text.lines t)) emitted) ?_ ?_
    · exact (ensures_pieces _ 1).bind (fun emitted he => Ensures.pure ⟨emitted, rfl, he⟩)
    · rintro _ ⟨emitted, rfl, he⟩
      exact Ensures.pure (Or.inl ⟨emitted, rfl, he⟩)
  | false =>
    refine (ensures_blocksWithin _ [] 1).bind (fun r hr => ?_)
    rcases hr with ⟨emitted, rfl, he⟩ | ⟨e, rfl, hb⟩
    · exact Ensures.pure (Or.inl ⟨emitted, rfl, he⟩)
    · exact Ensures.pure (Or.inr ⟨e, rfl, rfl, hb⟩)

end

end EpFormat
