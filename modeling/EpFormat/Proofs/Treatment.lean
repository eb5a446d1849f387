import EpFormat.Format
import EpFormat.Proofs.Scan
/-!
# Treatment — formatting with a tidier that answers by the code alone

The formatter runs the tidier again and again and keeps a session as it goes.  A tidier that is missing, one that always
fails, or one whose answer depends only on the code it is given, leaves no room for the session to matter: what becomes
of a statement, of an expression and of a block is then a function each.  A `Treatment` is these three functions, and the
definitions under it are the formatter without sessions.  `format_gives` says that it is the formatter.
-/
namespace EpFormat

/-! ## Work whose value no session changes -/

namespace Perl

/-- The work has the same value in every session. -/
def Gives {α : Type} (work : Tidying α) (a : α) : Prop := ∀ s : Session, (work.run s).1 = a

theorem Gives.pure {α : Type} (a : α) : Gives (Pure.pure a) a := fun _ => rfl

theorem Gives.bind {α β : Type} {work : Tidying α} {next : α → Tidying β} {a : α} {b : β} (hw : Gives work a)
    (hn : Gives (next a) b) : Gives (work >>= next) b := by
  intro s
  have h := hn (work.run s).2
  rw [← hw s] at h
  exact h

theorem Gives.after {α β : Type} {work : Tidying α} {next : α → Tidying β} {b : β}
    (h : ∀ s, Gives (next (work.run s).1) b) : Gives (work >>= next) b := fun s => h s _

theorem Gives.modify (f : Session → Session) : Gives (modify f : Tidying PUnit) ⟨⟩ := fun _ => rfl

theorem Gives.mapM {α β : Type} {f : α → Tidying β} {g : α → β} (h : ∀ a, Gives (f a) (g a)) :
    ∀ l : List α, Gives (l.mapM f) (l.map g)
  | [] => Gives.pure []
  | a :: l => by
    rw [List.mapM_cons]
    exact (h a).bind ((Gives.mapM h l).bind (Gives.pure _))

/-- Whatever the session, the value of the work has the property. -/
def Ensures {α : Type} (work : Tidying α) (p : α → Prop) : Prop := ∀ s : Session, p (work.run s).1

namespace Ensures

variable {α β : Type} {p : α → Prop} {q : β → Prop}

theorem pure {a : α} (h : p a) : Ensures (Pure.pure a) p := fun _ => h

theorem bind {work : Tidying α} {next : α → Tidying β} (hw : Ensures work p) (hn : ∀ a, p a → Ensures (next a) q) :
    Ensures (work >>= next) q := fun s => hn _ (hw s) _

theorem after {work : Tidying α} {next : α → Tidying β} (h : ∀ a, Ensures (next a) q) : Ensures (work >>= next) q :=
  fun _ => h _ _

/-- What work gives in one session, it gives in some session. -/
theorem reached {work : Tidying α} : Ensures work (fun a => ∃ s : Session, (work.run s).1 = a) := fun s => ⟨s, rfl⟩

theorem mapM {f : α → Tidying β} : ∀ {l : List α}, (∀ a ∈ l, Ensures (f a) q) → Ensures (l.mapM f) (fun bs => ∀ b ∈ bs, q b)
  | [], _ => pure (by simp)
  | a :: l, h => by
    rw [List.mapM_cons]
    refine (h a List.mem_cons_self).bind (fun b hb => ?_)
    refine (mapM (fun x hx => h x (List.mem_cons_of_mem a hx))).bind (fun bs hbs => ?_)
    exact pure (List.forall_mem_cons.2 ⟨hb, hbs⟩)

end Ensures

/-- The answer reads as an exit code and an output: both are of a failure, or neither is and the outputs are the same. -/
def Answer.Reads (answer : Answer) (reply : Int × Text) : Prop :=
  answer.code ≠ 0 ∧ reply.1 ≠ 0 ∨ answer.code = 0 ∧ reply.1 = 0 ∧ answer.out = reply.2

theorem Answer.reads_self (answer : Answer) : answer.Reads (answer.code, answer.out) := by
  by_cases h : answer.code = 0
  · exact Or.inr ⟨h, h, rfl⟩
  · exact Or.inl ⟨h, h⟩

theorem Answer.Reads.ite {answer : Answer} {reply : Int × Text} (h : answer.Reads reply) {α : Type} (failed : α)
    (f : Text → α) : (if answer.code ≠ 0 then failed else f answer.out) = if reply.1 ≠ 0 then failed else f reply.2 := by
  rcases h with ⟨ha, hr⟩ | ⟨ha, hr, hout⟩
  · rw [if_pos ha, if_pos hr]
  · rw [if_neg (not_not_intro ha), if_neg (not_not_intro hr), hout]

/-- The tidier answers by the code alone; `reply` is the exit code and the output. -/
def Steady (tidier : Tidier) (cfg : Config) (reply : Text → Int × Text) : Prop :=
  ∀ code s, ((runTidier tidier cfg code).run s).1.Reads (reply code)

/-- There is no tidier: none is found, or what is found cannot be started. -/
def Tidier.Unavailable (tidier : Tidier) (cfg : Config) : Prop :=
  tidier.program? cfg = none ∨ ∀ k input, tidier.run k input = .notStarted

/-- Every run of the tidier ends with a code for failure. -/
def Tidier.Failing (tidier : Tidier) : Prop :=
  ∀ k input, ∃ code out err, tidier.run k input = .exited code out err ∧ code ≠ 0

/-- There is a tidier, and every run of it ends well and gives back its input. -/
def Tidier.Echoes (tidier : Tidier) (cfg : Config) : Prop :=
  tidier.program? cfg ≠ none ∧ ∀ k input, ∃ err, tidier.run k input = .exited 0 input err

/-- Every run of the tidier does the same with the same input. -/
def Tidier.Functional (tidier : Tidier) : Prop := ∀ k input, tidier.run k input = tidier.run 0 input

/-- The reply where there is no tidier: a code for failure, and the input. -/
def noReply (code : Text) : Int × Text := (127, code)

theorem Tidier.Unavailable.steady {tidier : Tidier} {cfg : Config} (h : tidier.Unavailable cfg) :
    Steady tidier cfg noReply := by
  intro code s
  have hr : ((runTidier tidier cfg code).run s).1 = Answer.notFound code := by
    rcases h with h | h
    · simp only [runTidier, StateT.run, h]
    · simp only [runTidier, StateT.run, h]
      cases tidier.program? cfg <;> rfl
  rw [hr]
  exact Or.inl ⟨by simp [Answer.notFound], by simp [noReply]⟩

theorem Tidier.Failing.steady {tidier : Tidier} (h : tidier.Failing) (cfg : Config) : Steady tidier cfg noReply := by
  intro code s
  obtain ⟨rc, out, err, hrun, hrc⟩ := h s.calls.size code
  refine Or.inl ⟨?_, by simp [noReply]⟩
  simp only [runTidier, StateT.run, hrun]
  cases tidier.program? cfg with
  | none => simp [Answer.notFound]
  | some exe => exact hrc

theorem Tidier.Functional.steady {tidier : Tidier} (h : tidier.Functional) (cfg : Config) :
    Steady tidier cfg (fun code => (((runTidier tidier cfg code).run {}).1.code,
      ((runTidier tidier cfg code).run {}).1.out)) := by
  intro code s
  have hsame : ((runTidier tidier cfg code).run s).1 = ((runTidier tidier cfg code).run {}).1 := by
    unfold runTidier
    simp only [StateT.run]
    cases tidier.program? cfg with
    | none => rfl
    | some exe =>
      simp only
      rw [h s.calls.size code, h ({} : Session).calls.size code]
      cases tidier.run 0 code with
      | notStarted => rfl
      | exited rc out err => split <;> rfl
  rw [hsame]
  exact Answer.reads_self _

theorem Tidier.Echoes.steady {tidier : Tidier} {cfg : Config} (h : tidier.Echoes cfg) :
    Steady tidier cfg (fun code => (0, code)) := by
  intro code s
  obtain ⟨exe, hexe⟩ := Option.ne_none_iff_exists'.1 h.1
  obtain ⟨err, herr⟩ := h.2 s.calls.size code
  simp only [runTidier, StateT.run, hexe, herr]
  exact Or.inr ⟨rfl, rfl, rfl⟩

end Perl

/-! ## The formatter without sessions -/

/-- What becomes of Perl code: of a statement, of an expression, and of the code of a block. -/
structure Treatment where
  statement : Text → Text
  expression : Text → Text
  block : Text → Text

namespace Treatment

open Perl (spaceIf onOneLine insideBraces? dropOuterBreaks indentByBraces)
open Template

/-- The treatment by a tidier that answers by the code alone. -/
def ofReply (reply : Text → Int × Text) (cfg : Config) : Treatment where
  statement code :=
    spaceIf cfg.keywordSpacing (onOneLine (Text.lines (Text.trim (if (reply code).1 ≠ 0 then code else (reply code).2))))
  expression code :=
    let r := reply (txt "do \x7b " ++ code ++ txt " \x7d")
    if r.1 ≠ 0 then spaceIf cfg.keywordSpacing (Text.trim code)
    else spaceIf cfg.keywordSpacing
      (onOneLine ((Text.lines ((insideBraces? r.2).getD (Text.trim code))).map Text.trim))
  block code :=
    let r := reply (txt "do \x7b\n" ++ code ++ txt "\n\x7d")
    (if r.1 ≠ 0 then none else (insideBraces? r.2).map dropOuterBreaks).getD (indentByBraces code cfg.indentWidth)

/-- The treatment without a tidier. -/
def absent (cfg : Config) : Treatment := ofReply Perl.noReply cfg

theorem absent_statement (cfg : Config) (t : Text) :
    (absent cfg).statement t = spaceIf cfg.keywordSpacing (onOneLine (Text.lines (Text.trim t))) := rfl

theorem absent_expression (cfg : Config) (t : Text) :
    (absent cfg).expression t = spaceIf cfg.keywordSpacing (Text.trim t) := rfl

theorem absent_block (cfg : Config) (t : Text) : (absent cfg).block t = indentByBraces t cfg.indentWidth := rfl

/-- The treatment by a tidier that gives back its input. -/
def echo (cfg : Config) : Treatment := ofReply (fun code => (0, code)) cfg

variable (τ : Treatment)

/-- Code of a kind; comments stay. -/
def code : Kind → Text → Text
  | .comment, t => t
  | .statement, t => τ.statement t
  | .expression, t | .rawExpression, t => τ.expression t

def tag (normalize : Bool) (tag : Tag) : Text :=
  let d := delimit normalize (some (Tag.chomp tag.leftChomp)) (some tag.kind.mark) tag.body
    (some (Tag.chomp tag.rightChomp))
  d.opening ++ τ.code tag.kind tag.body ++ d.closing

def line (normalize : Bool) (row : Text) : Text := substitute Tag.finder (τ.tag normalize) row

/-- A directive, without indentation. -/
def directive (normalize : Bool) (d : Directive) : Text :=
  match d.kind with
  | .comment => '%' :: '#' :: (if normalize then Directive.afterSpace (Text.trim d.body) else d.body)
  | .statement => '%' :: Directive.afterSpace (τ.statement d.body)
  | kind => '%' :: (kind.mark ++ Directive.afterSpace (τ.expression d.body))

/-- A row outside raw elements, without its indentation. -/
def content (normalize : Bool) (row : Text) : Text :=
  match Directive.read? row with
  | some d => τ.directive normalize d
  | none => τ.line normalize row

def row (cfg : Config) (place : Place) (row : Text) : Text :=
  match (place.walk row).1 with
  | none => row
  | some level =>
    Text.dropTrailingPad (cfg.indentation level
      ++ Text.trimLeft (if place.raw.isSome then row else τ.content cfg.normalizeDelimiters row))

def rows (cfg : Config) : Place → List Text → List Text
  | _, [] => []
  | place, r :: rest => τ.row cfg place r :: rows cfg (place.walk r).2 rest

variable {τ} in
theorem length_rows {cfg : Config} : ∀ (rs : List Text) (place : Place), (τ.rows cfg place rs).length = rs.length
  | [], _ => rfl
  | r :: rs, place => congrArg (· + 1) (length_rows rs (place.walk r).2)

variable {τ} in
theorem exists_of_mem_rows {cfg : Config} {l : Text} : ∀ {place : Place} {rs : List Text}, l ∈ τ.rows cfg place rs →
    ∃ r ∈ rs, ∃ place, l = τ.row cfg place r
  | _, [], h => by cases h
  | place, r :: rs, h => by
    rcases List.mem_cons.1 h with rfl | h
    · exact ⟨r, List.mem_cons_self, place, rfl⟩
    · obtain ⟨k, hk, hrow⟩ := exists_of_mem_rows h
      exact ⟨k, List.mem_cons_of_mem r hk, hrow⟩

def blockLines (b : Block) : List Text := b.layOut (τ.block b.code)

def blocks (ls : List Text) : List Text := (scan Block.finder ls).flatMap (Piece.put τ.blockLines)

def blockText (t : Text) : Text :=
  Text.unrows (τ.blocks (Text.lines t)) ++ (if t.getLast? = some '\n' then ['\n'] else [])

/-- The rows of a template after the first pass, as one text. -/
def laid (cfg : Config) (source : Text) : Text := Text.unrows (τ.rows cfg {} (Text.rows (Eol.unify source)))

def format (cfg : Config) (source : Text) : Text := finish cfg source (τ.blockText (τ.laid cfg source))

end Treatment

/-! ## It is the formatter -/

section

open Perl Template

variable {tidier : Tidier} {cfg : Config} {reply : Text → Int × Text}

theorem tidyStatement_gives (h : Steady tidier cfg reply) (code : Text) :
    Gives (tidyStatement tidier cfg code) ((Treatment.ofReply reply cfg).statement code) := by
  refine Gives.after (fun s => ?_)
  simp only [Treatment.ofReply, ← (h code s).ite code (fun out => out)]
  exact Gives.pure _

theorem tidyExpression_gives (h : Steady tidier cfg reply) (code : Text) :
    Gives (tidyExpression tidier cfg code) ((Treatment.ofReply reply cfg).expression code) := by
  refine Gives.after (fun s => ?_)
  have hvalue := (h (txt "do \x7b " ++ code ++ txt " \x7d") s).ite (spaceIf cfg.keywordSpacing (Text.trim code))
    (fun out => spaceIf cfg.keywordSpacing
      (onOneLine ((Text.lines ((insideBraces? out).getD (Text.trim code))).map Text.trim)))
  simp only [Treatment.ofReply, ← hvalue]
  split <;> exact Gives.pure _

theorem tidyBlock_gives (h : Steady tidier cfg reply) (code : Text) :
    Gives (tidyBlock tidier cfg code) (let r := reply (txt "do \x7b\n" ++ code ++ txt "\n\x7d")
      if r.1 ≠ 0 then none else (insideBraces? r.2).map dropOuterBreaks) := by
  refine Gives.after (fun s => ?_)
  simp only [← (h (txt "do \x7b\n" ++ code ++ txt "\n\x7d") s).ite none (fun out => (insideBraces? out).map dropOuterBreaks)]
  split <;> exact Gives.pure _

theorem tidyBody_gives (h : Steady tidier cfg reply) (first last : Nat) (code : Text) :
    Gives (Block.tidyBody tidier cfg first last code) ((Treatment.ofReply reply cfg).block code) := by
  refine (tidyBlock_gives h code).bind ?_
  simp only [Treatment.ofReply]
  split
  · rename_i hr
    rw [hr]
    exact (Gives.modify _).bind (Gives.pure _)
  · rename_i tidied hr
    rw [hr]
    exact (Gives.modify _).bind (Gives.pure _)

theorem tag_gives (h : Steady tidier cfg reply) (tag : Tag) :
    Gives (tag.format tidier cfg) ((Treatment.ofReply reply cfg).tag cfg.normalizeDelimiters tag) := by
  have hbody : Gives (tag.tidyBody tidier cfg) ((Treatment.ofReply reply cfg).code tag.kind tag.body) := by
    obtain ⟨_, kind, body, _⟩ := tag
    cases kind with
    | statement => exact tidyStatement_gives h body
    | expression => exact tidyExpression_gives h body
    | rawExpression => exact tidyExpression_gives h body
    | comment => exact Gives.pure body
  exact hbody.bind (Gives.pure _)

theorem line_gives (h : Steady tidier cfg reply) (row : Text) :
    Gives (Tag.formatAll tidier cfg row) ((Treatment.ofReply reply cfg).line cfg.normalizeDelimiters row) := by
  have hpiece : ∀ p, Gives (Tag.formatPiece tidier cfg p)
      (p.put ((Treatment.ofReply reply cfg).tag cfg.normalizeDelimiters)) := by
    intro p
    cases p with
    | item c => exact Gives.pure _
    | hit tag source => exact tag_gives h tag
  exact (Gives.mapM hpiece _).bind (Gives.pure _)

theorem directive_gives (h : Steady tidier cfg reply) (d : Directive) :
    Gives (d.format tidier cfg) ((Treatment.ofReply reply cfg).directive cfg.normalizeDelimiters d) := by
  obtain ⟨_, kind, body⟩ := d
  cases kind with
  | statement => exact (tidyStatement_gives h body).bind (Gives.pure _)
  | expression => exact (tidyExpression_gives h body).bind (Gives.pure _)
  | rawExpression => exact (tidyExpression_gives h body).bind (Gives.pure _)
  | comment => exact Gives.pure _

theorem row_gives (h : Steady tidier cfg reply) (place : Place) (row : Text) :
    Gives (formatRow tidier cfg place row) ((Treatment.ofReply reply cfg).row cfg place row, (place.walk row).2) := by
  unfold formatRow Treatment.row
  split
  · rename_i next hw
    rw [hw]
    exact Gives.pure _
  · rename_i level next hw
    rw [hw]
    refine Gives.bind (a := if place.raw.isSome then row else (Treatment.ofReply reply cfg).content cfg.normalizeDelimiters row)
      ?_ (Gives.pure _)
    unfold formatContent
    split
    · exact Gives.pure _
    · unfold Treatment.content
      cases Directive.read? row with
      | some d => exact directive_gives h d
      | none => exact line_gives h row

theorem rows_gives (h : Steady tidier cfg reply) : ∀ (rows done : List Text) (place : Place),
    Gives (formatRows tidier cfg done place rows) (done.reverse ++ (Treatment.ofReply reply cfg).rows cfg place rows)
  | [], done, place => by
    rw [Treatment.rows, List.append_nil]
    exact Gives.pure _
  | r :: rest, done, place => by
    refine (row_gives h place r).bind ?_
    rw [Treatment.rows, List.append_cons, ← List.reverse_cons]
    exact rows_gives h rest _ _

theorem pieces_gives (h : Steady tidier cfg reply) : ∀ (pieces : List (Piece Text Block)) (first : Nat),
    Gives (Block.formatPieces tidier cfg first pieces) (pieces.map (Piece.put (Treatment.ofReply reply cfg).blockLines))
  | [], _ => Gives.pure _
  | .item _ :: rest, _ => (pieces_gives h rest _).bind (Gives.pure _)
  | .hit _ _ :: rest, _ =>
    Gives.bind ((tidyBody_gives h _ _ _).bind (Gives.pure _)) ((pieces_gives h rest _).bind (Gives.pure _))

theorem blockText_gives (h : Steady tidier cfg reply) (t : Text) :
    Gives (Block.formatAll tidier cfg t) ((Treatment.ofReply reply cfg).blockText t) := by
  refine (pieces_gives h _ _).bind ?_
  rw [Treatment.blockText, Treatment.blocks, List.flatMap_def]
  exact Gives.pure _

/-- **Formatting with a tidier that answers by the code alone is formatting with its treatment**, whatever the
session. -/
theorem format_gives (h : Steady tidier cfg reply) (source : Text) :
    Gives (format tidier cfg source) ((Treatment.ofReply reply cfg).format cfg source) :=
  (rows_gives h _ [] {}).bind ((blockText_gives h _).bind (Gives.pure _))

end

end EpFormat
