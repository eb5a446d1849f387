import Mathlib.Logic.Relation
import EpFormat.Limit
/-!
# ReportOnce — a missing tidier is reported once

All work that uses the tidier changes the session in two ways only: by a run of the tidier, and by reporting something else
(`Step`).  A run that misses the tidier, because there is no program or because it cannot be started, reports this unless it
has been reported.  So the flag of the session, the reports in it and the attempts in it agree (`Agrees`) after every step, and
with that after any sequence of jobs, each with a tidier and settings of its own (`missing_reported_once`).
-/
namespace EpFormat

open Template

/-- Whether an attempt misses the tidier. -/
def Perl.Attempt.missed : Perl.Attempt → Bool
  | .noProgram | .notStarted => true
  | .ran => false

/-- Whether an event is an error whose wording says that the tidier was not found. -/
def Event.reportsMissing (e : Event) : Bool :=
  decide (e.level = .error) && Text.startsWith (txt "perltidy not found") e.message

namespace Perl

/-! ## Steps of a session -/

/-- What work does to a session at a time: a run of some tidier, or a report of something else than that it is missing. -/
inductive Step : Session → Session → Prop
  | run (tidier : Tidier) (cfg : Config) (code : Text) (s : Session) : Step s ((runTidier tidier cfg code).run s).2
  | report (s : Session) {e : Event} (other : e.isTidierMissing = false) : Step s (s.report e)

/-- The work changes a session by steps alone. -/
def Stepwise {α : Type} (work : Tidying α) : Prop := ∀ s : Session, Relation.ReflTransGen Step s (work.run s).2

namespace Stepwise

variable {α β : Type}

theorem pure (a : α) : Stepwise (Pure.pure a) := fun _ => .refl

theorem bind {work : Tidying α} {next : α → Tidying β} (hw : Stepwise work) (hn : ∀ a, Stepwise (next a)) :
    Stepwise (work >>= next) := fun s => (hw s).trans (hn _ _)

theorem run (tidier : Tidier) (cfg : Config) (code : Text) : Stepwise (runTidier tidier cfg code) :=
  fun s => .single (.run tidier cfg code s)

theorem report {e : Event} (other : e.isTidierMissing = false) :
    Stepwise (modify (fun s : Session => s.report e) : Tidying PUnit) := fun s => .single (.report s other)

theorem mapM {f : α → Tidying β} (h : ∀ a, Stepwise (f a)) : ∀ l : List α, Stepwise (l.mapM f)
  | [] => pure []
  | a :: l => by
    rw [List.mapM_cons]
    exact (h a).bind (fun _ => (mapM h l).bind (fun _ => pure _))

end Stepwise

/-! ## What a run leaves -/

/-- What becomes of run number `k` of the tidier on some code. -/
def Tidier.comesTo (tidier : Tidier) (cfg : Config) (k : Nat) (code : Text) : Attempt :=
  match tidier.program? cfg with
  | none => .noProgram
  | some _ =>
    match tidier.run k code with
    | .notStarted => .notStarted
    | .exited _ _ _ => .ran

def Session.missingReports (s : Session) : Nat := s.events.countP Event.isTidierMissing

namespace Session

variable (s : Session)

theorem missingReports_report {e : Event} (h : e.isTidierMissing = false) :
    (s.report e).missingReports = s.missingReports := by
  rw [missingReports, report, Array.countP_push, h]
  rfl

theorem warned_reportMissing (e : Event) : (s.reportMissing e).warned = true := by
  unfold reportMissing
  split
  · assumption
  · rfl

theorem attempts_reportMissing (e : Event) : (s.reportMissing e).attempts = s.attempts := by
  unfold reportMissing
  split <;> rfl

/-- A missing tidier is reported if it has not been. -/
theorem missingReports_reportMissing {e : Event} (h : e.isTidierMissing = true) :
    (s.reportMissing e).missingReports = s.missingReports + (!s.warned).toNat := by
  unfold reportMissing
  cases hw : s.warned with
  | true => rfl
  | false =>
    change (s.report e).missingReports = _
    rw [missingReports, report, Array.countP_push, h]
    rfl

end Session

/-- **What a run leaves in the session**: one more attempt, and a report if it misses the tidier for the first time. -/
theorem run_leaves (tidier : Tidier) (cfg : Config) (code : Text) (s : Session) :
    let attempt := tidier.comesTo cfg s.calls.size code
    let s' := ((runTidier tidier cfg code).run s).2
    s'.attempts = s.attempts.push attempt ∧ s'.warned = (s.warned || attempt.missed) ∧
      s'.missingReports = s.missingReports + (attempt.missed && !s.warned).toNat := by
  unfold Tidier.comesTo runTidier
  simp only [StateT.run]
  cases tidier.program? cfg with
  | none =>
    refine ⟨Session.attempts_reportMissing _ _, ?_, Session.missingReports_reportMissing _ rfl⟩
    rw [Session.warned_reportMissing, Attempt.missed, Bool.or_true]
  | some exe =>
    simp only
    have hrun := s.missingReports_report (e := .tidierRun (exe :: Tidier.options cfg)) rfl
    cases tidier.run s.calls.size code with
    | notStarted =>
      refine ⟨Session.attempts_reportMissing _ _, ?_, ?_⟩
      · rw [Session.warned_reportMissing, Attempt.missed, Bool.or_true]
      · exact (Session.missingReports_reportMissing _ rfl).trans (congrArg (· + _) hrun)
    | exited rc out err =>
      split
      · rename_i heq
        cases heq
      · exact ⟨rfl, (Bool.or_false _).symm, hrun⟩
      · exact ⟨rfl, (Bool.or_false _).symm, (Session.missingReports_report _ rfl).trans hrun⟩

/-- The flag of a session, its reports and its attempts agree: the tidier has been reported missing once if an attempt missed
it, and not at all otherwise. -/
structure Agrees (s : Session) : Prop where
  warned : s.warned = s.attempts.any Attempt.missed
  reports : s.missingReports = s.warned.toNat

theorem Agrees.step {s s' : Session} (h : Step s s') (hs : Agrees s) : Agrees s' := by
  cases h with
  | run tidier cfg code =>
    obtain ⟨hattempts, hwarned, hreports⟩ := run_leaves tidier cfg code s
    generalize tidier.comesTo cfg s.calls.size code = attempt at hattempts hwarned hreports
    refine ⟨?_, ?_⟩
    · rw [hwarned, hattempts, Array.any_push, hs.warned]
    · rw [hreports, hwarned, hs.reports]
      cases s.warned <;> cases attempt.missed <;> rfl
  | report _ other => exact ⟨hs.warned, (s.missingReports_report other).trans hs.reports⟩

/-- Work that goes by steps keeps flag, reports and attempts in agreement. -/
theorem Stepwise.agrees {α : Type} {work : Tidying α} (h : Stepwise work) {s : Session} (hs : Agrees s) :
    Agrees (work.run s).2 := by
  have hsteps := h s
  generalize (work.run s).2 = s' at hsteps
  induction hsteps with
  | refl => exact hs
  | tail _ hstep ih => exact Agrees.step hstep ih

/-! ## Work with the tidier -/

section

variable (tidier : Tidier) (cfg : Config)

theorem stepwise_tidyStatement (code : Text) : Stepwise (tidyStatement tidier cfg code) :=
  (Stepwise.run tidier cfg _).bind (fun _ => Stepwise.pure _)

theorem stepwise_tidyExpression (code : Text) : Stepwise (tidyExpression tidier cfg code) := by
  refine (Stepwise.run tidier cfg _).bind (fun answer => ?_)
  split <;> exact Stepwise.pure _

theorem stepwise_tidyBlock (code : Text) : Stepwise (tidyBlock tidier cfg code) := by
  refine (Stepwise.run tidier cfg _).bind (fun answer => ?_)
  split <;> exact Stepwise.pure _

end
end Perl

/-! ## The formatter step by step -/

open Perl

section

variable (tidier : Tidier) (cfg : Config)

theorem stepwise_tag (tag : Tag) : Stepwise (tag.format tidier cfg) := by
  have hbody : Stepwise (tag.tidyBody tidier cfg) := by
    unfold Tag.tidyBody
    split
    · exact Stepwise.pure _
    · exact stepwise_tidyExpression tidier cfg _
    · exact stepwise_tidyExpression tidier cfg _
    · exact stepwise_tidyStatement tidier cfg _
  exact hbody.bind (fun _ => Stepwise.pure _)

theorem stepwise_tags (line : Text) : Stepwise (Tag.formatAll tidier cfg line) := by
  refine (Stepwise.mapM (fun piece => ?_) _).bind (fun _ => Stepwise.pure _)
  cases piece with
  | item c => exact Stepwise.pure _
  | hit tag source => exact stepwise_tag tidier cfg tag

theorem stepwise_directive (d : Directive) : Stepwise (d.format tidier cfg) := by
  unfold Directive.format
  split
  · exact Stepwise.pure _
  · exact (stepwise_tidyStatement tidier cfg _).bind (fun _ => Stepwise.pure _)
  · exact (stepwise_tidyExpression tidier cfg _).bind (fun _ => Stepwise.pure _)

theorem stepwise_row (place : Place) (row : Text) : Stepwise (formatRow tidier cfg place row) := by
  have hcontent : Stepwise (formatContent tidier cfg place row) := by
    unfold formatContent
    split
    · exact Stepwise.pure _
    · split
      · exact stepwise_directive tidier cfg _
      · exact stepwise_tags tidier cfg _
  unfold formatRow
  split
  · exact Stepwise.pure _
  · exact hcontent.bind (fun _ => Stepwise.pure _)

theorem stepwise_rows : ∀ (rows done : List Text) (place : Place), Stepwise (formatRows tidier cfg done place rows)
  | [], _, _ => Stepwise.pure _
  | row :: rest, _, place => (stepwise_row tidier cfg place row).bind (fun _ => stepwise_rows rest _ _)

theorem stepwise_block (first : Nat) (b : Block) : Stepwise (b.format tidier cfg first) := by
  have hbody : ∀ last, Stepwise (Block.tidyBody tidier cfg first last b.code) := by
    intro last
    refine (stepwise_tidyBlock tidier cfg b.code).bind (fun answer => ?_)
    cases answer with
    | none => exact (Stepwise.report rfl).bind (fun _ => Stepwise.pure _)
    | some tidied => exact (Stepwise.report rfl).bind (fun _ => Stepwise.pure _)
  exact (hbody _).bind (fun _ => Stepwise.pure _)

theorem stepwise_pieces : ∀ (pieces : List (Piece Text Block)) (first : Nat),
    Stepwise (Block.formatPieces tidier cfg first pieces)
  | [], _ => Stepwise.pure _
  | .item _ :: rest, _ => (stepwise_pieces rest _).bind (fun _ => Stepwise.pure _)
  | .hit b _ :: rest, first =>
    (stepwise_block tidier cfg first b).bind (fun _ => (stepwise_pieces rest _).bind (fun _ => Stepwise.pure _))

theorem stepwise_blocks (t : Text) : Stepwise (Block.formatAll tidier cfg t) :=
  (stepwise_pieces tidier cfg _ 1).bind (fun _ => Stepwise.pure _)

theorem stepwise_blocksWithin : ∀ (pieces : List (Piece Text Block)) (done : List (List Text)) (first : Nat),
    Stepwise (blocksWithin tidier cfg done first pieces)
  | [], _, _ => Stepwise.pure _
  | .item line :: rest, done, first => stepwise_blocksWithin rest ([line] :: done) (first + 1)
  | .hit b source :: rest, done, first => by
    refine (stepwise_tidyBlock tidier cfg b.code).bind (fun answer => ?_)
    cases answer with
    | some tidied => exact (Stepwise.report rfl).bind (fun _ => stepwise_blocksWithin rest _ _)
    | none =>
      refine (Stepwise.report rfl).bind (fun _ => ?_)
      cases indentWithin b.code cfg.indentWidth with
      | error e => exact Stepwise.pure _
      | ok laid => exact stepwise_blocksWithin rest _ _

theorem stepwise_formatBlocksWithin (t : Text) : Stepwise (formatBlocksWithin tidier cfg t) := by
  unfold formatBlocksWithin
  split
  · exact (stepwise_blocks tidier cfg t).bind (fun _ => Stepwise.pure _)
  · refine (stepwise_blocksWithin tidier cfg _ [] 1).bind (fun r => ?_)
    cases r <;> exact Stepwise.pure _

theorem stepwise_formatWithin (source : Text) : Stepwise (formatWithin tidier cfg source) := by
  have hformat : Stepwise (format tidier cfg source) := by
    refine (stepwise_rows tidier cfg _ [] {}).bind (fun rows => ?_)
    exact (stepwise_blocks tidier cfg _).bind (fun _ => Stepwise.pure _)
  unfold formatWithin
  split
  · exact hformat.bind (fun _ => Stepwise.pure _)
  · simp only
    split
    · exact (stepwise_rows tidier cfg _ [] {}).bind (fun _ => Stepwise.pure _)
    · refine (stepwise_rows tidier cfg _ [] {}).bind (fun rows => ?_)
      refine (stepwise_formatBlocksWithin tidier cfg _).bind (fun r => ?_)
      cases r <;> exact Stepwise.pure _

end

/-! ## Job after job -/

/-- Work that may be asked for: a whole template, the blocks of a text, or a statement, an expression or a block of Perl. -/
inductive Work
  | template (source : Text)
  | blocks (t : Text)
  | statement (code : Text)
  | expression (code : Text)
  | block (code : Text)

/-- Work with the tidier and the settings that it is done with. -/
structure Job where
  tidier : Tidier
  cfg : Config
  work : Work

/-- Does the work; its result, or the error that ends it, is left aside. -/
def Job.perform (job : Job) : Tidying Unit :=
  match job.work with
  | .template source => do let _ ← formatWithin job.tidier job.cfg source
  | .blocks t => do let _ ← formatBlocksWithin job.tidier job.cfg t
  | .statement code => do let _ ← tidyStatement job.tidier job.cfg code
  | .expression code => do let _ ← tidyExpression job.tidier job.cfg code
  | .block code => do let _ ← tidyBlock job.tidier job.cfg code

def performAll : List Job → Tidying Unit
  | [] => pure ()
  | job :: rest => do
    job.perform
    performAll rest

theorem stepwise_perform (job : Job) : Stepwise job.perform := by
  unfold Job.perform
  split
  · exact (stepwise_formatWithin job.tidier job.cfg _).bind (fun _ => Stepwise.pure _)
  · exact (stepwise_formatBlocksWithin job.tidier job.cfg _).bind (fun _ => Stepwise.pure _)
  · exact (stepwise_tidyStatement job.tidier job.cfg _).bind (fun _ => Stepwise.pure _)
  · exact (stepwise_tidyExpression job.tidier job.cfg _).bind (fun _ => Stepwise.pure _)
  · exact (stepwise_tidyBlock job.tidier job.cfg _).bind (fun _ => Stepwise.pure _)

theorem stepwise_performAll : ∀ jobs : List Job, Stepwise (performAll jobs)
  | [] => Stepwise.pure _
  | job :: rest => (stepwise_perform job).bind (fun _ => stepwise_performAll rest)

/-- An error that says that the tidier was not found is one of the two reports that it is missing. -/
theorem Event.reportsMissing_eq (e : Event) : e.reportsMissing = e.isTidierMissing := by
  cases e <;> rfl

/-- A tidier that runs, one that cannot be started, and none: what is reported is the second. -/
example :
    let s := ((performAll [⟨Tidier.echo (some (txt "perltidy")), {}, .statement (txt "f()")⟩,
      ⟨Tidier.broken (some (txt "perltidy")), {}, .blocks (txt "<%\nf();\n%>\n")⟩,
      ⟨Tidier.absent, {}, .template (txt "% g()\n<%= 1 %>\n")⟩]).run {}).2
    s.attempts = #[.ran, .notStarted, .noProgram, .noProgram] ∧
      s.events.filter Event.reportsMissing = #[.tidierNotStarted] := by decide +kernel

end EpFormat
