import EpFormat.Proofs.Limit
import EpFormat.Proofs.Lines
/-!
# LineEnds — the line ends of a template and of its result

A template is laid out with its line ends unified, and the choice of line ends is read only when that is done
(`formatWithin_eq`, `laidWithin_eol`).  So whatever the tidier does, the results of two choices differ in their line
ends and in nothing else, and the line ends of the template matter only where they are to be preserved.
-/
namespace EpFormat

open Perl Template

/-! ## The choice is read at the end -/

section

variable (tidier : Tidier) (cfg : Config) (e : Eol)

theorem formatRows_eol : ∀ (rows done : List Text) (place : Place),
    formatRows tidier { cfg with eol := e } done place rows = formatRows tidier cfg done place rows
  | [], _, _ => rfl
  | row :: rest, done, place => by
    unfold formatRows
    have hrow : formatRow tidier { cfg with eol := e } place row = formatRow tidier cfg place row := rfl
    rw [hrow]
    exact bind_congr (fun x => formatRows_eol rest _ x.2)

theorem formatPieces_eol : ∀ (pieces : List (Piece Text Block)) (first : Nat),
    Block.formatPieces tidier { cfg with eol := e } first pieces = Block.formatPieces tidier cfg first pieces
  | [], _ => rfl
  | .item line :: rest, first => by
    unfold Block.formatPieces
    rw [formatPieces_eol rest]
  | .hit b source :: rest, first => by
    unfold Block.formatPieces
    rw [formatPieces_eol rest]
    rfl

theorem wideRow?_eol : ∀ (rows : List Text) (k : Nat) (place : Place),
    wideRow? { cfg with eol := e } k place rows = wideRow? cfg k place rows
  | [], _, _ => rfl
  | row :: rest, k, place => by
    unfold wideRow?
    simp only [wideRow?_eol rest]

theorem blocksWithin_eol : ∀ (pieces : List (Piece Text Block)) (done : List (List Text)) (first : Nat),
    blocksWithin tidier { cfg with eol := e } done first pieces = blocksWithin tidier cfg done first pieces
  | [], _, _ => rfl
  | .item line :: rest, done, first => by
    unfold blocksWithin
    exact blocksWithin_eol rest _ _
  | .hit b source :: rest, done, first => by
    unfold blocksWithin
    simp only [blocksWithin_eol rest]
    rfl

theorem formatBlocksWithin_eol (t : Text) :
    formatBlocksWithin tidier { cfg with eol := e } t = formatBlocksWithin tidier cfg t := by
  have husual : ({ cfg with eol := e } : Config).usualWidth = cfg.usualWidth := rfl
  unfold formatBlocksWithin Block.formatAll
  rw [husual, formatPieces_eol, blocksWithin_eol]

end

/-- A template laid out, where no line is too wide; its line ends are those that the layout leaves. -/
def laidWithin (tidier : Tidier) (cfg : Config) (source : Text) : Tidying (Except WidthError Text) := do
  let rows := Text.rows (Eol.unify source)
  match if cfg.usualWidth then none else wideRow? cfg 0 {} rows with
  | some (k, e) =>
    let _ ← formatRows tidier cfg [] {} (rows.take k)
    return .error e
  | none =>
    let written ← formatRows tidier cfg [] {} rows
    formatBlocksWithin tidier cfg (Text.unrows written)

/-- **Line ends are the last thing that formatting writes.** -/
theorem formatWithin_eq (tidier : Tidier) (cfg : Config) (source : Text) :
    formatWithin tidier cfg source = Except.map (finish cfg source) <$> laidWithin tidier cfg source := by
  unfold formatWithin laidWithin
  by_cases hw : cfg.usualWidth = true
  · simp only [hw, if_true, format, formatBlocksWithin]
    rfl
  · simp only [if_neg hw]
    cases wideRow? cfg 0 {} (Text.rows (Eol.unify source)) with
    | some p => rfl
    | none =>
      simp only [map_bind]
      refine bind_congr (fun written => ?_)
      rw [← bind_pure_comp]
      exact bind_congr (fun laid => by cases laid <;> rfl)

theorem laidWithin_eol (tidier : Tidier) (cfg : Config) (e : Eol) (source : Text) :
    laidWithin tidier { cfg with eol := e } source = laidWithin tidier cfg source := by
  have husual : ({ cfg with eol := e } : Config).usualWidth = cfg.usualWidth := rfl
  unfold laidWithin
  simp only [husual, wideRow?_eol, formatRows_eol, formatBlocksWithin_eol]

theorem laidWithin_unify (tidier : Tidier) (cfg : Config) {source other : Text}
    (h : Eol.unify other = Eol.unify source) : laidWithin tidier cfg other = laidWithin tidier cfg source := by
  unfold laidWithin
  rw [h]

/-! ## What is written at the end -/

theorem getLast?_endLine (t : Text) : (endLine t).getLast? = some '\n' := by
  unfold endLine
  by_cases h : t.getLast? = some '\n'
  · rwa [if_pos h]
  · rw [if_neg h, List.getLast?_append]
    rfl

theorem finish_preserve (cfg : Config) (source : Text) :
    finish { cfg with eol := .preserve } source = finish { cfg with eol := Eol.detect source } source := by
  funext laid
  by_cases h : Text.contains ['\r', '\n'] source = true
  · simp only [finish, Eol.detect, if_pos h]
    rfl
  · simp only [finish, Eol.detect, if_neg h]
    rfl

theorem feed_mem_unify_endLine (t : Text) : '\n' ∈ Eol.unify (endLine t) :=
  List.mem_of_getLast? (Eol.getLast?_unify (getLast?_endLine t))

theorem finish_source {cfg : Config} (h : cfg.eol ≠ .preserve) (source other : Text) :
    finish cfg other = finish cfg source := by
  funext laid
  simp only [finish, if_neg h]

section

variable (tidier : Tidier) (cfg : Config) (source : Text) (s : Session)

theorem run_formatWithin : ((formatWithin tidier cfg source).run s).1
    = ((laidWithin tidier cfg source).run s).1.map (finish cfg source) := by
  rw [formatWithin_eq]
  rfl

theorem return_not_mem_formatWithin (h : cfg.eol = .lf) {out : Text}
    (hout : ((formatWithin tidier cfg source).run s).1 = .ok out) : '\r' ∉ out := by
  rw [run_formatWithin] at hout
  cases hlaid : ((laidWithin tidier cfg source).run s).1 with
  | error e => rw [hlaid] at hout; cases hout
  | ok laid =>
    rw [hlaid] at hout
    obtain rfl := Except.ok.inj hout
    rw [finish, h]
    exact Eol.return_not_mem_unify (endLine laid)

/-- **The discipline of line ends**, whatever the tidier does in each of its runs.  A result with line feeds has no carriage
return and ends with a line feed.  Any other choice gives the same result but for the line ends: with pairs for `crlf`,
and for `preserve` with pairs exactly if there is one in the template.  Where nothing is to be preserved, the line ends
of the template do not matter.  With a usual width there is a result. -/
theorem formatWithin_lineEnds :
    let result (e : Eol) (t : Text) := ((formatWithin tidier { cfg with eol := e } t).run s).1
    (∀ out, result .lf source = .ok out → '\r' ∉ out ∧ out.getLast? = some '\n') ∧
      result .crlf source = (result .lf source).map Eol.widen ∧
      result .preserve source
        = (if Text.contains ['\r', '\n'] source then result .crlf source else result .lf source) ∧
      (∀ e, e ≠ .preserve → ∀ e' : Eol, result e (e'.apply source) = result e source) ∧
      (cfg.usualWidth = true → ∃ out, result .lf source = .ok out) := by
  intro result
  have hresult (e : Eol) (t : Text) : result e t
      = ((laidWithin tidier cfg t).run s).1.map (finish { cfg with eol := e } t) := by
    rw [← laidWithin_eol tidier cfg e]
    exact run_formatWithin tidier _ t s
  have husual (hw : cfg.usualWidth = true) := @formatWithin_usual tidier { cfg with eol := .lf } hw source s
  refine ⟨fun out hout => ?_, ?_, ?_, fun e he e' => ?_, fun hw => ⟨_, husual hw⟩⟩
  · rw [hresult] at hout
    cases hlaid : ((laidWithin tidier cfg source).run s).1 with
    | error e => rw [hlaid] at hout; cases hout
    | ok laid =>
      rw [hlaid] at hout
      obtain rfl : Eol.unify (endLine laid) = out := Except.ok.inj hout
      exact ⟨Eol.return_not_mem_unify _, Eol.getLast?_unify (getLast?_endLine laid)⟩
  · rw [hresult, hresult]
    cases ((laidWithin tidier cfg source).run s).1 <;> rfl
  · rw [hresult, finish_preserve, ← hresult, Eol.detect]
    exact apply_ite (result · source) _ _ _
  · rw [hresult, hresult, laidWithin_unify tidier cfg (Eol.unify_apply e' source), finish_source he source]

end

end EpFormat
