import EpFormat.Proofs.Hunks
import EpFormat.Proofs.Words
/-!
# Patch — reading a patch and carrying it out

A patch is read row by row.  Two rows name the files.  Then the head of a hunk says at which line it starts on both sides and
how many lines it takes and gives, and as many rows follow it, each a line with a mark before it.  The reader is strict: a line
that is to stay or to go must be there, and a hunk must start where its head says.  Carrying out the rows of a plan one by one
turns one list into the other (`Plan.run_pieces`), whatever its lines are.
-/
namespace EpFormat.Diff

/-! ## The reader -/

def readNumber (t : Text) : Option (Nat × Text) :=
  if t.takeWhile Char.isDigit = [] then none
  else some (Nat.ofDigitChars 10 (t.takeWhile Char.isDigit) 0, t.dropWhile Char.isDigit)

/-- A range of lines in the head of a hunk. -/
structure Range where
  start : Nat
  count : Nat
  deriving DecidableEq, Repr

def Range.before (r : Range) : Nat := if r.count = 0 then r.start else r.start - 1

def readRange (t : Text) : Option (Range × Text) := do
  let (start, rest) ← readNumber t
  match Text.after? [','] rest with
  | none => some (⟨start, 1⟩, rest)
  | some rest =>
    let (count, rest) ← readNumber rest
    some (⟨start, count⟩, rest)

/-- The two ranges in the head of a hunk. -/
def readHead (row : Text) : Option (Range × Range) := do
  let rest ← Text.after? (txt "@@ -") row
  let (left, rest) ← readRange rest
  let rest ← Text.after? (txt " +") rest
  let (right, rest) ← readRange rest
  if rest = txt " @@\n" then some (left, right) else none

def Row.ofText : Text → Option Row
  | ' ' :: line => some (.keep line)
  | '-' :: line => some (.drop line)
  | '+' :: line => some (.add line)
  | _ => none

/-- How far a patch is carried out: the lines to come, how many came, the lines written, and how many lines the current hunk
still takes and gives. -/
structure Progress where
  rest : List Text
  seen : Nat
  out : List Text
  old : Nat
  new : Nat
  deriving DecidableEq, Repr

namespace Progress

def seek (s : Progress) (left right : Range) : Option Progress :=
  let gap := left.before - s.seen
  if s.seen ≤ left.before ∧ gap ≤ s.rest.length ∧ s.out.length + gap = right.before then
    some ⟨s.rest.drop gap, left.before, s.out ++ s.rest.take gap, left.count, right.count⟩
  else none

/-- Carries out one row of a hunk. -/
def take (s : Progress) (r : Row) : Option Progress :=
  if r.old <+: s.rest ∧ r.old.length ≤ s.old ∧ r.new.length ≤ s.new then
    some ⟨s.rest.drop r.old.length, s.seen + r.old.length, s.out ++ r.new, s.old - r.old.length, s.new - r.new.length⟩
  else none

/-- Carries out one row of a patch: the head of a hunk if the last one is done, and a row of the hunk if not. -/
def step (s : Progress) (row : Text) : Option Progress :=
  if s.old + s.new = 0 then (readHead row).bind fun ranges => s.seek ranges.1 ranges.2 else (Row.ofText row).bind s.take

def run (s : Progress) (rows : List Text) : Option Progress := rows.foldlM step s

/-- The text that is written, if the last hunk is done. -/
def finish (s : Progress) : Option Text := if s.old + s.new = 0 then some (s.out ++ s.rest).flatten else none

end Progress

/-- A text cut behind every line feed. -/
def feedLines : Text → List Text
  | [] => []
  | c :: t =>
    if c = '\n' then [c] :: feedLines t
    else match feedLines t with
      | [] => [[c]]
      | l :: rest => (c :: l) :: rest

/-- Reads a patch and carries it out on lines. -/
def applyPatch (patch : Text) (lines : List Text) : Option Text :=
  match feedLines patch with
  | first :: second :: rows =>
    if Text.startsWith (txt "--- ") first && Text.startsWith (txt "+++ ") second then
      (Progress.run ⟨lines, 0, [], 0, 0⟩ rows).bind Progress.finish
    else none
  | _ => none

/-! ## Heads are read back -/

theorem isDigit_of_mem_toDigits {n : Nat} {c : Char} (h : c ∈ Nat.toDigits 10 n) : c.isDigit = true :=
  Nat.isDigit_of_mem_toDigits (by decide) (by decide) h

theorem readNumber_toDigits (n : Nat) {c : Char} (hc : c.isDigit = false) (t : Text) :
    readNumber (Nat.toDigits 10 n ++ c :: t) = some (n, c :: t) := by
  have hdigits : ∀ d ∈ Nat.toDigits 10 n, d.isDigit = true := fun d hd => isDigit_of_mem_toDigits hd
  have htake : (Nat.toDigits 10 n ++ c :: t).takeWhile Char.isDigit = Nat.toDigits 10 n := by
    rw [List.takeWhile_append_of_pos hdigits, List.takeWhile_cons_of_neg (by simp [hc]), List.append_nil]
  have hdrop : (Nat.toDigits 10 n ++ c :: t).dropWhile Char.isDigit = c :: t := by
    rw [List.dropWhile_append_of_pos hdigits, List.dropWhile_cons_of_neg (by simp [hc])]
  rw [readNumber, htake, hdrop, if_neg Nat.toDigits_ne_nil, Nat.ofDigitChars_ten_toDigits]

def Range.of (i n : Nat) : Range := ⟨if n = 0 then i else i + 1, n⟩

theorem Range.before_of (i n : Nat) : (Range.of i n).before = i := by
  unfold Range.before Range.of
  split_ifs <;> rfl

theorem readRange_rangeText (i n : Nat) (t : Text) :
    readRange (rangeText i (i + n) ++ ' ' :: t) = some (Range.of i n, ' ' :: t) := by
  have hblank : Text.after? [','] (' ' :: t) = none := rfl
  have hcomma (u : Text) : Text.after? [','] (',' :: u) = some u := Text.after?_append [','] u
  by_cases hn : n = 1
  · subst hn
    rw [rangeText, Nat.add_sub_cancel_left, if_pos rfl, readRange, readNumber_toDigits _ (by decide)]
    simp only [Option.bind_eq_bind, Option.bind_some, hblank]
    rfl
  · rw [rangeText, Nat.add_sub_cancel_left, if_neg hn, List.append_assoc, List.cons_append, readRange,
      readNumber_toDigits _ (by decide)]
    simp only [Option.bind_eq_bind, Option.bind_some, hcomma, readNumber_toDigits _ (show Char.isDigit ' ' = false by decide)]
    rfl

theorem readHead_head (h : Hunk) :
    readHead h.head = some (Range.of h.left h.old.length, Range.of h.right h.new.length) := by
  have hright : txt " +" ++ (rangeText h.right (h.right + h.new.length) ++ txt " @@\n")
      = ' ' :: ('+' :: (rangeText h.right (h.right + h.new.length) ++ txt " @@\n")) := rfl
  have hend : txt " @@\n" = ' ' :: txt "@@\n" := rfl
  rw [Hunk.head, readHead, List.append_assoc, List.append_assoc, List.append_assoc, Text.after?_append]
  simp only [Option.bind_eq_bind, Option.bind_some]
  rw [hright, readRange_rangeText]
  simp only [Option.bind_some]
  rw [← hright, Text.after?_append]
  simp only [Option.bind_some]
  rw [hend, readRange_rangeText, Option.bind_some]
  exact if_pos rfl

theorem readNumber_suffix {t rest : Text} {n : Nat} (h : readNumber t = some (n, rest)) : rest <:+ t := by
  unfold readNumber at h
  split_ifs at h
  cases h
  exact List.dropWhile_suffix _

theorem readRange_suffix {t rest : Text} {r : Range} (h : readRange t = some (r, rest)) : rest <:+ t := by
  obtain ⟨⟨start, rest₁⟩, hstart, h⟩ := Option.bind_eq_some_iff.1 h
  have hsuffix := readNumber_suffix hstart
  cases hcomma : Text.after? [','] rest₁ with
  | none =>
    simp only [hcomma] at h
    cases h
    exact hsuffix
  | some rest₂ =>
    simp only [hcomma] at h
    obtain ⟨⟨count, rest₃⟩, hcount, h⟩ := Option.bind_eq_some_iff.1 h
    cases h
    exact (readNumber_suffix hcount).trans (.trans ⟨_, (Text.after?_eq_some hcomma).symm⟩ hsuffix)

/-- The first and the last characters of the head of a hunk. -/
theorem readHead_ends {w : Text} {ranges : Range × Range} (h : readHead w = some ranges) :
    txt "@@ -" <+: w ∧ txt " @@\n" <:+ w := by
  obtain ⟨rest₁, hstart, h⟩ := Option.bind_eq_some_iff.1 h
  obtain ⟨⟨left, rest₂⟩, hleft, h⟩ := Option.bind_eq_some_iff.1 h
  obtain ⟨rest₃, hplus, h⟩ := Option.bind_eq_some_iff.1 h
  obtain ⟨⟨right, rest₄⟩, hright, h⟩ := Option.bind_eq_some_iff.1 h
  simp only at h
  split_ifs at h with hend
  have hstart' := Text.after?_eq_some hstart
  have hrest₁ : rest₁ <:+ w := ⟨_, hstart'.symm⟩
  have hrest₃ : rest₃ <:+ rest₂ := ⟨_, (Text.after?_eq_some hplus).symm⟩
  refine ⟨⟨_, hstart'.symm⟩, ?_⟩
  rw [← hend]
  exact (readRange_suffix hright).trans (hrest₃.trans ((readRange_suffix hleft).trans hrest₁))

/-! ## Carrying out a plan -/

@[simp] theorem Row.ofText_text (r : Row) : Row.ofText r.text = some r := by cases r <;> rfl

theorem Row.eq_text {w : Text} {r : Row} (h : Row.ofText w = some r) : w = r.text := by
  unfold Row.ofText at h
  split at h <;> cases h <;> rfl

namespace Progress

@[simp] theorem run_nil (s : Progress) : s.run [] = some s := rfl

theorem run_cons (s : Progress) (w : Text) (ws : List Text) : s.run (w :: ws) = (s.step w).bind (·.run ws) := rfl

theorem run_append (s : Progress) (ws vs : List Text) : s.run (ws ++ vs) = (s.run ws).bind (·.run vs) := List.foldlM_append

theorem step_text {s : Progress} (h : s.old + s.new ≠ 0) (r : Row) : s.step r.text = s.take r := by
  rw [step, if_neg h, Row.ofText_text, Option.bind_some]

theorem take_eq_some {s s' : Progress} {r : Row} (h : s.take r = some s') : s.rest = r.old ++ s'.rest ∧
    s.old = r.old.length + s'.old ∧ s.new = r.new.length + s'.new := by
  unfold take at h
  split_ifs at h with hfits
  obtain ⟨⟨rest, hrest⟩, hold, hnew⟩ := hfits
  cases h
  refine ⟨?_, (Nat.add_sub_cancel' hold).symm, (Nat.add_sub_cancel' hnew).symm⟩
  rw [← hrest, List.drop_left]

theorem seek_eq_some {s s' : Progress} {left right : Range} (h : s.seek left right = some s') : s'.rest <:+ s.rest ∧
    s'.old = left.count ∧ s'.new = right.count := by
  unfold seek at h
  simp only at h
  split_ifs at h
  cases h
  exact ⟨List.drop_suffix _ _, rfl, rfl⟩

/-- What one row can be: the head of a hunk where the last one is done, or a row of the hunk. -/
theorem step_eq_some {s s' : Progress} {w : Text} (h : s.step w = some s') :
    (s.old + s.new = 0 ∧ ∃ ranges, readHead w = some ranges ∧ s.seek ranges.1 ranges.2 = some s') ∨
      (s.old + s.new ≠ 0 ∧ ∃ r : Row, w = r.text ∧ s.take r = some s') := by
  unfold step at h
  split_ifs at h with hdone
  · exact .inl ⟨hdone, Option.bind_eq_some_iff.1 h⟩
  · obtain ⟨r, hr, htake⟩ := Option.bind_eq_some_iff.1 h
    exact .inr ⟨hdone, r, Row.eq_text hr, htake⟩

/-- The rows of a hunk, where its lines come next. -/
theorem run_rows : ∀ {rows : List Row} {s : Progress} {as : List Text}, s.rest = rows.flatMap Row.old ++ as →
    s.old = (rows.flatMap Row.old).length → s.new = (rows.flatMap Row.new).length →
    s.run (rows.map Row.text) = some ⟨as, s.seen + s.old, s.out ++ rows.flatMap Row.new, 0, 0⟩
  | [], ⟨rest, seen, out, old, new⟩, as, hrest, hold, hnew => by
    cases hrest
    cases hold
    cases hnew
    simp
  | r :: rows, s, as, hrest, hold, hnew => by
    rw [List.flatMap_cons, List.append_assoc] at hrest
    rw [List.flatMap_cons, List.length_append] at hold hnew
    have hsome : s.old + s.new ≠ 0 := by
      cases r <;> simp only [Row.old, Row.new, List.length_singleton] at hold hnew <;> omega
    have htake : s.take r = some ⟨rows.flatMap Row.old ++ as, s.seen + r.old.length, s.out ++ r.new,
        (rows.flatMap Row.old).length, (rows.flatMap Row.new).length⟩ := by
      rw [take, if_pos ⟨⟨_, hrest.symm⟩, by omega, by omega⟩, hrest, hold, hnew, List.drop_left, Nat.add_sub_cancel_left,
        Nat.add_sub_cancel_left]
    rw [List.map_cons, run_cons, step_text hsome, htake, Option.bind_some, run_rows rfl rfl rfl, hold, List.flatMap_cons,
      List.append_assoc, Nat.add_assoc]

/-- Between two hunks: `i` lines came, `j` are written, and `as` are to come. -/
structure At (s : Progress) (i j : Nat) (as : List Text) : Prop where
  rest : s.rest = as
  seen : s.seen = i
  out : s.out.length = j
  old : s.old = 0
  new : s.new = 0

theorem At.step_head {s : Progress} {i j : Nat} {gap more : List Text} (hs : s.At i j (gap ++ more)) {h : Hunk}
    (hleft : h.left = i + gap.length) (hright : h.right = j + gap.length) :
    s.step h.head = some ⟨more, h.left, s.out ++ gap, h.old.length, h.new.length⟩ := by
  have hgap : h.left - i = gap.length := by omega
  rw [step, if_pos (by rw [hs.old, hs.new]), readHead_head, Option.bind_some, seek, Range.before_of, Range.before_of, hs.seen,
    hs.rest, hs.out, hgap, if_pos ⟨by omega, by rw [List.length_append]; omega, hright.symm⟩, List.drop_left, List.take_left]
  rfl

/-- A whole hunk, row by row. -/
theorem At.run_hunk {s : Progress} {i j : Nat} {gap as : List Text} {h : Hunk} (hs : s.At i j (gap ++ (h.old ++ as)))
    (hleft : h.left = i + gap.length) (hright : h.right = j + gap.length) :
    ∃ s', s.run (h.head :: h.rows.map Row.text) = some s' ∧ s'.At (h.left + h.old.length) (h.right + h.new.length) as ∧
      s'.out = s.out ++ gap ++ h.new := by
  rw [run_cons, hs.step_head hleft hright, Option.bind_some, run_rows rfl rfl rfl]
  refine ⟨_, rfl, ⟨rfl, rfl, ?_, rfl, rfl⟩, rfl⟩
  rw [List.length_append, List.length_append, hs.out, ← hright]
  rfl

end Progress

/-- The rows of a hunk as they are printed, its head first. -/
def Hunk.pieces (h : Hunk) : List Text := h.head :: h.rows.map Row.text

/-- **Carrying out a plan row by row turns one list into the other.** -/
theorem Plan.run_pieces {i j : Nat} {as bs : List Text} {hs : List Hunk} (plan : Plan i j as bs hs) :
    ∀ {s : Progress}, s.At i j as → ∃ s', s.run (hs.flatMap Hunk.pieces) = some s' ∧
      s'.finish = some (s.out ++ bs).flatten := by
  induction plan with
  | done i j rest =>
    intro s hs
    refine ⟨s, rfl, ?_⟩
    rw [Progress.finish, if_pos (by rw [hs.old, hs.new]), hs.rest]
  | hunk gap left right _ _ _ ih =>
    intro s hs
    obtain ⟨s₁, hrun, hat, hout⟩ := hs.run_hunk left right
    obtain ⟨s', hrest, hfinish⟩ := ih hat
    refine ⟨s', ?_, ?_⟩
    · rw [List.flatMap_cons, Progress.run_append, Hunk.pieces, hrun, Option.bind_some, hrest]
    · rw [hfinish, hout, List.append_assoc, List.append_assoc]

end EpFormat.Diff
