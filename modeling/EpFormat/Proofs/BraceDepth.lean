import Mathlib.Data.List.Infix
import EpFormat.Proofs.Layout
/-!
# BraceDepth — laying out by the nesting of braces

Laying out a block keeps a counter of open braces that never falls below zero (`openBraces`).  In code that closes no brace
which is not open, the counter is the number of braces opened less the number closed (`openBraces_eq`), and a line never
begins with more closing braces than are open.  So each line stands at its level of nesting (`indent_follows_braces`), as long
as a line can be as wide as that.
-/
namespace EpFormat.Perl

open Template (braceBalance)

def leadingCloses (line : Text) : Nat := ((Text.trim line).takeWhile (· = '\x7d')).length

/-- The level of a line: the braces that are open after the lines before it, less the closing ones that begin it. -/
def braceLevel (before : List Text) (line : Text) : Int := braceBalance before.flatten - leadingCloses line

/-- A line as it is laid out after the lines before it. -/
structure LaidOut (width : Int) (before : List Text) (line out : Text) : Prop where
  blank : allBlank line = true → out = []
  ink : allBlank line = false →
    ∃ k : Nat, (k : Int) = width * braceLevel before line ∧ out = List.replicate k ' ' ++ Text.trim line

/-- No line with ink is too wide at its level. -/
def Narrow (width : Int) (ls : List Text) : Prop :=
  ∀ before line after, ls = before ++ line :: after → allBlank line = false →
    widthError? (width * braceLevel before line) = none

/-! ## The counter -/

def afterLine (depth : Nat) (line : Text) : Nat := depth + line.count '\x7b' - line.count '\x7d'

def openBraces (depth : Nat) (ls : List Text) : Nat := ls.foldl afterLine depth

theorem afterLine_trim (depth : Nat) (line : Text) : afterLine depth (Text.trim line) = afterLine depth line := by
  have hcount : ∀ c : Char, isBlank c = false → (Text.trim line).count c = line.count c := fun c hc => by
    rw [← count_ink hc, ink_trim, count_ink hc]
  rw [afterLine, afterLine, hcount _ (by decide), hcount _ (by decide)]

theorem isEmpty_trim (line : Text) : (Text.trim line).isEmpty = allBlank line := by
  rw [Bool.eq_iff_iff, List.isEmpty_iff, Text.trim_eq_nil_iff]

theorem indentLines_step (width : Int) (depth : Nat) (line : Text) (rest : List Text) :
    indentLines width depth (line :: rest)
      = (if allBlank line then [] else Text.spaces ((depth - leadingCloses line : Nat) * width) ++ Text.trim line)
        :: indentLines width (afterLine depth line) rest := by
  rw [indentLines_cons, isEmpty_trim, ← afterLine_trim]
  rfl

theorem wideLine?_step (width : Int) (depth : Nat) (line : Text) (rest : List Text) :
    wideLine? width depth (line :: rest)
      = (if allBlank line then none else widthError? ((depth - leadingCloses line : Nat) * width)).or
        (wideLine? width (afterLine depth line) rest) := by
  rw [← wideLine?_trim, List.map_cons, wideLine?, ← wideLine?_trim width rest (afterLine depth line), ← afterLine_trim]
  simp only [isEmpty_trimRight, Text.trim_idem, isEmpty_trim, Text.trimLeft_trimRight]
  by_cases hblank : allBlank line = true
  · rw [if_pos hblank, if_pos hblank, Text.trim_eq_nil_iff.2 hblank]
    rfl
  · rw [if_neg hblank, if_neg hblank, count_trimRight (by decide), count_trimRight (by decide), Text.trim_idem]
    unfold leadingCloses
    split
    · rename_i e he
      rw [he]
      rfl
    · rename_i hnone
      rw [hnone]
      rfl

theorem indentLines_append (width : Int) (ls : List Text) : ∀ (before : List Text) (depth : Nat),
    indentLines width depth (before ++ ls) = indentLines width depth before ++ indentLines width (openBraces depth before) ls
  | [], _ => rfl
  | line :: before, depth => by
    rw [List.cons_append, indentLines_step, indentLines_step, indentLines_append width ls before]
    rfl

theorem wideLine?_append (width : Int) (ls : List Text) : ∀ (before : List Text) (depth : Nat),
    wideLine? width depth (before ++ ls) = (wideLine? width depth before).or (wideLine? width (openBraces depth before) ls)
  | [], _ => rfl
  | line :: before, depth => by
    rw [List.cons_append, wideLine?_step, wideLine?_step, wideLine?_append width ls before, Option.or_assoc]
    rfl

/-! ## Code that closes what is open -/

/-- No beginning of the text closes more braces than it opens. -/
def ClosesOpen (t : Text) : Prop := ∀ p, p <+: t → p.count '\x7d' ≤ p.count '\x7b'

instance (t : Text) : Decidable (ClosesOpen t) :=
  decidable_of_iff (∀ p ∈ t.inits, p.count '\x7d' ≤ p.count '\x7b') (by simp only [List.mem_inits, ClosesOpen])

theorem ClosesOpen.of_append {s t : Text} (h : ClosesOpen (s ++ t)) : ClosesOpen s :=
  fun p hp => h p (hp.trans (List.prefix_append s t))

theorem ClosesOpen.of_flatten {before after : List Text} (h : ClosesOpen (before ++ after).flatten) :
    ClosesOpen before.flatten := by
  rw [List.flatten_append] at h
  exact h.of_append

theorem ClosesOpen.lines {t : Text} (h : ClosesOpen t) : ClosesOpen (Text.lines t).flatten := by
  intro p hp
  have hflat : (Text.lines t).flatten = t.filter (fun c => !isLineBreak c) := by
    rw [Text.lines, ← List.filter_flatten, flatten_linesKeep]
  rw [hflat] at hp
  obtain ⟨rest, hrest⟩ := hp
  obtain ⟨s, u, rfl, rfl, -⟩ := List.filter_eq_append_iff.1 hrest.symm
  rw [List.count_filter (by decide), List.count_filter (by decide)]
  exact h s (List.prefix_append s u)

/-- **The counter never stops at zero**: it is the number of braces opened less the number closed. -/
theorem openBraces_eq {ls : List Text} (h : ClosesOpen ls.flatten) : (openBraces 0 ls : Int) = braceBalance ls.flatten := by
  induction ls using List.reverseRecOn with
  | nil => rfl
  | append_singleton ls line ih =>
    rw [List.flatten_append, List.flatten_singleton] at h ⊢
    have hbefore := ih h.of_append
    have hafter := h _ List.prefix_rfl
    rw [List.count_append, List.count_append] at hafter
    have hstep : openBraces 0 (ls ++ [line]) = afterLine (openBraces 0 ls) line := by
      rw [openBraces, List.foldl_append]
      rfl
    rw [hstep, afterLine, braceBalance, List.count_append, List.count_append]
    rw [braceBalance] at hbefore
    omega

theorem leadingCloses_le {before : List Text} {line : Text} (h : ClosesOpen (before.flatten ++ line)) :
    (leadingCloses line : Int) ≤ braceBalance before.flatten := by
  obtain ⟨a, b, ha, -, hline⟩ := Text.exists_trim line
  -- the code up to the first character of the line that is neither blank nor a closing brace
  have hstart : before.flatten ++ (a ++ (Text.trim line).takeWhile (· = '\x7d')) <+: before.flatten ++ line := by
    rw [List.prefix_append_right_inj]
    conv => rhs; rw [hline]
    rw [List.prefix_append_right_inj]
    exact (List.takeWhile_prefix _).trans (List.prefix_append _ b)
  have hcloses : (Text.trim line).takeWhile (· = '\x7d') = List.replicate (leadingCloses line) '\x7d' :=
    List.eq_replicate_of_mem (fun c hc => by simpa using List.all_eq_true.1 List.all_takeWhile c hc)
  have hbraces := h _ hstart
  have hopen : a.count '\x7b' = 0 := List.count_eq_zero.2 (fun hm => absurd (allBlank_iff.1 ha _ hm) (by decide))
  rw [hcloses, List.count_append, List.count_append, List.count_append, List.count_append, hopen,
    List.count_replicate_self, List.count_replicate, if_neg (by decide)] at hbraces
  rw [braceBalance]
  omega

theorem openBraces_sub {before after : List Text} {line : Text} (h : ClosesOpen (before ++ line :: after).flatten) :
    ((openBraces 0 before - leadingCloses line : Nat) : Int) = braceLevel before line := by
  rw [List.flatten_append, List.flatten_cons, ← List.append_assoc] at h
  have hdepth := openBraces_eq h.of_append.of_append
  have hcloses := leadingCloses_le h.of_append
  rw [braceLevel]
  omega

/-! ## Lines at their levels -/

theorem laidOut_indentLines {width : Int} (hw : 0 ≤ width) {before after : List Text} {line : Text}
    (h : ClosesOpen (before ++ line :: after).flatten) :
    ∃ k ∈ (indentLines width 0 (before ++ line :: after))[before.length]?, LaidOut width before line k := by
  have hlength : (indentLines width 0 before).length = before.length := by
    simpa using congrArg List.length (map_trim_indentLines width before 0)
  rw [indentLines_append, List.getElem?_append_right (by omega), hlength, Nat.sub_self, indentLines_step]
  refine ⟨_, rfl, fun hblank => if_pos hblank, fun hink => ?_⟩
  refine ⟨(((openBraces 0 before - leadingCloses line : Nat) : Int) * width).toNat, ?_, if_neg (by simp [hink])⟩
  rw [Int.toNat_of_nonneg (Int.mul_nonneg (Int.natCast_nonneg _) hw), openBraces_sub h, Int.mul_comm]

/-- What is too wide from a line with ink on: that line, or else something after it. -/
theorem wideLine?_line {before after : List Text} {line : Text} (h : ClosesOpen (before ++ line :: after).flatten)
    (hink : allBlank line = false) (width : Int) :
    wideLine? width (openBraces 0 before) (line :: after) = (widthError? (width * braceLevel before line)).or
      (wideLine? width (openBraces 0 (before ++ [line])) after) := by
  rw [wideLine?_step, if_neg (by simp [hink]), openBraces_sub h, Int.mul_comm, openBraces, openBraces, List.foldl_append]
  rfl

theorem wideLine?_eq_none_iff {width : Int} {ls : List Text} (h : ClosesOpen ls.flatten) :
    wideLine? width 0 ls = none ↔ Narrow width ls := by
  constructor
  · rintro hnone before line after rfl hink
    rw [wideLine?_append, wideLine?_line h hink, Option.or_eq_none_iff, Option.or_eq_none_iff] at hnone
    exact hnone.2.1
  · intro hnarrow
    induction ls using List.reverseRecOn with
    | nil => rfl
    | append_singleton ls line ih =>
      have hls : Narrow width ls := fun a l b hab => hnarrow a l (b ++ [line]) (by rw [hab, List.append_assoc]; rfl)
      rw [wideLine?_append, ih h.of_flatten hls, Option.none_or]
      cases hink : allBlank line with
      | true => rw [wideLine?_step, if_pos hink]; rfl
      | false => rw [wideLine?_line h hink, hnarrow ls line [] rfl hink]; rfl

end EpFormat.Perl
