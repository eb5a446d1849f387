import EpFormat.Proofs.CommonLines
/-!
# Hunks — a patch accounts for every line of both texts

The steps from one list to another lead from the start of both to their end, each beginning where the last one stopped
(`steps_path`).  Trimming and cutting only leave out lines that both lists share.  So the hunks of a patch follow a plan
(`patchHunks_plan`): lines that stay, then a hunk that takes lines from one list and puts lines of the other in their place,
and so on, up to an end that the two lists have in common.
-/
namespace EpFormat.Diff

variable {a b : List Text}

/-! ## Lines that stay -/

theorem Kept.none (a b : List Text) (i j : Nat) : Kept a b i j 0 := fun _ hk => absurd hk (Nat.not_lt_zero _)

theorem Kept.start {i j n m : Nat} (h : Kept a b i j n) (hm : m ≤ n) : Kept a b i j m := fun k hk => h k (by omega)

theorem Kept.append {i j n m : Nat} (h : Kept a b i j n) (h' : Kept a b (i + n) (j + n) m) : Kept a b i j (n + m) := by
  intro k hk
  by_cases hfirst : k < n
  · exact h k hfirst
  · have hlater := h' (k - n) (by omega)
    rwa [show i + n + (k - n) = i + k by omega, show j + n + (k - n) = j + k by omega] at hlater

theorem Kept.part {i j n k m : Nat} (h : Kept a b i j n) (hk : k + m ≤ n) : Kept a b (i + k) (j + k) m := by
  intro q hq
  have hsame := h (k + q) (by omega)
  rwa [← Nat.add_assoc, ← Nat.add_assoc] at hsame

theorem Kept.take_drop {i j n : Nat} (h : Kept a b i j n) : (a.drop i).take n = (b.drop j).take n := by
  refine List.ext_getElem? fun k => ?_
  by_cases hk : k < n
  · obtain ⟨l, ha, hb⟩ := h k hk
    rw [List.getElem?_take_of_lt hk, List.getElem?_take_of_lt hk, List.getElem?_drop, List.getElem?_drop, ha, hb]
  · rw [List.getElem?_take_eq_none (Nat.le_of_not_lt hk), List.getElem?_take_eq_none (Nat.le_of_not_lt hk)]

theorem Kept.length_take {i j n : Nat} (h : Kept a b i j n) : ((a.drop i).take n).length = n := by
  rw [List.length_take, List.length_drop]
  cases n with
  | zero => exact Nat.zero_min _
  | succ n =>
    obtain ⟨l, ha, -⟩ := h n (Nat.lt_succ_self n)
    obtain ⟨hlt, -⟩ := List.getElem?_eq_some_iff.1 ha
    omega

theorem slice_eq (ls : List Text) (i i' : Nat) : slice ls i i' = (ls.drop i).take (i' - i) := List.drop_take

theorem slice_append_drop {ls : List Text} {i i' : Nat} (h : i ≤ i') : slice ls i i' ++ ls.drop i' = ls.drop i := by
  have hdrop : ls.drop i' = (ls.drop i).drop (i' - i) := by rw [List.drop_drop, Nat.add_sub_cancel' h]
  rw [slice_eq, hdrop, List.take_append_drop]

theorem length_slice {ls : List Text} {i i' : Nat} (h : i' ≤ ls.length) : (slice ls i i').length = i' - i := by
  rw [slice_eq, List.length_take, List.length_drop]
  omega

theorem slice_self (ls : List Text) (i : Nat) : slice ls i i = [] := by rw [slice_eq, Nat.sub_self, List.take_zero]

/-! ## The rows of a hunk -/

/-- A row of a hunk: a line that stays, one that goes or one that comes. -/
inductive Row
  | keep (line : Text)
  | drop (line : Text)
  | add (line : Text)
  deriving DecidableEq, Repr

namespace Row

def line : Row → Text
  | keep l | drop l | add l => l

def text : Row → Text
  | keep l => ' ' :: l
  | drop l => '-' :: l
  | add l => '+' :: l

def old : Row → List Text
  | keep l | drop l => [l]
  | add _ => []

def new : Row → List Text
  | keep l | add l => [l]
  | drop _ => []

end Row

def rowsOf (a b : List Text) (s : Step) : List Row :=
  match s.change with
  | .keep => (slice a s.leftFrom s.leftTo).map .keep
  | .delete => (slice a s.leftFrom s.leftTo).map .drop
  | .insert => (slice b s.rightFrom s.rightTo).map .add
  | .replace => (slice a s.leftFrom s.leftTo).map .drop ++ (slice b s.rightFrom s.rightTo).map .add

theorem stepText_eq (a b : List Text) (s : Step) : stepText a b s = (rowsOf a b s).flatMap Row.text := by
  unfold stepText rowsOf
  cases s.change <;> simp only [List.flatMap_map, List.flatMap_append, Row.text]

/-! ## Steps from one list to the other -/

/-- A step that does on both lists what it says. -/
structure Step.Sound (a b : List Text) (s : Step) : Prop where
  left : s.leftFrom ≤ s.leftTo
  right : s.rightFrom ≤ s.rightTo
  leftEnd : s.leftTo ≤ a.length
  rightEnd : s.rightTo ≤ b.length
  keep : s.change = .keep →
    ∃ n, s.leftTo = s.leftFrom + n ∧ s.rightTo = s.rightFrom + n ∧ Kept a b s.leftFrom s.rightFrom n
  delete : s.change = .delete → s.rightTo = s.rightFrom
  insert : s.change = .insert → s.leftTo = s.leftFrom
  changed : s.change ≠ .keep → s.leftFrom < s.leftTo ∨ s.rightFrom < s.rightTo

theorem Step.Sound.old {s : Step} (h : s.Sound a b) : (rowsOf a b s).flatMap Row.old = slice a s.leftFrom s.leftTo := by
  unfold rowsOf
  cases hc : s.change with
  | keep | delete | replace => simp [List.flatMap_map, Row.old]
  | insert =>
    rw [h.insert hc, slice_self]
    simp [List.flatMap_map, Row.old]

theorem Step.Sound.new {s : Step} (h : s.Sound a b) : (rowsOf a b s).flatMap Row.new = slice b s.rightFrom s.rightTo := by
  unfold rowsOf
  cases hc : s.change with
  | keep =>
    obtain ⟨n, hleft, hright, hkept⟩ := h.keep hc
    have hsame : slice a s.leftFrom s.leftTo = slice b s.rightFrom s.rightTo := by
      rw [slice_eq, slice_eq, hleft, hright, Nat.add_sub_cancel_left, Nat.add_sub_cancel_left, hkept.take_drop]
    rw [hsame]
    simp [List.flatMap_map, Row.new]
  | insert | replace => simp [List.flatMap_map, Row.new]
  | delete =>
    rw [h.delete hc, slice_self]
    simp [List.flatMap_map, Row.new]

theorem Step.Sound.rowsOf_ne_nil {s : Step} (h : s.Sound a b) (hc : s.change ≠ .keep) : rowsOf a b s ≠ [] := by
  intro hnone
  have hold := congrArg List.length h.old
  have hnew := congrArg List.length h.new
  rw [hnone, List.flatMap_nil, length_slice h.leftEnd, List.length_nil] at hold
  rw [hnone, List.flatMap_nil, length_slice h.rightEnd, List.length_nil] at hnew
  have hsome := h.changed hc
  omega

abbrev keepStep (i j n : Nat) : Step := ⟨.keep, i, i + n, j, j + n⟩

theorem keepStep_sound {i j n : Nat} (h : Kept a b i j n) (ha : i + n ≤ a.length) (hb : j + n ≤ b.length) :
    (keepStep i j n).Sound a b :=
  ⟨Nat.le_add_right _ _, Nat.le_add_right _ _, ha, hb, fun _ => ⟨n, rfl, rfl, h⟩, Change.noConfusion, Change.noConfusion,
    fun hc => absurd rfl hc⟩

theorem Step.Sound.eq_keepStep {s : Step} (h : s.Sound a b) (hc : s.change = .keep) :
    ∃ i j n, s = keepStep i j n ∧ Kept a b i j n ∧ i + n ≤ a.length ∧ j + n ≤ b.length := by
  obtain ⟨n, hleft, hright, hkept⟩ := h.keep hc
  refine ⟨s.leftFrom, s.rightFrom, n, ?_, hkept, hleft ▸ h.leftEnd, hright ▸ h.rightEnd⟩
  rw [keepStep, ← hc, ← hleft, ← hright]

/-- Steps that lead from one place in both lists to another. -/
def Path (a b : List Text) : Nat → Nat → List Step → Nat → Nat → Prop
  | i, j, [], i', j' => i = i' ∧ j = j'
  | i, j, s :: rest, i', j' => s.leftFrom = i ∧ s.rightFrom = j ∧ s.Sound a b ∧ Path a b s.leftTo s.rightTo rest i' j'

namespace Path

theorem single {s : Step} (h : s.Sound a b) : Path a b s.leftFrom s.rightFrom [s] s.leftTo s.rightTo :=
  ⟨rfl, rfl, h, rfl, rfl⟩

theorem append {i' j' i'' j'' : Nat} {tt : List Step} : ∀ {ss : List Step} {i j : Nat}, Path a b i j ss i' j' →
    Path a b i' j' tt i'' j'' → Path a b i j (ss ++ tt) i'' j''
  | [], _, _, ⟨rfl, rfl⟩, h' => h'
  | _ :: _, _, _, ⟨hl, hr, hs, h⟩, h' => ⟨hl, hr, hs, append h h'⟩

theorem of_append {i' j' : Nat} {tt : List Step} : ∀ {ss : List Step} {i j : Nat}, Path a b i j (ss ++ tt) i' j' →
    ∃ k l, Path a b i j ss k l ∧ Path a b k l tt i' j'
  | [], i, j, h => ⟨i, j, ⟨rfl, rfl⟩, h⟩
  | _ :: _, _, _, ⟨hl, hr, hs, h⟩ => by
    obtain ⟨k, l, hfirst, hlast⟩ := of_append h
    exact ⟨k, l, ⟨hl, hr, hs, hfirst⟩, hlast⟩

/-- What the rows of a path take is what lies between its ends on the left. -/
theorem old {i' j' : Nat} : ∀ {ss : List Step} {i j : Nat}, Path a b i j ss i' j' →
    a.drop i = (ss.flatMap (rowsOf a b)).flatMap Row.old ++ a.drop i' ∧
      i' = i + ((ss.flatMap (rowsOf a b)).flatMap Row.old).length
  | [], _, _, ⟨rfl, rfl⟩ => ⟨rfl, rfl⟩
  | s :: rest, _, _, ⟨rfl, rfl, hs, h⟩ => by
    obtain ⟨hdrop, hlength⟩ := old h
    have hto := hs.left
    rw [List.flatMap_cons, List.flatMap_append, hs.old, List.length_append, length_slice hs.leftEnd, List.append_assoc,
      ← hdrop, slice_append_drop hto]
    exact ⟨rfl, by omega⟩

/-- What the rows of a path give is what lies between its ends on the right. -/
theorem new {i' j' : Nat} : ∀ {ss : List Step} {i j : Nat}, Path a b i j ss i' j' →
    b.drop j = (ss.flatMap (rowsOf a b)).flatMap Row.new ++ b.drop j' ∧
      j' = j + ((ss.flatMap (rowsOf a b)).flatMap Row.new).length
  | [], _, _, ⟨rfl, rfl⟩ => ⟨rfl, rfl⟩
  | s :: rest, _, _, ⟨rfl, rfl, hs, h⟩ => by
    obtain ⟨hdrop, hlength⟩ := new h
    have hto := hs.right
    rw [List.flatMap_cons, List.flatMap_append, hs.new, List.length_append, length_slice hs.rightEnd, List.append_assoc,
      ← hdrop, slice_append_drop hto]
    exact ⟨rfl, by omega⟩

theorem rows_ne_nil {i' j' : Nat} : ∀ {ss : List Step} {i j : Nat}, Path a b i j ss i' j' → changes ss = true →
    ss.flatMap (rowsOf a b) ≠ []
  | s :: rest, _, _, ⟨_, _, hs, h⟩, hc => by
    simp only [changes, List.any_cons, Bool.or_eq_true, decide_eq_true_eq] at hc
    rw [List.flatMap_cons, Ne, List.append_eq_nil_iff, not_and_or]
    exact hc.imp hs.rowsOf_ne_nil (rows_ne_nil h)

/-- A path that changes nothing keeps what lies between its ends. -/
theorem kept {i' j' : Nat} : ∀ {ss : List Step} {i j : Nat}, Path a b i j ss i' j' → changes ss = false →
    ∃ n, i' = i + n ∧ j' = j + n ∧ Kept a b i j n
  | [], _, _, ⟨rfl, rfl⟩, _ => ⟨0, rfl, rfl, .none a b _ _⟩
  | s :: rest, _, _, ⟨rfl, rfl, hs, h⟩, hc => by
    simp only [changes, List.any_cons, Bool.or_eq_false_iff, decide_eq_false_iff_not, ne_eq, not_not] at hc
    obtain ⟨m, rfl, rfl, hrest⟩ := kept h hc.2
    obtain ⟨n, hleft, hright, hkept⟩ := hs.keep hc.1
    rw [hleft, hright] at hrest ⊢
    exact ⟨n + m, Nat.add_assoc _ _ _, Nat.add_assoc _ _ _, hkept.append hrest⟩

end Path

theorem between_path {i i' j j' : Nat} (hi : i ≤ i') (hj : j ≤ j') (ha : i' ≤ a.length) (hb : j' ≤ b.length) :
    Path a b i j (between i i' j j') i' j' := by
  unfold between
  simp only [Bool.and_eq_true, decide_eq_true_eq]
  split_ifs with hboth hleft hright
  · exact .single ⟨hi, hj, ha, hb, Change.noConfusion, Change.noConfusion, Change.noConfusion, fun _ => .inl hboth.1⟩
  · have hnone : j' = j := by omega
    exact .single ⟨hi, hj, ha, hb, Change.noConfusion, fun _ => hnone, Change.noConfusion, fun _ => .inl hleft⟩
  · have hnone : i' = i := by omega
    exact .single ⟨hi, hj, ha, hb, Change.noConfusion, Change.noConfusion, fun _ => hnone, fun _ => .inr hright⟩
  · exact ⟨by omega, by omega⟩

theorem stepsFrom_path : ∀ {ms : List Match} {i j : Nat}, i ≤ a.length → j ≤ b.length →
    (Pair.ofLists a b).Along ⟨i, a.length, j, b.length⟩ ms →
    Path a b i j (stepsFrom a.length b.length i j ms) a.length b.length
  | [], _, _, hi, hj, _ => between_path hi hj (Nat.le_refl _) (Nat.le_refl _)
  | m :: rest, i, j, _, _, ⟨hm, hrest⟩ => by
    have hleft : m.left + m.size ≤ a.length := hm.leftTo
    have hright : m.right + m.size ≤ b.length := hm.rightTo
    rw [stepsFrom]
    refine (between_path hm.leftFrom hm.rightFrom (by omega) (by omega)).append
      ⟨rfl, rfl, keepStep_sound hm.kept hleft hright, ?_⟩
    exact stepsFrom_path hleft hright hrest

/-- **The steps lead from the start of both lists to their end.** -/
theorem steps_path (a b : List Text) : Path a b 0 0 (steps a b) a.length b.length :=
  stepsFrom_path (Nat.zero_le _) (Nat.zero_le _) (commonBlocks_along a b)

/-! ## Trimming -/

theorem keepEnd_keepStep (i j n : Nat) :
    keepEnd (keepStep i j n) = keepStep (i + (n - context)) (j + (n - context)) (min n context) := by
  simp only [keepEnd, keepStep, context, Step.mk.injEq, true_and]
  omega

theorem keepStart_keepStep (i j n : Nat) : keepStart (keepStep i j n) = keepStep i j (min n context) := by
  simp only [keepStart, keepStep, context, Step.mk.injEq, true_and]
  omega

theorem trimFirst_path {ss : List Step} {i j i' j' : Nat} (h : Path a b i j ss i' j') :
    ∃ n, Kept a b i j n ∧ Path a b (i + n) (j + n) (trimFirst ss) i' j' := by
  cases ss with
  | nil => exact ⟨0, .none a b i j, h⟩
  | cons s rest =>
    rw [trimFirst]
    split_ifs with hc
    · obtain ⟨rfl, rfl, hs, hrest⟩ := h
      obtain ⟨i, j, n, rfl, hkept, ha, hb⟩ := hs.eq_keepStep hc
      refine ⟨n - context, hkept.start (by omega), ?_⟩
      rw [keepEnd_keepStep]
      refine ⟨rfl, rfl, keepStep_sound (hkept.part (by omega)) (by omega) (by omega), ?_⟩
      simp only [Nat.add_assoc, show n - context + min n context = n by omega]
      exact hrest
    · exact ⟨0, .none a b i j, h⟩

theorem trimLast_concat (front : List Step) (s : Step) :
    trimLast (front ++ [s]) = front ++ [if s.change = .keep then keepStart s else s] := by
  simp [trimLast]

theorem trimLast_path {ss : List Step} {i j i' j' : Nat} (h : Path a b i j ss i' j') :
    ∃ k l n, Kept a b k l n ∧ i' = k + n ∧ j' = l + n ∧ Path a b i j (trimLast ss) k l := by
  rcases List.eq_nil_or_concat ss with rfl | ⟨front, s, rfl⟩
  · exact ⟨i', j', 0, .none a b i' j', rfl, rfl, h⟩
  · rw [List.concat_eq_append] at h ⊢
    rw [trimLast_concat]
    split_ifs with hc
    · obtain ⟨k, l, hfront, rfl, rfl, hs, rfl, rfl⟩ := h.of_append
      obtain ⟨i, j, n, rfl, hkept, ha, hb⟩ := hs.eq_keepStep hc
      rw [keepStart_keepStep]
      refine ⟨i + min n context, j + min n context, n - min n context, hkept.part (by omega), by simp only; omega,
        by simp only; omega, hfront.append (.single (keepStep_sound (hkept.start (by omega)) (by omega) (by omega)))⟩
    · exact ⟨i', j', 0, .none a b i' j', rfl, rfl, h⟩

/-! ## The plan of a patch -/

/-- A hunk: how many lines come before it on either side, and its rows. -/
structure Hunk where
  left : Nat
  right : Nat
  rows : List Row
  deriving DecidableEq, Repr

namespace Hunk

def old (h : Hunk) : List Text := h.rows.flatMap Row.old

def new (h : Hunk) : List Text := h.rows.flatMap Row.new

def head (h : Hunk) : Text :=
  txt "@@ -" ++ rangeText h.left (h.left + h.old.length) ++ txt " +" ++ rangeText h.right (h.right + h.new.length)
    ++ txt " @@\n"

def text (h : Hunk) : Text := h.head ++ h.rows.flatMap Row.text

/-- The hunk that a group of steps makes. -/
def ofSteps (a b : List Text) (group : List Step) : Hunk :=
  ⟨(group.head?.map (·.leftFrom)).getD 0, (group.head?.map (·.rightFrom)).getD 0, group.flatMap (rowsOf a b)⟩

end Hunk

/-- Hunks that turn what is left of one list into what is left of another, `i` and `j` lines on.  A hunk with another one after
it ends with two lines that stay, and is not at the end of the list. -/
inductive Plan : Nat → Nat → List Text → List Text → List Hunk → Prop
  | done (i j : Nat) (rest : List Text) : Plan i j rest rest []
  | hunk {i j : Nat} {as bs : List Text} {h : Hunk} {hs : List Hunk} (gap : List Text) (left : h.left = i + gap.length)
      (right : h.right = j + gap.length) (rows : h.rows ≠ [])
      (closed : hs ≠ [] → as ≠ [] ∧ ∃ front k l, h.rows = front ++ [.keep k, .keep l])
      (rest : Plan (h.left + h.old.length) (h.right + h.new.length) as bs hs) :
      Plan i j (gap ++ (h.old ++ as)) (gap ++ (h.new ++ bs)) (h :: hs)

theorem ne_nil_of_changes {group : List Step} (h : changes group = true) : group ≠ [] := by
  rintro rfl
  cases h

theorem Path.getLast? {i' j' : Nat} : ∀ {ss : List Step} {i j : Nat}, Path a b i j ss i' j' → ∀ {s : Step},
    ss.getLast? = some s → s.leftTo = i' ∧ s.rightTo = j'
  | [_], _, _, ⟨_, _, _, h⟩, _, hlast => by
    cases hlast
    exact h
  | _ :: t :: rest, _, _, ⟨_, _, _, h⟩, _, hlast => by
    rw [List.getLast?_cons_cons] at hlast
    exact h.getLast? hlast

theorem Hunk.ofSteps_eq {group : List Step} {i j i' j' : Nat} (h : Path a b i j group i' j') (hne : group ≠ []) :
    Hunk.ofSteps a b group = ⟨i, j, group.flatMap (rowsOf a b)⟩ := by
  obtain ⟨s, rest, rfl⟩ := List.exists_cons_of_ne_nil hne
  obtain ⟨rfl, rfl, -, -⟩ := h
  rfl

theorem flatMap_stepText (a b : List Text) (group : List Step) :
    group.flatMap (stepText a b) = (group.flatMap (rowsOf a b)).flatMap Row.text := by
  rw [List.flatMap_assoc]
  exact List.flatMap_congr fun s _ => stepText_eq a b s

theorem hunkText_eq {group : List Step} {i j i' j' : Nat} (h : Path a b i j group i' j') (hne : group ≠ []) :
    hunkText a b group = (Hunk.ofSteps a b group).text := by
  obtain ⟨s, rest, rfl⟩ := List.exists_cons_of_ne_nil hne
  obtain ⟨t, ht⟩ : ∃ t, (s :: rest).getLast? = some t := ⟨_, List.getLast?_eq_some_getLast hne⟩
  obtain ⟨hleft, hright⟩ := h.getLast? ht
  rw [Hunk.ofSteps_eq h hne, Hunk.text, Hunk.head, Hunk.old, Hunk.new, ← h.old.2, ← h.new.2, hunkText, ht, List.head?_cons]
  simp only [hleft, hright, h.1, h.2.1, flatMap_stepText]

theorem Kept.drop_eq {i j n : Nat} (h : Kept a b i j n) (hrest : a.drop (i + n) = b.drop (j + n)) : a.drop i = b.drop j := by
  rw [← List.take_append_drop n (a.drop i), ← List.take_append_drop n (b.drop j), List.drop_drop, List.drop_drop, h.take_drop,
    hrest]

theorem Plan.group {group : List Step} {hs : List Hunk} {i j n i' j' : Nat} (hkept : Kept a b i j n)
    (hpath : Path a b (i + n) (j + n) group i' j') (hc : changes group = true)
    (closed : hs ≠ [] → a.drop i' ≠ [] ∧ ∃ front k l, group.flatMap (rowsOf a b) = front ++ [.keep k, .keep l])
    (rest : Plan i' j' (a.drop i') (b.drop j') hs) : Plan i j (a.drop i) (b.drop j) (Hunk.ofSteps a b group :: hs) := by
  have hne := ne_nil_of_changes hc
  obtain ⟨hold, hi'⟩ := hpath.old
  obtain ⟨hnew, hj'⟩ := hpath.new
  have hleft : a.drop i = (a.drop i).take n ++ ((Hunk.ofSteps a b group).old ++ a.drop i') := by
    rw [Hunk.old, Hunk.ofSteps, ← hold, ← List.drop_drop, List.take_append_drop]
  have hright : b.drop j = (a.drop i).take n ++ ((Hunk.ofSteps a b group).new ++ b.drop j') := by
    rw [Hunk.new, Hunk.ofSteps, ← hnew, hkept.take_drop, ← List.drop_drop, List.take_append_drop]
  rw [hleft, hright]
  refine .hunk _ ?_ ?_ (hpath.rows_ne_nil hc) closed ?_
  · rw [Hunk.ofSteps_eq hpath hne, hkept.length_take]
  · rw [Hunk.ofSteps_eq hpath hne, hkept.length_take]
  · rw [Hunk.ofSteps_eq hpath hne, Hunk.old, Hunk.new, ← hi', ← hj']
    exact rest

/-- Groups of steps that make the hunks of a plan, from `i` and `j` lines on, and are printed as these. -/
structure Laid (a b : List Text) (i j : Nat) (groups : List (List Step)) : Prop where
  plan : Plan i j (a.drop i) (b.drop j) (groups.map (Hunk.ofSteps a b))
  text : ∀ g ∈ groups, hunkText a b g = (Hunk.ofSteps a b g).text

/-- A group before others makes a hunk or, if it changes nothing, more lines that stay. -/
theorem Laid.filter_cons {group : List Step} {groups : List (List Step)} {i j n i' j' : Nat} (hkept : Kept a b i j n)
    (hpath : Path a b (i + n) (j + n) group i' j')
    (closed : groups ≠ [] → a.drop i' ≠ [] ∧ ∃ front k l, group.flatMap (rowsOf a b) = front ++ [.keep k, .keep l])
    (rest : ∀ {k l m : Nat}, Kept a b k l m → k + m = i' → l + m = j' → Laid a b k l (groups.filter changes)) :
    Laid a b i j ((group :: groups).filter changes) := by
  cases hc : changes group with
  | false =>
    obtain ⟨m, rfl, rfl, hmore⟩ := hpath.kept hc
    rw [List.filter_cons_of_neg (by simp [hc])]
    exact rest (hkept.append hmore) (Nat.add_assoc _ _ _).symm (Nat.add_assoc _ _ _).symm
  | true =>
    have hrest := rest (.none a b i' j') rfl rfl
    have htext := hunkText_eq hpath (ne_nil_of_changes hc)
    rw [List.filter_cons_of_pos hc]
    refine ⟨.group hkept hpath hc (fun hs => closed ?_) hrest.plan, List.forall_mem_cons.2 ⟨htext, hrest.text⟩⟩
    rintro rfl
    exact hs rfl

/-- A stretch that is long enough to cut leaves three lines at the end of a hunk. -/
theorem rowsOf_keepStart {i j n : Nat} (ha : i + n ≤ a.length) (hn : 2 * context < n) :
    ∃ k l m, rowsOf a b (keepStart (keepStep i j n)) = [.keep k, .keep l, .keep m] := by
  have hlength : (slice a i (i + context)).length = 3 := by
    rw [length_slice (by omega), Nat.add_sub_cancel_left]
    rfl
  obtain ⟨k, l, m, hslice⟩ := List.length_eq_three.1 hlength
  refine ⟨k, l, m, ?_⟩
  rw [keepStart_keepStep, Nat.min_eq_right (by omega), rowsOf, hslice]
  rfl

/-- Cutting the steps that are left, where lines that stay and the steps of the current group lead up to them. -/
theorem hunksFrom_laid {i' j' : Nat} (hend : a.drop i' = b.drop j') : ∀ {ss group : List Step} {i j n k l : Nat},
    Kept a b i j n → Path a b (i + n) (j + n) group.reverse k l → Path a b k l ss i' j' →
    Laid a b i j ((hunksFrom group ss).filter changes)
  | [], group, i, j, n, _, _, hkept, hgroup, ⟨rfl, rfl⟩ => by
    refine .filter_cons hkept hgroup (fun h => absurd rfl h) fun {k l m} hmore hk hl => ?_
    rw [← hk, ← hl] at hend
    refine ⟨?_, fun g hg => by cases hg⟩
    rw [hmore.drop_eq hend]
    exact .done k l _
  | s :: rest, group, i, j, n, _, _, hkept, hgroup, ⟨rfl, rfl, hs, hrest⟩ => by
    rw [hunksFrom]
    split_ifs with hcut
    · simp only [Bool.and_eq_true, decide_eq_true_eq] at hcut
      obtain ⟨k, l, m, rfl, hlong, ha, hb⟩ := hs.eq_keepStep hcut.1
      have hm : 2 * context < m := by simpa only [Nat.add_sub_cancel_left] using hcut.2
      obtain ⟨x, y, z, hrows⟩ := @rowsOf_keepStart a b k l m ha hm
      have hclosed : a.drop (k + context) ≠ [] ∧
          ∃ front x y, (keepStart (keepStep k l m) :: group).reverse.flatMap (rowsOf a b) = front ++ [.keep x, .keep y] := by
        refine ⟨by rw [Ne, List.drop_eq_nil_iff]; omega, group.reverse.flatMap (rowsOf a b) ++ [.keep x], y, z, ?_⟩
        rw [List.reverse_cons, List.flatMap_append, List.flatMap_singleton, hrows, List.append_assoc]
        rfl
      have hfirst : Path a b (i + n) (j + n) (keepStart (keepStep k l m) :: group).reverse (k + context) (l + context) := by
        rw [List.reverse_cons, keepStart_keepStep, Nat.min_eq_right (by omega)]
        exact hgroup.append (.single (keepStep_sound (hlong.start (by omega)) (by omega) (by omega)))
      refine .filter_cons hkept hfirst (fun _ => hclosed) fun {p q r} hmore hp hq => ?_
      -- between the two ends of the stretch lie lines that stay
      have hgap : Kept a b (p + r) (q + r) (m - 2 * context) := by
        rw [hp, hq]
        exact hlong.part (by omega)
      have hlast : Path a b (p + (r + (m - 2 * context))) (q + (r + (m - 2 * context))) [keepEnd (keepStep k l m)]
          (k + m) (l + m) := by
        rw [keepEnd_keepStep]
        refine ⟨by simp only; omega, by simp only; omega, keepStep_sound (hlong.part (by omega)) (by omega) (by omega), ?_⟩
        exact ⟨by simp only; omega, by simp only; omega⟩
      exact hunksFrom_laid hend (hmore.append hgap) hlast hrest
    · refine hunksFrom_laid hend hkept ?_ hrest
      rw [List.reverse_cons]
      exact hgroup.append (.single hs)

theorem hunks_laid (a b : List Text) : Laid a b 0 0 (hunks (steps a b)) := by
  obtain ⟨n, hfirst, hpath⟩ := trimFirst_path (steps_path a b)
  obtain ⟨k, l, m, hlast, hk, hl, htrimmed⟩ := trimLast_path hpath
  have hend : a.drop k = b.drop l := hlast.drop_eq (by rw [← hk, ← hl, List.drop_length, List.drop_length])
  exact hunksFrom_laid hend hfirst ⟨rfl, rfl⟩ htrimmed

def patchHunks (a b : List Text) : List Hunk := (hunks (steps a b)).map (Hunk.ofSteps a b)

/-- **The hunks of a patch turn one list into the other.** -/
theorem patchHunks_plan (a b : List Text) : Plan 0 0 a b (patchHunks a b) := (hunks_laid a b).plan

theorem patchHunks_ne_nil (h : a ≠ b) : patchHunks a b ≠ [] := by
  intro hnone
  have hplan := patchHunks_plan a b
  rw [hnone] at hplan
  cases hplan
  exact h rfl

theorem flatMap_hunkText (a b : List Text) :
    (hunks (steps a b)).flatMap (hunkText a b) = (patchHunks a b).flatMap Hunk.text := by
  rw [patchHunks, List.flatMap_map]
  exact List.flatMap_congr (hunks_laid a b).text

end EpFormat.Diff
