import Mathlib
import EpFormat.Proofs.PatchRows
/-!
# Glued — a patch whose rows run together is refused

Where a row of a patch does not end with a line feed, it runs together with the next one, and the reader takes the two for one
row.  Within a hunk, the rows then count less than its head says (`feedLines_rows`).  A row can also run together with the head
of the next hunk; but the lines that a hunk takes are read from rows, so only the last of them can lack its line feed
(`run_fed`), and a line that stays with a head after it is nowhere to be found (`step_glued`).  So a reader that gets through
a patch has told its rows apart (`Plan.parted_of_run`).
-/
namespace EpFormat.Diff

/-! ## What a row counts -/

def Row.size (r : Row) : Nat := r.old.length + r.new.length

theorem Row.old_eq (r : Row) : r.old = [] ∨ r.old = [r.line] := by cases r <;> simp [Row.old, Row.line]

theorem Row.fed_line {r : Row} (h : r.text.getLast? = some '\n') : r.line.getLast? = some '\n' := by
  obtain ⟨c, hc, htext⟩ := r.exists_mark
  rw [htext] at h
  cases hl : r.line with
  | nil =>
    rw [hl] at h
    exact absurd (Option.some.inj h) hc
  | cons d l => rwa [hl, List.getLast?_cons_cons] at h

theorem Row.size_pos (r : Row) : 0 < r.size := by cases r <;> exact Nat.succ_pos _

/-- What a row of a text counts, by its mark. -/
def weight (w : Text) : Nat := ((Row.ofText w).map Row.size).getD 0

theorem weight_text (r : Row) : weight r.text = r.size := by rw [weight, Row.ofText_text, Option.map_some, Option.getD_some]

theorem weight_append (r : Row) (t : Text) : weight (r.text ++ t) = r.size := by cases r <;> rfl

theorem sum_size (rows : List Row) :
    (rows.map Row.size).sum = (rows.flatMap Row.old).length + (rows.flatMap Row.new).length := by
  induction rows with
  | nil => rfl
  | cons r rows ih =>
    rw [List.map_cons, List.sum_cons, ih, List.flatMap_cons, List.flatMap_cons, List.length_append, List.length_append,
      Row.size]
    omega

theorem map_weight_text (rows : List Row) : (rows.map Row.text).map weight = rows.map Row.size := by
  rw [List.map_map]
  exact List.map_congr_left fun r _ => weight_text r

/-- Rows that run together count less. -/
theorem feedLines_rows : ∀ {rows : List Row}, (∀ r ∈ rows, r.line.Whole) →
    (∀ w ∈ feedLines (rows.flatMap Row.text), 0 < weight w) ∧
      (feedLines (rows.flatMap Row.text) = rows.map Row.text ∨
        ((feedLines (rows.flatMap Row.text)).map weight).sum < (rows.map Row.size).sum)
  | [], _ => ⟨List.forall_mem_nil _, .inl rfl⟩
  | r :: rows, hw => by
    obtain ⟨hr, hrows⟩ := List.forall_mem_cons.1 hw
    obtain ⟨hpos, hrest⟩ := feedLines_rows hrows
    have hsize : 0 < weight r.text := by
      rw [weight_text]
      exact r.size_pos
    rw [List.flatMap_cons, List.map_cons, List.map_cons, List.sum_cons]
    rcases eq_or_feed_not_mem (Row.feed_not_mem hr) with ⟨l, hl, htext⟩ | hnone
    · rw [htext, List.append_assoc, List.singleton_append, feedLines_line hl, ← htext]
      refine ⟨List.forall_mem_cons.2 ⟨hsize, hpos⟩, hrest.imp (congrArg _) fun hlt => ?_⟩
      rw [List.map_cons, List.sum_cons, weight_text]
      omega
    -- without a line feed the row runs into the next one, and that one's mark no longer counts
    · cases rows with
      | nil =>
        rw [List.flatMap_nil, List.append_nil, feedLines_last hnone r.text_ne_nil]
        exact ⟨List.forall_mem_singleton.2 hsize, .inl rfl⟩
      | cons r' rows =>
        obtain ⟨c, -, hr'⟩ := r'.exists_mark
        have htexts : (r' :: rows).flatMap Row.text = c :: (r'.line ++ rows.flatMap Row.text) := by
          rw [List.flatMap_cons, hr']
          rfl
        obtain ⟨q, qs, hq⟩ := exists_feedLines_cons c (r'.line ++ rows.flatMap Row.text)
        rw [← htexts] at hq
        have hle : (((c :: q) :: qs).map weight).sum ≤ ((r' :: rows).map Row.size).sum := by
          rw [hq] at hrest
          rcases hrest with hsame | hlt
          · exact Nat.le_of_eq (by rw [hsame, map_weight_text])
          · exact Nat.le_of_lt hlt
        rw [hq] at hpos
        rw [feedLines_glue hq hnone]
        obtain ⟨hfirst, hlater⟩ := List.forall_mem_cons.1 hpos
        refine ⟨List.forall_mem_cons.2 ⟨by rwa [weight_append, ← weight_text], hlater⟩, .inr ?_⟩
        rw [List.map_cons, List.sum_cons] at hle
        rw [List.map_cons, List.sum_cons, weight_append]
        omega

namespace Progress

theorem exists_at_of_readHead {w : Text} {ranges : Range × Range} (h : readHead w = some ranges) : ∃ t, w = '@' :: t := by
  obtain ⟨t, ht⟩ := (readHead_ends h).1
  exact ⟨_, ht.symm⟩

/-- A head is read only where the last hunk is done. -/
theorem done_of_step {s s' : Progress} {t : Text} (h : s.step ('@' :: t) = some s') : s.old + s.new = 0 := by
  rcases step_eq_some h with ⟨hdone, -⟩ | ⟨-, r, hr, -⟩
  · exact hdone
  · cases r <;> cases hr

theorem step_weight {s s' : Progress} {w : Text} (h : s.step w = some s') (hw : 0 < weight w) :
    s.old + s.new = weight w + (s'.old + s'.new) := by
  rcases step_eq_some h with ⟨-, ranges, hhead, -⟩ | ⟨-, r, rfl, htake⟩
  · obtain ⟨t, rfl⟩ := exists_at_of_readHead hhead
    cases hw
  · obtain ⟨-, hold, hnew⟩ := take_eq_some htake
    rw [weight_text, Row.size]
    omega

theorem run_weight : ∀ {ws : List Text} {s s' : Progress}, s.run ws = some s' → (∀ w ∈ ws, 0 < weight w) →
    s.old + s.new = (ws.map weight).sum + (s'.old + s'.new)
  | [], s, s', h, _ => by
    cases h
    simp
  | w :: ws, s, s', h, hw => by
    obtain ⟨hfirst, hrest⟩ := List.forall_mem_cons.1 hw
    obtain ⟨s₁, hstep, hrun⟩ := Option.bind_eq_some_iff.1 h
    rw [step_weight hstep hfirst, run_weight hrun hrest, List.map_cons, List.sum_cons, Nat.add_assoc]

theorem step_suffix {s s' : Progress} {w : Text} (h : s.step w = some s') : s'.rest <:+ s.rest := by
  rcases step_eq_some h with ⟨-, ranges, -, hseek⟩ | ⟨-, r, -, htake⟩
  · exact (seek_eq_some hseek).1
  · exact ⟨r.old, (take_eq_some htake).1.symm⟩

theorem run_suffix : ∀ {ws : List Text} {s s' : Progress}, s.run ws = some s' → s'.rest <:+ s.rest
  | [], s, s', h => by
    cases h
    exact List.suffix_rfl
  | w :: ws, s, s', h => by
    obtain ⟨s₁, hstep, hrun⟩ := Option.bind_eq_some_iff.1 h
    exact (run_suffix hrun).trans (step_suffix hstep)

/-- The lines that a hunk takes are read from rows, so all but the last of them end with a line feed. -/
theorem run_fed : ∀ {ws : List Text} {s s' : Progress}, s.run ws = some s' → s'.old = 0 → Parted ws →
    Parted (s.rest.take s.old)
  | [], s, s', h, hend, _ => by
    cases h
    rw [hend]
    exact List.forall_mem_nil _
  | w :: ws, s, s', h, hend, hparted => by
    obtain ⟨s₁, hstep, hrun⟩ := Option.bind_eq_some_iff.1 h
    have ih := run_fed hrun hend (parted_cons.1 hparted).2
    by_cases hnone : s.old = 0
    · rw [hnone]
      exact List.forall_mem_nil _
    rcases step_eq_some hstep with ⟨hdone, -⟩ | ⟨-, r, rfl, htake⟩
    · omega
    obtain ⟨hrest, hold, -⟩ := take_eq_some htake
    rcases r.old_eq with hr | hr
    · rw [hr, List.nil_append] at hrest
      rw [hr, List.length_nil, Nat.zero_add] at hold
      rwa [hrest, hold]
    · rw [hr, List.singleton_append] at hrest
      rw [hr, List.length_singleton, Nat.add_comm] at hold
      rw [hrest, hold, List.take_succ_cons]
      refine parted_cons.2 ⟨fun hlast => ?_, ih⟩
      -- more lines are to be taken, so this is not the last row
      refine Row.fed_line ((parted_cons.1 hparted).1 ?_)
      rintro rfl
      cases hrun
      rw [hend, List.take_zero] at hlast
      exact hlast rfl

/-- A line that stays and has a head after it is nowhere to be found. -/
theorem step_glued {s : Progress} (hs : ∀ l ∈ s.rest, l.Whole) {c : Char} (hc : isLineBreak c = true) (u t : Text) :
    s.step (' ' :: (u ++ c :: '@' :: t)) = none := by
  cases hstep : s.step (' ' :: (u ++ c :: '@' :: t)) with
  | none => rfl
  | some s' =>
    rcases step_eq_some hstep with ⟨-, ranges, hhead, -⟩ | ⟨-, r, hr, htake⟩
    · obtain ⟨q, hq⟩ := exists_at_of_readHead hhead
      cases hq
    · obtain rfl : r = .keep (u ++ c :: '@' :: t) := by cases r <;> cases hr; rfl
      have hmem : u ++ c :: '@' :: t ∈ s.rest := by
        rw [(take_eq_some htake).1]
        exact List.mem_cons_self
      exact absurd ((hs _ hmem).inner rfl hc).2 (by decide)

/-- A hunk with another one after it: the last line that it shows ends with a line feed, or else it would run together with the
head that follows. -/
theorem closing_fed {s s' : Progress} {rows front : List Row} {k l t : Text} {as : List Text}
    (hrows : rows = front ++ [.keep k, .keep l]) (hrest : s.rest = rows.flatMap Row.old ++ as)
    (hold : s.old = (rows.flatMap Row.old).length) (hwhole : ∀ l ∈ s.rest, l.Whole)
    (hbreak : ∃ u c, l = u ++ [c] ∧ isLineBreak c = true)
    (hrun : s.run (feedLines (rows.flatMap Row.text ++ '@' :: t)) = some s') (hend : s'.old = 0) : l.getLast? = some '\n' := by
  subst hrows
  have htaken : s.rest.take s.old = front.flatMap Row.old ++ [k, l] := by
    rw [hrest, hold, List.take_left, List.flatMap_append]
    rfl
  have hmem : ∀ x ∈ [k, l], x ∈ s.rest := fun x hx => List.mem_of_mem_take (htaken ▸ List.mem_append_right _ hx)
  have hk : k.getLast? = some '\n' := by
    refine run_fed hrun hend (parted_feedLines _) k ?_
    rw [htaken, List.dropLast_append_of_ne_nil (by simp)]
    simp
  obtain ⟨u, c, rfl, hc⟩ := hbreak
  rcases eq_or_feed_not_mem (hwhole (u ++ [c]) (hmem _ (by simp))).feed_not_mem with ⟨v, -, hv⟩ | hnone
  · rw [hv, List.getLast?_concat]
  · exfalso
    obtain ⟨q, qs, hq⟩ := exists_feedLines_cons '@' t
    have hfed : (front.flatMap Row.text ++ ' ' :: k).getLast? = some '\n' := by
      rw [List.getLast?_append_of_ne_nil _ (List.cons_ne_nil _ _), List.getLast?_cons, hk]
      rfl
    have hcut : feedLines ((front ++ [Row.keep k, Row.keep (u ++ [c])]).flatMap Row.text ++ '@' :: t)
        = feedLines (front.flatMap Row.text ++ ' ' :: k) ++ (' ' :: (u ++ c :: '@' :: q)) :: qs := by
      have hglue := @feedLines_glue _ _ _ hq (' ' :: (u ++ [c])) (by simpa using hnone)
      simp only [List.cons_append, List.append_assoc, List.nil_append] at hglue
      rw [← hglue, ← feedLines_append hfed]
      simp [Row.text]
    rw [hcut, run_append] at hrun
    obtain ⟨s₁, hfirst, hsecond⟩ := Option.bind_eq_some_iff.1 hrun
    obtain ⟨s₂, hstep, -⟩ := Option.bind_eq_some_iff.1 hsecond
    rw [step_glued (fun x hx => hwhole x ((run_suffix hfirst).subset hx)) hc] at hstep
    cases hstep

theorem done_of_run {s s' : Progress} {t : Text} (h : s.run (feedLines ('@' :: t)) = some s') : s.old + s.new = 0 := by
  obtain ⟨q, qs, hq⟩ := exists_feedLines_cons '@' t
  rw [hq] at h
  obtain ⟨s₁, hstep, -⟩ := Option.bind_eq_some_iff.1 h
  exact done_of_step hstep

/-- The rows of a hunk that a reader gets through are the rows that were printed. -/
theorem feedLines_of_run {s s' : Progress} {rows : List Row} (hw : ∀ r ∈ rows, r.line.Whole)
    (hrun : s.run (feedLines (rows.flatMap Row.text)) = some s') (hdone : s'.old + s'.new = 0)
    (hold : s.old = (rows.flatMap Row.old).length) (hnew : s.new = (rows.flatMap Row.new).length) :
    feedLines (rows.flatMap Row.text) = rows.map Row.text := by
  obtain ⟨hpos, hsame | hless⟩ := feedLines_rows hw
  · exact hsame
  · have hcount := run_weight hrun hpos
    rw [sum_size, ← hold, ← hnew] at hless
    omega

/-- A hunk with another one after it that a reader gets through: its rows end with line feeds, and all of it is carried out. -/
theorem run_closed {s s' : Progress} {rows front : List Row} {k l t : Text} {as : List Text}
    (hrows : rows = front ++ [.keep k, .keep l]) (hw : ∀ r ∈ rows, r.line.Whole) (hrest : s.rest = rows.flatMap Row.old ++ as)
    (hold : s.old = (rows.flatMap Row.old).length) (hnew : s.new = (rows.flatMap Row.new).length)
    (hwhole : ∀ l ∈ s.rest, l.Whole) (hbreak : ∃ u c, l = u ++ [c] ∧ isLineBreak c = true)
    (hrun : s.run (feedLines (rows.flatMap Row.text ++ '@' :: t)) = some s') (hend : s'.old = 0) :
    (∀ p ∈ rows.map Row.text, p.getLast? = some '\n') ∧
      Progress.run ⟨as, s.seen + s.old, s.out ++ rows.flatMap Row.new, 0, 0⟩ (feedLines ('@' :: t)) = some s' := by
  have hcut : rows = (front ++ [.keep k]) ++ [.keep l] := by
    rw [hrows, List.append_assoc]
    rfl
  have hlast : (Row.keep l).text.getLast? = some '\n' := by
    rw [Row.text, List.getLast?_cons, closing_fed hrows hrest hold hwhole hbreak hrun hend]
    rfl
  have hfed : (rows.flatMap Row.text).getLast? = some '\n' := by
    rw [hcut, List.flatMap_append, List.flatMap_singleton, List.getLast?_append_of_ne_nil _ (Row.text_ne_nil _), hlast]
  rw [feedLines_append hfed, run_append] at hrun
  obtain ⟨s₁, hfirst, hsecond⟩ := Option.bind_eq_some_iff.1 hrun
  have hsame := feedLines_of_run hw hfirst (done_of_run hsecond) hold hnew
  refine ⟨?_, ?_⟩
  · have hparted := parted_feedLines (rows.flatMap Row.text)
    rw [hsame, hcut, List.map_append, parted_append (by simp)] at hparted
    rw [hcut, List.map_append, List.forall_mem_append]
    exact ⟨hparted.1, List.forall_mem_singleton.2 hlast⟩
  · rw [hsame, run_rows hrest hold hnew] at hfirst
    cases hfirst
    exact hsecond

end Progress

theorem exists_hunks_text (h : Hunk) (hs : List Hunk) : ∃ t, (h :: hs).flatMap Hunk.text = '@' :: t := by
  obtain ⟨t, -, hhead⟩ := h.head_eq
  rw [List.flatMap_cons, Hunk.text, hhead]
  exact ⟨_, rfl⟩

/-- **A reader that gets through a patch has told its rows apart.** -/
theorem Plan.parted_of_run {i j : Nat} {as bs : List Text} {hs : List Hunk} (plan : Plan i j as bs hs) :
    (∀ l ∈ as, l.Whole) → (∀ l ∈ bs, l.Whole) → (∀ l ∈ as.dropLast, ∃ u c, l = u ++ [c] ∧ isLineBreak c = true) →
    ∀ {s s' : Progress}, s.At i j as → s.run (feedLines (hs.flatMap Hunk.text)) = some s' → s'.old + s'.new = 0 →
      Parted (hs.flatMap Hunk.pieces) := by
  induction plan with
  | done => exact fun _ _ _ _ _ _ _ _ => List.forall_mem_nil _
  | @hunk i j as bs h hs gap left right hrows closed rest ih =>
    intro ha hb hbreak s s' hs₀ hrun hend
    have hwhole := (Plan.hunk gap left right hrows closed rest).whole ha hb
    obtain ⟨hh, -⟩ := List.forall_mem_cons.1 hwhole
    have hhead := hh.piece h.head List.mem_cons_self
    rw [List.flatMap_cons, Hunk.text, List.append_assoc, feedLines_cons hhead.2 h.getLast?_head, Progress.run_cons,
      hs₀.step_head left right, Option.bind_some] at hrun
    cases hs with
    | nil =>
      rw [List.flatMap_nil, List.append_nil] at hrun
      have hsame := Progress.feedLines_of_run hh.line hrun hend rfl rfl
      rw [List.flatMap_singleton, Hunk.pieces, parted_cons, ← hsame]
      exact ⟨fun _ => h.getLast?_head, parted_feedLines _⟩
    -- with a hunk to follow, the last line shown is not the last of the list, so it has a boundary
    | cons h' hs =>
      obtain ⟨hmore, front, k, l, hclose⟩ := closed (List.cons_ne_nil h' hs)
      have hdrop : (gap ++ (h.old ++ as)).dropLast = gap ++ (h.old ++ as.dropLast) := by
        rw [List.dropLast_append_of_ne_nil (by simp [hmore]), List.dropLast_append_of_ne_nil hmore]
      have hl : l ∈ (gap ++ (h.old ++ as)).dropLast := by
        rw [hdrop, Hunk.old, hclose]
        simp [Row.old]
      obtain ⟨t, ht⟩ := exists_hunks_text h' hs
      rw [ht] at hrun ih
      obtain ⟨hfed, hnext⟩ := Progress.run_closed hclose hh.line rfl rfl rfl (fun x hx => ha x (List.mem_append_right _ hx))
        (hbreak l hl) hrun (by omega)
      have hparted : Parted ((h' :: hs).flatMap Hunk.pieces) := by
        refine ih (fun x hx => ha x ?_) (fun x hx => hb x ?_) (fun x hx => hbreak x ?_) ⟨rfl, rfl, ?_, rfl, rfl⟩ hnext hend
        · simp [hx]
        · simp [hx]
        · simp [hdrop, hx]
        · rw [List.length_append, List.length_append, hs₀.out, ← right]
          rfl
      have hne : (h' :: hs).flatMap Hunk.pieces ≠ [] := List.cons_ne_nil _ _
      rw [List.flatMap_cons, parted_append hne]
      exact ⟨List.forall_mem_cons.2 ⟨h.getLast?_head, hfed⟩, hparted⟩

end EpFormat.Diff
