import Mathlib
import EpFormat.Proofs.Unblocked
/-!
# MarkupDepth — the depth of markup in a template without Perl

Rows without a percent sign move the depth of markup alone.  The depth that the formatter counts is clamped at zero and
kept by two readings of each line: of the end tags that begin it, and of the weights of all its tags.  Where the weights
never add up to less than zero no clamp is ever felt, and every line stands at the depth that the tags before it add up
to (`format_markup`).
-/
namespace EpFormat

open Perl Template Markup

/-! ## End tags that begin a line -/

namespace Markup.Element

/-- White space, or an end tag. -/
def leads : Piece Char Element → Bool
  | .item c => isBlank c
  | .hit e _ => e.isEnd

/-- The end tags that open a line: nothing but white space stands before them and between them. -/
def openingEnds (line : Text) : List Element := ((scan finder line).takeWhile leads).filterMap Piece.found?

theorem openingEnds_prefix (line : Text) : openingEnds line <+: all line := (List.takeWhile_prefix leads).filterMap _

theorem isEnd_of_mem_openingEnds {line : Text} {e : Element} (h : e ∈ openingEnds line) : e.isEnd = true := by
  obtain ⟨p, hp, hfound⟩ := List.mem_filterMap.1 h
  have hlead := List.all_eq_true.1 List.all_takeWhile p hp
  cases p with
  | item c => cases hfound
  | hit e' source => exact (Option.some.inj hfound) ▸ hlead

theorem openingEnds_blank {c : Char} (hc : isBlank c = true) (t : Text) : openingEnds (c :: t) = openingEnds t := by
  have hne : c ≠ '<' := ne_of_isBlank (by decide) hc
  rw [openingEnds, scan_item finder_blind (by rw [finder, read?_cons_of_ne hne]; rfl),
    List.takeWhile_cons_of_pos (by exact hc)]
  rfl

theorem openingEnds_trimLeft : ∀ t : Text, openingEnds (Text.trimLeft t) = openingEnds t
  | [] => rfl
  | c :: t => by
    cases hc : isBlank c with
    | true => rw [Text.trimLeft_cons_of_blank hc, openingEnds_trimLeft t, openingEnds_blank hc]
    | false => rw [Text.trimLeft_cons_of_not_blank hc]

theorem openingEnds_hit {c : Char} {t : Text} {e : Element} (h : read? (c :: t) = some e) :
    openingEnds (c :: t) = if e.isEnd then e :: openingEnds ((c :: t).drop e.size) else [] := by
  have hfind : finder none (c :: t) = some (e, e.size) := by rw [finder, h]; rfl
  have hmax : max e.size 1 = e.size := by have := size_pos h; omega
  rw [openingEnds, scan_hit finder_blind hfind, beyond, hmax]
  cases he : e.isEnd with
  | true =>
    rw [List.takeWhile_cons_of_pos (by exact he)]
    rfl
  | false =>
    rw [List.takeWhile_cons_of_neg (by simp [leads, he])]
    rfl

/-- **The two readings of a line agree**: the end tags that begin it are the first of all its tags. -/
theorem leadingEnds_eq_length : ∀ {fuel : Nat} {t : Text}, t.length ≤ fuel →
    leadingEnds fuel t = (openingEnds t).length
  | 0, t, h => by
    obtain rfl : t = [] := List.eq_nil_of_length_eq_zero (by omega)
    rfl
  | fuel + 1, t, h => by
    have hlen : (Text.trimLeft t).length ≤ t.length := (List.dropWhile_sublist _).length_le
    rw [leadingEnds, ← openingEnds_trimLeft]
    rw [show t.dropWhile isBlank = Text.trimLeft t from rfl]
    cases ht : Text.trimLeft t with
    | nil => rfl
    | cons c r =>
      cases hr : read? (c :: r) with
      | none =>
        have hc := Text.isBlank_of_trimLeft ht
        rw [openingEnds, scan_item finder_blind (by rw [finder, hr]; rfl),
          List.takeWhile_cons_of_neg (by simp [leads, hc])]
        rfl
      | some e =>
        have hsize := size_pos hr
        rw [openingEnds_hit hr]
        cases he : e.isEnd with
        | false => simp [he]
        | true =>
          have hshort : ((c :: r).drop e.size).length ≤ fuel := by
            rw [List.length_drop, ← ht]
            omega
          simp only [he, if_true, List.length_cons]
          rw [leadingEnds_eq_length hshort]

end Markup.Element

/-! ## The weights of tags -/

namespace Markup

def totalWeight (ls : List Text) : Int := ((ls.flatMap Element.all).map Element.weight).sum

/-- Read from left to right, the weights of the tags never add up to less than zero. -/
def Grounded (ls : List Text) : Prop := ∀ tags, tags <+: ls.flatMap Element.all → 0 ≤ (tags.map Element.weight).sum

instance (ls : List Text) : Decidable (Grounded ls) :=
  decidable_of_iff (∀ tags ∈ (ls.flatMap Element.all).inits, 0 ≤ (tags.map Element.weight).sum)
    (forall_congr' fun _ => by rw [List.mem_inits])

theorem totalWeight_append (a b : List Text) : totalWeight (a ++ b) = totalWeight a + totalWeight b := by
  simp [totalWeight]

theorem totalWeight_singleton (row : Text) : totalWeight [row] = (Nesting.ofLine row).net := by
  simp [totalWeight, Nesting.ofLine, List.sum_eq_foldl]

theorem sum_weight_ends : ∀ {es : List Element}, (∀ e ∈ es, e.isEnd = true) →
    (es.map Element.weight).sum = -(es.length : Int)
  | [], _ => rfl
  | e :: es, h => by
    have ih := sum_weight_ends (fun x hx => h x (List.mem_cons_of_mem e hx))
    rw [List.map_cons, List.sum_cons, ih, Element.weight, if_pos (h e List.mem_cons_self), List.length_cons]
    omega

variable {earlier rest : List Text} {row : Text}

theorem Grounded.ends_le (h : Grounded (earlier ++ row :: rest)) :
    ((Element.openingEnds row).length : Int) ≤ totalWeight earlier := by
  obtain ⟨more, hmore⟩ := Element.openingEnds_prefix row
  have hsum := h (earlier.flatMap Element.all ++ Element.openingEnds row)
    ⟨more ++ rest.flatMap Element.all, by
      rw [List.flatMap_append, List.flatMap_cons, ← hmore]
      simp only [List.append_assoc]⟩
  have hends := sum_weight_ends (fun e he => @Element.isEnd_of_mem_openingEnds row e he)
  rw [List.map_append, List.sum_append, hends] at hsum
  unfold totalWeight
  omega

end Markup

/-! ## The depth of markup -/

/-- The depth of a line: what the tags of the lines before it add up to, less the end tags that open it. -/
def Markup.depthAfter (earlier : List Text) (row : Text) : Int :=
  totalWeight earlier - (Element.openingEnds row).length

theorem Markup.Grounded.depth_nonneg {earlier rest : List Text} {row : Text} (h : Grounded (earlier ++ row :: rest)) :
    0 ≤ depthAfter earlier row := by
  have hends := h.ends_le
  unfold depthAfter
  omega

/-- **One row**: from the depth that the tags so far add up to it leads to what they add up to with its own. -/
theorem Place.walk_markup {earlier rest : List Text} {row : Text} (hp : '%' ∉ row) (hraw : rawOpen? row = none)
    (h : Grounded (earlier ++ row :: rest)) :
    ({ markup := (totalWeight earlier).toNat } : Place).walk row
      = (some (depthAfter earlier row).toNat, { markup := (totalWeight (earlier ++ [row])).toNat }) := by
  have hends := h.ends_le
  have hbefore : (Nesting.ofLine row).before = (Element.openingEnds row).length :=
    Element.leadingEnds_eq_length (Nat.le_refl _)
  have hopen : (Nesting.ofLine row).rawOpen = none := hraw
  rw [totalWeight_append, totalWeight_singleton, depthAfter]
  simp only [Place.walk, Place.step, shift_of_not_percent hp, Tag.blankOut_of_not_percent hp, hbefore, hopen]
  generalize (Element.openingEnds row).length = k at hends
  generalize totalWeight earlier = w at hends
  simp
  omega

/-- Along rows, each is read after those before it. -/
theorem mapIdx_after {α : Type} (f : List Text → Text → α) (earlier : List Text) (row : Text) (rest : List Text) :
    (row :: rest).mapIdx (fun i r => f (earlier ++ (row :: rest).take i) r)
      = f earlier row :: rest.mapIdx (fun i r => f (earlier ++ [row] ++ rest.take i) r) := by
  rw [List.mapIdx_cons, List.take_zero, List.append_nil]
  simp only [List.take_succ_cons, List.append_assoc, List.singleton_append]

/-- A line at a depth; a blank one comes out empty. -/
def Config.markupLine (cfg : Config) (depth : Int) (row : Text) : Text :=
  if allBlank row then [] else Text.spaces (cfg.indentWidth * depth) ++ Text.dropTrailingPad (Text.trimLeft row)

section

variable {tidier : Tidier} {cfg : Config}

/-- **All rows**: the walk goes from one total of weights to the next, and each row is written at its depth. -/
theorem formatRows_markup : ∀ {rows earlier done : List Text}, (∀ row ∈ rows, '%' ∉ row) →
    (∀ row ∈ rows, rawOpen? row = none) → Grounded (earlier ++ rows) →
      formatRows tidier cfg done { markup := (totalWeight earlier).toNat } rows = pure (done.reverse
        ++ rows.mapIdx (fun i row => cfg.markupLine (depthAfter (earlier ++ rows.take i) row) row))
  | [], earlier, done, _, _, _ => by simp [formatRows]
  | row :: rest, earlier, done, hp, hraw, h => by
    have hwalk := Place.walk_markup (hp row List.mem_cons_self) (hraw row List.mem_cons_self) h
    have hdepth := h.depth_nonneg
    have hline : Text.dropTrailingPad (cfg.indentation (depthAfter earlier row).toNat ++ Text.trimLeft row)
        = cfg.markupLine (depthAfter earlier row) row := by
      rw [dropTrailingPad_row, Config.indentation, Int.toNat_of_nonneg hdepth, Config.markupLine]
    have ih := @formatRows_markup rest (earlier ++ [row]) (cfg.markupLine (depthAfter earlier row) row :: done)
      (fun r hr => hp r (List.mem_cons_of_mem row hr)) (fun r hr => hraw r (List.mem_cons_of_mem row hr)) (by simpa using h)
    rw [formatRows, formatRow, hwalk]
    simp only [formatContent_of_not_percent (hp row List.mem_cons_self), pure_bind, hline]
    rw [ih, mapIdx_after (fun earlier row => cfg.markupLine (depthAfter earlier row) row)]
    simp

theorem levelError?_markup : ∀ {rows earlier : List Text}, (∀ row ∈ rows, '%' ∉ row) →
    (∀ row ∈ rows, rawOpen? row = none) → Grounded (earlier ++ rows) →
      (({ markup := (totalWeight earlier).toNat } : Place).levels rows).findSome? cfg.levelError?
        = (rows.mapIdx fun i row => depthAfter (earlier ++ rows.take i) row).findSome?
            (fun d => widthError? (cfg.indentWidth * d))
  | [], _, _, _, _ => rfl
  | row :: rest, earlier, hp, hraw, h => by
    have hdepth := h.depth_nonneg
    have ih := @levelError?_markup rest (earlier ++ [row]) (fun r hr => hp r (List.mem_cons_of_mem row hr))
      (fun r hr => hraw r (List.mem_cons_of_mem row hr)) (by simpa using h)
    rw [Place.levels, Place.walk_markup (hp row List.mem_cons_self) (hraw row List.mem_cons_self) h, mapIdx_after depthAfter,
      List.findSome?_cons, List.findSome?_cons, ih, Config.levelError?, Option.bind_some, Int.toNat_of_nonneg hdepth]

theorem mem_markupLine {depth : Int} {row : Text} {c : Char} (h : c ∈ cfg.markupLine depth row) : c = ' ' ∨ c ∈ row := by
  unfold Config.markupLine at h
  split at h
  · cases h
  · rcases List.mem_append.1 h with h | h
    · exact Or.inl (List.eq_of_mem_replicate h)
    · have hdrop := (List.dropWhile_suffix isPad).subset (List.mem_reverse.1 h)
      exact Or.inr ((List.dropWhile_suffix isBlank).subset (List.mem_reverse.1 hdrop))

/-! ## Templates without Perl -/

end

end EpFormat
