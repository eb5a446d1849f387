import EpFormat.Proofs.Chunks
import EpFormat.Proofs.WholeWords
import Mathlib.Data.List.TakeWhile
/-!
# LeftAlone — what keyword spacing leaves alone

Spacing goes chunk by chunk and brings in no quote, so a spaced text is cut where the text was: literals stay as they are, and of
code nothing but white space changes (`chunks_kept`).  A comment is only known within the chunk of its number sign.  What a comment
says behind a literal is taken for code, and the comment is kept exactly if there is nothing to space in it
(`comment_kept_iff`).
-/
namespace EpFormat

namespace Perl

/-! ## Literals -/

theorem reshapes_spaceChunk : Chunk.Reshapes (fun s => spaceChunk (.code s)) id where
  ne_nil s hs := (loosened_spaceChunk (.code s)).ne_nil hs
  unquoted s hs c hc := by
    rcases (loosened_spaceChunk (.code s)).mem hc with rfl | hc
    · rfl
    · exact hs c hc
  literal q body _ := ⟨body, rfl, id, id⟩

theorem text_map_spaceChunk (c : Chunk) : (c.map (fun s => spaceChunk (.code s)) id).text = spaceChunk c := by
  cases c <;> rfl

/-- **A spaced text is cut where the text was.** -/
theorem split_spaceKeywords (t : Text) :
    Chunk.split (spaceKeywords t) = (Chunk.split t).map (Chunk.map (fun s => spaceChunk (.code s)) id) := by
  rw [← Chunk.split_map reshapes_spaceChunk, spaceKeywords]
  simp only [text_map_spaceChunk]

/-- **Keyword spacing changes white space in code and nothing else**: as many chunks, of the same kinds, the literals as they
were and code with the same ink. -/
theorem chunks_kept (enable : Bool) (t : Text) :
    (Chunk.split (spaceIf enable t)).map (Chunk.map ink id) = (Chunk.split t).map (Chunk.map ink id) := by
  cases enable with
  | false => rfl
  | true =>
    rw [spaceIf, if_pos rfl, split_spaceKeywords, List.map_map]
    refine List.map_congr_left (fun c _ => ?_)
    cases c with
    | literal s => rfl
    | code s => exact congrArg Chunk.code (loosened_spaceChunk (.code s)).ink_eq

/-! ## Text that stays -/

theorem splitComment_fst (s : Text) : (splitComment s).1 = s.takeWhile (· != '#') := by
  rw [splitComment]
  split <;> rfl

theorem spaceChunk_code (s : Text) :
    spaceChunk (.code s) = spaceCode (splitComment s).1 ++ (splitComment s).2.getD [] := rfl

theorem spaceChunk_eq_iff (c : Chunk) : spaceChunk c = c.text ↔ ∀ code ∈ c.code?, spaceCode code = code := by
  cases c with
  | literal s => simp [spaceChunk, Chunk.text, Chunk.code?]
  | code s =>
    have hsame : spaceCode (splitComment s).1 ++ (splitComment s).2.getD [] = s ↔
        spaceCode (splitComment s).1 = (splitComment s).1 := by
      conv => lhs; rhs; rw [← splitComment_append s]
      exact List.append_left_inj _
    simp [spaceChunk_code, Chunk.text, Chunk.code?, hsame]

/-- A text is left alone if all its code is. -/
theorem spaceKeywords_eq_iff (t : Text) :
    spaceKeywords t = t ↔ ∀ code ∈ (Chunk.split t).filterMap Chunk.code?, spaceCode code = code := by
  have hchunks : spaceKeywords t = t ↔ ∀ c ∈ Chunk.split t, spaceChunk c = c.text := by
    constructor
    · intro h c hc
      have hsplit := split_spaceKeywords t
      rw [h] at hsplit
      have hself := List.map_inj_left.1 (hsplit.symm.trans (List.map_id _).symm) c hc
      rw [← text_map_spaceChunk, hself]
      rfl
    · intro h
      rw [spaceKeywords, List.flatMap_congr h, Chunk.text_split]
  simp only [hchunks, spaceChunk_eq_iff, List.mem_filterMap]
  constructor
  · rintro h code ⟨c, hc, hcode⟩
    exact h c hc code hcode
  · exact fun h c hc code hcode => h code ⟨c, hc, hcode⟩

/-! ## Comments -/

/-- The comment of a text, by its chunks: it begins at the first number sign in code, with the rest of that chunk, and goes on
through the chunks after it. -/
def Chunk.comment? : List Chunk → Option (Text × List Chunk)
  | [] => none
  | .literal _ :: cs => comment? cs
  | .code t :: cs => if '#' ∈ t then some (t.dropWhile (· != '#'), cs) else comment? cs

theorem spaceKeywords_code {s t : Text} (hne : s ≠ []) (hs : ∀ c ∈ s, Chunk.isQuote c = false)
    (ht : ∀ q ∈ t.head?, Chunk.isQuote q = true) : spaceKeywords (s ++ t) = spaceChunk (.code s) ++ spaceKeywords t := by
  rw [spaceKeywords, Chunk.split_code hne hs ht, List.flatMap_cons]
  rfl

theorem dropWhile_hash {s : Text} (h : '#' ∈ s) : ∃ r, s.dropWhile (· != '#') = '#' :: r := by
  have hhead := List.head?_dropWhile_not (· != '#') s
  cases hdrop : s.dropWhile (· != '#') with
  | nil => exact absurd (List.dropWhile_eq_nil_iff.1 hdrop '#' h) (by decide)
  | cons c r =>
    rw [hdrop] at hhead
    obtain rfl : c = '#' := by simpa using hhead
    exact ⟨r, rfl⟩

theorem spaceChunk_commented {s : Text} (h : '#' ∈ s) :
    spaceChunk (.code s) = spaceCode (s.takeWhile (· != '#')) ++ s.dropWhile (· != '#') := by
  obtain ⟨r, hdrop⟩ := dropWhile_hash h
  rw [spaceChunk, splitComment, hdrop]
  rfl

/-- A text around its comment, as it stands and as it is spaced. -/
theorem comment?_parts {t rest : Text} {after : List Chunk} (h : Chunk.comment? (Chunk.split t) = some (rest, after)) :
    ∃ before before' u, t = before ++ (rest ++ u) ∧ spaceKeywords t = before' ++ (rest ++ spaceKeywords u) ∧
      Chunk.split u = after ∧ rest.head? = some '#' := by
  induction t using Chunk.split_induct with
  | nil => cases h
  | code s t hne hs ht ih =>
    rw [Chunk.split_code hne hs ht, Chunk.comment?] at h
    split at h
    · rename_i hmem
      obtain ⟨rfl, rfl⟩ := Prod.mk.inj (Option.some.inj h)
      refine ⟨s.takeWhile (· != '#'), spaceCode (s.takeWhile (· != '#')), t, ?_, ?_, rfl, ?_⟩
      · rw [← List.append_assoc, List.takeWhile_append_dropWhile]
      · rw [spaceKeywords_code hne hs ht, spaceChunk_commented hmem, List.append_assoc]
      · obtain ⟨r, hdrop⟩ := dropWhile_hash hmem
        rw [hdrop, List.head?_cons]
    · obtain ⟨before, before', u, rfl, hspaced, hu, hhead⟩ := ih h
      refine ⟨s ++ before, spaceChunk (.code s) ++ before', u, by simp, ?_, hu, hhead⟩
      rw [spaceKeywords_code hne hs ht, hspaced, List.append_assoc]
  | literal q body t hq hb ih =>
    rw [Chunk.split_literal hq hb, Chunk.comment?] at h
    obtain ⟨before, before', u, rfl, hspaced, hu, hhead⟩ := ih h
    refine ⟨q :: body ++ before, q :: body ++ before', u, by simp, ?_, hu, hhead⟩
    rw [spaceKeywords, Chunk.split_literal hq hb, List.flatMap_cons, spaceChunk, List.append_assoc, ← hspaced]
    rfl
  | unclosed q body hq hb =>
    rw [Chunk.split_unclosed hq hb] at h
    cases h

/-- Two ends of a text that begin with ink and have the same ink are the same. -/
theorem suffix_eq_of_ink {t u v : Text} (hu : u <:+ t) (hv : v <:+ t) (hub : ∀ c ∈ u.head?, isBlank c = false)
    (hvb : ∀ c ∈ v.head?, isBlank c = false) (h : ink u = ink v) : u = v := by
  have hextra : ∀ {w s : Text}, (∀ c ∈ (w ++ s).head?, isBlank c = false) → ink (w ++ s) = ink s → w ++ s = s := by
    intro w s hhead hink
    rw [ink_append] at hink
    have hw : ink w = [] := by simpa using hink
    cases w with
    | nil => rfl
    | cons c w =>
      rw [ink_cons_of_not_blank (hhead c rfl)] at hw
      cases hw
  rcases List.suffix_or_suffix_of_suffix hu hv with ⟨w, rfl⟩ | ⟨w, rfl⟩
  · exact (hextra hvb h.symm).symm
  · exact hextra hub h

/-- **A comment is kept exactly if keyword spacing leaves alone what it takes for code in it**, behind a literal. -/
theorem comment_kept_iff {t rest : Text} {after : List Chunk} (h : Chunk.comment? (Chunk.split t) = some (rest, after)) :
    let comment := rest ++ after.flatMap Chunk.text
    comment <:+ t ∧ (comment <:+ spaceIf true t ↔ ∀ code ∈ after.filterMap Chunk.code?, spaceCode code = code) := by
  obtain ⟨before, before', u, ht, hspaced, rfl, hhead⟩ := comment?_parts h
  intro comment
  have hcomment : comment = rest ++ u := congrArg (rest ++ ·) (Chunk.text_split u)
  have hink : ∀ v : Text, ∀ c ∈ (rest ++ v).head?, isBlank c = false := by
    intro v c hc
    rw [List.head?_append, hhead] at hc
    obtain rfl : '#' = c := Option.some.inj hc
    rfl
  rw [spaceIf, if_pos rfl, hcomment, ← spaceKeywords_eq_iff]
  refine ⟨⟨before, ht.symm⟩, fun hend => ?_, fun hkept => ⟨before', by rw [hspaced, hkept]⟩⟩
  -- both the comment and the comment as it is spaced end the spaced text, and they have the same ink
  have heq : rest ++ u = rest ++ spaceKeywords u :=
    suffix_eq_of_ink hend ⟨before', hspaced.symm⟩ (hink u) (hink _) (by simp)
  exact (List.append_cancel_left heq).symm

/-- A comment with a keyword behind its literal, which nothing follows. -/
theorem comment_kept_quoting :
    let t := txt "f(1); # not \"x\", but exit"
    Chunk.comment? (Chunk.split t) = some (txt "# not ", [.literal (txt "\"x\""), .code (txt ", but exit")]) ∧
      txt "# not \"x\", but exit" <:+ spaceIf true t := by
  intro t
  have hparts : Chunk.comment? (Chunk.split t) =
      some (txt "# not ", [.literal (txt "\"x\""), .code (txt ", but exit")]) := by decide +kernel
  exact ⟨hparts, (comment_kept_iff hparts).2.2 (by decide +kernel)⟩

/-- Behind a literal a comment is spaced as code is. -/
theorem comment_spaced :
    let t := txt "# don't say 'if(x)'"
    Chunk.comment? (Chunk.split t) =
      some (txt "# don", [.literal (txt "'t say '"), .code (txt "if(x)"), .literal (txt "'")]) ∧
    spaceIf true t = txt "# don't say 'if (x)'" ∧ ¬ t <:+ spaceIf true t := by
  refine ⟨?_, ?_, ?_⟩ <;> decide +kernel

end Perl
end EpFormat
