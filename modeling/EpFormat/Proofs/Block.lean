import EpFormat.Proofs.Treatment
/-!
# Block — where blocks begin and end

A block begins at an opening line that some closing line follows, and ends at the first of these.  `block_induct` goes
through a list of lines block by block.
-/
namespace EpFormat
namespace Template
namespace Block

theorem upToClosing_body : ∀ (ls body : List Text),
    upToClosing body ls = (upToClosing [] ls).map (fun p => (body.reverse ++ p.1, p.2))
  | [], _ => rfl
  | l :: ls, body => by
    rw [upToClosing, upToClosing]
    split
    · simp
    · rw [upToClosing_body ls (l :: body), upToClosing_body ls [l]]
      cases upToClosing [] ls <;> simp

theorem upToClosing_eq_none_iff {ls : List Text} : upToClosing [] ls = none ↔ ∀ l ∈ ls, readClosing? l = none := by
  induction ls with
  | nil => simp [upToClosing]
  | cons l ls ih =>
    rw [upToClosing]
    cases h : readClosing? l with
    | some right => simp [h]
    | none =>
      simp only
      rw [upToClosing_body, Option.map_eq_none_iff, ih]
      simp [h]

theorem upToClosing_append {close : Text} {right : Bool} (hclose : readClosing? close = some right) (post : List Text) :
    ∀ {body : List Text}, (∀ l ∈ body, readClosing? l = none) →
      upToClosing [] (body ++ close :: post) = some (body, right)
  | [], _ => by simp [upToClosing, hclose]
  | l :: body, h => by
    rw [List.cons_append, upToClosing, h l List.mem_cons_self]
    simp only
    rw [upToClosing_body, upToClosing_append hclose post (fun m hm => h m (List.mem_cons_of_mem _ hm))]
    rfl

theorem upToClosing_eq_some : ∀ {ls body : List Text} {right : Bool}, upToClosing [] ls = some (body, right) →
    ∃ close post, ls = body ++ close :: post ∧ readClosing? close = some right ∧ ∀ l ∈ body, readClosing? l = none
  | [], _, _, h => by cases h
  | l :: ls, body, right, h => by
    rw [upToClosing] at h
    split at h
    · rename_i r hr
      simp only [List.reverse_nil, Option.some.injEq, Prod.mk.injEq] at h
      obtain ⟨rfl, rfl⟩ := h
      exact ⟨l, ls, rfl, hr, by simp⟩
    · rename_i hl
      rw [upToClosing_body] at h
      obtain ⟨⟨b, r⟩, hb, hp⟩ := Option.map_eq_some_iff.1 h
      obtain ⟨rfl, rfl⟩ : l :: b = body ∧ r = right := by simpa using hp
      obtain ⟨close, post, rfl, hclose, hbody⟩ := upToClosing_eq_some hb
      refine ⟨close, post, rfl, hclose, fun m hm => ?_⟩
      rcases List.mem_cons.1 hm with rfl | hm
      · exact hl
      · exact hbody m hm

theorem finder_blind : Finder.Blind finder := fun _ _ _ => rfl

theorem finder_block {line close : Text} {opening : Opening} {right : Bool} {body : List Text}
    (hopen : Opening.read? line = some opening) (hclose : readClosing? close = some right)
    (hbody : ∀ l ∈ body, readClosing? l = none) (post : List Text) :
    finder none (line :: (body ++ close :: post)) = some (⟨opening, body, right⟩, body.length + 2) := by
  simp only [finder, hopen, upToClosing_append hclose post hbody]

/-- No block begins at a line that opens none, or that no closing line follows. -/
theorem finder_eq_none_iff {line : Text} {rest : List Text} :
    finder none (line :: rest) = none ↔ Opening.read? line = none ∨ ∀ l ∈ rest, readClosing? l = none := by
  rw [← upToClosing_eq_none_iff]
  simp only [finder]
  cases Opening.read? line with
  | none => simp
  | some opening => cases upToClosing [] rest <;> simp

theorem scan_block {line close : Text} {opening : Opening} {right : Bool} {body : List Text}
    (hopen : Opening.read? line = some opening) (hclose : readClosing? close = some right)
    (hbody : ∀ l ∈ body, readClosing? l = none) (post : List Text) :
    scan finder (line :: (body ++ close :: post))
      = .hit ⟨opening, body, right⟩ (line :: (body ++ [close])) :: scan finder post := by
  have hmax : max (body.length + 2) 1 = body.length + 1 + 1 := by omega
  rw [scan_hit finder_blind (finder_block hopen hclose hbody post), taken, beyond, hmax, List.take_succ_cons,
    List.take_length_add_append, List.drop_succ_cons, List.drop_length_add_append]
  rfl

theorem scan_line {line : Text} {rest : List Text} (h : finder none (line :: rest) = none) :
    scan finder (line :: rest) = .item line :: scan finder rest := scan_item finder_blind h

theorem scan_of_not_opening : ∀ {ls : List Text}, (∀ l ∈ ls, Opening.read? l = none) →
    scan finder ls = ls.map Piece.item
  | [], _ => rfl
  | l :: ls, h => by
    rw [scan_line (finder_eq_none_iff.2 (Or.inl (h l List.mem_cons_self))),
      scan_of_not_opening (fun k hk => h k (List.mem_cons_of_mem l hk))]
    rfl

theorem finds_block {line close : Text} {opening : Opening} {right : Bool} {body : List Text}
    (hopen : Opening.read? line = some opening) (hclose : readClosing? close = some right)
    (hbody : ∀ l ∈ body, readClosing? l = none) (post : List Text) :
    finds finder (line :: (body ++ close :: post)) = ⟨opening, body, right⟩ :: finds finder post := by
  rw [finds, scan_block hopen hclose hbody]
  rfl

theorem finds_line {line : Text} {rest : List Text} (h : finder none (line :: rest) = none) :
    finds finder (line :: rest) = finds finder rest := by
  rw [finds, scan_line h]
  rfl

/-- **Induction through a list of lines**: a block at the head, or a line that begins none. -/
theorem block_induct {motive : List Text → Prop} (nil : motive [])
    (block : ∀ line opening body close right post, Opening.read? line = some opening → readClosing? close = some right →
      (∀ l ∈ body, readClosing? l = none) → motive post → motive (line :: (body ++ close :: post)))
    (line : ∀ line rest, finder none (line :: rest) = none → motive rest → motive (line :: rest)) (ls : List Text) :
    motive ls := by
  induction ls using scan_induct finder with
  | nil => exact nil
  | hit l rest b n h ih =>
    have hf := h
    simp only [finder] at h
    split at h
    · cases h
    · rename_i opening hopen
      split at h
      · cases h
      · rename_i body right hup
        obtain ⟨close, post, rfl, hclose, hbody⟩ := upToClosing_eq_some hup
        obtain ⟨rfl, rfl⟩ := Prod.mk.inj (Option.some.inj h)
        have hmax : max (body.length + 2) 1 = body.length + 1 + 1 := by omega
        rw [beyond, hmax, List.drop_succ_cons, List.drop_length_add_append] at ih
        exact block l opening body close right post hopen hclose hbody ih
  | item l rest h ih => exact line l rest h ih

end Block
end Template

namespace Treatment

open Template

variable (τ : Treatment)

theorem blocks_block {line close : Text} {opening : Opening} {right : Bool} {body : List Text}
    (hopen : Opening.read? line = some opening) (hclose : readClosing? close = some right)
    (hbody : ∀ l ∈ body, readClosing? l = none) (post : List Text) :
    τ.blocks (line :: (body ++ close :: post)) = τ.blockLines ⟨opening, body, right⟩ ++ τ.blocks post := by
  rw [blocks, Block.scan_block hopen hclose hbody]
  rfl

theorem blocks_line {line : Text} {rest : List Text} (h : Block.finder none (line :: rest) = none) :
    τ.blocks (line :: rest) = line :: τ.blocks rest := by
  rw [blocks, Block.scan_line h]
  rfl

theorem blocks_ne_nil {ls : List Text} (h : ls ≠ []) : τ.blocks ls ≠ [] := by
  induction ls using Block.block_induct with
  | nil => exact absurd rfl h
  | line line rest hl _ => rw [τ.blocks_line hl]; simp
  | block line o body close right post hopen hclose hbody _ =>
    rw [τ.blocks_block hopen hclose hbody, blockLines, Block.layOut]
    simp

end Treatment
end EpFormat
