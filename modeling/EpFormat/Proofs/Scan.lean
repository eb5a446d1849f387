import EpFormat.Text.Scan
/-!
# Scan — what a scan cuts, piece by piece

`scan` gathers its pieces in an accumulator and counts down the items of a find.  Here it is read as a recursion
on the sequence: a find takes its items and the scan goes on after them (`scanFrom_hit`), an item where nothing is
found stands alone (`scanFrom_item`).  `scanFrom_induct` is the induction that goes with it.  The pieces put together
are the sequence (`scanFrom_source`).
-/
namespace EpFormat

variable {σ α : Type}

/-- The scan from a place on; `prev` is the item before the place. -/
def scanFrom (find : Finder σ α) (prev : Option σ) (xs : List σ) : List (Piece σ α) := scanAux find [] prev 0 xs

def taken (n : Nat) (xs : List σ) : List σ := xs.take (max n 1)

def beyond (n : Nat) (xs : List σ) : List σ := xs.drop (max n 1)

theorem taken_append_beyond (n : Nat) (xs : List σ) : taken n xs ++ beyond n xs = xs := List.take_append_drop _ _

theorem taken_append {s : List σ} (hs : s ≠ []) (t : List σ) : taken s.length (s ++ t) = s := by
  rw [taken, Nat.max_eq_left (List.length_pos_iff.2 hs), List.take_left]

theorem beyond_append {s : List σ} (hs : s ≠ []) (t : List σ) : beyond s.length (s ++ t) = t := by
  rw [beyond, Nat.max_eq_left (List.length_pos_iff.2 hs), List.drop_left]

theorem length_beyond_lt (n : Nat) (x : σ) (rest : List σ) : (beyond n (x :: rest)).length < (x :: rest).length := by
  simp only [beyond, List.length_drop, List.length_cons]
  omega

theorem scanAux_done (find : Finder σ α) : ∀ (xs : List σ) (done : List (Piece σ α)) (prev : Option σ) (k : Nat),
    scanAux find done prev k xs = done.reverse ++ scanAux find [] prev k xs
  | [], done, _, _ => by simp [scanAux]
  | x :: rest, done, prev, k + 1 => by
    rw [scanAux, scanAux, scanAux_done find rest done]
  | x :: rest, done, prev, 0 => by
    rw [scanAux, scanAux]
    split
    · rw [scanAux_done find rest (_ :: done), scanAux_done find rest [_]]
      simp
    · rw [scanAux_done find rest (_ :: done), scanAux_done find rest [_]]
      simp

theorem scanAux_skip (find : Finder σ α) : ∀ (xs : List σ) (x : σ) (k : Nat),
    scanAux find [] (some x) k xs = scanFrom find (x :: xs.take k).getLast? (xs.drop k)
  | [], x, k => by cases k <;> simp [scanFrom, scanAux]
  | y :: rest, x, 0 => by simp [scanFrom]
  | y :: rest, x, k + 1 => by
    rw [scanAux, scanAux_skip find rest y k, List.take_succ_cons, List.drop_succ_cons, List.getLast?_cons_cons]

@[simp] theorem scanFrom_nil (find : Finder σ α) (prev : Option σ) : scanFrom find prev [] = [] := rfl

theorem scanFrom_hit {find : Finder σ α} {prev : Option σ} {x : σ} {rest : List σ} {a : α} {n : Nat}
    (h : find prev (x :: rest) = some (a, n)) :
    scanFrom find prev (x :: rest)
      = .hit a (taken n (x :: rest)) :: scanFrom find (taken n (x :: rest)).getLast? (beyond n (x :: rest)) := by
  have hmax : max n 1 = n - 1 + 1 := by omega
  rw [scanFrom, scanAux, h]
  simp only
  rw [scanAux_done, scanAux_skip, taken, beyond, hmax, List.take_succ_cons, List.drop_succ_cons]
  rfl

theorem scanFrom_item {find : Finder σ α} {prev : Option σ} {x : σ} {rest : List σ}
    (h : find prev (x :: rest) = none) : scanFrom find prev (x :: rest) = .item x :: scanFrom find (some x) rest := by
  rw [scanFrom, scanAux, h]
  simp only
  rw [scanAux_done]
  rfl

/-- **Induction along a scan**: at each place either a find is taken or one item is passed. -/
theorem scanFrom_induct (find : Finder σ α) {motive : Option σ → List σ → Prop} (nil : ∀ prev, motive prev [])
    (hit : ∀ prev x rest a n, find prev (x :: rest) = some (a, n) →
      motive (taken n (x :: rest)).getLast? (beyond n (x :: rest)) → motive prev (x :: rest))
    (item : ∀ prev x rest, find prev (x :: rest) = none → motive (some x) rest → motive prev (x :: rest)) :
    ∀ (prev : Option σ) (xs : List σ), motive prev xs
  | prev, [] => nil prev
  | prev, x :: rest => by
    cases h : find prev (x :: rest) with
    | none => exact item prev x rest h (scanFrom_induct find nil hit item _ rest)
    | some p =>
      have hlt := length_beyond_lt p.2 x rest
      exact hit prev x rest p.1 p.2 h (scanFrom_induct find nil hit item _ _)
termination_by _ xs => xs.length
decreasing_by
  · exact Nat.lt_succ_self rest.length
  · exact hlt

/-- **The pieces of a scan put together are the sequence.** -/
theorem scanFrom_source (find : Finder σ α) (prev : Option σ) (xs : List σ) :
    (scanFrom find prev xs).flatMap Piece.source = xs := by
  induction prev, xs using scanFrom_induct find with
  | nil prev => rfl
  | hit prev x rest a n h ih =>
    rw [scanFrom_hit h, List.flatMap_cons, ih]
    exact taken_append_beyond n (x :: rest)
  | item prev x rest h ih =>
    rw [scanFrom_item h, List.flatMap_cons, ih]
    rfl

/-! ## Finders that do not look back -/

/-- What the finder sees does not depend on the item before the place. -/
def Finder.Blind (find : Finder σ α) : Prop := ∀ prev prev' xs, find prev xs = find prev' xs

theorem scanFrom_blind {find : Finder σ α} (hb : find.Blind) (prev prev' : Option σ) :
    ∀ xs, scanFrom find prev xs = scanFrom find prev' xs
  | [] => rfl
  | x :: rest => by
    cases h : find prev (x :: rest) with
    | none => rw [scanFrom_item h, scanFrom_item (hb prev prev' _ ▸ h)]
    | some p => rw [scanFrom_hit h, scanFrom_hit (hb prev prev' _ ▸ h)]

@[simp] theorem scan_nil (find : Finder σ α) : scan find [] = [] := rfl

theorem scan_hit {find : Finder σ α} (hb : find.Blind) {x : σ} {rest : List σ} {a : α} {n : Nat}
    (h : find none (x :: rest) = some (a, n)) :
    scan find (x :: rest) = .hit a (taken n (x :: rest)) :: scan find (beyond n (x :: rest)) := by
  rw [show scan find (x :: rest) = scanFrom find none (x :: rest) from rfl, scanFrom_hit h, scanFrom_blind hb _ none]
  rfl

theorem scan_item {find : Finder σ α} (hb : find.Blind) {x : σ} {rest : List σ} (h : find none (x :: rest) = none) :
    scan find (x :: rest) = .item x :: scan find rest := by
  rw [show scan find (x :: rest) = scanFrom find none (x :: rest) from rfl, scanFrom_item h, scanFrom_blind hb _ none]
  rfl

/-- Induction along the scan of a finder that does not look back. -/
theorem scan_induct (find : Finder σ α) {motive : List σ → Prop} (nil : motive [])
    (hit : ∀ x rest a n, find none (x :: rest) = some (a, n) → motive (beyond n (x :: rest)) → motive (x :: rest))
    (item : ∀ x rest, find none (x :: rest) = none → motive rest → motive (x :: rest)) : ∀ xs, motive xs
  | [] => nil
  | x :: rest => by
    cases h : find none (x :: rest) with
    | none => exact item x rest h (scan_induct find nil hit item rest)
    | some p =>
      have hlt := length_beyond_lt p.2 x rest
      exact hit x rest p.1 p.2 h (scan_induct find nil hit item _)
termination_by xs => xs.length
decreasing_by
  · exact Nat.lt_succ_self rest.length
  · exact hlt

/-! ## Finds replaced -/

def Piece.put (new : α → List σ) : Piece σ α → List σ
  | item x => [x]
  | hit a _ => new a

theorem substitute_eq (find : Finder σ α) (new : α → List σ) (xs : List σ) :
    substitute find new xs = (scanFrom find none xs).flatMap (Piece.put new) := rfl

end EpFormat
