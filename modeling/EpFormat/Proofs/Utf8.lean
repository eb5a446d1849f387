import Mathlib.Data.List.Basic
import EpFormat.Text.Utf8
/-!
# Utf8 — texts and their bytes

A text comes back from its bytes (`decode_encode`), and bytes come back from their text exactly if they are well formed
(`encode_decode_iff`).  Reading goes character by character (`read_cons`).  `Spells` says which bytes are a character:
`step` reads them (`Spells.step`), and writing the character gives them (`Spells.encodeChar`).
-/
namespace EpFormat.Utf8

/-! ## Character by character -/

theorem readAux_done : ∀ (bs : Bytes) (done : List (Option Char)) (k : Nat),
    readAux done k bs = done.reverse ++ readAux [] k bs
  | [], done, k => by simp [readAux]
  | _ :: rest, done, k + 1 => by rw [readAux, readAux, readAux_done rest done]
  | b :: rest, done, 0 => by
    rw [readAux, readAux]
    simp only
    rw [readAux_done rest (_ :: done), readAux_done rest [_], List.reverse_cons, List.append_assoc]
    rfl

theorem readAux_skip : ∀ (bs : Bytes) (k : Nat), readAux [] k bs = read (bs.drop k)
  | [], k => by simp [read, readAux]
  | _ :: _, 0 => rfl
  | _ :: rest, k + 1 => by rw [readAux, readAux_skip rest k, List.drop_succ_cons]

@[simp] theorem read_nil : read [] = [] := rfl

theorem read_cons (b : UInt8) (rest : Bytes) : read (b :: rest) = (step b rest).1 :: read (rest.drop (step b rest).2) := by
  rw [read, readAux]
  simp only
  rw [readAux_done, readAux_skip]
  rfl

/-! ## The bytes of one character -/

/-- Continuation bytes, the first of them between `lo` and `hi`. -/
def Follows : Nat → Nat → Bytes → Prop
  | _, _, [] => True
  | lo, hi, b :: bs => (lo ≤ b.toNat ∧ b.toNat ≤ hi) ∧ Follows 0x80 0xBF bs

/-- The number that continuation bytes make with the bits before them. -/
def value (acc : Nat) (bs : Bytes) : Nat := bs.foldl (fun n b => n * 64 + (b.toNat - 0x80)) acc

theorem value_nil (acc : Nat) : value acc [] = acc := rfl

theorem value_cons (acc : Nat) (b : UInt8) (bs : Bytes) : value acc (b :: bs) = value (acc * 64 + (b.toNat - 0x80)) bs := by
  rw [value, List.foldl_cons, ← value]

theorem continuation_append : ∀ {bs : Bytes} {lo hi : Nat}, Follows lo hi bs → ∀ (acc : Nat) (rest : Bytes) (taken : Nat),
    continuation bs.length acc lo hi (bs ++ rest) taken = (some (value acc bs), taken + bs.length)
  | [], _, _, _, _, _, _ => rfl
  | b :: bs, lo, hi, h, acc, rest, taken => by
    rw [List.length_cons, List.cons_append, continuation, if_pos (by simpa using h.1), continuation_append h.2, value_cons,
      Nat.add_assoc, Nat.add_comm 1]

theorem continuation_eq_some : ∀ {k acc lo hi : Nat} {bs : Bytes} {taken n m : Nat},
    continuation k acc lo hi bs taken = (some n, m) →
      ∃ xs rest, bs = xs ++ rest ∧ xs.length = k ∧ m = taken + k ∧ Follows lo hi xs ∧ value acc xs = n
  | 0, acc, lo, hi, bs, taken, n, m, h => by
    rw [continuation] at h
    cases h
    exact ⟨[], bs, rfl, rfl, rfl, trivial, rfl⟩
  | k + 1, acc, lo, hi, [], taken, n, m, h => by cases h
  | k + 1, acc, lo, hi, b :: bs, taken, n, m, h => by
    rw [continuation] at h
    split at h
    · rename_i hb
      obtain ⟨xs, rest, rfl, rfl, rfl, hxs, hn⟩ := continuation_eq_some h
      exact ⟨b :: xs, rest, rfl, rfl, by omega, ⟨by simpa using hb, hxs⟩, by rw [value_cons, hn]⟩
    · cases h

/-- A first byte and continuation bytes that are a character. -/
def Spells (b : UInt8) (bs : Bytes) (c : Char) : Prop :=
  ∃ acc lo hi, lead? b = some (bs.length, acc, lo, hi) ∧ Follows lo hi bs ∧ Char.ofNat (value acc bs) = c

theorem Spells.step {b : UInt8} {bs : Bytes} {c : Char} (h : Spells b bs c) (rest : Bytes) :
    step b (bs ++ rest) = (some c, bs.length) := by
  obtain ⟨acc, lo, hi, hlead, hbs, rfl⟩ := h
  unfold Utf8.step
  rw [hlead]
  simp only
  rw [continuation_append hbs, Nat.zero_add]

theorem spells_of_step {b : UInt8} {rest : Bytes} {c : Char} {k : Nat} (h : step b rest = (some c, k)) :
    ∃ bs more, rest = bs ++ more ∧ bs.length = k ∧ Spells b bs c := by
  unfold step at h
  split at h
  · cases h
  · rename_i k' acc lo hi hlead
    split at h
    · rename_i n taken hcont
      obtain ⟨bs, more, rfl, rfl, htaken, hbs, rfl⟩ := continuation_eq_some hcont
      simp only [Prod.mk.injEq, Option.some.injEq] at h
      exact ⟨bs, more, rfl, by omega, acc, lo, hi, hlead, hbs, h.1⟩
    · cases h

/-! ## First bytes -/

theorem lead?_one {b : UInt8} (h : b.toNat < 0x80) : lead? b = some (0, b.toNat, 0, 0) := by
  unfold lead?
  rw [if_pos h]

theorem lead?_two {b : UInt8} (h : 0xC2 ≤ b.toNat) (h' : b.toNat < 0xE0) :
    lead? b = some (1, b.toNat - 0xC0, 0x80, 0xBF) := by
  unfold lead?
  rw [if_neg (by omega), if_neg (by omega), if_pos h']

theorem lead?_three {b : UInt8} (h : 0xE0 ≤ b.toNat) (h' : b.toNat < 0xF0) : lead? b
    = some (2, b.toNat - 0xE0, if b.toNat = 0xE0 then 0xA0 else 0x80, if b.toNat = 0xED then 0x9F else 0xBF) := by
  unfold lead?
  rw [if_neg (by omega), if_neg (by omega), if_neg (by omega)]
  by_cases hlow : b.toNat = 0xE0
  · simp [hlow]
  by_cases hhigh : b.toNat = 0xED
  · simp [hhigh]
  · simp [hlow, hhigh, h']

theorem lead?_four {b : UInt8} (h : 0xF0 ≤ b.toNat) (h' : b.toNat ≤ 0xF4) : lead? b
    = some (3, b.toNat - 0xF0, if b.toNat = 0xF0 then 0x90 else 0x80, if b.toNat = 0xF4 then 0x8F else 0xBF) := by
  unfold lead?
  rw [if_neg (by omega), if_neg (by omega), if_neg (by omega), if_neg (by omega), if_neg (by omega), if_neg (by omega)]
  by_cases hlow : b.toNat = 0xF0
  · simp [hlow]
  by_cases hhigh : b.toNat = 0xF4
  · simp [hhigh]
  · have hlt : b.toNat < 0xF4 := by omega
    simp [hlow, hhigh, hlt]

theorem lead?_none {b : UInt8} (h : 0x80 ≤ b.toNat ∧ b.toNat < 0xC2 ∨ 0xF4 < b.toNat) : lead? b = none := by
  unfold lead?
  rcases h with ⟨h, h'⟩ | h
  · rw [if_neg (by omega), if_pos h']
  · rw [if_neg (by omega), if_neg (by omega), if_neg (by omega), if_neg (by omega), if_neg (by omega), if_neg (by omega),
      if_neg (by omega), if_neg (by omega), if_neg (by omega)]

theorem toNat_toUInt8 {n : Nat} (h : n < 256) : n.toUInt8.toNat = n := by
  simp [Nat.toUInt8, Nat.mod_eq_of_lt h]

/-- **The bytes of a character spell it.** -/
theorem exists_spells (c : Char) : ∃ b bs, encodeChar c = b :: bs ∧ Spells b bs c := by
  have hvalid : c.toNat < 0xD800 ∨ 0xDFFF < c.toNat ∧ c.toNat < 0x110000 := c.valid
  have hchar : Char.ofNat c.toNat = c := Char.ofNat_toNat c
  unfold encodeChar
  generalize c.toNat = n at hvalid hchar
  simp only
  -- one case for each length; `hvalid` is needed with three and four bytes, to keep out surrogates and what is too large
  split
  · rename_i h₁
    have hb : n.toUInt8.toNat = n := toNat_toUInt8 (by omega)
    exact ⟨_, [], rfl, _, _, _, lead?_one (by omega), trivial, by rw [value_nil, hb, hchar]⟩
  split
  · rename_i h₁ h₂
    have hb : (0xC0 + n / 64).toUInt8.toNat = 0xC0 + n / 64 := toNat_toUInt8 (by omega)
    have hx : (0x80 + n % 64).toUInt8.toNat = 0x80 + n % 64 := toNat_toUInt8 (by omega)
    refine ⟨_, _, rfl, _, _, _, lead?_two (by omega) (by omega), ⟨⟨?_, ?_⟩, trivial⟩, ?_⟩
    · omega
    · omega
    · refine (congrArg Char.ofNat ?_).trans hchar
      simp only [value_cons, value_nil]
      omega
  split
  · rename_i h₁ h₂ h₃
    have hb : (0xE0 + n / 4096).toUInt8.toNat = 0xE0 + n / 4096 := toNat_toUInt8 (by omega)
    have hx : (0x80 + n / 64 % 64).toUInt8.toNat = 0x80 + n / 64 % 64 := toNat_toUInt8 (by omega)
    have hy : (0x80 + n % 64).toUInt8.toNat = 0x80 + n % 64 := toNat_toUInt8 (by omega)
    refine ⟨_, _, rfl, _, _, _, lead?_three (by omega) (by omega), ⟨⟨?_, ?_⟩, ⟨?_, ?_⟩, trivial⟩, ?_⟩
    · split <;> omega
    · split <;> omega
    · omega
    · omega
    · refine (congrArg Char.ofNat ?_).trans hchar
      simp only [value_cons, value_nil]
      omega
  · rename_i h₁ h₂ h₃
    have hb : (0xF0 + n / 262144).toUInt8.toNat = 0xF0 + n / 262144 := toNat_toUInt8 (by omega)
    have hx : (0x80 + n / 4096 % 64).toUInt8.toNat = 0x80 + n / 4096 % 64 := toNat_toUInt8 (by omega)
    have hy : (0x80 + n / 64 % 64).toUInt8.toNat = 0x80 + n / 64 % 64 := toNat_toUInt8 (by omega)
    have hz : (0x80 + n % 64).toUInt8.toNat = 0x80 + n % 64 := toNat_toUInt8 (by omega)
    refine ⟨_, _, rfl, _, _, _, lead?_four (by omega) (by omega), ⟨⟨?_, ?_⟩, ⟨?_, ?_⟩, ⟨?_, ?_⟩, trivial⟩, ?_⟩
    · split <;> omega
    · split <;> omega
    · omega
    · omega
    · omega
    · omega
    · refine (congrArg Char.ofNat ?_).trans hchar
      simp only [value_cons, value_nil]
      omega

theorem toNat_ofNat {n : Nat} (h : n < 0xD800 ∨ 0xDFFF < n ∧ n < 0x110000) : (Char.ofNat n).toNat = n := by
  rw [Char.ofNat, dif_pos h]
  rfl

theorem toUInt8_eq {n : Nat} {b : UInt8} (h : n = b.toNat) : n.toUInt8 = b := by
  rw [h]
  exact UInt8.ofNat_toNat

/-- The first byte decides how many follow it, and in which bounds. -/
theorem lead?_cases {b : UInt8} {k acc lo hi : Nat} (h : lead? b = some (k, acc, lo, hi)) :
    (k = 0 ∧ b.toNat < 0x80 ∧ acc = b.toNat) ∨
      (k = 1 ∧ 0xC2 ≤ b.toNat ∧ b.toNat < 0xE0 ∧ acc = b.toNat - 0xC0 ∧ lo = 0x80 ∧ hi = 0xBF) ∨
      (k = 2 ∧ 0xE0 ≤ b.toNat ∧ b.toNat < 0xF0 ∧ acc = b.toNat - 0xE0 ∧ 0x80 ≤ lo ∧ hi ≤ 0xBF ∧
        (b.toNat = 0xE0 → lo = 0xA0) ∧ (b.toNat = 0xED → hi = 0x9F)) ∨
      (k = 3 ∧ 0xF0 ≤ b.toNat ∧ b.toNat ≤ 0xF4 ∧ acc = b.toNat - 0xF0 ∧ 0x80 ≤ lo ∧ hi ≤ 0xBF ∧
        (b.toNat = 0xF0 → lo = 0x90) ∧ (b.toNat = 0xF4 → hi = 0x8F)) := by
  by_cases h₁ : b.toNat < 0x80
  · rw [lead?_one h₁] at h
    simp only [Option.some.injEq, Prod.mk.injEq] at h
    omega
  by_cases h₂ : b.toNat < 0xC2
  · rw [lead?_none (Or.inl ⟨by omega, h₂⟩)] at h
    cases h
  by_cases h₃ : b.toNat < 0xE0
  · rw [lead?_two (by omega) h₃] at h
    simp only [Option.some.injEq, Prod.mk.injEq] at h
    omega
  by_cases h₄ : b.toNat < 0xF0
  · rw [lead?_three (by omega) h₄] at h
    simp only [Option.some.injEq, Prod.mk.injEq] at h
    obtain ⟨hk, hacc, hlo, hhi⟩ := h
    split at hlo <;> split at hhi <;> omega
  by_cases h₅ : b.toNat ≤ 0xF4
  · rw [lead?_four (by omega) h₅] at h
    simp only [Option.some.injEq, Prod.mk.injEq] at h
    obtain ⟨hk, hacc, hlo, hhi⟩ := h
    split at hlo <;> split at hhi <;> omega
  · rw [lead?_none (Or.inr (by omega))] at h
    cases h

/-- The bytes of a character are those that spell it. -/
theorem Spells.encodeChar {b : UInt8} {bs : Bytes} {c : Char} (h : Spells b bs c) : encodeChar c = b :: bs := by
  obtain ⟨acc, lo, hi, hlead, hbs, rfl⟩ := h
  rcases lead?_cases hlead with ⟨hlen, hb, hacc⟩ | ⟨hlen, hb, hb', hacc, hlo, hhi⟩ |
    ⟨hlen, hb, hb', hacc, hlo, hhi, hlow, hhigh⟩ | ⟨hlen, hb, hb', hacc, hlo, hhi, hlow, hhigh⟩
  · obtain rfl := List.length_eq_zero_iff.1 hlen
    have hn : (Char.ofNat (value acc [])).toNat = acc := toNat_ofNat (by rw [value_nil]; omega)
    simp only [Utf8.encodeChar, hn]
    rw [if_pos (by omega), toUInt8_eq hacc]
  · obtain ⟨x, rfl⟩ := List.length_eq_one_iff.1 hlen
    obtain ⟨⟨hx, hx'⟩, -⟩ := hbs
    have hn : (Char.ofNat (value acc [x])).toNat = acc * 64 + (x.toNat - 0x80) := by
      simp only [value_cons, value_nil]
      exact toNat_ofNat (by omega)
    simp only [Utf8.encodeChar, hn]
    rw [if_neg (by omega), if_pos (by omega), toUInt8_eq (b := b) (by omega), toUInt8_eq (b := x) (by omega)]
  · obtain ⟨x, y, rfl⟩ := List.length_eq_two.1 hlen
    obtain ⟨⟨hx, hx'⟩, ⟨hy, hy'⟩, -⟩ := hbs
    have hn : (Char.ofNat (value acc [x, y])).toNat = (acc * 64 + (x.toNat - 0x80)) * 64 + (y.toNat - 0x80) := by
      simp only [value_cons, value_nil]
      exact toNat_ofNat (by omega)
    simp only [Utf8.encodeChar, hn]
    rw [if_neg (by omega), if_neg (by omega), if_pos (by omega), toUInt8_eq (b := b) (by omega),
      toUInt8_eq (b := x) (by omega), toUInt8_eq (b := y) (by omega)]
  · obtain ⟨x, y, z, rfl⟩ := List.length_eq_three.1 hlen
    obtain ⟨⟨hx, hx'⟩, ⟨hy, hy'⟩, ⟨hz, hz'⟩, -⟩ := hbs
    have hn : (Char.ofNat (value acc [x, y, z])).toNat
        = ((acc * 64 + (x.toNat - 0x80)) * 64 + (y.toNat - 0x80)) * 64 + (z.toNat - 0x80) := by
      simp only [value_cons, value_nil]
      exact toNat_ofNat (by omega)
    simp only [Utf8.encodeChar, hn]
    rw [if_neg (by omega), if_neg (by omega), if_neg (by omega), toUInt8_eq (b := b) (by omega),
      toUInt8_eq (b := x) (by omega), toUInt8_eq (b := y) (by omega), toUInt8_eq (b := z) (by omega)]

/-! ## Texts -/

theorem read_encode : ∀ t : Text, read (encode t) = t.map some
  | [] => rfl
  | c :: t => by
    obtain ⟨b, bs, hc, hspells⟩ := exists_spells c
    have henc : encode (c :: t) = b :: (bs ++ encode t) := by
      rw [encode, List.flatMap_cons, hc, List.cons_append]
      rfl
    rw [henc, read_cons, hspells.step, List.drop_left, read_encode t, List.map_cons]

/-- **A text comes back from its bytes.** -/
@[simp] theorem decode_encode (t : Text) : decode (encode t) = t := by
  rw [decode, read_encode, List.map_map]
  exact List.map_id t

theorem encode_injective : Function.Injective encode := fun s t h => by
  rw [← decode_encode s, h, decode_encode]

theorem decode?_encode (t : Text) : decode? (encode t) = some t := by
  unfold decode?
  simp [read_encode]

theorem encode_filterMap_read : ∀ (bs : Bytes), (read bs).all Option.isSome = true → encode ((read bs).filterMap id) = bs
  | [], _ => rfl
  | b :: rest, h => by
    rw [read_cons, List.all_cons, Bool.and_eq_true] at h
    obtain ⟨c, hc⟩ := Option.isSome_iff_exists.1 h.1
    obtain ⟨bs, more, hrest, hk, hspells⟩ := spells_of_step (k := (step b rest).2) (Prod.ext hc rfl)
    have hmore : rest.drop (step b rest).2 = more := by
      rw [← hk]
      subst hrest
      exact List.drop_left
    have hlt : more.length < (b :: rest).length := by
      rw [hrest, List.length_cons, List.length_append]
      omega
    have ih := encode_filterMap_read more (hmore ▸ h.2)
    rw [read_cons, hc, hmore, List.filterMap_cons_some (f := id) (b := c) rfl, encode, List.flatMap_cons, ← encode, ih,
      hspells.encodeChar, List.cons_append, ← hrest]
termination_by bs => bs.length

theorem encode_of_decode? {bs : Bytes} {t : Text} (h : decode? bs = some t) : encode t = bs := by
  unfold decode? at h
  simp only at h
  split at h
  · rename_i hall
    rw [← Option.some.inj h]
    exact encode_filterMap_read bs hall
  · cases h

/-- Well-formed bytes have the text that is read without regard to form. -/
theorem decode_of_decode? {bs : Bytes} {t : Text} (h : decode? bs = some t) : decode bs = t := by
  rw [← encode_of_decode? h, decode_encode]

theorem firstBad_eq_none : ∀ (bs : Bytes) (pos k : Nat), (readAux [] k bs).all Option.isSome = true → firstBad pos k bs = none
  | [], _, _, _ => rfl
  | _ :: rest, pos, k + 1, h => firstBad_eq_none rest (pos + 1) k h
  | b :: rest, pos, 0, h => by
    rw [readAux] at h
    simp only at h
    rw [readAux_done, List.all_append, Bool.and_eq_true] at h
    unfold firstBad
    cases hstep : step b rest with
    | mk c taken =>
      rw [hstep] at h
      cases c with
      | none => exact absurd h.1 (by simp)
      | some c => exact firstBad_eq_none rest (pos + 1) taken h.2

/-- Well-formed bytes have no bad part. -/
theorem decodeStrict_of_decode? {bs : Bytes} {t : Text} (h : decode? bs = some t) : decodeStrict bs = .ok t := by
  have hall : (read bs).all Option.isSome = true := by
    unfold decode? at h
    simp only at h
    split at h
    · assumption
    · cases h
  rw [decodeStrict, firstBad_eq_none bs 0 0 hall, decode_of_decode? h]

/-- **Bytes come back from their text exactly if they are well formed.** -/
theorem encode_decode_iff {bs : Bytes} : encode (decode bs) = bs ↔ (decode? bs).isSome = true := by
  constructor
  · intro h
    rw [← h, decode?_encode]
    rfl
  · intro h
    obtain ⟨t, ht⟩ := Option.isSome_iff_exists.1 h
    rw [decode_of_decode? ht, encode_of_decode? ht]

end EpFormat.Utf8
