import Mathlib.Data.List.Chain
import EpFormat.Measure.Fingerprint
import EpFormat.Proofs.Utf8
/-!
# TellApart — values that their bytes tell apart

A plain value is written as tokens, one after the other: a fixed word, a number, a text, or the count of a list, which says how
many values follow.  Nothing stands between them, so that digits run into digits, and a text into everything behind it.  A value
in which that does not happen has bytes that no other value has (`encode_eq_iff_of_delimited`): to cut them elsewhere gives
more tokens, and then there are more of them than the counts ask for.
-/
namespace EpFormat.Measure

open Decimal (natText intText)

/-! ## Digits -/

def startsDigit (t : Text) : Bool := t.head?.any Char.isDigit

theorem isDigit_of_mem_natText {n : Nat} {c : Char} (h : c ∈ natText n) : c.isDigit = true :=
  Nat.isDigit_of_mem_toDigits (by decide) (by decide) h

theorem exists_natText (n : Nat) : ∃ c t, natText n = c :: t ∧ c.isDigit = true := by
  cases h : natText n with
  | nil => exact absurd h Nat.toDigits_ne_nil
  | cons c t => exact ⟨c, t, rfl, isDigit_of_mem_natText (h ▸ List.mem_cons_self)⟩

theorem natText_injective {a b : Nat} (h : natText a = natText b) : a = b := by
  have hread := congrArg (Nat.ofDigitChars 10 · 0) h
  simpa only [natText, Nat.ofDigitChars_ten_toDigits] using hread

theorem le_of_natText {a b : Nat} {e : Text} (h : natText a = natText b ++ e) : b ≤ a := by
  have hread := congrArg (Nat.ofDigitChars 10 · 0) h
  simp only [natText, Nat.ofDigitChars_append, Nat.ofDigitChars_ten_toDigits] at hread
  rw [Nat.ofDigitChars_eq_ofDigitChars_zero] at hread
  rw [hread]
  exact (Nat.le_mul_of_pos_left b (Nat.pow_pos (by decide))).trans (Nat.le_add_right _ _)

/-- Only zero is written with a zero in front. -/
theorem eq_zero_of_natText {n : Nat} {t : Text} (h : natText n = '0' :: t) : n = 0 := by
  induction n using Nat.strongRecOn generalizing t with
  | _ n ih =>
    by_cases hn : n < 10
    · rw [natText, Nat.toDigits_of_lt_base hn] at h
      have hdigit : ∀ m < 10, m.digitChar = '0' → m = 0 := by decide
      exact hdigit n hn (List.cons.inj h).1
    · rw [natText, Nat.toDigits_of_base_le (by decide) (Nat.not_lt.1 hn)] at h
      obtain ⟨c, u, hu, -⟩ := exists_natText (n / 10)
      rw [← natText, hu, List.cons_append] at h
      have hzero := ih (n / 10) (by omega) (hu.trans (by rw [(List.cons.inj h).1]))
      omega

theorem prefix_of_digits {a e r : Text} (ha : ∀ c ∈ a, c.isDigit = true) (hr : startsDigit r = false)
    (h : a <+: e ++ r) : a <+: e := by
  rcases List.prefix_or_prefix_of_prefix h (List.prefix_append e r) with hp | ⟨x, rfl⟩
  · exact hp
  · cases x with
    | nil => exact ⟨[], by rw [List.append_nil, List.append_nil]⟩
    | cons c x =>
      obtain ⟨y, hy⟩ := (List.prefix_append_right_inj e).1 h
      rw [← hy] at hr
      have hc : c.isDigit = true := ha c (by simp)
      simp [startsDigit, hc] at hr

/-- Two numbers at the head of one text, where the first is followed by no digit, or is zero: they are the same, or the second
is cut off early and more digits follow. -/
theorem natText_append {a b : Nat} {r s : Text} (h : natText a ++ r = natText b ++ s) (hr : a ≠ 0 → startsDigit r = false) :
    (a = b ∧ r = s) ∨ b ≤ a ∧ startsDigit r = false ∧ ∃ e ≠ [], (∀ c ∈ e, c.isDigit = true) ∧ s = e ++ r := by
  have hdigits : ∀ (n : Nat), ∀ c ∈ natText n, c.isDigit = true := fun n c hc => isDigit_of_mem_natText hc
  by_cases hzero : startsDigit r = true
  · -- The first number is zero, and nothing else begins like it.
    have ha : a = 0 := by
      by_contra ha
      rw [hr ha] at hzero
      cases hzero
    subst ha
    obtain ⟨c, t, ht, -⟩ := exists_natText b
    have hc : '0' = c := by
      rw [ht] at h
      exact (List.cons.inj h).1
    have hb : b = 0 := eq_zero_of_natText (hc ▸ ht)
    subst hb
    exact Or.inl ⟨rfl, List.append_cancel_left h⟩
  · rw [Bool.not_eq_true] at hzero
    obtain ⟨e, he⟩ : natText b <+: natText a := prefix_of_digits (hdigits b) hzero ⟨s, h.symm⟩
    rw [← he, List.append_assoc, List.append_cancel_left_eq] at h
    cases e with
    | nil =>
      rw [List.append_nil] at he
      exact Or.inl ⟨natText_injective he.symm, h⟩
    | cons c e =>
      exact Or.inr ⟨le_of_natText he.symm, hzero, c :: e, List.cons_ne_nil c e,
        fun d hd => hdigits a d (he ▸ List.mem_append_right _ hd), h.symm⟩

/-! ## Tokens -/

/-- What a plain value is written with: a fixed word (nothing, or a truth value), a number, a text, or the count of a list. -/
inductive Token
  | word (w : Option Bool)
  | int (n : Int)
  | text (t : Text)
  | list (count : Nat)
  deriving DecidableEq

namespace Token

def spell : Token → Text
  | word none => txt "None"
  | word (some b) => if b then txt "True" else txt "False"
  | int n => intText n
  | text t => 's' :: t
  | list n => 'L' :: natText n

/-- How many values a token asks for. -/
def arity : Token → Nat
  | list n => n
  | _ => 0

/-- Whether the second token could be taken for a part of the first: anything behind a text, and digits behind digits, if they
do not end in a zero that stands alone. -/
def runsInto : Token → Token → Bool
  | text _, _ => true
  | int n, int (.ofNat _) => n ≠ 0
  | list n, int (.ofNat _) => n ≠ 0
  | _, _ => false

/-- The character that a token begins with, one for all digits. -/
def lead : Token → Char
  | word none => 'N'
  | word (some b) => if b then 'T' else 'F'
  | int (.ofNat _) => '0'
  | int (.negSucc _) => '-'
  | text _ => 's'
  | list _ => 'L'

theorem exists_spell (x : Token) : ∃ c t, x.spell = c :: t ∧ (if c.isDigit then '0' else c) = x.lead := by
  cases x with
  | word w => rcases w with _ | _ | _ <;> exact ⟨_, _, rfl, rfl⟩
  | int n =>
    cases n with
    | ofNat n =>
      obtain ⟨c, t, ht, hc⟩ := exists_natText n
      exact ⟨c, t, ht, if_pos hc⟩
    | negSucc n => exact ⟨_, _, rfl, rfl⟩
  | text t => exact ⟨_, _, rfl, rfl⟩
  | list n => exact ⟨_, _, rfl, rfl⟩

theorem spell_ne_nil (x : Token) : x.spell ≠ [] := by
  obtain ⟨c, t, h, -⟩ := x.exists_spell
  rw [h]
  exact List.cons_ne_nil c t

theorem lead_eq {x y : Token} {r s : Text} (h : x.spell ++ r = y.spell ++ s) : x.lead = y.lead := by
  obtain ⟨c, t, hx, hc⟩ := x.exists_spell
  obtain ⟨d, u, hy, hd⟩ := y.exists_spell
  rw [hx, hy, List.cons_append, List.cons_append] at h
  rw [← hc, ← hd, (List.cons.inj h).1]

/-- What tokens are that begin alike. -/
theorem cases_of_lead_eq {x y : Token} (h : x.lead = y.lead) :
    (∃ w, x = word w ∧ y = word w) ∨ (∃ m n, x = int (.ofNat m) ∧ y = int (.ofNat n)) ∨
      (∃ m n, x = int (.negSucc m) ∧ y = int (.negSucc n)) ∨ (∃ t u, x = text t ∧ y = text u) ∨
      ∃ m n, x = list m ∧ y = list n := by
  rcases x with (_ | _ | _) | (m | m) | t | m <;> rcases y with (_ | _ | _) | (n | n) | u | n <;> simp [lead] at h <;> simp

theorem eq_int_of_lead {x : Token} (h : x.lead = '0') : ∃ n, x = int (.ofNat n) := by
  rcases cases_of_lead_eq (show x.lead = (int (.ofNat 0)).lead from h) with
    ⟨w, -, hw⟩ | ⟨m, n, hx, -⟩ | ⟨m, n, -, hn⟩ | ⟨t, u, -, hu⟩ | ⟨m, n, -, hn⟩
  · cases hw
  · exact ⟨m, hx⟩
  · cases hn
  · cases hu
  · cases hn

theorem startsDigit_spell (x : Token) (r : Text) : startsDigit (x.spell ++ r) = true ↔ x.lead = '0' := by
  obtain ⟨c, t, h, hc⟩ := x.exists_spell
  rw [h, ← hc]
  by_cases hd : c.isDigit = true
  · simp [startsDigit, hd]
  · rw [if_neg hd]
    simp only [startsDigit, List.cons_append, List.head?_cons, Option.any_some]
    exact iff_of_false hd (fun h0 => hd (h0 ▸ by decide))

end Token

def spelled (xs : List Token) : Text := xs.flatMap Token.spell

theorem spelled_cons (x : Token) (xs : List Token) : spelled (x :: xs) = x.spell ++ spelled xs := List.flatMap_cons

/-- How many of `k` values are still to come behind tokens; none if there are too many tokens. -/
def owed : Nat → List Token → Option Nat
  | k, [] => some k
  | 0, _ :: _ => none
  | k + 1, x :: xs => owed (k + x.arity) xs

/-- Tokens that make up `k` values. -/
def Makes (k : Nat) (xs : List Token) : Prop := owed k xs = some 0

theorem makes_nil_iff {k : Nat} : Makes k [] ↔ k = 0 := by simp [Makes, owed]

theorem makes_cons_iff {k : Nat} {x : Token} {xs : List Token} :
    Makes k (x :: xs) ↔ ∃ j, k = j + 1 ∧ Makes (j + x.arity) xs := by
  cases k with
  | zero => simp [Makes, owed]
  | succ k => simp [Makes, owed]

theorem makes_zero_iff {xs : List Token} : Makes 0 xs ↔ xs = [] := by
  cases xs with
  | nil => simp [makes_nil_iff]
  | cons x xs => simp [makes_cons_iff]

/-- Digits, and no digit behind them, are numbers, each of which is one value less to come. -/
theorem makes_of_digits : ∀ {xs : List Token} {k : Nat} {e r : Text}, Makes k xs → spelled xs = e ++ r →
    (∀ c ∈ e, c.isDigit = true) → startsDigit r = false → ∃ ys j, Makes j ys ∧ spelled ys = r ∧ j ≤ k ∧ (e ≠ [] → j < k) := by
  intro xs
  induction xs with
  | nil =>
    intro k e r hm hs he hr
    obtain ⟨rfl, rfl⟩ := List.append_eq_nil_iff.1 hs.symm
    exact ⟨[], k, hm, rfl, Nat.le_refl k, fun h => absurd rfl h⟩
  | cons x xs ih =>
    intro k e r hm hs he hr
    cases e with
    | nil => exact ⟨x :: xs, k, hm, hs, Nat.le_refl k, fun h => absurd rfl h⟩
    | cons c e =>
      obtain ⟨j, rfl, hm⟩ := makes_cons_iff.1 hm
      rw [spelled_cons] at hs
      obtain ⟨n, rfl⟩ : ∃ n, x = .int (.ofNat n) := by
        refine Token.eq_int_of_lead ((x.startsDigit_spell (spelled xs)).1 ?_)
        rw [hs]
        simp [startsDigit, he c List.mem_cons_self]
      have hprefix : natText n <+: c :: e :=
        prefix_of_digits (fun d hd => isDigit_of_mem_natText hd) hr ⟨spelled xs, hs⟩
      obtain ⟨f, hf⟩ := hprefix
      rw [← hf, List.append_assoc] at hs
      obtain ⟨ys, i, hmakes, hspelled, hle, -⟩ := ih hm (List.append_cancel_left hs)
        (fun d hd => he d (hf ▸ List.mem_append_right _ hd)) hr
      exact ⟨ys, i, hmakes, hspelled, Nat.le_succ_of_le hle, fun _ => Nat.lt_succ_of_le hle⟩

/-- Tokens of which none could be taken for a part of the one before it. -/
def Apart (xs : List Token) : Prop := xs.IsChain (fun x y => x.runsInto y = false)

theorem Apart.tail {x : Token} {xs : List Token} (h : Apart (x :: xs)) : Apart xs := List.IsChain.tail h

theorem Apart.startsDigit_eq {x : Token} {xs : List Token} (h : Apart (x :: xs))
    (hx : ∀ n, x.runsInto (.int (.ofNat n)) = true) : startsDigit (spelled xs) = false := by
  cases xs with
  | nil => rfl
  | cons y ys =>
    rw [spelled_cons, ← Bool.not_eq_true, Token.startsDigit_spell]
    intro hlead
    obtain ⟨n, rfl⟩ := Token.eq_int_of_lead hlead
    have hxy := (List.isChain_cons_cons.1 h).1
    rw [hx n] at hxy
    cases hxy

theorem Apart.eq_nil_of_text {t : Text} {xs : List Token} (h : Apart (.text t :: xs)) : xs = [] := by
  cases xs with
  | nil => rfl
  | cons y ys => exact absurd (List.isChain_cons_cons.1 h).1 (by simp [Token.runsInto])

/-- **Tokens that are apart are the only ones that are written as they are**, among those that make up no more values. -/
theorem tokens_unique : ∀ {xs ys : List Token} {k j : Nat}, Apart xs → Makes k xs → Makes j ys → j ≤ k →
    spelled xs = spelled ys → j = k ∧ xs = ys := by
  -- Along the tokens that are apart.  Where the others leave them, a number or a count is cut off early, and the digits behind
  -- it make up values that are one too many.
  intro xs
  induction xs with
  | nil =>
    intro ys k j _ hx hy hjk _
    obtain rfl := makes_nil_iff.1 hx
    obtain rfl := Nat.le_zero.1 hjk
    exact ⟨rfl, (makes_zero_iff.1 hy).symm⟩
  | cons x xs ih =>
    intro ys k j hc hmx hmy hjk hs
    cases ys with
    | nil =>
      rw [spelled_cons] at hs
      exact absurd (List.append_eq_nil_iff.1 hs).1 x.spell_ne_nil
    | cons y ys =>
      obtain ⟨k, rfl, hx⟩ := makes_cons_iff.1 hmx
      obtain ⟨j, rfl, hy⟩ := makes_cons_iff.1 hmy
      have hjk : j ≤ k := Nat.le_of_succ_le_succ hjk
      rw [spelled_cons, spelled_cons] at hs
      have hlead := Token.lead_eq hs
      -- Numbers, whether values or counts, at the head of both.
      have number : ∀ {a b p q : Nat}, natText a ++ spelled xs = natText b ++ spelled ys →
          (a ≠ 0 → startsDigit (spelled xs) = false) → Makes p xs → Makes q ys → (b ≤ a → q ≤ p) →
            a = b ∧ q = p ∧ xs = ys := by
        intro a b p q hboth hnext hp hq hqp
        rcases natText_append hboth hnext with ⟨rfl, hrest⟩ | ⟨hle, hnext, e, hne, he, hrest⟩
        · exact ⟨rfl, ih hc.tail hp hq (hqp (Nat.le_refl a)) hrest⟩
        · obtain ⟨zs, i, hz, hspelled, -, hlt⟩ := makes_of_digits hq hrest he hnext
          have hip : i < p := Nat.lt_of_lt_of_le (hlt hne) (hqp hle)
          have hi : i = p := (ih hc.tail hp hz (Nat.le_of_lt hip) hspelled.symm).1
          exact absurd hi (Nat.ne_of_lt hip)
      rcases Token.cases_of_lead_eq hlead with ⟨w, rfl, rfl⟩ | ⟨m, n, rfl, rfl⟩ | ⟨m, n, rfl, rfl⟩ | ⟨t, u, rfl, rfl⟩ |
        ⟨m, n, rfl, rfl⟩
      · obtain ⟨rfl, rfl⟩ := ih hc.tail hx hy hjk (List.append_cancel_left hs)
        exact ⟨rfl, rfl⟩
      · obtain ⟨rfl, rfl, rfl⟩ := number hs (fun hm => hc.startsDigit_eq (fun _ => by simpa [Token.runsInto] using hm)) hx hy
          (fun _ => hjk)
        exact ⟨rfl, rfl⟩
      · obtain ⟨hmn, rfl, rfl⟩ := number (List.cons.inj hs).2
          (fun _ => hc.startsDigit_eq (fun _ => by simp [Token.runsInto])) hx hy (fun _ => hjk)
        obtain rfl := Nat.succ.inj hmn
        exact ⟨rfl, rfl⟩
      · obtain rfl := hc.eq_nil_of_text
        obtain rfl : k = 0 := makes_nil_iff.1 hx
        obtain rfl : j = 0 := Nat.le_zero.1 hjk
        obtain rfl : ys = [] := makes_zero_iff.1 hy
        exact ⟨rfl, by simpa [spelled, Token.spell] using hs⟩
      · obtain ⟨rfl, hjk, rfl⟩ := number (List.cons.inj hs).2
          (fun hm => hc.startsDigit_eq (fun _ => by simpa [Token.runsInto] using hm)) hx hy (Nat.add_le_add hjk)
        exact ⟨congrArg (· + 1) (Nat.add_right_cancel hjk), rfl⟩

/-! ## Plain values -/

namespace Value

/-- Whether a value is made of nothing, truth values, whole numbers, texts, and lists that are not too long, nested at most so
deep. -/
def isPlain : Nat → Value → Bool
  | _, none | _, bool _ | _, int _ | _, text _ => true
  | depth + 1, seq .list items => items.length ≤ maxItems && items.all (isPlain depth)
  | _, _ => false

/-- The first token of a plain value. -/
def head : Value → Token
  | bool b => .word (some b)
  | int n => .int n
  | text t => .text t
  | seq _ items => .list items.length
  | _ => .word .none

/-- The values in a plain value. -/
def parts : Value → List Value
  | seq _ items => items
  | _ => []

/-- The tokens of a plain value, `fuel` levels deep. -/
def tokens : Nat → Value → List Token
  | 0, _ => []
  | fuel + 1, v => v.head :: v.parts.flatMap (tokens fuel)

theorem arity_head (v : Value) : v.head.arity = v.parts.length := by cases v <;> rfl

theorem cases_of_isPlain {d : Nat} {v : Value} (h : v.isPlain d = true) :
    v = none ∨ (∃ b, v = bool b) ∨ (∃ n, v = int n) ∨ (∃ t, v = text t) ∨
      ∃ e items, d = e + 1 ∧ v = seq .list items ∧ items.length ≤ maxItems ∧ ∀ x ∈ items, x.isPlain e = true := by
  cases v with
  | none => exact Or.inl rfl
  | bool b => exact Or.inr (Or.inl ⟨b, rfl⟩)
  | int n => exact Or.inr (Or.inr (Or.inl ⟨n, rfl⟩))
  | text t => exact Or.inr (Or.inr (Or.inr (Or.inl ⟨t, rfl⟩)))
  | seq kind items =>
    cases d with
    | zero => cases kind <;> cases h
    | succ d =>
      cases kind with
      | list =>
        rw [isPlain, Bool.and_eq_true, decide_eq_true_eq, List.all_eq_true] at h
        exact Or.inr (Or.inr (Or.inr (Or.inr ⟨d, items, rfl, rfl, h⟩)))
      | tuple => cases h
  | _ => simp [isPlain] at h

theorem eq_of_head {d : Nat} {v w : Value} (hv : v.isPlain d = true) (hw : w.isPlain d = true) (hh : v.head = w.head)
    (hp : v.parts = w.parts) : v = w := by
  rcases cases_of_isPlain hv with rfl | ⟨b, rfl⟩ | ⟨n, rfl⟩ | ⟨t, rfl⟩ | ⟨e, xs, -, rfl, -⟩ <;>
    rcases cases_of_isPlain hw with rfl | ⟨c, rfl⟩ | ⟨m, rfl⟩ | ⟨u, rfl⟩ | ⟨f, ys, -, rfl, -⟩ <;>
      simp_all [head, parts]

theorem isPlain_of_mem_parts {d : Nat} {v x : Value} (h : v.isPlain d = true) (hx : x ∈ v.parts) :
    ∃ e, d = e + 1 ∧ x.isPlain e = true := by
  rcases cases_of_isPlain h with rfl | ⟨b, rfl⟩ | ⟨n, rfl⟩ | ⟨t, rfl⟩ | ⟨e, items, hd, rfl, -, hitems⟩
  · cases hx
  · cases hx
  · cases hx
  · cases hx
  · exact ⟨e, hd, hitems x hx⟩

/-- A plain value is its first token and what is in it. -/
theorem encodeAt_of_isPlain {d : Nat} {v : Value} (h : v.isPlain d = true) (fuel : Nat) :
    encodeAt (fuel + 1) v = ascii v.head.spell ++ v.parts.flatMap (encodeAt fuel) := by
  rcases cases_of_isPlain h with rfl | ⟨b, rfl⟩ | ⟨n, rfl⟩ | ⟨t, rfl⟩ | ⟨e, items, hd, rfl, hlength, -⟩
  · rfl
  · exact (List.append_nil _).symm
  · exact (List.append_nil _).symm
  · exact (List.append_nil _).symm
  · rw [encodeAt, List.take_of_length_le hlength]
    rfl

/-- Induction along what is in plain values. -/
theorem plain_induct {motive : ∀ d v, isPlain d v = true → Prop}
    (step : ∀ d v h, (∀ x ∈ v.parts, ∃ e hx, d = e + 1 ∧ motive e x hx) → motive d v h)
    {d : Nat} {v : Value} (h : v.isPlain d = true) : motive d v h := by
  induction d using Nat.strongRecOn generalizing v with
  | _ d ih =>
    refine step d v h (fun x hx => ?_)
    obtain ⟨e, rfl, he⟩ := isPlain_of_mem_parts h hx
    exact ⟨e, he, rfl, ih e (Nat.lt_succ_self e) he⟩

theorem ascii_spelled_flatMap (f : Value → List Token) (xs : List Value) :
    ascii (spelled (xs.flatMap f)) = xs.flatMap (fun x => ascii (spelled (f x))) := by
  simp only [ascii, Utf8.encode, spelled, List.flatMap_assoc]

/-- A plain value is written as its tokens. -/
theorem encodeAt_eq_spelled {d : Nat} {v : Value} (h : v.isPlain d = true) :
    encodeAt (d + 1) v = ascii (spelled (v.tokens (d + 1))) := by
  induction h using plain_induct with
  | step d v h ih =>
    have hparts : v.parts.flatMap (encodeAt d) = ascii (spelled (v.parts.flatMap (tokens d))) := by
      rw [ascii_spelled_flatMap]
      refine List.flatMap_congr (fun x hx => ?_)
      obtain ⟨e, -, rfl, hx⟩ := ih x hx
      exact hx
    rw [encodeAt_of_isPlain h, hparts, tokens, spelled_cons, ascii, ascii, ascii, Utf8.encode, Utf8.encode, Utf8.encode,
      List.flatMap_append]

/-- The tokens of a plain value make up one value. -/
theorem owed_tokens {d : Nat} {v : Value} (h : v.isPlain d = true) (k : Nat) (xs : List Token) :
    owed (k + 1) (v.tokens (d + 1) ++ xs) = owed k xs := by
  induction h using plain_induct generalizing k xs with
  | step d v h ih =>
    have hparts : ∀ ps : List Value, (∀ p ∈ ps, p ∈ v.parts) →
        owed (k + ps.length) (ps.flatMap (tokens d) ++ xs) = owed k xs := by
      intro ps
      induction ps with
      | nil => exact fun _ => rfl
      | cons p ps ihp =>
        intro hp
        obtain ⟨e, -, rfl, he⟩ := ih p (hp p List.mem_cons_self)
        rw [List.flatMap_cons, List.append_assoc, List.length_cons, ← Nat.add_assoc, he,
          ihp (fun q hq => hp q (List.mem_cons_of_mem p hq))]
    rw [tokens, List.cons_append, owed, arity_head, hparts _ (fun p hp => hp)]

theorem makes_tokens {d : Nat} {v : Value} (h : v.isPlain d = true) : Makes 1 (v.tokens (d + 1)) := by
  have hone := owed_tokens h 0 []
  rwa [List.append_nil] at hone

/-- Plain values are told apart by their tokens. -/
theorem eq_of_tokens {d : Nat} {v w : Value} (hv : v.isPlain d = true) (hw : w.isPlain d = true) {xs ys : List Token}
    (h : v.tokens (d + 1) ++ xs = w.tokens (d + 1) ++ ys) : v = w ∧ xs = ys := by
  induction hv using plain_induct generalizing w xs ys with
  | step d v hv ih =>
    have hparts : ∀ {ps qs : List Value} {xs ys : List Token}, (∀ p ∈ ps, p ∈ v.parts) → (∀ q ∈ qs, q ∈ w.parts) →
        ps.length = qs.length → ps.flatMap (tokens d) ++ xs = qs.flatMap (tokens d) ++ ys → ps = qs ∧ xs = ys := by
      intro ps
      induction ps with
      | nil =>
        intro qs xs ys _ _ hl hs
        obtain rfl := List.length_eq_zero_iff.1 hl.symm
        exact ⟨rfl, hs⟩
      | cons p ps ihp =>
        intro qs xs ys hp hq hl hs
        cases qs with
        | nil => cases hl
        | cons q qs =>
          obtain ⟨e, -, rfl, he⟩ := ih p (hp p List.mem_cons_self)
          obtain ⟨f, hf, hqf⟩ := isPlain_of_mem_parts hw (hq q List.mem_cons_self)
          obtain rfl := Nat.succ.inj hf
          rw [List.flatMap_cons, List.flatMap_cons, List.append_assoc, List.append_assoc] at hs
          obtain ⟨rfl, hrest⟩ := he hqf hs
          obtain ⟨rfl, rfl⟩ := ihp (fun x hx => hp x (List.mem_cons_of_mem p hx))
            (fun x hx => hq x (List.mem_cons_of_mem p hx)) (Nat.succ.inj hl) hrest
          exact ⟨rfl, rfl⟩
    rw [tokens, tokens, List.cons_append, List.cons_append] at h
    obtain ⟨hhead, hrest⟩ := List.cons.inj h
    have hlength : v.parts.length = w.parts.length := by rw [← arity_head, ← arity_head, hhead]
    obtain ⟨hp, hxs⟩ := hparts (fun p hp => hp) (fun q hq => hq) hlength hrest
    exact ⟨eq_of_head hv hw hhead hp, hxs⟩

/-- A value in which no token could be taken for a part of the one before it. -/
def Delimited (v : Value) : Prop := Apart (v.tokens (maxDepth + 1))

end Value

/-- **A plain value that is delimited has bytes that no other plain value has.**  Plain values are made of nothing, truth
values, whole numbers, texts and lists that are neither too long nor nested too deep.  Such a value is delimited if nothing
is written behind a text, and no number without a sign directly behind a number or the count of its list, unless that is
zero. -/
theorem encode_eq_iff_of_delimited {v w : Value} (hv : v.isPlain maxDepth = true) (hw : w.isPlain maxDepth = true)
    (hd : v.Delimited) : encode v = encode w ↔ v = w := by
  refine ⟨fun h => ?_, fun h => by rw [h]⟩
  rw [encode, encode, Value.encodeAt_eq_spelled hv, Value.encodeAt_eq_spelled hw] at h
  have htokens := (tokens_unique hd (Value.makes_tokens hv) (Value.makes_tokens hw) (Nat.le_refl 1)
    (Utf8.encode_injective h)).2
  exact (@Value.eq_of_tokens maxDepth v w hv hw [] [] (by rw [htokens])).1

/-- A number behind an empty list, another with a sign behind it, and a text that looks like tokens at the end. -/
theorem encode_eq_iff_of_delimited_list :
    let v := Value.seq .list [.seq .list [.bool true], .seq .list [], .int 7, .int (-12), .text (txt "2L1None")]
    let w := Value.seq .list [.seq .list [.bool true], .seq .list [], .int 7, .int (-1), .text (txt "2L1None")]
    v.isPlain maxDepth = true ∧ w.isPlain maxDepth = true ∧ v.Delimited ∧ encode v ≠ encode w := by
  intro v w
  have hv : v.isPlain maxDepth = true := by decide
  have hw : w.isPlain maxDepth = true := by decide
  have hd : v.Delimited := by
    rw [Value.Delimited, Apart]
    decide
  exact ⟨hv, hw, hd, fun h => absurd ((encode_eq_iff_of_delimited hv hw hd).1 h) (by simp [v, w])⟩

/-- Plain values that are different and have the same bytes, and so the same fingerprint. -/
structure Collide (v w : Value) : Prop where
  plain : v.isPlain maxDepth = true ∧ w.isPlain maxDepth = true
  different : v ≠ w
  bytes : encode v = encode w
  print : fingerprint v = fingerprint w

theorem Collide.of_bytes {v w : Value} (hp : v.isPlain maxDepth = true ∧ w.isPlain maxDepth = true) (hne : v ≠ w)
    (h : encode v = encode w) : Collide v w := ⟨hp, hne, h, congrArg Sha256.hexDigest h⟩

/-- Each way for tokens to run into each other makes values collide: digits behind a number, anything behind a text, and digits
behind the count of a list. -/
theorem tokens_run_together :
    let list := Value.seq .list
    let dozen := List.replicate 12 Value.none
    Collide (list [.int 1, .int 23]) (list [.int 12, .int 3]) ∧
      Collide (list [.text (txt "a"), .text (txt "sb")]) (list [.text (txt "as"), .text (txt "b")]) ∧
      Collide (list (list [.int 2] :: dozen ++ [list dozen])) (list (list dozen :: list [.int 2] :: dozen)) := by
  intro list dozen
  refine ⟨.of_bytes (by decide) (by simp [list]) (by decide +kernel), .of_bytes (by decide) ?_ (by decide +kernel),
    .of_bytes (by decide) (by simp [list, dozen]) (by decide +kernel)⟩
  · simp [list, txt]

end EpFormat.Measure
