import EpFormat.CommandLine.Parse
/-!
# Arguments — what command lines say

A word that is not like a flag is a path.  After a flag that takes no value such words are the paths (`parse_paths`).
What turns on writing in place is never turned off again by what comes after it (`parse_write`).  Options that name no
path mean the same behind a target for the result, and paths may be put behind them (`parse_out`, `parse_stdin_out`).
-/
namespace EpFormat.CommandLine

/-- Whether a word of the command line is read as a path. -/
def isPath (t : Text) : Bool :=
  t ≠ ['-', '-'] && match Word.ofText t with
    | .ok (.plain _) => true
    | _ => false

theorem text_of_ofText {t : Text} {w : Word} (h : Word.ofText t = .ok w) : w.text = t := by
  unfold Word.ofText at h
  split at h
  · split at h
    · cases h
      rfl
    · simp only at h
      split at h
      · cases h
        rfl
      · split at h
        · cases h
          rfl
        · split at h <;> cases h <;> rfl
        · cases h
  · cases h
    rfl

theorem isPath_iff {t : Text} : isPath t = true ↔ t ≠ ['-', '-'] ∧ Word.ofText t = .ok (.plain t) := by
  unfold isPath
  rw [Bool.and_eq_true, decide_eq_true_iff]
  refine and_congr_right (fun _ => ?_)
  constructor
  · intro h
    split at h
    · rename_i u hu
      rw [hu, ← text_of_ofText hu]
      rfl
    · cases h
  · intro h
    rw [h]

theorem all_paths : ∀ {paths : List Text}, (∀ t ∈ paths, isPath t = true) → Word.all paths = .ok (paths.map .plain)
  | [], _ => rfl
  | t :: rest, h => by
    obtain ⟨hdash, hplain⟩ := isPath_iff.1 (h t List.mem_cons_self)
    rw [Word.all, if_neg hdash, hplain, all_paths (fun u hu => h u (List.mem_cons_of_mem t hu))]
    rfl

theorem all_cons {t : Text} {w : Word} {rest : List Text} {ws : List Word} (hdash : t ≠ ['-', '-'])
    (hw : Word.ofText t = .ok w) (hws : Word.all rest = .ok ws) : Word.all (t :: rest) = .ok (w :: ws) := by
  rw [Word.all, if_neg hdash, hw, hws]

theorem all_cons_inv {t : Text} {rest : List Text} {ws : List Word} (hdash : t ≠ ['-', '-'])
    (h : Word.all (t :: rest) = .ok ws) : ∃ w ws', Word.ofText t = .ok w ∧ Word.all rest = .ok ws' ∧ ws = w :: ws' := by
  rw [Word.all, if_neg hdash] at h
  cases hw : Word.ofText t with
  | error e => rw [hw] at h; cases h
  | ok w =>
    cases hrest : Word.all rest with
    | error e => rw [hw, hrest] at h; cases h
    | ok ws' =>
      rw [hw, hrest] at h
      cases h
      exact ⟨w, ws', rfl, rfl, rfl⟩

/-- Words before a double dash are read one by one, whatever paths come after them. -/
theorem all_append {paths : List Text} (hpaths : ∀ t ∈ paths, isPath t = true) : ∀ {args : List Text} {ws : List Word},
    ['-', '-'] ∉ args → Word.all args = .ok ws →
      Word.all (args ++ paths) = .ok (ws ++ paths.map .plain) ∧ ∀ w ∈ ws, w.text ≠ ['-', '-']
  | [], ws, _, h => by
    cases h
    exact ⟨all_paths hpaths, by simp⟩
  | t :: args, ws, hdash, h => by
    rw [List.mem_cons, not_or] at hdash
    obtain ⟨w, ws', hw, hrest, rfl⟩ := all_cons_inv (Ne.symm hdash.1) h
    obtain ⟨hall, htexts⟩ := all_append hpaths hdash.2 hrest
    refine ⟨all_cons (Ne.symm hdash.1) hw hall, List.forall_mem_cons.2 ⟨?_, htexts⟩⟩
    rw [text_of_ofText hw]
    exact Ne.symm hdash.1

/-! ## Paths at the end -/

def Reading.group (r : Reading) (paths : List Text) : Reading :=
  if paths = [] then r else { r with grouped := true, options := { r.options with paths := paths.erase ['-', '-'] } }

theorem Reading.leftOver_group (r : Reading) (paths : List Text) : (r.group paths).leftOver = r.leftOver := by
  unfold Reading.group
  split <;> rfl

theorem Reading.options_group {r : Reading} (hnone : r.options.paths = []) {paths : List Text}
    (h : ∀ t ∈ paths, isPath t = true) : (r.group paths).options = { r.options with paths := paths } := by
  have hdash : ['-', '-'] ∉ paths := fun hm => (isPath_iff.1 (h _ hm)).1 rfl
  unfold Reading.group
  split
  · rename_i hempty
    rw [hempty, ← hnone]
  · rw [List.erase_of_not_mem hdash]

theorem readWords_paths {r : Reading} (hr : r.grouped = false) (fuel : Nat) (paths : List Text) :
    readWords (fuel + 1) r (paths.map .plain) = .ok (r.group paths) := by
  cases paths with
  | nil => rfl
  | cons t rest =>
    have hflag : ∀ w ∈ rest.map Word.plain, (!w.isFlag) = true := by
      intro w hw
      obtain ⟨u, -, rfl⟩ := List.mem_map.1 hw
      rfl
    have htake : (rest.map Word.plain).takeWhile (fun w => !w.isFlag) = rest.map .plain := by
      rw [← List.append_nil (rest.map Word.plain), List.takeWhile_append_of_pos hflag]
      rfl
    have hdrop : (rest.map Word.plain).dropWhile (fun w => !w.isFlag) = [] := by
      rw [← List.append_nil (rest.map Word.plain), List.dropWhile_append_of_pos hflag]
      rfl
    have htexts : (rest.map Word.plain).map Word.text = rest := by
      rw [List.map_map]
      exact List.map_id rest
    unfold readWords
    simp only [List.map_cons, hr, htake, hdrop, pathsOf, htexts, Word.text]
    cases fuel <;> rfl

theorem readWords_flag {f : Flag} (hvalue : f.takesValue = false) (fuel : Nat) (r : Reading) (text name : Text)
    (rest : List Word) : readWords (fuel + 1) r (.flag text (some f) name none :: rest)
      = match r.options.turnOn f with
        | .error e => .error e
        | .ok o => readWords fuel { r with options := o } rest := by
  conv => lhs; unfold readWords
  simp only [hvalue, turnOnAll, List.nil_append]
  cases r.options.turnOn f <;> rfl

theorem parse_eq_ok_iff {args : List Text} {o : Options} : parse args = .ok o ↔
    ∃ ws r, Word.all args = .ok ws ∧ readWords (ws.length + 1) {} ws = .ok r ∧ r.leftOver = [] ∧ r.options = o := by
  unfold parse
  cases Word.all args with
  | error e => simp
  | ok ws =>
    simp only
    cases hr : readWords (ws.length + 1) {} ws with
    | error e => simp [hr]
    | ok r => cases hleft : r.leftOver <;> simp [hr, hleft]

/-- **After a flag that takes no value come the paths.** -/
theorem parse_paths {name : Text} {f : Flag} {o : Options} (hname : name ≠ ['-', '-'])
    (hword : Word.ofText name = .ok (.flag name (some f) name none)) (hvalue : f.takesValue = false)
    (ho : ({} : Options).turnOn f = .ok o) (hnone : o.paths = []) {paths : List Text} (h : ∀ t ∈ paths, isPath t = true) :
    parse (name :: paths) = .ok { o with paths := paths } := by
  refine parse_eq_ok_iff.2 ⟨_, Reading.group { options := o } paths, all_cons hname hword (all_paths h), ?_, ?_, ?_⟩
  · rw [List.length_cons, readWords_flag hvalue, ho]
    exact readWords_paths rfl _ paths
  · exact Reading.leftOver_group _ paths
  · exact Reading.options_group hnone h

theorem ofText_write : Word.ofText (txt "-w") = .ok (.flag (txt "-w") (some .write) (txt "-w") none) := rfl

theorem ofText_check : Word.ofText (txt "--check") = .ok (.flag (txt "--check") (some .check) (txt "--check") none) := rfl

/-! ## What reading keeps -/

/-- Options that flags make of options: flags that take no value, and after them perhaps one with its value. -/
def Sets (o o' : Options) : Prop :=
  (∃ on, turnOnAll o on = .ok o') ∨ ∃ on last value, (turnOnAll o on).bind (·.give last value) = .ok o'

/-- **Induction along a command line**: what holds at first, and is kept by words that are left over, by flags and by the
group of paths, holds at the end. -/
theorem readWords_induct {motive : Reading → Prop} {Q : Word → Prop}
    (leftOver : ∀ r texts, motive r → motive { r with leftOver := r.leftOver ++ texts })
    (sets : ∀ r o, motive r → Sets r.options o → motive { r with options := o })
    (group : ∀ r ws, motive r → ws ≠ [] → (∀ w ∈ ws, Q w) →
      motive { r with grouped := true, options := { r.options with paths := pathsOf ws } })
    {fuel : Nat} {r r' : Reading} {ws : List Word} (hws : ∀ w ∈ ws, Q w) (hr : motive r)
    (h : readWords fuel r ws = .ok r') : motive r' := by
  have hmore {w : Word} {rest more : List Word} (hsub : more ⊆ rest) (hall : ∀ v ∈ w :: rest, Q v) :
      ∀ v ∈ more, Q v := fun v hv => hall v (List.mem_cons_of_mem w (hsub hv))
  fun_induction readWords fuel r ws generalizing r' with
  | case1 | case2 =>
    cases h
    exact hr
  | case3 _ _ _ _ _ _ ih => exact ih (hmore (List.Subset.refl _) hws) (leftOver _ _ hr) h
  | case4 | case5 | case7 | case9 | case10 => cases h
  | case6 _ _ _ _ _ _ _ _ _ _ _ hgive _ ih =>
    exact ih (hmore (List.Subset.refl _) hws) (sets _ _ hr (Or.inr ⟨_, _, _, hgive⟩)) h
  | case8 _ _ _ _ _ _ _ _ _ _ _ _ hgive _ ih =>
    exact ih (hmore (List.subset_cons_self _ _) hws) (sets _ _ hr (Or.inr ⟨_, _, _, hgive⟩)) h
  | case11 _ _ _ _ _ _ _ _ _ _ _ hon _ ih =>
    exact ih (hmore (List.Subset.refl _) hws) (sets _ _ hr (Or.inl ⟨_, hon⟩)) h
  | case12 =>
    rename_i ih
    exact ih (hmore (List.dropWhile_suffix _).subset hws) (leftOver _ _ hr) h
  | case13 =>
    rename_i ih
    refine ih (hmore (List.dropWhile_suffix _).subset hws) (group _ _ hr (List.cons_ne_nil _ _) ?_) h
    exact fun v hv => hws v (List.cons_subset_cons _ (List.takeWhile_prefix _).subset hv)

/-- What no flag takes back: the paths, and writing in place. -/
def Options.Keeps (o o' : Options) : Prop := o'.paths = o.paths ∧ (o.write = true → o'.write = true)

theorem Options.Keeps.trans {o o' o'' : Options} (h : o.Keeps o') (h' : o'.Keeps o'') : o.Keeps o'' :=
  ⟨h'.1.trans h.1, h'.2 ∘ h.2⟩

theorem turnOn_keeps {o o' : Options} {f : Flag} (h : o.turnOn f = .ok o') : o.Keeps o' := by
  cases f <;> cases h <;> first | exact ⟨rfl, id⟩ | exact ⟨rfl, fun _ => rfl⟩

theorem turnOnAll_keeps : ∀ {fs : List Flag} {o o' : Options}, turnOnAll o fs = .ok o' → o.Keeps o'
  | [], _, _, h => by
    cases h
    exact ⟨rfl, id⟩
  | f :: fs, o, o', h => by
    rw [turnOnAll] at h
    cases hf : o.turnOn f with
    | error e => rw [hf] at h; cases h
    | ok o₁ =>
      rw [hf] at h
      exact (turnOn_keeps hf).trans (turnOnAll_keeps h)

theorem give_keeps {o o' : Options} {f : Flag} {value : Text} (h : o.give f value = .ok o') : o.Keeps o' := by
  unfold Options.give at h
  split at h
  · cases h; exact ⟨rfl, id⟩
  · cases h; exact ⟨rfl, id⟩
  · split at h
    · cases h; exact ⟨rfl, id⟩
    · cases h
  · split at h
    · cases h; exact ⟨rfl, id⟩
    · cases h
  · split at h
    · cases h; exact ⟨rfl, id⟩
    · split at h
      · cases h; exact ⟨rfl, id⟩
      · cases h
  · cases h; exact ⟨rfl, id⟩

theorem Sets.keeps {o o' : Options} (h : Sets o o') : o.Keeps o' := by
  rcases h with ⟨on, hon⟩ | ⟨on, last, value, hgive⟩
  · exact turnOnAll_keeps hon
  · cases hon : turnOnAll o on with
    | error e => rw [hon] at hgive; cases hgive
    | ok o₁ =>
      rw [hon] at hgive
      exact (turnOnAll_keeps hon).trans (give_keeps hgive)

theorem readWords_write {fuel : Nat} {r r' : Reading} {ws : List Word} (hw : r.options.write = true)
    (h : readWords fuel r ws = .ok r') : r'.options.write = true :=
  @readWords_induct (fun r => r.options.write = true) (fun _ => True) (fun _ _ hw => hw)
    (fun _ _ hw hsets => hsets.keeps.2 hw) (fun _ _ hw _ _ => hw) _ _ _ _ (fun _ _ => trivial) hw h

/-- **A command line that begins with the flag for writing in place, and is not refused, writes in place.** -/
theorem parse_write {args : List Text} {o : Options} (h : parse (txt "-w" :: args) = .ok o) : o.write = true := by
  obtain ⟨ws, r, hall, hr, -, rfl⟩ := parse_eq_ok_iff.1 h
  obtain ⟨w, ws', hword, -, rfl⟩ := all_cons_inv (by decide) hall
  rw [ofText_write] at hword
  cases hword
  rw [readWords_flag rfl] at hr
  exact readWords_write rfl hr

theorem readWords_grouped {fuel : Nat} {r r' : Reading} {ws : List Word} (hg : r.grouped = true)
    (h : readWords fuel r ws = .ok r') : r'.grouped = true :=
  @readWords_induct (fun r => r.grouped = true) (fun _ => True) (fun _ _ hg => hg) (fun _ _ hg _ => hg)
    (fun _ _ _ _ _ => rfl) _ _ _ _ (fun _ _ => trivial) hg h

/-- Where there is no double dash, a group of words is a path or more. -/
theorem readWords_paths_ne {fuel : Nat} {r' : Reading} {ws : List Word} (hws : ∀ w ∈ ws, w.text ≠ ['-', '-'])
    (h : readWords fuel {} ws = .ok r') : r'.grouped = true → r'.options.paths ≠ [] := by
  have hstart : ({} : Reading).grouped = true → ({} : Reading).options.paths ≠ [] := fun hg => absurd hg (by decide)
  refine @readWords_induct (fun r => r.grouped = true → r.options.paths ≠ []) (fun w => w.text ≠ ['-', '-'])
    (fun _ _ hr => hr) (fun r o hr hsets hg => ?_) (fun r group hr hne hdash _ => ?_) _ _ _ _ hws hstart h
  · rw [hsets.keeps.1]
    exact hr hg
  · have hmem : ['-', '-'] ∉ group.map Word.text := fun hm => by
      obtain ⟨w, hw, htext⟩ := List.mem_map.1 hm
      exact hdash w hw htext
    rw [pathsOf, List.erase_of_not_mem hmem]
    exact fun hnil => hne (List.map_eq_nil_iff.1 hnil)

/-! ## Behind a target -/

/-- The options with standard input as the source and a target, unless they name one themselves. -/
def Options.over (o : Options) (stdin : Bool) (out : Option Text) : Options :=
  { o with stdin := o.stdin || stdin, out := o.out.or out }

def Reading.over (r : Reading) (stdin : Bool) (out : Option Text) : Reading :=
  { r with options := r.options.over stdin out }

section

variable (stdin : Bool) (out : Option Text)

theorem turnOn_over (o : Options) (f : Flag) : (o.over stdin out).turnOn f = (o.turnOn f).map (·.over stdin out) := by
  cases f <;> rfl

theorem turnOnAll_over : ∀ (fs : List Flag) (o : Options),
    turnOnAll (o.over stdin out) fs = (turnOnAll o fs).map (·.over stdin out)
  | [], _ => rfl
  | f :: fs, o => by
    rw [turnOnAll, turnOnAll, turnOn_over]
    cases o.turnOn f with
    | error e => rfl
    | ok o₁ => exact turnOnAll_over fs o₁

theorem give_over (o : Options) (f : Flag) (value : Text) :
    (o.over stdin out).give f value = (o.give f value).map (·.over stdin out) := by
  cases f with
  | indent =>
    unfold Options.give
    cases integer? value <;> rfl
  | eol =>
    unfold Options.give
    simp only
    split <;> rfl
  | logLevel =>
    unfold Options.give
    simp only
    split
    · rfl
    · split <;> rfl
  | _ => rfl

theorem bind_give_over (o : Options) (on : List Flag) (f : Flag) (value : Text) :
    (turnOnAll (o.over stdin out) on).bind (·.give f value)
      = ((turnOnAll o on).bind (·.give f value)).map (·.over stdin out) := by
  rw [turnOnAll_over]
  cases turnOnAll o on with
  | error e => rfl
  | ok o₁ => exact give_over stdin out o₁ f value

/-- **Words without a path mean the same behind a target, and paths may follow them.** -/
theorem readWords_over (paths : List Text) {fuel : Nat} {r r' : Reading} {ws : List Word} (hfuel : ws.length < fuel)
    (h : readWords fuel r ws = .ok r') (hg : r'.grouped = false) {n : Nat} (hn : ws.length < n) :
    readWords n (r.over stdin out) (ws ++ paths.map .plain) = .ok ((r'.over stdin out).group paths) := by
  obtain ⟨n, rfl⟩ : ∃ m, n = m + 1 := ⟨n - 1, by omega⟩
  fun_induction readWords fuel r ws generalizing r' n with
  | case1 => cases hfuel
  | case2 =>
    cases h
    exact @readWords_paths (Reading.over _ stdin out) hg n paths
  | case3 _ _ _ _ _ rest ih =>
    simp only [List.length_cons] at hfuel hn
    obtain ⟨n, rfl⟩ : ∃ m, n = m + 1 := ⟨n - 1, by omega⟩
    rw [List.cons_append, readWords]
    exact ih (by omega) h hg n (by omega)
  | case4 | case5 | case7 | case9 | case10 => cases h
  | case6 _ r _ _ _ _ rest on last value o hgive hread ih =>
    simp only [List.length_cons] at hfuel hn
    obtain ⟨n, rfl⟩ : ∃ m, n = m + 1 := ⟨n - 1, by omega⟩
    have hgive' := (bind_give_over stdin out r.options on last value).trans (congrArg _ hgive)
    rw [List.cons_append]
    unfold readWords
    simp only [hread, Reading.over, hgive', Except.map]
    exact ih (by omega) h hg n (by omega)
  | case8 _ r _ _ _ _ on last value more htakes o hgive hread ih =>
    simp only [List.length_cons] at hfuel hn
    obtain ⟨n, rfl⟩ : ∃ m, n = m + 1 := ⟨n - 1, by omega⟩
    have hgive' := (bind_give_over stdin out r.options on last value).trans (congrArg _ hgive)
    rw [List.cons_append, List.cons_append]
    unfold readWords
    simp only [hread, htakes, Reading.over, hgive', Except.map]
    exact ih (by omega) h hg n (by omega)
  | case11 _ r _ _ _ _ rest on last htakes o hon hread ih =>
    simp only [List.length_cons] at hfuel hn
    obtain ⟨n, rfl⟩ : ∃ m, n = m + 1 := ⟨n - 1, by omega⟩
    have hon' := (turnOnAll_over stdin out (on ++ [last]) r.options).trans (congrArg _ hon)
    rw [List.cons_append]
    unfold readWords
    simp only [hread, htakes, Reading.over, hon', Except.map]
    exact ih (by omega) h hg n (by omega)
  | case12 =>
    rename_i hgrouped _
    -- A group of words leaves a reading that has one, and there is none at the end.
    have hlast : r'.grouped = true := by
      refine readWords_grouped ?_ h
      exact hgrouped
    rw [hg] at hlast
    cases hlast
  | case13 =>
    have hlast : r'.grouped = true := readWords_grouped rfl h
    rw [hg] at hlast
    cases hlast

end

/-- What is read of options without a path. -/
theorem exists_reading {opts : List Text} {o : Options} (h : parse opts = .ok o) (hdash : ['-', '-'] ∉ opts)
    (hnone : o.paths = []) {paths : List Text} (hpaths : ∀ t ∈ paths, isPath t = true) :
    ∃ (ws : List Word) (r : Reading), Word.all (opts ++ paths) = .ok (ws ++ paths.map .plain) ∧
      r.leftOver = [] ∧ r.options = o ∧ ∀ stdin out n, ws.length < n →
        readWords n (({} : Reading).over stdin out) (ws ++ paths.map .plain) = .ok ((r.over stdin out).group paths) := by
  obtain ⟨ws, r, hall, hr, hleft, rfl⟩ := parse_eq_ok_iff.1 h
  obtain ⟨happend, htexts⟩ := all_append hpaths hdash hall
  have hg : r.grouped = false := by
    cases hg : r.grouped with
    | false => rfl
    | true => exact absurd hnone (readWords_paths_ne htexts hr hg)
  refine ⟨ws, r, happend, hleft, rfl, fun stdin out n hn => ?_⟩
  exact readWords_over stdin out paths (Nat.lt_succ_self _) hr hg hn

theorem all_out {out : Text} (hout : isPath out = true) {args : List Text} {ws : List Word} (h : Word.all args = .ok ws) :
    Word.all (txt "-o" :: out :: args) = .ok (.flag (txt "-o") (some .out) (txt "-o") none :: .plain out :: ws) := by
  obtain ⟨hdash, hplain⟩ := isPath_iff.1 hout
  exact all_cons (by decide) rfl (all_cons hdash hplain h)

theorem readWords_out {out : Text} (hout : isPath out = true) (fuel : Nat) (r : Reading) (rest : List Word) :
    readWords (fuel + 1) r (.flag (txt "-o") (some .out) (txt "-o") none :: .plain out :: rest)
      = readWords fuel { r with options := { r.options with out := some out } } rest := by
  conv => lhs; unfold readWords
  have hgive : (turnOnAll r.options []).bind (·.give .out out) = .ok { r.options with out := some out } := by
    simp [turnOnAll, Except.bind, Options.give, (isPath_iff.1 hout).1]
  simp only [Flag.takesValue, hgive]

section

variable {opts : List Text} {o : Options} (h : parse opts = .ok o) (hdash : ['-', '-'] ∉ opts) (hnone : o.paths = [])
  {out : Text} (hout : isPath out = true)

include h hdash hnone hout

theorem parse_out {paths : List Text} (hpaths : ∀ t ∈ paths, isPath t = true) :
    parse (txt "-o" :: out :: (opts ++ paths)) = .ok { o.over false (some out) with paths := paths } := by
  obtain ⟨ws, r, hall, hleft, rfl, hread⟩ := exists_reading h hdash hnone hpaths
  refine parse_eq_ok_iff.2 ⟨_, (r.over false (some out)).group paths, all_out hout hall, ?_, ?_, ?_⟩
  · rw [List.length_cons, readWords_out hout]
    exact hread false (some out) _ (by simp only [List.length_cons, List.length_append]; omega)
  · rw [Reading.leftOver_group]
    exact hleft
  · exact @Reading.options_group (r.over false (some out)) hnone paths hpaths

theorem parse_stdin_out : parse (txt "--stdin" :: txt "-o" :: out :: opts) = .ok (o.over true (some out)) := by
  obtain ⟨ws, r, hall, hleft, rfl, hread⟩ := @exists_reading _ _ h hdash hnone [] (by simp)
  simp only [List.map_nil, List.append_nil] at hall hread
  refine parse_eq_ok_iff.2 ⟨_, r.over true (some out), all_cons (by decide) rfl (all_out hout hall), ?_, hleft, rfl⟩
  rw [List.length_cons, readWords_flag rfl]
  simp only [Options.turnOn]
  rw [readWords_out hout]
  exact hread true (some out) _ (by simp only [List.length_cons]; omega)

end

end EpFormat.CommandLine
