import Akbuilder.Lib.CText

/-!
# Texts that are printed with `echo -e`

`echo -e` of the shell `bash` replaces escapes, which begin with a backslash; the numbers in them
are those of characters, as in a UTF-8 locale. Texts that are joined with `\n` and printed in this
way come out on lines of their own, unless one of them has an escape, or ends in a backslash before
another text. An escape cannot be made up for: what is printed is shorter than the texts from there
on.

## Main definitions

* `echo`: what `echo -e` prints
* `Symbol`: the characters of texts, and what they are joined with
* `join`: texts, joined with `\n`
* `InertTexts`: texts without an escape

## Main results

* `echo_join`: texts without an escape come out on lines of their own
* `inertTexts_of_keep`: only these do, even if line breaks do not count
* `notBehind`: texts are not printed with anything in front of them
-/

open CText

namespace Echo

/-! ## The program -/

/-- Where the loop over the characters is. -/
inductive State
  | plain
  /-- behind a backslash -/
  | escape
  /-- in a number, with the digits that may follow -/
  | number (base left value : ℕ)
  /-- behind the letter of a hexadecimal number -/
  | hexStart (letter : Char)

/-- The escapes of one letter. -/
def letter : Char → Option Char
  | 'a' => some '\x07'
  | 'b' => some '\x08'
  | 'e' | 'E' => some '\x1b'
  | 'f' => some '\x0c'
  | 'n' => some '\n'
  | 'r' => some '\r'
  | 't' => some '\t'
  | 'v' => some '\x0b'
  | '\\' => some '\\'
  | _ => none

/-- The letters of hexadecimal numbers. -/
def isHexLetter (c : Char) : Bool := c = 'x' || c = 'u' || c = 'U'

/-- The digits of a hexadecimal number. -/
def width (c : Char) : ℕ := if c = 'x' then 2 else if c = 'u' then 4 else 8

/-- The character of a number; an octal one is a byte. -/
def charOf (base value : ℕ) : Char := Char.ofNat (if base = 8 then value % 256 else value)

/-- What is printed from a state on, with the line break at the end. -/
def run : State → Text → Text
  | .plain, [] => ['\n']
  | .plain, c :: cs => if c = '\\' then run .escape cs else c :: run .plain cs
  | .escape, [] => ['\\', '\n']
  | .escape, c :: cs =>
    match letter c with
    | some d => d :: run .plain cs
    | none =>
      -- nothing more is printed
      if c = 'c' then []
      else if c = '0' then run (.number 8 3 0) cs
      else if isHexLetter c then run (.hexStart c) cs
      else '\\' :: c :: run .plain cs
  | .number base _ value, [] => [charOf base value, '\n']
  | .number base left value, c :: cs =>
    if 0 < left ∧ digitValue c < base then
      run (.number base (left - 1) (value * base + digitValue c)) cs
    else charOf base value :: if c = '\\' then run .escape cs else c :: run .plain cs
  | .hexStart l, [] => ['\\', l, '\n']
  | .hexStart l, c :: cs =>
    if digitValue c < 16 then run (.number 16 (width l - 1) (digitValue c)) cs
    else '\\' :: l :: if c = '\\' then run .escape cs else c :: run .plain cs

/-- **What `echo -e` prints** for a text that it does not take for an option. -/
def echo (w : Text) : Text := run .plain w

/-- An escape begins behind a backslash with this text. -/
def startsEscape : Text → Bool
  | [] => false
  | c :: cs =>
    (letter c).isSome || c = 'c' || c = '0' || isHexLetter c && !decide (Stops 16 cs)

/-- **No escape is in a text** that is followed by another one. -/
def Inert (next : Text) : Text → Prop
  | [] => True
  | c :: cs => (c = '\\' → startsEscape (cs ++ next) = false) ∧ Inert next cs

/-! ## Texts that are joined -/

/-- A character of a text, or the `\n` between texts. -/
abbrev Symbol := Option Char

/-- The symbols as they are joined. -/
def spell : List Symbol → Text
  | [] => []
  | some c :: m => c :: spell m
  | none :: m => '\\' :: 'n' :: spell m

/-- The texts on lines of their own. -/
def meant : List Symbol → Text
  | [] => []
  | some c :: m => c :: meant m
  | none :: m => '\n' :: meant m

/-- No escape is in the texts, but for what joins them. -/
def InertSymbols : List Symbol → Prop
  | [] => True
  | none :: m => InertSymbols m
  | some c :: m => (c = '\\' → startsEscape (spell m) = false) ∧ InertSymbols m

/-- The characters that are no line breaks. -/
def keep (w : Text) : Text := w.filter fun c => c ≠ '\n'

@[simp] theorem keep_nil : keep [] = [] := rfl

@[simp] theorem keep_newline (w : Text) : keep ('\n' :: w) = keep w := rfl

theorem keep_cons {c : Char} (hc : c ≠ '\n') (w : Text) : keep (c :: w) = c :: keep w := by
  simp [keep, hc]

@[simp] theorem keep_append (w w' : Text) : keep (w ++ w') = keep w ++ keep w' := by
  simp [keep]

section Steps

variable {w : Text} {base left value : ℕ} {l : Char}

/-- A number ends where no digit follows, or enough of them were read. -/
theorem run_number (h : left = 0 ∨ Stops base w) :
    run (.number base left value) w = charOf base value :: run .plain w := by
  cases w with
  | nil => rfl
  | cons c cs =>
    simp only [run]
    rw [if_neg]
    rintro ⟨hleft, hc⟩
    rcases h with hzero | hstops
    · omega
    · exact Nat.not_lt.mpr (hstops c rfl) hc

/-- Without a digit there is no number. -/
theorem run_hexStart (h : Stops 16 w) :
    run (.hexStart l) w = '\\' :: l :: run .plain w := by
  cases w with
  | nil => rfl
  | cons c cs =>
    simp only [run]
    rw [if_neg (Nat.not_lt.mpr (h c rfl))]

theorem run_hexStart_of_digit (h : ¬ Stops 16 w) :
    run (.hexStart l) w = run (.number 16 (width l) 0) w := by
  cases w with
  | nil => exact absurd (by simp [Stops]) h
  | cons c cs =>
    have hdigit : digitValue c < 16 := by
      by_contra hc
      refine h fun d hd => ?_
      obtain rfl := Option.some.inj hd
      exact Nat.not_lt.mp hc
    -- a first digit may always be read
    have hwidth : 0 < width l := by
      unfold width
      split_ifs <;> decide
    simp only [run]
    rw [if_pos hdigit, if_pos ⟨hwidth, hdigit⟩, Nat.zero_mul, Nat.zero_add]

/-- A backslash that begins no escape is printed. -/
theorem run_escape_of_inert (h : startsEscape w = false) :
    run .escape w = '\\' :: run .plain w := by
  cases w with
  | nil => rfl
  | cons c cs =>
    simp only [startsEscape, Bool.or_eq_false_iff, decide_eq_false_iff_not, Bool.and_eq_false_iff,
      Option.isSome_eq_false_iff, Option.isNone_iff_eq_none, Bool.not_eq_false',
      decide_eq_true_eq] at h
    -- what is behind the backslash is no letter of an escape, and no backslash
    obtain ⟨⟨⟨hletter, hc⟩, hzero⟩, hhex⟩ := h
    have hne : c ≠ '\\' := by
      rintro rfl
      cases hletter
    simp only [run, hletter, if_neg hc, if_neg hzero, if_neg hne]
    split
    · next hl =>
      rw [run_hexStart (hhex.resolve_left (by simp [hl]))]
    · rfl

end Steps

/-- **Texts without an escape** are printed as they are. -/
theorem run_of_inertSymbols {m : List Symbol} (h : InertSymbols m) :
    run .plain (spell m) = meant m ++ ['\n'] := by
  induction m with
  | nil => rfl
  | cons s m ih =>
    cases s with
    | none =>
      rw [meant, List.cons_append, ← ih h]
      rfl
    | some c =>
      -- a backslash is printed with what is behind it, as the escape state has it
      obtain ⟨hc, hm⟩ := h
      rw [spell, meant, List.cons_append, ← ih hm, run]
      split
      · next hback =>
        rw [run_escape_of_inert (hc hback), hback]
      · rfl

/-! ## Texts with an escape -/

/-- **Nothing makes up for characters** that were not printed: texts are not printed with some in
front of them, in any state. -/
structure NotBehind (m : List Symbol) : Prop where
  plain : ∀ p, p ≠ [] → keep (run .plain (spell m)) ≠ p ++ keep (meant m)
  escape : ∀ p, p ≠ [] → keep (run .escape (spell m)) ≠ p ++ '\\' :: keep (meant m)
  number : ∀ base left value p, base ≤ 36 → 2 ≤ p.length →
    keep (run (.number base left value) (spell m)) ≠ p ++ keep (meant m)

section Behind

variable {m : List Symbol} {p u v : Text} {c x : Char}

/-- A character that is printed leaves another one to be printed. -/
theorem cancel (hp : p ≠ []) (h : x :: u = p ++ c :: v) : ∃ p', p' ≠ [] ∧ u = p' ++ v := by
  rcases p with _ | ⟨y, p⟩
  · exact absurd rfl hp
  · obtain ⟨-, hu⟩ := List.cons_eq_cons.mp h
    exact ⟨p ++ [c], by simp, by rw [hu]; simp⟩

theorem plain_cons_some (hm : NotBehind m) (hp : p ≠ []) :
    keep (run .plain (spell (some c :: m))) ≠ p ++ keep (meant (some c :: m)) := by
  simp only [spell, meant, run]
  by_cases hback : c = '\\'
  · rw [if_pos hback, hback]
    exact hm.escape p hp
  · rw [if_neg hback]
    by_cases hline : c = '\n'
    · rw [hline]
      exact hm.plain p hp
    · rw [keep_cons hline, keep_cons hline]
      intro h
      obtain ⟨p', hp', h'⟩ := cancel hp h
      exact hm.plain p' hp' h'

/-- In an escape, where the plain state is known. -/
theorem escape_of_plain (hm : ∀ p, p ≠ [] → keep (run .plain (spell m)) ≠ p ++ keep (meant m))
    (h : startsEscape (spell m) = false) (hp : p ≠ []) :
    keep (run .escape (spell m)) ≠ p ++ '\\' :: keep (meant m) := by
  rw [run_escape_of_inert h, keep_cons (by decide)]
  intro h
  obtain ⟨p', hp', h'⟩ := cancel hp h
  exact hm p' hp' h'

/-- In a number that ends, where the plain state is known. -/
theorem number_of_plain {base left value : ℕ}
    (hm : ∀ p, p ≠ [] → keep (run .plain (spell m)) ≠ p ++ keep (meant m))
    (h : left = 0 ∨ Stops base (spell m)) (hp : 2 ≤ p.length) :
    keep (run (.number base left value) (spell m)) ≠ p ++ keep (meant m) := by
  rw [run_number h]
  rcases p with _ | ⟨y, p⟩
  · simp at hp
  -- the number itself may be a line break, which does not count
  by_cases hline : charOf base value = '\n'
  · rw [hline, keep_newline]
    exact hm _ (List.cons_ne_nil _ _)
  · rw [keep_cons hline]
    intro h
    refine hm p ?_ (List.cons_eq_cons.mp h).2
    rintro rfl
    simp at hp

/-- The cases of an escape. -/
theorem startsEscape_cons (h : startsEscape (c :: u) = true) :
    (∃ d, letter c = some d) ∨ letter c = none ∧ (c = 'c' ∨ c = '0' ∨
      c ≠ 'c' ∧ c ≠ '0' ∧ isHexLetter c = true ∧ ¬ Stops 16 u) := by
  cases hletter : letter c with
  | some d => exact .inl ⟨d, rfl⟩
  | none =>
    simp only [startsEscape, hletter, Option.isSome_none, Bool.false_or, Bool.or_eq_true,
      decide_eq_true_eq, Bool.and_eq_true, Bool.not_eq_true', decide_eq_false_iff_not] at h
    by_cases hstop : c = 'c'
    · exact .inr ⟨rfl, .inl hstop⟩
    by_cases hzero : c = '0'
    · exact .inr ⟨rfl, .inr (.inl hzero)⟩
    obtain ⟨hhex, hdigit⟩ := h.resolve_left (not_or.mpr ⟨hstop, hzero⟩)
    exact .inr ⟨rfl, .inr (.inr ⟨hstop, hzero, hhex, hdigit⟩)⟩

theorem escape_cons_some (hm : NotBehind m) (hp : p ≠ [])
    (h : startsEscape (c :: spell m) = true) (hc : c ≠ '\n') :
    keep (run .escape (c :: spell m)) ≠ p ++ '\\' :: c :: keep (meant m) := by
  -- the backslash and the letter are put to what is in front
  have hlong : p ++ '\\' :: c :: keep (meant m) = (p ++ ['\\', c]) ++ keep (meant m) := by simp
  rcases startsEscape_cons h with
    ⟨d, hletter⟩ | ⟨hletter, rfl | rfl | ⟨hstop, hzero, hhex, hdigit⟩⟩
  · -- one character is printed for two
    simp only [run, hletter]
    by_cases hline : d = '\n'
    · rw [hline, keep_newline, hlong]
      exact hm.plain _ (by simp)
    · rw [keep_cons hline]
      intro h
      obtain ⟨p', -, h'⟩ := cancel hp h
      refine hm.plain (p' ++ [c]) (by simp) ?_
      rw [h']
      simp
  · simp [run, hletter]
  · rw [hlong]
    exact hm.number 8 3 0 _ (by omega) (by simp)
  · simp only [run, hletter, if_neg hstop, if_neg hzero, hhex, if_true]
    rw [run_hexStart_of_digit hdigit, hlong]
    exact hm.number 16 _ 0 _ (by omega) (by simp)

theorem NotBehind.cons_none (hm : NotBehind m) : NotBehind (none :: m) := by
  have hplain (p : Text) (hp : p ≠ []) :
      keep (run .plain (spell (none :: m))) ≠ p ++ keep (meant (none :: m)) := hm.plain p hp
  -- in the plain state, the joint is the escape that it is meant to be
  refine ⟨hplain, fun p hp h => ?_, fun base left value p hbase hlen => ?_⟩
  · -- the backslash in front of the `\n` is printed in its place, and then the `n`
    have h : '\\' :: 'n' :: keep (run .plain (spell m)) = p ++ '\\' :: keep (meant m) := h
    rcases p with _ | ⟨y, p⟩
    · exact absurd rfl hp
    obtain ⟨-, htail⟩ := List.cons_eq_cons.mp h
    by_cases hnil : p = []
    · rw [hnil] at htail
      exact absurd (List.cons_eq_cons.mp htail).1 (by decide)
    · obtain ⟨p', hp', h'⟩ := cancel hnil htail
      exact hm.plain p' hp' h'
  · refine number_of_plain hplain (.inr fun c hc => ?_) hlen
    obtain rfl := Option.some.inj hc
    exact hbase

theorem NotBehind.cons_some (hm : NotBehind m) : NotBehind (some c :: m) := by
  have hplain (p : Text) (hp : p ≠ []) := plain_cons_some (c := c) hm hp
  refine ⟨hplain, fun p hp => ?_, fun base left value p hbase hlen => ?_⟩
  · cases hescape : startsEscape (spell (some c :: m)) with
    | false => exact escape_of_plain hplain hescape hp
    | true =>
      have hline : c ≠ '\n' := by
        rintro rfl
        rcases startsEscape_cons hescape with ⟨d, hd⟩ | ⟨-, h | h | ⟨-, -, h, -⟩⟩
        · exact absurd hd (by simp [letter])
        · exact absurd h (by decide)
        · exact absurd h (by decide)
        · exact absurd h (by decide)
      rw [meant, keep_cons hline]
      exact escape_cons_some hm hp hescape hline
  · by_cases hends : left = 0 ∨ Stops base (spell (some c :: m))
    · exact number_of_plain hplain hends hlen
    · -- the digit is read, and not printed yet
      have hdigit : 0 < left ∧ digitValue c < base := by
        rw [not_or] at hends
        refine ⟨Nat.pos_of_ne_zero hends.1, ?_⟩
        by_contra hc
        refine hends.2 fun d hd => ?_
        obtain rfl := Option.some.inj hd
        exact Nat.not_lt.mp hc
      simp only [spell, meant, run]
      rw [if_pos hdigit]
      by_cases hline : c = '\n'
      · rw [hline]
        exact hm.number _ _ _ p hbase hlen
      · rw [keep_cons hline, show p ++ c :: keep (meant m) = (p ++ [c]) ++ keep (meant m) by simp]
        exact hm.number _ _ _ _ hbase (by simp; omega)

theorem notBehind (m : List Symbol) : NotBehind m := by
  induction m with
  | nil =>
    refine ⟨fun p hp h => ?_, fun p hp h => ?_, fun base left value p _ hlen => ?_⟩
    · exact hp (List.append_eq_nil_iff.mp h.symm).1
    · have h : [] ++ ['\\'] = p ++ ['\\'] := h
      exact hp (List.append_cancel_right h).symm
    · refine number_of_plain (fun p hp h => ?_) (.inr (by simp [Stops, spell])) hlen
      exact hp (List.append_eq_nil_iff.mp h.symm).1
  | cons s m ih =>
    cases s with
    | none => exact ih.cons_none
    | some c => exact ih.cons_some

/-- The `n` of a joint is not made up for either. -/
theorem not_ahead (m : List Symbol) :
    'n' :: keep (run .plain (spell m)) ≠ keep (meant m) := by
  induction m with
  | nil => exact List.cons_ne_nil _ _
  | cons s m ih =>
    cases s with
    | none => exact ih
    | some c =>
      simp only [spell, meant]
      by_cases hline : c = '\n'
      · rw [hline]
        exact ih
      · rw [keep_cons hline]
        intro h
        obtain ⟨rfl, h'⟩ := List.cons_eq_cons.mp h
        exact ih h'

/-- An escape at the front is not printed as it is. -/
theorem keep_escape_ne (h : startsEscape (spell m) = true) :
    keep (run .escape (spell m)) ≠ '\\' :: keep (meant m) := by
  rcases m with _ | ⟨_ | c, m⟩
  · cases h
  · -- the joint behind a backslash
    intro h
    exact not_ahead m (List.cons_eq_cons.mp h).2
  · have hm := notBehind m
    simp only [spell, meant] at h ⊢
    rcases startsEscape_cons h with ⟨d, hletter⟩ | ⟨hletter, hkind⟩
    · have hline : c ≠ '\n' := by
        rintro rfl
        exact absurd hletter (by simp [letter])
      simp only [run, hletter]
      rw [keep_cons hline]
      by_cases hd : d = '\n'
      · rw [hd, keep_newline]
        exact hm.plain ['\\', c] (by simp)
      · rw [keep_cons hd]
        intro h
        exact hm.plain [c] (by simp) (List.cons_eq_cons.mp h).2
    · rcases hkind with rfl | rfl | ⟨hstop, hzero, hhex, hdigit⟩
      · simp [run, hletter]
      · exact hm.number 8 3 0 ['\\', '0'] (by omega) (by simp)
      · have hline : c ≠ '\n' := by
          rintro rfl
          exact absurd hhex (by decide)
        simp only [run, hletter, if_neg hstop, if_neg hzero, hhex, if_true]
        rw [run_hexStart_of_digit hdigit, keep_cons hline]
        exact hm.number 16 _ 0 ['\\', c] (by omega) (by simp)

/-- **Only texts without an escape** are printed as they are, even if line breaks do not count. -/
theorem inertSymbols_of_keep (h : keep (run .plain (spell m)) = keep (meant m)) :
    InertSymbols m := by
  induction m with
  | nil => trivial
  | cons s m ih =>
    cases s with
    | none => exact ih h
    | some c =>
      simp only [spell, meant, run] at h
      -- only a backslash can begin an escape
      by_cases hback : c = '\\'
      · rw [if_pos hback, hback, keep_cons (by decide)] at h
        cases hescape : startsEscape (spell m) with
        | true => exact absurd h (keep_escape_ne hescape)
        | false =>
          rw [run_escape_of_inert hescape, keep_cons (by decide)] at h
          exact ⟨fun _ => hescape, ih (List.cons_eq_cons.mp h).2⟩
      · rw [if_neg hback] at h
        refine ⟨fun hc => absurd hc hback, ih ?_⟩
        by_cases hline : c = '\n'
        · rwa [hline] at h
        · rw [keep_cons hline, keep_cons hline] at h
          exact (List.cons_eq_cons.mp h).2

end Behind

/-! ## Lists of texts -/

/-- A text and more texts, joined with `\n`. -/
def join (first : Text) (rest : List Text) : Text := first ++ rest.flatMap fun t => '\\' :: 'n' :: t

/-- The texts, each with a line break behind it. -/
def ended (texts : List Text) : Text := texts.flatMap fun t => t ++ ['\n']

/-- **No text has an escape**, and only the last one may end in a backslash. -/
def InertTexts : Text → List Text → Prop
  | first, [] => Inert [] first
  | first, t :: rest => Inert ['\\', 'n'] first ∧ InertTexts t rest

section Texts

variable {first : Text} {rest : List Text}

/-- The symbols of the texts. -/
def symbols (first : Text) (rest : List Text) : List Symbol :=
  first.map some ++ rest.flatMap fun t => none :: t.map some

theorem symbols_cons (first t : Text) (rest : List Text) :
    symbols first (t :: rest) = first.map some ++ none :: symbols t rest := by
  simp [symbols]

theorem spell_append (first : Text) (m : List Symbol) :
    spell (first.map some ++ m) = first ++ spell m := by
  induction first with
  | nil => rfl
  | cons c cs ih => rw [List.map_cons, List.cons_append, spell, ih, List.cons_append]

theorem meant_append (first : Text) (m : List Symbol) :
    meant (first.map some ++ m) = first ++ meant m := by
  induction first with
  | nil => rfl
  | cons c cs ih => rw [List.map_cons, List.cons_append, meant, ih, List.cons_append]

theorem spell_symbols (first : Text) (rest : List Text) :
    spell (symbols first rest) = join first rest := by
  induction rest generalizing first with
  | nil => simpa [symbols, join, spell] using spell_append first []
  | cons t rest ih => rw [symbols_cons, spell_append, spell, ih, join, join, List.flatMap_cons]; rfl

theorem meant_symbols (first : Text) (rest : List Text) :
    meant (symbols first rest) ++ ['\n'] = ended (first :: rest) := by
  induction rest generalizing first with
  | nil => simpa [symbols, ended, meant] using meant_append first []
  | cons t rest ih =>
    rw [symbols_cons, meant_append, meant, List.append_assoc, List.cons_append, ih]
    simp [ended]

/-- Only the two characters behind a backslash say whether it begins an escape. -/
theorem startsEscape_joint (t w : Text) :
    startsEscape (t ++ '\\' :: 'n' :: w) = startsEscape (t ++ ['\\', 'n']) := by
  rcases t with _ | ⟨c, _ | ⟨d, t⟩⟩
  · rfl
  · simp [startsEscape, Stops]
  · simp [startsEscape, Stops]

theorem inertSymbols_append (first : Text) (m : List Symbol) :
    InertSymbols (first.map some ++ m) ↔ Inert (spell m) first ∧ InertSymbols m := by
  induction first with
  | nil => simp [Inert]
  | cons c cs ih =>
    rw [List.map_cons, List.cons_append, InertSymbols, ih, Inert, spell_append, and_assoc]

theorem inert_joint (t w : Text) : Inert ('\\' :: 'n' :: w) t ↔ Inert ['\\', 'n'] t := by
  induction t with
  | nil => rfl
  | cons c cs ih => rw [Inert, Inert, ih, startsEscape_joint]

theorem inertSymbols_symbols : InertSymbols (symbols first rest) ↔ InertTexts first rest := by
  induction rest generalizing first with
  | nil => simpa [symbols, InertSymbols, InertTexts, spell] using inertSymbols_append first []
  | cons t rest ih =>
    rw [symbols_cons, inertSymbols_append, spell, inert_joint, InertTexts, InertSymbols, ih]

/-- **Texts without an escape** come out on lines of their own. -/
theorem echo_join (h : InertTexts first rest) : echo (join first rest) = ended (first :: rest) := by
  rw [echo, ← spell_symbols, run_of_inertSymbols (inertSymbols_symbols.mpr h), meant_symbols]

theorem ended_cons (t : Text) (texts : List Text) :
    ended (t :: texts) = t ++ '\n' :: ended texts := by
  simp [ended]

theorem length_le_ended (texts : List Text) : texts.length ≤ (ended texts).length := by
  induction texts with
  | nil => exact Nat.le_refl _
  | cons t texts ih =>
    rw [ended_cons, List.length_append, List.length_cons, List.length_cons]
    omega

theorem keep_ended (texts : List Text) : keep (ended texts) = texts.flatMap keep := by
  induction texts with
  | nil => rfl
  | cons t texts ih =>
    rw [ended_cons, keep_append, keep_newline, ih, List.flatMap_cons]

/-- **Only these do**, even if line breaks do not count, and with nothing in front of them. -/
theorem inertTexts_of_keep {p : Text}
    (h : keep (echo (join first rest)) = p ++ (first :: rest).flatMap keep) :
    p = [] ∧ InertTexts first rest := by
  rw [echo, ← spell_symbols, ← keep_ended, ← meant_symbols, keep_append, keep_newline, keep_nil,
    List.append_nil] at h
  -- first that nothing is in front, then that no text has an escape
  have hp : p = [] := by
    by_contra hp
    exact (notBehind _).plain p hp h
  subst hp
  exact ⟨rfl, inertSymbols_symbols.mp (inertSymbols_of_keep h)⟩

end Texts

end Echo
