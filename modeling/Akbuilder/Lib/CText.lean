import Mathlib

/-!
# Text and numbers of C

The text of a C string is the list of its characters before the final NUL. Strings are split at
spaces, and read as numbers by `strtoul`, which takes the longest number at the front, of any sign,
and saturates. An integer constant is stricter: its digits are the whole string.

## Main definitions

* `tokens`: the strings between spaces
* `strtoul`: the C function, for a 64-bit `unsigned long`
* `cInteger`: an unsigned integer constant, without suffix

## Main results

* `sum_length_tokens_le`: tokens are not longer than the string they come from
* `strtoul_of_cInteger`: `strtoul` reads an integer constant, and stops behind it
* `strtoul_hexPair`: `strtoul` reads two hexadecimal digits
-/

namespace CText

/-- The characters of a C string. -/
abbrev Text := List Char

/-! ## Tokens -/

/-- The tokens of a string whose first token starts with `cur`. -/
def tokensFrom (cur : Text) : Text → List Text
  | [] => if cur = [] then [] else [cur]
  | c :: cs =>
    if c = ' ' then
      if cur = [] then tokensFrom [] cs else cur :: tokensFrom [] cs
    else tokensFrom (cur ++ [c]) cs

/-- The strings between spaces. -/
def tokens (s : Text) : List Text := tokensFrom [] s

theorem sum_length_tokensFrom_le (cur s : Text) :
    ((tokensFrom cur s).map List.length).sum ≤ cur.length + s.length := by
  induction s generalizing cur with
  | nil =>
    rw [tokensFrom]
    split <;> simp
  | cons c cs ih =>
    rw [tokensFrom, List.length_cons]
    split
    · split
      · have := ih []
        rw [List.length_nil] at this
        omega
      · have := ih []
        rw [List.length_nil] at this
        rw [List.map_cons, List.sum_cons]
        omega
    · have := ih (cur ++ [c])
      rw [List.length_append, List.length_singleton] at this
      omega

/-- **Tokens are not longer than their string.** -/
theorem sum_length_tokens_le (s : Text) : ((tokens s).map List.length).sum ≤ s.length := by
  simpa [tokens] using sum_length_tokensFrom_le [] s

/-! ## Digits -/

/-- The value of a digit in a base up to 36, and 36 for any other character. -/
def digitValue (c : Char) : ℕ :=
  if c.isDigit then c.toNat - 48
  else if c.isLower then c.toNat - 87
  else if c.isUpper then c.toNat - 55
  else 36

theorem isDigit_iff {c : Char} : c.isDigit = true ↔ 48 ≤ c.toNat ∧ c.toNat ≤ 57 := by
  simp [Char.isDigit, UInt32.le_iff_toNat_le]

theorem digitValue_eq (c : Char) :
    digitValue c = if 48 ≤ c.toNat ∧ c.toNat ≤ 57 then c.toNat - 48
      else if 97 ≤ c.toNat ∧ c.toNat ≤ 122 then c.toNat - 87
      else if 65 ≤ c.toNat ∧ c.toNat ≤ 90 then c.toNat - 55
      else 36 := by
  simp [digitValue, Char.isDigit, Char.isLower, Char.isUpper, UInt32.le_iff_toNat_le]

theorem digitValue_lt_ten {c : Char} : digitValue c < 10 ↔ c.isDigit = true := by
  rw [digitValue_eq, isDigit_iff]
  split_ifs <;> omega

/-- The digits at the front of a string, after digits of the value `v`: their value, and what
follows them. -/
def digits (base : ℕ) : ℕ → Text → ℕ × Text
  | v, [] => (v, [])
  | v, c :: cs =>
    if digitValue c < base then digits base (v * base + digitValue c) cs else (v, c :: cs)

/-- No digit of the base is at the front. -/
def Stops (base : ℕ) (s : Text) : Prop := ∀ c ∈ s.head?, base ≤ digitValue c

instance (base : ℕ) : ∀ s : Text, Decidable (Stops base s)
  | [] => isTrue (by simp [Stops])
  | c :: _ => decidable_of_iff (base ≤ digitValue c) (by simp [Stops])

theorem digits_of_stops {base : ℕ} {s : Text} (h : Stops base s) (v : ℕ) :
    digits base v s = (v, s) := by
  cases s with
  | nil => rfl
  | cons c cs => rw [digits, if_neg (by have := h c rfl; omega)]

/-- Digits that are a whole string end where the digits do. -/
theorem digits_append {base v w : ℕ} {s rest : Text} (h : digits base v s = (w, []))
    (hrest : Stops base rest) : digits base v (s ++ rest) = (w, rest) := by
  induction s generalizing v with
  | nil =>
    obtain ⟨rfl, -⟩ := Prod.mk.inj h
    exact digits_of_stops hrest v
  | cons c cs ih =>
    rw [digits] at h
    split at h
    · next hc =>
      rw [List.cons_append, digits, if_pos hc]
      exact ih h
    · simp at h

/-! ## Numbers -/

/-- `isspace`. -/
def isSpace (c : Char) : Bool := c = ' ' || (9 ≤ c.toNat && c.toNat ≤ 13)

/-- What follows `0x`, when it is a hexadecimal digit. -/
def hexPrefix : Text → Option Text
  | z :: x :: d :: cs =>
    if z = '0' ∧ (x = 'x' ∨ x = 'X') ∧ digitValue d < 16 then some (d :: cs) else none
  | _ => none

/-- The base that the prefix of a number says, and the number without it. -/
def radix (base : ℕ) (s : Text) : ℕ × Text :=
  match if base = 0 ∨ base = 16 then hexPrefix s else none with
  | some t => (16, t)
  | none => (if base = 0 then if s.head? = some '0' then 8 else 10 else base, s)

/-- A string without the sign at its front. -/
def unsigned (s : Text) : Text := if s.head? = some '-' ∨ s.head? = some '+' then s.tail else s

/-- `strtoul`: the value of the number at the front, and what `endptr` points to. -/
def strtoul (base : ℕ) (s : Text) : UInt64 × Text :=
  let t := s.dropWhile isSpace
  let number := radix base (unsigned t)
  if Stops number.1 number.2 then (0, s)
  else
    let read := digits number.1 0 number.2
    let value := UInt64.ofNat read.1
    (if read.1 < UInt64.size then if t.head? = some '-' then -value else value else -1, read.2)

/-- The value of an unsigned integer constant. -/
def cInteger (s : Text) : Option ℕ :=
  let number := radix 0 s
  let read := digits number.1 0 number.2
  if number.2 ≠ [] ∧ read.2 = [] then some read.1 else none

/-- A character that is a digit in some base is neither a space nor a sign. -/
theorem plain_of_digitValue_lt {c : Char} (h : digitValue c < 36) :
    isSpace c = false ∧ c ≠ '-' ∧ c ≠ '+' := by
  refine ⟨?_, ?_, ?_⟩
  · by_contra hs
    -- spaces are below the digits
    have hle : c.toNat ≤ 32 := by
      simp only [isSpace, Bool.not_eq_false, Bool.or_eq_true, Bool.and_eq_true,
        decide_eq_true_eq] at hs
      rcases hs with rfl | hs
      · decide
      · omega
    rw [digitValue_eq] at h
    split_ifs at h <;> omega
  · rintro rfl
    exact absurd h (by decide)
  · rintro rfl
    exact absurd h (by decide)

/-- `strtoul` at a digit. -/
theorem strtoul_cons {c : Char} (hc : digitValue c < 36) (base : ℕ) (cs : Text) :
    strtoul base (c :: cs) =
      if Stops (radix base (c :: cs)).1 (radix base (c :: cs)).2 then (0, c :: cs)
      else
        let read := digits (radix base (c :: cs)).1 0 (radix base (c :: cs)).2
        (if read.1 < UInt64.size then UInt64.ofNat read.1 else -1, read.2) := by
  obtain ⟨hspace, hminus, hplus⟩ := plain_of_digitValue_lt hc
  simp [strtoul, unsigned, hspace, hminus, hplus]

theorem hexPrefix_append {s t : Text} (h : hexPrefix s = some t) (rest : Text) :
    hexPrefix (s ++ rest) = some (t ++ rest) := by
  rcases s with _ | ⟨z, _ | ⟨x, _ | ⟨d, cs⟩⟩⟩
  · simp [hexPrefix] at h
  · simp [hexPrefix] at h
  · simp [hexPrefix] at h
  · rw [hexPrefix] at h
    split at h
    · next hd =>
      obtain rfl := Option.some.inj h
      simp [hexPrefix, hd]
    · simp at h

section Constants

variable {s rest : Text} {n : ℕ}

theorem cInteger_eq_some : cInteger s = some n ↔
    (radix 0 s).2 ≠ [] ∧ digits (radix 0 s).1 0 (radix 0 s).2 = (n, []) := by
  simp only [cInteger, Option.ite_none_right_eq_some, Option.some.injEq]
  constructor
  · rintro ⟨⟨hne, hend⟩, rfl⟩
    exact ⟨hne, Prod.ext rfl hend⟩
  · rintro ⟨hne, hread⟩
    rw [hread]
    exact ⟨⟨hne, rfl⟩, rfl⟩

/-- Digits that are read to the end of a string start it. -/
theorem not_stops_of_digits {base v w : ℕ} {t : Text} (hne : t ≠ [])
    (h : digits base v t = (w, [])) : ¬ Stops base t := by
  intro hs
  rw [digits_of_stops hs] at h
  exact hne (Prod.mk.inj h).2

/-- An integer constant starts with a decimal digit. -/
theorem cInteger_head (h : cInteger s = some n) :
    ∃ c cs, s = c :: cs ∧ c.isDigit = true := by
  obtain ⟨hne, hread⟩ := cInteger_eq_some.mp h
  have hstops := not_stops_of_digits hne hread
  rcases s with _ | ⟨c, cs⟩
  · exact absurd rfl hne
  refine ⟨c, cs, rfl, ?_⟩
  cases hp : hexPrefix (c :: cs) with
  | some t =>
    -- the zero of `0x`
    rcases cs with _ | ⟨x, _ | ⟨d, cs⟩⟩
    · simp [hexPrefix] at hp
    · simp [hexPrefix] at hp
    · simp only [hexPrefix, Option.ite_none_right_eq_some] at hp
      rw [hp.1.1]
      rfl
  | none =>
    -- no prefix, so the base is 8 or 10 and the first character is a digit of it
    rw [← digitValue_lt_ten]
    by_contra hc
    apply hstops
    intro d hd
    simp only [radix, hp, ite_self, List.head?_cons, Option.mem_def, Option.some.injEq] at hd ⊢
    subst hd
    split_ifs <;> omega

/-- What follows an integer constant does not change its prefix. -/
theorem radix_append (h : cInteger s = some n) (hrest : Stops 36 rest) :
    radix 0 (s ++ rest) = ((radix 0 s).1, (radix 0 s).2 ++ rest) := by
  have h₀ : s ≠ [] := by
    rintro rfl
    simp [cInteger, radix, hexPrefix] at h
  cases hp : hexPrefix s with
  | some t => simp [radix, hp, hexPrefix_append hp]
  | none =>
    have hp' : hexPrefix (s ++ rest) = none := by
      rcases s with _ | ⟨c, _ | ⟨x, _ | ⟨d, cs⟩⟩⟩
      · exact absurd rfl h₀
      · -- a single zero, and no x behind it
        rcases rest with _ | ⟨x, _ | ⟨d, rest⟩⟩
        · rfl
        · rfl
        · have hx : ¬ (x = 'x' ∨ x = 'X') := by
            rintro (rfl | rfl) <;> exact absurd (hrest _ rfl) (by decide)
          simp [hexPrefix, hx]
      · rcases rest with _ | ⟨d, rest⟩
        · rfl
        · simp only [List.cons_append, List.nil_append, hexPrefix, ite_eq_right_iff, reduceCtorEq,
            imp_false]
          -- `0x` alone is the constant 0, and an x after it
          rintro ⟨rfl, rfl | rfl, -⟩
          · simp [show cInteger ['0', 'x'] = none from rfl] at h
          · simp [show cInteger ['0', 'X'] = none from rfl] at h
      · simpa [hexPrefix] using hp
    simp [radix, hp, hp', List.head?_append_of_ne_nil _ h₀]

/-- **`strtoul` reads an integer constant**, and stops behind it. -/
theorem strtoul_of_cInteger (h : cInteger s = some n) (hn : n < UInt64.size)
    (hrest : Stops 36 rest) : strtoul 0 (s ++ rest) = (UInt64.ofNat n, rest) := by
  obtain ⟨c, cs, rfl, hc⟩ := cInteger_head h
  obtain ⟨hne, hread⟩ := cInteger_eq_some.mp h
  have hradix := radix_append h hrest
  have hbase : (radix 0 (c :: cs)).1 ≤ 36 := by
    unfold radix
    split
    · simp
    · simp only [if_true]
      split_ifs <;> simp
  have hstops : Stops (radix 0 (c :: cs)).1 rest := fun d hd => Nat.le_trans hbase (hrest d hd)
  have hdigits := digits_append hread hstops
  have hhead : digitValue c < 36 := by
    have := digitValue_lt_ten.mpr hc
    omega
  rw [List.cons_append, strtoul_cons hhead, ← List.cons_append, hradix]
  dsimp only
  rw [hdigits, if_neg, if_pos hn]
  intro hs
  apply not_stops_of_digits hne hread
  intro d hd
  refine hs d ?_
  rcases hr : (radix 0 (c :: cs)).2 with _ | ⟨e, es⟩
  · exact absurd hr hne
  · rw [hr] at hd
    exact hd

end Constants

/-- **`strtoul` reads two hexadecimal digits.** -/
theorem strtoul_hexPair {a b : Char} (ha : digitValue a < 16) (hb : digitValue b < 16) :
    strtoul 16 [a, b] = (UInt64.ofNat (16 * digitValue a + digitValue b), []) := by
  have hradix : radix 16 [a, b] = (16, [a, b]) := rfl
  have hstops : ¬ Stops 16 [a, b] := fun h => absurd (h a rfl) (by omega)
  have hread : digits 16 0 [a, b] = (16 * digitValue a + digitValue b, []) := by
    simp [digits, ha, hb, Nat.mul_comm]
  have hlt : 16 * digitValue a + digitValue b < UInt64.size := by
    unfold UInt64.size
    omega
  rw [strtoul_cons (by omega), hradix]
  dsimp only
  rw [if_neg hstops, hread, if_pos hlt]

end CText
