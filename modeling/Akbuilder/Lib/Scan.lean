import Akbuilder.Lib.CText

/-!
# Reading words and numbers from a text

The conversions of `sscanf` for a word and for a number, as the Linux kernel has them, and its
`kstrtoul`. They differ on what is not a number: `sscanf` reads the number at the front and keeps
its low bits, `kstrtoul` accepts a number in its range that is the whole text.

## Main definitions

* `firstWord`: the first word between white space
* `scanWord`, `scanInt`: `sscanf` with the formats `" %10s "` and `" %d "`
* `kstrtoul`: the function of the kernel, in base 10
* `decimal`: a number as text

## Main results

* `scanWord_eq`: `scanWord` stores the first word, cut to the width
* `scanInt_decimal`, `kstrtoul_decimal`: what they read from a number
-/

namespace CText

/-- The C string at the front of a buffer. -/
def cString (buf : Text) : Text := buf.takeWhile (· ≠ '\x00')

/-! ## Words -/

section Words

variable (space : Char → Bool)

/-- The first word between white space. -/
def firstWord (s : Text) : Text := (s.dropWhile space).takeWhile fun c => !space c

/-- The loop of `%s` with a width. -/
def copyWord : ℕ → Text → Text
  | 0, _ => []
  | _ + 1, [] => []
  | n + 1, c :: cs => if space c then [] else c :: copyWord n cs

/-- **`sscanf` with the format `" %10s "`**, for any width: the characters that it stores, without
the NUL behind them, and `none` if it stores nothing. -/
def scanWord (width : ℕ) (s : Text) : Option Text :=
  let t := s.dropWhile space
  if t = [] then none else some (copyWord space width t)

variable {space}

theorem copyWord_eq (n : ℕ) (s : Text) :
    copyWord space n s = (s.takeWhile fun c => !space c).take n := by
  induction n, s using copyWord.induct space with
  | case1 s => rw [copyWord, List.take_zero]
  | case2 n => rw [copyWord, List.takeWhile_nil, List.take_nil]
  | case3 n c cs hc => simp [copyWord, hc]
  | case4 n c cs hc ih => simp [copyWord, hc, ih]

/-- A text without a word is white space. -/
theorem firstWord_eq_nil {s : Text} : firstWord space s = [] ↔ s.dropWhile space = [] := by
  rw [firstWord]
  cases h : s.dropWhile space with
  | nil => simp
  | cons c cs =>
    -- the first character left is no space
    have hc : space c = false := by
      have := List.head?_dropWhile_not space s
      rw [h] at this
      simpa using this
    simp [hc]

/-- **`scanWord` stores the first word**, cut to the width. -/
theorem scanWord_eq (width : ℕ) (s : Text) :
    scanWord space width s =
      if firstWord space s = [] then none else some ((firstWord space s).take width) := by
  simp only [scanWord, firstWord_eq_nil, copyWord_eq]
  rfl

/-- A word is read back from in front of white space. -/
theorem firstWord_append {w rest : Text} (hw : ∀ c ∈ w, space c = false)
    (hrest : ∀ c ∈ rest, space c = true) : firstWord space (w ++ rest) = w := by
  cases w with
  | nil => simpa [firstWord_eq_nil] using hrest
  | cons c cs =>
    have hcs : ∀ d ∈ c :: cs, (!space d) = true := fun d hd => by simp [hw d hd]
    rw [firstWord, List.cons_append, List.dropWhile_cons_of_neg (by simp [hw c]),
      ← List.cons_append, List.takeWhile_append_of_pos hcs]
    cases rest with
    | nil => simp
    | cons d ds => simp [hrest d]

theorem firstWord_self {w : Text} (hw : ∀ c ∈ w, space c = false) : firstWord space w = w := by
  have hrest : ∀ c ∈ ([] : Text), space c = true := by simp
  simpa using firstWord_append hw hrest

end Words

/-! ## Numbers -/

/-- **`sscanf` with the format `" %d "`**: the number at the front, narrowed to `int`. -/
def scanInt (space : Char → Bool) (s : Text) : Option ℤ :=
  let t := s.dropWhile space
  let number := if t.head? = some '-' then t.tail else t
  if Stops 10 number then none
  else
    let value : ℤ := (digits 10 0 number).1
    some (Int.bmod (if t.head? = some '-' then -value else value) (2 ^ 32))

/-- **`kstrtoul` in base 10**, and `none` for an error. A final line break is accepted. -/
def kstrtoul (s : Text) : Option UInt64 :=
  let number := if s.head? = some '+' then s.tail else s
  let read := digits 10 0 number
  if Stops 10 number ∨ UInt64.size ≤ read.1 ∨ (read.2 ≠ [] ∧ read.2 ≠ ['\n']) then none
  else some (UInt64.ofNat read.1)

/-- A number as text. -/
def decimal (n : ℤ) : Text :=
  if n < 0 then '-' :: Nat.toDigits 10 n.natAbs else Nat.toDigits 10 n.natAbs

theorem mem_decimal {n : ℤ} {c : Char} (hc : c ∈ decimal n) : c.isDigit = true ∨ c = '-' := by
  have hdigit (hc : c ∈ Nat.toDigits 10 n.natAbs) : c.isDigit = true :=
    Nat.isDigit_of_mem_toDigits (by omega) (by omega) hc
  unfold decimal at hc
  split at hc
  · rcases List.mem_cons.mp hc with rfl | hc
    · exact .inr rfl
    · exact .inl (hdigit hc)
  · exact .inl (hdigit hc)

theorem digits_of_isDigit {s : Text} (hs : ∀ c ∈ s, c.isDigit = true) (v : ℕ) :
    digits 10 v s = (Nat.ofDigitChars 10 s v, []) := by
  induction s generalizing v with
  | nil => rfl
  | cons c cs ih =>
    have hc : c.isDigit = true := hs c List.mem_cons_self
    have hvalue : digitValue c = c.toNat - '0'.toNat := if_pos hc
    rw [digits, if_pos (digitValue_lt_ten.mpr hc), ih fun d hd => hs d (List.mem_cons_of_mem _ hd),
      hvalue, Nat.mul_comm v 10]
    rfl

/-- A number is read back from its digits. -/
theorem digits_toDigits (n : ℕ) : digits 10 0 (Nat.toDigits 10 n) = (n, []) := by
  rw [digits_of_isDigit fun c hc => Nat.isDigit_of_mem_toDigits (by omega) (by omega) hc,
    Nat.ofDigitChars_ten_toDigits]

theorem toDigits_eq_cons (n : ℕ) :
    ∃ c cs, Nat.toDigits 10 n = c :: cs ∧ c.isDigit = true := by
  cases h : Nat.toDigits 10 n with
  | nil => exact absurd h Nat.toDigits_ne_nil
  | cons c cs =>
    refine ⟨c, cs, rfl, Nat.isDigit_of_mem_toDigits (n := n) (b := 10) (by omega) (by omega) ?_⟩
    rw [h]
    exact List.mem_cons_self

theorem not_stops_toDigits (n : ℕ) : ¬ Stops 10 (Nat.toDigits 10 n) :=
  not_stops_of_digits Nat.toDigits_ne_nil (digits_toDigits n)

/-- A number has no sign but the minus of a negative one. -/
theorem head_toDigits (n : ℕ) :
    (Nat.toDigits 10 n).head? ≠ some '-' ∧ (Nat.toDigits 10 n).head? ≠ some '+' := by
  obtain ⟨c, cs, h, hc⟩ := toDigits_eq_cons n
  rw [h]
  refine ⟨?_, ?_⟩
  · rintro hhead
    obtain rfl := Option.some.inj hhead
    exact absurd hc (by decide)
  · rintro hhead
    obtain rfl := Option.some.inj hhead
    exact absurd hc (by decide)

/-- **`sscanf` keeps the low 32 bits** of a number. -/
theorem scanInt_decimal {space : Char → Bool} (hdigit : ∀ c, c.isDigit = true → space c = false)
    (hminus : space '-' = false) (n : ℤ) :
    scanInt space (decimal n) = some (Int.bmod n (2 ^ 32)) := by
  unfold scanInt decimal
  by_cases hn : n < 0
  · have hvalue : -|n| = n := by rw [abs_of_neg hn, neg_neg]
    simp [hn, hminus, not_stops_toDigits, digits_toDigits, hvalue]
  · obtain ⟨c, cs, h, hc⟩ := toDigits_eq_cons n.natAbs
    have hdrop : (Nat.toDigits 10 n.natAbs).dropWhile space = Nat.toDigits 10 n.natAbs := by
      rw [h, List.dropWhile_cons_of_neg (by simp [hdigit c hc])]
    have hvalue : (n.natAbs : ℤ) = n := by omega
    simp [hn, hdrop, (head_toDigits _).1, not_stops_toDigits, digits_toDigits, hvalue]

/-- **`kstrtoul` reads the numbers in its range.** -/
theorem kstrtoul_decimal (n : ℤ) :
    kstrtoul (decimal n) =
      if 0 ≤ n ∧ n < UInt64.size then some (UInt64.ofNat n.toNat) else none := by
  unfold kstrtoul decimal
  by_cases hn : n < 0
  · -- the minus is no digit
    have hstops : Stops 10 ('-' :: Nat.toDigits 10 n.natAbs) := by
      intro c hc
      obtain rfl := Option.some.inj hc
      decide
    simp [hn, hstops]
  · have hvalue : n.natAbs = n.toNat := by omega
    simp only [hn, if_false, (head_toDigits _).2, not_stops_toDigits, digits_toDigits, hvalue,
      ne_eq, not_true_eq_false, false_and, or_false, false_or]
    -- the only error left is a number that is too large
    by_cases hlt : n < UInt64.size
    · rw [if_neg (by omega), if_pos ⟨Int.not_lt.mp hn, hlt⟩]
    · rw [if_pos (by omega), if_neg fun h => hlt h.2]

end CText
