import Mathlib.Data.Nat.Bitwise

/-!
# Bit fields of a register

A register holds several fields, each some consecutive bits. A store in one field leaves the others
as they are.

## Main definitions

* `BitField.get r offset len`: the field of `r` with `len` bits from `offset` on
* `BitField.Setter`: a function that stores a value in a field
* `BitField.Setter.masked`: the setter that masks the field out

## Main results

* `Setter.get_set`, `Setter.get_set_of_disjoint`: what a store does to a field
-/

namespace BitField

/-- The field of `r` with `len` bits from `offset` on. -/
def get (r offset len : Nat) : Nat := (r >>> offset) % (1 <<< len)

variable {r v offset len offset' len' i : Nat}

theorem testBit_get :
    (get r offset len).testBit i = (decide (i < len) && r.testBit (offset + i)) := by
  rw [get, Nat.one_shiftLeft, Nat.testBit_mod_two_pow, Nat.testBit_shiftRight]

/-- **Setters**: `set r v offset len` is `r` with the low bits of `v` in a field. -/
structure Setter where
  set : Nat → Nat → Nat → Nat → Nat
  testBit_set : ∀ r v offset len i, (set r v offset len).testBit i =
    if offset ≤ i ∧ i < offset + len then v.testBit (i - offset) else r.testBit i

namespace Setter

variable (S : Setter)

/-- **The field stored** holds the value, cut to its length. -/
theorem get_set : get (S.set r v offset len) offset len = get v 0 len := by
  apply Nat.eq_of_testBit_eq
  intro i
  rw [testBit_get, testBit_get, S.testBit_set]
  by_cases hi : i < len
  · rw [if_pos ⟨by omega, by omega⟩, Nat.add_sub_cancel_left, Nat.zero_add]
  · simp [hi]

/-- **Another field** holds what it held. -/
theorem get_set_of_disjoint (h : offset + len ≤ offset' ∨ offset' + len' ≤ offset) :
    get (S.set r v offset len) offset' len' = get r offset' len' := by
  apply Nat.eq_of_testBit_eq
  intro i
  rw [testBit_get, testBit_get, S.testBit_set]
  by_cases hi : i < len'
  · rw [if_neg (by omega)]
  · simp [hi]

/-- The bits of the field are masked out and replaced. -/
def masked : Setter where
  set := fun r v offset len =>
    (r >>> (offset + len)) <<< (offset + len) ||| get v 0 len <<< offset ||| get r 0 offset
  testBit_set := by
    intro r v offset len i
    simp only [Nat.testBit_or, Nat.testBit_shiftLeft, Nat.testBit_shiftRight, testBit_get]
    by_cases hlow : i < offset
    · simp [hlow, Nat.not_le.mpr hlow, show ¬ offset + len ≤ i by omega]
    · by_cases hmid : i < offset + len
      · have hcond : offset ≤ i ∧ i < offset + len := by omega
        simp [hcond, hlow, show ¬ offset + len ≤ i by omega, show i - offset < len by omega]
      · have hcond : ¬ (offset ≤ i ∧ i < offset + len) := by omega
        have hsplit : offset + len + (i - (offset + len)) = i := by omega
        simp [hcond, hlow, hsplit, show offset + len ≤ i by omega,
          show ¬ i - offset < len by omega]

end Setter

end BitField
