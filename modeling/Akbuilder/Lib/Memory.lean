import Mathlib.Data.List.Basic

/-!
# Bytes in memory

What a block of memory holds after stores of byte strings. A store is framed: what stands at
addresses it does not touch stays.

## Main definitions

* `Memory.write`, `Memory.read`: a store and a load of consecutive bytes
* `Memory.Holds m a bs`: the bytes `bs` stand at the address `a`

## Main results

* `Holds.write_of_disjoint`: the frame rule
* `holds_append`: two strings side by side
-/

/-- The byte at each address. -/
abbrev Memory := Nat → UInt8

namespace Memory

variable {m : Memory} {a b : Nat} {xs ys : List UInt8}

/-- The bytes `bs`, stored from the address `a` on. -/
def write (m : Memory) (a : Nat) (bs : List UInt8) : Memory := fun i =>
  if a ≤ i then (bs[i - a]?).getD (m i) else m i

/-- The `n` bytes from the address `a` on. -/
def read (m : Memory) (a n : Nat) : List UInt8 := (List.range n).map fun i => m (a + i)

/-- The bytes `bs` stand at the address `a`. -/
def Holds (m : Memory) (a : Nat) (bs : List UInt8) : Prop :=
  ∀ (i : Nat) (h : i < bs.length), m (a + i) = bs[i]

@[simp] theorem holds_nil : Holds m a [] := fun i h => absurd h (by simp)

/-- **A store** stands where it was stored. -/
theorem holds_write : Holds (write m a xs) a xs := by
  intro i h
  simp [write, h]

/-- **The frame rule.** -/
theorem Holds.write_of_disjoint (h : Holds m a xs)
    (hdisjoint : a + xs.length ≤ b ∨ b + ys.length ≤ a) : Holds (write m b ys) a xs := by
  intro i hi
  rw [← h i hi]
  unfold Memory.write
  split
  · next hb =>
    -- the address is behind the bytes stored
    have hlen : ys.length ≤ a + i - b := by omega
    rw [List.getElem?_eq_none hlen, Option.getD_none]
  · rfl

/-- Two strings side by side are their concatenation. -/
theorem holds_append : Holds m a (xs ++ ys) ↔ Holds m a xs ∧ Holds m (a + xs.length) ys := by
  constructor
  · intro h
    constructor
    · intro i hi
      rw [h i (by rw [List.length_append]; omega), List.getElem_append_left hi]
    · intro i hi
      rw [Nat.add_assoc, h (xs.length + i) (by rw [List.length_append]; omega)]
      simp
  · rintro ⟨hx, hy⟩ i hi
    rw [List.length_append] at hi
    by_cases hlt : i < xs.length
    · rw [hx i hlt, List.getElem_append_left hlt]
    · -- the byte is the `j`th of the second string
      obtain ⟨j, rfl⟩ : ∃ j, i = xs.length + j := ⟨i - xs.length, by omega⟩
      rw [← Nat.add_assoc, hy j (by omega)]
      simp

/-- A load of the length of a string that stands there is the string. -/
theorem Holds.read_eq (h : Holds m a xs) : read m a xs.length = xs := by
  apply List.ext_getElem
  · simp [read]
  · intro i hi hi'
    simp [read, h i hi']

end Memory
