import Mathlib.Data.List.Perm.Basic
import Mathlib.Data.List.Nodup
import Mathlib.Logic.Function.Basic

/-!
# First-fit slots

A fixed set of slots is handed out by first fit over an array of use marks: a slot is free while its
mark is `0`. The marks are right when the slots marked are those held.

## Main definitions

* `Slots.firstFree use lo n`: the first free slot among the `n` from `lo` on
* `Slots.Tracks use n held`: the marks of the `n` slots are right

## Main results

* `Tracks.take`, `Tracks.give`: taking a free slot and giving a held one back keep the marks right
-/

namespace Slots

/-- The first free slot among `lo`, …, `lo + n - 1`. -/
def firstFree (use : Nat → UInt8) (lo n : Nat) : Option Nat :=
  (List.range' lo n).find? (use · == 0)

variable {use : Nat → UInt8} {lo n i : Nat} {held held' : List Nat}

theorem firstFree_eq_some (h : firstFree use lo n = some i) :
    lo ≤ i ∧ i < lo + n ∧ use i = 0 := by
  have hmem := List.mem_of_find?_eq_some h
  rw [List.mem_range'_1] at hmem
  exact ⟨hmem.1, hmem.2, by simpa using List.find?_some h⟩

/-- **The marks are right**: the slots marked are those held, and none is held twice. -/
structure Tracks (use : Nat → UInt8) (n : Nat) (held : List Nat) : Prop where
  nodup : held.Nodup
  lt : ∀ i ∈ held, i < n
  mem_iff : ∀ i < n, use i ≠ 0 ↔ i ∈ held

namespace Tracks

theorem perm (h : Tracks use n held) (hp : held.Perm held') : Tracks use n held' where
  nodup := hp.nodup_iff.mp h.nodup
  lt := fun i hi => h.lt i (hp.mem_iff.mpr hi)
  mem_iff := fun i hi => (h.mem_iff i hi).trans hp.mem_iff

/-- No slot is held of a zeroed array. -/
theorem of_zero (h : ∀ i < n, use i = 0) : Tracks use n [] where
  nodup := .nil
  lt := by simp
  mem_iff := by simpa using h

theorem not_mem (h : Tracks use n held) (hi : i < n) (hfree : use i = 0) : i ∉ held := fun hmem =>
  (h.mem_iff i hi).mpr hmem hfree

/-- **A free slot is taken.** -/
theorem take (h : Tracks use n held) (hi : i < n) (hfree : use i = 0) :
    Tracks (Function.update use i 1) n (i :: held) := by
  refine ⟨List.nodup_cons.mpr ⟨h.not_mem hi hfree, h.nodup⟩, ?_, ?_⟩
  · simpa using ⟨hi, h.lt⟩
  · intro j hj
    by_cases hij : j = i
    · subst hij
      simp
    · simp [hij, h.mem_iff j hj]

/-- **A held slot is given back.** -/
theorem give (h : Tracks use n (i :: held)) : Tracks (Function.update use i 0) n held := by
  obtain ⟨hnew, hnodup⟩ := List.nodup_cons.mp h.nodup
  refine ⟨hnodup, fun j hj => h.lt j (List.mem_cons_of_mem _ hj), ?_⟩
  intro j hj
  by_cases hij : j = i
  · subst hij
    simp [hnew]
  · simp [hij, h.mem_iff j hj]

end Tracks

end Slots
