import Mathlib.Data.BitVec
import Mathlib.Logic.Function.Basic

/-!
# Resources held as bit masks

A bit of a mask stands for one resource. `eachBit` is the loop that takes the bits of a mask from
the lowest up; a table of masks shares the resources when each one is held by one holder at most
and the mask of all the held ones is kept beside the table.

## Main definitions

* `Has m i`: the bit `i` is set in the mask `m`
* `ffs`: the lowest bit of a mask, `eachBit`: the loop over the bits of a mask
* `Shared all held`: the masks `held v` are pairwise disjoint and `all` is their union

## Main results

* `eachBit_set`, `eachBit_clear`: what the loop makes of a mask
* `Shared.grant`, `Shared.release`: handing resources out and taking them back
-/

namespace BitMask

variable {w : ℕ} {ι β : Type*}

/-- The bit `i` is set in `m`. -/
def Has (m : BitVec w) (i : ℕ) : Prop := m.getLsbD i = true

instance (m : BitVec w) : DecidablePred (Has m) := fun i =>
  inferInstanceAs (Decidable (m.getLsbD i = true))

/-- The bit `i` alone. -/
def bit (i : ℕ) : BitVec w := 1#w <<< i

section Has

variable {m n : BitVec w} {i j : ℕ}

theorem Has.lt (h : Has m i) : i < w := BitVec.lt_of_getLsbD h

theorem ext_has (h : ∀ i, Has m i ↔ Has n i) : m = n := by
  apply BitVec.eq_of_getLsbD_eq
  intro i _
  exact Bool.eq_iff_iff.2 (h i)

@[simp]
theorem not_has_zero : ¬ Has 0#w i := by simp [Has]

@[simp]
theorem has_or : Has (m ||| n) i ↔ Has m i ∨ Has n i := by simp [Has]

@[simp]
theorem has_and : Has (m &&& n) i ↔ Has m i ∧ Has n i := by simp [Has]

@[simp]
theorem has_not : Has (~~~m) i ↔ i < w ∧ ¬ Has m i := by simp [Has]

@[simp]
theorem has_xor : Has (m ^^^ n) i ↔ (Has m i ↔ ¬ Has n i) := by
  cases h : m.getLsbD i <;> cases h' : n.getLsbD i <;> simp [Has, h, h']

@[simp]
theorem has_bit : Has (bit j : BitVec w) i ↔ i < w ∧ i = j := by
  simp only [Has, bit, BitVec.getLsbD_shiftLeft, BitVec.getLsbD_one]
  by_cases hj : i < w <;> by_cases hi : i < j <;> simp [hj, hi] <;> omega

theorem exists_has (h : m ≠ 0) : ∃ i, Has m i := by
  by_contra hn
  exact h (ext_has fun i => by simpa using fun hi => hn ⟨i, hi⟩)

theorem eq_zero_iff : m = 0 ↔ ∀ i, ¬ Has m i :=
  ⟨by rintro rfl; simp, fun h => ext_has fun i => by simpa using h i⟩

end Has

/-! ## The loop over the bits of a mask -/

/-- The number of the lowest bit set in `t`. -/
def ffs (t : BitVec w) : ℕ := ((List.range w).find? fun i => decide (Has t i)).getD 0

/-- `while (t) { i = ffs(t); b = f(i, b); t &= ~(1 << i); }`, at most `fuel` times. -/
def eachBit (f : ℕ → β → β) : ℕ → BitVec w → β → β
  | 0, _, b => b
  | fuel + 1, t, b =>
    if t = 0 then b else eachBit f fuel (t &&& ~~~bit (ffs t)) (f (ffs t) b)

/-- `ffs` finds a bit of the mask, and none below it is set. -/
theorem ffs_spec {t : BitVec w} (h : t ≠ 0) : Has t (ffs t) ∧ ∀ j < ffs t, ¬ Has t j := by
  obtain ⟨i, hi⟩ := exists_has h
  cases hf : (List.range w).find? fun j => decide (Has t j) with
  | none => exact absurd hi (by simpa using List.find?_eq_none.1 hf i (List.mem_range.2 hi.lt))
  | some k =>
    have hk : ffs t = k := by simp [ffs, hf]
    obtain ⟨hbit, -, hbelow⟩ := List.find?_range_eq_some.1 hf
    rw [hk]
    exact ⟨by simpa using hbit, fun j hj => by simpa using hbelow j hj⟩

/-- What holds of the mask left and the value reached at every turn of the loop holds with no bit
left at its end: the lowest bit rises with each turn, so there are at most `w` of them. -/
theorem eachBit_induct {f : ℕ → β → β} {P : BitVec w → β → Prop}
    (hstep : ∀ t b, t ≠ 0 → P t b → P (t &&& ~~~bit (ffs t)) (f (ffs t) b)) :
    ∀ (fuel : ℕ) (t : BitVec w) (b : β), (∀ i, Has t i → w ≤ i + fuel) → P t b →
      P 0 (eachBit f fuel t b)
  | 0, t, b, hlow, h => by
    have ht : t = 0 := by
      apply eq_zero_iff.2
      intro i hi
      have := hlow i hi
      have := hi.lt
      omega
    rwa [eachBit, ← ht]
  | fuel + 1, t, b, hlow, h => by
    rw [eachBit]
    split
    case isTrue ht => rwa [← ht]
    case isFalse ht =>
      apply eachBit_induct hstep fuel _ _ ?_ (hstep t b ht h)
      intro i hi
      obtain ⟨hffs, hbelow⟩ := ffs_spec ht
      simp only [has_and, has_not, has_bit, not_and] at hi
      have hne : i ≠ ffs t := hi.2.2 hi.2.1
      have hge : ¬ i < ffs t := fun hlt => hbelow i hlt hi.1
      have := hlow _ hffs
      omega

/-- **Setting** the bits of `t` one by one is `m | t`. -/
theorem eachBit_set (t m : BitVec w) : eachBit (fun i m => m ||| bit i) w t m = m ||| t := by
  have key := eachBit_induct (f := fun i (b : BitVec w) => b ||| bit i)
    (P := fun t' b => b ||| t' = m ||| t) ?_ w t m (fun i _ => Nat.le_add_left w i) rfl
  · simpa using key
  · intro t' b ht h
    rw [← h]
    apply ext_has
    intro i
    obtain ⟨hffs, -⟩ := ffs_spec ht
    by_cases hif : i = ffs t'
    · simp [hif, hffs, hffs.lt]
    · have := @Has.lt w t' i
      simp only [has_or, has_bit, has_and, has_not, hif]
      tauto

/-- **Clearing** the bits of `t` one by one is `m & ~t`. -/
theorem eachBit_clear (t m : BitVec w) :
    eachBit (fun i m => m &&& ~~~bit i) w t m = m &&& ~~~t := by
  have key := eachBit_induct (f := fun i (b : BitVec w) => b &&& ~~~bit i)
    (P := fun t' b => b &&& ~~~t' = m &&& ~~~t) ?_ w t m (fun i _ => Nat.le_add_left w i) rfl
  · simpa using key
  · intro t' b ht h
    rw [← h]
    apply ext_has
    intro i
    obtain ⟨hffs, -⟩ := ffs_spec ht
    by_cases hif : i = ffs t'
    · simp [hif, hffs, hffs.lt]
    · have := @Has.lt w b i
      simp only [has_and, has_not, has_bit, hif]
      tauto

/-! ## Sharing the resources among holders -/

/-- The holders share the resources of `all`: each one is held by exactly one of them. -/
structure Shared (all : BitVec w) (held : ι → BitVec w) : Prop where
  covers : ∀ i, Has all i ↔ ∃ v, Has (held v) i
  alone : ∀ {i u v}, Has (held u) i → Has (held v) i → u = v

namespace Shared

variable {all m : BitVec w} {held held' : ι → BitVec w} {v : ι}

theorem nobody : Shared 0#w fun _ : ι => 0#w :=
  ⟨by simp, by simp⟩

theorem le (h : Shared all held) {i : ℕ} (hi : Has (held v) i) : Has all i :=
  (h.covers i).2 ⟨v, hi⟩

/-- Resources that nobody holds can be given to `v`. -/
theorem grant (h : Shared all held) (hm : ∀ i, Has m i → ¬ Has all i)
    (hv : held' v = held v ||| m) (ho : ∀ u, u ≠ v → held' u = held u) :
    Shared (all ||| m) held' := by
  -- a bit of the new table is an old one, or one of `m`, and then `v` has it
  have key : ∀ i u, Has (held' u) i ↔ Has (held u) i ∨ u = v ∧ Has m i := by
    intro i u
    by_cases hu : u = v
    · simp [hu, hv]
    · simp [hu, ho u hu]
  refine ⟨fun i => ?_, fun {i u u'} hi hi' => ?_⟩
  · simp only [has_or, key, h.covers, exists_or, exists_eq_left]
  · rw [key] at hi hi'
    rcases hi with hi | ⟨rfl, hi⟩ <;> rcases hi' with hi' | ⟨rfl, hi'⟩
    · exact h.alone hi hi'
    · exact absurd (h.le hi) (hm i hi')
    · exact absurd (h.le hi') (hm i hi)
    · rfl

/-- What `v` holds can be taken back from it. -/
theorem release (h : Shared all held) (hm : ∀ i, Has m i → Has (held v) i)
    (hv : held' v = held v &&& ~~~m) (ho : ∀ u, u ≠ v → held' u = held u) :
    Shared (all &&& ~~~m) held' := by
  have key : ∀ i u, Has (held' u) i ↔ Has (held u) i ∧ ¬ Has m i := by
    intro i u
    by_cases hu : u = v
    · have := @Has.lt w (held v) i
      simp only [hu, hv, has_and, has_not]
      tauto
    · rw [ho u hu]
      exact ⟨fun hi => ⟨hi, fun hmi => hu (h.alone hi (hm i hmi))⟩, And.left⟩
  refine ⟨fun i => ?_, fun {i u u'} hi hi' => ?_⟩
  · have := @Has.lt w all i
    simp only [has_and, has_not, key, exists_and_right, ← h.covers]
    tauto
  · exact h.alone ((key i u).1 hi).1 ((key i u').1 hi').1

end Shared

end BitMask
