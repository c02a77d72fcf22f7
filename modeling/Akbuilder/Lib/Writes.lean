import Mathlib.Data.List.Basic
import Mathlib.Logic.Function.Basic

/-!
# Stores that are written in sequence

A store holds at most one value at each place, and a write replaces it. After writes in sequence
every place holds what was written there last. All that was written is still there if and only if
the writes to one place agree.

## Main definitions

* `apply m ws`: the store after the writes `ws`
* `Agree ws`: writes to one place write one value

## Main results

* `apply_of_mem`: a place that was written holds something that was written there
* `agree_iff_kept`: writes agree if and only if none is lost
-/

namespace Writes

variable {L V : Type*} [DecidableEq L] {m : L → Option V} {ws : List (L × V)} {l : L}

/-- The store after writes, the first one first. -/
def apply (m : L → Option V) (ws : List (L × V)) : L → Option V :=
  ws.foldl (fun m w => Function.update m w.1 (some w.2)) m

@[simp] theorem apply_nil : apply m [] = m := rfl

theorem apply_cons (w : L × V) : apply m (w :: ws) = apply (Function.update m w.1 (some w.2)) ws :=
  rfl

theorem apply_append (ws' : List (L × V)) : apply m (ws ++ ws') = apply (apply m ws) ws' :=
  List.foldl_append

/-- A place that is not written is as it was. -/
theorem apply_of_forall_ne (h : ∀ w ∈ ws, w.1 ≠ l) : apply m ws l = m l := by
  induction ws generalizing m with
  | nil => rfl
  | cons w ws ih =>
    rw [List.forall_mem_cons] at h
    rw [apply_cons, ih h.2, Function.update_of_ne h.1.symm]

/-- **A place that was written** holds something that was written there. -/
theorem apply_of_mem (h : ∃ w ∈ ws, w.1 = l) :
    ∃ w ∈ ws, w.1 = l ∧ apply m ws l = some w.2 := by
  induction ws generalizing m with
  | nil => simp at h
  | cons w ws ih =>
    rw [apply_cons]
    by_cases hlater : ∃ w' ∈ ws, w'.1 = l
    · obtain ⟨w', hw', hl, hv⟩ := ih hlater
      exact ⟨w', List.mem_cons_of_mem _ hw', hl, hv⟩
    · -- the first write is the only one there
      obtain ⟨w', hw', rfl⟩ := h
      rcases List.mem_cons.mp hw' with rfl | hw'
      · refine ⟨w', List.mem_cons_self, rfl, ?_⟩
        rw [apply_of_forall_ne fun v hv heq => hlater ⟨v, hv, heq⟩, Function.update_self]
      · exact absurd ⟨w', hw', rfl⟩ hlater

/-- Either a place is as it was, or it holds something that was written there. -/
theorem apply_cases (m : L → Option V) (ws : List (L × V)) (l : L) :
    ((∀ w ∈ ws, w.1 ≠ l) ∧ apply m ws l = m l) ∨ ∃ w ∈ ws, w.1 = l ∧ apply m ws l = some w.2 := by
  by_cases h : ∃ w ∈ ws, w.1 = l
  · exact .inr (apply_of_mem h)
  · push Not at h
    exact .inl ⟨h, apply_of_forall_ne h⟩

/-- Writes to one place write one value. -/
def Agree (ws : List (L × V)) : Prop := ∀ w ∈ ws, ∀ w' ∈ ws, w.1 = w'.1 → w.2 = w'.2

/-- **Writes agree if and only if none is lost.** -/
theorem agree_iff_kept : Agree ws ↔ ∀ w ∈ ws, apply m ws w.1 = some w.2 := by
  constructor
  · intro hagree w hw
    obtain ⟨w', hw', hl, hv⟩ := apply_of_mem (m := m) ⟨w, hw, rfl⟩
    rw [hv, hagree w' hw' w hw hl]
  · intro hall w hw w' hw' hl
    have hv := hall w hw
    rw [hl, hall w' hw'] at hv
    exact (Option.some.inj hv).symm

end Writes
