import Mathlib.Logic.Basic
import Mathlib.Data.List.Basic

/-!
# Runs of a labelled transition system

A system takes labelled steps: `step s a` is the state after the step `a`, and `none` when `a`
is not enabled in `s`. A run lists the labels of its steps in order; a guard restricts which
label may be taken in which state, so that a statement about all runs and one about the runs
that avoid some steps are the same statement at two guards.

## Main definitions

* `Run step G s₀ as s`: the run from `s₀` to `s` along `as`, each step of it allowed by `G`
* `Always`: the guard that allows every step
* `exec step G s₀ as`: the computed run, for a decidable guard

## Main results

* `Run.invariant`: what a guarded step preserves holds at the end of a guarded run
* `Run.mono_of_invariant`: a guard may be weakened by what an invariant says
* `Run.of_exec`: a computed run is a run
-/

namespace Transition

variable {σ α : Type*}

/-- The guard that allows every step. -/
def Always : σ → α → Prop := fun _ _ => True

/-- **Runs**: the steps `as` lead from `s₀` to `s`, each one enabled, and allowed by `G` in the
state it is taken in. -/
inductive Run (step : σ → α → Option σ) (G : σ → α → Prop) (s₀ : σ) : List α → σ → Prop
  | nil : Run step G s₀ [] s₀
  | snoc {as : List α} {s s' : σ} {a : α} :
      Run step G s₀ as s → G s a → step s a = some s' → Run step G s₀ (as ++ [a]) s'

namespace Run

variable {step : σ → α → Option σ} {G H : σ → α → Prop} {s₀ s : σ} {as : List α}

/-- **The invariant rule.** -/
theorem invariant {I : σ → Prop} (h₀ : I s₀)
    (hstep : ∀ s a s', I s → G s a → step s a = some s' → I s')
    (r : Run step G s₀ as s) : I s := by
  induction r with
  | nil => exact h₀
  | snoc _ hg hs ih => exact hstep _ _ _ ih hg hs

/-- A run under a guard is a run under any guard it implies at the states the run visits. -/
theorem mono_of_invariant {I : σ → Prop} (h₀ : I s₀)
    (hstep : ∀ s a s', I s → G s a → step s a = some s' → I s')
    (himp : ∀ s a s', I s → G s a → step s a = some s' → H s a)
    (r : Run step G s₀ as s) : Run step H s₀ as s ∧ I s := by
  induction r with
  | nil => exact ⟨.nil, h₀⟩
  | snoc _ hg hs ih => exact ⟨.snoc ih.1 (himp _ _ _ ih.2 hg hs) hs, hstep _ _ _ ih.2 hg hs⟩

theorem mono (himp : ∀ s a, G s a → H s a) (r : Run step G s₀ as s) : Run step H s₀ as s := by
  induction r with
  | nil => exact .nil
  | snoc _ hg hs ih => exact .snoc ih (himp _ _ hg) hs

/-- Runs compose. -/
theorem append {bs : List α} {s' : σ} (r : Run step G s₀ as s) (t : Run step G s bs s') :
    Run step G s₀ (as ++ bs) s' := by
  -- the second run grows at its end, so the induction is on it
  induction t with
  | nil => simpa using r
  | snoc _ hg hs ih =>
    rw [← List.append_assoc]
    exact .snoc ih hg hs

end Run

/-- The computed run along `as`: `none` when a step is not enabled, or not allowed. -/
def exec (step : σ → α → Option σ) (G : σ → α → Prop) [∀ s a, Decidable (G s a)] :
    σ → List α → Option σ
  | s, [] => some s
  | s, a :: as => if G s a then (step s a).bind fun s' => exec step G s' as else none

theorem Run.of_exec {step : σ → α → Option σ} {G : σ → α → Prop} [∀ s a, Decidable (G s a)] :
    ∀ {as : List α} {s₀ s : σ}, exec step G s₀ as = some s → Run step G s₀ as s
  | [], _, _, h => by
    obtain rfl := Option.some.inj h
    exact .nil
  | a :: as, s₀, s, h => by
    by_cases hg : G s₀ a
    · simp only [exec, hg, if_true, Option.bind_eq_some_iff] at h
      obtain ⟨s', hs', h⟩ := h
      -- `exec` takes its steps from the front, a run from the end
      exact (Run.snoc .nil hg hs').append (Run.of_exec h)
    · simp [exec, hg] at h

instance : ∀ (s : σ) (a : α), Decidable (Always s a) := fun _ _ => isTrue trivial

/-- What a computed run ends in is what some run with these labels ends in. -/
theorem exists_run_of_exec (step : σ → α → Option σ) (G : σ → α → Prop)
    [∀ s a, Decidable (G s a)] (s₀ : σ) (as : List α) (p : σ → Prop) [DecidablePred p]
    (h : (exec step G s₀ as).any (fun s => decide (p s)) = true) :
    ∃ s, Run step G s₀ as s ∧ p s := by
  cases he : exec step G s₀ as with
  | none => simp [he] at h
  | some s => exact ⟨s, Run.of_exec he, by simpa [he] using h⟩

end Transition
