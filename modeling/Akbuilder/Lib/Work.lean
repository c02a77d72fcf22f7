import Mathlib.Logic.Basic

/-!
# Deferred work items

A work item is queued by `schedule`, taken from the queue and run by a worker, and withdrawn by
`cancelSync`. It runs at most once per time it is queued and never beside itself: scheduled
while it runs, it is queued once more. A run is a sequence of atomic steps, so a running item
carries the program point `π` it has reached.

## Main definitions

* `Work π`: a work item whose runs stand at points of `π`
* `schedule`, `start`, `goto`, `finish`, `cancelSync`: what happens to it
-/

/-- A work item: whether it is queued, and the point its run has reached. -/
structure Work (π : Type) where
  queued : Bool
  running : Option π
  deriving DecidableEq, Repr

namespace Work

variable {π : Type} {w w' : Work π} {p : π}

/-- An initialised item: neither queued nor running. -/
def idle : Work π := ⟨false, none⟩

/-- Queue the item; queueing a queued item does nothing. -/
def schedule (w : Work π) : Work π := { w with queued := true }

/-- A worker takes the item from the queue and enters it at `p`. -/
def start (w : Work π) (p : π) : Option (Work π) :=
  if w.queued = true ∧ w.running = none then some ⟨false, some p⟩ else none

/-- The run reaches `p`. -/
def goto (w : Work π) (p : π) : Work π := { w with running := some p }

/-- The run returns. -/
def finish (w : Work π) : Work π := { w with running := none }

/-- Withdraw the item. The caller waits for a run in progress, so this is enabled only when
there is none. -/
def cancelSync (w : Work π) : Option (Work π) :=
  if w.running = none then some idle else none

@[simp] theorem queued_idle : (idle : Work π).queued = false := rfl

@[simp] theorem running_idle : (idle : Work π).running = none := rfl

@[simp] theorem queued_schedule : w.schedule.queued = true := rfl

@[simp] theorem running_schedule : w.schedule.running = w.running := rfl

@[simp] theorem queued_goto : (w.goto p).queued = w.queued := rfl

@[simp] theorem running_goto : (w.goto p).running = some p := rfl

@[simp] theorem queued_finish : w.finish.queued = w.queued := rfl

@[simp] theorem running_finish : w.finish.running = none := rfl

@[simp] theorem start_eq_some :
    w.start p = some w' ↔ w.queued = true ∧ w.running = none ∧ w' = ⟨false, some p⟩ := by
  unfold start
  split <;> grind

@[simp] theorem cancelSync_eq_some :
    w.cancelSync = some w' ↔ w.running = none ∧ w' = idle := by
  unfold cancelSync
  split <;> grind

end Work
