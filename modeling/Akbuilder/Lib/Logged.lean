import Mathlib.Data.List.Basic

/-!
# Computations that log what they access

A computation with early exits, and the accesses it makes on its way. The log grows only at its end,
and an exit ends it. A judgement `Spec` says that every access is allowed and what holds of the
value; its rules follow the computation. A computation can also be run against a rule that stops it
at the first access that is not allowed.

## Main definitions

* `Logged`: the computations, a monad
* `Logged.Spec`: every access is allowed, and the value is as it should be
* `Logged.checked`: the run that stops at an access that is not allowed

## Main results

* `Spec.bind`: the rule of sequence
* `checked_bind`: the checked run of a sequence is the sequence of checked runs
-/

/-- A computation: its log, and the value or exit it ends in. -/
structure Logged (A ε α : Type) where
  log : List A
  result : Except ε α

namespace Logged

variable {A ε α β : Type}

/-- One access. -/
def access (a : A) : Logged A ε Unit := ⟨[a], .ok ()⟩

/-- An early exit. -/
def exit (e : ε) : Logged A ε α := ⟨[], .error e⟩

/-- The sequence of two computations. -/
def andThen (x : Logged A ε α) (f : α → Logged A ε β) : Logged A ε β :=
  match x.result with
  | .ok v => ⟨x.log ++ (f v).log, (f v).result⟩
  | .error e => ⟨x.log, .error e⟩

instance : Monad (Logged A ε) where
  pure v := ⟨[], .ok v⟩
  bind := andThen

theorem bind_def (x : Logged A ε α) (f : α → Logged A ε β) : (x >>= f) = andThen x f := rfl

theorem pure_def (v : α) : (pure v : Logged A ε α) = ⟨[], .ok v⟩ := rfl

@[simp] theorem exit_bind (e : ε) (f : α → Logged A ε β) : (exit e >>= f) = exit e := rfl

@[simp] theorem pure_bind (v : α) (f : α → Logged A ε β) : (pure v >>= f) = f v := rfl

@[simp] theorem log_access_bind (a : A) (f : Unit → Logged A ε β) :
    (access a >>= f).log = a :: (f ()).log := rfl

/-- What the first of two computations accesses is accessed. -/
theorem mem_log_bind {x : Logged A ε α} {f : α → Logged A ε β} {a : A} (ha : a ∈ x.log) :
    a ∈ (x >>= f).log := by
  rw [bind_def, andThen]
  split
  · exact List.mem_append_left _ ha
  · exact ha

/-- What the second of two computations accesses is accessed, if the first one does not exit. -/
theorem mem_log_bind_right {x : Logged A ε α} {f : α → Logged A ε β} {a : A} {v : α}
    (hx : x.result = .ok v) (ha : a ∈ (f v).log) : a ∈ (x >>= f).log := by
  rw [bind_def, andThen, hx]
  exact List.mem_append_right _ ha

/-! ## Rules -/

/-- **Every access is allowed**, and the value, if there is one, is as it should be. -/
def Spec (P : A → Prop) (x : Logged A ε α) (Q : α → Prop) : Prop :=
  (∀ a ∈ x.log, P a) ∧ ∀ v, x.result = .ok v → Q v

section Rules

variable {P : A → Prop} {Q : α → Prop} {Q' : Unit → Prop} {R : β → Prop}

theorem Spec.pure {v : α} (hv : Q v) : Spec P (Pure.pure v : Logged A ε α) Q :=
  ⟨fun _ ha => absurd ha (by simp [pure_def]), fun _ hw => Except.ok.inj hw ▸ hv⟩

theorem Spec.exit {e : ε} : Spec P (exit e : Logged A ε α) Q :=
  ⟨fun _ ha => absurd ha (by simp [Logged.exit]), fun _ hv => by cases hv⟩

/-- **The rule of sequence.** -/
theorem Spec.bind {x : Logged A ε α} {f : α → Logged A ε β} (hx : Spec P x Q)
    (hf : ∀ v, Q v → Spec P (f v) R) : Spec P (x >>= f) R := by
  rw [bind_def, andThen]
  cases hr : x.result with
  | error e => exact ⟨hx.1, fun _ hv => by cases hv⟩
  | ok v =>
    have hfv := hf v (hx.2 v hr)
    refine ⟨fun a ha => ?_, hfv.2⟩
    rcases List.mem_append.mp ha with hfst | hsnd
    · exact hx.1 a hfst
    · exact hfv.1 a hsnd

theorem Spec.access {a : A} (ha : P a) (hQ : Q' ()) :
    Spec P (Logged.access a : Logged A ε Unit) Q' :=
  ⟨fun b hb => by rwa [List.mem_singleton.mp hb], fun _ _ => hQ⟩

theorem Spec.access_bind {a : A} {f : Unit → Logged A ε β} (ha : P a) (hf : Spec P (f ()) R) :
    Spec P (Logged.access a >>= f) R :=
  Spec.bind (Spec.access ha trivial) fun _ (_ : True) => hf

end Rules

/-! ## Checked runs -/

section Checked

variable (ok : A → Bool) (fault : ε)

/-- The run that ends in `fault` at the first access that is not `ok`. -/
def checked (x : Logged A ε α) : Except ε α := if x.log.all ok then x.result else .error fault

@[simp] theorem checked_pure (v : α) : checked ok fault (pure v) = .ok v := rfl

@[simp] theorem checked_exit (e : ε) : checked ok fault (exit e : Logged A ε α) = .error e := rfl

/-- **The checked run of a sequence** is the sequence of checked runs. -/
theorem checked_bind (x : Logged A ε α) (f : α → Logged A ε β) :
    checked ok fault (x >>= f) = checked ok fault x >>= fun v => checked ok fault (f v) := by
  rw [bind_def, andThen]
  rcases hr : x.result with e | v <;> cases hx : x.log.all ok <;>
    simp [checked, hr, hx, Bind.bind, Except.bind]

@[simp] theorem checked_access_bind (a : A) (f : Unit → Logged A ε β) :
    checked ok fault (access a >>= f) = if ok a then checked ok fault (f ()) else .error fault := by
  rw [checked_bind]
  cases h : ok a <;> simp [checked, access, h, Bind.bind, Except.bind]

end Checked

end Logged
