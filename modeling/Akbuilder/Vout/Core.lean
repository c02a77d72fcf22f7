import Akbuilder.Lib.Run
import Mathlib.Logic.Function.Basic

/-!
# The vout core

The modules of the 4.9 vout core, their registered servers and the current server of each; and the
two hint functions, which look the current server up under `vout_mutex` and use it again after the
unlock to send a uevent. What runs under the mutex is one step; a hint call is three, so that other
threads run between them.

## Main definitions

* `State`, `step`: the modules, and the hint calls in flight
* `Call`: what a hint call knows and has done
* `Fault`: the dereferences that go wrong

## Main results

* `setState_curr`: the server that `vout_func_set_state` selects is registered, or was selected
* `unregister_eq`: an unregistration changes nothing, corrupts a list, or unlinks its server
-/

namespace Vout

/-- `struct vout_server_s`: what the core reads of a server. -/
structure Server where
  name : Option String
  dev : Bool
  setVframeRateHint : Option (Int → Int)
  setVframeRateEndHint : Option Int

/-- `vout_module` and `vout2_module`. -/
inductive Module
  | vout
  | vout2
  deriving DecidableEq, Repr

/-- The module of an index; the second one exists with `CONFIG_AMLOGIC_VOUT2_SERVE` only. -/
def getModule (vout2Serve : Bool) (index : Int) : Option Module :=
  if index = 1 then some .vout else if vout2Serve ∧ index = 2 then some .vout2 else none

/-- The module a server of this one can be confused with. -/
def Module.other : Module → Module
  | vout => vout2
  | vout2 => vout

theorem Module.eq_or_eq_other (m k : Module) : k = m ∨ k = m.other := by
  cases m <;> cases k <;> simp [other]

/-- The two hint functions. -/
inductive Hint
  | rate (duration : Int)
  | rateEnd
  deriving DecidableEq, Repr

/-- The operation of the server, and the return value when it has none. -/
def Server.perform (p : Server) : Hint → Int
  | .rate duration => (p.setVframeRateHint.map (· duration)).getD (-1)
  | .rateEnd => p.setVframeRateEndHint.getD (-1)

/-- `snprintf` to a buffer of `size` bytes, without the final NUL. -/
def snprintf (size : Nat) (text : String) : List Char := text.toList.take (size - 1)

/-- The uevent of a hint. -/
def Hint.uevent (index : Int) (h : Hint) : List Char :=
  let suffix := if index = 1 then "" else "2"
  match h with
  | .rate duration => snprintf 32 ("FRAME_RATE_HINT" ++ suffix ++ "=" ++ toString duration)
  | .rateEnd => snprintf 32 ("FRAME_RATE_END_HINT" ++ suffix)

/-- A hint call: its arguments, the server it looked up, its return value, and the uevents it has
sent. -/
structure Call (σ : Type) where
  index : Int
  hint : Hint
  server : Option σ
  ret : Int
  sent : List (List Char)

/-- The points of a hint call after the unlock. -/
inductive CallPc (σ : Type)
  | idle
  | testDev (c : Call σ)
  | send (c : Call σ) (p : σ)

/-- The server a hint call is going to dereference. -/
def CallPc.holds {σ : Type} : CallPc σ → Option σ
  | .idle => none
  | .testDev c => c.server
  | .send _ p => some p

/-- The dereferences that go wrong: a `NULL` server, one that is not registered, or the links of a
server that is in no list, or in one already. -/
inductive Fault
  | nullServer
  | staleServer
  | listCorruption
  deriving DecidableEq, Repr

/-- The core, with servers `σ` and threads `τ`. -/
structure State (σ τ : Type) where
  list : Module → List σ
  curr : Module → Option σ
  call : τ → CallPc σ
  finished : List (Call σ)
  fault : Option Fault

/-- A step. The answers of `vmode_is_supported` to a mode are `none` for a server without it. -/
inductive Action (σ τ : Type)
  | register (index : Int) (mem : Option σ)
  | unregister (index : Int) (mem : Option σ)
  | setState (index : Int) (supported : σ → Option Int)
  | lookup (t : τ) (index : Int) (h : Hint)
  | call (t : τ)

/-- A core at boot. -/
def boot (σ τ : Type) : State σ τ :=
  { list := fun _ => [], curr := fun _ => none, call := fun _ => .idle, finished := [],
    fault := none }

variable {σ τ : Type}

/-- A server is registered: it is linked in the list of a module. -/
def State.Linked (s : State σ τ) (p : σ) : Prop := p ∈ s.list .vout ∨ p ∈ s.list .vout2

/-- Both names are set, and equal. -/
def SameName (server : σ → Server) (p q : σ) : Prop :=
  ∃ n, (server p).name = some n ∧ (server q).name = some n

instance (server : σ → Server) (p q : σ) : Decidable (SameName server p q) :=
  decidable_of_iff ((server p).name.isSome = true ∧ (server p).name = (server q).name) (by
    unfold SameName
    cases (server p).name <;> simp [eq_comm])

section Select

variable (vout2Serve : Bool)

/-- `vout_func_set_state`: the last server of the list that supports the mode. -/
def setState (s : State σ τ) (index : Int) (supported : σ → Option Int) : State σ τ :=
  match getModule vout2Serve index with
  | none => s
  | some m =>
    { s with
      curr := Function.update s.curr m
        ((s.list m).foldl (fun c p => if supported p = some 1 then some p else c) (s.curr m)) }

/-- The current server of an index, `NULL` for an index without a module. -/
def currServer (s : State σ τ) (index : Int) : Option σ :=
  (getModule vout2Serve index).bind s.curr

variable {vout2Serve} {server : σ → Server} {s : State σ τ} {index : Int} {m : Module} {p q : σ}

theorem linked_of_mem (h : p ∈ s.list m) : s.Linked p := by
  cases m
  · exact .inl h
  · exact .inr h

theorem linked_iff : s.Linked p ↔ ∃ m, p ∈ s.list m := by
  refine ⟨?_, fun ⟨m, h⟩ => linked_of_mem h⟩
  rintro (h | h)
  · exact ⟨_, h⟩
  · exact ⟨_, h⟩

theorem SameName.symm (h : SameName server p q) : SameName server q p := by
  obtain ⟨n, hp, hq⟩ := h
  exact ⟨n, hq, hp⟩

/-- The current server is that of a module. -/
theorem currServer_eq_some (h : currServer vout2Serve s index = some p) :
    ∃ m, getModule vout2Serve index = some m ∧ s.curr m = some p :=
  Option.bind_eq_some_iff.mp h

/-- **`vout_func_set_state` selects a registered server**, or leaves the selection. -/
theorem setState_curr (vout2Serve : Bool) (s : State σ τ) (index : Int)
    (supported : σ → Option Int) (m : Module) :
    (setState vout2Serve s index supported).curr m = s.curr m ∨
      ∃ p ∈ s.list m, (setState vout2Serve s index supported).curr m = some p := by
  unfold setState
  cases getModule vout2Serve index with
  | none => exact .inl rfl
  | some k =>
    by_cases hm : m = k
    · subst hm
      simp only [Function.update_self]
      generalize s.curr m = c
      induction s.list m generalizing c with
      | nil => exact .inl rfl
      | cons q qs ih =>
        simp only [List.foldl_cons]
        -- the loop goes on with `q` selected, or with the selection so far
        split
        · rcases ih (some q) with h | ⟨p, hp, h⟩
          · exact .inr ⟨q, by simp, h⟩
          · exact .inr ⟨p, by simp [hp], h⟩
        · rcases ih c with h | ⟨p, hp, h⟩
          · exact .inl h
          · exact .inr ⟨p, by simp [hp], h⟩
    · simp [Function.update_of_ne hm]

end Select

variable [DecidableEq σ] (vout2Serve : Bool) (server : σ → Server)

instance (s : State σ τ) (p : σ) : Decidable (s.Linked p) := inferInstanceAs (Decidable (_ ∨ _))

section Register

/-- `vout_func_vout_register_server`. -/
def register (s : State σ τ) (index : Int) (mem : Option σ) : State σ τ :=
  match mem with
  | none => s
  | some p =>
    if (server p).name = none then s
    else
      match getModule vout2Serve index with
      | none => s
      | some m =>
        if ∃ q ∈ s.list m, SameName server q p then s
        else if s.Linked p then { s with fault := some .listCorruption }
        else { s with list := Function.update s.list m (p :: s.list m) }

/-- The entry whose name `vout_func_vout_unregister_server` finds. -/
def findEntry (s : State σ τ) (m : Module) (p : σ) : Option σ :=
  (s.list m).find? fun q => SameName server q p

/-- `vout_func_vout_unregister_server`. It compares names, and unlinks the server it was given. -/
def unregister (s : State σ τ) (index : Int) (mem : Option σ) : State σ τ :=
  match mem with
  | none => s
  | some p =>
    match getModule vout2Serve index with
    | none => s
    | some m =>
      match findEntry server s m p with
      | none => s
      | some q =>
        if s.Linked p then
          -- the selection is cleared for the entry found, the links for the server given
          { s with
            curr := if s.curr m = some q then Function.update s.curr m none else s.curr
            list := fun m => (s.list m).filter (· ≠ p) }
        else { s with fault := some .listCorruption }

variable (s : State σ τ) (index : Int)

/-- A registration changes nothing, corrupts a list, or links a server with a new name. -/
theorem register_eq (mem : Option σ) :
    register vout2Serve server s index mem = s ∨
      register vout2Serve server s index mem = { s with fault := some .listCorruption } ∨
      ∃ m p, mem = some p ∧ (∀ q ∈ s.list m, ¬ SameName server q p) ∧
        register vout2Serve server s index mem =
          { s with list := Function.update s.list m (p :: s.list m) } := by
  unfold register
  cases mem with
  | none => exact .inl rfl
  | some p =>
    dsimp only
    split
    · exact .inl rfl
    · cases getModule vout2Serve index with
      | none => exact .inl rfl
      | some m =>
        dsimp only
        split
        · exact .inl rfl
        · next hname =>
          split
          · exact .inr (.inl rfl)
          · exact .inr (.inr ⟨m, p, rfl, by simpa using hname, rfl⟩)

/-- **An unregistration** changes nothing, corrupts a list, or unlinks its server after an entry of
that name was found. -/
theorem unregister_eq (mem : Option σ) :
    unregister vout2Serve server s index mem = s ∨
      unregister vout2Serve server s index mem = { s with fault := some .listCorruption } ∨
      ∃ m p q, mem = some p ∧ getModule vout2Serve index = some m ∧
        findEntry server s m p = some q ∧
        unregister vout2Serve server s index mem =
          { s with
            curr := if s.curr m = some q then Function.update s.curr m none else s.curr
            list := fun m => (s.list m).filter (· ≠ p) } := by
  unfold unregister
  cases mem with
  | none => exact .inl rfl
  | some p =>
    cases hm : getModule vout2Serve index with
    | none => exact .inl (by simp)
    | some m =>
      cases hq : findEntry server s m p with
      | none => exact .inl (by simp [hq])
      | some q =>
        simp only [hq]
        split
        · exact .inr (.inr ⟨m, p, q, rfl, rfl, hq, rfl⟩)
        · exact .inr (.inl rfl)

end Register

section Step

variable [DecidableEq τ]

/-- The part of a hint call under `vout_mutex`. -/
def lookup (s : State σ τ) (t : τ) (index : Int) (h : Hint) : State σ τ :=
  match currServer vout2Serve s index with
  | none =>
    -- the return value is set, and the call goes on to the uevent
    { s with call := Function.update s.call t (.testDev ⟨index, h, none, -1, []⟩) }
  | some p =>
    if s.Linked p then
      { s with
        call := Function.update s.call t (.testDev ⟨index, h, some p, (server p).perform h, []⟩) }
    else { s with fault := some .staleServer }

/-- A hint call returns. -/
def State.finish (s : State σ τ) (t : τ) (c : Call σ) : State σ τ :=
  { s with call := Function.update s.call t .idle, finished := c :: s.finished }

/-- A step of a hint call after the unlock: `p_server->dev`, then the uevent. -/
def callStep (s : State σ τ) (t : τ) : Option (State σ τ) :=
  match s.call t with
  | .idle => none
  | .testDev c =>
    match c.server with
    | none => some { s with fault := some .nullServer }
    | some p =>
      if s.Linked p then
        some (if (server p).dev then { s with call := Function.update s.call t (.send c p) }
          else s.finish t c)
      else some { s with fault := some .staleServer }
  | .send c p =>
    if s.Linked p then some (s.finish t { c with sent := c.sent ++ [c.hint.uevent c.index] })
    else some { s with fault := some .staleServer }

/-- The step function. Nothing runs after a fault. -/
def step (s : State σ τ) (a : Action σ τ) : Option (State σ τ) :=
  if s.fault = none then
    match a with
    | .register index mem => some (register vout2Serve server s index mem)
    | .unregister index mem => some (unregister vout2Serve server s index mem)
    | .setState index supported => some (setState vout2Serve s index supported)
    | .lookup t index h =>
      match s.call t with
      | .idle => some (lookup vout2Serve server s t index h)
      | .testDev _ | .send _ _ => none
    | .call t => callStep server s t
  else none

end Step

end Vout
