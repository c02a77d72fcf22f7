import Akbuilder.Vout.Core
import Mathlib.Data.Fintype.Basic

/-!
# Hint calls and the current server

A hint call uses the current server after it has released `vout_mutex`. It is safe while a server is
selected when it looks, and that server stays registered until the uevent is sent.

## Main definitions

* `Guard`: a server is selected, and an unregistration leaves alone the servers in use
* `Inv`: the invariant of the runs that obey it

## Main results

* `hint_safe`: along a guarded run no hint call dereferences a bad pointer, and each sends one
  uevent if its server has a device, and none otherwise
* `not_hint_safe`: a hint before any server is selected dereferences `NULL`
-/

open Transition

namespace Vout

variable {σ τ : Type} {vout2Serve : Bool} {server : σ → Server} {s s' : State σ τ}
  {a : Action σ τ}

/-- **What makes hint calls safe**: a server is selected when one looks it up, and a server that is
unlinked is neither in use by a hint call nor the current server of the other module. -/
def Guard (vout2Serve : Bool) (server : σ → Server) (s : State σ τ) : Action σ τ → Prop
  | .lookup _ index _ => (currServer vout2Serve s index).isSome = true
  | .unregister index mem => ∀ p ∈ mem, ∀ m ∈ getModule vout2Serve index,
    (findEntry server s m p).isSome = true →
      (∀ t, (s.call t).holds ≠ some p) ∧ s.curr m.other ≠ some p
  | .register _ _ | .setState _ _ | .call _ => True

instance [DecidableEq σ] [Fintype τ] : ∀ (s : State σ τ) (a : Action σ τ),
    Decidable (Guard vout2Serve server s a)
  | _, .lookup _ _ _ => inferInstanceAs (Decidable (_ = true))
  | s, .unregister index mem => by
    unfold Guard
    infer_instance
  | _, .register _ _ | _, .setState _ _ | _, .call _ => isTrue trivial

/-- The uevents that a hint call owes: one if its server has a device. -/
def Call.owed (server : σ → Server) (c : Call σ) : List (List Char) :=
  if c.server.any (fun p => (server p).dev) then [c.hint.uevent c.index] else []

/-- The invariant of a guarded run. -/
structure Inv (server : σ → Server) (s : State σ τ) : Prop where
  registered : ∀ m p, s.curr m = some p → p ∈ s.list m
  names : ∀ m, ∀ p ∈ s.list m, ∀ q ∈ s.list m, SameName server p q → p = q
  held : ∀ t p, (s.call t).holds = some p → s.Linked p
  testing : ∀ t c, s.call t = .testDev c → c.server ≠ none ∧ c.sent = []
  sending : ∀ t c p, s.call t = .send c p →
    c.server = some p ∧ (server p).dev = true ∧ c.sent = []
  finished : ∀ c ∈ s.finished, c.sent = c.owed server
  fault : s.fault = none ∨ s.fault = some .listCorruption

namespace Inv

theorem boot : Inv server (boot σ τ) := by
  constructor <;> simp [Vout.boot, CallPc.holds]

theorem corrupt (h : Inv server s) : Inv server { s with fault := some .listCorruption } where
  registered := h.registered
  names := h.names
  held := h.held
  testing := h.testing
  sending := h.sending
  finished := h.finished
  fault := .inr rfl

/-- A server is linked at the head of a list. -/
theorem link (h : Inv server s) {m : Module} {p : σ}
    (hnew : ∀ q ∈ s.list m, ¬ SameName server q p) :
    Inv server { s with list := Function.update s.list m (p :: s.list m) } := by
  have hmem {k : Module} {q : σ} (hq : q ∈ s.list k) :
      q ∈ Function.update s.list m (p :: s.list m) k := by
    by_cases hk : k = m
    · subst hk
      simp [hq]
    · simpa [Function.update_of_ne hk] using hq
  refine ⟨?_, ?_, ?_, h.testing, h.sending, h.finished, h.fault⟩
  · intro k q hq
    exact hmem (h.registered k q hq)
  · intro k
    by_cases hk : k = m
    · -- the new name is none of those in the list
      subst hk
      simp only [Function.update_self, List.forall_mem_cons]
      refine ⟨⟨fun _ => trivial, ?_⟩, ?_⟩
      · intro q hq hs
        exact absurd hs.symm (hnew q hq)
      · intro q hq
        exact ⟨fun hs => absurd hs (hnew q hq), h.names k q hq⟩
    · simpa only [Function.update_of_ne hk] using h.names k
  · intro t q hq
    obtain ⟨k, hk⟩ := linked_iff.mp (h.held t q hq)
    exact linked_iff.mpr ⟨k, hmem hk⟩

/-- A server that is not in use is unlinked. -/
theorem unlink [DecidableEq σ] (h : Inv server s) {m : Module} {p q : σ}
    (hq : findEntry server s m p = some q) (hheld : ∀ t, (s.call t).holds ≠ some p)
    (hother : s.curr m.other ≠ some p) :
    Inv server { s with
      curr := if s.curr m = some q then Function.update s.curr m none else s.curr
      list := fun m => (s.list m).filter (· ≠ p) } := by
  have hqm : q ∈ s.list m := List.mem_of_find?_eq_some hq
  have hname : SameName server q p := by simpa using List.find?_some hq
  refine ⟨?_, ?_, ?_, h.testing, h.sending, h.finished, h.fault⟩
  · intro k r hr
    -- the current server of the module was the entry found, or keeps its link
    have hk : s.curr k = some r ∧ (k = m → r ≠ q) := by
      split at hr
      · next hc =>
        simp only [Function.update_apply] at hr
        split at hr
        · cases hr
        · next hk => exact ⟨hr, fun hkm => absurd hkm hk⟩
      · next hc =>
        refine ⟨hr, ?_⟩
        rintro rfl rfl
        exact hc hr
    have hmem := h.registered k r hk.1
    have hne : r ≠ p := by
      rintro rfl
      rcases m.eq_or_eq_other k with rfl | rfl
      · -- names are unique in a list, so the entry found is the server itself
        exact hk.2 rfl (h.names _ _ hmem _ hqm hname.symm)
      · exact hother hk.1
    simp [hmem, hne]
  · intro k r hr t ht
    simp only [List.mem_filter] at hr ht
    exact h.names k r hr.1 t ht.1
  · intro t r hr
    -- a server in use stays linked
    have hne : r ≠ p := by
      rintro rfl
      exact hheld t hr
    obtain ⟨k, hk⟩ := linked_iff.mp (h.held t r hr)
    exact linked_iff.mpr ⟨k, by simp [hk, hne]⟩

theorem setState (h : Inv server s) {index : Int} {supported : σ → Option Int} :
    Inv server (setState vout2Serve s index supported) := by
  have hrest : (Vout.setState vout2Serve s index supported).list = s.list ∧
      (Vout.setState vout2Serve s index supported).call = s.call ∧
      (Vout.setState vout2Serve s index supported).finished = s.finished ∧
      (Vout.setState vout2Serve s index supported).fault = s.fault := by
    unfold Vout.setState
    cases getModule vout2Serve index <;> simp
  obtain ⟨hlist, hcall, hfinished, hfault⟩ := hrest
  constructor
  · intro m p hp
    rw [hlist]
    rcases setState_curr vout2Serve s index supported m with hc | ⟨q, hq, hc⟩
    · exact h.registered m p (hc ▸ hp)
    · obtain rfl : q = p := Option.some.inj (hc.symm.trans hp)
      exact hq
  · rw [hlist]; exact h.names
  · simp only [hcall, State.Linked, hlist]; exact h.held
  · rw [hcall]; exact h.testing
  · rw [hcall]; exact h.sending
  · rw [hfinished]; exact h.finished
  · rw [hfault]; exact h.fault

section Calls

variable [DecidableEq τ] {t : τ}

/-- A hint call moves to another point. -/
theorem goto (h : Inv server s) {pc : CallPc σ} (hheld : ∀ p, pc.holds = some p → s.Linked p)
    (htesting : ∀ c, pc = .testDev c → c.server ≠ none ∧ c.sent = [])
    (hsending : ∀ c p, pc = .send c p → c.server = some p ∧ (server p).dev = true ∧ c.sent = []) :
    Inv server { s with call := Function.update s.call t pc } := by
  have hcall {P : CallPc σ → Prop} (hpc : P pc) (hold : ∀ u, P (s.call u)) (u : τ) :
      P (Function.update s.call t pc u) := by
    rw [Function.update_apply]
    split
    · exact hpc
    · exact hold u
  exact
    { registered := h.registered
      names := h.names
      held := hcall (P := fun pc => ∀ p, pc.holds = some p → s.Linked p) hheld h.held
      testing := hcall (P := fun pc => ∀ c, pc = .testDev c → c.server ≠ none ∧ c.sent = [])
        htesting h.testing
      sending := hcall (P := fun pc => ∀ c p, pc = .send c p →
        c.server = some p ∧ (server p).dev = true ∧ c.sent = []) hsending h.sending
      finished := h.finished
      fault := h.fault }

/-- A hint call returns with the uevents it owes. -/
theorem finish (h : Inv server s) {c : Call σ} (hc : c.sent = c.owed server) :
    Inv server (s.finish t c) := by
  have hidle : Inv server { s with call := Function.update s.call t .idle } :=
    h.goto (by simp [CallPc.holds]) (by simp) (by simp)
  exact { hidle with finished := List.forall_mem_cons.mpr ⟨hc, h.finished⟩ }

variable [DecidableEq σ]

/-- **A selected server is looked up.** -/
theorem lookup (h : Inv server s) {index : Int} {hint : Hint}
    (hselected : (currServer vout2Serve s index).isSome = true) :
    Inv server (lookup vout2Serve server s t index hint) := by
  obtain ⟨p, hp⟩ := Option.isSome_iff_exists.mp hselected
  obtain ⟨m, -, hm⟩ := currServer_eq_some hp
  have hlinked : s.Linked p := linked_of_mem (h.registered m p hm)
  simp only [Vout.lookup, hp, hlinked, if_true]
  refine h.goto ?_ ?_ (by simp)
  · intro q hq
    obtain rfl : p = q := Option.some.inj hq
    exact hlinked
  · intro c hc
    cases hc
    simp

/-- **The rest of a hint call** finds its server registered. -/
theorem callStep (h : Inv server s) (hs : callStep server s t = some s') : Inv server s' := by
  unfold Vout.callStep at hs
  cases hc : s.call t with
  | idle => simp [hc] at hs
  | testDev c =>
    obtain ⟨hne, hsent⟩ := h.testing t c hc
    obtain ⟨p, hp⟩ := Option.ne_none_iff_exists'.mp hne
    have hlinked : s.Linked p := h.held t p (by simp [hc, CallPc.holds, hp])
    simp only [hc, hp, hlinked, if_true, Option.some.injEq] at hs
    subst hs
    -- `p_server->dev` decides whether the uevent is sent
    split
    · next hdev =>
      refine h.goto ?_ (by simp) ?_
      · intro q hq
        obtain rfl : p = q := Option.some.inj hq
        exact hlinked
      · intro c' q hq
        cases hq
        exact ⟨hp, hdev, hsent⟩
    · next hdev => exact h.finish (by simp [Call.owed, hp, hdev, hsent])
  | send c p =>
    obtain ⟨hp, hdev, hsent⟩ := h.sending t c p hc
    have hlinked : s.Linked p := h.held t p (by simp [hc, CallPc.holds])
    simp only [hc, hlinked, if_true, Option.some.injEq] at hs
    subst hs
    exact h.finish (by simp [Call.owed, hp, hdev, hsent])

/-- **A guarded step keeps the invariant.** -/
theorem step (h : Inv server s) (hg : Guard vout2Serve server s a)
    (hs : step vout2Serve server s a = some s') : Inv server s' := by
  simp only [Vout.step, Option.ite_none_right_eq_some] at hs
  replace hs := hs.2
  cases a with
  | register index mem =>
    obtain rfl := Option.some.inj hs
    rcases register_eq vout2Serve server s index mem with he | he | ⟨m, p, -, hnew, he⟩ <;> rw [he]
    · exact h
    · exact h.corrupt
    · exact h.link hnew
  | unregister index mem =>
    obtain rfl := Option.some.inj hs
    rcases unregister_eq vout2Serve server s index mem with
      he | he | ⟨m, p, q, hp, hm, hq, he⟩ <;> rw [he]
    · exact h
    · exact h.corrupt
    · obtain ⟨hheld, hother⟩ := hg p hp m hm (by simp [hq])
      exact h.unlink hq hheld hother
  | setState index supported =>
    obtain rfl := Option.some.inj hs
    exact h.setState
  | lookup t index hint =>
    cases hc : s.call t with
    | idle =>
      simp only [hc, Option.some.injEq] at hs
      exact hs ▸ h.lookup hg
    | testDev c => simp [hc] at hs
    | send c p => simp [hc] at hs
  | call t => exact h.callStep hs

end Calls

end Inv

/-- **Hint calls are safe** along every run in which a server is selected when one looks it up, and
no server is unlinked that a hint call is using or the other module has selected: none dereferences
a `NULL` or an unregistered server, and each that has returned sent one uevent if its server has a
device, and none otherwise. -/
theorem hint_safe [DecidableEq σ] [DecidableEq τ] {as : List (Action σ τ)}
    (r : Run (step vout2Serve server) (Guard vout2Serve server) (boot σ τ) as s) :
    s.fault ≠ some .nullServer ∧ s.fault ≠ some .staleServer ∧
      ∀ c ∈ s.finished, c.sent = c.owed server := by
  have h := r.invariant Inv.boot fun _ _ _ h hg hs => h.step hg hs
  refine ⟨?_, ?_, h.finished⟩ <;> rcases h.fault with hf | hf <;> simp [hf]

/-- A server with a device is registered and selected, and 25 fps is hinted. -/
theorem hint_safe_selected :
    ∃ s : State Unit Unit, s.fault ≠ some .nullServer ∧ s.fault ≠ some .staleServer ∧
      ∃ c ∈ s.finished, c.sent = ["FRAME_RATE_HINT=3840".toList] ∧
        c.sent = c.owed fun _ => ⟨some "hdmitx", true, none, none⟩ := by
  obtain ⟨s, r, hs⟩ := exists_run_of_exec
    (step false fun _ => ⟨some "hdmitx", true, none, none⟩)
    (Guard false fun _ => ⟨some "hdmitx", true, none, none⟩) (boot Unit Unit)
    [.register 1 (some ()), .setState 1 (fun _ => some 1), .lookup () 1 (.rate 3840), .call (),
      .call ()]
    (fun s => ∃ c ∈ s.finished, c.sent = ["FRAME_RATE_HINT=3840".toList]) (by decide)
  obtain ⟨hnull, hstale, howed⟩ := hint_safe r
  obtain ⟨c, hc, hsent⟩ := hs
  exact ⟨s, hnull, hstale, c, hc, hsent, howed c hc⟩

/-- A hint before any server is registered dereferences `NULL` after the unlock. -/
theorem not_hint_safe :
    ¬ ∀ (σ τ : Type) (_ : DecidableEq σ) (_ : DecidableEq τ) (vout2Serve : Bool)
        (server : σ → Server) (as : List (Action σ τ)) (s : State σ τ),
      Run (step vout2Serve server) Always (boot σ τ) as s →
        s.fault ≠ some .nullServer ∧ s.fault ≠ some .staleServer ∧
          ∀ c ∈ s.finished, c.sent = c.owed server := by
  intro h
  obtain ⟨s, r, hs⟩ := exists_run_of_exec (step false fun _ => ⟨some "hdmitx", true, none, none⟩)
    Always (boot Unit Unit) [.lookup () 1 (.rate 3840), .call ()]
    (fun s => s.fault = some .nullServer) (by decide)
  exact (h Unit Unit _ _ _ _ _ s r).1 hs

end Vout
