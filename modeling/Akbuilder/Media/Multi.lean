import Akbuilder.Media.Owner

/-!
# Multi-instance sessions

The multi-instance decoders under the core: one of them at most hints, and the session of the one
that does is balanced. Neither the duration code of the decoders nor their notify works look at the
owner, so both rest on the order of the steps.

## Main definitions

* `MultiDecoder`: the multi-instance decoders

## Main results

* `MultiDecoder.closed_on_release`: the session of an owner is closed once it is released
* `MultiDecoder.not_closed_on_release`: a change pending at the release loses `FR_END_HINT`
* `MultiDecoder.single_owner`: only the owner hints
* `MultiDecoder.not_single_owner`: a second instance that finds a rate becomes a second hinter
-/

open Bracket Transition

namespace Media

/-- The multi-instance decoders. -/
inductive MultiDecoder
  | h264
  | h265
  | mpeg12
  deriving DecidableEq, Repr

namespace MultiDecoder

def driver : MultiDecoder → Driver
  | h264 => H264Multi.driver
  | h265 => H265.multiDriver
  | mpeg12 => Mpeg12.multiDriver

theorem releaseOrder (k : MultiDecoder) : World.ReleaseOrder k.driver := by
  cases k <;> constructor <;> decide

theorem usesFrHintState (k : MultiDecoder) : World.UsesFrHintState k.driver := by
  cases k <;> exact ⟨rfl, rfl⟩

variable {ι : Type} [DecidableEq ι] {kind : ι → MultiDecoder}

/-- The core with an instance of the given decoder at each index. -/
abbrev Core (kind : ι → MultiDecoder) := World fun i => (kind i).driver

/-- **The hints of an owner are balanced** along every run in which the end test of `vdec_release`
finds `VDEC_HINTED`, or no hint sent, with no hint about to be delivered, and the notify work finds
no request after it. From the end of its release on, the log of the instance that
`hint_fr_vdec` pointed to is closed. -/
theorem closed_on_release {i : ι} {as bs : List (World.Action fun i => (kind i).driver)}
    {w w' : Core kind} (r : Run World.step (World.BalanceGuard i) (World.empty _) as w)
    (howner : w.hintFrVdec = some i) (r' : Run World.step (World.BalanceGuard i) w bs w')
    {s : Session (kind i).driver} (hi : w'.inst i = some s) (hreleased : s.todo = []) :
    Closed s.log :=
  World.closed_of_run (fun i => (kind i).releaseOrder) r howner r' hi hreleased

/-- A 30 fps H.264 instance beside an MPEG-2 one: it finds 24 fps, hints it, and is released. -/
theorem closed_on_release_h264 :
    ∃ (w : Core fun b : Bool => if b then h264 else mpeg12) (s : Session H264Multi.driver),
      w.inst true = some s ∧ s.log = [frHint 3200, frHint 4000, frEndHint] ∧ Closed s.log := by
  obtain ⟨w, r, howner, hw⟩ := exists_run_of_exec World.step
    (World.BalanceGuard true)
    (World.empty fun b : Bool => (if b then h264 else mpeg12).driver)
    [.vdecInit true ⟨3200, false, false⟩ false, .vdecInit false (3840 : Duration) false]
    (fun w => w.hintFrVdec = some true ∧
      (exec World.step (World.BalanceGuard true) w
        ([.update ⟨2, 0, 1, 48⟩, .handler, .handler, .workStart, .work, .work, .work, .work,
          .remove, .remove, .remove, .remove, .remove, .remove, .remove, .remove].map
            (.act true))).any
        (fun w => (w.inst true).any fun s =>
          s.todo = [] ∧ s.log = [frHint 3200, frHint 4000, frEndHint]) = true) (by decide)
  obtain ⟨w', r', hw'⟩ := exists_run_of_exec _ _ w _
    (fun w' => (w'.inst true).any (fun s =>
      s.todo = [] ∧ s.log = [frHint 3200, frHint 4000, frEndHint]) = true) (by simpa using hw)
  obtain ⟨s, hi, hs⟩ := (Option.any_eq_true _ _).mp hw'
  obtain ⟨htodo, hlog⟩ := of_decide_eq_true hs
  exact ⟨w', s, hi, hlog, closed_on_release r howner r' hi htodo⟩

/-- A change that `vui_config` finds and the notify work has not delivered at the release leaves
`fr_hint_state` at `VDEC_NEED_HINT`, and the hint of init without its end. -/
theorem not_closed_on_release :
    ¬ ∀ (ι : Type) (_ : DecidableEq ι) (kind : ι → MultiDecoder) (i : ι)
        (as bs : List (World.Action fun i => (kind i).driver)) (w w' : Core kind)
        (s : Session (kind i).driver), kind i = h264 →
      Run World.step Always (World.empty _) as w → w.hintFrVdec = some i →
        Run World.step Always w bs w' → w'.inst i = some s → s.todo = [] → Closed s.log := by
  intro h
  obtain ⟨w, r, howner, hw⟩ := exists_run_of_exec World.step Always
    (World.empty fun _ : Unit => h264.driver)
    [.vdecInit () ⟨3200, false, false⟩ false]
    (fun w => w.hintFrVdec = some () ∧
      (exec World.step Always w
        ([.update ⟨2, 0, 1, 48⟩, .handler, .handler, .remove, .remove, .remove, .remove, .remove,
          .remove, .remove, .remove].map (.act ()))).any
        (fun w => (w.inst ()).any fun s => s.todo = [] ∧ ¬ Closed s.log) = true) (by decide)
  obtain ⟨w', r', hw'⟩ := exists_run_of_exec _ _ w _
    (fun w' => (w'.inst ()).any (fun s => s.todo = [] ∧ ¬ Closed s.log) = true) (by simpa using hw)
  obtain ⟨s, hi, hs⟩ := (Option.any_eq_true _ _).mp hw'
  obtain ⟨htodo, hlog⟩ := of_decide_eq_true hs
  exact hlog (h Unit _ (fun _ => h264) () _ _ w w' s rfl r howner r' hi htodo)

/-- **Single ownership** along every run in which only the owner writes `VDEC_NEED_HINT` and gives
the hint up with nothing pending: `hint_fr_vdec` is `NULL` or points to a live instance, an instance
that is not the owner has no request, and every notification is the owner's. -/
theorem single_owner {as : List (World.Action fun i => (kind i).driver)} {w : Core kind}
    (r : Run World.step World.OwnershipGuard (World.empty _) as w) :
    (∀ i, w.hintFrVdec = some i → ∃ s, w.inst i = some s ∧ s.todo ≠ []) ∧
      (∀ i s, w.inst i = some s → w.hintFrVdec ≠ some i → s.hint .frHintState = .noNeedHint) ∧
      ∀ a w' i, w.step a = some w' → w'.log i ≠ w.log i → w'.hintFrVdec = some i := by
  have h := World.singleOwner_of_run (fun i => (kind i).usesFrHintState) r
  refine ⟨?_, ?_, ?_⟩
  · intro i howner
    obtain ⟨s, hi, hmem⟩ := World.owner_alive (fun i => (kind i).releaseOrder) r i howner
    exact ⟨s, hi, List.ne_nil_of_mem hmem⟩
  · intro i s hi hne
    exact ((h i s hi).2 hne).1
  · intro a w' i hs hlog
    exact h.log_step hs hlog

/-- Two H.264 instances; the second is initialised while the first owns the hint, and both play at
the rate given at init. -/
theorem single_owner_two_instances :
    ∃ w : Core fun _ : Bool => h264, w.hintFrVdec = some true ∧ (w.inst false).isSome = true ∧
      ∀ s, w.inst false = some s → s.hint .frHintState = .noNeedHint := by
  obtain ⟨w, r, howner, hsome⟩ := exists_run_of_exec World.step
    World.OwnershipGuard (World.empty fun _ : Bool => h264.driver)
    [.vdecInit true ⟨3200, false, false⟩ false, .vdecInit false ⟨3840, false, false⟩ false,
      .act false (.update ⟨2, 0, 1, 50⟩)]
    (fun w => w.hintFrVdec = some true ∧ (w.inst false).isSome = true) (by decide)
  exact ⟨w, howner, hsome, fun s hi => (single_owner r).2.1 false s hi (by simp [howner])⟩

/-- The second of two H.264 instances finds another rate in its stream: it requests a hint, and its
notify work delivers it in the place of the owner. -/
theorem not_single_owner :
    ¬ ∀ (ι : Type) (_ : DecidableEq ι) (kind : ι → MultiDecoder)
        (as : List (World.Action fun i => (kind i).driver)) (w : Core kind),
      Run World.step Always (World.empty _) as w →
        (∀ i, w.hintFrVdec = some i → ∃ s, w.inst i = some s ∧ s.todo ≠ []) ∧
          (∀ i s, w.inst i = some s → w.hintFrVdec ≠ some i →
            s.hint .frHintState = .noNeedHint) ∧
          ∀ a w' i, w.step a = some w' → w'.log i ≠ w.log i → w'.hintFrVdec = some i := by
  intro h
  obtain ⟨w, r, howner, hw⟩ := exists_run_of_exec World.step Always
    (World.empty fun _ : Bool => h264.driver)
    [.vdecInit true ⟨3200, false, false⟩ false, .vdecInit false ⟨3200, false, false⟩ false,
      .act false (.update ⟨2, 0, 1, 48⟩), .act false .handler]
    (fun w => w.hintFrVdec = some true ∧
      (w.inst false).any (fun s => s.hint .frHintState = .needHint) = true) (by decide)
  obtain ⟨s, hi, hs⟩ := (Option.any_eq_true _ _).mp hw
  have hneed := of_decide_eq_true hs
  have hnone := (h Bool _ (fun _ => h264) _ w r).2.1 false s hi (by simp [howner])
  simp [hneed] at hnone

end MultiDecoder

end Media
