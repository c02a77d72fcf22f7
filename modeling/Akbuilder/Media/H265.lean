import Akbuilder.Media.Multi

/-!
# H.265 sessions

The slice header writes `vdec->fr_hint_state` in both modes. In a single-instance session the end
test reads `fr_hint_status`, which init has set and nothing resets, so its one `FR_END_HINT` is
certain, but a hint can follow it. In a multi-instance session the end test of `vdec_release` reads
`fr_hint_state`, which every slice header with timing sets back to `VDEC_NEED_HINT`.

## Main definitions

* `Session.EndOnceInv`: the end test will find, or has found, a session that hinted

## Main results

* `H265.sessions_closed`: one `FR_END_HINT` in single mode; closed sessions in both modes
* `H265.not_sessions_closed`: two slice headers lose the `FR_END_HINT` of a multi-instance session
-/

open Bracket Transition

namespace Media

namespace Session

variable {D : Driver} {own : Bool} {s s' : Session D} {a : Action D}

/-- The invariant of a session that hinted at init and whose requests leave the end variable
alone. -/
structure EndOnceInv (s : Session D) : Prop where
  once : s.todo.count .endHint ≤ 1
  hinted : opens s.log ≠ []
  before : .endHint ∈ s.todo → s.hint D.own = .hinted ∧ s.log.count .closed = 0
  after : .endHint ∉ s.todo → s.log.count .closed = 1

namespace EndOnceInv

theorem start (hremove : D.remove.count .endHint = 1) {c : D.Config}
    (hdur : D.initDur (D.init c) ≠ 0) : EndOnceInv (start D true c false) := by
  have hmem : .endHint ∈ D.remove := List.count_pos_iff.mp (by omega)
  constructor
  · exact hremove.le
  · simp [Session.start, hdur, opens, Event.value?]
  · simp [Session.start, hdur]
  · exact fun h => absurd hmem h

theorem congr (h : EndOnceInv s) (htodo : s'.todo = s.todo) (hlog : s'.log = s.log)
    (hhint : s.hint D.own = .hinted → s'.hint D.own = .hinted) : EndOnceInv s' := by
  constructor
  · rw [htodo]; exact h.once
  · rw [hlog]; exact h.hinted
  · rw [htodo, hlog]; exact fun hm => ⟨hhint (h.before hm).1, (h.before hm).2⟩
  · rw [htodo, hlog]; exact h.after

theorem snoc (h : EndOnceInv s) {d : Duration} {w : Work NotifyPc} :
    EndOnceInv { s with log := s.log ++ [frHint d], notifyWork := w } := by
  refine ⟨h.once, by simp, ?_, ?_⟩
  · intro hm
    exact ⟨(h.before hm).1, by simpa using (h.before hm).2⟩
  · intro hm
    simpa using h.after hm

theorem pop (h : EndOnceInv s) {r : RemoveStep} {rs : List RemoveStep} (htodo : s.todo = r :: rs)
    (hr : r ≠ .endHint) : EndOnceInv { s with todo := rs } := by
  have hmem : .endHint ∈ s.todo ↔ .endHint ∈ rs := by simp [htodo, hr.symm]
  constructor
  · exact count_tail_le h.once htodo
  · exact h.hinted
  · exact fun hm => h.before (hmem.mpr hm)
  · exact fun hm => h.after (hmem.not.mpr hm)

/-- **Every step keeps the invariant.** -/
theorem step (hD : D.request ≠ D.own) (h : EndOnceInv s) (hs : s.step true a = some s') :
    EndOnceInv s' := by
  cases step_sound hs with
  | irq | store | inactive | drift | schedule | workStart | testNone | testMark | testRead | read
  | reset | resetCancel => exact h.congr rfl rfl id
  | mark =>
    -- requests are made in the other variable
    exact h.congr rfl rfl (by simp [Function.update_of_ne hD.symm])
  | @workMark v | @workMarkAfter v =>
    exact h.congr rfl rfl (hint_mark (P := (· = .hinted)) rfl v)
  | deliverLast | deliver => exact h.snoc
  | remove htodo ht =>
    rcases removeStep_cases ht with ⟨rfl, rfl⟩ | ⟨hr, -, hhint, hlog, -⟩
    · obtain ⟨hhinted, hcount⟩ := h.before (by simp [htodo])
      have hrs := endHint_notMem h.once htodo
      constructor
      · exact count_tail_le h.once htodo
      · simpa [Session.endHint, hhinted] using h.hinted
      · exact fun hm => absurd hm hrs
      · exact fun _ => by simp [Session.endHint, hhinted, hcount]
    · exact (h.pop htodo hr).congr rfl hlog (fun hh => (congrFun hhint _).trans hh)
  | timeout htodo => exact h.pop htodo (by simp)

end EndOnceInv

end Session

namespace H265

theorem frameDur_localInit_ne_zero (rate : Duration) : (localInit rate).frameDur ≠ 0 := by
  by_cases h : rate = 0 <;> simp [localInit, h]

/-- **H.265 hints are balanced.** A single-instance session sends exactly one `FR_END_HINT` if it
hinted, in every run. A session of either mode is closed along every run in which the end test finds
`VDEC_HINTED`, or no hint sent, with no hint about to be delivered, and the notify work finds no
request after it. -/
theorem sessions_closed {ι : Type} [DecidableEq ι] (kind : ι → MultiDecoder) (i : ι)
    (rate : Duration) :
    (∀ (as : List (Session.Action singleDriver)) (s : Session singleDriver),
      Run (Session.step true) Always (Session.start singleDriver true rate false) as s →
        s.todo = [] → s.log.count .closed = if opens s.log = [] then 0 else 1) ∧
    (∀ (isReset : Bool) (as : List (Session.Action singleDriver)) (s : Session singleDriver),
      Run (Session.step true) Session.BalanceGuard (Session.start singleDriver true rate isReset)
        as s → s.todo = [] → Closed s.log) ∧
    ∀ (as bs : List (World.Action fun i => (kind i).driver)) (w w' : MultiDecoder.Core kind)
        (s : Session (kind i).driver), kind i = .h265 →
      Run World.step (World.BalanceGuard i) (World.empty _) as w → w.hintFrVdec = some i →
        Run World.step (World.BalanceGuard i) w bs w' → w'.inst i = some s → s.todo = [] →
          Closed s.log := by
  have hremove : singleDriver.remove.count .endHint = 1 := by decide
  refine ⟨?_, ?_, ?_⟩
  · -- the count, in every run of a single-instance session
    intro as s r htodo
    have h := r.invariant (.start hremove (frameDur_localInit_ne_zero rate))
      fun _ _ _ h _ hs => Session.EndOnceInv.step (by decide) h hs
    rw [h.after (by simp [htodo]), if_neg h.hinted]
  · -- the order of the notifications, in a guarded one
    intro isReset as s r htodo
    have h := r.invariant (.start hremove rate isReset)
      fun _ _ _ h hg hs => Session.BalanceInv.step h (fun _ => rfl) hg hs
    exact (h.closed (by simp [htodo])).1
  · -- the multi-instance session of an owner
    intro as bs w w' s _ r howner r' hi htodo
    exact World.closed_of_run (fun i => (kind i).releaseOrder) r howner r' hi htodo

/-- One slice header at 25 fps in a session of each mode. -/
theorem sessions_closed_one_header :
    (∃ s : Session singleDriver, s.log = [frHint 3600, frHint 3840, frEndHint] ∧ Closed s.log) ∧
      ∃ s : Session multiDriver, s.log = [frHint 3840, frEndHint] ∧ Closed s.log := by
  constructor
  · obtain ⟨s, r, htodo, hlog⟩ := exists_run_of_exec (Session.step true)
      Session.BalanceGuard (Session.start singleDriver true (0 : Duration) false)
      [.update ⟨1, 25⟩, .handler, .handler, .workStart, .work, .work, .work, .work,
        .remove, .remove, .remove, .remove, .remove]
      (fun s => s.todo = [] ∧ s.log = [frHint 3600, frHint 3840, frEndHint]) (by decide)
    exact ⟨s, hlog, (sessions_closed (fun _ : Unit => .h265) () 0).2.1 false _ s r htodo⟩
  · obtain ⟨w, r, howner, hw⟩ := exists_run_of_exec World.step
      (World.BalanceGuard ()) (World.empty fun _ : Unit => multiDriver)
      [.vdecInit () (⟨0, true⟩ : MultiConfig) false]
      (fun w => w.hintFrVdec = some () ∧
        (exec World.step (World.BalanceGuard ()) w
          ([.update ⟨1, 25⟩, .handler, .handler, .workStart, .work, .work, .work, .work, .remove,
            .remove, .remove, .remove, .remove, .remove, .remove, .remove].map (.act ()))).any
          (fun w => (w.inst ()).any fun s =>
            s.todo = [] ∧ s.log = [frHint 3840, frEndHint]) = true) (by decide)
    obtain ⟨w', r', hw'⟩ := exists_run_of_exec _ _ w _
      (fun w' => (w'.inst ()).any (fun s =>
        s.todo = [] ∧ s.log = [frHint 3840, frEndHint]) = true) (by simpa using hw)
    obtain ⟨s, hi, hs⟩ := (Option.any_eq_true _ _).mp hw'
    obtain ⟨htodo, hlog⟩ := of_decide_eq_true hs
    exact ⟨s, hlog,
      (sessions_closed (fun _ : Unit => .h265) () 0).2.2 _ _ w w' s rfl r howner r' hi htodo⟩

/-- The second slice header of a multi-instance session is a request that nothing delivers: the
release finds `VDEC_NEED_HINT` and sends no `FR_END_HINT`. -/
theorem not_sessions_closed :
    ¬ ∀ (ι : Type) (_ : DecidableEq ι) (kind : ι → MultiDecoder) (i : ι)
        (as bs : List (World.Action fun i => (kind i).driver)) (w w' : MultiDecoder.Core kind)
        (s : Session (kind i).driver), kind i = .h265 →
      Run World.step Always (World.empty _) as w → w.hintFrVdec = some i →
        Run World.step Always w bs w' → w'.inst i = some s → s.todo = [] →
          s.log.count .closed = if opens s.log = [] then 0 else 1 := by
  intro h
  obtain ⟨w, r, howner, hw⟩ := exists_run_of_exec World.step Always
    (World.empty fun _ : Unit => multiDriver) [.vdecInit () (⟨0, true⟩ : MultiConfig) false]
    (fun w => w.hintFrVdec = some () ∧
      (exec World.step Always w
        ([.update ⟨1, 25⟩, .handler, .handler, .workStart, .work, .work, .work, .work,
          .update ⟨1, 25⟩, .handler, .remove, .remove, .remove, .remove, .remove, .remove, .remove,
          .remove].map (.act ()))).any
        (fun w => (w.inst ()).any fun s => s.todo = [] ∧ s.log = [frHint 3840]) = true) (by decide)
  obtain ⟨w', r', hw'⟩ := exists_run_of_exec _ _ w _
    (fun w' => (w'.inst ()).any (fun s => s.todo = [] ∧ s.log = [frHint 3840]) = true)
    (by simpa using hw)
  obtain ⟨s, hi, hs⟩ := (Option.any_eq_true _ _).mp hw'
  obtain ⟨htodo, hlog⟩ := of_decide_eq_true hs
  have hcount := h Unit _ (fun _ => .h265) () _ _ w w' s rfl r howner r' hi htodo
  rw [hlog] at hcount
  exact absurd hcount (by decide)

end H265

end Media
