import Akbuilder.Lib.Run
import Akbuilder.Media.Session

/-!
# The VC-1 decoder

VC-1 has no notify work: a timer schedules `vvc1_set_clk` over and over, and this work hints when
`frame_dur` differs from the duration it saw last, `saved_frame_dur`. Init and the end test use
`fr_hint_status` instead, which the work writes after it has delivered.

## Main definitions

* `Vc1.State`, `Vc1.start`, `Vc1.step`: a session
* `Vc1.Guard`: what keeps its hints apart and its log closed
* `Vc1.Inv`: the invariant of the sessions that obey it

## Main results

* `Vc1.vc1_hints_change`: a guarded session hints changes only; once its remove has returned the
  log is closed and no work is queued
* `Vc1.not_vc1_hints_change`: the first tick repeats the hint of init
-/

open Bracket Transition

namespace Media.Vc1

/-- The points of `vvc1_set_clk`. The test reads `frame_dur` and `saved_frame_dur`; the store of
`saved_frame_dur` and the delivery read `frame_dur` again. -/
inductive SetClkPc
  | test
  | save
  | deliver
  | mark
  deriving DecidableEq, Repr

/-- The steps of `amvdec_vc1_remove`. -/
inductive RemoveStep
  | cancelSetClk
  | stop
  | freeIrq
  | delTimer
  | endHint
  deriving DecidableEq, Repr

structure State where
  frameDur : Duration
  savedFrameDur : Duration
  frHintStatus : FrHintState
  setClkWork : Work SetClkPc
  irq : Bool
  timer : Bool
  todo : List RemoveStep
  log : List (Event Duration)

/-- A step: the interrupt handler stores a duration; the timer or a receiver re-initialises the
decoder; the timer schedules `vvc1_set_clk`; the work; the remove. -/
inductive Action
  | frame (rate : Duration)
  | localInit
  | tick
  | workStart
  | work
  | remove
  deriving DecidableEq, Repr

namespace State

variable {s s' : State} {a : Action}

/-- `vvc1_init`. -/
def start (rate : Duration) (isReset : Bool) : State :=
  let known := decide (rate ≠ 0) && !isReset
  { frameDur := 0
    savedFrameDur := 0
    frHintStatus := if known then .hinted else .needHint
    setClkWork := .idle
    irq := true
    timer := true
    todo := [.cancelSetClk, .stop, .freeIrq, .delTimer, .endHint]
    log := if known then [frHint rate] else [] }

/-- `vvc1_set_clk`, one step. -/
def workStep (s : State) : Option State :=
  s.setClkWork.running.map fun
  | .test =>
    if s.frameDur > 0 ∧ s.savedFrameDur ≠ s.frameDur then
      { s with setClkWork := s.setClkWork.goto .save }
    else { s with setClkWork := s.setClkWork.finish }
  | .save => { s with savedFrameDur := s.frameDur, setClkWork := s.setClkWork.goto .deliver }
  | .deliver =>
    { s with log := s.log ++ [frHint s.frameDur], setClkWork := s.setClkWork.goto .mark }
  | .mark => { s with frHintStatus := .hinted, setClkWork := s.setClkWork.finish }

/-- `amvdec_vc1_remove`, one step. -/
def removeStep (s : State) : RemoveStep → Option State
  | .cancelSetClk => s.setClkWork.cancelSync.map fun w => { s with setClkWork := w }
  | .stop => some s
  | .freeIrq => some { s with irq := false }
  | .delTimer => some { s with timer := false }
  | .endHint =>
    some { s with
      log := if s.frHintStatus = .hinted then s.log ++ [frEndHint] else s.log
      frHintStatus := .noNeedHint }

def step (s : State) : Action → Option State
  | .frame rate => if s.irq then some { s with frameDur := rate } else none
  | .localInit => some { s with frameDur := 0, savedFrameDur := 0 }
  | .tick => if s.timer then some { s with setClkWork := s.setClkWork.schedule } else none
  | .workStart => (s.setClkWork.start .test).map fun w => { s with setClkWork := w }
  | .work => s.workStep
  | .remove =>
    match s.todo with
    | [] => none
    | r :: rs => (s.removeStep r).map fun s' => { s' with todo := rs }

/-- The hint that `vvc1_set_clk` sends for `frame_dur = d` and `saved_frame_dur = saved` differs
from the last one. -/
def Apart (s : State) (d saved : Duration) : Prop :=
  match s.setClkWork.running with
  | none | some .test | some .mark => d = 0 ∨ d = saved ∨ lastOpen s.log ≠ some d
  | some .save => lastOpen s.log ≠ some d
  | some .deliver => lastOpen s.log ≠ some d ∧ (d = 0 ∨ d = saved)

/-- The work is going to hint. -/
def willHint (s : State) : Bool :=
  match s.setClkWork.running with
  | none | some .mark => false
  | some .test => decide (s.frameDur > 0 ∧ s.savedFrameDur ≠ s.frameDur)
  | some .save | some .deliver => true

/-- **What keeps a VC-1 session quiet and balanced**: a duration is stored, and the decoder
re-initialised, only when the hint this leads to differs from the last one; and when the remove
comes to its end test, `fr_hint_status` says `VDEC_HINTED` or nothing was hinted, and
`vvc1_set_clk` is neither queued nor going to hint. -/
def Guard (s : State) : Action → Prop
  | .frame rate => s.Apart rate s.savedFrameDur
  | .localInit => s.Apart 0 0
  | .remove =>
    s.todo.head? = some .endHint →
      (s.frHintStatus = .hinted ∨ s.log = []) ∧ s.setClkWork.queued = false ∧ s.willHint = false
  | .tick | .workStart | .work => True

instance (s : State) (d saved : Duration) : Decidable (s.Apart d saved) := by
  unfold Apart
  split <;> infer_instance

instance : ∀ (s : State) (a : Action), Decidable (Guard s a)
  | s, .frame _ => inferInstanceAs (Decidable (s.Apart _ _))
  | s, .localInit => inferInstanceAs (Decidable (s.Apart _ _))
  | _, .remove => inferInstanceAs (Decidable (_ → _))
  | _, .tick | _, .workStart | _, .work => isTrue trivial

/-- **The cases of a step.** -/
inductive Step (s : State) : Action → State → Prop
  | frame {rate : Duration} (hirq : s.irq = true) :
      Step s (.frame rate) { s with frameDur := rate }
  | localInit : Step s .localInit { s with frameDur := 0, savedFrameDur := 0 }
  | tick (htimer : s.timer = true) :
      Step s .tick { s with setClkWork := s.setClkWork.schedule }
  | workStart (hqueued : s.setClkWork.queued = true) (hrun : s.setClkWork.running = none) :
      Step s .workStart { s with setClkWork := ⟨false, some .test⟩ }
  | testHit (hrun : s.setClkWork.running = some .test) (hpos : s.frameDur > 0)
      (hne : s.savedFrameDur ≠ s.frameDur) :
      Step s .work { s with setClkWork := s.setClkWork.goto .save }
  | testMiss (hrun : s.setClkWork.running = some .test) :
      Step s .work { s with setClkWork := s.setClkWork.finish }
  | save (hrun : s.setClkWork.running = some .save) :
      Step s .work { s with savedFrameDur := s.frameDur, setClkWork := s.setClkWork.goto .deliver }
  | deliver (hrun : s.setClkWork.running = some .deliver) :
      Step s .work
        { s with log := s.log ++ [frHint s.frameDur], setClkWork := s.setClkWork.goto .mark }
  | mark (hrun : s.setClkWork.running = some .mark) :
      Step s .work { s with frHintStatus := .hinted, setClkWork := s.setClkWork.finish }
  | remove {r : RemoveStep} {rs : List RemoveStep} {t : State} (htodo : s.todo = r :: rs)
      (hstep : s.removeStep r = some t) : Step s .remove { t with todo := rs }

/-- **A step is one of the cases.** -/
theorem step_sound (h : s.step a = some s') : Step s a s' := by
  cases a with
  | frame rate =>
    simp only [step, Option.ite_none_right_eq_some, Option.some.injEq] at h
    obtain ⟨hirq, rfl⟩ := h
    exact .frame hirq
  | localInit =>
    obtain rfl := Option.some.inj h
    exact .localInit
  | tick =>
    simp only [step, Option.ite_none_right_eq_some, Option.some.injEq] at h
    obtain ⟨htimer, rfl⟩ := h
    exact .tick htimer
  | workStart =>
    obtain ⟨w, hw, rfl⟩ := Option.map_eq_some_iff.mp h
    obtain ⟨hq, hr, rfl⟩ := Work.start_eq_some.mp hw
    exact .workStart hq hr
  | work =>
    obtain ⟨pc, hpc, rfl⟩ := Option.map_eq_some_iff.mp h
    cases pc with
    | test =>
      dsimp only
      split
      · next hh => exact .testHit hpc hh.1 hh.2
      · exact .testMiss hpc
    | save => exact .save hpc
    | deliver => exact .deliver hpc
    | mark => exact .mark hpc
  | remove =>
    simp only [step] at h
    split at h
    · cases h
    · next r rs htodo =>
      obtain ⟨t, ht, rfl⟩ := Option.map_eq_some_iff.mp h
      exact .remove htodo ht

/-- The invariant of a guarded session. -/
structure Inv (s : State) : Prop where
  log : ChangeOnly s.log
  apart : s.Apart s.frameDur s.savedFrameDur
  suffix : s.todo ∈ [RemoveStep.cancelSetClk, .stop, .freeIrq, .delTimer, .endHint].tails
  freed : .freeIrq ∉ s.todo → s.irq = false
  deleted : .delTimer ∉ s.todo → s.timer = false
  marking : s.setClkWork.running = some .mark → s.log ≠ []
  before : s.todo ≠ [] → Opening s.log ∧ (s.frHintStatus = .hinted → s.log ≠ [])
  after : s.todo = [] → Closed s.log ∧ s.setClkWork.queued = false ∧ s.willHint = false

namespace Inv

theorem start (rate : Duration) (isReset : Bool) : Inv (start rate isReset) := by
  by_cases hk : rate = 0 <;> cases isReset <;> constructor <;>
    simp [State.start, hk, Apart, ChangeOnly, opens, Event.value?, Opening]

/-- The end test is the last step of the remove. -/
theorem todo_cons (h : Inv s) {r : RemoveStep} {rs : List RemoveStep} (htodo : s.todo = r :: rs) :
    rs ∈ [RemoveStep.cancelSetClk, .stop, .freeIrq, .delTimer, .endHint].tails ∧
      (rs = [] ↔ r = .endHint) := by
  have hs := h.suffix
  -- one case for each step of the remove
  simp only [htodo, List.tails, List.mem_cons, List.cons.injEq, List.not_mem_nil, or_false,
    reduceCtorEq] at hs
  rcases hs with ⟨rfl, rfl⟩ | ⟨rfl, rfl⟩ | ⟨rfl, rfl⟩ | ⟨rfl, rfl⟩ | ⟨rfl, rfl⟩ <;> decide

/-- A duration is stored. -/
theorem store (h : Inv s) {d saved : Duration} (hapart : s.Apart d saved)
    (hquiet : s.todo = [] → d = 0) : Inv { s with frameDur := d, savedFrameDur := saved } := by
  refine ⟨h.log, hapart, h.suffix, h.freed, h.deleted, h.marking, h.before, ?_⟩
  intro ht
  obtain ⟨hc, hq, hw⟩ := h.after ht
  refine ⟨hc, hq, ?_⟩
  obtain rfl := hquiet ht
  cases hr : s.setClkWork.running with
  | none => simp [willHint, hr]
  | some pc => cases pc <;> simp_all [willHint]

/-- The work goes on without a hint. -/
theorem work (h : Inv s) {w : Work SetClkPc} {saved : Duration}
    (hapart : Apart { s with setClkWork := w, savedFrameDur := saved } s.frameDur saved)
    (hmark : w.running = some .mark → s.setClkWork.running = some .mark)
    (hafter : s.todo = [] → w.queued = false ∧
      willHint { s with setClkWork := w, savedFrameDur := saved } = false) :
    Inv { s with setClkWork := w, savedFrameDur := saved } where
  log := h.log
  apart := hapart
  suffix := h.suffix
  freed := h.freed
  deleted := h.deleted
  marking hr := h.marking (hmark hr)
  before := h.before
  after ht := ⟨(h.after ht).1, hafter ht⟩

/-- A session whose work is going to hint has its end test to come. -/
theorem todo_ne_nil (h : Inv s) (hw : s.willHint = true) : s.todo ≠ [] := by
  intro ht
  simp [(h.after ht).2.2] at hw

/-- A step of the remove before the end test. -/
theorem pop (h : Inv s) {r : RemoveStep} {rs : List RemoveStep} (htodo : s.todo = r :: rs)
    (hr : r ≠ .endHint) (hirq : .freeIrq ∉ rs → s'.irq = false)
    (htimer : .delTimer ∉ rs → s'.timer = false)
    (hrun : s'.setClkWork.running = s.setClkWork.running)
    (hrest : s'.frameDur = s.frameDur ∧ s'.savedFrameDur = s.savedFrameDur ∧
      s'.frHintStatus = s.frHintStatus ∧ s'.log = s.log) (hrs : s'.todo = rs) : Inv s' := by
  obtain ⟨hd, hsaved, hstatus, hlog⟩ := hrest
  obtain ⟨hsuffix, hlast⟩ := h.todo_cons htodo
  have hne : rs ≠ [] := fun h => hr (hlast.mp h)
  constructor
  · rw [hlog]; exact h.log
  · simp only [Apart, hrun, hd, hsaved, hlog]; exact h.apart
  · rw [hrs]; exact hsuffix
  · rw [hrs]; exact hirq
  · rw [hrs]; exact htimer
  · rw [hrun, hlog]; exact h.marking
  · rw [hstatus, hlog]; exact fun _ => h.before (by simp [htodo])
  · rw [hrs]; exact fun he => absurd he hne

/-- **The end test** closes the log. -/
theorem endHint (h : Inv s) {rs : List RemoveStep} (htodo : s.todo = .endHint :: rs)
    (hg : (s.frHintStatus = .hinted ∨ s.log = []) ∧ s.setClkWork.queued = false ∧
      s.willHint = false) :
    Inv { s with
      log := if s.frHintStatus = .hinted then s.log ++ [frEndHint] else s.log
      frHintStatus := .noNeedHint
      todo := rs } := by
  obtain ⟨hsuffix, hlast⟩ := h.todo_cons htodo
  obtain rfl : rs = [] := hlast.mpr rfl
  obtain ⟨hopening, hne⟩ := h.before (by simp [htodo])
  have hlog : lastOpen (if s.frHintStatus = .hinted then s.log ++ [frEndHint] else s.log) =
      lastOpen s.log := by split <;> simp
  constructor
  · dsimp only
    split
    · exact h.log.snoc_closed
    · exact h.log
  · simp only [Apart, hlog]
    exact h.apart
  · exact hsuffix
  · exact fun _ => h.freed (by simp [htodo])
  · exact fun _ => h.deleted (by simp [htodo])
  · intro hr
    dsimp only
    split
    · simp
    · exact h.marking hr
  · simp
  · refine fun _ => ⟨?_, hg.2.1, hg.2.2⟩
    dsimp only
    split
    · next hh => exact hopening.close (hne hh)
    · next hh => exact hg.1.resolve_left hh ▸ .nil

/-- **A step of the remove.** -/
theorem remove (h : Inv s) {r : RemoveStep} {rs : List RemoveStep} {t : State}
    (htodo : s.todo = r :: rs) (ht : s.removeStep r = some t) (hg : Guard s .remove) :
    Inv { t with todo := rs } := by
  -- what the rest of the remove no longer has to do is done by this step or was done before
  have hirq (hr : r ≠ .freeIrq) (hf : .freeIrq ∉ rs) : s.irq = false :=
    h.freed (by simp [htodo, hr.symm, hf])
  have htimer (hr : r ≠ .delTimer) (hd : .delTimer ∉ rs) : s.timer = false :=
    h.deleted (by simp [htodo, hr.symm, hd])
  cases r with
  | cancelSetClk =>
    obtain ⟨w, hw, rfl⟩ := Option.map_eq_some_iff.mp ht
    obtain ⟨hrun, rfl⟩ := Work.cancelSync_eq_some.mp hw
    exact h.pop htodo (by simp) (hirq (by simp)) (htimer (by simp)) hrun.symm
      ⟨rfl, rfl, rfl, rfl⟩ rfl
  | stop =>
    obtain rfl := Option.some.inj ht
    exact h.pop htodo (by simp) (hirq (by simp)) (htimer (by simp)) rfl ⟨rfl, rfl, rfl, rfl⟩ rfl
  | freeIrq =>
    obtain rfl := Option.some.inj ht
    exact h.pop htodo (by simp) (fun _ => rfl) (htimer (by simp)) rfl ⟨rfl, rfl, rfl, rfl⟩ rfl
  | delTimer =>
    obtain rfl := Option.some.inj ht
    exact h.pop htodo (by simp) (hirq (by simp)) (fun _ => rfl) rfl ⟨rfl, rfl, rfl, rfl⟩ rfl
  | endHint =>
    obtain rfl := Option.some.inj ht
    exact h.endHint htodo (hg (by simp [htodo]))

/-- **A guarded step keeps the invariant.** -/
theorem step (h : Inv s) (hg : Guard s a) (hs : s.step a = some s') : Inv s' := by
  have hapart := h.apart
  cases step_sound hs with
  | frame hirq =>
    refine h.store hg ?_
    intro ht
    -- the interrupt was freed by the remove
    simp [h.freed (by simp [ht])] at hirq
  | localInit => exact h.store hg fun _ => rfl
  | tick htimer =>
    refine h.work hapart id ?_
    intro ht
    -- and the timer deleted
    simp [h.deleted (by simp [ht])] at htimer
  | workStart hq hr =>
    refine h.work ?_ (by simp) ?_
    · simpa [Apart, hr] using hapart
    · intro ht
      simp [(h.after ht).2.1] at hq
  | testHit hr hpos hne =>
    refine h.work ?_ (by simp) ?_
    · have h0 : s.frameDur ≠ 0 := by
        intro h0
        simp [h0] at hpos
      simpa [Apart, hr, h0, hne.symm] using hapart
    · intro ht
      exact absurd ht (h.todo_ne_nil (by simp [willHint, hr, hpos, hne]))
  | testMiss hr =>
    refine h.work ?_ (by simp) fun ht => ⟨(h.after ht).2.1, rfl⟩
    simpa [Apart, hr] using hapart
  | save hr =>
    refine h.work ?_ (by simp) ?_
    · have : lastOpen s.log ≠ some s.frameDur := by simpa [Apart, hr] using hapart
      simpa [Apart] using this
    · intro ht
      exact absurd ht (h.todo_ne_nil (by simp [willHint, hr]))
  | deliver hr =>
    obtain ⟨hl, hd⟩ : lastOpen s.log ≠ some s.frameDur ∧
        (s.frameDur = 0 ∨ s.frameDur = s.savedFrameDur) := by simpa [Apart, hr] using hapart
    have hne := h.todo_ne_nil (by simp [willHint, hr])
    refine ⟨h.log.snoc hl, ?_, h.suffix, h.freed, h.deleted, by simp, ?_, ?_⟩
    · -- the next test will find the duration saved, unless another is stored
      rcases hd with hd | hd <;> simp [Apart, hd]
    · intro _
      exact ⟨(h.before hne).1.snoc_opened, by simp⟩
    · intro ht
      exact absurd ht hne
  | mark hr =>
    have hlog := h.marking hr
    refine ⟨h.log, ?_, h.suffix, h.freed, h.deleted, by simp, ?_, ?_⟩
    · simpa [Apart, hr] using hapart
    · intro ht
      exact ⟨(h.before ht).1, fun _ => hlog⟩
    · intro ht
      exact ⟨(h.after ht).1, (h.after ht).2.1, rfl⟩
  | remove htodo ht => exact h.remove htodo ht hg

end Inv

end State

/-- **VC-1 hints** carry changes only along every run that stores no duration leading to the hint
sent last, and whose end test meets a truthful `fr_hint_status` and no work that is queued or going
to hint. Once the remove has returned, one `FR_END_HINT` follows the last `FR_HINT` if there was
any, none was sent otherwise, and no work is queued. -/
theorem vc1_hints_change {rate : Duration} {isReset : Bool} {as : List Action} {s : State}
    (r : Run State.step State.Guard (State.start rate isReset) as s) :
    ChangeOnly s.log ∧ (s.todo = [] → Closed s.log ∧ s.setClkWork.queued = false) := by
  have h := r.invariant (.start rate isReset) fun _ _ _ h hg hs => State.Inv.step h hg hs
  exact ⟨h.log, fun ht => ⟨(h.after ht).1, (h.after ht).2.1⟩⟩

/-- A session without a `sys_info` rate: 25 fps, then 24 fps. -/
theorem vc1_hints_change_two_rates :
    ∃ s : State, s.todo = [] ∧ s.log = [frHint 3840, frHint 4000, frEndHint] ∧
      ChangeOnly s.log ∧ Closed s.log := by
  obtain ⟨s, r, htodo, hlog⟩ := exists_run_of_exec State.step State.Guard
    (State.start 0 false)
    [.frame 3840, .tick, .workStart, .work, .work, .work, .work, .frame 4000, .tick, .workStart,
      .work, .work, .work, .work, .remove, .remove, .remove, .remove, .remove]
    (fun s => s.todo = [] ∧ s.log = [frHint 3840, frHint 4000, frEndHint]) (by decide)
  obtain ⟨hchange, hend⟩ := vc1_hints_change r
  exact ⟨s, htodo, hlog, hchange, (hend htodo).1⟩

/-- The first tick after a frame repeats the hint that init has sent for the `sys_info` rate. -/
theorem not_vc1_hints_change :
    ¬ ∀ (rate : Duration) (isReset : Bool) (as : List Action) (s : State),
      Run State.step Always (State.start rate isReset) as s →
        ChangeOnly s.log ∧ (s.todo = [] → Closed s.log ∧ s.setClkWork.queued = false) := by
  intro h
  obtain ⟨s, r, hlog⟩ := exists_run_of_exec State.step Always
    (State.start 3840 false)
    [.frame 3840, .tick, .workStart, .work, .work, .work] (fun s => ¬ ChangeOnly s.log) (by decide)
  exact hlog (h _ _ _ s r).1

end Media.Vc1
