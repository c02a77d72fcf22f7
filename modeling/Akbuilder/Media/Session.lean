import Akbuilder.Lib.Run
import Akbuilder.Lib.Work
import Akbuilder.Lib.Bracket
import Mathlib.Data.List.Infix
import Mathlib.Logic.Function.Basic

/-!
# A decoder session and its frame-rate hints

One session of a decoder, from its init to the end of its remove, as a system of atomic steps
on the hint variables, the variables the frame duration is computed from, and the log of
`VFRAME_EVENT_PROVIDER_FR_HINT` and `VFRAME_EVENT_PROVIDER_FR_END_HINT` notifications. Three
parties take steps in any order: the code that determines the duration (an interrupt handler,
or a work it queues), the notify work, and the thread that removes the decoder.

The decoders differ in the code that determines the duration, in the variables they test and in
the order of their remove; a `Driver` collects what differs.

## Main definitions

* `Driver`: what one decoder has of its own
* `Session D`, `Session.start`, `Session.step`: the session of a decoder
* `Session.Step`: what one step can do, case by case

## Main results

* `Session.step_sound`: a step of the session is one of the cases of `Session.Step`
-/

open Bracket

namespace Media

/-- A frame duration in units of 1/96000 s. -/
abbrev Duration := UInt32

/-- The values of `vdec->fr_hint_state` and of the static `fr_hint_status`. -/
inductive FrHintState
  | noNeedHint
  | needHint
  | hinted
  deriving DecidableEq, Repr

/-- The variables that hold an `FrHintState`. -/
inductive HintVar
  | frHintState
  | frHintStatus
  deriving DecidableEq, Repr

/-- `VFRAME_EVENT_PROVIDER_FR_HINT`, with the duration it carries. -/
abbrev frHint (d : Duration) : Event Duration := .opened d

/-- `VFRAME_EVENT_PROVIDER_FR_END_HINT`. -/
abbrev frEndHint : Event Duration := .closed

/-- What a notify work does first once it has found a request: mark it served, or deliver. -/
inductive NotifyOrder
  | markFirst
  | deliverFirst
  deriving DecidableEq, Repr

/-- The points of a notify work, each before one read or write of shared state. The variable is
the one the request was found in. -/
inductive NotifyPc
  | test
  | mark (v : HintVar)
  | read (v : HintVar)
  | deliver (v : HintVar) (d : Duration)
  | markAfter (v : HintVar)
  deriving DecidableEq, Repr

/-- The notify work has found a request and not delivered it yet. -/
def NotifyPc.inFlight : NotifyPc → Bool
  | .test | .markAfter _ => false
  | .mark _ | .read _ | .deliver _ _ => true

/-- The variable a notify work has found its request in. -/
def NotifyPc.var? : NotifyPc → Option HintVar
  | .test => none
  | .mark v | .read v | .deliver v _ | .markAfter v => some v

/-- The points of the code that requests a hint: it has stored the new duration and is about to
write `VDEC_NEED_HINT`, then to schedule the notify work. -/
inductive HandlerPc
  | idle
  | marking
  | scheduling
  deriving DecidableEq, Repr

/-- The steps of a remove that concern the hints. -/
inductive RemoveStep
  | disconnect
  | deactivate
  | cancelParams
  | cancelNotify
  | stop
  | freeIrq (waits : Bool)
  | syncIrq
  | delTimer
  | endHint
  | disown
  deriving DecidableEq, Repr

/-- What one decoder has of its own. -/
structure Driver where
  /-- the variables the duration is computed from -/
  Vars : Type
  /-- what one run of the duration code reads from the stream -/
  Input : Type
  /-- what an interrupt stores without requesting a hint -/
  Drift : Type
  /-- what init is given: the `sys_info` rate, and settings of the decoder -/
  Config : Type
  /-- the variables after init -/
  init : Config → Vars
  /-- the duration that init tests and hints -/
  initDur : Vars → Duration
  /-- the duration code: the new variables, and whether a hint is requested; `none` is a fault
  of the processor -/
  update : Vars → Input → Option (Vars × Bool)
  drift : Vars → Drift → Vars
  /-- the duration the notify work reads -/
  readDur : Vars → Duration
  /-- the duration given to the last frame, once there was one -/
  curDur : Vars → Option Duration
  /-- whether a request also schedules the notify work -/
  schedules : Vars → Bool
  /-- the variables after the notify work was scheduled -/
  afterSchedule : Vars → Vars
  /-- the re-initialisation within a session, where there is one -/
  reset : Option (Vars → Vars)
  /-- whether the re-initialisation cancels the notify work first -/
  resetCancels : Bool
  /-- whether the duration code runs in a work that the interrupt queues -/
  inWork : Bool
  /-- the variable that init writes and that is tested for the end of the hints -/
  own : HintVar
  /-- the variable the duration code writes -/
  request : HintVar
  /-- the variables the notify work tests, in order -/
  tests : List HintVar
  order : NotifyOrder
  /-- the remove, in order -/
  remove : List RemoveStep

/-- One session of a decoder. -/
structure Session (D : Driver) where
  vars : D.Vars
  hint : HintVar → FrHintState
  notifyWork : Work NotifyPc
  /-- the work that runs the duration code is queued -/
  paramQueued : Bool
  handler : HandlerPc
  /-- the decoder's active flag, tested by the work that runs the duration code -/
  active : Bool
  /-- interrupts reach the decoder -/
  irq : Bool
  /-- what remains of the remove; nothing once it has returned -/
  todo : List RemoveStep
  log : List (Event Duration)

namespace Session

/-- A step of a session. -/
inductive Action (D : Driver)
  | irq
  | update (x : D.Input)
  | drift (y : D.Drift)
  | handler
  | workStart
  | work
  | remove
  | timeout
  | reset

variable {D : Driver} {own : Bool} {s s' : Session D}

/-- Init hints the duration it knows, and otherwise waits for one. A session that does not own
the hint does neither. -/
def start (D : Driver) (own : Bool) (c : D.Config) (isReset : Bool) : Session D :=
  let vars := D.init c
  let known := decide (D.initDur vars ≠ 0) && !isReset
  { vars
    hint := Function.update (fun _ => .noNeedHint) D.own
      (if own then if known then .hinted else .needHint else .noNeedHint)
    notifyWork := .idle
    paramQueued := false
    handler := .idle
    active := true
    irq := true
    todo := D.remove
    log := if own && known then [frHint (D.initDur vars)] else [] }

/-- A hint is about to be delivered. -/
def inFlight (s : Session D) : Bool := s.notifyWork.running.any NotifyPc.inFlight

/-- The notify work is not running, or has not tested for a request yet. -/
def beforeTest (s : Session D) : Bool :=
  match s.notifyWork.running with
  | none | some .test => true
  | some (.mark _) | some (.read _) | some (.deliver _ _) | some (.markAfter _) => false

def setHint (s : Session D) (v : HintVar) (x : FrHintState) : Session D :=
  { s with hint := Function.update s.hint v x }

/-- Whether the duration code can be entered. -/
def admits (s : Session D) : Bool := if D.inWork then s.paramQueued && s.active else s.irq

/-- The duration code up to the store of the new duration. -/
def store (s : Session D) (v : D.Vars) (request : Bool) : Session D :=
  { s with
    vars := v
    paramQueued := s.paramQueued && !D.inWork
    handler := if request then .marking else .idle }

/-- One step of the notify work. -/
def workStep (s : Session D) : Option (Session D) :=
  s.notifyWork.running.map fun
  | .test =>
    -- a second variable is tested in the `else` of the first
    match D.tests.find? fun v => s.hint v = .needHint with
    | none => { s with notifyWork := s.notifyWork.finish }
    | some v =>
      { s with
        notifyWork := s.notifyWork.goto <| match D.order with
          | .markFirst => .mark v
          | .deliverFirst => .read v }
  | .mark v => { s.setHint v .hinted with notifyWork := s.notifyWork.goto (.read v) }
  | .read v => { s with notifyWork := s.notifyWork.goto (.deliver v (D.readDur s.vars)) }
  | .deliver v d =>
    { s with
      log := s.log ++ [frHint d]
      notifyWork := match D.order with
        -- the request was marked served before the delivery
        | .markFirst => s.notifyWork.finish
        | .deliverFirst => s.notifyWork.goto (.markAfter v) }
  | .markAfter v => { s.setHint v .hinted with notifyWork := s.notifyWork.finish }

/-- `FR_END_HINT` if the session hinted, and no request left behind. -/
def endHint (s : Session D) : Session D :=
  { s.setHint D.own .noNeedHint with
    log := if s.hint D.own = .hinted then s.log ++ [frEndHint] else s.log }

/-- One step of the remove. `disconnect`, `freeIrq true` and `syncIrq` wait for the interrupt
handler to return, the cancels for the work to return. -/
def removeStep (own : Bool) (s : Session D) : RemoveStep → Option (Session D)
  | .disconnect => if s.handler = .idle then some { s with irq := false } else none
  | .deactivate => some { s with active := false }
  | .cancelParams => if s.handler = .idle then some { s with paramQueued := false } else none
  | .cancelNotify => s.notifyWork.cancelSync.map fun w => { s with notifyWork := w }
  | .stop => some s
  | .freeIrq waits =>
    if waits = true → s.handler = .idle then some { s with irq := false } else none
  | .syncIrq => if s.handler = .idle then some s else none
  | .delTimer => some s
  | .endHint => some (if own then s.endHint else s)
  | .disown => some s

/-- The step function. `own` says whether the session owns the hint at this moment. -/
def step (own : Bool) (s : Session D) : Action D → Option (Session D)
  | .irq => if s.irq then some { s with paramQueued := true } else none
  | .update x =>
    -- interrupt handlers and works do not run beside themselves
    if s.handler = .idle then
      if s.admits then (D.update s.vars x).map fun r => s.store r.1 r.2
      -- the work runs, finds the decoder inactive and returns
      else if D.inWork && s.paramQueued then some { s with paramQueued := false }
      else none
    else none
  | .drift y => if s.irq then some { s with vars := D.drift s.vars y } else none
  | .handler =>
    match s.handler with
    | .idle => none
    | .marking =>
      some { s.setHint D.request .needHint with
        handler := if D.schedules s.vars then .scheduling else .idle }
    | .scheduling =>
      some { s with
        notifyWork := s.notifyWork.schedule
        vars := D.afterSchedule s.vars
        handler := .idle }
  | .workStart => (s.notifyWork.start .test).map fun w => { s with notifyWork := w }
  | .work => s.workStep
  | .remove =>
    match s.todo with
    | [] => none
    | r :: rs => (s.removeStep own r).map fun s' => { s' with todo := rs }
  | .timeout =>
    match s.todo with
    -- the wait for the disconnect is bounded, and interrupts go on after it
    | .disconnect :: rs => some { s with todo := rs }
    | _ => none
  | .reset =>
    D.reset.bind fun f =>
      if D.resetCancels then
        if s.handler = .idle then
          s.notifyWork.cancelSync.map fun w => { s with vars := f s.vars, notifyWork := w }
        else none
      else some { s with vars := f s.vars }

section SetHint

variable (v : HintVar) (x : FrHintState)

@[simp] theorem hint_setHint : (s.setHint v x).hint = Function.update s.hint v x := rfl

@[simp] theorem vars_setHint : (s.setHint v x).vars = s.vars := rfl

@[simp] theorem notifyWork_setHint : (s.setHint v x).notifyWork = s.notifyWork := rfl

@[simp] theorem handler_setHint : (s.setHint v x).handler = s.handler := rfl

@[simp] theorem log_setHint : (s.setHint v x).log = s.log := rfl

@[simp] theorem todo_setHint : (s.setHint v x).todo = s.todo := rfl

end SetHint

@[simp] theorem hint_endHint : s.endHint.hint = Function.update s.hint D.own .noNeedHint := rfl

@[simp] theorem notifyWork_endHint : s.endHint.notifyWork = s.notifyWork := rfl

@[simp] theorem vars_endHint : s.endHint.vars = s.vars := rfl

/-- The end test announces no duration. -/
@[simp] theorem lastOpen_endHint : lastOpen s.endHint.log = lastOpen s.log := by
  simp only [endHint]
  split <;> simp

theorem changeOnly_endHint (h : ChangeOnly s.log) : ChangeOnly s.endHint.log := by
  simp only [endHint]
  split
  · exact h.snoc_closed
  · exact h

/-- **The cases of a step.** -/
inductive Step (own : Bool) (s : Session D) : Action D → Session D → Prop
  | irq (hirq : s.irq = true) : Step own s .irq { s with paramQueued := true }
  | store {x : D.Input} {v : D.Vars} {request : Bool} (hidle : s.handler = .idle)
      (hadmits : s.admits = true) (hupdate : D.update s.vars x = some (v, request)) :
      Step own s (.update x) (s.store v request)
  | inactive {x : D.Input} (hidle : s.handler = .idle) :
      Step own s (.update x) { s with paramQueued := false }
  | drift {y : D.Drift} (hirq : s.irq = true) :
      Step own s (.drift y) { s with vars := D.drift s.vars y }
  | mark (hmarking : s.handler = .marking) :
      Step own s .handler
        { s.setHint D.request .needHint with
          handler := if D.schedules s.vars then .scheduling else .idle }
  | schedule (hscheduling : s.handler = .scheduling) :
      Step own s .handler
        { s with
          notifyWork := s.notifyWork.schedule
          vars := D.afterSchedule s.vars
          handler := .idle }
  | workStart (hqueued : s.notifyWork.queued = true) (hrun : s.notifyWork.running = none) :
      Step own s .workStart { s with notifyWork := ⟨false, some .test⟩ }
  | testNone (hrun : s.notifyWork.running = some .test)
      (hnone : ∀ v ∈ D.tests, s.hint v ≠ .needHint) :
      Step own s .work { s with notifyWork := s.notifyWork.finish }
  | testMark {v : HintVar} (hrun : s.notifyWork.running = some .test)
      (hmem : v ∈ D.tests) (hneed : s.hint v = .needHint) (horder : D.order = .markFirst) :
      Step own s .work { s with notifyWork := s.notifyWork.goto (.mark v) }
  | testRead {v : HintVar} (hrun : s.notifyWork.running = some .test)
      (hmem : v ∈ D.tests) (hneed : s.hint v = .needHint) (horder : D.order = .deliverFirst) :
      Step own s .work { s with notifyWork := s.notifyWork.goto (.read v) }
  | workMark {v : HintVar} (hrun : s.notifyWork.running = some (.mark v)) :
      Step own s .work
        { s.setHint v .hinted with notifyWork := s.notifyWork.goto (.read v) }
  | read {v : HintVar} (hrun : s.notifyWork.running = some (.read v)) :
      Step own s .work
        { s with notifyWork := s.notifyWork.goto (.deliver v (D.readDur s.vars)) }
  | deliverLast {v : HintVar} {d : Duration} (hrun : s.notifyWork.running = some (.deliver v d))
      (horder : D.order = .markFirst) :
      Step own s .work
        { s with log := s.log ++ [frHint d], notifyWork := s.notifyWork.finish }
  | deliver {v : HintVar} {d : Duration} (hrun : s.notifyWork.running = some (.deliver v d))
      (horder : D.order = .deliverFirst) :
      Step own s .work
        { s with log := s.log ++ [frHint d], notifyWork := s.notifyWork.goto (.markAfter v) }
  | workMarkAfter {v : HintVar} (hrun : s.notifyWork.running = some (.markAfter v)) :
      Step own s .work { s.setHint v .hinted with notifyWork := s.notifyWork.finish }
  | remove {r : RemoveStep} {rs : List RemoveStep} {t : Session D} (htodo : s.todo = r :: rs)
      (hstep : s.removeStep own r = some t) : Step own s .remove { t with todo := rs }
  | timeout {rs : List RemoveStep} (htodo : s.todo = .disconnect :: rs) :
      Step own s .timeout { s with todo := rs }
  | reset {f : D.Vars → D.Vars} (hreset : D.reset = some f) (hcancels : D.resetCancels = false) :
      Step own s .reset { s with vars := f s.vars }
  | resetCancel {f : D.Vars → D.Vars} (hreset : D.reset = some f)
      (hcancels : D.resetCancels = true) (hidle : s.handler = .idle)
      (hrun : s.notifyWork.running = none) :
      Step own s .reset { s with vars := f s.vars, notifyWork := .idle }

theorem workStep_sound (h : s.workStep = some s') : Step own s .work s' := by
  simp only [workStep, Option.map_eq_some_iff] at h
  obtain ⟨pc, hpc, rfl⟩ := h
  cases pc with
  | test =>
    dsimp only
    split
    · next hf => exact .testNone hpc fun v hv => by simpa using List.find?_eq_none.mp hf v hv
    · next v hf =>
      have hmem := List.mem_of_find?_eq_some hf
      have hneed : s.hint v = .needHint := by simpa using List.find?_some hf
      cases ho : D.order with
      | markFirst => exact .testMark hpc hmem hneed ho
      | deliverFirst => exact .testRead hpc hmem hneed ho
  | mark v => exact .workMark hpc
  | read v => exact .read hpc
  | deliver v d =>
    dsimp only
    cases ho : D.order with
    | markFirst => exact .deliverLast hpc ho
    | deliverFirst => exact .deliver hpc ho
  | markAfter v => exact .workMarkAfter hpc

/-- **A step is one of the cases.** -/
theorem step_sound {a : Action D} (h : s.step own a = some s') : Step own s a s' := by
  cases a with
  | irq =>
    simp only [step, Option.ite_none_right_eq_some, Option.some.injEq] at h
    obtain ⟨hirq, rfl⟩ := h
    exact .irq hirq
  | update x =>
    simp only [step] at h
    split at h
    · next hidle =>
      split at h
      · next hadmits =>
        obtain ⟨⟨v, request⟩, hu, rfl⟩ := Option.map_eq_some_iff.mp h
        exact .store hidle hadmits hu
      · simp only [Option.ite_none_right_eq_some, Option.some.injEq] at h
        obtain ⟨-, rfl⟩ := h
        exact .inactive hidle
    · cases h
  | drift y =>
    simp only [step, Option.ite_none_right_eq_some, Option.some.injEq] at h
    obtain ⟨hirq, rfl⟩ := h
    exact .drift hirq
  | handler =>
    simp only [step] at h
    cases hh : s.handler with
    | idle => simp [hh] at h
    | marking =>
      simp only [hh, Option.some.injEq] at h
      exact h ▸ .mark hh
    | scheduling =>
      simp only [hh, Option.some.injEq] at h
      exact h ▸ .schedule hh
  | workStart =>
    obtain ⟨w, hw, rfl⟩ := Option.map_eq_some_iff.mp h
    obtain ⟨hq, hr, rfl⟩ := Work.start_eq_some.mp hw
    exact .workStart hq hr
  | work => exact workStep_sound h
  | remove =>
    simp only [step] at h
    split at h
    · cases h
    · next r rs htodo =>
      obtain ⟨t, ht, rfl⟩ := Option.map_eq_some_iff.mp h
      exact .remove htodo ht
  | timeout =>
    simp only [step] at h
    split at h
    · next rs htodo =>
      obtain rfl := Option.some.inj h
      exact .timeout htodo
    · cases h
  | reset =>
    obtain ⟨f, hf, h⟩ := Option.bind_eq_some_iff.mp h
    split at h
    · next hc =>
      simp only [Option.ite_none_right_eq_some, Option.map_eq_some_iff] at h
      obtain ⟨hidle, w, hw, rfl⟩ := h
      obtain ⟨hr, rfl⟩ := Work.cancelSync_eq_some.mp hw
      exact .resetCancel hf hc hidle hr
    · next hc =>
      obtain rfl := Option.some.inj h
      exact .reset hf (by simpa using hc)

/-- A step of the remove other than the end test leaves the hints alone. -/
theorem removeStep_frame {r : RemoveStep} (h : s.removeStep own r = some s') (hr : r ≠ .endHint) :
    s'.vars = s.vars ∧ s'.hint = s.hint ∧ s'.log = s.log ∧ s'.handler = s.handler ∧
      s'.notifyWork.running = s.notifyWork.running ∧ s'.todo = s.todo := by
  cases r with
  | endHint => exact absurd rfl hr
  | cancelNotify =>
    obtain ⟨w, hw, rfl⟩ := Option.map_eq_some_iff.mp h
    -- the cancel returns when the work does not run, so the work's point stays
    obtain ⟨hrun, rfl⟩ := Work.cancelSync_eq_some.mp hw
    exact ⟨rfl, rfl, rfl, rfl, hrun.symm, rfl⟩
  | disconnect | cancelParams | freeIrq | syncIrq =>
    simp only [removeStep, Option.ite_none_right_eq_some, Option.some.injEq] at h
    obtain ⟨-, rfl⟩ := h
    exact ⟨rfl, rfl, rfl, rfl, rfl, rfl⟩
  | deactivate | stop | delTimer | disown =>
    obtain rfl := Option.some.inj h
    exact ⟨rfl, rfl, rfl, rfl, rfl, rfl⟩

/-- **A step of the remove** is the end test, or leaves the hints alone. -/
theorem removeStep_cases {r : RemoveStep} (h : s.removeStep own r = some s') :
    (r = .endHint ∧ s' = if own then s.endHint else s) ∨
      r ≠ .endHint ∧ s'.vars = s.vars ∧ s'.hint = s.hint ∧ s'.log = s.log ∧
        s'.notifyWork.running = s.notifyWork.running := by
  by_cases hr : r = .endHint
  · subst hr
    exact .inl ⟨rfl, (Option.some.inj h).symm⟩
  · obtain ⟨hvars, hhint, hlog, -, hrun, -⟩ := removeStep_frame h hr
    exact .inr ⟨hr, hvars, hhint, hlog, hrun⟩

/-- The variable init writes tells whether it hinted. -/
theorem start_log_ne_nil {c : D.Config} {isReset : Bool}
    (h : (start D own c isReset).hint D.own = .hinted) : (start D own c isReset).log ≠ [] := by
  cases own <;> simp_all [start]

theorem start_log_eq_nil {c : D.Config} {isReset : Bool}
    (h : (start D own c isReset).hint D.own = .needHint) : (start D own c isReset).log = [] := by
  cases own <;> simp_all [start]

/-- Init announces the duration it knows, or nothing. -/
theorem start_log_eq (own : Bool) (c : D.Config) (isReset : Bool) :
    (start D own c isReset).log = [] ∨ D.initDur (D.init c) ≠ 0 ∧
      (start D own c isReset).log = [frHint (D.initDur (D.init c))] := by
  cases own <;> by_cases h : D.initDur (D.init c) = 0 <;> cases isReset <;> simp [start, h]

theorem start_log_changeOnly (c : D.Config) (isReset : Bool) :
    ChangeOnly (start D own c isReset).log ∧ Opening (start D own c isReset).log := by
  simp only [start]
  split
  · exact ⟨ChangeOnly.nil.snoc (by simp), Opening.nil.snoc_opened⟩
  · exact ⟨.nil, .nil⟩

/-- The notify work serves requests in the variables it tests, and marks them in its order. -/
structure NotifyInv (s : Session D) : Prop where
  tests : ∀ pc, s.notifyWork.running = some pc → ∀ v, pc.var? = some v → v ∈ D.tests
  order : ∀ v, s.notifyWork.running = some (.markAfter v) → D.order = .deliverFirst

theorem NotifyInv.start (own : Bool) (c : D.Config) (isReset : Bool) :
    NotifyInv (start D own c isReset) := by
  constructor <;> simp [Session.start]

/-- No step of the remove starts anything again. -/
theorem removeStep_mono {r : RemoveStep} (h : s.removeStep own r = some s') :
    (s.irq = false → s'.irq = false) ∧ (s.active = false → s'.active = false) ∧
      s'.handler = s.handler ∧ (s.notifyWork.queued = false → s'.notifyWork.queued = false) := by
  cases r with
  | endHint =>
    obtain rfl := Option.some.inj h
    cases own <;> exact ⟨id, id, rfl, id⟩
  | cancelNotify =>
    obtain ⟨w, hw, rfl⟩ := Option.map_eq_some_iff.mp h
    obtain ⟨-, rfl⟩ := Work.cancelSync_eq_some.mp hw
    exact ⟨id, id, rfl, fun _ => rfl⟩
  | disconnect | cancelParams | freeIrq | syncIrq =>
    simp only [removeStep, Option.ite_none_right_eq_some, Option.some.injEq] at h
    obtain ⟨-, rfl⟩ := h
    simp
  | deactivate | stop | delTimer | disown =>
    obtain rfl := Option.some.inj h
    simp

theorem NotifyInv.step {a : Action D} (h : NotifyInv s) (hs : s.step own a = some s') :
    NotifyInv s' := by
  have hcongr {t : Session D} (hrun : t.notifyWork.running = s.notifyWork.running) :
      NotifyInv t := ⟨hrun ▸ h.tests, hrun ▸ h.order⟩
  cases step_sound hs with
  | irq | store | inactive | drift | mark | schedule | timeout | reset => exact hcongr rfl
  | workStart | testNone | deliverLast | workMarkAfter | resetCancel =>
    constructor <;> simp [NotifyPc.var?]
  | testMark _ hmem | testRead _ hmem =>
    constructor
    · simpa [NotifyPc.var?] using hmem
    · simp
  | workMark hrun | read hrun =>
    constructor
    · simpa [NotifyPc.var?] using h.tests _ hrun _ rfl
    · simp
  | deliver hrun horder =>
    constructor
    · simpa [NotifyPc.var?] using h.tests _ hrun _ rfl
    · exact fun _ _ => horder
  | remove htodo ht =>
    rcases removeStep_cases ht with ⟨rfl, rfl⟩ | ⟨-, -, -, -, hrun⟩
    · cases own <;> exact hcongr rfl
    · exact hcongr hrun

theorem NotifyInv.run {G : Session D → Action D → Prop} {c : D.Config} {isReset : Bool}
    {as : List (Action D)}
    (r : Transition.Run (Session.step own) G (Session.start D own c isReset) as s) :
    NotifyInv s :=
  r.invariant (NotifyInv.start own c isReset) fun _ _ _ h _ hs => h.step hs

/-- The remove advances by one step at a time, and by nothing else. -/
theorem step_todo {a : Action D} (hs : s.step own a = some s') : s'.todo = s.todo ∨
    ∃ r, s.todo = r :: s'.todo ∧ (a = .remove ∨ a = .timeout ∧ r = .disconnect) := by
  cases step_sound hs with
  | remove htodo => exact .inr ⟨_, htodo, .inl rfl⟩
  | timeout htodo => exact .inr ⟨_, htodo, .inr ⟨rfl, rfl⟩⟩
  | _ => exact .inl rfl

theorem mem_todo_of_step {a : Action D} {r : RemoveStep} (hs : s.step own a = some s')
    (h : r ∈ s'.todo) : r ∈ s.todo := by
  rcases step_todo hs with ht | ⟨r', ht, -⟩
  · rwa [ht] at h
  · rw [ht]
    exact .tail _ h

/-- What remains after a step of the remove. -/
theorem tail_mem_tails {r : RemoveStep} {rs : List RemoveStep} (h : s.todo ∈ D.remove.tails)
    (htodo : s.todo = r :: rs) : rs ∈ D.remove.tails := by
  rw [List.mem_tails] at h ⊢
  exact (List.suffix_cons r rs).trans (htodo ▸ h)

theorem todo_mem_tails {a : Action D} (h : s.todo ∈ D.remove.tails)
    (hs : s.step own a = some s') : s'.todo ∈ D.remove.tails := by
  rcases step_todo hs with ht | ⟨r, ht, -⟩
  · rwa [ht]
  · exact tail_mem_tails h ht

/-- A remove makes its end test once at most. -/
theorem count_tail_le {r : RemoveStep} {rs : List RemoveStep}
    (h : s.todo.count .endHint ≤ 1) (htodo : s.todo = r :: rs) : rs.count .endHint ≤ 1 := by
  rw [htodo] at h
  exact ((List.sublist_cons_self r rs).count_le _).trans h

theorem endHint_notMem {rs : List RemoveStep} (h : s.todo.count .endHint ≤ 1)
    (htodo : s.todo = .endHint :: rs) : .endHint ∉ rs := by
  rw [htodo, List.count_cons_self] at h
  exact List.count_eq_zero.mp (by omega)

/-- What a variable says stays true when a request is marked served, if it is true of
`VDEC_HINTED`. -/
theorem hint_mark {P : FrHintState → Prop} (hhinted : P .hinted) (v : HintVar) {u : HintVar}
    (h : P (s.hint u)) : P ((s.setHint v .hinted).hint u) := by
  rw [hint_setHint, Function.update_apply]
  split
  · exact hhinted
  · exact h

/-- Only a delivery and the end test write the log. -/
theorem step_log {a : Action D} (hs : s.step own a = some s') (hlog : s'.log ≠ s.log) :
    (∃ v d, s.notifyWork.running = some (.deliver v d)) ∧ a = .work ∨
      s.todo.head? = some .endHint ∧ own = true ∧ a = .remove := by
  cases step_sound hs with
  | deliverLast hr | deliver hr => exact .inl ⟨⟨_, _, hr⟩, rfl⟩
  | remove htodo ht =>
    rcases removeStep_cases ht with ⟨rfl, rfl⟩ | ⟨-, -, -, hl, -⟩
    · cases own with
      | true => exact .inr ⟨by simp [htodo], rfl, rfl⟩
      | false => exact absurd rfl hlog
    · exact absurd hl hlog
  | _ => exact absurd rfl hlog

end Session

end Media
