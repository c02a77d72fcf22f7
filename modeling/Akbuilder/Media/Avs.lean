import Akbuilder.Media.Balance

/-!
# The AVS decoder hints every frame

`set_frame_info` requests a hint for every frame, whether the duration changed or not, so an AVS
session repeats its hints unless every frame comes with another duration. The end of the session
is that of the other single-instance decoders.

## Main definitions

* `Session.ChangeGuard`: no request is made for the duration hinted last
* `Session.ChangeInv`: the invariant of the sessions that obey it

## Main results

* `Avs.avs_hints_change`: a guarded session hints changes only, and is closed when its remove
  returns
* `Avs.not_avs_hints_change`: two frames of one duration are hinted twice
-/

open Bracket Transition

namespace Media.Session

variable {D : Driver} {s s' : Session D} {a : Action D}

/-- A request that the notify work has still to read the duration for. -/
def willRead (s : Session D) : Bool :=
  match s.notifyWork.running with
  | none | some .test => s.hint D.request = .needHint
  | some (.mark _) | some (.read _) => true
  | some (.deliver _ _) | some (.markAfter _) => false

/-- **What keeps hints apart**: a duration that will be read for a request differs from the one
hinted last, when it is stored and when it is requested. -/
def ChangeGuard (s : Session D) : Action D → Prop
  | .update x =>
    ∀ r ∈ D.update s.vars x, s.willRead = true → lastOpen s.log ≠ some (D.readDur r.1)
  | .drift y => s.willRead = true → lastOpen s.log ≠ some (D.readDur (D.drift s.vars y))
  | .reset => ∀ f ∈ D.reset, s.willRead = true → lastOpen s.log ≠ some (D.readDur (f s.vars))
  | .handler =>
    s.handler = .marking → s.beforeTest = true → lastOpen s.log ≠ some (D.readDur s.vars)
  | _ => True

instance : ∀ (s : Session D) (a : Action D), Decidable (ChangeGuard s a)
  | s, .update x => by
    unfold ChangeGuard
    infer_instance
  | _, .drift _ => inferInstanceAs (Decidable (_ → _))
  | s, .reset => by
    unfold ChangeGuard
    infer_instance
  | _, .handler => inferInstanceAs (Decidable (_ → _ → _))
  | _, .irq | _, .workStart | _, .work | _, .remove | _, .timeout => isTrue trivial

/-- The invariant of a session whose hints change: the next hint will differ from the last. -/
structure ChangeInv (s : Session D) : Prop where
  log : ChangeOnly s.log
  read : s.willRead = true → lastOpen s.log ≠ some (D.readDur s.vars)
  deliver : ∀ v d, s.notifyWork.running = some (.deliver v d) → lastOpen s.log ≠ some d

/-- A decoder with one hint variable whose notify work marks a request after it has delivered. -/
structure MarksAfter (D : Driver) : Prop where
  own : D.own = D.request
  tests : D.tests = [D.request]
  order : D.order = .deliverFirst
  /-- scheduling the notify work leaves the duration alone -/
  afterSchedule : ∀ v, D.readDur (D.afterSchedule v) = D.readDur v

namespace ChangeInv

theorem start (hD : MarksAfter D) (own : Bool) (c : D.Config) (isReset : Bool) :
    ChangeInv (start D own c isReset) := by
  constructor
  · exact (start_log_changeOnly c isReset).1
  · intro hw
    have hneed : (Session.start D own c isReset).hint D.own = .needHint := by
      simpa [willRead, Session.start, hD.own] using hw
    simp [start_log_eq_nil hneed]
  · simp [Session.start]

/-- Steps that leave the log and the notify work alone. -/
theorem congr (h : ChangeInv s) (hlog : s'.log = s.log)
    (hrun : s'.notifyWork.running = s.notifyWork.running)
    (hread : s'.willRead = true → lastOpen s.log ≠ some (D.readDur s'.vars)) : ChangeInv s' := by
  constructor
  · rw [hlog]; exact h.log
  · rw [hlog]; exact hread
  · rw [hlog, hrun]; exact h.deliver

/-- A step of the remove: the end test leaves no request. -/
theorem remove {own : Bool} (hD : MarksAfter D) (h : ChangeInv s) {r : RemoveStep}
    {rs : List RemoveStep} {t : Session D} (ht : s.removeStep own r = some t) :
    ChangeInv { t with todo := rs } := by
  rcases removeStep_cases ht with ⟨rfl, rfl⟩ | ⟨-, hvars, hhint, hlog, hrun⟩
  · cases own with
    | false => exact h.congr rfl rfl h.read
    | true =>
      refine ⟨changeOnly_endHint h.log, ?_, ?_⟩
      · intro hw
        rw [if_pos rfl, lastOpen_endHint]
        -- the end test leaves no request
        have hne : s.endHint.hint D.request ≠ .needHint := by simp [← hD.own]
        refine h.read ?_
        cases hr : s.notifyWork.running with
        | none => simp_all [willRead]
        | some pc => cases pc <;> simp_all [willRead]
      · intro v d hv
        rw [if_pos rfl, lastOpen_endHint]
        exact h.deliver v d hv
  · refine h.congr hlog hrun ?_
    intro hw
    rw [hvars]
    exact h.read (by simpa [willRead, hrun, hhint] using hw)

/-- **A guarded step keeps the next hint different from the last.** -/
theorem step {own : Bool} (hD : MarksAfter D) (h : ChangeInv s) (hn : NotifyInv s)
    (hg : ChangeGuard s a) (hs : s.step own a = some s') : ChangeInv s' := by
  cases step_sound hs with
  | irq | inactive => exact h.congr rfl rfl h.read
  | store hidle hadmits hupdate => exact h.congr rfl rfl (hg _ hupdate)
  | drift => exact h.congr rfl rfl hg
  | mark hm =>
    refine h.congr rfl rfl ?_
    intro hw
    cases hb : s.beforeTest with
    | true => exact hg hm hb
    | false =>
      -- the request changes nothing for a notify work that has found one already
      refine h.read ?_
      cases hr : s.notifyWork.running with
      | none => simp [beforeTest, hr] at hb
      | some pc => cases pc <;> simp_all [beforeTest, willRead]
  | schedule => exact h.congr rfl rfl (by rw [hD.afterSchedule]; exact h.read)
  | workStart hq hr =>
    refine ⟨h.log, fun hw => h.read ?_, by simp⟩
    simpa [willRead, hr] using hw
  | testNone hr hnone =>
    refine ⟨h.log, ?_, by simp⟩
    intro hw
    have hne := hnone D.request (by simp [hD.tests])
    simp [willRead, hne] at hw
  | testMark _ _ _ horder => simp [hD.order] at horder
  | testRead hr hmem hneed =>
    refine ⟨h.log, fun _ => h.read ?_, by simp⟩
    rw [hD.tests, List.mem_singleton] at hmem
    simp [willRead, hr, ← hmem, hneed]
  | workMark hr =>
    refine ⟨h.log, fun _ => h.read ?_, by simp⟩
    simp [willRead, hr]
  | read hr =>
    refine ⟨h.log, by simp [willRead], ?_⟩
    intro v d hd
    simp only [Work.running_goto, Option.some.injEq, NotifyPc.deliver.injEq] at hd
    obtain ⟨-, rfl⟩ := hd
    exact h.read (by simp [willRead, hr])
  | deliverLast _ horder => simp [hD.order] at horder
  | deliver hr => exact ⟨h.log.snoc (h.deliver _ _ hr), by simp [willRead], by simp⟩
  | workMarkAfter hr =>
    refine ⟨h.log, ?_, by simp⟩
    intro hw
    -- the one hint variable is marked, also over a request made in between
    have hv := hn.tests _ hr _ rfl
    rw [hD.tests, List.mem_singleton] at hv
    simp [willRead, hv] at hw
  | remove htodo ht => exact h.remove hD ht
  | timeout => exact h.congr rfl rfl h.read
  | reset hreset => exact h.congr rfl rfl (hg _ hreset)
  | resetCancel hreset _ _ hr =>
    refine h.congr rfl hr.symm fun hw => hg _ hreset ?_
    simpa [willRead, hr] using hw

end ChangeInv

end Media.Session

namespace Media.Avs

/-- What keeps an AVS session quiet and balanced. -/
def Guard (s : Session driver) (a : Session.Action driver) : Prop :=
  s.ChangeGuard a ∧ s.EndGuard a

instance (s : Session driver) (a : Session.Action driver) : Decidable (Guard s a) :=
  inferInstanceAs (Decidable (_ ∧ _))

theorem stopsBeforeEnd : Session.StopsBeforeEnd driver := by constructor <;> decide

theorem marksAfter : Session.MarksAfter driver := ⟨rfl, rfl, rfl, fun _ => rfl⟩

/-- **AVS hints** carry changes only, and are ended once, along every run that requests no hint
for the duration hinted last and whose end test meets no pending request. -/
theorem avs_hints_change {rate : Duration} {isReset : Bool} {as : List (Session.Action driver)}
    {s : Session driver}
    (r : Run (Session.step true) Guard (Session.start driver true rate isReset) as s) :
    ChangeOnly s.log ∧ (s.todo = [] → Closed s.log) := by
  have hchange := r.invariant (I := fun s => s.ChangeInv ∧ s.NotifyInv)
    ⟨.start marksAfter true rate isReset, .start (D := driver) true rate isReset⟩
    fun s a s' h hg hs => ⟨h.1.step marksAfter h.2 hg.1 hs, h.2.step hs⟩
  exact ⟨hchange.1.log,
    fun ht => (Session.closed_of_run stopsBeforeEnd (r.mono fun _ _ h => h.2) ht).1⟩

/-- A session without a `sys_info` rate that decodes one frame at 25 and one at 50 fps. -/
theorem avs_hints_change_two_frames :
    ∃ s : Session driver, s.todo = [] ∧ s.log = [frHint 3840, frHint 1920, frEndHint] ∧
      ChangeOnly s.log ∧ Closed s.log := by
  obtain ⟨s, r, htodo, hlog⟩ := exists_run_of_exec (Session.step true) Guard
    (Session.start driver true (0 : Duration) false)
    [.update (3 : UInt32), .handler, .handler, .workStart, .work, .work, .work, .work,
      .update (6 : UInt32), .handler, .handler, .workStart, .work, .work, .work, .work,
      .remove, .remove, .remove, .remove, .remove]
    (fun s => s.todo = [] ∧ s.log = [frHint 3840, frHint 1920, frEndHint]) (by decide)
  obtain ⟨hchange, hclosed⟩ := avs_hints_change r
  exact ⟨s, htodo, hlog, hchange, hclosed htodo⟩

/-- The first frame repeats the hint of init when the stream has the rate that `sys_info` gave. -/
theorem not_avs_hints_change :
    ¬ ∀ (rate : Duration) (isReset : Bool) (as : List (Session.Action driver))
        (s : Session driver),
      Run (Session.step true) Always (Session.start driver true rate isReset) as s →
        ChangeOnly s.log ∧ (s.todo = [] → Closed s.log) := by
  intro h
  obtain ⟨s, r, hlog⟩ := exists_run_of_exec (Session.step true) Always
    (Session.start driver true (3840 : Duration) false)
    [.update (3 : UInt32), .handler, .handler, .workStart, .work, .work, .work]
    (fun s => ¬ ChangeOnly s.log) (by decide)
  exact hlog (h _ _ _ s r).1

end Media.Avs
