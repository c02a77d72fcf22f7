import Akbuilder.Media.Fresh
import Akbuilder.Media.Mpeg4Rate

/-!
# Notify works that mark a request after they have delivered it

Single-instance H.264, MPEG-4 and both modes of H.265. A request that comes between the delivery
and the mark is overwritten by the mark; H.265 moreover schedules the notify work for the first
request only, and H.264 and MPEG-4 store some durations without requesting a hint.

## Main definitions

* `Session.StartsCurrent`: a session that begins with the duration in use
* `Session.KeepsUpdates`: the steps that lose no update
* `LateMarker`: the decoders

## Main results

* `LateMarker.late_hint_current`: along the steps of `KeepsUpdates` the last hint carried the
  duration the frames use
* `LateMarker.not_late_hint_current`: an update between delivery and mark is lost
-/

open Bracket Transition

namespace Media.Session

variable {D : Driver} {own : Bool} {s s' : Session D} {a : Action D}

/-- A request is going to be tested by the notify work, and none is being served. -/
def pending (s : Session D) : Bool := s.requested && s.beforeTest

/-- Nothing was hinted or requested since init. -/
def untouched (s : Session D) : Bool :=
  s.log.isEmpty && s.handler = .idle && s.notifyWork = .idle

/-- The frames use the duration that the notify work reads. -/
def Current (v : D.Vars) : Prop := ∀ cur ∈ D.curDur v, cur = D.readDur v

instance (v : D.Vars) : Decidable (Current v) :=
  decidable_of_iff ((D.curDur v).all (· = D.readDur v) = true)
    (by simp [Current, Option.all_eq_true])

/-- A store without a request keeps the duration, unless nothing was hinted yet. -/
def Quiet (s : Session D) (v : D.Vars) : Prop :=
  s.untouched = true ∨ D.readDur v = D.readDur s.vars ∧ Current v

instance (s : Session D) (v : D.Vars) : Decidable (Quiet s v) :=
  inferInstanceAs (Decidable (_ ∨ _))

/-- Init hints the duration that the notify work reads, or nothing. -/
def StartsCurrent (D : Driver) (own : Bool) (c : D.Config) (isReset : Bool) : Prop :=
  (start D own c isReset).log = [] ∨ D.readDur (D.init c) = D.initDur (D.init c)

/-- **What loses no update**: a duration that is stored without a request is the one in use; a
request that does not schedule the notify work is one that is going to be served, or for the
duration hinted; and `VDEC_NEED_HINT` is not written between the delivery of another duration and
the mark. -/
def KeepsUpdates (s : Session D) : Action D → Prop
  | .update x => ∀ r ∈ D.update s.vars x,
    if r.2 then
      D.schedules r.1 = true ∨ s.pending = true ∨ (s.store r.1 true).fresh = true
    else Quiet s r.1
  | .drift y => Quiet s (D.drift s.vars y)
  | .handler => s.handler = .marking → s.beforeTest = true ∨ s.fresh = true
  | .reset => ∀ f ∈ D.reset, Quiet s (f s.vars)
  | .irq | .workStart | .work => True
  | .remove | .timeout => False

instance : ∀ (s : Session D) (a : Action D), Decidable (KeepsUpdates s a)
  | s, .update x => by
    unfold KeepsUpdates
    infer_instance
  | _, .drift _ => inferInstanceAs (Decidable (Quiet _ _))
  | _, .handler => inferInstanceAs (Decidable (_ → _))
  | s, .reset => by
    unfold KeepsUpdates
    infer_instance
  | _, .irq | _, .workStart | _, .work => isTrue trivial
  | _, .remove | _, .timeout => isFalse id

/-- A decoder whose notify work marks last, and whose requests are for the duration the frames
use. -/
structure MarksLast (D : Driver) : Prop where
  order : D.order = .deliverFirst
  tests : D.request ∈ D.tests
  resetCancels : D.resetCancels = false
  init : ∀ c, Current (D.init c)
  update : ∀ v x v', D.update v x = some (v', true) → Current v'
  drift : ∀ v y, D.schedules (D.drift v y) = D.schedules v
  reset : ∀ f, D.reset = some f → ∀ v, D.schedules (f v) = D.schedules v
  afterSchedule : ∀ v, D.readDur (D.afterSchedule v) = D.readDur v ∧
    D.curDur (D.afterSchedule v) = D.curDur v

/-- The invariant once something was hinted or requested. -/
structure LateInv (s : Session D) : Prop where
  current : Current s.vars
  idle : s.handler = .idle → s.pending = true ∨ s.fresh = true
  marking : s.handler = .marking →
    D.schedules s.vars = true ∨ s.pending = true ∨ s.fresh = true
  scheduling : s.handler = .scheduling →
    s.hint D.request = .needHint ∧ s.beforeTest = true ∨ s.fresh = true

/-- A request that is going to be tested is found. -/
theorem fresh_of_need (hD : MarksLast D) (hneed : s.hint D.request = .needHint)
    (hb : s.beforeTest = true) (hs : s.step own .work = some s') : s'.fresh = true := by
  cases step_sound hs with
  | testNone _ hnone => exact absurd hneed (hnone _ hD.tests)
  | testMark _ _ _ ho => simp [hD.order] at ho
  | testRead => simp [fresh]
  | workMark hr | read hr | deliverLast hr | deliver hr | workMarkAfter hr =>
    simp [beforeTest, hr] at hb

theorem pending_iff : s.pending = true ↔ s.hint D.request = .needHint ∧
    (s.notifyWork.queued = true ∧ s.notifyWork.running = none ∨
      s.notifyWork.running = some .test) := by
  cases hr : s.notifyWork.running with
  | none => simp [pending, requested, beforeTest, hr]
  | some pc => cases pc <;> simp [pending, requested, beforeTest, hr]

namespace LateInv

theorem work (hD : MarksLast D) (h : LateInv s) (hs : s.step own .work = some s') : LateInv s' := by
  obtain ⟨hvars, hhandler⟩ : s'.vars = s.vars ∧ s'.handler = s.handler := by
    cases step_sound hs <;> exact ⟨rfl, rfl⟩
  -- the work finds the request and goes on to read the duration
  have hpending : s.pending = true ∨ s.fresh = true → s'.fresh = true := by
    rintro (hp | hf)
    · simp only [pending, requested, Bool.and_eq_true, decide_eq_true_eq] at hp
      exact fresh_of_need hD hp.1.1 hp.2 hs
    · exact fresh_work hf hs
  constructor
  · rw [hvars]; exact h.current
  · rw [hhandler]; exact fun hi => .inr (hpending (h.idle hi))
  · rw [hhandler, hvars]
    exact fun hm => (h.marking hm).imp id fun hp => .inr (hpending hp)
  · rw [hhandler]
    rintro hsch
    rcases h.scheduling hsch with ⟨hn, hb⟩ | hf
    · exact .inr (fresh_of_need hD hn hb hs)
    · exact .inr (fresh_work hf hs)

theorem workStart (h : LateInv s) (hs : s.step own .workStart = some s') : LateInv s' := by
  have hpending : s.pending = true ∨ s.fresh = true → s'.pending = true ∨ s'.fresh = true := by
    rintro (hp | hf)
    · rw [pending_iff] at hp ⊢
      cases step_sound hs with
      | workStart => exact .inl ⟨hp.1, .inr rfl⟩
    · exact .inr (fresh_workStart hf hs)
  cases step_sound hs with
  | workStart hq hr =>
    constructor
    · exact h.current
    · exact fun hi => hpending (h.idle hi)
    · exact fun hm => (h.marking hm).imp id hpending
    · exact fun hsch => (h.scheduling hsch).imp (fun hn => ⟨hn.1, rfl⟩) (fresh_workStart · hs)

/-- A store without a request. -/
theorem quiet (h : LateInv s) (hcurrent : Current s'.vars)
    (hdur : D.readDur s'.vars = D.readDur s.vars) (hhandler : s'.handler = s.handler)
    (hschedules : s.handler = .marking → D.schedules s'.vars = D.schedules s.vars)
    (hhint : s'.hint = s.hint) (hwork : s'.notifyWork = s.notifyWork) (hlog : s'.log = s.log) :
    LateInv s' := by
  have hf : s'.fresh = s.fresh := fresh_congr (congrArg _ hwork) hlog hdur
  have hb : s'.beforeTest = s.beforeTest := by simp only [beforeTest, hwork]
  have hp : s'.pending = s.pending := by simp only [pending, requested, hb, hhint, hwork]
  constructor
  · exact hcurrent
  · rw [hhandler, hp, hf]; exact h.idle
  · rw [hhandler, hp, hf]
    exact fun hm => (h.marking hm).imp (fun hsch => hschedules hm ▸ hsch) id
  · rw [hhandler, hhint, hb, hf]; exact h.scheduling

/-- The duration code writes `VDEC_NEED_HINT`. -/
theorem mark (h : LateInv s) (hm : s.handler = .marking)
    (hg : s.beforeTest = true ∨ s.fresh = true) :
    LateInv { s.setHint D.request .needHint with
      handler := if D.schedules s.vars then .scheduling else .idle } := by
  cases hsch : D.schedules s.vars with
  | true =>
    constructor
    · exact h.current
    · simp
    · simp
    · exact fun _ => hg.imp (fun hb => ⟨by simp, hb⟩) id
  | false =>
    -- nothing is scheduled, so another request has to be pending
    have hp : s.pending = true ∨ s.fresh = true := (h.marking hm).resolve_left (by simp [hsch])
    constructor
    · exact h.current
    · intro _
      rw [pending_iff] at hp ⊢
      exact hp.imp (fun hp => ⟨by simp, hp.2⟩) id
    · simp
    · simp

/-- The duration code schedules the notify work. -/
theorem schedule (hD : MarksLast D) (h : LateInv s) (hsch : s.handler = .scheduling) :
    LateInv { s with
      notifyWork := s.notifyWork.schedule
      vars := D.afterSchedule s.vars
      handler := .idle } := by
  obtain ⟨hdur, hcur⟩ := hD.afterSchedule s.vars
  constructor
  · simp only [Current, hdur, hcur]
    exact h.current
  · intro _
    rcases h.scheduling hsch with ⟨hn, hb⟩ | hf
    · left
      simp only [pending, requested, Bool.and_eq_true, decide_eq_true_eq]
      exact ⟨⟨hn, rfl⟩, hb⟩
    · right
      rw [← hf]
      exact fresh_congr rfl rfl hdur
  · simp
  · simp

/-- **A guarded step keeps the hint fresh**, once something was hinted or requested. -/
theorem step (hD : MarksLast D) (h : s.untouched = true ∨ LateInv s) (hg : KeepsUpdates s a)
    (hs : s.step own a = some s') : s'.untouched = true ∨ LateInv s' := by
  -- an untouched session is neither requesting nor hinting
  have huntouched (hu : s.untouched = true) :
      s.log = [] ∧ s.handler = .idle ∧ s.notifyWork = .idle := by
    simpa [untouched, and_assoc] using hu
  have hquiet {t : Session D} (hq : Quiet s t.vars) (hhandler : t.handler = s.handler)
      (hschedules : s.handler = .marking → D.schedules t.vars = D.schedules s.vars)
      (hhint : t.hint = s.hint) (hwork : t.notifyWork = s.notifyWork) (hlog : t.log = s.log) :
      t.untouched = true ∨ LateInv t := by
    have hu : t.untouched = s.untouched := by simp only [untouched, hhandler, hwork, hlog]
    rcases hq with hq | ⟨hdur, hcurrent⟩
    · exact .inl (hu.trans hq)
    · exact h.imp hu.trans
        fun h => h.quiet hcurrent hdur hhandler hschedules hhint hwork hlog
  cases step_sound hs with
  | irq => exact h.imp id fun h => ⟨h.current, h.idle, h.marking, h.scheduling⟩
  | inactive => exact h.imp id fun h => ⟨h.current, h.idle, h.marking, h.scheduling⟩
  | @store x v request hidle _ hupdate =>
    have hgx := hg _ hupdate
    cases request with
    | true =>
      refine .inr ⟨hD.update _ _ _ hupdate, by simp [Session.store], ?_,
        by simp [Session.store]⟩
      intro _
      exact hgx
    | false =>
      exact hquiet hgx hidle.symm (by simp [hidle]) rfl rfl rfl
  | drift => exact hquiet hg rfl (fun _ => hD.drift _ _) rfl rfl rfl
  | mark hm =>
    rcases h with hu | h
    · simp [(huntouched hu).2.1] at hm
    · exact .inr (h.mark hm (hg hm))
  | schedule hsch =>
    rcases h with hu | h
    · simp [(huntouched hu).2.1] at hsch
    · exact .inr (h.schedule hD hsch)
  | workStart hq =>
    rcases h with hu | h
    · simp [(huntouched hu).2.2] at hq
    · exact .inr (h.workStart hs)
  | testNone hr | testMark hr | testRead hr | workMark hr | read hr | deliverLast hr | deliver hr
  | workMarkAfter hr =>
    rcases h with hu | h
    · simp [(huntouched hu).2.2] at hr
    · exact .inr (h.work hD hs)
  | remove | timeout => exact hg.elim
  | reset hreset => exact hquiet (hg _ hreset) rfl (fun _ => hD.reset _ hreset _) rfl rfl rfl
  | resetCancel _ hcancels => simp [hD.resetCancels] at hcancels

theorem start (hD : MarksLast D) {c : D.Config} {isReset : Bool}
    (hstart : StartsCurrent D own c isReset) :
    (start D own c isReset).untouched = true ∨ LateInv (start D own c isReset) := by
  have hempty (hl : (Session.start D own c isReset).log = []) :
      (Session.start D own c isReset).untouched = true := by
    rw [untouched, hl]
    rfl
  rcases start_log_eq own c isReset with hl | ⟨-, hl⟩
  · exact .inl (hempty hl)
  · rcases hstart with hl' | hdur
    · exact .inl (hempty hl')
    · right
      refine ⟨hD.init c, fun _ => .inr ?_, by simp [Session.start], by simp [Session.start]⟩
      simp only [fresh, hl]
      simp [Session.start, lastOpen, opens, Event.value?, hdur]

/-- When nothing is under way, the last hint carried the duration the frames use. -/
theorem last_hint (h : s.untouched = true ∨ LateInv s) (hidle : s.handler = .idle)
    (hwork : s.notifyWork = .idle) {d cur : Duration} (hd : lastOpen s.log = some d)
    (hcur : D.curDur s.vars = some cur) : d = cur := by
  rcases h with hu | h
  · simp [untouched] at hu
    simp [hu.1.1] at hd
  · have hf := (h.idle hidle).resolve_left (by simp [pending, requested, hwork])
    simp only [fresh, hwork, Work.running_idle, decide_eq_true_eq, hd, Option.some.injEq] at hf
    exact hf.trans (h.current _ hcur).symm

end LateInv

end Media.Session

namespace Media

/-- The decoders whose notify work delivers first and marks afterwards. -/
inductive LateMarker
  | h264
  | mpeg4
  | h265Single
  | h265Multi
  deriving DecidableEq, Repr

namespace LateMarker

def driver : LateMarker → Driver
  | h264 => H264.driver
  | mpeg4 => Mpeg4.driver
  | h265Single => H265.singleDriver
  | h265Multi => H265.multiDriver

end LateMarker

namespace H264

theorem marksLast : Session.MarksLast driver where
  order := rfl
  tests := by decide
  resetCancels := rfl
  init _ := by simp [Session.Current, driver]
  update _ _ _ _ := by simp [Session.Current, driver]
  drift _ _ := rfl
  reset _ _ _ := rfl
  afterSchedule _ := ⟨rfl, rfl⟩

end H264

namespace H265

theorem marksLast {Config : Type} {init : Config → Vars} {initDur : Vars → Duration}
    {own : HintVar} {remove : List RemoveStep} :
    Session.MarksLast (driver init initDur own remove) where
  order := rfl
  tests := by simp [driver]
  resetCancels := rfl
  init _ := by simp [Session.Current, driver]
  update _ _ _ _ := by simp [Session.Current, driver]
  drift _ y := nomatch y
  reset _ h := by simp [driver] at h
  afterSchedule _ := ⟨rfl, rfl⟩

end H265

namespace Mpeg4

/-- A rate that is requested is given to the frame. -/
theorem duration_of_isr {v v' : Vars} {x : Frame} (h : isr v x = some (v', true)) :
    v'.duration = some v'.rate := by
  obtain ⟨w, hw, -, hv⟩ := (isr_eq_some_iff v x).mp h
  have hduration : w.duration = some w.rate := by
    simp only [determineRate] at hw
    grind
  rw [show v' = _ from hv]
  split <;> exact hduration

theorem marksLast : Session.MarksLast driver where
  order := rfl
  tests := by decide
  resetCancels := rfl
  init _ := by simp [Session.Current, driver, init]
  update _ _ _ h := by simp [Session.Current, driver, duration_of_isr h]
  drift _ y := nomatch y
  reset _ _ _ := rfl
  afterSchedule _ := ⟨rfl, rfl⟩

end Mpeg4

namespace LateMarker

theorem marksLast : (k : LateMarker) → Session.MarksLast k.driver
  | h264 => H264.marksLast
  | mpeg4 => Mpeg4.marksLast
  | h265Single | h265Multi => H265.marksLast

/-- Only multi-instance H.265 hints another duration at init than its frames use. -/
theorem startsCurrent : (k : LateMarker) → k ≠ h265Multi → ∀ (own : Bool) (c : k.driver.Config)
    (isReset : Bool), Session.StartsCurrent k.driver own c isReset
  | h264, _, _, _, _ | mpeg4, _, _, _, _ | h265Single, _, _, _, _ => .inr rfl
  | h265Multi, h, _, _, _ => absurd rfl h

/-- **The hint is the duration in use**, along every run that begins with the duration in use and
loses no update: whenever no notify work is queued or running and no update is in progress, the last
`FR_HINT` carried the duration the frames use. -/
theorem late_hint_current (k : LateMarker) {own isReset : Bool} {c : k.driver.Config}
    {as : List (Session.Action k.driver)} {s : Session k.driver}
    (hstart : Session.StartsCurrent k.driver own c isReset)
    (r : Run (Session.step own) Session.KeepsUpdates (Session.start k.driver own c isReset) as s)
    (hhandler : s.handler = .idle) (hwork : s.notifyWork = .idle) {d cur : Duration}
    (hd : lastOpen s.log = some d) (hcur : k.driver.curDur s.vars = some cur) : d = cur := by
  have hlate := r.invariant (I := fun s => s.untouched = true ∨ s.LateInv)
    (Session.LateInv.start k.marksLast hstart)
    fun _ _ _ h hg hs => Session.LateInv.step k.marksLast h hg hs
  exact Session.LateInv.last_hint hlate hhandler hwork hd hcur

/-- A 25 fps session of the single-instance H.264 decoder whose stream says 24 fps. -/
theorem late_hint_current_h264 :
    ∃ s : Session H264.driver, s.log = [frHint 3840, frHint 4000] ∧
      ∀ d, lastOpen s.log = some d → d = s.vars.frameDur := by
  obtain ⟨s, r, hhandler, hwork, hlog⟩ := exists_run_of_exec (Session.step true)
    Session.KeepsUpdates (Session.start H264.driver true ⟨3840, false, false⟩ false)
    [.irq, .update ⟨false, 2, 1, 48⟩, .handler, .handler, .workStart, .work, .work, .work, .work]
    (fun s => s.handler = .idle ∧ s.notifyWork = .idle ∧ s.log = [frHint 3840, frHint 4000])
    (by decide)
  exact ⟨s, hlog, fun _ hd => late_hint_current h264 (startsCurrent h264 (by decide) _ _ _) r
    hhandler hwork hd rfl⟩

/-- A change to 30 fps while the hint for 24 fps is being delivered is marked as hinted by the
notify work, and never delivered. -/
theorem not_late_hint_current :
    ¬ ∀ (k : LateMarker) (own isReset : Bool) (c : k.driver.Config)
        (as : List (Session.Action k.driver)) (s : Session k.driver),
      Run (Session.step own) Always (Session.start k.driver own c isReset) as s →
        s.handler = .idle → s.notifyWork = .idle →
          ∀ d cur, lastOpen s.log = some d → k.driver.curDur s.vars = some cur → d = cur := by
  intro h
  obtain ⟨s, r, hhandler, hwork, hlast, hcur⟩ := exists_run_of_exec (Session.step true)
    Always (Session.start H264.driver true ⟨3840, false, false⟩ false)
    [.irq, .update ⟨false, 2, 1, 48⟩, .handler, .handler, .workStart, .work, .work, .work,
      .irq, .update ⟨false, 2, 1, 60⟩, .handler, .work, .handler, .workStart, .work]
    (fun s => s.handler = .idle ∧ s.notifyWork = .idle ∧ lastOpen s.log = some 4000 ∧
      s.vars.frameDur = 3200) (by decide)
  have hd := h h264 true false _ _ s r hhandler hwork 4000 3200 hlast (congrArg some hcur)
  exact absurd hd (by decide)

end LateMarker

end Media
