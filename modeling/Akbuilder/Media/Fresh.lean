import Akbuilder.Media.Decoders

/-!
# The last hint carries the current duration

A request races with the notify work on the hint variable and on the duration. The hint is fresh
when the last delivery, or the one under way, carries the duration in use. A notify work that marks
the request before it reads the duration loses no update; one that delivers first loses the updates
that come between its delivery and its mark.

## Main definitions

* `Session.fresh`, `Session.requested`: the hint is fresh; a request will be found
* `Session.Updates`: the steps of the duration code and of the notify work
* `Session.KeepsUpdates`: what keeps the hint fresh when the notify work delivers first

## Main results

* `H264Multi.last_hint_current`: the notify work that marks first loses no update
-/

open Bracket Transition

namespace Media.Session

variable {D : Driver} {own : Bool} {s s' : Session D} {a : Action D}

/-- The last hint carried the current duration, or the one under way will. -/
def fresh (s : Session D) : Bool :=
  match s.notifyWork.running with
  | none | some .test | some (.markAfter _) => lastOpen s.log = some (D.readDur s.vars)
  | some (.mark _) | some (.read _) => true
  | some (.deliver _ d) => d = D.readDur s.vars

/-- The notify work will test the request variable, which holds a request. -/
def requested (s : Session D) : Bool :=
  s.hint D.request = .needHint && (s.notifyWork.queued || s.notifyWork.running = some .test)

/-- Steps of the duration code and of the notify work. -/
def Updates (_ : Session D) : Action D → Prop
  | .update _ | .handler | .workStart | .work => True
  | .irq | .drift _ | .remove | .timeout | .reset => False

instance : ∀ (s : Session D) (a : Action D), Decidable (Updates s a)
  | _, .update _ | _, .handler | _, .workStart | _, .work => isTrue trivial
  | _, .irq | _, .drift _ | _, .remove | _, .timeout | _, .reset => isFalse id

/-- The hint stays fresh while the log and the duration stay. -/
theorem fresh_congr (hrun : s'.notifyWork.running = s.notifyWork.running) (hlog : s'.log = s.log)
    (hdur : D.readDur s'.vars = D.readDur s.vars) : s'.fresh = s.fresh := by
  simp only [fresh, hrun, hlog, hdur]

/-- **The notify work keeps the hint fresh.** -/
theorem fresh_work (h : s.fresh = true) (hs : s.step own .work = some s') : s'.fresh = true := by
  cases step_sound hs with
  | testNone hr | workMarkAfter hr =>
    simp only [fresh, hr, Work.running_finish, decide_eq_true_eq] at h ⊢
    exact h
  | testMark | testRead | workMark | read => simp [fresh]
  | deliverLast hr | deliver hr =>
    simp only [fresh, hr, decide_eq_true_eq] at h
    simp [fresh, h]

theorem fresh_workStart (h : s.fresh = true) (hs : s.step own .workStart = some s') :
    s'.fresh = true := by
  cases step_sound hs with
  | workStart hq hr =>
    simp only [fresh, hr, decide_eq_true_eq] at h ⊢
    exact h

/-! ## Marking first -/

/-- A decoder whose notify work marks a request before it reads the duration, and whose every
change of the duration is a request. -/
structure MarksFirst (D : Driver) : Prop where
  order : D.order = .markFirst
  tests : D.request ∈ D.tests
  schedules : ∀ v, D.schedules v = true
  afterSchedule : ∀ v, D.readDur (D.afterSchedule v) = D.readDur v
  update : ∀ v x v', D.update v x = some (v', false) → D.readDur v' = D.readDur v

/-- The invariant once a change has happened. -/
structure FreshInv (s : Session D) : Prop where
  idle : s.handler = .idle → s.requested = true ∨ s.fresh = true
  scheduling : s.handler = .scheduling → s.hint D.request = .needHint ∨ s.fresh = true

namespace FreshInv

theorem work (hD : MarksFirst D) (h : FreshInv s) (hn : NotifyInv s)
    (hs : s.step own .work = some s') : FreshInv s' := by
  have hhandler : s'.handler = s.handler := by
    cases step_sound hs <;> rfl
  -- a request not tested yet stays, or the notify work goes on to read the duration
  have hneed (hr : s.hint D.request = .needHint) :
      s'.hint D.request = .needHint ∧ s'.notifyWork.queued = s.notifyWork.queued ∧
        s.notifyWork.running ≠ some .test ∨ s'.fresh = true := by
    cases step_sound hs with
    | testNone _ hnone => exact absurd hr (hnone _ hD.tests)
    | testMark | testRead | workMark | read => simp [fresh]
    | deliverLast hrun => simp [hr, hrun]
    | deliver _ ho => simp [hD.order] at ho
    | workMarkAfter hrun => exact absurd (hn.order _ hrun) (by simp [hD.order])
  constructor
  · intro hi
    rcases h.idle (hhandler ▸ hi) with hreq | hf
    · simp only [requested, Bool.and_eq_true, decide_eq_true_eq, Bool.or_eq_true] at hreq ⊢
      rcases hneed hreq.1 with ⟨hr, hq, ht⟩ | hf
      · exact .inl ⟨hr, .inl (by rw [hq]; exact hreq.2.resolve_right ht)⟩
      · exact .inr hf
    · exact .inr (fresh_work hf hs)
  · intro hsch
    rcases h.scheduling (hhandler ▸ hsch) with hr | hf
    · exact (hneed hr).imp And.left id
    · exact .inr (fresh_work hf hs)

/-- **Every step of the race keeps the invariant.** -/
theorem step (hD : MarksFirst D) (h : FreshInv s) (hn : NotifyInv s) (hg : Updates s a)
    (hs : s.step own a = some s') : FreshInv s' := by
  cases step_sound hs with
  -- not steps of the race
  | irq | drift | remove | timeout | reset | resetCancel => exact hg.elim
  | @store x v request hidle hadmits hupdate =>
    cases request with
    | true => constructor <;> simp [Session.store]
    | false =>
      -- without a request the duration is the one before
      have hf : (s.store v false).fresh = s.fresh :=
        fresh_congr rfl rfl (hD.update _ _ _ hupdate)
      refine ⟨?_, by simp [Session.store]⟩
      intro _
      rw [hf]
      exact h.idle hidle
  | inactive => exact ⟨h.idle, h.scheduling⟩
  | mark =>
    constructor
    · simp [hD.schedules]
    · exact fun _ => .inl (by simp)
  | schedule hm =>
    refine ⟨?_, by simp⟩
    intro _
    rcases h.scheduling hm with hr | hf
    · exact .inl (by simp [requested, hr])
    · right
      rw [← hf]
      exact fresh_congr rfl rfl (hD.afterSchedule _)
  | workStart hq hrun =>
    constructor
    · intro hi
      rcases h.idle hi with hr | hf
      · left
        simpa [requested] using (Bool.and_eq_true_iff.mp hr).1
      · exact .inr (fresh_workStart hf hs)
    · intro hsch
      exact (h.scheduling hsch).imp id (fresh_workStart · hs)
  | _ => exact h.work hD hn hs

/-- When nothing is under way, the last hint carried the current duration. -/
theorem last_hint (h : FreshInv s) (hidle : s.handler = .idle) (hwork : s.notifyWork = .idle) :
    lastOpen s.log = some (D.readDur s.vars) := by
  have hf : s.fresh = true := (h.idle hidle).resolve_left (by simp [requested, hwork])
  simpa [fresh, hwork] using hf

end FreshInv

end Media.Session

namespace Media.H264Multi

/-- `vui_config` requests a hint with every change. -/
theorem vuiConfig_eq_self {v : Vars} {x : Vui} (h : (vuiConfig v x).2 = false) :
    (vuiConfig v x).1 = v := by
  unfold vuiConfig at h ⊢
  grind

theorem marksFirst : Session.MarksFirst driver where
  order := rfl
  tests := by decide
  schedules _ := rfl
  afterSchedule _ := rfl
  update v x v' h := by
    obtain ⟨rfl, h₂⟩ := Prod.mk.inj (Option.some.inj h)
    exact congrArg Vars.frameDur (vuiConfig_eq_self h₂)

/-- **No update is lost in the multi-instance H.264 decoder**: after a change of `frame_dur`,
whenever no notify work is queued or running and no `vui_config` is in progress, the last
`FR_HINT` carried the current `frame_dur`. -/
theorem last_hint_current {own isReset : Bool} {c : Config} {x : Vui}
    {as bs : List (Session.Action driver)} {t t' s : Session driver}
    (r : Run (Session.step own) Session.Updates (Session.start driver own c isReset) as t)
    (hx : t.step own (.update x) = some t') (hchange : t'.vars.frameDur ≠ t.vars.frameDur)
    (r' : Run (Session.step own) Session.Updates t' bs s)
    (hhandler : s.handler = .idle) (hwork : s.notifyWork = .idle) :
    lastOpen s.log = some s.vars.frameDur := by
  have hn : t'.NotifyInv := (Session.NotifyInv.run r).step hx
  -- the change is a request, from which on the invariant holds
  have hmarking : t'.handler = .marking := by
    cases Session.step_sound hx with
    | inactive => exact absurd rfl hchange
    | @store _ v request _ _ hupdate =>
      cases request with
      | true => rfl
      | false => exact absurd (marksFirst.update _ _ _ hupdate) hchange
  have hfresh := r'.invariant (I := fun s => s.FreshInv ∧ s.NotifyInv)
    ⟨by constructor <;> simp [hmarking], hn⟩
    fun _ _ _ h hg hs => ⟨h.1.step marksFirst h.2 hg hs, h.2.step hs⟩
  exact hfresh.1.last_hint hhandler hwork

/-- 25 fps at init, 30 fps from the first parameter set while the hint is being delivered. -/
theorem last_hint_current_two_changes :
    ∃ s : Session driver, s.notifyWork = .idle ∧ s.log = [frHint 3840, frHint 4000, frHint 3200] ∧
      lastOpen s.log = some s.vars.frameDur := by
  obtain ⟨t, r, ht⟩ := exists_run_of_exec (Session.step true) Session.Updates
    (Session.start driver true ⟨3840, false, false⟩ false)
    [.update ⟨2, 0, 1, 48⟩, .handler, .handler, .workStart, .work, .work, .work]
    (fun t => (t.step true (.update ⟨2, 0, 1, 60⟩)).any (fun t' =>
      t'.vars.frameDur ≠ t.vars.frameDur ∧
        (exec (Session.step true) Session.Updates t'
          [.handler, .handler, .work, .workStart, .work, .work, .work, .work]).any (fun s =>
            s.handler = .idle ∧ s.notifyWork = .idle ∧
              s.log = [frHint 3840, frHint 4000, frHint 3200])) = true) (by decide)
  obtain ⟨t', hx, ht⟩ := Option.any_eq_true _ _ |>.mp ht
  obtain ⟨hchange, ht⟩ := of_decide_eq_true ht
  obtain ⟨s, r', hhandler, hwork, hlog⟩ := exists_run_of_exec _ _ _ _ _ ht
  exact ⟨s, hwork, hlog, last_hint_current r hx hchange r' hhandler hwork⟩

end Media.H264Multi
