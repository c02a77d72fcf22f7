import Akbuilder.Media.Decoders

/-!
# Balanced sessions

A session is balanced when its log is closed: one `FR_END_HINT` after the last `FR_HINT`, or no
notification at all. The hint variable forgets that a hint was sent as soon as the next one is
requested, so a session is balanced when its end test does not meet that state.

## Main definitions

* `Session.BalanceGuard`: the end test meets a truthful variable, and no request follows it
* `Session.BalanceInv`: the invariant of the sessions that obey it

## Main results

* `Session.BalanceInv.step`: a guarded step keeps the invariant
-/

open Bracket Transition

namespace Media.Session

variable {D : Driver} {s s' : Session D} {a : Action D}

/-- **What keeps a session balanced**: when the remove comes to its end test, the variable says
`VDEC_HINTED` or nothing was hinted, and no hint is about to be delivered; after the end test the
notify work finds no request. -/
def BalanceGuard (s : Session D) : Action D → Prop
  | .remove =>
    s.todo.head? = some .endHint →
      (s.hint D.own = .hinted ∨ s.log = []) ∧ s.inFlight = false
  | .work =>
    s.notifyWork.running = some .test → .endHint ∉ s.todo → ∀ v ∈ D.tests, s.hint v ≠ .needHint
  | _ => True

instance : ∀ (s : Session D) (a : Action D), Decidable (BalanceGuard s a)
  | _, .remove => inferInstanceAs (Decidable (_ → _))
  | _, .work => inferInstanceAs (Decidable (_ → _ → _))
  | _, .irq | _, .update _ | _, .drift _ | _, .handler | _, .workStart | _, .timeout | _, .reset =>
    isTrue trivial

/-- The invariant of a balanced session, before and after its end test. -/
structure BalanceInv (s : Session D) : Prop where
  once : s.todo.count .endHint ≤ 1
  opening : .endHint ∈ s.todo → Opening s.log
  hinted : .endHint ∈ s.todo → s.hint D.own = .hinted → s.log ≠ [] ∨ s.inFlight = true
  delivered : ∀ v, s.notifyWork.running = some (.markAfter v) → s.log ≠ []
  closed : .endHint ∉ s.todo → Closed s.log ∧ s.inFlight = false

namespace BalanceInv

/-- The invariant reads the remove, the log, the end variable and the notify work only. -/
theorem congr (h : BalanceInv s) (htodo : s'.todo = s.todo) (hlog : s'.log = s.log)
    (hhint : s'.hint D.own = .hinted → s.hint D.own = .hinted)
    (hrun : s'.notifyWork.running = s.notifyWork.running) : BalanceInv s' := by
  have hf : s'.inFlight = s.inFlight := by rw [inFlight, hrun, inFlight]
  constructor
  · rw [htodo]; exact h.once
  · rw [htodo, hlog]; exact h.opening
  · rw [htodo, hlog, hf]; exact fun hm hh => h.hinted hm (hhint hh)
  · rw [hlog, hrun]; exact h.delivered
  · rw [htodo, hlog, hf]; exact h.closed

theorem start (hremove : D.remove.count .endHint = 1) (c : D.Config) (isReset : Bool) :
    BalanceInv (start D true c isReset) := by
  have hmem : .endHint ∈ D.remove := List.count_pos_iff.mp (by omega)
  constructor
  · exact hremove.le
  · exact fun _ => (start_log_changeOnly c isReset).2
  · exact fun _ hh => .inl (start_log_ne_nil hh)
  · simp [Session.start]
  · exact fun h => absurd hmem h

/-- The notify work moves on between two hints. -/
theorem goto (h : BalanceInv s) {w : Work NotifyPc}
    (hin : s.inFlight = true → w.running.any NotifyPc.inFlight = true)
    (hend : .endHint ∉ s.todo → w.running.any NotifyPc.inFlight = false)
    (hafter : ∀ v, w.running ≠ some (.markAfter v)) :
    BalanceInv { s with notifyWork := w } where
  once := h.once
  opening := h.opening
  hinted hm hh := (h.hinted hm hh).imp id hin
  delivered v hv := absurd hv (hafter v)
  closed hm := ⟨(h.closed hm).1, hend hm⟩

/-- A hint in flight is one before the end test. -/
theorem mem_todo (h : BalanceInv s) (hf : s.inFlight = true) : .endHint ∈ s.todo := by
  by_contra hm
  simp [(h.closed hm).2] at hf

/-- The notify work marks the request it has found. -/
theorem workMark (h : BalanceInv s) {v : HintVar}
    (hrun : s.notifyWork.running = some (.mark v)) :
    BalanceInv { s.setHint v .hinted with notifyWork := s.notifyWork.goto (.read v) } where
  once := h.once
  opening := h.opening
  hinted _ _ := .inr rfl
  delivered u hu := by simp at hu
  closed hm := absurd (h.mem_todo (by simp [inFlight, hrun, NotifyPc.inFlight])) hm

/-- The notify work delivers a hint, and goes on to a point that is not another delivery. -/
theorem deliver (h : BalanceInv s) {v : HintVar} {d : Duration}
    (hrun : s.notifyWork.running = some (.deliver v d)) {w : Work NotifyPc} :
    BalanceInv { s with log := s.log ++ [frHint d], notifyWork := w } where
  once := h.once
  opening hm := (h.opening hm).snoc_opened
  hinted _ _ := .inl (by simp)
  delivered _ _ := by simp
  closed hm := absurd (h.mem_todo (by simp [inFlight, hrun, NotifyPc.inFlight])) hm

/-- The notify work marks the request it has served. -/
theorem workMarkAfter (h : BalanceInv s) {v : HintVar}
    (hrun : s.notifyWork.running = some (.markAfter v)) :
    BalanceInv { s.setHint v .hinted with notifyWork := s.notifyWork.finish } where
  once := h.once
  opening := h.opening
  hinted _ _ := .inl (h.delivered v hrun)
  delivered u hu := by simp at hu
  closed hm := ⟨(h.closed hm).1, rfl⟩

/-- The remove goes on, past a step that is not the end test. -/
theorem pop (h : BalanceInv s) {r : RemoveStep} {rs : List RemoveStep} (htodo : s.todo = r :: rs)
    (hr : r ≠ .endHint) : BalanceInv { s with todo := rs } := by
  have hmem : .endHint ∈ s.todo ↔ .endHint ∈ rs := by simp [htodo, hr.symm]
  constructor
  · exact count_tail_le h.once htodo
  · exact fun hm => h.opening (hmem.mpr hm)
  · exact fun hm => h.hinted (hmem.mpr hm)
  · exact h.delivered
  · exact fun hm => h.closed (hmem.not.mpr hm)

/-- **The end test** closes the log. -/
theorem endHint (h : BalanceInv s) {rs : List RemoveStep} (htodo : s.todo = .endHint :: rs)
    (hg : (s.hint D.own = .hinted ∨ s.log = []) ∧ s.inFlight = false) :
    BalanceInv { s.endHint with todo := rs } := by
  have hmem : .endHint ∈ s.todo := by simp [htodo]
  have hrs : .endHint ∉ rs := endHint_notMem h.once htodo
  constructor
  · exact count_tail_le h.once htodo
  · exact fun hm => absurd hm hrs
  · exact fun hm => absurd hm hrs
  · intro v hv
    have hne := h.delivered v hv
    simp only [Session.endHint]
    split
    · simp
    · exact hne
  · intro _
    refine ⟨?_, hg.2⟩
    simp only [Session.endHint]
    split
    · next hh =>
      -- the variable is truthful, so there is something to end
      have hne : s.log ≠ [] := (h.hinted hmem hh).resolve_right (by simp [hg.2])
      exact (h.opening hmem).close hne
    · next hh =>
      -- nothing was hinted, and nothing is ended
      exact hg.1.resolve_left hh ▸ .nil

/-- **A guarded step keeps the invariant**, when the session owns the hint at its end test. -/
theorem step {own : Bool} (h : BalanceInv s) (hown : s.todo.head? = some .endHint → own = true)
    (hg : BalanceGuard s a) (hs : s.step own a = some s') : BalanceInv s' := by
  cases step_sound hs with
  | irq => exact h.congr rfl rfl id rfl
  | store => exact h.congr rfl rfl id rfl
  | inactive => exact h.congr rfl rfl id rfl
  | drift => exact h.congr rfl rfl id rfl
  | mark =>
    refine h.congr rfl rfl ?_ rfl
    intro hh
    -- a request never makes a variable say `VDEC_HINTED`
    simp only [hint_setHint, Function.update_apply] at hh
    split at hh
    · cases hh
    · exact hh
  | schedule => exact h.congr rfl rfl id rfl
  | workStart hq hrun =>
    exact h.goto (by simp [inFlight, hrun]) (fun _ => rfl) (by simp)
  | testNone hrun =>
    exact h.goto (by simp [inFlight, hrun, NotifyPc.inFlight]) (fun _ => rfl) (by simp)
  | testMark hrun hv hneed =>
    exact h.goto (fun _ => rfl) (fun hm => absurd hneed (hg hrun hm _ hv)) (by simp)
  | testRead hrun hv hneed =>
    exact h.goto (fun _ => rfl) (fun hm => absurd hneed (hg hrun hm _ hv)) (by simp)
  | workMark hrun => exact h.workMark hrun
  | read hrun =>
    have hf : s.inFlight = true := by simp [inFlight, hrun, NotifyPc.inFlight]
    exact h.goto (fun _ => rfl) (fun hm => absurd (h.mem_todo hf) hm) (by simp)
  | deliverLast hrun => exact h.deliver hrun
  | deliver hrun => exact h.deliver hrun
  | workMarkAfter hrun => exact h.workMarkAfter hrun
  | remove htodo ht =>
    rcases removeStep_cases ht with ⟨rfl, rfl⟩ | ⟨hr, -, hhint, hlog, hrun⟩
    · -- the end test is reached by the owner
      obtain rfl := hown (by simp [htodo])
      exact h.endHint htodo (hg (by simp [htodo]))
    · exact (h.pop htodo hr).congr rfl hlog (fun hh => hhint ▸ hh) hrun
  | timeout htodo => exact (h.pop htodo (by simp)).congr rfl rfl id rfl
  | reset => exact h.congr rfl rfl id rfl
  | resetCancel _ _ _ hrun => exact h.congr rfl rfl id hrun.symm

end BalanceInv

/-! ## Removes that stop the duration code before the end test -/

/-- **What closes a single-instance session**: when the remove comes to its end test, the
variable says `VDEC_HINTED` or nothing was hinted, no hint is about to be delivered, and the notify
work is not queued unless it is cancelled later. -/
def EndGuard (s : Session D) : Action D → Prop
  | .remove =>
    s.todo.head? = some .endHint →
      (s.hint D.own = .hinted ∨ s.log = []) ∧ s.inFlight = false ∧
        (.cancelNotify ∈ s.todo ∨ s.notifyWork.queued = false)
  | _ => True

instance : ∀ (s : Session D) (a : Action D), Decidable (EndGuard s a)
  | _, .remove => inferInstanceAs (Decidable (_ → _))
  | _, .irq | _, .update _ | _, .drift _ | _, .handler | _, .workStart | _, .work | _, .timeout
  | _, .reset => isTrue trivial

/-- A decoder with one hint variable whose remove has stopped the duration code when it comes to
the end test: it has freed the interrupt the code runs in, or deactivated and cancelled the work
that runs it. -/
structure StopsBeforeEnd (D : Driver) : Prop where
  once : D.remove.count .endHint = 1
  request : D.request = D.own
  tests : D.tests = [D.own]
  freed : D.inWork = false → .freeIrq true ∈ D.remove ∧
    ∀ t ∈ D.remove.tails, .endHint ∉ t → .freeIrq true ∉ t
  cancelled : D.inWork = true → .deactivate ∈ D.remove ∧ ∀ t ∈ D.remove.tails,
    (.endHint ∉ t → .cancelParams ∉ t) ∧ (.deactivate ∈ t → .cancelParams ∈ t)

/-- What a remove has stopped, and what stays so after the end test. -/
structure StoppedInv (s : Session D) : Prop where
  suffix : s.todo ∈ D.remove.tails
  freed : D.inWork = false → .freeIrq true ∉ s.todo → s.irq = false ∧ s.handler = .idle
  inactive : D.inWork = true → .deactivate ∉ s.todo → s.active = false
  cancelled : D.inWork = true → .cancelParams ∉ s.todo → s.handler = .idle
  ended : .endHint ∉ s.todo →
    s.hint D.own ≠ .needHint ∧ (.cancelNotify ∈ s.todo ∨ s.notifyWork.queued = false)

namespace StoppedInv

theorem start (hD : StopsBeforeEnd D) (c : D.Config) (isReset : Bool) :
    StoppedInv (start D true c isReset) := by
  have hmem : .endHint ∈ D.remove := List.count_pos_iff.mp (by have := hD.once; omega)
  constructor
  · simp [Session.start, List.mem_tails]
  · exact fun hw hf => absurd (hD.freed hw).1 hf
  · exact fun hw hd => absurd (hD.cancelled hw).1 hd
  · exact fun _ _ => rfl
  · exact fun h => absurd hmem h

/-- While a request is being made or can be made, the end test is still to come. -/
theorem mem_todo (hD : StopsBeforeEnd D) (h : StoppedInv s)
    (hbusy : s.handler = .idle → s.admits = true) : .endHint ∈ s.todo := by
  by_contra hend
  cases hw : D.inWork with
  | false =>
    -- the interrupt was freed before the end test
    obtain ⟨hirq, hidle⟩ := h.freed hw ((hD.freed hw).2 _ h.suffix hend)
    simpa [admits, hw, hirq] using hbusy hidle
  | true =>
    -- the decoder was deactivated, and then the work cancelled
    obtain ⟨hc, hd⟩ := (hD.cancelled hw).2 _ h.suffix
    have hactive := h.inactive hw fun hm => hc hend (hd hm)
    simpa [admits, hw, hactive] using hbusy (h.cancelled hw (hc hend))

/-- Steps that leave the remove and the duration code alone. -/
theorem congr (h : StoppedInv s) (htodo : s'.todo = s.todo) (hirq : s'.irq = s.irq)
    (hactive : s'.active = s.active) (hhandler : s'.handler = s.handler)
    (hhint : s.hint D.own ≠ .needHint → s'.hint D.own ≠ .needHint)
    (hqueued : s.notifyWork.queued = false → s'.notifyWork.queued = false) : StoppedInv s' := by
  constructor
  · rw [htodo]; exact h.suffix
  · rw [htodo, hirq, hhandler]; exact h.freed
  · rw [htodo, hactive]; exact h.inactive
  · rw [htodo, hhandler]; exact h.cancelled
  · rw [htodo]
    exact fun he => ⟨hhint (h.ended he).1, (h.ended he).2.imp id hqueued⟩

/-- Steps of the duration code, which is not stopped yet. -/
theorem busy (hD : StopsBeforeEnd D) (h : StoppedInv s)
    (hbusy : s.handler = .idle → s.admits = true) (htodo : s'.todo = s.todo)
    (hactive : s'.active = s.active) : StoppedInv s' := by
  have hend := h.mem_todo hD hbusy
  constructor
  · rw [htodo]; exact h.suffix
  · rw [htodo]
    intro hw hf
    obtain ⟨hirq, hidle⟩ := h.freed hw hf
    simpa [admits, hw, hirq] using hbusy hidle
  · rw [htodo, hactive]; exact h.inactive
  · rw [htodo]
    intro hw hc
    have hd : .deactivate ∉ s.todo := fun hd => hc (((hD.cancelled hw).2 _ h.suffix).2 hd)
    simpa [admits, hw, h.inactive hw hd] using hbusy (h.cancelled hw hc)
  · rw [htodo]; exact fun he => absurd hend he

/-- A step of the remove. -/
theorem remove (h : StoppedInv s) {r : RemoveStep} {rs : List RemoveStep}
    (htodo : s.todo = r :: rs) (hr : s.removeStep true r = some s')
    (hg : r = .endHint → .cancelNotify ∈ s.todo ∨ s.notifyWork.queued = false) :
    StoppedInv { s' with todo := rs } := by
  obtain ⟨hirq, hactive, hhandler, hqueued⟩ := removeStep_mono hr
  -- a step that is no longer in the remainder is the one just taken, or was taken before
  have hmem {x : RemoveStep} (hx : x ∉ rs) : x = r ∨ x ∉ s.todo := by
    by_cases hxr : x = r
    · exact .inl hxr
    · exact .inr (by simp [htodo, hxr, hx])
  constructor
  · exact tail_mem_tails h.suffix htodo
  · intro hw hf
    rcases hmem hf with rfl | hf
    · simp only [removeStep, Option.ite_none_right_eq_some, Option.some.injEq] at hr
      obtain ⟨hidle, rfl⟩ := hr
      exact ⟨rfl, hidle trivial⟩
    · exact ⟨hirq (h.freed hw hf).1, hhandler.trans (h.freed hw hf).2⟩
  · intro hw hd
    rcases hmem hd with rfl | hd
    · obtain rfl := Option.some.inj hr
      rfl
    · exact hactive (h.inactive hw hd)
  · intro hw hc
    rcases hmem hc with rfl | hc
    · simp only [removeStep, Option.ite_none_right_eq_some, Option.some.injEq] at hr
      obtain ⟨hidle, rfl⟩ := hr
      exact hidle
    · exact hhandler.trans (h.cancelled hw hc)
  · intro he
    rcases hmem he with rfl | he
    · obtain rfl := Option.some.inj hr
      have hq : .cancelNotify ∈ rs ∨ s.notifyWork.queued = false := by simpa [htodo] using hg rfl
      exact ⟨by simp [Session.endHint], hq⟩
    · have hne : r ≠ .endHint := by
        rintro rfl
        simp [htodo] at he
      obtain ⟨-, hhint, -⟩ := removeStep_frame hr hne
      refine ⟨hhint ▸ (h.ended he).1, ?_⟩
      rcases (h.ended he).2 with hc | hq
      · rw [htodo, List.mem_cons] at hc
        rcases hc with rfl | hc
        · -- this step is the late cancel
          obtain ⟨w, hw, rfl⟩ := Option.map_eq_some_iff.mp hr
          obtain ⟨-, rfl⟩ := Work.cancelSync_eq_some.mp hw
          exact .inr rfl
        · exact .inl hc
      · exact .inr (hqueued hq)

/-- The remove gives up waiting for the disconnect. -/
theorem timeout (h : StoppedInv s) {rs : List RemoveStep} (htodo : s.todo = .disconnect :: rs) :
    StoppedInv { s with todo := rs } := by
  have hmem {x : RemoveStep} (hx : x ≠ .disconnect) : x ∈ s.todo ↔ x ∈ rs := by simp [htodo, hx]
  constructor
  · exact tail_mem_tails h.suffix htodo
  · exact fun hw hf => h.freed hw ((hmem (by simp)).not.mpr hf)
  · exact fun hw hd => h.inactive hw ((hmem (by simp)).not.mpr hd)
  · exact fun hw hc => h.cancelled hw ((hmem (by simp)).not.mpr hc)
  · intro he
    have := h.ended ((hmem (by simp)).not.mpr he)
    rwa [hmem (by simp)] at this

/-- **A guarded step keeps what the remove has stopped.** -/
theorem step (hD : StopsBeforeEnd D) (h : StoppedInv s) (hg : EndGuard s a)
    (hs : s.step true a = some s') : StoppedInv s' := by
  cases step_sound hs with
  | irq => exact h.congr rfl rfl rfl rfl id id
  | store hidle hadmits => exact h.busy hD (fun _ => hadmits) rfl rfl
  | inactive => exact h.congr rfl rfl rfl rfl id id
  | drift => exact h.congr rfl rfl rfl rfl id id
  | mark hm => exact h.busy hD (by simp [hm]) rfl rfl
  | schedule hm => exact h.busy hD (by simp [hm]) rfl rfl
  | workStart => exact h.congr rfl rfl rfl rfl id fun _ => rfl
  | testNone | testMark | testRead | read | deliverLast | deliver =>
    exact h.congr rfl rfl rfl rfl id id
  | @workMark v | @workMarkAfter v =>
    exact h.congr rfl rfl rfl rfl (hint_mark (P := (· ≠ .needHint)) (by simp) v) id
  | @remove r rs t htodo ht =>
    refine h.remove htodo ht ?_
    rintro rfl
    exact (hg (by simp [htodo])).2.2
  | timeout htodo => exact h.timeout htodo
  | reset => exact h.congr rfl rfl rfl rfl id id
  | resetCancel => exact h.congr rfl rfl rfl rfl id fun _ => rfl

end StoppedInv

/-- In a decoder that stops before its end test, the end test alone decides. -/
theorem EndGuard.balanceGuard (hD : StopsBeforeEnd D) (h : StoppedInv s) (hg : EndGuard s a) :
    BalanceGuard s a := by
  cases a with
  | remove => exact fun ht => ⟨(hg ht).1, (hg ht).2.1⟩
  | work =>
    -- after the end test no request is left, and none can be made
    intro _ hend v hv
    rw [hD.tests, List.mem_singleton] at hv
    exact hv ▸ (h.ended hend).1
  | _ => trivial

/-- **Closed sessions**: along a guarded run, a remove that has returned leaves a closed log and
no notify work queued. -/
theorem closed_of_run (hD : StopsBeforeEnd D) {c : D.Config} {isReset : Bool}
    {as : List (Action D)} (r : Run (step true) EndGuard (start D true c isReset) as s)
    (hreturned : s.todo = []) : Closed s.log ∧ s.notifyWork.queued = false := by
  obtain ⟨rb, hstopped⟩ := r.mono_of_invariant (H := BalanceGuard) (StoppedInv.start hD c isReset)
    (fun _ _ _ h hg hs => h.step hD hg hs) (fun _ _ _ h hg _ => hg.balanceGuard hD h)
  have hbalance := rb.invariant (BalanceInv.start hD.once c isReset)
    fun _ _ _ h hg hs => h.step (fun _ => rfl) hg hs
  have hend : .endHint ∉ s.todo := by simp [hreturned]
  refine ⟨(hbalance.closed hend).1, ?_⟩
  simpa [hreturned] using (hstopped.ended hend).2

end Media.Session
