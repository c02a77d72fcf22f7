import Akbuilder.Media.Decoders

/-!
# The probe of a decoder and its works

A probe initialises the works of the decoder with `INIT_WORK`, adds the timer and starts the
hardware. The hint works of four single-instance decoders are initialised last, when interrupts and
timer ticks that schedule them already come: a work is then scheduled before it is initialised, or
loses the request when it is.

## Main definitions

* `DecoderProbe`: what one decoder has of its own: its probe, and what schedules which work
* `Probing`, `Probing.step`: a probe, with the interrupts, the ticks and the works beside it
* `Probing.NoneLeft`: the last session left no hint work pending
* `Probing.InitFirst`: a hint work is scheduled only once the probe has initialised it

## Main results

* `OpenDecoder.safe_of_initFirst`: under `NoneLeft` and `InitFirst` no hint work is scheduled
  uninitialised, and none loses a request
* `OpenDecoder.initFirst_of_safe`: on the first open, only then
-/

open Transition

namespace Media

/-- The works of the decoders. -/
inductive WorkName
  | notify
  | setParameter
  | setClk
  | userdataPush
  | reset
  | fatalErrorWd
  | longCabacWd
  | errorWd
  | streamSwitching
  deriving DecidableEq, Repr

/-- A `work_struct`. -/
inductive Item
  | uninitialised
  | idle
  | pending
  deriving DecidableEq, Repr

/-- The steps of a probe that concern the works. -/
inductive ProbeStep
  | initWork (w : WorkName)
  | addTimer
  | start
  deriving DecidableEq, Repr

/-- What one decoder has of its own. -/
structure DecoderProbe where
  Vars : Type
  /-- what an interrupt finds -/
  Frame : Type
  /-- what a tick of the timer finds -/
  Tick : Type
  /-- what a run of a work finds -/
  Params : Type
  /-- the interrupt handler: the new variables, and the works it schedules -/
  irq : Vars → Frame → Vars × List WorkName
  /-- the works that a tick schedules -/
  tick : Tick → List WorkName
  /-- a run of a work -/
  work : WorkName → Vars → Params → Vars × List WorkName
  /-- the works that lead to a hint -/
  hintWorks : List WorkName
  /-- the probe, in order -/
  probe : List ProbeStep

/-! ## The decoders -/

/-- A request for a hint schedules a work. -/
def requesting {V : Type} (w : WorkName) (r : V × Bool) : V × List WorkName :=
  (r.1, if r.2 then [w] else [])

/-- `vmpeg12_isr` with `set_frame_info` for a frame, `vmpeg_put_timer_func` and
`amvdec_mpeg12_probe`. -/
def Mpeg12.opening : DecoderProbe where
  Vars := Mpeg12.Vars
  Frame := Option UInt32
  Tick := Unit
  Params := Unit
  irq v
    | some seqInfo => requesting .notify (Mpeg12.setFrameInfo v seqInfo)
    | none => (v, [])
  tick _ := [.setClk]
  work _ v _ := (v, [])
  hintWorks := [.notify]
  probe :=
    [.initWork .setClk, .addTimer, .start, .initWork .userdataPush, .initWork .notify,
      .initWork .reset]

/-- `vavs_isr` with `set_frame_info` for a frame, `vavs_put_timer_func` and `amvdec_avs_probe`. -/
def Avs.opening : DecoderProbe where
  Vars := Avs.Vars
  Frame := Option UInt32
  Tick := Unit
  Params := Unit
  irq v
    | some avsFrameRate => requesting .notify (Avs.setFrameInfo v avsFrameRate)
    | none => (v, [])
  tick _ := [.setClk]
  work _ v _ := (v, [])
  hintWorks := [.notify]
  probe :=
    [.initWork .setClk, .addTimer, .initWork .longCabacWd, .start, .initWork .fatalErrorWd,
      .initWork .userdataPush, .initWork .notify]

/-- `vh264_isr`, which leaves the parameters to a work; `vh264_put_timer_func`, which does so too
when it leaves the switching state; and `amvdec_h264_probe`. -/
def H264.opening : DecoderProbe where
  Vars := H264.Vars
  Frame := Bool
  Tick := Bool
  Params := H264.Params
  irq v newParameters := (v, if newParameters then [.setParameter] else [])
  tick switched := (if switched then [.setParameter] else []) ++ [.setClk]
  work
    | .setParameter, v, x => requesting .notify (H264.setParams v x)
    | _, v, _ => (v, [])
  hintWorks := [.setParameter, .notify]
  probe :=
    [.addTimer, .start, .initWork .errorWd, .initWork .streamSwitching, .initWork .setParameter,
      .initWork .notify, .initWork .setClk, .initWork .userdataPush]

/-- `vvc1_put_timer_func`, whose work hints the duration, and `amvdec_vc1_probe`. -/
def Vc1.opening : DecoderProbe where
  Vars := Unit
  Frame := Unit
  Tick := Unit
  Params := Unit
  irq v _ := (v, [])
  tick _ := [.setClk]
  work _ v _ := (v, [])
  hintWorks := [.setClk]
  probe := [.addTimer, .start, .initWork .setClk]

/-! ## A probe and what runs beside it -/

/-- A probe under way. -/
structure Probing (D : DecoderProbe) where
  /-- what remains of the probe -/
  todo : List ProbeStep
  timer : Bool
  running : Bool
  item : WorkName → Item
  vars : D.Vars
  /-- the works that were scheduled uninitialised -/
  misused : List WorkName
  /-- the works that were initialised while they were pending -/
  erased : List WorkName

namespace Probing

/-- A step of the probe, an interrupt, a tick of the timer, or a run of a work. -/
inductive Action (D : DecoderProbe)
  | probe
  | irq (x : D.Frame)
  | tick (y : D.Tick)
  | work (w : WorkName) (x : D.Params)

variable {D : DecoderProbe}

/-- A probe begins. The first open finds the works zeroed, a later one as the last session left
them: a request that came after the cancel of a remove, or that no cancel takes back, is still
pending. -/
def start (D : DecoderProbe) (item : WorkName → Item) (vars : D.Vars) : Probing D :=
  { todo := D.probe, timer := false, running := false
    item, vars, misused := [], erased := [] }

/-- The works at the first open. -/
def zeroed : WorkName → Item := fun _ => .uninitialised

/-- The last session left no hint work pending. -/
def NoneLeft (D : DecoderProbe) (item : WorkName → Item) : Prop :=
  ∀ w ∈ D.hintWorks, item w ≠ .pending

instance (D : DecoderProbe) (item : WorkName → Item) : Decidable (NoneLeft D item) :=
  inferInstanceAs (Decidable (∀ w ∈ D.hintWorks, _))

/-- `schedule_work`. -/
def schedule (s : Probing D) (w : WorkName) : Probing D :=
  { s with
    item := Function.update s.item w .pending
    misused := if s.item w = .uninitialised then w :: s.misused else s.misused }

/-- A step of the probe. -/
def probeStep (s : Probing D) : ProbeStep → Probing D
  | .initWork w =>
    { s with
      item := Function.update s.item w .idle
      erased := if s.item w = .pending then w :: s.erased else s.erased }
  | .addTimer => { s with timer := true }
  | .start => { s with running := true }

/-- The variables after a step, and the works it schedules. -/
def effect (s : Probing D) : Action D → D.Vars × List WorkName
  | .probe => (s.vars, [])
  | .irq x => D.irq s.vars x
  | .tick y => (s.vars, D.tick y)
  | .work w x => D.work w s.vars x

/-- The state in which a step schedules its works, if the step is enabled. -/
def enter (s : Probing D) : Action D → Option (Probing D)
  | .probe =>
    match s.todo with
    | [] => none
    | r :: rs => some { s.probeStep r with todo := rs }
  | .irq _ => if s.running then some s else none
  | .tick _ => if s.timer then some s else none
  | .work w _ =>
    if s.item w = .pending then some { s with item := Function.update s.item w .idle } else none

/-- The step function. -/
def step (s : Probing D) (a : Action D) : Option (Probing D) :=
  (s.enter a).map fun s' => (s.effect a).2.foldl schedule { s' with vars := (s.effect a).1 }

/-- **A hint work is scheduled only once the probe has initialised it.** -/
def InitFirst (s : Probing D) (a : Action D) : Prop :=
  ∀ w ∈ (s.effect a).2, w ∈ D.hintWorks → .initWork w ∉ s.todo

instance : ∀ (s : Probing D) (a : Action D), Decidable (InitFirst s a) := fun s a =>
  inferInstanceAs (Decidable (∀ w ∈ (s.effect a).2, _))

/-- No hint work was scheduled uninitialised, and none has lost a request. -/
def Safe (s : Probing D) : Prop := ∀ w ∈ D.hintWorks, w ∉ s.misused ∧ w ∉ s.erased

instance (s : Probing D) : Decidable s.Safe :=
  inferInstanceAs (Decidable (∀ w ∈ D.hintWorks, _))

/-- The invariant of the runs that initialise first. -/
structure Inv (s : Probing D) : Prop where
  before : ∀ w ∈ D.hintWorks, .initWork w ∈ s.todo → s.item w ≠ .pending
  after : ∀ w ∈ D.hintWorks, .initWork w ∉ s.todo → s.item w ≠ .uninitialised
  safe : s.Safe

variable {s s' : Probing D} {a : Action D}

/-- **What a step does before it schedules**: it takes the next step of the probe, takes a pending
work from its queue, or does nothing. -/
theorem enter_cases (h : s.enter a = some s') :
    (∃ r rs, (s.effect a).2 = [] ∧ s.todo = r :: rs ∧ s' = { s.probeStep r with todo := rs }) ∨
      s' = s ∨
      ∃ w, s.item w = .pending ∧ s' = { s with item := Function.update s.item w .idle } := by
  cases a with
  | probe =>
    simp only [enter] at h
    split at h
    · cases h
    · next r rs htodo => exact .inl ⟨r, rs, rfl, htodo, (Option.some.inj h).symm⟩
  | irq x => exact .inr (.inl (Option.some.inj (Option.ite_none_right_eq_some.mp h).2).symm)
  | tick y => exact .inr (.inl (Option.some.inj (Option.ite_none_right_eq_some.mp h).2).symm)
  | work w x =>
    obtain ⟨hpending, h⟩ := Option.ite_none_right_eq_some.mp h
    exact .inr (.inr ⟨w, hpending, (Option.some.inj h).symm⟩)

/-- The probe only goes on. -/
theorem todo_subset_of_enter (h : s.enter a = some s') : s'.todo ⊆ s.todo := by
  rcases enter_cases h with ⟨r, rs, -, htodo, rfl⟩ | rfl | ⟨w, -, rfl⟩
  · rw [htodo]
    exact List.subset_cons_self _ _
  · exact List.Subset.refl _
  · exact List.Subset.refl _

namespace Inv

theorem start {item : WorkName → Item} (hitem : NoneLeft D item) (vars : D.Vars)
    (hprobe : ∀ w ∈ D.hintWorks, .initWork w ∈ D.probe) : Inv (Probing.start D item vars) := by
  refine ⟨?_, ?_, ?_⟩
  · exact fun w hw _ => hitem w hw
  · intro w hw htodo
    exact absurd (hprobe w hw) htodo
  · intro w _
    simp [Probing.start]

/-- A step of the probe initialises no work that is pending. -/
theorem probeStep (h : Inv s) {r : ProbeStep} {rs : List ProbeStep} (htodo : s.todo = r :: rs) :
    Inv { s.probeStep r with todo := rs } := by
  have hbefore : ∀ w ∈ D.hintWorks, .initWork w ∈ rs → s.item w ≠ .pending := by
    intro w hw hmem
    exact h.before w hw (by simp [htodo, hmem])
  cases r with
  | initWork v =>
    have hitem (w : WorkName) :
        Function.update s.item v .idle w = if w = v then .idle else s.item w :=
      Function.update_apply ..
    refine ⟨?_, ?_, ?_⟩
    · intro w hw hmem
      simp only [Probing.probeStep, hitem]
      split
      · simp
      · exact hbefore w hw hmem
    · intro w hw hmem
      simp only [Probing.probeStep, hitem]
      split
      · simp
      · next hne => exact h.after w hw (by simp [htodo, hne, hmem])
    · intro w hw
      refine ⟨(h.safe w hw).1, ?_⟩
      simp only [Probing.probeStep]
      split
      · next hpending =>
        -- the work that is initialised now was not pending if it is a hint work
        rw [List.mem_cons, not_or]
        refine ⟨?_, (h.safe w hw).2⟩
        rintro rfl
        exact h.before w hw (by simp [htodo]) hpending
      · exact (h.safe w hw).2
  | addTimer => exact ⟨hbefore, fun w hw hmem => h.after w hw (by simp [htodo, hmem]), h.safe⟩
  | start => exact ⟨hbefore, fun w hw hmem => h.after w hw (by simp [htodo, hmem]), h.safe⟩

/-- A hint work that is initialised may be scheduled. -/
theorem schedule (h : Inv s) {w : WorkName} (hw : w ∈ D.hintWorks → .initWork w ∉ s.todo) :
    Inv (s.schedule w) := by
  have hitem (v : WorkName) :
      Function.update s.item w .pending v = if v = w then .pending else s.item v :=
    Function.update_apply ..
  refine ⟨?_, ?_, ?_⟩
  · intro v hv hmem
    simp only [Probing.schedule, hitem]
    split
    · next heq =>
      subst heq
      exact absurd hmem (hw hv)
    · exact h.before v hv hmem
  · intro v hv hmem
    simp only [Probing.schedule, hitem]
    split
    · simp
    · exact h.after v hv hmem
  · intro v hv
    refine ⟨?_, (h.safe v hv).2⟩
    simp only [Probing.schedule]
    split
    · next huninit =>
      rw [List.mem_cons, not_or]
      refine ⟨?_, (h.safe v hv).1⟩
      rintro rfl
      exact h.after v hv (hw hv) huninit
    · exact (h.safe v hv).1

theorem foldl_schedule (h : Inv s) {ws : List WorkName}
    (hws : ∀ w ∈ ws, w ∈ D.hintWorks → .initWork w ∉ s.todo) :
    Inv (ws.foldl Probing.schedule s) := by
  induction ws generalizing s with
  | nil => exact h
  | cons w ws ih =>
    -- scheduling leaves what remains of the probe
    exact ih (h.schedule (hws w (by simp))) fun v hv => hws v (by simp [hv])

/-- Before a step schedules its works. -/
theorem enter (h : Inv s) (hs : s.enter a = some s') : Inv s' := by
  rcases enter_cases hs with ⟨r, rs, -, htodo, rfl⟩ | rfl | ⟨w, -, rfl⟩
  · exact h.probeStep htodo
  · exact h
  · refine ⟨?_, ?_, h.safe⟩
    · intro v hv hmem
      simp only [Function.update_apply]
      split
      · simp
      · exact h.before v hv hmem
    · intro v hv hmem
      simp only [Function.update_apply]
      split
      · simp
      · exact h.after v hv hmem

/-- **The step lemma.** -/
theorem step (h : Inv s) (hfirst : InitFirst s a) (hs : s.step a = some s') : Inv s' := by
  obtain ⟨t, ht, rfl⟩ := Option.map_eq_some_iff.mp hs
  have hinv := h.enter ht
  apply foldl_schedule (s := { t with vars := (s.effect a).1 }) ⟨hinv.before, hinv.after, hinv.safe⟩
  intro w hw hhint hmem
  exact hfirst w hw hhint (todo_subset_of_enter ht hmem)

end Inv

/-! ## The first open -/

/-- A hint work that the probe has still to initialise is uninitialised. -/
structure Untouched (s : Probing D) : Prop where
  nodup : s.todo.Nodup
  item : ∀ w ∈ D.hintWorks, .initWork w ∈ s.todo → s.item w = .uninitialised

section Schedule

variable {ws : List WorkName} {w : WorkName}

theorem todo_foldl : (ws.foldl schedule s).todo = s.todo := by
  induction ws generalizing s with
  | nil => rfl
  | cons v ws ih => rw [List.foldl_cons, ih, schedule]

/-- A work that is not scheduled keeps its state. -/
theorem item_foldl (hw : w ∉ ws) : (ws.foldl schedule s).item w = s.item w := by
  induction ws generalizing s with
  | nil => rfl
  | cons v ws ih =>
    rw [List.mem_cons, not_or] at hw
    rw [List.foldl_cons, ih hw.2]
    exact Function.update_of_ne hw.1 ..

theorem misused_subset_schedule (v : WorkName) : s.misused ⊆ (s.schedule v).misused := by
  simp only [schedule]
  split
  · exact List.subset_cons_self _ _
  · exact List.Subset.refl _

theorem misused_subset_foldl : s.misused ⊆ (ws.foldl schedule s).misused := by
  induction ws generalizing s with
  | nil => exact List.Subset.refl _
  | cons v ws ih => exact List.Subset.trans (misused_subset_schedule v) ih

theorem erased_foldl : (ws.foldl schedule s).erased = s.erased := by
  induction ws generalizing s with
  | nil => rfl
  | cons v ws ih => rw [List.foldl_cons, ih, schedule]

/-- An uninitialised work that is scheduled is misused. -/
theorem mem_misused_foldl (hw : w ∈ ws) (hitem : s.item w = .uninitialised) :
    w ∈ (ws.foldl schedule s).misused := by
  induction ws generalizing s with
  | nil => cases hw
  | cons v ws ih =>
    rw [List.foldl_cons]
    by_cases hv : w = v
    · apply misused_subset_foldl
      simp [schedule, ← hv, hitem]
    · refine ih (by simpa [hv] using hw) ?_
      simpa [schedule, hv] using hitem

end Schedule

/-- What was misused or erased stays so. -/
theorem safe_of_step (hs : s.step a = some s') (h : s'.Safe) : s.Safe := by
  obtain ⟨t, ht, rfl⟩ := Option.map_eq_some_iff.mp hs
  have hsub : s.misused ⊆ t.misused ∧ s.erased ⊆ t.erased := by
    rcases enter_cases ht with ⟨r, rs, -, -, rfl⟩ | rfl | ⟨w, -, rfl⟩
    · cases r with
      | initWork w =>
        refine ⟨List.Subset.refl _, ?_⟩
        simp only [probeStep]
        split
        · exact List.subset_cons_self _ _
        · exact List.Subset.refl _
      | addTimer => exact ⟨List.Subset.refl _, List.Subset.refl _⟩
      | start => exact ⟨List.Subset.refl _, List.Subset.refl _⟩
    · exact ⟨List.Subset.refl _, List.Subset.refl _⟩
    · exact ⟨List.Subset.refl _, List.Subset.refl _⟩
  intro w hw
  obtain ⟨hmis, her⟩ := h w hw
  rw [erased_foldl] at her
  exact ⟨fun hmem => hmis (misused_subset_foldl (hsub.1 hmem)), fun hmem => her (hsub.2 hmem)⟩

namespace Untouched

theorem start (vars : D.Vars) (hnodup : D.probe.Nodup) :
    Untouched (Probing.start D zeroed vars) := ⟨hnodup, fun _ _ _ => rfl⟩

/-- Before a step schedules its works. -/
theorem enter (h : Untouched s) (hs : s.enter a = some s') : Untouched s' := by
  rcases enter_cases hs with ⟨r, rs, -, htodo, rfl⟩ | rfl | ⟨w, hpending, rfl⟩
  · have hnodup := h.nodup
    rw [htodo, List.nodup_cons] at hnodup
    refine ⟨hnodup.2, ?_⟩
    intro w hw hmem
    have hitem := h.item w hw (by simp [htodo, show _ ∈ rs from hmem])
    cases r with
    | initWork v =>
      -- no work is initialised twice
      have hne : w ≠ v := by
        rintro rfl
        exact hnodup.1 hmem
      simpa [probeStep, hne] using hitem
    | addTimer => exact hitem
    | start => exact hitem
  · exact h
  · refine ⟨h.nodup, ?_⟩
    intro v hv hmem
    have hitem := h.item v hv hmem
    have hne : v ≠ w := by
      rintro rfl
      simp [hitem] at hpending
    simpa [hne] using hitem

theorem step (h : Untouched s) (hfirst : InitFirst s a) (hs : s.step a = some s') :
    Untouched s' := by
  obtain ⟨t, ht, rfl⟩ := Option.map_eq_some_iff.mp hs
  have huntouched := h.enter ht
  refine ⟨?_, ?_⟩
  · rw [todo_foldl]
    exact huntouched.nodup
  · intro w hw hmem
    rw [todo_foldl] at hmem
    rw [item_foldl fun hsched => hfirst w hsched hw (todo_subset_of_enter ht hmem)]
    exact huntouched.item w hw hmem

/-- **A step that schedules too early misuses a work.** -/
theorem initFirst_of_safe (h : Untouched s) (hs : s.step a = some s') (hsafe : s'.Safe) :
    InitFirst s a := by
  obtain ⟨t, ht, rfl⟩ := Option.map_eq_some_iff.mp hs
  intro w hw hhint hmem
  have hitem := h.item w hhint hmem
  have ht' : t.item w = .uninitialised := by
    rcases enter_cases ht with ⟨r, rs, hnone, -, rfl⟩ | rfl | ⟨v, hpending, rfl⟩
    · simp [hnone] at hw
    · exact hitem
    · have hne : w ≠ v := by
        rintro rfl
        simp [hitem] at hpending
      simpa [hne] using hitem
  exact (hsafe w hhint).1 (mem_misused_foldl hw ht')

end Untouched

end Probing

/-- The single-instance decoders whose probes initialise the hint works last. -/
inductive OpenDecoder
  | mpeg12
  | avs
  | h264
  | vc1
  deriving DecidableEq, Repr

namespace OpenDecoder

def opening : OpenDecoder → DecoderProbe
  | mpeg12 => Mpeg12.opening
  | avs => Avs.opening
  | h264 => H264.opening
  | vc1 => Vc1.opening

/-- Every hint work is initialised by the probe. -/
theorem initWork_mem (k : OpenDecoder) :
    ∀ w ∈ k.opening.hintWorks, .initWork w ∈ k.opening.probe := by
  cases k <;> decide

/-- **Hint works are safe** along every run that finds none of them pending and schedules them only
once they are initialised. -/
theorem safe_of_initFirst (k : OpenDecoder) {item : WorkName → Item} {vars : k.opening.Vars}
    {as : List (Probing.Action k.opening)} {s : Probing k.opening}
    (hitem : Probing.NoneLeft k.opening item)
    (r : Run Probing.step Probing.InitFirst (Probing.start k.opening item vars) as s) :
    s.Safe :=
  (r.invariant (I := Probing.Inv) (.start hitem vars k.initWork_mem)
    fun _ _ _ h hfirst hs => h.step hfirst hs).safe

theorem probe_nodup (k : OpenDecoder) : k.opening.probe.Nodup := by
  cases k <;> decide

/-- **On the first open there is no other way**: a run that is safe has scheduled every hint work
after its initialisation. -/
theorem initFirst_of_safe (k : OpenDecoder) {vars : k.opening.Vars}
    {as : List (Probing.Action k.opening)} {s : Probing k.opening}
    (r : Run Probing.step Always (Probing.start k.opening Probing.zeroed vars) as s)
    (hsafe : s.Safe) :
    Run Probing.step Probing.InitFirst (Probing.start k.opening Probing.zeroed vars) as s ∧
      Probing.Untouched s := by
  induction r with
  | nil => exact ⟨.nil, .start vars k.probe_nodup⟩
  | snoc _ _ hs ih =>
    -- a run that is safe in the end was safe before its last step
    obtain ⟨r, huntouched⟩ := ih (Probing.safe_of_step hs hsafe)
    have hfirst := huntouched.initFirst_of_safe hs hsafe
    exact ⟨.snoc r hfirst hs, huntouched.step hfirst hs⟩

/-- Six steps of the MPEG-1/2 probe, then a frame whose hint is delivered. -/
theorem safe_of_initFirst_mpeg12 : ∃ s : Probing Mpeg12.opening, s.todo = [] ∧ s.Safe := by
  obtain ⟨s, r, htodo⟩ := exists_run_of_exec Probing.step Probing.InitFirst
    (Probing.start Mpeg12.opening Probing.zeroed ⟨0, 0⟩)
    [.probe, .probe, .probe, .probe, .probe, .probe, .irq (some 0x50), .work .notify ()]
    (fun s => s.todo = []) (by decide)
  exact ⟨s, htodo, safe_of_initFirst mpeg12 (by decide) r⟩

/-- A frame that comes as soon as the hardware runs schedules a work that is not initialised. -/
theorem not_safe :
    ¬ ∀ (k : OpenDecoder) (item : WorkName → Item) (vars : k.opening.Vars)
        (as : List (Probing.Action k.opening)) (s : Probing k.opening),
      Run Probing.step Always (Probing.start k.opening item vars) as s → s.Safe := by
  intro h
  obtain ⟨s, r, hbad⟩ := exists_run_of_exec Probing.step Always
    (Probing.start Mpeg12.opening Probing.zeroed ⟨0, 0⟩)
    [.probe, .probe, .probe, .irq (some (0x50 : UInt32))]
    (fun s => ¬ s.Safe) (by decide)
  exact hbad (h mpeg12 _ _ _ s r)

end OpenDecoder

end Media
