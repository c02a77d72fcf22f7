import Akbuilder.Media.SchedulerDisconnect

/-!
# The scheduler: everyone is served

## Main definitions

* `VdecCore.WakeInv`: whoever leaves the thread something to do also wakes it
* `VdecCore.UniformGuard`: all decoders ask for the same combined cores
* `VdecCore.WaitGuard`: a decoder that could run is passed over at each election

## Main results

* `VdecCore.asleep`: the thread does not go to sleep for good while decoders wait for it
* `VdecCore.served_by_holder`: under `UniformGuard` an interrupt goes to the holder of its core
* `VdecCore.bounded_bypass`: how often a decoder can be passed over
-/

open BitMask RoundRobin Transition

namespace Media

namespace VdecCore

variable {ι : Type} [DecidableEq ι] {P : Platform ι} {s s' : VdecCore ι}

/-! ## Waking the thread -/

/-- `vdec_nr` counts the connected decoders. -/
def CountGuard (s : VdecCore ι) : Action ι → Prop
  | .drop vdecNr => s.connected ≠ [] → 0 < vdecNr
  | _ => True

instance : ∀ (s : VdecCore ι) (a : Action ι), Decidable (CountGuard s a)
  | _, .drop _ => inferInstanceAs (Decidable (_ → _))
  | _, .setStepMode _ | _, .connect _ | _, .disconnect _ | _, .waited _ | _, .request _ _
  | _, .release _ _ | _, .finish _ _ | _, .finishTest | _, .finishSet | _, .up | _, .cleanup
  | _, .elect _ | _, .grant | _, .mark => isTrue trivial

/-- **No lost wake-up**: a decoder that waits to be let go of, or whose cores wait to be taken
back, is matched by a turn of the thread to come; and the thread waits with no turn to come only
when cores are in use or no decoder is connected. -/
structure WakeInv (s : VdecCore ι) : Prop where
  leaves : ∀ v ∈ s.connected, s.leaves v = true → 0 < s.sem + s.ups
  finished : ∀ v ∈ s.connected, ∀ i, Has (s.vdec v).schedMask i → ¬ Has (s.vdec v).activeMask i →
    0 < s.sem + s.ups ∨ s.finishing ≠ none
  worker : ∀ d, s.thread = .drop d true → 0 < s.sem
  asleep : s.thread = .down → s.sem + s.ups = 0 → s.finishing = none →
    s.schedMask ≠ 0 ∨ s.connected = []

namespace WakeInv

section

omit [DecidableEq ι]

theorem start : WakeInv (VdecCore.start : VdecCore ι) where
  leaves _ hv := by cases hv
  finished _ hv := by cases hv
  worker _ h := by cases h
  asleep _ _ _ := .inr rfl

/-- A step with an `up` to come. -/
theorem woken (hsum : 0 < s'.sem + s'.ups) (hworker : ∀ d, s'.thread = .drop d true → 0 < s'.sem) :
    WakeInv s' where
  leaves _ _ _ := hsum
  finished _ _ _ _ _ := .inl hsum
  worker := hworker
  asleep _ h0 _ := by omega

/-- A step that the thread need not notice. -/
theorem quiet (h : WakeInv s) (hconn : s'.connected = s.connected)
    (hleaves : ∀ u ∈ s.connected, s'.leaves u = true → s.leaves u = true)
    (hsched : ∀ u, (s'.vdec u).schedMask = (s.vdec u).schedMask)
    (hactive : ∀ u i, Has (s.vdec u).activeMask i → Has (s'.vdec u).activeMask i)
    (hsum : s'.sem + s'.ups = s.sem + s.ups) (hfinish : s'.finishing = s.finishing)
    (hworker : ∀ d, s'.thread = .drop d true → 0 < s'.sem)
    (hasleep : s'.thread = .down → s.thread = .down) (hall : s'.schedMask = s.schedMask) :
    WakeInv s' where
  leaves v hv hl := by
    rw [hsum]
    exact h.leaves v (hconn ▸ hv) (hleaves v (hconn ▸ hv) hl)
  finished v hv i hi hni := by
    rw [hsched] at hi
    rw [hsum, hfinish]
    exact h.finished v (hconn ▸ hv) i hi fun hn => hni (hactive v i hn)
  worker := hworker
  asleep hthread h0 hf := by
    rw [hall, hconn]
    exact h.asleep (hasleep hthread) (hsum ▸ h0) (hfinish ▸ hf)

theorem leaves_congr {u : ι} (hstatus : (s'.vdec u).status = (s.vdec u).status)
    (hnext : (s'.vdec u).nextStatus = (s.vdec u).nextStatus) : s'.leaves u = s.leaves u := by
  rw [VdecCore.leaves, VdecCore.leaves, hstatus, hnext]

/-- What asking the decoders changes, the thread need not notice. -/
theorem asked (h : WakeInv s) {t : VdecCore ι} (hasked : Asked s t) {pc : ThreadPc ι}
    (hdown : pc ≠ .down) (hworker : ∀ d, pc ≠ .drop d true) : WakeInv { t with thread := pc } := by
  have hrest : t.sem + t.ups = s.sem + s.ups ∧ t.finishing = s.finishing := by
    rw [hasked.core]
    exact ⟨rfl, rfl⟩
  exact h.quiet hasked.connected
    (fun u _ hl => (leaves_congr (hasked.frame (π := Vdec.status) (fun _ _ => rfl) u)
      (hasked.frame (π := Vdec.nextStatus) (fun _ _ => rfl) u)).symm.trans hl)
    (hasked.frame (π := Vdec.schedMask) fun _ _ => rfl)
    (fun u i hi => by rwa [hasked.frame (π := Vdec.activeMask) (fun _ _ => rfl) u])
    hrest.1 hrest.2 (fun d hd => absurd hd (hworker d)) (fun hd => absurd hd hdown)
    hasked.schedMask

/-- A step that changes no status and no mask of cores in use. -/
theorem frame (h : WakeInv s) {x : ι → Vdec} (hstatus : ∀ u, (x u).status = (s.vdec u).status)
    (hnext : ∀ u, (x u).nextStatus = (s.vdec u).nextStatus)
    (hsched : ∀ u, (x u).schedMask = (s.vdec u).schedMask)
    (hactive : ∀ u, (x u).activeMask = (s.vdec u).activeMask) : WakeInv { s with vdec := x } :=
  h.quiet rfl (fun u _ hl => by rwa [leaves_congr (hstatus u) (hnext u)] at hl) hsched
    (fun u i hi => by
      dsimp only
      rwa [hactive u]) rfl rfl h.worker id rfl

end

theorem cleanup (s : VdecCore ι) : WakeInv s.swept.checkDisconnected := by
  have hconn := connected_checkDisconnected_swept s
  refine ⟨fun v hv hl => ?_, fun v hv i hi hni => ?_, fun _ hd => (nomatch hd),
    fun hd => (nomatch hd)⟩
  · rw [hconn, List.mem_filter] at hv
    have : s.leaves v = true := by rwa [← leaves_swept]
    simp [this] at hv
  · rw [hconn, List.mem_filter] at hv
    have hrun := ((has_schedMask_swept s).1 hi).2 hv.1
    rw [← swept_frame (π := Vdec.activeMask) s fun _ => rfl] at hrun
    exact absurd hrun hni

/-- **A step leaves no work without a turn to come.** -/
theorem step (h : WakeInv s) (hcore : CoreInv s) {a : Action ι} (hg : CountGuard s a)
    (hs : Step P s a s') : WakeInv s' := by
  cases hs with
  | setStepMode =>
    exact h.quiet rfl (fun _ _ => id) (fun _ => rfl) (fun _ _ => id) rfl rfl h.worker id rfl
  | connectNot => exact h
  | connect => exact .woken (by dsimp only; omega) h.worker
  | disconnectNot => exact h
  | disconnect => exact .woken (by dsimp only; omega) h.worker
  | waited =>
    exact h.frame (fun _ => modify_frame (π := Vdec.status) (by intro; rfl))
      (fun _ => modify_frame (π := Vdec.nextStatus) (by intro; rfl))
      (fun _ => modify_frame (π := Vdec.schedMask) (by intro; rfl))
      (fun _ => modify_frame (π := Vdec.activeMask) (by intro; rfl))
  | request =>
    exact h.frame (fun _ => modifyPair_frame (π := Vdec.status) (by intro; rfl))
      (fun _ => modifyPair_frame (π := Vdec.nextStatus) (by intro; rfl))
      (fun _ => modifyPair_frame (π := Vdec.schedMask) (by intro; rfl))
      (fun _ => modifyPair_frame (π := Vdec.activeMask) (by intro; rfl))
  | release =>
    exact h.frame (fun _ => modifyPair_frame (π := Vdec.status) (by intro; rfl))
      (fun _ => modifyPair_frame (π := Vdec.nextStatus) (by intro; rfl))
      (fun _ => modifyPair_frame (π := Vdec.schedMask) (by intro; rfl))
      (fun _ => modifyPair_frame (π := Vdec.activeMask) (by intro; rfl))
  | @finish v mask hfinish =>
    refine ⟨fun u hu hl => h.leaves u hu ?_, fun _ _ _ _ _ => .inr (by simp), h.worker,
      fun _ _ hf => by simp at hf⟩
    rwa [leaves_congr (modify_frame (π := Vdec.status) (by intro; rfl))
      (modify_frame (π := Vdec.nextStatus) (by intro; rfl))] at hl
  | finishIdle hf =>
    exact ⟨h.leaves, fun _ _ _ _ _ => .inr (by simp), h.worker, fun _ _ hf => by simp at hf⟩
  | finishBusy => exact .woken (by dsimp only; omega) h.worker
  | finishSet => exact .woken (by dsimp only; omega) h.worker
  | up hups => exact .woken (by dsimp only; omega) fun d hd => Nat.succ_pos _
  | cleanup => exact .cleanup s
  | electSome _ helect => exact h.asked (elect_asked hcore.active helect) (by simp) (by simp)
  | electNone _ helect => exact h.asked (elect_asked hcore.active helect) (by simp) (by simp)
  | @grant d v mask hthread =>
    refine h.quiet rfl (fun u _ hl => ?_)
      (fun _ => modify_frame (π := Vdec.schedMask) (by intro; rfl)) (fun u i hi => ?_) rfl rfl
      (fun _ hd => by cases hd) (fun hd => by cases hd) rfl
    · rwa [leaves_congr (modify_frame (π := Vdec.status) (by intro; rfl))
        (modify_frame (π := Vdec.nextStatus) (by intro; rfl))] at hl
    · by_cases hu : u = v
      · subst hu
        dsimp only
        rw [modify_self]
        exact has_or.2 (.inl hi)
      · dsimp only
        rwa [modify_of_ne hu]
  | mark hthread => exact .woken (by dsimp only [runVdec]; omega) fun _ _ => Nat.succ_pos _
  | @drop v d worker vdecNr hthread =>
    refine h.quiet rfl (fun u _ hl => ?_)
      (fun _ => modify_frame (π := Vdec.schedMask) (by intro; rfl)) (fun u i hi => ?_) rfl rfl
      (fun d' hd => ?_) (fun hd => by cases hd) rfl
    · by_cases hu : u = v
      · subst hu
        simp [VdecCore.leaves, modify_self] at hl
      · have hvdec : modify s.vdec v (fun x =>
            { x with status := .disconnected, inactiveDone := x.inactiveDone + 1 }) u = s.vdec u :=
          modify_of_ne hu
        rwa [leaves_congr (s := s) (congrArg Vdec.status hvdec)
          (congrArg Vdec.nextStatus hvdec)] at hl
    · dsimp only
      rwa [modify_frame (π := Vdec.activeMask) (by intro; rfl)]
    · obtain rfl : worker = true := (ThreadPc.drop.inj hd).2
      exact h.worker _ hthread
  | @turn worker vdecNr hthread =>
    have hle : s.sem ≤ if !worker && decide (s.schedMask = 0) && decide (0 < vdecNr) then
        s.sem + 1 else s.sem := by
      split <;> omega
    refine ⟨fun v hv hl => ?_, fun v hv i hi hni => ?_, fun _ hd => (by cases hd), fun _ h0 _ => ?_⟩
    · have := h.leaves v hv hl
      dsimp only
      omega
    · dsimp only
      rcases h.finished v hv i hi hni with hsum | hf
      · exact .inl (by omega)
      · exact .inr hf
    · dsimp only at h0 ⊢
      cases worker with
      | true =>
        have := h.worker _ hthread
        omega
      | false =>
        by_cases hall : s.schedMask = 0
        · refine .inr ?_
          by_contra hne
          simp [hall, hg hne] at h0
        · exact .inl hall

end WakeInv

/-- **The thread does not sleep while decoders wait for it**: when it waits with no call of `up` to
come, every connected decoder is to stay connected and works on all the cores it holds, and at
least one decoder is at work, whose driver will report. -/
theorem asleep {as : List (Action ι)}
    (r : Run (step P) (fun s a => MultiGuard P s a ∧ CountGuard s a) start as s)
    (hthread : s.thread = .down) (hsem : s.sem = 0) (hups : s.ups = 0)
    (hfinish : s.finishing = none) (hne : s.connected ≠ []) :
    (∀ v ∈ s.connected, s.leaves v = false ∧
      ∀ i, Has (s.vdec v).schedMask i → Has (s.vdec v).activeMask i) ∧
      ∃ v ∈ s.connected, (s.vdec v).status = .active ∧ (s.vdec v).activeMask ≠ 0 := by
  have hd : DisconnectInv P s := DisconnectInv.run (r.mono fun _ _ h => h.1)
  have hw : WakeInv s := by
    refine (r.mono_of_invariant (H := Always) (I := fun s => CoreInv s ∧ WakeInv s)
      ⟨.start, .start⟩ (fun _ _ _ h hg hs => ?_) fun _ _ _ _ _ _ => trivial).2.2
    exact ⟨h.1.step (step_sound hs), h.2.step h.1 hg.2 (step_sound hs)⟩
  have hwork : ∀ v ∈ s.connected, ∀ i, Has (s.vdec v).schedMask i →
      Has (s.vdec v).activeMask i := by
    intro v hv i hi
    by_contra hni
    rcases hw.finished v hv i hi hni with hsum | hf
    · omega
    · exact hf hfinish
  refine ⟨fun v hv => ⟨?_, hwork v hv⟩, ?_⟩
  · cases hl : s.leaves v with
    | false => rfl
    | true =>
      have := hw.leaves v hv hl
      omega
  · have hall := (hw.asleep hthread (by omega) hfinish).resolve_right hne
    obtain ⟨i, hi⟩ := exists_has hall
    obtain ⟨v, hv⟩ := (hd.core.shared.covers i).1 hi
    obtain ⟨hmem, -⟩ := hd.holder hv
    have hactive : (s.vdec v).activeMask ≠ 0 := fun h0 => eq_zero_iff.1 h0 i (hwork v hmem i hv)
    refine ⟨v, hmem, ?_, hactive⟩
    by_contra hs
    rcases hd.idle v hs with h0 | ⟨m, hm, -⟩
    · exact hactive h0
    · rw [hthread] at hm
      cases hm

/-- One decoder at work, and the next turn has found the cores in use. -/
theorem asleep_while_running :
    ∃ s : VdecCore Bool, s.sem = 0 ∧ ∃ v ∈ s.connected, (s.vdec v).activeMask ≠ 0 := by
  obtain ⟨s, r, hthread, hsem, hups, hfinish, hne⟩ :=
    exists_run_of_exec (step twoDecoders)
      (fun s a => MultiGuard twoDecoders s a ∧ CountGuard s a) start
      (runOne true ++ [.cleanup, .elect fun _ => readyReading, .drop 1])
      (fun s => s.thread = .down ∧ s.sem = 0 ∧ s.ups = 0 ∧ s.finishing = none ∧ s.connected ≠ [])
      (by decide +kernel)
  obtain ⟨-, v, hv, -, hactive⟩ := asleep r hthread hsem hups hfinish hne
  exact ⟨s, hsem, v, hv, hactive⟩

/-! ## Interrupts -/

/-- **All decoders ask for the same combined cores**, as those that ask for
`CORE_MASK_VDEC_1 | CORE_MASK_HEVC | CORE_MASK_COMBINE`. -/
def UniformGuard (P : Platform ι) (mask : CoreMask) (s : VdecCore ι) (a : Action ι) : Prop :=
  MultiGuard P s a ∧
    match a with
    | .connect v => ∀ u, Pair P v u → (s.vdec u).coreMask = mask
    | _ => True

instance [Fintype ι] (mask : CoreMask) (s : VdecCore ι) (a : Action ι) :
    Decidable (UniformGuard P mask s a) := by
  cases a <;> exact inferInstanceAs (Decidable (_ ∧ _))

/-- One decoder at a time has cores, and it is the active one. -/
structure UniformInv (P : Platform ι) (mask : CoreMask) (s : VdecCore ι) : Prop where
  multi : DisconnectInv P s
  request : ∀ v ∈ s.connected, (s.vdec v).coreMask = mask
  alone : ∀ m ∈ s.thread.elected, s.schedMask = 0
  active : ∀ {v i}, Has (s.vdec v).schedMask i → s.active = some v

namespace UniformInv

variable {mask : CoreMask}

omit [DecidableEq ι] in
theorem start : UniformInv P mask (VdecCore.start : VdecCore ι) where
  multi := .start
  request _ hv := by cases hv
  alone _ hm := by cases hm
  active hi := absurd hi not_has_zero

omit [DecidableEq ι] in
/-- A step that hands out and takes back nothing. -/
theorem quiet (h : UniformInv P mask s) (hmulti : DisconnectInv P s')
    (hrequest : ∀ v ∈ s'.connected, (s'.vdec v).coreMask = mask)
    (hall : s'.schedMask = s.schedMask)
    (hsched : ∀ u, (s'.vdec u).schedMask = (s.vdec u).schedMask)
    (helected : s'.thread.elected = s.thread.elected) (hactive : s'.active = s.active) :
    UniformInv P mask s' where
  multi := hmulti
  request := hrequest
  alone m hm := by
    rw [helected] at hm
    rw [hall]
    exact h.alone m hm
  active {v i} hi := by
    rw [hsched] at hi
    rw [hactive]
    exact h.active hi

omit [DecidableEq ι] in
/-- A step that leaves requests alone, too. -/
theorem frame (h : UniformInv P mask s) (hmulti : DisconnectInv P s')
    (hconn : s'.connected = s.connected)
    (hmask : ∀ u, (s'.vdec u).coreMask = (s.vdec u).coreMask)
    (hall : s'.schedMask = s.schedMask)
    (hsched : ∀ u, (s'.vdec u).schedMask = (s.vdec u).schedMask)
    (helected : s'.thread.elected = s.thread.elected) (hactive : s'.active = s.active) :
    UniformInv P mask s' :=
  h.quiet hmulti (fun v hv => by rw [hmask]; exact h.request v (hconn ▸ hv)) hall hsched helected
    hactive

/-- While a decoder is offered the combined cores, nobody has any. -/
theorem elect (h : UniformInv P mask s) {R : ι → Reading} {w : Option (ι × CoreMask)}
    {t : VdecCore ι} (helect : s.elect P R = (w, t)) {pc : ThreadPc ι} (hpc : pc.elected = w)
    (hmulti : DisconnectInv P { t with thread := pc }) :
    UniformInv P mask { t with thread := pc } := by
  have hasked := elect_asked h.multi.core.active helect
  have hmask := hasked.frame (π := Vdec.coreMask) fun _ _ => rfl
  have hsched := hasked.frame (π := Vdec.schedMask) fun _ _ => rfl
  refine ⟨hmulti, fun v hv => ?_, fun m hm => ?_, fun {v i} hi => ?_⟩
  · rw [hmask]
    exact h.request v (hasked.connected ▸ hv)
  · obtain ⟨v, m⟩ := m
    have hw : w = some (v, m) := hpc ▸ hm
    subst hw
    have he := elect_some h.multi.core.active helect
    have hcombined := h.multi.combined v he.connected
    rw [hasked.schedMask]
    apply eq_zero_iff.2
    intro i hi
    -- whoever holds the core asked for the same cores as the decoder that is offered them all
    obtain ⟨u, hu⟩ := (h.multi.core.shared.covers i).1 hi
    obtain ⟨hmem, hown, hnot⟩ := h.multi.holder hu
    rw [h.request u hmem, ← h.request v he.connected] at hown
    exact scheduleMask_combined hcombined he.offered hown hnot hi
  · rw [hsched] at hi
    rw [hasked.active]
    exact h.active hi

theorem mark (h : UniformInv P mask s) {d : List ι} {v : ι} {m : CoreMask}
    (hthread : s.thread = .mark d v m) (hmulti : DisconnectInv P (s.runVdec P d v m)) :
    UniformInv P mask (s.runVdec P d v m) := by
  have h0 := h.alone (v, m) (by rw [hthread]; rfl)
  refine ⟨hmulti, fun u hu => ?_, fun _ hm => (nomatch hm), fun {u i} hi => ?_⟩
  · dsimp only [runVdec]
    rw [modify_frame (π := Vdec.coreMask) (by intro; rfl)]
    exact h.request u hu
  · by_cases hu : u = v
    · rw [hu]
      rfl
    · dsimp only [runVdec] at hi
      rw [modify_of_ne hu] at hi
      exact absurd (h.multi.core.shared.le hi) (by rw [h0]; exact not_has_zero)

theorem cleanup (h : UniformInv P mask s) (hthread : s.thread = .down)
    (hmulti : DisconnectInv P s.swept.checkDisconnected) :
    UniformInv P mask s.swept.checkDisconnected := by
  have hconn := connected_checkDisconnected_swept s
  refine ⟨hmulti, fun v hv => ?_, fun _ hm => (nomatch hm), fun {v i} hi => ?_⟩
  · rw [hconn] at hv
    simp only [checkDisconnected, swept_frame (π := Vdec.coreMask) s fun _ => rfl]
    exact h.request v (List.mem_filter.1 hv).1
  · obtain ⟨hold, hrun⟩ := (has_schedMask_swept s).1 hi
    have hmem := (h.multi.holder hold).1
    have hactive := h.active hold
    -- the active decoder is at work, so it is not let go of
    have hstay : s.leaves v = false := by
      cases hl : s.leaves v with
      | false => rfl
      | true =>
        have hs : (s.vdec v).status = .connected := by simp_all [leaves]
        rcases h.multi.idle v (by rw [hs]; decide) with h0 | ⟨m, hm, -⟩
        · exact absurd (hrun hmem) (eq_zero_iff.1 h0 i)
        · rw [hthread] at hm
          cases hm
    simp [checkDisconnected, hactive, leaves_swept, hstay]

/-- The requests of connected decoders stay as they are. -/
theorem requests (h : UniformInv P mask s) {v : ι} {g : CoreMask → CoreMask}
    (hg : ∀ u, Pair P v u → (s.vdec u).status = .disconnected)
    (hmulti : DisconnectInv P
      { s with vdec := modifyPair P s.vdec v fun x => { x with coreMask := g x.coreMask } }) :
    UniformInv P mask
      { s with vdec := modifyPair P s.vdec v fun x => { x with coreMask := g x.coreMask } } := by
  refine h.quiet hmulti (fun u hu => ?_) rfl
    (fun _ => modifyPair_frame (π := Vdec.schedMask) (by intro; rfl)) rfl rfl
  have hp : ¬ Pair P v u := fun hp => h.multi.list.notMem_of_disconnected (hg u hp) hu
  dsimp only
  rw [modifyPair_of_not_pair hp]
  exact h.request u hu

theorem step (h : UniformInv P mask s) {a : Action ι} (hg : UniformGuard P mask s a)
    (hs : Step P s a s') : UniformInv P mask s' := by
  have hmulti := h.multi.step hg.1 hs
  cases hs with
  | setStepMode => exact h.quiet hmulti h.request rfl (fun _ => rfl) rfl rfl
  | connectNot => exact h
  | @connect v hv hslave =>
    refine h.quiet hmulti (fun u hu => ?_) rfl
      (fun _ => modifyPair_frame (π := Vdec.schedMask) (by intro; rfl)) rfl rfl
    dsimp only
    rw [modifyPair_frame (π := Vdec.coreMask) (by intro; rfl)]
    rcases List.mem_append.1 hu with hu | hu
    · exact h.request u hu
    · exact hg.2 u (by simpa [Pair, Option.mem_toList] using hu)
  | disconnectNot => exact h
  | disconnect =>
    exact h.frame hmulti rfl (fun _ => leave_frame (π := Vdec.coreMask) (by intro; rfl)) rfl
      (fun _ => leave_frame (π := Vdec.schedMask) (by intro; rfl)) rfl rfl
  | waited =>
    exact h.frame hmulti rfl (fun _ => modify_frame (π := Vdec.coreMask) (by intro; rfl)) rfl
      (fun _ => modify_frame (π := Vdec.schedMask) (by intro; rfl)) rfl rfl
  | @request v m => exact h.requests (g := fun x => x ||| m) hg.1 hmulti
  | @release v m => exact h.requests (g := fun x => x &&& ~~~m) hg.1 hmulti
  | finish =>
    exact h.frame hmulti rfl (fun _ => modify_frame (π := Vdec.coreMask) (by intro; rfl)) rfl
      (fun _ => modify_frame (π := Vdec.schedMask) (by intro; rfl)) rfl rfl
  | finishIdle => exact h.quiet hmulti h.request rfl (fun _ => rfl) rfl rfl
  | finishBusy => exact h.quiet hmulti h.request rfl (fun _ => rfl) rfl rfl
  | finishSet =>
    exact h.frame hmulti rfl (fun _ => modify_frame (π := Vdec.coreMask) (by intro; rfl)) rfl
      (fun _ => modify_frame (π := Vdec.schedMask) (by intro; rfl)) rfl rfl
  | up => exact h.quiet hmulti h.request rfl (fun _ => rfl) rfl rfl
  | cleanup hthread => exact h.cleanup hthread hmulti
  | electSome _ helect => exact h.elect helect rfl hmulti
  | electNone _ helect => exact h.elect helect rfl hmulti
  | grant hthread =>
    exact h.frame hmulti rfl (fun _ => modify_frame (π := Vdec.coreMask) (by intro; rfl)) rfl
      (fun _ => modify_frame (π := Vdec.schedMask) (by intro; rfl)) (by rw [hthread]; rfl) rfl
  | mark hthread => exact h.mark hthread hmulti
  | drop hthread =>
    exact h.frame hmulti rfl (fun _ => modify_frame (π := Vdec.coreMask) (by intro; rfl)) rfl
      (fun _ => modify_frame (π := Vdec.schedMask) (by intro; rfl)) (by rw [hthread]; rfl) rfl
  | turn hthread => exact h.quiet hmulti h.request rfl (fun _ => rfl) (by rw [hthread]; rfl) rfl

end UniformInv

/-- **An interrupt goes to the decoder that works on its core**: `vdec_isr` calls the handler of
`active_vdec` whatever core the interrupt comes from, and where all decoders ask for the same
combined cores that is the decoder the core is scheduled to. (`VDEC_HCODEC`'s interrupt has no
receiver here.) -/
theorem served_by_holder {mask : CoreMask} {as : List (Action ι)}
    (r : Run (step P) (UniformGuard P mask) start as s) {v : ι} {t : VdecType}
    (ht : t ≠ .hcodec) (hv : Has (s.vdec v).schedMask t.core) (hhandler : (P.params v).irqHandler) :
    s.isr P false t.irq = .handler v := by
  have h : UniformInv P mask s :=
    r.invariant .start fun _ _ _ h hg hs => h.step hg (step_sound hs)
  have hirq : t.irq = .irq0 ∨ t.irq = .irq1 ∨ t.irq = .hevcBack := by
    cases t <;> simp_all [VdecType.irq]
  rw [isr, h.active hv]
  rcases hirq with hirq | hirq | hirq <;> simp [hirq, hhandler]

theorem served_by_holder_running :
    ∃ s : VdecCore Bool, s.isr twoDecoders false .irq0 = .handler true := by
  obtain ⟨s, r, hs⟩ := exists_run_of_exec (step twoDecoders) (UniformGuard twoDecoders multiMask)
    start (runOne true) (fun s => Has (s.vdec true).schedMask VdecType.hevc.core)
    (by decide +kernel)
  exact ⟨s, served_by_holder r (by decide) hs rfl⟩

/-! ## Bounded waiting -/

/-- The decoder that counts as served last: the elected one, or the active one. -/
def served (s : VdecCore ι) : Option ι :=
  match s.thread.elected with
  | some m => some m.1
  | none => s.active

/-- **`v` waits**: at each election it is connected, is offered cores and would run on them, and
another decoder is elected; neither `v` nor the active decoder is let go of; and nobody steps
through the decoders. -/
def WaitGuard (P : Platform ι) (v : ι) (s : VdecCore ι) : Action ι → Prop
  | .elect R => s.stepMode = 0 ∧ (s.ask P R v).1 ≠ 0 ∧ ∀ w ∈ (s.elect P R).1, w.1 ≠ v
  | .cleanup => s.leaves v = false ∧ ∀ a ∈ s.active, s.leaves a = false
  | _ => True

theorem all_elected {v : ι} {w : Option (ι × CoreMask)} :
    (w.all fun m => decide (m.1 ≠ v)) = true ↔ ∀ m ∈ w, m.1 ≠ v := by
  cases w <;> simp

omit [DecidableEq ι] in
theorem all_active {p : ι → Bool} {w : Option ι} :
    (w.all fun a => !p a) = true ↔ ∀ a ∈ w, p a = false := by
  cases w <;> simp

instance (v : ι) : ∀ (s : VdecCore ι) (a : Action ι), Decidable (WaitGuard P v s a)
  | s, .elect R =>
    have : Decidable (∀ w ∈ (s.elect P R).1, w.1 ≠ v) := decidable_of_iff _ all_elected
    inferInstanceAs (Decidable (_ ∧ _ ∧ ∀ w ∈ (s.elect P R).1, w.1 ≠ v))
  | s, .cleanup =>
    have : Decidable (∀ a ∈ s.active, s.leaves a = false) := decidable_of_iff _ all_active
    inferInstanceAs (Decidable (_ ∧ ∀ a ∈ s.active, s.leaves a = false))
  | _, .setStepMode _ | _, .connect _ | _, .disconnect _ | _, .waited _ | _, .request _ _
  | _, .release _ _ | _, .finish _ _ | _, .finishTest | _, .finishSet | _, .up | _, .grant
  | _, .mark | _, .drop _ => isTrue trivial

/-- The elections of a run. -/
def elections (as : List (Action ι)) : ℕ :=
  as.countP fun
    | .elect _ => true
    | _ => false

/-- The decoders that the steps of a run connect. -/
def newcomers (P : Platform ι) (s : VdecCore ι) : List (Action ι) → ℕ
  | [] => 0
  | a :: as =>
    match step P s a with
    | none => 0
    | some s' => (s'.connected.length - s.connected.length) + newcomers P s' as

omit [DecidableEq ι] in
@[simp]
theorem elections_append (as bs : List (Action ι)) :
    elections (as ++ bs) = elections as + elections bs := List.countP_append

/-- The steps of a run connect what its two parts do. -/
theorem newcomers_append {G : VdecCore ι → Action ι → Prop} {s₀ : VdecCore ι}
    {as : List (Action ι)} (r : Run (step P) G s₀ as s) (bs : List (Action ι)) :
    newcomers P s₀ (as ++ bs) = newcomers P s₀ as + newcomers P s bs := by
  induction r generalizing bs with
  | nil => simp [newcomers]
  | @snoc as s s' a _ _ hs ih =>
    -- the last step of the run is the first one of what follows the steps before
    rw [List.append_assoc, ih, ih [a]]
    simp [newcomers, hs, Nat.add_assoc]

/-- Outside step mode, the decoders asked before the elected one would not run. -/
theorem electFrom_split {R : ι → Reading} {s₀ : VdecCore ι} (h0 : s₀.stepMode = 0) {l : List ι}
    {w : Option (ι × CoreMask)} {t : VdecCore ι} (hasked : Asked s₀ s)
    (h : electFrom P R l s = (w, t)) :
    (w = none → ∀ u ∈ l, (s₀.ask P R u).1 = 0) ∧
      ∀ m ∈ w, ∃ xs ys, l = xs ++ m.1 :: ys ∧ ∀ u ∈ xs, (s₀.ask P R u).1 = 0 := by
  induction l generalizing s with
  | nil =>
    obtain ⟨rfl, -⟩ := Prod.mk.inj h
    exact ⟨by simp, by simp⟩
  | cons u l ih =>
    simp only [electFrom] at h
    rw [ask_congr hasked h0] at h
    split at h
    case isTrue hu =>
      obtain ⟨hnone, hsome⟩ := ih (hasked.trans (ask_asked u)) h
      refine ⟨fun hw => List.forall_mem_cons.2 ⟨hu, hnone hw⟩, fun m hm => ?_⟩
      obtain ⟨xs, ys, rfl, hxs⟩ := hsome m hm
      exact ⟨u :: xs, ys, rfl, List.forall_mem_cons.2 ⟨hu, hxs⟩⟩
    case isFalse hu =>
      obtain ⟨rfl, -⟩ := Prod.mk.inj h
      refine ⟨by simp, fun m hm => ?_⟩
      obtain rfl := Option.some.inj hm
      exact ⟨[], l, rfl, by simp⟩

/-- **An election that passes over a decoder brings it nearer to its turn.** -/
theorem elect_ahead {R : ι → Reading} {v : ι} (hcore : CoreInv s) (hlist : ListInv s)
    (hv : v ∈ s.connected) (hg : WaitGuard P v s (.elect R)) {w : Option (ι × CoreMask)}
    {t : VdecCore ι} (helect : s.elect P R = (w, t)) :
    ∃ m ∈ w, ahead s.connected (some m.1) v < ahead s.connected s.active v := by
  obtain ⟨h0, hready, hpassed⟩ := hg
  rw [helect] at hpassed
  have hturns := elect_eq (P := P) (R := R) hcore.active
  rw [helect] at hturns
  obtain ⟨hnone, hsome⟩ := electFrom_split h0 (.refl s) hturns.symm
  have hmem := (mem_turns hcore.active).2 hv
  cases w with
  | none => exact absurd (hnone rfl v hmem) hready
  | some m =>
    obtain ⟨xs, ys, hl, hxs⟩ := hsome m rfl
    exact ⟨m, rfl, ahead_served_lt hlist.nodup hcore.active hl hv (hpassed m rfl).symm
      fun hx => hready (hxs v hx)⟩

omit [DecidableEq ι] in
/-- What the thread does between elections leaves the turns alone. -/
theorem served_congr (helected : s'.thread.elected = s.thread.elected)
    (hactive : s'.active = s.active) : s'.served = s.served := by
  rw [served, served, helected, hactive]

omit [DecidableEq ι] in
theorem served_mem (hcore : CoreInv s) : ∀ x ∈ s.served, x ∈ s.connected := by
  intro x hx
  cases he : s.thread.elected with
  | none => exact hcore.active x (by simpa [served, he] using hx)
  | some m =>
    obtain rfl : m.1 = x := by simpa [served, he] using hx
    exact (hcore.elected m he).1

/-- One step of a run in which `v` waits. -/
theorem wait_step {v : ι} {a : Action ι} (hcore : CoreInv s) (hlist : ListInv s)
    (hv : v ∈ s.connected) (hg : WaitGuard P v s a) (hs : Step P s a s') :
    v ∈ s'.connected ∧
      elections [a] + ahead s'.connected s'.served v ≤
        ahead s.connected s.served v + (s'.connected.length - s.connected.length) := by
  -- most steps elect and connect nobody
  have quiet : ∀ {t : VdecCore ι}, t.connected = s.connected → t.served = s.served →
      elections [a] = 0 → v ∈ t.connected ∧ elections [a] + ahead t.connected t.served v ≤
        ahead s.connected s.served v + (t.connected.length - s.connected.length) := by
    intro t hconn hserved h0
    rw [hconn, hserved, h0]
    exact ⟨hv, by omega⟩
  cases hs with
  | setStepMode => exact quiet rfl rfl rfl
  | connectNot => exact quiet rfl rfl rfl
  | @connect u _ _ =>
    refine ⟨List.mem_append_left _ hv, ?_⟩
    have := ahead_append_le (served_mem hcore) hv (u :: (P.params u).slave.toList)
    calc elections [.connect u] + ahead (s.connected ++ u :: (P.params u).slave.toList) s.served v
        ≤ ahead s.connected s.served v + (u :: (P.params u).slave.toList).length :=
          (Nat.zero_add _).le.trans this
      _ = _ := by
          rw [List.length_append]
          omega
  | disconnectNot => exact quiet rfl rfl rfl
  | disconnect => exact quiet rfl rfl rfl
  | waited => exact quiet rfl rfl rfl
  | request => exact quiet rfl rfl rfl
  | release => exact quiet rfl rfl rfl
  | finish => exact quiet rfl rfl rfl
  | finishIdle => exact quiet rfl rfl rfl
  | finishBusy => exact quiet rfl rfl rfl
  | finishSet => exact quiet rfl rfl rfl
  | up => exact quiet rfl rfl rfl
  | cleanup hthread =>
    have hconn := connected_checkDisconnected_swept s
    have hactive : s.swept.checkDisconnected.active = s.active := by
      cases ha : s.active with
      | none => simp [checkDisconnected, ha]
      | some a => simp [checkDisconnected, ha, leaves_swept, hg.2 a ha]
    have hserved : s.served = s.active := by rw [served, hthread]; rfl
    have hserved' : s.swept.checkDisconnected.served = s.active := hactive
    refine ⟨?_, ?_⟩
    · rw [hconn, List.mem_filter]
      exact ⟨hv, by simp [hg.1]⟩
    · rw [hconn, hserved, hserved']
      have := ahead_filter_le (p := fun u => !s.leaves u) hcore.active
        (fun a ha => by simp [hg.2 a ha]) (v := v) (by simp [hg.1])
      exact (Nat.zero_add _).le.trans (this.trans (Nat.le_add_right _ _))
  | @electSome R d w m t hthread helect =>
    obtain ⟨m', hm', hlt⟩ := elect_ahead hcore hlist hv hg helect
    obtain rfl := Option.some.inj hm'
    have hconn := (elect_asked hcore.active helect).connected
    have hserved : s.served = s.active := by rw [served, hthread]; rfl
    refine ⟨hconn.symm ▸ hv, ?_⟩
    rw [hserved]
    dsimp only
    rw [hconn]
    exact (Nat.add_comm 1 _).le.trans (Nat.le_add_right_of_le hlt)
  | electNone _ helect =>
    obtain ⟨m', hm', -⟩ := elect_ahead hcore hlist hv hg helect
    cases hm'
  | grant hthread => exact quiet rfl (served_congr (by rw [hthread]; rfl) rfl) rfl
  | @mark d u m hthread =>
    have hserved : s.served = some u := by rw [served, hthread]; rfl
    exact quiet rfl hserved.symm rfl
  | drop hthread => exact quiet rfl (served_congr (by rw [hthread]; rfl) rfl) rfl
  | turn hthread => exact quiet rfl (served_congr (by rw [hthread]; rfl) rfl) rfl

/-- **Bounded waiting**: in any state reached, a connected decoder that from then on could run at
every election is passed over at most once for each decoder connected then and each one connected
since, as long as neither it nor the active decoder is let go of. -/
theorem bounded_bypass {as bs : List (Action ι)} {s₀ : VdecCore ι} {v : ι}
    (r₀ : Run (step P) Always start as s₀) (hv : v ∈ s₀.connected)
    (r : Run (step P) (WaitGuard P v) s₀ bs s) :
    elections bs < s₀.connected.length + newcomers P s₀ bs := by
  have key : (CoreInv s ∧ ListInv s) ∧ v ∈ s.connected ∧
      elections bs + ahead s.connected s.served v ≤
        ahead s₀.connected s₀.served v + newcomers P s₀ bs := by
    induction r with
    | nil => exact ⟨⟨.run r₀, .run r₀⟩, hv, by simp [elections, newcomers]⟩
    | @snoc bs t t' a hrun hg hs ih =>
      obtain ⟨⟨hcore, hlist⟩, hmem, hle⟩ := ih
      have hnew : newcomers P t [a] = t'.connected.length - t.connected.length := by
        simp [newcomers, hs]
      have hs := step_sound hs
      obtain ⟨hmem', hle'⟩ := wait_step hcore hlist hmem hg hs
      refine ⟨⟨hcore.step hs, hlist.step hcore hs⟩, hmem', ?_⟩
      rw [elections_append, newcomers_append hrun, hnew]
      omega
  have := ahead_lt (served_mem (CoreInv.run r₀)) hv
  omega

/-- Both decoders are ready and the first one connected is elected. -/
theorem bounded_bypass_once :
    ∃ s₀ s : VdecCore Bool, ∃ bs, elections bs = 1 ∧ elections bs < s₀.connected.length ∧
      Run (step twoDecoders) (WaitGuard twoDecoders false) s₀ bs s := by
  obtain ⟨s₀, r₀, hv, hnew, hrun⟩ := exists_run_of_exec (step twoDecoders) Always start
    [.request true multiMask, .request false multiMask, .connect true, .connect false, .up,
      .cleanup]
    (fun s => false ∈ s.connected ∧ newcomers twoDecoders s
        [.elect fun _ => readyReading, .grant, .mark] = 0 ∧
      (exec (step twoDecoders) (WaitGuard twoDecoders false) s
        [.elect fun _ => readyReading, .grant, .mark]).isSome) (by decide +kernel)
  obtain ⟨s, hs⟩ := Option.isSome_iff_exists.1 hrun
  have r := Run.of_exec hs
  have hlt := bounded_bypass r₀ hv r
  rw [hnew] at hlt
  exact ⟨s₀, s, _, rfl, hlt, r⟩

end VdecCore

end Media
