import Akbuilder.Lib.BitMask
import Akbuilder.Lib.RoundRobin
import Akbuilder.Lib.Run
import Mathlib.Logic.Function.Basic

/-!
# The scheduler of the decoder cores

`vdec_core_thread` shares the hardware cores among the connected decoders. Each turn of the thread
takes back the cores that decoders have finished with, lets go of the decoders that are being
disconnected, and elects the next decoder to run. User threads connect, disconnect and request
cores meanwhile, and the drivers report with `vdec_core_finish_run` that cores are done; one turn
is therefore several steps here, and so is `vdec_core_finish_run`, which tests the decoder's masks
and sets its status under a mutex that the electing part of the thread does not take.

## Main definitions

* `Platform`: what does not change: the decoders' parameters, the bit `CORE_MASK_COMBINE`
* `Reading`: what the hardware, the input and the driver of a decoder answer when it is asked
* `VdecCore`: the decoders, the core's list and masks, and where its threads are
* `VdecCore.elect`, `VdecCore.step`: the election, and the steps

## Main results

* `VdecCore.step_sound`: a step is one of the cases of `VdecCore.Step`
* `VdecCore.elect_eq`: the two loops of the election ask the decoders in round-robin turns
-/

open BitMask RoundRobin

namespace Media

/-- An `unsigned long` whose bits stand for hardware cores. -/
abbrev CoreMask := BitVec 64

/-- `enum vdec_type_e`, in the order of `cores_with_input`. -/
inductive VdecType
  | vdec1
  | hcodec
  | vdec2
  | hevc
  | hevcBack
  deriving DecidableEq, Repr

namespace VdecType

/-- `VDEC_1` to `VDEC_MAX - 1`. -/
def all : List VdecType := [vdec1, hcodec, vdec2, hevc, hevcBack]

/-- `1 << type` is the type's core. -/
def core : VdecType → ℕ
  | vdec1 => 0
  | hcodec => 1
  | vdec2 => 2
  | hevc => 3
  | hevcBack => 4

/-- `cores_with_input`. -/
def withInput : VdecType → Bool
  | vdec1 | hevc => true
  | hcodec | vdec2 | hevcBack => false

end VdecType

inductive VdecIrq
  | irq0
  | irq1
  | irq2
  | hevcBack
  deriving DecidableEq, Repr

/-- `cores_int`. -/
def VdecType.irq : VdecType → VdecIrq
  | vdec1 => .irq1
  | hcodec => .irq2
  | vdec2 | hevc => .irq0
  | hevcBack => .hevcBack

/-- `vdec_core_with_input`. -/
def coreWithInput (mask : CoreMask) : Bool :=
  VdecType.all.any fun t => decide (Has mask t.core) && t.withInput

inductive VdecStatus
  | uninitialized
  | disconnected
  | connected
  | active
  deriving DecidableEq, Repr

/-- The fields of `input` that the scheduler reads and that stay as they are. -/
structure VdecInput where
  frameBased : Bool
  streamBased : Bool
  size : UInt32
  prepareLevel : UInt32

/-- The fields of `vdec_s` that the scheduler reads and that stay as they are. -/
structure VdecParams (ι : Type) where
  id : UInt32
  slave : Option ι
  master : Option ι
  runReady : Bool
  irqHandler : Bool
  streamBased : Bool
  input : VdecInput

/-- The flags of `need_more_data`: `VDEC_NEED_MORE_DATA`, and with `_RUN` and `_DIRTY`. -/
structure NeedMoreData where
  need : Bool
  run : Bool
  dirty : Bool
  deriving DecidableEq, Repr

/-- The fields of `vdec_s` that scheduling changes. `inactiveDone` counts the completions of
`inactive_done` that nobody has waited for. -/
structure Vdec where
  status : VdecStatus
  nextStatus : VdecStatus
  coreMask : CoreMask
  schedMask : CoreMask
  activeMask : CoreMask
  needMoreData : NeedMoreData
  inactiveDone : ℕ
  deriving DecidableEq, Repr

/-- What is found at the moment a decoder is asked: `sched`, the end of its input and the next
chunk of it, the parser's registers, the number of time stamps, and the driver's answer. -/
structure Reading where
  sched : Bool
  eos : Bool
  nextChunk : Bool
  rp : UInt32
  wp : UInt32
  recNum : ℤ
  runReady : CoreMask → CoreMask

/-- What does not change: `CORE_MASK_COMBINE`, whether the debug support is built in, and the
decoders' parameters. -/
structure Platform (ι : Type) where
  combine : CoreMask
  debugSupport : Bool
  params : ι → VdecParams ι

/-- `vdec_schedule_mask`. -/
def scheduleMask (combine : CoreMask) (x : Vdec) (activeMask : CoreMask) : CoreMask :=
  let mask := x.coreMask &&& ~~~combine
  if x.coreMask &&& combine ≠ 0 then
    -- combined cores must be granted together
    if mask &&& ~~~activeMask = mask then mask else 0
  else mask &&& ~~~x.schedMask &&& ~~~activeMask

/-- How much of a stream the parser has read ahead. -/
def VdecInput.level (i : VdecInput) (rp wp : UInt32) : UInt32 :=
  if wp < rp then i.size + wp - rp else wp - rp

/-- `vdec_ready_to_run`: the cores the decoder will run on, `need_more_data` and `step_mode`. -/
def readyToRun (debugSupport : Bool) (p : VdecParams ι) (x : Vdec) (r : Reading)
    (stepMode : UInt32) (mask : CoreMask) : CoreMask × NeedMoreData × UInt32 :=
  let stream := coreWithInput mask && p.input.streamBased && !r.eos
  let level := p.input.level r.rp r.wp
  if x.status ≠ .connected ∧ x.status ≠ .active then (0, x.needMoreData, stepMode)
  else if !p.runReady then (0, x.needMoreData, stepMode)
  else if (p.slave.isSome || p.master.isSome) && !r.sched then (0, x.needMoreData, stepMode)
  -- frame based input underrun
  else if coreWithInput mask && !r.eos && p.input.frameBased && !r.nextChunk then
    (0, x.needMoreData, stepMode)
  else if stream && decide (level < p.input.prepareLevel) && decide (r.recNum < 2) then
    let needMoreData := { x.needMoreData with need := true }
    if debugSupport && decide (stepMode &&& 0x200 ≠ 0) && decide (stepMode &&& 0xff = p.id) then
      (mask, needMoreData, stepMode ||| 0xff)
    else (0, needMoreData, stepMode)
  else
    let needMoreData :=
      if stream && decide (p.input.prepareLevel < level) then { x.needMoreData with need := false }
      else x.needMoreData
    if stepMode ≠ 0 then
      if stepMode &&& 0xff ≠ p.id then (0, needMoreData, stepMode)
      else (r.runReady mask &&& mask, needMoreData, stepMode ||| 0xff)
    else (r.runReady mask &&& mask, needMoreData, stepMode)

/-- Where `vdec_core_thread` is: at `down_interruptible`; before the election; with a decoder
elected, before its `active_mask` and before its `sched_mask` are set; or at the loop over
`disconnecting_list`. -/
inductive ThreadPc (ι : Type)
  | down
  | elect (disconnecting : List ι)
  | grant (disconnecting : List ι) (v : ι) (mask : CoreMask)
  | mark (disconnecting : List ι) (v : ι) (mask : CoreMask)
  | drop (disconnecting : List ι) (worker : Bool)
  deriving DecidableEq, Repr

/-- Where `vdec_core_finish_run` is: its mask is cleared, or it has found `active_mask` zero. -/
inductive FinishPc
  | cleared
  | idle
  deriving DecidableEq, Repr

/-- `vdec_core_s` with its decoders and threads. `finishing` holds `vdec_mutex`; `ups` counts the
calls of `up(&core->sem)` that other threads are about to make. -/
structure VdecCore (ι : Type) where
  vdec : ι → Vdec
  connected : List ι
  active : Option ι
  schedMask : CoreMask
  isrVdec : VdecIrq → Option ι
  stepMode : UInt32
  sem : ℕ
  thread : ThreadPc ι
  finishing : Option (ι × FinishPc)
  ups : ℕ

namespace VdecCore

variable {ι : Type} [DecidableEq ι]

/-- The steps. `setStepMode` writes the debug parameter `step_mode`. A turn of the thread is
`cleanup`, `elect`, `grant` and `mark` if a decoder is elected, and `drop` for each decoder let go
of and once more. `finish`, `finishTest` and `finishSet` are `vdec_core_finish_run`; `waited` is
the end of the wait in `vdec_disconnect`. -/
inductive Action (ι : Type)
  | setStepMode (mode : UInt32)
  | connect (v : ι)
  | disconnect (v : ι)
  | waited (v : ι)
  | request (v : ι) (mask : CoreMask)
  | release (v : ι) (mask : CoreMask)
  | finish (v : ι) (mask : CoreMask)
  | finishTest
  | finishSet
  | up
  | cleanup
  | elect (readings : ι → Reading)
  | grant
  | mark
  | drop (vdecNr : ℕ)

/-- The core with every decoder initialised and none connected. -/
def start : VdecCore ι where
  vdec _ :=
    { status := .disconnected
      nextStatus := .disconnected
      coreMask := 0
      schedMask := 0
      activeMask := 0
      needMoreData := ⟨false, false, false⟩
      inactiveDone := 0 }
  connected := []
  active := none
  schedMask := 0
  isrVdec _ := none
  stepMode := 0
  sem := 0
  thread := .down
  finishing := none
  ups := 0

/-- The decoder `v` changed by `f`. -/
def modify (x : ι → Vdec) (v : ι) (f : Vdec → Vdec) : ι → Vdec := Function.update x v (f (x v))

/-- `u` is `v` or its slave. -/
def Pair (P : Platform ι) (v u : ι) : Prop := u = v ∨ (P.params v).slave = some u

instance (P : Platform ι) (v u : ι) : Decidable (Pair P v u) := inferInstanceAs (Decidable (_ ∨ _))

/-- `f` for the decoder and for its slave. -/
def modifyPair (P : Platform ι) (x : ι → Vdec) (v : ι) (f : Vdec → Vdec) : ι → Vdec :=
  match (P.params v).slave with
  | none => modify x v f
  | some u => modify (modify x v f) u f

/-- The status and the completion that `vdec_connect` begins with. -/
def connecting (x : Vdec) : Vdec :=
  { x with status := .connected, nextStatus := .connected, inactiveDone := 0 }

/-- `vdec_connect`. A decoder whose slave is still in the list must not be connected: adding the
slave's node again would break the list. -/
def connect (P : Platform ι) (s : VdecCore ι) (v : ι) : Option (VdecCore ι) :=
  if (s.vdec v).status ≠ .disconnected then some s
  else if ∃ u ∈ (P.params v).slave, u = v ∨ (s.vdec u).status ≠ .disconnected then none
  else
    some { s with
      vdec := modifyPair P s.vdec v connecting
      connected := s.connected ++ v :: (P.params v).slave.toList
      ups := s.ups + 1 }

/-- `vdec_set_next_status` of the decoder, and of its slave or its master. -/
def leave (P : Platform ι) (x : ι → Vdec) (v : ι) : ι → Vdec :=
  let f := fun x : Vdec => { x with nextStatus := .disconnected }
  match (P.params v).slave, (P.params v).master with
  | some u, _ => modify (modify x v f) u f
  | none, some u => modify (modify x v f) u f
  | none, none => modify x v f

/-- `vdec_disconnect` up to its wait. -/
def disconnect (P : Platform ι) (s : VdecCore ι) (v : ι) : Option (VdecCore ι) :=
  if (s.vdec v).status ≠ .connected ∧ (s.vdec v).status ≠ .active then some s
  else if s.finishing.isSome then none
  else some { s with vdec := leave P s.vdec v, ups := s.ups + 1 }

/-- `vdec_route_interrupt`. -/
def routeInterrupt (isr : VdecIrq → Option ι) (v : ι) (mask : CoreMask) (enable : Bool) :
    VdecIrq → Option ι :=
  VdecType.all.foldl (fun isr t =>
    if Has mask t.core then
      if enable then Function.update isr t.irq (some v)
      else if isr t.irq = some v then Function.update isr t.irq none
      else isr
    else isr) isr

/-- The cores that a decoder has done with. -/
def doneMask (x : Vdec) : CoreMask := x.schedMask &&& (x.activeMask ^^^ x.schedMask)

/-- The cleaning up of one decoder: the cores it has done with go back. -/
def clean (s : VdecCore ι) (v : ι) : VdecCore ι :=
  let mask := doneMask (s.vdec v)
  { s with
    vdec := modify s.vdec v fun x => { x with schedMask := x.schedMask &&& ~~~mask }
    schedMask := s.schedMask &&& ~~~mask
    isrVdec := routeInterrupt s.isrVdec v mask false }

/-- A decoder that is to be disconnected and is not running. -/
def leaves (s : VdecCore ι) (v : ι) : Bool :=
  decide ((s.vdec v).status = .connected) && decide ((s.vdec v).nextStatus = .disconnected)

/-- The cleaning up of every connected decoder. -/
def cleanAll (s : VdecCore ι) : VdecCore ι := s.connected.foldl clean s

/-- Moves the decoders that leave to `disconnecting_list`, each to its front. -/
def checkDisconnected (s : VdecCore ι) : VdecCore ι :=
  { s with
    connected := s.connected.filter fun v => !s.leaves v
    active := s.active.filter fun v => !(decide (v ∈ s.connected) && s.leaves v)
    thread := .elect (s.connected.filter s.leaves).reverse }

/-- A turn of the thread up to the election, all of it under `vdec_mutex`. -/
def cleanup (s : VdecCore ι) : Option (VdecCore ι) :=
  if s.thread = .down ∧ 0 < s.sem ∧ s.finishing = none then
    some (cleanAll { s with sem := s.sem - 1 }).checkDisconnected
  else none

/-- Asks one decoder: its cores that are free, and of these the ones it will run on. -/
def ask (P : Platform ι) (R : ι → Reading) (s : VdecCore ι) (v : ι) : CoreMask × VdecCore ι :=
  let mask := scheduleMask P.combine (s.vdec v) s.schedMask
  if mask = 0 then (0, s)
  else
    let r := readyToRun P.debugSupport (P.params v) (s.vdec v) (R v) s.stepMode mask
    (r.1,
      { s with
        vdec := modify s.vdec v fun x => { x with needMoreData := r.2.1 }
        stepMode := r.2.2 })

/-- The loop from the decoder behind the active one. -/
def electFrom (P : Platform ι) (R : ι → Reading) :
    List ι → VdecCore ι → Option (ι × CoreMask) × VdecCore ι
  | [], s => (none, s)
  | v :: vs, s =>
    let (m, s') := s.ask P R v
    if m = 0 then electFrom P R vs s' else (some (v, m), s')

/-- The loop from the beginning, which ends at the active decoder. -/
def electFront (P : Platform ι) (R : ι → Reading) :
    List ι → VdecCore ι → Option (ι × CoreMask) × VdecCore ι
  | [], s => (none, s)
  | v :: vs, s =>
    let (m, s') := s.ask P R v
    if s.active = some v then (if m = 0 then none else some (v, m), s')
    else if m = 0 then electFront P R vs s' else (some (v, m), s')

/-- The election. -/
def elect (P : Platform ι) (R : ι → Reading) (s : VdecCore ι) :
    Option (ι × CoreMask) × VdecCore ι :=
  let (w, s') :=
    match s.active with
    | none => (none, s)
    | some a => electFrom P R (behind a s.connected) s
  match w with
  | some _ => (w, s')
  | none => electFront P R s'.connected s'

/-- `vdec_prepare_run`, the flags of `need_more_data`. -/
def runFlags (p : VdecParams ι) (mask : CoreMask) (n : NeedMoreData) : NeedMoreData :=
  if coreWithInput mask then
    { need := n.need || (p.streamBased && n.run && !n.dirty), run := true, dirty := false }
  else n

/-- The elected decoder gets its cores, becomes the active one and runs; the thread goes on for
another turn. -/
def runVdec (P : Platform ι) (s : VdecCore ι) (d : List ι) (v : ι) (mask : CoreMask) : VdecCore ι :=
  { s with
    vdec := modify s.vdec v fun x =>
      { x with
        schedMask := x.schedMask ||| mask
        status := .active
        needMoreData := runFlags (P.params v) mask x.needMoreData }
    schedMask := s.schedMask ||| mask
    active := some v
    isrVdec := routeInterrupt s.isrVdec v mask true
    sem := s.sem + 1
    thread := .drop d true }

/-- The step function. -/
def step (P : Platform ι) (s : VdecCore ι) : Action ι → Option (VdecCore ι)
  | .setStepMode mode => some { s with stepMode := mode }
  | .connect v => s.connect P v
  | .disconnect v => s.disconnect P v
  | .waited v =>
    if 0 < (s.vdec v).inactiveDone then
      some { s with
        vdec := modify s.vdec v fun x => { x with inactiveDone := x.inactiveDone - 1 } }
    else none
  | .request v mask =>
    some { s with
      vdec := modifyPair P s.vdec v fun x => { x with coreMask := x.coreMask ||| mask } }
  | .release v mask =>
    some { s with
      vdec := modifyPair P s.vdec v fun x => { x with coreMask := x.coreMask &&& ~~~mask } }
  | .finish v mask =>
    if s.finishing = none then
      some { s with
        vdec := modify s.vdec v fun x =>
          { x with activeMask := eachBit (fun i m => m &&& ~~~bit i) 64 mask x.activeMask }
        finishing := some (v, .cleared) }
    else none
  | .finishTest =>
    match s.finishing with
    | some (v, .cleared) =>
      if (s.vdec v).activeMask = 0 then some { s with finishing := some (v, .idle) }
      -- the driver calls `vdec_callback` after `vdec_core_finish_run`
      else some { s with finishing := none, ups := s.ups + 1 }
    | _ => none
  | .finishSet =>
    match s.finishing with
    | some (v, .idle) =>
      some { s with
        vdec := modify s.vdec v fun x => { x with status := .connected }
        finishing := none
        ups := s.ups + 1 }
    | _ => none
  | .up => if 0 < s.ups then some { s with ups := s.ups - 1, sem := s.sem + 1 } else none
  | .cleanup => s.cleanup
  | .elect R =>
    match s.thread with
    | .elect d =>
      match s.elect P R with
      | (some (v, mask), s') => some { s' with thread := .grant d v mask }
      | (none, s') => some { s' with thread := .drop d false }
    | _ => none
  | .grant =>
    match s.thread with
    | .grant d v mask =>
      some { s with
        vdec := modify s.vdec v fun x =>
          { x with activeMask := eachBit (fun i m => m ||| bit i) 64 mask x.activeMask }
        thread := .mark d v mask }
    | _ => none
  | .mark =>
    match s.thread with
    | .mark d v mask => some (s.runVdec P d v mask)
    | _ => none
  | .drop vdecNr =>
    match s.thread with
    | .drop (v :: d) worker =>
      some { s with
        vdec := modify s.vdec v fun x =>
          { x with status := .disconnected, inactiveDone := x.inactiveDone + 1 }
        thread := .drop d worker }
    | .drop [] worker =>
      some { s with
        -- nothing new scheduled and nothing running: sleep, and go on
        sem :=
          if !worker && decide (s.schedMask = 0) && decide (0 < vdecNr) then s.sem + 1 else s.sem
        thread := .down }
    | _ => none

/-- What `vdec_isr` does with an interrupt: the handler of a legacy device, that of a decoder, or
none. -/
inductive Served (ι : Type)
  | device
  | handler (v : ι)
  | nobody
  deriving DecidableEq, Repr

/-- `vdec_isr`. -/
def isr (P : Platform ι) (s : VdecCore ι) (devIsr : Bool) (irq : VdecIrq) : Served ι :=
  if devIsr then .device
  else if irq ≠ .irq0 ∧ irq ≠ .irq1 ∧ irq ≠ .hevcBack then .nobody
  else
    match s.active with
    | none => .nobody
    | some v => if (P.params v).irqHandler then .handler v else .nobody

/-! ## The changes of a decoder -/

variable {P : Platform ι} {s s' : VdecCore ι}

section Modify

variable {x : ι → Vdec} {u v : ι} {f : Vdec → Vdec} {γ : Type*} {π : Vdec → γ}

theorem modify_self : modify x v f v = f (x v) := Function.update_self ..

theorem modify_of_ne (h : u ≠ v) : modify x v f u = x u := Function.update_of_ne h ..

/-- What `f` leaves alone stays as it is in every decoder. -/
theorem modify_frame (hf : ∀ x, π (f x) = π x) : π (modify x v f u) = π (x u) := by
  by_cases h : u = v
  · rw [h, modify_self, hf]
  · rw [modify_of_ne h]

theorem modifyPair_frame (hf : ∀ x, π (f x) = π x) : π (modifyPair P x v f u) = π (x u) := by
  rw [modifyPair]
  cases (P.params v).slave with
  | none => exact modify_frame hf
  | some w => exact (modify_frame hf).trans (modify_frame hf)

theorem leave_frame (hf : ∀ x : Vdec, π { x with nextStatus := .disconnected } = π x) :
    π (leave P x v u) = π (x u) := by
  rw [leave]
  cases (P.params v).slave with
  | some w => exact (modify_frame hf).trans (modify_frame hf)
  | none =>
    cases (P.params v).master with
    | some w => exact (modify_frame hf).trans (modify_frame hf)
    | none => exact modify_frame hf

theorem modifyPair_of_not_pair (h : ¬ Pair P v u) : modifyPair P x v f u = x u := by
  rw [Pair, not_or] at h
  rw [modifyPair]
  cases hs : (P.params v).slave with
  | none => exact modify_of_ne h.1
  | some w =>
    have hu : u ≠ w := by
      rintro rfl
      exact h.2 hs
    exact (modify_of_ne hu).trans (modify_of_ne h.1)

/-- A change of a pair changes each of the two once. -/
theorem modifyPair_apply (hslave : ∀ u ∈ (P.params v).slave, u ≠ v) :
    modifyPair P x v f u = if Pair P v u then f (x u) else x u := by
  by_cases hp : Pair P v u
  · rw [if_pos hp, modifyPair]
    cases hs : (P.params v).slave with
    | none =>
      obtain rfl : u = v := hp.resolve_right (by simp [hs])
      exact modify_self
    | some w =>
      have hw : w ≠ v := hslave w hs
      rcases hp with rfl | hu
      · exact (modify_of_ne hw.symm).trans modify_self
      · obtain rfl : w = u := Option.some.inj (hs.symm.trans hu)
        dsimp only
        rw [modify_self, modify_of_ne hw]
  · rw [if_neg hp, modifyPair_of_not_pair hp]

end Modify

/-! ## What a step can do -/

/-- **The cases of a step.** -/
inductive Step (P : Platform ι) (s : VdecCore ι) : Action ι → VdecCore ι → Prop
  | setStepMode {mode : UInt32} : Step P s (.setStepMode mode) { s with stepMode := mode }
  | connectNot {v : ι} (hv : (s.vdec v).status ≠ .disconnected) : Step P s (.connect v) s
  | connect {v : ι} (hv : (s.vdec v).status = .disconnected)
      (hslave : ∀ u ∈ (P.params v).slave, u ≠ v ∧ (s.vdec u).status = .disconnected) :
      Step P s (.connect v)
        { s with
          vdec := modifyPair P s.vdec v connecting
          connected := s.connected ++ v :: (P.params v).slave.toList
          ups := s.ups + 1 }
  | disconnectNot {v : ι} : Step P s (.disconnect v) s
  | disconnect {v : ι} (hfinish : s.finishing = none) :
      Step P s (.disconnect v) { s with vdec := leave P s.vdec v, ups := s.ups + 1 }
  | waited {v : ι} :
      Step P s (.waited v)
        { s with vdec := modify s.vdec v fun x => { x with inactiveDone := x.inactiveDone - 1 } }
  | request {v : ι} {mask : CoreMask} :
      Step P s (.request v mask)
        { s with
          vdec := modifyPair P s.vdec v fun x => { x with coreMask := x.coreMask ||| mask } }
  | release {v : ι} {mask : CoreMask} :
      Step P s (.release v mask)
        { s with
          vdec := modifyPair P s.vdec v fun x => { x with coreMask := x.coreMask &&& ~~~mask } }
  | finish {v : ι} {mask : CoreMask} (hfinish : s.finishing = none) :
      Step P s (.finish v mask)
        { s with
          vdec := modify s.vdec v fun x => { x with activeMask := x.activeMask &&& ~~~mask }
          finishing := some (v, .cleared) }
  | finishIdle {v : ι} (hfinish : s.finishing = some (v, .cleared))
      (hidle : (s.vdec v).activeMask = 0) :
      Step P s .finishTest { s with finishing := some (v, .idle) }
  | finishBusy {v : ι} (hfinish : s.finishing = some (v, .cleared)) :
      Step P s .finishTest { s with finishing := none, ups := s.ups + 1 }
  | finishSet {v : ι} (hfinish : s.finishing = some (v, .idle)) :
      Step P s .finishSet
        { s with
          vdec := modify s.vdec v fun x => { x with status := .connected }
          finishing := none
          ups := s.ups + 1 }
  | up (hups : 0 < s.ups) : Step P s .up { s with ups := s.ups - 1, sem := s.sem + 1 }
  | cleanup (hthread : s.thread = .down) (hsem : 0 < s.sem) (hfinish : s.finishing = none) :
      Step P s .cleanup (cleanAll { s with sem := s.sem - 1 }).checkDisconnected
  | electSome {R : ι → Reading} {d : List ι} {v : ι} {mask : CoreMask} {t : VdecCore ι}
      (hthread : s.thread = .elect d) (helect : s.elect P R = (some (v, mask), t)) :
      Step P s (.elect R) { t with thread := .grant d v mask }
  | electNone {R : ι → Reading} {d : List ι} {t : VdecCore ι}
      (hthread : s.thread = .elect d) (helect : s.elect P R = (none, t)) :
      Step P s (.elect R) { t with thread := .drop d false }
  | grant {d : List ι} {v : ι} {mask : CoreMask} (hthread : s.thread = .grant d v mask) :
      Step P s .grant
        { s with
          vdec := modify s.vdec v fun x => { x with activeMask := x.activeMask ||| mask }
          thread := .mark d v mask }
  | mark {d : List ι} {v : ι} {mask : CoreMask} (hthread : s.thread = .mark d v mask) :
      Step P s .mark (s.runVdec P d v mask)
  | drop {v : ι} {d : List ι} {worker : Bool} {vdecNr : ℕ}
      (hthread : s.thread = .drop (v :: d) worker) :
      Step P s (.drop vdecNr)
        { s with
          vdec := modify s.vdec v fun x =>
            { x with status := .disconnected, inactiveDone := x.inactiveDone + 1 }
          thread := .drop d worker }
  | turn {worker : Bool} {vdecNr : ℕ} (hthread : s.thread = .drop [] worker) :
      Step P s (.drop vdecNr)
        { s with
          sem :=
            if !worker && decide (s.schedMask = 0) && decide (0 < vdecNr) then s.sem + 1 else s.sem
          thread := .down }

theorem connect_sound {v : ι} (h : s.connect P v = some s') : Step P s (.connect v) s' := by
  rw [connect] at h
  split at h
  case isTrue hv =>
    obtain rfl := Option.some.inj h
    exact .connectNot hv
  case isFalse hv =>
    split at h
    case isTrue => cases h
    case isFalse hslave =>
      obtain rfl := Option.some.inj h
      refine .connect (by simpa using hv) fun u hu => ?_
      push Not at hslave
      exact hslave u hu

/-- **A step is one of the cases.** -/
theorem step_sound {a : Action ι} (h : s.step P a = some s') : Step P s a s' := by
  cases a with
  | setStepMode mode =>
    obtain rfl := Option.some.inj h
    exact .setStepMode
  | connect v => exact connect_sound h
  | disconnect v =>
    simp only [step, disconnect] at h
    split at h
    case isTrue =>
      obtain rfl := Option.some.inj h
      exact .disconnectNot
    case isFalse =>
      split at h
      case isTrue => cases h
      case isFalse hfinish =>
        obtain rfl := Option.some.inj h
        exact .disconnect (by simpa using hfinish)
  | waited v =>
    simp only [step] at h
    split at h
    · obtain rfl := Option.some.inj h
      exact .waited
    · cases h
  | request v mask =>
    obtain rfl := Option.some.inj h
    exact .request
  | release v mask =>
    obtain rfl := Option.some.inj h
    exact .release
  | finish v mask =>
    simp only [step, eachBit_clear] at h
    split at h
    case isTrue hfinish =>
      obtain rfl := Option.some.inj h
      exact .finish hfinish
    case isFalse => cases h
  | finishTest =>
    simp only [step] at h
    split at h
    · next v hfinish =>
      split at h
      case isTrue hidle =>
        obtain rfl := Option.some.inj h
        exact .finishIdle hfinish hidle
      case isFalse =>
        obtain rfl := Option.some.inj h
        exact .finishBusy hfinish
    · cases h
  | finishSet =>
    simp only [step] at h
    split at h
    · next v hfinish =>
      obtain rfl := Option.some.inj h
      exact .finishSet hfinish
    · cases h
  | up =>
    simp only [step] at h
    split at h
    case isTrue hups =>
      obtain rfl := Option.some.inj h
      exact .up hups
    case isFalse => cases h
  | cleanup =>
    simp only [step, cleanup] at h
    split at h
    case isTrue hc =>
      obtain rfl := Option.some.inj h
      exact .cleanup hc.1 hc.2.1 hc.2.2
    case isFalse => cases h
  | elect R =>
    simp only [step] at h
    split at h
    · next d hthread =>
      split at h
      · next v mask t helect =>
        obtain rfl := Option.some.inj h
        exact .electSome hthread helect
      · next t helect =>
        obtain rfl := Option.some.inj h
        exact .electNone hthread helect
    · cases h
  | grant =>
    simp only [step, eachBit_set] at h
    split at h
    · next d v mask hthread =>
      obtain rfl := Option.some.inj h
      exact .grant hthread
    · cases h
  | mark =>
    simp only [step] at h
    split at h
    · next d v mask hthread =>
      obtain rfl := Option.some.inj h
      exact .mark hthread
    · cases h
  | drop vdecNr =>
    simp only [step] at h
    split at h
    · next v d worker hthread =>
      obtain rfl := Option.some.inj h
      exact .drop hthread
    · next worker hthread =>
      obtain rfl := Option.some.inj h
      exact .turn hthread
    · cases h

/-! ## The election -/

/-- What asking decoders leaves behind: flags of `need_more_data` and `step_mode`. -/
structure Asked (s s' : VdecCore ι) : Prop where
  core : s' = { s with vdec := s'.vdec, stepMode := s'.stepMode }
  vdec : ∀ u, ∃ n, s'.vdec u = { s.vdec u with needMoreData := n }
  stepMode : s.stepMode = 0 → s'.stepMode = 0

namespace Asked

omit [DecidableEq ι]

theorem refl (s : VdecCore ι) : Asked s s := ⟨rfl, fun _ => ⟨_, rfl⟩, id⟩

theorem trans {t : VdecCore ι} (h : Asked s s') (h' : Asked s' t) : Asked s t := by
  refine ⟨?_, fun u => ?_, h'.stepMode ∘ h.stepMode⟩
  · rw [h'.core, h.core]
  · obtain ⟨n, hn⟩ := h.vdec u
    obtain ⟨n', hn'⟩ := h'.vdec u
    exact ⟨n', by rw [hn', hn]⟩

variable (h : Asked s s')

include h

theorem connected : s'.connected = s.connected := by rw [h.core]

theorem active : s'.active = s.active := by rw [h.core]

theorem schedMask : s'.schedMask = s.schedMask := by rw [h.core]

theorem frame {γ : Type*} {π : Vdec → γ} (hπ : ∀ x n, π { x with needMoreData := n } = π x)
    (u : ι) : π (s'.vdec u) = π (s.vdec u) := by
  obtain ⟨n, hn⟩ := h.vdec u
  rw [hn, hπ]

end Asked

variable {R : ι → Reading}

omit [DecidableEq ι] in
/-- `vdec_ready_to_run` answers with cores it was asked for. -/
theorem readyToRun_le {debug : Bool} {p : VdecParams ι} {x : Vdec} {r : Reading} {mode : UInt32}
    {mask : CoreMask} {i : ℕ} (hi : Has (readyToRun debug p x r mode mask).1 i) : Has mask i := by
  unfold readyToRun at hi
  dsimp only at hi
  split_ifs at hi <;> simp_all

omit [DecidableEq ι] in
theorem readyToRun_stepMode {debug : Bool} {p : VdecParams ι} {x : Vdec} {r : Reading}
    {mask : CoreMask} : (readyToRun debug p x r 0 mask).2.2 = 0 := by
  unfold readyToRun
  dsimp only
  split_ifs <;> simp_all

omit [DecidableEq ι] in
/-- What is noted about the stream's level is not looked at. -/
theorem readyToRun_needMoreData {debug : Bool} {p : VdecParams ι} {x : Vdec} {r : Reading}
    {mode : UInt32} {mask : CoreMask} (n : NeedMoreData) :
    (readyToRun debug p { x with needMoreData := n } r mode mask).1 =
      (readyToRun debug p x r mode mask).1 := by
  unfold readyToRun
  dsimp only
  split_ifs <;> rfl

/-- The cores offered to a decoder are cores it asks for and that are free. -/
theorem scheduleMask_free {combine : CoreMask} {x : Vdec} {all : CoreMask} {i : ℕ}
    (h : Has (scheduleMask combine x all) i) :
    Has x.coreMask i ∧ ¬ Has combine i ∧ ¬ Has all i := by
  unfold scheduleMask at h
  dsimp only at h
  split_ifs at h with hc hfree
  · rw [← hfree] at h
    simp only [has_and, has_not] at h
    exact ⟨h.1.1, h.1.2.2, h.2.2⟩
  · simp at h
  · simp only [has_and, has_not] at h
    exact ⟨h.1.1.1, h.1.1.2.2, h.2.2⟩

/-- Combined cores are offered when all of them are free. -/
theorem scheduleMask_combined {combine : CoreMask} {x : Vdec} {all : CoreMask}
    (hc : x.coreMask &&& combine ≠ 0) (h : scheduleMask combine x all ≠ 0) {i : ℕ}
    (hi : Has x.coreMask i) (hni : ¬ Has combine i) : ¬ Has all i := by
  unfold scheduleMask at h
  dsimp only at h
  rw [if_pos hc] at h
  split_ifs at h with hfree
  · have hmask : Has (x.coreMask &&& ~~~combine) i := by simp [hi, hni, hi.lt]
    rw [← hfree] at hmask
    simp only [has_and, has_not] at hmask
    exact hmask.2.2
  · exact absurd rfl h

theorem ask_asked (v : ι) : Asked s (s.ask P R v).2 := by
  rw [ask]
  split
  · exact .refl s
  · refine ⟨rfl, fun u => ?_, fun h => ?_⟩
    · dsimp only
      by_cases hu : u = v
      · rw [hu, modify_self]
        exact ⟨_, rfl⟩
      · rw [modify_of_ne hu]
        exact ⟨_, rfl⟩
    · simp only [h]
      exact readyToRun_stepMode

theorem ask_free {v : ι} {i : ℕ} (h : Has (s.ask P R v).1 i) :
    Has (s.vdec v).coreMask i ∧ ¬ Has P.combine i ∧ ¬ Has s.schedMask i := by
  rw [ask] at h
  split at h
  · simp at h
  · exact scheduleMask_free (readyToRun_le h)

/-- A decoder that gets cores was offered some. -/
theorem scheduleMask_ne_zero {v : ι} (h : (s.ask P R v).1 ≠ 0) :
    scheduleMask P.combine (s.vdec v) s.schedMask ≠ 0 := by
  rw [ask] at h
  split at h
  · exact absurd rfl h
  · assumption

/-- Outside step mode a decoder's answer does not depend on who was asked before. -/
theorem ask_congr (h : Asked s s') (h0 : s.stepMode = 0) (v : ι) :
    (s'.ask P R v).1 = (s.ask P R v).1 := by
  have hmask : scheduleMask P.combine (s'.vdec v) s'.schedMask =
      scheduleMask P.combine (s.vdec v) s.schedMask := by
    rw [h.schedMask]
    exact h.frame (π := fun x => scheduleMask P.combine x s.schedMask) (fun _ _ => rfl) v
  obtain ⟨n, hn⟩ := h.vdec v
  rw [ask, ask, hmask, h0, h.stepMode h0]
  split
  · rfl
  · rw [hn]
    exact readyToRun_needMoreData n

/-! ### The order of the election -/

theorem electFrom_append {l l' : List ι} :
    electFrom P R (l ++ l') s =
      match electFrom P R l s with
      | (some w, t) => (some w, t)
      | (none, t) => electFrom P R l' t := by
  induction l generalizing s with
  | nil => rfl
  | cons v l ih =>
    simp only [List.cons_append, electFrom]
    split
    · exact ih
    · rfl

/-- Without the active decoder in its way the second loop asks everyone. -/
theorem electFront_eq_of_notMem {l : List ι} (h : ∀ a ∈ s.active, a ∉ l) :
    electFront P R l s = electFrom P R l s := by
  induction l generalizing s with
  | nil => rfl
  | cons v l ih =>
    have hv : ¬ s.active = some v := fun hv => h v hv (by simp)
    simp only [electFront, electFrom, hv, if_false]
    split
    · apply ih
      rw [(ask_asked v).active]
      exact fun a ha hmem => h a ha (by simp [hmem])
    · rfl

/-- The second loop ends with the active decoder. -/
theorem electFront_eq {l l' : List ι} {a : ι} (ha : s.active = some a) (hl : a ∉ l) :
    electFront P R (l ++ a :: l') s = electFrom P R (l ++ [a]) s := by
  induction l generalizing s with
  | nil =>
    simp only [List.nil_append, electFront, electFrom, ha, if_true]
    split <;> rfl
  | cons v l ih =>
    have hne : ¬ s.active = some v := by
      rw [ha]
      rintro ⟨⟩
      exact hl (by simp)
    simp only [List.cons_append, electFront, electFrom, hne, if_false]
    split
    · exact ih ((ask_asked v).active.trans ha) fun h => hl (by simp [h])
    · rfl

theorem electFrom_asked {l : List ι} : Asked s (electFrom P R l s).2 := by
  induction l generalizing s with
  | nil => exact .refl s
  | cons v l ih =>
    simp only [electFrom]
    split
    · exact (ask_asked v).trans ih
    · exact ask_asked v

/-- **Round robin**: the two loops together ask the connected decoders in turns, beginning behind
the active one. -/
theorem elect_eq (hactive : ∀ a ∈ s.active, a ∈ s.connected) :
    s.elect P R = electFrom P R (turns s.connected s.active) s := by
  rw [elect]
  cases ha : s.active with
  | none => exact electFront_eq_of_notMem (by simp [ha])
  | some a =>
    obtain ⟨p, q, hl, hp⟩ := List.eq_append_cons_of_mem (hactive a ha)
    dsimp only
    rw [hl, turns_split hp, behind_split hp, electFrom_append]
    have hasked := electFrom_asked (P := P) (R := R) (s := s) (l := q)
    rcases hw : electFrom P R q s with ⟨w, t⟩
    rw [hw] at hasked
    cases w with
    | some w => rfl
    | none =>
      dsimp only
      rw [hasked.connected, hl]
      exact electFront_eq (hasked.active.trans ha) hp

end VdecCore

end Media
