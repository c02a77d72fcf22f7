import Akbuilder.Lib.Circulation
import Akbuilder.Lib.Run
import Mathlib.Logic.Function.Basic

/-!
# The frame pool of the MPEG-1/2, MPEG-4 and VC-1 decoders

The decoder's ucode reports a decoded buffer in `BUFFEROUT` and takes free ones from `BUFFERIN`.
The interrupt handler wraps a reported buffer into frames of a pool, one for each field, counts
them in `vfbuf_use`, and queues them for the receiver, who puts them back. A timer takes the frames
that were put back, and gives a buffer back to the ucode with the last of its frames. The handler,
the timer, the receiver and the ucode run at the same time, so that their steps are interleaved
here one by one.

## Main definitions

* `Provider`: what differs between the decoders
* `FramePool`: the queues, the counts, the registers, and where the handler and the timer are
* `Vmpeg12.provider`, `Vmpeg4.provider`, `Vvc1.provider`: the three decoders
* `FramePool.step`: a step of one of the parties
-/

open Circulation

namespace Media

/-- A frame, `vfpool[slot]` or `vfpool2[slot]`. -/
structure Vframe where
  pool : Bool
  slot : ℕ
  deriving DecidableEq, Repr

/-- The frames of a pool of size `n`. -/
def Vframe.all (n : ℕ) (pool : Bool) : List Vframe := (List.range n).map (Vframe.mk pool)

/-- The registers of a reported picture, and whether `dec_control` forces it to be interlaced. -/
structure Report where
  bufferOut : BitVec 32
  picInfo : BitVec 32
  seqInfo : BitVec 32
  forceInterlace : Bool
  deriving DecidableEq, Repr

/-- What the handlers remember from picture to picture about which ones are not shown. -/
structure SkipFlags where
  firstIFrameReady : Bool
  frameForceSkip : Bool
  intraOutput : Bool
  deriving DecidableEq, Repr

/-- The steps of an interrupt handler that the others can notice. -/
inductive IsrOp
  /-- `kfifo_get(&newframe_q, &vf)`, with `vf->index` set -/
  | get
  /-- `vfbuf_use[index] = n` -/
  | set (n : ℕ)
  /-- `vfbuf_use[index]++` -/
  | inc
  /-- `kfifo_put` to `recycle_q` for a picture that is skipped, and to `display_q` else -/
  | sort
  /-- `kfifo_put` to `display_q` -/
  | display
  /-- the write of `BUFFERIN` -/
  | giveBack
  /-- the write of `BUFFEROUT` at the end -/
  | clear
  deriving DecidableEq, Repr

namespace IsrOp

/-- The frames passed on. -/
def puts : List IsrOp → ℕ
  | [] => 0
  | .sort :: ops | .display :: ops => puts ops + 1
  | .get :: ops | .set _ :: ops | .inc :: ops | .giveBack :: ops | .clear :: ops => puts ops

/-- The frames counted. -/
def incs : List IsrOp → ℕ
  | [] => 0
  | .set n :: ops => incs ops + n
  | .inc :: ops => incs ops + 1
  | .get :: ops | .sort :: ops | .display :: ops | .giveBack :: ops | .clear :: ops => incs ops

/-- The count is still to be set. -/
def sets : List IsrOp → Bool
  | [] => false
  | .set _ :: _ => true
  | .get :: ops | .inc :: ops | .sort :: ops | .display :: ops | .giveBack :: ops
  | .clear :: ops => sets ops

/-- **Handlers from a point on**, with a frame in hand or without: each frame taken is passed on,
and a count that is set is set before the first frame is passed on. -/
inductive Wf : Bool → List IsrOp → Prop
  | clear : Wf false [.clear]
  | get {ops : List IsrOp} (h : Wf true ops) : Wf false (.get :: ops)
  | set {n : ℕ} {ops : List IsrOp} (h : Wf true ops) (hsets : sets ops = false) :
      Wf true (.set n :: ops)
  | inc {ops : List IsrOp} (h : Wf true ops) (hsets : sets ops = false) : Wf true (.inc :: ops)
  | sort {ops : List IsrOp} (h : Wf false ops) (hsets : sets ops = false) : Wf true (.sort :: ops)
  | display {ops : List IsrOp} (h : Wf false ops) (hsets : sets ops = false) :
      Wf true (.display :: ops)

/-- **What a handler does with a picture**: it gives the buffer back, or it passes on at most three
frames and counts as many. -/
inductive Handles : List IsrOp → Prop
  | skip : Handles [.giveBack, .clear]
  | pass {ops : List IsrOp} (wf : Wf false ops) (counted : incs ops = puts ops)
      (pos : 0 < puts ops) (le : puts ops ≤ 3) : Handles ops

end IsrOp

/-- **What differs between the decoders.** -/
structure Provider where
  /-- `VF_POOL_SIZE`, which is the room of each kfifo, too -/
  vfPoolSize : ℕ
  /-- `DECODE_BUFFER_NUM_MAX` -/
  bufferNum : ℕ
  /-- the buffer that `BUFFEROUT` names -/
  bufferIndex : Report → ℕ
  /-- what is written to `BUFFERIN` to give a buffer back -/
  bufferIn : ℕ → BitVec 32
  /-- there are two pools, which `cur_pool_idx` chooses from -/
  twoPools : Bool
  enter : SkipFlags → Report → SkipFlags
  isr : SkipFlags → Report → List IsrOp
  /-- three frames for each buffer, and one in the timer's hand, leave a frame -/
  outside_lt : bufferNum * 3 + 1 < vfPoolSize
  bufferIndex_lt : ∀ r, bufferIndex r < bufferNum
  bufferIn_ne_zero : ∀ i < bufferNum, bufferIn i ≠ 0
  bufferIn_inj : ∀ i < bufferNum, ∀ j < bufferNum, bufferIn i = bufferIn j → i = j
  handles : ∀ flags r, IsrOp.Handles (isr flags r)

/-! ## The decoders -/

namespace Vmpeg12

/-- A picture of type I, by `PICINFO_TYPE_MASK`. -/
def typeI (r : Report) : Bool := r.picInfo &&& 0x00030000 = 0

/-- `PICINFO_ERROR` -/
def picError (r : Report) : Bool := r.picInfo &&& 0x80000000 ≠ 0

/-- `frame_prog & PICINFO_PROG` -/
def frameProg (r : Report) : Bool :=
  if r.seqInfo &&& 0x80000000 ≠ 0 ∧ r.seqInfo &&& 0x00010000 = 0 then false
  else if r.forceInterlace then false
  else r.picInfo &&& 0x8000 ≠ 0

/-- `PICINFO_RPT_FIRST` -/
def rptFirst (r : Report) : Bool := r.picInfo &&& 0x4000 ≠ 0

/-- `vmpeg12_isr` up to the frames. -/
def enter (flags : SkipFlags) (r : Report) : SkipFlags :=
  if !flags.firstIFrameReady && typeI r && !picError r then { flags with firstIFrameReady := true }
  else flags

/-- `vmpeg12_isr`: all frames of a picture are counted before the first one is passed on. -/
def isr (_ : SkipFlags) (r : Report) : List IsrOp :=
  if frameProg r then [.get, .set 1, .sort, .clear]
  else if rptFirst r then [.get, .set 3, .sort, .get, .sort, .get, .sort, .clear]
  else [.get, .set 2, .sort, .get, .sort, .clear]

theorem handles (flags : SkipFlags) (r : Report) : IsrOp.Handles (isr flags r) := by
  rw [isr]
  split_ifs
  · exact .pass (.get (.set (.sort .clear rfl) rfl)) rfl (by decide) (by decide)
  · exact .pass (.get (.set (.sort (.get (.sort (.get (.sort .clear rfl)) rfl)) rfl) rfl)) rfl
      (by decide) (by decide)
  · exact .pass (.get (.set (.sort (.get (.sort .clear rfl)) rfl) rfl)) rfl (by decide) (by decide)

def provider : Provider where
  vfPoolSize := 32
  bufferNum := 8
  bufferIndex r := (((r.bufferOut &&& 0xf) - 1) &&& 7).toNat
  bufferIn i := BitVec.ofNat 32 (i + 1)
  twoPools := true
  enter := enter
  isr := isr
  outside_lt := by decide
  bufferIndex_lt r := by
    rw [BitVec.toNat_and]
    exact Nat.lt_succ_of_le Nat.and_le_right
  bufferIn_ne_zero := by decide
  bufferIn_inj := by decide
  handles := handles

end Vmpeg12

namespace Vmpeg4

/-- `vmpeg4_isr`: each field is counted just before it is passed on. -/
def isr (_ : SkipFlags) (r : Report) : List IsrOp :=
  if r.bufferOut &&& 0x80 ≠ 0 then [.get, .inc, .display, .get, .inc, .display, .clear]
  else [.get, .inc, .display, .clear]

theorem handles (flags : SkipFlags) (r : Report) : IsrOp.Handles (isr flags r) := by
  rw [isr]
  split_ifs
  · exact .pass (.get (.inc (.display (.get (.inc (.display .clear rfl) rfl)) rfl) rfl)) rfl
      (by decide) (by decide)
  · exact .pass (.get (.inc (.display .clear rfl) rfl)) rfl (by decide) (by decide)

def provider : Provider where
  vfPoolSize := 32
  bufferNum := 8
  bufferIndex r := (r.bufferOut &&& 0x7).toNat
  bufferIn i := ~~~(1 <<< i)
  twoPools := false
  enter flags _ := flags
  isr := isr
  outside_lt := by decide
  bufferIndex_lt r := by
    rw [BitVec.toNat_and]
    exact Nat.lt_succ_of_le Nat.and_le_right
  bufferIn_ne_zero := by decide
  bufferIn_inj := by decide
  handles := handles

end Vmpeg4

namespace Vvc1

/-- `picture_type`, which is zero for an intra picture. -/
def pictureType (r : Report) : BitVec 32 := (r.bufferOut >>> 3) &&& 7

/-- `vvc1_isr` up to the frames. -/
def enter (flags : SkipFlags) (r : Report) : SkipFlags :=
  if !flags.intraOutput && pictureType r ≠ 0 then flags else { flags with intraOutput := true }

/-- `vvc1_isr`: before the first intra picture the buffers are given back at once. -/
def isr (flags : SkipFlags) (r : Report) : List IsrOp :=
  if !flags.intraOutput && pictureType r ≠ 0 then [.giveBack, .clear] else Vmpeg4.isr flags r

def provider : Provider where
  vfPoolSize := 16
  bufferNum := 4
  bufferIndex r := (((r.bufferOut &&& 0x7) - 1) &&& 3).toNat
  bufferIn i := ~~~(1 <<< i)
  twoPools := true
  enter := enter
  isr := isr
  outside_lt := by decide
  bufferIndex_lt r := by
    rw [BitVec.toNat_and]
    exact Nat.lt_succ_of_le Nat.and_le_right
  bufferIn_ne_zero := by decide
  bufferIn_inj := by decide
  handles flags r := by
    rw [isr]
    split_ifs
    · exact .skip
    · exact Vmpeg4.handles flags r

end Vvc1

/-! ## The state -/

/-- Where the interrupt handler is: the picture it handles, the frame in hand, what is left. -/
inductive IsrPc
  | idle
  | handling (r : Report) (vf : Option Vframe) (ops : List IsrOp)
  deriving DecidableEq, Repr

/-- Where the timer is with a frame. -/
inductive TimerPc
  | idle
  | got (vf : Vframe)
  | give (vf : Vframe)
  | put (vf : Vframe)
  deriving DecidableEq, Repr

structure FramePool where
  curPool : Bool
  newframeQ : List Vframe
  displayQ : List Vframe
  recycleQ : List Vframe
  /-- `vf->index` -/
  index : Vframe → ℕ
  vfbufUse : ℕ → ℤ
  flags : SkipFlags
  bufferIn : BitVec 32
  /-- the registers of the picture reported, until `BUFFEROUT` is cleared -/
  bufferOut : Option Report
  /-- the buffers the ucode decodes into -/
  ucode : ℕ → Bool
  isr : IsrPc
  timer : TimerPc
  /-- the frames the receiver has got and not put back -/
  held : List Vframe

namespace FramePool

inductive Action
  /-- the ucode reports a picture -/
  | report (r : Report)
  /-- the ucode takes a buffer from `BUFFERIN` -/
  | take (i : ℕ)
  /-- the interrupt -/
  | irq
  /-- the next step of the handler, with `error_frame_skip_level` -/
  | isr (level : ℤ)
  /-- `vf_get` -/
  | get
  /-- `vf_put` -/
  | putBack (vf : Vframe)
  /-- the timer takes a frame -/
  | timerGet
  /-- the next step of the timer with its frame -/
  | timer
  /-- `local_init` and `prot_init`, with `force_first_i_ready` -/
  | reset (force : Bool)
  deriving DecidableEq, Repr

/-- The test of `pool_index(vf)`, which a decoder with one pool does not have. -/
def keeps (π : Provider) (s : FramePool) (vf : Vframe) : Bool :=
  !π.twoPools || decide (vf.pool = s.curPool)

/-- The pool in use after the next reset. -/
def nextPool (π : Provider) (s : FramePool) : Bool := if π.twoPools then !s.curPool else s.curPool

/-- `vmpeg12_local_init`, `vmpeg4_local_init`, `vvc1_local_init` for the pool and its counts;
and `prot_init`, after which the ucode has all buffers. -/
def reset (π : Provider) (force : Bool) (s : FramePool) : FramePool :=
  let curPool := s.nextPool π
  { s with
    curPool
    newframeQ := Vframe.all π.vfPoolSize curPool
    displayQ := []
    recycleQ := []
    index := fun vf => if vf.pool = curPool then π.bufferNum else s.index vf
    vfbufUse := fun _ => 0
    flags := { s.flags with firstIFrameReady := force, frameForceSkip := false }
    bufferIn := 0
    bufferOut := none
    ucode := fun i => decide (i < π.bufferNum) }

/-- The state after the decoder was opened. -/
def start (π : Provider) (force : Bool) : FramePool :=
  reset π force
    { curPool := false
      newframeQ := []
      displayQ := []
      recycleQ := []
      index := fun _ => 0
      vfbufUse := fun _ => 0
      flags := ⟨false, false, false⟩
      bufferIn := 0
      bufferOut := none
      ucode := fun _ => false
      isr := .idle
      timer := .idle
      held := [] }

/-- `error_skip`: whether the picture is skipped, and `frame_force_skip_flag` after it. -/
def errorSkip (level : ℤ) (r : Report) (frameForceSkip : Bool) : Bool × Bool :=
  if level ≠ 0 ∧ (Vmpeg12.picError r ∨ frameForceSkip) then
    let flag :=
      if Vmpeg12.picError r then decide (2 ≤ level) || frameForceSkip
      else if Vmpeg12.typeI r then false
      else frameForceSkip
    (Vmpeg12.picError r || flag, flag)
  else (false, frameForceSkip)

/-- A frame is passed on to `recycle_q` when the picture is skipped, and to `display_q` else. -/
def sort (π : Provider) (level : ℤ) (r : Report) (vf : Vframe) (s : FramePool) : FramePool :=
  let (skip, flag) := errorSkip level r s.flags.frameForceSkip
  let s := { s with flags := { s.flags with frameForceSkip := flag } }
  if skip || (!s.flags.firstIFrameReady && !Vmpeg12.typeI r) then
    { s with recycleQ := push π.vfPoolSize s.recycleQ vf }
  else { s with displayQ := push π.vfPoolSize s.displayQ vf }

/-- A step of the handler. It returns when there is no frame left, or after clearing
`BUFFEROUT`. -/
def isrStep (π : Provider) (level : ℤ) (s : FramePool) : Option FramePool :=
  match s.isr with
  | .idle | .handling _ _ [] => none
  | .handling r vf (op :: ops) =>
    match op, vf with
    | .get, _ =>
      match s.newframeQ with
      | [] => some { s with isr := .idle }
      | vf :: q =>
        some
          { s with
            newframeQ := q
            index := Function.update s.index vf (π.bufferIndex r)
            isr := .handling r (some vf) ops }
    | .set n, vf =>
      some
        { s with
          vfbufUse := Function.update s.vfbufUse (π.bufferIndex r) n
          isr := .handling r vf ops }
    | .inc, vf =>
      let i := π.bufferIndex r
      some
        { s with
          vfbufUse := Function.update s.vfbufUse i (s.vfbufUse i + 1)
          isr := .handling r vf ops }
    | .sort, some vf => some { s.sort π level r vf with isr := .handling r none ops }
    | .display, some vf =>
      some
        { s with
          displayQ := push π.vfPoolSize s.displayQ vf
          isr := .handling r none ops }
    | .sort, none | .display, none => none
    | .giveBack, vf =>
      some { s with bufferIn := π.bufferIn (π.bufferIndex r), isr := .handling r vf ops }
    | .clear, _ => some { s with bufferOut := none, isr := .idle }

/-- A step of the timer with the frame it took. -/
def timerStep (π : Provider) (s : FramePool) : Option FramePool :=
  match s.timer with
  | .idle => none
  | .got vf =>
    let i := s.index vf
    if i < π.bufferNum then
      some
        { s with
          vfbufUse := Function.update s.vfbufUse i (s.vfbufUse i - 1)
          timer := if s.vfbufUse i - 1 = 0 then .give vf else .put vf }
    else some { s with timer := .put vf }
  | .give vf =>
    some
      { s with
        bufferIn := π.bufferIn (s.index vf)
        index := Function.update s.index vf π.bufferNum
        timer := .put vf }
  | .put vf =>
    some
      { s with
        newframeQ := if s.keeps π vf then push π.vfPoolSize s.newframeQ vf else s.newframeQ
        timer := .idle }

/-- **The steps of the parties.** -/
def step (π : Provider) (s : FramePool) : Action → Option FramePool
  | .report r =>
    if s.bufferOut = none ∧ r.bufferOut ≠ 0 ∧ s.ucode (π.bufferIndex r) then
      some
        { s with
          bufferOut := some r
          ucode := Function.update s.ucode (π.bufferIndex r) false }
    else none
  | .take i =>
    if i < π.bufferNum ∧ s.bufferIn = π.bufferIn i then
      some { s with bufferIn := 0, ucode := Function.update s.ucode i true }
    else none
  | .irq =>
    match s.isr, s.bufferOut with
    | .idle, some r =>
      some
        { s with
          flags := π.enter s.flags r
          isr := .handling r none (π.isr s.flags r) }
    | _, _ => none
  | .isr level => s.isrStep π level
  | .get =>
    match s.displayQ with
    | [] => none
    | vf :: q => some { s with displayQ := q, held := vf :: s.held }
  | .putBack vf =>
    if vf ∈ s.held then
      some
        { s with
          held := s.held.erase vf
          recycleQ := if s.keeps π vf then push π.vfPoolSize s.recycleQ vf else s.recycleQ }
    else none
  | .timerGet =>
    match s.timer, s.recycleQ with
    | .idle, vf :: q =>
      if s.bufferIn = 0 then some { s with recycleQ := q, timer := .got vf } else none
    | _, _ => none
  | .timer => s.timerStep π
  | .reset force => some (s.reset π force)

/-- What `vf_states` reports. -/
structure VframeStates where
  vfPoolSize : ℕ
  bufFreeNum : ℕ
  bufAvailNum : ℕ
  bufRecycleNum : ℕ
  deriving DecidableEq, Repr

/-- `vmpeg_vf_states`, `vvc1_vf_states`. -/
def vfStates (π : Provider) (s : FramePool) : VframeStates :=
  ⟨π.vfPoolSize, s.newframeQ.length, s.displayQ.length, s.recycleQ.length⟩

/-! ## What a step can do -/

variable {π : Provider} {s s' : FramePool}

/-- **The cases of a step.** -/
inductive Step (π : Provider) (s : FramePool) : Action → FramePool → Prop
  | report {r : Report} (hout : s.bufferOut = none) (hucode : s.ucode (π.bufferIndex r) = true) :
      Step π s (.report r)
        { s with
          bufferOut := some r
          ucode := Function.update s.ucode (π.bufferIndex r) false }
  | take {i : ℕ} (hi : i < π.bufferNum) (hin : s.bufferIn = π.bufferIn i) :
      Step π s (.take i) { s with bufferIn := 0, ucode := Function.update s.ucode i true }
  | irq {r : Report} (hisr : s.isr = .idle) (hout : s.bufferOut = some r) :
      Step π s .irq
        { s with
          flags := π.enter s.flags r
          isr := .handling r none (π.isr s.flags r) }
  | fatal {level : ℤ} {r : Report} {hand : Option Vframe} {ops : List IsrOp}
      (hisr : s.isr = .handling r hand (.get :: ops)) (hq : s.newframeQ = []) :
      Step π s (.isr level) { s with isr := .idle }
  | isrGet {level : ℤ} {r : Report} {hand : Option Vframe} {ops : List IsrOp} {vf : Vframe}
      {q : List Vframe} (hisr : s.isr = .handling r hand (.get :: ops))
      (hq : s.newframeQ = vf :: q) :
      Step π s (.isr level)
        { s with
          newframeQ := q
          index := Function.update s.index vf (π.bufferIndex r)
          isr := .handling r (some vf) ops }
  | set {level : ℤ} {r : Report} {hand : Option Vframe} {ops : List IsrOp} {n : ℕ}
      (hisr : s.isr = .handling r hand (.set n :: ops)) :
      Step π s (.isr level)
        { s with
          vfbufUse := Function.update s.vfbufUse (π.bufferIndex r) n
          isr := .handling r hand ops }
  | inc {level : ℤ} {r : Report} {hand : Option Vframe} {ops : List IsrOp}
      (hisr : s.isr = .handling r hand (.inc :: ops)) :
      Step π s (.isr level)
        { s with
          vfbufUse :=
            Function.update s.vfbufUse (π.bufferIndex r) (s.vfbufUse (π.bufferIndex r) + 1)
          isr := .handling r hand ops }
  | display {level : ℤ} {r : Report} {op : IsrOp} {ops : List IsrOp} {vf : Vframe}
      {flags : SkipFlags} (hisr : s.isr = .handling r (some vf) (op :: ops))
      (hop : op = .sort ∨ op = .display) :
      Step π s (.isr level)
        { s with
          flags
          displayQ := push π.vfPoolSize s.displayQ vf
          isr := .handling r none ops }
  | skip {level : ℤ} {r : Report} {op : IsrOp} {ops : List IsrOp} {vf : Vframe}
      {flags : SkipFlags} (hisr : s.isr = .handling r (some vf) (op :: ops))
      (hop : op = .sort ∨ op = .display) :
      Step π s (.isr level)
        { s with
          flags
          recycleQ := push π.vfPoolSize s.recycleQ vf
          isr := .handling r none ops }
  | giveBack {level : ℤ} {r : Report} {hand : Option Vframe} {ops : List IsrOp}
      (hisr : s.isr = .handling r hand (.giveBack :: ops)) :
      Step π s (.isr level)
        { s with bufferIn := π.bufferIn (π.bufferIndex r), isr := .handling r hand ops }
  | clear {level : ℤ} {r : Report} {hand : Option Vframe} {ops : List IsrOp}
      (hisr : s.isr = .handling r hand (.clear :: ops)) :
      Step π s (.isr level) { s with bufferOut := none, isr := .idle }
  | get {vf : Vframe} {q : List Vframe} (hq : s.displayQ = vf :: q) :
      Step π s .get { s with displayQ := q, held := vf :: s.held }
  | putBack {vf : Vframe} (hheld : vf ∈ s.held) (hkeeps : s.keeps π vf = true) :
      Step π s (.putBack vf)
        { s with
          held := s.held.erase vf
          recycleQ := push π.vfPoolSize s.recycleQ vf }
  | putBackOld {vf : Vframe} (hheld : vf ∈ s.held) (hkeeps : s.keeps π vf = false) :
      Step π s (.putBack vf) { s with held := s.held.erase vf }
  | timerGet {vf : Vframe} {q : List Vframe} (htimer : s.timer = .idle)
      (hq : s.recycleQ = vf :: q) (hin : s.bufferIn = 0) :
      Step π s .timerGet { s with recycleQ := q, timer := .got vf }
  | last {vf : Vframe} (htimer : s.timer = .got vf) (hi : s.index vf < π.bufferNum)
      (hlast : s.vfbufUse (s.index vf) - 1 = 0) :
      Step π s .timer
        { s with vfbufUse := Function.update s.vfbufUse (s.index vf) 0, timer := .give vf }
  | more {vf : Vframe} (htimer : s.timer = .got vf) (hi : s.index vf < π.bufferNum)
      (hmore : s.vfbufUse (s.index vf) - 1 ≠ 0) :
      Step π s .timer
        { s with
          vfbufUse := Function.update s.vfbufUse (s.index vf) (s.vfbufUse (s.index vf) - 1)
          timer := .put vf }
  | unused {vf : Vframe} (htimer : s.timer = .got vf) (hi : ¬ s.index vf < π.bufferNum) :
      Step π s .timer { s with timer := .put vf }
  | give {vf : Vframe} (htimer : s.timer = .give vf) :
      Step π s .timer
        { s with
          bufferIn := π.bufferIn (s.index vf)
          index := Function.update s.index vf π.bufferNum
          timer := .put vf }
  | timerPut {vf : Vframe} (htimer : s.timer = .put vf) (hkeeps : s.keeps π vf = true) :
      Step π s .timer { s with newframeQ := push π.vfPoolSize s.newframeQ vf, timer := .idle }
  | timerPutOld {vf : Vframe} (htimer : s.timer = .put vf) (hkeeps : s.keeps π vf = false) :
      Step π s .timer { s with timer := .idle }
  | reset {force : Bool} : Step π s (.reset force) (s.reset π force)

theorem isrStep_sound {level : ℤ} (h : s.isrStep π level = some s') :
    Step π s (.isr level) s' := by
  rw [isrStep] at h
  cases hisr : s.isr with
  | idle => simp [hisr] at h
  | handling r hand ops =>
    cases ops with
    | nil => simp [hisr] at h
    | cons op ops =>
      cases op with
      | get =>
        cases hq : s.newframeQ with
        | nil =>
          obtain rfl : _ = s' := by simpa [hisr, hq] using h
          simpa [hq] using (Step.fatal hisr hq : Step π s (.isr level) _)
        | cons vf q =>
          obtain rfl : _ = s' := by simpa [hisr, hq] using h
          exact .isrGet hisr hq
      | set n =>
        obtain rfl : _ = s' := by simpa [hisr] using h
        exact .set hisr
      | inc =>
        obtain rfl : _ = s' := by simpa [hisr] using h
        exact .inc hisr
      | sort =>
        cases hand with
        | none => simp [hisr] at h
        | some vf =>
          obtain rfl : _ = s' := by simpa [hisr] using h
          simp only [sort]
          split_ifs
          · exact .skip hisr (.inl rfl)
          · exact .display hisr (.inl rfl)
      | display =>
        cases hand with
        | none => simp [hisr] at h
        | some vf =>
          obtain rfl : _ = s' := by simpa [hisr] using h
          exact .display hisr (.inr rfl)
      | giveBack =>
        obtain rfl : _ = s' := by simpa [hisr] using h
        exact .giveBack hisr
      | clear =>
        obtain rfl : _ = s' := by simpa [hisr] using h
        exact .clear hisr

theorem timerStep_sound (h : s.timerStep π = some s') : Step π s .timer s' := by
  rw [timerStep] at h
  cases htimer : s.timer with
  | idle => simp [htimer] at h
  | got vf =>
    by_cases hi : s.index vf < π.bufferNum
    · by_cases hlast : s.vfbufUse (s.index vf) - 1 = 0
      · obtain rfl : _ = s' := by simpa [htimer, hi, hlast] using h
        exact .last htimer hi hlast
      · obtain rfl : _ = s' := by simpa [htimer, hi, hlast] using h
        exact .more htimer hi hlast
    · obtain rfl : _ = s' := by simpa [htimer, hi] using h
      exact .unused htimer hi
  | give vf =>
    obtain rfl : _ = s' := by simpa [htimer] using h
    exact .give htimer
  | put vf =>
    by_cases hkeeps : s.keeps π vf = true
    · obtain rfl : _ = s' := by simpa [htimer, hkeeps] using h
      exact .timerPut htimer hkeeps
    · rw [Bool.not_eq_true] at hkeeps
      obtain rfl : _ = s' := by simpa [htimer, hkeeps] using h
      exact .timerPutOld htimer hkeeps

theorem step_sound {a : Action} (h : step π s a = some s') : Step π s a s' := by
  cases a with
  | report r =>
    simp only [step, Option.ite_none_right_eq_some, Option.some.injEq] at h
    obtain ⟨⟨hout, -, hucode⟩, rfl⟩ := h
    exact .report hout hucode
  | take i =>
    simp only [step, Option.ite_none_right_eq_some, Option.some.injEq] at h
    obtain ⟨⟨hi, hin⟩, rfl⟩ := h
    exact .take hi hin
  | irq =>
    rw [step] at h
    cases hisr : s.isr with
    | handling => simp [hisr] at h
    | idle =>
      cases hout : s.bufferOut with
      | none => simp [hisr, hout] at h
      | some r =>
        obtain rfl : _ = s' := by simpa [hisr, hout] using h
        simpa [hout] using (Step.irq hisr hout : Step π s .irq _)
  | isr level => exact isrStep_sound h
  | get =>
    rw [step] at h
    cases hq : s.displayQ with
    | nil => simp [hq] at h
    | cons vf q =>
      obtain rfl : _ = s' := by simpa [hq] using h
      exact .get hq
  | putBack vf =>
    simp only [step, Option.ite_none_right_eq_some, Option.some.injEq] at h
    obtain ⟨hheld, rfl⟩ := h
    cases hkeeps : s.keeps π vf with
    | true => simpa using Step.putBack hheld hkeeps
    | false => simpa using Step.putBackOld hheld hkeeps
  | timerGet =>
    rw [step] at h
    cases htimer : s.timer with
    | idle =>
      cases hq : s.recycleQ with
      | nil => simp [htimer, hq] at h
      | cons vf q =>
        simp only [htimer, hq, Option.ite_none_right_eq_some, Option.some.injEq] at h
        obtain ⟨hin, rfl⟩ := h
        exact .timerGet htimer hq hin
    | _ => simp [htimer] at h
  | timer => exact timerStep_sound h
  | reset force =>
    obtain rfl := Option.some.inj h
    exact .reset

end FramePool

end Media
