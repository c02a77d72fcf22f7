import Akbuilder.Media.Session

/-!
# The decoders

The frame duration of each decoder, as its source computes it, and its driver: the
multi-instance H.264, H.265 and MPEG-1/2 decoders, which hint through `vdec->fr_hint_state`, and
the single-instance ones, which hint through their static `fr_hint_status`.

## Main definitions

* `H264Multi.vuiConfig`, `H265.sliceHeader`, `Mpeg12.setFrameInfo`, `H264.setParams`,
  `Mpeg4.isr`, `Avs.setFrameInfo`: the code that determines the duration
* `H264Multi.driver`, `H265.multiDriver`, `H265.singleDriver`, `Mpeg12.multiDriver`,
  `Mpeg12.singleDriver`, `H264.driver`, `Mpeg4.driver`, `Avs.driver`: the drivers
-/

namespace Media

/-- `(u32)div_u64(96000ULL * fields * num_units_in_tick, time_scale)`. -/
def timingDuration (fields : UInt64) (numUnitsInTick timeScale : UInt32) : Duration :=
  (96000 * fields * numUnitsInTick.toUInt64 / timeScale.toUInt64).toUInt32

/-- `frame_rate_tab`, by the frame rate code of the sequence header. -/
def frameRateTab : List Duration :=
  [96000 / 30, 96000000 / 23976, 96000 / 24, 96000 / 25, 9600000 / 2997, 96000 / 30, 96000 / 50,
    9600000 / 5994, 96000 / 60,
    -- reserved
    96000 / 24, 96000 / 24, 96000 / 24, 96000 / 24, 96000 / 24, 96000 / 24, 96000 / 24]

/-- The entry of `frame_rate_tab` at the low four bits of a register. -/
def frameRate (code : UInt32) : Duration := frameRateTab.getD (code &&& 0xf).toNat 0

/-! ## Multi-instance H.264 -/

namespace H264Multi

structure Config where
  rate : Duration
  syncOutside : Bool
  useIdrFramerate : Bool

structure Vars where
  config : Config
  frameDur : Duration
  durationFromPtsDone : Bool

/-- The VUI fields of one sequence parameter set. -/
structure Vui where
  vuiStatus : UInt32
  fixedFrameRateFlag : UInt32
  numUnitsInTick : UInt32
  timeScale : UInt32

/-- `vh264_local_init`. A rate of more than 960 fps is replaced by 30 fps. -/
def localInit (c : Config) : Vars :=
  { config := c
    frameDur := if c.rate < 96000 / 960 then 96000 / 30 else c.rate
    durationFromPtsDone := false }

/-- The timing part of `vui_config`. -/
def vuiConfig (v : Vars) (x : Vui) : Vars × Bool :=
  if x.vuiStatus &&& 2 ≠ 0 ∧
      ((x.numUnitsInTick * 120 ≥ x.timeScale ∧ (v.config.syncOutside = false ∨ v.frameDur = 0)) ∧
        x.numUnitsInTick ≠ 0 ∧ x.timeScale ≠ 0) ∧
      (v.config.useIdrFramerate = true ∨ x.fixedFrameRateFlag ≠ 0 ∨ v.frameDur = 0 ∨
        v.durationFromPtsDone = false) then
    let frameDurEs := timingDuration 2 x.numUnitsInTick x.timeScale
    if v.frameDur ≠ frameDurEs then
      ({ v with frameDur := frameDurEs, durationFromPtsDone := false }, true)
    else (v, false)
  else (v, false)

/-- The probe passes its `frame_dur` to `vdec_init` as the `sys_info` rate. The notify work
marks the request before it reads `frame_dur`. -/
def driver : Driver where
  Vars := Vars
  Input := Vui
  Drift := Empty
  Config := Config
  init := localInit
  initDur := Vars.frameDur
  update v x := some (vuiConfig v x)
  drift _ y := nomatch y
  readDur := Vars.frameDur
  curDur v := some v.frameDur
  schedules _ := true
  afterSchedule := id
  reset := some fun v => localInit v.config
  resetCancels := true
  inWork := false
  own := .frHintState
  request := .frHintState
  tests := [.frHintState]
  order := .markFirst
  remove := [.disconnect, .endHint, .disown, .syncIrq, .delTimer, .stop, .cancelNotify, .syncIrq]

end H264Multi

/-! ## H.265 -/

namespace H265

structure Vars where
  /-- the `sys_info` rate -/
  rate : Duration
  frameDur : Duration
  getFrameDur : Bool

/-- The `sys_info` rate of a multi-instance session, and whether the probe takes its parameters from
`pdata->config`. -/
structure MultiConfig where
  rate : Duration
  fromConfig : Bool

/-- The VUI timing of one slice header. -/
structure Vui where
  numUnitsInTick : UInt32
  timeScale : UInt32

/-- `vh265_local_init`, for the rate in `vh265_amstream_dec_info`. `amvdec_h265_probe` copies
`sys_info` there. -/
def localInit (rate : Duration) : Vars :=
  let frameDur := if rate = 0 then 3600 else rate
  { rate
    frameDur := if frameDur = 0 then 96000 / 24 else frameDur
    getFrameDur := false }

/-- `ammvdec_h265_probe` does not copy `sys_info`: `vh265_amstream_dec_info` is cleared, and gets
a rate of 30 unless the parameters come from `pdata->config`. -/
def multiInit (c : MultiConfig) : Vars :=
  { localInit (if c.fromConfig then 0 else 30) with rate := c.rate }

/-- The slice-header branch of `vh265_isr_thread_fn`: any timing is a request, changed or not. -/
def sliceHeader (v : Vars) (x : Vui) : Vars × Bool :=
  if x.timeScale ≠ 0 ∧ x.numUnitsInTick ≠ 0 then
    ({ v with frameDur := timingDuration 1 x.numUnitsInTick x.timeScale }, true)
  else (v, false)

/-- What the two modes share. A request schedules the notify work only while `get_frame_dur` is
not set, which the first request does. -/
def driver {Config : Type} (init : Config → Vars) (initDur : Vars → Duration) (own : HintVar)
    (remove : List RemoveStep) : Driver where
  Vars := Vars
  Input := Vui
  Drift := Empty
  Config := Config
  init := init
  initDur := initDur
  update v x := some (sliceHeader v x)
  drift _ y := nomatch y
  readDur := Vars.frameDur
  curDur v := some v.frameDur
  schedules v := !v.getFrameDur
  afterSchedule v := { v with getFrameDur := true }
  reset := none
  resetCancels := false
  inWork := false
  own := own
  request := .frHintState
  tests := [.frHintState, .frHintStatus]
  order := .deliverFirst
  remove := remove

/-- `vh265_init` hints `frame_dur`, and both it and `vh265_stop` use `fr_hint_status`, while the
slice header writes `vdec->fr_hint_state`. -/
def singleDriver : Driver :=
  driver localInit Vars.frameDur .frHintStatus
    [.stop, .freeIrq true, .delTimer, .endHint, .cancelNotify]

/-- `vdec_init` hints the `sys_info` rate, whatever `frame_dur` is. The end of the hints is left to
`vdec_release`: `vmh265_stop` tests `fr_hint_status` too, but only for a registered provider of its
own, and a multi-instance session has none. -/
def multiDriver : Driver :=
  driver multiInit Vars.rate .frHintState
    [.disconnect, .endHint, .disown, .syncIrq, .delTimer, .stop, .syncIrq, .cancelNotify]

end H265

/-! ## MPEG-1/2 -/

namespace Mpeg12

structure Vars where
  rate : Duration
  frameDur : Duration

/-- `vmpeg12_local_init`. -/
def localInit (rate : Duration) : Vars := { rate, frameDur := 0 }

/-- The duration part of `set_frame_info`: the sequence header counts while no duration is
known. -/
def setFrameInfo (v : Vars) (seqInfo : UInt32) : Vars × Bool :=
  if v.frameDur > 0 then (v, false)
  else ({ v with frameDur := frameRate (seqInfo >>> 4) }, true)

/-- What the two modes share. -/
def driver (own : HintVar) (reset : Option (Vars → Vars)) (remove : List RemoveStep) :
    Driver where
  Vars := Vars
  Input := UInt32
  Drift := Empty
  Config := Duration
  init := localInit
  initDur := Vars.rate
  update v x := some (setFrameInfo v x)
  drift _ y := nomatch y
  readDur := Vars.frameDur
  curDur v := some v.frameDur
  schedules _ := true
  afterSchedule := id
  reset := reset
  resetCancels := false
  inWork := false
  own := own
  request := own
  tests := [own]
  order := .deliverFirst
  remove := remove

/-- The single-instance decoder re-initialises after a fatal error and on a receiver reset. -/
def singleDriver : Driver :=
  driver .frHintStatus (some fun v => localInit v.rate)
    [.cancelNotify, .stop, .freeIrq true, .delTimer, .endHint]

def multiDriver : Driver :=
  driver .frHintState none
    [.disconnect, .endHint, .disown, .syncIrq, .stop, .syncIrq, .delTimer, .cancelNotify]

end Mpeg12

/-! ## Single-instance H.264 -/

namespace H264

structure Config where
  rate : Duration
  syncOutside : Bool
  useIdrFramerate : Bool

structure Vars where
  config : Config
  frameDur : Duration
  durationFromPtsDone : Bool
  vh264Running : Bool

/-- What one run of `vh264_set_params` finds: whether it returns with an error before the timing
part, and the sequence parameters. -/
structure Params where
  fails : Bool
  seqInfo : UInt32
  numUnitsInTick : UInt32
  timeScale : UInt32

/-- What `vh264_isr` stores when it corrects the duration from time stamps. -/
structure Correction where
  frameDur : Duration
  durationFromPtsDone : Bool
  vh264Running : Bool

/-- `vh264_local_init`. -/
def localInit (c : Config) : Vars :=
  { config := c, frameDur := c.rate, durationFromPtsDone := false, vh264Running := false }

/-- The timing part of `vh264_set_params`. A duration that is half the one of the stream is
kept. -/
def setParams (v : Vars) (x : Params) : Vars × Bool :=
  if x.fails = false ∧ x.seqInfo &&& 2 ≠ 0 ∧
      ((x.numUnitsInTick * 120 ≥ x.timeScale ∧ (v.config.syncOutside = false ∨ v.frameDur = 0)) ∧
        x.numUnitsInTick ≠ 0 ∧ x.timeScale ≠ 0) ∧
      (v.config.useIdrFramerate = true ∨ v.frameDur = 0 ∨ v.durationFromPtsDone = false ∨
        v.vh264Running = true) then
    let frameDurEs := timingDuration 2 x.numUnitsInTick x.timeScale
    if v.frameDur * 2 ≠ frameDurEs then ({ v with frameDur := frameDurEs }, true)
    else (v, false)
  else (v, false)

/-- `vh264_set_params` runs in a work that the interrupt handler queues. -/
def driver : Driver where
  Vars := Vars
  Input := Params
  Drift := Correction
  Config := Config
  init := localInit
  initDur := Vars.frameDur
  update v x := some (setParams v x)
  drift v y :=
    { v with
      frameDur := y.frameDur
      durationFromPtsDone := y.durationFromPtsDone
      vh264Running := y.vh264Running }
  readDur := Vars.frameDur
  curDur v := some v.frameDur
  schedules _ := true
  afterSchedule := id
  reset := some fun v => localInit v.config
  resetCancels := false
  inWork := true
  own := .frHintStatus
  request := .frHintStatus
  tests := [.frHintStatus]
  order := .deliverFirst
  remove :=
    [.deactivate, .cancelParams, .cancelNotify, .stop, .freeIrq false, .delTimer, .endHint]

end H264

/-! ## MPEG-4 -/

namespace Mpeg4

/-- `RATE_DETECT_COUNT`. -/
def rateDetectCount : UInt32 := 5

/-- `DURATION_UNIT`. -/
def durationUnit : UInt32 := 96000

/-- What `sys_info` says. -/
structure SysInfo where
  rate : Duration
  width : UInt32
  height : UInt32
  ratio : UInt32
  ratio64 : UInt64

/-- `sys_info`, and `rate_detect` as the session before left it. -/
structure Config where
  sysInfo : SysInfo
  rateDetect : UInt32

/-- The static variables, with the fields of `vmpeg4_amstream_dec_info` that the handler uses. -/
structure Vars where
  rate : Duration
  lastVopTimeInc : UInt32
  lastDuration : UInt32
  rateDetect : UInt32
  width : UInt32
  height : UInt32
  vmpeg4Ratio : UInt32
  vmpeg4Ratio64 : UInt64
  /-- the `duration` of the last frame -/
  duration : Option Duration

/-- What the handler finds when a picture is reported: `MP4_RATE`, `MP4_VOP_TIME_INC`, `MP4_PIC_WH`,
`MP4_PIC_RATIO`, the `INTERLACE_FLAG` of `MREG_BUFFEROUT`, and how many frames `newframe_q`
gives. -/
structure Frame where
  rate : UInt32
  vopTimeInc : UInt32
  picWH : UInt32
  picRatio : UInt32
  interlace : Bool
  free : ℕ

def init (c : Config) : Vars :=
  { rate := c.sysInfo.rate, lastVopTimeInc := 0, lastDuration := 0, rateDetect := c.rateDetect,
    width := c.sysInfo.width, height := c.sysInfo.height, vmpeg4Ratio := c.sysInfo.ratio,
    vmpeg4Ratio64 := c.sysInfo.ratio64, duration := none }

/-- `vmpeg4_local_init`, after which `sys_info` is still the one of init. -/
def localInit (v : Vars) : Vars := { v with lastVopTimeInc := 0, lastDuration := 0 }

/-- A size that `sys_info` does not say is the one in the register. -/
def setSize (v : Vars) (picWH : UInt32) : Vars :=
  { v with
    width := if v.width = 0 then picWH >>> 16 else v.width
    height := if v.height = 0 then picWH &&& 0xffff else v.height }

/-- `aspect_ratio_table`, by the factors of width and height that `set_aspect_ratio` has for an
entry. -/
def aspectRatioTable : List (UInt32 × UInt32) :=
  -- `PARC_FORBIDDEN`, `PARC_SQUARE`, `PARC_CIF`, `PARC_10_11`, `PARC_16_11`, `PARC_40_33`
  [(1, 1), (1, 1), (12, 11), (10, 11), (16, 11), (40, 33),
    -- `PARC_RESERVED`, `PARC_EXTENDED`
    (1, 1), (1, 1), (1, 1), (1, 1), (1, 1), (1, 1), (1, 1), (1, 1), (1, 1), (1, 1)]

/-- The numerator and the denominator of the ratio of `sys_info`. -/
def sysRatio (v : Vars) : UInt32 × UInt32 :=
  let r :=
    if v.vmpeg4Ratio64 ≠ 0 then ((v.vmpeg4Ratio64 >>> 32).toUInt32, v.vmpeg4Ratio64.toUInt32)
    else (v.vmpeg4Ratio >>> 16, v.vmpeg4Ratio &&& 0xffff)
  if r.1 = 0 ∨ r.2 = 0 then (1, 1) else r

/-- `ar` as `set_aspect_ratio` computes it for a frame of the size in `v`, if it does not divide by
zero. A pixel ratio above `0x0f` is itself the two factors. -/
def setAspectRatio (v : Vars) (pixelRatio : UInt32) : Option UInt32 :=
  let r := sysRatio v
  if v.vmpeg4Ratio = 0 then some 0
  else if pixelRatio > 0x0f then
    let num : UInt32 := (pixelRatio >>> 8) * v.width * r.1
    let height : UInt32 := (pixelRatio &&& 0xff) * v.height * r.2
    if num = 0 then none
    else some ((height.toUInt64 * (0x100 : UInt64) + (num >>> 1).toUInt64) / num.toUInt64).toUInt32
  else
    let f := aspectRatioTable.getD pixelRatio.toNat (1, 1)
    let num : UInt32 := v.width * f.1 * r.1
    if num = 0 then none
    else some ((v.height * r.2 * (0x100 : UInt32) * f.2 + (num >>> 1)) / num)

/-- The time between two frames, as `vmpeg4_isr` measures it. -/
def vopDuration (v : Vars) (x : Frame) : Duration :=
  if x.vopTimeInc < v.lastVopTimeInc then x.vopTimeInc + x.rate - v.lastVopTimeInc
  else x.vopTimeInc - v.lastVopTimeInc

/-- The rate branches of `vmpeg4_isr`: the new variables with the duration of the frame, and
whether a hint is requested. The division is by the register, which the detection branch does
not test. -/
def determineRate (v : Vars) (x : Frame) : Option (Vars × Bool) :=
  if v.rate = 0 ∨ v.rate > 96000 then
    -- a fixed rate in the stream
    if x.rate &&& 0xffff ≠ 0 ∧ x.rate >>> 16 ≠ 0 then
      let rate := (x.rate >>> 16) * durationUnit / (x.rate &&& 0xffff)
      some ({ v with rate, duration := some rate }, true)
    -- no fixed rate, and not enough frames measured yet
    else if v.rateDetect < rateDetectCount then
      let duration := vopDuration v x
      if duration = v.lastDuration then
        if v.rateDetect + 1 ≥ rateDetectCount then
          -- the rate is stored, and no hint requested
          if x.rate = 0 then none
          else
            let rate := duration * durationUnit / x.rate
            some ({ v with rate, rateDetect := v.rateDetect + 1, lastDuration := rate,
                           duration := some rate }, false)
        else
          some ({ v with rateDetect := v.rateDetect + 1, lastDuration := duration,
                         duration := some duration }, false)
      else
        some ({ v with rateDetect := 0, lastDuration := duration, duration := some duration },
          false)
    else some ({ v with duration := some 3200 }, false)
  else some ({ v with duration := some v.rate }, false)

/-- `vmpeg4_isr`, with its time stamps left out: they divide by `MP4_RATE` where it is not zero.
The handler gives up where `newframe_q` has no frame. -/
def isr (v : Vars) (x : Frame) : Option (Vars × Bool) := do
  let (v, request) ← determineRate (setSize v x.picWH) x
  if x.free = 0 then return (v, request)
  let _ ← setAspectRatio v x.picRatio
  if x.interlace then
    if x.free = 1 then return (v, request)
    -- the second field
    let _ ← setAspectRatio v x.picRatio
  return ({ v with lastVopTimeInc := x.vopTimeInc }, request)

def driver : Driver where
  Vars := Vars
  Input := Frame
  Drift := Empty
  Config := Config
  init := init
  initDur := Vars.rate
  update := isr
  drift _ y := nomatch y
  readDur := Vars.rate
  curDur := Vars.duration
  schedules _ := true
  afterSchedule := id
  reset := some localInit
  resetCancels := false
  inWork := false
  own := .frHintStatus
  request := .frHintStatus
  tests := [.frHintStatus]
  order := .deliverFirst
  remove := [.stop, .freeIrq true, .delTimer, .endHint, .cancelNotify]

end Mpeg4

/-! ## AVS -/

namespace Avs

structure Vars where
  rate : Duration
  frameDur : Duration

/-- `vavs_local_init`. -/
def localInit (rate : Duration) : Vars := { rate, frameDur := 0 }

/-- The duration part of `set_frame_info`. With `USE_AVS_SEQ_INFO` every frame is a request,
whatever the `sys_info` rate is. -/
def setFrameInfo (v : Vars) (avsFrameRate : UInt32) : Vars × Bool :=
  ({ v with frameDur := frameRate avsFrameRate }, true)

def driver : Driver where
  Vars := Vars
  Input := UInt32
  Drift := Empty
  Config := Duration
  init := localInit
  initDur := Vars.rate
  update v x := some (setFrameInfo v x)
  drift _ y := nomatch y
  readDur := Vars.frameDur
  curDur v := some v.frameDur
  schedules _ := true
  afterSchedule := id
  reset := some fun v => localInit v.rate
  resetCancels := false
  inWork := false
  own := .frHintStatus
  request := .frHintStatus
  tests := [.frHintStatus]
  order := .deliverFirst
  remove := [.cancelNotify, .stop, .freeIrq true, .delTimer, .endHint]

end Avs

end Media
