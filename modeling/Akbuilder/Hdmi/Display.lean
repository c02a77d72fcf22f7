import Akbuilder.Lib.BitField

/-!
# Setting the HDMI display

`hdmitx_set_display` looks up the parameters of a video code, chooses the colour space and the
colour depth from the EDID of the sink and the forced settings, and programs the transmitter. Three
writers program the AVI infoframe: the mode set, the packet for a forced RGB range, and the switch
to a DVI sink.

## Main definitions

* `Platform`: what the driver takes from headers and files of the kernel
* `Device`: the state of the driver, and the registers of the AVI infoframe
* `setDisplay`: `hdmitx_set_display`

## Main results

* `setDisplay_of_unsupported`, `setDisplay_of_supported`: what it leaves and returns
* `modeAvi_eq`: the fields of the AVI infoframe after a mode set
-/

open BitField

namespace Hdmi

inductive ColorSpace
  | RGB444
  | YUV422
  | YUV444
  | YUV420
  | RESERVED
  deriving DecidableEq, Repr

namespace ColorSpace

/-- The value of `enum hdmi_color_space`. -/
def toNat : ColorSpace → Nat
  | RGB444 => 0
  | YUV422 => 1
  | YUV444 => 2
  | YUV420 => 3
  | RESERVED => 4

/-- The indicator of the AVI infoframe. -/
def indicator : ColorSpace → Nat
  | RGB444 => 0x0
  | YUV422 => 0x1
  | YUV420 => 0x3
  | YUV444 | RESERVED => 0x2

end ColorSpace

/-- Bits per pixel, of `enum hdmi_color_depth`. -/
inductive ColorDepth
  | b24
  | b30
  | b36
  | b48
  deriving DecidableEq, Repr

def RGB_RANGE_LIM : Nat := 1
def RGB_RANGE_FUL : Nat := 2
def RGB_RANGE_RSVD : Nat := 3
def RGB_RANGE_AUTO : Nat := 4

def YCC_RANGE_LIM : Nat := 0
def YCC_RANGE_FUL : Nat := 1
def YCC_RANGE_RSVD : Nat := 2

/-- The names of `enum hdmi_vic` that the driver uses here. -/
inductive Vic
  | HDMI_Unkown
  | HDMI_640x480p60
  | HDMI_480p60
  | HDMI_480p60_16x9
  | HDMI_480p60_16x9_rpt
  | HDMI_720p60
  | HDMI_1080i60
  | HDMI_480i60
  | HDMI_480i60_16x9
  | HDMI_480i60_16x9_rpt
  | HDMI_1440x480p60
  | HDMI_1080p60
  | HDMI_576p50
  | HDMI_576p50_16x9
  | HDMI_576p50_16x9_rpt
  | HDMI_720p50
  | HDMI_1080i50
  | HDMI_576i50
  | HDMI_576i50_16x9
  | HDMI_576i50_16x9_rpt
  | HDMI_1080p50
  | HDMI_1080p24
  | HDMI_1080p25
  | HDMI_1080p30
  | HDMI_4k2k_30
  | HDMI_4k2k_25
  | HDMI_4k2k_24
  | HDMI_4k2k_smpte_24
  | HDMI_4096x2160p25_256x135
  | HDMI_4096x2160p30_256x135
  | HDMI_4096x2160p50_256x135
  | HDMI_4096x2160p60_256x135
  | HDMI_4k2k_60
  | HDMI_4k2k_50
  | HDMI_4k2k_60_y420
  | HDMI_4k2k_50_y420
  | HDMI_4k2k_smpte_60_y420
  | HDMI_4k2k_smpte_50_y420
  | HDMI_3840x2160p50_16x9_Y420
  | HDMI_3840x2160p60_16x9_Y420
  | HDMI_4096x2160p50_256x135_Y420
  | HDMI_4096x2160p60_256x135_Y420
  deriving DecidableEq, Repr

/-- `struct hdmitx_vidpara`. -/
structure VidPara where
  VIC : Vic
  colorPrefer : ColorSpace
  colorDepth : ColorDepth
  color : ColorSpace
  deriving DecidableEq, Repr

/-- `hdmi_tx_video_params`. The colour is set in `setDisplay`. -/
def videoParams : List VidPara :=
  ([.HDMI_640x480p60, .HDMI_480p60, .HDMI_480p60_16x9, .HDMI_480p60_16x9_rpt, .HDMI_720p60,
    .HDMI_1080i60, .HDMI_480i60, .HDMI_480i60_16x9, .HDMI_480i60_16x9_rpt, .HDMI_1440x480p60,
    .HDMI_1080p60, .HDMI_576p50, .HDMI_576p50_16x9, .HDMI_576p50_16x9_rpt, .HDMI_720p50,
    .HDMI_1080i50, .HDMI_576i50, .HDMI_576i50_16x9, .HDMI_576i50_16x9_rpt, .HDMI_1080p50,
    .HDMI_1080p24, .HDMI_1080p25, .HDMI_1080p30, .HDMI_4k2k_30, .HDMI_4k2k_25, .HDMI_4k2k_24,
    .HDMI_4k2k_smpte_24, .HDMI_4096x2160p25_256x135, .HDMI_4096x2160p30_256x135,
    .HDMI_4096x2160p50_256x135, .HDMI_4096x2160p60_256x135, .HDMI_4k2k_60, .HDMI_4k2k_50,
    .HDMI_4k2k_60, .HDMI_4k2k_50, .HDMI_4k2k_60, .HDMI_4k2k_50].map
      fun vic => ⟨vic, .RGB444, .b24, .RGB444⟩) ++
  [.HDMI_4k2k_60_y420, .HDMI_4k2k_50_y420, .HDMI_4k2k_smpte_60_y420, .HDMI_4k2k_smpte_50_y420].map
    fun vic => ⟨vic, .YUV420, .b24, .RGB444⟩

/-! ## The driver -/

/-- What the driver takes from the kernel: the values of `enum hdmi_vic`, `hdmi_get_fmt_paras`, the
type of the CPU, and the store in a field of a register. -/
structure Platform where
  code : Vic → Nat
  /-- `hdmi_get_fmt_paras` knows the code -/
  fmtParas : Nat → Bool
  /-- the CPU is a GXL or later -/
  gxl : Bool
  COLORRANGE_FUL : Nat
  /-- `hdmitx_set_reg_bits` -/
  reg : Setter

/-- The codes of the CEA standard; those of the 4:2:0 modes have a bit of their own. -/
def ceaCode : Vic → Nat
  | .HDMI_Unkown => 0
  | .HDMI_640x480p60 => 1
  | .HDMI_480p60 => 2
  | .HDMI_480p60_16x9 => 3
  | .HDMI_480p60_16x9_rpt => 36
  | .HDMI_720p60 => 4
  | .HDMI_1080i60 => 5
  | .HDMI_480i60 => 6
  | .HDMI_480i60_16x9 => 7
  | .HDMI_480i60_16x9_rpt => 11
  | .HDMI_1440x480p60 => 14
  | .HDMI_1080p60 => 16
  | .HDMI_576p50 => 17
  | .HDMI_576p50_16x9 => 18
  | .HDMI_576p50_16x9_rpt => 38
  | .HDMI_720p50 => 19
  | .HDMI_1080i50 => 20
  | .HDMI_576i50 => 21
  | .HDMI_576i50_16x9 => 22
  | .HDMI_576i50_16x9_rpt => 26
  | .HDMI_1080p50 => 31
  | .HDMI_1080p24 => 32
  | .HDMI_1080p25 => 33
  | .HDMI_1080p30 => 34
  | .HDMI_4k2k_30 => 95
  | .HDMI_4k2k_25 => 94
  | .HDMI_4k2k_24 => 93
  | .HDMI_4k2k_smpte_24 => 98
  | .HDMI_4096x2160p25_256x135 => 99
  | .HDMI_4096x2160p30_256x135 => 100
  | .HDMI_4096x2160p50_256x135 => 101
  | .HDMI_4096x2160p60_256x135 => 102
  | .HDMI_4k2k_60 => 97
  | .HDMI_4k2k_50 => 96
  | .HDMI_4k2k_60_y420 | .HDMI_3840x2160p60_16x9_Y420 => 0x100 + 97
  | .HDMI_4k2k_50_y420 | .HDMI_3840x2160p50_16x9_Y420 => 0x100 + 96
  | .HDMI_4k2k_smpte_60_y420 | .HDMI_4096x2160p60_256x135_Y420 => 0x100 + 102
  | .HDMI_4k2k_smpte_50_y420 | .HDMI_4096x2160p50_256x135_Y420 => 0x100 + 101

/-- A GXL box. -/
def gxlPlatform : Platform := ⟨ceaCode, fun _ => true, true, 1, .masked⟩

/-- The EDID of the sink: its formats, whether it is HDMI, and `hdmitx_edid_VIC_support`. -/
structure RxCap where
  nativeMode : UInt32
  IEEEOUI : UInt32
  vicSupport : Nat → Bool

/-- An HDMI sink that supports every code. -/
def hdmiSink (nativeMode : UInt32) : RxCap := ⟨nativeMode, 0x000c03, fun _ => true⟩

/-- The registers of the AVI infoframe that hold the colour format and the ranges. -/
structure Avi where
  FC_AVICONF0 : Nat
  FC_AVICONF2 : Nat
  FC_AVICONF3 : Nat
  deriving DecidableEq, Repr

/-- The state of the driver. -/
structure Device where
  rxCap : RxCap
  hdrSrcFeature : Bool
  curVIC : Nat
  curVideoParam : Option VidPara
  /-- `para->cs` -/
  cs : ColorSpace
  /-- `para->cd` -/
  cd : ColorDepth
  forceColorSpace : ColorSpace
  forceColorDepth : Nat
  forceRgbRange : Nat
  avi : Avi

/-- A device with the default settings, before its first mode. -/
def Device.boot (rxCap : RxCap) (cs : ColorSpace) (cd : ColorDepth) : Device :=
  ⟨rxCap, false, 0, none, cs, cd, .RESERVED, 0, RGB_RANGE_AUTO, ⟨0, 0, 0⟩⟩

section Driver

variable (P : Platform) (d : Device)

/-- `hdmi_get_video_param`. -/
def getVideoParam (videoCode : Nat) : Option VidPara :=
  videoParams.find? fun e => P.code e.VIC == videoCode

/-- The colour that `hdmitx_set_display` chooses for a sink. -/
def sinkColor (nativeMode : UInt32) (videoCode : Nat) : ColorSpace :=
  let color :=
    if nativeMode &&& 0x30 = 0x20 ∨ nativeMode &&& 0x30 = 0x30 then .YUV444
    else if nativeMode &&& 0x30 = 0x10 then .YUV422
    else .RGB444
  if videoCode = P.code .HDMI_3840x2160p50_16x9_Y420 ∨
      videoCode = P.code .HDMI_3840x2160p60_16x9_Y420 ∨
      videoCode = P.code .HDMI_4096x2160p50_256x135_Y420 ∨
      videoCode = P.code .HDMI_4096x2160p60_256x135_Y420 then .YUV420
  else color

/-- The colour depth that is forced, or that of the video parameters. -/
def outputDepth (forceColorDepth : Nat) (param : ColorDepth) : ColorDepth :=
  if forceColorDepth = 24 then .b24
  else if forceColorDepth = 30 then .b30
  else if forceColorDepth = 36 then .b36
  else if forceColorDepth = 48 then .b48
  else param

/-- The colour space that is forced, or that of the sink. -/
def outputSpace (forceColorSpace color : ColorSpace) : ColorSpace :=
  if forceColorSpace ≠ .RESERVED then forceColorSpace else color

/-- `hdmitx_csc_config`: the indicator of the infoframe. -/
def cscConfig (a : Avi) (outputColorFormat : ColorSpace) : Avi :=
  let r := P.reg.set a.FC_AVICONF0 ((outputColorFormat.indicator &&& 0x4) >>> 2) 7 1
  { a with FC_AVICONF0 := P.reg.set r (outputColorFormat.indicator &&& 0x3) 0 2 }

/-- `hdmitx_set_avi_colorimetry`: every colorimetry clears the same field of `FC_AVICONF2`. -/
def setAviColorimetry (a : Avi) : Avi := { a with FC_AVICONF2 := P.reg.set a.FC_AVICONF2 0 4 3 }

/-- `CONF_AVI_BT2020`. -/
def setAviBt2020 (a : Avi) : Avi := { a with FC_AVICONF2 := P.reg.set a.FC_AVICONF2 6 4 3 }

/-- The AVI infoframe in `config_hdmi20_tx`. -/
def configHdmi20Tx : Avi :=
  let a := cscConfig P d.avi d.cs
  -- the registers are written whole from here on, whatever the last mode left
  let a := { a with FC_AVICONF0 := ((d.cs.toNat >>> 2) &&& 0x1) <<< 7 ||| 1 <<< 6 ||| 0x2 }
  let a := { a with FC_AVICONF0 := P.reg.set a.FC_AVICONF0 d.cs.indicator 0 2, FC_AVICONF2 := 0 }
  let a := setAviColorimetry P a
  let a := if d.hdrSrcFeature then setAviBt2020 P a else a
  { a with FC_AVICONF3 := (if 0 = P.COLORRANGE_FUL then 1 else 0) <<< 2 }

/-- `hdmitx_set_hw`, for the code of the video parameters. -/
def setHw (vic : Nat) : Avi := if P.fmtParas vic then configHdmi20Tx P d else d.avi

/-- The YCC range for a forced RGB range. -/
def yccRange (forceRgbRange : Nat) : Nat :=
  if forceRgbRange = RGB_RANGE_FUL then YCC_RANGE_FUL
  else if forceRgbRange = RGB_RANGE_RSVD then YCC_RANGE_RSVD
  else YCC_RANGE_LIM

/-- `hdmitx_set_vsif_pkt(0, 0)`: the type is not that of Dolby Vision. -/
def setVsifPkt : Avi :=
  if P.gxl then
    -- for AUTO this is another range than a mode set writes
    let range := if d.forceRgbRange ≠ RGB_RANGE_AUTO then d.forceRgbRange else RGB_RANGE_LIM
    { FC_AVICONF0 := P.reg.set (P.reg.set d.avi.FC_AVICONF0 d.cs.toNat 0 2) 0 7 1
      FC_AVICONF2 := P.reg.set d.avi.FC_AVICONF2 range 2 2
      FC_AVICONF3 := P.reg.set d.avi.FC_AVICONF3 (yccRange d.forceRgbRange) 2 2 }
  else d.avi

/-- The change of the AVI packet in `hdmitx_set_dispmode`. -/
def changeAviPacket : Avi :=
  if d.cs = .YUV420 then { d.avi with FC_AVICONF0 := P.reg.set d.avi.FC_AVICONF0 0x3 0 2 }
  else
    let indicator := d.cs.indicator
    { d.avi with FC_AVICONF0 := 0x40 ||| (indicator &&& 0x4) <<< 5 ||| indicator &&& 0x3 }

/-- `hdmitx_set_dispmode`. -/
def setDispmode : Int × Device :=
  match d.curVideoParam with
  | none => (0, d)
  | some param =>
    let vic := P.code param.VIC
    if d.rxCap.vicSupport vic then
      let d := { d with curVIC := vic }
      let d := { d with avi := setHw P d vic }
      let d := { d with avi := changeAviPacket P d }
      let d := { d with
        avi := if d.forceRgbRange ≠ RGB_RANGE_AUTO then setVsifPkt P d else d.avi }
      (0, d)
    else (-1, d)

/-- `is_dvi_device`. -/
def RxCap.IsDvi (rx : RxCap) : Prop := rx.IEEEOUI ≠ 0x000c03

instance (rx : RxCap) : Decidable rx.IsDvi := inferInstanceAs (Decidable (¬ _))

/-- `CONF_HDMI_DVI_MODE`: a DVI sink gets RGB. -/
def hdmiDviConfig : Avi := if d.rxCap.IsDvi then cscConfig P d.avi .RGB444 else d.avi

/-- **`hdmitx_set_display`**, where `vic` is the video code that the transmitter reports. -/
def setDisplay (vic videoCode : Nat) : Int × Device :=
  let d := if vic ≠ P.code .HDMI_Unkown ∧ vic = videoCode then { d with curVIC := vic } else d
  match getVideoParam P videoCode with
  | none => (-1, { d with curVideoParam := none })
  | some param =>
    let param := { param with color := sinkColor P d.rxCap.nativeMode videoCode }
    -- the patch assigns both, also where nothing is forced
    let d := { d with
      curVideoParam := some param
      cd := outputDepth d.forceColorDepth param.colorDepth
      cs := outputSpace d.forceColorSpace param.color }
    let r := setDispmode P d
    if 0 ≤ r.1 then (0, { r.2 with avi := hdmiDviConfig P r.2 }) else (-1, r.2)

end Driver

/-! ## What it leaves -/

variable {P : Platform} {d : Device} {a : Avi} {c : ColorSpace} {vic videoCode : Nat}

namespace Avi

/-- The colour format of the infoframe. -/
def format (a : Avi) : Nat := get a.FC_AVICONF0 0 2

/-- The RGB range of the infoframe. -/
def rgbRange (a : Avi) : Nat := get a.FC_AVICONF2 2 2

/-- The YCC range of the infoframe. -/
def yccRange (a : Avi) : Nat := get a.FC_AVICONF3 2 2

end Avi

@[simp] theorem format_cscConfig : (cscConfig P a c).format = c.indicator := by
  simp only [Avi.format, cscConfig, P.reg.get_set]
  cases c <;> rfl

@[simp] theorem rgbRange_cscConfig : (cscConfig P a c).rgbRange = a.rgbRange := rfl

@[simp] theorem yccRange_cscConfig : (cscConfig P a c).yccRange = a.yccRange := rfl

/-- The colorimetry leaves the RGB range alone. -/
theorem rgbRange_configHdmi20Tx : (configHdmi20Tx P d).rgbRange = 0 := by
  unfold configHdmi20Tx
  split <;> simp [Avi.rgbRange, setAviColorimetry, setAviBt2020, Setter.get_set_of_disjoint] <;> rfl

/-- The YCC range that a mode set leaves. -/
def modeYccRange (P : Platform) : Nat := if 0 = P.COLORRANGE_FUL then 1 else 0

theorem yccRange_configHdmi20Tx : (configHdmi20Tx P d).yccRange = modeYccRange P := by
  unfold configHdmi20Tx modeYccRange
  by_cases hful : 0 = P.COLORRANGE_FUL <;> simp [Avi.yccRange, hful] <;> rfl

theorem format_changeAviPacket : (changeAviPacket P d).format = d.cs.indicator := by
  unfold changeAviPacket
  split
  · next hcs =>
    rw [hcs, Avi.format, P.reg.get_set]
    rfl
  · change get (0x40 ||| (d.cs.indicator &&& 0x4) <<< 5 ||| d.cs.indicator &&& 0x3) 0 2 = _
    cases d.cs <;> decide

@[simp] theorem rgbRange_changeAviPacket : (changeAviPacket P d).rgbRange = d.avi.rgbRange := by
  unfold changeAviPacket
  split <;> rfl

@[simp] theorem yccRange_changeAviPacket : (changeAviPacket P d).yccRange = d.avi.yccRange := by
  unfold changeAviPacket
  split <;> rfl

/-- **The packet for a range** writes all three fields. -/
theorem setVsifPkt_eq (hgxl : P.gxl = true) (hcs : d.cs ≠ .RESERVED) :
    (setVsifPkt P d).format = d.cs.indicator ∧
      (setVsifPkt P d).rgbRange =
        get (if d.forceRgbRange ≠ RGB_RANGE_AUTO then d.forceRgbRange else RGB_RANGE_LIM) 0 2 ∧
      (setVsifPkt P d).yccRange = get (yccRange d.forceRgbRange) 0 2 := by
  simp only [setVsifPkt, hgxl, if_true, Avi.format, Avi.rgbRange, Avi.yccRange, P.reg.get_set,
    and_true]
  rw [P.reg.get_set_of_disjoint (by omega), P.reg.get_set]
  revert hcs
  cases d.cs <;> decide

theorem sinkColor_ne_reserved (P : Platform) (nativeMode : UInt32) (videoCode : Nat) :
    sinkColor P nativeMode videoCode ≠ .RESERVED := by
  unfold sinkColor
  grind

theorem outputSpace_ne_reserved (hc : c ≠ .RESERVED) (force : ColorSpace) :
    outputSpace force c ≠ .RESERVED := by
  unfold outputSpace
  split
  · assumption
  · exact hc

/-- The video parameters are those of the code. -/
theorem code_of_getVideoParam {param : VidPara} (h : getVideoParam P videoCode = some param) :
    param ∈ videoParams ∧ P.code param.VIC = videoCode :=
  ⟨List.mem_of_find?_eq_some h, by simpa using List.find?_some h⟩

/-- The device as `hdmitx_set_display` finds it. -/
def reported (P : Platform) (d : Device) (vic videoCode : Nat) : Device :=
  if vic ≠ P.code .HDMI_Unkown ∧ vic = videoCode then { d with curVIC := vic } else d

/-- The device with the parameters that `hdmitx_set_display` chooses. -/
def choose (P : Platform) (d : Device) (videoCode : Nat) (param : VidPara) : Device :=
  { d with
    curVideoParam := some { param with color := sinkColor P d.rxCap.nativeMode videoCode }
    cd := outputDepth d.forceColorDepth param.colorDepth
    cs := outputSpace d.forceColorSpace (sinkColor P d.rxCap.nativeMode videoCode) }

/-- The AVI infoframe that a mode set leaves, before a switch to DVI. -/
def modeAvi (P : Platform) (d : Device) : Avi :=
  let d := { d with avi := setHw P d d.curVIC }
  let d := { d with avi := changeAviPacket P d }
  if d.forceRgbRange ≠ RGB_RANGE_AUTO then setVsifPkt P d else d.avi

theorem reported_eq (P : Platform) (d : Device) (vic videoCode : Nat) :
    ∃ cur, reported P d vic videoCode = { d with curVIC := cur } := by
  unfold reported
  split
  · exact ⟨vic, rfl⟩
  · exact ⟨d.curVIC, rfl⟩

section SetDisplay

variable {param : VidPara}

theorem setDispmode_of_unsupported (h : d.curVideoParam = some param)
    (hsupport : d.rxCap.vicSupport (P.code param.VIC) = false) : setDispmode P d = (-1, d) := by
  unfold setDispmode
  simp [h, hsupport]

theorem setDispmode_of_supported (h : d.curVideoParam = some param)
    (hsupport : d.rxCap.vicSupport (P.code param.VIC) = true) :
    setDispmode P d = (0, { d with
      curVIC := P.code param.VIC, avi := modeAvi P { d with curVIC := P.code param.VIC } }) := by
  unfold setDispmode
  rw [h]
  exact if_pos hsupport

theorem setDisplay_of_none (h : getVideoParam P videoCode = none) :
    setDisplay P d vic videoCode =
      (-1, { reported P d vic videoCode with curVideoParam := none }) := by
  unfold setDisplay reported
  rw [h]

theorem setDisplay_of_some (h : getVideoParam P videoCode = some param) :
    setDisplay P d vic videoCode =
      let r := setDispmode P (choose P (reported P d vic videoCode) videoCode param)
      if 0 ≤ r.1 then (0, { r.2 with avi := hdmiDviConfig P r.2 }) else (-1, r.2) := by
  unfold setDisplay
  rw [h]
  rfl

/-- **A code that the sink does not support** leaves the choice and no mode. -/
theorem setDisplay_of_unsupported (h : getVideoParam P videoCode = some param)
    (hsupport : d.rxCap.vicSupport videoCode = false) :
    setDisplay P d vic videoCode =
      (-1, choose P (reported P d vic videoCode) videoCode param) := by
  obtain ⟨cur, hcur⟩ := reported_eq P d vic videoCode
  obtain ⟨-, rfl⟩ := code_of_getVideoParam h
  have hset : setDispmode P (choose P { d with curVIC := cur } (P.code param.VIC) param) =
      (-1, choose P { d with curVIC := cur } (P.code param.VIC) param) :=
    setDispmode_of_unsupported rfl hsupport
  rw [setDisplay_of_some h, hcur, hset]
  rfl

/-- **A code that the sink supports** leaves the choice and its mode. -/
theorem setDisplay_of_supported (vic : Nat) (h : getVideoParam P videoCode = some param)
    (hsupport : d.rxCap.vicSupport videoCode = true) :
    ∃ d', d' = { choose P d videoCode param with curVIC := videoCode } ∧
      setDisplay P d vic videoCode =
        (0, { d' with avi := hdmiDviConfig P { d' with avi := modeAvi P d' } }) := by
  obtain ⟨cur, hcur⟩ := reported_eq P d vic videoCode
  obtain ⟨-, rfl⟩ := code_of_getVideoParam h
  have hset := setDispmode_of_supported
    (d := choose P { d with curVIC := cur } (P.code param.VIC) param) rfl hsupport
  refine ⟨_, rfl, ?_⟩
  rw [setDisplay_of_some h, hcur, hset]
  rfl

/-- A display is set for the codes in the table that the sink supports. -/
theorem setDisplay_nonneg :
    0 ≤ (setDisplay P d vic videoCode).1 ↔
      (getVideoParam P videoCode).isSome = true ∧ d.rxCap.vicSupport videoCode = true := by
  cases h : getVideoParam P videoCode with
  | none => simp [setDisplay_of_none h]
  | some param =>
    cases hsupport : d.rxCap.vicSupport videoCode with
    | false => simp [setDisplay_of_unsupported h hsupport]
    | true =>
      obtain ⟨d', -, he⟩ := setDisplay_of_supported vic h hsupport
      simp [he]

end SetDisplay

/-- **A mode set** writes the colour format, and leaves ranges that a forced one replaces. -/
theorem modeAvi_eq (hfmt : P.fmtParas d.curVIC = true) (hgxl : P.gxl = true)
    (hcs : d.cs ≠ .RESERVED) :
    (modeAvi P d).format = d.cs.indicator ∧
      (modeAvi P d).rgbRange =
        (if d.forceRgbRange ≠ RGB_RANGE_AUTO then get d.forceRgbRange 0 2 else 0) ∧
      (modeAvi P d).yccRange =
        if d.forceRgbRange ≠ RGB_RANGE_AUTO then get (yccRange d.forceRgbRange) 0 2
        else modeYccRange P := by
  unfold modeAvi setHw
  by_cases hauto : d.forceRgbRange ≠ RGB_RANGE_AUTO
  · -- the packet for the range overwrites all three fields
    simp only [hfmt, if_true, if_pos hauto]
    obtain ⟨hformat, hrange, hycc⟩ := setVsifPkt_eq (P := P)
      (d := { d with avi := changeAviPacket P { d with avi := configHdmi20Tx P d } }) hgxl hcs
    rw [if_pos hauto] at hrange
    exact ⟨hformat, hrange, hycc⟩
  · -- the fields are those of the mode
    simp only [hfmt, if_true, if_neg hauto]
    refine ⟨format_changeAviPacket, ?_, ?_⟩
    · rw [rgbRange_changeAviPacket, rgbRange_configHdmi20Tx]
    · rw [yccRange_changeAviPacket, yccRange_configHdmi20Tx]

end Hdmi
