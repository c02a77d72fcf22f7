import Akbuilder.Hdmi.History

/-!
# The vendor-specific infoframe

Besides the AVI infoframe the transmitter sends a vendor-specific one. It tells the sink the HDMI
code of a 4K mode, the layout of a 3D picture, or that the picture is Dolby Vision. Four places of
the driver write it: the end of `hdmitx_set_display`, `hdmi_set_3d`, the refresh of Dolby Vision,
and `hdmitx_set_vsif_pkt(0, 0)`, which the patch calls for a forced RGB range.

## Main definitions

* `Vend`: the registers of the infoframe
* `Transmitter`: the driver with these registers and the flags of 3D
* `Transmitter.step`: the actions of user and kernel on it
-/

open BitField

namespace Hdmi

/-- What the writers of the infoframe take from headers and files of the kernel. -/
structure PacketPlatform extends Platform where
  HDMI_3840x2160p30_16x9 : Nat
  HDMI_3840x2160p25_16x9 : Nat
  HDMI_3840x2160p24_16x9 : Nat
  HDMI_4096x2160p24_256x135 : Nat
  T3D_FRAME_PACKING : Nat
  T3D_TAB : Nat
  T3D_SBS_HALF : Nat
  T3D_DISABLE : Nat
  /-- `para->vic & HDMITX_VIC_MASK`, for the parameters of `hdmi_get_fmt_paras` -/
  fmtVic : Nat → Nat
  /-- `config_data.vend_data` is there -/
  vendData : Bool

/-- `enum eotf_type`. Other numbers are handled like `EOTF_T_NULL`. -/
inductive Eotf
  | EOTF_T_NULL
  | EOTF_T_DOLBYVISION
  | EOTF_T_HDR10
  | EOTF_T_SDR
  deriving DecidableEq, Repr

/-- `VEN_DB`, and `VEN_HB[2]`. -/
structure VendorPacket where
  DB0 : Nat := 0x03
  DB1 : Nat := 0x0c
  DB2 : Nat := 0x00
  DB3 : Nat
  DB4 : Nat
  DB5 : Nat
  HB2 : Nat
  deriving DecidableEq, Repr

/-- The registers that a vendor-specific packet writes; of two of them the bit of this packet. -/
structure Vend where
  FC_VSDIEEEID0 : Nat
  FC_VSDIEEEID1 : Nat
  FC_VSDIEEEID2 : Nat
  FC_VSDPAYLOAD0 : Nat
  FC_VSDPAYLOAD1 : Nat
  FC_VSDPAYLOAD2 : Nat
  FC_VSDSIZE : Nat
  FC_AVIVID : Nat
  /-- `FC_DATAUTO0[3]`: the packet is sent -/
  vsdAuto : Bool
  FC_DATAUTO1 : Nat
  FC_DATAUTO2 : Nat
  /-- `FC_PACKET_TX_EN[4]` -/
  vsdTxEn : Bool
  deriving DecidableEq, Repr

section Registers

variable (P : PacketPlatform)

/-- `hdmitx_set_packet(HDMI_PACKET_VEND, DB, HB)`. -/
def Vend.setPacket (v : Vend) : Option VendorPacket → Vend
  | none => { v with vsdAuto := false }
  | some p =>
    let v := { v with
      FC_VSDIEEEID0 := p.DB0, FC_VSDIEEEID1 := p.DB1, FC_VSDIEEEID2 := p.DB2
      FC_VSDPAYLOAD0 := p.DB3, FC_VSDSIZE := p.HB2 }
    let v := if p.DB3 = 0x20 then { v with FC_AVIVID := 0, FC_VSDPAYLOAD1 := p.DB4 } else v
    let v :=
      if p.DB3 = 0x40 then
        { v with
          FC_VSDPAYLOAD1 := p.DB4, FC_VSDPAYLOAD2 := p.DB5
          FC_VSDSIZE := if p.DB4 >>> 4 = P.T3D_FRAME_PACKING then 5 else 6 }
      else v
    { v with vsdAuto := true, FC_DATAUTO1 := 0, FC_DATAUTO2 := 0x10, vsdTxEn := true }

/-- The HDMI code of a 4K mode, if `hdmi_vic_4k_flag`. -/
def vic4k (vic : Nat) : Option Nat :=
  if vic = P.HDMI_3840x2160p30_16x9 then some 0x1
  else if vic = P.HDMI_3840x2160p25_16x9 then some 0x2
  else if vic = P.HDMI_3840x2160p24_16x9 then some 0x3
  else if vic = P.HDMI_4096x2160p24_256x135 then some 0x4
  else none

/-- The packet of `hdmitx_set_vsif_pkt`. -/
def vsifPacket (vic len : Nat) : VendorPacket :=
  { DB3 := if (vic4k P vic).isSome then 0x20 else 0x00, DB4 := (vic4k P vic).getD 0, DB5 := 0
    HB2 := len }

/-- The vendor-specific infoframe in `hdmitx_set_vsif_pkt`, for a type other than Dolby Vision. -/
def Vend.setVsifPkt (v : Vend) (vic : Nat) : Vend :=
  if P.gxl then
    v.setPacket P (if (vic4k P vic).isSome then some (vsifPacket P vic 0x05) else none)
  else v

/-- `hdmi_set_vend_spec_infofram`. -/
def Vend.setVendSpecInfofram (v : Vend) (videoCode : Nat) : Vend :=
  if videoCode = 0 then v.setPacket P none
  else
    let DB4 :=
      if videoCode = P.code .HDMI_4k2k_30 then 0x1
      else if videoCode = P.code .HDMI_4k2k_25 then 0x2
      else if videoCode = P.code .HDMI_4k2k_24 then 0x3
      else if videoCode = P.code .HDMI_4k2k_smpte_24 then 0x4
      else 0
    v.setPacket P (some { DB3 := 0x20, DB4, DB5 := 0, HB2 := 0x5 })

/-- `hdmi_set_3d`. -/
def Vend.set3d (v : Vend) (type param : Nat) : Vend :=
  if type = P.T3D_DISABLE then v.setPacket P none
  else
    -- the bytes of the packet are `unsigned char`
    v.setPacket P
      (some { DB3 := 0x40, DB4 := type <<< 4 % 256, DB5 := param <<< 4 % 256, HB2 := 0x6 })

/-- What `hdmitx_set_hw` writes of these registers, where `hdev->para` is for the mode that is
set. -/
def Vend.setHw (v : Vend) (vic : Nat) : Vend :=
  if P.fmtParas vic then { v with FC_AVIVID := P.fmtVic vic, FC_DATAUTO1 := 0 } else v

/-- What `hdmitx_set_spd_info` writes of these registers. -/
def Vend.setSpdInfo (v : Vend) : Vend :=
  if P.vendData then
    { v with FC_DATAUTO2 := P.reg.set v.FC_DATAUTO2 0x1 4 4, vsdTxEn := true }
  else v

end Registers

/-! ## The transmitter -/

/-- The driver, with the registers of the vendor-specific infoframe and the flags of 3D. -/
structure Transmitter where
  dev : Device
  vend : Vend
  flag3dfp : Bool
  flag3dtb : Bool
  flag3dss : Bool

/-- The 3D layouts of the `config` attribute. -/
inductive ThreeD
  | tb
  | ss
  | fp
  | off
  deriving DecidableEq, Repr

namespace Transmitter

/-- The device with the default settings, before its first mode. -/
def boot (rxCap : RxCap) (cs : ColorSpace) (cd : ColorDepth) (vend : Vend) : Transmitter :=
  ⟨.boot rxCap cs cd, vend, false, false, false⟩

variable (P : PacketPlatform) (t : Transmitter)

/-- `CONF_AVI_RGBYCC_INDIC` -/
def aviRgbyccIndic (a : Avi) (argv : Nat) : Avi :=
  { a with FC_AVICONF0 := P.reg.set (P.reg.set a.FC_AVICONF0 argv 0 2) 0 7 1 }

/-- `CONF_AVI_Q01` -/
def aviQ01 (a : Avi) (argv : Nat) : Avi :=
  { a with FC_AVICONF2 := P.reg.set a.FC_AVICONF2 argv 2 2 }

/-- `CONF_AVI_YQ01` -/
def aviYQ01 (a : Avi) (argv : Nat) : Avi :=
  { a with FC_AVICONF3 := P.reg.set a.FC_AVICONF3 argv 2 2 }

/-- **`hdmitx_set_vsif_pkt`.** -/
def setVsifPkt (type : Eotf) (tunnelMode : Bool) : Transmitter :=
  if type = .EOTF_T_DOLBYVISION then
    if P.gxl then
      { t with
        vend := t.vend.setPacket P (some (vsifPacket P t.dev.curVIC 0x18))
        dev := { t.dev with
          avi :=
            if tunnelMode then
              aviQ01 P (aviRgbyccIndic P t.dev.avi ColorSpace.RGB444.toNat) RGB_RANGE_FUL
            else aviYQ01 P (aviRgbyccIndic P t.dev.avi ColorSpace.YUV422.toNat) YCC_RANGE_FUL } }
    else t
  else
    { t with
      vend := t.vend.setVsifPkt P t.dev.curVIC
      dev := { t.dev with avi := Hdmi.setVsifPkt P.toPlatform t.dev } }

/-- The flags of 3D. -/
def flag3d : Bool := t.flag3dfp || t.flag3dtb || t.flag3dss

/-- The vendor-specific infoframe in `hdmitx_set_display`, when the mode is set. -/
def displayVend (videoCode : Nat) : Vend :=
  let v := t.vend.setHw P videoCode
  let v := if t.dev.forceRgbRange ≠ RGB_RANGE_AUTO then v.setVsifPkt P videoCode else v
  if videoCode = P.code .HDMI_4k2k_30 ∨ videoCode = P.code .HDMI_4k2k_25 ∨
      videoCode = P.code .HDMI_4k2k_24 ∨ videoCode = P.code .HDMI_4k2k_smpte_24 then
    v.setVendSpecInfofram P videoCode
  else if t.flag3d = false then v.setVendSpecInfofram P 0
  else v

/-- **`hdmitx_set_display`.** -/
def setDisplay (vic videoCode : Nat) : Int × Transmitter :=
  let r := Hdmi.setDisplay P.toPlatform t.dev vic videoCode
  let v := if 0 ≤ r.1 then t.displayVend P videoCode else t.vend
  (r.1, { t with dev := r.2, vend := v.setSpdInfo P })

/-- The `3d` commands of `store_config`. -/
def config3d : ThreeD → Transmitter
  | .tb =>
    { t with
      flag3dtb := true, flag3dss := false, flag3dfp := false, vend := t.vend.set3d P P.T3D_TAB 0 }
  | .ss =>
    -- `kstrtoul` is given the letters behind `3d`, so `sub_sample_mode` stays 0
    { t with
      flag3dtb := false, flag3dss := true, flag3dfp := false
      vend := t.vend.set3d P P.T3D_SBS_HALF 0 }
  | .fp =>
    { t with
      flag3dtb := false, flag3dss := false, flag3dfp := true
      vend := t.vend.set3d P P.T3D_FRAME_PACKING 0 }
  | .off =>
    { t with
      flag3dfp := false, flag3dtb := false, flag3dss := false
      vend := t.vend.set3d P P.T3D_DISABLE 0 }

/-- `force_color_space_store`, for the word that was scanned. -/
def forceColorSpaceStore (vic : Nat) (mode : List Char) : Transmitter :=
  match lookupName colorSpaceNames mode with
  | none => t
  | some newMode =>
    if t.dev.forceColorSpace ≠ newMode then
      -- what `hdmitx_set_display` returns is ignored
      (setDisplay P { t with dev := { t.dev with forceColorSpace := newMode } } vic t.dev.curVIC).2
    else t

/-- **`force_color_range_store`**, for the word that was scanned. -/
def forceColorRangeStore (mode : List Char) : Transmitter :=
  match lookupName rgbRangeNames mode with
  | none => t
  | some i =>
    if t.dev.forceRgbRange ≠ i then
      setVsifPkt P { t with dev := { t.dev with forceRgbRange := i } } .EOTF_T_NULL false
    else t

/-- `force_color_depth_store`, for the number that was scanned. -/
def forceColorDepthStore (vic : Nat) (mode : Int) : Transmitter :=
  if mode = 0 ∨ mode = 24 ∨ mode = 30 ∨ mode = 36 ∨ mode = 48 then
    (setDisplay P { t with dev := { t.dev with forceColorDepth := mode.toNat } } vic t.dev.curVIC).2
  else t

/-- What happens to the transmitter. -/
inductive Action
  /-- the display is set for a sink, with the format that the user chose for the mode -/
  | display (rxCap : RxCap) (cs : ColorSpace) (cd : ColorDepth) (vic videoCode : Nat)
  | colorSpace (vic : Nat) (mode : List Char)
  | colorRange (mode : List Char)
  | colorDepth (vic : Nat) (mode : Int)
  /-- `fresh_tx_vsif_pkt`: the refresh for the kind of picture that is shown -/
  | vsif (type : Eotf) (tunnelMode : Bool)
  | config3d (layout : ThreeD)

/-- One action. -/
def step : Action → Transmitter
  | .display rxCap cs cd vic videoCode =>
    (setDisplay P { t with dev := { t.dev with rxCap, cs, cd } } vic videoCode).2
  | .colorSpace vic mode => forceColorSpaceStore P t vic mode
  | .colorRange mode => forceColorRangeStore P t mode
  | .colorDepth vic mode => forceColorDepthStore P t vic mode
  | .vsif type tunnelMode => setVsifPkt P t type tunnelMode
  | .config3d layout => config3d P t layout

/-- **The states of the transmitter**, whatever its registers hold when it is switched on. -/
def Reachable : Prop :=
  ∃ rxCap cs cd vend, ∃ actions : List Action,
    t = actions.foldl (step P) (boot rxCap cs cd vend)

/-- The driver alone does what it does in the model without the infoframe. -/
theorem dev_forceColorRangeStore (mode : List Char) :
    (forceColorRangeStore P t mode).dev = Hdmi.forceColorRangeStore P.toPlatform t.dev mode := by
  unfold forceColorRangeStore Hdmi.forceColorRangeStore
  cases lookupName rgbRangeNames mode with
  | none => rfl
  | some i =>
    dsimp only
    split <;> rfl

theorem dev_setDisplay (vic videoCode : Nat) :
    (setDisplay P t vic videoCode).2.dev = (Hdmi.setDisplay P.toPlatform t.dev vic videoCode).2 :=
  rfl

end Transmitter

end Hdmi
