import Akbuilder.Hdmi.Display

/-!
# The stock kernel's HDMI display

`hdmitx_set_display` before the patch that forces colour space and depth. It leaves `para->cd`
alone, and `para->cs` unless it chooses RGB.

## Main definitions

* `stockSetDisplay`: the original `hdmitx_set_display`
* `SameAsStock`: the default settings leave the same colour

## Main results

* `sameAsStock_iff`: they do exactly when the state already has what the patched function assigns
* `not_sameAsStock`: a colour depth chosen by the user is lost
-/

namespace Hdmi

/-- The debug settings of the original driver. -/
structure StockForce where
  hdmiOutputRgb : Bool
  colorDepthF : Nat
  /-- `RGB444`, the value 0, forces nothing -/
  colorspaceF : ColorSpace

def StockForce.default : StockForce := ⟨false, 0, .RGB444⟩

variable (P : Platform) (f : StockForce) (d : Device)

/-- The original `hdmitx_set_dispmode`. -/
def stockSetDispmode : Int × Device :=
  match d.curVideoParam with
  | none => (0, d)
  | some param =>
    let vic := P.code param.VIC
    if d.rxCap.vicSupport vic then
      let d := { d with curVIC := vic }
      let param := { param with colorDepth := outputDepth f.colorDepthF param.colorDepth }
      let param := if f.colorspaceF ≠ .RGB444 then { param with color := f.colorspaceF } else param
      let d := { d with curVideoParam := some param }
      let d := { d with avi := setHw P d vic }
      (0, { d with avi := changeAviPacket P d })
    else (-1, d)

/-- **The original `hdmitx_set_display`**, where `vic` is the video code that the transmitter
reports. -/
def stockSetDisplay (vic videoCode : Nat) : Int × Device :=
  let d := if vic ≠ P.code .HDMI_Unkown ∧ vic = videoCode then { d with curVIC := vic } else d
  match getVideoParam P videoCode with
  | none => (-1, { d with curVideoParam := none })
  | some param =>
    let color := if f.hdmiOutputRgb then .RGB444 else sinkColor P d.rxCap.nativeMode videoCode
    let d := { d with
      curVideoParam := some { param with color }
      cs := if f.hdmiOutputRgb = false ∧ color = .RGB444 then color else d.cs }
    let r := stockSetDispmode P f d
    if 0 ≤ r.1 then (0, { r.2 with avi := hdmiDviConfig P r.2 }) else (-1, r.2)

/-- The device with the default settings of the patch. -/
def Device.unforced : Device := { d with forceColorSpace := .RESERVED, forceColorDepth := 0 }

/-- **Stock behaviour**: with the default settings, the patched function leaves the colour space,
the colour depth and the colour of the video parameters that the original leaves, and returns the
same. -/
def SameAsStock (vic videoCode : Nat) : Prop :=
  let patched := setDisplay P d.unforced vic videoCode
  let stock := stockSetDisplay P .default d.unforced vic videoCode
  patched.2.cs = stock.2.cs ∧ patched.2.cd = stock.2.cd ∧
    patched.2.curVideoParam.map VidPara.color = stock.2.curVideoParam.map VidPara.color ∧
    patched.1 = stock.1

instance (vic videoCode : Nat) : Decidable (SameAsStock P d vic videoCode) :=
  inferInstanceAs (Decidable (_ ∧ _ ∧ _ ∧ _))

variable {P} {videoCode : Nat} {param : VidPara}

/-- What the original function leaves. -/
theorem stockSetDisplay_of_some (d : Device) (vic : Nat)
    (h : getVideoParam P videoCode = some param) :
    let stock := stockSetDisplay P .default d.unforced vic videoCode
    let color := sinkColor P d.rxCap.nativeMode videoCode
    stock.2.cs = (if color = .RGB444 then color else d.cs) ∧ stock.2.cd = d.cd ∧
      stock.2.curVideoParam.map VidPara.color = some color ∧
      stock.1 = if d.rxCap.vicSupport videoCode then 0 else -1 := by
  obtain ⟨cur, hcur⟩ := reported_eq P d.unforced vic videoCode
  obtain ⟨-, rfl⟩ := code_of_getVideoParam h
  unfold reported at hcur
  unfold stockSetDisplay
  simp only [hcur, h]
  cases hsupport : d.rxCap.vicSupport (P.code param.VIC) <;>
    simp [stockSetDispmode, hsupport, StockForce.default, Device.unforced]

/-- What the patched function leaves. -/
theorem setDisplay_unforced_of_some (d : Device) (vic : Nat)
    (h : getVideoParam P videoCode = some param) :
    let patched := setDisplay P d.unforced vic videoCode
    let color := sinkColor P d.rxCap.nativeMode videoCode
    patched.2.cs = color ∧ patched.2.cd = param.colorDepth ∧
      patched.2.curVideoParam.map VidPara.color = some color ∧
      patched.1 = if d.rxCap.vicSupport videoCode then 0 else -1 := by
  cases hsupport : d.rxCap.vicSupport videoCode with
  | false =>
    obtain ⟨cur, hcur⟩ := reported_eq P d.unforced vic videoCode
    rw [setDisplay_of_unsupported (d := d.unforced) h hsupport, hcur]
    simp [choose, Device.unforced, outputSpace, outputDepth]
  | true =>
    obtain ⟨d', rfl, he⟩ := setDisplay_of_supported (d := d.unforced) vic h hsupport
    rw [he]
    simp [choose, Device.unforced, outputSpace, outputDepth]

/-- **The default settings give stock behaviour** exactly for a code that the table does not have,
and where the state already has the colour depth of the table and, unless the sink gets RGB, the
colour space of the sink. -/
theorem sameAsStock_iff (P : Platform) (d : Device) (vic videoCode : Nat) :
    SameAsStock P d vic videoCode ↔
      ∀ param, getVideoParam P videoCode = some param → d.cd = param.colorDepth ∧
        (sinkColor P d.rxCap.nativeMode videoCode = .RGB444 ∨
          d.cs = sinkColor P d.rxCap.nativeMode videoCode) := by
  unfold SameAsStock
  cases h : getVideoParam P videoCode with
  | none =>
    simp [setDisplay_of_none h, stockSetDisplay, h, reported]
  | some param =>
    obtain ⟨hcs, hcd, hcolor, hret⟩ := setDisplay_unforced_of_some d vic h
    obtain ⟨hcs', hcd', hcolor', hret'⟩ := stockSetDisplay_of_some d vic h
    simp only [hcs, hcd, hcolor, hret, hcs', hcd', hcolor', hret']
    simp only [and_true, Option.some.injEq, forall_eq']
    constructor
    · rintro ⟨hspace, hdepth⟩
      refine ⟨hdepth.symm, ?_⟩
      by_cases hrgb : sinkColor P d.rxCap.nativeMode videoCode = .RGB444
      · exact .inl hrgb
      · rw [if_neg hrgb] at hspace
        exact .inr hspace.symm
    · rintro ⟨hdepth, hspace⟩
      refine ⟨?_, hdepth.symm⟩
      split
      · rfl
      · next hrgb => exact (hspace.resolve_left hrgb).symm

/-- The 36 bits per pixel that the user chose for 1080p60 become 24. -/
theorem not_sameAsStock :
    ¬ ∀ (P : Platform) (d : Device) (vic videoCode : Nat), SameAsStock P d vic videoCode := by
  intro h
  exact absurd (h gxlPlatform (.boot (hdmiSink 0x30) .YUV444 .b36) 0 16) (by decide)

end Hdmi
