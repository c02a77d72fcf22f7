import Akbuilder.Hdmi.Display

/-!
# The colour output and its history

The sysfs attributes force the colour space, the RGB range and the colour depth of the output. The
output is meant to follow from the settings in force, whatever settings came before. It does not for
the infoframe: after a store of `auto` the range packet leaves another RGB range than a mode set,
and it takes back the RGB that a mode set announces to a DVI sink.

## Main definitions

* `forceColorSpaceStore`, `forceColorRangeStore`, `forceColorDepthStore`: the attributes
* `History`: a successful `hdmitx_set_display` and what follows it
* `History.ranged`: a range was stored after the last `hdmitx_set_display`
* `SameOutput`: two devices put out the same colours

## Main results

* `History.shown`: what a history leaves in the infoframe
* `History.sameOutput_iff`: when two histories with the same settings put out the same colours
* `History.not_sameOutput`: storing `full` and then `auto` does not restore the RGB range
-/

open BitField

namespace Hdmi

/-! ## The attributes -/

/-- `strcasecmp`. -/
def sameName (mode name : List Char) : Bool := mode.map Char.toLower == name.map Char.toLower

/-- `hdmi_color_space_s`, in the order of the enumeration. -/
def colorSpaceNames : List (List Char × ColorSpace) :=
  [("RGB444".toList, .RGB444), ("YUV422".toList, .YUV422), ("YUV444".toList, .YUV444),
    ("YUV420".toList, .YUV420), ("AUTO".toList, .RESERVED)]

/-- `hdmi_rgb_range_s`. -/
def rgbRangeNames : List (List Char × Nat) :=
  [("DEFAULT".toList, 0), ("LIMITED".toList, 1), ("FULL".toList, 2), ("ALL".toList, 3),
    ("AUTO".toList, 4)]

/-- The value of a name, if there is one. -/
def lookupName {α : Type} (names : List (List Char × α)) (mode : List Char) : Option α :=
  (names.find? fun x => sameName mode x.1).map Prod.snd

/-- The settings in force. -/
structure Force where
  colorSpace : ColorSpace
  colorDepth : Nat
  rgbRange : Nat
  deriving DecidableEq, Repr

def Device.force (d : Device) : Force := ⟨d.forceColorSpace, d.forceColorDepth, d.forceRgbRange⟩

section Stores

variable (P : Platform) (d : Device)

/-- `hdmitx_set_display`, when it succeeds. -/
def display (vic videoCode : Nat) : Option Device :=
  let r := setDisplay P d vic videoCode
  if 0 ≤ r.1 then some r.2 else none

/-- `force_color_space_store`, for the word that was scanned. -/
def forceColorSpaceStore (vic : Nat) (mode : List Char) : Option Device :=
  match lookupName colorSpaceNames mode with
  | none => some d
  | some newMode =>
    if d.forceColorSpace ≠ newMode then
      display P { d with forceColorSpace := newMode } vic d.curVIC
    else some d

/-- `force_color_range_store`, for the word that was scanned. -/
def forceColorRangeStore (mode : List Char) : Device :=
  match lookupName rgbRangeNames mode with
  | none => d
  | some i =>
    if d.forceRgbRange ≠ i then
      let d := { d with forceRgbRange := i }
      { d with avi := setVsifPkt P d }
    else d

/-- `force_color_depth_store`, for the number that was scanned. -/
def forceColorDepthStore (vic : Nat) (mode : Int) : Option Device :=
  if mode = 0 ∨ mode = 24 ∨ mode = 30 ∨ mode = 36 ∨ mode = 48 then
    display P { d with forceColorDepth := mode.toNat } vic d.curVIC
  else some d

end Stores

/-! ## Histories -/

/-- What happens to the device. Each `hdmitx_set_display` is told the video code that the
transmitter reports. -/
inductive Action
  /-- the display is set for a sink, with the format that the user chose for the mode -/
  | display (rxCap : RxCap) (cs : ColorSpace) (cd : ColorDepth) (vic videoCode : Nat)
  | colorSpace (vic : Nat) (mode : List Char)
  | colorRange (mode : List Char)
  | colorDepth (vic : Nat) (mode : Int)

/-- One action, if its `hdmitx_set_display` succeeds. -/
def step (P : Platform) (d : Device) : Action → Option Device
  | .display rxCap cs cd vic videoCode => display P { d with rxCap, cs, cd } vic videoCode
  | .colorSpace vic mode => forceColorSpaceStore P d vic mode
  | .colorRange mode => some (forceColorRangeStore P d mode)
  | .colorDepth vic mode => forceColorDepthStore P d vic mode

/-- The settings after an action, and whether the last effective one was a store of a range. -/
def track (x : Force × Bool) : Action → Force × Bool
  | .display _ _ _ _ _ => (x.1, false)
  | .colorSpace _ mode =>
    match lookupName colorSpaceNames mode with
    | none => x
    | some c => if x.1.colorSpace ≠ c then ({ x.1 with colorSpace := c }, false) else x
  | .colorRange mode =>
    match lookupName rgbRangeNames mode with
    | none => x
    | some i => if x.1.rgbRange ≠ i then ({ x.1 with rgbRange := i }, true) else x
  | .colorDepth _ mode =>
    if mode = 0 ∨ mode = 24 ∨ mode = 30 ∨ mode = 36 ∨ mode = 48 then
      ({ x.1 with colorDepth := mode.toNat }, false)
    else x

/-- The video codes that an action brings in. -/
def Action.codes : Action → List Nat
  | .display _ _ _ _ videoCode => [videoCode]
  | .colorSpace _ _ | .colorRange _ | .colorDepth _ _ => []

/-- **A history**: the display of some device is set, and the actions follow. -/
structure History where
  device : Device
  rxCap : RxCap
  cs : ColorSpace
  cd : ColorDepth
  vic : Nat
  videoCode : Nat
  actions : List Action

namespace History

/-- The device in the end, if every `hdmitx_set_display` succeeded. -/
def run (P : Platform) (h : History) : Option Device :=
  (step P h.device (.display h.rxCap h.cs h.cd h.vic h.videoCode)).bind
    (h.actions.foldlM (step P))

/-- The video codes of a history. -/
def codes (h : History) : List Nat := h.videoCode :: h.actions.flatMap Action.codes

/-- **A range was stored** since the last `hdmitx_set_display`. -/
def ranged (h : History) : Bool := (h.actions.foldl track (h.device.force, false)).2

end History

/-- **The same colours**: the same colour space and depth, and the same fields of the infoframe. -/
def SameOutput (d d' : Device) : Prop :=
  d.cs = d'.cs ∧ d.cd = d'.cd ∧ d.avi.format = d'.avi.format ∧
    d.avi.rgbRange = d'.avi.rgbRange ∧ d.avi.yccRange = d'.avi.yccRange

instance (d d' : Device) : Decidable (SameOutput d d') :=
  inferInstanceAs (Decidable (_ ∧ _ ∧ _ ∧ _ ∧ _))

/-! ## What a history leaves -/

variable {P : Platform} {d d' : Device} {a : Action} {ranged : Bool} {vic videoCode : Nat}

/-- **What the settings show**, after a mode set or, if `ranged`, after the packet for a range. -/
structure Shown (P : Platform) (ranged : Bool) (d : Device) : Prop where
  cs : d.cs = outputSpace d.forceColorSpace (sinkColor P d.rxCap.nativeMode d.curVIC)
  cd : ∃ param, getVideoParam P d.curVIC = some param ∧
    d.cd = outputDepth d.forceColorDepth param.colorDepth
  fmtParas : P.fmtParas d.curVIC = true
  format : d.avi.format = if d.rxCap.IsDvi ∧ ranged = false then 0 else d.cs.indicator
  rgbRange : d.avi.rgbRange =
    if d.forceRgbRange ≠ RGB_RANGE_AUTO then get d.forceRgbRange 0 2
    else if ranged then RGB_RANGE_LIM else 0
  yccRange : d.avi.yccRange =
    if d.forceRgbRange ≠ RGB_RANGE_AUTO then get (yccRange d.forceRgbRange) 0 2
    else if ranged then YCC_RANGE_LIM else modeYccRange P

theorem Shown.cs_ne_reserved (h : Shown P ranged d) : d.cs ≠ .RESERVED := by
  rw [h.cs]
  exact outputSpace_ne_reserved (sinkColor_ne_reserved P _ _) _

/-- The format after the switch to DVI. -/
theorem format_hdmiDviConfig :
    (hdmiDviConfig P d).format = if d.rxCap.IsDvi then 0 else d.avi.format := by
  unfold hdmiDviConfig
  split
  · exact format_cscConfig
  · rfl

theorem range_hdmiDviConfig :
    (hdmiDviConfig P d).rgbRange = d.avi.rgbRange ∧
      (hdmiDviConfig P d).yccRange = d.avi.yccRange := by
  unfold hdmiDviConfig
  split <;> exact ⟨rfl, rfl⟩

/-- What the platform is assumed to be: a GXL or later, with the formats of the codes. -/
structure Platform.Ready (P : Platform) (codes : List Nat) : Prop where
  gxl : P.gxl = true
  fmtParas : ∀ code ∈ codes, P.fmtParas code = true

/-- **A mode set shows the settings.** -/
theorem shown_display (hgxl : P.gxl = true) (hfmt : P.fmtParas videoCode = true)
    (h : display P d vic videoCode = some d') : Shown P false d' ∧ d'.force = d.force := by
  simp only [display, Option.ite_none_right_eq_some, Option.some.injEq] at h
  obtain ⟨hret, rfl⟩ := h
  obtain ⟨hparam, hsupport⟩ := setDisplay_nonneg.mp hret
  obtain ⟨param, hparam⟩ := Option.isSome_iff_exists.mp hparam
  obtain ⟨d', rfl, he⟩ := setDisplay_of_supported vic hparam hsupport
  rw [he]
  have hcs : (choose P d videoCode param).cs ≠ .RESERVED :=
    outputSpace_ne_reserved (sinkColor_ne_reserved P _ _) _
  obtain ⟨hformat, hrange, hycc⟩ := modeAvi_eq (P := P)
    (d := { choose P d videoCode param with curVIC := videoCode }) hfmt hgxl hcs
  refine ⟨⟨rfl, ⟨param, hparam, rfl⟩, hfmt, ?_, ?_, ?_⟩, rfl⟩
  · rw [format_hdmiDviConfig, hformat]
    simp
  · rw [range_hdmiDviConfig.1, hrange]
    rfl
  · rw [range_hdmiDviConfig.2, hycc]
    rfl

/-- **A range is stored**: the packet shows it. -/
theorem Shown.forceColorRangeStore (h : Shown P ranged d) (hgxl : P.gxl = true)
    (mode : List Char) :
    Shown P (track (d.force, ranged) (.colorRange mode)).2 (forceColorRangeStore P d mode) ∧
      (forceColorRangeStore P d mode).force = (track (d.force, ranged) (.colorRange mode)).1 := by
  simp only [Hdmi.forceColorRangeStore, track]
  cases lookupName rgbRangeNames mode with
  | none => exact ⟨h, rfl⟩
  | some i =>
    by_cases hi : d.forceRgbRange ≠ i
    · have hforce : d.force.rgbRange ≠ i := hi
      simp only [if_pos hi, if_pos hforce]
      obtain ⟨hformat, hrange, hycc⟩ := setVsifPkt_eq (P := P) (d := { d with forceRgbRange := i })
        hgxl h.cs_ne_reserved
      refine ⟨⟨h.cs, h.cd, h.fmtParas, ?_, ?_, ?_⟩, rfl⟩
      · simpa using hformat
      · rw [hrange]
        split <;> rfl
      · rw [hycc]
        split
        · rfl
        · next hauto =>
          obtain rfl : i = RGB_RANGE_AUTO := not_not.mp hauto
          rfl
    · have hforce : ¬ d.force.rgbRange ≠ i := hi
      dsimp only
      rw [if_neg hi, if_neg hforce]
      exact ⟨h, rfl⟩

/-- **A step shows the settings it leaves.** -/
theorem Shown.step (h : Shown P ranged d) (hP : P.Ready a.codes) (hs : step P d a = some d') :
    Shown P (track (d.force, ranged) a).2 d' ∧ d'.force = (track (d.force, ranged) a).1 := by
  cases a with
  | display rxCap cs cd vic videoCode =>
    exact shown_display (d := { d with rxCap, cs, cd }) hP.gxl
      (hP.fmtParas videoCode (List.mem_singleton_self _)) hs
  | colorSpace vic mode =>
    simp only [Hdmi.step, forceColorSpaceStore, track] at hs ⊢
    cases hmode : lookupName colorSpaceNames mode with
    | none =>
      simp only [hmode, Option.some.injEq] at hs
      exact hs ▸ ⟨h, rfl⟩
    | some c =>
      simp only [hmode] at hs
      by_cases hc : d.forceColorSpace ≠ c
      · have hforce : d.force.colorSpace ≠ c := hc
        rw [if_pos hc] at hs
        simp only [if_pos hforce]
        exact shown_display hP.gxl h.fmtParas hs
      · have hforce : ¬ d.force.colorSpace ≠ c := hc
        rw [if_neg hc, Option.some.injEq] at hs
        simp only [if_neg hforce]
        exact hs ▸ ⟨h, rfl⟩
  | colorRange mode =>
    obtain rfl := Option.some.inj hs
    exact h.forceColorRangeStore hP.gxl mode
  | colorDepth vic mode =>
    simp only [Hdmi.step, forceColorDepthStore, track] at hs ⊢
    split at hs
    · next hmode =>
      rw [if_pos hmode]
      exact shown_display hP.gxl h.fmtParas hs
    · next hmode =>
      rw [if_neg hmode]
      obtain rfl := Option.some.inj hs
      exact ⟨h, rfl⟩

/-- **Actions show the settings they leave.** -/
theorem Shown.foldlM {actions : List Action} (h : Shown P ranged d)
    (hP : P.Ready (actions.flatMap Action.codes)) (hs : actions.foldlM (Hdmi.step P) d = some d') :
    Shown P (actions.foldl track (d.force, ranged)).2 d' := by
  induction actions generalizing d ranged with
  | nil =>
    obtain rfl := Option.some.inj hs
    exact h
  | cons a actions ih =>
    simp only [List.foldlM_cons, Option.bind_eq_bind, Option.bind_eq_some_iff] at hs
    obtain ⟨d₁, hd₁, hs⟩ := hs
    rw [List.flatMap_cons] at hP
    obtain ⟨hshown, hforce⟩ :=
      h.step ⟨hP.gxl, fun c hc => hP.fmtParas c (List.mem_append_left _ hc)⟩ hd₁
    have := ih hshown ⟨hP.gxl, fun c hc => hP.fmtParas c (List.mem_append_right _ hc)⟩ hs
    rwa [hforce] at this

/-- **A history shows its last settings.** -/
theorem History.shown {h : History} (hP : P.Ready h.codes) (hrun : h.run P = some d) :
    Shown P h.ranged d := by
  rw [History.run, Option.bind_eq_some_iff] at hrun
  obtain ⟨d₁, hd₁, hrun⟩ := hrun
  obtain ⟨hshown, hforce⟩ :=
    shown_display hP.gxl (hP.fmtParas _ (List.mem_cons_self ..)) hd₁
  have := hshown.foldlM ⟨hP.gxl, fun c hc => hP.fmtParas c (List.mem_cons_of_mem _ hc)⟩ hrun
  rwa [hforce] at this

/-! ## Two histories -/

theorem ColorSpace.indicator_eq_zero : ∀ c : ColorSpace, c.indicator = 0 ↔ c = .RGB444 := by
  intro c
  cases c <;> decide

/-- What two devices with the same settings show. -/
theorem Shown.same_iff {d₁ d₂ : Device} {ranged₁ ranged₂ : Bool} (h₁ : Shown P ranged₁ d₁)
    (h₂ : Shown P ranged₂ d₂) (hcode : d₁.curVIC = d₂.curVIC)
    (hnative : d₁.rxCap.nativeMode = d₂.rxCap.nativeMode) (hforce : d₁.force = d₂.force) :
    SameOutput d₁ d₂ ↔
      (d₁.forceRgbRange = RGB_RANGE_AUTO → ranged₁ = ranged₂) ∧
        ((d₁.rxCap.IsDvi ∧ ranged₁ = false ↔ d₂.rxCap.IsDvi ∧ ranged₂ = false) ∨
          outputSpace d₁.forceColorSpace
            (sinkColor P d₁.rxCap.nativeMode d₁.curVIC) = .RGB444) := by
  simp only [Device.force, Force.mk.injEq] at hforce
  obtain ⟨hspace, hdepth, hrange⟩ := hforce
  have hcs : d₁.cs = d₂.cs := by rw [h₁.cs, h₂.cs, hspace, hnative, hcode]
  have hcd : d₁.cd = d₂.cd := by
    obtain ⟨param, hparam, hcd₁⟩ := h₁.cd
    obtain ⟨param', hparam', hcd₂⟩ := h₂.cd
    obtain rfl : param = param' := Option.some.inj (by rw [← hparam, ← hparam', hcode])
    rw [hcd₁, hcd₂, hdepth]
  have hformat : d₁.avi.format = d₂.avi.format ↔
      (d₁.rxCap.IsDvi ∧ ranged₁ = false ↔ d₂.rxCap.IsDvi ∧ ranged₂ = false) ∨
        d₁.cs = .RGB444 := by
    rw [h₁.format, h₂.format, ← hcs, ← ColorSpace.indicator_eq_zero]
    split <;> split <;> grind
  have hauto : d₁.avi.rgbRange = d₂.avi.rgbRange ∧ d₁.avi.yccRange = d₂.avi.yccRange ↔
      (d₁.forceRgbRange = RGB_RANGE_AUTO → ranged₁ = ranged₂) := by
    rw [h₁.rgbRange, h₂.rgbRange, h₁.yccRange, h₂.yccRange, ← hrange]
    by_cases hf : d₁.forceRgbRange = RGB_RANGE_AUTO
    · simp only [hf, ne_eq, not_true_eq_false, if_false, true_imp_iff]
      -- the two RGB ranges differ
      cases ranged₁ <;> cases ranged₂ <;> simp [RGB_RANGE_LIM]
    · simp [hf]
  rw [← h₁.cs]
  constructor
  · rintro ⟨-, -, hf, hr, hy⟩
    exact ⟨hauto.mp ⟨hr, hy⟩, hformat.mp hf⟩
  · rintro ⟨hranged, hdvi⟩
    obtain ⟨hr, hy⟩ := hauto.mpr hranged
    exact ⟨hcs, hcd, hformat.mpr hdvi, hr, hy⟩

/-- **The output follows from the settings** exactly when, with the RGB range left to the driver,
both histories or none stored a range after the last `hdmitx_set_display`; and, unless the output is
RGB, both or none ended with the mode set of a DVI sink. -/
theorem History.sameOutput_iff {h₁ h₂ : History} {d₁ d₂ : Device}
    (hP₁ : P.Ready h₁.codes) (hP₂ : P.Ready h₂.codes) (hrun₁ : h₁.run P = some d₁)
    (hrun₂ : h₂.run P = some d₂) (hcode : d₁.curVIC = d₂.curVIC)
    (hnative : d₁.rxCap.nativeMode = d₂.rxCap.nativeMode) (hforce : d₁.force = d₂.force) :
    SameOutput d₁ d₂ ↔
      (d₁.forceRgbRange = RGB_RANGE_AUTO → h₁.ranged = h₂.ranged) ∧
        ((d₁.rxCap.IsDvi ∧ h₁.ranged = false ↔ d₂.rxCap.IsDvi ∧ h₂.ranged = false) ∨
          outputSpace d₁.forceColorSpace (sinkColor P d₁.rxCap.nativeMode d₁.curVIC) = .RGB444) :=
  (History.shown hP₁ hrun₁).same_iff (History.shown hP₂ hrun₂) hcode hnative hforce

theorem ready_gxlPlatform (codes : List Nat) : gxlPlatform.Ready codes := ⟨rfl, fun _ _ => rfl⟩

/-- 1080p60 on an HDMI sink, and what follows. -/
def History.of1080p60 (actions : List Action) : History :=
  ⟨.boot (hdmiSink 0x30) .RGB444 .b24, hdmiSink 0x30, .RGB444, .b24, 0, 16, actions⟩

/-- Storing `yuv422` and then `auto` restores the output. -/
theorem History.sameOutput_colorSpace :
    ∃ d₁ d₂, (of1080p60 []).run gxlPlatform = some d₁ ∧
      (of1080p60 [.colorSpace 0 "yuv422".toList, .colorSpace 0 "auto".toList]).run gxlPlatform =
        some d₂ ∧ SameOutput d₁ d₂ := by
  have hrun₁ : (of1080p60 []).run gxlPlatform = some _ := rfl
  have hrun₂ : (of1080p60 [.colorSpace 0 "yuv422".toList, .colorSpace 0 "auto".toList]).run
    gxlPlatform = some _ := rfl
  refine ⟨_, _, hrun₁, hrun₂, ?_⟩
  exact (sameOutput_iff (ready_gxlPlatform _) (ready_gxlPlatform _) hrun₁ hrun₂ rfl rfl rfl).mpr
    ⟨fun _ => rfl, .inl Iff.rfl⟩

/-- Storing `full` and then `auto` leaves the limited RGB range where there was the default. -/
theorem History.not_sameOutput :
    ¬ ∀ (P : Platform) (h₁ h₂ : History) (d₁ d₂ : Device), P.Ready (h₁.codes ++ h₂.codes) →
      h₁.run P = some d₁ → h₂.run P = some d₂ → d₁.curVIC = d₂.curVIC →
        d₁.rxCap.nativeMode = d₂.rxCap.nativeMode → d₁.force = d₂.force → SameOutput d₁ d₂ := by
  intro h
  have hrun₁ : (of1080p60 []).run gxlPlatform = some _ := rfl
  have hrun₂ : (of1080p60 [.colorRange "full".toList, .colorRange "auto".toList]).run gxlPlatform =
    some _ := rfl
  exact absurd (h gxlPlatform _ _ _ _ (ready_gxlPlatform _) hrun₁ hrun₂ rfl rfl rfl) (by decide)

end Hdmi
