import Akbuilder.Hdmi.Packets
import Akbuilder.Lib.Run

/-!
# Forcing the RGB range

A store of an RGB range writes the range, and with it the colour format of the AVI infoframe and the
vendor-specific infoframe, both from the mode alone. So it changes the range only where these two
already say what the mode says. They do after a mode set for an HDMI sink, but not in Dolby Vision,
nor in 3D, nor for a DVI sink that gets RGB in place of the chosen format.

## Main definitions

* `OnlyRange`: nothing but the range is changed
* `Settled`: format and vendor-specific infoframe say what the mode says

## Main results

* `onlyRange_iff`: a store that has an effect changes only the range if and only if the state is
  settled
* `settled_setVsifPkt`, `settled_setDisplay`, `not_settled_dolbyVision`, `not_settled_set3d`: the
  states that the writers of the infoframe leave
* `onlyRange_of_plain`: without Dolby Vision, 3D and DVI, every store changes only the range
-/

open BitField

namespace BitField.Setter

variable {S : Setter} {r v offset len i : Nat}

/-- A store that changes nothing. -/
theorem set_eq_self_iff : S.set r v offset len = r ↔ get r offset len = get v 0 len := by
  constructor
  · intro h
    rw [← S.get_set (r := r) (v := v), h]
  · intro h
    -- bit by bit: those of the field agree, and `set` keeps the others
    apply Nat.eq_of_testBit_eq
    intro i
    rw [S.testBit_set]
    split
    · next hi =>
      have hbit := congrArg (Nat.testBit · (i - offset)) h
      simp only [testBit_get, Nat.zero_add, show i - offset < len by omega, decide_true,
        Bool.true_and, show offset + (i - offset) = i by omega] at hbit
      exact hbit.symm
    · rfl

end BitField.Setter

namespace Hdmi

namespace Transmitter

/-- **Nothing but the range is changed**: the setting, and the ranges of the AVI infoframe. -/
structure OnlyRange (t t' : Transmitter) : Prop where
  rest : t' = { t with
    dev := { t.dev with
      forceRgbRange := t'.dev.forceRgbRange
      avi := { t.dev.avi with
        FC_AVICONF2 := t'.dev.avi.FC_AVICONF2, FC_AVICONF3 := t'.dev.avi.FC_AVICONF3 } } }
  rgb : ∀ i, ¬ (2 ≤ i ∧ i < 4) →
    t'.dev.avi.FC_AVICONF2.testBit i = t.dev.avi.FC_AVICONF2.testBit i
  ycc : ∀ i, ¬ (2 ≤ i ∧ i < 4) →
    t'.dev.avi.FC_AVICONF3.testBit i = t.dev.avi.FC_AVICONF3.testBit i

/-- The packet for the HDMI code of a 4K mode is sent. -/
structure HdmiVic (v : Vend) (n : Nat) : Prop where
  ieee : v.FC_VSDIEEEID0 = 0x03 ∧ v.FC_VSDIEEEID1 = 0x0c ∧ v.FC_VSDIEEEID2 = 0x00
  payload0 : v.FC_VSDPAYLOAD0 = 0x20
  payload1 : v.FC_VSDPAYLOAD1 = n
  size : v.FC_VSDSIZE = 0x05
  vic : v.FC_AVIVID = 0
  sent : v.vsdAuto = true ∧ v.FC_DATAUTO1 = 0 ∧ v.FC_DATAUTO2 = 0x10 ∧ v.vsdTxEn = true

/-- **A settled state**: the colour format of the AVI infoframe is `para->cs`, and the
vendor-specific infoframe is the packet for the HDMI code of a 4K mode, or none for other modes. -/
structure Settled (P : PacketPlatform) (t : Transmitter) : Prop where
  format : get t.dev.avi.FC_AVICONF0 0 2 = get t.dev.cs.toNat 0 2 ∧
    get t.dev.avi.FC_AVICONF0 7 1 = 0
  vend : match vic4k P t.dev.curVIC with
    | none => t.vend.vsdAuto = false
    | some n => HdmiVic t.vend n

variable {P : PacketPlatform} {t : Transmitter} {v : Vend} {n : Nat}

/-! ## The store -/

theorem setPacket_none_eq_self : v.setPacket P none = v ↔ v.vsdAuto = false := by
  constructor
  · intro h
    rw [← h]
    rfl
  · intro h
    rw [Vend.setPacket, ← h]

theorem setPacket_vic4k_eq_self {vic : Nat} (hvic : vic4k P vic = some n) :
    v.setPacket P (some (vsifPacket P vic 0x05)) = v ↔ HdmiVic v n := by
  have hset : v.setPacket P (some (vsifPacket P vic 0x05)) =
      { v with
        FC_VSDIEEEID0 := 0x03, FC_VSDIEEEID1 := 0x0c, FC_VSDIEEEID2 := 0x00
        FC_VSDPAYLOAD0 := 0x20, FC_VSDPAYLOAD1 := n, FC_VSDSIZE := 0x05, FC_AVIVID := 0
        vsdAuto := true, FC_DATAUTO1 := 0, FC_DATAUTO2 := 0x10, vsdTxEn := true } := by
    simp [Vend.setPacket, vsifPacket, hvic]
  rw [hset]
  constructor
  · intro h
    rw [← h]
    exact ⟨⟨rfl, rfl, rfl⟩, rfl, rfl, rfl, rfl, rfl, rfl, rfl, rfl⟩
  · rintro ⟨⟨h₀, h₁, h₂⟩, h₃, h₄, h₅, h₆, h₇, h₈, h₉, h₁₀⟩
    cases v
    simp_all only

/-- The vendor-specific infoframe is rewritten as it was. -/
theorem setVsifPkt_eq_self {vic : Nat} (hgxl : P.gxl = true) : v.setVsifPkt P vic = v ↔
    match vic4k P vic with
    | none => v.vsdAuto = false
    | some n => HdmiVic v n := by
  rw [Vend.setVsifPkt, if_pos hgxl]
  cases hvic : vic4k P vic with
  | none => exact setPacket_none_eq_self
  | some n => exact setPacket_vic4k_eq_self hvic

/-- The colour format is rewritten as it was. -/
theorem set_format_eq_self {r cs : Nat} : P.reg.set (P.reg.set r cs 0 2) 0 7 1 = r ↔
    get r 0 2 = get cs 0 2 ∧ get r 7 1 = 0 := by
  constructor
  · intro h
    constructor
    · rw [← h, P.reg.get_set_of_disjoint (by omega), P.reg.get_set]
    · rw [← h, P.reg.get_set]
      rfl
  · rintro ⟨hcs, hbit⟩
    rw [Setter.set_eq_self_iff.mpr hcs, Setter.set_eq_self_iff.mpr hbit]

theorem OnlyRange.refl (t : Transmitter) : OnlyRange t t :=
  ⟨rfl, fun _ _ => rfl, fun _ _ => rfl⟩

/-- A packet for a range that changes only the range. -/
theorem onlyRange_setVsifPkt (hgxl : P.gxl = true) (i : Nat) :
    OnlyRange t (setVsifPkt P { t with dev := { t.dev with forceRgbRange := i } }
      .EOTF_T_NULL false) ↔ Settled P t := by
  constructor
  · intro h
    -- the store writes the format and the packet, and both have to be there already
    have havi := congrArg (fun t => t.dev.avi.FC_AVICONF0) h.rest
    have hvend := congrArg Transmitter.vend h.rest
    simp only [setVsifPkt, Hdmi.setVsifPkt, hgxl, if_true] at havi
    exact ⟨set_format_eq_self.mp havi, (setVsifPkt_eq_self hgxl).mp hvend⟩
  · intro h
    have havi := (set_format_eq_self (P := P)).mpr h.format
    have hvend := (setVsifPkt_eq_self hgxl).mpr h.vend
    refine ⟨?_, ?_, ?_⟩
    · simp only [setVsifPkt, Hdmi.setVsifPkt, hgxl, if_true, havi, hvend, reduceCtorEq, if_false]
    · intro j hj
      simp only [setVsifPkt, Hdmi.setVsifPkt, hgxl, if_true, reduceCtorEq, if_false]
      exact (P.reg.testBit_set ..).trans (if_neg hj)
    · intro j hj
      simp only [setVsifPkt, Hdmi.setVsifPkt, hgxl, if_true, reduceCtorEq, if_false]
      exact (P.reg.testBit_set ..).trans (if_neg hj)

/-- **A store changes only the range** if and only if it has no effect or the state is settled. -/
theorem onlyRange_iff (P : PacketPlatform) (t : Transmitter) (mode : List Char) :
    OnlyRange t (forceColorRangeStore P t mode) ↔
      (P.gxl = true → (∃ i, lookupName rgbRangeNames mode = some i ∧ t.dev.forceRgbRange ≠ i) →
        Settled P t) := by
  unfold forceColorRangeStore
  cases lookupName rgbRangeNames mode with
  | none => exact iff_of_true (.refl t) fun _ ⟨_, hi, _⟩ => absurd hi (by simp)
  | some i =>
    dsimp only
    by_cases hi : t.dev.forceRgbRange ≠ i
    · rw [if_pos hi]
      cases hgxl : P.gxl with
      | true =>
        rw [onlyRange_setVsifPkt hgxl]
        exact ⟨fun h _ _ => h, fun h => h rfl ⟨i, rfl, hi⟩⟩
      | false =>
        -- no packet is written
        refine iff_of_true ?_ fun h => absurd h (by simp)
        simp only [setVsifPkt, Hdmi.setVsifPkt, Vend.setVsifPkt, hgxl, reduceCtorEq, if_false]
        exact ⟨rfl, fun _ _ => rfl, fun _ _ => rfl⟩
    · rw [if_neg hi]
      refine iff_of_true (.refl t) ?_
      rintro _ ⟨j, hj, hne⟩
      exact absurd (Option.some.inj hj ▸ hne) hi

/-! ## The states that the writers leave -/

theorem vend_setVsifPkt (hgxl : P.gxl = true) (v : Vend) (vic : Nat) :
    match vic4k P vic with
    | none => (v.setVsifPkt P vic).vsdAuto = false
    | some n => HdmiVic (v.setVsifPkt P vic) n := by
  rw [Vend.setVsifPkt, if_pos hgxl]
  cases hvic : vic4k P vic with
  | none => rfl
  | some n =>
    simp only [Option.isSome_some, if_true, Vend.setPacket, vsifPacket, hvic, Option.getD_some]
    exact ⟨⟨rfl, rfl, rfl⟩, rfl, rfl, rfl, rfl, rfl, rfl, rfl, rfl⟩

/-- **A packet for a range, or for a picture that is not Dolby Vision**, settles the state. -/
theorem settled_setVsifPkt (hgxl : P.gxl = true) {type : Eotf}
    (htype : type ≠ .EOTF_T_DOLBYVISION) (tunnelMode : Bool) :
    Settled P (setVsifPkt P t type tunnelMode) := by
  rw [setVsifPkt, if_neg htype]
  refine ⟨?_, vend_setVsifPkt hgxl t.vend t.dev.curVIC⟩
  simp only [Hdmi.setVsifPkt, hgxl, if_true]
  constructor
  · rw [P.reg.get_set_of_disjoint (by omega), P.reg.get_set]
  · rw [P.reg.get_set]
    rfl

theorem setPacket_sent (v : Vend) (p : VendorPacket) :
    (v.setPacket P (some p)).vsdAuto = true ∧ (v.setPacket P (some p)).FC_VSDPAYLOAD0 = p.DB3 := by
  refine ⟨rfl, ?_⟩
  simp only [Vend.setPacket]
  split <;> split <;> rfl

/-- A settled packet says that the mode is a 4K mode. -/
theorem Settled.of_sent (h : Settled P t) (hsent : t.vend.vsdAuto = true) :
    ∃ n, vic4k P t.dev.curVIC = some n ∧ HdmiVic t.vend n := by
  have hvend := h.vend
  cases hvic : vic4k P t.dev.curVIC with
  | none =>
    rw [hvic] at hvend
    exact absurd (hsent.symm.trans hvend) (by decide)
  | some n =>
    rw [hvic] at hvend
    exact ⟨n, rfl, hvend⟩

/-- **Dolby Vision** is not settled: its packet is longer than that of a 4K mode. -/
theorem not_settled_dolbyVision (hgxl : P.gxl = true) (tunnelMode : Bool) :
    ¬ Settled P (setVsifPkt P t .EOTF_T_DOLBYVISION tunnelMode) := by
  intro h
  simp only [setVsifPkt, hgxl, if_true] at h
  obtain ⟨n, hvic, hpacket⟩ := h.of_sent rfl
  have hsize := hpacket.size
  dsimp only at hvic
  simp only [Vend.setPacket, vsifPacket, hvic, Option.isSome_some, if_true] at hsize
  exact absurd hsize (show 0x18 ≠ 0x05 by decide)

/-- **A 3D layout** is not settled: its packet is not that of a 4K mode. -/
theorem not_settled_set3d {type : Nat} (htype : type ≠ P.T3D_DISABLE) (param : Nat) :
    ¬ Settled P { t with vend := t.vend.set3d P type param } := by
  intro h
  simp only [Vend.set3d, if_neg htype] at h
  obtain ⟨n, -, hpacket⟩ := h.of_sent rfl
  have hpayload := hpacket.payload0
  dsimp only at hpayload
  rw [(setPacket_sent ..).2] at hpayload
  exact absurd hpayload (show 0x40 ≠ 0x20 by decide)

/-- The names of the 4K modes mean the same codes in both files that use them. -/
structure Names (P : PacketPlatform) : Prop where
  p30 : P.HDMI_3840x2160p30_16x9 = P.code .HDMI_4k2k_30
  p25 : P.HDMI_3840x2160p25_16x9 = P.code .HDMI_4k2k_25
  p24 : P.HDMI_3840x2160p24_16x9 = P.code .HDMI_4k2k_24
  smpte24 : P.HDMI_4096x2160p24_256x135 = P.code .HDMI_4k2k_smpte_24
  ne_zero : ∀ n, vic4k P n ≠ none → n ≠ 0

theorem vic4k_eq_none (hnames : Names P) {vic : Nat} (hvic : vic4k P vic = none) :
    ¬ (vic = P.code .HDMI_4k2k_30 ∨ vic = P.code .HDMI_4k2k_25 ∨ vic = P.code .HDMI_4k2k_24 ∨
      vic = P.code .HDMI_4k2k_smpte_24) := by
  rw [vic4k, hnames.p30, hnames.p25, hnames.p24, hnames.smpte24] at hvic
  grind

theorem vic4k_eq_some (hnames : Names P) {vic : Nat} (hvic : vic4k P vic = some n) :
    (vic = P.code .HDMI_4k2k_30 ∨ vic = P.code .HDMI_4k2k_25 ∨ vic = P.code .HDMI_4k2k_24 ∨
      vic = P.code .HDMI_4k2k_smpte_24) ∧
    ∀ v : Vend, v.setVendSpecInfofram P vic =
      v.setPacket P (some { DB3 := 0x20, DB4 := n, DB5 := 0, HB2 := 0x5 }) := by
  have hne : vic ≠ 0 := hnames.ne_zero vic (by simp [hvic])
  simp only [Vend.setVendSpecInfofram, if_neg hne]
  rw [vic4k, hnames.p30, hnames.p25, hnames.p24, hnames.smpte24] at hvic
  grind

/-- The packet at the end of a mode set is that of a 4K mode, or none. -/
theorem vend_displayVend (hnames : Names P) (hflat : t.flag3d = false) (videoCode : Nat) :
    match vic4k P videoCode with
    | none => ((t.displayVend P videoCode).setSpdInfo P).vsdAuto = false
    | some n => HdmiVic ((t.displayVend P videoCode).setSpdInfo P) n := by
  unfold displayVend
  cases hvic : vic4k P videoCode with
  | none =>
    dsimp only
    rw [if_neg (vic4k_eq_none hnames hvic), if_pos hflat, Vend.setSpdInfo]
    split <;> rfl
  | some n =>
    obtain ⟨h4k, hspec⟩ := vic4k_eq_some hnames hvic
    dsimp only
    rw [if_pos h4k, hspec, Vend.setSpdInfo]
    -- with a source packet, the period is written once more
    have hauto : P.reg.set 0x10 0x1 4 4 = 0x10 := Setter.set_eq_self_iff.mpr (by decide)
    split
    · exact ⟨⟨rfl, rfl, rfl⟩, rfl, rfl, rfl, rfl, rfl, rfl, hauto, rfl⟩
    · exact ⟨⟨rfl, rfl, rfl⟩, rfl, rfl, rfl, rfl, rfl, rfl, rfl, rfl⟩

theorem format_configHdmi20Tx {d : Device} (hcs : d.cs ≠ .RESERVED) :
    get (configHdmi20Tx P.toPlatform d).FC_AVICONF0 7 1 = 0 := by
  have hformat : (configHdmi20Tx P.toPlatform d).FC_AVICONF0 =
      P.reg.set (((d.cs.toNat >>> 2) &&& 0x1) <<< 7 ||| 1 <<< 6 ||| 0x2) d.cs.indicator 0 2 := by
    unfold configHdmi20Tx
    split <;> rfl
  rw [hformat, P.reg.get_set_of_disjoint (by omega)]
  revert hcs
  cases d.cs <;> decide

/-- The colour format after a mode set has no third bit. -/
theorem format_modeAvi {d : Device} (hgxl : P.gxl = true) (hcs : d.cs ≠ .RESERVED)
    (hfmt : P.fmtParas d.curVIC = true) :
    get (modeAvi P.toPlatform d).FC_AVICONF0 7 1 = 0 := by
  simp only [modeAvi, Hdmi.setHw, hfmt, if_true]
  split
  · -- the packet for the range writes the bit
    simp only [Hdmi.setVsifPkt, hgxl, if_true]
    rw [P.reg.get_set]
    rfl
  · simp only [changeAviPacket]
    split
    · -- only the low bits of the mode's own format are replaced
      dsimp only
      rw [P.reg.get_set_of_disjoint (by omega), format_configHdmi20Tx hcs]
    · dsimp only
      cases d.cs <;> decide

/-- The video codes of the table. -/
def tableCodes (P : Platform) : List Nat := videoParams.map fun param => P.code param.VIC

/-- **A mode set** settles the state, for an HDMI sink or in RGB, and outside of 3D. -/
theorem settled_setDisplay (hP : P.Ready (tableCodes P.toPlatform)) (hnames : Names P)
    (hflat : t.flag3d = false) {vic videoCode : Nat}
    (hset : 0 ≤ (setDisplay P t vic videoCode).1)
    (hhdmi : t.dev.rxCap.IsDvi → (setDisplay P t vic videoCode).2.dev.cs = .RGB444) :
    Settled P (setDisplay P t vic videoCode).2 := by
  obtain ⟨hparam, hsupport⟩ := setDisplay_nonneg.mp hset
  obtain ⟨param, hparam⟩ := Option.isSome_iff_exists.mp hparam
  obtain ⟨hmem, hcode⟩ := code_of_getVideoParam hparam
  obtain ⟨d', hd', he⟩ := setDisplay_of_supported vic hparam hsupport
  have hcs : d'.cs ≠ .RESERVED := by
    rw [hd']
    exact outputSpace_ne_reserved (sinkColor_ne_reserved P.toPlatform _ _) _
  have hvic : d'.curVIC = videoCode := by rw [hd']
  have hdvi : d'.rxCap = t.dev.rxCap := by rw [hd']; rfl
  have hfmt : P.fmtParas d'.curVIC = true := by
    rw [hvic, ← hcode]
    exact hP.fmtParas _ (List.mem_map_of_mem hmem)
  have hvend := vend_displayVend hnames hflat videoCode
  simp only [setDisplay, he] at hhdmi ⊢
  refine ⟨?_, by dsimp only; rwa [hvic]⟩
  have hlow : get d'.cs.toNat 0 2 = d'.cs.indicator := by
    revert hcs
    cases d'.cs <;> decide
  dsimp only at hhdmi ⊢
  rw [hlow, hdmiDviConfig]
  split
  · next hd =>
    -- the switch to DVI writes RGB
    have hrgb : d'.cs = .RGB444 := hhdmi (hdvi ▸ hd)
    have hformat : (cscConfig P.toPlatform (modeAvi P.toPlatform d') .RGB444).format = 0 :=
      format_cscConfig
    refine ⟨by rw [hrgb]; exact hformat, ?_⟩
    show get (P.reg.set (P.reg.set _ _ 7 1) _ 0 2) 7 1 = 0
    rw [P.reg.get_set_of_disjoint (by omega), P.reg.get_set]
    rfl
  · exact ⟨(modeAvi_eq hfmt hP.gxl hcs).1, format_modeAvi hP.gxl hcs hfmt⟩

/-! ## Runs -/

/-- The actions that keep a state settled: mode sets that succeed, for an HDMI sink; stores; and
refreshes for a picture that is not Dolby Vision. -/
def Plain (P : PacketPlatform) (t : Transmitter) : Action → Prop
  | .display rxCap cs cd vic videoCode =>
    ¬ rxCap.IsDvi ∧
      0 ≤ (setDisplay P { t with dev := { t.dev with rxCap, cs, cd } } vic videoCode).1
  | .colorSpace vic mode => ∀ newMode, lookupName colorSpaceNames mode = some newMode →
    0 ≤ (setDisplay P { t with dev := { t.dev with forceColorSpace := newMode } } vic
      t.dev.curVIC).1
  | .colorRange _ => True
  | .colorDepth vic mode =>
    0 ≤ (setDisplay P { t with dev := { t.dev with forceColorDepth := mode.toNat } } vic
      t.dev.curVIC).1
  | .vsif type _ => type ≠ .EOTF_T_DOLBYVISION
  | .config3d _ => False

/-- Settled for an HDMI sink, and not in 3D. -/
structure Flat (P : PacketPlatform) (t : Transmitter) : Prop where
  settled : Settled P t
  hdmi : ¬ t.dev.rxCap.IsDvi
  flag3d : t.flag3d = false

theorem rxCap_setDisplay {vic videoCode : Nat} (hset : 0 ≤ (setDisplay P t vic videoCode).1) :
    (setDisplay P t vic videoCode).2.dev.rxCap = t.dev.rxCap := by
  obtain ⟨hparam, hsupport⟩ := setDisplay_nonneg.mp hset
  obtain ⟨param, hparam⟩ := Option.isSome_iff_exists.mp hparam
  obtain ⟨d', rfl, he⟩ := setDisplay_of_supported vic hparam hsupport
  simp only [setDisplay, he]
  rfl

theorem flat_setDisplay (hP : P.Ready (tableCodes P.toPlatform)) (hnames : Names P)
    (hflag : t.flag3d = false) (hhdmi : ¬ t.dev.rxCap.IsDvi) {vic videoCode : Nat}
    (hset : 0 ≤ (setDisplay P t vic videoCode).1) : Flat P (setDisplay P t vic videoCode).2 := by
  refine ⟨settled_setDisplay hP hnames hflag hset fun hdvi => absurd hdvi hhdmi, ?_, hflag⟩
  rwa [rxCap_setDisplay hset]

theorem Flat.step (hP : P.Ready (tableCodes P.toPlatform)) (hnames : Names P) (h : Flat P t)
    {a : Action} (ha : Plain P t a) : Flat P (step P t a) := by
  cases a with
  | display rxCap cs cd vic videoCode =>
    exact flat_setDisplay (t := { t with dev := { t.dev with rxCap, cs, cd } }) hP hnames h.flag3d
      ha.1 ha.2
  | colorSpace vic mode =>
    simp only [Transmitter.step, forceColorSpaceStore]
    cases hmode : lookupName colorSpaceNames mode with
    | none => exact h
    | some newMode =>
      dsimp only
      split
      · exact flat_setDisplay (t := { t with dev := { t.dev with forceColorSpace := newMode } })
          hP hnames h.flag3d h.hdmi (ha newMode hmode)
      · exact h
  | colorRange mode =>
    simp only [Transmitter.step, forceColorRangeStore]
    cases lookupName rgbRangeNames mode with
    | none => exact h
    | some i =>
      dsimp only
      split
      · exact ⟨settled_setVsifPkt hP.gxl (by decide) false, h.hdmi, h.flag3d⟩
      · exact h
  | colorDepth vic mode =>
    simp only [Transmitter.step, forceColorDepthStore]
    split
    · exact flat_setDisplay (t := { t with dev := { t.dev with forceColorDepth := mode.toNat } })
        hP hnames h.flag3d h.hdmi ha
    · exact h
  | vsif type tunnelMode =>
    refine ⟨settled_setVsifPkt hP.gxl ha tunnelMode, ?_, ?_⟩ <;>
      simp only [Transmitter.step, setVsifPkt, if_neg (show type ≠ .EOTF_T_DOLBYVISION from ha)]
    · exact h.hdmi
    · exact h.flag3d
  | config3d layout => exact absurd ha id

/-- **In a run of plain actions**, every store of a range changes only the range. -/
theorem onlyRange_of_plain (hP : P.Ready (tableCodes P.toPlatform)) (hnames : Names P)
    {t₀ : Transmitter} (h₀ : Flat P t₀) {actions : List Action}
    (hrun : Transition.Run (fun t a => some (step P t a)) (Plain P) t₀ actions t)
    (mode : List Char) : OnlyRange t (forceColorRangeStore P t mode) := by
  -- by induction on the run: every plain action keeps what the store relies on
  have hflat : Flat P t := hrun.invariant h₀ fun s a s' hs ha hstep =>
    Option.some.inj hstep ▸ hs.step hP hnames ha
  unfold forceColorRangeStore
  cases lookupName rgbRangeNames mode with
  | none => exact .refl t
  | some i =>
    dsimp only
    split
    · exact (onlyRange_setVsifPkt hP.gxl i).mpr hflat.settled
    · exact .refl t

/-! ## A 3D layout is lost -/

/-- A GXL box. -/
def gxlPackets : PacketPlatform :=
  { gxlPlatform with
    HDMI_3840x2160p30_16x9 := 95, HDMI_3840x2160p25_16x9 := 94, HDMI_3840x2160p24_16x9 := 93
    HDMI_4096x2160p24_256x135 := 98, T3D_FRAME_PACKING := 0, T3D_TAB := 6, T3D_SBS_HALF := 8
    T3D_DISABLE := 15, fmtVic := fun vic => vic % 256, vendData := false }

/-- 1080p60, with the halves of the picture on top of each other. -/
theorem not_onlyRange : ¬ ∀ (P : PacketPlatform) (t : Transmitter) (mode : List Char),
    Reachable P t → OnlyRange t (forceColorRangeStore P t mode) := by
  intro hall
  let off : Transmitter :=
    boot (hdmiSink 0x30) .RGB444 .b24 ⟨0, 0, 0, 0, 0, 0, 0, 0, false, 0, 0, false⟩
  let actions : List Action := [.display (hdmiSink 0x30) .RGB444 .b24 0 16, .config3d .tb]
  have honly := hall gxlPackets (actions.foldl (step gxlPackets) off) "full".toList
    ⟨_, _, _, _, actions, rfl⟩
  have hvend := congrArg (fun t => t.vend.vsdAuto) honly.rest
  exact absurd hvend (by decide)

end Transmitter

end Hdmi
