import Akbuilder.Media.Decoders
import Mathlib.Algebra.Group.Nat.Defs

/-!
# Durations from the timing of the stream

H.264 and H.265 derive the frame duration from the VUI timing of the stream: two numbers that the
stream chooses. The quotient is computed in 64 bits and stored in 32, and the hint delivers it as an
`int`. Only H.264 has a guard against a high frame rate, and no decoder has one against a low rate.

## Main definitions

* `TimingRun`: one run of the code that derives a duration from the timing
* `TimingRun.quotient`: the duration over the integers
* `TimingRun.Exact`: a duration that is stored and hinted is exact

## Main results

* `TimingRun.exact_iff`: the hinted durations are exact where the quotient is one of an `int`
* `TimingRun.le_of_guarded`: the H.264 guard admits no rate of more than 60 fps, its product
  wrapped or not
-/

namespace Media

/-- **The stored duration** is the quotient, narrowed. -/
theorem toNat_timingDuration {fields : UInt64} (hfields : fields.toNat ≤ 2) (n ts : UInt32) :
    (timingDuration fields n ts).toNat =
      96000 * (fields.toNat * n.toNat) / ts.toNat % 2 ^ 32 := by
  have hn := n.toNat_lt
  have hle : fields.toNat * n.toNat ≤ 2 * 2 ^ 32 := Nat.mul_le_mul hfields hn.le
  -- the product of 64 bits does not wrap
  have hprod : (96000 * fields * n.toUInt64).toNat = 96000 * (fields.toNat * n.toNat) := by
    rw [UInt64.toNat_mul, UInt64.toNat_mul, UInt32.toNat_toUInt64]
    have h₁ : (96000 : UInt64).toNat = 96000 := rfl
    rw [h₁, Nat.mod_eq_of_lt (a := 96000 * fields.toNat) (by omega), Nat.mul_assoc,
      Nat.mod_eq_of_lt (by omega)]
  rw [timingDuration, UInt64.toNat_toUInt32, UInt64.toNat_div, hprod, UInt32.toNat_toUInt64]

/-- One run of the code that derives a duration from the timing of the stream. -/
inductive TimingRun
  | h264Multi (v : H264Multi.Vars) (x : H264Multi.Vui)
  | h264 (v : H264.Vars) (x : H264.Params)
  | h265 (v : H265.Vars) (x : H265.Vui)

namespace TimingRun

/-- The fields of a frame: a tick of H.264 is one field. -/
def fields : TimingRun → ℕ
  | h264Multi _ _ | h264 _ _ => 2
  | h265 _ _ => 1

def numUnitsInTick : TimingRun → UInt32
  | h264Multi _ x => x.numUnitsInTick
  | h264 _ x => x.numUnitsInTick
  | h265 _ x => x.numUnitsInTick

def timeScale : TimingRun → UInt32
  | h264Multi _ x => x.timeScale
  | h264 _ x => x.timeScale
  | h265 _ x => x.timeScale

/-- `frame_dur` after the run, and whether a hint was requested for it. -/
def result : TimingRun → Duration × Bool
  | h264Multi v x => ((H264Multi.vuiConfig v x).1.frameDur, (H264Multi.vuiConfig v x).2)
  | h264 v x => ((H264.setParams v x).1.frameDur, (H264.setParams v x).2)
  | h265 v x => ((H265.sliceHeader v x).1.frameDur, (H265.sliceHeader v x).2)

/-- The duration over the integers. -/
def quotient (r : TimingRun) : ℕ :=
  96000 * (r.fields * r.numUnitsInTick.toNat) / r.timeScale.toNat

/-- The timing passes the guards of the decoder. -/
def Guarded : TimingRun → Prop
  | h264Multi v x =>
    x.vuiStatus &&& 2 ≠ 0 ∧
      ((x.numUnitsInTick * 120 ≥ x.timeScale ∧ (v.config.syncOutside = false ∨ v.frameDur = 0)) ∧
        x.numUnitsInTick ≠ 0 ∧ x.timeScale ≠ 0) ∧
      (v.config.useIdrFramerate = true ∨ x.fixedFrameRateFlag ≠ 0 ∨ v.frameDur = 0 ∨
        v.durationFromPtsDone = false)
  | h264 v x =>
    x.fails = false ∧ x.seqInfo &&& 2 ≠ 0 ∧
      ((x.numUnitsInTick * 120 ≥ x.timeScale ∧ (v.config.syncOutside = false ∨ v.frameDur = 0)) ∧
        x.numUnitsInTick ≠ 0 ∧ x.timeScale ≠ 0) ∧
      (v.config.useIdrFramerate = true ∨ v.frameDur = 0 ∨ v.durationFromPtsDone = false ∨
        v.vh264Running = true)
  | h265 _ x => x.timeScale ≠ 0 ∧ x.numUnitsInTick ≠ 0

/-- The duration in use is not the one of the stream already. -/
def Differs : TimingRun → Prop
  | r@(h264Multi v _) => v.frameDur.toNat ≠ r.quotient % 2 ^ 32
  | r@(h264 v _) => (v.frameDur * 2).toNat ≠ r.quotient % 2 ^ 32
  | h265 _ _ => True

/-- **A hinted duration is exact**: it is the quotient over the integers, positive, and an `int`;
and for H.264 the frame rate is at most 60 fps. -/
def Exact (r : TimingRun) : Prop :=
  r.result.2 = true →
    r.result.1.toNat = r.quotient ∧ 1 ≤ r.result.1.toNat ∧ r.result.1.toNat < 2 ^ 31 ∧
      (r.fields = 2 → r.timeScale.toNat ≤ 120 * r.numUnitsInTick.toNat)

/-- The quotient of a timing that is going to be hinted is positive, and an `int`. -/
def Fits (r : TimingRun) : Prop :=
  r.Guarded → r.Differs → 1 ≤ r.quotient ∧ r.quotient < 2 ^ 31

variable {r : TimingRun}

/-- The duration that a request stores. -/
def duration (r : TimingRun) : Duration :=
  timingDuration (.ofNat r.fields) r.numUnitsInTick r.timeScale

theorem toNat_duration (r : TimingRun) : r.duration.toNat = r.quotient % 2 ^ 32 := by
  have hfields : (UInt64.ofNat r.fields).toNat = r.fields := by cases r <;> rfl
  have hle : r.fields ≤ 2 := by cases r <;> simp [fields]
  rw [duration, toNat_timingDuration (by omega), hfields, quotient]

/-- A duration is the stored one if the quotients agree modulo `2 ^ 32`. -/
theorem toNat_ne_iff (d : Duration) : d.toNat ≠ r.quotient % 2 ^ 32 ↔ d ≠ r.duration := by
  rw [← toNat_duration, ne_eq, UInt32.toNat_inj]

/-- **A hint is requested** for a guarded timing that differs. -/
theorem requested_iff : r.result.2 = true ↔ r.Guarded ∧ r.Differs := by
  cases r with
  | h264Multi v x =>
    simp only [result, H264Multi.vuiConfig, Guarded, Differs, toNat_ne_iff]
    split
    · next hg =>
      rw [and_iff_right hg]
      split
      · next hd => exact iff_of_true rfl hd
      · next hd => exact iff_of_false Bool.false_ne_true hd
    · next hg => exact iff_of_false Bool.false_ne_true fun h => hg h.1
  | h264 v x =>
    simp only [result, H264.setParams, Guarded, Differs, toNat_ne_iff]
    split
    · next hg =>
      rw [and_iff_right hg]
      split
      · next hd => exact iff_of_true rfl hd
      · next hd => exact iff_of_false Bool.false_ne_true hd
    · next hg => exact iff_of_false Bool.false_ne_true fun h => hg h.1
  | h265 v x =>
    simp only [result, H265.sliceHeader, Guarded, Differs]
    split
    · next hg => simp [hg]
    · next hg => simp [hg]

/-- **What a request stores** is the quotient, narrowed. -/
theorem stored_of_requested (h : r.result.2 = true) : r.result.1 = r.duration := by
  cases r with
  | h264Multi v x =>
    simp only [result, H264Multi.vuiConfig] at h ⊢
    split_ifs at h ⊢
    rfl
  | h264 v x =>
    simp only [result, H264.setParams] at h ⊢
    split_ifs at h ⊢
    rfl
  | h265 v x =>
    simp only [result, H265.sliceHeader] at h ⊢
    split_ifs at h ⊢
    rfl

theorem timeScale_pos (h : r.Guarded) : 0 < r.timeScale.toNat := by
  have hne : r.timeScale ≠ 0 := by
    cases r with
    | h264Multi v x => exact h.2.1.2.2
    | h264 v x => exact h.2.2.1.2.2
    | h265 v x => exact h.1
  exact Nat.pos_of_ne_zero fun h0 => hne (UInt32.toNat_inj.mp h0)

/-- **The H.264 guard holds over the integers**: a product that wraps is smaller, so it admits no
timing that the full product would not. -/
theorem le_of_guarded (h : r.Guarded) (hfields : r.fields = 2) :
    r.timeScale.toNat ≤ 120 * r.numUnitsInTick.toNat := by
  have hwrap : r.timeScale ≤ r.numUnitsInTick * 120 := by
    cases r with
    | h264Multi v x => exact h.2.1.1.1
    | h264 v x => exact h.2.2.1.1.1
    | h265 v x => simp [fields] at hfields
  have hmod : (r.numUnitsInTick * 120).toNat ≤ r.numUnitsInTick.toNat * 120 := by
    rw [UInt32.toNat_mul]
    exact Nat.mod_le _ _
  have hle := UInt32.le_iff_toNat_le.mp hwrap
  omega

/-- **The hinted durations are exact** where the quotient is positive and one of an `int`. -/
theorem exact_iff (r : TimingRun) : r.Exact ↔ r.Fits := by
  constructor
  · intro h hguard hdiffers
    obtain ⟨hvalue, hpos, hint, -⟩ := h (requested_iff.mpr ⟨hguard, hdiffers⟩)
    rw [hvalue] at hpos hint
    exact ⟨hpos, hint⟩
  · intro h hreq
    obtain ⟨hguard, hdiffers⟩ := requested_iff.mp hreq
    obtain ⟨hpos, hint⟩ := h hguard hdiffers
    -- nothing is lost by the narrowing
    have hvalue : r.result.1.toNat = r.quotient := by
      rw [stored_of_requested hreq, toNat_duration, Nat.mod_eq_of_lt (by omega)]
    exact ⟨hvalue, by omega, by omega, le_of_guarded hguard⟩

/-- For H.264 the quotient is positive: only long frames are out of range. -/
theorem le_quotient (h : r.Guarded) (hfields : r.fields = 2) : 1600 ≤ r.quotient := by
  have hle := le_of_guarded h hfields
  rw [quotient, hfields, Nat.le_div_iff_mul_le (timeScale_pos h)]
  omega

/-- H.265 hints the duration zero for a rate of 96001 fps. -/
theorem not_exact : ¬ ∀ r : TimingRun, r.Exact := by
  intro h
  obtain ⟨-, hpos, -⟩ := h (.h265 ⟨0, 0, false⟩ ⟨1, 96001⟩) rfl
  exact absurd hpos (by decide)

end TimingRun

end Media
