import Akbuilder.Vout.Core
import Mathlib

/-!
# The hint uevents of the two kernels

The 3.14 kernel announces a frame duration from `tv_set_vframe_rate_hint`, the 4.9 kernel from
`vout_func_set_vframe_rate_hint`. Both print it into a buffer of 32 bytes, after a key that a daemon
in user space matches. They convert the duration differently, and differ on the negative ones: the
3.14 kernel prints these as 64-bit unsigned numbers, which the buffer does not hold.

## Main definitions

* `Tv.uevent`: the uevent of the 3.14 kernel
* `decodeHint`: the index and the duration of a uevent
* `Agree d`: both kernels announce `d`, in one text, and it can be read back

## Main results

* `agree_iff`: the kernels agree on the durations that are not negative
* `agree_of_receive`: they agree on a frame duration below `2 ^ 31`
-/

namespace Vout

/-! ## Decimal numbers -/

section Decimal

variable {n k : ℕ}

theorem length_repr_le (hk : 0 < k) (h : n < 10 ^ k) : n.repr.toList.length ≤ k := by
  rw [Nat.toList_repr]
  exact (Nat.length_toDigits_le_iff (by decide) hk).mpr h

theorem lt_length_repr (hk : 0 < k) (h : 10 ^ k ≤ n) : k < n.repr.toList.length := by
  by_contra hlen
  rw [Nat.toList_repr, Nat.not_lt, Nat.length_toDigits_le_iff (by decide) hk] at hlen
  omega

/-- A sign is one more character. -/
theorem length_repr_int_le {d : ℤ} (hk : 0 < k) (h : d.natAbs < 10 ^ k) :
    d.repr.toList.length ≤ k + 1 := by
  rw [Int.repr_eq_if]
  split
  · have := length_repr_le (n := d.toNat) hk (by omega)
    omega
  · have := length_repr_le (n := (-d).toNat) hk (by omega)
    rw [String.toList_append, List.length_append, Nat.add_comm]
    exact Nat.succ_le_succ this

/-- A text that fits, with its NUL, is not truncated. -/
theorem snprintf_eq {size : ℕ} {text : String} (h : text.toList.length < size) :
    snprintf size text = text.toList :=
  List.take_of_length_le (by omega)

end Decimal

/-! ## The uevents -/

/-- The text of `tv_set_vframe_rate_hint`. The cast to `unsigned long` extends the sign. -/
def Tv.text (duration : Int32) : String :=
  "FRAME_RATE_HINT=" ++ toString duration.toInt64.toUInt64

/-- The uevent of `tv_set_vframe_rate_hint`. -/
def Tv.uevent (duration : Int32) : List Char := snprintf 32 (Tv.text duration)

/-- The text of `vout_func_set_vframe_rate_hint`. -/
def Func.text (index : ℤ) (duration : Int32) : String :=
  "FRAME_RATE_HINT" ++ (if index = 1 then "" else "2") ++ "=" ++ toString duration.toInt

/-- The uevent of `vout_func_set_vframe_rate_hint`. -/
def Func.uevent (index : ℤ) (duration : Int32) : List Char :=
  (Hint.rate duration.toInt).uevent index

/-- The decimal number behind a key. -/
def afterKey (key : String) (msg : List Char) : Option ℤ :=
  if key.toList <+: msg then (String.ofList (msg.drop key.toList.length)).toInt? else none

/-- The index and the duration that a uevent announces. -/
def decodeHint (msg : List Char) : Option (ℤ × ℤ) :=
  match afterKey "FRAME_RATE_HINT=" msg with
  | some d => some (1, d)
  | none => (afterKey "FRAME_RATE_HINT2=" msg).map (2, ·)

/-- **One protocol** for a duration: neither kernel truncates it, both print the same for index 1,
and the index and the duration can be read back. -/
structure Agree (d : Int32) : Prop where
  tv_full : Tv.uevent d = (Tv.text d).toList
  func_full : ∀ index, index = 1 ∨ index = 2 → Func.uevent index d = (Func.text index d).toList
  same : Tv.uevent d = Func.uevent 1 d
  decode_tv : decodeHint (Tv.uevent d) = some (1, d.toInt)
  decode_func : ∀ index, index = 1 ∨ index = 2 →
    decodeHint (Func.uevent index d) = some (index, d.toInt)

section Agree

variable {d : Int32}

theorem tv_text_eq (d : Int32) :
    Tv.text d = "FRAME_RATE_HINT=" ++ toString d.toInt64.toUInt64 := rfl

theorem func_uevent_eq (index : ℤ) (d : Int32) :
    Func.uevent index d = snprintf 32 (Func.text index d) := rfl

/-- An `int` has at most eleven characters. -/
theorem length_repr_int32_le (d : Int32) : d.toInt.repr.toList.length ≤ 11 := by
  have := d.toInt_lt
  have := d.le_toInt
  exact length_repr_int_le (k := 10) (by omega) (by omega)

/-- **The 4.9 kernel never truncates.** -/
theorem func_uevent (index : ℤ) (d : Int32) :
    Func.uevent index d = (Func.text index d).toList := by
  rw [func_uevent_eq, snprintf_eq]
  have hlen := length_repr_int32_le d
  have hkey : (Func.text index d).toList.length ≤ 17 + d.toInt.repr.toList.length := by
    unfold Func.text
    split <;> simp [-Nat.toList_repr] <;> omega
  omega

theorem afterKey_append (key : String) (d : ℤ) :
    afterKey key (key ++ toString d).toList = some d := by
  rw [String.toList_append, afterKey, if_pos (List.prefix_append _ _), List.drop_left,
    String.ofList_toList]
  exact Int.toInt?_repr d

/-- **What the 4.9 kernel prints is read back.** -/
theorem decode_func {index : ℤ} (h : index = 1 ∨ index = 2) (d : Int32) :
    decodeHint (Func.uevent index d) = some (index, d.toInt) := by
  rw [func_uevent]
  rcases h with rfl | rfl
  · have : Func.text 1 d = "FRAME_RATE_HINT=" ++ toString d.toInt := rfl
    rw [this, decodeHint, afterKey_append]
  · have : Func.text 2 d = "FRAME_RATE_HINT2=" ++ toString d.toInt := rfl
    -- the key of index 1 has its sign where this one has the index
    have hkey : afterKey "FRAME_RATE_HINT=" ("FRAME_RATE_HINT2=" ++ toString d.toInt).toList =
        none := by
      rw [afterKey, if_neg]
      intro hprefix
      rw [String.toList_append] at hprefix
      have hkeys : "FRAME_RATE_HINT=".toList <+: "FRAME_RATE_HINT2=".toList :=
        List.prefix_of_prefix_length_le hprefix (List.prefix_append _ _) (by decide)
      exact absurd hkeys (by decide)
    rw [this, decodeHint, hkey, afterKey_append]
    rfl

/-- The cast to `unsigned long` keeps what is not negative, and moves the rest to the end of the
64-bit numbers. -/
theorem toNat_cast (d : Int32) :
    (d.toInt64.toUInt64.toNat : ℤ) = if 0 ≤ d.toInt then d.toInt else d.toInt + 2 ^ 64 := by
  have hint : d.toInt64.toBitVec.toInt = d.toInt := Int32.toInt_toInt64 d
  have hnat : d.toInt64.toUInt64.toNat = d.toInt64.toBitVec.toNat := rfl
  have hlt := d.toInt64.toBitVec.isLt
  rw [BitVec.toInt_eq_toNat_cond] at hint
  rw [hnat]
  split at hint <;> split <;> omega

theorem tv_text_of_nonneg (h : 0 ≤ d.toInt) : Tv.text d = Func.text 1 d := by
  have hcast := toNat_cast d
  rw [if_pos h] at hcast
  have htext : toString d.toInt64.toUInt64 = toString d.toInt := by
    change d.toInt64.toUInt64.toNat.repr = d.toInt.repr
    rw [← hcast]
    rfl
  rw [tv_text_eq, htext]
  rfl

/-- A negative duration has twenty digits in the 3.14 kernel, and does not fit. -/
theorem tv_uevent_ne_of_neg (h : d.toInt < 0) : Tv.uevent d ≠ (Tv.text d).toList := by
  have hcast := toNat_cast d
  have hmin := d.le_toInt
  rw [if_neg (by omega)] at hcast
  have hlong : 19 < d.toInt64.toUInt64.toNat.repr.toList.length :=
    lt_length_repr (by decide) (by omega)
  intro hfull
  have hlen := congrArg List.length hfull
  have htext : (Tv.text d).toList.length = 16 + d.toInt64.toUInt64.toNat.repr.toList.length := by
    rw [tv_text_eq, String.toList_append, List.length_append]
    rfl
  rw [Tv.uevent, snprintf, List.length_take, htext] at hlen
  omega

theorem agree_of_nonneg (h : 0 ≤ d.toInt) : Agree d := by
  have htv : Tv.uevent d = Func.uevent 1 d := by
    rw [Tv.uevent, tv_text_of_nonneg h]
    rfl
  refine ⟨?_, ?_, htv, ?_, ?_⟩
  · rw [htv, func_uevent, tv_text_of_nonneg h]
  · intro index _
    exact func_uevent index d
  · rw [htv]
    exact decode_func (.inl rfl) d
  · intro index hindex
    exact decode_func hindex d

theorem Agree.nonneg (h : Agree d) : 0 ≤ d.toInt := by
  by_contra hneg
  exact tv_uevent_ne_of_neg (by omega) h.tv_full

/-- **The two kernels speak one protocol** exactly for the durations that are not negative. -/
theorem agree_iff (d : Int32) : Agree d ↔ 0 ≤ d.toInt := by
  constructor
  · intro h
    exact h.nonneg
  · intro h
    exact agree_of_nonneg h

/-- The 3.14 kernel announces -1 as the first digits of 2 ^ 64 - 1. -/
theorem not_agree : ¬ ∀ d : Int32, Agree d := by
  intro h
  have hneg := (h (-1)).tv_full
  exact absurd hneg (by decide)

/-! ## The frame durations -/

/-- The hint branch of `video_receiver_event_fun`: the argument of `set_vframe_rate_hint`. A hint
without a duration, or during a seek, is dropped. -/
def receive (data : UInt64) (seeking : Bool) : Option Int32 :=
  if data ≠ 0 ∧ seeking = false then some data.toUInt32.toInt32 else none

/-- **The kernels agree on a frame duration below 2 ^ 31**, and on no larger one. -/
theorem agree_of_receive (duration : UInt32) :
    ∀ d ∈ receive duration.toUInt64 false, Agree d ↔ duration.toNat < 2 ^ 31 := by
  intro d hd
  simp only [receive, ne_eq, and_true, ite_not, Option.mem_def] at hd
  split at hd
  · cases hd
  · obtain rfl := Option.some.inj hd
    rw [UInt32.toUInt32_toUInt64]
    have hint : duration.toInt32.toInt = duration.toBitVec.toInt := rfl
    have hnat : duration.toNat = duration.toBitVec.toNat := rfl
    have hlt := duration.toBitVec.isLt
    rw [BitVec.toInt_eq_toNat_cond] at hint
    constructor
    · intro h
      have hnonneg := h.nonneg
      rw [hint] at hnonneg
      split at hnonneg <;> omega
    · intro h
      apply agree_of_nonneg
      rw [hint]
      split <;> omega

end Agree

end Vout
