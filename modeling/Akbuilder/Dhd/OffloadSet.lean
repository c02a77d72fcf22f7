import Akbuilder.Dhd.Encoding

/-!
# The commands that `dhd_pktfilter_offload_set` accepts

A filter is sent as it was written, and nothing else is sent, exactly for the strings without one of
these flaws: a command longer than the buffer that its encoding would fit; sixteen tokens or more; a
mask that is refused in a filter of type 0 or 1; a token that `strtoul` or `wl_pattern_atoh` makes
something of although it is no constant in range or no hexadecimal string.

## Main definitions

* `Faithful`: the language is accepted and encoded, and nothing else is accepted
* `Regular`: the strings without a flaw
* `wlioctl`: the layouts of the dongle interface

## Main results

* `offloadSet_faithful_iff`: a string is handled faithfully if and only if it is regular
* `not_offloadSet_faithful`: a mask and a pattern that are both refused are sent
-/

open CText

namespace Dhd

section Faithful

variable (h : Headers) (delPktFilter : UInt32 → ℤ) (arg : Text)

/-- **Faithful handling of a string.** A command whose encoding fits the buffer is sent once, and
reads back as it was written; for any other string no ioctl is sent. -/
def Faithful : Prop :=
  (∀ c, (strict h).command (tokens arg) = some c → (encode h c).length ≤ bufSize →
    ∃ payload, dhdPktfilterOffloadSet h delPktFilter arg = .returned [payload] ∧
      decode h payload = some c) ∧
  ((∀ c, (strict h).command (tokens arg) = some c → bufSize < (encode h c).length) →
    dhdPktfilterOffloadSet h delPktFilter arg = .returned [])

/-- **A regular string**: if it is too long, it is no command that fits; otherwise it has fewer than
sixteen tokens, none of them a refused mask, and if the lax reader takes it for a command, then its
tokens are exact. -/
def Regular : Prop :=
  if arg.length > bufSize then
    ∀ c ∈ (strict h).command (tokens arg), bufSize < (encode h c).length
  else
    (tokens arg).length < argvSize ∧ refused (tokens arg) = false ∧
      (((lax h).command (tokens arg)).isSome = true → (strict h).exact (tokens arg) = true)

instance : Decidable (Regular h arg) :=
  inferInstanceAs (Decidable (ite (arg.length > bufSize)
    (∀ c ∈ (strict h).command (tokens arg), bufSize < (encode h c).length) (_ ∧ _ ∧ (_ → _))))

variable {h delPktFilter arg}

theorem offloadSet_of_long (hlong : arg.length > bufSize) :
    dhdPktfilterOffloadSet h delPktFilter arg = .returned [] := if_pos hlong

theorem offloadSet_of_argv (hshort : ¬ arg.length > bufSize)
    (hargv : argvSize ≤ (tokens arg).length) :
    dhdPktfilterOffloadSet h delPktFilter arg = .undefined .argvOverflow := by
  rw [dhdPktfilterOffloadSet, if_neg hshort, if_pos hargv]

/-- Short strings with few tokens have room in the buffer. -/
theorem room_tokens_le (hshort : ¬ arg.length > bufSize)
    (hargv : ¬ argvSize ≤ (tokens arg).length) : 35 + room (tokens arg) ≤ bufSize := by
  have hbuf : bufSize = 2048 := rfl
  have hsize : argvSize = 16 := rfl
  have hroom := two_mul_room_le (tokens arg)
  have hsum := sum_length_tokens_le arg
  omega

/-- A refused mask is in no command. -/
theorem command_of_refused {args : List Text} (hrefused : refused args = true) :
    (lax h).command args = none := by
  rcases args with _ | ⟨id, _ | ⟨polarity, _ | ⟨type, args⟩⟩⟩
  · simp [refused] at hrefused
  · simp [refused] at hrefused
  · simp [refused] at hrefused
  · simp only [refused, Bool.and_eq_true, Bool.or_eq_true, decide_eq_true_eq] at hrefused
    obtain ⟨ht, hmask⟩ := hrefused
    have hbody : (lax h).body (strtoul 0 type).1.toUInt32 args = none := by
      rw [Reader.body, dif_pos ht]
      rcases args with _ | ⟨offset, _ | ⟨mask, _ | ⟨data, rest⟩⟩⟩
      · rfl
      · rfl
      · rfl
      · simp only [maskRefused, Bool.and_eq_true, Option.isNone_iff_eq_none] at hmask
        simp [Reader.pattern, lax, hmask.1]
    show ((lax h).body (strtoul 0 type).1.toUInt32 args >>= fun b => some _) = none
    rw [hbody]
    rfl

theorem offloadSet_of_short (hshort : ¬ arg.length > bufSize)
    (hargv : ¬ argvSize ≤ (tokens arg).length) :
    dhdPktfilterOffloadSet h delPktFilter arg =
      outcome (offload h delPktFilter (tokens arg)) := by
  rw [dhdPktfilterOffloadSet, if_neg hshort, if_neg hargv]

/-- Only `goto fail` sends nothing. -/
theorem outcome_eq_returned_nil {r : Except Exit (List UInt8)} :
    outcome r = .returned [] ↔ r = .error .fail := by
  rcases r with (_ | f) | payload <;> simp [outcome]

/-! ## Strings with a flaw, and strings without -/

/-- A long string is given up before it is read. -/
theorem faithful_iff_of_long (hlong : arg.length > bufSize) :
    Faithful h delPktFilter arg ↔ Regular h arg := by
  rw [Faithful, Regular, if_pos hlong, offloadSet_of_long hlong]
  constructor
  · intro hf c hc
    by_contra hfits
    obtain ⟨payload, hsent, -⟩ := hf.1 c hc (by omega)
    simp at hsent
  · intro hr
    exact ⟨fun c hc hfits => absurd (hr c hc) (by omega), fun _ => rfl⟩

/-- Sixteen tokens are handled neither way. -/
theorem not_faithful_of_argv (hshort : ¬ arg.length > bufSize)
    (hargv : argvSize ≤ (tokens arg).length) : ¬ Faithful h delPktFilter arg := by
  rw [Faithful, offloadSet_of_argv hshort hargv]
  rintro ⟨hfits, hnone⟩
  -- whether there is a command or not, the fault is no way to handle it
  have hnot : ¬ ∀ c, (strict h).command (tokens arg) = some c → bufSize < (encode h c).length :=
    fun hall => by simpa using hnone hall
  apply hnot
  intro c hc
  by_contra hle
  obtain ⟨payload, hsent, -⟩ := hfits c hc (by omega)
  simp at hsent

/-- The commands of the language are those that the lax reader reads and whose tokens are exact. -/
theorem strict_command_iff {c : Command} : (strict h).command (tokens arg) = some c ↔
    (lax h).command (tokens arg) = some c ∧ (strict h).exact (tokens arg) = true :=
  strict_le_lax.command_iff

/-- A refused mask is in no command, and is not given up. -/
theorem not_faithful_of_refused (hdel : ∀ id, delPktFilter id = 0)
    (hshort : ¬ arg.length > bufSize) (hargv : ¬ argvSize ≤ (tokens arg).length)
    (hrefused : refused (tokens arg) = true) : ¬ Faithful h delPktFilter arg := by
  rintro ⟨-, hnone⟩
  have hnil := hnone fun c hc => by
    rw [strict_command_iff, command_of_refused hrefused] at hc
    simp at hc
  rw [offloadSet_of_short hshort hargv, outcome_eq_returned_nil] at hnil
  exact offload_of_refused hdel hrefused hnil

/-- What the lax reader does not read is given up, and is not in the language. -/
theorem faithful_of_none (hshort : ¬ arg.length > bufSize)
    (hargv : ¬ argvSize ≤ (tokens arg).length) (hlax : (lax h).command (tokens arg) = none)
    (hfail : offload h delPktFilter (tokens arg) = .error .fail) :
    Faithful h delPktFilter arg := by
  rw [Faithful, offloadSet_of_short hshort hargv, hfail]
  constructor
  · intro c hc
    rw [strict_command_iff, hlax] at hc
    simp at hc
  · exact fun _ => rfl

/-- What the lax reader reads is sent, so it has to be in the language. -/
theorem faithful_iff_exact (hshort : ¬ arg.length > bufSize)
    (hargv : ¬ argvSize ≤ (tokens arg).length) {c : Command}
    (hlax : (lax h).command (tokens arg) = some c) (hfits : (encode h c).length ≤ bufSize)
    (hsent : offload h delPktFilter (tokens arg) = .ok (encode h c)) :
    Faithful h delPktFilter arg ↔ (strict h).exact (tokens arg) = true := by
  rw [Faithful, offloadSet_of_short hshort hargv, hsent]
  constructor
  · rintro ⟨-, hnone⟩
    by_contra hexact
    have hnil := hnone fun c' hc' => absurd (strict_command_iff.mp hc').2 hexact
    simp [outcome] at hnil
  · intro hexact
    have hc : (strict h).command (tokens arg) = some c := strict_command_iff.mpr ⟨hlax, hexact⟩
    constructor
    · intro c' hc' _
      obtain rfl : c = c' := Option.some.inj (hc.symm.trans hc')
      exact ⟨_, rfl, decode_encode hfits⟩
    · exact fun hnone => absurd (hnone c hc) (by omega)

/-- **A string is handled faithfully if and only if it is regular.** -/
theorem offloadSet_faithful_iff (hdel : ∀ id, delPktFilter id = 0) :
    Faithful h delPktFilter arg ↔ Regular h arg := by
  by_cases hlong : arg.length > bufSize
  · exact faithful_iff_of_long hlong
  rw [Regular, if_neg hlong]
  by_cases hargv : argvSize ≤ (tokens arg).length
  · refine iff_of_false (not_faithful_of_argv hlong hargv) ?_
    rintro ⟨hlt, -⟩
    omega
  cases hrefused : refused (tokens arg) with
  | true => simpa using not_faithful_of_refused hdel hlong hargv hrefused
  | false =>
    have hspec := offload_eq (h := h) hdel (room_tokens_le hlong hargv) hrefused
    have hlt : (tokens arg).length < argvSize := by omega
    cases hlax : (lax h).command (tokens arg) with
    | none =>
      rw [hlax] at hspec
      simpa [hlt] using faithful_of_none hlong hargv hlax hspec
    | some c =>
      rw [hlax] at hspec
      obtain ⟨hfits, hsent⟩ := hspec
      simpa [hlt] using faithful_iff_exact hlong hargv hlax hfits hsent

end Faithful

/-! ## The dongle interface -/

/-- The layouts of the dongle interface, with one of its names. -/
def wlioctl : Headers where
  basenames := [("START".toList, 0)]
  filter := .prod .uint32 (.prod .uint32 .uint32)
  pattern := .prod .uint32 .uint32
  patlist := .prod .uint8 (.prod .uint8 .uint16)
  listel := .prod .uint16 (.prod .uint16 (.prod .uint16 .uint16))
  mflagNeg := 1
  filter_size := rfl
  pattern_size := rfl
  patlist_size := rfl
  listel_size := rfl
  mflagNeg_ne_zero := by decide
  basenames_head := by simp

/-- An IPv4 filter: the ethertype at offset 12, and not a broadcast. -/
theorem offloadSet_faithful_ethertype :
    Faithful wlioctl (fun _ => 0) "100 1 2 12 0xffff 0x0800 start:0 0xFF !0xff".toList :=
  (offloadSet_faithful_iff fun _ => rfl).mpr (by decide)

/-- A mask and a pattern that are both refused have equal sizes, and the filter is sent. -/
theorem not_offloadSet_faithful :
    ¬ ∀ (h : Headers) (delPktFilter : UInt32 → ℤ) (arg : Text), (∀ id, delPktFilter id = 0) →
      Faithful h delPktFilter arg := by
  intro hall
  have hnone : (strict wlioctl).command (tokens "100 0 0 0 mask pattern".toList) = none := by decide
  have hsent := (hall wlioctl (fun _ => 0) "100 0 0 0 mask pattern".toList fun _ => rfl).2
    fun c hc => by rw [hnone] at hc; cases hc
  exact absurd hsent (by decide)

end Dhd
