import Akbuilder.Dhd.OffloadSet
import Akbuilder.Dhd.Traced

/-!
# Accesses in bounds

Two things go wrong in `dhd_pktfilter_offload_set`. Sixteen tokens need a seventeenth entry of
`argv`. And a mask that `wl_pattern_atoh` refuses has the size 2^32 - 1, so that the bytes of the
pattern behind it go that far. Everything else stays in bounds: no token is encoded in more bytes
than half of its characters and a header, and a command has no more characters than the buffer has
bytes.

## Main definitions

* `InBounds`: what keeps a log of accesses in bounds
* `stray`: a pattern that is written behind a refused mask

## Main results

* `Traced.offload_spec`: the function stays in its objects, unless a pattern is stray
* `offloadSet_inBounds_iff`: the accesses are in bounds except for sixteen tokens, and for a stray
  pattern
-/

open CText

namespace Dhd

/-! ## Bounds -/

/-- The access is inside of its object. -/
def Access.Within : Access → Prop
  | .argvWrite i => i < argvSize
  | .argvRead _ => True
  | .bufWrite dst len => len = 0 ∨ dst + len ≤ bufSize
  | .bufLen n => n ≤ bufSize

/-- **A log in bounds**: every access is inside of its object, and no entry of `argv` is read before
it is written. -/
structure InBounds (log : List Access) : Prop where
  within : ∀ a ∈ log, a.Within
  written : ∀ before i after, log = before ++ .argvRead i :: after → .argvWrite i ∈ before

/-- A mask that is refused, and a pattern with bytes. -/
def strayPattern : List Text → Bool
  | _ :: mask :: pattern :: _ => (atohBytes mask).isNone && (atohBytes pattern).any (· ≠ [])
  | _ => false

/-- A filter of type 0 or 1, whose pattern goes behind a refused mask. -/
def stray (delPktFilter : UInt32 → ℤ) : List Text → Bool
  | id :: _ :: type :: args =>
    let type := (strtoul 0 type).1.toUInt32
    delPktFilter (strtoul 0 id).1.toUInt32 = 0 && (type = 0 || type = 1) && strayPattern args
  | _ => false

namespace Traced

open Logged

variable {h : Headers}

/-! ## Accesses of the parts -/

/-- What `wl_pattern_atoh` returns. -/
def atohSize (src : Text) : ℤ := (atohBytes src).elim (-1) fun bytes => bytes.length

/-- The access is inside of its object, and no entry of `argv` behind the entry `n` is read. -/
def Allowed (n : ℕ) (a : Access) : Prop := a.Within ∧ ∀ i, a = .argvRead i → i ≤ n

section Parts

variable {n i : ℕ}

theorem allowed_argvRead (hi : i ≤ n) : Allowed n (.argvRead i) :=
  ⟨trivial, fun j hj => by cases hj; exact hi⟩

theorem allowed_argvWrite (hi : i < argvSize) : Allowed n (.argvWrite i) :=
  ⟨hi, fun j hj => by cases hj⟩

theorem allowed_bufWrite {dst len : ℕ} (hfits : len = 0 ∨ dst + len ≤ bufSize) :
    Allowed n (.bufWrite dst len) := ⟨hfits, fun j hj => by cases hj⟩

theorem allowed_bufLen {len : ℕ} (hfits : len ≤ bufSize) : Allowed n (.bufLen len) :=
  ⟨hfits, fun j hj => by cases hj⟩

theorem store_spec {buf : Memory} {dst : ℕ} {bytes : List UInt8}
    (hfits : bytes.length = 0 ∨ dst + bytes.length ≤ bufSize) :
    Spec (Allowed n) (store buf dst bytes) fun _ => True :=
  .access_bind (allowed_bufWrite hfits) (.pure trivial)

/-- The arguments from the entry `i` on end at the entry `n`. -/
theorem nextArg_spec {args : List Text} (hi : i + args.length = n) :
    Spec (Allowed n) (nextArg i args) fun r => args = r.1 :: r.2 := by
  refine .access_bind (allowed_argvRead (by omega)) ?_
  cases args with
  | nil => exact .exit
  | cons arg args => exact .pure rfl

/-- **The rule of an argument**: what is behind it knows that it is there. -/
theorem nextArg_bind {α : Type} {args : List Text} {f : Text × List Text → Traced α}
    {Q : α → Prop} (hi : i + args.length = n)
    (hf : ∀ arg rest, args = arg :: rest → i + 1 + rest.length = n →
      Spec (Allowed n) (f (arg, rest)) Q) :
    Spec (Allowed n) (nextArg i args >>= f) Q := by
  refine .bind (nextArg_spec hi) ?_
  rintro ⟨arg, rest⟩ rfl
  simp only [List.length_cons] at hi
  exact hf arg rest rfl (by omega)

theorem wlPatternAtoh_spec {buf : Memory} {src : Text} {dst : ℕ}
    (hfits : ∀ bytes ∈ atohBytes src, bytes.length = 0 ∨ dst + bytes.length ≤ bufSize) :
    Spec (Allowed n) (wlPatternAtoh buf src dst) fun r => r.2 = atohSize src := by
  rw [wlPatternAtoh, atohSize]
  cases hsrc : atohBytes src with
  | none => exact .pure rfl
  | some bytes => exact .bind (store_spec (hfits bytes hsrc)) fun _ _ => .pure rfl

/-- A byte takes two digits, so that it is enough to know how long the text is. -/
theorem wlPatternAtoh_spec_of_le {buf : Memory} {src : Text} {dst : ℕ}
    (hfits : dst + src.length / 2 ≤ bufSize) :
    Spec (Allowed n) (wlPatternAtoh buf src dst) fun r => r.2 = atohSize src := by
  refine wlPatternAtoh_spec fun bytes hbytes => .inr ?_
  have := length_atohBytes_le hbytes
  omega

theorem neg_one_le_atohSize (src : Text) : -1 ≤ atohSize src := by
  rw [atohSize]
  cases atohBytes src with
  | none => exact le_refl _
  | some bytes => exact le_trans (by decide) (Int.natCast_nonneg bytes.length)

theorem atohSize_le (src : Text) : atohSize src ≤ (src.length / 2 : ℕ) := by
  rw [atohSize]
  cases hsrc : atohBytes src with
  | none => exact le_trans (by decide) (Int.natCast_nonneg _)
  | some bytes => exact Int.ofNat_le.mpr (length_atohBytes_le hsrc)

theorem dropNot_spec {pattern : Text} (hi : i < argvSize) :
    Spec (Allowed n) (dropNot i pattern) fun data => data.length ≤ pattern.length := by
  rw [dropNot]
  split
  · exact .access_bind (allowed_argvWrite hi) (.pure (by simp))
  · exact .pure le_rfl

/-- The second half of a list element: the mask has `m` bytes. -/
theorem putListel_spec {s : ListState} {buf : Memory} {offs : UInt16 × UInt16} {m : ℕ}
    {pattern : Text} (hi : i < argvSize) (hlen : s.bufLen.toNat + 16 = s.pfEl)
    (hroom : s.pfEl + 8 + m + pattern.length / 2 ≤ bufSize) :
    Spec (Allowed n) (putListel h i s buf offs m pattern) fun s' =>
      s'.bufLen.toNat + 16 = s'.pfEl ∧ s'.pfEl ≤ s.pfEl + 8 + m + pattern.length / 2 := by
  have hbuf : bufSize = 2048 := rfl
  have hlistel := h.listel_size
  have hpattern := h.pattern_size
  refine .bind (dropNot_spec hi) fun data hdata => ?_
  have hle := atohSize_le data
  have hge := neg_one_le_atohSize data
  refine .bind (wlPatternAtoh_spec_of_le (by rw [Int.toNat_natCast]; omega)) ?_
  rintro ⟨buf', rc⟩ hrc
  dsimp only at hrc ⊢
  rw [hrc]
  split
  · exact .exit
  next hne =>
  split
  · exact .exit
  next heq =>
  -- the sizes are equal, so the element is as long as its tokens allow
  rw [ne_eq, not_not, ofInt_inj (by omega) (by omega) (by omega) (by omega)] at heq
  rw [← heq, Int.toNat_natCast]
  have hnat : (s.bufLen + UInt32.ofNat (h.listel.size + 2 * m)).toNat =
      s.bufLen.toNat + (h.listel.size + 2 * m) := by
    rw [UInt32.toNat_add, UInt32.toNat_ofNat']
    omega
  refine .access_bind (allowed_bufLen (by omega)) (.bind (store_spec (.inr ?_)) ?_)
  · -- the structure is cut off where the pattern begins
    rw [List.length_take, Codec.length_enc]
    omega
  · exact fun _ _ => .pure ⟨by dsimp only; omega, by dsimp only; omega⟩

/-- **The loop stays in the buffer** as long as the room behind `pf_el` suffices for the tokens
that are left. -/
theorem patternList_spec (hn : n < argvSize) : ∀ {i : ℕ} {s : ListState} {args : List Text},
    i + args.length = n → s.bufLen.toNat + 16 = s.pfEl → s.pfEl + room args ≤ bufSize →
    Spec (Allowed n) (patternList h i s args) fun s' =>
      s'.bufLen.toNat + 16 = s'.pfEl ∧ s'.pfEl ≤ bufSize
  | i, s, [], hi, hlen, hroom => by
    rw [patternList]
    exact .access_bind (allowed_argvRead hi.le) (.pure ⟨hlen, by omega⟩)
  | i, s, arg :: args, hi, hlen, hroom => by
    have hlistel := h.listel_size
    rw [List.length_cons] at hi
    rw [room_cons] at hroom
    rw [patternList.eq_def]
    refine .access_bind (allowed_argvRead (by omega)) ?_
    cases patternOffset h arg with
    | none => exact .exit
    | some offs =>
      refine .access_bind (allowed_argvRead (by omega)) ?_
      match args with
      | [] => exact .exit
      | mask :: args =>
        rw [List.length_cons] at hi
        rw [room_cons] at hroom
        refine .bind (wlPatternAtoh_spec_of_le (by omega)) ?_
        rintro ⟨buf, rc⟩ hrc
        dsimp only at hrc ⊢
        split
        · exact .exit
        next hne =>
        refine .access_bind (allowed_argvRead (by omega)) ?_
        match args with
        | [] => exact .exit
        | pattern :: args =>
          rw [List.length_cons] at hi
          rw [room_cons] at hroom
          -- a mask that is not refused has a size
          have hge := neg_one_le_atohSize mask
          have hle := atohSize_le mask
          obtain ⟨m, rfl⟩ : ∃ m : ℕ, rc = m := ⟨rc.toNat, by omega⟩
          refine .bind (putListel_spec (by omega) hlen (by omega)) ?_
          rintro s' ⟨hlen', hle'⟩
          exact patternList_spec hn (by omega) hlen' (by omega)

variable {buf : Memory} {id polarity type : UInt32} {args : List Text}

theorem setPatternList_spec (hn : n < argvSize) (hi : i + args.length = n)
    (hroom : 31 + room args ≤ bufSize) :
    Spec (Allowed n) (setPatternList h i buf id polarity type args) fun _ => True := by
  have hbuf : bufSize = 2048 := rfl
  have hp : pktFilterp = 15 := rfl
  have hfilter := h.filter_size
  have hpatlist := h.patlist_size
  refine .bind (patternList_spec hn hi ?_ ?_) ?_
  · simp only [patterns_eq]
    rfl
  · simpa only [patterns_eq] using hroom
  rintro s ⟨hlen, hle⟩
  have hnat : (s.bufLen + UInt32.ofNat (h.filter.size + h.patlist.size)).toNat =
      s.bufLen.toNat + (h.filter.size + h.patlist.size) := by
    rw [UInt32.toNat_add, UInt32.toNat_ofNat']
    omega
  refine .access_bind (allowed_bufLen (by omega)) (.bind (store_spec (.inr ?_)) ?_)
  · simp only [List.length_append, Codec.length_enc]
    omega
  · exact fun _ _ => .pure trivial

/-- With masks of size -1, `buf_len` wraps around to a value below the length of the headers. -/
theorem bufLen_le {a b : ℕ} {rc : ℤ} (hge : -1 ≤ rc) (hab : 2 ≤ a + b)
    (hle : a + b + 2 * rc.toNat ≤ bufSize) :
    (UInt32.ofNat a + (UInt32.ofNat b + 2 * UInt32.ofInt rc)).toNat ≤ bufSize := by
  have hbuf : bufSize = 2048 := rfl
  have htwo : (2 : UInt32).toNat = 2 := rfl
  simp only [UInt32.toNat_add, UInt32.toNat_mul, UInt32.toNat_ofNat', UInt32.ofInt, htwo]
  omega

/-- A pattern that is not stray fits behind its mask. -/
theorem pattern_fits {start : ℕ} {offset mask pattern : Text}
    (hroom : start + mask.length / 2 + pattern.length / 2 ≤ bufSize)
    (hstray : strayPattern (offset :: mask :: pattern :: args) = false) :
    ∀ bytes ∈ atohBytes pattern, bytes.length = 0 ∨
      start + (UInt32.ofInt (atohSize mask)).toNat + bytes.length ≤ bufSize := by
  intro bytes hbytes
  have hbuf : bufSize = 2048 := rfl
  have := length_atohBytes_le hbytes
  cases hm : atohBytes mask with
  | none =>
    -- no byte is there to go behind the mask
    have hnil : bytes = [] := by
      simpa [strayPattern, hm, Option.mem_def.mp hbytes] using hstray
    exact .inl (by rw [hnil, List.length_nil])
  | some m =>
    have := length_atohBytes_le hm
    have hsize : (UInt32.ofInt (atohSize mask)).toNat = m.length := by
      rw [atohSize, hm]
      exact toNat_ofInt (by omega)
    omega

/-- **A filter with one pattern stays in the buffer**, unless the pattern goes behind a refused
mask. -/
theorem setPattern_spec (hi : i + args.length = n) (hroom : 35 + room args ≤ bufSize)
    (hstray : strayPattern args = false) :
    Spec (Allowed n) (setPattern h i buf id polarity type args) fun _ => True := by
  have hbuf : bufSize = 2048 := rfl
  have hp : pktFilterp = 15 := rfl
  have hfilter := h.filter_size
  have hpattern := h.pattern_size
  have hstart := maskAndPattern_eq (h := h)
  refine nextArg_bind hi fun offset args hargs hi₁ => ?_
  subst hargs
  refine nextArg_bind hi₁ fun mask args hargs hi₂ => ?_
  subst hargs
  simp only [room_cons] at hroom
  refine .bind (wlPatternAtoh_spec_of_le (by omega)) ?_
  rintro ⟨buf', rc⟩ hrc
  refine nextArg_bind hi₂ fun pattern args hargs _ => ?_
  dsimp only at hrc ⊢
  subst hargs hrc
  rw [room_cons] at hroom
  refine .bind (wlPatternAtoh_spec (pattern_fits (by omega) hstray)) ?_
  rintro ⟨buf'', rc⟩ hrc
  dsimp only at hrc ⊢
  subst hrc
  split
  · exact .exit
  next heq =>
  -- the sizes are equal, so that twice the mask fits
  have hmask := atohSize_le mask
  have hmask' := neg_one_le_atohSize mask
  have hdata := atohSize_le pattern
  have hdata' := neg_one_le_atohSize pattern
  rw [ne_eq, not_not, ofInt_inj (by omega) (by omega) (by omega) (by omega)] at heq
  have hle : maskAndPattern h + 2 * (atohSize mask).toNat ≤ bufSize := by omega
  refine .access_bind (allowed_bufLen ?_) (.access_bind (allowed_bufLen ?_)
    (.bind (store_spec (.inr ?_)) fun _ _ => .pure trivial))
  · rw [UInt32.toNat_ofNat']
    omega
  · rw [maskAndPattern] at hle
    exact bufLen_le (by omega) (by omega) hle
  · simp only [List.length_append, Codec.length_enc]
    omega

theorem setFilter_spec (hn : n < argvSize) (hi : i + args.length = n)
    (hroom : 35 + room args ≤ bufSize)
    (hstray : (type = 0 ∨ type = 1) → strayPattern args = false) :
    Spec (Allowed n) (setFilter h i buf id polarity type args) fun _ => True := by
  unfold setFilter
  split
  · next ht => exact setPattern_spec hi hroom (hstray ht)
  split
  · exact setPatternList_spec hn hi (by omega)
  · exact .exit

/-- **The function stays in its objects**, unless a pattern is stray. -/
theorem offload_spec {delPktFilter : UInt32 → ℤ} (hn : args.length < argvSize)
    (hroom : 35 + room args ≤ bufSize) (hstray : stray delPktFilter args = false) :
    Spec (Allowed args.length) (offload h delPktFilter args) fun _ => True := by
  refine nextArg_bind (Nat.zero_add _) fun id args hargs hi₁ => ?_
  rw [hargs] at hstray hroom
  refine .bind (store_spec (.inr (by decide))) fun _ _ => ?_
  refine .access_bind (allowed_bufLen (by decide)) ?_
  dsimp only
  split
  · exact .exit
  next hdel =>
  refine nextArg_bind hi₁ fun polarity args hpolarity hi₂ => ?_
  refine nextArg_bind hi₂ fun type args htype hi₃ => ?_
  dsimp only at htype ⊢
  rw [hpolarity, htype] at hstray hroom
  simp only [room_cons] at hroom
  refine .bind (setFilter_spec hn hi₃ (by omega) ?_) fun _ _ => .pure trivial
  intro ht
  have hdel' : delPktFilter (strtoul 0 id).1.toUInt32 = 0 := not_not.mp hdel
  simpa [stray, hdel', ht] using hstray

end Parts

end Traced

/-! ## Entries of `argv` -/

/-- No entry of `argv` is read before it is written. -/
def Written (log : List Access) : Prop :=
  ∀ before i after, log = before ++ .argvRead i :: after → .argvWrite i ∈ before

theorem Written.append {l₁ l₂ : List Access} (h₁ : Written l₁)
    (h₂ : ∀ before i after, l₂ = before ++ .argvRead i :: after → .argvWrite i ∈ l₁ ++ before) :
    Written (l₁ ++ l₂) := by
  intro before i after heq
  rcases List.append_eq_append_iff.mp heq with ⟨mid, hmid, hsnd⟩ | ⟨mid, hmid, hsnd⟩
  · -- the read is in the second part
    rw [hmid]
    exact h₂ mid i after hsnd
  · rcases mid with _ | ⟨a, mid⟩
    · rw [List.append_nil] at hmid
      have := h₂ [] i after (by simpa using hsnd.symm)
      rwa [List.append_nil, hmid] at this
    · obtain ⟨rfl, rfl⟩ := List.cons.inj hsnd
      exact h₁ before i mid hmid

theorem mem_fillArgv {i j : ℕ} {toks : List Text} :
    .argvWrite j ∈ Traced.fillArgv i toks ↔ i ≤ j ∧ j ≤ i + toks.length := by
  induction toks generalizing i with
  | nil =>
    simp only [Traced.fillArgv, List.mem_cons, Access.argvWrite.injEq, reduceCtorEq,
      List.not_mem_nil, or_false, List.length_nil]
    omega
  | cons t toks ih =>
    simp only [Traced.fillArgv, List.mem_cons, Access.argvWrite.injEq, reduceCtorEq, false_or, ih,
      List.length_cons]
    omega

theorem within_fillArgv {i : ℕ} {toks : List Text} (hn : i + toks.length < argvSize) :
    ∀ a ∈ Traced.fillArgv i toks, a.Within := by
  induction toks generalizing i with
  | nil =>
    simp only [Traced.fillArgv, List.forall_mem_cons]
    exact ⟨hn, trivial, List.forall_mem_nil _⟩
  | cons t toks ih =>
    rw [List.length_cons] at hn
    simp only [Traced.fillArgv, List.forall_mem_cons]
    exact ⟨show i < argvSize by omega, trivial, ih (by omega)⟩

theorem written_pair (i : ℕ) : Written [.argvWrite i, .argvRead i] := by
  intro before j after heq
  rcases before with _ | ⟨a, _ | ⟨b, before⟩⟩
  · simp at heq
  · simp only [List.cons_append, List.nil_append, List.cons.injEq, Access.argvRead.injEq] at heq
    obtain ⟨rfl, rfl, -⟩ := heq
    exact List.mem_singleton.mpr rfl
  · simp at heq

theorem written_fillArgv (i : ℕ) (toks : List Text) : Written (Traced.fillArgv i toks) := by
  induction toks generalizing i with
  | nil => exact written_pair i
  | cons t toks ih =>
    refine Written.append (written_pair i) ?_
    intro before j after heq
    exact List.mem_append_right _ (ih (i + 1) before j after heq)

section InBounds

variable {h : Headers} {delPktFilter : UInt32 → ℤ} {arg : Text}

theorem accesses_of_long (hlong : arg.length > bufSize) :
    accesses h delPktFilter arg = [.bufWrite 0 bufSize] := by
  rw [accesses, if_pos hlong]

theorem accesses_of_short (hshort : ¬ arg.length > bufSize) :
    accesses h delPktFilter arg = .bufWrite 0 bufSize ::
      (Traced.fillArgv 0 (tokens arg) ++ (Traced.offload h delPktFilter (tokens arg)).log) := by
  rw [accesses, if_neg hshort]

theorem within_memset : (Access.bufWrite 0 bufSize).Within := .inr (Nat.zero_add _).le

theorem written_memset : Written [.bufWrite 0 bufSize] := by
  intro before i after heq
  rcases before with _ | ⟨a, before⟩ <;> simp at heq

theorem inBounds_of_long (hlong : arg.length > bufSize) :
    InBounds (accesses h delPktFilter arg) := by
  rw [accesses_of_long hlong]
  exact ⟨fun a ha => by rw [List.mem_singleton.mp ha]; exact within_memset, written_memset⟩

/-- Fewer than sixteen tokens, and no stray pattern. -/
theorem inBounds_of_short (hshort : ¬ arg.length > bufSize)
    (hargv : (tokens arg).length < argvSize) (hstray : stray delPktFilter (tokens arg) = false) :
    InBounds (accesses h delPktFilter arg) := by
  have hroom := room_tokens_le hshort (by omega)
  have hspec := (Traced.offload_spec (h := h) hargv hroom hstray).1
  rw [accesses_of_short hshort]
  constructor
  · intro a ha
    rcases List.mem_cons.mp ha with rfl | ha
    · exact within_memset
    rcases List.mem_append.mp ha with ha | ha
    · exact within_fillArgv (by omega) a ha
    · exact (hspec a ha).1
  · refine Written.append written_memset fun before i after heq => ?_
    refine List.mem_append_right _ (Written.append (written_fillArgv 0 _) ?_ before i after heq)
    intro before i after heq
    -- the entries up to the `NULL` have been written by the loop over the tokens
    have hi := (hspec (.argvRead i) (by simp [heq])).2 i rfl
    exact List.mem_append_left _ (mem_fillArgv.mpr ⟨Nat.zero_le i, by omega⟩)

/-- A call in bounds comes to what the function without a log comes to. -/
theorem offload_eq_of_inBounds (hshort : ¬ arg.length > bufSize)
    (hin : InBounds (accesses h delPktFilter arg)) :
    Dhd.offload h delPktFilter (tokens arg) =
      (Traced.offload h delPktFilter (tokens arg)).result := by
  rw [← Traced.stopped_offload, Traced.stopped, Logged.checked, if_pos]
  rw [List.all_eq_true]
  intro a ha
  have hwithin := hin.within a (by
    rw [accesses_of_short hshort]
    exact List.mem_cons_of_mem _ (List.mem_append_right _ ha))
  cases a with
  | bufWrite dst len => exact decide_eq_true hwithin
  | argvWrite i => rfl
  | argvRead i => rfl
  | bufLen n => rfl

/-- The `NULL` behind sixteen tokens is written behind `argv`. -/
theorem not_inBounds_of_argv (hshort : ¬ arg.length > bufSize)
    (hargv : argvSize ≤ (tokens arg).length) : ¬ InBounds (accesses h delPktFilter arg) := by
  intro hin
  have hmem : .argvWrite (tokens arg).length ∈ accesses h delPktFilter arg := by
    rw [accesses_of_short hshort]
    exact List.mem_cons_of_mem _ (List.mem_append_left _ (mem_fillArgv.mpr ⟨by omega, by omega⟩))
  have hlt : (tokens arg).length < argvSize := hin.within _ hmem
  omega

/-- The bytes of a stray pattern go 2^32 - 1 bytes behind the place of the mask. -/
theorem mem_log_setPattern {i : ℕ} {buf : Memory} {id polarity type : UInt32} {args : List Text}
    (hstray : strayPattern args = true) :
    ∃ len, 0 < len ∧ .bufWrite (maskAndPattern h + (2 ^ 32 - 1)) len ∈
      (Traced.setPattern h i buf id polarity type args).log := by
  rcases args with _ | ⟨offset, _ | ⟨mask, _ | ⟨pattern, args⟩⟩⟩
  · simp [strayPattern] at hstray
  · simp [strayPattern] at hstray
  · simp [strayPattern] at hstray
  · simp only [strayPattern, Bool.and_eq_true, Option.isNone_iff_eq_none, Option.any_eq_true,
      decide_eq_true_eq] at hstray
    obtain ⟨hmask, bytes, hbytes, hne⟩ := hstray
    refine ⟨bytes.length, List.length_pos_iff.mpr hne, ?_⟩
    have hrefused : (Traced.wlPatternAtoh buf mask (maskAndPattern h)).result = .ok (buf, -1) := by
      simp [Traced.wlPatternAtoh, hmask, Logged.pure_def]
    refine Logged.mem_log_bind_right (v := (offset, mask :: pattern :: args)) rfl ?_
    refine Logged.mem_log_bind_right (v := (mask, pattern :: args)) rfl ?_
    refine Logged.mem_log_bind_right hrefused ?_
    refine Logged.mem_log_bind_right (v := (pattern, args)) rfl ?_
    apply Logged.mem_log_bind
    have hsize : (UInt32.ofInt (-1)).toNat = 2 ^ 32 - 1 := by decide
    rw [hsize, Traced.wlPatternAtoh, hbytes]
    exact List.mem_cons_self

theorem mem_log_offload {args : List Text} (hstray : stray delPktFilter args = true) :
    ∃ len, 0 < len ∧ .bufWrite (maskAndPattern h + (2 ^ 32 - 1)) len ∈
      (Traced.offload h delPktFilter args).log := by
  rcases args with _ | ⟨id, _ | ⟨polarity, _ | ⟨type, args⟩⟩⟩
  · simp [stray] at hstray
  · simp [stray] at hstray
  · simp [stray] at hstray
  · simp only [stray, Bool.and_eq_true, Bool.or_eq_true, decide_eq_true_eq] at hstray
    obtain ⟨⟨hdel, ht⟩, hstray⟩ := hstray
    obtain ⟨len, hlen, hmem⟩ : ∃ len, 0 < len ∧ .bufWrite (maskAndPattern h + (2 ^ 32 - 1)) len ∈
        (Traced.setPattern h 3 (Memory.write (fun _ => 0) 0 pktFilterAdd)
          (strtoul 0 id).1.toUInt32 (strtoul 0 polarity).1.toUInt32
          (strtoul 0 type).1.toUInt32 args).log := mem_log_setPattern hstray
    refine ⟨len, hlen, ?_⟩
    refine Logged.mem_log_bind_right (v := (id, polarity :: type :: args)) rfl ?_
    refine Logged.mem_log_bind_right (v := Memory.write (fun _ => 0) 0 pktFilterAdd) rfl ?_
    refine Logged.mem_log_bind_right (v := ()) rfl ?_
    dsimp only
    rw [if_neg (not_not.mpr hdel)]
    refine Logged.mem_log_bind_right (v := (polarity, type :: args)) rfl ?_
    refine Logged.mem_log_bind_right (v := (type, args)) rfl ?_
    apply Logged.mem_log_bind
    rwa [Traced.setFilter, if_pos ht]

theorem not_inBounds_of_stray (hshort : ¬ arg.length > bufSize)
    (hstray : stray delPktFilter (tokens arg) = true) :
    ¬ InBounds (accesses h delPktFilter arg) := by
  intro hin
  obtain ⟨len, hlen, hmem⟩ := mem_log_offload (h := h) hstray
  have hwithin := hin.within (.bufWrite (maskAndPattern h + (2 ^ 32 - 1)) len) (by
    rw [accesses_of_short hshort]
    exact List.mem_cons_of_mem _ (List.mem_append_right _ hmem))
  have hbuf : bufSize = 2048 := rfl
  rcases hwithin with hnil | hle <;> omega

/-- **The accesses are in bounds** if and only if the string is given up for its length, or has
fewer than sixteen tokens and no stray pattern. -/
theorem offloadSet_inBounds_iff (h : Headers) (delPktFilter : UInt32 → ℤ) (arg : Text) :
    InBounds (accesses h delPktFilter arg) ↔ arg.length > bufSize ∨
      (tokens arg).length < argvSize ∧ stray delPktFilter (tokens arg) = false := by
  by_cases hlong : arg.length > bufSize
  · exact iff_of_true (inBounds_of_long hlong) (.inl hlong)
  · constructor
    · intro hin
      refine .inr ⟨?_, ?_⟩
      · by_contra hargv
        exact not_inBounds_of_argv hlong (by omega) hin
      · by_contra hstray
        exact not_inBounds_of_stray hlong (by simpa using hstray) hin
    · rintro (hlong' | ⟨hargv, hstray⟩)
      · exact absurd hlong' hlong
      · exact inBounds_of_short hlong hargv hstray

end InBounds

/-- A filter with five patterns has eighteen tokens. -/
theorem not_offloadSet_inBounds :
    ¬ ∀ (h : Headers) (delPktFilter : UInt32 → ℤ) (arg : Text),
      InBounds (accesses h delPktFilter arg) := by
  intro hall
  have hargv : argvSize ≤ (tokens
      "100 0 2 12 0xff 0x08 13 0xff 0x00 23 0xff 0x11 30 0xff 0xe0 31 0xff 0".toList).length := by
    decide
  exact not_inBounds_of_argv (by decide) hargv (hall wlioctl (fun _ => 0) _)

end Dhd
