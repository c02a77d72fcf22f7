import Akbuilder.Dhd.Language

/-!
# The buffer that is sent

`dhd_pktfilter_offload_set` encodes in place: masks and patterns while it parses, headers behind its
back. Within the room of the buffer the result is the encoding of the filter that the lax reader
reads, and the function gives up exactly where that reader does. A mask that `wl_pattern_atoh`
refuses is the exception, because filters of type 0 and 1 go on with it.

## Main definitions

* `room`: a bound on the bytes that tokens are encoded in
* `Built`: what the loop over list elements has put in the buffer
* `refused`: a filter of type 0 or 1 that is not given up at its mask

## Main results

* `patternList_spec`: the loop encodes the elements that the lax reader reads
* `offload_eq`: so does the function, unless a mask is refused
* `offload_of_refused`: a refused mask ends in an ioctl or in a fault
-/

open CText Memory

namespace Dhd

/-! ## Steps -/

@[simp] theorem ok_bind {ε α β : Type} (a : α) (f : α → Except ε β) :
    (Except.ok a >>= f) = f a := rfl

@[simp] theorem error_bind {ε α β : Type} (e : ε) (f : α → Except ε β) :
    (Except.error e >>= f) = .error e := rfl

@[simp] theorem nextArg_cons (arg : Text) (args : List Text) :
    nextArg (arg :: args) = .ok (arg, args) := rfl

@[simp] theorem nextArg_nil : nextArg [] = .error .fail := rfl

section Steps

variable {buf : Memory} {dst : ℕ} {src : Text} {bytes : List UInt8}

theorem store_eq (hfits : dst + bytes.length ≤ bufSize) :
    store buf dst bytes = .ok (buf.write dst bytes) := if_pos (.inr hfits)

theorem wlPatternAtoh_some (hsrc : atohBytes src = some bytes)
    (hfits : dst + bytes.length ≤ bufSize) :
    wlPatternAtoh buf src dst = .ok (buf.write dst bytes, (bytes.length : ℤ)) := by
  simp [wlPatternAtoh, hsrc, store_eq hfits, pure, Except.pure]

theorem wlPatternAtoh_fault (hsrc : atohBytes src = some bytes) (hne : bytes ≠ [])
    (hout : bufSize < dst + bytes.length) :
    wlPatternAtoh buf src dst = .error (.fault .outOfBounds) := by
  have hstore : store buf dst bytes = .error (.fault .outOfBounds) :=
    if_neg (by simpa [hne] using hout)
  simp [wlPatternAtoh, hsrc, hstore]

theorem wlPatternAtoh_none (hsrc : atohBytes src = none) :
    wlPatternAtoh buf src dst = .ok (buf, -1) := by
  simp [wlPatternAtoh, hsrc]

/-- Sizes, and the -1 of `wl_pattern_atoh`, are told apart as `uint32`. -/
theorem ofInt_inj {a b : ℤ} (ha : -1 ≤ a) (ha' : a < 2 ^ 31) (hb : -1 ≤ b) (hb' : b < 2 ^ 31) :
    UInt32.ofInt a = UInt32.ofInt b ↔ a = b := by
  constructor
  · intro heq
    have := congrArg UInt32.toNat heq
    simp only [UInt32.ofInt, UInt32.toNat_ofNat'] at this
    omega
  · intro heq
    rw [heq]

theorem ofInt_natCast (n : ℕ) : UInt32.ofInt n = UInt32.ofNat n := by
  have : ((n : ℤ) % 2 ^ 32).toNat = n % 2 ^ 32 := by omega
  rw [UInt32.ofInt, this]
  exact UInt32.toNat_inj.mp (by simp)

end Steps

/-! ## Room -/

/-- A bound on the bytes of the buffer that tokens are encoded in. -/
def room (args : List Text) : ℕ := (args.map fun s => 8 + s.length / 2).sum

@[simp] theorem room_cons (arg : Text) (args : List Text) :
    room (arg :: args) = 8 + arg.length / 2 + room args := by
  simp [room]

theorem two_mul_room_le (args : List Text) :
    2 * room args ≤ 16 * args.length + (args.map List.length).sum := by
  induction args with
  | nil => simp [room]
  | cons arg args ih =>
    rw [room_cons, List.length_cons, List.map_cons, List.sum_cons]
    omega

theorem two_mul_length_atohPairs_le : ∀ cs : Text, 2 * (atohPairs cs).length ≤ cs.length
  | [] | [_] => by simp [atohPairs]
  | a :: b :: cs => by
    have := two_mul_length_atohPairs_le cs
    simp only [atohPairs, List.length_cons]
    omega

theorem length_atohBytes_le {s : Text} {bs : List UInt8} (hs : atohBytes s = some bs) :
    bs.length ≤ s.length / 2 := by
  rcases s with _ | ⟨z, _ | ⟨x, cs⟩⟩
  · simp [atohBytes] at hs
  · simp [atohBytes] at hs
  · simp only [atohBytes, Option.ite_none_right_eq_some, Option.some.injEq] at hs
    obtain ⟨-, rfl⟩ := hs
    have := two_mul_length_atohPairs_le cs
    simp only [List.length_cons]
    omega

theorem length_dropNot_le (s : Text) : (dropNot s).length ≤ s.length := by
  unfold dropNot
  split <;> simp

/-! ## Lists of patterns -/

variable {h : Headers}

/-- **What the loop has built**: the elements `gs` stand behind the list header, and the variables
count them. -/
structure Built (h : Headers) (s : ListState) (gs : List Group) : Prop where
  name : Holds s.buf 0 pktFilterAdd
  elements : Holds s.buf (patterns h) (encodeGroups h gs)
  pfEl : s.pfEl = patterns h + (encodeGroups h gs).length
  bufLen : s.bufLen = UInt32.ofNat (pktFilterp + (encodeGroups h gs).length)
  listCnt : s.listCnt = gs.length

theorem patterns_eq : patterns h = 31 := by
  rw [patterns, h.filter_size, h.patlist_size]
  rfl

theorem maskAndPattern_eq : maskAndPattern h = 35 := by
  rw [maskAndPattern, h.filter_size, h.pattern_size]
  rfl

section List

variable {s : ListState} {gs : List Group} {offs : UInt16 × UInt16} {m : List UInt8} {data : Text}

theorem encodeGroups_snoc (gs : List Group) (g : Group) :
    encodeGroups h (gs ++ [g]) = encodeGroups h gs ++ g.encode h := by
  simp [encodeGroups]

/-- The parts of an element, stored behind the ones that are built. -/
theorem Built.snoc (hs : Built h s gs) (g : Group) :
    Built h
      { buf := ((s.buf.write (s.pfEl + h.listel.size) g.pattern.mask).write
          (s.pfEl + h.listel.size + g.pattern.mask.length) g.pattern.data).write s.pfEl
          (h.listel.enc (g.offset, g.base, UInt16.ofNat g.pattern.mask.length,
            if g.negate then h.mflagNeg else 0))
        bufLen := s.bufLen + UInt32.ofNat (h.listel.size + 2 * g.pattern.data.length)
        pfEl := s.pfEl + (h.listel.size + 2 * g.pattern.data.length)
        listCnt := s.listCnt + 1 }
      (gs ++ [g]) := by
  have hlen := g.pattern.length_eq
  have hpfEl := hs.pfEl
  rw [patterns_eq] at hpfEl
  constructor
  · have hname : 0 + pktFilterAdd.length ≤ s.pfEl := by
      rw [length_pktFilterAdd]
      omega
    refine ((hs.name.write_of_disjoint (.inl ?_)).write_of_disjoint (.inl ?_)).write_of_disjoint
      (.inl ?_) <;> omega
  · rw [encodeGroups_snoc, holds_append, ← hs.pfEl, Group.encode, holds_append, holds_append,
      Codec.length_enc]
    -- the header is stored last, behind it the mask, then the pattern
    refine ⟨?_, holds_write, ?_, ?_⟩
    · have hend : patterns h + (encodeGroups h gs).length ≤ s.pfEl := hs.pfEl.ge
      refine ((hs.elements.write_of_disjoint (.inl ?_)).write_of_disjoint
        (.inl ?_)).write_of_disjoint (.inl ?_) <;> omega
    · exact (holds_write.write_of_disjoint (.inl (by omega))).write_of_disjoint (.inr (by simp))
    · exact holds_write.write_of_disjoint (.inr (by simp))
  · have hend := hs.pfEl
    rw [encodeGroups_snoc, List.length_append, length_encode_group, hlen]
    dsimp only
    omega
  · rw [encodeGroups_snoc, List.length_append, length_encode_group, hlen]
    dsimp only
    rw [hs.bufLen, ← UInt32.ofNat_add]
    congr 1
    omega
  · rw [List.length_append, List.length_singleton, hs.listCnt]

/-- A pattern as long as its mask completes an element. -/
theorem putListel_eq (offs : UInt16 × UInt16) (hs : Built h s gs) {p : Pattern}
    (hdata : atohBytes (dropNot data) = some p.data)
    (hfits : s.pfEl + h.listel.size + 2 * p.mask.length ≤ bufSize) :
    ∃ s', putListel h s (s.buf.write (s.pfEl + h.listel.size) p.mask) offs p.mask.length data =
        .ok s' ∧ s'.pfEl = s.pfEl + (h.listel.size + 2 * p.mask.length) ∧
          Built h s' (gs ++ [⟨offs.1, offs.2, data.head? = some '!', p⟩]) := by
  have hlen := p.length_eq
  have htake (fields) : (h.listel.enc fields).take h.pattern.size = h.listel.enc fields := by
    apply List.take_of_length_le
    rw [Codec.length_enc, h.listel_size, h.pattern_size]
  have hflags : matchFlags h data =
      if decide (data.head? = some '!') = true then h.mflagNeg else 0 := by
    simp [matchFlags]
  have hbuilt := hs.snoc ⟨offs.1, offs.2, data.head? = some '!', p⟩
  rw [← hflags] at hbuilt
  -- the state that `putListel` comes to is the one that `Built.snoc` is about
  refine ⟨_, ?_, ?_, hbuilt⟩
  · simp only [putListel, Int.toNat_natCast]
    rw [wlPatternAtoh_some hdata (by omega), ok_bind]
    simp only [htake, ofInt_natCast, hlen]
    rw [if_neg (by omega), if_neg (by simp), store_eq (by rw [Codec.length_enc]; omega)]
    simp [pure, Except.pure]
  · dsimp only
    omega

/-- A pattern that is refused, or not as long as its mask. -/
theorem putListel_fail (hfits : s.pfEl + h.listel.size + m.length + data.length / 2 ≤ bufSize)
    (hdata : ∀ d, atohBytes (dropNot data) = some d → m.length ≠ d.length) {buf : Memory} :
    putListel h s buf offs m.length data = .error .fail := by
  have hbuf : bufSize = 2048 := rfl
  have hdrop := length_dropNot_le data
  cases hd : atohBytes (dropNot data) with
  | none =>
    rw [putListel]
    simp [wlPatternAtoh_none hd]
  | some d =>
    have hlen := length_atohBytes_le hd
    -- sizes this small are compared without loss
    have hne : UInt32.ofInt m.length ≠ UInt32.ofInt d.length := by
      rw [Ne, ofInt_inj (by omega) (by omega) (by omega) (by omega)]
      have := hdata d hd
      omega
    simp only [putListel, Int.toNat_natCast]
    rw [wlPatternAtoh_some hd (by omega), ok_bind]
    dsimp only
    rw [if_neg (by omega), if_pos hne]

theorem patternList_eq (s : ListState) (arg mask data : Text) (args : List Text) :
    patternList h s (arg :: mask :: data :: args) =
      match patternOffset h arg with
      | none => .error .fail
      | some offs => wlPatternAtoh s.buf mask (s.pfEl + h.listel.size) >>= fun r =>
        if r.2 = -1 then .error .fail
        else putListel h s r.1 offs r.2 data >>= fun s => patternList h s args := by
  rw [patternList.eq_def]
  dsimp only
  cases patternOffset h arg <;> rfl

/-- **One turn of the loop.** -/
theorem patternList_cons (hs : Built h s gs) {arg mask : Text}
    (hroom : s.pfEl + room [arg, mask, data] ≤ bufSize) :
    match (lax h).group arg mask data with
    | some g => ∃ s', Built h s' (gs ++ [g]) ∧ s'.pfEl ≤ s.pfEl + room [arg, mask, data] ∧
        ∀ args, patternList h s (arg :: mask :: data :: args) = patternList h s' args
    | none => ∀ args, patternList h s (arg :: mask :: data :: args) = .error .fail := by
  have hlistel := h.listel_size
  simp only [room_cons] at hroom ⊢
  simp only [patternList_eq, Reader.group, Reader.pattern, lax]
  cases patternOffset h arg with
  | none => exact fun _ => rfl
  | some offs =>
    cases hm : atohBytes mask with
    | none => simp [wlPatternAtoh_none hm]
    | some m =>
      have hmask := length_atohBytes_le hm
      have hatoh : wlPatternAtoh s.buf mask (s.pfEl + h.listel.size) =
          .ok (s.buf.write (s.pfEl + h.listel.size) m, (m.length : ℤ)) :=
        wlPatternAtoh_some hm (by omega)
      have hrc : ¬ (m.length : ℤ) = -1 := by omega
      simp only [hatoh, ok_bind, hrc, if_false]
      have hput {buf : Memory}
          (hne : ∀ d, atohBytes (dropNot data) = some d → m.length ≠ d.length) :
          putListel h s buf offs m.length data = .error .fail := putListel_fail (by omega) hne
      cases hd : atohBytes (dropNot data) with
      | none => simp [hput (by simp [hd])]
      | some d =>
        by_cases hlen : m.length = d.length
        · have hdata := (length_atohBytes_le hd).trans
            (Nat.div_le_div_right (length_dropNot_le data))
          obtain ⟨s', hs', hpfEl, hbuilt⟩ := putListel_eq offs hs (p := ⟨m, d, hlen⟩) hd
            (show s.pfEl + h.listel.size + 2 * m.length ≤ bufSize by omega)
          dsimp only at hs' hpfEl
          simp only [Option.bind_eq_bind, Option.bind_some, dif_pos hlen, hs', ok_bind]
          exact ⟨s', hbuilt, by omega, fun args => rfl⟩
        · simp [hput (by simpa [hd] using hlen), hlen]

/-- **The loop encodes the elements that the lax reader reads**, and gives up where it does. -/
theorem patternList_spec : ∀ {args : List Text} {s : ListState} {gs : List Group}, Built h s gs →
    s.pfEl + room args ≤ bufSize →
      match (lax h).groups args with
      | some gs' => ∃ s', patternList h s args = .ok s' ∧ s'.pfEl ≤ s.pfEl + room args ∧
          Built h s' (gs ++ gs')
      | none => patternList h s args = .error .fail
  | [], s, gs, hs, _ => ⟨s, rfl, Nat.le_add_right _ _, by simpa using hs⟩
  | [arg], s, gs, hs, _ => by
    -- no mask: the offset is read, and then the function gives up in any case
    show patternList h s [arg] = .error .fail
    unfold patternList
    cases patternOffset h arg <;> rfl
  | [arg, mask], s, gs, hs, hroom => by
    -- no pattern: the mask is in the buffer before it is missed
    show patternList h s [arg, mask] = .error .fail
    have hlistel := h.listel_size
    simp only [room_cons] at hroom
    unfold patternList
    cases patternOffset h arg with
    | none => rfl
    | some offs =>
      cases hm : atohBytes mask with
      | none => simp [wlPatternAtoh_none hm]
      | some m =>
        have := length_atohBytes_le hm
        simp only [wlPatternAtoh_some hm (show s.pfEl + h.listel.size + m.length ≤ _ by omega),
          ok_bind, ite_self]
  | arg :: mask :: data :: args, s, gs, hs, hroom => by
    have hsplit : room (arg :: mask :: data :: args) = room [arg, mask, data] + room args := by
      have : room [] = 0 := rfl
      simp only [room_cons]
      omega
    rw [hsplit] at hroom ⊢
    have hturn := patternList_cons hs (show s.pfEl + room [arg, mask, data] ≤ bufSize by omega)
    rw [Reader.groups]
    cases hg : (lax h).group arg mask data with
    | none =>
      rw [hg] at hturn
      exact hturn args
    | some g =>
      rw [hg] at hturn
      obtain ⟨s', hs', hpfEl, hstep⟩ := hturn
      -- the room that is left suffices for the tokens that are left
      have ih := patternList_spec hs' (show s'.pfEl + room args ≤ bufSize by omega)
      rw [hstep]
      cases hgs : (lax h).groups args with
      | none =>
        rw [hgs] at ih
        exact ih
      | some gs' =>
        rw [hgs] at ih
        obtain ⟨t, ht, hle, hbuilt⟩ := ih
        exact ⟨t, ht, by omega, by simpa using hbuilt⟩

end List

/-! ## Filters -/

section Filters

variable {buf : Memory} (id polarity : UInt32) {type : UInt32} {args : List Text}

/-- The buffer up to `buf_len` is `bytes`, and is inside the 2048 bytes. -/
def Encodes (r : Except Exit (Memory × UInt32)) (bytes : List UInt8) : Prop :=
  bytes.length ≤ bufSize ∧
    ∃ buf len, r = .ok (buf, len) ∧ buf.read 0 len.toNat = bytes

/-- The header is stored last, between the name and what is in the buffer already. -/
theorem encodes_write {header rest : List UInt8} {len : UInt32} (hname : Holds buf 0 pktFilterAdd)
    (hrest : Holds buf (pktFilterp + header.length) rest)
    (hlen : len.toNat = pktFilterp + (header.length + rest.length))
    (hfits : pktFilterp + (header.length + rest.length) ≤ bufSize) :
    Encodes (.ok (buf.write pktFilterp header, len)) (pktFilterAdd ++ (header ++ rest)) := by
  have hlength : (pktFilterAdd ++ (header ++ rest)).length =
      pktFilterp + (header.length + rest.length) := by
    rw [List.length_append, List.length_append]
  refine ⟨hlength.trans_le hfits, _, _, rfl, ?_⟩
  rw [hlen, ← hlength]
  apply Holds.read_eq
  rw [holds_append, holds_append]
  refine ⟨hname.write_of_disjoint (.inl (Nat.zero_add _).le), holds_write, ?_⟩
  exact hrest.write_of_disjoint (.inr le_rfl)

/-- What the lengths come to behind the loop. -/
theorem Built.lengths {s : ListState} {gs : List Group} (hs : Built h s gs)
    (hle : s.pfEl ≤ bufSize) :
    (s.bufLen + UInt32.ofNat (h.filter.size + h.patlist.size)).toNat =
        pktFilterp + (h.filter.size + h.patlist.size + (encodeGroups h gs).length) ∧
      (s.bufLen + UInt32.ofNat (h.filter.size + h.patlist.size) -
        UInt32.ofNat pktFilterp).toUInt16 - UInt16.ofNat h.filter.size =
          UInt16.ofNat (h.patlist.size + (encodeGroups h gs).length) := by
  have hbuf : bufSize = 2048 := rfl
  have hfilter := h.filter_size
  have hpatlist := h.patlist_size
  have hpatterns := patterns_eq (h := h)
  have hp : pktFilterp = 15 := rfl
  have hpfEl := hs.pfEl
  rw [hs.bufLen, ← UInt32.ofNat_add]
  constructor
  · rw [UInt32.toNat_ofNat', Nat.mod_eq_of_lt (by omega)]
    omega
  · rw [← UInt32.ofNat_sub (by omega), UInt32.toUInt16_ofNat', ← UInt16.ofNat_sub (by omega)]
    congr 1
    omega

theorem setPatternList_spec (hname : Holds buf 0 pktFilterAdd) (ht : type = 2 ∨ type = 6)
    (hroom : patterns h + room args ≤ bufSize) :
    match (lax h).groups args with
    | some gs => Encodes (setPatternList h buf id polarity type args)
        (encode h ⟨id, polarity, .list ⟨type, ht⟩ gs⟩)
    | none => setPatternList h buf id polarity type args = .error .fail := by
  have hbuf : bufSize = 2048 := rfl
  have hfilter := h.filter_size
  have hpatlist := h.patlist_size
  have hpatterns := patterns_eq (h := h)
  have hp : pktFilterp = 15 := rfl
  have hstart : Built h ⟨buf, UInt32.ofNat pktFilterp, patterns h, 0⟩ [] := by
    constructor
    · exact hname
    · exact holds_nil
    · rfl
    · rfl
    · rfl
  have hloop := patternList_spec hstart hroom
  cases hgs : (lax h).groups args with
  | none =>
    rw [hgs] at hloop
    simp [setPatternList, hloop]
  | some gs =>
    rw [hgs] at hloop
    obtain ⟨s, hs, hle, hbuilt⟩ := hloop
    rw [List.nil_append] at hbuilt
    dsimp only at hle ⊢
    obtain ⟨hbufLen, htotsize⟩ := hbuilt.lengths (by omega)
    set header := h.filter.enc (id, type, polarity) ++ h.patlist.enc (UInt8.ofNat gs.length, 0,
      UInt16.ofNat (h.patlist.size + (encodeGroups h gs).length)) with hheader
    have hlenHeader : header.length = h.filter.size + h.patlist.size := by
      rw [hheader, List.length_append, Codec.length_enc, Codec.length_enc]
    have hbytes : encode h ⟨id, polarity, .list ⟨type, ht⟩ gs⟩ =
        pktFilterAdd ++ (header ++ encodeGroups h gs) := by
      rw [hheader, List.append_assoc]
      rfl
    have hpfEl := hbuilt.pfEl
    have hfits : pktFilterp + (header.length + (encodeGroups h gs).length) ≤ bufSize := by omega
    have hset : setPatternList h buf id polarity type args =
        .ok (s.buf.write pktFilterp header,
          s.bufLen + UInt32.ofNat (h.filter.size + h.patlist.size)) := by
      simp only [setPatternList, hs, ok_bind, htotsize, hbuilt.listCnt]
      rw [← hheader, store_eq (by omega), ok_bind]
      rfl
    rw [hset, hbytes]
    refine encodes_write hbuilt.name ?_ (by omega) hfits
    have hend : pktFilterp + header.length = patterns h := by omega
    rw [hend]
    exact hbuilt.elements

/-- A mask that `wl_pattern_atoh` refuses, with a pattern that does not stop the function. -/
def maskRefused : List Text → Bool
  | _ :: mask :: data :: _ => (atohBytes mask).isNone && atohBytes data != some []
  | _ => false

theorem setPattern_cons (buf : Memory) (offset mask data : Text) (rest : List Text) :
    setPattern h buf id polarity type (offset :: mask :: data :: rest) =
      wlPatternAtoh buf mask (maskAndPattern h) >>= fun r =>
      wlPatternAtoh r.1 data (maskAndPattern h + (UInt32.ofInt r.2).toNat) >>= fun r' =>
      if UInt32.ofInt r.2 ≠ UInt32.ofInt r'.2 then .error .fail
      else store r'.1 pktFilterp (h.filter.enc (id, type, polarity) ++
          h.pattern.enc ((strtoul 0 offset).1.toUInt32, UInt32.ofInt r.2)) >>= fun buf =>
        .ok (buf, UInt32.ofNat (pktFilterp + h.filter.size) +
          (UInt32.ofNat h.pattern.size + 2 * UInt32.ofInt r.2)) := rfl

theorem toNat_ofInt {n : ℕ} (hn : n < 2 ^ 32) : (UInt32.ofInt n).toNat = n := by
  rw [ofInt_natCast, UInt32.toNat_ofNat', Nat.mod_eq_of_lt hn]

/-- A mask, and a pattern as long. -/
theorem setPattern_eq (hname : Holds buf 0 pktFilterAdd) (ht : type = 0 ∨ type = 1) {p : Pattern}
    {offset mask data : Text} {rest : List Text} (hm : atohBytes mask = some p.mask)
    (hd : atohBytes data = some p.data) (hfits : maskAndPattern h + 2 * p.mask.length ≤ bufSize) :
    Encodes (setPattern h buf id polarity type (offset :: mask :: data :: rest))
      (encode h ⟨id, polarity, .pattern ⟨type, ht⟩ (strtoul 0 offset).1.toUInt32 p⟩) := by
  have hbuf : bufSize = 2048 := rfl
  have hp : pktFilterp = 15 := rfl
  have hname' : pktFilterAdd.length = 15 := rfl
  have hlen := p.length_eq
  have hstart : maskAndPattern h = pktFilterp + (h.filter.size + h.pattern.size) := by
    rw [maskAndPattern, Nat.add_assoc]
  have hfilter := h.filter_size
  have hpattern := h.pattern_size
  set header := h.filter.enc (id, type, polarity) ++
    h.pattern.enc ((strtoul 0 offset).1.toUInt32, UInt32.ofNat p.mask.length) with hheader
  have hlenHeader : header.length = h.filter.size + h.pattern.size := by
    rw [hheader, List.length_append, Codec.length_enc, Codec.length_enc]
  have hbytes : encode h ⟨id, polarity, .pattern ⟨type, ht⟩ (strtoul 0 offset).1.toUInt32 p⟩ =
      pktFilterAdd ++ (header ++ (p.mask ++ p.data)) := by
    rw [hheader, List.append_assoc]
    rfl
  have hsize : (UInt32.ofInt p.mask.length).toNat = p.mask.length := toNat_ofInt (by omega)
  have hset : setPattern h buf id polarity type (offset :: mask :: data :: rest) =
      .ok (((buf.write (maskAndPattern h) p.mask).write (maskAndPattern h + p.mask.length)
        p.data).write pktFilterp header, UInt32.ofNat (pktFilterp + h.filter.size) +
          (UInt32.ofNat h.pattern.size + 2 * UInt32.ofNat p.mask.length)) := by
    rw [setPattern_cons, wlPatternAtoh_some hm (by omega), ok_bind]
    dsimp only
    rw [hsize, wlPatternAtoh_some hd (by omega), ok_bind, ← hlen, if_neg (by simp), ofInt_natCast,
      ← hheader, store_eq (by omega), ok_bind]
  rw [hset, hbytes]
  clear_value header
  refine encodes_write ?_ ?_ ?_ ?_
  · refine (hname.write_of_disjoint (.inl ?_)).write_of_disjoint (.inl ?_) <;> omega
  · -- the mask, and the pattern behind it
    rw [hlenHeader, ← hstart, holds_append]
    exact ⟨holds_write.write_of_disjoint (.inl le_rfl), holds_write⟩
  · have htwo : (2 : UInt32) = UInt32.ofNat 2 := rfl
    rw [htwo, ← UInt32.ofNat_mul, ← UInt32.ofNat_add, ← UInt32.ofNat_add, UInt32.toNat_ofNat',
      Nat.mod_eq_of_lt (by omega), List.length_append]
    omega
  · rw [List.length_append]
    omega

/-- **The one pattern of a filter is encoded as the lax reader reads it.** -/
theorem setPattern_spec (hname : Holds buf 0 pktFilterAdd) (ht : type = 0 ∨ type = 1)
    (hroom : maskAndPattern h + room args ≤ bufSize) (hmask : maskRefused args = false) :
    match (lax h).body type args with
    | some b => Encodes (setPattern h buf id polarity type args) (encode h ⟨id, polarity, b⟩)
    | none => setPattern h buf id polarity type args = .error .fail := by
  have hbuf : bufSize = 2048 := rfl
  rw [Reader.body, dif_pos ht]
  rcases args with _ | ⟨offset, _ | ⟨mask, _ | ⟨data, rest⟩⟩⟩
  · rfl
  · rfl
  · -- the mask is written before the pattern is missed
    show setPattern h buf id polarity type [offset, mask] = .error .fail
    simp only [room_cons] at hroom
    cases hm : atohBytes mask with
    | none => simp [setPattern, wlPatternAtoh_none hm]
    | some m =>
      have := length_atohBytes_le hm
      simp [setPattern, wlPatternAtoh_some hm (show maskAndPattern h + m.length ≤ _ by omega)]
  · simp only [room_cons] at hroom
    simp only [Reader.pattern, lax, Bool.true_or, if_true]
    cases hm : atohBytes mask with
    | none =>
      -- the pattern is empty, and no mask has its size
      have hd : atohBytes data = some [] := by simpa [maskRefused, hm] using hmask
      have hatoh {buf : Memory} {dst : ℕ} :
          wlPatternAtoh buf data dst = .ok (buf.write dst [], 0) := by
        simp [wlPatternAtoh, hd, store, pure, Except.pure]
      have hne : UInt32.ofInt (-1) ≠ UInt32.ofInt 0 := by decide
      rw [setPattern_cons, wlPatternAtoh_none hm, ok_bind, hatoh, ok_bind, if_pos hne]
      rfl
    | some m =>
      have := length_atohBytes_le hm
      have hatoh : wlPatternAtoh buf mask (maskAndPattern h) =
          .ok (buf.write (maskAndPattern h) m, (m.length : ℤ)) := wlPatternAtoh_some hm (by omega)
      cases hd : atohBytes data with
      | none =>
        have hne : UInt32.ofInt m.length ≠ UInt32.ofInt (-1) := by
          rw [Ne, ofInt_inj (by omega) (by omega) (by omega) (by omega)]
          omega
        rw [setPattern_cons, hatoh, ok_bind, wlPatternAtoh_none hd, ok_bind, if_pos hne]
        rfl
      | some d =>
        have := length_atohBytes_le hd
        by_cases hlen : m.length = d.length
        · simp only [Option.bind_eq_bind, Option.bind_some, dif_pos hlen]
          refine setPattern_eq id polarity hname ht (p := ⟨m, d, hlen⟩) hm hd ?_
          dsimp only
          omega
        · have hne : UInt32.ofInt m.length ≠ UInt32.ofInt d.length := by
            rw [Ne, ofInt_inj (by omega) (by omega) (by omega) (by omega)]
            omega
          have hsize : (UInt32.ofInt m.length).toNat = m.length := toNat_ofInt (by omega)
          rw [setPattern_cons, hatoh, ok_bind, hsize, wlPatternAtoh_some hd (by omega), ok_bind,
            if_pos hne]
          simp [hlen]

/-- **A refused mask does not stop the function**: it sends a buffer of a wrong length, or writes a
pattern far behind the buffer. -/
theorem setPattern_of_maskRefused (hmask : maskRefused args = true) :
    setPattern h buf id polarity type args ≠ .error .fail := by
  rcases args with _ | ⟨offset, _ | ⟨mask, _ | ⟨data, rest⟩⟩⟩
  · simp [maskRefused] at hmask
  · simp [maskRefused] at hmask
  · simp [maskRefused] at hmask
  · simp only [maskRefused, Bool.and_eq_true, Option.isNone_iff_eq_none, bne_iff_ne] at hmask
    obtain ⟨hm, hd⟩ := hmask
    rw [setPattern_cons, wlPatternAtoh_none hm, ok_bind]
    dsimp only
    cases hd' : atohBytes data with
    | none =>
      -- both are refused, and both sizes are 2^32 - 1
      rw [wlPatternAtoh_none hd', ok_bind, if_neg (by simp), store_eq, ok_bind]
      · simp
      · have hbuf : bufSize = 2048 := rfl
        have hp : pktFilterp = 15 := rfl
        have hfilter := h.filter_size
        have hpattern := h.pattern_size
        simp only [List.length_append, Codec.length_enc]
        omega
    | some d =>
      -- a byte of the pattern goes 2^32 - 1 bytes behind the mask
      have hne : d ≠ [] := by
        rintro rfl
        exact hd hd'
      have hbuf : bufSize = 2048 := rfl
      have hsize : (UInt32.ofInt (-1)).toNat = 2 ^ 32 - 1 := by decide
      rw [hsize, wlPatternAtoh_fault hd' hne (by omega), error_bind]
      simp

end Filters

/-! ## Commands -/

section Commands

variable {delPktFilter : UInt32 → ℤ} {args : List Text}

/-- A filter of type 0 or 1 that is not given up at its mask. -/
def refused : List Text → Bool
  | _ :: _ :: type :: args =>
    let type := (strtoul 0 type).1.toUInt32
    (type = 0 || type = 1) && maskRefused args
  | _ => false

/-- **The body of a filter is encoded as the lax reader reads it.** -/
theorem setFilter_spec {buf : Memory} (id polarity : UInt32) {type : UInt32}
    (hname : Holds buf 0 pktFilterAdd) (hroom : 35 + room args ≤ bufSize)
    (hmask : (type = 0 ∨ type = 1) → maskRefused args = false) :
    match (lax h).body type args with
    | some b => Encodes (setFilter h buf id polarity type args) (encode h ⟨id, polarity, b⟩)
    | none => setFilter h buf id polarity type args = .error .fail := by
  unfold setFilter
  by_cases ht : type = 0 ∨ type = 1
  · rw [if_pos ht]
    exact setPattern_spec id polarity hname ht (by rwa [maskAndPattern_eq]) (hmask ht)
  · rw [if_neg ht, Reader.body, dif_neg ht]
    by_cases ht' : type = 2 ∨ type = 6
    · have hlist := setPatternList_spec id polarity hname ht'
        (show patterns h + room args ≤ bufSize by rw [patterns_eq]; omega)
      rw [if_pos ht', dif_pos ht']
      cases hgs : (lax h).groups args with
      | none => simpa [hgs] using hlist
      | some gs => simpa [hgs] using hlist
    · rw [if_neg ht', dif_neg ht']

theorem offload_cons (hdel : ∀ id, delPktFilter id = 0) (id polarity type : Text) :
    offload h delPktFilter (id :: polarity :: type :: args) =
      setFilter h (write (fun _ => 0) 0 pktFilterAdd) (strtoul 0 id).1.toUInt32
        (strtoul 0 polarity).1.toUInt32 (strtoul 0 type).1.toUInt32 args >>= fun r =>
          .ok (r.1.read 0 r.2.toNat) := by
  have hstore : store (fun _ => 0) 0 pktFilterAdd = .ok (write (fun _ => 0) 0 pktFilterAdd) :=
    store_eq (by decide)
  simp only [offload, nextArg_cons, hstore, ok_bind, hdel, ne_eq, not_true_eq_false, if_false]
  rfl

/-- **The function encodes the command that the lax reader reads**, and gives up where there is
none. -/
theorem offload_eq (hdel : ∀ id, delPktFilter id = 0) (hroom : 35 + room args ≤ bufSize)
    (hrefused : refused args = false) :
    match (lax h).command args with
    | some c => (encode h c).length ≤ bufSize ∧ offload h delPktFilter args = .ok (encode h c)
    | none => offload h delPktFilter args = .error .fail := by
  have hstore : store (fun _ => 0) 0 pktFilterAdd = .ok (write (fun _ => 0) 0 pktFilterAdd) :=
    store_eq (by decide)
  rcases args with _ | ⟨id, _ | ⟨polarity, _ | ⟨type, args⟩⟩⟩
  · rfl
  · show offload h delPktFilter [id] = .error .fail
    simp [offload, hstore, hdel]
  · show offload h delPktFilter [id, polarity] = .error .fail
    simp [offload, hstore, hdel]
  · have hmask : ((strtoul 0 type).1.toUInt32 = 0 ∨ (strtoul 0 type).1.toUInt32 = 1) →
        maskRefused args = false := by
      intro ht
      simpa [refused, ht] using hrefused
    have hname : Holds (write (fun _ => 0) 0 pktFilterAdd) 0 pktFilterAdd := holds_write
    simp only [room_cons] at hroom
    have hspec := setFilter_spec (h := h) (strtoul 0 id).1.toUInt32 (strtoul 0 polarity).1.toUInt32
      hname (show 35 + room args ≤ bufSize by omega) hmask
    have hcommand : (lax h).command (id :: polarity :: type :: args) =
        ((lax h).body (strtoul 0 type).1.toUInt32 args).map fun b =>
          ⟨(strtoul 0 id).1.toUInt32, (strtoul 0 polarity).1.toUInt32, b⟩ := by
      show ((lax h).body (strtoul 0 type).1.toUInt32 args >>= fun b => some _) = _
      cases (lax h).body (strtoul 0 type).1.toUInt32 args <;> rfl
    rw [offload_cons hdel, hcommand]
    cases hb : (lax h).body (strtoul 0 type).1.toUInt32 args with
    | none =>
      rw [hb] at hspec
      simp [hspec]
    | some b =>
      rw [hb] at hspec
      obtain ⟨hfits, buf, len, hset, hread⟩ := hspec
      exact ⟨hfits, by simp [hset, hread]⟩

/-- A refused mask is not given up. -/
theorem offload_of_refused (hdel : ∀ id, delPktFilter id = 0) (hrefused : refused args = true) :
    offload h delPktFilter args ≠ .error .fail := by
  rcases args with _ | ⟨id, _ | ⟨polarity, _ | ⟨type, args⟩⟩⟩
  · simp [refused] at hrefused
  · simp [refused] at hrefused
  · simp [refused] at hrefused
  · simp only [refused, Bool.and_eq_true, Bool.or_eq_true, decide_eq_true_eq] at hrefused
    obtain ⟨ht, hmask⟩ := hrefused
    rw [offload_cons hdel, setFilter, if_pos ht]
    have hset : setPattern h (write (fun _ => 0) 0 pktFilterAdd) (strtoul 0 id).1.toUInt32
        (strtoul 0 polarity).1.toUInt32 (strtoul 0 type).1.toUInt32 args ≠ .error .fail :=
      setPattern_of_maskRefused _ _ hmask
    -- what follows the encoding of the filter always sends it
    revert hset
    generalize setPattern h _ _ _ _ args = r
    intro hset
    cases r with
    | error e => simpa using hset
    | ok r => simp

end Commands

end Dhd
