import Akbuilder.Dhd.PktFilter

/-!
# Packet filter commands

What a packet filter is, and how it stands in the buffer of a `pkt_filter_add` ioctl. A filter of
type 0 or 1 has one pattern at an offset, one of type 2 or 6 a list of patterns, each at an offset
from a base and possibly negated.

## Main definitions

* `Pattern`, `Group`, `Command`: packet filters
* `encode`, `decode`: a filter as the bytes of the ioctl buffer

## Main results

* `decode_encode`: the buffer of a filter that fits is read back
-/

open CText

namespace Dhd

/-- A mask, and a pattern of the same length. -/
structure Pattern where
  mask : List UInt8
  data : List UInt8
  length_eq : mask.length = data.length
  deriving DecidableEq, Repr

/-- A pattern of a list. -/
structure Group where
  base : UInt16
  offset : UInt16
  negate : Bool
  pattern : Pattern
  deriving DecidableEq, Repr

/-- The patterns of a filter, by its type. -/
inductive Body
  | pattern (type : {t : UInt32 // t = 0 ∨ t = 1}) (offset : UInt32) (p : Pattern)
  | list (type : {t : UInt32 // t = 2 ∨ t = 6}) (groups : List Group)
  deriving DecidableEq, Repr

def Body.type : Body → UInt32
  | pattern t _ _ => t
  | list t _ => t

/-- **A packet filter.** -/
structure Command where
  id : UInt32
  polarity : UInt32
  body : Body
  deriving DecidableEq, Repr

variable (h : Headers)

/-! ## Encoding -/

/-- A list element. -/
def Group.encode (g : Group) : List UInt8 :=
  h.listel.enc (g.offset, g.base, UInt16.ofNat g.pattern.mask.length,
    if g.negate then h.mflagNeg else 0) ++ (g.pattern.mask ++ g.pattern.data)

/-- The list elements, one after the other. -/
def encodeGroups (gs : List Group) : List UInt8 := gs.flatMap (Group.encode h)

def Body.encode : Body → List UInt8
  | pattern _ offset p =>
    h.pattern.enc (offset, UInt32.ofNat p.mask.length) ++ (p.mask ++ p.data)
  | list _ gs =>
    h.patlist.enc (UInt8.ofNat gs.length, 0,
      UInt16.ofNat (h.patlist.size + (encodeGroups h gs).length)) ++ encodeGroups h gs

/-- **The bytes of a filter** up to `buf_len`. -/
def encode (c : Command) : List UInt8 :=
  pktFilterAdd ++ (h.filter.enc (c.id, c.body.type, c.polarity) ++ c.body.encode h)

/-! ## Decoding -/

/-- A mask and a pattern of `n` bytes each, and the bytes after them. -/
def readPattern (n : ℕ) (bs : List UInt8) : Option (Pattern × List UInt8) :=
  if hn : 2 * n ≤ bs.length then
    some (⟨bs.take n, (bs.drop n).take n, by simp; omega⟩, bs.drop (2 * n))
  else none

/-- A list element, and the bytes after it. -/
def readGroup (bs : List UInt8) : Option (Group × List UInt8) := do
  let ((offset, base, size, flags), bs) ← h.listel.read bs
  let (p, bs) ← readPattern size.toNat bs
  return (⟨base, offset, flags = h.mflagNeg, p⟩, bs)

/-- The given number of list elements, to the end of the bytes. -/
def readGroups : ℕ → List UInt8 → Option (List Group)
  | 0, bs => if bs = [] then some [] else none
  | n + 1, bs => do
    let (g, bs) ← readGroup h bs
    let gs ← readGroups n bs
    return g :: gs

/-- The filter that the bytes of a buffer stand for. -/
def decode (bs : List UInt8) : Option Command :=
  if bs.take pktFilterAdd.length = pktFilterAdd then do
    let ((id, type, polarity), bs) ← h.filter.read (bs.drop pktFilterAdd.length)
    if ht : type = 0 ∨ type = 1 then
      let ((offset, size), bs) ← h.pattern.read bs
      let (p, bs) ← readPattern size.toNat bs
      if bs = [] then some ⟨id, polarity, .pattern ⟨type, ht⟩ offset p⟩ else none
    else if ht : type = 2 ∨ type = 6 then
      let ((listCnt, _, _), bs) ← h.patlist.read bs
      let gs ← readGroups h listCnt.toNat bs
      some ⟨id, polarity, .list ⟨type, ht⟩ gs⟩
    else none
  else none

/-! ## The round trip -/

section RoundTrip

variable {h}

theorem readPattern_append (p : Pattern) (rest : List UInt8) :
    readPattern p.mask.length (p.mask ++ p.data ++ rest) = some (p, rest) := by
  obtain ⟨mask, data, hlen⟩ := p
  have htake : (mask ++ data ++ rest).take mask.length = mask := by simp
  have hdata : ((mask ++ data ++ rest).drop mask.length).take mask.length = data := by
    rw [List.append_assoc, List.drop_left, hlen, List.take_left]
  have hrest : (mask ++ data ++ rest).drop (2 * mask.length) = rest := by
    have : 2 * mask.length = (mask ++ data).length := by
      rw [List.length_append]
      omega
    rw [this, List.drop_left]
  rw [readPattern, dif_pos (by simp; omega)]
  simp only [htake, hdata, hrest]

theorem length_encode_group (g : Group) :
    (g.encode h).length = h.listel.size + 2 * g.pattern.mask.length := by
  have := g.pattern.length_eq
  simp only [Group.encode, List.length_append, Codec.length_enc]
  omega

theorem readGroup_append {g : Group} (hg : g.pattern.mask.length < 2 ^ 16) (rest : List UInt8) :
    readGroup h (g.encode h ++ rest) = some (g, rest) := by
  have hsize : (UInt16.ofNat g.pattern.mask.length).toNat = g.pattern.mask.length := by
    rw [UInt16.toNat_ofNat', Nat.mod_eq_of_lt hg]
  have hflags : decide ((if g.negate = true then h.mflagNeg else 0) = h.mflagNeg) = g.negate := by
    cases g.negate <;> simp [h.mflagNeg_ne_zero.symm]
  simp only [readGroup, Group.encode, List.append_assoc, Codec.read_enc, Option.bind_eq_bind,
    Option.bind_some, hsize]
  rw [← List.append_assoc, readPattern_append]
  simp only [Option.bind_some, hflags]
  rfl

theorem length_le_encodeGroups {g : Group} {gs : List Group} (hg : g ∈ gs) :
    g.pattern.mask.length ≤ (encodeGroups h gs).length := by
  induction gs with
  | nil => cases hg
  | cons g' gs ih =>
    rw [encodeGroups, List.flatMap_cons, List.length_append, length_encode_group]
    -- the element itself, or one behind it
    rcases List.mem_cons.mp hg with rfl | hmem
    · omega
    · have := ih hmem
      rw [encodeGroups] at this
      omega

theorem readGroups_encodeGroups {gs : List Group}
    (hgs : ∀ g ∈ gs, g.pattern.mask.length < 2 ^ 16) :
    readGroups h gs.length (encodeGroups h gs) = some gs := by
  induction gs with
  | nil => rfl
  | cons g gs ih =>
    rw [List.length_cons, readGroups, encodeGroups, List.flatMap_cons,
      readGroup_append (hgs g (by simp))]
    have ih := ih fun g hg => hgs g (by simp [hg])
    rw [encodeGroups] at ih
    simp [ih]

/-- Each list element takes its header at least. -/
theorem size_mul_length_le (gs : List Group) :
    h.listel.size * gs.length ≤ (encodeGroups h gs).length := by
  induction gs with
  | nil => simp
  | cons g gs ih =>
    rw [encodeGroups] at ih ⊢
    rw [List.flatMap_cons, List.length_append, length_encode_group, List.length_cons, Nat.mul_succ]
    omega

/-- **The buffer of a filter that fits is read back.** -/
theorem decode_encode {c : Command} (hfits : (encode h c).length ≤ bufSize) :
    decode h (encode h c) = some c := by
  obtain ⟨id, polarity, body⟩ := c
  simp only [encode, List.length_append, length_pktFilterAdd, bufSize] at hfits
  rw [decode, encode, List.take_left, if_pos rfl, List.drop_left]
  simp only [Codec.read_enc, Option.bind_eq_bind, Option.bind_some]
  cases body with
  | pattern type offset p =>
    obtain ⟨type, ht⟩ := type
    simp only [Body.encode, List.length_append] at hfits
    -- nothing follows the pattern
    have hlen : p.mask.length < 2 ^ 32 := by omega
    have hsize : (UInt32.ofNat p.mask.length).toNat = p.mask.length := by
      rw [UInt32.toNat_ofNat', Nat.mod_eq_of_lt hlen]
    have hread := readPattern_append p []
    rw [List.append_nil] at hread
    simp only [Body.type, ht, dif_pos, Body.encode, Codec.read_enc, Option.bind_some, hsize, hread,
      if_true]
  | list type gs =>
    obtain ⟨type, ht⟩ := type
    have hne : ¬ (type = 0 ∨ type = 1) := by rcases ht with rfl | rfl <;> decide
    simp only [Body.encode, List.length_append] at hfits
    -- the buffer has no room for 256 list elements
    have hcnt : (UInt8.ofNat gs.length).toNat = gs.length := by
      have := size_mul_length_le (h := h) gs
      rw [h.listel_size] at this
      rw [UInt8.toNat_ofNat', Nat.mod_eq_of_lt]
      omega
    have hgs : ∀ g ∈ gs, g.pattern.mask.length < 2 ^ 16 := by
      intro g hg
      have := length_le_encodeGroups (h := h) hg
      omega
    simp only [Body.type, hne, ht, dif_pos, dif_neg, not_false_eq_true, Body.encode,
      Codec.read_enc, Option.bind_some, hcnt, readGroups_encodeGroups hgs]

end RoundTrip

end Dhd
