import Mathlib.Data.List.Basic
import Mathlib.Tactic.Ring

/-!
# Fixed-size encodings

An encoding of a type in a fixed number of bytes, with the decoder that reads it back from the
front of any byte string. Machine integers are little-endian; a pair is one encoding after the
other.

## Main definitions

* `Codec α`: an encoding of `α`, its decoder, and the laws that relate them
* `Codec.uint8`, `Codec.uint16`, `Codec.uint32`, `Codec.bytes`, `Codec.prod`, `Codec.via`
* `Codec.read`: what a byte string starts with, and the bytes after it

## Main results

* `Codec.read_enc`: an encoding is read back
-/

/-- **A fixed-size encoding** of `α`. -/
structure Codec (α : Type*) where
  size : Nat
  enc : α → List UInt8
  dec : List UInt8 → α
  length_enc (a : α) : (enc a).length = size
  dec_enc (a : α) (rest : List UInt8) : dec (enc a ++ rest) = a

namespace Codec

variable {α β : Type*}

attribute [simp] length_enc

/-- What a byte string starts with, and the bytes after it. -/
def read (c : Codec α) (bs : List UInt8) : Option (α × List UInt8) :=
  if c.size ≤ bs.length then some (c.dec bs, bs.drop c.size) else none

/-- **An encoding is read back.** -/
@[simp] theorem read_enc (c : Codec α) (a : α) (rest : List UInt8) :
    c.read (c.enc a ++ rest) = some (a, rest) := by
  rw [read, if_pos (by simp), c.dec_enc, ← c.length_enc a, List.drop_left]

/-- One encoding after the other. -/
def prod (c : Codec α) (d : Codec β) : Codec (α × β) where
  size := c.size + d.size
  enc p := c.enc p.1 ++ d.enc p.2
  dec bs := (c.dec bs, d.dec (bs.drop c.size))
  length_enc p := by simp
  dec_enc p rest := by
    rw [List.append_assoc, c.dec_enc, ← c.length_enc p.1, List.drop_left, d.dec_enc]

/-- The encoding of what a value is made of. -/
def via (c : Codec β) (f : α → β) (g : β → α) (h : ∀ a, g (f a) = a) : Codec α where
  size := c.size
  enc a := c.enc (f a)
  dec bs := g (c.dec bs)
  length_enc a := c.length_enc (f a)
  dec_enc a rest := by rw [c.dec_enc, h]

/-- A string of `n` bytes. -/
def bytes (n : Nat) : Codec {bs : List UInt8 // bs.length = n} where
  size := n
  enc bs := bs
  dec bs := ⟨(bs ++ List.replicate n 0).take n, by simp⟩
  length_enc bs := bs.2
  dec_enc bs rest := Subtype.ext <| by
    change ((bs.1 ++ rest) ++ List.replicate n 0).take n = bs.1
    rw [List.append_assoc, List.take_left' bs.2]

section LittleEndian

/-- The first `w` bytes of `n`, least significant first. -/
def bytesLE : Nat → Nat → List UInt8
  | 0, _ => []
  | w + 1, n => UInt8.ofNat n :: bytesLE w (n / 256)

/-- The number whose bytes are the first `w` ones. -/
def ofBytesLE : Nat → List UInt8 → Nat
  | 0, _ | _, [] => 0
  | w + 1, b :: bs => b.toNat + 256 * ofBytesLE w bs

theorem length_bytesLE (w n : Nat) : (bytesLE w n).length = w := by
  induction w generalizing n with
  | zero => rfl
  | succ w ih => rw [bytesLE, List.length_cons, ih]

theorem ofBytesLE_bytesLE (w n : Nat) (rest : List UInt8) :
    ofBytesLE w (bytesLE w n ++ rest) = n % 256 ^ w := by
  induction w generalizing n with
  | zero => simp [ofBytesLE, Nat.mod_one]
  | succ w ih =>
    have hbyte : (UInt8.ofNat n).toNat = n % 256 := UInt8.toNat_ofNat'
    rw [bytesLE, List.cons_append, ofBytesLE, ih, hbyte, pow_succ', Nat.mod_mul]

/-- The little-endian encoding of a type of numbers below `256 ^ w`. -/
def le (w : Nat) (toNat : α → Nat) (ofNat : Nat → α) (h : ∀ a, ofNat (toNat a % 256 ^ w) = a) :
    Codec α where
  size := w
  enc a := bytesLE w (toNat a)
  dec bs := ofNat (ofBytesLE w bs)
  length_enc a := length_bytesLE w _
  dec_enc a rest := by rw [ofBytesLE_bytesLE, h]

def uint8 : Codec UInt8 := le 1 UInt8.toNat UInt8.ofNat fun a => by
  rw [Nat.mod_eq_of_lt (show a.toNat < 256 ^ 1 from a.toNat_lt), UInt8.ofNat_toNat]

def uint16 : Codec UInt16 := le 2 UInt16.toNat UInt16.ofNat fun a => by
  rw [Nat.mod_eq_of_lt (show a.toNat < 256 ^ 2 from a.toNat_lt), UInt16.ofNat_toNat]

def uint32 : Codec UInt32 := le 4 UInt32.toNat UInt32.ofNat fun a => by
  rw [Nat.mod_eq_of_lt (show a.toNat < 256 ^ 4 from a.toNat_lt), UInt32.ofNat_toNat]

end LittleEndian

end Codec
