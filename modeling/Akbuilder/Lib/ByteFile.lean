import Mathlib.Data.List.Basic

/-!
# Reading files

An open file is its bytes and a position. `read` takes at most the bytes asked for, and fewer at the
end of the file only; `seek` goes anywhere, also behind the end.

## Main definitions

* `ByteFile`, `ByteFile.read`, `ByteFile.seek`
* `ByteFile.slice`: the bytes of a file at an offset
* `ByteFile.rest`: the bytes that are still to be read

## Main results

* `ByteFile.length_slice_eq_iff`: when a slice is complete
* `ByteFile.rest_read`: what a read leaves
-/

/-- An open file. -/
structure ByteFile where
  bytes : List UInt8
  pos : ℕ

namespace ByteFile

/-- The bytes at an offset: `size` of them, or those up to the end. -/
def slice (bytes : List UInt8) (offset size : ℕ) : List UInt8 := (bytes.drop offset).take size

def openFile (bytes : List UInt8) : ByteFile := ⟨bytes, 0⟩

def read (f : ByteFile) (n : ℕ) : List UInt8 × ByteFile :=
  (slice f.bytes f.pos n, { f with pos := f.pos + (slice f.bytes f.pos n).length })

def seek (f : ByteFile) (offset : ℕ) : ByteFile := { f with pos := offset }

section Slice

variable {bytes : List UInt8} {offset size : ℕ}

theorem length_slice : (slice bytes offset size).length = min size (bytes.length - offset) := by
  rw [slice, List.length_take, List.length_drop]

/-- **A slice is complete** if it is empty, or ends in the file. -/
theorem length_slice_eq_iff :
    (slice bytes offset size).length = size ↔ size = 0 ∨ offset + size ≤ bytes.length := by
  rw [length_slice]
  omega

theorem slice_append_left {front back : List UInt8} (h : offset = front.length) :
    slice (front ++ back) offset size = back.take size := by
  rw [slice, h, List.drop_left]

end Slice

/-- What is still to be read. -/
def rest (f : ByteFile) : List UInt8 := f.bytes.drop f.pos

section Read

variable {f : ByteFile} {n : ℕ}

theorem fst_read : (f.read n).1 = f.rest.take n := rfl

theorem rest_read : (f.read n).2.rest = f.rest.drop n := by
  simp only [rest, read, length_slice, List.drop_drop]
  rcases Nat.le_total n (f.bytes.length - f.pos) with h | h
  · rw [Nat.min_eq_left h]
  · rw [Nat.min_eq_right h, List.drop_of_length_le (by omega), List.drop_of_length_le (by omega)]

/-- A read that stays in the file. -/
theorem read_of_le (h : f.pos + n ≤ f.bytes.length) :
    f.read n = (slice f.bytes f.pos n, ⟨f.bytes, f.pos + n⟩) := by
  rw [read, length_slice_eq_iff.mpr (.inr h)]

end Read

end ByteFile
