import Mathlib.Data.List.Basic
import Mathlib.Data.Nat.ModEq
import Mathlib.Logic.Function.Basic

/-!
# Circular buffers

A buffer of `d` slots is written and read at indices that go round. A window of it is a list of
items that lie in the slots from some index on, fewer than there are slots, so that every index
into the window is a slot of its own.

## Main definitions

* `contents d mem r n`: the `n` items from the slot `r` on
* `Window d mem r l`: the slots from `r` on hold the items `l`
* `apart r w d`: how many slots the index `w` is ahead of `r`

## Main results

* `Window.write`: writing a slot of the window changes that item and no other
* `Window.grow`, `Window.drop`, `Window.take`: moving the ends of a window
* `Window.copy`: carrying items over from another buffer
* `Window.behind`: writing slots behind a window
* `apart_add`: how far an index is ahead that was moved on
-/

namespace Ring

variable {α : Type*} {d r w n k : ℕ} {mem mem' : ℕ → α} {l l' : List α} {x : α}

/-- The `n` items from the slot `r` on. -/
def contents (d : ℕ) (mem : ℕ → α) (r n : ℕ) : List α :=
  (List.range n).map fun j => mem ((r + j) % d)

@[simp]
theorem length_contents : (contents d mem r n).length = n := by simp [contents]

theorem contents_add (m n : ℕ) :
    contents d mem r (m + n) = contents d mem r m ++ contents d mem (r + m) n := by
  simp [contents, List.range_add, Function.comp_def, Nat.add_assoc]

theorem contents_mod : contents d mem (r % d) n = contents d mem r n := by
  simp [contents]

/-- Slots less than a round apart are different. -/
theorem mod_ne (hlt : n < k) (hk : k < n + d) : (r + n) % d ≠ (r + k) % d := by
  intro heq
  have hmod : (r + k - (r + n)) % d = 0 := Nat.sub_mod_eq_zero_of_mod_eq heq.symm
  rw [Nat.mod_eq_of_lt (by omega)] at hmod
  omega

/-- Slots behind one that is not at the end. -/
theorem mod_add {start i : ℕ} (hstart : start = (r + n) % d) (hi : start + i < d) :
    (r + (n + i)) % d = start + i := by
  rw [← Nat.add_assoc, Nat.add_mod, ← hstart, Nat.mod_eq_of_lt (by omega : i < d),
    Nat.mod_eq_of_lt hi]

/-- **The slots from `r` on hold `l`**, with one to spare. -/
structure Window (d : ℕ) (mem : ℕ → α) (r : ℕ) (l : List α) : Prop where
  lt : r < d
  length_lt : l.length < d
  items : contents d mem r l.length = l

namespace Window

theorem nil (hr : r < d) : Window d mem r [] := ⟨hr, by simp; omega, rfl⟩

theorem getElem? (h : Window d mem r l) (hk : k < l.length) : l[k]? = some (mem ((r + k) % d)) := by
  have hitems := congrArg (·[k]?) h.items
  simpa [contents, hk] using hitems.symm

theorem of_getElem? (hr : r < d) (hlen : l.length < d)
    (h : ∀ j < l.length, l[j]? = some (mem ((r + j) % d))) : Window d mem r l := by
  refine ⟨hr, hlen, List.ext_getElem? fun j => ?_⟩
  rcases Nat.lt_or_ge j l.length with hj | hj
  · rw [contents, List.getElem?_map, List.getElem?_range hj, Option.map_some, h j hj]
  · rw [List.getElem?_eq_none (by simpa using hj), List.getElem?_eq_none hj]

/-- A window depends on its slots only. -/
theorem congr (h : Window d mem r l)
    (heq : ∀ j < l.length, mem' ((r + j) % d) = mem ((r + j) % d)) : Window d mem' r l :=
  of_getElem? h.lt h.length_lt fun j hj => by rw [heq j hj, h.getElem? hj]

/-- An item of the window is in its slot. -/
theorem apply (h : Window d mem r (l ++ x :: l')) : mem ((r + l.length) % d) = x := by
  have hx := h.getElem? (k := l.length) (by simp)
  simpa using hx.symm

/-- **Writing** a slot of the window. -/
theorem write {y : α} (h : Window d mem r (l ++ y :: l')) :
    Window d (Function.update mem ((r + l.length) % d) x) r (l ++ x :: l') := by
  have hlen := h.length_lt
  refine of_getElem? h.lt (by simpa using hlen) fun j hj => ?_
  simp only [List.length_append, List.length_cons] at hj hlen
  have hold := h.getElem? (k := j) (by simpa using hj)
  rcases Nat.lt_trichotomy j l.length with hlt | rfl | hgt
  · rw [Function.update_of_ne (mod_ne hlt (by omega)), ← hold, List.getElem?_append_left hlt,
      List.getElem?_append_left hlt]
  · rw [Function.update_self]
    simp
  · rw [Function.update_of_ne (mod_ne hgt (by omega)).symm, ← hold,
      List.getElem?_append_right hgt.le, List.getElem?_append_right hgt.le]
    obtain ⟨i, hi⟩ : ∃ i, j - l.length = i + 1 := ⟨j - l.length - 1, by omega⟩
    rw [hi, List.getElem?_cons_succ, List.getElem?_cons_succ]

/-- **Moving the end on**: whatever lies in the next slots is in the window. -/
theorem grow (h : Window d mem r l) (hn : l.length + n < d) :
    Window d mem r (l ++ contents d mem (r + l.length) n) := by
  refine ⟨h.lt, by simpa using hn, ?_⟩
  rw [List.length_append, length_contents, contents_add, h.items]

/-- Writing behind the window. -/
theorem push (h : Window d mem r l) (hlt : l.length + 1 < d) :
    Window d (Function.update mem ((r + l.length) % d) x) r (l ++ [x]) :=
  write (show Window d mem r (l ++ mem ((r + l.length) % d) :: []) from h.grow hlt)

/-- **Moving the end back.** -/
theorem take (h : Window d mem r (l ++ l')) : Window d mem r l := by
  have hlen := h.length_lt
  have hitems := h.items
  rw [List.length_append] at hlen
  rw [List.length_append, contents_add] at hitems
  exact ⟨h.lt, by omega, (List.append_inj hitems (by simp)).1⟩

/-- **Moving the beginning on.** -/
theorem drop (h : Window d mem r (l ++ l')) : Window d mem ((r + l.length) % d) l' := by
  have hlen := h.length_lt
  have hitems := h.items
  rw [List.length_append] at hlen
  rw [List.length_append, contents_add] at hitems
  refine ⟨Nat.mod_lt _ (by omega), by omega, ?_⟩
  rw [contents_mod]
  exact (List.append_inj hitems (by simp)).2

/-- **Carrying over** the slots behind a window from where they hold `l'`. -/
theorem copy {start : ℕ} {l₁ : List α} (h : Window d mem r l)
    (h' : Window d mem' r (l ++ (l' ++ l₁))) (hstart : l' ≠ [] → start = (r + l.length) % d)
    (hend : start + l'.length ≤ d) :
    Window d (fun i => if start ≤ i ∧ i < start + l'.length then mem' i else mem i) r
      (l ++ l') := by
  have hlen := h'.length_lt
  simp only [List.length_append] at hlen
  refine of_getElem? h.lt (by simp; omega) fun j hj => ?_
  rw [List.length_append] at hj
  rcases Nat.lt_or_ge j l.length with hlt | hge
  · rw [List.getElem?_append_left hlt, h.getElem? hlt, if_neg]
    -- a slot carried over is one of `l'`
    rintro ⟨hlo, hhi⟩
    obtain ⟨i, hi⟩ : ∃ i, (r + j) % d = start + i := ⟨(r + j) % d - start, by omega⟩
    have hne : l' ≠ [] := List.ne_nil_of_length_pos (by omega)
    have hslot := mod_add (i := i) (hstart hne) (by omega)
    exact mod_ne (n := j) (k := l.length + i) (by omega) (by omega) (hi.trans hslot.symm)
  · obtain ⟨i, rfl⟩ : ∃ i, j = l.length + i := ⟨j - l.length, by omega⟩
    have hne : l' ≠ [] := List.ne_nil_of_length_pos (by omega)
    have hnew := h'.getElem? (k := l.length + i) (by simp; omega)
    rw [← List.append_assoc, List.getElem?_append_left (by simp; omega)] at hnew
    rw [hnew, mod_add (hstart hne) (by omega), if_pos ⟨by omega, by omega⟩]

/-- **Writing slots behind a window** changes none of it, as long as there is room for both. -/
theorem behind {start : ℕ} (h : Window d mem (k % d) l) (hstart : start ≤ k) (hk : k ≤ d)
    (hroom : l.length + (k - start) ≤ d) :
    Window d (fun i => if start ≤ i ∧ i < k then mem' i else mem i) (k % d) l := by
  refine h.congr fun j hj => if_neg ?_
  rw [Nat.mod_add_mod]
  rintro ⟨hlo, hhi⟩
  -- a slot of the window is not before `k`, or has come round and is before `start`
  rcases Nat.lt_or_ge (k + j) d with hlt | hge
  · rw [Nat.mod_eq_of_lt hlt] at hhi
    omega
  · rw [Nat.mod_eq_sub_mod hge, Nat.mod_eq_of_lt (by omega)] at hlo
    omega

end Window

/-- How many slots the index `w` is ahead of `r`. -/
def apart (r w d : ℕ) : ℕ := if r ≤ w then w - r else d - r + w

/-- **How far an index is ahead** that was moved on by less than a round. -/
theorem apart_add (hr : r < d) (hn : n < d) : apart r ((r + n) % d) d = n := by
  rw [apart]
  rcases Nat.lt_or_ge (r + n) d with h | h
  · rw [Nat.mod_eq_of_lt h, if_pos (by omega)]
    omega
  · rw [Nat.mod_eq_sub_mod h, Nat.mod_eq_of_lt (by omega), if_neg (by omega)]
    omega

/-- An index that is moved on within the buffer, or to its end. -/
theorem add_mod_eq (hk : w + k ≤ d) :
    (w + k) % d = if w + k = d then 0 else w + k := by
  split_ifs with h
  · simp [h]
  · exact Nat.mod_eq_of_lt (by omega)

end Ring
