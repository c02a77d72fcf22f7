import Mathlib.Algebra.BigOperators.Group.Finset.Basic
import Mathlib.Algebra.Order.BigOperators.Group.Finset
import Mathlib.Data.List.Perm.Basic

/-!
# Items that circulate between queues

A fixed stock of items is handed round between bounded queues and hands. As long as every item is
in one place there is room for it wherever it goes, and how many items can be out at a time is
bounded by how many of each kind can be.

## Main definitions

* `push cap q a`: a bounded queue, which drops what it has no room for
* `Stock all l`: the items of `l` are those of `all`, each one once

## Main results

* `Stock.push_eq`: a queue as long as the stock has room for an item that is elsewhere
* `length_le_mul`: a bound on the items out, from one for each kind
-/

namespace Circulation

variable {α : Type*} [DecidableEq α]

/-- A bounded queue takes an item when it has room, and drops it otherwise. -/
def push (cap : ℕ) (q : List α) (a : α) : List α := if q.length < cap then q ++ [a] else q

omit [DecidableEq α] in
theorem push_of_lt {cap : ℕ} {q : List α} {a : α} (h : q.length < cap) :
    push cap q a = q ++ [a] := if_pos h

/-- **All items of the stock, each in one place.** -/
structure Stock (all l : List α) : Prop where
  nodup : all.Nodup
  count : ∀ a, l.count a = all.count a

theorem count_filter_eq {p : α → Bool} {l : List α} {a : α} :
    (l.filter p).count a = if p a = true then l.count a else 0 := by
  split_ifs with hp
  · exact List.count_filter hp
  · exact List.count_eq_zero.2 fun h => hp (List.mem_filter.1 h).2

namespace Stock

variable {all l l' : List α} {a : α}

theorem perm (h : Stock all l) : l.Perm all := List.perm_iff_count.2 h.count

theorem move (h : Stock all l) (hcount : ∀ a, l'.count a = l.count a) : Stock all l' :=
  ⟨h.nodup, fun a => (hcount a).trans (h.count a)⟩

theorem mem_iff (h : Stock all l) : a ∈ l ↔ a ∈ all := h.perm.mem_iff

theorem length_eq (h : Stock all l) : l.length = all.length := h.perm.length_eq

theorem count_le_one (h : Stock all l) (a : α) : l.count a ≤ 1 := by
  rw [h.count]
  exact List.nodup_iff_count_le_one.1 h.nodup a

/-- **There is room** for an item in a queue that is not all of the stock. -/
theorem push_eq {q : List α} {cap : ℕ} (h : Stock all l) (hcap : all.length ≤ cap)
    (hpart : q.length < l.length) : push cap q a = q ++ [a] := by
  apply push_of_lt
  have := h.length_eq
  omega

end Stock

/-- **Few of each kind are few in all.** -/
theorem length_le_mul {β : Type*} {l : List β} {g : β → ℕ} {n k : ℕ} (hg : ∀ b ∈ l, g b < n)
    (hk : ∀ i < n, (l.map g).count i ≤ k) : l.length ≤ n * k := by
  have hsub : (l.map g).toFinset ⊆ Finset.range n := by
    intro i hi
    obtain ⟨b, hb, rfl⟩ := List.mem_map.1 (List.mem_toFinset.1 hi)
    exact Finset.mem_range.2 (hg b hb)
  calc l.length = (l.map g).length := List.length_map g |>.symm
    _ = ∑ i ∈ (l.map g).toFinset, (l.map g).count i := (List.sum_toFinset_count_eq_length _).symm
    _ ≤ ∑ i ∈ Finset.range n, (l.map g).count i := Finset.sum_le_sum_of_subset hsub
    _ ≤ ∑ _i ∈ Finset.range n, k := Finset.sum_le_sum fun i hi => hk i (Finset.mem_range.1 hi)
    _ = n * k := by simp

end Circulation
