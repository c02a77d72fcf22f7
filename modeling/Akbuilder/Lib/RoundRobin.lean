import Mathlib.Data.List.Basic
import Mathlib.Data.List.Nodup
import Mathlib.Data.List.Rotate

/-!
# Round-robin turns over a list

The members of a list are asked one after the other, from the one behind the last served member
around to that member itself. Serving a member moves it to the end of the turns and leaves the
cyclic order alone, so that each member waits for those ahead of it only.

## Main definitions

* `turns l last`: the members of `l` in the order they are asked in
* `ahead l last v`: the number of members asked before `v`

## Main results

* `turns_served`: the turns after a member has been served
* `ahead_served_lt`: who is passed over in favour of another comes nearer to its turn
* `ahead_append_le`, `ahead_filter_le`: what joining and leaving do to the turns
-/

namespace RoundRobin

variable {ι : Type*} [DecidableEq ι]

/-- The members behind `a`. -/
def behind (a : ι) (l : List ι) : List ι := (l.dropWhile fun x => decide (x ≠ a)).tail

/-- The members up to `a`, without it. -/
def before (a : ι) (l : List ι) : List ι := l.takeWhile fun x => decide (x ≠ a)

/-- The members in the order they are asked in, `last` being the one served last. -/
def turns (l : List ι) : Option ι → List ι
  | none => l
  | some a => behind a l ++ (before a l ++ [a])

/-- The number of members asked before `v`. -/
def ahead (l : List ι) (last : Option ι) (v : ι) : ℕ := (turns l last).idxOf v

theorem behind_split {a : ι} {p q : List ι} (ha : a ∉ p) : behind a (p ++ a :: q) = q := by
  have h : (p ++ a :: q).dropWhile (fun x => decide (x ≠ a)) = a :: q := by
    rw [List.dropWhile_append_of_pos]
    · simp
    · intro x hx
      simpa using ne_of_mem_of_not_mem hx ha
  rw [behind, h, List.tail_cons]

theorem before_split {a : ι} {p q : List ι} (ha : a ∉ p) : before a (p ++ a :: q) = p := by
  rw [before, List.takeWhile_append_of_pos]
  · simp
  · intro x hx
    simpa using ne_of_mem_of_not_mem hx ha

theorem turns_split {a : ι} {p q : List ι} (ha : a ∉ p) :
    turns (p ++ a :: q) (some a) = q ++ (p ++ [a]) := by
  rw [turns, behind_split ha, before_split ha]

/-! ## The turns are a rotation -/

/-- The turns go once around the list. -/
theorem turns_isRotated {l : List ι} {last : Option ι} (hlast : ∀ a ∈ last, a ∈ l) :
    turns l last ~r l := by
  cases last with
  | none => exact List.IsRotated.refl _
  | some a =>
    obtain ⟨p, q, rfl, ha⟩ := List.eq_append_cons_of_mem (hlast a rfl)
    rw [turns_split ha, show p ++ a :: q = (p ++ [a]) ++ q by simp]
    exact List.isRotated_append

theorem mem_turns {l : List ι} {last : Option ι} (hlast : ∀ a ∈ last, a ∈ l) {v : ι} :
    v ∈ turns l last ↔ v ∈ l := (turns_isRotated hlast).mem_iff

theorem ahead_lt {l : List ι} {last : Option ι} (hlast : ∀ a ∈ last, a ∈ l) {v : ι} (hv : v ∈ l) :
    ahead l last v < l.length := by
  rw [← (turns_isRotated hlast).perm.length_eq]
  exact List.idxOf_lt_length_iff.2 ((mem_turns hlast).2 hv)

omit [DecidableEq ι] in
/-- A rotation of a list without repetition is known by its last member. -/
theorem eq_of_isRotated_concat {s t : List ι} {w : ι} (hs : (s ++ [w]).Nodup)
    (h : s ++ [w] ~r t ++ [w]) : s ++ [w] = t ++ [w] := by
  obtain ⟨n, hn, h⟩ := List.isRotated_iff_mod.1 h
  rw [List.rotate_eq_drop_append_take hn] at h
  have hsplit := List.take_append_drop n (s ++ [w])
  generalize (s ++ [w]).take n = a at h hsplit
  generalize (s ++ [w]).drop n = b at h hsplit
  -- `w` ends each of the two parts that is not empty, and stands in the list once
  rcases List.eq_nil_or_concat a with rfl | ⟨a, x, rfl⟩
  · rw [← hsplit, ← h, List.append_nil, List.nil_append]
  rcases List.eq_nil_or_concat b with rfl | ⟨b, y, rfl⟩
  · rw [← hsplit, ← h, List.append_nil, List.nil_append]
  simp only [List.concat_eq_append, ← List.append_assoc] at h hsplit
  obtain ⟨-, hx⟩ := List.append_inj' h rfl
  obtain ⟨-, hy⟩ := List.append_inj' hsplit rfl
  obtain rfl : x = w := by simpa using hx
  obtain rfl : y = x := by simpa using hy
  rw [← hsplit] at hs
  simp [List.nodup_append] at hs

/-- **Serving** `w` puts it behind everyone else and keeps the cyclic order. -/
theorem turns_served {l : List ι} (hl : l.Nodup) {last : Option ι} (hlast : ∀ a ∈ last, a ∈ l)
    {w : ι} {xs ys : List ι} (h : turns l last = xs ++ w :: ys) :
    turns l (some w) = ys ++ xs ++ [w] := by
  have hr := turns_isRotated hlast
  have hw : ∀ a ∈ some w, a ∈ l := by
    rintro a ⟨⟩
    exact (mem_turns hlast).1 (by rw [h]; simp)
  have hr' := turns_isRotated hw
  have hend : ys ++ xs ++ [w] ~r turns l last := by
    rw [h, List.append_assoc]
    exact List.isRotated_append.trans (by simp [List.IsRotated.refl])
  rw [turns, ← List.append_assoc] at hr' ⊢
  exact eq_of_isRotated_concat (hr'.nodup_iff.2 hl) (hr'.trans (hr.symm.trans hend.symm))

/-! ## How many are ahead -/

/-- **Whoever is passed over comes nearer to its turn.** -/
theorem ahead_served_lt {l : List ι} (hl : l.Nodup) {last : Option ι} (hlast : ∀ a ∈ last, a ∈ l)
    {v w : ι} {xs ys : List ι} (h : turns l last = xs ++ w :: ys) (hv : v ∈ l) (hvw : v ≠ w)
    (hpassed : v ∉ xs) : ahead l (some w) v < ahead l last v := by
  have hmem : v ∈ ys := by
    have := (mem_turns hlast).2 hv
    rw [h] at this
    simpa [hpassed, hvw] using this
  rw [ahead, ahead, turns_served hl hlast h, h, List.append_assoc,
    List.idxOf_append_of_mem hmem, List.idxOf_append_of_notMem hpassed,
    List.idxOf_cons_ne _ (Ne.symm hvw)]
  omega

/-- **Joining** at the end of the list puts the newcomer ahead of a member at most once. -/
theorem ahead_append_le {l : List ι} {last : Option ι} (hlast : ∀ a ∈ last, a ∈ l) {v : ι}
    (hv : v ∈ l) (new : List ι) :
    ahead (l ++ new) last v ≤ ahead l last v + new.length := by
  cases last with
  | none => simp [ahead, turns, List.idxOf_append_of_mem hv]
  | some a =>
    obtain ⟨p, q, rfl, ha⟩ := List.eq_append_cons_of_mem (hlast a rfl)
    rw [List.append_assoc, List.cons_append, ahead, ahead, turns_split ha, turns_split ha]
    by_cases hq : v ∈ q
    · rw [List.append_assoc, List.idxOf_append_of_mem hq, List.idxOf_append_of_mem hq]
      omega
    · rw [List.append_assoc, List.idxOf_append_of_notMem hq, List.idxOf_append_of_notMem hq]
      by_cases hnew : v ∈ new
      · rw [List.idxOf_append_of_mem hnew]
        have := List.idxOf_lt_length_iff.2 hnew
        omega
      · rw [List.idxOf_append_of_notMem hnew]
        omega

/-- Leaving the list takes nobody's turn away. -/
theorem turns_filter {l : List ι} {last : Option ι} (hlast : ∀ a ∈ last, a ∈ l) {p : ι → Bool}
    (hp : ∀ a ∈ last, p a = true) : turns (l.filter p) last = (turns l last).filter p := by
  cases last with
  | none => rfl
  | some a =>
    obtain ⟨f, q, rfl, ha⟩ := List.eq_append_cons_of_mem (hlast a rfl)
    rw [turns_split ha, List.filter_append, List.filter_cons_of_pos (hp a rfl), turns_split]
    · simp [List.filter_append, hp a rfl]
    · simp [ha]

theorem idxOf_filter_le {p : ι → Bool} {v : ι} (hv : p v = true) :
    ∀ l : List ι, (l.filter p).idxOf v ≤ l.idxOf v
  | [] => le_rfl
  | x :: l => by
    have ih := idxOf_filter_le hv l
    by_cases hx : x = v
    · simp [hx, hv]
    · rw [List.idxOf_cons_ne _ hx]
      by_cases hpx : p x = true
      · rw [List.filter_cons_of_pos hpx, List.idxOf_cons_ne _ hx]
        omega
      · rw [List.filter_cons_of_neg hpx]
        omega

/-- Members leaving the list bring the others nearer to their turn. -/
theorem ahead_filter_le {l : List ι} {last : Option ι} (hlast : ∀ a ∈ last, a ∈ l) {p : ι → Bool}
    (hp : ∀ a ∈ last, p a = true) {v : ι} (hv : p v = true) :
    ahead (l.filter p) last v ≤ ahead l last v := by
  rw [ahead, turns_filter hlast hp]
  exact idxOf_filter_le hv _

end RoundRobin
