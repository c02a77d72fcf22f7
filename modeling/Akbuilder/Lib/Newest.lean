import Mathlib.Data.List.MinMax
import Mathlib.Logic.Function.Basic

/-!
# Stores where the newest value wins

A store keeps one value a key. Putting a value replaces the one stored only where that one is
older, by a stamp the values carry. What such a store holds after a run of puts is the newest of
the values put under the key, and the first of these where several are equally new.

## Main definitions

* `put stamp s k v`: the store after one put
* `newest stamp puts k`: the first of the newest values put under a key

## Main results

* `newest_concat`: one put more leaves the newest values
* `newest_eq_some_iff`: where the newest value stands among the puts
* `newest_of_unique`: a value is the newest of its key where the key has no other
-/

namespace Newest

variable {κ ν τ : Type*} [DecidableEq κ] [LinearOrder τ] (stamp : ν → τ)

/-- A put replaces a value that is older, and fills an empty key. -/
def put (s : κ → Option ν) (k : κ) (v : ν) : κ → Option ν :=
  match s k with
  | none => Function.update s k (some v)
  | some old => if stamp old < stamp v then Function.update s k (some v) else s

theorem put_self (s : κ → Option ν) (k : κ) (v : ν) :
    put stamp s k v k =
      match s k with
      | none => some v
      | some old => if stamp old < stamp v then some v else some old := by
  unfold put
  cases hs : s k with
  | none => exact Function.update_self ..
  | some old =>
    dsimp only
    split
    · exact Function.update_self ..
    · exact hs

theorem put_of_ne (s : κ → Option ν) {k k' : κ} (v : ν) (h : k' ≠ k) :
    put stamp s k v k' = s k' := by
  unfold put
  cases s k with
  | none => exact Function.update_of_ne h ..
  | some old =>
    dsimp only
    split
    · exact Function.update_of_ne h ..
    · rfl

/-- **The newest value** put under a key: the first of those no other is newer than. -/
def newest (puts : List (κ × ν)) (k : κ) : Option ν :=
  ((puts.filter (·.1 = k)).map Prod.snd).argmax stamp

@[simp] theorem newest_nil (k : κ) : newest stamp [] k = none := rfl

theorem newest_concat_self (puts : List (κ × ν)) (k : κ) (v : ν) :
    newest stamp (puts ++ [(k, v)]) k =
      match newest stamp puts k with
      | none => some v
      | some old => if stamp old < stamp v then some v else some old := by
  unfold newest
  rw [List.filter_append, List.map_append]
  simp only [List.filter_cons, List.filter_nil, decide_true, if_true, List.map_cons,
    List.map_nil, List.argmax_concat]
  cases List.argmax stamp (List.map Prod.snd (List.filter (fun x => x.1 = k) puts)) <;> rfl

theorem newest_concat_of_ne (puts : List (κ × ν)) {k k' : κ} (v : ν) (h : k' ≠ k) :
    newest stamp (puts ++ [(k, v)]) k' = newest stamp puts k' := by
  unfold newest
  rw [List.filter_append]
  simp [h.symm]

/-- **One put** more is one more value to choose the newest from. -/
theorem newest_concat (puts : List (κ × ν)) (k : κ) (v : ν) :
    newest stamp (puts ++ [(k, v)]) = put stamp (newest stamp puts) k v := by
  funext k'
  by_cases h : k' = k
  · subst h
    rw [newest_concat_self, put_self]
  · rw [newest_concat_of_ne stamp puts v h, put_of_ne stamp _ v h]

section First

variable {stamp} {puts : List (κ × ν)} {k : κ} {v w : ν}

theorem mem_values : w ∈ (puts.filter (·.1 = k)).map Prod.snd ↔ (k, w) ∈ puts := by
  simp only [List.mem_map, List.mem_filter, decide_eq_true_eq]
  constructor
  · rintro ⟨⟨k', w'⟩, ⟨hput, rfl⟩, rfl⟩
    exact hput
  · exact fun hput => ⟨(k, w), ⟨hput, rfl⟩, rfl⟩

theorem mem_of_newest (h : newest stamp puts k = some v) : (k, v) ∈ puts :=
  mem_values.1 (List.argmax_mem h)

theorem le_newest (h : newest stamp puts k = some v) (hw : (k, w) ∈ puts) : stamp w ≤ stamp v :=
  List.le_of_mem_argmax (mem_values.2 hw) h

theorem notMem_of_newest_eq_none (h : newest stamp puts k = none) : (k, w) ∉ puts := fun hw => by
  rw [newest, List.argmax_eq_none] at h
  exact List.not_mem_nil (h ▸ mem_values.2 hw)

/-- No later put that is not newer replaces a value. -/
theorem newest_append (h : newest stamp puts k = some v) {post : List (κ × ν)}
    (hpost : ∀ w, (k, w) ∈ post → stamp w ≤ stamp v) :
    newest stamp (puts ++ post) k = some v := by
  induction post using List.reverseRecOn with
  | nil => rwa [List.append_nil]
  | append_singleton post p ih =>
    obtain ⟨k', w⟩ := p
    have hlast := ih fun w hw => hpost w (List.mem_append_left _ hw)
    rw [← List.append_assoc]
    by_cases hk : k = k'
    · subst hk
      rw [newest_concat_self, hlast]
      exact if_neg (hpost w (by simp)).not_gt
    · rw [newest_concat_of_ne stamp _ w hk, hlast]

/-- **The newest value** is newer than those put before it, and no older than those put after. -/
theorem newest_eq_some_iff : newest stamp puts k = some v ↔
    ∃ pre post, puts = pre ++ (k, v) :: post ∧ (∀ w, (k, w) ∈ pre → stamp w < stamp v) ∧
      ∀ w, (k, w) ∈ post → stamp w ≤ stamp v := by
  constructor
  · intro h
    induction puts using List.reverseRecOn generalizing v with
    | nil => cases h
    | append_singleton puts p ih =>
      obtain ⟨k', x⟩ := p
      -- a value that stays is followed by one put more
      have hstays {u : ν} (hu : newest stamp puts k = some u) (hx : k' = k → stamp x ≤ stamp u) :
          ∃ pre post, puts ++ [(k', x)] = pre ++ (k, u) :: post ∧
            (∀ w, (k, w) ∈ pre → stamp w < stamp u) ∧
            ∀ w, (k, w) ∈ post → stamp w ≤ stamp u := by
        obtain ⟨pre, post, rfl, hpre, hpost⟩ := ih hu
        refine ⟨pre, post ++ [(k', x)], by simp, hpre, fun w hw => ?_⟩
        rcases List.mem_append.1 hw with hw | hw
        · exact hpost w hw
        · obtain ⟨rfl, rfl⟩ := Prod.mk.inj (List.mem_singleton.1 hw)
          exact hx rfl
      by_cases hk : k = k'
      · subst hk
        rw [newest_concat_self] at h
        cases hn : newest stamp puts k with
        | none =>
          rw [hn] at h
          obtain rfl := Option.some.inj h
          exact ⟨puts, [], rfl, fun w hw => absurd hw (notMem_of_newest_eq_none hn), by simp⟩
        | some old =>
          simp only [hn] at h
          split at h
          · next hlt =>
            obtain rfl := Option.some.inj h
            exact ⟨puts, [], rfl, fun w hw => (le_newest hn hw).trans_lt hlt, by simp⟩
          · next hge =>
            obtain rfl := Option.some.inj h
            exact hstays hn fun _ => not_lt.1 hge
      · rw [newest_concat_of_ne stamp _ x hk] at h
        exact hstays h fun hk' => absurd hk'.symm hk
  · rintro ⟨pre, post, rfl, hpre, hpost⟩
    rw [← List.singleton_append, ← List.append_assoc]
    refine newest_append ?_ hpost
    rw [newest_concat_self]
    cases hn : newest stamp pre k with
    | none => rfl
    | some old => exact if_pos (hpre old (mem_of_newest hn))

end First

/-- A key's only value is its newest. -/
theorem newest_of_unique {puts : List (κ × ν)} {k : κ} {v : ν} (hmem : (k, v) ∈ puts)
    (honly : ∀ w, (k, w) ∈ puts → w = v) : newest stamp puts k = some v := by
  cases h : newest stamp puts k with
  | none => exact absurd hmem (notMem_of_newest_eq_none h)
  | some w => rw [honly w (mem_of_newest h)]

end Newest
