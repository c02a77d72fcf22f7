import Mathlib.Data.Finset.Card
import Mathlib.Logic.Function.Basic

/-!
# Ledgers of keys and entries

Entries are kept under keys of a fixed set: an entry is taken in under a free key, may be written
over, and is given out with its key; and all of them may be given out at once. A ledger says what
each of these events does to the entries, and a log is a sequence of events that it accounts for.

## Main definitions

* `Event`: what can happen to a ledger
* `Accounts keys b x b'`: the event `x` takes the entries `b` to `b'`
* `Log keys b₀ xs b`: a sequence of events that is accounted for

## Main results

* `Log.written`: an entry is the one written last under its key
* `Log.taken_apart`: between two takings of a key it was given out
-/

namespace Ledger

variable {κ ε : Type*}

/-- Taking an entry in, under a key unless there is none left; writing one over; giving one out, if
there is one; and giving all out. -/
inductive Event (κ ε : Type*)
  | take (key : Option κ) (entry : ε)
  | put (key : κ) (entry : ε)
  | give (key : κ) (entry : Option ε)
  | clear (entries : List (κ × ε))
  deriving DecidableEq, Repr

/-- The event writes `e` under `k`. -/
def Event.Writes (x : Event κ ε) (k : κ) (e : ε) : Prop := x = .take (some k) e ∨ x = .put k e

/-- The event has to do with the entry under `k`. -/
def Event.Touches (k : κ) : Event κ ε → Prop
  | .take key _ => key = some k
  | .put key _ | .give key _ => key = k
  | .clear _ => True

/-- The event ends the time an entry is under `k`. -/
def Event.Frees (k : κ) : Event κ ε → Prop
  | .give key entry => key = k ∧ entry.isSome
  | .clear _ => True
  | .take _ _ | .put _ _ => False

section

variable [DecidableEq κ]

/-- **What an event does to the entries.** -/
inductive Accounts (keys : Finset κ) (b : κ → Option ε) : Event κ ε → (κ → Option ε) → Prop
  | take {k : κ} {e : ε} (hk : k ∈ keys) (hfree : b k = none) :
      Accounts keys b (.take (some k) e) (Function.update b k (some e))
  | full {e : ε} (hfull : ∀ k ∈ keys, b k ≠ none) : Accounts keys b (.take none e) b
  | put {k : κ} {e : ε} (hk : b k ≠ none) :
      Accounts keys b (.put k e) (Function.update b k (some e))
  | give {k : κ} {e : ε} (hk : b k = some e) :
      Accounts keys b (.give k (some e)) (Function.update b k none)
  | nothing {k : κ} (hk : b k = none) : Accounts keys b (.give k none) b
  | clear {es : List (κ × ε)} (hnodup : (es.map Prod.fst).Nodup)
      (hes : ∀ k e, (k, e) ∈ es ↔ b k = some e) : Accounts keys b (.clear es) fun _ => none

/-- **A sequence of events that is accounted for.** -/
inductive Log (keys : Finset κ) (b₀ : κ → Option ε) : List (Event κ ε) → (κ → Option ε) → Prop
  | nil : Log keys b₀ [] b₀
  | snoc {xs : List (Event κ ε)} {b b' : κ → Option ε} {x : Event κ ε} :
      Log keys b₀ xs b → Accounts keys b x b' → Log keys b₀ (xs ++ [x]) b'

variable {keys : Finset κ} {b₀ b b' : κ → Option ε} {xs : List (Event κ ε)} {x : Event κ ε} {k : κ}
  {e : ε}

/-- An event that has nothing to do with a key leaves its entry. -/
theorem Accounts.eq_of_not_touches (h : Accounts keys b x b') (hx : ¬ x.Touches k) :
    b' k = b k := by
  cases h with
  | @take k' e _ _ | @put k' e _ | @give k' e _ =>
    exact Function.update_of_ne (fun hk => hx (by rw [hk]; rfl)) _ _
  | full | nothing => rfl
  | clear => exact absurd trivial hx

theorem Accounts.taken (h : Accounts keys b (.take (some k) e) b') : b' k = some e := by
  cases h
  exact Function.update_self ..

theorem Accounts.given (h : Accounts keys b (.give k (some e)) b') : b k = some e := by
  cases h
  assumption

/-- An entry that is neither given out nor written over stays. -/
theorem Accounts.kept (h : Accounts keys b x b') (hk : b k ≠ none) (hfree : ¬ x.Frees k)
    (hput : ∀ e, x ≠ .put k e) : b' k = b k := by
  cases h with
  | @take k' e _ hnone =>
    refine Function.update_of_ne ?_ _ _
    rintro rfl
    exact hk hnone
  | @put k' e _ =>
    refine Function.update_of_ne ?_ _ _
    rintro rfl
    exact hput e rfl
  | @give k' e _ => exact Function.update_of_ne (fun hkk => hfree ⟨hkk.symm, rfl⟩) _ _
  | full | nothing => rfl
  | clear => exact absurd trivial hfree

/-- **An entry is the one written last under its key.** -/
theorem Log.written (h : Log keys (fun _ => none) xs b) (hk : b k = some e) :
    ∃ l x r, xs = l ++ x :: r ∧ x.Writes k e ∧ ∀ y ∈ r, ¬ y.Touches k := by
  induction h with
  | nil => cases hk
  | @snoc xs b b' x hlog hx ih =>
    by_cases htouch : x.Touches k
    · -- the last event itself is what put the entry there
      refine ⟨xs, x, [], rfl, ?_, by simp⟩
      cases hx with
      | take =>
        obtain rfl := Option.some.inj htouch
        rw [Function.update_self] at hk
        exact .inl (by rw [Option.some.inj hk])
      | put =>
        obtain rfl : _ = k := htouch
        rw [Function.update_self] at hk
        exact .inr (by rw [Option.some.inj hk])
      | full => cases htouch
      | give =>
        obtain rfl : _ = k := htouch
        rw [Function.update_self] at hk
        cases hk
      | nothing hnone =>
        obtain rfl : _ = k := htouch
        rw [hnone] at hk
        cases hk
      | clear => cases hk
    · rw [hx.eq_of_not_touches htouch] at hk
      obtain ⟨l, y, r, rfl, hy, hr⟩ := ih hk
      refine ⟨l, y, r ++ [x], by simp, hy, fun z hz => ?_⟩
      rcases List.mem_append.1 hz with hz | hz
      · exact hr z hz
      · obtain rfl := List.mem_singleton.1 hz
        exact htouch

/-- An entry stays under its key until the key is given out. -/
theorem Log.ne_none (h : Log keys b₀ xs b) (hk : b₀ k ≠ none) (hfree : ∀ y ∈ xs, ¬ y.Frees k) :
    b k ≠ none := by
  induction h with
  | nil => exact hk
  | @snoc xs b b' x _ hx ih =>
    have hb := ih fun y hy => hfree y (List.mem_append_left _ hy)
    have hx' : ¬ x.Frees k := hfree x (by simp)
    cases hx with
    | @take k' e' _ _ | @put k' e' _ =>
      by_cases hkk : k = k'
      · simp [hkk]
      · rwa [Function.update_of_ne hkk]
    | @give k' e' _ => rwa [Function.update_of_ne fun hkk => hx' ⟨hkk.symm, rfl⟩]
    | full | nothing => exact hb
    | clear => exact absurd trivial hx'

theorem Log.eq_of_nil (h : Log keys b₀ [] b) : b = b₀ := by
  generalize hzs : ([] : List (Event κ ε)) = zs at h
  cases h with
  | nil => rfl
  | snoc => simp at hzs

theorem Log.last (h : Log keys b₀ (xs ++ [x]) b) :
    ∃ b₁, Log keys b₀ xs b₁ ∧ Accounts keys b₁ x b := by
  generalize hzs : xs ++ [x] = zs at h
  cases h with
  | nil => simp at hzs
  | snoc hlog hx =>
    obtain ⟨rfl, hxs⟩ := List.append_inj' hzs rfl
    obtain rfl := (List.cons.inj hxs).1
    exact ⟨_, hlog, hx⟩

/-- A log can be cut anywhere. -/
theorem Log.of_append {ys : List (Event κ ε)} (h : Log keys b₀ (xs ++ ys) b) :
    ∃ b₁, Log keys b₀ xs b₁ ∧ Log keys b₁ ys b := by
  induction ys using List.reverseRecOn generalizing b with
  | nil => exact ⟨b, by simpa using h, .nil⟩
  | append_singleton ys y ih =>
    rw [← List.append_assoc] at h
    obtain ⟨b₂, hlog, hy⟩ := h.last
    obtain ⟨b₁, h₁, h₂⟩ := ih hlog
    exact ⟨b₁, h₁, h₂.snoc hy⟩

/-- Logs compose. -/
theorem Log.append {ys : List (Event κ ε)} (h : Log keys b₀ xs b) (h' : Log keys b ys b') :
    Log keys b₀ (xs ++ ys) b' := by
  induction h' with
  | nil => simpa using h
  | snoc _ hx ih =>
    rw [← List.append_assoc]
    exact ih.snoc hx

/-- **Between two takings of a key it was given out.** -/
theorem Log.taken_apart {l m r : List (Event κ ε)} {e' : ε}
    (h : Log keys b₀ (l ++ .take (some k) e :: m ++ .take (some k) e' :: r) b) :
    ∃ y ∈ m, y.Frees k := by
  by_contra hne
  push Not at hne
  have h : Log keys b₀ ((l ++ [.take (some k) e]) ++ (m ++ ([.take (some k) e'] ++ r))) b := by
    simpa using h
  obtain ⟨b₁, h₁, h⟩ := h.of_append
  obtain ⟨b₂, h₂, h⟩ := h.of_append
  obtain ⟨b₃, h₃, -⟩ := h.of_append
  have hk : b₁ k ≠ none := by
    obtain ⟨_, -, hx⟩ := h₁.last
    simp [hx.taken]
  obtain ⟨b₄, h₄, hx⟩ := Log.last (show Log keys b₂ ([] ++ [.take (some k) e']) b₃ from h₃)
  obtain rfl := h₄.eq_of_nil
  cases hx with
  | take _ hfree => exact h₂.ne_none hk hne hfree

end

end Ledger
