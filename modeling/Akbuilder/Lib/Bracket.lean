import Mathlib.Data.List.Chain
import Mathlib.Data.List.Count

/-!
# Bracketed logs

A log of announcements of a value, and of the end of the announcements. A log is well bracketed
when it is empty, or ends with its only end mark after at least one announcement.

## Main definitions

* `Event`, `opens log`, `lastOpen log`: announcements and the end mark; the values announced
* `Opening log`: no end mark yet
* `Closed log`: well bracketed
* `ChangeOnly log`: consecutive announcements differ

## Main results

* `Opening.close`: the end mark closes a log that announced something
* `ChangeOnly.snoc`: announcing a value other than the last keeps a log change-only
-/

namespace Bracket

/-- An entry of a log. -/
inductive Event (δ : Type)
  | opened (d : δ)
  | closed
  deriving DecidableEq, Repr

/-- The value an entry announces. -/
def Event.value? {δ : Type} : Event δ → Option δ
  | .opened d => some d
  | .closed => none

variable {δ : Type} {log : List (Event δ)} {d : δ}

/-- The values announced, in order. -/
def opens (log : List (Event δ)) : List δ := log.filterMap Event.value?

/-- The value announced last. -/
def lastOpen (log : List (Event δ)) : Option δ := (opens log).getLast?

/-- No end mark so far. -/
def Opening (log : List (Event δ)) : Prop := Event.closed ∉ log

/-- Empty, or some announcements and then the only end mark. -/
def Closed (log : List (Event δ)) : Prop :=
  log = [] ∨ ∃ ds, ds ≠ [] ∧ log = ds.map Event.opened ++ [Event.closed]

/-- No value is announced twice in a row. -/
def ChangeOnly (log : List (Event δ)) : Prop := (opens log).IsChain (· ≠ ·)

@[simp] theorem opens_nil : opens ([] : List (Event δ)) = [] := rfl

@[simp] theorem opens_snoc_opened : opens (log ++ [.opened d]) = opens log ++ [d] := by
  simp [opens, Event.value?]

@[simp] theorem opens_snoc_closed : opens (log ++ [.closed]) = opens log := by
  simp [opens, Event.value?]

@[simp] theorem opens_map_opened (ds : List δ) : opens (ds.map Event.opened) = ds := by
  induction ds with
  | nil => rfl
  | cons d ds ih => simpa [opens, Event.value?] using ih

@[simp] theorem lastOpen_nil : lastOpen ([] : List (Event δ)) = none := rfl

@[simp] theorem lastOpen_snoc_opened : lastOpen (log ++ [.opened d]) = some d := by
  simp [lastOpen]

@[simp] theorem lastOpen_snoc_closed : lastOpen (log ++ [.closed]) = lastOpen log := by
  simp [lastOpen]

theorem Opening.nil : Opening ([] : List (Event δ)) := by simp [Opening]

theorem Opening.snoc_opened (h : Opening log) : Opening (log ++ [.opened d]) := by
  simpa [Opening] using h

/-- A log without an end mark lists its announcements. -/
theorem Opening.eq_map (h : Opening log) : log = (opens log).map Event.opened := by
  induction log with
  | nil => rfl
  | cons e log ih =>
    simp only [Opening, List.mem_cons, not_or] at h
    -- an entry is an announcement, or the end mark that is excluded
    cases e with
    | opened d => simpa [opens, Event.value?] using ih h.2
    | closed => exact absurd rfl h.1

theorem Closed.nil : Closed ([] : List (Event δ)) := .inl rfl

/-- The end mark closes a log that announced something. -/
theorem Opening.close (h : Opening log) (hne : log ≠ []) : Closed (log ++ [.closed]) := by
  refine .inr ⟨opens log, fun h₀ => hne ?_, by rw [← h.eq_map]⟩
  rw [h.eq_map, h₀]
  rfl

theorem closed_iff :
    Closed log ↔ log = [] ∨
      log.getLast? = some .closed ∧ log.dropLast ≠ [] ∧ Opening log.dropLast := by
  constructor
  · rintro (rfl | ⟨ds, hds, rfl⟩)
    · exact .inl rfl
    · exact .inr (by simpa [Opening] using hds)
  · rintro (rfl | ⟨hlast, hne, ho⟩)
    · exact .nil
    · rw [← List.dropLast_append_getLast? _ hlast]
      exact ho.close hne

instance [DecidableEq δ] : Decidable (Opening log) := inferInstanceAs (Decidable (_ ∉ _))

instance [DecidableEq δ] : Decidable (Closed log) := decidable_of_iff' _ closed_iff

instance [DecidableEq δ] : Decidable (ChangeOnly log) :=
  inferInstanceAs (Decidable (List.IsChain _ _))

theorem ChangeOnly.nil : ChangeOnly ([] : List (Event δ)) := by simp [ChangeOnly]

theorem ChangeOnly.snoc (h : ChangeOnly log) (hd : lastOpen log ≠ some d) :
    ChangeOnly (log ++ [.opened d]) := by
  simp only [ChangeOnly, opens_snoc_opened, List.isChain_append]
  refine ⟨h, by simp, ?_⟩
  intro x hx y hy
  simp only [List.head?_cons, Option.mem_def, Option.some.injEq] at hy
  subst hy
  rintro rfl
  exact hd hx

theorem ChangeOnly.snoc_closed (h : ChangeOnly log) : ChangeOnly (log ++ [.closed]) := by
  simpa [ChangeOnly] using h

end Bracket
