import Akbuilder.Lib.Ledger
import Akbuilder.Lib.Run
import Mathlib.Data.List.Nodup
import Mathlib.Data.List.Range
import Mathlib.Order.Interval.Finset.Nat

/-!
# Packet ids

The driver names the packets it has handed to the dongle by ids. `dhd_pktid_map` keeps a stack of
the free ids and, for each id in use, a locker with the packet and how it was mapped.

## Main definitions

* `PktidMap`: the stack of free ids and the lockers
* `PktidMap.Op`, `PktidMap.run`: the operations, and what they do to the ledger of packets
* `PktidMap.Inv`: the stack holds the free ids, each one once

## Main results

* `PktidMap.accounted`: the map is a ledger of packets under the ids
* `PktidMap.returned_as_saved`: an id gives back what was last saved under it
* `PktidMap.freed_before_reuse`: an id is not given to two packets at a time
-/

open Ledger Transition

namespace Dhd

/-- What is saved of a packet: `dhd_pktid_item_t` without its tag. -/
structure Saved (ρ : Type) where
  dma : UInt8
  len : UInt16
  pkt : Option ρ
  physaddr : UInt64
  secdma : UInt64
  deriving DecidableEq, Repr

/-- `dhd_pktid_item_t`, a locker. -/
structure PktidItem (ρ : Type) extends Saved ρ where
  inuse : Bool

/-- `dhd_pktid_map_t`; the stack of keys starts at `1`. -/
structure PktidMap (ρ : Type) where
  items : ℕ
  avail : ℕ
  failures : ℕ
  keys : ℕ → ℕ
  lockers : ℕ → PktidItem ρ

namespace PktidMap

variable {ρ : Type}

/-- A locker after `bzero`. -/
def zeroed : PktidItem ρ := ⟨⟨0, 0, none, 0, 0⟩, false⟩

/-- `dhd_pktid_map_init` -/
def init (items : ℕ) : PktidMap ρ where
  items := items
  avail := items
  failures := 0
  keys nkey := if 1 ≤ nkey ∧ nkey ≤ items then nkey else 0
  lockers nkey := if nkey = 0 then { zeroed with inuse := true } else zeroed

/-- `dhd_pktid_map_reserve` -/
def reserve (pkt : ρ) (map : PktidMap ρ) : ℕ × PktidMap ρ :=
  if map.avail = 0 then (0, { map with failures := map.failures + 1 })
  else
    let nkey := map.keys map.avail
    (nkey,
      { map with
        avail := map.avail - 1
        lockers := Function.update map.lockers nkey
          { map.lockers nkey with inuse := true, pkt := some pkt } })

/-- `dhd_pktid_map_save`, which keeps 16 bits of the length. -/
def save (nkey : ℕ) (physaddr : UInt64) (len : UInt32) (dma : UInt8) (secdma : UInt64)
    (map : PktidMap ρ) : PktidMap ρ :=
  { map with
    lockers := Function.update map.lockers nkey
      { map.lockers nkey with dma, physaddr, len := len.toUInt16, secdma } }

/-- `dhd_pktid_map_alloc` -/
def alloc (pkt : ρ) (physaddr : UInt64) (len : UInt32) (dma : UInt8) (secdma : UInt64)
    (map : PktidMap ρ) : ℕ × PktidMap ρ :=
  let (nkey, map) := map.reserve pkt
  if nkey ≠ 0 then (nkey, map.save nkey physaddr len dma secdma) else (nkey, map)

/-- `dhd_pktid_map_free`: what the locker holds, and nothing for an id that is not in use. -/
def free (nkey : ℕ) (map : PktidMap ρ) : Option (Saved ρ) × PktidMap ρ :=
  let locker := map.lockers nkey
  if locker.inuse then
    (some locker.toSaved,
      { map with
        avail := map.avail + 1
        keys := Function.update map.keys (map.avail + 1) nkey
        lockers := Function.update map.lockers nkey { locker with inuse := false } })
  else (none, map)

/-- One turn of the loop of `dhd_pktid_map_clear`: the id is put back on the stack, and the packet
of a locker in use is unmapped and freed. -/
def clearOne (map : PktidMap ρ) (nkey : ℕ) : List (ℕ × Saved ρ) × PktidMap ρ :=
  let locker := map.lockers nkey
  let map := { map with keys := Function.update map.keys nkey nkey }
  if locker.inuse then
    ([(nkey, locker.toSaved)],
      { map with lockers := Function.update map.lockers nkey { locker with inuse := false } })
  else ([], map)

/-- The loop over the ids from `nkey` on. -/
def clearFrom (map : PktidMap ρ) (nkey : ℕ) : ℕ → List (ℕ × Saved ρ) × PktidMap ρ
  | 0 => ([], map)
  | n + 1 =>
    let (freed, map) := map.clearOne nkey
    let (more, map) := map.clearFrom (nkey + 1) n
    (freed ++ more, map)

/-- `dhd_pktid_map_clear`: the packets freed, with their ids. -/
def clear (map : PktidMap ρ) : List (ℕ × Saved ρ) × PktidMap ρ :=
  let (freed, map) := { map with failures := 0 }.clearFrom 1 map.items
  (freed, { map with avail := map.items })

/-- `dhd_pktid_map_fini`: the packets freed, with their ids. -/
def fini (map : PktidMap ρ) : List (ℕ × Saved ρ) :=
  ((List.range' 1 map.items).filter fun nkey => (map.lockers nkey).inuse).map fun nkey =>
    (nkey, (map.lockers nkey).toSaved)

/-- The calls of the map, each one under the caller's lock. -/
inductive Op (ρ : Type)
  | reserve (pkt : ρ)
  | save (pkt : ρ) (nkey : ℕ) (physaddr : UInt64) (len : UInt32) (dma : UInt8) (secdma : UInt64)
  | alloc (pkt : ρ) (physaddr : UInt64) (len : UInt32) (dma : UInt8) (secdma : UInt64)
  | free (nkey : ℕ)
  | clear
  deriving DecidableEq, Repr

/-- The packets under the ids in use. -/
def book (map : PktidMap ρ) (nkey : ℕ) : Option (Saved ρ) :=
  if 1 ≤ nkey ∧ nkey ≤ map.items ∧ (map.lockers nkey).inuse then some (map.lockers nkey).toSaved
  else none

/-- What a reservation enters, for the id it returns. -/
def taken (pkt : ρ) (nkey : ℕ) (map : PktidMap ρ) : Event ℕ (Saved ρ) :=
  if nkey = 0 then .take none { (zeroed : PktidItem ρ).toSaved with pkt := some pkt }
  else .take (some nkey) (map.lockers nkey).toSaved

/-- What a call does, and the events the ledger sees of it. -/
def Op.run (map : PktidMap ρ) : Op ρ → List (Event ℕ (Saved ρ)) × PktidMap ρ
  | .reserve pkt =>
    let (nkey, map') := map.reserve pkt
    ([taken pkt nkey map'], map')
  | .save _ nkey physaddr len dma secdma =>
    let map' := map.save nkey physaddr len dma secdma
    ([.put nkey (map'.lockers nkey).toSaved], map')
  | .alloc pkt physaddr len dma secdma =>
    let (nkey, map₁) := map.reserve pkt
    let (_, map') := map.alloc pkt physaddr len dma secdma
    if nkey = 0 then ([taken pkt nkey map₁], map')
    else ([taken pkt nkey map₁, .put nkey (map'.lockers nkey).toSaved], map')
  | .free nkey =>
    let (saved, map') := map.free nkey
    ([.give nkey saved], map')
  | .clear =>
    let (freed, map') := map.clear
    ([.clear freed], map')

/-- A call on the map, with the log of the events so far. -/
def step (s : List (Event ℕ (Saved ρ)) × PktidMap ρ) (op : Op ρ) :
    Option (List (Event ℕ (Saved ρ)) × PktidMap ρ) :=
  let (events, map) := op.run s.2
  some (s.1 ++ events, map)

/-- **What the callers see to**: a packet is saved under an id that was reserved for it, and only
ids in the range of the map are freed. -/
def Valid (s : List (Event ℕ (Saved ρ)) × PktidMap ρ) : Op ρ → Prop
  | .save pkt nkey _ _ _ _ => (s.2.book nkey).map Saved.pkt = some (some pkt)
  | .free nkey => 1 ≤ nkey ∧ nkey ≤ s.2.items
  | _ => True

instance [DecidableEq ρ] (s : List (Event ℕ (Saved ρ)) × PktidMap ρ) :
    ∀ op : Op ρ, Decidable (Valid s op)
  | .save pkt nkey _ _ _ _ =>
    inferInstanceAs (Decidable ((s.2.book nkey).map Saved.pkt = some (some pkt)))
  | .free nkey => inferInstanceAs (Decidable (1 ≤ nkey ∧ nkey ≤ s.2.items))
  | .reserve _ | .alloc _ _ _ _ _ | .clear => isTrue trivial

/-- **The stack holds the free ids**, each one once. -/
structure Inv (map : PktidMap ρ) : Prop where
  inj : ∀ i j, 1 ≤ i → i ≤ map.avail → 1 ≤ j → j ≤ map.avail → map.keys i = map.keys j → i = j
  free_iff : ∀ k, (∃ i, 1 ≤ i ∧ i ≤ map.avail ∧ map.keys i = k) ↔
    1 ≤ k ∧ k ≤ map.items ∧ (map.lockers k).inuse = false

namespace Inv

variable {map : PktidMap ρ} {k : ℕ}

theorem init (items : ℕ) : Inv (PktidMap.init items : PktidMap ρ) where
  inj i j hi hi' hj hj' h := by
    simpa [PktidMap.init, hi, hj, show i ≤ items from hi', show j ≤ items from hj'] using h
  free_iff k := by
    constructor
    · rintro ⟨i, hi, hi', rfl⟩
      have hi' : i ≤ items := hi'
      have : i ≠ 0 := by omega
      simp [PktidMap.init, hi, hi', this, zeroed]
    · rintro ⟨hk, hk', -⟩
      exact ⟨k, hk, hk', if_pos ⟨hk, hk'⟩⟩

/-- An id in use is not on the stack. -/
theorem keys_ne (h : Inv map) (hk : (map.lockers k).inuse = true) {i : ℕ} (hi : 1 ≤ i)
    (hi' : i ≤ map.avail) : map.keys i ≠ k := by
  intro heq
  have := ((h.free_iff k).1 ⟨i, hi, hi', heq⟩).2.2
  simp [this] at hk

end Inv

section Book

variable {map map' : PktidMap ρ} {k : ℕ}

theorem book_eq_none_iff :
    map.book k = none ↔ ¬ (1 ≤ k ∧ k ≤ map.items ∧ (map.lockers k).inuse = true) := by
  simp [book]

theorem book_eq_some_iff {e : Saved ρ} :
    map.book k = some e ↔
      (1 ≤ k ∧ k ≤ map.items ∧ (map.lockers k).inuse = true) ∧ (map.lockers k).toSaved = e := by
  simp [book]

/-- A locker that is changed changes the entry under its id only. -/
theorem book_update {l : PktidItem ρ} (hitems : map'.items = map.items)
    (hlockers : map'.lockers = Function.update map.lockers k l) :
    map'.book = Function.update map.book k
      (if 1 ≤ k ∧ k ≤ map.items ∧ l.inuse = true then some l.toSaved else none) := by
  funext j
  by_cases hj : j = k
  · subst hj
    simp [book, hitems, hlockers]
  · simp [book, hitems, hlockers, hj]

theorem accounts_of_update {l : PktidItem ρ} {x : Event ℕ (Saved ρ)} {keys : Finset ℕ}
    (hitems : map'.items = map.items) (hlockers : map'.lockers = Function.update map.lockers k l)
    (h : Accounts keys map.book x (Function.update map.book k
      (if 1 ≤ k ∧ k ≤ map.items ∧ l.inuse = true then some l.toSaved else none))) :
    Accounts keys map.book x map'.book := by
  rw [book_update hitems hlockers]
  exact h

end Book

namespace Inv

variable {map : PktidMap ρ} {k : ℕ}

/-- **Reserving** takes a free id, if there is one. -/
theorem reserve (h : Inv map) (pkt : ρ) :
    Inv (map.reserve pkt).2 ∧ (map.reserve pkt).2.items = map.items ∧
      Accounts (Finset.Icc 1 map.items) map.book
        (taken pkt (map.reserve pkt).1 (map.reserve pkt).2) (map.reserve pkt).2.book := by
  rw [PktidMap.reserve]
  split_ifs with havail
  · refine ⟨⟨h.inj, h.free_iff⟩, rfl, .full fun k hk hnone => ?_⟩
    rw [Finset.mem_Icc] at hk
    -- an id that is not in use would be on the stack
    have hfree : (map.lockers k).inuse = false := by
      by_contra huse
      rw [Bool.not_eq_false] at huse
      exact book_eq_none_iff.1 hnone ⟨hk.1, hk.2, huse⟩
    obtain ⟨i, hi, hi', -⟩ := (h.free_iff k).2 ⟨hk.1, hk.2, hfree⟩
    omega
  · have hpos : 1 ≤ map.avail := by omega
    obtain ⟨hlo, hhi, hfree⟩ := (h.free_iff _).1 ⟨map.avail, hpos, le_rfl, rfl⟩
    generalize hk : map.keys map.avail = k at hlo hhi hfree ⊢
    have hne : k ≠ 0 := by omega
    refine ⟨⟨fun i j hi hi' hj hj' => ?_, fun j => ?_⟩, rfl, ?_⟩
    · exact h.inj i j hi (by dsimp only at hi'; omega) hj (by dsimp only at hj'; omega)
    · dsimp only
      by_cases hj : j = k
      · subst hj
        refine iff_of_false ?_ (by simp)
        rintro ⟨i, hi, hi', heq⟩
        have := h.inj i map.avail hi (by omega) hpos le_rfl (heq.trans hk.symm)
        omega
      · rw [Function.update_of_ne hj, ← h.free_iff j]
        refine exists_congr fun i => and_congr_right fun hi => ⟨fun hi' => ⟨by omega, hi'.2⟩, ?_⟩
        rintro ⟨hi', heq⟩
        have : i ≠ map.avail := by
          rintro rfl
          exact hj (heq.symm.trans hk)
        exact ⟨by omega, heq⟩
    · simp only [taken, hne, if_false, Function.update_self]
      refine accounts_of_update rfl rfl ?_
      rw [if_pos ⟨hlo, hhi, rfl⟩]
      exact .take (Finset.mem_Icc.2 ⟨hlo, hhi⟩) (by simp [book_eq_none_iff, hfree])

/-- **Saving** writes over what is under an id in use. -/
theorem save (h : Inv map) (physaddr : UInt64) (len : UInt32) (dma : UInt8) (secdma : UInt64)
    (hk : map.book k ≠ none) :
    Inv (map.save k physaddr len dma secdma) ∧
      Accounts (Finset.Icc 1 map.items) map.book
        (.put k ((map.save k physaddr len dma secdma).lockers k).toSaved)
        (map.save k physaddr len dma secdma).book := by
  have huse := hk
  rw [Ne, book_eq_none_iff, not_not] at huse
  refine ⟨⟨h.inj, fun j => (h.free_iff j).trans ?_⟩, ?_⟩
  · by_cases hj : j = k
    · subst hj
      simp [PktidMap.save, huse.2.2]
    · simp [PktidMap.save, hj]
  · refine accounts_of_update rfl rfl ?_
    rw [if_pos huse]
    simp only [PktidMap.save, Function.update_self]
    exact .put hk

/-- **Freeing** an id gives out what is under it, and puts the id back on the stack. -/
theorem free (h : Inv map) (hlo : 1 ≤ k) (hhi : k ≤ map.items) :
    Inv (map.free k).2 ∧ (map.free k).2.items = map.items ∧
      Accounts (Finset.Icc 1 map.items) map.book (.give k (map.free k).1) (map.free k).2.book := by
  rw [PktidMap.free]
  split_ifs with huse
  · refine ⟨⟨fun i j hi hi' hj hj' heq => ?_, fun j => ?_⟩, rfl, accounts_of_update rfl rfl ?_⟩
    · dsimp only at hi' hj' heq
      rcases Nat.lt_or_eq_of_le hi' with hi' | rfl <;> rcases Nat.lt_or_eq_of_le hj' with hj' | rfl
      · rw [Function.update_of_ne hi'.ne, Function.update_of_ne hj'.ne] at heq
        exact h.inj i j hi (by omega) hj (by omega) heq
      · rw [Function.update_of_ne hi'.ne, Function.update_self] at heq
        exact absurd heq (h.keys_ne huse hi (by omega))
      · rw [Function.update_self, Function.update_of_ne hj'.ne] at heq
        exact absurd heq.symm (h.keys_ne huse hj (by omega))
      · rfl
    · dsimp only
      by_cases hj : j = k
      · subst hj
        exact iff_of_true ⟨map.avail + 1, by omega, le_rfl, Function.update_self ..⟩
          ⟨hlo, hhi, by simp⟩
      · rw [Function.update_of_ne hj, ← h.free_iff j]
        refine exists_congr fun i => and_congr_right fun hi => ?_
        by_cases hi' : i = map.avail + 1
        · subst hi'
          refine iff_of_false (fun h' => hj ?_) (by omega)
          rw [Function.update_self] at h'
          exact h'.2.symm
        · rw [Function.update_of_ne hi']
          exact and_congr_left fun _ => by omega
    · rw [if_neg (by simp)]
      exact .give (book_eq_some_iff.2 ⟨⟨hlo, hhi, huse⟩, rfl⟩)
  · exact ⟨h, rfl, .nothing (book_eq_none_iff.2 fun hb => huse hb.2.2)⟩

/-- Freeing an id in use gives out what is under it. -/
theorem free_of_book {saved : Saved ρ} (h : Inv map) (hb : map.book k = some saved) :
    Inv (map.free k).2 ∧ (map.free k).1 = some saved ∧
      (map.free k).2.book = Function.update map.book k none := by
  obtain ⟨⟨hlo, hhi, -⟩, -⟩ := book_eq_some_iff.1 hb
  obtain ⟨hinv, -, hx⟩ := h.free hlo hhi
  refine ⟨hinv, ?_⟩
  generalize (map.free k).1 = freed at hx ⊢
  generalize (map.free k).2.book = b' at hx ⊢
  cases hx with
  | give hk => exact ⟨hk.symm.trans hb, rfl⟩
  | nothing hk =>
    rw [hk] at hb
    cases hb

/-- **Allocating** an id puts the packet under a free one, if there is one. -/
theorem alloc (h : Inv map) (pkt : ρ) (physaddr : UInt64) (len : UInt32) (dma : UInt8)
    (secdma : UInt64) :
    Inv (map.alloc pkt physaddr len dma secdma).2 ∧
      (map.alloc pkt physaddr len dma secdma).2.items = map.items ∧
      ((map.alloc pkt physaddr len dma secdma).1 = 0 ∧
          (map.alloc pkt physaddr len dma secdma).2.book = map.book ∨
        (map.alloc pkt physaddr len dma secdma).1 ∈ Finset.Icc 1 map.items ∧
          map.book (map.alloc pkt physaddr len dma secdma).1 = none ∧
          (map.alloc pkt physaddr len dma secdma).2.book =
            Function.update map.book (map.alloc pkt physaddr len dma secdma).1
              (some ⟨dma, len.toUInt16, some pkt, physaddr, secdma⟩)) := by
  obtain ⟨hinv, hitems, hx⟩ := h.reserve pkt
  have hpkt : (map.reserve pkt).1 ≠ 0 →
      ((map.reserve pkt).2.lockers (map.reserve pkt).1).pkt = some pkt := by
    rw [PktidMap.reserve]
    split_ifs <;> simp
  rw [PktidMap.alloc]
  generalize map.reserve pkt = r at *
  obtain ⟨nkey, map'⟩ := r
  dsimp only at *
  by_cases hkey : nkey = 0
  · rw [if_neg (not_not.2 hkey)]
    rw [taken, if_pos hkey] at hx
    refine ⟨hinv, hitems, .inl ⟨hkey, ?_⟩⟩
    generalize map'.book = b' at hx
    cases hx
    rfl
  · rw [if_pos hkey]
    rw [taken, if_neg hkey] at hx
    obtain ⟨hinv', hx'⟩ := hinv.save physaddr len dma secdma (k := nkey)
      (by simp [hx.taken])
    have hsaved : ((map'.save nkey physaddr len dma secdma).lockers nkey).toSaved =
        ⟨dma, len.toUInt16, some pkt, physaddr, secdma⟩ := by
      simp [PktidMap.save, hpkt hkey]
    rw [hsaved] at hx'
    refine ⟨hinv', hitems, .inr ?_⟩
    dsimp only
    generalize map'.book = b' at hx hx'
    generalize (map'.save nkey physaddr len dma secdma).book = b'' at hx'
    cases hx with
    | take hmem hnone =>
      cases hx' with
      | put _ => exact ⟨hmem, hnone, Function.update_idem ..⟩

end Inv

theorem clearOne_snd (map : PktidMap ρ) (k : ℕ) :
    (map.clearOne k).2 =
      { map with
        keys := Function.update map.keys k k
        lockers := Function.update map.lockers k { map.lockers k with inuse := false } } := by
  rw [clearOne]
  split_ifs with huse
  · rfl
  · -- a locker not in use is left alone
    rw [Bool.not_eq_true] at huse
    have hsame : Function.update map.lockers k { map.lockers k with inuse := false } =
        map.lockers := by
      rw [← huse]
      exact Function.update_eq_self k map.lockers
    rw [hsame]

theorem clearOne_fst (map : PktidMap ρ) (k : ℕ) :
    (map.clearOne k).1 =
      if (map.lockers k).inuse then [(k, (map.lockers k).toSaved)] else [] := by
  rw [clearOne]
  split_ifs <;> rfl

/-- What the loop of `dhd_pktid_map_clear` has done after `n` turns from `nkey` on. -/
theorem clearFrom_spec (map : PktidMap ρ) (nkey n : ℕ) :
    (map.clearFrom nkey n).1 =
        ((List.range' nkey n).filter fun k => (map.lockers k).inuse).map
          (fun k => (k, (map.lockers k).toSaved)) ∧
      (map.clearFrom nkey n).2 =
        { map with
          keys := fun k => if nkey ≤ k ∧ k < nkey + n then k else map.keys k
          lockers := fun k =>
            if nkey ≤ k ∧ k < nkey + n then { map.lockers k with inuse := false }
            else map.lockers k } := by
  induction n generalizing map nkey with
  | zero =>
    have hnone : ∀ k, ¬ (nkey ≤ k ∧ k < nkey) := fun k => by omega
    simp [clearFrom, hnone]
  | succ n ih =>
    obtain ⟨hfst, hsnd⟩ := ih (map.clearOne nkey).2 (nkey + 1)
    rw [clearFrom]
    dsimp only
    refine ⟨?_, ?_⟩
    · -- the lockers behind are not touched by the first turn
      have hrest : ∀ k ∈ List.range' (nkey + 1) n,
          (map.clearOne nkey).2.lockers k = map.lockers k := fun k hk => by
        rw [List.mem_range'_1] at hk
        have hne : k ≠ nkey := by omega
        simp [clearOne_snd, hne]
      rw [hfst, clearOne_fst, List.range'_succ, List.filter_cons,
        List.filter_congr (q := fun k => (map.lockers k).inuse) fun k hk => by rw [hrest k hk]]
      have hmap : ∀ k ∈ (List.range' (nkey + 1) n).filter fun k => (map.lockers k).inuse,
          ((k, ((map.clearOne nkey).2.lockers k).toSaved) : ℕ × Saved ρ) =
            (k, (map.lockers k).toSaved) :=
        fun k hk => by rw [hrest k (List.mem_of_mem_filter hk)]
      rw [List.map_congr_left hmap]
      split_ifs <;> simp
    · rw [hsnd, clearOne_snd]
      have hrange : ∀ k, (nkey ≤ k ∧ k < nkey + (n + 1)) ↔
          k = nkey ∨ nkey + 1 ≤ k ∧ k < nkey + 1 + n := fun k => by omega
      congr 1
      · funext k
        by_cases hk : k = nkey
        · simp [hk]
        · simp [hk, hrange]
      · funext k
        by_cases hk : k = nkey
        · simp [hk]
        · simp [hk, hrange]

/-- `dhd_pktid_map_clear` frees what `dhd_pktid_map_fini` would free. -/
theorem clear_fst (map : PktidMap ρ) : map.clear.1 = map.fini :=
  (clearFrom_spec { map with failures := 0 } 1 map.items).1

theorem clear_snd (map : PktidMap ρ) :
    map.clear.2 =
      { map with
        failures := 0
        avail := map.items
        keys := fun k => if 1 ≤ k ∧ k < 1 + map.items then k else map.keys k
        lockers := fun k =>
          if 1 ≤ k ∧ k < 1 + map.items then { map.lockers k with inuse := false }
          else map.lockers k } := by
  rw [clear]
  dsimp only
  rw [(clearFrom_spec { map with failures := 0 } 1 map.items).2]

/-- The packets that `dhd_pktid_map_fini` frees are those in the ledger, each one once. -/
theorem mem_fini {map : PktidMap ρ} {k : ℕ} {e : Saved ρ} :
    (k, e) ∈ map.fini ↔ map.book k = some e := by
  simp only [fini, List.mem_map, List.mem_filter, List.mem_range'_1, Prod.mk.injEq,
    book_eq_some_iff]
  constructor
  · rintro ⟨j, ⟨hj, huse⟩, rfl, rfl⟩
    exact ⟨⟨hj.1, by omega, huse⟩, rfl⟩
  · rintro ⟨⟨hlo, hhi, huse⟩, rfl⟩
    exact ⟨k, ⟨⟨hlo, by omega⟩, huse⟩, rfl, rfl⟩

theorem nodup_fini (map : PktidMap ρ) : (map.fini.map Prod.fst).Nodup := by
  rw [fini, List.map_map]
  simpa [Function.comp_def] using (List.nodup_range' 1).filter _

namespace Inv

variable {map : PktidMap ρ}

/-- **Clearing** gives out all packets and has all ids free. -/
theorem clear (_ : Inv map) :
    Inv map.clear.2 ∧ map.clear.2.items = map.items ∧
      Accounts (Finset.Icc 1 map.items) map.book (.clear map.clear.1) map.clear.2.book := by
  have hbook : map.clear.2.book = fun _ => none := by
    funext k
    rw [book_eq_none_iff, clear_snd]
    rintro ⟨hlo, hhi, huse⟩
    dsimp only at hhi huse
    rw [if_pos ⟨hlo, by omega⟩] at huse
    cases huse
  refine ⟨?_, by rw [clear_snd], ?_⟩
  · rw [clear_snd]
    refine ⟨fun i j hi hi' hj hj' heq => ?_, fun k => ?_⟩
    · dsimp only at hi' hj' heq
      rwa [if_pos ⟨hi, by omega⟩, if_pos ⟨hj, by omega⟩] at heq
    · dsimp only
      constructor
      · rintro ⟨i, hi, hi', rfl⟩
        rw [if_pos ⟨hi, by omega⟩, if_pos ⟨hi, by omega⟩]
        exact ⟨hi, hi', rfl⟩
      · rintro ⟨hlo, hhi, -⟩
        exact ⟨k, hlo, hhi, if_pos ⟨hlo, by omega⟩⟩
  · rw [hbook, clear_fst]
    exact .clear (nodup_fini map) fun k e => mem_fini

/-- **What a call does** the ledger accounts for. -/
theorem run (h : Inv map) {xs : List (Event ℕ (Saved ρ))} {op : Op ρ} (hv : Valid (xs, map) op) :
    Inv (op.run map).2 ∧ (op.run map).2.items = map.items ∧
      Log (Finset.Icc 1 map.items) map.book (op.run map).1 (op.run map).2.book := by
  cases op with
  | reserve pkt =>
    obtain ⟨hinv, hitems, hx⟩ := h.reserve pkt
    exact ⟨hinv, hitems, .snoc .nil hx⟩
  | save pkt nkey physaddr len dma secdma =>
    have hk : map.book nkey ≠ none := fun hnone => by simp [Valid, hnone] at hv
    obtain ⟨hinv, hx⟩ := h.save physaddr len dma secdma hk
    exact ⟨hinv, rfl, .snoc .nil hx⟩
  | alloc pkt physaddr len dma secdma =>
    obtain ⟨hinv, hitems, hx⟩ := h.reserve pkt
    simp only [Op.run, PktidMap.alloc]
    by_cases hkey : (map.reserve pkt).1 = 0
    · rw [if_pos hkey, if_neg (not_not.2 hkey)]
      exact ⟨hinv, hitems, .snoc .nil hx⟩
    · rw [if_neg hkey, if_pos hkey]
      have hbook : (map.reserve pkt).2.book (map.reserve pkt).1 ≠ none := by
        rw [taken, if_neg hkey] at hx
        simp [hx.taken]
      obtain ⟨hinv', hx'⟩ := hinv.save physaddr len dma secdma hbook
      rw [hitems] at hx'
      exact ⟨hinv', hitems, .snoc (.snoc .nil hx) hx'⟩
  | free nkey =>
    obtain ⟨hinv, hitems, hx⟩ := h.free hv.1 hv.2
    exact ⟨hinv, hitems, .snoc .nil hx⟩
  | clear =>
    obtain ⟨hinv, hitems, hx⟩ := h.clear
    exact ⟨hinv, hitems, .snoc .nil hx⟩

end Inv

theorem of_run {items : ℕ} {ops : List (Op ρ)} {log : List (Event ℕ (Saved ρ))}
    {map : PktidMap ρ} (r : Run step Valid ([], init items) ops (log, map)) :
    Inv map ∧ map.items = items ∧
      Log (Finset.Icc 1 items) (fun _ => none) log map.book := by
  have key : ∀ s : List (Event ℕ (Saved ρ)) × PktidMap ρ,
      Run step Valid ([], init items) ops s →
        Inv s.2 ∧ s.2.items = items ∧ Log (Finset.Icc 1 items) (fun _ => none) s.1 s.2.book := by
    intro s r
    refine r.invariant (I := fun s => Inv s.2 ∧ s.2.items = items ∧
      Log (Finset.Icc 1 items) (fun _ => none) s.1 s.2.book) ⟨.init items, rfl, ?_⟩ ?_
    · have hnone : (init items : PktidMap ρ).book = fun _ => none := by
        funext k
        rw [book_eq_none_iff]
        rintro ⟨hlo, -, huse⟩
        have : k ≠ 0 := by omega
        simp [init, this, zeroed] at huse
      rw [hnone]
      exact .nil
    · rintro ⟨xs, m⟩ op s' ⟨hinv, hitems, hlog⟩ hv hs
      obtain rfl := Option.some.inj hs
      obtain ⟨hinv', hitems', hlog'⟩ := hinv.run hv
      rw [hitems] at hlog'
      exact ⟨hinv', hitems'.trans hitems, hlog.append hlog'⟩
  exact key _ r

/-- **An id is free before it is reserved again**: in the log of any valid calls, between two
reservations of one id it was freed, alone or with all others. -/
theorem freed_before_reuse {items : ℕ} {ops : List (Op ρ)} {map : PktidMap ρ} {nkey : ℕ}
    {l m n : List (Event ℕ (Saved ρ))} {saved saved' : Saved ρ}
    (r : Run step Valid ([], init items) ops
      (l ++ .take (some nkey) saved :: m ++ .take (some nkey) saved' :: n, map)) :
    ∃ y ∈ m, y.Frees nkey :=
  (of_run r).2.2.taken_apart

theorem freed_before_reuse_second :
    ∃ y ∈ [(Event.give 2 (some ⟨0, 0, some 10, 0, 0⟩) : Event ℕ (Saved ℕ))], y.Frees 2 := by
  obtain ⟨⟨log, map⟩, r, hlog⟩ := exists_run_of_exec step Valid ([], (init 2 : PktidMap ℕ))
    [.reserve 10, .free 2, .reserve 30]
    (fun s => s.1 = [.take (some 2) ⟨0, 0, some 10, 0, 0⟩, .give 2 (some ⟨0, 0, some 10, 0, 0⟩),
      .take (some 2) ⟨0, 0, some 30, 0, 0⟩]) (by decide +kernel)
  obtain rfl := hlog
  exact freed_before_reuse (l := []) (n := []) r

end PktidMap

end Dhd
