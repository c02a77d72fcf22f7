import Akbuilder.Dhd.MsgRing
import Akbuilder.Lib.Run
import Mathlib.Tactic.FinCases

/-!
# Completion rings

The dongle writes a completion ring and the host reads it in batches. The slots of a batch go back
to the dongle when all of it is handled; those of the receive ring go back one by one, with an
index of their own. A message whose DMA is not seen to end is skipped. Handlers clear the slots of
their messages, and where the caches are not coherent the cleared slots of a batch are written to
memory at its end.

## Main definitions

* `CplnKind`: what sets the three rings and the platforms apart
* `Completion`: a ring, the batch that is being handled, and what was written and handled so far
* `Completion.step`: what dongle and host do, one step at a time
* `Completion.KeepsOff`: what is assumed of the dongle
* `Completion.Inv`: the messages written and not handled are those in the ring

## Main results

* `Completion.handled_in_order`: the host handles what was written, in order, and nothing is
  written over
* `Completion.exists_overwritten`: without the assumption on the dongle a message can be lost
-/

open Ring Transition

namespace Dhd

/-- What a completion ring and the platform have of their own. -/
structure CplnKind (μ : Type) where
  /-- The type of the message is not below `DHD_PROT_FUNCS`. -/
  bad : μ → Bool
  /-- `ring->idx == BCMPCIE_D2H_MSGRING_RX_COMPLETE` -/
  rxCpln : Bool
  /-- `OSL_CACHE_FLUSH` and `OSL_CACHE_INV` do nothing: host and dongle see the same memory. -/
  coherent : Bool

/-- A completion ring. -/
structure Completion (μ : Type) where
  ring : MsgRing μ
  /-- `rx_cpln_early_upd_idx` -/
  earlyUpdIdx : ℕ
  /-- The next slot of the batch fetched last, and the messages left in it. -/
  batch : Option (ℕ × ℕ)
  /-- `buf_head`: the first slot of the batch fetched last. -/
  bufHead : ℕ
  /-- The messages the dongle has written, in order. -/
  sent : List μ
  /-- The messages the host is through with, in order. -/
  taken : List μ
  /-- Those of them that went to their handler. -/
  handled : List μ
  /-- Those of them whose DMA was not seen to end. -/
  dropped : List μ

namespace Completion

variable {μ : Type}

/-- What the two sides do. -/
inductive Action (μ : Type)
  /-- The dongle writes a message. -/
  | write (m : μ)
  /-- The host fetches a batch. -/
  | fetch
  /-- A turn of the loop of `dhd_process_msgtype`, with what `d2h_sync_cb` finds: the DMA of the
  message has ended, or the tries are used up. -/
  | process (synced : Bool)
  /-- The end of a batch. -/
  | finish
  deriving DecidableEq, Repr

/-- A ring at its start, with `m` in all slots. -/
def init (maxItem : ℕ) (m : μ) : Completion μ where
  ring := ⟨maxItem, fun _ => m, fun _ => m, 0, 0, 0, 0, 0, 0⟩
  earlyUpdIdx := 0
  batch := none
  bufHead := 0
  sent := []
  taken := []
  handled := []
  dropped := []

/-- `prot_store_rxcpln_read_idx` -/
def storeReadIdx (s : Completion μ) : Completion μ := { s with earlyUpdIdx := s.ring.rOffset }

/-- `prot_early_upd_rxcpln_read_idx` -/
def earlyUpdReadIdx (s : Completion μ) : Completion μ :=
  if s.earlyUpdIdx = s.ring.rOffset then s
  else
    let earlyUpdIdx := s.ring.next s.earlyUpdIdx
    { s with earlyUpdIdx, ring := { s.ring with rShared := earlyUpdIdx } }

/-- The beginning of a turn of `dhd_prot_process_msgbuf_rxcpl`, of `dhd_prot_process_msgbuf_txcpl`
and of `dhd_prot_process_ctrlbuf`. -/
def fetchStep (π : RingSpace) (K : CplnKind μ) (s : Completion μ) : Completion μ :=
  let s := if K.rxCpln then s.storeReadIdx else s
  let bufHead := s.ring.rOffset
  let (batch, ring) := s.ring.getSrcAddr π
  { s with ring, batch, bufHead }

/-- What a handler leaves in the slot of its message; with `PCIE_D2H_SYNC_BZERO` that is zeros. -/
def memset (K : CplnKind μ) (slot : ℕ) (m : μ) (ring : MsgRing μ) : MsgRing μ :=
  { ring.setItem slot m with
    mem := if K.coherent then Function.update ring.mem slot m else ring.mem }

/-- `OSL_CACHE_FLUSH` of the messages of a batch before `slot`. -/
def flush (K : CplnKind μ) (slot : ℕ) (s : Completion μ) : MsgRing μ :=
  if K.coherent then s.ring else s.ring.cacheFlush s.bufHead (slot - s.bufHead)

/-- The end of a turn, which gives the slot back in the receive ring. -/
def endTurn (K : CplnKind μ) (s : Completion μ) : Completion μ :=
  if K.rxCpln then s.earlyUpdReadIdx else s

/-- A turn of the loop of `dhd_process_msgtype` for the message in `slot`, with `n` more behind it,
where a handler leaves `left m` of a message `m`. A message of no known type ends the batch; one
that is not synced is taken for type 0, which has `dhd_prot_noop`. -/
def processStep (K : CplnKind μ) (left : μ → μ) (synced : Bool) (slot n : ℕ) (s : Completion μ) :
    Completion μ :=
  let m := s.ring.base slot
  if synced && K.bad m then
    { s with
      ring := (s.flush K slot).updReadIdx
      batch := none
      taken := s.taken ++ contents s.ring.maxItem s.ring.base slot (n + 1) }
  else
    let s := { s with batch := some (slot + 1, n), taken := s.taken ++ [m] }
    let s :=
      if synced then
        { s with ring := memset K slot (left m) s.ring, handled := s.handled ++ [m] }
      else { s with dropped := s.dropped ++ [m] }
    s.endTurn K

/-- The end of a batch, which is before `slot`. -/
def finishStep (K : CplnKind μ) (slot : ℕ) (s : Completion μ) : Completion μ :=
  let ring := s.flush K slot
  { s with ring := if K.rxCpln then ring else ring.updReadIdx, batch := none }

/-- The dongle writing a message. -/
def writeStep (m : μ) (s : Completion μ) : Completion μ :=
  { s with
    ring := { s.ring with
      mem := Function.update s.ring.mem s.ring.wShared m
      wShared := s.ring.next s.ring.wShared }
    sent := s.sent ++ [m] }

/-- **A step.** The dongle writes when there is a free slot and one to spare. -/
def step (π : RingSpace) (K : CplnKind μ) (left : μ → μ) (s : Completion μ) :
    Action μ → Option (Completion μ)
  | .write m =>
    if apart s.ring.rShared s.ring.wShared s.ring.maxItem + 1 < s.ring.maxItem then
      some (s.writeStep m)
    else none
  | .fetch => if s.batch = none then some (s.fetchStep π K) else none
  | .process synced =>
    match s.batch with
    | some (slot, n + 1) => some (s.processStep K left synced slot n)
    | _ => none
  | .finish =>
    match s.batch with
    | some (slot, 0) => some (s.finishStep K slot)
    | _ => none

/-- How many messages of the batch in hand the host is through with. -/
def through (s : Completion μ) : ℕ :=
  match s.batch with
  | none => 0
  | some (slot, _) => slot - s.bufHead

/-- **What is assumed**: where the batch of the receive ring is flushed at its end, the dongle does
not come round to a slot of it before, which it has back already. -/
def KeepsOff (K : CplnKind μ) (s : Completion μ) : Action μ → Prop
  | .write _ => K.rxCpln = true → K.coherent = false →
      apart s.ring.rShared s.ring.wShared s.ring.maxItem + s.through < s.ring.maxItem
  | _ => True

instance (K : CplnKind μ) (s : Completion μ) : ∀ a : Action μ, Decidable (KeepsOff K s a)
  | .write _ => inferInstanceAs (Decidable (K.rxCpln = true → K.coherent = false → _))
  | .fetch | .process _ | .finish => isTrue trivial

/-- **What is where**, from the dongle's copy of the host's index on: `old` messages that the host
is through with, those `cur` of the batch that are left, and those `rest` behind it. -/
structure HoldsAt (ring : MsgRing μ) (old : ℕ) (cur rest : List μ) : Prop where
  lt : ring.rShared < ring.maxItem
  length_lt : old + (cur.length + rest.length) < ring.maxItem
  mem : Window ring.maxItem ring.mem ((ring.rShared + old) % ring.maxItem) (cur ++ rest)
  base : Window ring.maxItem ring.base ((ring.rShared + old) % ring.maxItem) cur
  rOffset : ring.rOffset = (ring.rShared + (old + cur.length)) % ring.maxItem
  wShared : ring.wShared = (ring.rShared + (old + (cur.length + rest.length))) % ring.maxItem

namespace HoldsAt

variable {ring : MsgRing μ} {K : CplnKind μ} {old k slot : ℕ} {cur rest l : List μ} {m x : μ}
  {π : RingSpace}

/-- What is written and not given back. -/
theorem apart_eq (h : HoldsAt ring old cur rest) :
    apart ring.rShared ring.wShared ring.maxItem = old + (cur.length + rest.length) := by
  rw [h.wShared, apart_add h.lt h.length_lt]

/-- **The dongle writing a message.** -/
theorem write (h : HoldsAt ring old cur rest)
    (hlt : apart ring.rShared ring.wShared ring.maxItem + 1 < ring.maxItem) :
    HoldsAt { ring with
      mem := Function.update ring.mem ring.wShared m
      wShared := ring.next ring.wShared } old cur (rest ++ [m]) := by
  rw [h.apart_eq] at hlt
  have hpush := h.mem.push (x := m) (by rw [List.length_append]; omega)
  rw [Nat.mod_add_mod, List.length_append, Nat.add_assoc, ← h.wShared] at hpush
  have hpos := h.lt
  have hw : ring.wShared < ring.maxItem := h.wShared ▸ Nat.mod_lt _ (by omega)
  refine ⟨h.lt, ?_, by simpa using hpush, h.base, h.rOffset, ?_⟩
  · simp only [List.length_append, List.length_singleton]
    omega
  · rw [ring.next_eq hw, h.wShared, Nat.mod_add_mod]
    simp [Nat.add_assoc]

/-- The host sees the next message of the batch. -/
theorem base_eq (h : HoldsAt ring old (m :: cur) rest)
    (hslot : slot = (ring.rShared + old) % ring.maxItem) : ring.base slot = m := by
  have hm := Window.apply (l := []) h.base
  rwa [List.length_nil, Nat.add_zero, Nat.mod_mod, ← hslot] at hm

/-- **Being through with messages** of the batch. -/
theorem advance (h : HoldsAt ring old (l ++ cur) rest) :
    HoldsAt ring (old + l.length) cur rest := by
  have hmem := h.mem
  rw [List.append_assoc] at hmem
  have hmem := hmem.drop
  have hbase := h.base.drop
  rw [Nat.mod_add_mod, Nat.add_assoc] at hmem hbase
  have hr := h.rOffset
  have hw := h.wShared
  have hlen := h.length_lt
  rw [List.length_append] at hr hw hlen
  refine ⟨h.lt, by omega, hmem, hbase, ?_, ?_⟩
  · rw [hr, Nat.add_assoc]
  · rw [hw, Nat.add_assoc, Nat.add_assoc]

/-- **Giving slots back.** -/
theorem release (h : HoldsAt ring (k + old) cur rest) :
    HoldsAt { ring with rShared := (ring.rShared + k) % ring.maxItem } old cur rest := by
  have hpos := h.lt
  have hlen := h.length_lt
  refine ⟨Nat.mod_lt _ (by omega), by dsimp only; omega, ?_, ?_, ?_, ?_⟩
  · simpa [Nat.add_assoc] using h.mem
  · simpa [Nat.add_assoc] using h.base
  · simpa [Nat.add_assoc] using h.rOffset
  · simpa [Nat.add_assoc] using h.wShared

/-- **Giving back all that was fetched.** -/
theorem updReadIdx (h : HoldsAt ring old cur rest) : HoldsAt ring.updReadIdx 0 [] rest := by
  have h' : HoldsAt ring (old + cur.length + 0) [] rest :=
    HoldsAt.advance (by rwa [List.append_nil])
  have heq : ring.updReadIdx =
      { ring with rShared := (ring.rShared + (old + cur.length)) % ring.maxItem } := by
    rw [MsgRing.updReadIdx, ← h.rOffset]
  rw [heq]
  exact h'.release

/-- **Handling a message**, whatever is left in its slot. -/
theorem memset (h : HoldsAt ring old (m :: cur) rest)
    (hslot : slot = (ring.rShared + old) % ring.maxItem) :
    HoldsAt (memset K slot x ring) (old + 1) cur rest := by
  have h' : HoldsAt ring (old + 1) cur rest := h.advance (l := [m])
  have hlen := h'.length_lt
  -- the slot that is written is before both windows
  have hne : ∀ j < cur.length + rest.length,
      ((ring.rShared + (old + 1)) % ring.maxItem + j) % ring.maxItem ≠ slot := fun j hj => by
    rw [Nat.mod_add_mod, hslot, Nat.add_assoc]
    exact (mod_ne (by omega) (by omega)).symm
  refine ⟨h'.lt, hlen, h'.mem.congr fun j hj => ?_, h'.base.congr fun j hj => ?_, h'.rOffset,
    h'.wShared⟩
  · rw [List.length_append] at hj
    rw [Completion.memset]
    split_ifs
    · exact Function.update_of_ne (hne j hj) ..
    · rfl
  · exact Function.update_of_ne (hne j (by omega)) ..

/-- **Flushing messages** that the host is through with, as long as nothing was written in their
slots. -/
theorem cacheFlush {head : ℕ} (h : HoldsAt ring old cur rest)
    (hslot : (ring.rShared + old) % ring.maxItem = slot % ring.maxItem) (hle : slot ≤ ring.maxItem)
    (hhead : head ≤ slot) (hclear : cur.length + rest.length + (slot - head) ≤ ring.maxItem) :
    HoldsAt (ring.cacheFlush head (slot - head)) old cur rest := by
  refine ⟨h.lt, h.length_lt, ?_, h.base, h.rOffset, h.wShared⟩
  have hmem := h.mem
  rw [hslot] at hmem
  rw [MsgRing.cacheFlush, Nat.add_sub_cancel' hhead]
  dsimp only
  rw [hslot]
  exact hmem.behind hhead hle (by rwa [List.length_append])

/-- **Fetching a batch**, which there is unless the host is through with everything. -/
theorem getSrcAddr (h : HoldsAt ring 0 [] rest) (hπ : π.Sound) :
    (∃ ring', ring.getSrcAddr π = (none, ring') ∧ rest = [] ∧ HoldsAt ring' 0 [] []) ∨
      ∃ ring' cur rest', ring.getSrcAddr π = (some (ring.rOffset, cur.length), ring') ∧
        cur ≠ [] ∧ rest = cur ++ rest' ∧ ring.rOffset + cur.length ≤ ring.maxItem ∧
          ring'.maxItem = ring.maxItem ∧ ring'.rShared = ring.rShared ∧
            HoldsAt ring' 0 cur rest' := by
  have hlt := h.length_lt
  have hr : ring.rOffset = ring.rShared := by
    rw [h.rOffset]
    exact Nat.mod_eq_of_lt h.lt
  have hr' : ring.rOffset < ring.maxItem := hr ▸ h.lt
  have hw : ring.wShared < ring.maxItem := h.wShared ▸ Nat.mod_lt _ (by omega)
  have hapart : apart ring.rOffset ring.wShared ring.maxItem = rest.length := by
    rw [hr, h.apart_eq]
    simp
  have hle := hπ.avail_le hr' hw
  have hfits := hπ.avail_fits hr' hw
  have hzero := hπ.avail_zero hr' hw
  rw [hapart] at hle hzero
  rw [MsgRing.getSrcAddr_eq hfits]
  dsimp only
  generalize π.readAvailSpace ring.wShared ring.rOffset ring.maxItem = n at *
  split_ifs with hn
  · obtain rfl : rest = [] := List.length_eq_zero_iff.1 (hzero hn)
    exact .inl ⟨_, rfl, rfl, h.lt, h.length_lt, h.mem, h.base, h.rOffset, h.wShared⟩
  · obtain ⟨cur, rest', rfl, rfl⟩ : ∃ cur rest', rest = cur ++ rest' ∧ cur.length = n :=
      ⟨rest.take n, rest.drop n, (List.take_append_drop n rest).symm, by simp; omega⟩
    have hzero : (ring.rShared + 0) % ring.maxItem = ring.rShared := Nat.mod_eq_of_lt h.lt
    have hmem := h.mem
    rw [hzero] at hmem
    have hmem : Window ring.maxItem ring.mem ring.rShared ([] ++ (cur ++ rest')) := hmem
    have hnil : Window ring.maxItem ring.base ring.rShared [] := .nil h.lt
    have hcopy := hnil.copy hmem (fun _ => h.rOffset) hfits
    refine .inr ⟨_, cur, rest', rfl, List.ne_nil_of_length_pos (by omega), rfl, hfits, rfl, rfl,
      h.lt, ?_, h.mem, ?_, ?_, ?_⟩
    · simpa using hlt
    · simpa [Nat.mod_eq_of_lt h.lt] using hcopy
    · simp [hr]
    · simpa using h.wShared

end HoldsAt

variable {π : RingSpace} {K : CplnKind μ} {left : μ → μ} {s s' : Completion μ} {m : μ}
  {cur rest : List μ} {old slot n : ℕ} {synced : Bool}

/-- **Where the batch is**, and how the index of the receive ring goes with it. -/
structure InBatch (s : Completion μ) (K : CplnKind μ) (slot n old : ℕ) (cur rest : List μ) :
    Prop where
  count : n = cur.length
  place : (s.ring.rShared + old) % s.ring.maxItem = slot % s.ring.maxItem
  le : slot + cur.length ≤ s.ring.maxItem
  head : s.bufHead ≤ slot
  early : K.rxCpln = true → old = 0 ∧ s.earlyUpdIdx = s.ring.rShared
  late : K.rxCpln = false → old = slot - s.bufHead
  /-- Nothing lies in the slots that are still to be flushed. -/
  clear : K.coherent = false → cur.length + rest.length + (slot - s.bufHead) ≤ s.ring.maxItem

/-- The next message of the batch is in the next slot. -/
theorem InBatch.slot_eq {x : μ} (h : s.InBatch K slot n old (x :: cur) rest) :
    slot = (s.ring.rShared + old) % s.ring.maxItem := by
  have hle := h.le
  rw [List.length_cons] at hle
  rw [h.place, Nat.mod_eq_of_lt (by omega)]

/-- Where the host is. -/
def AtBatch (s : Completion μ) (K : CplnKind μ) (old : ℕ) (cur rest : List μ) : Prop :=
  match s.batch with
  | none => old = 0 ∧ cur = []
  | some (slot, n) => s.InBatch K slot n old cur rest

/-- **The messages written and not handled are in the ring.** -/
structure Inv (K : CplnKind μ) (s : Completion μ) : Prop where
  holds : ∃ old cur rest, HoldsAt s.ring old cur rest ∧ s.AtBatch K old cur rest ∧
    s.sent = s.taken ++ cur ++ rest
  handled : s.handled.Sublist s.taken
  all : (∀ m ∈ s.sent, K.bad m = false) → s.taken.Perm (s.handled ++ s.dropped)

/-- **The cases of a step.** -/
inductive Step (π : RingSpace) (K : CplnKind μ) (left : μ → μ) (s : Completion μ) :
    Action μ → Completion μ → Prop
  | write {m : μ}
      (hlt : apart s.ring.rShared s.ring.wShared s.ring.maxItem + 1 < s.ring.maxItem) :
      Step π K left s (.write m) (s.writeStep m)
  | fetch (hb : s.batch = none) : Step π K left s .fetch (s.fetchStep π K)
  | process {synced : Bool} {slot n : ℕ} (hb : s.batch = some (slot, n + 1)) :
      Step π K left s (.process synced) (s.processStep K left synced slot n)
  | finish {slot : ℕ} (hb : s.batch = some (slot, 0)) :
      Step π K left s .finish (s.finishStep K slot)

theorem step_sound {a : Action μ} (h : step π K left s a = some s') : Step π K left s a s' := by
  cases a with
  | write m =>
    simp only [step] at h
    split_ifs at h with hlt
    obtain rfl := Option.some.inj h
    exact .write hlt
  | fetch =>
    simp only [step] at h
    split_ifs at h with hb
    obtain rfl := Option.some.inj h
    exact .fetch hb
  | process synced =>
    simp only [step] at h
    split at h
    · rename_i slot n hb
      obtain rfl := Option.some.inj h
      exact .process hb
    · cases h
  | finish =>
    simp only [step] at h
    split at h
    · rename_i slot hb
      obtain rfl := Option.some.inj h
      exact .finish hb
    · cases h

theorem atBatch_none (hb : s.batch = none) :
    s.AtBatch K old cur rest ↔ old = 0 ∧ cur = [] := by
  rw [AtBatch, hb]

theorem atBatch_some (hb : s.batch = some (slot, n)) :
    s.AtBatch K old cur rest ↔ s.InBatch K slot n old cur rest := by
  rw [AtBatch, hb]

/-- Fetching does not touch the messages. -/
theorem fetchStep_frame : (s.fetchStep π K).sent = s.sent ∧ (s.fetchStep π K).taken = s.taken ∧
    (s.fetchStep π K).handled = s.handled ∧ (s.fetchStep π K).dropped = s.dropped := by
  rw [fetchStep]
  dsimp only
  split_ifs <;> exact ⟨rfl, rfl, rfl, rfl⟩

/-- The end of a turn touches nothing but the index that is given back. -/
theorem endTurn_eq (s : Completion μ) (K : CplnKind μ) : ∃ idx r,
    s.endTurn K = { s with earlyUpdIdx := idx, ring := { s.ring with rShared := r } } := by
  rw [endTurn, earlyUpdReadIdx]
  split_ifs
  · exact ⟨_, _, rfl⟩
  · exact ⟨_, _, rfl⟩
  · exact ⟨_, _, rfl⟩

/-- What becomes of a message that is of a known type, or not synced. -/
theorem processStep_frame (s : Completion μ) (K : CplnKind μ) (left : μ → μ) (synced : Bool)
    (slot n : ℕ) (hbad : K.bad (s.ring.base slot) = false) :
    (s.processStep K left synced slot n).sent = s.sent ∧
      (s.processStep K left synced slot n).taken = s.taken ++ [s.ring.base slot] ∧
        (s.processStep K left synced slot n).handled =
            s.handled ++ (if synced then [s.ring.base slot] else []) ∧
          (s.processStep K left synced slot n).dropped =
            s.dropped ++ (if synced then [] else [s.ring.base slot]) := by
  rw [processStep]
  dsimp only
  rw [if_neg (by simp [hbad])]
  obtain ⟨idx, r, heq⟩ := endTurn_eq (if synced then
    { s with
      batch := some (slot + 1, n)
      taken := s.taken ++ [s.ring.base slot]
      ring := memset K slot (left (s.ring.base slot)) s.ring
      handled := s.handled ++ [s.ring.base slot] }
    else
    { s with
      batch := some (slot + 1, n)
      taken := s.taken ++ [s.ring.base slot]
      dropped := s.dropped ++ [s.ring.base slot] }) K
  rw [heq]
  cases synced with
  | true => exact ⟨rfl, rfl, rfl, by simp⟩
  | false => exact ⟨rfl, rfl, by simp, rfl⟩

/-- The invariant between two batches. -/
theorem inv_of_none (hb : s.batch = none) (hring : HoldsAt s.ring 0 [] rest)
    (hsent : s.sent = s.taken ++ rest) (hsub : s.handled.Sublist s.taken)
    (hall : (∀ m ∈ s.sent, K.bad m = false) → s.taken.Perm (s.handled ++ s.dropped)) :
    Inv K s :=
  ⟨⟨0, [], rest, hring, (atBatch_none hb).2 ⟨rfl, rfl⟩, by simpa using hsent⟩, hsub, hall⟩

/-- **Flushing a batch** keeps what is where. -/
theorem holdsAt_flush (hring : HoldsAt s.ring old cur rest)
    (hbatch : s.InBatch K slot n old cur rest) : HoldsAt (s.flush K slot) old cur rest := by
  rw [flush]
  split_ifs with hcoherent
  · exact hring
  · have hle := hbatch.le
    exact hring.cacheFlush hbatch.place (by omega) hbatch.head
      (hbatch.clear (Bool.eq_false_iff.2 hcoherent))

/-- **The end of a turn**, at the next message of the batch. -/
theorem endTurn_atBatch {x : μ} (hring : HoldsAt s.ring (old + 1) cur rest)
    (hb : s.batch = some (slot + 1, n)) (hbatch : s.InBatch K slot (n + 1) old (x :: cur) rest) :
    ∃ old', HoldsAt (s.endTurn K).ring old' cur rest ∧ (s.endTurn K).AtBatch K old' cur rest := by
  have hcount := hbatch.count
  have hle := hbatch.le
  have hhead := hbatch.head
  have hclear := hbatch.clear
  have hslot : (s.ring.rShared + (old + 1)) % s.ring.maxItem = (slot + 1) % s.ring.maxItem := by
    rw [← Nat.add_assoc]
    exact Nat.ModEq.add_right 1 hbatch.place
  simp only [List.length_cons] at hcount hle hclear
  rw [endTurn]
  cases hrx : K.rxCpln with
  | false =>
    have hlate := hbatch.late hrx
    exact ⟨old + 1, hring, (atBatch_some hb).2 ⟨by omega, hslot, by omega, by omega,
      by simp [hrx], fun _ => by omega, fun hc => by have := hclear hc; omega⟩⟩
  | true =>
    obtain ⟨rfl, hidx⟩ := hbatch.early hrx
    -- there was a message left, so the index is not at the end of the batch
    have hlt := hring.length_lt
    have hne : s.earlyUpdIdx ≠ s.ring.rOffset := by
      rw [hidx, hring.rOffset]
      have := mod_ne (r := s.ring.rShared) (n := 0) (k := 0 + 1 + cur.length)
        (d := s.ring.maxItem) (by omega) (by omega)
      rwa [Nat.add_zero, Nat.mod_eq_of_lt hring.lt] at this
    have hr : s.ring.next s.earlyUpdIdx = (s.ring.rShared + 1) % s.ring.maxItem := by
      rw [hidx, s.ring.next_eq hring.lt]
    rw [if_pos rfl, earlyUpdReadIdx, if_neg hne]
    dsimp only
    rw [hr]
    refine ⟨0, HoldsAt.release (k := 1) (by simpa using hring), (atBatch_some (by exact hb)).2
      ⟨by omega, ?_, ?_, Nat.le_succ_of_le hhead, fun _ => ⟨rfl, rfl⟩, by simp [hrx],
        fun hc => ?_⟩⟩
    · simpa using hslot
    · change slot + 1 + cur.length ≤ s.ring.maxItem
      omega
    · have := hclear hc
      change cur.length + rest.length + (slot + 1 - s.bufHead) ≤ s.ring.maxItem
      omega

/-- The invariant at the end of a turn. -/
theorem inv_endTurn {x : μ} (hring : HoldsAt s.ring (old + 1) cur rest)
    (hb : s.batch = some (slot + 1, n)) (hbatch : s.InBatch K slot (n + 1) old (x :: cur) rest)
    (hsent : s.sent = s.taken ++ cur ++ rest) (hsub : s.handled.Sublist s.taken)
    (hall : (∀ m ∈ s.sent, K.bad m = false) → s.taken.Perm (s.handled ++ s.dropped)) :
    Inv K (s.endTurn K) := by
  obtain ⟨old', hring', hbatch'⟩ := endTurn_atBatch hring hb hbatch
  obtain ⟨idx, r, heq⟩ := endTurn_eq s K
  rw [heq] at hring' hbatch' ⊢
  exact ⟨⟨old', cur, rest, hring', hbatch', hsent⟩, hsub, hall⟩

namespace Inv

theorem init {maxItem : ℕ} (hpos : 0 < maxItem) : Inv K (init maxItem m) := by
  refine inv_of_none rfl ⟨hpos, by simpa [Completion.init] using hpos, ?_, ?_, ?_, ?_⟩ rfl
    (.refl _) fun _ => .refl _
  · simpa [Completion.init] using Window.nil (Nat.mod_lt 0 hpos)
  · simpa [Completion.init] using Window.nil (Nat.mod_lt 0 hpos)
  · simp [Completion.init]
  · simp [Completion.init]

/-- **The dongle writing a message.** -/
theorem writeStep (h : Inv K s)
    (hlt : apart s.ring.rShared s.ring.wShared s.ring.maxItem + 1 < s.ring.maxItem)
    (hoff : KeepsOff K s (.write m)) : Inv K (s.writeStep m) := by
  obtain ⟨⟨old, cur, rest, hring, hbatch, hsent⟩, hsub, hall⟩ := h
  refine ⟨⟨old, cur, rest ++ [m], hring.write hlt, ?_, ?_⟩, hsub, fun hgood => hall ?_⟩
  · cases hb : s.batch with
    | none =>
      rw [atBatch_none hb] at hbatch
      exact (atBatch_none (s := s.writeStep m) hb).2 hbatch
    | some b =>
      have hbatch := (atBatch_some hb).1 hbatch
      refine (atBatch_some (by exact hb)).2 ⟨hbatch.count, hbatch.place, hbatch.le, hbatch.head,
        hbatch.early, hbatch.late, fun hc => ?_⟩
      rw [hring.apart_eq] at hlt
      rw [KeepsOff, hring.apart_eq, through, hb] at hoff
      rw [List.length_append, List.length_singleton]
      change cur.length + (rest.length + 1) + (b.1 - s.bufHead) ≤ s.ring.maxItem
      cases hrx : K.rxCpln with
      | false =>
        -- nothing of the batch is given back yet, so its slots are not among the free ones
        have := hbatch.late hrx
        omega
      | true =>
        have := hoff hrx hc
        dsimp only at this
        omega
  · simp [Completion.writeStep, hsent]
  · exact fun x hx => hgood x (List.mem_append_left _ hx)

/-- **Fetching a batch.** -/
theorem fetchStep (h : Inv K s) (hπ : π.Sound) (hb : s.batch = none) :
    Inv K (s.fetchStep π K) := by
  obtain ⟨⟨old, cur, rest, hring, hbatch, hsent⟩, hsub, hall⟩ := h
  obtain ⟨rfl, rfl⟩ := (atBatch_none hb).1 hbatch
  have hstore : ∃ s₁, (if K.rxCpln then s.storeReadIdx else s) = s₁ ∧
      s₁ = { s with earlyUpdIdx := s₁.earlyUpdIdx } ∧
        (K.rxCpln = true → s₁.earlyUpdIdx = s.ring.rOffset) := by
    refine ⟨_, rfl, ?_, fun hrx => ?_⟩
    · split_ifs <;> rfl
    · rw [if_pos hrx]
      rfl
  obtain ⟨s₁, heq, hs₁, hearly⟩ := hstore
  rw [Completion.fetchStep, heq]
  rw [hs₁]
  rcases hring.getSrcAddr hπ with
    ⟨ring', heq, rfl, h'⟩ | ⟨ring', cur, rest', heq, hne, rfl, hend, hmax, hr, h'⟩
  · rw [heq]
    exact inv_of_none rfl h' (by simpa using hsent) hsub hall
  · rw [heq]
    have hlt := hring.length_lt
    rw [List.length_append, List.length_nil] at hlt
    have hstart : s.ring.rOffset = s.ring.rShared := by
      rw [hring.rOffset]
      exact Nat.mod_eq_of_lt hring.lt
    refine ⟨⟨0, cur, rest', h', (atBatch_some rfl).2 ⟨rfl, ?_, hend.trans hmax.symm.le, le_rfl,
      fun hrx => ⟨rfl, ?_⟩, fun _ => ?_, fun _ => ?_⟩, by simpa using hsent⟩, hsub, hall⟩
    · rw [hr, hstart, Nat.add_zero]
    · change s₁.earlyUpdIdx = ring'.rShared
      rw [hearly hrx, hr, hstart]
    · exact (Nat.sub_self _).symm
    · change cur.length + rest'.length + (s.ring.rOffset - s.ring.rOffset) ≤ ring'.maxItem
      omega

/-- **The next message** of a batch is the next one of all. -/
theorem next (h : Inv K s) (hb : s.batch = some (slot, n + 1)) :
    ∃ unhandled, s.sent = s.taken ++ s.ring.base slot :: unhandled := by
  obtain ⟨⟨old, cur, rest, hring, hbatch, hsent⟩, -, -⟩ := h
  have hbatch := (atBatch_some hb).1 hbatch
  obtain ⟨x, cur, rfl⟩ := List.exists_cons_of_length_eq_add_one hbatch.count.symm
  rw [hring.base_eq hbatch.slot_eq, hsent]
  exact ⟨cur ++ rest, by simp⟩

/-- **Handling a message**, which is the next one of the batch. -/
theorem processStep (h : Inv K s) (hb : s.batch = some (slot, n + 1)) (left : μ → μ)
    (synced : Bool) : Inv K (s.processStep K left synced slot n) := by
  obtain ⟨⟨old, cur, rest, hring, hbatch, hsent⟩, hsub, hall⟩ := h
  have hbatch := (atBatch_some hb).1 hbatch
  obtain ⟨x, cur, rfl⟩ := List.exists_cons_of_length_eq_add_one hbatch.count.symm
  have hx := hring.base_eq hbatch.slot_eq
  have hmem : x ∈ s.sent := by
    rw [hsent]
    simp
  rw [Completion.processStep, hx]
  dsimp only
  by_cases hbad : (synced && K.bad x) = true
  · -- the rest of the batch goes with it
    have hcur : contents s.ring.maxItem s.ring.base slot (n + 1) = x :: cur := by
      have := hring.base.items
      rwa [← hbatch.count, ← hbatch.slot_eq] at this
    rw [if_pos hbad, hcur]
    refine inv_of_none rfl (holdsAt_flush hring hbatch).updReadIdx (by simpa using hsent)
      (hsub.trans (List.sublist_append_left _ _)) fun hgood => ?_
    rw [hgood x hmem, Bool.and_false] at hbad
    cases hbad
  · rw [if_neg hbad]
    have hperm : (∀ m ∈ s.sent, K.bad m = false) →
        (s.taken ++ [x]).Perm (s.handled ++ s.dropped ++ [x]) := fun hgood =>
      (hall hgood).append_right [x]
    have hsent' : s.sent = s.taken ++ [x] ++ cur ++ rest := by simpa using hsent
    cases synced with
    | true =>
      -- the message goes to its handler, which may leave anything in the slot
      rw [if_pos rfl]
      refine inv_endTurn (hring.memset hbatch.slot_eq) rfl ⟨hbatch.count, hbatch.place, hbatch.le,
        hbatch.head, hbatch.early, hbatch.late, hbatch.clear⟩ hsent' (hsub.append (.refl _))
        fun hgood => (hperm hgood).trans ?_
      rw [List.append_assoc, List.append_assoc]
      exact List.perm_append_comm.append_left _
    | false =>
      -- the message is skipped, and its slot is left as it is
      rw [if_neg (by simp)]
      refine inv_endTurn (x := x) (hring.advance (l := [x])) rfl ⟨hbatch.count, hbatch.place,
        hbatch.le, hbatch.head, hbatch.early, hbatch.late, hbatch.clear⟩ hsent'
        (hsub.trans (List.sublist_append_left _ _)) fun hgood => ?_
      simpa using hperm hgood

/-- **The end of a batch** that was handled. -/
theorem finishStep (h : Inv K s) (hb : s.batch = some (slot, 0)) :
    Inv K (s.finishStep K slot) := by
  obtain ⟨⟨old, cur, rest, hring, hbatch, hsent⟩, hsub, hall⟩ := h
  have hbatch := (atBatch_some hb).1 hbatch
  obtain rfl : cur = [] := List.length_eq_zero_iff.1 hbatch.count.symm
  rw [List.append_nil] at hsent
  refine inv_of_none rfl ?_ hsent hsub hall
  have hflush := holdsAt_flush hring hbatch
  rw [Completion.finishStep]
  dsimp only
  split_ifs with hrx
  · -- the slots of the receive ring were given back one by one
    obtain rfl := (hbatch.early hrx).1
    exact hflush
  · exact hflush.updReadIdx

/-- **Every step keeps the messages in order.** -/
theorem step {a : Action μ} (h : Inv K s) (hπ : π.Sound) (hoff : KeepsOff K s a)
    (hs : Step π K left s a s') : Inv K s' := by
  cases hs with
  | write hlt => exact h.writeStep hlt hoff
  | fetch hb => exact h.fetchStep hπ hb
  | process hb => exact h.processStep hb _ _
  | finish hb => exact h.finishStep hb

end Inv

theorem maxItem_flush : (s.flush K slot).maxItem = s.ring.maxItem := by
  rw [flush]
  split_ifs <;> rfl

/-- No step changes the size of the ring. -/
theorem step_maxItem {a : Action μ} (hs : Step π K left s a s') :
    s'.ring.maxItem = s.ring.maxItem := by
  cases hs with
  | write => rfl
  | fetch =>
    have hstore : (if K.rxCpln then s.storeReadIdx else s).ring = s.ring := by split_ifs <;> rfl
    rw [fetchStep]
    dsimp only
    rw [hstore]
    exact MsgRing.maxItem_getSrcAddr s.ring
  | process =>
    rw [processStep]
    dsimp only
    split
    · exact maxItem_flush
    · obtain ⟨idx, r, heq⟩ := endTurn_eq _ K
      rw [heq]
      dsimp only
      split_ifs <;> rfl
  | finish =>
    rw [finishStep]
    dsimp only
    split_ifs
    · exact maxItem_flush
    · exact maxItem_flush

/-- **The host handles what was written, in order**, in every interleaving of the two sides: what it
is through with is a beginning of what the dongle has written, with fewer messages than there are
slots behind it, and all of that went to its handler, but for those whose DMA was not seen to end,
unless there was a message of no known type. Between two batches, and in the receive ring at any
time, these are all that take up slots; and nothing is fetched only when the host is through with
everything. -/
theorem handled_in_order {maxItem : ℕ} {m₀ : μ} {as : List (Action μ)} (hπ : π.Sound)
    (hpos : 0 < maxItem) (r : Run (step π K left) (KeepsOff K) (init maxItem m₀) as s) :
    s.taken <+: s.sent ∧ s.sent.length < s.taken.length + maxItem ∧
      s.handled.Sublist s.taken ∧
      ((∀ m ∈ s.sent, K.bad m = false) → s.taken.Perm (s.handled ++ s.dropped)) ∧
      (s.batch = none ∨ K.rxCpln = true →
        s.sent.length = s.taken.length + apart s.ring.rShared s.ring.wShared maxItem) ∧
      (s.batch = none → (s.ring.getSrcAddr π).1 = none → s.taken = s.sent) := by
  obtain ⟨hinv, hmax⟩ := r.invariant
    (I := fun s => Inv K s ∧ s.ring.maxItem = maxItem) ⟨.init hpos, rfl⟩
    fun s a s' h hoff hs =>
      ⟨h.1.step hπ hoff (step_sound hs), (step_maxItem (step_sound hs)).trans h.2⟩
  obtain ⟨⟨old, cur, rest, hring, hbatch, hsent⟩, hsub, hall⟩ := hinv
  have hlt := hring.length_lt
  rw [hmax] at hlt
  have hlen : s.sent.length = s.taken.length + (cur.length + rest.length) := by
    rw [hsent]
    simp
  refine ⟨⟨cur ++ rest, by rw [hsent]; simp⟩, by omega, hsub, hall, fun hor => ?_,
    fun hb hnone => ?_⟩
  · -- nothing that was handled is still to be given back
    have hold : old = 0 := by
      cases hb : s.batch with
      | none => exact ((atBatch_none hb).1 hbatch).1
      | some b =>
        rcases hor with hnone | hrx
        · rw [hb] at hnone
          cases hnone
        · exact (((atBatch_some hb).1 hbatch).early hrx).1
    rw [hlen, ← hmax, hring.apart_eq, hold, Nat.zero_add]
  · obtain ⟨rfl, rfl⟩ := (atBatch_none hb).1 hbatch
    rcases hring.getSrcAddr hπ with ⟨ring', -, rfl, -⟩ | ⟨ring', cur, rest', heq, -⟩
    · simpa using hsent.symm
    · rw [heq] at hnone
      cases hnone

/-- Four slots of the receive ring, which is flushed: the dongle writes on as soon as a message is
handled, and a batch ends at the end of the ring. The DMA of the third message is not seen to
end. -/
theorem handled_in_order_receive :
    ∃ s : Completion ℕ, (s.taken = [1, 2, 3, 4] ∧ s.sent = [1, 2, 3, 4, 5, 6] ∧
      s.handled ++ s.dropped = [1, 2, 4, 3]) ∧ s.taken.Perm (s.handled ++ s.dropped) := by
  obtain ⟨s, r, hs⟩ := exists_run_of_exec
    (step RingSpace.slots ⟨fun m => decide (m > 99), true, false⟩ fun _ => 0)
    (KeepsOff ⟨fun m => decide (m > 99), true, false⟩) (init 4 0)
    [.write 1, .write 2, .fetch, .write 3, .process true, .write 4, .process true, .finish, .fetch,
      .write 5, .process false, .write 6, .process true, .finish, .fetch]
    (fun s => s.taken = [1, 2, 3, 4] ∧ s.sent = [1, 2, 3, 4, 5, 6] ∧
      s.handled ++ s.dropped = [1, 2, 4, 3]) (by decide +kernel)
  refine ⟨s, hs, (handled_in_order RingSpace.slots_sound (by decide) r).2.2.2.1 fun m hm => ?_⟩
  rw [hs.2.1] at hm
  fin_cases hm <;> rfl

/-- Three slots of a receive ring that is flushed: the dongle comes round to the first slot of the
batch, and the end of the batch puts the cleared message over the new one. -/
theorem exists_overwritten :
    ∃ (s : Completion ℕ) (as : List (Action ℕ)),
      Run (step RingSpace.slots ⟨fun _ => false, true, false⟩ fun _ => 0) Always (init 3 9) as s ∧
        ¬ s.taken <+: s.sent := by
  obtain ⟨s, r, hs⟩ := exists_run_of_exec
    (step RingSpace.slots ⟨fun _ => false, true, false⟩ fun _ => 0) Always (init 3 9)
    [.write 1, .write 2, .fetch, .process true, .process true, .write 3, .write 4, .finish, .fetch,
      .process true, .finish, .fetch, .process true]
    (fun s => s.taken = [1, 2, 3, 0] ∧ s.sent = [1, 2, 3, 4]) (by decide +kernel)
  refine ⟨s, _, r, ?_⟩
  rw [hs.1, hs.2]
  decide

end Completion

end Dhd
