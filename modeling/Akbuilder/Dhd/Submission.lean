import Akbuilder.Dhd.MsgRing
import Akbuilder.Lib.Run

/-!
# Submission rings

The host writes a submission ring and the dongle reads it, each in its own time. A ring is either
written in claims of several slots, some of which may be given back, or one message at a time that
is published with others later.

## Main definitions

* `Submission`: a ring, the claim that is being filled, and what was submitted and read so far
* `Submission.step`: what host and dongle do, one step at a time
* `Submission.Inv`: the messages submitted and not read are those in the ring

## Main results

* `Submission.read_in_order`: the dongle reads what was submitted, in order, and nothing is
  written over
-/

open Ring Transition

namespace Dhd

/-- The local variables of `dhd_prot_rxbufpost`: the slots it has claimed, and how many of them it
has written. -/
structure Claim where
  msgStart : ℕ
  alloced : ℕ
  i : ℕ
  deriving DecidableEq, Repr

/-- A submission ring. -/
structure Submission (μ : Type) where
  ring : MsgRing μ
  claim : Option Claim
  /-- The messages the host has written, in order. -/
  sent : List μ
  /-- The messages the dongle has read, in order. -/
  got : List μ

namespace Submission

variable {μ : Type}

/-- What the two sides do. -/
inductive Action (μ : Type)
  /-- Claiming space. -/
  | claim (nitems : ℕ)
  /-- Writing a message into the space claimed. -/
  | fill (m : μ)
  /-- Giving back the rest of the space and publishing what was written. -/
  | complete
  /-- `dhd_prot_txdata` -/
  | txdata (m : μ)
  /-- `dhd_prot_txdata_write_flush` -/
  | flush
  /-- The dongle reads a message. -/
  | take
  deriving DecidableEq, Repr

/-- A ring at its start, with `m` in all slots. -/
def init (maxItem : ℕ) (m : μ) : Submission μ where
  ring := ⟨maxItem, fun _ => m, fun _ => m, 0, 0, 0, 0, 0, 0⟩
  claim := none
  sent := []
  got := []

/-- The claiming of space at the beginning of `dhd_prot_rxbufpost`. -/
def claimStep (π : RingSpace) (nitems : ℕ) (s : Submission μ) : Submission μ :=
  match s.ring.allocRingSpace π nitems with
  | (none, ring) => { s with ring }
  | (some (msgStart, alloced), ring) => { s with ring, claim := some ⟨msgStart, alloced, 0⟩ }

/-- A turn of the loop of `dhd_prot_rxbufpost`. -/
def fillStep (c : Claim) (m : μ) (s : Submission μ) : Submission μ :=
  { s with
    ring := s.ring.setItem (c.msgStart + c.i) m
    claim := some { c with i := c.i + 1 }
    sent := s.sent ++ [m] }

/-- The end of `dhd_prot_rxbufpost`. -/
def completeStep (c : Claim) (s : Submission μ) : Submission μ :=
  let ring := if c.i < c.alloced then s.ring.giveBack (c.alloced - c.i) else s.ring
  let ring := if c.i > 0 then ring.writeComplete c.msgStart c.i else ring
  { s with ring, claim := none }

/-- The dongle reading a message. -/
def takeStep (s : Submission μ) : Submission μ :=
  { s with
    ring := { s.ring with rShared := s.ring.next s.ring.rShared }
    got := s.got ++ [s.ring.mem s.ring.rShared] }

/-- **A step.** A claim is filled before the next one is made. -/
def step (π : RingSpace) (txpThreshold : ℕ) (s : Submission μ) : Action μ → Option (Submission μ)
  | .claim nitems => if s.claim = none then some (s.claimStep π nitems) else none
  | .fill m =>
    match s.claim with
    | some c => if c.i < c.alloced then some (s.fillStep c m) else none
    | none => none
  | .complete =>
    match s.claim with
    | some c => some (s.completeStep c)
    | none => none
  | .txdata m =>
    if s.claim = none then
      let (taken, ring) := s.ring.txdata π txpThreshold m
      some { s with ring, sent := if taken then s.sent ++ [m] else s.sent }
    else none
  | .flush => if s.claim = none then some { s with ring := s.ring.writeFlush } else none
  | .take => if s.ring.rShared = s.ring.wShared then none else some s.takeStep

/-- **What a ring is used for**: `dhd_prot_rxbufpost` claims at least one slot and at most all of
them, and not in a ring where messages of `dhd_prot_txdata` are pending. -/
def Valid (s : Submission μ) : Action μ → Prop
  | .claim nitems => 0 < nitems ∧ nitems ≤ s.ring.maxItem ∧ s.ring.pendItemsCount = 0
  | _ => True

instance (s : Submission μ) : ∀ a : Action μ, Decidable (Valid s a)
  | .claim nitems =>
    inferInstanceAs (Decidable (0 < nitems ∧ nitems ≤ s.ring.maxItem ∧ s.ring.pendItemsCount = 0))
  | .fill _ | .complete | .txdata _ | .flush | .take => isTrue trivial

/-- Where the messages are that are written and not published: in the claim, or pending. -/
def Staged (s : Submission μ) (staged blank : List μ) : Prop :=
  match s.claim with
  | none => blank = [] ∧ s.ring.Pending staged
  | some c => s.ring.pendItemsCount = 0 ∧ c.msgStart = s.ring.wShared ∧ c.i = staged.length ∧
      c.alloced = staged.length + blank.length ∧ s.ring.wShared + c.alloced ≤ s.ring.maxItem

/-- **The messages submitted and not read are in the ring.** -/
def Inv (s : Submission μ) : Prop :=
  ∃ old q staged blank, s.ring.HoldsAt old q staged blank ∧ s.Staged staged blank ∧
    s.sent = s.got ++ q ++ staged

variable {π : RingSpace} {txpThreshold : ℕ} {s s' : Submission μ} {m : μ} {nitems : ℕ} {c : Claim}

/-- **The cases of a step.** -/
inductive Step (π : RingSpace) (txpThreshold : ℕ) (s : Submission μ) :
    Action μ → Submission μ → Prop
  | claim {nitems : ℕ} (hc : s.claim = none) :
      Step π txpThreshold s (.claim nitems) (s.claimStep π nitems)
  | fill {m : μ} {c : Claim} (hc : s.claim = some c) (hi : c.i < c.alloced) :
      Step π txpThreshold s (.fill m) (s.fillStep c m)
  | complete {c : Claim} (hc : s.claim = some c) :
      Step π txpThreshold s .complete (s.completeStep c)
  | txdata {m : μ} (hc : s.claim = none) :
      Step π txpThreshold s (.txdata m)
        { s with
          ring := (s.ring.txdata π txpThreshold m).2
          sent := if (s.ring.txdata π txpThreshold m).1 then s.sent ++ [m] else s.sent }
  | flush (hc : s.claim = none) :
      Step π txpThreshold s .flush { s with ring := s.ring.writeFlush }
  | take (hne : s.ring.rShared ≠ s.ring.wShared) : Step π txpThreshold s .take s.takeStep

theorem step_sound {a : Action μ} (h : step π txpThreshold s a = some s') :
    Step π txpThreshold s a s' := by
  cases a with
  | claim nitems =>
    simp only [step] at h
    split_ifs at h with hc
    obtain rfl := Option.some.inj h
    exact .claim hc
  | fill m =>
    cases hc : s.claim with
    | none => simp [step, hc] at h
    | some c =>
      simp only [step, hc] at h
      split_ifs at h with hi
      obtain rfl := Option.some.inj h
      exact .fill hc hi
  | complete =>
    cases hc : s.claim with
    | none => simp [step, hc] at h
    | some c =>
      simp only [step, hc] at h
      obtain rfl := Option.some.inj h
      exact .complete hc
  | txdata m =>
    by_cases hc : s.claim = none
    · simp only [step, if_pos hc] at h
      obtain rfl := Option.some.inj h
      exact .txdata hc
    · simp [step, hc] at h
  | flush =>
    simp only [step] at h
    split_ifs at h with hc
    obtain rfl := Option.some.inj h
    exact .flush hc
  | take =>
    simp only [step] at h
    split_ifs at h with hne
    obtain rfl := Option.some.inj h
    exact .take hne

theorem staged_none {staged blank : List μ} (hc : s.claim = none) :
    s.Staged staged blank ↔ blank = [] ∧ s.ring.Pending staged := by
  rw [Staged, hc]

theorem staged_some {staged blank : List μ} (hc : s.claim = some c) :
    s.Staged staged blank ↔
      s.ring.pendItemsCount = 0 ∧ c.msgStart = s.ring.wShared ∧ c.i = staged.length ∧
        c.alloced = staged.length + blank.length ∧
          s.ring.wShared + c.alloced ≤ s.ring.maxItem := by
  rw [Staged, hc]

/-- The invariant between two uses of a ring. -/
theorem inv_of_none {old q staged : List μ} (hc : s.claim = none)
    (hring : s.ring.HoldsAt old q staged []) (hp : s.ring.Pending staged)
    (hsent : s.sent = s.got ++ q ++ staged) : Inv s :=
  ⟨old, q, staged, [], hring, (staged_none hc).2 ⟨rfl, hp⟩, hsent⟩

theorem pending_nil {ring : MsgRing μ} (h : ring.pendItemsCount = 0) : ring.Pending [] :=
  ⟨h, fun hne => absurd rfl hne, fun hne => absurd rfl hne⟩

/-- Claiming space does not touch the messages. -/
theorem claimStep_frame (s : Submission μ) (π : RingSpace) (nitems : ℕ) :
    (s.claimStep π nitems).sent = s.sent ∧
    (s.claimStep π nitems).got = s.got ∧
      (s.claimStep π nitems).ring.pendItemsCount = s.ring.pendItemsCount := by
  obtain ⟨w, r, h⟩ := s.ring.allocRingSpace_frame (π := π) (n := nitems)
  rw [claimStep]
  split <;> rename_i heq <;> rw [heq] at h <;> dsimp only at h <;> subst h <;> exact ⟨rfl, rfl, rfl⟩

theorem claimStep_claim (hc : s.claim = none) (h : (s.claimStep π nitems).claim = some c) :
    c.i = 0 ∧ c.alloced ≤ nitems := by
  have hle := fun p k => s.ring.allocRingSpace_le (π := π) (n := nitems) (p := p) (k := k)
  rw [claimStep] at h
  split at h <;> rename_i heq <;> rw [heq] at hle
  · rw [hc] at h
    cases h
  · obtain rfl := Option.some.inj h
    exact ⟨rfl, hle _ _ rfl⟩

theorem completeStep_pend :
    (s.completeStep c).ring.pendItemsCount = s.ring.pendItemsCount := by
  have hback : ∀ ring : MsgRing μ, (ring.giveBack (c.alloced - c.i)).pendItemsCount =
      ring.pendItemsCount := fun ring => by
    rw [MsgRing.giveBack]
    split_ifs <;> rfl
  rw [completeStep]
  dsimp only
  split_ifs
  · exact hback _
  · rfl
  · exact hback _
  · rfl

/-- What is submitted and not read. -/
theorem Inv.exists_unread (h : Inv s) : ∃ unread, s.sent = s.got ++ unread := by
  obtain ⟨old, q, staged, blank, -, -, hsent⟩ := h
  exact ⟨q ++ staged, by rw [hsent, List.append_assoc]⟩

theorem Inv.init {maxItem : ℕ} (hpos : 0 < maxItem) : Inv (init maxItem m) := by
  refine ⟨[], [], [], [], ⟨.nil hpos, .nil hpos, ?_, ?_, ?_⟩, ⟨rfl, rfl, by simp, by simp⟩, rfl⟩ <;>
    simp [Submission.init]

namespace Inv

/-- **Claiming space.** -/
theorem claimStep (h : Inv s) (hπ : π.Sound) (hc : s.claim = none) (hn : 0 < nitems)
    (hpend : s.ring.pendItemsCount = 0) : Inv (s.claimStep π nitems) := by
  obtain ⟨old, q, staged, blank, hring, hstaged, hsent⟩ := h
  obtain ⟨rfl, hp⟩ := (staged_none hc).1 hstaged
  obtain rfl : staged = [] := List.length_eq_zero_iff.1 (hp.count.symm.trans hpend)
  rw [Submission.claimStep]
  rcases hring.allocRingSpace hπ hn with
    ⟨ring', heq, hring', -, h'⟩ | ⟨ring', old', blank, heq, hring', -, -, hend, h'⟩
  · rw [heq]
    refine inv_of_none hc h' (pending_nil ?_) hsent
    rw [hring']
    exact hpend
  · -- nothing is pending, so the space starts behind what is published
    have hw : s.ring.wOffset = s.ring.wShared := by
      rw [hring.wOffset, hring.wShared]
      simp
    have hsame : ring'.pendItemsCount = 0 ∧ ring'.wShared = s.ring.wShared ∧
        ring'.maxItem = s.ring.maxItem := by
      rw [hring']
      exact ⟨hpend, rfl, rfl⟩
    rw [heq]
    refine ⟨old', q, [], blank, h', (staged_some rfl).2 ⟨hsame.1, ?_, rfl, by simp, ?_⟩, hsent⟩
    · exact hw.trans hsame.2.1.symm
    · change ring'.wShared + blank.length ≤ ring'.maxItem
      omega

/-- **Writing a message** into the claim. -/
theorem fillStep (h : Inv s) (hc : s.claim = some c) (hi : c.i < c.alloced) :
    Inv (s.fillStep c m) := by
  obtain ⟨old, q, staged, blank, hring, hstaged, hsent⟩ := h
  obtain ⟨hpend, hstart, hcount, halloced, hend⟩ := (staged_some hc).1 hstaged
  cases blank with
  | nil =>
    simp at halloced
    omega
  | cons b blank =>
    simp only [List.length_cons] at halloced
    have h' := hring.fill (m := m) (by omega)
    rw [← hstart, ← hcount] at h'
    refine ⟨old, q, staged ++ [m], blank, h',
      (staged_some (s := s.fillStep c m) rfl).2 ⟨hpend, hstart, ?_, ?_, hend⟩, ?_⟩
    · simp [hcount]
    · simp
      omega
    · simp [Submission.fillStep, hsent]

/-- **Publishing** what was written into the claim. -/
theorem completeStep (h : Inv s) (hc : s.claim = some c) : Inv (s.completeStep c) := by
  obtain ⟨old, q, staged, blank, hring, hstaged, hsent⟩ := h
  obtain ⟨hpend, hstart, hcount, halloced, hend⟩ := (staged_some hc).1 hstaged
  have hback : ∃ ring', (if c.i < c.alloced then s.ring.giveBack (c.alloced - c.i) else s.ring) =
      ring' ∧ ring'.HoldsAt old q staged [] ∧ ring' = { s.ring with wOffset := ring'.wOffset } := by
    refine ⟨_, rfl, ?_, ?_⟩
    · split_ifs with hlt
      · rw [show c.alloced - c.i = blank.length by omega]
        exact hring.giveBack (by omega) (by omega)
      · obtain rfl : blank = [] := List.length_eq_zero_iff.1 (by omega)
        exact hring
    · split_ifs
      · rw [MsgRing.giveBack]
        split_ifs <;> rfl
      · rfl
  obtain ⟨ring', heq, h', hring'⟩ := hback
  have hsame : ring'.pendItemsCount = 0 ∧ ring'.wShared = s.ring.wShared ∧
      ring'.maxItem = s.ring.maxItem := by
    rw [hring']
    exact ⟨hpend, rfl, rfl⟩
  simp only [Submission.completeStep, heq]
  split_ifs with hpos
  · have hdone := h'.writeComplete (p := c.msgStart) (fun _ => hstart.trans hsame.2.1.symm)
      (by omega)
    rw [← hcount] at hdone
    exact inv_of_none rfl hdone (pending_nil hsame.1) (by simpa using hsent)
  · -- nothing was written, so nothing is published
    obtain rfl : staged = [] := List.length_eq_zero_iff.1 (by omega)
    exact inv_of_none rfl h' (pending_nil hsame.1) hsent

/-- **Submitting one message.** -/
theorem txdataStep (h : Inv s) (hπ : π.Sound) (hc : s.claim = none) :
    Inv { s with
      ring := (s.ring.txdata π txpThreshold m).2
      sent := if (s.ring.txdata π txpThreshold m).1 then s.sent ++ [m] else s.sent } := by
  obtain ⟨old, q, staged, blank, hring, hstaged, hsent⟩ := h
  obtain ⟨rfl, hp⟩ := (staged_none hc).1 hstaged
  obtain ⟨ring', old', q', staged', h', hp', hres⟩ :=
    hring.txdata txpThreshold m hπ hp
  rcases hres with ⟨heq, rfl, rfl, -⟩ | ⟨heq, hq⟩ <;> rw [heq]
  · exact inv_of_none hc h' hp' (by simpa using hsent)
  · refine inv_of_none hc h' hp' ?_
    simp only [if_true]
    rw [List.append_assoc, hq, hsent]
    simp

/-- **Publishing what is pending.** -/
theorem flushStep (h : Inv s) (hc : s.claim = none) : Inv { s with ring := s.ring.writeFlush } := by
  obtain ⟨old, q, staged, blank, hring, hstaged, hsent⟩ := h
  obtain ⟨rfl, hp⟩ := (staged_none hc).1 hstaged
  obtain ⟨h', hnone⟩ := hring.writeFlush hp.count hp.start fun hne => (hp.end_lt hne).le
  exact inv_of_none hc h' (pending_nil hnone) (by simpa using hsent)

/-- **The dongle reading a message** reads the one it was submitted next. -/
theorem takeStep (h : Inv s) (hne : s.ring.rShared ≠ s.ring.wShared) : Inv s.takeStep := by
  obtain ⟨old, q, staged, blank, hring, hstaged, hsent⟩ := h
  cases q with
  | nil => exact absurd (hring.rShared_eq_iff.2 rfl) hne
  | cons m q =>
    obtain ⟨hm, h'⟩ := hring.take
    refine ⟨old ++ [m], q, staged, blank, h', ?_, ?_⟩
    · cases hc : s.claim with
      | none =>
        obtain ⟨hb, hp⟩ := (staged_none hc).1 hstaged
        exact (staged_none (s := s.takeStep) hc).2 ⟨hb, hp.count, hp.start, hp.end_lt⟩
      | some c => exact (staged_some (s := s.takeStep) hc).2 ((staged_some hc).1 hstaged)
    · rw [Submission.takeStep, hm]
      simpa using hsent

/-- **Every step keeps the messages in order.** -/
theorem step {a : Action μ} (h : Inv s) (hπ : π.Sound) (hv : Valid s a)
    (hs : Step π txpThreshold s a s') : Inv s' := by
  cases hs with
  | claim hc => exact h.claimStep hπ hc hv.1 hv.2.2
  | fill hc hi => exact h.fillStep hc hi
  | complete hc => exact h.completeStep hc
  | txdata hc => exact h.txdataStep hπ hc
  | flush hc => exact h.flushStep hc
  | take hne => exact h.takeStep hne

end Inv

/-- No step changes the size of the ring. -/
theorem step_maxItem {a : Action μ} (hs : Step π txpThreshold s a s') :
    s'.ring.maxItem = s.ring.maxItem := by
  cases hs with
  | @claim nitems =>
    obtain ⟨w, r, hring⟩ := s.ring.allocRingSpace_frame (π := π) (n := nitems)
    rw [claimStep]
    split <;> rename_i heq <;> rw [heq] at hring <;> dsimp only at hring <;> subst hring <;> rfl
  | complete =>
    rw [completeStep]
    split_ifs <;> simp
  | txdata => exact MsgRing.maxItem_txdata s.ring
  | flush => exact MsgRing.maxItem_writeFlush s.ring
  | fill | take => rfl

/-- **The dongle reads what was submitted, in order**, in every interleaving of the two sides: what
it has read is a beginning of what was submitted, with fewer messages than there are slots behind
it. When no claim is open and nothing is pending, all of these can be read; and a claim is refused
only when they take all slots but one. -/
theorem read_in_order {maxItem : ℕ} {m₀ : μ} {as : List (Action μ)} (hπ : π.Sound)
    (hpos : 0 < maxItem) (r : Run (step π txpThreshold) Valid (init maxItem m₀) as s) :
    s.got <+: s.sent ∧ s.sent.length < s.got.length + maxItem ∧
      (s.claim = none → s.ring.pendItemsCount = 0 →
        s.sent.length = s.got.length + apart s.ring.rShared s.ring.wShared maxItem) ∧
      (s.claim = none → ∀ nitems, 0 < nitems → (s.ring.allocRingSpace π nitems).1 = none →
        s.sent.length + 1 = s.got.length + maxItem) := by
  obtain ⟨hinv, hmax⟩ := r.invariant (I := fun s => Inv s ∧ s.ring.maxItem = maxItem)
    ⟨.init hpos, rfl⟩ fun s a s' h hv hs =>
      ⟨h.1.step hπ hv (step_sound hs), (step_maxItem (step_sound hs)).trans h.2⟩
  obtain ⟨old, q, staged, blank, hring, hstaged, hsent⟩ := hinv
  have hlt := hring.length_lt
  rw [hmax] at hlt
  have hlen : s.sent.length = s.got.length + (q.length + staged.length) := by
    rw [hsent]
    simp
  refine ⟨⟨q ++ staged, by rw [hsent]; simp⟩, by omega, fun hc hpend => ?_,
    fun hc nitems hn hnone => ?_⟩
  · obtain ⟨rfl, hp⟩ := (staged_none hc).1 hstaged
    rw [hp.count] at hpend
    rw [hlen, hpend, ← hmax, hring.apart_shared]
    simp
  · obtain ⟨rfl, -⟩ := (staged_none hc).1 hstaged
    rcases hring.allocRingSpace hπ hn with ⟨ring', -, -, hfull, -⟩ | ⟨ring', old', blank, heq, -⟩
    · omega
    · rw [heq] at hnone
      cases hnone

/-- Four slots: two messages and a slot given back, then one in each claim, one of them after a look
at the dongle's index. -/
theorem read_in_order_round :
    ∃ s : Submission ℕ, (s.got = [1, 2, 3, 4] ∧ s.sent = [1, 2, 3, 4, 5]) ∧ s.got <+: s.sent := by
  obtain ⟨s, r, hs⟩ := exists_run_of_exec (step RingSpace.slots 48) Valid (init 4 0)
    [.claim 3, .fill 1, .fill 2, .complete, .take, .take, .claim 3, .fill 3, .complete,
      .claim 3, .fill 4, .complete, .take, .txdata 5, .take]
    (fun s => s.got = [1, 2, 3, 4] ∧ s.sent = [1, 2, 3, 4, 5]) (by decide +kernel)
  exact ⟨s, hs, (read_in_order RingSpace.slots_sound (by decide) r).1⟩

end Submission

end Dhd
