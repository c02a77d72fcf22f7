import Akbuilder.Osl.StaticMem

/-!
# The static packets of the Wi-Fi driver

`osl_pktget_static` hands out preallocated packets by first fit over three size classes, and
`osl_pktfree_static` takes them back. A packet goes out as it came back: only its length and its
tail are set, and its data pointer is where the last owner left it.

## Main definitions

* `Pool`: the preallocated packets
* `Driver`, `pktgetStatic`, `pktfreeStatic`: the driver
* `Net`, `Net.step`: the driver with the owners of packets, who move the data pointers
* `Net.WellFormed`: what the pool promises
* `Net.Room`: the packet that a request takes has room for it behind its data pointer

## Main results

* `Net.wellFormed_of_room`: the pool keeps its promise along every run whose requests find room
* `Net.room_of_restored`: they do when every owner frees a packet with the room of its class
* `Net.wellFormed_of_restored`: the pool keeps its promise to such owners
* `Net.not_wellFormed`: a packet that was pulled before it was freed is handed out too short
-/

open Transition Slots

namespace Osl

def DHD_SKB_HDRSIZE : Nat := 336

def DHD_SKB_1PAGE_BUFSIZE : Nat := PAGE_SIZE * 1 - DHD_SKB_HDRSIZE

def DHD_SKB_2PAGE_BUFSIZE : Nat := PAGE_SIZE * 2 - DHD_SKB_HDRSIZE

def DHD_SKB_4PAGE_BUFSIZE : Nat := PAGE_SIZE * 4 - DHD_SKB_HDRSIZE

def STATIC_PKT_MAX_NUM : Nat := 8

/-- A packet buffer: its bounds, its data, and the length of the data. -/
structure Skb where
  head : Nat
  data : Nat
  tail : Nat
  endPointer : Nat
  len : Nat
  deriving DecidableEq, Repr

namespace Skb

/-- The data and `n` bytes behind the data pointer are in the buffer. -/
def Fits (k : Skb) (n : Nat) : Prop := k.head ≤ k.data ∧ k.data + n ≤ k.endPointer

instance (k : Skb) (n : Nat) : Decidable (k.Fits n) := inferInstanceAs (Decidable (_ ∧ _))

theorem Fits.mono {k : Skb} {m n : Nat} (h : k.Fits n) (hm : m ≤ n) : k.Fits m :=
  ⟨h.1, Nat.le_trans (Nat.add_le_add_left hm _) h.2⟩

/-- The packet holds `len` bytes of data, all in its buffer. -/
def Holds (k : Skb) (len : Nat) : Prop := k.len = len ∧ k.tail = k.data + len ∧ k.Fits len

instance (k : Skb) (len : Nat) : Decidable (k.Holds len) := inferInstanceAs (Decidable (_ ∧ _ ∧ _))

/-- The data is made `len` bytes long. -/
def setLen (k : Skb) (len : Nat) : Skb := { k with tail := k.data + len, len }

theorem Fits.holds_setLen {k : Skb} {len : Nat} (h : k.Fits len) : (k.setLen len).Holds len :=
  ⟨rfl, rfl, h⟩

end Skb

/-- A move of the data pointer or the tail by the owner of a packet. -/
inductive Move
  | pull (n : Nat)
  | push (n : Nat)
  | trim (len : Nat)
  deriving DecidableEq, Repr

namespace Move

/-- The move, if it stays within the buffer. -/
def apply (k : Skb) : Move → Option Skb
  | pull n => if n ≤ k.len then some { k with data := k.data + n, len := k.len - n } else none
  | push n =>
    if k.head + n ≤ k.data then some { k with data := k.data - n, len := k.len + n } else none
  | trim len => if len ≤ k.len then some (k.setLen len) else none

theorem head_le_data {k k' : Skb} {m : Move} (h : apply k m = some k') (hk : k.head ≤ k.data) :
    k'.head ≤ k'.data := by
  cases m with
  | pull n =>
    simp only [apply, Option.ite_none_right_eq_some, Option.some.injEq] at h
    obtain ⟨-, rfl⟩ := h
    exact Nat.le_trans hk (Nat.le_add_right _ _)
  | push n =>
    simp only [apply, Option.ite_none_right_eq_some, Option.some.injEq] at h
    obtain ⟨hn, rfl⟩ := h
    exact Nat.le_sub_of_add_le hn
  | trim len =>
    simp only [apply, Option.ite_none_right_eq_some, Option.some.injEq] at h
    obtain ⟨-, rfl⟩ := h
    exact hk

end Move

/-! ## The pool -/

/-- The packet pointers of `bcm_static_pkt_t`. -/
structure Packets where
  /-- `ENHANCED_STATIC_BUF` -/
  enhanced : Bool
  skb4k : Nat → Nat
  skb8k : Nat → Nat
  skb16k : Nat

namespace Packets

variable (p : Packets)

/-- The number of entries of `pkt_use`. -/
def num : Nat := STATIC_PKT_MAX_NUM * 2 + if p.enhanced then 1 else 0

/-- The packet of an entry of `pkt_use`. -/
def entry (i : Nat) : Nat :=
  if i < STATIC_PKT_MAX_NUM then p.skb4k i
  else if i < STATIC_PKT_MAX_NUM * 2 then p.skb8k (i - STATIC_PKT_MAX_NUM)
  else p.skb16k

/-- The bytes of data that a packet of an entry is made for. -/
def capacity (i : Nat) : Nat :=
  if i < STATIC_PKT_MAX_NUM then DHD_SKB_1PAGE_BUFSIZE
  else if i < STATIC_PKT_MAX_NUM * 2 then DHD_SKB_2PAGE_BUFSIZE
  else DHD_SKB_4PAGE_BUFSIZE

def maxBufsize : Nat := if p.enhanced then DHD_SKB_4PAGE_BUFSIZE else DHD_SKB_2PAGE_BUFSIZE

/-- The entry of a packet. -/
def index (addr : Nat) : Option Nat :=
  ((List.range STATIC_PKT_MAX_NUM).find? fun i => addr == p.skb4k i).or <|
  (((List.range STATIC_PKT_MAX_NUM).find? fun i => addr == p.skb8k i).map
    (· + STATIC_PKT_MAX_NUM)).or <|
  if p.enhanced = true ∧ addr = p.skb16k then some (STATIC_PKT_MAX_NUM * 2) else none

end Packets

/-- **The preallocated packets**: all different, each with room for the data of its class. -/
structure Pool extends Packets where
  /-- the packets as they are handed to the driver -/
  skb : Nat → Skb
  entry_inj : ∀ i < toPackets.num, ∀ j < toPackets.num,
    toPackets.entry i = toPackets.entry j → i = j
  room : ∀ i < toPackets.num, (skb (toPackets.entry i)).Fits (Packets.capacity i)

/-! ## The driver -/

/-- The packets and the state of the pool. -/
structure Driver where
  /-- `bcm_static_skb` is set -/
  initialised : Bool
  pktUse : Nat → UInt8
  /-- the packet at each address -/
  skb : Nat → Skb

section Functions

variable (p : Packets) (d : Driver)

/-- The entry that serves a request: the classes fall through to one another. -/
def Driver.entryFor (len : UInt32) : Option Nat :=
  if d.initialised = true ∧ len.toNat ≤ p.maxBufsize then
    (if len.toNat ≤ DHD_SKB_1PAGE_BUFSIZE then
      firstFree d.pktUse 0 STATIC_PKT_MAX_NUM else none).or <|
    (if len.toNat ≤ DHD_SKB_2PAGE_BUFSIZE then
      firstFree d.pktUse STATIC_PKT_MAX_NUM STATIC_PKT_MAX_NUM else none).or <|
    if p.enhanced = true ∧ d.pktUse (STATIC_PKT_MAX_NUM * 2) = 0 then some (STATIC_PKT_MAX_NUM * 2)
    else none
  else none

/-- `osl_pktget`, where `alloc` is the empty packet that `osl_alloc_skb` returns, if any. -/
def pktget (len : UInt32) (alloc : Option (Nat × Skb)) : Driver × Option Nat :=
  match alloc with
  | some (addr, k) =>
    ({ d with
        skb := Function.update d.skb addr
          { k with tail := k.tail + len.toNat, len := k.len + len.toNat } },
      some addr)
  | none => (d, none)

/-- `osl_pktget_static`. -/
def pktgetStatic (len : UInt32) (alloc : Option (Nat × Skb)) : Driver × Option Nat :=
  match d.entryFor p len with
  | some i =>
    ({ d with
        pktUse := Function.update d.pktUse i 1
        -- the data pointer stays where the last owner left it
        skb := Function.update d.skb (p.entry i) ((d.skb (p.entry i)).setLen len.toNat) },
      some (p.entry i))
  | none => pktget d len alloc

/-- `osl_pktfree_static`. The second value is what is passed to `osl_pktfree`. -/
def pktfreeStatic (addr : Nat) : Driver × Option Nat :=
  if d.initialised then
    match p.index addr with
    -- the packet is marked as free, and not reset
    | some i => ({ d with pktUse := Function.update d.pktUse i 0 }, none)
    | none => (d, some addr)
  else (d, some addr)

end Functions

/-! ## The owners -/

/-- The driver and the owners of packets. -/
structure Net where
  driver : Driver
  /-- the packets that have an owner, one entry for each owner -/
  held : List Nat
  /-- the requests, each with the packet returned as it was then, the last first -/
  returned : List (UInt32 × Skb)
  /-- the packets passed to `osl_pktfree` -/
  pktfreed : List Nat

namespace Net

inductive Action
  | get (len : UInt32) (alloc : Option (Nat × Skb))
  | move (addr : Nat) (m : Move)
  | free (addr : Nat)

/-- `osl_alloc_skb` returns an empty packet with room for the request, which nobody has. -/
def AllocOk (p : Packets) (s : Net) (len : UInt32) : Option (Nat × Skb) → Prop
  | none => True
  | some (addr, k) =>
    addr ∉ s.held ∧ (∀ i < p.num, p.entry i ≠ addr) ∧
      k.len = 0 ∧ k.tail = k.data ∧ k.Fits len.toNat

instance (p : Packets) (s : Net) (len : UInt32) : ∀ alloc, Decidable (AllocOk p s len alloc)
  | none => isTrue trivial
  | some (addr, _) => inferInstanceAs
    (Decidable (addr ∉ s.held ∧ (∀ i < p.num, p.entry i ≠ addr) ∧ _ ∧ _ ∧ _))

/-- One step. Only an owner moves the pointers of a packet, and frees it. -/
def step (p : Packets) (s : Net) : Action → Option Net
  | .get len alloc =>
    if AllocOk p s len alloc then
      let r := pktgetStatic p s.driver len alloc
      some { s with
        driver := r.1
        held := r.2.toList ++ s.held
        returned := r.2.toList.map (fun addr => (len, r.1.skb addr)) ++ s.returned }
    else none
  | .move addr m =>
    if addr ∈ s.held then
      (m.apply (s.driver.skb addr)).map fun k =>
        { s with driver := { s.driver with skb := Function.update s.driver.skb addr k } }
    else none
  | .free addr =>
    if addr ∈ s.held then
      let r := pktfreeStatic p s.driver addr
      some { s with
        driver := r.1
        held := s.held.erase addr
        pktfreed := r.2.toList ++ s.pktfreed }
    else none

/-- The pool as it is prealloced, in use or not. -/
def start (pool : Pool) (initialised : Bool) : Net :=
  ⟨⟨initialised, fun _ => 0, pool.skb⟩, [], [], []⟩

/-- **What the pool promises.** -/
structure WellFormed (p : Packets) (s : Net) : Prop where
  /-- no packet has two owners -/
  owner : s.held.Nodup
  /-- each packet returned was as long as requested, in its buffer -/
  returned : ∀ x ∈ s.returned, x.2.Holds x.1.toNat
  /-- the entries in use are those whose packet has an owner -/
  pktUse : s.driver.initialised = true →
    ∀ i < p.num, s.driver.pktUse i ≠ 0 ↔ p.entry i ∈ s.held
  /-- no packet of the pool went to `osl_pktfree` -/
  pktfreed : s.driver.initialised = true → ∀ i < p.num, p.entry i ∉ s.pktfreed

/-- **The packet that a request takes has room for it** behind its data pointer. -/
def Room (p : Packets) (s : Net) : Action → Prop
  | .get len _ =>
    match s.driver.entryFor p len with
    | some i =>
      (s.driver.skb (p.entry i)).data + len.toNat ≤ (s.driver.skb (p.entry i)).endPointer
    | none => True
  | .move _ _ | .free _ => True

instance (p : Packets) (s : Net) (a : Action) : Decidable (Room p s a) := by
  unfold Room
  split
  · split <;> infer_instance
  · exact isTrue trivial
  · exact isTrue trivial

theorem room_get {p : Packets} {s : Net} {len : UInt32} {alloc : Option (Nat × Skb)} :
    Room p s (.get len alloc) ↔ ∀ i, s.driver.entryFor p len = some i →
      (s.driver.skb (p.entry i)).data + len.toNat ≤ (s.driver.skb (p.entry i)).endPointer := by
  simp only [Room]
  cases s.driver.entryFor p len <;> simp

/-- An owner frees a packet of the pool with the room of its class behind the data pointer. -/
def Restored (p : Packets) (s : Net) : Action → Prop
  | .free addr => ∀ i < p.num, p.entry i = addr →
    (s.driver.skb addr).data + Packets.capacity i ≤ (s.driver.skb addr).endPointer
  | .get _ _ | .move _ _ => True

end Net

/-! ## Entries and packets -/

section Entries

variable {p : Packets} {d : Driver} {pool : Pool} {i addr : Nat}

theorem Packets.entry_4k (hi : i < STATIC_PKT_MAX_NUM) : p.entry i = p.skb4k i := if_pos hi

theorem Packets.entry_8k (hi : i < STATIC_PKT_MAX_NUM) :
    p.entry (i + STATIC_PKT_MAX_NUM) = p.skb8k i := by
  have hge : ¬ i + STATIC_PKT_MAX_NUM < STATIC_PKT_MAX_NUM := by omega
  rw [Packets.entry, if_neg hge, if_pos (by omega), Nat.add_sub_cancel]

/-- The entries are those of the three classes. -/
theorem Packets.entry_cases (hi : i < p.num) :
    i < STATIC_PKT_MAX_NUM ∨
      (∃ j < STATIC_PKT_MAX_NUM, i = j + STATIC_PKT_MAX_NUM) ∨
      (p.enhanced = true ∧ i = STATIC_PKT_MAX_NUM * 2) := by
  unfold Packets.num at hi
  by_cases h4k : i < STATIC_PKT_MAX_NUM
  · exact .inl h4k
  · by_cases h8k : i < STATIC_PKT_MAX_NUM * 2
    · exact .inr (.inl ⟨i - STATIC_PKT_MAX_NUM, by omega, by omega⟩)
    · split at hi
      · next he => exact .inr (.inr ⟨he, by omega⟩)
      · omega

theorem Packets.num_ge : STATIC_PKT_MAX_NUM * 2 ≤ p.num := Nat.le_add_right _ _

theorem Packets.num_enhanced (h : p.enhanced = true) : STATIC_PKT_MAX_NUM * 2 < p.num := by
  simp [Packets.num, h]

/-- The entry found is the entry of the packet. -/
theorem Packets.index_eq_some (h : p.index addr = some i) : i < p.num ∧ p.entry i = addr := by
  have hnum := p.num_ge
  simp only [Packets.index, Option.or_eq_some_iff] at h
  rcases h with h4k | ⟨-, h8k | ⟨-, h16k⟩⟩
  · have hi : i < STATIC_PKT_MAX_NUM := by simpa using List.mem_of_find?_eq_some h4k
    have he : addr = p.skb4k i := by simpa using List.find?_some h4k
    exact ⟨by omega, by rw [entry_4k hi, he]⟩
  · obtain ⟨j, hj, rfl⟩ := Option.map_eq_some_iff.mp h8k
    have hlt : j < STATIC_PKT_MAX_NUM := by simpa using List.mem_of_find?_eq_some hj
    have he : addr = p.skb8k j := by simpa using List.find?_some hj
    exact ⟨by omega, by rw [entry_8k hlt, he]⟩
  · simp only [Option.ite_none_right_eq_some, Option.some.injEq] at h16k
    obtain ⟨⟨henh, rfl⟩, rfl⟩ := h16k
    exact ⟨num_enhanced henh, rfl⟩

/-- A packet that has no entry is none of the pool. -/
theorem Packets.index_eq_none (h : p.index addr = none) (hi : i < p.num) : p.entry i ≠ addr := by
  simp only [Packets.index, Option.or_eq_none_iff, Option.map_eq_none_iff, List.find?_eq_none,
    List.mem_range, beq_iff_eq] at h
  obtain ⟨h4k, h8k, h16k⟩ := h
  rcases entry_cases hi with hlt | ⟨j, hlt, rfl⟩ | ⟨henh, rfl⟩
  · rw [entry_4k hlt]
    exact Ne.symm (h4k i hlt)
  · rw [entry_8k hlt]
    exact Ne.symm (h8k j hlt)
  · intro he
    have he' : addr = p.skb16k := he.symm
    simp [henh, he'] at h16k

/-- Packets and entries correspond. -/
theorem Pool.index_entry (hi : i < pool.num) : pool.index (pool.entry i) = some i := by
  cases h : pool.index (pool.entry i) with
  | none => exact absurd rfl (Packets.index_eq_none h hi)
  | some j =>
    obtain ⟨hj, he⟩ := Packets.index_eq_some h
    rw [pool.entry_inj j hj i hi he]

/-- **The entry that serves a request** is free, and of a class that is long enough. -/
theorem Driver.entryFor_eq_some {len : UInt32} (h : d.entryFor p len = some i) :
    d.initialised = true ∧ i < p.num ∧ d.pktUse i = 0 ∧ len.toNat ≤ Packets.capacity i := by
  have hnum := p.num_ge
  simp only [Driver.entryFor, Option.ite_none_right_eq_some, Option.or_eq_some_iff,
    Option.some.injEq] at h
  obtain ⟨⟨hinit, hmax⟩, ⟨hlen, h4k⟩ | ⟨-, ⟨hlen, h8k⟩ | ⟨-, ⟨henh, hfree⟩, rfl⟩⟩⟩ := h
  · obtain ⟨-, hlt, hfree⟩ := firstFree_eq_some h4k
    refine ⟨hinit, by omega, hfree, ?_⟩
    rwa [Packets.capacity, if_pos (by omega)]
  · obtain ⟨hge, hlt, hfree⟩ := firstFree_eq_some h8k
    refine ⟨hinit, by omega, hfree, ?_⟩
    rwa [Packets.capacity, if_neg (by omega), if_pos (by omega)]
  · refine ⟨hinit, Packets.num_enhanced henh, hfree, ?_⟩
    rw [Packets.maxBufsize, if_pos henh] at hmax
    exact hmax

/-- A request is served by the pool, or by `osl_pktget`. -/
theorem pktgetStatic_cases (p : Packets) (d : Driver) (len : UInt32) (alloc : Option (Nat × Skb)) :
    (∃ i, d.entryFor p len = some i ∧ pktgetStatic p d len alloc =
      ({ d with
          pktUse := Function.update d.pktUse i 1
          skb := Function.update d.skb (p.entry i) ((d.skb (p.entry i)).setLen len.toNat) },
        some (p.entry i))) ∨
    d.entryFor p len = none ∧ pktgetStatic p d len alloc = pktget d len alloc := by
  unfold pktgetStatic
  cases he : d.entryFor p len with
  | some i => exact .inl ⟨i, rfl, rfl⟩
  | none => exact .inr ⟨rfl, rfl⟩

end Entries

/-! ## The invariant -/

namespace Net

variable {pool : Pool} {s s' : Net} {a : Action} {as : List Action} {initialised : Bool}

/-- The invariant of a run whose requests find room. -/
structure Inv (pool : Pool) (s : Net) : Prop where
  owner : s.held.Nodup
  tracks : s.driver.initialised = true →
    Tracks s.driver.pktUse pool.num (s.held.filterMap pool.index)
  headData : ∀ i < pool.num, (s.driver.skb (pool.entry i)).head ≤ (s.driver.skb (pool.entry i)).data
  returned : ∀ x ∈ s.returned, x.2.Holds x.1.toNat
  pktfreed : s.driver.initialised = true → ∀ i < pool.num, pool.entry i ∉ s.pktfreed

namespace Inv

theorem start (pool : Pool) (initialised : Bool) : Inv pool (start pool initialised) where
  owner := .nil
  tracks := fun _ => .of_zero fun _ _ => rfl
  headData := fun i hi => (pool.room i hi).1
  returned := by simp [Net.start]
  pktfreed := by simp [Net.start]

theorem mem_indices {i : Nat} (hi : i < pool.num) :
    i ∈ s.held.filterMap pool.index ↔ pool.entry i ∈ s.held := by
  rw [List.mem_filterMap]
  constructor
  · rintro ⟨addr, hmem, hidx⟩
    exact (Packets.index_eq_some hidx).2 ▸ hmem
  · intro hmem
    exact ⟨_, hmem, Pool.index_entry hi⟩

theorem wellFormed (h : Inv pool s) : WellFormed pool.toPackets s where
  owner := h.owner
  returned := h.returned
  pktUse := fun hinit i hi => ((h.tracks hinit).mem_iff i hi).trans (mem_indices hi)
  pktfreed := h.pktfreed

/-- The packet of a free entry has no owner. -/
theorem not_mem_held (h : Inv pool s) {len : UInt32} {i : Nat}
    (he : s.driver.entryFor pool.toPackets len = some i) : pool.entry i ∉ s.held := by
  obtain ⟨hinit, hi, hfree, -⟩ := Driver.entryFor_eq_some he
  rw [← mem_indices hi]
  exact (h.tracks hinit).not_mem hi hfree

/-- **A packet of the pool is handed out.** -/
theorem getStatic (h : Inv pool s) {len : UInt32} {i : Nat}
    (he : s.driver.entryFor pool.toPackets len = some i)
    (hroom : (s.driver.skb (pool.entry i)).data + len.toNat ≤
      (s.driver.skb (pool.entry i)).endPointer) :
    Inv pool { s with
      driver := { s.driver with
        pktUse := Function.update s.driver.pktUse i 1
        skb := Function.update s.driver.skb (pool.entry i)
          ((s.driver.skb (pool.entry i)).setLen len.toNat) }
      held := pool.entry i :: s.held
      returned := (len, (s.driver.skb (pool.entry i)).setLen len.toNat) :: s.returned } := by
  obtain ⟨hinit, hi, hfree, -⟩ := Driver.entryFor_eq_some he
  refine ⟨List.nodup_cons.mpr ⟨h.not_mem_held he, h.owner⟩, ?_, ?_, ?_, h.pktfreed⟩
  · intro hinit
    rw [List.filterMap_cons_some (Pool.index_entry hi)]
    exact (h.tracks hinit).take hi hfree
  · intro j hj
    have hhead := h.headData j hj
    by_cases hij : pool.entry j = pool.entry i
    · simpa [hij, Skb.setLen] using hij ▸ hhead
    · simpa [hij] using hhead
  · exact List.forall_mem_cons.mpr ⟨Skb.Fits.holds_setLen ⟨h.headData i hi, hroom⟩, h.returned⟩

/-- **A packet that is not of the pool is handed out.** -/
theorem getAlloc (h : Inv pool s) {len : UInt32} {addr : Nat} {k : Skb}
    (hok : AllocOk pool.toPackets s len (some (addr, k))) :
    Inv pool { s with
      driver := { s.driver with
        skb := Function.update s.driver.skb addr
          { k with tail := k.tail + len.toNat, len := k.len + len.toNat } }
      held := addr :: s.held
      returned :=
        (len, { k with tail := k.tail + len.toNat, len := k.len + len.toNat }) :: s.returned } := by
  obtain ⟨hnew, hpool, hlen, htail, hfits⟩ := hok
  have hidx : pool.index addr = none := by
    cases hidx : pool.index addr with
    | none => rfl
    | some i =>
      obtain ⟨hi, he⟩ := Packets.index_eq_some hidx
      exact absurd he (hpool i hi)
  refine ⟨List.nodup_cons.mpr ⟨hnew, h.owner⟩, ?_, ?_, ?_, h.pktfreed⟩
  · rw [List.filterMap_cons_none hidx]
    exact h.tracks
  · intro i hi
    simpa [hpool i hi] using h.headData i hi
  · refine List.forall_mem_cons.mpr ⟨⟨?_, ?_, hfits⟩, h.returned⟩
    · simp [hlen]
    · simp [htail]

theorem get (h : Inv pool s) {len : UInt32} {alloc : Option (Nat × Skb)}
    (hok : AllocOk pool.toPackets s len alloc)
    (hroom : Room pool.toPackets s (.get len alloc)) :
    Inv pool { s with
      driver := (pktgetStatic pool.toPackets s.driver len alloc).1
      held := (pktgetStatic pool.toPackets s.driver len alloc).2.toList ++ s.held
      returned := (pktgetStatic pool.toPackets s.driver len alloc).2.toList.map (fun addr =>
        (len, (pktgetStatic pool.toPackets s.driver len alloc).1.skb addr)) ++ s.returned } := by
  rcases pktgetStatic_cases pool.toPackets s.driver len alloc with ⟨i, he, hr⟩ | ⟨-, hr⟩ <;> rw [hr]
  · simpa using h.getStatic he (room_get.mp hroom i he)
  · cases alloc with
    | none => exact h
    | some x => simpa [pktget] using h.getAlloc hok

/-- **An owner moves the pointers of a packet.** -/
theorem move (h : Inv pool s) {addr : Nat} {m : Move} {k : Skb}
    (hk : m.apply (s.driver.skb addr) = some k) :
    Inv pool { s with
      driver := { s.driver with skb := Function.update s.driver.skb addr k } } where
  owner := h.owner
  tracks := h.tracks
  headData := by
    intro i hi
    have hhead := h.headData i hi
    by_cases he : pool.entry i = addr
    · subst he
      simpa using Move.head_le_data hk hhead
    · simpa [he] using hhead
  returned := h.returned
  pktfreed := h.pktfreed

/-- **An owner frees a packet.** -/
theorem free (h : Inv pool s) {addr : Nat} (hmem : addr ∈ s.held) :
    Inv pool { s with
      driver := (pktfreeStatic pool.toPackets s.driver addr).1
      held := s.held.erase addr
      pktfreed := (pktfreeStatic pool.toPackets s.driver addr).2.toList ++ s.pktfreed } := by
  have hperm := (List.perm_cons_erase hmem).filterMap pool.index
  have hnodup := h.owner.sublist (List.erase_sublist (a := addr))
  unfold pktfreeStatic
  by_cases hinit : s.driver.initialised = true
  · rw [if_pos hinit]
    cases hidx : pool.index addr with
    | some i =>
      -- the entry is given back
      rw [List.filterMap_cons_some hidx] at hperm
      exact ⟨hnodup, fun _ => ((h.tracks hinit).perm hperm).give, h.headData, h.returned,
        h.pktfreed⟩
    | none =>
      -- the packet goes to `osl_pktfree`, and is not of the pool
      rw [List.filterMap_cons_none hidx] at hperm
      refine ⟨hnodup, fun _ => (h.tracks hinit).perm hperm, h.headData, h.returned, ?_⟩
      intro _ i hi
      exact List.not_mem_cons_of_ne_of_not_mem (Packets.index_eq_none hidx hi)
        (h.pktfreed hinit i hi)
  · rw [if_neg hinit]
    exact ⟨hnodup, fun hinit' => absurd hinit' hinit, h.headData, h.returned,
      fun hinit' => absurd hinit' hinit⟩

/-- **A step whose request finds room keeps the invariant.** -/
theorem step (h : Inv pool s) (hroom : Room pool.toPackets s a)
    (hs : step pool.toPackets s a = some s') : Inv pool s' := by
  cases a with
  | get len alloc =>
    simp only [Net.step, Option.ite_none_right_eq_some, Option.some.injEq] at hs
    obtain ⟨hok, rfl⟩ := hs
    exact h.get hok hroom
  | move addr m =>
    simp only [Net.step, Option.ite_none_right_eq_some, Option.map_eq_some_iff] at hs
    obtain ⟨-, k, hk, rfl⟩ := hs
    exact h.move hk
  | free addr =>
    simp only [Net.step, Option.ite_none_right_eq_some, Option.some.injEq] at hs
    obtain ⟨hmem, rfl⟩ := hs
    exact h.free hmem

end Inv

/-- **The invariant of a run** whose requests find room. -/
theorem inv_of_run
    (r : Run (step pool.toPackets) (Room pool.toPackets) (start pool initialised) as s) :
    Inv pool s :=
  r.invariant (I := Inv pool) (.start pool initialised) fun _ _ _ h hg hs => h.step hg hs

/-- **The pool keeps its promise** along every run in which the packet that a request takes has room
for it behind its data pointer. -/
theorem wellFormed_of_room
    (r : Run (step pool.toPackets) (Room pool.toPackets) (start pool initialised) as s) :
    WellFormed pool.toPackets s :=
  (inv_of_run r).wellFormed

/-- Sixteen packets, each with headroom for 64 bytes and 16 bytes more than its class needs. -/
def sixteen : Pool where
  enhanced := false
  skb4k := fun i => i
  skb8k := fun i => i + STATIC_PKT_MAX_NUM
  skb16k := 0
  skb := fun i =>
    let head := 0x10000 * (i + 1)
    ⟨head, head + 64, head + 64, head + 80 + Packets.capacity i, 0⟩
  entry_inj := by decide
  room := by decide

/-- The data of a packet is pulled and pushed back before it is freed, and the next owner gets all
of its class. -/
theorem wellFormed_of_room_push :
    ∃ s : Net, s.returned.length = 2 ∧ WellFormed sixteen.toPackets s := by
  obtain ⟨s, r, hs⟩ := exists_run_of_exec (step sixteen.toPackets) (Room sixteen.toPackets)
    (start sixteen true)
    [.get 100 none, .move 0 (.pull 100), .move 0 (.push 100), .free 0, .get 3760 none]
    (fun s => s.returned.length = 2) (by decide)
  exact ⟨s, hs, wellFormed_of_room r⟩

/-- A packet is freed as it was pulled, and handed out for a request of all its class. -/
theorem not_wellFormed :
    ¬ ∀ (pool : Pool) (initialised : Bool) (as : List Action) (s : Net),
      Run (step pool.toPackets) Always (start pool initialised) as s →
        WellFormed pool.toPackets s := by
  intro h
  obtain ⟨s, r, x, hx, hbad⟩ := exists_run_of_exec (step sixteen.toPackets) Always
    (start sixteen true) [.get 100 none, .move 0 (.pull 100), .free 0, .get 3760 none]
    (fun s => ∃ x ∈ s.returned, ¬ x.2.Holds x.1.toNat) (by decide)
  exact hbad ((h _ _ _ s r).returned x hx)

/-- **Nothing else keeps the promise.** -/
theorem room_of_wellFormed (hs : step pool.toPackets s a = some s')
    (hw : WellFormed pool.toPackets s') : Room pool.toPackets s a := by
  cases a with
  | get len alloc =>
    simp only [Net.step, Option.ite_none_right_eq_some, Option.some.injEq] at hs
    obtain ⟨-, rfl⟩ := hs
    rw [room_get]
    intro i he
    rcases pktgetStatic_cases pool.toPackets s.driver len alloc with ⟨j, he', hr⟩ | ⟨he', -⟩
    · obtain rfl : i = j := Option.some.inj (he.symm.trans he')
      have hret := hw.returned
      rw [hr] at hret
      have hholds := hret (len, (s.driver.skb (pool.entry i)).setLen len.toNat) (by simp)
      exact hholds.2.2.2
    · simp [he] at he'
  | move addr m => trivial
  | free addr => trivial

/-- **The condition is exact**: a run along which the promise is kept is one whose requests find
room. -/
theorem room_of_kept
    (r : Run (step pool.toPackets)
      (fun s a => ∀ s', step pool.toPackets s a = some s' → WellFormed pool.toPackets s')
      (start pool initialised) as s) :
    Run (step pool.toPackets) (Room pool.toPackets) (start pool initialised) as s := by
  refine (r.mono_of_invariant (I := fun _ => True) trivial ?_ ?_).1
  · intros
    trivial
  · intro s a s' _ hw hs
    exact room_of_wellFormed hs (hw s' hs)

/-- The packets without an owner have the room of their class. -/
def FreeRoom (pool : Pool) (s : Net) : Prop :=
  ∀ i < pool.num, pool.entry i ∉ s.held →
    (s.driver.skb (pool.entry i)).Fits (Packets.capacity i)

/-- A free packet with the room of its class has room for every request it serves. -/
theorem Inv.room_of_freeRoom (h : Inv pool s) (hfree : FreeRoom pool s) :
    Room pool.toPackets s a := by
  cases a with
  | get len alloc =>
    rw [room_get]
    intro i he
    obtain ⟨-, hi, -, hlen⟩ := Driver.entryFor_eq_some he
    exact ((hfree i hi (h.not_mem_held he)).mono hlen).2
  | move addr m => trivial
  | free addr => trivial

theorem Inv.step_freeRoom (h : Inv pool s) (hfree : FreeRoom pool s)
    (hr : Restored pool.toPackets s a) (hs : Net.step pool.toPackets s a = some s') :
    FreeRoom pool s' := by
  cases a with
  | get len alloc =>
    simp only [Net.step, Option.ite_none_right_eq_some, Option.some.injEq] at hs
    obtain ⟨hok, rfl⟩ := hs
    intro i hi hnot
    rcases pktgetStatic_cases pool.toPackets s.driver len alloc with ⟨j, he, hr⟩ | ⟨-, hr⟩
    · rw [hr] at hnot ⊢
      obtain ⟨hne, hnot⟩ := List.ne_and_not_mem_of_not_mem_cons hnot
      simpa [hne] using hfree i hi hnot
    · rw [hr] at hnot ⊢
      cases alloc with
      | none => exact hfree i hi hnot
      | some x =>
        have hne : pool.entry i ≠ x.1 := hok.2.1 i hi
        simpa [pktget, hne] using hfree i hi fun hm => hnot (List.mem_cons_of_mem _ hm)
  | move addr m =>
    simp only [Net.step, Option.ite_none_right_eq_some, Option.map_eq_some_iff] at hs
    obtain ⟨hmem, k, hk, rfl⟩ := hs
    intro i hi hnot
    have hne : pool.entry i ≠ addr := by
      rintro rfl
      exact hnot hmem
    simpa [hne] using hfree i hi hnot
  | free addr =>
    simp only [Net.step, Option.ite_none_right_eq_some, Option.some.injEq] at hs
    obtain ⟨hmem, rfl⟩ := hs
    intro i hi hnot
    have hskb : (pktfreeStatic pool.toPackets s.driver addr).1.skb = s.driver.skb := by
      unfold pktfreeStatic
      split
      · split <;> rfl
      · rfl
    simp only [hskb]
    by_cases he : pool.entry i = addr
    · subst he
      exact ⟨h.headData i hi, hr i hi rfl⟩
    · exact hfree i hi fun hm => hnot ((List.mem_erase_of_ne he).mpr hm)

/-- **Owners who restore the room** of a packet before they free it never meet a short one. -/
theorem room_of_restored
    (r : Run (step pool.toPackets) (Restored pool.toPackets) (start pool initialised) as s) :
    Run (step pool.toPackets) (Room pool.toPackets) (start pool initialised) as s := by
  refine (r.mono_of_invariant (I := fun s => Inv pool s ∧ FreeRoom pool s)
    ⟨.start pool initialised, fun i hi _ => pool.room i hi⟩ ?_ ?_).1
  · rintro s a s' ⟨h, hfree⟩ hr hs
    exact ⟨h.step (h.room_of_freeRoom hfree) hs, h.step_freeRoom hfree hr hs⟩
  · rintro s a s' ⟨h, hfree⟩ - -
    exact h.room_of_freeRoom hfree

/-- **The pool keeps its promise to owners who restore the room** of a packet before they free
it. -/
theorem wellFormed_of_restored
    (r : Run (step pool.toPackets) (Restored pool.toPackets) (start pool initialised) as s) :
    WellFormed pool.toPackets s :=
  (inv_of_run (room_of_restored r)).wellFormed

end Net

end Osl
