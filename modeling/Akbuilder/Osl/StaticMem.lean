import Akbuilder.Lib.Run
import Akbuilder.Lib.Slots
import Mathlib.Data.List.Pairwise
import Mathlib.Algebra.Group.Nat.Defs

/-!
# The static buffers of the Wi-Fi driver

`osl_malloc` serves a request of one to two pages from one of sixteen slots of a preallocated region
while `bcm_static_buf` points to it, and every other request from `kmalloc`. `osl_mfree` decides by
the address range and by `bcm_static_buf` where a block goes back.

## Main definitions

* `Osl`, `staticMemInit`, `staticMemDeinit`, `ctfpoolStats`, `malloc`, `mfree`: the driver
* `Heap`, `Heap.step`: its clients, with the blocks they hold and the way each block went back
* `Heap.Books`: what the allocator keeps
* `Heap.Guard`: the region comes zeroed, static blocks are freed while `bcm_static_buf` is set, and
  less than 4 GiB are allocated

## Main results

* `Heap.books_of_guard`: the books are right along every guarded run
* `Heap.guard_of_books`: along a run whose books are right the guard holds
* `Heap.not_books`: a static block freed after `osl_static_mem_deinit` goes to `kfree`
-/

open Transition Slots

namespace Osl

def PAGE_SIZE : Nat := 4096

def STATIC_BUF_MAX_NUM : Nat := 16

def STATIC_BUF_SIZE : Nat := PAGE_SIZE * 2

def STATIC_BUF_TOTAL_LEN : Nat := STATIC_BUF_MAX_NUM * STATIC_BUF_SIZE

def ENOMEM : Int := 12

/-! ## The driver -/

/-- How the driver is built, and what the platform gives it. -/
structure Config where
  /-- the region that `wifi_platform_prealloc` returns for section 3 -/
  region : Nat
  /-- `BCMSDIO` -/
  sdio : Bool
  /-- `BCMPCIE` and `DHD_USE_STATIC_FLOWRING` -/
  flowring : Bool

/-- The sections for which `wifi_platform_prealloc` returns memory in one initialisation. -/
structure Prealloc where
  buf : Bool
  skb : Bool
  flowring : Bool

/-- The static pointers, the region they point to, and the counters of `osh`. -/
structure Mem where
  /-- `bcm_static_buf` -/
  staticBuf : Option Nat
  /-- `bcm_static_skb` -/
  staticSkb : Option Nat
  /-- `bcm_static_flowring` -/
  staticFlowring : Option Nat
  bufPtr : Nat
  bufUse : Nat → UInt8
  malloced : UInt32
  failed : UInt32

section Init

variable (c : Config) (m : Mem) (adapter : Bool) (prealloc : Prealloc)

/-- `osl_static_mem_init` hands out the region. -/
def Mem.HandsOut : Prop := m.staticBuf = none ∧ adapter = true ∧ prealloc.buf = true

instance : Decidable (m.HandsOut adapter prealloc) := inferInstanceAs (Decidable (_ ∧ _))

/-- The static buffers of `osl_static_mem_init`. -/
def initBuf : Except Mem Mem :=
  if m.staticBuf = none ∧ adapter = true then
    if prealloc.buf then
      -- the slots begin one slot behind the base, and `buf_use` is not cleared
      .ok { m with staticBuf := some c.region, bufPtr := c.region + STATIC_BUF_SIZE }
    else .error { m with staticSkb := none }
  else .ok m

/-- The static packets of `osl_static_mem_init`. -/
def initSkb : Except Mem Mem :=
  if c.sdio = true ∧ m.staticSkb = none ∧ adapter = true then
    if prealloc.skb then .ok { m with staticSkb := m.staticBuf.map (· + 2048) }
    else .error { m with staticBuf := none, staticSkb := none }
  else .ok m

/-- The static flow rings of `osl_static_mem_init`. -/
def initFlowring : Except Mem Mem :=
  if c.flowring = true ∧ m.staticFlowring = none ∧ adapter = true then
    if prealloc.flowring then .ok { m with staticFlowring := m.staticBuf.map (· + 4096) }
    else .error { m with staticBuf := none, staticSkb := none, staticFlowring := none }
  else .ok m

/-- `osl_static_mem_init`. An error leaves the memory it has come to. -/
def staticMemInit : Int × Mem :=
  let result := do
    let m ← initBuf c m adapter prealloc
    let m ← initSkb c m adapter prealloc
    initFlowring c m adapter prealloc
  match result with
  | .ok m => (0, m)
  | .error m => (-ENOMEM, m)

end Init

/-- The static pointers are dropped. -/
def Mem.dropStatic (c : Config) (m : Mem) : Mem :=
  { m with
    staticBuf := none
    staticSkb := if c.sdio then none else m.staticSkb
    staticFlowring := if c.flowring then none else m.staticFlowring }

/-- `osl_static_mem_deinit`. -/
def staticMemDeinit (c : Config) (m : Mem) : Int × Mem := (0, m.dropStatic c)

/-- `osl_ctfpool_stats`, where `ctfpool` says whether `osh` has a packet pool. -/
def ctfpoolStats (c : Config) (m : Mem) (ctfpool : Bool) : Mem :=
  if ctfpool then m.dropStatic c else m

/-- Where a block comes from: a slot, or a `kmalloc` of some bytes. -/
inductive Home
  | slot (i : Nat)
  | kmalloc (addr : Nat) (size : UInt32)
  deriving DecidableEq, Repr

/-- A block that `osl_malloc` returned. -/
structure Block where
  addr : Nat
  size : UInt32
  home : Home
  deriving DecidableEq, Repr

/-- The slot that serves a request: the first free one, for one to two pages. -/
def Mem.slotFor (m : Mem) (size : UInt32) : Option Nat :=
  if m.staticBuf ≠ none ∧ PAGE_SIZE ≤ size.toNat ∧ size.toNat ≤ STATIC_BUF_SIZE then
    firstFree m.bufUse 0 STATIC_BUF_MAX_NUM
  else none

/-- `osl_malloc`, where `kmalloc` is what `kmalloc` returns if it is called. -/
def malloc (m : Mem) (size : UInt32) (kmalloc : Option Nat) : Mem × Option Block :=
  match m.slotFor size with
  | some i =>
    ({ m with bufUse := Function.update m.bufUse i 1, malloced := m.malloced + size },
      some ⟨m.bufPtr + STATIC_BUF_SIZE * i, size, .slot i⟩)
  | none =>
    match kmalloc with
    | none => ({ m with failed := m.failed + 1 }, none)
    | some addr =>
      ({ m with malloced := m.malloced + size }, some ⟨addr, size, .kmalloc addr size⟩)

/-- Where `osl_mfree` puts a block. -/
inductive Freed
  | slot (i : Nat)
  | kfree (addr : Nat)
  deriving DecidableEq, Repr

/-- The slot of an address from `buf_ptr` on, where all blocks are. Below it the difference of the
source wraps round, and its slot is not one of the buffer. -/
def Mem.bufIdx (m : Mem) (addr : Nat) : Nat := (addr - m.bufPtr) / STATIC_BUF_SIZE

/-- The address passes the range test of `osl_mfree`. -/
def Mem.InRange (m : Mem) (addr : Nat) : Prop :=
  match m.staticBuf with
  | none => False
  | some buf => buf < addr ∧ addr ≤ buf + STATIC_BUF_TOTAL_LEN

instance (m : Mem) (addr : Nat) : Decidable (m.InRange addr) := by
  unfold Mem.InRange
  split <;> infer_instance

/-- `osl_mfree`. -/
def mfree (m : Mem) (addr : Nat) (size : UInt32) : Mem × Freed :=
  if m.InRange addr then
    ({ m with
        bufUse := Function.update m.bufUse (m.bufIdx addr) 0
        malloced := m.malloced - size },
      .slot (m.bufIdx addr))
  else ({ m with malloced := m.malloced - size }, .kfree addr)

/-! ## The clients -/

namespace Block

/-- The blocks share no byte. -/
def Disjoint (a b : Block) : Prop :=
  a.addr + a.size.toNat ≤ b.addr ∨ b.addr + b.size.toNat ≤ a.addr

/-- The block lies in its slot, or in the bytes that `kmalloc` returned. -/
def Inside (c : Config) (b : Block) : Prop :=
  match b.home with
  | .slot i => i < STATIC_BUF_MAX_NUM ∧ c.region + STATIC_BUF_SIZE * (i + 1) ≤ b.addr ∧
      b.addr + b.size.toNat ≤ c.region + STATIC_BUF_SIZE * (i + 2)
  | .kmalloc addr size => addr ≤ b.addr ∧ b.addr + b.size.toNat ≤ addr + size.toNat

/-- The slot of a static block. -/
def slot? (b : Block) : Option Nat :=
  match b.home with
  | .slot i => some i
  | .kmalloc _ _ => none

/-- Where a block belongs. -/
def back (b : Block) : Freed :=
  match b.home with
  | .slot i => .slot i
  | .kmalloc addr _ => .kfree addr

end Block

/-- The bytes of some blocks. -/
def liveBytes : List Block → Nat
  | [] => 0
  | b :: bs => b.size.toNat + liveBytes bs

/-- The driver with its clients. -/
structure Heap where
  mem : Mem
  /-- the region has been handed out once -/
  prealloced : Bool
  /-- the blocks allocated and not freed -/
  live : List Block
  /-- where each block went that was freed, the last first -/
  freed : List (Block × Freed)

namespace Heap

/-- What happens to the driver. -/
inductive Action
  | init (adapter : Bool) (prealloc : Prealloc)
  | malloc (size : UInt32) (kmalloc : Option Nat)
  | mfree (b : Block)
  | ctfpoolStats (ctfpool : Bool)
  | deinit

/-- `kmalloc` returns bytes that are outside the region and that no live block has. -/
def KmallocOk (c : Config) (s : Heap) (size : UInt32) : Option Nat → Prop
  | none => True
  | some addr =>
    (addr + size.toNat ≤ c.region ∨
        c.region + STATIC_BUF_SIZE + STATIC_BUF_TOTAL_LEN ≤ addr) ∧
      ∀ b ∈ s.live, addr + size.toNat ≤ b.addr ∨ b.addr + b.size.toNat ≤ addr

instance (c : Config) (s : Heap) (size : UInt32) : ∀ kmalloc, Decidable (s.KmallocOk c size kmalloc)
  | none => isTrue trivial
  | some _ => inferInstanceAs (Decidable (_ ∧ _))

/-- One step of the driver. Only a live block is freed, with its size. -/
def step (c : Config) (s : Heap) : Action → Option Heap
  | .init adapter prealloc =>
    some { s with
      mem := (staticMemInit c s.mem adapter prealloc).2
      prealloced := s.prealloced || decide (s.mem.HandsOut adapter prealloc) }
  | .malloc size kmalloc =>
    if s.KmallocOk c size kmalloc then
      let r := malloc s.mem size kmalloc
      some { s with mem := r.1, live := r.2.toList ++ s.live }
    else none
  | .mfree b =>
    if b ∈ s.live then
      let r := mfree s.mem b.addr b.size
      some { s with mem := r.1, live := s.live.erase b, freed := (b, r.2) :: s.freed }
    else none
  | .ctfpoolStats ctfpool => some { s with mem := ctfpoolStats c s.mem ctfpool }
  | .deinit => some { s with mem := (staticMemDeinit c s.mem).2 }

/-- The driver as it is loaded: nothing is allocated, and the region holds anything. -/
def start (bufPtr : Nat) (bufUse : Nat → UInt8) : Heap :=
  ⟨⟨none, none, none, bufPtr, bufUse, 0, 0⟩, false, [], []⟩

/-- **The books of the allocator.** -/
structure Books (c : Config) (s : Heap) : Prop where
  disjoint : s.live.Pairwise Block.Disjoint
  inside : ∀ b ∈ s.live, b.Inside c
  /-- each block went back to where it came from -/
  back : ∀ x ∈ s.freed, x.2 = x.1.back
  /-- the slots in use are those of the live static blocks -/
  bufUse : s.prealloced = true →
    ∀ i < STATIC_BUF_MAX_NUM, s.mem.bufUse i ≠ 0 ↔ ∃ b ∈ s.live, b.slot? = some i
  malloced : s.mem.malloced.toNat = liveBytes s.live

/-- **What keeps the books right**: the region comes zeroed the first time, the live blocks stay
below 4 GiB, and a static block is freed while `bcm_static_buf` is set. -/
def Guard (s : Heap) : Action → Prop
  | .init adapter prealloc =>
    s.prealloced = false → s.mem.HandsOut adapter prealloc →
      ∀ i < STATIC_BUF_MAX_NUM, s.mem.bufUse i = 0
  | .malloc size kmalloc =>
    liveBytes s.live + size.toNat < 2 ^ 32 ∨ s.mem.slotFor size = none ∧ kmalloc = none
  | .mfree b => b.slot? ≠ none → s.mem.staticBuf ≠ none
  | .ctfpoolStats _ | .deinit => True

instance (s : Heap) : ∀ a, Decidable (Guard s a)
  | .init _ _ => inferInstanceAs (Decidable (_ → _ → ∀ i < STATIC_BUF_MAX_NUM, s.mem.bufUse i = 0))
  | .malloc _ _ => inferInstanceAs (Decidable (_ ∨ _))
  | .mfree _ => inferInstanceAs (Decidable (_ → _))
  | .ctfpoolStats _ | .deinit => isTrue trivial

end Heap

/-! ## What the functions do -/

section Functions

variable {c : Config} {m m' m'' : Mem} {adapter : Bool} {prealloc : Prealloc} {b : Block}

/-- The static buffers are left alone or dropped. -/
structure Keeps (m m' : Mem) : Prop where
  bufUse : m'.bufUse = m.bufUse
  malloced : m'.malloced = m.malloced
  staticBuf : m'.staticBuf = none ∨ m'.staticBuf = m.staticBuf ∧ m'.bufPtr = m.bufPtr

theorem Keeps.refl (m : Mem) : Keeps m m := ⟨rfl, rfl, .inr ⟨rfl, rfl⟩⟩

theorem Keeps.trans (h : Keeps m m') (h' : Keeps m' m'') : Keeps m m'' := by
  refine ⟨h'.bufUse.trans h.bufUse, h'.malloced.trans h.malloced, ?_⟩
  rcases h'.staticBuf with hnone | ⟨hbuf, hptr⟩
  · exact .inl hnone
  · rw [hbuf, hptr]
    exact h.staticBuf

theorem keeps_dropStatic (c : Config) (m : Mem) : Keeps m (m.dropStatic c) := ⟨rfl, rfl, .inl rfl⟩

theorem keeps_ctfpoolStats (c : Config) (m : Mem) (ctfpool : Bool) :
    Keeps m (ctfpoolStats c m ctfpool) := by
  cases ctfpool
  · exact .refl m
  · exact keeps_dropStatic c m

/-- The memory that a part of the initialisation has come to. -/
def settled : Except Mem Mem → Mem
  | .ok m | .error m => m

theorem keeps_initSkb : Keeps m (settled (initSkb c m adapter prealloc)) := by
  unfold initSkb
  split
  · split
    · exact ⟨rfl, rfl, .inr ⟨rfl, rfl⟩⟩
    · exact ⟨rfl, rfl, .inl rfl⟩
  · exact .refl m

theorem keeps_initFlowring : Keeps m (settled (initFlowring c m adapter prealloc)) := by
  unfold initFlowring
  split
  · split
    · exact ⟨rfl, rfl, .inr ⟨rfl, rfl⟩⟩
    · exact ⟨rfl, rfl, .inl rfl⟩
  · exact .refl m

theorem settled_bind {x : Except Mem Mem} {f : Mem → Except Mem Mem} (h : Keeps m (settled x))
    (hf : ∀ m', Keeps m' (settled (f m'))) : Keeps m (settled (x >>= f)) := by
  cases x with
  | ok m' => exact h.trans (hf m')
  | error m' => exact h

/-- The memory with `bcm_static_buf` pointing to the region. -/
def Mem.handOut (c : Config) (m : Mem) : Mem :=
  { m with staticBuf := some c.region, bufPtr := c.region + STATIC_BUF_SIZE }

/-- **`osl_static_mem_init`** keeps or drops the static buffers, after it has handed out the region
if there were none. -/
theorem staticMemInit_keeps (c : Config) (m : Mem) (adapter : Bool) (prealloc : Prealloc) :
    Keeps (if m.HandsOut adapter prealloc then m.handOut c else m)
      (staticMemInit c m adapter prealloc).2 := by
  have hsettled : (staticMemInit c m adapter prealloc).2 =
      settled (initBuf c m adapter prealloc >>= fun m =>
        initSkb c m adapter prealloc >>= fun m => initFlowring c m adapter prealloc) := by
    unfold staticMemInit settled
    split <;> simp_all
  have hrest (m' : Mem) : Keeps m' (settled (initSkb c m' adapter prealloc >>= fun m =>
      initFlowring c m adapter prealloc)) :=
    settled_bind keeps_initSkb fun _ => keeps_initFlowring
  rw [hsettled, initBuf]
  by_cases hnone : m.staticBuf = none ∧ adapter = true
  · rw [if_pos hnone]
    by_cases hbuf : prealloc.buf = true
    · rw [if_pos hbuf, if_pos ⟨hnone.1, hnone.2, hbuf⟩]
      exact hrest _
    · rw [if_neg hbuf, if_neg fun h => hbuf h.2.2]
      exact ⟨rfl, rfl, .inr ⟨rfl, rfl⟩⟩
  · rw [if_neg hnone, if_neg fun h => hnone ⟨h.1, h.2.1⟩]
    exact hrest m

/-- The address and the size of a block agree with where it comes from. -/
def Block.Placed (c : Config) (b : Block) : Prop :=
  match b.home with
  | .slot i => i < STATIC_BUF_MAX_NUM ∧ b.addr = c.region + STATIC_BUF_SIZE + STATIC_BUF_SIZE * i ∧
      b.size.toNat ≤ STATIC_BUF_SIZE
  | .kmalloc addr size => addr = b.addr ∧ size = b.size ∧
      (b.addr + b.size.toNat ≤ c.region ∨
        c.region + STATIC_BUF_SIZE + STATIC_BUF_TOTAL_LEN ≤ b.addr)

theorem slot?_eq_some {i : Nat} : b.slot? = some i ↔ b.home = .slot i := by
  unfold Block.slot?
  cases b.home <;> simp

namespace Block.Placed

theorem inside (h : b.Placed c) : b.Inside c := by
  unfold Block.Placed at h
  unfold Block.Inside
  cases hhome : b.home with
  | slot i =>
    rw [hhome] at h
    obtain ⟨hi, haddr, hsize⟩ := h
    simp only [STATIC_BUF_SIZE, PAGE_SIZE] at haddr hsize ⊢
    exact ⟨hi, by omega, by omega⟩
  | kmalloc addr size =>
    rw [hhome] at h
    obtain ⟨rfl, rfl, -⟩ := h
    exact ⟨Nat.le_refl _, Nat.le_refl _⟩

/-- A block of another slot, or none, is disjoint from a static block. -/
theorem disjoint {a : Block} {i : Nat} (ha : a.Placed c) (hi : a.home = .slot i) (hb : b.Placed c)
    (hne : b.slot? ≠ some i) : a.Disjoint b := by
  unfold Block.Placed at ha hb
  rw [hi] at ha
  obtain ⟨hlt, haddr, hsize⟩ := ha
  unfold Block.Disjoint
  simp only [STATIC_BUF_SIZE, STATIC_BUF_TOTAL_LEN, STATIC_BUF_MAX_NUM, PAGE_SIZE] at *
  cases hhome : b.home with
  | slot j =>
    have hij : j ≠ i := by
      rintro rfl
      exact hne (slot?_eq_some.mpr hhome)
    rw [hhome] at hb
    obtain ⟨-, hbaddr, hbsize⟩ := hb
    omega
  | kmalloc addr size =>
    rw [hhome] at hb
    obtain ⟨-, -, hout⟩ := hb
    omega

/-- **`osl_mfree`** gives a static block back to its slot while `bcm_static_buf` is set. -/
theorem mfree_slot {i : Nat} (h : b.Placed c) (hi : b.home = .slot i)
    (hbuf : m.staticBuf = some c.region) (hptr : m.bufPtr = c.region + STATIC_BUF_SIZE) :
    mfree m b.addr b.size =
      ({ m with bufUse := Function.update m.bufUse i 0, malloced := m.malloced - b.size },
        .slot i) := by
  unfold Block.Placed at h
  rw [hi] at h
  obtain ⟨hlt, haddr, -⟩ := h
  have hrange : m.InRange b.addr := by
    unfold Mem.InRange
    rw [hbuf]
    simp only [STATIC_BUF_SIZE, STATIC_BUF_TOTAL_LEN, STATIC_BUF_MAX_NUM, PAGE_SIZE] at *
    omega
  have hidx : m.bufIdx b.addr = i := by
    unfold Mem.bufIdx
    rw [hptr, haddr, Nat.add_sub_cancel_left]
    exact Nat.mul_div_cancel_left i (by decide)
  rw [mfree, if_pos hrange, hidx]

/-- `osl_mfree` passes a `kmalloc`ed block to `kfree`. -/
theorem mfree_kmalloc (h : b.Placed c) (hslot : b.slot? = none)
    (hbuf : ∀ buf, m.staticBuf = some buf → buf = c.region) :
    mfree m b.addr b.size = ({ m with malloced := m.malloced - b.size }, b.back) := by
  unfold Block.slot? at hslot
  unfold Block.Placed at h
  unfold Block.back
  cases hhome : b.home with
  | slot i => simp [hhome] at hslot
  | kmalloc addr size =>
    rw [hhome] at h
    obtain ⟨rfl, -, hout⟩ := h
    have hrange : ¬ m.InRange b.addr := by
      unfold Mem.InRange
      cases hb : m.staticBuf with
      | none => exact id
      | some buf =>
        -- the range ends before the last slot does, and the block lies outside the region
        obtain rfl := hbuf buf hb
        simp only [STATIC_BUF_SIZE, STATIC_BUF_TOTAL_LEN, STATIC_BUF_MAX_NUM, PAGE_SIZE] at *
        omega
    rw [mfree, if_neg hrange]

end Block.Placed

/-- A block that is freed while `bcm_static_buf` is not set goes to `kfree`. -/
theorem mfree_of_none (hbuf : m.staticBuf = none) (addr : Nat) (size : UInt32) :
    (mfree m addr size).2 = .kfree addr := by
  have hrange : ¬ m.InRange addr := by
    unfold Mem.InRange
    rw [hbuf]
    exact id
  rw [mfree, if_neg hrange]

/-- What `osl_malloc` may do. -/
theorem malloc_cases (m : Mem) (size : UInt32) (kmalloc : Option Nat) :
    (∃ i, m.slotFor size = some i ∧ malloc m size kmalloc =
      ({ m with bufUse := Function.update m.bufUse i 1, malloced := m.malloced + size },
        some ⟨m.bufPtr + STATIC_BUF_SIZE * i, size, .slot i⟩)) ∨
    (m.slotFor size = none ∧ kmalloc = none ∧
      malloc m size kmalloc = ({ m with failed := m.failed + 1 }, none)) ∨
    ∃ addr, kmalloc = some addr ∧ malloc m size kmalloc =
      ({ m with malloced := m.malloced + size }, some ⟨addr, size, .kmalloc addr size⟩) := by
  unfold malloc
  cases hslot : m.slotFor size with
  | some i => exact .inl ⟨i, rfl, rfl⟩
  | none =>
    cases kmalloc with
    | none => exact .inr (.inl ⟨rfl, rfl, rfl⟩)
    | some addr => exact .inr (.inr ⟨addr, rfl, rfl⟩)

theorem slotFor_eq_some {size : UInt32} {i : Nat} (h : m.slotFor size = some i) :
    m.staticBuf ≠ none ∧ size.toNat ≤ STATIC_BUF_SIZE ∧ i < STATIC_BUF_MAX_NUM ∧
      m.bufUse i = 0 := by
  unfold Mem.slotFor at h
  split at h
  · next hcond =>
    obtain ⟨-, hlt, hfree⟩ := firstFree_eq_some h
    exact ⟨hcond.1, hcond.2.2, by omega, hfree⟩
  · cases h

end Functions

/-! ## The invariant -/

theorem liveBytes_erase {b : Block} :
    ∀ {bs : List Block}, b ∈ bs → liveBytes bs = b.size.toNat + liveBytes (bs.erase b)
  | a :: bs, h => by
    by_cases hab : a = b
    · subst hab
      simp [liveBytes]
    · have hmem : b ∈ bs := (List.mem_cons.mp h).resolve_left (Ne.symm hab)
      rw [List.erase_cons_tail (by simpa using hab), liveBytes, liveBytes, liveBytes_erase hmem]
      omega

namespace Heap

variable {c : Config} {s s' : Heap} {a : Action} {as : List Action}

/-- The slots of the live static blocks. -/
def held (s : Heap) : List Nat := s.live.filterMap Block.slot?

/-- The invariant of a guarded run. -/
structure Inv (c : Config) (s : Heap) : Prop where
  staticBuf : ∀ buf, s.mem.staticBuf = some buf →
    buf = c.region ∧ s.mem.bufPtr = c.region + STATIC_BUF_SIZE ∧ s.prealloced = true
  placed : ∀ b ∈ s.live, b.Placed c
  disjoint : s.live.Pairwise Block.Disjoint
  tracks : s.prealloced = true → Tracks s.mem.bufUse STATIC_BUF_MAX_NUM s.held
  held : s.prealloced = false → s.held = []
  back : ∀ x ∈ s.freed, x.2 = x.1.back
  malloced : s.mem.malloced.toNat = liveBytes s.live

namespace Inv

theorem start (bufPtr : Nat) (bufUse : Nat → UInt8) : Inv c (start bufPtr bufUse) := by
  constructor <;> simp [Heap.start, Heap.held, liveBytes]

theorem mem_held {i : Nat} : i ∈ s.held ↔ ∃ b ∈ s.live, b.slot? = some i := List.mem_filterMap

/-- **The books are right** in every state of the invariant. -/
theorem books (h : Inv c s) : Books c s where
  disjoint := h.disjoint
  inside := fun b hb => (h.placed b hb).inside
  back := h.back
  bufUse := fun hpre i hi => ((h.tracks hpre).mem_iff i hi).trans mem_held
  malloced := h.malloced

/-- A function that keeps or drops the static buffers keeps the invariant. -/
theorem keeps (h : Inv c s) {m : Mem} (hm : Keeps s.mem m) : Inv c { s with mem := m } where
  staticBuf := by
    intro buf hbuf
    rcases hm.staticBuf with hnone | ⟨hsame, hptr⟩
    · simp [hnone] at hbuf
    · rw [hptr]
      exact h.staticBuf buf (hsame ▸ hbuf)
  placed := h.placed
  disjoint := h.disjoint
  tracks := fun hpre => hm.bufUse ▸ h.tracks hpre
  held := h.held
  back := h.back
  malloced := hm.malloced ▸ h.malloced

/-- The region is handed out, zeroed if it is the first time. -/
theorem handOut (h : Inv c s)
    (hzero : s.prealloced = false → ∀ i < STATIC_BUF_MAX_NUM, s.mem.bufUse i = 0) :
    Inv c { s with mem := s.mem.handOut c, prealloced := true } where
  staticBuf := by
    intro buf hbuf
    exact ⟨(Option.some.inj hbuf).symm, rfl, rfl⟩
  placed := h.placed
  disjoint := h.disjoint
  tracks := by
    intro _
    cases hpre : s.prealloced with
    | true => exact h.tracks hpre
    | false =>
      -- no static block was handed out before
      have hheld : Heap.held { s with mem := s.mem.handOut c, prealloced := true } = [] :=
        h.held hpre
      rw [hheld]
      exact .of_zero (hzero hpre)
  held := nofun
  back := h.back
  malloced := h.malloced

theorem init (h : Inv c s) {adapter : Bool} {prealloc : Prealloc}
    (hg : Guard s (.init adapter prealloc)) :
    Inv c { s with
      mem := (staticMemInit c s.mem adapter prealloc).2
      prealloced := s.prealloced || decide (s.mem.HandsOut adapter prealloc) } := by
  have hk := staticMemInit_keeps c s.mem adapter prealloc
  by_cases hout : s.mem.HandsOut adapter prealloc
  · have hpre : (s.prealloced || decide (s.mem.HandsOut adapter prealloc)) = true := by simp [hout]
    rw [hpre]
    rw [if_pos hout] at hk
    exact (h.handOut fun hpre => hg hpre hout).keeps hk
  · have hpre : (s.prealloced || decide (s.mem.HandsOut adapter prealloc)) = s.prealloced := by
      simp [hout]
    rw [hpre]
    rw [if_neg hout] at hk
    exact h.keeps hk

/-- **A slot is taken**: the block is disjoint from the live ones, and the slot was free. -/
theorem takeSlot (h : Inv c s) {size : UInt32} {i : Nat} (hslot : s.mem.slotFor size = some i)
    (hfit : liveBytes s.live + size.toNat < 2 ^ 32) :
    Inv c { s with
      mem := { s.mem with
        bufUse := Function.update s.mem.bufUse i 1, malloced := s.mem.malloced + size }
      live := ⟨s.mem.bufPtr + STATIC_BUF_SIZE * i, size, .slot i⟩ :: s.live } := by
  obtain ⟨hne, hsize, hlt, hfree⟩ := slotFor_eq_some hslot
  obtain ⟨buf, hbuf⟩ := Option.ne_none_iff_exists'.mp hne
  obtain ⟨-, hptr, hpre⟩ := h.staticBuf buf hbuf
  have hplaced : Block.Placed c ⟨s.mem.bufPtr + STATIC_BUF_SIZE * i, size, .slot i⟩ :=
    ⟨hlt, by rw [hptr], hsize⟩
  have htracks := h.tracks hpre
  refine ⟨h.staticBuf, ?_, ?_, ?_, ?_, h.back, ?_⟩
  · exact List.forall_mem_cons.mpr ⟨hplaced, h.placed⟩
  · refine List.pairwise_cons.mpr ⟨?_, h.disjoint⟩
    intro b hb
    refine hplaced.disjoint rfl (h.placed b hb) ?_
    intro hbi
    -- a live block of this slot would have kept it from being free
    exact htracks.not_mem hlt hfree (mem_held.mpr ⟨b, hb, hbi⟩)
  · intro _
    exact htracks.take hlt hfree
  · intro hpre'
    simp [hpre] at hpre'
  · rw [liveBytes, UInt32.toNat_add, h.malloced, Nat.mod_eq_of_lt (by omega), Nat.add_comm]

/-- **`kmalloc` serves a request.** -/
theorem kmalloc (h : Inv c s) {size : UInt32} {addr : Nat} (hok : s.KmallocOk c size (some addr))
    (hfit : liveBytes s.live + size.toNat < 2 ^ 32) :
    Inv c { s with
      mem := { s.mem with malloced := s.mem.malloced + size }
      live := ⟨addr, size, .kmalloc addr size⟩ :: s.live } := by
  refine ⟨h.staticBuf, ?_, ?_, h.tracks, h.held, h.back, ?_⟩
  · exact List.forall_mem_cons.mpr ⟨⟨rfl, rfl, hok.1⟩, h.placed⟩
  · exact List.pairwise_cons.mpr ⟨hok.2, h.disjoint⟩
  · rw [liveBytes, UInt32.toNat_add, h.malloced, Nat.mod_eq_of_lt (by omega), Nat.add_comm]

theorem malloc (h : Inv c s) {size : UInt32} {kmalloc : Option Nat}
    (hok : s.KmallocOk c size kmalloc) (hg : Guard s (.malloc size kmalloc)) :
    Inv c { s with
      mem := (malloc s.mem size kmalloc).1
      live := (Osl.malloc s.mem size kmalloc).2.toList ++ s.live } := by
  rcases malloc_cases s.mem size kmalloc with
    ⟨i, hslot, he⟩ | ⟨hslot, rfl, he⟩ | ⟨addr, rfl, he⟩ <;> rw [he]
  · exact h.takeSlot hslot (hg.resolve_right (by simp [hslot]))
  · exact h.keeps ⟨rfl, rfl, .inr ⟨rfl, rfl⟩⟩
  · exact h.kmalloc hok (hg.resolve_right (by simp))

/-- What is left after a block is freed. -/
theorem erase (h : Inv c s) {b : Block} (hb : b ∈ s.live) :
    (∀ x ∈ s.live.erase b, x.Placed c) ∧ (s.live.erase b).Pairwise Block.Disjoint ∧
      (s.mem.malloced - b.size).toNat = liveBytes (s.live.erase b) := by
  refine ⟨fun x hx => h.placed x (List.mem_of_mem_erase hx), h.disjoint.sublist List.erase_sublist,
    ?_⟩
  have hsum := liveBytes_erase hb
  -- the counter does not wrap below zero
  have hle : b.size ≤ s.mem.malloced := by
    rw [UInt32.le_iff_toNat_le, h.malloced]
    omega
  rw [UInt32.toNat_sub_of_le _ _ hle, h.malloced]
  omega

/-- **A block is freed** to where it came from. -/
theorem mfree (h : Inv c s) {b : Block} (hb : b ∈ s.live) (hg : Guard s (.mfree b)) :
    Inv c { s with
      mem := (mfree s.mem b.addr b.size).1
      live := s.live.erase b
      freed := (b, (Osl.mfree s.mem b.addr b.size).2) :: s.freed } := by
  obtain ⟨hplaced, hdisjoint, hmalloced⟩ := h.erase hb
  have hperm := (List.perm_cons_erase hb).filterMap Block.slot?
  cases hslot : b.slot? with
  | none =>
    rw [(h.placed b hb).mfree_kmalloc hslot fun buf hbuf => (h.staticBuf buf hbuf).1]
    rw [List.filterMap_cons_none hslot] at hperm
    refine ⟨h.staticBuf, hplaced, hdisjoint, ?_, ?_, ?_, hmalloced⟩
    · exact fun hpre => (h.tracks hpre).perm hperm
    · intro hpre
      rw [show s.live.filterMap Block.slot? = [] from h.held hpre] at hperm
      exact hperm.nil_eq.symm
    · exact List.forall_mem_cons.mpr ⟨rfl, h.back⟩
  | some i =>
    obtain ⟨buf, hbuf⟩ := Option.ne_none_iff_exists'.mp (hg (by simp [hslot]))
    obtain ⟨rfl, hptr, hpre⟩ := h.staticBuf buf hbuf
    have hhome := slot?_eq_some.mp hslot
    rw [(h.placed b hb).mfree_slot hhome hbuf hptr]
    rw [List.filterMap_cons_some hslot] at hperm
    refine ⟨h.staticBuf, hplaced, hdisjoint, ?_, ?_, ?_, hmalloced⟩
    · exact fun _ => ((h.tracks hpre).perm hperm).give
    · intro hpre'
      simp [hpre] at hpre'
    · exact List.forall_mem_cons.mpr ⟨by simp [Block.back, hhome], h.back⟩

/-- **A guarded step keeps the invariant.** -/
theorem step (h : Inv c s) (hg : Guard s a) (hs : step c s a = some s') : Inv c s' := by
  cases a with
  | init adapter prealloc =>
    obtain rfl := Option.some.inj hs
    exact h.init hg
  | malloc size kmalloc =>
    simp only [Heap.step, Option.ite_none_right_eq_some, Option.some.injEq] at hs
    obtain ⟨hok, rfl⟩ := hs
    exact h.malloc hok hg
  | mfree b =>
    simp only [Heap.step, Option.ite_none_right_eq_some, Option.some.injEq] at hs
    obtain ⟨hb, rfl⟩ := hs
    exact h.mfree hb hg
  | ctfpoolStats ctfpool =>
    obtain rfl := Option.some.inj hs
    exact h.keeps (keeps_ctfpoolStats c s.mem ctfpool)
  | deinit =>
    obtain rfl := Option.some.inj hs
    exact h.keeps (keeps_dropStatic c s.mem)

end Inv

/-- **The books are right** along every run in which the region comes zeroed the first time it is
handed out, a static block is freed only while `bcm_static_buf` is set, and the live blocks stay
below 4 GiB. -/
theorem books_of_guard {bufPtr : Nat} {bufUse : Nat → UInt8}
    (r : Run (step c) Guard (start bufPtr bufUse) as s) : Books c s :=
  (r.invariant (I := Inv c) (.start bufPtr bufUse) fun _ _ _ h hg hs => h.step hg hs).books

/-- The SDIO driver frees a static block, a `kmalloc`ed block, and then stops. -/
theorem books_of_guard_sdio :
    ∃ s : Heap, s.live = [] ∧ s.freed.length = 2 ∧ Books ⟨0x100000, true, false⟩ s := by
  obtain ⟨s, r, hs⟩ := exists_run_of_exec (step ⟨0x100000, true, false⟩) Guard (start 0 fun _ => 0)
    [.init true ⟨true, true, true⟩, .malloc 8192 none, .malloc 100 (some 0x1000),
      .mfree ⟨0x102000, 8192, .slot 0⟩, .mfree ⟨0x1000, 100, .kmalloc 0x1000 100⟩, .deinit]
    (fun s => s.live = [] ∧ s.freed.length = 2) (by decide)
  exact ⟨s, hs.1, hs.2, books_of_guard r⟩

/-- **Nothing else keeps the books right.** -/
theorem Inv.guard_of_books (h : Inv c s) (hs : Heap.step c s a = some s')
    (hb : Books c s') : Guard s a := by
  cases a with
  | init adapter prealloc =>
    obtain rfl := Option.some.inj hs
    intro hpre hout i hi
    have hk := staticMemInit_keeps c s.mem adapter prealloc
    rw [if_pos hout] at hk
    by_contra hne
    -- a slot is marked, and no static block is live
    obtain ⟨b, hmem, hbi⟩ := (hb.bufUse (by simp [hout]) i hi).mp (by rwa [hk.bufUse])
    have : i ∈ s.held := Inv.mem_held.mpr ⟨b, hmem, hbi⟩
    simp [h.held hpre] at this
  | malloc size kmalloc =>
    simp only [Heap.step, Option.ite_none_right_eq_some, Option.some.injEq] at hs
    obtain ⟨-, rfl⟩ := hs
    -- the counter has 32 bits
    have hlt : liveBytes ((Osl.malloc s.mem size kmalloc).2.toList ++ s.live) < 2 ^ 32 :=
      hb.malloced ▸ UInt32.toNat_lt _
    rcases malloc_cases s.mem size kmalloc with
      ⟨i, hslot, he⟩ | ⟨hslot, hnone, -⟩ | ⟨addr, rfl, he⟩
    · rw [he] at hlt
      exact .inl (Nat.add_comm _ _ ▸ hlt)
    · exact .inr ⟨hslot, hnone⟩
    · rw [he] at hlt
      exact .inl (Nat.add_comm _ _ ▸ hlt)
  | mfree b =>
    simp only [Heap.step, Option.ite_none_right_eq_some, Option.some.injEq] at hs
    obtain ⟨-, rfl⟩ := hs
    intro hslot hbuf
    have hback := hb.back _ (List.mem_cons_self ..)
    rw [mfree_of_none hbuf] at hback
    obtain ⟨i, hi⟩ := Option.ne_none_iff_exists'.mp hslot
    simp [Block.back, slot?_eq_some.mp hi] at hback
  | ctfpoolStats _ => trivial
  | deinit => trivial

/-- **The guard is exact**: a run along which the books stay right is a guarded run. -/
theorem guard_of_books {bufPtr : Nat} {bufUse : Nat → UInt8}
    (r : Run (step c) (fun s a => ∀ s', step c s a = some s' → Books c s') (start bufPtr bufUse)
      as s) :
    Run (step c) Guard (start bufPtr bufUse) as s := by
  refine (r.mono_of_invariant (I := Inv c) (.start bufPtr bufUse) ?_ ?_).1
  · intro s a s' h hb hs
    exact h.step (h.guard_of_books hs (hb s' hs)) hs
  · intro s a s' h hb hs
    exact h.guard_of_books hs (hb s' hs)

/-- A static block that is live in `osl_static_mem_deinit` is freed with `kfree`. -/
theorem not_books :
    ¬ ∀ (c : Config) (bufPtr : Nat) (bufUse : Nat → UInt8) (as : List Action) (s : Heap),
      Run (step c) Always (start bufPtr bufUse) as s → Books c s := by
  intro h
  obtain ⟨s, r, hbad⟩ := exists_run_of_exec (step ⟨0x100000, true, false⟩) Always
    (start 0 fun _ => 0)
    [.init true ⟨true, true, true⟩, .malloc 8192 none, .deinit, .mfree ⟨0x102000, 8192, .slot 0⟩]
    (fun s => ∃ x ∈ s.freed, x.2 ≠ x.1.back) (by decide)
  obtain ⟨x, hx, hne⟩ := hbad
  exact hne ((h _ _ _ _ s r).back x hx)

end Heap

end Osl
