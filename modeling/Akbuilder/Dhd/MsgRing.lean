import Akbuilder.Lib.Ring

/-!
# Message rings

Host and dongle pass messages through rings in host memory, each ring in one direction. The side
that writes a ring publishes how far it has written it, the side that reads it how far it has read
it, and each side keeps a copy of the other's index that may be out of date.

## Main definitions

* `RingSpace`: the macros that compute the room in a ring
* `MsgRing`: a ring, with the items as the host sees them and as they are in memory
* `MsgRing.allocRingSpace`, `MsgRing.writeComplete`, `MsgRing.txdata`: submitting messages
* `MsgRing.getSrcAddr`, `MsgRing.updReadIdx`: fetching completions
* `MsgRing.HoldsAt`: what is where in a ring that the host writes

## Main results

* `MsgRing.HoldsAt.allocRingSpace`: space is found unless the dongle has left all items unread
* `MsgRing.HoldsAt.fill`, `MsgRing.HoldsAt.giveBack`, `MsgRing.HoldsAt.writeComplete`,
  `MsgRing.HoldsAt.take`: what becomes of the items
-/

open Ring

namespace Dhd

/-- `CHECK_WRITE_SPACE(r, w, d)`, `READ_AVAIL_SPACE(w, r, d)`, and the slot of `HOST_RING_END`. -/
structure RingSpace where
  checkWriteSpace : ℕ → ℕ → ℕ → ℕ
  readAvailSpace : ℕ → ℕ → ℕ → ℕ
  hostRingEnd : ℕ → ℕ

/-- What the macros compute: the free slots up to the end of the ring, with one slot always left
free, and the items there are up to the end of the ring. -/
structure RingSpace.Sound (π : RingSpace) : Prop where
  fits {r w d : ℕ} : r < d → w < d → w + π.checkWriteSpace r w d ≤ d
  spare {r w d : ℕ} : r < d → w < d → apart r w d + π.checkWriteSpace r w d < d
  full {r w d : ℕ} : r < d → w < d → π.checkWriteSpace r w d = 0 → apart r w d + 1 = d
  avail_fits {r w d : ℕ} : r < d → w < d → r + π.readAvailSpace w r d ≤ d
  avail_le {r w d : ℕ} : r < d → w < d → π.readAvailSpace w r d ≤ apart r w d
  avail_zero {r w d : ℕ} : r < d → w < d → π.readAvailSpace w r d = 0 → apart r w d = 0
  ring_end {d : ℕ} : 0 < d → π.hostRingEnd d + 1 = d

/-- Room as it is counted on a ring of slots `0` to `d - 1`. -/
def RingSpace.slots : RingSpace where
  checkWriteSpace r w d := min (d - 1 - apart r w d) (if r ≤ w then d - w else r - w)
  readAvailSpace w r d := if r ≤ w then w - r else d - r
  hostRingEnd d := d - 1

theorem RingSpace.slots_sound : RingSpace.slots.Sound where
  fits hr hw := by
    simp only [RingSpace.slots]
    split_ifs <;> omega
  spare hr hw := by
    simp only [RingSpace.slots, apart]
    split_ifs <;> omega
  full hr hw hzero := by
    simp only [RingSpace.slots, apart] at hzero ⊢
    split_ifs at hzero ⊢ <;> omega
  avail_fits hr hw := by
    simp only [RingSpace.slots]
    split_ifs <;> omega
  avail_le hr hw := by
    simp only [RingSpace.slots, apart]
    split_ifs <;> omega
  avail_zero hr hw hzero := by
    simp only [RingSpace.slots, apart] at hzero ⊢
    split_ifs at hzero ⊢ <;> omega
  ring_end hd := Nat.sub_add_cancel hd

/-- `msgbuf_ring_t`. The indices in `ringstate` are the host's own, the shared ones are in memory
that the dongle reads and writes. -/
structure MsgRing (μ : Type) where
  maxItem : ℕ
  /-- The items as the host sees them. -/
  base : ℕ → μ
  /-- The items in memory, as the dongle sees them. -/
  mem : ℕ → μ
  rOffset : ℕ
  wOffset : ℕ
  rShared : ℕ
  wShared : ℕ
  startAddr : ℕ
  pendItemsCount : ℕ

namespace MsgRing

variable {μ : Type}

/-- `prot_get_ring_space`: the first slot of the space, and how many slots it has. -/
def getRingSpace (π : RingSpace) (nitems : ℕ) (ring : MsgRing μ) : Option (ℕ × ℕ) × MsgRing μ :=
  let ringAvailCnt := π.checkWriteSpace ring.rOffset ring.wOffset ring.maxItem
  if ringAvailCnt = 0 then (none, ring)
  else
    let alloced := min nitems ringAvailCnt
    let ret := ring.wOffset
    if ring.wOffset + alloced = ring.maxItem then (some (ret, alloced), { ring with wOffset := 0 })
    else if ring.wOffset + alloced < ring.maxItem then
      (some (ret, alloced), { ring with wOffset := ring.wOffset + alloced })
    else (none, ring)

/-- `dhd_alloc_ring_space`, which looks at the dongle's index when its own copy shows no space. -/
def allocRingSpace (π : RingSpace) (nitems : ℕ) (ring : MsgRing μ) :
    Option (ℕ × ℕ) × MsgRing μ :=
  match ring.getRingSpace π nitems with
  | (some ret, ring) => (some ret, ring)
  | (none, ring) => { ring with rOffset := ring.rShared }.getRingSpace π nitems

/-- Writing a message into a slot. -/
def setItem (slot : ℕ) (m : μ) (ring : MsgRing μ) : MsgRing μ :=
  { ring with base := Function.update ring.base slot m }

/-- Giving back claimed slots, at the end of `dhd_prot_rxbufpost`, and in
`dhd_prot_rxbufpost_ctrl` for one slot. -/
def giveBack (k : ℕ) (ring : MsgRing μ) : MsgRing μ :=
  if ring.wOffset < k then { ring with wOffset := ring.maxItem - k }
  else { ring with wOffset := ring.wOffset - k }

/-- `OSL_CACHE_FLUSH`: the host's items go to memory. -/
def cacheFlush (p nitems : ℕ) (ring : MsgRing μ) : MsgRing μ :=
  { ring with mem := fun i => if p ≤ i ∧ i < p + nitems then ring.base i else ring.mem i }

/-- `OSL_CACHE_INV`: the host sees what is in memory. -/
def cacheInv (p nitems : ℕ) (ring : MsgRing μ) : MsgRing μ :=
  { ring with base := fun i => if p ≤ i ∧ i < p + nitems then ring.mem i else ring.base i }

/-- `prot_ring_write_complete` -/
def writeComplete (p nitems : ℕ) (ring : MsgRing μ) : MsgRing μ :=
  let ring := ring.cacheFlush p nitems
  { ring with wShared := ring.wOffset }

/-- `dhd_prot_txdata_write_flush` -/
def writeFlush (ring : MsgRing μ) : MsgRing μ :=
  if ring.pendItemsCount ≠ 0 then
    { ring.writeComplete ring.startAddr ring.pendItemsCount with
      pendItemsCount := 0
      startAddr := 0 }
  else ring

/-- The count of pending messages in `dhd_prot_txdata`, and where they start. -/
def addPending (txdesc : ℕ) (ring : MsgRing μ) : MsgRing μ :=
  { ring with
    startAddr := if ring.pendItemsCount = 0 then txdesc else ring.startAddr
    pendItemsCount := ring.pendItemsCount + 1 }

/-- What `dhd_prot_txdata` does with the ring: whether the message was taken. -/
def txdata (π : RingSpace) (txpThreshold : ℕ) (m : μ) (ring : MsgRing μ) : Bool × MsgRing μ :=
  match ring.allocRingSpace π 1 with
  | (none, ring) => (false, ring)
  | (some (txdesc, _), ring) =>
    let ring := (ring.addPending txdesc).setItem txdesc m
    if ring.pendItemsCount = txpThreshold ∨ txdesc = π.hostRingEnd ring.maxItem then
      (true, ring.writeFlush)
    else (true, ring)

/-- `prot_get_src_addr`: the first slot of the items fetched, and how many they are. -/
def getSrcAddr (π : RingSpace) (ring : MsgRing μ) : Option (ℕ × ℕ) × MsgRing μ :=
  let ring := { ring with wOffset := ring.wShared }
  let availableLen := π.readAvailSpace ring.wOffset ring.rOffset ring.maxItem
  if availableLen = 0 then (none, ring)
  else if availableLen > ring.maxItem then (none, ring)
  else
    let ret := ring.rOffset
    let ring :=
      if ring.rOffset + availableLen ≥ ring.maxItem then { ring with rOffset := 0 }
      else { ring with rOffset := ring.rOffset + availableLen }
    (some (ret, availableLen), ring.cacheInv ret availableLen)

/-- `prot_upd_read_idx` -/
def updReadIdx (ring : MsgRing μ) : MsgRing μ := { ring with rShared := ring.rOffset }

/-- The slot after `slot`, as `prot_early_upd_rxcpln_read_idx` counts. -/
def next (ring : MsgRing μ) (slot : ℕ) : ℕ := if slot + 1 ≥ ring.maxItem then 0 else slot + 1

/-! ## What is where in a ring that the host writes -/

/-- **What is where**, from the host's copy of the dongle's index on: the items `old` that the
dongle has read since, the items `q` that it may read, the items `staged` that are written and not
published, and the slots claimed for more. -/
structure HoldsAt (ring : MsgRing μ) (old q staged blank : List μ) : Prop where
  base : Window ring.maxItem ring.base ring.rOffset (old ++ q ++ (staged ++ blank))
  mem : Window ring.maxItem ring.mem ring.rOffset (old ++ q)
  rShared : ring.rShared = (ring.rOffset + old.length) % ring.maxItem
  wShared : ring.wShared = (ring.rOffset + (old ++ q).length) % ring.maxItem
  wOffset : ring.wOffset =
    (ring.rOffset + ((old ++ q).length + (staged.length + blank.length))) % ring.maxItem

theorem getRingSpace_eq {π : RingSpace} {nitems : ℕ} {ring : MsgRing μ}
    (hfits : ring.wOffset + π.checkWriteSpace ring.rOffset ring.wOffset ring.maxItem ≤
      ring.maxItem) :
    ring.getRingSpace π nitems =
      if π.checkWriteSpace ring.rOffset ring.wOffset ring.maxItem = 0 then (none, ring)
      else
        let alloced := min nitems (π.checkWriteSpace ring.rOffset ring.wOffset ring.maxItem)
        (some (ring.wOffset, alloced),
          { ring with wOffset := (ring.wOffset + alloced) % ring.maxItem }) := by
  rw [getRingSpace]
  dsimp only
  rw [add_mod_eq (by omega)]
  split_ifs
  · rfl
  · rfl
  · rfl
  · omega

theorem getSrcAddr_eq {π : RingSpace} {ring : MsgRing μ}
    (hfits : ring.rOffset + π.readAvailSpace ring.wShared ring.rOffset ring.maxItem ≤
      ring.maxItem) :
    ring.getSrcAddr π =
      let n := π.readAvailSpace ring.wShared ring.rOffset ring.maxItem
      if n = 0 then (none, { ring with wOffset := ring.wShared })
      else
        (some (ring.rOffset, n),
          { ring with
            wOffset := ring.wShared
            rOffset := (ring.rOffset + n) % ring.maxItem
            base := fun i => if ring.rOffset ≤ i ∧ i < ring.rOffset + n then ring.mem i
              else ring.base i }) := by
  rw [getSrcAddr]
  dsimp only
  split_ifs with hzero hgt hend
  · rfl
  · omega
  · rw [add_mod_eq hfits, if_pos (by omega)]
    rfl
  · rw [add_mod_eq hfits, if_neg (by omega)]
    rfl

section

variable {π : RingSpace} {n p txpThreshold : ℕ} {m : μ} (ring : MsgRing μ)

theorem next_eq {slot : ℕ} (h : slot < ring.maxItem) :
    ring.next slot = (slot + 1) % ring.maxItem := by
  rw [add_mod_eq (by omega), next]
  split_ifs <;> omega

/-- Claiming space moves the host's indices, and nothing else. -/
theorem getRingSpace_frame :
    ∃ w, (ring.getRingSpace π n).2 = { ring with wOffset := w } := by
  rw [getRingSpace]
  dsimp only
  split_ifs
  · exact ⟨_, rfl⟩
  · exact ⟨_, rfl⟩
  · exact ⟨_, rfl⟩
  · exact ⟨_, rfl⟩

theorem allocRingSpace_frame :
    ∃ w r, (ring.allocRingSpace π n).2 = { ring with wOffset := w, rOffset := r } := by
  obtain ⟨w, h⟩ := getRingSpace_frame (π := π) (n := n) ring
  rw [allocRingSpace]
  split <;> rename_i ring' heq <;> rw [heq] at h <;> dsimp only at h <;> subst h
  · exact ⟨w, ring.rOffset, rfl⟩
  · obtain ⟨w', h'⟩ := getRingSpace_frame (π := π) (n := n)
      { ring with wOffset := w, rOffset := ring.rShared }
    exact ⟨w', ring.rShared, h'⟩

theorem maxItem_allocRingSpace : (ring.allocRingSpace π n).2.maxItem = ring.maxItem := by
  obtain ⟨w, r, h⟩ := allocRingSpace_frame (π := π) (n := n) ring
  rw [h]

/-- The space claimed is at most what was asked for. -/
theorem getRingSpace_le {p k : ℕ} (h : (ring.getRingSpace π n).1 = some (p, k)) : k ≤ n := by
  rw [getRingSpace] at h
  dsimp only at h
  split_ifs at h <;> cases h <;> exact Nat.min_le_left _ _

theorem allocRingSpace_le {p k : ℕ} (h : (ring.allocRingSpace π n).1 = some (p, k)) : k ≤ n := by
  rw [allocRingSpace] at h
  split at h
  · rename_i ret ring' heq
    refine getRingSpace_le (π := π) ring (p := p) ?_
    rw [heq]
    exact h
  · exact getRingSpace_le _ h

@[simp]
theorem maxItem_giveBack : (ring.giveBack n).maxItem = ring.maxItem := by
  rw [giveBack]
  split_ifs <;> rfl

@[simp]
theorem maxItem_writeComplete : (ring.writeComplete p n).maxItem = ring.maxItem := rfl

theorem maxItem_writeFlush : ring.writeFlush.maxItem = ring.maxItem := by
  rw [writeFlush]
  split_ifs <;> rfl

theorem maxItem_getSrcAddr : (ring.getSrcAddr π).2.maxItem = ring.maxItem := by
  rw [getSrcAddr]
  dsimp only
  split_ifs <;> rfl

theorem maxItem_txdata : (ring.txdata π txpThreshold m).2.maxItem = ring.maxItem := by
  have h := maxItem_allocRingSpace (π := π) (n := 1) ring
  rw [txdata]
  split <;> rename_i heq <;> rw [heq] at h
  · exact h
  · dsimp only
    split_ifs
    · exact (maxItem_writeFlush _).trans h
    · exact h

end

/-- Messages of `dhd_prot_txdata` are pending: they lie in one piece, and not at the end. -/
structure Pending (ring : MsgRing μ) (staged : List μ) : Prop where
  count : ring.pendItemsCount = staged.length
  start : staged ≠ [] → ring.startAddr = ring.wShared
  end_lt : staged ≠ [] → ring.wShared + staged.length < ring.maxItem

/-- Claiming space leaves what is pending as it is. -/
theorem Pending.claimed {ring : MsgRing μ} {staged : List μ} (h : ring.Pending staged) {w r : ℕ} :
    Pending { ring with wOffset := w, rOffset := r } staged := ⟨h.count, h.start, h.end_lt⟩

namespace HoldsAt

variable {ring : MsgRing μ} {old q staged blank : List μ} {m : μ} {π : RingSpace} {nitems : ℕ}

theorem length_lt (h : HoldsAt ring old q staged blank) :
    old.length + q.length + (staged.length + blank.length) < ring.maxItem := by
  simpa [Nat.add_assoc] using h.base.length_lt

/-- A slot behind the published ones, up to the end of the ring. -/
theorem slot_eq (h : HoldsAt ring old q staged blank) {i : ℕ}
    (hi : ring.wShared + i < ring.maxItem) :
    (ring.rOffset + ((old ++ q).length + i)) % ring.maxItem = ring.wShared + i :=
  mod_add h.wShared hi

/-- **Looking at the dongle's index.** -/
theorem refresh (h : HoldsAt ring old q staged blank) :
    HoldsAt { ring with rOffset := ring.rShared } [] q staged blank := by
  have hbase := h.base
  rw [List.append_assoc] at hbase
  have hlen : ∀ n, (ring.rShared + n) % ring.maxItem =
      (ring.rOffset + (old.length + n)) % ring.maxItem := fun n => by
    rw [h.rShared, Nat.mod_add_mod, Nat.add_assoc]
  refine ⟨?_, ?_, ?_, ?_, ?_⟩
  · simpa [h.rShared] using hbase.drop
  · simpa [h.rShared] using h.mem.drop
  · simp [h.rShared]
  · simpa [hlen] using h.wShared
  · simpa [hlen, Nat.add_assoc] using h.wOffset

/-- The space between the indices is what the ring does not hold. -/
theorem apart_eq (h : HoldsAt ring old q staged []) :
    apart ring.rOffset ring.wOffset ring.maxItem = old.length + q.length + staged.length := by
  have hlt := h.length_lt
  rw [h.wOffset, apart_add h.base.lt (by simpa using hlt)]
  simp

/-- Moving the host's index on. -/
theorem claim (h : HoldsAt ring old q staged []) {n : ℕ}
    (hn : old.length + q.length + staged.length + n < ring.maxItem) :
    ∃ blank : List μ, blank.length = n ∧
      HoldsAt { ring with wOffset := (ring.wOffset + n) % ring.maxItem } old q staged blank := by
  have hbase : Window ring.maxItem ring.base ring.rOffset (old ++ q ++ staged) := by
    simpa using h.base
  have hgrow := hbase.grow (n := n) (by simpa [Nat.add_assoc] using hn)
  rw [List.append_assoc] at hgrow
  refine ⟨_, length_contents, ⟨hgrow, h.mem, h.rShared, h.wShared, ?_⟩⟩
  rw [h.wOffset, length_contents, Nat.mod_add_mod]
  simp [Nat.add_assoc]

/-- **Claiming space**, as far as the host knows of any. -/
theorem getRingSpace (h : HoldsAt ring old q staged []) (hπ : π.Sound) (hn : 0 < nitems) :
    (ring.getRingSpace π nitems = (none, ring) ∧
        old.length + q.length + staged.length + 1 = ring.maxItem) ∨
      ∃ ring' blank, ring.getRingSpace π nitems = (some (ring.wOffset, blank.length), ring') ∧
        ring' = { ring with wOffset := ring'.wOffset } ∧ 0 < blank.length ∧
          blank.length ≤ nitems ∧ ring.wOffset + blank.length ≤ ring.maxItem ∧
            HoldsAt ring' old q staged blank := by
  have hr := h.base.lt
  have hw : ring.wOffset < ring.maxItem := h.wOffset ▸ Nat.mod_lt _ (by omega)
  have hfits := hπ.fits hr hw
  have hspare := hπ.spare hr hw
  have hfull := hπ.full hr hw
  rw [h.apart_eq] at hspare hfull
  generalize hcnt : π.checkWriteSpace ring.rOffset ring.wOffset ring.maxItem = cnt at *
  rw [getRingSpace_eq (by omega), hcnt]
  split_ifs with hzero
  · exact .inl ⟨rfl, hfull hzero⟩
  · obtain ⟨blank, hblank, hholds⟩ := h.claim (n := min nitems cnt) (by omega)
    exact .inr ⟨_, blank, by rw [hblank], rfl, by omega, by omega, by omega, hholds⟩

/-- **Claiming space**: it is refused only when the dongle has left one item less than there are
slots unread. -/
theorem allocRingSpace (h : HoldsAt ring old q staged []) (hπ : π.Sound) (hn : 0 < nitems) :
    (∃ ring', ring.allocRingSpace π nitems = (none, ring') ∧
        ring' = { ring with rOffset := ring'.rOffset } ∧
          q.length + staged.length + 1 = ring.maxItem ∧ HoldsAt ring' [] q staged []) ∨
      ∃ ring' old' blank,
        ring.allocRingSpace π nitems = (some (ring.wOffset, blank.length), ring') ∧
          ring' = { ring with wOffset := ring'.wOffset, rOffset := ring'.rOffset } ∧
          0 < blank.length ∧ blank.length ≤ nitems ∧
            ring.wOffset + blank.length ≤ ring.maxItem ∧ HoldsAt ring' old' q staged blank := by
  rw [MsgRing.allocRingSpace]
  rcases h.getRingSpace hπ hn with ⟨heq, -⟩ | ⟨ring', blank, heq, hring, hpos, hle, hend, h'⟩
  · rw [heq]
    dsimp only
    rcases h.refresh.getRingSpace hπ hn with
      ⟨heq, hlen⟩ | ⟨ring', blank, heq, hring, hpos, hle, hend, h'⟩
    · exact .inl ⟨_, heq, rfl, by simpa using hlen, h.refresh⟩
    · refine .inr ⟨ring', [], blank, heq, ?_, hpos, hle, hend, h'⟩
      rw [hring]
  · rw [heq]
    refine .inr ⟨ring', old, blank, rfl, ?_, hpos, hle, hend, h'⟩
    rw [hring]

/-- **Writing a message** into the first of the claimed slots. -/
theorem fill {b : μ} (h : HoldsAt ring old q staged (b :: blank))
    (hend : ring.wShared + staged.length < ring.maxItem) :
    HoldsAt (ring.setItem (ring.wShared + staged.length) m) old q (staged ++ [m]) blank := by
  have hbase := h.base
  rw [← List.append_assoc] at hbase
  have hwrite := hbase.write (x := m)
  rw [List.length_append, h.slot_eq hend] at hwrite
  refine ⟨?_, h.mem, h.rShared, h.wShared, ?_⟩
  · simpa [setItem, List.append_assoc] using hwrite
  · have hw := h.wOffset
    simp only [List.length_cons] at hw
    simp only [setItem, List.length_append, List.length_cons, List.length_nil]
    rw [hw]
    congr 1
    simp
    omega

/-- **Giving back** the claimed slots that were not written. -/
theorem giveBack (h : HoldsAt ring old q staged blank) (hne : 0 < blank.length)
    (hend : ring.wShared + staged.length + blank.length ≤ ring.maxItem) :
    HoldsAt (ring.giveBack blank.length) old q staged [] := by
  have hw : (ring.giveBack blank.length) =
      { ring with wOffset := ring.wShared + staged.length } := by
    have hslot : ring.wOffset = (ring.wShared + (staged.length + blank.length)) % ring.maxItem := by
      rw [h.wOffset, h.wShared, Nat.mod_add_mod, Nat.add_assoc]
    rw [add_mod_eq (by omega)] at hslot
    rw [MsgRing.giveBack]
    split_ifs at hslot ⊢ <;> congr 1 <;> omega
  rw [hw]
  have hbase := h.base
  rw [← List.append_assoc] at hbase
  refine ⟨by simpa using hbase.take, h.mem, h.rShared, h.wShared, ?_⟩
  simpa using (h.slot_eq (i := staged.length) (by omega)).symm

/-- **Publishing** the messages written, out of the cache. -/
theorem writeComplete (h : HoldsAt ring old q staged []) {p : ℕ}
    (hp : staged ≠ [] → p = ring.wShared) (hend : p + staged.length ≤ ring.maxItem) :
    HoldsAt (ring.writeComplete p staged.length) old (q ++ staged) [] [] := by
  have hcopy := h.mem.copy h.base (fun hne => (hp hne).trans h.wShared) hend
  refine ⟨?_, ?_, h.rShared, ?_, ?_⟩
  · simpa [MsgRing.writeComplete, cacheFlush] using h.base
  · simpa [MsgRing.writeComplete, cacheFlush] using hcopy
  · simpa [MsgRing.writeComplete, cacheFlush, Nat.add_assoc] using h.wOffset
  · simpa [MsgRing.writeComplete, cacheFlush, Nat.add_assoc] using h.wOffset

/-- **Publishing what is pending.** -/
theorem writeFlush (h : HoldsAt ring old q staged []) (hpend : ring.pendItemsCount = staged.length)
    (hstart : staged ≠ [] → ring.startAddr = ring.wShared)
    (hend : staged ≠ [] → ring.wShared + staged.length ≤ ring.maxItem) :
    HoldsAt ring.writeFlush old (q ++ staged) [] [] ∧ ring.writeFlush.pendItemsCount = 0 := by
  rw [MsgRing.writeFlush]
  split_ifs with hzero
  · have hne : staged ≠ [] := by
      rintro rfl
      exact hzero hpend
    have h' := h.writeComplete hstart (by rw [hstart hne]; exact hend hne)
    rw [hpend]
    exact ⟨⟨h'.base, h'.mem, h'.rShared, h'.wShared, h'.wOffset⟩, rfl⟩
  · obtain rfl : staged = [] := List.length_eq_zero_iff.1 (by omega)
    simpa using ⟨h, not_not.1 hzero⟩

/-- The slot behind what is pending. -/
theorem next_lt (h : HoldsAt ring old q staged blank) (hpend : ring.Pending staged) :
    ring.wShared + staged.length < ring.maxItem := by
  rcases eq_or_ne staged [] with rfl | hne
  · exact h.wShared ▸ Nat.mod_lt _ (by have := h.base.lt; omega)
  · exact hpend.end_lt hne

/-- **Adding a message** to those pending, in the slot claimed for it. -/
theorem addPending {b : μ} (h : HoldsAt ring old q staged [b]) (m : μ)
    (hpend : ring.Pending staged) :
    ∃ ring', ring' = (ring.addPending (ring.wShared + staged.length)).setItem
        (ring.wShared + staged.length) m ∧
      HoldsAt ring' old q (staged ++ [m]) [] ∧
        ring'.pendItemsCount = (staged ++ [m]).length ∧ ring'.startAddr = ring'.wShared := by
  have hfill := h.fill (m := m) (h.next_lt hpend)
  refine ⟨_, rfl, ⟨hfill.base, hfill.mem, hfill.rShared, hfill.wShared, hfill.wOffset⟩, ?_, ?_⟩
  · simp [setItem, MsgRing.addPending, hpend.count]
  · -- the message is the first one where there was none
    simp only [setItem, MsgRing.addPending, hpend.count]
    split_ifs with hzero
    · rw [hzero, Nat.add_zero]
    · exact hpend.start fun hnil => hzero (by rw [hnil, List.length_nil])

/-- **Submitting one message**: it is refused, and nothing happens to the others, or it is pending
or published behind them. -/
theorem txdata (h : HoldsAt ring old q staged []) (txpThreshold : ℕ) (m : μ) (hπ : π.Sound)
    (hpend : ring.Pending staged) :
    ∃ ring' old' q' staged', HoldsAt ring' old' q' staged' [] ∧ ring'.Pending staged' ∧
      ((ring.txdata π txpThreshold m = (false, ring') ∧ q' = q ∧ staged' = staged ∧
          q.length + staged.length + 1 = ring.maxItem) ∨
        ring.txdata π txpThreshold m = (true, ring') ∧ q' ++ staged' = q ++ staged ++ [m]) := by
  have hlt := h.next_lt hpend
  have hslot : ring.wOffset = ring.wShared + staged.length := by
    rw [h.wOffset]
    exact h.slot_eq hlt
  rw [MsgRing.txdata]
  rcases h.allocRingSpace hπ Nat.one_pos with
    ⟨ring', heq, hring, hlen, h'⟩ | ⟨ring', old', blank, heq, hring, hpos, hle, hend, h'⟩
  · rw [heq]
    refine ⟨ring', [], q, staged, h', ?_, .inl ⟨rfl, rfl, rfl, hlen⟩⟩
    rw [hring]
    exact hpend.claimed
  · obtain ⟨b, rfl⟩ := List.length_eq_one_iff.1 (Nat.le_antisymm hle hpos)
    have hpend' : ring'.Pending staged := by
      rw [hring]
      exact hpend.claimed
    have hwShared : ring'.wShared = ring.wShared := by rw [hring]
    have hmax : ring'.maxItem = ring.maxItem := by rw [hring]
    obtain ⟨ring'', hring'', hadd, hcount, hstart⟩ := h'.addPending m hpend'
    rw [hwShared, ← hslot] at hring''
    have hwShared' : ring''.wShared = ring.wShared := by rw [hring'']; exact hwShared
    have hmax' : ring''.maxItem = ring.maxItem := by rw [hring'']; exact hmax
    have hend' : ring''.wShared + (staged ++ [m]).length ≤ ring''.maxItem := by
      rw [List.length_append, List.length_singleton]
      omega
    rw [heq]
    dsimp only
    rw [← hring'']
    split_ifs with hflush
    · obtain ⟨hflushed, hnone⟩ := hadd.writeFlush hcount (fun _ => hstart) fun _ => hend'
      exact ⟨_, old', q ++ (staged ++ [m]), [], hflushed, ⟨hnone, by simp, by simp⟩,
        .inr ⟨rfl, by simp⟩⟩
    · refine ⟨_, old', q, staged ++ [m], hadd, ⟨hcount, fun _ => hstart, fun _ => ?_⟩,
        .inr ⟨rfl, by simp⟩⟩
      -- the last slot would have been published
      have hlast : π.hostRingEnd ring''.maxItem + 1 = ring''.maxItem := hπ.ring_end (by omega)
      have hne : ring.wOffset ≠ π.hostRingEnd ring''.maxItem := fun hx => hflush (.inr hx)
      rw [List.length_append, List.length_singleton]
      omega

/-- The messages that the dongle may read. -/
theorem apart_shared (h : HoldsAt ring old q staged blank) :
    apart ring.rShared ring.wShared ring.maxItem = q.length := by
  have hlt := h.length_lt
  have hr : ring.rShared < ring.maxItem := h.rShared ▸ Nat.mod_lt _ (by omega)
  have hw : ring.wShared = (ring.rShared + q.length) % ring.maxItem := by
    rw [h.rShared, h.wShared, Nat.mod_add_mod, List.length_append, Nat.add_assoc]
  rw [hw, apart_add hr (by omega)]

/-- The dongle sees whether there is a message. -/
theorem rShared_eq_iff (h : HoldsAt ring old q staged blank) :
    ring.rShared = ring.wShared ↔ q = [] := by
  have hq := h.apart_shared
  constructor
  · intro heq
    rw [heq, apart, if_pos le_rfl, Nat.sub_self] at hq
    exact List.length_eq_zero_iff.1 hq.symm
  · rintro rfl
    rw [h.rShared, h.wShared, List.append_nil]

/-- **The dongle reading a message.** -/
theorem take (h : HoldsAt ring old (m :: q) staged blank) :
    ring.mem ring.rShared = m ∧
      HoldsAt { ring with rShared := ring.next ring.rShared } (old ++ [m]) q staged blank := by
  have hlist : old ++ [m] ++ q = old ++ m :: q := by simp
  have hlt : ring.rShared < ring.maxItem := h.rShared ▸ Nat.mod_lt _ (by have := h.base.lt; omega)
  refine ⟨?_, ⟨?_, ?_, ?_, ?_, ?_⟩⟩
  · rw [h.rShared]
    exact h.mem.apply
  · rw [hlist]
    exact h.base
  · rw [hlist]
    exact h.mem
  · rw [ring.next_eq hlt, h.rShared, Nat.mod_add_mod]
    simp [Nat.add_assoc]
  · rw [hlist]
    exact h.wShared
  · rw [hlist]
    exact h.wOffset

end HoldsAt

end MsgRing

end Dhd
