import Akbuilder.Dhd.RxPath
import Mathlib.Data.List.Perm.Lattice

/-!
# No packet of the receive path is lost

Every packet id that a packet is posted under is in one place: in the ring to the dongle, with the
dongle, in the ring back, or in a completion that was given up. This holds whatever the other paths
do with ids of their own, so every completion finds the packet it is for.

## Main definitions

* `RxPath.Places`: where the ids are
* `RxPath.Inv`: the invariant of the receive path

## Main results

* `RxPath.Inv.step`: every step keeps the invariant
* `RxPath.packets_kept`: a packet posted is passed up or still under its id, and never twice
* `RxPath.posted_as_mapped`: what the dongle reads of a packet is what the id keeps of it
-/

open Transition

namespace Dhd

namespace RxPath

variable {ρ : Type}

/-- The packet under an id. -/
def pktOf (s : RxPath ρ) (id : ℕ) : Option ρ := (s.map.book id).bind Saved.pkt

/-- **Where the ids are** that packets are posted under: in one place each. -/
structure Places (s : RxPath ρ) (unread : List HostRxbufPost) (unhandled : List HostRxbufCmpl) :
    Prop where
  sent : s.post.sent = s.post.got ++ unread
  done : s.cpln.sent = s.cpln.taken ++ unhandled
  perm : s.lent.Perm (unread.map (·.requestId) ++ s.held ++ unhandled.map (·.requestId) ++
    s.cpln.dropped.map (·.requestId))
  nodup : s.lent.Nodup

/-- A message tells where the packet is mapped. -/
def Described (s : RxPath ρ) (m : HostRxbufPost) : Prop :=
  ∃ saved, s.map.book m.requestId = some saved ∧
    m = postMsg s.rxMetadataOffset m.requestId saved.physaddr saved.len.toUInt32

/-- **Where the packets are**: passed up, in the order of the completions, or under their ids. -/
structure Packets (s : RxPath ρ) : Prop where
  map : s.map.Inv
  mapped : ∀ id ∈ s.lent, ∃ pkt, s.pktOf id = some pkt
  conserve : s.posted.Perm (s.given.map (·.pkt) ++ s.lent.filterMap s.pktOf)
  lens : s.given.map (·.len) = s.cpln.handled.map (·.dataLen)

/-- A completion is being handled. -/
def Waiting (s : RxPath ρ) : Prop := ∃ slot n, s.cpln.batch = some (slot, n + 1)

/-- **The count of posted buffers**, which is behind by those just written and ahead of the
completion that is being handled. -/
def AtPc (s : RxPath ρ) : Prop :=
  match s.pc with
  | .idle => s.post.claim = none ∧ s.rxbufpost = s.lent.length
  | .post fillbufs _ cmplt => s.post.claim = none ∧ s.rxbufpost + cmplt.toNat = s.lent.length ∧
      (0 < fillbufs → s.rxbufpost + fillbufs ≤ s.maxRxbufpost) ∧ (cmplt = true → s.Waiting)
  | .fill _ cmplt => ∃ c, s.post.claim = some c ∧
      s.rxbufpost + c.i + cmplt.toNat = s.lent.length ∧ c.i ≤ c.alloced ∧
        s.rxbufpost + c.alloced ≤ s.maxRxbufpost ∧ (cmplt = true → s.Waiting)
  | .get => s.post.claim = none ∧ s.rxbufpost + 1 = s.lent.length ∧ s.Waiting

/-- **The invariant of the receive path.** -/
structure Inv (π : RxMacros) (s : RxPath ρ) : Prop where
  post : s.post.Inv
  pend : s.post.ring.pendItemsCount = 0
  cpln : s.cpln.Inv π.cpln
  places : ∃ unread unhandled, s.Places unread unhandled ∧ ∀ m ∈ unread, s.Described m
  packets : s.Packets
  atPc : s.AtPc
  le : s.rxbufpost ≤ s.maxRxbufpost

variable {π : RxMacros} {s s' : RxPath ρ} {unread : List HostRxbufPost}
  {unhandled : List HostRxbufCmpl} {cnt : ℕ} {cmplt : Bool} {c : Claim}

theorem Places.mem_of_unread (h : s.Places unread unhandled) {m : HostRxbufPost} (hm : m ∈ unread) :
    m.requestId ∈ s.lent := by
  rw [h.perm.mem_iff]
  simp only [List.mem_append, List.mem_map]
  exact .inl (.inl (.inl ⟨m, hm, rfl⟩))

theorem Places.mem_of_unhandled (h : s.Places unread unhandled) {m : HostRxbufCmpl}
    (hm : m ∈ unhandled) : m.requestId ∈ s.lent := by
  rw [h.perm.mem_iff]
  simp only [List.mem_append, List.mem_map]
  exact .inl (.inr ⟨m, hm, rfl⟩)

/-- **A message** is written for a new id. -/
theorem Places.fill (h : s.Places unread unhandled) {m : HostRxbufPost} (hid : m.requestId ∉ s.lent)
    (hsent : s'.post.sent = s.post.sent ++ [m] ∧ s'.post.got = s.post.got)
    (hcpln : s'.cpln = s.cpln) (hheld : s'.held = s.held)
    (hlent : s'.lent = s.lent ++ [m.requestId]) : s'.Places (unread ++ [m]) unhandled := by
  refine ⟨?_, ?_, ?_, ?_⟩
  · rw [hsent.1, hsent.2, h.sent, List.append_assoc]
  · rw [hcpln, h.done]
  · rw [hlent, hheld, hcpln, List.perm_iff_count]
    intro j
    have hj := h.perm.count_eq j
    simp only [List.map_append, List.map_cons, List.map_nil, List.count_append] at hj ⊢
    omega
  · rw [hlent, List.nodup_append]
    refine ⟨h.nodup, List.nodup_singleton _, fun a ha b hb => ?_⟩
    rw [List.mem_singleton.1 hb]
    rintro rfl
    exact hid ha

/-- **A packet** is put under a new id. -/
theorem Packets.add (h : s.Packets) {id : ℕ} {saved : Saved ρ} {pkt : ρ}
    (hpkt : saved.pkt = some pkt) (hself : s'.map.book id = some saved)
    (hkeep : ∀ j ∈ s.lent, s'.map.book j = s.map.book j) (hmap : s'.map.Inv)
    (hlent : s'.lent = s.lent ++ [id]) (hposted : s'.posted = s.posted ++ [pkt])
    (hgiven : s'.given = s.given) (hcpln : s'.cpln = s.cpln) : s'.Packets := by
  have hold : ∀ j ∈ s.lent, s'.pktOf j = s.pktOf j := fun j hj => by rw [pktOf, hkeep j hj, pktOf]
  have hnew : s'.pktOf id = some pkt := by rw [pktOf, hself, Option.bind_some, hpkt]
  refine ⟨hmap, fun j hj => ?_, ?_, ?_⟩
  · rw [hlent] at hj
    rcases List.mem_append.1 hj with hj | hj
    · rw [hold j hj]
      exact h.mapped j hj
    · rw [List.mem_singleton.1 hj]
      exact ⟨pkt, hnew⟩
  · have hone : [id].filterMap s'.pktOf = [pkt] := by simp [hnew]
    rw [hlent, hposted, hgiven, List.filterMap_append, List.filterMap_congr hold, hone,
      ← List.append_assoc]
    exact h.conserve.append_right _
  · rw [hgiven, hcpln]
    exact h.lens

theorem Places.mem_erase {m : HostRxbufCmpl} (h : s.Places unread (m :: unhandled))
    {x : HostRxbufPost} (hx : x ∈ unread) : x.requestId ∈ s.lent.erase m.requestId := by
  have hcount := h.perm.count_eq x.requestId
  have hpos : 0 < (unread.map (·.requestId)).count x.requestId :=
    List.count_pos_iff.2 (List.mem_map_of_mem hx)
  rw [← List.count_pos_iff, List.count_erase, hcount]
  simp only [List.map_cons, List.count_append, List.count_cons]
  omega

/-- **A completion** is handled. -/
theorem Places.pass {m : HostRxbufCmpl} (h : s.Places unread (m :: unhandled))
    (hsent : s'.post.sent = s.post.sent ∧ s'.post.got = s.post.got)
    (hdone : s'.cpln.sent = s.cpln.sent ∧ s'.cpln.taken = s.cpln.taken ++ [m])
    (hdropped : s'.cpln.dropped = s.cpln.dropped) (hheld : s'.held = s.held)
    (hlent : s'.lent = s.lent.erase m.requestId) : s'.Places unread unhandled := by
  refine ⟨?_, ?_, ?_, ?_⟩
  · rw [hsent.1, hsent.2, h.sent]
  · rw [hdone.1, hdone.2, h.done]
    simp
  · rw [hlent, hheld, hdropped, List.perm_iff_count]
    intro j
    have hj := h.perm.count_eq j
    simp only [List.map_cons, List.count_append, List.count_cons, List.count_erase] at hj ⊢
    omega
  · rw [hlent]
    exact h.nodup.erase _

/-- **A completion** is given up. -/
theorem Places.skip {m : HostRxbufCmpl} (h : s.Places unread (m :: unhandled))
    (hsent : s'.post.sent = s.post.sent ∧ s'.post.got = s.post.got)
    (hdone : s'.cpln.sent = s.cpln.sent ∧ s'.cpln.taken = s.cpln.taken ++ [m])
    (hdropped : s'.cpln.dropped = s.cpln.dropped ++ [m]) (hheld : s'.held = s.held)
    (hlent : s'.lent = s.lent) : s'.Places unread unhandled := by
  refine ⟨?_, ?_, ?_, hlent ▸ h.nodup⟩
  · rw [hsent.1, hsent.2, h.sent]
  · rw [hdone.1, hdone.2, h.done]
    simp
  · rw [hlent, hheld, hdropped, List.perm_iff_count]
    intro j
    have hj := h.perm.count_eq j
    simp only [List.map_append, List.map_cons, List.map_nil, List.count_append, List.count_cons,
      List.count_nil] at hj ⊢
    omega

/-- **A packet** is taken from under its id and passed up. -/
theorem Packets.remove (h : s.Packets) {id : ℕ} (frame : RxFrame ρ) {m : HostRxbufCmpl}
    (hmem : id ∈ s.lent) (hpkt : s.pktOf id = some frame.pkt)
    (hkeep : ∀ j ∈ s.lent.erase id, s'.map.book j = s.map.book j) (hmap : s'.map.Inv)
    (hlent : s'.lent = s.lent.erase id) (hposted : s'.posted = s.posted)
    (hgiven : s'.given = s.given ++ [frame] ∧ frame.len = m.dataLen)
    (hhandled : s'.cpln.handled = s.cpln.handled ++ [m]) : s'.Packets := by
  have hold : ∀ j ∈ s.lent.erase id, s'.pktOf j = s.pktOf j := fun j hj => by
    rw [pktOf, hkeep j hj, pktOf]
  refine ⟨hmap, fun j hj => ?_, ?_, ?_⟩
  · rw [hlent] at hj
    rw [hold j hj]
    exact h.mapped j (List.mem_of_mem_erase hj)
  · have hperm := (List.perm_cons_erase hmem).filterMap s.pktOf
    rw [List.filterMap_cons_some hpkt] at hperm
    rw [hlent, hposted, hgiven.1, List.filterMap_congr hold, List.map_append, List.append_assoc]
    exact h.conserve.trans (hperm.append_left _)
  · rw [hgiven.1, hhandled, List.map_append, List.map_append, h.lens]
    simp [hgiven.2]

/-- What is kept of a number is at most the number. -/
theorem int16_le {x : ℤ} (hx : 0 ≤ x) : int16 x ≤ x := by
  rw [int16, Int.bmod_def]
  split_ifs <;> omega

/-- **Leaving the posting of buffers.** -/
theorem atPc_leave (hc : s.post.claim = none)
    (hcount : s.rxbufpost + cmplt.toNat = s.lent.length) (hw : cmplt = true → s.Waiting) :
    AtPc (s.leave cmplt) := by
  cases cmplt with
  | false => exact ⟨hc, hcount⟩
  | true => exact ⟨hc, hcount, hw rfl⟩

namespace Inv

/-- Steps of the host that do not touch the messages. -/
theorem control (h : Inv π s) {post : Submission HostRxbufPost} {cpln : Completion HostRxbufCmpl}
    {rxbufpost : ℕ} {pc : RxPc} (hpost : post.Inv) (hpend : post.ring.pendItemsCount = 0)
    (hsent : post.sent = s.post.sent ∧ post.got = s.post.got)
    (hcpln : cpln.Inv π.cpln)
    (hdone : cpln.sent = s.cpln.sent ∧ cpln.taken = s.cpln.taken ∧
      cpln.handled = s.cpln.handled ∧ cpln.dropped = s.cpln.dropped)
    (hle : rxbufpost ≤ s.maxRxbufpost) (hpc : AtPc { s with post, cpln, rxbufpost, pc }) :
    Inv π { s with post, cpln, rxbufpost, pc } := by
  obtain ⟨unread, unhandled, hplaces, hdesc⟩ := h.places
  obtain ⟨hsent', htaken, hhandled, hdropped⟩ := hdone
  refine ⟨hpost, hpend, hcpln, ⟨unread, unhandled, ⟨?_, ?_, ?_, hplaces.nodup⟩, hdesc⟩,
    ⟨h.packets.map, h.packets.mapped, h.packets.conserve, ?_⟩, hpc, hle⟩
  · rw [hsent.1, hsent.2]
    exact hplaces.sent
  · rw [hsent', htaken]
    exact hplaces.done
  · rw [hdropped]
    exact hplaces.perm
  · rw [hhandled]
    exact h.packets.lens

/-- Changes of the packet ids that leave the ids in `lent` alone. -/
theorem of_map (h : Inv π s) {map : PktidMap ρ} (hmap : map.Inv)
    (hbook : ∀ id ∈ s.lent, map.book id = s.map.book id) : Inv π { s with map } := by
  obtain ⟨unread, unhandled, hplaces, hdesc⟩ := h.places
  have hpkt : ∀ id ∈ s.lent, pktOf { s with map } id = s.pktOf id := fun id hid => by
    rw [pktOf, hbook id hid, pktOf]
  refine ⟨h.post, h.pend, h.cpln, ⟨unread, unhandled,
    ⟨hplaces.sent, hplaces.done, hplaces.perm, hplaces.nodup⟩, fun m hm => ?_⟩,
    ⟨hmap, fun id hid => ?_, ?_, h.packets.lens⟩, h.atPc, h.le⟩
  · obtain ⟨saved, hsaved, heq⟩ := hdesc m hm
    exact ⟨saved, (hbook _ (hplaces.mem_of_unread hm)).trans hsaved, heq⟩
  · rw [hpkt id hid]
    exact h.packets.mapped id hid
  · rw [List.filterMap_congr hpkt]
    exact h.packets.conserve

/-- Changing the count and the place of the host. -/
theorem control_pc (h : Inv π s) {rxbufpost : ℕ} {pc : RxPc} (hle : rxbufpost ≤ s.maxRxbufpost)
    (hpc : AtPc { s with rxbufpost, pc }) : Inv π { s with rxbufpost, pc } :=
  h.control h.post h.pend ⟨rfl, rfl⟩ h.cpln ⟨rfl, rfl, rfl, rfl⟩ hle hpc

/-- **Entering the posting of buffers.** -/
theorem rxbufPost (h : Inv π s) (cmplt : Bool) (hc : s.post.claim = none)
    (hcount : s.rxbufpost + cmplt.toNat = s.lent.length) (hw : cmplt = true → s.Waiting) :
    Inv π (s.rxbufPost cmplt) := by
  refine h.control_pc h.le ⟨hc, hcount, fun _ => ?_, hw⟩
  have hle := h.le
  have hint := int16_le (x := s.maxRxbufpost - s.rxbufpost) (by omega)
  change (s.rxbufpost : ℤ) + int16 (s.maxRxbufpost - s.rxbufpost) ≤ s.maxRxbufpost
  omega

/-- **Claiming space** for a burst of buffers. -/
theorem postTurn (h : Inv π s) (hπ : π.Sound) {fillbufs : ℤ}
    (hpc : s.pc = .post fillbufs cnt cmplt) : Inv π (s.postTurn π fillbufs cnt cmplt) := by
  have hat := h.atPc
  rw [AtPc, hpc] at hat
  obtain ⟨hc, hcount, hfill, hw⟩ := hat
  rw [RxPath.postTurn]
  by_cases hpos : fillbufs > 0
  · rw [if_pos hpos]
    dsimp only
    have hburst : 0 < (min fillbufs rxBufBurst).toNat :=
      Int.lt_toNat.2 (lt_min hpos (by simp [rxBufBurst]))
    have hpost := h.post.claimStep hπ hc hburst h.pend
    obtain ⟨hsent, hgot, hpend⟩ := Submission.claimStep_frame s.post π.toRingSpace
      (min fillbufs rxBufBurst).toNat
    split_ifs with hcnt hclaim
    · exact h.control_pc h.le (atPc_leave hc hcount hw)
    · -- there was no space
      exact h.control hpost (hpend.trans h.pend) ⟨hsent, hgot⟩ h.cpln ⟨rfl, rfl, rfl, rfl⟩ h.le
        (atPc_leave hclaim hcount hw)
    · obtain ⟨c, hc'⟩ := Option.ne_none_iff_exists'.1 hclaim
      obtain ⟨hi, hle⟩ := Submission.claimStep_claim hc hc'
      refine h.control hpost (hpend.trans h.pend) ⟨hsent, hgot⟩ h.cpln ⟨rfl, rfl, rfl, rfl⟩ h.le
        ⟨c, hc', ?_, by omega, ?_, hw⟩
      · simpa [hi] using hcount
      · have := hfill hpos
        have hmin : ((min fillbufs rxBufBurst).toNat : ℤ) ≤ fillbufs := by
          rw [Int.toNat_of_nonneg (le_min hpos.le (by simp [rxBufBurst]))]
          exact min_le_left _ _
        change s.rxbufpost + c.alloced ≤ s.maxRxbufpost
        omega
  · rw [if_neg hpos]
    exact h.control_pc h.le (atPc_leave hc hcount hw)

/-- **Publishing the buffers** and counting them. -/
theorem rxbufDone (h : Inv π s) (hpc : s.pc = .fill cnt cmplt) (hc : s.post.claim = some c) :
    Inv π (s.rxbufDone cnt cmplt c) := by
  have hat := h.atPc
  rw [AtPc, hpc] at hat
  obtain ⟨c', hc', hcount, hi, hle, hw⟩ := hat
  obtain rfl : c = c' := Option.some.inj (hc.symm.trans hc')
  have hpost := h.post.completeStep hc
  have hpend := (Submission.completeStep_pend (s := s.post) (c := c)).trans h.pend
  rw [RxPath.rxbufDone]
  dsimp only
  split_ifs with hpos
  · refine h.control hpost hpend ⟨rfl, rfl⟩ h.cpln ⟨rfl, rfl, rfl, rfl⟩ (by omega)
      ⟨rfl, hcount, fun _ => ?_, hw⟩
    have hint := int16_le (x := s.maxRxbufpost - (s.rxbufpost + c.i : ℕ)) (by omega)
    change ((s.rxbufpost + c.i : ℕ) : ℤ) + int16 (s.maxRxbufpost - (s.rxbufpost + c.i : ℕ)) ≤
      s.maxRxbufpost
    omega
  · exact h.control hpost hpend ⟨rfl, rfl⟩ h.cpln ⟨rfl, rfl, rfl, rfl⟩ h.le
      (atPc_leave rfl (by dsimp only; omega) hw)

/-- The completion that is handled next is for a packet that is posted. -/
theorem next (h : Inv π s) {slot n : ℕ} (hb : s.cpln.batch = some (slot, n + 1)) :
    ∃ unread unhandled, s.Places unread (s.cpln.ring.base slot :: unhandled) ∧
      ∀ m ∈ unread, s.Described m := by
  obtain ⟨unread, unhandled, hplaces, hdesc⟩ := h.places
  obtain ⟨rest, hsent⟩ := h.cpln.next hb
  obtain rfl := List.append_cancel_left (hplaces.done.symm.trans hsent)
  exact ⟨unread, rest, hplaces, hdesc⟩

/-- **Counting the buffer back** that a completion is for, and posting others. -/
theorem returnRxbuf (h : Inv π s) (hpc : s.pc = .idle) {slot n : ℕ}
    (hb : s.cpln.batch = some (slot, n + 1)) : Inv π (s.returnRxbuf 1) := by
  have hat := h.atPc
  rw [AtPc, hpc] at hat
  obtain ⟨hc, hcount⟩ := hat
  obtain ⟨unread, unhandled, hplaces, -⟩ := h.next hb
  have hpos : 0 < s.lent.length :=
    List.length_pos_of_mem (hplaces.mem_of_unhandled (List.mem_cons_self ..))
  have hle := h.le
  have hw : s.Waiting := ⟨slot, n, hb⟩
  rw [RxPath.returnRxbuf]
  dsimp only
  rw [if_pos (show s.rxbufpost ≥ 1 by omega)]
  have hget : Inv π { s with rxbufpost := s.rxbufpost - 1, pc := .get } :=
    h.control_pc (by omega) ⟨hc, by dsimp only; omega, hw⟩
  split_ifs
  · exact hget.rxbufPost true hc (by simp; omega) fun _ => hw
  · exact hget

/-- **Posting a packet** under a new id. -/
theorem fillTurn (h : Inv π s) {pkt : ρ} {physaddr secdma : UInt64} {pktlen : UInt32}
    (hpc : s.pc = .fill cnt cmplt) (hc : s.post.claim = some c) (hi : c.i < c.alloced) :
    Inv π (s.fillTurn π cnt cmplt c pkt physaddr pktlen secdma) := by
  rw [RxPath.fillTurn]
  obtain ⟨hmap, -, hres⟩ := h.packets.map.alloc pkt physaddr pktlen π.dmaRx secdma
  generalize s.map.alloc pkt physaddr pktlen π.dmaRx secdma = r at *
  obtain ⟨id, map⟩ := r
  dsimp only at *
  split_ifs with hzero hid
  · exact h.rxbufDone hpc hc
  · -- there was no id, and nothing is changed
    have hbook : map.book = s.map.book := by
      rcases hres with ⟨-, hbook⟩ | ⟨hmem, -⟩
      · exact hbook
      · rw [hid] at hmem
        simp at hmem
    exact (h.of_map hmap fun id _ => by rw [hbook]).rxbufDone hpc hc
  · obtain ⟨hmem, hnone, hbook⟩ := hres.resolve_left fun hres => hid hres.1
    have hfresh : id ∉ s.lent := fun hl => by
      obtain ⟨pkt', hpkt'⟩ := h.packets.mapped id hl
      rw [pktOf, hnone] at hpkt'
      cases hpkt'
    have hself := congrFun hbook id
    rw [Function.update_self] at hself
    have hkeep : ∀ j ∈ s.lent, map.book j = s.map.book j := fun j hj => by
      rw [hbook, Function.update_of_ne]
      rintro rfl
      exact hfresh hj
    have hat := h.atPc
    rw [AtPc, hpc] at hat
    obtain ⟨c', hc', hcount, hle, hmax, hw⟩ := hat
    obtain rfl : c = c' := Option.some.inj (hc.symm.trans hc')
    obtain ⟨unread, unhandled, hplaces, hdesc⟩ := h.places
    refine ⟨h.post.fillStep hc hi, h.pend, h.cpln,
      ⟨unread ++ [postMsg s.rxMetadataOffset id physaddr pktlen], unhandled,
        hplaces.fill hfresh ⟨rfl, rfl⟩ rfl rfl rfl, fun m hm => ?_⟩,
      h.packets.add rfl hself hkeep hmap rfl rfl rfl rfl, ?_, h.le⟩
    · rcases List.mem_append.1 hm with hm | hm
      · obtain ⟨saved, hsaved, heq⟩ := hdesc m hm
        exact ⟨saved, (hkeep _ (hplaces.mem_of_unread hm)).trans hsaved, heq⟩
      · obtain rfl := List.mem_singleton.1 hm
        exact ⟨_, hself, by rw [postMsg, postMsg, UInt16.toUInt16_toUInt32]⟩
    · rw [AtPc]
      dsimp only
      rw [hpc]
      refine ⟨_, rfl, ?_, hi, hmax, hw⟩
      simp only [List.length_append, List.length_singleton]
      omega

/-- **Passing a packet up**: the completion that is handled next finds the packet it is for. -/
theorem getTurn (h : Inv π s) (hpc : s.pc = .get) {slot n : ℕ}
    (hb : s.cpln.batch = some (slot, n + 1)) : Inv π (s.getTurn π slot n) := by
  have hat := h.atPc
  rw [AtPc, hpc] at hat
  obtain ⟨hc, hcount, -⟩ := hat
  obtain ⟨unread, unhandled, hplaces, hdesc⟩ := h.next hb
  rw [RxPath.getTurn]
  dsimp only
  generalize (fun rxcmplt => if
    ((s.map.free (s.cpln.ring.base slot).requestId).1.bind Saved.pkt).isNone then rxcmplt
    else ⟨0, 0, 0⟩ : HostRxbufCmpl → HostRxbufCmpl) = left
  have hcpln := h.cpln.processStep hb left true
  obtain ⟨hsent, htaken, hhandled, hdropped⟩ :=
    s.cpln.processStep_frame π.cpln left true slot n rfl
  rw [if_pos rfl] at hhandled hdropped
  rw [List.append_nil] at hdropped
  generalize s.cpln.ring.base slot = m at *
  have hmem : m.requestId ∈ s.lent := hplaces.mem_of_unhandled (List.mem_cons_self ..)
  obtain ⟨pkt, hpkt⟩ := h.packets.mapped _ hmem
  obtain ⟨saved, hsaved, hpkt'⟩ := Option.bind_eq_some_iff.1 hpkt
  obtain ⟨hmap, hfreed, hbook⟩ := h.packets.map.free_of_book hsaved
  generalize s.map.free m.requestId = r at *
  obtain ⟨freed, map⟩ := r
  dsimp only at *
  subst hfreed
  simp only [Option.bind_some, hpkt']
  generalize (if m.dataOffset ≠ 0 then m.dataOffset else s.rxDataoffset) = pull
  have hkeep : ∀ j ∈ s.lent.erase m.requestId, map.book j = s.map.book j := fun j hj => by
    rw [hbook, Function.update_of_ne]
    rintro rfl
    exact hplaces.nodup.not_mem_erase hj
  refine ⟨h.post, h.pend, hcpln, ⟨unread, unhandled,
    hplaces.pass ⟨rfl, rfl⟩ ⟨hsent, htaken⟩ hdropped rfl rfl, fun x hx => ?_⟩,
    h.packets.remove ⟨pkt, pull, m.dataLen⟩ hmem hpkt hkeep hmap rfl rfl ⟨rfl, rfl⟩ hhandled,
    ⟨hc, ?_⟩, h.le⟩
  · obtain ⟨saved', hsaved', heq⟩ := hdesc x hx
    exact ⟨saved', (hkeep _ (hplaces.mem_erase hx)).trans hsaved', heq⟩
  · simp only [List.length_erase_of_mem hmem]
    omega

/-- **Giving a completion up**, whose packet stays where it is. -/
theorem skip (h : Inv π s) (hpc : s.pc = .idle) {slot n : ℕ}
    (hb : s.cpln.batch = some (slot, n + 1)) :
    Inv π { s with cpln := s.cpln.processStep π.cpln id false slot n } := by
  have hat := h.atPc
  rw [AtPc, hpc] at hat
  obtain ⟨unread, unhandled, hplaces, hdesc⟩ := h.next hb
  obtain ⟨hsent, htaken, hhandled, hdropped⟩ :=
    s.cpln.processStep_frame π.cpln id false slot n rfl
  rw [if_neg (by simp)] at hhandled hdropped
  rw [List.append_nil] at hhandled
  have hcpln := h.cpln.processStep hb id false
  -- no packet is taken, and the id stays with the completion
  refine ⟨h.post, h.pend, hcpln, ⟨unread, unhandled,
    hplaces.skip ⟨rfl, rfl⟩ ⟨hsent, htaken⟩ hdropped rfl rfl, hdesc⟩,
    ⟨h.packets.map, h.packets.mapped, h.packets.conserve, ?_⟩, ?_, h.le⟩
  · rw [hhandled]
    exact h.packets.lens
  · rw [AtPc, hpc]
    exact hat

/-- **The dongle reading a posted buffer.** -/
theorem take (h : Inv π s) (hne : s.post.ring.rShared ≠ s.post.ring.wShared) :
    Inv π { s with
      post := s.post.takeStep
      held := s.held ++ [(s.post.ring.mem s.post.ring.rShared).requestId] } := by
  obtain ⟨unread, unhandled, hplaces, hdesc⟩ := h.places
  have hpost := h.post.takeStep hne
  obtain ⟨rest, hsent⟩ := hpost.exists_unread
  -- what the dongle reads is what was written next
  have hunread : unread = s.post.ring.mem s.post.ring.rShared :: rest := by
    have hboth := hplaces.sent.symm.trans hsent
    rw [Submission.takeStep, List.append_assoc] at hboth
    exact List.append_cancel_left hboth
  generalize s.post.ring.mem s.post.ring.rShared = m at *
  subst hunread
  refine ⟨hpost, h.pend, h.cpln, ⟨rest, unhandled, ⟨hsent, hplaces.done, ?_, hplaces.nodup⟩,
    fun x hx => hdesc x (List.mem_cons_of_mem _ hx)⟩,
    ⟨h.packets.map, h.packets.mapped, h.packets.conserve, h.packets.lens⟩, h.atPc, h.le⟩
  rw [List.perm_iff_count]
  intro j
  have hj := hplaces.perm.count_eq j
  simp only [List.map_cons, List.count_append, List.count_cons, List.count_nil] at hj ⊢
  omega

/-- **The dongle sending a completion** for a buffer it holds. -/
theorem complete (h : Inv π s) {m : HostRxbufCmpl} (hheld : m.requestId ∈ s.held)
    (hlt : Ring.apart s.cpln.ring.rShared s.cpln.ring.wShared s.cpln.ring.maxItem + 1 <
      s.cpln.ring.maxItem) (hoff : s.cpln.KeepsOff π.cpln (.write m)) :
    Inv π { s with cpln := s.cpln.writeStep m, held := s.held.erase m.requestId } := by
  obtain ⟨unread, unhandled, hplaces, hdesc⟩ := h.places
  refine ⟨h.post, h.pend, h.cpln.writeStep hlt hoff, ⟨unread, unhandled ++ [m],
    ⟨hplaces.sent, ?_, ?_, hplaces.nodup⟩, hdesc⟩,
    ⟨h.packets.map, h.packets.mapped, h.packets.conserve, h.packets.lens⟩, h.atPc, h.le⟩
  · rw [Completion.writeStep, hplaces.done]
    simp
  · change s.lent.Perm (unread.map (·.requestId) ++ s.held.erase m.requestId ++
      (unhandled ++ [m]).map (·.requestId) ++ s.cpln.dropped.map (·.requestId))
    rw [List.perm_iff_count]
    intro j
    have hj := hplaces.perm.count_eq j
    have hm := (List.perm_cons_erase hheld).count_eq j
    simp only [List.map_append, List.map_cons, List.map_nil, List.count_append,
      List.count_cons, List.count_nil] at hj hm ⊢
    omega

/-- Steps of the host between two completions. -/
theorem idle_cpln (h : Inv π s) (hpc : s.pc = .idle) {cpln : Completion HostRxbufCmpl}
    (hcpln : cpln.Inv π.cpln)
    (hdone : cpln.sent = s.cpln.sent ∧ cpln.taken = s.cpln.taken ∧
      cpln.handled = s.cpln.handled ∧ cpln.dropped = s.cpln.dropped) : Inv π { s with cpln } := by
  have hat := h.atPc
  rw [AtPc, hpc] at hat
  refine h.control h.post h.pend ⟨rfl, rfl⟩ hcpln hdone h.le ?_
  rw [AtPc, hpc]
  exact hat

/-- **The calls of the other paths.** -/
theorem other (h : Inv π s) {op : PktidMap.Op ρ} (hv : PktidMap.Valid ([], s.map) op)
    (hsp : Spares s.lent op) : Inv π { s with map := (op.run s.map).2 } := by
  refine h.of_map (h.packets.map.run hv).1 fun id hid => ?_
  obtain ⟨pkt, hpkt⟩ := h.packets.mapped id hid
  have hne : s.map.book id ≠ none := fun hnone => by simp [pktOf, hnone] at hpkt
  cases op with
  | reserve pkt' =>
    obtain ⟨-, -, hx⟩ := h.packets.map.reserve pkt'
    refine hx.kept hne ?_ fun e => ?_ <;> rw [PktidMap.taken] <;> split_ifs <;>
      simp [Ledger.Event.Frees]
  | save pkt' nkey physaddr len dma secdma =>
    have hk : nkey ≠ id := fun hk => hsp (hk ▸ hid)
    have hbook : s.map.book nkey ≠ none := fun hnone => by simp [PktidMap.Valid, hnone] at hv
    obtain ⟨-, hx⟩ := h.packets.map.save physaddr len dma secdma hbook
    exact hx.kept hne not_false fun e he => hk (by cases he; rfl)
  | alloc pkt' physaddr len dma secdma =>
    have hrun : ((PktidMap.Op.alloc pkt' physaddr len dma secdma).run s.map).2 =
        (s.map.alloc pkt' physaddr len dma secdma).2 := by
      rw [PktidMap.Op.run]
      dsimp only
      split_ifs <;> rfl
    obtain ⟨-, -, ⟨-, hbook⟩ | ⟨-, hnone, hbook⟩⟩ := h.packets.map.alloc
      pkt' physaddr len dma secdma
    · rw [hrun, hbook]
    · rw [hrun, hbook, Function.update_of_ne]
      rintro rfl
      exact hne hnone
  | free nkey =>
    have hk : nkey ≠ id := fun hk => hsp (hk ▸ hid)
    obtain ⟨-, -, hx⟩ := h.packets.map.free hv.1 hv.2
    exact hx.kept hne (fun hfrees => hk hfrees.1) (by simp)
  | clear => exact hsp.elim

/-- **Every step keeps the invariant.** -/
theorem step {a : Action ρ} (h : Inv π s) (hπ : π.Sound) (hv : Valid π s a) (hs : Step π s a s') :
    Inv π s' := by
  cases hs with
  | rxbufPost hpc =>
    have hat := h.atPc
    rw [AtPc, hpc] at hat
    exact h.rxbufPost false hat.1 hat.2 (by simp)
  | turn hpc => exact h.postTurn hπ hpc
  | fill hpc hc hi => exact h.fillTurn hpc hc hi
  | filled hpc hc => exact h.rxbufDone hpc hc
  | fetch hpc hb => exact h.idle_cpln hpc (h.cpln.fetchStep hπ hb) Completion.fetchStep_frame
  | skip hpc hb => exact h.skip hpc hb
  | rxcmplt hpc hb => exact h.returnRxbuf hpc hb
  | get hpc hb => exact h.getTurn hpc hb
  | finish hpc hb => exact h.idle_cpln hpc (h.cpln.finishStep hb) ⟨rfl, rfl, rfl, rfl⟩
  | take hne => exact h.take hne
  | complete hlt => exact h.complete hv.1 hlt hv.2
  | other => exact h.other hv.1 hv.2

theorem init {items postMax cplnMax maxRxbufpost : ℕ} {rxMetadataOffset rxDataoffset : UInt16}
    (hpost : 0 < postMax) (hcpln : 0 < cplnMax) :
    Inv π (init items postMax cplnMax maxRxbufpost rxMetadataOffset rxDataoffset : RxPath ρ) :=
  ⟨.init hpost, rfl, .init hcpln,
    ⟨[], [], ⟨rfl, rfl, by simp [RxPath.init, Completion.init], List.nodup_nil⟩, by simp⟩,
    ⟨.init items, by simp [RxPath.init], by simp [RxPath.init], rfl⟩, ⟨rfl, rfl⟩, Nat.zero_le _⟩

end Inv

/-- What the dongle may have, and where packets begin. -/
theorem rxbufDone_frame {cnt : ℕ} {cmplt : Bool} {c : Claim} :
    (s.rxbufDone cnt cmplt c).maxRxbufpost = s.maxRxbufpost ∧
      (s.rxbufDone cnt cmplt c).rxMetadataOffset = s.rxMetadataOffset := by
  rw [rxbufDone]
  dsimp only
  split_ifs <;> exact ⟨rfl, rfl⟩

/-- No step changes what the dongle may have, or where packets begin. -/
theorem step_frame {a : Action ρ} (hs : Step π s a s') :
    s'.maxRxbufpost = s.maxRxbufpost ∧ s'.rxMetadataOffset = s.rxMetadataOffset := by
  cases hs with
  | turn =>
    rw [postTurn]
    dsimp only
    split_ifs <;> exact ⟨rfl, rfl⟩
  | fill =>
    rw [fillTurn]
    dsimp only
    split_ifs
    · exact rxbufDone_frame
    · exact rxbufDone_frame
    · exact ⟨rfl, rfl⟩
  | filled => exact rxbufDone_frame
  | rxcmplt =>
    rw [returnRxbuf]
    dsimp only
    split_ifs <;> exact ⟨rfl, rfl⟩
  | get =>
    rw [getTurn]
    dsimp only
    split <;> exact ⟨rfl, rfl⟩
  | rxbufPost | fetch | skip | finish | take | complete | other => exact ⟨rfl, rfl⟩

theorem inv_of_run {items postMax cplnMax maxRxbufpost : ℕ} {rxMetadataOffset rxDataoffset : UInt16}
    {as : List (Action ρ)} (hπ : π.Sound) (hpost : 0 < postMax) (hcpln : 0 < cplnMax)
    (r : Run (step π) (Valid π)
      (init items postMax cplnMax maxRxbufpost rxMetadataOffset rxDataoffset) as s) : Inv π s :=
  r.invariant (.init hpost hcpln) fun _ _ _ h hv hs => h.step hπ hv (step_sound hs)

/-- **No packet is lost, and none is passed up twice**, whatever the order of the steps of the host,
the dongle and the other paths: each id with a packet is in one place, unread in the ring to the
dongle, with the dongle, not handled in the ring back, or in a completion that was given up; the
packets posted are those passed up and those under these ids; and one was passed up for each
completion handled, in the same order. -/
theorem packets_kept {items postMax cplnMax maxRxbufpost : ℕ}
    {rxMetadataOffset rxDataoffset : UInt16} {as : List (Action ρ)} (hπ : π.Sound)
    (hpost : 0 < postMax) (hcpln : 0 < cplnMax)
    (r : Run (step π) (Valid π)
      (init items postMax cplnMax maxRxbufpost rxMetadataOffset rxDataoffset) as s) :
    (∃ unread unhandled, s.Places unread unhandled) ∧
      (∀ id ∈ s.lent, ∃ pkt, s.pktOf id = some pkt) ∧
        s.posted.Perm (s.given.map (·.pkt) ++ s.lent.filterMap s.pktOf) ∧
          s.given.map (·.len) = s.cpln.handled.map (·.dataLen) := by
  have h := inv_of_run hπ hpost hcpln r
  obtain ⟨unread, unhandled, hplaces, -⟩ := h.places
  exact ⟨⟨unread, unhandled, hplaces⟩, h.packets.mapped, h.packets.conserve, h.packets.lens⟩

/-- Four slots in each ring: two packets are posted, then a third, and a fourth while the completion
of the first is handled, for which the ring to the dongle is looked at again. -/
theorem packets_kept_repost :
    ∃ s : RxPath ℕ, (s.given = [⟨10, 2, 60⟩] ∧ s.posted = [10, 20, 30, 40] ∧ s.lent = [7, 6, 4]) ∧
      s.posted.Perm (s.given.map (·.pkt) ++ s.lent.filterMap s.pktOf) := by
  obtain ⟨s, r, hs⟩ := exists_run_of_exec (step ⟨RingSpace.slots, 2, false⟩)
    (Valid ⟨RingSpace.slots, 2, false⟩)
    (init 8 4 4 40 0 0 : RxPath ℕ)
    [.rxbufPost, .turn, .fill 10 0x1000 1500 0, .fill 20 0x2000 1500 0, .filled, .turn,
      .fill 30 0x3000 1500 0, .filled, .turn, .take, .complete ⟨8, 2, 60⟩, .take, .fetch,
      .other (.alloc 50 0x5000 100 1 0), .rxcmplt, .turn, .fill 40 0x4000 1500 0, .filled, .turn,
      .fill 60 0 1500 0, .get, .finish]
    (fun s => s.given = [⟨10, 2, 60⟩] ∧ s.posted = [10, 20, 30, 40] ∧ s.lent = [7, 6, 4])
    (by decide +kernel)
  exact ⟨s, hs, (packets_kept RingSpace.slots_sound (by decide) (by decide) r).2.2.1⟩

/-- **The counts and the messages agree with the packet ids**: the buffers out are at most those the
dongle may have and one that is handled, and as many as the host counts when it handles nothing;
and what the dongle will read of a packet is where the id has it mapped. -/
theorem posted_as_mapped {items postMax cplnMax maxRxbufpost : ℕ}
    {rxMetadataOffset rxDataoffset : UInt16} {as : List (Action ρ)} (hπ : π.Sound)
    (hpost : 0 < postMax) (hcpln : 0 < cplnMax)
    (r : Run (step π) (Valid π)
      (init items postMax cplnMax maxRxbufpost rxMetadataOffset rxDataoffset) as s) :
    s.lent.length ≤ maxRxbufpost + 1 ∧ (s.pc = .idle → s.rxbufpost = s.lent.length) ∧
      ∃ unread, s.post.sent = s.post.got ++ unread ∧
        ∀ m ∈ unread, ∃ saved, s.map.book m.requestId = some saved ∧
          m = postMsg rxMetadataOffset m.requestId saved.physaddr saved.len.toUInt32 := by
  obtain ⟨h, hmax, hoff⟩ := r.invariant
    (I := fun s => Inv π s ∧ s.maxRxbufpost = maxRxbufpost ∧ s.rxMetadataOffset = rxMetadataOffset)
    ⟨.init hpost hcpln, rfl, rfl⟩ fun s a s' h hv hs =>
      have hs := step_sound hs
      ⟨h.1.step hπ hv hs, (step_frame hs).1.trans h.2.1, (step_frame hs).2.trans h.2.2⟩
  obtain ⟨unread, unhandled, hplaces, hdesc⟩ := h.places
  have hat := h.atPc
  have hle := h.le
  refine ⟨?_, fun hpc => ?_, unread, hplaces.sent, fun m hm => hoff ▸ hdesc m hm⟩
  · have hone : ∀ b : Bool, b.toNat ≤ 1 := Bool.toNat_le
    rw [AtPc] at hat
    split at hat
    · omega
    · rename_i cmplt _
      have := hone cmplt
      omega
    · rename_i cmplt _
      obtain ⟨c, -, hcount, hi, hmax', -⟩ := hat
      have := hone cmplt
      omega
    · omega
  · rw [AtPc, hpc] at hat
    exact hat.2

/-- One packet is posted and not read. -/
theorem posted_as_mapped_unread :
    ∃ s : RxPath ℕ, s.lent.length = 1 ∧ s.lent.length ≤ 40 + 1 ∧
      ∃ unread, s.post.sent = s.post.got ++ unread ∧
        ∀ m ∈ unread, ∃ saved, s.map.book m.requestId = some saved ∧
          m = postMsg 0 m.requestId saved.physaddr saved.len.toUInt32 := by
  obtain ⟨s, r, hs⟩ := exists_run_of_exec (step ⟨RingSpace.slots, 2, false⟩)
    (Valid ⟨RingSpace.slots, 2, false⟩)
    (init 8 4 4 40 0 0 : RxPath ℕ) [.rxbufPost, .turn, .fill 10 0x1000 1500 0, .filled]
    (fun s => s.lent.length = 1) (by decide +kernel)
  obtain ⟨hle, -, hunread⟩ := posted_as_mapped RingSpace.slots_sound (by decide) (by decide) r
  exact ⟨s, hs, hle, hunread⟩

end RxPath

end Dhd
