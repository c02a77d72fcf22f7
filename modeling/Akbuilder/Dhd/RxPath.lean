import Akbuilder.Dhd.Completion
import Akbuilder.Dhd.PktidMap
import Akbuilder.Dhd.Submission

/-!
# The receive path

The host posts packets to the dongle, each under a packet id, and the dongle sends the ids back in
completions, with what it has received. The host's side is one thread; the packet ids are shared
with the other paths of the driver, which run in other threads.

## Main definitions

* `RxPath`: the packet ids, the two rings, and the counts of the host
* `RxPath.returnRxbuf`, `RxPath.postTurn`, `RxPath.fillTurn`, `RxPath.getTurn`: the host's code,
  from one place where another thread may run to the next
* `RxPath.step`: what the host, the dongle and the other paths do, one step at a time
* `RxPath.Valid`: what is assumed of the dongle and of the other paths

## Main results

* `RxPath.step_sound`: a step is one of the cases of `RxPath.Step`
-/

namespace Dhd

/-- `host_rxbuf_post_t`, with the addresses as high and low words. -/
structure HostRxbufPost where
  requestId : ℕ
  metadataBufLen : UInt16
  dataBufLen : UInt16
  metadataBufAddr : UInt32 × UInt32
  dataBufAddr : UInt32 × UInt32
  deriving DecidableEq, Repr

/-- `host_rxbuf_cmpl_t`, as far as `dhd_prot_rxcmplt_process` needs it. -/
structure HostRxbufCmpl where
  requestId : ℕ
  dataOffset : UInt16
  dataLen : UInt16
  deriving DecidableEq, Repr

/-- A packet on its way up: how much is pulled off its front, and its length. -/
structure RxFrame (ρ : Type) where
  pkt : ρ
  pull : UInt16
  len : UInt16
  deriving DecidableEq, Repr

/-- The macros of the rings, `DMA_RX`, and whether `OSL_CACHE_FLUSH` does nothing. -/
structure RxMacros extends RingSpace where
  dmaRx : UInt8
  coherent : Bool

/-- The receive ring, in which all messages are of one type. -/
def RxMacros.cpln (π : RxMacros) : CplnKind HostRxbufCmpl where
  bad _ := false
  rxCpln := true
  coherent := π.coherent

/-- Where the host is: outside, at the head of the loop of `dhd_msgbuf_rxbuf_post`, in the loop of
`dhd_prot_rxbufpost`, or behind `dhd_prot_return_rxbuf` in `dhd_prot_rxcmplt_process`. The posting
is part of the handling of a completion if `cmplt` says so. -/
inductive RxPc
  | idle
  | post (fillbufs : ℤ) (cnt : ℕ) (cmplt : Bool)
  | fill (cnt : ℕ) (cmplt : Bool)
  | get
  deriving DecidableEq, Repr

/-- The receive path. -/
structure RxPath (ρ : Type) where
  map : PktidMap ρ
  /-- `h2dring_rxp_subn` -/
  post : Submission HostRxbufPost
  /-- `d2hring_rx_cpln` -/
  cpln : Completion HostRxbufCmpl
  rxbufpost : ℕ
  maxRxbufpost : ℕ
  rxMetadataOffset : UInt16
  rxDataoffset : UInt16
  pc : RxPc
  /-- The ids the dongle has read and not sent back. -/
  held : List ℕ
  /-- The ids that packets are posted under. -/
  lent : List ℕ
  /-- The packets posted, in order. -/
  posted : List ρ
  /-- The packets passed up, in order. -/
  given : List (RxFrame ρ)

namespace RxPath

variable {ρ : Type}

/-- `RXBUFPOST_THRESHOLD` -/
def rxbufpostThreshold : ℕ := 32

/-- `RX_BUF_BURST` -/
def rxBufBurst : ℕ := 16

/-- What is kept of a number in an `int16`. -/
def int16 (x : ℤ) : ℤ := x.bmod 65536

/-- The message for a packet that is mapped at `physaddr`. -/
def postMsg (rxMetadataOffset : UInt16) (requestId : ℕ) (physaddr : UInt64) (pktlen : UInt32) :
    HostRxbufPost where
  requestId := requestId
  metadataBufLen := if rxMetadataOffset ≠ 0 then rxMetadataOffset else 0
  dataBufLen := pktlen.toUInt16
  metadataBufAddr :=
    if rxMetadataOffset ≠ 0 then ((physaddr >>> 32).toUInt32, physaddr.toUInt32) else (0, 0)
  dataBufAddr := ((physaddr >>> 32).toUInt32, physaddr.toUInt32 + rxMetadataOffset.toUInt32)

/-- A receive path at its start. -/
def init (items postMax cplnMax maxRxbufpost : ℕ) (rxMetadataOffset rxDataoffset : UInt16) :
    RxPath ρ where
  map := .init items
  post := .init postMax ⟨0, 0, 0, (0, 0), (0, 0)⟩
  cpln := .init cplnMax ⟨0, 0, 0⟩
  rxbufpost := 0
  maxRxbufpost := maxRxbufpost
  rxMetadataOffset := rxMetadataOffset
  rxDataoffset := rxDataoffset
  pc := .idle
  held := []
  lent := []
  posted := []
  given := []

/-- Leaving `dhd_msgbuf_rxbuf_post`. -/
def leave (cmplt : Bool) (s : RxPath ρ) : RxPath ρ :=
  { s with pc := if cmplt then .get else .idle }

/-- Entering `dhd_msgbuf_rxbuf_post`. -/
def rxbufPost (cmplt : Bool) (s : RxPath ρ) : RxPath ρ :=
  { s with pc := .post (int16 (s.maxRxbufpost - s.rxbufpost)) 64 cmplt }

/-- A turn of the loop of `dhd_msgbuf_rxbuf_post`, as far as the claim of `dhd_prot_rxbufpost`. -/
def postTurn (π : RxMacros) (fillbufs : ℤ) (cnt : ℕ) (cmplt : Bool) (s : RxPath ρ) : RxPath ρ :=
  if fillbufs > 0 then
    let cnt := cnt - 1
    if cnt = 0 then s.leave cmplt
    else
      let count := (min fillbufs rxBufBurst).toNat
      let post := s.post.claimStep π.toRingSpace count
      if post.claim = none then { s with post }.leave cmplt
      else { s with post, pc := .fill cnt cmplt }
  else s.leave cmplt

/-- The end of `dhd_prot_rxbufpost`, and of the turn it is part of. -/
def rxbufDone (cnt : ℕ) (cmplt : Bool) (c : Claim) (s : RxPath ρ) : RxPath ρ :=
  let s := { s with post := s.post.completeStep c }
  if c.i > 0 then
    let rxbufpost := s.rxbufpost + c.i
    { s with rxbufpost, pc := .post (int16 (s.maxRxbufpost - rxbufpost)) cnt cmplt }
  else s.leave cmplt

/-- A turn of the loop of `dhd_prot_rxbufpost` for a packet of `PKTGET`, mapped at `physaddr`. -/
def fillTurn (π : RxMacros) (cnt : ℕ) (cmplt : Bool) (c : Claim) (pkt : ρ) (physaddr : UInt64)
    (pktlen : UInt32) (secdma : UInt64) (s : RxPath ρ) : RxPath ρ :=
  if physaddr = 0 then s.rxbufDone cnt cmplt c
  else
    let (requestId, map) := s.map.alloc pkt physaddr pktlen π.dmaRx secdma
    if requestId = 0 then { s with map }.rxbufDone cnt cmplt c
    else
      { s with
        map
        post := s.post.fillStep c (postMsg s.rxMetadataOffset requestId physaddr pktlen)
        lent := s.lent ++ [requestId]
        posted := s.posted ++ [pkt] }

/-- `dhd_prot_return_rxbuf` -/
def returnRxbuf (rxcnt : ℕ) (s : RxPath ρ) : RxPath ρ :=
  let s := { s with rxbufpost := if s.rxbufpost ≥ rxcnt then s.rxbufpost - rxcnt else 0 }
  -- the source subtracts the threshold in `int`
  if s.rxbufpost + rxbufpostThreshold ≤ s.maxRxbufpost then s.rxbufPost true
  else { s with pc := .get }

/-- `dhd_prot_rxcmplt_process` behind `dhd_prot_return_rxbuf`, and the rest of the turn in
`dhd_process_msgtype`. -/
def getTurn (π : RxMacros) (slot n : ℕ) (s : RxPath ρ) : RxPath ρ :=
  let rxcmplt := s.cpln.ring.base slot
  let (saved, map) := s.map.free rxcmplt.requestId
  let pkt := saved.bind Saved.pkt
  -- the message is cleared when there is a packet
  let left := fun rxcmplt => if pkt.isNone then rxcmplt else ⟨0, 0, 0⟩
  let s := { s with
    map
    lent := s.lent.erase rxcmplt.requestId
    cpln := s.cpln.processStep π.cpln left true slot n
    pc := .idle }
  match pkt with
  | none => s
  | some pkt =>
    let pull := if rxcmplt.dataOffset ≠ 0 then rxcmplt.dataOffset else s.rxDataoffset
    { s with given := s.given ++ [⟨pkt, pull, rxcmplt.dataLen⟩] }

/-- What the host, the dongle and the other paths do. -/
inductive Action (ρ : Type)
  /-- `dhd_msgbuf_rxbuf_post` in `dhd_prot_init`. -/
  | rxbufPost
  /-- The head of the loop of `dhd_msgbuf_rxbuf_post`. -/
  | turn
  /-- A packet for the loop of `dhd_prot_rxbufpost`. -/
  | fill (pkt : ρ) (physaddr : UInt64) (pktlen : UInt32) (secdma : UInt64)
  /-- The end of that loop, also when `PKTGET` fails. -/
  | filled
  /-- A batch of completions is fetched. -/
  | fetch
  /-- `d2h_sync_cb` gives a completion up. -/
  | skip
  /-- `dhd_prot_rxcmplt_process` begins. -/
  | rxcmplt
  /-- `dhd_prot_rxcmplt_process` goes on to the packet. -/
  | get
  /-- The end of a batch. -/
  | finish
  /-- The dongle reads a posted buffer. -/
  | take
  /-- The dongle sends a completion. -/
  | complete (rxcmplt : HostRxbufCmpl)
  /-- A call on the packet ids by another path. -/
  | other (op : PktidMap.Op ρ)
  deriving DecidableEq, Repr

/-- **A step.** -/
def step (π : RxMacros) (s : RxPath ρ) : Action ρ → Option (RxPath ρ)
  | .rxbufPost => if s.pc = .idle then some (s.rxbufPost false) else none
  | .turn =>
    match s.pc with
    | .post fillbufs cnt cmplt => some (s.postTurn π fillbufs cnt cmplt)
    | _ => none
  | .fill pkt physaddr pktlen secdma =>
    match s.pc, s.post.claim with
    | .fill cnt cmplt, some c =>
      if c.i < c.alloced then some (s.fillTurn π cnt cmplt c pkt physaddr pktlen secdma) else none
    | _, _ => none
  | .filled =>
    match s.pc, s.post.claim with
    | .fill cnt cmplt, some c => some (s.rxbufDone cnt cmplt c)
    | _, _ => none
  | .fetch =>
    if s.pc = .idle ∧ s.cpln.batch = none then
      some { s with cpln := s.cpln.fetchStep π.toRingSpace π.cpln }
    else none
  | .skip =>
    match s.pc, s.cpln.batch with
    | .idle, some (slot, n + 1) =>
      some { s with cpln := s.cpln.processStep π.cpln id false slot n }
    | _, _ => none
  | .rxcmplt =>
    match s.pc, s.cpln.batch with
    | .idle, some (_, _ + 1) => some (s.returnRxbuf 1)
    | _, _ => none
  | .get =>
    match s.pc, s.cpln.batch with
    | .get, some (slot, n + 1) => some (s.getTurn π slot n)
    | _, _ => none
  | .finish =>
    match s.pc, s.cpln.batch with
    | .idle, some (slot, 0) => some { s with cpln := s.cpln.finishStep π.cpln slot }
    | _, _ => none
  | .take =>
    if s.post.ring.rShared = s.post.ring.wShared then none
    else
      some { s with
        post := s.post.takeStep
        held := s.held ++ [(s.post.ring.mem s.post.ring.rShared).requestId] }
  | .complete rxcmplt =>
    let ring := s.cpln.ring
    if Ring.apart ring.rShared ring.wShared ring.maxItem + 1 < ring.maxItem then
      some { s with cpln := s.cpln.writeStep rxcmplt, held := s.held.erase rxcmplt.requestId }
    else none
  | .other op => some { s with map := (op.run s.map).2 }

/-- A call of another path leaves the ids in `lent` alone. -/
def Spares (lent : List ℕ) : PktidMap.Op ρ → Prop
  | .save _ nkey _ _ _ _ | .free nkey => nkey ∉ lent
  | .reserve _ | .alloc _ _ _ _ _ => True
  | .clear => False

/-- **What is assumed**: the dongle completes buffers that it holds, and keeps off the completions
that are still to be flushed; and the other paths free and save only ids that they have taken
themselves. -/
def Valid (π : RxMacros) (s : RxPath ρ) : Action ρ → Prop
  | .complete rxcmplt => rxcmplt.requestId ∈ s.held ∧ s.cpln.KeepsOff π.cpln (.write rxcmplt)
  | .other op => PktidMap.Valid ([], s.map) op ∧ Spares s.lent op
  | _ => True

instance [DecidableEq ρ] (lent : List ℕ) : ∀ op : PktidMap.Op ρ, Decidable (Spares lent op)
  | .save _ nkey _ _ _ _ | .free nkey => inferInstanceAs (Decidable (nkey ∉ lent))
  | .reserve _ | .alloc _ _ _ _ _ => isTrue trivial
  | .clear => isFalse id

instance [DecidableEq ρ] (π : RxMacros) (s : RxPath ρ) : ∀ a : Action ρ, Decidable (Valid π s a)
  | .complete rxcmplt => inferInstanceAs (Decidable (rxcmplt.requestId ∈ s.held ∧ _))
  | .other op => inferInstanceAs (Decidable (PktidMap.Valid ([], s.map) op ∧ Spares s.lent op))
  | .rxbufPost | .turn | .fill _ _ _ _ | .filled | .fetch | .skip | .rxcmplt | .get | .finish
  | .take => isTrue trivial

/-- **The cases of a step.** -/
inductive Step (π : RxMacros) (s : RxPath ρ) : Action ρ → RxPath ρ → Prop
  | rxbufPost (hpc : s.pc = .idle) : Step π s .rxbufPost (s.rxbufPost false)
  | turn {fillbufs : ℤ} {cnt : ℕ} {cmplt : Bool} (hpc : s.pc = .post fillbufs cnt cmplt) :
      Step π s .turn (s.postTurn π fillbufs cnt cmplt)
  | fill {cnt : ℕ} {cmplt : Bool} {c : Claim} {pkt : ρ} {physaddr : UInt64} {pktlen : UInt32}
      {secdma : UInt64} (hpc : s.pc = .fill cnt cmplt) (hc : s.post.claim = some c)
      (hi : c.i < c.alloced) :
      Step π s (.fill pkt physaddr pktlen secdma)
        (s.fillTurn π cnt cmplt c pkt physaddr pktlen secdma)
  | filled {cnt : ℕ} {cmplt : Bool} {c : Claim} (hpc : s.pc = .fill cnt cmplt)
      (hc : s.post.claim = some c) : Step π s .filled (s.rxbufDone cnt cmplt c)
  | fetch (hpc : s.pc = .idle) (hb : s.cpln.batch = none) :
      Step π s .fetch { s with cpln := s.cpln.fetchStep π.toRingSpace π.cpln }
  | skip {slot n : ℕ} (hpc : s.pc = .idle) (hb : s.cpln.batch = some (slot, n + 1)) :
      Step π s .skip { s with cpln := s.cpln.processStep π.cpln id false slot n }
  | rxcmplt {slot n : ℕ} (hpc : s.pc = .idle) (hb : s.cpln.batch = some (slot, n + 1)) :
      Step π s .rxcmplt (s.returnRxbuf 1)
  | get {slot n : ℕ} (hpc : s.pc = .get) (hb : s.cpln.batch = some (slot, n + 1)) :
      Step π s .get (s.getTurn π slot n)
  | finish {slot : ℕ} (hpc : s.pc = .idle) (hb : s.cpln.batch = some (slot, 0)) :
      Step π s .finish { s with cpln := s.cpln.finishStep π.cpln slot }
  | take (hne : s.post.ring.rShared ≠ s.post.ring.wShared) :
      Step π s .take
        { s with
          post := s.post.takeStep
          held := s.held ++ [(s.post.ring.mem s.post.ring.rShared).requestId] }
  | complete {rxcmplt : HostRxbufCmpl}
      (hlt : Ring.apart s.cpln.ring.rShared s.cpln.ring.wShared s.cpln.ring.maxItem + 1 <
        s.cpln.ring.maxItem) :
      Step π s (.complete rxcmplt)
        { s with cpln := s.cpln.writeStep rxcmplt, held := s.held.erase rxcmplt.requestId }
  | other {op : PktidMap.Op ρ} : Step π s (.other op) { s with map := (op.run s.map).2 }

theorem step_sound {π : RxMacros} {s s' : RxPath ρ} {a : Action ρ} (h : step π s a = some s') :
    Step π s a s' := by
  cases a with
  | rxbufPost =>
    simp only [step] at h
    split_ifs at h with hpc
    obtain rfl := Option.some.inj h
    exact .rxbufPost hpc
  | turn =>
    simp only [step] at h
    split at h
    · rename_i hpc
      obtain rfl := Option.some.inj h
      exact .turn hpc
    · cases h
  | fill pkt physaddr pktlen secdma =>
    simp only [step] at h
    split at h
    · rename_i hpc hc
      split_ifs at h with hi
      obtain rfl := Option.some.inj h
      exact .fill hpc hc hi
    · cases h
  | filled =>
    simp only [step] at h
    split at h
    · rename_i hpc hc
      obtain rfl := Option.some.inj h
      exact .filled hpc hc
    · cases h
  | fetch =>
    simp only [step] at h
    split_ifs at h with hpc
    obtain rfl := Option.some.inj h
    exact .fetch hpc.1 hpc.2
  | skip =>
    simp only [step] at h
    split at h
    · rename_i hpc hb
      obtain rfl := Option.some.inj h
      exact .skip hpc hb
    · cases h
  | rxcmplt =>
    simp only [step] at h
    split at h
    · rename_i hpc hb
      obtain rfl := Option.some.inj h
      exact .rxcmplt hpc hb
    · cases h
  | get =>
    simp only [step] at h
    split at h
    · rename_i hpc hb
      obtain rfl := Option.some.inj h
      exact .get hpc hb
    · cases h
  | finish =>
    simp only [step] at h
    split at h
    · rename_i hpc hb
      obtain rfl := Option.some.inj h
      exact .finish hpc hb
    · cases h
  | take =>
    simp only [step] at h
    split_ifs at h with hne
    obtain rfl := Option.some.inj h
    exact .take hne
  | complete rxcmplt =>
    simp only [step] at h
    split_ifs at h with hlt
    obtain rfl := Option.some.inj h
    exact .complete hlt
  | other op =>
    obtain rfl := Option.some.inj h
    exact .other

end RxPath

end Dhd
