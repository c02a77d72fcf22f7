import Akbuilder.Dhd.Encoding
import Akbuilder.Lib.Logged

/-!
# The memory that `dhd_pktfilter_offload_set` accesses

The function again, with the index into `argv` that it works with and a log of its accesses: the
entries of `argv` that it writes and reads, the bytes of the ioctl buffer that it writes, and the
values of `buf_len`. No access is refused here, so an access outside of its object is in the log
like any other.

## Main definitions

* `Access`: the accesses
* `accesses`: the log of a call

## Main results

* `stopped_offload`: stopped at a store out of bounds, it is the function without a log
-/

open CText

namespace Dhd

/-! ## Accesses -/

/-- The accesses of a call. -/
inductive Access
  /-- `argv[i]` is written. -/
  | argvWrite (i : ℕ)
  /-- `argv[i]` is read. Only the first read of an entry that is tested and then used is here. -/
  | argvRead (i : ℕ)
  /-- `len` bytes are written from `buf + dst` on. -/
  | bufWrite (dst len : ℕ)
  /-- `buf_len` is set. -/
  | bufLen (n : ℕ)
  deriving DecidableEq, Repr

/-! ## The function -/

/-- A part of the function. -/
abbrev Traced (α : Type) := Logged Access Exit α

namespace Traced

open Logged

/-- The loop over the tokens, from the entry `i` on. The loop reads an entry to see whether it is
the last one. -/
def fillArgv (i : ℕ) : List Text → List Access
  | [] => [.argvWrite i, .argvRead i]
  | _ :: toks => .argvWrite i :: .argvRead i :: fillArgv (i + 1) toks

/-- The bytes `bytes` go to the buffer. -/
def store (buf : Memory) (dst : ℕ) (bytes : List UInt8) : Traced Memory := do
  access (.bufWrite dst bytes.length)
  return buf.write dst bytes

/-- The entry `i` of `argv`, unless it is `NULL`. -/
def nextArg (i : ℕ) (args : List Text) : Traced (Text × List Text) := do
  access (.argvRead i)
  match args with
  | [] => exit .fail
  | arg :: args => return (arg, args)

/-- `wl_pattern_atoh`. -/
def wlPatternAtoh (buf : Memory) (src : Text) (dst : ℕ) : Traced (Memory × ℤ) :=
  match atohBytes src with
  | none => return (buf, -1)
  | some bytes => do
    let buf ← store buf dst bytes
    return (buf, bytes.length)

section Encode

variable (h : Headers)

/-- Filter types 0 and 1, with the offset in the entry `i`. -/
def setPattern (i : ℕ) (buf : Memory) (id polarity type : UInt32) (args : List Text) :
    Traced (Memory × UInt32) := do
  let (offset, args) ← nextArg i args
  let (mask, args) ← nextArg (i + 1) args
  let (buf, rc) ← wlPatternAtoh buf mask (maskAndPattern h)
  let maskSize := UInt32.ofInt rc
  let (pattern, _) ← nextArg (i + 2) args
  let (buf, rc) ← wlPatternAtoh buf pattern (maskAndPattern h + maskSize.toNat)
  if maskSize ≠ UInt32.ofInt rc then exit .fail
  else
    let bufLen := UInt32.ofNat (pktFilterp + h.filter.size)
    access (.bufLen bufLen.toNat)
    let bufLen := bufLen + (UInt32.ofNat h.pattern.size + 2 * maskSize)
    access (.bufLen bufLen.toNat)
    let buf ← store buf pktFilterp (h.filter.enc (id, type, polarity) ++
      h.pattern.enc ((strtoul 0 offset).1.toUInt32, maskSize))
    return (buf, bufLen)

/-- A pattern without the `!` in front of it, which is dropped from the entry `i`. -/
def dropNot (i : ℕ) (pattern : Text) : Traced Text :=
  if pattern.head? = some '!' then do
    access (.argvWrite i)
    return pattern.tail
  else return pattern

/-- The second half of a list element, with its pattern in the entry `i`. -/
def putListel (i : ℕ) (s : ListState) (buf : Memory) (offs : UInt16 × UInt16) (rc : ℤ)
    (pattern : Text) : Traced ListState := do
  let maskSize := UInt32.ofInt rc
  let data ← dropNot i pattern
  let (buf, rc) ← wlPatternAtoh buf data (s.pfEl + h.listel.size + rc.toNat)
  if rc = -1 then exit .fail
  else if maskSize ≠ UInt32.ofInt rc then exit .fail
  else
    let fields := (offs.2, offs.1, maskSize.toUInt16, matchFlags h pattern)
    let len := h.listel.size + 2 * rc.toNat
    let bufLen := s.bufLen + UInt32.ofNat len
    access (.bufLen bufLen.toNat)
    let buf ← store buf s.pfEl ((h.listel.enc fields).take h.pattern.size)
    return ⟨buf, bufLen, s.pfEl + len, s.listCnt + 1⟩

/-- The loop over list elements, from the entry `i` on. -/
def patternList : ℕ → ListState → List Text → Traced ListState
  | i, s, [] => do
    access (.argvRead i)
    return s
  | i, s, arg :: args => do
    access (.argvRead i)
    match patternOffset h arg with
    | none => exit .fail
    | some offs =>
      access (.argvRead (i + 1))
      match args with
      | [] => exit .fail
      | mask :: args =>
        let (buf, rc) ← wlPatternAtoh s.buf mask (s.pfEl + h.listel.size)
        if rc = -1 then exit .fail
        else
          access (.argvRead (i + 2))
          match args with
          | [] => exit .fail
          | pattern :: args =>
            let s ← putListel h (i + 2) s buf offs rc pattern
            patternList (i + 3) s args

/-- Filter types 2 and 6, with the list from the entry `i` on. -/
def setPatternList (i : ℕ) (buf : Memory) (id polarity type : UInt32) (args : List Text) :
    Traced (Memory × UInt32) := do
  let s ← patternList h i ⟨buf, UInt32.ofNat pktFilterp, patterns h, 0⟩ args
  let bufLen := s.bufLen + UInt32.ofNat (h.filter.size + h.patlist.size)
  access (.bufLen bufLen.toNat)
  let totsize := (bufLen - UInt32.ofNat pktFilterp).toUInt16 - UInt16.ofNat h.filter.size
  let buf ← store s.buf pktFilterp (h.filter.enc (id, type, polarity) ++
    h.patlist.enc (UInt8.ofNat s.listCnt, 0, totsize))
  return (buf, bufLen)

/-- What depends on the filter type. -/
def setFilter (i : ℕ) (buf : Memory) (id polarity type : UInt32) (args : List Text) :
    Traced (Memory × UInt32) :=
  if type = 0 ∨ type = 1 then setPattern h i buf id polarity type args
  else if type = 2 ∨ type = 6 then setPatternList h i buf id polarity type args
  else exit .fail

variable (delPktFilter : UInt32 → ℤ)

/-- What becomes of the entries of `argv`. -/
def offload (args : List Text) : Traced (List UInt8) := do
  let (id, args) ← nextArg 0 args
  let buf ← store (fun _ => 0) 0 pktFilterAdd
  access (.bufLen pktFilterp)
  let id := (strtoul 0 id).1.toUInt32
  if delPktFilter id ≠ 0 then exit .fail
  else
    let (polarity, args) ← nextArg 1 args
    let polarity := (strtoul 0 polarity).1.toUInt32
    let (type, args) ← nextArg 2 args
    let type := (strtoul 0 type).1.toUInt32
    let (buf, bufLen) ← setFilter h 3 buf id polarity type args
    return buf.read 0 bufLen.toNat

end Encode

end Traced

section Accesses

variable (h : Headers) (delPktFilter : UInt32 → ℤ)

/-- **The accesses of `dhd_pktfilter_offload_set`.** -/
def accesses (arg : Text) : List Access :=
  -- `memset`
  .bufWrite 0 bufSize ::
    if arg.length > bufSize then []
    else Traced.fillArgv 0 (tokens arg) ++ (Traced.offload h delPktFilter (tokens arg)).log

end Accesses

/-! ## The function without its log -/

namespace Traced

open Logged

variable {h : Headers}

/-- The stores that stay in the buffer. -/
def stores : Access → Bool
  | .bufWrite dst len => len = 0 ∨ dst + len ≤ bufSize
  | _ => true

/-- A part of the function, stopped at a store out of bounds. -/
abbrev stopped {α : Type} (x : Traced α) : Except Exit α := x.checked stores (.fault .outOfBounds)

theorem stopped_bind {α β : Type} (x : Traced α) (f : α → Traced β) :
    stopped (x >>= f) = stopped x >>= fun v => stopped (f v) := checked_bind ..

theorem stopped_ite {α : Type} (c : Prop) [Decidable c] (x y : Traced α) :
    stopped (if c then x else y) = if c then stopped x else stopped y := by
  split <;> rfl

theorem stopped_exit {α : Type} (e : Exit) : stopped (exit e : Traced α) = .error e := rfl

theorem stopped_pure {α : Type} (v : α) : stopped (pure v : Traced α) = pure v := rfl

theorem stopped_argvRead (i : ℕ) : stopped (access (.argvRead i)) = .ok () := rfl

theorem stopped_bufLen (n : ℕ) : stopped (access (.bufLen n)) = .ok () := rfl

theorem stopped_store (buf : Memory) (dst : ℕ) (bytes : List UInt8) :
    stopped (store buf dst bytes) = Dhd.store buf dst bytes := by
  simp [stopped, store, Dhd.store, stores]

theorem stopped_nextArg (i : ℕ) (args : List Text) :
    stopped (nextArg i args) = Dhd.nextArg args := by
  cases args <;> rfl

theorem stopped_wlPatternAtoh (buf : Memory) (src : Text) (dst : ℕ) :
    stopped (wlPatternAtoh buf src dst) = Dhd.wlPatternAtoh buf src dst := by
  rw [wlPatternAtoh, Dhd.wlPatternAtoh]
  cases atohBytes src with
  | none => rfl
  | some bytes =>
    simp only [stopped_bind, stopped_store]
    rfl

theorem stopped_setPattern (i : ℕ) (buf : Memory) (id polarity type : UInt32) (args : List Text) :
    stopped (setPattern h i buf id polarity type args) =
      Dhd.setPattern h buf id polarity type args := by
  unfold setPattern Dhd.setPattern
  simp only [stopped_bind, stopped_nextArg, stopped_wlPatternAtoh, stopped_ite, stopped_exit,
    stopped_bufLen, ok_bind, stopped_store, stopped_pure]

theorem stopped_dropNot (i : ℕ) (pattern : Text) :
    stopped (dropNot i pattern) = .ok (Dhd.dropNot pattern) := by
  unfold dropNot Dhd.dropNot
  split <;> rfl

theorem stopped_putListel (i : ℕ) (s : ListState) (buf : Memory) (offs : UInt16 × UInt16) (rc : ℤ)
    (pattern : Text) :
    stopped (putListel h i s buf offs rc pattern) = Dhd.putListel h s buf offs rc pattern := by
  unfold putListel Dhd.putListel
  simp only [stopped_bind, stopped_dropNot, ok_bind, stopped_wlPatternAtoh, stopped_ite,
    stopped_exit, stopped_bufLen, stopped_store, stopped_pure]

theorem patternList_eq (i : ℕ) (s : ListState) (arg mask data : Text) (args : List Text) :
    patternList h i s (arg :: mask :: data :: args) =
      access (.argvRead i) >>= fun _ =>
      match patternOffset h arg with
      | none => exit .fail
      | some offs => access (.argvRead (i + 1)) >>= fun _ =>
        wlPatternAtoh s.buf mask (s.pfEl + h.listel.size) >>= fun r =>
        if r.2 = -1 then exit .fail
        else access (.argvRead (i + 2)) >>= fun _ =>
          putListel h (i + 2) s r.1 offs r.2 data >>= fun s => patternList h (i + 3) s args := by
  rw [patternList.eq_def]

theorem stopped_patternList : ∀ (i : ℕ) (s : ListState) (args : List Text),
    stopped (patternList h i s args) = Dhd.patternList h s args
  | i, s, [] => rfl
  | i, s, [arg] => by
    unfold patternList Dhd.patternList
    cases patternOffset h arg <;> rfl
  | i, s, [arg, mask] => by
    unfold patternList Dhd.patternList
    cases patternOffset h arg with
    | none => rfl
    | some offs =>
      simp only [stopped_bind, stopped_argvRead, ok_bind, stopped_wlPatternAtoh, stopped_ite,
        stopped_exit]
  | i, s, arg :: mask :: data :: args => by
    rw [patternList_eq, Dhd.patternList_eq]
    cases patternOffset h arg with
    | none => rfl
    | some offs =>
      -- three tokens are taken in each round, so the induction is on what is left
      have ih (s) : stopped (patternList h (i + 3) s args) = Dhd.patternList h s args :=
        stopped_patternList (i + 3) s args
      simp only [stopped_bind, stopped_argvRead, ok_bind, stopped_wlPatternAtoh, stopped_ite,
        stopped_exit, stopped_putListel, ih]

theorem stopped_setPatternList (i : ℕ) (buf : Memory) (id polarity type : UInt32)
    (args : List Text) : stopped (setPatternList h i buf id polarity type args) =
      Dhd.setPatternList h buf id polarity type args := by
  unfold setPatternList Dhd.setPatternList
  simp only [stopped_bind, stopped_patternList, stopped_bufLen, ok_bind, stopped_store,
    stopped_pure]

theorem stopped_setFilter (i : ℕ) (buf : Memory) (id polarity type : UInt32) (args : List Text) :
    stopped (setFilter h i buf id polarity type args) =
      Dhd.setFilter h buf id polarity type args := by
  simp only [setFilter, Dhd.setFilter, stopped_ite, stopped_setPattern, stopped_setPatternList,
    stopped_exit]

/-- **Stopped at a store out of bounds**, the function with its log is the function. -/
theorem stopped_offload (delPktFilter : UInt32 → ℤ) (args : List Text) :
    stopped (offload h delPktFilter args) = Dhd.offload h delPktFilter args := by
  unfold offload Dhd.offload
  simp only [stopped_bind, stopped_nextArg, stopped_store, stopped_bufLen, ok_bind, stopped_ite,
    stopped_exit, stopped_setFilter, stopped_pure]

end Traced

end Dhd
