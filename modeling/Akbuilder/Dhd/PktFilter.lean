import Akbuilder.Lib.CText
import Akbuilder.Lib.Codec
import Akbuilder.Lib.Memory

/-!
# Adding a packet filter

`dhd_pktfilter_offload_set` reads a packet filter from a text and sends it to the dongle as the
`pkt_filter_add` variable. It parses the masks and patterns straight into the ioctl buffer, behind
headers that it fills in last. Bytes outside the buffer and entries past the end of `argv` are
undefined behaviour, and are faults here.

## Main definitions

* `Headers`: what the headers of the dongle interface define
* `wlPatternAtoh`, `patternOffset`: the parsers of masks, patterns and offsets
* `setPattern`, `patternList`: the filter types with one pattern, and with a list of them
* `dhdPktfilterOffloadSet`: the function, with the ioctls it sends
-/

open CText

namespace Dhd

/-- The layouts and the table that `wlioctl.h` defines. The encodings carry the offsets of the
flexible arrays as their sizes. -/
structure Headers where
  /-- `WL_PKT_FILTER_BASE_NAMES` -/
  basenames : List (Text × UInt16)
  /-- `id`, `type` and `negate_match`; `WL_PKT_FILTER_FIXED_LEN` -/
  filter : Codec (UInt32 × UInt32 × UInt32)
  /-- `offset` and `size_bytes`; `WL_PKT_FILTER_PATTERN_FIXED_LEN` -/
  pattern : Codec (UInt32 × UInt32)
  /-- `list_cnt`, `PAD1` and `totsize`; `WL_PKT_FILTER_PATTERN_LIST_FIXED_LEN` -/
  patlist : Codec (UInt8 × UInt8 × UInt16)
  /-- `rel_offs`, `base_offs`, `size_bytes` and `match_flags`;
  `WL_PKT_FILTER_PATTERN_LISTEL_FIXED_LEN` -/
  listel : Codec (UInt16 × UInt16 × UInt16 × UInt16)
  /-- `WL_PKT_FILTER_MFLAG_NEG` -/
  mflagNeg : UInt16
  filter_size : filter.size = 12
  pattern_size : pattern.size = 8
  patlist_size : patlist.size = 4
  listel_size : listel.size = 8
  mflagNeg_ne_zero : mflagNeg ≠ 0
  basenames_head : ∀ p ∈ basenames, ∃ c cs, p.1 = c :: cs ∧ c.isDigit = false

/-- Undefined behaviour. -/
inductive Fault
  | argvOverflow
  | outOfBounds
  deriving DecidableEq, Repr

/-- The ways out before the ioctl: `goto fail`, or a fault. -/
inductive Exit
  | fail
  | fault (f : Fault)
  deriving DecidableEq, Repr

/-- What a call comes to: the buffers it gave to `WLC_SET_VAR`, up to `buf_len`. -/
inductive Outcome
  | undefined (f : Fault)
  | returned (ioctls : List (List UInt8))
  deriving DecidableEq, Repr

/-- `BUF_SIZE`. -/
abbrev bufSize : ℕ := 2048

/-- The entries of `argv`. -/
abbrev argvSize : ℕ := 16

/-- The conversion of an `unsigned long` to `int`. -/
def toInt (v : UInt64) : ℤ := (v.toNat : ℤ).bmod (2 ^ 32)

/-- The bytes `bytes` go to the buffer. -/
def store (buf : Memory) (dst : ℕ) (bytes : List UInt8) : Except Exit Memory :=
  if bytes = [] ∨ dst + bytes.length ≤ bufSize then .ok (buf.write dst bytes)
  else .error (.fault .outOfBounds)

/-- The next entry of `argv`, unless it is `NULL`. -/
def nextArg : List Text → Except Exit (Text × List Text)
  | [] => .error .fail
  | arg :: args => .ok (arg, args)

/-! ## Parsers -/

/-- Two characters at a time, each pair through `strtoul`. -/
def atohPairs : Text → List UInt8
  | a :: b :: cs => (strtoul 16 [a, b]).1.toUInt8 :: atohPairs cs
  | _ => []

/-- What `wl_pattern_atoh` writes, unless it returns -1. -/
def atohBytes : Text → Option (List UInt8)
  | z :: x :: cs =>
    if z = '0' ∧ (x = 'x' ∨ x = 'X') ∧ cs.length % 2 = 0 then some (atohPairs cs) else none
  | _ => none

/-- `wl_pattern_atoh`. -/
def wlPatternAtoh (buf : Memory) (src : Text) (dst : ℕ) : Except Exit (Memory × ℤ) :=
  match atohBytes src with
  | none => .ok (buf, -1)
  | some bytes => do
    let buf ← store buf dst bytes
    return (buf, bytes.length)

section Parse

variable (h : Headers)

/-- `wl_pkt_filter_base_parse`. -/
def wlPktFilterBaseParse (name : Text) : ℤ :=
  match h.basenames.find? fun p => p.1 = name.map Char.toUpper with
  | some p => p.2.toNat
  | none => -1

/-- The number or name in front of an offset: `rc` and `endptr`, or `none` where the list path
gives up. -/
def patternBase (arg : Text) : Option (ℤ × Text) :=
  if arg.head?.any Char.isDigit then
    let (value, endptr) := strtoul 0 arg
    some (toInt value, endptr)
  else if ':' ∈ arg then
    -- the colon is overwritten while the name is looked up
    let rc := wlPktFilterBaseParse h (arg.takeWhile (· ≠ ':'))
    if rc = -1 then none else some (rc, arg.dropWhile (· ≠ ':'))
  else none

/-- `base_offs` and `rel_offs` of a list element. -/
def patternOffset (arg : Text) : Option (UInt16 × UInt16) := do
  let (rc, endptr) ← patternBase h arg
  let (baseOffs, rc, endptr) :=
    if endptr.head? = some ':' then
      -- the base is stored unchecked
      let (value, rest) := strtoul 0 endptr.tail
      (UInt16.ofInt rc, toInt value, rest)
    else (0, rc, endptr)
  if endptr ≠ [] then none
  -- a signed comparison, with no lower bound
  else if rc > 0xFFFF then none
  else some (baseOffs, UInt16.ofInt rc)

end Parse

/-! ## Encoders -/

/-- The name of the variable, with its NUL. -/
def pktFilterAdd : List UInt8 := "pkt_filter_add".toList.map (fun c => UInt8.ofNat c.toNat) ++ [0]

theorem length_pktFilterAdd : pktFilterAdd.length = 15 := rfl

section Encode

variable (h : Headers)

/-- `pkt_filterp`. -/
abbrev pktFilterp : ℕ := pktFilterAdd.length

/-- `pkt_filterp->u.pattern.mask_and_pattern`. -/
def maskAndPattern : ℕ := pktFilterp + h.filter.size + h.pattern.size

/-- `pkt_filterp->u.patlist.patterns`. -/
def patterns : ℕ := pktFilterp + h.filter.size + h.patlist.size

/-- Filter types 0 and 1: the buffer, and `buf_len`. A mask that `wl_pattern_atoh` refuses has the
size 2^32 - 1. -/
def setPattern (buf : Memory) (id polarity type : UInt32) (args : List Text) :
    Except Exit (Memory × UInt32) := do
  let (offset, args) ← nextArg args
  let (mask, args) ← nextArg args
  -- neither size is tested for -1
  let (buf, rc) ← wlPatternAtoh buf mask (maskAndPattern h)
  let maskSize := UInt32.ofInt rc
  let (pattern, _) ← nextArg args
  let (buf, rc) ← wlPatternAtoh buf pattern (maskAndPattern h + maskSize.toNat)
  if maskSize ≠ UInt32.ofInt rc then .error .fail
  else
    let buf ← store buf pktFilterp (h.filter.enc (id, type, polarity) ++
      h.pattern.enc ((strtoul 0 offset).1.toUInt32, maskSize))
    return (buf, UInt32.ofNat (pktFilterp + h.filter.size) +
      (UInt32.ofNat h.pattern.size + 2 * maskSize))

/-- The variables of the loop over list elements. -/
structure ListState where
  buf : Memory
  bufLen : UInt32
  pfEl : ℕ
  listCnt : ℕ

/-- A pattern without the `!` in front of it. -/
def dropNot (pattern : Text) : Text := if pattern.head? = some '!' then pattern.tail else pattern

/-- `match_flags` of a pattern. -/
def matchFlags (pattern : Text) : UInt16 := if pattern.head? = some '!' then h.mflagNeg else 0

/-- The second half of a list element: its pattern, `rc` bytes after the start of its mask, and its
fields. -/
def putListel (s : ListState) (buf : Memory) (offs : UInt16 × UInt16) (rc : ℤ) (pattern : Text) :
    Except Exit ListState := do
  let maskSize := UInt32.ofInt rc
  let (buf, rc) ← wlPatternAtoh buf (dropNot pattern) (s.pfEl + h.listel.size + rc.toNat)
  if rc = -1 then .error .fail
  else if maskSize ≠ UInt32.ofInt rc then .error .fail
  else
    let fields := (offs.2, offs.1, maskSize.toUInt16, matchFlags h pattern)
    -- the number of bytes copied is `WL_PKT_FILTER_PATTERN_FIXED_LEN`
    let buf ← store buf s.pfEl ((h.listel.enc fields).take h.pattern.size)
    let len := h.listel.size + 2 * rc.toNat
    return ⟨buf, s.bufLen + UInt32.ofNat len, s.pfEl + len, s.listCnt + 1⟩

/-- The loop over list elements. -/
def patternList : ListState → List Text → Except Exit ListState
  | s, [] => .ok s
  | s, arg :: args =>
    match patternOffset h arg, args with
    | none, _ | some _, [] => .error .fail
    | some offs, mask :: args => do
      let (buf, rc) ← wlPatternAtoh s.buf mask (s.pfEl + h.listel.size)
      if rc = -1 then .error .fail
      else
        match args with
        | [] => .error .fail
        | pattern :: args =>
          let s ← putListel h s buf offs rc pattern
          patternList s args

/-- Filter types 2 and 6. -/
def setPatternList (buf : Memory) (id polarity type : UInt32) (args : List Text) :
    Except Exit (Memory × UInt32) := do
  let s ← patternList h ⟨buf, UInt32.ofNat pktFilterp, patterns h, 0⟩ args
  let bufLen := s.bufLen + UInt32.ofNat (h.filter.size + h.patlist.size)
  let totsize := (bufLen - UInt32.ofNat pktFilterp).toUInt16 - UInt16.ofNat h.filter.size
  let buf ← store s.buf pktFilterp (h.filter.enc (id, type, polarity) ++
    h.patlist.enc (UInt8.ofNat s.listCnt, 0, totsize))
  return (buf, bufLen)

/-- What depends on the filter type. -/
def setFilter (buf : Memory) (id polarity type : UInt32) (args : List Text) :
    Except Exit (Memory × UInt32) :=
  if type = 0 ∨ type = 1 then setPattern h buf id polarity type args
  else if type = 2 ∨ type = 6 then setPatternList h buf id polarity type args
  else .error .fail

/-! ## The function -/

variable (delPktFilter : UInt32 → ℤ)

/-- What becomes of the entries of `argv`: the buffer that is sent. `delPktFilter` is
`dhd_conf_del_pkt_filter`. -/
def offload (args : List Text) : Except Exit (List UInt8) := do
  let (id, args) ← nextArg args
  let buf ← store (fun _ => 0) 0 pktFilterAdd
  let id := (strtoul 0 id).1.toUInt32
  if delPktFilter id ≠ 0 then .error .fail
  else
    let (polarity, args) ← nextArg args
    let polarity := (strtoul 0 polarity).1.toUInt32
    let (type, args) ← nextArg args
    let type := (strtoul 0 type).1.toUInt32
    let (buf, bufLen) ← setFilter h buf id polarity type args
    return buf.read 0 bufLen.toNat

/-- What the way out comes to. -/
def outcome : Except Exit (List UInt8) → Outcome
  | .ok payload => .returned [payload]
  | .error .fail => .returned []
  | .error (.fault f) => .undefined f

/-- `dhd_pktfilter_offload_set`. -/
def dhdPktfilterOffloadSet (arg : Text) : Outcome :=
  if arg.length > bufSize then .returned []
  else if argvSize ≤ (tokens arg).length then .undefined .argvOverflow
  else outcome (offload h delPktFilter (tokens arg))

end Encode

end Dhd
