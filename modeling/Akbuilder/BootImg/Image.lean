import Akbuilder.Lib.Codec
import Mathlib.Data.List.Infix
import Mathlib.Data.List.TakeWhile

/-!
# Boot images

A boot image begins with a page for its header. The kernel, the ramdisk, the second stage and the
device tree follow, each filled up to whole pages. `mkbootimg` puts an image together from files
and options; for MTK devices it gives the kernel and the ramdisk headers of their own.

## Main definitions

* `BootImgHdr`, `hdrStruct`: the header and its layout
* `Options`, `contents`: what the options say, and the files that are loaded for them
* `image`, `mkbootimg`: the bytes of an image

## Main results

* `contents_eq_ok`: which options are accepted
* `length_header_page`: the header takes up one page
-/

namespace BootImg

/-! ## The header -/

abbrev Bytes (n : ℕ) := {bs : List UInt8 // bs.length = n}

theorem length_field (n : ℕ) (bs : List UInt8) :
    ((bs ++ List.replicate n 0).take n).length = n := by
  simp

/-- `bs` in a field of `n` bytes that were zero. -/
def field (n : ℕ) (bs : List UInt8) : Bytes n :=
  ⟨(bs ++ List.replicate n 0).take n, length_field n bs⟩

/-- An argument of the program. -/
abbrev CString := {s : List UInt8 // 0 ∉ s}

/-- The string at the beginning of a field. -/
def asString (bs : List UInt8) : List UInt8 := bs.takeWhile (· ≠ 0)

/-- `boot_img_hdr` -/
structure BootImgHdr where
  magic : Bytes 8
  kernelSize : UInt32
  kernelAddr : UInt32
  ramdiskSize : UInt32
  ramdiskAddr : UInt32
  secondSize : UInt32
  secondAddr : UInt32
  tagsAddr : UInt32
  pageSize : UInt32
  dtSize : UInt32
  unused : UInt32
  name : Bytes 16
  cmdline : Bytes 512
  id : Bytes 32
  extraCmdline : Bytes 1024
  deriving DecidableEq

/-- The layout of the header, which is packed. -/
def hdrStruct : Codec BootImgHdr :=
  ((Codec.bytes 8).prod <| Codec.uint32.prod <| Codec.uint32.prod <| Codec.uint32.prod <|
    Codec.uint32.prod <| Codec.uint32.prod <| Codec.uint32.prod <| Codec.uint32.prod <|
    Codec.uint32.prod <| Codec.uint32.prod <| Codec.uint32.prod <| (Codec.bytes 16).prod <|
    (Codec.bytes 512).prod <| (Codec.bytes 32).prod (Codec.bytes 1024)).via
  (fun h => (h.magic, h.kernelSize, h.kernelAddr, h.ramdiskSize, h.ramdiskAddr, h.secondSize,
    h.secondAddr, h.tagsAddr, h.pageSize, h.dtSize, h.unused, h.name, h.cmdline, h.id,
    h.extraCmdline))
  (fun (magic, kernelSize, kernelAddr, ramdiskSize, ramdiskAddr, secondSize, secondAddr, tagsAddr,
    pageSize, dtSize, unused, name, cmdline, id, extraCmdline) =>
    { magic, kernelSize, kernelAddr, ramdiskSize, ramdiskAddr, secondSize, secondAddr, tagsAddr,
      pageSize, dtSize, unused, name, cmdline, id, extraCmdline })
  fun _ => rfl

/-- `BOOT_MAGIC`, `"ANDROID!"`. -/
def bootMagic : Bytes 8 := ⟨[0x41, 0x4e, 0x44, 0x52, 0x4f, 0x49, 0x44, 0x21], rfl⟩

/-! ## Writing -/

/-- `MTK_KERNEL`, `MTK_ROOTFS` and `MTK_RECOVERY` of `mtk_type`. -/
inductive MtkType
  | kernel
  | rootfs
  | recovery
  deriving DecidableEq, Repr

/-- `mtk_names`: `"KERNEL"`, `"ROOTFS"` and `"RECOVERY"`. -/
def MtkType.name : MtkType → List UInt8
  | .kernel => [0x4b, 0x45, 0x52, 0x4e, 0x45, 0x4c]
  | .rootfs => [0x52, 0x4f, 0x4f, 0x54, 0x46, 0x53]
  | .recovery => [0x52, 0x45, 0x43, 0x4f, 0x56, 0x45, 0x52, 0x59]

/-- `MTK_MAGIC` -/
def mtkMagic : List UInt8 := [0x88, 0x16, 0x88, 0x58]

/-- The `mtk_header` of `load_mtk_file`. -/
def mtkHeader (type : MtkType) (datasz : ℕ) : List UInt8 :=
  mtkMagic ++ Codec.uint32.enc (UInt32.ofNat datasz) ++ (field 32 type.name).1 ++
    List.replicate 472 0xff

/-- A file that was loaded. Its size is an `int`, also with a header added. -/
abbrev File := {bs : List UInt8 // bs.length < 2 ^ 31 - 512}

/-- A part of an image. -/
abbrev Part := {bs : List UInt8 // bs.length < 2 ^ 31}

/-- A file as it is. -/
def loadFile (file : File) : Part := ⟨file.1, by have := file.2; omega⟩

@[simp]
theorem length_mtkHeader (type : MtkType) (datasz : ℕ) : (mtkHeader type datasz).length = 512 := by
  rw [mtkHeader, List.length_append, List.length_append, List.length_append, Codec.length_enc,
    (field 32 type.name).2, List.length_replicate]
  rfl

/-- `load_mtk_file`, behind its `fopen`: a file that does not begin with the magic gets a header,
unless it is too short to tell. -/
def loadMtkFile (type : MtkType) (file : File) : Part :=
  if 4 ≤ file.1.length ∧ file.1.take 4 ≠ mtkMagic then
    ⟨mtkHeader type file.1.length ++ file.1, by
      have := file.2
      rw [List.length_append, length_mtkHeader]
      omega⟩
  else loadFile file

/-- The page sizes that `--pagesize` takes. -/
abbrev PageSize :=
  {n : UInt32 // n ∈ [2048, 4096, 8192, 16384, 32768, 65536, 131072]}

theorem mem_pageSize : (2048 : UInt32) ∈ [2048, 4096, 8192, 16384, 32768, 65536, 131072] :=
  List.mem_cons_self

/-- What the loop over the options leaves. A file is named or not, and can be loaded or not. -/
structure Options where
  /-- `basename(bootimg)` -/
  bootimg : Option (List UInt8)
  mtk : Bool
  kernel : Option (Option File)
  ramdisk : Option (Option File)
  second : Option (Option File)
  dt : Option (Option File)
  cmdline : CString
  board : CString
  pagesize : PageSize
  base : UInt32
  kernelOffset : UInt32
  ramdiskOffset : UInt32
  secondOffset : UInt32
  tagsOffset : UInt32

/-- The errors of `mkbootimg` up to the writing of the image. -/
inductive PackError
  | noOutput
  | noKernel
  | noRamdisk
  | boardTooLarge
  | cmdlineTooLarge
  | couldNotLoadKernel
  | couldNotLoadRamdisk
  | couldNotLoadSecond
  | couldNotLoadDt
  deriving DecidableEq, Repr

/-- What is put into an image. -/
structure Contents where
  kernel : Part
  ramdisk : Part
  second : Option Part
  dt : Option Part

/-- A file that has to be there. -/
def demand {α ε : Type} (e : ε) : Option α → Except ε α
  | some a => .ok a
  | none => .error e

/-- An error for options that are refused. -/
def refuse {ε : Type} (e : ε) (p : Prop) [Decidable p] : Except ε Unit :=
  if p then .error e else .ok ()

/-- `"boot"` -/
def bootName : List UInt8 := [0x62, 0x6f, 0x6f, 0x74]

/-- `"recovery"` -/
def recoveryName : List UInt8 := [0x72, 0x65, 0x63, 0x6f, 0x76, 0x65, 0x72, 0x79]

/-- The ramdisk. Of an image for MTK it is loaded only if the name of the image says what for. -/
def loadRamdisk (mtk : Bool) (bootimg : List UInt8) (file : Option File) :
    Except PackError Part :=
  if !mtk then (demand .couldNotLoadRamdisk file).map loadFile
  else if bootName <:+: bootimg then
    (demand .couldNotLoadRamdisk file).map (loadMtkFile .rootfs)
  else if recoveryName <:+: bootimg then
    (demand .couldNotLoadRamdisk file).map (loadMtkFile .recovery)
  else .ok ⟨[], by decide⟩

/-- An optional file. -/
def loadOptional (e : PackError) : Option (Option File) → Except PackError (Option Part)
  | none => .ok none
  | some file => (demand e file).map fun f => some (loadFile f)

/-- The part of `mkbootimg` that checks its options and loads the files. -/
def contents (o : Options) : Except PackError Contents := do
  let bootimg ← demand .noOutput o.bootimg
  let kernelFile ← demand .noKernel o.kernel
  let ramdiskFile ← demand .noRamdisk o.ramdisk
  refuse .boardTooLarge (o.board.1.length ≥ 16)
  refuse .cmdlineTooLarge (o.cmdline.1.length > 512 + 1024 - 2)
  let kernel ← (demand .couldNotLoadKernel kernelFile).map
    (if o.mtk then loadMtkFile .kernel else loadFile)
  let ramdisk ← loadRamdisk o.mtk bootimg ramdiskFile
  let second ← loadOptional .couldNotLoadSecond o.second
  let dt ← loadOptional .couldNotLoadDt o.dt
  return { kernel, ramdisk, second, dt }

/-- The size that goes into the header. -/
def Part.size (p : Part) : UInt32 := UInt32.ofNat p.1.length

/-- What the `id` is a digest of. -/
def hashed (c : Contents) : List UInt8 :=
  let second := c.second.elim [] (·.1)
  c.kernel.1 ++ Codec.uint32.enc c.kernel.size ++
    (c.ramdisk.1 ++ Codec.uint32.enc c.ramdisk.size) ++
    (second ++ Codec.uint32.enc (UInt32.ofNat second.length)) ++
    c.dt.elim [] fun dt => dt.1 ++ Codec.uint32.enc dt.size

/-- The header, with the digest `sha`. -/
def header (sha : List UInt8 → Bytes 20) (o : Options) (c : Contents) : BootImgHdr where
  magic := bootMagic
  kernelSize := c.kernel.size
  kernelAddr := o.base + o.kernelOffset
  ramdiskSize := c.ramdisk.size
  ramdiskAddr := o.base + o.ramdiskOffset
  secondSize := c.second.elim 0 Part.size
  secondAddr := o.base + o.secondOffset
  tagsAddr := o.base + o.tagsOffset
  pageSize := o.pagesize.1
  dtSize := c.dt.elim 0 Part.size
  unused := 0
  name := field 16 o.board.1
  -- the last byte of the field stays zero
  cmdline := field 512 (o.cmdline.1.take 511)
  id := field 32 (sha (hashed c)).1
  extraCmdline := field 1024 (if o.cmdline.1.length ≥ 511 then o.cmdline.1.drop 511 else [])

/-- `write_padding` -/
def writePadding (pagesize itemsize : UInt32) : List UInt8 :=
  let pagemask := pagesize - 1
  if itemsize &&& pagemask = 0 then []
  else List.replicate (pagesize - (itemsize &&& pagemask)).toNat 0

/-- A part and its padding. -/
def paged (pagesize : UInt32) (p : Part) : List UInt8 := p.1 ++ writePadding pagesize p.size

/-- What is written. -/
def image (sha : List UInt8 → Bytes 20) (o : Options) (c : Contents) : List UInt8 :=
  hdrStruct.enc (header sha o c) ++ (writePadding o.pagesize.1 (UInt32.ofNat hdrStruct.size) ++
    (paged o.pagesize.1 c.kernel ++ (paged o.pagesize.1 c.ramdisk ++
      (c.second.elim [] (paged o.pagesize.1) ++ c.dt.elim [] (paged o.pagesize.1)))))

/-- `mkbootimg`: the bytes of the image. -/
def mkbootimg (sha : List UInt8 → Bytes 20) (o : Options) : Except PackError (List UInt8) :=
  (contents o).map (image sha o)

/-! ## What is accepted -/

section Accepted

variable {o : Options} {c : Contents}

/-- The bytes of an optional file. -/
def bytesOf (file : Option (Option File)) : List UInt8 := file.join.elim [] (·.1)

theorem demand_eq_ok {α ε : Type} {e : ε} {x : Option α} {a : α} :
    demand e x = .ok a ↔ x = some a := by
  cases x <;> simp [demand]

theorem bind_eq_ok {α β ε : Type} {x : Except ε α} {g : α → Except ε β} {b : β} :
    x >>= g = .ok b ↔ ∃ a, x = .ok a ∧ g a = .ok b := by
  cases x <;> simp [bind, Except.bind]

theorem map_eq_ok {α β ε : Type} {x : Except ε α} {g : α → β} {b : β} :
    x.map g = .ok b ↔ ∃ a, x = .ok a ∧ g a = b := by
  cases x <;> simp [Except.map]

theorem loadOptional_eq_ok {e : PackError} {file : Option (Option File)} {p : Option Part}
    (h : loadOptional e file = .ok p) : p = file.join.map loadFile := by
  cases file with
  | none => cases h; rfl
  | some file =>
    rw [loadOptional, map_eq_ok] at h
    obtain ⟨f, hf, rfl⟩ := h
    rw [demand_eq_ok.1 hf]
    rfl

theorem refuse_eq_ok {ε : Type} {e : ε} {p : Prop} [Decidable p] {u : Unit} :
    refuse e p = .ok u ↔ ¬ p := by
  rw [refuse]
  split_ifs with h <;> simp [h]

/-- **What was accepted.** -/
theorem contents_eq_ok (h : contents o = .ok c) :
    ∃ bootimg kernel ramdisk, o.bootimg = some bootimg ∧ o.kernel = some (some kernel) ∧
      o.ramdisk = some ramdisk ∧ o.board.1.length < 16 ∧ o.cmdline.1.length ≤ 1534 ∧
      c.kernel = (if o.mtk then loadMtkFile .kernel else loadFile) kernel ∧
      loadRamdisk o.mtk bootimg ramdisk = .ok c.ramdisk ∧
      c.second = o.second.join.map loadFile ∧ c.dt = o.dt.join.map loadFile := by
  simp only [contents, bind_eq_ok, demand_eq_ok, map_eq_ok, refuse_eq_ok] at h
  obtain ⟨bootimg, hbootimg, _, hkernel, ramdisk, hramdisk, -, hboard, -, hcmdline, _,
    ⟨kernel, rfl, rfl⟩, _, hr, _, hsecond, _, hdt, h⟩ := h
  cases h
  exact ⟨bootimg, kernel, ramdisk, hbootimg, hkernel, hramdisk, by omega, by omega, rfl, hr,
    loadOptional_eq_ok hsecond, loadOptional_eq_ok hdt⟩

theorem elim_map_loadFile (file : Option (Option File)) :
    ((file.join.map loadFile).elim [] (·.1) : List UInt8) = bytesOf file := by
  rw [bytesOf]
  cases file.join <;> rfl

/-- What an image without MTK headers is made of. -/
theorem contents_plain (h : contents o = .ok c) (hmtk : o.mtk = false) :
    ∃ kernel ramdisk, o.kernel = some (some kernel) ∧ o.ramdisk = some (some ramdisk) ∧
      o.board.1.length < 16 ∧ o.cmdline.1.length ≤ 1534 ∧
      c = ⟨loadFile kernel, loadFile ramdisk, o.second.join.map loadFile,
        o.dt.join.map loadFile⟩ := by
  obtain ⟨bootimg, kernel, ramdisk, -, hkernel, hramdisk, hboard, hcmdline, hk, hr, hsecond, hdt⟩ :=
    contents_eq_ok h
  simp only [loadRamdisk, hmtk, Bool.not_false, if_true, map_eq_ok, demand_eq_ok] at hr
  obtain ⟨ramdisk, rfl, hr⟩ := hr
  rw [hmtk] at hk
  refine ⟨kernel, ramdisk, hkernel, hramdisk, hboard, hcmdline, ?_⟩
  cases c
  exact Contents.mk.injEq .. ▸ ⟨hk, hr.symm, hsecond, hdt⟩

theorem contents_of_plain {bootimg : List UInt8} {kernel ramdisk : File} {second dt : Option File}
    (hmtk : o.mtk = false) (hbootimg : o.bootimg = some bootimg)
    (hkernel : o.kernel = some (some kernel)) (hramdisk : o.ramdisk = some (some ramdisk))
    (hboard : o.board.1.length < 16) (hcmdline : o.cmdline.1.length ≤ 1534)
    (hsecond : o.second = second.map some) (hdt : o.dt = dt.map some) :
    contents o = .ok ⟨loadFile kernel, loadFile ramdisk, second.map loadFile, dt.map loadFile⟩ := by
  have hload : ∀ (e : PackError) (file : Option File),
      loadOptional e (file.map some) = .ok (file.map loadFile) := fun e file => by
    cases file <;> rfl
  simp only [contents, hbootimg, hkernel, hramdisk, hmtk, hsecond, hdt, hload, demand, refuse,
    if_neg (Nat.not_le.2 hboard), if_neg (Nat.not_lt.2 hcmdline), loadRamdisk]
  rfl

end Accepted

/-! ## Fields and parts -/

section Fields

variable {n : ℕ} {bs : List UInt8}

/-- A string in a field with a byte to spare is read back. -/
theorem asString_field (h : 0 ∉ bs) (hn : bs.length < n) : asString (field n bs).1 = bs := by
  obtain ⟨k, rfl⟩ : ∃ k, n = bs.length + (k + 1) := ⟨n - bs.length - 1, by omega⟩
  have hfield : (field (bs.length + (k + 1)) bs).1 = bs ++ 0 :: List.replicate k 0 := by
    simp only [field, List.take_length_add_append, List.take_replicate]
    rw [Nat.min_eq_left (Nat.le_add_left _ _), List.replicate_succ]
  rw [hfield, asString, List.takeWhile_append_of_pos, List.takeWhile_cons_of_neg (by simp),
    List.append_nil]
  intro b hb
  have hne : b ≠ 0 := by
    rintro rfl
    exact h hb
  simpa using hne

/-- What is behind the 511th byte of a command line leaves a trace in the header. -/
theorem field_nil_eq_iff {n : ℕ} {s : List UInt8} (hn : 0 < n) (h : 0 ∉ s) :
    field n [] = field n s ↔ s = [] := by
  constructor
  · intro heq
    cases s with
    | nil => rfl
    | cons b s =>
      obtain ⟨n, rfl⟩ := Nat.exists_eq_add_of_lt hn
      have hhead := congrArg (List.head? ∘ Subtype.val) heq
      simp [field, List.replicate_succ] at hhead
      exact absurd hhead (fun hb => h (by simp [hb]))
  · rintro rfl
    rfl

end Fields

section Parts

variable {sha : List UInt8 → Bytes 20} {o : Options} {c : Contents}

theorem Part.size_toNat (p : Part) : p.size.toNat = p.1.length := by
  have := p.2
  rw [Part.size, UInt32.toNat_ofNat']
  exact Nat.mod_eq_of_lt (by omega)

/-- A part that is not put in is one of no bytes. -/
theorem elim_paged (p : Option Part) (pagesize : UInt32) :
    p.elim [] (paged pagesize) =
      p.elim [] (·.1) ++ writePadding pagesize (p.elim 0 Part.size) := by
  cases p with
  | some p => rfl
  | none =>
    rw [writePadding]
    simp

theorem elim_size (p : Option Part) :
    (p.elim 0 Part.size).toNat = (p.elim [] (·.1) : List UInt8).length := by
  cases p with
  | some p => exact p.size_toNat
  | none => rfl

theorem length_writePadding (pagesize size : UInt32) : (writePadding pagesize size).length =
    if size &&& (pagesize - 1) = 0 then 0 else (pagesize - (size &&& (pagesize - 1))).toNat := by
  rw [writePadding]
  split_ifs
  · rfl
  · exact List.length_replicate

/-- The header takes up one page. -/
theorem length_header_page (hdr : BootImgHdr) (pagesize : PageSize) :
    (hdrStruct.enc hdr ++ writePadding pagesize.1 (UInt32.ofNat hdrStruct.size)).length =
      pagesize.1.toNat := by
  obtain ⟨n, hn⟩ := pagesize
  have hsize : hdrStruct.size = 1632 := rfl
  rw [List.length_append, Codec.length_enc, length_writePadding, hsize]
  simp only [List.mem_cons, List.not_mem_nil, or_false] at hn
  -- the header is shorter than the smallest page, so the mask leaves its size as it is
  have hand : UInt32.ofNat 1632 &&& (n - 1) = 1632 := by
    obtain rfl | rfl | rfl | rfl | rfl | rfl | rfl := hn <;> exact UInt32.toNat.inj (by simp)
  dsimp only
  rw [hand, if_neg (by simp)]
  obtain rfl | rfl | rfl | rfl | rfl | rfl | rfl := hn <;> rfl

/-- An image begins with its header. -/
theorem dec_image : hdrStruct.dec (image sha o c) = header sha o c :=
  hdrStruct.dec_enc (header sha o c) _

end Parts

end BootImg
