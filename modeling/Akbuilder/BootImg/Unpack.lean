import Akbuilder.BootImg.Image
import Akbuilder.Lib.ByteFile

/-!
# Taking boot images apart

`unpackbootimg` looks for the header of an image, reads the parts behind it one after the other, and
writes each part and each value of the header to a file of its own. A magic number of MTK in the
first 4100 bytes makes it take the first 512 bytes of the kernel and of the ramdisk for headers.

## Main definitions

* `findMagic`: the searches
* `unpackbootimg`: the files that are written
* `unpacked`: the files for an image of given options

## Main results

* `unpackbootimg_image`: what is made of an image, header or no header
* `unpack_mkbootimg`: what was packed is unpacked, but for the end of a long command line
* `unpack_mtk`: the headers for MTK are taken off again
-/

open ByteFile

namespace BootImg

/-! ## Reading -/

/-- The errors of `unpackbootimg`. What it writes from a file that is too short is not defined. -/
inductive UnpackError
  | magicNotFound
  | truncated
  deriving DecidableEq, Repr

/-- The search for a magic at the next `n` offsets from `j` on. A read behind the end of the file
leaves what is in `tmp`. -/
def findMagic (bytes magic : List UInt8) : ℕ → ℕ → List UInt8 → Option ℕ × List UInt8
  | 0, _, tmp => (none, tmp)
  | n + 1, j, tmp =>
    let got := slice bytes j magic.length
    let tmp := got ++ tmp.drop got.length
    if tmp.take magic.length = magic then (some j, tmp)
    else findMagic bytes magic n (j + 1) tmp

/-- `read_padding` -/
def readPadding (itemsize pagesize : UInt32) (f : ByteFile) : ByteFile :=
  let pagemask := pagesize - 1
  if itemsize &&& pagemask = 0 then f
  else (f.read (pagesize - (itemsize &&& pagemask)).toNat).2

def readItem (n : ℕ) (f : ByteFile) : Except UnpackError (List UInt8 × ByteFile) :=
  if (f.read n).1.length = n then .ok (f.read n) else .error .truncated

/-- A part behind a header of `mtkheader` bytes, if it has a size. -/
def readPart (mtkheader size : UInt32) (f : ByteFile) :
    Except UnpackError (Option (List UInt8) × ByteFile) := do
  let f := (f.read mtkheader.toNat).2
  if size ≠ 0 then
    let (part, f) ← readItem (size - mtkheader).toNat f
    return (some part, f)
  else return (none, f)

/-- The ending of the name of the ramdisk's file. The source looks at two bytes also where the
ramdisk has only one. -/
def ramdiskSuffix : List UInt8 → String
  | 0x42 :: 0x5a :: _ => "bz2"
  | 0x5d :: 0x00 :: _ => "lzma"
  | 0x89 :: 0x4c :: _ => "lzo"
  | 0x02 :: 0x21 :: _ => "lz4"
  | 0xfd :: 0x37 :: _ => "xz"
  | 0x1f :: 0x8b :: _ => "gz"
  | _ => "unknown"

/-- The files that `unpackbootimg` writes. -/
structure Unpacked where
  pagesize : Option UInt32
  base : Option UInt32
  mtk : Option UInt32
  kernelOffset : Option UInt32
  kernel : Option (List UInt8)
  ramdiskOffset : Option UInt32
  ramdisk : Option (String × List UInt8)
  secondOffset : Option UInt32
  second : Option (List UInt8)
  tagsOffset : Option UInt32
  board : Option (List UInt8)
  cmdline : Option (List UInt8)
  dt : Option (List UInt8)
  deriving DecidableEq

/-- A file that is written for a field that is not zero. -/
def unlessZero (x value : UInt32) : Option UInt32 := if x ≠ 0 then some value else none

/-- A file that is written for a string that is not empty. -/
def unlessEmpty (s : List UInt8) : Option (List UInt8) := if s ≠ [] then some s else none

/-- `unpackbootimg` of a file, with the page size of `-p` or 0, and with what is in `tmp`. -/
def unpackbootimg (pagesize : UInt32) (tmp bytes : List UInt8) :
    Except UnpackError Unpacked := do
  let (j, tmp) := findMagic bytes mtkMagic 4097 0 tmp
  let mtkheader : UInt32 := if j = none then 0 else 512
  let i ← demand .magicNotFound (findMagic bytes bootMagic.1 513 0 tmp).1
  let (hdr, f) ← readItem hdrStruct.size ((openFile bytes).seek i)
  let header := hdrStruct.dec hdr
  let pagesize := if pagesize = 0 then header.pageSize else pagesize
  let base := header.kernelAddr - 0x8000
  let f := readPadding (UInt32.ofNat hdrStruct.size) pagesize f
  let (kernel, f) ← readPart mtkheader header.kernelSize f
  let f := readPadding header.kernelSize pagesize f
  let (ramdisk, f) ← readPart mtkheader header.ramdiskSize f
  let f := readPadding header.ramdiskSize pagesize f
  let (second, f) ← readPart 0 header.secondSize f
  let f := readPadding header.secondSize pagesize f
  let (dt, _) ← readPart 0 header.dtSize f
  return {
    pagesize := unlessZero header.pageSize header.pageSize
    base := unlessZero header.kernelAddr base
    mtk := unlessZero mtkheader mtkheader
    kernelOffset := unlessZero header.kernelSize (header.kernelAddr - base)
    kernel
    ramdiskOffset := unlessZero header.ramdiskSize (header.ramdiskAddr - base)
    ramdisk := ramdisk.map fun r => (ramdiskSuffix r, r)
    secondOffset := unlessZero header.secondSize (header.secondAddr - base)
    second
    tagsOffset := unlessZero header.tagsAddr (header.tagsAddr - base)
    board := unlessEmpty (asString header.name.1)
    cmdline := unlessEmpty (asString header.cmdline.1)
    dt }

/-! ## What is written is read -/

section Parts

variable {pagesize size mtkheader : UInt32} {f : ByteFile} {head body back : List UInt8}

theorem rest_readPadding (h : f.rest = writePadding pagesize size ++ back) :
    (readPadding size pagesize f).rest = back := by
  simp only [writePadding, readPadding] at h ⊢
  split_ifs at h ⊢
  · exact h
  · rw [rest_read, h, List.drop_left' List.length_replicate]

theorem readItem_eq (body : List UInt8) (h : f.rest = body ++ back) :
    ∃ f', readItem body.length f = .ok (body, f') ∧ f'.rest = back := by
  have hread : (f.read body.length).1 = body := by rw [fst_read, h, List.take_left]
  refine ⟨(f.read body.length).2, ?_, by rw [rest_read, h, List.drop_left]⟩
  rw [readItem, if_pos (by rw [hread])]
  exact congrArg Except.ok (Prod.ext hread rfl)

/-- **Reading a part** behind what is taken for its header. -/
theorem readPart_eq (mtkheader : UInt32) (head body : List UInt8)
    (h : f.rest = head ++ (body ++ back)) (hhead : head.length = mtkheader.toNat)
    (hsize : size.toNat = head.length + body.length) :
    ∃ f', readPart mtkheader size f = .ok (if size ≠ 0 then some body else none, f') ∧
      f'.rest = back := by
  have hskip : (f.read mtkheader.toNat).2.rest = body ++ back := by
    rw [rest_read, h, ← hhead, List.drop_left]
  have hbody : (size - mtkheader).toNat = body.length := by
    rw [UInt32.toNat_sub_of_le _ _ (UInt32.le_iff_toNat_le.2 (by omega))]
    omega
  rw [readPart]
  dsimp only
  split_ifs with hzero
  · obtain ⟨f', hread, hrest⟩ := readItem_eq body hskip
    refine ⟨f', ?_, hrest⟩
    rw [hbody, hread]
    rfl
  · obtain rfl : body = [] := by
      rw [not_not.1 hzero] at hsize
      exact List.length_eq_zero_iff.1 (Nat.eq_zero_of_add_eq_zero_left hsize.symm)
    exact ⟨_, rfl, hskip⟩

end Parts

section Magic

variable {bytes magic tmp : List UInt8}

/-- A magic that the file begins with is found at once. -/
theorem findMagic_start {n : ℕ} {back : List UInt8} (h : bytes = magic ++ back) :
    (findMagic bytes magic (n + 1) 0 tmp).1 = some 0 := by
  have hgot : slice bytes 0 magic.length = magic := by
    rw [h, slice, List.drop_zero, List.take_left]
  rw [findMagic, hgot, if_pos List.take_left]

/-- **A magic in the file** is found, if it is not too far on. -/
theorem findMagic_of_slice {n j k : ℕ} (h : slice bytes (j + k) magic.length = magic)
    (hk : k < n) : (findMagic bytes magic n j tmp).1 ≠ none := by
  induction n generalizing j k tmp with
  | zero => omega
  | succ n ih =>
    rw [findMagic]
    split_ifs with hfound
    · simp
    · cases k with
      | zero =>
        rw [Nat.add_zero] at h
        rw [h, List.take_left] at hfound
        exact absurd rfl hfound
      | succ k =>
        refine ih (j := j + 1) (k := k) ?_ (by omega)
        rwa [Nat.add_right_comm, Nat.add_assoc]

/-- A magic with a byte that is not in the file is not found. -/
theorem findMagic_of_notMem {n j : ℕ} {b : UInt8} (hb : b ∈ magic) (hbytes : b ∉ bytes)
    (htmp : b ∉ tmp) : (findMagic bytes magic n j tmp).1 = none := by
  induction n generalizing j tmp with
  | zero => rfl
  | succ n ih =>
    have hnot : b ∉ slice bytes j magic.length ++ tmp.drop (slice bytes j magic.length).length := by
      rw [List.mem_append, not_or]
      exact ⟨fun hmem => hbytes (List.mem_of_mem_drop (List.mem_of_mem_take hmem)),
        fun hmem => htmp (List.mem_of_mem_drop hmem)⟩
    rw [findMagic, if_neg]
    · exact ih hnot
    · intro heq
      rw [← heq] at hb
      exact hnot (List.mem_of_mem_take hb)

end Magic

section Image

variable {sha : List UInt8 → Bytes 20} {o : Options} {c : Contents} {tmp : List UInt8}

theorem sub_sub_self (a b : UInt32) : a - (a - b) = b := by
  rw [UInt32.sub_eq_iff_eq_add, UInt32.add_comm, UInt32.sub_add_cancel]

/-- A part with a size is one that is not empty. -/
theorem ite_size {α : Type} {size : UInt32} {body : List UInt8} (h : size.toNat = body.length)
    (x : α) : (if size ≠ 0 then some x else none) = if body ≠ [] then some x else none := by
  refine if_congr (not_congr ⟨?_, ?_⟩) rfl rfl
  · rintro rfl
    exact List.length_eq_zero_iff.1 h.symm
  · rintro rfl
    exact UInt32.toNat_inj.1 h

/-- **What `unpackbootimg` makes of an image**, when it takes the beginnings of the kernel and the
ramdisk for headers of `mtkheader` bytes. -/
theorem unpackbootimg_image {mtkheader : UInt32}
    {kernelHead kernel ramdiskHead ramdisk : List UInt8}
    (hm : mtkheader =
      if (findMagic (image sha o c) mtkMagic 4097 0 tmp).1 = none then 0 else 512)
    (hkernel : c.kernel.1 = kernelHead ++ kernel) (hkh : kernelHead.length = mtkheader.toNat)
    (hramdisk : c.ramdisk.1 = ramdiskHead ++ ramdisk)
    (hrh : ramdiskHead.length = mtkheader.toNat) (hboard : o.board.1.length < 16) :
    let base := o.base + o.kernelOffset - 0x8000
    unpackbootimg 0 tmp (image sha o c) = .ok {
      pagesize := some o.pagesize.1
      base := unlessZero (o.base + o.kernelOffset) base
      mtk := unlessZero mtkheader mtkheader
      kernelOffset := unlessZero c.kernel.size 0x8000
      kernel := if c.kernel.size ≠ 0 then some kernel else none
      ramdiskOffset := unlessZero c.ramdisk.size (o.base + o.ramdiskOffset - base)
      ramdisk := if c.ramdisk.size ≠ 0 then some (ramdiskSuffix ramdisk, ramdisk) else none
      secondOffset := unlessZero (c.second.elim 0 Part.size) (o.base + o.secondOffset - base)
      second := unlessEmpty (c.second.elim [] (·.1))
      tagsOffset := unlessZero (o.base + o.tagsOffset) (o.base + o.tagsOffset - base)
      board := unlessEmpty o.board.1
      cmdline := unlessEmpty (o.cmdline.1.take 511)
      dt := unlessEmpty (c.dt.elim [] (·.1)) } := by
  intro base
  have hsizes := c.kernel.size_toNat
  have hsizer := c.ramdisk.size_toNat
  rw [hkernel, List.length_append] at hsizes
  rw [hramdisk, List.length_append] at hsizer
  have hmagic : image sha o c = bootMagic.1 ++ (image sha o c).drop 8 := rfl
  have hdec : hdrStruct.dec (hdrStruct.enc (header sha o c)) = header sha o c := by
    simpa using hdrStruct.dec_enc (header sha o c) []
  -- the parts in their order, each behind the padding of the one before
  obtain ⟨f₀, hread₀, hrest₀⟩ :=
    readItem_eq (f := (openFile (image sha o c)).seek 0) (hdrStruct.enc (header sha o c)) rfl
  rw [Codec.length_enc] at hread₀
  have hrest₀ := rest_readPadding hrest₀
  obtain ⟨f₁, hread₁, hrest₁⟩ := readPart_eq mtkheader kernelHead kernel
    (by rw [hrest₀, paged, hkernel, List.append_assoc, List.append_assoc]) hkh hsizes
  have hrest₁ := rest_readPadding hrest₁
  obtain ⟨f₂, hread₂, hrest₂⟩ := readPart_eq mtkheader ramdiskHead ramdisk
    (by rw [hrest₁, paged, hramdisk, List.append_assoc, List.append_assoc]) hrh hsizer
  have hrest₂ := rest_readPadding hrest₂
  obtain ⟨f₃, hread₃, hrest₃⟩ := readPart_eq 0 [] (c.second.elim [] (·.1))
    (by rw [hrest₂, elim_paged, List.append_assoc, List.nil_append]) rfl
    (by simpa using elim_size c.second)
  have hrest₃ := rest_readPadding hrest₃
  obtain ⟨f₄, hread₄, -⟩ := readPart_eq 0 [] (c.dt.elim [] (·.1))
    (by rw [hrest₃, elim_paged, List.nil_append]) rfl
    (by simpa using elim_size c.dt)
  rw [unpackbootimg]
  generalize findMagic (image sha o c) mtkMagic 4097 0 tmp = found at hm ⊢
  obtain ⟨j, tmp'⟩ := found
  simp only [findMagic_start hmagic, demand, bind, Except.bind, hread₀, hdec, ← hm, if_true]
  simp only [header, hread₁, hread₂, hread₃, hread₄, pure, Except.pure]
  have hpagesize : unlessZero o.pagesize.1 o.pagesize.1 = some o.pagesize.1 := by
    rw [unlessZero, if_pos]
    intro hzero
    simpa [hzero] using o.pagesize.2
  have hcmdline : asString (field 512 (o.cmdline.1.take 511)).1 = o.cmdline.1.take 511 :=
    asString_field (fun hmem => o.cmdline.2 (List.mem_of_mem_take hmem)) (by simp)
  rw [hpagesize, sub_sub_self, asString_field o.board.2 hboard, hcmdline, unlessEmpty, unlessEmpty,
    ite_size (elim_size _), ite_size (elim_size _), apply_ite (Option.map _)]
  rfl

/-- The files of an image with this kernel and this ramdisk. -/
def unpacked (o : Options) (kernel ramdisk : List UInt8) : Unpacked :=
  let base := o.base + o.kernelOffset - 0x8000
  { pagesize := some o.pagesize.1
    base := unlessZero (o.base + o.kernelOffset) base
    mtk := none
    kernelOffset := if kernel ≠ [] then some 0x8000 else none
    kernel := unlessEmpty kernel
    ramdiskOffset := if ramdisk ≠ [] then some (o.base + o.ramdiskOffset - base) else none
    ramdisk := if ramdisk ≠ [] then some (ramdiskSuffix ramdisk, ramdisk) else none
    secondOffset :=
      if bytesOf o.second ≠ [] then some (o.base + o.secondOffset - base) else none
    second := unlessEmpty (bytesOf o.second)
    tagsOffset := unlessZero (o.base + o.tagsOffset) (o.base + o.tagsOffset - base)
    board := unlessEmpty o.board.1
    cmdline := unlessEmpty (o.cmdline.1.take 511)
    dt := unlessEmpty (bytesOf o.dt) }

/-- **What was packed is unpacked**, all of it but the command line behind its 511th byte, as long
as nothing in the image looks like an MTK header: every part that is not empty comes back, and with
it an offset that makes up the same address. There is no base for a kernel address of 0, and no
offset for a tags address of 0. -/
theorem unpack_mkbootimg {img : List UInt8} (h : mkbootimg sha o = .ok img) (hmtk : o.mtk = false)
    (hscan : (findMagic img mtkMagic 4097 0 tmp).1 = none) :
    ∃ kernel ramdisk, o.kernel = some (some kernel) ∧ o.ramdisk = some (some ramdisk) ∧
      unpackbootimg 0 tmp img = .ok (unpacked o kernel.1 ramdisk.1) := by
  rw [mkbootimg, map_eq_ok] at h
  obtain ⟨c, hc, rfl⟩ := h
  obtain ⟨kernel, ramdisk, hkernel, hramdisk, hboard, -, rfl⟩ := contents_plain hc hmtk
  refine ⟨kernel, ramdisk, hkernel, hramdisk, ?_⟩
  have hk : (loadFile kernel).1 = [] ++ kernel.1 := (List.nil_append _).symm
  have hr : (loadFile ramdisk).1 = [] ++ ramdisk.1 := (List.nil_append _).symm
  rw [unpackbootimg_image (if_pos hscan).symm hk rfl hr rfl hboard]
  simp only [unpacked, unlessZero, ite_size (Part.size_toNat _), ite_size (elim_size _),
    elim_map_loadFile]
  rfl

/-- A kernel and a ramdisk of three bytes each, for a box called `x92`. -/
def small : Options where
  bootimg := some [0x62, 0x6f, 0x6f, 0x74, 0x2e, 0x69, 0x6d, 0x67]
  mtk := false
  kernel := some (some ⟨[1, 2, 3], by decide⟩)
  ramdisk := some (some ⟨[0x1f, 0x8b, 8], by decide⟩)
  second := none
  dt := none
  cmdline := ⟨[0x72, 0x6f], by decide⟩
  board := ⟨[0x78, 0x39, 0x32], by decide⟩
  pagesize := ⟨2048, by decide⟩
  base := 0x10000000
  kernelOffset := 0x00008000
  ramdiskOffset := 0x01000000
  secondOffset := 0x00f00000
  tagsOffset := 0x00000100

/-- The SHA-1 of the contents of `small`. -/
def smallDigest : List UInt8 → Bytes 20 := fun _ =>
  ⟨[0x3f, 0x7c, 0x03, 0x43, 0xd1, 0x3c, 0x67, 0xb7, 0xfd, 0xf1, 0xad, 0x23, 0x83, 0x42, 0x63,
    0x04, 0x25, 0xad, 0x62, 0x04], rfl⟩

theorem findMagic_small {img : List UInt8} (h : mkbootimg smallDigest small = .ok img) :
    (findMagic img mtkMagic 4097 0 (List.replicate 4096 0)).1 = none := by
  refine findMagic_of_notMem (b := 0x88) (by decide) ?_ fun hmem =>
    absurd (List.eq_of_mem_replicate hmem) (by decide)
  have hmem : (mkbootimg smallDigest small).toOption.all fun img => decide (0x88 ∉ img) := by
    decide +kernel
  simpa [h, Except.toOption] using hmem

theorem unpack_mkbootimg_small :
    ∃ img u, mkbootimg smallDigest small = .ok img ∧
      unpackbootimg 0 (List.replicate 4096 0) img = .ok u ∧
        u.kernel = some [1, 2, 3] ∧ u.cmdline = some [0x72, 0x6f] := by
  obtain ⟨img, himg⟩ : ∃ img, mkbootimg smallDigest small = .ok img := ⟨_, rfl⟩
  obtain ⟨kernel, ramdisk, hkernel, -, hu⟩ := unpack_mkbootimg himg rfl (findMagic_small himg)
  obtain rfl : ⟨[1, 2, 3], by decide⟩ = kernel := Option.some.inj (Option.some.inj hkernel)
  exact ⟨img, _, himg, hu, rfl, rfl⟩

/-! ## Images for MTK -/

/-- A file that gets an MTK header. -/
def Plain (file : File) : Prop := 4 ≤ file.1.length ∧ file.1.take 4 ≠ mtkMagic

instance (file : File) : Decidable (Plain file) := inferInstanceAs (Decidable (_ ∧ _))

theorem loadMtkFile_plain {type : MtkType} {file : File} (h : Plain file) :
    (loadMtkFile type file).1 = mtkHeader type file.1.length ++ file.1 := by
  rw [loadMtkFile, if_pos (show 4 ≤ file.1.length ∧ file.1.take 4 ≠ mtkMagic from h)]

/-- The header of the kernel is found where the second page begins. -/
theorem findMagic_kernel {type : MtkType} {n : ℕ} {kernel : List UInt8}
    (hkernel : c.kernel.1 = mtkHeader type n ++ kernel) (hpage : o.pagesize.1 ≤ 4096) :
    (findMagic (image sha o c) mtkMagic 4097 0 tmp).1 ≠ none := by
  refine findMagic_of_slice (k := o.pagesize.1.toNat) ?_
    (Nat.lt_succ_of_le (UInt32.le_iff_toNat_le.1 hpage))
  rw [Nat.zero_add, image, ← List.append_assoc,
    slice_append_left (length_header_page _ o.pagesize).symm, paged, hkernel, mtkHeader]
  rfl

theorem size_ne_zero {p : Part} {head body : List UInt8} (h : p.1 = head ++ body)
    (hhead : head ≠ []) : p.size ≠ 0 := by
  intro hzero
  have hlen := p.size_toNat
  rw [hzero, h] at hlen
  exact hhead (List.append_eq_nil_iff.1 (List.length_eq_zero_iff.1 hlen.symm)).1

/-- **What was packed for MTK is unpacked** without the headers that it was given, as long as a
page is no larger than what is searched for them. -/
theorem unpack_mtk {img bootimg : List UInt8} {kernel ramdisk : File}
    (h : mkbootimg sha o = .ok img) (hmtk : o.mtk = true) (hbootimg : o.bootimg = some bootimg)
    (hname : bootName <:+: bootimg ∨ recoveryName <:+: bootimg) (hpage : o.pagesize.1 ≤ 4096)
    (hkernel : o.kernel = some (some kernel)) (hramdisk : o.ramdisk = some (some ramdisk))
    (hkernel₀ : Plain kernel) (hramdisk₀ : Plain ramdisk) :
    ∃ u, unpackbootimg 0 tmp img = .ok u ∧ u.mtk = some 512 ∧ u.kernel = some kernel.1 ∧
      u.ramdisk = some (ramdiskSuffix ramdisk.1, ramdisk.1) := by
  rw [mkbootimg, map_eq_ok] at h
  obtain ⟨c, hc, rfl⟩ := h
  obtain ⟨bootimg', kernel', ramdisk', hb, hk', hr', hboard, -, hk, hr, -, -⟩ := contents_eq_ok hc
  obtain rfl : bootimg = bootimg' := by simpa [hbootimg] using hb
  obtain rfl : kernel = kernel' := by simpa [hkernel] using hk'
  obtain rfl : some ramdisk = ramdisk' := by simpa [hramdisk] using hr'
  obtain ⟨type, hr⟩ : ∃ type, c.ramdisk = loadMtkFile type ramdisk := by
    rw [loadRamdisk, hmtk, if_neg (by simp)] at hr
    split_ifs at hr with hboot hrecovery
    · exact ⟨.rootfs, (Except.ok.inj hr).symm⟩
    · exact ⟨.recovery, (Except.ok.inj hr).symm⟩
    · exact absurd hname (by simp [hboot, hrecovery])
  rw [hmtk, if_pos rfl] at hk
  have hk : c.kernel.1 = _ := (congrArg Subtype.val hk).trans (loadMtkFile_plain hkernel₀)
  have hr : c.ramdisk.1 = _ := (congrArg Subtype.val hr).trans (loadMtkFile_plain hramdisk₀)
  have hhead : ∀ type n, mtkHeader type n ≠ [] := fun type n hnil => by
    simpa [hnil] using length_mtkHeader type n
  have hm : (512 : UInt32) =
      if (findMagic (image sha o c) mtkMagic 4097 0 tmp).1 = none then 0 else 512 :=
    (if_neg (findMagic_kernel hk hpage)).symm
  have hu := unpackbootimg_image hm hk (length_mtkHeader _ _) hr (length_mtkHeader _ _) hboard
  have hfound : unlessZero 512 512 = some 512 := by decide
  exact ⟨_, hu, hfound, if_pos (size_ne_zero hk (hhead _ _)), if_pos (size_ne_zero hr (hhead _ _))⟩

/-- `boot.img` of four bytes each. -/
theorem unpack_mtk_boot :
    let o : Options := { small with
      mtk := true
      kernel := some (some ⟨[1, 2, 3, 4], by decide⟩)
      ramdisk := some (some ⟨[0x1f, 0x8b, 8, 0], by decide⟩) }
    let digest : List UInt8 → Bytes 20 := fun _ =>
      ⟨[0xc6, 0x77, 0xb7, 0x3e, 0x9c, 0xbe, 0x2b, 0xc8, 0xae, 0xa6, 0x22, 0x8f, 0x12, 0x3b, 0xa4,
        0xc0, 0x89, 0x74, 0xb2, 0xc4], rfl⟩
    ∃ img, mkbootimg digest o = .ok img ∧
      ∃ u, unpackbootimg 0 (List.replicate 4096 0) img = .ok u ∧ u.mtk = some 512 ∧
        u.kernel = some [1, 2, 3, 4] ∧ u.ramdisk = some ("gz", [0x1f, 0x8b, 8, 0]) := by
  intro o digest
  obtain ⟨img, himg⟩ : ∃ img, mkbootimg digest o = .ok img := ⟨_, rfl⟩
  exact ⟨img, himg, unpack_mtk himg rfl rfl (.inl ⟨[], [0x2e, 0x69, 0x6d, 0x67], rfl⟩) (by decide)
    rfl rfl ⟨by decide, by decide⟩ ⟨by decide, by decide⟩⟩

end Image

end BootImg
