import Akbuilder.BootImg.Unpack

/-!
# Packing an image again

The files that `unpackbootimg` writes are meant to be given to `mkbootimg` again, some of them
changed. Here none is changed.

## Main definitions

* `Unpacked.options`: the options for the files that were written

## Main results

* `header_options`: the header of the new image
* `repack_iff`: when the new image is the old one
-/

namespace BootImg

variable {sha : List UInt8 → Bytes 20} {o : Options} {c : Contents} {tmp : List UInt8}

/-- A file that is loaded again. -/
def asFile (bs : List UInt8) : Option File :=
  if h : bs.length < 2 ^ 31 - 512 then some ⟨bs, h⟩ else none

/-- A string that is given as an argument again. -/
def asArgument (s : List UInt8) : CString :=
  ⟨asString s, fun h => by simpa using List.mem_takeWhile_imp h⟩

def asPageSize (n : UInt32) : Option PageSize :=
  if h : n ∈ [2048, 4096, 8192, 16384, 32768, 65536, 131072] then some ⟨n, h⟩ else none

/-- The options that give each file to `mkbootimg` again, with its defaults for those that were not
written. -/
def Unpacked.options (u : Unpacked) (bootimg : List UInt8) : Options where
  bootimg := some bootimg
  mtk := u.mtk.isSome
  kernel := u.kernel.map asFile
  ramdisk := u.ramdisk.map fun r => asFile r.2
  second := u.second.map asFile
  dt := u.dt.map asFile
  cmdline := asArgument (u.cmdline.getD [])
  board := asArgument (u.board.getD [])
  pagesize := (u.pagesize.bind asPageSize).getD ⟨2048, mem_pageSize⟩
  base := u.base.getD 0x10000000
  kernelOffset := u.kernelOffset.getD 0x8000
  ramdiskOffset := u.ramdiskOffset.getD 0x01000000
  secondOffset := u.secondOffset.getD 0x00f00000
  tagsOffset := u.tagsOffset.getD 0x100

theorem asFile_coe (f : File) : asFile f.1 = some f := dif_pos f.2

theorem getD_unlessEmpty (s : List UInt8) : (unlessEmpty s).getD [] = s := by
  rw [unlessEmpty]
  split_ifs with h
  · rfl
  · exact (not_not.1 h).symm

theorem asArgument_eq {s : List UInt8} (h : 0 ∉ s) : (asArgument s).1 = s := by
  refine List.takeWhile_eq_self_iff.2 fun b hb => ?_
  have hne : b ≠ 0 := by
    rintro rfl
    exact h hb
  simpa using hne

/-- A file that is not empty is loaded as it was. -/
theorem reload {file : Option (Option File)} (h : file.join.map (·.1) ≠ some []) :
    (unlessEmpty (bytesOf file)).map asFile = file.join.map some := by
  rw [bytesOf]
  cases hfile : file.join with
  | none => rfl
  | some f =>
    have hne : f.1 ≠ [] := fun hnil => h (by rw [hfile, Option.map_some, hnil])
    rw [Option.elim_some, unlessEmpty, if_pos hne, Option.map_some, asFile_coe]
    rfl

theorem add_sub_self (a b : UInt32) : a + (b - a) = b := by
  rw [UInt32.add_comm, UInt32.sub_add_cancel]

/-- **The header of an image that is packed again.** -/
theorem header_options (sha : List UInt8 → Bytes 20) (c : Contents) (bootimg : List UInt8)
    {kernel ramdisk : List UInt8} (hkernel : kernel ≠ [])
    (hramdisk : ramdisk ≠ []) (hsecond : o.second.join.map (·.1) ≠ some [])
    (hkernelAddr : o.base + o.kernelOffset ≠ 0) (htagsAddr : o.base + o.tagsOffset ≠ 0) :
    header sha ((unpacked o kernel ramdisk).options bootimg) c =
      { header sha o c with
        secondAddr :=
          if o.second.join = none then o.base + o.kernelOffset - 0x8000 + 0x00f00000
          else o.base + o.secondOffset
        extraCmdline := field 1024 [] } := by
  have hcmdline : (asArgument (o.cmdline.1.take 511)).1 = o.cmdline.1.take 511 :=
    asArgument_eq fun hmem => o.cmdline.2 (List.mem_of_mem_take hmem)
  have hbytes : bytesOf o.second ≠ [] ↔ o.second.join ≠ none := by
    rw [bytesOf]
    cases hfile : o.second.join with
    | none => simp
    | some f => simpa [hfile] using hsecond
  have hsecondAddr : ∀ base addr : UInt32,
      base + (if bytesOf o.second ≠ [] then some (addr - base) else none).getD 0x00f00000 =
        if o.second.join = none then base + 0x00f00000 else addr := fun base addr => by
    by_cases hnone : o.second.join = none
    · rw [if_neg (fun hb => hbytes.1 hb hnone), if_pos hnone, Option.getD_none]
    · rw [if_pos (hbytes.2 hnone), if_neg hnone, Option.getD_some, add_sub_self]
  have hextra : (if (o.cmdline.1.take 511).length ≥ 511 then (o.cmdline.1.take 511).drop 511
      else []) = [] := by
    split_ifs
    · exact List.drop_eq_nil_of_le (List.length_take_le _ _)
    · rfl
  have hpagesize : asPageSize o.pagesize.1 = some o.pagesize := dif_pos o.pagesize.2
  simp only [header, Unpacked.options, unpacked, unlessZero, if_pos hkernelAddr, if_pos htagsAddr,
    if_pos hkernel, if_pos hramdisk, Option.getD_some, Option.bind_some, hpagesize,
    getD_unlessEmpty, hcmdline, asArgument_eq o.board.2, UInt32.sub_add_cancel, add_sub_self,
    hextra, List.take_take, Nat.min_self, hsecondAddr]

/-- What was unpacked is packed again. -/
theorem repack_unpacked {img bootimg : List UInt8} {kernel ramdisk : File}
    (h : mkbootimg sha o = .ok img) (hmtk : o.mtk = false) (hkernel : o.kernel = some (some kernel))
    (hramdisk : o.ramdisk = some (some ramdisk)) (hkernel₀ : kernel.1 ≠ [])
    (hramdisk₀ : ramdisk.1 ≠ []) (hsecond : o.second.join.map (·.1) ≠ some [])
    (hdt : o.dt.join.map (·.1) ≠ some []) (hkernelAddr : o.base + o.kernelOffset ≠ 0)
    (htagsAddr : o.base + o.tagsOffset ≠ 0) :
    mkbootimg sha ((unpacked o kernel.1 ramdisk.1).options bootimg) = .ok img ↔
      o.cmdline.1.length ≤ 511 ∧ (o.second.join = none →
        o.base + o.secondOffset = o.base + o.kernelOffset - 0x8000 + 0x00f00000) := by
  rw [mkbootimg, map_eq_ok] at h
  obtain ⟨c, hc, rfl⟩ := h
  obtain ⟨kernel', ramdisk', hkernel', hramdisk', hboard, -, rfl⟩ := contents_plain hc hmtk
  obtain rfl : kernel = kernel' := by simpa [hkernel] using hkernel'
  obtain rfl : ramdisk = ramdisk' := by simpa [hramdisk] using hramdisk'
  have hcmdline : (asArgument (o.cmdline.1.take 511)).1 = o.cmdline.1.take 511 :=
    asArgument_eq fun hmem => o.cmdline.2 (List.mem_of_mem_take hmem)
  have hcontents : contents ((unpacked o kernel.1 ramdisk.1).options bootimg) = .ok
      ⟨loadFile kernel, loadFile ramdisk, o.second.join.map loadFile, o.dt.join.map loadFile⟩ := by
    refine contents_of_plain rfl rfl ?_ ?_ ?_ ?_ (reload hsecond) (reload hdt)
    · simp [Unpacked.options, unpacked, unlessEmpty, hkernel₀, asFile_coe]
    · simp [Unpacked.options, unpacked, hramdisk₀, asFile_coe]
    · simpa [Unpacked.options, unpacked, getD_unlessEmpty, asArgument_eq o.board.2] using hboard
    · simp [Unpacked.options, unpacked, getD_unlessEmpty, hcmdline]
  rw [mkbootimg, hcontents]
  generalize hc' : (⟨loadFile kernel, loadFile ramdisk, o.second.join.map loadFile,
    o.dt.join.map loadFile⟩ : Contents) = c
  have hheader := header_options sha c bootimg hkernel₀ hramdisk₀ hsecond hkernelAddr htagsAddr
  have hpagesize := congrArg BootImgHdr.pageSize hheader
  constructor
  · intro heq
    have heq := congrArg hdrStruct.dec (Except.ok.inj heq)
    rw [dec_image, dec_image, hheader] at heq
    have hextra := congrArg BootImgHdr.extraCmdline heq
    have haddr := congrArg BootImgHdr.secondAddr heq
    refine ⟨?_, fun hnone => ?_⟩
    · by_contra hlong
      have hdrop : o.cmdline.1.drop 511 = [] := by
        rw [← field_nil_eq_iff (by decide : 0 < 1024) fun hmem =>
          o.cmdline.2 (List.mem_of_mem_drop hmem)]
        simpa [header, show 511 ≤ o.cmdline.1.length by omega] using hextra
      rw [List.drop_eq_nil_iff] at hdrop
      exact hlong hdrop
    · simpa [header, hnone] using haddr.symm
  · rintro ⟨hshort, hnone⟩
    have heq : header sha ((unpacked o kernel.1 ramdisk.1).options bootimg) c = header sha o c := by
      have hextra : (if o.cmdline.1.length ≥ 511 then o.cmdline.1.drop 511 else []) = [] := by
        split_ifs
        · exact List.drop_eq_nil_of_le hshort
        · rfl
      have haddr : (if o.second.join = none then o.base + o.kernelOffset - 0x8000 + 0x00f00000
          else o.base + o.secondOffset) = o.base + o.secondOffset := by
        split_ifs with hn
        · exact (hnone hn).symm
        · rfl
      rw [hheader, haddr, ← hextra]
      rfl
    have hpagesize : ((unpacked o kernel.1 ramdisk.1).options bootimg).pagesize.1 = o.pagesize.1 :=
      hpagesize
    rw [Except.map, image, heq, hpagesize]
    rfl

/-- **An image is packed again as it was** if and only if the command line is no longer than 511
bytes and, where there is no second stage, its address is the one that `mkbootimg` makes up. -/
theorem repack_iff {img bootimg : List UInt8} (h : mkbootimg sha o = .ok img)
    (hmtk : o.mtk = false) (hscan : (findMagic img mtkMagic 4097 0 tmp).1 = none)
    (hfull : ∀ file ∈ [o.kernel, o.ramdisk, o.second, o.dt], file.join.map (·.1) ≠ some [])
    (hkernelAddr : o.base + o.kernelOffset ≠ 0) (htagsAddr : o.base + o.tagsOffset ≠ 0) :
    ∃ u, unpackbootimg 0 tmp img = .ok u ∧ (mkbootimg sha (u.options bootimg) = .ok img ↔
      o.cmdline.1.length ≤ 511 ∧ (o.second.join = none →
        o.base + o.secondOffset = o.base + o.kernelOffset - 0x8000 + 0x00f00000)) := by
  obtain ⟨kernel, ramdisk, hkernel, hramdisk, hu⟩ := unpack_mkbootimg h hmtk hscan
  refine ⟨_, hu, repack_unpacked h hmtk hkernel hramdisk (fun hnil => ?_) (fun hnil => ?_)
    (hfull _ (by simp)) (hfull _ (by simp)) hkernelAddr htagsAddr⟩
  · exact hfull o.kernel (by simp) (by rw [hkernel, ← hnil]; rfl)
  · exact hfull o.ramdisk (by simp) (by rw [hramdisk, ← hnil]; rfl)

theorem repack_iff_small :
    ∃ img u, mkbootimg smallDigest small = .ok img ∧
      unpackbootimg 0 (List.replicate 4096 0) img = .ok u ∧
        mkbootimg smallDigest (u.options [0x61]) = .ok img := by
  obtain ⟨img, himg⟩ : ∃ img, mkbootimg smallDigest small = .ok img := ⟨_, rfl⟩
  obtain ⟨u, hu, hiff⟩ : ∃ u : Unpacked, unpackbootimg 0 (List.replicate 4096 0) img = .ok u ∧
      (mkbootimg smallDigest (u.options [0x61]) = .ok img ↔ _) :=
    repack_iff himg rfl (findMagic_small himg) (by decide) (by decide) (by decide)
  exact ⟨img, u, himg, hu, hiff.2 ⟨by decide, fun _ => by decide⟩⟩

end BootImg
