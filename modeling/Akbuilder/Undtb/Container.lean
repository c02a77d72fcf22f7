import Akbuilder.Lib.ByteFile
import Akbuilder.Lib.Codec

/-!
# The container of device trees

The boot image of a box holds several device trees, one for each variant of the board, in one
container: a header, a table with the identifiers of each tree and the place of its blob, a zero
word, and the blobs. `undtb` takes them apart.

## Main definitions

* `loadDtb`: `load_dtb`, with its exceptions
* `Accepted`: the well-formed files
* `entryAt`: an entry, as the bytes of a file say it
* `Container`: a file in the format, with free padding and blobs anywhere

## Main results

* `loadDtb_of_accepted`, `loadDtb_of_not_accepted`: `loadDtb` reads the well-formed files, and
  raises an exception on all others
* `exists_container`: any trees can be put in a container
* `loadDtb_container`: `loadDtb` reads back every container, and never returns anything but what the
  bytes of the file say
-/

namespace Undtb

open ByteFile

/-- The characters skipped by `12x`. -/
abbrev Padding := {bs : List UInt8 // bs.length = 12}

/-- `dtb_img_header_struct`: the magic, the version and the number of entries. -/
def headerStruct : Codec ({bs : List UInt8 // bs.length = 4} × UInt32 × UInt32) :=
  (Codec.bytes 4).prod (Codec.uint32.prod Codec.uint32)

/-- `dtb_img_entry_struct`: platform, variant and subtype, each before its padding, offset and
size. -/
def entryStruct :
    Codec (UInt32 × Padding × UInt32 × Padding × UInt32 × Padding × UInt32 × UInt32) :=
  Codec.uint32.prod <| (Codec.bytes 12).prod <| Codec.uint32.prod <| (Codec.bytes 12).prod <|
    Codec.uint32.prod <| (Codec.bytes 12).prod <| Codec.uint32.prod Codec.uint32

/-- The exceptions of `load_dtb`. -/
inductive Error
  | fileTooShort
  | unknownMagic (magic : List UInt8)
  | unknownVersion (version : UInt32)
  | incompleteEntryDescription
  | incompleteDtbEntry
  deriving DecidableEq, Repr

/-- One entry of the table. -/
structure Desc where
  platform : UInt32
  variant : UInt32
  subtype : UInt32
  offset : UInt32
  size : UInt32
  deriving DecidableEq, Repr

/-- An entry with its blob. -/
structure Entry extends Desc where
  data : List UInt8
  deriving DecidableEq, Repr

/-- What `load_dtb` returns. -/
structure Dtb where
  magic : List UInt8
  version : UInt32
  entry : List Entry
  deriving DecidableEq, Repr

/-- `"AML_"`. -/
def amlMagic : List UInt8 := [0x41, 0x4d, 0x4c, 0x5f]

/-- The entry of an unpacked record: the padding is skipped. -/
def Desc.unpack (bs : List UInt8) : Desc :=
  let (platform, _, variant, _, subtype, _, offset, size) := entryStruct.dec bs
  { platform, variant, subtype, offset, size }

/-- The loop that reads the table. -/
def readTable : ℕ → ByteFile → Except Error (List Desc)
  | 0, _ => .ok []
  | n + 1, f =>
    let (entry, f) := f.read entryStruct.size
    if entry.length ≠ entryStruct.size then .error .incompleteEntryDescription
    else (readTable n f).map (Desc.unpack entry :: ·)

/-- The loop that reads the blobs. -/
def readData : List Desc → ByteFile → Except Error (List Entry)
  | [], _ => .ok []
  | e :: es, f =>
    let (data, f) := (f.seek e.offset.toNat).read e.size.toNat
    if data.length ≠ e.size.toNat then .error .incompleteDtbEntry
    else (readData es f).map ({ e with data } :: ·)

/-- `load_dtb` of a file with these bytes. -/
def loadDtb (bytes : List UInt8) : Except Error Dtb :=
  let (hdr, f) := (openFile bytes).read headerStruct.size
  if hdr.length ≠ headerStruct.size then .error .fileTooShort
  else
    let (magic, version, ecount) := headerStruct.dec hdr
    if magic.1 ≠ amlMagic then .error (.unknownMagic magic.1)
    else if version ≠ 2 then .error (.unknownVersion version)
    else do
      let table ← readTable ecount.toNat f
      let entry ← readData table f
      return { magic := magic.1, version, entry }

/-! ## What the bytes of a file say -/

section Fields

variable (bytes : List UInt8)

/-- The magic, the version and the number of entries. -/
def header : {bs : List UInt8 // bs.length = 4} × UInt32 × UInt32 :=
  headerStruct.dec (slice bytes 0 headerStruct.size)

/-- The number of entries. -/
def ecount : ℕ := (header bytes).2.2.toNat

/-- The record of an entry. -/
def descAt (i : ℕ) : Desc :=
  Desc.unpack (slice bytes (headerStruct.size + entryStruct.size * i) entryStruct.size)

/-- An entry with the bytes at its offset. -/
def Desc.load (e : Desc) : Entry :=
  { e with data := slice bytes e.offset.toNat e.size.toNat }

/-- **An entry** of the file, as its bytes say it. -/
def entryAt (i : ℕ) : Entry := (descAt bytes i).load bytes

/-- The blob of an entry is empty, or ends in the file. -/
def Desc.Inside (e : Desc) : Prop :=
  e.size.toNat = 0 ∨ e.offset.toNat + e.size.toNat ≤ bytes.length

/-- **The well-formed files**: magic and version, the whole table, and every blob that is not empty
inside the file. -/
structure Accepted : Prop where
  header : headerStruct.size ≤ bytes.length
  magic : (Undtb.header bytes).1.1 = amlMagic
  version : (Undtb.header bytes).2.1 = 2
  table : headerStruct.size + entryStruct.size * ecount bytes ≤ bytes.length
  blobs : ∀ i < ecount bytes, (descAt bytes i).Inside bytes

end Fields

/-! ## The loops -/

section Loops

variable {bytes : List UInt8}

/-- **The loop over the table** reads it, if it is all there. -/
theorem readTable_of_le {n pos : ℕ} (h : pos + entryStruct.size * n ≤ bytes.length) :
    readTable n ⟨bytes, pos⟩ = .ok ((List.range n).map fun i =>
      Desc.unpack (slice bytes (pos + entryStruct.size * i) entryStruct.size)) := by
  induction n generalizing pos with
  | zero => rfl
  | succ n ih =>
    rw [Nat.mul_succ] at h
    rw [readTable, read_of_le (by dsimp only; omega)]
    dsimp only
    rw [if_neg (by rw [length_slice_eq_iff.mpr (.inr (by omega))]; simp), ih (by omega),
      List.range_succ_eq_map, List.map_cons, List.map_map]
    -- the rest of the table starts one record later
    have hrest : (fun i => Desc.unpack (slice bytes (pos + entryStruct.size + entryStruct.size * i)
        entryStruct.size)) = (fun i => Desc.unpack (slice bytes (pos + entryStruct.size * i)
        entryStruct.size)) ∘ Nat.succ := by
      funext i
      rw [Function.comp_apply, Nat.mul_succ, Nat.add_assoc, Nat.add_comm entryStruct.size]
    rw [hrest]
    rfl

theorem readTable_of_lt {n pos : ℕ} (hpos : pos ≤ bytes.length)
    (h : bytes.length < pos + entryStruct.size * n) :
    readTable n ⟨bytes, pos⟩ = .error .incompleteEntryDescription := by
  induction n generalizing pos with
  | zero => omega
  | succ n ih =>
    rw [Nat.mul_succ] at h
    by_cases hread : pos + entryStruct.size ≤ bytes.length
    · rw [readTable, read_of_le hread]
      dsimp only
      rw [if_neg (by rw [length_slice_eq_iff.mpr (.inr hread)]; simp), ih hread (by omega)]
      rfl
    · -- the file ends in this record
      rw [readTable, ByteFile.read]
      dsimp only
      rw [if_pos]
      rw [ne_eq, length_slice_eq_iff, not_or]
      exact ⟨by decide, hread⟩

/-- **The loop over the blobs** reads them, if they are all there. -/
theorem readData_of_inside {es : List Desc} (h : ∀ e ∈ es, e.Inside bytes) (pos : ℕ) :
    readData es ⟨bytes, pos⟩ = .ok (es.map (Desc.load bytes)) := by
  induction es generalizing pos with
  | nil => rfl
  | cons e es ih =>
    rw [List.forall_mem_cons] at h
    rw [readData, seek, ByteFile.read]
    dsimp only
    rw [if_neg (by rw [length_slice_eq_iff.mpr h.1]; simp), ih h.2]
    rfl

theorem readData_of_not_inside {es : List Desc} (h : ∃ e ∈ es, ¬ e.Inside bytes) (pos : ℕ) :
    readData es ⟨bytes, pos⟩ = .error .incompleteDtbEntry := by
  induction es generalizing pos with
  | nil => simp at h
  | cons e es ih =>
    rw [readData, seek, ByteFile.read]
    dsimp only
    by_cases he : e.Inside bytes
    · -- the blob that is missing comes later
      rw [if_neg (by rw [length_slice_eq_iff.mpr he]; simp), ih (by simpa [he] using h)]
      rfl
    · rw [if_pos]
      rwa [ne_eq, length_slice_eq_iff]

end Loops

/-! ## The well-formed files -/

section Accepted

variable {bytes : List UInt8}

/-- A file with a header. -/
theorem loadDtb_of_le (h : headerStruct.size ≤ bytes.length) :
    loadDtb bytes =
      if (header bytes).1.1 ≠ amlMagic then .error (.unknownMagic (header bytes).1.1)
      else if (header bytes).2.1 ≠ 2 then .error (.unknownVersion (header bytes).2.1)
      else do
        let table ← readTable (ecount bytes) ⟨bytes, headerStruct.size⟩
        let entry ← readData table ⟨bytes, headerStruct.size⟩
        return { magic := (header bytes).1.1, version := (header bytes).2.1, entry } := by
  have hread : (openFile bytes).read headerStruct.size =
      (slice bytes 0 headerStruct.size, ⟨bytes, headerStruct.size⟩) := by
    rw [read_of_le (by simpa [openFile] using h)]
    simp [openFile]
  rw [loadDtb, hread]
  dsimp only
  rw [if_neg (by rw [length_slice_eq_iff.mpr (.inr (by omega))]; simp)]
  rfl

/-- **A well-formed file** is read, entry by entry. -/
theorem loadDtb_of_accepted (h : Accepted bytes) :
    loadDtb bytes = .ok ⟨amlMagic, 2, (List.range (ecount bytes)).map (entryAt bytes)⟩ := by
  have hblobs : ∀ e ∈ (List.range (ecount bytes)).map (descAt bytes), e.Inside bytes := by
    intro e he
    obtain ⟨i, hi, rfl⟩ := List.mem_map.mp he
    exact h.blobs i (List.mem_range.mp hi)
  have htable : readTable (ecount bytes) ⟨bytes, headerStruct.size⟩ =
      .ok ((List.range (ecount bytes)).map (descAt bytes)) := readTable_of_le h.table
  rw [loadDtb_of_le h.header, if_neg (by simp [h.magic]), if_neg (by simp [h.version]), htable]
  change (readData _ _).bind _ = _
  rw [readData_of_inside hblobs, h.magic, h.version, List.map_map]
  rfl

/-- **Any other file** raises an exception. -/
theorem loadDtb_of_not_accepted (h : ¬ Accepted bytes) : ∃ e, loadDtb bytes = .error e := by
  by_cases hheader : headerStruct.size ≤ bytes.length
  · rw [loadDtb_of_le hheader]
    split
    · exact ⟨_, rfl⟩
    · next hmagic =>
      split
      · exact ⟨_, rfl⟩
      · next hversion =>
        by_cases htable : headerStruct.size + entryStruct.size * ecount bytes ≤ bytes.length
        · -- the table is there, so a blob is missing
          have hblob : ∃ e ∈ (List.range (ecount bytes)).map (descAt bytes), ¬ e.Inside bytes := by
            by_contra hall
            push Not at hall
            refine h ⟨hheader, not_not.mp hmagic, not_not.mp hversion, htable, ?_⟩
            intro i hi
            exact hall _ (List.mem_map_of_mem (List.mem_range.mpr hi))
          have hread : readTable (ecount bytes) ⟨bytes, headerStruct.size⟩ =
              .ok ((List.range (ecount bytes)).map (descAt bytes)) := readTable_of_le htable
          refine ⟨.incompleteDtbEntry, ?_⟩
          rw [hread]
          change (readData _ _).bind _ = _
          rw [readData_of_not_inside hblob]
          rfl
        · -- the file ends in the table
          refine ⟨.incompleteEntryDescription, ?_⟩
          rw [readTable_of_lt hheader (by omega)]
          rfl
  · refine ⟨.fileTooShort, ?_⟩
    rw [loadDtb, ByteFile.read]
    dsimp only
    rw [if_pos]
    rw [ne_eq, length_slice_eq_iff, not_or]
    exact ⟨by decide, by simpa [openFile] using hheader⟩

end Accepted

/-! ## Containers -/

/-- An entry of a container, with what its record is padded with. -/
structure Item where
  platform : UInt32
  variant : UInt32
  subtype : UInt32
  padding : Padding × Padding × Padding
  offset : UInt32
  blob : List UInt8

namespace Item

/-- The record of an entry in the table. -/
def record (x : Item) : List UInt8 :=
  entryStruct.enc (x.platform, x.padding.1, x.variant, x.padding.2.1, x.subtype, x.padding.2.2,
    x.offset, .ofNat x.blob.length)

/-- The entry, as `load_dtb` returns it. -/
def entry (x : Item) : Entry :=
  { platform := x.platform, variant := x.variant, subtype := x.subtype, offset := x.offset
    size := .ofNat x.blob.length, data := x.blob }

theorem length_record (x : Item) : x.record.length = entryStruct.size := Codec.length_enc ..

theorem length_records (xs : List Item) :
    (xs.flatMap record).length = entryStruct.size * xs.length := by
  induction xs with
  | nil => rfl
  | cons x xs ih =>
    rw [List.flatMap_cons, List.length_append, x.length_record, ih, List.length_cons, Nat.mul_succ,
      Nat.add_comm]

theorem unpack_record (x : Item) : Desc.unpack x.record = x.entry.toDesc := by
  have hdec := entryStruct.dec_enc (x.platform, x.padding.1, x.variant, x.padding.2.1, x.subtype,
    x.padding.2.2, x.offset, .ofNat x.blob.length) []
  rw [List.append_nil] at hdec
  rw [Desc.unpack, record, hdec]
  rfl

/-- The record of an entry is found at its place in the table. -/
theorem slice_records (front : List UInt8) (xs : List Item) (back : List UInt8) {i : ℕ}
    (hi : i < xs.length) :
    slice (front ++ (xs.flatMap record ++ back)) (front.length + entryStruct.size * i)
      entryStruct.size = xs[i].record := by
  induction xs generalizing front i with
  | nil => simp at hi
  | cons x xs ih =>
    rw [List.flatMap_cons, List.append_assoc]
    cases i with
    | zero =>
      rw [slice_append_left (by simp), List.take_left' x.length_record, List.getElem_cons_zero]
    | succ i =>
      have := ih (front ++ x.record) (i := i) (by simpa using hi)
      rw [List.append_assoc, List.length_append, x.length_record] at this
      rw [Nat.mul_succ, Nat.add_comm (_ * i), ← Nat.add_assoc, this, List.getElem_cons_succ]

end Item

/-- The bytes of a container: header, table, the zero delimiter, and everything behind it. -/
def image (items : List Item) (rest : List UInt8) : List UInt8 :=
  headerStruct.enc (⟨amlMagic, rfl⟩, 2, .ofNat items.length) ++
    (items.flatMap Item.record ++ (Codec.uint32.enc 0 ++ rest))

/-- **A container** in the format: the number of entries and the sizes fit their fields, and each
blob is found in the file at its offset. -/
structure Container where
  items : List Item
  rest : List UInt8
  count_lt : items.length < 2 ^ 32
  size_lt : ∀ x ∈ items, x.blob.length < 2 ^ 32
  inside : ∀ x ∈ items, x.offset.toNat + x.blob.length ≤ (image items rest).length
  placed : ∀ x ∈ items, slice (image items rest) x.offset.toNat x.blob.length = x.blob

namespace Container

variable (c : Container)

/-- The bytes of the container. -/
def image : List UInt8 := Undtb.image c.items c.rest

/-- The container, as `load_dtb` returns it. -/
def dtb : Dtb := ⟨amlMagic, 2, c.items.map Item.entry⟩

theorem header_image : header c.image = (⟨amlMagic, rfl⟩, 2, .ofNat c.items.length) := by
  have hslice : slice c.image 0 headerStruct.size =
      headerStruct.enc (⟨amlMagic, rfl⟩, 2, .ofNat c.items.length) := by
    rw [slice, List.drop_zero, image, Undtb.image, List.take_left' (Codec.length_enc ..)]
  have hdec := headerStruct.dec_enc (⟨amlMagic, rfl⟩, 2, .ofNat c.items.length) []
  rw [List.append_nil] at hdec
  rw [header, hslice, hdec]

theorem ecount_image : ecount c.image = c.items.length := by
  rw [ecount, header_image]
  exact Nat.mod_eq_of_lt c.count_lt

theorem descAt_image {i : ℕ} (hi : i < c.items.length) :
    descAt c.image i = c.items[i].entry.toDesc := by
  have hslice := Item.slice_records
    (headerStruct.enc (⟨amlMagic, rfl⟩, 2, .ofNat c.items.length)) c.items
    (Codec.uint32.enc 0 ++ c.rest) hi
  rw [Codec.length_enc] at hslice
  rw [descAt, image, Undtb.image, hslice, Item.unpack_record]

theorem size_entry {x : Item} (hx : x ∈ c.items) : x.entry.size.toNat = x.blob.length :=
  Nat.mod_eq_of_lt (c.size_lt x hx)

theorem entryAt_image {i : ℕ} (hi : i < c.items.length) :
    entryAt c.image i = c.items[i].entry := by
  have hmem : c.items[i] ∈ c.items := List.getElem_mem hi
  have hdata : slice c.image c.items[i].entry.offset.toNat c.items[i].entry.size.toNat =
      c.items[i].blob := by
    rw [c.size_entry hmem]
    exact c.placed _ hmem
  rw [entryAt, descAt_image c hi, Desc.load, hdata]
  rfl

theorem length_image : headerStruct.size + entryStruct.size * c.items.length ≤ c.image.length := by
  rw [image, Undtb.image, List.length_append, Codec.length_enc, List.length_append,
    Item.length_records]
  omega

theorem accepted : Accepted c.image where
  header := by
    have := c.length_image
    omega
  magic := by rw [header_image]
  version := by rw [header_image]
  table := by
    rw [ecount_image]
    exact c.length_image
  blobs i hi := by
    rw [ecount_image] at hi
    have hmem : c.items[i] ∈ c.items := List.getElem_mem hi
    rw [descAt_image c hi, Desc.Inside, c.size_entry hmem]
    exact .inr (c.inside _ hmem)

/-- **A container is read back.** -/
theorem loadDtb_image : loadDtb c.image = .ok c.dtb := by
  have hentry : (List.range c.items.length).map (entryAt c.image) = c.items.map Item.entry := by
    apply List.ext_getElem
    · simp
    · intro i hi _
      rw [List.length_map, List.length_range] at hi
      rw [List.getElem_map, List.getElem_range, List.getElem_map, entryAt_image c hi]
  rw [loadDtb_of_accepted c.accepted, ecount_image, hentry, dtb]

end Container

/-! ## Making containers -/

/-- An entry that is to be put in a container. -/
structure Tree where
  platform : UInt32
  variant : UInt32
  subtype : UInt32
  blob : List UInt8

def Item.tree (x : Item) : Tree := ⟨x.platform, x.variant, x.subtype, x.blob⟩

/-- Twelve spaces. -/
def spaces : Padding := ⟨List.replicate 12 0x20, rfl⟩

/-- The entries of trees whose blobs follow one another from `offset` on. -/
def place : ℕ → List Tree → List Item
  | _, [] => []
  | offset, t :: ts =>
    { platform := t.platform, variant := t.variant, subtype := t.subtype
      padding := (spaces, spaces, spaces), offset := .ofNat offset, blob := t.blob } ::
      place (offset + t.blob.length) ts

theorem length_place (offset : ℕ) (ts : List Tree) : (place offset ts).length = ts.length := by
  induction ts generalizing offset with
  | nil => rfl
  | cons t ts ih => rw [place, List.length_cons, ih, List.length_cons]

theorem tree_place (offset : ℕ) (ts : List Tree) : (place offset ts).map Item.tree = ts := by
  induction ts generalizing offset with
  | nil => rfl
  | cons t ts ih =>
    rw [place, List.map_cons, ih]
    rfl

/-- Every blob is found where `place` says. -/
theorem slice_place (front : List UInt8) (ts : List Tree)
    (h : (front ++ ts.flatMap Tree.blob).length < 2 ^ 32) :
    ∀ x ∈ place front.length ts,
      x.blob.length < 2 ^ 32 ∧
        x.offset.toNat + x.blob.length ≤ (front ++ ts.flatMap Tree.blob).length ∧
        slice (front ++ ts.flatMap Tree.blob) x.offset.toNat x.blob.length = x.blob := by
  induction ts generalizing front with
  | nil => simp [place]
  | cons t ts ih =>
    rw [List.flatMap_cons] at h ⊢
    rw [place, List.forall_mem_cons]
    constructor
    · simp only [List.length_append] at h ⊢
      have hoffset : (UInt32.ofNat front.length).toNat = front.length := Nat.mod_eq_of_lt (by omega)
      rw [hoffset, slice_append_left rfl, List.take_left' rfl]
      exact ⟨by omega, by omega, rfl⟩
    · have := ih (front ++ t.blob) (by rwa [List.append_assoc])
      rwa [List.length_append, List.append_assoc] at this

/-- **Trees can be put in a container**, unless it grows to 4 GiB. -/
theorem exists_container (ts : List Tree)
    (h : headerStruct.size + entryStruct.size * ts.length + 4 + (ts.flatMap Tree.blob).length <
      2 ^ 32) :
    ∃ c : Container, c.items.map Item.tree = ts := by
  let offset := headerStruct.size + entryStruct.size * ts.length + 4
  let items := place offset ts
  have hlength : items.length = ts.length := length_place offset ts
  -- the blobs start behind the delimiter
  let front := headerStruct.enc (⟨amlMagic, rfl⟩, 2, .ofNat items.length) ++
    (items.flatMap Item.record ++ Codec.uint32.enc 0)
  have hfront : front.length = offset := by
    rw [List.length_append, List.length_append, Codec.length_enc, Item.length_records,
      Codec.length_enc, hlength, ← Nat.add_assoc]
    rfl
  have himage : image items (ts.flatMap Tree.blob) = front ++ ts.flatMap Tree.blob := by
    simp only [image, front, List.append_assoc]
  have hplace := slice_place front ts
    (by rw [List.length_append, hfront]; exact h)
  rw [hfront, ← himage] at hplace
  refine ⟨⟨items, ts.flatMap Tree.blob, ?_, ?_, ?_, ?_⟩, tree_place offset ts⟩
  · rw [hlength]
    have hcount : ts.length ≤ entryStruct.size * ts.length :=
      Nat.le_mul_of_pos_left _ (by decide)
    omega
  · exact fun x hx => (hplace x hx).1
  · exact fun x hx => (hplace x hx).2.1
  · exact fun x hx => (hplace x hx).2.2

/-- **`load_dtb` decodes the format**: it reads back every container; of any file it returns the
entries of its table in order, as many as the header counts, each with exactly the bytes at its
place; and it raises an exception on every file that is not well-formed. -/
theorem loadDtb_container (c : Container) (bytes : List UInt8) :
    loadDtb c.image = .ok c.dtb ∧
      (∀ d, loadDtb bytes = .ok d →
        d = ⟨amlMagic, 2, (List.range (ecount bytes)).map (entryAt bytes)⟩ ∧
          d.entry.length = ecount bytes ∧
          ∀ e ∈ d.entry, e.data = slice bytes e.offset.toNat e.size.toNat ∧
            e.data.length = e.size.toNat) ∧
      ((∃ d, loadDtb bytes = .ok d) ↔ Accepted bytes) := by
  have haccepted : ∀ d, loadDtb bytes = .ok d → Accepted bytes := by
    intro d hd
    by_contra h
    obtain ⟨e, he⟩ := loadDtb_of_not_accepted h
    rw [hd] at he
    cases he
  refine ⟨c.loadDtb_image, ?_, ?_⟩
  · intro d hd
    have h := haccepted d hd
    rw [loadDtb_of_accepted h] at hd
    obtain rfl := Except.ok.inj hd
    refine ⟨rfl, by simp, ?_⟩
    intro e he
    obtain ⟨i, hi, rfl⟩ := List.mem_map.mp he
    exact ⟨rfl, length_slice_eq_iff.mpr (h.blobs i (List.mem_range.mp hi))⟩
  · constructor
    · rintro ⟨d, hd⟩
      exact haccepted d hd
    · intro h
      exact ⟨_, loadDtb_of_accepted h⟩

end Undtb
