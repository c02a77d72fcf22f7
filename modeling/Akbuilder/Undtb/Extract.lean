import Akbuilder.Lib.Writes
import Akbuilder.Undtb.Container
import Mathlib.Data.List.Induction

/-!
# The files that `undtb` writes

`undtb` takes every container on its command line apart, one after the other, and writes each tree
to a file named by the base name of its container and a running number. The base name does not say
where the container was, or what its extension was, so that containers can get in each other's way.

## Main definitions

* `basename`, `stem`, `join`: the functions of `os.path`
* `outputPath`: the name of the file for an entry
* `extract`, `undtb`: the program
* `Lossless`: every tree is in its file at the end, and every container is read as it was
* `Harmless`: containers that do not get in each other's way

## Main results

* `outputName_inj`: the name of a file says the base name and the number
* `undtb_eq`: a run writes the trees of its containers, in sequence
* `lossless_iff`: a run loses no tree if and only if its containers are harmless
-/

namespace Undtb

/-- The text of a path. -/
abbrev Path := List Char

/-! ## Names -/

/-- `os.path.basename`: what follows the last slash. -/
def basename (p : Path) : Path := (p.reverse.takeWhile (· ≠ '/')).reverse

/-- `os.path.splitext (name) [0]` of a name without slashes: what precedes the last dot, unless
that is only dots. -/
def stem (name : Path) : Path :=
  if '.' ∈ name then
    let root := ((name.reverse.dropWhile (· ≠ '.')).drop 1).reverse
    if root.all (· = '.') then name else root
  else name

/-- `os.path.join`, for a second part that does not start with a slash. -/
def join (dir name : Path) : Path :=
  if dir = [] ∨ dir.getLast? = some '/' then dir ++ name else dir ++ '/' :: name

/-- `"%s-%d.dtb"` -/
def outputName (stem : Path) (serial : ℕ) : Path :=
  stem ++ '-' :: (Nat.toDigits 10 serial ++ ".dtb".toList)

theorem notMem_toDigits (n : ℕ) : '-' ∉ Nat.toDigits 10 n := fun hmem =>
  absurd (Nat.isDigit_of_mem_toDigits (by decide) (by decide) hmem) (by decide)

theorem toDigits_inj {m n : ℕ} (h : Nat.toDigits 10 m = Nat.toDigits 10 n) : m = n := by
  rw [← @Nat.ofDigitChars_ten_toDigits m, h, Nat.ofDigitChars_ten_toDigits]

/-- The last hyphen parts a name into the stem and the number, also where the stem ends in a
number itself. -/
theorem outputName_inj {s s' : Path} {n n' : ℕ} (h : outputName s n = outputName s' n') :
    s = s' ∧ n = n' := by
  -- the last hyphen is the one in front of the number
  have hnone (n : ℕ) : '-' ∉ Nat.toDigits 10 n ++ ".dtb".toList := by
    rw [List.mem_append, not_or]
    exact ⟨notMem_toDigits n, by decide⟩
  rcases List.append_eq_append_iff.mp h with ⟨mid, rfl, hmid⟩ | ⟨mid, rfl, hmid⟩
  · rcases mid with _ | ⟨c, mid⟩
    · have hdigits := List.append_cancel_right (List.cons.inj hmid).2
      exact ⟨(List.append_nil s).symm, toDigits_inj hdigits⟩
    · -- a second hyphen
      obtain ⟨rfl, htail⟩ := List.cons.inj hmid
      exact absurd (by rw [htail]; simp) (hnone n)
  · rcases mid with _ | ⟨c, mid⟩
    · have hdigits := List.append_cancel_right (List.cons.inj hmid).2
      exact ⟨List.append_nil s', (toDigits_inj hdigits).symm⟩
    · obtain ⟨rfl, htail⟩ := List.cons.inj hmid
      exact absurd (by rw [htail]; simp) (hnone n')

/-! ## The program -/

/-- The bytes of a file. -/
abbrev Bytes := List UInt8

/-- What the program cannot see of the file system: the file that a path leads to, through
directories and links, and the paths that `file (ofn, "w")` refuses. -/
structure System (F : Type) where
  locate : Path → F
  refuses : Path → Bool

/-- The files. -/
abbrev Files (F : Type) := F → Option Bytes

/-- The exceptions. -/
inductive Exception
  /-- a file that cannot be opened -/
  | io (path : Path)
  | load (e : Error)
  /-- `sys.exit (1)` -/
  | usage
  deriving DecidableEq, Repr

section Program

variable {F : Type} [DecidableEq F] (sys : System F) (outDir : Path)

/-- `ofn` -/
def outputPath (fn : Path) (serial : ℕ) : Path :=
  join outDir (outputName (stem (basename fn)) serial)

/-- The loop over the entries, from the number `serial` on. -/
def writeEntries (fn : Path) : ℕ → List Entry → Files F → Except Exception (Files F)
  | _, [], fs => .ok fs
  | serial, e :: es, fs =>
    let ofn := outputPath outDir fn serial
    if sys.refuses ofn then .error (.io ofn)
    else writeEntries fn (serial + 1) es (Function.update fs (sys.locate ofn) (some e.data))

/-- `extract` -/
def extract (fn : Path) (fs : Files F) : Except Exception (Files F) :=
  match fs (sys.locate fn) with
  | none => .error (.io fn)
  | some bytes =>
    match loadDtb bytes with
    | .error e => .error (.load e)
    | .ok dtb => writeEntries sys outDir fn 0 dtb.entry fs

/-- The loop over the arguments. -/
def extractAll : List Path → Files F → Except Exception (Files F)
  | [], fs => .ok fs
  | fn :: args, fs => do
    let fs ← extract sys outDir fn fs
    extractAll args fs

/-- The program, with the arguments that `optparse` leaves. -/
def undtb (args : List Path) (fs : Files F) : Except Exception (Files F) :=
  if args = [] then .error .usage else extractAll sys outDir args fs

end Program

/-! ## What is lost -/

section Harmless

variable {F : Type} (sys : System F) (outDir : Path) (fs : Files F)

/-- The entries of a container. -/
def entries (fn : Path) : List Entry :=
  match fs (sys.locate fn) with
  | none => []
  | some bytes =>
    match loadDtb bytes with
    | .error _ => []
    | .ok dtb => dtb.entry

/-- The file for an entry. -/
def outputFile (fn : Path) (serial : ℕ) : F := sys.locate (outputPath outDir fn serial)

/-- The blob of an entry. -/
def blob (fn : Path) (serial : ℕ) : Option Bytes := (entries sys fs fn)[serial]?.map Entry.data

/-- A container that an earlier one writes a tree to is this tree. -/
def Spared (args : List Path) : Prop :=
  ∀ before fn after, args = before ++ fn :: after → ∀ fn' ∈ before, ∀ serial,
    outputFile sys outDir fn' serial = sys.locate fn →
    ∀ data ∈ blob sys fs fn' serial, fs (sys.locate fn) = some data

/-- **Containers that do not get in each other's way**: where two have the same name without
directory and extension, or links make one file of two names, the trees are equal; and a container
that an earlier one writes a tree to is this tree. -/
structure Harmless (args : List Path) : Prop where
  sameStem : ∀ fn ∈ args, ∀ fn' ∈ args, stem (basename fn) = stem (basename fn') →
    ∀ serial, ∀ data ∈ blob sys fs fn serial, ∀ data' ∈ blob sys fs fn' serial, data = data'
  linked : ∀ fn ∈ args, ∀ fn' ∈ args, ∀ serial serial',
    outputPath outDir fn serial ≠ outputPath outDir fn' serial' →
    outputFile sys outDir fn serial = outputFile sys outDir fn' serial' →
    ∀ data ∈ blob sys fs fn serial, ∀ data' ∈ blob sys fs fn' serial', data = data'
  inputs : Spared sys outDir fs args

/-- What a container writes, if it is as it was before the run. -/
def writes (fn : Path) : List (F × Bytes) :=
  (entries sys fs fn).zipIdx.map fun e => (outputFile sys outDir fn e.2, e.1.data)

variable {sys outDir fs} {args : List Path} {fn : Path} {w : F × Bytes}

theorem mem_writes : w ∈ writes sys outDir fs fn ↔
    ∃ serial, w.2 ∈ blob sys fs fn serial ∧ w.1 = outputFile sys outDir fn serial := by
  simp only [writes, List.mem_map, List.mem_zipIdx_iff_getElem?, blob, Option.mem_def,
    Option.map_eq_some_iff]
  constructor
  · rintro ⟨⟨e, serial⟩, he, rfl⟩
    exact ⟨serial, ⟨e, he, rfl⟩, rfl⟩
  · rintro ⟨serial, ⟨e, he, hdata⟩, hfile⟩
    exact ⟨(e, serial), he, Prod.ext hfile.symm hdata⟩

theorem mem_flatMap_writes : w ∈ args.flatMap (writes sys outDir fs) ↔
    ∃ fn ∈ args, ∃ serial, w.2 ∈ blob sys fs fn serial ∧ w.1 = outputFile sys outDir fn serial := by
  simp only [List.mem_flatMap, mem_writes]

theorem Spared.of_append {args' : List Path} (h : Spared sys outDir fs (args ++ args')) :
    Spared sys outDir fs args := fun before fn after hargs =>
  h before fn (after ++ args') (by rw [hargs, List.append_assoc, List.cons_append])

theorem join_inj {dir name name' : Path} (h : join dir name = join dir name') : name = name' := by
  unfold join at h
  split at h
  · exact List.append_cancel_left h
  · exact (List.cons.inj (List.append_cancel_left h)).2

/-- Containers that do not get in each other's way agree on what they write. -/
theorem Harmless.agree (h : Harmless sys outDir fs args) :
    Writes.Agree (args.flatMap (writes sys outDir fs)) := by
  intro w hw w' hw' hfile
  obtain ⟨fn, hfn, serial, hdata, heq⟩ := mem_flatMap_writes.mp hw
  obtain ⟨fn', hfn', serial', hdata', heq'⟩ := mem_flatMap_writes.mp hw'
  rw [heq, heq'] at hfile
  by_cases hpath : outputPath outDir fn serial = outputPath outDir fn' serial'
  · -- one name, so one stem and one number
    obtain ⟨hstem, rfl⟩ := outputName_inj (join_inj hpath)
    exact h.sameStem fn hfn fn' hfn' hstem serial _ hdata _ hdata'
  · exact h.linked fn hfn fn' hfn' serial serial' hpath hfile _ hdata _ hdata'

/-- Containers that agree on what they write, and spare each other. -/
theorem harmless_of_agree (hagree : Writes.Agree (args.flatMap (writes sys outDir fs)))
    (hspared : Spared sys outDir fs args) : Harmless sys outDir fs args := by
  have hone : ∀ fn ∈ args, ∀ fn' ∈ args, ∀ serial serial',
      outputFile sys outDir fn serial = outputFile sys outDir fn' serial' →
      ∀ data ∈ blob sys fs fn serial, ∀ data' ∈ blob sys fs fn' serial', data = data' := by
    intro fn hfn fn' hfn' serial serial' hfile data hdata data' hdata'
    exact hagree (_, data) (mem_flatMap_writes.mpr ⟨fn, hfn, serial, hdata, rfl⟩)
      (_, data') (mem_flatMap_writes.mpr ⟨fn', hfn', serial', hdata', rfl⟩) hfile
  refine ⟨?_, ?_, hspared⟩
  -- one name for both
  · intro fn hfn fn' hfn' hstem serial
    refine hone fn hfn fn' hfn' serial serial ?_
    rw [outputFile, outputFile, outputPath, outputPath, hstem]
  · intro fn hfn fn' hfn' serial serial' _ hfile
    exact hone fn hfn fn' hfn' serial serial' hfile

end Harmless

/-! ## Runs -/

section Lossless

variable {F : Type} [DecidableEq F] (sys : System F) (outDir : Path) (fs : Files F)

/-- Every container is read as it was before the run. -/
def Intact (args : List Path) : Prop :=
  ∀ before fn after fs₁, args = before ++ fn :: after →
    extractAll sys outDir before fs = .ok fs₁ → fs₁ (sys.locate fn) = fs (sys.locate fn)

/-- **No tree is lost** by a run from the files `fs` to the files `fs'`: every container is read as
it was before the run, and each of its trees is in its file at the end. -/
structure Lossless (args : List Path) (fs' : Files F) : Prop where
  inputs : Intact sys outDir fs args
  outputs : ∀ fn ∈ args, ∀ serial, ∀ data ∈ blob sys fs fn serial,
    fs' (outputFile sys outDir fn serial) = some data

variable {sys outDir fs} {args : List Path} {fn : Path} {fs₁ fs' : Files F}

theorem writeEntries_eq {serial : ℕ} {es : List Entry}
    (hrun : writeEntries sys outDir fn serial es fs₁ = .ok fs') :
    fs' = Writes.apply fs₁
      ((es.zipIdx serial).map fun e => (outputFile sys outDir fn e.2, e.1.data)) := by
  induction es generalizing serial fs₁ with
  | nil =>
    rw [writeEntries, Except.ok.injEq] at hrun
    exact hrun.symm
  | cons e es ih =>
    simp only [writeEntries] at hrun
    split at hrun
    · cases hrun
    · rw [ih hrun]
      rfl

/-- A container that is intact writes its trees. -/
theorem extract_eq (hrun : extract sys outDir fn fs₁ = .ok fs')
    (hintact : fs₁ (sys.locate fn) = fs (sys.locate fn)) :
    fs' = Writes.apply fs₁ (writes sys outDir fs fn) := by
  -- the container is read as it was at the start of the run
  unfold extract at hrun
  rw [hintact] at hrun
  unfold writes entries
  cases hfile : fs (sys.locate fn) with
  | none =>
    rw [hfile] at hrun
    cases hrun
  | some bytes =>
    rw [hfile] at hrun
    dsimp only at hrun ⊢
    cases hload : loadDtb bytes with
    | error e =>
      rw [hload] at hrun
      cases hrun
    | ok dtb =>
      rw [hload] at hrun
      exact writeEntries_eq hrun

theorem extractAll_concat : extractAll sys outDir (args ++ [fn]) fs =
    (extractAll sys outDir args fs).bind (extract sys outDir fn) := by
  induction args generalizing fs with
  | nil =>
    show (extract sys outDir fn fs).bind _ = extract sys outDir fn fs
    cases extract sys outDir fn fs <;> rfl
  | cons fn' args ih =>
    show (extract sys outDir fn' fs).bind _ = ((extract sys outDir fn' fs).bind _).bind _
    cases extract sys outDir fn' fs with
    | error e => rfl
    | ok fs₁ => exact ih

/-- A run that reaches its end has reached every point before it. -/
theorem extractAll_append {args' : List Path}
    (hrun : extractAll sys outDir (args ++ args') fs = .ok fs') :
    ∃ fs₁, extractAll sys outDir args fs = .ok fs₁ := by
  induction args generalizing fs with
  | nil => exact ⟨fs, rfl⟩
  | cons fn args ih =>
    -- what comes first finished, as the rest was run
    change (extract sys outDir fn fs).bind _ = _ at hrun
    cases hfst : extract sys outDir fn fs with
    | error e =>
      rw [hfst] at hrun
      cases hrun
    | ok fs₂ =>
      rw [hfst] at hrun
      obtain ⟨fs₁, hfs₁⟩ := ih hrun
      refine ⟨fs₁, ?_⟩
      show (extract sys outDir fn fs).bind _ = _
      rw [hfst]
      exact hfs₁

theorem Intact.of_append {args' : List Path} (h : Intact sys outDir fs (args ++ args')) :
    Intact sys outDir fs args := fun before fn after fs₁ hargs =>
  h before fn (after ++ args') fs₁ (by rw [hargs, List.append_assoc, List.cons_append])

/-- **A run writes the trees of its containers**, in sequence, if they are intact. -/
theorem extractAll_eq (hrun : extractAll sys outDir args fs = .ok fs')
    (hintact : Intact sys outDir fs args) :
    fs' = Writes.apply fs (args.flatMap (writes sys outDir fs)) := by
  induction args using List.reverseRecOn generalizing fs' with
  | nil =>
    rw [extractAll, Except.ok.injEq] at hrun
    exact hrun.symm
  | append_singleton args fn ih =>
    rw [extractAll_concat] at hrun
    cases hfst : extractAll sys outDir args fs with
    | error e =>
      rw [hfst] at hrun
      cases hrun
    | ok fs₁ =>
      rw [hfst] at hrun
      rw [List.flatMap_append, Writes.apply_append, ← ih hfst hintact.of_append,
        List.flatMap_singleton]
      exact extract_eq hrun (hintact args fn [] fs₁ rfl hfst)

/-- Containers that are spared are intact. -/
theorem Spared.intact (h : Spared sys outDir fs args) : Intact sys outDir fs args := by
  induction args using List.reverseRecOn with
  | nil => exact fun before fn after fs₁ hargs => absurd hargs (by simp)
  | append_singleton args x ih =>
    intro before fn after fs₁ hargs hrun
    rcases List.eq_nil_or_concat after with rfl | ⟨after, y, rfl⟩
    · -- the containers before the last one are intact, so what they write is known
      obtain ⟨rfl, hx⟩ := List.append_singleton_inj.mp hargs
      subst hx
      rw [extractAll_eq hrun (ih h.of_append)]
      rcases Writes.apply_cases fs (args.flatMap (writes sys outDir fs)) (sys.locate x) with
        ⟨-, hsame⟩ | ⟨w, hw, hloc, hval⟩
      · exact hsame
      · obtain ⟨fn', hfn', serial, hdata, hfile⟩ := mem_flatMap_writes.mp hw
        rw [hval]
        exact (h args x [] rfl fn' hfn' serial (hfile ▸ hloc) _ hdata).symm
    · refine ih h.of_append before fn after fs₁ ?_ hrun
      rw [List.concat_eq_append, ← List.cons_append, ← List.append_assoc] at hargs
      exact (List.append_singleton_inj.mp hargs).1

/-- A run that loses nothing spares the containers. -/
theorem Lossless.spared (hrun : extractAll sys outDir args fs = .ok fs')
    (h : Lossless sys outDir fs args fs')
    (hagree : Writes.Agree (args.flatMap (writes sys outDir fs))) : Spared sys outDir fs args := by
  rintro before fn after rfl fn' hfn' serial hfile data hdata
  obtain ⟨fs₁, hfs₁⟩ := extractAll_append hrun
  have hmem : (sys.locate fn, data) ∈ before.flatMap (writes sys outDir fs) :=
    mem_flatMap_writes.mpr ⟨fn', hfn', serial, hdata, hfile.symm⟩
  -- something was written there, and everything that was written there is this tree
  obtain ⟨w, hw, hloc, hval⟩ := Writes.apply_of_mem (m := fs) ⟨_, hmem, rfl⟩
  have hsame : w.2 = data := hagree w (by simp [hw]) _ (by simp [hmem]) hloc
  rw [← h.inputs before fn after fs₁ rfl hfs₁, extractAll_eq hfs₁ h.inputs.of_append, hval, hsame]

/-- **A run loses no tree if and only if its containers do not get in each other's way.** -/
theorem lossless_iff (hrun : undtb sys outDir args fs = .ok fs') :
    Lossless sys outDir fs args fs' ↔ Harmless sys outDir fs args := by
  unfold undtb at hrun
  split at hrun
  · cases hrun
  constructor
  · intro h
    -- all that was written is known, and each output file holds the last write to it
    have hfs' := extractAll_eq hrun h.inputs
    have hagree : Writes.Agree (args.flatMap (writes sys outDir fs)) := by
      refine (Writes.agree_iff_kept (m := fs)).mpr fun w hw => ?_
      obtain ⟨fn, hfn, serial, hdata, hfile⟩ := mem_flatMap_writes.mp hw
      rw [← hfs', hfile]
      exact h.outputs fn hfn serial _ hdata
    exact harmless_of_agree hagree (h.spared hrun hagree)
  · intro h
    refine ⟨h.inputs.intact, fun fn hfn serial data hdata => ?_⟩
    rw [extractAll_eq hrun h.inputs.intact]
    exact Writes.agree_iff_kept.mp h.agree (_, data)
      (mem_flatMap_writes.mpr ⟨fn, hfn, serial, hdata, rfl⟩)

end Lossless

/-! ## Two containers in two directories -/

/-- A container with one tree of one byte. -/
def single (b : UInt8) : Container where
  items := [⟨0, 0, 0, (spaces, spaces, spaces), 72, [b]⟩]
  rest := [b]
  count_lt := show 1 < 2 ^ 32 by decide
  size_lt := List.forall_mem_singleton.mpr (show 1 < 2 ^ 32 by decide)
  inside := List.forall_mem_singleton.mpr (show 73 ≤ 73 from le_rfl)
  placed := List.forall_mem_singleton.mpr rfl

/-- Every path is a file of its own, and every file can be written. -/
def plain : System Path := ⟨id, fun _ => false⟩

theorem extract_single {fn : Path} {fs : Files Path} {b : UInt8}
    (hfile : fs fn = some (single b).image) :
    extract plain [] fn fs = .ok (Function.update fs (outputPath [] fn 0) (some [b])) := by
  have hfile' : fs (plain.locate fn) = some (single b).image := hfile
  simp only [extract, hfile', Container.loadDtb_image]
  rfl

/-- Two containers in two directories. -/
def twoImages : Files Path := fun p =>
  if p = "a/x.img".toList then some (single 1).image else some (single 2).image

/-- Two containers of different names. -/
theorem lossless_iff_single :
    Lossless plain [] twoImages ["a/x.img".toList, "b/y.img".toList]
      (Function.update (Function.update twoImages "x-0.dtb".toList (some [1]))
        "y-0.dtb".toList (some [2])) ↔
    Harmless plain [] twoImages ["a/x.img".toList, "b/y.img".toList] := by
  apply lossless_iff
  have hfirst : extract plain [] "a/x.img".toList twoImages =
      .ok (Function.update twoImages "x-0.dtb".toList (some [1])) := extract_single rfl
  have hsecond : extract plain [] "b/y.img".toList
      (Function.update twoImages "x-0.dtb".toList (some [1])) =
        .ok (Function.update (Function.update twoImages "x-0.dtb".toList (some [1]))
          "y-0.dtb".toList (some [2])) := extract_single rfl
  show (extract plain [] "a/x.img".toList twoImages).bind (fun fs =>
    (extract plain [] "b/y.img".toList fs).bind _) = _
  rw [hfirst, Except.bind, hsecond]
  rfl

/-- Two containers of one name in two directories: the tree of the first one is lost. -/
theorem not_undtb_lossless : ¬ ∀ (F : Type) [DecidableEq F] (sys : System F) (outDir : Path)
    (fs fs' : Files F) (args : List Path), undtb sys outDir args fs = .ok fs' →
      Lossless sys outDir fs args fs' := by
  intro hall
  let fs : Files Path := twoImages
  let fs₁ := Function.update fs "x-0.dtb".toList (some [1])
  have hfirst : extract plain [] "a/x.img".toList fs = .ok fs₁ := extract_single rfl
  have hsecond : extract plain [] "b/x.img".toList fs₁ =
      .ok (Function.update fs₁ "x-0.dtb".toList (some [2])) := extract_single rfl
  have hrun : undtb plain [] ["a/x.img".toList, "b/x.img".toList] fs =
      .ok (Function.update fs₁ "x-0.dtb".toList (some [2])) := by
    show (extract plain [] "a/x.img".toList fs).bind (fun fs =>
      (extract plain [] "b/x.img".toList fs).bind _) = _
    rw [hfirst, Except.bind, hsecond]
    rfl
  have hblob : [1] ∈ blob plain fs "a/x.img".toList 0 := by
    have hfile : fs (plain.locate "a/x.img".toList) = some (single 1).image := rfl
    simp only [blob, entries, hfile, Container.loadDtb_image]
    rfl
  have hkept := (hall Path plain [] fs _ _ hrun).outputs "a/x.img".toList (by simp) 0 [1] hblob
  have hout : outputFile plain [] "a/x.img".toList 0 = "x-0.dtb".toList := rfl
  rw [hout, Function.update_self] at hkept
  exact absurd hkept (by decide)

end Undtb
