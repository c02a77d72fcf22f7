import Akbuilder.Lib.Newest

/-!
# The update package of `upd-maker`

`upd-maker` collects images of partitions in one directory, each under its base name, and writes
the `updater-script` that flashes them. What remains of its arguments after the options is joined
to one string, which the shell splits again at blanks and matches against the names of files.

## Main definitions

* `Host`: what the script reads of the machine it runs on
* `options h args`: the option loop
* `words h images`: the words the loop over `$FILES` runs over
* `addImage h p x`: one round of that loop
* `makePackage h args`: the package made from the arguments, where the script does not stop

## Main results

* `foldlM_addImage`: the loop stops only at a word it refuses, and otherwise leaves the newest of
  the files of each base name and the lines of each word
* `makePackage_of_options`: the package of a list of arguments without `-s`

The archive is a map from base names to files without the members of the template. A file has its
content and the time it was written, which `cp -a` keeps; directories and names that are no text are
left out. So are the lines of the script that come from the template. Of a symbolic link `cp -a`
copies the link, and what the directory then holds is left to the machine.
-/

namespace UpdMaker

/-- A word of the shell: a path, a name, an argument. -/
abbrev Word := List Char

/-- A regular file: its content and the time of its last change. -/
structure File (α : Type) where
  content : α
  mtime : Int

/-- **The machine** the package is made on, as far as the script reads it. -/
structure Host (α : Type) where
  /-- The file a path leads to. -/
  file : Word → Option (File α)
  /-- Whether a path is one of a symbolic link. -/
  link : Word → Bool
  /-- What the directory of the package holds after a round for a symbolic link, which is put there
  under a name where no newer file is, unless `cp` refuses to. -/
  copyLink : (Word → Option (File α)) → Word → Word → Option (Word → Option (File α))
  /-- The paths that match a pattern, in the order of the shell. -/
  matching : Word → List Word
  /-- What `basename` prints for an operand that begins with a dash, unless it or `cp` refuses to
  read that operand as an option. -/
  optionText : Word → Option Word
  /-- What `readlink -m` prints. -/
  readlink : Word → Word
  /-- What `cat` prints for an operand the shell has yet to split. -/
  cat : Word → Word

variable {α : Type}

/-! ### The option loop -/

/-- A command substitution drops the newlines at the end. -/
def chomp (w : Word) : Word := (w.reverse.dropWhile (· == '\n')).reverse

/-- The variables the options set. -/
structure Options where
  name : Word := []
  dev : Word := []
  upd : Word := []
  cmdStart : Word := []
  cmdEnd : Word := []
  script : Word := []

/-- The options of the script. -/
inductive Flag
  | name | dev | output | cmdStart | cmdEnd | fileStart | fileEnd | script

/-- The patterns of the option loop, in its order. -/
def flags : List (Word × Flag) :=
  [("-n".toList, .name), ("-d".toList, .dev), ("-o".toList, .output),
    ("-cs".toList, .cmdStart), ("-ce".toList, .cmdEnd), ("-fs".toList, .fileStart),
    ("-fe".toList, .fileEnd), ("-s".toList, .script)]

def Options.set (h : Host α) (o : Options) (value : Word) : Flag → Options
  | .name => { o with name := value }
  | .dev => { o with dev := value }
  | .output => { o with upd := h.readlink value }
  | .cmdStart => { o with cmdStart := o.cmdStart ++ "\\n".toList ++ value }
  | .cmdEnd => { o with cmdEnd := o.cmdEnd ++ "\\n".toList ++ value }
  | .fileStart => { o with cmdStart := chomp (h.cat value) }
  | .fileEnd => { o with cmdEnd := chomp (h.cat value) }
  | .script => { o with script := value }

/-- **The option loop**: the variables set and the arguments left, and `none` where the script
stops at an unknown option. -/
def options (h : Host α) (o : Options) : List Word → Option (Options × List Word)
  | [] => some (o, [])
  | [] :: rest => some (o, [] :: rest)
  -- an option that lacks its value takes the empty word
  | [w] =>
    match flags.lookup w with
    | some f => some (o.set h [] f, [])
    | none => if w.head? = some '-' then none else some (o, [w])
  | w :: value :: rest =>
    match flags.lookup w with
    | some f => options h (o.set h value f) rest
    | none => if w.head? = some '-' then none else some (o, w :: value :: rest)

/-! ### The words of the loop -/

/-- The blanks the shell splits at. -/
def isBlank (c : Char) : Bool := c == ' ' || c == '\t' || c == '\n'

/-- The characters that make a word a pattern of file names. -/
def isPattern (c : Char) : Bool := c == '*' || c == '?' || c == '[' || c == '\\'

/-- A pattern stands for the paths it matches, and for itself where it matches none. -/
def expand (h : Host α) (w : Word) : List Word :=
  if w.any isPattern ∧ h.matching w ≠ [] then h.matching w else [w]

/-- **The words of `$FILES`**: the images joined by spaces, split at blanks and expanded. -/
def words (h : Host α) (images : List Word) : List Word :=
  (((List.intercalate [' '] images).splitOnP isBlank).filter (· ≠ [])).flatMap (expand h)

/-! ### Names -/

/-- The last component of a path. -/
def baseName (w : Word) : Word :=
  match w.reverse.dropWhile (· == '/') with
  | [] => if w = [] then [] else ['/']
  | c :: cs => ((c :: cs).takeWhile (· != '/')).reverse

/-- `$(basename "$x")`. -/
def fileName (h : Host α) (x : Word) : Option Word :=
  if x.head? = some '-' then (h.optionText x).map chomp else some (chomp (baseName x))

/-- `sed -e 's/\..*//'`: each line up to its first dot. -/
def cutLines : Bool → Word → Word
  | _, [] => []
  | _, '\n' :: cs => '\n' :: cutLines false cs
  | true, _ :: cs => cutLines true cs
  | false, '.' :: cs => cutLines true cs
  | false, c :: cs => c :: cutLines false cs

/-- What `echo` takes for options and does not print. -/
def isEchoOption : Word → Bool
  | '-' :: c :: cs => (c :: cs).all fun d => d == 'n' || d == 'e' || d == 'E'
  | _ => false

/-- `$(echo "$file" | sed -e 's/\..*//')`. -/
def partOf (file : Word) : Word := if isEchoOption file then [] else chomp (cutLines false file)

/-- The first `case`: two images do not bear the name of their partition. -/
def partition (part : Word) : Word :=
  if part = "kernel".toList then "boot".toList
  else if part = "DDR".toList then "bootloader".toList
  else part

/-- The device of a partition. -/
def device (part : Word) : Word :=
  if part = "_aml_dtb".toList ∨ part = "dtb".toList then "/dev/dtb".toList
  else "/dev/block/".toList ++ part

/-- The description of a partition. -/
def description (part : Word) : Word :=
  if part = "bootloader".toList then "Bootloader".toList
  else if part = "boot".toList then "Kernel".toList
  else if part = "_aml_dtb".toList ∨ part = "dtb".toList then "Device Tree".toList
  else "partition '".toList ++ part ++ "'".toList

/-! ### The package -/

/-- What the script appends to `updater-script`. -/
inductive Line
  /-- The test of `ro.product.device`. -/
  | product (dev : Word)
  /-- The name of the package, printed. -/
  | name (text : Word)
  /-- Commands of `-cs`, `-ce`, `-fs` and `-fe`. -/
  | command (text : Word)
  /-- The script of `-s`. -/
  | inserted (script : Word)
  /-- The call of `package_extract_file` for an image. -/
  | flash (file dev desc : Word)
  /-- `Success!`, printed. -/
  | success
  deriving DecidableEq

/-- A package: the archive and the lines of its script. -/
structure Package (α : Type) where
  archive : Word → Option (File α)
  script : List Line

/-- The lines that flash a file. -/
def flashLine (file : Word) : Line :=
  let part := partition (partOf file)
  .flash file (device part) (description part)

/-- What both loops do for a word: `test -e`, `basename`, and the copy unless the archive has a
file of that name that is not older. `test` follows a symbolic link, and `cp -a` does not. For an
operand that is an option `cp` copies nothing. -/
def copyImage (h : Host α) (archive : Word → Option (File α)) (x : Word) :
    Option (Word × (Word → Option (File α))) := do
  let f ← h.file x
  let file ← fileName h x
  -- `-ot` holds where there is no file of that name yet
  if x.head? = some '-' then some (file, archive)
  else if h.link x then (h.copyLink archive x file).map (file, ·)
  else some (file, Newest.put File.mtime archive file f)

/-- **A round of the loop** without `-s`. -/
def addImage (h : Host α) (p : Package α) (x : Word) : Option (Package α) := do
  let (file, archive) ← copyImage h p.archive x
  some { archive := archive, script := p.script ++ [flashLine file] }

/-- The lines before the images. -/
def header (o : Options) : List Line :=
  (if o.dev ≠ [] then [.product o.dev] else []) ++
    (if o.name ≠ [] then [.name o.name] else []) ++
    (if o.cmdStart ≠ [] then [.command o.cmdStart] else [])

/-- The lines after the images. -/
def footer (o : Options) : List Line :=
  (if o.cmdEnd ≠ [] then [.command o.cmdEnd] else []) ++
    (if o.script = [] then [.success] else [])

/-- **The package** made for a list of arguments, and `none` where the script stops with an error:
at an unknown option, without `-o`, at a file that does not exist. -/
def makePackage (h : Host α) (args : List Word) : Option (Package α) := do
  let (o, images) ← options h {} args
  if o.upd = [] then none
  else if o.script = [] then do
    -- the directory was made anew: no image is in it
    let p ← (words h images).foldlM (addImage h) ⟨fun _ => none, header o⟩
    some { p with script := p.script ++ footer o }
  else do
    let _ ← h.file o.script
    let archive ← (words h images).foldlM
      (fun archive x => (copyImage h archive x).map Prod.snd) (fun _ => none)
    some ⟨archive, header o ++ [.inserted o.script] ++ footer o⟩

/-! ### What the loop leaves -/

/-- The words the loop does not stop at. -/
def accepts (h : Host α) (x : Word) : Bool := (h.file x).isSome && (fileName h x).isSome

/-- The files the words of a list put in the archive. -/
def copies (h : Host α) (xs : List Word) : List (Word × File α) :=
  xs.filterMap fun x =>
    if x.head? = some '-' then none else (h.file x).map fun f => (chomp (baseName x), f)

/-- The lines of the words of a list. -/
def lines (h : Host α) (xs : List Word) : List Line :=
  xs.filterMap fun x => (fileName h x).map flashLine

/-- What the words of a list leave, from a script with the lines `start`. -/
def collected (h : Host α) (start : List Line) (xs : List Word) : Package α :=
  ⟨Newest.newest File.mtime (copies h xs), start ++ lines h xs⟩

section Loop

variable (h : Host α) (start : List Line)

theorem copies_concat (xs : List Word) (x : Word) :
    copies h (xs ++ [x]) = copies h xs ++ copies h [x] := List.filterMap_append

theorem lines_concat (xs : List Word) (x : Word) :
    lines h (xs ++ [x]) = lines h xs ++ lines h [x] := List.filterMap_append

/-- A round of the loop takes one more word, unless it stops there. -/
theorem addImage_collected (xs : List Word) {x : Word} (hlink : h.link x = false) :
    addImage h (collected h start xs) x =
      if accepts h x then some (collected h start (xs ++ [x])) else none := by
  rcases Option.eq_none_or_eq_some (h.file x) with hf | ⟨f, hf⟩
  · simp [addImage, copyImage, accepts, hf]
  rcases Option.eq_none_or_eq_some (fileName h x) with hn | ⟨file, hn⟩
  · simp [addImage, copyImage, accepts, hf, hn]
  have hlines : lines h (xs ++ [x]) = lines h xs ++ [flashLine file] := by
    rw [lines_concat]
    simp [lines, hn]
  by_cases hdash : x.head? = some '-'
  · -- an option: its line is written, and nothing copied
    have hcopies : copies h (xs ++ [x]) = copies h xs := by
      rw [copies_concat]
      simp [copies, hdash]
    simp [addImage, copyImage, accepts, collected, hf, hn, hdash, hlines, hcopies]
  · -- a path: its file is put under its base name
    have hfile : file = chomp (baseName x) := by
      simpa [fileName, hdash] using hn.symm
    have hcopies : copies h (xs ++ [x]) = copies h xs ++ [(file, f)] := by
      rw [copies_concat, hfile]
      simp [copies, hdash, hf]
    simp [addImage, copyImage, accepts, collected, hf, hn, hdash, hlink, hlines, hcopies,
      Newest.newest_concat]

/-- **The loop** stops only at a word it refuses, and otherwise takes every word. -/
theorem foldlM_addImage (xs : List Word) {ys : List Word} (hlink : ∀ y ∈ ys, h.link y = false) :
    ys.foldlM (addImage h) (collected h start xs) =
      if ys.all (accepts h) then some (collected h start (xs ++ ys)) else none := by
  induction ys generalizing xs with
  | nil => simp
  | cons y ys ih =>
    rw [List.forall_mem_cons] at hlink
    rw [List.foldlM_cons, addImage_collected h start xs hlink.1]
    by_cases hy : accepts h y = true
    · simpa [hy] using ih (xs ++ [y]) hlink.2
    · simp [hy]

/-- A round copies under the name of its word. -/
theorem fileName_of_copyImage {archive : Word → Option (File α)} {x : Word}
    {r : Word × (Word → Option (File α))} (hr : copyImage h archive x = some r) :
    fileName h x = some r.1 := by
  obtain ⟨f, -, hr⟩ := Option.bind_eq_some_iff.1 hr
  obtain ⟨file, hfile, hr⟩ := Option.bind_eq_some_iff.1 hr
  rw [hfile]
  split_ifs at hr
  · rw [← Option.some.inj hr]
  · obtain ⟨_, -, rfl⟩ := Option.map_eq_some_iff.1 hr
    rfl
  · rw [← Option.some.inj hr]

/-- **The lines of the loop** are those of its words, whatever they copy. -/
theorem script_of_foldlM {p q : Package α} {ys : List Word}
    (hq : ys.foldlM (addImage h) p = some q) : q.script = p.script ++ lines h ys := by
  induction ys generalizing p with
  | nil =>
    obtain rfl := Option.some.inj hq
    simp [lines]
  | cons y ys ih =>
    rw [List.foldlM_cons] at hq
    obtain ⟨p', hp', hq⟩ := Option.bind_eq_some_iff.1 hq
    obtain ⟨r, hr, hp'⟩ := Option.bind_eq_some_iff.1 hp'
    obtain rfl := Option.some.inj hp'
    have hlines : lines h (y :: ys) = flashLine r.1 :: lines h ys := by
      rw [lines, List.filterMap_cons, fileName_of_copyImage h hr]
      rfl
    rw [ih hq, hlines, List.append_assoc, List.singleton_append]

/-- The package of a list of arguments without `-s` and without symbolic links. -/
theorem makePackage_of_options {args images : List Word} {o : Options}
    (ho : options h {} args = some (o, images)) (hupd : o.upd ≠ []) (hscript : o.script = [])
    (hlink : ∀ x ∈ words h images, h.link x = false) :
    makePackage h args =
      if (words h images).all (accepts h) then
        some ⟨Newest.newest File.mtime (copies h (words h images)),
          header o ++ lines h (words h images) ++ footer o⟩
      else none := by
  have hloop := foldlM_addImage h (header o) [] hlink
  have hstart : (⟨fun _ => none, header o⟩ : Package α) = collected h (header o) [] := by
    simp only [collected, lines, List.filterMap_nil, List.append_nil]
    rfl
  simp only [makePackage, ho, Option.bind_eq_bind, Option.bind_some, if_neg hupd, if_pos hscript,
    hstart, hloop, List.nil_append]
  split
  · rfl
  · rfl

end Loop

end UpdMaker
