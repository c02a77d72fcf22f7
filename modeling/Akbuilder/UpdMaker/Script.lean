import Akbuilder.UpdMaker.Package
import Akbuilder.Lib.Echo
import Akbuilder.Lib.Quoting

/-!
# The commands in the script of a package

The user gives commands that run before and after the images are flashed: texts on the command line,
and files. Texts are appended to a variable with a `\n` in front, a file replaces what is in it, and
`echo -e` prints it in the end. The name of the package and the product go between double quotes as
they are.

## Main definitions

* `scriptText`: the text of the script
* `given`: the options on the command line, in order
* `Listed`: texts are there, each on lines of its own, and nothing else
* `Verbatim`: the commands are in the script as they were given, and name and product are read back
* `VerbatimWhen`: the condition for it

## Main results

* `listed_iff`: when the commands of one side are listed
* `verbatim_iff`: a script is verbatim exactly when no file follows other commands of its side, and
  no text is special for `echo` or in quotes
* `not_verbatim`: a file replaces the text before it
-/

open Echo Quoting

namespace UpdMaker

variable {α : Type}

/-! ### The text of the script -/

/-- The test of the product. -/
def productText (dev : Word) : Word :=
  "product=\x60getprop ro.product.device\x60\nif test \"$product\" != \"".toList ++ dev ++
    "\" ; then\n\tui_print \"Package is for product ".toList ++ dev ++
    ", not for $product\"\n\texit 1\nfi\n".toList

/-- The line that prints the name. -/
def nameText (name : Word) : Word :=
  "ui_print \"Installing -=<( ".toList ++ name ++ " )>=-\"\n".toList

/-- The lines that flash a file. -/
def flashText (file dev desc : Word) : Word :=
  "ui_print \" - Flashing ".toList ++ desc ++ "\"\nif ! package_extract_file ".toList ++ file ++
    " ".toList ++ dev ++ " ; then\n\tui_print \"Failed to extract ".toList ++ file ++
    " to ".toList ++ dev ++ "\"\n\texit 1\nfi\n".toList

/-- `echo -e "$w"`. -/
def echoText (w : Word) : Word :=
  if isEchoOption w then if 'n' ∈ w then [] else ['\n'] else echo w

/-- The text of a line, where `inserted` is what `sed` prints for a script. -/
def Line.text (inserted : Word → Word) : Line → Word
  | .product dev => productText dev
  | .name text => nameText text
  | .command text => echoText text
  | .inserted script => inserted script
  | .flash file dev desc => flashText file dev desc
  | .success => "ui_print \"Success!\"\n".toList

/-- **The text of the script.** -/
def scriptText (inserted : Word → Word) (p : Package α) : Word :=
  p.script.flatMap (Line.text inserted)

/-! ### The options that were given -/

/-- The options and their values, up to the first argument that is none. -/
def given : List Word → List (Flag × Word)
  | [] => []
  | [w] =>
    match flags.lookup w with
    | some f => [(f, [])]
    | none => []
  | w :: value :: rest =>
    match flags.lookup w with
    | some f => (f, value) :: given rest
    | none => []

/-- Commands that the user gives. -/
inductive Entry
  | text (t : Word)
  /-- a file, with what `cat` prints for it -/
  | file (printed : Word)

/-- A text without the line break at its end, if it has one. -/
def unended (w : Word) : Word := if w.getLast? = some '\n' then w.dropLast else w

/-- The commands. Those of a file are its lines, of which the last one may have no line break. -/
def Entry.commands : Entry → Word
  | .text t => t
  | .file printed => unended printed

/-- What an option does to the variable of its side. -/
def Entry.put (acc : Word) : Entry → Word
  | .text t => acc ++ "\\n".toList ++ t
  | .file printed => chomp printed

def startEntry (h : Host α) : Flag × Word → Option Entry
  | (.cmdStart, value) => some (.text value)
  | (.fileStart, value) => some (.file (h.cat value))
  | _ => none

def endEntry (h : Host α) : Flag × Word → Option Entry
  | (.cmdEnd, value) => some (.text value)
  | (.fileEnd, value) => some (.file (h.cat value))
  | _ => none

/-- The commands to be run before the images are flashed. -/
def startEntries (h : Host α) (args : List Word) : List Entry :=
  (given args).filterMap (startEntry h)

/-- The commands to be run after that. -/
def endEntries (h : Host α) (args : List Word) : List Entry := (given args).filterMap (endEntry h)

/-! ### What is asked of the script -/

/-- **The texts are listed**, in order and unchanged, perhaps behind an empty line. Nothing has to
be there if they are empty. -/
def Listed (texts : List Word) (w : Word) : Prop :=
  w = ended texts ∨ w = '\n' :: ended texts ∨ w = [] ∧ ∀ t ∈ texts, t = []

instance (texts : List Word) (w : Word) : Decidable (Listed texts w) :=
  inferInstanceAs (Decidable (_ ∨ _ ∨ _ ∧ _))

/-- What the script has of a variable with commands. -/
def commandText (w : Word) : Word := if w = [] then [] else echoText w

/-- The line with the name, as it is meant. -/
def nameParts (name : Word) : List Part :=
  [.bare "ui_print ".toList,
    .string [.text "Installing -=<( ".toList, .text name, .text " )>=-".toList],
    .bare "\n".toList]

/-- The test of the product, as it is meant. -/
def productParts (dev : Word) : List Part :=
  [.bare "product=\x60getprop ro.product.device\x60\nif test ".toList,
    .string [.param "product".toList],
    .bare " != ".toList,
    .string [.text dev],
    .bare " ; then\n\tui_print ".toList,
    .string [.text "Package is for product ".toList, .text dev, .text ", not for ".toList,
      .param "product".toList],
    .bare "\n\texit 1\nfi\n".toList]

/-- A line that flashes, or the script that does. -/
def Line.Flashes : Line → Prop
  | .flash _ _ _ | .inserted _ => True
  | _ => False

/-- **The script is verbatim**: in front of what flashes there are the commands of `-cs` and `-fs`,
behind it those of `-ce` and `-fe`, and the shell reads name and product as they were given. -/
structure Verbatim (inserted : Word → Word) (h : Host α) (args : List Word) (o : Options)
    (p : Package α) : Prop where
  script : ∃ before body after : List Line,
    (∀ l ∈ before ++ after, ¬ l.Flashes) ∧ (∀ l ∈ body, l.Flashes) ∧
    scriptText inserted p = before.flatMap (Line.text inserted) ++ commandText o.cmdStart ++
      body.flatMap (Line.text inserted) ++ commandText o.cmdEnd ++
      after.flatMap (Line.text inserted) ∧
    (o.name ≠ [] → .name o.name ∈ before) ∧ (o.dev ≠ [] → .product o.dev ∈ before)
  starts : Listed ((startEntries h args).map Entry.commands) (commandText o.cmdStart)
  ends : Listed ((endEntries h args).map Entry.commands) (commandText o.cmdEnd)
  name : marks .outside (nameText o.name) = meants (nameParts o.name)
  product : marks .outside (productText o.dev) = meants (productParts o.dev)

/-! ### The condition -/

/-- A file comes first, with at most one line break at its end; no text has an escape of `echo`, and
only the last one may end in a backslash; and a file alone is no option of `echo`. -/
structure Printed (entries : List Entry) : Prop where
  first : ∀ before printed after, entries = before ++ .file printed :: after → before = []
  breaks : ∀ printed, .file printed ∈ entries → chomp printed = unended printed
  inert : InertTexts [] (entries.map Entry.commands)
  option : ∀ printed, entries = [.file printed] → isEchoOption (chomp printed) = false

/-- There are no commands to print, and a file comes last. -/
def Void (entries : List Entry) : Prop :=
  (∀ e ∈ entries, e.commands = []) ∧ ∃ printed, entries.getLast? = some (.file printed)

/-- **The condition** on the arguments. -/
def VerbatimWhen (h : Host α) (args : List Word) (o : Options) : Prop :=
  (Printed (startEntries h args) ∨ Void (startEntries h args)) ∧
    (Printed (endEntries h args) ∨ Void (endEntries h args)) ∧
    Literal [' '] o.name ∧ Literal ['"'] o.dev

/-! ### Name and product -/

theorem nameText_eq (name : Word) : nameText name = spells (nameParts name) := by
  have hfront : "ui_print \"Installing -=<( ".toList =
      "ui_print ".toList ++ '"' :: "Installing -=<( ".toList := by simp
  have hend : " )>=-\"\n".toList = " )>=-".toList ++ '"' :: "\n".toList := by simp
  unfold nameText
  rw [hfront, hend]
  unfold nameParts
  simp [spells, Part.spell, Piece.spell]

/-- **The name is read back** exactly when it is literal in front of a space. -/
theorem marks_nameText (name : Word) :
    marks .outside (nameText name) = meants (nameParts name) ↔ Literal [' '] name := by
  have hsound : ∀ part ∈ nameParts name, part.Sound := by
    unfold nameParts
    simp only [List.forall_mem_cons, Part.Sound]
    exact ⟨by decide, trivial, by decide, List.forall_mem_nil _⟩
  -- of the text behind the name, its first character is enough
  have hspace : Literal (" )>=-".toList ++ ['"']) name ↔ Literal [' '] name := literal_congr rfl
  rw [nameText_eq, marks_spells_iff hsound]
  unfold nameParts
  simp only [List.mem_cons, List.not_mem_nil, or_false, reduceCtorEq, false_or, Part.string.injEq,
    forall_eq, Fits]
  constructor
  · rintro ⟨-, hname, -⟩
    exact hspace.mp hname
  · intro hname
    exact ⟨literal_of_isPlain (by decide) _, hspace.mpr hname, literal_of_isPlain (by decide) _,
      trivial⟩

theorem productText_eq (dev : Word) : productText dev = spells (productParts dev) := by
  -- the literals are split where their strings begin and end
  have hfront : "product=\x60getprop ro.product.device\x60\nif test \"$product\" != \"".toList =
      "product=\x60getprop ro.product.device\x60\nif test ".toList ++ '"' ::
        ('$' :: "product".toList ++ '"' :: (" != ".toList ++ ['"'])) := by simp
  have hmiddle : "\" ; then\n\tui_print \"Package is for product ".toList =
      '"' :: " ; then\n\tui_print ".toList ++ '"' :: "Package is for product ".toList := by simp
  have hend : ", not for $product\"\n\texit 1\nfi\n".toList =
      ", not for ".toList ++ '$' :: "product".toList ++ '"' :: "\n\texit 1\nfi\n".toList := by simp
  unfold productText
  rw [hfront, hmiddle, hend]
  unfold productParts
  simp [spells, Part.spell, Piece.spell]

/-- **The product is read back**, in both of its places, exactly when it is literal in front of a
double quote. -/
theorem marks_productText (dev : Word) :
    marks .outside (productText dev) = meants (productParts dev) ↔ Literal ['"'] dev := by
  have hsound : ∀ part ∈ productParts dev, part.Sound := by
    unfold productParts
    simp only [List.forall_mem_cons, Part.Sound]
    exact ⟨by decide, trivial, by decide, trivial, by decide, trivial, by decide,
      List.forall_mem_nil _⟩
  rw [productText_eq, marks_spells_iff hsound]
  unfold productParts
  simp only [List.mem_cons, List.not_mem_nil, or_false, reduceCtorEq, false_or, Part.string.injEq,
    forall_eq_or_imp, forall_eq, Fits]
  -- in the message, a comma is behind it
  have hcomma : Literal (List.flatMap Piece.spell [.text ", not for ".toList,
      .param "product".toList] ++ ['"']) dev ↔ Literal [','] dev := literal_congr rfl
  have hproduct : startsExpansion ("product".toList ++ (List.flatMap Piece.spell [] ++ ['"'])) =
      true := by decide
  constructor
  · rintro ⟨-, ⟨hdev, -⟩, -⟩
    exact hdev
  · intro hdev
    have hmessage := hcomma.mpr (hdev.of_next (by decide) (by decide))
    exact ⟨⟨hproduct, literal_of_isPlain (by decide) _, trivial⟩, ⟨hdev, trivial⟩,
      literal_of_isPlain (by decide) _, hmessage, literal_of_isPlain (by decide) _, hproduct,
      literal_of_isPlain (by decide) _, trivial⟩

/-! ### The variables with commands -/

section Commands

variable {h : Host α} {o o' : Options} {args images : List Word}

/-- **The option loop** sets what was given, in order. -/
theorem options_eq (ho : options h o args = some (o', images)) :
    o' = (given args).foldl (fun o x => o.set h x.2 x.1) o := by
  fun_induction options h o args with
  | case1 o =>
    cases ho
    rfl
  | case2 o rest =>
    -- the loop ends at an empty argument
    have hgiven : given ([] :: rest) = [] := by cases rest <;> rfl
    rw [hgiven]
    cases ho
    rfl
  | case3 o w _ f hf =>
    simp only [given, hf]
    cases ho
    rfl
  | case4 o w _ hf _ => cases ho
  | case5 o w _ hf _ =>
    simp only [given, hf]
    cases ho
    rfl
  | case6 o w value rest _ f hf ih =>
    simp only [given, hf, List.foldl_cons]
    exact ih ho
  | case7 o w value rest _ hf _ => cases ho
  | case8 o w value rest _ hf _ =>
    simp only [given, hf]
    cases ho
    rfl

/-- Where each option does its part to a variable, so does the loop. -/
theorem foldl_set {get : Options → Word} {entry : Flag × Word → Option Entry}
    (hset : ∀ o x, get (o.set h x.2 x.1) = (entry x).elim (get o) (Entry.put (get o)))
    (xs : List (Flag × Word)) (o : Options) :
    get (xs.foldl (fun o x => o.set h x.2 x.1) o) =
      (xs.filterMap entry).foldl Entry.put (get o) := by
  induction xs generalizing o with
  | nil => rfl
  | cons x xs ih =>
    rw [List.foldl_cons, ih, hset]
    cases hx : entry x with
    | none => rw [List.filterMap_cons_none hx, Option.elim_none]
    | some e => rw [List.filterMap_cons_some hx, Option.elim_some, List.foldl_cons]

/-- The commands before the images: each of their options does its part. -/
theorem cmdStart_eq (ho : options h {} args = some (o, images)) :
    o.cmdStart = (startEntries h args).foldl Entry.put [] := by
  rw [options_eq ho]
  refine foldl_set (fun o x => ?_) (given args) {}
  obtain ⟨f, value⟩ := x
  cases f <;> rfl

/-- The commands behind them. -/
theorem cmdEnd_eq (ho : options h {} args = some (o, images)) :
    o.cmdEnd = (endEntries h args).foldl Entry.put [] := by
  rw [options_eq ho]
  refine foldl_set (fun o x => ?_) (given args) {}
  obtain ⟨f, value⟩ := x
  cases f <;> rfl

end Commands

/-! ### One side of the images -/

section Side

variable {texts ts : List Word} {w c : Word} {entries pre : List Entry}

/-- The texts behind the last file are joined to what it left. -/
theorem foldl_put_texts (acc : Word) (ts : List Word) :
    (ts.map Entry.text).foldl Entry.put acc = join acc ts := by
  induction ts generalizing acc with
  | nil => simp [join]
  | cons t ts ih =>
    rw [List.map_cons, List.foldl_cons, ih]
    simp [Entry.put, join]

/-- There are only texts, or there is a last file. -/
theorem entries_cases (entries : List Entry) :
    (∃ ts : List Word, entries = ts.map .text) ∨
      ∃ (pre : List Entry) (c : Word) (ts : List Word),
        entries = pre ++ .file c :: ts.map .text := by
  induction entries with
  | nil => exact .inl ⟨[], rfl⟩
  | cons e es ih =>
    obtain ⟨ts, rfl⟩ | ⟨pre, c, ts, rfl⟩ := ih
    -- the first option is the last file, where no other is behind it
    · cases e with
      | text t => exact .inl ⟨t :: ts, rfl⟩
      | file c => exact .inr ⟨[], c, ts, rfl⟩
    · exact .inr ⟨e :: pre, c, ts, rfl⟩

@[simp] theorem map_commands_texts (ts : List Word) :
    (ts.map Entry.text).map Entry.commands = ts := by
  simp [Function.comp_def, Entry.commands]

theorem chomp_newline (w : Word) : chomp (w ++ ['\n']) = chomp w := by
  simp [chomp]

theorem chomp_concat {c : Char} (hc : c ≠ '\n') (w : Word) : chomp (w ++ [c]) = w ++ [c] := by
  simp [chomp, hc]

/-- A command substitution drops line breaks. -/
theorem eq_chomp (w : Word) : ∃ n, w = chomp w ++ List.replicate n '\n' := by
  induction w using List.reverseRecOn with
  | nil => exact ⟨0, rfl⟩
  | append_singleton w c ih =>
    by_cases hc : c = '\n'
    -- one more line break at the end, and it is dropped with the others
    · obtain ⟨n, hn⟩ := ih
      refine ⟨n + 1, ?_⟩
      rw [hc, chomp_newline, List.replicate_succ', ← List.append_assoc, ← hn]
    · exact ⟨0, by rw [chomp_concat hc, List.replicate_zero, List.append_nil]⟩

/-- One of them may end the last line. -/
theorem unended_eq (w : Word) : ∃ n, unended w = chomp w ++ List.replicate n '\n' := by
  rcases List.eq_nil_or_concat' w with rfl | ⟨v, c, rfl⟩
  · exact ⟨0, rfl⟩
  · by_cases hc : c = '\n'
    · have hunended : unended (v ++ [c]) = v := by simp [unended, hc]
      rw [hunended, hc, chomp_newline]
      exact eq_chomp v
    · refine ⟨0, ?_⟩
      rw [chomp_concat hc, List.replicate_zero, List.append_nil]
      simp [unended, hc]

theorem keep_unended (w : Word) : keep (unended w) = keep (chomp w) := by
  obtain ⟨n, hn⟩ := unended_eq w
  rw [hn, keep_append]
  simp [keep]

theorem chomp_of_unended (h : unended w = []) : chomp w = [] := by
  obtain ⟨n, hn⟩ := unended_eq w
  exact (List.append_eq_nil_iff.mp (hn.symm.trans h)).1

/-- But for line breaks, texts that are listed are all there is. -/
theorem Listed.keep_eq (h : Listed texts w) : keep w = texts.flatMap keep := by
  rcases h with rfl | rfl | ⟨rfl, hempty⟩
  · exact keep_ended texts
  · rw [keep_newline, keep_ended]
  · symm
    exact List.flatMap_eq_nil_iff.mpr fun t ht => by rw [hempty t ht, keep_nil]

/-- No option of `echo` has a character of its own. -/
theorem mem_echoOption {d : Char} (h : isEchoOption w = true) (hd : d ∈ w) : d ∈ "-neE".toList := by
  rcases w with _ | ⟨a, _ | ⟨b, cs⟩⟩
  · cases h
  · simp [isEchoOption] at h
  · by_cases ha : a = '-'
    · subst ha
      simp only [isEchoOption, List.all_eq_true, Bool.or_eq_true, beq_iff_eq] at h
      rcases List.mem_cons.mp hd with rfl | hd
      · decide
      · rcases h d hd with (rfl | rfl) | rfl <;> decide
    · simp [isEchoOption, ha] at h

theorem keep_echoOption (h : isEchoOption w = true) : keep w ≠ [] := by
  rcases w with _ | ⟨a, cs⟩
  · cases h
  · intro hkeep
    have ha : a ≠ '\n' := by
      rintro rfl
      exact absurd (mem_echoOption h List.mem_cons_self) (by decide)
    rw [keep_cons ha] at hkeep
    cases hkeep

/-- Where texts are joined there is a backslash. -/
theorem isEchoOption_join (acc t : Word) (ts : List Word) :
    isEchoOption (join acc (t :: ts)) = false := by
  rw [Bool.eq_false_iff]
  intro h
  exact absurd (mem_echoOption (d := '\\') h (by simp [join])) (by decide)

/-- What is printed for a variable that is not empty, and no option of `echo`. -/
theorem commandText_join {acc : Word} (hvoid : ¬(ts = [] ∧ acc = []))
    (hoption : ts = [] → isEchoOption acc = false) :
    commandText (join acc ts) = echo (join acc ts) := by
  have hnil : join acc ts ≠ [] := by
    cases ts with
    | nil => simpa [join] using hvoid
    | cons t ts => simp [join]
  have hnone : isEchoOption (join acc ts) = false := by
    cases ts with
    | nil => simpa [join] using hoption
    | cons t ts => exact isEchoOption_join acc t ts
  rw [commandText, if_neg hnil, echoText, hnone]
  rfl

/-- **Texts alone** are listed exactly when none has an escape. -/
theorem listed_texts (ts : List Word) :
    Listed ts (commandText (join [] ts)) ↔ InertTexts [] ts := by
  by_cases hts : ts = []
  · subst hts
    exact ⟨fun _ => trivial, fun _ => .inl rfl⟩
  rw [commandText_join (fun h => hts h.1) fun h => absurd h hts]
  constructor
  · intro hlisted
    exact (inertTexts_of_keep (p := []) hlisted.keep_eq).2
  · intro hinert
    -- an empty line is in front of them
    right
    left
    rw [echo_join hinert]
    rfl

/-- Texts that are listed are all there is, and unchanged, if these lines end them. -/
theorem front_of_listed {front : List Word} {u v : Word}
    (hbreaks : ∃ n, v = u ++ List.replicate n '\n')
    (h : Listed (front ++ v :: ts) (ended (u :: ts))) : front = [] ∧ u = v := by
  obtain ⟨n, rfl⟩ := hbreaks
  have hfront := length_le_ended front
  -- both are as long, but for the texts in front and the line breaks
  have hlength : (ended (front ++ (u ++ List.replicate n '\n') :: ts)).length =
      (ended front).length + n + (ended (u :: ts)).length := by
    simp [ended]
    omega
  have hzero : (ended front).length + n = 0 := by
    rcases h with h | h | ⟨h, -⟩
    · have := congrArg List.length h
      omega
    · have := congrArg List.length h
      rw [List.length_cons] at this
      omega
    · simp [ended] at h
  refine ⟨List.length_eq_zero_iff.mp (by omega), ?_⟩
  rw [show n = 0 by omega, List.replicate_zero, List.append_nil]

/-- Of a file without text, nothing is printed. -/
theorem listed_nothing (front : List Word) (v : Word) :
    Listed (front ++ [v]) [] ↔ v = [] ∧ ∀ t ∈ front, t = [] := by
  constructor
  · rintro (h | h | ⟨-, hempty⟩)
    · simp [ended] at h
    · cases h
    · rw [List.forall_mem_append, List.forall_mem_singleton] at hempty
      exact hempty.symm
  · rintro ⟨rfl, hfront⟩
    refine .inr (.inr ⟨rfl, ?_⟩)
    rw [List.forall_mem_append, List.forall_mem_singleton]
    exact ⟨hfront, rfl⟩

/-- An option of `echo` is not printed. -/
theorem not_listed_option {c : Word} (hc : isEchoOption (chomp c) = true) (front : List Word) :
    ¬ Listed (front ++ [unended c]) (commandText (chomp c)) := by
  intro hlisted
  have htext : keep (commandText (chomp c)) = [] := by
    rw [commandText, echoText, if_pos hc]
    split_ifs <;> rfl
  have hkeep := hlisted.keep_eq
  rw [htext, List.flatMap_append, List.flatMap_singleton, keep_unended] at hkeep
  exact keep_echoOption hc (List.append_eq_nil_iff.mp hkeep.symm).2

/-- **A file** and what is given behind it. -/
theorem listed_file (front : List Word) (c : Word) (ts : List Word) :
    Listed (front ++ unended c :: ts) (commandText (join (chomp c) ts)) ↔
      front = [] ∧ chomp c = unended c ∧ InertTexts (chomp c) ts ∧
          (ts = [] → isEchoOption (chomp c) = false) ∨
        ts = [] ∧ unended c = [] ∧ ∀ t ∈ front, t = [] := by
  by_cases hvoid : ts = [] ∧ chomp c = []
  · obtain ⟨rfl, hc⟩ := hvoid
    have htext : commandText (join (chomp c) []) = [] := by rw [hc]; rfl
    rw [htext, listed_nothing]
    constructor
    · exact fun h => .inr ⟨rfl, h⟩
    · rintro (⟨rfl, hbreaks, -⟩ | ⟨-, h⟩)
      · exact ⟨hbreaks.symm.trans hc, List.forall_mem_nil _⟩
      · exact h
  by_cases hoption : ts = [] ∧ isEchoOption (chomp c) = true
  · obtain ⟨rfl, hc⟩ := hoption
    have hjoin : join (chomp c) [] = chomp c := List.append_nil _
    rw [hjoin]
    refine iff_of_false (not_listed_option hc front) ?_
    rintro (⟨-, -, -, hnone⟩ | ⟨-, hnil, -⟩)
    · rw [hnone rfl] at hc
      cases hc
    · exact hvoid ⟨rfl, chomp_of_unended hnil⟩
  -- it is printed by `echo`
  rw [not_and, Bool.not_eq_true] at hoption
  rw [commandText_join hvoid hoption]
  constructor
  · intro hlisted
    -- whatever is in front of the file would have to be made up for
    have hkeep := hlisted.keep_eq
    rw [List.flatMap_append, List.flatMap_cons, keep_unended, ← List.flatMap_cons] at hkeep
    obtain ⟨-, hinert⟩ := inertTexts_of_keep hkeep
    rw [echo_join hinert] at hlisted
    obtain ⟨hfront, hbreaks⟩ := front_of_listed (unended_eq c) hlisted
    exact .inl ⟨hfront, hbreaks, hinert, hoption⟩
  · rintro (⟨rfl, hbreaks, hinert, -⟩ | ⟨hts, hc, -⟩)
    · left
      rw [echo_join hinert, hbreaks]
      rfl
    · exact absurd ⟨hts, chomp_of_unended hc⟩ hvoid

theorem file_not_mem_texts {printed : Word} : .file printed ∉ ts.map Entry.text := by
  simp

theorem printed_texts (ts : List Word) : Printed (ts.map .text) ↔ InertTexts [] ts := by
  constructor
  · rintro ⟨-, -, hinert, -⟩
    rwa [map_commands_texts] at hinert
  · intro hinert
    refine ⟨fun before printed after h => ?_, fun printed h => ?_, ?_, fun printed h => ?_⟩
    · exact absurd (h ▸ List.mem_append_right _ List.mem_cons_self) file_not_mem_texts
    · exact absurd h file_not_mem_texts
    · rwa [map_commands_texts]
    · exact absurd (h ▸ List.mem_cons_self) file_not_mem_texts

theorem not_void_texts (ts : List Word) : ¬ Void (ts.map .text) := by
  rintro ⟨-, printed, hlast⟩
  exact file_not_mem_texts (List.mem_of_getLast? hlast)

theorem printed_file (pre : List Entry) (c : Word) (ts : List Word) :
    Printed (pre ++ .file c :: ts.map .text) ↔
      pre = [] ∧ chomp c = unended c ∧ InertTexts (chomp c) ts ∧
        (ts = [] → isEchoOption (chomp c) = false) := by
  constructor
  · rintro ⟨hfirst, hbreaks, hinert, hoption⟩
    -- no option of the side is in front of its last file
    obtain rfl := hfirst pre c _ rfl
    have hc := hbreaks c (by simp)
    rw [List.nil_append, List.map_cons, map_commands_texts] at hinert
    refine ⟨rfl, hc, hc ▸ hinert.2, ?_⟩
    rintro rfl
    exact hoption c rfl
  · rintro ⟨rfl, hc, hinert, hoption⟩
    -- this file is the only one
    have hmem {printed : Word} (h : .file printed ∈ Entry.file c :: ts.map .text) :
        printed = c := by
      rcases List.mem_cons.mp h with h | h
      · exact Entry.file.inj h
      · exact absurd h file_not_mem_texts
    refine ⟨fun before printed after h => ?_, fun printed h => ?_, ?_, fun printed h => ?_⟩
    · rcases List.cons_eq_append_iff.mp h with ⟨rfl, -⟩ | ⟨before', -, h⟩
      · rfl
      · exact absurd (h ▸ List.mem_append_right _ List.mem_cons_self) file_not_mem_texts
    · rw [hmem h, hc]
    · rw [List.nil_append, List.map_cons, map_commands_texts]
      have hfile : InertTexts (unended c) ts := hc ▸ hinert
      exact ⟨trivial, hfile⟩
    · obtain ⟨h, hts⟩ := List.cons_eq_cons.mp h
      rw [← Entry.file.inj h]
      exact hoption (List.map_eq_nil_iff.mp hts)

theorem void_file (pre : List Entry) (c : Word) (ts : List Word) :
    Void (pre ++ .file c :: ts.map .text) ↔
      ts = [] ∧ unended c = [] ∧ ∀ t ∈ pre.map Entry.commands, t = [] := by
  rw [Void, List.forall_mem_append, List.forall_mem_cons]
  rcases List.eq_nil_or_concat' ts with rfl | ⟨ts, t, rfl⟩
  · have hlast : (pre ++ .file c :: [].map Entry.text).getLast? = some (.file c) := by simp
    rw [hlast]
    constructor
    · rintro ⟨⟨hpre, hc, -⟩, -⟩
      exact ⟨rfl, hc, List.forall_mem_map.mpr hpre⟩
    · rintro ⟨-, hc, hpre⟩
      exact ⟨⟨List.forall_mem_map.mp hpre, hc, List.forall_mem_nil _⟩, c, rfl⟩
  · have hlast : (pre ++ .file c :: (ts ++ [t]).map Entry.text).getLast? = some (.text t) := by
      simp [List.getLast?_cons]
    rw [hlast]
    constructor
    · rintro ⟨-, printed, h⟩
      cases h
    · rintro ⟨h, -⟩
      simp at h

/-- **One side is listed** exactly when its commands are printed as they are, or there are none. -/
theorem listed_iff (entries : List Entry) :
    Listed (entries.map Entry.commands) (commandText (entries.foldl Entry.put [])) ↔
      Printed entries ∨ Void entries := by
  obtain ⟨ts, rfl⟩ | ⟨pre, c, ts, rfl⟩ := entries_cases entries
  · rw [foldl_put_texts, map_commands_texts, listed_texts, printed_texts,
      or_iff_left (not_void_texts ts)]
  · have hput : (pre ++ .file c :: ts.map Entry.text).foldl Entry.put [] = join (chomp c) ts := by
      rw [List.foldl_append, List.foldl_cons, foldl_put_texts, Entry.put]
    rw [hput, List.map_append, List.map_cons, map_commands_texts, Entry.commands, listed_file,
      List.map_eq_nil_iff, printed_file, void_file]

end Side

/-! ### The script -/

section Script

variable {h : Host α} {args images : List Word} {o : Options} {p : Package α}

/-- **The parts of a script**: the header, what flashes, and the footer. -/
theorem script_eq (ho : options h {} args = some (o, images)) (hp : makePackage h args = some p) :
    ∃ body : List Line, (∀ l ∈ body, l.Flashes) ∧ p.script = header o ++ body ++ footer o := by
  by_cases hupd : o.upd = []
  · simp [makePackage, ho, hupd] at hp
  by_cases hscript : o.script = []
  · simp only [makePackage, ho, Option.bind_eq_bind, Option.bind_some, if_neg hupd,
      if_pos hscript, Option.bind_eq_some_iff] at hp
    obtain ⟨q, hq, hp⟩ := hp
    obtain rfl := Option.some.inj hp
    refine ⟨lines h (words h images), fun l hl => ?_, ?_⟩
    · obtain ⟨x, -, hx⟩ := List.mem_filterMap.mp hl
      obtain ⟨file, -, rfl⟩ := Option.map_eq_some_iff.mp hx
      trivial
    · rw [script_of_foldlM h hq]
  · simp only [makePackage, ho, Option.bind_eq_bind, Option.bind_some, if_neg hupd,
      if_neg hscript, Option.bind_eq_some_iff] at hp
    obtain ⟨-, -, archive, -, hp⟩ := hp
    obtain rfl := Option.some.inj hp
    refine ⟨[.inserted o.script], fun l hl => ?_, rfl⟩
    obtain rfl := List.mem_singleton.mp hl
    trivial

/-- The line with a variable is there unless it is empty. -/
theorem flatMap_command (inserted : Word → Word) (w : Word) :
    (if w ≠ [] then [Line.command w] else []).flatMap (Line.text inserted) = commandText w := by
  by_cases hw : w = []
  · rw [if_neg (not_not.mpr hw), commandText, if_pos hw, List.flatMap_nil]
  · rw [if_pos hw, commandText, if_neg hw]
    exact List.flatMap_singleton _ _

/-- **The script is verbatim** exactly when no file follows other commands of its side, and no text
is special for `echo` or in quotes. -/
theorem verbatim_iff (inserted : Word → Word) (ho : options h {} args = some (o, images))
    (hp : makePackage h args = some p) :
    Verbatim inserted h args o p ↔ VerbatimWhen h args o := by
  -- the variables are what the options of each side make of them
  have hstarts := listed_iff (startEntries h args)
  have hends := listed_iff (endEntries h args)
  rw [← cmdStart_eq ho] at hstarts
  rw [← cmdEnd_eq ho] at hends
  constructor
  · rintro ⟨-, hs, he, hname, hproduct⟩
    exact ⟨hstarts.mp hs, hends.mp he, (marks_nameText _).mp hname,
      (marks_productText _).mp hproduct⟩
  · rintro ⟨hs, he, hname, hproduct⟩
    refine ⟨?_, hstarts.mpr hs, hends.mpr he, (marks_nameText _).mpr hname,
      (marks_productText _).mpr hproduct⟩
    -- the commands are the last lines of the header, and the first ones of the footer
    obtain ⟨body, hbody, hscript⟩ := script_eq ho hp
    refine ⟨(if o.dev ≠ [] then [.product o.dev] else []) ++
      (if o.name ≠ [] then [.name o.name] else []), body,
      if o.script = [] then [.success] else [], ?_, hbody, ?_, ?_, ?_⟩
    · intro l hl
      simp only [List.mem_append, List.mem_ite_nil_right, List.mem_singleton] at hl
      rcases hl with (⟨-, rfl⟩ | ⟨-, rfl⟩) | ⟨-, rfl⟩ <;> exact id
    · rw [scriptText, hscript, header, footer]
      simp only [List.flatMap_append, flatMap_command, List.append_assoc]
    · intro hne
      simp [hne]
    · intro hne
      simp [hne]

end Script

/-- A host whose files all have one line. -/
def oneLine : Host Unit where
  file _ := none
  link _ := false
  copyLink _ _ _ := none
  matching _ := []
  optionText _ := none
  readlink w := '/' :: w
  cat _ := "two\n".toList

/-- A file, and a text behind it. -/
def fileFirst : List Word := ["-o", "u", "-fs", "f", "-cs", "one"].map String.toList

theorem verbatim_iff_fileFirst : ∃ o images p,
    options oneLine {} fileFirst = some (o, images) ∧ makePackage oneLine fileFirst = some p ∧
      (Verbatim id oneLine fileFirst o p ↔ VerbatimWhen oneLine fileFirst o) :=
  ⟨_, _, _, rfl, rfl, verbatim_iff id rfl rfl⟩

/-- A text, and a file behind it. -/
def textFirst : List Word := ["-o", "u", "-cs", "one", "-fs", "f"].map String.toList

/-- **The text is lost**: the file replaces it. -/
theorem not_verbatim : ∃ o images p,
    options oneLine {} textFirst = some (o, images) ∧ makePackage oneLine textFirst = some p ∧
      ¬ Verbatim id oneLine textFirst o p :=
  ⟨_, _, _, rfl, rfl, fun h => absurd h.starts (by decide)⟩

end UpdMaker
