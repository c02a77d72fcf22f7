import Akbuilder.Lib.CText

/-!
# Texts in the double quotes of a shell

Inside of double quotes a shell takes most characters as they are. A double quote ends the string, a
backquote and some dollars begin an expansion, and a backslash in front of a character that is
special here is removed. Each character that is read gets a mark that says what it is. A fragment of
a script is written with the strings that it is meant to have; a shell may read it otherwise.

## Main definitions

* `marks`: what a shell reads
* `Literal`: a text that is taken as it is in double quotes
* `Part`: the parts of a fragment, as it is meant
* `Fits`: the texts of a string are literal where they stand

## Main results

* `marks_of_literal`, `literal_of_marks`: literal texts, and only these, are parts of the string
* `marks_spells_iff`: a fragment is read as it is meant exactly when its strings fit
-/

open CText

namespace Quoting

/-- What a shell takes a character for. -/
inductive Mark
  /-- a character outside of double quotes -/
  | bare (c : Char)
  /-- a double quote that begins or ends a string -/
  | quote
  /-- a character of a string -/
  | char (c : Char)
  /-- a character that begins an expansion in a string -/
  | active (c : Char)
  deriving DecidableEq

/-- Where a shell is in a text. -/
inductive Place
  | outside
  | string
  | backslash

/-- A dollar in front of this text begins an expansion. -/
def startsExpansion (w : Text) : Bool :=
  w.head?.any fun c => c.isAlphanum || "_\x7b(*@#?-$!".toList.contains c

/-- A backslash in front of this text is removed. -/
def escapes (w : Text) : Bool := w.head?.any fun c => "$\x60\"\\\n".toList.contains c

/-- **What a shell reads.** Outside of double quotes nothing but a double quote is looked at. -/
def marks : Place → Text → List Mark
  | .outside, [] => []
  | .outside, c :: cs =>
    if c = '"' then .quote :: marks .string cs else .bare c :: marks .outside cs
  | .string, [] => []
  | .string, c :: cs =>
    if c = '"' then .quote :: marks .outside cs
    else if c = '\x60' then .active c :: marks .string cs
    else if c = '$' ∧ startsExpansion cs then .active c :: marks .string cs
    else if c = '\\' then marks .backslash cs
    else .char c :: marks .string cs
  | .backslash, [] => [.char '\\']
  | .backslash, c :: cs =>
    -- a line break goes with its backslash
    if c = '\n' then marks .string cs
    else if escapes [c] then .char c :: marks .string cs
    else .char '\\' :: .char c :: marks .string cs

/-- **A text that is taken as it is** in double quotes, where it is followed by another one. -/
def Literal (next : Text) : Text → Prop
  | [] => True
  | c :: cs => c ≠ '"' ∧ c ≠ '\x60' ∧ (c = '$' → startsExpansion (cs ++ next) = false) ∧
      (c = '\\' → escapes (cs ++ next) = false) ∧ Literal next cs

instance (next : Text) : ∀ w : Text, Decidable (Literal next w)
  | [] => isTrue trivial
  | _ :: cs =>
    have := instDecidableLiteral next cs
    inferInstanceAs (Decidable (_ ∧ _ ∧ _ ∧ _ ∧ _))

/-- A text without any character that is special in double quotes. -/
def isPlain (w : Text) : Bool := w.all fun c => !"\"\x60$\\".toList.contains c

section Marks

variable {w next : Text}

theorem marks_outside (h : '"' ∉ w) :
    marks .outside (w ++ next) = w.map .bare ++ marks .outside next := by
  induction w with
  | nil => rfl
  | cons c cs ih =>
    obtain ⟨hc, hcs⟩ := List.ne_and_not_mem_of_not_mem_cons h
    simp only [List.cons_append, marks]
    rw [if_neg (Ne.symm hc), ih hcs]
    rfl

/-- A backslash that is not removed. -/
theorem marks_backslash (h : escapes w = false) :
    marks .backslash w = .char '\\' :: marks .string w := by
  cases w with
  | nil => rfl
  | cons c cs =>
    have hc : escapes [c] = false := h
    -- the character behind it is none of those that are special
    have hne : ∀ d ∈ "$\x60\"\\\n".toList, c ≠ d := by
      rintro d hd rfl
      simp [escapes] at hc hd
      tauto
    have hline : c ≠ '\n' := hne _ (by decide)
    have hquote : c ≠ '"' := hne _ (by decide)
    have hback : c ≠ '\x60' := hne _ (by decide)
    have hdollar : c ≠ '$' := hne _ (by decide)
    have hslash : c ≠ '\\' := hne _ (by decide)
    simp [marks, hc, hline, hquote, hback, hdollar, hslash]

/-- **A literal text** is a part of the string. -/
theorem marks_of_literal (h : Literal next w) :
    marks .string (w ++ next) = w.map .char ++ marks .string next := by
  induction w with
  | nil => rfl
  | cons c cs ih =>
    obtain ⟨hquote, hback, hdollar, hslash, hcs⟩ := h
    -- the one case left is a backslash, and it stays
    simp only [List.cons_append, marks, if_neg hquote, if_neg hback]
    rw [if_neg fun hc => by rw [hdollar hc.1] at hc; exact Bool.false_ne_true hc.2]
    split
    · next hc =>
      rw [marks_backslash (hslash hc), ih hcs, hc]
      rfl
    · rw [ih hcs]
      rfl

/-- Nothing is read that is not there; behind a backslash, that one is yet to be counted. -/
theorem length_marks_le (w : Text) :
    (marks .outside w).length ≤ w.length ∧ (marks .string w).length ≤ w.length ∧
      (marks .backslash w).length ≤ w.length + 1 := by
  induction w with
  | nil => simp [marks]
  | cons c cs ih =>
    obtain ⟨houtside, hstring, hbackslash⟩ := ih
    simp only [marks, List.length_cons]
    refine ⟨?_, ?_, ?_⟩
    · split
      · exact Nat.succ_le_succ hstring
      · exact Nat.succ_le_succ houtside
    · split_ifs
      · exact Nat.succ_le_succ houtside
      · exact Nat.succ_le_succ hstring
      · exact Nat.succ_le_succ hstring
      · exact hbackslash
      · exact Nat.succ_le_succ hstring
    · split_ifs
      · omega
      · exact Nat.succ_le_succ (Nat.le_succ_of_le hstring)
      · exact Nat.succ_le_succ (Nat.succ_le_succ hstring)

/-- A backslash that is removed is missing. -/
theorem length_marks_backslash (h : escapes w = true) :
    (marks .backslash w).length ≤ w.length := by
  cases w with
  | nil => cases h
  | cons c cs =>
    obtain ⟨-, hstring, -⟩ := length_marks_le cs
    have hc : escapes [c] = true := h
    simp only [marks, hc, if_true]
    split
    · exact Nat.le_succ_of_le hstring
    · exact Nat.succ_le_succ hstring

/-- **Only literal texts** are part of the string, where nothing else is removed. -/
theorem literal_of_marks {rest : List Mark} (h : marks .string (w ++ next) = w.map .char ++ rest)
    (hlen : (w ++ next).length ≤ (marks .string (w ++ next)).length) :
    Literal next w ∧ marks .string next = rest := by
  induction w with
  | nil => exact ⟨trivial, h⟩
  | cons c cs ih =>
    simp only [List.cons_append, marks, List.map_cons, List.length_cons] at h hlen
    -- a special character gets another mark than it is meant to have
    by_cases hquote : c = '"'
    · rw [if_pos hquote] at h
      cases h
    by_cases hback : c = '\x60'
    · rw [if_neg hquote, if_pos hback] at h
      cases h
    by_cases hdollar : c = '$' ∧ startsExpansion (cs ++ next) = true
    · rw [if_neg hquote, if_neg hback, if_pos hdollar] at h
      cases h
    have hliteral (hc : c = '$') : startsExpansion (cs ++ next) = false := by
      rw [Bool.eq_false_iff]
      exact fun hstarts => hdollar ⟨hc, hstarts⟩
    simp only [if_neg hquote, if_neg hback, if_neg hdollar] at h hlen
    by_cases hslash : c = '\\'
    · rw [if_pos hslash] at h hlen
      cases hescapes : escapes (cs ++ next) with
      | true =>
        -- the backslash is missing, and nothing makes up for it
        have := length_marks_backslash hescapes
        omega
      | false =>
        rw [marks_backslash hescapes] at h
        rw [marks_backslash hescapes, List.length_cons] at hlen
        obtain ⟨hcs, hrest⟩ := ih (List.cons_eq_cons.mp h).2 (by omega)
        exact ⟨⟨hquote, hback, hliteral, fun _ => hescapes, hcs⟩, hrest⟩
    · rw [if_neg hslash] at h hlen
      rw [List.length_cons] at hlen
      obtain ⟨hcs, hrest⟩ := ih (List.cons_eq_cons.mp h).2 (by omega)
      exact ⟨⟨hquote, hback, hliteral, fun hc => absurd hc hslash, hcs⟩, hrest⟩

/-- Where nothing is removed behind a literal text either. -/
theorem length_of_literal (h : Literal next w)
    (hlen : (w ++ next).length ≤ (marks .string (w ++ next)).length) :
    next.length ≤ (marks .string next).length := by
  rw [marks_of_literal h] at hlen
  simpa using hlen

/-- Only the character behind a text says whether it is literal. -/
theorem literal_congr {next' : Text} (h : next.head? = next'.head?) :
    Literal next w ↔ Literal next' w := by
  have hhead : ∀ cs : Text, (cs ++ next).head? = (cs ++ next').head? := fun cs => by
    rw [List.head?_append, List.head?_append, h]
  induction w with
  | nil => rfl
  | cons c cs ih => simp only [Literal, ih, startsExpansion, escapes, hhead]

/-- A character that means nothing behind a backslash asks for less. -/
theorem Literal.of_next {c : Char} (hc : startsExpansion [c] = false) (hs : escapes [c] = false)
    (h : Literal next w) : Literal [c] w := by
  induction w with
  | nil => trivial
  | cons d ds ih =>
    obtain ⟨hquote, hback, hdollar, hslash, hds⟩ := h
    refine ⟨hquote, hback, fun hd => ?_, fun hd => ?_, ih hds⟩
    · cases ds with
      | nil => exact hc
      | cons e es => exact hdollar hd
    · cases ds with
      | nil => exact hs
      | cons e es => exact hslash hd

/-- Plain texts are literal. -/
theorem literal_of_isPlain (h : isPlain w = true) (next : Text) : Literal next w := by
  induction w with
  | nil => trivial
  | cons c cs ih =>
    rw [isPlain, List.all_cons, Bool.and_eq_true] at h
    obtain ⟨hc, hcs⟩ := h
    have hne : ∀ d ∈ "\"\x60$\\".toList, c ≠ d := by
      rintro d hd rfl
      rw [List.contains_iff_mem.mpr hd] at hc
      cases hc
    exact ⟨hne _ (by decide), hne _ (by decide), fun h => absurd h (hne _ (by decide)),
      fun h => absurd h (hne _ (by decide)), ih hcs⟩

end Marks

/-! ## Fragments -/

/-- What is in a string: a text that is meant as it is, or the value of a variable. -/
inductive Piece
  | text (w : Text)
  | param (name : Text)

/-- What a fragment consists of. -/
inductive Part
  | bare (w : Text)
  | string (ps : List Piece)

def Piece.spell : Piece → Text
  | .text w => w
  | .param name => '$' :: name

def Piece.meant : Piece → List Mark
  | .text w => w.map .char
  | .param name => .active '$' :: name.map .char

def Part.spell : Part → Text
  | .bare w => w
  | .string ps => '"' :: (ps.flatMap Piece.spell ++ ['"'])

def Part.meant : Part → List Mark
  | .bare w => w.map .bare
  | .string ps => .quote :: (ps.flatMap Piece.meant ++ [.quote])

/-- The text of a fragment. -/
def spells (parts : List Part) : Text := parts.flatMap Part.spell

/-- How a shell is meant to read it. -/
def meants (parts : List Part) : List Mark := parts.flatMap Part.meant

/-- **The pieces of a string fit**: texts and names are literal where they stand. -/
def Fits : List Piece → Prop
  | [] => True
  | .text w :: ps => Literal (ps.flatMap Piece.spell ++ ['"']) w ∧ Fits ps
  | .param name :: ps =>
    startsExpansion (name ++ (ps.flatMap Piece.spell ++ ['"'])) = true ∧
      Literal (ps.flatMap Piece.spell ++ ['"']) name ∧ Fits ps

/-- Nothing but a string has double quotes. -/
def Part.Sound : Part → Prop
  | .bare w => '"' ∉ w
  | .string _ => True

section Fragments

variable {ps : List Piece} {parts : List Part} {rest : Text}

/-- Of what is behind a string, its double quote is enough. -/
theorem head_spell (ps : List Piece) (rest : Text) :
    (ps.flatMap Piece.spell ++ '"' :: rest).head? = (ps.flatMap Piece.spell ++ ['"']).head? := by
  cases ps.flatMap Piece.spell <;> rfl

theorem startsExpansion_append (w : Text) (ps : List Piece) (rest : Text) :
    startsExpansion (w ++ (ps.flatMap Piece.spell ++ '"' :: rest)) =
      startsExpansion (w ++ (ps.flatMap Piece.spell ++ ['"'])) := by
  rw [startsExpansion, startsExpansion, List.head?_append, head_spell, ← List.head?_append]

/-- A dollar in a string. -/
theorem marks_dollar (w : Text) : marks .string ('$' :: w) =
    if startsExpansion w then .active '$' :: marks .string w else .char '$' :: marks .string w := by
  simp [marks]

/-- **A string that fits** is read as it is meant. -/
theorem marks_of_fits (h : Fits ps) (rest : Text) :
    marks .string (ps.flatMap Piece.spell ++ '"' :: rest) =
      ps.flatMap Piece.meant ++ .quote :: marks .outside rest := by
  induction ps with
  | nil => rfl
  | cons piece ps ih =>
    rw [List.flatMap_cons, List.flatMap_cons, List.append_assoc, List.append_assoc]
    cases piece with
    | text w =>
      rw [Piece.spell, Piece.meant,
        marks_of_literal ((literal_congr (head_spell ps rest)).mpr h.1), ih h.2]
    | param name =>
      obtain ⟨hstarts, hname, hps⟩ := h
      rw [Piece.spell, Piece.meant, List.cons_append, marks_dollar, startsExpansion_append,
        hstarts, if_pos rfl, marks_of_literal ((literal_congr (head_spell ps rest)).mpr hname),
        ih hps]
      rfl

/-- **Only a string that fits** is read as it is meant, where nothing else is removed. -/
theorem fits_of_marks {ms : List Mark}
    (h : marks .string (ps.flatMap Piece.spell ++ '"' :: rest) = ps.flatMap Piece.meant ++ ms)
    (hlen : (ps.flatMap Piece.spell ++ '"' :: rest).length ≤
      (marks .string (ps.flatMap Piece.spell ++ '"' :: rest)).length) :
    Fits ps ∧ .quote :: marks .outside rest = ms := by
  induction ps with
  | nil => exact ⟨trivial, h⟩
  | cons piece ps ih =>
    rw [List.flatMap_cons, List.append_assoc] at h hlen
    rw [List.flatMap_cons, List.append_assoc] at h
    cases piece with
    | text w =>
      rw [Piece.spell, Piece.meant] at h
      rw [Piece.spell] at hlen
      -- the text first, and then the rest of the string
      obtain ⟨hw, hps⟩ := literal_of_marks h hlen
      obtain ⟨hfits, hms⟩ := ih hps (length_of_literal hw hlen)
      exact ⟨⟨(literal_congr (head_spell ps rest)).mp hw, hfits⟩, hms⟩
    | param name =>
      rw [Piece.spell, Piece.meant, List.cons_append, marks_dollar] at h
      rw [Piece.spell, List.cons_append, marks_dollar] at hlen
      cases hstarts : startsExpansion (name ++ (ps.flatMap Piece.spell ++ '"' :: rest)) with
      | false =>
        rw [hstarts, if_neg Bool.false_ne_true] at h
        cases h
      | true =>
        rw [hstarts, if_pos rfl] at h hlen
        -- the dollar begins an expansion, and the name is read as it is
        have h : marks .string (name ++ (ps.flatMap Piece.spell ++ '"' :: rest)) =
            name.map .char ++ (ps.flatMap Piece.meant ++ ms) := (List.cons_eq_cons.mp h).2
        obtain ⟨hname, hps⟩ := literal_of_marks h (Nat.le_of_succ_le_succ hlen)
        obtain ⟨hfits, hms⟩ := ih hps (length_of_literal hname (Nat.le_of_succ_le_succ hlen))
        rw [startsExpansion_append] at hstarts
        exact ⟨⟨hstarts, (literal_congr (head_spell ps rest)).mp hname, hfits⟩, hms⟩

theorem length_meant (parts : List Part) : (meants parts).length = (spells parts).length := by
  have hpiece (ps : List Piece) :
      (ps.flatMap Piece.meant).length = (ps.flatMap Piece.spell).length := by
    induction ps with
    | nil => rfl
    | cons piece ps ih =>
      cases piece <;> simp [Piece.meant, Piece.spell, ih]
  induction parts with
  | nil => rfl
  | cons part parts ih =>
    rw [meants, spells, List.flatMap_cons, List.flatMap_cons, List.length_append,
      List.length_append]
    cases part with
    | bare w => simpa [meants, spells, Part.meant, Part.spell] using ih
    | string ps =>
      have := hpiece ps
      simp only [meants, spells] at ih
      simp only [Part.meant, Part.spell, List.length_cons, List.length_append]
      omega

/-- **A fragment is read as it is meant** exactly when its strings fit. -/
theorem marks_spells_iff (hsound : ∀ part ∈ parts, part.Sound) :
    marks .outside (spells parts) = meants parts ↔ ∀ ps, .string ps ∈ parts → Fits ps := by
  induction parts with
  | nil => simp [spells, meants, marks]
  | cons part parts ih =>
    have ih := ih fun p hp => hsound p (List.mem_cons_of_mem _ hp)
    have hpart := hsound part List.mem_cons_self
    cases part with
    | bare w =>
      have hspells : spells (.bare w :: parts) = w ++ spells parts := rfl
      have hmeants : meants (.bare w :: parts) = w.map .bare ++ meants parts := rfl
      rw [hspells, hmeants, marks_outside hpart, List.append_cancel_left_eq, ih]
      simp
    | string ps =>
      have hspells : spells (.string ps :: parts) =
          '"' :: (ps.flatMap Piece.spell ++ '"' :: spells parts) := by
        simp [spells, Part.spell]
      have hmeants : meants (.string ps :: parts) =
          .quote :: (ps.flatMap Piece.meant ++ .quote :: meants parts) := by
        simp [meants, Part.meant]
      have hmarks : marks .outside ('"' :: (ps.flatMap Piece.spell ++ '"' :: spells parts)) =
          .quote :: marks .string (ps.flatMap Piece.spell ++ '"' :: spells parts) := rfl
      rw [hspells, hmeants, hmarks, List.cons_eq_cons, and_iff_right rfl]
      constructor
      · intro h
        -- no mark is missing where a fragment is read as it is meant
        have hlen := length_meant (.string ps :: parts)
        rw [hspells, hmeants, List.length_cons, List.length_cons, ← h] at hlen
        obtain ⟨hfits, hrest⟩ := fits_of_marks h (by omega)
        have := ih.mp (List.cons_eq_cons.mp hrest).2
        simpa using ⟨hfits, this⟩
      · intro h
        rw [marks_of_fits (h ps List.mem_cons_self),
          ih.mpr fun ps' hps => h ps' (List.mem_cons_of_mem _ hps)]

end Fragments

end Quoting
