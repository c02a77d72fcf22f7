import Akbuilder.Dhd.Command
import Mathlib.Data.Option.Basic
import Mathlib.Data.List.TakeWhile

/-!
# The command language, and how it is read

A command is `id polarity type` and what the type takes: `offset mask pattern` for 0 and 1, a
sequence of `[base:]offset mask [!]pattern` for 2 and 6. A reader says what the tokens of each kind
mean. The language has a strict one: numbers are complete integer constants in range, masks and
patterns are hexadecimal strings. The function reads by `strtoul`, and takes more.

## Main definitions

* `Reader`: the meaning of the tokens; `Reader.command`: of a command
* `strict`, `lax`: the reader of the language, and that of `dhd_pktfilter_offload_set`
* `Reader.exact`: no token is outside the domain of a reader

## Main results

* `strict_le_lax`: the function reads the tokens of the language as the language does
* `Reader.Le.command_iff`: of the commands that are read, the exact ones are in the language
-/

open CText

namespace Dhd

/-- **The meaning of tokens.** -/
structure Reader where
  /-- an id, a polarity or a type -/
  number : Text → Option UInt32
  /-- the offset of a filter with one pattern -/
  offset : Text → Option UInt32
  /-- base and offset in a list -/
  place : Text → Option (UInt16 × UInt16)
  /-- a mask or a pattern -/
  bytes : Text → Option (List UInt8)
  /-- tokens after the pattern of a filter with one are ignored -/
  ignoresRest : Bool

namespace Reader

variable (r : Reader)

def pattern (mask data : Text) : Option Pattern := do
  let m ← r.bytes mask
  let d ← r.bytes data
  if hlen : m.length = d.length then some ⟨m, d, hlen⟩ else none

def group (arg mask data : Text) : Option Group := do
  let offs ← r.place arg
  let p ← r.pattern mask (dropNot data)
  return ⟨offs.1, offs.2, data.head? = some '!', p⟩

def groups : List Text → Option (List Group)
  | [] => some []
  | arg :: mask :: data :: args => do
    let g ← r.group arg mask data
    let gs ← groups args
    return g :: gs
  | _ => none

def body (type : UInt32) (args : List Text) : Option Body :=
  if ht : type = 0 ∨ type = 1 then
    match args with
    | offset :: mask :: data :: rest =>
      if r.ignoresRest || rest.isEmpty then do
        let o ← r.offset offset
        let p ← r.pattern mask data
        return .pattern ⟨type, ht⟩ o p
      else none
    | _ => none
  else if ht : type = 2 ∨ type = 6 then (r.groups args).map (.list ⟨type, ht⟩)
  else none

/-- **The filter that the tokens of a command write.** -/
def command : List Text → Option Command
  | id :: polarity :: type :: args => do
    let id ← r.number id
    let polarity ← r.number polarity
    let type ← r.number type
    let body ← r.body type args
    return ⟨id, polarity, body⟩
  | _ => none

/-! ## Exact commands -/

def exactGroups : List Text → Bool
  | arg :: mask :: data :: args =>
    (r.place arg).isSome && ((r.bytes mask).isSome && (r.bytes (dropNot data)).isSome) &&
      exactGroups args
  | _ => true

def exactBody (type : UInt32) (args : List Text) : Bool :=
  if type = 0 ∨ type = 1 then
    match args with
    | offset :: mask :: data :: rest =>
      (r.ignoresRest || rest.isEmpty) &&
        ((r.offset offset).isSome && ((r.bytes mask).isSome && (r.bytes data).isSome))
    | _ => true
  else r.exactGroups args

/-- No token of a command is outside the domain of the reader, and none is left over. -/
def exact : List Text → Bool
  | id :: polarity :: type :: args =>
    (r.number id).isSome && (r.number polarity).isSome && (r.number type).any (r.exactBody · args)
  | _ => true

/-! ## Readers that agree -/

/-- What `r` reads, `r'` reads the same. -/
structure Le (r r' : Reader) : Prop where
  number {s : Text} {n : UInt32} : r.number s = some n → r'.number s = some n
  offset {s : Text} {n : UInt32} : r.offset s = some n → r'.offset s = some n
  place {s : Text} {p : UInt16 × UInt16} : r.place s = some p → r'.place s = some p
  bytes {s : Text} {bs : List UInt8} : r.bytes s = some bs → r'.bytes s = some bs
  ignoresRest : r.ignoresRest = true → r'.ignoresRest = true

namespace Le

variable {r r' : Reader}

theorem pattern_iff (hle : Le r r') {mask data : Text} {p : Pattern} :
    r.pattern mask data = some p ↔
      r'.pattern mask data = some p ∧ (r.bytes mask).isSome = true ∧
        (r.bytes data).isSome = true := by
  -- what `r` does not read makes both sides false, what it reads `r'` reads the same
  cases hm : r.bytes mask with
  | none => simp [Reader.pattern, hm]
  | some m =>
    cases hd : r.bytes data with
    | none => simp [Reader.pattern, hm, hd]
    | some d => simp [Reader.pattern, hm, hd, hle.bytes hm, hle.bytes hd]

theorem group_iff (hle : Le r r') {arg mask data : Text} {g : Group} :
    r.group arg mask data = some g ↔
      r'.group arg mask data = some g ∧ (r.place arg).isSome = true ∧
        (r.bytes mask).isSome = true ∧ (r.bytes (dropNot data)).isSome = true := by
  cases ho : r.place arg with
  | none => simp [group, ho]
  | some offs =>
    simp only [group, ho, hle.place ho, Option.bind_eq_bind, Option.bind_some,
      Option.bind_eq_some_iff, hle.pattern_iff, Option.isSome_some, true_and]
    constructor
    · rintro ⟨p, ⟨hp, hbytes⟩, hg⟩
      exact ⟨⟨p, hp, hg⟩, hbytes⟩
    · rintro ⟨⟨p, hp, hg⟩, hbytes⟩
      exact ⟨p, ⟨hp, hbytes⟩, hg⟩

theorem groups_iff (hle : Le r r') : ∀ {args : List Text} {gs : List Group},
    r.groups args = some gs ↔ r'.groups args = some gs ∧ r.exactGroups args = true
  | [], gs => by simp [groups, exactGroups]
  | [_], gs => by simp [groups]
  | [_, _], gs => by simp [groups]
  | arg :: mask :: data :: args, gs => by
    simp only [groups, exactGroups, Option.bind_eq_bind, Option.bind_eq_some_iff, hle.group_iff,
      hle.groups_iff, Bool.and_eq_true]
    constructor
    · rintro ⟨g, ⟨hg, hplace, hbytes⟩, gs', ⟨hgs, hexact⟩, hcons⟩
      exact ⟨⟨g, hg, gs', hgs, hcons⟩, ⟨hplace, hbytes⟩, hexact⟩
    · rintro ⟨⟨g, hg, gs', hgs, hcons⟩, ⟨hplace, hbytes⟩, hexact⟩
      exact ⟨g, ⟨hg, hplace, hbytes⟩, gs', ⟨hgs, hexact⟩, hcons⟩

theorem body_iff (hle : Le r r') {type : UInt32} {args : List Text} {b : Body} :
    r.body type args = some b ↔ r'.body type args = some b ∧ r.exactBody type args = true := by
  unfold body exactBody
  split_ifs with ht ht'
  · rcases args with _ | ⟨offset, _ | ⟨mask, _ | ⟨data, rest⟩⟩⟩
    · simp
    · simp
    · simp
    · dsimp only
      -- tokens behind the pattern count only for a reader that does not ignore them
      by_cases hrest : (r.ignoresRest || rest.isEmpty) = true
      · have hrest' : (r'.ignoresRest || rest.isEmpty) = true := by
          rw [Bool.or_eq_true] at hrest ⊢
          exact hrest.imp hle.ignoresRest id
        rw [if_pos hrest, if_pos hrest']
        cases ho : r.offset offset with
        | none => simp
        | some o =>
          simp only [hle.offset ho, Option.bind_eq_bind, Option.bind_some,
            Option.bind_eq_some_iff, hle.pattern_iff, hrest, Option.isSome_some, Bool.true_and,
            Bool.and_eq_true]
          constructor
          · rintro ⟨p, ⟨hp, hbytes⟩, hb⟩
            exact ⟨⟨p, hp, hb⟩, hbytes⟩
          · rintro ⟨⟨p, hp, hb⟩, hbytes⟩
            exact ⟨p, ⟨hp, hbytes⟩, hb⟩
      · simp [hrest]
  · simp only [Option.map_eq_some_iff, hle.groups_iff]
    constructor
    · rintro ⟨gs, ⟨hgs, hexact⟩, hb⟩
      exact ⟨⟨gs, hgs, hb⟩, hexact⟩
    · rintro ⟨⟨gs, hgs, hb⟩, hexact⟩
      exact ⟨gs, ⟨hgs, hexact⟩, hb⟩
  · simp

/-- **Of the commands that `r'` reads, `r` reads those that are exact for it**, as the same
filters. -/
theorem command_iff (hle : Le r r') {args : List Text} {c : Command} :
    r.command args = some c ↔ r'.command args = some c ∧ r.exact args = true := by
  rcases args with _ | ⟨id, _ | ⟨polarity, _ | ⟨type, args⟩⟩⟩
  · simp [command]
  · simp [command]
  · simp [command]
  · cases hi : r.number id with
    | none => simp [command, exact, hi]
    | some i =>
      cases hp : r.number polarity with
      | none => simp [command, exact, hi, hp]
      | some p =>
        cases ht : r.number type with
        | none => simp [command, exact, hi, hp, ht]
        | some t =>
          simp only [command, exact, hi, hp, ht, hle.number hi, hle.number hp, hle.number ht,
            Option.bind_eq_bind, Option.bind_some, Option.bind_eq_some_iff, hle.body_iff,
            Option.isSome_some, Option.any_some, Bool.true_and]
          constructor
          · rintro ⟨b, ⟨hb, hexact⟩, hc⟩
            exact ⟨⟨b, hb, hc⟩, hexact⟩
          · rintro ⟨⟨b, hb, hc⟩, hexact⟩
            exact ⟨b, ⟨hb, hexact⟩, hc⟩

end Le

end Reader

/-! ## The language -/

/-- An integer constant of 32 bits. -/
def number32 (s : Text) : Option UInt32 := do
  let n ← cInteger s
  if n < 2 ^ 32 then some (UInt32.ofNat n) else none

/-- An integer constant of at most `0xFFFF`. -/
def number16 (s : Text) : Option UInt16 := do
  let n ← cInteger s
  if n ≤ 0xFFFF then some (UInt16.ofNat n) else none

def hexPairs : Text → Option (List UInt8)
  | [] => some []
  | a :: b :: cs =>
    if digitValue a < 16 ∧ digitValue b < 16 then
      (hexPairs cs).map (UInt8.ofNat (16 * digitValue a + digitValue b) :: ·)
    else none
  | _ => none

/-- `0x`, and an even number of hexadecimal digits. -/
def hexString : Text → Option (List UInt8)
  | z :: x :: cs => if z = '0' ∧ (x = 'x' ∨ x = 'X') then hexPairs cs else none
  | _ => none

section Readers

variable (h : Headers)

/-- A base: a number, or one of the names in any case. -/
def baseOf (s : Text) : Option UInt16 :=
  match number16 s with
  | some n => some n
  | none => (h.basenames.find? fun p => p.1 = s.map Char.toUpper).map Prod.snd

/-- `[base:]offset`. -/
def placeOf (s : Text) : Option (UInt16 × UInt16) :=
  if ':' ∈ s then do
    let base ← baseOf h (s.takeWhile (· ≠ ':'))
    let offset ← number16 (s.dropWhile (· ≠ ':')).tail
    return (base, offset)
  else (number16 s).map fun offset => (0, offset)

/-- **The reader of the language.** -/
def strict : Reader where
  number := number32
  offset s := (number16 s).map UInt16.toUInt32
  place := placeOf h
  bytes := hexString
  ignoresRest := false

/-- The reader of `dhd_pktfilter_offload_set`. -/
def lax : Reader where
  number s := some (strtoul 0 s).1.toUInt32
  offset s := some (strtoul 0 s).1.toUInt32
  place := patternOffset h
  bytes := atohBytes
  ignoresRest := true

variable {h}

/-- `strtoul` at an integer constant before something that no number goes on with. -/
theorem strtoul_of_number16 {s rest : Text} {n : UInt16} (hs : number16 s = some n)
    (hrest : Stops 36 rest) :
    strtoul 0 (s ++ rest) = (n.toUInt64, rest) ∧ ∃ c cs, s = c :: cs ∧ c.isDigit = true := by
  simp only [number16, Option.bind_eq_bind, Option.bind_eq_some_iff,
    Option.ite_none_right_eq_some, Option.some.injEq] at hs
  obtain ⟨k, hk, hle, rfl⟩ := hs
  have hn : (UInt16.ofNat k).toNat = k := by
    rw [UInt16.toNat_ofNat', Nat.mod_eq_of_lt (by omega)]
  rw [← UInt64.ofNat_uInt16ToNat, hn]
  exact ⟨strtoul_of_cInteger hk (by unfold UInt64.size; omega) hrest, cInteger_head hk⟩

theorem toInt_toUInt64 (n : UInt16) : toInt n.toUInt64 = n.toNat := by
  have hn : n.toNat < 2 ^ 16 := n.toNat_lt
  unfold toInt
  rw [UInt16.toNat_toUInt64, Int.bmod_def]
  omega

theorem ofInt_toNat (n : UInt16) : UInt16.ofInt n.toNat = n := by
  have hn : n.toNat < 2 ^ 16 := n.toNat_lt
  have : ((n.toNat : ℤ) % 2 ^ 16).toNat = n.toNat := by omega
  rw [UInt16.ofInt, this, UInt16.ofNat_toNat]

theorem number32_eq {s : Text} {n : UInt32} (hs : number32 s = some n) :
    (strtoul 0 s).1.toUInt32 = n := by
  simp only [number32, Option.bind_eq_bind, Option.bind_eq_some_iff,
    Option.ite_none_right_eq_some, Option.some.injEq] at hs
  obtain ⟨k, hk, hlt, rfl⟩ := hs
  have := strtoul_of_cInteger hk (by unfold UInt64.size; omega) (show Stops 36 [] by simp [Stops])
  rw [List.append_nil] at this
  simp [this]

theorem offset_eq {s : Text} {n : UInt16} (hs : number16 s = some n) :
    (strtoul 0 s).1.toUInt32 = n.toUInt32 := by
  have := (strtoul_of_number16 hs (show Stops 36 [] by simp [Stops])).1
  rw [List.append_nil] at this
  simp [this]

/-- The function reads hexadecimal digits as such. -/
theorem atohPairs_eq : ∀ {cs : Text} {bs : List UInt8}, hexPairs cs = some bs →
    cs.length % 2 = 0 ∧ atohPairs cs = bs
  | [], bs, h => ⟨rfl, Option.some.inj h⟩
  | [_], bs, h => by simp [hexPairs] at h
  | a :: b :: cs, bs, h => by
    simp only [hexPairs, Option.ite_none_right_eq_some, Option.map_eq_some_iff] at h
    obtain ⟨⟨ha, hb⟩, bs', hbs, rfl⟩ := h
    obtain ⟨hlen, hpairs⟩ := atohPairs_eq hbs
    constructor
    · rw [List.length_cons, List.length_cons]
      omega
    · rw [atohPairs, strtoul_hexPair ha hb, hpairs]
      simp

theorem atohBytes_eq {s : Text} {bs : List UInt8} (hs : hexString s = some bs) :
    atohBytes s = some bs := by
  rcases s with _ | ⟨z, _ | ⟨x, cs⟩⟩
  · simp [hexString] at hs
  · simp [hexString] at hs
  · simp only [hexString, Option.ite_none_right_eq_some] at hs
    obtain ⟨⟨hz, hx⟩, hcs⟩ := hs
    obtain ⟨hlen, hpairs⟩ := atohPairs_eq hcs
    rw [atohBytes, if_pos ⟨hz, hx, hlen⟩, hpairs]

/-- A name in the table does not start with a digit, in any case. -/
theorem head_of_find {s : Text} {p : Text × UInt16}
    (hp : (h.basenames.find? fun p => p.1 = s.map Char.toUpper) = some p) :
    ∃ c cs, s = c :: cs ∧ c.isDigit = false := by
  obtain ⟨c, cs, hname, hc⟩ := h.basenames_head p (List.mem_of_find?_eq_some hp)
  have heq : p.1 = s.map Char.toUpper := by simpa using List.find?_some hp
  rw [hname] at heq
  rcases s with _ | ⟨d, ds⟩
  · simp at heq
  · refine ⟨d, ds, rfl, ?_⟩
    by_contra hd
    rw [Bool.not_eq_false] at hd
    -- a digit is its own upper case
    have hupper : d.toUpper = d := by
      have := isDigit_iff.mp hd
      rw [Char.toUpper, dif_neg]
      simp [UInt32.le_iff_toNat_le]
      omega
    rw [List.map_cons, hupper] at heq
    rw [(List.cons.inj heq).1, hd] at hc
    cases hc

/-- The part of a text before its first colon, and the part after it. -/
theorem split_colon {s : Text} (hs : ':' ∈ s) :
    ∃ o, s = s.takeWhile (· ≠ ':') ++ ':' :: o ∧ s.dropWhile (· ≠ ':') = ':' :: o := by
  have hne : s.dropWhile (· ≠ ':') ≠ [] := by
    intro hnil
    rw [List.dropWhile_eq_nil_iff] at hnil
    simpa using hnil _ hs
  have hhead := List.head_dropWhile_not (· ≠ ':') hne
  obtain ⟨c, o, hdrop⟩ := List.exists_cons_of_ne_nil hne
  simp only [hdrop, List.head_cons] at hhead
  obtain rfl : c = ':' := by simpa using hhead
  refine ⟨o, ?_, hdrop⟩
  rw [← hdrop, List.takeWhile_append_dropWhile]

/-- A base of the language is what the function finds in front of the colon. -/
theorem patternBase_eq {s o : Text} {n : UInt16} (hcolon : ':' ∈ s)
    (hsplit : s = s.takeWhile (· ≠ ':') ++ ':' :: o) (hdrop : s.dropWhile (· ≠ ':') = ':' :: o)
    (hn : baseOf h (s.takeWhile (· ≠ ':')) = some n) :
    patternBase h s = some ((n.toNat : ℤ), ':' :: o) := by
  unfold baseOf at hn
  split at hn
  · -- a number, behind which the colon ends the digits
    next k hk =>
    obtain rfl := Option.some.inj hn
    have hstops : Stops 36 (':' :: o) := by
      rintro c hc
      obtain rfl := Option.some.inj hc
      decide
    obtain ⟨hread, c, cs, hcs, hc⟩ := strtoul_of_number16 hk hstops
    rw [← hsplit] at hread
    have hhead : s.head?.any Char.isDigit = true := by
      rw [hsplit, hcs]
      simpa using hc
    rw [patternBase, if_pos hhead, hread]
    dsimp only
    rw [toInt_toUInt64]
  · -- a name, which does not start with a digit
    obtain ⟨p, hp, rfl⟩ := Option.map_eq_some_iff.mp hn
    obtain ⟨c, cs, hcs, hc⟩ := head_of_find hp
    have hhead : ¬ s.head?.any Char.isDigit = true := by
      rw [hsplit, hcs]
      simp [hc]
    have hbase : wlPktFilterBaseParse h (s.takeWhile (· ≠ ':')) = p.2.toNat := by
      rw [wlPktFilterBaseParse, hp]
    rw [patternBase, if_neg hhead, if_pos hcolon, hbase]
    dsimp only
    rw [if_neg (by omega), hdrop]

theorem patternOffset_eq {s : Text} {p : UInt16 × UInt16} (hs : placeOf h s = some p) :
    patternOffset h s = some p := by
  have hnil : Stops 36 [] := by simp [Stops]
  have hsmall (n : UInt16) : ¬ (n.toNat : ℤ) > 0xFFFF := by
    have : n.toNat < 2 ^ 16 := n.toNat_lt
    omega
  unfold placeOf at hs
  split at hs
  · next hcolon =>
    obtain ⟨o, hsplit, hdrop⟩ := split_colon hcolon
    simp only [Option.bind_eq_bind, Option.bind_eq_some_iff, hdrop, List.tail_cons] at hs
    obtain ⟨base, hbase, offset, hoffset, hp⟩ := hs
    obtain rfl := Option.some.inj hp
    have hread := (strtoul_of_number16 hoffset hnil).1
    rw [List.append_nil] at hread
    simp [patternOffset, patternBase_eq hcolon hsplit hdrop hbase, hread, toInt_toUInt64,
      ofInt_toNat, hsmall]
  · obtain ⟨offset, hoffset, rfl⟩ := Option.map_eq_some_iff.mp hs
    obtain ⟨hread, c, cs, hcs, hc⟩ := strtoul_of_number16 hoffset hnil
    rw [List.append_nil] at hread
    have hhead : s.head?.any Char.isDigit = true := by
      rw [hcs]
      simpa using hc
    simp [patternOffset, patternBase, hhead, hread, toInt_toUInt64, ofInt_toNat, hsmall]

/-- **The function reads the tokens of the language as the language does.** -/
theorem strict_le_lax : (strict h).Le (lax h) where
  number hs := congrArg some (number32_eq hs)
  offset hs := by
    obtain ⟨n, hn, rfl⟩ := Option.map_eq_some_iff.mp hs
    exact congrArg some (offset_eq hn)
  place := patternOffset_eq
  bytes := atohBytes_eq
  ignoresRest _ := rfl

end Readers

end Dhd
