import Akbuilder.Hdmi.RangeStore
import Akbuilder.Lib.Scan

/-!
# The colour attributes

The settings of the output are files of sysfs. A store to `force_color_space` or
`force_color_range` reads the first word of what was written into an array of ten bytes, and looks
it up in the names of the settings; a show prints the name of the setting. The width of the word
leaves no room for the NUL behind it, so a word of ten characters is written past the array.

## Main definitions

* `Outcome`: what a store writes, returns and leaves
* `forceColorSpaceStore`, `forceColorSpaceShow`, `forceColorRangeStore`, `forceColorRangeShow`,
  `forceColorDepthStore`: the attributes
* `AsDocumented`: a store does what the documentation says
* `RoundTrip`: what is shown can be stored, and changes nothing

## Main results

* `asDocumented_iff`: stores are as documented exactly for words of less than ten characters, and
  attributes are read back
* `not_asDocumented`: a word of ten characters
-/

open CText

namespace Hdmi

namespace Sysfs

def EINVAL : ℤ := 22

/-- `isspace` of the kernel, which has the no-break space of Latin-1. -/
def isSpace (c : Char) : Bool := CText.isSpace c || c.toNat = 0xa0

/-- What a store does. -/
structure Outcome where
  /-- the bytes written from `mode[0]` on -/
  mode : Text
  ret : ℤ
  state : Transmitter

section Attributes

variable {α : Type} (P : PacketPlatform) (names : List (Text × α)) (t : Transmitter)

/-- The stores of a name. What else is in memory is left out, so bytes past the end of `mode` have
no effect here. -/
def storeName (store : Text → Transmitter) (buf : Text) : Outcome :=
  match scanWord isSpace 10 (cString buf) with
  | none => ⟨[], -EINVAL, t⟩
  | some mode =>
    ⟨mode ++ ['\x00'], if (lookupName names mode).isSome then buf.length else -EINVAL, store mode⟩

/-- The shows of a name, for the index of the setting. -/
def showName (i : ℕ) : Text :=
  match names[i]? with
  | none => []
  | some x => x.1 ++ ['\n']

/-- `force_color_space_store`, where `vic` is the video code that the transmitter reports. -/
def forceColorSpaceStore (vic : ℕ) (buf : Text) : Outcome :=
  storeName colorSpaceNames t (Transmitter.forceColorSpaceStore P t vic) buf

/-- `force_color_space_show` -/
def forceColorSpaceShow : Text := showName colorSpaceNames t.dev.forceColorSpace.toNat

/-- `force_color_range_store` -/
def forceColorRangeStore (buf : Text) : Outcome :=
  storeName rgbRangeNames t (Transmitter.forceColorRangeStore P t) buf

/-- `force_color_range_show` -/
def forceColorRangeShow : Text := showName rgbRangeNames t.dev.forceRgbRange

/-- The numbers that `force_color_depth_store` accepts. -/
def Depth (mode : ℤ) : Prop := mode = 0 ∨ mode = 24 ∨ mode = 30 ∨ mode = 36 ∨ mode = 48

instance (mode : ℤ) : Decidable (Depth mode) := inferInstanceAs (Decidable (_ ∨ _ ∨ _ ∨ _ ∨ _))

/-- `force_color_depth_store` -/
def forceColorDepthStore (vic : ℕ) (buf : Text) : ℤ × Transmitter :=
  match scanInt isSpace (cString buf) with
  | none => (-EINVAL, t)
  | some mode =>
    (if Depth mode then buf.length else -EINVAL, Transmitter.forceColorDepthStore P t vic mode)

end Attributes

/-! ## The documentation -/

/-- The colour spaces of the documentation. -/
def documentedSpaces : List (Text × ColorSpace) :=
  [("rgb444".toList, .RGB444), ("yuv422".toList, .YUV422), ("yuv444".toList, .YUV444),
    ("yuv420".toList, .YUV420), ("auto".toList, .RESERVED)]

/-- The ranges of the documentation. -/
def documentedRanges : List (Text × ℕ) :=
  [("default".toList, 0), ("limited".toList, 1), ("full".toList, 2), ("all".toList, 3)]

/-- The first word of what was written. -/
def wordOf (buf : Text) : Text := firstWord isSpace (cString buf)

/-- **As documented**: no byte is written outside of the array, and a store of a documented name
sets it and succeeds, where any other store fails and changes nothing. -/
def AsDocumented {α : Type} (documented : List (Text × α)) (setting : Transmitter → α)
    (t : Transmitter) (buf : Text) (o : Outcome) : Prop :=
  o.mode.length ≤ 10 ∧
    match lookupName documented (wordOf buf) with
    | some v => o.ret = buf.length ∧ setting o.state = v
    | none => o.ret = -EINVAL ∧ o.state = t

/-- What is shown is a name; storing it succeeds, and changes nothing. -/
def ReadsBack (t : Transmitter) (shown : Text) (o : Outcome) : Prop :=
  shown ≠ [] ∧ o.mode.length ≤ 10 ∧ o.ret = shown.length ∧ o.state = t

/-- **The round trip** of both attributes in every state. -/
def RoundTrip (P : PacketPlatform) : Prop :=
  ∀ t, Transmitter.Reachable P t →
    (∀ vic, ReadsBack t (forceColorSpaceShow t)
      (forceColorSpaceStore P t vic (forceColorSpaceShow t))) ∧
    ReadsBack t (forceColorRangeShow t) (forceColorRangeStore P t (forceColorRangeShow t))

/-! ## Names -/

section Names

variable {α : Type} {names names' : List (Text × α)} {w : Text}

/-- Names are compared without their case. -/
theorem lookupName_congr
    (h : names.map (fun x => (x.1.map Char.toLower, x.2)) =
      names'.map fun x => (x.1.map Char.toLower, x.2)) :
    lookupName names = lookupName names' := by
  have hlower : ∀ l : List (Text × α), lookupName l = fun mode =>
      ((l.map fun x => (x.1.map Char.toLower, x.2)).find? fun x =>
        mode.map Char.toLower == x.1).map Prod.snd := by
    intro l
    funext mode
    rw [lookupName, List.find?_map, Option.map_map]
    rfl
  rw [hlower, h, hlower]

theorem lookupName_documentedSpaces : lookupName documentedSpaces = lookupName colorSpaceNames :=
  lookupName_congr (by decide)

/-- The attribute knows a range that is not documented. -/
theorem lookupName_documentedRanges :
    lookupName (documentedRanges ++ [("auto".toList, RGB_RANGE_AUTO)]) = lookupName rgbRangeNames :=
  lookupName_congr (by decide)

theorem lookupName_append (x : Text × α) (mode : Text) :
    lookupName (names ++ [x]) mode =
      (lookupName names mode).or (if sameName mode x.1 then some x.2 else none) := by
  simp only [lookupName, List.find?_append, Option.map_or]
  congr 1
  cases h : sameName mode x.1 <;> simp [h]

/-- What a store of a name does, in terms of the first word. -/
theorem storeName_eq (t : Transmitter) (store : Text → Transmitter) (buf : Text) :
    storeName names t store buf =
      if wordOf buf = [] then ⟨[], -EINVAL, t⟩
      else
        ⟨(wordOf buf).take 10 ++ ['\x00'],
          if (lookupName names ((wordOf buf).take 10)).isSome then buf.length else -EINVAL,
          store ((wordOf buf).take 10)⟩ := by
  rw [storeName, scanWord_eq, ← wordOf]
  by_cases h : wordOf buf = []
  · simp only [if_pos h]
  · simp only [if_neg h]

/-- **The array is large enough** for words of less than ten characters. -/
theorem storeName_mode (t : Transmitter) (store : Text → Transmitter) (buf : Text) :
    (storeName names t store buf).mode.length ≤ 10 ↔ (wordOf buf).length < 10 := by
  rw [storeName_eq]
  split
  · next h => simp [h]
  · simp only [List.length_append, List.length_take, List.length_singleton]
    omega

theorem lookupName_of_sameName {w' : Text} (h : sameName w w' = true) :
    lookupName names w = lookupName names w' := by
  have hlower : w.map Char.toLower = w'.map Char.toLower := by simpa [sameName] using h
  simp only [lookupName, sameName, hlower]

/-- The value of a name is set, and a word that is no name changes nothing. -/
structure Sets (names : List (Text × α)) (setting : Transmitter → α) (t : Transmitter)
    (store : Text → Transmitter) : Prop where
  known : ∀ mode v, lookupName names mode = some v → setting (store mode) = v
  unknown : ∀ mode, lookupName names mode = none → store mode = t

/-- **A store of a short word is as documented**, if the attribute knows the documented names and
sets what it finds. -/
theorem asDocumented_storeName {documented : List (Text × α)} {setting : Transmitter → α}
    {t : Transmitter} {store : Text → Transmitter} {buf : Text}
    (hdoc : lookupName documented (wordOf buf) = lookupName names (wordOf buf))
    (hset : Sets names setting t store) (hnil : lookupName names [] = none) :
    AsDocumented documented setting t buf (storeName names t store buf) ↔
      (wordOf buf).length < 10 := by
  rw [AsDocumented, storeName_mode, and_iff_left_iff_imp]
  intro hshort
  rw [hdoc, storeName_eq, List.take_of_length_le (by omega)]
  by_cases h : wordOf buf = []
  -- no word is there: the array holds what it held, and nothing is looked up
  · rw [if_pos h, h, hnil]
    exact ⟨rfl, rfl⟩
  · rw [if_neg h]
    cases hlookup : lookupName names (wordOf buf) with
    | none => exact ⟨rfl, hset.unknown _ hlookup⟩
    | some v => exact ⟨rfl, hset.known _ v hlookup⟩

/-- A name that is not documented, and accepted. -/
theorem not_asDocumented_storeName {documented : List (Text × α)} {setting : Transmitter → α}
    {t : Transmitter} {store : Text → Transmitter} {buf : Text}
    (hdoc : lookupName documented (wordOf buf) = none)
    (hnames : (lookupName names (wordOf buf)).isSome = true) (hnil : lookupName names [] = none) :
    ¬ AsDocumented documented setting t buf (storeName names t store buf) := by
  rintro ⟨hmode, hret⟩
  rw [storeName_mode] at hmode
  rw [hdoc] at hret
  have hne : wordOf buf ≠ [] := by
    intro h
    rw [h, hnil] at hnames
    exact Bool.noConfusion hnames
  -- the store returns `count`, where it should return an error
  have hret := hret.1
  rw [storeName_eq, if_neg hne, List.take_of_length_le (by omega)] at hret
  dsimp only at hret
  rw [if_pos hnames] at hret
  unfold EINVAL at hret
  omega

end Names

/-! ## The settings -/

section Settings

variable {P : PacketPlatform} {t : Transmitter}

/-- A display is set with the settings in force. -/
theorem force_setDisplay {P : Platform} {d : Device} (vic videoCode : ℕ) :
    (setDisplay P d vic videoCode).2.force = d.force := by
  cases h : getVideoParam P videoCode with
  | none =>
    obtain ⟨cur, hcur⟩ := reported_eq P d vic videoCode
    rw [setDisplay_of_none h, hcur]
    rfl
  | some param =>
    cases hsupport : d.rxCap.vicSupport videoCode with
    | false =>
      obtain ⟨cur, hcur⟩ := reported_eq P d vic videoCode
      rw [setDisplay_of_unsupported h hsupport, hcur]
      rfl
    | true =>
      obtain ⟨d', rfl, he⟩ := setDisplay_of_supported (d := d) vic h hsupport
      rw [he]
      rfl

theorem sets_forceColorSpaceStore (P : PacketPlatform) (t : Transmitter) (vic : ℕ) :
    Sets colorSpaceNames (fun t => t.dev.forceColorSpace) t
      (Transmitter.forceColorSpaceStore P t vic) := by
  refine ⟨fun mode v h => ?_, fun mode h => ?_⟩
  · simp only [Transmitter.forceColorSpaceStore, h]
    split
    · exact congrArg Force.colorSpace (force_setDisplay (P := P.toPlatform)
        (d := { t.dev with forceColorSpace := v }) vic t.dev.curVIC)
    · next hv => exact not_not.mp hv
  · simp only [Transmitter.forceColorSpaceStore, h]

theorem sets_forceColorRangeStore (P : PacketPlatform) (t : Transmitter) :
    Sets rgbRangeNames (fun t => t.dev.forceRgbRange) t
      (Transmitter.forceColorRangeStore P t) := by
  refine ⟨fun mode v h => ?_, fun mode h => ?_⟩
  · simp only [Transmitter.forceColorRangeStore, h]
    split
    · rfl
    · next hv => exact not_not.mp hv
  · simp only [Transmitter.forceColorRangeStore, h]

/-- Only a store of a range changes the range. -/
theorem forceRgbRange_step (a : Transmitter.Action) :
    (Transmitter.step P t a).dev.forceRgbRange =
      match a with
      | .colorRange mode => (lookupName rgbRangeNames mode).getD t.dev.forceRgbRange
      | _ => t.dev.forceRgbRange := by
  -- a mode set only reads the three forced settings
  have hdisplay (t : Transmitter) (vic videoCode : ℕ) :
      (Transmitter.setDisplay P t vic videoCode).2.dev.forceRgbRange = t.dev.forceRgbRange :=
    congrArg Force.rgbRange (force_setDisplay (P := P.toPlatform) vic videoCode)
  cases a with
  | display rxCap cs cd vic videoCode => exact hdisplay _ vic videoCode
  | colorSpace vic mode =>
    simp only [Transmitter.step, Transmitter.forceColorSpaceStore]
    cases lookupName colorSpaceNames mode with
    | none => rfl
    | some c =>
      dsimp only
      split
      · exact hdisplay _ vic _
      · rfl
  | colorRange mode =>
    have hset := sets_forceColorRangeStore P t
    simp only [Transmitter.step]
    cases h : lookupName rgbRangeNames mode with
    | none =>
      rw [hset.unknown mode h]
      rfl
    | some i => exact hset.known mode i h
  | colorDepth vic mode =>
    simp only [Transmitter.step, Transmitter.forceColorDepthStore]
    split
    · exact hdisplay _ vic _
    · rfl
  | vsif type tunnelMode =>
    simp only [Transmitter.step, Transmitter.setVsifPkt]
    split_ifs <;> rfl
  | config3d layout => cases layout <;> rfl

/-- **The range stays in the table of names.** -/
theorem forceRgbRange_lt (h : Transmitter.Reachable P t) :
    t.dev.forceRgbRange < rgbRangeNames.length := by
  obtain ⟨rxCap, cs, cd, vend, actions, rfl⟩ := h
  suffices hrun : ∀ t₀ : Transmitter, t₀.dev.forceRgbRange < rgbRangeNames.length →
      (actions.foldl (Transmitter.step P) t₀).dev.forceRgbRange < rgbRangeNames.length by
    exact hrun _ (show RGB_RANGE_AUTO < rgbRangeNames.length by decide)
  induction actions with
  | nil => exact fun _ h₀ => h₀
  | cons a actions ih =>
    intro t₀ h₀
    apply ih
    rw [forceRgbRange_step]
    split
    · next mode =>
      cases hlookup : lookupName rgbRangeNames mode with
      | none => exact h₀
      | some i =>
        -- the value of a name is its index
        obtain ⟨x, hx, rfl⟩ := Option.map_eq_some_iff.mp hlookup
        exact List.forall_mem_map.mp (by decide : ∀ i ∈ rgbRangeNames.map Prod.snd, i < 5) x
          (List.mem_of_find?_eq_some hx)
    · exact h₀

theorem reachable_step (h : Transmitter.Reachable P t) (a : Transmitter.Action) :
    Transmitter.Reachable P (Transmitter.step P t a) := by
  obtain ⟨rxCap, cs, cd, vend, actions, rfl⟩ := h
  exact ⟨rxCap, cs, cd, vend, actions ++ [a], by rw [List.foldl_append]; rfl⟩

/-- What a store of a name leaves is what the word leaves. -/
theorem reachable_storeName {α : Type} {names : List (Text × α)} {store : Text → Transmitter}
    {a : Text → Transmitter.Action} (hstep : ∀ mode, store mode = Transmitter.step P t (a mode))
    (h : Transmitter.Reachable P t) (buf : Text) :
    Transmitter.Reachable P (storeName names t store buf).state := by
  rw [storeName]
  split
  · exact h
  · next mode _ =>
    show Transmitter.Reachable P (store mode)
    rw [hstep]
    exact reachable_step h _

/-- **The stores lead to states of the transmitter**, whatever is written. -/
theorem reachable_stores (h : Transmitter.Reachable P t) (vic : ℕ) (buf : Text) :
    Transmitter.Reachable P (forceColorSpaceStore P t vic buf).state ∧
      Transmitter.Reachable P (forceColorRangeStore P t buf).state :=
  ⟨reachable_storeName (a := .colorSpace vic) (fun _ => rfl) h buf,
    reachable_storeName (a := .colorRange) (fun _ => rfl) h buf⟩

end Settings

/-! ## Round trips -/

section RoundTrips

variable {α : Type} {names : List (Text × α)} {t : Transmitter}

/-- A name that can be written and read: no white space, no NUL, and shorter than the array. -/
def Writable (w : Text) : Prop :=
  w ≠ [] ∧ w.length < 10 ∧ w.all (fun c => c ≠ '\x00' && !isSpace c) = true

instance (w : Text) : Decidable (Writable w) := inferInstanceAs (Decidable (_ ∧ _ ∧ _))

/-- A name is read back from in front of white space. -/
theorem wordOf_append {w rest : Text} (hw : Writable w)
    (hrest : ∀ c ∈ rest, c ≠ '\x00' ∧ isSpace c = true) : wordOf (w ++ rest) = w := by
  obtain ⟨-, -, hall⟩ := hw
  have hchar : ∀ c ∈ w, c ≠ '\x00' ∧ isSpace c = false := by simpa using hall
  have hstring : cString (w ++ rest) = w ++ rest := by
    rw [cString, List.takeWhile_eq_self_iff]
    intro c hc
    rcases List.mem_append.mp hc with hc | hc
    · simpa using (hchar c hc).1
    · simpa using (hrest c hc).1
  rw [wordOf, hstring]
  exact firstWord_append (fun c hc => (hchar c hc).2) fun c hc => (hrest c hc).2

theorem wordOf_line {w : Text} (hw : Writable w) : wordOf (w ++ ['\n']) = w := by
  refine wordOf_append hw fun c hc => ?_
  obtain rfl := List.mem_singleton.mp hc
  decide

theorem wordOf_self {w : Text} (hw : Writable w) : wordOf w = w := by
  have hrest : ∀ c ∈ ([] : Text), c ≠ '\x00' ∧ isSpace c = true := by simp
  simpa using wordOf_append hw hrest

/-- **A name that is shown can be stored.** -/
theorem readsBack_storeName {i : ℕ} {x : Text × α} {store : Text → Transmitter}
    (hx : names[i]? = some x) (hw : Writable x.1)
    (hlookup : (lookupName names x.1).isSome = true) (hstore : store x.1 = t) :
    ReadsBack t (showName names i) (storeName names t store (showName names i)) := by
  have hshow : showName names i = x.1 ++ ['\n'] := by
    rw [showName, hx]
  -- the line break that `show` adds is no part of the word
  obtain ⟨hne, hlen, -⟩ := id hw
  refine ⟨?_, ?_, ?_, ?_⟩
  · simp [hshow]
  · rw [storeName_mode, hshow, wordOf_line hw]
    exact hlen
  · rw [hshow, storeName_eq, wordOf_line hw, if_neg hne, List.take_of_length_le (by omega)]
    exact if_pos hlookup
  · rw [hshow, storeName_eq, wordOf_line hw, if_neg hne, List.take_of_length_le (by omega)]
    exact hstore

/-- The names of a table are written and read back. -/
def ReadableNames [DecidableEq α] (names : List (Text × α)) : Prop :=
  names.all (fun x => Writable x.1 && lookupName names x.1 = some x.2) = true

instance [DecidableEq α] : Decidable (ReadableNames names) := inferInstanceAs (Decidable (_ = _))

theorem ReadableNames.get [DecidableEq α] (h : ReadableNames names) {i : ℕ} {x : Text × α}
    (hx : names[i]? = some x) : Writable x.1 ∧ lookupName names x.1 = some x.2 := by
  have := List.all_eq_true.mp h x (List.mem_of_getElem? hx)
  simpa using this

theorem readableNames_colorSpace : ReadableNames colorSpaceNames := by decide

theorem readableNames_rgbRange : ReadableNames rgbRangeNames := by decide

/-- The names are in the order of the enumeration. -/
theorem colorSpaceNames_get (c : ColorSpace) :
    ∃ x, colorSpaceNames[c.toNat]? = some x ∧ x.2 = c := by
  cases c <;> exact ⟨_, rfl, rfl⟩

theorem rgbRangeNames_get {i : ℕ} (hi : i < rgbRangeNames.length) :
    ∃ x, rgbRangeNames[i]? = some x ∧ x.2 = i := by
  refine ⟨rgbRangeNames[i], List.getElem?_eq_getElem hi, ?_⟩
  have hvalues : rgbRangeNames.map Prod.snd = List.range 5 := by decide
  have hget := List.getElem_map Prod.snd (h := by simpa using hi)
  rw [← hget]
  simp [hvalues]

/-- **What is shown can be stored**, in every state, and changes nothing. -/
theorem roundTrip (P : PacketPlatform) : RoundTrip P := by
  intro t ht
  refine ⟨fun vic => ?_, ?_⟩
  · obtain ⟨x, hx, hvalue⟩ := colorSpaceNames_get t.dev.forceColorSpace
    obtain ⟨hw, hlookup⟩ := readableNames_colorSpace.get hx
    refine readsBack_storeName hx hw (by rw [hlookup]; rfl) ?_
    rw [Transmitter.forceColorSpaceStore, hlookup]
    exact if_neg (not_not.mpr hvalue.symm)
  · obtain ⟨x, hx, hvalue⟩ := rgbRangeNames_get (forceRgbRange_lt ht)
    obtain ⟨hw, hlookup⟩ := readableNames_rgbRange.get hx
    refine readsBack_storeName hx hw (by rw [hlookup]; rfl) ?_
    rw [Transmitter.forceColorRangeStore, hlookup]
    exact if_neg (not_not.mpr hvalue.symm)

end RoundTrips

/-! ## The attributes -/

/-- **The stores are as documented** exactly for words of less than ten characters, but for the
range `auto`, which is accepted and not documented. What is shown can be stored. -/
theorem asDocumented_iff (P : PacketPlatform) (t : Transmitter) (vic : ℕ) (buf : Text) :
    (AsDocumented documentedSpaces (fun t => t.dev.forceColorSpace) t buf
        (forceColorSpaceStore P t vic buf) ↔ (wordOf buf).length < 10) ∧
      (AsDocumented documentedRanges (fun t => t.dev.forceRgbRange) t buf
        (forceColorRangeStore P t buf) ↔
          (wordOf buf).length < 10 ∧ sameName (wordOf buf) "auto".toList = false) ∧
      (AsDocumented (documentedRanges ++ [("auto".toList, RGB_RANGE_AUTO)])
        (fun t => t.dev.forceRgbRange) t buf (forceColorRangeStore P t buf) ↔
          (wordOf buf).length < 10) ∧
      RoundTrip P := by
  -- `auto` is the one name that is not documented
  have hauto : lookupName rgbRangeNames (wordOf buf) =
      (lookupName documentedRanges (wordOf buf)).or
        (if sameName (wordOf buf) "auto".toList then some RGB_RANGE_AUTO else none) := by
    rw [← lookupName_documentedRanges, lookupName_append]
  refine ⟨?_, ?_, ?_, roundTrip P⟩
  · exact asDocumented_storeName (by rw [lookupName_documentedSpaces])
      (sets_forceColorSpaceStore P t vic) rfl
  · cases hname : sameName (wordOf buf) "auto".toList with
    | false =>
      rw [and_iff_left rfl]
      refine asDocumented_storeName ?_ (sets_forceColorRangeStore P t) rfl
      rw [hauto, hname, if_neg Bool.false_ne_true, Option.or_none]
    | true =>
      refine iff_of_false ?_ (by simp)
      have hdoc : lookupName documentedRanges (wordOf buf) = none := lookupName_of_sameName hname
      refine not_asDocumented_storeName hdoc ?_ rfl
      rw [hauto, hdoc, if_pos hname]
      rfl
  · exact asDocumented_storeName (by rw [lookupName_documentedRanges])
      (sets_forceColorRangeStore P t) rfl

/-- Ten letters and their NUL do not fit. -/
theorem not_asDocumented :
    ¬ ∀ (P : PacketPlatform) (t : Transmitter) (vic : ℕ) (buf : Text),
      AsDocumented documentedSpaces (fun t => t.dev.forceColorSpace) t buf
        (forceColorSpaceStore P t vic buf) := by
  intro h
  let t : Transmitter :=
    .boot (hdmiSink 0x30) .YUV444 .b24 ⟨0, 0, 0, 0, 0, 0, 0, 0, false, 0, 0, false⟩
  have hmode := (h Transmitter.gxlPackets t 0 "abcdefghij\n".toList).1
  rw [forceColorSpaceStore, storeName_mode] at hmode
  exact absurd hmode (by decide)

end Sysfs

end Hdmi
