import Akbuilder.Hdmi.Sysfs

/-!
# The colour commands of the debug file

The forced colour space and colour depth can also be set with the commands `cs` and `cd` of the
`debug` file. These ignore what `kstrtoul` returns, so after a malformed number `cd` checks the
depth that was there, and `cs` takes a variable that was never set. The command is copied to an
array of 128 bytes, whatever its length.

## Main definitions

* `Settings`: the two variables, as C has them
* `Settings.step`: one store or command
* `RunMeets`: in every run, the settings are in their domains, and survive a malformed number
* `SameDepth`, `SameSpace`: a number is accepted by both ways, or by none

## Main results

* `settings_iff`: when this is so
* `not_settings`: the number `48`, and a number that is none
-/

open CText Transition

namespace Hdmi

/-! ## The settings -/

/-- The variables of the settings. -/
structure Settings where
  /-- `hdmi_force_color_space`, an `enum` -/
  colorSpace : UInt32
  /-- `hdmi_force_color_depth`, an `unsigned long` -/
  colorDepth : UInt64
  deriving DecidableEq, Repr

/-- The variables as they are in memory. -/
def ColorSpace.toUInt32 (c : ColorSpace) : UInt32 := UInt32.ofNat c.toNat

def Transmitter.settings (t : Transmitter) : Settings :=
  ⟨t.dev.forceColorSpace.toUInt32, UInt64.ofNat t.dev.forceColorDepth⟩

/-- What the debug command says to the log. -/
inductive Message
  | colorDepthNotSupported (n : UInt64)
  | colorSpaceNotSupported (n : UInt32)
  deriving DecidableEq, Repr

namespace Settings

def default : Settings := ⟨ColorSpace.RESERVED.toUInt32, 0⟩

variable (s : Settings)

/-! ## Stores and commands -/

/-- `force_color_space_store`, for a word that fits in `mode`. -/
def forceColorSpaceStore (buf : Text) : ℤ × Settings :=
  match lookupName colorSpaceNames (Sysfs.wordOf buf) with
  | none => (-Sysfs.EINVAL, s)
  | some newMode => (buf.length, { s with colorSpace := newMode.toUInt32 })

/-- `force_color_depth_store` -/
def forceColorDepthStore (buf : Text) : ℤ × Settings :=
  match scanInt Sysfs.isSpace (cString buf) with
  | none => (-Sysfs.EINVAL, s)
  | some mode =>
    if Sysfs.Depth mode then (buf.length, { s with colorDepth := UInt64.ofNat mode.toNat })
    else (-Sysfs.EINVAL, s)

/-- The part of the text after the two letters of a command that is copied to `tmpbuf`. -/
def wordOf (text : Text) : Text := (cString text).takeWhile fun c => c ≠ ',' && c ≠ ' '

/-- The command, two letters and the word, fits in `tmpbuf`, and so does the NUL behind it. -/
def FitsTmpbuf (text : Text) : Prop := 2 + (wordOf text).length + 1 ≤ 128

instance (text : Text) : Decidable (FitsTmpbuf text) := inferInstanceAs (Decidable (_ ≤ _))

/-- `cd` in `hdmitx_debug` -/
def debugCd (text : Text) : Settings × Option Message :=
  -- `kstrtoul` does not write its result where it fails
  let depth := (kstrtoul (wordOf text)).getD s.colorDepth
  if depth ≠ 24 ∧ depth ≠ 30 ∧ depth ≠ 36 then
    ({ s with colorDepth := 0 }, some (.colorDepthNotSupported depth))
  else ({ s with colorDepth := depth }, none)

/-- `cs` in `hdmitx_debug`, where `tmp` is what is in the variable before it is set. -/
def debugCs (tmp : UInt64) (text : Text) : Settings × Option Message :=
  let space := ((kstrtoul (wordOf text)).getD tmp).toUInt32
  if ColorSpace.RESERVED.toUInt32 < space then
    ({ s with colorSpace := ColorSpace.RESERVED.toUInt32 }, some (.colorSpaceNotSupported space))
  else ({ s with colorSpace := space }, none)

/-! ## The attributes -/

section Attributes

variable (P : PacketPlatform) (t : Transmitter)

theorem settings_setDisplay (vic videoCode : ℕ) :
    (Transmitter.setDisplay P t vic videoCode).2.settings = t.settings := by
  have hforce := Sysfs.force_setDisplay (P := P.toPlatform) (d := t.dev) vic videoCode
  have hspace := congrArg Force.colorSpace hforce
  have hdepth := congrArg Force.colorDepth hforce
  exact congrArg₂ (fun c n => Settings.mk c.toUInt32 (UInt64.ofNat n)) hspace hdepth

/-- **The attributes of the transmitter** store these settings, for words that fit in `mode`. -/
theorem settings_forceColorSpaceStore (vic : ℕ) {buf : Text}
    (hfits : (Sysfs.wordOf buf).length < 10) :
    let o := Sysfs.forceColorSpaceStore P t vic buf
    (o.ret, o.state.settings) = t.settings.forceColorSpaceStore buf := by
  dsimp only
  rw [Sysfs.forceColorSpaceStore, Sysfs.storeName_eq, List.take_of_length_le (by omega),
    forceColorSpaceStore]
  by_cases hword : Sysfs.wordOf buf = []
  · rw [if_pos hword, hword]
    rfl
  · rw [if_neg hword, Transmitter.forceColorSpaceStore]
    cases lookupName colorSpaceNames (Sysfs.wordOf buf) with
    | none => rfl
    | some newMode =>
      dsimp only [Option.isSome_some, if_true]
      refine congrArg (Prod.mk _) ?_
      split
      · rw [settings_setDisplay]
        rfl
      · next h =>
        rw [← not_not.mp h]
        rfl

theorem settings_forceColorDepthStore (vic : ℕ) (buf : Text) :
    let r := Sysfs.forceColorDepthStore P t vic buf
    (r.1, r.2.settings) = t.settings.forceColorDepthStore buf := by
  dsimp only
  rw [Sysfs.forceColorDepthStore, forceColorDepthStore]
  cases scanInt Sysfs.isSpace (cString buf) with
  | none => rfl
  | some mode =>
    dsimp only [Transmitter.forceColorDepthStore]
    by_cases hdepth : Sysfs.Depth mode
    · rw [if_pos hdepth, if_pos hdepth]
      refine congrArg (Prod.mk _) ?_
      rw [if_pos (show mode = 0 ∨ mode = 24 ∨ mode = 30 ∨ mode = 36 ∨ mode = 48 from hdepth),
        settings_setDisplay]
      rfl
    · rw [if_neg hdepth, if_neg hdepth]
      refine congrArg (Prod.mk _) ?_
      rw [if_neg (show ¬ (mode = 0 ∨ mode = 24 ∨ mode = 30 ∨ mode = 36 ∨ mode = 48) from hdepth)]

end Attributes

end Settings

/-- The stores and commands, with what was written; of a command without its two letters. -/
inductive ColorCommand
  | colorSpace (buf : Text)
  | colorDepth (buf : Text)
  | cs (text : Text)
  | cd (text : Text)

/-- What the language leaves open. -/
structure Unknown where
  /-- the value of a variable that was not set -/
  tmp : UInt64
  /-- the settings after a write past the end of an array -/
  overwritten : Settings

namespace Settings

/-- **One store or command.** -/
def step (u : Unknown) (s : Settings) : ColorCommand → Settings
  | .colorSpace buf =>
    if (Sysfs.wordOf buf).length < 10 then (s.forceColorSpaceStore buf).2 else u.overwritten
  | .colorDepth buf => (s.forceColorDepthStore buf).2
  | .cs text => if FitsTmpbuf text then (s.debugCs u.tmp text).1 else u.overwritten
  | .cd text => if FitsTmpbuf text then (s.debugCd text).1 else u.overwritten

/-! ## What is asked of them -/

/-- **The domains**: one of the five colour spaces, and no depth or one of four. -/
structure InDomain (s : Settings) : Prop where
  colorSpace : ∃ c : ColorSpace, s.colorSpace = c.toUInt32
  colorDepth : s.colorDepth ∈ ([0, 24, 30, 36, 48] : List UInt64)

/-- Each setting is as it was, or the default. -/
def Unharmed (s s' : Settings) : Prop :=
  (s'.colorSpace = s.colorSpace ∨ s'.colorSpace = default.colorSpace) ∧
    (s'.colorDepth = s.colorDepth ∨ s'.colorDepth = default.colorDepth)

end Settings

namespace ColorCommand

/-- The reader of the path finds no number in the text, or no name where names are stored: `%d` is
content with the digits in front of other letters, `kstrtoul` is not. -/
def Malformed : ColorCommand → Prop
  | .colorSpace buf => lookupName colorSpaceNames (Sysfs.wordOf buf) = none
  | .colorDepth buf => scanInt Sysfs.isSpace (cString buf) = none
  | .cs text => kstrtoul (Settings.wordOf text) = none
  | .cd text => kstrtoul (Settings.wordOf text) = none

/-- **The commands that do no harm**: no array is overrun, and a `cs` has a number. -/
def Sound : ColorCommand → Prop
  | .colorSpace buf => (Sysfs.wordOf buf).length < 10
  | .colorDepth _ => True
  | .cs text => Settings.FitsTmpbuf text ∧ (kstrtoul (Settings.wordOf text)).isSome = true
  | .cd text => Settings.FitsTmpbuf text

/-- The text is accepted, in every state. -/
def Accepted : ColorCommand → Prop
  | .colorSpace buf => ∀ s : Settings, 0 ≤ (s.forceColorSpaceStore buf).1
  | .colorDepth buf => ∀ s : Settings, 0 ≤ (s.forceColorDepthStore buf).1
  | .cs text => (kstrtoul (Settings.wordOf text)).isSome = true ∧
      ∀ (s : Settings) (tmp : UInt64), (s.debugCs tmp text).2 = none
  | .cd text => (kstrtoul (Settings.wordOf text)).isSome = true ∧
      ∀ s : Settings, (s.debugCd text).2 = none

end ColorCommand

namespace Settings

/-- One step keeps the domains, and a malformed text does no harm. -/
def Meets (u : Unknown) (s : Settings) (c : ColorCommand) : Prop :=
  InDomain (step u s c) ∧ (c.Malformed → Unharmed s (step u s c))

/-- A step of a run, whatever the language leaves open. -/
def stepRun (s : Settings) (a : Unknown × ColorCommand) : Option Settings := some (step a.1 s a.2)

/-- **In every run of the commands**, each step meets what is asked. -/
def RunMeets (cs : List ColorCommand) : Prop :=
  ∀ as u c s, as.map Prod.snd ++ [c] <+: cs → Run stepRun Always default as s → Meets u s c

/-- **The same colour depths**: a number is accepted by both ways, or by none. -/
def SameDepth (n : ℤ) : Prop :=
  ColorCommand.Accepted (.cd (decimal n)) ↔ ColorCommand.Accepted (.colorDepth (decimal n))

/-- **The same colour spaces**, if the attribute is given the number. -/
def SameSpace (n : ℤ) : Prop :=
  ColorCommand.Accepted (.cs (decimal n)) ↔ ColorCommand.Accepted (.colorSpace (decimal n))

/-- **The same colour spaces**, if the attribute is given the name for the number. -/
def SameSpaceByName (n : ℤ) : Prop :=
  ColorCommand.Accepted (.cs (decimal n)) ↔
    ∃ x ∈ colorSpaceNames, (x.2.toNat : ℤ) = n ∧ ColorCommand.Accepted (.colorSpace x.1)

/-! ## Runs -/

section Runs

variable {u : Unknown} {s : Settings} {c : ColorCommand} {text : Text}

theorem inDomain_default : InDomain default := ⟨⟨.RESERVED, rfl⟩, by decide⟩

/-- A value up to `COLORSPACE_RESERVED` is one of the enumeration. -/
theorem exists_toNat {k : ℕ} (hk : k ≤ ColorSpace.RESERVED.toNat) :
    ∃ c : ColorSpace, c.toNat = k := by
  have hle : k ≤ 4 := hk
  interval_cases k
  · exact ⟨.RGB444, rfl⟩
  · exact ⟨.YUV422, rfl⟩
  · exact ⟨.YUV444, rfl⟩
  · exact ⟨.YUV420, rfl⟩
  · exact ⟨.RESERVED, rfl⟩

theorem exists_colorSpace {n : UInt32} (h : ¬ ColorSpace.RESERVED.toUInt32 < n) :
    ∃ c : ColorSpace, n = c.toUInt32 := by
  obtain ⟨c, hc⟩ := exists_toNat (k := n.toNat) (Nat.not_lt.mp h)
  refine ⟨c, ?_⟩
  rw [ColorSpace.toUInt32, hc, UInt32.ofNat_toNat]

/-- What `cd` leaves. -/
theorem debugCd_eq (s : Settings) (text : Text) : (s.debugCd text).1.colorSpace = s.colorSpace ∧
    (s.debugCd text).1.colorDepth ∈ ([0, 24, 30, 36] : List UInt64) ∧
    (kstrtoul (wordOf text) = none →
      (s.debugCd text).1.colorDepth = s.colorDepth ∨ (s.debugCd text).1.colorDepth = 0) := by
  simp only [debugCd]
  split
  · exact ⟨rfl, by simp, fun _ => .inr rfl⟩
  · next h =>
    refine ⟨rfl, ?_, fun hnone => .inl (by rw [hnone]; rfl)⟩
    generalize (kstrtoul (wordOf text)).getD s.colorDepth = depth at h
    grind

/-- What `cs` leaves. -/
theorem debugCs_eq (s : Settings) (tmp : UInt64) (text : Text) :
    (s.debugCs tmp text).1.colorDepth = s.colorDepth ∧
      ∃ c : ColorSpace, (s.debugCs tmp text).1.colorSpace = c.toUInt32 := by
  simp only [debugCs]
  split
  · exact ⟨rfl, .RESERVED, rfl⟩
  · next h => exact ⟨rfl, exists_colorSpace h⟩

theorem mem_of_depth {mode : ℤ} (h : Sysfs.Depth mode) :
    UInt64.ofNat mode.toNat ∈ ([0, 24, 30, 36, 48] : List UInt64) := by
  rcases h with rfl | rfl | rfl | rfl | rfl
  all_goals decide

/-- **A command that does no harm** keeps the domains. -/
theorem meets_of_sound (hs : InDomain s) (hc : c.Sound) : Meets u s c := by
  cases c with
  | colorSpace buf =>
    -- a name is looked up, and nothing changes where it is unknown
    have hfits : (Sysfs.wordOf buf).length < 10 := hc
    rw [Meets, step, if_pos hfits, forceColorSpaceStore]
    cases h : lookupName colorSpaceNames (Sysfs.wordOf buf) with
    | none => exact ⟨hs, fun _ => ⟨.inl rfl, .inl rfl⟩⟩
    | some newMode =>
      refine ⟨⟨⟨newMode, rfl⟩, hs.colorDepth⟩, fun hmal => ?_⟩
      rw [ColorCommand.Malformed, h] at hmal
      cases hmal
  | colorDepth buf =>
    -- a number is compared with the five depths
    rw [Meets, step, forceColorDepthStore]
    cases h : scanInt Sysfs.isSpace (cString buf) with
    | none => exact ⟨hs, fun _ => ⟨.inl rfl, .inl rfl⟩⟩
    | some mode =>
      refine ⟨?_, fun hmal => ?_⟩
      · dsimp only
        split
        · next hdepth => exact ⟨hs.colorSpace, mem_of_depth hdepth⟩
        · exact hs
      · rw [ColorCommand.Malformed, h] at hmal
        cases hmal
  | cs text =>
    -- a sound `cs` has a number, so it is not malformed
    obtain ⟨hfits, hnumber⟩ := hc
    obtain ⟨hdepth, hspace⟩ := debugCs_eq s u.tmp text
    rw [Meets, step, if_pos hfits]
    refine ⟨⟨hspace, hdepth ▸ hs.colorDepth⟩, fun hmal => ?_⟩
    rw [ColorCommand.Malformed] at hmal
    rw [hmal] at hnumber
    cases hnumber
  | cd text =>
    have hfits : FitsTmpbuf text := hc
    -- `cd` starts from the depth in force, which a malformed number leaves
    obtain ⟨hspace, hdepth, hkept⟩ := debugCd_eq s text
    rw [Meets, step, if_pos hfits]
    refine ⟨⟨hspace ▸ hs.colorSpace, ?_⟩, fun hmal => ⟨.inl hspace, hkept hmal⟩⟩
    simp only [List.mem_cons, List.not_mem_nil, or_false] at hdepth ⊢
    grind

/-- After an overrun, the depth can be anything. -/
theorem not_meets_of_overwritten (h : step u s c = ⟨0, 1⟩) : ¬ Meets u s c := by
  rintro ⟨hdomain, -⟩
  rw [h] at hdomain
  exact absurd hdomain.colorDepth (by decide)

/-- `cs` without a number stores what the variable holds. -/
theorem not_meets_of_cs (hnone : kstrtoul (wordOf text) = none) (hfits : FitsTmpbuf text)
    (tmp : UInt64) (hlt : tmp.toUInt32 < ColorSpace.RESERVED.toUInt32)
    (hne : tmp.toUInt32 ≠ s.colorSpace) : ¬ Meets ⟨tmp, s⟩ s (.cs text) := by
  rintro ⟨-, hmal⟩
  have hspace : (step ⟨tmp, s⟩ s (.cs text)).colorSpace = tmp.toUInt32 := by
    rw [step, if_pos hfits, debugCs, hnone]
    dsimp only [Option.getD_none]
    rw [if_neg (UInt32.lt_asymm hlt)]
  rcases (hmal hnone).1 with h | h
  · exact hne (hspace.symm.trans h)
  · rw [hspace] at h
    exact absurd (h ▸ hlt) (UInt32.lt_irrefl _)

/-- **A command that is not sound** does harm in every state, for some values of what is open. -/
theorem exists_not_meets (s : Settings) (hc : ¬ c.Sound) : ∃ u, ¬ Meets u s c := by
  cases c with
  | colorSpace buf => exact ⟨⟨0, ⟨0, 1⟩⟩, not_meets_of_overwritten (if_neg hc)⟩
  | colorDepth buf => exact absurd trivial hc
  | cs text =>
    by_cases hfits : FitsTmpbuf text
    · have hnone : kstrtoul (wordOf text) = none := by
        rw [← Option.not_isSome_iff_eq_none]
        exact fun hsome => hc ⟨hfits, hsome⟩
      -- one of two spaces is not the one in force
      by_cases h : s.colorSpace = 0
      · exact ⟨⟨1, s⟩, not_meets_of_cs hnone hfits 1 (by decide) (by rw [h]; decide)⟩
      · exact ⟨⟨0, s⟩, not_meets_of_cs hnone hfits 0 (by decide) (Ne.symm h)⟩
    · exact ⟨⟨0, ⟨0, 1⟩⟩, not_meets_of_overwritten (if_neg hfits)⟩
  | cd text => exact ⟨⟨0, ⟨0, 1⟩⟩, not_meets_of_overwritten (if_neg hc)⟩

/-- Sound commands keep the domains. -/
theorem inDomain_of_run {as : List (Unknown × ColorCommand)} (r : Run stepRun Always default as s)
    (hsound : ∀ a ∈ as, a.2.Sound) : InDomain s := by
  induction r with
  | nil => exact inDomain_default
  | snoc _ _ hstep ih =>
    obtain rfl := Option.some.inj hstep
    have hdomain := ih fun a ha => hsound a (List.mem_append_left _ ha)
    exact (meets_of_sound hdomain (hsound _ (by simp))).1

theorem exists_run (as : List (Unknown × ColorCommand)) :
    ∃ s, Run stepRun Always default as s := by
  induction as using List.reverseRecOn with
  | nil => exact ⟨default, .nil⟩
  | append_singleton as a ih =>
    obtain ⟨s, r⟩ := ih
    exact ⟨step a.1 s a.2, .snoc r trivial rfl⟩

/-- **All runs of the commands are as asked** exactly if each command does no harm. -/
theorem runMeets_iff (cs : List ColorCommand) : RunMeets cs ↔ ∀ c ∈ cs, c.Sound := by
  constructor
  · intro h c hc
    by_contra hsound
    -- run all that comes before the command, and let it do harm
    obtain ⟨before, after, rfl⟩ := List.append_of_mem hc
    obtain ⟨s, r⟩ := exists_run (before.map fun c => (⟨0, default⟩, c))
    obtain ⟨u, hu⟩ := exists_not_meets s hsound
    refine hu (h _ u c s ⟨after, ?_⟩ r)
    simp
  · rintro h as u c s ⟨after, rfl⟩ r
    refine meets_of_sound (inDomain_of_run r fun a ha => h _ ?_) (h c (by simp))
    simp only [List.append_assoc, List.mem_append, List.mem_map]
    exact .inl ⟨a, ha, rfl⟩

end Runs

/-! ## Numbers -/

section Numbers

variable {n : ℤ}

theorem isSpace_of_isDigit {c : Char} (hc : c.isDigit = true) : Sysfs.isSpace c = false := by
  have hcode := isDigit_iff.mp hc
  obtain ⟨hspace, -, -⟩ := plain_of_digitValue_lt (c := c)
    (Nat.lt_trans (digitValue_lt_ten.mpr hc) (by omega))
  rw [Sysfs.isSpace, hspace, Bool.false_or, decide_eq_false_iff_not]
  omega

/-- The characters of a number: none ends it early, and none is a letter. -/
theorem char_decimal {c : Char} (hc : c ∈ decimal n) :
    (c ≠ '\x00' ∧ c ≠ ',' ∧ c ≠ ' ' ∧ Sysfs.isSpace c = false) ∧
      c.toLower = c ∧ c.isAlpha = false := by
  rcases mem_decimal hc with hdigit | rfl
  · have hcode := isDigit_iff.mp hdigit
    have hne (d : Char) (hd : ¬ (48 ≤ d.toNat ∧ d.toNat ≤ 57)) : c ≠ d := by
      rintro rfl
      exact hd hcode
    have hupper : c.isUpper = false := by
      simp [Char.isUpper, UInt32.le_iff_toNat_le]
      omega
    -- a digit is below the letters
    have hlower : c.isLower = false := by
      simp [Char.isLower, UInt32.le_iff_toNat_le]
      omega
    refine ⟨⟨hne _ (by decide), hne _ (by decide), hne _ (by decide),
      isSpace_of_isDigit hdigit⟩, ?_, ?_⟩
    · refine dif_neg ?_
      rintro ⟨h, -⟩
      have : 65 ≤ c.toNat := UInt32.le_iff_toNat_le.mp h
      omega
    · rw [Char.isAlpha, hupper, hlower]
      rfl
  · decide

theorem cString_decimal : cString (decimal n) = decimal n := by
  rw [cString, List.takeWhile_eq_self_iff]
  intro c hc
  simpa using (char_decimal hc).1.1

theorem wordOf_decimal : wordOf (decimal n) = decimal n := by
  rw [wordOf, cString_decimal, List.takeWhile_eq_self_iff]
  intro c hc
  obtain ⟨-, hcomma, hspace, -⟩ := (char_decimal hc).1
  simp [hcomma, hspace]

/-- What `kstrtoul` reads is the number. -/
theorem ofNat_eq_iff (h : 0 ≤ n ∧ n < UInt64.size) (v : UInt64) :
    UInt64.ofNat n.toNat = v ↔ n = v.toNat := by
  have hlt : n.toNat < 2 ^ 64 := by
    have : (UInt64.size : ℤ) = 2 ^ 64 := rfl
    omega
  rw [← UInt64.toNat_inj, UInt64.toNat_ofNat_of_lt' hlt]
  omega

/-- `cd` accepts three depths. -/
theorem accepted_cd : ColorCommand.Accepted (.cd (decimal n)) ↔ n = 24 ∨ n = 30 ∨ n = 36 := by
  simp only [ColorCommand.Accepted, debugCd, wordOf_decimal, kstrtoul_decimal]
  by_cases h : 0 ≤ n ∧ n < UInt64.size
  · simp only [if_pos h, Option.isSome_some, Option.getD_some, true_and, ne_eq, ofNat_eq_iff h]
    constructor
    · intro hs
      have := hs default
      by_contra hn
      rw [if_pos (by simpa using hn)] at this
      cases this
    · intro hn s
      rw [if_neg]
      rintro ⟨h₁, h₂, h₃⟩
      rcases hn with rfl | rfl | rfl
      · exact h₁ rfl
      · exact h₂ rfl
      · exact h₃ rfl
  · simp only [if_neg h, Option.isSome_none, Bool.false_eq_true, false_and, false_iff]
    rintro (rfl | rfl | rfl)
    all_goals exact h (by decide)

/-- The attribute accepts five, and looks at the low 32 bits alone. -/
theorem accepted_colorDepth :
    ColorCommand.Accepted (.colorDepth (decimal n)) ↔ Sysfs.Depth (Int.bmod n (2 ^ 32)) := by
  have hscan := scanInt_decimal (fun _ hc => isSpace_of_isDigit hc) (by decide) n
  simp only [ColorCommand.Accepted, forceColorDepthStore, cString_decimal, hscan]
  constructor
  · intro hs
    by_contra hn
    have := hs default
    rw [if_neg hn] at this
    exact absurd this (by decide)
  · intro hn s
    rw [if_pos hn]
    exact Int.natCast_nonneg _

/-- `cs` accepts five spaces, and looks at the low 32 bits of a 64-bit number. -/
theorem accepted_cs : ColorCommand.Accepted (.cs (decimal n)) ↔
    0 ≤ n ∧ n < UInt64.size ∧ n % 2 ^ 32 ≤ 4 := by
  simp only [ColorCommand.Accepted, debugCs, wordOf_decimal, kstrtoul_decimal]
  by_cases h : 0 ≤ n ∧ n < UInt64.size
  · have hspace : ColorSpace.RESERVED.toUInt32 < (UInt64.ofNat n.toNat).toUInt32 ↔
        ¬ n % 2 ^ 32 ≤ 4 := by
      have hlt : n.toNat < 2 ^ 64 := by
        have : (UInt64.size : ℤ) = 2 ^ 64 := rfl
        omega
      rw [UInt32.lt_iff_toNat_lt, UInt64.toNat_toUInt32, UInt64.toNat_ofNat_of_lt' hlt]
      change 4 < _ ↔ _
      omega
    simp only [if_pos h, Option.isSome_some, Option.getD_some, true_and, hspace]
    constructor
    · intro hs
      refine ⟨h.1, h.2, ?_⟩
      by_contra hn
      have := hs default 0
      rw [if_pos hn] at this
      cases this
    · intro hn s tmp
      rw [if_neg (not_not.mpr hn.2.2)]
  · simp only [if_neg h, Option.isSome_none, Bool.false_eq_true, false_and, false_iff]
    exact fun hn => h ⟨hn.1, hn.2.1⟩

theorem sysfsWordOf_decimal : Sysfs.wordOf (decimal n) = decimal n := by
  rw [Sysfs.wordOf, cString_decimal]
  exact firstWord_self fun c hc => (char_decimal hc).1.2.2.2

/-- No name of a colour space is a number. -/
theorem lookupName_decimal : lookupName colorSpaceNames (decimal n) = none := by
  rw [lookupName, Option.map_eq_none_iff, List.find?_eq_none]
  intro x hx hsame
  -- every name has a letter, and a number has none
  have hletter : (x.1.map Char.toLower).any Char.isAlpha = true :=
    List.all_eq_true.1 (by decide : colorSpaceNames.all (fun x =>
      (x.1.map Char.toLower).any Char.isAlpha) = true) x hx
  have hname : (decimal n).map Char.toLower = x.1.map Char.toLower := by
    simpa [sameName] using hsame
  rw [← hname, List.map_congr_left fun c hc => (char_decimal hc).2.1, List.map_id'] at hletter
  obtain ⟨c, hc, halpha⟩ := List.any_eq_true.mp hletter
  rw [(char_decimal hc).2.2] at halpha
  cases halpha

/-- The attribute accepts no number. -/
theorem not_accepted_colorSpace : ¬ ColorCommand.Accepted (.colorSpace (decimal n)) := by
  intro h
  have hret : default.forceColorSpaceStore (decimal n) = (-Sysfs.EINVAL, default) := by
    rw [forceColorSpaceStore, sysfsWordOf_decimal, lookupName_decimal]
  have := h default
  rw [hret] at this
  exact absurd this (by decide)

/-- It accepts the names of the five spaces. -/
theorem accepted_name : (∃ x ∈ colorSpaceNames, (x.2.toNat : ℤ) = n ∧
    ColorCommand.Accepted (.colorSpace x.1)) ↔ 0 ≤ n ∧ n ≤ 4 := by
  constructor
  · rintro ⟨x, -, rfl, -⟩
    cases x.2 <;> decide
  · rintro ⟨h₀, h₄⟩
    obtain ⟨c, hc⟩ := exists_toNat (k := n.toNat) (show n.toNat ≤ 4 by omega)
    obtain ⟨x, hx, rfl⟩ := Sysfs.colorSpaceNames_get c
    obtain ⟨hw, hlookup⟩ := Sysfs.readableNames_colorSpace.get hx
    refine ⟨x, List.mem_of_getElem? hx, by omega, fun s => ?_⟩
    rw [forceColorSpaceStore, Sysfs.wordOf_self hw, hlookup]
    exact Int.natCast_nonneg _

end Numbers

/-! ## Both ways -/

/-- **When the settings stay in their domains, and both ways agree.** All runs of some stores and
commands are as asked exactly if no array is overrun and every `cs` has a number. Both ways accept
the same depths but for 0, 48 and what is one of the five depths in its low 32 bits only, and the
same spaces but for those that `cs` accepts; if the attribute is given names, but for numbers that
are a space in their low 32 bits only. -/
theorem settings_iff (cs : List ColorCommand) (n : ℤ) :
    (RunMeets cs ↔ ∀ c ∈ cs, c.Sound) ∧
      (SameDepth n ↔ (Sysfs.Depth (Int.bmod n (2 ^ 32)) → n = 24 ∨ n = 30 ∨ n = 36)) ∧
      (SameSpace n ↔ ¬ (0 ≤ n ∧ n < UInt64.size ∧ n % 2 ^ 32 ≤ 4)) ∧
      (SameSpaceByName n ↔ (0 ≤ n ∧ n < UInt64.size ∧ n % 2 ^ 32 ≤ 4 → n ≤ 4)) := by
  refine ⟨runMeets_iff cs, ?_, ?_, ?_⟩
  · rw [SameDepth, accepted_cd, accepted_colorDepth]
    have hdepth : n = 24 ∨ n = 30 ∨ n = 36 → Sysfs.Depth (Int.bmod n (2 ^ 32)) := by
      rintro (rfl | rfl | rfl) <;> decide
    exact ⟨fun h => h.mpr, fun h => ⟨hdepth, h⟩⟩
  · rw [SameSpace, accepted_cs]
    exact iff_false_right not_accepted_colorSpace
  · rw [SameSpaceByName, accepted_cs, accepted_name]
    have hsize : (UInt64.size : ℤ) = 2 ^ 64 := rfl
    omega

/-- A letter in place of a number, and the depth 48. -/
theorem not_settings : (¬ ∀ cs, RunMeets cs) ∧ ¬ ∀ n, SameDepth n := by
  refine ⟨fun h => ?_, fun h => ?_⟩
  · have hsound := (runMeets_iff [.cs "x".toList]).mp (h _) _ List.mem_cons_self
    exact absurd hsound.2 (by decide)
  · have h48 := h 48
    rw [SameDepth, accepted_cd, accepted_colorDepth] at h48
    exact absurd (h48.mpr (by decide)) (by decide)

end Settings

end Hdmi
