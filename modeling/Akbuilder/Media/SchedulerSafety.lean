import Akbuilder.Media.Scheduler

/-!
# The scheduler: cores are not shared

## Main definitions

* `VdecCore.CoreInv`: what the masks of the decoders, of the core and of the thread have to do
  with each other
-/

open BitMask RoundRobin Transition

namespace Media

/-- The decoder elected in this turn that has not been marked as running, with its cores. -/
def ThreadPc.elected {ι : Type} : ThreadPc ι → Option (ι × CoreMask)
  | .grant _ v mask | .mark _ v mask => some (v, mask)
  | .down | .elect _ | .drop _ _ => none

/-- The elected decoder whose `active_mask` is set already. -/
def ThreadPc.marking {ι : Type} : ThreadPc ι → Option (ι × CoreMask)
  | .mark _ v mask => some (v, mask)
  | .down | .elect _ | .grant _ _ _ | .drop _ _ => none

/-- The decoders moved to `disconnecting_list` in this turn. -/
def ThreadPc.disconnecting {ι : Type} : ThreadPc ι → List ι
  | .elect d | .grant d _ _ | .mark d _ _ | .drop d _ => d
  | .down => []

namespace VdecCore

variable {ι : Type} [DecidableEq ι] {P : Platform ι} {R : ι → Reading} {s s' : VdecCore ι}

/-! ## Cleaning up -/

/-- A decoder whose finished cores have been taken back. -/
def cleaned (x : Vdec) : Vdec := { x with schedMask := x.schedMask &&& ~~~doneMask x }

@[simp]
theorem has_schedMask_cleaned {x : Vdec} {i : ℕ} :
    Has (cleaned x).schedMask i ↔ Has x.schedMask i ∧ Has x.activeMask i := by
  have := @Has.lt 64 x.schedMask i
  simp only [cleaned, doneMask, has_and, has_not, has_xor]
  tauto

theorem cleaned_cleaned (x : Vdec) : cleaned (cleaned x) = cleaned x := by
  have h : (cleaned (cleaned x)).schedMask = (cleaned x).schedMask := by
    apply ext_has
    intro i
    rw [has_schedMask_cleaned, has_schedMask_cleaned]
    exact ⟨And.left, fun h => ⟨h, h.2⟩⟩
  calc cleaned (cleaned x) = { cleaned x with schedMask := (cleaned (cleaned x)).schedMask } := rfl
    _ = cleaned x := by rw [h]

theorem vdec_clean (s : VdecCore ι) (u v : ι) :
    (s.clean v).vdec u = if u = v then cleaned (s.vdec u) else s.vdec u := by
  simp only [clean]
  by_cases hu : u = v
  · rw [if_pos hu, hu, modify_self]
    rfl
  · rw [if_neg hu, modify_of_ne hu]

/-- What cleaning up the decoders of `l` does. -/
structure Cleaned (l : List ι) (s s' : VdecCore ι) : Prop where
  core : s' = { s with vdec := s'.vdec, schedMask := s'.schedMask, isrVdec := s'.isrVdec }
  vdec : ∀ u, s'.vdec u = if u ∈ l then cleaned (s.vdec u) else s.vdec u
  shared : Shared s.schedMask (fun v => (s.vdec v).schedMask) →
    Shared s'.schedMask fun v => (s'.vdec v).schedMask

theorem shared_clean (hs : Shared s.schedMask fun v => (s.vdec v).schedMask) (v : ι) :
    Shared (s.clean v).schedMask fun u => ((s.clean v).vdec u).schedMask := by
  apply hs.release (m := doneMask (s.vdec v)) (v := v)
  · intro i hi
    simp only [doneMask, has_and] at hi
    exact hi.1
  · simp only [vdec_clean, if_true]
    rfl
  · intro u hu
    simp only [vdec_clean, hu, if_false]

theorem foldl_clean (l : List ι) (s : VdecCore ι) : Cleaned l s (l.foldl clean s) := by
  induction l generalizing s with
  | nil => exact ⟨rfl, fun u => by simp, id⟩
  | cons v l ih =>
    have h := ih (s.clean v)
    refine ⟨?_, fun u => ?_, fun hs => h.shared (shared_clean hs v)⟩
    · rw [List.foldl_cons, h.core]
      rfl
    · rw [List.foldl_cons, h.vdec, vdec_clean]
      -- a decoder that is cleaned a second time has nothing left to give back
      by_cases hu : u = v <;> by_cases hl : u ∈ l <;> simp [hu, hl, cleaned_cleaned]

/-- The decoders and the core after a turn's cleaning up. -/
abbrev swept (s : VdecCore ι) : VdecCore ι := cleanAll { s with sem := s.sem - 1 }

theorem swept_spec (s : VdecCore ι) : Cleaned s.connected { s with sem := s.sem - 1 } s.swept :=
  foldl_clean s.connected { s with sem := s.sem - 1 }

section Swept

variable (s : VdecCore ι)

@[simp] theorem connected_swept : s.swept.connected = s.connected := by rw [(swept_spec s).core]

@[simp] theorem active_swept : s.swept.active = s.active := by rw [(swept_spec s).core]

@[simp] theorem sem_swept : s.swept.sem = s.sem - 1 := by rw [(swept_spec s).core]

@[simp] theorem ups_swept : s.swept.ups = s.ups := by rw [(swept_spec s).core]

@[simp] theorem finishing_swept : s.swept.finishing = s.finishing := by rw [(swept_spec s).core]

theorem swept_frame {γ : Type*} {π : Vdec → γ} (hπ : ∀ x, π (cleaned x) = π x) (u : ι) :
    π (s.swept.vdec u) = π (s.vdec u) := by
  rw [(swept_spec s).vdec]
  split
  · exact hπ _
  · rfl

/-- A core stays with its decoder if it is at work. -/
theorem has_schedMask_swept {u : ι} {i : ℕ} :
    Has (s.swept.vdec u).schedMask i ↔
      Has (s.vdec u).schedMask i ∧ (u ∈ s.connected → Has (s.vdec u).activeMask i) := by
  rw [(swept_spec s).vdec]
  by_cases hu : u ∈ s.connected <;> simp [hu]

theorem leaves_swept (u : ι) : s.swept.leaves u = s.leaves u := by
  simp only [leaves, swept_frame (π := Vdec.status) s (fun _ => rfl),
    swept_frame (π := Vdec.nextStatus) s (fun _ => rfl)]

theorem connected_checkDisconnected_swept :
    s.swept.checkDisconnected.connected = s.connected.filter fun v => !s.leaves v := by
  simp only [checkDisconnected, connected_swept, leaves_swept]

theorem disconnecting_checkDisconnected_swept :
    s.swept.checkDisconnected.thread.disconnecting = (s.connected.filter s.leaves).reverse := by
  simp only [checkDisconnected, connected_swept, ThreadPc.disconnecting]
  rw [funext (leaves_swept s)]

end Swept

/-! ## The masks -/

/-- **The masks fit together**: the decoders share the core's `sched_mask`; a decoder's active
cores are scheduled to it, or being handed to it; what is handed out is free and goes to a
connected decoder; the active decoder is connected. -/
structure CoreInv (s : VdecCore ι) : Prop where
  shared : Shared s.schedMask fun v => (s.vdec v).schedMask
  running : ∀ {v i}, Has (s.vdec v).activeMask i →
    Has (s.vdec v).schedMask i ∨ ∃ m ∈ s.thread.marking, m.1 = v ∧ Has m.2 i
  elected : ∀ m ∈ s.thread.elected, m.1 ∈ s.connected ∧ ∀ i, Has m.2 i → ¬ Has s.schedMask i
  active : ∀ a ∈ s.active, a ∈ s.connected

/-- What was elected is connected, and its cores are free. -/
theorem electFrom_some {l : List ι} {v : ι} {m : CoreMask} {t : VdecCore ι}
    (h : electFrom P R l s = (some (v, m), t)) :
    v ∈ l ∧ m ≠ 0 ∧ ∃ s', Asked s s' ∧ s'.ask P R v = (m, t) := by
  induction l generalizing s with
  | nil => cases h
  | cons w l ih =>
    simp only [electFrom] at h
    split at h
    case isTrue h0 =>
      obtain ⟨hv, hm, s', hasked, hask⟩ := ih h
      exact ⟨List.mem_cons_of_mem _ hv, hm, s', (ask_asked w).trans hasked, hask⟩
    case isFalse h0 =>
      obtain ⟨⟨rfl, rfl⟩, rfl⟩ : (w = v ∧ (s.ask P R w).1 = m) ∧ (s.ask P R w).2 = t := by
        simpa using h
      exact ⟨List.mem_cons_self, h0, s, .refl s, rfl⟩

/-- What the election promises about the decoder `v` it gives the cores `m`. -/
structure Elects (P : Platform ι) (s : VdecCore ι) (v : ι) (m : CoreMask) : Prop where
  connected : v ∈ s.connected
  offered : scheduleMask P.combine (s.vdec v) s.schedMask ≠ 0
  free : ∀ i, Has m i → Has (s.vdec v).coreMask i ∧ ¬ Has P.combine i ∧ ¬ Has s.schedMask i

theorem elect_some (hactive : ∀ a ∈ s.active, a ∈ s.connected) {v : ι} {m : CoreMask}
    {t : VdecCore ι} (h : s.elect P R = (some (v, m), t)) : Elects P s v m := by
  rw [elect_eq hactive] at h
  obtain ⟨hv, hm, s', hasked, hask⟩ := electFrom_some h
  have hcore := hasked.frame (π := Vdec.coreMask) (fun _ _ => rfl) v
  have hoffer := scheduleMask_ne_zero (P := P) (R := R) (s := s') (v := v) (by rwa [hask])
  rw [hasked.schedMask, hasked.frame
    (π := fun x => scheduleMask P.combine x s.schedMask) (fun _ _ => rfl) v] at hoffer
  refine ⟨(mem_turns hactive).1 hv, hoffer, fun i hi => ?_⟩
  have hfree := ask_free (P := P) (R := R) (s := s') (v := v) (i := i) (by rwa [hask])
  rwa [hasked.schedMask, hcore] at hfree

theorem elect_asked (hactive : ∀ a ∈ s.active, a ∈ s.connected) {w : Option (ι × CoreMask)}
    {t : VdecCore ι} (h : s.elect P R = (w, t)) : Asked s t := by
  rw [elect_eq hactive] at h
  have hasked := electFrom_asked (P := P) (R := R) (s := s) (l := turns s.connected s.active)
  rwa [h] at hasked

omit [DecidableEq ι] in
/-- The decoder being marked is the elected one. -/
theorem elected_of_marking {t : ThreadPc ι} {m : ι × CoreMask} (h : m ∈ t.marking) :
    m ∈ t.elected := by
  cases t with
  | mark d v mask => exact h
  | _ => cases h

namespace CoreInv

omit [DecidableEq ι] in
/-- A step that hands out and takes back nothing. -/
theorem congr (h : CoreInv s) (hall : s'.schedMask = s.schedMask)
    (hsched : ∀ u, (s'.vdec u).schedMask = (s.vdec u).schedMask)
    (hrun : ∀ u i, Has (s'.vdec u).activeMask i → Has (s.vdec u).activeMask i)
    (helected : s'.thread.elected = s.thread.elected)
    (hmarking : s'.thread.marking = s.thread.marking)
    (hconn : ∀ u ∈ s.connected, u ∈ s'.connected) (hactive : s'.active = s.active) :
    CoreInv s' where
  shared := by
    rw [hall, funext hsched]
    exact h.shared
  running hi := by
    rw [hsched, hmarking]
    exact h.running (hrun _ _ hi)
  elected m hm := by
    rw [helected] at hm
    rw [hall]
    exact ⟨hconn _ (h.elected m hm).1, (h.elected m hm).2⟩
  active a ha := hconn a (h.active a (hactive ▸ ha))

omit [DecidableEq ι] in
/-- A step that leaves the masks alone. -/
theorem quiet (h : CoreInv s) (hall : s'.schedMask = s.schedMask)
    (hsched : ∀ u, (s'.vdec u).schedMask = (s.vdec u).schedMask)
    (hrun : ∀ u, (s'.vdec u).activeMask = (s.vdec u).activeMask)
    (helected : s'.thread.elected = s.thread.elected)
    (hmarking : s'.thread.marking = s.thread.marking)
    (hconn : ∀ u ∈ s.connected, u ∈ s'.connected) (hactive : s'.active = s.active) : CoreInv s' :=
  h.congr hall hsched (fun u i hi => by rwa [hrun u] at hi) helected hmarking hconn hactive

omit [DecidableEq ι] in
theorem start : CoreInv (VdecCore.start : VdecCore ι) where
  shared := Shared.nobody
  running hi := absurd hi not_has_zero
  elected _ hm := by cases hm
  active _ ha := by cases ha

theorem cleanup (h : CoreInv s) (hthread : s.thread = .down) :
    CoreInv s.swept.checkDisconnected where
  shared := (swept_spec s).shared h.shared
  running {v i} hi := by
    have hi' : Has (s.vdec v).activeMask i := by
      rwa [← swept_frame (π := Vdec.activeMask) s fun _ => rfl]
    rcases h.running hi' with hs | ⟨m, hm, -⟩
    · exact .inl ((has_schedMask_swept s).2 ⟨hs, fun _ => hi'⟩)
    · rw [hthread] at hm
      cases hm
  elected _ hm := by cases hm
  active a ha := by
    simp only [checkDisconnected, active_swept, connected_swept, Option.mem_filter_iff] at ha
    have hmem := h.active a ha.1
    simp only [hmem, decide_true, Bool.true_and] at ha
    simpa [checkDisconnected, hmem] using ha.2

theorem elect (h : CoreInv s) {d : List ι} (hthread : s.thread = .elect d) {v : ι} {mask : CoreMask}
    {t : VdecCore ι} (helect : s.elect P R = (some (v, mask), t)) :
    CoreInv { t with thread := .grant d v mask } := by
  have hasked := elect_asked h.active helect
  have he := elect_some h.active helect
  have hmarking : s.thread.marking = none := by rw [hthread]; rfl
  refine ⟨?_, fun {u i} hi => .inl ?_, fun m hm => ?_, fun a ha => ?_⟩
  · dsimp only
    rw [hasked.schedMask, funext fun u => hasked.frame (π := Vdec.schedMask) (fun _ _ => rfl) u]
    exact h.shared
  · dsimp only at hi ⊢
    rw [hasked.frame (π := Vdec.activeMask) fun _ _ => rfl] at hi
    rw [hasked.frame (π := Vdec.schedMask) fun _ _ => rfl]
    simpa [hmarking] using h.running hi
  · obtain rfl := Option.some.inj hm
    dsimp only
    rw [hasked.connected, hasked.schedMask]
    exact ⟨he.connected, fun i hi => (he.free i hi).2.2⟩
  · dsimp only at ha ⊢
    rw [hasked.connected]
    exact h.active a (hasked.active ▸ ha)

theorem grant (h : CoreInv s) {d : List ι} {v : ι} {mask : CoreMask}
    (hthread : s.thread = .grant d v mask) :
    CoreInv { s with
      vdec := modify s.vdec v fun x => { x with activeMask := x.activeMask ||| mask }
      thread := .mark d v mask } := by
  have hmarking : s.thread.marking = none := by rw [hthread]; rfl
  refine ⟨?_, fun {u i} hi => ?_, fun m hm => ?_, h.active⟩
  · simp only [modify_frame (π := Vdec.schedMask), implies_true]
    exact h.shared
  · dsimp only at hi
    simp only [modify_frame (π := Vdec.schedMask), implies_true]
    by_cases hu : u = v
    · subst hu
      rw [modify_self, has_or] at hi
      rcases hi with hi | hi
      · exact .inl (by simpa [hmarking] using h.running hi)
      · exact .inr ⟨_, rfl, rfl, hi⟩
    · rw [modify_of_ne hu] at hi
      exact .inl (by simpa [hmarking] using h.running hi)
  · exact h.elected m (by rw [hthread]; exact hm)

theorem mark (h : CoreInv s) {d : List ι} {v : ι} {mask : CoreMask}
    (hthread : s.thread = .mark d v mask) : CoreInv (s.runVdec P d v mask) := by
  obtain ⟨hv, hfree⟩ := h.elected (v, mask) (by rw [hthread]; rfl)
  refine ⟨?_, fun {u i} hi => .inl ?_, fun _ hm => (nomatch hm), fun a ha => ?_⟩
  · apply h.shared.grant hfree (v := v)
    · simp only [runVdec, modify_self]
    · intro u hu
      simp only [runVdec, modify_of_ne hu]
  · simp only [runVdec, modify_frame (π := Vdec.activeMask), implies_true] at hi ⊢
    have hrun := h.running hi
    rw [hthread] at hrun
    by_cases hu : u = v
    · subst hu
      rw [modify_self, has_or]
      rcases hrun with hs | ⟨m, hm, -, hi⟩
      · exact .inl hs
      · obtain rfl := Option.some.inj hm
        exact .inr hi
    · rw [modify_of_ne hu]
      rcases hrun with hs | ⟨m, hm, rfl, -⟩
      · exact hs
      · obtain rfl := Option.some.inj hm
        exact absurd rfl hu
  · obtain rfl := Option.some.inj ha
    exact hv

theorem finish (h : CoreInv s) (v : ι) (mask : CoreMask) :
    CoreInv { s with
      vdec := modify s.vdec v fun x => { x with activeMask := x.activeMask &&& ~~~mask }
      finishing := some (v, .cleared) } := by
  refine h.congr rfl (fun _ => modify_frame (π := Vdec.schedMask) (by intro; rfl)) ?_ rfl rfl
    (fun _ => id) rfl
  intro u i hi
  by_cases hu : u = v
  · subst hu
    dsimp only at hi
    rw [modify_self, has_and] at hi
    exact hi.1
  · dsimp only at hi
    rwa [modify_of_ne hu] at hi

/-- **A step keeps the masks fitting together.** -/
theorem step (h : CoreInv s) {a : Action ι} (hs : Step P s a s') : CoreInv s' := by
  cases hs with
  | setStepMode => exact h.quiet rfl (fun _ => rfl) (fun _ => rfl) rfl rfl (fun _ => id) rfl
  | connectNot => exact h
  | connect =>
    exact h.quiet rfl (fun _ => modifyPair_frame (π := Vdec.schedMask) (by intro; rfl))
      (fun _ => modifyPair_frame (π := Vdec.activeMask) (by intro; rfl)) rfl rfl
      (fun _ => List.mem_append_left _) rfl
  | disconnectNot => exact h
  | disconnect =>
    exact h.quiet rfl (fun _ => leave_frame (π := Vdec.schedMask) (by intro; rfl))
      (fun _ => leave_frame (π := Vdec.activeMask) (by intro; rfl)) rfl rfl (fun _ => id) rfl
  | waited =>
    exact h.quiet rfl (fun _ => modify_frame (π := Vdec.schedMask) (by intro; rfl))
      (fun _ => modify_frame (π := Vdec.activeMask) (by intro; rfl)) rfl rfl (fun _ => id) rfl
  | request =>
    exact h.quiet rfl (fun _ => modifyPair_frame (π := Vdec.schedMask) (by intro; rfl))
      (fun _ => modifyPair_frame (π := Vdec.activeMask) (by intro; rfl)) rfl rfl (fun _ => id) rfl
  | release =>
    exact h.quiet rfl (fun _ => modifyPair_frame (π := Vdec.schedMask) (by intro; rfl))
      (fun _ => modifyPair_frame (π := Vdec.activeMask) (by intro; rfl)) rfl rfl (fun _ => id) rfl
  | finish => exact h.finish _ _
  | finishIdle => exact h.quiet rfl (fun _ => rfl) (fun _ => rfl) rfl rfl (fun _ => id) rfl
  | finishBusy => exact h.quiet rfl (fun _ => rfl) (fun _ => rfl) rfl rfl (fun _ => id) rfl
  | finishSet =>
    exact h.quiet rfl (fun _ => modify_frame (π := Vdec.schedMask) (by intro; rfl))
      (fun _ => modify_frame (π := Vdec.activeMask) (by intro; rfl)) rfl rfl (fun _ => id) rfl
  | up => exact h.quiet rfl (fun _ => rfl) (fun _ => rfl) rfl rfl (fun _ => id) rfl
  | cleanup hthread => exact h.cleanup hthread
  | electSome hthread helect => exact h.elect hthread helect
  | @electNone R d t hthread helect =>
    have hasked := elect_asked h.active helect
    refine h.quiet hasked.schedMask (hasked.frame (π := Vdec.schedMask) fun _ _ => rfl)
      (hasked.frame (π := Vdec.activeMask) fun _ _ => rfl) ?_ ?_ ?_ hasked.active
    · rw [hthread]
      rfl
    · rw [hthread]
      rfl
    · dsimp only
      rw [hasked.connected]
      exact fun _ => id
  | grant hthread => exact h.grant hthread
  | mark hthread => exact h.mark hthread
  | drop hthread =>
    refine h.quiet rfl (fun _ => modify_frame (π := Vdec.schedMask) (by intro; rfl))
      (fun _ => modify_frame (π := Vdec.activeMask) (by intro; rfl)) ?_ ?_ (fun _ => id) rfl
    · rw [hthread]
      rfl
    · rw [hthread]
      rfl
  | turn hthread =>
    refine h.quiet rfl (fun _ => rfl) (fun _ => rfl) ?_ ?_ (fun _ => id) rfl
    · rw [hthread]
      rfl
    · rw [hthread]
      rfl

/-- The masks fit together in every state reached. -/
theorem run {G : VdecCore ι → Action ι → Prop} {as : List (Action ι)}
    (r : Run (VdecCore.step P) G VdecCore.start as s) : CoreInv s :=
  r.invariant .start fun _ _ _ h _ hs => h.step (step_sound hs)

end CoreInv

/-! ## The lists -/

/-- **The lists are in order**: a decoder is connected once, and then it is in one of the two
states of a connected decoder; a decoder in `disconnecting_list` is there once, is not connected
any more, and has not been set to `VDEC_STATUS_DISCONNECTED` yet. -/
structure ListInv (s : VdecCore ι) : Prop where
  nodup : s.connected.Nodup
  listed : ∀ v ∈ s.connected, (s.vdec v).status = .connected ∨ (s.vdec v).status = .active
  leaving : ∀ v ∈ s.thread.disconnecting, v ∉ s.connected ∧ (s.vdec v).status = .connected
  leavingNodup : s.thread.disconnecting.Nodup

namespace ListInv

section

omit [DecidableEq ι]

theorem notMem_of_disconnected (h : ListInv s) {v : ι} (hv : (s.vdec v).status = .disconnected) :
    v ∉ s.connected := by
  intro hmem
  rcases h.listed v hmem with hc | hc <;> rw [hv] at hc <;> cases hc

theorem start : ListInv (VdecCore.start : VdecCore ι) where
  nodup := List.nodup_nil
  listed _ hv := by cases hv
  leaving _ hv := by cases hv
  leavingNodup := List.nodup_nil

/-- A step that changes no status and no list. -/
theorem quiet (h : ListInv s) (hconn : s'.connected = s.connected)
    (hstatus : ∀ u, (s'.vdec u).status = (s.vdec u).status)
    (hleaving : s'.thread.disconnecting = s.thread.disconnecting) : ListInv s' where
  nodup := hconn ▸ h.nodup
  listed v hv := by
    rw [hstatus]
    exact h.listed v (hconn ▸ hv)
  leaving v hv := by
    rw [hleaving] at hv
    rw [hconn, hstatus]
    exact h.leaving v hv
  leavingNodup := hleaving ▸ h.leavingNodup

end

/-- A step that changes the status of one decoder. -/
theorem change (h : ListInv s) {v : ι} {f : Vdec → Vdec} (hvdec : s'.vdec = modify s.vdec v f)
    (hconn : s'.connected = s.connected)
    (hlisted : v ∈ s.connected → (f (s.vdec v)).status = .connected ∨
      (f (s.vdec v)).status = .active)
    (hleaving : ∀ u ∈ s'.thread.disconnecting, u ∈ s.thread.disconnecting ∧
      (u = v → (f (s.vdec v)).status = .connected))
    (hnodup : s'.thread.disconnecting.Nodup) : ListInv s' := by
  have hself : s'.vdec v = f (s.vdec v) := by rw [hvdec, modify_self]
  have hother : ∀ {u}, u ≠ v → s'.vdec u = s.vdec u := fun hu => by rw [hvdec, modify_of_ne hu]
  refine ⟨hconn ▸ h.nodup, fun u hu => ?_, fun u hu => ?_, hnodup⟩
  · rw [hconn] at hu
    by_cases huv : u = v
    · subst huv
      rw [hself]
      exact hlisted hu
    · rw [hother huv]
      exact h.listed u hu
  · obtain ⟨hmem, hv⟩ := hleaving u hu
    rw [hconn]
    refine ⟨(h.leaving u hmem).1, ?_⟩
    by_cases huv : u = v
    · rw [huv, hself]
      exact hv huv
    · rw [hother huv]
      exact (h.leaving u hmem).2

theorem connect (h : ListInv s) {v : ι} {n : ℕ} (hv : (s.vdec v).status = .disconnected)
    (hslave : ∀ u ∈ (P.params v).slave, u ≠ v ∧ (s.vdec u).status = .disconnected) :
    ListInv
      { s with
        vdec := modifyPair P s.vdec v connecting
        connected := s.connected ++ v :: (P.params v).slave.toList
        ups := n } := by
  have hnew : ∀ u, u ∈ v :: (P.params v).slave.toList ↔ Pair P v u := by
    intro u
    simp [Pair, Option.mem_toList]
  have hstatus : ∀ u, Pair P v u → (s.vdec u).status = .disconnected := by
    rintro u (rfl | hu)
    · exact hv
    · exact (hslave u hu).2
  have happly : ∀ u, modifyPair P s.vdec v connecting u =
      if Pair P v u then connecting (s.vdec u) else s.vdec u :=
    fun u => modifyPair_apply fun w hw => (hslave w hw).1
  refine ⟨?_, fun u hu => ?_, fun u hu => ?_, h.leavingNodup⟩
  · refine List.nodup_append.2 ⟨h.nodup, ?_, fun u hu w hw => ?_⟩
    · cases hs : (P.params v).slave with
      | none => simp
      | some w => simpa using (hslave w hs).1.symm
    · rintro rfl
      exact h.notMem_of_disconnected (hstatus u ((hnew u).1 hw)) hu
  · dsimp only
    rw [happly]
    split
    · exact .inl rfl
    next hp => exact h.listed u ((List.mem_append.1 hu).resolve_right fun hw => hp ((hnew u).1 hw))
  · obtain ⟨hnot, hc⟩ := h.leaving u hu
    have hp : ¬ Pair P v u := fun hp => by
      rw [hstatus u hp] at hc
      cases hc
    refine ⟨fun hmem => ?_, ?_⟩
    · rcases List.mem_append.1 hmem with hmem | hmem
      · exact hnot hmem
      · exact hp ((hnew u).1 hmem)
    · dsimp only
      rw [happly, if_neg hp]
      exact hc

theorem cleanup (h : ListInv s) : ListInv s.swept.checkDisconnected := by
  have hstatus := swept_frame (π := Vdec.status) s fun _ => rfl
  have hconn := connected_checkDisconnected_swept s
  have hleaving := disconnecting_checkDisconnected_swept s
  refine ⟨by rw [hconn]; exact h.nodup.filter _, fun u hu => ?_, fun u hu => ?_,
    by rw [hleaving]; exact List.nodup_reverse.2 (h.nodup.filter _)⟩
  · rw [hconn] at hu
    simp only [checkDisconnected, hstatus]
    exact h.listed u (List.mem_filter.1 hu).1
  · rw [hleaving, List.mem_reverse, List.mem_filter] at hu
    refine ⟨?_, ?_⟩
    · rw [hconn, List.mem_filter]
      simp [hu.2]
    · simp only [checkDisconnected, hstatus]
      simp_all [leaves]

/-- **A step keeps the lists in order.** -/
theorem step (h : ListInv s) (hcore : CoreInv s) {a : Action ι} (hs : Step P s a s') :
    ListInv s' := by
  cases hs with
  | setStepMode => exact h.quiet rfl (fun _ => rfl) rfl
  | connectNot => exact h
  | connect hv hslave => exact h.connect hv hslave
  | disconnectNot => exact h
  | disconnect => exact h.quiet rfl (fun _ => leave_frame (π := Vdec.status) (by intro; rfl)) rfl
  | waited => exact h.quiet rfl (fun _ => modify_frame (π := Vdec.status) (by intro; rfl)) rfl
  | request => exact h.quiet rfl (fun _ => modifyPair_frame (π := Vdec.status) (by intro; rfl)) rfl
  | release => exact h.quiet rfl (fun _ => modifyPair_frame (π := Vdec.status) (by intro; rfl)) rfl
  | finish => exact h.quiet rfl (fun _ => modify_frame (π := Vdec.status) (by intro; rfl)) rfl
  | finishIdle => exact h.quiet rfl (fun _ => rfl) rfl
  | finishBusy => exact h.quiet rfl (fun _ => rfl) rfl
  | @finishSet v =>
    exact h.change (v := v) (f := fun x => { x with status := .connected }) rfl rfl
      (fun _ => .inl rfl) (fun u hu => ⟨hu, fun _ => rfl⟩) h.leavingNodup
  | up => exact h.quiet rfl (fun _ => rfl) rfl
  | cleanup => exact h.cleanup
  | @electSome R d v mask t hthread helect =>
    have hasked := elect_asked hcore.active helect
    exact h.quiet hasked.connected (hasked.frame (π := Vdec.status) fun _ _ => rfl)
      (by rw [hthread]; rfl)
  | @electNone R d t hthread helect =>
    have hasked := elect_asked hcore.active helect
    exact h.quiet hasked.connected (hasked.frame (π := Vdec.status) fun _ _ => rfl)
      (by rw [hthread]; rfl)
  | grant hthread =>
    exact h.quiet rfl (fun _ => modify_frame (π := Vdec.status) (by intro; rfl))
      (by rw [hthread]; rfl)
  | @mark d v mask hthread =>
    have hd : s.thread.disconnecting = d := by rw [hthread]; rfl
    have hv := (hcore.elected (v, mask) (by rw [hthread]; rfl)).1
    refine h.change (v := v)
      (f := fun x =>
        { x with
          schedMask := x.schedMask ||| mask
          status := .active
          needMoreData := runFlags (P.params v) mask x.needMoreData })
      rfl rfl (fun _ => .inr rfl) (fun u hu => ⟨hd ▸ hu, ?_⟩) (hd ▸ h.leavingNodup)
    rintro rfl
    exact absurd hv (h.leaving u (hd ▸ hu)).1
  | @drop v d worker vdecNr hthread =>
    have hd : s.thread.disconnecting = v :: d := by rw [hthread]; rfl
    have hv := (h.leaving v (hd ▸ List.mem_cons_self)).1
    have hnodup := List.nodup_cons.1 (hd ▸ h.leavingNodup)
    refine h.change (v := v)
      (f := fun x => { x with status := .disconnected, inactiveDone := x.inactiveDone + 1 }) rfl rfl
      (fun hmem => absurd hmem hv) (fun u hu => ⟨hd ▸ List.mem_cons_of_mem _ hu, ?_⟩) hnodup.2
    rintro rfl
    exact absurd hu hnodup.1
  | turn hthread => exact h.quiet rfl (fun _ => rfl) (by rw [hthread]; rfl)

/-- The lists are in order in every state reached. -/
theorem run {G : VdecCore ι → Action ι → Prop} {as : List (Action ι)}
    (r : Run (VdecCore.step P) G VdecCore.start as s) : ListInv s :=
  (r.mono_of_invariant (H := G) (I := fun s => CoreInv s ∧ ListInv s) ⟨.start, .start⟩
    (fun _ _ _ h _ hs => ⟨h.1.step (step_sound hs), h.2.step h.1 (step_sound hs)⟩)
    fun _ _ _ _ hg _ => hg).2.2

end ListInv

/-- **No core is shared**: after any steps of the thread, the users and the drivers, in any order
and with any answers, each core scheduled is scheduled to one decoder; a decoder works only on
cores scheduled to it, or being handed to it; and what is handed out is scheduled to nobody. -/
theorem exclusive {as : List (Action ι)} (r : Run (VdecCore.step P) Always start as s) :
    (∀ i u v, Has (s.vdec u).schedMask i → Has (s.vdec v).schedMask i → u = v) ∧
      (∀ i, Has s.schedMask i ↔ ∃ v, Has (s.vdec v).schedMask i) ∧
        (∀ v i, Has (s.vdec v).activeMask i →
          Has (s.vdec v).schedMask i ∨ ∃ d m, s.thread = .mark d v m ∧ Has m i) ∧
          ∀ d v m, s.thread = .grant d v m ∨ s.thread = .mark d v m →
            ∀ i, Has m i → ∀ u, ¬ Has (s.vdec u).schedMask i := by
  have h := CoreInv.run r
  refine ⟨fun i u v => h.shared.alone, h.shared.covers, fun v i hi => ?_,
    fun d v m ht i hi u hu => ?_⟩
  · rcases h.running hi with hs | ⟨m, hm, rfl, hmi⟩
    · exact .inl hs
    · cases ht : s.thread with
      | mark d w m' =>
        rw [ht] at hm
        obtain rfl := Option.some.inj hm
        exact .inr ⟨d, m', rfl, hmi⟩
      | _ => simp [ht, ThreadPc.marking] at hm
  · have helected : (v, m) ∈ s.thread.elected := by
      rcases ht with ht | ht <;> rw [ht] <;> rfl
    exact (h.elected _ helected).2 i hi (h.shared.le hu)

/-- Two decoders without slaves. -/
def twoDecoders : Platform Bool where
  combine := 0x80000000
  debugSupport := false
  params v :=
    { id := if v then 1 else 0
      slave := none
      master := none
      runReady := true
      irqHandler := true
      streamBased := false
      input := { frameBased := true, streamBased := false, size := 0, prepareLevel := 0 } }

/-- `CORE_MASK_VDEC_1 | CORE_MASK_HEVC | CORE_MASK_COMBINE`. -/
def multiMask : CoreMask := 0x80000009

/-- A decoder with a chunk to decode, whose driver is ready. -/
def readyReading : Reading where
  sched := false
  eos := false
  nextChunk := true
  rp := 0
  wp := 0
  recNum := 0
  runReady mask := mask

/-- The decoder `v` is connected, elected and run. -/
def runOne (v : Bool) : List (Action Bool) :=
  [.request v multiMask, .connect v, .up, .cleanup, .elect fun _ => readyReading, .grant, .mark,
    .drop 1]

theorem exclusive_running :
    ∃ s : VdecCore Bool, Has (s.vdec true).schedMask 3 ∧ ¬ Has (s.vdec false).schedMask 3 := by
  obtain ⟨s, r, hs⟩ := exists_run_of_exec (step twoDecoders) Always start (runOne true)
    (fun s => Has (s.vdec true).schedMask 3) (by decide +kernel)
  refine ⟨s, hs, fun hs' => ?_⟩
  have := (exclusive r).1 3 true false hs hs'
  cases this

end VdecCore

end Media
