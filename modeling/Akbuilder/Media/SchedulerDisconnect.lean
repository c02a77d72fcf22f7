import Akbuilder.Media.SchedulerSafety
import Mathlib.Data.Fintype.Basic

/-!
# The scheduler: letting go of a decoder

`vdec_disconnect` marks a decoder and waits until the thread has let go of it; its caller then
releases the decoder. The multi-instance decoders all use the scheduler in the same way:
they ask for combined cores before they are connected, give them back after they are disconnected,
and report that a run is done while it goes on.

## Main definitions

* `VdecCore.MultiGuard`: that use of the scheduler
* `VdecCore.DisconnectInv`: what it keeps true

## Main results

* `VdecCore.DisconnectInv.step`, `VdecCore.DisconnectInv.run`
* `VdecCore.let_go`: a decoder whose disconnect is reported complete is out of the scheduler
-/

open BitMask RoundRobin Transition

namespace Media

namespace VdecCore

variable {ι : Type} [DecidableEq ι] {P : Platform ι} {s s' : VdecCore ι}

/-- **How the multi-instance decoders use the scheduler**: they are connected with combined cores
requested, change the request only while they are disconnected, and report a run that goes on. -/
def MultiGuard (P : Platform ι) (s : VdecCore ι) : Action ι → Prop
  | .connect v => ∀ u, Pair P v u → (s.vdec u).coreMask &&& P.combine ≠ 0
  | .request v _ | .release v _ => ∀ u, Pair P v u → (s.vdec u).status = .disconnected
  | .finish v _ => (s.vdec v).activeMask ≠ 0 ∧ ∀ m ∈ s.thread.marking, m.1 ≠ v
  | _ => True

theorem all_marking {v : ι} {t : ThreadPc ι} :
    (t.marking.all fun m => decide (m.1 ≠ v)) = true ↔ ∀ m ∈ t.marking, m.1 ≠ v := by
  cases t.marking <;> simp

instance [Fintype ι] : ∀ (s : VdecCore ι) (a : Action ι), Decidable (MultiGuard P s a)
  | s, .connect v =>
    inferInstanceAs (Decidable (∀ u, Pair P v u → (s.vdec u).coreMask &&& P.combine ≠ 0))
  | s, .request v _ | s, .release v _ =>
    inferInstanceAs (Decidable (∀ u, Pair P v u → (s.vdec u).status = .disconnected))
  | s, .finish v _ =>
    have : Decidable (∀ m ∈ s.thread.marking, m.1 ≠ v) := decidable_of_iff _ all_marking
    inferInstanceAs (Decidable (_ ∧ ∀ m ∈ s.thread.marking, m.1 ≠ v))
  | _, .setStepMode _ | _, .disconnect _ | _, .waited _ | _, .finishTest | _, .finishSet | _, .up
  | _, .cleanup | _, .elect _ | _, .grant | _, .mark | _, .drop _ => isTrue trivial

/-- **Who holds cores**: connected decoders with combined cores requested, and only cores they asked
for; the elected decoder holds none yet; a decoder that is not running has no active cores, unless
it is just being started; a decoder being reported on holds cores; and the completion of a
disconnect is there for a disconnected decoder only. -/
structure DisconnectInv (P : Platform ι) (s : VdecCore ι) : Prop where
  core : CoreInv s
  list : ListInv s
  combined : ∀ v ∈ s.connected, (s.vdec v).coreMask &&& P.combine ≠ 0
  holder : ∀ {v i}, Has (s.vdec v).schedMask i →
    v ∈ s.connected ∧ Has (s.vdec v).coreMask i ∧ ¬ Has P.combine i
  fresh : ∀ m ∈ s.thread.elected, (s.vdec m.1).schedMask = 0 ∧
    ∀ i, Has m.2 i → Has (s.vdec m.1).coreMask i ∧ ¬ Has P.combine i
  idle : ∀ v, (s.vdec v).status ≠ .active →
    (s.vdec v).activeMask = 0 ∨ ∃ m ∈ s.thread.marking, m.1 = v
  finishing : ∀ f ∈ s.finishing, (s.vdec f.1).schedMask ≠ 0 ∧
    (f.2 = .idle → (s.vdec f.1).activeMask = 0)
  done : ∀ v, 0 < (s.vdec v).inactiveDone → (s.vdec v).status = .disconnected

namespace DisconnectInv

section

omit [DecidableEq ι]

/-- A decoder that was let go of holds no cores. -/
theorem schedMask_eq_zero (h : DisconnectInv P s) {v : ι} (hv : v ∉ s.connected) :
    (s.vdec v).schedMask = 0 :=
  eq_zero_iff.2 fun _ hi => hv (h.holder hi).1

theorem inactiveDone_eq_zero (h : DisconnectInv P s) {v : ι} (hv : v ∈ s.connected) :
    ¬ 0 < (s.vdec v).inactiveDone :=
  fun hpos => h.list.notMem_of_disconnected (h.done v hpos) hv

/-- A decoder with combined cores is offered cores when it holds none. -/
theorem schedMask_of_offered (h : DisconnectInv P s) {v : ι} (hv : v ∈ s.connected)
    (hoffer : scheduleMask P.combine (s.vdec v) s.schedMask ≠ 0) : (s.vdec v).schedMask = 0 := by
  apply eq_zero_iff.2
  intro i hi
  obtain ⟨-, hmask, hnot⟩ := h.holder hi
  exact scheduleMask_combined (h.combined v hv) hoffer hmask hnot (h.core.shared.le hi)

theorem start : DisconnectInv P (VdecCore.start : VdecCore ι) where
  core := .start
  list := .start
  combined _ hv := by cases hv
  holder hi := absurd hi not_has_zero
  fresh _ hm := by cases hm
  idle _ _ := .inl rfl
  finishing _ hf := by cases hf
  done _ _ := rfl

/-- A step that no mask, status, or list notices. -/
theorem quiet (h : DisconnectInv P s) (hcore : CoreInv s') (hlist : ListInv s')
    (hconn : s'.connected = s.connected)
    (hstatus : ∀ u, (s'.vdec u).status = (s.vdec u).status)
    (hmask : ∀ u, (s'.vdec u).coreMask = (s.vdec u).coreMask)
    (hsched : ∀ u, (s'.vdec u).schedMask = (s.vdec u).schedMask)
    (hactive : ∀ u, (s'.vdec u).activeMask = (s.vdec u).activeMask)
    (hdone : ∀ u, (s'.vdec u).inactiveDone ≤ (s.vdec u).inactiveDone)
    (helected : s'.thread.elected = s.thread.elected)
    (hmarking : s'.thread.marking = s.thread.marking)
    (hfinish : ∀ f ∈ s'.finishing, (s'.vdec f.1).schedMask ≠ 0 ∧
      (f.2 = .idle → (s'.vdec f.1).activeMask = 0)) :
    DisconnectInv P s' where
  core := hcore
  list := hlist
  combined v hv := by
    rw [hmask]
    exact h.combined v (hconn ▸ hv)
  holder {v i} hi := by
    rw [hsched] at hi
    rw [hmask, hconn]
    exact h.holder hi
  fresh m hm := by
    rw [helected] at hm
    rw [hsched, hmask]
    exact h.fresh m hm
  idle v hv := by
    rw [hstatus] at hv
    rw [hactive, hmarking]
    exact h.idle v hv
  finishing := hfinish
  done v hv := by
    rw [hstatus]
    exact h.done v (hv.trans_le (hdone v))

end

/-- Connecting a decoder that was let go of, with its slave. -/
theorem connect (h : DisconnectInv P s) {v : ι} {n : ℕ} (hv : (s.vdec v).status = .disconnected)
    (hslave : ∀ u ∈ (P.params v).slave, u ≠ v ∧ (s.vdec u).status = .disconnected)
    (hg : ∀ u, Pair P v u → (s.vdec u).coreMask &&& P.combine ≠ 0)
    (hcore : CoreInv
      { s with
        vdec := modifyPair P s.vdec v connecting
        connected := s.connected ++ v :: (P.params v).slave.toList
        ups := n }) :
    DisconnectInv P
      { s with
        vdec := modifyPair P s.vdec v connecting
        connected := s.connected ++ v :: (P.params v).slave.toList
        ups := n } := by
  have hstatus : ∀ u, Pair P v u → (s.vdec u).status = .disconnected := by
    rintro u (rfl | hu)
    · exact hv
    · exact (hslave u hu).2
  have happly : ∀ u, modifyPair P s.vdec v connecting u =
      if Pair P v u then connecting (s.vdec u) else s.vdec u :=
    fun u => modifyPair_apply fun w hw => (hslave w hw).1
  refine
    { core := hcore
      list := h.list.connect hv hslave
      combined := fun u hu => ?_, holder := fun {u i} hi => ?_, fresh := fun m hm => ?_
      idle := fun u hu => ?_, finishing := fun f hf => ?_, done := fun u hu => ?_ }
  · dsimp only
    rw [modifyPair_frame (π := Vdec.coreMask) (by intro; rfl)]
    rcases List.mem_append.1 hu with hu | hu
    · exact h.combined u hu
    · exact hg u (by simpa [Pair, Option.mem_toList] using hu)
  · dsimp only at hi ⊢
    rw [modifyPair_frame (π := Vdec.schedMask) (by intro; rfl)] at hi
    rw [modifyPair_frame (π := Vdec.coreMask) (by intro; rfl)]
    exact ⟨List.mem_append_left _ (h.holder hi).1, (h.holder hi).2⟩
  · dsimp only
    rw [modifyPair_frame (π := Vdec.schedMask) (by intro; rfl),
      modifyPair_frame (π := Vdec.coreMask) (by intro; rfl)]
    exact h.fresh m hm
  · dsimp only at hu ⊢
    rw [modifyPair_frame (π := Vdec.activeMask) (by intro; rfl)]
    rw [happly] at hu
    split at hu
    next hp => exact h.idle u (by rw [hstatus u hp]; decide)
    next hp => exact h.idle u hu
  · dsimp only
    rw [modifyPair_frame (π := Vdec.schedMask) (by intro; rfl),
      modifyPair_frame (π := Vdec.activeMask) (by intro; rfl)]
    exact h.finishing f hf
  · dsimp only at hu ⊢
    rw [happly] at hu ⊢
    split at hu
    · exact absurd hu (lt_irrefl 0)
    next hp =>
      rw [if_neg hp]
      exact h.done u hu

/-- A request changed while the decoder is disconnected. -/
theorem request (h : DisconnectInv P s) {v : ι} {g : CoreMask → CoreMask}
    (hg : ∀ u, Pair P v u → (s.vdec u).status = .disconnected)
    (hcore : CoreInv
      { s with vdec := modifyPair P s.vdec v fun x => { x with coreMask := g x.coreMask } })
    (hlist : ListInv
      { s with vdec := modifyPair P s.vdec v fun x => { x with coreMask := g x.coreMask } }) :
    DisconnectInv P
      { s with vdec := modifyPair P s.vdec v fun x => { x with coreMask := g x.coreMask } } := by
  -- no connected decoder changes
  have hold : ∀ u ∈ s.connected,
      modifyPair P s.vdec v (fun x => { x with coreMask := g x.coreMask }) u = s.vdec u :=
    fun u hu => modifyPair_of_not_pair fun hp => h.list.notMem_of_disconnected (hg u hp) hu
  have hstatus : ∀ u,
      (modifyPair P s.vdec v (fun x => { x with coreMask := g x.coreMask }) u).status =
        (s.vdec u).status := fun u => modifyPair_frame (π := Vdec.status) (by intro; rfl)
  refine
    { core := hcore
      list := hlist
      combined := fun u hu => ?_, holder := fun {u i} hi => ?_, fresh := fun m hm => ?_
      idle := fun u hu => ?_, finishing := fun f hf => ?_, done := fun u hu => ?_ }
  · dsimp only
    rw [hold u hu]
    exact h.combined u hu
  · dsimp only at hi ⊢
    rw [modifyPair_frame (π := Vdec.schedMask) (by intro; rfl)] at hi
    rw [hold u (h.holder hi).1]
    exact h.holder hi
  · dsimp only
    rw [hold m.1 (h.core.elected m hm).1]
    exact h.fresh m hm
  · dsimp only at hu ⊢
    rw [hstatus] at hu
    rw [modifyPair_frame (π := Vdec.activeMask) (by intro; rfl)]
    exact h.idle u hu
  · dsimp only
    rw [modifyPair_frame (π := Vdec.schedMask) (by intro; rfl),
      modifyPair_frame (π := Vdec.activeMask) (by intro; rfl)]
    exact h.finishing f hf
  · dsimp only at hu ⊢
    rw [modifyPair_frame (π := Vdec.inactiveDone) (by intro; rfl)] at hu
    rw [hstatus]
    exact h.done u hu

/-- **A step that changes one decoder** and moves on a thread. What is asked about the decoder `v`
is asked of its new fields; nothing is asked about the others. -/
theorem change (h : DisconnectInv P s) (hcore : CoreInv s') (hlist : ListInv s') {v : ι}
    {f : Vdec → Vdec} (hvdec : s'.vdec = modify s.vdec v f) (hconn : s'.connected = s.connected)
    (hmask : ∀ x, (f x).coreMask = x.coreMask)
    (hsched : ∀ i, Has (f (s.vdec v)).schedMask i → v ∈ s.connected ∧
      Has (s.vdec v).coreMask i ∧ ¬ Has P.combine i)
    (hidle : (f (s.vdec v)).status ≠ .active →
      (f (s.vdec v)).activeMask = 0 ∨ ∃ m ∈ s'.thread.marking, m.1 = v)
    (hdone : 0 < (f (s.vdec v)).inactiveDone → (f (s.vdec v)).status = .disconnected)
    (hmarking : ∀ m ∈ s.thread.marking, m.1 = v ∨ m ∈ s'.thread.marking)
    (hfresh : ∀ m ∈ s'.thread.elected, m ∈ s.thread.elected ∧
      (s'.vdec m.1).schedMask = (s.vdec m.1).schedMask)
    (hfinish : ∀ g ∈ s'.finishing, (s'.vdec g.1).schedMask ≠ 0 ∧
      (g.2 = .idle → (s'.vdec g.1).activeMask = 0)) : DisconnectInv P s' := by
  have hself : s'.vdec v = f (s.vdec v) := by rw [hvdec, modify_self]
  have hother : ∀ {u}, u ≠ v → s'.vdec u = s.vdec u := fun hu => by rw [hvdec, modify_of_ne hu]
  have hcoreMask : ∀ u, (s'.vdec u).coreMask = (s.vdec u).coreMask := fun u => by
    rw [hvdec]
    exact modify_frame (π := Vdec.coreMask) hmask
  refine
    { core := hcore
      list := hlist
      combined := fun u hu => ?_, holder := fun {u i} hi => ?_, fresh := fun m hm => ?_
      idle := fun u hu => ?_, finishing := hfinish, done := fun u hu => ?_ }
  · rw [hcoreMask]
    exact h.combined u (hconn ▸ hu)
  · rw [hcoreMask, hconn]
    by_cases huv : u = v
    · subst huv
      rw [hself] at hi
      exact hsched i hi
    · rw [hother huv] at hi
      exact h.holder hi
  · obtain ⟨hold, hs⟩ := hfresh m hm
    rw [hs, hcoreMask]
    exact h.fresh m hold
  · by_cases huv : u = v
    · subst huv
      rw [hself] at hu ⊢
      exact hidle hu
    · rw [hother huv] at hu ⊢
      rcases h.idle u hu with h0 | ⟨m, hm, rfl⟩
      · exact .inl h0
      · exact .inr ⟨m, (hmarking m hm).resolve_left huv, rfl⟩
  · by_cases huv : u = v
    · subst huv
      rw [hself] at hu ⊢
      exact hdone hu
    · rw [hother huv] at hu ⊢
      exact h.done u hu

/-- `vdec_core_finish_run` of a decoder that runs. -/
theorem finish (h : DisconnectInv P s) {v : ι} {mask : CoreMask} (hrun : (s.vdec v).activeMask ≠ 0)
    (hmark : ∀ m ∈ s.thread.marking, m.1 ≠ v)
    (hlist : ListInv
      { s with
        vdec := modify s.vdec v fun x => { x with activeMask := x.activeMask &&& ~~~mask }
        finishing := some (v, .cleared) }) :
    DisconnectInv P
      { s with
        vdec := modify s.vdec v fun x => { x with activeMask := x.activeMask &&& ~~~mask }
        finishing := some (v, .cleared) } := by
  -- what is active is scheduled, as the decoder is not just being started
  obtain ⟨i, hi⟩ := exists_has hrun
  have hheld : Has (s.vdec v).schedMask i := by
    rcases h.core.running hi with hs | ⟨m, hm, hv, -⟩
    · exact hs
    · exact absurd hv (hmark m hm)
  have hv := (h.holder hheld).1
  refine h.change (h.core.finish v mask) hlist (v := v)
    (f := fun x => { x with activeMask := x.activeMask &&& ~~~mask }) rfl rfl (fun _ => rfl)
    (fun j hj => h.holder hj) (fun hs => .inl ?_)
    (fun hd => absurd hd (h.inactiveDone_eq_zero hv)) (fun m hm => .inr hm)
    (fun m hm => ⟨hm, modify_frame (π := Vdec.schedMask) (by intro; rfl)⟩) ?_
  · rcases h.idle v hs with h0 | ⟨m, hm, hmv⟩
    · exact absurd h0 hrun
    · exact absurd hmv (hmark m hm)
  · rintro g ⟨⟩
    refine ⟨?_, fun h => by cases h⟩
    dsimp only
    rw [modify_self]
    exact fun h0 => eq_zero_iff.1 h0 i hheld

/-- The decoder has no active cores left and is connected again. -/
theorem finishSet (h : DisconnectInv P s) {v : ι} {n : ℕ} (hf : s.finishing = some (v, .idle))
    (hcore : CoreInv
      { s with
        vdec := modify s.vdec v fun x => { x with status := .connected }
        finishing := none
        ups := n })
    (hlist : ListInv
      { s with
        vdec := modify s.vdec v fun x => { x with status := .connected }
        finishing := none
        ups := n }) :
    DisconnectInv P
      { s with
        vdec := modify s.vdec v fun x => { x with status := .connected }
        finishing := none
        ups := n } := by
  obtain ⟨hne, hidle⟩ := h.finishing _ (by rw [hf]; rfl)
  obtain ⟨i, hi⟩ := exists_has hne
  have hv := (h.holder hi).1
  exact h.change hcore hlist (v := v) (f := fun x => { x with status := .connected }) rfl rfl
    (fun _ => rfl) (fun j hj => h.holder hj) (fun _ => .inl (hidle rfl))
    (fun hd => absurd hd (h.inactiveDone_eq_zero hv)) (fun m hm => .inr hm)
    (fun m hm => ⟨hm, modify_frame (π := Vdec.schedMask) (by intro; rfl)⟩) (fun _ hg => by cases hg)

theorem grant (h : DisconnectInv P s) {d : List ι} {v : ι} {mask : CoreMask}
    (hthread : s.thread = .grant d v mask)
    (hlist : ListInv
      { s with
        vdec := modify s.vdec v fun x => { x with activeMask := x.activeMask ||| mask }
        thread := .mark d v mask }) :
    DisconnectInv P
      { s with
        vdec := modify s.vdec v fun x => { x with activeMask := x.activeMask ||| mask }
        thread := .mark d v mask } := by
  have helected : (v, mask) ∈ s.thread.elected := by rw [hthread]; rfl
  have hv := (h.core.elected _ helected).1
  have hfresh := (h.fresh _ helected).1
  refine h.change (h.core.grant hthread) hlist (v := v)
    (f := fun x => { x with activeMask := x.activeMask ||| mask }) rfl rfl (fun _ => rfl)
    (fun j hj => h.holder hj) (fun _ => .inr ⟨_, rfl, rfl⟩)
    (fun hd => absurd hd (h.inactiveDone_eq_zero hv)) (fun m hm => by rw [hthread] at hm; cases hm)
    (fun m hm => ⟨by rw [hthread]; exact hm, modify_frame (π := Vdec.schedMask) (by intro; rfl)⟩)
    fun g hg => ?_
  -- the decoder being reported on holds cores, and the elected one does not
  have hne : g.1 ≠ v := by
    rintro rfl
    exact (h.finishing g hg).1 hfresh
  dsimp only
  rw [modify_of_ne hne]
  exact h.finishing g hg

theorem mark (h : DisconnectInv P s) {d : List ι} {v : ι} {mask : CoreMask}
    (hthread : s.thread = .mark d v mask) (hlist : ListInv (s.runVdec P d v mask)) :
    DisconnectInv P (s.runVdec P d v mask) := by
  have helected : (v, mask) ∈ s.thread.elected := by rw [hthread]; rfl
  have hv := (h.core.elected _ helected).1
  obtain ⟨hfresh, hmask⟩ := h.fresh _ helected
  refine h.change (h.core.mark hthread) hlist (v := v)
    (f := fun x =>
      { x with
        schedMask := x.schedMask ||| mask
        status := .active
        needMoreData := runFlags (P.params v) mask x.needMoreData })
    rfl rfl (fun _ => rfl) (fun j hj => ?_) (fun hs => absurd rfl hs)
    (fun hd => absurd hd (h.inactiveDone_eq_zero hv)) (fun m hm => ?_) (fun m hm => by cases hm)
    fun g hg => ?_
  · rcases has_or.1 hj with hj | hj
    · exact h.holder hj
    · exact ⟨hv, hmask j hj⟩
  · rw [hthread] at hm
    obtain rfl := Option.some.inj hm
    exact .inl rfl
  · have hne : g.1 ≠ v := by
      rintro rfl
      exact (h.finishing g hg).1 hfresh
    dsimp only [runVdec]
    rw [modify_of_ne hne]
    exact h.finishing g hg

/-- The last step of letting go of a decoder. -/
theorem drop (h : DisconnectInv P s) {d : List ι} {v : ι} {worker : Bool}
    (hthread : s.thread = .drop (v :: d) worker)
    (hcore : CoreInv
      { s with
        vdec := modify s.vdec v fun x =>
          { x with status := .disconnected, inactiveDone := x.inactiveDone + 1 }
        thread := .drop d worker })
    (hlist : ListInv
      { s with
        vdec := modify s.vdec v fun x =>
          { x with status := .disconnected, inactiveDone := x.inactiveDone + 1 }
        thread := .drop d worker }) :
    DisconnectInv P
      { s with
        vdec := modify s.vdec v fun x =>
          { x with status := .disconnected, inactiveDone := x.inactiveDone + 1 }
        thread := .drop d worker } := by
  obtain ⟨hv, hstatus⟩ := h.list.leaving v (by rw [hthread]; exact List.mem_cons_self)
  refine h.change hcore hlist (v := v)
    (f := fun x => { x with status := .disconnected, inactiveDone := x.inactiveDone + 1 }) rfl rfl
    (fun _ => rfl) (fun j hj => absurd (h.holder hj).1 hv) (fun _ => ?_) (fun _ => rfl)
    (fun m hm => by rw [hthread] at hm; cases hm) (fun m hm => by cases hm) (fun g hg => ?_)
  · rcases h.idle v (by rw [hstatus]; decide) with h0 | ⟨m, hm, -⟩
    · exact .inl h0
    · rw [hthread] at hm
      cases hm
  · have hne : g.1 ≠ v := by
      rintro rfl
      exact (h.finishing g hg).1 (h.schedMask_eq_zero hv)
    dsimp only
    rw [modify_of_ne hne]
    exact h.finishing g hg

theorem elect (h : DisconnectInv P s) {R : ι → Reading} {d : List ι}
    (hthread : s.thread = .elect d) {w : Option (ι × CoreMask)} {t : VdecCore ι}
    (helect : s.elect P R = (w, t)) {pc : ThreadPc ι} (hpc : pc.elected = w)
    (hcore : CoreInv { t with thread := pc }) (hlist : ListInv { t with thread := pc }) :
    DisconnectInv P { t with thread := pc } := by
  have hasked := elect_asked h.core.active helect
  have hstatus := hasked.frame (π := Vdec.status) fun _ _ => rfl
  have hmask := hasked.frame (π := Vdec.coreMask) fun _ _ => rfl
  have hsched := hasked.frame (π := Vdec.schedMask) fun _ _ => rfl
  have hactive := hasked.frame (π := Vdec.activeMask) fun _ _ => rfl
  have hdone := hasked.frame (π := Vdec.inactiveDone) fun _ _ => rfl
  have hfinishing : t.finishing = s.finishing := by rw [hasked.core]
  -- what is elected has been offered cores, so it holds none
  have hfresh : ∀ m ∈ w, (s.vdec m.1).schedMask = 0 ∧
      ∀ i, Has m.2 i → Has (s.vdec m.1).coreMask i ∧ ¬ Has P.combine i := by
    rintro ⟨v, m⟩ hm
    obtain rfl := Option.mem_def.1 hm
    have he := elect_some h.core.active helect
    exact ⟨h.schedMask_of_offered he.connected he.offered,
      fun i hi => ⟨(he.free i hi).1, (he.free i hi).2.1⟩⟩
  have hold : s.thread.marking = none := by rw [hthread]; rfl
  refine
    { core := hcore
      list := hlist
      combined := fun u hu => ?_, holder := fun {u i} hi => ?_, fresh := fun m hm => ?_
      idle := fun u hu => ?_, finishing := fun g hg => ?_, done := fun u hu => ?_ }
  · rw [hmask]
    exact h.combined u (hasked.connected ▸ hu)
  · rw [hsched] at hi
    rw [hmask, hasked.connected]
    exact h.holder hi
  · rw [hpc] at hm
    rw [hsched, hmask]
    exact hfresh m hm
  · rw [hstatus] at hu
    rw [hactive]
    simpa [hold] using Or.inl (h.idle u hu)
  · rw [hfinishing] at hg
    rw [hsched, hactive]
    exact h.finishing g hg
  · rw [hdone] at hu
    rw [hstatus]
    exact h.done u hu

theorem cleanup (h : DisconnectInv P s) (hthread : s.thread = .down)
    (hfinish : s.finishing = none) : DisconnectInv P s.swept.checkDisconnected := by
  have hstatus := swept_frame (π := Vdec.status) s fun _ => rfl
  have hmask := swept_frame (π := Vdec.coreMask) s fun _ => rfl
  have hactive := swept_frame (π := Vdec.activeMask) s fun _ => rfl
  have hdone := swept_frame (π := Vdec.inactiveDone) s fun _ => rfl
  have hconn := connected_checkDisconnected_swept s
  have hidle : ∀ {u}, (s.vdec u).status ≠ .active → (s.vdec u).activeMask = 0 := fun hu => by
    rcases h.idle _ hu with h0 | ⟨m, hm, -⟩
    · exact h0
    · rw [hthread] at hm
      cases hm
  refine
    { core := h.core.cleanup hthread
      list := h.list.cleanup
      combined := fun u hu => ?_, holder := fun {u i} hi => ?_, fresh := fun m hm => by cases hm
      idle := fun u hu => .inl ?_, finishing := fun g hg => ?_, done := fun u hu => ?_ }
  · rw [hconn] at hu
    simp only [checkDisconnected, hmask]
    exact h.combined u (List.mem_filter.1 hu).1
  · -- a decoder that leaves is not running, so all its cores have been taken back
    obtain ⟨hi, hrun⟩ := (has_schedMask_swept s).1 hi
    obtain ⟨hu, hown⟩ := h.holder hi
    refine ⟨?_, ?_⟩
    · rw [hconn, List.mem_filter]
      refine ⟨hu, ?_⟩
      cases hl : s.leaves u with
      | false => rfl
      | true =>
        have hstop : (s.vdec u).status = .connected := by simp_all [leaves]
        have h0 := hidle (u := u) (by rw [hstop]; decide)
        exact absurd (hrun hu) (eq_zero_iff.1 h0 i)
    · simp only [checkDisconnected, hmask]
      exact hown
  · simp only [checkDisconnected, hstatus] at hu
    simp only [checkDisconnected, hactive]
    exact hidle hu
  · simp only [checkDisconnected, finishing_swept, hfinish] at hg
    cases hg
  · simp only [checkDisconnected, hdone] at hu
    simp only [checkDisconnected, hstatus]
    exact h.done u hu

/-- **A step of decoders that use the scheduler as they should.** -/
theorem step (h : DisconnectInv P s) {a : Action ι} (hg : MultiGuard P s a) (hs : Step P s a s') :
    DisconnectInv P s' := by
  have hcore := h.core.step hs
  have hlist := h.list.step h.core hs
  cases hs with
  | setStepMode =>
    exact h.quiet hcore hlist rfl (fun _ => rfl) (fun _ => rfl) (fun _ => rfl) (fun _ => rfl)
      (fun _ => le_rfl) rfl rfl h.finishing
  | connectNot => exact h
  | connect hv hslave => exact h.connect hv hslave hg hcore
  | disconnectNot => exact h
  | disconnect hfinish =>
    exact h.quiet hcore hlist rfl (fun _ => leave_frame (π := Vdec.status) (by intro; rfl))
      (fun _ => leave_frame (π := Vdec.coreMask) (by intro; rfl))
      (fun _ => leave_frame (π := Vdec.schedMask) (by intro; rfl))
      (fun _ => leave_frame (π := Vdec.activeMask) (by intro; rfl))
      (fun _ => (leave_frame (π := Vdec.inactiveDone) (by intro; rfl)).le) rfl rfl
      fun g hg => by simp [hfinish] at hg
  | @waited v =>
    refine h.quiet hcore hlist rfl (fun _ => modify_frame (π := Vdec.status) (by intro; rfl))
      (fun _ => modify_frame (π := Vdec.coreMask) (by intro; rfl))
      (fun _ => modify_frame (π := Vdec.schedMask) (by intro; rfl))
      (fun _ => modify_frame (π := Vdec.activeMask) (by intro; rfl)) (fun u => ?_) rfl rfl
      fun g hg => ?_
    · by_cases hu : u = v
      · subst hu
        dsimp only
        rw [modify_self]
        exact Nat.sub_le ..
      · dsimp only
        rw [modify_of_ne hu]
    · dsimp only
      rw [modify_frame (π := Vdec.schedMask) (by intro; rfl),
        modify_frame (π := Vdec.activeMask) (by intro; rfl)]
      exact h.finishing g hg
  | @request v mask => exact h.request (g := fun m => m ||| mask) hg hcore hlist
  | @release v mask => exact h.request (g := fun m => m &&& ~~~mask) hg hcore hlist
  | finish => exact h.finish hg.1 hg.2 hlist
  | @finishIdle v hfinish hidle =>
    refine h.quiet hcore hlist rfl (fun _ => rfl) (fun _ => rfl) (fun _ => rfl) (fun _ => rfl)
      (fun _ => le_rfl) rfl rfl ?_
    rintro g ⟨⟩
    exact ⟨(h.finishing _ hfinish).1, fun _ => hidle⟩
  | finishBusy =>
    exact h.quiet hcore hlist rfl (fun _ => rfl) (fun _ => rfl) (fun _ => rfl) (fun _ => rfl)
      (fun _ => le_rfl) rfl rfl fun g hg => by cases hg
  | finishSet hf => exact h.finishSet hf hcore hlist
  | up =>
    exact h.quiet hcore hlist rfl (fun _ => rfl) (fun _ => rfl) (fun _ => rfl) (fun _ => rfl)
      (fun _ => le_rfl) rfl rfl h.finishing
  | cleanup hthread _ hfinish => exact h.cleanup hthread hfinish
  | electSome hthread helect => exact h.elect hthread helect rfl hcore hlist
  | electNone hthread helect => exact h.elect hthread helect rfl hcore hlist
  | grant hthread => exact h.grant hthread hlist
  | mark hthread => exact h.mark hthread hlist
  | drop hthread => exact h.drop hthread hcore hlist
  | turn hthread =>
    exact h.quiet hcore hlist rfl (fun _ => rfl) (fun _ => rfl) (fun _ => rfl) (fun _ => rfl)
      (fun _ => le_rfl) (by rw [hthread]; rfl) (by rw [hthread]; rfl) h.finishing

theorem run {as : List (Action ι)}
    (r : Run (VdecCore.step P) (MultiGuard P) VdecCore.start as s) : DisconnectInv P s :=
  r.invariant .start fun _ _ _ h hg hs => h.step hg (step_sound hs)

end DisconnectInv

/-- **A decoder that was let go of is out of the scheduler**: when the completion that
`vdec_disconnect` waits for is there, the decoder is disconnected, holds no core and works on none,
and is neither connected, nor elected, nor the active decoder. -/
theorem let_go {as : List (Action ι)} (r : Run (step P) (MultiGuard P) start as s) {v : ι}
    (hdone : 0 < (s.vdec v).inactiveDone) :
    (s.vdec v).status = .disconnected ∧ (s.vdec v).schedMask = 0 ∧ (s.vdec v).activeMask = 0 ∧
      v ∉ s.connected ∧ (∀ m ∈ s.thread.elected, m.1 ≠ v) ∧ s.active ≠ some v := by
  have h := DisconnectInv.run r
  have hstatus := h.done v hdone
  have hv := h.list.notMem_of_disconnected hstatus
  have helected : ∀ m ∈ s.thread.elected, m.1 ≠ v := by
    rintro m hm rfl
    exact hv (h.core.elected m hm).1
  refine ⟨hstatus, h.schedMask_eq_zero hv, ?_, hv, helected, fun ha => hv (h.core.active v ha)⟩
  rcases h.idle v (by rw [hstatus]; decide) with h0 | ⟨m, hm, rfl⟩
  · exact h0
  · exact absurd rfl (helected m (elected_of_marking hm))

theorem let_go_after_run :
    ∃ s : VdecCore Bool, (s.vdec true).schedMask = 0 ∧ s.active ≠ some true := by
  obtain ⟨s, r, hdone⟩ := exists_run_of_exec (step twoDecoders) (MultiGuard twoDecoders) start
    (runOne true ++
      [.finish true multiMask, .finishTest, .finishSet, .up, .disconnect true, .up, .cleanup,
        .elect fun _ => readyReading, .drop 1])
    (fun s => 0 < (s.vdec true).inactiveDone) (by decide +kernel)
  have h := let_go r hdone
  exact ⟨s, h.2.1, h.2.2.2.2.2⟩

end VdecCore

end Media
