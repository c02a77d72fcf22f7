import Akbuilder.Media.Balance
import Mathlib.Logic.Function.Basic

/-!
# The owner of the hint

Multi-instance decoders share one receiver of hints, and `vdec_core->hint_fr_vdec` points to the
instance that may hint. `vdec_init` sets it when it is `NULL` and `vdec_release` clears it; the
decoders themselves never look at it.

## Main definitions

* `World D`, `World.step`: any number of decoder instances and the owner pointer
* `World.OwnershipGuard`: only the owner requests hints, and it leaves none behind
* `World.BalanceGuard i`: the end test of the instance `i` meets a truthful variable

## Main results

* `World.owner_alive`: the owner pointer is `NULL` or points to an instance not released yet
* `World.SingleOwner.step`: under `OwnershipGuard` an instance that is not the owner stays quiet
* `World.closed_of_run`: under `BalanceGuard i` the session of an owner `i` is closed
-/

open Bracket Transition

namespace Media

/-- The instances of the core, with the driver of each, and `hint_fr_vdec`. -/
structure World {ι : Type} (D : ι → Driver) where
  hintFrVdec : Option ι
  inst : (i : ι) → Option (Session (D i))

namespace World

variable {ι : Type} [DecidableEq ι] {D : ι → Driver} {w w' : World D} {i j : ι}

/-- A step of the core: `vdec_init` of a new instance, or a step of a session. -/
inductive Action (D : ι → Driver)
  | vdecInit (i : ι) (c : (D i).Config) (isReset : Bool)
  | act (i : ι) (a : Session.Action (D i))

/-- No instance. -/
def empty (D : ι → Driver) : World D := ⟨none, fun _ => none⟩

/-- `hint_fr_vdec = NULL` in `vdec_release`. -/
def disowns {D : Driver} (s : Session D) : Session.Action D → Bool
  | .remove => s.todo.head? = some .disown
  | _ => false

/-- The step function. The first instance becomes the owner and hints; the others do not. -/
def step (w : World D) : Action D → Option (World D)
  | .vdecInit i c isReset =>
    match w.inst i with
    | some _ => none
    | none =>
      let owner := w.hintFrVdec.getD i
      some
        { hintFrVdec := some owner
          inst := Function.update w.inst i (some (Session.start (D i) (owner = i) c isReset)) }
  | .act i a =>
    (w.inst i).bind fun s =>
      (s.step (w.hintFrVdec = some i) a).map fun s' =>
        { hintFrVdec := if w.hintFrVdec = some i ∧ disowns s a then none else w.hintFrVdec
          inst := Function.update w.inst i (some s') }

/-- The notifications of an instance. -/
def log (w : World D) (i : ι) : List (Event Duration) := (w.inst i).elim [] Session.log

/-- **The cases of a step.** -/
inductive Step (w : World D) : Action D → World D → Prop
  | vdecInit {i : ι} {c : (D i).Config} {isReset : Bool} (hnone : w.inst i = none) :
      Step w (.vdecInit i c isReset)
        { hintFrVdec := some (w.hintFrVdec.getD i)
          inst := Function.update w.inst i
            (some (Session.start (D i) (w.hintFrVdec.getD i = i) c isReset)) }
  | act {i : ι} {a : Session.Action (D i)} {s s' : Session (D i)} (hi : w.inst i = some s)
      (hs : s.step (w.hintFrVdec = some i) a = some s') :
      Step w (.act i a)
        { hintFrVdec := if w.hintFrVdec = some i ∧ disowns s a then none else w.hintFrVdec
          inst := Function.update w.inst i (some s') }

/-- **A step is one of the cases.** -/
theorem step_sound {a : Action D} (h : w.step a = some w') : Step w a w' := by
  cases a with
  | vdecInit i c isReset =>
    simp only [step] at h
    split at h
    · cases h
    · next hnone =>
      obtain rfl := Option.some.inj h
      exact .vdecInit hnone
  | act i a =>
    obtain ⟨s, hi, h⟩ := Option.bind_eq_some_iff.mp h
    obtain ⟨s', hs, rfl⟩ := Option.map_eq_some_iff.mp h
    exact .act hi hs

/-- An instance after a step: untouched, initialised by it, or after its own step. -/
theorem Step.inst_cases {a : Action D} {t : Session (D j)} (h : Step w a w')
    (ht : w'.inst j = some t) :
    w.inst j = some t ∧ (∀ b, a ≠ .act j b) ∧ (w'.hintFrVdec = some j ↔ w.hintFrVdec = some j) ∨
      (∃ c isReset, a = .vdecInit j c isReset ∧
        t = Session.start (D j) (w'.hintFrVdec = some j) c isReset) ∨
      ∃ s b, a = .act j b ∧ w.inst j = some s ∧
        s.step (w.hintFrVdec = some j) b = some t ∧
        w'.hintFrVdec = if w.hintFrVdec = some j ∧ disowns s b then none else w.hintFrVdec := by
  cases h with
  | @vdecInit i c isReset hnone =>
    by_cases hji : j = i
    · subst hji
      simp only [Function.update_self, Option.some.injEq] at ht
      exact .inr (.inl ⟨c, isReset, rfl, by simp [← ht]⟩)
    · simp only [Function.update_of_ne hji] at ht
      refine .inl ⟨ht, by simp, ?_⟩
      cases w.hintFrVdec with
      | none => simpa using fun h => hji h.symm
      | some k => simp
  | @act i a s s' hi hs =>
    by_cases hji : j = i
    · subst hji
      simp only [Function.update_self, Option.some.injEq] at ht
      exact .inr (.inr ⟨s, a, rfl, hi, ht ▸ hs, rfl⟩)
    · simp only [Function.update_of_ne hji] at ht
      refine .inl ⟨ht, ?_, ?_⟩
      · intro b hb
        cases hb
        exact hji rfl
      · split
        · next h => simpa [h.1] using fun h => hji h.symm
        · rfl

/-- **The invariant rule for sessions**: what every session starts with and every step of it
keeps, whoever owns the hint, holds of every instance. -/
theorem forall_inst {P : ∀ i, Session (D i) → Prop} {G : World D → Action D → Prop}
    {as : List (Action D)}
    (hstart : ∀ i own c isReset, P i (Session.start (D i) own c isReset))
    (hstep : ∀ i own s a s', P i s → s.step own a = some s' → P i s')
    (r : Run step G (empty D) as w) : ∀ i s, w.inst i = some s → P i s := by
  refine r.invariant (I := fun w => ∀ i s, w.inst i = some s → P i s) (by simp [empty]) ?_
  intro w a w' h _ hs i s hi
  rcases (step_sound hs).inst_cases hi with ⟨hi, -⟩ | ⟨c, isReset, -, rfl⟩ | ⟨t, b, -, ht, hs, -⟩
  · exact h i s hi
  · exact hstart _ _ _ _
  · exact hstep _ _ _ _ _ (h i t ht) hs

/-! ## The owner -/

/-- A release that makes its end test before it gives the hint up. -/
structure ReleaseOrder (D : Driver) : Prop where
  once : D.remove.count .endHint = 1
  disowns : .disown ∈ D.remove
  ordered : ∀ t ∈ D.remove.tails, t.head? = some .disown → .endHint ∉ t

/-- The release gives the hint up with the step that clears `hint_fr_vdec`, and not before. -/
theorem disown_mem {D : Driver} {own : Bool} {s s' : Session D} {a : Session.Action D}
    (hs : s.step own a = some s') (hd : disowns s a = false) (h : .disown ∈ s.todo) :
    .disown ∈ s'.todo := by
  rcases Session.step_todo hs with ht | ⟨r, ht, ha⟩
  · rwa [ht]
  · rw [ht, List.mem_cons] at h
    refine h.resolve_left ?_
    rintro rfl
    rcases ha with rfl | ⟨-, hr⟩
    · simp [disowns, ht] at hd
    · cases hr

/-- **The owner is alive**: `hint_fr_vdec` is `NULL` or points to an instance that was initialised
and whose release has not given the hint up. -/
theorem owner_alive (hD : ∀ i, ReleaseOrder (D i)) {G : World D → Action D → Prop}
    {as : List (Action D)} (r : Run step G (empty D) as w) :
    ∀ i, w.hintFrVdec = some i → ∃ s, w.inst i = some s ∧ .disown ∈ s.todo := by
  refine r.invariant
    (I := fun w => ∀ i, w.hintFrVdec = some i → ∃ s, w.inst i = some s ∧ .disown ∈ s.todo)
    (by simp [empty]) ?_
  intro w a w' h _ hs j howner
  cases step_sound hs with
  | @vdecInit i c isReset hnone =>
    by_cases hji : j = i
    · subst hji
      exact ⟨_, Function.update_self .., (hD j).disowns⟩
    · have hw : w.hintFrVdec = some j := by
        cases hw : w.hintFrVdec with
        | none => simp only [hw] at howner; exact absurd (Option.some.inj howner).symm hji
        | some k => simpa [hw] using howner
      simpa only [Function.update_of_ne hji] using h j hw
  | @act i a s s' hi hst =>
    simp only at howner
    split at howner
    · cases howner
    · next hd =>
      by_cases hji : j = i
      · subst hji
        obtain ⟨t, ht, hmem⟩ := h j howner
        obtain rfl : s = t := Option.some.inj (hi.symm.trans ht)
        refine ⟨s', Function.update_self .., disown_mem hst ?_ hmem⟩
        simpa [howner] using hd
      · simpa only [Function.update_of_ne hji] using h j howner

/-! ## Balance -/

/-- **What keeps the session of an instance balanced**, at the steps of that instance. -/
def BalanceGuard (i : ι) (w : World D) : Action D → Prop
  | .vdecInit .. => True
  | .act j a => j = i → ∀ s ∈ w.inst j, s.BalanceGuard a

instance (i : ι) : ∀ (w : World D) (a : Action D), Decidable (BalanceGuard i w a)
  | _, .vdecInit .. => isTrue trivial
  | w, .act j a => by
    unfold BalanceGuard
    infer_instance

/-- The session of an instance that owns the hint until its end test is over. -/
structure OwnerInv (i : ι) (w : World D) (s : Session (D i)) : Prop where
  inst : w.inst i = some s
  balance : s.BalanceInv
  suffix : s.todo ∈ (D i).remove.tails
  owner : .endHint ∈ s.todo → w.hintFrVdec = some i

/-- An owner is balanced so far. -/
theorem balanceInv_of_owner (hD : ∀ i, ReleaseOrder (D i)) {as : List (Action D)}
    (r : Run step (BalanceGuard i) (empty D) as w) (howner : w.hintFrVdec = some i)
    {s : Session (D i)} (hi : w.inst i = some s) : s.BalanceInv := by
  revert s
  revert howner
  refine r.invariant
    (I := fun w => w.hintFrVdec = some i → ∀ {s}, w.inst i = some s → s.BalanceInv)
    (by simp [empty]) ?_
  intro w a w' h hg hs howner t ht
  rcases (step_sound hs).inst_cases ht with ⟨hi, -, hown⟩ | ⟨c, isReset, -, rfl⟩ |
    ⟨s, b, rfl, hi, hst, hown⟩
  · exact h (hown.mp howner) hi
  · simp only [howner, decide_true]
    exact .start (hD i).once c isReset
  · rw [hown] at howner
    split at howner
    · cases howner
    · exact (h howner hi).step (fun _ => by simp [howner]) (hg rfl s hi) hst

theorem OwnerInv.step (hD : ReleaseOrder (D i)) {a : Action D} {s : Session (D i)}
    (h : OwnerInv i w s) (hg : BalanceGuard i w a) (hs : w.step a = some w') :
    ∃ s', OwnerInv i w' s' := by
  cases step_sound hs with
  | @vdecInit j c isReset hnone =>
    have hij : i ≠ j := by
      rintro rfl
      simp [h.inst] at hnone
    refine ⟨s, ?_, h.balance, h.suffix, fun he => by simp [h.owner he]⟩
    simpa only [Function.update_of_ne hij] using h.inst
  | @act j a t t' hj hst =>
    by_cases hij : i = j
    · subst hij
      obtain rfl : t = s := Option.some.inj (hj.symm.trans h.inst)
      have hown : t.todo.head? = some .endHint → decide (w.hintFrVdec = some i) = true := by
        intro hh
        simpa using h.owner (List.mem_of_mem_head? hh)
      refine ⟨t', Function.update_self .., h.balance.step hown (hg rfl t hj) hst,
        Session.todo_mem_tails h.suffix hst, ?_⟩
      intro he
      have he' := Session.mem_todo_of_step hst he
      -- the end test comes before the step that gives the hint up
      have hd : disowns t a = false := by
        cases a with
        | remove => simpa [disowns] using fun hh => hD.ordered _ h.suffix hh he'
        | _ => rfl
      simp [hd, h.owner he']
    · -- a step of another instance leaves the session and its ownership alone
      refine ⟨s, ?_, h.balance, h.suffix, ?_⟩
      · simpa only [Function.update_of_ne hij] using h.inst
      · intro he
        simp [h.owner he, hij]

/-- **The session of an owner is closed** once its release is over, and stays so. -/
theorem closed_of_run (hD : ∀ i, ReleaseOrder (D i)) {as bs : List (Action D)}
    (r : Run step (BalanceGuard i) (empty D) as w) (howner : w.hintFrVdec = some i)
    (r' : Run step (BalanceGuard i) w bs w') {s : Session (D i)} (hi : w'.inst i = some s)
    (hreleased : s.todo = []) : Closed s.log := by
  -- the session at the first of the two moments, with what every session keeps
  obtain ⟨s₀, h₀, -⟩ := owner_alive hD r i howner
  have hsuffix := forall_inst (P := fun i s => s.todo ∈ (D i).remove.tails)
    (fun i own c isReset => by simp [Session.start, List.mem_tails])
    (fun i own s a s' h hs => Session.todo_mem_tails h hs) r i s₀ h₀
  have hinv : ∃ s, OwnerInv i w s :=
    ⟨s₀, h₀, balanceInv_of_owner hD r howner h₀, hsuffix, fun _ => howner⟩
  obtain ⟨t, ht⟩ := r'.invariant (I := fun w => ∃ s, OwnerInv i w s) hinv (by
    rintro _ _ _ ⟨_, h⟩ hg hs
    exact h.step (hD i) hg hs)
  obtain rfl : t = s := Option.some.inj (ht.inst.symm.trans hi)
  exact (ht.balance.closed (by simp [hreleased])).1

/-! ## Single ownership -/

/-- The step writes `VDEC_NEED_HINT`. -/
def requests {D : Driver} (s : Session D) : Session.Action D → Bool
  | .handler => s.handler = .marking
  | _ => false

/-- A session that does not hint: no request, and none being served. -/
def Silent {D : Driver} (s : Session D) : Prop :=
  s.hint .frHintState = .noNeedHint ∧ s.beforeTest = true

instance {D : Driver} (s : Session D) : Decidable (Silent s) :=
  inferInstanceAs (Decidable (_ ∧ _))

/-- **What keeps a single owner**: only the owner writes `VDEC_NEED_HINT`, and it gives the hint up
with no request left and none being served. -/
def OwnershipGuard (w : World D) : Action D → Prop
  | .vdecInit .. => True
  | .act i a => ∀ s ∈ w.inst i, (requests s a = true → w.hintFrVdec = some i) ∧
      (disowns s a = true → w.hintFrVdec = some i → Silent s)

instance : ∀ (w : World D) (a : Action D), Decidable (OwnershipGuard w a)
  | _, .vdecInit .. => isTrue trivial
  | w, .act i a => by
    unfold OwnershipGuard
    infer_instance

/-- A decoder that hints through `vdec->fr_hint_state`. -/
structure UsesFrHintState (D : Driver) : Prop where
  own : D.own = .frHintState
  request : D.request = .frHintState

/-- Nothing of the session touches the static `fr_hint_status`. -/
structure OnlyFrHintState {D : Driver} (s : Session D) : Prop where
  hint : s.hint .frHintStatus = .noNeedHint
  var : ∀ pc, s.notifyWork.running = some pc → ∀ v, pc.var? = some v → v = .frHintState

namespace OnlyFrHintState

variable {D : Driver} {own : Bool} {s s' : Session D} {a : Session.Action D}

theorem start (hD : UsesFrHintState D) (own : Bool) (c : D.Config) (isReset : Bool) :
    OnlyFrHintState (Session.start D own c isReset) := by
  constructor <;> simp [Session.start, hD.own]

theorem step (hD : UsesFrHintState D) (h : OnlyFrHintState s) (hs : s.step own a = some s') :
    OnlyFrHintState s' := by
  have hcongr {t : Session D} (hhint : t.hint .frHintStatus = s.hint .frHintStatus)
      (hrun : t.notifyWork.running = s.notifyWork.running) : OnlyFrHintState t :=
    ⟨hhint.trans h.hint, hrun ▸ h.var⟩
  have hfound {v : HintVar} (hneed : s.hint v = .needHint) : v = .frHintState := by
    cases v with
    | frHintState => rfl
    | frHintStatus => simp [h.hint] at hneed
  cases Session.step_sound hs with
  | irq | store | inactive | drift | schedule | timeout | reset => exact hcongr rfl rfl
  | mark => exact hcongr (by simp [hD.request]) rfl
  | workStart | testNone | deliverLast | resetCancel =>
    exact ⟨h.hint, by simp [NotifyPc.var?]⟩
  | testMark _ _ hneed | testRead _ _ hneed =>
    exact ⟨h.hint, by simpa [NotifyPc.var?] using hfound hneed⟩
  | workMark hr =>
    obtain rfl := h.var _ hr _ rfl
    exact ⟨by simpa using h.hint, by simp [NotifyPc.var?]⟩
  | read hr | deliver hr =>
    obtain rfl := h.var _ hr _ rfl
    exact ⟨h.hint, by simp [NotifyPc.var?]⟩
  | workMarkAfter hr =>
    obtain rfl := h.var _ hr _ rfl
    exact ⟨by simpa using h.hint, by simp⟩
  | remove htodo ht =>
    rcases Session.removeStep_cases ht with ⟨rfl, rfl⟩ | ⟨-, -, hhint, -, hrun⟩
    · cases own with
      | false => exact hcongr rfl rfl
      | true => exact hcongr (by simp [hD.own]) rfl
    · exact hcongr (congrFun hhint _) hrun

/-- A silent session that makes no request stays silent. -/
theorem silent_step (hD : UsesFrHintState D) (h : OnlyFrHintState s) (hsilent : Silent s)
    (hreq : requests s a = false) (hs : s.step own a = some s') : Silent s' := by
  obtain ⟨hhint, hb⟩ := hsilent
  have hne (v : HintVar) : s.hint v ≠ .needHint := by
    cases v with
    | frHintState => simp [hhint]
    | frHintStatus => simp [h.hint]
  cases Session.step_sound hs with
  | irq | store | inactive | drift | schedule | timeout | reset => exact ⟨hhint, hb⟩
  | mark hm => simp [requests, hm] at hreq
  | workStart | testNone | resetCancel => exact ⟨hhint, rfl⟩
  | testMark _ _ hneed | testRead _ _ hneed => exact absurd hneed (hne _)
  | workMark hr | read hr | deliverLast hr | deliver hr | workMarkAfter hr =>
    simp [Session.beforeTest, hr] at hb
  | remove htodo ht =>
    rcases Session.removeStep_cases ht with ⟨rfl, rfl⟩ | ⟨-, -, hh, -, hrun⟩
    · cases own with
      | false => exact ⟨hhint, hb⟩
      | true => exact ⟨by simp [hD.own], hb⟩
    · refine ⟨(congrFun hh _).trans hhint, ?_⟩
      rwa [Session.beforeTest, hrun]

end OnlyFrHintState

/-- An instance that is not the owner is silent. -/
def SingleOwner (w : World D) : Prop :=
  ∀ i s, w.inst i = some s → OnlyFrHintState s ∧ (w.hintFrVdec ≠ some i → Silent s)

/-- **A guarded step keeps the owner single.** -/
theorem SingleOwner.step (hD : ∀ i, UsesFrHintState (D i)) {a : Action D} (h : SingleOwner w)
    (hg : OwnershipGuard w a) (hs : w.step a = some w') : SingleOwner w' := by
  intro j t ht
  rcases (step_sound hs).inst_cases ht with ⟨hj, -, hown⟩ | ⟨c, isReset, -, rfl⟩ |
    ⟨s, b, rfl, hj, hst, hown⟩
  · exact ⟨(h j t hj).1, fun hne => (h j t hj).2 (hown.not.mp hne)⟩
  · refine ⟨.start (hD j) _ c isReset, ?_⟩
    intro hne
    simp [hne, Silent, Session.start, Session.beforeTest, (hD j).own]
  · obtain ⟨honly, hsilent⟩ := h j s hj
    obtain ⟨hreq, hdisown⟩ := hg s hj
    refine ⟨honly.step (hD j) hst, ?_⟩
    intro hne
    have hs : Silent s ∧ requests s b = false := by
      by_cases howner : w.hintFrVdec = some j
      · -- the owner has just given the hint up
        have hd : disowns s b = true := by
          by_contra hd
          rw [hown, if_neg (by simp [hd]), howner] at hne
          exact hne rfl
        refine ⟨hdisown hd howner, ?_⟩
        cases b <;> first | rfl | simp [disowns] at hd
      · exact ⟨hsilent howner, by simpa [howner] using hreq⟩
    exact honly.silent_step (hD j) hs.1 hs.2 hst

/-- No step forgets an instance. -/
theorem inst_eq_none {a : Action D} (hs : w.step a = some w') (h : w'.inst i = none) :
    w.inst i = none := by
  cases step_sound hs with
  | @vdecInit j _ _ _ | @act j _ _ _ _ _ =>
    by_cases hij : i = j
    · subst hij
      simp at h
    · simpa only [Function.update_of_ne hij] using h

/-- **Every notification is the owner's.** -/
theorem SingleOwner.log_step {a : Action D} (h : SingleOwner w) (hs : w.step a = some w')
    (hlog : w'.log i ≠ w.log i) : w'.hintFrVdec = some i := by
  cases ht : w'.inst i with
  | none => simp [log, ht, inst_eq_none hs ht] at hlog
  | some t =>
    rcases (step_sound hs).inst_cases ht with ⟨hi, -⟩ | ⟨c, isReset, rfl, rfl⟩ |
      ⟨s, b, rfl, hi, hst, hown⟩
    · simp [log, ht, hi] at hlog
    · by_contra hne
      cases step_sound hs with
      | vdecInit hnone =>
        simp [log, hnone, Session.start] at hlog
        exact hne (congrArg some hlog.1)
    · have hlog' : t.log ≠ s.log := by simpa [log, ht, hi] using hlog
      have howner : w.hintFrVdec = some i ∧ disowns s b = false := by
        rcases Session.step_log hst hlog' with ⟨⟨v, d, hr⟩, rfl⟩ | ⟨hhead, ho, rfl⟩
        · -- a session that is not the owner's has nothing to deliver
          refine ⟨by_contra fun hne => ?_, rfl⟩
          have hb := ((h i s hi).2 hne).2
          simp [Session.beforeTest, hr] at hb
        · exact ⟨by simpa using ho, by simp [disowns, hhead]⟩
      rw [hown, if_neg (by simp [howner.2]), howner.1]

theorem singleOwner_of_run (hD : ∀ i, UsesFrHintState (D i)) {as : List (Action D)}
    (r : Run step OwnershipGuard (empty D) as w) : SingleOwner w :=
  r.invariant (fun i s hi => by simp [empty] at hi) fun _ _ _ h hg hs => h.step hD hg hs

end World

end Media
