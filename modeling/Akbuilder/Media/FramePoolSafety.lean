import Akbuilder.Media.FramePool

/-!
# The frame pool: frames are not lost

## Main definitions

* `FramePool.places`: where a frame of the current pool can be
* `FramePool.ResetGuard`: when a decoder may be reset
* `FramePool.KeptInv`: each frame of the current pool is in one place

## Main results

* `FramePool.frames_kept`: no frame is lost or duplicated, and no queue overflows
-/

open Circulation Transition

namespace Media

/-- The frame the handler has in hand. -/
def IsrPc.hand : IsrPc → List Vframe
  | .idle => []
  | .handling _ vf _ => vf.toList

/-- The frame the timer has in hand. -/
def TimerPc.hand : TimerPc → List Vframe
  | .idle => []
  | .got vf | .give vf | .put vf => [vf]

/-- The handler is at a point of a well-formed program. -/
def IsrPc.Wf : IsrPc → Prop
  | .idle => True
  | .handling _ hand ops =>
    (hand = none ∧ ops = [.giveBack, .clear]) ∨ IsrOp.Wf hand.isSome ops

namespace IsrPc.Wf

variable {r : Report} {hand : Option Vframe} {ops : List IsrOp} {vf : Vframe}

theorem of_handles (h : IsrOp.Handles ops) : (handling r none ops).Wf := by
  cases h with
  | skip => exact .inl ⟨rfl, rfl⟩
  | pass wf => exact .inr wf

theorem get (h : (handling r hand (.get :: ops)).Wf) : hand = none ∧ IsrOp.Wf true ops := by
  rcases h with ⟨-, h⟩ | h
  · simp at h
  · cases hand with
    | none =>
      cases h with
      | get h => exact ⟨rfl, h⟩
    | some _ => cases h

theorem set {n : ℕ} (h : (handling r hand (.set n :: ops)).Wf) :
    hand.isSome = true ∧ IsrOp.Wf true ops ∧ IsrOp.sets ops = false := by
  rcases h with ⟨-, h⟩ | h
  · simp at h
  · cases hand with
    | none => cases h
    | some _ =>
      cases h with
      | set h hsets => exact ⟨rfl, h, hsets⟩

theorem inc (h : (handling r hand (.inc :: ops)).Wf) :
    hand.isSome = true ∧ IsrOp.Wf true ops ∧ IsrOp.sets ops = false := by
  rcases h with ⟨-, h⟩ | h
  · simp at h
  · cases hand with
    | none => cases h
    | some _ =>
      cases h with
      | inc h hsets => exact ⟨rfl, h, hsets⟩

theorem put {op : IsrOp} (h : (handling r hand (op :: ops)).Wf)
    (hop : op = .sort ∨ op = .display) :
    IsrOp.Wf false ops ∧ IsrOp.sets ops = false := by
  rcases h with ⟨-, h⟩ | h
  · rcases hop with rfl | rfl <;> simp at h
  · generalize hand.isSome = b at h
    rcases hop with rfl | rfl
    · cases h with
      | sort h hsets => exact ⟨h, hsets⟩
    · cases h with
      | display h hsets => exact ⟨h, hsets⟩

theorem giveBack (h : (handling r hand (.giveBack :: ops)).Wf) : hand = none ∧ ops = [.clear] := by
  rcases h with ⟨hnone, h⟩ | h
  · exact ⟨hnone, (List.cons.inj h).2⟩
  · generalize hand.isSome = b at h
    cases h

theorem clear (h : (handling r hand (.clear :: ops)).Wf) : hand = none ∧ ops = [] := by
  rcases h with ⟨-, h⟩ | h
  · simp at h
  · cases hand with
    | none =>
      cases h with
      | clear => exact ⟨rfl, rfl⟩
    | some _ => cases h

end IsrPc.Wf

namespace FramePool

variable {π : Provider} {s s' : FramePool} {vf : Vframe} {i : ℕ}

/-- The frames of the current pool among those the receiver has. -/
def heldNow (s : FramePool) : List Vframe := s.held.filter fun vf => decide (vf.pool = s.curPool)

/-- Where a frame of the current pool can be. -/
def places (s : FramePool) : List Vframe :=
  s.newframeQ ++ s.isr.hand ++ s.displayQ ++ s.heldNow ++ s.recycleQ ++ s.timer.hand

/-- **A decoder is reset** between two interrupts and two ticks of the timer, and when the receiver
has no frame of the pool that comes next. -/
def ResetGuard (π : Provider) (s : FramePool) : Action → Prop
  | .reset _ => s.isr = .idle ∧ s.timer = .idle ∧ ∀ vf ∈ s.held, vf.pool ≠ s.nextPool π
  | _ => True

instance : ∀ (s : FramePool) (a : Action), Decidable (ResetGuard π s a)
  | s, .reset _ =>
    inferInstanceAs
      (Decidable (s.isr = .idle ∧ s.timer = .idle ∧ ∀ vf ∈ s.held, vf.pool ≠ s.nextPool π))
  | _, .report _ | _, .take _ | _, .irq | _, .isr _ | _, .get | _, .putBack _ | _, .timerGet
  | _, .timer => isTrue trivial

/-- **Each frame of the current pool is in one place.** -/
structure KeptInv (π : Provider) (s : FramePool) : Prop where
  stock : Stock (Vframe.all π.vfPoolSize s.curPool) s.places
  held : π.twoPools = false → ∀ vf ∈ s.held, vf.pool = s.curPool
  wf : s.isr.Wf

theorem nodup_all (n : ℕ) (pool : Bool) : (Vframe.all n pool).Nodup :=
  List.nodup_range.map fun _ _ h => (Vframe.mk.inj h).2

@[simp]
theorem length_all (n : ℕ) (pool : Bool) : (Vframe.all n pool).length = n := by simp [Vframe.all]

theorem pool_of_mem_all {n : ℕ} {pool : Bool} (h : vf ∈ Vframe.all n pool) : vf.pool = pool := by
  obtain ⟨slot, -, rfl⟩ := List.mem_map.1 h
  rfl

/-- What putting a frame back takes from those of the current pool. -/
theorem count_erase_held {u : Vframe} (hheld : vf ∈ s.held) (hpool : vf.pool = s.curPool) :
    ((s.held.erase vf).filter fun u => decide (u.pool = s.curPool)).count u + [vf].count u =
      s.heldNow.count u := by
  have hpos : 1 ≤ s.held.count vf := List.count_pos_iff.2 hheld
  simp only [heldNow, count_filter_eq, decide_eq_true_eq, List.count_erase]
  by_cases hu : u = vf
  · subst hu
    simp [hpool]
    omega
  · have hne : ¬ vf = u := fun h => hu h.symm
    simp [hne]

theorem count_erase_old {u : Vframe} (hpool : vf.pool ≠ s.curPool) :
    ((s.held.erase vf).filter fun u => decide (u.pool = s.curPool)).count u =
      s.heldNow.count u := by
  simp only [heldNow, count_filter_eq, decide_eq_true_eq]
  split_ifs with hu
  · have hne : u ≠ vf := by
      rintro rfl
      exact hpool hu
    exact List.count_erase_of_ne hne
  · rfl

theorem heldNow_reset {force : Bool} (hheld : ∀ vf ∈ s.held, vf.pool ≠ s.nextPool π) :
    (s.reset π force).heldNow = [] :=
  List.filter_eq_nil_iff.2 fun vf hvf => by
    rw [decide_eq_true_iff]
    exact hheld vf hvf

theorem length_recycleQ_lt (hheld : vf ∈ s.held) (hpool : vf.pool = s.curPool) :
    s.recycleQ.length < s.places.length := by
  have hnow : vf ∈ s.heldNow := List.mem_filter.2 ⟨hheld, by simpa using hpool⟩
  have := List.length_pos_of_mem hnow
  simp only [places, List.length_append]
  omega

namespace KeptInv

theorem pool_eq (h : KeptInv π s) (hmem : vf ∈ s.places) : vf.pool = s.curPool :=
  pool_of_mem_all (h.stock.mem_iff.1 hmem)

/-- A step that moves frames. -/
theorem move (h : KeptInv π s) (hpool : s'.curPool = s.curPool)
    (hcount : ∀ vf, s'.places.count vf = s.places.count vf)
    (hheld : ∀ vf ∈ s'.held, vf ∈ s.held ∨ vf ∈ s.places) (hwf : s'.isr.Wf) : KeptInv π s' where
  stock := by
    rw [hpool]
    exact h.stock.move hcount
  held hone vf hvf := by
    rw [hpool]
    exact (hheld vf hvf).elim (h.held hone vf) h.pool_eq
  wf := hwf

/-- A reset puts a whole pool back. -/
theorem of_reset {force : Bool} (hisr : s.isr = .idle) (htimer : s.timer = .idle)
    (hheld : ∀ vf ∈ s.held, vf.pool ≠ s.nextPool π) (hone : π.twoPools = false → s.held = []) :
    KeptInv π (s.reset π force) where
  stock := by
    refine ⟨nodup_all _ _, fun vf => ?_⟩
    simp [places, heldNow_reset hheld]
    simp [reset, hisr, htimer, IsrPc.hand, TimerPc.hand]
  held h vf hvf := by
    have hvf : vf ∈ s.held := hvf
    simp [hone h] at hvf
  wf := by
    change IsrPc.Wf s.isr
    rw [hisr]
    trivial

theorem start {force : Bool} : KeptInv π (FramePool.start π force) :=
  .of_reset rfl rfl (by simp) fun _ => rfl

/-- With one pool the receiver has to put back all frames before a reset. -/
theorem held_eq_nil (h : KeptInv π s) (hheld : ∀ vf ∈ s.held, vf.pool ≠ s.nextPool π)
    (hone : π.twoPools = false) : s.held = [] := by
  refine List.eq_nil_iff_forall_not_mem.2 fun vf hvf => hheld vf hvf ?_
  simp [nextPool, hone, h.held hone vf hvf]

/-- There is room in a queue that a frame goes to. -/
theorem push_eq (h : KeptInv π s) {q : List Vframe} (hq : q.length < s.places.length) :
    push π.vfPoolSize q vf = q ++ [vf] :=
  h.stock.push_eq (by simp) hq

/-- A frame that the receiver puts back and the decoder keeps is of the current pool. -/
theorem pool_of_keeps (h : KeptInv π s) (hheld : vf ∈ s.held) (hkeeps : s.keeps π vf = true) :
    vf.pool = s.curPool := by
  cases htwo : π.twoPools with
  | false => exact h.held htwo vf hheld
  | true => simpa [keeps, htwo] using hkeeps

/-- **Each step moves frames.** -/
theorem step (h : KeptInv π s) {a : Action} (hg : ResetGuard π s a) (hs : Step π s a s') :
    KeptInv π s' := by
  cases hs with
  | report => exact h.move rfl (fun _ => rfl) (fun _ => .inl) h.wf
  | take => exact h.move rfl (fun _ => rfl) (fun _ => .inl) h.wf
  | @irq r hisr =>
    refine h.move rfl (fun vf => ?_) (fun _ => .inl) (.of_handles (π.handles s.flags r))
    simp [places, heldNow, hisr, IsrPc.hand]
  | @fatal _ r hand ops hisr =>
    obtain ⟨rfl, -⟩ := (hisr ▸ h.wf : IsrPc.Wf _).get
    refine h.move rfl (fun vf => ?_) (fun _ => .inl) trivial
    simp [places, heldNow, hisr, IsrPc.hand]
  | @isrGet _ r hand ops vf q hisr hq =>
    obtain ⟨rfl, hwf⟩ := (hisr ▸ h.wf : IsrPc.Wf _).get
    refine h.move rfl (fun vf => ?_) (fun _ => .inl) (.inr hwf)
    simp [places, heldNow, hisr, hq, IsrPc.hand, List.count_cons, Nat.add_assoc]
  | @set _ r hand ops n hisr =>
    obtain ⟨hhand, hwf, -⟩ := (hisr ▸ h.wf : IsrPc.Wf _).set
    refine h.move rfl (fun vf => ?_) (fun _ => .inl) (.inr (by rwa [hhand]))
    simp [places, heldNow, hisr, IsrPc.hand]
  | @inc _ r hand ops hisr =>
    obtain ⟨hhand, hwf, -⟩ := (hisr ▸ h.wf : IsrPc.Wf _).inc
    refine h.move rfl (fun vf => ?_) (fun _ => .inl) (.inr (by rwa [hhand]))
    simp [places, heldNow, hisr, IsrPc.hand]
  | @display _ r op ops vf flags hisr hop =>
    have hwf := ((hisr ▸ h.wf : IsrPc.Wf _).put hop).1
    rw [h.push_eq (by simp [places, hisr, IsrPc.hand]; omega)]
    refine h.move rfl (fun vf => ?_) (fun _ => .inl) (.inr hwf)
    simp [places, heldNow, hisr, IsrPc.hand, List.count_cons]
    omega
  | @skip _ r op ops vf flags hisr hop =>
    have hwf := ((hisr ▸ h.wf : IsrPc.Wf _).put hop).1
    rw [h.push_eq (by simp [places, hisr, IsrPc.hand]; omega)]
    refine h.move rfl (fun vf => ?_) (fun _ => .inl) (.inr hwf)
    simp [places, heldNow, hisr, IsrPc.hand, List.count_cons]
    omega
  | @giveBack _ r hand ops hisr =>
    obtain ⟨rfl, rfl⟩ := (hisr ▸ h.wf : IsrPc.Wf _).giveBack
    refine h.move rfl (fun vf => ?_) (fun _ => .inl) (.inr .clear)
    simp [places, heldNow, hisr, IsrPc.hand]
  | @clear _ r hand ops hisr =>
    obtain ⟨rfl, rfl⟩ := (hisr ▸ h.wf : IsrPc.Wf _).clear
    refine h.move rfl (fun vf => ?_) (fun _ => .inl) trivial
    simp [places, heldNow, hisr, IsrPc.hand]
  | @get vf q hq =>
    have hmem : vf ∈ s.places := by simp [places, hq]
    have hpool := h.pool_eq hmem
    refine h.move rfl (fun u => ?_) (fun u hu => ?_) h.wf
    · simp [places, heldNow, hq, hpool, List.count_cons]
      omega
    · rcases List.mem_cons.1 hu with rfl | hu
      · exact .inr hmem
      · exact .inl hu
  | @putBack vf hheld hkeeps =>
    have hpool := h.pool_of_keeps hheld hkeeps
    rw [h.push_eq (length_recycleQ_lt hheld hpool)]
    refine h.move rfl (fun u => ?_) (fun u hu => .inl (List.mem_of_mem_erase hu)) h.wf
    have := count_erase_held (u := u) hheld hpool
    simp only [places, heldNow, List.count_append] at this ⊢
    omega
  | @putBackOld vf hheld hkeeps =>
    have hpool : vf.pool ≠ s.curPool := fun hpool => by simp [keeps, hpool] at hkeeps
    refine h.move rfl (fun u => ?_) (fun u hu => .inl (List.mem_of_mem_erase hu)) h.wf
    have := count_erase_old (u := u) hpool
    simp only [places, heldNow, List.count_append] at this ⊢
    omega
  | @timerGet vf q htimer hq =>
    refine h.move rfl (fun vf => ?_) (fun _ => .inl) h.wf
    simp [places, heldNow, htimer, hq, TimerPc.hand, List.count_cons]
  | last htimer =>
    refine h.move rfl (fun vf => ?_) (fun _ => .inl) h.wf
    simp [places, heldNow, htimer, TimerPc.hand]
  | more htimer =>
    refine h.move rfl (fun vf => ?_) (fun _ => .inl) h.wf
    simp [places, heldNow, htimer, TimerPc.hand]
  | unused htimer =>
    refine h.move rfl (fun vf => ?_) (fun _ => .inl) h.wf
    simp [places, heldNow, htimer, TimerPc.hand]
  | give htimer =>
    refine h.move rfl (fun vf => ?_) (fun _ => .inl) h.wf
    simp [places, heldNow, htimer, TimerPc.hand]
  | @timerPut vf htimer =>
    rw [h.push_eq (by simp [places, htimer, TimerPc.hand])]
    refine h.move rfl (fun vf => ?_) (fun _ => .inl) h.wf
    simp [places, heldNow, htimer, TimerPc.hand, List.count_cons]
    omega
  | @timerPutOld vf htimer hkeeps =>
    have hpool := (h.pool_eq (by simp [places, htimer, TimerPc.hand]) : vf.pool = s.curPool)
    simp [keeps, hpool] at hkeeps
  | reset =>
    obtain ⟨hisr, htimer, hheld⟩ := hg
    exact .of_reset hisr htimer hheld (h.held_eq_nil hheld)

end KeptInv

/-- **No frame is lost or duplicated**: whatever the handler, the timer, the receiver and the ucode
do, each of the frames of the current pool is in one of the queues or in one pair of hands, as long
as a reset comes between two interrupts and two ticks, and after the receiver has given back the
frames of the pool that it puts into use; and what `vf_states` reports adds up to the pool without
the frames in hand. -/
theorem frames_kept {force : Bool} {as : List Action}
    (r : Run (step π) (ResetGuard π) (start π force) as s) :
    s.places.Nodup ∧ (∀ vf, vf ∈ s.places ↔ vf ∈ Vframe.all π.vfPoolSize s.curPool) ∧
      (s.vfStates π).bufFreeNum + (s.vfStates π).bufAvailNum + (s.vfStates π).bufRecycleNum +
        (s.isr.hand ++ s.heldNow ++ s.timer.hand).length = (s.vfStates π).vfPoolSize := by
  have h : KeptInv π s := r.invariant .start fun _ _ _ h hg hs => h.step hg (step_sound hs)
  refine ⟨List.nodup_iff_count_le_one.2 h.stock.count_le_one, fun _ => h.stock.mem_iff, ?_⟩
  have hlen := h.stock.length_eq
  simp only [places, List.length_append, length_all] at hlen
  simp only [vfStates, List.length_append]
  omega

/-- A picture of the MPEG-1/2 decoder in three fields, the first of which is displayed, put back
and taken by the timer. -/
theorem frames_kept_three_fields :
    ∃ s : FramePool, s.timer.hand.length = 1 ∧ s.places.Nodup := by
  obtain ⟨s, r, hs⟩ := exists_run_of_exec (step Vmpeg12.provider) (ResetGuard Vmpeg12.provider)
    (start Vmpeg12.provider false)
    [.report ⟨1, 0x4000, 0, false⟩, .irq, .isr 0, .isr 0, .isr 0, .get, .putBack ⟨true, 0⟩,
      .timerGet, .isr 0]
    (fun s => s.timer.hand.length = 1) (by decide +kernel)
  exact ⟨s, hs, (frames_kept r).1⟩

end FramePool

end Media
