import Akbuilder.Media.FramePoolSafety

/-!
# The frame pool: buffers are not given back too early

## Main definitions

* `FramePool.At`: the places of a buffer
* `FramePool.Orderly`: the order of steps the decoders rely on
* `FramePool.BufferInv`: each buffer is in one place, and `vfbuf_use` counts its frames

## Main results

* `FramePool.buffers_kept`: no buffer is lost, miscounted, or given back while a frame shows it
* `FramePool.never_fatal`: the handler finds a frame whenever it needs one
* `Vmpeg12.any_order`: both hold for the MPEG-1/2 decoder in whatever order the steps are taken
-/

open Circulation Transition

namespace Media

/-- The frame in the timer's hand that `vfbuf_use` still counts. -/
def TimerPc.counted : TimerPc → List Vframe
  | .got vf => [vf]
  | .idle | .give _ | .put _ => []

/-- The frame in the timer's hand that `vfbuf_use` does not count any more. -/
def TimerPc.done : TimerPc → List Vframe
  | .give vf | .put vf => [vf]
  | .idle | .got _ => []

/-- What the handler is still to do with buffer `i`. -/
def IsrPc.left (π : Provider) (count : List IsrOp → ℕ) : IsrPc → ℕ → ℕ
  | .idle, _ => 0
  | .handling r _ ops, i => if π.bufferIndex r = i then count ops else 0

/-- The handler is to give the buffer back at once. -/
def IsrPc.returns : IsrPc → Bool
  | .idle => false
  | .handling _ _ ops => decide (.giveBack ∈ ops)

/-- A picture reported is still to be passed on, or given back. -/
def IsrPc.pending : IsrPc → Bool
  | .idle => true
  | .handling _ _ ops => decide (0 < IsrOp.puts ops) || decide (.giveBack ∈ ops)

/-- A picture reported has not been counted or given back. -/
def IsrPc.fresh : IsrPc → Bool
  | .idle => true
  | .handling _ _ ops => IsrOp.sets ops || decide (.giveBack ∈ ops)

/-- The places of a buffer. -/
inductive Where
  | ucode
  | bufferIn
  | timer
  | frames

namespace IsrOp.Wf

/-- A frame in hand is passed on. -/
theorem puts_pos {ops : List IsrOp} (h : Wf true ops) : 0 < puts ops := by
  generalize hb : true = b at h
  induction h with
  | clear | get => cases hb
  | set _ _ ih | inc _ _ ih => exact ih hb
  | sort | display => exact Nat.succ_pos _

theorem clear_mem {b : Bool} {ops : List IsrOp} (h : Wf b ops) : .clear ∈ ops := by
  induction h with
  | clear => exact List.mem_singleton_self _
  | get _ ih | set _ _ ih | inc _ _ ih | sort _ _ ih | display _ _ ih =>
    exact List.mem_cons_of_mem _ ih

theorem giveBack_notMem {b : Bool} {ops : List IsrOp} (h : Wf b ops) : .giveBack ∉ ops := by
  induction h with
  | clear => decide
  | get _ ih | set _ _ ih | inc _ _ ih | sort _ _ ih | display _ _ ih => simpa using ih

end IsrOp.Wf

namespace FramePool

variable {π : Provider} {s s' : FramePool} {vf : Vframe} {i : ℕ}

/-- The frames that `vfbuf_use` counts. -/
def counted (s : FramePool) : List Vframe :=
  s.displayQ ++ s.heldNow ++ s.recycleQ ++ s.timer.counted

/-- How many frames show a buffer. -/
def uses (s : FramePool) (i : ℕ) : ℕ := (s.counted.map s.index).count i

/-- A buffer is the ucode's; or in `BUFFERIN`; or about to be written there by the timer; or it is
shown by frames, or reported and to be shown. -/
def At (π : Provider) (s : FramePool) : Where → ℕ → Prop
  | .ucode, i => s.ucode i = true
  | .bufferIn, i => s.bufferIn = π.bufferIn i
  | .timer, i => ∃ vf, s.timer = .give vf ∧ s.index vf = i
  | .frames, i =>
    0 < s.uses i ∨ ∃ r, s.bufferOut = some r ∧ π.bufferIndex r = i ∧ s.isr.pending = true

/-- **The order of steps that the decoders rely on**: the timer does not count a frame down while
the handler is still to count further frames of the same buffer, a buffer is given back at once
only when `BUFFERIN` is free, and a decoder is reset as in `ResetGuard`. -/
def Orderly (π : Provider) (s : FramePool) : Action → Prop
  | .timer => ∀ vf ∈ s.timer.counted, s.isr.left π IsrOp.incs (s.index vf) = 0
  | .isr _ => s.isr.returns = true → s.bufferIn = 0 ∧ s.timer = .idle
  | .reset force => ResetGuard π s (.reset force)
  | _ => True

instance : ∀ (s : FramePool) (a : Action), Decidable (Orderly π s a)
  | s, .timer =>
    inferInstanceAs
      (Decidable (∀ vf ∈ s.timer.counted, s.isr.left π IsrOp.incs (s.index vf) = 0))
  | s, .isr _ =>
    inferInstanceAs (Decidable (s.isr.returns = true → s.bufferIn = 0 ∧ s.timer = .idle))
  | s, .reset force => inferInstanceAs (Decidable (ResetGuard π s (.reset force)))
  | _, .report _ | _, .take _ | _, .irq | _, .get | _, .putBack _ | _, .timerGet => isTrue trivial

theorem ResetGuard.of_orderly {a : Action} (hg : Orderly π s a) : ResetGuard π s a := by
  cases a with
  | reset force => exact hg
  | _ => trivial

/-- **Each buffer is in one place**, and `vfbuf_use` counts the frames that show it, up to those
the handler has counted and not passed on, or the other way round. -/
structure BufferInv (π : Provider) (s : FramePool) : Prop where
  kept : KeptInv π s
  index : ∀ vf ∈ s.counted, s.index vf < π.bufferNum
  hand : ∀ r vf ops, s.isr = .handling r (some vf) ops → s.index vf = π.bufferIndex r
  handling : ∀ r hand ops, s.isr = .handling r hand ops → s.bufferOut = some r
  giving : ∀ vf, s.timer = .give vf → s.index vf < π.bufferNum
  free : ∀ vf, s.timer = .got vf ∨ s.timer = .give vf → s.bufferIn = 0
  count : ∀ i, s.vfbufUse i + s.isr.left π IsrOp.incs i = s.uses i + s.isr.left π IsrOp.puts i
  few : ∀ i, s.uses i + s.isr.left π IsrOp.puts i ≤ 3
  fresh : ∀ r, s.bufferOut = some r → s.isr.fresh = true →
    s.uses (π.bufferIndex r) = 0 ∧ s.vfbufUse (π.bufferIndex r) = 0
  loc : ∃ loc : ℕ → Where, ∀ i < π.bufferNum, ∀ w, s.At π w i ↔ loc i = w

theorem places_perm (s : FramePool) :
    s.places.Perm (s.newframeQ ++ s.isr.hand ++ s.timer.done ++ s.counted) := by
  apply List.perm_iff_count.2
  intro vf
  cases htimer : s.timer <;>
    simp only [places, counted, htimer, TimerPc.hand, TimerPc.done, TimerPc.counted,
      List.count_append, List.count_nil] <;> omega

/-- A frame that is free, or in the handler's hand, or done with, is not counted. -/
theorem KeptInv.notMem_counted (h : KeptInv π s)
    (hvf : vf ∈ s.newframeQ ++ s.isr.hand ++ s.timer.done) : vf ∉ s.counted := by
  have hnodup : s.places.Nodup := List.nodup_iff_count_le_one.2 h.stock.count_le_one
  rw [s.places_perm.nodup_iff] at hnodup
  exact fun hmem => List.disjoint_of_nodup_append hnodup hvf hmem

/-- The frame the timer is done with is neither free nor in the handler's hand. -/
theorem KeptInv.ne_of_done {u : Vframe} (h : KeptInv π s)
    (hvf : vf ∈ s.newframeQ ++ s.isr.hand) (hu : u ∈ s.timer.done) : u ≠ vf := by
  have hnodup : s.places.Nodup := List.nodup_iff_count_le_one.2 h.stock.count_le_one
  rw [s.places_perm.nodup_iff] at hnodup
  rintro rfl
  exact List.disjoint_of_nodup_append (List.nodup_append.1 hnodup).1 hvf hu

section Uses

theorem uses_congr (hperm : s'.counted.Perm s.counted)
    (hindex : ∀ vf ∈ s.counted, s'.index vf = s.index vf) (i : ℕ) : s'.uses i = s.uses i := by
  rw [uses, (hperm.map s'.index).count_eq i, List.map_congr_left hindex]
  rfl

/-- A frame more that shows a buffer. -/
theorem uses_cons (hperm : s'.counted.Perm (vf :: s.counted)) (hindex : s'.index = s.index)
    (i : ℕ) : s'.uses i = s.uses i + if s.index vf = i then 1 else 0 := by
  rw [uses, (hperm.map s'.index).count_eq i, hindex, List.map_cons, List.count_cons]
  simp [uses]

theorem uses_pos (h : vf ∈ s.counted) : 0 < s.uses (s.index vf) :=
  List.count_pos_iff.2 (List.mem_map_of_mem h)

end Uses

namespace BufferInv

theorem loc_congr (h : BufferInv π s)
    (heq : ∀ i < π.bufferNum, ∀ w, s'.At π w i ↔ s.At π w i) :
    ∃ loc : ℕ → Where, ∀ i < π.bufferNum, ∀ w, s'.At π w i ↔ loc i = w := by
  obtain ⟨loc, hloc⟩ := h.loc
  exact ⟨loc, fun i hi w => (heq i hi w).trans (hloc i hi w)⟩

/-- One buffer changes its place. -/
theorem loc_move (h : BufferInv π s) {b : ℕ} {w : Where}
    (hrest : ∀ i < π.bufferNum, i ≠ b → ∀ w, s'.At π w i ↔ s.At π w i)
    (hb : ∀ w', s'.At π w' b ↔ w = w') :
    ∃ loc : ℕ → Where, ∀ i < π.bufferNum, ∀ w, s'.At π w i ↔ loc i = w := by
  obtain ⟨loc, hloc⟩ := h.loc
  refine ⟨Function.update loc b w, fun i hi w' => ?_⟩
  by_cases hib : i = b
  · subst hib
    rw [Function.update_self]
    exact hb w'
  · rw [Function.update_of_ne hib]
    exact (hrest i hi hib w').trans (hloc i hi w')

/-- A buffer is in one place only. -/
theorem at_unique (h : BufferInv π s) {w w' : Where} (hi : i < π.bufferNum) (hw : s.At π w i)
    (hw' : s.At π w' i) : w = w' := by
  obtain ⟨loc, hloc⟩ := h.loc
  exact ((hloc i hi w).1 hw).symm.trans ((hloc i hi w').1 hw')

theorem not_at (h : BufferInv π s) {u w : Where} (hi : i < π.bufferNum) (hw : s.At π w i)
    (hne : u ≠ w) : ¬ s.At π u i := fun hu => hne (h.at_unique hi hu hw)

/-- **There is always a frame for the handler**: at most three for each buffer are out, and one in
the timer's hand. -/
theorem newframeQ_ne_nil (h : BufferInv π s) (hhand : s.isr.hand = []) : s.newframeQ ≠ [] := by
  intro hnil
  have hlen : s.counted.length ≤ π.bufferNum * 3 :=
    length_le_mul h.index fun i _ => (Nat.le_add_right _ _).trans (h.few i)
  have hdone : s.timer.done.length ≤ 1 := by cases s.timer <;> simp [TimerPc.done]
  have htotal := s.places_perm.length_eq
  rw [h.kept.stock.length_eq, length_all, hnil, hhand] at htotal
  simp only [List.append_nil, List.nil_append, List.length_append] at htotal
  have := π.outside_lt
  omega

/-- A step that leaves the frames of each buffer, the handler and the registers as they are. -/
theorem quiet (h : BufferInv π s) (hkept : KeptInv π s') (hperm : s'.counted.Perm s.counted)
    (hindex : s'.index = s.index) (huse : s'.vfbufUse = s.vfbufUse) (hisr : s'.isr = s.isr)
    (hout : s'.bufferOut = s.bufferOut) (hin : s'.bufferIn = s.bufferIn)
    (hucode : s'.ucode = s.ucode) (hgive : ∀ vf, s'.timer = .give vf ↔ s.timer = .give vf)
    (hfree : ∀ vf, s'.timer = .got vf ∨ s'.timer = .give vf → s.bufferIn = 0) :
    BufferInv π s' := by
  have huses := uses_congr hperm fun _ _ => congrFun hindex _
  refine ⟨hkept, fun vf hvf => ?_, ?_, ?_, fun vf ht => ?_, fun vf ht => ?_, ?_, ?_, ?_,
    h.loc_congr fun i _ w => ?_⟩
  · rw [hindex]
    exact h.index vf (hperm.mem_iff.1 hvf)
  · rw [hisr, hindex]
    exact h.hand
  · rw [hisr, hout]
    exact h.handling
  · rw [hindex]
    exact h.giving vf ((hgive vf).1 ht)
  · rw [hin]
    exact hfree vf ht
  · simpa only [huse, hisr, huses] using h.count
  · simpa only [hisr, huses] using h.few
  · simpa only [hout, hisr, huse, huses] using h.fresh
  · cases w <;> simp only [At, hucode, hin, hgive, hindex, huses, hout, hisr]

/-- A buffer is with frames when one shows it, or the handler is to show it. -/
theorem at_frames_iff {r : Report} {hand : Option Vframe} {ops : List IsrOp}
    (h : BufferInv π s) (hisr : s.isr = .handling r hand ops) :
    s.At π .frames i ↔
      0 < s.uses i ∨ π.bufferIndex r = i ∧ (IsrPc.handling r hand ops).pending = true := by
  simp [At, hisr, h.handling r hand ops hisr]

/-- A buffer that is not the one reported is with frames only when one shows it. -/
theorem at_frames_of_ne {r : Report} (hout : s.bufferOut = some r) (hi : i ≠ π.bufferIndex r) :
    s.At π .frames i ↔ 0 < s.uses i := by
  simp [At, hout, hi.symm]

theorem irq (h : BufferInv π s) (hkept : KeptInv π s') (hs : Step π s .irq s') :
    BufferInv π s' := by
  cases hs with
  | @irq r hisr hout =>
    have hfresh := h.fresh r hout (by rw [hisr]; rfl)
    have hhandles := π.handles s.flags r
    generalize π.isr s.flags r = ops at hkept hhandles ⊢
    have hpending : (IsrPc.handling r none ops).pending = true := by
      cases hhandles with
      | skip => rfl
      | pass _ _ hpos => simp [IsrPc.pending, hpos]
    have hcounted : IsrOp.incs ops = IsrOp.puts ops ∧ IsrOp.puts ops ≤ 3 := by
      cases hhandles with
      | skip => exact ⟨rfl, by decide⟩
      | pass _ hcount _ hle => exact ⟨hcount, hle⟩
    have huses : ∀ i, s.uses i ≤ 3 ∧ s.vfbufUse i = s.uses i := fun i => by
      simpa [hisr, IsrPc.left] using And.intro (h.few i) (h.count i)
    refine ⟨hkept, h.index, fun _ _ _ hs => ?_, fun r' _ _ hs => ?_, h.giving, h.free, fun i => ?_,
      fun i => ?_, fun r' hr' _ => ?_, h.loc_congr fun i _ w => ?_⟩
    · simp at hs
    · obtain ⟨rfl, -⟩ := IsrPc.handling.inj hs
      exact hout
    · change s.vfbufUse i + _ = (s.uses i : ℤ) + _
      rw [(huses i).2]
      simp [IsrPc.left, hcounted.1]
    · change s.uses i + _ ≤ 3
      by_cases hi : π.bufferIndex r = i
      · subst hi
        simpa [IsrPc.left, hfresh.1] using hcounted.2
      · simpa [IsrPc.left, hi] using (huses i).1
    · obtain rfl : r = r' := Option.some.inj (hout.symm.trans hr')
      exact hfresh
    · cases w with
      | frames =>
        refine or_congr_right (exists_congr fun _ => and_congr_right fun _ =>
          and_congr_right fun _ => ?_)
        rw [hisr]
        exact iff_of_true hpending rfl
      | _ => rfl

/-- **A step of the handler within a picture**, which it is still to pass on before, and which is
shown, or still to be passed on, after. -/
theorem proceed (h : BufferInv π s) (hkept : KeptInv π s') {r : Report}
    {hand hand' : Option Vframe} {op : IsrOp} {ops : List IsrOp}
    (hisr : s.isr = .handling r hand (op :: ops)) (hisr' : s'.isr = .handling r hand' ops)
    (hout : s'.bufferOut = s.bufferOut) (hin : s'.bufferIn = s.bufferIn)
    (hucode : s'.ucode = s.ucode) (htimer : s'.timer = s.timer)
    (hgive : ∀ vf, s.timer = .give vf → s'.index vf = s.index vf)
    (hindex : ∀ vf ∈ s'.counted, s'.index vf < π.bufferNum)
    (hhand : ∀ vf ∈ hand', s'.index vf = π.bufferIndex r)
    (hother : ∀ i ≠ π.bufferIndex r, s'.uses i = s.uses i ∧ s'.vfbufUse i = s.vfbufUse i)
    (hcount : s'.vfbufUse (π.bufferIndex r) + IsrOp.incs ops =
      s'.uses (π.bufferIndex r) + IsrOp.puts ops)
    (hfew : s'.uses (π.bufferIndex r) + IsrOp.puts ops ≤ 3)
    (hfresh : (IsrPc.handling r hand' ops).fresh = true →
      s'.uses (π.bufferIndex r) = 0 ∧ s'.vfbufUse (π.bufferIndex r) = 0)
    (hbefore : 0 < IsrOp.puts (op :: ops))
    (hafter : 0 < s'.uses (π.bufferIndex r) ∨ 0 < IsrOp.puts ops) : BufferInv π s' := by
  have hreported := h.handling r hand _ hisr
  refine ⟨hkept, hindex, fun r' vf ops' hs => ?_, fun r' hand₁ ops' hs => ?_, fun vf hs => ?_,
    fun vf hs => ?_, fun i => ?_, fun i => ?_, fun r' hr' hs => ?_, h.loc_congr fun i _ w => ?_⟩
  · obtain ⟨rfl, rfl, rfl⟩ := IsrPc.handling.inj (hisr'.symm.trans hs)
    exact hhand vf rfl
  · obtain ⟨rfl, -⟩ := IsrPc.handling.inj (hisr'.symm.trans hs)
    exact hout.trans hreported
  · rw [htimer] at hs
    rw [hgive vf hs]
    exact h.giving vf hs
  · rw [hin]
    exact h.free vf (htimer ▸ hs)
  · by_cases hi : π.bufferIndex r = i
    · subst hi
      simpa [hisr', IsrPc.left] using hcount
    · obtain ⟨huses, huse⟩ := hother i (Ne.symm hi)
      simpa [hisr, hisr', IsrPc.left, hi, huses, huse] using h.count i
  · by_cases hi : π.bufferIndex r = i
    · subst hi
      simpa [hisr', IsrPc.left] using hfew
    · simpa [hisr, hisr', IsrPc.left, hi, (hother i (Ne.symm hi)).1] using h.few i
  · obtain rfl : r = r' := Option.some.inj (hreported.symm.trans (hout ▸ hr'))
    exact hfresh (hisr' ▸ hs)
  · cases w with
    | ucode => simp only [At, hucode]
    | bufferIn => simp only [At, hin]
    | timer =>
      simp only [At, htimer]
      exact exists_congr fun vf => and_congr_right fun hs => by rw [hgive vf hs]
    | frames =>
      by_cases hi : π.bufferIndex r = i
      · subst hi
        have hs : s.At π .frames (π.bufferIndex r) :=
          .inr ⟨r, hreported, rfl, by simp [hisr, IsrPc.pending, hbefore]⟩
        have hs' : s'.At π .frames (π.bufferIndex r) :=
          hafter.imp_right fun hpos =>
            ⟨r, hout.trans hreported, rfl, by simp [hisr', IsrPc.pending, hpos]⟩
        exact iff_of_true hs' hs
      · simp [At, hout, hreported, hi, (hother i (Ne.symm hi)).1]

/-- The handler takes a frame, or counts it. -/
theorem prepare (h : BufferInv π s) (hkept : KeptInv π s') {r : Report}
    {hand hand' : Option Vframe} {op : IsrOp} {ops : List IsrOp}
    (hisr : s.isr = .handling r hand (op :: ops)) (hisr' : s'.isr = .handling r hand' ops)
    (hout : s'.bufferOut = s.bufferOut) (hin : s'.bufferIn = s.bufferIn)
    (hucode : s'.ucode = s.ucode) (htimer : s'.timer = s.timer)
    (hgive : ∀ vf, s.timer = .give vf → s'.index vf = s.index vf)
    (hcounted : s'.counted = s.counted) (hindex : ∀ vf ∈ s.counted, s'.index vf = s.index vf)
    (hhand : ∀ vf ∈ hand', s'.index vf = π.bufferIndex r)
    (hother : ∀ i ≠ π.bufferIndex r, s'.vfbufUse i = s.vfbufUse i)
    (huse : s'.vfbufUse (π.bufferIndex r) + IsrOp.incs ops =
      s.vfbufUse (π.bufferIndex r) + IsrOp.incs (op :: ops))
    (hputs : IsrOp.puts (op :: ops) = IsrOp.puts ops) (hwf : IsrOp.Wf true ops)
    (hfresh : IsrOp.sets ops = true → (IsrPc.handling r hand (op :: ops)).fresh = true ∧
      s'.vfbufUse (π.bufferIndex r) = s.vfbufUse (π.bufferIndex r)) : BufferInv π s' := by
  have huses : ∀ i, s'.uses i = s.uses i :=
    uses_congr (by rw [hcounted]) fun vf hvf => hindex vf hvf
  have hcount := h.count (π.bufferIndex r)
  have hfew := h.few (π.bufferIndex r)
  simp only [hisr, IsrPc.left, if_true, hputs] at hcount hfew
  refine h.proceed hkept hisr hisr' hout hin hucode htimer hgive (fun vf hvf => ?_) hhand
    (fun i hi => ⟨huses i, hother i hi⟩) ?_ ?_ (fun hf => ?_) (hputs ▸ hwf.puts_pos)
    (.inr hwf.puts_pos)
  · rw [hcounted] at hvf
    rw [hindex vf hvf]
    exact h.index vf hvf
  · rw [huses, huse, hcount]
  · rwa [huses]
  · obtain ⟨hf, hsame⟩ := hfresh (by simpa [IsrPc.fresh, hwf.giveBack_notMem] using hf)
    rw [huses, hsame]
    exact h.fresh r (h.handling _ _ _ hisr) (by rwa [hisr])

/-- The handler passes a frame on. -/
theorem pass (h : BufferInv π s) (hkept : KeptInv π s') {r : Report} {vf : Vframe} {op : IsrOp}
    {ops : List IsrOp} (hisr : s.isr = .handling r (some vf) (op :: ops))
    (hisr' : s'.isr = .handling r none ops) (hop : op = .sort ∨ op = .display)
    (hout : s'.bufferOut = s.bufferOut) (hin : s'.bufferIn = s.bufferIn)
    (hucode : s'.ucode = s.ucode) (htimer : s'.timer = s.timer) (hindex : s'.index = s.index)
    (huse : s'.vfbufUse = s.vfbufUse) (hperm : s'.counted.Perm (vf :: s.counted)) :
    BufferInv π s' := by
  obtain ⟨hwf, hsets⟩ := (hisr ▸ h.kept.wf : IsrPc.Wf _).put hop
  have hputs : IsrOp.puts (op :: ops) = IsrOp.puts ops + 1 ∧
      IsrOp.incs (op :: ops) = IsrOp.incs ops := by
    rcases hop with rfl | rfl <;> exact ⟨rfl, rfl⟩
  have hvf := h.hand r vf _ hisr
  have huses : ∀ i, s'.uses i = s.uses i + if π.bufferIndex r = i then 1 else 0 := fun i => by
    rw [uses_cons hperm hindex, hvf]
  have hcount := h.count (π.bufferIndex r)
  have hfew := h.few (π.bufferIndex r)
  simp only [hisr, IsrPc.left, if_true, hputs] at hcount hfew
  refine h.proceed hkept hisr hisr' hout hin hucode htimer (fun _ _ => congrFun hindex _)
    (fun u hu => ?_) (by simp) (fun i hi => ⟨by simp [huses, Ne.symm hi], congrFun huse i⟩) ?_ ?_
    (fun hf => ?_) (by omega) (.inl (by simp [huses]))
  · rw [hindex]
    rcases List.mem_cons.1 (hperm.mem_iff.1 hu) with rfl | hu
    · rw [hvf]
      exact π.bufferIndex_lt r
    · exact h.index u hu
  · rw [huses, if_pos rfl, huse, hcount]
    push_cast
    omega
  · rw [huses, if_pos rfl]
    omega
  · simp [IsrPc.fresh, hsets, hwf.giveBack_notMem] at hf

/-- The handler gives a buffer back to the ucode at once. -/
theorem giveBack (h : BufferInv π s) (hkept : KeptInv π s') {r : Report} {hand : Option Vframe}
    {ops : List IsrOp} (hg : s.isr.returns = true → s.bufferIn = 0 ∧ s.timer = .idle)
    (hisr : s.isr = .handling r hand (.giveBack :: ops))
    (hs' : s' = { s with
      bufferIn := π.bufferIn (π.bufferIndex r)
      isr := .handling r hand ops }) : BufferInv π s' := by
  subst hs'
  have hwf := h.kept.wf
  rw [hisr] at hwf
  obtain ⟨rfl, rfl⟩ := hwf.giveBack
  obtain ⟨hin, htimer⟩ := hg (by rw [hisr]; rfl)
  have hreported := h.handling _ _ _ hisr
  have hzero := h.fresh r hreported (by rw [hisr]; rfl)
  have hlt := π.bufferIndex_lt r
  have hleft : ∀ c, c [.clear] = c [.giveBack, .clear] → ∀ i,
      (IsrPc.handling r none [.clear]).left π c i = s.isr.left π c i := fun c hc i => by
    simp [hisr, IsrPc.left, hc]
  have hat : s.At π .frames (π.bufferIndex r) := .inr ⟨r, hreported, rfl, by rw [hisr]; rfl⟩
  refine ⟨hkept, h.index, fun _ _ _ hs => ?_, fun r' _ _ hs => ?_, h.giving, fun vf hs => ?_,
    fun i => ?_, fun i => ?_, fun _ _ hs => ?_, h.loc_move (b := π.bufferIndex r) (w := .bufferIn)
      (fun i hi hib w => ?_) fun w => ?_⟩
  · simp at hs
  · obtain ⟨rfl, -⟩ := IsrPc.handling.inj hs
    exact hreported
  · simp [htimer] at hs
  · dsimp only
    rw [hleft _ rfl, hleft _ rfl]
    exact h.count i
  · dsimp only
    rw [hleft _ rfl]
    exact h.few i
  · simp [IsrPc.fresh, IsrOp.sets] at hs
  · cases w with
    | bufferIn =>
      refine iff_of_false (fun hgive => hib ?_) fun hzero => ?_
      · exact (π.bufferIn_inj _ hlt _ hi hgive).symm
      · exact π.bufferIn_ne_zero i hi (hzero.symm.trans hin)
    | frames =>
      refine (at_frames_of_ne ?_ hib).trans (at_frames_of_ne hreported hib).symm
      exact hreported
    | _ => rfl
  · cases w with
    | bufferIn => exact iff_of_true rfl rfl
    | frames =>
      refine iff_of_false ?_ (by simp)
      rintro (huses | ⟨r', -, -, hpending⟩)
      · exact huses.ne' hzero.1
      · simp [IsrPc.pending, IsrOp.puts] at hpending
    | ucode => exact iff_of_false (h.not_at (u := .ucode) hlt hat (by simp)) (by simp)
    | timer => exact iff_of_false (h.not_at (u := .timer) hlt hat (by simp)) (by simp)

/-- The handler is done with a picture. -/
theorem clear (h : BufferInv π s) (hkept : KeptInv π s') {r : Report} {hand : Option Vframe}
    {ops : List IsrOp} (hisr : s.isr = .handling r hand (.clear :: ops))
    (hs' : s' = { s with
      bufferOut := none
      isr := .idle }) : BufferInv π s' := by
  subst hs'
  have hwf := h.kept.wf
  rw [hisr] at hwf
  obtain ⟨rfl, rfl⟩ := hwf.clear
  have hleft : ∀ c : List IsrOp → ℕ, c [.clear] = 0 → ∀ i,
      IsrPc.left π c .idle i = s.isr.left π c i := fun c hc i => by
    simp [hisr, IsrPc.left, hc]
  refine ⟨hkept, h.index, fun _ _ _ hs => ?_, fun r' _ _ hs => ?_, h.giving, h.free, fun i => ?_,
    fun i => ?_, fun _ hr _ => ?_, h.loc_congr fun i _ w => ?_⟩
  · simp at hs
  · simp at hs
  · dsimp only
    rw [hleft _ rfl, hleft _ rfl]
    exact h.count i
  · dsimp only
    rw [hleft _ rfl]
    exact h.few i
  · simp at hr
  · cases w with
    | frames =>
      rw [h.at_frames_iff hisr]
      simp [At, IsrPc.pending, IsrOp.puts]
      rfl
    | _ => rfl

theorem isr (h : BufferInv π s) (hkept : KeptInv π s') {level : ℤ}
    (hg : Orderly π s (.isr level)) (hs : Step π s (.isr level) s') : BufferInv π s' := by
  have hwf := h.kept.wf
  cases hs with
  | @fatal _ r hand ops hisr hq =>
    rw [hisr] at hwf
    obtain ⟨rfl, -⟩ := hwf.get
    exact absurd hq (h.newframeQ_ne_nil (by rw [hisr]; rfl))
  | @isrGet _ r hand ops vf q hisr hq =>
    rw [hisr] at hwf
    obtain ⟨rfl, hrest⟩ := hwf.get
    have hnot : vf ∉ s.counted := h.kept.notMem_counted (by simp [hq])
    refine h.prepare hkept hisr rfl rfl rfl rfl rfl (fun u hu => ?_) rfl (fun u hu => ?_)
      (by simp) (fun _ _ => rfl) rfl rfl hrest fun hsets =>
        ⟨by simp [IsrPc.fresh, IsrOp.sets, hsets], rfl⟩
    · refine Function.update_of_ne (h.kept.ne_of_done ?_ ?_) _ _
      · simp [hq]
      · simp [hu, TimerPc.done]
    · refine Function.update_of_ne ?_ _ _
      rintro rfl
      exact hnot hu
  | @set _ r hand ops n hisr =>
    rw [hisr] at hwf
    obtain ⟨-, hwf, hsets⟩ := hwf.set
    have hzero := h.fresh r (h.handling _ _ _ hisr) (by rw [hisr]; rfl)
    refine h.prepare hkept hisr rfl rfl rfl rfl rfl (fun _ _ => rfl) rfl (fun _ _ => rfl)
      (fun vf hvf => h.hand r vf _ (by rw [hisr, hvf])) (fun i hi => Function.update_of_ne hi _ _)
      ?_ rfl hwf fun hs => by simp [hsets] at hs
    simp [hzero.2, IsrOp.incs]
    omega
  | @inc _ r hand ops hisr =>
    rw [hisr] at hwf
    obtain ⟨-, hwf, hsets⟩ := hwf.inc
    refine h.prepare hkept hisr rfl rfl rfl rfl rfl (fun _ _ => rfl) rfl (fun _ _ => rfl)
      (fun vf hvf => h.hand r vf _ (by rw [hisr, hvf])) (fun i hi => Function.update_of_ne hi _ _)
      ?_ rfl hwf fun hs => by simp [hsets] at hs
    simp [IsrOp.incs]
    omega
  | @display _ r op ops vf flags hisr hop =>
    have hpush : push π.vfPoolSize s.displayQ vf = s.displayQ ++ [vf] :=
      h.kept.push_eq (by simp [places, hisr, IsrPc.hand]; omega)
    refine h.pass hkept hisr rfl hop rfl rfl rfl rfl rfl rfl (List.perm_iff_count.2 fun u => ?_)
    simp [counted, heldNow, hpush, List.count_cons]
    omega
  | @skip _ r op ops vf flags hisr hop =>
    have hpush : push π.vfPoolSize s.recycleQ vf = s.recycleQ ++ [vf] :=
      h.kept.push_eq (by simp [places, hisr, IsrPc.hand]; omega)
    refine h.pass hkept hisr rfl hop rfl rfl rfl rfl rfl rfl (List.perm_iff_count.2 fun u => ?_)
    simp [counted, heldNow, hpush, List.count_cons]
    omega
  | giveBack hisr => exact h.giveBack hkept hg hisr rfl
  | clear hisr => exact h.clear hkept hisr rfl

theorem report (h : BufferInv π s) (hkept : KeptInv π s') {r : Report}
    (hs : Step π s (.report r) s') : BufferInv π s' := by
  cases hs with
  | report hout hucode =>
    have hlt := π.bufferIndex_lt r
    have hisr : s.isr = .idle := by
      cases hisr : s.isr with
      | idle => rfl
      | handling r hand ops => simp [h.handling r hand ops hisr] at hout
    have hat : s.At π .ucode (π.bufferIndex r) := hucode
    have hzero : s.uses (π.bufferIndex r) = 0 := by
      by_contra hne
      cases h.at_unique (w := .frames) hlt (.inl (Nat.pos_of_ne_zero hne)) hat
    have huse : s.vfbufUse (π.bufferIndex r) = 0 := by
      simpa [hisr, IsrPc.left, hzero] using h.count (π.bufferIndex r)
    refine ⟨hkept, h.index, h.hand, fun _ _ _ hs => ?_, h.giving, h.free, h.count, h.few,
      fun r' hr' _ => ?_, h.loc_move (b := π.bufferIndex r) (w := .frames)
        (fun i hi hib w => ?_) fun w => ?_⟩
    · rw [hisr] at hs
      cases hs
    · obtain rfl := Option.some.inj hr'
      exact ⟨hzero, huse⟩
    · cases w with
      | ucode => simp [At, Function.update_of_ne hib]
      | frames =>
        refine (at_frames_of_ne rfl hib).trans ?_
        simp [At, hout]
        rfl
      | _ => rfl
    · cases w with
      | frames => exact iff_of_true (.inr ⟨r, rfl, rfl, by rw [hisr]; rfl⟩) rfl
      | ucode => simp [At]
      | bufferIn => exact iff_of_false (h.not_at (u := .bufferIn) hlt hat (by simp)) (by simp)
      | timer => exact iff_of_false (h.not_at (u := .timer) hlt hat (by simp)) (by simp)

theorem take (h : BufferInv π s) (hkept : KeptInv π s') {b : ℕ} (hs : Step π s (.take b) s') :
    BufferInv π s' := by
  cases hs with
  | take hlt hin =>
    have hat : s.At π .bufferIn b := hin
    refine ⟨hkept, h.index, h.hand, h.handling, h.giving, fun _ _ => rfl, h.count, h.few, h.fresh,
      h.loc_move (b := b) (w := .ucode) (fun i hi hib w => ?_) fun w => ?_⟩
    · cases w with
      | ucode => simp [At, Function.update_of_ne hib]
      | bufferIn =>
        refine iff_of_false (fun hzero => π.bufferIn_ne_zero i hi hzero.symm) fun hgive => hib ?_
        exact π.bufferIn_inj i hi b hlt (hgive.symm.trans hin)
      | _ => rfl
    · cases w with
      | ucode => exact iff_of_true (by simp [At]) rfl
      | bufferIn =>
        exact iff_of_false (fun hzero => π.bufferIn_ne_zero b hlt hzero.symm) (by simp)
      | timer => exact iff_of_false (h.not_at (u := .timer) hlt hat (by simp)) (by simp)
      | frames => exact iff_of_false (h.not_at (u := .frames) hlt hat (by simp)) (by simp)

/-- A buffer that a frame shows is reported, and to be shown again, as long as the handler has
frames to pass on. -/
theorem reported_iff (h : BufferInv π s) (hpos : 0 < s.uses i) :
    (∃ r, s.bufferOut = some r ∧ π.bufferIndex r = i ∧ s.isr.pending = true) ↔
      0 < s.isr.left π IsrOp.puts i := by
  constructor
  · rintro ⟨r, hr, rfl, hpending⟩
    -- what is not counted yet is shown by no frame
    have hstale : s.isr.fresh = false := by
      by_contra hfresh
      exact hpos.ne' (h.fresh r hr (by simpa using hfresh)).1
    cases hisr : s.isr with
    | idle => simp [hisr, IsrPc.fresh] at hstale
    | handling r' hand ops =>
      obtain rfl := Option.some.inj (hr.symm.trans (h.handling _ _ _ hisr))
      simp only [hisr, IsrPc.fresh, Bool.or_eq_false_iff] at hstale
      simp only [hisr, IsrPc.pending, hstale.2, Bool.or_false, decide_eq_true_eq] at hpending
      simpa [IsrPc.left] using hpending
  · intro hputs
    cases hisr : s.isr with
    | idle => simp [hisr, IsrPc.left] at hputs
    | handling r hand ops =>
      by_cases hi : π.bufferIndex r = i
      · exact ⟨r, h.handling _ _ _ hisr, hi, by
          simpa [hisr, IsrPc.left, IsrPc.pending, hi] using Or.inl hputs⟩
      · simp [hisr, IsrPc.left, hi] at hputs

/-- A buffer that fewer frames show goes to the timer's hand when it was the last of them, and the
handler has no more to pass on. -/
theorem loc_fewer (h : BufferInv π s) {b : ℕ} (hb : b < π.bufferNum) (hpos : 0 < s.uses b)
    (hgive : ∀ vf, s.timer ≠ .give vf) (hout : s'.bufferOut = s.bufferOut)
    (hin : s'.bufferIn = s.bufferIn) (hucode : s'.ucode = s.ucode) (hisr : s'.isr = s.isr)
    (hother : ∀ i ≠ b, s'.uses i = s.uses i)
    (htimer : ∀ i, s'.At π .timer i ↔
      i = b ∧ ¬ (0 < s'.uses b ∨ 0 < s.isr.left π IsrOp.puts b)) :
    ∃ loc : ℕ → Where, ∀ i < π.bufferNum, ∀ w, s'.At π w i ↔ loc i = w := by
  have hat : s.At π .frames b := .inl hpos
  have hucode' : ∀ i, s'.At π .ucode i ↔ s.At π .ucode i := fun i => by simp only [At, hucode]
  have hin' : ∀ i, s'.At π .bufferIn i ↔ s.At π .bufferIn i := fun i => by simp only [At, hin]
  have hframes : s'.At π .frames b ↔ 0 < s'.uses b ∨ 0 < s.isr.left π IsrOp.puts b := by
    simp only [At, hout, hisr]
    rw [h.reported_iff hpos]
  have hnot : ∀ i, ¬ s.At π .timer i := by
    rintro i ⟨vf, hs, -⟩
    exact hgive vf hs
  have hrest : ∀ i < π.bufferNum, i ≠ b → ∀ w, s'.At π w i ↔ s.At π w i := by
    intro i _ hi w
    cases w with
    | ucode => exact hucode' i
    | bufferIn => exact hin' i
    | timer => exact iff_of_false (fun ht => hi ((htimer i).1 ht).1) (hnot i)
    | frames => simp only [At, hout, hisr, hother i hi]
  by_cases hleft : 0 < s'.uses b ∨ 0 < s.isr.left π IsrOp.puts b
  · refine h.loc_congr fun i hi w => ?_
    by_cases hib : i = b
    · subst hib
      cases w with
      | ucode => exact hucode' i
      | bufferIn => exact hin' i
      | timer => exact iff_of_false (fun ht => ((htimer i).1 ht).2 hleft) (hnot i)
      | frames => exact iff_of_true (hframes.2 hleft) hat
    · exact hrest i hi hib w
  · refine h.loc_move (w := .timer) hrest fun w => ?_
    cases w with
    | ucode => exact iff_of_false (mt (hucode' b).1 (h.not_at hb hat (by simp))) (by simp)
    | bufferIn => exact iff_of_false (mt (hin' b).1 (h.not_at hb hat (by simp))) (by simp)
    | timer => exact iff_of_true ((htimer b).2 ⟨rfl, hleft⟩) rfl
    | frames => exact iff_of_false (mt hframes.1 hleft) (by simp)

/-- **The timer counts a frame down**, and has the buffer given back when that was the last. -/
theorem countDown (h : BufferInv π s) (hkept : KeptInv π s') (hg : Orderly π s .timer)
    (htimer : s.timer = .got vf)
    (hs' : s' = { s with
      vfbufUse := Function.update s.vfbufUse (s.index vf) (s.vfbufUse (s.index vf) - 1)
      timer := if s.vfbufUse (s.index vf) - 1 = 0 then .give vf else .put vf }) :
    BufferInv π s' := by
  have hmem : vf ∈ s.counted := by simp [counted, htimer, TimerPc.counted]
  have hlt := h.index vf hmem
  have hpos := uses_pos hmem
  have hincs : s.isr.left π IsrOp.incs (s.index vf) = 0 :=
    hg vf (by simp [htimer, TimerPc.counted])
  have hcount := h.count (s.index vf)
  have hfew := h.few
  have htimer' : s'.timer.counted = [] := by
    rw [hs']
    dsimp only
    split_ifs <;> rfl
  have hperm : s.counted.Perm (vf :: s'.counted) := List.perm_iff_count.2 fun u => by
    rw [counted, counted, htimer']
    simp [hs', heldNow, htimer, TimerPc.counted, List.count_cons]
    omega
  have hgive : ∀ u, s'.timer = .give u → vf = u := fun u hu => by
    rw [hs'] at hu
    dsimp only at hu
    split_ifs at hu
    exact TimerPc.give.inj hu
  have hindex : s'.index = s.index := by rw [hs']
  have hisr : s'.isr = s.isr := by rw [hs']
  have hout : s'.bufferOut = s.bufferOut := by rw [hs']
  have huses : ∀ i, s.uses i = s'.uses i + if s.index vf = i then 1 else 0 := fun i => by
    rw [uses_cons hperm hindex.symm, hindex]
  have hself := huses (s.index vf)
  rw [if_pos rfl] at hself
  have huse : s'.vfbufUse (s.index vf) = s.vfbufUse (s.index vf) - 1 := by simp [hs']
  have hother : ∀ i ≠ s.index vf, s'.uses i = s.uses i ∧ s'.vfbufUse i = s.vfbufUse i :=
    fun i hi => ⟨by simp [huses, Ne.symm hi], by simp [hs', Function.update_of_ne hi]⟩
  refine ⟨hkept, fun u hu => ?_, ?_, ?_, fun u hu => ?_, fun u hu => ?_, fun i => ?_, fun i => ?_,
    fun r hr hfresh => ?_, ?_⟩
  · rw [hindex]
    exact h.index u (hperm.mem_iff.2 (List.mem_cons_of_mem _ hu))
  · rw [hisr, hindex]
    exact h.hand
  · rw [hisr, hout]
    exact h.handling
  · rw [hindex, ← hgive u hu]
    exact hlt
  · rw [hs']
    exact h.free vf (.inl htimer)
  · rw [hisr]
    by_cases hi : i = s.index vf
    · rw [hi, huse]
      omega
    · rw [(hother i hi).1, (hother i hi).2]
      exact h.count i
  · rw [hisr]
    have := huses i
    have := h.few i
    omega
  · rw [hout] at hr
    rw [hisr] at hfresh
    have hzero := h.fresh r hr hfresh
    have hne : π.bufferIndex r ≠ s.index vf := fun heq => by
      rw [heq] at hzero
      omega
    rw [(hother _ hne).1, (hother _ hne).2]
    exact hzero
  · refine h.loc_fewer hlt hpos (by simp [htimer]) hout (by rw [hs']) (by rw [hs']) hisr
      (fun i hi => (hother i hi).1) fun i => ⟨?_, ?_⟩
    · rintro ⟨u, hu, rfl⟩
      have hlast : s.vfbufUse (s.index vf) - 1 = 0 := by
        by_contra hmore
        simp [hs', hmore] at hu
      exact ⟨by rw [hindex, hgive u hu], by omega⟩
    · rintro ⟨rfl, hnone⟩
      have hlast : s.vfbufUse (s.index vf) - 1 = 0 := by omega
      exact ⟨vf, by simp [hs', hlast], by rw [hindex]⟩

/-- The timer gives a buffer back to the ucode. -/
theorem give (h : BufferInv π s) (hkept : KeptInv π s') (htimer : s.timer = .give vf)
    (hs' : s' = { s with
      bufferIn := π.bufferIn (s.index vf)
      index := Function.update s.index vf π.bufferNum
      timer := .put vf }) : BufferInv π s' := by
  subst hs'
  have hlt := h.giving vf htimer
  have hzero := h.free vf (.inr htimer)
  have hat : s.At π .timer (s.index vf) := ⟨vf, htimer, rfl⟩
  have hnot : vf ∉ s.counted := h.kept.notMem_counted (by simp [htimer, TimerPc.done])
  have hindex : ∀ u, u ≠ vf → Function.update s.index vf π.bufferNum u = s.index u :=
    fun u hu => Function.update_of_ne hu _ _
  have hcounted : FramePool.counted { s with
      bufferIn := π.bufferIn (s.index vf)
      index := Function.update s.index vf π.bufferNum
      timer := .put vf } = s.counted := by
    simp [counted, heldNow, htimer, TimerPc.counted]
  have huses := uses_congr (by rw [hcounted]) fun u hu => hindex u (ne_of_mem_of_not_mem hu hnot)
  refine ⟨hkept, fun u hu => ?_, fun r u ops hs => ?_, h.handling, by simp, by simp, fun i => ?_,
    fun i => ?_, fun r hr hf => ?_, h.loc_move (b := s.index vf) (w := .bufferIn)
      (fun i hi hib w => ?_) fun w => ?_⟩
  · rw [hcounted] at hu
    dsimp only
    rw [hindex u (ne_of_mem_of_not_mem hu hnot)]
    exact h.index u hu
  · have hs : s.isr = .handling r (some u) ops := hs
    have hne : vf ≠ u := h.kept.ne_of_done (by simp [hs, IsrPc.hand])
      (by simp [htimer, TimerPc.done])
    dsimp only
    rw [hindex u hne.symm]
    exact h.hand r u ops hs
  · rw [huses]
    exact h.count i
  · rw [huses]
    exact h.few i
  · rw [huses]
    exact h.fresh r hr hf
  · cases w with
    | bufferIn =>
      refine iff_of_false (fun hgive => hib ?_) fun hin => ?_
      · exact (π.bufferIn_inj _ hlt _ hi hgive).symm
      · exact π.bufferIn_ne_zero i hi (hin.symm.trans hzero)
    | timer =>
      refine iff_of_false (by simp [At]) ?_
      rintro ⟨u, hu, rfl⟩
      rw [htimer] at hu
      exact hib (by rw [TimerPc.give.inj hu])
    | frames => exact or_congr (by rw [huses]) Iff.rfl
    | ucode => rfl
  · cases w with
    | bufferIn => exact iff_of_true rfl rfl
    | timer => simp [At]
    | ucode => exact iff_of_false (h.not_at (u := .ucode) hlt hat (by simp)) (by simp)
    | frames =>
      refine iff_of_false (fun hf => ?_) (by simp)
      have hf : s.At π .frames (s.index vf) := hf.imp_left fun hpos => by rwa [huses] at hpos
      exact h.not_at hlt hat (by simp) hf

theorem timer (h : BufferInv π s) (hkept : KeptInv π s') (hg : Orderly π s .timer)
    (hs : Step π s .timer s') : BufferInv π s' := by
  cases hs with
  | last htimer _ hlast =>
    exact h.countDown hkept hg htimer (by simp [hlast])
  | more htimer _ hmore =>
    exact h.countDown hkept hg htimer (by simp [hmore])
  | unused htimer hi =>
    exact absurd (h.index _ (by simp [counted, htimer, TimerPc.counted])) hi
  | give htimer => exact h.give hkept htimer rfl
  | timerPut htimer =>
    exact h.quiet hkept (by simp [counted, heldNow, htimer, TimerPc.counted]) rfl rfl rfl rfl rfl
      rfl (by simp [htimer]) (by simp)
  | timerPutOld htimer =>
    exact h.quiet hkept (by simp [counted, heldNow, htimer, TimerPc.counted]) rfl rfl rfl rfl rfl
      rfl (by simp [htimer]) (by simp)

theorem of_reset {force : Bool} (hisr : s.isr = .idle) (htimer : s.timer = .idle)
    (hheld : ∀ vf ∈ s.held, vf.pool ≠ s.nextPool π) (hone : π.twoPools = false → s.held = []) :
    BufferInv π (s.reset π force) := by
  have hnow : (s.reset π force).heldNow = [] := heldNow_reset hheld
  have hcounted : (s.reset π force).counted = [] := by
    simp [counted, hnow]
    simp [reset, htimer, TimerPc.counted]
  have huses : ∀ i, (s.reset π force).uses i = 0 := by simp [uses, hcounted]
  have hidle : (s.reset π force).isr = .idle := hisr
  have hstill : (s.reset π force).timer = .idle := htimer
  refine ⟨.of_reset hisr htimer hheld hone, by simp [hcounted], by simp [hidle], by simp [hidle],
    by simp [hstill], fun _ _ => rfl, fun i => ?_, fun i => ?_, fun _ hr => ?_,
    fun _ => .ucode, fun i hi w => ?_⟩
  · rw [huses, hidle]
    rfl
  · simp [huses, hidle, IsrPc.left]
  · cases hr
  · cases w with
    | ucode => exact iff_of_true (decide_eq_true hi) rfl
    | bufferIn =>
      exact iff_of_false (fun hzero => π.bufferIn_ne_zero i hi hzero.symm) (by simp)
    | timer => simp [At, hstill]
    | frames =>
      refine iff_of_false ?_ (by simp)
      rintro (hpos | ⟨r, hr, -⟩)
      · exact hpos.ne' (huses i)
      · cases hr

/-- **What a step does to the buffers.** -/
theorem step (h : BufferInv π s) {a : Action} (hg : Orderly π s a) (hs : Step π s a s') :
    BufferInv π s' := by
  have hkept := h.kept.step (.of_orderly hg) hs
  cases a with
  | report r => exact h.report hkept hs
  | take b => exact h.take hkept hs
  | irq => exact h.irq hkept hs
  | isr level => exact h.isr hkept hg hs
  | get =>
    cases hs with
    | @get vf q hq =>
      have hpool : vf.pool = s.curPool := h.kept.pool_eq (by simp [places, hq])
      refine h.quiet hkept (List.perm_iff_count.2 fun u => ?_) rfl rfl rfl rfl rfl rfl
        (fun _ => Iff.rfl) h.free
      simp [counted, heldNow, hq, hpool, List.count_cons]
      omega
  | putBack vf =>
    cases hs with
    | putBack hheld hkeeps =>
      have hpool := h.kept.pool_of_keeps hheld hkeeps
      rw [h.kept.push_eq (length_recycleQ_lt hheld hpool)] at hkept ⊢
      refine h.quiet hkept (List.perm_iff_count.2 fun u => ?_) rfl rfl rfl rfl rfl rfl
        (fun _ => Iff.rfl) h.free
      have := count_erase_held (u := u) hheld hpool
      simp only [counted, heldNow, List.count_append] at this ⊢
      omega
    | putBackOld hheld hkeeps =>
      have hpool : vf.pool ≠ s.curPool := fun hpool => by simp [keeps, hpool] at hkeeps
      refine h.quiet hkept (List.perm_iff_count.2 fun u => ?_) rfl rfl rfl rfl rfl rfl
        (fun _ => Iff.rfl) h.free
      have := count_erase_old (u := u) hpool
      simp only [counted, heldNow, List.count_append] at this ⊢
      omega
  | timerGet =>
    cases hs with
    | @timerGet vf q htimer hq hin =>
      refine h.quiet hkept (List.perm_iff_count.2 fun u => ?_) rfl rfl rfl rfl rfl rfl
        (by simp [htimer]) fun _ _ => hin
      simp [counted, heldNow, htimer, hq, TimerPc.counted, List.count_cons]
  | timer => exact h.timer hkept hg hs
  | reset force =>
    obtain ⟨hisr, htimer, hheld⟩ := hg
    cases hs with
    | reset => exact .of_reset hisr htimer hheld (h.kept.held_eq_nil hheld)

end BufferInv

theorem bufferInv {force : Bool} {as : List Action}
    (r : Run (step π) (Orderly π) (start π force) as s) : BufferInv π s :=
  r.invariant (.of_reset rfl rfl (by simp) fun _ => rfl) fun _ _ _ h hg hs =>
    h.step hg (step_sound hs)

/-- **The buffers are kept**: each one is in one place; `vfbuf_use` counts the frames that show it,
but for those that the handler has counted and not passed on, or the other way round; and a buffer
that a frame in the display queue or with the receiver shows is neither the ucode's nor in
`BUFFERIN`. -/
structure BuffersKept (π : Provider) (s : FramePool) : Prop where
  place : ∀ i < π.bufferNum, ∃! w, s.At π w i
  count : ∀ i, s.vfbufUse i + s.isr.left π IsrOp.incs i = s.uses i + s.isr.left π IsrOp.puts i
  shown : ∀ vf ∈ s.displayQ ++ s.heldNow, s.index vf < π.bufferNum ∧
    s.ucode (s.index vf) = false ∧ s.bufferIn ≠ π.bufferIn (s.index vf)

/-- **No buffer is given back while a frame shows it**, in any orderly run. -/
theorem buffers_kept {force : Bool} {as : List Action}
    (r : Run (step π) (Orderly π) (start π force) as s) : s.BuffersKept π := by
  have h := bufferInv r
  refine ⟨fun i hi => ?_, h.count, fun vf hvf => ?_⟩
  · obtain ⟨loc, hloc⟩ := h.loc
    exact ⟨loc i, (hloc i hi _).2 rfl, fun w hw => ((hloc i hi w).1 hw).symm⟩
  · have hmem : vf ∈ s.counted := by
      simp only [counted, List.append_assoc, List.mem_append] at hvf ⊢
      tauto
    have hlt := h.index vf hmem
    have hat : s.At π .frames (s.index vf) := .inl (uses_pos hmem)
    refine ⟨hlt, ?_, fun hin => ?_⟩
    · by_contra hucode
      rw [Bool.not_eq_false] at hucode
      cases h.at_unique (w := .ucode) hlt hucode hat
    · cases h.at_unique (w := .bufferIn) hlt hin hat

/-- A buffer of the MPEG-4 decoder in two fields, both of them with the receiver. -/
theorem buffers_kept_two_fields :
    ∃ s : FramePool, s.held.length = 2 ∧ s.ucode 3 = false := by
  obtain ⟨s, r, hs⟩ := exists_run_of_exec (step Vmpeg4.provider) (Orderly Vmpeg4.provider)
    (start Vmpeg4.provider false)
    [.report ⟨0x83, 0, 0, false⟩, .irq, .isr 0, .isr 0, .isr 0, .get, .isr 0, .isr 0, .isr 0, .get]
    (fun s => s.held.length = 2 ∧ ∃ vf ∈ s.displayQ ++ s.heldNow, s.index vf = 3)
    (by decide +kernel)
  obtain ⟨hlen, vf, hvf, hi⟩ := hs
  exact ⟨s, hlen, hi ▸ ((buffers_kept r).shown vf hvf).2.1⟩

/-- **There is a frame for every field**: in an orderly run the handler never finds `newframe_q`
empty, so that it always reaches the end of a picture and clears `BUFFEROUT`; and no buffer has
more than three frames. -/
theorem never_fatal {force : Bool} {as : List Action}
    (r : Run (step π) (Orderly π) (start π force) as s) :
    (∀ rep hand ops, s.isr = .handling rep hand (.get :: ops) → s.newframeQ ≠ []) ∧
      (∀ rep hand ops, s.isr = .handling rep hand ops → .clear ∈ ops) ∧
        ∀ i, s.uses i + s.isr.left π IsrOp.puts i ≤ 3 := by
  have h := bufferInv r
  have hwf := h.kept.wf
  refine ⟨fun rep hand ops hisr => ?_, fun rep hand ops hisr => ?_, h.few⟩
  · rw [hisr] at hwf
    obtain ⟨rfl, -⟩ := hwf.get
    exact h.newframeQ_ne_nil (by rw [hisr]; rfl)
  · rw [hisr] at hwf
    rcases hwf with ⟨-, rfl⟩ | hwf
    · decide
    · exact hwf.clear_mem

/-- The MPEG-4 decoder between the two fields of a picture. -/
theorem never_fatal_second_field :
    ∃ s : FramePool, s.displayQ ≠ [] ∧ s.newframeQ ≠ [] := by
  obtain ⟨s, r, hs, hisr⟩ := exists_run_of_exec (step Vmpeg4.provider) (Orderly Vmpeg4.provider)
    (start Vmpeg4.provider false)
    [.report ⟨0x83, 0, 0, false⟩, .irq, .isr 0, .isr 0, .isr 0]
    (fun s => s.displayQ ≠ [] ∧ s.isr =
      .handling ⟨0x83, 0, 0, false⟩ none [.get, .inc, .display, .clear]) (by decide +kernel)
  exact ⟨s, hs, (never_fatal r).1 _ _ _ hisr⟩

/-! ## Counting all frames first -/

/-- The handler counts all frames of a picture at once, and gives no buffer back itself. -/
def CountsFirst (ops : List IsrOp) : Prop := .inc ∉ ops ∧ .giveBack ∉ ops

/-- What is left of a handler that counts first. -/
def IsrCountsFirst (s : FramePool) : Prop :=
  ∀ r hand ops, s.isr = .handling r hand ops → CountsFirst ops

theorem CountsFirst.tail {op : IsrOp} {ops : List IsrOp} (h : CountsFirst (op :: ops)) :
    CountsFirst ops :=
  ⟨fun hmem => h.1 (List.mem_cons_of_mem _ hmem), fun hmem => h.2 (List.mem_cons_of_mem _ hmem)⟩

theorem CountsFirst.incs_eq_zero {ops : List IsrOp} (h : CountsFirst ops)
    (hsets : IsrOp.sets ops = false) : IsrOp.incs ops = 0 := by
  induction ops with
  | nil => rfl
  | cons op ops ih =>
    cases op with
    | set n => cases hsets
    | inc => exact absurd List.mem_cons_self h.1
    | _ => exact ih h.tail hsets

theorem IsrCountsFirst.step (hπ : ∀ flags r, CountsFirst (π.isr flags r)) (h : IsrCountsFirst s)
    {a : Action} (hs : Step π s a s') : IsrCountsFirst s' := by
  intro r hand ops hisr'
  cases hs with
  | irq =>
    obtain ⟨rfl, rfl, rfl⟩ := IsrPc.handling.inj hisr'
    exact hπ _ _
  | fatal | clear => cases hisr'
  | isrGet hisr | set hisr | inc hisr | display hisr | skip hisr | giveBack hisr =>
    obtain ⟨rfl, rfl, rfl⟩ := IsrPc.handling.inj hisr'
    exact (h _ _ _ hisr).tail
  | _ => exact h r hand ops hisr'

/-- A handler that counts first makes every step orderly: a frame that the timer has taken was
passed on, and the handler has counted everything by then. -/
theorem BufferInv.orderly (h : BufferInv π s) (hfirst : IsrCountsFirst s) {a : Action}
    (hg : ResetGuard π s a) : Orderly π s a := by
  cases a with
  | timer =>
    intro vf hvf
    have hpos := uses_pos (show vf ∈ s.counted by simp [counted, hvf])
    cases hisr : s.isr with
    | idle => rfl
    | handling r hand ops =>
      by_cases hi : π.bufferIndex r = s.index vf
      · have hsets : IsrOp.sets ops = false := by
          by_contra hsets
          rw [Bool.not_eq_false] at hsets
          have := (h.fresh r (h.handling _ _ _ hisr) (by simp [hisr, IsrPc.fresh, hsets])).1
          rw [hi] at this
          omega
        simp [IsrPc.left, (hfirst _ _ _ hisr).incs_eq_zero hsets]
      · simp [IsrPc.left, hi]
  | isr level =>
    intro hreturns
    cases hisr : s.isr with
    | idle => simp [hisr, IsrPc.returns] at hreturns
    | handling r hand ops =>
      exact absurd (by simpa [hisr, IsrPc.returns] using hreturns) (hfirst _ _ _ hisr).2
  | reset force => exact hg
  | _ => trivial

end FramePool

namespace Vmpeg12

open FramePool

theorem countsFirst (flags : SkipFlags) (r : Report) : CountsFirst (provider.isr flags r) := by
  change CountsFirst (isr flags r)
  rw [isr]
  split_ifs <;> exact ⟨by decide, by decide⟩

/-- **The MPEG-1/2 decoder relies on no order** but that of its resets: its handler counts all
fields of a picture before it passes the first one on, so that whatever the order of the steps, the
buffers are kept, and the handler always finds a frame. -/
theorem any_order {s : FramePool} {force : Bool} {as : List Action}
    (r : Run (step provider) (ResetGuard provider) (start provider force) as s) :
    s.BuffersKept provider ∧
      ∀ rep hand ops, s.isr = .handling rep hand (.get :: ops) → s.newframeQ ≠ [] := by
  obtain ⟨hrun, -⟩ := r.mono_of_invariant (H := Orderly provider)
    (I := fun s => BufferInv provider s ∧ IsrCountsFirst s)
    ⟨.of_reset rfl rfl (by simp) fun _ => rfl, fun _ _ _ h => by cases h⟩
    (fun s a s' h hg hs => ⟨h.1.step (h.1.orderly h.2 hg) (step_sound hs),
      h.2.step countsFirst (step_sound hs)⟩)
    (fun s a s' h hg _ => h.1.orderly h.2 hg)
  exact ⟨buffers_kept hrun, (never_fatal hrun).1⟩

/-- A picture in three fields, the first of which comes back before the handler has the second. -/
theorem any_order_first_back :
    ∃ s : FramePool, s.displayQ.length = 1 ∧ s.ucode 0 = false := by
  obtain ⟨s, r, hlen, vf, hvf, hi⟩ := exists_run_of_exec (step provider) (ResetGuard provider)
    (start provider false)
    [.report ⟨1, 0x4000, 0, false⟩, .irq, .isr 0, .isr 0, .isr 0, .get, .putBack ⟨true, 0⟩,
      .timerGet, .timer, .timer, .isr 0, .isr 0]
    (fun s => s.displayQ.length = 1 ∧ ∃ vf ∈ s.displayQ ++ s.heldNow, s.index vf = 0)
    (by decide +kernel)
  exact ⟨s, hlen, hi ▸ ((any_order r).1.shown vf hvf).2.1⟩

end Vmpeg12

end Media
