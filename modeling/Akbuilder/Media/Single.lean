import Akbuilder.Media.Balance

/-!
# Single-instance H.264, MPEG-1/2 and MPEG-4 sessions

These decoders share one shape: the duration code and the notify work use `fr_hint_status` only,
and the remove has stopped the duration code when it tests `fr_hint_status` for the end of the
hints. They differ in where the remove cancels the notify work: before it stops the duration code,
or after the end test.

## Main definitions

* `SingleDecoder`: the three decoders

## Main results

* `SingleDecoder.closed_on_remove`: a session whose end test meets no pending request is balanced
* `SingleDecoder.not_closed_on_remove`: a request pending at the end test loses `FR_END_HINT`
-/

open Bracket Transition

namespace Media

/-- The single-instance decoders whose sessions have this shape. -/
inductive SingleDecoder
  | h264
  | mpeg12
  | mpeg4
  deriving DecidableEq, Repr

namespace SingleDecoder

def driver : SingleDecoder → Driver
  | h264 => H264.driver
  | mpeg12 => Mpeg12.singleDriver
  | mpeg4 => Mpeg4.driver

theorem stopsBeforeEnd (k : SingleDecoder) : Session.StopsBeforeEnd k.driver := by
  cases k <;> constructor <;> decide

/-- **Single-instance sessions are balanced** along every run whose end test meets no pending
request and no delivery: once the remove has returned, one `FR_END_HINT` follows the last `FR_HINT`
if there was any, none was sent otherwise, and no notify work is queued. -/
theorem closed_on_remove (k : SingleDecoder) {c : k.driver.Config} {isReset : Bool}
    {as : List (Session.Action k.driver)} {s : Session k.driver}
    (r : Run (Session.step true) Session.EndGuard (Session.start k.driver true c isReset) as s)
    (hreturned : s.todo = []) : Closed s.log ∧ s.notifyWork.queued = false :=
  Session.closed_of_run k.stopsBeforeEnd r hreturned

/-- An MPEG-4 session without a `sys_info` rate: the first frame gives 30 fps, the notify work
delivers it, and the remove ends it. -/
theorem closed_on_remove_mpeg4 :
    ∃ s : Session Mpeg4.driver,
      s.log = [frHint 3200, frEndHint] ∧ Closed s.log ∧ s.notifyWork.queued = false := by
  obtain ⟨s, r, htodo, hlog⟩ := exists_run_of_exec (Session.step true)
    Session.EndGuard (Session.start Mpeg4.driver true ⟨⟨0, 0, 0, 0, 0⟩, 0⟩ false)
    [.update ⟨0x0001001e, 0, 0x02d00240, 1, false, 2⟩, .handler, .handler, .workStart, .work,
      .work, .work, .work, .remove, .remove, .remove, .remove, .remove]
    (fun s => s.todo = [] ∧ s.log = [frHint 3200, frEndHint]) (by decide)
  exact ⟨s, hlog, closed_on_remove mpeg4 r htodo⟩

/-- A request that is pending when the remove cancels the notify work loses the `FR_END_HINT` of
the hint sent at init. -/
theorem not_closed_on_remove :
    ¬ ∀ (k : SingleDecoder) (c : k.driver.Config) (isReset : Bool)
        (as : List (Session.Action k.driver)) (s : Session k.driver),
      Run (Session.step true) Always (Session.start k.driver true c isReset) as s →
        s.todo = [] → Closed s.log ∧ s.notifyWork.queued = false := by
  intro h
  obtain ⟨s, r, htodo, hlog⟩ := exists_run_of_exec (Session.step true) Always
    (Session.start Mpeg12.singleDriver true (3840 : Duration) false)
    [.update (0x50 : UInt32), .handler, .handler, .remove, .remove, .remove, .remove, .remove]
    (fun s => s.todo = [] ∧ ¬ Closed s.log) (by decide)
  exact hlog (h mpeg12 _ _ _ s r htodo).1

end SingleDecoder

end Media
