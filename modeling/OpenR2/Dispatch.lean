import OpenR2.Machine

namespace OpenR2

namespace Timeval

def micros (t : Timeval) : Int := 1000000 * t.tvSec + t.tvUsec

/-- As `gettimeofday` gives it. -/
structure Proper (t : Timeval) : Prop where
  nonneg : 0 ≤ t.tvUsec
  lt : t.tvUsec < 1000000

/-- The milliseconds that are left, as `openr2_chan_handle_timers` counts them: the
microseconds are rounded toward zero. -/
def msLeft (tv now : Timeval) : Int :=
  (tv.tvSec - now.tvSec) * 1000 + (tv.tvUsec - now.tvUsec).tdiv 1000

/-- They are kept in an `int`. -/
def msUntil (tv now : Timeval) : Int := (tv.msLeft now).bmod (2 ^ 32)

end Timeval

namespace TimerQueue

/-- The timers that `openr2_chan_handle_timers` copies for its dispatch. -/
def due (now : Timeval) (q : TimerQueue) : List SchedTimer :=
  q.schedTimers.filter fun t => t.time.msUntil now ≤ 0

/-- `openr2_chan_cancel_timer` on a variable that is no id slot of the channel. -/
def cancelId (id : Int) (q : TimerQueue) : TimerQueue := if id < 1 then q else q.removeId id

/-- The due timers leave the queue by copies of their ids, so the id slots keep theirs. -/
def withdraw (ts : List SchedTimer) (q : TimerQueue) : TimerQueue :=
  ts.foldl (fun q t => q.cancelId t.id) q

end TimerQueue

section Dispatch

variable (cx : R2Context) (env : Env)

/-- The dispatch loop of `openr2_chan_handle_timers`. It goes by its copies and never
looks at the queue again. -/
def dispatchTimers (ts : List SchedTimer) (c : R2Chan) : R2Chan :=
  ts.foldl (fun c t => runTimer cx env t.callback c) c

/-- `openr2_chan_handle_timers`. -/
def handleTimers (c : R2Chan) : R2Chan × Int :=
  match env.gettimeofday c.out with
  | none => (c.did .gettimeofday, -1)
  | some now =>
    let ts := c.timers.due now
    (dispatchTimers cx env ts ((c.did .gettimeofday).mapTimers (·.withdraw ts)), 0)

end Dispatch

/-- What a timer callback can do to the timers: schedule one and keep its id in a slot,
schedule one without a slot, cancel by a slot, cancel all, write a slot by hand. -/
inductive TimerOp where
  | arm (slot : TimerSlot) (now : Timeval) (ms : Nat) (callback : TimerCallback)
  | add (now : Timeval) (ms : Nat) (callback : TimerCallback)
  | cancel (slot : TimerSlot)
  | cancelAll
  | mark (slot : TimerSlot) (id : Int)
  deriving DecidableEq, Repr

namespace TimerQueue

def apply (q : TimerQueue) : TimerOp → TimerQueue
  | .arm slot now ms callback =>
    (q.addTimer now ms callback).1.setSlot slot (q.addTimer now ms callback).2
  | .add now ms callback => (q.addTimer now ms callback).1
  | .cancel slot => q.cancelTimer slot
  | .cancelAll => cancelAllTimers
  | .mark slot id => q.setSlot slot id

def applyAll (q : TimerQueue) (ops : List TimerOp) : TimerQueue := ops.foldl apply q

end TimerQueue

/-- What is seen of a pass: calls of timer callbacks, and the cancellations they made. -/
inductive Moment where
  | fired (t : SchedTimer)
  | cancelled (id : Int)
  | cancelledAll
  deriving DecidableEq, Repr

/-- A pass of `openr2_chan_handle_timers` under way. -/
structure Pass where
  queue : TimerQueue
  log : List Moment

/-- The callbacks of a pass, first to last, of which only what they do to the timers matters. -/
abbrev Behaviour := Nat → List TimerOp

namespace Pass

/-- A cancellation asks for the timer whose id the slot holds, in the queue or not. -/
def moments (q : TimerQueue) : TimerOp → List Moment
  | .cancel slot => [.cancelled (q.timerIds slot)]
  | .cancelAll => [.cancelledAll]
  | _ => []

def perform (p : Pass) (op : TimerOp) : Pass := ⟨p.queue.apply op, p.log ++ moments p.queue op⟩

/-- The dispatch loop. -/
def fireAll (beh : Behaviour) : List SchedTimer → Pass → Pass
  | [], p => p
  | t :: ts, p =>
    fireAll (fun i => beh (i + 1)) ts ((beh 0).foldl perform { p with log := p.log ++ [.fired t] })

/-- `openr2_chan_handle_timers` with callbacks of any behaviour. -/
def run (beh : Behaviour) (now : Timeval) (q : TimerQueue) : Pass :=
  fireAll beh (q.due now) ⟨q.withdraw (q.due now), []⟩

/-- No callback is called of a timer that was cancelled before. -/
def Fair (p : Pass) : Prop :=
  ∀ pre t post, p.log = pre ++ .fired t :: post →
    .cancelledAll ∉ pre ∧ .cancelled (t.id : Int) ∉ pre

end Pass

end OpenR2
