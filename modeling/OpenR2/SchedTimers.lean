import OpenR2.Dispatch
import OpenR2.Lib.Cells

namespace OpenR2

/-- `openr2_sched_timer_t`. -/
structure SchedCell where
  time : Timeval
  callback : Option TimerCallback
  id : Int
  deriving DecidableEq, Repr

/-- A cell of zeros. -/
def SchedCell.blank : SchedCell := ⟨⟨0, 0⟩, none, 0⟩

/-- The timer fields of `openr2_chan_t`, with what lies in the cells that are not in use. -/
structure SchedTimers where
  schedTimers : Nat → SchedCell
  timersCount : Nat
  timerId : Int
  timerIds : TimerSlot → Int

namespace SchedTimers

/-- The timers that wait. -/
def waiting (q : SchedTimers) : List SchedCell := Cells.content q.schedTimers q.timersCount

def setSlot (slot : TimerSlot) (id : Int) (q : SchedTimers) : SchedTimers :=
  { q with timerIds := Function.update q.timerIds slot id }

/-- The loop of `openr2_chan_add_timer` stops at the first timer that is later, and goes
to the count if there is none. -/
def place (time : Timeval) (q : SchedTimers) : Nat :=
  q.waiting.findIdx fun t => time.before t.time

/-- `openr2_chan_add_timer`, with what the clock says. -/
def addTimer (clock : Option Timeval) (ms : Nat) (callback : TimerCallback) (q : SchedTimers) :
    SchedTimers × Int :=
  match clock with
  | none => (q, -1)
  | some now =>
    if q.timersCount = maxSchedTimers then (q, -1)
    else
      let t : SchedCell := ⟨now.after ms, some callback, q.timerId + 1⟩
      let i := q.place t.time
      let cells := if i < q.timersCount
        then Function.update (Cells.move (i + 1) i (q.timersCount - i) q.schedTimers) i t
        else q.schedTimers
      let cells := if i = q.timersCount then Function.update cells i t else cells
      ({ q with
          schedTimers := cells
          timersCount := q.timersCount + 1
          timerId := q.timerId + 1 }, t.id)

/-- `openr2_chan_cancel_timer`, and whether it found the timer and set the id to zero. -/
def cancelTimer (id : Int) (q : SchedTimers) : SchedTimers × Bool :=
  if id < 1 then (q, false)
  else
    match q.waiting.findIdx? fun t => t.id == id with
    | none => (q, false)
    | some i =>
      let cells := Function.update q.schedTimers i .blank
      let cells := if i + 1 < q.timersCount
        then Cells.move i (i + 1) (q.timersCount - (i + 1)) cells else cells
      ({ q with schedTimers := cells, timersCount := q.timersCount - 1 }, true)

/-- `openr2_chan_cancel_timer` on an id slot of the channel. -/
def cancelSlot (slot : TimerSlot) (q : SchedTimers) : SchedTimers :=
  let r := q.cancelTimer (q.timerIds slot)
  if r.2 then r.1.setSlot slot 0 else r.1

/-- `openr2_chan_cancel_all_timers`. -/
def cancelAllTimers : SchedTimers := ⟨fun _ => .blank, 0, 1, fun _ => 0⟩

/-- The timers that `openr2_chan_handle_timers` copies for its dispatch. -/
def due (now : Timeval) (q : SchedTimers) : List SchedCell :=
  q.waiting.filter fun t => t.time.msUntil now ≤ 0

/-- It cancels them by copies of their ids. -/
def withdraw (ts : List SchedCell) (q : SchedTimers) : SchedTimers :=
  ts.foldl (fun q t => (q.cancelTimer t.id).1) q

/-- The entry that is taken for the next timer, whether one waits or not. -/
def head (q : SchedTimers) : Timeval := (q.schedTimers 0).time

/-- `openr2_chan_get_time_to_next_event`, when the clock says `now`. -/
def timeToNextEvent (now : Timeval) (q : SchedTimers) : Int :=
  if q.timersCount = 0 then -1
  else if q.head.msUntil now < 0 then 0
  else q.head.msUntil now

/-- The walk of `openr2_context_get_time_to_next_event`, from one channel of its list on,
with the winner so far. -/
def contest (now : Timeval) : List SchedTimers → Option SchedTimers → Int
  | [], _ => -1
  | q :: chans, winner =>
    if q.timersCount < 1 then contest now chans winner
    else
      let w := winner.getD q
      match chans with
      | [] => if w.head.msUntil now < 0 then 0 else w.head.msUntil now
      | r :: _ => contest now chans (some (if r.head.before w.head then r else w))

/-- `openr2_context_get_time_to_next_event`. -/
def contextTimeToNextEvent (clock : Option Timeval) (chans : List SchedTimers) : Int :=
  match clock with
  | none => -1
  | some now => contest now chans none

end SchedTimers

/-- What happens to the timers of a channel. `arm` keeps the id in a slot, which gets the
-1 of a failure too, and `clear` writes a zero by hand. -/
inductive SchedOp where
  | arm (slot : TimerSlot) (clock : Option Timeval) (ms : Nat) (callback : TimerCallback)
  | add (clock : Option Timeval) (ms : Nat) (callback : TimerCallback)
  | cancelSlot (slot : TimerSlot)
  | cancel (id : Int)
  | cancelAll
  | clear (slot : TimerSlot)
  | expire (now : Timeval)
  deriving DecidableEq, Repr

/-- What the clock says to an operation that schedules a timer. -/
def SchedOp.clock? : SchedOp → Option Timeval
  | .arm _ clock _ _ | .add clock _ _ => clock
  | _ => none

/-- The timers of a channel, and the slots for which those with these ids were scheduled. -/
structure Schedule where
  timers : SchedTimers
  slot? : Int → Option TimerSlot

namespace Schedule

/-- As `__openr2_chan_new` leaves it. -/
def new : Schedule := ⟨.cancelAllTimers, fun _ => none⟩

def apply (s : Schedule) : SchedOp → Schedule
  | .arm slot clock ms callback =>
    let r := s.timers.addTimer clock ms callback
    ⟨r.1.setSlot slot r.2, Function.update s.slot? r.2 (some slot)⟩
  | .add clock ms callback =>
    let r := s.timers.addTimer clock ms callback
    ⟨r.1, Function.update s.slot? r.2 none⟩
  | .cancelSlot slot => ⟨s.timers.cancelSlot slot, s.slot?⟩
  | .cancel id => ⟨(s.timers.cancelTimer id).1, s.slot?⟩
  | .cancelAll => ⟨.cancelAllTimers, s.slot?⟩
  | .clear slot => ⟨s.timers.setSlot slot 0, s.slot?⟩
  | .expire now => ⟨s.timers.withdraw (s.timers.due now), s.slot?⟩

def applyAll (s : Schedule) (ops : List SchedOp) : Schedule := ops.foldl apply s

end Schedule

end OpenR2
