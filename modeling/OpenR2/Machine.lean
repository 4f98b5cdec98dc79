import OpenR2.Lib.Runs
import OpenR2.Cas

namespace OpenR2

/-- What can happen to a channel: a line change (or a poll), an output of the
tone detector, the expiry of a timer, a call of the user, an alarm. -/
inductive Input where
  | cas
  | mfTone (tone : Tone)
  | timer (id : Nat)
  | api (a : ApiCall)
  | alarm (on : Bool)
  deriving DecidableEq, Repr

section Step

variable (cx : R2Context) (env : Env)

def runTimer (cb : TimerCallback) (c : R2Chan) : R2Chan :=
  match cb with
  | .mfFwdSafetyTimeoutExpired => mfFwdSafetyTimeoutExpired cx env c
  | .mfBackCycleTimeoutExpired => mfBackCycleTimeoutExpired cx env c
  | .mfBackResumeCycle => mfBackResumeCycle cx env c
  | .seizeTimeoutExpired => seizeTimeoutExpired cx env c
  | .r2SeizePersistExpired => r2SeizePersistExpired cx env c
  | .r2AnswerTimeoutExpired => r2AnswerTimeoutExpired c
  | .readyToAnswer => readyToAnswer c
  | .doubleAnswerHandler => doubleAnswerHandler cx env c
  | .r2MeteringPulse => r2MeteringPulse c
  | .r2SetCallDown => r2SetCallDown cx env c
  | .persistenceCheckExpired => persistenceCheckExpired cx env c
  | .startDialingDtmf => startDialingDtmf c

/-- The timer with this id, if it waits. -/
def R2Chan.timer? (id : Nat) (c : R2Chan) : Option SchedTimer :=
  c.timers.schedTimers.find? fun t => t.id == id

/-- A pending timer leaves the queue and is called. Its slot keeps the id. -/
def expire (id : Nat) (c : R2Chan) : R2Chan :=
  match c.timer? id with
  | none => c
  | some t => runTimer cx env t.callback (c.mapTimers (·.removeId id))

/-- The alarm cases of `openr2_chan_handle_oob_event`. -/
def handleAlarm (on : Bool) (c : R2Chan) : R2Chan :=
  handleAlarmState cx env ((c.setInalarm on).emit (.onHardwareAlarm on))

/-- `openr2_chan_handle_media` for MF signalling: no detector runs while the engine is off. -/
def handleMedia (tone : Tone) (c : R2Chan) : R2Chan :=
  if c.mfState = .offState then c else handleMfTone cx env tone c

/-- A step starts with a clean record of acts. -/
def R2Chan.start (c : R2Chan) : R2Chan := { c with out := [] }

/-- One input. -/
def step (i : Input) (c : R2Chan) : R2Chan :=
  let c := c.start
  match i with
  | .cas => handleCas cx env c
  | .mfTone tone => handleMedia cx env tone c
  | .timer id => expire cx env id c
  | .api a => (apiCall cx env a c).1
  | .alarm on => handleAlarm cx env on c

end Step

/-- One input, and how the world answers while it is handled. -/
structure Tick where
  env : Env
  input : Input

def tick (cx : R2Context) (c : R2Chan) (t : Tick) : R2Chan × List Act :=
  let d := step cx t.env t.input c
  (d, d.out)

/-- The channel after a run, and all that was done. -/
def run (cx : R2Context) (ts : List Tick) (c : R2Chan) : R2Chan × List Act :=
  Runs.exec (tick cx) ts c

/-- A channel on which `set_idle` or `set_blocked` has run. -/
inductive Started (cx : R2Context) : R2Chan → Prop where
  | idle (env : Env) (c : R2Chan) : Started cx (setIdle cx env c).1
  | blocked (env : Env) (c : R2Chan) : Started cx (setBlocked cx env c).1

end OpenR2
