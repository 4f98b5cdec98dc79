import Mathlib.Data.List.Sort
import OpenR2.Context

namespace OpenR2

structure Timeval where
  tvSec : Int
  tvUsec : Int
  deriving DecidableEq, Repr

/-- `openr2_timercmp` with `<`. -/
def Timeval.before (a b : Timeval) : Prop :=
  if a.tvSec = b.tvSec then a.tvUsec < b.tvUsec else a.tvSec < b.tvSec

instance (a b : Timeval) : Decidable (a.before b) := by
  unfold Timeval.before; exact inferInstance

/-- The due time of a timer of `ms` milliseconds. The carry is taken above, and
not at, one million microseconds. -/
def Timeval.after (tv : Timeval) (ms : Nat) : Timeval :=
  let sec := tv.tvSec + ms / 1000
  let usec := tv.tvUsec + ms % 1000 * 1000
  if usec > 1000000 then ⟨sec + 1, usec - 1000000⟩ else ⟨sec, usec⟩

/-- The functions that are scheduled as timer callbacks. -/
inductive TimerCallback where
  | mfFwdSafetyTimeoutExpired | mfBackCycleTimeoutExpired | mfBackResumeCycle
  | seizeTimeoutExpired | r2SeizePersistExpired | r2AnswerTimeoutExpired | readyToAnswer
  | doubleAnswerHandler | r2MeteringPulse | r2SetCallDown | persistenceCheckExpired
  | startDialingDtmf
  deriving DecidableEq, Repr

/-- The fields of `openr2_chan_timer_ids_t`. -/
inductive TimerSlot where
  | mfFwdSafety | r2Seize | r2SeizePersist | r2Answer | r2MeteringPulse | r2DoubleAnswer
  | mfBackResumeCycle | mfBackCycle | r2AnswerDelay | casPersistenceCheck | dtmfStartDial
  deriving DecidableEq, Repr

structure SchedTimer where
  time : Timeval
  callback : TimerCallback
  id : Nat
  deriving DecidableEq, Repr

def maxSchedTimers : Nat := 10

/-- The timer fields of a channel. `timers_count` is the length of the list. -/
structure TimerQueue where
  schedTimers : List SchedTimer
  timerId : Nat
  timerIds : TimerSlot → Int

namespace TimerQueue

def setSlot (slot : TimerSlot) (id : Int) (q : TimerQueue) : TimerQueue :=
  { q with timerIds := fun s => if s = slot then id else q.timerIds s }

/-- The loop of `openr2_chan_cancel_timer`: the first timer with this id goes. -/
def removeId (id : Int) (q : TimerQueue) : TimerQueue :=
  { q with schedTimers := q.schedTimers.eraseP (fun t => (t.id : Int) == id) }

/-- `openr2_chan_cancel_timer` on an id slot. The slot is cleared only when a
timer was found: the id of a timer that fired stays in its slot. -/
def cancelTimer (slot : TimerSlot) (q : TimerQueue) : TimerQueue :=
  let id := q.timerIds slot
  if id < 1 then q
  else if q.schedTimers.any (fun t => (t.id : Int) == id) then (q.removeId id).setSlot slot 0
  else q

/-- `openr2_chan_add_timer` once the clock has been read. -/
def addTimer (now : Timeval) (ms : Nat) (callback : TimerCallback) (q : TimerQueue) :
    TimerQueue × Int :=
  if q.schedTimers.length = maxSchedTimers then (q, -1)
  else
    let id := q.timerId + 1
    let t : SchedTimer := ⟨now.after ms, callback, id⟩
    ({ q with
        schedTimers := q.schedTimers.orderedInsert (fun a b => a.time.before b.time) t
        timerId := id }, id)

/-- `openr2_chan_cancel_all_timers`. -/
def cancelAllTimers : TimerQueue := ⟨[], 1, fun _ => 0⟩

/-- The purposes of the timers that are waiting. -/
def pending (q : TimerQueue) : List TimerCallback := q.schedTimers.map SchedTimer.callback

end TimerQueue

/-- The user's callbacks, with their arguments. -/
inductive Event where
  | onCallInit | onCallProceed
  | onCallOffered (ani dnis : List Tone) (category : Category) (aniRestricted : Bool)
  | onCallAccepted (mode : CallMode)
  | onCallAnswered
  | onCallDisconnect (cause : DisconnectCause)
  | onCallEnd
  | onProtocolError (reason : ProtocolError)
  | onLineBlocked | onLineIdle
  | onDnisDigitReceived (digit : Tone) | onAniDigitReceived (digit : Tone)
  | onBillingPulseReceived
  | onHardwareAlarm (alarm : Bool)
  | onOsError
  deriving DecidableEq, Repr

/-- What a channel does, in order: its calls of the I/O, MF, DTMF and event
interfaces and of the clock, its writes of the call state, and its accesses to
the digit buffers by index. -/
inductive Act where
  | setCas (bits : Nat) | getCas | flushWriteBuffers
  | mfSelectTone (handle : Option Nat) (tone : Tone)
  | mfWriteInit (handle : Option Nat) (forward : Bool)
  | mfReadInit (handle : Option Nat) (forward : Bool)
  | mfWriteDispose (handle : Option Nat) | mfReadDispose (handle : Option Nat)
  | dtmfRxInit | dtmfTxInit | dtmfTxSetTiming (on off : Int) | dtmfTxPut (digits : List Tone)
  | gettimeofday
  | event (e : Event)
  | callState (s : CallState)
  | storeAni (index : Nat) (digit : Tone) | storeDnis (index : Nat) (digit : Tone)
  | readDnis (index : Nat) | readAni (index : Option Nat)
  deriving DecidableEq, Repr

/-- The calls a user can make on a channel. -/
inductive ApiCall where
  | makeCall (ani : Option (List Tone)) (dnis : List Tone) (category : Category)
      (aniRestricted : Bool)
  | acceptCall (mode : CallMode)
  | answerCall
  | answerCallWithMode (mode : AnswerMode)
  | disconnectCall (cause : DisconnectCause)
  | ackCall
  | setIdle
  | setBlocked
  deriving DecidableEq, Repr

/-- The answers of everything outside the library during one step. Each may
depend on all that the step has done so far, so every sequence of results is
some environment. `pastDnis` gives the bytes behind the DNIS array and `nullAni`
the one a null ANI pointer points to, on which C says nothing; `reenter` is the
API call a callback makes before it returns. -/
structure Env where
  setCas : List Act → Bool
  getCas : List Act → Option Nat
  flushWriteBuffers : List Act → Bool
  mfSelectTone : List Act → Bool
  mfWriteInit : List Act → Option Nat
  mfReadInit : List Act → Option Nat
  dtmfRxInit : List Act → Bool
  dtmfTxInit : List Act → Bool
  dtmfTxPut : List Act → Bool
  gettimeofday : List Act → Option Timeval
  onDnisDigitReceived : List Act → Bool
  reenter : List Act → Option ApiCall
  pastDnis : Nat → Tone
  nullAni : Tone

/-- Callbacks do not call back into the library. -/
def Env.Quiet (env : Env) : Prop := ∀ h, env.reenter h = none

/-- Every call of the I/O, the MF interface and the clock succeeds. -/
structure Env.Sound (env : Env) : Prop where
  quiet : env.Quiet
  setCas : ∀ h, env.setCas h = true
  flush : ∀ h, env.flushWriteBuffers h = true
  select : ∀ h, env.mfSelectTone h = true
  writeInit : ∀ h, (env.mfWriteInit h).isSome = true
  readInit : ∀ h, (env.mfReadInit h).isSome = true
  clock : ∀ h, (env.gettimeofday h).isSome = true

/-- The world in which all goes well and the line shows these bits. -/
def Env.fair (bits : Nat) : Env where
  setCas _ := true
  getCas _ := some bits
  flushWriteBuffers _ := true
  mfSelectTone _ := true
  mfWriteInit _ := some 0
  mfReadInit _ := some 1
  dtmfRxInit _ := true
  dtmfTxInit _ := true
  dtmfTxPut _ := true
  gettimeofday _ := some ⟨0, 0⟩
  onDnisDigitReceived _ := true
  reenter _ := none
  pastDnis _ := 0
  nullAni := 0

theorem Env.fair_sound (bits : Nat) : (Env.fair bits).Sound :=
  ⟨fun _ => rfl, fun _ => rfl, fun _ => rfl, fun _ => rfl, fun _ => rfl, fun _ => rfl, fun _ => rfl⟩

/-- `openr2_chan_t`. `out` is what the current step has done. -/
structure R2Chan where
  direction : Direction
  mfState : MfState
  mfGroup : MfGroup
  r2State : CasState
  callState : CallState
  casRead : Nat
  casWrite : Nat
  casRawRead : Nat
  casPersistenceCheckSignal : Option Nat
  casRxSignal : CasSignal
  casTxSignal : CasSignal
  inalarm : Bool
  ani : List Tone
  aniPtr : Option Nat
  aniLen : Nat
  dnis : List Tone
  dnisIndex : Nat
  dnisLen : Nat
  callerAniIsRestricted : Bool
  callerCategory : Tone
  mfWriteHandle : Option Nat
  mfReadHandle : Option Nat
  dialingDtmf : Bool
  detectingDtmf : Bool
  mfWriteTone : Tone
  mfReadTone : Tone
  mfThresholdTone : Tone
  mfThresholdTime : Timeval
  answered : Bool
  categorySent : Bool
  callDnisCallback : Bool
  readEnabled : Bool
  timers : TimerQueue
  out : List Act

namespace R2Chan

/-- A channel as `__openr2_chan_new` leaves it. Its MF state is neither on nor off. -/
def new : R2Chan where
  direction := .stopped
  mfState := .unset
  mfGroup := .noGroup
  r2State := .init
  callState := .idle
  casRead := 0
  casWrite := 0
  casRawRead := 0
  casPersistenceCheckSignal := none
  casRxSignal := .invalid
  casTxSignal := .invalid
  inalarm := false
  ani := List.replicate maxAniBuffer 0
  aniPtr := none
  aniLen := 0
  dnis := List.replicate maxDnisBuffer 0
  dnisIndex := 0
  dnisLen := 0
  callerAniIsRestricted := false
  callerCategory := Tone.invalid
  mfWriteHandle := some 0
  mfReadHandle := some 1
  dialingDtmf := false
  detectingDtmf := false
  mfWriteTone := 0
  mfReadTone := 0
  mfThresholdTone := 0
  mfThresholdTime := ⟨0, 0⟩
  answered := false
  categorySent := false
  callDnisCallback := false
  readEnabled := false
  timers := ⟨[], 1, fun _ => 0⟩
  out := []

def did (a : Act) (c : R2Chan) : R2Chan := { c with out := c.out ++ [a] }

/-- Call the user, who only looks. -/
def emit (e : Event) (c : R2Chan) : R2Chan := c.did (.event e)

def setCallState (s : CallState) (c : R2Chan) : R2Chan :=
  { c.did (.callState s) with callState := s }

/-- `r2_set_state`. -/
def setR2State (r : CasState) (c : R2Chan) : R2Chan := { c with r2State := r }

def setMfState (m : MfState) (c : R2Chan) : R2Chan := { c with mfState := m }

def setMfGroup (g : MfGroup) (c : R2Chan) : R2Chan := { c with mfGroup := g }

def setDirection (d : Direction) (c : R2Chan) : R2Chan := { c with direction := d }

def setAnswered (c : R2Chan) : R2Chan := { c with answered := true }

def setMfWriteTone (t : Tone) (c : R2Chan) : R2Chan := { c with mfWriteTone := t }

def setMfReadTone (t : Tone) (c : R2Chan) : R2Chan := { c with mfReadTone := t }

def setDnisIndex (i : Nat) (c : R2Chan) : R2Chan := { c with dnisIndex := i }

def setInalarm (on : Bool) (c : R2Chan) : R2Chan := { c with inalarm := on }

def setCallerCategory (t : Tone) (c : R2Chan) : R2Chan := { c with callerCategory := t }

def restrictAni (c : R2Chan) : R2Chan := { c with callerAniIsRestricted := true }

def setCategorySent (c : R2Chan) : R2Chan := { c with categorySent := true }

def setMfHandles (w r : Nat) (c : R2Chan) : R2Chan :=
  { c with mfWriteHandle := some w, mfReadHandle := some r }

def setDtmf (dialing detecting : Bool) (c : R2Chan) : R2Chan :=
  { c with dialingDtmf := dialing, detectingDtmf := detecting }

def setThreshold (t : Tone) (now : Timeval) (c : R2Chan) : R2Chan :=
  { c with mfThresholdTone := t, mfThresholdTime := now }

def setCasRawRead (cas : Nat) (c : R2Chan) : R2Chan := { c with casRawRead := cas }

def setCasTx (cas : Nat) (s : CasSignal) (c : R2Chan) : R2Chan :=
  { c with casWrite := cas, casTxSignal := s }

def setCasRead (cas : Nat) (c : R2Chan) : R2Chan := { c with casRead := cas }

def setPersistence (cas : Option Nat) (c : R2Chan) : R2Chan :=
  { c with casPersistenceCheckSignal := cas }

def mapTimers (f : TimerQueue → TimerQueue) (c : R2Chan) : R2Chan := { c with timers := f c.timers }

def cancelTimer (slot : TimerSlot) (c : R2Chan) : R2Chan := c.mapTimers (·.cancelTimer slot)

/-- `CAS_LOG_RX`: all it leaves is the meaning of the received signal. -/
def logRx (s : CasSignal) (c : R2Chan) : R2Chan := { c with casRxSignal := s }

def pending (c : R2Chan) : List TimerCallback := c.timers.pending

/-- The events among the acts of the step. -/
def events (c : R2Chan) : List Event :=
  c.out.filterMap fun a => match a with
    | .event e => some e
    | _ => none

end R2Chan

/-- The string held by a character buffer. -/
def cstr (buffer : List Tone) : List Tone := buffer.takeWhile (fun t => t ≠ 0)

/-- `strncpy` into an array of 80 bytes, which pads with zeros, and the zero
that the code puts in the last byte. -/
def strncpy80 (s : List Tone) : List Tone :=
  let s := (cstr s).take 79
  s ++ List.replicate (80 - s.length) 0

section Timers

variable (env : Env)

/-- `openr2_chan_add_timer`. -/
def addTimer (ms : Nat) (callback : TimerCallback) (c : R2Chan) : R2Chan × Int :=
  match env.gettimeofday c.out with
  | none => ((c.did .gettimeofday).emit .onOsError, -1)
  | some now =>
    ((c.did .gettimeofday).mapTimers fun q => (q.addTimer now ms callback).1,
      (c.timers.addTimer now ms callback).2)

/-- Schedule a timer and keep its id in a slot, whatever the slot held. -/
def armTimer (slot : TimerSlot) (ms : Nat) (callback : TimerCallback) (c : R2Chan) : R2Chan :=
  let r := addTimer env ms callback c
  r.1.mapTimers (·.setSlot slot r.2)

end Timers

end OpenR2
