import Mathlib.Logic.Relation
import OpenR2.Machine

namespace OpenR2

/-- The acts that show how a call proceeds. -/
inductive Mark where
  | event (e : Event)
  | callState (s : CallState)
  deriving DecidableEq, Repr

def Act.mark? : Act → Option Mark
  | .event e => some (.event e)
  | .callState s => some (.callState s)
  | _ => none

/-- The control part of a channel: what remains when the numbers, the tones, the
line as received and the handles are forgotten. -/
structure Control where
  direction : Direction
  callState : CallState
  r2State : CasState
  mfState : MfState
  mfGroup : MfGroup
  answered : Bool
  casTxSignal : CasSignal
  inalarm : Bool
  pending : List TimerCallback
  marks : List Mark

def R2Chan.control (c : R2Chan) : Control where
  direction := c.direction
  callState := c.callState
  r2State := c.r2State
  mfState := c.mfState
  mfGroup := c.mfGroup
  answered := c.answered
  casTxSignal := c.casTxSignal
  inalarm := c.inalarm
  pending := c.pending
  marks := c.out.filterMap Act.mark?

/-- Events that say nothing of the progress of a call on the line. -/
def Event.Neutral : Event → Prop
  | .onCallOffered .. | .onCallAccepted _ | .onCallAnswered | .onCallDisconnect _
  | .onBillingPulseReceived => False
  | _ => True

/-- States in which only an incoming call can be. -/
def CasState.Backward : CasState → Prop
  | .seizeAckTxd | .answerTxd | .clearBackTxd | .executingDoubleAnswer | .forcedReleaseTxd => True
  | _ => False

/-- States in which only an outgoing call can be. -/
def CasState.Forward : CasState → Prop
  | .seizeTxd | .seizeAckRxd | .clearBackToneRxd | .acceptRxd | .answerRxd | .clearBackRxd
  | .answerRxdMfPending | .clearFwdTxd | .forcedReleaseRxd | .clearBackAfterClearFwdRxd
  | .seizeTxdClearFwdPending | .doubleSeizureClearFwdPending | .doubleSeizure => True
  | _ => False

def MfState.Backward : MfState → Prop
  | .seizeAckTxd | .categoryRqTxd | .dnisRqTxd | .aniRqTxd | .chgGiiTxd | .acceptedTxd
  | .disconnectTxd => True
  | _ => False

def MfState.Forward : MfState → Prop
  | .categoryTxd | .dnisTxd | .dnisEndTxd | .aniTxd | .aniEndTxd | .waitingTimeout => True
  | _ => False

def MfGroup.Backward : MfGroup → Prop
  | .backInit | .ga | .gb | .gc => True
  | _ => False

def MfGroup.Forward : MfGroup → Prop
  | .fwdInit | .gi | .gii | .giii => True
  | _ => False

/-- The groups in which the forward side takes part in the register signalling. -/
def MfGroup.Dials : MfGroup → Prop
  | .gi | .gii | .giii => True
  | _ => False

/-- Call states of incoming calls only. -/
def CallState.Incoming : CallState → Prop
  | .collecting | .offered | .accepted => True
  | _ => False

/-- The direction of the calls that a timer serves. Persistence checks serve the line. -/
def TimerCallback.Serves : TimerCallback → Direction → Prop
  | .persistenceCheckExpired, _ => True
  | .mfFwdSafetyTimeoutExpired, .forward | .seizeTimeoutExpired, .forward
  | .r2SeizePersistExpired, .forward | .r2AnswerTimeoutExpired, .forward
  | .r2MeteringPulse, .forward | .r2SetCallDown, .forward => True
  | .mfBackCycleTimeoutExpired, .backward | .mfBackResumeCycle, .backward
  | .readyToAnswer, .backward | .doubleAnswerHandler, .backward => True
  | _, _ => False

namespace Control

/-- The code knows, by what it has tested, that the call is an outgoing one. -/
def Forward (k : Control) : Prop :=
  k.direction = .forward ∨ k.r2State.Forward ∨ k.direction ≠ .backward ∧ k.callState ≠ .idle

/-- The code knows that the call is an incoming one. -/
def Backward (k : Control) : Prop :=
  k.direction = .backward ∨ k.r2State.Backward ∨ k.mfGroup.Backward ∨ k.callState.Incoming

def Toward (k : Control) : Direction → Prop
  | .forward => k.Forward
  | .backward => k.Backward
  | .stopped => True

/-- Where the code schedules a timer. The timer of `r2_set_call_down` is part of the
clearing, and that of `r2_seize` part of the call. -/
def Arms (k : Control) : TimerCallback → Prop
  | .persistenceCheckExpired | .mfBackCycleTimeoutExpired | .mfBackResumeCycle => True
  | .mfFwdSafetyTimeoutExpired => k.mfState = .waitingTimeout
  | .r2SeizePersistExpired => k.r2State = .doubleSeizureClearFwdPending
  | .r2AnswerTimeoutExpired => k.r2State = .acceptRxd
  | .readyToAnswer => k.callState = .accepted
  | .doubleAnswerHandler => k.r2State = .answerTxd ∨ k.r2State = .executingDoubleAnswer
  | .r2MeteringPulse => k.r2State = .clearBackRxd ∨ k.r2State = .forcedReleaseRxd
  | .seizeTimeoutExpired | .r2SetCallDown | .startDialingDtmf => False

def marked (k : Control) (ms : List Mark) : Control := { k with marks := k.marks ++ ms }

/-- After `openr2_proto_init`, a state of rest and its line signal. -/
def reset (r : CasState) (tx : CasSignal) (k : Control) : Control where
  direction := .stopped
  callState := .idle
  r2State := r
  mfState := .offState
  mfGroup := .noGroup
  answered := false
  casTxSignal := tx
  inalarm := k.inalarm
  pending := []
  marks := k.marks ++ [.callState .idle]

end Control

/-- What sets off a step, as far as the moves depend on it: something that lets a
call advance to its answer, an acknowledgement of the user out of turn, anything else. -/
inductive Stimulus where
  | advance | ack | other
  deriving DecidableEq, Repr

/-- The changes of the line state that leave the line signal alone. -/
inductive Hop (k : Control) : CasState → Prop where
  | clearFwdRxd (h : k.r2State = .seizeAckTxd ∨ k.r2State = .answerTxd ∨
      k.r2State = .executingDoubleAnswer ∨ k.r2State = .doubleSeizure) : Hop k .clearFwdRxd
  | glare (h : k.r2State = .seizeTxd ∨ k.r2State = .seizeTxdClearFwdPending) :
      Hop k .doubleSeizure
  | seizeAck (h : k.r2State = .seizeTxd) : Hop k .seizeAckRxd
  | holdSeize (h : k.r2State = .seizeTxd) : Hop k .seizeTxdClearFwdPending
  | holdGlare (h : k.r2State = .doubleSeizure) : Hop k .doubleSeizureClearFwdPending
  | release (r : CasState) (h : k.r2State = .acceptRxd ∨ k.r2State = .seizeAckRxd ∨
      k.r2State = .answerRxd ∨ k.r2State = .answerRxdMfPending)
      (hr : r = .clearBackRxd ∨ r = .forcedReleaseRxd) : Hop k r
  | earlyAnswer (h : k.r2State = .seizeAckRxd) : Hop k .answerRxdMfPending
  | lateRelease (h : k.r2State = .clearFwdTxd) : Hop k .clearBackAfterClearFwdRxd
  | tone (r : CasState) (hd : k.direction = .forward) (hm : k.mfState ≠ .offState)
      (hr : r = .acceptRxd ∨ r = .clearBackToneRxd) : Hop k r

/-- The moves of the control part, each with what the code has tested when it
makes it. `sound` says that the I/O layer never fails to set the line. -/
inductive Move (cx : R2Context) (sound : Prop) (s : Stimulus) (k : Control) : Control → Prop where
  | reset : Move cx sound s k (k.reset .idle .idle)
  | block : Move cx sound s k (k.reset .blocked .block)
  | notify (e : Event) (he : e.Neutral) : Move cx sound s k (k.marked [.event e])
  | drop (p : List TimerCallback) (hp : p ⊆ k.pending) : Move cx sound s k { k with pending := p }
  | arm (cb : TimerCallback) (d : Direction) (p : List TimerCallback) (hk : k.Toward d)
      (hs : cb.Serves d) (ha : k.Arms cb) (hp : p ⊆ cb :: k.pending) :
      Move cx sound s k { k with pending := p }
  | incoming (hr : k.r2State = .idle) (ha : k.inalarm = false) :
      Move cx sound s k { k.marked [.callState .collecting] with
        direction := .backward
        callState := .collecting
        r2State := .seizeAckTxd
        mfState := .seizeAckTxd
        mfGroup := .backInit }
  | ack (h : k.r2State = .seizeAckTxd ∨ s = .ack) :
      Move cx sound s k { k with casTxSignal := .seizeAck }
  | lose (h : ¬ sound) (tx : CasSignal) : Move cx sound s k { k with casTxSignal := tx }
  | backMf (m : MfState) (hk : k.Backward) (ho : k.mfState ≠ .offState ∨ k.callState = .offered)
      (hm : m.Backward) :
      Move cx sound s k { k with mfState := m }
  | backGroup (g : MfGroup) (hk : k.Backward) (hg : g.Backward) :
      Move cx sound s k { k with mfGroup := g }
  | fwdMf (m : MfState) (hk : k.Forward) (ho : k.mfState ≠ .offState ∨ k.r2State = .seizeAckRxd)
      (hm : m.Forward) : Move cx sound s k { k with mfState := m }
  | fwdGroup (g : MfGroup) (hk : k.Forward) (hg : g.Forward) :
      Move cx sound s k { k with mfGroup := g }
  | offer (ani dnis : List Tone) (cat : Category) (restricted : Bool)
      (h : k.callState = .collecting) :
      Move cx sound s k { k.marked [.callState .offered,
          .event (.onCallOffered ani dnis cat restricted)] with
        callState := .offered }
  | danceEnded (hs : s = .advance) (hm : k.mfState = .acceptedTxd)
      (hg : k.mfGroup = .ga ∨ k.mfGroup = .gb) :
      Move cx sound s k { k.marked [.callState .accepted] with
        mfState := .offState
        callState := .accepted }
  | accepted (mode : CallMode) (hs : s = .advance) :
      Move cx sound s k (k.marked [.event (.onCallAccepted mode)])
  | answer (h : k.callState = .accepted) :
      Move cx sound s k { k.marked [.callState .answered] with
        casTxSignal := .answer
        callState := .answered
        r2State := .answerTxd
        answered := true }
  | clearBackward (hk : k.Backward) :
      Move cx sound s k { k with
        r2State := .clearBackTxd, mfState := .offState, casTxSignal := .clearBack }
  | forcedRelease (hk : k.Backward) :
      Move cx sound s k { k with
        r2State := .forcedReleaseTxd, mfState := .offState, casTxSignal := .forcedRelease }
  | executeDouble (p : List TimerCallback) (hr : k.r2State = .answerTxd) (hp : p ⊆ k.pending) :
      Move cx sound s k { k with
        r2State := .executingDoubleAnswer
        mfState := .offState
        casTxSignal := .clearBack
        pending := p }
  | reanswer (hr : k.r2State = .executingDoubleAnswer) :
      Move cx sound s k { k with casTxSignal := .answer, r2State := .answerTxd }
  | hop (r : CasState) (h : Hop k r) : Move cx sound s k { k with r2State := r }
  | report (cause : DisconnectCause) (hs : s ≠ .advance)
      (hk : k.Forward ∨ k.Backward ∨ k.r2State = .clearFwdRxd) :
      Move cx sound s k { k.marked [.callState .disconnected, .event (.onCallDisconnect cause)] with
        callState := .disconnected }
  | makeCall (p : List TimerCallback) (n : List Mark) (hc : k.callState = .idle)
      (ha : k.inalarm = false) (hp : p ⊆ .seizeTimeoutExpired :: k.pending)
      (hn : ∀ m ∈ n, ∃ e : Event, e.Neutral ∧ m = .event e) :
      Move cx sound s k { k.marked (n ++ [.callState .dialing]) with
        casTxSignal := .seize
        r2State := .seizeTxd
        callState := .dialing
        direction := .forward
        mfGroup := .fwdInit
        pending := p }
  | clearForward (p : List TimerCallback) (hk : k.Forward) (hp : p ⊆ .r2SetCallDown :: k.pending) :
      Move cx sound s k { k with
        r2State := .clearFwdTxd
        mfState := .offState
        casTxSignal := .clearForward
        pending := p }
  | answered (hs : s = .advance) (hr : k.r2State = .acceptRxd) :
      Move cx sound s k { k.marked [.callState .answered, .event .onCallAnswered] with
        r2State := .answerRxd
        callState := .answered
        mfState := .offState
        answered := true }
  | billing (hs : s = .advance) (hr : k.r2State = .clearBackRxd ∨ k.r2State = .forcedReleaseRxd)
      (hm : cx.timers.r2MeteringPulse ≠ 0) :
      Move cx sound s k { k.marked [.event .onBillingPulseReceived] with r2State := .answerRxd }
  | alarm : Move cx sound s k { k with inalarm := true }
  | mute (ha : k.inalarm = true) : Move cx sound s k { k with casTxSignal := .invalid }
  | recover (r : CasState) (tx : CasSignal) (h : r = .idle ∧ tx = .idle ∨ r = .blocked ∧ tx = .block) :
      Move cx sound s k { (k.marked [.event (.onHardwareAlarm false)]).reset r tx with
        inalarm := false }

/-- An answer on the line, where the channel waits for one: after the acceptance,
or in what may be a metering pulse. -/
def lineAdvances (cx : R2Context) (cas : Nat) (c : R2Chan) : Prop :=
  cas = cx.casSignals .answer ∧
    (c.r2State = .acceptRxd ∨ cx.timers.r2MeteringPulse ≠ 0 ∧
      (c.r2State = .clearBackRxd ∨ c.r2State = .forcedReleaseRxd))

instance (cx : R2Context) (cas : Nat) (c : R2Chan) : Decidable (lineAdvances cx cas c) := by
  unfold lineAdvances; exact inferInstance

/-- The forward side will take the tone it hears for an acceptance. -/
def takesForAcceptance (cx : R2Context) (c : R2Chan) : Prop :=
  match c.mfGroup with
  | .gi =>
    dnisRequest cx c.mfReadTone = none ∧
      ¬ (c.categorySent ∧ c.mfReadTone = cx.gaTones.requestNextAniDigit) ∧
      c.mfReadTone ≠ requestCategoryTone cx ∧
      c.mfReadTone ≠ cx.gaTones.requestChangeToG2 ∧
      c.mfReadTone = cx.gaTones.addressCompleteChargeSetup
  | .gii => isAcceptTone cx c.mfReadTone
  | _ => False

instance (cx : R2Context) (c : R2Chan) : Decidable (takesForAcceptance cx c) := by
  unfold takesForAcceptance
  cases c.mfGroup <;> exact inferInstance

/-- Silence ends the register signalling with an accepted call. -/
def silenceAdvances (cx : R2Context) (env : Env) (c : R2Chan) : Prop :=
  match c.direction with
  | .forward => takesForAcceptance cx c
  | .backward =>
    (setSilence cx env c).mfState = .acceptedTxd ∧
      ((setSilence cx env c).mfGroup = .ga ∨ (setSilence cx env c).mfGroup = .gb)
  | .stopped => False

instance (cx : R2Context) (env : Env) (c : R2Chan) : Decidable (silenceAdvances cx env c) := by
  unfold silenceAdvances
  cases c.direction <;> exact inferInstance

/-- The detector still runs, and a tone that was heard is found to be off. -/
def toneAdvances (cx : R2Context) (env : Env) (tone : Tone) (c : R2Chan) : Prop :=
  tone = 0 ∧ c.mfState ≠ .offState ∧ c.mfReadTone ≠ 0 ∧ (checkThreshold cx env 0 c).2 = 0 ∧
    silenceAdvances cx env (checkThreshold cx env 0 c).1

instance (cx : R2Context) (env : Env) (tone : Tone) (c : R2Chan) :
    Decidable (toneAdvances cx env tone c) := by
  unfold toneAdvances; exact inferInstance

/-- A line input acts on an answer that is waited for. -/
def casAdvances (cx : R2Context) (env : Env) (c : R2Chan) : Prop :=
  ∃ cas ∈ (casPattern cx env c).2, lineAdvances cx cas c

instance (cx : R2Context) (env : Env) (c : R2Chan) : Decidable (casAdvances cx env c) := by
  unfold casAdvances; exact inferInstance

/-- The expiry of the answer delay, or of the check of a pattern that persists and
is an answer waited for. -/
def timerAdvances (cx : R2Context) (env : Env) (cb : TimerCallback) (c : R2Chan) : Prop :=
  match cb with
  | .readyToAnswer => True
  | .persistenceCheckExpired =>
    let r := ioGetCas env (c.mapTimers (·.setSlot .casPersistenceCheck 0))
    (∃ raw ∈ r.2, r.1.casPersistenceCheckSignal = some (raw &&& cx.casR2Bits)) ∧
      casAdvances cx env r.1
  | _ => False

instance (cx : R2Context) (env : Env) (cb : TimerCallback) (c : R2Chan) :
    Decidable (timerAdvances cx env cb c) := by
  unfold timerAdvances
  cases cb <;> exact inferInstance

/-- The input would let a live call advance: accepted, answered or charged. -/
def advances (cx : R2Context) (env : Env) (i : Input) (c : R2Chan) : Prop :=
  match i with
  | .cas => casAdvances cx env c.start
  | .mfTone tone => toneAdvances cx env tone c.start
  | .timer id =>
    ∃ t ∈ c.timer? id, timerAdvances cx env t.callback (c.start.mapTimers (·.removeId id))
  | .api _ | .alarm _ => False

instance (cx : R2Context) (env : Env) (i : Input) (c : R2Chan) :
    Decidable (advances cx env i c) := by
  unfold advances
  cases i <;> exact inferInstance

/-- What sets off the step of an input. -/
def stimulus (cx : R2Context) (env : Env) (i : Input) (c : R2Chan) : Stimulus :=
  if advances cx env i c then .advance
  else if i = .api .ackCall ∧ c.r2State ≠ .seizeAckTxd then .ack
  else .other

end OpenR2
