import Mathlib.Logic.Relation
import OpenR2.Control
import OpenR2.Media
import OpenR2.Proofs.Reset
import OpenR2.Proofs.TimerQueue

namespace OpenR2

/-- What the course of a call, its engines and its timers rest on. -/
structure Frame where
  direction : Direction
  callState : CallState
  r2State : CasState
  mfState : MfState
  mfGroup : MfGroup
  answered : Bool
  inalarm : Bool
  dialingDtmf : Bool
  detectingDtmf : Bool
  mfWriteHandle : Option Nat
  mfReadHandle : Option Nat
  timers : TimerQueue

def R2Chan.frame (c : R2Chan) : Frame where
  direction := c.direction
  callState := c.callState
  r2State := c.r2State
  mfState := c.mfState
  mfGroup := c.mfGroup
  answered := c.answered
  inalarm := c.inalarm
  dialingDtmf := c.dialingDtmf
  detectingDtmf := c.detectingDtmf
  mfWriteHandle := c.mfWriteHandle
  mfReadHandle := c.mfReadHandle
  timers := c.timers

/-- Acts that change nothing of all this, use no MF handle, and do not tell the user how
the call proceeds. -/
def Act.Plain : Act → Prop
  | .callState _ | .mfSelectTone .. | .mfWriteInit .. | .mfReadInit .. | .mfWriteDispose _
  | .mfReadDispose _ => False
  | .event e => e.Neutral
  | _ => True

/-- The direction of the calls that a timer serves, in MFC and in DTMF mode. -/
def TimerCallback.Attends (cb : TimerCallback) (d : Direction) : Prop :=
  cb.Serves d ∨ cb = .startDialingDtmf ∧ d = .forward

/-- Expiries that act on the call without a look at its direction. -/
def TimerCallback.Trusts : TimerCallback → Direction → Prop
  | .r2SeizePersistExpired, d | .r2AnswerTimeoutExpired, d | .r2MeteringPulse, d
  | .startDialingDtmf, d => d = .forward
  | .readyToAnswer, d | .mfBackCycleTimeoutExpired, d => d = .backward
  | _, _ => True

theorem TimerCallback.Attends.trusts {cb : TimerCallback} {d : Direction} (h : cb.Attends d) :
    cb.Trusts d := by
  rcases h with h | ⟨rfl, rfl⟩
  · cases cb <;> cases d <;> first | exact h.elim | trivial
  · rfl

namespace R2Chan

/-- Nothing of the frame changes. -/
def Plainly (c d : R2Chan) : Prop :=
  d.frame = c.frame ∧ ∃ as, d.out = c.out ++ as ∧ ∀ a ∈ as, a.Plain

/-- The code knows, by what it has tested, that the call is an outgoing one. -/
def Outgoing (c : R2Chan) : Prop :=
  c.direction = .forward ∨ c.r2State.Forward ∨ c.direction ≠ .backward ∧ c.callState ≠ .idle

/-- The code knows that the call is an incoming one. -/
def Incoming (c : R2Chan) : Prop := c.direction = .backward ∨ c.r2State.Backward

/-- Where the code schedules a timer. Those of a seize and of its acknowledgement are part
of them. -/
def Arms (c : R2Chan) : TimerCallback → Prop
  | .persistenceCheckExpired => True
  | .mfBackCycleTimeoutExpired | .mfBackResumeCycle => c.direction = .backward
  | .mfFwdSafetyTimeoutExpired | .r2SetCallDown => c.Outgoing
  | .r2AnswerTimeoutExpired => c.direction = .forward ∨ c.r2State = .seizeAckRxd
  | .r2SeizePersistExpired => c.r2State = .doubleSeizureClearFwdPending
  | .readyToAnswer => c.direction = .backward ∧ c.callState = .accepted
  | .doubleAnswerHandler => c.r2State = .answerTxd ∨ c.r2State = .executingDoubleAnswer
  | .r2MeteringPulse => c.r2State = .clearBackRxd ∨ c.r2State = .forcedReleaseRxd
  | .startDialingDtmf | .seizeTimeoutExpired => False

/-- The changes of the line state within a call, with what was tested before. -/
inductive Hops (cx : R2Context) (c : R2Chan) : CasState → Prop where
  | clearFwdRxd (h : c.r2State = .seizeAckTxd ∨ c.r2State = .answerTxd ∨
      c.r2State = .executingDoubleAnswer ∨ c.r2State = .doubleSeizure ∨ c.r2State = .answerRxd ∨
      c.r2State = .answerRxdMfPending) : Hops cx c .clearFwdRxd
  | glare (h : c.r2State = .seizeTxd ∨ c.r2State = .seizeTxdClearFwdPending) :
      Hops cx c .doubleSeizure
  | holdSeize (h : c.r2State = .seizeTxd) : Hops cx c .seizeTxdClearFwdPending
  | holdGlare (h : c.r2State = .doubleSeizure) : Hops cx c .doubleSeizureClearFwdPending
  | release (r : CasState) (h : c.r2State = .acceptRxd ∨ c.r2State = .seizeAckRxd ∨
      c.r2State = .answerRxd ∨ c.r2State = .answerRxdMfPending)
      (hr : r = .clearBackRxd ∨ r = .forcedReleaseRxd) : Hops cx c r
  | earlyAnswer (h : c.r2State = .seizeAckRxd) (hd : cx.dialWithDtmf = false) :
      Hops cx c .answerRxdMfPending
  | lateRelease (h : c.r2State = .clearFwdTxd) : Hops cx c .clearBackAfterClearFwdRxd
  | reject (hd : c.direction = .forward) (hm : c.mfState ≠ .offState) : Hops cx c .clearBackToneRxd
  | clearBack (h : c.Incoming) : Hops cx c .clearBackTxd
  | forcedRelease (h : c.direction = .backward) : Hops cx c .forcedReleaseTxd
  | executeDouble (h : c.r2State = .answerTxd) : Hops cx c .executingDoubleAnswer
  | reanswer (h : c.r2State = .executingDoubleAnswer) : Hops cx c .answerTxd
  | clearForward (h : c.Outgoing) : Hops cx c .clearFwdTxd

/-- The line states in which the user is told that the call is disconnected. -/
def Released (c : R2Chan) : Prop :=
  c.r2State = .clearFwdRxd ∨ c.r2State = .doubleSeizure ∨ c.r2State = .clearBackRxd ∨
    c.r2State = .forcedReleaseRxd ∨ c.r2State = .clearBackToneRxd

end R2Chan

/-- Operations that schedule no timer, and write no id. -/
def TimerOp.Drops : TimerOp → Prop
  | .cancel _ | .cancelAll => True
  | .mark _ id => id ≤ 0
  | .arm .. | .add .. => False

theorem TimerOp.Drops.sublist {op : TimerOp} (h : op.Drops) (q : TimerQueue) :
    (q.apply op).schedTimers.Sublist q.schedTimers := by
  cases op with
  | cancel slot => exact q.cancelTimer_sublist slot
  | cancelAll => exact List.nil_sublist _
  | mark slot id => exact List.Sublist.refl _
  | arm => exact h.elim
  | add => exact h.elim

theorem TimerOp.Drops.proper {op : TimerOp} (h : op.Drops) : op.Proper := by
  cases op <;> first | exact h | exact h.elim

def ApiCall.Answers : ApiCall → Prop
  | .answerCall | .answerCallWithMode _ => True
  | _ => False

/-- What the code leaves to the world: a call of the user, the acknowledgement with which the
tones of an outgoing call start, an answer on a line that still dials with DTMF, the expiry that
starts to dial, the end of a number that is detected, and that of one which an engine left on
from an earlier call detects. -/
inductive Chance where
  | call (a : ApiCall)
  | ack
  | earlyAnswer
  | dial
  | digitsEnd
  | lateEnd
  deriving DecidableEq, Repr

/-- The reports of a digit. -/
def Event.OfDigit : Event → Prop
  | .onDnisDigitReceived _ | .onAniDigitReceived _ => True
  | _ => False

/-- The backward side goes on with the register signalling, maybe after a callback in
which the user has ended the call. -/
def R2Chan.GoesOn (cx : R2Context) (env : Env) (ok : Chance → R2Chan → Prop) (c : R2Chan) : Prop :=
  c.direction ≠ .forward ∧ (c.mfState ≠ .offState ∨
    ∃ (a : ApiCall) (d : R2Chan) (e : Event), e.OfDigit ∧ d.mfState ≠ .offState ∧ d.callState ≠ .idle ∧
      ok (.call a) (d.emit e) ∧ c = (apiCall cx env a (d.emit e)).1)

/-- Where the code turns the MF engine off, the end of a number apart. A call that is offered is
not so far, unless its number came with DTMF. -/
def R2Chan.Winds (cx : R2Context) (c : R2Chan) : Prop :=
  c.callState = .offered → cx.detectDtmf = true ∨ c.Outgoing ∨ c.r2State = .answerTxd

/-- The register signalling goes to a state of one of its sides. -/
inductive R2Chan.Signals (cx : R2Context) (env : Env) (ok : Chance → R2Chan → Prop) (c : R2Chan) :
    MfState → Prop where
  | backward (m : MfState) (hm : m.Backward) (h : c.GoesOn cx env ok) : Signals cx env ok c m
  | decide (m : MfState) (hm : m = .acceptedTxd ∨ m = .disconnectTxd) (hc : c.callState = .offered) :
      Signals cx env ok c m
  | forward (m : MfState) (hm : m.Forward) (hd : c.direction = .forward) (ho : c.mfState ≠ .offState) :
      Signals cx env ok c m

/-- An incoming call, once its receiver is ready. -/
def R2Chan.receive (m : MfState) (g : MfGroup) (c : R2Chan) : R2Chan :=
  ((((c.setMfState m).setMfGroup g).setR2State .seizeAckTxd).setCallState .collecting).setDirection
    .backward

/-- An outgoing call, once the line is seized. -/
def R2Chan.place (cx : R2Context) (env : Env) (ani : Option (List Tone)) (dnis : List Tone)
    (category : Category) (aniRestricted : Bool) (c : R2Chan) : R2Chan :=
  ((keepNumbers cx ani dnis category aniRestricted
    (armTimer env .r2Seize cx.timers.r2Seize .seizeTimeoutExpired (c.setR2State .seizeTxd))).setCallState
      .dialing).setDirection .forward

/-- The acknowledged seize of an MFC call. The first digit decides the MF state. -/
def R2Chan.dialMf (m : MfState) (c : R2Chan) : R2Chan :=
  (((((c.setR2State .seizeAckRxd).setMfGroup .gi).did (.mfWriteInit c.mfWriteHandle true)).did
    (.mfReadInit c.mfReadHandle false)).did (.readDnis c.dnisIndex)).setMfState m

/-- The operations that a step is made of, each with what the code has tested when it
performs it, in every configuration and whatever the callbacks do. -/
inductive Atom (cx : R2Context) (env : Env) (ok : Chance → R2Chan → Prop) :
    R2Chan → R2Chan → Prop where
  | plain (c d : R2Chan) (h : c.Plainly d) : Atom cx env ok c d
  | select (c : R2Chan) (tone : Tone) :
      Atom cx env ok c (c.did (.mfSelectTone c.mfWriteHandle tone))
  | unready (c d : R2Chan) (h : d = c.did (.mfWriteInit c.mfWriteHandle false) ∨
      d = (c.did (.mfWriteInit c.mfWriteHandle false)).did (.mfReadInit c.mfReadHandle true)) :
      Atom cx env ok c (protoInit cx (d.did (.mfSelectTone d.mfWriteHandle 0)))
  | init (c : R2Chan) : Atom cx env ok c (protoInit cx c)
  | block (c : R2Chan) : Atom cx env ok c ((protoInit cx c).setR2State .blocked)
  | turnOff (c : R2Chan) (h : c.Winds cx ∨ ok .digitsEnd c) : Atom cx env ok c (turnOffMfEngine cx c)
  | expire (c : R2Chan) (id : Nat) (h : ∀ t ∈ c.timer? id, t.callback ≠ .r2SetCallDown) :
      Atom cx env ok c (c.mapTimers (·.removeId id))
  | drop (c : R2Chan) (op : TimerOp) (h : op.Drops) (hb : op = .cancelAll → c.direction = .backward) :
      Atom cx env ok c (c.mapTimers (·.apply op))
  | arm (c : R2Chan) (slot : TimerSlot) (ms : Nat) (h : c.Arms slot.purpose) :
      Atom cx env ok c (armTimer env slot ms slot.purpose c)
  | callDown (c : R2Chan) (ms : Nat) (h : c.Outgoing) :
      Atom cx env ok c (addTimer env ms .r2SetCallDown c).1
  | hop (c : R2Chan) (r : CasState) (h : c.Hops cx r) : Atom cx env ok c (c.setR2State r)
  | signal (c : R2Chan) (m : MfState) (h : c.Signals cx env ok m) : Atom cx env ok c (c.setMfState m)
  | group (c : R2Chan) (g : MfGroup) (h : g.Dials → c.mfGroup.Dials) :
      Atom cx env ok c (c.setMfGroup g)
  | dial (c : R2Chan) (h : c.direction = .forward) (ho : ok .dial c) :
      Atom cx env ok c (startDialingDtmf c)
  | dialMf (c : R2Chan) (m : MfState) (hm : m.Forward) (hr : c.r2State = .seizeTxd)
      (hd : cx.dialWithDtmf = false) (ho : ok .ack c) : Atom cx env ok c (c.dialMf m)
  | dialDtmf (c : R2Chan) (ms : Nat) (hr : c.r2State = .seizeTxd) (hd : cx.dialWithDtmf = true) :
      Atom cx env ok c (armTimer env .dtmfStartDial ms .startDialingDtmf (c.setR2State .seizeAckRxd))
  | place (c : R2Chan) (ani : Option (List Tone)) (dnis : List Tone) (category : Category)
      (aniRestricted : Bool) (hc : c.callState = .idle) (ha : c.inalarm = false) :
      Atom cx env ok c (c.place cx env ani dnis category aniRestricted)
  | receiveMf (c : R2Chan) (w r : Nat) (hr : c.r2State = .idle) (hw : env.mfWriteInit c.out = some w)
      (hx : env.mfReadInit (c.out ++ [.mfWriteInit c.mfWriteHandle false]) = some r) :
      Atom cx env ok c ((((c.did (.mfWriteInit c.mfWriteHandle false)).did
        (.mfReadInit c.mfReadHandle true)).setMfHandles w r).receive .seizeAckTxd .backInit)
  | receiveDtmf (c : R2Chan) (hr : c.r2State = .idle) (hd : cx.detectDtmf = true) :
      Atom cx env ok c ((c.setDtmf c.dialingDtmf true).receive .detectingDtmf .dtmfBackInit)
  | offer (c : R2Chan) (hc : c.callState = .collecting) (ho : c.mfState ≠ .offState ∨ ok .digitsEnd c) :
      Atom cx env ok c ((c.setCallState .offered).emit (.onCallOffered (cstr c.ani) (cstr c.dnis)
        (tone2category cx c.callerCategory) c.callerAniIsRestricted))
  | accept (c : R2Chan) (hd : c.direction = .backward) :
      Atom cx env ok c ((turnOffMfEngine cx c).setCallState .accepted)
  | accepted (c : R2Chan) (h : c.direction = .backward ∨ c.callState = .offered) :
      Atom cx env ok c (c.emit (.onCallAccepted .unknown))
  | acceptTone (c : R2Chan) (mode : CallMode) (hd : c.direction = .forward) (hm : c.mfState ≠ .offState)
      (hg : c.mfGroup.Dials) :
      Atom cx env ok c ((c.setR2State .acceptRxd).emit (.onCallAccepted mode))
  | dialled (c : R2Chan) (hd : c.direction = .forward) (hx : c.dialingDtmf = true ∨ ok .lateEnd c) :
      Atom cx env ok c ((turnOffMfEngine cx c).emit (.onCallAccepted .unknown))
  | answer (c : R2Chan) (a : ApiCall) (ha : a.Answers) (ho : ok (.call a) c)
      (hc : (cx.dialWithDtmf || cx.detectDtmf) = true ∨ c.callState = .accepted) :
      Atom cx env ok c
        ((((setCasSignal cx env .answer c).1.setCallState .answered).setR2State .answerTxd).setAnswered)
  | answered (c : R2Chan) (hr : c.r2State = .acceptRxd) : Atom cx env ok c (callAnswered cx c)
  | answeredDtmf (c : R2Chan) (hr : c.r2State = .seizeAckRxd) (hd : cx.dialWithDtmf = true)
      (ho : ok .earlyAnswer c) : Atom cx env ok c (dtmfCallAnswered c)
  | billing (c : R2Chan) (hr : c.r2State = .clearBackRxd ∨ c.r2State = .forcedReleaseRxd)
      (hm : cx.timers.r2MeteringPulse ≠ 0) :
      Atom cx env ok c ((c.setR2State .answerRxd).emit .onBillingPulseReceived)
  | report (c : R2Chan) (cause : DisconnectCause) (h : c.Released ∨ c.direction = .forward) :
      Atom cx env ok c (reportCallDisconnection cause c)
  | alarm (c : R2Chan) (on : Bool) : Atom cx env ok c (c.setInalarm on)

/-- A part of a step. -/
abbrev Atoms (cx : R2Context) (env : Env) (ok : Chance → R2Chan → Prop) : R2Chan → R2Chan → Prop :=
  Relation.ReflTransGen (Atom cx env ok)

section Plain

variable (cx : R2Context) (env : Env) (ok : Chance → R2Chan → Prop) (c : R2Chan)

theorem quiet_atoms (d : R2Chan) (hf : d.frame = c.frame) (ho : d.out = c.out) :
    Atoms cx env ok c d :=
  .single (.plain c d ⟨hf, [], by rw [ho, List.append_nil], by simp⟩)

theorem did_atoms (a : Act) (ha : a.Plain) : Atoms cx env ok c (c.did a) :=
  .single (.plain c _ ⟨rfl, [a], rfl, by simpa using ha⟩)

theorem emit_atoms (e : Event) (he : e.Neutral) : Atoms cx env ok c (c.emit e) :=
  did_atoms cx env ok c (.event e) he

theorem logRx_atoms (s : CasSignal) : Atoms cx env ok c (c.logRx s) :=
  quiet_atoms cx env ok c _ rfl rfl

theorem cancelTimer_atoms (slot : TimerSlot) : Atoms cx env ok c (c.cancelTimer slot) :=
  .single (.drop c (.cancel slot) trivial (by rintro ⟨⟩))

theorem armTimer_atoms (slot : TimerSlot) (ms : Nat) (h : c.Arms slot.purpose) :
    Atoms cx env ok c (armTimer env slot ms slot.purpose c) := .single (.arm c slot ms h)

theorem setCasSignal_atoms (s : CasSignal) : Atoms cx env ok c (setCasSignal cx env s c).1 := by
  simp only [setCasSignal]
  split_ifs
  · exact .refl
  all_goals
    exact (quiet_atoms cx env ok c (c.setCasTx (cx.casSignals s) s) rfl rfl).trans
      (did_atoms cx env ok _ (.setCas _) trivial)

end Plain

section Line

variable (cx : R2Context) (env : Env) (ok : Chance → R2Chan → Prop) (c : R2Chan)

theorem setIdle_atoms : Atoms cx env ok c (setIdle cx env c).1 :=
  (Relation.ReflTransGen.single (.init c)).trans (setCasSignal_atoms cx env ok _ .idle)

theorem setBlocked_atoms : Atoms cx env ok c (setBlocked cx env c).1 :=
  (Relation.ReflTransGen.single (.block c)).trans (setCasSignal_atoms cx env ok _ .block)

theorem handleProtocolError_atoms (reason : ProtocolError) :
    Atoms cx env ok c (handleProtocolError cx env reason c) :=
  ((Relation.ReflTransGen.single (.select c 0)).trans (setIdle_atoms cx env ok _)).trans
    (emit_atoms cx env ok _ (.onProtocolError reason) trivial)

theorem reportCallEnd_atoms : Atoms cx env ok c (reportCallEnd cx env c) :=
  (setIdle_atoms cx env ok c).trans (emit_atoms cx env ok _ .onCallEnd trivial)

/-- A signal that is logged and takes the line to another state. -/
theorem hopOn_atoms (s : CasSignal) (r : CasState) (h : (c.logRx s).Hops cx r) :
    Atoms cx env ok c ((c.logRx s).setR2State r) :=
  (logRx_atoms cx env ok c s).tail (.hop _ r h)

theorem turnOffMfEngine_setR2State (r : CasState) :
    turnOffMfEngine cx (c.setR2State r) = (turnOffMfEngine cx c).setR2State r := by
  have hm : (c.setR2State r).mfState = c.mfState := rfl
  simp only [turnOffMfEngine, disposeMf, hm]
  split_ifs <;> rfl

theorem R2Chan.Incoming.turnedOff {c : R2Chan} (h : c.Incoming) : (turnOffMfEngine cx c).Incoming := by
  obtain ⟨⟨r, w, x, y, q, hf⟩, -⟩ := turnOffMfEngine_turnedOff cx c
  rw [hf]
  exact h

theorem sendClearBackward_atoms (h : c.Incoming) (hw : c.Winds cx) :
    Atoms cx env ok c (sendClearBackward cx env c).1 := by
  simp only [sendClearBackward, turnOffMfEngine_setR2State]
  exact ((Relation.ReflTransGen.single (.turnOff c (.inl hw))).tail (.hop _ _ (.clearBack (h.turnedOff cx)))).trans
    (setCasSignal_atoms cx env ok _ .clearBack)

theorem sendForcedRelease_atoms (h : c.direction = .backward) (hc : c.callState ≠ .offered) :
    Atoms cx env ok c (sendForcedRelease cx env c).1 :=
  ((Relation.ReflTransGen.single (.hop c _ (.forcedRelease h))).tail
    (.turnOff (c.setR2State .forcedReleaseTxd) (.inl fun hx => absurd hx hc))).trans
      (setCasSignal_atoms cx env ok _ .forcedRelease)

theorem R2Chan.Outgoing.tuned {c d : R2Chan} (h : c.Outgoing) (ht : c.Tuned d) : d.Outgoing := by
  obtain ⟨⟨q, w, hf⟩, -⟩ := ht
  rw [hf]
  exact h

theorem sendClearForward_atoms (h : c.Outgoing) : Atoms cx env ok c (sendClearForward cx env c).1 := by
  have ha := R2Chan.Tuned.addTimer env cx.timers.r2SetCallDown .r2SetCallDown c
  exact (((Relation.ReflTransGen.single (.callDown c _ h)).tail
    (.hop _ .clearFwdTxd (.clearForward (h.tuned ha)))).tail
      (.turnOff _ (.inl fun _ => .inr (.inl (.inr (.inl trivial)))))).trans
        (setCasSignal_atoms cx env ok _ .clearForward)

theorem doubleAnswerHandler_atoms : Atoms cx env ok c (doubleAnswerHandler cx env c) := by
  simp only [doubleAnswerHandler]
  split_ifs with hr _ he
  · exact sendClearBackward_atoms cx env ok c (.inr (by rw [hr]; trivial)) fun _ => .inr (.inr hr)
  · -- the line is cleared first, which does not show in the end
    have ht : (turnOffMfEngine cx c).r2State = .answerTxd := by
      obtain ⟨⟨r, w, x, y, q, hf⟩, -⟩ := turnOffMfEngine_turnedOff cx c
      rw [hf]
      exact hr
    have hs : (sendClearBackward cx env c).1.setR2State .executingDoubleAnswer =
        (setCasSignal cx env .clearBack
          ((turnOffMfEngine cx c).setR2State .executingDoubleAnswer)).1 := by
      simp only [sendClearBackward, turnOffMfEngine_setR2State]
      rfl
    rw [hs]
    exact (((Relation.ReflTransGen.single (.turnOff c (.inl fun _ => .inr (.inr hr)))).tail
      (.hop _ .executingDoubleAnswer (.executeDouble ht))).trans
        (setCasSignal_atoms cx env ok _ .clearBack)).trans
          (armTimer_atoms cx env ok _ .r2DoubleAnswer _ (.inr rfl))
  · exact setCasSignal_atoms cx env ok c .answer
  · exact (setCasSignal_atoms cx env ok c .answer).tail (.hop _ .answerTxd (.reanswer he))
  · exact .refl

theorem ackCall_atoms : Atoms cx env ok c (ackCall cx env c).1 := by
  have hs := setCasSignal_atoms cx env ok c .seizeAck
  simp only [ackCall]
  split_ifs
  · exact hs.trans (handleProtocolError_atoms cx env ok _ _)
  · exact hs

end Line

section Tones

variable (cx : R2Context) (env : Env) (ok : Chance → R2Chan → Prop) (c : R2Chan)

theorem startMfTone_atoms (tone : Tone) : Atoms cx env ok c (startMfTone cx env tone c) := by
  have hf : ∀ d, Atoms cx env ok d (d.did .flushWriteBuffers) := fun d =>
    did_atoms cx env ok d _ trivial
  have hw : ∀ d : R2Chan, Atoms cx env ok d (d.setMfWriteTone tone) := fun d =>
    quiet_atoms cx env ok d _ rfl rfl
  simp only [startMfTone]
  split_ifs with hd
  · exact ((armTimer_atoms cx env ok c .mfBackCycle _ hd).trans (hf _)).trans (hw _)
  · exact (armTimer_atoms cx env ok c .mfBackCycle _ hd).trans (hf _)
  · exact (hf c).trans (hw _)
  · exact hf c

theorem selectMfTone_atoms (tone : Tone) : Atoms cx env ok c (selectMfTone cx env tone c) := by
  have hs : Atoms cx env ok c (c.did (.mfSelectTone c.mfWriteHandle tone)) := .single (.select c tone)
  simp only [selectMfTone]
  split_ifs
  · exact .refl
  · exact hs.trans (handleProtocolError_atoms cx env ok _ _)
  · exact hs.trans (quiet_atoms cx env ok _ _ rfl rfl)
  · exact hs.trans (startMfTone_atoms cx env ok _ tone)

theorem prepareMfTone_atoms (tone : Tone) : Atoms cx env ok c (prepareMfTone cx env tone c) := by
  have hf : Atoms cx env ok c (c.did .flushWriteBuffers) := did_atoms cx env ok c _ trivial
  simp only [prepareMfTone]
  split_ifs
  · exact hf.trans (selectMfTone_atoms cx env ok _ tone)
  · exact hf
  · exact selectMfTone_atoms cx env ok c tone

theorem setSilence_atoms : Atoms cx env ok c (setSilence cx env c) :=
  (prepareMfTone_atoms cx env ok c 0).trans (quiet_atoms cx env ok _ _ rfl rfl)

/-- A tone goes with a state of the register signalling. -/
theorem signalTone_atoms (m : MfState) (h : c.Signals cx env ok m) (tone : Tone) :
    Atoms cx env ok c (prepareMfTone cx env tone (c.setMfState m)) :=
  (Relation.ReflTransGen.single (.signal c m h)).trans (prepareMfTone_atoms cx env ok _ tone)

end Tones

section Api

variable (cx : R2Context) (env : Env) (ok : Chance → R2Chan → Prop) (c : R2Chan)

theorem startDtmfDial_atoms : Atoms cx env ok c (startDtmfDial cx env c).1 := by
  have hi : Atoms cx env ok c (c.did .dtmfTxInit) := did_atoms cx env ok c _ trivial
  have ht : ∀ d : R2Chan, Atoms cx env ok d (d.did (.dtmfTxSetTiming cx.dtmfOn cx.dtmfOff)) :=
    fun d => did_atoms cx env ok d _ trivial
  have hp : ∀ d : R2Chan, Atoms cx env ok d (d.did (.dtmfTxPut (cstr c.dnis))) :=
    fun d => did_atoms cx env ok d _ trivial
  simp only [startDtmfDial]
  split_ifs
  · exact hi
  · exact (hi.trans (ht _)).trans (hp _)
  · exact ((hi.trans (ht _)).trans (hp _)).tail (.group _ .dtmfFwdInit False.elim)

theorem makeCall_atoms (ani : Option (List Tone)) (dnis : List Tone) (category : Category)
    (aniRestricted : Bool) :
    Atoms cx env ok c (makeCall cx env ani dnis category aniRestricted c).1 := by
  have hs := setCasSignal_atoms cx env ok c .seize
  simp only [makeCall]
  split_ifs with ha hc
  · exact .refl
  · exact .refl
  · exact .refl
  · exact hs
  · have hp : Atoms cx env ok c
        ((setCasSignal cx env .seize c).1.place cx env ani dnis category aniRestricted) :=
      hs.tail (.place _ ani dnis category aniRestricted (not_not.mp hc) (Bool.eq_false_of_not_eq_true ha))
    simp only [placeCall]
    split_ifs
    · exact hp.trans (startDtmfDial_atoms cx env ok _)
    · exact hp.tail (.group _ .fwdInit False.elim)

theorem acceptCall_atoms (mode : CallMode) : Atoms cx env ok c (acceptCall cx env mode c).1 := by
  simp only [acceptCall]
  split_ifs with hc
  · exact .refl
  · exact .single (.accepted c (.inr (not_not.mp hc)))
  · exact signalTone_atoms cx env ok c _ (.decide _ (.inl rfl) (not_not.mp hc)) _

theorem doAnswer_atoms {a : ApiCall} (ha : a.Answers) (ho : ok (.call a) c) :
    Atoms cx env ok c (doAnswer cx env c).1 := by
  simp only [doAnswer]
  split_ifs with hg _
  · exact .refl
  · exact setCasSignal_atoms cx env ok c .answer
  · refine .single (.answer c a ha ho ?_)
    rcases not_and_or.mp hg with hg | hg
    · exact .inl (Bool.eq_true_of_not_eq_false hg)
    · exact .inr (not_not.mp hg)

/-- A call that went well may be answered twice. -/
theorem doAnswer_answers (h : (doAnswer cx env c).2 = 0) : (doAnswer cx env c).1.r2State = .answerTxd := by
  simp only [doAnswer] at h ⊢
  split_ifs at h ⊢
  · exact absurd h (by decide : (-1 : Int) ≠ 0)
  · exact absurd h (by decide : (-1 : Int) ≠ 0)
  · rfl

theorem answerCall_atoms (ho : ok (.call .answerCall) c) :
    Atoms cx env ok c (answerCall cx env c).1 := by
  have hd := doAnswer_atoms cx env ok c (a := .answerCall) trivial ho
  simp only [answerCall]
  split_ifs with hr
  · exact hd
  · exact hd.trans (armTimer_atoms cx env ok _ .r2DoubleAnswer _ (.inl (doAnswer_answers cx env c (not_not.mp hr))))
  · exact hd

theorem answerCallWithMode_atoms (mode : AnswerMode) (ho : ok (.call (.answerCallWithMode mode)) c) :
    Atoms cx env ok c (answerCallWithMode cx env mode c).1 := by
  have hd := doAnswer_atoms cx env ok c (a := .answerCallWithMode mode) trivial ho
  simp only [answerCallWithMode]
  split_ifs with hr
  · exact hd
  · exact hd.trans (armTimer_atoms cx env ok _ .r2DoubleAnswer _ (.inl (doAnswer_answers cx env c (not_not.mp hr))))
  · exact hd

theorem disconnectBackward_atoms (cause : DisconnectCause) (hd : c.direction = .backward) :
    Atoms cx env ok c (disconnectBackward cx env cause c).1 := by
  have he := reportCallEnd_atoms cx env ok c
  have hb := sendClearBackward_atoms cx env ok c (.inl hd)
  simp only [disconnectBackward]
  split_ifs with hx _ hc
  · exact he
  · exact hb fun _ => .inl hx
  · exact signalTone_atoms cx env ok c _ (.decide _ (.inr rfl) hc) _
  · exact he
  · exact sendForcedRelease_atoms cx env ok c hd hc
  · exact hb fun ho => absurd ho hc

theorem disconnectForward_atoms (hd : c.direction ≠ .backward) (hc : c.callState ≠ .idle) :
    Atoms cx env ok c (disconnectForward cx env c).1 := by
  simp only [disconnectForward]
  split_ifs with hs hg
  · exact .single (.hop c _ (.holdSeize hs))
  · exact (Relation.ReflTransGen.single (.hop c _ (.holdGlare hg))).trans
      (armTimer_atoms cx env ok _ .r2SeizePersist _ rfl)
  · exact reportCallEnd_atoms cx env ok c
  · exact sendClearForward_atoms cx env ok c (.inr (.inr ⟨hd, hc⟩))

theorem disconnectCall_atoms (cause : DisconnectCause) :
    Atoms cx env ok c (disconnectCall cx env cause c).1 := by
  simp only [disconnectCall]
  split_ifs with hc hd
  · exact .refl
  · exact disconnectBackward_atoms cx env ok c cause hd
  · exact disconnectForward_atoms cx env ok c hd hc

/-- A call of the user, answers in a state in which the world may answer. -/
theorem apiCall_atoms (a : ApiCall) (ho : ok (.call a) c) : Atoms cx env ok c (apiCall cx env a c).1 := by
  cases a with
  | makeCall ani dnis category r => exact makeCall_atoms cx env ok c ani dnis category r
  | acceptCall mode => exact acceptCall_atoms cx env ok c mode
  | answerCall => exact answerCall_atoms cx env ok c ho
  | answerCallWithMode mode => exact answerCallWithMode_atoms cx env ok c mode ho
  | disconnectCall cause => exact disconnectCall_atoms cx env ok c cause
  | ackCall => exact ackCall_atoms cx env ok c
  | setIdle => exact setIdle_atoms cx env ok c
  | setBlocked => exact setBlocked_atoms cx env ok c

theorem setCasSignal_frame (s : CasSignal) : (setCasSignal cx env s c).1.frame = c.frame := by
  simp only [setCasSignal]
  split_ifs <;> rfl

theorem setCasSignal_direction (s : CasSignal) : (setCasSignal cx env s c).1.direction = c.direction :=
  congrArg Frame.direction (setCasSignal_frame cx env c s)

theorem turnOffMfEngine_direction : (turnOffMfEngine cx c).direction = c.direction := by
  obtain ⟨⟨r, w, x, y, q, hf⟩, -⟩ := turnOffMfEngine_turnedOff cx c
  rw [hf]

theorem R2Chan.Tuned.direction {c d : R2Chan} (h : c.Tuned d) : d.direction = c.direction := by
  obtain ⟨⟨q, w, hf⟩, -⟩ := h
  rw [hf]

theorem prepareMfTone_direction (tone : Tone) (hd : c.direction ≠ .forward) :
    (prepareMfTone cx env tone c).direction ≠ .forward := by
  rcases prepareMfTone_cases cx env tone c with ⟨-, ht⟩ | ⟨-, d, -, he⟩
  · rwa [ht.direction]
  · rw [he, (handleProtocolError_atRest cx d env _).direction]
    decide

theorem doAnswer_direction : (doAnswer cx env c).1.direction = c.direction := by
  have hs := setCasSignal_direction cx env c .answer
  simp only [doAnswer]
  split_ifs
  · rfl
  · exact hs
  · exact hs

/-- No call of the user turns a live incoming call into an outgoing one. -/
theorem apiCall_direction (a : ApiCall) (hd : c.direction = .backward) (hc : c.callState ≠ .idle) :
    (apiCall cx env a c).1.direction ≠ .forward := by
  have hn : c.direction ≠ .forward := by
    rw [hd]
    decide
  have hi : (setIdle cx env c).1.direction ≠ .forward := by
    rw [(setIdle_atRest cx c env).direction]
    decide
  have hr : (reportCallEnd cx env c).direction ≠ .forward := hi
  have ha : (doAnswer cx env c).1.direction ≠ .forward := by rwa [doAnswer_direction]
  have hm : ∀ d : R2Chan, d.direction ≠ .forward →
      (scheduleDoubleAnswer cx env d).direction ≠ .forward := fun d hd => by
    rwa [scheduleDoubleAnswer, (R2Chan.Tuned.armTimer env _ _ _ d).direction]
  have hb : (sendClearBackward cx env c).1.direction ≠ .forward := by
    rw [sendClearBackward, setCasSignal_direction, turnOffMfEngine_direction]
    exact hn
  have hf : (sendForcedRelease cx env c).1.direction ≠ .forward := by
    rw [sendForcedRelease, setCasSignal_direction, turnOffMfEngine_direction]
    exact hn
  cases a with
  | makeCall ani dnis category r =>
    simp only [apiCall, makeCall, if_pos hc, ite_self]
    exact hn
  | acceptCall mode =>
    simp only [apiCall, acceptCall]
    split_ifs
    · exact hn
    · exact hn
    · exact prepareMfTone_direction cx env _ _ hn
  | answerCall =>
    simp only [apiCall, answerCall]
    split_ifs
    · exact ha
    · exact hm _ ha
    · exact ha
  | answerCallWithMode mode =>
    simp only [apiCall, answerCallWithMode]
    split_ifs
    · exact ha
    · exact hm _ ha
    · exact ha
  | disconnectCall cause =>
    simp only [apiCall, disconnectCall, if_neg hc, if_pos hd, disconnectBackward]
    split_ifs
    · exact hr
    · exact hb
    · exact prepareMfTone_direction cx env _ _ hn
    · exact hr
    · exact hf
    · exact hb
  | ackCall =>
    simp only [apiCall, ackCall]
    split_ifs
    · rw [(handleProtocolError_atRest cx _ env _).direction]
      decide
    · rwa [setCasSignal_direction]
  | setIdle => exact hi
  | setBlocked =>
    have hp : (protoInit cx c).direction = .stopped := by
      obtain ⟨⟨rx, r, w, x, y, hf⟩, -⟩ := protoInit_reset cx c
      rw [hf]
    rw [apiCall, setBlocked, setCasSignal_direction]
    exact fun hx => absurd (hp.symm.trans hx) (by decide)

/-- A callback of the backward side, after which it goes on. -/
theorem callback_goesOn (e : Event) (he : e.OfDigit) (hd : c.direction = .backward) (hc : c.callState ≠ .idle)
    (hm : c.mfState ≠ .offState) (ho : ∀ a, env.reenter (c.emit e).out = some a → ok (.call a) (c.emit e)) :
    (callback cx env e c).GoesOn cx env ok := by
  simp only [callback]
  split
  · exact ⟨by rw [show (c.emit e).direction = .backward from hd]; decide, .inl hm⟩
  · exact ⟨apiCall_direction cx env _ _ hd hc, .inr ⟨_, c, e, he, hm, hc, ho _ ‹_›, rfl⟩⟩

theorem callback_atoms (e : Event)
    (ho : ∀ a, env.reenter (c.emit e).out = some a → ok (.call a) (c.emit e)) :
    Atoms cx env ok (c.emit e) (callback cx env e c) := by
  simp only [callback]
  split
  · exact .refl
  · exact apiCall_atoms cx env ok _ _ (ho _ ‹_›)

end Api

end OpenR2
