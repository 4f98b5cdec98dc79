import Mathlib.Tactic.SplitIfs
import OpenR2.Peers
import OpenR2.Proofs.Variants

namespace OpenR2

/-- What the line protocol of a channel works on, the patterns it has put on the line
in this step, and the events it has told the user. -/
structure Wire where
  direction : Direction
  callState : CallState
  r2State : CasState
  casRead : Nat
  inalarm : Bool
  checking : Option Nat
  sent : List Nat
  told : List Event

def R2Chan.wire (c : R2Chan) : Wire where
  direction := c.direction
  callState := c.callState
  r2State := c.r2State
  casRead := c.casRead
  inalarm := c.inalarm
  checking := c.casPersistenceCheckSignal
  sent := c.out.filterMap Act.pattern?
  told := c.out.filterMap Act.event?

namespace Wire

def tell (e : Event) (w : Wire) : Wire := { w with told := w.told ++ [e] }

def send (bits : Nat) (w : Wire) : Wire := { w with sent := w.sent ++ [bits] }

/-- The channel at rest, its call forgotten. -/
def reset (w : Wire) : Wire := { w with direction := .stopped, callState := .idle, r2State := .idle }

def report (cause : DisconnectCause) (w : Wire) : Wire :=
  { w with callState := .disconnected }.tell (.onCallDisconnect cause)

/-- Before the next step. -/
def settle (w : Wire) : Wire := { w with sent := [], told := [] }

/-- Outside alarms, and with no pattern being checked. -/
structure Calm (w : Wire) : Prop where
  inalarm : w.inalarm = false
  checking : w.checking = none

variable (cx : R2Context)

/-- The end of the call. -/
def finish (w : Wire) : Wire := (w.reset.send (cx.pattern .idle)).tell .onCallEnd

/-- What a channel in a call does on a new pattern, when it is one of the call. -/
def react (cas : Nat) (w : Wire) : Option Wire :=
  match w.r2State with
  | .idle => if cas = 0x8 then some (w.tell .onLineIdle) else none
  | .seizeAckTxd | .answerTxd =>
    if cas = 0x8 then some ({ w with r2State := .clearFwdRxd }.report .normalClearing) else none
  | .clearBackTxd | .forcedReleaseTxd | .clearBackAfterClearFwdRxd | .doubleSeizureClearFwdPending =>
    if cas = 0x8 then some (w.finish cx) else none
  | .seizeAckRxd =>
    if cas = 0x4 then some { w with r2State := .answerRxdMfPending } else none
  | .acceptRxd =>
    if cas = 0x4 then
      some ({ w with r2State := .answerRxd, callState := .answered }.tell .onCallAnswered)
    else none
  | .answerRxd | .answerRxdMfPending =>
    if cas = 0xC then some ({ w with r2State := .clearBackRxd }.report .normalClearing)
    else if cas = 0x0 then some ({ w with r2State := .forcedReleaseRxd }.report .forcedRelease)
    else none
  | .clearFwdTxd =>
    if cas = 0x8 then some (w.finish cx)
    else if cas = 0xC ∨ cas = 0x0 then some { w with r2State := .clearBackAfterClearFwdRxd }
    else none
  | .seizeTxd =>
    if cas = 0x0 then some ({ w with r2State := .doubleSeizure }.report .glare) else none
  | .doubleSeizure => if cas = 0x8 then some { w with r2State := .clearFwdRxd } else none
  | _ => none

/-- A pattern arrives. The last one once more says nothing. -/
def hear (s : CasSignal) (w : Wire) : Option Wire :=
  if w.casRead = standardCasSignals s then some w
  else react cx (standardCasSignals s) { w with casRead := standardCasSignals s }

/-- The user disconnects a call that is not merely offered. -/
def disconnect (cause : DisconnectCause) (w : Wire) : Option Wire :=
  if w.callState = .idle ∨ w.callState = .offered then none
  else if w.r2State = .clearFwdRxd then some (w.finish cx)
  else if w.direction = .backward then
    if cause = .forcedRelease then
      some ({ w with r2State := .forcedReleaseTxd }.send (cx.pattern .forcedRelease))
    else some ({ w with r2State := .clearBackTxd }.send (cx.pattern .clearBack))
  else if w.r2State = .seizeTxd then some { w with r2State := .seizeTxdClearFwdPending }
  else if w.r2State = .doubleSeizure then some { w with r2State := .doubleSeizureClearFwdPending }
  else some ({ w with r2State := .clearFwdTxd }.send (cx.pattern .clearForward))

/-- The user answers an accepted call. -/
def answer (w : Wire) : Option Wire :=
  if w.callState = .accepted then
    some ({ w with callState := .answered, r2State := .answerTxd }.send (cx.pattern .answer))
  else none

end Wire

section Frame

variable {cx : R2Context} {env : Env}

theorem wire_did {a : Act} (hp : a.pattern? = none) (he : a.event? = none) (c : R2Chan) :
    (c.did a).wire = c.wire := by
  simp [R2Chan.wire, R2Chan.did, List.filterMap_append, hp, he]

@[simp] theorem wire_emit (e : Event) (c : R2Chan) : (c.emit e).wire = c.wire.tell e := by
  simp [R2Chan.wire, R2Chan.emit, R2Chan.did, List.filterMap_append, Act.pattern?, Act.event?,
    Wire.tell]

@[simp] theorem wire_setCallState (st : CallState) (c : R2Chan) :
    (c.setCallState st).wire = { c.wire with callState := st } := by
  have h := wire_did (a := .callState st) rfl rfl c
  simp only [R2Chan.wire, Wire.mk.injEq] at h
  simp [R2Chan.wire, R2Chan.setCallState, h]

@[simp] theorem wire_setR2State (r : CasState) (c : R2Chan) :
    (c.setR2State r).wire = { c.wire with r2State := r } := rfl

@[simp] theorem wire_mapTimers (f : TimerQueue → TimerQueue) (c : R2Chan) :
    (c.mapTimers f).wire = c.wire := rfl

@[simp] theorem wire_cancelTimer (slot : TimerSlot) (c : R2Chan) :
    (c.cancelTimer slot).wire = c.wire := rfl

@[simp] theorem wire_logRx (s : CasSignal) (c : R2Chan) : (c.logRx s).wire = c.wire := rfl

theorem wire_addTimer (he : env.Sound) (ms : Nat) (cb : TimerCallback) (c : R2Chan) :
    (addTimer env ms cb c).1.wire = c.wire := by
  obtain ⟨now, hn⟩ := Option.isSome_iff_exists.mp (he.clock c.out)
  simp only [addTimer, hn]
  exact wire_did (a := .gettimeofday) rfl rfl c

theorem wire_armTimer (he : env.Sound) (slot : TimerSlot) (ms : Nat) (cb : TimerCallback)
    (c : R2Chan) : (armTimer env slot ms cb c).wire = c.wire :=
  wire_addTimer he ms cb c

theorem wire_turnOffMfEngine (c : R2Chan) : (turnOffMfEngine cx c).wire = c.wire := by
  have hr : ∀ d : R2Chan, (disposeMfRead d).wire = d.wire := fun d =>
    wire_did (a := .mfReadDispose d.mfReadHandle) rfl rfl d
  have hw : ∀ d : R2Chan, (disposeMfWrite d).wire = d.wire := fun d =>
    wire_did (a := .mfWriteDispose d.mfWriteHandle) rfl rfl d
  have hd : ∀ d : R2Chan, (disposeMf cx d).wire = d.wire := by
    intro d
    simp only [disposeMf]
    split_ifs
    · exact (hw _).trans (hr d)
    · exact hw d
    · exact hr d
    · rfl
  simp only [turnOffMfEngine]
  split_ifs
  · rfl
  · exact hd ((c.cancelTimer .mfBackCycle).setDtmf false false)

theorem setCasSignal_ok (he : env.Sound) {sig : CasSignal} (hs : sig ≠ .invalid) (c : R2Chan) :
    (setCasSignal cx env sig c).2 = 0 ∧
      (setCasSignal cx env sig c).1.wire = c.wire.send (cx.pattern sig) := by
  simp only [setCasSignal, if_neg hs, he.setCas]
  refine ⟨rfl, ?_⟩
  simp [R2Chan.wire, R2Chan.did, R2Chan.setCasTx, List.filterMap_append, Act.pattern?, Act.event?,
    Wire.send, R2Context.pattern]

theorem wire_protoInit (c : R2Chan) : (protoInit cx c).wire = c.wire.reset := by
  have hf : ∀ d : R2Chan, (fixRxSignal cx d).wire = d.wire := by
    intro d
    simp only [fixRxSignal]
    split_ifs <;> rfl
  have hc : ∀ d : R2Chan, (clearCall d).wire =
      { d.wire with direction := .stopped, callState := .idle } := fun d =>
    congrArg (fun w : Wire => { w with direction := .stopped }) (wire_setCallState .idle d)
  rw [protoInit, hf, hc, wire_turnOffMfEngine]
  rfl

theorem wire_setIdle (he : env.Sound) (c : R2Chan) :
    (setIdle cx env c).1.wire = c.wire.reset.send (cx.pattern .idle) := by
  rw [setIdle, (setCasSignal_ok he (by decide) _).2, wire_protoInit]

theorem wire_reportCallEnd (he : env.Sound) (c : R2Chan) :
    (reportCallEnd cx env c).wire = c.wire.finish cx := by
  rw [reportCallEnd, wire_emit, wire_setIdle he]
  rfl

theorem wire_reportCallDisconnection (cause : DisconnectCause) (c : R2Chan) :
    (reportCallDisconnection cause c).wire = c.wire.report cause := by
  rw [reportCallDisconnection, wire_emit, wire_setCallState]
  rfl

theorem wire_sendClearForward (he : env.Sound) (c : R2Chan) :
    (sendClearForward cx env c).1.wire =
      { c.wire with r2State := .clearFwdTxd }.send (cx.pattern .clearForward) := by
  rw [sendClearForward, (setCasSignal_ok he (by decide) _).2, wire_turnOffMfEngine,
    wire_setR2State, wire_addTimer he]

theorem wire_sendClearBackward (he : env.Sound) (c : R2Chan) :
    (sendClearBackward cx env c).1.wire =
      { c.wire with r2State := .clearBackTxd }.send (cx.pattern .clearBack) := by
  rw [sendClearBackward, (setCasSignal_ok he (by decide) _).2, wire_turnOffMfEngine,
    wire_setR2State]

theorem wire_sendForcedRelease (he : env.Sound) (c : R2Chan) :
    (sendForcedRelease cx env c).1.wire =
      { c.wire with r2State := .forcedReleaseTxd }.send (cx.pattern .forcedRelease) := by
  rw [sendForcedRelease, (setCasSignal_ok he (by decide) _).2, wire_turnOffMfEngine,
    wire_setR2State]

end Frame

section Steps

variable {cx : R2Context} {env : Env} {c : R2Chan} {w : Wire}

/-- The channel once it has read the line. -/
def R2Chan.seen (bits cas : Nat) (c : R2Chan) : R2Chan :=
  ((c.did .getCas).setCasRawRead bits).setCasRead cas

theorem wire_seen (bits cas : Nat) (c : R2Chan) :
    (c.seen bits cas).wire = { c.wire with casRead := cas } :=
  congrArg (fun w : Wire => { w with casRead := cas }) (wire_did (a := .getCas) rfl rfl c)

/-- The line shows what it showed before. -/
theorem handleCas_old {bits : Nat} (hg : ∀ h, env.getCas h = some bits)
    (hk : c.casPersistenceCheckSignal = none) (hr : c.casRead = bits &&& cx.casR2Bits) :
    (handleCas cx env c).wire = c.wire := by
  have hd : ((c.did .getCas).setCasRawRead bits).wire = c.wire := wire_did rfl rfl c
  have hr : ((c.did .getCas).setCasRawRead bits).casRead = bits &&& cx.casR2Bits := hr
  simp only [handleCas, casPattern, hk, pollCas, ioGetCas, hg, if_pos hr]
  split_ifs
  · have hs : ∀ d : R2Chan, d.casPersistenceCheckSignal = none →
        ((d.cancelTimer .casPersistenceCheck).setPersistence none).wire = d.wire := by
      intro d hd
      simp [R2Chan.wire, R2Chan.cancelTimer, R2Chan.mapTimers, R2Chan.setPersistence, hd]
    exact (hs ((c.did .getCas).setCasRawRead bits) hk).trans hd
  · exact hd

/-- The line shows a new pattern. -/
theorem handleCas_new (hp : cx.Plain) {bits : Nat} (hg : ∀ h, env.getCas h = some bits)
    (hi : c.inalarm = false) (hk : c.casPersistenceCheckSignal = none)
    (hr : c.casRead ≠ bits &&& cx.casR2Bits) :
    handleCas cx env c =
      casSwitch cx env (bits &&& cx.casR2Bits) (c.seen bits (bits &&& cx.casR2Bits)) := by
  have hr : ¬ ((c.did .getCas).setCasRawRead bits).casRead = bits &&& cx.casR2Bits := hr
  have hi : ¬ ((c.did .getCas).setCasRawRead bits).inalarm = true := by
    simpa [R2Chan.setCasRawRead, R2Chan.did] using hi
  have hz : ¬ cx.timers.casPersistenceCheck ≠ 0 := not_not.mpr hp.persistence
  simp only [handleCas, casPattern, hk, pollCas, ioGetCas, hg, if_neg hr, if_neg hz, actOnCas,
    if_neg hi]
  rfl

theorem wire_callAnswered (c : R2Chan) :
    (callAnswered cx c).wire =
      { c.wire with r2State := .answerRxd, callState := .answered }.tell .onCallAnswered := by
  have ht : ∀ d : R2Chan, ((turnOffMfEngine cx d).setAnswered).wire = d.wire := fun d =>
    wire_turnOffMfEngine d
  rw [callAnswered, wire_emit, ht, wire_setCallState]
  rfl

/-- The code does what the line protocol says about a new pattern. -/
theorem casSwitch_react (hp : cx.Plain) (he : env.Sound) {cas : Nat}
    (h : c.wire.react cx cas = some w) : (casSwitch cx env cas c).wire = w := by
  have hs := hp.signals
  have hm : ¬ cx.timers.r2MeteringPulse ≠ 0 := not_not.mpr hp.metering
  have hdial := hp.mfc.dial
  have hdetect := hp.mfc.detect
  have hend : ∀ d : R2Chan, d.wire = c.wire →
      (reportCallEnd cx env d).wire = c.wire.finish cx := fun d hd => by
    rw [wire_reportCallEnd he, hd]
  have hrep : ∀ (cause : DisconnectCause) (r : CasState) (sig : CasSignal),
      (reportCallDisconnection cause ((c.logRx sig).setR2State r)).wire =
        { c.wire with r2State := r }.report cause := fun cause r sig =>
    wire_reportCallDisconnection _ _
  cases hr : c.r2State <;> simp only [Wire.react, show c.wire.r2State = c.r2State from rfl, hr] at h
  case idle =>
    split_ifs at h with h8
    simp only [casSwitch, hr, casIdle, hs, standardCasSignals, h8]
    simpa [wire_emit] using Option.some.inj h
  case seizeAckTxd | answerTxd =>
    split_ifs at h with h8
    simp only [casSwitch, hr, casBackwardCall, hs, standardCasSignals, h8, if_true]
    exact (hrep _ _ _).trans (Option.some.inj h)
  case clearBackTxd | forcedReleaseTxd =>
    split_ifs at h with h8
    simp only [casSwitch, hr, casDisconnectTxd, hs, standardCasSignals, h8, if_true]
    exact (hend (c.logRx .clearForward) rfl).trans (Option.some.inj h)
  case clearBackAfterClearFwdRxd =>
    split_ifs at h with h8
    simp only [casSwitch, hr, casAwaitIdle, hs, standardCasSignals, h8, if_true]
    exact (hend (c.logRx .idle) rfl).trans (Option.some.inj h)
  case doubleSeizureClearFwdPending =>
    split_ifs at h with h8
    simp only [casSwitch, hr, casDoubleSeizure, hs, standardCasSignals, h8, if_true]
    exact (hend (c.logRx .idle) rfl).trans (Option.some.inj h)
  case doubleSeizure =>
    split_ifs at h with h8
    simp only [casSwitch, hr, casDoubleSeizure, hs, standardCasSignals, h8, if_true]
    exact Option.some.inj h
  case seizeAckRxd =>
    split_ifs at h with h4
    simp only [casSwitch, hr, casSeizeAckRxd, hs, standardCasSignals, h4, hdial, and_self, if_true]
    exact Option.some.inj h
  case acceptRxd =>
    split_ifs at h with h4
    simp only [casSwitch, hr, casAcceptRxd, hs, standardCasSignals, h4, if_true]
    exact (wire_callAnswered _).trans (Option.some.inj h)
  case answerRxd | answerRxdMfPending =>
    simp only [casSwitch, hr, casAnswerRxd, hs, standardCasSignals, hdial, hdetect, releaseOrPulse,
      if_neg hm]
    split_ifs at h with hc h0
    · rw [if_pos hc]
      exact (hrep _ _ _).trans (Option.some.inj h)
    · simp only [if_neg hc, Bool.false_eq_true, or_self, false_and, if_false, if_pos h0]
      exact (hrep _ _ _).trans (Option.some.inj h)
  case clearFwdTxd =>
    simp only [casSwitch, hr, casClearFwdTxd, hs, standardCasSignals, checkBackwardDisconnection]
    split_ifs at h with h8 h0
    · rw [if_pos h8]
      exact (hend (c.logRx .idle) rfl).trans (Option.some.inj h)
    · rw [if_neg h8]
      rcases h0 with h0 | h0 <;> simp only [h0] <;> exact Option.some.inj h
  case seizeTxd =>
    split_ifs at h with h0
    simp only [casSwitch, hr, casSeizeTxd, hs, standardCasSignals, h0, if_true]
    exact (wire_reportCallDisconnection _ _).trans (Option.some.inj h)
  all_goals cases h

/-- A pattern that the line did not show before goes to the switch. -/
theorem step_cas_new (hp : cx.Plain) {s : CasSignal} (he : env.Shows (cx.pattern s))
    (hc : c.start.wire.Calm) (hr : c.casRead ≠ standardCasSignals s) :
    step cx env .cas c = casSwitch cx env (standardCasSignals s)
      (c.start.seen (cx.pattern s) (standardCasSignals s)) := by
  have hn : c.start.casRead ≠ cx.pattern s &&& cx.casR2Bits := by rwa [hp.read s]
  change handleCas cx env c.start = _
  rw [handleCas_new hp he.getCas hc.inalarm hc.checking hn, hp.read s]

/-- A pattern of the line protocol is read. -/
theorem step_hear (hp : cx.Plain) {s : CasSignal} (he : env.Shows (cx.pattern s))
    (hc : c.start.wire.Calm) (h : c.start.wire.hear cx s = some w) :
    (step cx env .cas c).wire = w := by
  simp only [Wire.hear] at h
  split_ifs at h with hk
  · have ho : (handleCas cx env c.start).wire = _ :=
      handleCas_old he.getCas hc.checking ((hp.read s).symm ▸ hk)
    exact ho.trans (Option.some.inj h)
  · rw [step_cas_new hp he hc hk]
    refine casSwitch_react hp he.sound ?_
    rw [wire_seen]
    exact h

/-- The user disconnects. -/
theorem step_disconnect (hp : cx.Plain) (he : env.Sound) {cause : DisconnectCause}
    (h : c.start.wire.disconnect cx cause = some w) :
    (step cx env (.api (.disconnectCall cause)) c).wire = w := by
  change (disconnectCall cx env cause c.start).1.wire = w
  generalize c.start = d at h
  have hd := hp.mfc.detect
  simp only [Wire.disconnect, show d.wire.callState = d.callState from rfl,
    show d.wire.r2State = d.r2State from rfl, show d.wire.direction = d.direction from rfl] at h
  split_ifs at h with h1 h2 h3 h4 h5 h6
  all_goals
    obtain ⟨hi, ho⟩ := not_or.mp h1
    simp only [disconnectCall, if_neg hi, disconnectBackward, disconnectForward, hd, if_neg ho,
      Bool.false_eq_true, if_false]
  · have hf : (reportCallEnd cx env d).wire = w :=
      (wire_reportCallEnd he d).trans (Option.some.inj h)
    simp only [h2, reduceCtorEq, if_false, if_true]
    split_ifs <;> exact hf
  · rw [if_pos h3, if_neg h2, if_pos h4]
    exact (wire_sendForcedRelease he d).trans (Option.some.inj h)
  · rw [if_pos h3, if_neg h2, if_neg h4]
    exact (wire_sendClearBackward he d).trans (Option.some.inj h)
  · rw [if_neg h3, if_pos h5]
    exact Option.some.inj h
  · rw [if_neg h3, if_neg h5, if_pos h6]
    exact (wire_armTimer he _ _ _ _).trans (Option.some.inj h)
  · rw [if_neg h3, if_neg h5, if_neg h6, if_neg h2]
    exact (wire_sendClearForward he d).trans (Option.some.inj h)

/-- The user answers, and not twice. -/
theorem step_answer (hp : cx.Plain) (he : env.Sound) {a : ApiCall}
    (ha : a = .answerCall ∨ a = .answerCallWithMode .simple) (h : c.start.wire.answer cx = some w) :
    (step cx env (.api a) c).wire = w := by
  have hcall : ∀ d : R2Chan, (apiCall cx env a d).1 = (doAnswer cx env d).1 := by
    intro d
    rcases ha with rfl | rfl
    · simp only [apiCall, answerCall, hp.single, Bool.false_eq_true, if_false]
      split_ifs <;> rfl
    · simp only [apiCall, answerCallWithMode, reduceCtorEq, if_false]
      split_ifs <;> rfl
  change (apiCall cx env a c.start).1.wire = w
  rw [hcall]
  generalize c.start = d at h
  simp only [Wire.answer, show d.wire.callState = d.callState from rfl] at h
  split_ifs at h with ha
  obtain ⟨hr, hw⟩ : (setCasSignal cx env .answer d).2 = 0 ∧ _ := setCasSignal_ok he (by decide) d
  have hset : ∀ e : R2Chan, (((e.setCallState .answered).setR2State .answerTxd).setAnswered).wire =
      { e.wire with callState := .answered, r2State := .answerTxd } := fun e =>
    congrArg (fun w : Wire => { w with r2State := .answerTxd }) (wire_setCallState .answered e)
  have hdo : doAnswer cx env d =
      ((((setCasSignal cx env .answer d).1.setCallState .answered).setR2State .answerTxd).setAnswered,
        0) := by
    simp [doAnswer, ha, hr]
  rw [hdo, hset, hw]
  exact Option.some.inj h

end Steps

end OpenR2
