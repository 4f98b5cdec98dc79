import OpenR2.Register

namespace OpenR2

section Incoming

variable (cx : R2Context) (env : Env)

/-- The end of `handle_incoming_call`, when a receiver is ready. The seize is acknowledged
whatever the user has done in the callback. -/
def incomingCall (c : R2Chan) : R2Chan :=
  let c := ((c.setR2State .seizeAckTxd).setCallState .collecting).setDirection .backward
  let c := callback cx env .onCallInit c
  if cx.autoSeizeAck then (ackCall cx env c).1 else c

/-- `handle_incoming_call`. -/
def handleIncomingCall (c : R2Chan) : R2Chan :=
  if cx.detectDtmf then
    let inited := env.dtmfRxInit c.out
    let c := c.did .dtmfRxInit
    if inited = false then handleProtocolError cx env .internalError c
    else incomingCall cx env
      (((c.setMfGroup .dtmfBackInit).setMfState .detectingDtmf).setDtmf c.dialingDtmf true)
  else
    let write := env.mfWriteInit c.out
    let c := c.did (.mfWriteInit c.mfWriteHandle false)
    match write with
    | none => handleProtocolError cx env .internalError c
    | some w =>
      let read := env.mfReadInit c.out
      let c := c.did (.mfReadInit c.mfReadHandle true)
      match read with
      | none => handleProtocolError cx env .internalError c
      | some r =>
        incomingCall cx env
          (((c.setMfHandles w r).setMfState .seizeAckTxd).setMfGroup .backInit)

end Incoming

section States

/- One function for each group of cases of the switch of `openr2_proto_handle_cas`. -/

variable (cx : R2Context) (env : Env)

/-- Bits that mean nothing in the present state. -/
def invalidCas (reason : ProtocolError) (c : R2Chan) : R2Chan :=
  handleProtocolError cx env reason (c.logRx .invalid)

structure Disconnection where
  signal : CasSignal
  state : CasState
  cause : DisconnectCause

/-- `check_backward_disconnection`. -/
def checkBackwardDisconnection (cas : Nat) : Option Disconnection :=
  if cas = cx.casSignals .clearBack then some ⟨.clearBack, .clearBackRxd, .normalClearing⟩
  else if cas = cx.casSignals .forcedRelease then
    some ⟨.forcedRelease, .forcedReleaseRxd, .forcedRelease⟩
  else none

def casIdle (cas : Nat) (c : R2Chan) : R2Chan :=
  if cas = cx.casSignals .block then (c.logRx .block).emit .onLineBlocked
  else if cas = cx.casSignals .idle then (c.logRx .idle).emit .onLineIdle
  else if cas = cx.casSignals .seize then handleIncomingCall cx env (c.logRx .seize)
  else invalidCas cx env .invalidCasBits c

/-- `OR2_SEIZE_ACK_TXD`, `OR2_ANSWER_TXD`, `OR2_EXECUTING_DOUBLE_ANSWER`. -/
def casBackwardCall (cas : Nat) (c : R2Chan) : R2Chan :=
  if cas = cx.casSignals .clearForward then
    reportCallDisconnection .normalClearing ((c.logRx .clearForward).setR2State .clearFwdRxd)
  else invalidCas cx env .invalidCasBits c

/-- The seize was acknowledged and nobody wants to clear: start to send the number. -/
def seizeAcknowledged (c : R2Chan) : R2Chan :=
  let c := c.setR2State .seizeAckRxd
  let c := if cx.dialWithDtmf then
      armTimer env .r2Answer cx.timers.r2Answer .r2AnswerTimeoutExpired
        (armTimer env .dtmfStartDial cx.timers.dtmfStartDial .startDialingDtmf c)
    else
      let c := c.setMfGroup .gi
      mfSendDnis cx env 0
        ((c.did (.mfWriteInit c.mfWriteHandle true)).did (.mfReadInit c.mfReadHandle false))
  c.emit .onCallProceed

/-- `OR2_SEIZE_TXD`, `OR2_SEIZE_TXD_CLEAR_FWD_PENDING`. -/
def casSeizeTxd (cas : Nat) (c : R2Chan) : R2Chan :=
  if cas = cx.casSignals .seizeAck then
    let c := (c.logRx .seizeAck).cancelTimer .r2Seize
    if c.r2State = .seizeTxdClearFwdPending then (sendClearForward cx env c).1
    else seizeAcknowledged cx env c
  else if cas = cx.casSignals .seize then
    reportCallDisconnection .glare
      (((c.logRx .seize).setR2State .doubleSeizure).cancelTimer .r2Seize)
  else invalidCas cx env .invalidCasBits c

/-- `OR2_DOUBLE_SEIZURE`, `OR2_DOUBLE_SEIZURE_CLEAR_FWD_PENDING`. -/
def casDoubleSeizure (cas : Nat) (c : R2Chan) : R2Chan :=
  if cas = cx.casSignals .clearForward then
    if c.r2State = .doubleSeizure then ((c.logRx .clearForward).setR2State .clearFwdRxd)
    else reportCallEnd cx env (c.logRx .idle)
  else invalidCas cx env .invalidCasBits c

/-- `OR2_CLEAR_BACK_TXD`, `OR2_FORCED_RELEASE_TXD`. -/
def casDisconnectTxd (cas : Nat) (c : R2Chan) : R2Chan :=
  if cas = cx.casSignals .clearForward then reportCallEnd cx env (c.logRx .clearForward)
  else invalidCas cx env .invalidCasBits c

def casAcceptRxd (cas : Nat) (c : R2Chan) : R2Chan :=
  if cas = cx.casSignals .answer then callAnswered cx (c.logRx .answer)
  else match checkBackwardDisconnection cx cas with
    | some d => reportCallDisconnection d.cause ((c.logRx d.signal).setR2State d.state)
    | none => invalidCas cx env .invalidCasBits c

/-- The answer of a DTMF call, which leaves the MF engine alone. -/
def dtmfCallAnswered (c : R2Chan) : R2Chan :=
  let c := ((c.cancelTimer .r2Answer).setR2State .answerRxd).setCallState .answered
  c.setAnswered.emit .onCallAnswered

def casSeizeAckRxd (cas : Nat) (c : R2Chan) : R2Chan :=
  if cx.dialWithDtmf = false ∧ cas = cx.casSignals .answer then
    -- the line is faster than the MF detector: the accept tone is still to end
    ((c.logRx .answer).setR2State .answerRxdMfPending)
  else match checkBackwardDisconnection cx cas with
    | some d => reportCallDisconnection d.cause ((c.logRx d.signal).setR2State d.state)
    | none =>
      if cas = cx.casSignals .answer then dtmfCallAnswered (c.logRx .answer)
      else invalidCas cx env .invalidCasBits c

/-- A clear back or a forced release in an answered call, which may be a metering pulse. -/
def releaseOrPulse (cause : DisconnectCause) (c : R2Chan) : R2Chan :=
  if cx.timers.r2MeteringPulse ≠ 0 then
    armTimer env .r2MeteringPulse cx.timers.r2MeteringPulse .r2MeteringPulse c
  else reportCallDisconnection cause c

/-- `OR2_ANSWER_RXD_MF_PENDING`, `OR2_ANSWER_RXD`. -/
def casAnswerRxd (cas : Nat) (c : R2Chan) : R2Chan :=
  if cas = cx.casSignals .clearBack then
    releaseOrPulse cx env .normalClearing ((c.logRx .clearBack).setR2State .clearBackRxd)
  else if (cx.dialWithDtmf ∨ cx.detectDtmf) ∧ cas = cx.casSignals .clearForward then
    reportCallDisconnection .normalClearing ((c.logRx .clearForward).setR2State .clearFwdRxd)
  else if cas = cx.casSignals .forcedRelease then
    releaseOrPulse cx env .forcedRelease
      ((c.logRx .forcedRelease).setR2State .forcedReleaseRxd)
  else invalidCas cx env .invalidCasBits c

/-- `OR2_CLEAR_BACK_TONE_RXD`, `OR2_CLEAR_BACK_AFTER_CLEAR_FWD_RXD`. -/
def casAwaitIdle (cas : Nat) (c : R2Chan) : R2Chan :=
  if cas = cx.casSignals .idle then reportCallEnd cx env (c.logRx .idle)
  else invalidCas cx env .invalidCasBits c

def casClearFwdTxd (cas : Nat) (c : R2Chan) : R2Chan :=
  if cas = cx.casSignals .idle then reportCallEnd cx env (c.logRx .idle)
  else match checkBackwardDisconnection cx cas with
    | some d => (c.logRx d.signal).setR2State .clearBackAfterClearFwdRxd
    | none => invalidCas cx env .invalidCasBits c

/-- `OR2_CLEAR_BACK_RXD`, `OR2_FORCED_RELEASE_RXD`. -/
def casReleaseRxd (cas : Nat) (c : R2Chan) : R2Chan :=
  if cx.timers.r2MeteringPulse ≠ 0 ∧ cas = cx.casSignals .answer then
    (((c.logRx .answer).cancelTimer .r2MeteringPulse).setR2State .answerRxd).emit
      .onBillingPulseReceived
  else invalidCas cx env .invalidCasBits c

def casBlocked (cas : Nat) (c : R2Chan) : R2Chan :=
  if cas = cx.casSignals .idle then (c.logRx .idle).emit .onLineIdle else c.logRx .invalid

def casInit (cas : Nat) (c : R2Chan) : R2Chan :=
  if cas = cx.casSignals .idle then (c.logRx .idle).emit .onLineIdle
  else if cas = cx.casSignals .block then (c.logRx .block).emit .onLineBlocked
  else invalidCas cx env .invalidR2State c

/-- The switch of `openr2_proto_handle_cas`. -/
def casSwitch (cas : Nat) (c : R2Chan) : R2Chan :=
  match c.r2State with
  | .idle => casIdle cx env cas c
  | .seizeAckTxd | .answerTxd | .executingDoubleAnswer => casBackwardCall cx env cas c
  | .seizeTxd | .seizeTxdClearFwdPending => casSeizeTxd cx env cas c
  | .doubleSeizure | .doubleSeizureClearFwdPending => casDoubleSeizure cx env cas c
  | .clearBackTxd | .forcedReleaseTxd => casDisconnectTxd cx env cas c
  | .acceptRxd => casAcceptRxd cx env cas c
  | .seizeAckRxd => casSeizeAckRxd cx env cas c
  | .answerRxdMfPending | .answerRxd => casAnswerRxd cx env cas c
  | .clearBackToneRxd | .clearBackAfterClearFwdRxd => casAwaitIdle cx env cas c
  | .clearFwdTxd => casClearFwdTxd cx env cas c
  | .clearBackRxd | .forcedReleaseRxd => casReleaseRxd cx env cas c
  | .blocked => casBlocked cx cas c
  | .init => casInit cx env cas c
  | .invalidState | .clearFwdRxd => invalidCas cx env .invalidR2State c

end States

section Cas

variable (cx : R2Context) (env : Env)

/-- `openr2_io_get_cas`. -/
def ioGetCas (c : R2Chan) : R2Chan × Option Nat :=
  match env.getCas c.out with
  | none => (c.did .getCas, none)
  | some raw => ((c.did .getCas).setCasRawRead raw, some raw)

/-- Schedule the check whether a pattern persists. -/
def checkPersistence (cas : Nat) (c : R2Chan) : R2Chan :=
  armTimer env .casPersistenceCheck cx.timers.casPersistenceCheck .persistenceCheckExpired
    (c.setPersistence (some cas))

/-- Read the line: is there a new pattern to be acted on now? -/
def pollCas (c : R2Chan) : R2Chan × Option Nat :=
  let r := ioGetCas env c
  match r.2 with
  | none => (r.1, none)
  | some raw =>
    let cas := raw &&& cx.casR2Bits
    let c := r.1
    if c.casRead = cas then
      if c.timers.timerIds .casPersistenceCheck ≠ 0 then
        ((c.cancelTimer .casPersistenceCheck).setPersistence none, none)
      else (c, none)
    else if cx.timers.casPersistenceCheck ≠ 0 then
      (checkPersistence cx env cas (c.cancelTimer .casPersistenceCheck), none)
    else (c, some cas)

/-- `openr2_proto_handle_cas` up to its label `handlecas`. -/
def casPattern (c : R2Chan) : R2Chan × Option Nat :=
  match c.casPersistenceCheckSignal with
  | none => pollCas cx env c
  | some cas =>
    if c.timers.timerIds .casPersistenceCheck = 0 then
      (c.setPersistence none, some cas)
    else pollCas cx env c

/-- `openr2_proto_handle_cas` from its label `handlecas`. -/
def actOnCas (cas : Nat) (c : R2Chan) : R2Chan :=
  if c.inalarm then c else casSwitch cx env cas (c.setCasRead cas)

/-- `openr2_proto_handle_cas`. -/
def handleCas (c : R2Chan) : R2Chan :=
  let r := casPattern cx env c
  match r.2 with
  | none => r.1
  | some cas => actOnCas cx env cas r.1

/-- `persistence_check_expired`. -/
def persistenceCheckExpired (c : R2Chan) : R2Chan :=
  let r := ioGetCas env (c.mapTimers (·.setSlot .casPersistenceCheck 0))
  match r.2 with
  | none => r.1
  | some raw =>
    let cas := raw &&& cx.casR2Bits
    let c := r.1
    if c.casPersistenceCheckSignal = some cas then handleCas cx env c
    else if c.casRead ≠ cas then checkPersistence cx env cas c
    else c.setPersistence none

/-- No bits mean anything in alarm. -/
def forgetLine (c : R2Chan) : R2Chan :=
  { c with
    casRead := 0
    casRawRead := 0
    casRxSignal := .invalid
    casWrite := 0
    casTxSignal := .invalid }

/-- `openr2_proto_handle_alarm_state`. -/
def handleAlarmState (c : R2Chan) : R2Chan :=
  if c.inalarm then
    forgetLine (if c.callState ≠ .idle then handleProtocolError cx env .alarmRaised c else c)
  else
    handleCas cx env
      (if c.r2State ≠ .blocked then (setIdle cx env c).1 else (setBlocked cx env c).1)

end Cas

end OpenR2
