import OpenR2.Channel

namespace OpenR2

section Line

variable (cx : R2Context) (env : Env)

def disposeMfRead (c : R2Chan) : R2Chan :=
  { c.did (.mfReadDispose c.mfReadHandle) with mfReadHandle := none }

def disposeMfWrite (c : R2Chan) : R2Chan :=
  { c.did (.mfWriteDispose c.mfWriteHandle) with mfWriteHandle := none }

/-- The optional dispose routines of the MF interface. -/
def disposeMf (c : R2Chan) : R2Chan :=
  let c := if cx.mfReadDispose then disposeMfRead c else c
  if cx.mfWriteDispose then disposeMfWrite c else c

/-- `turn_off_mf_engine`. -/
def turnOffMfEngine (c : R2Chan) : R2Chan :=
  if c.mfState = .offState then c
  else
    let c := (c.cancelTimer .mfBackCycle).setDtmf false false
    (disposeMf cx c).setMfState .offState

/-- `set_cas_signal`. What the channel believes to transmit changes even when
the I/O layer fails. -/
def setCasSignal (signal : CasSignal) (c : R2Chan) : R2Chan × Int :=
  if signal = .invalid then (c, -1)
  else
    let cas := cx.casSignals signal
    let c := c.setCasTx cas signal
    (c.did (.setCas (cas ||| cx.casNonr2Bits)), if env.setCas c.out then 0 else -1)

/-- `fix_rx_signal`. -/
def fixRxSignal (c : R2Chan) : R2Chan :=
  if cx.casSignals .clearForward = cx.casSignals .idle ∧ c.casRxSignal = .clearForward then
    { c with casRxSignal := .idle }
  else if c.casRead = cx.casSignals .idle then { c with casRxSignal := .idle }
  else c

/-- `openr2_proto_init` before it turns off the MF engine. Only the first byte of
each digit buffer is cleared. -/
def clearNumbers (c : R2Chan) : R2Chan :=
  { c with
    timers := TimerQueue.cancelAllTimers
    readEnabled := false
    ani := c.ani.set 0 0
    aniLen := 0
    aniPtr := none
    dnis := c.dnis.set 0 0
    dnisLen := 0
    dnisIndex := 0
    callerAniIsRestricted := false
    callerCategory := Tone.invalid
    r2State := .idle }

/-- `openr2_proto_init` after it has turned off the MF engine. -/
def clearCall (c : R2Chan) : R2Chan :=
  { c.setCallState .idle with
    mfGroup := .noGroup
    direction := .stopped
    answered := false
    categorySent := false
    mfWriteTone := 0
    mfReadTone := 0
    callDnisCallback := true }

/-- `openr2_proto_init`. -/
def protoInit (c : R2Chan) : R2Chan :=
  fixRxSignal cx (clearCall (turnOffMfEngine cx (clearNumbers c)))

/-- `openr2_proto_set_idle`. -/
def setIdle (c : R2Chan) : R2Chan × Int :=
  setCasSignal cx env .idle (protoInit cx c)

/-- `openr2_proto_set_blocked`. -/
def setBlocked (c : R2Chan) : R2Chan × Int :=
  setCasSignal cx env .block ((protoInit cx c).setR2State .blocked)

/-- `handle_protocol_error`. -/
def handleProtocolError (reason : ProtocolError) (c : R2Chan) : R2Chan :=
  (setIdle cx env (c.did (.mfSelectTone c.mfWriteHandle 0))).1.emit (.onProtocolError reason)

/-- `report_call_disconnection`. -/
def reportCallDisconnection (cause : DisconnectCause) (c : R2Chan) : R2Chan :=
  (c.setCallState .disconnected).emit (.onCallDisconnect cause)

/-- `report_call_end`. -/
def reportCallEnd (c : R2Chan) : R2Chan := (setIdle cx env c).1.emit .onCallEnd

/-- `r2_metering_pulse`, the expiry of the metering timer. -/
def r2MeteringPulse (c : R2Chan) : R2Chan :=
  if c.r2State = .forcedReleaseRxd then reportCallDisconnection .forcedRelease c
  else reportCallDisconnection .normalClearing c

/-- `r2_answer_timeout_expired`. -/
def r2AnswerTimeoutExpired (c : R2Chan) : R2Chan := reportCallDisconnection .noAnswer c

/-- `mf_fwd_safety_timeout_expired`. -/
def mfFwdSafetyTimeoutExpired (c : R2Chan) : R2Chan :=
  handleProtocolError cx env .fwdSafetyTimeout c

/-- `seize_timeout_expired`. -/
def seizeTimeoutExpired (c : R2Chan) : R2Chan := handleProtocolError cx env .seizeTimeout c

/-- `send_clear_backward`. -/
def sendClearBackward (c : R2Chan) : R2Chan × Int :=
  setCasSignal cx env .clearBack (turnOffMfEngine cx (c.setR2State .clearBackTxd))

/-- `send_forced_release`. -/
def sendForcedRelease (c : R2Chan) : R2Chan × Int :=
  setCasSignal cx env .forcedRelease (turnOffMfEngine cx (c.setR2State .forcedReleaseTxd))

/-- `r2_set_call_down`. -/
def r2SetCallDown (c : R2Chan) : R2Chan := reportCallEnd cx env c

/-- `send_clear_forward`. The safety timer has no slot, so nothing can cancel it alone. -/
def sendClearForward (c : R2Chan) : R2Chan × Int :=
  let c := (addTimer env cx.timers.r2SetCallDown .r2SetCallDown c).1
  setCasSignal cx env .clearForward (turnOffMfEngine cx (c.setR2State .clearFwdTxd))

/-- `r2_seize_persist_expired`. -/
def r2SeizePersistExpired (c : R2Chan) : R2Chan := (sendClearForward cx env c).1

/-- `double_answer_handler`: a clear back after the first answer, then the second. -/
def doubleAnswerHandler (c : R2Chan) : R2Chan :=
  if c.r2State = .answerTxd then
    let r := sendClearBackward cx env c
    if r.2 ≠ 0 then r.1
    else armTimer env .r2DoubleAnswer cx.timers.r2DoubleAnswer .doubleAnswerHandler
      (r.1.setR2State .executingDoubleAnswer)
  else if c.r2State = .executingDoubleAnswer then
    let r := setCasSignal cx env .answer c
    if r.2 ≠ 0 then r.1 else r.1.setR2State .answerTxd
  else c

/-- `start_dialing_dtmf`. -/
def startDialingDtmf (c : R2Chan) : R2Chan :=
  (c.setDtmf true c.detectingDtmf).setMfState .dialingDtmf

/-- `openr2_proto_ack_call`. -/
def ackCall (c : R2Chan) : R2Chan × Int :=
  let r := setCasSignal cx env .seizeAck c
  if r.2 ≠ 0 then (handleProtocolError cx env .internalError r.1, -1) else (r.1, 0)

end Line

end OpenR2
