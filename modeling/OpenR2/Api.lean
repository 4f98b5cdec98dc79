import OpenR2.Tones

namespace OpenR2

section Api

variable (cx : R2Context) (env : Env)

/-- The DTMF end of `openr2_proto_make_call`, run when the line is seized already. -/
def startDtmfDial (c : R2Chan) : R2Chan × Int :=
  let inited := env.dtmfTxInit c.out
  let c := c.did .dtmfTxInit
  if inited = false then (c, -1)
  else
    let c := c.did (.dtmfTxSetTiming cx.dtmfOn cx.dtmfOff)
    let put := env.dtmfTxPut c.out
    let c := c.did (.dtmfTxPut (cstr c.dnis))
    if put = false then (c, -1) else (c.setMfGroup .dtmfFwdInit, 0)

/-- Keep what is to be sent. A number with a character that is no digit is not
sent, which leaves the old buffer but for its first byte. -/
def keepNumbers (ani : Option (List Tone)) (dnis : List Tone) (category : Category)
    (aniRestricted : Bool) (c : R2Chan) : R2Chan :=
  let ani := ani.filter fun a => (cstr a).all Tone.isDigit
  { c with
    ani := match ani with
      | some a => strncpy80 a
      | none => c.ani.set 0 0
    callerAniIsRestricted := aniRestricted
    aniPtr := ani.map fun _ => 0
    dnis := if (cstr dnis).all Tone.isDigit then strncpy80 dnis else c.dnis.set 0 0
    dnisIndex := 0
    callerCategory := category2tone cx category }

/-- `openr2_proto_make_call` once the line is seized. -/
def placeCall (ani : Option (List Tone)) (dnis : List Tone) (category : Category)
    (aniRestricted : Bool) (c : R2Chan) : R2Chan × Int :=
  let c := armTimer env .r2Seize cx.timers.r2Seize .seizeTimeoutExpired (c.setR2State .seizeTxd)
  let c := keepNumbers cx ani dnis category aniRestricted c
  let c := (c.setCallState .dialing).setDirection .forward
  if cx.dialWithDtmf then startDtmfDial cx env c else (c.setMfGroup .fwdInit, 0)

/-- `openr2_proto_make_call`. -/
def makeCall (ani : Option (List Tone)) (dnis : List Tone) (category : Category)
    (aniRestricted : Bool) (c : R2Chan) : R2Chan × Int :=
  if c.inalarm then (c, -1)
  else if c.callState ≠ .idle then (c, -1)
  else if c.casRead ≠ cx.casSignals .idle then (c, -1)
  else
    let r := setCasSignal cx env .seize c
    if r.2 ≠ 0 then (r.1, -1) else placeCall cx env ani dnis category aniRestricted r.1

/-- `openr2_proto_accept_call`. -/
def acceptCall (mode : CallMode) (c : R2Chan) : R2Chan × Int :=
  if c.callState ≠ .offered then (c, -1)
  else if cx.detectDtmf then (c.emit (.onCallAccepted .unknown), 0)
  else (prepareMfTone cx env (getToneFromMode cx mode) (c.setMfState .acceptedTxd), 0)

/-- `openr2_proto_do_answer`. -/
def doAnswer (c : R2Chan) : R2Chan × Int :=
  if (cx.dialWithDtmf || cx.detectDtmf) = false ∧ c.callState ≠ .accepted then (c, -1)
  else
    let r := setCasSignal cx env .answer c
    if r.2 ≠ 0 then (r.1, -1)
    else (((r.1.setCallState .answered).setR2State .answerTxd).setAnswered, 0)

/-- What follows an answer that is to be a double one. -/
def scheduleDoubleAnswer (c : R2Chan) : R2Chan :=
  armTimer env .r2DoubleAnswer cx.timers.r2DoubleAnswer .doubleAnswerHandler c

/-- `openr2_proto_answer_call`. -/
def answerCall (c : R2Chan) : R2Chan × Int :=
  let r := doAnswer cx env c
  if r.2 ≠ 0 then (r.1, -1)
  else (if cx.doubleAnswer then scheduleDoubleAnswer cx env r.1 else r.1, 0)

/-- `openr2_proto_answer_call_with_mode`. -/
def answerCallWithMode (mode : AnswerMode) (c : R2Chan) : R2Chan × Int :=
  let r := doAnswer cx env c
  if r.2 ≠ 0 then (r.1, -1)
  else (if mode = .double then scheduleDoubleAnswer cx env r.1 else r.1, 0)

/-- The tone for a cause before the fallback of `send_disconnect`. -/
def disconnectTone : DisconnectCause → Tone
  | .busyNumber => cx.gbTones.busyNumber
  | .networkCongestion => cx.gbTones.networkCongestion
  | .unallocatedNumber => cx.gbTones.unallocatedNumber
  | .numberChanged =>
    if cx.gbTones.numberChanged ≠ 0 then cx.gbTones.numberChanged
    else cx.gbTones.unallocatedNumber
  | .outOfOrder => cx.gbTones.lineOutOfOrder
  | .noAnswer | .normalClearing | .forcedRelease | .unspecified | .glare =>
    cx.gbTones.networkCongestion

/-- `send_disconnect`. -/
def sendDisconnect (cause : DisconnectCause) (c : R2Chan) : R2Chan :=
  let tone := disconnectTone cx cause
  let tone := if tone = Tone.invalid then cx.gbTones.networkCongestion else tone
  prepareMfTone cx env tone (c.setMfState .disconnectTxd)

/-- The backward half of `openr2_proto_disconnect_call`. -/
def disconnectBackward (cause : DisconnectCause) (c : R2Chan) : R2Chan × Int :=
  if cx.detectDtmf then
    if c.r2State = .clearFwdRxd then (reportCallEnd cx env c, 0)
    else sendClearBackward cx env c
  else if c.callState = .offered then (sendDisconnect cx env cause c, 0)
  else if c.r2State = .clearFwdRxd then (reportCallEnd cx env c, 0)
  else if cause = .forcedRelease then sendForcedRelease cx env c
  else sendClearBackward cx env c

/-- The forward half of `openr2_proto_disconnect_call`. An unacknowledged seize is
held, and so is a double seizure until the other end had time to see it. -/
def disconnectForward (c : R2Chan) : R2Chan × Int :=
  if c.r2State = .seizeTxd then (c.setR2State .seizeTxdClearFwdPending, 0)
  else if c.r2State = .doubleSeizure then
    (armTimer env .r2SeizePersist cx.timers.r2SeizePersist .r2SeizePersistExpired
      (c.setR2State .doubleSeizureClearFwdPending), 0)
  else if c.r2State = .clearFwdRxd then (reportCallEnd cx env c, 0)
  else sendClearForward cx env c

/-- `openr2_proto_disconnect_call`. -/
def disconnectCall (cause : DisconnectCause) (c : R2Chan) : R2Chan × Int :=
  if c.callState = .idle then (c, -1)
  else if c.direction = .backward then disconnectBackward cx env cause c
  else disconnectForward cx env c

/-- A call of the user, and what it returned. -/
def apiCall (a : ApiCall) (c : R2Chan) : R2Chan × Int :=
  match a with
  | .makeCall ani dnis category aniRestricted => makeCall cx env ani dnis category aniRestricted c
  | .acceptCall mode => acceptCall cx env mode c
  | .answerCall => answerCall cx env c
  | .answerCallWithMode mode => answerCallWithMode cx env mode c
  | .disconnectCall cause => disconnectCall cx env cause c
  | .ackCall => ackCall cx env c
  | .setIdle => setIdle cx env c
  | .setBlocked => setBlocked cx env c

end Api

end OpenR2
