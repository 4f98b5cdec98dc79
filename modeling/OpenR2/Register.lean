import OpenR2.Api

namespace OpenR2

section Backward

variable (cx : R2Context) (env : Env)

/-- A callback after which the code goes on, and which may call back into the library. -/
def callback (e : Event) (c : R2Chan) : R2Chan :=
  let c := c.emit e
  match env.reenter c.out with
  | none => c
  | some a => (apiCall cx env a c).1

/-- `OFFER_CALL`. -/
def offerCall (c : R2Chan) : R2Chan :=
  if c.callState ≠ .collecting then handleProtocolError cx env .invalidR2State c
  else (c.setCallState .offered).emit
    (.onCallOffered (cstr c.ani) (cstr c.dnis) (tone2category cx c.callerCategory)
      c.callerAniIsRestricted)

/-- `DNIS_COMPLETE`. -/
def dnisComplete (c : R2Chan) : Prop := uint32 cx.maxDnis ≤ c.dnisLen

instance (c : R2Chan) : Decidable (dnisComplete cx c) := by
  unfold dnisComplete; exact inferInstance

/-- `request_calling_party_category`. -/
def requestCallingPartyCategory (c : R2Chan) : R2Chan :=
  let tone := if cx.gaTones.requestCategory ≠ 0 then cx.gaTones.requestCategory
    else cx.gaTones.requestCategoryAndChangeToGc
  let c := c.setMfGroup (if cx.gaTones.requestCategory ≠ 0 then .ga else .gc)
  prepareMfTone cx env tone (c.setMfState .categoryRqTxd)

/-- `bypass_change_to_g2`. -/
def bypassChangeToG2 (c : R2Chan) : R2Chan :=
  offerCall cx env
    (prepareMfTone cx env cx.gaTones.addressCompleteChargeSetup (c.setMfState .acceptedTxd))

/-- `request_change_to_g2`. -/
def requestChangeToG2 (c : R2Chan) : R2Chan :=
  let tone := if c.mfGroup = .gc then cx.gcTones.requestChangeToG2 else cx.gaTones.requestChangeToG2
  prepareMfTone cx env tone ((c.setMfGroup .gb).setMfState .chgGiiTxd)

/-- `try_change_to_g2`. -/
def tryChangeToG2 (c : R2Chan) : R2Chan :=
  if cx.immediateAccept then bypassChangeToG2 cx env c else requestChangeToG2 cx env c

/-- `try_request_calling_party_category`. -/
def tryRequestCallingPartyCategory (c : R2Chan) : R2Chan :=
  if cx.skipCategory then tryChangeToG2 cx env c else requestCallingPartyCategory cx env c

/-- `mf_back_cycle_timeout_expired`. Where the variant has no end-of-DNIS tone, a
caller that stays silent has run out of digits. -/
def mfBackCycleTimeoutExpired (c : R2Chan) : R2Chan :=
  if cx.g1Tones.noMoreDnisAvailable = Tone.invalid ∧ c.mfGroup = .ga ∧
      (c.mfState = .dnisRqTxd ∨ c.mfState = .aniRqTxd) then
    let c := armTimer env .mfBackResumeCycle cx.timers.mfBackResumeCycle .mfBackResumeCycle c
    if cx.aniCanComeFirst = false ∧ cx.getAniFirst = false then
      tryRequestCallingPartyCategory cx env c
    else tryChangeToG2 cx env c
  else handleProtocolError cx env .backMfTimeout c

/-- `request_next_dnis_digit`. -/
def requestNextDnisDigit (c : R2Chan) : R2Chan :=
  let tone := if c.mfGroup = .gc then cx.gcTones.requestNextDnisDigitAndChangeToGa
    else cx.gaTones.requestNextDnisDigit
  prepareMfTone cx env tone ((c.setMfGroup .ga).setMfState .dnisRqTxd)

/-- A DNIS digit beyond the buffer is dropped. -/
def storeDnisDigit (tone : Tone) (c : R2Chan) : R2Chan :=
  if c.dnisLen = maxDnisBuffer - 1 then c
  else { c.did (.storeDnis c.dnisLen tone) with
    dnis := (c.dnis.set c.dnisLen tone).set (c.dnisLen + 1) 0
    dnisLen := c.dnisLen + 1 }

/-- What `mf_receive_expected_dnis` does about a digit it has stored and reported. -/
def afterDnisDigit (rc : Bool) (c : R2Chan) : R2Chan :=
  if dnisComplete cx c ∨ rc = false then
    -- the first digit may also be the last, and then no ANI was collected yet
    if c.dnisLen = 1 ∨ cx.getAniFirst = false then tryRequestCallingPartyCategory cx env c
    else tryChangeToG2 cx env c
  else if c.dnisLen = 1 ∧ cx.getAniFirst then tryRequestCallingPartyCategory cx env c
  else requestNextDnisDigit cx env c

/-- `mf_receive_expected_dnis`. -/
def mfReceiveExpectedDnis (tone : Tone) (c : R2Chan) : R2Chan :=
  if tone.isDigit then
    let c := storeDnisDigit tone c
    let rc := env.onDnisDigitReceived c.out
    afterDnisDigit cx env rc (callback cx env (.onDnisDigitReceived tone) c)
  else if cx.g1Tones.noMoreDnisAvailable = tone then
    if c.dnisLen = 0 ∨ cx.getAniFirst = false then tryRequestCallingPartyCategory cx env c
    else tryChangeToG2 cx env c
  else handleProtocolError cx env .invalidMfTone c

/-- An ANI digit is stored without a look at the length of the buffer. -/
def storeAniDigit (tone : Tone) (c : R2Chan) : R2Chan :=
  { c.did (.storeAni c.aniLen tone) with
    ani := (c.ani.set c.aniLen tone).set (c.aniLen + 1) 0
    aniLen := c.aniLen + 1 }

/-- Ask for one more ANI digit. -/
def requestNextAniDigit (c : R2Chan) : R2Chan :=
  let tone := if cx.gcTones.requestNextAniDigit ≠ 0 then cx.gcTones.requestNextAniDigit
    else cx.gaTones.requestNextAniDigit
  prepareMfTone cx env tone (c.setMfState .aniRqTxd)

/-- Where `mf_receive_expected_ani` goes once there is no more ANI. -/
def doneGettingAni (c : R2Chan) : R2Chan :=
  if cx.getAniFirst = false ∨ dnisComplete cx c then tryChangeToG2 cx env c
  else requestNextDnisDigit cx env c

/-- `mf_receive_expected_ani`. Tone 0 only starts the collection. -/
def mfReceiveExpectedAni (tone : Tone) (c : R2Chan) : R2Chan :=
  if tone = 0 ∨ tone.isDigit then
    let c := if tone ≠ 0 then callback cx env (.onAniDigitReceived tone) (storeAniDigit tone c) else c
    if tone = 0 ∨ (cx.forceUseMaxAni = false ∧ c.aniLen < uint32 cx.maxAni) then
      requestNextAniDigit cx env c
    else doneGettingAni cx env c
  else if tone = cx.g1Tones.noMoreAniAvailable ∨ tone = cx.g1Tones.callerAniIsRestricted then
    let c := if tone = cx.g1Tones.callerAniIsRestricted
      then c.restrictAni else c
    doneGettingAni cx env c
  else handleProtocolError cx env .invalidMfTone c

/-- A category tone was received in Group A or C. Only Group A looks at `immediate_accept`. -/
def receiveCategory (tone : Tone) (c : R2Chan) : R2Chan :=
  let c := c.setCallerCategory tone
  if cx.maxAni > 0 then mfReceiveExpectedAni cx env 0 c
  else if c.mfGroup = .ga then tryChangeToG2 cx env c
  else requestChangeToG2 cx env c

/-- `handle_forward_mf_tone`. -/
def handleForwardMfTone (tone : Tone) (c : R2Chan) : R2Chan :=
  let c := c.cancelTimer .mfBackCycle
  match c.mfGroup, c.mfState with
  | .backInit, .seizeAckTxd =>
    if cx.getAniFirst ∧ cx.aniCanComeFirst then mfReceiveExpectedAni cx env tone c
    else mfReceiveExpectedDnis cx env tone c
  | .ga, .dnisRqTxd => mfReceiveExpectedDnis cx env tone c
  | .ga, .categoryRqTxd | .gc, .categoryRqTxd => receiveCategory cx env tone c
  | .ga, .aniRqTxd | .gc, .aniRqTxd => mfReceiveExpectedAni cx env tone c
  | .gb, .chgGiiTxd => offerCall cx env c
  | .backInit, _ | .ga, _ | .gb, _ | .gc, _ => handleProtocolError cx env .invalidMfState c
  | _, _ => handleProtocolError cx env .invalidMfGroup c

/-- `ready_to_answer`. -/
def readyToAnswer (c : R2Chan) : R2Chan := c.emit (.onCallAccepted .unknown)

/-- The MF dance has ended: the user hears of it after a delay. -/
def mfDanceEnded (c : R2Chan) : R2Chan :=
  armTimer env .r2AnswerDelay cx.timers.r2AnswerDelay .readyToAnswer
    ((turnOffMfEngine cx c).setCallState .accepted)

/-- `handle_forward_mf_silence`. -/
def handleForwardMfSilence (c : R2Chan) : R2Chan :=
  let c := setSilence cx env c
  match c.mfGroup, c.mfState with
  | .ga, .acceptedTxd | .gb, .acceptedTxd => mfDanceEnded cx env c
  | .gb, .disconnectTxd => c.mapTimers fun _ => TimerQueue.cancelAllTimers
  | .ga, _ | .gc, _ | .gb, .chgGiiTxd => c
  | .gb, _ => handleProtocolError cx env .invalidMfState c
  | _, _ => handleProtocolError cx env .invalidMfGroup c

end Backward

section Forward

variable (cx : R2Context) (env : Env)

/-- `handle_backward_mf_tone`. -/
def handleBackwardMfTone (c : R2Chan) : R2Chan := setSilence cx env (c.cancelTimer .mfFwdSafety)

/-- The line was answered, and the call with it. -/
def callAnswered (c : R2Chan) : R2Chan :=
  let c := ((c.cancelTimer .r2Answer).setR2State .answerRxd).setCallState .answered
  (turnOffMfEngine cx c).setAnswered.emit .onCallAnswered

/-- `handle_accept_tone`. An answer that came first is reported right after the
acceptance, unless the callback has changed the state. -/
def handleAcceptTone (mode : CallMode) (c : R2Chan) : R2Chan :=
  if c.r2State = .answerRxdMfPending then
    let d := callback cx env (.onCallAccepted mode) (c.setR2State .acceptRxd)
    if d.r2State ≠ .acceptRxd ∨ d.mfState ≠ c.mfState ∨ d.callState ≠ c.callState then d
    else callAnswered cx d
  else
    (armTimer env .r2Answer cx.timers.r2Answer .r2AnswerTimeoutExpired
      (c.setR2State .acceptRxd)).emit (.onCallAccepted mode)

/-- The tests of `handle_dnis_request`, in its order; `none` is its 0. -/
def dnisRequest (tone : Tone) : Option Int :=
  if tone = cx.gaTones.requestNextDnisDigit then some 1
  else if tone = cx.gaTones.requestDnisMinus1 then some (-1)
  else if tone = cx.gaTones.requestDnisMinus2 then some (-2)
  else if tone = cx.gaTones.requestDnisMinus3 then some (-3)
  else if tone = cx.gaTones.requestAllDnisAgain then some 0
  else none

/-- `handle_dnis_request`, for a tone that is one. Offset 0 is `request_all_dnis_again`. -/
def handleDnisRequest (offset : Int) (c : R2Chan) : R2Chan :=
  mfSendDnis cx env offset (if offset = 0 then c.setDnisIndex 0 else c)

/-- The backward side rejected the call with a tone. -/
def callRejected (cause : DisconnectCause) (c : R2Chan) : R2Chan :=
  reportCallDisconnection cause (c.setR2State .clearBackToneRxd)

def requestCategoryTone : Tone :=
  if cx.gaTones.requestCategory ≠ 0 then cx.gaTones.requestCategory
  else cx.gaTones.requestCategoryAndChangeToGc

/-- `handle_group_a_request`. -/
def handleGroupARequest (tone : Tone) (c : R2Chan) : R2Chan :=
  match dnisRequest cx tone with
  | some offset => handleDnisRequest cx env offset c
  | none =>
    if c.categorySent ∧ tone = cx.gaTones.requestNextAniDigit then mfSendAni cx env c
    else if tone = requestCategoryTone cx then
      mfSendCategory cx env
        (if requestCategoryTone cx = cx.gaTones.requestCategoryAndChangeToGc
          then c.setMfGroup .giii else c)
    else if tone = cx.gaTones.requestChangeToG2 then mfSendCategory cx env (c.setMfGroup .gii)
    else if tone = cx.gaTones.addressCompleteChargeSetup then handleAcceptTone cx env .withCharge c
    else if tone = cx.gaTones.networkCongestion then callRejected .networkCongestion c
    else handleProtocolError cx env .invalidMfTone c

/-- `handle_group_c_request`. -/
def handleGroupCRequest (tone : Tone) (c : R2Chan) : R2Chan :=
  if tone = cx.gcTones.requestNextAniDigit then mfSendAni cx env c
  else if tone = cx.gcTones.requestChangeToG2 then mfSendCategory cx env (c.setMfGroup .gii)
  else if tone = cx.gcTones.requestNextDnisDigitAndChangeToGa then
    mfSendDnis cx env 1 (c.setMfGroup .gi)
  else if tone = cx.gcTones.networkCongestion then callRejected .networkCongestion c
  else handleProtocolError cx env .invalidMfTone c

/-- The tones that `handle_group_b_request` takes for an acceptance. -/
def isAcceptTone (tone : Tone) : Prop :=
  tone = cx.gbTones.acceptCallWithCharge ∨ tone = cx.gbTones.acceptCallNoCharge ∨
    tone = cx.gbTones.specialInfoTone

instance (tone : Tone) : Decidable (isAcceptTone cx tone) := by
  unfold isAcceptTone; exact inferInstance

/-- `handle_group_b_request`. -/
def handleGroupBRequest (tone : Tone) (c : R2Chan) : R2Chan :=
  if isAcceptTone cx tone then handleAcceptTone cx env (getModeFromTone cx tone) c
  else if tone = cx.gbTones.busyNumber then callRejected .busyNumber c
  else if tone = cx.gbTones.networkCongestion then callRejected .networkCongestion c
  else if tone = cx.gbTones.unallocatedNumber then callRejected .unallocatedNumber c
  else if tone = cx.gbTones.numberChanged then callRejected .numberChanged c
  else if tone = cx.gbTones.lineOutOfOrder then callRejected .outOfOrder c
  else handleProtocolError cx env .invalidMfTone c

/-- `handle_backward_mf_silence`. -/
def handleBackwardMfSilence (tone : Tone) (c : R2Chan) : R2Chan :=
  match c.mfGroup with
  | .gi => handleGroupARequest cx env tone c
  | .gii => handleGroupBRequest cx env tone c
  | .giii => handleGroupCRequest cx env tone c
  | _ => handleProtocolError cx env .invalidMfGroup c

end Forward

section Detector

variable (cx : R2Context) (env : Env)

/-- `timediff`. -/
def timediff (t1 t2 : Timeval) : Int :=
  if t1.tvSec = t2.tvSec then (t1.tvUsec - t2.tvUsec).tdiv 1000
  else
    (if t1.tvUsec ≠ 0 then t1.tvUsec.tdiv 1000 else 0) +
      (if t2.tvUsec ≠ 0 then 1000 - t2.tvUsec.tdiv 1000 else 0)

/-- The last part of `check_threshold`: has the tone been on long enough? -/
def toneLongEnough (c : R2Chan) : R2Chan × Int :=
  match env.gettimeofday c.out with
  | none => (c.did .gettimeofday, -1)
  | some now =>
    (c.did .gettimeofday, if timediff now c.mfThresholdTime < cx.mfThreshold then -1 else 0)

/-- `check_threshold`. -/
def checkThreshold (tone : Tone) (c : R2Chan) : R2Chan × Int :=
  if cx.mfThreshold = 0 then (c, 0)
  else if c.mfThresholdTone ≠ tone then
    match env.gettimeofday c.out with
    | none => (c.did .gettimeofday, -1)
    | some now =>
      toneLongEnough cx env ((c.did .gettimeofday).setThreshold tone now)
  else toneLongEnough cx env c

/-- A tone came on that is to be handled. -/
def handleToneOn (tone : Tone) (c : R2Chan) : R2Chan :=
  let c := c.setMfReadTone tone
  match c.direction with
  | .backward => handleForwardMfTone cx env tone c
  | .forward => handleBackwardMfTone cx env c
  | .stopped => handleProtocolError cx env .libraryBug c

/-- The tone went off. The forward side acts only now, on the tone that was. -/
def handleToneOff (c : R2Chan) : R2Chan :=
  let d := match c.direction with
    | .backward => handleForwardMfSilence cx env c
    | .forward => handleBackwardMfSilence cx env c.mfReadTone c
    | .stopped => handleProtocolError cx env .libraryBug c
  d.setMfReadTone 0

/-- `openr2_proto_handle_mf_tone`. -/
def handleMfTone (tone : Tone) (c : R2Chan) : R2Chan :=
  if tone ≠ 0 then
    if c.mfReadTone = tone then c
    else if c.mfReadTone ≠ 0 then handleProtocolError cx env .brokenMfSequence c
    else
      let r := checkThreshold cx env tone c
      if r.2 ≠ 0 then r.1 else handleToneOn cx env tone r.1
  else if c.mfReadTone = 0 then c
  else
    let r := checkThreshold cx env 0 c
    if r.2 ≠ 0 then r.1 else handleToneOff cx env r.1

end Detector

end OpenR2
