import OpenR2.Line

namespace OpenR2

section Tones

variable (cx : R2Context) (env : Env)

/-- The tone-on half of `prepare_mf_tone`. A backward request gets its cycle timer,
and a failed flush leaves the tone on the line but not in `mf_write_tone`. -/
def startMfTone (tone : Tone) (c : R2Chan) : R2Chan :=
  let c := if c.direction = .backward
    then armTimer env .mfBackCycle cx.timers.mfBackCycle .mfBackCycleTimeoutExpired c else c
  let flushed := env.flushWriteBuffers c.out
  let c := c.did .flushWriteBuffers
  if flushed then c.setMfWriteTone tone else c

/-- The second half of `prepare_mf_tone`: a tone already chosen is not chosen again. -/
def selectMfTone (tone : Tone) (c : R2Chan) : R2Chan :=
  if c.mfWriteTone = tone then c
  else
    let selected := env.mfSelectTone c.out
    let c := c.did (.mfSelectTone c.mfWriteHandle tone)
    if selected = false then handleProtocolError cx env .internalError c
    else if tone = 0 then c.setMfWriteTone tone
    else startMfTone cx env tone c

/-- `prepare_mf_tone`. -/
def prepareMfTone (tone : Tone) (c : R2Chan) : R2Chan :=
  if tone = 0 ∧ c.mfWriteTone ≠ 0 then
    let flushed := env.flushWriteBuffers c.out
    let c := c.did .flushWriteBuffers
    if flushed then selectMfTone cx env tone c else c
  else selectMfTone cx env tone c

/-- `set_silence`. -/
def setSilence (c : R2Chan) : R2Chan := (prepareMfTone cx env 0 c).setMfWriteTone 0

/-- `mf_back_resume_cycle`. -/
def mfBackResumeCycle (c : R2Chan) : R2Chan := setSilence cx env c

/-- Wait for the far end to time out, with a timer against waiting for ever. -/
def waitTimeout (c : R2Chan) : R2Chan :=
  armTimer env .mfFwdSafety cx.timers.mfFwdSafety .mfFwdSafetyTimeoutExpired
    (c.setMfState .waitingTimeout)

/-- The second half of `mf_send_dnis`, on the digit under the index. -/
def mfSendDnisDigit (c : R2Chan) : R2Chan :=
  let digit := c.dnis.getD c.dnisIndex (env.pastDnis c.dnisIndex)
  let c := c.did (.readDnis c.dnisIndex)
  if digit ≠ 0 then prepareMfTone cx env digit (c.setMfState .dnisTxd)
  else if cx.g1Tones.noMoreDnisAvailable ≠ 0 ∧ c.mfState ≠ .dnisEndTxd ∧
      c.mfState ≠ .waitingTimeout then
    prepareMfTone cx env cx.g1Tones.noMoreDnisAvailable (c.setMfState .dnisEndTxd)
  else waitTimeout cx env c

/-- `mf_send_dnis`. Nothing bounds the index from above. -/
def mfSendDnis (offset : Int) (c : R2Chan) : R2Chan :=
  if offset = -1 ∨ offset = -2 ∨ offset = -3 then
    mfSendDnisDigit cx env (c.setDnisIndex (c.dnisIndex - offset.natAbs))
  else if offset = 0 then mfSendDnisDigit cx env c
  else if offset = 1 then mfSendDnisDigit cx env (c.setDnisIndex (c.dnisIndex + 1))
  else handleProtocolError cx env .libraryBug c

/-- `mf_send_category`. -/
def mfSendCategory (c : R2Chan) : R2Chan :=
  let c := c.setMfState .categoryTxd
  prepareMfTone cx env c.callerCategory c.setCategorySent

/-- The byte under the ANI pointer. -/
def currentAni (c : R2Chan) : Tone :=
  match c.aniPtr with
  | none => env.nullAni
  | some p => c.ani.getD p 0

/-- Move the ANI pointer on, unless a protocol error has just made it null. -/
def nextAni (c : R2Chan) : R2Chan := { c with aniPtr := c.aniPtr.map (· + 1) }

/-- `mf_send_ani` after its test for a DNIS request in disguise. -/
def mfSendAniDigit (c : R2Chan) : R2Chan :=
  if cx.g1Tones.callerAniIsRestricted ≠ 0 ∧ c.aniPtr = none then
    prepareMfTone cx env cx.g1Tones.callerAniIsRestricted (c.setMfState .aniEndTxd)
  else
    let digit := currentAni env c
    let c := c.did (.readAni c.aniPtr)
    if digit ≠ 0 then
      nextAni (prepareMfTone cx env digit (c.setMfState .aniTxd))
    else if cx.g1Tones.noMoreAniAvailable ≠ 0 ∧ c.callerAniIsRestricted = false then
      prepareMfTone cx env cx.g1Tones.noMoreAniAvailable (c.setMfState .aniEndTxd)
    else if cx.g1Tones.callerAniIsRestricted ≠ 0 ∧ c.callerAniIsRestricted then
      prepareMfTone cx env cx.g1Tones.callerAniIsRestricted (c.setMfState .aniEndTxd)
    else waitTimeout cx env c

/-- `mf_send_ani`. -/
def mfSendAni (c : R2Chan) : R2Chan :=
  if c.mfState = .aniEndTxd ∧
      (cx.gaTones.requestNextDnisDigit = cx.gaTones.requestNextAniDigit ∨
        cx.gaTones.requestNextDnisDigit = cx.gcTones.requestNextAniDigit) then
    mfSendDnis cx env 1 (c.setMfGroup .gi)
  else mfSendAniDigit cx env c

end Tones

section Tables

variable (cx : R2Context)

/-- `get_tone_from_mode`. -/
def getToneFromMode : CallMode → Tone
  | .withCharge => cx.gbTones.acceptCallWithCharge
  | .noCharge => cx.gbTones.acceptCallNoCharge
  | .special => cx.gbTones.specialInfoTone
  | .unknown => cx.gbTones.acceptCallNoCharge

/-- `get_mode_from_tone`, which compares the tone with the first entry only. -/
def getModeFromTone (tone : Tone) : CallMode :=
  if tone = cx.gbTones.acceptCallWithCharge then .withCharge
  else if cx.gbTones.acceptCallNoCharge ≠ 0 then .noCharge
  else if cx.gbTones.specialInfoTone ≠ 0 then .special
  else .unknown

/-- `category2tone`. -/
def category2tone : Category → Tone
  | .nationalSubscriber => cx.g2Tones.nationalSubscriber
  | .nationalPrioritySubscriber => cx.g2Tones.nationalPrioritySubscriber
  | .internationalSubscriber => cx.g2Tones.internationalSubscriber
  | .internationalPrioritySubscriber => cx.g2Tones.internationalPrioritySubscriber
  | .collectCall => cx.g2Tones.collectCall
  | .testEquipment => cx.g2Tones.testEquipment
  | .payPhone => cx.g2Tones.payPhone
  | .unknown => cx.g2Tones.nationalSubscriber

/-- `tone2category` of a received category tone. -/
def tone2category (tone : Tone) : Category :=
  if cx.g2Tones.nationalSubscriber = tone then .nationalSubscriber
  else if cx.g2Tones.nationalPrioritySubscriber = tone then .nationalPrioritySubscriber
  else if cx.g2Tones.internationalSubscriber = tone then .internationalSubscriber
  else if cx.g2Tones.internationalPrioritySubscriber = tone then .internationalPrioritySubscriber
  else if cx.g2Tones.collectCall = tone then .collectCall
  else if cx.g2Tones.testEquipment = tone then .testEquipment
  else if cx.g2Tones.payPhone = tone then .payPhone
  else .unknown

end Tables

end OpenR2
