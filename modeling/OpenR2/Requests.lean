import OpenR2.Machine

namespace OpenR2

/-- What the backward side means by a tone, and the group in which it is answered. -/
inductive Request where
  | dnis (offset : Int) (group : MfGroup)
  | ani
  | category (group : MfGroup)
  | accept (mode : CallMode)
  | reject (cause : DisconnectCause)
  | unknown (reason : ProtocolError)
  deriving DecidableEq, Repr

section Requests

variable (cx : R2Context)

/-- After the end of the ANI, a request for more of it is one for the DNIS where both have
the same tone. -/
def aniRequest (c : R2Chan) : Request :=
  if c.mfState = .aniEndTxd ∧
      (cx.gaTones.requestNextDnisDigit = cx.gaTones.requestNextAniDigit ∨
        cx.gaTones.requestNextDnisDigit = cx.gcTones.requestNextAniDigit) then
    .dnis 1 .gi
  else .ani

def groupARequest (tone : Tone) (c : R2Chan) : Request :=
  match dnisRequest cx tone with
  | some offset => .dnis offset .gi
  | none =>
    if c.categorySent ∧ tone = cx.gaTones.requestNextAniDigit then aniRequest cx c
    else if tone = requestCategoryTone cx then
      .category (if requestCategoryTone cx = cx.gaTones.requestCategoryAndChangeToGc then .giii else .gi)
    else if tone = cx.gaTones.requestChangeToG2 then .category .gii
    else if tone = cx.gaTones.addressCompleteChargeSetup then .accept .withCharge
    else if tone = cx.gaTones.networkCongestion then .reject .networkCongestion
    else .unknown .invalidMfTone

def groupBRequest (tone : Tone) : Request :=
  if isAcceptTone cx tone then .accept (getModeFromTone cx tone)
  else if tone = cx.gbTones.busyNumber then .reject .busyNumber
  else if tone = cx.gbTones.networkCongestion then .reject .networkCongestion
  else if tone = cx.gbTones.unallocatedNumber then .reject .unallocatedNumber
  else if tone = cx.gbTones.numberChanged then .reject .numberChanged
  else if tone = cx.gbTones.lineOutOfOrder then .reject .outOfOrder
  else .unknown .invalidMfTone

def groupCRequest (tone : Tone) (c : R2Chan) : Request :=
  if tone = cx.gcTones.requestNextAniDigit then aniRequest cx c
  else if tone = cx.gcTones.requestChangeToG2 then .category .gii
  else if tone = cx.gcTones.requestNextDnisDigitAndChangeToGa then .dnis 1 .gi
  else if tone = cx.gcTones.networkCongestion then .reject .networkCongestion
  else .unknown .invalidMfTone

def R2Chan.request (tone : Tone) (c : R2Chan) : Request :=
  match c.mfGroup with
  | .gi => groupARequest cx tone c
  | .gii => groupBRequest cx tone
  | .giii => groupCRequest cx tone c
  | _ => .unknown .invalidMfGroup

/-- What is done about it. -/
def serve (env : Env) (r : Request) (c : R2Chan) : R2Chan :=
  match r with
  | .dnis offset group => handleDnisRequest cx env offset (c.setMfGroup group)
  | .ani => mfSendAniDigit cx env c
  | .category group => mfSendCategory cx env (c.setMfGroup group)
  | .accept mode => handleAcceptTone cx env mode c
  | .reject cause => callRejected cause c
  | .unknown reason => handleProtocolError cx env reason c

theorem mfSendAni_serves (env : Env) (c : R2Chan) :
    mfSendAni cx env c = serve cx env (aniRequest cx c) c := by
  simp only [mfSendAni, aniRequest]
  split_ifs <;> rfl

theorem handleGroupARequest_serves (env : Env) (tone : Tone) (c : R2Chan) (hg : c.mfGroup = .gi) :
    handleGroupARequest cx env tone c = serve cx env (groupARequest cx tone c) c := by
  have hc : c.setMfGroup .gi = c := by
    rw [← hg]
    rfl
  simp only [handleGroupARequest, groupARequest]
  cases dnisRequest cx tone with
  | some offset => simp only [serve, hc]
  | none =>
    dsimp only
    split_ifs
    · exact mfSendAni_serves cx env c
    · rfl
    · simp only [serve, hc]
    all_goals rfl

theorem handleGroupBRequest_serves (env : Env) (tone : Tone) (c : R2Chan) :
    handleGroupBRequest cx env tone c = serve cx env (groupBRequest cx tone) c := by
  simp only [handleGroupBRequest, groupBRequest]
  split_ifs <;> rfl

theorem handleGroupCRequest_serves (env : Env) (tone : Tone) (c : R2Chan) :
    handleGroupCRequest cx env tone c = serve cx env (groupCRequest cx tone c) c := by
  simp only [handleGroupCRequest, groupCRequest]
  split_ifs
  · exact mfSendAni_serves cx env c
  all_goals rfl

/-- The forward side understands a tone, and then acts. -/
theorem handleBackwardMfSilence_serves (env : Env) (tone : Tone) (c : R2Chan) :
    handleBackwardMfSilence cx env tone c = serve cx env (c.request cx tone) c := by
  simp only [handleBackwardMfSilence, R2Chan.request]
  cases hg : c.mfGroup with
  | gi => exact handleGroupARequest_serves cx env tone c hg
  | gii => exact handleGroupBRequest_serves cx env tone c
  | giii => exact handleGroupCRequest_serves cx env tone c
  | _ => rfl

end Requests

section Inputs

variable (cx : R2Context) (c : R2Chan) (t : Tick)

/-- A tone of the called side goes off, and is handled. -/
def Ceases (tone : Tone) : Prop :=
  t.input = .mfTone 0 ∧ tone ≠ 0 ∧ c.direction = .forward ∧ c.mfState ≠ .offState ∧
    c.mfReadTone = tone ∧ (checkThreshold cx t.env 0 c.start).2 = 0

instance (tone : Tone) : Decidable (Ceases cx c t tone) := by unfold Ceases; exact inferInstance

/-- The called side asks for this. -/
def AsksFor (r : Request) : Prop := ∃ tone, Ceases cx c t tone ∧ c.request cx tone = r

end Inputs

/-- What is done before the channel is idle, if it gets so. -/
def untilIdle (as : List Act) : List Act := as.takeWhile fun a => a ≠ .callState .idle

/-- The call goes on after these steps. -/
abbrev Live (cx : R2Context) (js : List Tick) (c : R2Chan) : Prop :=
  ∀ a ∈ (run cx js c).2, ¬ a = .callState .idle

end OpenR2
