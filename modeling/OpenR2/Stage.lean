import OpenR2.Machine

namespace OpenR2

/-- The register signalling of an incoming call without its tones, its timers and the
line: what was asked for last, in which group, and what has come so far. -/
structure Stage where
  asked : MfState
  group : MfGroup
  dnisLen : Nat
  aniLen : Nat
  category : Tone
  deriving DecidableEq, Repr

def R2Chan.stage (c : R2Chan) : Stage where
  asked := c.mfState
  group := c.mfGroup
  dnisLen := c.dnisLen
  aniLen := c.aniLen
  category := c.callerCategory

namespace Stage

variable (cx : R2Context)

/-- The number is as long as it can be. -/
def Complete (s : Stage) : Prop := uint32 cx.maxDnis ≤ s.dnisLen

instance (s : Stage) : Decidable (s.Complete cx) := by unfold Complete; exact inferInstance

def askDnis (s : Stage) : Stage := { s with asked := .dnisRqTxd, group := .ga }

def askAni (s : Stage) : Stage := { s with asked := .aniRqTxd }

def askCategory (s : Stage) : Stage :=
  { s with
    asked := .categoryRqTxd
    group := if cx.gaTones.requestCategory ≠ 0 then .ga else .gc }

def askGroupTwo (s : Stage) : Stage := { s with asked := .chgGiiTxd, group := .gb }

/-- Nothing more is asked: the call is accepted at once, or goes over to Group II. -/
def finish (s : Stage) : Stage :=
  if cx.immediateAccept then { s with asked := .acceptedTxd } else s.askGroupTwo

def askWho (s : Stage) : Stage := if cx.skipCategory then s.finish cx else s.askCategory cx

def aniDone (s : Stage) : Stage :=
  if cx.getAniFirst = false ∨ s.Complete cx then s.finish cx else s.askDnis

/-- After a DNIS digit, where the user may want no more. -/
def dnisTaken (more : Bool) (s : Stage) : Stage :=
  if s.Complete cx ∨ more = false then
    if s.dnisLen = 1 ∨ cx.getAniFirst = false then s.askWho cx else s.finish cx
  else if s.dnisLen = 1 ∧ cx.getAniFirst then s.askWho cx
  else s.askDnis

def noMoreDnis (s : Stage) : Stage :=
  if s.dnisLen = 0 ∨ cx.getAniFirst = false then s.askWho cx else s.finish cx

/-- One digit longer, if there is room. -/
def addDnis (s : Stage) : Stage :=
  { s with dnisLen := if s.dnisLen = maxDnisBuffer - 1 then s.dnisLen else s.dnisLen + 1 }

def hearDnis (more : Bool) (tone : Tone) (s : Stage) : Stage :=
  if tone.isDigit then s.addDnis.dnisTaken cx more else s.noMoreDnis cx

def addAni (s : Stage) : Stage := { s with aniLen := s.aniLen + 1 }

def hearAni (tone : Tone) (s : Stage) : Stage :=
  if tone.isDigit then
    if cx.forceUseMaxAni = false ∧ s.addAni.aniLen < uint32 cx.maxAni then s.addAni.askAni
    else s.addAni.aniDone cx
  else s.aniDone cx

def hearCategory (tone : Tone) (s : Stage) : Stage :=
  let s := { s with category := tone }
  if cx.maxAni > 0 then s.askAni else if s.group = .ga then s.finish cx else s.askGroupTwo

/-- The next tone is to be a DNIS digit. -/
def ExpectsDnis (s : Stage) : Prop :=
  s.group = .ga ∧ s.asked = .dnisRqTxd ∨
    s.group = .backInit ∧ s.asked = .seizeAckTxd ∧ ¬ (cx.getAniFirst ∧ cx.aniCanComeFirst)

/-- The next tone is to be an ANI digit. -/
def ExpectsAni (s : Stage) : Prop :=
  (s.group = .ga ∨ s.group = .gc) ∧ s.asked = .aniRqTxd ∨
    s.group = .backInit ∧ s.asked = .seizeAckTxd ∧ cx.getAniFirst ∧ cx.aniCanComeFirst

def ExpectsCategory (s : Stage) : Prop :=
  (s.group = .ga ∨ s.group = .gc) ∧ s.asked = .categoryRqTxd

instance (s : Stage) : Decidable (s.ExpectsDnis cx) := by unfold ExpectsDnis; exact inferInstance

instance (s : Stage) : Decidable (s.ExpectsAni cx) := by unfold ExpectsAni; exact inferInstance

instance (s : Stage) : Decidable s.ExpectsCategory := by unfold ExpectsCategory; exact inferInstance

/-- A tone comes, and is one that was expected. `more` is what the user says about a
DNIS digit. -/
def hear (more : Bool) (tone : Tone) (s : Stage) : Stage :=
  if s.ExpectsDnis cx then s.hearDnis cx more tone
  else if s.ExpectsAni cx then s.hearAni cx tone
  else if s.ExpectsCategory then s.hearCategory cx tone
  else s

/-- What is done of a tone at first: a digit is kept, where there is room, and the user
hears of it. -/
def stores (tone : Tone) (s : Stage) : List Act :=
  if s.ExpectsDnis cx then
    if s.dnisLen = maxDnisBuffer - 1 then [] else [.storeDnis s.dnisLen tone]
  else [.storeAni s.aniLen tone]

def reports (tone : Tone) (s : Stage) : List Act :=
  if tone.isDigit = false then []
  else if s.ExpectsDnis cx then s.stores cx tone ++ [.event (.onDnisDigitReceived tone)]
  else if s.ExpectsAni cx then s.stores cx tone ++ [.event (.onAniDigitReceived tone)]
  else []

/-- The tone is one of those that can come. -/
def Understands (tone : Tone) (s : Stage) : Prop :=
  if s.ExpectsDnis cx then tone.isDigit = true ∨ cx.g1Tones.noMoreDnisAvailable = tone
  else if s.ExpectsAni cx then
    tone.isDigit = true ∨ tone = cx.g1Tones.noMoreAniAvailable ∨
      tone = cx.g1Tones.callerAniIsRestricted
  else s.ExpectsCategory ∨ s.group = .gb ∧ s.asked = .chgGiiTxd

/-- No tone comes in time, where that means the end of the DNIS or of the ANI. -/
def timeOut (s : Stage) : Stage :=
  if cx.aniCanComeFirst = false ∧ cx.getAniFirst = false then s.askWho cx else s.finish cx

end Stage

/-- The states in which the backward side waits for a tone that it has asked for. -/
def MfState.Asks (m : MfState) : Prop :=
  m = .categoryRqTxd ∨ m = .dnisRqTxd ∨ m = .aniRqTxd ∨ m = .chgGiiTxd

instance (m : MfState) : Decidable m.Asks := by unfold MfState.Asks; exact inferInstance

section Inputs

variable (cx : R2Context) (c : R2Chan) (t : Tick)

/-- A tone of the caller comes on and is handled. -/
def Comes (tone : Tone) : Prop :=
  t.input = .mfTone tone ∧ tone ≠ 0 ∧ c.direction = .backward ∧ c.mfState ≠ .offState ∧
    c.mfReadTone = 0 ∧ (checkThreshold cx t.env tone c.start).2 = 0

instance (tone : Tone) : Decidable (Comes cx c t tone) := by unfold Comes; exact inferInstance

/-- What the step has done when a tone has come. -/
def beforeTone (tone : Tone) : List Act := (checkThreshold cx t.env tone c.start).1.out

/-- What the user says about a DNIS digit: are there to be more? -/
def wantsMore (tone : Tone) : Bool :=
  t.env.onDnisDigitReceived (beforeTone cx c t tone ++ c.stage.stores cx tone)

/-- The user says of a DNIS digit that no more are wanted. -/
def StopsDnis : Prop :=
  ∃ tone, Comes cx c t tone ∧ tone.isDigit = true ∧ c.stage.ExpectsDnis cx ∧
    wantsMore cx c t tone = false

/-- The caller says that there are no more DNIS digits. -/
def NoMoreDnisComes : Prop :=
  ∃ tone, Comes cx c t tone ∧ tone.isDigit = false ∧ c.stage.ExpectsDnis cx ∧
    tone = cx.g1Tones.noMoreDnisAvailable

/-- Nothing came of what was asked for. -/
def CycleExpires : Prop :=
  ∃ id timer, t.input = .timer id ∧ c.timer? id = some timer ∧
    timer.callback = .mfBackCycleTimeoutExpired

end Inputs

end OpenR2
