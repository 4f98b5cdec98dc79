namespace OpenR2

/-- MF tones are the character codes exchanged with the MF interface. Code 0 is
silence, and doubles as the value of a tone the variant does not have. -/
abbrev Tone := Nat

namespace Tone

def invalid : Tone := 0
def t1 : Tone := 0x31
def t2 : Tone := 0x32
def t3 : Tone := 0x33
def t4 : Tone := 0x34
def t5 : Tone := 0x35
def t6 : Tone := 0x36
def t7 : Tone := 0x37
def t8 : Tone := 0x38
def t9 : Tone := 0x39
def t10 : Tone := 0x30
def t11 : Tone := 0x42
def t12 : Tone := 0x43
def t13 : Tone := 0x44
def t14 : Tone := 0x45
def t15 : Tone := 0x46

/-- The range test of the DNIS and ANI handlers, and `isdigit` of `make_call`. -/
def isDigit (t : Tone) : Bool := t10 ≤ t && t ≤ t9

end Tone

/-- The line signals. Their bit patterns are in the context, and may coincide. -/
inductive CasSignal where
  | invalid | idle | block | seize | seizeAck | clearBack | forcedRelease | clearForward | answer
  deriving DecidableEq, Repr

inductive MfGroup where
  | noGroup
  | backInit | ga | gb | gc
  | fwdInit | gi | gii | giii
  | dtmfFwdInit | dtmfBackInit
  deriving DecidableEq, Repr

/-- `openr2_mf_state_t`. Memory just allocated holds 0, which is none of its values. -/
inductive MfState where
  | unset
  | offState
  -- backward
  | seizeAckTxd | categoryRqTxd | dnisRqTxd | aniRqTxd | chgGiiTxd | acceptedTxd | disconnectTxd
  -- forward
  | categoryTxd | dnisTxd | dnisEndTxd | aniTxd | aniEndTxd | waitingTimeout
  | dialingDtmf | detectingDtmf
  deriving DecidableEq, Repr

/-- The line state, `openr2_cas_state_t`. -/
inductive CasState where
  | invalidState | init | idle
  -- backward
  | seizeAckTxd | answerTxd | clearBackTxd | clearFwdRxd | executingDoubleAnswer | forcedReleaseTxd
  -- forward
  | seizeTxd | seizeAckRxd | clearBackToneRxd | acceptRxd | answerRxd | clearBackRxd
  | answerRxdMfPending | clearFwdTxd | forcedReleaseRxd | clearBackAfterClearFwdRxd
  | seizeTxdClearFwdPending | doubleSeizureClearFwdPending
  | blocked | doubleSeizure
  deriving DecidableEq, Repr

inductive CallState where
  | idle | collecting | dialing | offered | accepted | answered | disconnected
  deriving DecidableEq, Repr

inductive Direction where
  | stopped | forward | backward
  deriving DecidableEq, Repr

inductive CallMode where
  | withCharge | noCharge | special | unknown
  deriving DecidableEq, Repr

inductive AnswerMode where
  | simple | double
  deriving DecidableEq, Repr

inductive DisconnectCause where
  | busyNumber | networkCongestion | unallocatedNumber | outOfOrder | unspecified | noAnswer
  | normalClearing | forcedRelease | numberChanged | glare
  deriving DecidableEq, Repr

inductive ProtocolError where
  | invalidCasBits | invalidMfTone | backMfTimeout | seizeTimeout | fwdSafetyTimeout
  | brokenMfSequence | answerTimeout | invalidR2State | invalidMfState | invalidMfGroup
  | libraryBug | internalError | alarmRaised
  deriving DecidableEq, Repr

inductive Category where
  | nationalSubscriber | nationalPrioritySubscriber
  | internationalSubscriber | internationalPrioritySubscriber
  | collectCall | testEquipment | payPhone | unknown
  deriving DecidableEq, Repr

inductive Variant where
  | argentina | brazil | china | czech | colombia | ecuador | itu | mexico | philippines
  | venezuela | unknown
  deriving DecidableEq, Repr

end OpenR2
