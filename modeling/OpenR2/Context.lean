import Mathlib
import OpenR2.Signals

namespace OpenR2

structure GaTones where
  requestNextDnisDigit : Tone
  requestDnisMinus1 : Tone
  requestDnisMinus2 : Tone
  requestDnisMinus3 : Tone
  requestAllDnisAgain : Tone
  requestNextAniDigit : Tone
  requestCategory : Tone
  requestCategoryAndChangeToGc : Tone
  requestChangeToG2 : Tone
  addressCompleteChargeSetup : Tone
  networkCongestion : Tone

structure GbTones where
  acceptCallWithCharge : Tone
  acceptCallNoCharge : Tone
  busyNumber : Tone
  networkCongestion : Tone
  unallocatedNumber : Tone
  lineOutOfOrder : Tone
  specialInfoTone : Tone
  numberChanged : Tone

structure GcTones where
  requestNextAniDigit : Tone
  requestChangeToG2 : Tone
  requestNextDnisDigitAndChangeToGa : Tone
  networkCongestion : Tone

structure G1Tones where
  noMoreDnisAvailable : Tone
  noMoreAniAvailable : Tone
  callerAniIsRestricted : Tone

structure G2Tones where
  nationalSubscriber : Tone
  nationalPrioritySubscriber : Tone
  internationalSubscriber : Tone
  internationalPrioritySubscriber : Tone
  collectCall : Tone
  testEquipment : Tone
  payPhone : Tone

/-- Timer lengths in milliseconds. -/
structure Timers where
  mfBackCycle : Nat
  mfBackResumeCycle : Nat
  mfFwdSafety : Nat
  r2Seize : Nat
  r2Answer : Nat
  r2MeteringPulse : Nat
  r2DoubleAnswer : Nat
  r2AnswerDelay : Nat
  casPersistenceCheck : Nat
  dtmfStartDial : Nat
  r2SetCallDown : Nat
  r2SeizePersist : Nat

/-- `openr2_context_t`, less its interface pointers, its logging and its locks.
The two dispose flags say whether the MF interface has the optional routine. -/
structure R2Context where
  variant : Variant
  casSignals : CasSignal → Nat
  casNonr2Bits : Nat
  casR2Bits : Nat
  gaTones : GaTones
  gbTones : GbTones
  gcTones : GcTones
  g1Tones : G1Tones
  g2Tones : G2Tones
  timers : Timers
  maxDnis : Int
  maxAni : Int
  getAniFirst : Bool
  skipCategory : Bool
  immediateAccept : Bool
  doubleAnswer : Bool
  mfThreshold : Int
  dialWithDtmf : Bool
  detectDtmf : Bool
  dtmfOn : Int
  dtmfOff : Int
  aniCanComeFirst : Bool
  forceUseMaxAni : Bool
  autoSeizeAck : Bool
  mfReadDispose : Bool
  mfWriteDispose : Bool

def maxAniBuffer : Nat := 80
def maxDnisBuffer : Nat := 80

/-- C's conversion of an `int` to `uint32_t`. -/
def uint32 (x : Int) : Nat := (x % 2 ^ 32).toNat

/-- What `calloc` leaves in a new context. -/
def R2Context.zero : R2Context where
  variant := .argentina
  casSignals := fun _ => 0
  casNonr2Bits := 0
  casR2Bits := 0
  gaTones := ⟨0, 0, 0, 0, 0, 0, 0, 0, 0, 0, 0⟩
  gbTones := ⟨0, 0, 0, 0, 0, 0, 0, 0⟩
  gcTones := ⟨0, 0, 0, 0⟩
  g1Tones := ⟨0, 0, 0⟩
  g2Tones := ⟨0, 0, 0, 0, 0, 0, 0⟩
  timers := ⟨0, 0, 0, 0, 0, 0, 0, 0, 0, 0, 0, 0⟩
  maxDnis := 0
  maxAni := 0
  getAniFirst := false
  skipCategory := false
  immediateAccept := false
  doubleAnswer := false
  mfThreshold := 0
  dialWithDtmf := false
  detectDtmf := false
  dtmfOn := 0
  dtmfOff := 0
  aniCanComeFirst := false
  forceUseMaxAni := false
  autoSeizeAck := false
  mfReadDispose := false
  mfWriteDispose := false

def standardCasSignals : CasSignal → Nat
  | .idle => 0x8
  | .block => 0xC
  | .seize => 0x0
  | .seizeAck => 0xC
  | .clearBack => 0xC
  | .forcedRelease => 0x0
  | .clearForward => 0x8
  | .answer => 0x4
  | .invalid => 0

def r2configArgentina (cx : R2Context) : R2Context :=
  { cx with
    g1Tones := { cx.g1Tones with
      noMoreDnisAvailable := Tone.invalid
      callerAniIsRestricted := Tone.t15
      noMoreAniAvailable := Tone.t12 }
    g2Tones := { cx.g2Tones with payPhone := Tone.t4 }
    timers := { cx.timers with r2MeteringPulse := 400 } }

def r2configBrazil (cx : R2Context) : R2Context :=
  { cx with
    g1Tones := { cx.g1Tones with
      noMoreDnisAvailable := Tone.invalid
      callerAniIsRestricted := Tone.t12 }
    g2Tones := { cx.g2Tones with collectCall := Tone.t8 }
    gaTones := { cx.gaTones with
      addressCompleteChargeSetup := Tone.invalid
      requestDnisMinus1 := Tone.t9
      requestAllDnisAgain := Tone.t2 }
    gbTones := { cx.gbTones with
      acceptCallWithCharge := Tone.t1
      busyNumber := Tone.t2
      acceptCallNoCharge := Tone.t5
      specialInfoTone := Tone.t6
      numberChanged := Tone.t3
      unallocatedNumber := Tone.t7 } }

/-- China collects the ANI first if asked to, and fixes its length at
`OR2_MAX_ANI`, one more than the other variants can be given. -/
def r2configChina (cx : R2Context) : R2Context :=
  { cx with
    casNonr2Bits := 0x3
    gaTones := { cx.gaTones with
      requestNextAniDigit := Tone.t1
      requestCategory := Tone.t6
      addressCompleteChargeSetup := Tone.invalid }
    gbTones := { cx.gbTones with
      acceptCallWithCharge := Tone.t1
      busyNumber := Tone.t2
      specialInfoTone := Tone.invalid }
    g1Tones := { cx.g1Tones with noMoreDnisAvailable := Tone.invalid }
    aniCanComeFirst := true
    forceUseMaxAni := true
    maxAni := maxAniBuffer }

def r2configItu (cx : R2Context) : R2Context := cx

def r2configMexico (cx : R2Context) : R2Context :=
  { cx with
    getAniFirst := false
    gaTones := { cx.gaTones with
      requestCategory := Tone.invalid
      requestCategoryAndChangeToGc := Tone.t6
      addressCompleteChargeSetup := Tone.invalid
      requestNextAniDigit := Tone.invalid }
    gbTones := { cx.gbTones with
      acceptCallWithCharge := Tone.t1
      acceptCallNoCharge := Tone.t5
      busyNumber := Tone.t2
      unallocatedNumber := Tone.t2
      specialInfoTone := Tone.invalid }
    gcTones := { cx.gcTones with
      requestNextAniDigit := Tone.t1
      requestChangeToG2 := Tone.t3
      requestNextDnisDigitAndChangeToGa := Tone.t5
      networkCongestion := Tone.t4 }
    g1Tones := { cx.g1Tones with
      noMoreDnisAvailable := Tone.invalid
      callerAniIsRestricted := Tone.t15 } }

def r2configVenezuela (cx : R2Context) : R2Context :=
  { cx with
    gaTones := { cx.gaTones with requestNextAniDigit := Tone.t9 }
    g1Tones := { cx.g1Tones with
      callerAniIsRestricted := Tone.t12
      noMoreDnisAvailable := Tone.invalid } }

def r2configColombia (cx : R2Context) : R2Context :=
  { cx with
    g1Tones := { cx.g1Tones with callerAniIsRestricted := Tone.t12 }
    gbTones := { cx.gbTones with
      acceptCallWithCharge := Tone.t1
      busyNumber := Tone.t2
      acceptCallNoCharge := Tone.t5
      unallocatedNumber := Tone.t6 } }

structure VariantEntry where
  id : Variant
  config : R2Context → R2Context

def r2variants : List VariantEntry :=
  [⟨.argentina, r2configArgentina⟩, ⟨.brazil, r2configBrazil⟩, ⟨.china, r2configChina⟩,
   ⟨.czech, r2configItu⟩, ⟨.colombia, r2configColombia⟩, ⟨.ecuador, r2configItu⟩,
   ⟨.itu, r2configItu⟩, ⟨.mexico, r2configMexico⟩, ⟨.philippines, r2configItu⟩,
   ⟨.venezuela, r2configVenezuela⟩]

/-- The ITU tables, written before the variant's own changes are made. -/
def configureItu (maxAni maxDnis : Int) (cx : R2Context) : R2Context :=
  { cx with
    casSignals := standardCasSignals
    casNonr2Bits := 0x1
    casR2Bits := 0xC
    timers := { cx.timers with
      mfBackCycle := 2000
      mfBackResumeCycle := 150
      mfFwdSafety := 30000
      r2Seize := 2000
      r2SeizePersist := 150
      r2Answer := 60000
      r2MeteringPulse := 0
      r2AnswerDelay := 150
      r2DoubleAnswer := 400
      r2SetCallDown := 3000
      dtmfStartDial := 500 }
    maxDnis := if maxDnis ≥ maxDnisBuffer then maxDnisBuffer - 1 else maxDnis
    maxAni := if maxAni ≥ maxAniBuffer then maxAniBuffer - 1 else maxAni
    autoSeizeAck := true
    getAniFirst := true
    immediateAccept := false
    gaTones :=
      { requestNextDnisDigit := Tone.t1
        requestDnisMinus1 := Tone.t2
        requestDnisMinus2 := Tone.t7
        requestDnisMinus3 := Tone.t8
        requestAllDnisAgain := Tone.invalid
        requestNextAniDigit := Tone.t5
        requestCategory := Tone.t5
        requestCategoryAndChangeToGc := Tone.invalid
        requestChangeToG2 := Tone.t3
        addressCompleteChargeSetup := Tone.t6
        networkCongestion := Tone.t4 }
    gbTones :=
      { acceptCallWithCharge := Tone.t6
        acceptCallNoCharge := Tone.t7
        busyNumber := Tone.t3
        networkCongestion := Tone.t4
        unallocatedNumber := Tone.t5
        lineOutOfOrder := Tone.t8
        specialInfoTone := Tone.t2
        numberChanged := Tone.invalid }
    gcTones :=
      { requestNextAniDigit := Tone.invalid
        requestChangeToG2 := Tone.invalid
        requestNextDnisDigitAndChangeToGa := Tone.invalid
        networkCongestion := Tone.invalid }
    g1Tones :=
      { noMoreDnisAvailable := Tone.t15
        noMoreAniAvailable := Tone.t15
        callerAniIsRestricted := Tone.t12 }
    g2Tones :=
      { nationalSubscriber := Tone.t1
        nationalPrioritySubscriber := Tone.t2
        testEquipment := Tone.t3
        internationalSubscriber := Tone.t7
        internationalPrioritySubscriber := Tone.t9
        collectCall := Tone.invalid
        payPhone := Tone.invalid } }

/-- `openr2_proto_configure_context`; `none` is its -1 for an unknown variant. -/
def configureContext (variant : Variant) (maxAni maxDnis : Int) (cx : R2Context) :
    Option R2Context :=
  (r2variants.find? (fun e => e.id == variant)).map fun e =>
    e.config (configureItu maxAni maxDnis cx)

/-- `openr2_context_new`. -/
def contextNew (variant : Variant) (maxAni maxDnis : Int) : Option R2Context :=
  configureContext variant maxAni maxDnis { R2Context.zero with variant := variant }

/-- The integer setters shared by `set_ani_first`, `set_skip_category_request`
and `set_immediate_accept`: a negative value is ignored, any other is a truth value. -/
def setFlag (old : Bool) (value : Int) : Bool := if value < 0 then old else decide (value ≠ 0)

def setAniFirst (v : Int) (cx : R2Context) : R2Context :=
  { cx with getAniFirst := setFlag cx.getAniFirst v }

def setSkipCategoryRequest (v : Int) (cx : R2Context) : R2Context :=
  { cx with skipCategory := setFlag cx.skipCategory v }

def setImmediateAccept (v : Int) (cx : R2Context) : R2Context :=
  { cx with immediateAccept := setFlag cx.immediateAccept v }

def setMaxAni (v : Int) (cx : R2Context) : R2Context :=
  { cx with maxAni := if v ≥ maxAniBuffer then maxAniBuffer - 1 else v }

def setMaxDnis (v : Int) (cx : R2Context) : R2Context :=
  { cx with maxDnis := if v ≥ maxDnisBuffer then maxDnisBuffer - 1 else v }

def setDtmfDetection (v : Int) (cx : R2Context) : R2Context :=
  { cx with detectDtmf := setFlag cx.detectDtmf v }

def defaultDtmfOn : Int := 50
def defaultDtmfOff : Int := 100

/-- `openr2_context_set_dtmf_dialing`. The times stay as they are when it is not enabled. -/
def setDtmfDialing (enable dtmfOn dtmfOff : Int) (cx : R2Context) : R2Context :=
  if enable < 0 then cx
  else if enable = 0 then { cx with dialWithDtmf := false }
  else
    { cx with
      dialWithDtmf := true
      dtmfOn := if dtmfOn > 0 then dtmfOn else defaultDtmfOn
      dtmfOff := if dtmfOff > 0 then dtmfOff else defaultDtmfOff }

/-- MFC/R2: neither dialling nor detecting with DTMF. -/
structure R2Context.Mfc (cx : R2Context) : Prop where
  dial : cx.dialWithDtmf = false
  detect : cx.detectDtmf = false

end OpenR2
