import OpenR2.Channel

namespace OpenR2

/- The keys of the advanced file, by the tables they change. -/

inductive GaKey where
  | requestNextAniDigit | requestNextDnisDigit | requestDnisMinus1 | requestDnisMinus2
  | requestDnisMinus3 | requestAllDnisAgain | requestCategory | requestCategoryAndChangeToGc
  | requestChangeToG2 | addressCompleteChargeSetup | networkCongestion
  deriving DecidableEq, Repr

inductive GbKey where
  | acceptCallWithCharge | acceptCallNoCharge | busyNumber | networkCongestion
  | unallocatedNumber | lineOutOfOrder | specialInfoTone | numberChanged
  deriving DecidableEq, Repr

inductive GcKey where
  | requestNextAniDigit | requestChangeToG2 | requestNextDnisDigitAndChangeToGa
  deriving DecidableEq, Repr

inductive G1Key where
  | noMoreDnisAvailable | noMoreAniAvailable | callerAniIsRestricted
  deriving DecidableEq, Repr

inductive G2Key where
  | nationalSubscriber | nationalPrioritySubscriber | internationalSubscriber
  | internationalPrioritySubscriber | collectCall | payPhone
  deriving DecidableEq, Repr

inductive TimerKey where
  | mfBackCycle | mfBackResumeCycle | mfFwdSafety | r2Seize | r2SeizePersist | r2Answer
  | r2MeteringPulse | r2DoubleAnswer | r2AnswerDelay | r2SetCallDown | casPersistenceCheck
  | dtmfStartDial
  deriving DecidableEq, Repr

inductive SettingKey where
  | mfThreshold | casR2Bits | casNonr2Bits
  deriving DecidableEq, Repr

/-- The keys of `LOADTONE`. -/
inductive ToneKey where
  | ga (k : GaKey)
  | gb (k : GbKey)
  | gc (k : GcKey)
  | g1 (k : G1Key)
  | g2 (k : G2Key)
  deriving DecidableEq, Repr

/-- The keys of `LOADTIMER` and `LOADSETTING`. -/
inductive NumberKey where
  | timer (k : TimerKey)
  | setting (k : SettingKey)
  deriving DecidableEq, Repr

section Keys

def GaKey.text : GaKey → String
  | .requestNextAniDigit => "mf_ga_tones.request_next_ani_digit"
  | .requestNextDnisDigit => "mf_ga_tones.request_next_dnis_digit"
  | .requestDnisMinus1 => "mf_ga_tones.request_dnis_minus_1"
  | .requestDnisMinus2 => "mf_ga_tones.request_dnis_minus_2"
  | .requestDnisMinus3 => "mf_ga_tones.request_dnis_minus_3"
  | .requestAllDnisAgain => "mf_ga_tones.request_all_dnis_again"
  | .requestCategory => "mf_ga_tones.request_category"
  | .requestCategoryAndChangeToGc => "mf_ga_tones.request_category_and_change_to_gc"
  | .requestChangeToG2 => "mf_ga_tones.request_change_to_g2"
  | .addressCompleteChargeSetup => "mf_ga_tones.address_complete_charge_setup"
  | .networkCongestion => "mf_ga_tones.network_congestion"

def GbKey.text : GbKey → String
  | .acceptCallWithCharge => "mf_gb_tones.accept_call_with_charge"
  | .acceptCallNoCharge => "mf_gb_tones.accept_call_no_charge"
  | .busyNumber => "mf_gb_tones.busy_number"
  | .networkCongestion => "mf_gb_tones.network_congestion"
  | .unallocatedNumber => "mf_gb_tones.unallocated_number"
  | .lineOutOfOrder => "mf_gb_tones.line_out_of_order"
  | .specialInfoTone => "mf_gb_tones.special_info_tone"
  | .numberChanged => "mf_gb_tones.number_changed"

def GcKey.text : GcKey → String
  | .requestNextAniDigit => "mf_gc_tones.request_next_ani_digit"
  | .requestChangeToG2 => "mf_gc_tones.request_change_to_g2"
  | .requestNextDnisDigitAndChangeToGa => "mf_gc_tones.request_next_dnis_digit_and_change_to_ga"

def G1Key.text : G1Key → String
  | .noMoreDnisAvailable => "mf_g1_tones.no_more_dnis_available"
  | .noMoreAniAvailable => "mf_g1_tones.no_more_ani_available"
  | .callerAniIsRestricted => "mf_g1_tones.caller_ani_is_restricted"

def G2Key.text : G2Key → String
  | .nationalSubscriber => "mf_g2_tones.national_subscriber"
  | .nationalPrioritySubscriber => "mf_g2_tones.national_priority_subscriber"
  | .internationalSubscriber => "mf_g2_tones.international_subscriber"
  | .internationalPrioritySubscriber => "mf_g2_tones.international_priority_subscriber"
  | .collectCall => "mf_g2_tones.collect_call"
  | .payPhone => "mf_g2_tones.pay_phone"

def TimerKey.text : TimerKey → String
  | .mfBackCycle => "timers.mf_back_cycle"
  | .mfBackResumeCycle => "timers.mf_back_resume_cycle"
  | .mfFwdSafety => "timers.mf_fwd_safety"
  | .r2Seize => "timers.r2_seize"
  | .r2SeizePersist => "timers.r2_seize_persist"
  | .r2Answer => "timers.r2_answer"
  | .r2MeteringPulse => "timers.r2_metering_pulse"
  | .r2DoubleAnswer => "timers.r2_double_answer"
  | .r2AnswerDelay => "timers.r2_answer_delay"
  | .r2SetCallDown => "timers.r2_set_call_down"
  | .casPersistenceCheck => "timers.cas_persistence_check"
  | .dtmfStartDial => "timers.dtmf_start_dial"

def SettingKey.text : SettingKey → String
  | .mfThreshold => "mf_threshold"
  | .casR2Bits => "cas_r2_bits"
  | .casNonr2Bits => "cas_nonr2_bits"

def ToneKey.text : ToneKey → String
  | .ga k => k.text
  | .gb k => k.text
  | .gc k => k.text
  | .g1 k => k.text
  | .g2 k => k.text

def NumberKey.text : NumberKey → String
  | .timer k => k.text
  | .setting k => k.text

/-- In the order in which a line is tried. -/
def toneKeys : List ToneKey :=
  [.ga .requestNextAniDigit, .ga .requestNextDnisDigit, .ga .requestDnisMinus1,
   .ga .requestDnisMinus2, .ga .requestDnisMinus3, .ga .requestAllDnisAgain, .ga .requestCategory,
   .ga .requestCategoryAndChangeToGc, .ga .requestChangeToG2, .ga .addressCompleteChargeSetup,
   .ga .networkCongestion, .gb .acceptCallWithCharge, .gb .acceptCallNoCharge, .gb .busyNumber,
   .gb .networkCongestion, .gb .unallocatedNumber, .gb .lineOutOfOrder, .gb .specialInfoTone,
   .gb .numberChanged, .gc .requestNextAniDigit, .gc .requestChangeToG2,
   .gc .requestNextDnisDigitAndChangeToGa, .g1 .noMoreDnisAvailable, .g1 .noMoreAniAvailable,
   .g1 .callerAniIsRestricted, .g2 .nationalSubscriber, .g2 .nationalPrioritySubscriber,
   .g2 .internationalSubscriber, .g2 .internationalPrioritySubscriber, .g2 .collectCall,
   .g2 .payPhone]

def numberKeys : List NumberKey :=
  [.timer .mfBackCycle, .timer .mfBackResumeCycle, .timer .mfFwdSafety, .timer .r2Seize,
   .timer .r2SeizePersist, .timer .r2Answer, .timer .r2MeteringPulse, .timer .r2DoubleAnswer,
   .timer .r2AnswerDelay, .timer .r2SetCallDown, .timer .casPersistenceCheck,
   .timer .dtmfStartDial, .setting .mfThreshold, .setting .casR2Bits, .setting .casNonr2Bits]

def GaTones.set (k : GaKey) (t : Tone) (g : GaTones) : GaTones :=
  match k with
  | .requestNextAniDigit => { g with requestNextAniDigit := t }
  | .requestNextDnisDigit => { g with requestNextDnisDigit := t }
  | .requestDnisMinus1 => { g with requestDnisMinus1 := t }
  | .requestDnisMinus2 => { g with requestDnisMinus2 := t }
  | .requestDnisMinus3 => { g with requestDnisMinus3 := t }
  | .requestAllDnisAgain => { g with requestAllDnisAgain := t }
  | .requestCategory => { g with requestCategory := t }
  | .requestCategoryAndChangeToGc => { g with requestCategoryAndChangeToGc := t }
  | .requestChangeToG2 => { g with requestChangeToG2 := t }
  | .addressCompleteChargeSetup => { g with addressCompleteChargeSetup := t }
  | .networkCongestion => { g with networkCongestion := t }

def GaTones.get (k : GaKey) (g : GaTones) : Tone :=
  match k with
  | .requestNextAniDigit => g.requestNextAniDigit
  | .requestNextDnisDigit => g.requestNextDnisDigit
  | .requestDnisMinus1 => g.requestDnisMinus1
  | .requestDnisMinus2 => g.requestDnisMinus2
  | .requestDnisMinus3 => g.requestDnisMinus3
  | .requestAllDnisAgain => g.requestAllDnisAgain
  | .requestCategory => g.requestCategory
  | .requestCategoryAndChangeToGc => g.requestCategoryAndChangeToGc
  | .requestChangeToG2 => g.requestChangeToG2
  | .addressCompleteChargeSetup => g.addressCompleteChargeSetup
  | .networkCongestion => g.networkCongestion

def GbTones.set (k : GbKey) (t : Tone) (g : GbTones) : GbTones :=
  match k with
  | .acceptCallWithCharge => { g with acceptCallWithCharge := t }
  | .acceptCallNoCharge => { g with acceptCallNoCharge := t }
  | .busyNumber => { g with busyNumber := t }
  | .networkCongestion => { g with networkCongestion := t }
  | .unallocatedNumber => { g with unallocatedNumber := t }
  | .lineOutOfOrder => { g with lineOutOfOrder := t }
  | .specialInfoTone => { g with specialInfoTone := t }
  | .numberChanged => { g with numberChanged := t }

def GbTones.get (k : GbKey) (g : GbTones) : Tone :=
  match k with
  | .acceptCallWithCharge => g.acceptCallWithCharge
  | .acceptCallNoCharge => g.acceptCallNoCharge
  | .busyNumber => g.busyNumber
  | .networkCongestion => g.networkCongestion
  | .unallocatedNumber => g.unallocatedNumber
  | .lineOutOfOrder => g.lineOutOfOrder
  | .specialInfoTone => g.specialInfoTone
  | .numberChanged => g.numberChanged

def GcTones.set (k : GcKey) (t : Tone) (g : GcTones) : GcTones :=
  match k with
  | .requestNextAniDigit => { g with requestNextAniDigit := t }
  | .requestChangeToG2 => { g with requestChangeToG2 := t }
  | .requestNextDnisDigitAndChangeToGa => { g with requestNextDnisDigitAndChangeToGa := t }

def GcTones.get (k : GcKey) (g : GcTones) : Tone :=
  match k with
  | .requestNextAniDigit => g.requestNextAniDigit
  | .requestChangeToG2 => g.requestChangeToG2
  | .requestNextDnisDigitAndChangeToGa => g.requestNextDnisDigitAndChangeToGa

def G1Tones.set (k : G1Key) (t : Tone) (g : G1Tones) : G1Tones :=
  match k with
  | .noMoreDnisAvailable => { g with noMoreDnisAvailable := t }
  | .noMoreAniAvailable => { g with noMoreAniAvailable := t }
  | .callerAniIsRestricted => { g with callerAniIsRestricted := t }

def G1Tones.get (k : G1Key) (g : G1Tones) : Tone :=
  match k with
  | .noMoreDnisAvailable => g.noMoreDnisAvailable
  | .noMoreAniAvailable => g.noMoreAniAvailable
  | .callerAniIsRestricted => g.callerAniIsRestricted

def G2Tones.set (k : G2Key) (t : Tone) (g : G2Tones) : G2Tones :=
  match k with
  | .nationalSubscriber => { g with nationalSubscriber := t }
  | .nationalPrioritySubscriber => { g with nationalPrioritySubscriber := t }
  | .internationalSubscriber => { g with internationalSubscriber := t }
  | .internationalPrioritySubscriber => { g with internationalPrioritySubscriber := t }
  | .collectCall => { g with collectCall := t }
  | .payPhone => { g with payPhone := t }

def G2Tones.get (k : G2Key) (g : G2Tones) : Tone :=
  match k with
  | .nationalSubscriber => g.nationalSubscriber
  | .nationalPrioritySubscriber => g.nationalPrioritySubscriber
  | .internationalSubscriber => g.internationalSubscriber
  | .internationalPrioritySubscriber => g.internationalPrioritySubscriber
  | .collectCall => g.collectCall
  | .payPhone => g.payPhone

def Timers.set (k : TimerKey) (n : Nat) (t : Timers) : Timers :=
  match k with
  | .mfBackCycle => { t with mfBackCycle := n }
  | .mfBackResumeCycle => { t with mfBackResumeCycle := n }
  | .mfFwdSafety => { t with mfFwdSafety := n }
  | .r2Seize => { t with r2Seize := n }
  | .r2SeizePersist => { t with r2SeizePersist := n }
  | .r2Answer => { t with r2Answer := n }
  | .r2MeteringPulse => { t with r2MeteringPulse := n }
  | .r2DoubleAnswer => { t with r2DoubleAnswer := n }
  | .r2AnswerDelay => { t with r2AnswerDelay := n }
  | .r2SetCallDown => { t with r2SetCallDown := n }
  | .casPersistenceCheck => { t with casPersistenceCheck := n }
  | .dtmfStartDial => { t with dtmfStartDial := n }

namespace R2Context

def setTone (k : ToneKey) (t : Tone) (cx : R2Context) : R2Context :=
  match k with
  | .ga k => { cx with gaTones := cx.gaTones.set k t }
  | .gb k => { cx with gbTones := cx.gbTones.set k t }
  | .gc k => { cx with gcTones := cx.gcTones.set k t }
  | .g1 k => { cx with g1Tones := cx.g1Tones.set k t }
  | .g2 k => { cx with g2Tones := cx.g2Tones.set k t }

def tone (k : ToneKey) (cx : R2Context) : Tone :=
  match k with
  | .ga k => cx.gaTones.get k
  | .gb k => cx.gbTones.get k
  | .gc k => cx.gcTones.get k
  | .g1 k => cx.g1Tones.get k
  | .g2 k => cx.g2Tones.get k

def setNumber (k : NumberKey) (n : Nat) (cx : R2Context) : R2Context :=
  match k with
  | .timer k => { cx with timers := cx.timers.set k n }
  | .setting .mfThreshold => { cx with mfThreshold := n }
  | .setting .casR2Bits => { cx with casR2Bits := n }
  | .setting .casNonr2Bits => { cx with casNonr2Bits := n }

end R2Context

end Keys

section Scan

/-- The bytes of a text. -/
def bytes (s : String) : List Nat := s.toList.map Char.toNat

/-- A line as `fgets` returns it. -/
abbrev Line := List Nat

/-- What follows the key and the equals sign in a line, which ends with its first zero. -/
def valueOf (key : String) (line : Line) : Option (List Nat) :=
  (bytes key ++ [0x3D]).isPrefixOf? (cstr line)

/-- `sscanf` of `key=%c`. -/
def scanChar (key : String) (line : Line) : Option Nat := (valueOf key line).bind List.head?

/-- The number with these decimal digits. -/
def decimal (digits : List Nat) : Nat := digits.foldl (fun n d => 10 * n + (d - 0x30)) 0

def isSpace (b : Nat) : Bool := b = 0x20 || (9 ≤ b && b ≤ 13)

/-- The conversion `%d`, which skips white space and takes a sign. -/
def scanDecimal (value : List Nat) : Option Int :=
  let value := value.dropWhile isSpace
  let digits := fun bs : List Nat => bs.takeWhile Tone.isDigit
  match value with
  | 0x2D :: bs => if digits bs = [] then none else some (-(decimal (digits bs) : Int))
  | 0x2B :: bs => if digits bs = [] then none else some (decimal (digits bs))
  | bs => if digits bs = [] then none else some (decimal (digits bs))

/-- Of a number that is no `int` C says nothing: `beyond` is what the machine makes of it. -/
def toInt (beyond : Int → Int) (n : Int) : Int :=
  if n.bmod (2 ^ 32) = n then n else (beyond n).bmod (2 ^ 32)

/-- `sscanf` of `key=%d`. -/
def scanInt (beyond : Int → Int) (key : String) (line : Line) : Option Int :=
  ((valueOf key line).bind scanDecimal).map (toInt beyond)

end Scan

section Load

/-- `strchr("1234567890BCDEF", c)`, which also finds the end of the string. -/
def isToneChar (c : Nat) : Prop := c = 0 ∨ c ∈ bytes "1234567890BCDEF"

instance (c : Nat) : Decidable (isToneChar c) := by unfold isToneChar; exact inferInstance

/-- `%c` on the address of `intvalue` sets its low byte. -/
def setLowByte (intvalue : Int) (c : Nat) : Int := intvalue / 256 * 256 + (c % 256 : Nat)

/-- What `LOADTONE` stores. -/
def toneStored (intvalue : Int) (c : Nat) : Tone :=
  if isToneChar c then uint32 (setLowByte intvalue c) else Tone.invalid

/-- The context, and `intvalue`. -/
abbrev Loading := R2Context × Int

/-- One turn of the loop of `openr2_context_configure_from_advanced_file`. -/
def loadLine (beyond : Int → Int) (s : Loading) (line : Line) : Loading :=
  if line.head? = some 0x23 ∨ line.head? = some 0x0A ∨ line.head? = some 0x20 then s
  else
    match toneKeys.findSome? fun k => (scanChar k.text line).map (k, ·) with
    | some (k, c) => (s.1.setTone k (toneStored s.2 c), setLowByte s.2 c)
    | none =>
      match numberKeys.findSome? fun k => (scanInt beyond k.text line).map (k, ·) with
      | some (k, n) => (if n ≥ 0 then s.1.setNumber k n.toNat else s.1, n)
      | none => s

/-- `openr2_context_configure_from_advanced_file`, on the lines of a file that opens. -/
def configureFromAdvancedFile (beyond : Int → Int) (file : List Line) (cx : R2Context) : R2Context :=
  (file.foldl (loadLine beyond) (cx, 0)).1

end Load

end OpenR2
