import OpenR2.Peers

namespace OpenR2

open Link

/-- What goes over a line: patterns, and tones that come on and go off. -/
inductive Signal where
  | bits (pattern : Nat)
  | tone (tone : Tone)
  deriving DecidableEq, Repr

def Act.signal? : Act → Option Signal
  | .setCas bits => some (.bits bits)
  | .mfSelectTone _ tone => some (.tone tone)
  | _ => none

/-- All goes well, and the user wants every digit. -/
structure Env.Willing (env : Env) : Prop extends env.Sound where
  digits : ∀ h, env.onDnisDigitReceived h = true

/-- How a channel hears of a signal, and what the line shows meanwhile. -/
def Signal.input : Signal → Input
  | .bits _ => .cas
  | .tone t => .mfTone t

def Signal.Shown (env : Env) : Signal → Prop
  | .bits pattern => ∀ h, env.getCas h = some pattern
  | .tone _ => True

/-- Two channels facing each other, each signal that one sends on its way to the other. -/
abbrev Trunk := Net R2Chan Signal Act

namespace Trunk

variable (cx : R2Context)

/-- One input to one of the channels. -/
def input (i : Side) (t : Tick) (s : Trunk) : Trunk := s.act Act.signal? i (tick cx (s.party i) t)

/-- The events of one side so far. -/
def events (i : Side) (s : Trunk) : List Event := (s.did i).filterMap Act.event?

/-- Each signal arrives in its turn. -/
inductive Step : Trunk → Trunk → Prop where
  | hear (s : Trunk) (i : Side) (env : Env) (x : Signal) (rest : List Signal)
      (h : s.inbox i = x :: rest) (he : env.Willing) (hx : x.Shown env) :
      Step s (input cx i ⟨env, x.input⟩ (s.take i rest))

end Trunk

/-- What a caller has to say. -/
structure Dialled where
  dnis : List Tone
  ani : Option (List Tone)
  restricted : Bool
  category : Tone

namespace Dialled

variable (cx : R2Context) (k : Dialled)

def aniDigits : List Tone := k.ani.getD []

/-- Who calls is not to be known. -/
def withheld : Bool := k.ani.isNone || k.restricted

/-- What the called side makes of the end of the ANI. It cannot always tell whether there are no
more digits or the ANI is withheld. -/
def hidden : Bool := k.withheld || decide (cx.g1Tones.noMoreAniAvailable = cx.g1Tones.callerAniIsRestricted)

/-- How many DNIS digits are taken at most, and how many ANI digits. The first is taken always. -/
def dnisRoom : Nat := max 1 (uint32 cx.maxDnis)

def aniRoom : Nat := max 1 (uint32 cx.maxAni)

/-- The ANI is asked for. -/
def AsksAni : Prop := cx.skipCategory = false ∧ 0 < cx.maxAni

instance : Decidable (AsksAni cx) := by unfold AsksAni; exact inferInstance

/-- What is to have come of the numbers and the category in the end. -/
def taken : Nat := min k.dnis.length (dnisRoom cx)

def heard : Nat := if AsksAni cx then min k.aniDigits.length (aniRoom cx) else 0

def ended : Bool := AsksAni cx ∧ k.aniDigits.length < aniRoom cx

/-- Where the ANI is asked for after the first digit, there is one, and an ANI is asked for. -/
def InOrder : Prop := cx.getAniFirst = true → k.dnis ≠ [] ∧ AsksAni cx

end Dialled

/-- What makes the tables such that the caller understands what is asked for, in Groups A and C,
and the called side the ends of the numbers. -/
structure R2Context.Legible (cx : R2Context) : Prop where
  threshold : cx.mfThreshold = 0
  aniLater : cx.aniCanComeFirst = false
  aniFree : cx.forceUseMaxAni = false
  dnisEnd : cx.g1Tones.noMoreDnisAvailable.isDigit = false
  aniEnd : cx.g1Tones.noMoreAniAvailable.isDigit = false
  withheld : cx.g1Tones.callerAniIsRestricted.isDigit = false
  askDnis : cx.gaTones.requestNextDnisDigit ≠ 0
  askCategory : requestCategoryTone cx ≠ 0 ∧ dnisRequest cx (requestCategoryTone cx) = none
  askGroupTwo : cx.gaTones.requestChangeToG2 ≠ 0 ∧ dnisRequest cx cx.gaTones.requestChangeToG2 = none ∧
    cx.gaTones.requestChangeToG2 ≠ cx.gaTones.requestNextAniDigit ∧
    cx.gaTones.requestChangeToG2 ≠ requestCategoryTone cx
  groupA : cx.gaTones.requestCategory ≠ 0 →
    cx.gaTones.requestCategory ≠ cx.gaTones.requestCategoryAndChangeToGc ∧
    cx.gcTones.requestNextAniDigit = 0 ∧ cx.gaTones.requestNextAniDigit ≠ 0 ∧
    dnisRequest cx cx.gaTones.requestNextAniDigit = none
  groupC : cx.gaTones.requestCategory = 0 →
    cx.gcTones.requestNextAniDigit ≠ 0 ∧ cx.gcTones.requestChangeToG2 ≠ 0 ∧
    cx.gcTones.requestNextDnisDigitAndChangeToGa ≠ 0 ∧
    cx.gcTones.requestChangeToG2 ≠ cx.gcTones.requestNextAniDigit ∧
    cx.gcTones.requestNextDnisDigitAndChangeToGa ≠ cx.gcTones.requestNextAniDigit ∧
    cx.gcTones.requestNextDnisDigitAndChangeToGa ≠ cx.gcTones.requestChangeToG2

/-- What can be said with the tones there are. -/
structure Dialled.Sayable (cx : R2Context) (k : Dialled) : Prop where
  dnis : ∀ d ∈ k.dnis, d.isDigit = true
  dnisFits : k.dnis.length < maxDnisBuffer
  ani : ∀ d ∈ k.aniDigits, d.isDigit = true
  aniFits : k.aniDigits.length < maxAniBuffer
  category : k.category ≠ 0
  dnisEnd : k.dnis.length < dnisRoom cx → cx.g1Tones.noMoreDnisAvailable ≠ 0
  aniEnd : AsksAni cx → k.aniDigits.length < aniRoom cx →
    (if k.withheld then cx.g1Tones.callerAniIsRestricted else cx.g1Tones.noMoreAniAvailable) ≠ 0
  inOrder : k.InOrder cx

/-- What the caller says with a tone: a digit or the end of the DNIS or the ANI, or the category,
in Group I or in Group II. -/
inductive Word where
  | dnis | dnisEnd | category | ani | aniEnd | groupTwo
  deriving DecidableEq, Repr

/-- The register signalling as its purpose has it, without tones: what the caller says now, and
what the called side knows, from the words before. -/
structure Talk where
  word : Word
  taken : Nat
  heard : Nat
  named : Bool
  ended : Bool
  deriving DecidableEq, Repr

namespace Talk

variable (cx : R2Context) (k : Dialled)

/-- The called side takes note of the word. -/
def hear (t : Talk) : Talk :=
  match t.word with
  | .dnis => { t with taken := t.taken + 1 }
  | .ani => { t with heard := t.heard + 1 }
  | .category => { t with named := true }
  | .aniEnd => { t with ended := true }
  | .dnisEnd | .groupTwo => t

/-- The next word, of which there are no more, when the number is complete and the call is to
be accepted at once. -/
def finish (t : Talk) : Option Talk :=
  if cx.immediateAccept then none else some { t with word := .groupTwo }

def askWho (t : Talk) : Option Talk :=
  if cx.skipCategory then t.finish cx else some { t with word := .category }

def askDnis (t : Talk) : Talk :=
  { t with word := if t.taken < k.dnis.length then .dnis else .dnisEnd }

def askAni (t : Talk) : Talk :=
  { t with word := if t.heard < k.aniDigits.length then .ani else .aniEnd }

/-- The DNIS is as long as it can be. -/
def Complete (t : Talk) : Prop := uint32 cx.maxDnis ≤ t.taken

instance (t : Talk) : Decidable (t.Complete cx) := by unfold Complete; exact inferInstance

def aniDone (t : Talk) : Option Talk :=
  if cx.getAniFirst = false ∨ t.Complete cx then t.finish cx else some (t.askDnis k)

/-- The word that the called side asks for next. -/
def ask (t : Talk) : Option Talk :=
  match t.word with
  | .dnis =>
    if t.Complete cx then
      if t.taken = 1 ∨ cx.getAniFirst = false then t.askWho cx else t.finish cx
    else if t.taken = 1 ∧ cx.getAniFirst then t.askWho cx
    else some (t.askDnis k)
  | .dnisEnd => if t.taken = 0 ∨ cx.getAniFirst = false then t.askWho cx else t.finish cx
  | .category =>
    if 0 < cx.maxAni then some (t.askAni k)
    else if cx.gaTones.requestCategory ≠ 0 then t.finish cx
    else some { t with word := .groupTwo }
  | .ani => if t.heard < uint32 cx.maxAni then some (t.askAni k) else t.aniDone cx k
  | .aniEnd => t.aniDone cx k
  | .groupTwo => none

/-- The tone of the word. -/
def tone (t : Talk) : Tone :=
  match t.word with
  | .dnis => k.dnis.getD t.taken 0
  | .dnisEnd => cx.g1Tones.noMoreDnisAvailable
  | .ani => k.aniDigits.getD t.heard 0
  | .aniEnd => if k.withheld then cx.g1Tones.callerAniIsRestricted else cx.g1Tones.noMoreAniAvailable
  | .category | .groupTwo => k.category

/-- Who calls is asked for in Group C. -/
def InGroupC (t : Talk) : Prop :=
  cx.gaTones.requestCategory = 0 ∧ (t.word = .category ∨ t.word = .ani ∨ t.word = .aniEnd)

instance (t : Talk) : Decidable (t.InGroupC cx) := by unfold InGroupC; exact inferInstance

/-- The tone that asks for a word, after another. -/
def requestTone (t next : Talk) : Tone :=
  match next.word with
  | .dnis | .dnisEnd =>
    if t.InGroupC cx then cx.gcTones.requestNextDnisDigitAndChangeToGa else cx.gaTones.requestNextDnisDigit
  | .category => requestCategoryTone cx
  | .ani | .aniEnd =>
    if cx.gcTones.requestNextAniDigit ≠ 0 then cx.gcTones.requestNextAniDigit else cx.gaTones.requestNextAniDigit
  | .groupTwo => if t.InGroupC cx then cx.gcTones.requestChangeToG2 else cx.gaTones.requestChangeToG2

/-- What the called user has been told of the numbers. -/
def told (t : Talk) : List Event :=
  let dnis := (k.dnis.take t.taken).map .onDnisDigitReceived
  let ani := (k.aniDigits.take t.heard).map .onAniDigitReceived
  if cx.getAniFirst then dnis.take 1 ++ ani ++ dnis.drop 1 else dnis ++ ani

/-- The call as it is offered. -/
def offer (t : Talk) : Event :=
  .onCallOffered (k.aniDigits.take t.heard) (k.dnis.take t.taken)
    (tone2category cx (if t.named then k.category else Tone.invalid)) (t.ended && k.hidden cx)

end Talk

/-- All that is to be known. -/
def Dialled.whole (cx : R2Context) (k : Dialled) : Talk :=
  ⟨.groupTwo, k.taken cx, k.heard cx, !cx.skipCategory, k.ended cx⟩

/-- The call is offered, with all that is to be known, and nothing else was told. -/
structure Trunk.Offered (cx : R2Context) (k : Dialled) (s : Trunk) : Prop where
  callState : (s.party .right).callState = .offered
  callee : s.events .right = .onCallInit :: ((k.whole cx).told cx k ++ [(k.whole cx).offer cx k])
  caller : s.events .left = [.onCallProceed]

end OpenR2
