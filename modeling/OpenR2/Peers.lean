import OpenR2.Lib.Link
import OpenR2.Machine

namespace OpenR2

open Link

/-- The pattern that an act puts on the line. -/
def Act.pattern? : Act → Option Nat
  | .setCas bits => some bits
  | _ => none

def Act.event? : Act → Option Event
  | .event e => some e
  | _ => none

def ApiCall.IsMakeCall : ApiCall → Prop
  | .makeCall .. => True
  | _ => False

/-- All goes well, and the line shows these bits. -/
structure Env.Shows (env : Env) (bits : Nat) : Prop where
  sound : env.Sound
  getCas : ∀ h, env.getCas h = some bits

theorem Env.fair_shows (bits : Nat) : (Env.fair bits).Shows bits := ⟨Env.fair_sound bits, fun _ => rfl⟩

/-- Two channels facing each other, each pattern that one sets on its way to the
other, and whether the user of each has disconnected. -/
structure Peers where
  net : Net R2Chan Nat Act
  cleared : Side → Bool

namespace Peers

variable (cx : R2Context)

/-- One input to one of the channels. -/
def input (i : Side) (t : Tick) (s : Peers) : Peers :=
  { s with net := s.net.act Act.pattern? i (tick cx (s.net.party i) t) }

/-- The next pattern arrives. -/
def hear (i : Side) (env : Env) (rest : List Nat) (s : Peers) : Peers :=
  input cx i ⟨env, .cas⟩ { s with net := s.net.take i rest }

def disconnect (i : Side) (env : Env) (cause : DisconnectCause) (s : Peers) : Peers :=
  let s := input cx i ⟨env, .api (.disconnectCall cause)⟩ s
  { s with cleared := Function.update s.cleared i true }

/-- The events of one side so far. -/
def events (i : Side) (s : Peers) : List Event := (s.net.did i).filterMap Act.event?

/-- Each pattern arrives in its turn, and each user disconnects once. -/
inductive TeardownStep : Peers → Peers → Prop where
  | hear (s : Peers) (i : Side) (env : Env) (bits : Nat) (rest : List Nat)
      (h : s.net.inbox i = bits :: rest) (he : env.Shows bits) : TeardownStep s (s.hear cx i env rest)
  | disconnect (s : Peers) (i : Side) (env : Env) (cause : DisconnectCause)
      (h : s.cleared i = false) (he : env.Sound) : TeardownStep s (s.disconnect cx i env cause)

/-- Two channels with nothing on its way between them. -/
def between (caller callee : R2Chan) : Peers where
  net :=
    { party := fun i => match i with
        | .left => caller
        | .right => callee
      inbox := fun _ => []
      did := fun _ => [] }
  cleared := fun _ => false

/-- What can happen while a call is set up. -/
inductive SetupMove where
  | hear (i : Side)
  | disconnect
  | answer
  deriving DecidableEq, Repr

/-- Each pattern arrives in its turn, the caller disconnects once, and the callee
answers what it has accepted. The caller is on the left. -/
inductive SetupStep : SetupMove → Peers → Peers → Prop where
  | hear (s : Peers) (i : Side) (env : Env) (bits : Nat) (rest : List Nat)
      (h : s.net.inbox i = bits :: rest) (he : env.Shows bits) :
      SetupStep (.hear i) s (s.hear cx i env rest)
  | disconnect (s : Peers) (env : Env) (cause : DisconnectCause)
      (h : s.cleared .left = false) (he : env.Sound) :
      SetupStep .disconnect s (s.disconnect cx .left env cause)
  | answer (s : Peers) (env : Env) (a : ApiCall)
      (ha : a = .answerCall ∨ a = .answerCallWithMode .simple)
      (h : (s.net.party .right).callState = .accepted) (he : env.Sound) :
      SetupStep .answer s (s.input cx .right ⟨env, .api a⟩)

/-- Each pattern arrives in its turn, each user disconnects once after it was told of
the glare, and the timers that clear the call expire. -/
inductive GlareStep : Peers → Peers → Prop where
  | hear (s : Peers) (i : Side) (env : Env) (bits : Nat) (rest : List Nat)
      (h : s.net.inbox i = bits :: rest) (he : env.Shows bits) : GlareStep s (s.hear cx i env rest)
  | disconnect (s : Peers) (i : Side) (env : Env) (cause : DisconnectCause)
      (h : s.cleared i = false) (hg : .onCallDisconnect .glare ∈ s.events i) (he : env.Sound) :
      GlareStep s (s.disconnect cx i env cause)
  | expire (s : Peers) (i : Side) (env : Env) (t : SchedTimer)
      (ht : t ∈ (s.net.party i).timers.schedTimers)
      (h : t.callback = .r2SeizePersistExpired ∨ t.callback = .r2SetCallDown) (he : env.Sound) :
      GlareStep s (s.input cx i ⟨env, .timer t.id⟩)

end Peers

end OpenR2
