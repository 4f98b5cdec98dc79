import OpenR2.Machine

namespace OpenR2

def chanReadSize : Nat := 160
def dtmfMaxSilenceSamples : Nat := 4000

/-- What the detectors make of a buffer that was read: the tone that the MF detector
reports, if any; the strings with which the DTMF detector calls `on_dtmf_received`,
null or not; and whether its status says that there is a signal. -/
structure Heard where
  mfTone : Option Tone
  dtmfDigits : List (Option (List Tone))
  dtmfStatus : Bool
  deriving DecidableEq, Repr

/-- A channel with the field that only the detection of DTMF uses. -/
structure MediaChan where
  chan : R2Chan
  dtmfSilenceSamples : Nat

namespace MediaChan

def new : MediaChan := ⟨R2Chan.new, 0⟩

def on (f : R2Chan → R2Chan) (m : MediaChan) : MediaChan := { m with chan := f m.chan }

end MediaChan

section Media

variable (cx : R2Context) (env : Env)

/-- `OR2_CHAN_CALL_DNIS_CALLBACK` goes when the user wants no more digits. -/
def stopDnisCallback (c : R2Chan) : R2Chan := { c with callDnisCallback := false }

/-- The loop body of `on_dtmf_received`. Here nothing bounds the index into the DNIS. -/
def receiveDtmfDigit (digit : Tone) (c : R2Chan) : R2Chan :=
  let c := { c.did (.storeDnis c.dnisLen digit) with
    dnis := (c.dnis.set c.dnisLen digit).set (c.dnisLen + 1) 0
    dnisLen := c.dnisLen + 1 }
  let rc := env.onDnisDigitReceived c.out
  let c := callback cx env (.onDnisDigitReceived digit) c
  if rc then c else stopDnisCallback c

/-- The digits of one call of `on_dtmf_received`, which the user may have asked to ignore. -/
def receiveDtmfDigits (digits : List Tone) (c : R2Chan) : R2Chan :=
  if c.callDnisCallback then
    (cstr digits).foldl (fun c digit => receiveDtmfDigit cx env digit c) c
  else c

/-- `on_dtmf_received`. -/
def onDtmfReceived (digits : Option (List Tone)) (m : MediaChan) : MediaChan :=
  match digits with
  | none => m
  | some digits => ⟨receiveDtmfDigits cx env digits m.chan, 0⟩

/-- `openr2_proto_handle_dtmf_end`. There is no category to be had, so one is made up. -/
def handleDtmfEnd (c : R2Chan) : R2Chan :=
  let c := turnOffMfEngine cx c
  if c.direction = .forward then c.emit (.onCallAccepted .unknown)
  else offerCall cx env (c.setCallerCategory cx.g2Tones.nationalSubscriber)

/-- A buffer in which the DTMF detector found nothing. -/
def dtmfSilence (m : MediaChan) : MediaChan :=
  let m := { m with dtmfSilenceSamples := m.dtmfSilenceSamples + chanReadSize }
  if m.dtmfSilenceSamples = dtmfMaxSilenceSamples then m.on (handleDtmfEnd cx env) else m

/-- `openr2_chan_handle_media` while DTMF is to be detected. -/
def detectDtmf (h : Heard) (m : MediaChan) : MediaChan :=
  let m := h.dtmfDigits.foldl (fun m digits => onDtmfReceived cx env digits m) m
  if h.dtmfStatus then m else dtmfSilence cx env m

/-- `openr2_chan_handle_media`. -/
def handleRead (h : Heard) (m : MediaChan) : MediaChan :=
  if m.chan.mfState = .offState then m
  else if m.chan.detectingDtmf then detectDtmf cx env h m
  else match h.mfTone with
    | none => m
    | some tone => m.on (handleMfTone cx env tone)

/-- The write half of `openr2_chan_process`: `dtmf_tx` may have nothing more to send. -/
def handleWrite (sent : Bool) (c : R2Chan) : R2Chan :=
  if c.dialingDtmf ∧ sent then handleDtmfEnd cx env c else c

end Media

/-- What can happen to a channel, in MFC and in DTMF mode. -/
inductive MediaInput where
  | cas
  | read (h : Heard)
  | write (sent : Bool)
  | timer (id : Nat)
  | api (a : ApiCall)
  | alarm (on : Bool)
  deriving DecidableEq, Repr

/-- One input. -/
def mediaStep (cx : R2Context) (env : Env) (i : MediaInput) (m : MediaChan) : MediaChan :=
  match i with
  | .cas => m.on (step cx env .cas)
  | .read h => handleRead cx env h (m.on R2Chan.start)
  | .write sent => m.on fun c => handleWrite cx env sent c.start
  | .timer id => m.on (step cx env (.timer id))
  | .api a => m.on (step cx env (.api a))
  | .alarm on => m.on (step cx env (.alarm on))

structure MediaTick where
  env : Env
  input : MediaInput

def mediaTick (cx : R2Context) (m : MediaChan) (t : MediaTick) : MediaChan × List Act :=
  let n := mediaStep cx t.env t.input m
  (n, n.chan.out)

/-- The channel after a run, and all that was done. -/
def mediaRun (cx : R2Context) (ts : List MediaTick) (m : MediaChan) : MediaChan × List Act :=
  Runs.exec (mediaTick cx) ts m

end OpenR2
