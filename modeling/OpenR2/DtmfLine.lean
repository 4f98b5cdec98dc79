import OpenR2.Engine
import OpenR2.Media

namespace OpenR2

/-- A channel, and the detector behind its `dtmf_read_handle`. -/
structure Listener (β : Type) where
  media : MediaChan
  rx : List β × DtmfRx

/-- A channel, and the sender behind its `dtmf_write_handle`. -/
structure Dialler where
  media : MediaChan
  tx : DtmfTx

/-- Samples that are read, in the world of that moment. -/
structure ReadTick (β : Type) where
  env : Env
  samples : List β

/-- Room for samples that can be written. -/
structure WriteTick where
  env : Env
  bufSize : Nat

section Listening

variable {β : Type} (cx : R2Context) (classify : List β → Tone)

/-- The detection half of `openr2_chan_handle_media`, while the channel detects DTMF or nothing. -/
def listenTick (s : Listener β) (t : ReadTick β) : Listener β × List Act :=
  if s.media.chan.mfState = .offState ∨ s.media.chan.detectingDtmf = false then
    let n := mediaTick cx s.media ⟨t.env, .read ⟨none, [], false⟩⟩
    ({ s with media := n.1 }, n.2)
  else
    let r := dtmfRx classify t.samples s.rx
    let n := mediaTick cx s.media ⟨t.env, .read ⟨none, r.2.map some, dtmfRxStatus r.1.2 ≠ 0⟩⟩
    (⟨n.1, r.1⟩, n.2)

/-- The channel after these reads, and all that was done. -/
def listenRun (ts : List (ReadTick β)) (s : Listener β) : Listener β × List Act :=
  Runs.exec (listenTick cx classify) ts s

end Listening

section Dialling

variable {β : Type} (cx : R2Context) (sound : Waveform β)

/-- What a write does: samples for the line, or an act of the channel. -/
inductive Written (β : Type) where
  | samples (out : List β)
  | act (a : Act)
  deriving DecidableEq

/-- What goes to the line. -/
def Written.sent : Written β → List β
  | .samples out => out
  | .act _ => []

def Written.act? : Written β → Option Act
  | .samples _ => none
  | .act a => some a

/-- The writing half of `openr2_chan_process`, while the channel dials DTMF or nothing. A sender
that breaks down is none that returns. -/
def dialTick (s : Dialler) (t : WriteTick) : Dialler × List (Written β) :=
  if s.media.chan.dialingDtmf then
    match dtmfTx sound t.bufSize s.tx with
    | none => (s, [])
    | some (out, tx) =>
      let n := mediaTick cx s.media ⟨t.env, .write (out.length = 0)⟩
      (⟨n.1, tx⟩, .samples out :: n.2.map .act)
  else
    let n := mediaTick cx s.media ⟨t.env, .write false⟩
    ({ s with media := n.1 }, n.2.map .act)

/-- The channel after these writes, and all that was done. -/
def dialRun (ts : List WriteTick) (s : Dialler) : Dialler × List (Written β) :=
  Runs.exec (dialTick cx sound) ts s

end Dialling

end OpenR2
