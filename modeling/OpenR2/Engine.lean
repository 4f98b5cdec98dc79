import Mathlib.Data.Fin.VecNotation
import OpenR2.Channel
import OpenR2.Lib.Blocks
import OpenR2.Lib.TopTwo
import OpenR2.Queue

namespace OpenR2

def sampleRate : Nat := 8000

/-- Two frequencies in Hz, and their levels in dBm. -/
structure DualTone where
  f1 : Nat
  l1 : Int
  f2 : Nat
  l2 : Int
  deriving DecidableEq, Repr

/-- `openr2_tone_gen_descriptor_t`. -/
structure ToneGenDescriptor where
  tone : DualTone
  duration : Fin 4 → Nat
  repeats : Bool

/-- `make_tone_gen_descriptor`, with the durations in milliseconds. -/
def makeToneGenDescriptor (f1 : Nat) (l1 : Int) (f2 : Nat) (l2 : Int) (d1 d2 d3 d4 : Nat)
    (repeats : Bool) : ToneGenDescriptor where
  tone := ⟨f1, l1, f2, l2⟩
  duration i := ![d1, d2, d3, d4] i * sampleRate / 1000
  repeats := repeats

/-- `openr2_tone_gen_state_t`. There is no current section after the last. The phase counts the
samples since the start: every accumulator is so many times its rate. -/
structure ToneGen where
  tone : DualTone
  phase : Nat
  duration : Fin 4 → Nat
  repeats : Bool
  currentSection : Option (Fin 4)
  currentPosition : Nat

/-- `tone_gen_init`. -/
def toneGenInit (t : ToneGenDescriptor) : ToneGen := ⟨t.tone, 0, t.duration, t.repeats, some 0, 0⟩

section ToneGen

/-- The samples of a tone by their phase, and one without a tone. -/
structure Waveform (β : Type) where
  wave : DualTone → Nat → β
  silence : β

variable {β : Type} (sound : Waveform β)

namespace ToneGen

/-- Samples in the current section. Those of a silent one leave the phase. -/
def play (n : Nat) (i : Fin 4) (g : ToneGen) : List β × ToneGen :=
  if i.val % 2 = 1 then
    (List.replicate n sound.silence, { g with currentPosition := g.currentPosition + n })
  else
    ((List.range n).map fun k => sound.wave g.tone (g.phase + k),
      { g with phase := g.phase + n, currentPosition := g.currentPosition + n })

/-- The section after this one, if it has come to its end. One that takes no time ends a round. -/
def turn (i : Fin 4) (g : ToneGen) : ToneGen :=
  if g.currentPosition < g.duration i then g
  else
    let g := { g with currentPosition := 0 }
    if h : i.val + 1 < 4 then
      if g.duration ⟨i.val + 1, h⟩ ≠ 0 then { g with currentSection := some ⟨i.val + 1, h⟩ }
      else { g with currentSection := if g.repeats then some 0 else none }
    else { g with currentSection := if g.repeats then some 0 else none }

end ToneGen

/-- The loop of `tone_gen`, which ends where no section is left. It does not where a tone that is
repeated takes no time. -/
def toneGenLoop : Nat → Nat → ToneGen → Option (List β × ToneGen)
  | _, 0, g => some ([], g)
  | 0, _ + 1, _ => none
  | fuel + 1, room + 1, g =>
    match g.currentSection with
    | none => some ([], g)
    | some i =>
      let n := min (g.duration i - g.currentPosition) (room + 1)
      let p := g.play sound n i
      (toneGenLoop fuel (room + 1 - n) (p.2.turn i)).map fun r => (p.1 ++ r.1, r.2)

/-- `tone_gen`. Each round but one takes a sample. -/
def toneGen (maxSamples : Nat) (g : ToneGen) : Option (List β × ToneGen) :=
  toneGenLoop sound (maxSamples + 2) maxSamples g

/-- The bytes of a literal. -/
def chars (s : String) : List Tone := s.toList.map Char.toNat

/-- `strchr`, of which the source looks at the place only. -/
def strchr (s : List Tone) (c : Tone) : Option Nat :=
  if s.idxOf c < s.length then some (s.idxOf c) else none

end ToneGen

section DtmfTx

variable {β : Type} (sound : Waveform β)

def dtmfRow : List Nat := [697, 770, 852, 941]
def dtmfCol : List Nat := [1209, 1336, 1477, 1633]

/-- `dtmf_positions`. -/
def dtmfPositions : List Tone := chars "123A456B789C*0#D"

def maxDtmfDigits : Nat := 128
def defaultDtmfTxLevel : Int := -10
def defaultDtmfTxOnTime : Nat := 50
def defaultDtmfTxOffTime : Nat := 55

/-- `dtmf_digit_tones`. -/
def dtmfDigitTones (i : Nat) : ToneGenDescriptor :=
  makeToneGenDescriptor (dtmfRow.getD (i / 4) 0) defaultDtmfTxLevel (dtmfCol.getD (i % 4) 0)
    defaultDtmfTxLevel defaultDtmfTxOnTime defaultDtmfTxOffTime 0 0 false

/-- `openr2_dtmf_tx_state_t`. -/
structure DtmfTx where
  tones : ToneGen
  lowLevel : Int
  highLevel : Int
  onTime : Nat
  offTime : Nat
  queue : QueueState

namespace DtmfTx

def setQueue (q : QueueState) (s : DtmfTx) : DtmfTx := { s with queue := q }

end DtmfTx

/-- `openr2_dtmf_tx_set_level`. -/
def dtmfTxSetLevel (level twist : Int) (s : DtmfTx) : DtmfTx :=
  { s with lowLevel := level, highLevel := level + twist }

/-- `openr2_dtmf_tx_set_timing`, in milliseconds. Beyond 268435 of them the product is no `int`,
of which C says nothing. -/
def dtmfTxSetTiming (onTime offTime : Int) (s : DtmfTx) : DtmfTx :=
  { s with
    onTime := (if onTime ≥ 0 then onTime.toNat else defaultDtmfTxOnTime) * sampleRate / 1000
    offTime := (if offTime ≥ 0 then offTime.toNat else defaultDtmfTxOffTime) * sampleRate / 1000 }

/-- `openr2_dtmf_tx_init`, on a queue whose buffer holds anything. -/
def dtmfTxInit (data : Nat → UInt8) : DtmfTx :=
  dtmfTxSetTiming (-1) (-1) (dtmfTxSetLevel defaultDtmfTxLevel 0
    { tones := { toneGenInit (dtmfDigitTones 0) with currentSection := none }
      lowLevel := 0
      highLevel := 0
      onTime := 0
      offTime := 0
      queue := queueInit maxDtmfDigits true true data })

/-- `openr2_dtmf_tx_put`, of a C string where no length is given. Nothing is put where not all
digits fit. -/
def dtmfTxPut (digits : List Tone) (len : Int) (s : DtmfTx) : Option (Int × DtmfTx) :=
  let bytes := (if len < 0 then cstr digits else digits.take len.toNat).map UInt8.ofNat
  if len < 0 ∧ bytes.length = 0 then some (0, s)
  else if queueFreeSpace s.queue < bytes.length then some (bytes.length - queueFreeSpace s.queue, s)
  else
    (queueWrite bytes s.queue).map fun r => (if r.1.ret ≥ 0 then 0 else -1, s.setQueue r.2)

/-- The part of `openr2_proto_make_call` that fills the DTMF sender. -/
def dtmfDial (data : Nat → UInt8) (onTime offTime : Int) (digits : List Tone) : Option (Int × DtmfTx) :=
  dtmfTxPut digits (-1) (dtmfTxSetTiming onTime offTime (dtmfTxInit data))

/-- The generator for a digit, which has a tone unless it is no digit of DTMF. -/
def dtmfTxDigit (digit : Tone) (s : DtmfTx) : Option ToneGen :=
  if digit = 0 then none
  else
    (strchr dtmfPositions digit).map fun i =>
      let t := dtmfDigitTones i
      { toneGenInit t with
        tone := { t.tone with l1 := s.lowLevel, l2 := s.highLevel }
        duration := ![s.onTime, s.offTime, t.duration 2, t.duration 3] }

/-- The loop of `openr2_dtmf_tx`, which takes one digit out of the queue in each round. -/
def dtmfTxLoop : Nat → Nat → DtmfTx → Option (List β × DtmfTx)
  | 0, _, _ => none
  | fuel + 1, room, s =>
    if room = 0 then some ([], s)
    else do
      let (r, q) ← queueReadByte s.queue
      let s := s.setQueue q
      if r.ret < 0 then some ([], s)
      else
        match dtmfTxDigit r.ret.toNat s with
        | none => dtmfTxLoop fuel room s
        | some g => do
          let (out, g) ← toneGen sound room g
          let (rest, s) ← dtmfTxLoop fuel (room - out.length) { s with tones := g }
          some (out ++ rest, s)

/-- `openr2_dtmf_tx`, after the fragment that was left over from last time. -/
def dtmfTx (maxSamples : Nat) (s : DtmfTx) : Option (List β × DtmfTx) := do
  let (out, g) ← toneGen sound maxSamples s.tones
  let fuel := (queueContents s.queue).toNat + 1
  let (rest, s) ← dtmfTxLoop sound fuel (maxSamples - out.length) { s with tones := g }
  some (out ++ rest, s)

/-- A buffer to fill. The output is what it is filled with. -/
def dtmfTxTick (s : DtmfTx) (maxSamples : Nat) : DtmfTx × List (Option (List β)) :=
  match dtmfTx sound maxSamples s with
  | none => (s, [none])
  | some (out, s) => (s, [some out])

end DtmfTx

section DtmfRx

variable {γ : Type} (classify : List γ → Tone)

/-- The digits of `openr2_dtmf_rx_state_t`, of which `digits_callback` may be told. -/
structure DtmfRx where
  callback : Bool
  inDigit : Tone
  lastHit : Tone
  lostDigits : Nat
  digits : List Tone
  deriving DecidableEq, Repr

/-- `openr2_dtmf_rx_init`. -/
def dtmfRxInit (callback : Bool) : DtmfRx := ⟨callback, 0, 0, 0, []⟩

namespace DtmfRx

def setHits (inDigit lastHit : Tone) (s : DtmfRx) : DtmfRx := { s with inDigit := inDigit, lastHit := lastHit }

/-- A digit is on. -/
def report (hit : Tone) (s : DtmfRx) : DtmfRx × List (List Tone) :=
  if s.digits.length < maxDtmfDigits then
    if s.callback then ({ s with digits := [] }, [s.digits ++ [hit]])
    else ({ s with digits := s.digits ++ [hit] }, [])
  else ({ s with lostDigits := s.lostDigits + 1 }, [])

end DtmfRx

/-- The end of a detection block, in which there was this digit or none. -/
def dtmfHit (s : DtmfRx) (hit : Tone) : DtmfRx × List (List Tone) :=
  if hit = s.inDigit ∨ s.lastHit = s.inDigit then (s.setHits s.inDigit hit, [])
  else
    -- two blocks in a row say that something has changed
    let hit := if hit ≠ 0 ∧ hit = s.lastHit then hit else 0
    let r := if hit ≠ 0 then s.report hit else (s, [])
    (r.1.setHits hit hit, r.2)

def dtmfSamplesPerBlock : Nat := 102

/-- `openr2_dtmf_rx`, with the samples of the block that is not complete. What a block sounds like
is for the filters to say. -/
def dtmfRx (samples : List γ) (s : List γ × DtmfRx) : (List γ × DtmfRx) × List (List Tone) :=
  let r := Blocks.feed dtmfSamplesPerBlock (fun s block => dtmfHit s (classify block)) samples.length samples s
  let d := r.1.2
  if d.digits ≠ [] ∧ d.callback then ((r.1.1, { d with digits := [] }), r.2 ++ [d.digits]) else r

/-- `openr2_dtmf_rx_status`. -/
def dtmfRxStatus (s : DtmfRx) : Tone :=
  if s.inDigit ≠ 0 then s.inDigit else if s.lastHit ≠ 0 then 'x'.toNat else 0

end DtmfRx

section MfTx

variable {β : Type} (sound : Waveform β)

/-- `r2_mf_fwd_tones` and `r2_mf_back_tones`, of which all rows have the same levels and times. -/
def r2MfFwdTones : List (Nat × Nat) :=
  [(1380, 1500), (1380, 1620), (1500, 1620), (1380, 1740), (1500, 1740), (1620, 1740), (1380, 1860),
    (1500, 1860), (1620, 1860), (1740, 1860), (1380, 1980), (1500, 1980), (1620, 1980), (1740, 1980),
    (1860, 1980)]

def r2MfBackTones : List (Nat × Nat) :=
  [(1140, 1020), (1140, 900), (1020, 900), (1140, 780), (1020, 780), (900, 780), (1140, 660),
    (1020, 660), (900, 660), (780, 660), (1140, 540), (1020, 540), (900, 540), (780, 540), (660, 540)]

/-- `r2_mf_tone_codes`. -/
def r2MfToneCodes : List Tone := chars "1234567890BCDEF"

/-- `r2_mf_fwd_digit_tones` and `r2_mf_back_digit_tones`. No silence follows, so they are repeated. -/
def r2MfDigitTones (fwd : Bool) (i : Nat) : ToneGenDescriptor :=
  let t := (if fwd then r2MfFwdTones else r2MfBackTones).getD i (0, 0)
  makeToneGenDescriptor t.1 (-11) t.2 (-11) 1 0 0 0 true

/-- `openr2_mf_tx_state_t`. There is a generator once there was a digit. -/
structure MfTx where
  tone : Option ToneGen
  fwd : Bool
  digit : Tone

/-- `openr2_mf_tx_init`. -/
def mfTxInit (fwd : Bool) : MfTx := ⟨none, fwd, 0⟩

/-- `openr2_mf_tx_put`. -/
def mfTxPut (digit : Tone) (s : MfTx) : MfTx :=
  match if digit = 0 then none else strchr r2MfToneCodes digit with
  | some i => { s with tone := some (toneGenInit (r2MfDigitTones s.fwd i)), digit := digit }
  | none => { s with digit := 0 }

/-- `openr2_mf_tx`. -/
def mfTx (samples : Nat) (s : MfTx) : Option (List β × MfTx) :=
  if s.digit = 0 then some (List.replicate samples sound.silence, s)
  else do
    let g ← s.tone
    let (out, g) ← toneGen sound samples g
    some (out, { s with tone := some g })

/-- A buffer to fill. The output is what it is filled with. -/
def mfTxTick (s : MfTx) (samples : Nat) : MfTx × List (Option (List β)) :=
  match mfTx sound samples s with
  | none => (s, [none])
  | some (out, s) => (s, [some out])

end MfTx

section MfRx

/-- `r2_mf_fwd_frequencies` and `r2_mf_back_frequencies`. -/
def r2MfFwdFrequencies : List Nat := [1380, 1500, 1620, 1740, 1860, 1980]
def r2MfBackFrequencies : List Nat := [1140, 1020, 900, 780, 660, 540]

/-- `r2_mf_positions`. -/
def r2MfPositions : List Tone := chars "1247B-358C--69D---0E----F"

def r2MfSamplesPerBlock : Nat := 133

/-- The tests of `openr2_mf_rx` on energies: one is over the threshold; one is below the twist from
another; one has its peak near another. -/
structure MfTests (E : Type) where
  loud : E → Bool
  twist : E → E → Bool
  peak : E → E → Bool

variable {E γ : Type} [LinearOrder E] (tests : MfTests E) (energy : Bool → List γ → Fin 6 → E)

/-- The two highest energies. -/
def mfBest (e : Fin 6 → E) : Fin 6 × Fin 6 :=
  [2, 3, 4, 5].foldl (TopTwo.step e) (if e 0 > e 1 then (0, 1) else (1, 0))

/-- Whether the two highest are a hit. -/
def mfIsHit (e : Fin 6 → E) (b : Fin 6 × Fin 6) : Bool :=
  tests.loud (e b.1) && tests.loud (e b.2) && tests.twist (e b.1) (e b.2) && tests.twist (e b.2) (e b.1) &&
    (List.finRange 6).all fun i => i = b.1 || i = b.2 || !tests.peak (e i) (e b.2)

/-- The digit of a block. -/
def mfHitDigit (e : Fin 6 → E) : Tone :=
  let b := mfBest e
  if mfIsHit tests e b then
    let lo := min b.1.val b.2.val
    let hi := max b.1.val b.2.val
    r2MfPositions.getD (lo * 5 + hi - 1) 0
  else 0

/-- `openr2_mf_rx_state_t`, but for the filters. -/
structure MfRx where
  fwd : Bool
  currentDigit : Tone

/-- `openr2_mf_rx_init`. -/
def mfRxInit (fwd : Bool) : MfRx := ⟨fwd, 0⟩

/-- The end of a detection block. -/
def mfHit (s : MfRx) (block : List γ) : MfRx × List Tone :=
  let digit := mfHitDigit tests (energy s.fwd block)
  ({ s with currentDigit := digit }, [digit])

/-- `openr2_mf_rx`, with the samples of the block that is not complete. Of several blocks the last
one counts, and without one there is no digit. -/
def mfRx (samples : List γ) (s : List γ × MfRx) : (List γ × MfRx) × Tone :=
  let r := Blocks.feed r2MfSamplesPerBlock (mfHit tests energy) samples.length samples s
  (r.1, r.2.getLastD 0)

/-- A part to look at. The output is the digit that is found. -/
def mfRxTick (s : List γ × MfRx) (samples : List γ) : (List γ × MfRx) × List Tone :=
  let r := mfRx tests energy samples s
  (r.1, [r.2])

end MfRx

end OpenR2
