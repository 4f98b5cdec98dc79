import OpenR2.Engine
import OpenR2.Proofs.Queue

namespace OpenR2

variable {β : Type} (sound : Waveform β)

/-- What a digit sounds like: its tone, and silence. -/
def digitSignal (t : DualTone) (on off : Nat) : List β :=
  (List.range on).map (sound.wave t) ++ List.replicate off sound.silence

@[simp] theorem length_digitSignal {t : DualTone} {on off : Nat} :
    (digitSignal sound t on off).length = on + off := by simp [digitSignal]

theorem digitSignal_tone {t : DualTone} {on off n m : Nat} (h : n + m ≤ on) :
    ((digitSignal sound t on off).drop n).take m = (List.range m).map fun k => sound.wave t (n + k) := by
  rw [digitSignal, List.drop_append_of_le_length (by simp; omega),
    List.take_append_of_le_length (by simp; omega), ← List.map_drop, ← List.map_take]
  apply List.ext_getElem
  · simp
    omega
  · intro i _ _
    simp

theorem digitSignal_silence {t : DualTone} {on off n m : Nat} (h : n + m ≤ off) :
    ((digitSignal sound t on off).drop (on + n)).take m = List.replicate m sound.silence := by
  have hl : ((List.range on).map (sound.wave t)).length = on := by simp
  rw [digitSignal, List.drop_append, List.drop_of_length_le (by omega), List.nil_append, hl,
    Nat.add_sub_cancel_left, List.drop_replicate, List.take_replicate, Nat.min_eq_left (by omega)]

namespace ToneGen

/-- A generator that plays a digit once. -/
structure Plays (t : DualTone) (on off : Nat) (g : ToneGen) : Prop where
  tone : g.tone = t
  duration : g.duration = ![on, off, 0, 0]
  repeats : g.repeats = false

/-- How many samples it has made. -/
def Made (on off n : Nat) (g : ToneGen) : Prop :=
  match g.currentSection with
  | none => n = on + off
  | some i => (i.val = 0 ∧ g.phase = n ∧ g.currentPosition = n ∧ n ≤ on) ∨
    (i.val = 1 ∧ n = on + g.currentPosition ∧ g.currentPosition ≤ off)

/-- Sections that are not over. -/
def left (g : ToneGen) : Nat :=
  match g.currentSection with
  | none => 0
  | some i => 2 - i.val

section Rounds

variable {sound} {t : DualTone} {on off n m : Nat} {g : ToneGen}

theorem Plays.turn_tone (h : g.Plays t on off) : g.turn 0 =
    if g.currentPosition < on then g
    else { g with currentPosition := 0, currentSection := if off = 0 then none else some 1 } := by
  rw [turn, h.duration]
  by_cases hoff : off = 0
  · simp [h.repeats, hoff]
  · simp [hoff]

theorem Plays.turn_silence (h : g.Plays t on off) : g.turn 1 =
    if g.currentPosition < off then g else { g with currentPosition := 0, currentSection := none } := by
  rw [turn, h.duration]
  simp [h.repeats]

/-- A round in the first section. -/
theorem Plays.tone_round (h : g.Plays t on off) (hs : g.currentSection = some 0) (hp : g.phase = n)
    (hc : g.currentPosition = n) (hm : n + m ≤ on) (hend : n + m = on ∨ 0 < m) :
    let p := g.play sound m 0
    p.1 = ((digitSignal sound t on off).drop n).take m ∧ (p.2.turn 0).Plays t on off ∧
      (p.2.turn 0).Made on off (n + m) ∧ (p.2.turn 0).left ≤ 2 ∧ (m = 0 → (p.2.turn 0).left ≤ 1) := by
  have hplay : g.play sound m 0 = ((List.range m).map fun k => sound.wave t (n + k),
      { g with phase := n + m, currentPosition := n + m }) := by
    rw [play, if_neg (by decide), h.tone, hp, hc]
  have hg : ({ g with phase := n + m, currentPosition := n + m } : ToneGen).Plays t on off :=
    ⟨h.tone, h.duration, h.repeats⟩
  intro p
  have hpe : p = _ := hplay
  rw [hpe, hg.turn_tone, digitSignal_tone sound hm]
  dsimp only
  refine ⟨rfl, ?_⟩
  split_ifs with hlt hoff
  · refine ⟨hg, ?_, ?_, fun h0 => by omega⟩
    · simp [Made, hs, hm]
    · simp [left, hs]
  · refine ⟨⟨h.tone, h.duration, h.repeats⟩, ?_, by simp [left], by simp [left]⟩
    simp only [Made]
    omega
  · refine ⟨⟨h.tone, h.duration, h.repeats⟩, ?_, by simp [left], by simp [left]⟩
    simp only [Made, Nat.add_zero, Nat.zero_le, and_true, true_and]
    exact .inr (by omega)

/-- A round in the second. -/
theorem Plays.silence_round (h : g.Plays t on off) (hs : g.currentSection = some 1)
    (hn : n = on + g.currentPosition) (hm : g.currentPosition + m ≤ off)
    (hend : g.currentPosition + m = off ∨ 0 < m) :
    let p := g.play sound m 1
    p.1 = ((digitSignal sound t on off).drop n).take m ∧ (p.2.turn 1).Plays t on off ∧
      (p.2.turn 1).Made on off (n + m) ∧ (p.2.turn 1).left ≤ 1 ∧ (m = 0 → (p.2.turn 1).left ≤ 0) := by
  have hplay : g.play sound m 1 = (List.replicate m sound.silence,
      { g with currentPosition := g.currentPosition + m }) := by
    rw [play, if_pos (by decide)]
  have hg : ({ g with currentPosition := g.currentPosition + m } : ToneGen).Plays t on off :=
    ⟨h.tone, h.duration, h.repeats⟩
  intro p
  have hpe : p = _ := hplay
  rw [hpe, hg.turn_silence, hn, digitSignal_silence sound hm]
  dsimp only
  refine ⟨rfl, ?_⟩
  split_ifs with hlt
  · refine ⟨hg, ?_, ?_, fun h0 => by omega⟩
    · simp [Made, hs, hm, Nat.add_assoc]
    · simp [left, hs]
  · refine ⟨⟨h.tone, h.duration, h.repeats⟩, ?_, by simp [left], by simp [left]⟩
    simp only [Made]
    omega

theorem Made.le (h : g.Made on off n) : n ≤ on + off := by
  rw [Made] at h
  cases hs : g.currentSection with
  | none =>
    rw [hs] at h
    exact Nat.le_of_eq h
  | some i =>
    rw [hs] at h
    dsimp only at h
    omega

/-- Any round. It makes a sample or ends a section. -/
theorem Plays.round {i : Fin 4} {room : Nat} (h : g.Plays t on off) (hn : g.Made on off n)
    (hs : g.currentSection = some i) (h0 : 0 < room) :
    let m := min (g.duration i - g.currentPosition) room
    let p := g.play sound m i
    p.1 = ((digitSignal sound t on off).drop n).take m ∧ (p.2.turn i).Plays t on off ∧
      (p.2.turn i).Made on off (n + m) ∧ room - m + (p.2.turn i).left < room + g.left := by
  rw [Made, hs] at hn
  have hleft : g.left = 2 - i.val := by rw [left, hs]
  intro m
  obtain ⟨hi, hph, hpos, hle⟩ | ⟨hi, hn, hle⟩ := hn
  · obtain rfl : i = 0 := Fin.ext hi
    have hm : m = min (on - g.currentPosition) room := by
      rw [show m = min (g.duration 0 - g.currentPosition) room from rfl, h.duration]
      rfl
    obtain ⟨ho, hp, hmade, hl, hz⟩ := @Plays.tone_round _ sound _ _ _ _ m _ h hs hph hpos (by omega) (by omega)
    refine ⟨ho, hp, hmade, ?_⟩
    rw [hleft]
    change room - m + _ < room + (2 - 0)
    omega
  · obtain rfl : i = 1 := Fin.ext hi
    have hm : m = min (off - g.currentPosition) room := by
      rw [show m = min (g.duration 1 - g.currentPosition) room from rfl, h.duration]
      rfl
    obtain ⟨ho, hp, hmade, hl, hz⟩ := @Plays.silence_round _ sound _ _ _ _ m _ h hs hn (by omega) (by omega)
    refine ⟨ho, hp, hmade, ?_⟩
    rw [hleft]
    change room - m + _ < room + (2 - 1)
    omega

/-- What is made of a digit is what comes next of it. -/
theorem Plays.loop {fuel room : Nat} (h : g.Plays t on off) (hn : g.Made on off n)
    (hf : room + g.left ≤ fuel) :
    ∃ g', toneGenLoop sound fuel room g = some (((digitSignal sound t on off).drop n).take room, g') ∧
      g'.Plays t on off ∧ g'.Made on off (min (n + room) (on + off)) := by
  induction fuel generalizing room g n with
  | zero =>
    obtain rfl : room = 0 := by omega
    refine ⟨g, by simp [toneGenLoop], h, ?_⟩
    rwa [Nat.add_zero, Nat.min_eq_left hn.le]
  | succ fuel ih =>
    cases room with
    | zero =>
      refine ⟨g, by simp [toneGenLoop], h, ?_⟩
      rwa [Nat.add_zero, Nat.min_eq_left hn.le]
    | succ room =>
      cases hs : g.currentSection with
      | none =>
        have hall : n = on + off := by rwa [Made, hs] at hn
        refine ⟨g, ?_, h, ?_⟩
        · rw [toneGenLoop, hs, hall, List.drop_of_length_le (by simp), List.take_nil]
        · rw [Nat.min_eq_right (by omega), ← hall]
          exact hn
      | some i =>
        have hr := @Plays.round _ sound _ _ _ _ _ _ _ h hn hs (Nat.succ_pos room)
        generalize hm : min (g.duration i - g.currentPosition) (room + 1) = m at hr
        obtain ⟨ho, hp, hmade, hlt⟩ := hr
        have hmr : m ≤ room + 1 := hm ▸ Nat.min_le_right _ _
        obtain ⟨g', hg', hp', hm'⟩ := ih hp hmade (show room + 1 - m + _ ≤ fuel by omega)
        refine ⟨g', ?_, hp', ?_⟩
        · rw [toneGenLoop, hs]
          dsimp only
          have htake : ((digitSignal sound t on off).drop n).take (room + 1) =
              ((digitSignal sound t on off).drop n).take m ++
                ((digitSignal sound t on off).drop (n + m)).take (room + 1 - m) := by
            rw [← List.drop_drop, ← List.take_add, Nat.add_sub_cancel' hmr]
          rw [hm, hg', ho, Option.map_some, htake]
        · rwa [Nat.add_assoc, Nat.add_sub_cancel' hmr] at hm'

/-- What `tone_gen` makes of a digit. -/
theorem Plays.toneGen {room : Nat} (h : g.Plays t on off) (hn : g.Made on off n) :
    ∃ g', toneGen sound room g = some (((digitSignal sound t on off).drop n).take room, g') ∧
      g'.Plays t on off ∧ g'.Made on off (min (n + room) (on + off)) := by
  have hl : g.left ≤ 2 := by
    rw [left]
    split <;> omega
  exact h.loop hn (by omega)

end Rounds

section Repeats

variable {sound} {t : DualTone} {d n : Nat} {g : ToneGen}

/-- A generator that plays one tone for ever. -/
structure Hums (t : DualTone) (d n : Nat) (g : ToneGen) : Prop where
  tone : g.tone = t
  duration : g.duration = ![d, 0, 0, 0]
  repeats : g.repeats = true
  current : g.currentSection = some 0
  phase : g.phase = n
  position : g.currentPosition < d

/-- The rounds join without a gap. -/
theorem Hums.loop {fuel room : Nat} (h : g.Hums t d n) (hf : room ≤ fuel) :
    ∃ g', toneGenLoop sound fuel room g = some ((List.range room).map fun k => sound.wave t (n + k), g') ∧
      g'.Hums t d (n + room) := by
  induction fuel generalizing room g n with
  | zero =>
    obtain rfl : room = 0 := by omega
    exact ⟨g, by simp [toneGenLoop], h⟩
  | succ fuel ih =>
    cases room with
    | zero => exact ⟨g, by simp [toneGenLoop], h⟩
    | succ room =>
      obtain ⟨ht, hd, hr, hs, hp, hc⟩ := h
      have hd0 : g.duration 0 = d := by rw [hd]; rfl
      have hd1 : g.duration 1 = 0 := by rw [hd]; rfl
      generalize hm : min (g.duration 0 - g.currentPosition) (room + 1) = m
      have hplay : g.play sound m 0 = ((List.range m).map fun k => sound.wave t (n + k),
          { g with phase := n + m, currentPosition := g.currentPosition + m }) := by
        rw [play, if_neg (by decide), ht, hp]
      have hnext : ((g.play sound m 0).2.turn 0).Hums t d (n + m) := by
        rw [hplay, turn]
        dsimp only
        by_cases hlt : g.currentPosition + m < g.duration 0
        · rw [if_pos hlt]
          exact ⟨ht, hd, hr, hs, rfl, hd0 ▸ hlt⟩
        · rw [if_neg hlt, dif_pos (by decide), if_neg (by simpa using hd1), if_pos hr]
          exact ⟨ht, hd, hr, rfl, rfl, Nat.zero_lt_of_lt hc⟩
      obtain ⟨g', hg', hh⟩ := ih hnext (show room + 1 - m ≤ fuel by omega)
      refine ⟨g', ?_, ?_⟩
      · rw [toneGenLoop, hs]
        dsimp only
        rw [hm, hg', hplay, Option.map_some]
        have hsplit : room + 1 = m + (room + 1 - m) := by omega
        conv_rhs => rw [hsplit, List.range_add, List.map_append, List.map_map]
        simp only [Function.comp_def, Nat.add_assoc]
      · rwa [Nat.add_assoc, show m + (room + 1 - m) = room + 1 by omega] at hh

end Repeats

end ToneGen

/-- What is left of the room after a first part. -/
theorem take_then {α : Type} {xs ys : List α} {n : Nat} :
    (xs ++ ys).take n = xs.take n ++ ys.take (n - (xs.take n).length) := by
  have hn : n - (xs.take n).length = n - xs.length := by
    rw [List.length_take]
    omega
  rw [List.take_append, hn]

theorem drop_then {α : Type} {xs ys : List α} {n : Nat} :
    (xs.drop n ++ ys).drop (n - (xs.take n).length) = (xs ++ ys).drop n := by
  rw [List.length_take]
  by_cases hn : n ≤ xs.length
  · rw [Nat.min_eq_left hn, Nat.sub_self, List.drop_zero, List.drop_append_of_le_length hn]
  · have hx : xs.drop n = [] := List.drop_of_length_le (by omega)
    rw [Nat.min_eq_right (by omega), hx, List.nil_append, List.drop_append, hx, List.nil_append]

section Dtmf

variable {sound}

/-- What is heard of a byte in the queue. -/
def DtmfTx.signal (sound : Waveform β) (s : DtmfTx) (byte : UInt8) : List β :=
  match dtmfTxDigit byte.toNat s with
  | none => []
  | some g => digitSignal sound g.tone s.onTime s.offTime

/-- The sender has these samples of a digit left, and these bytes. -/
structure DtmfTx.Holds (sound : Waveform β) (s : DtmfTx) (fragment : List β) (bytes : List UInt8) : Prop where
  tones : ∃ t on off n, s.tones.Plays t on off ∧ s.tones.Made on off n ∧
    fragment = (digitSignal sound t on off).drop n
  queue : s.queue.Models ⟨maxDtmfDigits, true, true, bytes⟩
  inside : s.queue.Inside

/-- Its settings are the same. -/
structure DtmfTx.Alike (s s' : DtmfTx) : Prop where
  lowLevel : s'.lowLevel = s.lowLevel
  highLevel : s'.highLevel = s.highLevel
  onTime : s'.onTime = s.onTime
  offTime : s'.offTime = s.offTime

theorem DtmfTx.Alike.signal {s s' : DtmfTx} (h : s.Alike s') : s'.signal sound = s.signal sound := by
  obtain ⟨hl, hh, hon, hoff⟩ := h
  funext byte
  rw [DtmfTx.signal, DtmfTx.signal, dtmfTxDigit, dtmfTxDigit, hl, hh, hon, hoff]

theorem dtmfTxDigit_plays {s : DtmfTx} {digit : Tone} {g : ToneGen} (h : dtmfTxDigit digit s = some g) :
    g.Plays g.tone s.onTime s.offTime ∧ g.Made s.onTime s.offTime 0 := by
  rw [dtmfTxDigit] at h
  split_ifs at h
  cases hi : strchr dtmfPositions digit with
  | none => simp [hi] at h
  | some i =>
    rw [hi, Option.map_some, Option.some.injEq] at h
    subst h
    refine ⟨⟨rfl, ?_, rfl⟩, ?_⟩
    · rfl
    · simp [ToneGen.Made, toneGenInit]

/-- One byte less in the queue. -/
theorem DtmfTx.Holds.readByte {s : DtmfTx} {fragment : List β} {byte : UInt8} {bytes : List UInt8}
    (h : s.Holds sound fragment (byte :: bytes)) :
    ∃ q, queueReadByte s.queue = some (⟨byte.toNat, [byte]⟩, q) ∧ (s.setQueue q).Holds sound fragment bytes := by
  obtain ⟨q, hq, hm, hi⟩ := h.queue.readByte h.inside
  exact ⟨q, hq, h.tones, hm, hi⟩

theorem DtmfTx.Holds.readByte_nil {s : DtmfTx} {fragment : List β} (h : s.Holds sound fragment []) :
    ∃ q, queueReadByte s.queue = some (⟨-1, []⟩, q) ∧ (s.setQueue q).Holds sound fragment [] := by
  obtain ⟨q, hq, hm, hi⟩ := h.queue.readByte h.inside
  exact ⟨q, hq, h.tones, hm, hi⟩

section Round

variable {s : DtmfTx} {q : QueueState} {byte : UInt8} {fuel room : Nat} {g g' : ToneGen} {out : List β}

theorem dtmfTxLoop_skip (h0 : room ≠ 0) (hq : queueReadByte s.queue = some (⟨byte.toNat, [byte]⟩, q))
    (hd : dtmfTxDigit byte.toNat s = none) :
    dtmfTxLoop sound (fuel + 1) room s = dtmfTxLoop sound fuel room (s.setQueue q) := by
  have hd' : dtmfTxDigit byte.toNat (s.setQueue q) = none := hd
  rw [dtmfTxLoop, if_neg h0, hq]
  simp [hd']

theorem dtmfTxLoop_digit (h0 : room ≠ 0) (hq : queueReadByte s.queue = some (⟨byte.toNat, [byte]⟩, q))
    (hd : dtmfTxDigit byte.toNat s = some g) (hg : toneGen sound room g = some (out, g')) :
    dtmfTxLoop sound (fuel + 1) room s =
      (dtmfTxLoop sound fuel (room - out.length) { s.setQueue q with tones := g' }).map
        fun r => (out ++ r.1, r.2) := by
  have hd' : dtmfTxDigit byte.toNat (s.setQueue q) = some g := hd
  rw [dtmfTxLoop, if_neg h0, hq]
  simp only [Option.bind_eq_bind, Option.bind_some]
  rw [if_neg (by simp), Int.toNat_natCast, hd']
  simp only [hg, Option.bind_some]
  cases dtmfTxLoop sound fuel (room - out.length) { s.setQueue q with tones := g' } <;> rfl

end Round

/-- The digits come out of the queue one after the other while there is room. -/
theorem DtmfTx.Holds.loop {s : DtmfTx} {fragment : List β} {bytes : List UInt8} {fuel room : Nat}
    (h : s.Holds sound fragment bytes) (hr : room = 0 ∨ fragment = []) (hf : bytes.length < fuel) :
    ∃ s' fragment' bytes', dtmfTxLoop sound fuel room s = some ((bytes.flatMap (s.signal sound)).take room, s') ∧
      s'.Holds sound fragment' bytes' ∧ s.Alike s' ∧
        fragment' ++ bytes'.flatMap (s.signal sound) = (fragment ++ bytes.flatMap (s.signal sound)).drop room := by
  obtain ⟨fuel, rfl⟩ := Nat.exists_eq_add_of_lt (Nat.zero_lt_of_lt hf)
  rw [Nat.zero_add] at hf ⊢
  induction bytes generalizing s fragment fuel room with
  | nil =>
    by_cases h0 : room = 0
    · exact ⟨s, fragment, [], by simp [dtmfTxLoop, h0], h, ⟨rfl, rfl, rfl, rfl⟩, by simp [h0]⟩
    · obtain ⟨q, hq, hh⟩ := h.readByte_nil
      refine ⟨s.setQueue q, fragment, [], ?_, hh, ⟨rfl, rfl, rfl, rfl⟩, ?_⟩
      · simp [dtmfTxLoop, h0, hq]
      · simp [hr.resolve_left h0]
  | cons byte bytes ih =>
    by_cases h0 : room = 0
    · exact ⟨s, fragment, byte :: bytes, by simp [dtmfTxLoop, h0], h, ⟨rfl, rfl, rfl, rfl⟩, by simp [h0]⟩
    obtain rfl := hr.resolve_left h0
    obtain ⟨q, hq, hh⟩ := h.readByte
    obtain ⟨fuel, rfl⟩ : ∃ f, fuel = f + 1 := ⟨fuel - 1, by rw [List.length_cons] at hf; omega⟩
    have hf' : bytes.length < fuel + 1 := by
      rw [List.length_cons] at hf
      omega
    have hsig : (s.setQueue q).signal sound = s.signal sound :=
      DtmfTx.Alike.signal (s := s) ⟨rfl, rfl, rfl, rfl⟩
    cases hd : dtmfTxDigit byte.toNat s with
    | none =>
      -- no digit of DTMF: the next round looks for one
      have hb : s.signal sound byte = [] := by rw [DtmfTx.signal, hd]
      obtain ⟨s', f', b', ht, hh', ha, he⟩ := ih (s := s.setQueue q) hh (.inr rfl) fuel hf'
      rw [hsig] at ht he
      refine ⟨s', f', b', ?_, hh', ⟨ha.1, ha.2, ha.3, ha.4⟩, ?_⟩
      · rw [dtmfTxLoop_skip h0 hq hd, ht, List.flatMap_cons, hb, List.nil_append]
      · rw [he, List.flatMap_cons, hb, List.nil_append, List.nil_append]
    | some g =>
      have hb : s.signal sound byte = digitSignal sound g.tone s.onTime s.offTime := by rw [DtmfTx.signal, hd]
      obtain ⟨hp, hmade⟩ := dtmfTxDigit_plays hd
      obtain ⟨g', hg, hp', hm'⟩ := @ToneGen.Plays.toneGen _ sound _ _ _ _ _ room hp hmade
      rw [List.drop_zero, ← hb] at hg
      have hfrag : ({ s.setQueue q with tones := g' } : DtmfTx).Holds sound ((s.signal sound byte).drop room) bytes := by
        refine ⟨⟨g.tone, s.onTime, s.offTime, _, hp', hm', ?_⟩, hh.queue, hh.inside⟩
        rw [hb, Nat.zero_add]
        by_cases hl : room ≤ s.onTime + s.offTime
        · rw [Nat.min_eq_left hl]
        · rw [Nat.min_eq_right (by omega), List.drop_of_length_le (by simp; omega),
            List.drop_of_length_le (by simp)]
      have hrest : room - ((s.signal sound byte).take room).length = 0 ∨ (s.signal sound byte).drop room = [] := by
        rw [List.length_take, List.drop_eq_nil_iff]
        omega
      obtain ⟨s', f', b', ht, hh', ha, he⟩ := ih hfrag hrest fuel hf'
      have hsig' : ({ s.setQueue q with tones := g' } : DtmfTx).signal sound = s.signal sound :=
        DtmfTx.Alike.signal (s := s) ⟨rfl, rfl, rfl, rfl⟩
      rw [hsig'] at ht he
      refine ⟨s', f', b', ?_, hh', ⟨ha.1, ha.2, ha.3, ha.4⟩, ?_⟩
      · rw [dtmfTxLoop_digit h0 hq hd hg, ht, Option.map_some, List.flatMap_cons, take_then]
      · rw [he, List.flatMap_cons, List.nil_append, drop_then]

/-- A buffer gets what comes next. -/
theorem DtmfTx.Holds.dtmfTx {s : DtmfTx} {fragment : List β} {bytes : List UInt8} (h : s.Holds sound fragment bytes)
    (room : Nat) :
    ∃ s' fragment' bytes', dtmfTx sound room s = some ((fragment ++ bytes.flatMap (s.signal sound)).take room, s') ∧
      s'.Holds sound fragment' bytes' ∧ s.Alike s' ∧
        fragment' ++ bytes'.flatMap (s.signal sound) = (fragment ++ bytes.flatMap (s.signal sound)).drop room := by
  obtain ⟨⟨t, on, off, n, hp, hn, rfl⟩, hq, hi⟩ := h
  obtain ⟨g', hg, hp', hn'⟩ := @ToneGen.Plays.toneGen _ sound _ _ _ _ _ room hp hn
  generalize hx : (digitSignal sound t on off).drop n = fragment at hg
  have hh : ({ s with tones := g' } : DtmfTx).Holds sound (fragment.drop room) bytes := by
    refine ⟨⟨t, on, off, _, hp', hn', ?_⟩, hq, hi⟩
    rw [← hx, List.drop_drop]
    by_cases hl : n + room ≤ on + off
    · rw [Nat.min_eq_left hl]
    · rw [Nat.min_eq_right (by omega), List.drop_of_length_le (by simp; omega),
        List.drop_of_length_le (by simp)]
  have hrest : room - (fragment.take room).length = 0 ∨ fragment.drop room = [] := by
    rw [List.length_take, List.drop_eq_nil_iff]
    omega
  have hf : bytes.length < (queueContents s.queue).toNat + 1 := by
    rw [hq.contents, Int.toNat_natCast]
    exact Nat.lt_succ_self _
  obtain ⟨s', f', b', ht, hh', ha, he⟩ := hh.loop hrest hf
  have hsig : ({ s with tones := g' } : DtmfTx).signal sound = s.signal sound :=
    DtmfTx.Alike.signal (s := s) ⟨rfl, rfl, rfl, rfl⟩
  rw [hsig] at ht he
  refine ⟨s', f', b', ?_, hh', ⟨ha.1, ha.2, ha.3, ha.4⟩, ?_⟩
  · rw [OpenR2.dtmfTx, hg]
    simp only [Option.bind_eq_bind, Option.bind_some, ht]
    rw [take_then]
  · rw [he, drop_then]

/-- The tone of a digit, if it is one of DTMF. -/
def dtmfKey (digit : Tone) : Option DualTone :=
  if digit = 0 then none else (strchr dtmfPositions digit).map fun i => (dtmfDigitTones i).tone

/-- What digits sound like, one after the other. -/
def dtmfSignal (sound : Waveform β) (on off : Nat) (digits : List Tone) : List β :=
  digits.flatMap fun digit => (dtmfKey digit).elim [] fun t => digitSignal sound t on off

/-- A run of the sender. -/
theorem DtmfTx.Holds.run {s : DtmfTx} {fragment : List β} {bytes : List UInt8} (h : s.Holds sound fragment bytes)
    (sizes : List Nat) :
    (Runs.exec (dtmfTxTick sound) sizes s).2 =
      (Blocks.cut sizes (fragment ++ bytes.flatMap (s.signal sound))).map some := by
  induction sizes generalizing s fragment bytes with
  | nil => rfl
  | cons n sizes ih =>
    obtain ⟨s', f', b', ht, hh, ha, he⟩ := h.dtmfTx n
    have hrun := ih hh
    rw [ha.signal, he] at hrun
    simp only [Runs.exec, dtmfTxTick, ht, hrun, Blocks.cut, List.map_cons]
    rfl

/-- The times of which the product in `openr2_dtmf_tx_set_timing` is an `int`. -/
theorem dtmfTime_int {ms : Int} (h : 0 ≤ ms) :
    (ms * sampleRate).bmod (2 ^ 32) = ms * sampleRate ↔ ms ≤ 268435 := by
  rw [sampleRate]
  constructor
  · intro hb
    have hlt := Int.bmod_lt (x := ms * (8000 : Nat)) (show 0 < 2 ^ 32 by decide)
    omega
  · intro hm
    exact Int.bmod_eq_of_le (by omega) (by omega)

/-- The queue of a new call takes up to 128 digits. -/
theorem dtmfDial_holds (data : Nat → UInt8) (onTime offTime : Int) {digits : List Tone}
    (hl : (cstr digits).length ≤ maxDtmfDigits) :
    ∃ s, dtmfDial data onTime offTime digits = some (0, s) ∧
      s.Holds sound [] ((cstr digits).map UInt8.ofNat) ∧
        (dtmfTxSetTiming onTime offTime (dtmfTxInit data)).Alike s := by
  have hq := QueueState.init_models maxDtmfDigits true true data
  have hi : (queueInit maxDtmfDigits true true data).Inside := ⟨Nat.succ_pos _, Nat.succ_pos _⟩
  have htones : ∃ t on off n, (dtmfTxSetTiming onTime offTime (dtmfTxInit data)).tones.Plays t on off ∧
      (dtmfTxSetTiming onTime offTime (dtmfTxInit data)).tones.Made on off n ∧
      ([] : List β) = (digitSignal sound t on off).drop n := by
    refine ⟨(dtmfDigitTones 0).tone, 400, 440, 840, ⟨rfl, ?_, rfl⟩, rfl, ?_⟩
    · funext i
      match i with
      | 0 | 1 | 2 | 3 => rfl
    · rw [List.drop_of_length_le (by simp)]
  rw [dtmfDial, dtmfTxPut]
  simp only [Int.reduceNeg, Int.reduceLT, if_true, true_and]
  generalize hd : dtmfTxSetTiming onTime offTime (dtmfTxInit data) = d at htones
  have hdq : d.queue = queueInit maxDtmfDigits true true data := by rw [← hd]; rfl
  generalize hb : (cstr digits).map UInt8.ofNat = bytes
  have hlen : bytes.length ≤ maxDtmfDigits := by rwa [← hb, List.length_map]
  rw [← hdq] at hq hi
  split_ifs with h0 hfree
  · obtain rfl := List.length_eq_zero_iff.mp h0
    exact ⟨d, rfl, ⟨htones, hq, hi⟩, ⟨rfl, rfl, rfl, rfl⟩⟩
  · rw [hq.free] at hfree
    simp only [List.length_nil, Nat.sub_zero] at hfree
    omega
  · obtain ⟨q, hw, hm, ho, hx⟩ := @QueueState.Models.write _ _ bytes hq
    have hroom : (Fifo.mk maxDtmfDigits true true []).room bytes = bytes := by
      rw [Fifo.room, if_neg (by simp only [List.length_nil]; omega)]
      exact List.take_of_length_le (by simpa using hlen)
    have hwrote : (Fifo.mk maxDtmfDigits true true []).wrote bytes = ⟨bytes.length, []⟩ := by
      rw [Fifo.wrote, hroom, if_neg (by simp only [List.length_nil]; omega)]
    rw [hroom] at hm hx
    refine ⟨d.setQueue q, ?_, ⟨htones, hm, ?_⟩, ⟨rfl, rfl, rfl, rfl⟩⟩
    · rw [hw, hwrote, Option.map_some, if_pos (by simp)]
    · have hn : bytes ≠ [] := fun h => h0 (by rw [h]; rfl)
      have hil : d.queue.iptr = 0 := by rw [hdq]; rfl
      have hll : d.queue.len = maxDtmfDigits + 1 := by rw [hdq]; rfl
      rw [if_neg hn, QueueState.nextIptr, hil, hll, if_pos (by omega)] at hx
      have hql : q.len = maxDtmfDigits + 1 := hm.len
      have hout := hi.output
      have hin : q.Inside := ⟨by omega, by omega⟩
      exact hin

/-- What is sent after that. -/
theorem dtmfDial_run (data : Nat → UInt8) (onTime offTime : Int) {digits : List Tone}
    (hl : (cstr digits).length ≤ maxDtmfDigits) (hb : ∀ digit ∈ cstr digits, digit < 256) :
    ∃ s, dtmfDial data onTime offTime digits = some (0, s) ∧
      (dtmfTxSetTiming onTime offTime (dtmfTxInit data)).Alike s ∧ ∀ sizes,
        (Runs.exec (dtmfTxTick sound) sizes s).2 =
          (Blocks.cut sizes (dtmfSignal sound s.onTime s.offTime (cstr digits))).map some := by
  obtain ⟨s, hd, hs, ha⟩ := @dtmfDial_holds _ sound data onTime offTime _ hl
  refine ⟨s, hd, ha, fun sizes => ?_⟩
  have hsig : ∀ digit ∈ cstr digits, s.signal sound (UInt8.ofNat digit) =
      (dtmfKey digit).elim [] fun t => digitSignal sound t s.onTime s.offTime := by
    intro digit hm
    have hn : (UInt8.ofNat digit).toNat = digit := by
      rw [UInt8.toNat_ofNat']
      exact Nat.mod_eq_of_lt (hb digit hm)
    rw [DtmfTx.signal, hn, dtmfTxDigit, dtmfKey, ha.lowLevel, ha.highLevel]
    split_ifs
    · rfl
    · cases strchr dtmfPositions digit <;> rfl
  rw [hs.run, List.nil_append, List.flatMap_map, dtmfSignal]
  congr 2
  exact List.flatMap_congr hsig

/-- The samples sent for a call are those of its digits, in the parts that are asked for. There are
none only when all were sent. -/
theorem dtmf_sent_whole (data : Nat → UInt8) (onTime offTime : Int) (digits : List Tone) (sizes : List Nat)
    (hl : (cstr digits).length ≤ maxDtmfDigits) (hb : ∀ digit ∈ cstr digits, digit < 256) :
    ∃ s, dtmfDial data onTime offTime digits = some (0, s) ∧
      (Runs.exec (dtmfTxTick sound) sizes s).2 =
        (Blocks.cut sizes (dtmfSignal sound s.onTime s.offTime (cstr digits))).map some := by
  obtain ⟨s, hd, -, hrun⟩ := @dtmfDial_run _ sound data onTime offTime _ hl hb
  exact ⟨s, hd, hrun sizes⟩

/-- Two digits and what is no digit, in a buffer that holds a part of the first and one that is
larger than the rest. -/
theorem dtmf_sent_whole_two : ∃ s, dtmfDial (fun _ => 0) 1 1 [52, 88, 50] = some (0, s) ∧
    (Runs.exec (dtmfTxTick (Waveform.mk (fun _ k => k) 0)) [12, 100, 1] s).2 =
      (Blocks.cut [12, 100, 1] (dtmfSignal (Waveform.mk (fun _ k => k) 0) s.onTime s.offTime [52, 88, 50])).map
        some :=
  dtmf_sent_whole (fun _ => 0) 1 1 [52, 88, 50] [12, 100, 1] (by decide) (by decide)

end Dtmf

end OpenR2
