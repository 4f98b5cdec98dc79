import OpenR2.DtmfLine
import OpenR2.Peers
import OpenR2.Proofs.DtmfSilence
import OpenR2.Proofs.Hearing

namespace OpenR2

section Stream

variable {β : Type} {sound : Waveform β} {classify : List β → Tone} {on off quiet rest : Nat} {digits : List Tone}

/-- Digits, with silence before and after them. -/
def dtmfStream (sound : Waveform β) (on off quiet rest : Nat) (digits : List Tone) : List β :=
  List.replicate quiet sound.silence ++ (dtmfSignal sound on off digits ++ List.replicate rest sound.silence)

/-- The detector after the first of these samples. -/
def heardOf (classify : List β → Tone) (stream : List β) (k : Nat) : (List β × DtmfRx) × List (List Tone) :=
  hearing classify (stream.take k) ([], dtmfRxInit true)

theorem dtmfSignal_append (xs ys : List Tone) :
    dtmfSignal sound on off (xs ++ ys) = dtmfSignal sound on off xs ++ dtmfSignal sound on off ys :=
  List.flatMap_append

theorem length_dtmfSignal (hk : ∀ d ∈ digits, (dtmfKey d).isSome) :
    (dtmfSignal sound on off digits).length = digits.length * (on + off) := by
  induction digits with
  | nil => simp [dtmfSignal]
  | cons d digits ih =>
    obtain ⟨hd, hk⟩ := List.forall_mem_cons.mp hk
    obtain ⟨t, ht⟩ := Option.isSome_iff_exists.mp hd
    rw [← List.singleton_append, dtmfSignal_append, List.length_append, ih hk, List.length_append,
      List.length_singleton, Nat.add_mul, Nat.one_mul]
    simp [dtmfSignal, ht]

/-- What comes after a part of the samples is heard after it. -/
theorem heardOf_add (stream : List β) (k m : Nat) :
    heardOf classify stream (k + m) =
      let r := hearing classify ((stream.drop k).take m) (heardOf classify stream k).1
      (r.1, (heardOf classify stream k).2 ++ r.2) := by
  rw [heardOf, List.take_add, hearing, Runs.exec_append]
  rfl

theorem hearing_append (xs ys : List β) (s : List β × DtmfRx) :
    hearing classify (xs ++ ys) s =
      let r := hearing classify ys (hearing classify xs s).1
      (r.1, (hearing classify xs s).2 ++ r.2) := by
  rw [hearing, Runs.exec_append]
  rfl

variable (quiet rest) (h : Discerns sound classify) (hon : 305 ≤ on) (hoff : 305 ≤ off)
  (hk : ∀ d ∈ digits, (dtmfKey d).isSome)

include h hon hoff

/-- Silence and then digits. -/
theorem Discerns.hearing_from_quiet (ds : List Tone) (hk : ∀ d ∈ ds, (dtmfKey d).isSome) :
    ∃ r, r < dtmfSamplesPerBlock ∧
      hearing classify (List.replicate quiet sound.silence ++ dtmfSignal sound on off ds) ([], dtmfRxInit true) =
        ((List.replicate r sound.silence, dtmfRxInit true), ds.map fun d => [d]) := by
  obtain ⟨r₁, hr₁, hq⟩ := h.hearing_quiet quiet (r := 0) (Nat.zero_lt_succ 101)
  obtain ⟨r₂, hr₂, hd⟩ := h.hearing_digits hon hoff ds hr₁
  refine ⟨r₂, hr₂, ?_⟩
  rw [List.replicate_zero] at hq
  rw [hearing_append, hq, hd, List.filter_eq_self.mpr hk]
  rfl

include hk

/-- At the start of a digit all before it were told, and at the end of its tone it was too. -/
theorem Discerns.heardOf_digit (i : Nat) (hi : i ≤ digits.length) :
    (∃ r, r < dtmfSamplesPerBlock ∧
      heardOf classify (dtmfStream sound on off quiet rest digits) (quiet + i * (on + off)) =
        ((List.replicate r sound.silence, dtmfRxInit true), (digits.take i).map fun d => [d])) ∧
      (i < digits.length →
        (heardOf classify (dtmfStream sound on off quiet rest digits) (quiet + i * (on + off) + on)).2 =
          (digits.take (i + 1)).map fun d => [d]) := by
  have hkt : ∀ d ∈ digits.take i, (dtmfKey d).isSome := fun d hd => hk d (List.mem_of_mem_take hd)
  have hlen : (List.replicate quiet sound.silence ++ dtmfSignal sound on off (digits.take i)).length =
      quiet + i * (on + off) := by
    rw [List.length_append, List.length_replicate, length_dtmfSignal hkt, List.length_take_of_le hi]
  have hstream : dtmfStream sound on off quiet rest digits =
      (List.replicate quiet sound.silence ++ dtmfSignal sound on off (digits.take i)) ++
        (dtmfSignal sound on off (digits.drop i) ++ List.replicate rest sound.silence) := by
    rw [dtmfStream, List.append_assoc, ← List.append_assoc (dtmfSignal _ _ _ (digits.take i)), ← dtmfSignal_append,
      List.take_append_drop]
  obtain ⟨r, hr, hstart⟩ := h.hearing_from_quiet quiet hon hoff (digits.take i) hkt
  have hhead : heardOf classify (dtmfStream sound on off quiet rest digits) (quiet + i * (on + off)) =
      ((List.replicate r sound.silence, dtmfRxInit true), (digits.take i).map fun d => [d]) := by
    rw [heardOf, hstream, List.take_left' hlen, hstart]
  refine ⟨⟨r, hr, hhead⟩, fun hlt => ?_⟩
  obtain ⟨t, ht⟩ := Option.isSome_iff_exists.mp (hk _ (List.getElem_mem hlt))
  have hnext : ((dtmfStream sound on off quiet rest digits).drop (quiet + i * (on + off))).take on =
      (List.range on).map (sound.wave t) := by
    rw [hstream, List.drop_left' hlen, List.drop_eq_getElem_cons hlt, ← List.singleton_append, dtmfSignal_append]
    have hone : dtmfSignal sound on off [digits[i]] = digitSignal sound t on off := by simp [dtmfSignal, ht]
    rw [hone, digitSignal, List.append_assoc, List.append_assoc]
    exact List.take_left' (by simp)
  obtain ⟨p, n, -, htone⟩ := h.hearing_tone ht hr hon
  rw [heardOf_add, hnext, hhead, htone, List.take_succ_eq_append_getElem hlt, List.map_append]
  rfl

/-- After the last digit there is only silence. -/
theorem Discerns.heardOf_after (k : Nat) (hkl : quiet + digits.length * (on + off) ≤ k) :
    ∃ r, r < dtmfSamplesPerBlock ∧
      heardOf classify (dtmfStream sound on off quiet rest digits) k =
        ((List.replicate r sound.silence, dtmfRxInit true), digits.map fun d => [d]) := by
  obtain ⟨m, rfl⟩ := Nat.exists_eq_add_of_le hkl
  obtain ⟨r₁, hr₁, hend⟩ := (h.heardOf_digit quiet rest hon hoff hk digits.length le_rfl).1
  have hlen : (List.replicate quiet sound.silence ++ dtmfSignal sound on off digits).length =
      quiet + digits.length * (on + off) := by
    rw [List.length_append, List.length_replicate, length_dtmfSignal hk]
  have hdrop : ((dtmfStream sound on off quiet rest digits).drop (quiet + digits.length * (on + off))).take m =
      List.replicate (min m rest) sound.silence := by
    rw [dtmfStream, ← List.append_assoc, List.drop_left' hlen, List.take_replicate]
  obtain ⟨r, hr, hq⟩ := h.hearing_quiet (min m rest) hr₁
  refine ⟨r, hr, ?_⟩
  rw [heardOf_add, hdrop, hend, hq, List.take_length]
  exact congrArg _ (List.append_nil _)

/-- How many digits were told with the first of these samples. -/
def told (classify : List β → Tone) (stream : List β) (k : Nat) : Nat := (heardOf classify stream k).2.length

omit h hon hoff hk in
theorem told_mono (stream : List β) {k k' : Nat} (hle : k ≤ k') : told classify stream k ≤ told classify stream k' := by
  obtain ⟨m, rfl⟩ := Nat.exists_eq_add_of_le hle
  rw [told, told, heardOf_add]
  simp

omit h hon hoff hk in
/-- The detector can go on after any of the samples. -/
theorem heardOf_ready (stream : List β) (k : Nat) :
    (heardOf classify stream k).1.1.length < dtmfSamplesPerBlock ∧
      ((heardOf classify stream k).1.2.callback = true → (heardOf classify stream k).1.2.digits = []) := by
  have ht : (dtmfRxInit true).callback = true → (dtmfRxInit true).digits = [] := fun _ => rfl
  have hb : ([] : List β).length < dtmfSamplesPerBlock := Nat.zero_lt_succ 101
  obtain ⟨heq, hkeep⟩ := @dtmfRx_feed _ classify _ _ ht hb (stream.take k)
  rw [heq] at hkeep
  exact ⟨Blocks.exec_push_length dtmfSamplesPerBlock (dtmfBlock classify) hb, hkeep⟩

omit h hon hoff hk in
/-- The next part that is read. -/
theorem dtmfRx_heardOf (stream : List β) (k : Nat) {samples : List β}
    (hs : (stream.drop k).take samples.length = samples) :
    (heardOf classify stream (k + samples.length)).1 = (dtmfRx classify samples (heardOf classify stream k).1).1 ∧
      (heardOf classify stream (k + samples.length)).2 =
        (heardOf classify stream k).2 ++ (dtmfRx classify samples (heardOf classify stream k).1).2 := by
  obtain ⟨hb, ht⟩ := @heardOf_ready _ classify stream k
  rw [heardOf_add, hs, (dtmfRx_feed ht hb samples).1]
  exact ⟨rfl, rfl⟩

/-- The digits that were told, at any moment, are the first ones. -/
theorem Discerns.heardOf_told (k : Nat) :
    told classify (dtmfStream sound on off quiet rest digits) k ≤ digits.length ∧
      (heardOf classify (dtmfStream sound on off quiet rest digits) k).2 =
        (digits.take (told classify (dtmfStream sound on off quiet rest digits) k)).map fun d => [d] := by
  obtain ⟨r, -, hend⟩ := h.heardOf_after quiet rest hon hoff hk
    (k + (quiet + digits.length * (on + off))) (Nat.le_add_left _ _)
  have hpre : (heardOf classify (dtmfStream sound on off quiet rest digits) k).2 <+: digits.map fun d => [d] := by
    rw [heardOf_add] at hend
    exact ⟨_, congrArg Prod.snd hend⟩
  refine ⟨by simpa [told] using hpre.length_le, ?_⟩
  rw [List.map_take]
  exact List.prefix_iff_eq_take.mp hpre

/-- A digit is told while its tone is on. -/
theorem Discerns.told_bounds (k : Nat) :
    (∀ i, i < told classify (dtmfStream sound on off quiet rest digits) k → quiet + i * (on + off) < k) ∧
      (told classify (dtmfStream sound on off quiet rest digits) k < digits.length →
        k < quiet + told classify (dtmfStream sound on off quiet rest digits) k * (on + off) + on) := by
  obtain ⟨hle, -⟩ := h.heardOf_told quiet rest hon hoff hk k
  constructor
  · intro i hi
    by_contra hk'
    obtain ⟨⟨r, -, hs⟩, -⟩ := h.heardOf_digit quiet rest hon hoff hk i (by omega)
    have hm := @told_mono _ classify (dtmfStream sound on off quiet rest digits) _ _ (Nat.not_lt.mp hk')
    have hi' : told classify (dtmfStream sound on off quiet rest digits) (quiet + i * (on + off)) = i := by
      rw [told, hs]
      simp
      omega
    omega
  · intro hlt
    by_contra hk'
    obtain ⟨-, hs⟩ := h.heardOf_digit quiet rest hon hoff hk _ hle
    have hm := @told_mono _ classify (dtmfStream sound on off quiet rest digits) _ _ (Nat.not_lt.mp hk')
    rw [told, hs hlt, List.length_map, List.length_take] at hm
    omega

end Stream

section Offering

variable {cx : R2Context} {env : Env} {m : MediaChan}

/-- The user takes every digit, and does nothing else. -/
structure Env.Takes (env : Env) : Prop where
  quiet : env.Quiet
  digits : ∀ h, env.onDnisDigitReceived h = true

/-- A call that collects DTMF digits, has these, and knows of the caller what it knew at first. -/
structure R2Chan.HoldsDigits (c first : R2Chan) (ds : List Tone) : Prop where
  detecting : c.Detecting
  callState : c.callState = .collecting
  direction : c.direction = .backward
  wanted : c.callDnisCallback = true
  dnisLen : c.dnisLen = ds.length
  dnis : ∃ tail, c.dnis = ds ++ 0 :: tail
  size : c.dnis.length = maxDnisBuffer
  ani : c.ani = first.ani
  restricted : c.callerAniIsRestricted = first.callerAniIsRestricted

variable {first c : R2Chan} {ds : List Tone}

theorem R2Chan.HoldsDigits.start (h : c.HoldsDigits first ds) : c.start.HoldsDigits first ds :=
  ⟨h.detecting, h.callState, h.direction, h.wanted, h.dnisLen, h.dnis, h.size, h.ani, h.restricted⟩

/-- A digit that is wanted. -/
theorem R2Chan.HoldsDigits.receive (h : c.HoldsDigits first ds) (he : env.Takes) (digit : Tone)
    (hroom : ds.length + 1 < maxDnisBuffer) :
    (receiveDtmfDigit cx env digit c).HoldsDigits first (ds ++ [digit]) ∧
      (receiveDtmfDigit cx env digit c).out.filterMap Act.event? =
        c.out.filterMap Act.event? ++ [.onDnisDigitReceived digit] := by
  obtain ⟨hl, ho⟩ := @receiveDtmfDigit_quiet cx _ he.quiet digit c
  have hrec : receiveDtmfDigit cx env digit c = (keepDtmfDigit digit c).emit (.onDnisDigitReceived digit) := by
    have hr : receiveDtmfDigit cx env digit c =
        if env.onDnisDigitReceived (keepDtmfDigit digit c).out then
          callback cx env (.onDnisDigitReceived digit) (keepDtmfDigit digit c)
        else stopDnisCallback (callback cx env (.onDnisDigitReceived digit) (keepDtmfDigit digit c)) := rfl
    rw [hr, if_pos (he.digits _), callback, he.quiet _]
  refine ⟨?_, by rw [ho, List.filterMap_append]; rfl⟩
  obtain ⟨hdet, hs, hb, hcb, hlen, ⟨tail, htail⟩, hsize, hani, hres⟩ := h
  rw [hrec]
  rw [htail, List.length_append, List.length_cons] at hsize
  obtain ⟨x, tail', rfl⟩ : ∃ x tail', tail = x :: tail' := List.exists_cons_of_length_pos (by omega)
  have hkept : (keepDtmfDigit digit c).dnis = (ds ++ [digit]) ++ 0 :: tail' := by
    simp [keepDtmfDigit, htail, hlen]
  refine ⟨hdet, hs, hb, hcb, ?_, ⟨tail', hkept⟩, ?_, hani, hres⟩
  · change c.dnisLen + 1 = _
    rw [hlen, List.length_append, List.length_singleton]
  · change (keepDtmfDigit digit c).dnis.length = _
    rw [hkept]
    simp at hsize ⊢
    omega

/-- The digits of one buffer. -/
theorem onDtmfReports_collects (he : env.Takes) (xs : List Tone) (hx : ∀ d ∈ xs, d ≠ 0)
    (h : m.chan.HoldsDigits first ds) (hroom : ds.length + xs.length < maxDnisBuffer) :
    (onDtmfReports cx env ((xs.map fun d => [d]).map some) m).chan.HoldsDigits first (ds ++ xs) ∧
      (onDtmfReports cx env ((xs.map fun d => [d]).map some) m).dtmfSilenceSamples =
        (if xs = [] then m.dtmfSilenceSamples else 0) ∧
      (onDtmfReports cx env ((xs.map fun d => [d]).map some) m).chan.out.filterMap Act.event? =
        m.chan.out.filterMap Act.event? ++ xs.map .onDnisDigitReceived := by
  induction xs generalizing m ds with
  | nil =>
    rw [List.append_nil]
    exact ⟨h, rfl, (List.append_nil _).symm⟩
  | cons d xs ih =>
    obtain ⟨hd, hx⟩ := List.forall_mem_cons.mp hx
    rw [List.length_cons] at hroom
    obtain ⟨hone, hev⟩ := @R2Chan.HoldsDigits.receive cx _ _ _ _ h he d (by omega)
    have hrec : onDtmfReceived cx env (some [d]) m = ⟨receiveDtmfDigit cx env d m.chan, 0⟩ := by
      have hc : cstr [d] = [d] := by simp [cstr, hd]
      rw [onDtmfReceived, receiveDtmfDigits, if_pos h.wanted, hc]
      rfl
    have hrun : onDtmfReports cx env (((d :: xs).map fun d => [d]).map some) m =
        onDtmfReports cx env ((xs.map fun d => [d]).map some) ⟨receiveDtmfDigit cx env d m.chan, 0⟩ :=
      congrArg (onDtmfReports cx env _) hrec
    obtain ⟨hc, hs, ho⟩ := ih (m := ⟨receiveDtmfDigit cx env d m.chan, 0⟩) hx hone
      (by rw [List.length_append, List.length_singleton]; omega)
    rw [hrun]
    refine ⟨by simpa using hc, by simpa using hs, ?_⟩
    rw [ho, hev]
    simp

/-- The silence after the number offers the call. -/
theorem handleDtmfEnd_offers (h : c.HoldsDigits first ds) (hx : ∀ d ∈ ds, d ≠ 0) :
    (handleDtmfEnd cx env c).mfState = .offState ∧ (handleDtmfEnd cx env c).callState = .offered ∧
      (handleDtmfEnd cx env c).out.filterMap Act.event? = c.out.filterMap Act.event? ++
        [.onCallOffered (cstr first.ani) ds (tone2category cx cx.g2Tones.nationalSubscriber)
          first.callerAniIsRestricted] := by
  obtain ⟨⟨r, w, x, y, q, hf⟩, -, as, ho, hdisp⟩ := turnOffMfEngine_turnedOff cx c
  have hnum : cstr c.dnis = ds := by
    obtain ⟨tail, ht⟩ := h.dnis
    rw [ht, cstr, List.takeWhile_append_of_pos (by simpa using hx)]
    simp
  have hnone : as.filterMap Act.event? = [] := by
    rw [List.filterMap_eq_nil_iff]
    intro a ha
    cases a <;> first | rfl | exact (hdisp _ ha).elim
  have hdir : (turnOffMfEngine cx c).direction = .backward := by rw [hf]; exact h.direction
  have hcs : (turnOffMfEngine cx c).callState = .collecting := by rw [hf]; exact h.callState
  have hani : (turnOffMfEngine cx c).ani = first.ani := by rw [hf]; exact h.ani
  have hdnis : (turnOffMfEngine cx c).dnis = c.dnis := by rw [hf]
  have hres : (turnOffMfEngine cx c).callerAniIsRestricted = first.callerAniIsRestricted := by
    rw [hf]; exact h.restricted
  have hoff : (turnOffMfEngine cx c).mfState = .offState := by rw [hf]
  have hend : handleDtmfEnd cx env c =
      (((turnOffMfEngine cx c).setCallerCategory cx.g2Tones.nationalSubscriber).setCallState .offered).emit
        (.onCallOffered (cstr first.ani) ds (tone2category cx cx.g2Tones.nationalSubscriber)
          first.callerAniIsRestricted) := by
    simp only [handleDtmfEnd, hdir, reduceCtorEq, if_false]
    have hcs' : ¬ ((turnOffMfEngine cx c).setCallerCategory cx.g2Tones.nationalSubscriber).callState ≠ .collecting :=
      not_not.mpr hcs
    rw [offerCall, if_neg hcs', ← hani, ← hres, ← hnum, ← hdnis]
    rfl
  rw [hend]
  refine ⟨hoff, rfl, ?_⟩
  change (((turnOffMfEngine cx c).out ++ [Act.callState .offered]) ++ [_]).filterMap Act.event? = _
  rw [ho, List.filterMap_append, List.filterMap_append, List.filterMap_append, hnone]
  simp [Act.event?]

variable {β : Type} {classify : List β → Tone} {t : ReadTick β} {s : Listener β}

/-- A buffer of a call that collects. The call is offered with the one that completes the silence. -/
theorem listenTick_collects (he : t.env.Takes) {xs : List Tone} (hx : ∀ d ∈ ds ++ xs, d ≠ 0)
    (h : s.media.chan.HoldsDigits first ds) (hroom : (ds ++ xs).length < maxDnisBuffer)
    (hr : (dtmfRx classify t.samples s.rx).2 = xs.map fun d => [d]) :
    let counter := (if xs = [] then s.media.dtmfSilenceSamples else 0) +
      if dtmfRxStatus (dtmfRx classify t.samples s.rx).1.2 ≠ 0 then 0 else chanReadSize
    let n := listenTick cx classify s t
    n.1.rx = (dtmfRx classify t.samples s.rx).1 ∧
      ((counter ≠ dtmfMaxSilenceSamples → n.1.media.chan.HoldsDigits first (ds ++ xs) ∧
          n.1.media.dtmfSilenceSamples = counter ∧ n.2.filterMap Act.event? = xs.map .onDnisDigitReceived) ∧
        (dtmfRxStatus (dtmfRx classify t.samples s.rx).1.2 = 0 → counter = dtmfMaxSilenceSamples →
          n.1.media.chan.mfState = .offState ∧ n.1.media.chan.callState = .offered ∧
          n.2.filterMap Act.event? = xs.map .onDnisDigitReceived ++
            [.onCallOffered (cstr first.ani) (ds ++ xs) (tone2category cx cx.g2Tones.nationalSubscriber)
              first.callerAniIsRestricted])) := by
  have hstart : (s.media.on R2Chan.start).chan.HoldsDigits first ds := h.start
  obtain ⟨hc, hs, ho⟩ := @onDtmfReports_collects cx _ _ _ _ he xs (fun d hd => hx d (List.mem_append_right ds hd))
    hstart (by rwa [← List.length_append])
  have hon : ¬ (s.media.chan.mfState = .offState ∨ s.media.chan.detectingDtmf = false) := by
    rintro (hm | hm)
    · exact h.detecting.1 hm
    · exact absurd h.detecting.2 (by rw [hm]; exact Bool.false_ne_true)
  have hout : (s.media.on R2Chan.start).chan.out.filterMap Act.event? = [] := rfl
  have hquiet : (s.media.on R2Chan.start).dtmfSilenceSamples = s.media.dtmfSilenceSamples := rfl
  rw [hout, List.nil_append] at ho
  rw [hquiet] at hs
  rw [listenTick, if_neg hon]
  simp only [mediaTick, hr]
  rw [mediaStep_detects _ h.detecting]
  dsimp only
  generalize onDtmfReports cx t.env ((xs.map fun d => [d]).map some) (s.media.on R2Chan.start) = n at hc hs ho ⊢
  refine ⟨trivial, ?_⟩
  by_cases hst : dtmfRxStatus (dtmfRx classify t.samples s.rx).1.2 = 0
  · simp only [hst, ne_eq, not_true_eq_false, decide_false, Bool.false_eq_true, if_false, ← hs, dtmfSilence]
    refine ⟨fun hne => ?_, fun _ heq => ?_⟩
    · rw [if_neg hne]
      exact ⟨hc, rfl, ho⟩
    · rw [if_pos heq]
      obtain ⟨hoff, hcall, hev⟩ := @handleDtmfEnd_offers cx t.env _ _ _ hc hx
      exact ⟨hoff, hcall, by rw [← ho]; exact hev⟩
  · simp only [hst, ne_eq, not_false_eq_true, decide_true, if_true, ← hs, Nat.add_zero]
    exact ⟨fun _ => ⟨hc, trivial, ho⟩, fun h0 => absurd h0 (fun h => h)⟩

/-- When the call is offered nothing is listened for. -/
theorem listenTick_off (h : s.media.chan.mfState = .offState) :
    (listenTick cx classify s t).2 = [] ∧ (listenTick cx classify s t).1.media.chan = s.media.chan.start := by
  have hm : (s.media.on R2Chan.start).chan.mfState = .offState := h
  rw [listenTick, if_pos (.inl h)]
  simp only [mediaTick, mediaStep, handleRead, if_pos hm]
  exact ⟨rfl, rfl⟩

end Offering

/-- Buffers that are full. -/
theorem length_readings {β : Type} {ts : List (ReadTick β)} (h : ∀ t ∈ ts, t.samples.length = chanReadSize) :
    (ts.flatMap ReadTick.samples).length = ts.length * chanReadSize := by
  rw [List.length_flatMap, List.map_congr_left h, List.map_const', List.sum_replicate_nat]

section Call

variable {β : Type} {cx : R2Context} {sound : Waveform β} {classify : List β → Tone} {on off quiet rest r : Nat}
  {digits : List Tone} {first : MediaChan} {s : Listener β} {t : ReadTick β}

/-- What is so after so many buffers, as long as the call is not offered: the counter of silent
samples is behind the last digit, and after the last of all it is not far behind. -/
structure Listener.Collecting (classify : List β → Tone) (stream : List β) (on off quiet : Nat) (digits : List Tone)
    (first : MediaChan) (r : Nat) (s : Listener β) : Prop where
  rx : s.rx = (heardOf classify stream (r * chanReadSize)).1
  chan : s.media.chan.HoldsDigits first.chan (digits.take (told classify stream (r * chanReadSize)))
  whole : chanReadSize ∣ s.media.dtmfSilenceSamples
  short : s.media.dtmfSilenceSamples < dtmfMaxSilenceSamples
  before : told classify stream (r * chanReadSize) = 0 →
    s.media.dtmfSilenceSamples ≤ first.dtmfSilenceSamples + r * chanReadSize
  since : ∀ i, told classify stream (r * chanReadSize) = i + 1 →
    s.media.dtmfSilenceSamples + (quiet + i * (on + off)) < r * chanReadSize + chanReadSize
  after : r * chanReadSize < quiet + digits.length * (on + off) + s.media.dtmfSilenceSamples + chanReadSize

variable (h : Discerns sound classify) (hon : 305 ≤ on) (hoff : 305 ≤ off)
  (hk : ∀ d ∈ digits, (dtmfKey d).isSome)

include h hon hoff hk

/-- The next buffer. Digits that it tells are in their place, and the call is offered with the one
that makes the silence after the last complete. -/
theorem Listener.Collecting.read
    (hpace : 2 * on + off + chanReadSize ≤ dtmfMaxSilenceSamples)
    (hquiet : first.dtmfSilenceSamples + quiet + on ≤ dtmfMaxSilenceSamples)
    (hroom : digits.length < maxDnisBuffer)
    (hs : s.Collecting classify (dtmfStream sound on off quiet rest digits) on off quiet digits first r)
    (he : t.env.Takes) (hlen : t.samples.length = chanReadSize)
    (ht : ((dtmfStream sound on off quiet rest digits).drop (r * chanReadSize)).take chanReadSize = t.samples) :
    ∃ xs, digits.take (told classify (dtmfStream sound on off quiet rest digits) ((r + 1) * chanReadSize)) =
        digits.take (told classify (dtmfStream sound on off quiet rest digits) (r * chanReadSize)) ++ xs ∧
      ((listenTick cx classify s t).1.Collecting classify (dtmfStream sound on off quiet rest digits) on off quiet
          digits first (r + 1) ∧
        (listenTick cx classify s t).2.filterMap Act.event? = xs.map .onDnisDigitReceived ∨
      told classify (dtmfStream sound on off quiet rest digits) ((r + 1) * chanReadSize) = digits.length ∧
        (listenTick cx classify s t).1.media.chan.mfState = .offState ∧
        (listenTick cx classify s t).1.media.chan.callState = .offered ∧
        (listenTick cx classify s t).2.filterMap Act.event? = xs.map .onDnisDigitReceived ++
          [.onCallOffered (cstr first.chan.ani) digits (tone2category cx cx.g2Tones.nationalSubscriber)
            first.chan.callerAniIsRestricted]) := by
  have hnext : (r + 1) * chanReadSize = r * chanReadSize + chanReadSize := Nat.succ_mul r chanReadSize
  have hread := @dtmfRx_heardOf _ classify (dtmfStream sound on off quiet rest digits) (r * chanReadSize)
    t.samples (by rw [hlen]; exact ht)
  rw [hlen, ← hnext, ← hs.rx] at hread
  obtain ⟨hrx, hnew⟩ := hread
  obtain ⟨hK, htold⟩ := h.heardOf_told quiet rest hon hoff hk (r * chanReadSize)
  obtain ⟨hK', htold'⟩ := h.heardOf_told quiet rest hon hoff hk ((r + 1) * chanReadSize)
  obtain ⟨hpast, hfuture⟩ := h.told_bounds quiet rest hon hoff hk ((r + 1) * chanReadSize)
  have hmono := @told_mono _ classify (dtmfStream sound on off quiet rest digits) _ _
    (show r * chanReadSize ≤ (r + 1) * chanReadSize by omega)
  -- after the last digit nothing is told, and the detector is at rest
  have hend : quiet + digits.length * (on + off) ≤ r * chanReadSize →
      told classify (dtmfStream sound on off quiet rest digits) (r * chanReadSize) = digits.length ∧
        dtmfRxStatus (dtmfRx classify t.samples s.rx).1.2 = 0 := by
    intro hle
    obtain ⟨_, -, h1⟩ := h.heardOf_after quiet rest hon hoff hk _ hle
    obtain ⟨_, -, h2⟩ := h.heardOf_after quiet rest hon hoff hk ((r + 1) * chanReadSize)
      (by omega)
    refine ⟨by rw [told, h1, List.length_map], ?_⟩
    rw [← hrx, h2]
    rfl
  obtain ⟨hsrx, hchan, hwhole, hshort, hbefore, hsince, hafter⟩ := hs
  have hlenTold : (dtmfRx classify t.samples s.rx).2.length +
      told classify (dtmfStream sound on off quiet rest digits) (r * chanReadSize) =
        told classify (dtmfStream sound on off quiet rest digits) ((r + 1) * chanReadSize) := by
    rw [told, told, hnew, List.length_append, Nat.add_comm]
  rw [htold, htold'] at hnew
  generalize htold₁ : told classify (dtmfStream sound on off quiet rest digits) (r * chanReadSize) = n at *
  generalize htold₂ : told classify (dtmfStream sound on off quiet rest digits) ((r + 1) * chanReadSize) = n' at *
  let xs := (digits.take n').drop n
  have hsplit : digits.take n' = digits.take n ++ xs := by
    rw [← List.take_append_drop n (digits.take n'), List.take_take, min_eq_left hmono]
  have hxs : (dtmfRx classify t.samples s.rx).2 = xs.map fun d => [d] := by
    rw [hsplit, List.map_append] at hnew
    exact (List.append_cancel_left hnew).symm
  have hempty : xs = [] ↔ n = n' := by
    rw [← List.length_eq_zero_iff, ← List.length_map, ← hxs]
    omega
  have hne : ∀ d ∈ digits.take n ++ xs, d ≠ 0 := by
    rw [← hsplit]
    intro d hd
    obtain ⟨_, hx⟩ := Option.isSome_iff_exists.mp (hk d (List.mem_of_mem_take hd))
    exact dtmfKey_ne_zero hx
  obtain ⟨hrx', hgo, hstop⟩ := @listenTick_collects cx _ _ _ _ _ _ he _ hne hchan
    (by rw [← hsplit, List.length_take]; omega) hxs
  generalize hcnt : ((if xs = [] then s.media.dtmfSilenceSamples else 0) +
      if dtmfRxStatus (dtmfRx classify t.samples s.rx).1.2 ≠ 0 then 0 else chanReadSize) = counter at *
  have hsize : chanReadSize = 160 := rfl
  have hmax : dtmfMaxSilenceSamples = 4000 := rfl
  have hdvd : chanReadSize ∣ counter := by
    rw [← hcnt]
    refine Nat.dvd_add ?_ ?_
    · split_ifs
      · exact hwhole
      · exact Nat.dvd_zero _
    · split_ifs
      · exact Nat.dvd_zero _
      · exact Nat.dvd_refl _
  have hup : counter ≤ (if n = n' then s.media.dtmfSilenceSamples else 0) + chanReadSize := by
    rw [← hcnt]
    simp only [hempty]
    split_ifs <;> omega
  have hbefore' : n' = 0 → counter ≤ first.dtmfSilenceSamples + (r + 1) * chanReadSize := by
    intro h0
    rw [if_pos (by omega)] at hup
    have := hbefore (by omega)
    omega
  have hsince' : ∀ i, n' = i + 1 →
      counter + (quiet + i * (on + off)) < (r + 1) * chanReadSize + chanReadSize := by
    intro i hi
    by_cases hsame : n = n'
    · rw [if_pos hsame] at hup
      have := hsince i (hsame.trans hi)
      omega
    · rw [if_neg hsame] at hup
      have := hpast i (by omega)
      omega
  have hafter' : (r + 1) * chanReadSize < quiet + digits.length * (on + off) + counter + chanReadSize := by
    by_cases hle : quiet + digits.length * (on + off) ≤ r * chanReadSize
    · obtain ⟨hall, hrest⟩ := hend hle
      rw [if_pos (hempty.mpr (by omega)), if_neg (not_not.mpr hrest)] at hcnt
      omega
    · omega
  have hshort' : n' < digits.length → counter < dtmfMaxSilenceSamples := by
    intro hlt
    have hnow := hfuture hlt
    cases n' with
    | zero =>
      have := hbefore' rfl
      omega
    | succ i =>
      have := hsince' i rfl
      rw [Nat.succ_mul i] at hnow
      omega
  refine ⟨xs, hsplit, ?_⟩
  by_cases hc : counter = dtmfMaxSilenceSamples
  · have hall : n' = digits.length := by
      by_contra hx
      have := hshort' (by omega)
      omega
    have hrest : dtmfRxStatus (dtmfRx classify t.samples s.rx).1.2 = 0 := by
      by_contra hx
      rw [if_pos hx] at hcnt
      split_ifs at hcnt <;> omega
    obtain ⟨hoff', hcall, hev⟩ := hstop hrest hc
    refine .inr ⟨hall, hoff', hcall, ?_⟩
    rw [hev, ← hsplit, hall, List.take_length]
  · obtain ⟨hchan', hcount', hev⟩ := hgo hc
    refine .inl ⟨⟨?_, ?_, ?_, ?_, ?_, ?_, ?_⟩, hev⟩
    · rw [hrx', hrx]
    · rw [htold₂, hsplit]
      exact hchan'
    · rw [hcount']
      exact hdvd
    · rw [hcount']
      rw [hsize] at hdvd hwhole hup
      split_ifs at hup <;> omega
    · rw [htold₂, hcount']
      exact hbefore'
    · rw [htold₂, hcount']
      exact hsince'
    · rw [hcount']
      exact hafter'

/-- After some of the buffers: the digits that were told until then and no offer, or all of them
and one. -/
theorem Discerns.listenRun_collects {m : MediaChan} {ts : List (ReadTick β)}
    (hpace : 2 * on + off + chanReadSize ≤ dtmfMaxSilenceSamples)
    (hquiet : m.dtmfSilenceSamples + quiet + on ≤ dtmfMaxSilenceSamples)
    (hleft : chanReadSize ∣ m.dtmfSilenceSamples)
    (hroom : digits.length < maxDnisBuffer) (hm : m.chan.HoldsDigits m.chan [])
    (hfull : ∀ t ∈ ts, t.samples.length = chanReadSize) (he : ∀ t ∈ ts, t.env.Takes)
    (hts : ts.flatMap ReadTick.samples <+: dtmfStream sound on off quiet rest digits) :
    ((listenRun cx classify ts ⟨m, [], dtmfRxInit true⟩).1.Collecting classify
        (dtmfStream sound on off quiet rest digits) on off quiet digits m ts.length ∧
      (listenRun cx classify ts ⟨m, [], dtmfRxInit true⟩).2.filterMap Act.event? =
        (digits.take (told classify (dtmfStream sound on off quiet rest digits) (ts.length * chanReadSize))).map
          .onDnisDigitReceived) ∨
    (listenRun cx classify ts ⟨m, [], dtmfRxInit true⟩).1.media.chan.mfState = .offState ∧
      (listenRun cx classify ts ⟨m, [], dtmfRxInit true⟩).1.media.chan.callState = .offered ∧
      (listenRun cx classify ts ⟨m, [], dtmfRxInit true⟩).2.filterMap Act.event? =
        digits.map .onDnisDigitReceived ++
          [.onCallOffered (cstr m.chan.ani) digits (tone2category cx cx.g2Tones.nationalSubscriber)
            m.chan.callerAniIsRestricted] := by
  have hsize : chanReadSize = 160 := rfl
  have hmax : dtmfMaxSilenceSamples = 4000 := rfl
  induction ts using List.reverseRecOn with
  | nil =>
    have hnone : told classify (dtmfStream sound on off quiet rest digits) (0 * chanReadSize) = 0 := by
      rw [told, heardOf, Nat.zero_mul]
      rfl
    refine .inl ⟨⟨?_, ?_, hleft, ?_, ?_, ?_, ?_⟩, ?_⟩
    · rw [List.length_nil, heardOf, Nat.zero_mul]
      rfl
    · rw [List.length_nil, hnone, List.take_zero]
      exact hm
    · change m.dtmfSilenceSamples < _
      omega
    · exact fun _ => Nat.le_add_right _ _
    · intro i hi
      rw [List.length_nil, hnone] at hi
      exact absurd hi (Nat.succ_ne_zero i).symm
    · rw [List.length_nil, Nat.zero_mul]
      omega
    · rw [List.length_nil, hnone]
      rfl
  | append_singleton ts t ih =>
    rw [List.flatMap_append] at hts
    have hbefore := ih (fun x hx => hfull x (List.mem_append_left [t] hx))
      (fun x hx => he x (List.mem_append_left [t] hx)) ((List.prefix_append _ _).trans hts)
    have hlast : t ∈ ts ++ [t] := List.mem_append_right ts (List.mem_singleton_self t)
    have hrun : listenRun cx classify (ts ++ [t]) ⟨m, [], dtmfRxInit true⟩ =
        let s := listenRun cx classify ts ⟨m, [], dtmfRxInit true⟩
        ((listenTick cx classify s.1 t).1, s.2 ++ (listenTick cx classify s.1 t).2) := by
      rw [listenRun, Runs.exec_append]
      simp only [Runs.exec, List.append_nil]
      rfl
    rw [hrun, List.length_append, List.length_singleton]
    dsimp only
    generalize listenRun cx classify ts ⟨m, [], dtmfRxInit true⟩ = s at hbefore ⊢
    rcases hbefore with ⟨hc, hev⟩ | ⟨hoff', hcall, hev⟩
    · have hread : ((dtmfStream sound on off quiet rest digits).drop (ts.length * chanReadSize)).take chanReadSize =
          t.samples := by
        obtain ⟨more, hmore⟩ := hts
        have hflat := length_readings fun x hx => hfull x (List.mem_append_left [t] hx)
        rw [← hmore, List.append_assoc, List.drop_left' hflat, List.flatMap_singleton]
        exact List.take_left' (hfull t hlast)
      obtain ⟨xs, hsplit, hgo⟩ := hc.read h hon hoff hk hpace hquiet hroom (he t hlast) (hfull t hlast) hread
      rw [List.filterMap_append, hev]
      rcases hgo with ⟨hc', hev'⟩ | ⟨hall, hoff', hcall, hev'⟩
      · refine .inl ⟨hc', ?_⟩
        rw [hev', hsplit, List.map_append]
      · refine .inr ⟨hoff', hcall, ?_⟩
        rw [hev', ← List.append_assoc, ← List.map_append, ← hsplit, hall, List.take_length]
    · obtain ⟨hnone, hchan⟩ := @listenTick_off cx _ classify t _ hoff'
      refine .inr ⟨?_, ?_, ?_⟩
      · rw [hchan]
        exact hoff'
      · rw [hchan]
        exact hcall
      · rw [hnone, List.append_nil]
        exact hev

end Call

/-- A number that is dialled in DTMF while the line is listened to is told digit by digit, and the
call is offered with it once, when there has been silence for long enough. The gap between two
digits must be shorter than that, and so must the silence before the first, with what the counter
still holds. -/
theorem Discerns.listenRun_offers {β : Type} (cx : R2Context) {sound : Waveform β} {classify : List β → Tone}
    {on off quiet rest : Nat} {digits : List Tone} {m : MediaChan} {ts : List (ReadTick β)}
    (h : Discerns sound classify) (hon : 305 ≤ on) (hoff : 305 ≤ off) (hk : ∀ d ∈ digits, (dtmfKey d).isSome)
    (hpace : 2 * on + off + chanReadSize ≤ dtmfMaxSilenceSamples)
    (hquiet : m.dtmfSilenceSamples + quiet + on ≤ dtmfMaxSilenceSamples)
    (hleft : chanReadSize ∣ m.dtmfSilenceSamples)
    (hroom : digits.length < maxDnisBuffer) (hm : m.chan.HoldsDigits m.chan [])
    (hfull : ∀ t ∈ ts, t.samples.length = chanReadSize) (he : ∀ t ∈ ts, t.env.Takes)
    (hrest : dtmfMaxSilenceSamples ≤ rest)
    (hts : ts.flatMap ReadTick.samples = dtmfStream sound on off quiet rest digits) :
    let r := listenRun cx classify ts ⟨m, [], dtmfRxInit true⟩
    r.2.filterMap Act.event? = digits.map .onDnisDigitReceived ++
        [.onCallOffered (cstr m.chan.ani) digits (tone2category cx cx.g2Tones.nationalSubscriber)
          m.chan.callerAniIsRestricted] ∧
      r.1.media.chan.callState = .offered := by
  intro r
  have hpre : ts.flatMap ReadTick.samples <+: dtmfStream sound on off quiet rest digits :=
    hts.symm ▸ List.prefix_refl _
  rcases h.listenRun_collects hon hoff hk hpace hquiet hleft hroom hm hfull he hpre with ⟨hc, -⟩ | ⟨-, hcall, hev⟩
  · -- so much silence completes the number
    have hsize : chanReadSize = 160 := rfl
    have hmax : dtmfMaxSilenceSamples = 4000 := rfl
    have hwhole := hc.whole
    have hshort := hc.short
    have hafter := hc.after
    have hlen : ts.length * chanReadSize = quiet + digits.length * (on + off) + rest := by
      rw [← length_readings hfull, hts, dtmfStream, List.length_append, List.length_append, length_dtmfSignal hk,
        List.length_replicate, List.length_replicate, Nat.add_assoc]
    rw [hsize] at hwhole hafter hlen
    omega
  · exact ⟨hev, hcall⟩

section Dialling

variable {β : Type} {sound : Waveform β} {cx : R2Context} {env : Env}

/-- What is left to send, however it is asked for. -/
def DtmfTx.Sends (sound : Waveform β) (tx : DtmfTx) (xs : List β) : Prop :=
  ∀ sizes, (Runs.exec (dtmfTxTick sound) sizes tx).2 = (Blocks.cut sizes xs).map some

theorem DtmfTx.Sends.write {tx : DtmfTx} {xs : List β} (h : tx.Sends sound xs) (n : Nat) :
    ∃ tx', dtmfTx sound n tx = some (xs.take n, tx') ∧ tx'.Sends sound (xs.drop n) := by
  have hone := h [n]
  rw [Runs.exec, Runs.exec, List.append_nil, Blocks.cut, Blocks.cut, List.map_singleton] at hone
  cases hx : dtmfTx sound n tx with
  | none => simp [dtmfTxTick, hx] at hone
  | some r =>
    obtain ⟨out, tx'⟩ := r
    simp only [dtmfTxTick, hx, List.cons.injEq, Option.some.injEq, and_true] at hone
    refine ⟨tx', by rw [hone], fun sizes => ?_⟩
    have hall := h (n :: sizes)
    simp only [Runs.exec, dtmfTxTick, hx, Blocks.cut, List.map_cons, List.singleton_append,
      List.cons.injEq] at hall
    exact hall.2

/-- A caller whose number is dialled. -/
structure R2Chan.Dials (c : R2Chan) : Prop where
  mfState : c.mfState ≠ .offState
  dialing : c.dialingDtmf = true
  direction : c.direction = .forward

/-- The call is accepted, whatever the other side makes of it, and nothing more is dialled. -/
theorem handleDtmfEnd_accepts {c : R2Chan} (h : c.Dials) :
    (handleDtmfEnd cx env c).dialingDtmf = false ∧
      (handleDtmfEnd cx env c).out.filterMap Act.event? =
        c.out.filterMap Act.event? ++ [.onCallAccepted .unknown] := by
  obtain ⟨⟨_, _, _, _, _, hf⟩, -, as, ho, hdisp⟩ := turnOffMfEngine_turnedOff cx c
  have hnone : as.filterMap Act.event? = [] := by
    rw [List.filterMap_eq_nil_iff]
    intro a ha
    cases a <;> first | rfl | exact (hdisp _ ha).elim
  have hdial : (turnOffMfEngine cx c).dialingDtmf = false := by
    rw [turnOffMfEngine, if_neg h.mfState]
    simp only [disposeMf]
    split_ifs <;> rfl
  have hdir : (turnOffMfEngine cx c).direction = .forward := by rw [hf]; exact h.direction
  rw [handleDtmfEnd, if_pos hdir]
  refine ⟨hdial, ?_⟩
  change ((turnOffMfEngine cx c).out ++ [Act.event (.onCallAccepted .unknown)]).filterMap Act.event? = _
  rw [ho, List.filterMap_append, List.filterMap_append, hnone, List.append_nil]
  rfl

/-- When it is, no write does anything. -/
theorem dialRun_off (ts : List WriteTick) {s : Dialler} (h : s.media.chan.dialingDtmf = false) :
    (dialRun cx sound ts s).2 = [] := by
  induction ts generalizing s with
  | nil => rfl
  | cons t ts ih =>
    have hoff : ¬ s.media.chan.dialingDtmf = true := by rw [h]; exact Bool.false_ne_true
    have hoff' : ¬ ((s.media.chan.start.dialingDtmf = true) ∧ false = true) := fun hx => Bool.false_ne_true hx.2
    have htick : dialTick cx sound s t = (⟨s.media.on R2Chan.start, s.tx⟩, []) := by
      rw [dialTick, if_neg hoff]
      simp only [mediaTick, mediaStep, handleWrite, MediaChan.on, if_neg hoff']
      rfl
    rw [dialRun, Runs.exec, htick, List.nil_append]
    exact ih h

/-- The samples go out in the parts that there is room for. With the first write that has none left
the call is accepted, and that is all. -/
theorem dialRun_sends {xs : List β} (ts : List WriteTick) {s : Dialler} (hm : s.media.chan.Dials)
    (htx : s.tx.Sends sound xs) (hroom : ∀ t ∈ ts, 0 < t.bufSize) :
    ∃ as, (dialRun cx sound ts s).2 =
        ((Blocks.cut (ts.map WriteTick.bufSize) xs).takeWhile fun b => !b.isEmpty).map .samples ++ as ∧
      ((as = [] ∧ [] ∉ Blocks.cut (ts.map WriteTick.bufSize) xs) ∨
        [] ∈ Blocks.cut (ts.map WriteTick.bufSize) xs ∧ as.flatMap Written.sent = [] ∧
          (as.filterMap Written.act?).filterMap Act.event? = [.onCallAccepted .unknown]) := by
  induction ts generalizing s xs with
  | nil => exact ⟨[], rfl, .inl ⟨rfl, List.not_mem_nil⟩⟩
  | cons t ts ih =>
    obtain ⟨hn, hroom⟩ := List.forall_mem_cons.mp hroom
    obtain ⟨tx', hwrite, htx'⟩ := htx.write t.bufSize
    have htick : dialTick cx sound s t =
        let n := mediaTick cx s.media ⟨t.env, .write ((xs.take t.bufSize).length = 0)⟩
        (⟨n.1, tx'⟩, .samples (xs.take t.bufSize) :: n.2.map .act) := by
      rw [dialTick, if_pos hm.dialing, hwrite]
    have hrun : ∀ m as, mediaTick cx s.media ⟨t.env, .write ((xs.take t.bufSize).length = 0)⟩ = (m, as) →
        (dialRun cx sound (t :: ts) s).2 =
          .samples (xs.take t.bufSize) :: (as.map .act ++ (dialRun cx sound ts ⟨m, tx'⟩).2) := by
      intro m as hma
      rw [dialRun, Runs.exec, htick, hma]
      rfl
    rw [List.map_cons, Blocks.cut]
    by_cases hx : xs.take t.bufSize = []
    · -- there is nothing left
      obtain ⟨hoff, hev⟩ := @handleDtmfEnd_accepts cx t.env s.media.chan.start
        ⟨hm.mfState, hm.dialing, hm.direction⟩
      have hend : mediaTick cx s.media ⟨t.env, .write ((xs.take t.bufSize).length = 0)⟩ =
          (s.media.on fun c => handleDtmfEnd cx t.env c.start, (handleDtmfEnd cx t.env s.media.chan.start).out) := by
        have hsent : ((xs.take t.bufSize).length = 0 : Bool) = true := by simp [hx]
        simp only [mediaTick, mediaStep, handleWrite, MediaChan.on]
        rw [if_pos ⟨hm.dialing, hsent⟩]
      rw [hrun _ _ hend, dialRun_off ts hoff, List.append_nil, hx]
      refine ⟨_, rfl, .inr ⟨List.mem_cons_self, ?_, ?_⟩⟩
      · simp [Written.sent, List.flatMap_map]
      · have hacts : ∀ as : List Act,
            (Written.samples ([] : List β) :: as.map .act).filterMap Written.act? = as := by
          intro as
          rw [List.filterMap_cons, List.filterMap_map]
          exact List.filterMap_some
        rw [hacts, hev]
        rfl
    · have hgo : mediaTick cx s.media ⟨t.env, .write ((xs.take t.bufSize).length = 0)⟩ =
          (s.media.on R2Chan.start, []) := by
        have hsent : ((xs.take t.bufSize).length = 0 : Bool) = false :=
          decide_eq_false fun h => hx (List.length_eq_zero_iff.mp h)
        simp only [mediaTick, mediaStep, handleWrite, MediaChan.on]
        rw [if_neg fun h => absurd h.2 (by rw [hsent]; exact Bool.false_ne_true)]
        rfl
      obtain ⟨as, he, has⟩ := ih (s := ⟨s.media.on R2Chan.start, tx'⟩) ⟨hm.mfState, hm.dialing, hm.direction⟩ htx' hroom
      have hmem : [] ∈ xs.take t.bufSize :: Blocks.cut (ts.map WriteTick.bufSize) (xs.drop t.bufSize) ↔
          [] ∈ Blocks.cut (ts.map WriteTick.bufSize) (xs.drop t.bufSize) := by
        rw [List.mem_cons, or_iff_right (Ne.symm hx)]
      rw [hrun _ _ hgo, he, hmem, List.takeWhile_cons_of_pos (by simpa using hx)]
      exact ⟨as, rfl, has⟩

end Dialling

/-- A number that one channel dials in DTMF is offered by the other, whatever parts it is written
and read in. The caller has its call accepted by then. -/
theorem dtmf_number_arrives {β : Type} (cx cx' : R2Context) {sound : Waveform β} {classify : List β → Tone}
    {data : Nat → UInt8} {tx : DtmfTx} {caller callee : MediaChan}
    {ws : List WriteTick} {ts : List (ReadTick β)} {quiet rest : Nat} (h : Discerns sound classify)
    (hon : 39 ≤ cx.dtmfOn) (hoff : 39 ≤ cx.dtmfOff) (hpace : 8 * (2 * cx.dtmfOn + cx.dtmfOff) + chanReadSize ≤ dtmfMaxSilenceSamples)
    (hk : ∀ d ∈ cstr caller.chan.dnis, (dtmfKey d).isSome) (hroom : (cstr caller.chan.dnis).length < maxDnisBuffer)
    (hd : dtmfDial data cx.dtmfOn cx.dtmfOff caller.chan.dnis = some (0, tx)) (hcaller : caller.chan.Dials)
    (hw : ∀ t ∈ ws, 0 < t.bufSize)
    (hall : .act (.event (.onCallAccepted .unknown)) ∈ (dialRun cx sound ws ⟨caller, tx⟩).2)
    (hcallee : callee.chan.HoldsDigits callee.chan []) (hleft : chanReadSize ∣ callee.dtmfSilenceSamples)
    (hquiet : callee.dtmfSilenceSamples + quiet + 8 * cx.dtmfOn ≤ dtmfMaxSilenceSamples)
    (hrest : dtmfMaxSilenceSamples ≤ rest)
    (hfull : ∀ t ∈ ts, t.samples.length = chanReadSize) (he : ∀ t ∈ ts, t.env.Takes)
    (hts : ts.flatMap ReadTick.samples = List.replicate quiet sound.silence ++
      ((dialRun cx sound ws ⟨caller, tx⟩).2.flatMap Written.sent ++ List.replicate rest sound.silence)) :
    ((dialRun cx sound ws ⟨caller, tx⟩).2.filterMap Written.act?).filterMap Act.event? = [.onCallAccepted .unknown] ∧
      (listenRun cx' classify ts ⟨callee, [], dtmfRxInit true⟩).2.filterMap Act.event? =
        (cstr caller.chan.dnis).map .onDnisDigitReceived ++
          [.onCallOffered (cstr callee.chan.ani) (cstr caller.chan.dnis) (tone2category cx' cx'.g2Tones.nationalSubscriber)
            callee.chan.callerAniIsRestricted] := by
  have hb : ∀ d ∈ cstr caller.chan.dnis, d < 256 := by
    intro d hm
    obtain ⟨t, ht⟩ := Option.isSome_iff_exists.mp (hk d hm)
    have hkeys : ∀ d ∈ dtmfPositions, d < 256 := by decide
    exact hkeys d (mem_dtmfPositions ht)
  obtain ⟨s, hd', ha, hrun⟩ := @dtmfDial_run _ sound data cx.dtmfOn cx.dtmfOff _ (dtmfDial_length hd) hb
  obtain rfl : s = tx := by
    rw [hd', Option.some.injEq, Prod.mk.injEq] at hd
    exact hd.2
  have htimes : (s.onTime : Int) = 8 * cx.dtmfOn ∧ (s.offTime : Int) = 8 * cx.dtmfOff := by
    rw [ha.onTime, ha.offTime]
    simp only [dtmfTxSetTiming, sampleRate]
    rw [if_pos (by omega), if_pos (by omega)]
    omega
  obtain ⟨as, hout, has⟩ := @dialRun_sends _ _ cx _ ws ⟨caller, s⟩ hcaller hrun hw
  have hacts : ∀ bs : List (List β), (bs.map Written.samples).filterMap Written.act? = [] := by
    intro bs
    rw [List.filterMap_map, List.filterMap_eq_nil_iff]
    exact fun _ _ => rfl
  have hsent : ∀ bs : List (List β), (bs.map Written.samples).flatMap Written.sent = bs.flatten := by
    intro bs
    rw [List.flatMap_map, List.flatMap_def]
    exact congrArg List.flatten (List.map_id bs)
  rcases has with ⟨rfl, -⟩ | ⟨hnil, hnone, hev⟩
  · rw [hout, List.append_nil] at hall
    obtain ⟨b, -, hb⟩ := List.mem_map.mp hall
    exact absurd hb (by simp)
  · rw [hout, List.flatMap_append, hsent, hnone, List.append_nil,
      Blocks.flatten_takeWhile_cut (by simpa using hw) hnil] at hts
    refine ⟨by rw [hout, List.filterMap_append, hacts, List.nil_append, hev], ?_⟩
    exact (h.listenRun_offers cx' (by omega) (by omega) hk (by omega) (by omega) hleft hroom hcallee hfull he hrest
      hts).1

/-- The caller of the number 42, when its tones are about to begin. -/
def dtmfCaller : MediaChan :=
  (mediaRun (setDtmfDialing 1 0 0 (configureItu 10 10 R2Context.zero)) [⟨Env.fair 0x9, .api .setIdle⟩,
    ⟨Env.fair 0x9, .cas⟩, ⟨Env.fair 0x9, .api (.makeCall none [52, 50] .nationalSubscriber false)⟩,
    ⟨Env.fair 0xD, .cas⟩, ⟨Env.fair 0xD, .timer 3⟩] MediaChan.new).1

example : dtmfCaller.chan.dialingDtmf = true ∧ cstr dtmfCaller.chan.dnis = [52, 50] := by decide +kernel

/-- What its sender has to send. -/
def dtmfCallerTx : DtmfTx := ((dtmfDial (fun _ => 0) 50 100 dtmfCaller.chan.dnis).getD (0, dtmfTxInit fun _ => 0)).2

/-- Written in parts of 1000 samples, and read after as many of silence, which the counter has
seen too. -/
theorem dtmf_number_arrives_42 :
    let cx := setDtmfDialing 1 0 0 (configureItu 10 10 R2Context.zero)
    let d := dialRun cx plainSound (List.replicate 4 ⟨Env.fair 0xD, 1000⟩) ⟨dtmfCaller, dtmfCallerTx⟩
    let line := List.replicate 960 none ++ (d.2.flatMap Written.sent ++ List.replicate 4000 none)
    let ts := (Blocks.cut (List.replicate 46 160) line).map fun samples => (⟨Env.fair 0x1, samples⟩ : ReadTick _)
    (d.2.filterMap Written.act?).filterMap Act.event? = [.onCallAccepted .unknown] ∧
      (listenRun dtmfInCx plainClassify ts ⟨dtmfSeized, [], dtmfRxInit true⟩).2.filterMap Act.event? =
        [.onDnisDigitReceived 52, .onDnisDigitReceived 50, .onCallOffered [] [52, 50]
          (tone2category dtmfInCx dtmfInCx.g2Tones.nationalSubscriber) false] := by
  intro cx d line ts
  have hnum : cstr dtmfCaller.chan.dnis = [52, 50] := by decide +kernel
  have hk : ∀ d ∈ cstr dtmfCaller.chan.dnis, (dtmfKey d).isSome := by
    rw [hnum]
    decide
  have hd : dtmfDial (fun _ => 0) cx.dtmfOn cx.dtmfOff dtmfCaller.chan.dnis = some (0, dtmfCallerTx) := by
    obtain ⟨tx, hx, -⟩ := @dtmfDial_run _ plainSound (fun _ => 0) 50 100 dtmfCaller.chan.dnis
      (by rw [hnum]; decide) (by rw [hnum]; decide)
    rw [dtmfCallerTx, hx]
    exact hx
  have hcaller : dtmfCaller.chan.Dials := ⟨by decide +kernel, by decide +kernel, by decide +kernel⟩
  have hall : .act (.event (.onCallAccepted .unknown)) ∈ d.2 := by
    decide +kernel
  have hm : dtmfSeized.chan.HoldsDigits dtmfSeized.chan [] :=
    ⟨by decide +kernel, by decide +kernel, by decide +kernel, by decide +kernel, by decide +kernel,
      ⟨List.replicate 79 0, by decide +kernel⟩, by decide +kernel, rfl, rfl⟩
  have hfull : ∀ t ∈ ts, t.samples.length = chanReadSize := by
    intro t ht
    obtain ⟨x, hx, rfl⟩ := List.mem_map.mp ht
    have hparts : ∀ x ∈ Blocks.cut (List.replicate 46 160) line, x.length = 160 := by decide +kernel
    exact hparts x hx
  have he : ∀ t ∈ ts, t.env.Takes := by
    intro t ht
    obtain ⟨x, -, rfl⟩ := List.mem_map.mp ht
    exact ⟨fun _ => rfl, fun _ => rfl⟩
  have hts : ts.flatMap ReadTick.samples = line := by
    rw [List.flatMap_map, List.flatMap_def, List.map_id', Blocks.flatten_cut]
    refine List.take_of_length_le ?_
    decide +kernel
  have hx := @dtmf_number_arrives _ cx dtmfInCx _ _ _ _ _ _ (List.replicate 4 ⟨Env.fair 0xD, 1000⟩) _ _ _ plain_discerns
    (by decide)
    (by decide) (by decide) hk
    (by decide +kernel) hd hcaller (by decide) hall hm (by decide +kernel) (by decide +kernel) le_rfl hfull he hts
  rw [hnum] at hx
  exact hx

end OpenR2
