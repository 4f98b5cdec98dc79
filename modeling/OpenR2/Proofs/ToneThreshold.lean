import Mathlib.Data.List.Infix
import OpenR2.Dispatch
import OpenR2.Lib.Gate
import OpenR2.Requests
import OpenR2.Proofs.CallSteps

namespace OpenR2

section Elapsed

variable {now since : Timeval}

theorem timediff_sameSecond (h : now.tvSec = since.tvSec) :
    timediff now since = (now.tvUsec - since.tvUsec).tdiv 1000 := if_pos h

theorem timediff_nextSecond (hn : now.Proper) (hs : since.Proper) (h : now.tvSec ≠ since.tvSec) :
    timediff now since = now.tvUsec / 1000 + if since.tvUsec = 0 then 0 else 1000 - since.tvUsec / 1000 := by
  simp only [timediff, if_neg h, Int.tdiv_eq_ediv_of_nonneg hn.nonneg, Int.tdiv_eq_ediv_of_nonneg hs.nonneg]
  split_ifs <;> omega

/-- `timediff` is right within a second, and in the next one unless the second began with
the earlier time. -/
theorem timediff_exact_iff (hn : now.Proper) (hs : since.Proper) (hle : since.micros ≤ now.micros) :
    (1000 * timediff now since - (now.micros - since.micros)).natAbs < 1000 ↔
      now.tvSec = since.tvSec ∨ now.tvSec = since.tvSec + 1 ∧ since.tvUsec ≠ 0 := by
  obtain ⟨n0, n1⟩ := hn
  obtain ⟨s0, s1⟩ := hs
  by_cases hsec : now.tvSec = since.tvSec
  · have hle : since.tvUsec ≤ now.tvUsec := by
      simp only [Timeval.micros] at hle
      omega
    rw [timediff_sameSecond hsec, Int.tdiv_eq_ediv_of_nonneg (by omega)]
    simp only [Timeval.micros, hsec, true_or, iff_true]
    omega
  · rw [timediff_nextSecond ⟨n0, n1⟩ ⟨s0, s1⟩ hsec]
    simp only [Timeval.micros] at hle ⊢
    split_ifs <;> omega

/-- A millisecond before the end of a second, and three after it. -/
theorem timediff_exact_next : (1000 * timediff ⟨8, 3000⟩ ⟨7, 999000⟩ -
      ((⟨8, 3000⟩ : Timeval).micros - (⟨7, 999000⟩ : Timeval).micros)).natAbs < 1000 ↔
    (8 : Int) = 7 ∨ (8 : Int) = 7 + 1 ∧ (999000 : Int) ≠ 0 :=
  timediff_exact_iff ⟨by decide, by decide⟩ ⟨by decide, by decide⟩ (by decide)

/-- Two seconds and a half count as one and a half. -/
theorem timediff_forgets_seconds : ¬ ∀ now since : Timeval, now.Proper → since.Proper →
    since.micros ≤ now.micros → now.micros - since.micros < 2 ^ 31 * 1000 →
      (1000 * timediff now since - (now.micros - since.micros)).natAbs < 1000 := by
  intro h
  have hx := h ⟨9, 500000⟩ ⟨7, 1000⟩ ⟨by decide, by decide⟩ ⟨by decide, by decide⟩ (by decide) (by decide)
  exact absurd hx (by decide)

end Elapsed

section Threshold

variable (cx : R2Context)

/-- Long enough, as `check_threshold` counts. -/
def Persists (now since : Timeval) : Prop := cx.mfThreshold ≤ timediff now since

instance : DecidableRel (Persists cx) := fun _ _ => inferInstanceAs (Decidable (_ ≤ _))

/-- In the next second, `timediff` may count a millisecond that is not over. -/
structure RoundsUp (now since : Timeval) : Prop where
  second : now.tvSec = since.tvSec + 1
  exact : timediff now since = cx.mfThreshold
  early : now.tvUsec % 1000 < since.tvUsec % 1000

instance : DecidableRel (RoundsUp cx) := fun now since =>
  decidable_of_iff (now.tvSec = since.tvSec + 1 ∧ timediff now since = cx.mfThreshold ∧
    now.tvUsec % 1000 < since.tvUsec % 1000) ⟨fun ⟨a, b, c⟩ => ⟨a, b, c⟩, fun ⟨a, b, c⟩ => ⟨a, b, c⟩⟩

variable {cx}

theorem Persists.micros {now since : Timeval} (hn : now.Proper) (hs : since.Proper)
    (hle : since.micros ≤ now.micros) (h : Persists cx now since) (hr : ¬ RoundsUp cx now since) :
    since.micros + 1000 * cx.mfThreshold ≤ now.micros := by
  obtain ⟨n0, n1⟩ := hn
  obtain ⟨s0, s1⟩ := hs
  simp only [Timeval.micros] at hle ⊢
  rcases Int.lt_trichotomy now.tvSec since.tvSec with hsec | hsec | hsec
  · omega
  · rw [Persists, timediff_sameSecond hsec, Int.tdiv_eq_ediv_of_nonneg (by omega)] at h
    omega
  · have hd : timediff now since ≤ now.tvUsec / 1000 + (1000 - since.tvUsec / 1000) := by
      rw [timediff_nextSecond ⟨n0, n1⟩ ⟨s0, s1⟩ (Int.ne_of_gt hsec)]
      split_ifs <;> omega
    have hx : cx.mfThreshold ≤ timediff now since := h
    by_cases he : now.tvSec = since.tvSec + 1 ∧ timediff now since = cx.mfThreshold
    · have hm : ¬ now.tvUsec % 1000 < since.tvUsec % 1000 := fun hm => hr ⟨he.1, he.2, hm⟩
      omega
    · omega

end Threshold

/-- What the detector has handled, what is to follow it, and since when. -/
def R2Chan.gate (c : R2Chan) : Gate Tone Timeval := ⟨c.mfReadTone, c.mfThresholdTone, c.mfThresholdTime⟩

namespace Tick

/-- An output of the detector, and its time. -/
def sample? (t : Tick) : Option (Timeval × Tone) :=
  match t.input with
  | .mfTone tone => (t.env.gettimeofday []).map (·, tone)
  | _ => none

/-- An output has one time, however often the clock is read. -/
def Clocked (t : Tick) : Prop := ∀ tone, t.input = .mfTone tone →
  ∃ now, now.Proper ∧ ∀ as, t.env.gettimeofday as = some now

end Tick

def samples (ts : List Tick) : List (Timeval × Tone) := ts.filterMap Tick.sample?

section Gates

variable {cx : R2Context} {env : Env} {c d : R2Chan} {t : Tick}

theorem Turn.grows {ways : Direction → Prop} (h : Turn cx env ways c d) : ∃ as, d.out = c.out ++ as := by
  cases h with
  | aside _ h =>
    obtain ⟨as, ho, -⟩ := h.out
    exact ⟨as, ho⟩
  | reset _ h =>
    obtain ⟨as, ho, -⟩ := h.out
    exact ⟨as ++ [.callState .idle], by rw [ho, List.append_assoc]⟩
  | seize _ _ h => exact ⟨_, h.out⟩
  | place _ h => exact ⟨_, h.out⟩
  | dial hr =>
    have h : Turn cx env (fun _ => False) c _ := .dial c hr
    obtain ⟨as, ho, -⟩ := h.silent id
    exact ⟨as, ho⟩
  | send _ _ h =>
    obtain ⟨as, ho, -⟩ := h.out
    exact ⟨as, ho⟩
  | collect _ _ h =>
    obtain ⟨as, ho, -⟩ := h.out
    exact ⟨as, ho⟩

/-- The gate stands as it is, or the call is over. -/
def R2Chan.Shut (g : Gate Tone Timeval) (d : R2Chan) : Prop := .callState .idle ∈ d.out ∨ d.gate = g

theorem R2Chan.gate_numbers (h : d.numbers = c.numbers) : d.gate = c.gate :=
  congrArg (fun n : Numbers => (⟨n.mfReadTone, n.mfThresholdTone, n.mfThresholdTime⟩ : Gate Tone Timeval)) h

theorem R2Chan.Sends.gate (h : c.Sends d) : d.gate = c.gate := by
  rw [R2Chan.gate, h.mfReadTone, h.mfThresholdTone, h.mfThresholdTime]
  rfl

theorem handleProtocolError_idle (reason : ProtocolError) :
    .callState .idle ∈ (handleProtocolError cx env reason c).out := by
  obtain ⟨as, ho, -⟩ := handleProtocolError_out cx c env reason
  rw [ho]
  simp

theorem Turn.shut {ways : Direction → Prop} {g : Gate Tone Timeval} (h : Turn cx env ways c d)
    (hc : c.Shut g) : d.Shut g := by
  rcases hc with hc | hc
  · obtain ⟨as, ho⟩ := h.grows
    exact .inl (ho ▸ List.mem_append_left as hc)
  cases h with
  | aside _ h => exact .inr ((R2Chan.gate_numbers h.numbers).trans hc)
  | reset _ h =>
    obtain ⟨as, ho, -⟩ := h.out
    exact .inl (by rw [ho]; simp)
  | seize _ _ h => exact .inr ((R2Chan.gate_numbers h.numbers).trans hc)
  | place _ h =>
    obtain ⟨ani, dnis, category, restricted, hn⟩ := h.numbers
    exact .inr ((R2Chan.gate_numbers (c := keepNumbers cx ani dnis category restricted c) hn).trans hc)
  | dial =>
    rcases mfSendDnis_answers cx env ((c.setR2State .seizeAckRxd).setMfGroup .gi) 0 with
      h | ⟨e, reason, -, he⟩
    · exact .inr (h.gate.trans hc)
    · rw [he]
      exact .inl (handleProtocolError_idle reason)
  | send _ _ h => exact .inr (h.gate.trans hc)
  | collect _ _ h =>
    refine .inr ?_
    rw [R2Chan.gate, h.mfReadTone, h.mfThresholdTone, h.mfThresholdTime]
    exact hc

theorem Turns.shut {ways : Direction → Prop} (h : Turns cx env ways c d) : d.Shut c.gate := by
  induction h with
  | refl => exact .inr rfl
  | tail _ h ih => exact h.shut ih

/-- What `check_threshold` notes, and when it lets a tone pass. -/
theorem checkThreshold_gate (hT : 0 < cx.mfThreshold) {now : Timeval}
    (hnow : ∀ as, env.gettimeofday as = some now) (tone : Tone) (c : R2Chan) :
    ((checkThreshold cx env tone c).2 = 0 ↔
      tone = c.mfThresholdTone ∧ Persists cx now c.mfThresholdTime) ∧
    (checkThreshold cx env tone c).1.gate =
      if tone = c.mfThresholdTone then c.gate else { c.gate with candidate := tone, since := now } := by
  have hz : timediff now now = 0 := by
    simp [timediff]
  have hl : ∀ d : R2Chan, (toneLongEnough cx env d).1.gate = d.gate ∧
      ((toneLongEnough cx env d).2 = 0 ↔ Persists cx now d.mfThresholdTime) := by
    intro d
    simp only [toneLongEnough, hnow, Persists]
    refine ⟨rfl, ?_⟩
    split_ifs with h
    · exact iff_of_false (by decide) (by omega)
    · exact iff_of_true rfl (by omega)
  have hne : cx.mfThreshold ≠ 0 := by omega
  simp only [checkThreshold, if_neg hne, hnow]
  by_cases ht : tone = c.mfThresholdTone
  · rw [if_neg (not_not.mpr ht.symm), if_pos ht]
    exact ⟨(hl c).2.trans (and_iff_right ht).symm, (hl c).1⟩
  · rw [if_pos fun h => ht h.symm, if_neg ht]
    refine ⟨iff_of_false ?_ fun h => ht h.1, (hl _).1⟩
    rw [(hl _).2]
    show ¬ cx.mfThreshold ≤ timediff now now
    omega

theorem Tick.Clocked.sample? (h : t.Clocked) {tone : Tone} (hi : t.input = .mfTone tone) :
    ∃ now, now.Proper ∧ t.sample? = some (now, tone) ∧ ∀ as, t.env.gettimeofday as = some now := by
  obtain ⟨now, hp, hnow⟩ := h tone hi
  refine ⟨now, hp, ?_, hnow⟩
  simp only [Tick.sample?, hi, hnow, Option.map_some]

theorem Tick.sample?_eq_none (hi : ∀ tone, t.input ≠ .mfTone tone) : t.sample? = none := by
  cases he : t.input with
  | mfTone tone => exact absurd he (hi tone)
  | _ => simp only [Tick.sample?, he]

/-- A step that does not end the call moves the gate by its sample, if it has one. -/
theorem tick_gate (hT : 0 < cx.mfThreshold) (hm : c.mfState ≠ .offState) (hc : t.Clocked)
    (hl : .callState .idle ∉ (tick cx c t).2) : (tick cx c t).1.gate =
      match t.sample? with
      | some (now, tone) => c.gate.hear (Persists cx) now tone
      | none => c.gate := by
  have hx : ∀ {g : Gate Tone Timeval}, (tick cx c t).1.Shut g → (tick cx c t).1.gate = g :=
    fun h => h.resolve_left hl
  by_cases hi : ∃ tone, t.input = .mfTone tone
  · obtain ⟨tone, hi⟩ := hi
    obtain ⟨now, -, hs, hnow⟩ := hc.sample? hi
    obtain ⟨hz, hg⟩ := checkThreshold_gate hT hnow tone c.start
    rw [hs]
    change _ = c.start.gate.hear (Persists cx) now tone
    have hm : c.start.mfState ≠ .offState := hm
    have hd := tick_detects cx c t hi
    generalize (tick cx c t).1 = d at hd hx ⊢
    cases hd with
    | ignores h => exact (Gate.hear_value (h.resolve_left hm).symm).symm
    | breaks => exact hx (.inl (handleProtocolError_idle _))
    | waits hr hw =>
      have hr : tone ≠ c.start.gate.value := Ne.symm hr
      by_cases hc : tone = c.start.mfThresholdTone
      · rw [hg, if_pos hc]
        exact (Gate.hear_wait hr hc fun hp => hw (hz.mpr ⟨hc, hp⟩)).symm
      · rw [hg, if_neg hc]
        exact (Gate.hear_change hr hc).symm
    | toneOn ht _ hr hp =>
      obtain ⟨hc, hp⟩ := hz.mp hp
      have hv : tone ≠ c.start.gate.value := fun h => ht (h.trans hr)
      rw [Gate.hear_pass hv hc hp, hx (handleToneOn_turns cx t.env tone _).shut]
      rw [if_pos hc] at hg
      exact congrArg (fun g : Gate Tone Timeval => { g with value := tone }) hg
    | toneOff ht _ hr hp =>
      subst ht
      obtain ⟨hc, hp⟩ := hz.mp hp
      have hv : 0 ≠ c.start.gate.value := Ne.symm hr
      obtain ⟨e, he, ho⟩ := handleToneOff_turns cx t.env (checkThreshold cx t.env 0 c.start).1
      rw [if_pos hc] at hg
      rw [Gate.hear_pass hv hc hp]
      rcases he.shut with h | h
      · exact hx (.inl (by rw [ho]; exact h))
      · rw [ho]
        exact congrArg (fun g : Gate Tone Timeval => { g with value := 0 }) (h.trans hg)
  · have hi : ∀ tone, t.input ≠ .mfTone tone := fun tone he => hi ⟨tone, he⟩
    rw [Tick.sample?_eq_none hi]
    exact hx (tick_turns cx c t hi).shut

end Gates

section Runs

variable {cx : R2Context} {c : R2Chan} {js : List Tick} {t : Tick}

theorem samples_snoc (js : List Tick) (t : Tick) : samples (js ++ [t]) = samples js ++ t.sample?.toList := by
  rw [samples, List.filterMap_append, List.filterMap_cons, List.filterMap_nil]
  cases t.sample? <;> rfl

end Runs

variable (cx : R2Context)

/-- The MF engine is on after each of these steps, and the call is not over. -/
def InMf (js : List Tick) (c : R2Chan) : Prop :=
  ∀ ks, ks <+: js → Live cx ks c ∧ (run cx ks c).1.mfState ≠ .offState

/-- An output of the detector is misjudged: it is not compared though it breaks off the tone
that is to follow, it is taken to go on with a tone of before, or the time is rounded up. -/
def Misjudged (js : List Tick) (c : R2Chan) (t : Tick) : Prop :=
  ∃ now tone, t.sample? = some (now, tone) ∧
    ((run cx js c).1.gate.Misjudges (samples js) tone ∨
      RoundsUp cx now (run cx js c).1.mfThresholdTime ∧ tone = (run cx js c).1.mfThresholdTone ∧
        tone ≠ (run cx js c).1.mfReadTone)

/-- The detector takes an output for a change, and handles it. -/
def Changes (c : R2Chan) (t : Tick) (tone : Tone) : Prop :=
  t.input = .mfTone tone ∧ c.mfState ≠ .offState ∧ c.mfReadTone ≠ tone ∧
    (tone = 0 ∨ c.mfReadTone = 0) ∧ (checkThreshold cx t.env tone c.start).2 = 0

section Runs

variable {cx} {c : R2Chan} {js : List Tick} {t : Tick}

theorem InMf.initial {ks : List Tick} (h : InMf cx js c) (hk : ks <+: js) : InMf cx ks c :=
  fun _ hl => h _ (hl.trans hk)

theorem run_anchored (hT : 0 < cx.mfThreshold) (hp : InMf cx js c) (hc : ∀ u ∈ js, u.Clocked)
    (hn : ∀ ks u, ks ++ [u] <+: js → ¬ Misjudged cx ks c u) :
    (run cx js c).1.gate.Anchored (samples js) := by
  induction js using List.reverseRecOn with
  | nil => exact fun h => absurd rfl h
  | append_singleton js u ih =>
    have hj : js <+: js ++ [u] := List.prefix_append js [u]
    have ih := ih (hp.initial hj) (fun v hv => hc v (List.mem_append_left _ hv))
      fun ks v hk => hn ks v (hk.trans hj)
    obtain ⟨hl, -⟩ := hp _ List.prefix_rfl
    have hl : .callState .idle ∉ (tick cx (run cx js c).1 u).2 := by
      intro hm
      refine hl _ ?_ rfl
      rw [run, Runs.exec_append]
      exact List.mem_append_right _ (List.mem_append_left _ hm)
    have hg := tick_gate hT (hp js hj).2 (hc u (by simp)) hl
    rw [run_snoc, hg, samples_snoc]
    cases hs : u.sample? with
    | none => simpa using ih
    | some x =>
      obtain ⟨now, tone⟩ := x
      exact ih.hear fun hx => hn js u List.prefix_rfl ⟨now, tone, hs, .inl hx⟩

theorem samples_proper (hc : ∀ u ∈ js, u.Clocked) {now : Timeval} {tone : Tone}
    (h : (now, tone) ∈ samples js) : now.Proper := by
  obtain ⟨u, hu, hs⟩ := List.mem_filterMap.mp h
  by_cases hi : ∃ tone, u.input = .mfTone tone
  · obtain ⟨tone', hi⟩ := hi
    obtain ⟨now', hp, hs', -⟩ := (hc u hu).sample? hi
    rw [hs'] at hs
    injection hs with hs
    injection hs with hs
    exact hs ▸ hp
  · rw [Tick.sample?_eq_none fun tone he => hi ⟨tone, he⟩] at hs
    exact nomatch hs

end Runs

/-- A change that is handled has been there for the time of the threshold, and nothing else in
between, as long as no output is misjudged. -/
theorem tone_continuous {cx : R2Context} (hT : 0 < cx.mfThreshold) {c : R2Chan} {js : List Tick} {t : Tick}
    (hp : InMf cx js c) (hc : ∀ u ∈ js ++ [t], u.Clocked)
    (hmono : (samples (js ++ [t])).Pairwise fun x y => x.1.micros ≤ y.1.micros)
    (hn : ∀ ks u, ks ++ [u] <+: js ++ [t] → ¬ Misjudged cx ks c u) {tone : Tone}
    (ht : Changes cx (run cx js c).1 t tone) :
    ∃ now since, t.sample? = some (now, tone) ∧ Gate.Steady tone since (samples js) ∧
      since.micros + 1000 * cx.mfThreshold ≤ now.micros := by
  have hc' : ∀ u ∈ js, u.Clocked := fun u hu => hc u (List.mem_append_left _ hu)
  have ha := run_anchored hT hp hc' fun ks u hk => hn ks u (hk.trans (List.prefix_append js [t]))
  obtain ⟨hi, -, hr, -, hz⟩ := ht
  obtain ⟨now, hnow, hs, hclock⟩ := (hc t (by simp)).sample? hi
  obtain ⟨hcand, hlong⟩ := (checkThreshold_gate hT hclock tone (run cx js c).1.start).1.mp hz
  have hmis : ¬ Misjudged cx js c t := hn js t List.prefix_rfl
  have hst : Gate.Steady tone (run cx js c).1.mfThresholdTime (samples js) :=
    ha.steady (fun hx => hmis ⟨now, tone, hs, .inl hx⟩) (Ne.symm hr) hcand
  have hm : ((run cx js c).1.mfThresholdTime, tone) ∈ samples js := by
    obtain ⟨ks, ls, he, -⟩ := hst
    rw [he]
    simp
  rw [samples_snoc, hs] at hmono
  have hle := (List.pairwise_append.mp hmono).2.2 _ hm (now, tone) (by simp)
  exact ⟨now, _, hs, hst, hlong.micros hnow (samples_proper hc' hm) hle
    fun hx => hmis ⟨now, tone, hs, .inr ⟨hx, hcand, Ne.symm hr⟩⟩⟩

/-- The ITU tables, with a threshold of 100 ms. -/
def thresholdContext : R2Context := { configureItu 10 4 R2Context.zero with mfThreshold := 100 }

/-- An output at a time, in microseconds. -/
def outputTick (micros : Int) (tone : Tone) : Tick :=
  ⟨{ Env.fair 0x1 with gettimeofday := fun _ => some ⟨0, micros⟩ }, .mfTone tone⟩

/-- An incoming call has begun. -/
def seizedChannelIn (cx : R2Context) : R2Chan := (run cx seizeTicks (restingChannel cx)).1

theorem tone_continuous_itu :
    ∃ now since, (outputTick 100000 Tone.t5).sample? = some (now, Tone.t5) ∧
      Gate.Steady Tone.t5 since (samples [outputTick 0 Tone.t5]) ∧
        since.micros + 1000 * thresholdContext.mfThreshold ≤ now.micros := by
  refine @tone_continuous thresholdContext (by decide) (seizedChannelIn thresholdContext)
    [outputTick 0 Tone.t5] (outputTick 100000 Tone.t5) (fun ks hk => ?_) (fun u hu tone _ => ?_)
    (by decide +kernel) (fun ks u hk => ?_) Tone.t5 ⟨rfl, by decide +kernel, by decide +kernel, by decide +kernel,
      by decide +kernel⟩
  · have h : ∀ ks ∈ [outputTick 0 Tone.t5].inits, Live thresholdContext ks (seizedChannelIn thresholdContext) ∧
        (run thresholdContext ks (seizedChannelIn thresholdContext)).1.mfState ≠ .offState := by
      decide +kernel
    exact h ks ((List.mem_inits ks _).mpr hk)
  · simp only [List.cons_append, List.nil_append, List.mem_cons, List.not_mem_nil, or_false] at hu
    rcases hu with rfl | rfl
    · exact ⟨⟨0, 0⟩, ⟨by decide, by decide⟩, fun _ => rfl⟩
    · exact ⟨⟨0, 100000⟩, ⟨by decide, by decide⟩, fun _ => rfl⟩
  · rintro ⟨now, tone, hs, hm⟩
    have h : ks = [] ∧ u = outputTick 0 Tone.t5 ∨
        ks = [outputTick 0 Tone.t5] ∧ u = outputTick 100000 Tone.t5 := by
      cases ks with
      | nil =>
        have hu : u = outputTick 0 Tone.t5 := by simpa using hk
        exact .inl ⟨rfl, hu⟩
      | cons v ks =>
        obtain ⟨rfl, hk⟩ := List.cons_prefix_cons.mp hk
        cases ks with
        | nil =>
          have hu : u = outputTick 100000 Tone.t5 := by simpa using hk
          exact .inr ⟨rfl, hu⟩
        | cons w ks =>
          have hlen := hk.length_le
          simp at hlen
    rcases h with ⟨rfl, rfl⟩ | ⟨rfl, rfl⟩
    · injection hs with hs
      injection hs with h1 h2
      subst h1 h2
      revert hm
      decide +kernel
    · injection hs with hs
      injection hs with h1 h2
      subst h1 h2
      revert hm
      decide +kernel

/-- A gap that is not compared does not break a tone off. -/
theorem gap_not_seen :
    ¬ ∀ (cx : R2Context) (c : R2Chan) (js : List Tick) (t : Tick) (tone : Tone), 0 < cx.mfThreshold →
      InMf cx js c → (∀ u ∈ js ++ [t], u.Clocked) →
        (samples (js ++ [t])).Pairwise (fun x y => x.1.micros ≤ y.1.micros) →
          Changes cx (run cx js c).1 t tone →
            ∃ now since, t.sample? = some (now, tone) ∧ Gate.Steady tone since (samples js) ∧
              since.micros + 1000 * cx.mfThreshold ≤ now.micros := by
  intro h
  let js := [outputTick 0 Tone.t5, outputTick 20000 0]
  have hp : InMf thresholdContext js (seizedChannelIn thresholdContext) := by
    have h : ∀ ks ∈ js.inits, Live thresholdContext ks (seizedChannelIn thresholdContext) ∧
        (run thresholdContext ks (seizedChannelIn thresholdContext)).1.mfState ≠ .offState := by
      decide +kernel
    exact fun ks hk => h ks ((List.mem_inits ks _).mpr hk)
  have hc : ∀ u ∈ js ++ [outputTick 120000 Tone.t5], u.Clocked := by
    intro u hu tone _
    simp only [js, List.cons_append, List.nil_append, List.mem_cons, List.not_mem_nil, or_false] at hu
    rcases hu with rfl | rfl | rfl
    · exact ⟨⟨0, 0⟩, ⟨by decide, by decide⟩, fun _ => rfl⟩
    · exact ⟨⟨0, 20000⟩, ⟨by decide, by decide⟩, fun _ => rfl⟩
    · exact ⟨⟨0, 120000⟩, ⟨by decide, by decide⟩, fun _ => rfl⟩
  obtain ⟨now, since, -, hs, -⟩ := h thresholdContext (seizedChannelIn thresholdContext) js
    (outputTick 120000 Tone.t5) Tone.t5 (by decide) hp hc (by decide +kernel)
    ⟨rfl, by decide +kernel, by decide +kernel, by decide +kernel, by decide +kernel⟩
  have hs : Gate.Steady Tone.t5 since ([((⟨0, 0⟩ : Timeval), Tone.t5)] ++ [((⟨0, 20000⟩ : Timeval), 0)]) := hs
  exact absurd hs.last (by decide)

end OpenR2
