import OpenR2.Proofs.DtmfDigits

namespace OpenR2

/-- The DTMF detector looks at what is read. -/
def R2Chan.Detecting (c : R2Chan) : Prop := c.mfState ≠ .offState ∧ c.detectingDtmf = true

instance (c : R2Chan) : Decidable c.Detecting := by unfold R2Chan.Detecting; exact inferInstance

/-- The detector reports digits. -/
def Heard.reports (h : Heard) : Bool := h.dtmfDigits.any Option.isSome

/-- The silent samples up to the last of these inputs, counted from the last report or, without
one, from the first of them. -/
def silentSamples (ts : List MediaTick) : Nat :=
  ts.foldl (fun n t => match t.input with
    | .read h => (if h.reports then 0 else n) + if h.dtmfStatus then 0 else chanReadSize
    | _ => n) 0

def digitsReported (ts : List MediaTick) : Bool :=
  ts.any fun t => match t.input with
    | .read h => h.reports
    | _ => false

section Silence

variable (cx : R2Context)

/-- All through these inputs the channel detects the digits of one call. -/
structure DetectsCall (ts : List MediaTick) (m : MediaChan) : Prop where
  detecting : ∀ js, js <+: ts → (mediaRun cx js m).1.chan.Detecting
  call : .callState .idle ∉ (mediaRun cx ts m).2

/-- The step calls `openr2_proto_handle_dtmf_end` after the reports of the buffer. -/
def HandlesDtmfEnd (env : Env) (h : Heard) (m : MediaChan) : Prop :=
  (mediaStep cx env (.read h) m).chan =
    handleDtmfEnd cx env (onDtmfReports cx env h.dtmfDigits (m.on R2Chan.start)).chan

/-- The number ends with the buffer that completes the silence after it, and with no other. -/
def EndsOnTime (ts : List MediaTick) (m : MediaChan) : Prop :=
  ∀ js env h, js ++ [⟨env, .read h⟩] <+: ts → DetectsCall cx js m →
    (HandlesDtmfEnd cx env h (mediaRun cx js m).1 ↔
      h.dtmfStatus = false ∧ silentSamples (js ++ [⟨env, .read h⟩]) = dtmfMaxSilenceSamples)

/-- What the counter holds at first does not show: it is nothing, or there is no silent buffer
before the first report at which the counter, or the silence itself, comes to its end. -/
def LeftoverHidden (ts : List MediaTick) (m : MediaChan) : Prop :=
  m.dtmfSilenceSamples = 0 ∨
    ∀ js env h, js ++ [⟨env, .read h⟩] <+: ts → DetectsCall cx js m → h.dtmfStatus = false →
      digitsReported (js ++ [⟨env, .read h⟩]) = false →
        silentSamples (js ++ [⟨env, .read h⟩]) ≠ dtmfMaxSilenceSamples ∧
          m.dtmfSilenceSamples + silentSamples (js ++ [⟨env, .read h⟩]) ≠ dtmfMaxSilenceSamples

variable {cx} {env : Env} {c : R2Chan} {m : MediaChan}

theorem silentSamples_snoc (ts : List MediaTick) (t : MediaTick) :
    silentSamples (ts ++ [t]) = match t.input with
      | .read h => (if h.reports then 0 else silentSamples ts) + if h.dtmfStatus then 0 else chanReadSize
      | _ => silentSamples ts := by
  simp only [silentSamples, List.foldl_append, List.foldl_cons, List.foldl_nil]

theorem digitsReported_snoc (ts : List MediaTick) (t : MediaTick) :
    digitsReported (ts ++ [t]) = (digitsReported ts || match t.input with
      | .read h => h.reports
      | _ => false) := by
  simp only [digitsReported, List.any_append, List.any_cons, List.any_nil, Bool.or_false]

/-- Every report sets the counter back. -/
theorem onDtmfReports_silence (reports : List (Option (List Tone))) (m : MediaChan) :
    (onDtmfReports cx env reports m).dtmfSilenceSamples =
      if reports.any Option.isSome then 0 else m.dtmfSilenceSamples := by
  induction reports generalizing m with
  | nil => rfl
  | cons digits reports ih =>
    have hr := ih (onDtmfReceived cx env digits m)
    cases digits with
    | none => exact hr
    | some s =>
      have hz : (onDtmfReceived cx env (some s) m).dtmfSilenceSamples = 0 := rfl
      rw [hz, ite_self] at hr
      exact hr

/-- Something is told to the user at the end of the digits, so that it shows. -/
theorem handleDtmfEnd_ne (c : R2Chan) : handleDtmfEnd cx env c ≠ c := by
  obtain ⟨-, -, as, ho, -⟩ := turnOffMfEngine_turnedOff cx c
  have hlong : ∃ bs e, (handleDtmfEnd cx env c).out = c.out ++ bs ++ [.event e] := by
    simp only [handleDtmfEnd]
    generalize turnOffMfEngine cx c = d at ho ⊢
    split_ifs
    · exact ⟨as, _, by rw [← ho]; rfl⟩
    · simp only [offerCall]
      split_ifs
      · obtain ⟨bs, hb, -⟩ := handleProtocolError_out cx (d.setCallerCategory cx.g2Tones.nationalSubscriber)
          env .invalidR2State
        exact ⟨as ++ bs ++ [.callState .idle, .setCas (cx.casSignals .idle ||| cx.casNonr2Bits)],
          .onProtocolError .invalidR2State, by
          rw [hb, show (d.setCallerCategory cx.g2Tones.nationalSubscriber).out = d.out from rfl, ho]
          simp⟩
      · exact ⟨as ++ [.callState .offered], _, by
          rw [← List.append_assoc, ← ho]
          rfl⟩
  obtain ⟨bs, e, hb⟩ := hlong
  intro he
  have hl := congrArg (fun d : R2Chan => d.out.length) he
  simp [hb] at hl

/-- A buffer that the detector looks at. -/
theorem mediaStep_detects (h : Heard) (hd : m.chan.Detecting) :
    mediaStep cx env (.read h) m =
      let n := onDtmfReports cx env h.dtmfDigits (m.on R2Chan.start)
      if h.dtmfStatus then n else dtmfSilence cx env n := by
  have hm : (m.on R2Chan.start).chan.mfState ≠ .offState := hd.1
  have hx : (m.on R2Chan.start).chan.detectingDtmf = true := hd.2
  simp only [mediaStep, handleRead, if_neg hm, if_pos hx]
  rfl

theorem mediaStep_silence (h : Heard) (hd : m.chan.Detecting) :
    (mediaStep cx env (.read h) m).dtmfSilenceSamples =
      (if h.reports then 0 else m.dtmfSilenceSamples) + if h.dtmfStatus then 0 else chanReadSize := by
  have hr : (onDtmfReports cx env h.dtmfDigits (m.on R2Chan.start)).dtmfSilenceSamples =
      if h.reports then 0 else m.dtmfSilenceSamples := onDtmfReports_silence h.dtmfDigits _
  rw [mediaStep_detects h hd]
  generalize onDtmfReports cx env h.dtmfDigits (m.on R2Chan.start) = n at hr ⊢
  simp only [dtmfSilence]
  split_ifs at hr ⊢ <;> simp [MediaChan.on, hr]

theorem handlesDtmfEnd_iff (h : Heard) (hd : m.chan.Detecting) :
    HandlesDtmfEnd cx env h m ↔ h.dtmfStatus = false ∧
      (if h.reports then 0 else m.dtmfSilenceSamples) + chanReadSize = dtmfMaxSilenceSamples := by
  have hr : (onDtmfReports cx env h.dtmfDigits (m.on R2Chan.start)).dtmfSilenceSamples =
      if h.reports then 0 else m.dtmfSilenceSamples := onDtmfReports_silence h.dtmfDigits _
  rw [HandlesDtmfEnd, mediaStep_detects h hd]
  generalize onDtmfReports cx env h.dtmfDigits (m.on R2Chan.start) = n at hr ⊢
  rw [← hr]
  simp only [dtmfSilence]
  have hne := @handleDtmfEnd_ne cx env n.chan
  cases h.dtmfStatus with
  | true => exact iff_of_false (fun he => hne he.symm) (fun he => nomatch he.1)
  | false =>
    rw [if_neg Bool.false_ne_true]
    split_ifs with hs
    · exact iff_of_true rfl ⟨rfl, hs⟩
    · exact iff_of_false (fun he => hne he.symm) fun he => hs he.2

theorem DetectsCall.initial {js ts : List MediaTick} (h : DetectsCall cx ts m) (hj : js <+: ts) :
    DetectsCall cx js m := by
  refine ⟨fun ks hk => h.detecting ks (hk.trans hj), fun hi => h.call ?_⟩
  obtain ⟨ks, rfl⟩ := hj
  rw [mediaRun, Runs.exec_append]
  exact List.mem_append_left _ hi

/-- The counter holds the silence since the last report, with the leftover before the first. -/
theorem counter_eq (ts : List MediaTick) (h : DetectsCall cx ts m) :
    (mediaRun cx ts m).1.dtmfSilenceSamples =
      (if digitsReported ts then 0 else m.dtmfSilenceSamples) + silentSamples ts := by
  induction ts using List.reverseRecOn with
  | nil => rfl
  | append_singleton ts t ih =>
    have hp := List.prefix_append ts [t]
    have hd := h.detecting ts hp
    have ih := ih (h.initial hp)
    have hs : (mediaRun cx (ts ++ [t]) m).1 = mediaStep cx t.env t.input (mediaRun cx ts m).1 := by
      rw [mediaRun, Runs.exec_append]
      rfl
    rw [hs, silentSamples_snoc, digitsReported_snoc]
    generalize (mediaRun cx ts m).1 = n at hd ih ⊢
    obtain ⟨env, i⟩ := t
    cases i with
    | read x =>
      rw [mediaStep_silence x hd]
      dsimp only
      split_ifs at ih ⊢ <;> simp_all
      omega
    | cas => simpa [mediaStep, MediaChan.on] using ih
    | write => simpa [mediaStep, MediaChan.on] using ih
    | timer => simpa [mediaStep, MediaChan.on] using ih
    | api => simpa [mediaStep, MediaChan.on] using ih
    | alarm => simpa [mediaStep, MediaChan.on] using ih

end Silence

/-- For every history of the channel before the call, and every course of the call: the end of
the digits comes where it is due, if and only if no leftover of the counter shows. -/
theorem dtmf_end_on_time_iff (cx : R2Context) (ts : List MediaTick) (m : MediaChan) :
    EndsOnTime cx ts m ↔ LeftoverHidden cx ts m := by
  have hstep : ∀ js env h, DetectsCall cx js m →
      (HandlesDtmfEnd cx env h (mediaRun cx js m).1 ↔ h.dtmfStatus = false ∧
        (if digitsReported (js ++ [⟨env, .read h⟩]) then 0 else m.dtmfSilenceSamples) +
          silentSamples (js ++ [⟨env, .read h⟩]) = dtmfMaxSilenceSamples) := by
    intro js env h hj
    rw [handlesDtmfEnd_iff h (hj.detecting js (List.prefix_refl js)), counter_eq js hj,
      silentSamples_snoc, digitsReported_snoc]
    dsimp only
    refine and_congr_right fun hs => ?_
    rw [hs]
    split_ifs <;> simp_all
    omega
  constructor
  · intro he
    refine or_iff_not_imp_left.mpr fun hz js env h hj hd hs hn => ?_
    have hx := (hstep js env h hd).symm.trans (he js env h hj hd)
    rw [hn, if_neg Bool.false_ne_true] at hx
    constructor
    · intro hy
      have := (hx.mpr ⟨hs, hy⟩).2
      omega
    · intro hy
      have := (hx.mp ⟨hs, hy⟩).2
      omega
  · intro hl js env h hj hd
    refine (hstep js env h hd).trans (and_congr_right fun hs => ?_)
    cases hn : digitsReported (js ++ [⟨env, .read h⟩]) with
    | true => simp
    | false =>
      rcases hl with hz | hl
      · simp [hz]
      · obtain ⟨h1, h2⟩ := hl js env h hj hd hs hn
        rw [if_neg Bool.false_ne_true]
        exact iff_of_false h2 h1

/-- A buffer without a signal. -/
def silentTick : MediaTick := ⟨Env.fair 0x1, .read ⟨none, [], false⟩⟩

/-- The first caller hangs up after ten silent buffers, and the next one calls. -/
def secondCall : MediaChan :=
  (mediaRun dtmfInCx (List.replicate 10 silentTick ++ [⟨Env.fair 0x9, .cas⟩,
    ⟨Env.fair 0x9, .api (.disconnectCall .normalClearing)⟩, ⟨Env.fair 0x1, .cas⟩]) dtmfSeized).1

/-- The number of the second call ends ten buffers early. -/
theorem dtmf_end_early : ¬ EndsOnTime dtmfInCx (List.replicate 15 silentTick) secondCall := by
  intro h
  have hd : DetectsCall dtmfInCx (List.replicate 14 silentTick) secondCall := by
    refine ⟨fun js hj => ?_, by decide +kernel⟩
    obtain ⟨n, hn, rfl⟩ : ∃ n, n < 15 ∧ js = List.replicate n silentTick := by
      obtain ⟨hl, he⟩ := List.prefix_replicate_iff.mp hj
      exact ⟨js.length, Nat.lt_succ_of_le hl, he⟩
    have hall : ∀ n < 15, (mediaRun dtmfInCx (List.replicate n silentTick) secondCall).1.chan.Detecting := by
      decide +kernel
    exact hall n hn
  have hx : HandlesDtmfEnd dtmfInCx (Env.fair 0x1) ⟨none, [], false⟩
      (mediaRun dtmfInCx (List.replicate 14 silentTick) secondCall).1 :=
    (handlesDtmfEnd_iff _ (hd.detecting _ (List.prefix_refl _))).mpr ⟨rfl, by decide +kernel⟩
  have he := (h (List.replicate 14 silentTick) (Env.fair 0x1) ⟨none, [], false⟩ (List.prefix_refl _) hd).mp hx
  exact absurd he.2 (by decide +kernel)

end OpenR2
