import OpenR2.Proofs.OutgoingSteps

namespace OpenR2

/-- The tones of an acceptance are valid, and can be told from each other. -/
structure GbTones.Distinct (g : GbTones) : Prop where
  withCharge : g.acceptCallWithCharge ≠ 0
  noCharge : g.acceptCallNoCharge ≠ 0
  special : g.specialInfoTone ≠ 0
  distinct : [g.acceptCallWithCharge, g.acceptCallNoCharge, g.specialInfoTone].Nodup

/-- The mode that the first acceptance is reported with. -/
def reportedMode (as : List Act) : Option CallMode :=
  as.findSome? fun
    | .event (.onCallAccepted mode) => some mode
    | _ => none

section Tables

variable {cx : R2Context} {mode : CallMode}

theorem isAcceptTone_getToneFromMode (cx : R2Context) (mode : CallMode) :
    isAcceptTone cx (getToneFromMode cx mode) := by
  cases mode with
  | withCharge => exact .inl rfl
  | noCharge => exact .inr (.inl rfl)
  | special => exact .inr (.inr rfl)
  | unknown => exact .inr (.inl rfl)

/-- Where the tones can be told apart, any tone but the first is taken for no charge. -/
theorem getModeFromTone_getToneFromMode (hg : cx.gbTones.Distinct) (hm : mode ≠ .unknown) :
    getModeFromTone cx (getToneFromMode cx mode) = mode ↔ mode ≠ .special := by
  obtain ⟨-, hn, -, hd⟩ := hg
  simp only [List.nodup_cons, List.mem_cons, List.not_mem_nil, or_false, not_or] at hd
  obtain ⟨⟨hcn, hcs⟩, -⟩ := hd
  cases mode with
  | withCharge => simp [getToneFromMode, getModeFromTone]
  | noCharge => simp [getToneFromMode, getModeFromTone, Ne.symm hcn, hn]
  | special => simp [getToneFromMode, getModeFromTone, Ne.symm hcs, hn]
  | unknown => exact absurd rfl hm

end Tables

section Reports

variable {cx : R2Context} {c : R2Chan} {t : Tick} {mode : CallMode}

theorem reportedMode_append {as : List Act} (h : ∀ a ∈ as, ∀ mode, a ≠ .event (.onCallAccepted mode))
    (mode : CallMode) (bs : List Act) :
    reportedMode (as ++ .event (.onCallAccepted mode) :: bs) = some mode := by
  have hn : reportedMode as = none := by
    refine List.findSome?_eq_none_iff.mpr fun a ha => ?_
    split
    · exact absurd rfl (h _ ha _)
    · rfl
  rw [reportedMode, List.findSome?_append, show List.findSome? _ as = none from hn]
  rfl

/-- An acceptance is reported before the user can do anything. -/
theorem handleAcceptTone_reports (cx : R2Context) (env : Env) (mode : CallMode) (c : R2Chan) :
    ∃ as bs, (handleAcceptTone cx env mode c).out = c.out ++ as ++ .event (.onCallAccepted mode) :: bs ∧
      ∀ a ∈ as, ∀ m, a ≠ .event (.onCallAccepted m) := by
  have hr : ((c.setR2State .acceptRxd).emit (.onCallAccepted mode)).out =
      c.out ++ [.event (.onCallAccepted mode)] := rfl
  simp only [handleAcceptTone]
  split_ifs
  all_goals obtain ⟨bs, ho, -⟩ := (callback_turns cx env (fun _ => False) (c.setR2State .acceptRxd)
    (.onCallAccepted mode)).silent id
  · exact ⟨[], bs, by rw [ho, hr]; simp, by simp⟩
  · obtain ⟨ds, hd, -⟩ := (callAnswered_aside cx (callback cx env (.onCallAccepted mode)
      (c.setR2State .acceptRxd))).out
    exact ⟨[], bs ++ ds, by rw [hd, ho, hr]; simp, by simp⟩
  · obtain ⟨as, ho, ha⟩ := (R2Chan.Tuned.armTimer env .r2Answer cx.timers.r2Answer
      .r2AnswerTimeoutExpired (c.setR2State .acceptRxd)).out
    refine ⟨as, [], ?_, fun a hm m he => ?_⟩
    · rw [R2Chan.emit, R2Chan.did, ho]
      rfl
    · subst he
      exact ha _ hm

/-- In Group II, the tone of an acceptance is reported as one. -/
theorem Ceases.reports {tone : Tone} (h : Ceases cx c t tone) (hg : c.mfGroup = .gii)
    (ha : isAcceptTone cx tone) : reportedMode (tick cx c t).2 = some (getModeFromTone cx tone) := by
  have hr : AsksFor cx c t (.accept (getModeFromTone cx tone)) := by
    refine ⟨tone, h, ?_⟩
    simp only [R2Chan.request, hg, groupBRequest, if_pos ha]
  obtain ⟨x, n, as, hk, hc⟩ := checkThreshold_frame cx t.env 0 c.start
  have hk : (c.checked cx t.env).out = as := by
    rw [R2Chan.checked, hk]
    rfl
  obtain ⟨bs, cs, ho, hb⟩ := handleAcceptTone_reports cx t.env (getModeFromTone cx tone)
    (c.checked cx t.env)
  rw [hr.output, serve, ho, hk]
  refine reportedMode_append (fun a hm mode he => ?_) _ cs
  rcases List.mem_append.mp hm with hm | hm
  · cases (hc a hm).symm.trans he
  · exact hb a hm mode he

/-- `accept_call` sends the tone of its mode, and no other. -/
theorem acceptCall_tells {h : Option Nat} {tone : Tone} (ht : t.input = .api (.acceptCall mode))
    (hm : .mfSelectTone h tone ∈ untilIdle (tick cx c t).2) (h0 : tone ≠ 0) :
    tone = getToneFromMode cx mode := by
  have he : (tick cx c t).2 = (acceptCall cx t.env mode c.start).1.out := by
    simp only [tick, ht, step, apiCall]
  have hn : c.start.out = [] := rfl
  rw [he] at hm
  simp only [acceptCall] at hm
  split_ifs at hm
  · simp [hn, untilIdle] at hm
  · simp [hn, untilIdle, R2Chan.emit, R2Chan.did] at hm
  · have hs : (c.start.setMfState .acceptedTxd).out = [] := rfl
    obtain ⟨as, hu, ha⟩ := (prepareMfTone_speaks cx t.env (getToneFromMode cx mode)
      (c.start.setMfState .acceptedTxd)).told (by simp [hs])
    rw [hu, hs, List.nil_append] at hm
    exact (ha _ hm).selects.resolve_left h0

end Reports

/-- The mode of an acceptance is what the calling side is told, unless it is the special one. -/
theorem call_mode_survives {cx cx' : R2Context} (htable : cx'.gbTones = cx.gbTones)
    (hd : cx.gbTones.Distinct) {mode : CallMode} (hmode : mode ≠ .unknown) {b : R2Chan} {u : Tick}
    (hu : u.input = .api (.acceptCall mode)) {h : Option Nat} {tone : Tone}
    (hm : .mfSelectTone h tone ∈ untilIdle (tick cx b u).2) (h0 : tone ≠ 0) {f : R2Chan} {t : Tick}
    (ht : Ceases cx' f t tone) (hg : f.mfGroup = .gii) :
    reportedMode (tick cx' f t).2 = some mode ↔ mode ≠ .special := by
  have he : tone = getToneFromMode cx mode := acceptCall_tells hu hm h0
  have hsame : getToneFromMode cx mode = getToneFromMode cx' mode := by
    simp only [getToneFromMode, htable]
  have ha : isAcceptTone cx' tone := by
    rw [he, hsame]
    exact isAcceptTone_getToneFromMode cx' mode
  rw [ht.reports hg ha, Option.some_inj, he, hsame]
  exact getModeFromTone_getToneFromMode (htable ▸ hd) hmode

/-- The called side has offered a call in Group B. -/
def offeringChannel (cx : R2Context) : R2Chan :=
  (run cx (seizeTicks ++ toneTicks (Env.fair 0x1) [Tone.t5, Tone.t1, Tone.t15, Tone.t1])
    (restingChannel cx)).1

/-- The calling side has sent its category in Group II, and hears a tone. -/
def hearingChannel (cx : R2Context) (tone : Tone) : R2Chan :=
  (run cx (seizeAckTick :: toneTicks (Env.fair 0xD) [Tone.t3] ++ [⟨Env.fair 0xD, .mfTone tone⟩])
    (callingChannel cx none [Tone.t5])).1

theorem call_mode_survives_itu :
    let cx := setAniFirst 0 (configureItu 10 1 R2Context.zero)
    reportedMode (tick cx (hearingChannel cx Tone.t6) ⟨Env.fair 0xD, .mfTone 0⟩).2 = some .withCharge ↔
      CallMode.withCharge ≠ .special :=
  @call_mode_survives (setAniFirst 0 (configureItu 10 1 R2Context.zero)) _ rfl
    ⟨by decide, by decide, by decide, by decide⟩ .withCharge nofun
    (offeringChannel (setAniFirst 0 (configureItu 10 1 R2Context.zero)))
    ⟨Env.fair 0x1, .api (.acceptCall .withCharge)⟩ rfl (some 0) Tone.t6 (by decide +kernel) (by decide) _ _
    (by decide +kernel) (by decide +kernel)

/-- A special call is taken for one without charge. -/
theorem special_call_lost :
    ¬ ∀ (cx cx' : R2Context) (mode : CallMode) (b f : R2Chan) (u t : Tick) (h : Option Nat) (tone : Tone),
      cx'.gbTones = cx.gbTones → cx.gbTones.Distinct → mode ≠ .unknown → b.mfGroup = .gb →
        u.input = .api (.acceptCall mode) → .mfSelectTone h tone ∈ untilIdle (tick cx b u).2 → tone ≠ 0 →
          f.mfGroup = .gii → Ceases cx' f t tone → reportedMode (tick cx' f t).2 = some mode := by
  intro h
  let cx := setAniFirst 0 (configureItu 10 1 R2Context.zero)
  have hx := h cx cx .special (offeringChannel cx) (hearingChannel cx Tone.t2)
    ⟨Env.fair 0x1, .api (.acceptCall .special)⟩ ⟨Env.fair 0xD, .mfTone 0⟩ (some 0) Tone.t2 rfl
    ⟨by decide, by decide, by decide, by decide⟩ nofun (by decide +kernel) rfl (by decide +kernel)
    (by decide) (by decide +kernel) (by decide +kernel)
  exact absurd hx (by decide +kernel)

end OpenR2
