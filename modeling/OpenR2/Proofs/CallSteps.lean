import OpenR2.Proofs.Stages

namespace OpenR2

/-- What the detector makes of an output while the engine is on. -/
inductive Detects (cx : R2Context) (env : Env) (tone : Tone) (c : R2Chan) : R2Chan → Prop where
  | ignores (h : c.mfState = .offState ∨ c.mfReadTone = tone) : Detects cx env tone c c
  | breaks : Detects cx env tone c (handleProtocolError cx env .brokenMfSequence c)
  | waits (hr : c.mfReadTone ≠ tone) (hc : (checkThreshold cx env tone c).2 ≠ 0) :
      Detects cx env tone c (checkThreshold cx env tone c).1
  | toneOn (ht : tone ≠ 0) (hm : c.mfState ≠ .offState) (hr : c.mfReadTone = 0)
      (hc : (checkThreshold cx env tone c).2 = 0) :
      Detects cx env tone c (handleToneOn cx env tone (checkThreshold cx env tone c).1)
  | toneOff (ht : tone = 0) (hm : c.mfState ≠ .offState) (hr : c.mfReadTone ≠ 0)
      (hc : (checkThreshold cx env 0 c).2 = 0) :
      Detects cx env tone c (handleToneOff cx env (checkThreshold cx env 0 c).1)

theorem handleMedia_detects (cx : R2Context) (env : Env) (tone : Tone) (c : R2Chan) :
    Detects cx env tone c (handleMedia cx env tone c) := by
  simp only [handleMedia, handleMfTone]
  split_ifs with hm h0 hs hr hc hr hc
  · exact .ignores (.inl hm)
  · exact .ignores (.inr hs)
  · exact .breaks
  · exact .waits hs hc
  · exact .toneOn h0 hm (not_not.mp hr) (not_not.mp hc)
  · exact .ignores (.inr (hr.trans (not_not.mp h0).symm))
  · obtain rfl : tone = 0 := not_not.mp h0
    exact .waits hr hc
  · exact .toneOff (not_not.mp h0) hm hr (not_not.mp hc)

namespace R2Chan

/-- Where a channel stands between two steps: one in a call of this side has no other
call before it, only such a channel collects a number, and an idle line has no category. -/
structure Held (c : R2Chan) : Prop where
  engaged : c.direction = .backward → c.Engaged
  backward : c.callState = .collecting → c.direction = .backward
  category : c.r2State = .idle → c.callerCategory = 0

/-- Nothing has been asked for yet. -/
structure Fresh (c : R2Chan) : Prop extends c.Held where
  asks : c.direction = .backward → ¬ c.mfState.Asks
  blank : c.direction = .backward → c.callerCategory = 0

variable {c d : R2Chan}

/-- A change of the other fields. -/
theorem Held.quiet (h : c.Held) (hd : d.direction = c.direction) (hc : d.callState = c.callState)
    (hr : d.r2State = c.r2State) (hx : d.callerCategory = c.callerCategory) : d.Held := by
  refine ⟨fun hb => ?_, fun hs => hd.trans (h.backward (hc ▸ hs)),
    fun hi => hx.trans (h.category (hr ▸ hi))⟩
  obtain ⟨h1, h2⟩ := h.engaged (hd ▸ hb)
  exact ⟨hc ▸ h1, hr ▸ h2⟩

theorem Aside.callerCategory (h : c.Aside d) : d.callerCategory = c.callerCategory :=
  congrArg Numbers.callerCategory h.numbers

theorem Aside.held (h : c.Aside d) (hc : c.Held) : d.Held := by
  refine ⟨fun hb => h.engaged (hc.engaged (h.direction ▸ hb)), fun hx => ?_, fun hi => ?_⟩
  · rw [h.direction]
    exact hc.backward (h.passes.callState hx)
  · rw [h.callerCategory]
    rcases h.r2State with hr | hr | ⟨-, hr⟩
    · exact hc.category (hr ▸ hi)
    · exact absurd hi hr.1
    · exact nomatch hr.symm.trans hi

theorem Reset.held (h : c.Reset d) : d.Held := by
  obtain ⟨⟨rx, r, w, x, y, hf⟩, -⟩ := h
  generalize d.out = o at hf
  subst hf
  exact ⟨nofun, nofun, fun _ => rfl⟩

/-- The call is over, and no other has begun. -/
theorem Dropped.fresh (h : c.Dropped d) (hd : d.Held) : d.Fresh :=
  ⟨hd, fun hb => absurd hb h.direction, fun hb => absurd hb h.direction⟩

theorem Sends.held (h : c.Sends d) (hc : c.Held) : d.Held :=
  hc.quiet h.direction h.callState h.r2State h.callerCategory

end R2Chan

theorem MfState.Decided.not_asks {m : MfState} (h : m.Decided) : ¬ m.Asks := by
  rcases h with rfl | rfl | rfl | rfl <;> decide

theorem MfState.Forward.not_asks {m : MfState} (h : m.Forward) : ¬ m.Asks := by
  cases m <;> first | decide | exact h.elim

theorem handleProtocolError_held (cx : R2Context) (env : Env) (c : R2Chan) (reason : ProtocolError) :
    (handleProtocolError cx env reason c).Held :=
  (R2Chan.Aside.emit _ (.onProtocolError reason) trivial).held
    ((R2Chan.Aside.setCasSignal cx env .idle _).held (protoInit_reset cx _).held)

section Turns

variable {cx : R2Context} {env : Env} {ways : Direction → Prop} {c d : R2Chan}

theorem Answers.held (h : Answers cx env c d) (hc : c.Held) : d.Held := by
  rcases h with h | ⟨e, reason, -, rfl⟩
  · exact h.held hc
  · exact handleProtocolError_held cx env e reason

theorem Turn.held (h : Turn cx env ways c d) (hc : c.Held) : d.Held := by
  cases h with
  | aside _ h => exact h.held hc
  | reset _ h => exact h.held
  | seize _ _ h =>
    refine ⟨fun _ => ⟨?_, ?_⟩, fun _ => h.direction, fun hi => nomatch h.r2State.symm.trans hi⟩
    · rw [h.callState]
      decide
    · rw [h.r2State]
      decide
  | place _ h =>
    refine ⟨fun hb => ?_, fun hx => ?_, fun hi => nomatch h.r2State.symm.trans hi⟩
    · exact nomatch h.direction.symm.trans hb
    · exact nomatch h.callState.symm.trans hx
  | dial hr =>
    have hb : c.direction ≠ .backward := fun hb => (hc.engaged hb).line.2.1 hr
    have he : ((c.setR2State .seizeAckRxd).setMfGroup .gi).Held :=
      ⟨fun h => absurd h hb, fun h => hc.backward h, nofun⟩
    exact (mfSendDnis_answers cx env _ 0).held he
  | send _ _ h => exact h.held hc
  | collect _ _ h =>
    refine ⟨fun hb => ?_, fun hx => ?_, fun hi => ?_⟩
    · obtain ⟨h1, h2⟩ := hc.engaged (h.direction ▸ hb)
      refine ⟨?_, h.r2State ▸ h2⟩
      rcases h.callState with hs | hs | hs
      · rwa [hs]
      · simp [hs]
      · simp [hs]
    · rw [h.direction]
      refine hc.backward ?_
      rcases h.callState with hs | hs | hs
      · rwa [← hs]
      · exact absurd (hs.symm.trans hx) (by decide)
      · exact absurd (hs.symm.trans hx) (by decide)
    · have hi : c.r2State = .idle := h.r2State ▸ hi
      exact (h.callerCategory.resolve_right fun hb => (hc.engaged hb).line.1 hi).trans (hc.category hi)

theorem Turns.held (h : Turns cx env ways c d) (hc : c.Held) : d.Held := by
  induction h with
  | refl => exact hc
  | tail _ h ih => exact h.held ih

/-- Outside the backward side's register signalling nothing is asked for. -/
theorem Turn.fresh (hw : ¬ ways .backward) (h : Turn cx env ways c d) (hc : c.Fresh) : d.Fresh := by
  have hh := h.held hc.toHeld
  cases h with
  | aside _ h =>
    refine ⟨hh, fun hb => ?_, fun hb => ?_⟩
    · rcases h.mfState with hm | hm | hm | ⟨-, hm | hm⟩
      · rw [hm]
        exact hc.asks (h.direction ▸ hb)
      all_goals
        rw [hm]
        decide
    · rw [h.callerCategory]
      exact hc.blank (h.direction ▸ hb)
  | reset _ h => exact h.isOver.fresh hh
  | seize _ _ h =>
    refine ⟨hh, fun _ => ?_, fun _ => ?_⟩
    · rcases h.mfState with ⟨hm, -⟩ | ⟨hm, -⟩
      · rw [hm]
        decide
      · rw [hm]
        decide
    · rw [show d.callerCategory = c.callerCategory from congrArg Numbers.callerCategory h.numbers]
      exact hc.category h.idle
  | place _ h =>
    have hd : d.direction ≠ .backward := fun hb => nomatch h.direction.symm.trans hb
    exact ⟨hh, fun hb => absurd hb hd, fun hb => absurd hb hd⟩
  | dial hr =>
    have hb : c.direction ≠ .backward := fun hb => (hc.engaged hb).line.2.1 hr
    have hd : (mfSendDnis cx env 0 ((c.setR2State .seizeAckRxd).setMfGroup .gi)).direction ≠
        .backward := by
      rcases mfSendDnis_answers cx env ((c.setR2State .seizeAckRxd).setMfGroup .gi) 0 with
        h | ⟨e, r, -, he⟩
      · rw [h.direction]
        exact hb
      · rw [he]
        exact (handleProtocolError_drops cx env e r).direction
    exact ⟨hh, fun hx => absurd hx hd, fun hx => absurd hx hd⟩
  | send _ _ h =>
    refine ⟨hh, fun hb => ?_, fun hb => ?_⟩
    · rcases h.mfState with hm | hm
      · rw [hm]
        exact hc.asks (h.direction ▸ hb)
      · exact hm.not_asks
    · rw [h.callerCategory]
      exact hc.blank (h.direction ▸ hb)
  | collect _ hb _ => exact absurd hb hw

theorem Turns.fresh (hw : ¬ ways .backward) (h : Turns cx env ways c d) (hc : c.Fresh) : d.Fresh := by
  induction h with
  | refl => exact hc
  | tail _ h ih => exact h.fresh hw ih

/-- Nor is anything collected or offered there. -/
theorem Turn.silent (hw : ¬ ways .backward) (h : Turn cx env ways c d) :
    ∃ as, d.out = c.out ++ as ∧ ∀ a ∈ as, ¬ a.Collecting := by
  cases h with
  | aside _ h => exact h.quietly.out
  | reset _ h => exact h.isOver.quietly.out
  | seize _ _ h => exact ⟨_, h.out, by simp [Act.Collecting]⟩
  | place _ h => exact ⟨_, h.out, by simp [Act.Collecting]⟩
  | dial hr =>
    have h : Turn cx env (fun _ => False) c _ := .dial c hr
    exact (h.quietly id id).out
  | send _ _ h => exact h.quietly.out
  | collect _ hb _ => exact absurd hb hw

theorem Turns.silent (hw : ¬ ways .backward) (h : Turns cx env ways c d) :
    ∃ as, d.out = c.out ++ as ∧ ∀ a ∈ as, ¬ a.Collecting := by
  induction h with
  | refl => exact ⟨[], (List.append_nil _).symm, by simp⟩
  | tail _ h ih =>
    obtain ⟨as, ho, ha⟩ := ih
    obtain ⟨bs, ho', hb⟩ := h.silent hw
    refine ⟨as ++ bs, by rw [ho', ho, List.append_assoc], fun a hm => ?_⟩
    exact (List.mem_append.mp hm).elim (ha a) (hb a)

/-- The call ends, without another digit or an offer, and what may follow has asked for
nothing yet. -/
structure R2Chan.Ends (c d : R2Chan) : Prop where
  fresh : d.Fresh
  out : ∃ as, d.out = c.out ++ as ∧ .callState .idle ∈ as ∧ ∀ a ∈ as, ¬ a.Collecting

theorem R2Chan.Dropped.ends (h : c.Dropped d) (hd : d.Held) : c.Ends d := ⟨h.fresh hd, h.out⟩

theorem R2Chan.Aside.ends {e : R2Chan} (h : c.Aside d) (h' : d.Ends e) : c.Ends e := by
  obtain ⟨as, ho, ha⟩ := h.quietly.out
  obtain ⟨bs, ho', hi, hb⟩ := h'.out
  refine ⟨h'.fresh, as ++ bs, by rw [ho', ho, List.append_assoc], List.mem_append_right _ hi,
    fun a hm => ?_⟩
  exact (List.mem_append.mp hm).elim (ha a) (hb a)

/-- A call of this side goes on as it is, or ends. -/
theorem Turns.course (hf : ¬ ways .forward) (hw : ¬ ways .backward) (hc : c.Engaged)
    (h : Turns cx env ways c d) : c.Aside d ∨ c.Ends d := by
  induction h with
  | refl => exact .inl (.refl c)
  | tail _ h ih =>
    rcases ih with ih | ih
    · have he := ih.engaged hc
      cases h with
      | aside _ h => exact .inl (ih.trans h)
      | reset _ h => exact .inr (ih.ends (h.isOver.ends h.held))
      | seize _ _ h => exact absurd h.idle he.line.1
      | place _ h => exact absurd h.idle he.call
      | dial h => exact absurd h he.line.2.1
      | send _ hx => exact absurd hx hf
      | collect _ hx => exact absurd hx hw
    · obtain ⟨as, ho, hi, ha⟩ := ih.out
      obtain ⟨bs, ho', hb⟩ := h.silent hw
      refine .inr ⟨h.fresh hw ih.fresh, as ++ bs, by rw [ho', ho, List.append_assoc],
        List.mem_append_left _ hi, fun a hm => ?_⟩
      exact (List.mem_append.mp hm).elim (ha a) (hb a)

end Turns

/-- Within one call, no tone is asked for that was not asked for before. -/
structure R2Chan.Lingers (c d : R2Chan) : Prop extends c.Passes d where
  stage : d.stage = { c.stage with asked := d.mfState }
  asked : d.mfState = c.mfState ∨ d.mfState.Decided

namespace R2Chan.Lingers

variable {c d e : R2Chan}

theorem aside (h : c.Aside d) : c.Lingers d := by
  refine ⟨h.passes, h.stage, ?_⟩
  rcases h.mfState with hm | hm | hm | ⟨-, hm⟩
  · exact .inl hm
  · exact .inr (.inl hm)
  · exact .inr (.inr (.inr (.inr hm)))
  · exact .inr (.inr (hm.imp_right .inl))

theorem trans (h : c.Lingers d) (h' : d.Lingers e) : c.Lingers e := by
  refine ⟨h.toPasses.trans h'.toPasses, ?_, ?_⟩
  · rw [h'.stage, h.stage]
  · rcases h'.asked with hm | hm
    · rw [hm]
      exact h.asked
    · exact .inr hm

/-- A change of the other fields. -/
theorem quiet (hp : c.Passes d) (hs : d.stage = c.stage) : c.Lingers d := by
  have hm : d.mfState = c.mfState := congrArg Stage.asked hs
  exact ⟨hp, by rw [hm, hs]; rfl, .inl hm⟩

end R2Chan.Lingers

section Silence

variable (cx : R2Context) (env : Env) (c : R2Chan)

theorem mfDanceEnded_lingers : c.Lingers (mfDanceEnded cx env c) := by
  have hs : ∀ d : R2Chan, d.Lingers (d.setCallState .accepted) := fun d =>
    .quiet ⟨rfl, nofun, [.callState .accepted], rfl, by simp [Act.Collecting]⟩ rfl
  exact ((R2Chan.Lingers.aside (.turnOffMfEngine cx c)).trans (hs _)).trans
    (.aside (.armTimer env _ _ _ _))

theorem handleForwardMfSilence_lingers (hc : c.Engaged) :
    c.Lingers (handleForwardMfSilence cx env c) ∨ c.Dropped (handleForwardMfSilence cx env c) := by
  have hs := Turns.within hc (setSilence_turns cx env (fun _ => False) c)
  simp only [handleForwardMfSilence]
  generalize setSilence cx env c = d at hs ⊢
  have hg : ∀ e : R2Chan, d.Lingers e ∨ d.Dropped e → c.Lingers e ∨ c.Dropped e := by
    intro e he
    rcases hs with hs | hs
    · exact he.imp (R2Chan.Lingers.aside hs).trans hs.quietly.isOver
    · exact .inr (hs.trans (he.elim (fun h => h.quietly) fun h => h.quietly))
  refine hg _ ?_
  split
  · exact .inl (mfDanceEnded_lingers cx env d)
  · exact .inl (mfDanceEnded_lingers cx env d)
  · exact .inl (.aside (.mapTimers d _))
  · exact .inl (.aside (.refl d))
  · exact .inl (.aside (.refl d))
  · exact .inl (.aside (.refl d))
  · exact .inr (handleProtocolError_drops cx env d _)
  · exact .inr (handleProtocolError_drops cx env d _)

end Silence

section Ticks

variable (cx : R2Context) (c : R2Chan) (t : Tick)

theorem checkThreshold_stays (env : Env) (tone : Tone) : c.Stays (checkThreshold cx env tone c).1 := by
  obtain ⟨x, n, as, he, ha⟩ := checkThreshold_frame cx env tone c
  rw [he]
  refine ⟨⟨rfl, id, as, rfl, fun a hm => ?_⟩, rfl⟩
  rw [ha a hm]
  exact ⟨id, nofun⟩

theorem checkThreshold_held (env : Env) (tone : Tone) (hc : c.Held) :
    (checkThreshold cx env tone c).1.Held := by
  obtain ⟨x, n, as, he, -⟩ := checkThreshold_frame cx env tone c
  rw [he]
  exact hc.quiet rfl rfl rfl rfl

/-- A step in which the detector has no say. -/
theorem tick_turns (hi : ∀ tone, t.input ≠ .mfTone tone) :
    Turns cx t.env (fun _ => True) c.start (tick cx c t).1 := by
  cases he : t.input with
  | mfTone tone => exact absurd he (hi tone)
  | timer id =>
    have he : (tick cx c t).1 = expire cx t.env id c.start := by
      simp only [tick, he]
      rfl
    rw [he]
    simp only [expire]
    split
    · exact .refl
    · have hr : c.start.Aside (c.start.mapTimers (·.removeId id)) := .mapTimers _ _
      exact hr.turns.trans (runAnyTimer_turns cx t.env (fun _ => True) _ trivial trivial _)
  | cas =>
    have h := step_turns cx t.env (fun _ => True) c trivial .cas (by rintro _ ⟨⟩) (by rintro _ _ ⟨⟩)
    simpa only [tick, he] using h
  | api a =>
    have h := step_turns cx t.env (fun _ => True) c trivial (.api a) (by rintro _ ⟨⟩) (by rintro _ _ ⟨⟩)
    simpa only [tick, he] using h
  | alarm on =>
    have h := step_turns cx t.env (fun _ => True) c trivial (.alarm on) (by rintro _ ⟨⟩) (by rintro _ _ ⟨⟩)
    simpa only [tick, he] using h

/-- What the detector makes of an output, as a step. -/
theorem tick_detects {tone : Tone} (hi : t.input = .mfTone tone) :
    Detects cx t.env tone c.start (tick cx c t).1 := by
  have he : (tick cx c t).1 = handleMedia cx t.env tone c.start := by
    simp only [tick, hi]
    rfl
  rw [he]
  exact handleMedia_detects cx t.env tone c.start

theorem handleToneOn_turns (env : Env) (tone : Tone) (c : R2Chan) :
    Turns cx env (fun _ => True) (c.setMfReadTone tone) (handleToneOn cx env tone c) := by
  simp only [handleToneOn]
  split
  · exact handleForwardMfTone_turns cx env (fun _ => True) _ trivial ‹_› tone
  · exact handleBackwardMfTone_turns cx env (fun _ => True) _
  · exact handleProtocolError_turns cx env _ _ _

theorem handleToneOff_turns (env : Env) (c : R2Chan) : ∃ d, Turns cx env (fun _ => True) c d ∧
    handleToneOff cx env c = d.setMfReadTone 0 := by
  refine ⟨_, ?_, rfl⟩
  split
  · exact handleForwardMfSilence_turns cx env (fun _ => True) _ trivial ‹_›
  · exact handleBackwardMfSilence_turns cx env (fun _ => True) _ trivial _
  · exact handleProtocolError_turns cx env _ _ _

/-- What every element of a step keeps, and the detector, every step keeps. -/
theorem tick_closed {P : R2Chan → Prop} (hs : P c.start)
    (hturn : ∀ {c d}, Turn cx t.env (fun _ => True) c d → P c → P d)
    (hread : ∀ {c} (tone : Tone), P c → P (c.setMfReadTone tone))
    (hcheck : ∀ {c} (tone : Tone), P c → P (checkThreshold cx t.env tone c).1) : P (tick cx c t).1 := by
  have hx : ∀ {c d}, Turns cx t.env (fun _ => True) c d → P c → P d := by
    intro c d h hc
    induction h with
    | refl => exact hc
    | tail _ h ih => exact hturn h ih
  by_cases hi : ∃ tone, t.input = .mfTone tone
  · obtain ⟨tone, hi⟩ := hi
    have hd := tick_detects cx c t hi
    generalize (tick cx c t).1 = d at hd ⊢
    cases hd with
    | ignores => exact hs
    | breaks => exact hx (handleProtocolError_turns cx t.env _ _ _) hs
    | waits => exact hcheck tone hs
    | toneOn => exact hx (handleToneOn_turns cx t.env tone _) (hread tone (hcheck tone hs))
    | toneOff =>
      obtain ⟨d, hd, he⟩ := handleToneOff_turns cx t.env (checkThreshold cx t.env 0 c.start).1
      rw [he]
      exact hread 0 (hx hd (hcheck 0 hs))
  · exact hx (tick_turns cx c t fun tone he => hi ⟨tone, he⟩) hs

/-- A call of this side has begun with no other call before it, in every step. -/
theorem tick_held (hc : c.Held) : (tick cx c t).1.Held :=
  tick_closed cx c t (hc.quiet rfl rfl rfl rfl) (fun h hc => h.held hc)
    (fun _ hc => hc.quiet rfl rfl rfl rfl) (fun tone hc => checkThreshold_held cx _ t.env tone hc)

/-- How a step takes a call on. -/
inductive Course (cx : R2Context) (c : R2Chan) (t : Tick) (d : R2Chan) : Prop
  | elsewhere (hb : c.direction ≠ .backward) (fresh : d.Fresh) (silent : ∀ a ∈ d.out, ¬ a.Collecting)
  | ends (hb : c.direction = .backward) (fresh : d.Fresh) (idle : .callState .idle ∈ d.out)
      (acts : (∀ a ∈ d.out, ¬ a.Collecting) ∨ ∃ tone as, Comes cx c t tone ∧
        d.out = beforeTone cx c t tone ++ c.stage.reports cx tone ++ as ∧ ∀ a ∈ as, ¬ a.Collecting)
  | lingers (hb : c.direction = .backward) (hn : ∀ tone, ¬ Comes cx c t tone)
      (h : c.start.Lingers d)
  | hears (tone : Tone) (hc : Comes cx c t tone) (hu : c.stage.Understands cx tone)
      (direction : d.direction = .backward)
      (stage : d.stage = c.stage.hear cx (wantsMore cx c t tone) tone)
      (live : .callState .idle ∉ d.out)
      (acts : ∃ as, d.out = beforeTone cx c t tone ++ c.stage.reports cx tone ++ as ∧
        ∀ a ∈ as, a.Collecting →
          (d.mfState = .acceptedTxd ∨ d.mfState = .chgGiiTxd) ∧ d.stage.Offer cx a)
  | expires (he : CycleExpires c t) (hb : c.direction = .backward)
      (hv : cx.g1Tones.noMoreDnisAvailable = Tone.invalid) (hg : c.mfGroup = .ga)
      (hm : c.mfState = .dnisRqTxd ∨ c.mfState = .aniRqTxd) (direction : d.direction = .backward)
      (stage : d.stage = c.stage.timeOut cx) (live : .callState .idle ∉ d.out)
      (offers : ∀ a ∈ d.out, a.Collecting →
        (d.mfState = .acceptedTxd ∨ d.mfState = .chgGiiTxd) ∧ d.stage.Offer cx a)

variable {cx c t} {d : R2Chan}

theorem Comes.unique {tone tone' : Tone} (h : Comes cx c t tone) (h' : Comes cx c t tone') :
    tone = tone' := Input.mfTone.inj (h.1.symm.trans h'.1)

theorem Course.of_turns (ways : Direction → Prop) (hf : ¬ ways .forward) (hw : ¬ ways .backward)
    (hc : c.Held) (hn : ∀ tone, ¬ Comes cx c t tone) (h : Turns cx t.env ways c.start d) :
    Course cx c t d := by
  have hs : c.start.Held := hc.quiet rfl rfl rfl rfl
  by_cases hb : c.direction = .backward
  · rcases h.course hf hw (hs.engaged hb) with h | h
    · exact .lingers hb hn (.aside h)
    · obtain ⟨as, ho, hi, ha⟩ := h.out
      rw [show c.start.out = [] from rfl, List.nil_append] at ho
      exact .ends hb h.fresh (by rw [ho]; exact hi) (.inl (by rw [ho]; exact ha))
  · obtain ⟨as, ho, ha⟩ := h.silent hw
    rw [show c.start.out = [] from rfl, List.nil_append] at ho
    exact .elsewhere hb (h.fresh hw ⟨hs, fun h => absurd h hb, fun h => absurd h hb⟩) (by rw [ho]; exact ha)

/-- Outside a call of this side. -/
theorem Course.of_quietly (hb : c.direction ≠ .backward) (hh : d.Held) (h : c.start.Quietly d) :
    Course cx c t d := by
  obtain ⟨as, ho, ha⟩ := h.out
  rw [show c.start.out = [] from rfl, List.nil_append] at ho
  exact .elsewhere hb ⟨hh, fun hx => absurd (h.direction hx) hb, fun hx => absurd (h.direction hx) hb⟩
    (by rw [ho]; exact ha)

theorem Course.of_over (hh : d.Held) (h : c.start.Dropped d) : Course cx c t d := by
  obtain ⟨as, ho, hi, ha⟩ := h.out
  rw [show c.start.out = [] from rfl, List.nil_append] at ho
  by_cases hb : c.direction = .backward
  · exact .ends hb (h.fresh hh) (by rw [ho]; exact hi) (.inl (by rw [ho]; exact ha))
  · exact .elsewhere hb (h.fresh hh) (by rw [ho]; exact ha)

theorem Stage.mem_reports {cx : R2Context} {s : Stage} {tone : Tone} {a : Act}
    (h : a ∈ s.reports cx tone) : tone.isDigit = true ∧
      (s.ExpectsDnis cx ∧ (a = .storeDnis s.dnisLen tone ∨ a = .event (.onDnisDigitReceived tone)) ∨
        ¬ s.ExpectsDnis cx ∧ s.ExpectsAni cx ∧
          (a = .storeAni s.aniLen tone ∨ a = .event (.onAniDigitReceived tone))) := by
  simp only [reports, stores] at h
  split_ifs at h with ht hx hl hy
  · exact absurd h (List.not_mem_nil)
  · exact ⟨Bool.eq_true_of_not_eq_false ht, .inl ⟨hx, .inr (List.mem_singleton.mp h)⟩⟩
  · exact ⟨Bool.eq_true_of_not_eq_false ht, .inl ⟨hx, by simpa using h⟩⟩
  · exact ⟨Bool.eq_true_of_not_eq_false ht, .inr ⟨hx, hy, by simpa using h⟩⟩
  · exact absurd h (List.not_mem_nil)

/-- A tone of the caller is heard in a call of this side. -/
theorem Course.of_hears {tone : Tone} {k : R2Chan} (hh : d.Held) (hc : Comes cx c t tone)
    (hk : k.stage = c.stage) (hd : k.direction = .backward) (ho : k.out = beforeTone cx c t tone)
    (hp : ∀ a ∈ beforeTone cx c t tone, ¬ a.Collecting ∧ a ≠ .callState .idle)
    (h : Hears cx t.env tone k d) : Course cx c t d := by
  obtain ⟨b, hbo, hbd, -, h⟩ := h
  rw [hk, ho] at hbo h
  have hover : b.Dropped d → Course cx c t d := by
    intro h
    obtain ⟨as, hdo, hi, ha⟩ := h.out
    exact .ends hc.2.2.1 (h.fresh hh) (by rw [hdo]; exact List.mem_append_right _ hi)
      (.inr ⟨tone, as, hc, by rw [hdo, hbo], ha⟩)
  rcases h with h | ⟨hu, h⟩
  · exact hover h
  · cases h with
    | there as out direction stage _ live offers =>
      rw [hbo] at out
      refine .hears tone hc hu (direction.trans (hbd.trans hd)) stage ?_ ⟨as, out, fun a hm hx => ?_⟩
      · rw [out]
        intro hm
        rcases List.mem_append.mp hm with hm | hm
        · rcases List.mem_append.mp hm with hm | hm
          · exact (hp _ hm).2 rfl
          · obtain ⟨-, ⟨-, hr | hr⟩ | ⟨-, -, hr | hr⟩⟩ := Stage.mem_reports hm <;> exact nomatch hr
        · exact live hm
      · have hs : d.mfState = (c.stage.hear cx (wantsMore cx c t tone) tone).asked :=
          congrArg Stage.asked stage
        rw [hs, stage]
        exact (offers a hm hx).2
    | isOver h => exact hover h

theorem checkThreshold_acts (cx : R2Context) (c : R2Chan) (env : Env) (tone : Tone) :
    ∀ a ∈ (checkThreshold cx env tone c.start).1.out, ¬ a.Collecting ∧ a ≠ .callState .idle := by
  obtain ⟨as, ho, ha⟩ := (checkThreshold_stays cx c.start env tone).out
  rw [show c.start.out = [] from rfl, List.nil_append] at ho
  rw [ho]
  exact ha

theorem handleMedia_course (hc : c.Held) (tone : Tone) (hi : t.input = .mfTone tone) :
    Course cx c t (handleMedia cx t.env tone c.start) := by
  have hs : c.start.Held := hc.quiet rfl rfl rfl rfl
  have hh : (handleMedia cx t.env tone c.start).Held := by
    have h := tick_held cx c t hc
    simp only [tick, hi] at h
    exact h
  have hd := handleMedia_detects cx t.env tone c.start
  generalize handleMedia cx t.env tone c.start = d at hd hh ⊢
  cases hd with
  | ignores h =>
    refine .of_turns (fun _ => False) id id hc (fun x hx => ?_) .refl
    obtain rfl : tone = x := Input.mfTone.inj (hi.symm.trans hx.1)
    exact h.elim hx.2.2.2.1 fun h => hx.2.1 (h.symm.trans hx.2.2.2.2.1)
  | breaks => exact .of_over hh (handleProtocolError_drops cx t.env _ _)
  | waits _ hz =>
    have hk := checkThreshold_stays cx c.start t.env tone
    by_cases hb : c.direction = .backward
    · refine .lingers hb (fun x hx => hz ?_) (.quiet hk.toPasses hk.stage)
      obtain rfl : tone = x := Input.mfTone.inj (hi.symm.trans hx.1)
      exact hx.2.2.2.2.2
    · exact .of_quietly hb hh hk.quietly
  | toneOn h0 hm hr hz =>
    have hk := checkThreshold_stays cx c.start t.env tone
    have hkh := checkThreshold_held cx c.start t.env tone hs
    have hp := checkThreshold_acts cx c t.env tone
    have ho : (checkThreshold cx t.env tone c.start).1.out = beforeTone cx c t tone := rfl
    rw [ho] at hp
    generalize (checkThreshold cx t.env tone c.start).1 = k at hk hkh ho hh ⊢
    have hq : c.start.Quietly (k.setMfReadTone tone) :=
      hk.quietly.trans ⟨id, id, [], (List.append_nil _).symm, by simp⟩
    revert hh
    simp only [handleToneOn]
    split <;> intro hh
    · rename_i hd
      have hd : k.direction = .backward := hd
      have he : (k.setMfReadTone tone).Engaged := ⟨(hkh.engaged hd).call, (hkh.engaged hd).line⟩
      exact .of_hears hh ⟨hi, h0, hk.direction ▸ hd, hm, hr, hz⟩ hk.stage hd ho hp
        (handleForwardMfTone_hears cx t.env he h0)
    · rename_i hd
      have hb : c.direction ≠ .backward := fun hb => nomatch hd.symm.trans (hk.direction.trans hb)
      have ht := handleBackwardMfTone_turns cx t.env (fun _ => False) (k.setMfReadTone tone)
      exact .of_quietly hb hh (hq.trans (ht.quietly id id))
    · exact .of_over hh (hq.isOver (handleProtocolError_drops cx t.env _ _))
  | toneOff h0 hm hr hz =>
    have hk := checkThreshold_stays cx c.start t.env 0
    have hkh := checkThreshold_held cx c.start t.env 0 hs
    generalize (checkThreshold cx t.env 0 c.start).1 = k at hk hkh hh ⊢
    have hz : ∀ {d : R2Chan}, d.Passes (d.setMfReadTone 0) := .quiet rfl rfl rfl
    revert hh
    simp only [handleToneOff]
    split <;> intro hh
    · rename_i hd
      have hb : c.direction = .backward := hk.direction ▸ hd
      have hl : c.start.Lingers k := .quiet hk.toPasses hk.stage
      rcases handleForwardMfSilence_lingers cx t.env k (hkh.engaged hd) with h | h
      · refine .lingers hb (fun x hx => hx.2.1 ?_) ((hl.trans h).trans (.quiet hz rfl))
        exact (Input.mfTone.inj (hi.symm.trans hx.1)).symm.trans h0
      · exact .of_over hh (hk.quietly.isOver (h.trans hz.quietly))
    · rename_i hd
      have hb : c.direction ≠ .backward := fun hb => nomatch hd.symm.trans (hk.direction.trans hb)
      have ht := handleBackwardMfSilence_turns cx t.env (· = .forward) k rfl k.mfReadTone
      exact .of_quietly hb hh ((hk.quietly.trans (ht.quietly nofun nofun)).trans hz.quietly)
    · exact .of_over hh (hk.quietly.isOver ((handleProtocolError_drops cx t.env _ _).trans hz.quietly))

theorem expire_course (hc : c.Held) (id : Nat) (hi : t.input = .timer id) :
    Course cx c t (expire cx t.env id c.start) := by
  have hh : (expire cx t.env id c.start).Held := by
    have h := tick_held cx c t hc
    simp only [tick, hi] at h
    exact h
  have hn : ∀ tone, ¬ Comes cx c t tone := fun tone hx => by cases hi.symm.trans hx.1
  have hx : c.start.timer? id = c.timer? id := rfl
  simp only [expire, hx] at hh ⊢
  split
  · exact .of_turns (fun _ => False) (fun h => h) (fun h => h) hc hn .refl
  · rename_i timer ht
    rw [ht] at hh
    dsimp only at hh
    have hp : c.start.Aside (c.start.mapTimers (·.removeId id)) := .mapTimers _ _
    by_cases hcb : timer.callback = .mfBackCycleTimeoutExpired
    · have hr : runTimer cx t.env timer.callback = mfBackCycleTimeoutExpired cx t.env := by
        rw [hcb]
        rfl
      rw [hr] at hh ⊢
      rcases mfBackCycleTimeoutExpired_goesTo cx t.env (c.start.mapTimers (·.removeId id)) with
        h | ⟨hv, hg, hm, h⟩
      · exact .of_over hh (hp.quietly.isOver h)
      · by_cases hb : c.direction = .backward
        · have h := GoesTo.after hp.passes h
          cases h with
          | there as out direction stage _ live offers =>
            rw [show c.start.out = [] from rfl, List.nil_append] at out
            refine .expires ⟨id, timer, hi, ht, hcb⟩ hb hv hg hm (direction.trans hb) stage
              (by rw [out]; exact live) fun a ha hx => ?_
            have ho := (offers a (out ▸ ha) hx).2
            rw [← stage] at ho
            exact ho
          | isOver h => exact .of_over hh h
        · have hcs : (c.start.mapTimers (·.removeId id)).callState ≠ .collecting := fun hx =>
            hb (hc.backward hx)
          exact .of_quietly hb hh (hp.quietly.trans (h.quietly hcs))
    · exact .of_turns (· = .stopped) (by rintro ⟨⟩) (by rintro ⟨⟩) hc hn
        (hp.turns.trans (runTimer_turns cx t.env (· = .stopped) _ rfl hcb))

/-- Every step takes a call on in one of these ways. -/
theorem tick_course (hc : c.Held) : Course cx c t (tick cx c t).1 := by
  have hs : ∀ i, t.input = i → (∀ tone, i ≠ .mfTone tone) → (∀ id, i ≠ .timer id) →
      Course cx c t (step cx t.env i c) := by
    intro i hi hm ht
    refine .of_turns (· = .stopped) nofun nofun hc (fun tone hx => ?_)
      (step_turns cx t.env (· = .stopped) c rfl i hm fun id _ h => absurd h (ht id))
    exact hm tone (hi.symm.trans hx.1)
  cases hi : t.input with
  | mfTone tone =>
    simp only [tick, hi]
    exact handleMedia_course hc tone hi
  | timer id =>
    simp only [tick, hi]
    exact expire_course hc id hi
  | cas =>
    simp only [tick, hi]
    exact hs .cas hi nofun nofun
  | api a =>
    simp only [tick, hi]
    exact hs (.api a) hi nofun nofun
  | alarm on =>
    simp only [tick, hi]
    exact hs (.alarm on) hi nofun nofun

/-- A digit is kept and reported before all else. What follows may be an offer. -/
theorem Course.acts (h : Course cx c t d) : ∃ pre as, d.out = pre ++ as ∧
    (pre = [] ∨ ∃ tone, Comes cx c t tone ∧
      pre = beforeTone cx c t tone ++ c.stage.reports cx tone) ∧
    ∀ a ∈ as, a.Collecting → ∃ ani dnis cat r, a = .event (.onCallOffered ani dnis cat r) := by
  cases h with
  | elsewhere _ _ silent =>
    exact ⟨[], d.out, rfl, .inl rfl, fun a hm hx => absurd hx (silent a hm)⟩
  | ends _ _ _ acts =>
    rcases acts with ha | ⟨tone, as, hx, ho, ha⟩
    · exact ⟨[], d.out, rfl, .inl rfl, fun a hm hx => absurd hx (ha a hm)⟩
    · exact ⟨_, as, ho, .inr ⟨tone, hx, rfl⟩, fun a hm hx => absurd hx (ha a hm)⟩
  | lingers _ _ h =>
    obtain ⟨as, ho, ha⟩ := h.out
    exact ⟨[], as, ho, .inl rfl, fun a hm hx => absurd hx (ha a hm).1⟩
  | hears tone hx _ _ _ _ acts =>
    obtain ⟨as, ho, ha⟩ := acts
    refine ⟨_, as, ho, .inr ⟨tone, hx, rfl⟩, fun a hm hx => ?_⟩
    obtain ⟨-, ani, dnis, r, he⟩ := ha a hm hx
    exact ⟨ani, dnis, _, r, he⟩
  | expires _ _ _ _ _ _ _ _ offers =>
    refine ⟨[], d.out, rfl, .inl rfl, fun a hm hx => ?_⟩
    obtain ⟨-, ani, dnis, r, he⟩ := offers a hm hx
    exact ⟨ani, dnis, _, r, he⟩

/-- An offer comes at the end of the register signalling, in a call that goes on. -/
theorem Course.of_offer (h : Course cx c t d) {ani dnis : List Tone} {cat : Category} {r : Bool}
    (ho : .event (.onCallOffered ani dnis cat r) ∈ d.out) :
    (d.mfState = .acceptedTxd ∨ d.mfState = .chgGiiTxd) ∧
      cat = tone2category cx d.callerCategory ∧ .callState .idle ∉ d.out := by
  have hr : ∀ tone, .event (.onCallOffered ani dnis cat r) ∉
      beforeTone cx c t tone ++ c.stage.reports cx tone := by
    intro tone hm
    rcases List.mem_append.mp hm with hm | hm
    · exact (checkThreshold_acts cx c t.env tone _ hm).1 trivial
    · obtain ⟨-, ⟨-, hx | hx⟩ | ⟨-, -, hx | hx⟩⟩ := Stage.mem_reports hm <;> exact nomatch hx
  cases h with
  | elsewhere _ _ silent => exact absurd trivial (silent _ ho)
  | ends _ _ _ acts =>
    rcases acts with ha | ⟨tone, as, -, he, ha⟩
    · exact absurd trivial (ha _ ho)
    · rw [he] at ho
      exact (List.mem_append.mp ho).elim (fun hm => absurd hm (hr tone)) fun hm => absurd trivial (ha _ hm)
  | lingers _ _ h =>
    obtain ⟨as, he, ha⟩ := h.out
    rw [show c.start.out = [] from rfl, List.nil_append] at he
    have hx : ¬ (Act.event (.onCallOffered ani dnis cat r)).Collecting := (ha _ (he ▸ ho)).1
    exact absurd trivial hx
  | hears tone _ _ _ _ live acts =>
    obtain ⟨as, he, ha⟩ := acts
    have hm : .event (.onCallOffered ani dnis cat r) ∈ as := by
      rw [he] at ho
      exact (List.mem_append.mp ho).resolve_left (hr tone)
    obtain ⟨hs, _, _, _, hx⟩ := ha _ hm trivial
    injection hx with hx
    injection hx with _ _ hx _
    exact ⟨hs, hx, live⟩
  | expires _ _ _ _ _ _ _ live offers =>
    obtain ⟨hs, _, _, _, hx⟩ := offers _ ho trivial
    injection hx with hx
    injection hx with _ _ hx _
    exact ⟨hs, hx, live⟩

/-- A channel that has been set idle or blocked is between calls. -/
theorem Started.fresh (h : Started cx c) : c.Fresh := by
  have hi : ∀ {c d : R2Chan}, (protoInit cx c).Aside d → d.Fresh := by
    intro c d h
    have hr := protoInit_reset cx c
    exact (hr.isOver.trans h.quietly).fresh (h.held hr.held)
  cases h with
  | idle env c => exact hi (.setCasSignal cx env .idle _)
  | blocked env c =>
    exact hi ((R2Chan.Aside.setR2State _ .blocked (.inl (by decide))).trans (.setCasSignal cx env .block _))

theorem Started.held (h : Started cx c) : c.Held := h.fresh.toHeld

end Ticks

theorem run_held {cx : R2Context} {c : R2Chan} (hc : c.Held) (ts : List Tick) :
    (run cx ts c).1.Held :=
  Runs.exec_invariant (fun c t _ => tick_held cx c t) ts c (.always (fun _ _ => trivial) ts c) hc

/-- Such a step has come in the call that the channel is in. -/
def InCall (cx : R2Context) (kind : R2Chan → Tick → Prop) : List Tick → R2Chan → Prop :=
  Runs.Since (tick cx) (· = .callState .idle) kind

theorem run_snoc (cx : R2Context) (ts : List Tick) (t : Tick) (c : R2Chan) :
    (run cx (ts ++ [t]) c).1 = (tick cx (run cx ts c).1 t).1 := by
  rw [run, Runs.exec_append]
  rfl

theorem inCall_snoc {cx : R2Context} {kind : R2Chan → Tick → Prop} (ts : List Tick) (t : Tick)
    (c : R2Chan) : InCall cx kind (ts ++ [t]) c ↔
      (InCall cx kind ts c ∨ kind (run cx ts c).1 t) ∧
        .callState .idle ∉ (tick cx (run cx ts c).1 t).2 := by
  rw [InCall, Runs.since_snoc]
  exact and_congr_right fun _ => ⟨fun h hm => h _ hm rfl, fun h a hm he => h (he ▸ hm)⟩

/-- What every allowed step keeps, of a channel and of whether such a step has come in its call. -/
theorem run_inCall {cx : R2Context} (kind : R2Chan → Tick → Prop) (P : Prop → R2Chan → Prop)
    (ok : Prop → R2Chan → Tick → Prop)
    (hs : ∀ p c t, ok p c t → P p c →
      P ((p ∨ kind c t) ∧ .callState .idle ∉ (tick cx c t).2) (tick cx c t).1) (ts : List Tick)
    (c : R2Chan) (ha : ∀ js t, js ++ [t] <+: ts → ok (InCall cx kind js c) (run cx js c).1 t)
    (hp : P False c) : P (InCall cx kind ts c) (run cx ts c).1 := by
  refine @Runs.exec_since _ _ _ (tick cx) (· = .callState .idle) kind P ok (fun p c t ho h => ?_) ts c ha hp
  have hx : (∀ a ∈ (tick cx c t).2, ¬ a = .callState .idle) ↔ .callState .idle ∉ (tick cx c t).2 :=
    ⟨fun h hm => h _ hm rfl, fun h a hm he => h (he ▸ hm)⟩
  rw [hx]
  exact hs p c t ho h

/-- A new channel that has been set idle. -/
def restingChannel (cx : R2Context) : R2Chan := (setIdle cx (Env.fair 0x9) R2Chan.new).1

/-- The line is seen to be idle, and then to be seized. -/
def seizeTicks : List Tick := [⟨Env.fair 0x9, .cas⟩, ⟨Env.fair 0x1, .cas⟩]

/-- Each tone comes and goes. -/
def toneTicks (env : Env) (tones : List Tone) : List Tick :=
  tones.flatMap fun tone => [⟨env, .mfTone tone⟩, ⟨env, .mfTone 0⟩]

/-- The user wants no more digits. -/
def Env.stopping : Env := { Env.fair 0x1 with onDnisDigitReceived := fun _ => false }

end OpenR2
