import OpenR2.Proofs.CallMode
import OpenR2.Proofs.OfferedCategory
import OpenR2.Proofs.Variants

namespace OpenR2

namespace R2Chan

/-- No call is offered on the way from `c` to `d`. -/
def Withholds (c d : R2Chan) : Prop := ∃ as, d.out = c.out ++ as ∧ ∀ a ∈ as, ¬ a.Offers

/-- The same call, of which nothing else was told to the user than its digits. -/
structure Nears (c d : R2Chan) : Prop where
  withholds : c.Withholds d
  direction : d.direction = c.direction
  mfGroup : d.mfGroup = c.mfGroup

variable {c d e : R2Chan}

theorem Withholds.trans (h : c.Withholds d) (h' : d.Withholds e) : c.Withholds e := by
  obtain ⟨as, ho, ha⟩ := h
  obtain ⟨bs, ho', hb⟩ := h'
  refine ⟨as ++ bs, by rw [ho', ho, List.append_assoc], fun a hm => ?_⟩
  exact (List.mem_append.mp hm).elim (ha a) (hb a)

theorem Withholds.quiet (h : ∃ as, d.out = c.out ++ as ∧ ∀ a ∈ as, ¬ a.Collecting) : c.Withholds d := by
  obtain ⟨as, ho, ha⟩ := h
  exact ⟨as, ho, fun a hm hx => ha a hm hx.collecting⟩

theorem Withholds.out (h : c.Withholds d) (hc : ∀ a ∈ c.out, ¬ a.Offers) : ∀ a ∈ d.out, ¬ a.Offers := by
  obtain ⟨as, ho, ha⟩ := h
  intro a hm
  rw [ho] at hm
  exact (List.mem_append.mp hm).elim (hc a) (ha a)

theorem Nears.trans (h : c.Nears d) (h' : d.Nears e) : c.Nears e :=
  ⟨h.withholds.trans h'.withholds, h'.direction.trans h.direction, h'.mfGroup.trans h.mfGroup⟩

/-- A change of the other fields. -/
theorem Nears.same (hd : d.direction = c.direction) (hg : d.mfGroup = c.mfGroup) (ho : d.out = c.out) :
    c.Nears d := ⟨⟨[], by rw [ho, List.append_nil], by simp⟩, hd, hg⟩

theorem Nears.refl (c : R2Chan) : c.Nears c := .same rfl rfl rfl

theorem Nears.did {a : Act} (ha : ¬ a.Offers) (c : R2Chan) : c.Nears (c.did a) :=
  ⟨⟨[a], rfl, by simpa using ha⟩, rfl, rfl⟩

theorem Aside.nears (h : c.Aside d) : c.Nears d := ⟨.quiet h.quietly.out, h.direction, h.mfGroup⟩

end R2Chan

/-- How a tone that was expected, or the end of the wait for one, can lead to an offer: with an
acceptance at once, or with the category in Group B. -/
inductive Leads (cx : R2Context) (env : Env) (c e : R2Chan) : Prop where
  | bypasses (d : R2Chan) (hn : c.Nears d) (hg : c.mfGroup ≠ .gb) (he : e = bypassChangeToG2 cx env d)
  | offers (d : R2Chan) (hn : c.Nears d) (hg : c.mfGroup = .gb) (hm : d.mfState = .chgGiiTxd)
      (he : e = offerCall cx env d)
  | withholds (h : c.Withholds e)

section Leads

variable {cx : R2Context} {env : Env} {c d e : R2Chan}

theorem Leads.after (h : c.Nears d) (hl : Leads cx env d e) : Leads cx env c e := by
  cases hl with
  | bypasses x hn hg he => exact .bypasses x (h.trans hn) (h.mfGroup ▸ hg) he
  | offers x hn hg hm he => exact .offers x (h.trans hn) (h.mfGroup ▸ hg) hm he
  | withholds hn => exact .withholds (h.withholds.trans hn)

theorem Leads.of_turns (h : Turns cx env (fun _ => False) c e) : Leads cx env c e :=
  .withholds (.quiet (h.silent id))

/-- A request. -/
theorem Leads.asks {d : R2Chan} (hd : d.out = c.out) (tone : Tone) :
    Leads cx env c (prepareMfTone cx env tone d) := by
  have hq : d.Quietly (prepareMfTone cx env tone d) := by
    rcases prepareMfTone_stays cx env d tone with h | h
    · exact h.quietly
    · exact h.quietly
  have ho := hq.out
  rw [hd] at ho
  exact .withholds (.quiet ho)

theorem Leads.request (g : MfGroup) (m : MfState) (tone : Tone) :
    Leads cx env c (prepareMfTone cx env tone ((c.setMfGroup g).setMfState m)) := by
  have ho : ((c.setMfGroup g).setMfState m).out = c.out := rfl
  exact .asks ho tone

theorem handleProtocolError_leads (reason : ProtocolError) (c : R2Chan) :
    Leads cx env c (handleProtocolError cx env reason c) :=
  .withholds (.quiet (handleProtocolError_drops cx env c reason).quietly.out)

theorem requestNextDnisDigit_leads (c : R2Chan) : Leads cx env c (requestNextDnisDigit cx env c) :=
  .request .ga .dnisRqTxd _

theorem requestNextAniDigit_leads (c : R2Chan) : Leads cx env c (requestNextAniDigit cx env c) :=
  .request c.mfGroup .aniRqTxd _

theorem requestChangeToG2_leads (c : R2Chan) : Leads cx env c (requestChangeToG2 cx env c) :=
  .request .gb .chgGiiTxd _

theorem tryChangeToG2_leads (hg : c.mfGroup ≠ .gb) : Leads cx env c (tryChangeToG2 cx env c) := by
  unfold tryChangeToG2
  split
  · exact .bypasses c (.refl c) hg rfl
  · exact requestChangeToG2_leads c

theorem tryRequestCallingPartyCategory_leads (hg : c.mfGroup ≠ .gb) :
    Leads cx env c (tryRequestCallingPartyCategory cx env c) := by
  unfold tryRequestCallingPartyCategory requestCallingPartyCategory
  split
  · exact tryChangeToG2_leads hg
  · exact .request _ .categoryRqTxd _

theorem mfBackCycleTimeoutExpired_leads : Leads cx env c (mfBackCycleTimeoutExpired cx env c) := by
  unfold mfBackCycleTimeoutExpired
  have hn : ∀ ms, c.Nears (armTimer env .mfBackResumeCycle ms .mfBackResumeCycle c) := fun ms =>
    R2Chan.Aside.nears (.armTimer env _ _ _ c)
  dsimp only
  split_ifs with h
  · refine .after (hn _) (tryRequestCallingPartyCategory_leads ?_)
    rw [(hn _).mfGroup, h.2.1]
    exact nofun
  · refine .after (hn _) (tryChangeToG2_leads ?_)
    rw [(hn _).mfGroup, h.2.1]
    exact nofun
  · exact handleProtocolError_leads _ c

theorem afterDnisDigit_leads (hg : c.mfGroup ≠ .gb) (more : Bool) :
    Leads cx env c (afterDnisDigit cx env more c) := by
  unfold afterDnisDigit
  split_ifs
  · exact tryRequestCallingPartyCategory_leads hg
  · exact tryChangeToG2_leads hg
  · exact tryRequestCallingPartyCategory_leads hg
  · exact requestNextDnisDigit_leads c

theorem storeDnisDigit_nears (tone : Tone) (c : R2Chan) : c.Nears (storeDnisDigit tone c) := by
  unfold storeDnisDigit
  split
  · exact .refl c
  · exact (R2Chan.Nears.did (a := .storeDnis c.dnisLen tone) id c).trans (.same rfl rfl rfl)

/-- The user is told of a digit, and does not call back. -/
theorem callback_nears (hq : env.Quiet) {e : Event} (he : ¬ Act.Offers (.event e)) (c : R2Chan) :
    c.Nears (callback cx env e c) := by
  have hr : env.reenter (c.emit e).out = none := hq _
  simp only [callback, hr]
  exact .did he c

theorem mfReceiveExpectedDnis_leads (hq : env.Quiet) (hg : c.mfGroup ≠ .gb) (tone : Tone) :
    Leads cx env c (mfReceiveExpectedDnis cx env tone c) := by
  have hs := storeDnisDigit_nears tone c
  unfold mfReceiveExpectedDnis
  dsimp only
  split_ifs
  · have hn : c.Nears (callback cx env (.onDnisDigitReceived tone) (storeDnisDigit tone c)) :=
      hs.trans (callback_nears hq id _)
    exact .after hn (afterDnisDigit_leads (hn.mfGroup ▸ hg) _)
  · exact tryRequestCallingPartyCategory_leads hg
  · exact tryChangeToG2_leads hg
  · exact handleProtocolError_leads _ c

theorem doneGettingAni_leads (hg : c.mfGroup ≠ .gb) : Leads cx env c (doneGettingAni cx env c) := by
  unfold doneGettingAni
  split
  · exact tryChangeToG2_leads hg
  · exact requestNextDnisDigit_leads c

theorem storeAniDigit_nears (tone : Tone) (c : R2Chan) : c.Nears (storeAniDigit tone c) :=
  (R2Chan.Nears.did (a := .storeAni c.aniLen tone) id c).trans (.same rfl rfl rfl)

theorem mfReceiveExpectedAni_leads (hq : env.Quiet) (hg : c.mfGroup ≠ .gb) (tone : Tone) :
    Leads cx env c (mfReceiveExpectedAni cx env tone c) := by
  have hd : ∀ d : R2Chan, c.Nears d → Leads cx env c
      (if tone = 0 ∨ cx.forceUseMaxAni = false ∧ d.aniLen < uint32 cx.maxAni
        then requestNextAniDigit cx env d else doneGettingAni cx env d) := by
    intro d hd
    split
    · exact .after hd (requestNextAniDigit_leads d)
    · exact .after hd (doneGettingAni_leads (hd.mfGroup ▸ hg))
  unfold mfReceiveExpectedAni
  dsimp only
  split
  · split
    · exact hd _ ((storeAniDigit_nears tone c).trans (callback_nears hq id _))
    · exact hd _ (.refl c)
  · split
    · refine .after (d := if tone = cx.g1Tones.callerAniIsRestricted then c.restrictAni else c) ?_
        (doneGettingAni_leads ?_)
      · split
        · exact .same rfl rfl rfl
        · exact .refl c
      · split
        · exact hg
        · exact hg
    · exact handleProtocolError_leads _ c

theorem receiveCategory_leads (hq : env.Quiet) (hg : c.mfGroup ≠ .gb) (tone : Tone) :
    Leads cx env c (receiveCategory cx env tone c) := by
  have hn : c.Nears (c.setCallerCategory tone) := .same rfl rfl rfl
  unfold receiveCategory
  dsimp only
  refine .after hn ?_
  split_ifs
  · exact mfReceiveExpectedAni_leads hq (hn.mfGroup ▸ hg) 0
  · exact tryChangeToG2_leads (hn.mfGroup ▸ hg)
  · exact requestChangeToG2_leads _

theorem handleForwardMfTone_leads (hq : env.Quiet) (tone : Tone) :
    Leads cx env c (handleForwardMfTone cx env tone c) := by
  have hn : c.Nears (c.cancelTimer .mfBackCycle) := .same rfl rfl rfl
  unfold handleForwardMfTone
  generalize c.cancelTimer .mfBackCycle = d at hn
  dsimp only
  refine .after hn ?_
  have hx : ∀ g : MfGroup, d.mfGroup = g → g ≠ .gb → d.mfGroup ≠ .gb := fun g h hg => h ▸ hg
  split
  · next hg _ =>
    split
    · exact mfReceiveExpectedAni_leads hq (hx _ hg nofun) tone
    · exact mfReceiveExpectedDnis_leads hq (hx _ hg nofun) tone
  · next hg _ => exact mfReceiveExpectedDnis_leads hq (hx _ hg nofun) tone
  · next hg _ => exact receiveCategory_leads hq (hx _ hg nofun) tone
  · next hg _ => exact receiveCategory_leads hq (hx _ hg nofun) tone
  · next hg _ => exact mfReceiveExpectedAni_leads hq (hx _ hg nofun) tone
  · next hg _ => exact mfReceiveExpectedAni_leads hq (hx _ hg nofun) tone
  · next hg hm => exact .offers d (.refl d) hg hm rfl
  all_goals exact handleProtocolError_leads _ d

end Leads

section Ticks

variable {cx : R2Context} {env : Env} {c d : R2Chan} {t : Tick}

theorem checkThreshold_nears (cx : R2Context) (env : Env) (tone : Tone) (c : R2Chan) :
    c.Nears (checkThreshold cx env tone c).1 := by
  obtain ⟨x, n, as, hf, ha⟩ := checkThreshold_frame cx env tone c
  rw [hf]
  refine ⟨⟨as, rfl, fun a hm => ?_⟩, rfl, rfl⟩
  rw [ha a hm]
  exact id

/-- Silence offers nothing. -/
theorem handleForwardMfSilence_withholds (c : R2Chan) :
    c.Withholds (handleForwardMfSilence cx env c) := by
  have hs : c.Withholds (setSilence cx env c) :=
    .quiet ((setSilence_turns cx env (fun _ => False) c).silent id)
  unfold handleForwardMfSilence
  generalize setSilence cx env c = d at hs
  have he : ∀ reason, d.Withholds (handleProtocolError cx env reason d) := fun reason =>
    .quiet (handleProtocolError_drops cx env d reason).quietly.out
  have hd : d.Withholds (mfDanceEnded cx env d) := .quiet (mfDanceEnded_lingers cx env d).quietly.out
  dsimp only
  refine hs.trans ?_
  split
  · exact hd
  · exact hd
  · exact (R2Chan.Nears.same rfl rfl rfl).withholds
  · exact (R2Chan.Nears.refl d).withholds
  · exact (R2Chan.Nears.refl d).withholds
  · exact (R2Chan.Nears.refl d).withholds
  · exact he _
  · exact he _

/-- An offer comes of a tone or of the end of the wait for one. -/
theorem tick_leads (hq : t.env.Quiet) (hb : c.direction = .backward) :
    Leads cx t.env c.start (tick cx c t).1 := by
  have hs : ∀ i : Input, (∀ tone, i ≠ .mfTone tone) →
      (∀ id u, i = .timer id → c.timer? id = some u → u.callback ≠ .mfBackCycleTimeoutExpired) →
      Leads cx t.env c.start (step cx t.env i c) := fun i hi ht =>
    .withholds (.quiet ((step_turns cx t.env (· = .stopped) c rfl i hi ht).silent (by rintro ⟨⟩)))
  have he : (tick cx c t).1 = step cx t.env t.input c := rfl
  rw [he]
  cases t.input with
  | cas => exact hs .cas (by rintro _ ⟨⟩) (by rintro _ _ ⟨⟩)
  | api a => exact hs (.api a) (by rintro _ ⟨⟩) (by rintro _ _ ⟨⟩)
  | alarm on => exact hs (.alarm on) (by rintro _ ⟨⟩) (by rintro _ _ ⟨⟩)
  | timer id =>
    by_cases hx : ∃ u, c.timer? id = some u ∧ u.callback = .mfBackCycleTimeoutExpired
    · obtain ⟨u, hu, hcb⟩ := hx
      have hu' : c.start.timer? id = some u := hu
      have he : step cx t.env (.timer id) c =
          mfBackCycleTimeoutExpired cx t.env (c.start.mapTimers (·.removeId id)) := by
        simp only [step, expire, hu', hcb]
        rfl
      have hn : c.start.Nears (c.start.mapTimers (·.removeId id)) := .same rfl rfl rfl
      rw [he]
      exact .after hn mfBackCycleTimeoutExpired_leads
    · refine hs _ (by rintro _ ⟨⟩) fun id' u hi hu hcb => hx ⟨u, ?_, hcb⟩
      rw [Input.timer.inj hi]
      exact hu
  | mfTone tone =>
    have hd := handleMedia_detects cx t.env tone c.start
    change Leads cx t.env c.start (handleMedia cx t.env tone c.start)
    generalize handleMedia cx t.env tone c.start = e at hd
    cases hd with
    | ignores => exact .withholds (R2Chan.Nears.refl _).withholds
    | breaks => exact handleProtocolError_leads _ _
    | waits => exact .withholds (checkThreshold_nears cx t.env tone c.start).withholds
    | toneOn =>
      have hk := checkThreshold_nears cx t.env tone c.start
      have hn : c.start.Nears ((checkThreshold cx t.env tone c.start).1.setMfReadTone tone) :=
        hk.trans (.same rfl rfl rfl)
      have hd := hn.direction.trans hb
      unfold handleToneOn
      dsimp only
      rw [hd]
      exact .after hn (handleForwardMfTone_leads hq tone)
    | toneOff =>
      have hk := checkThreshold_nears cx t.env 0 c.start
      have hd := hk.direction.trans hb
      unfold handleToneOff
      dsimp only
      rw [hd]
      have hz : ∀ d : R2Chan, d.Withholds (d.setMfReadTone 0) := fun d =>
        (R2Chan.Nears.same rfl rfl rfl).withholds
      exact .withholds ((hk.withholds.trans (handleForwardMfSilence_withholds _)).trans (hz _))

/-- A tone that is taken is on the line, silence too. -/
theorem prepareMfTone_on (cx : R2Context) (he : env.Sound) (tone : Tone) (c : R2Chan) :
    c.Tuned (prepareMfTone cx env tone c) ∧ (prepareMfTone cx env tone c).mfWriteTone = tone := by
  have hr : ¬ Refuses env tone c := by
    rintro ⟨-, hx⟩
    split_ifs at hx
    · exact nomatch (he.select _).symm.trans hx.2
    · exact nomatch (he.select _).symm.trans hx
  have hx : ∀ d : R2Chan, (startMfTone cx env tone d).mfWriteTone = tone := by
    intro d
    simp only [startMfTone, he.flush, if_true]
    rfl
  have hs : ∀ d : R2Chan, (selectMfTone cx env tone d).mfWriteTone = tone := by
    intro d
    simp only [selectMfTone, he.select, reduceCtorEq, if_false]
    split_ifs with h1 h2
    · exact h1
    · rfl
    · exact hx _
  refine ⟨(prepareMfTone_cases cx env tone c).elim (·.2) fun h => absurd h.1 hr, ?_⟩
  simp only [prepareMfTone, he.flush, if_true]
  split_ifs
  · exact hs _
  · exact hs _

end Ticks

section Tables

variable {cx cx' : R2Context}

/-- The groups in which the two sides speak to each other. -/
def MfGroup.Meets (g k : MfGroup) : Prop :=
  (g = .backInit ∨ g = .ga) ∧ k = .gi ∨ g = .gb ∧ k = .gii ∨ g = .gc ∧ k = .giii

instance (g k : MfGroup) : Decidable (g.Meets k) :=
  inferInstanceAs (Decidable ((g = .backInit ∨ g = .ga) ∧ k = .gi ∨ g = .gb ∧ k = .gii ∨ g = .gc ∧ k = .giii))

/-- The tone is one that has no other meaning in Group A. -/
structure OnlyAccepts (cx : R2Context) (tone : Tone) : Prop where
  dnis : dnisRequest cx tone = none
  ani : tone ≠ cx.gaTones.requestNextAniDigit
  category : tone ≠ requestCategoryTone cx
  groupTwo : tone ≠ cx.gaTones.requestChangeToG2

/-- One tone of Group A is taken for an acceptance, if it has no other meaning. -/
theorem groupARequest_accepts {tone : Tone} {f : R2Chan} {mode : CallMode}
    (h : groupARequest cx tone f = .accept mode) : tone = cx.gaTones.addressCompleteChargeSetup := by
  unfold groupARequest at h
  cases hd : dnisRequest cx tone with
  | some offset => simp [hd] at h
  | none =>
    simp only [hd] at h
    split_ifs at h with h1 h2 h3 h4
    · unfold aniRequest at h
      split_ifs at h
    · exact h4

theorem OnlyAccepts.accepts (h : OnlyAccepts cx cx.gaTones.addressCompleteChargeSetup) (f : R2Chan) :
    groupARequest cx cx.gaTones.addressCompleteChargeSetup f = .accept .withCharge := by
  simp only [groupARequest, h.dnis]
  rw [if_neg fun hx => h.ani hx.2, if_neg h.category, if_neg h.groupTwo]
  exact if_pos trivial

/-- Of every variant that has one, the tone of an acceptance in Group A is understood there. -/
theorem onlyAccepts_table : ∀ e ∈ r2variants, e.tables.gaTones.addressCompleteChargeSetup ≠ 0 →
    OnlyAccepts e.tables e.tables.gaTones.addressCompleteChargeSetup := by
  intro e he
  simp only [r2variants, List.mem_cons, List.not_mem_nil, or_false] at he
  rcases he with rfl | rfl | rfl | rfl | rfl | rfl | rfl | rfl | rfl | rfl
  all_goals
    first
    | exact fun h => absurd rfl h
    | exact fun _ => ⟨by decide, by decide, by decide, by decide⟩

theorem OnlyAccepts.congr (h : cx.gaTones = cx'.gaTones) {tone : Tone} (ha : OnlyAccepts cx tone) :
    OnlyAccepts cx' tone := by
  obtain ⟨hd, ha, hc, hg⟩ := ha
  simp only [dnisRequest, requestCategoryTone, h] at hd ha hc hg
  exact ⟨hd, ha, hc, hg⟩

end Tables

/-- The calling side takes the tone for an acceptance. -/
def TakesForAcceptance (cx : R2Context) (f : R2Chan) (tone : Tone) : Prop :=
  ∃ mode, f.request cx tone = .accept mode

/-- `d` has offered the call and `e` has accepted it, and the calling side `f` understands. -/
structure AcceptUnderstood (cx cx' : R2Context) (d e f : R2Chan) : Prop where
  offered : d.mfState = .acceptedTxd → d.mfWriteTone ≠ 0 → TakesForAcceptance cx' f d.mfWriteTone
  accepted : e.mfState = .acceptedTxd → e.mfWriteTone ≠ 0 → TakesForAcceptance cx' f e.mfWriteTone
  silence : ∀ env : Env, env.Sound → ∀ reason,
    .event (.onProtocolError reason) ∉ (handleToneOff cx env e.start).out

/-- How a call has been offered: in Group B, or with the acceptance. -/
structure R2Chan.Offering (cx : R2Context) (d : R2Chan) : Prop where
  callState : d.callState = .offered
  direction : d.direction = .backward
  group : d.mfGroup = .gb ∧ d.mfState = .chgGiiTxd ∨ d.mfGroup ≠ .gb ∧ d.mfState = .acceptedTxd ∧
    d.mfWriteTone = cx.gaTones.addressCompleteChargeSetup

section Offers

variable {cx cx' : R2Context} {env : Env} {c d e f : R2Chan} {t u : Tick} {mode : CallMode}

theorem TakesForAcceptance.handles {tone : Tone} (h : TakesForAcceptance cx f tone) (env : Env) :
    ∃ mode, handleBackwardMfSilence cx env tone f = handleAcceptTone cx env mode f := by
  obtain ⟨mode, hm⟩ := h
  exact ⟨mode, by rw [handleBackwardMfSilence_serves, hm]; rfl⟩

/-- The step that offers a call. -/
theorem tick_offering (he : t.env.Sound) (hb : c.direction = .backward)
    (ho : ∃ a ∈ (tick cx c t).2, a.Offers) : (tick cx c t).1.Offering cx := by
  obtain ⟨a, ha, hx⟩ := ho
  have hstart : ∀ a ∈ c.start.out, ¬ a.Offers := nofun
  have hoffer : ∀ d : R2Chan, (∀ a ∈ d.out, ¬ a.Offers) → a ∈ (offerCall cx t.env d).out →
      offerCall cx t.env d = (d.setCallState .offered).emit (.onCallOffered (cstr d.ani) (cstr d.dnis)
        (tone2category cx d.callerCategory) d.callerAniIsRestricted) := by
    intro d hd hm
    unfold offerCall at hm ⊢
    split_ifs at hm ⊢
    · have hw : d.Withholds (handleProtocolError cx t.env .invalidR2State d) :=
        .quiet (handleProtocolError_drops cx t.env d _).quietly.out
      exact absurd hx (hw.out hd a hm)
    · rfl
  have hl : Leads cx t.env c.start (tick cx c t).1 := tick_leads he.quiet hb
  change a ∈ (tick cx c t).1.out at ha
  generalize (tick cx c t).1 = k at hl ha ⊢
  cases hl with
  | withholds h => exact absurd hx (h.out hstart a ha)
  | offers d hn hg hm hk =>
    subst hk
    rw [hoffer d (hn.withholds.out hstart) ha]
    exact ⟨rfl, hn.direction.trans hb, .inl ⟨hn.mfGroup.trans hg, hm⟩⟩
  | bypasses d hn hg hk =>
    subst hk
    obtain ⟨ht, hw⟩ := prepareMfTone_on cx he cx.gaTones.addressCompleteChargeSetup
      (d.setMfState .acceptedTxd)
    have hd : (d.setMfState .acceptedTxd).Withholds (prepareMfTone cx t.env
        cx.gaTones.addressCompleteChargeSetup (d.setMfState .acceptedTxd)) := .quiet ht.stays.quietly.out
    have hp := hoffer _ (hd.out (hn.withholds.out hstart)) ha
    unfold bypassChangeToG2
    rw [hp]
    obtain ⟨⟨q, w, hf⟩, -⟩ := ht
    refine ⟨rfl, ?_, .inr ⟨?_, ?_, hw⟩⟩
    · change (prepareMfTone cx t.env _ (d.setMfState .acceptedTxd)).direction = _
      rw [hf]
      exact hn.direction.trans hb
    · change (prepareMfTone cx t.env _ (d.setMfState .acceptedTxd)).mfGroup ≠ _
      rw [hf]
      exact hn.mfGroup ▸ hg
    · change (prepareMfTone cx t.env _ (d.setMfState .acceptedTxd)).mfState = _
      rw [hf]
      rfl

/-- `accept_call` of a call that was offered. -/
theorem tick_accepting (hm : cx.Mfc) (he : u.env.Sound) (hu : u.input = .api (.acceptCall mode))
    (h : d.Offering cx) : (tick cx d u).1.direction = .backward ∧
      (tick cx d u).1.mfGroup = d.mfGroup ∧ (tick cx d u).1.mfState = .acceptedTxd ∧
        (tick cx d u).1.mfWriteTone = getToneFromMode cx mode := by
  have hx : (tick cx d u).1 = prepareMfTone cx u.env (getToneFromMode cx mode)
      (d.start.setMfState .acceptedTxd) := by
    have hc : ¬ d.start.callState ≠ .offered := not_not.mpr h.callState
    have hd : ¬ cx.detectDtmf = true := by simp [hm.detect]
    simp only [tick, hu, step, apiCall, acceptCall]
    rw [if_neg hc, if_neg hd]
  obtain ⟨⟨⟨q, w, hf⟩, -⟩, hw⟩ := prepareMfTone_on cx he (getToneFromMode cx mode)
    (d.start.setMfState .acceptedTxd)
  rw [hx]
  refine ⟨?_, ?_, ?_, hw⟩
  · rw [hf]
    exact h.direction
  · rw [hf]
    rfl
  · rw [hf]
    rfl

/-- The end of the tone is an error where the signalling is still in its first group. -/
theorem handleToneOff_accepted (cx : R2Context) (hs : env.Sound) (hd : e.direction = .backward)
    (hm : e.mfState = .acceptedTxd) (hg : e.mfGroup = .backInit ∨ e.mfGroup = .ga ∨ e.mfGroup = .gb ∨
      e.mfGroup = .gc) :
    (∀ reason, .event (.onProtocolError reason) ∉ (handleToneOff cx env e.start).out) ↔
      e.mfGroup ≠ .backInit := by
  have hx : e.start.direction = .backward := hd
  obtain ⟨ht, -⟩ := prepareMfTone_on cx hs 0 e.start
  obtain ⟨⟨q, w, hf⟩, as, ho, ha⟩ := ht
  have hkg : (setSilence cx env e.start).mfGroup = e.mfGroup := by
    rw [setSilence, hf]
    rfl
  have hkm : (setSilence cx env e.start).mfState = .acceptedTxd := by
    rw [setSilence, hf]
    exact hm
  have hko : ∀ reason, .event (.onProtocolError reason) ∉ (setSilence cx env e.start).out := by
    intro reason hmem
    have hmem : .event (.onProtocolError reason) ∈ (prepareMfTone cx env 0 e.start).out := hmem
    rw [ho] at hmem
    exact (List.mem_append.mp hmem).elim (by rintro ⟨⟩) fun hmem => ha _ hmem
  have hoff : (handleToneOff cx env e.start).out = (handleForwardMfSilence cx env e.start).out := by
    unfold handleToneOff
    dsimp only
    rw [hx]
    rfl
  rw [hoff]
  unfold handleForwardMfSilence
  generalize setSilence cx env e.start = k at hkg hkm hko
  have hend : ∀ reason, .event (.onProtocolError reason) ∉ (mfDanceEnded cx env k).out := by
    intro reason hmem
    obtain ⟨-, -, bs, hb, hdis⟩ := turnOffMfEngine_turnedOff cx k
    obtain ⟨cs, hc, htun⟩ := (R2Chan.Tuned.armTimer env .r2AnswerDelay cx.timers.r2AnswerDelay
      .readyToAnswer ((turnOffMfEngine cx k).setCallState .accepted)).out
    have hset : ((turnOffMfEngine cx k).setCallState .accepted).out =
        k.out ++ bs ++ [.callState .accepted] := congrArg (· ++ [Act.callState .accepted]) hb
    have hall : (mfDanceEnded cx env k).out = k.out ++ bs ++ [.callState .accepted] ++ cs := by
      rw [← hset]
      exact hc
    rw [hall] at hmem
    simp only [List.mem_append, List.mem_singleton] at hmem
    rcases hmem with ((hmem | hmem) | hmem) | hmem
    · exact hko reason hmem
    · exact hdis _ hmem
    · cases hmem
    · exact htun _ hmem
  rw [← hkg]
  rcases hg with hg | hg | hg | hg
  · have hg := hkg.trans hg
    refine iff_of_false (fun h => h .invalidMfGroup ?_) (not_not.mpr hg)
    simp only [hg, hkm]
    exact List.mem_append_right _ (List.mem_singleton.mpr rfl)
  · have hg := hkg.trans hg
    refine iff_of_true ?_ (hg ▸ (by rintro ⟨⟩))
    simpa only [hg, hkm] using hend
  · have hg := hkg.trans hg
    refine iff_of_true ?_ (hg ▸ (by rintro ⟨⟩))
    simpa only [hg, hkm] using hend
  · have hg := hkg.trans hg
    refine iff_of_true ?_ (hg ▸ (by rintro ⟨⟩))
    simpa only [hg, hkm] using hko

/-- In Group A, the tone of an acceptance is the one of a completed address, and no other. -/
theorem takesForAcceptance_gi {variant : Variant} (hv : cx.TonesOf variant) (hv' : cx'.TonesOf variant)
    (hf : f.mfGroup = .gi) {tone : Tone} (h0 : tone ≠ 0) :
    TakesForAcceptance cx' f tone ↔ tone = cx.gaTones.addressCompleteChargeSetup := by
  obtain ⟨e, he, hga, -⟩ := hv.entry
  obtain ⟨e', he', hga', -⟩ := hv'.entry
  obtain rfl : e = e' := Option.some.inj (he.symm.trans he')
  have hr : f.request cx' tone = groupARequest cx' tone f := by simp only [R2Chan.request, hf]
  unfold TakesForAcceptance
  rw [hr, hga, ← hga']
  constructor
  · rintro ⟨mode, hx⟩
    exact groupARequest_accepts hx
  · rintro rfl
    refine ⟨.withCharge, OnlyAccepts.accepts ?_ f⟩
    rw [hga'] at h0 ⊢
    exact (onlyAccepts_table e (variantEntry_mem he).1 h0).congr hga'.symm

/-- In Group B, the tone of every mode. -/
theorem takesForAcceptance_gii (hg : cx'.gbTones = cx.gbTones) (hf : f.mfGroup = .gii) (mode : CallMode) :
    TakesForAcceptance cx' f (getToneFromMode cx mode) := by
  have ht : getToneFromMode cx mode = getToneFromMode cx' mode := by
    cases mode <;> simp only [getToneFromMode, hg]
  refine ⟨getModeFromTone cx' (getToneFromMode cx mode), ?_⟩
  have ha : isAcceptTone cx' (getToneFromMode cx mode) := ht ▸ isAcceptTone_getToneFromMode cx' mode
  simp only [R2Chan.request, hf, groupBRequest, if_pos ha]

/-- In Group C, no tone. -/
theorem takesForAcceptance_giii (cx' : R2Context) (hf : f.mfGroup = .giii) (tone : Tone) :
    ¬ TakesForAcceptance cx' f tone := by
  rintro ⟨mode, hx⟩
  simp only [R2Chan.request, hf, groupCRequest, aniRequest] at hx
  split_ifs at hx

end Offers

section Calls

variable {cx cx' : R2Context} {c f : R2Chan} {t u : Tick} {mode : CallMode}

/-- A call is offered, and accepted with a mode. The calling side understands, and the called
side hears the end of it, in Group B, and outside it where the mode has no tone or that of a
completed address. -/
theorem accept_understood_iff {variant : Variant} (hv : cx.TonesOf variant) (hv' : cx'.TonesOf variant)
    (hm : cx.Mfc) (ht : t.env.Sound) (hb : c.direction = .backward)
    (ho : ∃ a ∈ (tick cx c t).2, a.Offers) (hu : u.input = .api (.acceptCall mode)) (hs : u.env.Sound)
    (hf : (tick cx c t).1.mfGroup.Meets f.mfGroup) :
    let d := (tick cx c t).1
    AcceptUnderstood cx cx' d (tick cx d u).1 f ↔
      d.mfGroup = .gb ∨
      d.mfGroup = .ga ∧ (getToneFromMode cx mode = 0 ∨
        getToneFromMode cx mode = cx.gaTones.addressCompleteChargeSetup) ∨
      d.mfGroup = .gc ∧ cx.gaTones.addressCompleteChargeSetup = 0 ∧ getToneFromMode cx mode = 0 := by
  have hd := tick_offering ht hb ho
  generalize (tick cx c t).1 = d at hd hf
  dsimp only
  obtain ⟨hed, heg, hem, hew⟩ := tick_accepting hm hs hu hd
  generalize (tick cx d u).1 = e at hed heg hem hew
  have hsilence : d.mfGroup = .backInit ∨ d.mfGroup = .ga ∨ d.mfGroup = .gb ∨ d.mfGroup = .gc →
      ((∀ env : Env, env.Sound → ∀ reason,
        .event (.onProtocolError reason) ∉ (handleToneOff cx env e.start).out) ↔
          d.mfGroup ≠ .backInit) := by
    intro hg
    have hx := fun env (he : Env.Sound env) => handleToneOff_accepted cx he hed hem (heg ▸ hg)
    rw [← heg]
    exact ⟨fun h => (hx (Env.fair 0) (Env.fair_sound 0)).mp (h _ (Env.fair_sound 0)),
      fun h env he => (hx env he).mpr h⟩
  have hacc : AcceptUnderstood cx cx' d e f ↔
      ((d.mfState = .acceptedTxd → cx.gaTones.addressCompleteChargeSetup ≠ 0 →
        TakesForAcceptance cx' f cx.gaTones.addressCompleteChargeSetup) ∧
      (getToneFromMode cx mode ≠ 0 → TakesForAcceptance cx' f (getToneFromMode cx mode))) ∧
      d.mfGroup ≠ .backInit := by
    have hw : d.mfState = .acceptedTxd → d.mfWriteTone = cx.gaTones.addressCompleteChargeSetup := by
      intro hx
      rcases hd.group with ⟨-, hm⟩ | ⟨-, -, hw⟩
      · exact absurd (hm.symm.trans hx) nofun
      · exact hw
    have hg : d.mfGroup = .backInit ∨ d.mfGroup = .ga ∨ d.mfGroup = .gb ∨ d.mfGroup = .gc := by
      rcases hf with ⟨h | h, -⟩ | ⟨h, -⟩ | ⟨h, -⟩ <;> simp [h]
    constructor
    · rintro ⟨ho, ha, hsil⟩
      rw [hem, hew] at ha
      exact ⟨⟨fun hx => hw hx ▸ ho hx, ha rfl⟩, (hsilence hg).mp hsil⟩
    · rintro ⟨⟨ho, ha⟩, hn⟩
      refine ⟨fun hx => (hw hx).symm ▸ ho hx, fun _ => ?_, (hsilence hg).mpr hn⟩
      rw [hew]
      exact ha
  rw [hacc]
  have hgroup := hd.group
  generalize d.mfGroup = g at hf hgroup ⊢
  rcases hf with ⟨rfl | rfl, hk⟩ | ⟨rfl, hk⟩ | ⟨rfl, hk⟩
  · -- in the first group the end of the tone is an error
    exact iff_of_false (fun h => h.2 rfl) (by simp)
  · -- in Group A, one tone
    have htone : ∀ tone : Tone, tone ≠ 0 → (TakesForAcceptance cx' f tone ↔
        tone = cx.gaTones.addressCompleteChargeSetup) := fun _ h0 => takesForAcceptance_gi hv hv' hk h0
    constructor
    · rintro ⟨⟨-, ha⟩, -⟩
      by_cases h0 : getToneFromMode cx mode = 0
      · exact .inr (.inl ⟨rfl, .inl h0⟩)
      · exact .inr (.inl ⟨rfl, .inr ((htone _ h0).mp (ha h0))⟩)
    · rintro (h | ⟨-, h⟩ | ⟨h, -⟩)
      · exact nomatch h
      · exact ⟨⟨fun _ h0 => (htone _ h0).mpr rfl, fun h0 => (htone _ h0).mpr (h.resolve_left h0)⟩, nofun⟩
      · exact nomatch h
  · -- in Group B, the tone of every mode
    have htables : cx'.gbTones = cx.gbTones := by
      obtain ⟨e, he, -, hgb, -⟩ := hv.entry
      obtain ⟨e', he', -, hgb', -⟩ := hv'.entry
      obtain rfl : e = e' := Option.some.inj (he.symm.trans he')
      exact hgb'.trans hgb.symm
    refine iff_of_true ⟨⟨fun hx => ?_, fun _ => takesForAcceptance_gii htables hk mode⟩, nofun⟩ (.inl rfl)
    rcases hgroup with ⟨-, hm⟩ | ⟨hn, -⟩
    · exact absurd (hm.symm.trans hx) nofun
    · exact absurd rfl hn
  · -- in Group C, no tone
    have htone := takesForAcceptance_giii cx' hk
    constructor
    · rintro ⟨⟨ho, ha⟩, -⟩
      have hm : d.mfState = .acceptedTxd := by
        rcases hgroup with ⟨h, -⟩ | ⟨-, hm, -⟩
        · exact nomatch h
        · exact hm
      exact .inr (.inr ⟨rfl, by_contra fun h0 => htone _ (ho hm h0), by_contra fun h0 => htone _ (ha h0)⟩)
    · rintro (h | ⟨h, -⟩ | ⟨-, h0, h1⟩)
      · exact nomatch h
      · exact nomatch h
      · exact ⟨⟨fun _ hx => absurd h0 hx, fun hx => absurd h1 hx⟩, nofun⟩

end Calls

/-- The called side asks for the caller's number in Group A. At its end it offers the call. -/
def aniAskedChannel (cx : R2Context) : R2Chan :=
  (run cx (seizeTicks ++ toneTicks (Env.fair 0x1) [Tone.t5, Tone.t1]) (restingChannel cx)).1

/-- The calling side sends in Group I. -/
def sendingChannel (cx : R2Context) : R2Chan :=
  (run cx (seizeAckTick :: toneTicks (Env.fair 0xD) [Tone.t5]) (callingChannel cx none [Tone.t5])).1

theorem accept_understood_charged :
    let cx := setImmediateAccept 1 (setAniFirst 0 (configureItu 10 1 R2Context.zero))
    let d := (tick cx (aniAskedChannel cx) ⟨Env.fair 0x1, .mfTone Tone.t15⟩).1
    AcceptUnderstood cx cx d (tick cx d ⟨Env.fair 0x1, .api (.acceptCall .withCharge)⟩).1
        (sendingChannel cx) ↔
      d.mfGroup = .gb ∨
      d.mfGroup = .ga ∧ (getToneFromMode cx .withCharge = 0 ∨
        getToneFromMode cx .withCharge = cx.gaTones.addressCompleteChargeSetup) ∨
      d.mfGroup = .gc ∧ cx.gaTones.addressCompleteChargeSetup = 0 ∧
        getToneFromMode cx .withCharge = 0 := by
  have ht : (setImmediateAccept 1 (setAniFirst 0 (configureItu 10 1 R2Context.zero))).TonesOf .itu :=
    ⟨10, 1, _, rfl, rfl, rfl, rfl, rfl, rfl⟩
  exact accept_understood_iff ht ht ⟨rfl, rfl⟩ (Env.fair_sound 0x1) (by decide +kernel)
    ⟨.event (.onCallOffered [] [Tone.t5] .nationalSubscriber false), by decide +kernel, trivial⟩ rfl
    (Env.fair_sound 0x1) (by decide +kernel)

/-- A call offered with the acceptance, and accepted without charge. The tone asks again for a digit. -/
theorem free_call_not_understood :
    ¬ ∀ (variant : Variant) (cx cx' : R2Context) (c f : R2Chan) (t u : Tick) (mode : CallMode),
      cx.TonesOf variant → cx'.TonesOf variant → cx.Mfc → cx.immediateAccept = true → t.env.Sound →
        c.direction = .backward → (∃ a ∈ (tick cx c t).2, a.Offers) → u.input = .api (.acceptCall mode) →
          u.env.Sound → (tick cx c t).1.mfGroup.Meets f.mfGroup →
            AcceptUnderstood cx cx' (tick cx c t).1 (tick cx (tick cx c t).1 u).1 f := by
  intro h
  let cx := setImmediateAccept 1 (setAniFirst 0 (configureItu 10 1 R2Context.zero))
  have ht : cx.TonesOf .itu := ⟨10, 1, _, rfl, rfl, rfl, rfl, rfl, rfl⟩
  have hx := h .itu cx cx (aniAskedChannel cx) (sendingChannel cx) ⟨Env.fair 0x1, .mfTone Tone.t15⟩
    ⟨Env.fair 0x1, .api (.acceptCall .noCharge)⟩ .noCharge ht ht ⟨rfl, rfl⟩ rfl (Env.fair_sound 0x1)
    (by decide +kernel)
    ⟨.event (.onCallOffered [] [Tone.t5] .nationalSubscriber false), by decide +kernel, trivial⟩ rfl
    (Env.fair_sound 0x1) (by decide +kernel)
  have ha := hx.accepted (by decide +kernel) (by decide +kernel)
  rw [takesForAcceptance_gi ht ht (by decide +kernel) (by decide +kernel)] at ha
  exact absurd ha (by decide +kernel)

end OpenR2
