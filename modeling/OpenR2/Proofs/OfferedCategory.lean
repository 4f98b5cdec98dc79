import OpenR2.Media
import OpenR2.Proofs.CallSteps

namespace OpenR2

/-- The act is an offer. -/
def Act.Offers : Act → Prop
  | .event (.onCallOffered ..) => True
  | _ => False

theorem Act.Offers.collecting {a : Act} (h : a.Offers) : a.Collecting := by
  cases a with
  | event e => cases e <;> trivial
  | _ => exact h.elim

/-- Where a category is known, its tone is the one that was received. -/
theorem category2tone_tone2category (cx : R2Context) (tone : Tone)
    (h : tone2category cx tone ≠ .unknown) : category2tone cx (tone2category cx tone) = tone := by
  revert h
  simp only [tone2category]
  split_ifs with h1 h2 h3 h4 h5 h6 h7
  · exact fun _ => h1
  · exact fun _ => h2
  · exact fun _ => h3
  · exact fun _ => h4
  · exact fun _ => h5
  · exact fun _ => h6
  · exact fun _ => h7
  · exact fun h => absurd rfl h

/-- Silence is a category only where the tone of one is missing. -/
theorem tone2category_invalid (cx : R2Context) :
    tone2category cx Tone.invalid = .unknown ↔ ∀ cat, category2tone cx cat ≠ Tone.invalid := by
  constructor
  · intro h
    simp only [tone2category] at h
    split_ifs at h with h1 h2 h3 h4 h5 h6 h7
    intro cat
    cases cat with
    | unknown => exact h1
    | nationalSubscriber => exact h1
    | nationalPrioritySubscriber => exact h2
    | internationalSubscriber => exact h3
    | internationalPrioritySubscriber => exact h4
    | collectCall => exact h5
    | testEquipment => exact h6
    | payPhone => exact h7
  · intro h
    by_contra hx
    exact h _ (category2tone_tone2category cx Tone.invalid hx)

namespace R2Chan

/-- A call of this side keeps its category, or it is over; nothing is offered. -/
structure Spares (c d : R2Chan) : Prop where
  held : d.Held
  out : ∃ as, d.out = c.out ++ as ∧ (∀ a ∈ as, ¬ a.Offers) ∧
    (d.direction = .backward → c.direction = .backward ∧ d.callerCategory = c.callerCategory ∧
      .callState .idle ∉ as)

namespace Spares

variable {c d e : R2Chan}

theorem refl (h : c.Held) : c.Spares c :=
  ⟨h, [], (List.append_nil _).symm, by simp, fun hb => ⟨hb, rfl, List.not_mem_nil⟩⟩

theorem trans (h : c.Spares d) (h' : d.Spares e) : c.Spares e := by
  obtain ⟨-, as, ho, ha, hd⟩ := h
  obtain ⟨hh, bs, ho', hb, he⟩ := h'
  refine ⟨hh, as ++ bs, by rw [ho', ho, List.append_assoc], fun a hm => ?_, fun hx => ?_⟩
  · exact (List.mem_append.mp hm).elim (ha a) (hb a)
  · obtain ⟨h1, h2, h3⟩ := he hx
    obtain ⟨h4, h5, h6⟩ := hd h1
    exact ⟨h4, h2.trans h5, fun hm => (List.mem_append.mp hm).elim h6 h3⟩

theorem aside (hc : c.Held) (h : c.Aside d) : c.Spares d := by
  obtain ⟨as, ho, ha⟩ := h.passes.out
  refine ⟨h.held hc, as, ho, fun a hm hx => (ha a hm).1 hx.collecting, fun hb => ?_⟩
  exact ⟨h.direction ▸ hb, h.callerCategory, fun hm => (ha _ hm).2 rfl⟩

theorem isOver (hd : d.Held) (h : c.Dropped d) : c.Spares d := by
  obtain ⟨as, ho, -, ha⟩ := h.out
  exact ⟨hd, as, ho, fun a hm hx => ha a hm hx.collecting, fun hb => absurd hb h.direction⟩

end Spares

end R2Chan

section Dtmf

variable (cx : R2Context) (env : Env)

theorem callback_spares {c : R2Chan} (hc : c.Held) (e : Event) (he : ¬ (Act.event e).Offers) :
    c.Spares (callback cx env e c) := by
  have hm : c.Spares (c.emit e) :=
    ⟨hc.quiet rfl rfl rfl rfl, [.event e], rfl, by simpa using he, fun hb => ⟨hb, rfl, by simp⟩⟩
  have ht := callback_turns cx env (fun _ => False) c e
  have hh := ht.held hm.held
  refine hm.trans ?_
  by_cases hb : c.direction = .backward
  · rcases Turns.within (c := c.emit e) (hm.held.engaged hb) ht with h | h
    · exact .aside hm.held h
    · exact .isOver hh h
  · obtain ⟨hd, -, as, ho, ha⟩ := ht.quietly id id
    exact ⟨hh, as, ho, fun a hm hx => ha a hm hx.collecting, fun hx => absurd (hd hx) hb⟩

theorem receiveDtmfDigit_spares {c : R2Chan} (hc : c.Held) (digit : Tone) :
    c.Spares (receiveDtmfDigit cx env digit c) := by
  let d : R2Chan := { c.did (.storeDnis c.dnisLen digit) with
    dnis := (c.dnis.set c.dnisLen digit).set (c.dnisLen + 1) 0
    dnisLen := c.dnisLen + 1 }
  have hd : c.Spares d :=
    ⟨hc.quiet rfl rfl rfl rfl, [.storeDnis c.dnisLen digit], rfl, by simp [Act.Offers],
      fun hb => ⟨hb, rfl, by simp⟩⟩
  have hx := hd.trans (callback_spares cx env hd.held (.onDnisDigitReceived digit) id)
  have hs : ∀ {e : R2Chan}, e.Held → e.Spares (stopDnisCallback e) := fun he =>
    .aside he (.quiet rfl rfl rfl rfl rfl rfl rfl)
  simp only [receiveDtmfDigit]
  split_ifs
  · exact hx
  · exact hx.trans (hs hx.held)

theorem receiveDtmfDigits_spares {c : R2Chan} (hc : c.Held) (digits : List Tone) :
    c.Spares (receiveDtmfDigits cx env digits c) := by
  have hf : ∀ (l : List Tone) {d : R2Chan}, d.Held →
      d.Spares (l.foldl (fun c digit => receiveDtmfDigit cx env digit c) d) := by
    intro l
    induction l with
    | nil => exact fun h => .refl h
    | cons digit l ih =>
      intro d h
      have hd := receiveDtmfDigit_spares cx env h digit
      exact hd.trans (ih hd.held)
  simp only [receiveDtmfDigits]
  split_ifs
  · exact hf (cstr digits) hc
  · exact .refl hc

/-- The strings of one buffer. -/
theorem onDtmfReceived_spares (l : List (Option (List Tone))) {m : MediaChan} (h : m.chan.Held) :
    m.chan.Spares (l.foldl (fun m digits => onDtmfReceived cx env digits m) m).chan := by
  induction l generalizing m with
  | nil => exact .refl h
  | cons digits l ih =>
    cases digits with
    | none => exact ih h
    | some digits =>
      have hd := receiveDtmfDigits_spares cx env h digits
      exact hd.trans (ih (m := ⟨receiveDtmfDigits cx env digits m.chan, 0⟩) hd.held)

/-- The end of the DTMF digits offers a call that collects them, with a category of its own. -/
theorem handleDtmfEnd_cases {c : R2Chan} (hc : c.Held) :
    c.Spares (handleDtmfEnd cx env c) ∨
      c.direction = .backward ∧ (handleDtmfEnd cx env c).Held ∧
      (handleDtmfEnd cx env c).callerCategory = cx.g2Tones.nationalSubscriber ∧
      ∃ as ani dnis r, (handleDtmfEnd cx env c).out = c.out ++ as ++ [.event (.onCallOffered ani dnis
        (tone2category cx cx.g2Tones.nationalSubscriber) r)] ∧ (∀ a ∈ as, ¬ a.Offers) ∧
          .callState .idle ∉ as := by
  have hoff := R2Chan.Aside.turnOffMfEngine cx c
  have hd := R2Chan.Spares.aside hc hoff
  simp only [handleDtmfEnd]
  generalize turnOffMfEngine cx c = d at hoff hd ⊢
  split_ifs with hf
  · exact .inl (hd.trans (.aside hd.held (.emit d _ rfl)))
  · let e := d.setCallerCategory cx.g2Tones.nationalSubscriber
    by_cases hs : d.callState = .collecting
    · refine .inr ?_
      have hb : d.direction = .backward := hd.held.backward hs
      have he := hd.held.engaged hb
      have hoe : offerCall cx env e = (e.setCallState .offered).emit (.onCallOffered (cstr e.ani)
          (cstr e.dnis) (tone2category cx e.callerCategory) e.callerAniIsRestricted) := if_neg (not_not.mpr hs)
      rw [show d.setCallerCategory cx.g2Tones.nationalSubscriber = e from rfl, hoe]
      obtain ⟨as, ho, ha⟩ := hoff.passes.out
      refine ⟨hoff.direction ▸ hb, ⟨fun _ => ⟨nofun, he.line⟩, nofun, fun hr => absurd hr he.line.1⟩, rfl,
        as ++ [.callState .offered], cstr e.ani, cstr e.dnis, e.callerAniIsRestricted, ?_, ?_, ?_⟩
      · change (d.out ++ [_]) ++ [_] = _
        rw [ho]
        simp only [List.append_assoc]
        rfl
      · intro a hm
        rcases List.mem_append.mp hm with hm | hm
        · exact fun hx => (ha a hm).1 hx.collecting
        · rw [List.mem_singleton.mp hm]
          exact id
      · intro hm
        rcases List.mem_append.mp hm with hm | hm
        · exact (ha _ hm).2 rfl
        · exact nomatch List.mem_singleton.mp hm
    · have hoe : offerCall cx env e = handleProtocolError cx env .invalidR2State e := if_pos hs
      rw [show d.setCallerCategory cx.g2Tones.nationalSubscriber = e from rfl, hoe]
      have ho := handleProtocolError_drops cx env e .invalidR2State
      obtain ⟨as, hao, -, ha⟩ := ho.out
      refine .inl (hd.trans ⟨handleProtocolError_held cx env e _, as, hao, fun a hm hx => ?_, fun hb => ?_⟩)
      · exact ha a hm hx.collecting
      · exact absurd hb ho.direction

end Dtmf

section Stages

variable {cx : R2Context} {s : Stage}

@[simp] theorem Stage.finish_category : (s.finish cx).category = s.category := by
  unfold finish
  split_ifs <;> rfl

@[simp] theorem Stage.askWho_category : (s.askWho cx).category = s.category := by
  unfold askWho
  split_ifs
  · exact finish_category
  · rfl

@[simp] theorem Stage.aniDone_category : (s.aniDone cx).category = s.category := by
  unfold aniDone
  split_ifs
  · exact finish_category
  · rfl

theorem Stage.timeOut_category : (s.timeOut cx).category = s.category := by
  unfold timeOut
  split_ifs
  · exact askWho_category
  · exact finish_category

theorem Stage.hearDnis_category (more : Bool) (tone : Tone) :
    (s.hearDnis cx more tone).category = s.category := by
  simp only [hearDnis, dnisTaken, noMoreDnis]
  split_ifs <;> simp [addDnis, askDnis]

theorem Stage.hearAni_category (tone : Tone) : (s.hearAni cx tone).category = s.category := by
  simp only [hearAni]
  split_ifs <;> simp [addAni, askAni]

/-- Only the answer to the request for it changes the category. -/
theorem Stage.hear_category (more : Bool) (tone : Tone) :
    (s.hear cx more tone).category = if s.ExpectsCategory then tone else s.category := by
  unfold hear
  split_ifs with hd hc ha hc hc
  · obtain ⟨-, hm⟩ := hc
    rcases hd with ⟨-, hx⟩ | ⟨-, hx, -⟩ <;> exact nomatch hm.symm.trans hx
  · exact hearDnis_category more tone
  · obtain ⟨-, hm⟩ := hc
    rcases ha with ⟨-, hx⟩ | ⟨-, hx, -⟩ <;> exact nomatch hm.symm.trans hx
  · exact hearAni_category tone
  · simp only [hearCategory]
    split_ifs
    · rfl
    · exact finish_category
    · rfl
  · rfl

end Stages

/-- The step on the channel alone, where DTMF has no part in it. -/
def MediaTick.tick? (m : MediaChan) (t : MediaTick) : Option Tick :=
  match t.input with
  | .cas => some ⟨t.env, .cas⟩
  | .read h => if m.chan.detectingDtmf then none else h.mfTone.map fun tone => ⟨t.env, .mfTone tone⟩
  | .write _ => none
  | .timer id => some ⟨t.env, .timer id⟩
  | .api a => some ⟨t.env, .api a⟩
  | .alarm on => some ⟨t.env, .alarm on⟩

/-- The end of the DTMF digits is handled. -/
def DtmfEnds (cx : R2Context) (m : MediaChan) (t : MediaTick) : Prop :=
  match t.input with
  | .read h => m.chan.mfState ≠ .offState ∧ m.chan.detectingDtmf = true ∧ h.dtmfStatus = false ∧
      (h.dtmfDigits.foldl (fun m digits => onDtmfReceived cx t.env digits m)
        (m.on R2Chan.start)).dtmfSilenceSamples + chanReadSize = dtmfMaxSilenceSamples
  | .write sent => m.chan.dialingDtmf = true ∧ sent = true
  | _ => False

/-- This tone is received as the category, or made up at the end of the DTMF digits. -/
def CategoryGiven (cx : R2Context) (tone : Tone) (m : MediaChan) (t : MediaTick) : Prop :=
  (∃ u ∈ t.tick? m, Comes cx m.chan u tone ∧ m.chan.stage.ExpectsCategory) ∨
    DtmfEnds cx m t ∧ tone = cx.g2Tones.nationalSubscriber

/-- The category of a call of this side is one that was given, in this step or before. -/
structure Gives (cx : R2Context) (given : Tone → Prop) (c d : R2Chan) : Prop where
  held : d.Held
  kept : d.direction = .backward → d.callerCategory ≠ 0 →
    (c.direction = .backward ∧ d.callerCategory = c.callerCategory ∨ given d.callerCategory) ∧
      .callState .idle ∉ d.out
  offers : ∀ ani dnis cat r, .event (.onCallOffered ani dnis cat r) ∈ d.out →
    cat = tone2category cx d.callerCategory ∧ .callState .idle ∉ d.out ∧
      (c.direction = .backward ∧ d.callerCategory = c.callerCategory ∨ given d.callerCategory) ∧
      ∀ tone, given tone → d.callerCategory = tone

section Gives

variable {cx : R2Context}

/-- In a call of this side that goes on, the category is the old one, or the tone that comes. -/
theorem Course.callerCategory {c d : R2Chan} {t : Tick} (h : Course cx c t d)
    (hb : c.direction = .backward) (hl : .callState .idle ∉ d.out) :
    d.callerCategory = c.callerCategory ∧ (∀ tone, Comes cx c t tone → ¬ c.stage.ExpectsCategory) ∨
      Comes cx c t d.callerCategory ∧ c.stage.ExpectsCategory := by
  cases h with
  | elsewhere h => exact absurd hb h
  | ends _ _ idle => exact absurd idle hl
  | lingers _ hn h => exact .inl ⟨congrArg Stage.category h.stage, fun tone hx => absurd hx (hn tone)⟩
  | hears tone hx _ _ stage =>
    have hs : d.callerCategory = if c.stage.ExpectsCategory then tone else c.callerCategory :=
      (congrArg Stage.category stage).trans (Stage.hear_category _ _)
    split_ifs at hs with hc
    · rw [hs]
      exact .inr ⟨hx, hc⟩
    · exact .inl ⟨hs, fun _ _ => hc⟩
  | expires he _ _ _ _ _ stage =>
    obtain ⟨id, _, hi, -⟩ := he
    refine .inl ⟨?_, fun tone hx => nomatch hi.symm.trans hx.1⟩
    exact (congrArg Stage.category stage).trans Stage.timeOut_category

theorem tick_gives {c : R2Chan} (hc : c.Held) (t : Tick) :
    Gives cx (fun tone => Comes cx c t tone ∧ c.stage.ExpectsCategory) c (tick cx c t).1 := by
  have hcourse : Course cx c t (tick cx c t).1 := tick_course hc
  have hh := tick_held cx c t hc
  generalize (tick cx c t).1 = d at hcourse hh ⊢
  refine ⟨hh, fun hd h0 => ?_, fun ani dnis cat r hm => ?_⟩
  · have hbl : c.direction = .backward ∧ .callState .idle ∉ d.out := by
      cases hcourse with
      | elsewhere _ fresh => exact absurd (fresh.blank hd) h0
      | ends _ fresh => exact absurd (fresh.blank hd) h0
      | lingers hb _ h =>
        obtain ⟨as, ho, ha⟩ := h.out
        rw [show c.start.out = [] from rfl, List.nil_append] at ho
        exact ⟨hb, fun hm => (ha _ (ho ▸ hm)).2 rfl⟩
      | hears _ hx _ _ _ live => exact ⟨hx.2.2.1, live⟩
      | expires _ hb _ _ _ _ _ live => exact ⟨hb, live⟩
    exact ⟨(hcourse.callerCategory hbl.1 hbl.2).imp_left fun h => ⟨hbl.1, h.1⟩, hbl.2⟩
  · obtain ⟨-, hcat, hl⟩ := hcourse.of_offer hm
    have hb : c.direction = .backward := by
      by_contra hb
      cases hcourse with
      | elsewhere _ _ silent => exact silent _ hm trivial
      | ends h => exact hb h
      | lingers h => exact hb h
      | hears _ hx => exact hb hx.2.2.1
      | expires _ h => exact hb h
    have hx := hcourse.callerCategory hb hl
    refine ⟨hcat, hl, hx.imp_left fun h => ⟨hb, h.1⟩, fun tone hg => ?_⟩
    rcases hx with hx | hx
    · exact absurd hg.2 (hx.2 tone hg.1)
    · exact hx.1.unique hg.1

theorem Gives.congr {given given' : Tone → Prop} {c d : R2Chan} (hg : ∀ tone, given tone ↔ given' tone)
    (h : Gives cx given c d) : Gives cx given' c d := by
  rwa [← funext fun tone => propext (hg tone)]

theorem R2Chan.Spares.gives {given : Tone → Prop} {c d : R2Chan} (h : c.start.Spares d) :
    Gives cx given c d := by
  obtain ⟨hh, as, ho, ha, hd⟩ := h
  rw [show c.start.out = [] from rfl, List.nil_append] at ho
  rw [← ho] at ha hd
  refine ⟨hh, fun hb _ => ?_, fun _ _ _ _ hm => absurd trivial (ha _ hm)⟩
  obtain ⟨h1, h2, h3⟩ := hd hb
  exact ⟨.inl ⟨h1, h2⟩, h3⟩

theorem handleDtmfEnd_gives (env : Env) {c d : R2Chan} (h : c.start.Spares d) :
    Gives cx (· = cx.g2Tones.nationalSubscriber) c (handleDtmfEnd cx env d) := by
  rcases handleDtmfEnd_cases cx env h.held with hx | ⟨hb, hh, hcat, as, ani, dnis, r, ho, ha, hi⟩
  · exact (h.trans hx).gives
  obtain ⟨-, bs, hbo, hbs, hd⟩ := h
  rw [show c.start.out = [] from rfl, List.nil_append] at hbo
  rw [hbo] at ho
  have hl : .callState .idle ∉ (handleDtmfEnd cx env d).out := by
    rw [ho]
    simp only [List.mem_append, List.mem_singleton, not_or]
    exact ⟨⟨(hd hb).2.2, hi⟩, nofun⟩
  refine ⟨hh, fun _ _ => ⟨.inr hcat, hl⟩, fun ani' dnis' cat r' hm => ?_⟩
  rw [ho] at hm
  simp only [List.mem_append, List.mem_singleton] at hm
  rcases hm with (hm | hm) | hm
  · exact absurd trivial (hbs _ hm)
  · exact absurd trivial (ha _ hm)
  · injection hm with hm
    injection hm with _ _ hm _
    exact ⟨hcat ▸ hm, hl, .inr hcat, fun tone ht => hcat.trans ht.symm⟩

/-- While DTMF is detected or dialled. -/
theorem dtmfStep_gives {m : MediaChan} (hc : m.chan.Held) (t : MediaTick) (ht : t.tick? m = none) :
    Gives cx (fun tone => DtmfEnds cx m t ∧ tone = cx.g2Tones.nationalSubscriber) m.chan
      (mediaTick cx m t).1.chan := by
  have hs : m.chan.start.Spares m.chan.start := .refl (hc.quiet rfl rfl rfl rfl)
  have hend : DtmfEnds cx m t → ∀ tone, tone = cx.g2Tones.nationalSubscriber ↔
      DtmfEnds cx m t ∧ tone = cx.g2Tones.nationalSubscriber := fun h _ => (and_iff_right h).symm
  obtain ⟨env, i⟩ := t
  cases i with
  | read x =>
    change Gives cx _ m.chan (handleRead cx env x (m.on R2Chan.start)).chan
    simp only [handleRead]
    split_ifs with hm hd
    · exact hs.gives
    · have hf := hs.trans (onDtmfReceived_spares cx env x.dtmfDigits (m := m.on R2Chan.start) hs.held)
      simp only [detectDtmf, dtmfSilence]
      split_ifs with hx hsil
      · exact hf.gives
      · exact (handleDtmfEnd_gives env hf).congr
          (hend ⟨hm, hd, Bool.eq_false_of_not_eq_true hx, hsil⟩)
      · exact hf.gives
    · cases hx : x.mfTone with
      | none => exact hs.gives
      | some tone =>
        have hd : ¬ m.chan.detectingDtmf = true := hd
        simp [MediaTick.tick?, hx, hd] at ht
  | write sent =>
    change Gives cx _ m.chan (handleWrite cx env sent m.chan.start)
    simp only [handleWrite]
    split_ifs with hw
    · exact (handleDtmfEnd_gives env hs).congr (hend hw)
    · exact hs.gives
  | cas | timer | api | alarm => exact nomatch ht

/-- Where no DTMF is to be detected, a buffer is for the MF detector. -/
theorem handleRead_media (env : Env) (m : MediaChan) {h : Heard} {tone : Tone}
    (hd : ¬ m.chan.detectingDtmf = true) (hx : h.mfTone = some tone) :
    (handleRead cx env h m).chan = handleMedia cx env tone m.chan := by
  simp only [handleRead, handleMedia, if_neg hd, hx]
  split_ifs <;> rfl

theorem mediaTick_tick (cx : R2Context) {m : MediaChan} {t : MediaTick} {u : Tick} (h : t.tick? m = some u) :
    (mediaTick cx m t).1.chan = (tick cx m.chan u).1 ∧ ¬ DtmfEnds cx m t := by
  obtain ⟨env, i⟩ := t
  cases i with
  | read x =>
    simp only [MediaTick.tick?] at h
    split_ifs at h with hd
    refine ⟨?_, fun hx => hd hx.2.1⟩
    cases hx : x.mfTone with
    | none => simp [hx] at h
    | some tone =>
      rw [hx] at h
      obtain rfl := Option.some.inj h
      exact handleRead_media env (m.on R2Chan.start) hd hx
  | write => exact nomatch h
  | _ =>
    obtain rfl := Option.some.inj h
    exact ⟨rfl, id⟩

theorem mediaTick_gives (cx : R2Context) {m : MediaChan} (hc : m.chan.Held) (t : MediaTick) :
    Gives cx (CategoryGiven cx · m t) m.chan (mediaTick cx m t).1.chan := by
  cases h : t.tick? m with
  | none =>
    refine (dtmfStep_gives hc t h).congr fun tone => ?_
    simp [CategoryGiven, h]
  | some u =>
    obtain ⟨he, hd⟩ := mediaTick_tick cx h
    rw [he]
    refine (tick_gives hc u).congr fun tone => ?_
    simp [CategoryGiven, h, hd]

end Gives

/-- The tone was given as the category in this call. -/
def CategoryKnown (cx : R2Context) (tone : Tone) : List MediaTick → MediaChan → Prop :=
  Runs.Since (mediaTick cx) (· = .callState .idle) (CategoryGiven cx tone)

/-- Where the step offers the call with a category, its tone is valid and was given in the call. -/
def CategoryHonest (cx : R2Context) (js : List MediaTick) (t : MediaTick) (m : MediaChan) : Prop :=
  ∀ ani dnis cat r, .event (.onCallOffered ani dnis cat r) ∈ (mediaTick cx (mediaRun cx js m).1 t).2 →
    cat ≠ .unknown →
      category2tone cx cat ≠ Tone.invalid ∧ CategoryKnown cx (category2tone cx cat) (js ++ [t]) m

/-- The step offers a call that has no category, and gives it none. -/
def OffersBlank (cx : R2Context) (m : MediaChan) (t : MediaTick) : Prop :=
  (∃ a ∈ (mediaTick cx m t).2, a.Offers) ∧
    (CategoryGiven cx Tone.invalid m t ∨
      m.chan.callerCategory = Tone.invalid ∧ ∀ tone, ¬ CategoryGiven cx tone m t)

section Honest

variable {cx : R2Context} {m : MediaChan}

theorem mediaRun_held (hc : m.chan.Held) (js : List MediaTick) : (mediaRun cx js m).1.chan.Held := by
  refine Runs.exec_invariant (P := fun m : MediaChan => m.chan.Held) ?_ js m
    (.always (fun _ _ => trivial) js m) hc
  exact fun m t _ h => (mediaTick_gives cx h t).held

/-- The category of a call is one that was given in it. -/
theorem category_known (hc : Started cx m.chan) {tone : Tone} (h0 : tone ≠ Tone.invalid)
    (js : List MediaTick) (hb : (mediaRun cx js m).1.chan.direction = .backward)
    (ht : (mediaRun cx js m).1.chan.callerCategory = tone) : CategoryKnown cx tone js m := by
  refine (@Runs.exec_since _ _ _ (mediaTick cx) (· = .callState .idle) (CategoryGiven cx tone)
    (fun p m => m.chan.Held ∧ (m.chan.direction = .backward → m.chan.callerCategory = tone → p))
    (fun _ _ _ => True) ?_ js m (fun _ _ _ => trivial)
    ⟨hc.held, fun hd hx => h0 (hx.symm.trans (hc.fresh.blank hd))⟩).2 hb ht
  intro p m t _ ⟨hm, hp⟩
  have hg := mediaTick_gives cx hm t
  refine ⟨hg.held, fun hd hx => ?_⟩
  obtain ⟨hk, hl⟩ := hg.kept hd fun h => h0 (hx.symm.trans h)
  refine ⟨hk.imp (fun ⟨h1, h2⟩ => hp h1 (h2.symm.trans hx)) fun h => hx ▸ h, fun a ha he => ?_⟩
  exact hl (he ▸ ha)

/-- The category of an offer was given in the call, unless a call without one is offered where
the tone of some category is missing. -/
theorem offered_category_known (hc : Started cx m.chan) (js : List MediaTick) (t : MediaTick) :
    CategoryHonest cx js t m ↔
      (∀ cat, category2tone cx cat ≠ Tone.invalid) ∨ ¬ OffersBlank cx (mediaRun cx js m).1 t := by
  rw [← tone2category_invalid]
  have hh : (mediaRun cx js m).1.chan.Held := mediaRun_held hc.held js
  have hg := mediaTick_gives cx hh t
  have hs : mediaRun cx (js ++ [t]) m =
      ((mediaTick cx (mediaRun cx js m).1 t).1,
        (mediaRun cx js m).2 ++ (mediaTick cx (mediaRun cx js m).1 t).2) := by
    simp [mediaRun, Runs.exec_append, Runs.exec]
  have ho : (mediaTick cx (mediaRun cx js m).1 t).2 =
      (mediaTick cx (mediaRun cx js m).1 t).1.chan.out := rfl
  constructor
  · intro h
    by_contra hn
    simp only [not_or, not_not] at hn
    obtain ⟨hx, ⟨a, hm, ha⟩, hb⟩ := hn
    cases a with
    | event e =>
      cases e with
      | onCallOffered ani dnis cat r =>
        obtain ⟨hcat, -, hk, hu⟩ := hg.offers ani dnis cat r (ho ▸ hm)
        have h0 : (mediaTick cx (mediaRun cx js m).1 t).1.chan.callerCategory = Tone.invalid := by
          rcases hb with hb | ⟨hb, hn⟩
          · exact hu _ hb
          · rcases hk with ⟨-, hk⟩ | hk
            · exact hk.trans hb
            · exact absurd hk (hn _)
        rw [h0] at hcat
        rw [← hcat] at hx
        refine (h ani dnis cat r hm hx).1 ?_
        rw [hcat] at hx ⊢
        exact category2tone_tone2category cx _ hx
      | _ => exact ha.elim
    | _ => exact ha.elim
  · intro h ani dnis cat r hm hx
    obtain ⟨hcat, hl, hk, hu⟩ := hg.offers ani dnis cat r (ho ▸ hm)
    have hr : category2tone cx cat = (mediaTick cx (mediaRun cx js m).1 t).1.chan.callerCategory := by
      rw [hcat] at hx ⊢
      exact category2tone_tone2category cx _ hx
    have h0 : (mediaTick cx (mediaRun cx js m).1 t).1.chan.callerCategory ≠ Tone.invalid := by
      intro h0
      rcases h with h | h
      · rw [hcat, h0] at hx
        exact hx h
      · refine h ⟨⟨_, hm, trivial⟩, ?_⟩
        rcases hk with ⟨-, hk⟩ | hk
        · by_cases hg : CategoryGiven cx Tone.invalid (mediaRun cx js m).1 t
          · exact .inl hg
          · refine .inr ⟨hk.symm.trans h0, fun tone ht => hg ?_⟩
            rwa [← h0, hu tone ht]
        · exact .inl (h0 ▸ hk)
    rw [hr]
    refine ⟨h0, ?_⟩
    rw [CategoryKnown, Runs.since_snoc]
    refine ⟨hk.imp_left fun hk => ?_, fun a ha he => hl (he ▸ ho ▸ ha)⟩
    exact category_known hc h0 js hk.1 hk.2.symm

end Honest

/-- A step of a channel that detects no DTMF. -/
def mfTick (t : Tick) : MediaTick where
  env := t.env
  input := match t.input with
    | .cas => .cas
    | .mfTone tone => .read ⟨some tone, [], false⟩
    | .timer id => .timer id
    | .api a => .api a
    | .alarm on => .alarm on

/-- A call with its category, which is asked for after the first digit. -/
theorem offered_category_known_itu :
    let cx := configureItu 0 1 R2Context.zero
    let m : MediaChan := ⟨restingChannel cx, 0⟩
    let js := (seizeTicks ++ toneTicks (Env.fair 0x1) [Tone.t5, Tone.t1]).map mfTick
    CategoryHonest cx js (mfTick ⟨Env.fair 0x1, .mfTone Tone.t1⟩) m := by
  intro cx m js
  have hc : Started cx m.chan := .idle (Env.fair 0x9) R2Chan.new
  refine (offered_category_known hc js _).mpr (.inr ?_)
  rintro ⟨-, (⟨u, hu, -, hx⟩ | ⟨hx, -⟩) | ⟨hx, -⟩⟩
  · exact absurd hx (by decide +kernel)
  · exact absurd hx.2.1 (by decide +kernel)
  · exact absurd hx (by decide +kernel)

/-- A call of which no category was asked is offered as a collect call. -/
theorem invented_collect_call :
    ¬ ∀ (cx : R2Context) (m : MediaChan), Started cx m.chan → ∀ js t, CategoryHonest cx js t m := by
  intro h
  let cx := setSkipCategoryRequest 1 (configureItu 10 4 R2Context.zero)
  let js := (seizeTicks ++ toneTicks (Env.fair 0x1) [Tone.t5]).map mfTick
  have hc : Started cx (restingChannel cx) := .idle _ _
  have hx := h cx ⟨restingChannel cx, 0⟩ hc js (mfTick ⟨Env.fair 0x1, .mfTone Tone.t1⟩)
    [] [Tone.t5] .collectCall false (by decide +kernel) nofun
  exact absurd hx.1 (by decide)

end OpenR2
