import OpenR2.Proofs.CallSteps

namespace OpenR2

namespace Stage

variable {cx : R2Context} {p : Prop} {s : Stage}

/-- An offer does not come before the end of the DNIS, which `p` says has been told. -/
structure InTime (cx : R2Context) (p : Prop) (s : Stage) : Prop where
  offer : s.asked = .chgGiiTxd ∨ s.asked = .acceptedTxd → p ∨ s.Complete cx
  category : s.asked = .categoryRqTxd → p ∨ s.Complete cx ∨ cx.getAniFirst = true ∧ 0 < cx.maxAni
  ani : s.asked = .aniRqTxd → p ∨ s.Complete cx ∨ cx.getAniFirst = true

theorem InTime.mono {q : Prop} (h : s.InTime cx p) (hq : p → q) : s.InTime cx q :=
  ⟨fun hx => (h.offer hx).imp_left hq, fun hx => (h.category hx).imp_left hq,
    fun hx => (h.ani hx).imp_left hq⟩

theorem askDnis_inTime (s : Stage) : s.askDnis.InTime cx p :=
  ⟨fun h => h.elim nofun nofun, nofun, nofun⟩

theorem askAni_inTime (h : p ∨ s.Complete cx ∨ cx.getAniFirst = true) : s.askAni.InTime cx p :=
  ⟨fun h => h.elim nofun nofun, nofun, fun _ => h⟩

theorem askGroupTwo_inTime (h : p ∨ s.Complete cx) : s.askGroupTwo.InTime cx p :=
  ⟨fun _ => h, nofun, nofun⟩

theorem finish_inTime (h : p ∨ s.Complete cx) : (s.finish cx).InTime cx p := by
  unfold finish
  split_ifs
  · exact ⟨fun _ => h, nofun, nofun⟩
  · exact askGroupTwo_inTime h

theorem askWho_inTime (h : p ∨ s.Complete cx ∨
    cx.skipCategory = false ∧ cx.getAniFirst = true ∧ 0 < cx.maxAni) : (s.askWho cx).InTime cx p := by
  unfold askWho
  split_ifs with hs
  · refine finish_inTime (h.imp_right fun h => h.resolve_right fun h => ?_)
    exact absurd (h.1.symm.trans hs) (by decide)
  · exact ⟨fun h => h.elim nofun nofun, fun _ => h.imp_right (Or.imp_right (·.2)), nofun⟩

theorem aniDone_inTime (h : p ∨ s.Complete cx ∨ cx.getAniFirst = true) :
    (s.aniDone cx).InTime cx p := by
  unfold aniDone
  split_ifs with hd
  · refine finish_inTime (h.imp_right fun h => h.elim id fun h => ?_)
    exact hd.resolve_left (by simp [h])
  · exact askDnis_inTime s

/-- A first digit is all of the number, or the ANI follows and then the rest. -/
theorem dnisTaken_inTime {more : Bool} (hm : more = false → p)
    (hf : s.dnisLen = 1 → cx.getAniFirst = true → more = true →
      p ∨ s.Complete cx ∨ cx.skipCategory = false ∧ 0 < cx.maxAni) :
    (s.dnisTaken cx more).InTime cx p := by
  unfold dnisTaken
  split_ifs with hd h1 h1
  · exact askWho_inTime ((hd.imp_right hm).symm.imp_right .inl)
  · exact finish_inTime (hd.imp_right hm).symm
  · have hmore : more = true := Bool.eq_true_of_not_eq_false fun hx => hd (.inr hx)
    exact askWho_inTime ((hf h1.1 h1.2 hmore).imp_right (Or.imp_right fun h => ⟨h.1, h1.2, h.2⟩))
  · exact askDnis_inTime s

theorem noMoreDnis_inTime (h : p) : (s.noMoreDnis cx).InTime cx p := by
  unfold noMoreDnis
  split_ifs
  · exact askWho_inTime (.inl h)
  · exact finish_inTime (.inl h)

theorem timeOut_inTime (h : p ∨ s.Complete cx) : (s.timeOut cx).InTime cx p := by
  unfold timeOut
  split_ifs
  · exact askWho_inTime (h.imp_right .inl)
  · exact finish_inTime h

/-- The tone of the caller, in a call in which all offers are in time so far. -/
theorem InTime.hear {more : Bool} {tone : Tone} (h : s.asked.Asks → s.InTime cx p)
    (hu : s.Understands cx tone)
    (hs : s.ExpectsDnis cx → tone.isDigit = true → more = false → p)
    (hn : s.ExpectsDnis cx → tone.isDigit = false → p)
    (hf : s.ExpectsDnis cx → tone.isDigit = true → s.dnisLen = 0 → cx.getAniFirst = true →
      more = true → p ∨ s.addDnis.Complete cx ∨ cx.skipCategory = false ∧ 0 < cx.maxAni) :
    (s.hear cx more tone).InTime cx p := by
  unfold Stage.hear
  split_ifs with hd ha hc
  · unfold hearDnis
    split_ifs with ht
    · exact dnisTaken_inTime (hs hd ht) fun h1 => hf hd ht (addDnis_dnisLen h1)
    · exact noMoreDnis_inTime (hn hd (Bool.eq_false_of_not_eq_true ht))
  · have hw : p ∨ s.Complete cx ∨ cx.getAniFirst = true := by
      rcases ha with ⟨-, hm⟩ | ⟨-, -, hg, -⟩
      · exact (h (.inr (.inr (.inl hm)))).ani hm
      · exact .inr (.inr hg)
    unfold hearAni
    split_ifs
    · exact askAni_inTime hw
    · exact aniDone_inTime hw
    · exact aniDone_inTime hw
  · have hw := (h (.inl hc.2)).category hc.2
    simp only [hearCategory]
    split_ifs with hx
    · exact askAni_inTime (hw.imp_right (Or.imp_right (·.1)))
    · exact finish_inTime (hw.imp_right fun hw => hw.resolve_right fun hw => hx hw.2)
    · exact askGroupTwo_inTime (hw.imp_right fun hw => hw.resolve_right fun hw => hx hw.2)
  · rw [Understands, if_neg hd, if_neg ha] at hu
    exact h (.inr (.inr (.inr (hu.resolve_left hc).2)))

end Stage

/-- The end of the DNIS is told: by the user, by the caller, or by the silence that follows
a request for one more digit. -/
def DnisOver (cx : R2Context) (c : R2Chan) (t : Tick) : Prop :=
  StopsDnis cx c t ∨ NoMoreDnisComes cx c t ∨
    c.direction = .backward ∧ CycleExpires c t ∧ c.mfState = .dnisRqTxd

/-- The first digit of a longer number comes, and no ANI is to be asked for after it. -/
def FirstDigitOnly (cx : R2Context) (c : R2Chan) (t : Tick) : Prop :=
  ∃ tone, Comes cx c t tone ∧ tone.isDigit = true ∧ c.stage.ExpectsDnis cx ∧ c.dnisLen = 0 ∧
    wantsMore cx c t tone = true ∧ ¬ c.stage.addDnis.Complete cx ∧ cx.getAniFirst = true ∧
    (cx.skipCategory = true ∨ cx.maxAni ≤ 0)

/-- The silence of the caller ends the ANI, where the DNIS is not complete. -/
def AniCutShort (cx : R2Context) (c : R2Chan) (t : Tick) : Prop :=
  c.direction = .backward ∧ CycleExpires c t ∧ cx.g1Tones.noMoreDnisAvailable = Tone.invalid ∧
    c.mfGroup = .ga ∧ c.mfState = .aniRqTxd ∧ ¬ dnisComplete cx c

/-- The step leads to an offer without the rest of a number that is not over. -/
def DnisCutShort (cx : R2Context) (done : Prop) (c : R2Chan) (t : Tick) : Prop :=
  ¬ done ∧ (FirstDigitOnly cx c t ∨ AniCutShort cx c t)

section Complete

variable {cx : R2Context} {c : R2Chan} {t : Tick}

theorem understands_noMoreDnis {tone : Tone} (hc : Comes cx c t tone) (hu : c.stage.Understands cx tone)
    (he : c.stage.ExpectsDnis cx) (ht : tone.isDigit = false) : NoMoreDnisComes cx c t := by
  rw [Stage.Understands, if_pos he] at hu
  exact ⟨tone, hc, ht, he, (hu.resolve_left (by simp [ht])).symm⟩

/-- What is asked for after a step is in time, if it was before. -/
theorem tick_inTime {p : Prop} (hc : c.Held) (hn : ¬ DnisCutShort cx p c t)
    (h : c.direction = .backward → c.mfState.Asks → c.stage.InTime cx p) :
    let d := (tick cx c t).1
    let q := (p ∨ DnisOver cx c t) ∧ .callState .idle ∉ (tick cx c t).2
    (d.direction = .backward → d.mfState.Asks → d.stage.InTime cx q) ∧
      ∀ ani dnis cat r, .event (.onCallOffered ani dnis cat r) ∈ (tick cx c t).2 →
        dnisComplete cx d ∨ q := by
  have hcourse : Course cx c t (tick cx c t).1 := tick_course hc
  have ho : (tick cx c t).2 = (tick cx c t).1.out := rfl
  rw [ho]
  generalize (tick cx c t).1 = d at hcourse ⊢
  intro d q
  have hoffer : (d.direction = .backward → d.mfState.Asks → d.stage.InTime cx q) ∧
      ((d.mfState = .acceptedTxd ∨ d.mfState = .chgGiiTxd) →
        (∃ ani dnis cat r, .event (.onCallOffered ani dnis cat r) ∈ d.out) → d.stage.InTime cx q) := by
    cases hcourse with
    | elsewhere _ fresh silent =>
      refine ⟨fun hd ha => absurd ha (fresh.asks hd), fun _ ⟨_, _, _, _, hm⟩ => ?_⟩
      exact absurd trivial (silent _ hm)
    | ends hb fresh idle acts =>
      refine ⟨fun hd ha => absurd ha (fresh.asks hd), fun _ ⟨_, _, _, _, hm⟩ => ?_⟩
      exact absurd idle (Course.of_offer (.ends hb fresh idle acts) hm).2.2
    | lingers hb hq hd =>
      obtain ⟨as, ho, ha⟩ := hd.out
      rw [show c.start.out = [] from rfl, List.nil_append] at ho
      have hq : ∀ a ∈ d.out, ¬ a.Collecting := fun a hm => (ha a (ho ▸ hm)).1
      refine ⟨fun _ hx => ?_, fun _ ⟨_, _, _, _, hm⟩ => absurd trivial (hq _ hm)⟩
      have hm : d.mfState = c.mfState := hd.asked.resolve_right fun h => h.not_asks hx
      have hs : d.stage = c.stage := by
        rw [hd.stage, hm]
        rfl
      rw [hs]
      refine (h hb (hm ▸ hx)).mono fun hp => ⟨.inl hp, ?_⟩
      rw [ho]
      exact fun hm => (ha _ hm).2 rfl
    | hears tone hx hu _ hs hl =>
      have hi : d.stage.InTime cx q := by
        rw [hs]
        refine Stage.InTime.hear (fun ha => (h hx.2.2.1 ha).mono fun hp => ⟨.inl hp, hl⟩) hu ?_ ?_ ?_
        · exact fun he ht hw => ⟨.inr (.inl ⟨tone, hx, ht, he, hw⟩), hl⟩
        · exact fun he ht => ⟨.inr (.inr (.inl (understands_noMoreDnis hx hu he ht))), hl⟩
        · intro he ht h0 hg hw
          by_contra hno
          simp only [not_or, not_and, not_lt] at hno
          refine hn ⟨fun hp => hno.1 ⟨.inl hp, hl⟩, .inl ⟨tone, hx, ht, he, h0, hw, hno.2.1, hg, ?_⟩⟩
          exact (Bool.eq_false_or_eq_true cx.skipCategory).imp_right hno.2.2
      exact ⟨fun _ _ => hi, fun _ _ => hi⟩
    | expires he hb hv hg hm _ hs hl =>
      have hi : d.stage.InTime cx q := by
        rw [hs]
        refine Stage.timeOut_inTime ?_
        rcases hm with hm | hm
        · exact .inl ⟨.inr (.inr (.inr ⟨hb, he, hm⟩)), hl⟩
        · by_contra hno
          simp only [not_or] at hno
          exact hn ⟨fun hp => hno.1 ⟨.inl hp, hl⟩, .inr ⟨hb, he, hv, hg, hm, hno.2⟩⟩
      exact ⟨fun _ _ => hi, fun _ _ => hi⟩
  refine ⟨hoffer.1, fun ani dnis cat r hm => ?_⟩
  have hs := (hcourse.of_offer hm).1
  exact ((hoffer.2 hs ⟨ani, dnis, cat, r, hm⟩).offer hs.symm).symm

/-- Every offered call has all of its DNIS, or its end was told. -/
def OffersComplete (cx : R2Context) (ts : List Tick) (c : R2Chan) : Prop :=
  ∀ js t, js ++ [t] <+: ts → ∀ ani dnis cat r,
    .event (.onCallOffered ani dnis cat r) ∈ (tick cx (run cx js c).1 t).2 →
      dnisComplete cx (run cx (js ++ [t]) c).1 ∨ InCall cx (DnisOver cx) (js ++ [t]) c

/-- No call is offered before the end of its DNIS, unless a step cuts the DNIS short. -/
theorem offers_complete (hc : Started cx c) {ts : List Tick}
    (hn : ∀ js t, js ++ [t] <+: ts →
      ¬ DnisCutShort cx (InCall cx (DnisOver cx) js c) (run cx js c).1 t) :
    OffersComplete cx ts c := by
  intro js t hj ani dnis cat r hm
  have hi := run_inCall (DnisOver cx)
    (fun p c => c.Held ∧ (c.direction = .backward → c.mfState.Asks → c.stage.InTime cx p))
    (fun p c t => ¬ DnisCutShort cx p c t)
    (fun p c t hn ⟨hc, hp⟩ => ⟨tick_held cx c t hc, (tick_inTime hc hn hp).1⟩) js c
    (fun us u hu => hn us u (hu.trans ((List.prefix_append js [t]).trans hj)))
    ⟨hc.held, fun hb ha => absurd ha (hc.fresh.asks hb)⟩
  rw [run_snoc, inCall_snoc]
  exact (tick_inTime hi.1 (hn js t hj) hi.2).2 ani dnis cat r hm

end Complete

/-- Without the ANI in between, a number of one digit and its category. -/
theorem offers_complete_itu :
    let cx := setAniFirst 0 (configureItu 10 1 R2Context.zero)
    OffersComplete cx (seizeTicks ++ toneTicks (Env.fair 0x1) [Tone.t5, Tone.t1, Tone.t15, Tone.t1])
      (restingChannel cx) := by
  intro cx
  refine offers_complete (.idle _ _) fun js t hj => ?_
  rintro ⟨-, ⟨_, -, -, -, -, -, -, hg, -⟩ | ⟨-, ⟨id, _, hi, -⟩, -⟩⟩
  · exact absurd hg (by decide)
  · have ht := hj.subset (List.mem_append_right js List.mem_cons_self)
    simp only [seizeTicks, toneTicks, List.flatMap_cons, List.flatMap_nil, List.cons_append,
      List.nil_append, List.mem_cons, List.not_mem_nil, or_false] at ht
    rcases ht with rfl | rfl | rfl | rfl | rfl | rfl | rfl | rfl | rfl | rfl <;> exact nomatch hi

/-- With the ANI to come first and no category, the first digit of four is all there is. -/
theorem offered_after_one_digit :
    ¬ ∀ (cx : R2Context) (c : R2Chan) (ts : List Tick), cx.Mfc → 1 ≤ cx.maxDnis → 0 ≤ cx.maxAni →
      Started cx c → OffersComplete cx ts c := by
  intro h
  let cx := setSkipCategoryRequest 1 (configureItu 10 4 R2Context.zero)
  let js := seizeTicks ++ toneTicks (Env.fair 0x1) [Tone.t5]
  let t : Tick := ⟨Env.fair 0x1, .mfTone Tone.t1⟩
  have ho := h cx (restingChannel cx) (js ++ [t]) ⟨by decide, by decide⟩ (by decide) (by decide)
    (.idle _ _) js t (List.prefix_refl _) [] [Tone.t5] .collectCall false (by decide +kernel)
  rcases ho with ho | ho
  · exact absurd ho (by decide +kernel)
  · obtain ⟨u, hu, c, hk⟩ := ho.exists_mem
    simp only [js, t, seizeTicks, toneTicks, List.flatMap_cons, List.flatMap_nil, List.cons_append,
      List.nil_append, List.append_nil, List.mem_cons, List.not_mem_nil, or_false] at hu
    rcases hk with ⟨tone, hx, -, -, hw⟩ | ⟨tone, hx, -, -, rfl⟩ | ⟨-, ⟨id, _, hx, -⟩, -⟩
    · rcases hu with rfl | rfl | rfl | rfl | rfl <;> exact nomatch hw
    · rcases hu with rfl | rfl | rfl | rfl | rfl <;> exact absurd hx.1 (by decide)
    · rcases hu with rfl | rfl | rfl | rfl | rfl <;> exact nomatch hx

end OpenR2
