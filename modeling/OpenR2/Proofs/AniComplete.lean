import OpenR2.Proofs.CallSteps

namespace OpenR2

section Ani

variable {cx : R2Context} {c : R2Chan} {t : Tick}

/-- The backward side is collecting the ANI, and goes on to the DNIS, to Group II, or to the
offer of the call. -/
def LeavesAni (cx : R2Context) (c : R2Chan) (t : Tick) : Prop :=
  c.direction = .backward ∧ c.stage.ExpectsAni cx ∧ .callState .idle ∉ (tick cx c t).2 ∧
    ((tick cx c t).1.mfState = .dnisRqTxd ∨ (tick cx c t).1.mfState = .chgGiiTxd ∨
      ∃ ani dnis cat r, .event (.onCallOffered ani dnis cat r) ∈ (tick cx c t).2)

/-- The ANI is complete after the step, or the caller says or shows that there is no more. -/
def AniCovered (cx : R2Context) (c : R2Chan) (t : Tick) : Prop :=
  uint32 cx.maxAni ≤ (tick cx c t).1.aniLen ∨
    (∃ tone, Comes cx c t tone ∧
      (tone = cx.g1Tones.noMoreAniAvailable ∨ tone = cx.g1Tones.callerAniIsRestricted)) ∨
    CycleExpires c t

/-- An ANI digit comes that is not the last, where the ANI is to have its full length. -/
def ForcedAniDigit (cx : R2Context) (c : R2Chan) (t : Tick) : Prop :=
  cx.forceUseMaxAni = true ∧ c.stage.ExpectsAni cx ∧ c.aniLen + 1 < uint32 cx.maxAni ∧
    ∃ tone, Comes cx c t tone ∧ tone.isDigit = true

theorem Stage.ExpectsAni.not_expectsDnis {s : Stage} (h : s.ExpectsAni cx) : ¬ s.ExpectsDnis cx := by
  rcases h with ⟨-, hm⟩ | ⟨-, hm, hf⟩
  · rintro (⟨-, hx⟩ | ⟨-, hx, -⟩)
    · exact nomatch hm.symm.trans hx
    · exact nomatch hm.symm.trans hx
  · rintro (⟨-, hx⟩ | ⟨-, -, hx⟩)
    · exact nomatch hm.symm.trans hx
    · exact hx hf

theorem Stage.aniDone_aniLen (s : Stage) : (s.aniDone cx).aniLen = s.aniLen := by
  simp only [aniDone, finish]
  split_ifs <;> rfl

/-- One step that leaves the ANI. -/
theorem LeavesAni.covered (h : LeavesAni cx c t) (hc : c.Held) (hn : ¬ ForcedAniDigit cx c t) :
    AniCovered cx c t := by
  obtain ⟨hb, he, hl, hx⟩ := h
  have hcourse : Course cx c t (tick cx c t).1 := tick_course hc
  unfold AniCovered
  have ho : (tick cx c t).2 = (tick cx c t).1.out := rfl
  rw [ho] at hl hx
  generalize (tick cx c t).1 = d at hcourse hl hx ⊢
  have hdone : d.mfState = .dnisRqTxd ∨ d.mfState = .chgGiiTxd ∨ d.mfState = .acceptedTxd := by
    rcases hx with hx | hx | ⟨_, _, _, _, hx⟩
    · exact .inl hx
    · exact .inr (.inl hx)
    · exact .inr (hcourse.of_offer hx).1.symm
  cases hcourse with
  | elsewhere h => exact absurd hb h
  | ends _ _ idle => exact absurd idle hl
  | lingers _ _ hd =>
    exfalso
    obtain ⟨as, ho, ha⟩ := hd.out
    rw [show c.start.out = [] from rfl, List.nil_append] at ho
    have hs : ∀ a ∈ d.out, ¬ a.Collecting := fun a hm => (ha a (ho ▸ hm)).1
    have hm : c.mfState = .aniRqTxd ∨ c.mfState = .seizeAckTxd := he.imp (·.2) (·.2.1)
    have hr : d.mfState = c.mfState ∨ d.mfState.Decided := hd.asked
    rcases hx with hx | hx | ⟨_, _, _, _, hx⟩
    · rw [hx] at hr
      rcases hr with hr | hr
      · rcases hm with hm | hm <;> exact nomatch hr.trans hm
      · exact absurd hr (by simp [MfState.Decided])
    · rw [hx] at hr
      rcases hr with hr | hr
      · rcases hm with hm | hm <;> exact nomatch hr.trans hm
      · exact absurd hr (by simp [MfState.Decided])
    · exact absurd trivial (hs _ hx)
  | hears tone hct hu _ hs =>
    cases ht : tone.isDigit with
    | false =>
      rw [Stage.Understands, if_neg he.not_expectsDnis, if_pos he] at hu
      exact .inr (.inl ⟨tone, hct, hu.resolve_left (by simp [ht])⟩)
    | true =>
      rw [Stage.hear, if_neg he.not_expectsDnis, if_pos he, Stage.hearAni, if_pos ht] at hs
      have hlen : c.stage.addAni.aniLen = c.aniLen + 1 := rfl
      split_ifs at hs with hask
      · have hm : d.mfState = .aniRqTxd := congrArg Stage.asked hs
        rw [hm] at hdone
        exact absurd hdone (by decide)
      · refine .inl ?_
        have hd : d.aniLen = c.aniLen + 1 := by
          have h := congrArg Stage.aniLen hs
          rwa [Stage.aniDone_aniLen] at h
        rw [hd]
        by_contra hlt
        rw [not_le] at hlt
        refine hask ⟨Bool.eq_false_of_not_eq_true fun hf => ?_, hlt⟩
        exact hn ⟨hf, he, hlt, tone, hct, ht⟩
  | expires hce => exact .inr (.inr hce)

/-- The ANI is complete when the backward side goes on, unless the variant wants its full
length: there the first digit is taken for all of it. -/
theorem ani_complete (hc : Started cx c) {ts : List Tick}
    (hn : Runs.Along (tick cx) (fun c t => ¬ ForcedAniDigit cx c t) ts c) :
    ∀ js t, js ++ [t] <+: ts → LeavesAni cx (run cx js c).1 t → AniCovered cx (run cx js c).1 t :=
  fun js _ hj hl => hl.covered (run_held hc.held js) (hn.last hj)

end Ani

/-- A call with a category, an ANI of two digits and the tone that ends it. -/
theorem ani_complete_itu :
    let cx := configureItu 10 4 R2Context.zero
    let ts := seizeTicks ++ toneTicks (Env.fair 0x1) [Tone.t5, Tone.t1, Tone.t5, Tone.t6, Tone.t15]
    ∀ js t, js ++ [t] <+: ts → LeavesAni cx (run cx js (restingChannel cx)).1 t →
      AniCovered cx (run cx js (restingChannel cx)).1 t :=
  ani_complete (.idle _ _) (.always (fun _ _ h => absurd h.1 (by decide)) _ _)

/-- In China the ANI is over with its first digit. -/
theorem one_ani_digit_in_china :
    ¬ ∀ (cx : R2Context) (c : R2Chan) (ts : List Tick), cx.Mfc → Started cx c →
      ∀ js t, js ++ [t] <+: ts → LeavesAni cx (run cx js c).1 t →
        AniCovered cx (run cx js c).1 t := by
  intro h
  let cx := r2configChina (configureItu 10 4 R2Context.zero)
  let t : Tick := ⟨Env.fair 0x1, .mfTone Tone.t5⟩
  have hx := h cx (restingChannel cx) (seizeTicks ++ [t]) ⟨by decide, by decide⟩ (.idle _ _) seizeTicks t
    (List.prefix_refl _)
    ⟨by decide +kernel, by decide +kernel, by decide +kernel, .inl (by decide +kernel)⟩
  rcases hx with hx | ⟨tone, hx, htone⟩ | ⟨id, _, hx, -⟩
  · exact absurd hx (by decide +kernel)
  · obtain rfl : Tone.t5 = tone := Input.mfTone.inj hx.1
    exact absurd htone (by decide)
  · exact nomatch hx

end OpenR2
