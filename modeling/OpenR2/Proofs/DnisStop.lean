import OpenR2.Proofs.CallSteps

namespace OpenR2

namespace Stage

variable {cx : R2Context} {s : Stage}

/-- No way leads from here to another DNIS digit. -/
structure Closed (cx : R2Context) (s : Stage) : Prop where
  seizeAck : s.asked ≠ .seizeAckTxd
  dnisRq : s.asked ≠ .dnisRqTxd
  who : s.asked = .categoryRqTxd ∨ s.asked = .aniRqTxd →
    cx.getAniFirst = false ∨ s.Complete cx ∨ s.asked = .categoryRqTxd ∧ cx.maxAni ≤ 0

/-- Nothing that is still asked for belongs to the numbers. -/
theorem Closed.of_asked (h : s.asked ≠ .seizeAckTxd ∧ s.asked ≠ .dnisRqTxd ∧
    s.asked ≠ .categoryRqTxd ∧ s.asked ≠ .aniRqTxd) : s.Closed cx :=
  ⟨h.1, h.2.1, fun hx => hx.elim (fun hx => absurd hx h.2.2.1) fun hx => absurd hx h.2.2.2⟩

theorem askGroupTwo_closed (s : Stage) : s.askGroupTwo.Closed cx := by
  refine .of_asked ⟨?_, ?_, ?_, ?_⟩ <;> exact nofun

theorem finish_closed (s : Stage) : (s.finish cx).Closed cx := by
  unfold finish
  split_ifs
  · refine .of_asked ⟨?_, ?_, ?_, ?_⟩ <;> exact nofun
  · exact askGroupTwo_closed s

theorem askAni_closed (h : cx.getAniFirst = false ∨ s.Complete cx) : s.askAni.Closed cx :=
  ⟨nofun, nofun, fun _ => h.imp_right .inl⟩

theorem askWho_closed (h : cx.skipCategory = true ∨ cx.getAniFirst = false ∨ s.Complete cx ∨
    cx.maxAni ≤ 0) : (s.askWho cx).Closed cx := by
  unfold askWho
  split_ifs with hs
  · exact finish_closed s
  · refine ⟨nofun, nofun, fun _ => ?_⟩
    rcases h with h | h | h | h
    · exact absurd h hs
    · exact .inl h
    · exact .inr (.inl h)
    · exact .inr (.inr ⟨rfl, h⟩)

theorem aniDone_closed (h : cx.getAniFirst = false ∨ s.Complete cx) : (s.aniDone cx).Closed cx := by
  rw [aniDone, if_pos h]
  exact finish_closed s

theorem Closed.not_expectsDnis (h : s.Closed cx) : ¬ s.ExpectsDnis cx := by
  rintro (⟨-, hm⟩ | ⟨-, hm, -⟩)
  · exact h.dnisRq hm
  · exact h.seizeAck hm

theorem Closed.hear (h : s.Closed cx) (more : Bool) (tone : Tone) : (s.hear cx more tone).Closed cx := by
  simp only [Stage.hear, if_neg h.not_expectsDnis]
  split_ifs with ha hc
  · have hm : s.asked = .aniRqTxd := ha.elim (·.2) fun ha => absurd ha.2.1 h.seizeAck
    have hw : cx.getAniFirst = false ∨ s.Complete cx :=
      (h.who (.inr hm)).imp_right fun hx => hx.elim id fun hx => by cases hm.symm.trans hx.1
    simp only [hearAni]
    split_ifs
    · exact askAni_closed (s := s.addAni) hw
    · exact aniDone_closed (s := s.addAni) hw
    · exact aniDone_closed hw
  · have hw := h.who (.inl hc.2)
    simp only [hearCategory]
    split_ifs with hx
    · refine askAni_closed (s := { s with category := tone }) (hw.imp_right fun hw => ?_)
      exact hw.elim id fun hw => absurd hw.2 (not_le.mpr hx)
    · exact finish_closed _
    · exact askGroupTwo_closed _
  · exact h

theorem timeOut_closed (s : Stage) : (s.timeOut cx).Closed cx := by
  unfold timeOut
  split_ifs with h
  · exact askWho_closed (.inr (.inl h.2))
  · exact finish_closed s

theorem Complete.addDnis (h : s.Complete cx) : s.addDnis.Complete cx := by
  unfold Complete Stage.addDnis at *
  dsimp only
  split_ifs
  · exact h
  · exact h.trans (Nat.le_succ _)

/-- The user wants no more digits. -/
theorem stop_closed (h : ¬ (s.dnisLen = 0 ∧ cx.getAniFirst = true ∧ cx.skipCategory = false ∧
    0 < cx.maxAni ∧ 1 < uint32 cx.maxDnis)) : (s.addDnis.dnisTaken cx false).Closed cx := by
  simp only [dnisTaken, or_true, if_true]
  split_ifs with hx
  · refine askWho_closed ?_
    by_contra hn
    simp only [not_or, Bool.not_eq_true, Bool.not_eq_false, not_le, Complete] at hn
    obtain ⟨h1, h2, h3, h4⟩ := hn
    have hl : s.addDnis.dnisLen = 1 := hx.resolve_right (by simp [h2])
    exact h ⟨addDnis_dnisLen hl, h2, h1, h4, hl ▸ h3⟩
  · exact finish_closed _

end Stage

/-- The user wants no more digits after the first one, while the category and the ANI of a
longer number are to be asked for first. -/
def StopForgotten (cx : R2Context) (c : R2Chan) (t : Tick) : Prop :=
  StopsDnis cx c t ∧ c.dnisLen = 0 ∧ cx.getAniFirst = true ∧ cx.skipCategory = false ∧
    0 < cx.maxAni ∧ 1 < uint32 cx.maxDnis

section Stop

variable {cx : R2Context} {c : R2Chan} {t : Tick}

/-- A call of this side in which no more DNIS digits are wanted. -/
structure R2Chan.Stopped (cx : R2Context) (c : R2Chan) : Prop where
  direction : c.direction = .backward
  closed : c.stage.Closed cx

/-- A call in which the user has wanted no more DNIS digits stays so until its end. -/
theorem tick_stopped (hc : c.Held) (hn : ¬ StopForgotten cx c t)
    (h : c.Stopped cx ∨ StopsDnis cx c t) (hl : .callState .idle ∉ (tick cx c t).2) :
    (tick cx c t).1.Stopped cx := by
  have hcourse : Course cx c t (tick cx c t).1 := tick_course hc
  have ho : (tick cx c t).2 = (tick cx c t).1.out := rfl
  rw [ho] at hl
  generalize (tick cx c t).1 = d at hcourse hl ⊢
  cases hcourse with
  | elsewhere hb => exact absurd (h.elim (·.direction) fun ⟨_, hx, _⟩ => hx.2.2.1) hb
  | ends _ _ idle => exact absurd idle hl
  | lingers hb hq hd =>
    have h := h.resolve_right fun ⟨tone, hx, _⟩ => hq tone hx
    refine ⟨hd.direction.trans hb, ?_⟩
    rcases hd.asked with hm | hm
    · rw [hd.stage, hm]
      exact h.closed
    · refine .of_asked ?_
      rw [show d.stage.asked = d.mfState from rfl]
      rcases hm with hm | hm | hm | hm <;> simp [hm]
  | hears tone hx _ hd hs =>
    refine ⟨hd, ?_⟩
    rw [hs]
    rcases h with h | ⟨tone', hx', ht, he, hw⟩
    · exact h.closed.hear _ _
    · obtain rfl := hx'.unique hx
      rw [hw, Stage.hear, if_pos he, Stage.hearDnis, if_pos ht]
      exact Stage.stop_closed fun hf => hn ⟨⟨tone', hx', ht, he, hw⟩, hf⟩
  | expires _ _ _ _ _ hd hs =>
    refine ⟨hd, ?_⟩
    rw [hs]
    exact Stage.timeOut_closed _

/-- Where nothing more is wanted, nothing more is stored. -/
theorem R2Chan.Stopped.stores (h : c.Stopped cx) (hc : c.Held) (t : Tick) (i : Nat) (digit : Tone) :
    .storeDnis i digit ∉ (tick cx c t).2 := by
  have hcourse : Course cx c t (tick cx c t).1 := tick_course hc
  obtain ⟨pre, as, ho, hp, ha⟩ := hcourse.acts
  rw [show (tick cx c t).2 = (tick cx c t).1.out from rfl, ho]
  intro hm
  rcases List.mem_append.mp hm with hm | hm
  · rcases hp with rfl | ⟨tone, -, rfl⟩
    · exact List.not_mem_nil hm
    · rcases List.mem_append.mp hm with hm | hm
      · exact (checkThreshold_acts cx c t.env tone _ hm).1 trivial
      · obtain ⟨-, ⟨he, -⟩ | ⟨-, -, hx | hx⟩⟩ := Stage.mem_reports hm
        · exact h.closed.not_expectsDnis he
        · exact nomatch hx
        · exact nomatch hx
  · obtain ⟨_, _, _, _, hx⟩ := ha _ hm trivial
    exact nomatch hx

/-- The step in which the user says so stores nothing afterwards. -/
theorem StopsDnis.stores (h : StopsDnis cx c t) (hc : c.Held) {before after : List Act} {digit : Tone}
    (ho : (tick cx c t).2 = before ++ .event (.onDnisDigitReceived digit) :: after) (i : Nat)
    (digit' : Tone) : .storeDnis i digit' ∉ after := by
  have hcourse : Course cx c t (tick cx c t).1 := tick_course hc
  obtain ⟨pre, as, ho', hp, ha⟩ := hcourse.acts
  have hs : .storeDnis i digit' ∉ as := by
    intro hm
    obtain ⟨_, _, _, _, hx⟩ := ha _ hm trivial
    cases hx
  have hev : .event (.onDnisDigitReceived digit) ∉ as := by
    intro hm
    obtain ⟨_, _, _, _, hx⟩ := ha _ hm trivial
    cases hx
  rw [show (tick cx c t).2 = (tick cx c t).1.out from rfl, ho'] at ho
  rcases hp with rfl | ⟨tone, hx, rfl⟩
  · refine absurd ?_ hev
    rw [show as = _ from ho]
    simp
  · obtain ⟨tone', hx', ht, he, -⟩ := h
    obtain rfl := hx'.unique hx
    have hr : c.stage.reports cx tone' =
        c.stage.stores cx tone' ++ [.event (.onDnisDigitReceived tone')] := by
      rw [Stage.reports, if_neg (by simp [ht]), if_pos he]
    -- the digit is reported once, so what follows the report follows it here
    have hkept : .event (.onDnisDigitReceived digit) ∉
        beforeTone cx c t tone' ++ c.stage.stores cx tone' := by
      intro hm
      rcases List.mem_append.mp hm with hm | hm
      · exact (checkThreshold_acts cx c t.env tone' _ hm).1 trivial
      · rw [Stage.stores, if_pos he] at hm
        split_ifs at hm
        · exact List.not_mem_nil hm
        · cases List.mem_singleton.mp hm
    rw [hr, ← List.append_assoc] at ho
    generalize beforeTone cx c t tone' ++ c.stage.stores cx tone' = kept at ho hkept
    rw [List.append_assoc, List.singleton_append] at ho
    rcases List.append_eq_append_iff.mp ho with ⟨ys, hb, hy⟩ | ⟨ys, hk, hy⟩
    · cases ys with
      | nil => exact (List.cons.inj hy).2 ▸ hs
      | cons y ys =>
        refine absurd ?_ hev
        rw [(List.cons.inj hy).2]
        simp
    · cases ys with
      | nil => exact (List.cons.inj hy).2 ▸ hs
      | cons y ys =>
        refine absurd ?_ hkept
        rw [hk, (List.cons.inj hy).1]
        simp

/-- The user's wish is kept: no other digit is asked for or stored in the call. -/
structure StopHonoured (cx : R2Context) (ts : List Tick) (c : R2Chan) : Prop where
  asks : ∀ js, js <+: ts → InCall cx (StopsDnis cx) js c → (run cx js c).1.mfState ≠ .dnisRqTxd
  stores : ∀ js, js <+: ts → InCall cx (StopsDnis cx) js c → ∀ t i digit,
    .storeDnis i digit ∉ (tick cx (run cx js c).1 t).2
  atOnce : ∀ js t, js ++ [t] <+: ts → StopsDnis cx (run cx js c).1 t → ∀ before after digit,
    (tick cx (run cx js c).1 t).2 = before ++ .event (.onDnisDigitReceived digit) :: after →
      ∀ i digit', .storeDnis i digit' ∉ after

/-- The user who wants no more digits gets no more, except after a first digit that the
category and the ANI are to follow. -/
theorem dnis_stop_honoured (hc : Started cx c) {ts : List Tick}
    (hn : Runs.Along (tick cx) (fun c t => ¬ StopForgotten cx c t) ts c) : StopHonoured cx ts c := by
  have hs : ∀ js, js <+: ts → InCall cx (StopsDnis cx) js c → (run cx js c).1.Stopped cx := by
    rintro js ⟨ks, rfl⟩ hin
    have h := run_inCall (StopsDnis cx) (fun p c => c.Held ∧ (p → c.Stopped cx))
      (fun _ c t => ¬ StopForgotten cx c t) (fun p c t hn ⟨hc, hp⟩ => ?_) js c
      (fun _ _ hj => hn.append.1.last hj) ⟨hc.held, False.elim⟩
    · exact h.2 hin
    · exact ⟨tick_held cx c t hc, fun ⟨hk, hl⟩ => tick_stopped hc hn (hk.imp_left hp) hl⟩
  refine ⟨fun js hj hin => (hs js hj hin).closed.dnisRq, fun js hj hin => ?_, fun js t _ hst => ?_⟩
  · exact (hs js hj hin).stores (run_held hc.held js)
  · exact fun before after digit ho => hst.stores (run_held hc.held js) ho

end Stop

/-- Without the ANI in between the user may stop after the first digit. -/
theorem dnis_stop_honoured_itu :
    let cx := setAniFirst 0 (configureItu 10 4 R2Context.zero)
    StopHonoured cx (seizeTicks ++ toneTicks .stopping [Tone.t5, Tone.t1, Tone.t15])
      (restingChannel cx) := by
  intro cx
  have hf : cx.getAniFirst ≠ true := by decide
  exact dnis_stop_honoured (.idle _ _) (.always (fun c t h => hf h.2.2.1) _ _)

/-- The number of which the user wanted but one digit is asked for again after the ANI. -/
theorem stop_forgotten :
    ¬ ∀ (cx : R2Context) (c : R2Chan) (ts : List Tick), cx.Mfc → Started cx c →
      StopHonoured cx ts c := by
  intro h
  let cx := configureItu 10 4 R2Context.zero
  let ts := seizeTicks ++ toneTicks .stopping [Tone.t5, Tone.t1, Tone.t15]
  have hs := (h cx (restingChannel cx) ts ⟨by decide, by decide⟩ (.idle _ _)).asks ts (List.prefix_refl _)
  refine hs ⟨seizeTicks, ⟨.stopping, .mfTone Tone.t5⟩, _, rfl, ?_, by decide +kernel⟩ (by decide +kernel)
  exact ⟨Tone.t5, by decide +kernel, by decide, by decide +kernel, by decide +kernel⟩

end OpenR2
