import OpenR2.AdvancedFile
import OpenR2.Proofs.DnisCursor

namespace OpenR2

section Asked

variable (cx : R2Context) (c : R2Chan) (t : Tick)

/-- `mf_send_ani` runs: the tone that goes off asks for the ANI. -/
def AsksAni : Prop := ∃ tone, Ceases cx c t tone ∧
  (c.mfGroup = .gi ∧ dnisRequest cx tone = none ∧ c.categorySent = true ∧
      tone = cx.gaTones.requestNextAniDigit ∨
    c.mfGroup = .giii ∧ tone = cx.gcTones.requestNextAniDigit)

/-- No ANI is looked for where there is none, and nothing but its end is told. -/
structure Withholds : Prop where
  lookup : .readAni none ∉ untilIdle (tick cx c t).2
  tones : ∀ h tone, .mfSelectTone h tone ∈ untilIdle (tick cx c t).2 →
    tone = 0 ∨ tone = cx.g1Tones.callerAniIsRestricted ∨ tone = cx.g1Tones.noMoreAniAvailable

/-- What is told of the DNIS at its index, after an end of the ANI: the digit there, or the
end of the number, if there is a tone for it. -/
def R2Chan.dnisTone (env : Env) : Tone :=
  if c.dnisByte env ≠ 0 then c.dnisByte env else cx.g1Tones.noMoreDnisAvailable

/-- The request is taken for one for the DNIS, and a tone follows that is none of those for an
ANI that is not told, nor transmitted already. -/
def TellsDnis : Prop :=
  aniRequest cx c = .dnis 1 .gi ∧
    let tone := (c.setDnisIndex (c.dnisIndex + 1)).dnisTone cx t.env
    tone ≠ 0 ∧ tone ≠ cx.g1Tones.callerAniIsRestricted ∧ tone ≠ cx.g1Tones.noMoreAniAvailable ∧
      tone ≠ c.mfWriteTone

end Asked

section Withheld

variable {cx : R2Context} {env : Env} {c d : R2Chan} {t : Tick}

theorem AsksAni.asksFor (h : AsksAni cx c t) : AsksFor cx c t (aniRequest cx c) := by
  obtain ⟨tone, ht, h⟩ := h
  refine ⟨tone, ht, ?_⟩
  rcases h with ⟨hg, hn, hs, he⟩ | ⟨hg, he⟩
  · simp only [R2Chan.request, hg, groupARequest, hn, if_pos (And.intro hs he)]
  · simp only [R2Chan.request, hg, groupCRequest, if_pos he]

theorem aniRequest_cases (cx : R2Context) (c : R2Chan) :
    aniRequest cx c = .dnis 1 .gi ∨ aniRequest cx c = .ani := by
  simp only [aniRequest]
  split_ifs
  · exact .inl rfl
  · exact .inr rfl

/-- Without an ANI, and with a tone for that, the tone goes out. -/
theorem mfSendAniDigit_restricted (ha : c.aniPtr = none) (h0 : cx.g1Tones.callerAniIsRestricted ≠ 0) :
    mfSendAniDigit cx env c =
      prepareMfTone cx env cx.g1Tones.callerAniIsRestricted (c.setMfState .aniEndTxd) :=
  if_pos ⟨h0, ha⟩

/-- Without a tone for it, the pointer is followed. -/
theorem mfSendAniDigit_reads (ha : c.aniPtr = none) (h0 : cx.g1Tones.callerAniIsRestricted = 0) :
    ∃ as, (mfSendAniDigit cx env c).out = c.out ++ .readAni none :: as := by
  have hs : ∀ (m : MfState) (tone : Tone),
      ∃ as, (prepareMfTone cx env tone ((c.did (.readAni none)).setMfState m)).out =
        c.out ++ .readAni none :: as := by
    intro m tone
    have ho : ((c.did (.readAni none)).setMfState m).out = c.out ++ [.readAni none] := rfl
    cases prepareMfTone_speaks cx env tone ((c.did (.readAni none)).setMfState m) with
    | said _ as out => exact ⟨as, by rw [out, ho]; simp⟩
    | isOver as bs out => exact ⟨as ++ .callState .idle :: bs, by rw [out, ho]; simp⟩
  simp only [mfSendAniDigit, ha]
  split_ifs with h
  · exact absurd h0 h.1
  · exact hs .aniTxd _
  · exact hs .aniEndTxd _
  · exact hs .aniEndTxd _
  · obtain ⟨as, ho, -⟩ := (R2Chan.Aside.armTimer env .mfFwdSafety cx.timers.mfFwdSafety
      .mfFwdSafetyTimeoutExpired ((c.did (.readAni none)).setMfState .waitingTimeout)).out
    refine ⟨as, ?_⟩
    rw [waitTimeout, ho]
    exact List.append_assoc _ _ _

/-- A tone is selected if it is not the one on the line, and no other is. -/
theorem prepareMfTone_told {tone : Tone} (h0 : tone ≠ 0) (hc : ∀ a ∈ c.out, a ≠ .callState .idle) :
    ∃ as, untilIdle (prepareMfTone cx env tone c).out = c.out ++ as ∧ (∀ a ∈ as, a.Sounds tone) ∧
      (tone ≠ c.mfWriteTone → .mfSelectTone c.mfWriteHandle tone ∈ as) ∧
      (tone = c.mfWriteTone → ∀ a ∈ as, a.Mute) := by
  obtain ⟨as, hu, hs⟩ := (prepareMfTone_speaks cx env tone c).told hc
  have hp : prepareMfTone cx env tone c = selectMfTone cx env tone c := if_neg fun h => h0 h.1
  refine ⟨as, hu, hs, fun hw => ?_, fun hw => ?_⟩
  · have hpre : c.out ++ [.mfSelectTone c.mfWriteHandle tone] <+: (prepareMfTone cx env tone c).out := by
      rw [hp, selectMfTone, if_neg hw.symm]
      dsimp only
      split_ifs
      · exact handleProtocolError_grows cx env (c.did (.mfSelectTone c.mfWriteHandle tone)) _
      · obtain ⟨bs, ho, -⟩ := (startMfTone_tuned cx env tone
          (c.did (.mfSelectTone c.mfWriteHandle tone))).out
        exact ⟨bs, ho.symm⟩
    obtain ⟨bs, ho⟩ := hpre
    have hl : ∀ a ∈ c.out ++ [.mfSelectTone c.mfWriteHandle tone], a ≠ .callState .idle := by
      intro a hm
      rcases List.mem_append.mp hm with hm | hm
      · exact hc a hm
      · rw [List.mem_singleton.mp hm]
        rintro ⟨⟩
    rw [← ho, untilIdle_append hl, List.append_assoc] at hu
    rw [← List.append_cancel_left hu]
    exact List.mem_append_left _ (List.mem_singleton.mpr rfl)
  · have hx : prepareMfTone cx env tone c = c := by rw [hp, selectMfTone, if_pos hw.symm]
    rw [hx, untilIdle_live hc] at hu
    rw [List.self_eq_append_right.mp hu]
    exact fun _ hm => absurd hm List.not_mem_nil

/-- After the end of the ANI, the digit at the index or the end of the number is told. -/
theorem mfSendDnisDigit_told (hp : c.Placed) (hm : c.mfState = .aniEndTxd) (hc : ∀ a ∈ c.out, a ≠ .callState .idle) :
    ∃ as, untilIdle (mfSendDnisDigit cx env c).out = c.out ++ .readDnis c.dnisIndex :: as ∧
      (∀ a ∈ as, a.Sounds (c.dnisTone cx env)) ∧
      (c.dnisTone cx env ≠ 0 → c.dnisTone cx env ≠ c.mfWriteTone →
        .mfSelectTone c.mfWriteHandle (c.dnisTone cx env) ∈ as) ∧
      (c.dnisTone cx env = 0 ∨ c.dnisTone cx env = c.mfWriteTone → ∀ a ∈ as, a.Mute) := by
  have hl : ∀ a ∈ c.out ++ [.readDnis c.dnisIndex], a ≠ .callState .idle := by
    intro a hm
    rcases List.mem_append.mp hm with hm | hm
    · exact hc a hm
    · rw [List.mem_singleton.mp hm]
      rintro ⟨⟩
  have hs : ∀ (m : MfState) (tone : Tone), tone ≠ 0 → tone = c.dnisTone cx env →
      ∃ as, untilIdle (prepareMfTone cx env tone ((c.did (.readDnis c.dnisIndex)).setMfState m)).out =
          c.out ++ .readDnis c.dnisIndex :: as ∧
        (∀ a ∈ as, a.Sounds (c.dnisTone cx env)) ∧
        (c.dnisTone cx env ≠ 0 → c.dnisTone cx env ≠ c.mfWriteTone →
          .mfSelectTone c.mfWriteHandle (c.dnisTone cx env) ∈ as) ∧
        (c.dnisTone cx env = 0 ∨ c.dnisTone cx env = c.mfWriteTone → ∀ a ∈ as, a.Mute) := by
    intro m tone h0 ht
    obtain ⟨as, hu, hs, hn, hw⟩ := @prepareMfTone_told cx env
      ((c.did (.readDnis c.dnisIndex)).setMfState m) tone h0 hl
    subst ht
    refine ⟨as, hu.trans (List.append_assoc _ _ _), hs, fun _ => hn, fun h => hw (h.resolve_left h0)⟩
  simp only [mfSendDnisDigit]
  split_ifs with hb he
  · exact hs .dnisTxd _ hb (if_pos hb).symm
  · exact hs .dnisEndTxd _ he.1 (if_neg hb).symm
  · -- the call waits for the other end
    have h0 : c.dnisTone cx env = 0 := by
      refine (if_neg hb).trans (not_not.mp fun hx => he ⟨hx, ?_, ?_⟩)
      · rw [show (c.did (.readDnis c.dnisIndex)).mfState = _ from hm]
        rintro ⟨⟩
      · rw [show (c.did (.readDnis c.dnisIndex)).mfState = _ from hm]
        rintro ⟨⟩
    obtain ⟨-, -, -, -, as, ho, ha⟩ := R2Chan.Bears.aside
      (show ((c.did (.readDnis c.dnisIndex)).setMfState .waitingTimeout).Placed from
        ⟨hp.direction, hp.call, hp.line, hp.group⟩)
      (.armTimer env .mfFwdSafety cx.timers.mfFwdSafety .mfFwdSafetyTimeoutExpired _)
    refine ⟨as, ?_, fun a hm => .inl (ha a hm), fun hx => absurd h0 hx, fun _ => ha⟩
    rw [waitTimeout, ho, untilIdle_live]
    · exact List.append_assoc _ _ _
    · intro a hm
      exact (List.mem_append.mp hm).elim (hl a) fun hm => (ha a hm).not_idle

/-- A request that is taken for one for the DNIS looks for no ANI, and tells of the DNIS. -/
theorem AsksFor.dnis_withholds (hp : c.Placed) (hr : aniRequest cx c = .dnis 1 .gi)
    (h : AsksFor cx c t (.dnis 1 .gi)) : Withholds cx c t ↔ ¬ TellsDnis cx c t := by
  have hm : c.mfState = .aniEndTxd := by
    by_contra hn
    rw [aniRequest, if_neg fun h => hn h.1] at hr
    cases hr
  obtain ⟨x, n, pre, hk, hpre⟩ := checkThreshold_frame cx t.env 0 c.start
  have hc : ∀ a ∈ pre, a ≠ .callState .idle := by
    intro a ha
    rw [hpre a ha]
    rintro ⟨⟩
  have hplaced : ((c.checked cx t.env).setMfGroup .gi).Placed :=
    (R2Chan.Bears.setMfGroup (R2Chan.checked_bears cx t.env hp 0).placed (g := .gi) id).placed
  have hserve : serve cx t.env (.dnis 1 .gi) (c.checked cx t.env) = mfSendDnisDigit cx t.env
      (((c.checked cx t.env).setMfGroup .gi).setDnisIndex (c.dnisIndex + 1)) := by
    rw [serve, handleDnisRequest_cursor cx t.env (.inl rfl), R2Chan.checked, hk]
    rfl
  obtain ⟨as, hu, hs, hn, hw⟩ := @mfSendDnisDigit_told cx t.env
    (((c.checked cx t.env).setMfGroup .gi).setDnisIndex (c.dnisIndex + 1))
    ⟨hplaced.direction, hplaced.call, hplaced.line, hplaced.group⟩ (by rw [R2Chan.checked, hk]; exact hm) (by rw [R2Chan.checked, hk]; exact hc)
  have htone : (((c.checked cx t.env).setMfGroup .gi).setDnisIndex (c.dnisIndex + 1)).dnisTone cx t.env =
      (c.setDnisIndex (c.dnisIndex + 1)).dnisTone cx t.env := by
    rw [R2Chan.checked, hk]
    rfl
  have hwrite : (((c.checked cx t.env).setMfGroup .gi).setDnisIndex (c.dnisIndex + 1)).mfWriteTone =
      c.mfWriteTone := by
    rw [R2Chan.checked, hk]
    rfl
  rw [htone] at hs hn hw
  rw [hwrite] at hn hw
  have hout : untilIdle (tick cx c t).2 = pre ++ .readDnis (c.dnisIndex + 1) :: as := by
    rw [h.output, hserve, hu, R2Chan.checked, hk]
    rfl
  constructor
  · rintro hx ⟨-, h0, h1, h2, h3⟩
    have hm := hx.tones _ _ (hout ▸ List.mem_append_right _ (List.mem_cons_of_mem _ (hn h0 h3)))
    rcases hm with hm | hm | hm
    · exact h0 hm
    · exact h1 hm
    · exact h2 hm
  · intro hx
    refine ⟨fun hm => ?_, fun x tone hm => ?_⟩
    all_goals
      rw [hout] at hm
      rcases List.mem_append.mp hm with hm | hm
    · cases hpre _ hm
    · rcases List.mem_cons.mp hm with hm | hm
      · cases hm
      · exact absurd rfl ((hs _ hm).not_readAni none)
    · cases hpre _ hm
    · rcases List.mem_cons.mp hm with hm | hm
      · cases hm
      · rcases (hs _ hm).selects with h0 | rfl
        · exact .inl h0
        · by_contra hn
          refine hx ⟨hr, fun h0 => hn (.inl h0), fun h1 => hn (.inr (.inl h1)), fun h2 => hn (.inr (.inr h2)),
            fun h3 => ?_⟩
          exact hn (.inl (hw (.inr h3) _ hm))

/-- Nothing is given away just where the table has a tone for an ANI that is not told, and
where it is the ANI that is asked for. -/
theorem AsksAni.withholds_iff (hc : c.Placed) (ha : c.aniPtr = none) (h : AsksAni cx c t) :
    Withholds cx c t ↔
      (aniRequest cx c = .ani → cx.g1Tones.callerAniIsRestricted ≠ 0) ∧ ¬ TellsDnis cx c t := by
  rcases aniRequest_cases cx c with hr | hr
  · refine (AsksFor.dnis_withholds hc hr (hr ▸ h.asksFor)).trans (and_iff_right fun hx => ?_).symm
    cases hr.symm.trans hx
  have hask : AsksFor cx c t .ani := hr ▸ h.asksFor
  obtain ⟨-, outbox, -, -, pre, ho, hp⟩ := R2Chan.checked_bears cx t.env hc 0
  have hk : (c.checked cx t.env).aniPtr = none := (congrArg Outbox.aniPtr outbox).trans ha
  replace ho : (c.checked cx t.env).out = pre := ho
  refine ⟨fun hw => ⟨fun _ h0 => ?_, fun hx => nomatch hr.symm.trans hx.1⟩, fun hx => ?_⟩
  · obtain ⟨as, he⟩ := @mfSendAniDigit_reads cx t.env _ hk h0
    refine hw.lookup ?_
    rw [hask.output, serve, he, ho, untilIdle_append fun a hm => (hp a hm).not_idle]
    exact List.mem_append_right _ (by simp [untilIdle])
  · have h0 := hx.1 hr
    have hn : ∀ a ∈ ((c.checked cx t.env).setMfState .aniEndTxd).out, a ≠ .callState .idle :=
      fun a hm => (hp a (ho ▸ hm)).not_idle
    obtain ⟨as, hu, hs⟩ := (prepareMfTone_speaks cx t.env cx.g1Tones.callerAniIsRestricted
      ((c.checked cx t.env).setMfState .aniEndTxd)).told hn
    rw [← mfSendAniDigit_restricted hk h0] at hu
    replace hu : untilIdle (tick cx c t).2 = pre ++ as := by
      rw [hask.output, ← ho]
      exact hu
    refine ⟨fun hm => ?_, fun x tone hm => ?_⟩
    all_goals rw [hu] at hm
    · rcases List.mem_append.mp hm with hm | hm
      · exact hp _ hm
      · exact absurd rfl ((hs _ hm).not_readAni none)
    · rcases List.mem_append.mp hm with hm | hm
      · exact .inl (hp _ hm)
      · rcases (hs _ hm).selects with h | h
        · exact .inl h
        · exact .inr (.inl h)

theorem tick_withheld (h : c.Placed ∧ c.aniPtr = none) : (∃ a ∈ (tick cx c t).2, a = .callState .idle) ∨
    (tick cx c t).1.Placed ∧ (tick cx c t).1.aniPtr = none := by
  obtain ⟨_, -, -, hx⟩ := (@tick_errand cx c t h.1).index
  exact hx.imp_right fun ⟨hp, _, _, ha⟩ => ⟨hp, ha h.2⟩

theorem CallPlaced.withheld (hm : cx.dialWithDtmf = false) {ani : Option (List Tone)} {dnis : List Tone}
    (hn : ∀ a, ani = some a → (cstr a).all Tone.isDigit = false) (h : CallPlaced cx ani dnis c) :
    c.Placed ∧ c.aniPtr = none := by
  obtain ⟨env, k, category, restricted, hz, rfl⟩ := h
  obtain ⟨placed, outbox⟩ := makeCall_placed hm hz
  refine ⟨placed, (congrArg Outbox.aniPtr outbox).trans ?_⟩
  have hf : ani.filter (fun a => (cstr a).all Tone.isDigit) = none := by
    simpa [Option.filter_eq_none_iff] using hn
  show (ani.filter fun a => (cstr a).all Tone.isDigit).map (fun _ => 0) = none
  rw [hf]
  rfl

end Withheld

/-- In a call without an ANI, a request for it is answered without looking for one and without
telling more than that, just where the table has a tone for that and the request is not taken
for one for the DNIS. -/
theorem ani_withheld {cx : R2Context} (hm : cx.dialWithDtmf = false) {ani : Option (List Tone)}
    {dnis : List Tone} (hn : ∀ a, ani = some a → (cstr a).all Tone.isDigit = false) {d : R2Chan}
    (hd : CallPlaced cx ani dnis d) {js : List Tick} (hl : Live cx js d) {t : Tick}
    (ht : AsksAni cx (run cx js d).1 t) :
    Withholds cx (run cx js d).1 t ↔
      (aniRequest cx (run cx js d).1 = .ani → cx.g1Tones.callerAniIsRestricted ≠ 0) ∧
        ¬ TellsDnis cx (run cx js d).1 t := by
  have h : (run cx js d).1.Placed ∧ (run cx js d).1.aniPtr = none :=
    Runs.exec_while (f := tick cx) (P := fun c => c.Placed ∧ c.aniPtr = none) (· = Act.callState .idle)
      (fun _ _ => False) (fun _ _ h _ => tick_withheld h) js d (hd.withheld hm hn) (fun _ _ _ _ => id) hl
  exact ht.withholds_iff h.1 h.2

/-- The ITU tables after the line of the sample file that has `X` for a restricted ANI. -/
def unrestrictedContext : R2Context :=
  let cx := configureItu 10 4 R2Context.zero
  { cx with g1Tones := { cx.g1Tones with callerAniIsRestricted := toneStored 0 0x58 } }

/-- The first digit has been sent, then the category, and the ANI is asked for. -/
def aniAskedTicks : List Tick :=
  seizeAckTick :: toneTicks (Env.fair 0xD) [Tone.t5] ++ [⟨Env.fair 0xD, .mfTone Tone.t5⟩]

theorem ani_withheld_itu :
    let cx := configureItu 10 4 R2Context.zero
    let d := callingChannel cx none [Tone.t5, Tone.t1]
    Withholds cx (run cx aniAskedTicks d).1 ⟨Env.fair 0xD, .mfTone 0⟩ ↔
      (aniRequest cx (run cx aniAskedTicks d).1 = .ani → cx.g1Tones.callerAniIsRestricted ≠ 0) ∧
        ¬ TellsDnis cx (run cx aniAskedTicks d).1 ⟨Env.fair 0xD, .mfTone 0⟩ :=
  @ani_withheld (configureItu 10 4 R2Context.zero) rfl none [Tone.t5, Tone.t1] nofun _
    (callingChannel_placed (by decide +kernel)) aniAskedTicks (by decide +kernel) _
    ⟨Tone.t5, by decide +kernel, .inl (by decide +kernel)⟩

/-- Without a tone for it, the null pointer is followed. -/
theorem null_ani_followed :
    ¬ ∀ (ani : Option (List Tone)) (dnis : List Tone) (d : R2Chan) (js : List Tick) (t : Tick),
      (∀ a, ani = some a → (cstr a).all Tone.isDigit = false) → CallPlaced unrestrictedContext ani dnis d →
        Live unrestrictedContext js d → AsksAni unrestrictedContext (run unrestrictedContext js d).1 t →
          Withholds unrestrictedContext (run unrestrictedContext js d).1 t := by
  intro h
  have hw := h none [Tone.t5, Tone.t1] (callingChannel unrestrictedContext none [Tone.t5, Tone.t1])
    aniAskedTicks ⟨Env.fair 0xD, .mfTone 0⟩ nofun (callingChannel_placed (by decide +kernel))
    (by decide +kernel) ⟨Tone.t5, by decide +kernel, .inl (by decide +kernel)⟩
  exact hw.lookup (by decide +kernel)

end OpenR2
