import OpenR2.Proofs.AfterHangUp

namespace OpenR2

/-- The digit in whose callback the call was hung up is the last one that is asked for, and the
call is accepted at once. -/
def AcceptsAtOnce (cx : R2Context) (m : MediaChan) (t : MediaTick) : Prop :=
  ∃ i ∈ m.input? t.input, ∃ tone, Comes cx m.chan ⟨t.env, i⟩ tone ∧ tone.isDigit = true ∧
    (m.chan.stage.ExpectsDnis cx ∨ m.chan.stage.ExpectsAni cx) ∧
    (m.chan.goesOnTo cx t.env tone).asked = .acceptedTxd ∧
    (m.chan.afterCallback cx t.env tone).callState = .collecting ∧
    ¬ Refuses t.env ((m.chan.goesOnTo cx t.env tone).asksWith cx (m.chan.afterCallback cx t.env tone).mfGroup)
      (((m.chan.afterCallback cx t.env tone).setMfGroup (m.chan.goesOnTo cx t.env tone).group).setMfState
        .acceptedTxd)

/-- When this has been done the user answers in the callback of a later digit of the same step. -/
def AnswersWithin (env : Env) (done : List Act) : Prop :=
  ∃ as digit a, .callState .idle ∉ as ∧
    env.reenter (done ++ as ++ [.event (.onDnisDigitReceived digit)]) = some a ∧ a.Answers

/-- No step of this run is of this kind before the channel is idle. -/
def Never (cx : R2Context) (kind : MediaChan → MediaTick → Prop) (ts : List MediaTick) (m : MediaChan) : Prop :=
  ∀ us t, us ++ [t] <+: ts → .callState .idle ∉ (mediaRun cx us m).2 → ¬ kind (mediaRun cx us m).1 t

section Found

variable {cx : R2Context} {env : Env} {c d : R2Chan} {m : MediaChan} {f : R2Chan → R2Chan}

/-- What the user finds in a callback is in order. -/
theorem CallsBack.orderly {t : Tick} (h : CallsBack cx c t d f) (hc : c.Orderly) : d.Orderly := by
  have hthr : ∀ tone, (checkThreshold cx t.env tone c.start).1.Orderly :=
    fun tone => checkThreshold_orderly hc.start tone
  cases h with
  | init entry pattern alarm idle seize ready =>
    rename_i d e g cas
    have hm : g.mfState ≠ .offState := by
      unfold R2Chan.received at ready
      split_ifs at ready
      · rw [← Option.some.inj ready]
        nofun
      · dsimp only at ready
        split at ready
        · rw [← Option.some.inj ready]
          nofun
        · exact nomatch ready
    exact .late (fun hx => (hm hx).elim) nofun id
  | digit comes isDigit expected =>
    rename_i tone
    have hs := ((hthr tone).setMfReadTone tone).cancelTimer .mfBackCycle
    refine R2Chan.Orderly.emit ?_ _
    unfold R2Chan.digitStored
    split_ifs
    · exact storeDnisDigit_orderly hs tone
    · exact storeAniDigit_orderly hs tone
  | accepted asks pending => exact ((hthr 0).setR2State id).emit _

theorem MediaCalls.orderly {t : MediaTick} {a : ApiCall} (h : MediaCalls cx m t a d f) (hc : m.chan.Orderly) :
    d.Orderly := by
  cases h with
  | between => exact hc.start
  | inside h ha =>
    cases h with
    | line input calls => exact calls.orderly hc
    | digit read on detecting reports digits before wanted stored =>
      rename_i x pre post report us vs u c d
      have hb : c.Orderly := by
        rw [← before]
        exact reportEach_orderly pre (m := m.on R2Chan.start) hc.start
      have hk := @receiveEach_orderly cx t.env c us hb
      refine R2Chan.Orderly.emit ?_ _
      rw [← stored]
      exact hk.same rfl rfl rfl rfl rfl rfl rfl id

/-- A call of the user between the steps is no call in a callback. -/
theorem MediaCallsBack.not_api {t : MediaTick} {a : ApiCall} (h : MediaCallsBack cx m t d f) :
    t.input ≠ .api a := by
  intro hi
  cases h with
  | line input calls =>
    rename_i i
    rw [hi] at input
    obtain rfl := Option.some.inj input
    cases calls with
    | init entry => exact nomatch entry
    | digit comes => exact nomatch comes.1
    | accepted asks =>
      obtain ⟨tone, hc, -⟩ := asks
      exact nomatch hc.1
  | digit read => exact nomatch hi.symm.trans read

end Found

section Goes

variable {p : Prop} {cx : R2Context} {env : Env} {c d e : R2Chan} {m : MediaChan}

theorem R2Chan.Ended.not_detecting (h : c.Ended p) : c.detectingDtmf = false := by
  rcases h.engine with hm | hm | ⟨-, hm⟩
  · exact (h.wired hm).2
  · exact hm.detecting
  · exact hm.detecting

theorem afterDigit_group (dnis more : Bool) (s : Stage) :
    (s.afterDigit cx dnis more).group.Dials → (s.afterDigit cx dnis more).group = s.group := by
  have hf : (s.finish cx).group.Dials → (s.finish cx).group = s.group := by
    unfold Stage.finish
    split_ifs
    · exact fun _ => rfl
    · exact fun h => h.elim
  have hw : (s.askWho cx).group.Dials → (s.askWho cx).group = s.group := by
    unfold Stage.askWho
    split_ifs with h1
    · exact hf
    · unfold Stage.askCategory
      dsimp only
      split_ifs <;> exact fun h => h.elim
  unfold Stage.afterDigit Stage.dnisTaken Stage.aniDone
  split_ifs
  · exact hw
  · exact hf
  · exact hw
  · exact fun h => h.elim
  · exact fun _ => rfl
  · exact hf
  · exact fun h => h.elim

/-- The code goes on with a call that was hung up in the callback of a digit. -/
theorem goOn_subsides (h : c.Ended True) (hd : c.direction = .backward) {s : Stage}
    (ha : s.asked ≠ .offState) (hg : s.group.Dials → s.group = c.mfGroup)
    (hn : s.asked = .acceptedTxd → c.callState = .collecting →
      Refuses env (s.asksWith cx c.mfGroup) ((c.setMfGroup s.group).setMfState .acceptedTxd)) :
    Subsides True c (goOn cx env s c) := by
  have ho : ((c.setMfGroup s.group).setMfState s.asked).Orderly := by
    refine (h.toOrderly.setMfGroup fun hx he => ?_).setMfState s.asked ha
    exact h.group he (hg hx ▸ hx)
  by_cases hx : s.asked = .acceptedTxd
  · simp only [goOn, if_pos hx]
    rw [hx] at ho ⊢
    rcases prepareMfTone_cases cx env (s.asksWith cx c.mfGroup) ((c.setMfGroup s.group).setMfState .acceptedTxd)
      with ⟨hr, ⟨q, w, hf⟩, as, hout, hs⟩ | ⟨-, d, ⟨-, as, hout, hs⟩, he⟩
    · refine .after hout (fun a hm => (hs a hm).subsides) (offerCall_subsides ?_)
      rw [hf]
      exact fun hc => hr (hn hx hc)
    · rw [he]
      refine .after hout (fun a hm => (hs a hm).subsides) ?_
      exact (handleProtocolError_subsides _ d).rest (handleProtocolError_atRest cx d env _).callState
        (offerCall_grows cx env _)
  · simp only [goOn, if_neg hx]
    refine .after (d := (c.setMfGroup s.group).setMfState s.asked) (List.append_nil _).symm (by simp)
      (prepareMfTone_subsides ?_ _)
    exact ⟨ho, h.live, h.offered, h.line, .inr (.inr ⟨trivial, hd, h.not_dialing, h.not_detecting, hx⟩)⟩

/-- A later digit of the same step, in whose callback the user does not answer. -/
theorem receiveDtmfDigit_subsides (h : c.Ended p) (digit : Tone)
    (hn : ∀ a, env.reenter ((keepDtmfDigit digit c).emit (.onDnisDigitReceived digit)).out = some a → ¬ a.Answers) :
    Subsides p c (receiveDtmfDigit cx env digit c) := by
  have hk : (keepDtmfDigit digit c).Ended p :=
    h.same (h.toOrderly.did (.storeDnis c.dnisLen digit) |>.same rfl rfl rfl rfl rfl rfl rfl id)
      rfl rfl rfl rfl rfl rfl rfl
  have he : ((keepDtmfDigit digit c).emit (.onDnisDigitReceived digit)).Ended p :=
    hk.same (hk.toOrderly.emit _) rfl rfl rfl rfl rfl rfl rfl
  have hc : Subsides p c (callback cx env (.onDnisDigitReceived digit) (keepDtmfDigit digit c)) := by
    refine .after (d := (keepDtmfDigit digit c).emit (.onDnisDigitReceived digit))
      (l := [.storeDnis c.dnisLen digit, .event (.onDnisDigitReceived digit)])
      (by simp [keepDtmfDigit, R2Chan.emit, R2Chan.did]) (by simp [Act.Proceeds]) ?_
    simp only [callback]
    cases hr : env.reenter ((keepDtmfDigit digit c).emit (.onDnisDigitReceived digit)).out with
    | none => exact .refl he
    | some a =>
      refine apiCall_subsides he a fun ha => absurd ?_ (hn a hr)
      rcases ha with rfl | ⟨mode, rfl⟩
      · trivial
      · trivial
  have hr : receiveDtmfDigit cx env digit c =
      if env.onDnisDigitReceived (keepDtmfDigit digit c).out
        then callback cx env (.onDnisDigitReceived digit) (keepDtmfDigit digit c)
        else stopDnisCallback (callback cx env (.onDnisDigitReceived digit) (keepDtmfDigit digit c)) := rfl
  rw [hr]
  split_ifs
  · exact hc
  · refine hc.trans (fun hd => .ended ?_ (List.append_nil _).symm (by simp)) (List.prefix_refl _)
    exact hd.same (hd.toOrderly.same rfl rfl rfl rfl rfl rfl rfl id) rfl rfl rfl rfl rfl rfl rfl

theorem receiveDtmfDigit_grows (digit : Tone) (c : R2Chan) :
    c.out <+: (receiveDtmfDigit cx env digit c).out := by
  have hk : c.out <+: (keepDtmfDigit digit c).out := did_grows c _
  have hc := hk.trans (callback_grows cx env (keepDtmfDigit digit c) (.onDnisDigitReceived digit))
  change c.out <+: (if env.onDnisDigitReceived (keepDtmfDigit digit c).out
    then callback cx env (.onDnisDigitReceived digit) (keepDtmfDigit digit c)
    else stopDnisCallback (callback cx env (.onDnisDigitReceived digit) (keepDtmfDigit digit c))).out
  split_ifs
  · exact hc
  · exact hc

/-- So does every later digit of the report, until the call is over. -/
theorem hearDigits_subsides (hn : ¬ AnswersWithin env c.out) (digits : List Tone) (h : Subsides p c d) :
    Subsides p c (hearDigits cx env digits d) := by
  induction digits generalizing d with
  | nil => exact h
  | cons digit digits ih =>
    refine ih ?_
    obtain ⟨as, ha, ⟨hd, ho⟩ | ⟨bs, ho⟩⟩ := h
    · refine .after ho ha (receiveDtmfDigit_subsides hd digit fun a hr hx => hn ?_)
      have hk : ((keepDtmfDigit digit d).emit (.onDnisDigitReceived digit)).out =
          c.out ++ (as ++ [.storeDnis d.dnisLen digit]) ++ [.event (.onDnisDigitReceived digit)] := by
        simp [keepDtmfDigit, R2Chan.emit, R2Chan.did, ho]
      refine ⟨as ++ [.storeDnis d.dnisLen digit], digit, a, fun hm => ?_, hk ▸ hr, hx⟩
      rcases List.mem_append.mp hm with hm | hm
      · exact (ha _ hm).2 rfl
      · cases List.mem_singleton.mp hm
    · obtain ⟨cs, hc⟩ := @receiveDtmfDigit_grows cx env digit d
      exact .gone (r := bs ++ cs) (by rw [← hc, ho]; simp) ha

theorem onDtmfReports_subsides (hn : ¬ AnswersWithin env c.out) (reports : List (Option (List Tone)))
    (h : Subsides p c m.chan) : Subsides p c (onDtmfReports cx env reports m).chan := by
  induction reports generalizing m with
  | nil => exact h
  | cons report reports ih =>
    refine ih (m := onDtmfReceived cx env report m) ?_
    cases report with
    | none => exact h
    | some digits =>
      change Subsides p c (receiveDtmfDigits cx env digits m.chan)
      rw [receiveDtmfDigits]
      split_ifs
      · exact hearDigits_subsides hn _ h
      · exact h

/-- The count of the silence starts anew at a report. -/
theorem onDtmfReports_samples (reports : List (Option (List Tone))) (h : m.dtmfSilenceSamples = 0) :
    (onDtmfReports cx env reports m).dtmfSilenceSamples = 0 := by
  induction reports generalizing m with
  | nil => exact h
  | cons report reports ih =>
    refine ih (m := onDtmfReceived cx env report m) ?_
    cases report with
    | none => exact h
    | some digits => rfl

theorem hearRest_subsides (h : c.Ended p) (hn : ¬ AnswersWithin env c.out) (x : Heard) (more : Bool)
    (digits : List Tone) (reports : List (Option (List Tone))) :
    Subsides p c (hearRest cx env x more digits reports c).chan := by
  have hs : Subsides p c (if more then c else stopDnisCallback c) := by
    split_ifs
    · exact .refl h
    · refine .ended ?_ (List.append_nil _).symm (by simp)
      exact h.same (h.toOrderly.same rfl rfl rfl rfl rfl rfl rfl id) rfl rfl rfl rfl rfl rfl rfl
  unfold hearRest
  generalize (if more then c else stopDnisCallback c) = d at hs
  have hr := @onDtmfReports_subsides p cx env c ⟨hearDigits cx env digits d, 0⟩ hn reports
    (hearDigits_subsides hn digits hs)
  have h0 := @onDtmfReports_samples cx env ⟨hearDigits cx env digits d, 0⟩ reports rfl
  dsimp only
  generalize onDtmfReports cx env reports ⟨hearDigits cx env digits d, 0⟩ = m at hr h0
  split_ifs
  · exact hr
  · -- one buffer of silence is not the end of the number
    simp only [dtmfSilence, h0]
    rw [if_neg (by decide)]
    exact hr

/-- The rest of a step in which the call is hung up. -/
theorem MediaCalls.subsides {t : MediaTick} {f : R2Chan → R2Chan} {a : ApiCall}
    (h : MediaCalls cx m t a d f) (hc : d.Closing (apiCall cx t.env a d).1) (ha : ¬ AcceptsAtOnce cx m t)
    (hn : ¬ AnswersWithin t.env (apiCall cx t.env a d).1.out) :
    Subsides True (apiCall cx t.env a d).1 (mediaStep cx t.env t.input m).chan := by
  have he := hc.1.weaken True
  rw [h.step]
  cases h with
  | between => exact .refl he
  | inside h hr =>
    cases h with
    | line input calls =>
      rename_i i
      cases calls with
      | init entry pattern alarm idle seize ready =>
        dsimp only
        split_ifs
        · exact apiCall_subsides he .ackCall (by rintro (hx | ⟨mode, hx⟩) <;> exact nomatch hx)
        · exact .refl he
      | digit comes isDigit expected =>
        rename_i tone
        have hcall : m.chan.afterCallback cx t.env tone = (apiCall cx t.env a
            ((m.chan.digitStored cx t.env tone).emit (m.chan.digitEvent cx tone))).1 := callback_of_call hr
        refine goOn_subsides he ?_ (afterDigit_asked _ _ _) (afterDigit_group _ _ _)
          fun hx hy => by_contra fun hz => ha ?_
        · exact hc.2.1.trans ((digitStored_keeps cx t.env m.chan tone).1.trans comes.2.2.1)
        · refine ⟨i, input, tone, comes, isDigit, expected, ?_, ?_, ?_⟩
          · rw [R2Chan.goesOnTo, hcall]
            exact hx
          · rw [hcall]
            exact hy
          · rw [R2Chan.goesOnTo, hcall]
            exact hz
      | accepted asks pending =>
        rename_i mode
        have hl : (apiCall cx t.env a (((m.chan.checked cx t.env).setR2State .acceptRxd).emit
            (.onCallAccepted mode))).1.r2State ≠ .acceptRxd := by
          intro hx
          have hl := he.line
          rw [hx] at hl
          exact hl
        dsimp only
        rw [if_pos (.inl hl)]
        exact (Subsides.refl he).setMfReadTone 0
    | digit read on detecting reports digits before wanted stored => exact hearRest_subsides he hn _ _ _ _

end Goes

section Runs

variable {cx : R2Context} {m : MediaChan} {ts : List MediaTick}

theorem never_stops (us : List MediaTick) : .callState .idle ∉ (mediaRun cx us m).2 ↔
    ∀ a ∈ (Runs.exec (mediaTick cx) us m).2, ¬ a = .callState .idle :=
  ⟨fun h _ ha hx => h (hx ▸ ha), fun h hx => h _ hx rfl⟩

/-- A call that was hung up between the steps goes on exactly when it is set off. -/
theorem never_goesOn_iff (h : m.chan.Ended False) : Never cx (GoesOn cx) ts m ↔ Never cx (SetsOff cx) ts m := by
  simp only [Never, never_stops]
  exact Runs.until_iff (f := mediaTick cx) (P := fun m => m.chan.Ended False) (fun a => a = .callState .idle)
    (GoesOn cx) (SetsOff cx) (fun m t h hn => mediaStep_ended h t hn False.elim)
    (fun m t _ h => setsOff_goesOn t h) ts m h

/-- One that was hung up in a callback does not go on unless it is set off, or the signalling
resumes. -/
theorem never_goesOn (h : m.chan.Ended True)
    (hn : Never cx (fun m t => SetsOff cx m t ∨ Resumes cx m t) ts m) : Never cx (GoesOn cx) ts m := by
  intro us t hu hl
  have hs : ∀ m t, m.chan.Ended True → ¬ (SetsOff cx m t ∨ Resumes cx m t) →
      (∃ a ∈ (mediaTick cx m t).2, a = .callState .idle) ∨ (mediaTick cx m t).1.chan.Ended True :=
    fun m t h hn => (mediaStep_ended h t (fun hx => hn (.inl hx)) fun _ hx => hn (.inr hx)).2
  have he : (mediaRun cx us m).1.chan.Ended True := by
    refine Runs.exec_while (f := mediaTick cx) (P := fun m => m.chan.Ended True) (fun a => a = .callState .idle) _
      hs us m h (fun js i hj ha => ?_) ((never_stops us).mp hl)
    refine hn js i (hj.trans ((List.prefix_append us [t]).trans hu)) ((never_stops js).mpr ha)
  have hx := hn us t hu hl
  exact (mediaStep_ended he t (fun hy => hx (.inl hy)) fun _ hy => hx (.inr hy)).1

/-- After a hang-up, and until the channel is idle again, a call that was hung up between the
steps does not go on if and only if no timer that the hang-up has left sets it off, and no
answer that is not refused. One that was hung up in a callback does not go on either, in the
rest of the step and after it, as long as the register signalling does not accept it at once
or resume, and the user does not answer. -/
theorem nothing_proceeds_iff (pre ts : List MediaTick) (t : MediaTick) (cause : DisconnectCause)
    (d : R2Chan) (f : R2Chan → R2Chan)
    (hc : MediaCalls cx (mediaRun cx pre .new).1 t (.disconnectCall cause) d f)
    (ho : d.callState ≠ .offered) (h0 : (disconnectCall cx t.env cause d).2 = 0)
    (hi : (disconnectCall cx t.env cause d).1.callState ≠ .idle) :
    let e := (disconnectCall cx t.env cause d).1
    let m := mediaStep cx t.env t.input (mediaRun cx pre .new).1
    (t.input = .api (.disconnectCall cause) → (Never cx (GoesOn cx) ts m ↔ Never cx (SetsOff cx) ts m)) ∧
      (¬ AcceptsAtOnce cx (mediaRun cx pre .new).1 t → ¬ AnswersWithin t.env e.out →
        ∃ as, m.chan.out = e.out ++ as ∧ (∀ a ∈ untilIdle as, ¬ a.Proceeds) ∧
          (.callState .idle ∉ as → m.chan.dialingDtmf = false ∧
            (Never cx (fun m t => SetsOff cx m t ∨ Resumes cx m t) ts m → Never cx (GoesOn cx) ts m))) := by
  intro e m
  have hord := hc.orderly (@mediaRun_orderly cx .new new_orderly pre)
  have hl : d.callState ≠ .idle := fun hx => by simp [disconnectCall, hx] at h0
  have hclose : d.Closing e := by
    rcases @disconnectCall_cases cx t.env d hord hl ho cause with hx | hx
    · exact absurd (by rw [hx]; exact (reportCallEnd_atRest cx d t.env).callState) hi
    · exact hx
  constructor
  · intro ht
    have hm : m.chan = e := by
      cases hc with
      | between h =>
        change (mediaStep cx t.env t.input _).chan = _
        rw [h]
        rfl
      | inside h => exact absurd ht h.not_api
    exact never_goesOn_iff (by rw [hm]; exact hclose.1)
  · intro ha hn
    obtain ⟨as, hout, hp, he⟩ := (hc.subsides hclose ha hn).done
    exact ⟨as, hout, hp, fun hx => ⟨(he hx).not_dialing, never_goesOn (he hx)⟩⟩

/-- A caller who dials with DTMF hangs up right after the acknowledgement of the seize. -/
def dtmfCx : R2Context := { configureItu 10 10 R2Context.zero with dialWithDtmf := true }

def acknowledged : List MediaTick := [⟨Env.fair 0x9, .cas⟩,
  ⟨Env.fair 0x9, .api (.makeCall none [Tone.t5] .nationalSubscriber false)⟩, ⟨Env.fair 0xD, .cas⟩]

theorem nothing_proceeds_early :
    let t : MediaTick := ⟨Env.fair 0xD, .api (.disconnectCall .normalClearing)⟩
    let ts : List MediaTick := [⟨Env.fair 0x9, .cas⟩]
    let e := (disconnectCall dtmfCx t.env .normalClearing (mediaRun dtmfCx acknowledged .new).1.chan.start).1
    let m := mediaStep dtmfCx t.env t.input (mediaRun dtmfCx acknowledged .new).1
    (t.input = .api (.disconnectCall .normalClearing) →
        (Never dtmfCx (GoesOn dtmfCx) ts m ↔ Never dtmfCx (SetsOff dtmfCx) ts m)) ∧
      (¬ AcceptsAtOnce dtmfCx (mediaRun dtmfCx acknowledged .new).1 t → ¬ AnswersWithin t.env e.out →
        ∃ as, m.chan.out = e.out ++ as ∧ (∀ a ∈ untilIdle as, ¬ a.Proceeds) ∧
          (.callState .idle ∉ as → m.chan.dialingDtmf = false ∧
            (Never dtmfCx (fun m t => SetsOff dtmfCx m t ∨ Resumes dtmfCx m t) ts m →
              Never dtmfCx (GoesOn dtmfCx) ts m))) := by
  intro t ts
  exact nothing_proceeds_iff acknowledged ts t .normalClearing _ id (.between rfl) (by decide) (by decide) (by decide)

/-- The timer that starts to dial is left, and the digits are sent all the same. -/
theorem dials_after_hang_up :
    ¬ ∀ (cx : R2Context) (pre ts : List MediaTick) (t : MediaTick) (cause : DisconnectCause) (d : R2Chan)
        (f : R2Chan → R2Chan), MediaCalls cx (mediaRun cx pre .new).1 t (.disconnectCall cause) d f →
      d.callState ≠ .offered → (disconnectCall cx t.env cause d).2 = 0 →
      (disconnectCall cx t.env cause d).1.callState ≠ .idle →
      Never cx (GoesOn cx) ts (mediaStep cx t.env t.input (mediaRun cx pre .new).1) := by
  intro h
  have hx := h dtmfCx acknowledged [⟨Env.fair 0xD, .timer 3⟩]
    ⟨Env.fair 0xD, .api (.disconnectCall .normalClearing)⟩ .normalClearing _ id (.between rfl) (by decide)
    (by decide) (by decide) [] ⟨Env.fair 0xD, .timer 3⟩ (List.prefix_refl _) (by decide)
  exact hx (.inr (.inl (by decide)))

end Runs

end OpenR2
