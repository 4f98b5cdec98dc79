import OpenR2.Proofs.InAlarm

namespace OpenR2

namespace Stage

variable (cx : R2Context)

/-- Where a digit leads, of the number or of the caller's number. -/
def afterDigit (dnis more : Bool) (s : Stage) : Stage :=
  if dnis then s.dnisTaken cx more
  else if cx.forceUseMaxAni = false ∧ s.aniLen < uint32 cx.maxAni then s.askAni
  else s.aniDone cx

/-- The tone with which this is asked for, of a caller in this group. -/
def asksWith (g : MfGroup) (s : Stage) : Tone :=
  match s.asked with
  | .dnisRqTxd =>
    if g = .gc then cx.gcTones.requestNextDnisDigitAndChangeToGa else cx.gaTones.requestNextDnisDigit
  | .aniRqTxd =>
    if cx.gcTones.requestNextAniDigit ≠ 0 then cx.gcTones.requestNextAniDigit
    else cx.gaTones.requestNextAniDigit
  | .categoryRqTxd => requestCategoryTone cx
  | .chgGiiTxd => if g = .gc then cx.gcTones.requestChangeToG2 else cx.gaTones.requestChangeToG2
  | _ => cx.gaTones.addressCompleteChargeSetup

end Stage

/-- The user hangs up. -/
def ApiCall.HangsUp : ApiCall → Prop
  | .disconnectCall _ | .setIdle => True
  | _ => False

/-- A tone other than silence is selected. -/
def Act.Plays : Act → Prop
  | .mfSelectTone _ tone => tone ≠ 0
  | _ => False

theorem Act.not_plays_silence (handle : Option Nat) : ¬ (Act.mfSelectTone handle 0).Plays :=
  fun h => h rfl

namespace R2Chan

variable (cx : R2Context) (env : Env) (tone : Tone) (c : R2Chan)

/-- The digit has been stored, and the user is about to hear of it. -/
def digitStored : R2Chan :=
  let d := ((checkThreshold cx env tone c.start).1.setMfReadTone tone).cancelTimer .mfBackCycle
  if c.stage.ExpectsDnis cx then storeDnisDigit tone d else storeAniDigit tone d

def digitEvent : Event :=
  if c.stage.ExpectsDnis cx then .onDnisDigitReceived tone else .onAniDigitReceived tone

/-- The channel as the callback of the digit leaves it. -/
def afterCallback : R2Chan := callback cx env (c.digitEvent cx tone) (c.digitStored cx env tone)

/-- What the code goes on to ask for. It looks at the channel that the callback has left. -/
def goesOnTo : Stage :=
  (c.afterCallback cx env tone).stage.afterDigit cx (decide (c.stage.ExpectsDnis cx))
    (env.onDnisDigitReceived (c.digitStored cx env tone).out)

/-- No tone is selected on the way from `d` to `e`. -/
def Mutely (d e : R2Chan) : Prop := ∃ as, e.out = d.out ++ as ∧ ∀ a ∈ as, ¬ a.Plays

/-- Nothing of the register signalling goes on after `d`. -/
structure SignallingStopped (d e : R2Chan) : Prop where
  mfState : e.mfState = .offState
  tones : d.Mutely e
  timers : .mfBackCycleTimeoutExpired ∉ e.pending

/-- The request that follows has no tone of its own, and comes to nothing: silence is
refused, or the call, which was to be accepted at once, has changed its state. -/
def FallsSilent (s : Stage) (d : R2Chan) : Prop :=
  (s.asksWith cx d.mfGroup = 0 ∨ s.asksWith cx d.mfGroup = d.mfWriteTone) ∧
    (Refuses env (s.asksWith cx d.mfGroup) d ∨ s.asked = .acceptedTxd ∧ d.callState ≠ .collecting)

end R2Chan

section GoOn

variable (cx : R2Context) (env : Env)

/-- One request, whatever it is for. A call that is accepted at once is offered with it. -/
def goOn (s : Stage) (d : R2Chan) : R2Chan :=
  let e := prepareMfTone cx env (s.asksWith cx d.mfGroup) ((d.setMfGroup s.group).setMfState s.asked)
  if s.asked = .acceptedTxd then offerCall cx env e else e

variable {cx env} {c d : R2Chan}

theorem requestNextDnisDigit_goesOn (d : R2Chan) :
    requestNextDnisDigit cx env d = goOn cx env d.stage.askDnis d := rfl

theorem requestNextAniDigit_goesOn (d : R2Chan) :
    requestNextAniDigit cx env d = goOn cx env d.stage.askAni d := rfl

theorem tryChangeToG2_goesOn (d : R2Chan) :
    tryChangeToG2 cx env d = goOn cx env (d.stage.finish cx) d := by
  unfold tryChangeToG2 Stage.finish
  split_ifs
  · rfl
  · rfl

theorem tryRequestCallingPartyCategory_goesOn (d : R2Chan) :
    tryRequestCallingPartyCategory cx env d = goOn cx env (d.stage.askWho cx) d := by
  unfold tryRequestCallingPartyCategory Stage.askWho
  split_ifs
  · exact tryChangeToG2_goesOn d
  · rfl

theorem afterDnisDigit_goesOn (more : Bool) (d : R2Chan) :
    afterDnisDigit cx env more d = goOn cx env (d.stage.dnisTaken cx more) d := by
  have hc : dnisComplete cx d ↔ d.stage.Complete cx := Iff.rfl
  have hl : d.dnisLen = d.stage.dnisLen := rfl
  unfold afterDnisDigit Stage.dnisTaken
  simp only [hc, hl]
  split_ifs
  · exact tryRequestCallingPartyCategory_goesOn d
  · exact tryChangeToG2_goesOn d
  · exact tryRequestCallingPartyCategory_goesOn d
  · exact requestNextDnisDigit_goesOn d

theorem doneGettingAni_goesOn (d : R2Chan) :
    doneGettingAni cx env d = goOn cx env (d.stage.aniDone cx) d := by
  have hc : dnisComplete cx d ↔ d.stage.Complete cx := Iff.rfl
  unfold doneGettingAni Stage.aniDone
  simp only [hc]
  split_ifs
  · exact tryChangeToG2_goesOn d
  · exact requestNextDnisDigit_goesOn d

end GoOn

namespace R2Chan.Mutely

variable {c d e : R2Chan}

theorem refl (c : R2Chan) : c.Mutely c := ⟨[], (List.append_nil _).symm, by simp⟩

theorem trans (h : c.Mutely d) (h' : d.Mutely e) : c.Mutely e := by
  obtain ⟨as, ho, ha⟩ := h
  obtain ⟨bs, ho', hb⟩ := h'
  refine ⟨as ++ bs, by rw [ho', ho, List.append_assoc], fun a hm => ?_⟩
  exact (List.mem_append.mp hm).elim (ha a) (hb a)

theorem did {a : Act} (ha : ¬ a.Plays) (c : R2Chan) : c.Mutely (c.did a) :=
  ⟨[a], rfl, by simpa using ha⟩

/-- A part of what was done. -/
theorem part (h : c.Mutely e) (hd : c.out <+: d.out) (he : d.out <+: e.out) : c.Mutely d := by
  obtain ⟨as, ho, ha⟩ := h
  obtain ⟨bs, hb⟩ := hd
  obtain ⟨cs, hc⟩ := he
  have hm : as = bs ++ cs := by
    rw [← hc, ← hb, List.append_assoc] at ho
    exact (List.append_cancel_left ho).symm
  exact ⟨bs, hb.symm, fun a hx => ha a (hm ▸ List.mem_append_left _ hx)⟩

/-- A tone that has been selected stays so. -/
theorem not_after {a : Act} (ha : a.Plays) (hd : (c.did a).out <+: e.out) : ¬ c.Mutely e := by
  intro h
  obtain ⟨as, ho, hs⟩ := h.part (did_grows c a) hd
  have hm : as = [a] := (List.append_cancel_left ho).symm
  exact hs a (by simp [hm]) ha

end R2Chan.Mutely

section Plays

variable (cx : R2Context) (env : Env) (c : R2Chan)

/-- Silence is all that a protocol error selects. -/
theorem handleProtocolError_mutely (reason : ProtocolError) :
    c.Mutely (handleProtocolError cx env reason c) := by
  have h0 : c.Mutely (c.did (.mfSelectTone c.mfWriteHandle 0)) := .did (Act.not_plays_silence _) c
  obtain ⟨-, as, ho, ha⟩ := protoInit_reset cx (c.did (.mfSelectTone c.mfWriteHandle 0))
  have hr : (c.did (.mfSelectTone c.mfWriteHandle 0)).Mutely
      (protoInit cx (c.did (.mfSelectTone c.mfWriteHandle 0))) := by
    refine ⟨as ++ [.callState .idle], by rw [ho, List.append_assoc], fun a hm => ?_⟩
    rcases List.mem_append.mp hm with hm | hm
    · have hx := ha a hm
      cases a <;> first | exact hx.elim | exact id
    · rw [List.mem_singleton.mp hm]
      exact id
  have hs : (protoInit cx (c.did (.mfSelectTone c.mfWriteHandle 0))).Mutely
      (handleProtocolError cx env reason c) := by
    refine ⟨[.setCas (cx.casSignals .idle ||| cx.casNonr2Bits), .event (.onProtocolError reason)],
      ?_, ?_⟩
    · exact List.append_assoc _ _ _
    · intro a hm
      simp only [List.mem_cons, List.not_mem_nil, or_false] at hm
      rcases hm with rfl | rfl
      · exact id
      · exact id
  exact (h0.trans hr).trans hs

theorem startMfTone_grows (tone : Tone) : c.out <+: (startMfTone cx env tone c).out := by
  obtain ⟨as, ho, -⟩ := (startMfTone_tuned cx env tone c).out
  rw [ho]
  exact List.prefix_append _ _

/-- A tone is selected unless it is silence, or the one that is on. -/
theorem selectMfTone_mutely_iff (tone : Tone) :
    c.Mutely (selectMfTone cx env tone c) ↔ tone = 0 ∨ tone = c.mfWriteTone := by
  constructor
  · intro h
    by_contra hx
    rw [not_or] at hx
    refine R2Chan.Mutely.not_after (a := .mfSelectTone c.mfWriteHandle tone) hx.1 ?_ h
    simp only [selectMfTone, if_neg (Ne.symm hx.2), if_neg hx.1]
    split_ifs
    · exact handleProtocolError_grows cx env _ _
    · exact startMfTone_grows cx env _ tone
  · intro h
    by_cases hw : c.mfWriteTone = tone
    · simp only [selectMfTone, if_pos hw]
      exact .refl c
    · obtain rfl : tone = 0 := h.resolve_right fun h => hw h.symm
      have h0 : c.Mutely (c.did (.mfSelectTone c.mfWriteHandle 0)) := .did (Act.not_plays_silence _) c
      simp only [selectMfTone, if_neg hw, if_pos]
      split_ifs
      · exact h0.trans (handleProtocolError_mutely cx env _ _)
      · exact h0

theorem prepareMfTone_mutely_iff (tone : Tone) :
    c.Mutely (prepareMfTone cx env tone c) ↔ tone = 0 ∨ tone = c.mfWriteTone := by
  have hf : c.Mutely (c.did .flushWriteBuffers) := .did id c
  simp only [prepareMfTone]
  split_ifs with h0 h1
  · have hs := (selectMfTone_mutely_iff cx env (c.did .flushWriteBuffers) tone).mpr (.inl h0.1)
    exact iff_of_true (hf.trans hs) (.inl h0.1)
  · exact iff_of_true hf (.inl h0.1)
  · exact selectMfTone_mutely_iff cx env c tone

end Plays

section Digits

variable {cx : R2Context} {env : Env} {s : Stage} {c d : R2Chan} {t : Tick} {tone : Tone}

theorem R2Chan.AtRest.stopped {e : R2Chan} (h : e.AtRest) (hd : d.Mutely e) :
    d.SignallingStopped e := by
  refine ⟨h.mfState, hd, ?_⟩
  simp [R2Chan.pending, h.timers, TimerQueue.pending, TimerQueue.cancelAllTimers]

/-- A request ends the signalling only where it fails without a tone. -/
theorem request_stopped_iff (hm : c.mfState ≠ .offState) :
    c.SignallingStopped (prepareMfTone cx env tone c) ↔
      (tone = 0 ∨ tone = c.mfWriteTone) ∧ Refuses env tone c := by
  rw [← prepareMfTone_mutely_iff cx env c tone]
  rcases prepareMfTone_cases cx env tone c with ⟨hr, ht⟩ | ⟨hr, d, -, he⟩
  · refine iff_of_false (fun h => hm ?_) fun h => hr h.2
    obtain ⟨⟨q, w, hf⟩, -⟩ := ht
    rw [← h.mfState, hf]
  · refine ⟨fun h => ⟨h.tones, hr⟩, fun h => R2Chan.AtRest.stopped ?_ h.1⟩
    rw [he]
    exact handleProtocolError_atRest cx d env _

/-- So does an acceptance at once, or it finds that there is nothing to offer. -/
theorem acceptance_stopped_iff (hm : c.mfState ≠ .offState) :
    c.SignallingStopped (offerCall cx env (prepareMfTone cx env tone c)) ↔
      (tone = 0 ∨ tone = c.mfWriteTone) ∧ (Refuses env tone c ∨ c.callState ≠ .collecting) := by
  rw [← prepareMfTone_mutely_iff cx env c tone]
  have hg := prepareMfTone_grows cx env c tone
  have hc : (Refuses env tone c ∨ c.callState ≠ .collecting) ↔
      (prepareMfTone cx env tone c).callState ≠ .collecting := by
    rcases prepareMfTone_cases cx env tone c with ⟨hr, ht⟩ | ⟨hr, d, -, he⟩
    · obtain ⟨⟨q, w, hf⟩, -⟩ := ht
      rw [or_iff_right hr, hf]
    · rw [he, (handleProtocolError_atRest cx d env _).callState]
      exact iff_of_true (.inl hr) nofun
  have hk : (prepareMfTone cx env tone c).callState = .collecting →
      (prepareMfTone cx env tone c).mfState ≠ .offState := by
    rcases prepareMfTone_cases cx env tone c with ⟨-, ht⟩ | ⟨-, d, -, he⟩
    · obtain ⟨⟨q, w, hf⟩, -⟩ := ht
      rw [hf]
      exact fun _ => hm
    · rw [he, (handleProtocolError_atRest cx d env _).callState]
      exact nofun
  rw [hc]
  generalize prepareMfTone cx env tone c = d at hg hk
  constructor
  · intro h
    refine ⟨h.tones.part hg (offerCall_grows cx env d), fun hx => hk hx ?_⟩
    have he := h.mfState
    rwa [offerCall, if_neg (not_not.mpr hx)] at he
  · rintro ⟨hd, hx⟩
    rw [offerCall, if_pos hx]
    have he := hd.trans (handleProtocolError_mutely cx env d .invalidR2State)
    exact (handleProtocolError_atRest cx d env _).stopped he

/-- Whatever is asked for, it is asked for. -/
theorem goOn_stopped_iff (ha : s.asked ≠ .offState) :
    d.SignallingStopped (goOn cx env s d) ↔ d.FallsSilent cx env s := by
  have hs : d.SignallingStopped (goOn cx env s d) ↔
      ((d.setMfGroup s.group).setMfState s.asked).SignallingStopped (goOn cx env s d) :=
    ⟨fun h => ⟨h.mfState, h.tones, h.timers⟩, fun h => ⟨h.mfState, h.tones, h.timers⟩⟩
  have hm : ((d.setMfGroup s.group).setMfState s.asked).mfState ≠ .offState := ha
  rw [hs]
  unfold goOn R2Chan.FallsSilent
  dsimp only
  split_ifs with hx
  · rw [acceptance_stopped_iff hm]
    simp only [hx, true_and]
    exact Iff.rfl
  · rw [request_stopped_iff hm]
    simp only [hx, false_and, or_false]
    exact Iff.rfl

theorem afterDigit_asked (dnis more : Bool) (s : Stage) :
    (s.afterDigit cx dnis more).asked ≠ .offState := by
  have hf : (s.finish cx).asked ≠ .offState := by
    unfold Stage.finish
    split_ifs <;> exact nofun
  have hw : (s.askWho cx).asked ≠ .offState := by
    unfold Stage.askWho
    split_ifs
    · exact hf
    · exact nofun
  unfold Stage.afterDigit Stage.dnisTaken Stage.aniDone
  split_ifs
  · exact hw
  · exact hf
  · exact hw
  · exact nofun
  · exact nofun
  · exact hf
  · exact nofun

theorem afterAniDigit_goesOn (h0 : tone ≠ 0) (d : R2Chan) :
    (if tone = 0 ∨ cx.forceUseMaxAni = false ∧ d.aniLen < uint32 cx.maxAni
      then requestNextAniDigit cx env d else doneGettingAni cx env d) =
        goOn cx env (if cx.forceUseMaxAni = false ∧ d.stage.aniLen < uint32 cx.maxAni
          then d.stage.askAni else d.stage.aniDone cx) d := by
  have hl : d.aniLen = d.stage.aniLen := rfl
  simp only [h0, false_or, hl]
  split_ifs
  · exact requestNextAniDigit_goesOn d
  · exact doneGettingAni_goesOn d

/-- The two handlers of a digit. -/
theorem handleForwardMfTone_digit (h0 : tone ≠ 0) (hd : tone.isDigit = true)
    (he : c.stage.ExpectsDnis cx ∨ c.stage.ExpectsAni cx) :
    handleForwardMfTone cx env tone c =
      if c.stage.ExpectsDnis cx then
        let d := storeDnisDigit tone (c.cancelTimer .mfBackCycle)
        afterDnisDigit cx env (env.onDnisDigitReceived d.out)
          (callback cx env (.onDnisDigitReceived tone) d)
      else
        let d := callback cx env (.onAniDigitReceived tone)
          (storeAniDigit tone (c.cancelTimer .mfBackCycle))
        if tone = 0 ∨ cx.forceUseMaxAni = false ∧ d.aniLen < uint32 cx.maxAni
          then requestNextAniDigit cx env d else doneGettingAni cx env d := by
  have hdnis : ∀ d : R2Chan, mfReceiveExpectedDnis cx env tone d =
      afterDnisDigit cx env (env.onDnisDigitReceived (storeDnisDigit tone d).out)
        (callback cx env (.onDnisDigitReceived tone) (storeDnisDigit tone d)) := by
    intro d
    rw [mfReceiveExpectedDnis, if_pos hd]
  have hani : ∀ d : R2Chan, mfReceiveExpectedAni cx env tone d =
      let d := callback cx env (.onAniDigitReceived tone) (storeAniDigit tone d)
      if tone = 0 ∨ cx.forceUseMaxAni = false ∧ d.aniLen < uint32 cx.maxAni
        then requestNextAniDigit cx env d else doneGettingAni cx env d := by
    intro d
    simp only [mfReceiveExpectedAni, hd, or_true, if_true, if_pos h0]
  have hm : (c.cancelTimer .mfBackCycle).mfState = c.mfState := rfl
  have hg : (c.cancelTimer .mfBackCycle).mfGroup = c.mfGroup := rfl
  simp only [handleForwardMfTone, hm, hg]
  by_cases hx : c.stage.ExpectsDnis cx
  · rw [if_pos hx]
    obtain ⟨hg, hm⟩ | ⟨hg, hm, hf⟩ := hx
    · have hg : c.mfGroup = .ga := hg
      have hm : c.mfState = .dnisRqTxd := hm
      rw [hg, hm]
      exact hdnis _
    · have hg : c.mfGroup = .backInit := hg
      have hm : c.mfState = .seizeAckTxd := hm
      rw [hg, hm, ← hdnis]
      exact if_neg hf
  · rw [if_neg hx]
    obtain ⟨hg, hm⟩ | ⟨hg, hm, hf⟩ := he.resolve_left hx
    · have hm : c.mfState = .aniRqTxd := hm
      rcases hg with hg | hg
      · have hg : c.mfGroup = .ga := hg
        rw [hg, hm]
        exact hani _
      · have hg : c.mfGroup = .gc := hg
        rw [hg, hm]
        exact hani _
    · have hg : c.mfGroup = .backInit := hg
      have hm : c.mfState = .seizeAckTxd := hm
      rw [hg, hm]
      exact (if_pos hf).trans (hani _)

/-- A digit is stored, told to the user, and followed by a request. -/
theorem tick_goesOn (hc : Comes cx c t tone) (hd : tone.isDigit = true)
    (he : c.stage.ExpectsDnis cx ∨ c.stage.ExpectsAni cx) :
    (tick cx c t).1 = goOn cx t.env (c.goesOnTo cx t.env tone) (c.afterCallback cx t.env tone) := by
  obtain ⟨hi, h0, hb, hm, hr, hz⟩ := hc
  have hk : (checkThreshold cx t.env tone c.start).1.stage = c.stage ∧
      (checkThreshold cx t.env tone c.start).1.direction = c.direction := by
    obtain ⟨x, y, as, hf, -⟩ := checkThreshold_frame cx t.env tone c.start
    rw [hf]
    exact ⟨rfl, rfl⟩
  have ht : (tick cx c t).1 = handleForwardMfTone cx t.env tone
      ((checkThreshold cx t.env tone c.start).1.setMfReadTone tone) := by
    have hs : (tick cx c t).1 = handleMedia cx t.env tone c.start := by
      simp only [tick, hi]
      rfl
    have hm : c.start.mfState ≠ .offState := hm
    have hr : c.start.mfReadTone = 0 := hr
    have hb : ((checkThreshold cx t.env tone c.start).1.setMfReadTone tone).direction = .backward :=
      hk.2.trans hb
    rw [hs, handleMedia, if_neg hm, handleMfTone, if_pos h0, if_neg fun h => h0 (h.symm.trans hr),
      if_neg (not_not.mpr hr)]
    rw [if_neg (not_not.mpr hz), handleToneOn, hb]
  have hst : ((checkThreshold cx t.env tone c.start).1.setMfReadTone tone).stage = c.stage := hk.1
  rw [ht, handleForwardMfTone_digit h0 hd (hst ▸ he), hst]
  unfold R2Chan.goesOnTo R2Chan.afterCallback R2Chan.digitEvent R2Chan.digitStored
  by_cases hx : c.stage.ExpectsDnis cx
  · simp only [decide_true, Stage.afterDigit, hx]
    exact afterDnisDigit_goesOn _ _
  · simp only [hx, decide_false, Stage.afterDigit, Bool.false_eq_true, if_false]
    exact afterAniDigit_goesOn h0 _

/-- After `set_idle` that is an acceptance at once for which the variant has no tone. -/
theorem fallsSilent_setIdle_iff (c : R2Chan) :
    (setIdle cx env c).1.FallsSilent cx env s ↔
      s.asked = .acceptedTxd ∧ cx.gaTones.addressCompleteChargeSetup = 0 := by
  have hr := setIdle_atRest cx c env
  have hw : (setIdle cx env c).1.mfWriteTone = 0 := by
    obtain ⟨⟨rx, r, w, x, y, hf⟩, -⟩ := protoInit_reset cx c
    have hs : (setIdle cx env c).1.mfWriteTone = (protoInit cx c).mfWriteTone := rfl
    rw [hs, hf]
  unfold R2Chan.FallsSilent
  rw [hr.mfGroup, hr.callState, hw, or_self]
  constructor
  · rintro ⟨h0, hx | ⟨hx, -⟩⟩
    · exact absurd (hw.trans h0.symm) hx.1
    · refine ⟨hx, ?_⟩
      rwa [Stage.asksWith, hx] at h0
  · rintro ⟨hx, h0⟩
    refine ⟨?_, .inr ⟨hx, nofun⟩⟩
    rwa [Stage.asksWith, hx]

/-- A digit comes. Whatever the user does in its callback, and a hang up is no exception, the
code goes on to its next request, and only one that comes to nothing leaves the engine off. -/
theorem hang_up_in_callback_iff (hc : Comes cx c t tone) (hd : tone.isDigit = true)
    (he : c.stage.ExpectsDnis cx ∨ c.stage.ExpectsAni cx) :
    (c.afterCallback cx t.env tone).SignallingStopped (tick cx c t).1 ↔
      (c.afterCallback cx t.env tone).FallsSilent cx t.env (c.goesOnTo cx t.env tone) := by
  rw [tick_goesOn hc hd he]
  exact goOn_stopped_iff (afterDigit_asked _ _ _)

/-- The first digit of a call. -/
theorem hang_up_in_callback_first :
    let cx := setAniFirst 0 (configureItu 10 4 R2Context.zero)
    let c := (run cx seizeTicks (restingChannel cx)).1
    let t : Tick := ⟨Env.givingUp, .mfTone Tone.t5⟩
    (c.afterCallback cx t.env Tone.t5).SignallingStopped (tick cx c t).1 ↔
      (c.afterCallback cx t.env Tone.t5).FallsSilent cx t.env (c.goesOnTo cx t.env Tone.t5) :=
  hang_up_in_callback_iff (by decide +kernel) rfl (by decide +kernel)

/-- The user sets the channel idle at the first digit, and it asks for the second one. -/
theorem signalling_after_hang_up :
    ¬ ∀ (cx : R2Context) (c : R2Chan) (js : List Tick) (t : Tick) (tone : Tone) (a : ApiCall),
      cx.Mfc → Started cx c → let d := (run cx js c).1
      Comes cx d t tone → tone.isDigit = true → d.stage.ExpectsDnis cx →
      (∀ h, t.env.reenter h = some a) → a.HangsUp →
      (d.afterCallback cx t.env tone).SignallingStopped (tick cx d t).1 := by
  intro h
  let cx := setAniFirst 0 (configureItu 10 4 R2Context.zero)
  have hs := h cx (restingChannel cx) seizeTicks ⟨Env.givingUp, .mfTone Tone.t5⟩ Tone.t5 .setIdle
    ⟨rfl, rfl⟩ (.idle _ _) (by decide +kernel) rfl (by decide +kernel) (fun _ => rfl) trivial
  exact absurd hs.mfState (by decide +kernel)

end Digits

end OpenR2
