import OpenR2.Proofs.CallSteps

namespace OpenR2

section Deaf

variable {cx : R2Context} {env : Env} {tone : Tone} {c d : R2Chan}

/-- The channel no longer listens, or has this tone on already. -/
def R2Chan.Deaf (tone : Tone) (c : R2Chan) : Prop := c.mfState = .offState ∨ c.mfReadTone = tone

theorem handleMedia_of_deaf (h : c.Deaf tone) : handleMedia cx env tone c = c := by
  unfold handleMedia
  split
  · rfl
  · next hm =>
    have hr := h.resolve_left hm
    unfold handleMfTone
    by_cases ht : tone = 0
    · rw [if_neg (not_not.mpr ht), if_pos (hr.trans ht)]
    · rw [if_pos ht, if_pos hr]

theorem handleProtocolError_deaf (tone : Tone) (reason : ProtocolError) (c : R2Chan) :
    (handleProtocolError cx env reason c).Deaf tone :=
  .inl (handleProtocolError_atRest cx c env reason).mfState

theorem R2Chan.Tuned.deaf (ht : c.Tuned d) (h : c.Deaf tone) : d.Deaf tone := by
  obtain ⟨⟨q, w, hf⟩, -⟩ := ht
  rw [hf]
  exact h

/-- A tone to send that is refused ends the call. -/
theorem prepareMfTone_deaf (t : Tone) (h : c.Deaf tone) : (prepareMfTone cx env t c).Deaf tone := by
  rcases prepareMfTone_cases cx env t c with ⟨-, ht⟩ | ⟨-, d, -, he⟩
  · exact ht.deaf h
  · rw [he]
    exact handleProtocolError_deaf tone _ d

theorem offerCall_deaf (h : c.Deaf tone) : (offerCall cx env c).Deaf tone := by
  unfold offerCall
  split
  · exact handleProtocolError_deaf tone _ c
  · exact h

theorem requestCallingPartyCategory_deaf (h : c.mfReadTone = tone) :
    (requestCallingPartyCategory cx env c).Deaf tone :=
  prepareMfTone_deaf _ (.inr h)

theorem requestChangeToG2_deaf (h : c.mfReadTone = tone) : (requestChangeToG2 cx env c).Deaf tone :=
  prepareMfTone_deaf _ (.inr h)

theorem requestNextDnisDigit_deaf (h : c.mfReadTone = tone) :
    (requestNextDnisDigit cx env c).Deaf tone :=
  prepareMfTone_deaf _ (.inr h)

theorem requestNextAniDigit_deaf (h : c.mfReadTone = tone) :
    (requestNextAniDigit cx env c).Deaf tone :=
  prepareMfTone_deaf _ (.inr h)

theorem tryChangeToG2_deaf (h : c.mfReadTone = tone) : (tryChangeToG2 cx env c).Deaf tone := by
  unfold tryChangeToG2
  split
  · exact offerCall_deaf (prepareMfTone_deaf _ (.inr h))
  · exact requestChangeToG2_deaf h

theorem tryRequestCallingPartyCategory_deaf (h : c.mfReadTone = tone) :
    (tryRequestCallingPartyCategory cx env c).Deaf tone := by
  unfold tryRequestCallingPartyCategory
  split
  · exact tryChangeToG2_deaf h
  · exact requestCallingPartyCategory_deaf h

theorem callback_quiet (hq : env.Quiet) (e : Event) (c : R2Chan) : callback cx env e c = c.emit e := by
  simp only [callback, hq _]

theorem afterDnisDigit_deaf (rc : Bool) (h : c.mfReadTone = tone) :
    (afterDnisDigit cx env rc c).Deaf tone := by
  unfold afterDnisDigit
  split_ifs
  · exact tryRequestCallingPartyCategory_deaf h
  · exact tryChangeToG2_deaf h
  · exact tryRequestCallingPartyCategory_deaf h
  · exact requestNextDnisDigit_deaf h

theorem mfReceiveExpectedDnis_deaf (hq : env.Quiet) (t : Tone) (h : c.mfReadTone = tone) :
    (mfReceiveExpectedDnis cx env t c).Deaf tone := by
  unfold mfReceiveExpectedDnis
  dsimp only
  split_ifs
  · rw [callback_quiet hq]
    refine afterDnisDigit_deaf _ ?_
    unfold storeDnisDigit
    split
    · exact h
    · exact h
  · exact tryRequestCallingPartyCategory_deaf h
  · exact tryChangeToG2_deaf h
  · exact handleProtocolError_deaf tone _ c

theorem doneGettingAni_deaf (h : c.mfReadTone = tone) : (doneGettingAni cx env c).Deaf tone := by
  unfold doneGettingAni
  split
  · exact tryChangeToG2_deaf h
  · exact requestNextDnisDigit_deaf h

theorem mfReceiveExpectedAni_deaf (hq : env.Quiet) (t : Tone) (h : c.mfReadTone = tone) :
    (mfReceiveExpectedAni cx env t c).Deaf tone := by
  have ho : ∀ d : R2Chan, d.mfReadTone = tone →
      (if t = 0 ∨ cx.forceUseMaxAni = false ∧ d.aniLen < uint32 cx.maxAni
        then requestNextAniDigit cx env d else doneGettingAni cx env d).Deaf tone := by
    intro d hd
    split
    · exact requestNextAniDigit_deaf hd
    · exact doneGettingAni_deaf hd
  unfold mfReceiveExpectedAni
  simp only [callback_quiet hq]
  split
  · split
    · exact ho _ h
    · exact ho _ h
  · split
    · split
      · exact doneGettingAni_deaf h
      · exact doneGettingAni_deaf h
    · exact handleProtocolError_deaf tone _ c

theorem receiveCategory_deaf (hq : env.Quiet) (t : Tone) (h : c.mfReadTone = tone) :
    (receiveCategory cx env t c).Deaf tone := by
  unfold receiveCategory
  dsimp only
  split_ifs
  · exact mfReceiveExpectedAni_deaf hq 0 h
  · exact tryChangeToG2_deaf h
  · exact requestChangeToG2_deaf h

theorem handleForwardMfTone_deaf (hq : env.Quiet) (t : Tone) (h : c.mfReadTone = tone) :
    (handleForwardMfTone cx env t c).Deaf tone := by
  have hc : (c.cancelTimer .mfBackCycle).mfReadTone = tone := h
  unfold handleForwardMfTone
  generalize c.cancelTimer .mfBackCycle = d at hc
  dsimp only
  split
  · split
    · exact mfReceiveExpectedAni_deaf hq t hc
    · exact mfReceiveExpectedDnis_deaf hq t hc
  · exact mfReceiveExpectedDnis_deaf hq t hc
  · exact receiveCategory_deaf hq t hc
  · exact receiveCategory_deaf hq t hc
  · exact mfReceiveExpectedAni_deaf hq t hc
  · exact mfReceiveExpectedAni_deaf hq t hc
  · exact offerCall_deaf (.inr hc)
  all_goals exact handleProtocolError_deaf tone _ d

theorem setSilence_deaf (h : c.Deaf tone) : (setSilence cx env c).Deaf tone :=
  prepareMfTone_deaf 0 h

theorem handleToneOn_deaf (hq : env.Quiet) (tone : Tone) (c : R2Chan) :
    (handleToneOn cx env tone c).Deaf tone := by
  unfold handleToneOn
  dsimp only
  split
  · exact handleForwardMfTone_deaf hq tone rfl
  · exact setSilence_deaf (.inr rfl)
  · exact handleProtocolError_deaf tone _ _

/-- Whatever comes of a report, the same report comes too late after it. -/
theorem handleMedia_deaf (hm : cx.mfThreshold = 0) (hq : env.Quiet) (tone : Tone) (c : R2Chan) :
    (handleMedia cx env tone c).Deaf tone := by
  have hc : ∀ t, (checkThreshold cx env t c).2 = 0 := fun t => by rw [checkThreshold, if_pos hm]
  generalize hd : handleMedia cx env tone c = d
  have hx : Detects cx env tone c d := hd ▸ handleMedia_detects cx env tone c
  cases hx with
  | ignores h => exact h
  | breaks => exact handleProtocolError_deaf tone _ c
  | waits _ hw => exact absurd (hc tone) hw
  | toneOn => exact handleToneOn_deaf hq tone _
  | toneOff ht => exact .inr ht.symm

end Deaf

section Repeats

variable {cx : R2Context} {tone : Tone}

theorem run_of_deaf {us : List Tick} (hu : ∀ u ∈ us, u.input = .mfTone tone) {c : R2Chan}
    (h : c.Deaf tone) : (run cx us c).1.start = c.start ∧ (run cx us c).2 = [] := by
  induction us generalizing c with
  | nil => exact ⟨rfl, rfl⟩
  | cons u us ih =>
    have hs : (tick cx c u).1 = c.start := by
      unfold tick step
      rw [hu u List.mem_cons_self]
      exact handleMedia_of_deaf h
    obtain ⟨h1, h2⟩ := ih (fun v hv => hu v (List.mem_cons_of_mem _ hv)) (show c.start.Deaf tone from h)
    have ho : (tick cx c u).2 = [] := congrArg R2Chan.out hs
    rw [run, Runs.exec, hs, ho]
    exact ⟨h1, h2⟩

/-- A report of the detector that comes again does nothing, on any channel. -/
theorem repeated_detections (hm : cx.mfThreshold = 0) (c : R2Chan) {t : Tick} (hq : t.env.Quiet)
    (ht : t.input = .mfTone tone) {us : List Tick} (hu : ∀ u ∈ us, u.input = .mfTone tone) :
    (run cx (t :: us) c).1.start = (run cx [t] c).1.start ∧
      (run cx (t :: us) c).2 = (run cx [t] c).2 := by
  have hs : (tick cx c t).1.Deaf tone := by
    unfold tick step
    rw [ht]
    exact handleMedia_deaf hm hq tone c.start
  obtain ⟨h1, h2⟩ := run_of_deaf hu hs
  refine ⟨h1, ?_⟩
  have ho : (run cx (t :: us) c).2 = (tick cx c t).2 ++ (run cx us (tick cx c t).1).2 := rfl
  rw [ho, h2]
  rfl

/-- An incoming call that waits for its first digit hears it three times. -/
theorem repeated_detections_digit :
    let cx := configureItu 10 10 R2Context.zero
    let c := { R2Chan.new with
      direction := .backward, callState := .collecting, r2State := .seizeAckTxd
      mfGroup := .backInit, mfState := .seizeAckTxd }
    let t : Tick := ⟨Env.fair 0, .mfTone Tone.t5⟩
    (run cx [t, t, t] c).1.start = (run cx [t] c).1.start ∧ (run cx [t, t, t] c).2 = (run cx [t] c).2 := by
  intro cx c t
  have ht : ∀ u ∈ [t, t], u.input = .mfTone Tone.t5 := by simp [t]
  exact repeated_detections rfl c (fun _ => rfl) rfl ht

end Repeats

end OpenR2
