import OpenR2.Proofs.LineMoves

namespace OpenR2

variable {cx : R2Context} {env : Env} {s : Stimulus} {c d e : R2Chan}

section Tones

theorem startMfTone_goes (tone : Tone) (c : R2Chan) : Goes cx env s c (startMfTone cx env tone c) := by
  simp only [startMfTone]
  split_ifs with hd
  · exact (armTimer_goes .mfBackCycle _ .mfBackCycleTimeoutExpired .backward trivial (.inl hd) trivial).trans (did_goes rfl _)
  · exact (armTimer_goes .mfBackCycle _ .mfBackCycleTimeoutExpired .backward trivial (.inl hd) trivial).trans (did_goes rfl _)
  · exact did_goes rfl _
  · exact did_goes rfl _

theorem selectMfTone_goes (tone : Tone) (c : R2Chan) :
    Goes cx env s c (selectMfTone cx env tone c) := by
  have hd : Goes cx env s c (c.did (.mfSelectTone c.mfWriteHandle tone)) := did_goes rfl c
  simp only [selectMfTone]
  split_ifs
  · exact .refl
  · exact hd.trans (handleProtocolError_goes _ _)
  · exact hd
  · exact hd.trans (startMfTone_goes _ _)

theorem prepareMfTone_goes (tone : Tone) (c : R2Chan) :
    Goes cx env s c (prepareMfTone cx env tone c) := by
  have hd : Goes cx env s c (c.did .flushWriteBuffers) := did_goes rfl c
  simp only [prepareMfTone]
  split_ifs
  · exact hd.trans (selectMfTone_goes _ _)
  · exact hd
  · exact selectMfTone_goes _ _

theorem setSilence_goes (c : R2Chan) : Goes cx env s c (setSilence cx env c) :=
  prepareMfTone_goes 0 c

end Tones

section Forward

/-- The code knows that the call is an outgoing one, and that its register
signalling is on or about to begin. -/
def R2Chan.Sending (c : R2Chan) : Prop :=
  c.control.Forward ∧ (c.mfState ≠ .offState ∨ c.r2State = .seizeAckRxd)

/-- The forward side enters an MF state and goes on from there. -/
theorem R2Chan.Sending.mfState (h : c.Sending) (m : MfState)
    (hm : m.Forward) (hg : Goes cx env s (c.setMfState m) d) : Goes cx env s c d :=
  .head (.fwdMf m h.1 h.2 hm) hg

theorem R2Chan.Sending.mfGroup (h : c.Sending) (g : MfGroup)
    (hm : g.Forward) (hg : Goes cx env s (c.setMfGroup g) d) : Goes cx env s c d :=
  .head (.fwdGroup g h.1 hm) hg

theorem waitTimeout_goes (h : c.Sending) : Goes cx env s c (waitTimeout cx env c) :=
  h.mfState .waitingTimeout trivial (armTimer_goes _ _ _ .forward trivial h.1 rfl)

theorem mfSendDnisDigit_goes (h : c.Sending) : Goes cx env s c (mfSendDnisDigit cx env c) := by
  have hr : Goes cx env s c (c.did (.readDnis c.dnisIndex)) := did_goes rfl c
  have hs : (c.did (.readDnis c.dnisIndex)).Sending := h
  refine hr.trans ?_
  simp only [mfSendDnisDigit]
  split_ifs
  · exact hs.mfState .dnisTxd trivial (prepareMfTone_goes _ _)
  · exact hs.mfState .dnisEndTxd trivial (prepareMfTone_goes _ _)
  · exact waitTimeout_goes hs

theorem mfSendDnis_goes (offset : Int) (h : c.Sending) :
    Goes cx env s c (mfSendDnis cx env offset c) := by
  have hd : ∀ i, Goes cx env s c (mfSendDnisDigit cx env (c.setDnisIndex i)) :=
    fun i => mfSendDnisDigit_goes (c := c.setDnisIndex i) h
  simp only [mfSendDnis]
  split_ifs
  · exact hd _
  · exact mfSendDnisDigit_goes h
  · exact hd _
  · exact handleProtocolError_goes _ _

theorem mfSendCategory_goes (h : c.Sending) : Goes cx env s c (mfSendCategory cx env c) :=
  h.mfState .categoryTxd trivial (prepareMfTone_goes _ (c.setMfState .categoryTxd).setCategorySent)

theorem mfSendAniDigit_goes (h : c.Sending) : Goes cx env s c (mfSendAniDigit cx env c) := by
  have hr : Goes cx env s c (c.did (.readAni c.aniPtr)) := did_goes rfl c
  have hs : (c.did (.readAni c.aniPtr)).Sending := h
  simp only [mfSendAniDigit]
  split_ifs
  · exact h.mfState .aniEndTxd trivial (prepareMfTone_goes _ _)
  · exact hr.trans (hs.mfState .aniTxd trivial
      (prepareMfTone_goes _ ((c.did (.readAni c.aniPtr)).setMfState .aniTxd)))
  · exact hr.trans (hs.mfState .aniEndTxd trivial (prepareMfTone_goes _ _))
  · exact hr.trans (hs.mfState .aniEndTxd trivial (prepareMfTone_goes _ _))
  · exact hr.trans (waitTimeout_goes hs)

theorem mfSendAni_goes (h : c.Sending) : Goes cx env s c (mfSendAni cx env c) := by
  simp only [mfSendAni]
  split_ifs
  · exact h.mfGroup .gi trivial (mfSendDnis_goes 1 (c := c.setMfGroup .gi) h)
  · exact mfSendAniDigit_goes h

theorem callAnswered_goes (hs : s = .advance) (hr : c.r2State = .acceptRxd) :
    Goes cx env s c (callAnswered cx c) := by
  obtain ⟨p, hp, ht⟩ := turnOffMfEngine_control cx
    (((c.cancelTimer .r2Answer).setR2State .answerRxd).setCallState .answered)
  have hc : (callAnswered cx c).control =
      { c.control.marked [.callState .answered, .event .onCallAnswered] with
        r2State := .answerRxd
        callState := .answered
        mfState := .offState
        answered := true
        pending := p } := by
    simp only [callAnswered, control_emit, control_setAnswered, ht, control_setCallState,
      control_setR2State, Control.marked, List.append_assoc, List.cons_append, List.nil_append]
    rfl
  rw [Goes, hc]
  have hp : p ⊆ c.control.pending := fun x hx => pending_cancelTimer .r2Answer c.timers (hp hx)
  exact .tail (.single (.answered hs hr)) (.drop p hp)

theorem handleAcceptTone_goes (hq : env.Quiet) (mode : CallMode) (hd : c.direction = .forward)
    (hm : c.mfState ≠ .offState) (hs : s = .advance) :
    Goes cx env s c (handleAcceptTone cx env mode c) := by
  have hr : Goes cx env s c (c.setR2State .acceptRxd) :=
    .single (.hop .acceptRxd (.tone .acceptRxd hd hm (.inl rfl)))
  have ha : ∀ d : R2Chan, Goes cx env s d (d.emit (.onCallAccepted mode)) :=
    fun d => .one (control_emit _ d ▸ .accepted mode hs)
  simp only [handleAcceptTone, callback, hq _]
  split_ifs
  · exact hr.trans (ha _)
  · exact (hr.trans (ha _)).trans (callAnswered_goes hs rfl)
  · exact (hr.trans (armTimer_goes .r2Answer _ .r2AnswerTimeoutExpired .forward trivial (.inl hd) rfl)).trans
      (ha _)

theorem callRejected_goes (cause : DisconnectCause) (hd : c.direction = .forward)
    (hm : c.mfState ≠ .offState) (hs : s ≠ .advance) : Goes cx env s c (callRejected cause c) :=
  .head (.hop .clearBackToneRxd (.tone .clearBackToneRxd hd hm (.inr rfl)))
    (reportCallDisconnection_goes (c := c.setR2State .clearBackToneRxd) cause hs (.inl (.inl hd)))

theorem handleDnisRequest_goes (offset : Int) (h : c.Sending) :
    Goes cx env s c (handleDnisRequest cx env offset c) := by
  simp only [handleDnisRequest]
  split_ifs
  · exact mfSendDnis_goes offset (c := c.setDnisIndex 0) h
  · exact mfSendDnis_goes offset h

/-- The end of a backward tone, for a forward side whose register signalling is on. -/
theorem handleBackwardMfSilence_goes (hq : env.Quiet) (hd : c.direction = .forward)
    (hm : c.mfState ≠ .offState) (hs : s = .advance ↔ takesForAcceptance cx c) :
    Goes cx env s c (handleBackwardMfSilence cx env c.mfReadTone c) := by
  have h : c.Sending := ⟨.inl hd, .inl hm⟩
  unfold handleBackwardMfSilence
  split
  all_goals
    rename_i hg
    simp only [takesForAcceptance, hg] at hs
  · unfold handleGroupARequest
    split
    · exact handleDnisRequest_goes _ h
    · rename_i hn
      split_ifs with h1 h2 h3 h4 h5 h6
      · exact mfSendAni_goes h
      · exact h.mfGroup .giii trivial (mfSendCategory_goes (c := c.setMfGroup .giii) h)
      · exact mfSendCategory_goes h
      · exact h.mfGroup .gii trivial (mfSendCategory_goes (c := c.setMfGroup .gii) h)
      · exact handleAcceptTone_goes hq _ hd hm (hs.mpr ⟨hn, h1, h2, h4, h5⟩)
      · exact callRejected_goes _ hd hm fun ha => h5 (hs.mp ha).2.2.2.2
      · exact handleProtocolError_goes _ _
  · unfold handleGroupBRequest
    split_ifs with h1
    · exact handleAcceptTone_goes hq _ hd hm (hs.mpr h1)
    all_goals first
      | exact callRejected_goes _ hd hm fun ha => h1 (hs.mp ha)
      | exact handleProtocolError_goes _ _
  · unfold handleGroupCRequest
    split_ifs
    · exact mfSendAni_goes h
    · exact h.mfGroup .gii trivial (mfSendCategory_goes (c := c.setMfGroup .gii) h)
    · exact h.mfGroup .gi trivial (mfSendDnis_goes 1 (c := c.setMfGroup .gi) h)
    · exact callRejected_goes _ hd hm hs.mp
    · exact handleProtocolError_goes _ _
  · exact handleProtocolError_goes _ _

end Forward

section Backward

/-- The code knows that the call is an incoming one, and that its register
signalling is on or about to answer an offer. -/
def Control.Receiving (k : Control) : Prop :=
  k.Backward ∧ (k.mfState ≠ .offState ∨ k.callState = .offered)

/-- The backward side enters an MF state and goes on from there. -/
theorem Control.Receiving.mfState (h : c.control.Receiving) (m : MfState)
    (hm : m.Backward) (hg : Goes cx env s (c.setMfState m) d) : Goes cx env s c d :=
  .head (.backMf m h.1 h.2 hm) hg

/-- The same with a new MF group. -/
theorem Control.Receiving.request (h : c.control.Receiving) (g : MfGroup) (m : MfState)
    (hg : g.Backward) (hm : m.Backward) (hn : Goes cx env s ((c.setMfGroup g).setMfState m) d) :
    Goes cx env s c d :=
  .head (.backGroup g h.1 hg) (.head (.backMf m (.inr (.inr (.inl hg))) h.2 hm) hn)

theorem callback_goes (hq : env.Quiet) (ev : Event) (c : R2Chan) (he : ev.Neutral) :
    Goes cx env s c (callback cx env ev c) := by
  simp only [callback, hq _]
  exact emit_goes ev he c

theorem offerCall_goes (c : R2Chan) : Goes cx env s c (offerCall cx env c) := by
  simp only [offerCall]
  split_ifs with h
  · exact handleProtocolError_goes _ _
  · refine .one ?_
    rw [control_emit, control_setCallState]
    have ho : Move cx (∀ h, env.setCas h = true) s c.control _ := .offer (cstr c.ani) (cstr c.dnis) (tone2category cx c.callerCategory) c.callerAniIsRestricted
      (not_not.mp h)
    simpa [Control.marked] using ho

theorem bypassChangeToG2_goes (h : c.control.Receiving) :
    Goes cx env s c (bypassChangeToG2 cx env c) :=
  (h.mfState .acceptedTxd trivial (prepareMfTone_goes _ _)).trans (offerCall_goes _)

theorem requestChangeToG2_goes (h : c.control.Receiving) :
    Goes cx env s c (requestChangeToG2 cx env c) :=
  h.request .gb .chgGiiTxd trivial trivial (prepareMfTone_goes _ _)

theorem tryChangeToG2_goes (h : c.control.Receiving) : Goes cx env s c (tryChangeToG2 cx env c) := by
  unfold tryChangeToG2
  split_ifs
  · exact bypassChangeToG2_goes h
  · exact requestChangeToG2_goes h

theorem tryRequestCallingPartyCategory_goes (h : c.control.Receiving) :
    Goes cx env s c (tryRequestCallingPartyCategory cx env c) := by
  simp only [tryRequestCallingPartyCategory, requestCallingPartyCategory]
  split_ifs
  · exact tryChangeToG2_goes h
  · exact h.request .ga .categoryRqTxd trivial trivial (prepareMfTone_goes _ _)
  · exact h.request .gc .categoryRqTxd trivial trivial (prepareMfTone_goes _ _)

theorem requestNextDnisDigit_goes (h : c.control.Receiving) :
    Goes cx env s c (requestNextDnisDigit cx env c) :=
  h.request .ga .dnisRqTxd trivial trivial (prepareMfTone_goes _ _)

theorem requestNextAniDigit_goes (h : c.control.Receiving) :
    Goes cx env s c (requestNextAniDigit cx env c) :=
  h.mfState .aniRqTxd trivial (prepareMfTone_goes _ _)

theorem mfBackCycleTimeoutExpired_goes (c : R2Chan) :
    Goes cx env s c (mfBackCycleTimeoutExpired cx env c) := by
  simp only [mfBackCycleTimeoutExpired]
  split_ifs with h1 h2
  all_goals try exact handleProtocolError_goes _ _
  all_goals
    have hb : c.control.Backward :=
      .inr (.inr (.inl (by simp [R2Chan.control, h1.2.1, MfGroup.Backward])))
    have hm : c.mfState ≠ .offState := by rcases h1.2.2 with h | h <;> simp [h]
    obtain ⟨p, n, -, -, hc⟩ := armTimer_control env .mfBackResumeCycle cx.timers.mfBackResumeCycle
      .mfBackResumeCycle c
    have hr : Goes cx env s c (armTimer env .mfBackResumeCycle cx.timers.mfBackResumeCycle
        .mfBackResumeCycle c) := armTimer_goes _ _ _ .backward trivial hb trivial
    have ha : (armTimer env .mfBackResumeCycle cx.timers.mfBackResumeCycle .mfBackResumeCycle
        c).control.Receiving := by
      rw [hc]; exact ⟨hb, .inl hm⟩
  · exact hr.trans (tryRequestCallingPartyCategory_goes ha)
  · exact hr.trans (tryChangeToG2_goes ha)

theorem storeDnisDigit_control (tone : Tone) (c : R2Chan) :
    (storeDnisDigit tone c).control = c.control := by
  unfold storeDnisDigit
  split_ifs
  · rfl
  · exact control_did (a := .storeDnis _ _) rfl c

theorem storeAniDigit_control (tone : Tone) (c : R2Chan) :
    (storeAniDigit tone c).control = c.control :=
  control_did (a := .storeAni _ _) rfl c

theorem afterDnisDigit_goes (rc : Bool) (h : c.control.Receiving) :
    Goes cx env s c (afterDnisDigit cx env rc c) := by
  unfold afterDnisDigit
  split_ifs
  · exact tryRequestCallingPartyCategory_goes h
  · exact tryChangeToG2_goes h
  · exact tryRequestCallingPartyCategory_goes h
  · exact requestNextDnisDigit_goes h

/-- A callback that returns without a call leaves what the code knew. -/
theorem callback_receiving (hq : env.Quiet) (ev : Event) (h : c.control.Receiving) :
    (callback cx env ev c).control.Receiving := by
  simp only [callback, hq _, control_emit]
  exact h

theorem mfReceiveExpectedDnis_goes (hq : env.Quiet) (tone : Tone) (h : c.control.Receiving) :
    Goes cx env s c (mfReceiveExpectedDnis cx env tone c) := by
  simp only [mfReceiveExpectedDnis]
  split_ifs
  · have hs : Goes cx env s c (storeDnisDigit tone c) := .of_eq (storeDnisDigit_control tone c)
    have hb : (storeDnisDigit tone c).control.Receiving := storeDnisDigit_control tone c ▸ h
    exact (hs.trans (callback_goes hq (.onDnisDigitReceived tone) _ trivial)).trans
      (afterDnisDigit_goes _ (callback_receiving hq _ hb))
  · exact tryRequestCallingPartyCategory_goes h
  · exact tryChangeToG2_goes h
  · exact handleProtocolError_goes _ _

theorem doneGettingAni_goes (h : c.control.Receiving) : Goes cx env s c (doneGettingAni cx env c) := by
  unfold doneGettingAni
  split_ifs
  · exact tryChangeToG2_goes h
  · exact requestNextDnisDigit_goes h

theorem mfReceiveExpectedAni_goes (hq : env.Quiet) (tone : Tone) (h : c.control.Receiving) :
    Goes cx env s c (mfReceiveExpectedAni cx env tone c) := by
  have hs : Goes cx env s c (callback cx env (.onAniDigitReceived tone) (storeAniDigit tone c)) :=
    (Goes.of_eq (storeAniDigit_control tone c)).trans (callback_goes hq (.onAniDigitReceived tone) _ trivial)
  have hb : (callback cx env (.onAniDigitReceived tone) (storeAniDigit tone c)).control.Receiving :=
    callback_receiving hq _ (storeAniDigit_control tone c ▸ h)
  simp only [mfReceiveExpectedAni]
  split_ifs
  · exact hs.trans (requestNextAniDigit_goes hb)
  · exact hs.trans (doneGettingAni_goes hb)
  · exact requestNextAniDigit_goes h
  · exact doneGettingAni_goes h
  · exact doneGettingAni_goes (c := c.restrictAni) h
  · exact doneGettingAni_goes h
  · exact handleProtocolError_goes _ _

theorem receiveCategory_goes (hq : env.Quiet) (tone : Tone) (h : c.control.Receiving) :
    Goes cx env s c (receiveCategory cx env tone c) := by
  simp only [receiveCategory]
  split_ifs
  · exact mfReceiveExpectedAni_goes hq 0 (c := c.setCallerCategory tone) h
  · exact tryChangeToG2_goes (c := c.setCallerCategory tone) h
  · exact requestChangeToG2_goes (c := c.setCallerCategory tone) h

theorem handleForwardMfTone_goes (hq : env.Quiet) (tone : Tone) (hd : c.direction = .backward)
    (hm : c.mfState ≠ .offState) : Goes cx env s c (handleForwardMfTone cx env tone c) := by
  have h : (c.cancelTimer .mfBackCycle).control.Receiving := ⟨.inl hd, .inl hm⟩
  refine (cancelTimer_goes .mfBackCycle c).trans ?_
  simp only [handleForwardMfTone]
  split
  · split_ifs
    · exact mfReceiveExpectedAni_goes hq _ h
    · exact mfReceiveExpectedDnis_goes hq _ h
  all_goals first
    | exact mfReceiveExpectedDnis_goes hq _ h
    | exact receiveCategory_goes hq _ h
    | exact mfReceiveExpectedAni_goes hq _ h
    | exact offerCall_goes _
    | exact handleProtocolError_goes _ _

theorem mfDanceEnded_goes (hs : s = .advance) (hm : c.mfState = .acceptedTxd)
    (hg : c.mfGroup = .ga ∨ c.mfGroup = .gb) : Goes cx env s c (mfDanceEnded cx env c) := by
  obtain ⟨p, hp, ht⟩ := turnOffMfEngine_control cx c
  have hc : ((turnOffMfEngine cx c).setCallState .accepted).control =
      { c.control.marked [.callState .accepted] with
        mfState := .offState
        callState := .accepted
        pending := p } := by
    rw [control_setCallState, ht]
    rfl
  have hd : Goes cx env s c ((turnOffMfEngine cx c).setCallState .accepted) := by
    rw [Goes, hc]
    exact .tail (.single (.danceEnded hs hm hg)) (.drop p hp)
  refine hd.trans (armTimer_goes _ _ _ .backward trivial ?_ ?_)
  · rw [hc]
    exact .inr (.inr (.inr trivial))
  · rw [hc]
    rfl

theorem handleForwardMfSilence_goes
    (hs : (setSilence cx env c).mfState = .acceptedTxd →
      (setSilence cx env c).mfGroup = .ga ∨ (setSilence cx env c).mfGroup = .gb → s = .advance) :
    Goes cx env s c (handleForwardMfSilence cx env c) := by
  refine (setSilence_goes c).trans ?_
  simp only [handleForwardMfSilence]
  split
  · rename_i hg hm
    exact mfDanceEnded_goes (hs hm (.inl hg)) hm (.inl hg)
  · rename_i hg hm
    exact mfDanceEnded_goes (hs hm (.inr hg)) hm (.inr hg)
  · exact .single (.drop [] (List.nil_subset _))
  · exact .refl
  · exact .refl
  · exact .refl
  · exact handleProtocolError_goes _ _
  · exact handleProtocolError_goes _ _

end Backward

section Detector

theorem checkThreshold_control (cx : R2Context) (env : Env) (tone : Tone) (c : R2Chan) :
    (checkThreshold cx env tone c).1.control = c.control := by
  have hg : (c.did .gettimeofday).control = c.control := control_did rfl c
  have ht : ∀ d : R2Chan, (toneLongEnough cx env d).1.control = d.control := by
    intro d
    unfold toneLongEnough
    split <;> exact control_did rfl d
  unfold checkThreshold
  split_ifs
  · rfl
  · split
    · exact hg
    · exact (ht _).trans hg
  · exact ht c

end Detector

end OpenR2
