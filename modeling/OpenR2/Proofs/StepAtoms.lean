import OpenR2.Proofs.Atoms
import OpenR2.Proofs.Persistence
import OpenR2.Proofs.Polling

namespace OpenR2

/-- The user calls back into the library only as the world may, in whatever the callbacks
of this part of a step find. -/
def Permits (cx : R2Context) (env : Env) (ok : Chance → R2Chan → Prop) (c : R2Chan) : Prop :=
  ∀ d a, Atoms cx env ok c d → env.reenter d.out = some a → ok (.call a) d

theorem Permits.after {cx : R2Context} {env : Env} {ok : Chance → R2Chan → Prop} {c d : R2Chan}
    (h : Permits cx env ok c) (hd : Atoms cx env ok c d) : Permits cx env ok d :=
  fun e a he => h e a (hd.trans he)

section Forward

variable (cx : R2Context) (env : Env) (ok : Chance → R2Chan → Prop) (c : R2Chan)

/-- The forward side may go on with the register signalling. -/
def R2Chan.MaySend (c : R2Chan) : Prop := c.direction = .forward ∧ c.mfState ≠ .offState

theorem R2Chan.MaySend.outgoing {c : R2Chan} (h : c.MaySend) : c.Outgoing := .inl h.1

theorem sendTone_atoms (m : MfState) (hm : m.Forward) (tone : Tone) (h : c.MaySend) :
    Atoms cx env ok c (prepareMfTone cx env tone (c.setMfState m)) :=
  signalTone_atoms cx env ok c m (.forward m hm h.1 h.2) tone

theorem setDnisIndex_atoms (i : Nat) : Atoms cx env ok c (c.setDnisIndex i) :=
  quiet_atoms cx env ok c _ rfl rfl

theorem waitTimeout_atoms (h : c.MaySend) : Atoms cx env ok c (waitTimeout cx env c) := by
  have ho : (c.setMfState .waitingTimeout).Outgoing := h.outgoing
  exact (Relation.ReflTransGen.single (.signal c .waitingTimeout (.forward _ trivial h.1 h.2))).trans
    (armTimer_atoms cx env ok _ .mfFwdSafety _ ho)

theorem mfSendDnisDigit_atoms (h : c.MaySend) : Atoms cx env ok c (mfSendDnisDigit cx env c) := by
  have hd : Atoms cx env ok c (c.did (.readDnis c.dnisIndex)) := did_atoms cx env ok c _ trivial
  have hs : (c.did (.readDnis c.dnisIndex)).MaySend := h
  simp only [mfSendDnisDigit]
  split_ifs
  · exact hd.trans (sendTone_atoms cx env ok _ .dnisTxd trivial _ hs)
  · exact hd.trans (sendTone_atoms cx env ok _ .dnisEndTxd trivial _ hs)
  · exact hd.trans (waitTimeout_atoms cx env ok _ hs)

theorem mfSendDnis_atoms (offset : Int) (h : c.MaySend) : Atoms cx env ok c (mfSendDnis cx env offset c) := by
  have hi : ∀ i, Atoms cx env ok c (mfSendDnisDigit cx env (c.setDnisIndex i)) := fun i =>
    (setDnisIndex_atoms cx env ok c i).trans (mfSendDnisDigit_atoms cx env ok (c.setDnisIndex i) h)
  simp only [mfSendDnis]
  split_ifs
  · exact hi _
  · exact mfSendDnisDigit_atoms cx env ok c h
  · exact hi _
  · exact handleProtocolError_atoms cx env ok c _

theorem mfSendCategory_atoms (h : c.MaySend) : Atoms cx env ok c (mfSendCategory cx env c) :=
  ((Relation.ReflTransGen.single (.signal c .categoryTxd (.forward _ trivial h.1 h.2))).trans
    (quiet_atoms cx env ok (c.setMfState .categoryTxd) (c.setMfState .categoryTxd).setCategorySent
      rfl rfl)).trans (prepareMfTone_atoms cx env ok _ _)

theorem mfSendAniDigit_atoms (h : c.MaySend) : Atoms cx env ok c (mfSendAniDigit cx env c) := by
  have hd : Atoms cx env ok c (c.did (.readAni c.aniPtr)) := did_atoms cx env ok c _ trivial
  have hs : (c.did (.readAni c.aniPtr)).MaySend := h
  simp only [mfSendAniDigit]
  split_ifs
  · exact sendTone_atoms cx env ok c .aniEndTxd trivial _ h
  · exact (hd.trans (sendTone_atoms cx env ok _ .aniTxd trivial _ hs)).trans
      (quiet_atoms cx env ok _ _ rfl rfl)
  · exact hd.trans (sendTone_atoms cx env ok _ .aniEndTxd trivial _ hs)
  · exact hd.trans (sendTone_atoms cx env ok _ .aniEndTxd trivial _ hs)
  · exact hd.trans (waitTimeout_atoms cx env ok _ hs)

theorem mfSendAni_atoms (h : c.MaySend) (hg : c.mfGroup.Dials) :
    Atoms cx env ok c (mfSendAni cx env c) := by
  simp only [mfSendAni]
  split_ifs
  · exact (Relation.ReflTransGen.single (.group c .gi fun _ => hg)).trans (mfSendDnis_atoms cx env ok (c.setMfGroup .gi) 1 h)
  · exact mfSendAniDigit_atoms cx env ok c h

theorem armTimer_setR2State' (slot : TimerSlot) (ms : Nat) (cb : TimerCallback) (r : CasState) :
    armTimer env slot ms cb (c.setR2State r) = (armTimer env slot ms cb c).setR2State r := by
  have ho : (c.setR2State r).out = c.out := rfl
  simp only [armTimer, addTimer, ho]
  cases env.gettimeofday c.out <;> rfl

theorem handleAcceptTone_atoms (hp : Permits cx env ok c) (mode : CallMode) (hd : c.direction = .forward)
    (hm : c.mfState ≠ .offState) (hg : c.mfGroup.Dials) :
    Atoms cx env ok c (handleAcceptTone cx env mode c) := by
  have ha : Atoms cx env ok c ((c.setR2State .acceptRxd).emit (.onCallAccepted mode)) :=
    .single (.acceptTone c mode hd hm hg)
  have hc : Atoms cx env ok c (callback cx env (.onCallAccepted mode) (c.setR2State .acceptRxd)) :=
    ha.trans (callback_atoms cx env ok _ _ fun a h => hp _ a ha h)
  simp only [handleAcceptTone]
  split_ifs with _ hs
  · exact hc
  · exact hc.tail (.answered _ (not_not.mp (not_or.mp hs).1))
  · have ht := R2Chan.Tuned.armTimer env .r2Answer cx.timers.r2Answer TimerSlot.r2Answer.purpose c
    rw [armTimer_setR2State']
    refine (armTimer_atoms cx env ok c .r2Answer _ (.inl hd)).tail
      (.acceptTone _ mode ?_ ?_ ?_)
    · rw [ht.direction, hd]
    · obtain ⟨⟨q, w, hf⟩, -⟩ := ht
      rwa [hf]
    · obtain ⟨⟨q, w, hf⟩, -⟩ := ht
      rwa [hf]

theorem callRejected_atoms (cause : DisconnectCause) (hd : c.direction = .forward)
    (hm : c.mfState ≠ .offState) : Atoms cx env ok c (callRejected cause c) :=
  (Relation.ReflTransGen.single (.hop c _ (.reject hd hm))).tail
    (.report _ cause (.inl (.inr (.inr (.inr (.inr rfl))))))

theorem handleGroupARequest_atoms (hp : Permits cx env ok c) (tone : Tone) (hd : c.direction = .forward)
    (hm : c.mfState ≠ .offState) (hg : c.mfGroup.Dials) :
    Atoms cx env ok c (handleGroupARequest cx env tone c) := by
  have hs : c.MaySend := ⟨hd, hm⟩
  have hx : ∀ g, Atoms cx env ok c (c.setMfGroup g) := fun g => .single (.group c g fun _ => hg)
  simp only [handleGroupARequest]
  split
  · simp only [handleDnisRequest]
    split_ifs
    · exact (setDnisIndex_atoms cx env ok c 0).trans (mfSendDnis_atoms cx env ok (c.setDnisIndex 0) _ hs)
    · exact mfSendDnis_atoms cx env ok c _ hs
  · split_ifs
    · exact mfSendAni_atoms cx env ok c hs hg
    · exact (hx .giii).trans (mfSendCategory_atoms cx env ok (c.setMfGroup .giii) hs)
    · exact mfSendCategory_atoms cx env ok c hs
    · exact (hx .gii).trans (mfSendCategory_atoms cx env ok (c.setMfGroup .gii) hs)
    · exact handleAcceptTone_atoms cx env ok c hp _ hd hm hg
    · exact callRejected_atoms cx env ok c _ hd hm
    · exact handleProtocolError_atoms cx env ok c _

theorem handleGroupCRequest_atoms (tone : Tone) (hd : c.direction = .forward) (hm : c.mfState ≠ .offState)
    (hg : c.mfGroup.Dials) : Atoms cx env ok c (handleGroupCRequest cx env tone c) := by
  have hs : c.MaySend := ⟨hd, hm⟩
  have hx : ∀ g, Atoms cx env ok c (c.setMfGroup g) := fun g => .single (.group c g fun _ => hg)
  simp only [handleGroupCRequest]
  split_ifs
  · exact mfSendAni_atoms cx env ok c hs hg
  · exact (hx .gii).trans (mfSendCategory_atoms cx env ok (c.setMfGroup .gii) hs)
  · exact (hx .gi).trans (mfSendDnis_atoms cx env ok (c.setMfGroup .gi) 1 hs)
  · exact callRejected_atoms cx env ok c _ hd hm
  · exact handleProtocolError_atoms cx env ok c _

theorem handleGroupBRequest_atoms (hp : Permits cx env ok c) (tone : Tone) (hd : c.direction = .forward)
    (hm : c.mfState ≠ .offState) (hg : c.mfGroup.Dials) :
    Atoms cx env ok c (handleGroupBRequest cx env tone c) := by
  simp only [handleGroupBRequest]
  split_ifs
  · exact handleAcceptTone_atoms cx env ok c hp _ hd hm hg
  · exact callRejected_atoms cx env ok c _ hd hm
  · exact callRejected_atoms cx env ok c _ hd hm
  · exact callRejected_atoms cx env ok c _ hd hm
  · exact callRejected_atoms cx env ok c _ hd hm
  · exact callRejected_atoms cx env ok c _ hd hm
  · exact handleProtocolError_atoms cx env ok c _

theorem handleBackwardMfSilence_atoms (hp : Permits cx env ok c) (tone : Tone)
    (hd : c.direction = .forward) (hm : c.mfState ≠ .offState) :
    Atoms cx env ok c (handleBackwardMfSilence cx env tone c) := by
  simp only [handleBackwardMfSilence]
  have hg : ∀ g, c.mfGroup = g → g.Dials → c.mfGroup.Dials := fun g he hx => he ▸ hx
  split
  · exact handleGroupARequest_atoms cx env ok c hp tone hd hm (hg .gi ‹_› trivial)
  · exact handleGroupBRequest_atoms cx env ok c hp tone hd hm (hg .gii ‹_› trivial)
  · exact handleGroupCRequest_atoms cx env ok c tone hd hm (hg .giii ‹_› trivial)
  · exact handleProtocolError_atoms cx env ok c _

end Forward

section Backward

variable (cx : R2Context) (env : Env) (ok : Chance → R2Chan → Prop) (c : R2Chan)

theorem requestTone_atoms (m : MfState) (hm : m.Backward) (tone : Tone) (h : c.GoesOn cx env ok) :
    Atoms cx env ok c (prepareMfTone cx env tone (c.setMfState m)) :=
  signalTone_atoms cx env ok c m (.backward m hm h) tone

/-- The group is written with the state, before or after it. -/
theorem requestIn_atoms (g : MfGroup) (hg : ¬ g.Dials) (m : MfState) (hm : m.Backward) (tone : Tone)
    (h : c.GoesOn cx env ok) :
    Atoms cx env ok c (prepareMfTone cx env tone ((c.setMfGroup g).setMfState m)) :=
  ((Relation.ReflTransGen.single (.signal c m (.backward m hm h))).tail
    (.group _ g fun hx => absurd hx hg)).trans
    (prepareMfTone_atoms cx env ok _ tone)

theorem offerCall_atoms (ho : c.callState = .collecting → c.mfState ≠ .offState ∨ ok .digitsEnd c) :
    Atoms cx env ok c (offerCall cx env c) := by
  simp only [offerCall]
  split_ifs with hc
  · exact handleProtocolError_atoms cx env ok c _
  · exact .single (.offer c (not_not.mp hc) (ho (not_not.mp hc)))

/-- The acceptance is sent, unless that has ended the call. -/
theorem bypassChangeToG2_atoms (h : c.GoesOn cx env ok) :
    Atoms cx env ok c (bypassChangeToG2 cx env c) := by
  refine (requestTone_atoms cx env ok c .acceptedTxd trivial _ h).trans (offerCall_atoms cx env ok _ ?_)
  intro hc
  refine .inl ?_
  rcases prepareMfTone_cases cx env cx.gaTones.addressCompleteChargeSetup (c.setMfState .acceptedTxd) with
    ⟨-, ⟨⟨q, w, hf⟩, -⟩⟩ | ⟨-, d, -, he⟩
  · rw [hf]
    exact nofun
  · rw [he, (handleProtocolError_atRest cx d env _).callState] at hc
    exact nomatch hc

theorem requestCallingPartyCategory_atoms (h : c.GoesOn cx env ok) :
    Atoms cx env ok c (requestCallingPartyCategory cx env c) := by
  refine requestIn_atoms cx env ok c _ ?_ .categoryRqTxd trivial _ h
  split_ifs <;> exact id

theorem requestChangeToG2_atoms (h : c.GoesOn cx env ok) :
    Atoms cx env ok c (requestChangeToG2 cx env c) :=
  requestIn_atoms cx env ok c .gb id .chgGiiTxd trivial _ h

theorem tryChangeToG2_atoms (h : c.GoesOn cx env ok) : Atoms cx env ok c (tryChangeToG2 cx env c) := by
  simp only [tryChangeToG2]
  split_ifs
  · exact bypassChangeToG2_atoms cx env ok c h
  · exact requestChangeToG2_atoms cx env ok c h

theorem tryRequestCallingPartyCategory_atoms (h : c.GoesOn cx env ok) :
    Atoms cx env ok c (tryRequestCallingPartyCategory cx env c) := by
  simp only [tryRequestCallingPartyCategory]
  split_ifs
  · exact tryChangeToG2_atoms cx env ok c h
  · exact requestCallingPartyCategory_atoms cx env ok c h

theorem requestNextDnisDigit_atoms (h : c.GoesOn cx env ok) :
    Atoms cx env ok c (requestNextDnisDigit cx env c) :=
  requestIn_atoms cx env ok c .ga id .dnisRqTxd trivial _ h

theorem mfBackCycleTimeoutExpired_atoms (hd : c.direction = .backward) :
    Atoms cx env ok c (mfBackCycleTimeoutExpired cx env c) := by
  have hg : c.mfState = .dnisRqTxd ∨ c.mfState = .aniRqTxd → (armTimer env .mfBackResumeCycle
      cx.timers.mfBackResumeCycle .mfBackResumeCycle c).GoesOn cx env ok := by
    intro hm
    obtain ⟨⟨q, w, hf⟩, -⟩ :=
      R2Chan.Tuned.armTimer env .mfBackResumeCycle cx.timers.mfBackResumeCycle .mfBackResumeCycle c
    rw [hf]
    refine ⟨fun hx => absurd (hd.symm.trans hx) (by decide), .inl fun hx => ?_⟩
    rcases hm with hm | hm <;> exact absurd (hm.symm.trans hx) (by decide)
  simp only [mfBackCycleTimeoutExpired]
  split_ifs with hm hf
  · have ha := armTimer_atoms cx env ok c .mfBackResumeCycle cx.timers.mfBackResumeCycle hd
    exact ha.trans (tryRequestCallingPartyCategory_atoms cx env ok _ (hg hm.2.2))
  · have ha := armTimer_atoms cx env ok c .mfBackResumeCycle cx.timers.mfBackResumeCycle hd
    exact ha.trans (tryChangeToG2_atoms cx env ok _ (hg hm.2.2))
  · exact handleProtocolError_atoms cx env ok c _

theorem afterDnisDigit_atoms (rc : Bool) (h : c.GoesOn cx env ok) :
    Atoms cx env ok c (afterDnisDigit cx env rc c) := by
  simp only [afterDnisDigit]
  split_ifs
  · exact tryRequestCallingPartyCategory_atoms cx env ok c h
  · exact tryChangeToG2_atoms cx env ok c h
  · exact tryRequestCallingPartyCategory_atoms cx env ok c h
  · exact requestNextDnisDigit_atoms cx env ok c h

/-- The register signalling of a call that comes in. -/
structure R2Chan.Receiving (c : R2Chan) : Prop where
  direction : c.direction = .backward
  callState : c.callState ≠ .idle
  mfState : c.mfState ≠ .offState

theorem R2Chan.Receiving.goesOn {c : R2Chan} (h : c.Receiving) : c.GoesOn cx env ok :=
  ⟨fun hx => absurd (h.direction.symm.trans hx) (by decide), .inl h.mfState⟩

theorem storeDnisDigit_plainly (tone : Tone) : c.Plainly (storeDnisDigit tone c) := by
  simp only [storeDnisDigit]
  split_ifs
  · exact ⟨rfl, [], (List.append_nil _).symm, by simp⟩
  · exact ⟨rfl, [.storeDnis c.dnisLen tone], rfl, by simp [Act.Plain]⟩

theorem R2Chan.Receiving.plainly {c d : R2Chan} (h : c.Receiving) (hd : c.Plainly d) : d.Receiving :=
  ⟨(congrArg Frame.direction hd.1).trans h.direction,
    fun hx => h.callState ((congrArg Frame.callState hd.1).symm.trans hx),
    fun hx => h.mfState ((congrArg Frame.mfState hd.1).symm.trans hx)⟩

/-- A digit is stored, the user hears of it, and the backward side goes on. -/
theorem digit_atoms (hp : Permits cx env ok c) (h : c.Receiving) (d : R2Chan) (hd : c.Plainly d)
    (e : Event) (he : e.Neutral) (hdigit : e.OfDigit) :
    Atoms cx env ok c (callback cx env e d) ∧ (callback cx env e d).GoesOn cx env ok := by
  have hx : Atoms cx env ok c (d.emit e) :=
    (Relation.ReflTransGen.single (.plain c d hd)).trans (emit_atoms cx env ok d e he)
  have ho : ∀ a, env.reenter (d.emit e).out = some a → ok (.call a) (d.emit e) := fun a => hp _ a hx
  obtain ⟨h1, h2, h3⟩ := h.plainly hd
  exact ⟨hx.trans (callback_atoms cx env ok d e ho), callback_goesOn cx env ok d e hdigit h1 h2 h3 ho⟩

theorem mfReceiveExpectedDnis_atoms (hp : Permits cx env ok c) (h : c.Receiving) (tone : Tone) :
    Atoms cx env ok c (mfReceiveExpectedDnis cx env tone c) := by
  have hg : c.GoesOn cx env ok := h.goesOn cx env ok
  simp only [mfReceiveExpectedDnis]
  split_ifs
  · obtain ⟨hd, hn⟩ := digit_atoms cx env ok c hp h _ (storeDnisDigit_plainly c tone)
      (.onDnisDigitReceived tone) trivial trivial
    exact hd.trans (afterDnisDigit_atoms cx env ok _ _ hn)
  · exact tryRequestCallingPartyCategory_atoms cx env ok c hg
  · exact tryChangeToG2_atoms cx env ok c hg
  · exact handleProtocolError_atoms cx env ok c _

theorem doneGettingAni_atoms (h : c.GoesOn cx env ok) : Atoms cx env ok c (doneGettingAni cx env c) := by
  simp only [doneGettingAni]
  split_ifs
  · exact tryChangeToG2_atoms cx env ok c h
  · exact requestNextDnisDigit_atoms cx env ok c h

theorem mfReceiveExpectedAni_atoms (hp : Permits cx env ok c) (h : c.Receiving) (tone : Tone) :
    Atoms cx env ok c (mfReceiveExpectedAni cx env tone c) := by
  have hg : c.GoesOn cx env ok := h.goesOn cx env ok
  have hn : ∀ d : R2Chan, d.GoesOn cx env ok → Atoms cx env ok d (requestNextAniDigit cx env d) :=
    fun d hd => requestTone_atoms cx env ok d .aniRqTxd trivial _ hd
  have hr : Atoms cx env ok c c.restrictAni := quiet_atoms cx env ok c _ rfl rfl
  have hx : c.restrictAni.GoesOn cx env ok :=
    R2Chan.Receiving.goesOn cx env ok (h.plainly ⟨rfl, [], (List.append_nil _).symm, by simp⟩)
  obtain ⟨hd, hy⟩ := digit_atoms cx env ok c hp h (storeAniDigit tone c)
    ⟨rfl, [.storeAni c.aniLen tone], rfl, by simp [Act.Plain]⟩ (.onAniDigitReceived tone) trivial
      trivial
  simp only [mfReceiveExpectedAni]
  split_ifs
  · exact hd.trans (hn _ hy)
  · exact hd.trans (doneGettingAni_atoms cx env ok _ hy)
  · exact hn c hg
  · exact doneGettingAni_atoms cx env ok c hg
  · exact hr.trans (doneGettingAni_atoms cx env ok _ hx)
  · exact doneGettingAni_atoms cx env ok c hg
  · exact handleProtocolError_atoms cx env ok c _

theorem receiveCategory_atoms (hp : Permits cx env ok c) (h : c.Receiving) (tone : Tone) :
    Atoms cx env ok c (receiveCategory cx env tone c) := by
  have hs : c.Plainly (c.setCallerCategory tone) := ⟨rfl, [], (List.append_nil _).symm, by simp⟩
  have ha : Atoms cx env ok c (c.setCallerCategory tone) := .single (.plain c _ hs)
  have hr := h.plainly hs
  simp only [receiveCategory]
  split_ifs
  · exact ha.trans (mfReceiveExpectedAni_atoms cx env ok _ (hp.after ha) hr 0)
  · exact ha.trans (tryChangeToG2_atoms cx env ok _ (hr.goesOn cx env ok))
  · exact ha.trans (requestChangeToG2_atoms cx env ok _ (hr.goesOn cx env ok))

theorem handleForwardMfTone_atoms (hp : Permits cx env ok c) (h : c.Receiving) (tone : Tone) :
    Atoms cx env ok c (handleForwardMfTone cx env tone c) := by
  have hc : Atoms cx env ok c (c.cancelTimer .mfBackCycle) := cancelTimer_atoms cx env ok c _
  have hp' := hp.after hc
  have hr : (c.cancelTimer .mfBackCycle).Receiving := ⟨h.1, h.2, h.3⟩
  simp only [handleForwardMfTone]
  refine hc.trans ?_
  split
  · split_ifs
    · exact mfReceiveExpectedAni_atoms cx env ok _ hp' hr tone
    · exact mfReceiveExpectedDnis_atoms cx env ok _ hp' hr tone
  · exact mfReceiveExpectedDnis_atoms cx env ok _ hp' hr tone
  · exact receiveCategory_atoms cx env ok _ hp' hr tone
  · exact receiveCategory_atoms cx env ok _ hp' hr tone
  · exact mfReceiveExpectedAni_atoms cx env ok _ hp' hr tone
  · exact mfReceiveExpectedAni_atoms cx env ok _ hp' hr tone
  · exact offerCall_atoms cx env ok _ fun _ => .inl hr.mfState
  all_goals exact handleProtocolError_atoms cx env ok _ _

theorem mfDanceEnded_atoms (hd : c.direction = .backward) : Atoms cx env ok c (mfDanceEnded cx env c) := by
  have ht : (turnOffMfEngine cx c).direction = .backward := (turnOffMfEngine_direction cx c).trans hd
  exact (Relation.ReflTransGen.single (.accept c hd)).trans
    (armTimer_atoms cx env ok _ .r2AnswerDelay _ ⟨ht, rfl⟩)

theorem handleForwardMfSilence_atoms (hd : c.direction = .backward) :
    Atoms cx env ok c (handleForwardMfSilence cx env c) := by
  have hs := setSilence_atoms cx env ok c
  -- silence is set, or the engine is off
  have hx : (setSilence cx env c).mfState = .offState ∨ (setSilence cx env c).direction = .backward := by
    rcases prepareMfTone_cases cx env 0 c with ⟨-, ht⟩ | ⟨-, d, -, he⟩
    · exact .inr (ht.direction.trans hd)
    · refine .inl ?_
      rw [setSilence, he]
      exact (handleProtocolError_atRest cx d env .internalError).mfState
  simp only [handleForwardMfSilence]
  generalize setSilence cx env c = d at hs hx
  refine hs.trans ?_
  split
  · exact mfDanceEnded_atoms cx env ok d (hx.resolve_left fun hm => by simp_all)
  · exact mfDanceEnded_atoms cx env ok d (hx.resolve_left fun hm => by simp_all)
  · exact .single (.drop d .cancelAll trivial fun _ => hx.resolve_left fun hm => by simp_all)
  · exact .refl
  · exact .refl
  · exact .refl
  · exact handleProtocolError_atoms cx env ok d _
  · exact handleProtocolError_atoms cx env ok d _

end Backward

section Line

variable (cx : R2Context) (env : Env) (ok : Chance → R2Chan → Prop) (c : R2Chan)

theorem incomingCall_atoms (b : R2Chan) (hp : Permits cx env ok b) (m : MfState) (g : MfGroup)
    (hb : Atom cx env ok b (c.receive m g)) :
    Atoms cx env ok b (incomingCall cx env ((c.setMfState m).setMfGroup g)) := by
  have he : Atoms cx env ok b ((c.receive m g).emit .onCallInit) :=
    (Relation.ReflTransGen.single hb).trans (emit_atoms cx env ok _ .onCallInit trivial)
  have hi : Atoms cx env ok b (callback cx env .onCallInit (c.receive m g)) :=
    he.trans (callback_atoms cx env ok _ _ fun a => hp _ a he)
  simp only [incomingCall]
  split_ifs
  · exact hi.trans (ackCall_atoms cx env ok _)
  · exact hi

theorem handleIncomingCall_atoms (hp : Permits cx env ok c) (hr : c.r2State = .idle) :
    Atoms cx env ok c (handleIncomingCall cx env c) := by
  simp only [handleIncomingCall]
  split_ifs with hd
  · exact (did_atoms cx env ok c .dtmfRxInit trivial).trans (handleProtocolError_atoms cx env ok _ _)
  · have hi : Atoms cx env ok c (c.did .dtmfRxInit) := did_atoms cx env ok c .dtmfRxInit trivial
    have hr : (c.did .dtmfRxInit).r2State = .idle := hr
    have hp := hp.after hi
    generalize c.did .dtmfRxInit = e at hi hr hp
    exact hi.trans (incomingCall_atoms cx env ok (e.setDtmf e.dialingDtmf true) e hp .detectingDtmf
      .dtmfBackInit (.receiveDtmf e hr hd))
  · have he : ∀ d : R2Chan, d = c.did (.mfWriteInit c.mfWriteHandle false) ∨
        d = (c.did (.mfWriteInit c.mfWriteHandle false)).did (.mfReadInit c.mfReadHandle true) →
        Atoms cx env ok c (handleProtocolError cx env .internalError d) := fun d hx =>
      ((Relation.ReflTransGen.single (.unready c d hx)).trans (setCasSignal_atoms cx env ok _ .idle)).trans
        (emit_atoms cx env ok _ (.onProtocolError .internalError) trivial)
    split
    · exact he _ (.inl rfl)
    · split
      · exact he _ (.inr rfl)
      · rename_i w hw' _ r hr'
        exact incomingCall_atoms cx env ok _ c hp .seizeAckTxd .backInit (.receiveMf c w r hr hw' hr')

theorem invalidCas_atoms (reason : ProtocolError) : Atoms cx env ok c (invalidCas cx env reason c) :=
  (logRx_atoms cx env ok c .invalid).trans (handleProtocolError_atoms cx env ok _ _)

theorem casIdle_atoms (hp : Permits cx env ok c) (cas : Nat) (hr : c.r2State = .idle) :
    Atoms cx env ok c (casIdle cx env cas c) := by
  have hl := logRx_atoms cx env ok c
  simp only [casIdle]
  split_ifs
  · exact (hl .block).trans (emit_atoms cx env ok _ .onLineBlocked trivial)
  · exact (hl .idle).trans (emit_atoms cx env ok _ .onLineIdle trivial)
  · exact (hl .seize).trans (handleIncomingCall_atoms cx env ok (c.logRx .seize) (hp.after (hl .seize)) hr)
  · exact invalidCas_atoms cx env ok c _

theorem casBackwardCall_atoms (cas : Nat) (hr : c.r2State = .seizeAckTxd ∨ c.r2State = .answerTxd ∨
    c.r2State = .executingDoubleAnswer) : Atoms cx env ok c (casBackwardCall cx env cas c) := by
  simp only [casBackwardCall]
  split_ifs
  · refine (hopOn_atoms cx env ok c .clearForward .clearFwdRxd (.clearFwdRxd ?_)).tail
      (.report _ _ (.inl (.inl rfl)))
    exact hr.imp_right (Or.imp_right .inl)
  · exact invalidCas_atoms cx env ok c _

theorem dialMf_atoms (hr : c.r2State = .seizeTxd) (hx : cx.dialWithDtmf = false) (ho : ok .ack c) :
    Atoms cx env ok c (mfSendDnis cx env 0 ((((c.setR2State .seizeAckRxd).setMfGroup .gi).did
      (.mfWriteInit c.mfWriteHandle true)).did (.mfReadInit c.mfReadHandle false))) := by
  have hd : ∀ m : MfState, m.Forward → Atoms cx env ok c (c.dialMf m) := fun m hm =>
    .single (.dialMf c m hm hr hx ho)
  have hz : ∀ d : R2Chan, mfSendDnis cx env 0 d = mfSendDnisDigit cx env d := fun d => by
    simp [mfSendDnis]
  rw [hz]
  simp only [mfSendDnisDigit]
  split_ifs
  · exact (hd .dnisTxd trivial).trans (prepareMfTone_atoms cx env ok _ _)
  · exact (hd .dnisEndTxd trivial).trans (prepareMfTone_atoms cx env ok _ _)
  · exact (hd .waitingTimeout trivial).trans
      (armTimer_atoms cx env ok _ .mfFwdSafety cx.timers.mfFwdSafety (.inr (.inl trivial)))

theorem seizeAcknowledged_atoms (hr : c.r2State = .seizeTxd) (ho : cx.dialWithDtmf = false → ok .ack c) :
    Atoms cx env ok c (seizeAcknowledged cx env c) := by
  simp only [seizeAcknowledged]
  refine Relation.ReflTransGen.trans ?_ (emit_atoms cx env ok _ .onCallProceed trivial)
  split_ifs with hd
  · have ht := R2Chan.Tuned.armTimer env .dtmfStartDial cx.timers.dtmfStartDial .startDialingDtmf
      (c.setR2State .seizeAckRxd)
    have hs : (armTimer env .dtmfStartDial cx.timers.dtmfStartDial .startDialingDtmf
        (c.setR2State .seizeAckRxd)).r2State = .seizeAckRxd := by
      obtain ⟨⟨q, w, hf⟩, -⟩ := ht
      rw [hf]
      rfl
    exact (Relation.ReflTransGen.single (.dialDtmf c cx.timers.dtmfStartDial hr hd)).trans
      (armTimer_atoms cx env ok _ .r2Answer _ (.inr hs))
  · have hx : cx.dialWithDtmf = false := Bool.eq_false_of_not_eq_true hd
    exact dialMf_atoms cx env ok c hr hx (ho hx)

theorem casSeizeTxd_atoms (cas : Nat) (hr : c.r2State = .seizeTxd ∨ c.r2State = .seizeTxdClearFwdPending)
    (ho : c.r2State = .seizeTxd → cas = cx.casSignals .seizeAck → cx.dialWithDtmf = false →
      ok .ack ((c.logRx .seizeAck).cancelTimer .r2Seize)) :
    Atoms cx env ok c (casSeizeTxd cx env cas c) := by
  have hl : Atoms cx env ok c ((c.logRx .seizeAck).cancelTimer .r2Seize) :=
    (logRx_atoms cx env ok c .seizeAck).trans (cancelTimer_atoms cx env ok _ _)
  simp only [casSeizeTxd]
  split_ifs with ha hp
  · exact hl.trans (sendClearForward_atoms cx env ok _ (.inr (.inl (by rw [hp]; trivial))))
  · have hs : c.r2State = .seizeTxd := hr.resolve_right hp
    exact hl.trans (seizeAcknowledged_atoms cx env ok _ hs (ho hs ha))
  · exact ((hopOn_atoms cx env ok c .seize .doubleSeizure (.glare hr)).trans
      (cancelTimer_atoms cx env ok _ _)).tail (.report _ _ (.inl (.inr (.inl rfl))))
  · exact invalidCas_atoms cx env ok c _

theorem casDoubleSeizure_atoms (cas : Nat) : Atoms cx env ok c (casDoubleSeizure cx env cas c) := by
  simp only [casDoubleSeizure]
  split_ifs with _ hr
  · exact hopOn_atoms cx env ok c .clearForward .clearFwdRxd (.clearFwdRxd (.inr (.inr (.inr (.inl hr)))))
  · exact (logRx_atoms cx env ok c .idle).trans (reportCallEnd_atoms cx env ok _)
  · exact invalidCas_atoms cx env ok c _

theorem casDisconnectTxd_atoms (cas : Nat) : Atoms cx env ok c (casDisconnectTxd cx env cas c) := by
  simp only [casDisconnectTxd]
  split_ifs
  · exact (logRx_atoms cx env ok c .clearForward).trans (reportCallEnd_atoms cx env ok _)
  · exact invalidCas_atoms cx env ok c _

/-- The other end has released the call. -/
theorem release_atoms {cas : Nat} {d : Disconnection} (h : checkBackwardDisconnection cx cas = some d)
    (hr : c.r2State = .acceptRxd ∨ c.r2State = .seizeAckRxd) :
    Atoms cx env ok c (reportCallDisconnection d.cause ((c.logRx d.signal).setR2State d.state)) := by
  have hd : d.state = .clearBackRxd ∨ d.state = .forcedReleaseRxd := by
    simp only [checkBackwardDisconnection] at h
    split_ifs at h
    · exact .inl (by rw [← Option.some.inj h])
    · exact .inr (by rw [← Option.some.inj h])
  have hx : ((c.logRx d.signal).setR2State d.state).Released :=
    hd.elim (fun h => .inr (.inr (.inl h))) fun h => .inr (.inr (.inr (.inl h)))
  exact (hopOn_atoms cx env ok c d.signal d.state (.release _ (hr.imp_right .inl) hd)).tail
    (.report _ _ (.inl hx))

theorem casAcceptRxd_atoms (cas : Nat) (hr : c.r2State = .acceptRxd) :
    Atoms cx env ok c (casAcceptRxd cx env cas c) := by
  simp only [casAcceptRxd]
  split_ifs
  · exact (logRx_atoms cx env ok c .answer).tail (.answered _ hr)
  · split
    · exact release_atoms cx env ok c ‹_› (.inl hr)
    · exact invalidCas_atoms cx env ok c _

theorem casSeizeAckRxd_atoms (cas : Nat) (hr : c.r2State = .seizeAckRxd)
    (ho : cas = cx.casSignals .answer → cx.dialWithDtmf = true → ok .earlyAnswer (c.logRx .answer)) :
    Atoms cx env ok c (casSeizeAckRxd cx env cas c) := by
  simp only [casSeizeAckRxd]
  split_ifs with ha hc
  · exact hopOn_atoms cx env ok c .answer .answerRxdMfPending (.earlyAnswer hr ha.1)
  · split
    · exact release_atoms cx env ok c ‹_› (.inr hr)
    · have hd : cx.dialWithDtmf = true := Bool.eq_true_of_not_eq_false fun hx => ha ⟨hx, hc⟩
      exact (logRx_atoms cx env ok c .answer).tail (.answeredDtmf _ hr hd (ho hc hd))
  · split
    · exact release_atoms cx env ok c ‹_› (.inr hr)
    · exact invalidCas_atoms cx env ok c _

theorem releaseOrPulse_atoms (cause : DisconnectCause)
    (hr : c.r2State = .clearBackRxd ∨ c.r2State = .forcedReleaseRxd) :
    Atoms cx env ok c (releaseOrPulse cx env cause c) := by
  simp only [releaseOrPulse]
  split_ifs
  · exact armTimer_atoms cx env ok c .r2MeteringPulse _ hr
  · exact .single (.report c cause (.inl (hr.elim (fun h => .inr (.inr (.inl h)))
      fun h => .inr (.inr (.inr (.inl h))))))

theorem casAnswerRxd_atoms (cas : Nat) (hr : c.r2State = .answerRxd ∨ c.r2State = .answerRxdMfPending) :
    Atoms cx env ok c (casAnswerRxd cx env cas c) := by
  simp only [casAnswerRxd]
  split_ifs
  · exact (hopOn_atoms cx env ok c .clearBack .clearBackRxd (.release _ (.inr (.inr hr)) (.inl rfl))).trans
      (releaseOrPulse_atoms cx env ok _ _ (.inl rfl))
  · exact (hopOn_atoms cx env ok c .clearForward .clearFwdRxd
      (.clearFwdRxd (.inr (.inr (.inr (.inr hr)))))).tail (.report _ _ (.inl (.inl rfl)))
  · exact (hopOn_atoms cx env ok c .forcedRelease .forcedReleaseRxd
      (.release _ (.inr (.inr hr)) (.inr rfl))).trans (releaseOrPulse_atoms cx env ok _ _ (.inr rfl))
  · exact invalidCas_atoms cx env ok c _

theorem casAwaitIdle_atoms (cas : Nat) : Atoms cx env ok c (casAwaitIdle cx env cas c) := by
  simp only [casAwaitIdle]
  split_ifs
  · exact (logRx_atoms cx env ok c .idle).trans (reportCallEnd_atoms cx env ok _)
  · exact invalidCas_atoms cx env ok c _

theorem casClearFwdTxd_atoms (cas : Nat) (hr : c.r2State = .clearFwdTxd) :
    Atoms cx env ok c (casClearFwdTxd cx env cas c) := by
  simp only [casClearFwdTxd]
  split_ifs
  · exact (logRx_atoms cx env ok c .idle).trans (reportCallEnd_atoms cx env ok _)
  · split
    · exact hopOn_atoms cx env ok c _ _ (.lateRelease hr)
    · exact invalidCas_atoms cx env ok c _

theorem casReleaseRxd_atoms (cas : Nat) (hr : c.r2State = .clearBackRxd ∨ c.r2State = .forcedReleaseRxd) :
    Atoms cx env ok c (casReleaseRxd cx env cas c) := by
  simp only [casReleaseRxd]
  split_ifs with hm
  · exact ((logRx_atoms cx env ok c .answer).trans (cancelTimer_atoms cx env ok _ .r2MeteringPulse)).tail
      (.billing _ hr hm.1)
  · exact invalidCas_atoms cx env ok c _

theorem casBlocked_atoms (cas : Nat) : Atoms cx env ok c (casBlocked cx cas c) := by
  simp only [casBlocked]
  split_ifs
  · exact (logRx_atoms cx env ok c .idle).trans (emit_atoms cx env ok _ .onLineIdle trivial)
  · exact logRx_atoms cx env ok c .invalid

theorem casInit_atoms (cas : Nat) : Atoms cx env ok c (casInit cx env cas c) := by
  simp only [casInit]
  split_ifs
  · exact (logRx_atoms cx env ok c .idle).trans (emit_atoms cx env ok _ .onLineIdle trivial)
  · exact (logRx_atoms cx env ok c .block).trans (emit_atoms cx env ok _ .onLineBlocked trivial)
  · exact invalidCas_atoms cx env ok c _

/-- An acknowledgement with which the tones start, and an answer on a line that dials with DTMF,
come only where the world may do so. -/
structure LineMay (ok : Chance → R2Chan → Prop) (cas : Nat) (c : R2Chan) : Prop where
  ack : c.r2State = .seizeTxd → cas = cx.casSignals .seizeAck → cx.dialWithDtmf = false →
    ok .ack ((c.logRx .seizeAck).cancelTimer .r2Seize)
  answer : c.r2State = .seizeAckRxd → cas = cx.casSignals .answer → cx.dialWithDtmf = true →
    ok .earlyAnswer (c.logRx .answer)

theorem casSwitch_atoms (hp : Permits cx env ok c) (cas : Nat) (ho : LineMay cx ok cas c) :
    Atoms cx env ok c (casSwitch cx env cas c) := by
  simp only [casSwitch]
  split
  · exact casIdle_atoms cx env ok c hp cas ‹_›
  · exact casBackwardCall_atoms cx env ok c cas (.inl ‹_›)
  · exact casBackwardCall_atoms cx env ok c cas (.inr (.inl ‹_›))
  · exact casBackwardCall_atoms cx env ok c cas (.inr (.inr ‹_›))
  · exact casSeizeTxd_atoms cx env ok c cas (.inl ‹_›) ho.ack
  · exact casSeizeTxd_atoms cx env ok c cas (.inr ‹_›) ho.ack
  · exact casDoubleSeizure_atoms cx env ok c cas
  · exact casDoubleSeizure_atoms cx env ok c cas
  · exact casDisconnectTxd_atoms cx env ok c cas
  · exact casDisconnectTxd_atoms cx env ok c cas
  · exact casAcceptRxd_atoms cx env ok c cas ‹_›
  · exact casSeizeAckRxd_atoms cx env ok c cas ‹_› (ho.answer ‹_›)
  · exact casAnswerRxd_atoms cx env ok c cas (.inr ‹_›)
  · exact casAnswerRxd_atoms cx env ok c cas (.inl ‹_›)
  · exact casAwaitIdle_atoms cx env ok c cas
  · exact casAwaitIdle_atoms cx env ok c cas
  · exact casClearFwdTxd_atoms cx env ok c cas ‹_›
  · exact casReleaseRxd_atoms cx env ok c cas (.inl ‹_›)
  · exact casReleaseRxd_atoms cx env ok c cas (.inr ‹_›)
  · exact casBlocked_atoms cx env ok c cas
  · exact casInit_atoms cx env ok c cas
  · exact invalidCas_atoms cx env ok c _
  · exact invalidCas_atoms cx env ok c _

theorem ioGetCas_atoms : Atoms cx env ok c (ioGetCas env c).1 := by
  have hd : Atoms cx env ok c (c.did .getCas) := did_atoms cx env ok c _ trivial
  unfold ioGetCas
  cases env.getCas c.out with
  | none => exact hd
  | some raw => exact hd.trans (quiet_atoms cx env ok _ _ rfl rfl)

theorem checkPersistence_atoms (cas : Nat) : Atoms cx env ok c (checkPersistence cx env cas c) :=
  (quiet_atoms cx env ok c (c.setPersistence (some cas)) rfl rfl).trans
    (armTimer_atoms cx env ok _ .casPersistenceCheck _ trivial)

theorem pollCas_atoms : Atoms cx env ok c (pollCas cx env c).1 := by
  have hg := ioGetCas_atoms cx env ok c
  have hp : ∀ (d : R2Chan) (p : Option Nat), Atoms cx env ok d (d.setPersistence p) := fun d p =>
    quiet_atoms cx env ok d _ rfl rfl
  unfold pollCas
  dsimp only
  split
  · exact hg
  · split_ifs
    · exact (hg.trans (cancelTimer_atoms cx env ok _ _)).trans (hp _ _)
    · exact hg
    · exact (hg.trans (cancelTimer_atoms cx env ok _ _)).trans (checkPersistence_atoms cx env ok _ _)
    · exact hg

theorem casPattern_atoms : Atoms cx env ok c (casPattern cx env c).1 := by
  unfold casPattern
  split
  · exact pollCas_atoms cx env ok c
  · split_ifs
    · exact quiet_atoms cx env ok c _ rfl rfl
    · exact pollCas_atoms cx env ok c

/-- The same of what is read from the line. -/
def ReadMay (ok : Chance → R2Chan → Prop) (c : R2Chan) : Prop :=
  ∀ cas ∈ (casPattern cx env c).2, (casPattern cx env c).1.inalarm = false →
    LineMay cx ok cas ((casPattern cx env c).1.setCasRead cas)

theorem handleCas_atoms (hp : Permits cx env ok c) (ho : ReadMay cx env ok c) :
    Atoms cx env ok c (handleCas cx env c) := by
  have hc := casPattern_atoms cx env ok c
  simp only [handleCas]
  split
  · exact hc
  · rename_i cas he
    refine hc.trans ?_
    simp only [actOnCas]
    split_ifs with ha
    · exact .refl
    · have hr : Atoms cx env ok (casPattern cx env c).1 ((casPattern cx env c).1.setCasRead cas) :=
        quiet_atoms cx env ok _ _ rfl rfl
      exact hr.trans (casSwitch_atoms cx env ok _ (hp.after (hc.trans hr)) cas
        (ho cas he (Bool.eq_false_of_not_eq_true ha)))

theorem persistenceCheckExpired_atoms (hp : Permits cx env ok c)
    (ho : ∀ d, checkEntry cx env c = some d → ReadMay cx env ok d) :
    Atoms cx env ok c (persistenceCheckExpired cx env c) := by
  have hs : Atoms cx env ok c (c.mapTimers (·.setSlot .casPersistenceCheck 0)) :=
    .single (.drop c (.mark .casPersistenceCheck 0) le_rfl (by rintro ⟨⟩))
  have hg := hs.trans (ioGetCas_atoms cx env ok _)
  simp only [checkEntry] at ho
  simp only [persistenceCheckExpired]
  split
  · exact hg
  · rename_i raw he
    simp only [he] at ho
    split_ifs with hx
    · exact hg.trans (handleCas_atoms cx env ok _ (hp.after hg) (ho _ (if_pos hx)))
    · exact hg.trans (checkPersistence_atoms cx env ok _ _)
    · exact hg.trans (quiet_atoms cx env ok _ _ rfl rfl)

end Line

section Step

variable (cx : R2Context) (env : Env) (ok : Chance → R2Chan → Prop) (c : R2Chan)

/-- On a line at rest nothing is answered. -/
theorem readMay_of_r2State (hs : c.r2State ≠ .seizeTxd) (hr : c.r2State ≠ .seizeAckRxd) :
    ReadMay cx env ok c := by
  intro cas _ _
  obtain ⟨⟨raw, p, hf⟩, -⟩ := casPattern_polled cx env c
  rw [hf]
  exact ⟨fun hx => absurd hx hs, fun hx => absurd hx hr⟩

theorem handleAlarm_atoms (hp : Permits cx env ok c) (on : Bool) :
    Atoms cx env ok c (handleAlarm cx env on c) := by
  have hi : Atoms cx env ok c ((c.setInalarm on).emit (.onHardwareAlarm on)) :=
    (Relation.ReflTransGen.single (.alarm c on)).trans (emit_atoms cx env ok _ _ trivial)
  have hf : ∀ d : R2Chan, Atoms cx env ok d (forgetLine d) := fun d => quiet_atoms cx env ok d _ rfl rfl
  have hp := hp.after hi
  unfold handleAlarm
  refine hi.trans ?_
  unfold handleAlarmState
  split_ifs
  · exact (handleProtocolError_atoms cx env ok _ _).trans (hf _)
  · exact hf _
  · have hs := setIdle_atoms cx env ok ((c.setInalarm on).emit (.onHardwareAlarm on))
    refine hs.trans (handleCas_atoms cx env ok _ (hp.after hs) (readMay_of_r2State _ _ _ _ ?_ ?_))
    all_goals
      rw [(setIdle_atRest cx _ env).r2State]
      decide
  · have hs := setBlocked_atoms cx env ok ((c.setInalarm on).emit (.onHardwareAlarm on))
    refine hs.trans (handleCas_atoms cx env ok _ (hp.after hs) (readMay_of_r2State _ _ _ _ ?_ ?_))
    all_goals
      rw [(setBlocked_callState cx _ env).2]
      decide

/-- All expiries, of timers that find the direction they suppose. -/
theorem runTimer_atoms (hp : Permits cx env ok c) (cb : TimerCallback) (ht : cb.Trusts c.direction)
    (hx : cb = .startDialingDtmf → ok .dial c)
    (ho : cb = .persistenceCheckExpired → ∀ d, checkEntry cx env c = some d → ReadMay cx env ok d) :
    Atoms cx env ok c (runTimer cx env cb c) := by
  cases cb with
  | mfFwdSafetyTimeoutExpired => exact handleProtocolError_atoms cx env ok c _
  | mfBackCycleTimeoutExpired => exact mfBackCycleTimeoutExpired_atoms cx env ok c ht
  | mfBackResumeCycle => exact setSilence_atoms cx env ok c
  | seizeTimeoutExpired => exact handleProtocolError_atoms cx env ok c _
  | r2SeizePersistExpired => exact sendClearForward_atoms cx env ok c (.inl ht)
  | r2AnswerTimeoutExpired => exact .single (.report c _ (.inr ht))
  | readyToAnswer => exact .single (.accepted c (.inl ht))
  | doubleAnswerHandler => exact doubleAnswerHandler_atoms cx env ok c
  | r2MeteringPulse =>
    simp only [runTimer, r2MeteringPulse]
    split_ifs
    · exact .single (.report c _ (.inr ht))
    · exact .single (.report c _ (.inr ht))
  | r2SetCallDown => exact reportCallEnd_atoms cx env ok c
  | persistenceCheckExpired => exact persistenceCheckExpired_atoms cx env ok c hp (ho rfl)
  | startDialingDtmf => exact .single (.dial c ht (hx rfl))

theorem checkThreshold_plainly (tone : Tone) : c.Plainly (checkThreshold cx env tone c).1 := by
  obtain ⟨x, n, as, he, ha⟩ := checkThreshold_frame cx env tone c
  rw [he]
  refine ⟨rfl, as, rfl, fun a hm => ?_⟩
  rw [ha a hm]
  trivial

theorem handleToneOn_atoms (hp : Permits cx env ok c) (hm : c.mfState ≠ .offState)
    (hc : c.direction = .backward → c.callState ≠ .idle) (tone : Tone) :
    Atoms cx env ok c (handleToneOn cx env tone c) := by
  have hr : Atoms cx env ok c (c.setMfReadTone tone) := quiet_atoms cx env ok c _ rfl rfl
  simp only [handleToneOn]
  refine hr.trans ?_
  split
  · rename_i hd
    exact handleForwardMfTone_atoms cx env ok _ (hp.after hr) ⟨hd, hc hd, hm⟩ tone
  · exact (cancelTimer_atoms cx env ok _ .mfFwdSafety).trans (setSilence_atoms cx env ok _)
  · exact handleProtocolError_atoms cx env ok _ _

theorem handleToneOff_atoms (hp : Permits cx env ok c) (hm : c.mfState ≠ .offState) :
    Atoms cx env ok c (handleToneOff cx env c) := by
  have hr : ∀ d : R2Chan, Atoms cx env ok d (d.setMfReadTone 0) := fun d =>
    quiet_atoms cx env ok d _ rfl rfl
  simp only [handleToneOff]
  split
  · exact (handleForwardMfSilence_atoms cx env ok c ‹_›).trans (hr _)
  · exact (handleBackwardMfSilence_atoms cx env ok c hp _ ‹_› hm).trans (hr _)
  · exact (handleProtocolError_atoms cx env ok c _).trans (hr _)

theorem handleMfTone_atoms (hp : Permits cx env ok c) (hm : c.mfState ≠ .offState)
    (hc : c.direction = .backward → c.callState ≠ .idle) (tone : Tone) :
    Atoms cx env ok c (handleMfTone cx env tone c) := by
  have hk : ∀ t, Atoms cx env ok c (checkThreshold cx env t c).1 := fun t =>
    .single (.plain c _ (checkThreshold_plainly cx env c t))
  have hf : ∀ {α : Type} (f : Frame → α) (t : Tone),
      f (checkThreshold cx env t c).1.frame = f c.frame := fun f t =>
    congrArg f (checkThreshold_plainly cx env c t).1
  have hm' : ∀ t, (checkThreshold cx env t c).1.mfState ≠ .offState := fun t hx =>
    hm ((hf Frame.mfState t).symm.trans hx)
  simp only [handleMfTone]
  split_ifs
  · exact .refl
  · exact handleProtocolError_atoms cx env ok c _
  · exact hk tone
  · refine (hk tone).trans (handleToneOn_atoms cx env ok _ (hp.after (hk tone)) (hm' tone) ?_ tone)
    exact fun hd hx => hc ((hf Frame.direction tone).symm.trans hd) ((hf Frame.callState tone).symm.trans hx)
  · exact .refl
  · exact hk 0
  · exact (hk 0).trans (handleToneOff_atoms cx env ok _ (hp.after (hk 0)) (hm' 0))

theorem receiveDtmfDigit_atoms (hp : Permits cx env ok c) (digit : Tone) :
    Atoms cx env ok c (receiveDtmfDigit cx env digit c) := by
  have hs : Atoms cx env ok c
      ({ c.did (.storeDnis c.dnisLen digit) with
        dnis := (c.dnis.set c.dnisLen digit).set (c.dnisLen + 1) 0
        dnisLen := c.dnisLen + 1 } : R2Chan) :=
    .single (.plain c _ ⟨rfl, [.storeDnis c.dnisLen digit], rfl, by simp [Act.Plain]⟩)
  simp only [receiveDtmfDigit]
  generalize ({ c.did (.storeDnis c.dnisLen digit) with
    dnis := (c.dnis.set c.dnisLen digit).set (c.dnisLen + 1) 0
    dnisLen := c.dnisLen + 1 } : R2Chan) = d at hs
  have he := hs.trans (emit_atoms cx env ok d (.onDnisDigitReceived digit) trivial)
  have hc := he.trans (callback_atoms cx env ok d _ fun a => hp _ a he)
  split_ifs
  · exact hc
  · exact hc.trans (quiet_atoms cx env ok _ _ rfl rfl)

theorem receiveDtmfDigits_atoms (hp : Permits cx env ok c) (digits : List Tone) :
    Atoms cx env ok c (receiveDtmfDigits cx env digits c) := by
  have hl : ∀ (l : List Tone) (d : R2Chan), Atoms cx env ok c d →
      Atoms cx env ok c (l.foldl (fun c digit => receiveDtmfDigit cx env digit c) d) := by
    intro l
    induction l with
    | nil => exact fun d hd => hd
    | cons x l ih => exact fun d hd => ih _ (hd.trans (receiveDtmfDigit_atoms cx env ok d (hp.after hd) x))
  simp only [receiveDtmfDigits]
  split_ifs
  · exact hl _ c .refl
  · exact .refl

theorem handleDtmfEnd_atoms (ho : c.direction = .forward → c.dialingDtmf = true ∨ ok .lateEnd c)
    (he : ∀ d, ok .digitsEnd d) :
    Atoms cx env ok c (handleDtmfEnd cx env c) := by
  simp only [handleDtmfEnd]
  split_ifs with hd
  · have hc := (turnOffMfEngine_direction cx c).symm.trans hd
    exact .single (.dialled c hc (ho hc))
  · exact ((Relation.ReflTransGen.single (.turnOff c (.inr (he c)))).trans (quiet_atoms cx env ok (turnOffMfEngine cx c)
      ((turnOffMfEngine cx c).setCallerCategory cx.g2Tones.nationalSubscriber) rfl rfl)).trans
        (offerCall_atoms cx env ok _ fun _ => .inr (he _))

end Step

section Machine

variable {cx : R2Context} {env : Env} {ok : Chance → R2Chan → Prop} {c d : R2Chan}

/-- The channel with which a step reads the line, but for the end of an alarm. -/
theorem casEntry_polls {i : Input} (hi : ∀ on, i ≠ .alarm on) (h : casEntry cx env i c = some d) :
    d.r2State = c.r2State ∧ ∀ a ∈ d.out, a.Polls := by
  cases i with
  | cas =>
    obtain rfl := Option.some.inj h
    exact ⟨rfl, by simp [R2Chan.start]⟩
  | timer id =>
    simp only [casEntry, checkEntry] at h
    split at h
    · cases h
    split_ifs at h
    split at h
    · cases h
    split_ifs at h
    obtain rfl := Option.some.inj h
    obtain ⟨⟨raw, p, hf⟩, -, as, ho, ha⟩ := ioGetCas_polled env
      ((c.start.mapTimers (·.removeId id)).mapTimers (·.setSlot .casPersistenceCheck 0))
    constructor
    · rw [hf]
      rfl
    · rw [ho]
      exact ha
  | alarm on => exact absurd rfl (hi on)
  | mfTone tone => cases h
  | api a => cases h

/-- A step of the machine is made of these operations. -/
theorem step_atoms {i : Input} (hp : Permits cx env ok c.start)
    (ha : ∀ a, i = .api a → ok (.call a) c.start)
    (hr : (∀ on, i ≠ .alarm on) → ∀ d, casEntry cx env i c = some d → ReadMay cx env ok d)
    (hx : .startDialingDtmf ∈ c.pending → ∀ d, ok .dial d)
    (hc : c.direction = .backward → c.callState ≠ .idle)
    (ht : ∀ cb ∈ c.pending, cb.Trusts c.direction) : Atoms cx env ok c.start (step cx env i c) := by
  cases i with
  | cas => exact handleCas_atoms cx env ok _ hp (hr (by rintro _ ⟨⟩) _ rfl)
  | mfTone tone =>
    simp only [step, handleMedia]
    split_ifs with hm
    · exact .refl
    · exact handleMfTone_atoms cx env ok _ hp hm hc tone
  | timer id =>
    simp only [step, expire]
    split
    · exact .refl
    · rename_i u hu
      have hmem : u.callback ∈ c.start.pending := List.mem_map_of_mem (List.mem_of_find?_eq_some hu)
      by_cases hd : u.callback = .r2SetCallDown
      · rw [hd]
        exact reportCallEnd_atoms cx env ok c.start
      have hs : Atoms cx env ok c.start (c.start.mapTimers (·.removeId id)) :=
        .single (.expire c.start id fun t ht => by rwa [Option.some.inj (ht.symm.trans hu)])
      refine hs.trans (runTimer_atoms cx env ok _ (hp.after hs) u.callback (ht _ hmem)
        (fun hcb => hx (hcb ▸ hmem) _) fun hcb d hd => ?_)
      refine hr (by rintro _ ⟨⟩) d ?_
      simp only [casEntry, hu, if_pos hcb]
      exact hd
  | api a => exact apiCall_atoms cx env ok _ a (ha a rfl)
  | alarm on => exact handleAlarm_atoms cx env ok _ hp on

end Machine

section Media

variable (cx : R2Context) (env : Env) (ok : Chance → R2Chan → Prop) (m : MediaChan)

/-- A report leaves nothing of the silence before it, and there is no other way to the user. -/
theorem onDtmfReceived_atoms (hp : Permits cx env ok m.chan) (digits : Option (List Tone)) :
    Atoms cx env ok m.chan (onDtmfReceived cx env digits m).chan ∧
      ((onDtmfReceived cx env digits m).dtmfSilenceSamples = 0 ∨ onDtmfReceived cx env digits m = m) := by
  cases digits with
  | none => exact ⟨.refl, .inr rfl⟩
  | some digits => exact ⟨receiveDtmfDigits_atoms cx env ok _ hp digits, .inl rfl⟩

theorem detectDtmf_atoms (hp : Permits cx env ok m.chan)
    (hl : m.chan.direction = .forward → ∀ d, ok .lateEnd d) (he : ∀ d, ok .digitsEnd d) (h : Heard) :
    Atoms cx env ok m.chan (detectDtmf cx env h m).chan := by
  have hf : ∀ (l : List (Option (List Tone))) (n : MediaChan), Atoms cx env ok m.chan n.chan →
      n.dtmfSilenceSamples = 0 ∨ n = m →
      Atoms cx env ok m.chan (l.foldl (fun m digits => onDtmfReceived cx env digits m) n).chan ∧
        ((l.foldl (fun m digits => onDtmfReceived cx env digits m) n).dtmfSilenceSamples = 0 ∨
          l.foldl (fun m digits => onDtmfReceived cx env digits m) n = m) := by
    intro l
    induction l with
    | nil => exact fun n hn hs => ⟨hn, hs⟩
    | cons x l ih =>
      intro n hn hs
      obtain ⟨ha, hx⟩ := onDtmfReceived_atoms cx env ok n (hp.after hn) x
      refine ih _ (hn.trans ha) ?_
      dsimp only
      rcases hx with hx | hx
      · exact .inl hx
      · rwa [hx]
  obtain ⟨ha, hs⟩ := hf h.dtmfDigits m .refl (.inr rfl)
  simp only [detectDtmf]
  generalize h.dtmfDigits.foldl (fun m digits => onDtmfReceived cx env digits m) m = n at ha hs ⊢
  split_ifs
  · exact ha
  · simp only [dtmfSilence]
    split_ifs with hx
    · refine ha.trans (handleDtmfEnd_atoms cx env ok n.chan (fun hc => ?_) he)
      rcases hs with hs | rfl
      · rw [hs] at hx
        exact absurd hx (by decide)
      · exact .inr (hl hc _)
    · exact ha

theorem handleRead_atoms (hp : Permits cx env ok m.chan)
    (hc : m.chan.direction = .backward → m.chan.callState ≠ .idle)
    (hl : m.chan.detectingDtmf = true → m.chan.direction = .forward → ∀ d, ok .lateEnd d)
    (he : m.chan.detectingDtmf = true → ∀ d, ok .digitsEnd d) (h : Heard) :
    Atoms cx env ok m.chan (handleRead cx env h m).chan := by
  simp only [handleRead]
  split_ifs with hm hx
  · exact .refl
  · exact detectDtmf_atoms cx env ok m hp (hl hx) (he hx) h
  · cases h.mfTone with
    | none => exact .refl
    | some tone => exact handleMfTone_atoms cx env ok _ hp hm hc tone

/-- What the world may do in a step. -/
structure May (i : MediaInput) : Prop where
  permits : Permits cx env ok m.chan.start
  api : ∀ a, i = .api a → ok (.call a) m.chan.start
  line : i = .cas → ReadMay cx env ok m.chan.start
  check : ∀ id, i = .timer id → ∀ d, casEntry cx env (.timer id) m.chan = some d → ReadMay cx env ok d
  dial : ∀ id t, i = .timer id → m.chan.timer? id = some t → t.callback = .startDialingDtmf →
    ok .dial (m.chan.start.mapTimers (·.removeId id))
  lateEnd : m.chan.detectingDtmf = true → m.chan.direction = .forward → ∀ d, ok .lateEnd d
  digitsEnd : m.chan.detectingDtmf = true ∨ m.chan.dialingDtmf = true → ∀ d, ok .digitsEnd d

/-- A step is made of these operations. -/
theorem mediaStep_atoms {i : MediaInput} (h : May cx env ok m i)
    (hc : m.chan.direction = .backward → m.chan.callState ≠ .idle)
    (ht : ∀ cb ∈ m.chan.pending, cb.Trusts m.chan.direction) :
    Atoms cx env ok m.chan.start (mediaStep cx env i m).chan := by
  cases i with
  | cas => exact handleCas_atoms cx env ok _ h.permits (h.line rfl)
  | read x =>
    exact handleRead_atoms cx env ok (m.on R2Chan.start) h.permits hc h.lateEnd
      (fun hx => h.digitsEnd (.inl hx)) x
  | write sent =>
    simp only [mediaStep, MediaChan.on, handleWrite]
    split_ifs with hw
    · exact handleDtmfEnd_atoms cx env ok _ (fun _ => .inl hw.1) (h.digitsEnd (.inr hw.1))
    · exact .refl
  | timer id =>
    simp only [mediaStep, MediaChan.on, step, expire]
    split
    · exact .refl
    · rename_i t he
      have hm : t ∈ m.chan.timers.schedTimers := List.mem_of_find?_eq_some he
      by_cases hd : t.callback = .r2SetCallDown
      · rw [hd]
        exact reportCallEnd_atoms cx env ok m.chan.start
      have hs : Atoms cx env ok m.chan.start (m.chan.start.mapTimers (·.removeId id)) :=
        .single (.expire m.chan.start id fun u hu => by rwa [Option.some.inj (hu.symm.trans he)])
      refine hs.trans (runTimer_atoms cx env ok _ (h.permits.after hs) t.callback
        (ht _ (List.mem_map_of_mem hm)) (h.dial id t rfl he) fun hcb d hd => h.check id rfl d ?_)
      simp only [casEntry, he, if_pos hcb]
      exact hd
  | api a => exact apiCall_atoms cx env ok _ a (h.api a rfl)
  | alarm on => exact handleAlarm_atoms cx env ok _ h.permits on

end Media

end OpenR2
