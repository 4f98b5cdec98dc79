import OpenR2.Proofs.RegisterMoves

namespace OpenR2

variable {cx : R2Context} {env : Env} {s : Stimulus} {c d e : R2Chan}

section Api

theorem keepNumbers_control (ani : Option (List Tone)) (dnis : List Tone) (cat : Category)
    (restricted : Bool) (c : R2Chan) :
    (keepNumbers cx ani dnis cat restricted c).control = c.control := rfl

theorem makeCall_goes (hm : cx.Mfc) (ani : Option (List Tone)) (dnis : List Tone) (cat : Category)
    (restricted : Bool) (c : R2Chan) :
    Goes cx env s c (makeCall cx env ani dnis cat restricted c).1 := by
  have ht : (setCasSignal cx env .seize c).1.control = { c.control with casTxSignal := .seize } :=
    setCasSignal_control env (by decide) c
  simp only [makeCall]
  split_ifs with h1 h2 h3 h4
  all_goals try exact .refl
  · exact .one (ht ▸ .lose (setCasSignal_unsound (show CasSignal.seize ≠ .invalid by decide) h4) .seize)
  · obtain ⟨p, n, hp, hn, ha⟩ := armTimer_control env .r2Seize cx.timers.r2Seize
      .seizeTimeoutExpired ((setCasSignal cx env .seize c).1.setR2State .seizeTxd)
    rw [control_setR2State, ht] at hp ha
    have hc : (placeCall cx env ani dnis cat restricted (setCasSignal cx env .seize c).1).1.control =
        { c.control.marked (n ++ [.callState .dialing]) with
          casTxSignal := .seize
          r2State := .seizeTxd
          callState := .dialing
          direction := .forward
          mfGroup := .fwdInit
          pending := p } := by
      simp only [placeCall, hm.dial, Bool.false_eq_true, if_false, control_setMfGroup,
        control_setDirection, control_setCallState, keepNumbers_control, ha, Control.marked,
        List.append_assoc]
    have hx : c.inalarm = false := by simpa using h1
    refine .one (hc ▸ .makeCall p n (not_not.mp h2) hx hp ?_)
    rcases hn with rfl | rfl
    · simp
    · intro m hm
      obtain rfl := List.mem_singleton.mp hm
      exact ⟨.onOsError, trivial, rfl⟩

theorem acceptCall_goes (hm : cx.Mfc) (mode : CallMode) (c : R2Chan) :
    Goes cx env s c (acceptCall cx env mode c).1 := by
  simp only [acceptCall, hm.detect, Bool.false_eq_true, if_false]
  split_ifs with h
  · exact .refl
  · have ho : c.callState = .offered := not_not.mp h
    have hb : c.control.Receiving :=
      ⟨.inr (.inr (.inr (by simp [R2Chan.control, ho, CallState.Incoming]))), .inr ho⟩
    exact hb.mfState .acceptedTxd trivial (prepareMfTone_goes _ _)

theorem doAnswer_goes (hm : cx.Mfc) (c : R2Chan) :
    Goes cx env s c (doAnswer cx env c).1 ∧
      ((doAnswer cx env c).2 = 0 → (doAnswer cx env c).1.r2State = .answerTxd) := by
  have ht : (setCasSignal cx env .answer c).1.control = { c.control with casTxSignal := .answer } :=
    setCasSignal_control env (by decide) c
  simp only [doAnswer, hm.dial, hm.detect, Bool.or_self, true_and]
  split_ifs with h1 h2
  · exact ⟨.refl, by simp⟩
  · exact ⟨.one (ht ▸ .lose (setCasSignal_unsound (show CasSignal.answer ≠ .invalid by decide) h2) .answer),
      by simp⟩
  · refine ⟨.one ?_, fun _ => rfl⟩
    rw [control_setAnswered, control_setR2State, control_setCallState, ht]
    exact .answer (not_not.mp h1)

theorem answerCall_goes (hm : cx.Mfc) (c : R2Chan) : Goes cx env s c (answerCall cx env c).1 := by
  obtain ⟨hd, hr⟩ : Goes cx env s c _ ∧ _ := doAnswer_goes hm c
  simp only [answerCall]
  split_ifs with h1 h2
  · exact hd
  · have hr := hr (not_not.mp h1)
    have hb : (doAnswer cx env c).1.control.Backward := .inr (.inl (by
      simp [R2Chan.control, hr, CasState.Backward]))
    exact hd.trans (armTimer_goes .r2DoubleAnswer _ .doubleAnswerHandler .backward trivial hb (.inl hr))
  · exact hd

theorem answerCallWithMode_goes (hm : cx.Mfc) (mode : AnswerMode) (c : R2Chan) :
    Goes cx env s c (answerCallWithMode cx env mode c).1 := by
  obtain ⟨hd, hr⟩ : Goes cx env s c _ ∧ _ := doAnswer_goes hm c
  simp only [answerCallWithMode]
  split_ifs with h1 h2
  · exact hd
  · have hr := hr (not_not.mp h1)
    have hb : (doAnswer cx env c).1.control.Backward := .inr (.inl (by
      simp [R2Chan.control, hr, CasState.Backward]))
    exact hd.trans (armTimer_goes .r2DoubleAnswer _ .doubleAnswerHandler .backward trivial hb (.inl hr))
  · exact hd

theorem disconnectBackward_goes (hm : cx.Mfc) (cause : DisconnectCause)
    (hd : c.direction = .backward) : Goes cx env s c (disconnectBackward cx env cause c).1 := by
  have hb : c.control.Backward := .inl hd
  simp only [disconnectBackward, hm.detect, Bool.false_eq_true, if_false]
  split_ifs with ho
  · exact Control.Receiving.mfState ⟨hb, .inr ho⟩ .disconnectTxd trivial (prepareMfTone_goes _ _)
  · exact reportCallEnd_goes _
  · exact sendForcedRelease_goes hb
  · exact sendClearBackward_goes hb

theorem disconnectForward_goes (hd : c.direction ≠ .backward) (hc : c.callState ≠ .idle) :
    Goes cx env s c (disconnectForward cx env c).1 := by
  simp only [disconnectForward]
  split_ifs with h1 h2
  · exact .single (.hop .seizeTxdClearFwdPending (.holdSeize h1))
  · exact .head (.hop .doubleSeizureClearFwdPending (.holdGlare h2))
      (armTimer_goes (c := c.setR2State .doubleSeizureClearFwdPending) .r2SeizePersist _
        .r2SeizePersistExpired .forward trivial (.inr (.inl trivial)) rfl)
  · exact reportCallEnd_goes _
  · exact sendClearForward_goes (.inr (.inr ⟨hd, hc⟩))

theorem disconnectCall_goes (hm : cx.Mfc) (cause : DisconnectCause) (c : R2Chan) :
    Goes cx env s c (disconnectCall cx env cause c).1 := by
  simp only [disconnectCall]
  split_ifs with h1 h2
  · exact .refl
  · exact disconnectBackward_goes hm cause h2
  · exact disconnectForward_goes h2 h1

theorem apiCall_goes (hm : cx.Mfc) (a : ApiCall) (c : R2Chan)
    (hs : a = .ackCall → c.r2State = .seizeAckTxd ∨ s = .ack) :
    Goes cx env s c (apiCall cx env a c).1 := by
  cases a with
  | makeCall => exact makeCall_goes hm _ _ _ _ c
  | acceptCall => exact acceptCall_goes hm _ c
  | answerCall => exact answerCall_goes hm c
  | answerCallWithMode => exact answerCallWithMode_goes hm _ c
  | disconnectCall => exact disconnectCall_goes hm _ c
  | ackCall => exact ackCall_goes (hs rfl)
  | setIdle => exact setIdle_goes c
  | setBlocked => exact setBlocked_goes c

end Api

section Incoming

theorem incomingCall_goes (hq : env.Quiet) (h : Goes cx env s c ((d.setR2State .seizeAckTxd).setCallState
    .collecting |>.setDirection .backward)) : Goes cx env s c (incomingCall cx env d) := by
  have hi := h.trans (emit_goes .onCallInit trivial _)
  simp only [incomingCall, callback, hq _]
  split_ifs
  · exact hi.trans (ackCall_goes (.inl rfl))
  · exact hi

theorem handleIncomingCall_goes (hm : cx.Mfc) (hq : env.Quiet) (hr : c.r2State = .idle) (ha : c.inalarm = false) :
    Goes cx env s c (handleIncomingCall cx env c) := by
  have hw : Goes cx env s c (c.did (.mfWriteInit c.mfWriteHandle false)) := did_goes rfl c
  simp only [handleIncomingCall, hm.detect, Bool.false_eq_true, if_false]
  split
  · exact hw.trans (handleProtocolError_goes _ _)
  · split
    · exact (hw.trans (did_goes rfl _)).trans (handleProtocolError_goes _ _)
    · refine incomingCall_goes hq (.one ?_)
      simp only [control_setDirection, control_setCallState, control_setR2State,
        control_setMfGroup, control_setMfState, control_setMfHandles]
      rw [control_did rfl, control_did rfl]
      exact .incoming hr ha

end Incoming

section States

theorem logRx_goes (sig : CasSignal) (c : R2Chan) : Goes cx env s c (c.logRx sig) := .refl

theorem invalidCas_goes (reason : ProtocolError) (c : R2Chan) :
    Goes cx env s c (invalidCas cx env reason c) :=
  (logRx_goes .invalid c).trans (handleProtocolError_goes _ _)

/-- A change of the line state and the report that the far end disconnected. -/
theorem hopAndReport_goes (sig : CasSignal) (r : CasState) (cause : DisconnectCause)
    (hs : s ≠ .advance) (h : Hop c.control r) (hr : r.Forward ∨ r = .clearFwdRxd) :
    Goes cx env s c (reportCallDisconnection cause ((c.logRx sig).setR2State r)) := by
  refine .head (.hop r h) (reportCallDisconnection_goes (c := (c.logRx sig).setR2State r) cause hs ?_)
  rcases hr with hr | hr
  · exact .inl (.inr (.inl hr))
  · exact .inr (.inr hr)

theorem casIdle_goes (hm : cx.Mfc) (hq : env.Quiet) (hr : c.r2State = .idle) (ha : c.inalarm = false) (cas : Nat) :
    Goes cx env s c (casIdle cx env cas c) := by
  unfold casIdle
  split_ifs
  · exact emit_goes .onLineBlocked trivial (c.logRx .block)
  · exact emit_goes .onLineIdle trivial (c.logRx .idle)
  · exact handleIncomingCall_goes (c := c.logRx .seize) hm hq hr ha
  · exact invalidCas_goes _ c

theorem casBlocked_goes (cas : Nat) (c : R2Chan) : Goes cx env s c (casBlocked cx cas c) := by
  unfold casBlocked
  split_ifs
  · exact emit_goes .onLineIdle trivial (c.logRx .idle)
  · exact logRx_goes .invalid c

theorem casInit_goes (cas : Nat) (c : R2Chan) : Goes cx env s c (casInit cx env cas c) := by
  unfold casInit
  split_ifs
  · exact emit_goes .onLineIdle trivial (c.logRx .idle)
  · exact emit_goes .onLineBlocked trivial (c.logRx .block)
  · exact invalidCas_goes _ c

theorem casBackwardCall_goes (hr : c.r2State = .seizeAckTxd ∨ c.r2State = .answerTxd ∨
    c.r2State = .executingDoubleAnswer) {cas : Nat} (hs : s = .advance ↔ lineAdvances cx cas c) :
    Goes cx env s c (casBackwardCall cx env cas c) := by
  have ha : s ≠ .advance := fun h => by
    obtain ⟨-, h⟩ := hs.mp h
    rcases hr with hr | hr | hr <;> simp [hr] at h
  have h : Hop c.control .clearFwdRxd := .clearFwdRxd (by
    rcases hr with hr | hr | hr
    · exact .inl hr
    · exact .inr (.inl hr)
    · exact .inr (.inr (.inl hr)))
  unfold casBackwardCall
  split_ifs
  · exact hopAndReport_goes .clearForward _ _ ha h (.inr rfl)
  · exact invalidCas_goes _ c

theorem seizeAcknowledged_goes (hm : cx.Mfc) (hr : c.r2State = .seizeTxd) :
    Goes cx env s c (seizeAcknowledged cx env c) := by
  have h : (c.setR2State .seizeAckRxd).Sending := ⟨.inr (.inl trivial), .inr rfl⟩
  have hi : ∀ d : R2Chan, ((d.did (.mfWriteInit d.mfWriteHandle true)).did
      (.mfReadInit d.mfReadHandle false)).control = d.control :=
    fun d => (control_did (a := .mfReadInit _ _) rfl _).trans
      (control_did (a := .mfWriteInit _ _) rfl d)
  simp only [seizeAcknowledged, hm.dial, Bool.false_eq_true, if_false]
  refine (Relation.ReflTransGen.head (.hop .seizeAckRxd (.seizeAck hr)) ?_).trans
    (emit_goes .onCallProceed trivial _)
  refine h.mfGroup .gi trivial ((Goes.of_eq (hi _)).trans (mfSendDnis_goes 0 ?_))
  exact ⟨.inr (.inl trivial), .inr rfl⟩

theorem casSeizeTxd_goes (hm : cx.Mfc) (hr : c.r2State = .seizeTxd ∨
    c.r2State = .seizeTxdClearFwdPending) {cas : Nat} (hs : s = .advance ↔ lineAdvances cx cas c) :
    Goes cx env s c (casSeizeTxd cx env cas c) := by
  have ha : s ≠ .advance := fun h => by
    obtain ⟨-, h⟩ := hs.mp h
    rcases hr with hr | hr <;> simp [hr] at h
  have hf : c.control.Forward := .inr (.inl (by
    rcases hr with hr | hr <;> simp [R2Chan.control, hr, CasState.Forward]))
  have hx : Goes cx env s c ((c.logRx .seizeAck).cancelTimer .r2Seize) :=
    (logRx_goes .seizeAck c).trans (cancelTimer_goes _ _)
  simp only [casSeizeTxd]
  split_ifs with h1 h2 h3
  · exact hx.trans (sendClearForward_goes (c := (c.logRx .seizeAck).cancelTimer .r2Seize) hf)
  · exact hx.trans (seizeAcknowledged_goes hm (hr.resolve_right h2))
  · refine .head (.hop .doubleSeizure (.glare hr)) ?_
    exact Relation.ReflTransGen.trans
      (cancelTimer_goes .r2Seize ((c.logRx .seize).setR2State .doubleSeizure))
      (reportCallDisconnection_goes _ ha (.inl (.inr (.inl trivial))))
  · exact invalidCas_goes _ c

theorem casDoubleSeizure_goes (cas : Nat) (c : R2Chan) :
    Goes cx env s c (casDoubleSeizure cx env cas c) := by
  unfold casDoubleSeizure
  split_ifs with h1 h2
  · exact .single (.hop .clearFwdRxd (.clearFwdRxd (.inr (.inr (.inr h2)))))
  · exact (logRx_goes .idle c).trans (reportCallEnd_goes _)
  · exact invalidCas_goes _ c

theorem casDisconnectTxd_goes (cas : Nat) (c : R2Chan) :
    Goes cx env s c (casDisconnectTxd cx env cas c) := by
  unfold casDisconnectTxd
  split_ifs
  · exact (logRx_goes .clearForward c).trans (reportCallEnd_goes _)
  · exact invalidCas_goes _ c

/-- The states and signals of a backward disconnection agree. -/
theorem checkBackwardDisconnection_state {cas : Nat} {x : Disconnection}
    (h : checkBackwardDisconnection cx cas = some x) :
    x.state = .clearBackRxd ∨ x.state = .forcedReleaseRxd := by
  unfold checkBackwardDisconnection at h
  split_ifs at h
  · obtain rfl := Option.some.inj h
    exact .inl rfl
  · obtain rfl := Option.some.inj h
    exact .inr rfl

theorem disconnection_goes {cas : Nat} (ha : s ≠ .advance) (h : c.r2State = .acceptRxd ∨ c.r2State = .seizeAckRxd)
    {x : Disconnection} (hx : checkBackwardDisconnection cx cas = some x) :
    Goes cx env s c
      (reportCallDisconnection x.cause ((c.logRx x.signal).setR2State x.state)) := by
  have hs := checkBackwardDisconnection_state hx
  refine hopAndReport_goes _ _ _ ha (.release x.state ?_ hs) (.inl ?_)
  · rcases h with h | h
    · exact .inl h
    · exact .inr (.inl h)
  · rcases hs with hs | hs <;> rw [hs] <;> trivial

theorem casAcceptRxd_goes (hr : c.r2State = .acceptRxd) {cas : Nat}
    (hs : s = .advance ↔ lineAdvances cx cas c) : Goes cx env s c (casAcceptRxd cx env cas c) := by
  unfold casAcceptRxd
  split_ifs with h
  · exact callAnswered_goes (c := c.logRx .answer) (hs.mpr ⟨h, .inl hr⟩) hr
  · split
    · rename_i hx
      exact disconnection_goes (fun ha => h (hs.mp ha).1) (.inl hr) hx
    · exact invalidCas_goes _ c

theorem casSeizeAckRxd_goes (hm : cx.Mfc) (hr : c.r2State = .seizeAckRxd) {cas : Nat}
    (hs : s = .advance ↔ lineAdvances cx cas c) :
    Goes cx env s c (casSeizeAckRxd cx env cas c) := by
  simp only [casSeizeAckRxd, hm.dial, true_and]
  split_ifs with h
  · exact .single (.hop .answerRxdMfPending (.earlyAnswer hr))
  · split
    · rename_i hx
      exact disconnection_goes (fun ha => by simpa [hr] using (hs.mp ha).2) (.inr hr) hx
    · exact invalidCas_goes _ c

theorem casAnswerRxd_goes (hm : cx.Mfc) (hr : c.r2State = .answerRxdMfPending ∨
    c.r2State = .answerRxd) {cas : Nat} (hs : s = .advance ↔ lineAdvances cx cas c) :
    Goes cx env s c (casAnswerRxd cx env cas c) := by
  have ha : s ≠ .advance := fun h => by
    obtain ⟨-, h⟩ := hs.mp h
    rcases hr with hr | hr <;> simp [hr] at h
  have hp : ∀ (sig : CasSignal) (r : CasState) (cause : DisconnectCause),
      r = .clearBackRxd ∨ r = .forcedReleaseRxd →
      Goes cx env s c (releaseOrPulse cx env cause ((c.logRx sig).setR2State r)) := by
    intro sig r cause h
    have hh : Hop c.control r := .release r (by
      rcases hr with hr | hr
      · exact .inr (.inr (.inr hr))
      · exact .inr (.inr (.inl hr))) h
    have hf : ((c.logRx sig).setR2State r).control.Forward := .inr (.inl (by
      rcases h with rfl | rfl <;> trivial))
    refine .head (.hop r hh) ?_
    unfold releaseOrPulse
    split_ifs
    · exact armTimer_goes (c := (c.logRx sig).setR2State r) .r2MeteringPulse _ .r2MeteringPulse
        .forward trivial hf h
    · exact reportCallDisconnection_goes (c := (c.logRx sig).setR2State r) _ ha (.inl hf)
  simp only [casAnswerRxd, hm.dial, hm.detect, Bool.false_eq_true, or_self, false_and, if_false]
  split_ifs
  · exact hp _ _ _ (.inl rfl)
  · exact hp _ _ _ (.inr rfl)
  · exact invalidCas_goes _ c

theorem casAwaitIdle_goes (cas : Nat) (c : R2Chan) : Goes cx env s c (casAwaitIdle cx env cas c) := by
  unfold casAwaitIdle
  split_ifs
  · exact (logRx_goes .idle c).trans (reportCallEnd_goes _)
  · exact invalidCas_goes _ c

theorem casClearFwdTxd_goes (hr : c.r2State = .clearFwdTxd) (cas : Nat) :
    Goes cx env s c (casClearFwdTxd cx env cas c) := by
  unfold casClearFwdTxd
  split_ifs
  · exact (logRx_goes .idle c).trans (reportCallEnd_goes _)
  · split
    · exact .single (.hop .clearBackAfterClearFwdRxd (.lateRelease hr))
    · exact invalidCas_goes _ c

theorem casReleaseRxd_goes (hr : c.r2State = .clearBackRxd ∨ c.r2State = .forcedReleaseRxd)
    {cas : Nat} (hs : s = .advance ↔ lineAdvances cx cas c) :
    Goes cx env s c (casReleaseRxd cx env cas c) := by
  unfold casReleaseRxd
  split_ifs with h
  · have hc : ((((c.logRx .answer).cancelTimer .r2MeteringPulse).setR2State .answerRxd).emit
        .onBillingPulseReceived).control =
        { c.control.marked [.event .onBillingPulseReceived] with
          r2State := .answerRxd
          pending := (c.timers.cancelTimer .r2MeteringPulse).pending } := by
      rw [control_emit]
      rfl
    rw [Goes, hc]
    exact .tail (.single (.billing (hs.mpr ⟨h.2, .inr ⟨h.1, hr⟩⟩) hr h.1))
      (.drop _ (pending_cancelTimer _ _))
  · exact invalidCas_goes _ c

/-- Every case of the switch goes by moves. -/
theorem casSwitch_goes (hm : cx.Mfc) (hq : env.Quiet) {cas : Nat} (hs : s = .advance ↔ lineAdvances cx cas c)
    (ha : c.inalarm = false) : Goes cx env s c (casSwitch cx env cas c) := by
  unfold casSwitch
  split
  all_goals rename_i hr
  · exact casIdle_goes hm hq hr ha cas
  · exact casBackwardCall_goes (.inl hr) hs
  · exact casBackwardCall_goes (.inr (.inl hr)) hs
  · exact casBackwardCall_goes (.inr (.inr hr)) hs
  · exact casSeizeTxd_goes hm (.inl hr) hs
  · exact casSeizeTxd_goes hm (.inr hr) hs
  · exact casDoubleSeizure_goes cas c
  · exact casDoubleSeizure_goes cas c
  · exact casDisconnectTxd_goes cas c
  · exact casDisconnectTxd_goes cas c
  · exact casAcceptRxd_goes hr hs
  · exact casSeizeAckRxd_goes hm hr hs
  · exact casAnswerRxd_goes hm (.inl hr) hs
  · exact casAnswerRxd_goes hm (.inr hr) hs
  · exact casAwaitIdle_goes cas c
  · exact casAwaitIdle_goes cas c
  · exact casClearFwdTxd_goes hr cas
  · exact casReleaseRxd_goes (.inl hr) hs
  · exact casReleaseRxd_goes (.inr hr) hs
  · exact casBlocked_goes cas c
  · exact casInit_goes cas c
  · exact invalidCas_goes _ c
  · exact invalidCas_goes _ c

end States

section Cas

theorem ioGetCas_control (env : Env) (c : R2Chan) : (ioGetCas env c).1.control = c.control := by
  unfold ioGetCas
  split <;> exact control_did (a := .getCas) rfl c

theorem checkPersistence_goes (cas : Nat) (c : R2Chan) :
    Goes cx env s c (checkPersistence cx env cas c) :=
  armTimer_goes (c := c.setPersistence (some cas)) .casPersistenceCheck _ .persistenceCheckExpired
    .stopped trivial trivial trivial

/-- Reading the line changes timers at most. -/
theorem casPattern_goes (c : R2Chan) :
    Goes cx env s c (casPattern cx env c).1 ∧
      (casPattern cx env c).1.r2State = c.r2State := by
  have hp : Goes cx env s c (pollCas cx env c).1 ∧ (pollCas cx env c).1.r2State = c.r2State := by
    have hi : Goes cx env s c (ioGetCas env c).1 := .of_eq (ioGetCas_control env c)
    have hr : (ioGetCas env c).1.r2State = c.r2State :=
      congrArg Control.r2State (ioGetCas_control env c)
    have ht : ∀ ms, (armTimer env .casPersistenceCheck ms .persistenceCheckExpired c).r2State =
        c.r2State := by
      intro ms
      obtain ⟨p, n, -, -, h⟩ := armTimer_control env .casPersistenceCheck ms
        .persistenceCheckExpired c
      exact congrArg Control.r2State h
    have hk : ∀ (cas : Nat) (d : R2Chan), (checkPersistence cx env cas d).r2State = d.r2State := by
      intro cas d
      obtain ⟨p, n, -, -, h⟩ := armTimer_control env .casPersistenceCheck
        cx.timers.casPersistenceCheck .persistenceCheckExpired (d.setPersistence (some cas))
      exact congrArg Control.r2State h
    simp only [pollCas]
    split
    · exact ⟨hi, hr⟩
    · split_ifs
      · exact ⟨hi.trans (cancelTimer_goes _ _), hr⟩
      · exact ⟨hi, hr⟩
      · exact ⟨(hi.trans (cancelTimer_goes .casPersistenceCheck _)).trans
          (checkPersistence_goes _ _), (hk _ _).trans hr⟩
      · exact ⟨hi, hr⟩
  unfold casPattern
  split
  · exact hp
  · split_ifs
    · exact ⟨.refl, rfl⟩
    · exact hp

theorem handleCas_goes (hm : cx.Mfc) (hq : env.Quiet) (hs : s = .advance ↔ casAdvances cx env c) :
    Goes cx env s c (handleCas cx env c) := by
  obtain ⟨hg, hr⟩ : Goes cx env s c (casPattern cx env c).1 ∧ _ := casPattern_goes c
  simp only [handleCas, actOnCas]
  split
  · exact hg
  · rename_i cas hc
    split_ifs with ha
    · exact hg
    · refine hg.trans (casSwitch_goes (c := (casPattern cx env c).1.setCasRead cas) hm hq ?_
        (Bool.eq_false_of_not_eq_true ha))
      have hl : lineAdvances cx cas ((casPattern cx env c).1.setCasRead cas) =
          lineAdvances cx cas c := by
        simp only [lineAdvances, R2Chan.setCasRead, hr]
      rw [hs, hl]
      simp [casAdvances, hc]

theorem persistenceCheckExpired_goes (hm : cx.Mfc) (hq : env.Quiet)
    (hs : s = .advance ↔ timerAdvances cx env .persistenceCheckExpired c) :
    Goes cx env s c (persistenceCheckExpired cx env c) := by
  have hi : Goes cx env s c (ioGetCas env (c.mapTimers (·.setSlot .casPersistenceCheck 0))).1 :=
    .of_eq (ioGetCas_control env _)
  simp only [persistenceCheckExpired]
  split
  · exact hi
  · rename_i raw hr
    split_ifs with h
    · exact hi.trans (handleCas_goes hm hq (hs.trans (and_iff_right ⟨_, hr, h⟩)))
    · exact hi.trans (checkPersistence_goes _ _)
    · exact hi

/-- A channel at rest does not wait for an answer. -/
theorem casAdvances_rest (h : c.r2State = .idle ∨ c.r2State = .blocked) :
    ¬ casAdvances cx env c := by
  rintro ⟨cas, -, -, hr⟩
  rcases h with h | h <;> simp [h] at hr

theorem handleAlarm_goes (hm : cx.Mfc) (hq : env.Quiet) (hs : s ≠ .advance) (on : Bool) (c : R2Chan) :
    Goes cx env s c (handleAlarm cx env on c) := by
  cases on with
  | true =>
    have ha : Goes cx env s c ((c.setInalarm true).emit (.onHardwareAlarm true)) :=
      Relation.ReflTransGen.head .alarm
        (emit_goes (.onHardwareAlarm true) trivial (c.setInalarm true))
    have hf : ∀ d : R2Chan, d.inalarm = true → Goes cx env s d (forgetLine d) :=
      fun d hd => .single (.mute hd)
    have hon : ((c.setInalarm true).emit (.onHardwareAlarm true)).inalarm = true := rfl
    simp only [handleAlarm, handleAlarmState]
    rw [if_pos hon]
    split_ifs
    · refine (ha.trans (handleProtocolError_goes _ _)).trans (hf _ ?_)
      have hc := setIdle_control cx env (((c.setInalarm true).emit (.onHardwareAlarm true)).did
        (.mfSelectTone ((c.setInalarm true).emit (.onHardwareAlarm true)).mfWriteHandle 0))
      exact congrArg Control.inalarm hc
    · exact ha.trans (hf _ rfl)
  | false =>
    let a := (c.setInalarm false).emit (.onHardwareAlarm false)
    have hi : Goes cx env s c (setIdle cx env a).1 := .one (by
      rw [setIdle_control, control_emit]
      exact .recover .idle .idle (.inl ⟨rfl, rfl⟩))
    have hb : Goes cx env s c (setBlocked cx env a).1 := .one (by
      rw [setBlocked_control, control_emit]
      exact .recover .blocked .block (.inr ⟨rfl, rfl⟩))
    have hri : (setIdle cx env a).1.r2State = .idle :=
      congrArg Control.r2State (setIdle_control cx env a)
    have hrb : (setBlocked cx env a).1.r2State = .blocked :=
      congrArg Control.r2State (setBlocked_control cx env a)
    have hoff : ¬ a.inalarm = true := Bool.false_ne_true
    simp only [handleAlarm, handleAlarmState]
    rw [if_neg hoff]
    split_ifs
    · exact hi.trans (handleCas_goes hm hq (iff_of_false hs (casAdvances_rest (.inl hri))))
    · exact hb.trans (handleCas_goes hm hq (iff_of_false hs (casAdvances_rest (.inr hrb))))

end Cas

section Step

/-- A timer of the call in progress, on its expiry. -/
theorem runTimer_goes (hm : cx.Mfc) (hq : env.Quiet) {cb : TimerCallback} (hd : cb.Serves c.direction)
    (hs : s = .advance ↔ timerAdvances cx env cb c) :
    Goes cx env s c (runTimer cx env cb c) := by
  have hf : (∀ x, cb.Serves x → x = .forward) → c.control.Forward := fun h => .inl (h _ hd)
  cases cb with
  | mfFwdSafetyTimeoutExpired => exact handleProtocolError_goes _ _
  | mfBackCycleTimeoutExpired => exact mfBackCycleTimeoutExpired_goes c
  | mfBackResumeCycle => exact setSilence_goes c
  | seizeTimeoutExpired => exact handleProtocolError_goes _ _
  | r2SeizePersistExpired =>
    exact sendClearForward_goes (hf (by intro x; cases x <;> simp [TimerCallback.Serves]))
  | r2AnswerTimeoutExpired =>
    exact reportCallDisconnection_goes _ hs.mp
      (.inl (hf (by intro x; cases x <;> simp [TimerCallback.Serves])))
  | readyToAnswer =>
    exact .one (control_emit (.onCallAccepted .unknown) c ▸ .accepted .unknown (hs.mpr trivial))
  | doubleAnswerHandler => exact doubleAnswerHandler_goes c
  | r2MeteringPulse =>
    exact r2MeteringPulse_goes hs.mp (hf (by intro x; cases x <;> simp [TimerCallback.Serves]))
  | r2SetCallDown => exact reportCallEnd_goes c
  | persistenceCheckExpired => exact persistenceCheckExpired_goes hm hq hs
  | startDialingDtmf => cases hx : c.direction <;> simp [TimerCallback.Serves] at hd

theorem handleToneOff_goes (hq : env.Quiet) (hm : c.mfState ≠ .offState)
    (hs : s = .advance ↔ silenceAdvances cx env c) : Goes cx env s c (handleToneOff cx env c) := by
  simp only [handleToneOff]
  split
  all_goals
    rename_i hd
    simp only [silenceAdvances, hd] at hs
  · exact handleForwardMfSilence_goes fun h1 h2 => hs.mpr ⟨h1, h2⟩
  · exact handleBackwardMfSilence_goes hq hd hm hs
  · exact handleProtocolError_goes _ _

theorem handleToneOn_goes (hq : env.Quiet) (tone : Tone) (hm : c.mfState ≠ .offState) :
    Goes cx env s c (handleToneOn cx env tone c) := by
  simp only [handleToneOn]
  split
  · rename_i hd
    exact handleForwardMfTone_goes (c := c.setMfReadTone tone) hq tone hd hm
  · exact Relation.ReflTransGen.trans (cancelTimer_goes .mfFwdSafety (c.setMfReadTone tone))
      (setSilence_goes _)
  · exact handleProtocolError_goes _ (c.setMfReadTone tone)

theorem handleMfTone_goes (hq : env.Quiet) (tone : Tone) (hm : c.mfState ≠ .offState)
    (hs : s = .advance ↔ toneAdvances cx env tone c) :
    Goes cx env s c (handleMfTone cx env tone c) := by
  have hc := checkThreshold_control cx env tone c
  have ht : Goes cx env s c (checkThreshold cx env tone c).1 := .of_eq hc
  have hmf : (checkThreshold cx env tone c).1.mfState = c.mfState := congrArg Control.mfState hc
  simp only [handleMfTone]
  split_ifs with h1 h2 h3 h4 h5 h6
  · exact .refl
  · exact handleProtocolError_goes _ _
  · exact ht
  · exact ht.trans (handleToneOn_goes hq tone (hmf ▸ hm))
  · exact .refl
  all_goals obtain rfl : tone = 0 := not_not.mp h1
  · exact ht
  · refine ht.trans (handleToneOff_goes hq (hmf ▸ hm) (hs.trans ?_))
    simp only [toneAdvances, ne_eq, true_and, hm, h5, not_false_eq_true,
      not_not.mp h6]

/-- One step of the code is a sequence of moves of the control part, all set off
by the same stimulus. -/
theorem step_goes (hm : cx.Mfc) (hq : env.Quiet) (i : Input)
    (hd : ∀ cb ∈ c.pending, cb.Serves c.direction) :
    Goes cx env (stimulus cx env i c) c.start (step cx env i c) := by
  have hs : stimulus cx env i c = .advance ↔ advances cx env i c := by
    unfold stimulus
    split_ifs with h1 h2 <;> simp [h1]
  cases i with
  | cas => exact handleCas_goes hm hq hs
  | mfTone tone =>
    simp only [step, handleMedia]
    split_ifs with h
    · exact .refl
    · exact handleMfTone_goes hq tone h hs
  | timer id =>
    cases ht : c.start.timer? id with
    | none =>
      simp only [step, expire, ht]
      exact .refl
    | some t =>
      have hmem : t ∈ c.timers.schedTimers := List.mem_of_find?_eq_some ht
      have hr : Goes cx env (stimulus cx env (.timer id) c) c.start
          (c.start.mapTimers (·.removeId id)) := .single (.drop _ (pending_removeId _ _))
      simp only [step, expire, ht]
      refine hr.trans (runTimer_goes hm hq (c := c.start.mapTimers (·.removeId id))
        (hd _ (List.mem_map.mpr ⟨t, hmem, rfl⟩)) (hs.trans ?_))
      simp only [advances, show c.timer? id = some t from ht, Option.mem_def, Option.some.injEq,
        exists_eq_left']
  | api a =>
    refine apiCall_goes hm a c.start ?_
    rintro rfl
    by_cases hr : c.r2State = .seizeAckTxd
    · exact .inl hr
    · right
      unfold stimulus
      rw [if_neg (by simp [advances]), if_pos ⟨rfl, hr⟩]
  | alarm on => exact handleAlarm_goes hm hq (fun h => hs.mp h) on c.start

end Step

end OpenR2
