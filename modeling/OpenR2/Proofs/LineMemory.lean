import OpenR2.Media
import OpenR2.Proofs.Reset
import OpenR2.Proofs.TimerQueue

namespace OpenR2

/-- What a channel remembers of its line between two readings. -/
structure LineMemory where
  inalarm : Bool
  casRead : Nat
  casPersistenceCheckSignal : Option Nat

def R2Chan.lineMemory (c : R2Chan) : LineMemory where
  inalarm := c.inalarm
  casRead := c.casRead
  casPersistenceCheckSignal := c.casPersistenceCheckSignal

/-- The name of the received signal is none, or one of the pattern that was read. -/
def R2Chan.Named (cx : R2Context) (c : R2Chan) : Prop :=
  c.casRxSignal = .invalid ∨ cx.casSignals c.casRxSignal = c.casRead

/-- The code takes `b` to `c` without a reading of the line: what was read stays, and keeps
its name, and no check of a pattern is scheduled. -/
def R2Chan.Blindly (cx : R2Context) (b c : R2Chan) : Prop :=
  c.lineMemory = b.lineMemory ∧
    (.persistenceCheckExpired ∈ c.pending → .persistenceCheckExpired ∈ b.pending) ∧
    (b.Named cx → c.Named cx)

namespace R2Chan.Blindly

section Line

variable {cx : R2Context} {env : Env} {b c d : R2Chan}

theorem refl (cx : R2Context) (c : R2Chan) : Blindly cx c c := ⟨rfl, id, id⟩

theorem trans (h : Blindly cx b c) (h' : Blindly cx c d) : Blindly cx b d :=
  ⟨h'.1.trans h.1, fun hp => h.2.1 (h'.2.1 hp), fun hn => h'.2.2 (h.2.2 hn)⟩

/-- A change of the other fields. -/
theorem frame (h : Blindly cx b c) (hm : d.lineMemory = c.lineMemory)
    (hx : d.casRxSignal = c.casRxSignal) (hp : d.pending ⊆ c.pending) : Blindly cx b d := by
  refine ⟨hm.trans h.1, fun hc => h.2.1 (hp hc), fun hn => ?_⟩
  have hr : d.casRead = c.casRead := congrArg LineMemory.casRead hm
  unfold Named
  rw [hx, hr]
  exact h.2.2 hn

theorem did (h : Blindly cx b c) (a : Act) : Blindly cx b (c.did a) := h

theorem emit (h : Blindly cx b c) (e : Event) : Blindly cx b (c.emit e) := h

theorem setR2State (h : Blindly cx b c) (r : CasState) : Blindly cx b (c.setR2State r) := h

theorem setCallState (h : Blindly cx b c) (s : CallState) : Blindly cx b (c.setCallState s) := h

theorem setDirection (h : Blindly cx b c) (d : Direction) : Blindly cx b (c.setDirection d) := h

theorem setMfGroup (h : Blindly cx b c) (g : MfGroup) : Blindly cx b (c.setMfGroup g) := h

theorem setMfState (h : Blindly cx b c) (m : MfState) : Blindly cx b (c.setMfState m) := h

theorem setAnswered (h : Blindly cx b c) : Blindly cx b c.setAnswered := h

theorem setMfHandles (h : Blindly cx b c) (w r : Nat) : Blindly cx b (c.setMfHandles w r) := h

theorem setDtmf (h : Blindly cx b c) (x y : Bool) : Blindly cx b (c.setDtmf x y) := h

/-- Timers that leave the queue. -/
theorem mapTimers (h : Blindly cx b c) {f : TimerQueue → TimerQueue}
    (hf : (f c.timers).schedTimers ⊆ c.timers.schedTimers) : Blindly cx b (c.mapTimers f) :=
  h.frame rfl rfl (List.map_subset _ hf)

theorem cancelTimer (h : Blindly cx b c) (slot : TimerSlot) : Blindly cx b (c.cancelTimer slot) :=
  h.mapTimers (c.timers.cancelTimer_sublist slot).subset

/-- `CAS_LOG_RX` of a signal that has the pattern. -/
theorem logRx (h : Blindly cx b c) {s : CasSignal}
    (hs : s = .invalid ∨ cx.casSignals s = c.casRead) : Blindly cx b (c.logRx s) :=
  ⟨h.1, h.2.1, fun _ => hs⟩

theorem turnOffMfEngine (h : Blindly cx b c) : Blindly cx b (turnOffMfEngine cx c) := by
  obtain ⟨⟨r, w, x, y, q, hf⟩, ht, -⟩ := turnOffMfEngine_turnedOff cx c
  refine h.frame (by rw [hf]; rfl) (by rw [hf]) (List.map_subset _ ?_)
  rcases ht with ht | ht
  · rw [ht]
    exact List.Subset.refl _
  · rw [ht]
    exact (c.timers.cancelTimer_sublist .mfBackCycle).subset

theorem fixRxSignal (h : Blindly cx b c) : Blindly cx b (fixRxSignal cx c) := by
  unfold OpenR2.fixRxSignal
  split_ifs with hc hi
  · refine ⟨h.1, h.2.1, fun hn => .inr (hc.1.symm.trans ?_)⟩
    rcases h.2.2 hn with hx | hx
    · exact absurd (hc.2.symm.trans hx) (by decide)
    · rw [← hc.2]
      exact hx
  · exact ⟨h.1, h.2.1, fun _ => .inr hi.symm⟩
  · exact h

theorem protoInit (h : Blindly cx b c) : Blindly cx b (protoInit cx c) := by
  have hc : Blindly cx b (clearNumbers c) := h.frame rfl rfl (List.nil_subset _)
  exact fixRxSignal (hc.turnOffMfEngine.frame rfl rfl (List.Subset.refl _))

theorem setCasSignal (h : Blindly cx b c) (s : CasSignal) :
    Blindly cx b (setCasSignal cx env s c).1 := by
  unfold OpenR2.setCasSignal
  split
  · exact h
  · exact h

theorem setIdle (h : Blindly cx b c) : Blindly cx b (setIdle cx env c).1 :=
  h.protoInit.setCasSignal .idle

theorem setBlocked (h : Blindly cx b c) : Blindly cx b (setBlocked cx env c).1 :=
  (h.protoInit.setR2State .blocked).setCasSignal .block

theorem handleProtocolError (h : Blindly cx b c) (reason : ProtocolError) :
    Blindly cx b (handleProtocolError cx env reason c) := (h.did _).setIdle.emit _

theorem reportCallEnd (h : Blindly cx b c) : Blindly cx b (reportCallEnd cx env c) := h.setIdle.emit _

/-- No check of a pattern is among the timers of a call. -/
theorem addTimer (h : Blindly cx b c) (ms : Nat) (cb : TimerCallback)
    (hc : cb ≠ .persistenceCheckExpired) : Blindly cx b (addTimer env ms cb c).1 := by
  unfold OpenR2.addTimer
  split
  · exact h
  · refine ⟨h.1, fun hm => h.2.1 ?_, h.2.2⟩
    obtain ⟨t, ht, he⟩ := List.mem_map.mp hm
    rcases TimerQueue.mem_addTimer ht with ht | ⟨-, rfl⟩
    · exact he ▸ List.mem_map_of_mem ht
    · exact absurd he hc

theorem armTimer (h : Blindly cx b c) (slot : TimerSlot) (ms : Nat) (cb : TimerCallback)
    (hc : cb ≠ .persistenceCheckExpired) : Blindly cx b (armTimer env slot ms cb c) :=
  (h.addTimer ms cb hc).frame rfl rfl (List.Subset.refl _)

theorem sendClearBackward (h : Blindly cx b c) : Blindly cx b (sendClearBackward cx env c).1 :=
  (h.setR2State _).turnOffMfEngine.setCasSignal _

theorem sendForcedRelease (h : Blindly cx b c) : Blindly cx b (sendForcedRelease cx env c).1 :=
  (h.setR2State _).turnOffMfEngine.setCasSignal _

theorem sendClearForward (h : Blindly cx b c) : Blindly cx b (sendClearForward cx env c).1 :=
  ((h.addTimer _ _ (by decide)).setR2State _).turnOffMfEngine.setCasSignal _

theorem doubleAnswerHandler (h : Blindly cx b c) : Blindly cx b (doubleAnswerHandler cx env c) := by
  unfold OpenR2.doubleAnswerHandler
  dsimp only
  split_ifs
  · exact h.sendClearBackward
  · exact (h.sendClearBackward.setR2State _).armTimer _ _ _ (by decide)
  · exact h.setCasSignal _
  · exact (h.setCasSignal _).setR2State _
  · exact h

theorem ackCall (h : Blindly cx b c) : Blindly cx b (ackCall cx env c).1 := by
  unfold OpenR2.ackCall
  dsimp only
  split
  · exact (h.setCasSignal _).handleProtocolError _
  · exact h.setCasSignal _

end Line

section Calls

variable {cx : R2Context} {env : Env} {b c d : R2Chan}

theorem startMfTone (h : Blindly cx b c) (tone : Tone) : Blindly cx b (startMfTone cx env tone c) := by
  have hx : ∀ d : R2Chan, Blindly cx b d → Blindly cx b (if env.flushWriteBuffers d.out
      then (d.did .flushWriteBuffers).setMfWriteTone tone else d.did .flushWriteBuffers) := by
    intro d hd
    split
    · exact hd
    · exact hd
  unfold OpenR2.startMfTone
  dsimp only
  split
  · exact hx _ (h.armTimer _ _ _ (by decide))
  · exact hx _ h

theorem selectMfTone (h : Blindly cx b c) (tone : Tone) :
    Blindly cx b (selectMfTone cx env tone c) := by
  unfold OpenR2.selectMfTone
  dsimp only
  split_ifs
  · exact h
  · exact (h.did _).handleProtocolError _
  · exact h
  · exact (h.did _).startMfTone tone

theorem prepareMfTone (h : Blindly cx b c) (tone : Tone) :
    Blindly cx b (prepareMfTone cx env tone c) := by
  unfold OpenR2.prepareMfTone
  dsimp only
  split_ifs
  · exact (h.did _).selectMfTone tone
  · exact h.did _
  · exact h.selectMfTone tone

theorem setSilence (h : Blindly cx b c) : Blindly cx b (setSilence cx env c) :=
  (h.prepareMfTone 0).frame rfl rfl (List.Subset.refl _)

/-- A tone of the next state of the register signalling. -/
theorem signal (h : Blindly cx b c) (m : MfState) (tone : Tone) :
    Blindly cx b (OpenR2.prepareMfTone cx env tone (c.setMfState m)) :=
  (h.setMfState m).prepareMfTone tone

theorem waitTimeout (h : Blindly cx b c) : Blindly cx b (waitTimeout cx env c) :=
  (h.setMfState .waitingTimeout).armTimer _ _ _ (by decide)

theorem mfSendDnisDigit (h : Blindly cx b c) : Blindly cx b (mfSendDnisDigit cx env c) := by
  have hd : Blindly cx b (c.did (.readDnis c.dnisIndex)) := h
  unfold OpenR2.mfSendDnisDigit
  dsimp only
  split_ifs
  · exact hd.signal _ _
  · exact hd.signal _ _
  · exact hd.waitTimeout

theorem mfSendDnis (h : Blindly cx b c) (offset : Int) : Blindly cx b (mfSendDnis cx env offset c) := by
  have hi : ∀ i, Blindly cx b (c.setDnisIndex i) := fun _ => h
  unfold OpenR2.mfSendDnis
  split_ifs
  · exact (hi _).mfSendDnisDigit
  · exact h.mfSendDnisDigit
  · exact (hi _).mfSendDnisDigit
  · exact h.handleProtocolError _

theorem mfSendCategory (h : Blindly cx b c) : Blindly cx b (mfSendCategory cx env c) :=
  have hs : Blindly cx b ((c.setMfState .categoryTxd).setCategorySent) := h
  hs.prepareMfTone _

theorem mfSendAniDigit (h : Blindly cx b c) : Blindly cx b (mfSendAniDigit cx env c) := by
  have hd : Blindly cx b (c.did (.readAni c.aniPtr)) := h
  unfold OpenR2.mfSendAniDigit
  dsimp only
  split_ifs
  · exact h.signal _ _
  · exact (hd.signal _ _).frame rfl rfl (List.Subset.refl _)
  · exact hd.signal _ _
  · exact hd.signal _ _
  · exact hd.waitTimeout

theorem mfSendAni (h : Blindly cx b c) : Blindly cx b (mfSendAni cx env c) := by
  unfold OpenR2.mfSendAni
  split
  · exact (h.setMfGroup .gi).mfSendDnis 1
  · exact h.mfSendAniDigit

theorem keepNumbers (h :
    Blindly cx b c) (ani : Option (List Tone)) (dnis : List Tone) (category : Category)
    (restricted : Bool) : Blindly cx b (keepNumbers cx ani dnis category restricted c) := h

theorem startDtmfDial (h : Blindly cx b c) : Blindly cx b (startDtmfDial cx env c).1 := by
  unfold OpenR2.startDtmfDial
  dsimp only
  split_ifs
  · exact h.did _
  · exact ((h.did _).did _).did _
  · exact (((h.did _).did _).did _).setMfGroup _

theorem placeCall (h :
    Blindly cx b c) (ani : Option (List Tone)) (dnis : List Tone) (category : Category)
    (restricted : Bool) : Blindly cx b (placeCall cx env ani dnis category restricted c).1 := by
  have hs : Blindly cx b (OpenR2.armTimer env .r2Seize cx.timers.r2Seize .seizeTimeoutExpired
      (c.setR2State .seizeTxd)) := (h.setR2State _).armTimer _ _ _ (by decide)
  have hp := ((hs.keepNumbers ani dnis category restricted).setCallState .dialing).setDirection .forward
  unfold OpenR2.placeCall
  dsimp only
  split_ifs
  · exact hp.startDtmfDial
  · exact hp.setMfGroup _

theorem makeCall (h :
    Blindly cx b c) (ani : Option (List Tone)) (dnis : List Tone) (category : Category)
    (restricted : Bool) : Blindly cx b (makeCall cx env ani dnis category restricted c).1 := by
  unfold OpenR2.makeCall
  dsimp only
  split_ifs
  · exact h
  · exact h
  · exact h
  · exact h.setCasSignal _
  · exact (h.setCasSignal _).placeCall _ _ _ _

theorem acceptCall (h : Blindly cx b c) (mode : CallMode) :
    Blindly cx b (acceptCall cx env mode c).1 := by
  unfold OpenR2.acceptCall
  split_ifs
  · exact h
  · exact h
  · exact h.signal _ _

theorem doAnswer (h : Blindly cx b c) : Blindly cx b (doAnswer cx env c).1 := by
  unfold OpenR2.doAnswer
  dsimp only
  split_ifs
  · exact h
  · exact h.setCasSignal _
  · exact (h.setCasSignal _).frame rfl rfl (List.Subset.refl _)

theorem answerCall (h : Blindly cx b c) : Blindly cx b (answerCall cx env c).1 := by
  unfold OpenR2.answerCall
  dsimp only
  split_ifs
  · exact h.doAnswer
  · exact h.doAnswer.armTimer _ _ _ (by decide)
  · exact h.doAnswer

theorem answerCallWithMode (h : Blindly cx b c) (mode : AnswerMode) :
    Blindly cx b (answerCallWithMode cx env mode c).1 := by
  unfold OpenR2.answerCallWithMode
  dsimp only
  split_ifs
  · exact h.doAnswer
  · exact h.doAnswer.armTimer _ _ _ (by decide)
  · exact h.doAnswer

theorem disconnectCall (h : Blindly cx b c) (cause : DisconnectCause) :
    Blindly cx b (disconnectCall cx env cause c).1 := by
  unfold OpenR2.disconnectCall disconnectBackward disconnectForward
  split_ifs
  · exact h
  · exact h.reportCallEnd
  · exact h.sendClearBackward
  · exact h.signal _ _
  · exact h.reportCallEnd
  · exact h.sendForcedRelease
  · exact h.sendClearBackward
  · exact h
  · exact (h.setR2State _).armTimer _ _ _ (by decide)
  · exact h.reportCallEnd
  · exact h.sendClearForward

theorem apiCall (h : Blindly cx b c) (a : ApiCall) : Blindly cx b (apiCall cx env a c).1 := by
  cases a with
  | makeCall ani dnis category restricted => exact h.makeCall ani dnis category restricted
  | acceptCall mode => exact h.acceptCall mode
  | answerCall => exact h.answerCall
  | answerCallWithMode mode => exact h.answerCallWithMode mode
  | disconnectCall cause => exact h.disconnectCall cause
  | ackCall => exact h.ackCall
  | setIdle => exact h.setIdle
  | setBlocked => exact h.setBlocked

end Calls

section Tones

variable {cx : R2Context} {env : Env} {b c d : R2Chan}

theorem callback (h : Blindly cx b c) (e : Event) : Blindly cx b (callback cx env e c) := by
  unfold OpenR2.callback
  dsimp only
  split
  · exact h.emit e
  · exact (h.emit e).apiCall _

theorem offerCall (h : Blindly cx b c) : Blindly cx b (offerCall cx env c) := by
  unfold OpenR2.offerCall
  split
  · exact h.handleProtocolError _
  · exact (h.setCallState _).emit _

theorem requestChangeToG2 (h : Blindly cx b c) : Blindly cx b (requestChangeToG2 cx env c) :=
  (h.setMfGroup _).signal _ _

theorem requestNextDnisDigit (h : Blindly cx b c) : Blindly cx b (requestNextDnisDigit cx env c) :=
  (h.setMfGroup _).signal _ _

theorem tryChangeToG2 (h : Blindly cx b c) : Blindly cx b (tryChangeToG2 cx env c) := by
  unfold OpenR2.tryChangeToG2
  split
  · exact (h.signal _ _).offerCall
  · exact h.requestChangeToG2

theorem tryRequestCallingPartyCategory (h : Blindly cx b c) :
    Blindly cx b (tryRequestCallingPartyCategory cx env c) := by
  unfold OpenR2.tryRequestCallingPartyCategory
  split
  · exact h.tryChangeToG2
  · exact (h.setMfGroup _).signal _ _

theorem mfBackCycleTimeoutExpired (h : Blindly cx b c) :
    Blindly cx b (mfBackCycleTimeoutExpired cx env c) := by
  unfold OpenR2.mfBackCycleTimeoutExpired
  dsimp only
  split_ifs
  · exact (h.armTimer _ _ _ (by decide)).tryRequestCallingPartyCategory
  · exact (h.armTimer _ _ _ (by decide)).tryChangeToG2
  · exact h.handleProtocolError _

theorem storeDnisDigit (h : Blindly cx b c) (tone : Tone) : Blindly cx b (storeDnisDigit tone c) := by
  unfold OpenR2.storeDnisDigit
  split
  · exact h
  · exact h

theorem afterDnisDigit (h : Blindly cx b c) (rc : Bool) :
    Blindly cx b (afterDnisDigit cx env rc c) := by
  unfold OpenR2.afterDnisDigit
  split_ifs
  · exact h.tryRequestCallingPartyCategory
  · exact h.tryChangeToG2
  · exact h.tryRequestCallingPartyCategory
  · exact h.requestNextDnisDigit

theorem mfReceiveExpectedDnis (h : Blindly cx b c) (tone : Tone) :
    Blindly cx b (mfReceiveExpectedDnis cx env tone c) := by
  unfold OpenR2.mfReceiveExpectedDnis
  dsimp only
  split_ifs
  · exact ((h.storeDnisDigit tone).callback _).afterDnisDigit _
  · exact h.tryRequestCallingPartyCategory
  · exact h.tryChangeToG2
  · exact h.handleProtocolError _

theorem storeAniDigit (h : Blindly cx b c) (tone : Tone) : Blindly cx b (storeAniDigit tone c) := h

theorem requestNextAniDigit (h : Blindly cx b c) : Blindly cx b (requestNextAniDigit cx env c) :=
  h.signal _ _

theorem doneGettingAni (h : Blindly cx b c) : Blindly cx b (doneGettingAni cx env c) := by
  unfold OpenR2.doneGettingAni
  split
  · exact h.tryChangeToG2
  · exact h.requestNextDnisDigit

theorem mfReceiveExpectedAni (h : Blindly cx b c) (tone : Tone) :
    Blindly cx b (mfReceiveExpectedAni cx env tone c) := by
  have hd : ∀ d : R2Chan, Blindly cx b d →
      Blindly cx b (if tone = 0 ∨ cx.forceUseMaxAni = false ∧ d.aniLen < uint32 cx.maxAni
        then OpenR2.requestNextAniDigit cx env d else OpenR2.doneGettingAni cx env d) := by
    intro d hd
    split
    · exact hd.requestNextAniDigit
    · exact hd.doneGettingAni
  have hr : Blindly cx b c.restrictAni := h
  unfold OpenR2.mfReceiveExpectedAni
  dsimp only
  split
  · split
    · exact hd _ ((h.storeAniDigit tone).callback _)
    · exact hd _ h
  · split
    · split
      · exact hr.doneGettingAni
      · exact h.doneGettingAni
    · exact h.handleProtocolError _

theorem receiveCategory (h : Blindly cx b c) (tone : Tone) :
    Blindly cx b (receiveCategory cx env tone c) := by
  have hc : Blindly cx b (c.setCallerCategory tone) := h
  unfold OpenR2.receiveCategory
  dsimp only
  split_ifs
  · exact hc.mfReceiveExpectedAni 0
  · exact hc.tryChangeToG2
  · exact hc.requestChangeToG2

theorem handleForwardMfTone (h : Blindly cx b c) (tone : Tone) :
    Blindly cx b (handleForwardMfTone cx env tone c) := by
  have hc := h.cancelTimer .mfBackCycle
  unfold OpenR2.handleForwardMfTone
  generalize c.cancelTimer .mfBackCycle = d at hc
  dsimp only
  split
  · split
    · exact hc.mfReceiveExpectedAni tone
    · exact hc.mfReceiveExpectedDnis tone
  · exact hc.mfReceiveExpectedDnis tone
  · exact hc.receiveCategory tone
  · exact hc.receiveCategory tone
  · exact hc.mfReceiveExpectedAni tone
  · exact hc.mfReceiveExpectedAni tone
  · exact hc.offerCall
  all_goals exact hc.handleProtocolError _

theorem handleForwardMfSilence (h : Blindly cx b c) :
    Blindly cx b (handleForwardMfSilence cx env c) := by
  have hs : Blindly cx b (OpenR2.setSilence cx env c) := h.setSilence
  have he : ∀ d : R2Chan, Blindly cx b d → Blindly cx b (mfDanceEnded cx env d) := fun d hd =>
    (hd.turnOffMfEngine.setCallState _).armTimer _ _ _ (by decide)
  unfold OpenR2.handleForwardMfSilence
  generalize OpenR2.setSilence cx env c = d at hs
  dsimp only
  split
  · exact he d hs
  · exact he d hs
  · exact hs.mapTimers (List.nil_subset _)
  · exact hs
  · exact hs
  · exact hs
  · exact hs.handleProtocolError _
  · exact hs.handleProtocolError _

theorem callAnswered (h : Blindly cx b c) : Blindly cx b (callAnswered cx c) :=
  (((h.cancelTimer _).setR2State _).setCallState _).turnOffMfEngine.setAnswered.emit _

theorem handleAcceptTone (h : Blindly cx b c) (mode : CallMode) :
    Blindly cx b (handleAcceptTone cx env mode c) := by
  have hd : Blindly cx b (OpenR2.callback cx env (.onCallAccepted mode) (c.setR2State .acceptRxd)) :=
    (h.setR2State _).callback _
  unfold OpenR2.handleAcceptTone
  generalize OpenR2.callback cx env (.onCallAccepted mode) (c.setR2State .acceptRxd) = d at hd
  dsimp only
  split_ifs
  · exact hd
  · exact hd.callAnswered
  · exact ((h.setR2State _).armTimer _ _ _ (by decide)).emit _

theorem callRejected (h : Blindly cx b c) (cause : DisconnectCause) :
    Blindly cx b (callRejected cause c) := h

theorem handleGroupARequest (h : Blindly cx b c) (tone : Tone) :
    Blindly cx b (handleGroupARequest cx env tone c) := by
  have hi : Blindly cx b (c.setDnisIndex 0) := h
  unfold OpenR2.handleGroupARequest handleDnisRequest
  split
  · split
    · exact hi.mfSendDnis _
    · exact h.mfSendDnis _
  · split_ifs
    · exact h.mfSendAni
    · exact (h.setMfGroup _).mfSendCategory
    · exact h.mfSendCategory
    · exact (h.setMfGroup _).mfSendCategory
    · exact h.handleAcceptTone _
    · exact h.callRejected _
    · exact h.handleProtocolError _

theorem handleGroupBRequest (h : Blindly cx b c) (tone : Tone) :
    Blindly cx b (handleGroupBRequest cx env tone c) := by
  unfold OpenR2.handleGroupBRequest
  split_ifs
  · exact h.handleAcceptTone _
  · exact h.callRejected _
  · exact h.callRejected _
  · exact h.callRejected _
  · exact h.callRejected _
  · exact h.callRejected _
  · exact h.handleProtocolError _

theorem handleGroupCRequest (h : Blindly cx b c) (tone : Tone) :
    Blindly cx b (handleGroupCRequest cx env tone c) := by
  unfold OpenR2.handleGroupCRequest
  split_ifs
  · exact h.mfSendAni
  · exact (h.setMfGroup _).mfSendCategory
  · exact (h.setMfGroup _).mfSendDnis _
  · exact h.callRejected _
  · exact h.handleProtocolError _

theorem handleBackwardMfSilence (h : Blindly cx b c) (tone : Tone) :
    Blindly cx b (handleBackwardMfSilence cx env tone c) := by
  unfold OpenR2.handleBackwardMfSilence
  split
  · exact h.handleGroupARequest tone
  · exact h.handleGroupBRequest tone
  · exact h.handleGroupCRequest tone
  · exact h.handleProtocolError _

theorem checkThreshold (h : Blindly cx b c) (tone : Tone) :
    Blindly cx b (checkThreshold cx env tone c).1 := by
  obtain ⟨t, n, as, hf, -⟩ := checkThreshold_frame cx env tone c
  refine h.frame (by rw [hf]; rfl) (by rw [hf]) ?_
  rw [hf]
  exact List.Subset.refl _

theorem handleToneOn (h : Blindly cx b c) (tone : Tone) :
    Blindly cx b (handleToneOn cx env tone c) := by
  have hr : Blindly cx b (c.setMfReadTone tone) := h
  unfold OpenR2.handleToneOn
  dsimp only
  split
  · exact hr.handleForwardMfTone tone
  · exact (hr.cancelTimer _).setSilence
  · exact hr.handleProtocolError _

theorem handleToneOff (h : Blindly cx b c) : Blindly cx b (handleToneOff cx env c) := by
  have hr : ∀ d : R2Chan, Blindly cx b d → Blindly cx b (d.setMfReadTone 0) := fun _ hd => hd
  unfold OpenR2.handleToneOff
  dsimp only
  split
  · exact hr _ h.handleForwardMfSilence
  · exact hr _ (h.handleBackwardMfSilence _)
  · exact hr _ (h.handleProtocolError _)

theorem handleMfTone (h : Blindly cx b c) (tone : Tone) :
    Blindly cx b (handleMfTone cx env tone c) := by
  unfold OpenR2.handleMfTone
  dsimp only
  split_ifs
  · exact h
  · exact h.handleProtocolError _
  · exact h.checkThreshold _
  · exact (h.checkThreshold _).handleToneOn _
  · exact h
  · exact h.checkThreshold _
  · exact (h.checkThreshold _).handleToneOff

end Tones

end R2Chan.Blindly

section Switch

variable {cx : R2Context} {env : Env} {b c : R2Chan} {cas : Nat}

/- Whatever the name was, each case of the switch gives the pattern a name of its own. -/

theorem blindly_logRx {s : CasSignal} (hr : c.casRead = cas) (hs : cas = cx.casSignals s) :
    R2Chan.Blindly cx (c.logRx .invalid) (c.logRx s) :=
  ⟨rfl, id, fun _ => .inr (hs.symm.trans hr.symm)⟩

theorem blindly_invalid (c : R2Chan) : R2Chan.Blindly cx (c.logRx .invalid) (c.logRx .invalid) :=
  .refl cx _

theorem invalidCas_blindly (reason : ProtocolError) (c : R2Chan) :
    R2Chan.Blindly cx (c.logRx .invalid) (invalidCas cx env reason c) :=
  (blindly_invalid c).handleProtocolError reason

/-- The signal of a disconnection has the pattern. -/
theorem checkBackwardDisconnection_signal {d : Disconnection}
    (h : checkBackwardDisconnection cx cas = some d) : cas = cx.casSignals d.signal := by
  unfold checkBackwardDisconnection at h
  split_ifs at h with h1 h2
  · obtain rfl := Option.some.inj h
    exact h1
  · obtain rfl := Option.some.inj h
    exact h2

theorem reportCallDisconnection_blindly (h : R2Chan.Blindly cx b c) (cause : DisconnectCause) :
    R2Chan.Blindly cx b (reportCallDisconnection cause c) := h

theorem handleIncomingCall_blindly (h : R2Chan.Blindly cx b c) :
    R2Chan.Blindly cx b (handleIncomingCall cx env c) := by
  have hi : ∀ d : R2Chan, R2Chan.Blindly cx b d → R2Chan.Blindly cx b (incomingCall cx env d) := by
    intro d hd
    have he := @R2Chan.Blindly.callback _ env _ _
      (((hd.setR2State .seizeAckTxd).setCallState .collecting).setDirection .backward) .onCallInit
    unfold incomingCall
    dsimp only
    split
    · exact he.ackCall
    · exact he
  unfold handleIncomingCall
  dsimp only
  split
  · split
    · exact (h.did _).handleProtocolError _
    · exact hi _ ((((h.did _).setMfGroup _).setMfState _).setDtmf _ _)
  · split
    · exact (h.did _).handleProtocolError _
    · split
      · exact ((h.did _).did _).handleProtocolError _
      · exact hi _ (((((h.did _).did _).setMfHandles _ _).setMfState _).setMfGroup _)

theorem seizeAcknowledged_blindly (h : R2Chan.Blindly cx b c) :
    R2Chan.Blindly cx b (seizeAcknowledged cx env c) := by
  unfold seizeAcknowledged
  dsimp only
  split
  · exact (((h.setR2State _).armTimer _ _ _ (by decide)).armTimer _ _ _ (by decide)).emit _
  · exact (((((h.setR2State _).setMfGroup _).did _).did _).mfSendDnis _).emit _

theorem releaseOrPulse_blindly (h : R2Chan.Blindly cx b c) (cause : DisconnectCause) :
    R2Chan.Blindly cx b (releaseOrPulse cx env cause c) := by
  unfold releaseOrPulse
  split
  · exact h.armTimer _ _ _ (by decide)
  · exact h

theorem casIdle_blindly (hr : c.casRead = cas) :
    R2Chan.Blindly cx (c.logRx .invalid) (casIdle cx env cas c) := by
  unfold casIdle
  split_ifs with h1 h2 h3
  · exact (blindly_logRx hr h1).emit _
  · exact (blindly_logRx hr h2).emit _
  · exact handleIncomingCall_blindly (blindly_logRx hr h3)
  · exact invalidCas_blindly _ c

theorem casBackwardCall_blindly (hr : c.casRead = cas) :
    R2Chan.Blindly cx (c.logRx .invalid) (casBackwardCall cx env cas c) := by
  unfold casBackwardCall
  split_ifs with h1
  · exact reportCallDisconnection_blindly ((blindly_logRx hr h1).setR2State _) _
  · exact invalidCas_blindly _ c

theorem casSeizeTxd_blindly (hr : c.casRead = cas) :
    R2Chan.Blindly cx (c.logRx .invalid) (casSeizeTxd cx env cas c) := by
  unfold casSeizeTxd
  dsimp only
  split_ifs with h1 h2 h3
  · exact ((blindly_logRx hr h1).cancelTimer _).sendClearForward
  · exact seizeAcknowledged_blindly ((blindly_logRx hr h1).cancelTimer _)
  · exact reportCallDisconnection_blindly (((blindly_logRx hr h3).setR2State _).cancelTimer _) _
  · exact invalidCas_blindly _ c

/-- The end of a glare takes the clear forward for an idle line, which looks the same. -/
theorem casDoubleSeizure_blindly (hi : cx.casSignals .clearForward = cx.casSignals .idle)
    (hr : c.casRead = cas) : R2Chan.Blindly cx (c.logRx .invalid) (casDoubleSeizure cx env cas c) := by
  unfold casDoubleSeizure
  split_ifs with h1
  · exact (blindly_logRx hr h1).setR2State _
  · exact (blindly_logRx hr (h1.trans hi)).reportCallEnd
  · exact invalidCas_blindly _ c

theorem casDisconnectTxd_blindly (hr : c.casRead = cas) :
    R2Chan.Blindly cx (c.logRx .invalid) (casDisconnectTxd cx env cas c) := by
  unfold casDisconnectTxd
  split_ifs with h1
  · exact (blindly_logRx hr h1).reportCallEnd
  · exact invalidCas_blindly _ c

theorem casAcceptRxd_blindly (hr : c.casRead = cas) :
    R2Chan.Blindly cx (c.logRx .invalid) (casAcceptRxd cx env cas c) := by
  unfold casAcceptRxd
  split_ifs with h1
  · exact (blindly_logRx hr h1).callAnswered
  · split
    · next d hd =>
      exact reportCallDisconnection_blindly
        ((blindly_logRx hr (checkBackwardDisconnection_signal hd)).setR2State _) _
    · exact invalidCas_blindly _ c

theorem casSeizeAckRxd_blindly (hr : c.casRead = cas) :
    R2Chan.Blindly cx (c.logRx .invalid) (casSeizeAckRxd cx env cas c) := by
  have hd : ∀ b d : R2Chan, R2Chan.Blindly cx b d → R2Chan.Blindly cx b (dtmfCallAnswered d) :=
    fun _ _ hd => ((((hd.cancelTimer _).setR2State _).setCallState _).setAnswered).emit _
  unfold casSeizeAckRxd
  split
  · next h1 => exact (blindly_logRx hr h1.2).setR2State _
  · split
    · next d hd =>
      exact reportCallDisconnection_blindly
        ((blindly_logRx hr (checkBackwardDisconnection_signal hd)).setR2State _) _
    · split_ifs with h2
      · exact hd _ _ (blindly_logRx hr h2)
      · exact invalidCas_blindly _ c

theorem casAnswerRxd_blindly (hr : c.casRead = cas) :
    R2Chan.Blindly cx (c.logRx .invalid) (casAnswerRxd cx env cas c) := by
  unfold casAnswerRxd
  split_ifs with h1 h2 h3
  · exact releaseOrPulse_blindly ((blindly_logRx hr h1).setR2State _) _
  · exact reportCallDisconnection_blindly ((blindly_logRx hr h2.2).setR2State _) _
  · exact releaseOrPulse_blindly ((blindly_logRx hr h3).setR2State _) _
  · exact invalidCas_blindly _ c

theorem casAwaitIdle_blindly (hr : c.casRead = cas) :
    R2Chan.Blindly cx (c.logRx .invalid) (casAwaitIdle cx env cas c) := by
  unfold casAwaitIdle
  split_ifs with h1
  · exact (blindly_logRx hr h1).reportCallEnd
  · exact invalidCas_blindly _ c

theorem casClearFwdTxd_blindly (hr : c.casRead = cas) :
    R2Chan.Blindly cx (c.logRx .invalid) (casClearFwdTxd cx env cas c) := by
  unfold casClearFwdTxd
  split_ifs with h1
  · exact (blindly_logRx hr h1).reportCallEnd
  · split
    · next d hd => exact (blindly_logRx hr (checkBackwardDisconnection_signal hd)).setR2State _
    · exact invalidCas_blindly _ c

theorem casReleaseRxd_blindly (hr : c.casRead = cas) :
    R2Chan.Blindly cx (c.logRx .invalid) (casReleaseRxd cx env cas c) := by
  unfold casReleaseRxd
  split_ifs with h1
  · exact (((blindly_logRx hr h1.2).cancelTimer _).setR2State _).emit _
  · exact invalidCas_blindly _ c

theorem casBlocked_blindly (hr : c.casRead = cas) :
    R2Chan.Blindly cx (c.logRx .invalid) (casBlocked cx cas c) := by
  unfold casBlocked
  split_ifs with h1
  · exact (blindly_logRx hr h1).emit _
  · exact blindly_invalid c

theorem casInit_blindly (hr : c.casRead = cas) :
    R2Chan.Blindly cx (c.logRx .invalid) (casInit cx env cas c) := by
  unfold casInit
  split_ifs with h1 h2
  · exact (blindly_logRx hr h1).emit _
  · exact (blindly_logRx hr h2).emit _
  · exact invalidCas_blindly _ c

theorem casSwitch_blindly (hi : cx.casSignals .clearForward = cx.casSignals .idle)
    (hr : c.casRead = cas) : R2Chan.Blindly cx (c.logRx .invalid) (casSwitch cx env cas c) := by
  unfold casSwitch
  cases c.r2State with
  | idle => exact casIdle_blindly hr
  | seizeAckTxd | answerTxd | executingDoubleAnswer => exact casBackwardCall_blindly hr
  | seizeTxd | seizeTxdClearFwdPending => exact casSeizeTxd_blindly hr
  | doubleSeizure | doubleSeizureClearFwdPending => exact casDoubleSeizure_blindly hi hr
  | clearBackTxd | forcedReleaseTxd => exact casDisconnectTxd_blindly hr
  | acceptRxd => exact casAcceptRxd_blindly hr
  | seizeAckRxd => exact casSeizeAckRxd_blindly hr
  | answerRxdMfPending | answerRxd => exact casAnswerRxd_blindly hr
  | clearBackToneRxd | clearBackAfterClearFwdRxd => exact casAwaitIdle_blindly hr
  | clearFwdTxd => exact casClearFwdTxd_blindly hr
  | clearBackRxd | forcedReleaseRxd => exact casReleaseRxd_blindly hr
  | blocked => exact casBlocked_blindly hr
  | init => exact casInit_blindly hr
  | invalidState | clearFwdRxd => exact invalidCas_blindly _ c

end Switch


section Media

variable {cx : R2Context} {env : Env} {b c : R2Chan}

/-- A timer of the call. -/
theorem runTimer_blindly (h : R2Chan.Blindly cx b c) {cb : TimerCallback}
    (hc : cb ≠ .persistenceCheckExpired) : R2Chan.Blindly cx b (runTimer cx env cb c) := by
  cases cb with
  | mfFwdSafetyTimeoutExpired => exact h.handleProtocolError _
  | mfBackCycleTimeoutExpired => exact h.mfBackCycleTimeoutExpired
  | mfBackResumeCycle => exact h.setSilence
  | seizeTimeoutExpired => exact h.handleProtocolError _
  | r2SeizePersistExpired => exact h.sendClearForward
  | r2AnswerTimeoutExpired => exact h
  | readyToAnswer => exact h
  | doubleAnswerHandler => exact h.doubleAnswerHandler
  | r2MeteringPulse =>
    unfold runTimer r2MeteringPulse
    dsimp only
    split
    · exact h
    · exact h
  | r2SetCallDown => exact h.reportCallEnd
  | persistenceCheckExpired => exact absurd rfl hc
  | startDialingDtmf => exact h

theorem handleMedia_blindly (h : R2Chan.Blindly cx b c) (tone : Tone) :
    R2Chan.Blindly cx b (handleMedia cx env tone c) := by
  unfold handleMedia
  split
  · exact h
  · exact h.handleMfTone tone

theorem receiveDtmfDigit_blindly (h : R2Chan.Blindly cx b c) (digit : Tone) :
    R2Chan.Blindly cx b (receiveDtmfDigit cx env digit c) := by
  have hx : ∀ (rc : Bool) (d : R2Chan), R2Chan.Blindly cx b d →
      R2Chan.Blindly cx b (if rc then callback cx env (.onDnisDigitReceived digit) d
        else stopDnisCallback (callback cx env (.onDnisDigitReceived digit) d)) := by
    intro rc d hd
    split
    · exact hd.callback _
    · exact hd.callback _
  unfold receiveDtmfDigit
  refine hx _ _ ?_
  exact h

theorem handleDtmfEnd_blindly (h : R2Chan.Blindly cx b c) : R2Chan.Blindly cx b (handleDtmfEnd cx env c) := by
  unfold handleDtmfEnd
  dsimp only
  split
  · exact h.turnOffMfEngine.emit _
  · have hc : ∀ d : R2Chan, R2Chan.Blindly cx b d →
        R2Chan.Blindly cx b (d.setCallerCategory cx.g2Tones.nationalSubscriber) := fun _ hd => hd
    exact (hc _ h.turnOffMfEngine).offerCall

theorem handleWrite_blindly (h : R2Chan.Blindly cx b c) (sent : Bool) :
    R2Chan.Blindly cx b (handleWrite cx env sent c) := by
  unfold handleWrite
  split
  · exact handleDtmfEnd_blindly h
  · exact h

theorem handleRead_blindly (m : MediaChan) (h : R2Chan.Blindly cx b m.chan) (x : Heard) :
    R2Chan.Blindly cx b (handleRead cx env x m).chan := by
  have hd : ∀ (ds : List Tone) (c : R2Chan), R2Chan.Blindly cx b c →
      R2Chan.Blindly cx b (ds.foldl (fun c digit => receiveDtmfDigit cx env digit c) c) := by
    intro ds
    induction ds with
    | nil => exact fun _ hc => hc
    | cons d ds ih => exact fun c hc => ih _ (receiveDtmfDigit_blindly hc d)
  have hr : ∀ (digits : Option (List Tone)) (n : MediaChan), R2Chan.Blindly cx b n.chan →
      R2Chan.Blindly cx b (onDtmfReceived cx env digits n).chan := by
    intro digits n hn
    unfold onDtmfReceived receiveDtmfDigits
    split
    · exact hn
    · dsimp only
      split
      · exact hd _ _ hn
      · exact hn
  have hf : ∀ (l : List (Option (List Tone))) (n : MediaChan), R2Chan.Blindly cx b n.chan →
      R2Chan.Blindly cx b (l.foldl (fun m digits => onDtmfReceived cx env digits m) n).chan := by
    intro l
    induction l with
    | nil => exact fun _ hn => hn
    | cons d l ih => exact fun n hn => ih _ (hr d n hn)
  unfold handleRead
  split_ifs
  · exact h
  · unfold detectDtmf dtmfSilence
    dsimp only
    split_ifs
    · exact hf _ m h
    · exact handleDtmfEnd_blindly (hf _ m h)
    · exact hf _ m h
  · split
    · exact h
    · exact h.handleMfTone _

end Media

end OpenR2
