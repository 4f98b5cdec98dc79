import OpenR2.Media
import OpenR2.Proofs.Polling
import OpenR2.Proofs.Reset

namespace OpenR2

/-- The line is seized, or was seized twice, and no number has been sent. -/
def CasState.Undialled : CasState → Prop
  | .seizeTxd | .seizeTxdClearFwdPending | .doubleSeizure | .doubleSeizureClearFwdPending => True
  | _ => False

namespace R2Chan

/-- There is no call, or only its seize. -/
def Early (c : R2Chan) : Prop := c.callState = .idle ∨ c.r2State.Undialled

/-- Neither DTMF engine runs while the MF state says that none does. -/
def Wired (c : R2Chan) : Prop :=
  c.mfState = .offState → c.dialingDtmf = false ∧ c.detectingDtmf = false

/-- Nothing dials before the call has got past its seize, whatever the callbacks do. The MF
state is not part of it: it can outlive a call that a callback has reset. -/
structure Orderly (c : R2Chan) : Prop where
  wired : c.Wired
  dialing : c.Early → c.dialingDtmf = false
  detecting : c.Early → c.detectingDtmf = false
  group : c.Early → ¬ c.mfGroup.Dials
  timer : c.Early → .startDialingDtmf ∉ c.pending
  direction : c.r2State.Undialled → c.direction = .forward
  call : c.r2State.Undialled → c.callState = .dialing ∨ c.callState = .disconnected

end R2Chan

theorem new_orderly : R2Chan.new.Orderly where
  wired _ := ⟨rfl, rfl⟩
  dialing _ := rfl
  detecting _ := rfl
  group _ := id
  timer _ := List.not_mem_nil
  direction h := h.elim
  call h := h.elim

namespace R2Chan.Orderly

variable {c d : R2Chan}

theorem same (h : c.Orderly) (hd : d.direction = c.direction) (hc : d.callState = c.callState)
    (hr : d.r2State = c.r2State) (hm : d.mfState = c.mfState) (hg : d.mfGroup = c.mfGroup)
    (hx : d.dialingDtmf = c.dialingDtmf) (hy : d.detectingDtmf = c.detectingDtmf)
    (hp : .startDialingDtmf ∈ d.pending → .startDialingDtmf ∈ c.pending) : d.Orderly := by
  have he : d.Early → c.Early := by
    unfold R2Chan.Early
    rw [hc, hr]
    exact id
  refine ⟨?_, fun hd => ?_, fun hd => ?_, fun hd => ?_, fun hd hn => ?_, ?_, ?_⟩
  · unfold R2Chan.Wired
    rw [hm, hx, hy]
    exact h.wired
  · exact hx.trans (h.dialing (he hd))
  · exact hy.trans (h.detecting (he hd))
  · rw [hg]
    exact h.group (he hd)
  · exact h.timer (he hd) (hp hn)
  · rw [hr, hd]
    exact h.direction
  · rw [hr, hc]
    exact h.call

/-- Past the seize of a call nothing more is asked. -/
theorem late (hw : d.Wired) (hi : d.callState ≠ .idle) (hr : ¬ d.r2State.Undialled) : d.Orderly where
  wired := hw
  dialing h := (h.elim hi hr).elim
  detecting h := (h.elim hi hr).elim
  group h := (h.elim hi hr).elim
  timer h := (h.elim hi hr).elim
  direction h := (hr h).elim
  call h := (hr h).elim

theorem did (h : c.Orderly) (a : Act) : (c.did a).Orderly := h.same rfl rfl rfl rfl rfl rfl rfl id

theorem emit (h : c.Orderly) (e : Event) : (c.emit e).Orderly := h.did _

theorem logRx (h : c.Orderly) (s : CasSignal) : (c.logRx s).Orderly :=
  h.same rfl rfl rfl rfl rfl rfl rfl id

theorem setMfReadTone (h : c.Orderly) (t : Tone) : (c.setMfReadTone t).Orderly :=
  h.same rfl rfl rfl rfl rfl rfl rfl id

theorem setMfWriteTone (h : c.Orderly) (t : Tone) : (c.setMfWriteTone t).Orderly :=
  h.same rfl rfl rfl rfl rfl rfl rfl id

theorem setDnisIndex (h : c.Orderly) (i : Nat) : (c.setDnisIndex i).Orderly :=
  h.same rfl rfl rfl rfl rfl rfl rfl id

theorem nextAni (h : c.Orderly) : (nextAni c).Orderly := h.same rfl rfl rfl rfl rfl rfl rfl id

theorem setAnswered (h : c.Orderly) : c.setAnswered.Orderly := h.same rfl rfl rfl rfl rfl rfl rfl id

theorem setCasRead (h : c.Orderly) (cas : Nat) : (c.setCasRead cas).Orderly :=
  h.same rfl rfl rfl rfl rfl rfl rfl id

theorem forgetLine (h : c.Orderly) : (forgetLine c).Orderly := h.same rfl rfl rfl rfl rfl rfl rfl id

theorem start (h : c.Orderly) : c.start.Orderly := h.same rfl rfl rfl rfl rfl rfl rfl id

theorem setMfState (h : c.Orderly) (m : MfState) (hm : m ≠ .offState) : (c.setMfState m).Orderly where
  wired hx := (hm hx).elim
  dialing := h.dialing
  detecting := h.detecting
  group := h.group
  timer := h.timer
  direction := h.direction
  call := h.call

theorem setMfGroup (h : c.Orderly) {g : MfGroup} (hg : g.Dials → ¬ c.Early) : (c.setMfGroup g).Orderly where
  wired := h.wired
  dialing := h.dialing
  detecting := h.detecting
  group he hd := hg hd he
  timer := h.timer
  direction := h.direction
  call := h.call

/-- A group of the backward side. -/
theorem receive (h : c.Orderly) (g : MfGroup) (hg : ¬ g.Dials) : (c.setMfGroup g).Orderly :=
  h.setMfGroup fun hx => (hg hx).elim

/-- A line state past the seize. -/
theorem setR2State (h : c.Orderly) {r : CasState} (hr : ¬ r.Undialled) : (c.setR2State r).Orderly := by
  have he : (c.setR2State r).Early → c.Early := fun he => .inl (he.resolve_right hr)
  exact ⟨h.wired, fun hx => h.dialing (he hx), fun hx => h.detecting (he hx), fun hx => h.group (he hx),
    fun hx => h.timer (he hx), fun hx => (hr hx).elim, fun hx => (hr hx).elim⟩

/-- A line state that stands for a seize as the last one did. -/
theorem hold (h : c.Orderly) (hc : c.r2State.Undialled) (r : CasState) : (c.setR2State r).Orderly where
  wired := h.wired
  dialing _ := h.dialing (.inr hc)
  detecting _ := h.detecting (.inr hc)
  group _ := h.group (.inr hc)
  timer _ := h.timer (.inr hc)
  direction _ := h.direction hc
  call _ := h.call hc

/-- A call state that is none of a call that begins. -/
theorem setCallState (h : c.Orderly) (s : CallState) (hs : s ≠ .idle)
    (hr : c.r2State.Undialled → s = .dialing ∨ s = .disconnected) : (c.setCallState s).Orderly := by
  have he : (c.setCallState s).Early → c.Early := fun he => .inr (he.resolve_left hs)
  exact ⟨h.wired, fun hx => h.dialing (he hx), fun hx => h.detecting (he hx), fun hx => h.group (he hx),
    fun hx => h.timer (he hx), h.direction, hr⟩

theorem mapTimers (h : c.Orderly) {f : TimerQueue → TimerQueue}
    (hf : .startDialingDtmf ∈ (f c.timers).pending → .startDialingDtmf ∈ c.pending) :
    (c.mapTimers f).Orderly := h.same rfl rfl rfl rfl rfl rfl rfl hf

theorem cancelTimer (h : c.Orderly) (slot : TimerSlot) : (c.cancelTimer slot).Orderly :=
  h.mapTimers fun hx => pending_cancelTimer slot c.timers hx

theorem addTimer (h : c.Orderly) (env : Env) (ms : Nat) (cb : TimerCallback) (hcb : cb ≠ .startDialingDtmf) :
    (addTimer env ms cb c).1.Orderly := by
  unfold OpenR2.addTimer
  cases env.gettimeofday c.out with
  | none => exact (h.did _).emit _
  | some now =>
    change ((c.did .gettimeofday).mapTimers fun q => (q.addTimer now ms cb).1).Orderly
    refine (h.did _).mapTimers fun hx => ?_
    rcases List.mem_cons.mp (pending_addTimer now ms cb c.timers hx) with hx | hx
    · exact (hcb hx.symm).elim
    · exact hx

theorem armTimer (h : c.Orderly) (env : Env) (slot : TimerSlot) (ms : Nat) (cb : TimerCallback)
    (hcb : cb ≠ .startDialingDtmf) : (armTimer env slot ms cb c).Orderly :=
  (h.addTimer env ms cb hcb).mapTimers id

end R2Chan.Orderly

section Line

variable {cx : R2Context} {env : Env} {c : R2Chan}

theorem turnOffMfEngine_dtmf (cx : R2Context) (hw : c.Wired) :
    (turnOffMfEngine cx c).dialingDtmf = false ∧ (turnOffMfEngine cx c).detectingDtmf = false := by
  simp only [turnOffMfEngine]
  split_ifs with hm
  · exact hw hm
  · simp only [disposeMf]
    split_ifs <;> exact ⟨rfl, rfl⟩

theorem turnOffMfEngine_orderly (h : c.Orderly) : (turnOffMfEngine cx c).Orderly := by
  obtain ⟨hx, hy⟩ := turnOffMfEngine_dtmf cx h.wired
  obtain ⟨⟨r, w, x, y, q, hf⟩, ht, -⟩ := turnOffMfEngine_turnedOff cx c
  have hp : (turnOffMfEngine cx c).pending ⊆ c.pending := by
    unfold R2Chan.pending
    rcases ht with ht | ht
    · rw [ht]
      exact List.Subset.refl _
    · rw [ht]
      exact pending_cancelTimer _ _
  generalize turnOffMfEngine cx c = d at *
  generalize d.out = o at hf
  subst hf
  exact ⟨fun _ => ⟨hx, hy⟩, fun _ => hx, fun _ => hy, h.group, fun he hn => h.timer he (hp hn),
    h.direction, h.call⟩

theorem setCasSignal_orderly (h : c.Orderly) (sig : CasSignal) : (setCasSignal cx env sig c).1.Orderly := by
  unfold setCasSignal
  split_ifs
  · exact h
  · exact h.same rfl rfl rfl rfl rfl rfl rfl id

/-- A channel at rest. -/
theorem R2Chan.Orderly.rest {d : R2Chan} (hx : d.dialingDtmf = false) (hy : d.detectingDtmf = false)
    (hg : d.mfGroup = .noGroup) (hp : d.pending = []) (hr : ¬ d.r2State.Undialled) : d.Orderly where
  wired _ := ⟨hx, hy⟩
  dialing _ := hx
  detecting _ := hy
  group _ := by rw [hg]; exact id
  timer _ := by rw [hp]; exact List.not_mem_nil
  direction h := (hr h).elim
  call h := (hr h).elim

theorem protoInit_orderly (hw : c.Wired) : (protoInit cx c).Orderly := by
  obtain ⟨⟨rx, r, w, x, y, hf⟩, -⟩ := protoInit_reset cx c
  have hd : (protoInit cx c).dialingDtmf = false ∧ (protoInit cx c).detectingDtmf = false := by
    have ht := turnOffMfEngine_dtmf (c := clearNumbers c) cx hw
    simp only [protoInit, fixRxSignal]
    split_ifs <;> exact ht
  generalize protoInit cx c = d at *
  generalize d.out = o at hf
  subst hf
  exact .rest hd.1 hd.2 rfl rfl id

theorem setIdle_orderly (h : c.Orderly) : (setIdle cx env c).1.Orderly :=
  setCasSignal_orderly (protoInit_orderly h.wired) _

theorem setBlocked_orderly (h : c.Orderly) : (setBlocked cx env c).1.Orderly :=
  setCasSignal_orderly ((protoInit_orderly h.wired).setR2State id) _

theorem handleProtocolError_orderly (h : c.Orderly) (reason : ProtocolError) :
    (handleProtocolError cx env reason c).Orderly := (setIdle_orderly (h.did _)).emit _

theorem reportCallDisconnection_orderly (h : c.Orderly) (cause : DisconnectCause) :
    (reportCallDisconnection cause c).Orderly := (h.setCallState .disconnected nofun fun _ => .inr rfl).emit _

theorem reportCallEnd_orderly (h : c.Orderly) : (reportCallEnd cx env c).Orderly :=
  (setIdle_orderly h).emit _

theorem r2MeteringPulse_orderly (h : c.Orderly) : (r2MeteringPulse c).Orderly := by
  unfold r2MeteringPulse
  split_ifs <;> exact reportCallDisconnection_orderly h _

theorem sendClearBackward_orderly (h : c.Orderly) : (sendClearBackward cx env c).1.Orderly :=
  setCasSignal_orderly (turnOffMfEngine_orderly (h.setR2State id)) _

theorem sendForcedRelease_orderly (h : c.Orderly) : (sendForcedRelease cx env c).1.Orderly :=
  setCasSignal_orderly (turnOffMfEngine_orderly (h.setR2State id)) _

theorem sendClearForward_orderly (h : c.Orderly) : (sendClearForward cx env c).1.Orderly :=
  setCasSignal_orderly (turnOffMfEngine_orderly ((h.addTimer env _ .r2SetCallDown nofun).setR2State id)) _

theorem doubleAnswerHandler_orderly (h : c.Orderly) : (doubleAnswerHandler cx env c).Orderly := by
  simp only [doubleAnswerHandler]
  split_ifs
  · exact sendClearBackward_orderly h
  · exact ((sendClearBackward_orderly h).setR2State id).armTimer env _ _ .doubleAnswerHandler (by rintro ⟨⟩)
  · exact setCasSignal_orderly h _
  · exact (setCasSignal_orderly h _).setR2State id
  · exact h

theorem startDialingDtmf_orderly (h : ¬ c.Early) : (startDialingDtmf c).Orderly :=
  .late nofun (fun hx => h (.inl hx)) fun hx => h (.inr hx)

theorem ackCall_orderly (h : c.Orderly) : (ackCall cx env c).1.Orderly := by
  simp only [ackCall]
  split_ifs
  · exact handleProtocolError_orderly (setCasSignal_orderly h _) _
  · exact setCasSignal_orderly h _

end Line

section Tones

variable {cx : R2Context} {env : Env} {c : R2Chan}

theorem selectMfTone_orderly (h : c.Orderly) (tone : Tone) : (selectMfTone cx env tone c).Orderly := by
  have hstart : ∀ d : R2Chan, d.Orderly → (startMfTone cx env tone d).Orderly := by
    intro d hd
    have ha := hd.armTimer env .mfBackCycle cx.timers.mfBackCycle .mfBackCycleTimeoutExpired nofun
    simp only [startMfTone]
    split_ifs
    · exact (ha.did _).setMfWriteTone tone
    · exact ha.did _
    · exact (hd.did _).setMfWriteTone tone
    · exact hd.did _
  simp only [selectMfTone]
  split_ifs
  · exact h
  · exact handleProtocolError_orderly (h.did _) _
  · exact (h.did _).setMfWriteTone _
  · exact hstart _ (h.did _)

theorem prepareMfTone_orderly (h : c.Orderly) (tone : Tone) : (prepareMfTone cx env tone c).Orderly := by
  simp only [prepareMfTone]
  split_ifs
  · exact selectMfTone_orderly (h.did _) tone
  · exact h.did _
  · exact selectMfTone_orderly h tone

theorem setSilence_orderly (h : c.Orderly) : (setSilence cx env c).Orderly :=
  (prepareMfTone_orderly h 0).setMfWriteTone 0

theorem waitTimeout_orderly (h : c.Orderly) : (waitTimeout cx env c).Orderly :=
  (h.setMfState .waitingTimeout nofun).armTimer env _ _ .mfFwdSafetyTimeoutExpired nofun

/-- A state of the register signalling, and its tone. -/
theorem sendTone_orderly (h : c.Orderly) (m : MfState) (hm : m ≠ .offState) (tone : Tone) :
    (prepareMfTone cx env tone (c.setMfState m)).Orderly := prepareMfTone_orderly (h.setMfState m hm) tone

theorem mfSendDnisDigit_orderly (h : c.Orderly) : (mfSendDnisDigit cx env c).Orderly := by
  simp only [mfSendDnisDigit]
  split_ifs
  · exact sendTone_orderly (h.did _) .dnisTxd (by rintro ⟨⟩) _
  · exact sendTone_orderly (h.did _) .dnisEndTxd (by rintro ⟨⟩) _
  · exact waitTimeout_orderly (h.did _)

theorem mfSendDnis_orderly (h : c.Orderly) (offset : Int) : (mfSendDnis cx env offset c).Orderly := by
  simp only [mfSendDnis]
  split_ifs
  · exact mfSendDnisDigit_orderly (h.setDnisIndex _)
  · exact mfSendDnisDigit_orderly h
  · exact mfSendDnisDigit_orderly (h.setDnisIndex _)
  · exact handleProtocolError_orderly h _

theorem mfSendCategory_orderly (h : c.Orderly) : (mfSendCategory cx env c).Orderly := by
  refine prepareMfTone_orderly ?_ _
  exact (h.setMfState .categoryTxd nofun).same rfl rfl rfl rfl rfl rfl rfl id

theorem mfSendAniDigit_orderly (h : c.Orderly) : (mfSendAniDigit cx env c).Orderly := by
  simp only [mfSendAniDigit]
  split_ifs
  · exact sendTone_orderly h .aniEndTxd (by rintro ⟨⟩) _
  · exact (sendTone_orderly (h.did _) .aniTxd (by rintro ⟨⟩) _).nextAni
  · exact sendTone_orderly (h.did _) .aniEndTxd (by rintro ⟨⟩) _
  · exact sendTone_orderly (h.did _) .aniEndTxd (by rintro ⟨⟩) _
  · exact waitTimeout_orderly (h.did _)

theorem mfSendAni_orderly (h : c.Orderly) (he : ¬ c.Early) : (mfSendAni cx env c).Orderly := by
  simp only [mfSendAni]
  split_ifs
  · exact mfSendDnis_orderly (h.setMfGroup fun _ => he) 1
  · exact mfSendAniDigit_orderly h

end Tones

section Api

variable {cx : R2Context} {env : Env} {c : R2Chan}

/-- A timer that is armed changes the timers only. -/
theorem armTimer_frame (env : Env) (slot : TimerSlot) (ms : Nat) (cb : TimerCallback) (c : R2Chan) :
    ∃ q o, armTimer env slot ms cb c = { c with timers := q, out := o } ∧ q.pending ⊆ cb :: c.pending := by
  unfold armTimer addTimer
  cases env.gettimeofday c.out with
  | none => exact ⟨_, _, rfl, fun _ hx => List.mem_cons_of_mem _ hx⟩
  | some now => exact ⟨_, _, rfl, fun _ hx => pending_addTimer now ms cb c.timers hx⟩

/-- A call begins: the seize is on the line, and nothing of an earlier call dials. -/
theorem placeCall_orderly (h : c.Orderly) (hi : c.callState = .idle) (ani : Option (List Tone))
    (dnis : List Tone) (category : Category) (restricted : Bool) :
    (placeCall cx env ani dnis category restricted c).1.Orderly := by
  have he : c.Early := .inl hi
  obtain ⟨q, o, hf, hp⟩ := armTimer_frame env .r2Seize cx.timers.r2Seize .seizeTimeoutExpired
    (c.setR2State .seizeTxd)
  have ht : .startDialingDtmf ∉ q.pending := by
    intro hn
    rcases List.mem_cons.mp (hp hn) with hx | hx
    · exact nomatch hx
    · exact h.timer he hx
  -- the seize, with any group that does not dial
  have hs : ∀ g : MfGroup, ¬ g.Dials → ∀ o' : List Act, R2Chan.Orderly
      { ((keepNumbers cx ani dnis category restricted { c.setR2State .seizeTxd with
        timers := q, out := o }).setCallState .dialing).setDirection .forward with
          mfGroup := g, out := o' } := by
    intro g hg o'
    exact ⟨h.wired, fun _ => h.dialing he, fun _ => h.detecting he, fun _ => hg, fun _ => ht,
      fun _ => rfl, fun _ => .inl rfl⟩
  simp only [placeCall, hf]
  split_ifs
  · simp only [startDtmfDial]
    split_ifs
    · exact hs c.mfGroup (h.group he) _
    · exact hs c.mfGroup (h.group he) _
    · exact hs .dtmfFwdInit id _
  · exact hs .fwdInit id _

theorem makeCall_orderly (h : c.Orderly) (ani : Option (List Tone)) (dnis : List Tone)
    (category : Category) (restricted : Bool) :
    (makeCall cx env ani dnis category restricted c).1.Orderly := by
  have hs := @setCasSignal_orderly cx env _ h .seize
  simp only [makeCall]
  split_ifs with h1 h2 h3 h4
  · exact h
  · exact h
  · exact h
  · exact hs
  · exact placeCall_orderly hs (not_not.mp h2) ani dnis category restricted

theorem acceptCall_orderly (h : c.Orderly) (mode : CallMode) : (acceptCall cx env mode c).1.Orderly := by
  simp only [acceptCall]
  split_ifs
  · exact h
  · exact h.emit _
  · exact sendTone_orderly h .acceptedTxd (by rintro ⟨⟩) _

theorem doAnswer_orderly (h : c.Orderly) : (doAnswer cx env c).1.Orderly := by
  have hs := @setCasSignal_orderly cx env _ h .answer
  simp only [doAnswer]
  split_ifs
  · exact h
  · exact hs
  · exact .late hs.wired (by rintro ⟨⟩) id

theorem answerCall_orderly (h : c.Orderly) : (answerCall cx env c).1.Orderly := by
  have hd := @doAnswer_orderly cx env _ h
  simp only [answerCall]
  split_ifs
  · exact hd
  · exact hd.armTimer env _ _ .doubleAnswerHandler (by rintro ⟨⟩)
  · exact hd

theorem answerCallWithMode_orderly (h : c.Orderly) (mode : AnswerMode) :
    (answerCallWithMode cx env mode c).1.Orderly := by
  have hd := @doAnswer_orderly cx env _ h
  simp only [answerCallWithMode]
  split_ifs
  · exact hd
  · exact hd.armTimer env _ _ .doubleAnswerHandler (by rintro ⟨⟩)
  · exact hd

theorem disconnectCall_orderly (h : c.Orderly) (cause : DisconnectCause) :
    (disconnectCall cx env cause c).1.Orderly := by
  simp only [disconnectCall, disconnectBackward, disconnectForward]
  split_ifs with hi hb h1 h2 h3 h4 h5 h6 h7 h8
  · exact h
  · exact reportCallEnd_orderly h
  · exact sendClearBackward_orderly h
  · exact sendTone_orderly h .disconnectTxd (by rintro ⟨⟩) _
  · exact reportCallEnd_orderly h
  · exact sendForcedRelease_orderly h
  · exact sendClearBackward_orderly h
  · exact h.hold (by rw [h6]; trivial) _
  · exact (h.hold (by rw [h7]; trivial) _).armTimer env _ _ .r2SeizePersistExpired (by rintro ⟨⟩)
  · exact reportCallEnd_orderly h
  · exact sendClearForward_orderly h

/-- What the user does keeps the order. -/
theorem apiCall_orderly (h : c.Orderly) (a : ApiCall) : (apiCall cx env a c).1.Orderly := by
  cases a with
  | makeCall ani dnis category restricted => exact makeCall_orderly h ani dnis category restricted
  | acceptCall mode => exact acceptCall_orderly h mode
  | answerCall => exact answerCall_orderly h
  | answerCallWithMode mode => exact answerCallWithMode_orderly h mode
  | disconnectCall cause => exact disconnectCall_orderly h cause
  | ackCall => exact ackCall_orderly h
  | setIdle => exact setIdle_orderly h
  | setBlocked => exact setBlocked_orderly h

/-- So does what a callback does in its stead. -/
theorem callback_orderly (h : c.Orderly) (e : Event) : (callback cx env e c).Orderly := by
  simp only [callback]
  split
  · exact h.emit e
  · exact apiCall_orderly (h.emit e) _

end Api

section Backward

variable {cx : R2Context} {env : Env} {c : R2Chan}

theorem offerCall_orderly (h : c.Orderly) : (offerCall cx env c).Orderly := by
  simp only [offerCall]
  split_ifs with hc
  · exact handleProtocolError_orderly h _
  · refine (h.setCallState .offered (by rintro ⟨⟩) fun hr => ?_).emit _
    rcases h.call hr with hx | hx <;> exact absurd (not_not.mp hc) (by rw [hx]; rintro ⟨⟩)

theorem requestCallingPartyCategory_orderly (h : c.Orderly) :
    (requestCallingPartyCategory cx env c).Orderly := by
  simp only [requestCallingPartyCategory]
  split_ifs
  · exact sendTone_orderly (h.receive .ga id) .categoryRqTxd (by rintro ⟨⟩) _
  · exact sendTone_orderly (h.receive .gc id) .categoryRqTxd (by rintro ⟨⟩) _

theorem requestChangeToG2_orderly (h : c.Orderly) : (requestChangeToG2 cx env c).Orderly :=
  sendTone_orderly (h.receive .gb id) .chgGiiTxd nofun _

theorem tryChangeToG2_orderly (h : c.Orderly) : (tryChangeToG2 cx env c).Orderly := by
  unfold tryChangeToG2
  split_ifs
  · exact offerCall_orderly (sendTone_orderly h .acceptedTxd nofun _)
  · exact requestChangeToG2_orderly h

theorem tryRequestCallingPartyCategory_orderly (h : c.Orderly) :
    (tryRequestCallingPartyCategory cx env c).Orderly := by
  unfold tryRequestCallingPartyCategory
  split_ifs
  · exact tryChangeToG2_orderly h
  · exact requestCallingPartyCategory_orderly h

theorem mfBackCycleTimeoutExpired_orderly (h : c.Orderly) :
    (mfBackCycleTimeoutExpired cx env c).Orderly := by
  have ha := h.armTimer env .mfBackResumeCycle cx.timers.mfBackResumeCycle .mfBackResumeCycle nofun
  simp only [mfBackCycleTimeoutExpired]
  split_ifs
  · exact tryRequestCallingPartyCategory_orderly ha
  · exact tryChangeToG2_orderly ha
  · exact handleProtocolError_orderly h _

theorem requestNextDnisDigit_orderly (h : c.Orderly) : (requestNextDnisDigit cx env c).Orderly :=
  sendTone_orderly (h.receive .ga id) .dnisRqTxd nofun _

theorem afterDnisDigit_orderly (h : c.Orderly) (rc : Bool) : (afterDnisDigit cx env rc c).Orderly := by
  unfold afterDnisDigit
  split_ifs
  · exact tryRequestCallingPartyCategory_orderly h
  · exact tryChangeToG2_orderly h
  · exact tryRequestCallingPartyCategory_orderly h
  · exact requestNextDnisDigit_orderly h

theorem storeDnisDigit_orderly (h : c.Orderly) (tone : Tone) : (storeDnisDigit tone c).Orderly := by
  unfold storeDnisDigit
  split_ifs
  · exact h
  · exact h.same rfl rfl rfl rfl rfl rfl rfl id

theorem storeAniDigit_orderly (h : c.Orderly) (tone : Tone) : (storeAniDigit tone c).Orderly :=
  h.same rfl rfl rfl rfl rfl rfl rfl id

theorem mfReceiveExpectedDnis_orderly (h : c.Orderly) (tone : Tone) :
    (mfReceiveExpectedDnis cx env tone c).Orderly := by
  have hs := storeDnisDigit_orderly h tone
  simp only [mfReceiveExpectedDnis]
  split_ifs
  · exact afterDnisDigit_orderly (callback_orderly hs _) _
  · exact tryRequestCallingPartyCategory_orderly h
  · exact tryChangeToG2_orderly h
  · exact handleProtocolError_orderly h _

theorem doneGettingAni_orderly (h : c.Orderly) : (doneGettingAni cx env c).Orderly := by
  unfold doneGettingAni
  split_ifs
  · exact tryChangeToG2_orderly h
  · exact requestNextDnisDigit_orderly h

theorem mfReceiveExpectedAni_orderly (h : c.Orderly) (tone : Tone) :
    (mfReceiveExpectedAni cx env tone c).Orderly := by
  have hs := @callback_orderly cx env _ (storeAniDigit_orderly h tone) (.onAniDigitReceived tone)
  have hr : c.restrictAni.Orderly := h.same rfl rfl rfl rfl rfl rfl rfl id
  simp only [mfReceiveExpectedAni]
  split_ifs
  · exact sendTone_orderly hs .aniRqTxd (by rintro ⟨⟩) _
  · exact doneGettingAni_orderly hs
  · exact sendTone_orderly h .aniRqTxd (by rintro ⟨⟩) _
  · exact doneGettingAni_orderly h
  · exact doneGettingAni_orderly hr
  · exact doneGettingAni_orderly h
  · exact handleProtocolError_orderly h _

theorem receiveCategory_orderly (h : c.Orderly) (tone : Tone) : (receiveCategory cx env tone c).Orderly := by
  have hc : (c.setCallerCategory tone).Orderly := h.same rfl rfl rfl rfl rfl rfl rfl id
  simp only [receiveCategory]
  split_ifs
  · exact mfReceiveExpectedAni_orderly hc 0
  · exact tryChangeToG2_orderly hc
  · exact requestChangeToG2_orderly hc

theorem handleForwardMfTone_orderly (h : c.Orderly) (tone : Tone) :
    (handleForwardMfTone cx env tone c).Orderly := by
  have hc := h.cancelTimer .mfBackCycle
  unfold handleForwardMfTone
  dsimp only
  split
  · split_ifs
    · exact mfReceiveExpectedAni_orderly hc tone
    · exact mfReceiveExpectedDnis_orderly hc tone
  · exact mfReceiveExpectedDnis_orderly hc tone
  · exact receiveCategory_orderly hc tone
  · exact receiveCategory_orderly hc tone
  · exact mfReceiveExpectedAni_orderly hc tone
  · exact mfReceiveExpectedAni_orderly hc tone
  · exact offerCall_orderly hc
  all_goals exact handleProtocolError_orderly hc _

/-- Only an incoming call is accepted at the end of a tone. -/
theorem handleForwardMfSilence_orderly (h : c.Orderly) (hd : c.direction = .backward) :
    (handleForwardMfSilence cx env c).Orderly := by
  have hs := @setSilence_orderly cx env _ h
  have hn : (setSilence cx env c).direction ≠ .forward := by
    rcases prepareMfTone_cases cx env 0 c with ⟨-, ⟨q, w, hf⟩, -⟩ | ⟨-, d, -, hf⟩
    · change (prepareMfTone cx env 0 c).direction ≠ .forward
      generalize prepareMfTone cx env 0 c = d at hf
      generalize d.out = o at hf
      subst hf
      rw [hd]
      nofun
    · change (prepareMfTone cx env 0 c).direction ≠ .forward
      rw [hf, (handleProtocolError_atRest cx d env .internalError).direction]
      nofun
  have he : (mfDanceEnded cx env (setSilence cx env c)).Orderly := by
    have ht := @turnOffMfEngine_orderly cx _ hs
    have hx : (turnOffMfEngine cx (setSilence cx env c)).direction = (setSilence cx env c).direction := by
      obtain ⟨⟨r, w, x, y, q, hf⟩, -⟩ := turnOffMfEngine_turnedOff cx (setSilence cx env c)
      rw [hf]
    refine (ht.setCallState .accepted nofun fun hr => ?_).armTimer env _ _ .readyToAnswer nofun
    exact absurd (hx.symm.trans (ht.direction hr)) hn
  unfold handleForwardMfSilence
  dsimp only
  split
  · exact he
  · exact he
  · exact hs.mapTimers fun hx => (List.not_mem_nil hx).elim
  · exact hs
  · exact hs
  · exact hs
  · exact handleProtocolError_orderly hs _
  · exact handleProtocolError_orderly hs _

end Backward

section Forward

variable {cx : R2Context} {env : Env} {c : R2Chan}

theorem callAnswered_orderly (h : c.Orderly) : (callAnswered cx c).Orderly := by
  have hc : (((c.cancelTimer .r2Answer).setR2State .answerRxd).setCallState .answered).Orderly :=
    ((h.cancelTimer _).setR2State id).setCallState .answered nofun fun hx => hx.elim
  exact (turnOffMfEngine_orderly hc).setAnswered.emit _

theorem handleAcceptTone_orderly (h : c.Orderly) (mode : CallMode) :
    (handleAcceptTone cx env mode c).Orderly := by
  have hr : (c.setR2State .acceptRxd).Orderly := h.setR2State id
  have hc := @callback_orderly cx env _ hr (.onCallAccepted mode)
  simp only [handleAcceptTone]
  split_ifs
  · exact hc
  · exact callAnswered_orderly hc
  · exact (hr.armTimer env _ _ .r2AnswerTimeoutExpired (by rintro ⟨⟩)).emit _

theorem handleDnisRequest_orderly (h : c.Orderly) (offset : Int) :
    (handleDnisRequest cx env offset c).Orderly := by
  simp only [handleDnisRequest]
  split_ifs
  · exact mfSendDnis_orderly (h.setDnisIndex 0) offset
  · exact mfSendDnis_orderly h offset

theorem callRejected_orderly (h : c.Orderly) (cause : DisconnectCause) : (callRejected cause c).Orderly :=
  reportCallDisconnection_orderly (h.setR2State id) cause

/-- The forward side sends its digits in a call that has got past its seize. -/
theorem handleBackwardMfSilence_orderly (h : c.Orderly) (tone : Tone) :
    (handleBackwardMfSilence cx env tone c).Orderly := by
  have he : c.mfGroup.Dials → ¬ c.Early := fun hg he => h.group he hg
  unfold handleBackwardMfSilence
  split
  · rename_i hg
    have he := he (by rw [hg]; trivial)
    unfold handleGroupARequest
    split
    · exact handleDnisRequest_orderly h _
    · split_ifs
      · exact mfSendAni_orderly h he
      · exact mfSendCategory_orderly (h.setMfGroup fun _ => he)
      · exact mfSendCategory_orderly h
      · exact mfSendCategory_orderly (h.setMfGroup fun _ => he)
      · exact handleAcceptTone_orderly h _
      · exact callRejected_orderly h _
      · exact handleProtocolError_orderly h _
  · unfold handleGroupBRequest
    split_ifs
    · exact handleAcceptTone_orderly h _
    all_goals first
      | exact callRejected_orderly h _
      | exact handleProtocolError_orderly h _
  · rename_i hg
    have he := he (by rw [hg]; trivial)
    unfold handleGroupCRequest
    split_ifs
    · exact mfSendAni_orderly h he
    · exact mfSendCategory_orderly (h.setMfGroup fun _ => he)
    · exact mfSendDnis_orderly (h.setMfGroup fun _ => he) 1
    · exact callRejected_orderly h _
    · exact handleProtocolError_orderly h _
  · exact handleProtocolError_orderly h _

theorem checkThreshold_orderly (h : c.Orderly) (tone : Tone) : (checkThreshold cx env tone c).1.Orderly := by
  have hl : ∀ d : R2Chan, d.Orderly → (toneLongEnough cx env d).1.Orderly := by
    intro d hd
    unfold toneLongEnough
    cases env.gettimeofday d.out <;> exact hd.did _
  unfold checkThreshold
  split_ifs
  · exact h
  · cases env.gettimeofday c.out with
    | none => exact h.did _
    | some now => exact hl _ ((h.did .gettimeofday).same rfl rfl rfl rfl rfl rfl rfl id)
  · exact hl c h

theorem handleMfTone_orderly (h : c.Orderly) (tone : Tone) : (handleMfTone cx env tone c).Orderly := by
  have hc := @checkThreshold_orderly cx env _ h
  have hon : ∀ d : R2Chan, d.Orderly → (handleToneOn cx env tone d).Orderly := by
    intro d hd
    have hr := hd.setMfReadTone tone
    simp only [handleToneOn]
    split
    · exact handleForwardMfTone_orderly hr tone
    · exact setSilence_orderly (hr.cancelTimer _)
    · exact handleProtocolError_orderly hr _
  have hoff : ∀ d : R2Chan, d.Orderly → (handleToneOff cx env d).Orderly := by
    intro d hd
    refine R2Chan.Orderly.setMfReadTone ?_ 0
    split
    · rename_i hb
      exact handleForwardMfSilence_orderly hd hb
    · exact handleBackwardMfSilence_orderly hd _
    · exact handleProtocolError_orderly hd _
  simp only [handleMfTone]
  split_ifs
  · exact h
  · exact handleProtocolError_orderly h _
  · exact hc tone
  · exact hon _ (hc tone)
  · exact h
  · exact hc 0
  · exact hoff _ (hc 0)

end Forward

section Cas

variable {cx : R2Context} {env : Env} {c : R2Chan}

/-- An incoming call is past its seize from the first. -/
theorem handleIncomingCall_orderly (h : c.Orderly) : (handleIncomingCall cx env c).Orderly := by
  have hi : ∀ d : R2Chan, d.mfState ≠ .offState → (incomingCall cx env d).Orderly := by
    intro d hd
    have hs : (((d.setR2State .seizeAckTxd).setCallState .collecting).setDirection .backward).Orderly :=
      .late (fun hx => (hd hx).elim) (by rintro ⟨⟩) id
    have hn := @callback_orderly cx env _ hs .onCallInit
    simp only [incomingCall]
    split_ifs
    · exact ackCall_orderly hn
    · exact hn
  simp only [handleIncomingCall]
  split_ifs
  · exact handleProtocolError_orderly (h.did _) _
  · exact hi _ (by rintro ⟨⟩)
  · split
    · exact handleProtocolError_orderly (h.did _) _
    · split
      · exact handleProtocolError_orderly ((h.did _).did _) _
      · exact hi _ (by rintro ⟨⟩)

theorem invalidCas_orderly (h : c.Orderly) (reason : ProtocolError) : (invalidCas cx env reason c).Orderly :=
  handleProtocolError_orderly (h.logRx _) _

/-- The acknowledgement takes the call past its seize, and dialling may start. -/
theorem seizeAcknowledged_orderly (h : c.Orderly) (hr : c.r2State = .seizeTxd) :
    (seizeAcknowledged cx env c).Orderly := by
  have hi : c.callState ≠ .idle := by
    rcases h.call (by rw [hr]; trivial) with hx | hx <;> rw [hx] <;> rintro ⟨⟩
  have hl : ∀ (q : TimerQueue) (g : MfGroup) (o : List Act), R2Chan.Orderly
      { c.setR2State .seizeAckRxd with timers := q, mfGroup := g, out := o } :=
    fun q g o => .late h.wired hi id
  simp only [seizeAcknowledged]
  refine R2Chan.Orderly.emit ?_ _
  split_ifs
  · obtain ⟨q, o, hf, -⟩ := armTimer_frame env .dtmfStartDial cx.timers.dtmfStartDial .startDialingDtmf
      (c.setR2State .seizeAckRxd)
    rw [hf]
    exact (hl q c.mfGroup o).armTimer env _ _ .r2AnswerTimeoutExpired (by rintro ⟨⟩)
  · refine mfSendDnis_orderly ?_ 0
    exact hl c.timers .gi _

theorem disconnection_undialled {cas : Nat} {x : Disconnection}
    (h : checkBackwardDisconnection cx cas = some x) : ¬ x.state.Undialled := by
  unfold checkBackwardDisconnection at h
  split_ifs at h
  · obtain rfl := Option.some.inj h
    exact id
  · obtain rfl := Option.some.inj h
    exact id

theorem reportOn_orderly (h : c.Orderly) (sig : CasSignal) {r : CasState} (hr : ¬ r.Undialled)
    (cause : DisconnectCause) : (reportCallDisconnection cause ((c.logRx sig).setR2State r)).Orderly :=
  reportCallDisconnection_orderly ((h.logRx sig).setR2State hr) cause

theorem hopOn_orderly (h : c.Orderly) (sig : CasSignal) {r : CasState} (hr : ¬ r.Undialled) :
    ((c.logRx sig).setR2State r).Orderly := (h.logRx sig).setR2State hr

theorem casIdle_orderly (h : c.Orderly) (cas : Nat) : (casIdle cx env cas c).Orderly := by
  unfold casIdle
  split_ifs
  · exact (h.logRx _).emit _
  · exact (h.logRx _).emit _
  · exact handleIncomingCall_orderly (h.logRx _)
  · exact invalidCas_orderly h _

theorem casSeizeTxd_orderly (h : c.Orderly) (cas : Nat)
    (hr : c.r2State = .seizeTxd ∨ c.r2State = .seizeTxdClearFwdPending) :
    (casSeizeTxd cx env cas c).Orderly := by
  have ha := (h.logRx .seizeAck).cancelTimer .r2Seize
  have hu : c.r2State.Undialled := by rcases hr with hr | hr <;> rw [hr] <;> trivial
  simp only [casSeizeTxd]
  split_ifs with h1 h2
  · exact sendClearForward_orderly ha
  · exact seizeAcknowledged_orderly ha (hr.resolve_right h2)
  · exact reportCallDisconnection_orderly (((h.logRx .seize).hold hu .doubleSeizure).cancelTimer _) _
  · exact invalidCas_orderly h _

theorem casSeizeAckRxd_orderly (h : c.Orderly) (cas : Nat) : (casSeizeAckRxd cx env cas c).Orderly := by
  have ha : (dtmfCallAnswered (c.logRx .answer)).Orderly := by
    have hc := (((h.logRx .answer).cancelTimer .r2Answer).setR2State (r := .answerRxd) id).setCallState
      .answered nofun fun hx => hx.elim
    exact hc.setAnswered.emit _
  unfold casSeizeAckRxd
  by_cases h1 : cx.dialWithDtmf = false ∧ cas = cx.casSignals .answer
  · rw [if_pos h1]
    exact hopOn_orderly h _ id
  · rw [if_neg h1]
    split
    · rename_i d hd
      exact reportOn_orderly h _ (disconnection_undialled hd) _
    · split_ifs
      · exact ha
      · exact invalidCas_orderly h _

theorem casAnswerRxd_orderly (h : c.Orderly) (cas : Nat) : (casAnswerRxd cx env cas c).Orderly := by
  have hr : ∀ (cause : DisconnectCause) (d : R2Chan), d.Orderly →
      (releaseOrPulse cx env cause d).Orderly := by
    intro cause d hd
    unfold releaseOrPulse
    split_ifs
    · exact hd.armTimer env _ _ .r2MeteringPulse nofun
    · exact reportCallDisconnection_orderly hd _
  unfold casAnswerRxd
  split_ifs
  · exact hr _ _ (hopOn_orderly h _ id)
  · exact reportOn_orderly h _ id _
  · exact hr _ _ (hopOn_orderly h _ id)
  · exact invalidCas_orderly h _

theorem casBackwardCall_orderly (h : c.Orderly) (cas : Nat) : (casBackwardCall cx env cas c).Orderly := by
  unfold casBackwardCall
  split_ifs
  · exact reportOn_orderly h _ id _
  · exact invalidCas_orderly h _

theorem casDoubleSeizure_orderly (h : c.Orderly) (cas : Nat) :
    (casDoubleSeizure cx env cas c).Orderly := by
  unfold casDoubleSeizure
  split_ifs
  · exact hopOn_orderly h _ id
  · exact reportCallEnd_orderly (h.logRx _)
  · exact invalidCas_orderly h _

theorem casDisconnectTxd_orderly (h : c.Orderly) (cas : Nat) :
    (casDisconnectTxd cx env cas c).Orderly := by
  unfold casDisconnectTxd
  split_ifs
  · exact reportCallEnd_orderly (h.logRx _)
  · exact invalidCas_orderly h _

theorem casAcceptRxd_orderly (h : c.Orderly) (cas : Nat) : (casAcceptRxd cx env cas c).Orderly := by
  unfold casAcceptRxd
  split_ifs
  · exact callAnswered_orderly (h.logRx _)
  · split
    · rename_i d hd
      exact reportOn_orderly h _ (disconnection_undialled hd) _
    · exact invalidCas_orderly h _

theorem casAwaitIdle_orderly (h : c.Orderly) (cas : Nat) : (casAwaitIdle cx env cas c).Orderly := by
  unfold casAwaitIdle
  split_ifs
  · exact reportCallEnd_orderly (h.logRx _)
  · exact invalidCas_orderly h _

theorem casClearFwdTxd_orderly (h : c.Orderly) (cas : Nat) : (casClearFwdTxd cx env cas c).Orderly := by
  unfold casClearFwdTxd
  split_ifs
  · exact reportCallEnd_orderly (h.logRx _)
  · split
    · exact hopOn_orderly h _ id
    · exact invalidCas_orderly h _

theorem casReleaseRxd_orderly (h : c.Orderly) (cas : Nat) : (casReleaseRxd cx env cas c).Orderly := by
  unfold casReleaseRxd
  split_ifs
  · exact (((h.logRx _).cancelTimer _).setR2State id).emit _
  · exact invalidCas_orderly h _

theorem casBlocked_orderly (h : c.Orderly) (cas : Nat) : (casBlocked cx cas c).Orderly := by
  unfold casBlocked
  split_ifs
  · exact (h.logRx _).emit _
  · exact h.logRx _

theorem casInit_orderly (h : c.Orderly) (cas : Nat) : (casInit cx env cas c).Orderly := by
  unfold casInit
  split_ifs
  · exact (h.logRx _).emit _
  · exact (h.logRx _).emit _
  · exact invalidCas_orderly h _

theorem casSwitch_orderly (h : c.Orderly) (cas : Nat) : (casSwitch cx env cas c).Orderly := by
  unfold casSwitch
  split
  all_goals rename_i hs
  · exact casIdle_orderly h cas
  · exact casBackwardCall_orderly h cas
  · exact casBackwardCall_orderly h cas
  · exact casBackwardCall_orderly h cas
  · exact casSeizeTxd_orderly h cas (.inl hs)
  · exact casSeizeTxd_orderly h cas (.inr hs)
  · exact casDoubleSeizure_orderly h cas
  · exact casDoubleSeizure_orderly h cas
  · exact casDisconnectTxd_orderly h cas
  · exact casDisconnectTxd_orderly h cas
  · exact casAcceptRxd_orderly h cas
  · exact casSeizeAckRxd_orderly h cas
  · exact casAnswerRxd_orderly h cas
  · exact casAnswerRxd_orderly h cas
  · exact casAwaitIdle_orderly h cas
  · exact casAwaitIdle_orderly h cas
  · exact casClearFwdTxd_orderly h cas
  · exact casReleaseRxd_orderly h cas
  · exact casReleaseRxd_orderly h cas
  · exact casBlocked_orderly h cas
  · exact casInit_orderly h cas
  · exact invalidCas_orderly h _
  · exact invalidCas_orderly h _

theorem R2Chan.Orderly.polled {d : R2Chan} (h : c.Orderly) (hp : c.Polled d) : d.Orderly := by
  obtain ⟨⟨raw, p, hf⟩, ⟨ops, ht, ho⟩, -⟩ := hp
  have hx : .startDialingDtmf ∈ d.pending → .startDialingDtmf ∈ c.pending := by
    intro hm
    unfold R2Chan.pending at hm
    rw [ht] at hm
    refine (TimerQueue.pending_applyAll (fun op hx => TimerQueue.Checks.proper (ho op hx)) hm).resolve_right ?_
    intro hx
    obtain ⟨op, hop, hc⟩ := List.mem_filterMap.mp hx
    have hk := ho op hop
    cases op with
    | arm slot now ms callback =>
      obtain ⟨rfl, -⟩ := hk
      exact absurd hc (show some TimerCallback.persistenceCheckExpired ≠ some .startDialingDtmf by decide)
    | add now ms callback => exact hk.elim
    | cancel slot => simp [TimerOp.purpose?] at hc
    | cancelAll => simp [TimerOp.purpose?] at hc
    | mark slot id =>
      obtain ⟨rfl, -⟩ := hk
      exact absurd hc (show some TimerCallback.persistenceCheckExpired ≠ some .startDialingDtmf by decide)
  generalize d.timers = q at hf hx
  generalize d.out = o at hf
  subst hf
  exact h.same rfl rfl rfl rfl rfl rfl rfl hx

theorem handleCas_orderly (h : c.Orderly) : (handleCas cx env c).Orderly := by
  rcases handleCas_cases cx env c with ⟨-, hp⟩ | ⟨cas, d, -, ⟨hp, -⟩, he⟩
  · exact h.polled hp
  · rw [he]
    exact casSwitch_orderly ((h.polled hp).setCasRead cas) cas

theorem persistenceCheckExpired_orderly (h : c.Orderly) : (persistenceCheckExpired cx env c).Orderly := by
  rcases persistenceCheckExpired_cases cx env c with ⟨-, hp⟩ | ⟨cas, d, -, ⟨hp, -⟩, he⟩
  · exact h.polled hp
  · rw [he]
    exact casSwitch_orderly ((h.polled hp).setCasRead cas) cas

theorem handleAlarmState_orderly (h : c.Orderly) : (handleAlarmState cx env c).Orderly := by
  unfold handleAlarmState
  split_ifs
  · exact (handleProtocolError_orderly h _).forgetLine
  · exact h.forgetLine
  · exact handleCas_orderly (setIdle_orderly h)
  · exact handleCas_orderly (setBlocked_orderly h)

/-- DTMF is dialled by a timer that waits only past the seize. -/
theorem expire_orderly (h : c.Orderly) (id : Nat) : (expire cx env id c).Orderly := by
  have hr : (c.mapTimers (·.removeId id)).Orderly := h.mapTimers fun hx => pending_removeId id c.timers hx
  unfold expire
  cases ht : c.timer? id with
  | none => exact h
  | some t =>
    have hm : t.callback ∈ c.pending := List.mem_map.mpr ⟨t, List.mem_of_find?_eq_some ht, rfl⟩
    cases hcb : t.callback with
    | mfFwdSafetyTimeoutExpired => simp only [hcb, runTimer]; exact handleProtocolError_orderly hr _
    | mfBackCycleTimeoutExpired => simp only [hcb, runTimer]; exact mfBackCycleTimeoutExpired_orderly hr
    | mfBackResumeCycle => simp only [hcb, runTimer]; exact setSilence_orderly hr
    | seizeTimeoutExpired => simp only [hcb, runTimer]; exact handleProtocolError_orderly hr _
    | r2SeizePersistExpired => simp only [hcb, runTimer]; exact sendClearForward_orderly hr
    | r2AnswerTimeoutExpired => simp only [hcb, runTimer]; exact reportCallDisconnection_orderly hr _
    | readyToAnswer => simp only [hcb, runTimer]; exact hr.emit _
    | doubleAnswerHandler => simp only [hcb, runTimer]; exact doubleAnswerHandler_orderly hr
    | r2MeteringPulse => simp only [hcb, runTimer]; exact r2MeteringPulse_orderly hr
    | r2SetCallDown => simp only [hcb, runTimer]; exact reportCallEnd_orderly hr
    | persistenceCheckExpired => simp only [hcb, runTimer]; exact persistenceCheckExpired_orderly hr
    | startDialingDtmf =>
      simp only [hcb, runTimer]
      exact startDialingDtmf_orderly fun he => h.timer he (hcb ▸ hm)

end Cas

section Media

variable {cx : R2Context} {env : Env} {c : R2Chan} {m : MediaChan}

theorem handleDtmfEnd_orderly (h : c.Orderly) : (handleDtmfEnd cx env c).Orderly := by
  have ht := @turnOffMfEngine_orderly cx _ h
  simp only [handleDtmfEnd]
  split_ifs
  · exact ht.emit _
  · exact offerCall_orderly (ht.same rfl rfl rfl rfl rfl rfl rfl id)

theorem receiveDtmfDigit_orderly (h : c.Orderly) (digit : Tone) : (receiveDtmfDigit cx env digit c).Orderly := by
  have hs := h.did (.storeDnis c.dnisLen digit)
  have hc := @callback_orderly cx env _
    (hs.same (d := { c.did (.storeDnis c.dnisLen digit) with
      dnis := (c.dnis.set c.dnisLen digit).set (c.dnisLen + 1) 0, dnisLen := c.dnisLen + 1 })
      rfl rfl rfl rfl rfl rfl rfl id) (.onDnisDigitReceived digit)
  simp only [receiveDtmfDigit]
  split_ifs
  · exact hc
  · exact hc.same rfl rfl rfl rfl rfl rfl rfl id

/-- The digits of a report. -/
theorem receiveEach_orderly (ds : List Tone) (h : c.Orderly) :
    (ds.foldl (fun c digit => receiveDtmfDigit cx env digit c) c).Orderly := by
  induction ds generalizing c with
  | nil => exact h
  | cons digit ds ih => exact ih (receiveDtmfDigit_orderly h digit)

theorem receiveDtmfDigits_orderly (h : c.Orderly) (digits : List Tone) :
    (receiveDtmfDigits cx env digits c).Orderly := by
  unfold receiveDtmfDigits
  split_ifs
  · exact receiveEach_orderly _ h
  · exact h

/-- The reports of the detector. -/
theorem reportEach_orderly (l : List (Option (List Tone))) (h : m.chan.Orderly) :
    (l.foldl (fun m digits => onDtmfReceived cx env digits m) m).chan.Orderly := by
  induction l generalizing m with
  | nil => exact h
  | cons digits l ih =>
    refine ih ?_
    cases digits with
    | none => exact h
    | some digits => exact receiveDtmfDigits_orderly h digits

theorem handleRead_orderly (h : m.chan.Orderly) (x : Heard) : (handleRead cx env x m).chan.Orderly := by
  unfold handleRead
  split_ifs
  · exact h
  · have hx := @reportEach_orderly cx env m x.dtmfDigits h
    simp only [detectDtmf, dtmfSilence]
    split_ifs
    · exact hx
    · exact handleDtmfEnd_orderly hx
    · exact hx
  · cases x.mfTone with
    | none => exact h
    | some tone => exact handleMfTone_orderly h tone

/-- What one input keeps. -/
theorem mediaStep_orderly (h : m.chan.Orderly) (i : MediaInput) : (mediaStep cx env i m).chan.Orderly := by
  cases i with
  | cas => exact handleCas_orderly h.start
  | read x => exact handleRead_orderly (m := m.on R2Chan.start) h.start x
  | write sent =>
    simp only [mediaStep, MediaChan.on, handleWrite]
    split_ifs
    · exact handleDtmfEnd_orderly h.start
    · exact h.start
  | timer id => exact expire_orderly h.start id
  | api a => exact apiCall_orderly h.start a
  | alarm on =>
    refine handleAlarmState_orderly (R2Chan.Orderly.emit ?_ _)
    exact h.start.same rfl rfl rfl rfl rfl rfl rfl id

/-- What a whole run keeps. -/
theorem mediaRun_orderly (h : m.chan.Orderly) (ts : List MediaTick) : (mediaRun cx ts m).1.chan.Orderly :=
  Runs.exec_invariant (f := mediaTick cx) (P := fun m => m.chan.Orderly)
    (fun _ t _ h => mediaStep_orderly h t.input) ts m (Runs.Along.of_forall (p := fun _ => True) ts m fun _ _ => trivial) h

end Media

end OpenR2
