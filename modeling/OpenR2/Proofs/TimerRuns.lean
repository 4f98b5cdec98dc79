import OpenR2.Proofs.Polling
import OpenR2.Proofs.Blocked

namespace OpenR2

variable {cx : R2Context} {env : Env} {c d e : R2Chan} {l : List TimerCallback}

/-- The timers are changed by proper operations alone, and the line is not seized. -/
structure Serviced (c d : R2Chan) : Prop where
  timers : ∃ ops : List TimerOp, d.timers = c.timers.applyAll ops ∧ ∀ op ∈ ops, op.Proper
  seize : d.r2State = .seizeTxd → c.r2State = .seizeTxd

namespace Serviced

theorem refl (c : R2Chan) : Serviced c c := ⟨⟨[], rfl, by simp⟩, id⟩

theorem trans (h : Serviced c d) (h' : Serviced d e) : Serviced c e := by
  obtain ⟨⟨ops, ht, hp⟩, hs⟩ := h
  obtain ⟨⟨ops', ht', hp'⟩, hs'⟩ := h'
  refine ⟨⟨ops ++ ops', ?_, ?_⟩, fun hx => hs (hs' hx)⟩
  · rw [ht', ht]
    exact (List.foldl_append).symm
  · intro op ho
    exact (List.mem_append.mp ho).elim (hp op) (hp' op)

theorem same (ht : d.timers = c.timers) (hs : d.r2State = c.r2State) : Serviced c d :=
  ⟨⟨[], ht, by simp⟩, fun h => hs ▸ h⟩

theorem kept (h : Serviced c d) (hk : c.timers.Kept) : d.timers.Kept := by
  obtain ⟨⟨ops, ht, hp⟩, -⟩ := h
  rw [ht]
  exact hk.applyAll hp

end Serviced

theorem Schedules.serviced (h : Schedules l c d) (hl : .seizeTimeoutExpired ∉ l) : Serviced c d :=
  ⟨h.timers.imp fun _ ho => ⟨ho.1, ho.2.1⟩, fun hd => (h.seize hd).resolve_right hl⟩

section Steps

theorem handleCas_serviced (hm : cx.Mfc) (hq : env.Quiet) (c : R2Chan) : Serviced c (handleCas cx env c) := by
  refine (@handleCas_schedules cx env c [] fun e d => callback_schedules cx env d hq e).serviced ?_
  unfold casTimers
  cases (casPattern cx env c).2 with
  | none => simp
  | some cas =>
    simp only [lineTimers, hm.dial]
    cases (casPattern cx env c).1.r2State <;> simp [sendTimers]

theorem persistenceCheckExpired_serviced (hm : cx.Mfc) (hq : env.Quiet) (c : R2Chan) :
    Serviced c (persistenceCheckExpired cx env c) := by
  have h0 : Serviced c (c.mapTimers (·.setSlot .casPersistenceCheck 0)) :=
    (Schedules.one (.mark .casPersistenceCheck 0) (show (0 : Int) ≤ 0 by decide) c).serviced
      (by simp [TimerOp.purpose?, TimerSlot.purpose])
  have hg : ∀ d : R2Chan, Serviced d (ioGetCas env d).1 := fun d =>
    ioGetCas_schedules.serviced List.not_mem_nil
  have hi := h0.trans (hg _)
  unfold persistenceCheckExpired
  generalize ioGetCas env (c.mapTimers (·.setSlot .casPersistenceCheck 0)) = r at hi
  obtain ⟨d, p⟩ := r
  cases p with
  | none => exact hi
  | some raw =>
    dsimp only at hi ⊢
    split_ifs
    · exact hi.trans (handleCas_serviced hm hq d)
    · exact hi.trans ((checkPersistence_schedules _).serviced (by simp))
    · exact hi.trans (.same rfl rfl)

theorem runTimer_serviced (hm : cx.Mfc) (hq : env.Quiet) (cb : TimerCallback) (c : R2Chan) :
    Serviced c (runTimer cx env cb c) := by
  cases cb with
  | mfFwdSafetyTimeoutExpired => exact (handleProtocolError_schedules cx env c _).serviced (by simp)
  | mfBackCycleTimeoutExpired =>
    refine (mfBackCycleTimeoutExpired_schedules cx env c).serviced ?_
    split_ifs <;> simp
  | mfBackResumeCycle => exact (setSilence_schedules cx env c).serviced (by simp)
  | seizeTimeoutExpired => exact (handleProtocolError_schedules cx env c _).serviced (by simp)
  | r2SeizePersistExpired =>
    refine (sendClearForward_schedules cx env c).serviced ?_
    split_ifs <;> simp
  | r2AnswerTimeoutExpired => exact (reportCallDisconnection_schedules c _).serviced (by simp)
  | readyToAnswer => exact (Schedules.emit _ c).serviced (by simp)
  | doubleAnswerHandler => exact (doubleAnswerHandler_schedules cx env c).serviced (by simp)
  | r2MeteringPulse => exact (r2MeteringPulse_schedules c).serviced (by simp)
  | r2SetCallDown => exact (reportCallEnd_schedules cx env c).serviced (by simp)
  | persistenceCheckExpired => exact persistenceCheckExpired_serviced hm hq c
  | startDialingDtmf => exact (startDialingDtmf_schedules c).serviced (by simp)

theorem handleMedia_serviced (hq : env.Quiet) (tone : Tone) (c : R2Chan) :
    Serviced c (handleMedia cx env tone c) := by
  have he : ∀ (r : ProtocolError) (d : R2Chan), Serviced d (handleProtocolError cx env r d) := fun r d =>
    (handleProtocolError_schedules cx env d r).serviced (by simp)
  have hon : ∀ d : R2Chan, Serviced d (handleToneOn cx env tone d) := by
    intro d
    have hd : Serviced d (d.setMfReadTone tone) := .same rfl rfl
    have hx : ∀ (e : R2Chan) (slot), Serviced e (e.cancelTimer slot) := fun e slot =>
      (Schedules.cancelTimer slot e).serviced (by simp)
    simp only [handleToneOn]
    split
    · exact (hd.trans (hx _ .mfBackCycle)).trans
        ((handleForwardMfTone_schedules cx env (d.setMfReadTone tone) hq tone).serviced (by simp [askTimers]))
    · exact (hd.trans (hx _ .mfFwdSafety)).trans ((setSilence_schedules cx env _).serviced (by simp))
    · exact hd.trans (he _ _)
  have hoff : ∀ d : R2Chan, Serviced d (handleToneOff cx env d) := by
    intro d
    have hz : ∀ e : R2Chan, Serviced e (e.setMfReadTone 0) := fun e => .same rfl rfl
    simp only [handleToneOff]
    split
    · exact ((handleForwardMfSilence_schedules cx env d).serviced (by simp)).trans (hz _)
    · refine Serviced.trans ((handleBackwardMfSilence_schedules hq).serviced ?_) (hz _)
      unfold silenceTimers
      split_ifs <;> simp [sendTimers]
    · exact (he _ _).trans (hz _)
  have hk : Serviced c (checkThreshold cx env tone c).1 :=
    (checkThreshold_schedules cx env c tone).serviced (by simp)
  simp only [handleMedia, handleMfTone]
  split_ifs with h0 h1 h2 h3 h4 h5 h6
  · exact .refl c
  · exact .refl c
  · exact he _ c
  · exact hk
  · exact hk.trans (hon _)
  · exact .refl c
  all_goals obtain rfl : tone = 0 := not_not.mp h1
  · exact hk
  · exact hk.trans (hoff _)

theorem handleAlarm_serviced (hm : cx.Mfc) (hq : env.Quiet) (on : Bool) (c : R2Chan) :
    Serviced c (handleAlarm cx env on c) := by
  have he : Serviced c ((c.setInalarm on).emit (.onHardwareAlarm on)) := .same rfl rfl
  have hf : ∀ d : R2Chan, Serviced d (forgetLine d) := fun d => .same rfl rfl
  have hi : ∀ d : R2Chan, Serviced d (setIdle cx env d).1 := fun d =>
    (setIdle_schedules cx env d).serviced (by simp)
  have hb : ∀ d : R2Chan, Serviced d (setBlocked cx env d).1 := fun d =>
    (setBlocked_schedules cx env d).serviced (by simp)
  simp only [handleAlarm, handleAlarmState]
  generalize (c.setInalarm on).emit (.onHardwareAlarm on) = d at he
  split_ifs
  · exact he.trans (((handleProtocolError_schedules cx env d _).serviced (by simp)).trans (hf _))
  · exact he.trans (hf d)
  · exact he.trans ((hi d).trans (handleCas_serviced hm hq _))
  · exact he.trans ((hb d).trans (handleCas_serviced hm hq _))

theorem apiCall_serviced (hm : cx.Mfc) (a : ApiCall) (hn : ¬ (Input.api a).IsMakeCall) (c : R2Chan) :
    Serviced c (apiCall cx env a c).1 := by
  cases a with
  | makeCall ani dnis category restricted => exact absurd trivial hn
  | acceptCall mode =>
    refine (acceptCall_schedules cx env c hm mode).serviced ?_
    split_ifs <;> simp [askTimers]
  | answerCall =>
    refine (answerCall_schedules cx env c _ (.inl rfl)).serviced ?_
    split_ifs <;> simp
  | answerCallWithMode mode =>
    refine (answerCall_schedules cx env c _ (.inr ⟨mode, rfl⟩)).serviced ?_
    split_ifs <;> simp
  | disconnectCall cause =>
    simp only [apiCall, disconnectCall]
    split_ifs
    · exact .refl c
    · refine (disconnectBackward_schedules cx env c hm cause).serviced ?_
      split_ifs <;> simp [askTimers]
    · refine (disconnectForward_schedules cx env c).serviced ?_
      unfold clearTimers
      split_ifs <;> simp
  | ackCall => exact (ackCall_schedules cx env c).serviced (by simp)
  | setIdle => exact (setIdle_schedules cx env c).serviced (by simp)
  | setBlocked => exact (setBlocked_schedules cx env c).serviced (by simp)

/-- Every input but a new call services the channel on which it finds the timers. -/
theorem step_serviced (hm : cx.Mfc) (hq : env.Quiet) (i : Input) (hn : ¬ i.IsMakeCall) (c : R2Chan) :
    Serviced (c.called i).start (step cx env i c) := by
  cases i with
  | cas => exact handleCas_serviced hm hq c.start
  | mfTone tone => exact handleMedia_serviced hq tone c.start
  | timer id =>
    simp only [step, expire]
    cases ht : c.start.timer? id with
    | none =>
      have ht : c.timer? id = none := ht
      simp only [R2Chan.called, ht, Option.isSome_none, Bool.false_eq_true, if_false]
      exact .refl _
    | some t =>
      have ht : c.timer? id = some t := ht
      simp only [R2Chan.called, ht, Option.isSome_some, if_true]
      exact runTimer_serviced hm hq t.callback _
  | api a => exact apiCall_serviced hm a hn c.start
  | alarm on => exact handleAlarm_serviced hm hq on c.start

end Steps

section Kept

theorem called_kept (i : Input) (h : c.timers.Kept) : (c.called i).timers.Kept := by
  unfold R2Chan.called
  split
  · split_ifs
    · exact h.removeId _
    · exact h
  · exact h

end Kept

end OpenR2
