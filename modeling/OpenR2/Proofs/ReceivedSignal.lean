import OpenR2.Proofs.LineMemory

namespace OpenR2

section Runs

variable {cx : R2Context} {env : Env} {c : R2Chan}

theorem ioGetCas_named (h : c.Named cx) : (ioGetCas env c).1.Named cx := by
  unfold ioGetCas
  split
  · exact h
  · exact h

theorem checkPersistence_named (h : c.Named cx) (cas : Nat) : (checkPersistence cx env cas c).Named cx := by
  have hp : (c.setPersistence (some cas)).Named cx := h
  unfold checkPersistence armTimer addTimer
  generalize c.setPersistence (some cas) = d at hp
  cases env.gettimeofday d.out with
  | none => exact hp
  | some now => exact hp

theorem pollCas_named (h : c.Named cx) : (pollCas cx env c).1.Named cx := by
  have hg : (ioGetCas env c).1.Named cx := ioGetCas_named h
  unfold pollCas
  generalize ioGetCas env c = r at hg
  obtain ⟨d, raw⟩ := r
  dsimp only at hg ⊢
  split
  · exact hg
  · split_ifs
    · exact hg
    · exact hg
    · have hc : (d.cancelTimer .casPersistenceCheck).Named cx := hg
      exact checkPersistence_named hc _
    · exact hg

theorem casPattern_named (h : c.Named cx) : (casPattern cx env c).1.Named cx := by
  unfold casPattern
  split
  · exact pollCas_named h
  · split
    · exact h
    · exact pollCas_named h

theorem handleCas_named (hi : cx.casSignals .clearForward = cx.casSignals .idle) (h : c.Named cx) :
    (handleCas cx env c).Named cx := by
  have hp : (casPattern cx env c).1.Named cx := casPattern_named h
  unfold handleCas
  dsimp only
  split
  · exact hp
  · next cas _ =>
    unfold actOnCas
    split
    · exact hp
    · exact (casSwitch_blindly hi rfl).2.2 (.inl rfl)

theorem persistenceCheckExpired_named (hi : cx.casSignals .clearForward = cx.casSignals .idle)
    (h : c.Named cx) : (persistenceCheckExpired cx env c).Named cx := by
  have hg : (ioGetCas env (c.mapTimers (·.setSlot .casPersistenceCheck 0))).1.Named cx :=
    ioGetCas_named h
  unfold persistenceCheckExpired
  generalize ioGetCas env (c.mapTimers (·.setSlot .casPersistenceCheck 0)) = r at hg
  obtain ⟨d, raw⟩ := r
  dsimp only at hg ⊢
  split
  · exact hg
  · split_ifs
    · exact handleCas_named hi hg
    · exact checkPersistence_named hg _
    · exact hg

theorem handleAlarmState_named (hi : cx.casSignals .clearForward = cx.casSignals .idle)
    (h : c.Named cx) : (handleAlarmState cx env c).Named cx := by
  unfold handleAlarmState
  split_ifs
  · exact .inl rfl
  · exact .inl rfl
  · exact handleCas_named hi ((R2Chan.Blindly.refl cx c).setIdle.2.2 h)
  · exact handleCas_named hi ((R2Chan.Blindly.refl cx c).setBlocked.2.2 h)

theorem step_named (hi : cx.casSignals .clearForward = cx.casSignals .idle) (h : c.Named cx) (i : Input) :
    (step cx env i c).Named cx := by
  have hs : c.start.Named cx := h
  unfold step
  generalize c.start = d at hs
  have hw : R2Chan.Blindly cx d d := .refl cx d
  dsimp only
  cases i with
  | cas => exact handleCas_named hi hs
  | mfTone tone => exact (handleMedia_blindly hw tone).2.2 hs
  | timer id =>
    unfold expire
    dsimp only
    split
    · exact hs
    · next t _ =>
      have hr : (d.mapTimers (·.removeId id)).Named cx := hs
      by_cases hc : t.callback = .persistenceCheckExpired
      · rw [hc]
        exact persistenceCheckExpired_named hi hr
      · exact (runTimer_blindly (.refl cx _) hc).2.2 hr
  | api a => exact (hw.apiCall a).2.2 hs
  | alarm on =>
    have ha : ((d.setInalarm on).emit (.onHardwareAlarm on)).Named cx := hs
    exact handleAlarmState_named hi ha

theorem mediaStep_named (hi : cx.casSignals .clearForward = cx.casSignals .idle) {m : MediaChan}
    (h : m.chan.Named cx) (i : MediaInput) : (mediaStep cx env i m).chan.Named cx := by
  have hw : R2Chan.Blindly cx m.chan.start m.chan.start := .refl cx _
  have hs : m.chan.start.Named cx := h
  cases i with
  | cas => exact step_named hi h .cas
  | read x => exact (handleRead_blindly (m.on R2Chan.start) hw x).2.2 hs
  | write sent => exact (handleWrite_blindly hw sent).2.2 hs
  | timer id => exact step_named hi h (.timer id)
  | api a => exact step_named hi h (.api a)
  | alarm on => exact step_named hi h (.alarm on)

/-- In every run of a new channel, of MFC or of DTMF signalling, with callbacks of any kind,
the received signal is unknown or has the pattern that was read. Every context has the
standard patterns. -/
theorem received_signal_named (hs : cx.casSignals = standardCasSignals) (ts : List MediaTick) :
    let c := (mediaRun cx ts MediaChan.new).1.chan
    c.casRxSignal = .invalid ∨ cx.casSignals c.casRxSignal = c.casRead := by
  have hi : cx.casSignals .clearForward = cx.casSignals .idle := by
    rw [hs]
    rfl
  exact Runs.exec_invariant (f := mediaTick cx) (P := fun m : MediaChan => m.chan.Named cx)
    (fun _ t _ h => mediaStep_named hi h t.input) ts MediaChan.new
    (Runs.Along.always (fun _ _ => trivial) ts _) (.inl rfl)

theorem received_signal_named_seize :
    let cx := configureItu 10 10 R2Context.zero
    let c := (mediaRun cx [⟨Env.fair 0x8, .api .setIdle⟩, ⟨Env.fair 0x0, .cas⟩] MediaChan.new).1.chan
    c.casRxSignal = .invalid ∨ cx.casSignals c.casRxSignal = c.casRead :=
  received_signal_named rfl _

end Runs

end OpenR2
