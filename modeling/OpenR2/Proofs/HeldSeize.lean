import OpenR2.Proofs.HangUp
import OpenR2.Proofs.Sides

namespace OpenR2

/-- The seize is on the line and has not been acknowledged. -/
def CasState.SeizeHeld (r : CasState) : Prop := r = .seizeTxd ∨ r = .seizeTxdClearFwdPending

/-- A glare has been detected. -/
def CasState.GlareHeld (r : CasState) : Prop := r = .doubleSeizure ∨ r = .doubleSeizureClearFwdPending

/-- A channel that transmits its seize and waits. -/
structure R2Chan.HoldsSeize (c : R2Chan) : Prop where
  direction : c.direction = .forward
  callState : c.callState = .dialing ∨ c.callState = .disconnected
  mfGroup : c.mfGroup = .fwdInit
  kept : c.timers.Kept
  phase : (c.r2State.SeizeHeld ∧ ∀ t ∈ c.timers.schedTimers, t.callback = .persistenceCheckExpired ∨
      t.callback = .seizeTimeoutExpired ∧ c.timers.timerIds .r2Seize = t.id) ∨
    c.r2State.GlareHeld ∧ ∀ t ∈ c.timers.schedTimers, t.callback = .persistenceCheckExpired ∨
      t.callback = .r2SeizePersistExpired
  signal : c.casTxSignal = .seize

section Hold

variable {cx : R2Context} {env : Env} {c d : R2Chan}

theorem R2Chan.HoldsSeize.polled (h : c.HoldsSeize) (hp : c.Polled d) : d.HoldsSeize := by
  obtain ⟨⟨raw, p, hf⟩, ⟨ops, ht, ho⟩, -⟩ := hp
  obtain ⟨hk, -, hn, hs⟩ := h.kept.checks ho
  rw [← ht] at hk hn hs
  have hphase := h.phase
  obtain ⟨hd, hc, hm, -, -, hsig⟩ := h
  generalize d.timers = q at hf ht hk hn hs
  generalize d.out = o at hf
  subst hf
  refine ⟨hd, hc, hm, hk, ?_, hsig⟩
  rcases hphase with ⟨hr, hx⟩ | ⟨hr, hx⟩
  · refine .inl ⟨hr, fun t ht => ?_⟩
    rcases hn t ht with ht | ht
    · refine (hx t ht).imp_right fun hx => ⟨hx.1, ?_⟩
      exact (hs .r2Seize nofun).trans hx.2
    · exact .inl ht
  · refine .inr ⟨hr, fun t ht => ?_⟩
    rcases hn t ht with ht | ht
    · exact hx t ht
    · exact .inl ht

/-- A timer leaves to be called. -/
theorem R2Chan.HoldsSeize.called (h : c.HoldsSeize) (i : Input) : (c.called i).start.HoldsSeize := by
  have hs : c.start.HoldsSeize := ⟨h.direction, h.callState, h.mfGroup, h.kept, h.phase, h.signal⟩
  unfold R2Chan.called
  split
  · split_ifs
    · have hsub : ∀ (id : Int), ∀ t ∈ (c.timers.removeId id).schedTimers, t ∈ c.timers.schedTimers :=
        fun id t ht => List.mem_of_mem_eraseP ht
      refine ⟨h.direction, h.callState, h.mfGroup, h.kept.removeId _, ?_, h.signal⟩
      exact h.phase.imp (fun hx => ⟨hx.1, fun t ht => hx.2 t (hsub _ t ht)⟩)
        fun hx => ⟨hx.1, fun t ht => hx.2 t (hsub _ t ht)⟩
    · exact hs
  · exact hs

end Hold

section Runs

variable {cx : R2Context} {env : Env} {c : R2Chan}

end Runs

end OpenR2
