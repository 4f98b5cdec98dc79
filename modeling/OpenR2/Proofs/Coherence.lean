import OpenR2.Proofs.StepMoves

namespace OpenR2

/-- The call states of each direction. -/
def CallState.Fits : CallState → Direction → Prop
  | .idle, .stopped | .dialing, .forward | .collecting, .backward | .offered, .backward
  | .accepted, .backward | .answered, .forward | .answered, .backward
  | .disconnected, .forward | .disconnected, .backward => True
  | _, _ => False

/-- The line states of each direction. A cleared glare is a forward call in a
state that incoming calls have as well. -/
def CasState.Fits (r : CasState) : Direction → Prop
  | .stopped => r = .init ∨ r = .idle ∨ r = .blocked
  | .forward => r.Forward ∨ r = .clearFwdRxd
  | .backward => r.Backward ∨ r = .clearFwdRxd

def MfState.Fits (m : MfState) : Direction → Prop
  | .stopped => m = .offState
  | .forward => m = .offState ∨ m.Forward
  | .backward => m = .offState ∨ m.Backward

def MfGroup.Fits (g : MfGroup) : Direction → Prop
  | .stopped => g = .noGroup
  | .forward => g.Forward
  | .backward => g.Backward

namespace Control

/-- The five state fields and the timer queue tell of one and the same call. -/
structure Coherent (k : Control) : Prop where
  call : k.callState.Fits k.direction
  line : k.r2State.Fits k.direction
  mf : k.mfState.Fits k.direction
  group : k.mfGroup.Fits k.direction
  answered : k.direction = .stopped → k.answered = false
  timers : ∀ cb ∈ k.pending, cb.Serves k.direction

variable {k : Control}

theorem Coherent.forward (h : k.Coherent) (hk : k.Forward) : k.direction = .forward := by
  obtain ⟨hc, hl, -, -, -, -⟩ := h
  cases hd : k.direction with
  | forward => rfl
  | stopped =>
    simp only [hd] at hc hl
    rcases hk with hk | hk | ⟨-, hk⟩
    · simp [hd] at hk
    · rcases hl with hl | hl | hl <;> simp [hl, CasState.Forward] at hk
    · cases hs : k.callState <;> simp_all [CallState.Fits]
  | backward =>
    simp only [hd] at hl
    rcases hk with hk | hk | ⟨hk, -⟩
    · simp [hd] at hk
    · cases hr : k.r2State <;> simp_all [CasState.Forward, CasState.Fits, CasState.Backward]
    · exact absurd hd hk

theorem Coherent.backward (h : k.Coherent) (hk : k.Backward) : k.direction = .backward := by
  obtain ⟨hc, hl, -, hg, -, -⟩ := h
  rcases hk with hk | hk | hk | hk
  · exact hk
  · cases hd : k.direction <;> cases hr : k.r2State <;>
      simp_all [CasState.Forward, CasState.Fits, CasState.Backward]
  · cases hd : k.direction <;> cases hr : k.mfGroup <;>
      simp_all [MfGroup.Forward, MfGroup.Fits, MfGroup.Backward]
  · cases hd : k.direction <;> cases hr : k.callState <;>
      simp_all [CallState.Fits, CallState.Incoming]

theorem Coherent.drop (h : k.Coherent) {p : List TimerCallback} (hp : p ⊆ k.pending) :
    Coherent { k with pending := p } :=
  ⟨h.call, h.line, h.mf, h.group, h.answered, fun cb hcb => h.timers cb (hp hcb)⟩

theorem Coherent.marked (h : k.Coherent) (ms : List Mark) : (k.marked ms).Coherent :=
  ⟨h.call, h.line, h.mf, h.group, h.answered, h.timers⟩

theorem coherent_reset (k : Control) {r : CasState} (tx : CasSignal)
    (hr : r = .init ∨ r = .idle ∨ r = .blocked) : (k.reset r tx).Coherent :=
  ⟨trivial, hr, rfl, rfl, fun _ => rfl, by simp [Control.reset]⟩

/-- A new line state of the same direction. -/
theorem Coherent.hop (h : k.Coherent) {r : CasState} (hr : r.Fits k.direction) :
    Coherent { k with r2State := r } :=
  ⟨h.call, hr, h.mf, h.group, h.answered, h.timers⟩

/-- Every hop stays among the line states of the call's direction. -/
theorem hop_fits (h : k.Coherent) {r : CasState} (hr : Hop k r) : r.Fits k.direction := by
  have hf : k.r2State.Forward → r.Forward ∨ r = .clearFwdRxd → r.Fits k.direction := by
    intro hk hr
    rw [h.forward (.inr (.inl hk))]
    exact hr
  cases hr with
  | clearFwdRxd hk =>
    rcases hk with hk | hk | hk | hk
    · rw [h.backward (.inr (.inl (by rw [hk]; trivial)))]; exact .inr rfl
    · rw [h.backward (.inr (.inl (by rw [hk]; trivial)))]; exact .inr rfl
    · rw [h.backward (.inr (.inl (by rw [hk]; trivial)))]; exact .inr rfl
    · exact hf (by rw [hk]; trivial) (.inr rfl)
  | glare hk => exact hf (by rcases hk with hk | hk <;> rw [hk] <;> trivial) (.inl trivial)
  | seizeAck hk => exact hf (by rw [hk]; trivial) (.inl trivial)
  | holdSeize hk => exact hf (by rw [hk]; trivial) (.inl trivial)
  | holdGlare hk => exact hf (by rw [hk]; trivial) (.inl trivial)
  | release _ hk hr =>
    refine hf (by rcases hk with hk | hk | hk | hk <;> rw [hk] <;> trivial) (.inl ?_)
    rcases hr with rfl | rfl <;> trivial
  | earlyAnswer hk => exact hf (by rw [hk]; trivial) (.inl trivial)
  | lateRelease hk => exact hf (by rw [hk]; trivial) (.inl trivial)
  | tone _ hd _ hr =>
    rw [hd]
    rcases hr with rfl | rfl <;> exact .inl trivial

/-- What one move preserves. -/
theorem Coherent.move {cx : R2Context} {sound : Prop} {s : Stimulus} {k' : Control}
    (h : k.Coherent) (hm : Move cx sound s k k') : k'.Coherent := by
  cases hm with
  | reset => exact coherent_reset k .idle (.inr (.inl rfl))
  | block => exact coherent_reset k .block (.inr (.inr rfl))
  | notify => exact h.marked _
  | drop p hp => exact h.drop hp
  | arm cb d p hk hs _ hp =>
    refine ⟨h.call, h.line, h.mf, h.group, h.answered, fun x hx => ?_⟩
    rcases List.mem_cons.mp (hp hx) with rfl | hx
    · cases d with
      | forward => exact h.forward hk ▸ hs
      | backward => exact h.backward hk ▸ hs
      | stopped => cases x <;> simp_all [TimerCallback.Serves]
    · exact h.timers x hx
  | incoming hr ha =>
    have hd : k.direction = .stopped := by
      have hl := h.line
      cases hd : k.direction <;> simp_all [CasState.Fits, CasState.Forward, CasState.Backward]
    refine ⟨trivial, .inl trivial, .inr trivial, trivial, by simp, fun x hx => ?_⟩
    have ht := hd ▸ h.timers x hx
    cases x <;> simp_all [TimerCallback.Serves]
  | ack => exact ⟨h.call, h.line, h.mf, h.group, h.answered, h.timers⟩
  | lose => exact ⟨h.call, h.line, h.mf, h.group, h.answered, h.timers⟩
  | backMf m hk _ hm =>
    refine ⟨h.call, h.line, ?_, h.group, h.answered, h.timers⟩
    exact (h.backward hk).symm ▸ .inr hm
  | backGroup g hk hg =>
    refine ⟨h.call, h.line, h.mf, ?_, h.answered, h.timers⟩
    exact (h.backward hk).symm ▸ hg
  | fwdMf m hk _ hm =>
    refine ⟨h.call, h.line, ?_, h.group, h.answered, h.timers⟩
    exact (h.forward hk).symm ▸ .inr hm
  | fwdGroup g hk hg =>
    refine ⟨h.call, h.line, h.mf, ?_, h.answered, h.timers⟩
    exact (h.forward hk).symm ▸ hg
  | offer _ _ _ _ hc =>
    have hd := h.backward (.inr (.inr (.inr (by rw [hc]; trivial))))
    refine ⟨?_, h.line, h.mf, h.group, h.answered, h.timers⟩
    exact hd.symm ▸ trivial
  | danceEnded _ _ hg =>
    have hd := h.backward (.inr (.inr (.inl (by rcases hg with hg | hg <;> rw [hg] <;> trivial))))
    refine ⟨?_, h.line, ?_, h.group, h.answered, h.timers⟩
    · exact hd.symm ▸ trivial
    · exact hd.symm ▸ .inl rfl
  | accepted => exact h.marked _
  | answer hc =>
    have hd := h.backward (.inr (.inr (.inr (by rw [hc]; trivial))))
    refine ⟨?_, ?_, h.mf, h.group, fun hs => ?_, h.timers⟩
    · exact hd.symm ▸ trivial
    · exact hd.symm ▸ .inl trivial
    · exact absurd (hd.symm.trans hs) (by decide)
  | clearBackward hk =>
    have hd := h.backward hk
    refine ⟨h.call, ?_, ?_, h.group, h.answered, h.timers⟩
    · exact hd.symm ▸ .inl trivial
    · exact hd.symm ▸ .inl rfl
  | forcedRelease hk =>
    have hd := h.backward hk
    refine ⟨h.call, ?_, ?_, h.group, h.answered, h.timers⟩
    · exact hd.symm ▸ .inl trivial
    · exact hd.symm ▸ .inl rfl
  | executeDouble p hr hp =>
    have hd := h.backward (.inr (.inl (by rw [hr]; trivial)))
    refine ⟨h.call, ?_, ?_, h.group, h.answered, fun cb hcb => h.timers cb (hp hcb)⟩
    · exact hd.symm ▸ .inl trivial
    · exact hd.symm ▸ .inl rfl
  | reanswer hr =>
    have hd := h.backward (.inr (.inl (by rw [hr]; trivial)))
    refine ⟨h.call, ?_, h.mf, h.group, h.answered, h.timers⟩
    exact hd.symm ▸ .inl trivial
  | hop r hr => exact h.hop (hop_fits h hr)
  | report cause _ hk =>
    refine ⟨?_, h.line, h.mf, h.group, h.answered, h.timers⟩
    change CallState.disconnected.Fits k.direction
    rcases hk with hk | hk | hk
    · rw [h.forward hk]; trivial
    · rw [h.backward hk]; trivial
    · have hl := h.line
      cases hd : k.direction <;> simp_all [CasState.Fits, CallState.Fits]
  | makeCall p n hc ha hp hn =>
    have hd : k.direction = .stopped := by
      have hl := h.call
      cases hd : k.direction <;> simp_all [CallState.Fits]
    refine ⟨trivial, .inl trivial, ?_, trivial, by simp, fun x hx => ?_⟩
    · have hl : k.mfState.Fits .stopped := hd ▸ h.mf
      exact .inl hl
    · rcases List.mem_cons.mp (hp hx) with rfl | hx
      · trivial
      · have ht := hd ▸ h.timers x hx
        cases x <;> simp_all [TimerCallback.Serves]
  | clearForward p hk hp =>
    have hd := h.forward hk
    refine ⟨h.call, ?_, ?_, h.group, h.answered, fun x hx => ?_⟩
    · exact hd.symm ▸ .inl trivial
    · exact hd.symm ▸ .inl rfl
    · rcases List.mem_cons.mp (hp hx) with rfl | hx
      · exact hd.symm ▸ trivial
      · exact h.timers x hx
  | answered _ hr =>
    have hd := h.forward (.inr (.inl (by rw [hr]; trivial)))
    refine ⟨?_, ?_, ?_, h.group, fun hs => ?_, h.timers⟩
    · exact hd.symm ▸ trivial
    · exact hd.symm ▸ .inl trivial
    · exact hd.symm ▸ .inl rfl
    · exact absurd (hd.symm.trans hs) (by decide)
  | billing _ hr _ =>
    have hd := h.forward (.inr (.inl (by rcases hr with hr | hr <;> rw [hr] <;> trivial)))
    refine ⟨h.call, ?_, h.mf, h.group, h.answered, h.timers⟩
    exact hd.symm ▸ .inl trivial
  | alarm => exact ⟨h.call, h.line, h.mf, h.group, h.answered, h.timers⟩
  | mute => exact ⟨h.call, h.line, h.mf, h.group, h.answered, h.timers⟩
  | recover r tx hr =>
    have hc := coherent_reset (k.marked [.event (.onHardwareAlarm false)]) (r := r) tx (by
      rcases hr with ⟨rfl, -⟩ | ⟨rfl, -⟩
      · exact .inr (.inl rfl)
      · exact .inr (.inr rfl))
    exact ⟨hc.call, hc.line, hc.mf, hc.group, hc.answered, hc.timers⟩

/-- What a sequence of moves preserves. -/
theorem Coherent.moves {cx : R2Context} {sound : Prop} {s : Stimulus} {k' : Control}
    (h : k.Coherent) (hm : Relation.ReflTransGen (Move cx sound s) k k') : k'.Coherent := by
  induction hm with
  | refl => exact h
  | tail _ hm ih => exact ih.move hm

end Control

section Runs

variable {cx : R2Context} {c : R2Chan}

theorem start_coherent (h : c.control.Coherent) : c.start.control.Coherent :=
  ⟨h.call, h.line, h.mf, h.group, h.answered, h.timers⟩

theorem step_coherent (hm : cx.Mfc) {env : Env} (hq : env.Quiet) (i : Input)
    (h : c.control.Coherent) : (step cx env i c).control.Coherent :=
  (start_coherent h).moves (step_goes hm hq i h.timers)

theorem started_coherent (h : Started cx c) : c.control.Coherent := by
  cases h with
  | idle env d =>
    rw [setIdle_control]
    exact Control.coherent_reset _ .idle (.inr (.inl rfl))
  | blocked env d =>
    rw [setBlocked_control]
    exact Control.coherent_reset _ .block (.inr (.inr rfl))

/-- Every tick of the run has callbacks that do not call back. -/
def QuietRun (ts : List Tick) : Prop := ∀ t ∈ ts, t.env.Quiet

theorem run_coherent (hm : cx.Mfc) (hc : Started cx c) (ts : List Tick) (hq : QuietRun ts) :
    (run cx ts c).1.control.Coherent :=
  Runs.exec_invariant (f := tick cx) (P := fun c => c.control.Coherent)
    (fun _ t (ht : t.env.Quiet) h => step_coherent hm ht t.input h) ts c
    (Runs.Along.of_forall ts c hq) (started_coherent hc)

/-- What the fields say of each other: at rest there is no trace of a call, and
in a call the line, the register signalling and the timers are of its direction. -/
structure R2Chan.Coherent (c : R2Chan) : Prop where
  idle_iff : c.callState = .idle ↔ c.direction = .stopped
  rest : c.callState = .idle →
    c.mfState = .offState ∧ c.mfGroup = .noGroup ∧ c.answered = false ∧
      (c.r2State = .init ∨ c.r2State = .idle ∨ c.r2State = .blocked) ∧
      ∀ t ∈ c.timers.schedTimers, t.callback = .persistenceCheckExpired
  backward : c.direction = .backward →
    c.r2State ∈ [.seizeAckTxd, .answerTxd, .executingDoubleAnswer, .clearBackTxd,
      .forcedReleaseTxd, .clearFwdRxd] ∧
      c.mfState ∈ [.offState, .seizeAckTxd, .categoryRqTxd, .dnisRqTxd, .aniRqTxd, .chgGiiTxd,
        .acceptedTxd, .disconnectTxd] ∧
      c.mfGroup ∈ [.backInit, .ga, .gb, .gc]
  forward : c.direction = .forward →
    c.r2State ∈ [.seizeTxd, .seizeAckRxd, .clearBackToneRxd, .acceptRxd, .answerRxd, .clearBackRxd,
      .answerRxdMfPending, .clearFwdTxd, .forcedReleaseRxd, .clearBackAfterClearFwdRxd,
      .seizeTxdClearFwdPending, .doubleSeizureClearFwdPending, .doubleSeizure, .clearFwdRxd] ∧
      c.mfState ∈ [.offState, .categoryTxd, .dnisTxd, .dnisEndTxd, .aniTxd, .aniEndTxd,
        .waitingTimeout] ∧
      c.mfGroup ∈ [.fwdInit, .gi, .gii, .giii]
  timers : ∀ t ∈ c.timers.schedTimers, t.callback.Serves c.direction

theorem Control.Coherent.channel (h : c.control.Coherent) : c.Coherent := by
  obtain ⟨hc, hl, hm, hg, ha, ht⟩ := h
  have ht : ∀ t ∈ c.timers.schedTimers, t.callback.Serves c.direction :=
    fun t h => ht _ (List.mem_map.mpr ⟨t, h, rfl⟩)
  have hi : c.callState = .idle ↔ c.direction = .stopped := by
    change c.callState.Fits c.direction at hc
    cases hd : c.direction <;> cases hs : c.callState <;> simp_all [CallState.Fits]
  refine ⟨hi, fun h => ?_, fun hd => ?_, fun hd => ?_, ht⟩
  · have hd := hi.mp h
    change c.mfState.Fits c.direction at hm
    change c.mfGroup.Fits c.direction at hg
    change c.r2State.Fits c.direction at hl
    rw [hd] at hm hg hl ht
    refine ⟨hm, hg, ha hd, hl, fun t h => ?_⟩
    have hs := ht t h
    cases hcb : t.callback <;> simp_all [TimerCallback.Serves]
  all_goals
    change c.mfState.Fits c.direction at hm
    change c.mfGroup.Fits c.direction at hg
    change c.r2State.Fits c.direction at hl
    rw [hd] at hm hg hl
    refine ⟨?_, ?_, ?_⟩
  · cases hx : c.r2State <;> simp_all [CasState.Fits, CasState.Backward]
  · cases hx : c.mfState <;> simp_all [MfState.Fits, MfState.Backward]
  · cases hx : c.mfGroup <;> simp_all [MfGroup.Fits, MfGroup.Backward]
  · cases hx : c.r2State <;> simp_all [CasState.Fits, CasState.Forward]
  · cases hx : c.mfState <;> simp_all [MfState.Fits, MfState.Forward]
  · cases hx : c.mfGroup <;> simp_all [MfGroup.Fits, MfGroup.Forward]

/-- Every state that a channel can reach is coherent, whatever the I/O layer, the
MF interface, the clock and the far end do. -/
theorem channel_coherent (hm : cx.Mfc) (hc : Started cx c) (ts : List Tick) (hq : QuietRun ts) :
    (run cx ts c).1.Coherent :=
  (run_coherent hm hc ts hq).channel

/-- An incoming call, up to its first digit. -/
theorem channel_coherent_incoming :
    (run (configureItu 10 10 R2Context.zero)
      [⟨Env.fair 0x9, .cas⟩, ⟨Env.fair 0x1, .cas⟩, ⟨Env.fair 0x1, .mfTone Tone.t5⟩]
      (setIdle (configureItu 10 10 R2Context.zero) (Env.fair 0x9) R2Chan.new).1).1.Coherent :=
  channel_coherent ⟨rfl, rfl⟩ (.idle _ _) _ (by
    intro t ht
    simp only [List.mem_cons, List.not_mem_nil, or_false] at ht
    rcases ht with rfl | rfl | rfl <;> exact fun _ => rfl)

end Runs

end OpenR2
