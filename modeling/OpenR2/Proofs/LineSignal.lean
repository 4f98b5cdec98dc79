import OpenR2.Proofs.Coherence

namespace OpenR2

/-- The signal that a line state stands for. Before its acknowledgement an
incoming call still sends idle; a received clear forward says nothing. -/
def CasState.Sends : CasState → CasSignal → Prop
  | .idle, tx => tx = .idle
  | .blocked, tx => tx = .block
  | .seizeTxd, tx | .seizeTxdClearFwdPending, tx | .doubleSeizure, tx
  | .doubleSeizureClearFwdPending, tx | .seizeAckRxd, tx | .acceptRxd, tx | .answerRxd, tx
  | .answerRxdMfPending, tx | .clearBackRxd, tx | .forcedReleaseRxd, tx
  | .clearBackToneRxd, tx => tx = .seize
  | .clearFwdTxd, tx | .clearBackAfterClearFwdRxd, tx => tx = .clearForward
  | .seizeAckTxd, tx => tx = .seizeAck ∨ tx = .idle
  | .answerTxd, tx => tx = .answer
  | .clearBackTxd, tx | .executingDoubleAnswer, tx => tx = .clearBack
  | .forcedReleaseTxd, tx => tx = .forcedRelease
  | .init, _ | .invalidState, _ | .clearFwdRxd, _ => True

/-- The line states in which an outgoing call may still have its MF engine on. -/
def CasState.Registering : CasState → Prop
  | .seizeAckRxd | .acceptRxd | .answerRxd | .answerRxdMfPending | .clearBackRxd
  | .forcedReleaseRxd | .clearBackToneRxd => True
  | _ => False

theorem CasState.Registering.sends {r : CasState} (h : r.Registering) (tx : CasSignal) :
    r.Sends tx ↔ tx = .seize := by
  cases r <;> first | exact Iff.rfl | exact False.elim h

namespace Control

/-- Outside alarms the line signal is the one of the line state. The register
signalling of an outgoing call changes the state among those that send a seize. -/
structure LineFollows (k : Control) : Prop where
  coherent : k.Coherent
  line : k.inalarm = false → k.r2State.Sends k.casTxSignal
  register : k.direction = .forward → k.mfState ≠ .offState → k.r2State.Registering

variable {k : Control}

/-- A move that touches neither the line nor the register signalling. -/
theorem LineFollows.frame (h : k.LineFollows) {k' : Control} (hc : k'.Coherent)
    (ha : k'.inalarm = k.inalarm) (hr : k'.r2State = k.r2State)
    (ht : k'.casTxSignal = k.casTxSignal) (hd : k'.direction = k.direction)
    (hm : k'.mfState = k.mfState) : k'.LineFollows :=
  ⟨hc, by rw [ha, hr, ht]; exact h.line, by rw [hd, hm, hr]; exact h.register⟩

theorem LineFollows.hop (h : k.LineFollows) {r : CasState} (hr : Hop k r) :
    LineFollows { k with r2State := r } := by
  refine ⟨h.coherent.hop (hop_fits h.coherent hr), fun ha => ?_, fun hd hm => ?_⟩
  · have hl := h.line ha
    cases hr with
    | clearFwdRxd => trivial
    | glare hk => rcases hk with hk | hk <;> rw [hk] at hl <;> exact hl
    | seizeAck hk => rw [hk] at hl; exact hl
    | holdSeize hk => rw [hk] at hl; exact hl
    | holdGlare hk => rw [hk] at hl; exact hl
    | release _ hk hr =>
      have hs : k.casTxSignal = .seize := by
        rcases hk with hk | hk | hk | hk <;> rw [hk] at hl <;> exact hl
      rcases hr with rfl | rfl <;> exact hs
    | earlyAnswer hk => rw [hk] at hl; exact hl
    | lateRelease hk => rw [hk] at hl; exact hl
    | tone _ hd hm hr =>
      have hs := ((h.register hd hm).sends _).mp hl
      rcases hr with rfl | rfl <;> exact hs
  · have hg := h.register hd hm
    cases hr with
    | clearFwdRxd hk => rcases hk with hk | hk | hk | hk <;> rw [hk] at hg <;> exact hg.elim
    | glare hk => rcases hk with hk | hk <;> rw [hk] at hg <;> exact hg.elim
    | seizeAck => trivial
    | holdSeize hk => rw [hk] at hg; exact hg.elim
    | holdGlare hk => rw [hk] at hg; exact hg.elim
    | release _ _ hr => rcases hr with rfl | rfl <;> trivial
    | earlyAnswer => trivial
    | lateRelease hk => rw [hk] at hg; exact hg.elim
    | tone _ _ _ hr => rcases hr with rfl | rfl <;> trivial

/-- What one move preserves, when the line can be set and no acknowledgement is
out of turn. -/
theorem LineFollows.move {cx : R2Context} {sound : Prop} {s : Stimulus} {k' : Control}
    (h : k.LineFollows) (hs : sound) (ha : s ≠ .ack) (hm : Move cx sound s k k') :
    k'.LineFollows := by
  have hc := h.coherent.move hm
  have hb : k'.direction = .backward → k'.direction = .forward → k'.mfState ≠ .offState →
      k'.r2State.Registering := fun hx hy => absurd (hx.symm.trans hy) (by decide)
  cases hm with
  | reset => exact ⟨hc, fun _ => rfl, by simp [Control.reset]⟩
  | block => exact ⟨hc, fun _ => rfl, by simp [Control.reset]⟩
  | notify => exact h.frame hc rfl rfl rfl rfl rfl
  | drop => exact h.frame hc rfl rfl rfl rfl rfl
  | arm => exact h.frame hc rfl rfl rfl rfl rfl
  | incoming hr hi =>
    have hl := h.line hi
    rw [hr] at hl
    exact ⟨hc, fun _ => .inr hl, hb rfl⟩
  | ack hk =>
    have hr := hk.resolve_right ha
    refine ⟨hc, fun _ => ?_, h.register⟩
    rw [hr]
    exact .inl rfl
  | lose hn => exact absurd hs hn
  | backMf m hk _ _ => exact ⟨hc, h.line, hb (h.coherent.backward hk)⟩
  | backGroup => exact h.frame hc rfl rfl rfl rfl rfl
  | fwdMf m hk ho _ =>
    refine ⟨hc, h.line, fun hd _ => ?_⟩
    rcases ho with ho | ho
    · exact h.register hd ho
    · rw [ho]; trivial
  | fwdGroup => exact h.frame hc rfl rfl rfl rfl rfl
  | offer => exact h.frame hc rfl rfl rfl rfl rfl
  | danceEnded => exact ⟨hc, h.line, by simp [Control.marked]⟩
  | accepted => exact h.frame hc rfl rfl rfl rfl rfl
  | answer hk =>
    have hd := h.coherent.backward (.inr (.inr (.inr (by rw [hk]; trivial))))
    exact ⟨hc, fun _ => rfl, hb hd⟩
  | clearBackward => exact ⟨hc, fun _ => rfl, by simp⟩
  | forcedRelease => exact ⟨hc, fun _ => rfl, by simp⟩
  | executeDouble => exact ⟨hc, fun _ => rfl, by simp⟩
  | reanswer hr =>
    have hd := h.coherent.backward (.inr (.inl (by rw [hr]; trivial)))
    exact ⟨hc, fun _ => rfl, hb hd⟩
  | hop r hr => exact h.hop hr
  | report => exact h.frame hc rfl rfl rfl rfl rfl
  | makeCall p n hk hi hp hn =>
    have hd : k.direction = .stopped := by
      have hl := h.coherent.call
      cases hd : k.direction <;> simp_all [CallState.Fits]
    have hm : k.mfState.Fits .stopped := hd ▸ h.coherent.mf
    exact ⟨hc, fun _ => rfl, fun _ hx => absurd hm hx⟩
  | clearForward => exact ⟨hc, fun _ => rfl, by simp⟩
  | answered _ hr =>
    refine ⟨hc, fun hi => ?_, by simp [Control.marked]⟩
    have hl := h.line hi
    rw [hr] at hl
    exact hl
  | billing _ hr _ =>
    refine ⟨hc, fun hi => ?_, fun _ _ => trivial⟩
    have hl := h.line hi
    rcases hr with hr | hr <;> rw [hr] at hl <;> exact hl
  | alarm => exact ⟨hc, by simp, h.register⟩
  | mute hi => exact ⟨hc, by simp [hi], h.register⟩
  | recover r tx hr =>
    refine ⟨hc, fun _ => ?_, by simp [Control.reset]⟩
    rcases hr with ⟨rfl, rfl⟩ | ⟨rfl, rfl⟩ <;> rfl

theorem LineFollows.moves {cx : R2Context} {sound : Prop} {s : Stimulus} {k' : Control}
    (h : k.LineFollows) (hs : sound) (ha : s ≠ .ack)
    (hm : Relation.ReflTransGen (Move cx sound s) k k') : k'.LineFollows := by
  induction hm with
  | refl => exact h
  | tail _ hm ih => exact ih.move hs ha hm

end Control

section Runs

variable {cx : R2Context} {c : R2Chan}

theorem started_lineFollows (h : Started cx c) : c.control.LineFollows := by
  have hc := started_coherent h
  cases h with
  | idle env d =>
    rw [setIdle_control] at hc ⊢
    exact ⟨hc, fun _ => rfl, by simp [Control.reset]⟩
  | blocked env d =>
    rw [setBlocked_control] at hc ⊢
    exact ⟨hc, fun _ => rfl, by simp [Control.reset]⟩

/-- The I/O layer sets the line, callbacks do not call back, and the user
acknowledges a seize only while it waits for that. -/
def InTurn (c : R2Chan) (t : Tick) : Prop :=
  (∀ h, t.env.setCas h = true) ∧ t.env.Quiet ∧
    (t.input = .api .ackCall → c.r2State = .seizeAckTxd)

theorem step_lineFollows (hm : cx.Mfc) (t : Tick) (ht : InTurn c t) (h : c.control.LineFollows) :
    (step cx t.env t.input c).control.LineFollows := by
  obtain ⟨hs, hq, ha⟩ := ht
  have h0 : c.start.control.LineFollows :=
    h.frame (start_coherent h.coherent) rfl rfl rfl rfl rfl
  refine h0.moves hs ?_ (step_goes hm hq t.input h.coherent.timers)
  unfold stimulus
  split_ifs with h1 h2
  · decide
  · exact absurd (ha h2.1) h2.2
  · decide

/-- Outside alarms the transmitted signal always follows the line state. -/
theorem line_follows (hm : cx.Mfc) (hc : Started cx c) (ts : List Tick)
    (ht : Runs.Along (tick cx) InTurn ts c) (ha : (run cx ts c).1.inalarm = false) :
    (run cx ts c).1.r2State.Sends (run cx ts c).1.casTxSignal :=
  (Runs.exec_invariant (f := tick cx) (P := fun c : R2Chan => c.control.LineFollows)
    (fun c t (ht : InTurn c t) h => step_lineFollows hm t ht h) ts c ht (started_lineFollows hc)).line ha

/-- An incoming call, which the user acknowledges. -/
theorem line_follows_acknowledged :
    let cx := { configureItu 10 10 R2Context.zero with autoSeizeAck := false }
    let c := (setIdle cx (Env.fair 0x9) R2Chan.new).1
    let ts : List Tick :=
      [⟨Env.fair 0x9, .cas⟩, ⟨Env.fair 0x1, .cas⟩, ⟨Env.fair 0x1, .api .ackCall⟩]
    (run cx ts c).1.r2State.Sends (run cx ts c).1.casTxSignal :=
  line_follows ⟨rfl, rfl⟩ (.idle _ _) _
    ⟨⟨fun _ => rfl, fun _ => rfl, by simp⟩, ⟨fun _ => rfl, fun _ => rfl, by simp⟩,
      ⟨fun _ => rfl, fun _ => rfl, fun _ => rfl⟩, trivial⟩ rfl

end Runs

end OpenR2
