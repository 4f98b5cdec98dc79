import OpenR2.Control

namespace OpenR2

variable {cx : R2Context} {env : Env} {s : Stimulus} {c d e : R2Chan}

/-- The code takes the control part of a channel to another by moves. -/
abbrev Goes (cx : R2Context) (env : Env) (s : Stimulus) (c d : R2Chan) : Prop :=
  Relation.ReflTransGen (Move cx (∀ h, env.setCas h = true) s) c.control d.control

theorem Goes.of_eq (h : d.control = c.control) : Goes cx env s c d := by
  rw [Goes, h]

theorem Goes.one (h : Move cx (∀ h, env.setCas h = true) s c.control d.control) :
    Goes cx env s c d := .single h

section Fields

@[simp] theorem control_setR2State (r : CasState) (c : R2Chan) :
    (c.setR2State r).control = { c.control with r2State := r } := rfl

@[simp] theorem control_setMfState (m : MfState) (c : R2Chan) :
    (c.setMfState m).control = { c.control with mfState := m } := rfl

@[simp] theorem control_setMfGroup (g : MfGroup) (c : R2Chan) :
    (c.setMfGroup g).control = { c.control with mfGroup := g } := rfl

@[simp] theorem control_setDirection (x : Direction) (c : R2Chan) :
    (c.setDirection x).control = { c.control with direction := x } := rfl

@[simp] theorem control_setAnswered (c : R2Chan) :
    c.setAnswered.control = { c.control with answered := true } := rfl

@[simp] theorem control_setInalarm (on : Bool) (c : R2Chan) :
    (c.setInalarm on).control = { c.control with inalarm := on } := rfl

@[simp] theorem control_setCasTx (cas : Nat) (sig : CasSignal) (c : R2Chan) :
    (c.setCasTx cas sig).control = { c.control with casTxSignal := sig } := rfl

@[simp] theorem control_mapTimers (f : TimerQueue → TimerQueue) (c : R2Chan) :
    (c.mapTimers f).control = { c.control with pending := (f c.timers).pending } := rfl

@[simp] theorem control_setMfHandles (w r : Nat) (c : R2Chan) :
    (c.setMfHandles w r).control = c.control := rfl

theorem control_did {a : Act} (h : a.mark? = none) (c : R2Chan) :
    (c.did a).control = c.control := by
  simp [R2Chan.control, R2Chan.did, R2Chan.pending, h]

@[simp] theorem control_emit (ev : Event) (c : R2Chan) :
    (c.emit ev).control = c.control.marked [.event ev] := by
  simp [R2Chan.control, R2Chan.emit, R2Chan.did, Control.marked, R2Chan.pending, Act.mark?]

@[simp] theorem control_setCallState (st : CallState) (c : R2Chan) :
    (c.setCallState st).control =
      { c.control.marked [.callState st] with callState := st } := by
  simp [R2Chan.control, R2Chan.setCallState, R2Chan.did, Control.marked, R2Chan.pending, Act.mark?]

end Fields

section Timers

theorem pending_removeId (id : Int) (q : TimerQueue) : (q.removeId id).pending ⊆ q.pending := by
  intro cb h
  obtain ⟨t, ht, rfl⟩ := List.mem_map.mp h
  exact List.mem_map.mpr ⟨t, List.mem_of_mem_eraseP ht, rfl⟩

theorem pending_cancelTimer (slot : TimerSlot) (q : TimerQueue) :
    (q.cancelTimer slot).pending ⊆ q.pending := by
  simp only [TimerQueue.cancelTimer]
  split_ifs
  · exact fun _ h => h
  · exact pending_removeId _ q
  · exact fun _ h => h

theorem pending_addTimer (now : Timeval) (ms : Nat) (cb : TimerCallback) (q : TimerQueue) :
    (q.addTimer now ms cb).1.pending ⊆ cb :: q.pending := by
  simp only [TimerQueue.addTimer]
  split_ifs
  · exact fun _ h => List.mem_cons_of_mem _ h
  · intro x h
    obtain ⟨t, ht, rfl⟩ := List.mem_map.mp h
    rcases (List.mem_orderedInsert _).mp ht with rfl | ht
    · exact List.mem_cons_self
    · exact List.mem_cons_of_mem _ (List.mem_map.mpr ⟨t, ht, rfl⟩)

theorem cancelTimer_goes (slot : TimerSlot) (c : R2Chan) :
    Goes cx env s c (c.cancelTimer slot) :=
  .one (.drop _ (pending_cancelTimer slot c.timers))

/-- A timer may be scheduled, or the clock may fail. -/
theorem addTimer_control (env : Env) (ms : Nat) (cb : TimerCallback) (c : R2Chan) :
    ∃ p n, p ⊆ cb :: c.control.pending ∧ (n = [] ∨ n = [.event .onOsError]) ∧
      (addTimer env ms cb c).1.control = { c.control.marked n with pending := p } := by
  unfold addTimer
  cases env.gettimeofday c.out with
  | none =>
    refine ⟨c.pending, _, fun _ h => List.mem_cons_of_mem _ h, .inr rfl, ?_⟩
    simp only [control_emit, control_did (a := .gettimeofday) rfl]
    rfl
  | some now =>
    refine ⟨_, [], pending_addTimer now ms cb c.timers, .inl rfl, ?_⟩
    simp only [control_mapTimers, control_did (a := .gettimeofday) rfl, Control.marked,
      List.append_nil]
    rfl

theorem armTimer_control (env : Env) (slot : TimerSlot) (ms : Nat) (cb : TimerCallback)
    (c : R2Chan) :
    ∃ p n, p ⊆ cb :: c.control.pending ∧ (n = [] ∨ n = [.event .onOsError]) ∧
      (armTimer env slot ms cb c).control = { c.control.marked n with pending := p } :=
  addTimer_control env ms cb c

theorem addTimer_goes (ms : Nat) (cb : TimerCallback) (x : Direction)
    (hs : cb.Serves x) (hk : c.control.Toward x) (hb : c.control.Arms cb) :
    Goes cx env s c (addTimer env ms cb c).1 := by
  obtain ⟨p, n, hp, hn, h⟩ := addTimer_control env ms cb c
  have ha : Move cx (∀ h, env.setCas h = true) s c.control { c.control with pending := p } :=
    .arm cb x p hk hs hb hp
  rw [Goes, h]
  rcases hn with rfl | rfl
  · simpa [Control.marked] using Relation.ReflTransGen.single ha
  · exact .tail (.single ha) (.notify .onOsError trivial)

theorem armTimer_goes (slot : TimerSlot) (ms : Nat) (cb : TimerCallback) (x : Direction)
    (hs : cb.Serves x) (hk : c.control.Toward x) (hb : c.control.Arms cb) :
    Goes cx env s c (armTimer env slot ms cb c) :=
  addTimer_goes ms cb x hs hk hb

end Timers

section Line

theorem disposeMf_control (cx : R2Context) (c : R2Chan) : (disposeMf cx c).control = c.control := by
  have hr : (disposeMfRead c).control = c.control := control_did (a := .mfReadDispose _) rfl c
  have hw : ∀ c, (disposeMfWrite c).control = c.control :=
    fun c => control_did (a := .mfWriteDispose _) rfl c
  simp only [disposeMf]
  split_ifs
  · rw [hw, hr]
  · exact hw c
  · exact hr
  · rfl

theorem turnOffMfEngine_control (cx : R2Context) (c : R2Chan) :
    ∃ p, p ⊆ c.control.pending ∧
      (turnOffMfEngine cx c).control = { c.control with mfState := .offState, pending := p } := by
  by_cases h : c.mfState = .offState
  · refine ⟨c.control.pending, fun _ h => h, ?_⟩
    rw [turnOffMfEngine, if_pos h]
    simp [R2Chan.control, h]
  · refine ⟨_, pending_cancelTimer .mfBackCycle c.timers, ?_⟩
    simp only [turnOffMfEngine, if_neg h, control_setMfState, disposeMf_control]
    rfl

theorem setCasSignal_control (env : Env) {sig : CasSignal} (h : sig ≠ .invalid) (c : R2Chan) :
    (setCasSignal cx env sig c).1.control = { c.control with casTxSignal := sig } := by
  simp only [setCasSignal, if_neg h]
  exact control_did (a := .setCas _) rfl _

/-- A failure to set the line shows that the I/O layer is not sound. -/
theorem setCasSignal_unsound {sig : CasSignal} (h : sig ≠ .invalid)
    (hr : (setCasSignal cx env sig c).2 ≠ 0) : ¬ ∀ h, env.setCas h = true := by
  intro hs
  simp [setCasSignal, if_neg h, hs] at hr

theorem fixRxSignal_control (c : R2Chan) : (fixRxSignal cx c).control = c.control := by
  unfold fixRxSignal
  split_ifs <;> rfl

theorem protoInit_control (cx : R2Context) (c : R2Chan) :
    (protoInit cx c).control = c.control.reset .idle c.casTxSignal := by
  obtain ⟨p, hp, ht⟩ := turnOffMfEngine_control cx (clearNumbers c)
  obtain rfl : p = [] := List.subset_nil.mp hp
  have hc : ∀ d, (clearCall d).control = { d.control.marked [.callState .idle] with
      callState := .idle, mfGroup := .noGroup, direction := .stopped, answered := false } := by
    intro d
    simp [clearCall, R2Chan.control, R2Chan.setCallState, R2Chan.did, Control.marked,
      R2Chan.pending, Act.mark?]
  rw [protoInit, fixRxSignal_control, hc, ht]
  rfl

theorem setIdle_control (cx : R2Context) (env : Env) (c : R2Chan) :
    (setIdle cx env c).1.control = c.control.reset .idle .idle := by
  rw [setIdle, setCasSignal_control env (by decide), protoInit_control]
  rfl

theorem setBlocked_control (cx : R2Context) (env : Env) (c : R2Chan) :
    (setBlocked cx env c).1.control = c.control.reset .blocked .block := by
  rw [setBlocked, setCasSignal_control env (by decide), control_setR2State, protoInit_control]
  rfl

theorem setIdle_goes (c : R2Chan) : Goes cx env s c (setIdle cx env c).1 :=
  .one (setIdle_control cx env c ▸ .reset)

theorem setBlocked_goes (c : R2Chan) : Goes cx env s c (setBlocked cx env c).1 :=
  .one (setBlocked_control cx env c ▸ .block)

theorem emit_goes (ev : Event) (h : ev.Neutral) (c : R2Chan) : Goes cx env s c (c.emit ev) :=
  .one (control_emit ev c ▸ .notify ev h)

theorem did_goes {a : Act} (h : a.mark? = none) (c : R2Chan) : Goes cx env s c (c.did a) :=
  .of_eq (control_did h c)

theorem handleProtocolError_goes (reason : ProtocolError) (c : R2Chan) :
    Goes cx env s c (handleProtocolError cx env reason c) :=
  ((did_goes rfl c).trans (setIdle_goes _)).trans (emit_goes (.onProtocolError reason) trivial _)

theorem reportCallDisconnection_goes (cause : DisconnectCause) (hs : s ≠ .advance)
    (h : c.control.Forward ∨ c.control.Backward ∨ c.control.r2State = .clearFwdRxd) :
    Goes cx env s c (reportCallDisconnection cause c) := by
  have hr : (reportCallDisconnection cause c).control =
      { c.control.marked [.callState .disconnected, .event (.onCallDisconnect cause)] with
        callState := .disconnected } := by
    simp [reportCallDisconnection, Control.marked]
  exact .one (hr ▸ .report cause hs h)

theorem reportCallEnd_goes (c : R2Chan) : Goes cx env s c (reportCallEnd cx env c) :=
  (setIdle_goes c).trans (emit_goes .onCallEnd trivial _)

theorem r2MeteringPulse_goes (hs : s ≠ .advance) (h : c.control.Forward) :
    Goes cx env s c (r2MeteringPulse c) := by
  unfold r2MeteringPulse
  split_ifs
  · exact reportCallDisconnection_goes _ hs (.inl h)
  · exact reportCallDisconnection_goes _ hs (.inl h)

theorem sendClearBackward_control (cx : R2Context) (env : Env) (c : R2Chan) :
    ∃ p, p ⊆ c.control.pending ∧
      (sendClearBackward cx env c).1.control = { c.control with
        r2State := .clearBackTxd
        mfState := .offState
        casTxSignal := .clearBack
        pending := p } := by
  obtain ⟨p, hp, h⟩ := turnOffMfEngine_control cx (c.setR2State .clearBackTxd)
  exact ⟨p, hp, by rw [sendClearBackward, setCasSignal_control env (by decide), h]; rfl⟩

theorem sendClearBackward_goes (h : c.control.Backward) :
    Goes cx env s c (sendClearBackward cx env c).1 := by
  obtain ⟨p, hp, hc⟩ := sendClearBackward_control cx env c
  rw [Goes, hc]
  exact .tail (.single (.clearBackward h)) (.drop p hp)

theorem sendForcedRelease_goes (h : c.control.Backward) :
    Goes cx env s c (sendForcedRelease cx env c).1 := by
  obtain ⟨p, hp, ht⟩ := turnOffMfEngine_control cx (c.setR2State .forcedReleaseTxd)
  rw [Goes, sendForcedRelease, setCasSignal_control env (by decide), ht]
  exact .tail (.single (.forcedRelease h)) (.drop p hp)

theorem sendClearForward_goes (h : c.control.Forward) :
    Goes cx env s c (sendClearForward cx env c).1 := by
  let a := (addTimer env cx.timers.r2SetCallDown .r2SetCallDown c).1
  obtain ⟨q, n, hq, hn, ha⟩ := addTimer_control env cx.timers.r2SetCallDown .r2SetCallDown c
  obtain ⟨p, hp, ht⟩ := turnOffMfEngine_control cx (a.setR2State .clearFwdTxd)
  have hp : p ⊆ q := by
    rw [control_setR2State, ha] at hp
    exact hp
  have hc : (sendClearForward cx env c).1.control = { c.control.marked n with
      r2State := .clearFwdTxd
      mfState := .offState
      casTxSignal := .clearForward
      pending := p } := by
    simp only [sendClearForward]
    rw [setCasSignal_control env (by decide), ht, control_setR2State, ha]
  rw [Goes, hc]
  have hm : Move cx (∀ h, env.setCas h = true) s c.control _ :=
    .clearForward p h (List.Subset.trans hp hq)
  rcases hn with rfl | rfl
  · simpa [Control.marked] using Relation.ReflTransGen.single hm
  · exact .tail (.single hm) (.notify .onOsError trivial)

theorem doubleAnswerHandler_goes (c : R2Chan) : Goes cx env s c (doubleAnswerHandler cx env c) := by
  simp only [doubleAnswerHandler]
  split_ifs with h1 h2 h3 h4
  · exact sendClearBackward_goes (.inr (.inl (by simp [R2Chan.control, h1, CasState.Backward])))
  · obtain ⟨p, hp, hc⟩ := sendClearBackward_control cx env c
    have hx : Goes cx env s c ((sendClearBackward cx env c).1.setR2State .executingDoubleAnswer) := by
      rw [Goes, control_setR2State, hc]
      exact .single (.executeDouble p h1 hp)
    exact hx.trans (armTimer_goes _ _ _ .backward trivial (.inr (.inl trivial)) (.inr rfl))
  · refine .one ?_
    rw [setCasSignal_control env (by decide)]
    exact .lose (setCasSignal_unsound (show CasSignal.answer ≠ .invalid by decide) h4) .answer
  · refine .one ?_
    rw [control_setR2State, setCasSignal_control env (by decide)]
    exact .reanswer h3
  · exact .refl

theorem ackCall_goes (h : c.control.r2State = .seizeAckTxd ∨ s = .ack) :
    Goes cx env s c (ackCall cx env c).1 := by
  have ha : Goes cx env s c (setCasSignal cx env .seizeAck c).1 :=
    .one (setCasSignal_control env (show CasSignal.seizeAck ≠ .invalid by decide) c ▸ .ack h)
  simp only [ackCall]
  split_ifs
  · exact ha.trans (handleProtocolError_goes _ _)
  · exact ha

end Line

end OpenR2
