import OpenR2.Peers

namespace OpenR2

/-- What a call of the user that fails is to leave alone. -/
structure Situation where
  r2State : CasState
  callState : CallState
  direction : Direction
  mfState : MfState
  mfGroup : MfGroup
  pending : List SchedTimer

def R2Chan.situation (c : R2Chan) : Situation where
  r2State := c.r2State
  callState := c.callState
  direction := c.direction
  mfState := c.mfState
  mfGroup := c.mfGroup
  pending := c.timers.schedTimers

/-- The calls that are to leave the channel as it was when they fail. -/
def ApiCall.Manages : ApiCall → Prop
  | .makeCall .. | .acceptCall _ | .answerCall | .answerCallWithMode _ | .disconnectCall _ => True
  | .ackCall | .setIdle | .setBlocked => False

/-- The channel is as it was, and a seize that the line took is not left on it. -/
structure Unchanged (env : Env) (a : ApiCall) (c d : R2Chan) : Prop where
  situation : d.situation = c.situation
  line : a.IsMakeCall → d.out = c.out ∨ env.setCas c.out = false

/-- A call is refused, or the line is, before anything else has been written: `make_call` by its
guards or with the seize; `disconnect_call` where there is no call, or where the state is already
the one in which the signal leaves it. -/
def FailsEarly (cx : R2Context) (env : Env) (c : R2Chan) : ApiCall → Prop
  | .makeCall .. => c.inalarm = true ∨ c.callState ≠ .idle ∨ c.casRead ≠ cx.casSignals .idle ∨
      env.setCas c.out = false
  | .disconnectCall cause => c.callState = .idle ∨ c.mfState = .offState ∧
      if c.direction = .backward then
        c.r2State = if cx.detectDtmf = false ∧ cause = .forcedRelease then .forcedReleaseTxd
          else .clearBackTxd
      else c.r2State = .clearFwdTxd ∧
        (env.gettimeofday c.out = none ∨ c.timers.schedTimers.length = maxSchedTimers)
  | _ => True

section Failures

variable {cx : R2Context} {env : Env} {c : R2Chan}

theorem setCasSignal_situation (s : CasSignal) : (setCasSignal cx env s c).1.situation = c.situation := by
  simp only [setCasSignal]
  split_ifs <;> rfl

theorem setCasSignal_refused {s : CasSignal} (hs : s ≠ .invalid) (h : (setCasSignal cx env s c).2 ≠ 0) :
    env.setCas c.out = false := by
  simp only [setCasSignal, if_neg hs] at h
  cases hx : env.setCas c.out with
  | false => rfl
  | true => exact absurd (if_pos hx) h

theorem turnOffMfEngine_mfState (c : R2Chan) : (turnOffMfEngine cx c).mfState = .offState := by
  simp only [turnOffMfEngine]
  split_ifs with h
  · exact h
  · rfl

/-- Turning the engine off is seen, where it is on. -/
theorem turnOffMfEngine_situation_iff (r : CasState) (g : Situation) (hg : g.mfState = c.mfState) :
    (turnOffMfEngine cx (c.setR2State r)).situation = g ↔
      c.mfState = .offState ∧ (c.setR2State r).situation = g := by
  have hoff : ∀ ho : c.mfState = .offState, turnOffMfEngine cx (c.setR2State r) = c.setR2State r :=
    fun ho => if_pos ho
  refine ⟨fun h => ?_, fun ⟨ho, h⟩ => ?_⟩
  · have ho : c.mfState = .offState := by
      rw [← hg, ← h]
      exact turnOffMfEngine_mfState _
    exact ⟨ho, hoff ho ▸ h⟩
  · rw [hoff ho, h]

theorem sendClear_situation_iff (s : CasSignal) (r : CasState) :
    (setCasSignal cx env s (turnOffMfEngine cx (c.setR2State r))).1.situation = c.situation ↔
      c.mfState = .offState ∧ c.r2State = r := by
  rw [setCasSignal_situation, turnOffMfEngine_situation_iff r _ rfl]
  refine and_congr_right fun _ => ⟨fun h => (congrArg Situation.r2State h).symm, ?_⟩
  rintro rfl
  rfl

/-- A timer is added, but for want of the time or of room. -/
theorem addTimer_situation (ms : Nat) (cb : TimerCallback) : ∃ q o,
    (addTimer env ms cb c).1 = { c with timers := q, out := o } ∧
      (q.schedTimers = c.timers.schedTimers ↔
        env.gettimeofday c.out = none ∨ c.timers.schedTimers.length = maxSchedTimers) := by
  simp only [addTimer]
  cases hn : env.gettimeofday c.out with
  | none => exact ⟨_, _, rfl, iff_of_true rfl (.inl rfl)⟩
  | some now =>
    refine ⟨_, _, rfl, ?_⟩
    simp only [TimerQueue.addTimer, reduceCtorEq, false_or]
    split_ifs with hf
    · exact iff_of_true rfl hf
    · refine iff_of_false (fun h => ?_) hf
      have hl := (List.orderedInsert_length _ c.timers.schedTimers _).symm.trans (congrArg List.length h)
      exact absurd hl (Nat.succ_ne_self _)

theorem sendClearForward_situation_iff : (sendClearForward cx env c).1.situation = c.situation ↔
    c.mfState = .offState ∧ c.r2State = .clearFwdTxd ∧
      (env.gettimeofday c.out = none ∨ c.timers.schedTimers.length = maxSchedTimers) := by
  obtain ⟨q, o, hk, hq⟩ := @addTimer_situation env c cx.timers.r2SetCallDown .r2SetCallDown
  simp only [sendClearForward, hk]
  have hg : c.situation.mfState = { c with timers := q, out := o }.mfState := rfl
  rw [setCasSignal_situation, turnOffMfEngine_situation_iff _ _ hg]
  refine and_congr_right fun _ => ⟨fun h => ?_, fun ⟨hr, hx⟩ => ?_⟩
  · exact ⟨(congrArg Situation.r2State h).symm, hq.mp (congrArg Situation.pending h)⟩
  · simp only [R2Chan.situation, R2Chan.setR2State, hq.mpr hx, hr]

end Failures

section Calls

variable {cx : R2Context} {env : Env} {c : R2Chan}

theorem doAnswer_fails (h : (doAnswer cx env c).2 ≠ 0) : (doAnswer cx env c).1.situation = c.situation := by
  simp only [doAnswer] at h ⊢
  split_ifs at h ⊢
  · rfl
  · exact setCasSignal_situation _
  · exact absurd rfl h

/-- A call that is placed is dialling, whatever the DTMF interface does. -/
theorem placeCall_dialing (ani : Option (List Tone)) (dnis : List Tone) (category : Category)
    (restricted : Bool) : (placeCall cx env ani dnis category restricted c).1.callState = .dialing := by
  simp only [placeCall, startDtmfDial]
  split_ifs <;> rfl

/-- `make_call` that fails once the line is seized does not take it back. -/
theorem makeCall_fails_iff {ani : Option (List Tone)} {dnis : List Tone} {category : Category}
    {restricted : Bool} : Unchanged env (.makeCall ani dnis category restricted) c
      (makeCall cx env ani dnis category restricted c).1 ↔
        FailsEarly cx env c (.makeCall ani dnis category restricted) := by
  simp only [makeCall]
  split_ifs with hi hs hr hc
  · exact iff_of_true ⟨rfl, fun _ => .inl rfl⟩ (.inl hi)
  · exact iff_of_true ⟨rfl, fun _ => .inl rfl⟩ (.inr (.inl hs))
  · exact iff_of_true ⟨rfl, fun _ => .inl rfl⟩ (.inr (.inr (.inl hr)))
  · have hx := setCasSignal_refused (s := .seize) nofun hc
    exact iff_of_true ⟨setCasSignal_situation _, fun _ => .inr hx⟩ (.inr (.inr (.inr hx)))
  · refine iff_of_false (fun hu => ?_) fun hx => ?_
    · have hd := congrArg Situation.callState hu.situation
      have hi : c.callState = .idle := not_not.mp hs
      exact nomatch (placeCall_dialing ani dnis category restricted).symm.trans (hd.trans hi)
    · rcases hx with hx | hx | hx | hx
      · exact hi hx
      · exact hs hx
      · exact hr hx
      · refine hc ?_
        simp [setCasSignal, R2Chan.setCasTx, hx]

theorem disconnectBackward_fails_iff {cause : DisconnectCause}
    (h : (disconnectBackward cx env cause c).2 = -1) :
    (disconnectBackward cx env cause c).1.situation = c.situation ↔ c.mfState = .offState ∧
      c.r2State = if cx.detectDtmf = false ∧ cause = .forcedRelease then .forcedReleaseTxd
        else .clearBackTxd := by
  -- every other exit returns 0
  by_cases hf : cx.detectDtmf = false ∧ cause = .forcedRelease
  · rw [if_pos hf]
    simp only [disconnectBackward, hf.1, hf.2, Bool.false_eq_true, if_false, if_true] at h ⊢
    split_ifs at h ⊢
    exact sendClear_situation_iff .forcedRelease .forcedReleaseTxd
  · rw [if_neg hf]
    have hc : ∀ hd : ¬ cx.detectDtmf = true, cause ≠ .forcedRelease := fun hd hx =>
      hf ⟨Bool.eq_false_iff.mpr hd, hx⟩
    simp only [disconnectBackward] at h ⊢
    split_ifs at h ⊢ with hd _ _ _ hx
    · exact sendClear_situation_iff .clearBack .clearBackTxd
    · exact absurd hx (hc hd)
    · exact sendClear_situation_iff .clearBack .clearBackTxd

theorem disconnectForward_fails_iff (h : (disconnectForward cx env c).2 = -1) :
    (disconnectForward cx env c).1.situation = c.situation ↔
      c.mfState = .offState ∧ c.r2State = .clearFwdTxd ∧
        (env.gettimeofday c.out = none ∨ c.timers.schedTimers.length = maxSchedTimers) := by
  simp only [disconnectForward] at h ⊢
  split_ifs at h ⊢
  exact sendClearForward_situation_iff

/-- `disconnect_call` that cannot send its signal has written the state for it before. -/
theorem disconnectCall_fails_iff {cause : DisconnectCause} (h : (disconnectCall cx env cause c).2 = -1) :
    Unchanged env (.disconnectCall cause) c (disconnectCall cx env cause c).1 ↔
      FailsEarly cx env c (.disconnectCall cause) := by
  have hu : ∀ d : R2Chan, Unchanged env (.disconnectCall cause) c d ↔ d.situation = c.situation :=
    fun d => ⟨fun h => h.situation, fun h => ⟨h, fun hm => hm.elim⟩⟩
  rw [hu]
  simp only [FailsEarly, disconnectCall] at h ⊢
  by_cases hi : c.callState = .idle
  · rw [if_pos hi]
    exact iff_of_true rfl (.inl hi)
  rw [if_neg hi] at h ⊢
  rw [or_iff_right hi]
  by_cases hb : c.direction = .backward
  · rw [if_pos hb] at h ⊢
    rw [if_pos hb]
    exact disconnectBackward_fails_iff h
  · rw [if_neg hb] at h ⊢
    rw [if_neg hb]
    exact disconnectForward_fails_iff h

end Calls

/-- A call that fails leaves the channel as it was, just where it fails before anything has been
written. -/
theorem failed_call_iff {cx : R2Context} {env : Env} {c : R2Chan} {a : ApiCall} (ha : a.Manages)
    (h : (apiCall cx env a c).2 = -1) :
    Unchanged env a c (apiCall cx env a c).1 ↔ FailsEarly cx env c a := by
  have hx : ∀ d : R2Chan, ¬ a.IsMakeCall → d.situation = c.situation → Unchanged env a c d :=
    fun d hn hd => ⟨hd, fun hm => absurd hm hn⟩
  cases a with
  | makeCall ani dnis category restricted => exact makeCall_fails_iff
  | acceptCall mode =>
    refine iff_of_true (hx _ id ?_) trivial
    simp only [apiCall, acceptCall] at h ⊢
    split_ifs at h ⊢
    rfl
  | answerCall =>
    refine iff_of_true (hx _ id ?_) trivial
    simp only [apiCall, answerCall] at h ⊢
    split_ifs at h ⊢ with hr
    exact doAnswer_fails hr
  | answerCallWithMode mode =>
    refine iff_of_true (hx _ id ?_) trivial
    simp only [apiCall, answerCallWithMode] at h ⊢
    split_ifs at h ⊢ with hr
    exact doAnswer_fails hr
  | disconnectCall cause => exact disconnectCall_fails_iff h
  | _ => exact ha.elim

/-- A channel that has been set idle and sees an idle line. -/
def idleChannel (cx : R2Context) : R2Chan :=
  (run cx [⟨Env.fair 0x9, .cas⟩] (setIdle cx (Env.fair 0x9) R2Chan.new).1).1.start

theorem failed_call_iff_refused :
    let cx := configureItu 10 4 R2Context.zero
    let env : Env := { Env.fair 0x9 with setCas := fun _ => false }
    let a : ApiCall := .makeCall none [Tone.t5] .nationalSubscriber false
    Unchanged env a (idleChannel cx) (apiCall cx env a (idleChannel cx)).1 ↔
      FailsEarly cx env (idleChannel cx) a :=
  @failed_call_iff (configureItu 10 4 R2Context.zero) { Env.fair 0x9 with setCas := fun _ => false } _
    (.makeCall none [Tone.t5] .nationalSubscriber false) trivial (by decide +kernel)

/-- Without a DTMF transmitter the call is given up, and the line stays seized. -/
theorem seize_left :
    ¬ ∀ (cx : R2Context) (env : Env) (ts : List Tick) (a : ApiCall), a.Manages →
      (apiCall cx env a (run cx ts (setIdle cx (Env.fair 0x9) R2Chan.new).1).1.start).2 = -1 →
        Unchanged env a (run cx ts (setIdle cx (Env.fair 0x9) R2Chan.new).1).1.start
          (apiCall cx env a (run cx ts (setIdle cx (Env.fair 0x9) R2Chan.new).1).1.start).1 := by
  intro h
  have hu := h { configureItu 10 4 R2Context.zero with dialWithDtmf := true }
    { Env.fair 0x9 with dtmfTxInit := fun _ => false } [⟨Env.fair 0x9, .cas⟩]
    (.makeCall none [Tone.t5] .nationalSubscriber false) trivial (by decide +kernel)
  exact absurd (congrArg Situation.callState hu.situation) (by decide +kernel)

end OpenR2
