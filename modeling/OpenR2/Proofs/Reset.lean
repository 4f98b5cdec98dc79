import Mathlib.Tactic.SplitIfs
import OpenR2.Machine

namespace OpenR2

/-- An act that gives back an MF handle. -/
def Act.Disposes : Act → Prop
  | .mfReadDispose _ | .mfWriteDispose _ => True
  | _ => False

/-- A channel that has turned off its MF engine. -/
structure R2Chan.TurnedOff (c d : R2Chan) : Prop where
  frame : ∃ r w x y q, d = { c with
    mfState := .offState
    out := d.out
    mfReadHandle := r
    mfWriteHandle := w
    dialingDtmf := x
    detectingDtmf := y
    timers := q }
  timers : d.timers = c.timers ∨ d.timers = c.timers.cancelTimer .mfBackCycle
  out : ∃ as, d.out = c.out ++ as ∧ ∀ a ∈ as, a.Disposes

/-- A channel that has been reset. -/
structure R2Chan.Reset (c d : R2Chan) : Prop where
  frame : ∃ rx r w x y, d = { c with
    direction := .stopped
    mfState := .offState
    mfGroup := .noGroup
    r2State := .idle
    callState := .idle
    casRxSignal := rx
    ani := c.ani.set 0 0
    aniPtr := none
    aniLen := 0
    dnis := c.dnis.set 0 0
    dnisIndex := 0
    dnisLen := 0
    callerAniIsRestricted := false
    callerCategory := Tone.invalid
    mfWriteHandle := w
    mfReadHandle := r
    dialingDtmf := x
    detectingDtmf := y
    mfWriteTone := 0
    mfReadTone := 0
    answered := false
    categorySent := false
    callDnisCallback := true
    readEnabled := false
    timers := TimerQueue.cancelAllTimers
    out := d.out }
  out : ∃ as, d.out = c.out ++ as ++ [.callState .idle] ∧ ∀ a ∈ as, a.Disposes

section Reset

variable (cx : R2Context) (c : R2Chan)

theorem turnOffMfEngine_turnedOff : c.TurnedOff (turnOffMfEngine cx c) := by
  have hd : ∀ d : R2Chan, ∃ r w as, disposeMf cx d =
      { d with out := d.out ++ as, mfReadHandle := r, mfWriteHandle := w } ∧
        ∀ a ∈ as, a.Disposes := by
    intro d
    simp only [disposeMf]
    split_ifs
    · refine ⟨none, none, [.mfReadDispose d.mfReadHandle, .mfWriteDispose d.mfWriteHandle], ?_, ?_⟩
      · simp [disposeMfWrite, disposeMfRead, R2Chan.did]
      · simp [Act.Disposes]
    · exact ⟨d.mfReadHandle, none, [.mfWriteDispose d.mfWriteHandle], rfl, by simp [Act.Disposes]⟩
    · exact ⟨none, d.mfWriteHandle, [.mfReadDispose d.mfReadHandle], rfl, by simp [Act.Disposes]⟩
    · exact ⟨d.mfReadHandle, d.mfWriteHandle, [], by simp, by simp⟩
  simp only [turnOffMfEngine]
  split_ifs with hm
  · exact ⟨⟨c.mfReadHandle, c.mfWriteHandle, c.dialingDtmf, c.detectingDtmf, c.timers, by rw [← hm]⟩,
      .inl rfl, [], (List.append_nil _).symm, by simp⟩
  · obtain ⟨r, w, as, he, ha⟩ := hd ((c.cancelTimer .mfBackCycle).setDtmf false false)
    rw [he]
    exact ⟨⟨r, w, false, false, _, rfl⟩, .inr rfl, as, rfl, ha⟩

theorem protoInit_reset : c.Reset (protoInit cx c) := by
  obtain ⟨⟨r, w, x, y, q, hf⟩, ht, as, ho, ha⟩ := turnOffMfEngine_turnedOff cx (clearNumbers c)
  have hq : q = TimerQueue.cancelAllTimers := by
    rw [hf] at ht
    exact ht.elim id id
  subst hq
  have hrx : ∀ d : R2Chan, ∃ rx, fixRxSignal cx d = { d with casRxSignal := rx } := by
    intro d
    simp only [fixRxSignal]
    split_ifs
    · exact ⟨.idle, rfl⟩
    · exact ⟨.idle, rfl⟩
    · exact ⟨d.casRxSignal, rfl⟩
  obtain ⟨rx, hrx⟩ := hrx (clearCall (turnOffMfEngine cx (clearNumbers c)))
  refine ⟨⟨rx, r, w, x, y, ?_⟩, as, ?_, ha⟩
  · rw [protoInit, hrx, hf]
    rfl
  · rw [protoInit, hrx]
    exact congrArg (· ++ [Act.callState .idle]) ho

/-- An act that comes before a reset. -/
def Act.Closes : Act → Prop
  | .mfReadDispose _ | .mfWriteDispose _ | .mfSelectTone _ _ => True
  | _ => False

theorem Act.Disposes.closes {a : Act} (h : a.Disposes) : a.Closes := by
  cases a <;> trivial

theorem setIdle_out (env : Env) : ∃ as, (setIdle cx env c).1.out = c.out ++ as ++
    [.callState .idle, .setCas (cx.casSignals .idle ||| cx.casNonr2Bits)] ∧ ∀ a ∈ as, a.Closes := by
  obtain ⟨-, as, ho, ha⟩ := protoInit_reset cx c
  refine ⟨as, ?_, fun a hm => (ha a hm).closes⟩
  have hs : (setIdle cx env c).1.out = (protoInit cx c).out ++
      [.setCas (cx.casSignals .idle ||| cx.casNonr2Bits)] := rfl
  rw [hs, ho, List.append_assoc]
  rfl

theorem setBlocked_out (env : Env) : ∃ as, (setBlocked cx env c).1.out = c.out ++ as ++
    [.callState .idle, .setCas (cx.casSignals .block ||| cx.casNonr2Bits)] ∧ ∀ a ∈ as, a.Closes := by
  obtain ⟨-, as, ho, ha⟩ := protoInit_reset cx c
  refine ⟨as, ?_, fun a hm => (ha a hm).closes⟩
  have hs : (setBlocked cx env c).1.out = (protoInit cx c).out ++
      [.setCas (cx.casSignals .block ||| cx.casNonr2Bits)] := rfl
  rw [hs, ho, List.append_assoc]
  rfl

/-- What a protocol error does last: the reset, the line, and the event. -/
theorem handleProtocolError_out (env : Env) (reason : ProtocolError) :
    ∃ as, (handleProtocolError cx env reason c).out = c.out ++ as ++ [.callState .idle,
      .setCas (cx.casSignals .idle ||| cx.casNonr2Bits), .event (.onProtocolError reason)] ∧
        ∀ a ∈ as, a.Closes := by
  obtain ⟨as, ho, ha⟩ := setIdle_out cx (c.did (.mfSelectTone c.mfWriteHandle 0)) env
  refine ⟨.mfSelectTone c.mfWriteHandle 0 :: as, ?_, List.forall_mem_cons.mpr ⟨trivial, ha⟩⟩
  have hs : (handleProtocolError cx env reason c).out =
      (setIdle cx env (c.did (.mfSelectTone c.mfWriteHandle 0))).1.out ++
        [.event (.onProtocolError reason)] := rfl
  rw [hs, ho]
  simp [R2Chan.did]

/-- So does the end of a call. -/
theorem reportCallEnd_out (env : Env) : ∃ as, (reportCallEnd cx env c).out = c.out ++ as ++
    [.callState .idle, .setCas (cx.casSignals .idle ||| cx.casNonr2Bits), .event .onCallEnd] ∧
      ∀ a ∈ as, a.Closes := by
  obtain ⟨as, ho, ha⟩ := setIdle_out cx c env
  refine ⟨as, ?_, ha⟩
  have hs : (reportCallEnd cx env c).out = (setIdle cx env c).1.out ++ [.event .onCallEnd] := rfl
  rw [hs, ho]
  simp

/-- A channel without a call, as a reset leaves it. -/
structure R2Chan.AtRest (d : R2Chan) : Prop where
  direction : d.direction = .stopped
  callState : d.callState = .idle
  r2State : d.r2State = .idle
  mfState : d.mfState = .offState
  mfGroup : d.mfGroup = .noGroup
  timers : d.timers = TimerQueue.cancelAllTimers

theorem setIdle_atRest (env : Env) : (setIdle cx env c).1.AtRest := by
  obtain ⟨⟨rx, r, w, x, y, hf⟩, -⟩ := protoInit_reset cx c
  have hs : (setIdle cx env c).1 = ((protoInit cx c).setCasTx (cx.casSignals .idle) .idle).did
      (.setCas (cx.casSignals .idle ||| cx.casNonr2Bits)) := rfl
  rw [hs]
  generalize protoInit cx c = d at *
  generalize d.out = o at hf
  subst hf
  exact ⟨rfl, rfl, rfl, rfl, rfl, rfl⟩

theorem setBlocked_callState (env : Env) : (setBlocked cx env c).1.callState = .idle ∧
    (setBlocked cx env c).1.r2State = .blocked := by
  obtain ⟨⟨rx, r, w, x, y, hf⟩, -⟩ := protoInit_reset cx c
  have hs : (setBlocked cx env c).1 = (((protoInit cx c).setR2State .blocked).setCasTx
      (cx.casSignals .block) .block).did (.setCas (cx.casSignals .block ||| cx.casNonr2Bits)) := rfl
  rw [hs]
  generalize protoInit cx c = d at *
  exact ⟨by rw [hf]; rfl, rfl⟩

theorem handleProtocolError_atRest (env : Env) (reason : ProtocolError) :
    (handleProtocolError cx env reason c).AtRest := by
  obtain ⟨h1, h2, h3, h4, h5, h6⟩ := setIdle_atRest cx (c.did (.mfSelectTone c.mfWriteHandle 0)) env
  exact ⟨h1, h2, h3, h4, h5, h6⟩

theorem reportCallEnd_atRest (env : Env) : (reportCallEnd cx env c).AtRest := by
  obtain ⟨h1, h2, h3, h4, h5, h6⟩ := setIdle_atRest cx c env
  exact ⟨h1, h2, h3, h4, h5, h6⟩

end Reset

/-- The acts with which a tone is prepared. -/
def Act.Tuning : Act → Prop
  | .mfSelectTone _ _ | .flushWriteBuffers | .gettimeofday | .event .onOsError => True
  | _ => False

/-- The MF interface is asked for the tone, and does not take it. -/
def Refuses (env : Env) (tone : Tone) (c : R2Chan) : Prop :=
  c.mfWriteTone ≠ tone ∧
    if tone = 0 then
      env.flushWriteBuffers c.out = true ∧ env.mfSelectTone (c.out ++ [.flushWriteBuffers]) = false
    else env.mfSelectTone c.out = false

instance (env : Env) (tone : Tone) (c : R2Chan) : Decidable (Refuses env tone c) := by
  unfold Refuses; exact inferInstance

section Tuning

variable (cx : R2Context) (env : Env) (c : R2Chan)

/-- A tone that is taken changes the timers and the tone on the line, and no more. -/
structure R2Chan.Tuned (c d : R2Chan) : Prop where
  frame : ∃ q w, d = { c with timers := q, out := d.out, mfWriteTone := w }
  out : ∃ as, d.out = c.out ++ as ∧ ∀ a ∈ as, a.Tuning

variable {c} {d e : R2Chan}

namespace R2Chan.Tuned

theorem refl (c : R2Chan) : c.Tuned c := ⟨⟨_, _, rfl⟩, [], (List.append_nil _).symm, by simp⟩

theorem trans (h : c.Tuned d) (h' : d.Tuned e) : c.Tuned e := by
  obtain ⟨⟨q, w, hf⟩, as, ho, has⟩ := h
  obtain ⟨⟨q', w', hf'⟩, bs, ho', hbs⟩ := h'
  refine ⟨⟨q', w', by rw [hf', hf]⟩, as ++ bs, by rw [ho', ho, List.append_assoc], ?_⟩
  intro a ha
  exact (List.mem_append.mp ha).elim (has a) (hbs a)

theorem did (a : Act) (ha : a.Tuning) (c : R2Chan) : c.Tuned (c.did a) :=
  ⟨⟨_, _, rfl⟩, [a], rfl, by simpa using ha⟩

theorem setMfWriteTone (tone : Tone) (c : R2Chan) : c.Tuned (c.setMfWriteTone tone) :=
  ⟨⟨_, _, rfl⟩, [], (List.append_nil _).symm, by simp⟩

theorem addTimer (env : Env) (ms : Nat) (cb : TimerCallback) (c : R2Chan) :
    c.Tuned (addTimer env ms cb c).1 := by
  unfold OpenR2.addTimer
  cases env.gettimeofday c.out with
  | none =>
    refine ⟨⟨_, c.mfWriteTone, rfl⟩, [.gettimeofday, .event .onOsError], ?_, by simp [Act.Tuning]⟩
    simp [R2Chan.emit, R2Chan.did]
  | some now => exact ⟨⟨_, c.mfWriteTone, rfl⟩, [.gettimeofday], rfl, by simp [Act.Tuning]⟩

theorem mapTimers (f : TimerQueue → TimerQueue) (c : R2Chan) : c.Tuned (c.mapTimers f) :=
  ⟨⟨_, c.mfWriteTone, rfl⟩, [], (List.append_nil _).symm, by simp⟩

theorem armTimer (env : Env) (slot : TimerSlot) (ms : Nat) (cb : TimerCallback) (c : R2Chan) :
    c.Tuned (armTimer env slot ms cb c) := (addTimer env ms cb c).trans (mapTimers _ _)

end R2Chan.Tuned

/-- A tone that the MF interface takes. -/
theorem startMfTone_tuned (tone : Tone) (c : R2Chan) : c.Tuned (startMfTone cx env tone c) := by
  have hx : ∀ d : R2Chan, d.Tuned (if env.flushWriteBuffers d.out
      then (d.did .flushWriteBuffers).setMfWriteTone tone else d.did .flushWriteBuffers) := by
    intro d
    have hd : d.Tuned (d.did .flushWriteBuffers) := .did .flushWriteBuffers trivial d
    split_ifs
    · exact hd.trans (.setMfWriteTone tone _)
    · exact hd
  simp only [startMfTone]
  by_cases hb : c.direction = .backward
  · rw [if_pos hb]
    exact (R2Chan.Tuned.armTimer env _ _ _ c).trans (hx _)
  · rw [if_neg hb]
    exact hx c

/-- The MF interface takes the tone, or the call is over. -/
theorem prepareMfTone_cases (tone : Tone) (c : R2Chan) :
    ¬ Refuses env tone c ∧ c.Tuned (prepareMfTone cx env tone c) ∨
      Refuses env tone c ∧ ∃ d, c.Tuned d ∧
        prepareMfTone cx env tone c = handleProtocolError cx env .internalError d := by
  have hs : ∀ d : R2Chan, c.Tuned d → d.mfWriteTone = c.mfWriteTone →
      (Refuses env tone c ↔ c.mfWriteTone ≠ tone ∧ env.mfSelectTone d.out = false) →
      ¬ Refuses env tone c ∧ c.Tuned (selectMfTone cx env tone d) ∨
        Refuses env tone c ∧ ∃ e, c.Tuned e ∧
          selectMfTone cx env tone d = handleProtocolError cx env .internalError e := by
    intro d hd hw hr
    have ht : c.Tuned (d.did (.mfSelectTone d.mfWriteHandle tone)) := hd.trans (.did (.mfSelectTone d.mfWriteHandle tone) trivial d)
    simp only [selectMfTone]
    split_ifs with h1 h2 h3
    · exact .inl ⟨fun hx => (hr.mp hx).1 (hw.symm.trans h1), hd⟩
    · exact .inr ⟨hr.mpr ⟨fun hx => h1 (hw.trans hx), h2⟩, _, ht, rfl⟩
    · exact .inl ⟨fun hx => h2 (hr.mp hx).2, ht.trans (.setMfWriteTone tone _)⟩
    · exact .inl ⟨fun hx => h2 (hr.mp hx).2, ht.trans (startMfTone_tuned cx env tone _)⟩
  simp only [prepareMfTone]
  split_ifs with h1 h2
  · refine hs _ (.did .flushWriteBuffers trivial c) rfl ?_
    simp only [Refuses, if_pos h1.1, h2, true_and]
    rfl
  · refine .inl ⟨fun hx => ?_, .did .flushWriteBuffers trivial c⟩
    simp only [Refuses, if_pos h1.1] at hx
    exact h2 hx.2.1
  · refine hs c (.refl c) rfl ?_
    simp only [Refuses]
    split_ifs with h3
    · have hw : c.mfWriteTone = tone := by rw [h3]; exact not_not.mp fun hx => h1 ⟨h3, hx⟩
      exact iff_of_false (fun hx => hx.1 hw) fun hx => hx.1 hw
    · exact Iff.rfl

/-- Only the backward side schedules a timer with its tone. -/
theorem prepareMfTone_timers {tone : Tone} (hd : c.direction ≠ .backward) (hr : ¬ Refuses env tone c) :
    (prepareMfTone cx env tone c).timers = c.timers := by
  have hs : ∀ d : R2Chan, d.direction = c.direction → d.timers = c.timers →
      (startMfTone cx env tone d).timers = c.timers := by
    intro d hx ht
    simp only [startMfTone, if_neg (hx ▸ hd : d.direction ≠ .backward)]
    split_ifs
    · exact ht
    · exact ht
  simp only [prepareMfTone, selectMfTone]
  split_ifs with h0 h1 h2 h3 h4 h5 h6
  · rfl
  · exact absurd ⟨h2, by rw [if_pos h0.1]; exact ⟨h1, h3⟩⟩ hr
  · rfl
  · exact absurd h0.1 h4
  · rfl
  · rfl
  · refine absurd ⟨h5, ?_⟩ hr
    rw [if_neg fun hx => h0 ⟨hx, fun hw => h5 (hw.trans hx.symm)⟩]
    exact h6
  · rfl
  · exact hs _ rfl rfl

/-- The test of how long a tone lasts looks at the clock, and notes the tone. -/
theorem checkThreshold_frame (tone : Tone) (c : R2Chan) : ∃ t n as,
    (checkThreshold cx env tone c).1 =
      { c with mfThresholdTone := t, mfThresholdTime := n, out := c.out ++ as } ∧
        ∀ a ∈ as, a = .gettimeofday := by
  have hl : ∀ d : R2Chan, ∃ as, (toneLongEnough cx env d).1 = { d with out := d.out ++ as } ∧
      ∀ a ∈ as, a = .gettimeofday := by
    intro d
    unfold toneLongEnough
    cases env.gettimeofday d.out <;> exact ⟨[.gettimeofday], rfl, by simp⟩
  unfold checkThreshold
  split_ifs
  · exact ⟨c.mfThresholdTone, c.mfThresholdTime, [], by simp, by simp⟩
  · cases env.gettimeofday c.out with
    | none => exact ⟨_, _, [.gettimeofday], rfl, by simp⟩
    | some now =>
      obtain ⟨as, he, ha⟩ := hl ((c.did .gettimeofday).setThreshold tone now)
      refine ⟨tone, now, .gettimeofday :: as, ?_, by simpa using ha⟩
      dsimp only
      rw [he]
      simp [R2Chan.setThreshold, R2Chan.did]
  · obtain ⟨as, he, ha⟩ := hl c
    exact ⟨_, _, as, he, ha⟩

end Tuning

section Grows

/- What a step has done stays done. -/

variable (cx : R2Context) (env : Env) (c : R2Chan)

theorem handleProtocolError_grows (reason : ProtocolError) :
    c.out <+: (handleProtocolError cx env reason c).out := by
  obtain ⟨as, ho, -⟩ := handleProtocolError_out cx c env reason
  rw [ho, List.append_assoc]
  exact List.prefix_append _ _

theorem did_grows (a : Act) : c.out <+: (c.did a).out := List.prefix_append _ _

theorem setCasSignal_grows (sig : CasSignal) : c.out <+: (setCasSignal cx env sig c).1.out := by
  unfold setCasSignal
  split_ifs
  · exact List.prefix_refl _
  · exact List.prefix_append _ _

theorem ackCall_grows : c.out <+: (ackCall cx env c).1.out := by
  have hs := setCasSignal_grows cx env c .seizeAck
  simp only [ackCall]
  split_ifs
  · exact hs.trans (handleProtocolError_grows cx env _ _)
  · exact hs

theorem offerCall_grows : c.out <+: (offerCall cx env c).out := by
  simp only [offerCall]
  split_ifs
  · exact handleProtocolError_grows cx env c _
  · exact (did_grows c (.callState .offered)).trans (did_grows (c.setCallState .offered) _)

theorem tuned_grows {d : R2Chan} (h : c.Tuned d) : c.out <+: d.out := by
  obtain ⟨-, as, ho, -⟩ := h
  rw [ho]
  exact List.prefix_append _ _

theorem prepareMfTone_grows (tone : Tone) : c.out <+: (prepareMfTone cx env tone c).out := by
  rcases prepareMfTone_cases cx env tone c with ⟨-, ht⟩ | ⟨-, d, ht, he⟩
  · exact tuned_grows c ht
  · rw [he]
    exact (tuned_grows c ht).trans (handleProtocolError_grows cx env d _)

theorem turnOffMfEngine_grows : c.out <+: (turnOffMfEngine cx c).out := by
  obtain ⟨-, -, as, ho, -⟩ := turnOffMfEngine_turnedOff cx c
  rw [ho]
  exact List.prefix_append _ _

theorem reportCallEnd_grows : c.out <+: (reportCallEnd cx env c).out := by
  obtain ⟨as, ho, -⟩ := reportCallEnd_out cx c env
  rw [ho, List.append_assoc]
  exact List.prefix_append _ _

/-- The engine goes off and the line is cleared. -/
theorem clearLine_grows (r : CasState) (sig : CasSignal) :
    c.out <+: (setCasSignal cx env sig (turnOffMfEngine cx (c.setR2State r))).1.out :=
  (turnOffMfEngine_grows cx (c.setR2State r)).trans (setCasSignal_grows cx env _ sig)

theorem sendClearForward_grows : c.out <+: (sendClearForward cx env c).1.out :=
  (tuned_grows c (.addTimer env _ .r2SetCallDown c)).trans (clearLine_grows cx env _ .clearFwdTxd _)

theorem makeCall_grows (ani : Option (List Tone)) (dnis : List Tone) (category : Category)
    (aniRestricted : Bool) : c.out <+: (makeCall cx env ani dnis category aniRestricted c).1.out := by
  have hs := setCasSignal_grows cx env c .seize
  have hd : ∀ d : R2Chan, d.out <+: (startDtmfDial cx env d).1.out := by
    intro d
    have hi := did_grows d .dtmfTxInit
    have ht := hi.trans (did_grows _ (.dtmfTxSetTiming cx.dtmfOn cx.dtmfOff))
    have hp := ht.trans (did_grows _ (.dtmfTxPut (cstr d.dnis)))
    simp only [startDtmfDial]
    split_ifs
    · exact hi
    · exact hp
    · exact hp
  have hp : ∀ d : R2Chan, d.out <+: (placeCall cx env ani dnis category aniRestricted d).1.out := by
    intro d
    have ht := tuned_grows _ (.armTimer env .r2Seize cx.timers.r2Seize .seizeTimeoutExpired (d.setR2State .seizeTxd))
    have hc := ht.trans (did_grows (keepNumbers cx ani dnis category aniRestricted
      (armTimer env .r2Seize cx.timers.r2Seize .seizeTimeoutExpired (d.setR2State .seizeTxd)))
        (.callState .dialing))
    simp only [placeCall]
    split_ifs
    · refine List.IsPrefix.trans ?_ (hd _)
      exact hc
    · exact hc
  simp only [makeCall]
  split_ifs
  · exact List.prefix_refl _
  · exact List.prefix_refl _
  · exact List.prefix_refl _
  · exact hs
  · exact hs.trans (hp _)

theorem doAnswer_grows : c.out <+: (doAnswer cx env c).1.out := by
  have hs := setCasSignal_grows cx env c .answer
  simp only [doAnswer]
  split_ifs
  · exact List.prefix_refl _
  · exact hs
  · exact hs.trans (did_grows _ (.callState .answered))

theorem disconnectCall_grows (cause : DisconnectCause) :
    c.out <+: (disconnectCall cx env cause c).1.out := by
  have hb := clearLine_grows cx env c .clearBackTxd .clearBack
  simp only [disconnectCall, disconnectBackward, disconnectForward]
  split_ifs
  · exact List.prefix_refl _
  · exact reportCallEnd_grows cx env c
  · exact hb
  · exact prepareMfTone_grows cx env (c.setMfState .disconnectTxd) _
  · exact reportCallEnd_grows cx env c
  · exact clearLine_grows cx env c .forcedReleaseTxd .forcedRelease
  · exact hb
  · exact List.prefix_refl _
  · exact tuned_grows (c.setR2State .doubleSeizureClearFwdPending)
      (.armTimer env .r2SeizePersist cx.timers.r2SeizePersist .r2SeizePersistExpired _)
  · exact reportCallEnd_grows cx env c
  · exact sendClearForward_grows cx env c

theorem apiCall_grows (a : ApiCall) : c.out <+: (apiCall cx env a c).1.out := by
  have ha := doAnswer_grows cx env c
  have hd : ∀ d : R2Chan, d.out <+: (scheduleDoubleAnswer cx env d).out := fun d =>
    tuned_grows d (.armTimer env .r2DoubleAnswer cx.timers.r2DoubleAnswer .doubleAnswerHandler d)
  cases a with
  | makeCall ani dnis category r => exact makeCall_grows cx env c ani dnis category r
  | acceptCall mode =>
    simp only [apiCall, acceptCall]
    split_ifs
    · exact List.prefix_refl _
    · exact did_grows c _
    · exact prepareMfTone_grows cx env (c.setMfState .acceptedTxd) _
  | answerCall =>
    simp only [apiCall, answerCall]
    split_ifs
    · exact ha
    · exact ha.trans (hd _)
    · exact ha
  | answerCallWithMode mode =>
    simp only [apiCall, answerCallWithMode]
    split_ifs
    · exact ha
    · exact ha.trans (hd _)
    · exact ha
  | disconnectCall cause => exact disconnectCall_grows cx env c cause
  | ackCall => exact ackCall_grows cx env c
  | setIdle =>
    obtain ⟨as, ho, -⟩ := setIdle_out cx c env
    rw [apiCall, ho, List.append_assoc]
    exact List.prefix_append _ _
  | setBlocked =>
    obtain ⟨as, ho, -⟩ := setBlocked_out cx c env
    rw [apiCall, ho, List.append_assoc]
    exact List.prefix_append _ _

theorem callback_calls_grow (e : Event) : (c.emit e).out <+: (callback cx env e c).out := by
  simp only [callback]
  split
  · exact List.prefix_refl _
  · exact apiCall_grows cx env _ _

theorem callback_grows (e : Event) : c.out <+: (callback cx env e c).out :=
  (did_grows c (.event e)).trans (callback_calls_grow cx env c e)

end Grows

end OpenR2
