import OpenR2.Proofs.TimerQueue
import OpenR2.Proofs.Reset
import OpenR2.Control

namespace OpenR2

/-- The code takes one channel to another by proper operations on the timers, for at most
these purposes and at most once for each mention. Besides, it does not take a tone to be on,
it forgets the tone with the call, and only with `r2_seize` among the purposes it seizes the
line. -/
structure Schedules (l : List TimerCallback) (c d : R2Chan) : Prop where
  timers : ∃ ops : List TimerOp, d.timers = c.timers.applyAll ops ∧ (∀ op ∈ ops, op.Proper) ∧
    (ops.filterMap TimerOp.purpose?).Sublist l
  readTone : d.mfReadTone = c.mfReadTone ∨ d.mfReadTone = 0
  seize : d.r2State = .seizeTxd → c.r2State = .seizeTxd ∨ .seizeTimeoutExpired ∈ l
  rest : d.callState = .idle → c.callState = .idle ∨ d.mfReadTone = 0

namespace Schedules

variable {c d e : R2Chan} {l m : List TimerCallback}

theorem mono (h : Schedules l c d) (hs : l.Sublist m) : Schedules m c d := by
  obtain ⟨⟨ops, ht, hp, hl⟩, hr, hz, hi⟩ := h
  exact ⟨⟨ops, ht, hp, hl.trans hs⟩, hr, fun hd => (hz hd).imp_right fun h => hs.subset h, hi⟩

theorem trans (h : Schedules l c d) (h' : Schedules m d e) : Schedules (l ++ m) c e := by
  obtain ⟨⟨ops, ht, hp, hl⟩, hr, hz, hi⟩ := h
  obtain ⟨⟨ops', ht', hp', hl'⟩, hr', hz', hi'⟩ := h'
  refine ⟨⟨ops ++ ops', ?_, ?_, ?_⟩, ?_, fun he => ?_, fun he => ?_⟩
  · rw [ht', ht]
    exact (List.foldl_append).symm
  · intro op ho
    exact (List.mem_append.mp ho).elim (hp op) (hp' op)
  · rw [List.filterMap_append]
    exact hl.append hl'
  · rcases hr' with hr' | hr'
    · exact hr.imp (hr'.trans ·) (hr'.trans ·)
    · exact .inr hr'
  · rcases hz' he with hd | hm
    · exact (hz hd).imp_right fun h => List.mem_append_left m h
    · exact .inr (List.mem_append_right l hm)
  · rcases hi' he with hd | hm
    · exact (hi hd).imp_right fun hm => hr'.elim (·.trans hm) id
    · exact .inr hm

/-- What comes before or after schedules nothing. -/
theorem andThen (h : Schedules [] c d) (h' : Schedules l d e) : Schedules l c e := h.trans h'

theorem andLast (h : Schedules l c d) (h' : Schedules [] d e) : Schedules l c e :=
  (h.trans h').mono (by simp)

/-- The timers, the tone and the seizure are left alone. -/
theorem same (ht : d.timers = c.timers) (hr : d.mfReadTone = c.mfReadTone)
    (hs : d.r2State = .seizeTxd → c.r2State = .seizeTxd)
    (hi : d.callState = .idle → c.callState = .idle) : Schedules [] c d :=
  ⟨⟨[], ht, by simp, by simp⟩, .inl hr, fun h => .inl (hs h), fun h => .inl (hi h)⟩

theorem refl (c : R2Chan) : Schedules [] c c := same rfl rfl id id

theorem did (a : Act) (c : R2Chan) : Schedules [] c (c.did a) := same rfl rfl id id

theorem emit (e : Event) (c : R2Chan) : Schedules [] c (c.emit e) := same rfl rfl id id

theorem setCallState {s : CallState} (hs : s ≠ .idle) (c : R2Chan) :
    Schedules [] c (c.setCallState s) := same rfl rfl id fun h => absurd h hs

theorem setMfState (s : MfState) (c : R2Chan) : Schedules [] c (c.setMfState s) := same rfl rfl id id

theorem setMfGroup (g : MfGroup) (c : R2Chan) : Schedules [] c (c.setMfGroup g) := same rfl rfl id id

theorem setDnisIndex (i : Nat) (c : R2Chan) : Schedules [] c (c.setDnisIndex i) := same rfl rfl id id

theorem setMfWriteTone (t : Tone) (c : R2Chan) : Schedules [] c (c.setMfWriteTone t) := same rfl rfl id id

theorem logRx (s : CasSignal) (c : R2Chan) : Schedules [] c (c.logRx s) := same rfl rfl id id

theorem setR2State {r : CasState} (hr : r ≠ .seizeTxd) (c : R2Chan) :
    Schedules [] c (c.setR2State r) := same rfl rfl (fun h => absurd h hr) id

/-- One operation. -/
theorem one (op : TimerOp) (hp : op.Proper) (c : R2Chan) :
    Schedules op.purpose?.toList c (c.mapTimers (·.apply op)) := by
  refine ⟨⟨[op], rfl, by simpa using hp, ?_⟩, .inl rfl, .inl, .inl⟩
  cases h : op.purpose? <;> simp [h]

theorem cancelTimer (slot : TimerSlot) (c : R2Chan) : Schedules [] c (c.cancelTimer slot) :=
  one (.cancel slot) trivial c

end Schedules

section Line

variable (cx : R2Context) (env : Env) (c : R2Chan)

theorem armTimer_schedules (slot : TimerSlot) (ms : Nat) :
    Schedules [slot.purpose] c (armTimer env slot ms slot.purpose c) := by
  unfold armTimer addTimer
  cases env.gettimeofday c.out with
  | none =>
    have he : Schedules [] c ((c.did .gettimeofday).emit .onOsError) := (Schedules.did _ c).andThen (.emit _ _)
    exact he.andThen (.one (.mark slot (-1)) (show (-1 : Int) ≤ 0 by decide) _)
  | some now =>
    exact (Schedules.did .gettimeofday c).andThen (.one (.arm slot now ms slot.purpose) rfl _)

theorem turnOffMfEngine_schedules : Schedules [] c (turnOffMfEngine cx c) := by
  obtain ⟨⟨r, w, x, y, q, hf⟩, ht, -⟩ := turnOffMfEngine_turnedOff cx c
  have hr : (turnOffMfEngine cx c).mfReadTone = c.mfReadTone := by rw [hf]
  have hs : (turnOffMfEngine cx c).r2State = c.r2State := by rw [hf]
  have hi : (turnOffMfEngine cx c).callState = c.callState := by rw [hf]
  refine ⟨?_, .inl hr, fun h => .inl (hs ▸ h), fun h => .inl (hi ▸ h)⟩
  rcases ht with ht | ht
  · exact ⟨[], ht, by simp, by simp⟩
  · exact ⟨[.cancel .mfBackCycle], ht, by simp [TimerOp.Proper], by simp [TimerOp.purpose?]⟩

theorem protoInit_schedules : Schedules [] c (protoInit cx c) := by
  obtain ⟨⟨rx, r, w, x, y, hf⟩, -⟩ := protoInit_reset cx c
  generalize protoInit cx c = d at hf
  refine ⟨⟨[.cancelAll], ?_, by simp [TimerOp.Proper], by simp [TimerOp.purpose?]⟩, .inr ?_,
    fun h => ?_, fun _ => .inr ?_⟩
  · rw [hf]; rfl
  · rw [hf]
  · rw [hf] at h
    exact nomatch h
  · rw [hf]

theorem setCasSignal_schedules (sig : CasSignal) : Schedules [] c (setCasSignal cx env sig c).1 := by
  unfold setCasSignal
  split_ifs
  · exact .refl c
  · exact .same rfl rfl id id

theorem setIdle_schedules : Schedules [] c (setIdle cx env c).1 :=
  (protoInit_schedules cx c).andThen (setCasSignal_schedules cx env _ .idle)

theorem setBlocked_schedules : Schedules [] c (setBlocked cx env c).1 :=
  ((protoInit_schedules cx c).andThen (.setR2State (show CasState.blocked ≠ .seizeTxd by decide) _)).andThen
    (setCasSignal_schedules cx env _ .block)

theorem handleProtocolError_schedules (reason : ProtocolError) :
    Schedules [] c (handleProtocolError cx env reason c) :=
  ((Schedules.did _ c).andThen (setIdle_schedules cx env _)).andThen (.emit _ _)

theorem reportCallDisconnection_schedules (cause : DisconnectCause) :
    Schedules [] c (reportCallDisconnection cause c) :=
  (Schedules.setCallState (s := .disconnected) nofun c).andThen (.emit _ _)

theorem reportCallEnd_schedules : Schedules [] c (reportCallEnd cx env c) :=
  (setIdle_schedules cx env c).andThen (.emit _ _)

theorem r2MeteringPulse_schedules : Schedules [] c (r2MeteringPulse c) := by
  unfold r2MeteringPulse
  split_ifs <;> exact reportCallDisconnection_schedules c _

theorem sendClearBackward_schedules : Schedules [] c (sendClearBackward cx env c).1 :=
  ((Schedules.setR2State (show CasState.clearBackTxd ≠ .seizeTxd by decide) c).andThen
    (turnOffMfEngine_schedules cx _)).andThen (setCasSignal_schedules cx env _ _)

theorem sendForcedRelease_schedules : Schedules [] c (sendForcedRelease cx env c).1 :=
  ((Schedules.setR2State (show CasState.forcedReleaseTxd ≠ .seizeTxd by decide) c).andThen
    (turnOffMfEngine_schedules cx _)).andThen (setCasSignal_schedules cx env _ _)

/-- The timer without a slot is scheduled only if the clock answers. -/
theorem addTimer_schedules (ms : Nat) :
    Schedules (if (env.gettimeofday c.out).isSome then [.r2SetCallDown] else []) c
      (addTimer env ms .r2SetCallDown c).1 := by
  unfold addTimer
  cases env.gettimeofday c.out with
  | none => exact (Schedules.did .gettimeofday c).andThen (.emit .onOsError _)
  | some now => exact (Schedules.did .gettimeofday c).andThen (.one (.add now ms .r2SetCallDown) rfl _)

theorem sendClearForward_schedules :
    Schedules (if (env.gettimeofday c.out).isSome then [.r2SetCallDown] else []) c
      (sendClearForward cx env c).1 := by
  unfold sendClearForward
  refine (addTimer_schedules env c cx.timers.r2SetCallDown).andLast ?_
  dsimp only
  generalize (addTimer env cx.timers.r2SetCallDown .r2SetCallDown c).1 = d
  exact ((Schedules.setR2State (show CasState.clearFwdTxd ≠ .seizeTxd by decide) d).andThen
    (turnOffMfEngine_schedules cx _)).andThen (setCasSignal_schedules cx env _ _)

theorem doubleAnswerHandler_schedules :
    Schedules [.doubleAnswerHandler] c (doubleAnswerHandler cx env c) := by
  have hb : Schedules [] c (sendClearBackward cx env c).1 := sendClearBackward_schedules cx env c
  have ha : Schedules [] c (setCasSignal cx env .answer c).1 := setCasSignal_schedules cx env c _
  simp only [doubleAnswerHandler]
  split_ifs
  · exact hb.mono (by simp)
  · exact (hb.andThen (.setR2State (show CasState.executingDoubleAnswer ≠ .seizeTxd by decide) _)).andThen
      (armTimer_schedules env _ .r2DoubleAnswer _)
  · exact ha.mono (by simp)
  · exact (ha.andThen (.setR2State (show CasState.answerTxd ≠ .seizeTxd by decide) _)).mono (by simp)
  · exact (Schedules.refl c).mono (by simp)

theorem startDialingDtmf_schedules : Schedules [] c (startDialingDtmf c) := .same rfl rfl id id

theorem ackCall_schedules : Schedules [] c (ackCall cx env c).1 := by
  have ha : Schedules [] c (setCasSignal cx env .seizeAck c).1 := setCasSignal_schedules cx env c _
  simp only [ackCall]
  split_ifs
  · exact ha.andThen (handleProtocolError_schedules cx env _ _)
  · exact ha

end Line

section Tones

variable (cx : R2Context) (env : Env) (c : R2Chan)

/-- The tone is a new one for a backward channel, and the MF interface takes it. -/
def RequestsWith (tone : Tone) (c : R2Chan) : Prop :=
  c.direction = .backward ∧ tone ≠ 0 ∧ c.mfWriteTone ≠ tone ∧ env.mfSelectTone c.out = true

instance (tone : Tone) : Decidable (RequestsWith env tone c) := by
  unfold RequestsWith; exact inferInstance

theorem startMfTone_schedules (tone : Tone) :
    Schedules (if c.direction = .backward then [.mfBackCycleTimeoutExpired] else []) c
      (startMfTone cx env tone c) := by
  have ha : Schedules [.mfBackCycleTimeoutExpired] c
      (armTimer env .mfBackCycle cx.timers.mfBackCycle .mfBackCycleTimeoutExpired c) :=
    armTimer_schedules env c .mfBackCycle _
  have hw : ∀ d : R2Chan, Schedules [] d ((d.did .flushWriteBuffers).setMfWriteTone tone) :=
    fun d => .same rfl rfl id id
  simp only [startMfTone]
  by_cases hb : c.direction = .backward
  · simp only [if_pos hb]
    split_ifs
    · exact ha.andLast (hw _)
    · exact ha.andLast (.did _ _)
  · simp only [if_neg hb]
    split_ifs
    · exact hw c
    · exact .did _ c

theorem selectMfTone_schedules (tone : Tone) :
    Schedules (if RequestsWith env tone c then [.mfBackCycleTimeoutExpired] else []) c
      (selectMfTone cx env tone c) := by
  have hd : Schedules [] c (c.did (.mfSelectTone c.mfWriteHandle tone)) := .did _ c
  unfold selectMfTone
  by_cases h1 : c.mfWriteTone = tone
  · rw [if_pos h1]
    exact (Schedules.refl c).mono (List.nil_sublist _)
  rw [if_neg h1]
  by_cases h2 : env.mfSelectTone c.out = false
  · simp only [if_pos h2]
    exact (hd.andThen (handleProtocolError_schedules cx env _ _)).mono (List.nil_sublist _)
  simp only [if_neg h2]
  by_cases h3 : tone = 0
  · rw [if_pos h3]
    exact (hd.andThen (.setMfWriteTone tone _)).mono (List.nil_sublist _)
  rw [if_neg h3]
  refine (hd.andThen (startMfTone_schedules cx env _ tone)).mono ?_
  by_cases hb : c.direction = .backward
  · have hr : RequestsWith env tone c := ⟨hb, h3, h1, by simpa using h2⟩
    rw [if_pos hr, if_pos (show (c.did _).direction = _ from hb)]
  · rw [if_neg (show ¬ (c.did _).direction = _ from hb)]
    exact List.nil_sublist _

theorem prepareMfTone_schedules (tone : Tone) :
    Schedules (if RequestsWith env tone c then [.mfBackCycleTimeoutExpired] else []) c
      (prepareMfTone cx env tone c) := by
  unfold prepareMfTone
  by_cases h0 : tone = 0 ∧ c.mfWriteTone ≠ 0
  · have hn : ∀ d, ¬ RequestsWith env tone d := fun d h => h.2.1 h0.1
    rw [if_pos h0, if_neg (hn c)]
    have hs := selectMfTone_schedules cx env (c.did .flushWriteBuffers) tone
    rw [if_neg (hn _)] at hs
    by_cases hf : env.flushWriteBuffers c.out = true
    · rw [if_pos hf]
      exact (Schedules.did _ c).andThen hs
    · rw [if_neg hf]
      exact .did _ c
  · rw [if_neg h0]
    exact selectMfTone_schedules cx env c tone

/-- The same without a look at the tone. -/
theorem prepareMfTone_backCycle (tone : Tone) :
    Schedules [.mfBackCycleTimeoutExpired] c (prepareMfTone cx env tone c) := by
  refine (prepareMfTone_schedules cx env c tone).mono ?_
  split_ifs
  · exact .refl _
  · exact List.nil_sublist _

theorem setSilence_schedules : Schedules [] c (setSilence cx env c) := by
  have hp := prepareMfTone_schedules cx env c 0
  rw [if_neg fun h => h.2.1 rfl] at hp
  exact hp.andThen (.setMfWriteTone 0 _)

/-- A forward channel sends or waits: there is one timer for each. -/
abbrev sendTimers : List TimerCallback := [.mfBackCycleTimeoutExpired, .mfFwdSafetyTimeoutExpired]

theorem waitTimeout_schedules : Schedules [.mfFwdSafetyTimeoutExpired] c (waitTimeout cx env c) :=
  (Schedules.setMfState _ c).andThen (armTimer_schedules env _ .mfFwdSafety _)

theorem sendTone_schedules (m : MfState) (tone : Tone) :
    Schedules sendTimers c (prepareMfTone cx env tone (c.setMfState m)) :=
  ((Schedules.setMfState m c).andThen (prepareMfTone_backCycle cx env _ tone)).mono (by decide)

theorem mfSendDnisDigit_schedules : Schedules sendTimers c (mfSendDnisDigit cx env c) := by
  have hr : Schedules [] c (c.did (.readDnis c.dnisIndex)) := .did _ c
  simp only [mfSendDnisDigit]
  split_ifs
  · exact hr.andThen (sendTone_schedules cx env _ _ _)
  · exact hr.andThen (sendTone_schedules cx env _ _ _)
  · exact hr.andThen ((waitTimeout_schedules cx env _).mono (by decide))

theorem mfSendDnis_schedules (offset : Int) : Schedules sendTimers c (mfSendDnis cx env offset c) := by
  have hd : ∀ i, Schedules sendTimers c (mfSendDnisDigit cx env (c.setDnisIndex i)) := fun i =>
    (Schedules.setDnisIndex i c).andThen (mfSendDnisDigit_schedules cx env _)
  unfold mfSendDnis
  split_ifs
  · exact hd _
  · exact mfSendDnisDigit_schedules cx env c
  · exact hd _
  · exact (handleProtocolError_schedules cx env c _).mono (List.nil_sublist _)

theorem mfSendCategory_schedules : Schedules sendTimers c (mfSendCategory cx env c) := by
  have hs : Schedules [] c (c.setMfState .categoryTxd).setCategorySent := .same rfl rfl id id
  exact (hs.andThen (prepareMfTone_backCycle cx env _ _)).mono (by decide)

theorem mfSendAniDigit_schedules : Schedules sendTimers c (mfSendAniDigit cx env c) := by
  have hr : Schedules [] c (c.did (.readAni c.aniPtr)) := .did _ c
  simp only [mfSendAniDigit]
  split_ifs
  · exact sendTone_schedules cx env c _ _
  · exact (hr.andThen (sendTone_schedules cx env _ _ _)).andLast (.same rfl rfl id id)
  · exact hr.andThen (sendTone_schedules cx env _ _ _)
  · exact hr.andThen (sendTone_schedules cx env _ _ _)
  · exact hr.andThen ((waitTimeout_schedules cx env _).mono (by decide))

theorem mfSendAni_schedules : Schedules sendTimers c (mfSendAni cx env c) := by
  unfold mfSendAni
  split_ifs
  · exact (Schedules.setMfGroup _ c).andThen (mfSendDnis_schedules cx env _ 1)
  · exact mfSendAniDigit_schedules cx env c

end Tones

section Forward

variable (cx : R2Context) (env : Env) (c : R2Chan)

theorem callAnswered_schedules : Schedules [] c (callAnswered cx c) := by
  have ha : Schedules [] c (((c.cancelTimer .r2Answer).setR2State .answerRxd).setCallState .answered) :=
    ((Schedules.cancelTimer _ c).andThen
      (.setR2State (show CasState.answerRxd ≠ .seizeTxd by decide) _)).andThen (.setCallState (s := .answered) nofun _)
  have hb := ha.andThen (turnOffMfEngine_schedules cx _)
  simp only [callAnswered]
  generalize turnOffMfEngine cx _ = e at hb ⊢
  exact hb.andThen (.same rfl rfl id id)

/-- The wait for the answer begins, unless the line has answered already. -/
theorem handleAcceptTone_schedules (hq : env.Quiet) (mode : CallMode) :
    Schedules (if c.r2State = .answerRxdMfPending then [] else [.r2AnswerTimeoutExpired]) c
      (handleAcceptTone cx env mode c) := by
  have hr : Schedules [] c (c.setR2State .acceptRxd) :=
    .setR2State (show CasState.acceptRxd ≠ .seizeTxd by decide) c
  have he := fun d => Schedules.emit (.onCallAccepted mode) d
  simp only [handleAcceptTone, callback, hq _]
  by_cases h : c.r2State = .answerRxdMfPending
  · simp only [if_pos h]
    split_ifs
    · exact hr.andThen (he _)
    · exact (hr.andThen (he _)).andThen (callAnswered_schedules cx _)
  · simp only [if_neg h]
    exact (hr.andThen (armTimer_schedules env _ .r2Answer _)).andLast (he _)

theorem callRejected_schedules (cause : DisconnectCause) : Schedules [] c (callRejected cause c) :=
  (Schedules.setR2State (show CasState.clearBackToneRxd ≠ .seizeTxd by decide) c).andThen
    (reportCallDisconnection_schedules _ cause)

/-- The timers that the end of a backward tone may schedule. -/
def silenceTimers : List TimerCallback :=
  if takesForAcceptance cx c ∧ c.r2State ≠ .answerRxdMfPending then [.r2AnswerTimeoutExpired]
  else sendTimers

variable {cx env c}

theorem handleBackwardMfSilence_schedules (hq : env.Quiet) :
    Schedules (silenceTimers cx c) c (handleBackwardMfSilence cx env c.mfReadTone c) := by
  have hn : ∀ {d}, Schedules [] c d → Schedules (silenceTimers cx c) c d :=
    fun h => h.mono (List.nil_sublist _)
  have hr : ∀ cause, Schedules (silenceTimers cx c) c (callRejected cause c) :=
    fun cause => hn (callRejected_schedules c cause)
  have hx : ∀ reason, Schedules (silenceTimers cx c) c (handleProtocolError cx env reason c) :=
    fun reason => hn (handleProtocolError_schedules cx env c reason)
  have ha : ∀ mode, takesForAcceptance cx c →
      Schedules (silenceTimers cx c) c (handleAcceptTone cx env mode c) := by
    intro mode h
    by_cases hp : c.r2State = .answerRxdMfPending
    · exact hn (by simpa only [if_pos hp] using handleAcceptTone_schedules cx env c hq mode)
    · rw [silenceTimers, if_pos ⟨h, hp⟩]
      simpa only [if_neg hp] using handleAcceptTone_schedules cx env c hq mode
  have hs : ∀ {d}, ¬ takesForAcceptance cx c → Schedules sendTimers c d →
      Schedules (silenceTimers cx c) c d := by
    intro d h hd
    rwa [silenceTimers, if_neg fun h' => h h'.1]
  have hg : ∀ g, Schedules sendTimers c (mfSendCategory cx env (c.setMfGroup g)) := fun g =>
    (Schedules.setMfGroup g c).andThen (mfSendCategory_schedules cx env _)
  unfold handleBackwardMfSilence
  split
  all_goals rename_i hgr
  · have ht : takesForAcceptance cx c ↔ dnisRequest cx c.mfReadTone = none ∧
        ¬ (c.categorySent ∧ c.mfReadTone = cx.gaTones.requestNextAniDigit) ∧
        c.mfReadTone ≠ requestCategoryTone cx ∧ c.mfReadTone ≠ cx.gaTones.requestChangeToG2 ∧
        c.mfReadTone = cx.gaTones.addressCompleteChargeSetup := by
      simp only [takesForAcceptance, hgr]
    unfold handleGroupARequest
    split
    · rename_i offset ho
      refine hs (fun h => ?_) ?_
      · exact nomatch ho.symm.trans (ht.mp h).1
      · unfold handleDnisRequest
        split_ifs
        · exact (Schedules.setDnisIndex 0 c).andThen (mfSendDnis_schedules cx env _ _)
        · exact mfSendDnis_schedules cx env c _
    · rename_i ho
      split_ifs with h1 h2 h3 h4 h5 h6
      · exact hs (fun h => (ht.mp h).2.1 h1) (mfSendAni_schedules cx env c)
      · exact hs (fun h => (ht.mp h).2.2.1 h2) (hg _)
      · exact hs (fun h => (ht.mp h).2.2.1 h2) (mfSendCategory_schedules cx env c)
      · exact hs (fun h => (ht.mp h).2.2.2.1 h4) (hg _)
      · exact ha _ (ht.mpr ⟨ho, h1, h2, h4, h5⟩)
      · exact hr _
      · exact hx _
  · have ht : takesForAcceptance cx c ↔ isAcceptTone cx c.mfReadTone := by
      simp only [takesForAcceptance, hgr]
    unfold handleGroupBRequest
    split_ifs with h1
    · exact ha _ (ht.mpr h1)
    all_goals first | exact hr _ | exact hx _
  · have ht : ¬ takesForAcceptance cx c := by simp [takesForAcceptance, hgr]
    unfold handleGroupCRequest
    split_ifs
    · exact hs ht (mfSendAni_schedules cx env c)
    · exact hs ht (hg _)
    · exact hs ht ((Schedules.setMfGroup _ c).andThen (mfSendDnis_schedules cx env _ 1))
    · exact hr _
    · exact hx _
  · exact hx _

end Forward

section Backward

variable (cx : R2Context) (env : Env) (c : R2Chan)

/-- A backward channel asks with a tone, and waits for the reply. -/
abbrev askTimers : List TimerCallback := [.mfBackCycleTimeoutExpired]

theorem callback_schedules (hq : env.Quiet) (e : Event) : Schedules [] c (callback cx env e c) := by
  simp only [callback, hq _]
  exact .emit e c

theorem offerCall_schedules : Schedules [] c (offerCall cx env c) := by
  unfold offerCall
  split_ifs
  · exact handleProtocolError_schedules cx env c _
  · exact (Schedules.setCallState (s := .offered) nofun c).andThen (.emit _ _)

/-- The request after a change of the MF state. -/
theorem askTone_schedules (m : MfState) (tone : Tone) :
    Schedules askTimers c (prepareMfTone cx env tone (c.setMfState m)) :=
  (Schedules.setMfState m c).andThen (prepareMfTone_backCycle cx env _ tone)

theorem requestChangeToG2_schedules : Schedules askTimers c (requestChangeToG2 cx env c) := by
  have hg : Schedules [] c ((c.setMfGroup .gb).setMfState .chgGiiTxd) := .same rfl rfl id id
  unfold requestChangeToG2
  exact hg.andThen (prepareMfTone_backCycle cx env _ _)

theorem tryChangeToG2_schedules : Schedules askTimers c (tryChangeToG2 cx env c) := by
  unfold tryChangeToG2
  split_ifs
  · exact (askTone_schedules cx env c _ _).andLast (offerCall_schedules cx env _)
  · exact requestChangeToG2_schedules cx env c

theorem tryRequestCallingPartyCategory_schedules :
    Schedules askTimers c (tryRequestCallingPartyCategory cx env c) := by
  simp only [tryRequestCallingPartyCategory, requestCallingPartyCategory]
  split_ifs
  · exact tryChangeToG2_schedules cx env c
  · exact (Schedules.setMfGroup _ c).andThen (askTone_schedules cx env _ _ _)
  · exact (Schedules.setMfGroup _ c).andThen (askTone_schedules cx env _ _ _)

theorem requestNextDnisDigit_schedules : Schedules askTimers c (requestNextDnisDigit cx env c) :=
  (Schedules.setMfGroup _ c).andThen (askTone_schedules cx env _ _ _)

/-- The silence of a caller without digits is answered by one more request. -/
def resumesCycle (c : R2Chan) : Prop :=
  cx.g1Tones.noMoreDnisAvailable = Tone.invalid ∧ c.mfGroup = .ga ∧
    (c.mfState = .dnisRqTxd ∨ c.mfState = .aniRqTxd)

instance : Decidable (resumesCycle cx c) := by
  unfold resumesCycle; exact inferInstance

theorem mfBackCycleTimeoutExpired_schedules :
    Schedules (if resumesCycle cx c then [.mfBackResumeCycle, .mfBackCycleTimeoutExpired] else []) c
      (mfBackCycleTimeoutExpired cx env c) := by
  have ha : Schedules [.mfBackResumeCycle] c (armTimer env .mfBackResumeCycle
      cx.timers.mfBackResumeCycle .mfBackResumeCycle c) := armTimer_schedules env c .mfBackResumeCycle _
  unfold mfBackCycleTimeoutExpired
  by_cases h : resumesCycle cx c
  · have hr := h
    unfold resumesCycle at hr
    rw [if_pos h, if_pos hr]
    dsimp only
    split_ifs
    · exact ha.trans (tryRequestCallingPartyCategory_schedules cx env _)
    · exact ha.trans (tryChangeToG2_schedules cx env _)
  · have hr := h
    unfold resumesCycle at hr
    rw [if_neg h, if_neg hr]
    exact handleProtocolError_schedules cx env c _

theorem storeDnisDigit_schedules (tone : Tone) : Schedules [] c (storeDnisDigit tone c) := by
  unfold storeDnisDigit
  split_ifs
  · exact .refl c
  · exact .same rfl rfl id id

theorem storeAniDigit_schedules (tone : Tone) : Schedules [] c (storeAniDigit tone c) :=
  .same rfl rfl id id

theorem afterDnisDigit_schedules (rc : Bool) : Schedules askTimers c (afterDnisDigit cx env rc c) := by
  unfold afterDnisDigit
  split_ifs
  · exact tryRequestCallingPartyCategory_schedules cx env c
  · exact tryChangeToG2_schedules cx env c
  · exact tryRequestCallingPartyCategory_schedules cx env c
  · exact requestNextDnisDigit_schedules cx env c

theorem mfReceiveExpectedDnis_schedules (hq : env.Quiet) (tone : Tone) :
    Schedules askTimers c (mfReceiveExpectedDnis cx env tone c) := by
  simp only [mfReceiveExpectedDnis]
  split_ifs
  · exact ((storeDnisDigit_schedules c tone).andThen (callback_schedules cx env _ hq _)).andThen
      (afterDnisDigit_schedules cx env _ _)
  · exact tryRequestCallingPartyCategory_schedules cx env c
  · exact tryChangeToG2_schedules cx env c
  · exact (handleProtocolError_schedules cx env c _).mono (List.nil_sublist _)

theorem doneGettingAni_schedules : Schedules askTimers c (doneGettingAni cx env c) := by
  unfold doneGettingAni
  split_ifs
  · exact tryChangeToG2_schedules cx env c
  · exact requestNextDnisDigit_schedules cx env c

theorem mfReceiveExpectedAni_schedules (hq : env.Quiet) (tone : Tone) :
    Schedules askTimers c (mfReceiveExpectedAni cx env tone c) := by
  have hs : Schedules [] c (callback cx env (.onAniDigitReceived tone) (storeAniDigit tone c)) :=
    (storeAniDigit_schedules c tone).andThen (callback_schedules cx env _ hq _)
  have hr : Schedules [] c c.restrictAni := .same rfl rfl id id
  simp only [mfReceiveExpectedAni]
  split_ifs
  · exact hs.andThen (askTone_schedules cx env _ _ _)
  · exact hs.andThen (doneGettingAni_schedules cx env _)
  · exact askTone_schedules cx env c _ _
  · exact doneGettingAni_schedules cx env c
  · exact hr.andThen (doneGettingAni_schedules cx env _)
  · exact doneGettingAni_schedules cx env c
  · exact (handleProtocolError_schedules cx env c _).mono (List.nil_sublist _)

theorem receiveCategory_schedules (hq : env.Quiet) (tone : Tone) :
    Schedules askTimers c (receiveCategory cx env tone c) := by
  have hc : Schedules [] c (c.setCallerCategory tone) := .same rfl rfl id id
  simp only [receiveCategory]
  split_ifs
  · exact hc.andThen (mfReceiveExpectedAni_schedules cx env _ hq 0)
  · exact hc.andThen (tryChangeToG2_schedules cx env _)
  · exact hc.andThen (requestChangeToG2_schedules cx env _)

/-- `handle_forward_mf_tone` after it has cancelled the wait for the tone. -/
theorem handleForwardMfTone_schedules (hq : env.Quiet) (tone : Tone) :
    Schedules askTimers (c.cancelTimer .mfBackCycle) (handleForwardMfTone cx env tone c) := by
  simp only [handleForwardMfTone]
  generalize c.cancelTimer .mfBackCycle = d
  split
  · split_ifs
    · exact mfReceiveExpectedAni_schedules cx env d hq _
    · exact mfReceiveExpectedDnis_schedules cx env d hq _
  all_goals first
    | exact mfReceiveExpectedDnis_schedules cx env d hq _
    | exact receiveCategory_schedules cx env d hq _
    | exact mfReceiveExpectedAni_schedules cx env d hq _
    | exact (offerCall_schedules cx env d).mono (List.nil_sublist _)
    | exact (handleProtocolError_schedules cx env d _).mono (List.nil_sublist _)

theorem handleForwardMfSilence_schedules :
    Schedules [.readyToAnswer] c (handleForwardMfSilence cx env c) := by
  have hs : Schedules [] c (setSilence cx env c) := setSilence_schedules cx env c
  have hd : ∀ d, Schedules [.readyToAnswer] d (mfDanceEnded cx env d) := fun d =>
    ((turnOffMfEngine_schedules cx d).andThen (.setCallState (s := .accepted) nofun _)).andThen
      (armTimer_schedules env _ .r2AnswerDelay _)
  have hn : ∀ {d}, Schedules [] (setSilence cx env c) d → Schedules [.readyToAnswer] c d :=
    fun h => (hs.andThen h).mono (List.nil_sublist _)
  simp only [handleForwardMfSilence]
  split
  all_goals first
    | exact hs.andThen (hd _)
    | exact hn (.refl _)
    | exact hn (handleProtocolError_schedules cx env _ _)
    | exact hn (.one .cancelAll trivial _)

end Backward

section Detector

variable (cx : R2Context) (env : Env) (c : R2Chan)

theorem checkThreshold_schedules (tone : Tone) : Schedules [] c (checkThreshold cx env tone c).1 := by
  have hg : Schedules [] c (c.did .gettimeofday) := .did _ c
  have ht : ∀ d, Schedules [] d (toneLongEnough cx env d).1 := by
    intro d
    unfold toneLongEnough
    split <;> exact .did _ d
  unfold checkThreshold
  split_ifs
  · exact .refl c
  · split
    · exact hg
    · rename_i now hn
      have hs : Schedules [] c ((c.did .gettimeofday).setThreshold tone now) := .same rfl rfl id id
      exact hs.andThen (ht _)
  · exact ht c

end Detector

section Api

variable (cx : R2Context) (env : Env) (c : R2Chan)

theorem placeCall_schedules (ani : Option (List Tone)) (dnis : List Tone) (category : Category)
    (restricted : Bool) :
    Schedules [.seizeTimeoutExpired] c (placeCall cx env ani dnis category restricted c).1 := by
  have ha : Schedules [.seizeTimeoutExpired] c
      (armTimer env .r2Seize cx.timers.r2Seize .seizeTimeoutExpired (c.setR2State .seizeTxd)) := by
    obtain ⟨ht, hr, -, hi⟩ := armTimer_schedules env (c.setR2State .seizeTxd) .r2Seize cx.timers.r2Seize
    exact ⟨ht, hr, fun _ => .inr List.mem_cons_self, hi⟩
  simp only [placeCall]
  generalize armTimer env .r2Seize cx.timers.r2Seize .seizeTimeoutExpired (c.setR2State .seizeTxd) = d
    at ha
  have hk : Schedules [] d (((keepNumbers cx ani dnis category restricted d).setCallState
      .dialing).setDirection .forward) := .same rfl rfl id (by rintro ⟨⟩)
  split_ifs
  · refine (ha.andLast hk).andLast ?_
    simp only [startDtmfDial]
    split_ifs
    · exact .did _ _
    · exact .same rfl rfl id id
    · exact .same rfl rfl id id
  · exact (ha.andLast hk).andLast (.setMfGroup _ _)

theorem acceptCall_schedules (hm : cx.Mfc) (mode : CallMode) :
    Schedules (if c.callState = .offered ∧ RequestsWith env (getToneFromMode cx mode) c
      then askTimers else []) c (acceptCall cx env mode c).1 := by
  simp only [acceptCall, hm.detect, Bool.false_eq_true, if_false]
  by_cases ho : c.callState = .offered
  · simp only [ho, ne_eq, not_true_eq_false, if_false, true_and]
    exact (Schedules.setMfState .acceptedTxd c).andThen
      (prepareMfTone_schedules cx env (c.setMfState .acceptedTxd) _)
  · rw [if_pos ho, if_neg fun h => ho h.1]
    exact .refl c

theorem doAnswer_schedules : Schedules [] c (doAnswer cx env c).1 := by
  have ha : Schedules [] c (setCasSignal cx env .answer c).1 := setCasSignal_schedules cx env c _
  simp only [doAnswer]
  split_ifs
  · exact .refl c
  · exact ha
  · refine ha.andThen ?_
    exact .same rfl rfl (by rintro ⟨⟩) (by rintro ⟨⟩)

/-- A double answer goes on with a timer. -/
theorem answerCall_schedules (a : ApiCall) (ha : a = .answerCall ∨ ∃ mode, a = .answerCallWithMode mode) :
    Schedules (if (doAnswer cx env c).2 = 0 then [.doubleAnswerHandler] else []) c
      (apiCall cx env a c).1 := by
  have hd := doAnswer_schedules cx env c
  have hs : ∀ b : Bool, Schedules (if (doAnswer cx env c).2 = 0 then [.doubleAnswerHandler] else []) c
      (if (doAnswer cx env c).2 ≠ 0 then ((doAnswer cx env c).1, (-1 : Int))
        else (if b then scheduleDoubleAnswer cx env (doAnswer cx env c).1 else (doAnswer cx env c).1, 0)).1 := by
    intro b
    by_cases h : (doAnswer cx env c).2 = 0
    · rw [if_pos h, if_neg (not_not.mpr h)]
      dsimp only
      split_ifs
      · exact hd.andThen (armTimer_schedules env _ .r2DoubleAnswer _)
      · exact hd.mono (List.nil_sublist _)
    · rw [if_neg h, if_pos h]
      exact hd
  rcases ha with rfl | ⟨mode, rfl⟩
  · exact hs cx.doubleAnswer
  · have hd := hs (decide (mode = .double))
    simp only [decide_eq_true_eq] at hd
    exact hd

/-- The tone with which an offered call is refused. -/
def refusalTone (cause : DisconnectCause) : Tone :=
  if disconnectTone cx cause = Tone.invalid then cx.gbTones.networkCongestion
  else disconnectTone cx cause

theorem disconnectBackward_schedules (hm : cx.Mfc) (cause : DisconnectCause) :
    Schedules (if c.callState = .offered ∧ RequestsWith env (refusalTone cx cause) c
      then askTimers else []) c (disconnectBackward cx env cause c).1 := by
  simp only [disconnectBackward, hm.detect, Bool.false_eq_true, if_false]
  by_cases ho : c.callState = .offered
  · simp only [ho, if_true, true_and]
    exact (Schedules.setMfState .disconnectTxd c).andThen
      (prepareMfTone_schedules cx env (c.setMfState .disconnectTxd) _)
  · rw [if_neg ho, if_neg fun h => ho h.1]
    split_ifs
    · exact reportCallEnd_schedules cx env c
    · exact sendForcedRelease_schedules cx env c
    · exact sendClearBackward_schedules cx env c

/-- The timers that the forward half of `openr2_proto_disconnect_call` may schedule. -/
def clearTimers : List TimerCallback :=
  if c.r2State = .doubleSeizure then [.r2SeizePersistExpired]
  else if c.r2State ≠ .seizeTxd ∧ c.r2State ≠ .clearFwdRxd ∧ (env.gettimeofday c.out).isSome then
    [.r2SetCallDown]
  else []

theorem disconnectForward_schedules :
    Schedules (clearTimers env c) c (disconnectForward cx env c).1 := by
  have hn : ∀ {d}, Schedules [] c d → Schedules (clearTimers env c) c d :=
    fun h => h.mono (List.nil_sublist _)
  simp only [disconnectForward]
  split_ifs with h1 h2 h3
  · exact hn (.setR2State (show CasState.seizeTxdClearFwdPending ≠ .seizeTxd by decide) c)
  · rw [clearTimers, if_pos h2]
    exact (Schedules.setR2State (show CasState.doubleSeizureClearFwdPending ≠ .seizeTxd by decide) c).andThen
      (armTimer_schedules env _ .r2SeizePersist _)
  · exact hn (reportCallEnd_schedules cx env c)
  · refine (sendClearForward_schedules cx env c).mono ?_
    rw [clearTimers, if_neg h2]
    split_ifs with hc hx
    · exact .refl _
    · exact absurd ⟨h1, h3, hc⟩ hx
    · exact List.nil_sublist _
    · exact .refl _

/-- The timers that a call of the user may schedule, one of them at most. -/
def apiTimers : List TimerCallback :=
  [.seizeTimeoutExpired, .mfBackCycleTimeoutExpired, .doubleAnswerHandler, .r2SeizePersistExpired,
    .r2SetCallDown]

theorem apiCall_schedules (a : ApiCall) : Schedules apiTimers c (apiCall cx env a c).1 := by
  have hn : ∀ {d}, Schedules [] c d → Schedules apiTimers c d := fun h => h.mono (List.nil_sublist _)
  have hask : ∀ {d tone}, Schedules [] c d → Schedules apiTimers c (prepareMfTone cx env tone d) := by
    intro d tone h
    refine (h.andThen (prepareMfTone_schedules cx env d tone)).mono ?_
    split_ifs
    · decide
    · exact List.nil_sublist _
  cases a with
  | makeCall ani dnis category restricted =>
    simp only [apiCall, makeCall]
    split_ifs
    · exact hn (.refl c)
    · exact hn (.refl c)
    · exact hn (.refl c)
    · exact hn (setCasSignal_schedules cx env c _)
    · exact ((setCasSignal_schedules cx env c _).andThen
        (placeCall_schedules cx env _ ani dnis category restricted)).mono (by decide)
  | acceptCall mode =>
    simp only [apiCall, acceptCall]
    split_ifs
    · exact hn (.refl c)
    · exact hn (.emit _ c)
    · exact hask (.setMfState .acceptedTxd c)
  | answerCall =>
    refine (answerCall_schedules cx env c _ (.inl rfl)).mono ?_
    split_ifs
    · decide
    · exact List.nil_sublist _
  | answerCallWithMode mode =>
    refine (answerCall_schedules cx env c _ (.inr ⟨mode, rfl⟩)).mono ?_
    split_ifs
    · decide
    · exact List.nil_sublist _
  | disconnectCall cause =>
    simp only [apiCall, disconnectCall]
    split_ifs
    · exact hn (.refl c)
    · simp only [disconnectBackward]
      split_ifs
      · exact hn (reportCallEnd_schedules cx env c)
      · exact hn (sendClearBackward_schedules cx env c)
      · exact hask (.setMfState .disconnectTxd c)
      · exact hn (reportCallEnd_schedules cx env c)
      · exact hn (sendForcedRelease_schedules cx env c)
      · exact hn (sendClearBackward_schedules cx env c)
    · refine (disconnectForward_schedules cx env c).mono ?_
      unfold clearTimers
      split_ifs
      · decide
      · decide
      · exact List.nil_sublist _
  | ackCall => exact hn (ackCall_schedules cx env c)
  | setIdle => exact hn (setIdle_schedules cx env c)
  | setBlocked => exact hn (setBlocked_schedules cx env c)

/-- A callback that may call back. -/
theorem callback_calls (e : Event) : Schedules apiTimers c (callback cx env e c) := by
  have he : Schedules [] c (c.emit e) := .emit e c
  simp only [callback]
  split
  · exact he.mono (List.nil_sublist _)
  · exact he.andThen (apiCall_schedules cx env _ _)

end Api

section Cas

/- What the callback of a new call schedules is a parameter: nothing, where it only looks. -/

variable {cx : R2Context} {env : Env} {c : R2Chan} {l : List TimerCallback}

theorem incomingCall_schedules (hl : ∀ e d, Schedules l d (callback cx env e d)) :
    Schedules l c (incomingCall cx env c) := by
  have hi : Schedules [] c (((c.setR2State .seizeAckTxd).setCallState .collecting).setDirection
      .backward) := .same rfl rfl nofun nofun
  simp only [incomingCall]
  split_ifs
  · exact (hi.andThen (hl _ _)).andLast (ackCall_schedules cx env _)
  · exact hi.andThen (hl _ _)

theorem handleIncomingCall_schedules (hl : ∀ e d, Schedules l d (callback cx env e d)) :
    Schedules l c (handleIncomingCall cx env c) := by
  have hx : ∀ {d}, Schedules [] c d → Schedules l c (handleProtocolError cx env .internalError d) :=
    fun h => (h.andThen (handleProtocolError_schedules cx env _ _)).mono (List.nil_sublist _)
  simp only [handleIncomingCall]
  split_ifs
  · exact hx (.did _ c)
  · have hd := Schedules.did .dtmfRxInit c
    generalize c.did .dtmfRxInit = e at hd ⊢
    refine hd.andThen (.andThen ?_ (incomingCall_schedules hl))
    exact .same rfl rfl id id
  · split
    · exact hx (.did _ c)
    · have hw := Schedules.did (.mfWriteInit c.mfWriteHandle false) c
      generalize c.did (.mfWriteInit c.mfWriteHandle false) = e at hw ⊢
      have hd := hw.andThen (.did (.mfReadInit e.mfReadHandle true) e)
      generalize e.did (.mfReadInit e.mfReadHandle true) = b at hd ⊢
      split
      · exact hx hd
      · refine hd.andThen (.andThen ?_ (incomingCall_schedules hl))
        exact .same rfl rfl id id

theorem invalidCas_schedules (reason : ProtocolError) : Schedules [] c (invalidCas cx env reason c) :=
  (Schedules.logRx .invalid c).andThen (handleProtocolError_schedules cx env _ reason)

theorem endOn_schedules (sig : CasSignal) : Schedules [] c (reportCallEnd cx env (c.logRx sig)) :=
  (Schedules.logRx sig c).andThen (reportCallEnd_schedules cx env _)

theorem reportOn_schedules (sig : CasSignal) {r : CasState} (cause : DisconnectCause)
    (hr : r ≠ .seizeTxd) :
    Schedules [] c (reportCallDisconnection cause ((c.logRx sig).setR2State r)) :=
  ((Schedules.logRx sig c).andThen (.setR2State hr _)).andThen (reportCallDisconnection_schedules _ _)

/-- The states and signals of a backward disconnection agree. -/
theorem disconnection_state_ne {cas : Nat} {x : Disconnection}
    (h : checkBackwardDisconnection cx cas = some x) : x.state ≠ .seizeTxd := by
  unfold checkBackwardDisconnection at h
  split_ifs at h <;> exact (Option.some.inj h) ▸ (by decide)

/-- The timers that the switch may schedule for a pattern in a line state. -/
def lineTimers (cx : R2Context) (cas : Nat) (c : R2Chan) : List TimerCallback :=
  match c.r2State with
  | .seizeTxd =>
    if cx.dialWithDtmf then [.startDialingDtmf, .r2AnswerTimeoutExpired] else sendTimers
  | .seizeTxdClearFwdPending => [.r2SetCallDown]
  | .answerRxdMfPending | .answerRxd =>
    if cx.timers.r2MeteringPulse ≠ 0 ∧
      (cas = cx.casSignals .clearBack ∨ cas = cx.casSignals .forcedRelease) then [.r2MeteringPulse]
    else []
  | _ => []

theorem seizeAcknowledged_schedules :
    Schedules (if cx.dialWithDtmf then [.startDialingDtmf, .r2AnswerTimeoutExpired] else sendTimers) c
      (seizeAcknowledged cx env c) := by
  have hr : Schedules [] c (c.setR2State .seizeAckRxd) :=
    .setR2State (show CasState.seizeAckRxd ≠ .seizeTxd by decide) c
  have hi : ∀ d : R2Chan, Schedules [] d (((d.setMfGroup .gi).did (.mfWriteInit d.mfWriteHandle true)).did
      (.mfReadInit d.mfReadHandle false)) := fun d => .same rfl rfl id id
  have ha : ∀ d : R2Chan, Schedules [.startDialingDtmf, .r2AnswerTimeoutExpired] d
      (armTimer env .r2Answer cx.timers.r2Answer .r2AnswerTimeoutExpired
        (armTimer env .dtmfStartDial cx.timers.dtmfStartDial .startDialingDtmf d)) := fun d =>
    (armTimer_schedules env d .dtmfStartDial _).trans (armTimer_schedules env _ .r2Answer _)
  simp only [seizeAcknowledged]
  split_ifs
  · exact (hr.andThen (ha _)).andLast (.emit _ _)
  · exact ((hr.andThen (hi _)).andThen (mfSendDnis_schedules cx env _ 0)).andLast (.emit _ _)

theorem casSeizeTxd_schedules (hr : c.r2State = .seizeTxd ∨ c.r2State = .seizeTxdClearFwdPending)
    (cas : Nat) : Schedules (lineTimers cx cas c) c (casSeizeTxd cx env cas c) := by
  have hn : ∀ {d}, Schedules [] c d → Schedules (lineTimers cx cas c) c d :=
    fun h => h.mono (List.nil_sublist _)
  have hx : Schedules [] c ((c.logRx .seizeAck).cancelTimer .r2Seize) :=
    (Schedules.logRx _ c).andThen (.cancelTimer _ _)
  simp only [casSeizeTxd]
  split_ifs with h1 h2 h3
  · have h2 : c.r2State = .seizeTxdClearFwdPending := h2
    have hs := sendClearForward_schedules cx env ((c.logRx .seizeAck).cancelTimer .r2Seize)
    simp only [lineTimers, h2]
    refine (hx.andThen hs).mono ?_
    split_ifs
    · exact .refl _
    · exact List.nil_sublist _
  · have h2 : c.r2State = .seizeTxd := hr.resolve_right h2
    simp only [lineTimers, h2]
    exact hx.andThen seizeAcknowledged_schedules
  · exact hn ((((Schedules.logRx _ c).andThen
      (.setR2State (show CasState.doubleSeizure ≠ .seizeTxd by decide) _)).andThen
      (.cancelTimer _ _)).andThen (reportCallDisconnection_schedules _ _))
  · exact hn (invalidCas_schedules _)

theorem casAnswerRxd_schedules (hr : c.r2State = .answerRxdMfPending ∨ c.r2State = .answerRxd)
    (cas : Nat) : Schedules (lineTimers cx cas c) c (casAnswerRxd cx env cas c) := by
  have hn : ∀ {d}, Schedules [] c d → Schedules (lineTimers cx cas c) c d :=
    fun h => h.mono (List.nil_sublist _)
  have hp : ∀ (sig : CasSignal) (r : CasState) (cause : DisconnectCause), r ≠ .seizeTxd →
      cas = cx.casSignals .clearBack ∨ cas = cx.casSignals .forcedRelease →
      Schedules (lineTimers cx cas c) c (releaseOrPulse cx env cause ((c.logRx sig).setR2State r)) := by
    intro sig r cause hs hc
    unfold releaseOrPulse
    split_ifs with hm
    · have hl : lineTimers cx cas c = [.r2MeteringPulse] := by
        rcases hr with hr | hr <;> simp only [lineTimers, hr] <;> exact if_pos ⟨hm, hc⟩
      rw [hl]
      exact ((Schedules.logRx sig c).andThen (.setR2State hs _)).andThen
        (armTimer_schedules env _ .r2MeteringPulse _)
    · exact hn (reportOn_schedules sig cause hs)
  simp only [casAnswerRxd]
  split_ifs with h1 h2 h3
  · exact hp _ _ _ (by decide) (.inl h1)
  · exact hn (reportOn_schedules _ _ (by decide))
  · exact hp _ _ _ (by decide) (.inr h3)
  · exact hn (invalidCas_schedules _)

theorem emitOn_schedules (sig : CasSignal) (e : Event) : Schedules [] c ((c.logRx sig).emit e) :=
  (Schedules.logRx sig c).andThen (.emit e _)

theorem hopOn_schedules (sig : CasSignal) {r : CasState} (hr : r ≠ .seizeTxd) :
    Schedules [] c ((c.logRx sig).setR2State r) :=
  (Schedules.logRx sig c).andThen (.setR2State hr _)

variable (cas : Nat)

theorem casIdle_schedules (hl : ∀ e d, Schedules l d (callback cx env e d)) :
    Schedules l c (casIdle cx env cas c) := by
  unfold casIdle
  split_ifs
  · exact (emitOn_schedules _ _).mono (List.nil_sublist _)
  · exact (emitOn_schedules _ _).mono (List.nil_sublist _)
  · exact (Schedules.logRx _ c).andThen (handleIncomingCall_schedules hl)
  · exact (invalidCas_schedules _).mono (List.nil_sublist _)

theorem casBackwardCall_schedules : Schedules [] c (casBackwardCall cx env cas c) := by
  unfold casBackwardCall
  split_ifs
  · exact reportOn_schedules _ _ (by decide)
  · exact invalidCas_schedules _

theorem casDoubleSeizure_schedules : Schedules [] c (casDoubleSeizure cx env cas c) := by
  unfold casDoubleSeizure
  split_ifs
  · exact hopOn_schedules _ (by decide)
  · exact endOn_schedules _
  · exact invalidCas_schedules _

theorem casDisconnectTxd_schedules : Schedules [] c (casDisconnectTxd cx env cas c) := by
  unfold casDisconnectTxd
  split_ifs
  · exact endOn_schedules _
  · exact invalidCas_schedules _

theorem casAcceptRxd_schedules : Schedules [] c (casAcceptRxd cx env cas c) := by
  unfold casAcceptRxd
  split_ifs
  · exact (Schedules.logRx _ c).andThen (callAnswered_schedules cx _)
  · split
    · rename_i hd
      exact reportOn_schedules _ _ (disconnection_state_ne hd)
    · exact invalidCas_schedules _

theorem dtmfCallAnswered_schedules : Schedules [] c (dtmfCallAnswered c) := by
  have ha : ∀ d : R2Chan, Schedules [] d (d.setAnswered.emit .onCallAnswered) := fun d => .same rfl rfl id id
  exact (((Schedules.cancelTimer _ c).andThen
    (.setR2State (show CasState.answerRxd ≠ .seizeTxd by decide) _)).andThen (.setCallState (s := .answered) nofun _)).andThen (ha _)

theorem casSeizeAckRxd_schedules : Schedules [] c (casSeizeAckRxd cx env cas c) := by
  unfold casSeizeAckRxd
  by_cases h : cx.dialWithDtmf = false ∧ cas = cx.casSignals .answer
  · rw [if_pos h]
    exact hopOn_schedules _ (by decide)
  · rw [if_neg h]
    split
    · rename_i hd
      exact reportOn_schedules _ _ (disconnection_state_ne hd)
    · split_ifs
      · exact (Schedules.logRx _ c).andThen dtmfCallAnswered_schedules
      · exact invalidCas_schedules _

theorem casAwaitIdle_schedules : Schedules [] c (casAwaitIdle cx env cas c) := by
  unfold casAwaitIdle
  split_ifs
  · exact endOn_schedules _
  · exact invalidCas_schedules _

theorem casClearFwdTxd_schedules : Schedules [] c (casClearFwdTxd cx env cas c) := by
  unfold casClearFwdTxd
  split_ifs
  · exact endOn_schedules _
  · split
    · exact hopOn_schedules _ (by decide)
    · exact invalidCas_schedules _

theorem casReleaseRxd_schedules : Schedules [] c (casReleaseRxd cx env cas c) := by
  unfold casReleaseRxd
  split_ifs
  · exact (((Schedules.logRx _ c).andThen (.cancelTimer _ _)).andThen
      (.setR2State (show CasState.answerRxd ≠ .seizeTxd by decide) _)).andThen (.emit _ _)
  · exact invalidCas_schedules _

theorem casBlocked_schedules : Schedules [] c (casBlocked cx cas c) := by
  unfold casBlocked
  split_ifs
  · exact emitOn_schedules _ _
  · exact .logRx _ c

theorem casInit_schedules : Schedules [] c (casInit cx env cas c) := by
  unfold casInit
  split_ifs
  · exact emitOn_schedules _ _
  · exact emitOn_schedules _ _
  · exact invalidCas_schedules _

/-- What the switch schedules, by line state and pattern. -/
theorem casSwitch_schedules (hl : ∀ e d, Schedules l d (callback cx env e d)) :
    Schedules (l ++ lineTimers cx cas c) c (casSwitch cx env cas c) := by
  have hn : ∀ {d}, Schedules [] c d → Schedules (l ++ lineTimers cx cas c) c d :=
    fun h => h.mono (List.nil_sublist _)
  have hs : ∀ {d}, Schedules (lineTimers cx cas c) c d → Schedules (l ++ lineTimers cx cas c) c d :=
    fun h => h.mono (List.sublist_append_right l _)
  unfold casSwitch
  split
  all_goals rename_i hr
  · exact (casIdle_schedules cas hl).mono (List.sublist_append_left l _)
  · exact hn (casBackwardCall_schedules cas)
  · exact hn (casBackwardCall_schedules cas)
  · exact hn (casBackwardCall_schedules cas)
  · exact hs (casSeizeTxd_schedules (.inl hr) cas)
  · exact hs (casSeizeTxd_schedules (.inr hr) cas)
  · exact hn (casDoubleSeizure_schedules cas)
  · exact hn (casDoubleSeizure_schedules cas)
  · exact hn (casDisconnectTxd_schedules cas)
  · exact hn (casDisconnectTxd_schedules cas)
  · exact hn (casAcceptRxd_schedules cas)
  · exact hn (casSeizeAckRxd_schedules cas)
  · exact hs (casAnswerRxd_schedules (.inl hr) cas)
  · exact hs (casAnswerRxd_schedules (.inr hr) cas)
  · exact hn (casAwaitIdle_schedules cas)
  · exact hn (casAwaitIdle_schedules cas)
  · exact hn (casClearFwdTxd_schedules cas)
  · exact hn (casReleaseRxd_schedules cas)
  · exact hn (casReleaseRxd_schedules cas)
  · exact hn (casBlocked_schedules cas)
  · exact hn (casInit_schedules cas)
  · exact hn (invalidCas_schedules _)
  · exact hn (invalidCas_schedules _)

theorem ioGetCas_schedules : Schedules [] c (ioGetCas env c).1 := by
  unfold ioGetCas
  split
  · exact .did _ c
  · exact .same rfl rfl id id

theorem checkPersistence_schedules :
    Schedules [.persistenceCheckExpired] c (checkPersistence cx env cas c) := by
  have hs : Schedules [] c (c.setPersistence (some cas)) := .same rfl rfl id id
  exact hs.andThen (armTimer_schedules env _ .casPersistenceCheck _)

/-- A new pattern is checked after the check under way, if any, is cancelled. -/
theorem pollCas_schedules : Schedules [.persistenceCheckExpired] c (pollCas cx env c).1 := by
  have hi : Schedules [] c (ioGetCas env c).1 := ioGetCas_schedules
  have hn : ∀ {d}, Schedules [] c d → Schedules [.persistenceCheckExpired] c d :=
    fun h => h.mono (List.nil_sublist _)
  simp only [pollCas]
  split
  · exact hn hi
  · split_ifs
    · exact hn ((hi.andThen (.cancelTimer _ _)).andThen (.same rfl rfl id id))
    · exact hn hi
    · exact (hi.andThen (.cancelTimer _ _)).andThen (checkPersistence_schedules _)
    · exact hn hi

theorem casPattern_schedules : Schedules [.persistenceCheckExpired] c (casPattern cx env c).1 := by
  unfold casPattern
  split
  · exact pollCas_schedules
  · split_ifs
    · exact (Schedules.same (c := c) (d := c.setPersistence none) rfl rfl id id).mono (List.nil_sublist _)
    · exact pollCas_schedules

/-- The timers of a line event: the check of its pattern, or those of the pattern acted on. -/
def casTimers (cx : R2Context) (env : Env) (c : R2Chan) : List TimerCallback :=
  match (casPattern cx env c).2 with
  | none => []
  | some cas => lineTimers cx cas (casPattern cx env c).1

theorem handleCas_schedules (hl : ∀ e d, Schedules l d (callback cx env e d)) :
    Schedules (.persistenceCheckExpired :: (l ++ casTimers cx env c)) c (handleCas cx env c) := by
  have hp : Schedules [.persistenceCheckExpired] c (casPattern cx env c).1 := casPattern_schedules
  unfold handleCas casTimers
  generalize casPattern cx env c = r at hp
  obtain ⟨d, p⟩ := r
  cases p with
  | none => exact hp.mono (List.cons_sublist_cons.mpr (List.nil_sublist _))
  | some cas =>
    have ha : Schedules (l ++ lineTimers cx cas d) d (actOnCas cx env cas d) := by
      unfold actOnCas
      by_cases hi : d.inalarm = true
      · rw [if_pos hi]
        exact (Schedules.refl d).mono (List.nil_sublist _)
      · rw [if_neg hi]
        have hs : Schedules [] d (d.setCasRead cas) := .same rfl rfl id id
        exact hs.andThen (casSwitch_schedules (c := d.setCasRead cas) cas hl)
    exact hp.trans ha

end Cas

section Expiry

variable (cx : R2Context) (env : Env) (c : R2Chan)

theorem persistenceCheckExpired_schedules :
    ∃ l, Schedules l c (persistenceCheckExpired cx env c) := by
  have hm : Schedules [.persistenceCheckExpired] c (c.mapTimers (·.setSlot .casPersistenceCheck 0)) :=
    .one (.mark .casPersistenceCheck 0) (show (0 : Int) ≤ 0 by decide) c
  simp only [persistenceCheckExpired]
  generalize c.mapTimers (·.setSlot .casPersistenceCheck 0) = d at hm
  have hi : Schedules [.persistenceCheckExpired] c (ioGetCas env d).1 := hm.andLast ioGetCas_schedules
  split
  · exact ⟨_, hi⟩
  · split_ifs
    · exact ⟨_, hi.trans (handleCas_schedules fun e d => callback_calls cx env d e)⟩
    · exact ⟨_, hi.trans (checkPersistence_schedules _)⟩
    · exact ⟨_, hi.andLast (.same rfl rfl id id)⟩

/-- Every timer callback acts on the timers by the operations alone. -/
theorem runTimer_schedules (cb : TimerCallback) : ∃ l, Schedules l c (runTimer cx env cb c) := by
  cases cb with
  | mfFwdSafetyTimeoutExpired => exact ⟨_, handleProtocolError_schedules cx env c _⟩
  | mfBackCycleTimeoutExpired => exact ⟨_, mfBackCycleTimeoutExpired_schedules cx env c⟩
  | mfBackResumeCycle => exact ⟨_, setSilence_schedules cx env c⟩
  | seizeTimeoutExpired => exact ⟨_, handleProtocolError_schedules cx env c _⟩
  | r2SeizePersistExpired => exact ⟨_, sendClearForward_schedules cx env c⟩
  | r2AnswerTimeoutExpired => exact ⟨_, reportCallDisconnection_schedules c _⟩
  | readyToAnswer => exact ⟨_, .emit _ c⟩
  | doubleAnswerHandler => exact ⟨_, doubleAnswerHandler_schedules cx env c⟩
  | r2MeteringPulse => exact ⟨_, r2MeteringPulse_schedules c⟩
  | r2SetCallDown => exact ⟨_, reportCallEnd_schedules cx env c⟩
  | persistenceCheckExpired => exact persistenceCheckExpired_schedules cx env c
  | startDialingDtmf => exact ⟨_, startDialingDtmf_schedules c⟩

end Expiry

end OpenR2
