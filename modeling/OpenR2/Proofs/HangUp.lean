import OpenR2.Proofs.ComingDown
import OpenR2.Proofs.TimerRuns

namespace OpenR2

/-- The timer that moves a forward channel on which holds its seize, or a glare. -/
def CasState.guard : CasState → Option TimerCallback
  | .seizeTxd | .seizeTxdClearFwdPending => some .seizeTimeoutExpired
  | .doubleSeizureClearFwdPending => some .r2SeizePersistExpired
  | _ => none

/-- The states in which a hang-up is remembered. -/
def CasState.HungUp : CasState → Prop
  | .seizeTxdClearFwdPending | .doubleSeizureClearFwdPending => True
  | _ => False

/-- The timer of the line state waits. -/
def R2Chan.Guarded (c : R2Chan) : Prop := ∃ g, c.r2State.guard = some g ∧ g ∈ c.pending

/-- The clock answers, and there is room for one more timer. -/
def Schedulable (c : R2Chan) (t : Tick) : Prop :=
  (∀ h, (t.env.gettimeofday h).isSome) ∧ c.timers.schedTimers.length < maxSchedTimers

/-- A seize comes while the channel waits for the acknowledgement of its own, to clear the
line then. The glare takes the place of that wait, and the wish to clear is lost. -/
def ForgetsClear (cx : R2Context) (c : R2Chan) (t : Tick) : Prop :=
  c.r2State = .seizeTxdClearFwdPending ∧
    switched cx t.env t.input c = some (cx.casSignals .seize) ∧
    cx.casSignals .seize ≠ cx.casSignals .seizeAck

namespace CasState

variable {r : CasState} {g : TimerCallback}

theorem guard_undialled (h : r.guard = some g) : r.Undialled := by
  cases r <;> trivial

theorem guard_forward (h : r.guard = some g) : r.Forward := by
  cases r <;> trivial

/-- What waits in such a state serves no other purpose. -/
theorem guard_cases (h : r.guard = some g) :
    (r = .seizeTxd ∨ r = .seizeTxdClearFwdPending) ∧ g = .seizeTimeoutExpired ∨
      r = .doubleSeizureClearFwdPending ∧ g = .r2SeizePersistExpired := by
  cases r <;> simp_all [guard]

theorem guard_ne {cb : TimerCallback} (h : r.guard = some g) (h1 : cb ≠ .seizeTimeoutExpired)
    (h2 : cb ≠ .r2SeizePersistExpired) : cb ≠ g := by
  rcases guard_cases h with ⟨-, rfl⟩ | ⟨-, rfl⟩
  · exact h1
  · exact h2

end CasState

/-- The call is over, and no other has been placed. -/
def R2Chan.Over (c : R2Chan) : Prop := .callState .idle ∈ c.out ∧ c.r2State ≠ .seizeTxd

section Ends

variable (cx : R2Context) (env : Env) (c : R2Chan)

theorem setIdle_over : (setIdle cx env c).1.Over := by
  obtain ⟨⟨_, _, _, _, _, hf⟩, -⟩ := protoInit_reset cx c
  have hr : (protoInit cx c).r2State = .idle := by rw [hf]
  have hm := protoInit_idles cx c
  unfold setIdle
  generalize protoInit cx c = d at hr hm
  exact ⟨List.mem_append_left _ hm, fun h => nomatch hr.symm.trans h⟩

theorem setBlocked_over : (setBlocked cx env c).1.Over := by
  have hm := protoInit_idles cx c
  unfold setBlocked
  generalize protoInit cx c = d at hm
  exact ⟨List.mem_append_left _ hm, nofun⟩

theorem R2Chan.Over.emit {c : R2Chan} (h : c.Over) (e : Event) : (c.emit e).Over :=
  ⟨List.mem_append_left _ h.1, h.2⟩

theorem handleProtocolError_over (reason : ProtocolError) : (handleProtocolError cx env reason c).Over :=
  (setIdle_over cx env _).emit _

theorem reportCallEnd_over : (reportCallEnd cx env c).Over := (setIdle_over cx env c).emit _

end Ends

section Clear

variable {cx : R2Context} {env : Env} {c d : R2Chan}

/-- The line is cleared, and the timer that will end the call waits. -/
theorem sendClearForward_down (hd : c.direction = .forward) (hk : c.timers.Kept)
    (hc : ∀ h, (env.gettimeofday h).isSome) (hl : c.timers.schedTimers.length < maxSchedTimers) :
    (sendClearForward cx env c).1.ComingDown ∧ (sendClearForward cx env c).1.r2State = .clearFwdTxd := by
  obtain ⟨now, hnow⟩ := Option.isSome_iff_exists.mp (hc c.out)
  have ha : (addTimer env cx.timers.r2SetCallDown .r2SetCallDown c).1 =
      (c.did .gettimeofday).mapTimers fun q =>
        (q.addTimer now cx.timers.r2SetCallDown .r2SetCallDown).1 := by
    simp only [addTimer, hnow]
  have hkept := hk.addTimer now cx.timers.r2SetCallDown .r2SetCallDown
  have hmem : .r2SetCallDown ∈ (c.timers.addTimer now cx.timers.r2SetCallDown .r2SetCallDown).1.pending :=
    (TimerQueue.pending_addTimer_perm now _ .r2SetCallDown hl.ne).mem_iff.mpr List.mem_cons_self
  simp only [sendClearForward]
  rw [ha]
  have hdown : (((c.did .gettimeofday).mapTimers fun q =>
      (q.addTimer now cx.timers.r2SetCallDown .r2SetCallDown).1).setR2State .clearFwdTxd).ComingDown := ⟨hd, hmem⟩
  generalize he : ((c.did .gettimeofday).mapTimers fun q =>
    (q.addTimer now cx.timers.r2SetCallDown .r2SetCallDown).1).setR2State .clearFwdTxd = e at hdown
  have hr : e.r2State = .clearFwdTxd := by subst he; rfl
  have hke : e.timers.Kept := by subst he; exact hkept
  obtain ⟨⟨r, w, x, y, q, hf⟩, -⟩ := turnOffMfEngine_turnedOff cx e
  have hr' : (turnOffMfEngine cx e).r2State = .clearFwdTxd := by rw [hf]; exact hr
  have ht := hdown.turnOff hke cx
  generalize turnOffMfEngine cx e = e' at hr' ht
  exact ⟨ht.same rfl fun _ hx => hx, hr'⟩

theorem R2Chan.Guarded.same (h : c.Guarded) (hr : d.r2State = c.r2State) (ht : d.timers = c.timers) :
    d.Guarded := by
  obtain ⟨g, hg, hm⟩ := h
  refine ⟨g, hr ▸ hg, ?_⟩
  rw [R2Chan.pending, ht]
  exact hm

/-- Another timer is cancelled. -/
theorem R2Chan.Guarded.cancelTimer (h : c.Guarded) (hk : c.timers.Kept) {slot : TimerSlot}
    (h1 : slot.purpose ≠ .seizeTimeoutExpired) (h2 : slot.purpose ≠ .r2SeizePersistExpired) :
    (c.cancelTimer slot).Guarded := by
  obtain ⟨g, hg, hm⟩ := h
  obtain ⟨t, ht, rfl⟩ := List.mem_map.mp hm
  exact ⟨t.callback, hg, List.mem_map.mpr
    ⟨t, hk.mem_cancelTimer ht (CasState.guard_ne hg h1 h2).symm, rfl⟩⟩

/-- A read of the line takes no timer away but checks. -/
theorem R2Chan.Guarded.polled (h : c.Guarded) (hk : c.timers.Kept) (hp : c.Polled d) :
    d.r2State = c.r2State ∧ d.Guarded ∧ d.timers.Kept := by
  obtain ⟨g, hg, hm⟩ := h
  obtain ⟨⟨raw, p, hf⟩, ⟨ops, ht, ho⟩, -⟩ := hp
  obtain ⟨hkept, hstay, -, -⟩ := hk.checks ho
  have hr : d.r2State = c.r2State := by rw [hf]
  obtain ⟨t, htm, rfl⟩ := List.mem_map.mp hm
  refine ⟨hr, ⟨t.callback, hr ▸ hg, List.mem_map.mpr ⟨t, ?_, rfl⟩⟩, ht ▸ hkept⟩
  rw [ht]
  exact hstay t htm (CasState.guard_ne hg (by rintro ⟨⟩) (by rintro ⟨⟩)).symm

/-- What a step makes of a guarded channel: the call has ended, or it is coming down, or the
timer of the new state waits and a hang-up is still one, or a seize that nobody wants to clear
is over. -/
inductive KeepsGuard (c d : R2Chan) : Prop
  | ended (h : d.Over)
  | down (h : d.ComingDown) (hr : d.r2State ≠ .seizeTxd)
  | held (h : d.Guarded) (hk : c.r2State.HungUp → d.r2State.HungUp)
  | past (hs : c.r2State = .seizeTxd) (hr : d.r2State ≠ .seizeTxd)

theorem KeepsGuard.of_r2State {e : R2Chan} (h : KeepsGuard e d) (hr : e.r2State = c.r2State) : KeepsGuard c d := by
  cases h with
  | ended h => exact .ended h
  | down h hn => exact .down h hn
  | held h hk => exact .held h (hr ▸ hk)
  | past hs hn => exact .past (hr.symm.trans hs) hn

theorem invalidCas_keeps (reason : ProtocolError) (d : R2Chan) :
    KeepsGuard d (invalidCas cx env reason d) := .ended (handleProtocolError_over cx env _ reason)

theorem seizeAcknowledged_leaves (hm : cx.Mfc) (c : R2Chan) :
    (seizeAcknowledged cx env c).r2State ≠ .seizeTxd := by
  have hs : ∀ d : R2Chan, d.r2State = .seizeAckRxd → (mfSendDnis cx env 0 d).r2State ≠ .seizeTxd := by
    intro d hd hx
    rcases (mfSendDnis_schedules cx env d 0).seize hx with hx | hx
    · exact nomatch hd.symm.trans hx
    · simp [sendTimers] at hx
  simp only [seizeAcknowledged, hm.dial, Bool.false_eq_true, if_false]
  exact hs _ rfl

/-- A pattern acted on by a channel whose seize, or whose clearing, is under way. -/
theorem casSwitch_keeps (hm : cx.Mfc) (hd : d.direction = .forward) (hg : d.Guarded) (hk : d.timers.Kept)
    (hc : ∀ h, (env.gettimeofday h).isSome) (hl : d.timers.schedTimers.length < maxSchedTimers)
    {cas : Nat} (hf : ¬ (d.r2State = .seizeTxdClearFwdPending ∧ cas = cx.casSignals .seize ∧
      cx.casSignals .seize ≠ cx.casSignals .seizeAck)) :
    KeepsGuard d (casSwitch cx env cas d) := by
  obtain ⟨g, hg, hmem⟩ := hg
  rcases CasState.guard_cases hg with ⟨hr, rfl⟩ | ⟨hr, rfl⟩
  · have hx : casSwitch cx env cas d = casSeizeTxd cx env cas d := by
      rcases hr with hr | hr <;> simp only [casSwitch, hr]
    rw [hx]
    unfold casSeizeTxd
    by_cases h1 : cas = cx.casSignals .seizeAck
    · rw [if_pos h1]
      by_cases h2 : d.r2State = .seizeTxdClearFwdPending
      · rw [if_pos (show ((d.logRx .seizeAck).cancelTimer .r2Seize).r2State = _ from h2)]
        have hk' : ((d.logRx .seizeAck).cancelTimer .r2Seize).timers.Kept := hk.cancelTimer .r2Seize
        have hl' := (cancelTimer_length .r2Seize (d.logRx .seizeAck)).trans_lt hl
        obtain ⟨hdn, hst⟩ := @sendClearForward_down cx _ ((d.logRx .seizeAck).cancelTimer .r2Seize) hd hk' hc hl'
        exact .down hdn (by rw [hst]; decide)
      · rw [if_neg (show ((d.logRx .seizeAck).cancelTimer .r2Seize).r2State ≠ _ from h2)]
        exact .past (hr.resolve_right h2) (seizeAcknowledged_leaves hm _)
    · rw [if_neg h1]
      by_cases h2 : cas = cx.casSignals .seize
      · rw [if_pos h2]
        rcases hr with hr | hr
        · exact .past hr (by rintro ⟨⟩)
        · exact absurd ⟨hr, h2, fun he => h1 (h2.trans he)⟩ hf
      · rw [if_neg h2]
        exact invalidCas_keeps _ d
  · simp only [casSwitch, hr, casDoubleSeizure]
    split_ifs with h1 h2
    · exact h2.elim
    · exact .ended (reportCallEnd_over cx env _)
    · exact invalidCas_keeps _ d

end Clear

section Steps

variable {cx : R2Context} {env : Env} {c : R2Chan} {g : TimerCallback}

/-- What the line state tells of the rest of the channel. -/
theorem guarded_facts (h : c.Sided) (hg : c.r2State.guard = some g) :
    c.direction = .forward ∧ c.callState ≠ .idle ∧ c.callState ≠ .offered ∧ c.callState ≠ .accepted := by
  have hd : c.direction = .forward := h.forward (CasState.guard_forward hg)
  have hf := h.call
  rw [hd] at hf
  refine ⟨hd, ?_, ?_, ?_⟩
  all_goals
    intro he
    rw [he] at hf
    exact hf.elim

theorem disconnectForward_keeps (hd : c.direction = .forward) (hg : c.Guarded) (hk : c.timers.Kept)
    (hc : ∀ h, (env.gettimeofday h).isSome) (hl : c.timers.schedTimers.length < maxSchedTimers) :
    KeepsGuard c (disconnectForward cx env c).1 := by
  obtain ⟨hdn, hst⟩ := @sendClearForward_down cx _ _ hd hk hc hl
  have hclear : KeepsGuard c (sendClearForward cx env c).1 := .down hdn (by rw [hst]; decide)
  obtain ⟨g, hg, hm⟩ := hg
  unfold disconnectForward
  by_cases h1 : c.r2State = .seizeTxd
  · rw [if_pos h1]
    rw [h1] at hg
    exact .held ⟨g, hg, hm⟩ fun _ => trivial
  · rw [if_neg h1]
    rcases CasState.guard_cases hg with ⟨hr, -⟩ | ⟨hr, -⟩
    · have hr := hr.resolve_left h1
      simp only [hr, reduceCtorEq, if_false]
      exact hclear
    · simp only [hr, reduceCtorEq, if_false]
      exact hclear

theorem apiCall_keeps (hm : cx.Mfc) (hs : c.Sided) (hg : c.Guarded) (hk : c.timers.Kept)
    (hc : ∀ h, (env.gettimeofday h).isSome) (hl : c.timers.schedTimers.length < maxSchedTimers)
    (a : ApiCall) : KeepsGuard c (apiCall cx env a c).1 := by
  obtain ⟨hd, hi, ho, ha⟩ := guarded_facts hs hg.choose_spec.1
  have hsame : KeepsGuard c c := .held hg id
  have hans : doAnswer cx env c = (c, -1) := by simp [doAnswer, hm.dial, hm.detect, ha]
  cases a with
  | makeCall ani dnis category restricted =>
    simp only [apiCall, makeCall]
    split_ifs
    · exact hsame
    · exact hsame
  | acceptCall mode => simpa [apiCall, acceptCall, ho] using hsame
  | answerCall => simpa [apiCall, answerCall, hans] using hsame
  | answerCallWithMode mode => simpa [apiCall, answerCallWithMode, hans] using hsame
  | disconnectCall cause =>
    simp only [apiCall, disconnectCall, if_neg hi]
    rw [if_neg (by rw [hd]; rintro ⟨⟩)]
    exact disconnectForward_keeps hd hg hk hc hl
  | ackCall =>
    simp only [apiCall, ackCall]
    split_ifs
    · exact .ended (handleProtocolError_over cx env _ _)
    · exact .held hg id
  | setIdle => exact .ended (setIdle_over cx env c)
  | setBlocked => exact .ended (setBlocked_over cx env c)

/-- A timer that is called takes no other away. -/
theorem R2Chan.Guarded.expired {id : Nat} {t : SchedTimer} (hg : c.r2State.guard = some g)
    (hm : g ∈ c.pending) (hk : c.timers.Kept) (ht : c.timer? id = some t) (hn : t.callback ≠ g) :
    (c.mapTimers (·.removeId id)).Guarded := by
  obtain ⟨u, hu, rfl⟩ := List.mem_map.mp hm
  refine ⟨u.callback, hg, List.mem_map.mpr ⟨u, hk.mem_removeId.mpr ⟨hu, fun he => ?_⟩, rfl⟩⟩
  have htm : t ∈ c.timers.schedTimers := List.mem_of_find?_eq_some ht
  have hid : t.id = id := by simpa using List.find?_some ht
  have hut : u.id = t.id := by omega
  exact hn (congrArg SchedTimer.callback (List.inj_on_of_nodup_map hk.distinct hu htm hut)).symm

theorem handleCas_over (hm : cx.Mfc) (hq : env.Quiet) (h : c.Over) : (handleCas cx env c).Over :=
  ⟨(handleCas_grows cx env c).subset h.1, fun hx => h.2 ((handleCas_serviced hm hq c).seize hx)⟩

theorem handleAlarm_over (hm : cx.Mfc) (hq : env.Quiet) (hi : c.callState ≠ .idle) (on : Bool) :
    (handleAlarm cx env on c).Over := by
  have hcs : ((c.setInalarm on).emit (.onHardwareAlarm on)).callState ≠ .idle := hi
  simp only [handleAlarm, handleAlarmState]
  generalize (c.setInalarm on).emit (.onHardwareAlarm on) = d at hcs
  split_ifs
  · exact handleProtocolError_over cx env d _
  · exact handleCas_over hm hq (setIdle_over cx env d)
  · exact handleCas_over hm hq (setBlocked_over cx env d)

theorem called_length (i : Input) (c : R2Chan) :
    (c.called i).timers.schedTimers.length ≤ c.timers.schedTimers.length := by
  unfold R2Chan.called
  split
  · split_ifs
    · exact List.length_eraseP_le
    · exact le_rfl
  · exact le_rfl

theorem called_r2State (i : Input) (c : R2Chan) : (c.called i).r2State = c.r2State := by
  unfold R2Chan.called
  split
  · split_ifs <;> rfl
  · rfl

theorem called_direction (i : Input) (c : R2Chan) : (c.called i).direction = c.direction := by
  unfold R2Chan.called
  split
  · split_ifs <;> rfl
  · rfl

/-- The expiry of a timer that is no check. -/
theorem expiry_keeps {id : Nat} {t : SchedTimer} (hs : c.Sided) (hg : c.Guarded)
    (hk : c.timers.Kept) (hc : ∀ h, (env.gettimeofday h).isSome)
    (hl : c.timers.schedTimers.length < maxSchedTimers) (ht : c.timer? id = some t)
    (hcb : t.callback ≠ .persistenceCheckExpired) :
    KeepsGuard c (runTimer cx env t.callback (c.start.mapTimers (·.removeId id))) := by
  obtain ⟨g, hg, hmem⟩ := hg
  obtain ⟨hd, -⟩ := guarded_facts hs hg
  have ha : t.callback.Attends .forward :=
    hd ▸ hs.timers t.callback (List.mem_map_of_mem (List.mem_of_find?_eq_some ht))
  have hstay : t.callback ≠ .seizeTimeoutExpired → t.callback ≠ .r2SeizePersistExpired →
      (c.start.mapTimers (·.removeId id)).Guarded := fun h1 h2 =>
    R2Chan.Guarded.expired (c := c.start) hg hmem hk ht (CasState.guard_ne hg h1 h2)
  have hkd : (c.start.mapTimers (·.removeId id)).timers.Kept := hk.removeId _
  have hld : (c.start.mapTimers (·.removeId id)).timers.schedTimers.length < maxSchedTimers :=
    List.length_eraseP_le.trans_lt hl
  have hdd : (c.start.mapTimers (·.removeId id)).direction = .forward := hd
  have hrd : (c.start.mapTimers (·.removeId id)).r2State = c.r2State := rfl
  generalize c.start.mapTimers (·.removeId id) = d at hstay hkd hld hdd hrd
  cases hx : t.callback with
  | mfFwdSafetyTimeoutExpired => exact .ended (handleProtocolError_over cx env d _)
  | seizeTimeoutExpired => exact .ended (handleProtocolError_over cx env d _)
  | r2SetCallDown => exact .ended (reportCallEnd_over cx env d)
  | r2SeizePersistExpired =>
    obtain ⟨hdn, hst⟩ := @sendClearForward_down cx _ _ hdd hkd hc hld
    exact .down hdn (by rw [show (runTimer cx env .r2SeizePersistExpired d).r2State = _ from hst]; decide)
  | r2AnswerTimeoutExpired =>
    have hgd := hstay (by rw [hx]; rintro ⟨⟩) (by rw [hx]; rintro ⟨⟩)
    exact .held hgd fun hh => by rw [← hrd] at hh; exact hh
  | r2MeteringPulse =>
    have hgd := hstay (by rw [hx]; rintro ⟨⟩) (by rw [hx]; rintro ⟨⟩)
    have hpulse : (r2MeteringPulse d).r2State = d.r2State ∧ (r2MeteringPulse d).Guarded := by
      unfold r2MeteringPulse
      split_ifs <;> exact ⟨rfl, hgd⟩
    exact .held hpulse.2 fun hh => by
      rw [show (runTimer cx env .r2MeteringPulse d).r2State = _ from hpulse.1, hrd]; exact hh
  | startDialingDtmf =>
    have hgd := hstay (by rw [hx]; rintro ⟨⟩) (by rw [hx]; rintro ⟨⟩)
    exact .held hgd fun hh => by rw [← hrd] at hh; exact hh
  | persistenceCheckExpired => exact absurd hx hcb
  | _ =>
    rw [hx] at ha
    rcases ha with ha | ⟨ha, -⟩
    · exact ha.elim
    · cases ha

/-- Silence takes no timer of a forward channel away. -/
theorem setSilence_keeps (hd : c.direction = .forward) (hg : c.Guarded) : KeepsGuard c (setSilence cx env c) := by
  rcases prepareMfTone_cases cx env 0 c with ⟨hr, ⟨q, w, hf⟩, -⟩ | ⟨-, d, -, he⟩
  · have ht := prepareMfTone_timers cx env (show c.direction ≠ .backward by rw [hd]; decide) hr
    rw [hf] at ht
    obtain rfl : q = c.timers := ht
    rw [setSilence, hf]
    exact .held hg id
  · rw [setSilence, he]
    exact .ended (handleProtocolError_over cx env d .internalError)

/-- A tone on such a channel is answered with silence at most. -/
theorem handleMedia_keeps (hd : c.direction = .forward) (hn : ¬ c.mfGroup.Dials) (hg : c.Guarded)
    (hk : c.timers.Kept) (tone : Tone) : KeepsGuard c (handleMedia cx env tone c) := by
  have hsame : KeepsGuard c c := .held hg id
  have herr : ∀ (r : ProtocolError) (e : R2Chan), KeepsGuard c (handleProtocolError cx env r e) := fun r e =>
    .ended (handleProtocolError_over cx env e r)
  -- the test of the threshold leaves all this as it was
  have hthr : ∀ t, (checkThreshold cx env t c).1.direction = .forward ∧
      (checkThreshold cx env t c).1.mfGroup = c.mfGroup ∧ (checkThreshold cx env t c).1.r2State = c.r2State ∧
      (checkThreshold cx env t c).1.timers = c.timers := by
    intro t
    obtain ⟨x, n, as, hf, -⟩ := checkThreshold_frame cx env t c
    rw [hf]
    exact ⟨hd, rfl, rfl, rfl⟩
  have hkeep : ∀ t, KeepsGuard c (checkThreshold cx env t c).1 := by
    intro t
    obtain ⟨-, -, hr, ht⟩ := hthr t
    exact .held (hg.same hr ht) fun hx => hr.symm ▸ hx
  simp only [handleMedia, handleMfTone]
  split_ifs
  · exact hsame
  · exact hsame
  · exact herr _ _
  · exact hkeep tone
  · obtain ⟨hd, -, hr, ht⟩ := hthr tone
    generalize (checkThreshold cx env tone c).1 = e at hd hr ht
    have hc : ((e.setMfReadTone tone).cancelTimer .mfFwdSafety).Guarded :=
      (hg.same (d := e.setMfReadTone tone) hr ht).cancelTimer (ht ▸ hk) (by rintro ⟨⟩) (by rintro ⟨⟩)
    have hx := @setSilence_keeps cx env ((e.setMfReadTone tone).cancelTimer .mfFwdSafety) hd hc
    rw [handleToneOn, show (e.setMfReadTone tone).direction = .forward from hd]
    exact hx.of_r2State hr
  · exact hsame
  · exact hkeep 0
  · obtain ⟨hd, hm, -, -⟩ := hthr 0
    generalize (checkThreshold cx env 0 c).1 = e at hd hm
    rw [handleToneOff, hd]
    have hx : handleBackwardMfSilence cx env e.mfReadTone e = handleProtocolError cx env .invalidMfGroup e := by
      rw [← hm] at hn
      unfold handleBackwardMfSilence
      cases hg : e.mfGroup <;> rw [hg] at hn <;> first | rfl | exact absurd trivial hn
    dsimp only
    rw [hx]
    have ho := handleProtocolError_over cx env e .invalidMfGroup
    generalize handleProtocolError cx env .invalidMfGroup e = e' at ho
    exact .ended ⟨ho.1, ho.2⟩

/-- What a step preserves in which no callback calls back. -/
theorem step_keeps (hm : cx.Mfc) (t : Tick) (hq : t.env.Quiet) (hr : c.Regular) (hg : c.Guarded)
    (hs : Schedulable c t) (hf : ¬ ForgetsClear cx c t) : KeepsGuard c (step cx t.env t.input c) := by
  obtain ⟨env, i⟩ := t
  obtain ⟨hc, hl⟩ : (∀ h, (env.gettimeofday h).isSome) ∧ _ := hs
  have hk := hr.kept
  have hg0 : c.start.Guarded := hg
  obtain ⟨hd, hi, -, -⟩ := guarded_facts hr.sided hg.choose_spec.1
  have hread : Reads i c → KeepsGuard c (step cx env i c) := by
    intro hr
    have hgc : (c.called i).start.Guarded := by
      rcases hr with rfl | ⟨id, rfl, t, ht, hcb⟩
      · exact hg
      · have ht : c.timer? id = some t := ht
        obtain ⟨g, hg, hmem⟩ := hg
        simp only [R2Chan.called, ht, Option.isSome_some, if_true]
        exact R2Chan.Guarded.expired hg hmem hk ht
          (CasState.guard_ne hg (by rw [hcb]; rintro ⟨⟩) (by rw [hcb]; rintro ⟨⟩))
    have hkc : (c.called i).start.timers.Kept := called_kept i hk
    have hlc : (c.called i).timers.schedTimers.length < maxSchedTimers :=
      (called_length i c).trans_lt hl
    have hrc : (c.called i).start.r2State = c.r2State := called_r2State i c
    have hdc : (c.called i).start.direction = .forward := (called_direction i c).trans hd
    rcases @step_reads cx env _ _ hr with ⟨-, hpol⟩ | ⟨cas, d, hsw, ⟨hpol, hts⟩, hst⟩
    · obtain ⟨hst, hgd, -⟩ := hgc.polled hkc hpol
      exact .held hgd fun hx => by rw [hst, hrc]; exact hx
    · obtain ⟨hrd, hgd, hkd⟩ := hgc.polled hkc hpol
      have hdd : (d.setCasRead cas).direction = .forward := by
        obtain ⟨⟨_, _, hx⟩, -⟩ := hpol
        rw [hx]
        exact hdc
      have hrd : (d.setCasRead cas).r2State = c.r2State := hrd.trans hrc
      have hn : ¬ ((d.setCasRead cas).r2State = .seizeTxdClearFwdPending ∧ cas = cx.casSignals .seize ∧
          cx.casSignals .seize ≠ cx.casSignals .seizeAck) := by
        rintro ⟨h1, rfl, h3⟩
        exact hf ⟨hrd.symm.trans h1, hsw, h3⟩
      have hx := casSwitch_keeps (d := d.setCasRead cas) hm hdd hgd hkd hc (hts ▸ hlc) hn
      rw [hst]
      exact hx.of_r2State hrd
  cases i with
  | cas => exact hread (.inl rfl)
  | mfTone tone =>
    have hn : ¬ c.mfGroup.Dials := hr.hushed (.inr (CasState.guard_undialled hg.choose_spec.1))
    exact (handleMedia_keeps (c := c.start) hd hn hg0 hk tone).of_r2State rfl
  | timer id =>
    cases ht : c.timer? id with
    | none =>
      have hs : step cx env (.timer id) c = c.start := by
        simp only [step, expire, show c.start.timer? id = none from ht]
      rw [hs]
      exact .held hg0 fun hx => hx
    | some t =>
      by_cases hcb : t.callback = .persistenceCheckExpired
      · exact hread (.inr ⟨id, rfl, t, ht, hcb⟩)
      · have hs : step cx env (.timer id) c =
            runTimer cx env t.callback (c.start.mapTimers (·.removeId id)) := by
          simp only [step, expire, show c.start.timer? id = some t from ht]
        rw [hs]
        exact expiry_keeps hr.sided hg hk hc hl ht hcb
  | api a => exact (apiCall_keeps (c := c.start) hm hr.start.sided hg0 hk hc hl a).of_r2State rfl
  | alarm on => exact .ended (handleAlarm_over (c := c.start) hm hq hi on)

end Steps

section Runs

variable {cx : R2Context} {env : Env} {c : R2Chan}

theorem makeCall_prompt (hm : cx.Mfc) (hc : ∀ h, (env.gettimeofday h).isSome)
    (hl : c.timers.schedTimers.length < maxSchedTimers) (hn : c.r2State ≠ .seizeTxd)
    (ani : Option (List Tone)) (dnis : List Tone) (category : Category) (restricted : Bool)
    (hs : (makeCall cx env ani dnis category restricted c).1.r2State = .seizeTxd) :
    (makeCall cx env ani dnis category restricted c).1.Guarded := by
  have hplace : ∀ d : R2Chan, d.timers = c.timers →
      (placeCall cx env ani dnis category restricted d).1.Guarded := by
    intro d hd
    obtain ⟨now, hnow⟩ := Option.isSome_iff_exists.mp (hc (d.setR2State .seizeTxd).out)
    have hmem : .seizeTimeoutExpired ∈
        (d.timers.addTimer now cx.timers.r2Seize .seizeTimeoutExpired).1.pending :=
      (TimerQueue.pending_addTimer_perm now _ _ (hd ▸ hl.ne)).mem_iff.mpr List.mem_cons_self
    simp only [placeCall, hm.dial, Bool.false_eq_true, if_false, armTimer, addTimer, hnow]
    exact ⟨_, rfl, hmem⟩
  simp only [makeCall] at hs ⊢
  split_ifs at hs ⊢
  · exact absurd hs hn
  · exact absurd hs hn
  · exact absurd hs hn
  · exact absurd hs hn
  · exact hplace _ rfl

/-- A call on a channel that is busy seizes no line. -/
theorem apiCall_unseizing (hm : cx.Mfc) (hi : c.callState ≠ .idle) (hr : c.r2State ≠ .seizeTxd) (a : ApiCall) :
    (apiCall cx env a c).1.r2State ≠ .seizeTxd := by
  cases a with
  | makeCall ani dnis category restricted =>
    simp only [apiCall, makeCall, if_pos hi]
    split_ifs
    · exact hr
    · exact hr
  | _ => exact fun hx => hr ((apiCall_serviced hm _ id c).seize hx)

theorem goOn_unseizing (s : Stage) (hr : c.r2State ≠ .seizeTxd) : (goOn cx env s c).r2State ≠ .seizeTxd := by
  have hp : Serviced c (prepareMfTone cx env (s.asksWith cx c.mfGroup)
      ((c.setMfGroup s.group).setMfState s.asked)) := by
    have hs : Serviced c ((c.setMfGroup s.group).setMfState s.asked) := .same rfl rfl
    refine hs.trans ((prepareMfTone_schedules cx env ((c.setMfGroup s.group).setMfState s.asked) _).serviced ?_)
    split_ifs <;> simp
  have ho : ∀ d : R2Chan, Serviced d (offerCall cx env d) := fun d =>
    (offerCall_schedules cx env d).serviced List.not_mem_nil
  unfold goOn
  dsimp only
  split_ifs
  · exact fun hx => hr ((hp.trans (ho _)).seize hx)
  · exact fun hx => hr (hp.seize hx)

/-- A call in a callback seizes no line, and neither does what the code goes on with. -/
theorem CallsBack.unseizing {t : Tick} {d : R2Chan} {f : R2Chan → R2Chan} (hm : cx.Mfc)
    (h : CallsBack cx c t d f) (hr : c.Regular) (a : ApiCall) :
    (f (apiCall cx t.env a d).1).r2State ≠ .seizeTxd := by
  cases h with
  | init entry pattern alarm idle seize ready =>
    rename_i d e g cas
    have hg : (apiCall cx t.env a g.inited).1.r2State ≠ .seizeTxd :=
      apiCall_unseizing hm (c := g.inited) (by rintro ⟨⟩) (by rintro ⟨⟩) a
    dsimp only
    split_ifs
    · exact fun hx => hg ((@apiCall_serviced cx t.env hm .ackCall id _).seize hx)
    · exact hg
  | digit comes isDigit expected =>
    rename_i tone
    obtain ⟨-, hs, hr'⟩ := digitStored_keeps cx t.env c tone
    have hb : c.direction = .backward := comes.2.2.1
    have hout : c.r2State ≠ .seizeTxd := by
      intro hx
      have hf : c.direction = .forward := hr.grounded.calling (by rw [hx]; trivial)
      exact absurd (hf.symm.trans hb) (by decide)
    exact goOn_unseizing _ (apiCall_unseizing hm (c := (c.digitStored cx t.env tone).emit (c.digitEvent cx tone))
      (fun hx => hr.grounded.live hb (hs.symm.trans hx)) (fun hx => hout (hr'.symm.trans hx)) a)
  | accepted asks pending =>
    rename_i mode
    obtain ⟨tone, hc, -⟩ := asks
    obtain ⟨x, n, as, hf, -⟩ := checkThreshold_frame cx t.env 0 c.start
    have hi : c.callState ≠ .idle := hr.grounded.moving (by rw [hc.2.2.1]; decide)
    have hg : (apiCall cx t.env a (((c.checked cx t.env).setR2State .acceptRxd).emit
        (.onCallAccepted mode))).1.r2State ≠ .seizeTxd := by
      refine apiCall_unseizing hm (c := ((c.checked cx t.env).setR2State .acceptRxd).emit (.onCallAccepted mode))
        (fun hx => hi ?_) (by rintro ⟨⟩) a
      rw [← hx]
      change c.callState = (c.checked cx t.env).callState
      rw [R2Chan.checked, hf]
      rfl
    generalize (apiCall cx t.env a (((c.checked cx t.env).setR2State .acceptRxd).emit (.onCallAccepted mode))).1 = g
      at hg
    change (if g.r2State ≠ .acceptRxd ∨ g.mfState ≠ c.mfState ∨ g.callState ≠ c.callState then g
      else callAnswered cx g).r2State ≠ .seizeTxd
    split_ifs
    · exact hg
    · rw [(callAnswered_frame cx g).2.2.1]
      decide

/-- What is known of a channel between two steps: in particular, a seize is being timed. -/
structure R2Chan.Prompt (c : R2Chan) : Prop extends c.Regular where
  seize : c.r2State = .seizeTxd → c.Guarded

theorem step_prompt (hm : cx.Mfc) (t : Tick) (hs : Schedulable c t) (h : c.Prompt) :
    (step cx t.env t.input c).Prompt := by
  refine ⟨tick_regular hm h.toRegular t, fun hx => ?_⟩
  by_cases hcb : ∃ d f a, CallsBack cx c t d f ∧ t.env.reenter d.out = some a
  · obtain ⟨d, f, a, hcb, ha⟩ := hcb
    rw [hcb.step ha] at hx
    exact absurd hx (hcb.unseizing hm h.toRegular a)
  have hsilent : step cx t.env t.input c = step cx t.env.silent t.input c :=
    step_silent fun d f hf => Option.eq_none_iff_forall_not_mem.mpr fun a ha => hcb ⟨d, f, a, hf, ha⟩
  have hq : t.env.silent.Quiet := fun _ => rfl
  rw [hsilent] at hx ⊢
  by_cases hr : c.r2State = .seizeTxd
  · have hf : ¬ ForgetsClear cx c ⟨t.env.silent, t.input⟩ := by
      rintro ⟨hx, -⟩
      exact absurd (hr.symm.trans hx) (by decide)
    cases step_keeps hm ⟨t.env.silent, t.input⟩ hq h.toRegular (h.seize hr) hs hf with
    | ended ho => exact absurd hx ho.2
    | down _ hn => exact absurd hx hn
    | held hg _ => exact hg
    | past _ hn => exact absurd hx hn
  · obtain ⟨env, i⟩ := t
    by_cases hi : i.IsMakeCall
    · cases i with
      | api a =>
        cases a with
        | makeCall ani dnis category restricted =>
          exact @makeCall_prompt cx env.silent c.start hm hs.1 hs.2 hr ani dnis category restricted hx
        | _ => exact hi.elim
      | _ => exact hi.elim
    · exact absurd ((called_r2State i c).symm.trans ((step_serviced hm hq i hi c).seize hx)) hr

theorem started_prompt (h : Started cx c) : c.Prompt := by
  refine ⟨started_regular h, fun hx => ?_⟩
  cases h with
  | idle env d => exact absurd hx (setIdle_over cx env d).2
  | blocked env d => exact absurd hx (setBlocked_over cx env d).2

/-- A forward channel that was hung up, and that has not come to rest. -/
structure R2Chan.Hung (c : R2Chan) : Prop extends c.Regular where
  waits : c.ComingDown ∨ c.r2State.HungUp ∧ c.Guarded

theorem disconnectForward_hung (hd : c.direction = .forward) (hk : c.timers.Kept)
    (hg : c.r2State = .seizeTxd → c.Guarded) (hc : ∀ h, (env.gettimeofday h).isSome)
    (hl : c.timers.schedTimers.length < maxSchedTimers) :
    (disconnectForward cx env c).1.Over ∨ (disconnectForward cx env c).1.ComingDown ∨
      (disconnectForward cx env c).1.r2State.HungUp ∧ (disconnectForward cx env c).1.Guarded := by
  obtain ⟨hdn, -⟩ := @sendClearForward_down cx _ _ hd hk hc hl
  unfold disconnectForward
  by_cases h1 : c.r2State = .seizeTxd
  · rw [if_pos h1]
    obtain ⟨g, hx, hm⟩ := hg h1
    rw [h1] at hx
    exact .inr (.inr ⟨trivial, g, hx, hm⟩)
  · rw [if_neg h1]
    by_cases h2 : c.r2State = .doubleSeizure
    · obtain ⟨now, hnow⟩ :=
        Option.isSome_iff_exists.mp (hc (c.setR2State .doubleSeizureClearFwdPending).out)
      have hmem : .r2SeizePersistExpired ∈
          (c.timers.addTimer now cx.timers.r2SeizePersist .r2SeizePersistExpired).1.pending :=
        (TimerQueue.pending_addTimer_perm now _ _ hl.ne).mem_iff.mpr List.mem_cons_self
      rw [if_pos h2]
      simp only [armTimer, addTimer, hnow]
      exact .inr (.inr ⟨trivial, _, rfl, hmem⟩)
    · rw [if_neg h2]
      by_cases h3 : c.r2State = .clearFwdRxd
      · rw [if_pos h3]
        exact .inl (reportCallEnd_over cx env c)
      · rw [if_neg h3]
        exact .inr (.inl hdn)

/-- An alarm, raised or cleared, resets a call. -/
theorem handleAlarm_idles (hi : c.callState ≠ .idle) (on : Bool) :
    .callState .idle ∈ (handleAlarm cx env on c).out := by
  have hcs : ((c.setInalarm on).emit (.onHardwareAlarm on)).callState ≠ .idle := hi
  simp only [handleAlarm, handleAlarmState]
  generalize (c.setInalarm on).emit (.onHardwareAlarm on) = d at hcs
  split_ifs
  · exact (handleProtocolError_over cx env d _).1
  · exact (handleCas_grows cx env (setIdle cx env d).1).subset (setIdle_over cx env d).1
  · exact (handleCas_grows cx env (setBlocked cx env d).1).subset (setBlocked_over cx env d).1

/-- Nothing but the end of an alarm makes a callback call back. -/
theorem R2Chan.Guarded.silent {t : Tick} (h : c.Guarded) (hs : c.Sided) (hal : ∀ on, t.input ≠ .alarm on) :
    step cx t.env t.input c = step cx t.env.silent t.input c := by
  obtain ⟨g, hg, -⟩ := h
  obtain ⟨hd, -⟩ := guarded_facts hs hg
  refine step_silent fun d f hf => ?_
  exfalso
  cases hf with
  | init entry pattern alarm idle =>
    rename_i d e g cas seize ready
    obtain ⟨⟨raw, p, hx⟩, -⟩ := casPattern_polled cx t.env d
    rw [pattern] at hx
    have hr : c.r2State = .idle := by
      rw [← (casEntry_polls hal entry).1, ← idle]
      exact (congrArg R2Chan.r2State hx).symm
    rw [hr] at hg
    cases hg
  | digit comes => exact absurd (hd.symm.trans comes.2.2.1) (by decide)
  | accepted asks pending =>
    rw [pending] at hg
    cases hg

/-- Hung up, a channel stays so until its call is over. -/
theorem step_hung (hm : cx.Mfc) (t : Tick) (hs : Schedulable c t) (hf : ¬ ForgetsClear cx c t) (h : c.Hung) :
    .callState .idle ∈ (step cx t.env t.input c).out ∨ (step cx t.env t.input c).Hung := by
  have hr : (step cx t.env t.input c).Regular := tick_regular hm h.toRegular t
  rcases h.waits with hd | ⟨hh, hg⟩
  · exact (tick_comingDown h.grounded h.kept hd t).symm.imp_right fun hd => ⟨hr, .inl hd⟩
  by_cases hal : ∃ on, t.input = .alarm on
  · obtain ⟨on, hon⟩ := hal
    obtain ⟨-, hi, -⟩ := guarded_facts h.sided hg.choose_spec.1
    rw [hon]
    exact .inl (handleAlarm_idles (c := c.start) hi on)
  have hsilent := @R2Chan.Guarded.silent cx c t hg h.sided (not_exists.mp hal)
  have hx := step_keeps hm ⟨t.env.silent, t.input⟩ (fun _ => rfl) h.toRegular hg hs hf
  dsimp only at hx
  rw [← hsilent] at hx
  cases hx with
  | ended ho => exact .inl ho.1
  | down hd _ => exact .inr ⟨hr, .inl hd⟩
  | held hg hk => exact .inr ⟨hr, .inr ⟨hk hh, hg⟩⟩
  | past hz _ =>
    rw [hz] at hh
    exact hh.elim

/-- With a working clock and room for a timer, the timers alone bring the call down. -/
def ComesDown (cx : R2Context) (c : R2Chan) : Prop :=
  ∀ env : Env, (∀ h, (env.gettimeofday h).isSome) → c.timers.schedTimers.length < maxSchedTimers →
    ∃ ids : List Nat, ids.length ≤ 2 ∧
      (run cx (ids.map fun id => ⟨env, .timer id⟩) c).1.callState = .idle

theorem setIdle_callState (cx : R2Context) (env : Env) (c : R2Chan) :
    (setIdle cx env c).1.callState = .idle := by
  obtain ⟨⟨_, _, _, _, _, hf⟩, -⟩ := protoInit_reset cx c
  have hs : (setIdle cx env c).1.callState = (protoInit cx c).callState := rfl
  rw [hs, hf]

/-- The step in which a timer that waits expires. -/
theorem step_expires (hk : c.timers.Kept) {cb : TimerCallback} (h : cb ∈ c.pending) :
    ∃ id : Nat, (c.timers.removeId id).schedTimers.length < c.timers.schedTimers.length ∧
      step cx env (.timer id) c = runTimer cx env cb (c.start.mapTimers (·.removeId id)) := by
  obtain ⟨t, ht, rfl⟩ := List.mem_map.mp h
  have hsome : (c.start.timer? t.id).isSome :=
    List.find?_isSome.mpr ⟨t, ht, beq_self_eq_true t.id⟩
  obtain ⟨u, hu⟩ := Option.isSome_iff_exists.mp hsome
  have hum : u ∈ c.timers.schedTimers := List.mem_of_find?_eq_some hu
  have hid : u.id = t.id := by simpa using List.find?_some hu
  obtain rfl : u = t := List.inj_on_of_nodup_map hk.distinct hum ht hid
  refine ⟨u.id, ?_, by simp only [step, expire, hu]⟩
  have hlen : (c.timers.removeId u.id).schedTimers.length = c.timers.schedTimers.length - 1 :=
    List.length_eraseP_of_mem ht (beq_self_eq_true (u.id : Int))
  have hpos := List.length_pos_of_mem ht
  omega

theorem R2Chan.Hung.comesDown (h : c.Hung) : ComesDown cx c := by
  intro env hc hl
  -- what ends the call at once
  have hdown : ∀ d : R2Chan, d.timers.Kept → .r2SetCallDown ∈ d.pending →
      ∃ id, (step cx env (.timer id) d).callState = .idle := by
    intro d hk hm
    obtain ⟨id, -, hs⟩ := @step_expires cx env _ hk _ hm
    exact ⟨id, by rw [hs]; exact setIdle_callState cx env _⟩
  rcases h.waits with hd | ⟨-, g, hg, hm⟩
  · obtain ⟨id, hi⟩ := hdown c h.kept hd.pending
    exact ⟨[id], by simp, hi⟩
  obtain ⟨hd, -⟩ := guarded_facts h.sided hg
  rcases CasState.guard_cases hg with ⟨-, rfl⟩ | ⟨-, rfl⟩
  · obtain ⟨id, -, hs⟩ := @step_expires cx env _ h.kept _ hm
    refine ⟨[id], by simp, ?_⟩
    change (step cx env (.timer id) c).callState = .idle
    rw [hs]
    exact setIdle_callState cx env _
  · obtain ⟨id, hlen, hs⟩ := @step_expires cx env _ h.kept _ hm
    have hk : (c.start.mapTimers (·.removeId id)).timers.Kept := h.kept.removeId id
    obtain ⟨hdn, -⟩ := @sendClearForward_down cx env (c.start.mapTimers (·.removeId id)) hd hk hc (hlen.trans hl)
    have hkd : (step cx env (.timer id) c).timers.Kept := by
      rw [hs]
      exact ((sendClearForward_schedules cx env _).serviced (by split_ifs <;> simp)).kept hk
    obtain ⟨id', hi⟩ := hdown (step cx env (.timer id) c) hkd (by rw [hs]; exact hdn.pending)
    exact ⟨[id, id'], by simp, hi⟩

/-- Timers can be scheduled, and no glare takes the place of the wait for an acknowledgement
after which the line is to be cleared. -/
def KeepsClear (cx : R2Context) (c : R2Chan) (t : Tick) : Prop := Schedulable c t ∧ ¬ ForgetsClear cx c t

theorem run_prompt (hm : cx.Mfc) (hc : Started cx c) {ts : List Tick}
    (ht : Runs.Along (tick cx) Schedulable ts c) : (run cx ts c).1.Prompt :=
  Runs.exec_invariant (f := tick cx) (P := R2Chan.Prompt) (fun _ t hx h => step_prompt hm t hx h) ts c ht
    (started_prompt hc)

/-- The hang-up of a forward call, between the steps or in a callback, leaves a channel that a
timer moves on. -/
theorem calls_hung {t : Tick} {d : R2Chan} {f : R2Chan → R2Chan} {cause : DisconnectCause} (hm : cx.Mfc)
    (h : c.Prompt) (hcall : Calls cx c t (.disconnectCall cause) d f) (hs : Schedulable c t)
    (hd : d.direction = .forward) (h0 : (disconnectCall cx t.env cause d).2 = 0)
    (hi : .callState .idle ∉ (step cx t.env t.input c).out) : (step cx t.env t.input c).Hung := by
  refine ⟨tick_regular hm h.toRegular t, ?_⟩
  rw [hcall.step] at hi ⊢
  have hidle : d.callState ≠ .idle := by
    intro hx
    simp [disconnectCall, hx] at h0
  have hx : (apiCall cx t.env (.disconnectCall cause) d).1 = (disconnectForward cx t.env d).1 := by
    simp only [apiCall, disconnectCall, if_neg hidle]
    rw [if_neg (show d.direction ≠ .backward by rw [hd]; decide)]
  rw [hx] at hi ⊢
  cases hcall with
  | between =>
    exact (disconnectForward_hung (c := c.start) hd h.kept h.seize hs.1 hs.2).resolve_left fun ho => hi ho.1
  | inside hcb =>
    cases hcb with
    | init => exact absurd hd (by rintro ⟨⟩)
    | digit comes isDigit expected =>
      rename_i tone _
      exact absurd (hd.symm.trans ((digitStored_keeps cx t.env c tone).1.trans comes.2.2.1)) (by decide)
    | accepted asks pending =>
      rename_i mode _
      obtain ⟨x, n, as, hf, -⟩ := checkThreshold_frame cx t.env 0 c.start
      have htm : (c.checked cx t.env).timers = c.timers := by
        rw [R2Chan.checked, hf]
        rfl
      generalize c.checked cx t.env = e at hd htm
      obtain ⟨hdn, hst⟩ := @sendClearForward_down cx t.env ((e.setR2State .acceptRxd).emit (.onCallAccepted mode))
        hd (htm ▸ h.kept) hs.1 (htm ▸ hs.2)
      have hx : (disconnectForward cx t.env ((e.setR2State .acceptRxd).emit (.onCallAccepted mode))).1 =
          (sendClearForward cx t.env ((e.setR2State .acceptRxd).emit (.onCallAccepted mode))).1 := rfl
      dsimp only
      rw [hx, if_pos (.inl (by rw [hst]; decide))]
      exact .inl ⟨hdn.direction, hdn.pending⟩

/-- The hang-up of a forward call is carried out: as long as the call is not over, a timer
waits that moves it on, and in the end the timers bring the channel to rest. -/
theorem hang_up_kept (hm : cx.Mfc) (hc : Started cx c) (pre ts : List Tick) (t : Tick)
    (cause : DisconnectCause) {d : R2Chan} {f : R2Chan → R2Chan}
    (hpre : Runs.Along (tick cx) Schedulable (pre ++ [t]) c)
    (hcall : Calls cx (run cx pre c).1 t (.disconnectCall cause) d f)
    (hd : d.direction = .forward) (h0 : (disconnectCall cx t.env cause d).2 = 0)
    (ht : Runs.Along (tick cx) (KeepsClear cx) ts (step cx t.env t.input (run cx pre c).1))
    (hi : .callState .idle ∉ (step cx t.env t.input (run cx pre c).1).out)
    (hn : .callState .idle ∉ (run cx ts (step cx t.env t.input (run cx pre c).1)).2) :
    let e := (run cx ts (step cx t.env t.input (run cx pre c).1)).1
    (.seizeTimeoutExpired ∈ e.pending ∨ .r2SeizePersistExpired ∈ e.pending ∨
      .r2SetCallDown ∈ e.pending) ∧ ComesDown cx e := by
  have hp := run_prompt hm hc (Runs.Along.append hpre).1
  have hs : Schedulable (run cx pre c).1 t := Runs.Along.last hpre (List.prefix_refl _)
  have hh := calls_hung hm hp hcall hs hd h0 hi
  have hr := Runs.exec_until (f := tick cx) (P := R2Chan.Hung) (fun a => a = .callState .idle)
    (fun c t hx h => (step_hung hm t hx.1 hx.2 h).imp_left fun ho => ⟨_, ho, rfl⟩) ts _ ht
    hh (fun a ha he => hn (he ▸ ha))
  refine ⟨?_, hr.comesDown⟩
  rcases hr.waits with hd | ⟨-, g, hg, hm⟩
  · exact .inr (.inr hd.pending)
  · rcases CasState.guard_cases hg with ⟨-, rfl⟩ | ⟨-, rfl⟩
    · exact .inl hm
    · exact .inr (.inl hm)

/-- A caller hangs up before the seize is acknowledged, and the line stays as it was. -/
theorem hang_up_kept_seize :
    let cx := configureItu 10 10 R2Context.zero
    let env := Env.fair 0x9
    let pre : List Tick := [⟨env, .cas⟩, ⟨env, .api (.makeCall none [Tone.t5] .nationalSubscriber false)⟩]
    let d := (run cx [⟨env, .cas⟩] (step cx env (.api (.disconnectCall .normalClearing))
      (run cx pre (setIdle cx env R2Chan.new).1).1)).1
    (.seizeTimeoutExpired ∈ d.pending ∨ .r2SeizePersistExpired ∈ d.pending ∨
      .r2SetCallDown ∈ d.pending) ∧ ComesDown cx d := by
  intro cx env pre d
  have hc : ∀ h, (env.gettimeofday h).isSome := fun _ => rfl
  refine hang_up_kept ⟨rfl, rfl⟩ (.idle env R2Chan.new) pre [⟨env, .cas⟩]
    ⟨env, .api (.disconnectCall .normalClearing)⟩ .normalClearing
    ⟨⟨hc, by decide⟩, ⟨hc, by decide⟩, ⟨hc, by decide⟩, trivial⟩ (.between rfl) (by decide) (by decide)
    ⟨⟨⟨hc, by decide⟩, fun hx => ?_⟩, trivial⟩ (by decide) (by decide)
  exact absurd hx.2.1 (by decide)

/-- The caller hangs up before the seize is acknowledged, and then the far end seizes as
well. No timer waits any more, and the call lasts until the user hangs up again. -/
theorem glare_forgets_hang_up :
    ¬ ∀ (cx : R2Context) (c : R2Chan) (pre ts : List Tick) (env : Env) (cause : DisconnectCause),
      cx.Mfc → Started cx c →
      Runs.Along (tick cx) (fun c t => t.env.Quiet ∧ Schedulable c t)
        (pre ++ ⟨env, .api (.disconnectCall cause)⟩ :: ts) c →
      (run cx pre c).1.direction = .forward →
      (disconnectCall cx env cause (run cx pre c).1.start).2 = 0 →
      (let d := step cx env (.api (.disconnectCall cause)) (run cx pre c).1
       .callState .idle ∉ d.out → .callState .idle ∉ (run cx ts d).2 →
       .seizeTimeoutExpired ∈ (run cx ts d).1.pending ∨ .r2SeizePersistExpired ∈ (run cx ts d).1.pending ∨
        .r2SetCallDown ∈ (run cx ts d).1.pending) := by
  intro h
  let pre : List Tick := [⟨Env.fair 0x9, .cas⟩,
    ⟨Env.fair 0x9, .api (.makeCall none [Tone.t5] .nationalSubscriber false)⟩]
  have hq : ∀ bits, (Env.fair bits).Quiet := fun _ _ => rfl
  have hc : ∀ bits h, ((Env.fair bits).gettimeofday h).isSome := fun _ _ => rfl
  have hx := h (configureItu 10 10 R2Context.zero) _ pre [⟨Env.fair 0x1, .cas⟩] (Env.fair 0x9)
    .normalClearing ⟨rfl, rfl⟩ (.idle (Env.fair 0x9) R2Chan.new)
    ⟨⟨hq _, hc _, by decide⟩, ⟨hq _, hc _, by decide⟩, ⟨hq _, hc _, by decide⟩,
      ⟨hq _, hc _, by decide⟩, trivial⟩
    (by decide) (by decide) (by decide) (by decide)
  exact absurd hx (by decide)

end Runs

end OpenR2
