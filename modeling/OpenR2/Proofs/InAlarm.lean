import OpenR2.Proofs.Polling
import OpenR2.Proofs.Sides
import OpenR2.Proofs.CallSteps

namespace OpenR2

/-- What the user is told of a call and of its line. -/
def Event.OfCall : Event → Prop
  | .onCallInit | .onCallProceed | .onCallOffered .. | .onCallAccepted _ | .onCallAnswered
  | .onCallDisconnect _ | .onCallEnd | .onLineIdle | .onLineBlocked => True
  | _ => False

def Act.OfCall : Act → Prop
  | .event e => e.OfCall
  | _ => False

/-- There is no call, and no part of one. -/
structure R2Chan.Callless (c : R2Chan) : Prop where
  callState : c.callState = .idle
  direction : c.direction = .stopped
  mfState : c.mfState = .offState

/-- A channel in alarm, and nothing has been told of a call in this step. -/
structure R2Chan.Quelled (c : R2Chan) : Prop extends c.Callless where
  inalarm : c.inalarm = true
  timers : ∀ t ∈ c.timers.schedTimers, t.callback = .persistenceCheckExpired
  mute : ∀ a ∈ c.out, ¬ a.OfCall

/-- No timer is new but the checks. -/
theorem TimerQueue.mem_applyAll_checks {ops : List TimerOp} {q : TimerQueue} {t : SchedTimer}
    (ho : ∀ op ∈ ops, op.Checks) (ht : t ∈ (q.applyAll ops).schedTimers) :
    t ∈ q.schedTimers ∨ t.callback = .persistenceCheckExpired := by
  induction ops generalizing q with
  | nil => exact .inl ht
  | cons op ops ih =>
    rcases ih (fun o hx => ho o (List.mem_cons_of_mem _ hx)) ht with ht | ht
    · exact check_mem (ho op List.mem_cons_self) ht
    · exact .inr ht

namespace R2Chan.Quelled

variable {cx : R2Context} {env : Env} {c d : R2Chan}

theorem did {a : Act} (h : c.Quelled) (ha : ¬ a.OfCall) : (c.did a).Quelled :=
  ⟨⟨h.1.1, h.1.2, h.1.3⟩, h.2, h.3, fun x hx =>
    (List.mem_append.mp hx).elim (h.mute x) fun hx => List.mem_singleton.mp hx ▸ ha⟩

theorem start (h : c.Quelled) : c.start.Quelled := ⟨⟨h.1.1, h.1.2, h.1.3⟩, h.2, h.3, nofun⟩

theorem setCasTx (h : c.Quelled) (cas : Nat) (s : CasSignal) : (c.setCasTx cas s).Quelled :=
  ⟨⟨h.1.1, h.1.2, h.1.3⟩, h.2, h.3, h.4⟩

theorem setR2State (h : c.Quelled) (r : CasState) : (c.setR2State r).Quelled :=
  ⟨⟨h.1.1, h.1.2, h.1.3⟩, h.2, h.3, h.4⟩

theorem forgetLine (h : c.Quelled) : (forgetLine c).Quelled := ⟨⟨h.1.1, h.1.2, h.1.3⟩, h.2, h.3, h.4⟩

theorem mapTimers {f : TimerQueue → TimerQueue} (h : c.Quelled)
    (hf : (f c.timers).schedTimers ⊆ c.timers.schedTimers) : (c.mapTimers f).Quelled :=
  ⟨⟨h.1.1, h.1.2, h.1.3⟩, h.2, fun t ht => h.timers t (hf ht), h.4⟩

/-- A check is all that a poll can schedule. -/
theorem polled (h : c.Quelled) (hp : c.Polled d) : d.Quelled := by
  obtain ⟨⟨raw, p, hf⟩, ⟨ops, ht, hc⟩, as, ho, ha⟩ := hp
  have hm : ∀ t ∈ d.timers.schedTimers, t.callback = .persistenceCheckExpired := by
    rw [ht]
    exact fun t hx => (TimerQueue.mem_applyAll_checks hc hx).elim (h.timers t) id
  generalize d.timers = q at hf hm
  generalize d.out = o at hf ho
  subst hf ho
  refine ⟨⟨h.1.1, h.1.2, h.1.3⟩, h.2, hm, fun a hx => ?_⟩
  rcases List.mem_append.mp hx with hx | hx
  · exact h.mute a hx
  · have hp := ha a hx
    cases a with
    | event e => cases e <;> first | exact hp.elim | exact id
    | _ => exact id

theorem handleCas (h : c.Quelled) : (handleCas cx env c).Quelled := by
  have hp := h.polled (casPattern_polled cx env c)
  unfold OpenR2.handleCas
  generalize casPattern cx env c = r at hp
  obtain ⟨d, p⟩ := r
  cases p with
  | none => exact hp
  | some cas =>
    dsimp only [actOnCas]
    rw [if_pos hp.inalarm]
    exact hp

theorem persistenceCheckExpired (h : c.Quelled) : (persistenceCheckExpired cx env c).Quelled := by
  have h0 : (c.mapTimers (·.setSlot .casPersistenceCheck 0)).Quelled :=
    h.mapTimers (List.Subset.refl _)
  have hr := h0.polled (ioGetCas_polled env _)
  unfold OpenR2.persistenceCheckExpired
  generalize ioGetCas env (c.mapTimers (·.setSlot .casPersistenceCheck 0)) = r at hr
  obtain ⟨d, p⟩ := r
  cases p with
  | none => exact hr
  | some raw =>
    dsimp only
    split_ifs
    · exact hr.handleCas
    · exact hr.polled (checkPersistence_polled cx env d _)
    · exact hr.polled (.setPersistence none d)

/-- Whatever was going on. -/
theorem reset (hi : c.inalarm = true) (hm : ∀ a ∈ c.out, ¬ a.OfCall) (hr : c.Reset d) : d.Quelled := by
  obtain ⟨⟨rx, r, w, x, y, hf⟩, as, ho, ha⟩ := hr
  generalize d.out = o at hf ho
  subst hf ho
  refine ⟨⟨rfl, rfl, rfl⟩, hi, nofun, fun a hx => ?_⟩
  rcases List.mem_append.mp hx with hx | hx
  · rcases List.mem_append.mp hx with hx | hx
    · exact hm a hx
    · have hd := ha a hx
      cases a <;> first | exact hd.elim | exact id
  · rw [List.mem_singleton.mp hx]
    exact id

theorem setCasSignal (h : c.Quelled) (s : CasSignal) : (setCasSignal cx env s c).1.Quelled := by
  simp only [OpenR2.setCasSignal]
  split_ifs
  · exact h
  all_goals exact (h.setCasTx _ _).did id

theorem handleProtocolError (hi : c.inalarm = true) (hm : ∀ a ∈ c.out, ¬ a.OfCall) (r : ProtocolError) :
    (handleProtocolError cx env r c).Quelled := by
  have hd : ∀ a ∈ (c.did (.mfSelectTone c.mfWriteHandle 0)).out, ¬ a.OfCall := fun a ha =>
    (List.mem_append.mp ha).elim (hm a) fun ha => List.mem_singleton.mp ha ▸ id
  have h0 : (protoInit cx (c.did (.mfSelectTone c.mfWriteHandle 0))).Quelled :=
    reset (c := c.did (.mfSelectTone c.mfWriteHandle 0)) hi hd (protoInit_reset cx _)
  exact (h0.setCasSignal .idle).did (a := .event (.onProtocolError r)) id

/-- A call of the user. The line cannot be seized in alarm. -/
theorem apiCall (hm : cx.Mfc) (h : c.Quelled) (a : ApiCall) : (apiCall cx env a c).1.Quelled := by
  have hr : ∀ d : R2Chan, c.Reset d → d.Quelled := fun d => reset h.inalarm h.mute
  have ha : doAnswer cx env c = (c, -1) := by
    simp [doAnswer, hm.dial, hm.detect, h.callState]
  cases a with
  | makeCall ani dnis category restricted =>
    simp only [OpenR2.apiCall, makeCall, if_pos h.inalarm]
    exact h
  | acceptCall mode =>
    simp only [OpenR2.apiCall, acceptCall, h.callState]
    exact h
  | answerCall =>
    simp only [OpenR2.apiCall, answerCall, ha]
    exact h
  | answerCallWithMode mode =>
    simp only [OpenR2.apiCall, answerCallWithMode, ha]
    exact h
  | disconnectCall cause =>
    simp only [OpenR2.apiCall, disconnectCall, if_pos h.callState]
    exact h
  | ackCall =>
    have hs : (OpenR2.setCasSignal cx env .seizeAck c).1.Quelled := h.setCasSignal .seizeAck
    simp only [OpenR2.apiCall, ackCall]
    split_ifs
    · exact handleProtocolError hs.inalarm hs.mute _
    · exact hs
  | setIdle => exact (hr _ (protoInit_reset cx c)).setCasSignal .idle
  | setBlocked => exact ((hr _ (protoInit_reset cx c)).setR2State .blocked).setCasSignal .block

/-- The alarm is raised once more. -/
theorem alarm (h : c.Quelled) : (handleAlarm cx env true c).Quelled := by
  have hs : (c.setInalarm true).Quelled := ⟨⟨h.1.1, h.1.2, h.1.3⟩, rfl, h.3, h.4⟩
  have he : ((c.setInalarm true).emit (.onHardwareAlarm true)).Quelled := hs.did id
  unfold handleAlarm handleAlarmState
  generalize (c.setInalarm true).emit (.onHardwareAlarm true) = d at he
  rw [if_pos he.inalarm, if_neg (not_not.mpr he.callState)]
  exact he.forgetLine

theorem step (hm : cx.Mfc) (h : c.Quelled) {i : Input} (hi : i ≠ .alarm false) :
    (step cx env i c).Quelled := by
  have hs := h.start
  cases i with
  | cas => exact hs.handleCas
  | mfTone tone =>
    change (handleMedia cx env tone c.start).Quelled
    rw [handleMedia, if_pos hs.mfState]
    exact hs
  | timer id =>
    change (expire cx env id c.start).Quelled
    unfold expire
    cases hf : c.start.timer? id with
    | none => exact hs
    | some t =>
      have ht := hs.timers t (List.mem_of_find?_eq_some hf)
      dsimp only
      rw [ht]
      exact (hs.mapTimers List.eraseP_subset).persistenceCheckExpired
  | api a => exact hs.apiCall hm a
  | alarm on =>
    cases on with
    | false => exact absurd rfl hi
    | true => exact hs.alarm

end R2Chan.Quelled

section Runs

variable {cx : R2Context} {c : R2Chan} {t : Tick}

/-- An alarm resets nothing of a channel without a call. -/
theorem alarm_leaves (ht : t.input = .alarm true) (hc : c.callState = .idle) :
    (tick cx c t).1 = forgetLine ((c.start.setInalarm true).emit (.onHardwareAlarm true)) := by
  have hx : ((c.start.setInalarm true).emit (.onHardwareAlarm true)).callState = .idle := hc
  have hi : ((c.start.setInalarm true).emit (.onHardwareAlarm true)).inalarm = true := rfl
  simp only [tick, step, ht, handleAlarm, handleAlarmState]
  rw [if_pos hi, if_neg (not_not.mpr hx)]

/-- The alarm ends a call, and a channel that has none and rests goes on to rest. -/
theorem alarm_quells (h : c.Grounded) (ht : t.input = .alarm true)
    (hm : c.callState = .idle → c.mfState = .offState) : (tick cx c t).1.Quelled := by
  have hs : ∀ a ∈ ((c.start.setInalarm true).emit (.onHardwareAlarm true)).out, ¬ a.OfCall := by
    intro a ha
    obtain rfl : a = .event (.onHardwareAlarm true) := List.mem_singleton.mp ha
    exact id
  by_cases hc : c.callState = .idle
  · obtain ⟨hd, -, hp⟩ := h.idle hc
    rw [alarm_leaves ht hc]
    have hq : ((c.start.setInalarm true).emit (.onHardwareAlarm true)).Quelled :=
      ⟨⟨hc, hd, hm hc⟩, rfl, fun t ht => hp _ (List.mem_map_of_mem ht), hs⟩
    exact hq.forgetLine
  · have he : (tick cx c t).1 = handleAlarm cx t.env true c.start := by
      simp only [tick, ht]
      rfl
    have hx : ((c.start.setInalarm true).emit (.onHardwareAlarm true)).callState ≠ .idle := hc
    have hi : ((c.start.setInalarm true).emit (.onHardwareAlarm true)).inalarm = true := rfl
    rw [he]
    unfold handleAlarm handleAlarmState
    generalize (c.start.setInalarm true).emit (.onHardwareAlarm true) = d at hs hx hi ⊢
    rw [if_pos hi, if_pos hx]
    exact (R2Chan.Quelled.handleProtocolError hi hs _).forgetLine

/-- From the end of the alarm handler to the end of the alarm, there is no call, if the MF
engine of a channel without a call was off when the alarm came. -/
theorem no_call_in_alarm_iff (hm : cx.Mfc) (hc : Started cx c) (js us : List Tick)
    (ht : t.input = .alarm true) (hu : ∀ u ∈ us, u.input ≠ .alarm false) :
    (let d := (run cx (js ++ [t]) c).1
      ∀ vs, vs <+: us → (run cx vs d).1.Callless ∧ ∀ a ∈ (run cx vs d).2, ¬ a.OfCall) ↔
      ((run cx js c).1.callState = .idle → (run cx js c).1.mfState = .offState) := by
  have hg : (run cx js c).1.Grounded := run_grounded (started_grounded hc) js
  rw [run_snoc]
  constructor
  · intro h hi
    have hd := (h [] List.nil_prefix).1.mfState
    rw [run, Runs.exec, alarm_leaves ht hi] at hd
    exact hd
  · intro h d vs hv
    have hd : d.Quelled := alarm_quells hg ht h
    have hstep : ∀ (e : R2Chan) (u : Tick), u.input ≠ .alarm false → e.Quelled →
        (tick cx e u).1.Quelled := fun e u hx he => he.step hm hx
    have hal : Runs.Along (tick cx) (fun _ u => u.input ≠ .alarm false) vs d :=
      .of_forall vs d fun u hx => hu u (hv.subset hx)
    refine ⟨(Runs.exec_invariant hstep vs d hal hd).toCallless, ?_⟩
    exact Runs.exec_outputs (fun e u hx he => ⟨(hstep e u hx he).mute, hstep e u hx he⟩) vs d hal hd

/-- Of a call that is going on. -/
theorem no_call_in_alarm_call :
    let cx := configureItu 10 4 R2Context.zero
    let d := (run cx (seizeTicks ++ [⟨Env.fair 0x1, .alarm true⟩]) (restingChannel cx)).1
    ∀ vs, vs <+: [⟨Env.fair 0x9, .cas⟩] → (run cx vs d).1.Callless ∧ ∀ a ∈ (run cx vs d).2, ¬ a.OfCall := by
  intro cx d
  refine (no_call_in_alarm_iff ⟨rfl, rfl⟩ (.idle (Env.fair 0x9) R2Chan.new) seizeTicks
    [⟨Env.fair 0x9, .cas⟩] rfl (by simp)).mpr ?_
  exact fun h => absurd h (by decide +kernel)

/-- The user gives up in the callback of a DNIS digit. -/
def Env.givingUp : Env := { Env.fair 0x1 with reenter := fun _ => some .setIdle }

/-- The first digit goes on to ask for more in a call that its callback has ended, and the
alarm finds no call to end. -/
theorem signalling_in_alarm :
    ¬ ∀ (cx : R2Context) (c : R2Chan) (js : List Tick) (t : Tick), cx.Mfc → Started cx c →
      t.input = .alarm true → (run cx (js ++ [t]) c).1.Callless := by
  intro h
  let cx := setAniFirst 0 (configureItu 10 4 R2Context.zero)
  have hd := h cx (restingChannel cx) (seizeTicks ++ [⟨Env.givingUp, .mfTone Tone.t5⟩])
    ⟨Env.fair 0x1, .alarm true⟩ ⟨rfl, rfl⟩ (.idle _ _) rfl
  exact absurd hd.mfState (by decide +kernel)

end Runs

end OpenR2
