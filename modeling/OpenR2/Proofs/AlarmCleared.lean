import OpenR2.Proofs.LineMemory
import OpenR2.Proofs.Persistence

namespace OpenR2

/-- Receivers are ready for a call. -/
structure Env.Receives (env : Env) : Prop where
  dtmf : ∀ h, env.dtmfRxInit h = true
  write : ∀ h, (env.mfWriteInit h).isSome = true
  read : ∀ h, (env.mfReadInit h).isSome = true

/-- The end of an alarm acts on the pattern. -/
structure R2Chan.TakesUp (cx : R2Context) (env : Env) (c : R2Chan) (cas : Nat) : Prop where
  switched : switched cx env (.alarm false) c = some cas
  idle : cas = cx.casSignals .idle → .event .onLineIdle ∈ (step cx env (.alarm false) c).out
  block : cas = cx.casSignals .block → .event .onLineBlocked ∈ (step cx env (.alarm false) c).out
  seize : cas = cx.casSignals .seize → c.r2State ≠ .blocked → env.Receives →
    .event .onCallInit ∈ (step cx env (.alarm false) c).out

/-- The pattern is new to the channel, and not the block of a channel that is blocked itself. -/
def R2Chan.HasNews (cx : R2Context) (c : R2Chan) (cas : Nat) : Prop :=
  cas ≠ c.casRead ∧ ¬ (c.r2State = .blocked ∧ cas = cx.casSignals .block)

/-- No pattern is being checked. -/
structure R2Chan.Checkless (c : R2Chan) : Prop where
  held : c.casPersistenceCheckSignal = none
  timers : .persistenceCheckExpired ∉ c.pending

namespace R2Chan.Checkless

variable {cx : R2Context} {env : Env} {b c : R2Chan}

theorem blindly (h : b.Checkless) (hw : R2Chan.Blindly cx b c) : c.Checkless :=
  ⟨(congrArg LineMemory.casPersistenceCheckSignal hw.1).trans h.held,
    fun hm => h.timers (hw.2.1 hm)⟩

theorem pollCas (hp : cx.timers.casPersistenceCheck = 0) (h : c.Checkless) :
    (pollCas cx env c).1.Checkless := by
  have hx : ∀ d : R2Chan, d.Checkless →
      ((d.cancelTimer .casPersistenceCheck).setPersistence none).Checkless := by
    intro d hd
    have hc : (d.cancelTimer .casPersistenceCheck).Checkless :=
      hd.blindly ((R2Chan.Blindly.refl cx d).cancelTimer _)
    exact ⟨rfl, hc.timers⟩
  have hd : (ioGetCas env c).1.Checkless := by
    unfold ioGetCas
    cases env.getCas c.out with
    | none => exact ⟨h.held, h.timers⟩
    | some raw => exact ⟨h.held, h.timers⟩
  unfold OpenR2.pollCas
  generalize ioGetCas env c = r at hd
  obtain ⟨d, p⟩ := r
  cases p with
  | none => exact hd
  | some raw =>
    dsimp only
    split_ifs with hr ht hq
    · exact hx d hd
    · exact hd
    · exact absurd hp hq
    · exact hd

theorem handleCas (hp : cx.timers.casPersistenceCheck = 0)
    (hi : cx.casSignals .clearForward = cx.casSignals .idle) (h : c.Checkless) :
    (handleCas cx env c).Checkless := by
  have hd : (casPattern cx env c).1.Checkless := by
    unfold casPattern
    rw [h.held]
    exact h.pollCas hp
  unfold OpenR2.handleCas
  generalize casPattern cx env c = r at hd
  obtain ⟨d, p⟩ := r
  cases p with
  | none => exact hd
  | some cas =>
    have hn : ((d.setCasRead cas).logRx .invalid).Checkless := ⟨hd.held, hd.timers⟩
    dsimp only [actOnCas]
    split
    · exact hd
    · exact hn.blindly (casSwitch_blindly hi rfl)

theorem handleAlarm (hp : cx.timers.casPersistenceCheck = 0)
    (hi : cx.casSignals .clearForward = cx.casSignals .idle) (h : c.Checkless) (on : Bool) :
    (handleAlarm cx env on c).Checkless := by
  have ha : ((c.setInalarm on).emit (.onHardwareAlarm on)).Checkless := ⟨h.held, h.timers⟩
  have hf : ∀ d : R2Chan, d.Checkless → (forgetLine d).Checkless := fun _ hd =>
    ⟨hd.held, hd.timers⟩
  unfold OpenR2.handleAlarm handleAlarmState
  generalize (c.setInalarm on).emit (.onHardwareAlarm on) = d at ha
  have hw : R2Chan.Blindly cx d d := .refl cx d
  split_ifs
  · exact hf _ (ha.blindly (hw.handleProtocolError _))
  · exact hf _ ha
  · exact (ha.blindly hw.setIdle).handleCas hp hi
  · exact (ha.blindly hw.setBlocked).handleCas hp hi

theorem step (hp : cx.timers.casPersistenceCheck = 0)
    (hi : cx.casSignals .clearForward = cx.casSignals .idle) (h : c.Checkless) (i : Input) :
    (step cx env i c).Checkless := by
  have hs : c.start.Checkless := ⟨h.held, h.timers⟩
  unfold OpenR2.step
  generalize c.start = d at hs
  have hw : R2Chan.Blindly cx d d := .refl cx d
  dsimp only
  cases i with
  | cas => exact hs.handleCas hp hi
  | mfTone tone => exact hs.blindly (handleMedia_blindly hw tone)
  | timer id =>
    change (expire cx env id d).Checkless
    unfold expire
    cases ht : d.timer? id with
    | none => exact hs
    | some t =>
      have hc : t.callback ≠ .persistenceCheckExpired := fun hc =>
        hs.timers (hc ▸ List.mem_map_of_mem (List.mem_of_find?_eq_some ht))
      exact hs.blindly (runTimer_blindly (hw.mapTimers List.eraseP_subset) hc)
  | api a => exact hs.blindly (hw.apiCall a)
  | alarm on => exact hs.handleAlarm hp hi on

theorem mediaStep (hp : cx.timers.casPersistenceCheck = 0)
    (hi : cx.casSignals .clearForward = cx.casSignals .idle) {m : MediaChan} (h : m.chan.Checkless)
    (i : MediaInput) : (mediaStep cx env i m).chan.Checkless := by
  have hs : m.chan.start.Checkless := ⟨h.held, h.timers⟩
  have hw : R2Chan.Blindly cx m.chan.start m.chan.start := .refl cx _
  cases i with
  | cas => exact h.step hp hi .cas
  | read x => exact hs.blindly (handleRead_blindly (m.on R2Chan.start) hw x)
  | write sent => exact hs.blindly (handleWrite_blindly hw sent)
  | timer id => exact h.step hp hi (.timer id)
  | api a => exact h.step hp hi (.api a)
  | alarm on => exact h.step hp hi (.alarm on)

end R2Chan.Checkless

section Entry

variable {cx : R2Context} {env : Env} {c : R2Chan} {raw : Nat}

/-- Without a check to be made, what is new is acted on. -/
theorem casPattern_new (hp : cx.timers.casPersistenceCheck = 0)
    (hh : c.casPersistenceCheckSignal = none) (hr : env.getCas c.out = some raw)
    (hn : raw &&& cx.casR2Bits ≠ c.casRead) :
    casPattern cx env c = ((c.did .getCas).setCasRawRead raw, some (raw &&& cx.casR2Bits)) := by
  have hx : ((c.did .getCas).setCasRawRead raw).casRead ≠ raw &&& cx.casR2Bits := fun h => hn h.symm
  have hi : ioGetCas env c = ((c.did .getCas).setCasRawRead raw, some raw) := by
    simp only [ioGetCas, hr]
  simp only [casPattern, hh, pollCas, hi]
  rw [if_neg hx, if_neg (not_not.mpr hp)]

/-- What was read before is passed over. -/
theorem casPattern_old (hh : c.casPersistenceCheckSignal = none) (hr : env.getCas c.out = some raw)
    (ho : raw &&& cx.casR2Bits = c.casRead) : (casPattern cx env c).2 = none := by
  have hx : ((c.did .getCas).setCasRawRead raw).casRead = raw &&& cx.casR2Bits := ho.symm
  have hi : ioGetCas env c = ((c.did .getCas).setCasRawRead raw, some raw) := by
    simp only [ioGetCas, hr]
  simp only [casPattern, hh, pollCas, hi]
  rw [if_pos hx]
  split_ifs
  · rfl
  · rfl

theorem alarmEntry_blindly (cx : R2Context) (env : Env) (c : R2Chan) :
    R2Chan.Blindly cx (c.setInalarm false) (alarmEntry cx env c) := by
  have hw : R2Chan.Blindly cx (c.setInalarm false) ((c.setInalarm false).emit (.onHardwareAlarm false)) :=
    .refl cx _
  unfold alarmEntry
  dsimp only
  split_ifs
  · exact hw.setIdle
  · exact hw.setBlocked

/-- The line is not read yet. -/
theorem alarmEntry_silent (cx : R2Context) (env : Env) (c : R2Chan) :
    .event .onLineBlocked ∉ (alarmEntry cx env c.start).out := by
  have hx : ∀ {as : List Act} {bits : Nat}, (∀ a ∈ as, a.Closes) →
      .event .onLineBlocked ∉ ((c.start.setInalarm false).emit (.onHardwareAlarm false)).out ++ as ++
        [.callState .idle, .setCas bits] := by
    intro as bits ha hm
    simp only [R2Chan.emit, R2Chan.did, R2Chan.setInalarm, R2Chan.start, List.mem_append, List.mem_cons,
      List.not_mem_nil, Act.event.injEq, reduceCtorEq, false_or, or_false] at hm
    exact ha _ hm
  simp only [alarmEntry]
  split_ifs
  · obtain ⟨as, ho, ha⟩ := setIdle_out cx ((c.start.setInalarm false).emit (.onHardwareAlarm false)) env
    rw [ho]
    exact hx ha
  · obtain ⟨as, ho, ha⟩ := setBlocked_out cx ((c.start.setInalarm false).emit (.onHardwareAlarm false)) env
    rw [ho]
    exact hx ha

theorem alarmEntry_r2State (cx : R2Context) (env : Env) (c : R2Chan) :
    (alarmEntry cx env c).r2State = if c.r2State = .blocked then .blocked else .idle := by
  by_cases hb : c.r2State = .blocked
  · have hx : ¬ ((c.setInalarm false).emit (.onHardwareAlarm false)).r2State ≠ .blocked := not_not.mpr hb
    simp only [alarmEntry]
    rw [if_neg hx, if_pos hb]
    exact (setBlocked_callState cx _ env).2
  · have hx : ((c.setInalarm false).emit (.onHardwareAlarm false)).r2State ≠ .blocked := hb
    simp only [alarmEntry]
    rw [if_pos hx, if_neg hb]
    exact (setIdle_atRest cx _ env).r2State

/-- A seize of an idle channel, with receivers for the call. -/
theorem handleIncomingCall_inits (hr : env.Receives) (c : R2Chan) :
    .event .onCallInit ∈ (handleIncomingCall cx env c).out := by
  have hi : ∀ d : R2Chan, .event .onCallInit ∈ (incomingCall cx env d).out := by
    intro d
    have hm : .event .onCallInit ∈ (callback cx env .onCallInit (((d.setR2State .seizeAckTxd).setCallState
        .collecting).setDirection .backward)).out := by
      refine (callback_calls_grow cx env _ .onCallInit).subset ?_
      exact List.mem_append_right _ (List.mem_singleton.mpr rfl)
    unfold incomingCall
    dsimp only
    split_ifs
    · exact (ackCall_grows cx env _).subset hm
    · exact hm
  unfold handleIncomingCall
  dsimp only
  split_ifs with hd hx
  · rw [hr.dtmf] at hx
    exact nomatch hx
  · exact hi _
  · obtain ⟨w, hw⟩ := Option.isSome_iff_exists.mp (hr.write c.out)
    obtain ⟨r, hx⟩ := Option.isSome_iff_exists.mp
      (hr.read (c.did (.mfWriteInit c.mfWriteHandle false)).out)
    rw [hw]
    dsimp only
    rw [hx]
    exact hi _

end Entry

section Runs

variable {cx : R2Context} {env : Env} {c : R2Chan} {raw : Nat}

/-- The end of an alarm takes up the pattern on the line if it is not the one that was read
last, nor a block that the channel has itself, and no other. -/
theorem takesUp_iff (hp : cx.timers.casPersistenceCheck = 0) (hs : cx.casSignals = standardCasSignals)
    (hc : c.Checkless) (hr : ∀ h, env.getCas h = some raw) :
    R2Chan.TakesUp cx env c (raw &&& cx.casR2Bits) ↔ c.HasNews cx (raw &&& cx.casR2Bits) := by
  have hm := (alarmEntry_blindly cx env c.start).1
  have ha : (alarmEntry cx env c.start).inalarm = false := congrArg LineMemory.inalarm hm
  have hread : (alarmEntry cx env c.start).casRead = c.casRead := congrArg LineMemory.casRead hm
  have hheld : (alarmEntry cx env c.start).casPersistenceCheckSignal = none :=
    (congrArg LineMemory.casPersistenceCheckSignal hm).trans hc.held
  have hstate : (alarmEntry cx env c.start).r2State = if c.r2State = .blocked then .blocked else .idle :=
    alarmEntry_r2State cx env c.start
  have hsilent : .event .onLineBlocked ∉ (alarmEntry cx env c.start).out := alarmEntry_silent cx env c
  have he : step cx env (.alarm false) c = handleCas cx env (alarmEntry cx env c.start) := step_enters rfl
  have hw : switched cx env (.alarm false) c =
      if (casPattern cx env (alarmEntry cx env c.start)).1.inalarm then none
      else (casPattern cx env (alarmEntry cx env c.start)).2 := rfl
  generalize alarmEntry cx env c.start = d at ha hread hheld hstate hsilent he hw
  have hsignal : cx.casSignals .idle ≠ cx.casSignals .block ∧
      cx.casSignals .seize ≠ cx.casSignals .block ∧ cx.casSignals .seize ≠ cx.casSignals .idle := by
    rw [hs]
    exact ⟨by decide, by decide, by decide⟩
  obtain ⟨hib, hsb, hsi⟩ := hsignal
  -- what is read before the switch, and the switch, where the pattern is new
  have hsw : raw &&& cx.casR2Bits ≠ c.casRead → casPattern cx env d =
        ((d.did .getCas).setCasRawRead raw, some (raw &&& cx.casR2Bits)) ∧
      step cx env (.alarm false) c = casSwitch cx env (raw &&& cx.casR2Bits)
        (((d.did .getCas).setCasRawRead raw).setCasRead (raw &&& cx.casR2Bits)) := by
    intro hn
    have hcas := casPattern_new hp hheld (hr d.out) (fun h => hn (h.trans hread))
    have hi : ((d.did .getCas).setCasRawRead raw).inalarm = false := ha
    refine ⟨hcas, ?_⟩
    rw [he, handleCas, hcas]
    simp only [actOnCas, hi]
    rfl
  have hst : (((d.did .getCas).setCasRawRead raw).setCasRead (raw &&& cx.casR2Bits)).r2State =
      if c.r2State = .blocked then .blocked else .idle := hstate
  constructor
  · intro h
    have hn : raw &&& cx.casR2Bits ≠ c.casRead := by
      intro ho
      have hx := h.switched
      rw [hw, casPattern_old hheld (hr d.out) (ho.trans hread.symm), ite_self] at hx
      exact nomatch hx
    refine ⟨hn, fun ⟨hb, hx⟩ => ?_⟩
    have hm := h.block hx
    rw [if_pos hb] at hst
    rw [(hsw hn).2, hx] at hm
    rw [hx] at hst
    simp only [casSwitch, hst, casBlocked, if_neg hib.symm] at hm
    rcases List.mem_append.mp hm with hm | hm
    · exact hsilent hm
    · simp at hm
  · rintro ⟨hn, hnb⟩
    obtain ⟨hcas, hsw⟩ := hsw hn
    generalize ((d.did .getCas).setCasRawRead raw).setCasRead (raw &&& cx.casR2Bits) = e at hsw hst
    refine ⟨?_, fun hx => ?_, fun hx => ?_, fun hx hb hv => ?_⟩
    · rw [hw, hcas]
      exact if_neg (by simp [R2Chan.setCasRawRead, R2Chan.did, ha])
    · rw [hsw, hx]
      by_cases hb : c.r2State = .blocked
      · rw [if_pos hb] at hst
        simp only [casSwitch, hst, casBlocked, if_pos]
        exact List.mem_append_right _ (List.mem_singleton.mpr rfl)
      · rw [if_neg hb] at hst
        simp only [casSwitch, hst, casIdle, if_neg hib, if_pos]
        exact List.mem_append_right _ (List.mem_singleton.mpr rfl)
    · rw [if_neg fun hb => hnb ⟨hb, hx⟩] at hst
      rw [hsw, hx]
      simp only [casSwitch, hst, casIdle, if_pos]
      exact List.mem_append_right _ (List.mem_singleton.mpr rfl)
    · rw [if_neg hb] at hst
      rw [hsw, hx]
      simp only [casSwitch, hst, casIdle, if_neg hsb, if_neg hsi, if_pos]
      exact handleIncomingCall_inits hv _

/-- In every run of a new channel, of MFC or of DTMF signalling, with callbacks of any kind. -/
theorem alarm_end_taken_up_iff (hp : cx.timers.casPersistenceCheck = 0)
    (hs : cx.casSignals = standardCasSignals) (ts : List MediaTick)
    (hr : ∀ h, env.getCas h = some raw) :
    let c := (mediaRun cx ts MediaChan.new).1.chan
    R2Chan.TakesUp cx env c (raw &&& cx.casR2Bits) ↔ c.HasNews cx (raw &&& cx.casR2Bits) := by
  have hi : cx.casSignals .clearForward = cx.casSignals .idle := by
    rw [hs]
    rfl
  refine takesUp_iff hp hs ?_ hr
  exact Runs.exec_invariant (f := mediaTick cx) (P := fun m : MediaChan => m.chan.Checkless)
    (fun _ t _ h => h.mediaStep hp hi t.input) ts MediaChan.new
    (Runs.Along.always (fun _ _ => trivial) ts _) ⟨rfl, nofun⟩

/-- The far end is idle after an alarm. -/
theorem alarm_end_taken_up_idle :
    let cx := configureItu 10 4 R2Context.zero
    let ts := [⟨Env.fair 0x9, .api .setIdle⟩, ⟨Env.fair 0x9, .cas⟩, ⟨Env.fair 0x0, .alarm true⟩]
    let c := (mediaRun cx ts MediaChan.new).1.chan
    R2Chan.TakesUp cx (Env.fair 0x9) c (0x9 &&& cx.casR2Bits) ↔ c.HasNews cx (0x9 &&& cx.casR2Bits) :=
  alarm_end_taken_up_iff rfl rfl _ fun _ => rfl

/-- The alarm leaves the bits of a seize as those that were read last, and a seize that is
on the line when it ends is not seen. -/
theorem seize_after_alarm_missed :
    ¬ ∀ (cx : R2Context) (env : Env) (raw : Nat) (ts : List MediaTick),
      cx.timers.casPersistenceCheck = 0 → cx.casSignals = standardCasSignals →
      (∀ h, env.getCas h = some raw) →
      R2Chan.TakesUp cx env (mediaRun cx ts MediaChan.new).1.chan (raw &&& cx.casR2Bits) := by
  intro h
  have hx := (h (configureItu 10 4 R2Context.zero) (Env.fair 0x1) 0x1
    [⟨Env.fair 0x9, .api .setIdle⟩, ⟨Env.fair 0x9, .cas⟩, ⟨Env.fair 0x0, .alarm true⟩] rfl rfl
    fun _ => rfl).switched
  exact absurd hx (by decide)

end Runs

end OpenR2
