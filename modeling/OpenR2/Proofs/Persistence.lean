import OpenR2.Proofs.Reset
import OpenR2.Proofs.Variants

namespace OpenR2

section Entry

variable (cx : R2Context) (env : Env)

/-- The channel with which `persistence_check_expired` finds that its pattern persists. -/
def checkEntry (c : R2Chan) : Option R2Chan :=
  let r := ioGetCas env (c.mapTimers (·.setSlot .casPersistenceCheck 0))
  match r.2 with
  | none => none
  | some raw => if r.1.casPersistenceCheckSignal = some (raw &&& cx.casR2Bits) then some r.1 else none

/-- The channel with which `openr2_proto_handle_alarm_state` reads the line after an alarm. -/
def alarmEntry (c : R2Chan) : R2Chan :=
  let c := (c.setInalarm false).emit (.onHardwareAlarm false)
  if c.r2State ≠ .blocked then (setIdle cx env c).1 else (setBlocked cx env c).1

/-- The channel with which a step enters `openr2_proto_handle_cas`, if it does. -/
def casEntry (i : Input) (c : R2Chan) : Option R2Chan :=
  match i with
  | .cas => some c.start
  | .timer id =>
    match c.start.timer? id with
    | none => none
    | some t =>
      if t.callback = .persistenceCheckExpired then
        checkEntry cx env (c.start.mapTimers (·.removeId id))
      else none
  | .alarm false => some (alarmEntry cx env c.start)
  | .mfTone _ | .api _ | .alarm true => none

/-- The pattern with which a step reaches the switch of `openr2_proto_handle_cas`. -/
def switched (i : Input) (c : R2Chan) : Option Nat :=
  match casEntry cx env i c with
  | none => none
  | some d => if (casPattern cx env d).1.inalarm then none else (casPattern cx env d).2

/-- The step is the expiry of a persistence check, and it reads the pattern off the line. -/
def Checked (i : Input) (c : R2Chan) (cas : Nat) : Prop :=
  (∃ id, i = .timer id ∧ ∃ t ∈ c.timer? id, t.callback = .persistenceCheckExpired) ∧
    ∃ raw ∈ env.getCas [], cas = raw &&& cx.casR2Bits

end Entry

/-- A pattern is held whose check no longer waits, and the step reads the line. A
line read in alarm forgets such a pattern, and the end of an alarm ends every check. -/
def Stale (i : Input) (c : R2Chan) : Prop :=
  c.casPersistenceCheckSignal ≠ none ∧
    (i = .cas ∧ c.timers.timerIds .casPersistenceCheck = 0 ∧ c.inalarm = false ∨ i = .alarm false)

instance (i : Input) (c : R2Chan) : Decidable (Stale i c) := by
  unfold Stale; exact inferInstance

section Switch

variable {cx : R2Context} {env : Env} {i : Input} {c d : R2Chan}

theorem persistenceCheckExpired_enters (h : checkEntry cx env c = some d) :
    persistenceCheckExpired cx env c = handleCas cx env d := by
  unfold checkEntry at h
  unfold persistenceCheckExpired
  generalize ioGetCas env (c.mapTimers (·.setSlot .casPersistenceCheck 0)) = r at h ⊢
  obtain ⟨e, p⟩ := r
  cases p with
  | none => exact nomatch h
  | some raw =>
    dsimp only at h ⊢
    by_cases hs : e.casPersistenceCheckSignal = some (raw &&& cx.casR2Bits)
    · rw [if_pos hs] at h ⊢
      rw [Option.some.inj h]
    · rw [if_neg hs] at h
      exact nomatch h

/-- Where a step enters `openr2_proto_handle_cas` it does nothing else after. -/
theorem step_enters (h : casEntry cx env i c = some d) : step cx env i c = handleCas cx env d := by
  cases i with
  | cas => exact congrArg (handleCas cx env) (Option.some.inj h)
  | timer id =>
    change expire cx env id c.start = _
    unfold casEntry at h
    unfold expire
    cases ht : c.start.timer? id with
    | none => simp [ht] at h
    | some t =>
      simp only [ht] at h ⊢
      by_cases hcb : t.callback = .persistenceCheckExpired
      · rw [if_pos hcb] at h
        rw [hcb]
        exact persistenceCheckExpired_enters h
      · rw [if_neg hcb] at h
        exact nomatch h
  | alarm on =>
    cases on with
    | true => exact nomatch h
    | false => exact congrArg (handleCas cx env) (Option.some.inj h)
  | mfTone tone => exact nomatch h
  | api a => exact nomatch h

theorem timer?_start (id : Nat) (c : R2Chan) : c.start.timer? id = c.timer? id := rfl

/-- With a check to be made, a poll never acts on what it reads. -/
theorem pollCas_waits (hp : cx.timers.casPersistenceCheck ≠ 0) (c : R2Chan) :
    (pollCas cx env c).2 = none := by
  unfold pollCas
  generalize ioGetCas env c = r
  obtain ⟨e, p⟩ := r
  cases p with
  | none => rfl
  | some raw =>
    dsimp only
    by_cases hr : e.casRead = raw &&& cx.casR2Bits
    · rw [if_pos hr]
      by_cases ht : e.timers.timerIds .casPersistenceCheck ≠ 0
      · rw [if_pos ht]
      · rw [if_neg ht]
    · rw [if_neg hr, if_pos hp]

/-- A held pattern whose check does not wait is acted on, and no other is. -/
theorem casPattern_held (hp : cx.timers.casPersistenceCheck ≠ 0) (c : R2Chan) :
    (casPattern cx env c).2 =
      if c.timers.timerIds .casPersistenceCheck = 0 then c.casPersistenceCheckSignal else none := by
  unfold casPattern
  cases hs : c.casPersistenceCheckSignal with
  | none => simp [pollCas_waits hp c]
  | some cas =>
    dsimp only
    by_cases ht : c.timers.timerIds .casPersistenceCheck = 0
    · simp [ht]
    · simp [ht, pollCas_waits hp c]

theorem ioGetCas_frame (env : Env) (c : R2Chan) :
    (ioGetCas env c).1.timers = c.timers ∧ (ioGetCas env c).1.inalarm = c.inalarm ∧
      (ioGetCas env c).1.casPersistenceCheckSignal = c.casPersistenceCheckSignal := by
  unfold ioGetCas
  cases env.getCas c.out <;> exact ⟨rfl, rfl, rfl⟩

theorem checkPersistence_inalarm (cas : Nat) (c : R2Chan) :
    (checkPersistence cx env cas c).inalarm = c.inalarm := by
  have hd : (c.setPersistence (some cas)).inalarm = c.inalarm := rfl
  unfold checkPersistence armTimer addTimer
  generalize c.setPersistence (some cas) = d at hd ⊢
  cases env.gettimeofday d.out <;> exact hd

theorem pollCas_inalarm (c : R2Chan) : (pollCas cx env c).1.inalarm = c.inalarm := by
  have hr := (ioGetCas_frame env c).2.1
  unfold pollCas
  generalize ioGetCas env c = r at hr
  obtain ⟨e, p⟩ := r
  cases p with
  | none => exact hr
  | some raw =>
    dsimp only at hr ⊢
    split_ifs
    · exact hr
    · exact hr
    · rw [checkPersistence_inalarm]
      exact hr
    · exact hr

theorem casPattern_inalarm (c : R2Chan) : (casPattern cx env c).1.inalarm = c.inalarm := by
  unfold casPattern
  split
  · exact pollCas_inalarm c
  · split_ifs
    · rfl
    · exact pollCas_inalarm c

theorem alarmEntry_frame (cx : R2Context) (env : Env) (c : R2Chan) :
    (alarmEntry cx env c).inalarm = false ∧
      (alarmEntry cx env c).casPersistenceCheckSignal = c.casPersistenceCheckSignal ∧
      (alarmEntry cx env c).timers.timerIds .casPersistenceCheck = 0 := by
  have hr : ∀ d e : R2Chan, d.Reset e → e.inalarm = d.inalarm ∧
      e.casPersistenceCheckSignal = d.casPersistenceCheckSignal ∧
      e.timers.timerIds .casPersistenceCheck = 0 := by
    rintro d e ⟨⟨_, _, _, _, _, hf⟩, -⟩
    rw [hf]
    exact ⟨rfl, rfl, rfl⟩
  have h := hr _ _ (protoInit_reset cx ((c.setInalarm false).emit (.onHardwareAlarm false)))
  unfold alarmEntry setIdle setBlocked
  dsimp only
  generalize protoInit cx ((c.setInalarm false).emit (.onHardwareAlarm false)) = e at h
  split_ifs
  · exact h
  · exact h

end Switch

section Checks

variable {cx : R2Context} {env : Env} {i : Input} {c : R2Chan}

theorem switched_cas (hp : cx.timers.casPersistenceCheck ≠ 0) :
    switched cx env .cas c =
      if c.inalarm = false ∧ c.timers.timerIds .casPersistenceCheck = 0 then
        c.casPersistenceCheckSignal
      else none := by
  simp only [switched, casEntry, casPattern_inalarm, casPattern_held hp]
  cases ha : c.inalarm <;> simp [R2Chan.start, ha]

theorem switched_alarm (hp : cx.timers.casPersistenceCheck ≠ 0) :
    switched cx env (.alarm false) c = c.casPersistenceCheckSignal := by
  obtain ⟨h1, h2, h3⟩ := alarmEntry_frame cx env c.start
  simp only [switched, casEntry, casPattern_inalarm, casPattern_held hp, h1, h2, h3]
  rfl

/-- What the expiry of a timer acts on, it has checked. -/
theorem switched_timer (hp : cx.timers.casPersistenceCheck ≠ 0) {id cas : Nat}
    (h : switched cx env (.timer id) c = some cas) : Checked cx env (.timer id) c cas := by
  simp only [switched, casEntry, timer?_start] at h
  cases ht : c.timer? id with
  | none => simp [ht] at h
  | some t =>
    simp only [ht] at h
    by_cases hcb : t.callback = .persistenceCheckExpired
    · refine ⟨⟨id, rfl, t, ht, hcb⟩, ?_⟩
      rw [if_pos hcb] at h
      generalize hd : c.start.mapTimers (·.removeId id) = d at h
      have ho : d.out = [] := by subst hd; rfl
      unfold checkEntry at h
      have hf := ioGetCas_frame env (d.mapTimers (·.setSlot .casPersistenceCheck 0))
      have hr : (ioGetCas env (d.mapTimers (·.setSlot .casPersistenceCheck 0))).2 = env.getCas [] := by
        unfold ioGetCas
        rw [show (d.mapTimers (·.setSlot .casPersistenceCheck 0)).out = [] from ho]
        cases env.getCas [] <;> rfl
      generalize ioGetCas env (d.mapTimers (·.setSlot .casPersistenceCheck 0)) = r at h hf hr
      obtain ⟨e, p⟩ := r
      dsimp only at h hf hr
      subst hr
      cases hg : env.getCas [] with
      | none => simp [hg] at h
      | some raw =>
        refine ⟨raw, rfl, ?_⟩
        by_cases hs : e.casPersistenceCheckSignal = some (raw &&& cx.casR2Bits)
        · simp only [hg, if_pos hs, casPattern_held hp] at h
          split_ifs at h
          exact Option.some.inj (h.symm.trans hs)
        · simp [hg, if_neg hs] at h
    · simp [if_neg hcb] at h

/-- A step acts on unchecked patterns only where the held one is stale. -/
theorem switched_checked_iff (hp : cx.timers.casPersistenceCheck ≠ 0) (env : Env) (i : Input)
    (c : R2Chan) : (∀ cas ∈ switched cx env i c, Checked cx env i c cas) ↔ ¬ Stale i c := by
  have hn : ∀ j : Input, (∀ id, j ≠ .timer id) →
      ((∀ cas ∈ switched cx env j c, Checked cx env j c cas) ↔ switched cx env j c = none) := by
    intro j hj
    constructor
    · intro h
      refine Option.eq_none_iff_forall_not_mem.mpr fun cas hm => ?_
      obtain ⟨⟨id, he, -⟩, -⟩ := h cas hm
      exact hj id he
    · intro h cas hm
      simp [h] at hm
  cases i with
  | cas =>
    rw [hn .cas (by simp), switched_cas hp]
    by_cases ha : c.inalarm = false <;>
      by_cases ht : c.timers.timerIds .casPersistenceCheck = 0 <;> simp [Stale, ha, ht]
  | alarm on =>
    cases on with
    | true => simp [Stale, switched, casEntry]
    | false => rw [hn _ (by simp), switched_alarm hp]; simp [Stale]
  | timer id =>
    refine iff_of_true (fun cas hm => switched_timer hp hm) ?_
    simp [Stale]
  | mfTone tone => simp [Stale, switched, casEntry]
  | api a => simp [Stale, switched, casEntry]

end Checks

section Runs

variable {cx : R2Context}

/-- Every pattern acted on in a run is one whose check has just expired and which was
just read off the line, if and only if no line read finds a stale pattern. -/
theorem persistence_sound_iff (hp : cx.timers.casPersistenceCheck ≠ 0) (c : R2Chan)
    (ts : List Tick) :
    Runs.Along (tick cx) (fun c t => ∀ cas ∈ switched cx t.env t.input c,
        Checked cx t.env t.input c cas) ts c ↔
      Runs.Along (tick cx) (fun c t => ¬ Stale t.input c) ts c := by
  induction ts generalizing c with
  | nil => exact Iff.rfl
  | cons t ts ih => exact and_congr (switched_checked_iff hp t.env t.input c) (ih _)

end Runs

/-- A context in which patterns must persist. -/
def patientCx : R2Context :=
  let cx := configureItu 10 10 R2Context.zero
  { cx with timers := { cx.timers with casPersistenceCheck := 100 } }

/-- The far end is idle, and that has been checked. -/
def patientChannel : R2Chan :=
  (run patientCx [⟨Env.fair 0x9, .cas⟩, ⟨Env.fair 0x9, .timer 2⟩]
    (setIdle patientCx (Env.fair 0x9) R2Chan.new).1).1

/-- A seize that persists. -/
theorem persistence_sound_seize :
    Runs.Along (tick patientCx) (fun c t => ∀ cas ∈ switched patientCx t.env t.input c,
        Checked patientCx t.env t.input c cas)
      [⟨Env.fair 0x1, .cas⟩, ⟨Env.fair 0x1, .cas⟩, ⟨Env.fair 0x1, .timer 4⟩] patientChannel := by
  refine (persistence_sound_iff (by decide) patientChannel _).mpr ⟨?_, ?_, ?_, trivial⟩
  · change ¬ Stale .cas patientChannel
    decide
  · change ¬ Stale .cas (tick patientCx patientChannel ⟨Env.fair 0x1, .cas⟩).1
    decide
  · simp [Stale]

/-- A glitch that looks like a seize is being checked when the user resets the channel.
The line is idle again, and the next poll takes the forgotten pattern for a call. -/
theorem stale_pattern_acted_on :
    (¬ ∀ (cx : R2Context) (c : R2Chan) (ts : List Tick), cx.timers.casPersistenceCheck ≠ 0 →
      Started cx c →
      Runs.Along (tick cx) (fun c t => ∀ cas ∈ switched cx t.env t.input c,
        Checked cx t.env t.input c cas) ts c) ∧
    (run patientCx [⟨Env.fair 0x1, .cas⟩, ⟨Env.fair 0x9, .api .setIdle⟩, ⟨Env.fair 0x9, .cas⟩]
      patientChannel).1.callState = .collecting := by
  refine ⟨fun h => ?_, by decide⟩
  have hs := h patientCx _ [⟨Env.fair 0x9, .cas⟩, ⟨Env.fair 0x9, .timer 2⟩, ⟨Env.fair 0x1, .cas⟩,
    ⟨Env.fair 0x9, .api .setIdle⟩, ⟨Env.fair 0x9, .cas⟩] (by decide) (.idle (Env.fair 0x9) R2Chan.new)
  exact (switched_checked_iff (by decide) _ _ _).mp hs.2.2.2.2.1 (by decide)

end OpenR2
