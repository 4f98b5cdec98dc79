import OpenR2.Proofs.Persistence
import OpenR2.Proofs.SingleTimers

namespace OpenR2

/-- An operation on the timer that checks whether a pattern persists. -/
def TimerOp.Checks : TimerOp → Prop
  | .arm slot _ _ callback => slot = .casPersistenceCheck ∧ callback = .persistenceCheckExpired
  | .mark slot id => slot = .casPersistenceCheck ∧ id ≤ 0
  | .cancel slot => slot = .casPersistenceCheck
  | .add .. | .cancelAll => False

/-- Acts of a channel that reads the line. -/
def Act.Polls : Act → Prop
  | .getCas | .gettimeofday | .event .onOsError => True
  | _ => False

/-- A channel that has read the line and has not acted on what it read. -/
structure R2Chan.Polled (c d : R2Chan) : Prop where
  frame : ∃ raw p, d = { c with
    casRawRead := raw
    casPersistenceCheckSignal := p
    timers := d.timers
    out := d.out }
  timers : ∃ ops : List TimerOp, d.timers = c.timers.applyAll ops ∧ ∀ op ∈ ops, op.Checks
  out : ∃ as, d.out = c.out ++ as ∧ ∀ a ∈ as, a.Polls

namespace TimerQueue

variable {q : TimerQueue} {op : TimerOp} {ops : List TimerOp} {t : SchedTimer}

theorem Checks.proper (h : op.Checks) : op.Proper := by
  cases op with
  | arm slot now ms callback => obtain ⟨rfl, rfl⟩ := h; exact rfl
  | mark slot id => exact h.2
  | cancel slot => trivial
  | add now ms callback => exact h.elim
  | cancelAll => exact h.elim

/-- The timers of other purposes stay. -/
theorem Kept.mem_check (h : q.Kept) (ho : op.Checks) (ht : t ∈ q.schedTimers)
    (hc : t.callback ≠ .persistenceCheckExpired) : t ∈ (q.apply op).schedTimers := by
  cases op with
  | arm slot now ms callback =>
    simp only [TimerQueue.apply, setSlot, TimerQueue.addTimer]
    split_ifs
    · exact ht
    · exact (List.mem_orderedInsert _).mpr (.inr ht)
  | mark slot id => exact ht
  | cancel slot =>
    obtain rfl : slot = .casPersistenceCheck := ho
    exact h.mem_cancelTimer ht hc
  | add now ms callback => exact ho.elim
  | cancelAll => exact ho.elim

/-- A new timer is a check. -/
theorem check_mem (ho : op.Checks) (ht : t ∈ (q.apply op).schedTimers) :
    t ∈ q.schedTimers ∨ t.callback = .persistenceCheckExpired := by
  cases op with
  | arm slot now ms callback =>
    obtain ⟨rfl, rfl⟩ := ho
    rcases mem_addTimer (show t ∈ (q.addTimer now ms .persistenceCheckExpired).1.schedTimers from ht)
      with ht | ⟨-, rfl⟩
    · exact .inl ht
    · exact .inr rfl
  | mark slot id => exact .inl ht
  | cancel slot =>
    simp only [apply, TimerQueue.cancelTimer] at ht
    split_ifs at ht
    · exact .inl ht
    · exact .inl (List.mem_of_mem_eraseP ht)
    · exact .inl ht
  | add now ms callback => exact ho.elim
  | cancelAll => exact ho.elim

/-- The other slots stay. -/
theorem check_slots (ho : op.Checks) {s : TimerSlot} (hs : s ≠ .casPersistenceCheck) :
    (q.apply op).timerIds s = q.timerIds s := by
  cases op with
  | arm slot now ms callback =>
    obtain ⟨rfl, rfl⟩ := ho
    simp only [apply, setSlot, if_neg hs, TimerQueue.addTimer]
    split_ifs <;> rfl
  | mark slot id =>
    obtain ⟨rfl, -⟩ := ho
    simp only [apply, setSlot, if_neg hs]
  | cancel slot =>
    obtain rfl : slot = .casPersistenceCheck := ho
    simp only [apply, TimerQueue.cancelTimer]
    split_ifs
    · rfl
    · simp only [setSlot, if_neg hs]; rfl
    · rfl
  | add now ms callback => exact ho.elim
  | cancelAll => exact ho.elim

/-- What a sequence of such operations keeps. -/
theorem Kept.checks (h : q.Kept) (ho : ∀ op ∈ ops, op.Checks) :
    (q.applyAll ops).Kept ∧
      (∀ t ∈ q.schedTimers, t.callback ≠ .persistenceCheckExpired → t ∈ (q.applyAll ops).schedTimers) ∧
      (∀ t ∈ (q.applyAll ops).schedTimers, t ∈ q.schedTimers ∨ t.callback = .persistenceCheckExpired) ∧
      ∀ s ≠ .casPersistenceCheck, (q.applyAll ops).timerIds s = q.timerIds s := by
  induction ops generalizing q with
  | nil => exact ⟨h, fun _ ht _ => ht, fun _ ht => .inl ht, fun _ _ => rfl⟩
  | cons op ops ih =>
    have hop := ho op List.mem_cons_self
    obtain ⟨hk, hm, hn, hs⟩ := ih (h.apply (Checks.proper hop)) fun o hx => ho o (List.mem_cons_of_mem _ hx)
    refine ⟨hk, fun t ht hc => hm t (h.mem_check hop ht hc) hc, fun t ht => ?_, fun s hx => ?_⟩
    · rcases hn t ht with ht | ht
      · exact check_mem hop ht
      · exact .inr ht
    · exact (hs s hx).trans (check_slots hop hx)

end TimerQueue

namespace R2Chan.Polled

variable {cx : R2Context} {env : Env} {c d e : R2Chan}

theorem refl (c : R2Chan) : c.Polled c :=
  ⟨⟨c.casRawRead, c.casPersistenceCheckSignal, rfl⟩, ⟨[], rfl, by simp⟩, [], by simp, by simp⟩

theorem trans (h : c.Polled d) (h' : d.Polled e) : c.Polled e := by
  obtain ⟨⟨raw, p, hf⟩, ⟨ops, ht, ho⟩, as, hout, ha⟩ := h
  obtain ⟨⟨raw', p', hf'⟩, ⟨ops', ht', ho'⟩, as', hout', ha'⟩ := h'
  refine ⟨⟨raw', p', ?_⟩, ⟨ops ++ ops', ?_, ?_⟩, as ++ as', ?_, ?_⟩
  · rw [hf', hf]
  · rw [ht', ht]
    exact (List.foldl_append).symm
  · intro op hx
    exact (List.mem_append.mp hx).elim (ho op) (ho' op)
  · rw [hout', hout, List.append_assoc]
  · intro a hx
    exact (List.mem_append.mp hx).elim (ha a) (ha' a)

theorem setPersistence (p : Option Nat) (c : R2Chan) : c.Polled (c.setPersistence p) :=
  ⟨⟨c.casRawRead, p, rfl⟩, ⟨[], rfl, by simp⟩, [], by simp [R2Chan.setPersistence], by simp⟩

theorem timerOp (op : TimerOp) (ho : op.Checks) (c : R2Chan) : c.Polled (c.mapTimers (·.apply op)) :=
  ⟨⟨c.casRawRead, c.casPersistenceCheckSignal, rfl⟩, ⟨[op], rfl, by simpa using ho⟩, [],
    by simp [R2Chan.mapTimers], by simp⟩

theorem did {a : Act} (ha : a.Polls) (c : R2Chan) : c.Polled (c.did a) :=
  ⟨⟨c.casRawRead, c.casPersistenceCheckSignal, rfl⟩, ⟨[], rfl, by simp⟩, [a], rfl, by simpa using ha⟩

end R2Chan.Polled

section Line

variable (cx : R2Context) (env : Env) (c : R2Chan)

theorem ioGetCas_polled : c.Polled (ioGetCas env c).1 := by
  unfold ioGetCas
  cases env.getCas c.out with
  | none => exact .did (a := .getCas) trivial c
  | some raw =>
    have hr : ∀ d : R2Chan, d.Polled (d.setCasRawRead raw) := fun d =>
      ⟨⟨raw, d.casPersistenceCheckSignal, rfl⟩, ⟨[], rfl, by simp⟩, [],
        by simp [R2Chan.setCasRawRead], by simp⟩
    exact (R2Chan.Polled.did (a := .getCas) trivial c).trans (hr _)

theorem checkPersistence_polled (cas : Nat) : c.Polled (checkPersistence cx env cas c) := by
  have h := R2Chan.Polled.setPersistence (some cas) c
  unfold checkPersistence armTimer addTimer
  generalize c.setPersistence (some cas) = d at h ⊢
  cases env.gettimeofday d.out with
  | none =>
    have he : d.Polled ((d.did .gettimeofday).emit .onOsError) :=
      (R2Chan.Polled.did (a := .gettimeofday) trivial d).trans
        (.did (a := .event .onOsError) trivial _)
    exact h.trans (he.trans (.timerOp (.mark .casPersistenceCheck (-1)) ⟨rfl, by decide⟩ _))
  | some now =>
    have he : d.Polled (d.did .gettimeofday) := .did (a := .gettimeofday) trivial d
    exact h.trans (he.trans (.timerOp (.arm .casPersistenceCheck now
      cx.timers.casPersistenceCheck .persistenceCheckExpired) ⟨rfl, rfl⟩ _))

theorem pollCas_polled : c.Polled (pollCas cx env c).1 := by
  have hi := ioGetCas_polled env c
  have hx : ∀ d : R2Chan, d.Polled (d.cancelTimer .casPersistenceCheck) := fun d =>
    .timerOp (.cancel .casPersistenceCheck) rfl d
  unfold pollCas
  generalize ioGetCas env c = r at hi
  obtain ⟨d, p⟩ := r
  cases p with
  | none => exact hi
  | some raw =>
    dsimp only
    split_ifs
    · exact (hi.trans (hx d)).trans (.setPersistence none _)
    · exact hi
    · exact (hi.trans (hx d)).trans (checkPersistence_polled cx env _ _)
    · exact hi

theorem casPattern_polled : c.Polled (casPattern cx env c).1 := by
  unfold casPattern
  split
  · exact pollCas_polled cx env c
  · split_ifs
    · exact .setPersistence none c
    · exact pollCas_polled cx env c

/-- A pattern that is acted on needs no timer any more. -/
theorem casPattern_timers (h : (casPattern cx env c).2 ≠ none) :
    (casPattern cx env c).1.timers = c.timers := by
  have hp : (pollCas cx env c).2 ≠ none → (pollCas cx env c).1.timers = c.timers := by
    have ht := ioGetCas_timers env c
    unfold pollCas
    generalize ioGetCas env c = r at ht
    obtain ⟨d, p⟩ := r
    cases p with
    | none => exact absurd rfl
    | some raw =>
      dsimp only at ht ⊢
      split_ifs
      · exact absurd rfl
      · exact absurd rfl
      · exact absurd rfl
      · exact fun _ => ht
  unfold casPattern at h ⊢
  split at h
  · exact hp h
  · split_ifs at h ⊢
    · rfl
    · exact hp h

/-- A line event is acted on, or only read. -/
theorem handleCas_cases :
    (if (casPattern cx env c).1.inalarm then none else (casPattern cx env c).2) = none ∧
        c.Polled (handleCas cx env c) ∨
      ∃ cas d, (if (casPattern cx env c).1.inalarm then none else (casPattern cx env c).2) = some cas ∧
        (c.Polled d ∧ d.timers.schedTimers = c.timers.schedTimers) ∧
        handleCas cx env c = casSwitch cx env cas (d.setCasRead cas) := by
  have hp := casPattern_polled cx env c
  have ht := casPattern_timers cx env c
  unfold handleCas
  generalize casPattern cx env c = r at hp ht
  obtain ⟨d, p⟩ := r
  cases p with
  | none => exact .inl ⟨by simp, hp⟩
  | some cas =>
    dsimp only [actOnCas] at hp ⊢
    by_cases hi : d.inalarm = true
    · rw [if_pos hi, if_pos hi]
      exact .inl ⟨rfl, hp⟩
    · rw [if_neg hi, if_neg hi]
      exact .inr ⟨cas, d, rfl, ⟨hp, congrArg TimerQueue.schedTimers (ht nofun)⟩, rfl⟩

end Line

/-- The expiry of a check acts on its pattern, or only reads the line. -/
theorem persistenceCheckExpired_cases (cx : R2Context) (env : Env) (c : R2Chan) :
    ((checkEntry cx env c).bind fun d =>
          if (casPattern cx env d).1.inalarm then none else (casPattern cx env d).2) = none ∧
        c.Polled (persistenceCheckExpired cx env c) ∨
      ∃ cas d, ((checkEntry cx env c).bind fun d =>
          if (casPattern cx env d).1.inalarm then none else (casPattern cx env d).2) = some cas ∧
        (c.Polled d ∧ d.timers.schedTimers = c.timers.schedTimers) ∧
        persistenceCheckExpired cx env c = casSwitch cx env cas (d.setCasRead cas) := by
  have h0 : c.Polled (c.mapTimers (·.setSlot .casPersistenceCheck 0)) :=
    .timerOp (.mark .casPersistenceCheck 0) ⟨rfl, le_rfl⟩ c
  have hi := h0.trans (ioGetCas_polled env _)
  have ht : (ioGetCas env (c.mapTimers (·.setSlot .casPersistenceCheck 0))).1.timers.schedTimers =
      c.timers.schedTimers := by rw [ioGetCas_timers]; rfl
  unfold checkEntry persistenceCheckExpired
  generalize ioGetCas env (c.mapTimers (·.setSlot .casPersistenceCheck 0)) = r at hi ht
  obtain ⟨d, p⟩ := r
  cases p with
  | none => exact .inl ⟨rfl, hi⟩
  | some raw =>
    dsimp only at hi ⊢
    by_cases hs : d.casPersistenceCheckSignal = some (raw &&& cx.casR2Bits)
    · rw [if_pos hs, if_pos hs]
      rcases handleCas_cases cx env d with ⟨hn, hp⟩ | ⟨cas, e, hn, ⟨hp, hte⟩, he⟩
      · exact .inl ⟨hn, hi.trans hp⟩
      · exact .inr ⟨cas, e, hn, ⟨hi.trans hp, hte.trans ht⟩, he⟩
    · rw [if_neg hs, if_neg hs]
      refine .inl ⟨rfl, ?_⟩
      split_ifs
      · exact hi.trans (checkPersistence_polled cx env d _)
      · exact hi.trans (.setPersistence none d)

/-- The input is a read of the line: a poll, or the expiry of a check. -/
def Reads (i : Input) (c : R2Chan) : Prop :=
  i = .cas ∨ ∃ id, i = .timer id ∧ ∃ t ∈ c.timer? id, t.callback = .persistenceCheckExpired

/-- A read of the line goes to the switch, or only looks at it. -/
theorem step_reads {cx : R2Context} {env : Env} {i : Input} {c : R2Chan} (h : Reads i c) :
    switched cx env i c = none ∧ (c.called i).start.Polled (step cx env i c) ∨
      ∃ cas d, switched cx env i c = some cas ∧
        ((c.called i).start.Polled d ∧ d.timers.schedTimers = (c.called i).timers.schedTimers) ∧
        step cx env i c = casSwitch cx env cas (d.setCasRead cas) := by
  rcases h with rfl | ⟨id, rfl, t, ht, hcb⟩
  · exact handleCas_cases cx env c.start
  · have ht : c.timer? id = some t := ht
    have hs : c.start.timer? id = some t := ht
    have hc : (c.called (.timer id)).start = c.start.mapTimers (·.removeId id) := by
      simp only [R2Chan.called, ht, Option.isSome_some, if_true]
      rfl
    have hx : step cx env (.timer id) c =
        persistenceCheckExpired cx env (c.start.mapTimers (·.removeId id)) := by
      simp only [step, expire, hs, hcb, runTimer]
    have hw : switched cx env (.timer id) c =
        (checkEntry cx env (c.start.mapTimers (·.removeId id))).bind fun d =>
          if (casPattern cx env d).1.inalarm then none else (casPattern cx env d).2 := by
      simp only [switched, casEntry, hs, if_pos hcb]
      cases checkEntry cx env (c.start.mapTimers (·.removeId id)) <;> rfl
    rw [hx, hw, show (c.called (.timer id)).timers = (c.called (.timer id)).start.timers from rfl, hc]
    exact persistenceCheckExpired_cases cx env _

end OpenR2
