import OpenR2.Proofs.TimerMoves
import OpenR2.Proofs.Posts

namespace OpenR2

namespace Pass

variable {beh : Behaviour} {p : Pass}

/-- The timers called in a log, in order. -/
def called (log : List Moment) : List SchedTimer :=
  log.filterMap fun m => match m with
    | .fired t => some t
    | _ => none

theorem called_perform (p : Pass) (op : TimerOp) : called (p.perform op).log = called p.log := by
  cases op <;> simp [perform, moments, called, List.filterMap_append]

theorem called_performAll (ops : List TimerOp) (p : Pass) :
    called (ops.foldl perform p).log = called p.log := by
  induction ops generalizing p with
  | nil => rfl
  | cons op ops ih => rw [List.foldl_cons, ih, called_perform]

theorem queue_performAll (ops : List TimerOp) (p : Pass) :
    (ops.foldl perform p).queue = p.queue.applyAll ops := by
  induction ops generalizing p with
  | nil => rfl
  | cons op ops ih => exact ih (p.perform op)

theorem called_fireAll (beh : Behaviour) (ts : List SchedTimer) (p : Pass) :
    called (fireAll beh ts p).log = called p.log ++ ts := by
  induction ts generalizing beh p with
  | nil => simp [fireAll]
  | cons t ts ih =>
    rw [fireAll, ih, called_performAll]
    simp [called, List.filterMap_append]

/-- Whatever the callbacks do, those of the due timers are called, each once and in order. -/
theorem called_run (beh : Behaviour) (now : Timeval) (q : TimerQueue) :
    called (run beh now q).log = q.due now :=
  called_fireAll beh _ _

/-- What is called first was not cancelled before. -/
theorem fair_single (beh : Behaviour) (t : SchedTimer) (q : TimerQueue) :
    (fireAll beh [t] ⟨q, []⟩).Fair := by
  intro pre u post h
  have hc : called (fireAll beh [t] ⟨q, []⟩).log = [t] := called_fireAll beh [t] ⟨q, []⟩
  have hl : ∃ l, (fireAll beh [t] ⟨q, []⟩).log = .fired t :: l := by
    have ho : ∀ (ops : List TimerOp) (p : Pass) (l : List Moment), p.log = .fired t :: l →
        ∃ l', (ops.foldl perform p).log = .fired t :: l' := by
      intro ops
      induction ops with
      | nil => exact fun p l hp => ⟨l, hp⟩
      | cons op ops ih => exact fun p l hp => ih _ (l ++ moments p.queue op) (by simp [perform, hp])
    exact ho (beh 0) _ [] rfl
  obtain ⟨l, hl⟩ := hl
  cases pre with
  | nil => simp
  | cons m pre =>
    rw [hl] at h hc
    obtain ⟨rfl, rfl⟩ := List.cons.inj h
    simp [called, List.filterMap_append] at hc

/-- The callbacks of which the first cancels all timers. -/
def clearing : Behaviour
  | 0 => [.cancelAll]
  | _ => []

theorem clearing_unfair (t u : SchedTimer) (ts : List SchedTimer) (q : TimerQueue) :
    ¬ (fireAll clearing (t :: u :: ts) ⟨q, []⟩).Fair := by
  have hl : ∀ (ts : List SchedTimer) (p : Pass),
      ∃ l, (fireAll (fun _ => []) ts p).log = p.log ++ l := by
    intro ts
    induction ts with
    | nil => exact fun p => ⟨[], (List.append_nil _).symm⟩
    | cons t ts ih =>
      intro p
      obtain ⟨l, hl⟩ := ih { p with log := p.log ++ [.fired t] }
      exact ⟨.fired t :: l, by simpa [fireAll] using hl⟩
  intro hf
  obtain ⟨l, hl⟩ := hl ts ⟨TimerQueue.cancelAllTimers, [.fired t, .cancelledAll, .fired u]⟩
  refine (hf [.fired t, .cancelledAll] u l ?_).1 (by simp)
  exact hl

/-- A pass of `openr2_chan_handle_timers` never calls a cancelled timer, whatever its
callbacks do, if and only if no two timers are due in it. -/
theorem cancelled_never_fires_iff (q : TimerQueue) (now : Timeval) :
    (∀ beh, (run beh now q).Fair) ↔ (q.due now).length ≤ 1 := by
  unfold run
  generalize q.due now = ts
  generalize q.withdraw ts = w
  constructor
  · intro h
    match ts with
    | [] | [_] => simp
    | t :: u :: ts => exact absurd (h clearing) (clearing_unfair t u ts w)
  · intro h beh
    match ts with
    | [] => exact fun pre t post he => by simp [fireAll] at he
    | [t] => exact fair_single beh t w
    | _ :: _ :: _ => simp at h

end Pass

section Channel

variable (cx : R2Context) (env : Env)

/-- The callbacks of the channel are callbacks of some behaviour. -/
theorem dispatchTimers_fireAll (ts : List SchedTimer) (c : R2Chan) (log : List Moment) :
    ∃ beh, (Pass.fireAll beh ts ⟨c.timers, log⟩).queue = (dispatchTimers cx env ts c).timers := by
  induction ts generalizing c log with
  | nil => exact ⟨fun _ => [], rfl⟩
  | cons t ts ih =>
    obtain ⟨l, ⟨ops, hq, -⟩, -⟩ := runTimer_schedules cx env c t.callback
    have hp := Pass.queue_performAll ops ⟨c.timers, log ++ [.fired t]⟩
    obtain ⟨beh, hb⟩ := ih (runTimer cx env t.callback c)
      (ops.foldl Pass.perform ⟨c.timers, log ++ [.fired t]⟩).log
    refine ⟨fun i => i.casesOn ops beh, ?_⟩
    rw [hq, ← hp] at hb
    exact hb

theorem handleTimers_run {now : Timeval} {c : R2Chan} (h : env.gettimeofday c.out = some now) :
    ∃ beh, (handleTimers cx env c).1.timers = (Pass.run beh now c.timers).queue := by
  obtain ⟨beh, hb⟩ := dispatchTimers_fireAll cx env (c.timers.due now)
    ((c.did .gettimeofday).mapTimers (·.withdraw (c.timers.due now))) []
  exact ⟨beh, by simp only [handleTimers, h]; exact hb.symm⟩

end Channel

/-- All goes well, at this time. -/
def Env.clock (sec : Int) (bits : Nat) : Env :=
  { Env.fair bits with gettimeofday := fun _ => some ⟨sec, 0⟩ }

/-- A caller whose call is accepted, and who gives up shortly before the answer would be late. -/
def lateCaller : R2Chan :=
  (run briefCx [⟨Env.clock 56 0xD, .api (.disconnectCall .normalClearing)⟩] (briefCaller 5)).1.start

/-- The timers run late: the call is taken down, which cancels all timers, and then the
cancelled timer of the answer hangs up on a channel at rest. -/
theorem cancelled_timer_fires :
    (lateCaller.timers.due ⟨62, 0⟩).map SchedTimer.callback =
        [.r2SetCallDown, .r2AnswerTimeoutExpired] ∧
      ¬ (Pass.run Pass.clearing ⟨62, 0⟩ lateCaller.timers).Fair ∧
      (r2SetCallDown briefCx (Env.clock 62 0xD) lateCaller).timers.schedTimers = [] ∧
      (handleTimers briefCx (Env.clock 62 0xD) lateCaller).1.events =
        [.onCallEnd, .onCallDisconnect .noAnswer] ∧
      (handleTimers briefCx (Env.clock 62 0xD) lateCaller).1.callState = .disconnected := by
  have hd : lateCaller.timers.due ⟨62, 0⟩ =
      [⟨⟨59, 0⟩, .r2SetCallDown, 4⟩, ⟨⟨60, 0⟩, .r2AnswerTimeoutExpired, 3⟩] := by decide
  refine ⟨by rw [hd]; rfl, ?_, by decide, by decide, by decide⟩
  unfold Pass.run
  rw [hd]
  exact Pass.clearing_unfair _ _ _ _

end OpenR2
