import OpenR2.Proofs.AcceptedFirst

namespace OpenR2

namespace TimerQueue

variable {q q' : TimerQueue}

theorem Kept.mem_cancelTimer_iff (h : q.Kept) {slot : TimerSlot} {t : SchedTimer} :
    t ∈ (q.cancelTimer slot).schedTimers ↔ t ∈ q.schedTimers ∧ (t.id : Int) ≠ q.timerIds slot := by
  simp only [TimerQueue.cancelTimer]
  split_ifs with h1 h2
  · refine ⟨fun ht => ⟨ht, ?_⟩, And.left⟩
    have := (h.ids t ht).1
    omega
  · exact h.mem_removeId
  · refine ⟨fun ht => ⟨ht, fun he => h2 ?_⟩, And.left⟩
    exact List.any_eq_true.mpr ⟨t, ht, by simpa using he⟩

/-- A timer that was just scheduled is the one that its slot finds, if there was room for it. -/
theorem Kept.mem_arm_iff (h : q.Kept) (slot : TimerSlot) (now : Timeval) (ms : Nat) (t : SchedTimer) :
    (t ∈ (q.apply (.arm slot now ms slot.purpose)).schedTimers ∧
      (t.id : Int) ≠ (q.apply (.arm slot now ms slot.purpose)).timerIds slot) ↔ t ∈ q.schedTimers := by
  by_cases hf : q.schedTimers.length = maxSchedTimers
  · simp only [TimerQueue.apply, addTimer_full now ms slot.purpose hf, setSlot, if_true]
    refine ⟨And.left, fun ht => ⟨ht, ?_⟩⟩
    have := (h.ids t ht).1
    omega
  · obtain ⟨hi, -, -⟩ := addTimer_id now ms slot.purpose hf
    simp only [TimerQueue.apply, setSlot, if_true, hi]
    constructor
    · rintro ⟨ht, hn⟩
      rcases mem_addTimer ht with ht | ⟨-, rfl⟩
      · exact ht
      · exact absurd rfl hn
    · intro ht
      refine ⟨?_, ?_⟩
      · simp only [TimerQueue.addTimer, if_neg hf]
        exact (List.mem_orderedInsert _).mpr (.inr ht)
      · have := (h.ids t ht).2
        omega

/-- The timers are the same but for the checks of line patterns. -/
def Restored (q q' : TimerQueue) : Prop :=
  ∀ t : SchedTimer, t.callback ≠ .persistenceCheckExpired → (t ∈ q'.schedTimers ↔ t ∈ q.schedTimers)

/-- They are the same when the timer in the metering slot is left out. -/
def Metered (q q' : TimerQueue) : Prop :=
  ∀ t : SchedTimer, t.callback ≠ .persistenceCheckExpired →
    (t ∈ q'.schedTimers ∧ (t.id : Int) ≠ q'.timerIds .r2MeteringPulse ↔ t ∈ q.schedTimers)

end TimerQueue

/-- A channel that has read the line, as far as a call notices. -/
structure R2Chan.Glanced (c d : R2Chan) : Prop where
  r2State : d.r2State = c.r2State
  callState : d.callState = c.callState
  mfState : d.mfState = c.mfState
  kept : d.timers.Kept
  timers : c.timers.Restored d.timers
  slot : d.timers.timerIds .r2MeteringPulse = c.timers.timerIds .r2MeteringPulse
  out : ∀ a ∈ d.out, a.Polls

section Metering

variable {cx : R2Context} {env : Env} {i : Input} {c d : R2Chan}

/-- Only checks come and go when the line is read. -/
theorem glanced_of_reads (hk : c.timers.Kept) (hi : Reads i c) (hp : (c.called i).start.Polled d) :
    c.Glanced d := by
  have hb : (c.called i).r2State = c.r2State ∧ (c.called i).callState = c.callState ∧
      (c.called i).mfState = c.mfState ∧ (c.called i).timers.Kept ∧ c.timers.Restored (c.called i).timers ∧
        (c.called i).timers.timerIds = c.timers.timerIds := by
    rcases hi with rfl | ⟨id, rfl, t, ht, hcb⟩
    · exact ⟨rfl, rfl, rfl, hk, fun _ _ => Iff.rfl, rfl⟩
    · have ht : c.timer? id = some t := ht
      have hm : t ∈ c.timers.schedTimers := List.mem_of_find?_eq_some ht
      have hx : t.id = id := by simpa using List.find?_some ht
      simp only [R2Chan.called, ht, Option.isSome_some, if_true]
      refine ⟨rfl, rfl, rfl, hk.removeId id, fun u hu => ?_, rfl⟩
      refine hk.mem_removeId.trans ⟨And.left, fun hv => ⟨hv, fun he => hu ?_⟩⟩
      -- another timer has another id
      have he : u.id = t.id := by omega
      rw [List.inj_on_of_nodup_map hk.distinct hv hm he]
      exact hcb
  obtain ⟨h1, h2, h3, h4, h5, h6⟩ := hb
  obtain ⟨⟨raw, p, hf⟩, ⟨ops, ht, ho⟩, as, hout, ha⟩ := hp
  obtain ⟨k1, k2, k3, k4⟩ := TimerQueue.Kept.checks (q := (c.called i).start.timers) h4 ho
  rw [← ht] at k1 k2 k3 k4
  refine ⟨?_, ?_, ?_, k1, fun t hn => ?_, ?_, ?_⟩
  · rw [hf]
    exact h1
  · rw [hf]
    exact h2
  · rw [hf]
    exact h3
  · refine Iff.trans ⟨fun hm => ?_, fun hm => k2 t hm hn⟩ (h5 t hn)
    exact (k3 t hm).resolve_right hn
  · exact (k4 .r2MeteringPulse (by decide)).trans (congrFun h6 _)
  · rw [hout]
    exact ha

/-- The events of a metered call. -/
def Act.Meters (a : Act) : Prop :=
  a = .event .onBillingPulseReceived ∨ ∃ cause, a = .event (.onCallDisconnect cause)

theorem Act.Polls.not_meters {a : Act} (h : a.Polls) : ¬ a.Meters := by
  rintro (rfl | ⟨cause, rfl⟩) <;> exact h

theorem Act.Tuning.not_meters {a : Act} (h : a.Tuning) : ¬ a.Meters := by
  rintro (rfl | ⟨cause, rfl⟩) <;> exact h

/-- Between two pulses of a call, with what it was before them. -/
structure R2Chan.Between (c : R2Chan) (r : CasState) (d : R2Chan) : Prop where
  r2State : d.r2State = r
  callState : d.callState = c.callState
  mfState : d.mfState = c.mfState
  kept : d.timers.Kept
  timers : c.timers.Restored d.timers

/-- In a pulse of a call. -/
structure R2Chan.During (c d : R2Chan) : Prop where
  r2State : d.r2State = .clearBackRxd ∨ d.r2State = .forcedReleaseRxd
  callState : d.callState = c.callState
  mfState : d.mfState = c.mfState
  kept : d.timers.Kept
  timers : c.timers.Metered d.timers

variable {e : R2Chan} {r : CasState}

theorem R2Chan.Between.glanced (h : c.Between r d) (hg : d.Glanced e) : c.Between r e :=
  ⟨hg.r2State.trans h.r2State, hg.callState.trans h.callState, hg.mfState.trans h.mfState, hg.kept,
    fun t ht => (hg.timers t ht).trans (h.timers t ht)⟩

theorem R2Chan.During.glanced (h : c.During d) (hg : d.Glanced e) : c.During e := by
  refine ⟨?_, hg.callState.trans h.callState, hg.mfState.trans h.mfState, hg.kept, fun t ht => ?_⟩
  · rw [hg.r2State]
    exact h.r2State
  · rw [hg.slot, hg.timers t ht]
    exact h.timers t ht

/-- A pulse begins: the timer of a metering pulse is scheduled, if that goes. -/
theorem R2Chan.Between.arm (h : c.Between r d) (ms : Nat)
    (hs : e.r2State = .clearBackRxd ∨ e.r2State = .forcedReleaseRxd) (hc : e.callState = d.callState)
    (hm : e.mfState = d.mfState) (ht : e.timers = d.timers) :
    c.During (armTimer env .r2MeteringPulse ms .r2MeteringPulse e) := by
  have hk : e.timers.Kept := ht ▸ h.kept
  obtain ⟨q, w, hf⟩ := (R2Chan.Tuned.armTimer env .r2MeteringPulse ms .r2MeteringPulse e).frame
  refine ⟨?_, ?_, ?_, @armTimer_kept env e .r2MeteringPulse ms hk, fun t hn => ?_⟩
  · rw [hf]
    exact hs
  · rw [hf]
    exact hc.trans h.callState
  · rw [hf]
    exact hm.trans h.mfState
  · refine Iff.trans ?_ (h.timers t hn)
    rw [← ht]
    unfold armTimer addTimer
    cases env.gettimeofday e.out with
    | none =>
      refine ⟨And.left, fun hx => ⟨hx, ?_⟩⟩
      have hi := (hk.ids t hx).1
      change (t.id : Int) ≠ -1
      omega
    | some now => exact hk.mem_arm_iff .r2MeteringPulse now ms t

/-- A pulse ends: its timer is cancelled. -/
theorem R2Chan.During.cancel (h : c.During d) (hr : e.r2State = r) (hc : e.callState = d.callState)
    (hm : e.mfState = d.mfState) (ht : e.timers = d.timers.cancelTimer .r2MeteringPulse) : c.Between r e := by
  refine ⟨hr, hc.trans h.callState, hm.trans h.mfState, ?_, fun t hn => ?_⟩
  · rw [ht]
    exact h.kept.cancelTimer _
  · rw [ht]
    exact h.kept.mem_cancelTimer_iff.trans (h.timers t hn)

/-- The signals that begin a pulse. -/
def CasSignal.Pulses (s : CasSignal) : Prop := s = .clearBack ∨ s = .forcedRelease

theorem casSwitch_pulse (hs : cx.casSignals = standardCasSignals) (hm : cx.timers.r2MeteringPulse ≠ 0)
    {s : CasSignal} (hp : s.Pulses) (hd : d.r2State = .answerRxd ∨ d.r2State = .answerRxdMfPending) :
    ∃ r, (r = .clearBackRxd ∨ r = .forcedReleaseRxd) ∧ casSwitch cx env (cx.casSignals s) d =
      armTimer env .r2MeteringPulse cx.timers.r2MeteringPulse .r2MeteringPulse ((d.logRx s).setR2State r) := by
  have hx : casSwitch cx env (cx.casSignals s) d = casAnswerRxd cx env (cx.casSignals s) d := by
    rcases hd with hd | hd <;> simp only [casSwitch, hd]
  rw [hx]
  rcases hp with rfl | rfl
  · refine ⟨.clearBackRxd, .inl rfl, ?_⟩
    rw [casAnswerRxd, if_pos rfl, releaseOrPulse, if_pos hm]
  · refine ⟨.forcedReleaseRxd, .inr rfl, ?_⟩
    have h1 : cx.casSignals .forcedRelease ≠ cx.casSignals .clearBack := by rw [hs]; decide
    have h2 : cx.casSignals .forcedRelease ≠ cx.casSignals .clearForward := by rw [hs]; decide
    rw [casAnswerRxd, if_neg h1, if_neg fun h => h2 h.2, if_pos rfl, releaseOrPulse, if_pos hm]

theorem casSwitch_answer (hm : cx.timers.r2MeteringPulse ≠ 0)
    (hd : d.r2State = .clearBackRxd ∨ d.r2State = .forcedReleaseRxd) :
    casSwitch cx env (cx.casSignals .answer) d =
      (((d.logRx .answer).cancelTimer .r2MeteringPulse).setR2State .answerRxd).emit .onBillingPulseReceived := by
  have hx : casSwitch cx env (cx.casSignals .answer) d = casReleaseRxd cx env (cx.casSignals .answer) d := by
    rcases hd with hd | hd <;> simp only [casSwitch, hd]
  rw [hx, casReleaseRxd, if_pos ⟨hm, rfl⟩]

end Metering

/-- The patterns that the switch of `openr2_proto_handle_cas` acts on in a run. -/
def actedOn (cx : R2Context) : List MediaTick → MediaChan → List Nat
  | [], _ => []
  | t :: ts, m => (t.input.line?.bind fun i => switched cx t.env i m.chan).toList ++
      actedOn cx ts (mediaStep cx t.env t.input m)

/-- Nothing happens but that the line is read. -/
def ReadsLine (m : MediaChan) (t : MediaTick) : Prop := ∃ i, t.input.line? = some i ∧ Reads i m.chan

/-- The patterns of pulses that begin with these signals. -/
def pulses (cx : R2Context) (ss : List CasSignal) : List Nat :=
  ss.flatMap fun s => [cx.casSignals s, cx.casSignals .answer]

/-- What the pulses leave: a channel between two pulses, and what was done meanwhile. -/
structure Billed (c : R2Chan) (r : CasState) (n : Nat) (x : MediaChan × List Act) : Prop where
  between : c.Between r x.1.chan
  billed : x.2.count (.event .onBillingPulseReceived) = n
  connected : ∀ cause, .event (.onCallDisconnect cause) ∉ x.2

section Pulses

variable {cx : R2Context} {c : R2Chan} {m : MediaChan} {r : CasState} {n : Nat} {as bs : List Act}

theorem Billed.quiet (h : Billed c r n (m, bs)) (ha : ∀ a ∈ as, ¬ a.Meters) : Billed c r n (m, as ++ bs) := by
  refine ⟨h.between, ?_, fun cause hm => ?_⟩
  · have hz : as.count (.event .onBillingPulseReceived) = 0 := List.count_eq_zero.mpr fun hm => ha _ hm (.inl rfl)
    rw [List.count_append, hz, Nat.zero_add]
    exact h.billed
  · exact (List.mem_append.mp hm).elim (fun hm => ha _ hm (.inr ⟨cause, rfl⟩)) (h.connected cause)

theorem Billed.pulse (h : Billed c r n (m, bs)) : Billed c r (n + 1) (m, .event .onBillingPulseReceived :: bs) := by
  refine ⟨h.between, ?_, fun cause hm => ?_⟩
  · rw [List.count_cons_self]
    exact congrArg (· + 1) h.billed
  · rcases List.mem_cons.mp hm with hm | hm
    · exact nomatch hm
    · exact h.connected cause hm

theorem mediaStep_line {t : MediaTick} {i : Input} (hi : t.input.line? = some i) :
    (mediaStep cx t.env t.input m).chan = step cx t.env i m.chan := by
  obtain ⟨env, j⟩ := t
  cases j with
  | cas => obtain rfl := Option.some.inj hi; rfl
  | timer id => obtain rfl := Option.some.inj hi; rfl
  | _ => exact nomatch hi

/-- A read of the line in a run goes to the switch, or only looks at it. -/
theorem mediaStep_reads {t : MediaTick} {i : Input} (hi : t.input.line? = some i) (hr : Reads i m.chan)
    (hk : m.chan.timers.Kept) :
    switched cx t.env i m.chan = none ∧ m.chan.Glanced (mediaStep cx t.env t.input m).chan ∨
      ∃ cas e, switched cx t.env i m.chan = some cas ∧ m.chan.Glanced e ∧
        (mediaStep cx t.env t.input m).chan = casSwitch cx t.env cas e := by
  rw [mediaStep_line hi]
  rcases @step_reads cx t.env _ _ hr with ⟨hn, hp⟩ | ⟨cas, e, hn, ⟨hp, -⟩, he⟩
  · exact .inl ⟨hn, glanced_of_reads hk hr hp⟩
  · obtain ⟨h1, h2, h3, h4, h5, h6, h7⟩ := glanced_of_reads hk hr hp
    exact .inr ⟨cas, e.setCasRead cas, hn, ⟨h1, h2, h3, h4, h5, h6, h7⟩, he⟩

theorem actedOn_cons {t : MediaTick} {i : Input} (hi : t.input.line? = some i) (ts : List MediaTick) :
    actedOn cx (t :: ts) m =
      (switched cx t.env i m.chan).toList ++ actedOn cx ts (mediaStep cx t.env t.input m) := by
  rw [actedOn, hi]
  rfl

theorem R2Chan.Between.pulse {env : Env} {d e : R2Chan} (h : c.Between r d)
    (hs : cx.casSignals = standardCasSignals) (hm : cx.timers.r2MeteringPulse ≠ 0) {s : CasSignal}
    (hp : s.Pulses) (hr : r = .answerRxd ∨ r = .answerRxdMfPending) (hg : d.Glanced e) :
    c.During (casSwitch cx env (cx.casSignals s) e) ∧
      ∀ a ∈ (casSwitch cx env (cx.casSignals s) e).out, ¬ a.Meters := by
  have hb := h.glanced hg
  have hr : e.r2State = .answerRxd ∨ e.r2State = .answerRxdMfPending := by rwa [hb.r2State]
  obtain ⟨q, hq, hx⟩ := @casSwitch_pulse cx env e hs hm s hp hr
  rw [hx]
  refine ⟨hb.arm _ hq rfl rfl rfl, ?_⟩
  obtain ⟨-, as, ho, ha⟩ := R2Chan.Tuned.armTimer env .r2MeteringPulse cx.timers.r2MeteringPulse
    .r2MeteringPulse ((e.logRx s).setR2State q)
  rw [ho]
  exact fun a hm => (List.mem_append.mp hm).elim (fun hm => (hg.out a hm).not_meters) fun hm => (ha a hm).not_meters

/-- The pulses of a run, from a moment between two of them or from one in a pulse. -/
theorem mediaRun_pulses (hs : cx.casSignals = standardCasSignals) (hm : cx.timers.r2MeteringPulse ≠ 0)
    (ts : List MediaTick) (m : MediaChan) (ht : Runs.Along (mediaTick cx) ReadsLine ts m) (ss : List CasSignal)
    (hss : ∀ s ∈ ss, s.Pulses) :
    (r = .answerRxd ∨ r = .answerRxdMfPending → c.Between r m.chan → actedOn cx ts m = pulses cx ss →
      Billed c (if ss = [] then r else .answerRxd) ss.length (mediaRun cx ts m)) ∧
    (c.During m.chan → actedOn cx ts m = cx.casSignals .answer :: pulses cx ss →
      Billed c .answerRxd (ss.length + 1) (mediaRun cx ts m)) := by
  induction ts generalizing m r ss with
  | nil =>
    refine ⟨fun _ hb ha => ?_, fun _ ha => nomatch ha⟩
    cases ss with
    | nil => exact ⟨hb, rfl, fun _ => List.not_mem_nil⟩
    | cons s ss => exact nomatch ha
  | cons t ts ih =>
    obtain ⟨⟨i, hi, hr⟩, ht⟩ := ht
    rw [actedOn_cons hi]
    constructor
    · intro hst hb ha
      rcases @mediaStep_reads cx m t i hi hr hb.kept with ⟨hn, hg⟩ | ⟨cas, e, hn, hg, he⟩
      · rw [hn] at ha
        exact ((ih _ ht ss hss).1 hst (hb.glanced hg) ha).quiet fun a hx => (hg.out a hx).not_meters
      · rw [hn] at ha
        cases ss with
        | nil => exact nomatch ha
        | cons s ss =>
          -- the first pattern begins a pulse, and the rest is one that has begun
          obtain ⟨rfl, hz⟩ := List.cons.inj ha
          obtain ⟨hd, ho⟩ := @R2Chan.Between.pulse cx c r t.env m.chan e hb hs hm s (hss s List.mem_cons_self) hst hg
          rw [← he] at hd ho
          exact ((@ih r _ ht ss fun s hx => hss s (List.mem_cons_of_mem _ hx)).2 hd hz).quiet ho
    · intro hd ha
      rcases @mediaStep_reads cx m t i hi hr hd.kept with ⟨hn, hg⟩ | ⟨cas, e, hn, hg, he⟩
      · rw [hn] at ha
        exact ((@ih r _ ht ss hss).2 (hd.glanced hg) ha).quiet fun a hx => (hg.out a hx).not_meters
      · rw [hn] at ha
        obtain ⟨rfl, hz⟩ := List.cons.inj ha
        have hd := hd.glanced hg
        rw [casSwitch_answer hm hd.r2State] at he
        have hb : c.Between .answerRxd (mediaStep cx t.env t.input m).chan := by
          rw [he]
          exact hd.cancel rfl rfl rfl rfl
        have ho : (mediaStep cx t.env t.input m).chan.out = e.out ++ [.event .onBillingPulseReceived] := by
          rw [he]
          rfl
        have hx := (ih (r := .answerRxd) _ ht ss hss).1 (.inl rfl) hb hz
        rw [ite_self] at hx
        have hy := hx.pulse.quiet fun a ha => (hg.out a ha).not_meters
        change Billed c .answerRxd _ (_, (mediaStep cx t.env t.input m).chan.out ++ _)
        rw [ho, List.append_assoc]
        exact hy

end Pulses

/-- The pulses have left the call as it was, and each was billed. -/
structure Transparent (cx : R2Context) (ts : List MediaTick) (m : MediaChan) (n : Nat) : Prop where
  r2State : (mediaRun cx ts m).1.chan.r2State = m.chan.r2State
  callState : (mediaRun cx ts m).1.chan.callState = m.chan.callState
  mfState : (mediaRun cx ts m).1.chan.mfState = m.chan.mfState
  timers : m.chan.timers.Restored (mediaRun cx ts m).1.chan.timers
  billed : (mediaRun cx ts m).2.count (.event .onBillingPulseReceived) = n
  connected : ∀ cause, .event (.onCallDisconnect cause) ∉ (mediaRun cx ts m).2

/-- In every call that has been answered, on whatever channel and after whatever history, the
pulses are transparent just where the acceptance of the call is not still to come. -/
theorem pulses_transparent_iff (cx : R2Context) (hs : cx.casSignals = standardCasSignals)
    (hm : cx.timers.r2MeteringPulse ≠ 0) (pre ts : List MediaTick) (ss : List CasSignal)
    (hr : (mediaRun cx pre .new).1.chan.r2State = .answerRxd ∨
      (mediaRun cx pre .new).1.chan.r2State = .answerRxdMfPending)
    (hss : ∀ s ∈ ss, s.Pulses) (ht : Runs.Along (mediaTick cx) ReadsLine ts (mediaRun cx pre .new).1)
    (ha : actedOn cx ts (mediaRun cx pre .new).1 = pulses cx ss) :
    Transparent cx ts (mediaRun cx pre .new).1 ss.length ↔
      ss = [] ∨ (mediaRun cx pre .new).1.chan.r2State = .answerRxd := by
  obtain ⟨-, hk⟩ := @mediaRun_kept cx pre
  generalize (mediaRun cx pre .new).1 = m at hr ht ha hk ⊢
  have hb : m.chan.Between m.chan.r2State m.chan := ⟨rfl, rfl, rfl, hk, fun _ _ => Iff.rfl⟩
  obtain ⟨⟨h1, h2, h3, -, h4⟩, h5, h6⟩ := (mediaRun_pulses hs hm ts m ht ss hss).1 hr hb ha
  constructor
  · intro h
    by_cases hn : ss = []
    · exact .inl hn
    · rw [if_neg hn] at h1
      exact .inr (h.r2State.symm.trans h1)
  · intro h
    refine ⟨h1.trans ?_, h2, h3, h4, h5, h6⟩
    rcases h with h | h
    · rw [if_pos h]
    · rw [h, ite_self]

/-- Argentina has metering pulses. -/
def meteredCx : R2Context := r2configArgentina (configureItu 10 10 R2Context.zero)

/-- An outgoing call up to the acknowledgement of its seize. -/
def meteredDialled : List MediaTick := [⟨Env.fair 0x9, .cas⟩,
  ⟨Env.fair 0x9, .api (.makeCall none [Tone.t5] .nationalSubscriber false)⟩, ⟨Env.fair 0xD, .cas⟩]

/-- It is accepted and answered. -/
def meteredAnswered : List MediaTick := meteredDialled ++
  [⟨Env.fair 0xD, .read ⟨some Tone.t6, [], false⟩⟩, ⟨Env.fair 0xD, .read ⟨some 0, [], false⟩⟩,
   ⟨Env.fair 0x5, .cas⟩]

/-- Two pulses, one with a clear back and one with a forced release. -/
def twoPulses : List MediaTick :=
  [⟨Env.fair 0xD, .cas⟩, ⟨Env.fair 0x5, .cas⟩, ⟨Env.fair 0x1, .cas⟩, ⟨Env.fair 0x5, .cas⟩]

theorem pulses_transparent_two :
    Transparent meteredCx twoPulses (mediaRun meteredCx meteredAnswered .new).1 2 ↔
      [CasSignal.clearBack, .forcedRelease] = [] ∨
        (mediaRun meteredCx meteredAnswered .new).1.chan.r2State = .answerRxd :=
  pulses_transparent_iff meteredCx rfl (by decide) meteredAnswered twoPulses [.clearBack, .forcedRelease]
    (.inl (by decide +kernel)) (by simp [CasSignal.Pulses])
    ⟨⟨.cas, rfl, .inl rfl⟩, ⟨.cas, rfl, .inl rfl⟩, ⟨.cas, rfl, .inl rfl⟩, ⟨.cas, rfl, .inl rfl⟩, trivial⟩
    (by decide +kernel)

/-- A pulse before the accept tone has ended takes the call for accepted. -/
theorem pulse_forgets_pending :
    ¬ ∀ (cx : R2Context) (pre ts : List MediaTick) (ss : List CasSignal),
      cx.casSignals = standardCasSignals → cx.timers.r2MeteringPulse ≠ 0 →
      ((mediaRun cx pre .new).1.chan.r2State = .answerRxd ∨
        (mediaRun cx pre .new).1.chan.r2State = .answerRxdMfPending) →
      (∀ s ∈ ss, s.Pulses) → Runs.Along (mediaTick cx) ReadsLine ts (mediaRun cx pre .new).1 →
      actedOn cx ts (mediaRun cx pre .new).1 = pulses cx ss →
      Transparent cx ts (mediaRun cx pre .new).1 ss.length := by
  intro h
  have hx := h meteredCx (meteredDialled ++ [⟨Env.fair 0x5, .cas⟩]) [⟨Env.fair 0xD, .cas⟩, ⟨Env.fair 0x5, .cas⟩]
    [.clearBack] rfl (by decide) (.inr (by decide +kernel)) (by simp [CasSignal.Pulses])
    ⟨⟨.cas, rfl, .inl rfl⟩, ⟨.cas, rfl, .inl rfl⟩, trivial⟩ (by decide +kernel)
  exact absurd hx.r2State (by decide +kernel)

end OpenR2
