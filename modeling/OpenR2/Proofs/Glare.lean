import OpenR2.Proofs.Posts

namespace OpenR2

open Link

def Event.IsDisconnect : Event → Bool
  | .onCallDisconnect _ => true
  | _ => false

/-- The timers of a call in glare, and what keeps them so: the MF engine is off, and the
only slot that matters is that of the seize timer. -/
structure R2Chan.Timed (c : R2Chan) (cbs : List TimerCallback) : Prop where
  pending : c.pending = cbs
  mf : c.mfState = .offState
  check : c.timers.timerIds .casPersistenceCheck = 0
  seize : ∀ t ∈ c.timers.schedTimers, t.callback = .seizeTimeoutExpired →
    c.timers.timerIds .r2Seize = t.id ∧ 1 ≤ t.id

section Timers

variable {cx : R2Context} {env : Env} {c d : R2Chan} {cbs : List TimerCallback}

/-- The same timers in another state of the call. -/
theorem R2Chan.Timed.of_eq (h : c.Timed cbs) (ht : d.timers = c.timers) (hm : d.mfState = c.mfState) :
    d.Timed cbs :=
  ⟨by rw [R2Chan.pending, ht]; exact h.pending, hm.trans h.mf, by rw [ht]; exact h.check,
    by rw [ht]; exact h.seize⟩

theorem R2Chan.Timed.start (h : c.Timed cbs) : c.start.Timed cbs := h.of_eq rfl rfl

theorem R2Chan.Timed.seen (h : c.Timed cbs) (bits cas : Nat) : (c.seen bits cas).Timed cbs :=
  h.of_eq rfl rfl

theorem R2Chan.Timed.queue (h : c.Timed []) : c.timers.schedTimers = [] :=
  List.map_eq_nil_iff.mp h.pending

theorem R2Chan.Timed.not_seize (h : c.Timed cbs) (hn : .seizeTimeoutExpired ∉ cbs) :
    ∀ t ∈ c.timers.schedTimers, t.callback ≠ .seizeTimeoutExpired := fun _ ht hc =>
  hn (h.pending ▸ hc ▸ List.mem_map_of_mem ht)

theorem turnOffMfEngine_off (h : c.mfState = .offState) : turnOffMfEngine cx c = c := by
  simp [turnOffMfEngine, h]

theorem setCasSignal_timers (sig : CasSignal) (c : R2Chan) :
    (setCasSignal cx env sig c).1.timers = c.timers ∧
      (setCasSignal cx env sig c).1.mfState = c.mfState := by
  simp only [setCasSignal]
  split_ifs <;> exact ⟨rfl, rfl⟩

/-- A reset leaves no timer. -/
theorem reportCallEnd_timed (cx : R2Context) (env : Env) (c : R2Chan) :
    (reportCallEnd cx env c).Timed [] := by
  have hf : ∀ d : R2Chan, (fixRxSignal cx d).timers = d.timers ∧
      (fixRxSignal cx d).mfState = d.mfState := by
    intro d
    simp only [fixRxSignal]
    split_ifs <;> exact ⟨rfl, rfl⟩
  have hd : ∀ d : R2Chan, (disposeMf cx d).timers = d.timers := by
    intro d
    simp only [disposeMf]
    split_ifs <;> rfl
  have ho : (turnOffMfEngine cx (clearNumbers c)).timers = TimerQueue.cancelAllTimers ∧
      (turnOffMfEngine cx (clearNumbers c)).mfState = .offState := by
    simp only [turnOffMfEngine]
    split_ifs with hm
    · exact ⟨rfl, hm⟩
    · exact ⟨hd (((clearNumbers c).cancelTimer .mfBackCycle).setDtmf false false), rfl⟩
  have hi : (protoInit cx c).timers = TimerQueue.cancelAllTimers ∧
      (protoInit cx c).mfState = .offState := by
    obtain ⟨h1, h2⟩ := hf (clearCall (turnOffMfEngine cx (clearNumbers c)))
    exact ⟨h1.trans ho.1, h2.trans ho.2⟩
  obtain ⟨h1, h2⟩ : (setIdle cx env c).1.timers = _ ∧ _ := setCasSignal_timers .idle (protoInit cx c)
  have ht : (reportCallEnd cx env c).timers = TimerQueue.cancelAllTimers := h1.trans hi.1
  exact ⟨by rw [R2Chan.pending, ht]; rfl, h2.trans hi.2, by rw [ht]; rfl, by
    rw [ht]; simp [TimerQueue.cancelAllTimers]⟩

/-- The first timer is alone in the queue. -/
theorem addTimer_timed (he : env.Sound) (ms : Nat) {cb : TimerCallback}
    (hcb : cb ≠ .seizeTimeoutExpired) (h : c.Timed []) : (addTimer env ms cb c).1.Timed [cb] := by
  obtain ⟨now, hn⟩ := Option.isSome_iff_exists.mp (he.clock c.out)
  have hq := h.queue
  have ht : (addTimer env ms cb c).1.timers = (c.timers.addTimer now ms cb).1 := by
    simp only [addTimer, hn]
    rfl
  have hs : (c.timers.addTimer now ms cb).1 =
      { c.timers with
        schedTimers := [⟨now.after ms, cb, c.timers.timerId + 1⟩]
        timerId := c.timers.timerId + 1 } := by
    simp [TimerQueue.addTimer, hq, maxSchedTimers]
  have hm : (addTimer env ms cb c).1.mfState = c.mfState := by
    simp only [addTimer, hn]
    rfl
  refine ⟨by rw [R2Chan.pending, ht, hs]; rfl, hm.trans h.mf, by rw [ht, hs]; exact h.check, ?_⟩
  rw [ht, hs]
  intro t hx hc
  rw [List.mem_singleton.mp hx] at hc
  exact absurd hc hcb

/-- The only timer leaves the queue. -/
theorem R2Chan.Timed.removeId {cb : TimerCallback} (h : c.Timed [cb]) {t : SchedTimer}
    (ht : t ∈ c.timers.schedTimers) :
    c.timer? t.id = some t ∧ t.callback = cb ∧ (c.mapTimers (·.removeId t.id)).Timed [] := by
  have hp : c.timers.schedTimers.map SchedTimer.callback = [cb] := h.pending
  obtain ⟨u, hu, rfl⟩ := List.map_eq_singleton_iff.mp hp
  rw [hu] at ht
  obtain rfl := List.mem_singleton.mp ht
  refine ⟨by simp [R2Chan.timer?, hu], rfl, ?_, h.mf, h.check, ?_⟩
  · simp [R2Chan.pending, R2Chan.mapTimers, TimerQueue.pending, TimerQueue.removeId, hu]
  · simp [R2Chan.mapTimers, TimerQueue.removeId, hu]

/-- The seize timer is cancelled through its slot. -/
theorem R2Chan.Timed.cancelSeize (h : c.Timed [.seizeTimeoutExpired]) :
    (c.cancelTimer .r2Seize).Timed [] := by
  have hp : c.timers.schedTimers.map SchedTimer.callback = [.seizeTimeoutExpired] := h.pending
  obtain ⟨u, hu, hcb⟩ := List.map_eq_singleton_iff.mp hp
  obtain ⟨hs, hi⟩ := h.seize u (by rw [hu]; exact List.mem_singleton.mpr rfl) hcb
  have ht : c.timers.cancelTimer .r2Seize = (c.timers.removeId u.id).setSlot .r2Seize 0 := by
    have hlt : ¬ ((u.id : Int) < 1) := by omega
    simp [TimerQueue.cancelTimer, hs, hlt, hu]
  refine ⟨?_, h.mf, ?_, ?_⟩
  · simp [R2Chan.pending, R2Chan.cancelTimer, R2Chan.mapTimers, ht, TimerQueue.pending,
      TimerQueue.setSlot, TimerQueue.removeId, hu]
  · simp [R2Chan.cancelTimer, R2Chan.mapTimers, ht, TimerQueue.setSlot, TimerQueue.removeId, h.check]
  · simp [R2Chan.cancelTimer, R2Chan.mapTimers, ht, TimerQueue.setSlot, TimerQueue.removeId, hu]

end Timers

section Steps

variable {cx : R2Context} {env : Env} {c : R2Chan} {cbs : List TimerCallback}

/-- The line shows what it showed before, and no check of a pattern waits. -/
theorem handleCas_old_timed {bits : Nat} (hg : ∀ h, env.getCas h = some bits)
    (hk : c.casPersistenceCheckSignal = none) (hr : c.casRead = bits &&& cx.casR2Bits)
    (h : c.Timed cbs) : (handleCas cx env c).Timed cbs := by
  have hr : ((c.did .getCas).setCasRawRead bits).casRead = bits &&& cx.casR2Bits := hr
  have hz : ¬ ((c.did .getCas).setCasRawRead bits).timers.timerIds .casPersistenceCheck ≠ 0 :=
    not_not.mpr h.check
  simp only [handleCas, casPattern, hk, pollCas, ioGetCas, hg, if_pos hr, if_neg hz]
  exact h.of_eq rfl rfl

theorem sendClearForward_timed (he : env.Sound) (h : c.Timed []) :
    (sendClearForward cx env c).1.Timed [.r2SetCallDown] := by
  have ha := addTimer_timed he cx.timers.r2SetCallDown
    (show TimerCallback.r2SetCallDown ≠ .seizeTimeoutExpired by decide) h
  have hs := ha.of_eq (d := (addTimer env cx.timers.r2SetCallDown .r2SetCallDown c).1.setR2State
    .clearFwdTxd) rfl rfl
  obtain ⟨ht, hm⟩ := @setCasSignal_timers cx env .clearForward
    ((addTimer env cx.timers.r2SetCallDown .r2SetCallDown c).1.setR2State .clearFwdTxd)
  rw [sendClearForward, turnOffMfEngine_off hs.mf]
  exact hs.of_eq ht hm

/-- The seize of the other end takes the seize timer out of the queue. -/
theorem casSwitch_seize_timed (hp : cx.Plain) (hr : c.r2State = .seizeTxd)
    (h : c.Timed [.seizeTimeoutExpired]) : (casSwitch cx env (standardCasSignals .seize) c).Timed [] := by
  simp only [casSwitch, hr, casSeizeTxd, hp.signals, standardCasSignals]
  exact (R2Chan.Timed.cancelSeize (h.of_eq (d := (c.logRx .seize).setR2State .doubleSeizure) rfl rfl)).of_eq
    rfl rfl

/-- An idle pattern leaves a side in glare without timers. -/
theorem casSwitch_idle_timed (hp : cx.Plain) (h : c.Timed cbs)
    (hr : (c.r2State = .doubleSeizure ∨ c.r2State = .idle) ∧ cbs = [] ∨
      c.r2State = .doubleSeizureClearFwdPending ∨ c.r2State = .clearFwdTxd) :
    (casSwitch cx env (standardCasSignals .idle) c).Timed [] := by
  rcases hr with ⟨hr | hr, rfl⟩ | hr | hr
  · simp only [casSwitch, hr, casDoubleSeizure, hp.signals, standardCasSignals, if_true]
    exact h.of_eq rfl rfl
  · simp only [casSwitch, hr, casIdle, hp.signals, standardCasSignals]
    exact h.of_eq rfl rfl
  · simp only [casSwitch, hr, casDoubleSeizure, hp.signals, standardCasSignals, if_true]
    exact reportCallEnd_timed cx env _
  · simp only [casSwitch, hr, casClearFwdTxd, hp.signals, standardCasSignals, if_true]
    exact reportCallEnd_timed cx env _

/-- A user clears a call in glare, which waits for the other end to see the seize. -/
theorem disconnectCall_glare_timed (he : env.Sound) (cause : DisconnectCause)
    (hs : c.callState ≠ .idle) (hd : c.direction = .forward) (hr : c.r2State = .doubleSeizure)
    (h : c.Timed []) : (disconnectCall cx env cause c).1.Timed [.r2SeizePersistExpired] := by
  have hb : ¬ c.direction = .backward := by
    rw [hd]
    decide
  simp only [disconnectCall, if_neg hs, if_neg hb, disconnectForward, hr, reduceCtorEq, if_false,
    if_true]
  have ha := addTimer_timed he cx.timers.r2SeizePersist
    (show TimerCallback.r2SeizePersistExpired ≠ .seizeTimeoutExpired by decide)
    (h.of_eq (d := c.setR2State .doubleSeizureClearFwdPending) rfl rfl)
  exact ⟨ha.pending, ha.mf, ha.check, fun t ht hc => absurd hc (ha.not_seize (by decide) t ht)⟩

/-- A user clears a call in glare whose other end has cleared. -/
theorem disconnectCall_cleared_timed (cause : DisconnectCause) (hs : c.callState ≠ .idle)
    (hd : c.direction = .forward) (hr : c.r2State = .clearFwdRxd) :
    (disconnectCall cx env cause c).1.Timed [] := by
  have hb : ¬ c.direction = .backward := by
    rw [hd]
    decide
  simp only [disconnectCall, if_neg hs, if_neg hb, disconnectForward, hr, reduceCtorEq, if_false,
    if_true]
  exact reportCallEnd_timed cx env c

end Steps

/-- How far one side of a glare can be, with its timers, how often it was told of a
disconnection, and how many steps it has left at most. The patterns that follow the
seize are all idle, which is also how a clear forward looks. -/
inductive Glaring (cx : R2Context) : Nat → Post → List TimerCallback → Nat → Prop where
  | seized (k : Nat) :
      Glaring cx (k + 6) ⟨.at .forward .dialing .seizeTxd 0x8,
        cx.pattern .seize :: List.replicate k (cx.pattern .idle), false, 0⟩ [.seizeTimeoutExpired] 0
  | glare (k : Nat) :
      Glaring cx (k + 5) ⟨.at .forward .disconnected .doubleSeizure 0x0,
        List.replicate k (cx.pattern .idle), false, 0⟩ [] 1
  | held (k : Nat) :
      Glaring cx (k + 4) ⟨.at .forward .disconnected .doubleSeizureClearFwdPending 0x0,
        List.replicate k (cx.pattern .idle), true, 0⟩ [.r2SeizePersistExpired] 1
  | clearing (k : Nat) :
      Glaring cx (k + 2) ⟨.at .forward .disconnected .clearFwdTxd 0x0,
        List.replicate k (cx.pattern .idle), true, 0⟩ [.r2SetCallDown] 1
  | cleared (k : Nat) :
      Glaring cx (k + 2) ⟨.at .forward .disconnected .clearFwdRxd 0x8,
        List.replicate k (cx.pattern .idle), false, 0⟩ [] 1
  | ended (k read : Nat) (hr : read = 0x8 ∨ read = 0x0) :
      Glaring cx k ⟨.at .stopped .idle .idle read, List.replicate k (cx.pattern .idle), true, 1⟩ [] 1

/-- An idle pattern more is on its way. -/
theorem Glaring.idle {cx : R2Context} {n d : Nat} {p : Post} {cbs : List TimerCallback}
    (h : Glaring cx n p cbs d) :
    Glaring cx (n + 1) { p with inbox := p.inbox ++ [cx.pattern .idle] } cbs d := by
  have hk : ∀ k, List.replicate k (cx.pattern .idle) ++ [cx.pattern .idle] =
      List.replicate (k + 1) (cx.pattern .idle) := fun k => List.replicate_succ'.symm
  cases h with
  | seized k => rw [List.cons_append, hk]; exact .seized (k + 1)
  | glare k => rw [hk]; exact .glare (k + 1)
  | held k => rw [hk]; exact .held (k + 1)
  | clearing k => rw [hk]; exact .clearing (k + 1)
  | cleared k => rw [hk]; exact .cleared (k + 1)
  | ended _ read hr => rw [hk]; exact .ended (n + 1) read hr

namespace Peers

/-- How often a side was told of a disconnection. -/
def disconnects (i : Side) (s : Peers) : Nat := (s.events i).countP Event.IsDisconnect

/-- One side of a glare, with the timers that its channel really has. -/
structure Glares (cx : R2Context) (n : Nat) (i : Side) (s : Peers) : Prop where
  faultless : Faultless (s.events i)
  told : ∀ e ∈ s.events i, e.IsDisconnect → e = .onCallDisconnect .glare
  post : ∃ cbs, (s.net.party i).Timed cbs ∧ Glaring cx n (s.post i) cbs (s.disconnects i)

end Peers

section Sides

variable {cx : R2Context} {env : Env} {s : Peers} {i : Side} {n : Nat}

/-- The other side only gets its idle patterns. -/
theorem Peers.Glares.peer {s' : Peers} {sent : List Nat} (h : s.Glares cx n i)
    (hp : s'.net.party i = s.net.party i) (he : s'.events i = s.events i)
    (hi : s'.post i = { s.post i with inbox := (s.post i).inbox ++ sent })
    (hs : sent = [] ∨ sent = [cx.pattern .idle]) : s'.Glares cx (n + sent.length) i := by
  obtain ⟨hf, ht, cbs, hc, hg⟩ := h
  refine ⟨he ▸ hf, he ▸ ht, cbs, hp ▸ hc, ?_⟩
  rw [Peers.disconnects, he, ← Peers.disconnects, hi]
  rcases hs with rfl | rfl
  · simpa using hg
  · exact hg.idle

/-- What a side in glare can put on the line and tell its user in one step. -/
inductive Spoken (cx : R2Context) : List Nat → List Event → Prop where
  | nothing : Spoken cx [] []
  | glare : Spoken cx [] [.onCallDisconnect .glare]
  | lineIdle : Spoken cx [] [.onLineIdle]
  | clearing : Spoken cx [cx.pattern .clearForward] []
  | ended : Spoken cx [cx.pattern .idle] [.onCallEnd]

/-- A side has acted: it is nearer to its end, even if the pattern it has sent is
counted, and the other side is as it was. -/
def Peers.Plays (cx : R2Context) (n : Nat) (i : Side) (s s' : Peers) : Prop :=
  ∃ m sent : Nat, m + sent < n ∧ s'.Glares cx m i ∧
    ∀ k, s.Glares cx k i.peer → s'.Glares cx (k + sent) i.peer

theorem Peers.Glares.plays {s' : Peers} {w : Wire} {cbs : List TimerCallback} {m : Nat}
    (h : s.Glares cx n i) (hx : cx.Plain)
    (hi : s'.post i.peer = { s.post i.peer with inbox := (s.post i.peer).inbox ++ w.sent })
    (he : s'.events i = s.events i ++ w.told) (hq : s'.events i.peer = s.events i.peer)
    (hp : s'.net.party i.peer = s.net.party i.peer) (hs : Spoken cx w.sent w.told)
    (hc : (s'.net.party i).Timed cbs) (hm : m + w.sent.length < n)
    (hg : Glaring cx m (s'.post i) cbs (s.disconnects i + w.told.countP Event.IsDisconnect)) :
    s.Plays cx n i s' := by
  have hsent : w.sent = [] ∨ w.sent = [cx.pattern .idle] := by
    have hsame : cx.pattern .clearForward = cx.pattern .idle := by
      simp only [R2Context.pattern, hx.signals]
      rfl
    generalize w.sent = a, w.told = b at hs
    cases hs <;> simp [hsame]
  have htold : Faultless w.told ∧ ∀ e ∈ w.told, e.IsDisconnect → e = .onCallDisconnect .glare := by
    generalize w.sent = a, w.told = b at hs
    cases hs <;> simp [Faultless, Event.IsDisconnect]
  refine ⟨m, w.sent.length, hm, ⟨he ▸ h.faultless.append htold.1, ?_, cbs, hc, ?_⟩, fun k hk =>
    hk.peer hp hq hi hsent⟩
  · rw [he]
    intro e hx
    exact (List.mem_append.mp hx).elim (h.told e) (htold.2 e)
  · rwa [Peers.disconnects, he, List.countP_append]

end Sides

section Steps

variable {cx : R2Context} {env : Env} {s : Peers} {i : Side} {n : Nat}

theorem Peers.Glares.hears {sig : CasSignal} {rest : List Nat} {p : Post} {w : Wire} {m d : Nat}
    {cbs : List TimerCallback} (h : s.Glares cx n i) (hx : cx.Plain) (hp : s.post i = p)
    (hd : s.disconnects i = d) (he : env.Shows (cx.pattern sig)) (hk : p.wire.Calm)
    (hw : p.wire.hear cx sig = some w) (hs : Spoken cx w.sent w.told)
    (hc : (step cx env .cas (s.net.party i)).Timed cbs)
    (hg : Glaring cx m ⟨w.settle, rest, p.cleared, p.ends + w.told.count .onCallEnd⟩ cbs
      (d + w.told.countP Event.IsDisconnect)) (hm : m + w.sent.length < n) :
    s.Plays cx n i (s.hear cx i env rest) := by
  subst hp hd
  obtain ⟨h1, h2, h3, h4⟩ := @Peers.hear_post _ _ _ hx _ _ rest he _ hk hw
  refine h.plays hx h2 h3 h4 (by simp [Peers.hear, Peers.input]) hs ?_ hm (by rwa [h1])
  simpa [Peers.hear, Peers.input, tick] using hc

/-- What the arrival of a pattern does. -/
theorem Peers.Glares.hear (h : s.Glares cx n i) (hx : cx.Plain) {bits : Nat} {rest : List Nat}
    (hi : s.net.inbox i = bits :: rest) (he : env.Shows bits) :
    s.Plays cx n i (s.hear cx i env rest) := by
  obtain ⟨cbs, hc, hg⟩ := h.post
  have hq : (s.post i).inbox = bits :: rest := hi
  have hw : (s.net.party i).start.wire = (s.post i).wire := rfl
  have hidle : ∀ r, env.Shows (cx.pattern .idle) → (s.post i).wire = r → r.Calm → r.casRead = 0 →
      ((r.r2State = .doubleSeizure ∨ r.r2State = .idle) ∧ cbs = [] ∨
        r.r2State = .doubleSeizureClearFwdPending ∨ r.r2State = .clearFwdTxd) →
      (step cx env .cas (s.net.party i)).Timed [] := by
    intro r he hr hk h0 hr2
    have hn : (s.net.party i).casRead ≠ standardCasSignals .idle := by
      rw [show (s.net.party i).casRead = 0 from (congrArg Wire.casRead (hw.trans hr)).trans h0]
      decide
    subst hr
    rw [step_cas_new hx he hk hn]
    exact casSwitch_idle_timed hx (hc.start.seen _ _) hr2
  have hsame : ∀ r, env.Shows (cx.pattern .idle) → (s.post i).wire = r → r.Calm → r.casRead = 8 →
      (step cx env .cas (s.net.party i)).Timed cbs := by
    intro r he hr hk h8
    subst hr
    exact handleCas_old_timed he.getCas hk.checking (h8.trans (hx.read .idle).symm) hc.start
  generalize hp : s.post i = p at hg hq
  generalize hd : s.disconnects i = d at hg
  cases hg with
  | seized k =>
    obtain ⟨rfl, rfl⟩ := List.cons.inj hq
    have hw := hw.trans (congrArg Post.wire hp)
    have hn : (s.net.party i).casRead ≠ standardCasSignals .seize := by
      rw [show (s.net.party i).casRead = 8 from congrArg Wire.casRead hw]
      decide
    have ht : (step cx env .cas (s.net.party i)).Timed [] := by
      rw [step_cas_new hx he (hw ▸ ⟨rfl, rfl⟩) hn]
      exact casSwitch_seize_timed hx (congrArg Wire.r2State hw) (hc.start.seen _ _)
    exact h.hears hx hp hd he ⟨rfl, rfl⟩ rfl .glare ht (.glare k) (Nat.lt_succ_self _)
  | glare k =>
    obtain _ | k := k
    · exact nomatch hq
    obtain ⟨rfl, rfl⟩ := List.cons.inj hq
    have ht := hidle _ he (congrArg Post.wire hp) ⟨rfl, rfl⟩ rfl (.inl ⟨.inl rfl, rfl⟩)
    exact h.hears hx hp hd he ⟨rfl, rfl⟩ rfl .nothing ht (.cleared k)
      (Nat.add_lt_add_left (by decide : 2 < 6) k)
  | held k =>
    obtain _ | k := k
    · exact nomatch hq
    obtain ⟨rfl, rfl⟩ := List.cons.inj hq
    have ht := hidle _ he (congrArg Post.wire hp) ⟨rfl, rfl⟩ rfl (.inr (.inl rfl))
    exact h.hears hx hp hd he ⟨rfl, rfl⟩ rfl .ended ht (.ended k 8 (.inl rfl))
      (Nat.add_lt_add_left (by decide : 1 < 5) k)
  | clearing k =>
    obtain _ | k := k
    · exact nomatch hq
    obtain ⟨rfl, rfl⟩ := List.cons.inj hq
    have ht := hidle _ he (congrArg Post.wire hp) ⟨rfl, rfl⟩ rfl (.inr (.inr rfl))
    exact h.hears hx hp hd he ⟨rfl, rfl⟩ rfl .ended ht (.ended k 8 (.inl rfl))
      (Nat.add_lt_add_left (by decide : 1 < 3) k)
  | cleared k =>
    obtain _ | k := k
    · exact nomatch hq
    obtain ⟨rfl, rfl⟩ := List.cons.inj hq
    have ht := hsame _ he (congrArg Post.wire hp) ⟨rfl, rfl⟩ rfl
    exact h.hears hx hp hd he ⟨rfl, rfl⟩ rfl .nothing ht (.cleared k) (Nat.lt_succ_self _)
  | ended _ read hr =>
    obtain _ | k := n
    · exact nomatch hq
    obtain ⟨rfl, rfl⟩ := List.cons.inj hq
    rcases hr with rfl | rfl
    · have ht := hsame _ he (congrArg Post.wire hp) ⟨rfl, rfl⟩ rfl
      exact h.hears hx hp hd he ⟨rfl, rfl⟩ rfl .nothing ht (.ended k 8 (.inl rfl))
        (Nat.lt_succ_self _)
    · have ht := hidle _ he (congrArg Post.wire hp) ⟨rfl, rfl⟩ rfl (.inl ⟨.inr rfl, rfl⟩)
      exact h.hears hx hp hd he ⟨rfl, rfl⟩ rfl .lineIdle ht (.ended k 8 (.inl rfl))
        (Nat.lt_succ_self _)

theorem Peers.Glares.disconnects {cause : DisconnectCause} {p : Post} {w : Wire} {m d : Nat}
    {cbs : List TimerCallback} (h : s.Glares cx n i) (hx : cx.Plain) (hp : s.post i = p)
    (hd : s.disconnects i = d) (he : env.Sound) (hw : p.wire.disconnect cx cause = some w)
    (hs : Spoken cx w.sent w.told)
    (hc : (step cx env (.api (.disconnectCall cause)) (s.net.party i)).Timed cbs)
    (hg : Glaring cx m ⟨w.settle, p.inbox, true, p.ends + w.told.count .onCallEnd⟩ cbs
      (d + w.told.countP Event.IsDisconnect)) (hm : m + w.sent.length < n) :
    s.Plays cx n i (s.disconnect cx i env cause) := by
  subst hp hd
  obtain ⟨h1, h2, h3, h4⟩ := Peers.disconnect_post hx he hw
  refine h.plays hx h2 h3 h4 (by simp [Peers.disconnect, Peers.input]) hs ?_ hm (by rwa [h1])
  simpa [Peers.disconnect, Peers.input, tick] using hc

/-- What the call of a user who was told of the glare does. -/
theorem Peers.Glares.disconnect (h : s.Glares cx n i) (hx : cx.Plain) (he : env.Sound)
    (cause : DisconnectCause) (hi : s.cleared i = false)
    (hg : .onCallDisconnect .glare ∈ s.events i) :
    s.Plays cx n i (s.disconnect cx i env cause) := by
  obtain ⟨cbs, hc, hp⟩ := h.post
  have hq : (s.post i).cleared = false := hi
  have hcount : s.disconnects i ≠ 0 := fun h0 => absurd rfl (List.countP_eq_zero.mp h0 _ hg)
  generalize hw : s.post i = p at hp hq
  generalize hd : s.disconnects i = d at hp hcount
  have hcs := congrArg (fun p : Post => p.wire.callState) hw
  have hdir := congrArg (fun p : Post => p.wire.direction) hw
  have hr := congrArg (fun p : Post => p.wire.r2State) hw
  cases hp with
  | seized k => exact absurd rfl hcount
  | glare k =>
    have ht := @disconnectCall_glare_timed cx _ _ he cause
      (fun h => nomatch hcs.symm.trans h) hdir hr hc.start
    exact h.disconnects hx hw hd he rfl .nothing ht (.held k) (Nat.lt_succ_self _)
  | cleared k =>
    have ht := @disconnectCall_cleared_timed cx env _ cause
      (fun h => nomatch hcs.symm.trans h) hdir hr
    exact h.disconnects hx hw hd he rfl .ended ht (.ended k 8 (.inl rfl)) (Nat.lt_succ_self _)
  | _ => exact nomatch hq

/-- The only timer of a side expires. -/
theorem Peers.Glares.expires {cb : TimerCallback} {t : SchedTimer} {p : Post} {w : Wire} {m d : Nat}
    {cbs : List TimerCallback} (h : s.Glares cx n i) (hx : cx.Plain) (hp : s.post i = p)
    (hd : s.disconnects i = d) (hc : (s.net.party i).Timed [cb]) (ht : t ∈ (s.net.party i).timers.schedTimers)
    (hw : ∀ c : R2Chan, c.wire = p.wire → (runTimer cx env cb c).wire = w)
    (hr : ∀ c : R2Chan, c.Timed [] → (runTimer cx env cb c).Timed cbs)
    (hs : Spoken cx w.sent w.told)
    (hg : Glaring cx m ⟨w.settle, p.inbox, p.cleared, p.ends + w.told.count .onCallEnd⟩ cbs
      (d + w.told.countP Event.IsDisconnect)) (hm : m + w.sent.length < n) :
    s.Plays cx n i (s.input cx i ⟨env, .timer t.id⟩) := by
  subst hp hd
  obtain ⟨hf, hcb, hq⟩ := hc.start.removeId ht
  have hstep : step cx env (.timer t.id) (s.net.party i) =
      runTimer cx env cb ((s.net.party i).start.mapTimers (·.removeId t.id)) := by
    simp only [step, expire, hf, hcb]
  have hwire := hw _ (wire_mapTimers (·.removeId t.id) (s.net.party i).start)
  obtain ⟨h1, h2, h3, h4⟩ := Peers.input_post i ⟨env, .timer t.id⟩ ((congrArg R2Chan.wire hstep).trans hwire)
  refine h.plays hx h2 h3 h4 (by simp [Peers.input]) hs ?_ hm (by rwa [h1])
  simpa [Peers.input, tick, hstep] using hr _ hq

/-- What the expiry of one of the two clearing timers does. -/
theorem Peers.Glares.expire (h : s.Glares cx n i) (hx : cx.Plain) (he : env.Sound) {t : SchedTimer}
    (ht : t ∈ (s.net.party i).timers.schedTimers)
    (hcb : t.callback = .r2SeizePersistExpired ∨ t.callback = .r2SetCallDown) :
    s.Plays cx n i (s.input cx i ⟨env, .timer t.id⟩) := by
  obtain ⟨cbs, hc, hp⟩ := h.post
  have hmem : t.callback ∈ cbs := hc.pending ▸ List.mem_map_of_mem ht
  generalize hw : s.post i = p at hp
  generalize hd : s.disconnects i = d at hp
  cases hp with
  | seized k =>
    rw [List.mem_singleton.mp hmem] at hcb
    exact nomatch hcb
  | held k =>
    exact h.expires hx hw hd hc ht
      (fun c hc => (wire_sendClearForward he c).trans
        (congrArg (fun w : Wire => { w with r2State := .clearFwdTxd }.send (cx.pattern .clearForward)) hc))
      (fun c hc => sendClearForward_timed he hc) .clearing (.clearing k) (Nat.lt_succ_self _)
  | clearing k =>
    exact h.expires hx hw hd hc ht
      (fun c hc => (wire_reportCallEnd he c).trans (congrArg (Wire.finish cx) hc))
      (fun c _ => reportCallEnd_timed cx env c) .ended (.ended k 0 (.inr rfl)) (Nat.lt_succ_self _)
  | _ => exact nomatch hmem

end Steps

namespace Peers

/-- Both sides of a glare, with the steps that are left at most. -/
def Glare (cx : R2Context) (n : Nat) (s : Peers) : Prop :=
  ∃ l r, l + r = n ∧ s.Glares cx l .left ∧ s.Glares cx r .right

/-- Both users have disconnected, no pattern is on its way, and no timer is pending. -/
def Quiet (s : Peers) : Prop :=
  ∀ i, s.cleared i = true ∧ s.net.inbox i = [] ∧ (s.net.party i).timers.schedTimers = []

end Peers

section Runs

variable {cx : R2Context} {s s' : Peers} {n : Nat}

theorem Peers.Plays.glare {i : Side} {k : Nat} (h : s.Plays cx n i s') (hk : s.Glares cx k i.peer) :
    ∃ m < n + k, s'.Glare cx m := by
  obtain ⟨m, sent, hm, hi, hp⟩ := h
  have hp := hp k hk
  cases i with
  | left => exact ⟨m + (k + sent), by omega, m, k + sent, rfl, hi, hp⟩
  | right => exact ⟨k + sent + m, by omega, k + sent, m, rfl, hp, hi⟩

/-- What a step preserves. -/
theorem Peers.Glare.step (h : s.Glare cx n) (hx : cx.Plain) (hs : Peers.GlareStep cx s s') :
    ∃ m < n, s'.Glare cx m := by
  obtain ⟨l, r, rfl, hl, hr⟩ := h
  have hplay : ∀ i, (∀ m, s.Glares cx m i → s.Plays cx m i s') → ∃ m < l + r, s'.Glare cx m := by
    intro i hi
    cases i with
    | left => exact (hi l hl).glare hr
    | right => exact Nat.add_comm l r ▸ (hi r hr).glare hl
  cases hs with
  | hear i env bits rest hi he => exact hplay i fun _ h => h.hear hx hi he
  | disconnect i env cause hi hg he => exact hplay i fun _ h => h.disconnect hx he cause hi hg
  | expire i env t ht hcb he => exact hplay i fun _ h => h.expire hx he ht hcb

/-- What a run preserves. -/
theorem Peers.Glare.run (h : s.Glare cx n) (hx : cx.Plain)
    (hr : Relation.ReflTransGen (Peers.GlareStep cx) s s') : ∃ m, s'.Glare cx m := by
  induction hr with
  | refl => exact ⟨n, h⟩
  | tail _ hs ih =>
    obtain ⟨m, ih⟩ := ih
    obtain ⟨k, -, hk⟩ := ih.step hx hs
    exact ⟨k, hk⟩

/-- A side that is quiet is at rest. -/
theorem Glaring.isOver {p : Post} {d : Nat} (h : Glaring cx n p [] d) (hi : p.inbox = [])
    (hc : p.cleared = true) : p.wire.r2State = .idle ∧ d = 1 ∧ p.ends = 1 := by
  cases h with
  | ended => exact ⟨rfl, rfl, rfl⟩
  | _ => exact nomatch hc

end Runs

end OpenR2
