import OpenR2.Proofs.TimerMoves
import OpenR2.Proofs.Phases
import OpenR2.Proofs.Posts

namespace OpenR2

variable {cx : R2Context} {env : Env} {c d e : R2Chan} {l : List TimerCallback}

/-- One timer for a purpose at most, and what goes with it: the safety timer of the forward
side runs only in silence, and before a call there was no tone. -/
structure R2Chan.Tended (c : R2Chan) : Prop where
  tidy : c.timers.Tidy
  safety : .mfFwdSafetyTimeoutExpired ∈ c.pending → c.mfReadTone = 0
  fresh : c.callState = .idle ∨ c.r2State = .seizeTxd → c.mfReadTone = 0

/-- The code takes one channel to another by proper operations on the timers, and never asks
for a timer when there is no room. -/
def Roomily (c d : R2Chan) : Prop :=
  ∃ ops : List TimerOp, d.timers = c.timers.applyAll ops ∧ (∀ op ∈ ops, op.Proper) ∧
    c.timers.Roomy ops

theorem Roomily.refl (h : d.timers = c.timers) : Roomily c d :=
  ⟨[], h, by simp, fun pre op post he => absurd he (by simp)⟩

theorem Roomily.trans (h : Roomily c d) (h' : Roomily d e) : Roomily c e := by
  obtain ⟨ops, ht, hp, hr⟩ := h
  obtain ⟨ops', ht', hp', hr'⟩ := h'
  refine ⟨ops ++ ops', ?_, ?_, hr.append (ht ▸ hr')⟩
  · rw [ht', ht]
    exact (List.foldl_append).symm
  · intro op ho
    exact (List.mem_append.mp ho).elim (hp op) (hp' op)

/-- What is scheduled for purposes that have no timer, in a queue with room for all. -/
theorem R2Chan.Tended.schedules (h : c.Tended) (hs : Schedules l c d) (hn : l.Nodup)
    (hf : ∀ cb ∈ l, cb ∉ c.pending) (hz : .seizeTimeoutExpired ∈ l → c.mfReadTone = 0)
    (hw : .mfFwdSafetyTimeoutExpired ∈ l → d.mfReadTone = 0)
    (hl : l ≠ [] → c.timers.schedTimers.length + l.length ≤ maxSchedTimers) :
    d.Tended ∧ Roomily c d := by
  obtain ⟨⟨ops, ht, hp, hsub⟩, hr, hsz, hi⟩ := hs
  have hzero : c.mfReadTone = 0 → d.mfReadTone = 0 := fun h => hr.elim (·.trans h) id
  refine ⟨⟨?_, fun hx => ?_, fun hx => ?_⟩, ops, ht, hp, ?_⟩
  · rw [ht]
    exact h.tidy.applyAll hp (hn.sublist hsub) fun cb hcb => hf cb (hsub.subset hcb)
  · have hx : .mfFwdSafetyTimeoutExpired ∈ d.timers.pending := hx
    rw [ht] at hx
    rcases TimerQueue.pending_applyAll hp hx with hx | hx
    · exact hzero (h.safety hx)
    · exact hw (hsub.subset hx)
  · rcases hx with hx | hx
    · exact (hi hx).elim (fun hx => hzero (h.fresh (.inl hx))) id
    · exact (hsz hx).elim (fun hx => hzero (h.fresh (.inr hx))) fun hx => hzero (hz hx)
  · intro pre op post he hop
    refine TimerQueue.roomy_of_length ?_ pre op post he hop
    have hne : l ≠ [] := by
      rintro rfl
      obtain ⟨cb, hcb⟩ := Option.ne_none_iff_exists'.mp hop
      have hm : op ∈ ops := he ▸ List.mem_append_right _ List.mem_cons_self
      exact absurd (hsub.subset (List.mem_filterMap.mpr ⟨op, hm, hcb⟩)) List.not_mem_nil
    exact (Nat.add_le_add_left hsub.length_le _).trans (hl hne)

theorem R2Chan.Tended.still (h : c.Tended) (hs : Schedules [] c d) : d.Tended ∧ Roomily c d :=
  h.schedules hs .nil (fun _ hx => absurd hx List.not_mem_nil) (fun hx => absurd hx List.not_mem_nil)
    (fun hx => absurd hx List.not_mem_nil) (absurd rfl)

/-- Only what is scheduled can be new among the timers that wait. -/
theorem Schedules.pending (h : Schedules l c d) {cb : TimerCallback} (hn : cb ∉ l)
    (hd : cb ∈ d.pending) : cb ∈ c.pending := by
  obtain ⟨⟨ops, ht, hp, hsub⟩, -⟩ := h
  have hd : cb ∈ d.timers.pending := hd
  rw [ht] at hd
  exact (TimerQueue.pending_applyAll hp hd).resolve_right fun hx => hn (hsub.subset hx)

/-- What a step does in two parts. -/
theorem Roomily.andThen (h : d.Tended ∧ Roomily c d) (h' : d.Tended → e.Tended ∧ Roomily d e) :
    e.Tended ∧ Roomily c e :=
  ⟨(h' h.1).1, h.2.trans (h' h.1).2⟩

/-- The timers of each direction, and so the most that can wait. -/
theorem pending_length (hc : c.control.Coherent) (ht : c.Tended) :
    c.timers.schedTimers.length ≤ 7 := by
  have hs : c.pending ⊆ [.persistenceCheckExpired, .mfFwdSafetyTimeoutExpired, .seizeTimeoutExpired,
      .r2SeizePersistExpired, .r2AnswerTimeoutExpired, .r2MeteringPulse, .r2SetCallDown] ∨
      c.pending ⊆ [.persistenceCheckExpired, .mfBackCycleTimeoutExpired, .mfBackResumeCycle,
        .readyToAnswer, .doubleAnswerHandler] := by
    by_cases hd : c.direction = .forward
    · left
      intro cb hcb
      have hx : cb.Serves .forward := hd ▸ hc.timers cb hcb
      cases cb <;> first | exact hx.elim | simp
    · right
      intro cb hcb
      have hx : cb.Serves c.direction := hc.timers cb hcb
      cases hdir : c.direction with
      | forward => exact absurd hdir hd
      | stopped => rw [hdir] at hx; cases cb <;> first | exact hx.elim | simp
      | backward => rw [hdir] at hx; cases cb <;> first | exact hx.elim | simp
  have hlen : c.timers.pending.length = c.timers.schedTimers.length := List.length_map _
  rcases hs with hs | hs
  · have hle := (List.subperm_of_subset ht.tidy.single hs).length_le
    simp only [List.length_cons, List.length_nil] at hle
    omega
  · have hle := (List.subperm_of_subset ht.tidy.single hs).length_le
    simp only [List.length_cons, List.length_nil] at hle
    omega

section Rearming

variable (cx : R2Context) (env : Env)

/-- A release in an answered call, which is taken for a metering pulse while the timer of
an earlier one still waits. -/
def lineRearms (cas : Nat) (c : R2Chan) : Prop :=
  (c.r2State = .answerRxdMfPending ∨ c.r2State = .answerRxd) ∧ cx.timers.r2MeteringPulse ≠ 0 ∧
    (cas = cx.casSignals .clearBack ∨ cas = cx.casSignals .forcedRelease) ∧
    .r2MeteringPulse ∈ c.pending

instance (cas : Nat) (c : R2Chan) : Decidable (lineRearms cx cas c) := by
  unfold lineRearms; exact inferInstance

/-- The same for a line event. -/
def casRearms (c : R2Chan) : Prop := ∃ cas ∈ (casPattern cx env c).2, lineRearms cx cas c

instance (c : R2Chan) : Decidable (casRearms cx env c) := by
  unfold casRearms; exact inferInstance

/-- The user replies to an offer with another tone than the one on the line, which may be
that of an earlier reply, while the time for the caller to hear it still runs. -/
def replyRearms (tone : Tone) (c : R2Chan) : Prop :=
  c.callState = .offered ∧ RequestsWith env tone c ∧ .mfBackCycleTimeoutExpired ∈ c.pending

instance (tone : Tone) (c : R2Chan) : Decidable (replyRearms env tone c) := by
  unfold replyRearms; exact inferInstance

/-- A line that is already being cleared is cleared again. -/
def clearRearms (c : R2Chan) : Prop :=
  (env.gettimeofday c.out).isSome ∧ .r2SetCallDown ∈ c.pending

instance (c : R2Chan) : Decidable (clearRearms env c) := by
  unfold clearRearms; exact inferInstance

/-- The expiry of a timer schedules another one that still waits. -/
def expiryRearms (cb : TimerCallback) (c : R2Chan) : Prop :=
  match cb with
  | .r2SeizePersistExpired => clearRearms env c
  | .mfBackCycleTimeoutExpired => resumesCycle cx c ∧ .mfBackResumeCycle ∈ c.pending
  | .persistenceCheckExpired =>
    let r := ioGetCas env (c.mapTimers (·.setSlot .casPersistenceCheck 0))
    (∃ raw ∈ r.2, r.1.casPersistenceCheckSignal = some (raw &&& cx.casR2Bits)) ∧
      casRearms cx env r.1
  | _ => False

instance (cb : TimerCallback) (c : R2Chan) : Decidable (expiryRearms cx env cb c) := by
  unfold expiryRearms
  cases cb <;> exact inferInstance

/-- A second tone for an acceptance is heard to its end while the answer is waited for. -/
def toneRearms (tone : Tone) (c : R2Chan) : Prop :=
  c.direction = .forward ∧ toneAdvances cx env tone c ∧ c.r2State ≠ .answerRxdMfPending ∧
    .r2AnswerTimeoutExpired ∈ c.pending

instance (tone : Tone) (c : R2Chan) : Decidable (toneRearms cx env tone c) := by
  unfold toneRearms; exact inferInstance

/-- The call of the user schedules a timer that still waits. -/
def callRearms (a : ApiCall) (c : R2Chan) : Prop :=
  match a with
  | .acceptCall mode => replyRearms env (getToneFromMode cx mode) c
  | .disconnectCall cause =>
    c.direction = .backward ∧ replyRearms env (refusalTone cx cause) c ∨
      c.direction = .forward ∧ c.r2State ≠ .seizeTxd ∧ c.r2State ≠ .doubleSeizure ∧
        c.r2State ≠ .clearFwdRxd ∧ clearRearms env c
  | _ => False

instance (a : ApiCall) (c : R2Chan) : Decidable (callRearms cx env a c) := by
  unfold callRearms
  cases a <;> exact inferInstance

/-- The input schedules a timer for a purpose whose timer still waits. -/
def Rearms (i : Input) (c : R2Chan) : Prop :=
  match i with
  | .cas => casRearms cx env c.start
  | .mfTone tone => toneRearms cx env tone c.start
  | .timer id =>
    ∃ t ∈ c.timer? id, expiryRearms cx env t.callback (c.start.mapTimers (·.removeId id))
  | .api a => callRearms cx env a c.start
  | .alarm _ => False

instance (i : Input) (c : R2Chan) : Decidable (Rearms cx env i c) :=
  match i with
  | .cas => inferInstanceAs (Decidable (casRearms cx env c.start))
  | .mfTone tone => inferInstanceAs (Decidable (toneRearms cx env tone c.start))
  | .timer id => inferInstanceAs (Decidable (∃ t ∈ c.timer? id,
      expiryRearms cx env t.callback (c.start.mapTimers (·.removeId id))))
  | .api a => inferInstanceAs (Decidable (callRearms cx env a c.start))
  | .alarm _ => inferInstanceAs (Decidable False)

end Rearming

section Line

theorem checkPersistence_tended (h : c.Tended) (hl : c.timers.schedTimers.length ≤ 7)
    (hn : .persistenceCheckExpired ∉ c.pending) (cas : Nat) :
    (checkPersistence cx env cas c).Tended ∧ Roomily c (checkPersistence cx env cas c) := by
  refine h.schedules (checkPersistence_schedules cas) (List.nodup_singleton _) ?_ (by simp) (by simp)
    fun _ => ?_
  · intro cb hcb
    obtain rfl := List.mem_singleton.mp hcb
    exact hn
  · exact (Nat.add_le_add_right hl _).trans (by decide)

theorem cancelTimer_length (slot : TimerSlot) (c : R2Chan) :
    (c.cancelTimer slot).timers.schedTimers.length ≤ c.timers.schedTimers.length := by
  have h := TimerQueue.length_apply (q := c.timers) (.cancel slot)
  exact h

theorem ioGetCas_timers (env : Env) (c : R2Chan) : (ioGetCas env c).1.timers = c.timers := by
  unfold ioGetCas
  split <;> rfl

theorem casPattern_tended (h : c.Tended) (hl : c.timers.schedTimers.length ≤ 7) :
    (casPattern cx env c).1.Tended ∧ Roomily c (casPattern cx env c).1 := by
  have hp : (pollCas cx env c).1.Tended ∧ Roomily c (pollCas cx env c).1 := by
    have hi := h.still (@ioGetCas_schedules env _)
    have ht := ioGetCas_timers env c
    simp only [pollCas]
    split
    · exact hi
    · have hc : ((ioGetCas env c).1.cancelTimer .casPersistenceCheck).Tended ∧
          Roomily c ((ioGetCas env c).1.cancelTimer .casPersistenceCheck) :=
        Roomily.andThen hi fun hx => hx.still (.cancelTimer _ _)
      split_ifs
      · exact Roomily.andThen hc fun hx => hx.still (.same rfl rfl id id)
      · exact hi
      · refine Roomily.andThen hc fun hx => checkPersistence_tended hx ?_ ?_ _
        · exact (cancelTimer_length _ _).trans (ht ▸ hl)
        · exact hi.1.tidy.cancelled .casPersistenceCheck
      · exact hi
  unfold casPattern
  split
  · exact hp
  · split_ifs
    · exact h.still (.same rfl rfl id id)
    · exact hp

theorem handleCas_tended (hm : cx.Mfc) (hq : env.Quiet) (hp : c.control.Phased) (h : c.Tended)
    (hr : ¬ casRearms cx env c) : (handleCas cx env c).Tended ∧ Roomily c (handleCas cx env c) := by
  have hl := pending_length hp.toCoherent h
  obtain ⟨hg, hs⟩ : Goes cx env .other c (casPattern cx env c).1 ∧ _ := casPattern_goes c
  have ht := @casPattern_tended cx env _ h hl
  have hw := @casPattern_schedules cx env c
  unfold casRearms at hr
  unfold handleCas
  generalize casPattern cx env c = r at hg hs ht hw hr
  obtain ⟨d, p⟩ := r
  have hd : d.control.Phased := hp.moves hg
  have hld := pending_length hd.toCoherent ht.1
  cases p with
  | none => exact ht
  | some cas =>
    refine Roomily.andThen ht fun hx => ?_
    dsimp only [actOnCas]
    by_cases hi : d.inalarm = true
    · rw [if_pos hi]
      exact hx.still (.refl d)
    rw [if_neg hi]
    have hset : Schedules [] d (d.setCasRead cas) := .same rfl rfl id id
    have hsc : Schedules (lineTimers cx cas d) d (casSwitch cx env cas (d.setCasRead cas)) :=
      hset.andThen (casSwitch_schedules (l := []) (c := d.setCasRead cas) cas
        fun e d => callback_schedules cx env d hq e)
    generalize casSwitch cx env cas (d.setCasRead cas) = e at hsc
    have hroom : ∀ l : List TimerCallback, l.length ≤ 2 →
        d.timers.schedTimers.length + l.length ≤ maxSchedTimers := fun l hl2 =>
      (Nat.add_le_add hld hl2).trans (by decide)
    unfold lineTimers at hsc
    split at hsc
    all_goals rename_i hst
    · -- the seize was held or acknowledged: only the timer of the seize can wait
      have hz := hd.seizing (show d.r2State.Seizing by rw [hst]; trivial)
      rw [if_neg (by simp [hm.dial])] at hsc
      refine hx.schedules hsc (by decide) (fun cb hcb hq => ?_) (by simp) (fun _ => ?_)
        fun _ => hroom _ (by decide)
      · rcases hz cb hq with rfl | rfl <;> simp at hcb
      · exact hsc.readTone.elim (·.trans (hx.fresh (.inr hst))) id
    · have hz := hd.seizing (show d.r2State.Seizing by rw [hst]; trivial)
      refine hx.schedules hsc (by decide) (fun cb hcb hq => ?_) (by simp) (by simp)
        fun _ => hroom _ (by decide)
      rcases hz cb hq with rfl | rfl <;> simp at hcb
    all_goals try exact hx.still hsc
    all_goals
      split_ifs at hsc with hm1
      · refine hx.schedules hsc (by decide) (fun cb hcb hq => ?_) (by simp) (by simp)
          fun _ => hroom _ (by decide)
        obtain rfl := List.mem_singleton.mp hcb
        have hst : c.r2State = .answerRxdMfPending ∨ c.r2State = .answerRxd := by
          rw [← hs, hst]; simp
        exact hr ⟨cas, rfl, hst, hm1.1, hm1.2, hw.pending (by simp) hq⟩
      · exact hx.still hsc

end Line

section Expiry

/-- A timer that is called has left no other of its purpose in the queue. -/
theorem tidy_expired {id : Nat} {t : SchedTimer} (h : c.Tended) (ht : c.timer? id = some t) :
    t.callback ∉ (c.timers.removeId id).pending := by
  intro hx
  obtain ⟨u, hu, he⟩ := List.mem_map.mp hx
  obtain ⟨hu, hn⟩ := h.tidy.toKept.mem_removeId.mp hu
  have hmem : t ∈ c.timers.schedTimers := List.mem_of_find?_eq_some ht
  have hid : t.id = id := by simpa using List.find?_some ht
  have heq : u = t := List.inj_on_of_nodup_map h.tidy.single hu hmem he
  exact hn (by rw [heq, hid])

theorem expired_tended {id : Nat} (h : c.Tended) :
    (c.mapTimers (·.removeId id)).Tended := by
  refine ⟨h.tidy.removeId id, fun hx => ?_, h.fresh⟩
  obtain ⟨t, ht, he⟩ := List.mem_map.mp hx
  exact h.safety (List.mem_map.mpr ⟨t, List.mem_of_mem_eraseP ht, he⟩)

theorem persistenceCheckExpired_tended (hm : cx.Mfc) (hq : env.Quiet) (hp : c.control.Phased) (h : c.Tended)
    (hn : .persistenceCheckExpired ∉ c.pending)
    (hr : ¬ expiryRearms cx env .persistenceCheckExpired c) :
    (persistenceCheckExpired cx env c).Tended ∧ Roomily c (persistenceCheckExpired cx env c) := by
  have hl := pending_length hp.toCoherent h
  have hroom : c.timers.Roomy [.mark .casPersistenceCheck 0] :=
    TimerQueue.roomy_of_length ((Nat.add_le_add_right hl _).trans (by decide))
  have h0 : (c.mapTimers (·.setSlot .casPersistenceCheck 0)).Tended ∧
      Roomily c (c.mapTimers (·.setSlot .casPersistenceCheck 0)) :=
    ⟨⟨h.tidy.mark .casPersistenceCheck le_rfl hn, h.safety, h.fresh⟩,
      [.mark .casPersistenceCheck 0], rfl, by simp [TimerOp.Proper], hroom⟩
  have hp0 : (c.mapTimers (·.setSlot .casPersistenceCheck 0)).control.Phased := hp
  have hl0 : (c.mapTimers (·.setSlot .casPersistenceCheck 0)).timers.schedTimers.length ≤ 7 := hl
  have hn0 : .persistenceCheckExpired ∉ (c.mapTimers (·.setSlot .casPersistenceCheck 0)).pending := hn
  simp only [expiryRearms, not_and] at hr
  simp only [persistenceCheckExpired]
  generalize c.mapTimers (·.setSlot .casPersistenceCheck 0) = d at h0 hp0 hl0 hn0 hr
  have hi : (ioGetCas env d).1.Tended ∧ Roomily c (ioGetCas env d).1 :=
    Roomily.andThen h0 fun hx => hx.still ioGetCas_schedules
  have hc : (ioGetCas env d).1.control = d.control := ioGetCas_control env d
  have ht : (ioGetCas env d).1.timers = d.timers := ioGetCas_timers env d
  generalize ioGetCas env d = r at hi hc ht hr
  obtain ⟨e, q⟩ := r
  dsimp only at hi hc ht hr ⊢
  cases q with
  | none => exact hi
  | some raw =>
    dsimp only
    by_cases hs : e.casPersistenceCheckSignal = some (raw &&& cx.casR2Bits)
    · rw [if_pos hs]
      exact Roomily.andThen hi fun hx => handleCas_tended hm hq (hc ▸ hp0) hx (hr ⟨raw, rfl, hs⟩)
    · rw [if_neg hs]
      split_ifs
      · refine Roomily.andThen hi fun hx => checkPersistence_tended hx (ht ▸ hl0) ?_ _
        have hn0 : TimerCallback.persistenceCheckExpired ∉ d.timers.pending := hn0
        rw [← ht] at hn0
        exact hn0
      · exact Roomily.andThen hi fun hx => hx.still (.same rfl rfl id id)

/-- The expiry of one timer. -/
theorem runTimer_tended (hm : cx.Mfc) (hq : env.Quiet) {cb : TimerCallback} (hp : c.control.Phased) (h : c.Tended)
    (hn : cb ∉ c.pending) (hr : ¬ expiryRearms cx env cb c) :
    (runTimer cx env cb c).Tended ∧ Roomily c (runTimer cx env cb c) := by
  have hl := pending_length hp.toCoherent h
  have hroom : ∀ l : List TimerCallback, l.length ≤ 2 →
      c.timers.schedTimers.length + l.length ≤ maxSchedTimers := fun l hl2 =>
    (Nat.add_le_add hl hl2).trans (by decide)
  cases cb with
  | mfFwdSafetyTimeoutExpired => exact h.still (handleProtocolError_schedules cx env c _)
  | mfBackCycleTimeoutExpired =>
    have hs := mfBackCycleTimeoutExpired_schedules cx env c
    split_ifs at hs with hc
    · refine h.schedules hs (by decide) (fun x hx hq => ?_) (by simp) (by simp)
        fun _ => hroom _ (by decide)
      rcases List.mem_cons.mp hx with rfl | hx
      · exact hr ⟨hc, hq⟩
      · obtain rfl := List.mem_singleton.mp hx
        exact hn hq
    · exact h.still hs
  | mfBackResumeCycle => exact h.still (setSilence_schedules cx env c)
  | seizeTimeoutExpired => exact h.still (handleProtocolError_schedules cx env c _)
  | r2SeizePersistExpired =>
    have hs := sendClearForward_schedules cx env c
    split_ifs at hs with hc
    · refine h.schedules hs (by decide) (fun x hx hq => ?_) (by simp) (by simp)
        fun _ => hroom _ (by decide)
      obtain rfl := List.mem_singleton.mp hx
      exact hr ⟨hc, hq⟩
    · exact h.still hs
  | r2AnswerTimeoutExpired => exact h.still (reportCallDisconnection_schedules c _)
  | readyToAnswer => exact h.still (.emit _ c)
  | doubleAnswerHandler =>
    refine h.schedules (doubleAnswerHandler_schedules cx env c) (by decide) (fun x hx hq => ?_)
      (by simp) (by simp) fun _ => hroom _ (by decide)
    obtain rfl := List.mem_singleton.mp hx
    exact hn hq
  | r2MeteringPulse => exact h.still (r2MeteringPulse_schedules c)
  | r2SetCallDown => exact h.still (reportCallEnd_schedules cx env c)
  | persistenceCheckExpired => exact persistenceCheckExpired_tended hm hq hp h hn hr
  | startDialingDtmf => exact h.still (startDialingDtmf_schedules c)

end Expiry

section Inputs

/-- The call of the user. -/
theorem apiCall_tended (hm : cx.Mfc) (hp : c.control.Phased) (h : c.Tended) {a : ApiCall}
    (hr : ¬ callRearms cx env a c) : (apiCall cx env a c).1.Tended ∧ Roomily c (apiCall cx env a c).1 := by
  have hl := pending_length hp.toCoherent h
  have hroom : ∀ l : List TimerCallback, l.length ≤ 2 →
      c.timers.schedTimers.length + l.length ≤ maxSchedTimers := fun l hl2 =>
    (Nat.add_le_add hl hl2).trans (by decide)
  -- a purpose for which no timer waits
  have one : ∀ {cb : TimerCallback} {d}, Schedules [cb] c d → cb ∉ c.pending →
      (.seizeTimeoutExpired = cb → c.mfReadTone = 0) → .mfFwdSafetyTimeoutExpired ≠ cb →
      d.Tended ∧ Roomily c d := by
    intro cb d hs hn hz hw
    refine h.schedules hs (List.nodup_singleton _) (fun x hx => ?_) (fun hx => hz ?_)
      (fun hx => absurd ?_ hw) fun _ => hroom _ (by simp)
    · rwa [List.mem_singleton.mp hx]
    · exact List.mem_singleton.mp hx
    · exact List.mem_singleton.mp hx
  have hans : ∀ a, (a = .answerCall ∨ ∃ mode, a = .answerCallWithMode mode) →
      (apiCall cx env a c).1.Tended ∧ Roomily c (apiCall cx env a c).1 := by
    intro a ha
    have hs := answerCall_schedules cx env c a ha
    split_ifs at hs with hd
    · have hac : c.callState = .accepted := by
        by_contra hac
        simp [doAnswer, hm.dial, hm.detect, hac] at hd
      exact one hs (fun hx => (hp.double hx).2 (by rw [show c.control.callState = _ from hac]; trivial))
        (by rintro ⟨⟩) (by rintro ⟨⟩)
    · exact h.still hs
  cases a with
  | makeCall ani dnis category restricted =>
    simp only [apiCall, makeCall]
    split_ifs with h1 h2 h3 h4
    · exact h.still (.refl c)
    · exact h.still (.refl c)
    · exact h.still (.refl c)
    · exact h.still (setCasSignal_schedules cx env c _)
    · have hi : c.callState = .idle := not_not.mp h2
      have hs := (setCasSignal_schedules cx env c .seize).andThen
        (placeCall_schedules cx env _ ani dnis category restricted)
      refine one hs (fun hx => ?_) (fun _ => h.fresh (.inl hi)) (by rintro ⟨⟩)
      obtain ⟨t, ht, he⟩ := List.mem_map.mp hx
      cases (hp.toCoherent.channel.rest hi).2.2.2.2 t ht |>.symm.trans he
  | acceptCall mode =>
    have hs := acceptCall_schedules cx env c hm mode
    split_ifs at hs with hc
    · exact one hs (fun hx => hr ⟨hc.1, hc.2, hx⟩) (by rintro ⟨⟩) (by rintro ⟨⟩)
    · exact h.still hs
  | answerCall => exact hans _ (.inl rfl)
  | answerCallWithMode mode => exact hans _ (.inr ⟨mode, rfl⟩)
  | disconnectCall cause =>
    simp only [apiCall, disconnectCall]
    split_ifs with h1 h2
    · exact h.still (.refl c)
    · have hs := disconnectBackward_schedules cx env c hm cause
      split_ifs at hs with hc
      · exact one hs (fun hx => hr (.inl ⟨h2, hc.1, hc.2, hx⟩)) (by rintro ⟨⟩) (by rintro ⟨⟩)
      · exact h.still hs
    · have hd : c.direction = .forward := hp.toCoherent.forward (.inr (.inr ⟨h2, h1⟩))
      have hs := disconnectForward_schedules cx env c
      unfold clearTimers at hs
      split_ifs at hs with hg hc
      · refine one hs (fun hx => ?_) (by rintro ⟨⟩) (by rintro ⟨⟩)
        have ha := hp.persist hx
        rw [show c.control.r2State = _ from hg] at ha
        exact ha.elim
      · exact one hs (fun hx => hr (.inr ⟨hd, hc.1, hg, hc.2.1, hc.2.2, hx⟩)) (by rintro ⟨⟩) (by rintro ⟨⟩)
      · exact h.still hs
  | ackCall => exact h.still (ackCall_schedules cx env c)
  | setIdle => exact h.still (setIdle_schedules cx env c)
  | setBlocked => exact h.still (setBlocked_schedules cx env c)

/-- A tone comes on. What waited for it is cancelled first. -/
theorem handleToneOn_tended (hq : env.Quiet) (hp : c.control.Phased) (h : c.Tended)
    (hm : c.mfState ≠ .offState) (tone : Tone) :
    (handleToneOn cx env tone c).Tended ∧ Roomily c (handleToneOn cx env tone c) := by
  have hl := pending_length hp.toCoherent h
  have hidle : c.callState ≠ .idle := fun hi => hm (hp.toCoherent.channel.rest hi).1
  have hseize : c.r2State ≠ .seizeTxd := fun hs =>
    hm (hp.silent (show c.control.r2State.Silent by rw [show c.control.r2State = _ from hs]; trivial))
  -- the channel with the new tone, when the timer for which it must be silent is gone
  have hc : ∀ slot, .mfFwdSafetyTimeoutExpired ∉ ((c.setMfReadTone tone).cancelTimer slot).pending →
      ((c.setMfReadTone tone).cancelTimer slot).Tended ∧
        Roomily c ((c.setMfReadTone tone).cancelTimer slot) := by
    intro slot hn
    refine ⟨⟨h.tidy.cancelTimer slot, fun hx => absurd hx hn, fun hx => ?_⟩,
      [.cancel slot], rfl, by simp [TimerOp.Proper], ?_⟩
    · exact hx.elim (absurd · hidle) (absurd · hseize)
    · rintro pre op post he hop
      rcases List.cons_eq_append_iff.mp he with ⟨-, he⟩ | ⟨l, -, he⟩
      · obtain ⟨rfl, -⟩ := List.cons.inj he
        exact absurd rfl hop
      · exact absurd he (by simp)
  simp only [handleToneOn]
  split
  all_goals rename_i hd
  · have hs := handleForwardMfTone_schedules cx env (c.setMfReadTone tone) hq tone
    have hn : .mfFwdSafetyTimeoutExpired ∉ ((c.setMfReadTone tone).cancelTimer .mfBackCycle).pending :=
      fun hx => hp.toCoherent.absent hd id (pending_cancelTimer _ _ hx)
    refine Roomily.andThen (hc _ hn) fun hx => hx.schedules hs (by decide) (fun cb hcb => ?_)
      (by simp) (by simp) fun _ => ?_
    · obtain rfl := List.mem_singleton.mp hcb
      exact h.tidy.cancelled .mfBackCycle
    · have hle := cancelTimer_length .mfBackCycle (c.setMfReadTone tone)
      have hmax : maxSchedTimers = 10 := rfl
      have hlen : askTimers.length = 1 := rfl
      have hsame : (c.setMfReadTone tone).timers.schedTimers.length = c.timers.schedTimers.length := rfl
      omega
  · exact Roomily.andThen (hc .mfFwdSafety (h.tidy.cancelled .mfFwdSafety)) fun hx =>
      hx.still (setSilence_schedules cx env _)
  · exact absurd (hp.toCoherent.channel.idle_iff.mpr hd) hidle

/-- A tone goes off. -/
theorem handleToneOff_tended (hq : env.Quiet) (hp : c.control.Phased) (h : c.Tended)
    (hm : c.mfState ≠ .offState) (ht : c.mfReadTone ≠ 0)
    (hr : ¬ (c.direction = .forward ∧ takesForAcceptance cx c ∧ c.r2State ≠ .answerRxdMfPending ∧
      .r2AnswerTimeoutExpired ∈ c.pending)) :
    (handleToneOff cx env c).Tended ∧ Roomily c (handleToneOff cx env c) := by
  have hl := pending_length hp.toCoherent h
  have hroom : ∀ l : List TimerCallback, l.length ≤ 2 →
      c.timers.schedTimers.length + l.length ≤ maxSchedTimers := fun l hl2 =>
    (Nat.add_le_add hl hl2).trans (by decide)
  have hz : ∀ {d : R2Chan} {l}, Schedules l c d → Schedules l c (d.setMfReadTone 0) := fun hs =>
    hs.andLast ⟨⟨[], rfl, by simp, by simp⟩, .inr rfl, .inl, .inl⟩
  simp only [handleToneOff]
  split
  all_goals rename_i hd
  · refine h.schedules (hz (handleForwardMfSilence_schedules cx env c)) (by decide)
      (fun cb hcb hx => ?_) (by simp) (by simp) fun _ => hroom _ (by decide)
    obtain rfl := List.mem_singleton.mp hcb
    exact hm (hp.delay hx).1
  · have hs := hz (@handleBackwardMfSilence_schedules cx _ c hq)
    unfold silenceTimers at hs
    split_ifs at hs with ha
    · refine h.schedules hs (by decide) (fun cb hcb hx => ?_) (by simp) (by simp)
        fun _ => hroom _ (by decide)
      obtain rfl := List.mem_singleton.mp hcb
      exact hr ⟨hd, ha.1, ha.2, hx⟩
    · refine h.schedules hs (by decide) (fun cb hcb hx => ?_) (by simp) (fun _ => rfl)
        fun _ => hroom _ (by decide)
      rcases List.mem_cons.mp hcb with rfl | hcb
      · exact hp.toCoherent.absent hd id hx
      · obtain rfl := List.mem_singleton.mp hcb
        exact ht (h.safety hx)
  · exact h.still (hz (handleProtocolError_schedules cx env c _))

theorem handleMfTone_tended (hq : env.Quiet) (hp : c.control.Phased) (h : c.Tended)
    (hm : c.mfState ≠ .offState) {tone : Tone} (hr : ¬ toneRearms cx env tone c) :
    (handleMfTone cx env tone c).Tended ∧ Roomily c (handleMfTone cx env tone c) := by
  have hc := checkThreshold_control cx env tone c
  have hk : (checkThreshold cx env tone c).1.Tended ∧ Roomily c (checkThreshold cx env tone c).1 :=
    h.still (checkThreshold_schedules cx env c tone)
  have hmf : (checkThreshold cx env tone c).1.mfState = c.mfState := congrArg Control.mfState hc
  simp only [handleMfTone]
  split_ifs with h1 h2 h3 h4 h5 h6
  · exact h.still (.refl c)
  · exact h.still (handleProtocolError_schedules cx env c _)
  · exact hk
  · exact Roomily.andThen hk fun hx => handleToneOn_tended hq (hc ▸ hp) hx (hmf ▸ hm) tone
  · exact h.still (.refl c)
  all_goals obtain rfl : tone = 0 := not_not.mp h1
  · exact hk
  · have hrt : (checkThreshold cx env 0 c).1.mfReadTone ≠ 0 := by
      have hframe : ∀ d : R2Chan, (toneLongEnough cx env d).1.mfReadTone = d.mfReadTone := by
        intro d
        unfold toneLongEnough
        split <;> rfl
      unfold checkThreshold
      split_ifs
      · exact h5
      · split
        · exact h5
        · rw [hframe]
          exact h5
      · rw [hframe]
        exact h5
    refine Roomily.andThen hk fun hx => handleToneOff_tended hq (hc ▸ hp) hx (hmf ▸ hm) hrt ?_
    rintro ⟨hd, ha, hs, hw⟩
    have hdir : c.direction = .forward := (congrArg Control.direction hc).symm.trans hd
    have hst : (checkThreshold cx env 0 c).1.r2State = c.r2State := congrArg Control.r2State hc
    refine hr ⟨hdir, ⟨rfl, hm, h5, not_not.mp h6, ?_⟩, hst ▸ hs, ?_⟩
    · unfold silenceAdvances
      rw [hd]
      exact ha
    · have hpend : (checkThreshold cx env 0 c).1.pending = c.pending := congrArg Control.pending hc
      rwa [← hpend]

theorem handleAlarm_tended (hm : cx.Mfc) (hq : env.Quiet) (h : c.Tended) (on : Bool) :
    (handleAlarm cx env on c).Tended ∧ Roomily c (handleAlarm cx env on c) := by
  have he : ((c.setInalarm on).emit (.onHardwareAlarm on)).Tended ∧
      Roomily c ((c.setInalarm on).emit (.onHardwareAlarm on)) := h.still (.same rfl rfl id id)
  have hf : ∀ d : R2Chan, Schedules [] d (forgetLine d) := fun d => .same rfl rfl id id
  have hin : ((c.setInalarm on).emit (.onHardwareAlarm on)).inalarm = on := rfl
  simp only [handleAlarm, handleAlarmState]
  generalize (c.setInalarm on).emit (.onHardwareAlarm on) = d at he hin
  rw [hin]
  have hi := setIdle_control cx env d
  have hb := setBlocked_control cx env d
  split_ifs with h1 h2 h3
  · exact Roomily.andThen he fun hx =>
      hx.still ((handleProtocolError_schedules cx env _ _).andThen (hf _))
  · exact Roomily.andThen he fun hx => hx.still (hf _)
  · refine Roomily.andThen (Roomily.andThen he fun hx => hx.still (setIdle_schedules cx env _))
      fun hx => handleCas_tended hm hq ?_ hx ?_
    · rw [hi]
      exact Control.phased_reset _ _ (.inl rfl)
    · rintro ⟨cas, -, hr, -⟩
      have hs : (setIdle cx env d).1.r2State = .idle := congrArg Control.r2State hi
      rw [hs] at hr
      exact hr.elim (by rintro ⟨⟩) (by rintro ⟨⟩)
  · refine Roomily.andThen (Roomily.andThen he fun hx => hx.still (setBlocked_schedules cx env _))
      fun hx => handleCas_tended hm hq ?_ hx ?_
    · rw [hb]
      exact Control.phased_reset _ _ (.inr rfl)
    · rintro ⟨cas, -, hr, -⟩
      have hs : (setBlocked cx env d).1.r2State = .blocked := congrArg Control.r2State hb
      rw [hs] at hr
      exact hr.elim (by rintro ⟨⟩) (by rintro ⟨⟩)

/-- The channel in which an input finds the timers: of an expiry, without the timer called. -/
def R2Chan.called (i : Input) (c : R2Chan) : R2Chan :=
  match i with
  | .timer id => if (c.timer? id).isSome then c.mapTimers (·.removeId id) else c
  | _ => c

/-- What one step preserves, unless it schedules a timer that still waits. -/
theorem step_tended (hm : cx.Mfc) (hq : env.Quiet) {i : Input} (hp : c.control.Phased)
    (h : c.Tended) (hr : ¬ Rearms cx env i c) :
    (step cx env i c).Tended ∧ Roomily (c.called i) (step cx env i c) := by
  have hp0 : c.start.control.Phased :=
    hp.frame (start_coherent hp.toCoherent) rfl rfl rfl (List.Subset.refl _)
  have h0 : c.start.Tended := ⟨h.tidy, h.safety, h.fresh⟩
  cases i with
  | cas => exact handleCas_tended hm hq hp0 h0 hr
  | mfTone tone =>
    simp only [step, handleMedia]
    split_ifs with hmf
    · exact h0.still (.refl _)
    · exact handleMfTone_tended hq hp0 h0 hmf hr
  | timer id =>
    simp only [step, expire]
    cases ht : c.start.timer? id with
    | none =>
      have ht : c.timer? id = none := ht
      simp only [R2Chan.called, ht, Option.isSome_none, Bool.false_eq_true, if_false]
      exact h0.still (.refl _)
    | some t =>
      have ht' : c.timer? id = some t := ht
      simp only [R2Chan.called, ht', Option.isSome_some, if_true]
      have hpx : (c.start.mapTimers (·.removeId id)).control.Phased :=
        hp0.frame (hp0.toCoherent.drop (pending_removeId _ _)) rfl rfl rfl (pending_removeId _ _)
      exact runTimer_tended hm hq hpx (expired_tended h0) (tidy_expired h0 ht) fun hx => hr ⟨t, ht', hx⟩
  | api a => exact apiCall_tended hm hp0 h0 hr
  | alarm on => exact handleAlarm_tended hm hq h0 on

end Inputs

section Runs

theorem started_tended (h : Started cx c) : c.Tended := by
  cases h with
  | idle env d =>
    obtain ⟨ht, hf, hi⟩ : (setIdle cx env d).1.timers = TimerQueue.cancelAllTimers ∧
        (setIdle cx env d).1.mfReadTone = 0 ∧ True := by
      obtain ⟨⟨rx, r, w, x, y, hf⟩, -⟩ := protoInit_reset cx d
      exact ⟨congrArg R2Chan.timers hf, congrArg R2Chan.mfReadTone hf, trivial⟩
    exact ⟨ht ▸ TimerQueue.tidy_cancelAll, fun _ => hf, fun _ => hf⟩
  | blocked env d =>
    obtain ⟨ht, hf, hi⟩ : (setBlocked cx env d).1.timers = TimerQueue.cancelAllTimers ∧
        (setBlocked cx env d).1.mfReadTone = 0 ∧ True := by
      obtain ⟨⟨rx, r, w, x, y, hf⟩, -⟩ := protoInit_reset cx d
      exact ⟨congrArg R2Chan.timers hf, congrArg R2Chan.mfReadTone hf, trivial⟩
    exact ⟨ht ▸ TimerQueue.tidy_cancelAll, fun _ => hf, fun _ => hf⟩

/-- Callbacks do not call back, and no input schedules a timer that still waits. -/
def Singly (cx : R2Context) (c : R2Chan) (t : Tick) : Prop :=
  t.env.Quiet ∧ ¬ Rearms cx t.env t.input c

theorem run_tended (hm : cx.Mfc) (hc : Started cx c) {ts : List Tick}
    (ht : Runs.Along (tick cx) (Singly cx) ts c) :
    (run cx ts c).1.control.Phased ∧ (run cx ts c).1.Tended :=
  Runs.exec_invariant (f := tick cx) (P := fun c => c.control.Phased ∧ c.Tended)
    (fun _ t (hx : Singly cx _ t) h =>
      ⟨step_phased hm hx.1 t.input h.1, (step_tended hm hx.1 h.1 h.2 hx.2).1⟩) ts c ht
    ⟨started_phased hc, started_tended hc⟩

/-- In such runs there is at most one timer for a purpose, to be found by its slot if it has
one, and there is always room for the timers that the next step asks for. -/
theorem timers_single (hm : cx.Mfc) (hc : Started cx c) (ts : List Tick)
    (ht : Runs.Along (tick cx) (Singly cx) ts c) :
    (run cx ts c).1.pending.Nodup ∧
      (∀ slot : TimerSlot, slot.purpose ∉ ((run cx ts c).1.cancelTimer slot).pending) ∧
      (run cx ts c).1.timers.schedTimers.length < maxSchedTimers ∧
      ∀ t, Singly cx (run cx ts c).1 t →
        Roomily ((run cx ts c).1.called t.input) (step cx t.env t.input (run cx ts c).1) := by
  obtain ⟨hp, h⟩ := run_tended hm hc ht
  have hl := pending_length hp.toCoherent h
  exact ⟨h.tidy.single, fun slot => h.tidy.cancelled slot, Nat.lt_of_le_of_lt hl (by decide),
    fun t hx => (step_tended hm hx.1 hp h hx.2).2⟩

/-- A caller hangs up once the seize is acknowledged. -/
theorem timers_single_cleared :
    let ts : List Tick :=
      [⟨Env.fair 0x9, .cas⟩,
        ⟨Env.fair 0x9, .api (.makeCall none [Tone.t5] .nationalSubscriber false)⟩,
        ⟨Env.fair 0xD, .cas⟩, ⟨Env.fair 0xD, .api (.disconnectCall .normalClearing)⟩]
    let c := (run briefCx ts (setIdle briefCx (Env.fair 0x9) R2Chan.new).1).1
    c.pending.Nodup ∧ (∀ slot : TimerSlot, slot.purpose ∉ (c.cancelTimer slot).pending) ∧
      c.timers.schedTimers.length < maxSchedTimers ∧
      ∀ t, Singly briefCx c t → Roomily (c.called t.input) (step briefCx t.env t.input c) :=
  timers_single ⟨rfl, rfl⟩ (.idle _ _) _
    ⟨⟨fun _ => rfl, by decide⟩, ⟨fun _ => rfl, by decide⟩, ⟨fun _ => rfl, by decide⟩,
      ⟨fun _ => rfl, by decide⟩, trivial⟩

/-- Every further hang-up schedules the timer that takes the call down once more, until
there is no room left for it. -/
theorem second_clear_schedules_again :
    let clear : Nat → R2Chan := fun n =>
      (run briefCx (List.replicate n ⟨Env.fair 0xD, .api (.disconnectCall .normalClearing)⟩)
        (briefCaller 3)).1
    (clear 1).pending = [.r2SetCallDown] ∧ ¬ (clear 2).pending.Nodup ∧
      (clear 2).pending = [.r2SetCallDown, .r2SetCallDown] ∧
      (clear 10).timers.schedTimers.length = maxSchedTimers ∧
      (addTimer (Env.fair 0xD) 3000 .r2SetCallDown (clear 10)).2 = -1 := by
  decide

end Runs

end OpenR2
