import OpenR2.Proofs.Callbacks

namespace OpenR2

/-- A blocked channel without a call. Since the step had done what is in `pre`, it has put
only the block pattern on the line. -/
structure R2Chan.Blocked (cx : R2Context) (pre : List Act) (c : R2Chan) : Prop where
  r2State : c.r2State = .blocked
  callState : c.callState = .idle
  direction : c.direction = .stopped
  readTone : c.mfReadTone = 0
  timers : ∀ t ∈ c.timers.schedTimers, t.callback = .persistenceCheckExpired
  signal : c.casTxSignal = .block ∨ c.casTxSignal = .invalid
  sent : ∃ as, c.out = pre ++ as ∧ ∀ bits, .setCas bits ∈ as → bits = cx.pattern .block

namespace R2Chan.Blocked

variable {cx : R2Context} {env : Env} {pre : List Act} {c d : R2Chan}

/-- A change of the other fields, with acts that put nothing on the line. -/
theorem same (h : c.Blocked cx pre) (hr : d.r2State = c.r2State) (hc : d.callState = c.callState)
    (hd : d.direction = c.direction) (hm : d.mfReadTone = c.mfReadTone)
    (ht : ∀ t ∈ d.timers.schedTimers, t ∈ c.timers.schedTimers ∨ t.callback = .persistenceCheckExpired)
    (hs : d.casTxSignal = c.casTxSignal) {l : List Act} (ho : d.out = c.out ++ l)
    (ha : ∀ bits, .setCas bits ∉ l) : d.Blocked cx pre := by
  obtain ⟨bs, hb, hsent⟩ := h.sent
  refine ⟨hr.trans h.r2State, hc.trans h.callState, hd.trans h.direction, hm.trans h.readTone,
    fun t hx => (ht t hx).elim (h.timers t) id, by rw [hs]; exact h.signal, bs ++ l,
    by rw [ho, hb, List.append_assoc], fun bits hx => ?_⟩
  exact (List.mem_append.mp hx).elim (hsent bits) fun hx => (ha bits hx).elim

theorem did {a : Act} (h : c.Blocked cx pre) (ha : ∀ bits, .setCas bits ≠ a) : (c.did a).Blocked cx pre :=
  h.same rfl rfl rfl rfl (fun _ => .inl) rfl rfl fun bits hb => ha bits (List.mem_singleton.mp hb)

theorem emit (h : c.Blocked cx pre) (e : Event) : (c.emit e).Blocked cx pre := h.did (by simp)

theorem logRx (h : c.Blocked cx pre) (s : CasSignal) : (c.logRx s).Blocked cx pre :=
  h.same rfl rfl rfl rfl (fun _ => .inl) rfl (List.append_nil _).symm (by simp)

theorem setPersistence (h : c.Blocked cx pre) (cas : Option Nat) : (c.setPersistence cas).Blocked cx pre :=
  h.same rfl rfl rfl rfl (fun _ => .inl) rfl (List.append_nil _).symm (by simp)

/-- Timers that leave the queue. -/
theorem mapTimers {f : TimerQueue → TimerQueue} (h : c.Blocked cx pre)
    (hf : (f c.timers).schedTimers ⊆ c.timers.schedTimers) : (c.mapTimers f).Blocked cx pre :=
  h.same rfl rfl rfl rfl (fun _ hx => .inl (hf hx)) rfl (List.append_nil _).symm (by simp)

theorem cancelTimer (h : c.Blocked cx pre) (slot : TimerSlot) : (c.cancelTimer slot).Blocked cx pre := by
  refine h.mapTimers ?_
  unfold TimerQueue.cancelTimer
  dsimp only
  split_ifs
  · exact List.Subset.refl _
  · exact List.eraseP_subset
  · exact List.Subset.refl _

theorem checkPersistence (h : c.Blocked cx pre) (cas : Nat) :
    (checkPersistence cx env cas c).Blocked cx pre := by
  have h := h.setPersistence (some cas)
  unfold OpenR2.checkPersistence armTimer addTimer
  generalize c.setPersistence (some cas) = d at h
  cases env.gettimeofday d.out with
  | none => exact ((h.did (by simp)).emit .onOsError).mapTimers (List.Subset.refl _)
  | some now =>
    refine h.same rfl rfl rfl rfl (fun t ht => ?_) rfl (l := [.gettimeofday]) rfl (by simp)
    simp only [R2Chan.mapTimers, TimerQueue.setSlot, TimerQueue.addTimer] at ht
    split_ifs at ht
    · exact .inl ht
    · rcases List.mem_orderedInsert _ |>.mp ht with rfl | ht
      · exact .inr rfl
      · exact .inl ht

/-- The line has been read. -/
theorem getCas (h : c.Blocked cx pre) (raw : Nat) : ((c.did .getCas).setCasRawRead raw).Blocked cx pre :=
  h.same rfl rfl rfl rfl (fun _ => .inl) rfl (l := [.getCas]) rfl (by simp)

theorem pollCas (h : c.Blocked cx pre) : (pollCas cx env c).1.Blocked cx pre := by
  have hd : (c.did .getCas).Blocked cx pre := h.did (by simp)
  unfold OpenR2.pollCas ioGetCas
  cases env.getCas c.out with
  | none => exact hd
  | some raw =>
    have hr := h.getCas raw
    dsimp only
    split_ifs
    · exact (hr.cancelTimer _).setPersistence none
    · exact hr
    · exact (hr.cancelTimer _).checkPersistence _
    · exact hr

theorem handleCas (h : c.Blocked cx pre) : (handleCas cx env c).Blocked cx pre := by
  have hp : (casPattern cx env c).1.Blocked cx pre := by
    unfold casPattern
    split
    · exact h.pollCas
    · split_ifs
      · exact h.setPersistence none
      · exact h.pollCas
  unfold OpenR2.handleCas
  generalize casPattern cx env c = r at hp
  obtain ⟨d, p⟩ := r
  cases p with
  | none => exact hp
  | some cas =>
    have hs : (d.setCasRead cas).Blocked cx pre :=
      hp.same rfl rfl rfl rfl (fun _ => .inl) rfl (List.append_nil _).symm (by simp)
    dsimp only [actOnCas]
    split_ifs
    · exact hp
    · simp only [casSwitch, hs.r2State, casBlocked]
      split_ifs
      · exact (hs.logRx _).emit _
      · exact hs.logRx _

theorem persistenceCheckExpired (h : c.Blocked cx pre) :
    (persistenceCheckExpired cx env c).Blocked cx pre := by
  have h0 : (c.mapTimers (·.setSlot .casPersistenceCheck 0)).Blocked cx pre :=
    h.mapTimers (List.Subset.refl _)
  unfold OpenR2.persistenceCheckExpired ioGetCas
  generalize c.mapTimers (·.setSlot .casPersistenceCheck 0) = d at h0
  have hd : (d.did .getCas).Blocked cx pre := h0.did (by simp)
  cases env.getCas d.out with
  | none => exact hd
  | some raw =>
    have hr := h0.getCas raw
    dsimp only
    split_ifs
    · exact hr.handleCas
    · exact hr.checkPersistence _
    · exact hr.setPersistence none

/-- A tone that is too short, or a silence, does nothing to a channel without direction. -/
theorem handleMfTone (h : c.Blocked cx pre) (tone : Tone)
    (hn : tone ≠ 0 → (checkThreshold cx env tone c).2 ≠ 0) : (handleMfTone cx env tone c).Blocked cx pre := by
  have hr := h.readTone
  unfold OpenR2.handleMfTone
  by_cases h0 : tone = 0
  · rw [if_neg (not_not.mpr h0), if_pos hr]
    exact h
  · rw [if_pos h0, if_neg fun hx => h0 (hx.symm.trans hr), if_neg (not_not.mpr hr)]
    dsimp only
    rw [if_pos (hn h0)]
    obtain ⟨x, n, as, hf, ha⟩ := checkThreshold_frame cx env tone c
    rw [hf]
    exact h.same rfl rfl rfl rfl (fun _ => .inl) rfl (l := as) rfl fun bits hb => nomatch ha _ hb

/-- What the code asks for after a callback leaves the channel blocked, where the tone is taken. -/
theorem goOn (h : c.Blocked cx pre) {s : Stage} (ha : s.asked ≠ .acceptedTxd)
    (hr : ¬ Refuses env (s.asksWith cx c.mfGroup) ((c.setMfGroup s.group).setMfState s.asked)) :
    (goOn cx env s c).Blocked cx pre := by
  have hb : ((c.setMfGroup s.group).setMfState s.asked).Blocked cx pre :=
    h.same rfl rfl rfl rfl (fun _ => .inl) rfl (List.append_nil _).symm (by simp)
  simp only [OpenR2.goOn, if_neg ha]
  generalize (c.setMfGroup s.group).setMfState s.asked = d at hb hr
  have ht := prepareMfTone_timers cx env (by rw [hb.direction]; decide) hr
  rcases prepareMfTone_cases cx env (s.asksWith cx c.mfGroup) d with ⟨-, ⟨q, w, hf⟩, as, ho, hx⟩ | ⟨hx, -⟩
  · rw [hf] at ht ⊢
    refine hb.same rfl rfl rfl rfl (fun t hm => .inl ?_) rfl (l := as) ho fun bits hm => hx _ hm
    rw [← ht]
    exact hm
  · exact absurd hx hr

end R2Chan.Blocked

section Block

variable {cx : R2Context} {env : Env} {pre : List Act} {c : R2Chan}

/-- Whatever the channel did before, `set_blocked` blocks it. -/
theorem setBlocked_blocks : (setBlocked cx env c).1.Blocked cx (setBlocked cx env c).1.out := by
  obtain ⟨⟨rx, r, w, x, y, hf⟩, -⟩ := protoInit_reset cx c
  have hb : (setBlocked cx env c).1 =
      (((protoInit cx c).setR2State .blocked).setCasTx (cx.casSignals .block) .block).did
        (.setCas (cx.pattern .block)) := rfl
  have hm : (setBlocked cx env c).1.mfReadTone = (protoInit cx c).mfReadTone := rfl
  refine ⟨rfl, congrArg R2Chan.callState hf, congrArg R2Chan.direction hf, ?_, fun t ht => ?_, .inl rfl,
    [], (List.append_nil _).symm, by simp⟩
  · rw [hm, hf]
  · have ht : t ∈ (protoInit cx c).timers.schedTimers := ht
    rw [hf] at ht
    exact absurd ht List.not_mem_nil

/-- It is blocked again when an alarm goes. -/
theorem R2Chan.Blocked.setBlocked (h : c.Blocked cx pre) : (setBlocked cx env c).1.Blocked cx pre := by
  have hb := @setBlocked_blocks cx env c
  obtain ⟨as, ho, ha⟩ := setBlocked_out cx c env
  obtain ⟨bs, hs, hsent⟩ := h.sent
  refine ⟨hb.1, hb.2, hb.3, hb.4, hb.5, hb.6, bs ++ (as ++ [.callState .idle, .setCas (cx.pattern .block)]),
    ?_, fun bits hx => ?_⟩
  · rw [ho, hs]
    simp [R2Context.pattern]
  · rcases List.mem_append.mp hx with hx | hx
    · exact hsent bits hx
    rcases List.mem_append.mp hx with hx | hx
    · exact (ha _ hx).elim
    · simpa using hx

end Block

def Input.IsMakeCall : Input → Prop
  | .api (.makeCall ..) => True
  | _ => False

/-- What the code goes on with after the callback is no part of a blocked channel: it
acknowledges the seize, accepts the call at once, or asks with a tone that is refused. -/
def Undoes (cx : R2Context) (c : R2Chan) (t : Tick) : Prop :=
  (switched cx t.env t.input c ≠ none ∧ cx.autoSeizeAck = true) ∨
    ∃ tone, Comes cx c t tone ∧ tone.isDigit = true ∧ (c.stage.ExpectsDnis cx ∨ c.stage.ExpectsAni cx) ∧
      ((c.goesOnTo cx t.env tone).asked = .acceptedTxd ∨
        Refuses t.env ((c.goesOnTo cx t.env tone).asksWith cx (c.afterCallback cx t.env tone).mfGroup)
          (((c.afterCallback cx t.env tone).setMfGroup (c.goesOnTo cx t.env tone).group).setMfState
            (c.goesOnTo cx t.env tone).asked))

section Steps

variable {cx : R2Context} {env : Env} {pre : List Act} {c d : R2Chan} {t : Tick} {f : R2Chan → R2Chan}

/-- The rest of a step in which the channel has been blocked. -/
theorem Calls.blocked (h : Calls cx c t .setBlocked d f) (hu : ¬ Undoes cx c t) :
    (tick cx c t).1.Blocked cx (setBlocked cx t.env d).1.out := by
  have hb := @setBlocked_blocks cx t.env d
  have hs : (tick cx c t).1 = f (setBlocked cx t.env d).1 := h.step
  rw [hs]
  cases h with
  | between => exact hb
  | inside h ha =>
    cases h with
    | init entry pattern alarm =>
      have hw : switched cx t.env t.input c ≠ none := by simp [switched, entry, pattern, alarm]
      dsimp only
      rw [if_neg fun hx => hu (.inl ⟨hw, hx⟩)]
      exact hb
    | digit comes isDigit expected =>
      rename_i tone
      have hc : c.afterCallback cx t.env tone = (setBlocked cx t.env
          ((c.digitStored cx t.env tone).emit (c.digitEvent cx tone))).1 := callback_of_call ha
      rw [← hc] at hb ⊢
      have hn := not_or.mp fun hx => hu (.inr ⟨tone, comes, isDigit, expected, hx⟩)
      exact hb.goOn hn.1 hn.2
    | accepted asks pending =>
      dsimp only
      rw [if_pos (.inl (by rw [hb.r2State]; decide))]
      exact hb.same rfl rfl rfl hb.readTone.symm (fun _ => .inl) rfl (List.append_nil _).symm (by simp)

end Steps

section Runs

variable {cx : R2Context}

end Runs

end OpenR2
