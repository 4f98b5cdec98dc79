import OpenR2.Proofs.Callbacks
import OpenR2.Proofs.ComingDown

namespace OpenR2

/-- What a call that was hung up must not do any more: be offered, accepted or answered,
and look up a digit to send. -/
def Act.Proceeds : Act → Prop
  | .event (.onCallOffered ..) | .event (.onCallAccepted _) | .event .onCallAnswered => True
  | .readDnis _ | .readAni _ => True
  | _ => False

instance : DecidablePred Act.Proceeds := fun a => by
  unfold Act.Proceeds
  split <;> exact inferInstance

/-- The user answers. -/
def MediaInput.Answers (i : MediaInput) : Prop :=
  i = .api .answerCall ∨ ∃ mode, i = .api (.answerCallWithMode mode)

/-- What the step of an input does before the channel is idle again, if it is. -/
def doneBeforeIdle (cx : R2Context) (m : MediaChan) (t : MediaTick) : List Act :=
  (mediaStep cx t.env t.input m).chan.out.takeWhile fun a => a ≠ .callState .idle

/-- The call goes on: by an event or a digit, by DTMF being dialled, by an answer on the line. -/
def GoesOn (cx : R2Context) (m : MediaChan) (t : MediaTick) : Prop :=
  (∃ a ∈ doneBeforeIdle cx m t, a.Proceeds) ∨
    .callState .idle ∉ (mediaStep cx t.env t.input m).chan.out ∧
      (mediaStep cx t.env t.input m).chan.dialingDtmf = true ∨
    t.input.Answers ∧ ∃ bits, .setCas bits ∈ doneBeforeIdle cx m t

/-- What makes it go on: the timers that the hang-up has left waiting for the acceptance and
for the dialling, and an answer that is not refused. -/
def SetsOff (cx : R2Context) (m : MediaChan) (t : MediaTick) : Prop :=
  (∃ id, t.input = .timer id ∧ ∃ u ∈ m.chan.timer? id,
      u.callback = .readyToAnswer ∨ u.callback = .startDialingDtmf) ∨
    t.input.Answers ∧
      ((cx.dialWithDtmf || cx.detectDtmf) = true ∨ m.chan.callState = .accepted)

/-- A caller who stays silent is asked for something else. -/
def R2Chan.AsksAgain (cx : R2Context) (c : R2Chan) : Prop :=
  cx.g1Tones.noMoreDnisAvailable = Tone.invalid ∧ c.mfGroup = .ga ∧
    (c.mfState = .dnisRqTxd ∨ c.mfState = .aniRqTxd)

/-- The register signalling of an incoming call goes on: a tone comes on and is handled, or the
wait for one ends and something else is asked for. -/
def Resumes (cx : R2Context) (m : MediaChan) (t : MediaTick) : Prop :=
  ∃ i ∈ m.input? t.input, (∃ tone, Comes cx m.chan ⟨t.env, i⟩ tone) ∨
    m.chan.direction = .backward ∧ m.chan.AsksAgain cx ∧ CycleExpires m.chan ⟨t.env, i⟩

/-- The line states in which a hang-up leaves a call that is not over, and what can follow. -/
def CasState.Cleared : CasState → Prop
  | .clearBackTxd | .forcedReleaseTxd | .clearFwdTxd | .clearBackAfterClearFwdRxd
  | .seizeTxdClearFwdPending | .doubleSeizureClearFwdPending | .doubleSeizure | .clearFwdRxd => True
  | _ => False

/-- An engine that a reset call has left running, and that has no part in this one. -/
structure R2Chan.Mute (c : R2Chan) : Prop where
  direction : c.direction = .forward
  dialing : c.dialingDtmf = false
  detecting : c.detectingDtmf = false
  group : ¬ c.mfGroup.Dials
  call : c.callState = .dialing ∨ c.callState = .disconnected

/-- An engine that the code has asked for more after the callback in which the call was hung up. -/
structure R2Chan.Asking (c : R2Chan) : Prop where
  direction : c.direction = .backward
  dialing : c.dialingDtmf = false
  detecting : c.detectingDtmf = false
  mfState : c.mfState ≠ .acceptedTxd

/-- A call that was hung up and is not over. `p` says that it was hung up in a callback. -/
structure R2Chan.Ended (p : Prop) (c : R2Chan) : Prop extends c.Orderly where
  live : c.callState ≠ .idle
  offered : c.callState ≠ .offered
  line : c.r2State.Cleared
  engine : c.mfState = .offState ∨ c.Mute ∨ p ∧ c.Asking

/-- The code goes from a call that was hung up to one, or to no call, and nothing proceeds. -/
def Subsides (p : Prop) (c d : R2Chan) : Prop :=
  ∃ as, (∀ a ∈ as, ¬ a.Proceeds ∧ a ≠ .callState .idle) ∧
    (d.Ended p ∧ d.out = c.out ++ as ∨ ∃ bs, d.out = c.out ++ as ++ .callState .idle :: bs)

section Subsides

variable {p : Prop} {cx : R2Context} {env : Env} {c d e : R2Chan}

theorem R2Chan.Orderly.mute (h : c.Orderly) (hr : c.r2State.Undialled) : c.Mute where
  direction := h.direction hr
  dialing := h.dialing (.inr hr)
  detecting := h.detecting (.inr hr)
  group := h.group (.inr hr)
  call := h.call hr

theorem R2Chan.Ended.not_dialing (h : c.Ended p) : c.dialingDtmf = false := by
  rcases h.engine with hm | hm | ⟨-, hm⟩
  · exact (h.wired hm).1
  · exact hm.dialing
  · exact hm.dialing

namespace Subsides

/-- The call is over, and whatever follows is no part of it. -/
theorem gone {l r : List Act} (ho : d.out = c.out ++ l ++ .callState .idle :: r)
    (ha : ∀ a ∈ l, ¬ a.Proceeds ∧ a ≠ .callState .idle) : Subsides p c d := ⟨l, ha, .inr ⟨r, ho⟩⟩

theorem ended {l : List Act} (h : d.Ended p) (ho : d.out = c.out ++ l)
    (ha : ∀ a ∈ l, ¬ a.Proceeds ∧ a ≠ .callState .idle) : Subsides p c d := ⟨l, ha, .inl ⟨h, ho⟩⟩

theorem refl (h : c.Ended p) : Subsides p c c := ended h (List.append_nil _).symm (by simp)

/-- Go on from a call that may be over. -/
theorem trans (h : Subsides p c d) (hn : d.Ended p → Subsides p d e) (ho : d.out <+: e.out) : Subsides p c e := by
  obtain ⟨as, ha, ⟨hd, hx⟩ | ⟨bs, hx⟩⟩ := h
  · obtain ⟨as', ha', h'⟩ := hn hd
    refine ⟨as ++ as', fun a hm => (List.mem_append.mp hm).elim (ha a) (ha' a), ?_⟩
    rcases h' with ⟨he, hx'⟩ | ⟨bs, hx'⟩
    · exact .inl ⟨he, by rw [hx', hx, List.append_assoc]⟩
    · exact .inr ⟨bs, by rw [hx', hx, List.append_assoc c.out]⟩
  · obtain ⟨cs, hc⟩ := ho
    refine gone (r := bs ++ cs) ?_ ha
    rw [← hc, hx, List.append_assoc, List.cons_append]

end Subsides

theorem Act.Closes.subsides {a : Act} (h : a.Closes) : ¬ a.Proceeds ∧ a ≠ .callState .idle := by
  cases a <;> first | exact h.elim | exact ⟨id, nofun⟩

theorem Act.Tuning.subsides {a : Act} (h : a.Tuning) : ¬ a.Proceeds ∧ a ≠ .callState .idle := by
  cases a with
  | event e => cases e <;> first | exact h.elim | exact ⟨id, nofun⟩
  | _ => first | exact h.elim | exact ⟨id, nofun⟩

theorem Act.Polls.subsides {a : Act} (h : a.Polls) : ¬ a.Proceeds ∧ a ≠ .callState .idle := by
  cases a with
  | event e => cases e <;> first | exact h.elim | exact ⟨id, nofun⟩
  | _ => first | exact h.elim | exact ⟨id, nofun⟩

theorem setIdle_subsides (c : R2Chan) : Subsides p c (setIdle cx env c).1 := by
  obtain ⟨as, ho, ha⟩ := setIdle_out cx c env
  exact .gone ho fun a hm => (ha a hm).subsides

theorem setBlocked_subsides (c : R2Chan) : Subsides p c (setBlocked cx env c).1 := by
  obtain ⟨as, ho, ha⟩ := setBlocked_out cx c env
  exact .gone ho fun a hm => (ha a hm).subsides

theorem handleProtocolError_subsides (reason : ProtocolError) (c : R2Chan) :
    Subsides p c (handleProtocolError cx env reason c) := by
  obtain ⟨as, ho, ha⟩ := handleProtocolError_out cx c env reason
  exact .gone ho fun a hm => (ha a hm).subsides

theorem reportCallEnd_subsides (c : R2Chan) : Subsides p c (reportCallEnd cx env c) := by
  obtain ⟨as, ho, ha⟩ := reportCallEnd_out cx c env
  exact .gone ho fun a hm => (ha a hm).subsides

/-- Changes that leave the call alone. -/
theorem R2Chan.Ended.same (h : c.Ended p) (ho : d.Orderly) (hc : d.callState = c.callState)
    (hr : d.r2State = c.r2State) (hm : d.mfState = c.mfState) (hd : d.direction = c.direction)
    (hg : d.mfGroup = c.mfGroup) (hx : d.dialingDtmf = c.dialingDtmf)
    (hy : d.detectingDtmf = c.detectingDtmf) : d.Ended p := by
  refine ⟨ho, by rw [hc]; exact h.live, by rw [hc]; exact h.offered, by rw [hr]; exact h.line, ?_⟩
  rcases h.engine with ho | hmute | ⟨hp, ha⟩
  · exact .inl (hm.trans ho)
  · exact .inr (.inl ⟨hd.trans hmute.direction, hx.trans hmute.dialing, hy.trans hmute.detecting,
      by rw [hg]; exact hmute.group, by rw [hc]; exact hmute.call⟩)
  · exact .inr (.inr ⟨hp, hd.trans ha.direction, hx.trans ha.dialing, hy.trans ha.detecting,
      by rw [hm]; exact ha.mfState⟩)

theorem Subsides.after {l : List Act} (ho : d.out = c.out ++ l)
    (ha : ∀ a ∈ l, ¬ a.Proceeds ∧ a ≠ .callState .idle) (h : Subsides p d e) : Subsides p c e := by
  obtain ⟨bs, hb, h⟩ := h
  refine ⟨l ++ bs, fun a hm => (List.mem_append.mp hm).elim (ha a) (hb a), ?_⟩
  rw [← List.append_assoc, ← ho]
  exact h

/-- The same call with other timers, and perhaps another tone on the line. -/
theorem R2Chan.Ended.tuned (h : c.Ended p) (ho : d.Orderly) (ht : c.Tuned d) :
    d.Ended p ∧ d.direction = c.direction ∧
      ∃ as, d.out = c.out ++ as ∧ ∀ a ∈ as, ¬ a.Proceeds ∧ a ≠ .callState .idle := by
  obtain ⟨⟨q, w, hf⟩, as, hout, ha⟩ := ht
  refine ⟨?_, by rw [hf], as, hout, fun a hm => (ha a hm).subsides⟩
  generalize d.out = o at hf
  subst hf
  exact h.same ho rfl rfl rfl rfl rfl rfl rfl

theorem R2Chan.Ended.tuned_subsides (h : c.Ended p) (ho : d.Orderly) (ht : c.Tuned d) : Subsides p c d := by
  obtain ⟨hd, -, as, hout, ha⟩ := h.tuned ho ht
  exact .ended hd hout ha

/-- The call is hung up, and lives. -/
def R2Chan.Closing (c d : R2Chan) : Prop :=
  d.Ended False ∧ d.direction = c.direction ∧
    ∃ as, d.out = c.out ++ as ∧ ∀ a ∈ as, ¬ a.Proceeds ∧ a ≠ .callState .idle

theorem R2Chan.Ended.weaken (h : c.Ended False) (p : Prop) : c.Ended p :=
  ⟨h.toOrderly, h.live, h.offered, h.line, h.engine.imp id (.imp id fun hx => hx.1.elim)⟩

theorem R2Chan.Closing.subsides (h : c.Closing d) : Subsides p c d := by
  obtain ⟨hd, -, as, ho, ha⟩ := h
  exact .ended (hd.weaken p) ho ha

theorem R2Chan.Ended.polled (h : c.Ended p) (hp : c.Polled d) :
    d.Ended p ∧ ∃ as, d.out = c.out ++ as ∧ ∀ a ∈ as, ¬ a.Proceeds ∧ a ≠ .callState .idle := by
  have ho := h.toOrderly.polled hp
  obtain ⟨⟨raw, s, hf⟩, -, as, hout, ha⟩ := hp
  refine ⟨?_, as, hout, fun a hm => (ha a hm).subsides⟩
  generalize d.timers = q at hf
  generalize d.out = o at hf
  subst hf
  exact h.same ho rfl rfl rfl rfl rfl rfl rfl

/-- The engine goes off, and the line is cleared. -/
theorem clearLine_closing (h : c.Orderly) (hl : c.callState ≠ .idle) (hn : c.callState ≠ .offered)
    (r : CasState) (hr : r.Cleared) (hu : ¬ r.Undialled) (sig : CasSignal) (hs : sig ≠ .invalid) :
    c.Closing (setCasSignal cx env sig (turnOffMfEngine cx (c.setR2State r))).1 := by
  have ho := @setCasSignal_orderly cx env _
    (@turnOffMfEngine_orderly cx _ (h.setR2State hu)) sig
  obtain ⟨⟨x, w, y, z, q, hf⟩, -, as, hout, ha⟩ := turnOffMfEngine_turnedOff cx (c.setR2State r)
  simp only [setCasSignal, if_neg hs] at ho ⊢
  generalize turnOffMfEngine cx (c.setR2State r) = d at *
  refine ⟨?_, ?_, as ++ [.setCas (cx.casSignals sig ||| cx.casNonr2Bits)], ?_, ?_⟩
  · generalize d.out = o at hf
    subst hf
    exact ⟨ho, hl, hn, hr, .inl rfl⟩
  · generalize d.out = o at hf
    subst hf
    rfl
  · rw [← List.append_assoc]
    exact congrArg (· ++ [Act.setCas (cx.casSignals sig ||| cx.casNonr2Bits)]) hout
  · intro a hm
    rcases List.mem_append.mp hm with hm | hm
    · exact (ha a hm).closes.subsides
    · rw [List.mem_singleton.mp hm]
      exact ⟨id, (by rintro ⟨⟩)⟩

theorem sendClearForward_closing (h : c.Orderly) (hl : c.callState ≠ .idle) (hn : c.callState ≠ .offered) :
    c.Closing (sendClearForward cx env c).1 := by
  have ho := h.addTimer env cx.timers.r2SetCallDown .r2SetCallDown (by rintro ⟨⟩)
  obtain ⟨⟨q, w, hf⟩, as, hout, ha⟩ :=
    R2Chan.Tuned.addTimer env cx.timers.r2SetCallDown .r2SetCallDown c
  simp only [sendClearForward]
  generalize (addTimer env cx.timers.r2SetCallDown .r2SetCallDown c).1 = d at *
  obtain ⟨he, hd, bs, hb, hx⟩ := @clearLine_closing cx env _ ho (by rw [hf]; exact hl)
    (by rw [hf]; exact hn) .clearFwdTxd trivial id .clearForward (by rintro ⟨⟩)
  refine ⟨he, hd.trans (by rw [hf]), as ++ bs, by rw [hb, hout, List.append_assoc], fun a hm => ?_⟩
  exact (List.mem_append.mp hm).elim (fun hm => (ha a hm).subsides) (hx a)

theorem reportCallDisconnection_subsides (h : c.Ended p) (cause : DisconnectCause) :
    Subsides p c (reportCallDisconnection cause c) := by
  refine .ended (l := [.callState .disconnected, .event (.onCallDisconnect cause)]) ?_ ?_ ?_
  · refine ⟨reportCallDisconnection_orderly h.toOrderly cause, nofun, nofun, h.line, ?_⟩
    exact h.engine.imp id (.imp (fun hm => ⟨hm.1, hm.2, hm.3, hm.4, .inr rfl⟩)
      fun ⟨hp, ha⟩ => ⟨hp, ha.1, ha.2, ha.3, ha.4⟩)
  · simp [reportCallDisconnection, R2Chan.setCallState, R2Chan.emit, R2Chan.did]
  · simp [Act.Proceeds]

/-- A hang-up of a call that is not merely offered ends it, or takes it to its end. -/
theorem disconnectCall_cases (h : c.Orderly) (hl : c.callState ≠ .idle) (hn : c.callState ≠ .offered)
    (cause : DisconnectCause) : (disconnectCall cx env cause c).1 = reportCallEnd cx env c ∨
      c.Closing (disconnectCall cx env cause c).1 := by
  have hold : ∀ r : CasState, r.Cleared → c.r2State.Undialled → (c.setR2State r).Ended False := by
    intro r hr hu
    have hm := h.mute hu
    exact ⟨h.hold hu r, hl, hn, hr, .inr (.inl ⟨hm.1, hm.2, hm.3, hm.4, hm.5⟩)⟩
  simp only [disconnectCall, disconnectBackward, disconnectForward, if_neg hl, if_neg hn]
  split_ifs with h1 h2 h3 h4 h5 h6 h7
  · exact .inl rfl
  · exact .inr (clearLine_closing h hl hn .clearBackTxd trivial id .clearBack (by rintro ⟨⟩))
  · exact .inl rfl
  · exact .inr (clearLine_closing h hl hn .forcedReleaseTxd trivial id .forcedRelease (by rintro ⟨⟩))
  · exact .inr (clearLine_closing h hl hn .clearBackTxd trivial id .clearBack (by rintro ⟨⟩))
  · exact .inr ⟨hold _ trivial (by rw [h6]; trivial), rfl, [], (List.append_nil _).symm, by simp⟩
  · have hd := hold .doubleSeizureClearFwdPending trivial (by rw [h7]; trivial)
    exact .inr (hd.tuned (hd.toOrderly.armTimer env _ _ .r2SeizePersistExpired (by rintro ⟨⟩))
      (.armTimer env _ _ _ _))
  · exact .inl rfl
  · exact .inr (sendClearForward_closing h hl hn)

theorem disconnectCall_subsides (h : c.Orderly) (hl : c.callState ≠ .idle) (hn : c.callState ≠ .offered)
    (cause : DisconnectCause) : Subsides p c (disconnectCall cx env cause c).1 := by
  rcases disconnectCall_cases h hl hn cause with he | he
  · rw [he]
    exact reportCallEnd_subsides c
  · exact he.subsides

/-- Another line state of a call that was hung up. -/
theorem R2Chan.Ended.hop (h : c.Ended p) {r : CasState} (hr : r.Cleared) (ho : (c.setR2State r).Orderly) :
    (c.setR2State r).Ended p :=
  ⟨ho, h.live, h.offered, hr, h.engine.imp id (.imp (fun hm => ⟨hm.1, hm.2, hm.3, hm.4, hm.5⟩)
    fun ⟨hp, ha⟩ => ⟨hp, ha.1, ha.2, ha.3, ha.4⟩)⟩

theorem Subsides.setMfReadTone (h : Subsides p c d) (tone : Tone) : Subsides p c (d.setMfReadTone tone) := by
  refine h.trans (fun hd => .ended ?_ (List.append_nil _).symm (by simp)) (List.prefix_refl _)
  exact hd.same (hd.toOrderly.setMfReadTone tone) rfl rfl rfl rfl rfl rfl rfl

theorem Subsides.setMfWriteTone (h : Subsides p c d) (tone : Tone) : Subsides p c (d.setMfWriteTone tone) := by
  refine h.trans (fun hd => .ended ?_ (List.append_nil _).symm (by simp)) (List.prefix_refl _)
  exact hd.same (hd.toOrderly.setMfWriteTone tone) rfl rfl rfl rfl rfl rfl rfl

theorem R2Chan.Ended.logRx (h : c.Ended p) (sig : CasSignal) : (c.logRx sig).Ended p :=
  h.same (h.toOrderly.logRx sig) rfl rfl rfl rfl rfl rfl rfl

theorem R2Chan.Ended.cancelTimer (h : c.Ended p) (slot : TimerSlot) : (c.cancelTimer slot).Ended p :=
  h.same (h.toOrderly.cancelTimer slot) rfl rfl rfl rfl rfl rfl rfl

theorem prepareMfTone_subsides (h : c.Ended p) (tone : Tone) : Subsides p c (prepareMfTone cx env tone c) := by
  rcases prepareMfTone_cases cx env tone c with ⟨-, ht⟩ | ⟨-, d, ⟨-, as, ho, ha⟩, he⟩
  · exact h.tuned_subsides (prepareMfTone_orderly h.toOrderly tone) ht
  · rw [he]
    exact .after ho (fun a hm => (ha a hm).subsides) (handleProtocolError_subsides _ d)

theorem setSilence_subsides (h : c.Ended p) : Subsides p c (setSilence cx env c) :=
  (prepareMfTone_subsides h 0).setMfWriteTone 0

/-- The pattern of the line meets a call that was hung up. -/
theorem casSwitch_subsides (h : c.Ended p) (cas : Nat) : Subsides p c (casSwitch cx env cas c) := by
  have herr : ∀ reason, Subsides p c (invalidCas cx env reason c) := fun reason =>
    handleProtocolError_subsides reason (c.logRx .invalid)
  have hend : ∀ sig, Subsides p c (reportCallEnd cx env (c.logRx sig)) := fun sig =>
    reportCallEnd_subsides (c.logRx sig)
  have hhop : ∀ (sig : CasSignal) (r : CasState), r.Cleared → ¬ r.Undialled →
      Subsides p c ((c.logRx sig).setR2State r) := fun sig r hr hu =>
    .ended ((h.logRx sig).hop hr ((h.toOrderly.logRx sig).setR2State hu))
      (List.append_nil _).symm (by simp)
  have hl := h.line
  unfold casSwitch
  cases hr : c.r2State with
  | clearBackTxd =>
    simp only [casDisconnectTxd]
    split_ifs
    · exact hend _
    · exact herr _
  | forcedReleaseTxd =>
    simp only [casDisconnectTxd]
    split_ifs
    · exact hend _
    · exact herr _
  | clearFwdTxd =>
    simp only [casClearFwdTxd]
    split_ifs
    · exact hend _
    · split
      · exact hhop _ .clearBackAfterClearFwdRxd trivial id
      · exact herr _
  | clearBackAfterClearFwdRxd =>
    simp only [casAwaitIdle]
    split_ifs
    · exact hend _
    · exact herr _
  | seizeTxdClearFwdPending =>
    have ha := (h.logRx .seizeAck).cancelTimer .r2Seize
    have hx : ((c.logRx .seizeAck).cancelTimer .r2Seize).r2State = .seizeTxdClearFwdPending := hr
    simp only [casSeizeTxd, hx, if_true]
    split_ifs
    · exact .after (List.append_nil _).symm (by simp)
        (sendClearForward_closing ha.toOrderly ha.live ha.offered).subsides
    · have ho := (h.toOrderly.logRx .seize).hold (by rw [show (c.logRx .seize).r2State = _ from hr]; trivial)
        .doubleSeizure
      have hd := ((h.logRx .seize).hop (r := .doubleSeizure) trivial ho).cancelTimer .r2Seize
      exact .after (List.append_nil _).symm (by simp) (reportCallDisconnection_subsides hd .glare)
    · exact herr _
  | doubleSeizure =>
    simp only [casDoubleSeizure, hr, if_true]
    split_ifs
    · exact hhop _ .clearFwdRxd trivial id
    · exact herr _
  | doubleSeizureClearFwdPending =>
    simp only [casDoubleSeizure, hr, reduceCtorEq, if_false]
    split_ifs
    · exact hend _
    · exact herr _
  | clearFwdRxd => exact herr _
  | _ =>
    rw [hr] at hl
    exact hl.elim

theorem R2Chan.Ended.setCasRead (h : c.Ended p) (cas : Nat) : (c.setCasRead cas).Ended p :=
  h.same (h.toOrderly.setCasRead cas) rfl rfl rfl rfl rfl rfl rfl

theorem handleCas_subsides (h : c.Ended p) : Subsides p c (handleCas cx env c) := by
  rcases handleCas_cases cx env c with ⟨-, hp⟩ | ⟨cas, d, -, ⟨hp, -⟩, he⟩
  · obtain ⟨hd, as, ho, ha⟩ := h.polled hp
    exact .ended hd ho ha
  · obtain ⟨hd, as, ho, ha⟩ := h.polled hp
    rw [he]
    exact .after ho ha (casSwitch_subsides (hd.setCasRead cas) cas)

theorem persistenceCheckExpired_subsides (h : c.Ended p) : Subsides p c (persistenceCheckExpired cx env c) := by
  rcases persistenceCheckExpired_cases cx env c with ⟨-, hp⟩ | ⟨cas, d, -, ⟨hp, -⟩, he⟩
  · obtain ⟨hd, as, ho, ha⟩ := h.polled hp
    exact .ended hd ho ha
  · obtain ⟨hd, as, ho, ha⟩ := h.polled hp
    rw [he]
    exact .after ho ha (casSwitch_subsides (hd.setCasRead cas) cas)

/-- After a reset nothing is part of the call any more. -/
theorem Subsides.rest (h : Subsides p c d) (hd : d.callState = .idle) (ho : d.out <+: e.out) : Subsides p c e :=
  h.trans (fun hx => absurd hd hx.live) ho

/-- A request for a tone from an engine that is mute. -/
theorem request_subsides (h : c.Ended p) (hm : c.Mute) (g : MfGroup) (hg : ¬ g.Dials) (m : MfState)
    (hx : m ≠ .offState) (tone : Tone) :
    Subsides p c (prepareMfTone cx env tone ((c.setMfGroup g).setMfState m)) := by
  have hd : ((c.setMfGroup g).setMfState m).Ended p :=
    ⟨(h.toOrderly.receive g hg).setMfState m hx, h.live, h.offered, h.line,
      .inr (.inl ⟨hm.direction, hm.dialing, hm.detecting, hg, hm.call⟩)⟩
  exact .after (List.append_nil _).symm (by simp) (prepareMfTone_subsides hd tone)

/-- What is offered now is no call that is collected. -/
theorem offerCall_subsides (hc : c.callState ≠ .collecting) : Subsides p c (offerCall cx env c) := by
  simp only [offerCall, if_pos hc]
  exact handleProtocolError_subsides _ c

theorem tryChangeToG2_subsides (h : c.Ended p) (hm : c.Mute) : Subsides p c (tryChangeToG2 cx env c) := by
  have hc : c.callState ≠ .collecting := by rcases hm.call with hx | hx <;> rw [hx] <;> nofun
  unfold tryChangeToG2
  split_ifs
  · unfold bypassChangeToG2
    rcases prepareMfTone_cases cx env cx.gaTones.addressCompleteChargeSetup (c.setMfState .acceptedTxd)
      with ⟨-, ⟨q, w, hf⟩, as, ho, ha⟩ | ⟨-, d, ⟨-, as, ho, ha⟩, he⟩
    · refine .after ho (fun a hx => (ha a hx).subsides) (offerCall_subsides ?_)
      rw [hf]
      exact hc
    · rw [he]
      refine .after ho (fun a hx => (ha a hx).subsides) ?_
      exact (handleProtocolError_subsides _ d).rest (handleProtocolError_atRest cx d env _).callState
        (offerCall_grows cx env _)
  · exact request_subsides h hm .gb id .chgGiiTxd nofun _

theorem tryRequestCallingPartyCategory_subsides (h : c.Ended p) (hm : c.Mute) :
    Subsides p c (tryRequestCallingPartyCategory cx env c) := by
  simp only [tryRequestCallingPartyCategory, requestCallingPartyCategory]
  split_ifs
  · exact tryChangeToG2_subsides h hm
  · exact request_subsides h hm .ga id .categoryRqTxd (by rintro ⟨⟩) _
  · exact request_subsides h hm .gc id .categoryRqTxd (by rintro ⟨⟩) _

/-- The wait for a tone expires. An engine that is mute asks for the next one, perhaps. -/
theorem mfBackCycleTimeoutExpired_subsides (h : c.Ended p)
    (hr : p → c.direction = .backward → ¬ c.AsksAgain cx) :
    Subsides p c (mfBackCycleTimeoutExpired cx env c) := by
  have ho := h.toOrderly.armTimer env .mfBackResumeCycle cx.timers.mfBackResumeCycle .mfBackResumeCycle
    (by rintro ⟨⟩)
  obtain ⟨⟨q, w, hf⟩, as, hout, ha⟩ :=
    R2Chan.Tuned.armTimer env .mfBackResumeCycle cx.timers.mfBackResumeCycle .mfBackResumeCycle c
  have hmute : c.AsksAgain cx → c.Mute := by
    intro hx
    rcases h.engine with hm | hm | ⟨hp, hm⟩
    · exact absurd hm (by rcases hx.2.2 with hy | hy <;> rw [hy] <;> rintro ⟨⟩)
    · exact hm
    · exact absurd hx (hr hp hm.direction)
  -- the channel with the timer that resumes the cycle
  have hd : c.AsksAgain cx →
      (armTimer env .mfBackResumeCycle cx.timers.mfBackResumeCycle .mfBackResumeCycle c).Ended p ∧
      (armTimer env .mfBackResumeCycle cx.timers.mfBackResumeCycle .mfBackResumeCycle c).Mute := by
    intro hx
    have hm := hmute hx
    generalize armTimer env .mfBackResumeCycle cx.timers.mfBackResumeCycle .mfBackResumeCycle c = d at *
    generalize d.out = o at hf
    subst hf
    exact ⟨h.same ho rfl rfl rfl rfl rfl rfl rfl, hm.direction, hm.dialing, hm.detecting, hm.group, hm.call⟩
  simp only [mfBackCycleTimeoutExpired]
  split_ifs with h1 h2
  · obtain ⟨he, hm⟩ := hd h1
    exact .after hout (fun a hx => (ha a hx).subsides) (tryRequestCallingPartyCategory_subsides he hm)
  · obtain ⟨he, hm⟩ := hd h1
    exact .after hout (fun a hx => (ha a hx).subsides) (tryChangeToG2_subsides he hm)
  · exact handleProtocolError_subsides _ c

theorem R2Chan.Ended.setMfReadTone (h : c.Ended p) (tone : Tone) : (c.setMfReadTone tone).Ended p :=
  h.same (h.toOrderly.setMfReadTone tone) rfl rfl rfl rfl rfl rfl rfl

/-- An engine that goes on asking ends its tone with the tone of the caller. -/
theorem handleForwardMfSilence_subsides (h : c.Ended p) (hk : c.mfState ≠ .acceptedTxd) :
    Subsides p c (handleForwardMfSilence cx env c) := by
  have hend : ∀ d, setSilence cx env c = d → d.Ended p → d.mfState ≠ .acceptedTxd →
      Subsides p d (handleForwardMfSilence cx env c) := by
    intro d he hd hm
    simp only [handleForwardMfSilence, he]
    split
    · exact absurd ‹_› hm
    · exact absurd ‹_› hm
    · refine .ended ?_ (List.append_nil _).symm (by simp)
      exact hd.same (hd.toOrderly.mapTimers fun hx => absurd hx List.not_mem_nil) rfl rfl rfl rfl rfl rfl rfl
    · exact .refl hd
    · exact .refl hd
    · exact .refl hd
    · exact handleProtocolError_subsides _ d
    · exact handleProtocolError_subsides _ d
  rcases prepareMfTone_cases cx env 0 c with ⟨-, ht⟩ | ⟨-, d, ⟨-, as, ho, ha⟩, he⟩
  · have ho := @prepareMfTone_orderly cx env _ h.toOrderly 0
    obtain ⟨hd, -, as, hout, ha⟩ := h.tuned ho ht
    have hm : (prepareMfTone cx env 0 c).mfState = c.mfState := by
      obtain ⟨⟨q, w, hf⟩, -⟩ := ht
      rw [hf]
    have hs : (setSilence cx env c).Ended p :=
      hd.same (ho.setMfWriteTone 0) rfl rfl rfl rfl rfl rfl rfl
    exact .after (d := setSilence cx env c) hout ha (hend _ rfl hs (by rw [← hm] at hk; exact hk))
  · have hs : (setSilence cx env c).mfGroup = .noGroup := by
      change (prepareMfTone cx env 0 c).mfGroup = .noGroup
      rw [he]
      exact (handleProtocolError_atRest cx d env _).mfGroup
    have hx : Subsides p c (setSilence cx env c) := by
      change Subsides p c ((prepareMfTone cx env 0 c).setMfWriteTone 0)
      rw [he]
      exact (Subsides.after ho (fun a hm => (ha a hm).subsides)
        (handleProtocolError_subsides _ d)).setMfWriteTone 0
    refine hx.rest ?_ ?_
    · change (prepareMfTone cx env 0 c).callState = .idle
      rw [he]
      exact (handleProtocolError_atRest cx d env _).callState
    · rw [handleForwardMfSilence]
      rw [hs]
      exact handleProtocolError_grows cx env _ _

/-- A hung-up call hears tones only when it is mute, and they end it if they do anything, or
when it goes on asking, and then none comes. -/
theorem handleMfTone_subsides (h : c.Ended p) (hm : c.mfState ≠ .offState) (tone : Tone)
    (hr : p → c.direction = .backward → tone ≠ 0 → c.mfReadTone = 0 →
      (checkThreshold cx env tone c).2 ≠ 0) :
    Subsides p c (handleMfTone cx env tone c) := by
  have hengine := h.engine.resolve_left hm
  -- the channel after the test of the threshold
  have hthr : ∀ t : Tone, (checkThreshold cx env t c).1.Ended p ∧
      (checkThreshold cx env t c).1.direction = c.direction ∧
      (checkThreshold cx env t c).1.mfGroup = c.mfGroup ∧
      (checkThreshold cx env t c).1.mfState = c.mfState ∧
      ∃ as, (checkThreshold cx env t c).1.out = c.out ++ as ∧
        ∀ a ∈ as, ¬ a.Proceeds ∧ a ≠ .callState .idle := by
    intro t
    have ho := @checkThreshold_orderly cx env _ h.toOrderly t
    obtain ⟨t', n, as, hf, ha⟩ := checkThreshold_frame cx env t c
    rw [hf] at ho ⊢
    refine ⟨h.same ho rfl rfl rfl rfl rfl rfl rfl, rfl, rfl, rfl, as, rfl, fun a hx => ?_⟩
    rw [ha a hx]
    exact ⟨id, nofun⟩
  simp only [handleMfTone]
  split_ifs with h0 h1 h2 h3
  · exact .refl h
  · exact handleProtocolError_subsides _ c
  · obtain ⟨hd, -, -, -, as, ho, ha⟩ := hthr tone
    exact .ended hd ho ha
  · have hmute : c.Mute := by
      rcases hengine with hx | ⟨hp, hx⟩
      · exact hx
      · exact absurd (not_not.mp h3) (hr hp hx.direction h0 (not_not.mp h2))
    obtain ⟨hd, hdir, -, -, as, ho, ha⟩ := hthr tone
    generalize (checkThreshold cx env tone c).1 = d at *
    refine .after ho ha ?_
    simp only [handleToneOn, show (d.setMfReadTone tone).direction = .forward from hdir.trans hmute.direction]
    exact .after (List.append_nil _).symm (by simp)
      (setSilence_subsides ((hd.setMfReadTone tone).cancelTimer .mfFwdSafety))
  · exact .refl h
  · obtain ⟨hd, -, -, -, as, ho, ha⟩ := hthr 0
    exact .ended hd ho ha
  · obtain ⟨hd, hdir, hg, hms, as, ho, ha⟩ := hthr 0
    generalize (checkThreshold cx env 0 c).1 = d at *
    refine .after ho ha ?_
    rcases hengine with hmute | ⟨-, hask⟩
    · have hg : ¬ d.mfGroup.Dials := by
        rw [hg]
        exact hmute.group
      have hx : handleBackwardMfSilence cx env d.mfReadTone d =
          handleProtocolError cx env .invalidMfGroup d := by
        unfold handleBackwardMfSilence
        split
        · rename_i hgi
          exact absurd (by rw [hgi]; trivial) hg
        · rename_i hgi
          exact absurd (by rw [hgi]; trivial) hg
        · rename_i hgi
          exact absurd (by rw [hgi]; trivial) hg
        · rfl
      simp only [handleToneOff, hdir, hmute.direction, hx]
      exact (handleProtocolError_subsides _ d).setMfReadTone 0
    · simp only [handleToneOff, hdir, hask.direction]
      exact (handleForwardMfSilence_subsides hd (by rw [hms]; exact hask.mfState)).setMfReadTone 0

/-- The user's calls on a call that was hung up. -/
theorem apiCall_subsides (h : c.Ended p) (a : ApiCall)
    (ha : (a = .answerCall ∨ ∃ mode, a = .answerCallWithMode mode) →
      (cx.dialWithDtmf || cx.detectDtmf) = false ∧ c.callState ≠ .accepted) :
    Subsides p c (apiCall cx env a c).1 := by
  have hno : (cx.dialWithDtmf || cx.detectDtmf) = false ∧ c.callState ≠ .accepted →
      doAnswer cx env c = (c, -1) := fun hx => by simp only [doAnswer, if_pos hx]
  cases a with
  | makeCall ani dnis category restricted =>
    simp only [apiCall, makeCall]
    split_ifs with h1 h2
    · exact .refl h
    · exact .refl h
    all_goals exact absurd (not_not.mp h2) h.live
  | acceptCall mode =>
    simp only [apiCall, acceptCall, if_pos h.offered]
    exact .refl h
  | answerCall =>
    simp only [apiCall, answerCall, hno (ha (.inl rfl))]
    exact .refl h
  | answerCallWithMode mode =>
    simp only [apiCall, answerCallWithMode, hno (ha (.inr ⟨mode, rfl⟩))]
    exact .refl h
  | disconnectCall cause => exact disconnectCall_subsides h.toOrderly h.live h.offered cause
  | ackCall =>
    have hs : ((c.setCasTx (cx.casSignals .seizeAck) .seizeAck).did
        (.setCas (cx.casSignals .seizeAck ||| cx.casNonr2Bits))).Ended p :=
      h.same (@setCasSignal_orderly cx env _ h.toOrderly .seizeAck) rfl rfl rfl rfl rfl rfl rfl
    have hc := Subsides.ended (c := c) hs (l := [.setCas (cx.casSignals .seizeAck ||| cx.casNonr2Bits)]) rfl
      (by simp [Act.Proceeds])
    simp only [apiCall, ackCall]
    split_ifs
    · exact hc.trans (fun _ => handleProtocolError_subsides _ _) (handleProtocolError_grows cx env _ _)
    · exact hc
  | setIdle => exact setIdle_subsides c
  | setBlocked => exact setBlocked_subsides c

theorem handleAlarm_subsides (h : c.Ended p) (on : Bool) : Subsides p c (handleAlarm cx env on c) := by
  have hn : ∀ d : R2Chan, d.callState = .idle → Subsides p c d → Subsides p c (handleCas cx env d) :=
    fun d hd hx => hx.rest hd (handleCas_grows cx env d)
  have hx : ((c.setInalarm on).emit (.onHardwareAlarm on)).out = c.out ++ [.event (.onHardwareAlarm on)] := rfl
  have hl : ((c.setInalarm on).emit (.onHardwareAlarm on)).callState ≠ .idle := h.live
  unfold handleAlarm handleAlarmState
  generalize (c.setInalarm on).emit (.onHardwareAlarm on) = d at *
  have hafter : ∀ e : R2Chan, Subsides p d e → Subsides p c e := fun e he => .after hx (by simp [Act.Proceeds]) he
  split_ifs with h1 h2
  · refine (hafter _ (handleProtocolError_subsides .alarmRaised d)).rest
      (handleProtocolError_atRest cx d env .alarmRaised).callState ?_
    exact List.prefix_refl _
  · exact hn _ (setIdle_atRest cx d env).callState (hafter _ (setIdle_subsides d))
  · exact hn _ (setBlocked_callState cx d env).1 (hafter _ (setBlocked_subsides d))

theorem expire_subsides (h : c.Ended p) (id : Nat)
    (hn : ∀ u ∈ c.timer? id, u.callback ≠ .readyToAnswer ∧ u.callback ≠ .startDialingDtmf)
    (hask : p → c.direction = .backward → c.AsksAgain cx →
      ∀ u ∈ c.timer? id, u.callback ≠ .mfBackCycleTimeoutExpired) :
    Subsides p c (expire cx env id c) := by
  have hr : (c.mapTimers (·.removeId id)).Ended p :=
    h.same (h.toOrderly.mapTimers fun hx => pending_removeId id c.timers hx) rfl rfl rfl rfl rfl rfl rfl
  have hx : (c.mapTimers (·.removeId id)).out = c.out ++ [] := (List.append_nil _).symm
  unfold expire
  cases ht : c.timer? id with
  | none => exact .refl h
  | some t =>
    obtain ⟨hn1, hn2⟩ := hn t ht
    have hagain : t.callback = .mfBackCycleTimeoutExpired → p →
        (c.mapTimers (·.removeId id)).direction = .backward →
          ¬ (c.mapTimers (·.removeId id)).AsksAgain cx :=
      fun hcb hp hd hx => hask hp hd hx t ht hcb
    refine .after hx (by simp) ?_
    dsimp only
    generalize c.mapTimers (·.removeId id) = d at hr hagain
    cases hcb : t.callback with
    | mfFwdSafetyTimeoutExpired => exact handleProtocolError_subsides _ d
    | mfBackCycleTimeoutExpired => exact mfBackCycleTimeoutExpired_subsides hr (hagain hcb)
    | mfBackResumeCycle => exact setSilence_subsides hr
    | seizeTimeoutExpired => exact handleProtocolError_subsides _ d
    | r2SeizePersistExpired => exact (sendClearForward_closing hr.toOrderly hr.live hr.offered).subsides
    | r2AnswerTimeoutExpired => exact reportCallDisconnection_subsides hr _
    | readyToAnswer => exact absurd hcb hn1
    | doubleAnswerHandler =>
      have hl := hr.line
      have h1 : d.r2State ≠ .answerTxd := fun hx => by rw [hx] at hl; exact hl
      have h2 : d.r2State ≠ .executingDoubleAnswer := fun hx => by rw [hx] at hl; exact hl
      simp only [runTimer, doubleAnswerHandler, if_neg h1, if_neg h2]
      exact .refl hr
    | r2MeteringPulse =>
      simp only [runTimer, r2MeteringPulse]
      split_ifs
      · exact reportCallDisconnection_subsides hr _
      · exact reportCallDisconnection_subsides hr _
    | r2SetCallDown => exact reportCallEnd_subsides d
    | persistenceCheckExpired => exact persistenceCheckExpired_subsides hr
    | startDialingDtmf => exact absurd hcb hn2

end Subsides

section Media

variable {p : Prop} {cx : R2Context} {m : MediaChan}

theorem R2Chan.Ended.start {c : R2Chan} (h : c.Ended p) : c.start.Ended p :=
  h.same h.toOrderly.start rfl rfl rfl rfl rfl rfl rfl

/-- An answer that is refused changes nothing. -/
theorem refused_answer {t : MediaTick} (ha : t.input.Answers) (hn : ¬ SetsOff cx m t) :
    (mediaStep cx t.env t.input m).chan = m.chan.start := by
  have hx : (cx.dialWithDtmf || cx.detectDtmf) = false ∧ m.chan.start.callState ≠ .accepted := by
    refine ⟨?_, fun hc => hn (.inr ⟨ha, .inr hc⟩)⟩
    cases hd : (cx.dialWithDtmf || cx.detectDtmf) with
    | false => rfl
    | true => exact absurd (.inr ⟨ha, .inl hd⟩) hn
  have hd : doAnswer cx t.env m.chan.start = (m.chan.start, -1) := by simp only [doAnswer, if_pos hx]
  rcases ha with ha | ⟨mode, ha⟩
  · rw [ha]
    simp only [mediaStep, MediaChan.on, step, apiCall, answerCall, hd]
    rfl
  · rw [ha]
    simp only [mediaStep, MediaChan.on, step, apiCall, answerCallWithMode, hd]
    rfl

theorem handleRead_subsides {env : Env} (h : m.chan.Ended p) (x : Heard)
    (hr : p → m.chan.direction = .backward → m.chan.detectingDtmf = false → m.chan.mfReadTone = 0 →
      ∀ tone ∈ x.mfTone, tone ≠ 0 → (checkThreshold cx env tone m.chan).2 ≠ 0) :
    Subsides p m.chan (handleRead cx env x m).chan := by
  unfold handleRead
  split_ifs with h1 h2
  · exact .refl h
  · refine absurd h2 ?_
    rcases h.engine.resolve_left h1 with hm | ⟨-, hm⟩
    · simp [hm.detecting]
    · simp [hm.detecting]
  · cases hx : x.mfTone with
    | none => exact .refl h
    | some tone =>
      refine handleMfTone_subsides h h1 tone fun hp hd h0 hz => ?_
      exact hr hp hd (eq_false_of_ne_true h2) hz tone hx h0

/-- A step of a call that was hung up, unless something sets it off again or the signalling
resumes. -/
theorem mediaStep_subsides (h : m.chan.Ended p) {t : MediaTick} (hn : ¬ SetsOff cx m t)
    (hr : p → ¬ Resumes cx m t) : Subsides p m.chan.start (mediaStep cx t.env t.input m).chan := by
  obtain ⟨env, i⟩ := t
  cases i with
  | cas => exact handleCas_subsides h.start
  | read x =>
    by_cases ho : m.chan.mfState = .offState
    · have hs : (handleRead cx env x (m.on R2Chan.start)).chan = m.chan.start := by
        rw [handleRead, if_pos (show (m.on R2Chan.start).chan.mfState = .offState from ho)]
        rfl
      change Subsides p m.chan.start (handleRead cx env x (m.on R2Chan.start)).chan
      rw [hs]
      exact .refl h.start
    · refine handleRead_subsides (m := m.on R2Chan.start) h.start x fun hp hd hf hz tone hx h0 ht => ?_
      refine hr hp ⟨.mfTone tone, ?_, .inl ⟨tone, rfl, h0, hd, ho, hz, ht⟩⟩
      have hf : m.chan.detectingDtmf = false := hf
      have hx : x.mfTone = some tone := hx
      simp [MediaChan.input?, hf, hx]
  | write sent =>
    simp only [mediaStep, MediaChan.on, handleWrite]
    split_ifs with hd
    · exact absurd hd.1 (by rw [h.start.not_dialing]; rintro ⟨⟩)
    · exact .refl h.start
  | timer id =>
    refine expire_subsides h.start id (fun u hu => ⟨fun hc => hn ?_, fun hc => hn ?_⟩)
      fun hp hd hx u hu hc => hr hp ?_
    · exact .inl ⟨id, rfl, u, hu, .inl hc⟩
    · exact .inl ⟨id, rfl, u, hu, .inr hc⟩
    · exact ⟨.timer id, rfl, .inr ⟨hd, hx, id, u, rfl, hu, hc⟩⟩
  | api a =>
    refine apiCall_subsides h.start a fun ha => ?_
    have ht : MediaInput.Answers (.api a) :=
      ha.imp (fun hx => by rw [hx]) fun hx => hx.imp fun mode hx => by rw [hx]
    refine ⟨?_, fun hc => hn (.inr ⟨ht, .inr hc⟩)⟩
    cases hd : (cx.dialWithDtmf || cx.detectDtmf) with
    | false => rfl
    | true => exact absurd (.inr ⟨ht, .inl hd⟩) hn
  | alarm on => exact handleAlarm_subsides h.start on

/-- What is done of a call that subsides until it is over, if it is. -/
theorem Subsides.done {c d : R2Chan} (h : Subsides p c d) : ∃ as, d.out = c.out ++ as ∧
    (∀ a ∈ untilIdle as, ¬ a.Proceeds) ∧ (.callState .idle ∉ as → d.Ended p) := by
  obtain ⟨as, ha, ⟨hd, ho⟩ | ⟨bs, ho⟩⟩ := h
  · refine ⟨as, ho, fun a hm => (ha a ?_).1, fun _ => hd⟩
    rwa [untilIdle_live fun a hm => (ha a hm).2] at hm
  · refine ⟨as ++ .callState .idle :: bs, by rw [ho, List.append_assoc], fun a hm => (ha a ?_).1,
      fun hn => absurd (by simp) hn⟩
    rwa [untilIdle_over fun a hm => (ha a hm).2] at hm

/-- Such a step does not take the call on, and leaves it hung up or over. -/
theorem mediaStep_ended (h : m.chan.Ended p) (t : MediaTick) (hn : ¬ SetsOff cx m t)
    (hr : p → ¬ Resumes cx m t) :
    ¬ GoesOn cx m t ∧ ((∃ a ∈ (mediaStep cx t.env t.input m).chan.out, a = .callState .idle) ∨
      (mediaStep cx t.env t.input m).chan.Ended p) := by
  have hx := @refused_answer cx m t
  obtain ⟨as, ho, ha, he⟩ := (mediaStep_subsides h hn hr).done
  have ho : (mediaStep cx t.env t.input m).chan.out = as := ho
  have hdone : doneBeforeIdle cx m t = untilIdle as := by rw [← ho]; rfl
  constructor
  · rintro (⟨a, hm, hp⟩ | ⟨hi, hd⟩ | ⟨hans, bits, hm⟩)
    · rw [hdone] at hm
      exact ha a hm hp
    · rw [ho] at hi
      exact absurd hd (by rw [(he hi).not_dialing]; nofun)
    · unfold doneBeforeIdle at hm
      rw [hx hans hn] at hm
      exact List.not_mem_nil hm
  · rw [ho]
    by_cases hi : .callState .idle ∈ as
    · exact .inl ⟨_, hi, rfl⟩
    · exact .inr (he hi)

/-- An answer that is not refused puts its signal on the line first. -/
theorem answer_transmits {env : Env} {c : R2Chan} {a : ApiCall}
    (ha : a = .answerCall ∨ ∃ mode, a = .answerCallWithMode mode)
    (hc : (cx.dialWithDtmf || cx.detectDtmf) = true ∨ c.callState = .accepted) :
    c.out ++ [.setCas (cx.casSignals .answer ||| cx.casNonr2Bits)] <+: (apiCall cx env a c).1.out := by
  have hno : ¬ ((cx.dialWithDtmf || cx.detectDtmf) = false ∧ c.callState ≠ .accepted) := by
    rintro ⟨h1, h2⟩
    rcases hc with hc | hc
    · rw [h1] at hc
      exact nomatch hc
    · exact h2 hc
  have hs : (setCasSignal cx env .answer c).1.out =
      c.out ++ [.setCas (cx.casSignals .answer ||| cx.casNonr2Bits)] := rfl
  have hd : c.out ++ [.setCas (cx.casSignals .answer ||| cx.casNonr2Bits)] <+:
      (doAnswer cx env c).1.out := by
    simp only [doAnswer, if_neg hno]
    split_ifs
    · exact ⟨[], (List.append_nil _).trans hs.symm⟩
    · rw [← hs]
      exact did_grows _ _
  have harm : ∀ d : R2Chan, d.out <+: (scheduleDoubleAnswer cx env d).out := by
    intro d
    obtain ⟨-, as, ho, -⟩ := R2Chan.Tuned.armTimer env .r2DoubleAnswer cx.timers.r2DoubleAnswer
      .doubleAnswerHandler d
    exact ⟨as, ho.symm⟩
  rcases ha with rfl | ⟨mode, rfl⟩
  · simp only [apiCall, answerCall]
    split_ifs
    · exact hd
    · exact hd.trans (harm _)
    · exact hd
  · simp only [apiCall, answerCallWithMode]
    split_ifs
    · exact hd
    · exact hd.trans (harm _)
    · exact hd

/-- What is set off goes on at once. -/
theorem setsOff_goesOn (t : MediaTick) (h : SetsOff cx m t) : GoesOn cx m t := by
  obtain ⟨env, i⟩ := t
  rcases h with ⟨id, rfl, u, hu, hc⟩ | ⟨ha, hc⟩
  · have hs : m.chan.start.timer? id = some u := hu
    rcases hc with hc | hc
    · have he : (mediaStep cx env (.timer id) m).chan =
          (m.chan.start.mapTimers (·.removeId id)).emit (.onCallAccepted .unknown) := by
        simp only [mediaStep, MediaChan.on, step, expire, hs, hc, runTimer, readyToAnswer]
      refine .inl ⟨.event (.onCallAccepted .unknown), ?_, trivial⟩
      unfold doneBeforeIdle
      rw [he]
      exact List.mem_cons_self
    · have he : (mediaStep cx env (.timer id) m).chan =
          startDialingDtmf (m.chan.start.mapTimers (·.removeId id)) := by
        simp only [mediaStep, MediaChan.on, step, expire, hs, hc, runTimer]
      refine .inr (.inl ?_)
      rw [he]
      exact ⟨List.not_mem_nil, rfl⟩
  · refine .inr (.inr ⟨ha, cx.casSignals .answer ||| cx.casNonr2Bits, ?_⟩)
    have hx : [] ++ [Act.setCas (cx.casSignals .answer ||| cx.casNonr2Bits)] <+:
        (mediaStep cx env i m).chan.out := by
      rcases ha with rfl | ⟨mode, rfl⟩
      · exact answer_transmits (c := m.chan.start) (.inl rfl) hc
      · exact answer_transmits (c := m.chan.start) (.inr ⟨mode, rfl⟩) hc
    obtain ⟨rest, hx⟩ := hx
    unfold doneBeforeIdle
    rw [← hx]
    simp

end Media

end OpenR2
