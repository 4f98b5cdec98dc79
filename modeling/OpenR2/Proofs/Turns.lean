import OpenR2.Control
import OpenR2.Proofs.Reset

namespace OpenR2

/-- What the register signalling works on: the numbers of a call, and what is heard. -/
structure Numbers where
  ani : List Tone
  aniPtr : Option Nat
  aniLen : Nat
  dnis : List Tone
  dnisIndex : Nat
  dnisLen : Nat
  callerAniIsRestricted : Bool
  callerCategory : Tone
  categorySent : Bool
  mfReadTone : Tone
  mfThresholdTone : Tone
  mfThresholdTime : Timeval

def R2Chan.numbers (c : R2Chan) : Numbers where
  ani := c.ani
  aniPtr := c.aniPtr
  aniLen := c.aniLen
  dnis := c.dnis
  dnisIndex := c.dnisIndex
  dnisLen := c.dnisLen
  callerAniIsRestricted := c.callerAniIsRestricted
  callerCategory := c.callerCategory
  categorySent := c.categorySent
  mfReadTone := c.mfReadTone
  mfThresholdTone := c.mfThresholdTone
  mfThresholdTime := c.mfThresholdTime

/-- Acts that neither collect nor send a number, nor start, offer or end a call. -/
def Act.Aside : Act → Prop
  | .callState s => s = .answered ∨ s = .disconnected
  | .event (.onCallOffered ..) | .event (.onDnisDigitReceived _) | .event (.onAniDigitReceived _) =>
    False
  | .event (.onCallAccepted mode) => mode = .unknown
  | .storeAni .. | .storeDnis .. | .readDnis _ | .readAni _ => False
  | _ => True

theorem Act.Disposes.aside {a : Act} (h : a.Disposes) : a.Aside := by
  cases a <;> trivial

theorem Act.Tuning.aside {a : Act} (h : a.Tuning) : a.Aside := by
  cases a with
  | event e => cases e <;> trivial
  | _ => trivial

/-- States after which no more tone is asked for. -/
def MfState.Decided (m : MfState) : Prop :=
  m = .offState ∨ m = .acceptedTxd ∨ m = .disconnectTxd ∨ m = .dialingDtmf

/-- Not a line state in which a call of either direction starts. -/
def CasState.Onward (r : CasState) : Prop := r ≠ .idle ∧ r ≠ .seizeTxd ∧ r ≠ .seizeAckRxd

instance (r : CasState) : Decidable r.Onward := by unfold CasState.Onward; exact inferInstance

/-- What an act does to the DNIS of an incoming call, and to its length. -/
def Act.inscribe (b : List Tone × Nat) : Act → List Tone × Nat
  | .storeDnis i t => ((b.1.set i t).set (i + 1) 0, i + 1)
  | _ => b

namespace R2Chan

/-- What happens outside the register signalling within a call. -/
structure Aside (c d : R2Chan) : Prop where
  numbers : d.numbers = c.numbers
  direction : d.direction = c.direction
  mfGroup : d.mfGroup = c.mfGroup
  callState : d.callState = c.callState ∨ d.callState = .answered ∨ d.callState = .disconnected
  mfState : d.mfState = c.mfState ∨ d.mfState = .offState ∨ d.mfState = .dialingDtmf ∨
    c.callState = .offered ∧ (d.mfState = .acceptedTxd ∨ d.mfState = .disconnectTxd)
  r2State : d.r2State = c.r2State ∨ d.r2State.Onward ∨
    c.r2State = .seizeTxd ∧ d.r2State = .seizeAckRxd
  out : ∃ as, d.out = c.out ++ as ∧ (∀ a ∈ as, a.Aside) ∧
    ∀ h t, .mfSelectTone h t ∈ as → t = 0 ∨ c.callState = .offered

namespace Aside

variable {c d e : R2Chan}

/-- A change of the other fields. -/
theorem quiet (hn : d.numbers = c.numbers) (hd : d.direction = c.direction)
    (hg : d.mfGroup = c.mfGroup) (hc : d.callState = c.callState) (hm : d.mfState = c.mfState)
    (hr : d.r2State = c.r2State) (ho : d.out = c.out) : c.Aside d :=
  ⟨hn, hd, hg, .inl hc, .inl hm, .inl hr, [], by rw [ho, List.append_nil], by simp, by simp⟩

theorem refl (c : R2Chan) : c.Aside c := quiet rfl rfl rfl rfl rfl rfl rfl

theorem offered (h : c.Aside d) (hd : d.callState = .offered) : c.callState = .offered := by
  rcases h.callState with hx | hx | hx
  · rw [← hx, hd]
  · exact absurd (hd.symm.trans hx) (by decide)
  · exact absurd (hd.symm.trans hx) (by decide)

theorem trans (h : c.Aside d) (h' : d.Aside e) : c.Aside e := by
  obtain ⟨as, ho, ha, hs⟩ := h.out
  obtain ⟨bs, ho', hb, hs'⟩ := h'.out
  refine ⟨h'.numbers.trans h.numbers, h'.direction.trans h.direction, h'.mfGroup.trans h.mfGroup,
    ?_, ?_, ?_, as ++ bs, by rw [ho', ho, List.append_assoc], ?_, ?_⟩
  · rcases h'.callState with hc | hc
    · rw [hc]
      exact h.callState
    · exact .inr hc
  · rcases h'.mfState with hm | hm | hm | ⟨hc, hm⟩
    · rw [hm]
      exact h.mfState
    · exact .inr (.inl hm)
    · exact .inr (.inr (.inl hm))
    · exact .inr (.inr (.inr ⟨h.offered hc, hm⟩))
  · rcases h'.r2State with hr | hr | ⟨hr, he⟩
    · rw [hr]
      exact h.r2State
    · exact .inr (.inl hr)
    · rcases h.r2State with hx | hx | ⟨-, hx⟩
      · exact .inr (.inr ⟨hx.symm.trans hr, he⟩)
      · exact absurd hr hx.2.1
      · exact absurd (hr.symm.trans hx) (by decide)
  · intro a hm
    exact (List.mem_append.mp hm).elim (ha a) (hb a)
  · intro x t hm
    rcases List.mem_append.mp hm with hm | hm
    · exact hs x t hm
    · exact (hs' x t hm).imp_right h.offered

theorem did (c : R2Chan) (a : Act) (ha : a.Aside) (hs : ∀ h t, a = .mfSelectTone h t → t = 0) :
    c.Aside (c.did a) := by
  refine ⟨rfl, rfl, rfl, .inl rfl, .inl rfl, .inl rfl, [a], rfl, by simpa using ha, ?_⟩
  intro h t hm
  exact .inl (hs h t (List.mem_singleton.mp hm).symm)

theorem emit (c : R2Chan) (e : Event) (he : (Act.event e).Aside) : c.Aside (c.emit e) :=
  did c (.event e) he (fun _ _ h => nomatch h)

theorem mapTimers (c : R2Chan) (f : TimerQueue → TimerQueue) : c.Aside (c.mapTimers f) :=
  quiet rfl rfl rfl rfl rfl rfl rfl

theorem cancelTimer (c : R2Chan) (slot : TimerSlot) : c.Aside (c.cancelTimer slot) := mapTimers c _

theorem logRx (c : R2Chan) (s : CasSignal) : c.Aside (c.logRx s) := quiet rfl rfl rfl rfl rfl rfl rfl

theorem setCasRead (c : R2Chan) (cas : Nat) : c.Aside (c.setCasRead cas) :=
  quiet rfl rfl rfl rfl rfl rfl rfl

theorem setCasRawRead (c : R2Chan) (cas : Nat) : c.Aside (c.setCasRawRead cas) :=
  quiet rfl rfl rfl rfl rfl rfl rfl

theorem setPersistence (c : R2Chan) (cas : Option Nat) : c.Aside (c.setPersistence cas) :=
  quiet rfl rfl rfl rfl rfl rfl rfl

theorem setInalarm (c : R2Chan) (on : Bool) : c.Aside (c.setInalarm on) :=
  quiet rfl rfl rfl rfl rfl rfl rfl

theorem setAnswered (c : R2Chan) : c.Aside c.setAnswered := quiet rfl rfl rfl rfl rfl rfl rfl

theorem setMfWriteTone (c : R2Chan) (t : Tone) : c.Aside (c.setMfWriteTone t) :=
  quiet rfl rfl rfl rfl rfl rfl rfl

theorem forgetLine (c : R2Chan) : c.Aside (forgetLine c) := quiet rfl rfl rfl rfl rfl rfl rfl

theorem setR2State (c : R2Chan) (r : CasState)
    (h : r.Onward ∨ c.r2State = .seizeTxd ∧ r = .seizeAckRxd) : c.Aside (c.setR2State r) :=
  ⟨rfl, rfl, rfl, .inl rfl, .inl rfl, .inr h, [], (List.append_nil _).symm, by simp, by simp⟩

theorem setCallState (c : R2Chan) (s : CallState) (h : s = .answered ∨ s = .disconnected) :
    c.Aside (c.setCallState s) := by
  refine ⟨rfl, rfl, rfl, .inr h, .inl rfl, .inl rfl, [.callState s], rfl, ?_, by simp⟩
  intro a ha
  rw [List.mem_singleton.mp ha]
  exact h

theorem turnOffMfEngine (cx : R2Context) (c : R2Chan) : c.Aside (turnOffMfEngine cx c) := by
  obtain ⟨⟨r, w, x, y, q, hf⟩, -, as, ho, ha⟩ := turnOffMfEngine_turnedOff cx c
  generalize OpenR2.turnOffMfEngine cx c = d at *
  generalize d.out = o at hf ho
  subst hf
  refine ⟨rfl, rfl, rfl, .inl rfl, .inr (.inl rfl), .inl rfl, as, ho, fun a hm => (ha a hm).aside, ?_⟩
  exact fun _ _ hm => (ha _ hm).elim

theorem setCasSignal (cx : R2Context) (env : Env) (s : CasSignal) (c : R2Chan) :
    c.Aside (setCasSignal cx env s c).1 := by
  simp only [OpenR2.setCasSignal]
  split_ifs
  · exact refl c
  all_goals
    exact (quiet rfl rfl rfl rfl rfl rfl rfl : c.Aside (c.setCasTx (cx.casSignals s) s)).trans
      (did _ (.setCas _) trivial (fun _ _ h => nomatch h))

theorem addTimer (env : Env) (ms : Nat) (cb : TimerCallback) (c : R2Chan) :
    c.Aside (addTimer env ms cb c).1 := by
  have hg : c.Aside (c.did .gettimeofday) := did c .gettimeofday trivial (fun _ _ h => nomatch h)
  simp only [OpenR2.addTimer]
  split
  · exact hg.trans (emit _ .onOsError trivial)
  · rename_i now _
    exact hg.trans (mapTimers _ fun q => (q.addTimer now ms cb).1)

theorem armTimer (env : Env) (slot : TimerSlot) (ms : Nat) (cb : TimerCallback) (c : R2Chan) :
    c.Aside (armTimer env slot ms cb c) := (addTimer env ms cb c).trans (mapTimers _ _)

theorem reportCallDisconnection (cause : DisconnectCause) (c : R2Chan) :
    c.Aside (reportCallDisconnection cause c) :=
  (setCallState c .disconnected (.inr rfl)).trans (emit _ _ trivial)

end Aside

/-- An incoming call starts. -/
structure Seizes (c d : R2Chan) : Prop where
  numbers : d.numbers = c.numbers
  idle : c.r2State = .idle
  r2State : d.r2State = .seizeAckTxd
  direction : d.direction = .backward
  callState : d.callState = .collecting
  mfState : d.mfState = .seizeAckTxd ∧ d.mfGroup = .backInit ∨
    d.mfState = .detectingDtmf ∧ d.mfGroup = .dtmfBackInit
  out : d.out = c.out ++ [.callState .collecting]

/-- An outgoing call starts. -/
structure Places (cx : R2Context) (c d : R2Chan) : Prop where
  numbers : ∃ ani dnis cat r, d.numbers = (keepNumbers cx ani dnis cat r c).numbers
  idle : c.callState = .idle
  r2State : d.r2State = .seizeTxd
  direction : d.direction = .forward
  callState : d.callState = .dialing
  mfState : d.mfState = c.mfState
  out : d.out = c.out ++ [.callState .dialing]

/-- What the forward side does about a tone of the other side, a protocol error apart. -/
structure Sends (c d : R2Chan) : Prop where
  ani : d.ani = c.ani
  aniLen : d.aniLen = c.aniLen
  dnis : d.dnis = c.dnis
  dnisLen : d.dnisLen = c.dnisLen
  callerAniIsRestricted : d.callerAniIsRestricted = c.callerAniIsRestricted
  callerCategory : d.callerCategory = c.callerCategory
  mfReadTone : d.mfReadTone = c.mfReadTone
  mfThresholdTone : d.mfThresholdTone = c.mfThresholdTone
  mfThresholdTime : d.mfThresholdTime = c.mfThresholdTime
  direction : d.direction = c.direction
  callState : d.callState = c.callState
  mfState : d.mfState = c.mfState ∨ d.mfState.Forward
  r2State : d.r2State = c.r2State
  out : ∃ as, d.out = c.out ++ as ∧ ∀ a ∈ as, a.Aside ∨ (∃ i, a = .readDnis i) ∨
    (∃ i, a = .readAni i) ∨ ∃ m, a = .event (.onCallAccepted m)

/-- The DNIS of an incoming call, and its length. -/
def buffer (c : R2Chan) : List Tone × Nat := (c.dnis, c.dnisLen)

/-- What a request of the backward side and its answer do, protocol errors and what the
user does in a callback apart. -/
structure Collects (c d : R2Chan) : Prop where
  callerCategory : d.callerCategory = c.callerCategory ∨ c.direction = .backward
  dnisSize : d.dnis.length = c.dnis.length
  aniPtr : d.aniPtr = c.aniPtr
  dnisIndex : d.dnisIndex = c.dnisIndex
  categorySent : d.categorySent = c.categorySent
  mfReadTone : d.mfReadTone = c.mfReadTone
  mfThresholdTone : d.mfThresholdTone = c.mfThresholdTone
  mfThresholdTime : d.mfThresholdTime = c.mfThresholdTime
  direction : d.direction = c.direction
  callState : d.callState = c.callState ∨ d.callState = .offered ∨ d.callState = .accepted
  engages : d.callState = c.callState ∨ c.callState = .collecting ∨ c.direction = .backward
  mfState : d.mfState = c.mfState ∨ d.mfState.Backward ∨ d.mfState = .offState
  r2State : d.r2State = c.r2State
  out : ∃ as, d.out = c.out ++ as ∧ ∀ a ∈ as, a ≠ .callState .idle ∧ a ≠ .callState .collecting ∧
    a ≠ .callState .dialing
  dnis : ∃ as, d.out = c.out ++ as ∧ d.buffer = as.foldl Act.inscribe c.buffer

end R2Chan

/-- The elements of a step. The register signalling of a direction is among them only
where it is asked for, and so is the start of an incoming call, which no direction has
yet; the first digit of an outgoing call always is. -/
inductive Turn (cx : R2Context) (env : Env) (ways : Direction → Prop) : R2Chan → R2Chan → Prop where
  | aside (c d : R2Chan) (h : c.Aside d) : Turn cx env ways c d
  | reset (c d : R2Chan) (h : c.Reset d) : Turn cx env ways c d
  | seize (c d : R2Chan) (hw : ways .stopped) (h : c.Seizes d) : Turn cx env ways c d
  | place (c d : R2Chan) (h : c.Places cx d) : Turn cx env ways c d
  | dial (c : R2Chan) (h : c.r2State = .seizeTxd) :
      Turn cx env ways c (mfSendDnis cx env 0 ((c.setR2State .seizeAckRxd).setMfGroup .gi))
  | send (c d : R2Chan) (hw : ways .forward) (h : c.Sends d) : Turn cx env ways c d
  | collect (c d : R2Chan) (hw : ways .backward) (h : c.Collects d) : Turn cx env ways c d

abbrev Turns (cx : R2Context) (env : Env) (ways : Direction → Prop) : R2Chan → R2Chan → Prop :=
  Relation.ReflTransGen (Turn cx env ways)

theorem R2Chan.Aside.turns {cx : R2Context} {env : Env} {ways : Direction → Prop} {c d : R2Chan}
    (h : c.Aside d) : Turns cx env ways c d := .single (.aside c d h)

section Line

variable (cx : R2Context) (env : Env) (ways : Direction → Prop) (c : R2Chan)

theorem protoInit_turns : Turns cx env ways c (protoInit cx c) :=
  .single (.reset c _ (protoInit_reset cx c))

theorem setIdle_turns : Turns cx env ways c (setIdle cx env c).1 :=
  (protoInit_turns cx env ways c).trans (R2Chan.Aside.setCasSignal cx env .idle _).turns

theorem setBlocked_turns : Turns cx env ways c (setBlocked cx env c).1 :=
  (protoInit_turns cx env ways c).trans
    ((R2Chan.Aside.setR2State _ .blocked (.inl (by decide))).trans
      (R2Chan.Aside.setCasSignal cx env .block _)).turns

theorem handleProtocolError_turns (reason : ProtocolError) :
    Turns cx env ways c (handleProtocolError cx env reason c) := by
  have hd : c.Aside (c.did (.mfSelectTone c.mfWriteHandle 0)) := by
    refine R2Chan.Aside.did c _ trivial fun h t he => ?_
    injection he with _ ht
    exact ht.symm
  exact (hd.turns.trans (setIdle_turns cx env ways _)).trans
    (R2Chan.Aside.emit _ (.onProtocolError reason) trivial).turns

theorem reportCallEnd_turns : Turns cx env ways c (reportCallEnd cx env c) :=
  (setIdle_turns cx env ways c).trans (R2Chan.Aside.emit _ .onCallEnd trivial).turns

theorem sendClearBackward_aside : c.Aside (sendClearBackward cx env c).1 :=
  ((R2Chan.Aside.setR2State c _ (.inl (by decide))).trans (.turnOffMfEngine cx _)).trans
    (.setCasSignal cx env _ _)

theorem sendForcedRelease_aside : c.Aside (sendForcedRelease cx env c).1 :=
  ((R2Chan.Aside.setR2State c _ (.inl (by decide))).trans (.turnOffMfEngine cx _)).trans
    (.setCasSignal cx env _ _)

theorem sendClearForward_aside : c.Aside (sendClearForward cx env c).1 :=
  (((R2Chan.Aside.addTimer env _ _ c).trans (.setR2State _ _ (.inl (by decide)))).trans
    (.turnOffMfEngine cx _)).trans (.setCasSignal cx env _ _)

theorem doubleAnswerHandler_aside : c.Aside (doubleAnswerHandler cx env c) := by
  simp only [doubleAnswerHandler]
  have hb := sendClearBackward_aside cx env c
  have ha := R2Chan.Aside.setCasSignal cx env .answer c
  split_ifs
  · exact hb
  · exact (hb.trans (.setR2State _ _ (.inl (by decide)))).trans (.armTimer env _ _ _ _)
  · exact ha
  · exact ha.trans (.setR2State _ _ (.inl (by decide)))
  · exact .refl c

theorem r2MeteringPulse_aside : c.Aside (r2MeteringPulse c) := by
  simp only [r2MeteringPulse]
  split_ifs
  · exact .reportCallDisconnection _ c
  · exact .reportCallDisconnection _ c

theorem startDialingDtmf_aside : c.Aside (startDialingDtmf c) :=
  ⟨rfl, rfl, rfl, .inl rfl, .inr (.inr (.inl rfl)), .inl rfl, [], (List.append_nil _).symm, by simp,
    by simp⟩

theorem ackCall_turns : Turns cx env ways c (ackCall cx env c).1 := by
  have hs : Turns cx env ways c (setCasSignal cx env .seizeAck c).1 :=
    (R2Chan.Aside.setCasSignal cx env .seizeAck c).turns
  simp only [ackCall]
  split_ifs
  · exact hs.trans (handleProtocolError_turns cx env ways _ _)
  · exact hs

end Line

/-- No other tone was selected than this one. -/
def R2Chan.Selects (tone : Tone) (c d : R2Chan) : Prop :=
  ∃ as, d.out = c.out ++ as ∧ ∀ h t, .mfSelectTone h t ∈ as → t = tone

namespace R2Chan.Selects

variable {tone : Tone} {c d e : R2Chan}

theorem refl (tone : Tone) (c : R2Chan) : c.Selects tone c := ⟨[], (List.append_nil _).symm, by simp⟩

theorem trans (h : c.Selects tone d) (h' : d.Selects tone e) : c.Selects tone e := by
  obtain ⟨as, ho, ha⟩ := h
  obtain ⟨bs, ho', hb⟩ := h'
  refine ⟨as ++ bs, by rw [ho', ho, List.append_assoc], fun x t hm => ?_⟩
  exact (List.mem_append.mp hm).elim (ha x t) (hb x t)

theorem did (c : R2Chan) (a : Act) (h : ∀ x t, a = .mfSelectTone x t → t = tone) :
    c.Selects tone (c.did a) :=
  ⟨[a], rfl, fun x t hm => h x t (List.mem_singleton.mp hm).symm⟩

theorem addTimer (env : Env) (ms : Nat) (cb : TimerCallback) (c : R2Chan) :
    c.Selects tone (addTimer env ms cb c).1 := by
  have hg : c.Selects tone (c.did .gettimeofday) := did c _ nofun
  simp only [OpenR2.addTimer]
  split
  · exact hg.trans (did _ (.event .onOsError) nofun)
  · exact hg

theorem armTimer (env : Env) (slot : TimerSlot) (ms : Nat) (cb : TimerCallback) (c : R2Chan) :
    c.Selects tone (armTimer env slot ms cb c) := addTimer env ms cb c

end R2Chan.Selects

section Tones

variable (cx : R2Context) (env : Env)

theorem startMfTone_selects (tone tone' : Tone) (c : R2Chan) :
    c.Selects tone (startMfTone cx env tone' c) := by
  have hf : ∀ d : R2Chan, d.Selects tone (d.did .flushWriteBuffers) := fun d => .did d _ nofun
  simp only [startMfTone]
  split_ifs
  · exact (R2Chan.Selects.armTimer env _ _ _ c).trans (hf _)
  · exact (R2Chan.Selects.armTimer env _ _ _ c).trans (hf _)
  · exact hf c
  · exact hf c

/-- A tone that is taken is the only one that is selected. -/
theorem prepareMfTone_selects (tone : Tone) (c : R2Chan) (hr : ¬ Refuses env tone c) :
    c.Selects tone (prepareMfTone cx env tone c) := by
  have hs : ∀ d : R2Chan, c.Selects tone d → (d.mfWriteTone ≠ tone → env.mfSelectTone d.out = true) →
      c.Selects tone (selectMfTone cx env tone d) := by
    intro d hd ht
    have hx : d.Selects tone (d.did (.mfSelectTone d.mfWriteHandle tone)) := by
      refine .did d _ fun h t he => ?_
      injection he with _ ht
      exact ht.symm
    simp only [selectMfTone]
    split_ifs with h1 h2
    · exact hd
    · exact absurd (h2.symm.trans (ht h1)) (by decide)
    · exact hd.trans hx
    · exact (hd.trans hx).trans (startMfTone_selects cx env tone tone _)
  have hf : c.Selects tone (c.did .flushWriteBuffers) := .did c _ (by rintro _ _ ⟨⟩)
  simp only [prepareMfTone]
  split_ifs with h1 h2
  · refine hs _ hf fun hw => Bool.eq_true_of_not_eq_false fun hx => hr ⟨hw, ?_⟩
    rw [if_pos h1.1]
    exact ⟨h2, hx⟩
  · exact hf
  · refine hs c (.refl tone c) fun hw => Bool.eq_true_of_not_eq_false fun hx => hr ⟨hw, ?_⟩
    rw [if_neg fun h0 => h1 ⟨h0, fun hz => hw (hz.trans h0.symm)⟩]
    exact hx

/-- Silence, or the tone that decides the call: it is taken, or the call is over. -/
theorem prepareMfTone_turns (ways : Direction → Prop) (tone : Tone) (c : R2Chan)
    (ht : tone = 0 ∨ c.callState = .offered) :
    Turns cx env ways c (prepareMfTone cx env tone c) := by
  have hf : ∀ d : R2Chan, d.Aside (d.did .flushWriteBuffers) := fun d => .did d _ trivial nofun
  have hw : ∀ d : R2Chan, d.Aside (d.setMfWriteTone tone) := fun d => .setMfWriteTone d tone
  have hstart : ∀ d : R2Chan, d.Aside (startMfTone cx env tone d) := by
    intro d
    simp only [startMfTone]
    split_ifs
    · exact ((R2Chan.Aside.armTimer env _ _ _ d).trans (hf _)).trans (hw _)
    · exact (R2Chan.Aside.armTimer env _ _ _ d).trans (hf _)
    · exact (hf d).trans (hw _)
    · exact hf d
  have hsel : ∀ d : R2Chan, (tone = 0 ∨ d.callState = .offered) →
      Turns cx env ways d (selectMfTone cx env tone d) := by
    intro d hd
    have hx : d.Aside (d.did (.mfSelectTone d.mfWriteHandle tone)) := by
      refine ⟨rfl, rfl, rfl, .inl rfl, .inl rfl, .inl rfl, [_], rfl, by simp [Act.Aside], ?_⟩
      intro h t hm
      injection List.mem_singleton.mp hm with _ ht
      rwa [ht]
    simp only [selectMfTone]
    split_ifs
    · exact .refl
    · exact hx.turns.trans (handleProtocolError_turns cx env ways _ _)
    · exact (hx.trans (hw _)).turns
    · exact (hx.trans (hstart _)).turns
  simp only [prepareMfTone]
  split_ifs
  · exact (hf c).turns.trans (hsel _ ht)
  · exact (hf c).turns
  · exact hsel c ht

theorem setSilence_turns (ways : Direction → Prop) (c : R2Chan) :
    Turns cx env ways c (setSilence cx env c) :=
  (prepareMfTone_turns cx env ways 0 c (.inl rfl)).trans
    (R2Chan.Aside.setMfWriteTone _ 0).turns

end Tones

section Api

variable (cx : R2Context) (env : Env) (ways : Direction → Prop) (c : R2Chan)

theorem armTimer_setR2State (slot : TimerSlot) (ms : Nat) (cb : TimerCallback) (r : CasState) :
    armTimer env slot ms cb (c.setR2State r) = (armTimer env slot ms cb c).setR2State r := by
  have ho : (c.setR2State r).out = c.out := rfl
  simp only [armTimer, addTimer, ho]
  cases env.gettimeofday c.out <;> rfl

theorem startDtmfDial_turns (b : R2Chan) (hp : ∀ g, b.Places cx (c.setMfGroup g)) :
    Turns cx env ways b (startDtmfDial cx env c).1 := by
  have hb : ∀ g, Turns cx env ways b (c.setMfGroup g) := fun g => .single (.place b _ (hp g))
  have hi : ∀ d : R2Chan, d.Aside (d.did .dtmfTxInit) := fun d => .did d _ trivial nofun
  have ht : ∀ d : R2Chan, d.Aside (d.did (.dtmfTxSetTiming cx.dtmfOn cx.dtmfOff)) :=
    fun d => .did d _ trivial nofun
  have hd : ∀ d : R2Chan, d.Aside (d.did (.dtmfTxPut (cstr c.dnis))) := fun d => .did d _ trivial nofun
  simp only [startDtmfDial]
  split_ifs
  · exact (hb c.mfGroup).trans (hi _).turns
  · exact (hb c.mfGroup).trans (((hi _).trans (ht _)).trans (hd _)).turns
  · exact (hb .dtmfFwdInit).trans (((hi _).trans (ht _)).trans (hd _)).turns

theorem placeCall_turns (ani : Option (List Tone)) (dnis : List Tone) (category : Category)
    (aniRestricted : Bool) (hc : c.callState = .idle) :
    Turns cx env ways c (placeCall cx env ani dnis category aniRestricted c).1 := by
  have ha := R2Chan.Aside.armTimer env .r2Seize cx.timers.r2Seize .seizeTimeoutExpired c
  have hc' : (armTimer env .r2Seize cx.timers.r2Seize .seizeTimeoutExpired c).callState = .idle := by
    obtain ⟨⟨q, w, hf⟩, -⟩ := R2Chan.Tuned.armTimer env .r2Seize cx.timers.r2Seize .seizeTimeoutExpired c
    rw [hf]
    exact hc
  refine ha.turns.trans ?_
  simp only [placeCall, armTimer_setR2State]
  generalize armTimer env .r2Seize cx.timers.r2Seize .seizeTimeoutExpired c = d at hc'
  have hp : ∀ g, d.Places cx ((((keepNumbers cx ani dnis category aniRestricted
      (d.setR2State .seizeTxd)).setCallState .dialing).setDirection .forward).setMfGroup g) := fun g =>
    ⟨⟨ani, dnis, category, aniRestricted, rfl⟩, hc', rfl, rfl, rfl, rfl, rfl⟩
  split_ifs
  · exact startDtmfDial_turns cx env ways _ d hp
  · exact .single (.place d _ (hp .fwdInit))

theorem makeCall_turns (ani : Option (List Tone)) (dnis : List Tone) (category : Category)
    (aniRestricted : Bool) :
    Turns cx env ways c (makeCall cx env ani dnis category aniRestricted c).1 := by
  have hs := R2Chan.Aside.setCasSignal cx env .seize c
  simp only [makeCall]
  split_ifs with _ hc
  · exact .refl
  · exact .refl
  · exact .refl
  · exact hs.turns
  · have hi : (setCasSignal cx env .seize c).1.callState = .idle := not_not.mp hc
    exact hs.turns.trans (placeCall_turns cx env ways _ ani dnis category aniRestricted hi)

/-- The user's decision about a call that was offered: a tone, sent in this state. -/
theorem decide_turns (m : MfState) (hm : m = .acceptedTxd ∨ m = .disconnectTxd) (tone : Tone)
    (hc : c.callState = .offered) :
    Turns cx env ways c (prepareMfTone cx env tone (c.setMfState m)) := by
  have hs : c.Aside (c.setMfState m) :=
    ⟨rfl, rfl, rfl, .inl rfl, .inr (.inr (.inr ⟨hc, hm⟩)), .inl rfl, [], (List.append_nil _).symm,
      by simp, by simp⟩
  exact hs.turns.trans (prepareMfTone_turns cx env ways tone _ (.inr hc))

theorem acceptCall_turns (mode : CallMode) :
    Turns cx env ways c (acceptCall cx env mode c).1 := by
  simp only [acceptCall]
  split_ifs with hc
  · exact .refl
  · exact (R2Chan.Aside.emit c (.onCallAccepted .unknown) rfl).turns
  · exact decide_turns cx env ways c _ (.inl rfl) _ (not_not.mp hc)

theorem doAnswer_aside : c.Aside (doAnswer cx env c).1 := by
  have hs := R2Chan.Aside.setCasSignal cx env .answer c
  simp only [doAnswer]
  split_ifs
  · exact .refl c
  · exact hs
  · exact ((hs.trans (.setCallState _ .answered (.inl rfl))).trans (.setR2State _ _ (.inl (by decide)))).trans
      (.setAnswered _)

theorem answerCall_aside : c.Aside (answerCall cx env c).1 := by
  have ha := doAnswer_aside cx env c
  simp only [answerCall]
  split_ifs
  · exact ha
  · exact ha.trans (.armTimer env _ _ _ _)
  · exact ha

theorem answerCallWithMode_aside (mode : AnswerMode) :
    c.Aside (answerCallWithMode cx env mode c).1 := by
  have ha := doAnswer_aside cx env c
  simp only [answerCallWithMode]
  split_ifs
  · exact ha
  · exact ha.trans (.armTimer env _ _ _ _)
  · exact ha

theorem disconnectCall_turns (cause : DisconnectCause) :
    Turns cx env ways c (disconnectCall cx env cause c).1 := by
  have he := reportCallEnd_turns cx env ways c
  have hb : Turns cx env ways c (sendClearBackward cx env c).1 :=
    (sendClearBackward_aside cx env c).turns
  simp only [disconnectCall]
  split_ifs
  · exact .refl
  · simp only [disconnectBackward]
    split_ifs with _ _ hc
    · exact he
    · exact hb
    · exact decide_turns cx env ways c _ (.inr rfl) _ hc
    · exact he
    · exact (sendForcedRelease_aside cx env c).turns
    · exact hb
  · simp only [disconnectForward]
    split_ifs
    · exact (R2Chan.Aside.setR2State c _ (.inl (by decide))).turns
    · exact ((R2Chan.Aside.setR2State c _ (.inl (by decide))).trans (.armTimer env _ _ _ _)).turns
    · exact he
    · exact (sendClearForward_aside cx env c).turns

theorem apiCall_turns (a : ApiCall) : Turns cx env ways c (apiCall cx env a c).1 := by
  cases a with
  | makeCall ani dnis category r => exact makeCall_turns cx env ways c ani dnis category r
  | acceptCall mode => exact acceptCall_turns cx env ways c mode
  | answerCall => exact (answerCall_aside cx env c).turns
  | answerCallWithMode mode => exact (answerCallWithMode_aside cx env c mode).turns
  | disconnectCall cause => exact disconnectCall_turns cx env ways c cause
  | ackCall => exact ackCall_turns cx env ways c
  | setIdle => exact setIdle_turns cx env ways c
  | setBlocked => exact setBlocked_turns cx env ways c

/-- A callback, and what the user does in it. -/
theorem callback_turns (e : Event) : Turns cx env ways (c.emit e) (callback cx env e c) := by
  simp only [callback]
  split
  · exact .refl
  · exact apiCall_turns cx env ways _ _

end Api

section Line

variable (cx : R2Context) (env : Env) (ways : Direction → Prop) (c : R2Chan)

theorem incomingCall_turns (hw : ways .stopped) (b : R2Chan) (hs : b.Seizes
    (((c.setR2State .seizeAckTxd).setCallState .collecting).setDirection .backward)) :
    Turns cx env ways b (incomingCall cx env c) := by
  have hb : Turns cx env ways b (callback cx env .onCallInit
      (((c.setR2State .seizeAckTxd).setCallState .collecting).setDirection .backward)) :=
    ((Relation.ReflTransGen.single (.seize _ _ hw hs)).trans
      (R2Chan.Aside.emit _ .onCallInit trivial).turns).trans (callback_turns cx env ways _ _)
  simp only [incomingCall]
  split_ifs
  · exact hb.trans (ackCall_turns cx env ways _)
  · exact hb

/-- A call comes in on a line that is idle. -/
theorem handleIncomingCall_turns (hs : ways .stopped) (hr : c.r2State = .idle) :
    Turns cx env ways c (handleIncomingCall cx env c) := by
  simp only [handleIncomingCall]
  split_ifs
  · have hd : c.Aside (c.did .dtmfRxInit) := .did c _ trivial (by rintro _ _ ⟨⟩)
    exact hd.turns.trans (handleProtocolError_turns cx env ways _ _)
  · have hd : c.Aside (c.did .dtmfRxInit) := .did c _ trivial (by rintro _ _ ⟨⟩)
    have hr : (c.did .dtmfRxInit).r2State = .idle := hr
    generalize c.did .dtmfRxInit = e at hd hr ⊢
    refine hd.turns.trans (incomingCall_turns cx env ways _ hs _ ?_)
    exact ⟨rfl, hr, rfl, rfl, rfl, .inr ⟨rfl, rfl⟩, rfl⟩
  · have hw : c.Aside (c.did (.mfWriteInit c.mfWriteHandle false)) := .did c _ trivial (by rintro _ _ ⟨⟩)
    split
    · exact hw.turns.trans (handleProtocolError_turns cx env ways _ _)
    · have hr : (c.did (.mfWriteInit c.mfWriteHandle false)).r2State = .idle := hr
      generalize c.did (.mfWriteInit c.mfWriteHandle false) = e at hw hr ⊢
      have hd : c.Aside (e.did (.mfReadInit e.mfReadHandle true)) := hw.trans (.did e _ trivial (by rintro _ _ ⟨⟩))
      have hr : (e.did (.mfReadInit e.mfReadHandle true)).r2State = .idle := hr
      generalize e.did (.mfReadInit e.mfReadHandle true) = b at hd hr ⊢
      split
      · exact hd.turns.trans (handleProtocolError_turns cx env ways _ _)
      · refine hd.turns.trans (incomingCall_turns cx env ways _ hs _ ?_)
        exact ⟨rfl, hr, rfl, rfl, rfl, .inl ⟨rfl, rfl⟩, rfl⟩

theorem invalidCas_turns (reason : ProtocolError) :
    Turns cx env ways c (invalidCas cx env reason c) :=
  (R2Chan.Aside.logRx c .invalid).turns.trans (handleProtocolError_turns cx env ways _ _)

theorem casIdle_turns (hw : ways .stopped) (cas : Nat) (hr : c.r2State = .idle) :
    Turns cx env ways c (casIdle cx env cas c) := by
  have hl : ∀ s, Turns cx env ways c (c.logRx s) := fun s => (R2Chan.Aside.logRx c s).turns
  simp only [casIdle]
  split_ifs
  · exact (hl .block).trans (R2Chan.Aside.emit _ .onLineBlocked trivial).turns
  · exact (hl .idle).trans (R2Chan.Aside.emit _ .onLineIdle trivial).turns
  · exact (hl .seize).trans (handleIncomingCall_turns cx env ways _ hw hr)
  · exact invalidCas_turns cx env ways c _

/-- The line is set to another state of the call, and the user may hear of it. -/
theorem logRx_setR2State_aside (s : CasSignal) (r : CasState) (h : r.Onward) :
    c.Aside ((c.logRx s).setR2State r) := (R2Chan.Aside.logRx c s).trans (.setR2State _ r (.inl h))

theorem casBackwardCall_turns (cas : Nat) : Turns cx env ways c (casBackwardCall cx env cas c) := by
  simp only [casBackwardCall]
  split_ifs
  · exact ((logRx_setR2State_aside c _ _ (by decide)).trans (.reportCallDisconnection _ _)).turns
  · exact invalidCas_turns cx env ways c _

theorem seizeAcknowledged_turns (hr : c.r2State = .seizeTxd) :
    Turns cx env ways c (seizeAcknowledged cx env c) := by
  have hs : c.Aside (c.setR2State .seizeAckRxd) := .setR2State c _ (.inr ⟨hr, rfl⟩)
  have he : ∀ d : R2Chan, Turns cx env ways d (d.emit .onCallProceed) :=
    fun d => (R2Chan.Aside.emit d .onCallProceed trivial).turns
  simp only [seizeAcknowledged]
  refine Relation.ReflTransGen.trans ?_ (he _)
  split_ifs
  · exact ((hs.trans (.armTimer env _ _ _ _)).trans (.armTimer env _ _ _ _)).turns
  · -- the detectors are set up after the state, which makes no difference
    let d := (c.did (.mfWriteInit c.mfWriteHandle true)).did (.mfReadInit c.mfReadHandle false)
    have hd : c.Aside d := (R2Chan.Aside.did c (.mfWriteInit c.mfWriteHandle true) trivial nofun).trans
      (.did _ (.mfReadInit c.mfReadHandle false) trivial nofun)
    exact hd.turns.trans (.single (.dial d hr))

theorem casSeizeTxd_turns (cas : Nat)
    (hr : c.r2State = .seizeTxd ∨ c.r2State = .seizeTxdClearFwdPending) :
    Turns cx env ways c (casSeizeTxd cx env cas c) := by
  simp only [casSeizeTxd]
  split_ifs with _ hp
  · exact ((R2Chan.Aside.logRx c _).trans (.cancelTimer _ _)).turns.trans
      (sendClearForward_aside cx env _).turns
  · exact ((R2Chan.Aside.logRx c _).trans (.cancelTimer _ _)).turns.trans
      (seizeAcknowledged_turns cx env ways _ (hr.resolve_right hp))
  · exact (((logRx_setR2State_aside c _ _ (by decide)).trans (.cancelTimer _ _)).trans
      (.reportCallDisconnection _ _)).turns
  · exact invalidCas_turns cx env ways c _

theorem casDoubleSeizure_turns (cas : Nat) :
    Turns cx env ways c (casDoubleSeizure cx env cas c) := by
  simp only [casDoubleSeizure]
  split_ifs
  · exact (logRx_setR2State_aside c _ _ (by decide)).turns
  · exact (R2Chan.Aside.logRx c _).turns.trans (reportCallEnd_turns cx env ways _)
  · exact invalidCas_turns cx env ways c _

theorem casDisconnectTxd_turns (cas : Nat) :
    Turns cx env ways c (casDisconnectTxd cx env cas c) := by
  simp only [casDisconnectTxd]
  split_ifs
  · exact (R2Chan.Aside.logRx c _).turns.trans (reportCallEnd_turns cx env ways _)
  · exact invalidCas_turns cx env ways c _

theorem callAnswered_aside : c.Aside (callAnswered cx c) :=
  (((((R2Chan.Aside.cancelTimer c .r2Answer).trans (.setR2State _ .answerRxd (.inl (by decide)))).trans
    (.setCallState _ .answered (.inl rfl))).trans (.turnOffMfEngine cx _)).trans (.setAnswered _)).trans
      (.emit _ .onCallAnswered trivial)

theorem dtmfCallAnswered_aside : c.Aside (dtmfCallAnswered c) :=
  ((((R2Chan.Aside.cancelTimer c .r2Answer).trans (.setR2State _ .answerRxd (.inl (by decide)))).trans
    (.setCallState _ .answered (.inl rfl))).trans (.setAnswered _)).trans (.emit _ .onCallAnswered trivial)

/-- A disconnection by the other end, in one of the states that mean it. -/
theorem checkBackwardDisconnection_onward {cas : Nat} {d : Disconnection}
    (h : checkBackwardDisconnection cx cas = some d) : d.state.Onward := by
  simp only [checkBackwardDisconnection] at h
  split_ifs at h
  · obtain rfl := Option.some.inj h
    exact ⟨nofun, nofun, nofun⟩
  · obtain rfl := Option.some.inj h
    exact ⟨nofun, nofun, nofun⟩

theorem casAcceptRxd_turns (cas : Nat) : Turns cx env ways c (casAcceptRxd cx env cas c) := by
  simp only [casAcceptRxd]
  split_ifs
  · exact ((R2Chan.Aside.logRx c _).trans (callAnswered_aside cx _)).turns
  · split
    · rename_i d hd
      exact ((logRx_setR2State_aside c _ _ (checkBackwardDisconnection_onward cx hd)).trans
        (.reportCallDisconnection _ _)).turns
    · exact invalidCas_turns cx env ways c _

theorem casSeizeAckRxd_turns (cas : Nat) : Turns cx env ways c (casSeizeAckRxd cx env cas c) := by
  simp only [casSeizeAckRxd]
  split_ifs
  · exact (logRx_setR2State_aside c _ _ (by decide)).turns
  · split
    · rename_i d hd
      exact ((logRx_setR2State_aside c _ _ (checkBackwardDisconnection_onward cx hd)).trans
        (.reportCallDisconnection _ _)).turns
    · exact ((R2Chan.Aside.logRx c _).trans (dtmfCallAnswered_aside _)).turns
  · split
    · rename_i d hd
      exact ((logRx_setR2State_aside c _ _ (checkBackwardDisconnection_onward cx hd)).trans
        (.reportCallDisconnection _ _)).turns
    · exact invalidCas_turns cx env ways c _

theorem releaseOrPulse_aside (cause : DisconnectCause) : c.Aside (releaseOrPulse cx env cause c) := by
  simp only [releaseOrPulse]
  split_ifs
  · exact .armTimer env _ _ _ c
  · exact .reportCallDisconnection _ c

theorem casAnswerRxd_turns (cas : Nat) : Turns cx env ways c (casAnswerRxd cx env cas c) := by
  simp only [casAnswerRxd]
  split_ifs
  · exact ((logRx_setR2State_aside c _ _ (by decide)).trans (releaseOrPulse_aside cx env _ _)).turns
  · exact ((logRx_setR2State_aside c _ _ (by decide)).trans (.reportCallDisconnection _ _)).turns
  · exact ((logRx_setR2State_aside c _ _ (by decide)).trans (releaseOrPulse_aside cx env _ _)).turns
  · exact invalidCas_turns cx env ways c _

theorem casAwaitIdle_turns (cas : Nat) : Turns cx env ways c (casAwaitIdle cx env cas c) := by
  simp only [casAwaitIdle]
  split_ifs
  · exact (R2Chan.Aside.logRx c _).turns.trans (reportCallEnd_turns cx env ways _)
  · exact invalidCas_turns cx env ways c _

theorem casClearFwdTxd_turns (cas : Nat) : Turns cx env ways c (casClearFwdTxd cx env cas c) := by
  simp only [casClearFwdTxd]
  split_ifs
  · exact (R2Chan.Aside.logRx c _).turns.trans (reportCallEnd_turns cx env ways _)
  · split
    · exact (logRx_setR2State_aside c _ _ (by decide)).turns
    · exact invalidCas_turns cx env ways c _

theorem casReleaseRxd_turns (cas : Nat) : Turns cx env ways c (casReleaseRxd cx env cas c) := by
  simp only [casReleaseRxd]
  split_ifs
  · exact ((((R2Chan.Aside.logRx c _).trans (.cancelTimer _ _)).trans (.setR2State _ _ (.inl (by decide)))).trans
      (.emit _ .onBillingPulseReceived trivial)).turns
  · exact invalidCas_turns cx env ways c _

theorem casBlocked_aside (cas : Nat) : c.Aside (casBlocked cx cas c) := by
  simp only [casBlocked]
  split_ifs
  · exact (R2Chan.Aside.logRx c _).trans (.emit _ .onLineIdle trivial)
  · exact .logRx c _

theorem casInit_turns (cas : Nat) : Turns cx env ways c (casInit cx env cas c) := by
  simp only [casInit]
  split_ifs
  · exact ((R2Chan.Aside.logRx c _).trans (.emit _ .onLineIdle trivial)).turns
  · exact ((R2Chan.Aside.logRx c _).trans (.emit _ .onLineBlocked trivial)).turns
  · exact invalidCas_turns cx env ways c _

theorem casSwitch_turns (hw : ways .stopped) (cas : Nat) : Turns cx env ways c (casSwitch cx env cas c) := by
  simp only [casSwitch]
  split
  · exact casIdle_turns cx env ways c hw cas ‹_›
  · exact casBackwardCall_turns cx env ways c cas
  · exact casBackwardCall_turns cx env ways c cas
  · exact casBackwardCall_turns cx env ways c cas
  · exact casSeizeTxd_turns cx env ways c cas (.inl ‹_›)
  · exact casSeizeTxd_turns cx env ways c cas (.inr ‹_›)
  · exact casDoubleSeizure_turns cx env ways c cas
  · exact casDoubleSeizure_turns cx env ways c cas
  · exact casDisconnectTxd_turns cx env ways c cas
  · exact casDisconnectTxd_turns cx env ways c cas
  · exact casAcceptRxd_turns cx env ways c cas
  · exact casSeizeAckRxd_turns cx env ways c cas
  · exact casAnswerRxd_turns cx env ways c cas
  · exact casAnswerRxd_turns cx env ways c cas
  · exact casAwaitIdle_turns cx env ways c cas
  · exact casAwaitIdle_turns cx env ways c cas
  · exact casClearFwdTxd_turns cx env ways c cas
  · exact casReleaseRxd_turns cx env ways c cas
  · exact casReleaseRxd_turns cx env ways c cas
  · exact (casBlocked_aside cx c cas).turns
  · exact casInit_turns cx env ways c cas
  · exact invalidCas_turns cx env ways c _
  · exact invalidCas_turns cx env ways c _

theorem ioGetCas_aside : c.Aside (ioGetCas env c).1 := by
  have hd : c.Aside (c.did .getCas) := .did c _ trivial nofun
  unfold ioGetCas
  cases env.getCas c.out with
  | none => exact hd
  | some raw => exact hd.trans (.setCasRawRead _ raw)

theorem checkPersistence_aside (cas : Nat) : c.Aside (checkPersistence cx env cas c) :=
  (R2Chan.Aside.setPersistence c (some cas)).trans (.armTimer env _ _ _ _)

theorem pollCas_aside : c.Aside (pollCas cx env c).1 := by
  have hg := ioGetCas_aside env c
  unfold pollCas
  dsimp only
  split
  · exact hg
  · split_ifs
    · exact (hg.trans (.cancelTimer _ _)).trans (.setPersistence _ _)
    · exact hg
    · exact (hg.trans (.cancelTimer _ _)).trans (checkPersistence_aside cx env _ _)
    · exact hg

theorem casPattern_aside : c.Aside (casPattern cx env c).1 := by
  unfold casPattern
  split
  · exact pollCas_aside cx env c
  · split_ifs
    · exact .setPersistence c none
    · exact pollCas_aside cx env c

theorem handleCas_turns (hw : ways .stopped) : Turns cx env ways c (handleCas cx env c) := by
  have hp : Turns cx env ways c (casPattern cx env c).1 := (casPattern_aside cx env c).turns
  simp only [handleCas]
  split
  · exact hp
  · refine hp.trans ?_
    simp only [actOnCas]
    split_ifs
    · exact .refl
    · exact (R2Chan.Aside.setCasRead _ _).turns.trans (casSwitch_turns cx env ways _ hw _)

theorem persistenceCheckExpired_turns (hw : ways .stopped) :
    Turns cx env ways c (persistenceCheckExpired cx env c) := by
  let d := c.mapTimers (·.setSlot .casPersistenceCheck 0)
  have hg : c.Aside (ioGetCas env d).1 := (R2Chan.Aside.mapTimers c _).trans (ioGetCas_aside env d)
  simp only [persistenceCheckExpired]
  split
  · exact hg.turns
  · split_ifs
    · exact hg.turns.trans (handleCas_turns cx env ways _ hw)
    · exact (hg.trans (checkPersistence_aside cx env _ _)).turns
    · exact (hg.trans (.setPersistence _ _)).turns

theorem handleAlarm_turns (hw : ways .stopped) (on : Bool) : Turns cx env ways c (handleAlarm cx env on c) := by
  have hi : Turns cx env ways c ((c.setInalarm on).emit (.onHardwareAlarm on)) :=
    ((R2Chan.Aside.setInalarm c on).trans (.emit _ (.onHardwareAlarm on) trivial)).turns
  have hf : ∀ d : R2Chan, Turns cx env ways d (forgetLine d) := fun d =>
    (R2Chan.Aside.forgetLine d).turns
  unfold handleAlarm
  refine hi.trans ?_
  unfold handleAlarmState
  split_ifs
  · exact (handleProtocolError_turns cx env ways _ _).trans (hf _)
  · exact hf _
  · exact (setIdle_turns cx env ways _).trans (handleCas_turns cx env ways _ hw)
  · exact (setBlocked_turns cx env ways _).trans (handleCas_turns cx env ways _ hw)

end Line

section Steps

variable (cx : R2Context) (env : Env) (ways : Direction → Prop) (c : R2Chan)

/-- All timers but the one of a backward request. -/
theorem runTimer_turns (hw : ways .stopped) {cb : TimerCallback} (h : cb ≠ .mfBackCycleTimeoutExpired) :
    Turns cx env ways c (runTimer cx env cb c) := by
  cases cb with
  | mfFwdSafetyTimeoutExpired => exact handleProtocolError_turns cx env ways c _
  | mfBackCycleTimeoutExpired => exact absurd rfl h
  | mfBackResumeCycle => exact setSilence_turns cx env ways c
  | seizeTimeoutExpired => exact handleProtocolError_turns cx env ways c _
  | r2SeizePersistExpired => exact (sendClearForward_aside cx env c).turns
  | r2AnswerTimeoutExpired => exact (R2Chan.Aside.reportCallDisconnection _ c).turns
  | readyToAnswer => exact (R2Chan.Aside.emit c (.onCallAccepted .unknown) rfl).turns
  | doubleAnswerHandler => exact (doubleAnswerHandler_aside cx env c).turns
  | r2MeteringPulse => exact (r2MeteringPulse_aside c).turns
  | r2SetCallDown => exact reportCallEnd_turns cx env ways c
  | persistenceCheckExpired => exact persistenceCheckExpired_turns cx env ways c hw
  | startDialingDtmf => exact (startDialingDtmf_aside c).turns

/-- A step neither of the tone detector nor of the timer of a backward request. -/
theorem step_turns (hw : ways .stopped) (i : Input) (hi : ∀ tone, i ≠ .mfTone tone)
    (ht : ∀ id t, i = .timer id → c.timer? id = some t → t.callback ≠ .mfBackCycleTimeoutExpired) :
    Turns cx env ways c.start (step cx env i c) := by
  cases i with
  | cas => exact handleCas_turns cx env ways _ hw
  | mfTone tone => exact absurd rfl (hi tone)
  | timer id =>
    simp only [step, expire]
    split
    · exact .refl
    · rename_i t he
      exact (R2Chan.Aside.mapTimers _ _).turns.trans
        (runTimer_turns cx env ways _ hw (ht id t rfl he))
  | api a => exact apiCall_turns cx env ways _ a
  | alarm on => exact handleAlarm_turns cx env ways _ hw on

end Steps

end OpenR2
