import OpenR2.Proofs.Phases
import OpenR2.Proofs.StepAtoms

namespace OpenR2

/-- Line states that a channel without a call can have. -/
def CasState.Resting (r : CasState) : Prop := r = .init ∨ r = .idle ∨ r = .blocked

instance (r : CasState) : Decidable r.Resting := by unfold CasState.Resting; exact inferInstance

/-- Line states in which the call is an outgoing one whatever the user has called. -/
def CasState.Outbound : CasState → Prop
  | .clearFwdTxd | .clearBackAfterClearFwdRxd => False
  | r => r.Forward

namespace R2Chan

/-- Of a call that is over nothing is left but the check of a line pattern, and each timer
finds the direction that its expiry supposes. -/
structure Grounded (c : R2Chan) : Prop where
  idle : c.callState = .idle → c.direction = .stopped ∧ c.r2State.Resting ∧
    ∀ cb ∈ c.pending, cb = .persistenceCheckExpired
  rest : c.r2State = .idle → c.callState = .idle
  calling : c.r2State.Outbound → c.direction = .forward
  trusts : ∀ cb ∈ c.pending, cb.Trusts c.direction

variable {c d : R2Chan}

theorem Grounded.same (h : c.Grounded) (hd : d.direction = c.direction)
    (hs : d.callState = c.callState) (hr : d.r2State = c.r2State) (hp : d.pending ⊆ c.pending) :
    d.Grounded := by
  refine ⟨fun hx => ?_, ?_, ?_, fun cb hcb => ?_⟩
  · obtain ⟨h1, h2, h3⟩ := h.idle (hs ▸ hx)
    exact ⟨hd.trans h1, hr ▸ h2, fun cb hcb => h3 cb (hp hcb)⟩
  · rw [hr, hs]
    exact h.rest
  · rw [hr, hd]
    exact h.calling
  · rw [hd]
    exact h.trusts cb (hp hcb)

theorem Grounded.frame (h : c.Grounded) (hf : d.frame = c.frame) : d.Grounded := by
  refine h.same (congrArg Frame.direction hf) (congrArg Frame.callState hf)
    (congrArg Frame.r2State hf) ?_
  have ht : d.timers = c.timers := congrArg Frame.timers hf
  rw [R2Chan.pending, ht]
  exact fun _ hx => hx

theorem Grounded.live (h : c.Grounded) (hd : c.direction = .backward) : c.callState ≠ .idle :=
  fun hx => absurd (hd.symm.trans (h.idle hx).1) (by decide)

/-- A channel that has been reset. -/
theorem grounded_reset {r : CasState} (hd : d.direction = .stopped) (hs : d.callState = .idle)
    (hr : d.r2State = r) (hx : r.Resting) (hp : d.pending = []) : d.Grounded := by
  refine ⟨fun _ => ⟨hd, hr ▸ hx, fun cb hcb => ?_⟩, fun _ => hs, fun hc => ?_, fun cb hcb => ?_⟩
  · rw [hp] at hcb
    exact absurd hcb List.not_mem_nil
  · rw [hr] at hc
    rcases hx with rfl | rfl | rfl <;> exact hc.elim
  · rw [hp] at hcb
    exact absurd hcb List.not_mem_nil

/-- Another line state within a call. -/
theorem Grounded.hop (h : c.Grounded) {r : CasState} (hi : c.callState ≠ .idle) (hn : r ≠ .idle)
    (hr : r.Outbound → c.direction = .forward) : (c.setR2State r).Grounded :=
  ⟨fun hx => absurd hx hi, fun hx => absurd hx hn, hr, h.trusts⟩

/-- Another call state within a call. -/
theorem Grounded.setCallState (h : c.Grounded) (s : CallState) (hs : s ≠ .idle)
    (hr : c.r2State ≠ .idle) : (c.setCallState s).Grounded :=
  ⟨fun hx => absurd hx hs, fun hx => absurd hx hr, h.calling, h.trusts⟩

/-- At most the timer of a backward cycle goes. -/
theorem turnOffMfEngine_sublist (cx : R2Context) (c : R2Chan) :
    (turnOffMfEngine cx c).pending.Sublist c.pending := by
  obtain ⟨-, ht, -⟩ := turnOffMfEngine_turnedOff cx c
  refine List.Sublist.map _ ?_
  rcases ht with ht | ht
  · rw [ht]
  · rw [ht]
    exact c.timers.cancelTimer_sublist .mfBackCycle

theorem turnOffMfEngine_pending (cx : R2Context) (c : R2Chan) :
    (turnOffMfEngine cx c).pending ⊆ c.pending :=
  (turnOffMfEngine_sublist cx c).subset

theorem Grounded.turnOff (h : c.Grounded) (cx : R2Context) : (turnOffMfEngine cx c).Grounded := by
  obtain ⟨⟨r, w, x, y, q, hf⟩, -⟩ := turnOffMfEngine_turnedOff cx c
  refine h.same ?_ ?_ ?_ (turnOffMfEngine_pending cx c) <;> rw [hf]

theorem addTimer_pending (env : Env) (ms : Nat) (cb : TimerCallback) (c : R2Chan) :
    (addTimer env ms cb c).1.pending ⊆ cb :: c.pending := by
  intro x hx
  simp only [addTimer] at hx
  split at hx
  · exact List.mem_cons_of_mem _ hx
  · obtain ⟨t, ht, rfl⟩ := List.mem_map.mp hx
    rcases TimerQueue.mem_addTimer ht with ht | ⟨-, rfl⟩
    · exact List.mem_cons_of_mem _ (List.mem_map_of_mem ht)
    · exact List.mem_cons_self

theorem armTimer_pending (env : Env) (slot : TimerSlot) (ms : Nat) (cb : TimerCallback) (c : R2Chan) :
    (armTimer env slot ms cb c).pending ⊆ cb :: c.pending := addTimer_pending env ms cb c

end R2Chan

section Atoms

variable {cx : R2Context} {env : Env} {ok : Chance → R2Chan → Prop} {c d : R2Chan}

theorem protoInit_grounded (cx : R2Context) (c : R2Chan) : (protoInit cx c).Grounded := by
  obtain ⟨⟨rx, r, w, x, y, hf⟩, -⟩ := protoInit_reset cx c
  rw [hf]
  exact R2Chan.grounded_reset rfl rfl rfl (.inr (.inl rfl)) rfl

theorem block_grounded (cx : R2Context) (c : R2Chan) : ((protoInit cx c).setR2State .blocked).Grounded := by
  obtain ⟨⟨rx, r, w, x, y, hf⟩, -⟩ := protoInit_reset cx c
  rw [hf]
  exact R2Chan.grounded_reset rfl rfl rfl (.inr (.inr rfl)) rfl

/-- A timer is scheduled in a call whose direction it supposes. -/
theorem R2Chan.Grounded.arms (h : c.Grounded) {cb : TimerCallback} (ha : c.Arms cb) :
    cb.Trusts c.direction ∧ (c.callState = .idle → cb = .persistenceCheckExpired) := by
  have hc : ∀ r, c.r2State = r → r.Outbound → c.direction = .forward := fun r hr hx =>
    h.calling (hr ▸ hx)
  refine ⟨?_, fun hi => ?_⟩
  · cases cb with
    | mfBackCycleTimeoutExpired => exact ha
    | readyToAnswer => exact ha.1
    | r2SeizePersistExpired => exact hc _ ha trivial
    | r2AnswerTimeoutExpired => exact ha.elim id fun hr => hc _ hr trivial
    | r2MeteringPulse => exact ha.elim (fun hr => hc _ hr trivial) fun hr => hc _ hr trivial
    | startDialingDtmf => exact ha.elim
    | _ => trivial
  · obtain ⟨hd, hr, -⟩ := h.idle hi
    have hn : ¬ c.r2State.Forward ∧ ∀ r, c.r2State = r → r.Resting := by
      refine ⟨fun hf => ?_, fun r he => he ▸ hr⟩
      rcases hr with hr | hr | hr <;> rw [hr] at hf <;> exact hf
    have ho : ¬ c.Outgoing := by
      rintro (hx | hx | ⟨-, hx⟩)
      · exact absurd (hd.symm.trans hx) (by decide)
      · exact hn.1 hx
      · exact hx hi
    cases cb with
    | persistenceCheckExpired => rfl
    | mfFwdSafetyTimeoutExpired => exact absurd ha ho
    | r2SetCallDown => exact absurd ha ho
    | mfBackCycleTimeoutExpired => exact absurd (hd.symm.trans ha) (by decide)
    | mfBackResumeCycle => exact absurd (hd.symm.trans ha) (by decide)
    | readyToAnswer => exact absurd (hd.symm.trans ha.1) (by decide)
    | r2AnswerTimeoutExpired =>
      rcases ha with hx | hx
      · exact absurd (hd.symm.trans hx) (by decide)
      · exact absurd (hn.2 _ hx) (by decide)
    | seizeTimeoutExpired => exact ha.elim
    | r2SeizePersistExpired => exact absurd (hn.2 _ ha) (by decide)
    | doubleAnswerHandler => rcases ha with hx | hx <;> exact absurd (hn.2 _ hx) (by decide)
    | r2MeteringPulse => rcases ha with hx | hx <;> exact absurd (hn.2 _ hx) (by decide)
    | startDialingDtmf => exact ha.elim

/-- A call that goes on has not come to rest. -/
theorem R2Chan.Grounded.busy (h : c.Grounded) (hr : ¬ c.r2State.Resting) : c.callState ≠ .idle :=
  fun hi => hr (h.idle hi).2.1

theorem R2Chan.Grounded.moving (h : c.Grounded) (hd : c.direction ≠ .stopped) : c.callState ≠ .idle :=
  fun hi => hd (h.idle hi).1

theorem R2Chan.Grounded.hops (h : c.Grounded) {r : CasState} (hr : c.Hops cx r) :
    c.callState ≠ .idle ∧ r ≠ .idle ∧ (r.Outbound → c.direction = .forward) := by
  have hb : ∀ s, c.r2State = s → ¬ s.Resting → c.callState ≠ .idle := fun s hs hx =>
    h.busy (hs ▸ hx)
  have hc : ∀ s, c.r2State = s → s.Outbound → c.direction = .forward := fun s hs hx =>
    h.calling (hs ▸ hx)
  cases hr with
  | clearFwdRxd hs =>
    refine ⟨?_, by decide, fun hx => hx.elim⟩
    rcases hs with hs | hs | hs | hs | hs | hs <;> exact hb _ hs (by decide)
  | glare hs =>
    refine ⟨?_, by decide, fun _ => ?_⟩
    · rcases hs with hs | hs <;> exact hb _ hs (by decide)
    · rcases hs with hs | hs <;> exact hc _ hs trivial
  | holdSeize hs => exact ⟨hb _ hs (by decide), by decide, fun _ => hc _ hs trivial⟩
  | holdGlare hs => exact ⟨hb _ hs (by decide), by decide, fun _ => hc _ hs trivial⟩
  | release _ hs hr =>
    refine ⟨?_, ?_, fun _ => ?_⟩
    · rcases hs with hs | hs | hs | hs <;> exact hb _ hs (by decide)
    · rcases hr with rfl | rfl <;> decide
    · rcases hs with hs | hs | hs | hs <;> exact hc _ hs trivial
  | earlyAnswer hs _ => exact ⟨hb _ hs (by decide), by decide, fun _ => hc _ hs trivial⟩
  | lateRelease hs => exact ⟨hb _ hs (by decide), by decide, fun hx => hx.elim⟩
  | reject hd _ => exact ⟨h.moving (by rw [hd]; decide), by decide, fun _ => hd⟩
  | clearBack hs =>
    refine ⟨?_, by decide, fun hx => hx.elim⟩
    rcases hs with hd | hs
    · exact h.moving (by rw [hd]; decide)
    · exact h.busy fun hx => by rcases hx with hx | hx | hx <;> rw [hx] at hs <;> exact hs
  | forcedRelease hd => exact ⟨h.moving (by rw [hd]; decide), by decide, fun hx => hx.elim⟩
  | executeDouble hs => exact ⟨hb _ hs (by decide), by decide, fun hx => hx.elim⟩
  | reanswer hs => exact ⟨hb _ hs (by decide), by decide, fun hx => hx.elim⟩
  | clearForward hs =>
    refine ⟨?_, by decide, fun hx => hx.elim⟩
    rcases hs with hd | hs | ⟨-, hs⟩
    · exact h.moving (by rw [hd]; decide)
    · exact h.busy fun hx => by rcases hx with hx | hx | hx <;> rw [hx] at hs <;> exact hs
    · exact hs

/-- Another set of timers. -/
theorem R2Chan.Grounded.schedule (h : c.Grounded) {cb : TimerCallback}
    (ha : cb.Trusts c.direction ∧ (c.callState = .idle → cb = .persistenceCheckExpired)) (hd : d.direction = c.direction) (hs : d.callState = c.callState) (hr : d.r2State = c.r2State)
    (hp : d.pending ⊆ cb :: c.pending) : d.Grounded := by
  obtain ⟨ht, hi⟩ := ha
  refine ⟨fun hx => ?_, ?_, ?_, fun x hx => ?_⟩
  · rw [hs] at hx
    obtain ⟨h1, h2, h3⟩ := h.idle hx
    refine ⟨hd.trans h1, hr ▸ h2, fun x hm => ?_⟩
    rcases List.mem_cons.mp (hp hm) with rfl | hm
    · exact hi hx
    · exact h3 x hm
  · rw [hr, hs]
    exact h.rest
  · rw [hr, hd]
    exact h.calling
  · rw [hd]
    rcases List.mem_cons.mp (hp hx) with rfl | hm
    · exact ht
    · exact h.trusts x hm

/-- The other end has seen the seize. -/
theorem R2Chan.Grounded.acknowledged (h : c.Grounded) (hr : c.r2State = .seizeTxd) :
    (c.setR2State .seizeAckRxd).Grounded :=
  h.hop (h.busy (by rw [hr]; decide)) (by decide) fun _ => h.calling (by rw [hr]; trivial)

/-- A call begins, with the timers of an idle line and some of its own. -/
theorem R2Chan.Grounded.begin (h : c.Grounded) (hi : c.callState = .idle) (hs : d.callState ≠ .idle)
    (hr : d.r2State ≠ .idle) (hc : d.r2State.Outbound → d.direction = .forward)
    (hp : ∀ cb ∈ d.pending, cb.Trusts d.direction ∨ cb ∈ c.pending) : d.Grounded := by
  refine ⟨fun hx => absurd hx hs, fun hx => absurd hx hr, hc, fun cb hcb => ?_⟩
  rcases hp cb hcb with hcb | hcb
  · exact hcb
  · rw [(h.idle hi).2.2 cb hcb]
    trivial

theorem R2Chan.Grounded.receive (h : c.Grounded) (hi : c.callState = .idle) (m : MfState) (g : MfGroup) :
    (c.receive m g).Grounded :=
  h.begin hi nofun nofun (fun hx => (hx : False).elim) fun _ hx => .inr hx

theorem cancelTimer_pending (slot : TimerSlot) (c : R2Chan) : (c.cancelTimer slot).pending ⊆ c.pending :=
  ((c.timers.cancelTimer_sublist slot).map _).subset

theorem callAnswered_eq (cx : R2Context) (c : R2Chan) : callAnswered cx c = (turnOffMfEngine cx
    (((c.cancelTimer .r2Answer).setR2State .answerRxd).setCallState .answered)).setAnswered.emit
      .onCallAnswered := by
  unfold callAnswered
  rfl

theorem callAnswered_frame (cx : R2Context) (c : R2Chan) :
    (callAnswered cx c).direction = c.direction ∧ (callAnswered cx c).callState = .answered ∧
      (callAnswered cx c).r2State = .answerRxd ∧ (callAnswered cx c).pending ⊆ c.pending := by
  let d := ((c.cancelTimer .r2Answer).setR2State .answerRxd).setCallState .answered
  have hd : callAnswered cx c = (turnOffMfEngine cx d).setAnswered.emit .onCallAnswered :=
    callAnswered_eq cx c
  obtain ⟨⟨r, w, x, y, q, hf⟩, -⟩ := turnOffMfEngine_turnedOff cx d
  have hp : (turnOffMfEngine cx d).pending ⊆ c.pending :=
    List.Subset.trans (R2Chan.turnOffMfEngine_pending cx d) (cancelTimer_pending .r2Answer c)
  have he : (turnOffMfEngine cx d).direction = c.direction ∧ (turnOffMfEngine cx d).callState = .answered ∧
      (turnOffMfEngine cx d).r2State = .answerRxd := by
    rw [hf]
    exact ⟨rfl, rfl, rfl⟩
  rw [hd]
  generalize turnOffMfEngine cx d = e at he hp
  exact ⟨he.1, he.2.1, he.2.2, hp⟩

theorem dtmfCallAnswered_frame (c : R2Chan) :
    (dtmfCallAnswered c).direction = c.direction ∧ (dtmfCallAnswered c).callState = .answered ∧
      (dtmfCallAnswered c).r2State = .answerRxd ∧ (dtmfCallAnswered c).pending ⊆ c.pending := by
  have hp := cancelTimer_pending .r2Answer c
  have hd : (c.cancelTimer .r2Answer).direction = c.direction := rfl
  unfold dtmfCallAnswered
  generalize c.cancelTimer .r2Answer = e at hp hd
  rw [← hd]
  exact ⟨rfl, rfl, rfl, hp⟩

/-- The other end has answered. -/
theorem R2Chan.Grounded.answered (h : c.Grounded) (hd : c.direction = .forward)
    (hf : d.direction = c.direction ∧ d.callState = .answered ∧ d.r2State = .answerRxd ∧
      d.pending ⊆ c.pending) : d.Grounded := by
  obtain ⟨h1, h2, h3, h4⟩ := hf
  refine ⟨fun hx => ?_, fun hx => ?_, fun _ => h1.trans hd, fun cb hcb => ?_⟩
  · exact absurd (h2.symm.trans hx) (by decide)
  · exact absurd (h3.symm.trans hx) (by decide)
  · rw [h1]
    exact h.trusts cb (h4 hcb)

theorem place_frame (cx : R2Context) (env : Env) (ani : Option (List Tone)) (dnis : List Tone)
    (category : Category) (r : Bool) (c : R2Chan) :
    (c.place cx env ani dnis category r).direction = .forward ∧
      (c.place cx env ani dnis category r).callState = .dialing ∧
      (c.place cx env ani dnis category r).r2State = .seizeTxd ∧
      (c.place cx env ani dnis category r).pending ⊆ .seizeTimeoutExpired :: c.pending := by
  have hp := R2Chan.armTimer_pending env .r2Seize cx.timers.r2Seize .seizeTimeoutExpired
    (c.setR2State .seizeTxd)
  obtain ⟨⟨q, w, hf⟩, -⟩ := R2Chan.Tuned.armTimer env .r2Seize cx.timers.r2Seize .seizeTimeoutExpired
    (c.setR2State .seizeTxd)
  have hr : (armTimer env .r2Seize cx.timers.r2Seize .seizeTimeoutExpired
      (c.setR2State .seizeTxd)).r2State = .seizeTxd := by
    rw [hf]
    rfl
  unfold R2Chan.place
  generalize armTimer env .r2Seize cx.timers.r2Seize .seizeTimeoutExpired (c.setR2State .seizeTxd) = e
    at hp hr
  exact ⟨rfl, rfl, hr, hp⟩

/-- Every operation keeps it, whatever the world does. -/
theorem Atom.grounded (ha : Atom cx env ok c d) (h : c.Grounded) : d.Grounded := by
  have hself : c.pending ⊆ c.pending := fun _ hx => hx
  have hfwd : c.direction = .forward → c.callState ≠ .idle := fun hd => h.moving (by rw [hd]; decide)
  cases ha with
  | plain _ hp => exact h.frame hp.1
  | select tone => exact h.same rfl rfl rfl hself
  | unready e _ => exact protoInit_grounded cx _
  | init => exact protoInit_grounded cx c
  | block => exact block_grounded cx c
  | turnOff _ => exact h.turnOff cx
  | expire n => exact h.same rfl rfl rfl (List.map_subset _ List.eraseP_subset)
  | drop op ho => exact h.same rfl rfl rfl (List.map_subset _ (ho.sublist c.timers).subset)
  | arm slot ms hx =>
    obtain ⟨q, w, hf⟩ := (R2Chan.Tuned.armTimer env slot ms slot.purpose c).frame
    refine h.schedule (h.arms hx) ?_ ?_ ?_ (R2Chan.armTimer_pending env slot ms slot.purpose c) <;> rw [hf]
  | callDown ms ho =>
    have hx : c.Arms .r2SetCallDown := ho
    obtain ⟨q, w, hf⟩ := (R2Chan.Tuned.addTimer env ms .r2SetCallDown c).frame
    refine h.schedule (h.arms hx) ?_ ?_ ?_ (R2Chan.addTimer_pending env ms .r2SetCallDown c) <;> rw [hf]
  | hop r hr =>
    obtain ⟨h1, h2, h3⟩ := h.hops hr
    exact h.hop h1 h2 h3
  | signal m _ => exact h.same rfl rfl rfl hself
  | group g _ => exact h.same rfl rfl rfl hself
  | dial _ _ => exact h.same rfl rfl rfl hself
  | dialMf m _ hr _ _ => exact (h.acknowledged hr).same rfl rfl rfl hself
  | dialDtmf ms hr _ =>
    obtain ⟨q, w, hf⟩ := (R2Chan.Tuned.armTimer env .dtmfStartDial ms .startDialingDtmf
      (c.setR2State .seizeAckRxd)).frame
    have hx : TimerCallback.Trusts .startDialingDtmf c.direction := h.calling (by rw [hr]; trivial)
    have hi : c.callState ≠ .idle := h.busy (by rw [hr]; decide)
    refine (h.acknowledged hr).schedule ⟨hx, fun hc => absurd hc hi⟩ ?_ ?_ ?_
      (R2Chan.armTimer_pending env .dtmfStartDial ms .startDialingDtmf _) <;> rw [hf]
  | place ani dnis category r hc _ =>
    obtain ⟨h1, h2, h3, h4⟩ := place_frame cx env ani dnis category r c
    generalize c.place cx env ani dnis category r = e at h1 h2 h3 h4
    refine h.begin hc (by rw [h2]; decide) (by rw [h3]; decide) (fun _ => h1) fun cb hcb => ?_
    rcases List.mem_cons.mp (h4 hcb) with rfl | hcb
    · exact .inl trivial
    · exact .inr hcb
  | receiveMf w r hr _ _ =>
    have he : (((c.did (.mfWriteInit c.mfWriteHandle false)).did
        (.mfReadInit c.mfReadHandle true)).setMfHandles w r).Grounded := h.same rfl rfl rfl hself
    exact he.receive (h.rest hr) _ _
  | receiveDtmf hr _ =>
    have he : (c.setDtmf c.dialingDtmf true).Grounded := h.same rfl rfl rfl hself
    exact he.receive (h.rest hr) _ _
  | offer hc _ =>
    have hi : c.callState ≠ .idle := by rw [hc]; decide
    exact (h.setCallState .offered (by decide) fun hr => hi (h.rest hr)).same rfl rfl rfl hself
  | accept hd =>
    have ht := h.turnOff cx
    have hd' : (turnOffMfEngine cx c).direction = .backward := (turnOffMfEngine_direction cx c).trans hd
    exact ht.setCallState .accepted (by decide) fun hr => ht.live hd' (ht.rest hr)
  | accepted _ => exact h.same rfl rfl rfl hself
  | acceptTone mode hd _ _ =>
    exact (h.hop (hfwd hd) (by decide) fun _ => hd : (c.setR2State .acceptRxd).Grounded).same rfl rfl rfl
      hself
  | dialled hd _ => exact (h.turnOff cx).same rfl rfl rfl fun _ hx => hx
  | answer a _ _ hc =>
    have hp : (setCasSignal cx env .answer c).1.Grounded := h.frame (setCasSignal_frame cx env c .answer)
    generalize (setCasSignal cx env .answer c).1 = e at hp
    exact ⟨nofun, nofun, fun hx => (hx : False).elim, hp.trusts⟩
  | answered hr => exact h.answered (h.calling (by rw [hr]; trivial)) (callAnswered_frame cx c)
  | answeredDtmf hr _ _ => exact h.answered (h.calling (by rw [hr]; trivial)) (dtmfCallAnswered_frame c)
  | billing hr _ =>
    have hd : c.direction = .forward := by
      rcases hr with hr | hr <;> exact h.calling (by rw [hr]; trivial)
    exact (h.hop (hfwd hd) (by decide) fun _ => hd : (c.setR2State .answerRxd).Grounded).same rfl rfl rfl
      hself
  | report cause hr =>
    have hn : c.r2State ≠ .idle := by
      intro hx
      rcases hr with hr | hd
      · rcases hr with hr | hr | hr | hr | hr <;> exact absurd (hr.symm.trans hx) (by decide)
      · exact hfwd hd (h.rest hx)
    exact (h.setCallState .disconnected (by decide) hn).same rfl rfl rfl hself
  | alarm on => exact h.same rfl rfl rfl hself

theorem Atoms.grounded (ha : Atoms cx env ok c d) (h : c.Grounded) : d.Grounded := by
  induction ha with
  | refl => exact h
  | tail _ ha ih => exact ha.grounded ih

end Atoms

section Engines

/-- No DTMF engine runs while the MF state says that none does, and each runs for its own side. -/
structure R2Chan.Equipped (c : R2Chan) : Prop where
  wired : c.mfState = .offState → c.dialingDtmf = false ∧ c.detectingDtmf = false
  dials : c.dialingDtmf = true → c.direction = .forward
  detects : c.detectingDtmf = true → c.direction = .backward

variable {cx : R2Context} {env : Env} {ok : Chance → R2Chan → Prop} {c d : R2Chan}

theorem R2Chan.Equipped.same (h : c.Equipped) (hm : d.mfState = .offState → c.mfState = .offState)
    (hx : d.dialingDtmf = c.dialingDtmf) (hy : d.detectingDtmf = c.detectingDtmf)
    (hd : d.direction = c.direction) : d.Equipped := by
  refine ⟨fun ho => ?_, ?_, ?_⟩
  · rw [hx, hy]
    exact h.wired (hm ho)
  · rw [hx, hd]
    exact h.dials
  · rw [hy, hd]
    exact h.detects

theorem R2Chan.Equipped.frame (h : c.Equipped) (hf : d.frame = c.frame) : d.Equipped :=
  h.same (fun ho => (congrArg Frame.mfState hf).symm.trans ho) (congrArg Frame.dialingDtmf hf)
    (congrArg Frame.detectingDtmf hf) (congrArg Frame.direction hf)

theorem R2Chan.equipped_off (hx : d.dialingDtmf = false) (hy : d.detectingDtmf = false) : d.Equipped :=
  ⟨fun _ => ⟨hx, hy⟩, fun hz => absurd (hx.symm.trans hz) nofun,
    fun hz => absurd (hy.symm.trans hz) nofun⟩

/-- Off means that nothing runs. -/
theorem R2Chan.Equipped.turnedOff (h : c.Equipped) (cx : R2Context) :
    (turnOffMfEngine cx c).dialingDtmf = false ∧ (turnOffMfEngine cx c).detectingDtmf = false := by
  simp only [turnOffMfEngine]
  split_ifs with hm
  · exact h.wired hm
  · simp only [disposeMf]
    split_ifs <;> exact ⟨rfl, rfl⟩

theorem R2Chan.Equipped.turnOff (h : c.Equipped) (cx : R2Context) : (turnOffMfEngine cx c).Equipped :=
  R2Chan.equipped_off (h.turnedOff cx).1 (h.turnedOff cx).2

theorem fixRxSignal_frame (cx : R2Context) (c : R2Chan) : (fixRxSignal cx c).frame = c.frame := by
  simp only [fixRxSignal]
  split_ifs <;> rfl

theorem R2Chan.Equipped.reset (h : c.Equipped) (cx : R2Context) :
    (protoInit cx c).dialingDtmf = false ∧ (protoInit cx c).detectingDtmf = false := by
  have hc : (clearNumbers c).Equipped := ⟨h.wired, h.dials, h.detects⟩
  have ht := hc.turnedOff cx
  have hf := fixRxSignal_frame cx (clearCall (turnOffMfEngine cx (clearNumbers c)))
  exact ⟨(congrArg Frame.dialingDtmf hf).trans ht.1, (congrArg Frame.detectingDtmf hf).trans ht.2⟩

/-- Without a direction no engine runs. -/
theorem R2Chan.Equipped.stopped (h : c.Equipped) (hd : c.direction = .stopped) :
    c.dialingDtmf = false ∧ c.detectingDtmf = false := by
  refine ⟨Bool.eq_false_of_not_eq_true fun hx => ?_, Bool.eq_false_of_not_eq_true fun hx => ?_⟩
  · exact absurd (hd.symm.trans (h.dials hx)) (by decide)
  · exact absurd (hd.symm.trans (h.detects hx)) (by decide)

/-- An incoming call begins on a channel that does not dial. -/
theorem R2Chan.equipped_receive (hx : c.dialingDtmf = false) {m : MfState}
    (hm : m ≠ .offState ∨ c.detectingDtmf = false) (g : MfGroup) : (c.receive m g).Equipped := by
  refine ⟨fun ho => ⟨hx, ?_⟩, fun hz => absurd (hx.symm.trans hz) nofun, fun _ => rfl⟩
  exact hm.resolve_left fun hn => hn ho

theorem place_engines (cx : R2Context) (env : Env) (ani : Option (List Tone)) (dnis : List Tone)
    (category : Category) (r : Bool) (c : R2Chan) :
    (c.place cx env ani dnis category r).dialingDtmf = c.dialingDtmf ∧
      (c.place cx env ani dnis category r).detectingDtmf = c.detectingDtmf := by
  obtain ⟨⟨q, w, hf⟩, -⟩ := R2Chan.Tuned.armTimer env .r2Seize cx.timers.r2Seize .seizeTimeoutExpired
    (c.setR2State .seizeTxd)
  have hd : (armTimer env .r2Seize cx.timers.r2Seize .seizeTimeoutExpired
      (c.setR2State .seizeTxd)).dialingDtmf = c.dialingDtmf := by rw [hf]; rfl
  have he : (armTimer env .r2Seize cx.timers.r2Seize .seizeTimeoutExpired
      (c.setR2State .seizeTxd)).detectingDtmf = c.detectingDtmf := by rw [hf]; rfl
  unfold R2Chan.place
  generalize armTimer env .r2Seize cx.timers.r2Seize .seizeTimeoutExpired (c.setR2State .seizeTxd) = e
    at hd he
  exact ⟨hd, he⟩

theorem Signals.ne_off {m : MfState} (h : c.Signals cx env ok m) : m ≠ .offState := by
  cases h with
  | backward hm => intro he; rw [he] at hm; exact hm
  | decide hm => rcases hm with rfl | rfl <;> decide
  | forward hm => intro he; rw [he] at hm; exact hm

theorem MfState.Forward.ne_off {m : MfState} (h : m.Forward) : m ≠ .offState := by
  intro he
  rw [he] at h
  exact h

/-- Every operation keeps it, in a call or out of one. -/
theorem Atom.equipped (ha : Atom cx env ok c d) (hg : c.Grounded) (h : c.Equipped) : d.Equipped := by
  have hidle : c.callState = .idle → c.dialingDtmf = false ∧ c.detectingDtmf = false := fun hi =>
    h.stopped (hg.idle hi).1
  cases ha with
  | plain _ hp => exact h.frame hp.1
  | select tone => exact h.same id rfl rfl rfl
  | unready e he =>
    have hx : (e.did (.mfSelectTone e.mfWriteHandle 0)).Equipped := by
      rcases he with rfl | rfl <;> exact h.same id rfl rfl rfl
    exact R2Chan.equipped_off (hx.reset cx).1 (hx.reset cx).2
  | init => exact R2Chan.equipped_off (h.reset cx).1 (h.reset cx).2
  | block => exact R2Chan.equipped_off (h.reset cx).1 (h.reset cx).2
  | turnOff _ => exact h.turnOff cx
  | expire n => exact h.same id rfl rfl rfl
  | drop op _ => exact h.same id rfl rfl rfl
  | arm slot ms hx =>
    obtain ⟨q, w, hf⟩ := (R2Chan.Tuned.armTimer env slot ms slot.purpose c).frame
    rw [hf]
    exact ⟨h.wired, h.dials, h.detects⟩
  | callDown ms _ =>
    obtain ⟨q, w, hf⟩ := (R2Chan.Tuned.addTimer env ms .r2SetCallDown c).frame
    rw [hf]
    exact ⟨h.wired, h.dials, h.detects⟩
  | hop r hr => exact h.same id rfl rfl rfl
  | signal m hs => exact h.same (fun ho => absurd ho (Signals.ne_off hs)) rfl rfl rfl
  | group g _ => exact h.same id rfl rfl rfl
  | dial hd _ => exact ⟨nofun, fun _ => hd, h.detects⟩
  | dialMf m hm hr _ _ => exact h.same (fun ho => absurd ho hm.ne_off) rfl rfl rfl
  | dialDtmf ms hr _ =>
    obtain ⟨q, w, hf⟩ := (R2Chan.Tuned.armTimer env .dtmfStartDial ms .startDialingDtmf
      (c.setR2State .seizeAckRxd)).frame
    rw [hf]
    exact ⟨h.wired, h.dials, h.detects⟩
  | place ani dnis category r hc _ =>
    obtain ⟨hx, hy⟩ := hidle hc
    obtain ⟨h1, h2⟩ := place_engines cx env ani dnis category r c
    exact R2Chan.equipped_off (h1.trans hx) (h2.trans hy)
  | receiveMf w r hr _ _ =>
    obtain ⟨hx, hy⟩ := hidle (hg.rest hr)
    have hd : (((c.did (.mfWriteInit c.mfWriteHandle false)).did
        (.mfReadInit c.mfReadHandle true)).setMfHandles w r).dialingDtmf = false := hx
    have he : (((c.did (.mfWriteInit c.mfWriteHandle false)).did
        (.mfReadInit c.mfReadHandle true)).setMfHandles w r).detectingDtmf = false := hy
    exact R2Chan.equipped_receive hd (.inr he) _
  | receiveDtmf hr _ =>
    have hx : (c.setDtmf c.dialingDtmf true).dialingDtmf = false := (hidle (hg.rest hr)).1
    exact R2Chan.equipped_receive hx (.inl (by decide : MfState.detectingDtmf ≠ .offState)) _
  | offer hc _ => exact h.same id rfl rfl rfl
  | accept hd => exact (h.turnOff cx).same id rfl rfl rfl
  | accepted _ => exact h.same id rfl rfl rfl
  | acceptTone mode hd _ _ => exact h.same id rfl rfl rfl
  | dialled hd _ => exact (h.turnOff cx).same id rfl rfl rfl
  | answer a _ _ hc =>
    have hp : (setCasSignal cx env .answer c).1.Equipped := h.frame (setCasSignal_frame cx env c .answer)
    exact hp.same id rfl rfl rfl
  | answered hr =>
    have hc : (((c.cancelTimer .r2Answer).setR2State .answerRxd).setCallState .answered).Equipped :=
      ⟨h.wired, h.dials, h.detects⟩
    have ht := hc.turnOff cx
    rw [callAnswered_eq]
    generalize turnOffMfEngine cx (((c.cancelTimer .r2Answer).setR2State .answerRxd).setCallState .answered)
      = e at ht
    exact ht.same id rfl rfl rfl
  | answeredDtmf hr _ _ =>
    have hc : (c.cancelTimer .r2Answer).Equipped := h.same id rfl rfl rfl
    unfold dtmfCallAnswered
    generalize c.cancelTimer .r2Answer = e at hc
    exact hc.same id rfl rfl rfl
  | billing hr _ => exact h.same id rfl rfl rfl
  | report cause hr => exact h.same id rfl rfl rfl
  | alarm on => exact h.same id rfl rfl rfl

theorem Atoms.equipped (ha : Atoms cx env ok c d) (hg : c.Grounded) (h : c.Equipped) : d.Equipped := by
  induction ha with
  | refl => exact h
  | tail hb ha ih => exact ha.equipped (Atoms.grounded hb hg) ih

end Engines

section Sides

/-- A call that can be answered: an incoming one that was accepted, or one that was
offered after its digits came with DTMF. -/
def Answerable (cx : R2Context) (c : R2Chan) : Prop :=
  c.direction = .backward ∧
    (c.callState = .accepted ∨ cx.detectDtmf = true ∧ c.callState = .offered)

instance (cx : R2Context) (c : R2Chan) : Decidable (Answerable cx c) := by
  unfold Answerable; exact inferInstance

/-- A context in which calls are dialled or received with DTMF. -/
def R2Context.UsesDtmf (cx : R2Context) : Prop := (cx.dialWithDtmf || cx.detectDtmf) = true

instance (cx : R2Context) : Decidable cx.UsesDtmf := by unfold R2Context.UsesDtmf; exact inferInstance

/-- Where DTMF is used, the user answers only a call that can be answered. -/
def answersInTurn (cx : R2Context) : Chance → R2Chan → Prop
  | .call a, c => cx.UsesDtmf → a.Answers → Answerable cx c
  | _, _ => True

/-- The states of the call and of the line, and the timers, are those of one side. -/
structure R2Chan.Sided (c : R2Chan) : Prop where
  call : c.callState.Fits c.direction
  line : c.r2State.Fits c.direction
  timers : ∀ cb ∈ c.pending, cb.Attends c.direction
  answering : c.r2State.Answering → c.callState ≠ .disconnected

variable {cx : R2Context} {env : Env} {c d : R2Chan}

theorem R2Chan.Sided.same (h : c.Sided) (hd : d.direction = c.direction)
    (hs : d.callState = c.callState) (hr : d.r2State = c.r2State) (hp : d.pending ⊆ c.pending) :
    d.Sided := by
  refine ⟨?_, ?_, fun cb hcb => ?_, ?_⟩
  · rw [hs, hd]
    exact h.call
  · rw [hr, hd]
    exact h.line
  · rw [hd]
    exact h.timers cb (hp hcb)
  · rw [hr, hs]
    exact h.answering

theorem R2Chan.Sided.frame (h : c.Sided) (hf : d.frame = c.frame) : d.Sided := by
  refine h.same (congrArg Frame.direction hf) (congrArg Frame.callState hf)
    (congrArg Frame.r2State hf) ?_
  have ht : d.timers = c.timers := congrArg Frame.timers hf
  rw [R2Chan.pending, ht]
  exact fun _ hx => hx

/-- A line state of a side tells the direction. -/
theorem R2Chan.Sided.forward (h : c.Sided) (hr : c.r2State.Forward) : c.direction = .forward := by
  have hl := h.line
  cases hd : c.direction with
  | forward => rfl
  | stopped =>
    rw [hd] at hl
    rcases hl with hl | hl | hl <;> rw [hl] at hr <;> exact hr.elim
  | backward =>
    rw [hd] at hl
    cases hs : c.r2State <;> simp_all [CasState.Forward, CasState.Fits, CasState.Backward]

theorem R2Chan.Sided.backward (h : c.Sided) (hr : c.r2State.Backward) : c.direction = .backward := by
  have hl := h.line
  cases hd : c.direction with
  | backward => rfl
  | stopped =>
    rw [hd] at hl
    rcases hl with hl | hl | hl <;> rw [hl] at hr <;> exact hr.elim
  | forward =>
    rw [hd] at hl
    cases hs : c.r2State <;> simp_all [CasState.Forward, CasState.Fits, CasState.Backward]

theorem R2Chan.Sided.outgoing (h : c.Sided) (ho : c.Outgoing) : c.direction = .forward := by
  rcases ho with hd | hr | ⟨hb, hi⟩
  · exact hd
  · exact h.forward hr
  · have hc := h.call
    cases hd : c.direction with
    | forward => rfl
    | backward => exact absurd hd hb
    | stopped =>
      rw [hd] at hc
      cases hs : c.callState <;> simp_all [CallState.Fits]

theorem R2Chan.Sided.incoming (h : c.Sided) (hi : c.Incoming) : c.direction = .backward :=
  hi.elim id h.backward

/-- Only an incoming call collects digits, is offered or accepted. -/
theorem R2Chan.Sided.called (h : c.Sided) (hs : c.callState.Incoming) : c.direction = .backward := by
  have hc := h.call
  cases hd : c.direction <;> rw [hd] at hc <;> cases hx : c.callState <;>
    simp_all [CallState.Fits, CallState.Incoming]

theorem R2Chan.Sided.stopped (h : c.Sided) (hr : c.r2State = .idle ∨ c.callState = .idle) :
    c.direction = .stopped := by
  have hl := h.line
  have hc := h.call
  cases hd : c.direction <;> rw [hd] at hl hc <;> rcases hr with hr | hr <;>
    simp_all [CasState.Fits, CasState.Forward, CasState.Backward, CallState.Fits]

theorem R2Chan.Hops.answering {r : CasState} (hr : c.Hops cx r) (hx : r.Answering) :
    c.r2State.Answering := by
  cases hr with
  | executeDouble hs => exact .inl hs
  | reanswer hs => exact .inr hs
  | release _ _ hr => rcases hr with rfl | rfl <;> simp [CasState.Answering] at hx
  | _ => simp [CasState.Answering] at hx

theorem R2Chan.Sided.hops (h : c.Sided) {r : CasState} (hr : c.Hops cx r) : r.Fits c.direction := by
  have hf : ∀ s, c.r2State = s → s.Forward → c.direction = .forward := fun s hs hx =>
    h.forward (hs ▸ hx)
  have hb : ∀ s, c.r2State = s → s.Backward → c.direction = .backward := fun s hs hx =>
    h.backward (hs ▸ hx)
  have hff : c.direction = .forward → ∀ s : CasState, s.Forward → s.Fits c.direction := fun hd s hs => by
    rw [hd]
    exact .inl hs
  have hbb : c.direction = .backward → ∀ s : CasState, s.Backward → s.Fits c.direction :=
    fun hd s hs => by
      rw [hd]
      exact .inl hs
  cases hr with
  | clearFwdRxd hs =>
    have hx : c.direction = .backward ∨ c.direction = .forward := by
      rcases hs with hs | hs | hs | hs | hs | hs
      · exact .inl (hb _ hs trivial)
      · exact .inl (hb _ hs trivial)
      · exact .inl (hb _ hs trivial)
      · exact .inr (hf _ hs trivial)
      · exact .inr (hf _ hs trivial)
      · exact .inr (hf _ hs trivial)
    rcases hx with hx | hx <;> rw [hx] <;> exact .inr rfl
  | glare hs => exact hff (by rcases hs with hs | hs <;> exact hf _ hs trivial) _ trivial
  | holdSeize hs => exact hff (hf _ hs trivial) _ trivial
  | holdGlare hs => exact hff (hf _ hs trivial) _ trivial
  | release _ hs hr =>
    have hd : c.direction = .forward := by
      rcases hs with hs | hs | hs | hs <;> exact hf _ hs trivial
    rcases hr with rfl | rfl <;> exact hff hd _ trivial
  | earlyAnswer hs _ => exact hff (hf _ hs trivial) _ trivial
  | lateRelease hs => exact hff (hf _ hs trivial) _ trivial
  | reject hd _ => exact hff hd _ trivial
  | clearBack hi => exact hbb (h.incoming hi) _ trivial
  | forcedRelease hd => exact hbb hd _ trivial
  | executeDouble hs => exact hbb (hb _ hs trivial) _ trivial
  | reanswer hs => exact hbb (hb _ hs trivial) _ trivial
  | clearForward ho => exact hff (h.outgoing ho) _ trivial

/-- A timer is scheduled on the side of the call. -/
theorem R2Chan.Sided.arms (h : c.Sided) {cb : TimerCallback} (ha : c.Arms cb) : cb.Attends c.direction := by
  have hf : ∀ s, c.r2State = s → s.Forward → c.direction = .forward := fun s hs hx =>
    h.forward (hs ▸ hx)
  cases cb with
  | persistenceCheckExpired => exact .inl (by cases c.direction <;> trivial)
  | mfBackCycleTimeoutExpired => exact .inl (by rw [show c.direction = _ from ha]; trivial)
  | mfBackResumeCycle => exact .inl (by rw [show c.direction = _ from ha]; trivial)
  | mfFwdSafetyTimeoutExpired => exact .inl (by rw [h.outgoing ha]; trivial)
  | r2SetCallDown => exact .inl (by rw [h.outgoing ha]; trivial)
  | r2AnswerTimeoutExpired => exact .inl (by rw [ha.elim id fun hr => hf _ hr trivial]; trivial)
  | r2SeizePersistExpired => exact .inl (by rw [hf _ ha trivial]; trivial)
  | readyToAnswer => exact .inl (by rw [ha.1]; trivial)
  | doubleAnswerHandler =>
    have hd : c.direction = .backward := h.backward (by rcases ha with hr | hr <;> rw [hr] <;> trivial)
    exact .inl (by rw [hd]; trivial)
  | r2MeteringPulse =>
    have hd : c.direction = .forward := h.forward (by rcases ha with hr | hr <;> rw [hr] <;> trivial)
    exact .inl (by rw [hd]; trivial)
  | startDialingDtmf => exact ha.elim
  | seizeTimeoutExpired => exact ha.elim

theorem R2Chan.Sided.schedule (h : c.Sided) {cb : TimerCallback} (ha : cb.Attends c.direction)
    (hd : d.direction = c.direction) (hs : d.callState = c.callState) (hr : d.r2State = c.r2State)
    (hp : d.pending ⊆ cb :: c.pending) : d.Sided := by
  refine ⟨?_, ?_, fun x hx => ?_, ?_⟩
  · rw [hs, hd]
    exact h.call
  · rw [hr, hd]
    exact h.line
  · rw [hd]
    rcases List.mem_cons.mp (hp hx) with rfl | hx
    · exact ha
    · exact h.timers x hx
  · rw [hr, hs]
    exact h.answering

/-- A call that is reported to be disconnected has a side, and is not being answered. -/
theorem R2Chan.Sided.released (h : c.Sided) (hr : c.Released ∨ c.direction = .forward) :
    CallState.disconnected.Fits c.direction ∧ ¬ c.r2State.Answering := by
  have hl := h.line
  rcases hr with hr | hd
  · refine ⟨?_, fun hx => ?_⟩
    · cases hd : c.direction <;> rw [hd] at hl
      · rcases hr with hr | hr | hr | hr | hr <;> rw [hr] at hl <;> simp [CasState.Fits] at hl
      · trivial
      · trivial
    · rcases hx with hx | hx <;> rcases hr with hr | hr | hr | hr | hr <;>
        exact absurd (hr.symm.trans hx) (by decide)
  · rw [hd] at hl ⊢
    refine ⟨trivial, fun hx => ?_⟩
    rcases hx with hx | hx <;> rw [hx] at hl <;> simp [CasState.Fits, CasState.Forward] at hl

theorem R2Chan.Sided.turnOff (h : c.Sided) (cx : R2Context) : (turnOffMfEngine cx c).Sided := by
  obtain ⟨⟨r, w, x, y, q, hf⟩, -⟩ := turnOffMfEngine_turnedOff cx c
  refine h.same ?_ ?_ ?_ (R2Chan.turnOffMfEngine_pending cx c) <;> rw [hf]

theorem sided_reset (hd : d.direction = .stopped) (hs : d.callState = .idle)
    (hr : d.r2State.Resting) (hp : d.pending = []) : d.Sided := by
  refine ⟨?_, ?_, fun cb hcb => ?_, fun _ hx => ?_⟩
  · rw [hd, hs]
    trivial
  · rw [hd]
    exact hr
  · rw [hp] at hcb
    exact absurd hcb List.not_mem_nil
  · exact absurd (hs.symm.trans hx) (by decide)

theorem protoInit_sided (cx : R2Context) (c : R2Chan) : (protoInit cx c).Sided := by
  obtain ⟨⟨rx, r, w, x, y, hf⟩, -⟩ := protoInit_reset cx c
  rw [hf]
  exact sided_reset rfl rfl (.inr (.inl rfl)) rfl

theorem block_sided (cx : R2Context) (c : R2Chan) : ((protoInit cx c).setR2State .blocked).Sided := by
  obtain ⟨⟨rx, r, w, x, y, hf⟩, -⟩ := protoInit_reset cx c
  rw [hf]
  exact sided_reset rfl rfl (.inr (.inr rfl)) rfl

/-- The timers of a line at rest attend to any call. -/
theorem R2Chan.Sided.begin (h : c.Sided) (hi : c.direction = .stopped) (hs : d.callState.Fits d.direction)
    (hr : d.r2State.Fits d.direction) (hn : d.callState ≠ .disconnected)
    (hp : ∀ cb ∈ d.pending, cb.Attends d.direction ∨ cb ∈ c.pending) : d.Sided := by
  refine ⟨hs, hr, fun cb hcb => ?_, fun _ => hn⟩
  rcases hp cb hcb with hcb | hcb
  · exact hcb
  · have ht := h.timers cb hcb
    rw [hi] at ht
    rcases ht with ht | ⟨-, ht⟩
    · cases cb <;> first | exact ht.elim | exact .inl (by cases d.direction <;> trivial)
    · exact absurd ht (by decide)

theorem R2Chan.Sided.receive (h : c.Sided) (hr : c.r2State = .idle) (m : MfState) (g : MfGroup) :
    (c.receive m g).Sided :=
  h.begin (h.stopped (.inl hr)) trivial (.inl trivial) nofun fun _ hx => .inr hx

/-- The other end has answered. -/
theorem R2Chan.Sided.answered (h : c.Sided) (hd : c.direction = .forward)
    (hf : d.direction = c.direction ∧ d.callState = .answered ∧ d.r2State = .answerRxd ∧
      d.pending ⊆ c.pending) : d.Sided := by
  obtain ⟨h1, h2, h3, h4⟩ := hf
  refine ⟨?_, ?_, fun cb hcb => ?_, fun _ hx => ?_⟩
  · rw [h1, h2, hd]
    trivial
  · rw [h1, h3, hd]
    exact .inl trivial
  · rw [h1]
    exact h.timers cb (h4 hcb)
  · exact absurd (h2.symm.trans hx) (by decide)

/-- Another line state of the same side. -/
theorem R2Chan.Sided.hop (h : c.Sided) {r : CasState} (hr : r.Fits c.direction)
    (hx : r.Answering → c.r2State.Answering) : (c.setR2State r).Sided :=
  ⟨h.call, hr, h.timers, fun ha => h.answering (hx ha)⟩

theorem R2Chan.Sided.acknowledged (h : c.Sided) (hr : c.r2State = .seizeTxd) :
    (c.setR2State .seizeAckRxd).Sided := by
  have hd : c.direction = .forward := h.forward (by rw [hr]; trivial)
  refine h.hop (by rw [hd]; exact .inl trivial) fun hx => ?_
  rcases hx with hx | hx <;> exact absurd hx (by decide)

/-- Another call state of the same side. -/
theorem R2Chan.Sided.setCallState (h : c.Sided) {s : CallState} (hs : s.Fits c.direction)
    (hx : c.r2State.Answering → s ≠ .disconnected) : (c.setCallState s).Sided :=
  ⟨hs, h.line, h.timers, hx⟩

/-- Every operation keeps it where the user answers in turn. -/
theorem Atom.sided (ha : Atom cx env (answersInTurn cx) c d) (h : c.Sided) : d.Sided := by
  have hself : c.pending ⊆ c.pending := fun _ hx => hx
  have hfwd : c.direction = .forward → ∀ r : CasState, r.Forward → r.Fits c.direction := fun hd r hr => by
    rw [hd]
    exact .inl hr
  cases ha with
  | plain _ hp => exact h.frame hp.1
  | select tone => exact h.same rfl rfl rfl hself
  | unready e _ => exact protoInit_sided cx _
  | init => exact protoInit_sided cx c
  | block => exact block_sided cx c
  | turnOff _ => exact h.turnOff cx
  | expire n => exact h.same rfl rfl rfl (List.map_subset _ List.eraseP_subset)
  | drop op ho => exact h.same rfl rfl rfl (List.map_subset _ (ho.sublist c.timers).subset)
  | arm slot ms hx =>
    obtain ⟨q, w, hf⟩ := (R2Chan.Tuned.armTimer env slot ms slot.purpose c).frame
    refine h.schedule (h.arms hx) ?_ ?_ ?_ (R2Chan.armTimer_pending env slot ms slot.purpose c) <;> rw [hf]
  | callDown ms ho =>
    have hx : c.Arms .r2SetCallDown := ho
    obtain ⟨q, w, hf⟩ := (R2Chan.Tuned.addTimer env ms .r2SetCallDown c).frame
    refine h.schedule (h.arms hx) ?_ ?_ ?_ (R2Chan.addTimer_pending env ms .r2SetCallDown c) <;> rw [hf]
  | hop r hr => exact h.hop (h.hops hr) hr.answering
  | signal m _ => exact h.same rfl rfl rfl hself
  | group g _ => exact h.same rfl rfl rfl hself
  | dial _ _ => exact h.same rfl rfl rfl hself
  | dialMf m _ hr _ _ => exact (h.acknowledged hr).same rfl rfl rfl hself
  | dialDtmf ms hr _ =>
    obtain ⟨q, w, hf⟩ := (R2Chan.Tuned.armTimer env .dtmfStartDial ms .startDialingDtmf
      (c.setR2State .seizeAckRxd)).frame
    refine (h.acknowledged hr).schedule (.inr ⟨rfl, h.forward (by rw [hr]; trivial)⟩) ?_ ?_ ?_
      (R2Chan.armTimer_pending env .dtmfStartDial ms .startDialingDtmf _) <;> rw [hf]
  | place ani dnis category r hc _ =>
    obtain ⟨h1, h2, h3, h4⟩ := place_frame cx env ani dnis category r c
    generalize c.place cx env ani dnis category r = e at h1 h2 h3 h4
    refine h.begin (h.stopped (.inr hc)) ?_ ?_ (by rw [h2]; decide) fun cb hcb => ?_
    · rw [h1, h2]
      trivial
    · rw [h1, h3]
      exact .inl trivial
    · rcases List.mem_cons.mp (h4 hcb) with rfl | hcb
      · rw [h1]
        exact .inl (.inl trivial)
      · exact .inr hcb
  | receiveMf w r hr _ _ =>
    have he : (((c.did (.mfWriteInit c.mfWriteHandle false)).did
        (.mfReadInit c.mfReadHandle true)).setMfHandles w r).Sided := h.same rfl rfl rfl hself
    exact he.receive hr _ _
  | receiveDtmf hr _ =>
    have he : (c.setDtmf c.dialingDtmf true).Sided := h.same rfl rfl rfl hself
    exact he.receive hr _ _
  | offer hc _ =>
    have hd : c.direction = .backward := h.called (by rw [hc]; trivial)
    have hs : (c.setCallState .offered).Sided := h.setCallState (by rw [hd]; trivial) nofun
    exact hs.same rfl rfl rfl hself
  | accept hd =>
    have hd' : (turnOffMfEngine cx c).direction = .backward := (turnOffMfEngine_direction cx c).trans hd
    exact (h.turnOff cx).setCallState (by rw [hd']; trivial) nofun
  | accepted _ => exact h.same rfl rfl rfl hself
  | acceptTone mode hd _ _ =>
    have hs : (c.setR2State .acceptRxd).Sided := h.hop (hfwd hd _ trivial) fun hx => by
      rcases hx with hx | hx <;> exact absurd hx (by decide)
    exact hs.same rfl rfl rfl hself
  | dialled hd _ => exact (h.turnOff cx).same rfl rfl rfl fun _ hx => hx
  | answer a ha ho hc =>
    have hd : c.direction = .backward := by
      rcases hc with hc | hc
      · exact (ho hc ha).1
      · exact h.called (by rw [hc]; trivial)
    have hp : (setCasSignal cx env .answer c).1.Sided := h.frame (setCasSignal_frame cx env c .answer)
    have hd : (setCasSignal cx env .answer c).1.direction = .backward :=
      (setCasSignal_direction cx env c .answer).trans hd
    generalize (setCasSignal cx env .answer c).1 = e at hp hd
    refine ⟨?_, ?_, hp.timers, nofun⟩
    · rw [show (((e.setCallState .answered).setR2State .answerTxd).setAnswered).direction = _ from hd]
      trivial
    · rw [show (((e.setCallState .answered).setR2State .answerTxd).setAnswered).direction = _ from hd]
      exact .inl trivial
  | answered hr => exact h.answered (h.forward (by rw [hr]; trivial)) (callAnswered_frame cx c)
  | answeredDtmf hr _ _ => exact h.answered (h.forward (by rw [hr]; trivial)) (dtmfCallAnswered_frame c)
  | billing hr _ =>
    have hd : c.direction = .forward := by
      rcases hr with hr | hr <;> exact h.forward (by rw [hr]; trivial)
    have hs : (c.setR2State .answerRxd).Sided := h.hop (hfwd hd _ trivial) fun hx => by
      rcases hx with hx | hx <;> exact absurd hx (by decide)
    exact hs.same rfl rfl rfl hself
  | report cause hr =>
    obtain ⟨hd, hn⟩ := h.released hr
    exact (h.setCallState hd fun hx => absurd hx hn).same rfl rfl rfl hself
  | alarm on => exact h.same rfl rfl rfl hself

theorem Atoms.sided (ha : Atoms cx env (answersInTurn cx) c d) (h : c.Sided) : d.Sided := by
  induction ha with
  | refl => exact h
  | tail _ ha ih => exact ha.sided ih

end Sides

section Runs

variable {cx : R2Context} {c : R2Chan} {m : MediaChan}

theorem started_grounded (h : Started cx c) : c.Grounded := by
  cases h with
  | idle env b =>
    exact (protoInit_grounded cx b).frame (setCasSignal_frame cx env _ .idle)
  | blocked env b => exact (block_grounded cx b).frame (setCasSignal_frame cx env _ .block)

theorem started_sided (h : Started cx c) : c.Sided := by
  cases h with
  | idle env b => exact (protoInit_sided cx b).frame (setCasSignal_frame cx env _ .idle)
  | blocked env b => exact (block_sided cx b).frame (setCasSignal_frame cx env _ .block)

theorem new_grounded : R2Chan.new.Grounded :=
  R2Chan.grounded_reset rfl rfl rfl (.inl rfl) rfl

theorem new_equipped : R2Chan.new.Equipped := R2Chan.equipped_off rfl rfl

theorem R2Chan.Grounded.start (h : c.Grounded) : c.start.Grounded := h.same rfl rfl rfl fun _ hx => hx

/-- A step is made of the operations, whatever the world does. -/
theorem mediaStep_atoms_any (env : Env) (i : MediaInput) (h : m.chan.Grounded) :
    Atoms cx env (fun _ _ => True) m.chan.start (mediaStep cx env i m).chan := by
  have hr : ∀ d, ReadMay cx env (fun _ _ => True) d := fun _ _ _ _ =>
    ⟨fun _ _ _ => trivial, fun _ _ _ => trivial⟩
  refine mediaStep_atoms cx env _ m ?_ h.live h.trusts
  exact ⟨fun _ _ _ _ => trivial, fun _ _ => trivial, fun _ => hr _, fun _ _ d _ => hr d,
    fun _ _ _ _ _ => trivial, fun _ _ _ => trivial, fun _ _ => trivial⟩

/-- So is one of the machine. -/
theorem tick_atoms (h : c.Grounded) (t : Tick) :
    Atoms cx t.env (fun _ _ => True) c.start (tick cx c t).1 :=
  step_atoms (fun _ _ _ _ => trivial) (fun _ _ => trivial)
    (fun _ _ _ _ _ _ => ⟨fun _ _ _ => trivial, fun _ _ _ => trivial⟩) (fun _ _ => trivial) h.live h.trusts

theorem tick_grounded (h : c.Grounded) (t : Tick) : (tick cx c t).1.Grounded :=
  (tick_atoms h t).grounded h.start

theorem run_grounded (h : c.Grounded) (ts : List Tick) : (run cx ts c).1.Grounded :=
  Runs.exec_invariant (f := tick cx) (P := R2Chan.Grounded) (fun _ t _ h => tick_grounded h t) ts c
    (.always (fun _ _ => trivial) ts c) h

theorem mediaStep_grounded (env : Env) (i : MediaInput) (h : m.chan.Grounded) :
    (mediaStep cx env i m).chan.Grounded :=
  (mediaStep_atoms_any env i h).grounded h.start

end Runs

section Kept

variable {cx : R2Context} {env : Env} {ok : Chance → R2Chan → Prop} {c d : R2Chan}

theorem armTimer_kept (slot : TimerSlot) (ms : Nat) (h : c.timers.Kept) :
    (armTimer env slot ms slot.purpose c).timers.Kept := by
  unfold armTimer addTimer
  cases env.gettimeofday c.out with
  | none => exact h.mark slot (show (-1 : Int) ≤ 0 by decide)
  | some now => exact h.arm slot now ms

theorem addTimer_kept (ms : Nat) (cb : TimerCallback) (h : c.timers.Kept) :
    (addTimer env ms cb c).1.timers.Kept := by
  unfold addTimer
  cases env.gettimeofday c.out with
  | none => exact h
  | some now => exact h.addTimer now ms cb

theorem turnOffMfEngine_kept (h : c.timers.Kept) : (turnOffMfEngine cx c).timers.Kept := by
  obtain ⟨-, ht, -⟩ := turnOffMfEngine_turnedOff cx c
  rcases ht with ht | ht
  · rwa [ht]
  · rw [ht]
    exact h.cancelTimer .mfBackCycle

theorem protoInit_kept : (protoInit cx c).timers.Kept := by
  obtain ⟨⟨rx, r, w, x, y, hf⟩, -⟩ := protoInit_reset cx c
  rw [hf]
  exact TimerQueue.kept_cancelAll

theorem R2Chan.receive_timers (m : MfState) (g : MfGroup) : (c.receive m g).timers = c.timers := rfl

/-- Every operation keeps the ids of the timers in order. -/
theorem Atom.kept (ha : Atom cx env ok c d) (h : c.timers.Kept) : d.timers.Kept := by
  cases ha with
  | plain _ hp =>
    rw [show d.timers = c.timers from congrArg Frame.timers hp.1]
    exact h
  | init => exact protoInit_kept
  | block => exact @protoInit_kept cx c
  | unready e he =>
    have hx : e.timers.Kept := by rcases he with rfl | rfl <;> exact h
    exact @protoInit_kept cx (e.did (.mfSelectTone e.mfWriteHandle 0))
  | turnOff _ => exact turnOffMfEngine_kept h
  | expire n => exact h.removeId n
  | drop op ho => exact h.apply ho.proper
  | arm slot ms _ => exact armTimer_kept slot ms h
  | callDown ms _ => exact addTimer_kept ms _ h
  | dialDtmf ms _ _ => exact @armTimer_kept env (c.setR2State .seizeAckRxd) .dtmfStartDial ms h
  | place ani dnis category r _ _ =>
    have hk : (armTimer env .r2Seize cx.timers.r2Seize .seizeTimeoutExpired (c.setR2State .seizeTxd)).timers.Kept :=
      @armTimer_kept env (c.setR2State .seizeTxd) .r2Seize cx.timers.r2Seize h
    unfold R2Chan.place
    generalize armTimer env .r2Seize cx.timers.r2Seize .seizeTimeoutExpired (c.setR2State .seizeTxd) = e at hk
    exact hk
  | accept _ =>
    have hk := @turnOffMfEngine_kept cx c h
    generalize turnOffMfEngine cx c = e at hk
    exact hk
  | dialled _ _ =>
    have hk := @turnOffMfEngine_kept cx c h
    generalize turnOffMfEngine cx c = e at hk
    exact hk
  | answered _ =>
    have hk := @turnOffMfEngine_kept cx (((c.cancelTimer .r2Answer).setR2State .answerRxd).setCallState .answered)
      (h.cancelTimer .r2Answer)
    rw [callAnswered_eq]
    generalize turnOffMfEngine cx _ = e at hk
    exact hk
  | answeredDtmf _ _ _ => exact h.cancelTimer .r2Answer
  | answer _ _ _ _ =>
    have hf := congrArg Frame.timers (setCasSignal_frame cx env c .answer)
    change (setCasSignal cx env .answer c).1.timers = c.timers at hf
    generalize (setCasSignal cx env .answer c).1 = e at hf
    change e.timers.Kept
    rwa [hf]
  | receiveMf _ _ _ _ _ =>
    rw [R2Chan.receive_timers]
    exact h
  | _ => exact h

theorem Atoms.kept (ha : Atoms cx env ok c d) (h : c.timers.Kept) : d.timers.Kept := by
  induction ha with
  | refl => exact h
  | tail _ ha ih => exact ha.kept ih

variable {m : MediaChan}

theorem mediaStep_kept (env : Env) (i : MediaInput) (hg : m.chan.Grounded) (h : m.chan.timers.Kept) :
    (mediaStep cx env i m).chan.timers.Kept := (mediaStep_atoms_any env i hg).kept h

theorem started_grounded_kept (h : Started cx c) : c.Grounded ∧ c.timers.Kept := by
  refine ⟨started_grounded h, ?_⟩
  cases h with
  | idle env b => exact @protoInit_kept cx b
  | blocked env b => exact @protoInit_kept cx b

/-- The same from a new channel, with the media. -/
theorem mediaRun_kept (ts : List MediaTick) :
    (mediaRun cx ts .new).1.chan.Grounded ∧ (mediaRun cx ts .new).1.chan.timers.Kept := by
  refine Runs.exec_invariant (f := mediaTick cx) (P := fun m => m.chan.Grounded ∧ m.chan.timers.Kept)
    (fun m t _ h => ?_) ts .new (Runs.Along.always (fun _ _ => trivial) ts _)
    ⟨new_grounded, ?_⟩
  · exact ⟨mediaStep_grounded t.env t.input h.1, mediaStep_kept t.env t.input h.1 h.2⟩
  · exact ⟨by simp [R2Chan.new, MediaChan.new], by simp [R2Chan.new, MediaChan.new],
      by simp [R2Chan.new, MediaChan.new], by simp [R2Chan.new, MediaChan.new]⟩

end Kept

end OpenR2
