import OpenR2.Proofs.NothingProceeds
import OpenR2.Proofs.Sides
import OpenR2.Proofs.TimerQueue

namespace OpenR2

/-- A call begins or ends. -/
def Act.Bounds (a : Act) : Prop := a = .callState .dialing ∨ a = .callState .idle

instance (a : Act) : Decidable a.Bounds := by unfold Act.Bounds; exact inferInstance

def Act.accepts : Act → Bool
  | .event (.onCallAccepted _) => true
  | _ => false

/-- Acts on which the order of the two events rests. -/
def Act.Tells (a : Act) : Prop := a.Bounds ∨ a.accepts = true ∨ a = .event .onCallAnswered

/-- Each answer comes after an acceptance of the same call, and no acceptance comes after it. -/
structure AcceptedFirst (as : List Act) : Prop where
  accepted : ∀ pre post, as = pre ++ .event .onCallAnswered :: post →
    ∃ l mode mid, pre = l ++ .event (.onCallAccepted mode) :: mid ∧ ∀ a ∈ mid, ¬ a.Bounds
  answered : ∀ pre mid post mode,
    as = pre ++ .event .onCallAnswered :: (mid ++ .event (.onCallAccepted mode) :: post) →
      .callState .idle ∈ mid

/-- No acceptance has come in this call. -/
def unaccepted : Runs.Watch Act where
  start := Act.Bounds
  stop a := a.accepts = true
  bad a := a = .event .onCallAnswered

/-- This call has been answered. -/
def answeredCall : Runs.Watch Act where
  start a := a = .event .onCallAnswered
  stop a := a = .callState .idle
  bad a := a.accepts = true

theorem Act.exists_of_accepts {a : Act} (h : a.accepts = true) : ∃ mode, a = .event (.onCallAccepted mode) := by
  cases a with
  | event e =>
    cases e with
    | onCallAccepted mode => exact ⟨mode, rfl⟩
    | _ => exact nomatch h
  | _ => exact nomatch h

/-- Two watches see to it. -/
theorem acceptedFirst_of_clean {as : List Act} (hu : unaccepted.Clean true as) {on : Bool}
    (ha : answeredCall.Clean on as) : AcceptedFirst as := by
  constructor
  · rintro pre post rfl
    obtain ⟨l, a, mid, rfl, hs, hm⟩ := unaccepted.stopped (unaccepted.clean_at hu rfl)
    obtain ⟨mode, rfl⟩ := Act.exists_of_accepts hs
    exact ⟨l, mode, mid, rfl, hm⟩
  · rintro pre mid post mode rfl
    by_contra hi
    have hc : answeredCall.Clean on (pre ++ .event .onCallAnswered :: (mid ++ [.event (.onCallAccepted mode)])) := by
      have hx : pre ++ .event .onCallAnswered :: (mid ++ .event (.onCallAccepted mode) :: post) =
          (pre ++ .event .onCallAnswered :: (mid ++ [.event (.onCallAccepted mode)])) ++ post := by simp
      rw [hx] at ha
      exact ((answeredCall.clean_append on _ _).mp ha).1
    have hb := (answeredCall.clean_between hc rfl (by decide) fun b hb hx => ?_).1
      (.event (.onCallAccepted mode)) (List.mem_append_right _ List.mem_cons_self)
    · exact hb rfl
    · rcases List.mem_append.mp hb with hb | hb
      · exact hi (hx ▸ hb)
      · rw [List.mem_singleton.mp hb] at hx
        exact nomatch hx

namespace R2Chan

/-- How many generations of DTMF digits run or wait for their timer. -/
def dials (c : R2Chan) : Nat := c.pending.count .startDialingDtmf + c.dialingDtmf.toNat

/-- What the order of acceptance and answer rests on, in a call that has not been accepted
or has been answered: the digits are sent once, and before the acceptance. -/
structure Paced (cx : R2Context) (on answered : Bool) (c : R2Chan) : Prop where
  waiting : on = true → c.r2State ≠ .acceptRxd
  seized : c.r2State = .seizeTxd → on = true ∧ c.dials = 0
  dialing : 0 < c.dials → on = true ∧ cx.dialWithDtmf = true
  once : c.dials ≤ 1
  done : answered = true → on = false ∧ c.direction = .forward ∧
    (cx.dialWithDtmf = false → c.mfState = .offState)
  tones : cx.dialWithDtmf = true → ¬ c.mfGroup.Dials
  incoming : c.callState.Incoming → c.direction = .backward

variable {cx : R2Context} {x y : Bool} {c d : R2Chan}

/-- The acceptance and the answer are not touched, and nothing more is dialled. -/
theorem Paced.keep (h : c.Paced cx x y) (hd : d.direction = c.direction)
    (hs : d.callState.Incoming → c.callState.Incoming ∨ c.direction = .backward)
    (hr : d.r2State = c.r2State ∨ d.r2State ≠ .acceptRxd ∧ d.r2State ≠ .seizeTxd)
    (hm : y = true → cx.dialWithDtmf = false → c.mfState = .offState → d.mfState = .offState)
    (hg : cx.dialWithDtmf = true → d.mfGroup.Dials → c.mfGroup.Dials) (hx : d.dials ≤ c.dials) :
    d.Paced cx x y := by
  refine ⟨fun hu => ?_, fun hz => ?_, fun hz => ?_, hx.trans h.once, fun hy => ?_, fun ht hz => ?_,
    fun hz => ?_⟩
  · rcases hr with hr | hr
    · rw [hr]
      exact h.waiting hu
    · exact hr.1
  · rcases hr with hr | hr
    · obtain ⟨h1, h2⟩ := h.seized (hr ▸ hz)
      exact ⟨h1, Nat.le_zero.mp (h2 ▸ hx)⟩
    · exact absurd hz hr.2
  · exact h.dialing (hz.trans_le hx)
  · obtain ⟨h1, h2, h3⟩ := h.done hy
    exact ⟨h1, hd.trans h2, fun ht => hm hy ht (h3 ht)⟩
  · exact h.tones ht (hg ht hz)
  · rw [hd]
    exact (hs hz).elim h.incoming id

theorem Paced.frame (h : c.Paced cx x y) (hf : d.frame = c.frame) : d.Paced cx x y := by
  have ht : d.timers = c.timers := congrArg Frame.timers hf
  refine h.keep (congrArg Frame.direction hf) ?_ (.inl (congrArg Frame.r2State hf)) (fun _ _ ho => ?_) ?_ ?_
  · rw [show d.callState = c.callState from congrArg Frame.callState hf]
    exact .inl
  · exact (congrArg Frame.mfState hf).trans ho
  · rw [show d.mfGroup = c.mfGroup from congrArg Frame.mfGroup hf]
    exact fun _ => id
  · rw [dials, dials, pending, pending, ht, show d.dialingDtmf = c.dialingDtmf from congrArg Frame.dialingDtmf hf]

/-- A call that has just been accepted dials no more. -/
theorem Paced.accept (h : c.Paced cx x y) (hz : d.dials = 0) (hr : d.r2State ≠ .seizeTxd)
    (hs : d.callState = c.callState) (hd : d.direction = c.direction) (hg : d.mfGroup = c.mfGroup) :
    d.Paced cx false false := by
  refine ⟨nofun, fun hx => absurd hx hr, fun hx => absurd hz hx.ne', hz.le.trans (Nat.zero_le 1), nofun,
    fun ht => ?_, ?_⟩
  · rw [hg]
    exact h.tones ht
  · rw [hs, hd]
    exact h.incoming

/-- A call that was accepted is answered. -/
theorem Paced.answer (h : c.Paced cx false y) (hx : d.dials ≤ c.dials) (hd : d.direction = .forward)
    (hs : d.callState = .answered) (hr : d.r2State = .answerRxd)
    (hm : cx.dialWithDtmf = false → d.mfState = .offState) (hg : d.mfGroup = c.mfGroup) :
    d.Paced cx false true := by
  have hz : d.dials = 0 := by
    by_contra hn
    exact absurd (h.dialing ((Nat.pos_of_ne_zero hn).trans_le hx)).1 nofun
  refine ⟨nofun, fun hx => ?_, fun hx => absurd hz hx.ne', hz.le.trans (Nat.zero_le 1),
    fun _ => ⟨rfl, hd, hm⟩, fun ht => ?_, fun hi => ?_⟩
  · exact absurd (hr.symm.trans hx) (by decide)
  · rw [hg]
    exact h.tones ht
  · rw [hs] at hi
    exact hi.elim

/-- A channel without a call, or with one that has just begun. -/
theorem paced_rest (hz : d.dials = 0) (hr : d.r2State ≠ .acceptRxd)
    (hg : cx.dialWithDtmf = true → ¬ d.mfGroup.Dials) (hs : ¬ d.callState.Incoming) : d.Paced cx true false :=
  ⟨fun _ => hr, fun _ => ⟨rfl, hz⟩, fun hx => absurd hz hx.ne', hz.le.trans (Nat.zero_le 1), nofun,
    hg, fun hi => absurd hi hs⟩

theorem dials_le (hp : d.pending.Sublist c.pending) (hx : d.dialingDtmf = true → c.dialingDtmf = true) :
    d.dials ≤ c.dials :=
  Nat.add_le_add (hp.count_le _) (Bool.toNat_le_toNat hx)

theorem dials_zero (hp : .startDialingDtmf ∉ c.pending) (hx : c.dialingDtmf = false) : c.dials = 0 := by
  rw [dials, List.count_eq_zero_of_not_mem hp, hx]
  rfl

/-- Only an outgoing call dials. -/
theorem Grounded.dials_zero (hg : c.Grounded) (he : c.Equipped) (hd : c.direction ≠ .forward) :
    c.dials = 0 := by
  refine R2Chan.dials_zero (fun hp => hd (hg.trusts _ hp)) (Bool.eq_false_of_not_eq_true fun hx => ?_)
  exact hd (he.dials hx)

end R2Chan

/-- In a run the world starts to dial for a call that has not been accepted, and the answer
comes to one that has. -/
def inPace (cx : R2Context) (on : Bool) : Chance → R2Chan → Prop
  | .call _, _ | .ack, _ | .digitsEnd, _ => True
  | .earlyAnswer, c => unaccepted.after on c.out = false
  | .dial, c => unaccepted.after on c.out = true ∧ cx.dialWithDtmf = true ∧ c.dials = 0 ∧
      c.r2State ≠ .seizeTxd
  | .lateEnd, _ => False

/-- What is known at each moment of a step, with what was known before it. -/
structure R2Chan.Keeps (cx : R2Context) (on answered : Bool) (c : R2Chan) : Prop where
  answers : unaccepted.Clean on c.out
  accepts : answeredCall.Clean answered c.out
  paced : c.Paced cx (unaccepted.after on c.out) (answeredCall.after answered c.out)

section Keeps

variable {cx : R2Context} {x y : Bool} {c d : R2Chan} {as : List Act}

/-- Acts that tell nothing change nothing. -/
theorem quiet_acts (hq : ∀ a ∈ as, ¬ a.Tells) (x y : Bool) :
    unaccepted.Clean x as ∧ answeredCall.Clean y as ∧ unaccepted.after x as = x ∧
      answeredCall.after y as = y := by
  refine ⟨?_, ?_, ?_, ?_⟩
  · exact unaccepted.clean_quiet (fun a ha hx => hq a ha (.inr (.inr hx))) x
  · exact answeredCall.clean_quiet (fun a ha hx => hq a ha (.inr (.inl hx))) y
  · exact unaccepted.after_quiet (fun a ha =>
      ⟨fun hx => hq a ha (.inl hx), fun hx => hq a ha (.inr (.inl hx))⟩) x
  · exact answeredCall.after_quiet (fun a ha =>
      ⟨fun hx => hq a ha (.inr (.inr hx)), fun hx => hq a ha (.inl (.inr hx))⟩) y

theorem R2Chan.Keeps.quiet (h : c.Keeps cx x y) (as : List Act) (ho : d.out = c.out ++ as) (hq : ∀ a ∈ as, ¬ a.Tells)
    (hp : d.Paced cx (unaccepted.after x c.out) (answeredCall.after y c.out)) : d.Keeps cx x y := by
  obtain ⟨h1, h2, h3, h4⟩ := quiet_acts hq (unaccepted.after x c.out) (answeredCall.after y c.out)
  refine ⟨?_, ?_, ?_⟩
  · rw [ho, unaccepted.clean_append]
    exact ⟨h.answers, h1⟩
  · rw [ho, answeredCall.clean_append]
    exact ⟨h.accepts, h2⟩
  · rw [ho, unaccepted.after_append, answeredCall.after_append, h3, h4]
    exact hp

/-- The last act tells something. -/
theorem R2Chan.Keeps.tell (h : c.Keeps cx x y) {a : Act} (ho : d.out = c.out ++ as ++ [a])
    (hq : ∀ a ∈ as, ¬ a.Tells) (hu : unaccepted.after x c.out = true → a ≠ .event .onCallAnswered)
    (ha : answeredCall.after y c.out = true → a.accepts = false)
    (hp : d.Paced cx (unaccepted.next (unaccepted.after x c.out) a)
      (answeredCall.next (answeredCall.after y c.out) a)) : d.Keeps cx x y := by
  obtain ⟨h1, h2, h3, h4⟩ := quiet_acts hq (unaccepted.after x c.out) (answeredCall.after y c.out)
  refine ⟨?_, ?_, ?_⟩
  · rw [ho, unaccepted.clean_append, unaccepted.clean_append, unaccepted.after_append, h3]
    exact ⟨⟨h.answers, h1⟩, hu, trivial⟩
  · rw [ho, answeredCall.clean_append, answeredCall.clean_append, answeredCall.after_append, h4]
    exact ⟨⟨h.accepts, h2⟩, fun hx hy => absurd (hy.symm.trans (ha hx)) nofun, trivial⟩
  · simp only [ho, unaccepted.after_append, answeredCall.after_append, h3, h4]
    exact hp

/-- The user hears that the call is accepted. -/
theorem R2Chan.Keeps.accepted (h : c.Keeps cx x y) (as : List Act) (mode : CallMode)
    (ho : d.out = c.out ++ as ++ [.event (.onCallAccepted mode)]) (hq : ∀ a ∈ as, ¬ a.Tells)
    (ha : answeredCall.after y c.out = false) (hp : d.Paced cx false false) : d.Keeps cx x y := by
  refine h.tell ho hq (fun _ => nofun) (fun hx => absurd (ha.symm.trans hx) nofun) ?_
  rw [ha]
  exact hp

/-- The user hears that the call is answered. -/
theorem R2Chan.Keeps.answered (h : c.Keeps cx x y) (ho : d.out = c.out ++ as ++ [.event .onCallAnswered])
    (hq : ∀ a ∈ as, ¬ a.Tells) (hu : unaccepted.after x c.out = false) (hp : d.Paced cx false true) :
    d.Keeps cx x y := by
  refine h.tell ho hq (fun hx => absurd (hu.symm.trans hx) nofun) (fun _ => rfl) ?_
  rw [hu]
  exact hp

/-- A call ends, or begins where none was answered. -/
theorem R2Chan.Keeps.bound (h : c.Keeps cx x y) {a : Act} (ho : d.out = c.out ++ as ++ [a])
    (hq : ∀ a ∈ as, ¬ a.Tells)
    (ha : a = .callState .idle ∨ a = .callState .dialing ∧ answeredCall.after y c.out = false)
    (hp : d.Paced cx true false) : d.Keeps cx x y := by
  rcases ha with rfl | ⟨rfl, ha⟩
  · exact h.tell ho hq (fun _ => nofun) (fun _ => rfl) hp
  · refine h.tell ho hq (fun _ => nofun) (fun _ => rfl) ?_
    rw [ha]
    exact hp

end Keeps

section Atoms

variable {cx : R2Context} {env : Env} {x y : Bool} {c d : R2Chan}

theorem Act.Tells.cases {a : Act} (h : a.Tells) : a = .callState .dialing ∨ a = .callState .idle ∨
    (∃ mode, a = .event (.onCallAccepted mode)) ∨ a = .event .onCallAnswered := by
  rcases h with (h | h) | h | h
  · exact .inl h
  · exact .inr (.inl h)
  · exact .inr (.inr (.inl (Act.exists_of_accepts h)))
  · exact .inr (.inr (.inr h))

theorem Act.Plain.not_tells {a : Act} (h : a.Plain) : ¬ a.Tells := fun ht => by
  rcases ht.cases with rfl | rfl | ⟨mode, rfl⟩ | rfl <;> exact h

theorem Act.Disposes.not_tells {a : Act} (h : a.Disposes) : ¬ a.Tells := fun ht => by
  rcases ht.cases with rfl | rfl | ⟨mode, rfl⟩ | rfl <;> exact h

theorem Act.Tuning.not_tells {a : Act} (h : a.Tuning) : ¬ a.Tells := fun ht => by
  rcases ht.cases with rfl | rfl | ⟨mode, rfl⟩ | rfl <;> exact h

theorem Act.Polls.not_tells {a : Act} (h : a.Polls) : ¬ a.Tells := fun ht => by
  rcases ht.cases with rfl | rfl | ⟨mode, rfl⟩ | rfl <;> exact h

theorem R2Chan.Hops.states {r : CasState} (h : c.Hops cx r) : r ≠ .acceptRxd ∧ r ≠ .seizeTxd := by
  cases h with
  | release _ _ hr => rcases hr with rfl | rfl <;> decide
  | _ => decide

theorem turnOffMfEngine_dials (he : c.Equipped) :
    (turnOffMfEngine cx c).dialingDtmf = false ∧ (turnOffMfEngine cx c).dials ≤ c.dials := by
  have hx := (he.turnedOff cx).1
  exact ⟨hx, R2Chan.dials_le (R2Chan.turnOffMfEngine_sublist cx c) fun hy => absurd (hx.symm.trans hy) nofun⟩

theorem protoInit_dials (he : c.Equipped) : (protoInit cx c).dials = 0 := by
  obtain ⟨⟨rx, r, w, a, b, hf⟩, -⟩ := protoInit_reset cx c
  refine R2Chan.dials_zero ?_ (he.reset cx).1
  rw [hf]
  exact List.not_mem_nil

theorem addTimer_count (ms : Nat) (cb : TimerCallback) (x : TimerCallback) :
    (addTimer env ms cb c).1.pending.count x ≤ (cb :: c.pending).count x := by
  have hle : c.pending.count x ≤ (cb :: c.pending).count x := (List.sublist_cons_self cb _).count_le x
  simp only [addTimer]
  split
  · exact hle
  · rename_i now _
    by_cases hf : c.timers.schedTimers.length = maxSchedTimers
    · rw [R2Chan.pending, show ((c.did .gettimeofday).mapTimers fun q => (q.addTimer now ms cb).1).timers =
        (c.timers.addTimer now ms cb).1 from rfl, TimerQueue.addTimer_full now ms cb hf]
      exact hle
    · exact ((TimerQueue.pending_addTimer_perm now ms cb hf).count_eq x).le

theorem addTimer_dials (ms : Nat) {cb : TimerCallback} (hne : cb ≠ .startDialingDtmf) :
    (addTimer env ms cb c).1.dials ≤ c.dials := by
  obtain ⟨⟨q, w, hf⟩, -⟩ := R2Chan.Tuned.addTimer env ms cb c
  have hd : (addTimer env ms cb c).1.dialingDtmf = c.dialingDtmf := by rw [hf]
  have hc := @addTimer_count env c ms cb .startDialingDtmf
  rw [List.count_cons_of_ne hne] at hc
  rw [R2Chan.dials, hd]
  exact Nat.add_le_add_right hc _

theorem R2Chan.Paced.tuned (h : c.Paced cx x y) (ht : c.Tuned d) (hx : d.dials ≤ c.dials) : d.Paced cx x y := by
  obtain ⟨⟨q, w, hf⟩, -⟩ := ht
  refine h.keep ?_ ?_ (.inl ?_) ?_ ?_ hx <;> rw [hf]
  · exact .inl
  · exact fun _ _ => id
  · exact fun _ => id

/-- The register signalling of an answered call stays off. -/
theorem R2Chan.Paced.signals (h : c.Paced cx x y) {ok : Chance → R2Chan → Prop} {m : MfState}
    (hs : c.Signals cx env ok m) (hy : y = true) (hm : c.mfState = .offState) : False := by
  obtain ⟨-, hd, -⟩ := h.done hy
  cases hs with
  | backward _ hx => exact hx.1 hd
  | decide _ hc => exact absurd (hd.symm.trans (h.incoming (by rw [hc]; trivial))) (by decide)
  | forward _ _ ho => exact ho hm

theorem R2Chan.Paced.not_answered (h : c.Paced cx x y) (hd : c.direction ≠ .forward) : y = false :=
  Bool.eq_false_of_not_eq_true fun hy => hd (h.done hy).2.1

/-- The digits of a call that is yet to be accepted are dialled. -/
theorem R2Chan.Paced.dial (h : c.Paced cx true y) (ht : cx.dialWithDtmf = true) (hz : c.dials = 0)
    (hr : c.r2State ≠ .seizeTxd) : (startDialingDtmf c).Paced cx true y := by
  have hx : (startDialingDtmf c).dials = 1 := by
    have hp : c.pending.count .startDialingDtmf = 0 := Nat.eq_zero_of_add_eq_zero_right hz
    change c.pending.count .startDialingDtmf + 1 = 1
    rw [hp]
  exact ⟨h.waiting, fun hs => absurd hs hr, fun _ => ⟨rfl, ht⟩, hx.le, fun hy => absurd (h.done hy).1 nofun,
    h.tones, h.incoming⟩

/-- The acknowledged seize of a call that is dialled with DTMF. -/
theorem R2Chan.Paced.dialDtmf (h : c.Paced cx x y) (ms : Nat) (hr : c.r2State = .seizeTxd)
    (ht : cx.dialWithDtmf = true) :
    (armTimer env .dtmfStartDial ms .startDialingDtmf (c.setR2State .seizeAckRxd)).Paced cx x y := by
  obtain ⟨hx, hz⟩ := h.seized hr
  obtain ⟨⟨q, w, hf⟩, -⟩ := R2Chan.Tuned.armTimer env .dtmfStartDial ms .startDialingDtmf
    (c.setR2State .seizeAckRxd)
  have hc := @addTimer_count env (c.setR2State .seizeAckRxd) ms .startDialingDtmf .startDialingDtmf
  have hd : (armTimer env .dtmfStartDial ms .startDialingDtmf (c.setR2State .seizeAckRxd)).dialingDtmf =
      c.dialingDtmf := by
    rw [hf]
    rfl
  have hp : (armTimer env .dtmfStartDial ms .startDialingDtmf (c.setR2State .seizeAckRxd)).pending =
    (addTimer env ms .startDialingDtmf (c.setR2State .seizeAckRxd)).1.pending := rfl
  have hl : (armTimer env .dtmfStartDial ms .startDialingDtmf (c.setR2State .seizeAckRxd)).dials ≤
      c.dials + 1 := by
    rw [List.count_cons_self, show (c.setR2State .seizeAckRxd).pending = c.pending from rfl] at hc
    rw [R2Chan.dials, R2Chan.dials, hd, hp]
    omega
  generalize armTimer env .dtmfStartDial ms .startDialingDtmf (c.setR2State .seizeAckRxd) = d at hf hl
  have hs : d.direction = c.direction ∧ d.callState = c.callState ∧ d.r2State = .seizeAckRxd ∧
      d.mfGroup = c.mfGroup := by
    rw [hf]
    exact ⟨rfl, rfl, rfl, rfl⟩
  obtain ⟨h1, h2, h3, h4⟩ := hs
  rw [hz] at hl
  refine ⟨fun _ => ?_, fun hs => ?_, fun _ => ⟨hx, ht⟩, hl, fun hy => ?_, fun _ => ?_, ?_⟩
  · rw [h3]
    decide
  · exact absurd (h3.symm.trans hs) (by decide)
  · exact absurd ((h.done hy).1.symm.trans hx) nofun
  · rw [h4]
    exact h.tones ht
  · rw [h1, h2]
    exact h.incoming

/-- An incoming call begins where none was answered. -/
theorem R2Chan.Paced.receive (h : c.Paced cx x y) (hz : c.dials = 0) (hd : c.direction ≠ .forward)
    (m : MfState) {g : MfGroup} (hg : ¬ g.Dials) : (c.receive m g).Paced cx x y := by
  refine ⟨fun _ => nofun, nofun, fun hx => absurd hz hx.ne', hz.le.trans (Nat.zero_le 1), fun hy => ?_,
    fun _ => hg, fun _ => rfl⟩
  exact absurd (h.done hy).2.1 hd

theorem R2Chan.Keeps.silent (h : c.Keeps cx x y) (ho : d.out = c.out)
    (hp : d.Paced cx (unaccepted.after x c.out) (answeredCall.after y c.out)) : d.Keeps cx x y :=
  h.quiet [] (by rw [ho, List.append_nil]) (by simp) hp

theorem R2Chan.Keeps.did (h : c.Keeps cx x y) (a : Act) (ha : ¬ a.Tells) : (c.did a).Keeps cx x y :=
  h.quiet _ rfl (by simpa using ha) (h.paced.keep rfl .inl (.inl rfl) (fun _ _ => id) (fun _ => id) le_rfl)

theorem place_out (ani : Option (List Tone)) (dnis : List Tone) (category : Category) (r : Bool) :
    ∃ as, (c.place cx env ani dnis category r).out = c.out ++ as ++ [.callState .dialing] ∧
      (∀ a ∈ as, ¬ a.Tells) ∧ (c.place cx env ani dnis category r).mfGroup = c.mfGroup ∧
        (c.place cx env ani dnis category r).dials ≤ c.dials := by
  have ht := R2Chan.Tuned.armTimer env .r2Seize cx.timers.r2Seize .seizeTimeoutExpired
    (c.setR2State .seizeTxd)
  have hd : (armTimer env .r2Seize cx.timers.r2Seize .seizeTimeoutExpired (c.setR2State .seizeTxd)).dials ≤
      c.dials := @addTimer_dials env (c.setR2State .seizeTxd) _ _ (by decide)
  obtain ⟨⟨q, w, hf⟩, as, ho, ha⟩ := ht
  have hg : (armTimer env .r2Seize cx.timers.r2Seize .seizeTimeoutExpired
      (c.setR2State .seizeTxd)).mfGroup = c.mfGroup := by
    rw [hf]
    rfl
  refine ⟨as, ?_, fun a hm => (ha a hm).not_tells, ?_⟩
  · rw [← show (c.setR2State .seizeTxd).out ++ as ++ [.callState .dialing] = c.out ++ as ++ [.callState .dialing]
      from rfl, ← ho]
    rfl
  · unfold R2Chan.place
    generalize armTimer env .r2Seize cx.timers.r2Seize .seizeTimeoutExpired (c.setR2State .seizeTxd) = e
      at hd hg
    exact ⟨hg, hd⟩

theorem protoInit_paced (he : c.Equipped) : (protoInit cx c).Paced cx true false := by
  refine R2Chan.paced_rest (protoInit_dials he) ?_ ?_ ?_
  all_goals
    obtain ⟨⟨rx, r, w, a, b, hf⟩, -⟩ := protoInit_reset cx c
    rw [hf]
  · exact nofun
  · exact fun _ => id
  · exact id

theorem R2Chan.Paced.turnOff (h : c.Paced cx x y) (he : c.Equipped) : (turnOffMfEngine cx c).Paced cx x y := by
  obtain ⟨⟨r, w, a, b, q, hf⟩, -⟩ := turnOffMfEngine_turnedOff cx c
  have hd := (@turnOffMfEngine_dials cx c he).2
  generalize turnOffMfEngine cx c = e at hf hd
  refine h.keep ?_ ?_ (.inl ?_) ?_ ?_ hd <;> rw [hf]
  · exact .inl
  · exact fun _ _ _ => rfl
  · exact fun _ => id

theorem callAnswered_facts (he : c.Equipped) :
    (∃ as, (callAnswered cx c).out = c.out ++ as ++ [.event .onCallAnswered] ∧ ∀ a ∈ as, ¬ a.Tells) ∧
      (callAnswered cx c).mfState = .offState ∧ (callAnswered cx c).mfGroup = c.mfGroup ∧
        (callAnswered cx c).dials ≤ c.dials := by
  let b := ((c.cancelTimer .r2Answer).setR2State .answerRxd).setCallState .answered
  have hb : b.out = c.out ++ [.callState .answered] := rfl
  have hg : b.mfGroup = c.mfGroup := rfl
  have hx : b.dials ≤ c.dials := R2Chan.dials_le ((c.timers.cancelTimer_sublist .r2Answer).map _) id
  have hd : callAnswered cx c = (turnOffMfEngine cx b).setAnswered.emit .onCallAnswered := callAnswered_eq cx c
  have hl := (@turnOffMfEngine_dials cx b (he.same id rfl rfl rfl)).2
  obtain ⟨⟨r, w, x, y, q, hf⟩, -, as, ho, ha⟩ := turnOffMfEngine_turnedOff cx b
  have hm : (turnOffMfEngine cx b).mfState = .offState ∧ (turnOffMfEngine cx b).mfGroup = c.mfGroup := by
    rw [hf]
    exact ⟨rfl, hg⟩
  rw [hb] at ho
  rw [hd]
  generalize turnOffMfEngine cx b = e at ho hm hl
  refine ⟨⟨.callState .answered :: as, ?_, ?_⟩, hm.1, hm.2, hl.trans hx⟩
  · rw [show (e.setAnswered.emit .onCallAnswered).out = e.out ++ [.event .onCallAnswered] from rfl, ho]
    simp
  · exact List.forall_mem_cons.mpr ⟨by simp [Act.Tells, Act.Bounds, Act.accepts], fun a hm => (ha a hm).not_tells⟩

end Atoms

section Steps

variable {cx : R2Context} {env : Env} {x y : Bool} {c d : R2Chan}

/-- Every operation keeps to the order, where the world does. -/
theorem Atom.keeps (ha : Atom cx env (inPace cx x) c d) (hg : c.Grounded) (he : c.Equipped)
    (h : c.Keeps cx x y) : d.Keeps cx x y := by
  have hp := h.paced
  have hz : c.direction ≠ .forward → c.dials = 0 := hg.dials_zero he
  have hi : c.callState = .idle → c.direction ≠ .forward := fun hc hd =>
    absurd ((hg.idle hc).1.symm.trans hd) (by decide)
  have hinit : ∀ b : R2Chan, b.Equipped → b.Keeps cx x y → (protoInit cx b).Keeps cx x y := by
    intro b he h
    obtain ⟨-, as, ho, ha⟩ := protoInit_reset cx b
    exact h.bound ho (fun a hm => (ha a hm).not_tells) (.inl rfl) (protoInit_paced he)
  cases ha with
  | plain _ hf =>
    obtain ⟨hf, as, ho, ha⟩ := hf
    exact h.quiet _ ho (fun a hm => (ha a hm).not_tells) (hp.frame hf)
  | select tone => exact h.did _ (by simp [Act.Tells, Act.Bounds, Act.accepts])
  | unready e hd =>
    have hi : ∀ (d : R2Chan) (a : Act), ¬ a.Tells → d.Equipped ∧ d.Keeps cx x y →
        (d.did a).Equipped ∧ (d.did a).Keeps cx x y := fun d a ha hd =>
      ⟨hd.1.same id rfl rfl rfl, hd.2.did a ha⟩
    have hw := hi c (.mfWriteInit c.mfWriteHandle false) (by simp [Act.Tells, Act.Bounds, Act.accepts]) ⟨he, h⟩
    have hd' : e.Equipped ∧ e.Keeps cx x y := by
      rcases hd with rfl | rfl
      · exact hw
      · exact hi _ _ (by simp [Act.Tells, Act.Bounds, Act.accepts]) hw
    have hs := hi e (.mfSelectTone e.mfWriteHandle 0) (by simp [Act.Tells, Act.Bounds, Act.accepts]) hd'
    exact hinit _ hs.1 hs.2
  | init => exact hinit c he h
  | block =>
    obtain ⟨-, as, ho, ha⟩ := protoInit_reset cx c
    have hb : ((protoInit cx c).setR2State .blocked).Paced cx true false :=
      (protoInit_paced he).keep rfl .inl (.inr ⟨by rintro ⟨⟩, by rintro ⟨⟩⟩) (by rintro ⟨⟩) (fun _ => id) le_rfl
    exact h.bound (d := (protoInit cx c).setR2State .blocked) ho (fun a hm => (ha a hm).not_tells) (.inl rfl) hb
  | turnOff _ =>
    obtain ⟨-, -, as, ho, ha⟩ := turnOffMfEngine_turnedOff cx c
    exact h.quiet _ ho (fun a hm => (ha a hm).not_tells) (hp.turnOff he)
  | expire n =>
    exact h.silent rfl (hp.keep rfl .inl (.inl rfl) (fun _ _ => id) (fun _ => id)
      (R2Chan.dials_le (List.eraseP_sublist.map _) id))
  | drop op ho =>
    exact h.silent rfl (hp.keep rfl .inl (.inl rfl) (fun _ _ => id) (fun _ => id)
      (R2Chan.dials_le ((ho.sublist c.timers).map _) id))
  | arm slot ms hx =>
    have hn : slot.purpose ≠ .startDialingDtmf := fun hcb => by
      rw [hcb] at hx
      exact hx
    obtain ⟨-, as, ho, ha⟩ := R2Chan.Tuned.armTimer env slot ms slot.purpose c
    exact h.quiet _ ho (fun a hm => (ha a hm).not_tells)
      (hp.tuned (.armTimer env slot ms slot.purpose c) (@addTimer_dials env c ms slot.purpose hn))
  | callDown ms _ =>
    obtain ⟨-, as, ho, ha⟩ := R2Chan.Tuned.addTimer env ms .r2SetCallDown c
    exact h.quiet _ ho (fun a hm => (ha a hm).not_tells)
      (hp.tuned (.addTimer env ms .r2SetCallDown c) (@addTimer_dials env c ms .r2SetCallDown (by decide)))
  | hop r hr =>
    exact h.silent rfl (hp.keep rfl .inl (.inr hr.states) (fun _ _ => id) (fun _ => id) le_rfl)
  | signal m hs =>
    exact h.silent rfl (hp.keep rfl .inl (.inl rfl) (fun hy _ ho => (hp.signals hs hy ho).elim)
      (fun _ => id) le_rfl)
  | group g hx =>
    exact h.silent rfl (hp.keep rfl .inl (.inl rfl) (fun _ _ => id) (fun _ => hx) le_rfl)
  | dial hd ho =>
    obtain ⟨h1, h2, h3, h4⟩ := ho
    rw [h1] at hp
    refine h.silent rfl ?_
    rw [h1]
    exact hp.dial h2 h3 h4
  | dialMf m hm hr hx _ =>
    have hn : ¬ cx.dialWithDtmf = true := by simp [hx]
    have hy : ∀ hy : answeredCall.after y c.out = true, False := fun hy =>
      absurd ((hp.done hy).1.symm.trans (hp.seized hr).1) (by rintro ⟨⟩)
    have ho : (c.dialMf m).out = c.out ++ [.mfWriteInit c.mfWriteHandle true] ++
      [.mfReadInit c.mfReadHandle false] ++ [.readDnis c.dnisIndex] := rfl
    rw [List.append_assoc, List.append_assoc] at ho
    refine h.quiet _ ho (by simp [Act.Tells, Act.Bounds, Act.accepts]) ?_
    exact hp.keep rfl .inl (.inr ⟨by rintro ⟨⟩, by rintro ⟨⟩⟩) (fun ha => (hy ha).elim) (fun ht => absurd ht hn) le_rfl
  | dialDtmf ms hr hx =>
    obtain ⟨-, as, ho, ha⟩ := R2Chan.Tuned.armTimer env .dtmfStartDial ms .startDialingDtmf
      (c.setR2State .seizeAckRxd)
    exact h.quiet _ ho (fun a hm => (ha a hm).not_tells) (hp.dialDtmf ms hr hx)
  | place ani dnis category r hc hx =>
    obtain ⟨as, ho, ha, h1, h2⟩ := @place_out cx env c ani dnis category r
    obtain ⟨-, h3, h4, -⟩ := place_frame cx env ani dnis category r c
    generalize c.place cx env ani dnis category r = e at ho h1 h2 h3 h4
    rw [hz (hi hc)] at h2
    refine h.bound ho ha (.inr ⟨rfl, hp.not_answered (hi hc)⟩) (R2Chan.paced_rest (Nat.le_zero.mp h2) ?_ ?_ ?_)
    · rw [h4]
      decide
    · rw [h1]
      exact hp.tones
    · rw [h3]
      exact id
  | receiveMf w r hr _ _ =>
    have hd := hi (hg.rest hr)
    let b := ((c.did (.mfWriteInit c.mfWriteHandle false)).did (.mfReadInit c.mfReadHandle true)).setMfHandles w r
    have hb : b.Paced cx (unaccepted.after x c.out) (answeredCall.after y c.out) :=
      hp.keep rfl .inl (.inl rfl) (fun _ _ => id) (fun _ => id) le_rfl
    refine h.quiet [.mfWriteInit c.mfWriteHandle false, .mfReadInit c.mfReadHandle true,
      .callState .collecting] (by simp [R2Chan.receive, R2Chan.did, R2Chan.setCallState,
        R2Chan.setMfHandles, R2Chan.setMfState, R2Chan.setMfGroup, R2Chan.setR2State, R2Chan.setDirection])
      (by simp [Act.Tells, Act.Bounds, Act.accepts]) (hb.receive (hz hd) hd _ (by rintro ⟨⟩))
  | receiveDtmf hr _ =>
    have hd := hi (hg.rest hr)
    have hb : (c.setDtmf c.dialingDtmf true).Paced cx (unaccepted.after x c.out) (answeredCall.after y c.out) :=
      hp.keep rfl .inl (.inl rfl) (fun _ _ => id) (fun _ => id) le_rfl
    exact h.quiet [.callState .collecting] rfl (by simp [Act.Tells, Act.Bounds, Act.accepts])
      (hb.receive (hz hd) hd _ (by rintro ⟨⟩))
  | offer hc _ =>
    refine h.quiet [.callState .offered, .event (.onCallOffered (cstr c.ani) (cstr c.dnis)
      (tone2category cx c.callerCategory) c.callerAniIsRestricted)]
      (by simp [R2Chan.emit, R2Chan.did, R2Chan.setCallState]) (by simp [Act.Tells, Act.Bounds, Act.accepts]) ?_
    exact hp.keep rfl (fun _ => .inl (by rw [hc]; trivial)) (.inl rfl) (fun _ _ => id) (fun _ => id) le_rfl
  | accept hd =>
    obtain ⟨-, -, as, ho, ha⟩ := turnOffMfEngine_turnedOff cx c
    have ht : (turnOffMfEngine cx c).Paced cx _ _ := hp.turnOff he
    have hd' : (turnOffMfEngine cx c).direction = .backward := (turnOffMfEngine_direction cx c).trans hd
    refine h.quiet (as ++ [.callState .accepted]) ?_ (fun a hm => ?_)
      (ht.keep rfl (fun _ => .inr hd') (.inl rfl) (fun _ _ => id) (fun _ => id) le_rfl)
    · rw [← List.append_assoc, ← ho]
      rfl
    · rcases List.mem_append.mp hm with hm | hm
      · exact (ha a hm).not_tells
      · rw [List.mem_singleton.mp hm]
        simp [Act.Tells, Act.Bounds, Act.accepts]
  | accepted hx =>
    have hd : c.direction = .backward := hx.elim id fun hc => hp.incoming (by rw [hc]; trivial)
    have hn : c.direction ≠ .forward := by rw [hd]; decide
    refine h.accepted [] _ (by rw [List.append_nil]; rfl) (by simp) (hp.not_answered hn) (hp.accept (hz hn) (fun hr => ?_) rfl rfl rfl)
    exact hn (hg.calling (by rw [show c.r2State = .seizeTxd from hr]; trivial))
  | acceptTone mode hd hm hx =>
    have ht : cx.dialWithDtmf = false := Bool.eq_false_of_not_eq_true fun ht => hp.tones ht hx
    have h0 : c.dials = 0 := Nat.eq_zero_of_not_pos fun hl => absurd (ht.symm.trans (hp.dialing hl).2) (by rintro ⟨⟩)
    have hy : answeredCall.after y c.out = false :=
      Bool.eq_false_of_not_eq_true fun hy => hm ((hp.done hy).2.2 ht)
    exact h.accepted [] _ (by rw [List.append_nil]; rfl) (by simp) hy (hp.accept h0 (by rintro ⟨⟩) rfl rfl rfl)
  | dialled hd hx =>
    obtain ⟨-, -, as, ho, ha⟩ := turnOffMfEngine_turnedOff cx c
    have hx : c.dialingDtmf = true := hx.elim id False.elim
    have hl : c.dials = c.pending.count .startDialingDtmf + 1 := by rw [R2Chan.dials, hx]; rfl
    have h0 : 0 < c.dials := hl ▸ Nat.succ_pos _
    have hy : answeredCall.after y c.out = false := Bool.eq_false_of_not_eq_true fun hy =>
      absurd ((hp.done hy).1.symm.trans (hp.dialing h0).1) (by rintro ⟨⟩)
    have hr : c.r2State ≠ .seizeTxd := fun hr => h0.ne' (hp.seized hr).2
    have ht : (turnOffMfEngine cx c).dials = 0 := by
      have hc := (R2Chan.turnOffMfEngine_sublist cx c).count_le .startDialingDtmf
      have ho := hp.once
      rw [R2Chan.dials, (turnOffMfEngine_dials he).1, Bool.toNat_false]
      omega
    obtain ⟨⟨r, w, a, b, q, hf⟩, -⟩ := turnOffMfEngine_turnedOff cx c
    generalize turnOffMfEngine cx c = e at ho hf ht
    refine h.accepted as .unknown ?_ (fun a hm => (ha a hm).not_tells) hy (hp.accept ht ?_ ?_ ?_ ?_)
    · rw [← ho]
      rfl
    all_goals rw [hf]
    · exact hr
    all_goals rfl
  | answer a _ _ _ =>
    have ho : (setCasSignal cx env .answer c).1.out =
      c.out ++ [.setCas (cx.casSignals .answer ||| cx.casNonr2Bits)] := rfl
    have hs := hp.frame (setCasSignal_frame cx env c .answer)
    generalize (setCasSignal cx env .answer c).1 = e at ho hs
    refine h.quiet [.setCas (cx.casSignals .answer ||| cx.casNonr2Bits), .callState .answered] ?_
      (by simp [Act.Tells, Act.Bounds, Act.accepts])
      (hs.keep rfl (fun hi => (hi : False).elim) (.inr ⟨by rintro ⟨⟩, by rintro ⟨⟩⟩) (fun _ _ => id) (fun _ => id) le_rfl)
    rw [show (((e.setCallState .answered).setR2State .answerTxd).setAnswered).out = e.out ++ [.callState .answered]
      from rfl, ho, List.append_assoc]
    rfl
  | answered hr =>
    have hu : unaccepted.after x c.out = false := Bool.eq_false_of_not_eq_true fun hu => hp.waiting hu hr
    obtain ⟨h1, h2, h3, h4⟩ := @callAnswered_facts cx c he
    obtain ⟨hd, hs, hr', -⟩ := callAnswered_frame cx c
    obtain ⟨as, ho, ha⟩ := h1
    rw [hu] at hp
    refine h.answered ho ha hu (hp.answer h4 (hd.trans (hg.calling (by rw [hr]; trivial))) hs hr' ?_ h3)
    exact fun _ => h2
  | answeredDtmf hr hd ho =>
    have hu : unaccepted.after x c.out = false := ho
    obtain ⟨hd', hs, hr', -⟩ := dtmfCallAnswered_frame c
    have hx : (dtmfCallAnswered c).dials ≤ c.dials :=
      R2Chan.dials_le ((c.timers.cancelTimer_sublist .r2Answer).map _) id
    have hg' : (dtmfCallAnswered c).mfGroup = c.mfGroup := rfl
    have ho : (dtmfCallAnswered c).out = c.out ++ [.callState .answered] ++ [.event .onCallAnswered] := rfl
    generalize dtmfCallAnswered c = e at hd' hs hr' hx hg' ho
    rw [hu] at hp
    exact h.answered ho (by simp [Act.Tells, Act.Bounds, Act.accepts]) hu
      (hp.answer hx (hd'.trans (hg.calling (by rw [hr]; trivial))) hs hr' (fun ht => by simp [hd] at ht) hg')
  | billing hr _ =>
    exact h.quiet [.event .onBillingPulseReceived] rfl (by simp [Act.Tells, Act.Bounds, Act.accepts])
      (hp.keep rfl .inl (.inr ⟨by rintro ⟨⟩, by rintro ⟨⟩⟩) (fun _ _ => id) (fun _ => id) le_rfl)
  | report cause hr =>
    refine h.quiet [.callState .disconnected, .event (.onCallDisconnect cause)]
      (by simp [reportCallDisconnection, R2Chan.emit, R2Chan.did, R2Chan.setCallState])
      (by simp [Act.Tells, Act.Bounds, Act.accepts]) ?_
    exact hp.keep rfl (fun hs => (hs : False).elim) (.inl rfl) (fun _ _ => id) (fun _ => id) le_rfl
  | alarm on => exact h.silent rfl (hp.keep rfl .inl (.inl rfl) (fun _ _ => id) (fun _ => id) le_rfl)

theorem Atoms.keeps (ha : Atoms cx env (inPace cx x) c d) (hg : c.Grounded) (he : c.Equipped)
    (h : c.Keeps cx x y) : d.Keeps cx x y := by
  induction ha with
  | refl => exact h
  | tail hb ha ih => exact ha.keeps (Atoms.grounded hb hg) (Atoms.equipped hb hg he) ih

end Steps

/-- The line inputs of MFC mode among the inputs. -/
def MediaInput.line? : MediaInput → Option Input
  | .cas => some .cas
  | .timer id => some (.timer id)
  | _ => none

/-- The step acts on an answer, in a call that is dialled with DTMF and was acknowledged. -/
def TakesAnswer (cx : R2Context) (m : MediaChan) (t : MediaTick) : Prop :=
  cx.dialWithDtmf = true ∧ m.chan.r2State = .seizeAckRxd ∧
    ∃ i ∈ t.input.line?, switched cx t.env i m.chan = some (cx.casSignals .answer)

instance (cx : R2Context) (m : MediaChan) (t : MediaTick) : Decidable (TakesAnswer cx m t) := by
  unfold TakesAnswer
  exact inferInstance

/-- All the digits are out. -/
def DigitsSent (m : MediaChan) (t : MediaTick) : Prop :=
  t.input = .write true ∧ m.chan.dialingDtmf = true

section Runs

variable {cx : R2Context} {env : Env} {x y : Bool} {c d : R2Chan} {m : MediaChan}

/-- An answer that the step acts on finds what was known before the step. -/
theorem readMay_of_entry {i : Input} (hi : ∀ on, i ≠ .alarm on) (h : casEntry cx env i c = some d)
    (ha : c.r2State = .seizeAckRxd → cx.dialWithDtmf = true →
      switched cx env i c = some (cx.casSignals .answer) → x = false) : ReadMay cx env (inPace cx x) d := by
  obtain ⟨hr, ho⟩ := casEntry_polls hi h
  obtain ⟨⟨raw, p, hf⟩, -, as, hs, hp⟩ := casPattern_polled cx env d
  intro cas hc hn
  refine ⟨fun _ _ _ => trivial, fun hq hcas ht => ?_⟩
  have hx : x = false := by
    refine ha ?_ ht ?_
    · rw [← hr, ← hq, hf]
      rfl
    · rw [switched, h]
      simp only [hn, Bool.false_eq_true, if_false]
      rw [hc, hcas]
  have hq : ∀ a ∈ (casPattern cx env d).1.out, ¬ a.Tells := by
    rw [hs]
    exact fun a hm => (List.mem_append.mp hm).elim (fun hm => (ho a hm).not_tells) fun hm => (hp a hm).not_tells
  exact (quiet_acts hq x false).2.2.1.trans hx

/-- The timer that expires is no longer among those that wait. -/
theorem count_removeId {id : Nat} {t : SchedTimer} (h : c.timer? id = some t) :
    (c.mapTimers (·.removeId id)).pending.count t.callback + 1 = c.pending.count t.callback := by
  obtain ⟨ht, ts, us, hs, hn⟩ := List.find?_eq_some_iff_append.mp h
  have hi : t.id = id := beq_iff_eq.mp ht
  have hr : (c.timers.removeId id).schedTimers = ts ++ us := by
    rw [TimerQueue.removeId]
    dsimp only
    rw [hs, List.eraseP_append_right _ fun u hu => ?_, List.eraseP_cons_of_pos (by simp [hi])]
    have hx : ¬ u.id = id := by simpa using hn u hu
    rw [beq_iff_eq]
    exact_mod_cast hx
  have hp : (c.mapTimers (·.removeId id)).pending = (ts ++ us).map SchedTimer.callback := by
    rw [← hr]
    rfl
  rw [hp, R2Chan.pending, TimerQueue.pending, hs]
  simp only [List.map_append, List.map_cons, List.count_append, List.count_cons_self]
  omega

/-- The world keeps to the order where the answer does not come early. -/
theorem may_inPace (he : m.chan.Equipped) (hp : m.chan.Paced cx x y) (t : MediaTick)
    (ht : TakesAnswer cx m t → x = false) : May cx t.env (inPace cx x) m t.input := by
  have hr : ∀ {i d}, (∀ on, i ≠ .alarm on) → t.input.line? = some i → casEntry cx t.env i m.chan = some d →
      ReadMay cx t.env (inPace cx x) d := fun hi hl hd =>
    readMay_of_entry hi hd fun hs hx hw => ht ⟨hx, hs, _, hl, hw⟩
  refine ⟨fun _ _ _ _ => trivial, fun _ _ => trivial, fun hi => ?_, fun id hi d hd => ?_, fun id u hi hu hc => ?_,
    fun hd hf => ?_, fun _ _ => trivial⟩
  · exact hr (i := .cas) nofun (by rw [hi]; rfl) rfl
  · exact hr (i := .timer id) nofun (by rw [hi]; rfl) hd
  · -- one generation waits, and it is this one
    have hn := count_removeId (c := m.chan) hu
    have h1 : m.chan.dials = m.chan.pending.count .startDialingDtmf + m.chan.dialingDtmf.toNat := rfl
    have h2 : (m.chan.start.mapTimers (·.removeId id)).dials =
      (m.chan.mapTimers (·.removeId id)).pending.count .startDialingDtmf + m.chan.dialingDtmf.toNat := rfl
    have ho := hp.once
    rw [hc] at hn
    have hl : 0 < m.chan.dials := by omega
    obtain ⟨hx, hd⟩ := hp.dialing hl
    exact ⟨hx, hd, by omega, fun hs => hl.ne' (hp.seized hs).2⟩
  · exact absurd (hf.symm.trans (he.detects hd)) (by decide)

/-- One step keeps to the order. -/
theorem mediaStep_keeps (hg : m.chan.Grounded) (he : m.chan.Equipped) (hp : m.chan.Paced cx x y) (t : MediaTick)
    (ht : TakesAnswer cx m t → x = false) : (mediaStep cx t.env t.input m).chan.Keeps cx x y := by
  have ha := mediaStep_atoms cx t.env (inPace cx x) m (may_inPace he hp t ht) hg.live hg.trusts
  exact ha.keeps hg.start (he.same id rfl rfl rfl) ⟨trivial, trivial, hp.frame rfl⟩

/-- The end of the digits is the acceptance. -/
theorem digitsSent_accepts (he : m.chan.Equipped) (t : MediaTick) (ht : DigitsSent m t) (x : Bool) :
    unaccepted.after x (mediaStep cx t.env t.input m).chan.out = false := by
  obtain ⟨hi, hd⟩ := ht
  have hf : (turnOffMfEngine cx m.chan.start).direction = .forward :=
    (turnOffMfEngine_direction cx m.chan.start).trans (he.dials hd)
  have ho : (mediaStep cx t.env t.input m).chan.out =
      (turnOffMfEngine cx m.chan.start).out ++ [.event (.onCallAccepted .unknown)] := by
    rw [hi]
    simp only [mediaStep, MediaChan.on, handleWrite, handleDtmfEnd]
    rw [if_pos ⟨hd, trivial⟩, if_pos hf]
    rfl
  rw [ho, unaccepted.after_append]
  rfl

theorem new_paced : R2Chan.new.Paced cx true false :=
  R2Chan.paced_rest rfl nofun (fun _ => id) id

/-- What is known after each part of a run in which no answer comes early. -/
theorem mediaRun_paced (ts : List MediaTick)
    (ht : ∀ js t, js ++ [t] <+: ts → TakesAnswer cx (mediaRun cx js .new).1 t →
      Runs.Since (mediaTick cx) Act.Bounds DigitsSent js .new) :
    let r := mediaRun cx ts .new
    (r.1.chan.Grounded ∧ r.1.chan.Equipped) ∧ (unaccepted.Clean true r.2 ∧ answeredCall.Clean false r.2) ∧
      r.1.chan.Paced cx (unaccepted.after true r.2) (answeredCall.after false r.2) ∧
      (Runs.Since (mediaTick cx) Act.Bounds DigitsSent ts .new → unaccepted.after true r.2 = false) := by
  induction ts using List.reverseRecOn with
  | nil => exact ⟨⟨new_grounded, new_equipped⟩, ⟨trivial, trivial⟩, new_paced, fun h => (Runs.not_since_nil _ h).elim⟩
  | append_singleton ts t ih =>
    obtain ⟨⟨hg, he⟩, ⟨hu, hv⟩, hp, hs⟩ := ih fun js u hj => ht js u (hj.trans (List.prefix_append ts [t]))
    have hn := ht ts t (List.prefix_refl _)
    have hr : mediaRun cx (ts ++ [t]) .new = (mediaStep cx t.env t.input (mediaRun cx ts .new).1,
        (mediaRun cx ts .new).2 ++ (mediaStep cx t.env t.input (mediaRun cx ts .new).1).chan.out) := by
      rw [mediaRun, Runs.exec_append]
      simp only [Runs.exec, mediaTick, List.append_nil]
      rfl
    have hk := mediaStep_keeps hg he hp t fun ha => hs (hn ha)
    have ha := @mediaStep_atoms_any cx _ t.env t.input hg
    simp only [hr, unaccepted.clean_append, answeredCall.clean_append, unaccepted.after_append,
      answeredCall.after_append]
    refine ⟨⟨ha.grounded hg.start, ha.equipped hg.start (he.same id rfl rfl rfl)⟩,
      ⟨⟨hu, hk.answers⟩, hv, hk.accepts⟩, hk.paced, fun hx => ?_⟩
    -- an acceptance lasts until the call ends
    obtain ⟨hx, hb⟩ := (Runs.since_snoc ts t _).mp hx
    rcases hx with hx | hx
    · rw [hs hx]
      exact unaccepted.after_off hb
    · exact digitsSent_accepts he t hx _

end Runs

/-- In every run from a new channel in which the answer to a call that is dialled with DTMF
never comes before its digits are out, each call is accepted before it is answered. -/
theorem accepted_first (cx : R2Context) (ts : List MediaTick)
    (ht : ∀ js t, js ++ [t] <+: ts → TakesAnswer cx (mediaRun cx js .new).1 t →
      Runs.Since (mediaTick cx) Act.Bounds DigitsSent js .new) : AcceptedFirst (mediaRun cx ts .new).2 := by
  obtain ⟨-, ⟨hu, hv⟩, -⟩ := mediaRun_paced ts ht
  exact acceptedFirst_of_clean hu hv

/-- A call that is dialled with DTMF, accepted when its digits are out, and answered. -/
def dialledAndAnswered : List MediaTick := acknowledged ++
  [⟨Env.fair 0xD, .timer 3⟩, ⟨Env.fair 0xD, .write true⟩, ⟨Env.fair 0x5, .cas⟩]

theorem accepted_first_dialled : AcceptedFirst (mediaRun dtmfCx dialledAndAnswered .new).2 := by
  refine accepted_first dtmfCx dialledAndAnswered (Runs.steps_iff.mpr fun n hn ht => ?_)
  have hx : ∀ n (hn : n < 6), TakesAnswer dtmfCx (mediaRun dtmfCx (dialledAndAnswered.take n) .new).1
    (dialledAndAnswered.get ⟨n, hn⟩) → n = 5 := by decide +kernel
  obtain rfl := hx n hn ht
  refine ⟨dialledAndAnswered.take 4, ⟨Env.fair 0xD, .write true⟩, [], rfl, ⟨rfl, ?_⟩, ?_⟩
  · decide +kernel
  · decide +kernel

/-- The answer may come before the digits are out. -/
theorem answered_unaccepted :
    ¬ ∀ (cx : R2Context) (ts : List MediaTick), AcceptedFirst (mediaRun cx ts .new).2 := by
  intro h
  let as := (mediaRun dtmfCx (acknowledged ++ [⟨Env.fair 0x5, .cas⟩]) .new).2
  obtain ⟨l, mode, mid, hl, -⟩ := (h dtmfCx (acknowledged ++ [⟨Env.fair 0x5, .cas⟩])).accepted
    as.dropLast [] (by decide +kernel)
  have hn : ∀ a ∈ as.dropLast, a.accepts = false := by decide +kernel
  have hm : Act.event (.onCallAccepted mode) ∈ as.dropLast := by
    rw [hl]
    exact List.mem_append_right l List.mem_cons_self
  exact absurd (hn _ hm) nofun

end OpenR2
