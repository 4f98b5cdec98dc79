import OpenR2.Proofs.Dialing
import OpenR2.Proofs.Sides

namespace OpenR2

/-- A forward channel whose call is taken down when the timer for it expires. -/
structure R2Chan.ComingDown (c : R2Chan) : Prop where
  direction : c.direction = .forward
  pending : .r2SetCallDown ∈ c.pending

/-- Before the seize is acknowledged no group is on in which digits are sent. -/
def R2Chan.Hushed (c : R2Chan) : Prop := c.Early → ¬ c.mfGroup.Dials

section Timers

variable {cx : R2Context} {env : Env} {c d : R2Chan}

theorem addTimer_subset (env : Env) (ms : Nat) (cb : TimerCallback) (c : R2Chan) :
    c.pending ⊆ (addTimer env ms cb c).1.pending := by
  intro x hx
  unfold addTimer
  cases env.gettimeofday c.out with
  | none => exact hx
  | some now =>
    by_cases hl : c.timers.schedTimers.length = maxSchedTimers
    · change x ∈ (c.timers.addTimer now ms cb).1.pending
      rw [TimerQueue.addTimer, if_pos hl]
      exact hx
    · exact (TimerQueue.pending_addTimer_perm now ms cb hl).mem_iff.mpr (List.mem_cons_of_mem _ hx)

theorem armTimer_subset (env : Env) (slot : TimerSlot) (ms : Nat) (cb : TimerCallback) (c : R2Chan) :
    c.pending ⊆ (armTimer env slot ms cb c).pending := addTimer_subset env ms cb c

namespace R2Chan.ComingDown

theorem same (h : c.ComingDown) (hd : d.direction = c.direction) (hp : c.pending ⊆ d.pending) :
    d.ComingDown := ⟨hd.trans h.direction, hp h.pending⟩

/-- It has no slot by which it could be cancelled. -/
theorem cancelTimer (h : c.ComingDown) (hk : c.timers.Kept) (slot : TimerSlot) :
    (c.cancelTimer slot).ComingDown := by
  obtain ⟨t, ht, hcb⟩ := List.mem_map.mp h.pending
  refine ⟨h.direction, List.mem_map.mpr ⟨t, hk.mem_cancelTimer ht ?_, hcb⟩⟩
  rw [hcb]
  cases slot <;> rintro ⟨⟩

theorem turnOff (h : c.ComingDown) (hk : c.timers.Kept) (cx : R2Context) : (turnOffMfEngine cx c).ComingDown := by
  refine ⟨(turnOffMfEngine_direction cx c).trans h.direction, ?_⟩
  obtain ⟨-, ht, -⟩ := turnOffMfEngine_turnedOff cx c
  rcases ht with ht | ht
  · rw [R2Chan.pending, ht]
    exact h.pending
  · rw [R2Chan.pending, ht]
    exact (h.cancelTimer hk .mfBackCycle).pending

/-- The expiry of another timer. -/
theorem expire (h : c.ComingDown) (hk : c.timers.Kept) {id : Nat}
    (hn : ∀ t ∈ c.timer? id, t.callback ≠ .r2SetCallDown) : (c.mapTimers (·.removeId id)).ComingDown := by
  obtain ⟨u, hu, hcb⟩ := List.mem_map.mp h.pending
  refine ⟨h.direction, List.mem_map.mpr ⟨u, hk.mem_removeId.mpr ⟨hu, fun he => ?_⟩, hcb⟩⟩
  have hs : (c.timer? id).isSome := List.find?_isSome.mpr ⟨u, hu, by simpa using he⟩
  obtain ⟨t, ht⟩ := Option.isSome_iff_exists.mp hs
  have hid : t.id = id := by simpa using List.find?_some ht
  have htu : t = u := List.inj_on_of_nodup_map hk.distinct (List.mem_of_find?_eq_some ht) hu (by omega)
  exact hn t ht (htu ▸ hcb)

end R2Chan.ComingDown

end Timers

section Operations

variable {cx : R2Context} {env : Env} {ok : Chance → R2Chan → Prop} {c d : R2Chan}

theorem protoInit_idles (cx : R2Context) (c : R2Chan) : .callState .idle ∈ (protoInit cx c).out := by
  obtain ⟨-, as, ho, -⟩ := protoInit_reset cx c
  rw [ho]
  simp

theorem setCallState_grows (s : CallState) (c : R2Chan) : c.out <+: (c.setCallState s).out :=
  List.prefix_append _ _

/-- No operation takes back what was done. -/
theorem Atom.grows (ha : Atom cx env ok c d) : c.out <+: d.out := by
  have hinit : ∀ e : R2Chan, e.out <+: (protoInit cx e).out := by
    intro e
    obtain ⟨-, as, ho, -⟩ := protoInit_reset cx e
    exact ⟨as ++ [.callState .idle], by rw [ho, List.append_assoc]⟩
  cases ha with
  | plain _ hp =>
    obtain ⟨as, ho, -⟩ := hp.2
    exact ⟨as, ho.symm⟩
  | unready e he =>
    refine List.IsPrefix.trans ?_ (hinit _)
    rcases he with rfl | rfl
    · exact (did_grows _ _).trans (did_grows _ _)
    · exact ((did_grows _ _).trans (did_grows _ _)).trans (did_grows _ _)
  | init => exact hinit c
  | block => exact hinit c
  | turnOff _ => exact turnOffMfEngine_grows cx c
  | arm slot ms _ => exact tuned_grows c (.armTimer env slot ms _ c)
  | callDown ms _ => exact tuned_grows c (.addTimer env ms _ c)
  | dialDtmf ms _ _ => exact tuned_grows (c.setR2State .seizeAckRxd) (.armTimer env _ ms _ _)
  | dialMf m _ _ _ _ =>
    exact ((did_grows c (.mfWriteInit c.mfWriteHandle true)).trans
      (did_grows (c.did (.mfWriteInit c.mfWriteHandle true)) (.mfReadInit c.mfReadHandle false))).trans
      ⟨[.readDnis c.dnisIndex], rfl⟩
  | place ani dnis category r _ _ =>
    have hp := tuned_grows (c.setR2State .seizeTxd)
      (.armTimer env .r2Seize cx.timers.r2Seize .seizeTimeoutExpired (c.setR2State .seizeTxd))
    unfold R2Chan.place
    generalize armTimer env .r2Seize cx.timers.r2Seize .seizeTimeoutExpired (c.setR2State .seizeTxd) = e at hp
    exact hp.trans (setCallState_grows .dialing e)
  | receiveMf w r _ _ _ =>
    exact (did_grows c (.mfWriteInit c.mfWriteHandle false)).trans
      ⟨[.mfReadInit c.mfReadHandle true, .callState .collecting], (List.append_assoc _ [_] [_]).symm⟩
  | receiveDtmf _ _ => exact setCallState_grows .collecting c
  | accept _ =>
    have ht := turnOffMfEngine_grows cx c
    generalize turnOffMfEngine cx c = e at ht
    exact ht.trans (setCallState_grows .accepted e)
  | dialled _ _ => exact (turnOffMfEngine_grows cx c).trans (did_grows _ _)
  | answer a _ _ _ =>
    have hs := setCasSignal_grows cx env c .answer
    generalize (setCasSignal cx env .answer c).1 = e at hs
    exact hs.trans (setCallState_grows .answered e)
  | answered _ =>
    have ht := turnOffMfEngine_grows cx (((c.cancelTimer .r2Answer).setR2State .answerRxd).setCallState .answered)
    rw [callAnswered_eq]
    generalize turnOffMfEngine cx _ = e at ht
    exact ((setCallState_grows .answered c).trans ht).trans (did_grows e _)
  | offer _ _ => exact (setCallState_grows .offered c).trans (did_grows (c.setCallState .offered) _)
  | answeredDtmf _ _ _ =>
    exact (setCallState_grows .answered c).trans (did_grows (c.setCallState .answered) (.event .onCallAnswered))
  | report cause _ =>
    exact (setCallState_grows .disconnected c).trans (did_grows (c.setCallState .disconnected) _)
  | accepted | acceptTone | billing | select => exact List.prefix_append _ _
  | _ => exact List.prefix_refl _

theorem Atoms.grows (ha : Atoms cx env ok c d) : c.out <+: d.out := by
  induction ha with
  | refl => exact List.prefix_refl _
  | tail _ ha ih => exact ih.trans ha.grows

theorem handleCas_grows (cx : R2Context) (env : Env) (c : R2Chan) : c.out <+: (handleCas cx env c).out :=
  (handleCas_atoms cx env (fun _ _ => True) c (fun _ _ _ _ => trivial)
    fun _ _ _ => ⟨fun _ _ _ => trivial, fun _ _ _ => trivial⟩).grows

/-- A timer that takes the call down waits until it is called, or until everything is reset. -/
theorem Atom.comingDown (ha : Atom cx env ok c d) (hg : c.Grounded) (hk : c.timers.Kept) (h : c.ComingDown) :
    d.ComingDown ∨ .callState .idle ∈ d.out := by
  have hself : c.pending ⊆ c.pending := fun _ hx => hx
  have hidle : c.callState ≠ .idle := hg.moving (by rw [h.direction]; decide)
  have hback : c.direction ≠ .backward := by rw [h.direction]; decide
  have hrest : c.r2State ≠ .idle := fun hr => hidle (hg.rest hr)
  cases ha with
  | plain _ hp =>
    have ht : d.timers = c.timers := congrArg Frame.timers hp.1
    exact .inl (h.same (congrArg Frame.direction hp.1) (by rw [R2Chan.pending, R2Chan.pending, ht]; exact hself))
  | unready e _ => exact .inr (protoInit_idles cx _)
  | init => exact .inr (protoInit_idles cx c)
  | block => exact .inr (protoInit_idles cx c)
  | turnOff _ => exact .inl (h.turnOff hk cx)
  | expire id hn => exact .inl (h.expire hk hn)
  | drop op ho hb =>
    left
    cases op with
    | cancel slot => exact h.cancelTimer hk slot
    | cancelAll => exact absurd (hb rfl) hback
    | mark slot id => exact h.same rfl hself
    | _ => exact ho.elim
  | arm slot ms _ =>
    exact .inl (h.same (R2Chan.Tuned.armTimer env slot ms slot.purpose c).direction
      (armTimer_subset env slot ms slot.purpose c))
  | callDown ms _ =>
    exact .inl (h.same (R2Chan.Tuned.addTimer env ms .r2SetCallDown c).direction (addTimer_subset env ms _ c))
  | dialDtmf ms _ _ =>
    exact .inl (h.same (R2Chan.Tuned.armTimer env .dtmfStartDial ms .startDialingDtmf
      (c.setR2State .seizeAckRxd)).direction (armTimer_subset env _ ms _ (c.setR2State .seizeAckRxd)))
  | place _ _ _ _ hc _ => exact absurd hc hidle
  | receiveMf _ _ hr _ _ => exact absurd hr hrest
  | receiveDtmf hr _ => exact absurd hr hrest
  | accept hd => exact absurd hd hback
  | dialled _ _ =>
    have ht := h.turnOff hk cx
    generalize turnOffMfEngine cx c = e at ht
    exact .inl (ht.same rfl fun _ hx => hx)
  | answer a _ _ _ =>
    have hf := setCasSignal_frame cx env c .answer
    generalize (setCasSignal cx env .answer c).1 = e at hf
    have ht : e.timers = c.timers := congrArg Frame.timers hf
    refine .inl (h.same (congrArg Frame.direction hf) ?_)
    change c.timers.pending ⊆ e.timers.pending
    rw [ht]
    exact hself
  | answered _ =>
    have hx := h.cancelTimer hk .r2Answer
    have ht := R2Chan.ComingDown.turnOff (c := ((c.cancelTimer .r2Answer).setR2State .answerRxd).setCallState
      .answered) (hx.same rfl fun _ hx => hx) (hk.cancelTimer .r2Answer) cx
    rw [callAnswered_eq]
    generalize turnOffMfEngine cx _ = e at ht
    exact .inl (ht.same rfl fun _ hx => hx)
  | answeredDtmf _ _ _ => exact .inl ((h.cancelTimer hk .r2Answer).same rfl fun _ hx => hx)
  | _ => exact .inl (h.same rfl hself)

theorem Atoms.comingDown (ha : Atoms cx env ok c d) (hg : c.Grounded) (hk : c.timers.Kept) (h : c.ComingDown) :
    d.ComingDown ∨ .callState .idle ∈ d.out := by
  induction ha with
  | refl => exact .inl h
  | tail hs ha ih =>
    rcases ih with ih | ih
    · exact ha.comingDown (Atoms.grounded hs hg) (Atoms.kept hs hk) ih
    · exact .inr (ha.grows.subset ih)

/-- Every operation keeps quiet before the acknowledgement. -/
theorem Atom.hushed (ha : Atom cx env ok c d) (hg : c.Grounded) (h : c.Hushed) : d.Hushed := by
  have hsame : ∀ {e : R2Chan}, e.callState = c.callState → e.r2State = c.r2State → e.mfGroup = c.mfGroup →
      e.Hushed := by
    intro e hs hr hm
    unfold R2Chan.Hushed R2Chan.Early
    rw [hs, hr, hm]
    exact h
  have hlate : ∀ {e : R2Chan}, e.callState ≠ .idle → ¬ e.r2State.Undialled → e.Hushed :=
    fun hs hr hx => absurd hx (not_or.mpr ⟨hs, hr⟩)
  have hreset : ∀ e : R2Chan, (protoInit cx e).mfGroup = .noGroup := by
    intro e
    obtain ⟨⟨rx, r, w, x, y, hf⟩, -⟩ := protoInit_reset cx e
    rw [hf]
  have hoff : (turnOffMfEngine cx c).Hushed := by
    obtain ⟨⟨r, w, x, y, q, hf⟩, -⟩ := turnOffMfEngine_turnedOff cx c
    rw [hf]
    exact hsame rfl rfl rfl
  cases ha with
  | plain _ hp =>
    exact hsame (congrArg Frame.callState hp.1) (congrArg Frame.r2State hp.1) (congrArg Frame.mfGroup hp.1)
  | unready e _ => exact fun _ hx => by rw [hreset] at hx; exact hx
  | init => exact fun _ hx => by rw [hreset] at hx; exact hx
  | block =>
    intro _ hx
    change (protoInit cx c).mfGroup.Dials at hx
    rw [hreset] at hx
    exact hx
  | turnOff _ => exact hoff
  | arm slot ms _ =>
    obtain ⟨q, w, hf⟩ := (R2Chan.Tuned.armTimer env slot ms slot.purpose c).frame
    exact hsame (by rw [hf]) (by rw [hf]) (by rw [hf])
  | callDown ms _ =>
    obtain ⟨q, w, hf⟩ := (R2Chan.Tuned.addTimer env ms .r2SetCallDown c).frame
    exact hsame (by rw [hf]) (by rw [hf]) (by rw [hf])
  | hop r hr =>
    rintro (hx | hx)
    · exact h (.inl hx)
    · refine h (.inr ?_)
      cases hr with
      | glare hr => rcases hr with hr | hr <;> rw [hr] <;> trivial
      | holdSeize hr => rw [hr]; trivial
      | holdGlare hr => rw [hr]; trivial
      | release r _ hr => rcases hr with rfl | rfl <;> exact hx.elim
      | _ => exact hx.elim
  | group g hd => exact fun hx hx' => h hx (hd hx')
  | dialMf m _ hr _ _ => exact hlate (hg.busy (by rw [hr]; decide)) id
  | dialDtmf ms hr _ =>
    have hb : c.callState ≠ .idle := hg.busy (by rw [hr]; decide)
    obtain ⟨q, w, hf⟩ := (R2Chan.Tuned.armTimer env .dtmfStartDial ms .startDialingDtmf
      (c.setR2State .seizeAckRxd)).frame
    exact hlate (by rw [hf]; exact hb) (by rw [hf]; exact id)
  | place ani dnis category r hc _ =>
    obtain ⟨q, w, hf⟩ := (R2Chan.Tuned.armTimer env .r2Seize cx.timers.r2Seize .seizeTimeoutExpired
      (c.setR2State .seizeTxd)).frame
    have hm : (armTimer env .r2Seize cx.timers.r2Seize .seizeTimeoutExpired (c.setR2State .seizeTxd)).mfGroup =
        c.mfGroup := by rw [hf]; rfl
    intro _
    unfold R2Chan.place
    generalize armTimer env .r2Seize cx.timers.r2Seize .seizeTimeoutExpired (c.setR2State .seizeTxd) = e at hm
    change ¬ e.mfGroup.Dials
    rw [hm]
    exact h (.inl hc)
  | receiveMf _ _ _ _ _ => exact hlate (by rintro ⟨⟩) id
  | receiveDtmf _ _ => exact hlate (by rintro ⟨⟩) id
  | offer _ _ => exact fun hx => h (.inr (hx.resolve_left (by rintro ⟨⟩)))
  | accept _ =>
    generalize turnOffMfEngine cx c = e at hoff
    exact fun hx => hoff (.inr (hx.resolve_left (by rintro ⟨⟩)))
  | acceptTone _ hd _ _ => exact hlate (hg.moving (by rw [hd]; decide)) id
  | dialled _ _ => exact hoff
  | answer _ _ _ _ => exact hlate (by rintro ⟨⟩) id
  | answered _ =>
    obtain ⟨-, hs, hr, -⟩ := callAnswered_frame cx c
    exact hlate (by rw [hs]; decide) (by rw [hr]; exact id)
  | answeredDtmf _ _ _ => exact hlate (by rintro ⟨⟩) id
  | billing hr _ => exact hlate (hg.busy (by rcases hr with hr | hr <;> rw [hr] <;> decide)) id
  | report _ _ => exact fun hx => h (.inr (hx.resolve_left (by rintro ⟨⟩)))
  | _ => exact hsame rfl rfl rfl

theorem Atoms.hushed (ha : Atoms cx env ok c d) (hg : c.Grounded) (h : c.Hushed) : d.Hushed := by
  induction ha with
  | refl => exact h
  | tail hs ha ih => exact ha.hushed (Atoms.grounded hs hg) ih

end Operations

section Runs

variable {cx : R2Context} {c : R2Chan}

/-- What is known of a channel in MFC mode, whatever the callbacks do. -/
structure R2Chan.Regular (c : R2Chan) : Prop where
  grounded : c.Grounded
  hushed : c.Hushed
  sided : c.Sided
  kept : c.timers.Kept

theorem started_regular (h : Started cx c) : c.Regular := by
  obtain ⟨hg, hk⟩ := started_grounded_kept h
  refine ⟨hg, fun _ => ?_, started_sided h, hk⟩
  have hreset : ∀ b, (protoInit cx b).mfGroup = .noGroup := by
    intro b
    obtain ⟨⟨rx, r, w, x, y, hf⟩, -⟩ := protoInit_reset cx b
    rw [hf]
  cases h with
  | idle env b =>
    rw [show (setIdle cx env b).1.mfGroup = .noGroup from hreset b]
    exact id
  | blocked env b =>
    rw [show (setBlocked cx env b).1.mfGroup = .noGroup from hreset b]
    exact id

theorem R2Chan.Regular.start (h : c.Regular) : c.start.Regular :=
  ⟨h.grounded.start, h.hushed, h.sided.same rfl rfl rfl fun _ hx => hx, h.kept⟩

/-- In MFC mode the user answers in turn, there is no other way. -/
theorem tick_atoms_inTurn (hm : cx.Mfc) (h : c.Grounded) (t : Tick) :
    Atoms cx t.env (answersInTurn cx) c.start (tick cx c t).1 := by
  have hu : ¬ cx.UsesDtmf := by simp [R2Context.UsesDtmf, hm.dial, hm.detect]
  exact step_atoms (fun _ _ _ _ hx => absurd hx hu) (fun _ _ hx => absurd hx hu)
    (fun _ _ _ _ _ _ => ⟨fun _ _ _ => trivial, fun _ _ _ => trivial⟩) (fun _ _ => trivial) h.live h.trusts

theorem tick_regular (hm : cx.Mfc) (h : c.Regular) (t : Tick) : (tick cx c t).1.Regular := by
  have ha := tick_atoms_inTurn hm h.grounded t
  exact ⟨ha.grounded h.start.grounded, ha.hushed h.start.grounded h.start.hushed, ha.sided h.start.sided,
    ha.kept h.kept⟩

/-- As long as the call is not over the timer that takes it down waits. -/
theorem tick_comingDown (h : c.Grounded) (hk : c.timers.Kept) (hd : c.ComingDown) (t : Tick) :
    (tick cx c t).1.ComingDown ∨ .callState .idle ∈ (tick cx c t).2 :=
  (tick_atoms h t).comingDown h.start hk ⟨hd.direction, hd.pending⟩

end Runs

end OpenR2
