import OpenR2.Stage
import OpenR2.Proofs.RegisterTurns

namespace OpenR2

/-- The acts with which a number is collected and the call is offered. -/
def Act.Collecting : Act → Prop
  | .event (.onCallOffered ..) | .event (.onDnisDigitReceived _) | .event (.onAniDigitReceived _)
  | .storeAni .. | .storeDnis .. => True
  | _ => False

theorem Act.Aside.not_collecting {a : Act} (h : a.Aside) : ¬ a.Collecting := by
  cases a with
  | event e => cases e <;> first | exact id | exact h.elim
  | storeAni => exact h.elim
  | storeDnis => exact h.elim
  | _ => exact id

/-- The call is given up on the way, and no other has come in. -/
structure R2Chan.Dropped (c d : R2Chan) : Prop where
  direction : d.direction ≠ .backward
  callState : d.callState ≠ .collecting
  out : ∃ as, d.out = c.out ++ as ∧ .callState .idle ∈ as ∧ ∀ a ∈ as, ¬ a.Collecting

/-- Nothing is collected or offered, and no call comes in. -/
structure R2Chan.Quietly (c d : R2Chan) : Prop where
  direction : d.direction = .backward → c.direction = .backward
  callState : d.callState = .collecting → c.callState = .collecting
  out : ∃ as, d.out = c.out ++ as ∧ ∀ a ∈ as, ¬ a.Collecting

namespace R2Chan

/-- No call of the other direction can start. -/
structure Engaged (c : R2Chan) : Prop where
  call : c.callState ≠ .idle
  line : c.r2State.Onward

variable {c d e : R2Chan}

theorem Aside.engaged (h : c.Aside d) (hc : c.Engaged) : d.Engaged := by
  constructor
  · rcases h.callState with hs | hs | hs
    · rw [hs]
      exact hc.call
    · simp [hs]
    · simp [hs]
  · rcases h.r2State with hr | hr | ⟨hr, -⟩
    · rw [hr]
      exact hc.line
    · exact hr
    · exact absurd hr hc.line.2.1

theorem Quietly.refl (c : R2Chan) : c.Quietly c := ⟨id, id, [], (List.append_nil _).symm, by simp⟩

theorem Quietly.trans (h : c.Quietly d) (h' : d.Quietly e) : c.Quietly e := by
  obtain ⟨hd, hc, as, ho, ha⟩ := h
  obtain ⟨hd', hc', bs, ho', hb⟩ := h'
  refine ⟨fun hx => hd (hd' hx), fun hx => hc (hc' hx), as ++ bs, by rw [ho', ho, List.append_assoc], fun a hm => ?_⟩
  exact (List.mem_append.mp hm).elim (ha a) (hb a)

theorem Quietly.isOver (h : c.Quietly d) (h' : d.Dropped e) : c.Dropped e := by
  obtain ⟨-, -, as, ho, ha⟩ := h
  obtain ⟨hd, hc, bs, ho', hi, hb⟩ := h'
  refine ⟨hd, hc, as ++ bs, by rw [ho', ho, List.append_assoc], List.mem_append_right _ hi, fun a hm => ?_⟩
  exact (List.mem_append.mp hm).elim (ha a) (hb a)

theorem Dropped.quietly (h : c.Dropped d) : c.Quietly d := by
  obtain ⟨hd, hc, as, ho, -, ha⟩ := h
  exact ⟨fun hx => absurd hx hd, fun hx => absurd hx hc, as, ho, ha⟩

theorem Dropped.trans (h : c.Dropped d) (h' : d.Quietly e) : c.Dropped e := by
  obtain ⟨hd, hc, as, ho, hi, ha⟩ := h
  obtain ⟨hd', hc', bs, ho', hb⟩ := h'
  refine ⟨fun hx => hd (hd' hx), fun hx => hc (hc' hx), as ++ bs, by rw [ho', ho, List.append_assoc],
    List.mem_append_left _ hi, fun a hm => ?_⟩
  exact (List.mem_append.mp hm).elim (ha a) (hb a)

/-- Within one call, nothing is collected or offered. -/
structure Passes (c d : R2Chan) : Prop where
  direction : d.direction = c.direction
  callState : d.callState = .collecting → c.callState = .collecting
  out : ∃ as, d.out = c.out ++ as ∧ ∀ a ∈ as, ¬ a.Collecting ∧ a ≠ .callState .idle

theorem Passes.quietly (h : c.Passes d) : c.Quietly d := by
  obtain ⟨as, ho, ha⟩ := h.out
  exact ⟨fun hx => h.direction ▸ hx, h.callState, as, ho, fun a hm => (ha a hm).1⟩

theorem Passes.trans (h : c.Passes d) (h' : d.Passes e) : c.Passes e := by
  obtain ⟨as, ho, ha⟩ := h.out
  obtain ⟨bs, ho', hb⟩ := h'.out
  refine ⟨h'.direction.trans h.direction, fun hx => h.callState (h'.callState hx), as ++ bs,
    by rw [ho', ho, List.append_assoc], fun a hm => ?_⟩
  exact (List.mem_append.mp hm).elim (ha a) (hb a)

/-- A change of the other fields. -/
theorem Passes.quiet (hd : d.direction = c.direction) (hc : d.callState = c.callState)
    (ho : d.out = c.out) : c.Passes d :=
  ⟨hd, fun hx => hc ▸ hx, [], by rw [ho, List.append_nil], by simp⟩

theorem Aside.passes (h : c.Aside d) : c.Passes d := by
  obtain ⟨as, ho, ha, -⟩ := h.out
  refine ⟨h.direction, fun hx => ?_, as, ho, fun a hm => ⟨(ha a hm).not_collecting, ?_⟩⟩
  · rcases h.callState with hs | hs | hs
    · rwa [← hs]
    · exact absurd (hs.symm.trans hx) (by decide)
    · exact absurd (hs.symm.trans hx) (by decide)
  · rintro rfl
    exact (ha _ hm).elim nofun nofun

theorem Aside.quietly (h : c.Aside d) : c.Quietly d := h.passes.quietly

theorem Reset.isOver (h : c.Reset d) : c.Dropped d := by
  obtain ⟨⟨rx, r, w, x, y, hf⟩, as, ho, ha⟩ := h
  refine ⟨?_, ?_, as ++ [.callState .idle], by rw [ho, List.append_assoc], by simp, fun a hm => ?_⟩
  · generalize d.out = o at hf
    rw [hf]
    exact nofun
  · generalize d.out = o at hf
    rw [hf]
    exact nofun
  · rcases List.mem_append.mp hm with hm | hm
    · exact (ha a hm).aside.not_collecting
    · rw [List.mem_singleton.mp hm]
      exact id

theorem Sends.quietly (h : c.Sends d) : c.Quietly d := by
  obtain ⟨as, ho, ha⟩ := h.out
  refine ⟨fun hx => h.direction ▸ hx, fun hx => h.callState ▸ hx, as, ho, fun a hm => ?_⟩
  rcases ha a hm with hx | ⟨i, rfl⟩ | ⟨i, rfl⟩ | ⟨m, rfl⟩
  · exact hx.not_collecting
  all_goals exact id

end R2Chan

theorem handleProtocolError_drops (cx : R2Context) (env : Env) (c : R2Chan) (reason : ProtocolError) :
    c.Dropped (handleProtocolError cx env reason c) := by
  obtain ⟨as, ho, ha⟩ := handleProtocolError_out cx c env reason
  refine ⟨?_, ?_, as ++ [.callState .idle, .setCas (cx.casSignals .idle ||| cx.casNonr2Bits),
    .event (.onProtocolError reason)], by rw [ho, List.append_assoc], by simp, fun a hm => ?_⟩
  · rw [(handleProtocolError_atRest cx c env reason).direction]
    decide
  · rw [(handleProtocolError_atRest cx c env reason).callState]
    decide
  rcases List.mem_append.mp hm with hm | hm
  · have hc := ha a hm
    cases a <;> first | exact id | exact hc.elim
  · simp only [List.mem_cons, List.not_mem_nil, or_false] at hm
    rcases hm with rfl | rfl | rfl <;> exact id

section Quietly

variable {cx : R2Context} {env : Env} {ways : Direction → Prop} {c d : R2Chan}

/-- Only the backward side's register signalling collects a number. -/
theorem Turn.quietly (hs : ¬ ways .stopped) (hb : ¬ ways .backward) (h : Turn cx env ways c d) :
    c.Quietly d := by
  cases h with
  | aside _ h => exact h.quietly
  | reset _ h => exact h.isOver.quietly
  | seize _ hw => exact absurd hw hs
  | place _ h =>
    exact ⟨fun hx => absurd (h.direction.symm.trans hx) (by decide),
      fun hx => absurd (h.callState.symm.trans hx) (by decide), _, h.out, by simp [Act.Collecting]⟩
  | dial =>
    have hm : c.Quietly ((c.setR2State .seizeAckRxd).setMfGroup .gi) :=
      ⟨id, id, [], (List.append_nil _).symm, by simp⟩
    refine hm.trans ?_
    rcases mfSendDnis_answers cx env ((c.setR2State .seizeAckRxd).setMfGroup .gi) 0 with h | ⟨e, r, h, he⟩
    · exact h.quietly
    · rw [he]
      exact h.quietly.trans (handleProtocolError_drops cx env e r).quietly
  | send _ _ h => exact h.quietly
  | collect _ hw => exact absurd hw hb

theorem Turns.quietly (hs : ¬ ways .stopped) (hb : ¬ ways .backward) (h : Turns cx env ways c d) :
    c.Quietly d := by
  induction h with
  | refl => exact .refl c
  | tail _ h ih => exact ih.trans (h.quietly hs hb)

/-- In a call of this side, what the other side and the user do leaves its numbers alone,
or ends it. -/
theorem Turns.within (hc : c.Engaged) (h : Turns cx env (fun _ => False) c d) :
    c.Aside d ∨ c.Dropped d := by
  induction h with
  | refl => exact .inl (.refl c)
  | tail _ h ih =>
    rcases ih with ih | ih
    · have he := ih.engaged hc
      cases h with
      | aside _ h => exact .inl (ih.trans h)
      | reset _ h => exact .inr (ih.quietly.isOver h.isOver)
      | seize _ hw => exact hw.elim
      | place _ h => exact absurd h.idle he.call
      | dial h => exact absurd h he.line.2.1
      | send _ hw => exact hw.elim
      | collect _ hw => exact hw.elim
    · exact .inr (ih.trans (h.quietly id id))

end Quietly

/-- The act is the offer of the call. -/
def Stage.Offer (cx : R2Context) (s : Stage) (a : Act) : Prop :=
  ∃ ani dnis r, a = .event (.onCallOffered ani dnis (tone2category cx s.category) r)

/-- The register signalling comes to this stage, and there the call may be offered; or the
call is over. -/
inductive GoesTo (cx : R2Context) (s : Stage) (c d : R2Chan) : Prop
  | there (as : List Act) (out : d.out = c.out ++ as) (direction : d.direction = c.direction)
      (stage : d.stage = s) (callState : d.callState = .collecting → c.callState = .collecting)
      (live : .callState .idle ∉ as)
      (offers : ∀ a ∈ as, a.Collecting →
        c.callState = .collecting ∧ (s.asked = .acceptedTxd ∨ s.asked = .chgGiiTxd) ∧ s.Offer cx a)
  | isOver (h : c.Dropped d)

section Goes

variable {cx : R2Context} {s : Stage} {c d e : R2Chan}

/-- After the end of a call nothing is offered any more. -/
theorem GoesTo.quietly (hc : c.callState ≠ .collecting) (h : GoesTo cx s c d) : c.Quietly d := by
  cases h with
  | there as out direction _ callState _ offers =>
    exact ⟨fun hx => direction ▸ hx, callState, as, out, fun a hm ha => hc (offers a hm ha).1⟩
  | isOver h => exact h.quietly

theorem GoesTo.after (h : c.Passes d) (h' : GoesTo cx s d e) : GoesTo cx s c e := by
  cases h' with
  | there bs out direction stage callState live offers =>
    obtain ⟨as, ho, ha⟩ := h.out
    refine .there (as ++ bs) (by rw [out, ho, List.append_assoc]) (direction.trans h.direction) stage
      (fun hx => h.callState (callState hx)) (fun hm => ?_) fun a hm hx => ?_
    · exact (List.mem_append.mp hm).elim (fun hm => (ha _ hm).2 rfl) live
    · rcases List.mem_append.mp hm with hm | hm
      · exact absurd hx (ha a hm).1
      · exact ⟨h.callState (offers a hm hx).1, (offers a hm hx).2⟩
  | isOver h' => exact .isOver (h.quietly.isOver h')

end Goes

section Requests

variable (cx : R2Context) (env : Env) (c : R2Chan)

/-- What leaves the stage as it is, and offers nothing. -/
structure R2Chan.Stays (c d : R2Chan) : Prop extends c.Passes d where
  stage : d.stage = c.stage

theorem R2Chan.Tuned.stays {c d : R2Chan} (h : c.Tuned d) : c.Stays d := by
  obtain ⟨⟨q, w, hf⟩, as, ho, ha⟩ := h
  generalize d.out = o at hf ho
  subst hf
  refine ⟨⟨rfl, id, as, ho, fun a hm => ?_⟩, rfl⟩
  refine ⟨(Act.Tuning.aside (ha a hm)).not_collecting, ?_⟩
  rintro rfl
  exact ha _ hm

theorem prepareMfTone_stays (tone : Tone) :
    c.Stays (prepareMfTone cx env tone c) ∨ c.Dropped (prepareMfTone cx env tone c) := by
  rcases prepareMfTone_cases cx env tone c with ⟨-, ht⟩ | ⟨-, d, ht, he⟩
  · exact .inl ht.stays
  · rw [he]
    exact .inr (ht.stays.quietly.isOver (handleProtocolError_drops cx env d _))

theorem prepareMfTone_goesTo (tone : Tone) :
    GoesTo cx c.stage c (prepareMfTone cx env tone c) := by
  rcases prepareMfTone_stays cx env c tone with ⟨⟨hd, hc, as, ho, ha⟩, hs⟩ | h
  · exact .there as ho hd hs hc (fun hm => (ha _ hm).2 rfl) fun a hm hx => absurd hx (ha a hm).1
  · exact .isOver h

/-- The tone of a request, which goes with a state and a group. -/
theorem request_goesTo (g : MfGroup) (m : MfState) (tone : Tone) :
    GoesTo cx { c.stage with asked := m, group := g } c
      (prepareMfTone cx env tone ((c.setMfGroup g).setMfState m)) := by
  have hm : c.Passes ((c.setMfGroup g).setMfState m) := .quiet rfl rfl rfl
  have hs : ((c.setMfGroup g).setMfState m).stage = { c.stage with asked := m, group := g } := rfl
  rw [← hs]
  exact .after hm (prepareMfTone_goesTo cx env _ tone)

theorem requestCallingPartyCategory_goesTo :
    GoesTo cx (c.stage.askCategory cx) c (requestCallingPartyCategory cx env c) :=
  request_goesTo cx env c _ .categoryRqTxd _

theorem requestChangeToG2_goesTo :
    GoesTo cx c.stage.askGroupTwo c (requestChangeToG2 cx env c) :=
  request_goesTo cx env c .gb .chgGiiTxd _

theorem requestNextDnisDigit_goesTo :
    GoesTo cx c.stage.askDnis c (requestNextDnisDigit cx env c) :=
  request_goesTo cx env c .ga .dnisRqTxd _

theorem requestNextAniDigit_goesTo :
    GoesTo cx c.stage.askAni c (requestNextAniDigit cx env c) :=
  request_goesTo cx env c c.mfGroup .aniRqTxd _

theorem offerCall_quietly (hc : c.callState ≠ .collecting) : c.Quietly (offerCall cx env c) := by
  simp only [offerCall, if_pos hc]
  exact (handleProtocolError_drops cx env c _).quietly

theorem offerCall_goesTo (h : c.mfState = .acceptedTxd ∨ c.mfState = .chgGiiTxd) :
    GoesTo cx c.stage c (offerCall cx env c) := by
  by_cases hc : c.callState = .collecting
  · simp only [offerCall, hc, ne_eq, not_true_eq_false, if_false]
    refine .there [.callState .offered, .event (.onCallOffered (cstr c.ani) (cstr c.dnis)
      (tone2category cx c.callerCategory) c.callerAniIsRestricted)] ?_ rfl rfl (by rintro ⟨⟩) (by simp)
        fun a hm hx => ?_
    · exact List.append_assoc _ _ _
    · simp only [List.mem_cons, List.not_mem_nil, or_false] at hm
      rcases hm with rfl | rfl
      · exact hx.elim
      · exact ⟨hc, h, _, _, _, rfl⟩
  · simp only [offerCall, if_pos hc]
    exact .isOver (handleProtocolError_drops cx env c _)

theorem bypassChangeToG2_goesTo :
    GoesTo cx { c.stage with asked := .acceptedTxd } c (bypassChangeToG2 cx env c) := by
  have hm : c.Passes (c.setMfState .acceptedTxd) := .quiet rfl rfl rfl
  simp only [bypassChangeToG2]
  rcases prepareMfTone_stays cx env (c.setMfState .acceptedTxd)
    cx.gaTones.addressCompleteChargeSetup with ⟨h, hs⟩ | h
  · generalize prepareMfTone cx env cx.gaTones.addressCompleteChargeSetup
      (c.setMfState .acceptedTxd) = d at *
    have ha : d.mfState = .acceptedTxd := congrArg Stage.asked hs
    have hg := GoesTo.after (hm.trans h) (offerCall_goesTo cx env d (.inl ha))
    rwa [hs] at hg
  · have ho := hm.quietly.isOver h
    exact .isOver (ho.trans (offerCall_quietly cx env _ ho.callState))

theorem tryChangeToG2_goesTo : GoesTo cx (c.stage.finish cx) c (tryChangeToG2 cx env c) := by
  simp only [tryChangeToG2, Stage.finish]
  split_ifs
  · exact bypassChangeToG2_goesTo cx env c
  · exact requestChangeToG2_goesTo cx env c

theorem tryRequestCallingPartyCategory_goesTo :
    GoesTo cx (c.stage.askWho cx) c (tryRequestCallingPartyCategory cx env c) := by
  simp only [tryRequestCallingPartyCategory, Stage.askWho]
  split_ifs
  · exact tryChangeToG2_goesTo cx env c
  · exact requestCallingPartyCategory_goesTo cx env c

theorem afterDnisDigit_goesTo (rc : Bool) :
    GoesTo cx (c.stage.dnisTaken cx rc) c (afterDnisDigit cx env rc c) := by
  have hc : c.stage.Complete cx ↔ dnisComplete cx c := Iff.rfl
  have hl : c.stage.dnisLen = c.dnisLen := rfl
  simp only [afterDnisDigit, Stage.dnisTaken, hc, hl]
  split_ifs
  · exact tryRequestCallingPartyCategory_goesTo cx env c
  · exact tryChangeToG2_goesTo cx env c
  · exact tryRequestCallingPartyCategory_goesTo cx env c
  · exact requestNextDnisDigit_goesTo cx env c

theorem doneGettingAni_goesTo : GoesTo cx (c.stage.aniDone cx) c (doneGettingAni cx env c) := by
  have hc : c.stage.Complete cx ↔ dnisComplete cx c := Iff.rfl
  simp only [doneGettingAni, Stage.aniDone, hc]
  split_ifs
  · exact tryChangeToG2_goesTo cx env c
  · exact requestNextDnisDigit_goesTo cx env c

/-- A silence that is the end of the number, in a backward request. -/
theorem mfBackCycleTimeoutExpired_goesTo :
    c.Dropped (mfBackCycleTimeoutExpired cx env c) ∨
      cx.g1Tones.noMoreDnisAvailable = Tone.invalid ∧ c.mfGroup = .ga ∧
        (c.mfState = .dnisRqTxd ∨ c.mfState = .aniRqTxd) ∧
        GoesTo cx (c.stage.timeOut cx) c (mfBackCycleTimeoutExpired cx env c) := by
  have ha := (R2Chan.Tuned.armTimer env .mfBackResumeCycle cx.timers.mfBackResumeCycle
    .mfBackResumeCycle c).stays
  simp only [mfBackCycleTimeoutExpired]
  generalize armTimer env .mfBackResumeCycle cx.timers.mfBackResumeCycle .mfBackResumeCycle c = d at ha ⊢
  split_ifs with hx hn
  · refine .inr ⟨hx.1, hx.2.1, hx.2.2, .after ha.toPasses ?_⟩
    rw [Stage.timeOut, if_pos hn, ← ha.stage]
    exact tryRequestCallingPartyCategory_goesTo cx env d
  · refine .inr ⟨hx.1, hx.2.1, hx.2.2, .after ha.toPasses ?_⟩
    rw [Stage.timeOut, if_neg hn, ← ha.stage]
    exact tryChangeToG2_goesTo cx env d
  · exact .inl (handleProtocolError_drops cx env c _)

end Requests

section Hears

variable (cx : R2Context) (env : Env) (c : R2Chan)

/-- What is asked next does not depend on what was asked before. -/
theorem Stage.dnisTaken_asked (more : Bool) (s : Stage) (m : MfState) :
    ({ s with asked := m } : Stage).dnisTaken cx more = s.dnisTaken cx more := rfl

theorem R2Chan.Aside.stage {c d : R2Chan} (h : c.Aside d) :
    d.stage = { c.stage with asked := d.mfState } := by
  have hn : ∀ {α : Type} (f : Numbers → α), f d.numbers = f c.numbers := fun f => congrArg f h.numbers
  simp only [R2Chan.stage]
  rw [h.mfGroup, show d.dnisLen = c.dnisLen from hn Numbers.dnisLen,
    show d.aniLen = c.aniLen from hn Numbers.aniLen,
    show d.callerCategory = c.callerCategory from hn Numbers.callerCategory]

/-- The user hears of a digit and may do something about the call, and then the code goes
on in a way for which it does not matter what was asked. -/
theorem callback_goesTo {f : R2Chan → R2Chan} {g : Stage → Stage} (hc : c.Engaged) (e : Event)
    (hf : ∀ d : R2Chan, GoesTo cx (g d.stage) d (f d)) (hg : ∀ s m, g { s with asked := m } = g s) :
    GoesTo cx (g c.stage) (c.emit e) (f (callback cx env e c)) := by
  have hw : (c.emit e).Aside (callback cx env e c) ∨ (c.emit e).Dropped (callback cx env e c) :=
    Turns.within ⟨hc.call, hc.line⟩ (callback_turns cx env (fun _ => False) c e)
  generalize callback cx env e c = d at hw ⊢
  rcases hw with hw | hw
  · have hs := hf d
    rw [hw.stage, hg] at hs
    exact .after hw.passes hs
  · exact .isOver (hw.trans ((hf d).quietly hw.callState))

theorem mfReceiveExpectedDnis_digit (hc : c.Engaged) (tone : Tone) (ht : tone.isDigit = true) :
    let kept := c.out ++ if c.dnisLen = maxDnisBuffer - 1 then [] else [.storeDnis c.dnisLen tone]
    ∃ b : R2Chan, b.out = kept ++ [.event (.onDnisDigitReceived tone)] ∧ b.direction = c.direction ∧
      b.callState = c.callState ∧
      GoesTo cx (c.stage.addDnis.dnisTaken cx (env.onDnisDigitReceived kept)) b
        (mfReceiveExpectedDnis cx env tone c) := by
  intro kept
  let d := storeDnisDigit tone c
  obtain ⟨ho, hd, hs, hr, hst⟩ : d.out = kept ∧ d.direction = c.direction ∧
      d.callState = c.callState ∧ d.r2State = c.r2State ∧ d.stage = c.stage.addDnis := by
    simp only [d, kept, storeDnisDigit, Stage.addDnis, R2Chan.stage]
    split_ifs with h
    · simp [h]
    · simp [h, R2Chan.did]
  refine ⟨d.emit (.onDnisDigitReceived tone), by rw [← ho]; rfl, hd, hs, ?_⟩
  have he : d.Engaged := ⟨by rw [hs]; exact hc.call, by rw [hr]; exact hc.line⟩
  have hg := callback_goesTo cx env d he (.onDnisDigitReceived tone)
    (fun e => afterDnisDigit_goesTo cx env e (env.onDnisDigitReceived d.out))
    (fun s m => Stage.dnisTaken_asked cx _ s m)
  rw [hst] at hg
  simp only [mfReceiveExpectedDnis, if_pos ht]
  rw [← ho]
  exact hg

theorem mfReceiveExpectedAni_digit (hc : c.Engaged) (tone : Tone) (h0 : tone ≠ 0)
    (ht : tone.isDigit = true) :
    ∃ b : R2Chan, b.out = c.out ++ [.storeAni c.aniLen tone] ++ [.event (.onAniDigitReceived tone)] ∧
      b.direction = c.direction ∧ b.callState = c.callState ∧
      GoesTo cx (c.stage.hearAni cx tone) b (mfReceiveExpectedAni cx env tone c) := by
  let d := storeAniDigit tone c
  refine ⟨d.emit (.onAniDigitReceived tone), rfl, rfl, rfl, ?_⟩
  have he : d.Engaged := ⟨hc.call, hc.line⟩
  let f (e : R2Chan) : R2Chan :=
    if cx.forceUseMaxAni = false ∧ e.aniLen < uint32 cx.maxAni then requestNextAniDigit cx env e
    else doneGettingAni cx env e
  let g (s : Stage) : Stage :=
    if cx.forceUseMaxAni = false ∧ s.aniLen < uint32 cx.maxAni then s.askAni else s.aniDone cx
  have hf : ∀ e : R2Chan, GoesTo cx (g e.stage) e (f e) := by
    intro e
    have hl : e.stage.aniLen = e.aniLen := rfl
    simp only [f, g, hl]
    split_ifs
    · exact requestNextAniDigit_goesTo cx env e
    · exact doneGettingAni_goesTo cx env e
  have hg := callback_goesTo cx env d he (.onAniDigitReceived tone) hf (fun s m => rfl)
  have hs : c.stage.hearAni cx tone = g d.stage := if_pos ht
  have hm : mfReceiveExpectedAni cx env tone c = f (callback cx env (.onAniDigitReceived tone) d) := by
    simp only [mfReceiveExpectedAni, ht, h0, ne_eq, not_false_eq_true, false_or, if_true, or_true]
    rfl
  rw [hs, hm]
  exact hg

/-- The caller says that there are no more digits, or nothing that is expected. -/
theorem mfReceiveExpectedDnis_rest (tone : Tone) (ht : tone.isDigit = false) :
    c.Dropped (mfReceiveExpectedDnis cx env tone c) ∨ cx.g1Tones.noMoreDnisAvailable = tone ∧
      GoesTo cx (c.stage.noMoreDnis cx) c (mfReceiveExpectedDnis cx env tone c) := by
  have hl : c.stage.dnisLen = c.dnisLen := rfl
  simp only [mfReceiveExpectedDnis, Stage.noMoreDnis, hl, ht, Bool.false_eq_true, if_false]
  by_cases hn : cx.g1Tones.noMoreDnisAvailable = tone
  · refine .inr ⟨hn, ?_⟩
    rw [if_pos hn]
    split_ifs
    · exact tryRequestCallingPartyCategory_goesTo cx env c
    · exact tryChangeToG2_goesTo cx env c
  · rw [if_neg hn]
    exact .inl (handleProtocolError_drops cx env c _)

theorem mfReceiveExpectedAni_rest (tone : Tone) (h0 : tone ≠ 0) (ht : tone.isDigit = false) :
    c.Dropped (mfReceiveExpectedAni cx env tone c) ∨
      (tone = cx.g1Tones.noMoreAniAvailable ∨ tone = cx.g1Tones.callerAniIsRestricted) ∧
        GoesTo cx (c.stage.aniDone cx) c (mfReceiveExpectedAni cx env tone c) := by
  have hr : c.Passes c.restrictAni := .quiet rfl rfl rfl
  simp only [mfReceiveExpectedAni, ht, h0, Bool.false_eq_true, or_self, if_false]
  split_ifs with hn
  · exact .inr ⟨hn, .after hr (doneGettingAni_goesTo cx env c.restrictAni)⟩
  · exact .inr ⟨hn, doneGettingAni_goesTo cx env c⟩
  · exact .inl (handleProtocolError_drops cx env c _)

theorem receiveCategory_goesTo (tone : Tone) :
    GoesTo cx (c.stage.hearCategory cx tone) c (receiveCategory cx env tone c) := by
  let d := c.setCallerCategory tone
  have hd : c.Passes d := .quiet rfl rfl rfl
  refine .after hd ?_
  have hz : mfReceiveExpectedAni cx env 0 d = requestNextAniDigit cx env d := by
    simp [mfReceiveExpectedAni]
  simp only [receiveCategory, Stage.hearCategory]
  rw [show c.setCallerCategory tone = d from rfl, hz]
  have hg : d.mfGroup = c.stage.group := rfl
  simp only [hg]
  split_ifs
  · exact requestNextAniDigit_goesTo cx env d
  · exact tryChangeToG2_goesTo cx env d
  · exact requestChangeToG2_goesTo cx env d

/-- A tone is heard: a digit is kept and reported first. Then the register signalling
goes on to where the abstract model does, unless the call is over. -/
def Hears (tone : Tone) (c d : R2Chan) : Prop :=
  ∃ b : R2Chan, b.out = c.out ++ c.stage.reports cx tone ∧ b.direction = c.direction ∧
    b.callState = c.callState ∧
    (b.Dropped d ∨ c.stage.Understands cx tone ∧
      GoesTo cx (c.stage.hear cx (env.onDnisDigitReceived (c.out ++ c.stage.stores cx tone)) tone) b d)

variable {c} {tone : Tone}

theorem Hears.isOver {d : R2Chan} (hx : ¬ c.stage.ExpectsDnis cx) (hy : ¬ c.stage.ExpectsAni cx)
    (h : c.Dropped d) : Hears cx env tone c d := by
  refine ⟨c, ?_, rfl, rfl, .inl h⟩
  rw [Stage.reports, if_neg hx, if_neg hy, ite_self, List.append_nil]

theorem mfReceiveExpectedDnis_hears (hc : c.Engaged) (hx : c.stage.ExpectsDnis cx) :
    Hears cx env tone c (mfReceiveExpectedDnis cx env tone c) := by
  unfold Hears
  simp only [Stage.reports, Stage.stores, Stage.Understands, Stage.hear, Stage.hearDnis, if_pos hx]
  cases ht : tone.isDigit with
  | true =>
    obtain ⟨b, ho, hd, hs, hg⟩ := mfReceiveExpectedDnis_digit cx env c hc tone ht
    refine ⟨b, ?_, hd, hs, .inr ⟨.inl rfl, hg⟩⟩
    rw [ho, List.append_assoc]
    rfl
  | false =>
    refine ⟨c, (List.append_nil _).symm, rfl, rfl, ?_⟩
    exact (mfReceiveExpectedDnis_rest cx env c tone ht).imp_right fun h => ⟨.inr h.1, h.2⟩

theorem mfReceiveExpectedAni_hears (hc : c.Engaged) (h0 : tone ≠ 0) (hx : ¬ c.stage.ExpectsDnis cx)
    (hy : c.stage.ExpectsAni cx) : Hears cx env tone c (mfReceiveExpectedAni cx env tone c) := by
  unfold Hears
  simp only [Stage.reports, Stage.stores, Stage.Understands, Stage.hear, if_neg hx, if_pos hy]
  cases ht : tone.isDigit with
  | true =>
    obtain ⟨b, ho, hd, hs, hg⟩ := mfReceiveExpectedAni_digit cx env c hc tone h0 ht
    refine ⟨b, ?_, hd, hs, .inr ⟨.inl rfl, hg⟩⟩
    rw [ho, List.append_assoc]
    rfl
  | false =>
    refine ⟨c, (List.append_nil _).symm, rfl, rfl, ?_⟩
    refine (mfReceiveExpectedAni_rest cx env c tone h0 ht).imp_right fun h => ⟨.inr h.1, ?_⟩
    rw [Stage.hearAni, ht]
    exact h.2

theorem receiveCategory_hears (hx : ¬ c.stage.ExpectsDnis cx) (hy : ¬ c.stage.ExpectsAni cx)
    (hz : c.stage.ExpectsCategory) : Hears cx env tone c (receiveCategory cx env tone c) := by
  refine ⟨c, ?_, rfl, rfl, .inr ⟨?_, ?_⟩⟩
  · rw [Stage.reports, if_neg hx, if_neg hy, ite_self, List.append_nil]
  · rw [Stage.Understands, if_neg hx, if_neg hy]
    exact .inl hz
  · rw [Stage.hear, if_neg hx, if_neg hy, if_pos hz]
    exact receiveCategory_goesTo cx env c tone

theorem handleForwardMfTone_hears (hc : c.Engaged) (h0 : tone ≠ 0) :
    Hears cx env tone c (handleForwardMfTone cx env tone c) := by
  have hk : Hears cx env tone (c.cancelTimer .mfBackCycle) (handleForwardMfTone cx env tone c) := by
    have hc : (c.cancelTimer .mfBackCycle).Engaged := ⟨hc.call, hc.line⟩
    simp only [handleForwardMfTone]
    generalize c.cancelTimer .mfBackCycle = c at hc ⊢
    have hx : (c.mfGroup = .ga → c.mfState ≠ .dnisRqTxd) →
        (c.mfGroup = .backInit → c.mfState ≠ .seizeAckTxd) → ¬ c.stage.ExpectsDnis cx := by
      rintro h1 h2 (⟨hg, hm⟩ | ⟨hg, hm, -⟩)
      · exact h1 hg hm
      · exact h2 hg hm
    have hy : (c.mfGroup = .ga ∨ c.mfGroup = .gc → c.mfState ≠ .aniRqTxd) →
        (c.mfGroup = .backInit → c.mfState ≠ .seizeAckTxd) → ¬ c.stage.ExpectsAni cx := by
      rintro h1 h2 (⟨hg, hm⟩ | ⟨hg, hm, -⟩)
      · exact h1 hg hm
      · exact h2 hg hm
    split
    · rename_i hg hm
      split_ifs with hf
      · refine mfReceiveExpectedAni_hears cx env hc h0 (fun h => ?_) (.inr ⟨hg, hm, hf⟩)
        exact h.elim (fun h => by cases hm.symm.trans h.2) fun h => h.2.2 hf
      · exact mfReceiveExpectedDnis_hears cx env hc (.inr ⟨hg, hm, hf⟩)
    · exact mfReceiveExpectedDnis_hears cx env hc (.inl ⟨‹_›, ‹_›⟩)
    · rename_i hg hm
      exact receiveCategory_hears cx env (hx (by grind) (by grind)) (hy (by grind) (by grind)) ⟨.inl hg, hm⟩
    · rename_i hg hm
      exact receiveCategory_hears cx env (hx (by grind) (by grind)) (hy (by grind) (by grind)) ⟨.inr hg, hm⟩
    · rename_i hg hm
      exact mfReceiveExpectedAni_hears cx env hc h0 (hx (by grind) (by grind)) (.inl ⟨.inl hg, hm⟩)
    · rename_i hg hm
      exact mfReceiveExpectedAni_hears cx env hc h0 (hx (by grind) (by grind)) (.inl ⟨.inr hg, hm⟩)
    · rename_i hg hm
      have hx := hx (by grind) (by grind)
      have hy := hy (by grind) (by grind)
      refine ⟨c, ?_, rfl, rfl, .inr ⟨?_, ?_⟩⟩
      · rw [Stage.reports, if_neg hx, if_neg hy, ite_self, List.append_nil]
      · rw [Stage.Understands, if_neg hx, if_neg hy]
        exact .inr ⟨hg, hm⟩
      · have hz : ¬ c.stage.ExpectsCategory := fun h => by cases hm.symm.trans h.2
        rw [Stage.hear, if_neg hx, if_neg hy, if_neg hz]
        exact offerCall_goesTo cx env c (.inr hm)
    all_goals
      exact .isOver cx env (hx (by grind) (by grind)) (hy (by grind) (by grind))
        (handleProtocolError_drops cx env c _)
  exact hk

end Hears

theorem Stage.addDnis_dnisLen {s : Stage} (h : s.addDnis.dnisLen = 1) : s.dnisLen = 0 := by
  have hl : (if s.dnisLen = maxDnisBuffer - 1 then s.dnisLen else s.dnisLen + 1) = 1 := h
  split_ifs at hl with he
  · exact absurd (he.symm.trans hl) (by decide)
  · exact Nat.succ.inj hl

end OpenR2
