import OpenR2.Proofs.Turns

namespace OpenR2

namespace R2Chan.Sends

variable {c d e : R2Chan}

/-- A change of the other fields. -/
theorem quiet (hn : ∃ p i s, d.numbers = { c.numbers with aniPtr := p, dnisIndex := i, categorySent := s })
    (hd : d.direction = c.direction) (hc : d.callState = c.callState)
    (hm : d.mfState = c.mfState ∨ d.mfState.Forward) (hr : d.r2State = c.r2State)
    (ho : d.out = c.out) : c.Sends d := by
  obtain ⟨p, i, s, hn⟩ := hn
  have h : ∀ {α : Type} (f : Numbers → α), f d.numbers =
      f { c.numbers with aniPtr := p, dnisIndex := i, categorySent := s } := fun f => congrArg f hn
  exact ⟨h Numbers.ani, h Numbers.aniLen, h Numbers.dnis, h Numbers.dnisLen,
    h Numbers.callerAniIsRestricted, h Numbers.callerCategory, h Numbers.mfReadTone,
    h Numbers.mfThresholdTone, h Numbers.mfThresholdTime, hd, hc, hm, hr, [],
    by rw [ho, List.append_nil], by simp⟩

theorem refl (c : R2Chan) : c.Sends c := quiet ⟨_, _, _, rfl⟩ rfl rfl (.inl rfl) rfl rfl

theorem trans (h : c.Sends d) (h' : d.Sends e) : c.Sends e := by
  obtain ⟨as, ho, ha⟩ := h.out
  obtain ⟨bs, ho', hb⟩ := h'.out
  refine ⟨h'.ani.trans h.ani, h'.aniLen.trans h.aniLen, h'.dnis.trans h.dnis, h'.dnisLen.trans h.dnisLen,
    h'.callerAniIsRestricted.trans h.callerAniIsRestricted, h'.callerCategory.trans h.callerCategory,
    h'.mfReadTone.trans h.mfReadTone, h'.mfThresholdTone.trans h.mfThresholdTone,
    h'.mfThresholdTime.trans h.mfThresholdTime, h'.direction.trans h.direction,
    h'.callState.trans h.callState, ?_, h'.r2State.trans h.r2State, as ++ bs,
    by rw [ho', ho, List.append_assoc], ?_⟩
  · rcases h'.mfState with hm | hm
    · rw [hm]
      exact h.mfState
    · exact .inr hm
  · intro a hm
    exact (List.mem_append.mp hm).elim (ha a) (hb a)

theorem did (c : R2Chan) (a : Act) (ha : a.Aside ∨ (∃ i, a = .readDnis i) ∨ (∃ i, a = .readAni i) ∨
    ∃ m, a = .event (.onCallAccepted m)) : c.Sends (c.did a) :=
  ⟨rfl, rfl, rfl, rfl, rfl, rfl, rfl, rfl, rfl, rfl, rfl, .inl rfl, rfl, [a], rfl, by simpa using ha⟩

theorem setMfState (c : R2Chan) (m : MfState) (hm : m.Forward) : c.Sends (c.setMfState m) :=
  quiet ⟨_, _, _, rfl⟩ rfl rfl (.inr hm) rfl rfl

theorem setMfGroup (c : R2Chan) (g : MfGroup) : c.Sends (c.setMfGroup g) :=
  quiet ⟨_, _, _, rfl⟩ rfl rfl (.inl rfl) rfl rfl

theorem setDnisIndex (c : R2Chan) (i : Nat) : c.Sends (c.setDnisIndex i) :=
  quiet ⟨_, _, _, rfl⟩ rfl rfl (.inl rfl) rfl rfl

theorem setCategorySent (c : R2Chan) : c.Sends c.setCategorySent :=
  quiet ⟨_, _, _, rfl⟩ rfl rfl (.inl rfl) rfl rfl

theorem nextAni (c : R2Chan) : c.Sends (nextAni c) := quiet ⟨_, _, _, rfl⟩ rfl rfl (.inl rfl) rfl rfl

theorem tuned (h : c.Tuned d) : c.Sends d := by
  obtain ⟨⟨q, w, hf⟩, as, ho, has⟩ := h
  generalize d.out = o at hf ho
  subst hf
  exact ⟨rfl, rfl, rfl, rfl, rfl, rfl, rfl, rfl, rfl, rfl, rfl, .inl rfl, rfl, as, ho,
    fun a ha => .inl (Act.Tuning.aside (has a ha))⟩

end R2Chan.Sends

section Forward

variable (cx : R2Context) (env : Env) (ways : Direction → Prop) (c : R2Chan)

/-- A tone is sent, or it is refused and the call is over. -/
def Answers (cx : R2Context) (env : Env) (c d : R2Chan) : Prop :=
  c.Sends d ∨ ∃ e reason, c.Sends e ∧ d = handleProtocolError cx env reason e

theorem Answers.turns {cx : R2Context} {env : Env} {ways : Direction → Prop} {c d : R2Chan}
    (h : Answers cx env c d) (hw : ways .forward) : Turns cx env ways c d := by
  rcases h with h | ⟨e, reason, h, rfl⟩
  · exact .single (.send c d hw h)
  · exact (Relation.ReflTransGen.single (.send c e hw h)).trans
      (handleProtocolError_turns cx env ways e reason)

theorem R2Chan.Sends.answers {d e : R2Chan} (h : c.Sends d) (h' : Answers cx env d e) :
    Answers cx env c e :=
  h'.imp h.trans fun ⟨x, reason, hx, he⟩ => ⟨x, reason, h.trans hx, he⟩

theorem prepareMfTone_answers (tone : Tone) : Answers cx env c (prepareMfTone cx env tone c) := by
  rcases prepareMfTone_cases cx env tone c with ⟨-, hd⟩ | ⟨-, d, hd, he⟩
  · exact .inl (.tuned hd)
  · exact .inr ⟨d, .internalError, .tuned hd, he⟩

theorem waitTimeout_sends : c.Sends (waitTimeout cx env c) :=
  (R2Chan.Sends.setMfState c .waitingTimeout trivial).trans (.tuned (.armTimer env _ _ _ _))

/-- A tone that goes with a state of the forward side. -/
theorem sendTone_answers (m : MfState) (hm : m.Forward) (tone : Tone) :
    Answers cx env c (prepareMfTone cx env tone (c.setMfState m)) :=
  (R2Chan.Sends.setMfState c m hm).answers cx env c (prepareMfTone_answers cx env _ tone)

theorem mfSendDnisDigit_answers : Answers cx env c (mfSendDnisDigit cx env c) := by
  have hd : c.Sends (c.did (.readDnis c.dnisIndex)) := .did c _ (.inr (.inl ⟨_, rfl⟩))
  simp only [mfSendDnisDigit]
  split_ifs
  · exact hd.answers cx env c (sendTone_answers cx env _ .dnisTxd trivial _)
  · exact hd.answers cx env c (sendTone_answers cx env _ .dnisEndTxd trivial _)
  · exact .inl (hd.trans (waitTimeout_sends cx env _))

theorem mfSendDnis_answers (offset : Int) : Answers cx env c (mfSendDnis cx env offset c) := by
  simp only [mfSendDnis]
  split_ifs
  · exact (R2Chan.Sends.setDnisIndex c _).answers cx env c (mfSendDnisDigit_answers cx env _)
  · exact mfSendDnisDigit_answers cx env c
  · exact (R2Chan.Sends.setDnisIndex c _).answers cx env c (mfSendDnisDigit_answers cx env _)
  · exact .inr ⟨c, _, .refl c, rfl⟩

theorem mfSendCategory_answers : Answers cx env c (mfSendCategory cx env c) :=
  ((R2Chan.Sends.setMfState c .categoryTxd trivial).trans (.setCategorySent _)).answers cx env c
    (prepareMfTone_answers cx env _ _)

/-- After a protocol error there is no ANI to move on in. -/
theorem nextAni_handleProtocolError (reason : ProtocolError) :
    nextAni (handleProtocolError cx env reason c) = handleProtocolError cx env reason c := by
  obtain ⟨⟨rx, r, w, x, y, hf⟩, -⟩ := protoInit_reset cx (c.did (.mfSelectTone c.mfWriteHandle 0))
  have hp : (handleProtocolError cx env reason c).aniPtr = none := by
    have he : (handleProtocolError cx env reason c).aniPtr =
        (protoInit cx (c.did (.mfSelectTone c.mfWriteHandle 0))).aniPtr := rfl
    rw [he, hf]
  generalize handleProtocolError cx env reason c = d at hp
  cases d
  cases hp
  rfl

theorem mfSendAniDigit_answers : Answers cx env c (mfSendAniDigit cx env c) := by
  have hd : c.Sends (c.did (.readAni c.aniPtr)) := .did c _ (.inr (.inr (.inl ⟨_, rfl⟩)))
  simp only [mfSendAniDigit]
  split_ifs
  · exact sendTone_answers cx env c .aniEndTxd trivial _
  · refine hd.answers cx env c ?_
    rcases sendTone_answers cx env (c.did (.readAni c.aniPtr)) .aniTxd trivial (currentAni env c)
      with hs | ⟨e, reason, hs, he⟩
    · exact .inl (hs.trans (.nextAni _))
    · exact .inr ⟨e, reason, hs, by rw [he, nextAni_handleProtocolError]⟩
  · exact hd.answers cx env c (sendTone_answers cx env _ .aniEndTxd trivial _)
  · exact hd.answers cx env c (sendTone_answers cx env _ .aniEndTxd trivial _)
  · exact .inl (hd.trans (waitTimeout_sends cx env _))

theorem mfSendAni_answers : Answers cx env c (mfSendAni cx env c) := by
  simp only [mfSendAni]
  split_ifs
  · exact (R2Chan.Sends.setMfGroup c .gi).answers cx env c (mfSendDnis_answers cx env _ 1)
  · exact mfSendAniDigit_answers cx env c

/-- The tone means an acceptance. -/
theorem handleAcceptTone_turns (hw : ways .forward) (mode : CallMode) :
    Turns cx env ways c (handleAcceptTone cx env mode c) := by
  have he : ∀ d : R2Chan, Turns cx env ways d (d.emit (.onCallAccepted mode)) := fun d =>
    .single (.send d _ hw (.did d _ (.inr (.inr (.inr ⟨mode, rfl⟩)))))
  have hr : c.Aside (c.setR2State .acceptRxd) := .setR2State c _ (.inl (by decide))
  simp only [handleAcceptTone]
  have hc : Turns cx env ways c (callback cx env (.onCallAccepted mode) (c.setR2State .acceptRxd)) :=
    (hr.turns.trans (he _)).trans (callback_turns cx env ways _ _)
  split_ifs
  · exact hc
  · exact hc.trans (callAnswered_aside cx _).turns
  · exact (hr.trans (.armTimer env _ _ _ _)).turns.trans (he _)

theorem callRejected_aside (cause : DisconnectCause) : c.Aside (callRejected cause c) :=
  (R2Chan.Aside.setR2State c _ (.inl (by decide))).trans (.reportCallDisconnection _ _)

theorem handleGroupARequest_turns (hw : ways .forward) (tone : Tone) :
    Turns cx env ways c (handleGroupARequest cx env tone c) := by
  have hg : ∀ g, Turns cx env ways c (c.setMfGroup g) := fun g =>
    .single (.send c _ hw (.setMfGroup c g))
  simp only [handleGroupARequest]
  split
  · simp only [handleDnisRequest]
    split_ifs
    · exact ((R2Chan.Sends.setDnisIndex c 0).answers cx env c (mfSendDnis_answers cx env _ _)).turns hw
    · exact (mfSendDnis_answers cx env c _).turns hw
  · split_ifs
    · exact (mfSendAni_answers cx env c).turns hw
    · exact (hg .giii).trans ((mfSendCategory_answers cx env _).turns hw)
    · exact (mfSendCategory_answers cx env c).turns hw
    · exact (hg .gii).trans ((mfSendCategory_answers cx env _).turns hw)
    · exact handleAcceptTone_turns cx env ways c hw _
    · exact (callRejected_aside c _).turns
    · exact handleProtocolError_turns cx env ways c _

theorem handleGroupCRequest_turns (hw : ways .forward) (tone : Tone) :
    Turns cx env ways c (handleGroupCRequest cx env tone c) := by
  have hg : ∀ g, Turns cx env ways c (c.setMfGroup g) := fun g =>
    .single (.send c _ hw (.setMfGroup c g))
  simp only [handleGroupCRequest]
  split_ifs
  · exact (mfSendAni_answers cx env c).turns hw
  · exact (hg .gii).trans ((mfSendCategory_answers cx env _).turns hw)
  · exact (hg .gi).trans ((mfSendDnis_answers cx env _ 1).turns hw)
  · exact (callRejected_aside c _).turns
  · exact handleProtocolError_turns cx env ways c _

theorem handleGroupBRequest_turns (hw : ways .forward) (tone : Tone) :
    Turns cx env ways c (handleGroupBRequest cx env tone c) := by
  simp only [handleGroupBRequest]
  split_ifs
  · exact handleAcceptTone_turns cx env ways c hw _
  all_goals first
    | exact (callRejected_aside c _).turns
    | exact handleProtocolError_turns cx env ways c _

theorem handleBackwardMfSilence_turns (hw : ways .forward) (tone : Tone) :
    Turns cx env ways c (handleBackwardMfSilence cx env tone c) := by
  simp only [handleBackwardMfSilence]
  split
  · exact handleGroupARequest_turns cx env ways c hw tone
  · exact handleGroupBRequest_turns cx env ways c hw tone
  · exact handleGroupCRequest_turns cx env ways c hw tone
  · exact handleProtocolError_turns cx env ways c _

theorem handleBackwardMfTone_turns :
    Turns cx env ways c (handleBackwardMfTone cx env c) :=
  (R2Chan.Aside.cancelTimer c .mfFwdSafety).turns.trans (setSilence_turns cx env ways _)

end Forward

theorem Act.Tuning.keeps {a : Act} (h : a.Tuning) (b : List Tone × Nat) : Act.inscribe b a = b := by
  cases a with
  | storeDnis => exact h.elim
  | _ => rfl

/-- Acts that store nothing of the DNIS. -/
theorem Act.inscribe_none {as : List Act} (b : List Tone × Nat)
    (h : ∀ a ∈ as, ∀ b, Act.inscribe b a = b) : as.foldl Act.inscribe b = b := by
  induction as with
  | nil => rfl
  | cons a as ih =>
    rw [List.foldl_cons, h a List.mem_cons_self]
    exact ih fun x hx => h x (List.mem_cons_of_mem a hx)

namespace R2Chan.Collects

variable {c d e : R2Chan}

theorem trans (h : c.Collects d) (h' : d.Collects e) : c.Collects e := by
  obtain ⟨as, ho, ha⟩ := h.out
  obtain ⟨bs, ho', hb⟩ := h'.out
  refine ⟨?_, h'.dnisSize.trans h.dnisSize, h'.aniPtr.trans h.aniPtr, h'.dnisIndex.trans h.dnisIndex, h'.categorySent.trans h.categorySent,
    h'.mfReadTone.trans h.mfReadTone, h'.mfThresholdTone.trans h.mfThresholdTone,
    h'.mfThresholdTime.trans h.mfThresholdTime, h'.direction.trans h.direction, ?_, ?_, ?_,
    h'.r2State.trans h.r2State, ⟨as ++ bs, by rw [ho', ho, List.append_assoc], ?_⟩, ?_⟩
  · rcases h'.callerCategory with hc | hc
    · rw [hc]
      exact h.callerCategory
    · exact .inr (h.direction ▸ hc)
  · rcases h'.callState with hc | hc
    · rw [hc]
      exact h.callState
    · exact .inr hc
  · rcases h'.engages with hc | hc | hc
    · rw [hc]
      exact h.engages
    · exact h.engages.elim (fun hx => .inr (.inl (hx ▸ hc))) .inr
    · exact .inr (.inr (h.direction ▸ hc))
  · rcases h'.mfState with hm | hm
    · rw [hm]
      exact h.mfState
    · exact .inr hm
  · intro a hm
    exact (List.mem_append.mp hm).elim (ha a) (hb a)
  · obtain ⟨xs, hxo, hx⟩ := h.dnis
    obtain ⟨ys, hyo, hy⟩ := h'.dnis
    exact ⟨xs ++ ys, by rw [hyo, hxo, List.append_assoc], by rw [hy, hx, List.foldl_append]⟩

/-- A change of the other fields. -/
theorem quiet (h : d = { c with
    mfState := d.mfState
    mfGroup := d.mfGroup
    callerAniIsRestricted := d.callerAniIsRestricted
    callerCategory := d.callerCategory
    ani := d.ani
    aniLen := d.aniLen })
    (hm : d.mfState = c.mfState ∨ d.mfState.Backward ∨ d.mfState = .offState)
    (hc : d.callerCategory = c.callerCategory ∨ c.direction = .backward) : c.Collects d := by
  have ho : d.out = c.out ++ [] := by
    rw [h]
    exact (List.append_nil _).symm
  have hb : d.buffer = c.buffer := by rw [h]; rfl
  have hs : d.callState = c.callState := by rw [h]
  refine ⟨hc, ?_, ?_, ?_, ?_, ?_, ?_, ?_, ?_, .inl hs, .inl hs, hm, ?_, ⟨[], ho, by simp⟩, [], ho, hb⟩
  all_goals rw [h]

theorem refl (c : R2Chan) : c.Collects c := quiet rfl (.inl rfl) (.inl rfl)

theorem did (c : R2Chan) (a : Act) (ha : ∀ s, a = .callState s → s = .offered ∨ s = .accepted)
    (hs : ∀ b, Act.inscribe b a = b) : c.Collects (c.did a) := by
  refine ⟨.inl rfl, rfl, rfl, rfl, rfl, rfl, rfl, rfl, rfl, .inl rfl, .inl rfl, .inl rfl, rfl,
    ⟨[a], rfl, ?_⟩, [a], rfl, (hs _).symm⟩
  intro b hb
  rw [List.mem_singleton.mp hb]
  refine ⟨?_, ?_, ?_⟩ <;> exact fun hx => by rcases ha _ hx with h | h <;> exact absurd h (by decide)

theorem setMfState (c : R2Chan) (m : MfState) (hm : m.Backward) : c.Collects (c.setMfState m) :=
  quiet rfl (.inr (.inl hm)) (.inl rfl)

theorem setMfGroup (c : R2Chan) (g : MfGroup) : c.Collects (c.setMfGroup g) :=
  quiet rfl (.inl rfl) (.inl rfl)

theorem setCallState (c : R2Chan) (s : CallState) (hs : s = .offered ∨ s = .accepted)
    (hc : c.callState = .collecting ∨ c.direction = .backward) : c.Collects (c.setCallState s) := by
  refine ⟨.inl rfl, rfl, rfl, rfl, rfl, rfl, rfl, rfl, rfl, .inr hs, .inr hc, .inl rfl, rfl,
    ⟨[.callState s], rfl, ?_⟩, [.callState s], rfl, rfl⟩
  intro b hb
  rw [List.mem_singleton.mp hb]
  rcases hs with rfl | rfl <;> exact ⟨nofun, nofun, nofun⟩

theorem tuned (h : c.Tuned d) : c.Collects d := by
  obtain ⟨⟨q, w, hf⟩, as, ho, has⟩ := h
  generalize d.out = o at hf ho
  subst hf
  refine ⟨.inl rfl, rfl, rfl, rfl, rfl, rfl, rfl, rfl, rfl, .inl rfl, .inl rfl, .inl rfl, rfl,
    ⟨as, ho, fun a ha => ?_⟩, as, ho, ?_⟩
  · have ht := has a ha
    refine ⟨?_, ?_, ?_⟩ <;> rintro rfl <;> exact ht
  · exact (Act.inscribe_none c.buffer fun a ha => (has a ha).keeps).symm

end R2Chan.Collects

section Backward

variable (cx : R2Context) (env : Env) (ways : Direction → Prop) (c : R2Chan)

theorem R2Chan.Collects.turns {cx : R2Context} {env : Env} {ways : Direction → Prop} {c d : R2Chan}
    (h : c.Collects d) (hw : ways .backward) : Turns cx env ways c d := .single (.collect c d hw h)

/-- A request of the backward side. -/
theorem requestTone_turns (hw : ways .backward) (m : MfState) (hm : m.Backward) (tone : Tone) :
    Turns cx env ways c (prepareMfTone cx env tone (c.setMfState m)) := by
  have hs : c.Collects (c.setMfState m) := .setMfState c m hm
  rcases prepareMfTone_cases cx env tone (c.setMfState m) with ⟨-, hd⟩ | ⟨-, d, hd, he⟩
  · exact (hs.trans (.tuned hd)).turns hw
  · rw [he]
    exact ((hs.trans (.tuned hd)).turns hw).trans (handleProtocolError_turns cx env ways d _)

theorem offerCall_turns (hw : ways .backward) : Turns cx env ways c (offerCall cx env c) := by
  simp only [offerCall]
  split_ifs with hc
  · exact handleProtocolError_turns cx env ways c _
  · exact ((R2Chan.Collects.setCallState c .offered (.inl rfl) (.inl (not_not.mp hc))).trans
      (.did _ (.event _) (by rintro _ ⟨⟩) fun _ => rfl)).turns hw

theorem requestCallingPartyCategory_turns (hw : ways .backward) :
    Turns cx env ways c (requestCallingPartyCategory cx env c) :=
  ((R2Chan.Collects.setMfGroup c _).turns hw).trans
    (requestTone_turns cx env ways _ hw .categoryRqTxd trivial _)

theorem bypassChangeToG2_turns (hw : ways .backward) :
    Turns cx env ways c (bypassChangeToG2 cx env c) :=
  (requestTone_turns cx env ways c hw .acceptedTxd trivial _).trans (offerCall_turns cx env ways _ hw)

theorem requestChangeToG2_turns (hw : ways .backward) :
    Turns cx env ways c (requestChangeToG2 cx env c) :=
  ((R2Chan.Collects.setMfGroup c .gb).turns hw).trans
    (requestTone_turns cx env ways _ hw .chgGiiTxd trivial _)

theorem tryChangeToG2_turns (hw : ways .backward) : Turns cx env ways c (tryChangeToG2 cx env c) := by
  simp only [tryChangeToG2]
  split_ifs
  · exact bypassChangeToG2_turns cx env ways c hw
  · exact requestChangeToG2_turns cx env ways c hw

theorem tryRequestCallingPartyCategory_turns (hw : ways .backward) :
    Turns cx env ways c (tryRequestCallingPartyCategory cx env c) := by
  simp only [tryRequestCallingPartyCategory]
  split_ifs
  · exact tryChangeToG2_turns cx env ways c hw
  · exact requestCallingPartyCategory_turns cx env ways c hw

theorem mfBackCycleTimeoutExpired_turns (hw : ways .backward) :
    Turns cx env ways c (mfBackCycleTimeoutExpired cx env c) := by
  have ha : Turns cx env ways c (armTimer env .mfBackResumeCycle cx.timers.mfBackResumeCycle
      .mfBackResumeCycle c) := (R2Chan.Aside.armTimer env _ _ _ c).turns
  simp only [mfBackCycleTimeoutExpired]
  split_ifs
  · exact ha.trans (tryRequestCallingPartyCategory_turns cx env ways _ hw)
  · exact ha.trans (tryChangeToG2_turns cx env ways _ hw)
  · exact handleProtocolError_turns cx env ways c _

theorem requestNextDnisDigit_turns (hw : ways .backward) :
    Turns cx env ways c (requestNextDnisDigit cx env c) :=
  ((R2Chan.Collects.setMfGroup c .ga).turns hw).trans
    (requestTone_turns cx env ways _ hw .dnisRqTxd trivial _)

theorem storeDnisDigit_collects (tone : Tone) : c.Collects (storeDnisDigit tone c) := by
  simp only [storeDnisDigit]
  split_ifs
  · exact .refl c
  · exact ⟨.inl rfl, by simp, rfl, rfl, rfl, rfl, rfl, rfl, rfl, .inl rfl, .inl rfl, .inl rfl, rfl,
      ⟨[.storeDnis c.dnisLen tone], rfl, by simp⟩, [.storeDnis c.dnisLen tone], rfl, rfl⟩

theorem storeAniDigit_collects (tone : Tone) : c.Collects (storeAniDigit tone c) :=
  (R2Chan.Collects.did c (.storeAni c.aniLen tone) nofun fun _ => rfl).trans
    (.quiet rfl (.inl rfl) (.inl rfl))

/-- A digit was stored, and the user hears of it. -/
theorem report_turns (hw : ways .backward) (d : R2Chan) (h : c.Collects d) (e : Event) :
    Turns cx env ways c (callback cx env e d) :=
  ((h.trans (.did d (.event e) nofun fun _ => rfl)).turns hw).trans (callback_turns cx env ways d e)

theorem afterDnisDigit_turns (hw : ways .backward) (rc : Bool) :
    Turns cx env ways c (afterDnisDigit cx env rc c) := by
  simp only [afterDnisDigit]
  split_ifs
  · exact tryRequestCallingPartyCategory_turns cx env ways c hw
  · exact tryChangeToG2_turns cx env ways c hw
  · exact tryRequestCallingPartyCategory_turns cx env ways c hw
  · exact requestNextDnisDigit_turns cx env ways c hw

theorem mfReceiveExpectedDnis_turns (hw : ways .backward) (tone : Tone) :
    Turns cx env ways c (mfReceiveExpectedDnis cx env tone c) := by
  simp only [mfReceiveExpectedDnis]
  split_ifs
  · exact (report_turns cx env ways c hw _ (storeDnisDigit_collects c tone) _).trans
      (afterDnisDigit_turns cx env ways _ hw _)
  · exact tryRequestCallingPartyCategory_turns cx env ways c hw
  · exact tryChangeToG2_turns cx env ways c hw
  · exact handleProtocolError_turns cx env ways c _

theorem doneGettingAni_turns (hw : ways .backward) : Turns cx env ways c (doneGettingAni cx env c) := by
  simp only [doneGettingAni]
  split_ifs
  · exact tryChangeToG2_turns cx env ways c hw
  · exact requestNextDnisDigit_turns cx env ways c hw

theorem mfReceiveExpectedAni_turns (hw : ways .backward) (tone : Tone) :
    Turns cx env ways c (mfReceiveExpectedAni cx env tone c) := by
  have hs : Turns cx env ways c
      (callback cx env (.onAniDigitReceived tone) (storeAniDigit tone c)) :=
    report_turns cx env ways c hw _ (storeAniDigit_collects c tone) _
  have hn : ∀ d, Turns cx env ways d (requestNextAniDigit cx env d) := fun d =>
    requestTone_turns cx env ways d hw .aniRqTxd trivial _
  have hr : c.Collects c.restrictAni := .quiet rfl (.inl rfl) (.inl rfl)
  simp only [mfReceiveExpectedAni]
  split_ifs
  · exact hs.trans (hn _)
  · exact hs.trans (doneGettingAni_turns cx env ways _ hw)
  · exact hn c
  · exact doneGettingAni_turns cx env ways c hw
  · exact (hr.turns hw).trans (doneGettingAni_turns cx env ways _ hw)
  · exact doneGettingAni_turns cx env ways c hw
  · exact handleProtocolError_turns cx env ways c _

theorem receiveCategory_turns (hw : ways .backward) (hd : c.direction = .backward) (tone : Tone) :
    Turns cx env ways c (receiveCategory cx env tone c) := by
  have hs : Turns cx env ways c (c.setCallerCategory tone) :=
    R2Chan.Collects.turns (.quiet rfl (.inl rfl) (.inr hd)) hw
  simp only [receiveCategory]
  split_ifs
  · exact hs.trans (mfReceiveExpectedAni_turns cx env ways _ hw 0)
  · exact hs.trans (tryChangeToG2_turns cx env ways _ hw)
  · exact hs.trans (requestChangeToG2_turns cx env ways _ hw)

theorem handleForwardMfTone_turns (hw : ways .backward) (hd : c.direction = .backward) (tone : Tone) :
    Turns cx env ways c (handleForwardMfTone cx env tone c) := by
  have hc : Turns cx env ways c (c.cancelTimer .mfBackCycle) := (R2Chan.Aside.cancelTimer c _).turns
  simp only [handleForwardMfTone]
  refine hc.trans ?_
  split
  · split_ifs
    · exact mfReceiveExpectedAni_turns cx env ways _ hw tone
    · exact mfReceiveExpectedDnis_turns cx env ways _ hw tone
  · exact mfReceiveExpectedDnis_turns cx env ways _ hw tone
  · exact receiveCategory_turns cx env ways (c.cancelTimer .mfBackCycle) hw hd tone
  · exact receiveCategory_turns cx env ways (c.cancelTimer .mfBackCycle) hw hd tone
  · exact mfReceiveExpectedAni_turns cx env ways _ hw tone
  · exact mfReceiveExpectedAni_turns cx env ways _ hw tone
  · exact offerCall_turns cx env ways _ hw
  all_goals exact handleProtocolError_turns cx env ways _ _

theorem mfDanceEnded_turns (hw : ways .backward) (hd : c.direction = .backward) :
    Turns cx env ways c (mfDanceEnded cx env c) := by
  have ho := R2Chan.Aside.turnOffMfEngine cx c
  exact (ho.turns.trans ((R2Chan.Collects.setCallState _ .accepted (.inr rfl)
    (.inr (ho.direction.trans hd))).turns hw)).trans (R2Chan.Aside.armTimer env _ _ _ _).turns

/-- Silence is set, or the engine is off. -/
theorem setSilence_direction : (setSilence cx env c).direction = c.direction ∨
    (setSilence cx env c).mfState = .offState := by
  rcases prepareMfTone_cases cx env 0 c with ⟨-, ⟨q, w, hf⟩, -⟩ | ⟨-, d, -, he⟩
  · refine .inl ?_
    rw [setSilence, hf]
    rfl
  · refine .inr ?_
    obtain ⟨⟨rx, r, w, x, y, hf⟩, -⟩ := protoInit_reset cx (d.did (.mfSelectTone d.mfWriteHandle 0))
    have hm : (protoInit cx (d.did (.mfSelectTone d.mfWriteHandle 0))).mfState = .offState := by
      rw [hf]
    rw [setSilence, he]
    exact hm

theorem handleForwardMfSilence_turns (hw : ways .backward) (hd : c.direction = .backward) :
    Turns cx env ways c (handleForwardMfSilence cx env c) := by
  have hs := setSilence_turns cx env ways c
  have hx := setSilence_direction cx env c
  rw [hd] at hx
  simp only [handleForwardMfSilence]
  generalize setSilence cx env c = d at hs hx
  refine hs.trans ?_
  split
  · exact mfDanceEnded_turns cx env ways d hw (hx.resolve_right fun hm => by simp_all)
  · exact mfDanceEnded_turns cx env ways d hw (hx.resolve_right fun hm => by simp_all)
  · exact (R2Chan.Aside.mapTimers _ _).turns
  · exact .refl
  · exact .refl
  · exact .refl
  · exact handleProtocolError_turns cx env ways _ _
  · exact handleProtocolError_turns cx env ways _ _

end Backward

section Media

variable (cx : R2Context) (env : Env) (ways : Direction → Prop) (c : R2Chan)

/-- The timer of a backward request is part of the register signalling of its direction. -/
theorem runAnyTimer_turns (hs : ways .stopped) (hw : ways .backward) (cb : TimerCallback) :
    Turns cx env ways c (runTimer cx env cb c) := by
  by_cases h : cb = .mfBackCycleTimeoutExpired
  · subst h
    exact mfBackCycleTimeoutExpired_turns cx env ways c hw
  · exact runTimer_turns cx env ways c hs h

end Media

end OpenR2
