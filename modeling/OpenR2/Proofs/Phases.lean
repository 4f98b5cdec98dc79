import OpenR2.Proofs.Coherence

namespace OpenR2

/-- The line states in which the register signalling is over, or has not begun. -/
def CasState.Silent : CasState → Prop
  | .seizeTxd | .seizeTxdClearFwdPending | .doubleSeizure | .doubleSeizureClearFwdPending
  | .clearFwdTxd | .clearBackAfterClearFwdRxd | .answerTxd | .executingDoubleAnswer => True
  | _ => False

/-- The line is seized and nobody has acknowledged it. -/
def CasState.Seizing : CasState → Prop
  | .seizeTxd | .seizeTxdClearFwdPending | .doubleSeizure => True
  | _ => False

/-- A double seizure is or was held before the line was cleared. -/
def CasState.AfterGlare : CasState → Prop
  | .doubleSeizureClearFwdPending | .clearFwdTxd | .clearBackAfterClearFwdRxd => True
  | _ => False

theorem CasState.Seizing.silent {r : CasState} (h : r.Seizing) : r.Silent := by
  cases r <;> trivial

theorem CasState.Seizing.forward {r : CasState} (h : r.Seizing) : r.Forward := by
  cases r <;> trivial

theorem CasState.AfterGlare.silent {r : CasState} (h : r.AfterGlare) : r.Silent := by
  cases r <;> trivial

/-- A backward call that was answered, and not cleared since. -/
def CasState.Answering (r : CasState) : Prop := r = .answerTxd ∨ r = .executingDoubleAnswer

theorem CasState.Answering.silent {r : CasState} (h : r.Answering) : r.Silent := by
  rcases h with rfl | rfl <;> trivial

theorem CasState.Answering.backward {r : CasState} (h : r.Answering) : r.Backward := by
  rcases h with rfl | rfl <;> trivial

namespace Control

/-- What a timer that waits tells of the call, and what the state tells of the timers. -/
structure Phased (k : Control) : Prop extends k.Coherent where
  silent : k.r2State.Silent → k.mfState = .offState
  seizing : k.r2State.Seizing → ∀ cb ∈ k.pending, cb = .seizeTimeoutExpired ∨ cb = .persistenceCheckExpired
  persist : .r2SeizePersistExpired ∈ k.pending → k.r2State.AfterGlare
  answering : k.r2State.Answering → ¬ k.callState.Incoming
  accepted : k.callState = .accepted → k.mfState = .offState
  delay : .readyToAnswer ∈ k.pending →
    k.mfState = .offState ∧ k.callState ≠ .collecting ∧ k.callState ≠ .offered
  double : .doubleAnswerHandler ∈ k.pending → k.mfState = .offState ∧ ¬ k.callState.Incoming

variable {k k' : Control}

theorem Coherent.absent (h : k.Coherent) {d : Direction} (hd : k.direction = d) {cb : TimerCallback}
    (hs : ¬ cb.Serves d) : cb ∉ k.pending := fun hx => hs (hd ▸ h.timers cb hx)

/-- A move that leaves the call, the line and the register signalling as they are. -/
theorem Phased.frame (h : k.Phased) (hc : k'.Coherent) (hr : k'.r2State = k.r2State)
    (hm : k'.mfState = k.mfState) (hs : k'.callState = k.callState) (hp : k'.pending ⊆ k.pending) :
    k'.Phased := by
  refine ⟨hc, ?_, ?_, ?_, ?_, ?_, ?_, ?_⟩
  · rw [hr, hm]; exact h.silent
  · rw [hr]; exact fun hx cb hcb => h.seizing hx cb (hp hcb)
  · rw [hr]; exact fun hx => h.persist (hp hx)
  · rw [hr, hs]; exact h.answering
  · rw [hs, hm]; exact h.accepted
  · rw [hm, hs]; exact fun hx => h.delay (hp hx)
  · rw [hm, hs]; exact fun hx => h.double (hp hx)

/-- The register signalling comes to rest, and the call state stays. -/
theorem Phased.off (h : k.Phased) (hc : k'.Coherent) (hm : k'.mfState = .offState)
    (hs : k'.callState = k.callState) (hp : k'.pending ⊆ .r2SetCallDown :: k.pending)
    (hr : ¬ k'.r2State.Seizing) (ha : .r2SeizePersistExpired ∈ k.pending → k'.r2State.AfterGlare)
    (hx : k'.r2State.Answering → k.r2State.Answering) : k'.Phased := by
  have hq : ∀ cb ∈ k'.pending, cb ≠ .r2SetCallDown → cb ∈ k.pending := fun cb hcb hn =>
    (List.mem_cons.mp (hp hcb)).resolve_left hn
  refine ⟨hc, fun _ => hm, fun h => absurd h hr, fun hx => ha (hq _ hx (by decide)), ?_, fun _ => hm,
    fun hx => ?_, fun hx => ?_⟩
  · rw [hs]; exact fun hy => h.answering (hx hy)
  · rw [hs]; exact ⟨hm, (h.delay (hq _ hx (by decide))).2⟩
  · rw [hs]; exact ⟨hm, (h.double (hq _ hx (by decide))).2⟩

/-- A new line state. The timers stay, the register signalling is off where it has to be. -/
theorem Phased.relay (h : k.Phased) {r : CasState} (hc : Coherent { k with r2State := r })
    (hl : r.Silent → k.mfState = .offState) (hz : r.Seizing → k.r2State.Seizing)
    (ha : k.r2State.AfterGlare → r.AfterGlare) (hx : ¬ r.Answering) :
    Phased { k with r2State := r } :=
  ⟨hc, hl, fun hr => h.seizing (hz hr), fun hp => ha (h.persist hp), fun hr => absurd hr hx,
    h.accepted, h.delay, h.double⟩

theorem Phased.hop (h : k.Phased) {r : CasState} (hr : Hop k r) : Phased { k with r2State := r } := by
  have hc : Coherent { k with r2State := r } := h.toCoherent.hop (hop_fits h.toCoherent hr)
  cases hr with
  | clearFwdRxd hk =>
    refine h.relay hc (fun hs => hs.elim) (fun hs => hs.elim) (fun ha => ?_) (by simp [CasState.Answering])
    rcases hk with hk | hk | hk | hk <;> rw [hk] at ha <;> exact ha.elim
  | glare hk =>
    have hz : k.r2State.Seizing := by rcases hk with hk | hk <;> rw [hk] <;> trivial
    refine h.relay hc (fun _ => h.silent hz.silent) (fun _ => hz) (fun ha => ?_) (by simp [CasState.Answering])
    rcases hk with hk | hk <;> rw [hk] at ha <;> exact ha.elim
  | seizeAck hk =>
    refine h.relay hc (fun hs => hs.elim) (fun hs => hs.elim) (fun ha => ?_) (by simp [CasState.Answering])
    rw [hk] at ha
    exact ha.elim
  | holdSeize hk =>
    have hz : k.r2State.Seizing := by rw [hk]; trivial
    refine h.relay hc (fun _ => h.silent hz.silent) (fun _ => hz) (fun ha => ?_) (by simp [CasState.Answering])
    rw [hk] at ha
    exact ha.elim
  | holdGlare hk =>
    have hz : k.r2State.Seizing := by rw [hk]; trivial
    exact h.relay hc (fun _ => h.silent hz.silent) (fun hs => hs.elim) (fun _ => trivial)
      (by simp [CasState.Answering])
  | release _ hk hr =>
    refine h.relay hc (fun hs => ?_) (fun hs => ?_) (fun ha => ?_) (fun hx => ?_)
    · rcases hr with rfl | rfl <;> exact hs.elim
    · rcases hr with rfl | rfl <;> exact hs.elim
    · rcases hk with hk | hk | hk | hk <;> rw [hk] at ha <;> exact ha.elim
    · rcases hr with rfl | rfl <;> simp [CasState.Answering] at hx
  | earlyAnswer hk =>
    refine h.relay hc (fun hs => hs.elim) (fun hs => hs.elim) (fun ha => ?_) (by simp [CasState.Answering])
    rw [hk] at ha
    exact ha.elim
  | lateRelease hk =>
    have hl : k.r2State.Silent := by rw [hk]; trivial
    exact h.relay hc (fun _ => h.silent hl) (fun hs => hs.elim) (fun _ => trivial)
      (by simp [CasState.Answering])
  | tone _ hd hm hr =>
    refine h.relay hc (fun hs => ?_) (fun hs => ?_) (fun ha => absurd (h.silent ha.silent) hm) (fun hx => ?_)
    · rcases hr with rfl | rfl <;> exact hs.elim
    · rcases hr with rfl | rfl <;> exact hs.elim
    · rcases hr with rfl | rfl <;> simp [CasState.Answering] at hx

/-- A timer is scheduled where the code schedules it. -/
theorem Phased.arm (h : k.Phased) {cb : TimerCallback} (hb : k.Arms cb) {p : List TimerCallback}
    (hc : Coherent { k with pending := p }) (hp : p ⊆ cb :: k.pending) :
    Phased { k with pending := p } := by
  have hq : ∀ x ∈ p, x ≠ cb → x ∈ k.pending := fun x hx hn =>
    (List.mem_cons.mp (hp hx)).resolve_left hn
  refine ⟨hc, h.silent, fun hr x hx => ?_, fun hx => ?_, h.answering, h.accepted, fun hx => ?_, fun hx => ?_⟩
  · rcases List.mem_cons.mp (hp hx) with rfl | hx'
    · have hs : x.Serves k.direction := hc.timers x hx
      have hd := h.forward (.inr (.inl hr.forward))
      rw [hd] at hs
      cases x with
      | persistenceCheckExpired => exact .inr rfl
      | seizeTimeoutExpired => exact .inl rfl
      | mfFwdSafetyTimeoutExpired =>
        have hm := h.silent hr.silent
        exact absurd (hm.symm.trans hb) (by decide)
      | r2SeizePersistExpired => rw [show k.r2State = _ from hb] at hr; exact hr.elim
      | r2AnswerTimeoutExpired => rw [show k.r2State = _ from hb] at hr; exact hr.elim
      | r2MeteringPulse => rcases hb with hb | hb <;> rw [hb] at hr <;> exact hr.elim
      | r2SetCallDown => exact hb.elim
      | _ => exact hs.elim
    · exact h.seizing hr x hx'
  · by_cases he : TimerCallback.r2SeizePersistExpired = cb
    · subst he
      rw [show k.r2State = _ from hb]
      trivial
    · exact h.persist (hq _ hx he)
  · by_cases he : TimerCallback.readyToAnswer = cb
    · subst he
      have ha : k.callState = .accepted := hb
      exact ⟨h.accepted ha, by simp [ha], by simp [ha]⟩
    · exact h.delay (hq _ hx he)
  · by_cases he : TimerCallback.doubleAnswerHandler = cb
    · subst he
      exact ⟨h.silent (CasState.Answering.silent hb), h.answering hb⟩
    · exact h.double (hq _ hx he)

theorem phased_reset (k : Control) {r : CasState} (tx : CasSignal) (hr : r = .idle ∨ r = .blocked) :
    (k.reset r tx).Phased := by
  refine ⟨coherent_reset k tx (.inr hr), fun _ => rfl, fun _ => by simp [Control.reset],
    by simp [Control.reset], fun _ => by simp [Control.reset, CallState.Incoming], nofun,
    by simp [Control.reset], by simp [Control.reset]⟩

/-- What one move preserves. -/
theorem Phased.move {cx : R2Context} {sound : Prop} {s : Stimulus} (h : k.Phased)
    (hm : Move cx sound s k k') : k'.Phased := by
  have hc := h.toCoherent.move hm
  have hrest : k.direction = .stopped → ∀ cb ∈ k.pending, cb = .persistenceCheckExpired := by
    intro hd cb hcb
    have hs := hd ▸ h.timers cb hcb
    cases cb <;> first | rfl | exact hs.elim
  cases hm with
  | reset => exact phased_reset k _ (.inl rfl)
  | block => exact phased_reset k _ (.inr rfl)
  | notify => exact h.frame hc rfl rfl rfl (List.Subset.refl _)
  | drop p hp => exact h.frame hc rfl rfl rfl hp
  | arm cb d p _ _ hb hp => exact h.arm hb hc hp
  | incoming hr ha =>
    have hd : k.direction = .stopped := by
      have hl := h.line
      cases hd : k.direction <;> simp_all [CasState.Fits, CasState.Forward, CasState.Backward]
    have hn : ∀ cb ∈ k.pending, cb = .persistenceCheckExpired := hrest hd
    exact ⟨hc, fun hx => hx.elim, fun hx => hx.elim, fun hx => absurd (hn _ hx) (by rintro ⟨⟩),
      by simp [CasState.Answering], by rintro ⟨⟩, fun hx => absurd (hn _ hx) (by rintro ⟨⟩),
      fun hx => absurd (hn _ hx) (by rintro ⟨⟩)⟩
  | ack => exact h.frame hc rfl rfl rfl (List.Subset.refl _)
  | lose => exact h.frame hc rfl rfl rfl (List.Subset.refl _)
  | backMf m hk ho _ =>
    have hd := h.backward hk
    have hl : ¬ k.r2State.Silent := by
      intro hl
      have hm := h.silent hl
      have ho := ho.resolve_left fun hn => hn hm
      have hf := hd ▸ h.line
      by_cases ha : k.r2State.Answering
      · exact h.answering ha (by rw [ho]; trivial)
      · cases hr : k.r2State <;>
          simp_all [CasState.Fits, CasState.Backward, CasState.Silent, CasState.Answering]
    have hac : k.callState ≠ .accepted := by
      intro ha
      rcases ho with ho | ho
      · exact ho (h.accepted ha)
      · cases ha.symm.trans ho
    have hde : .readyToAnswer ∉ k.pending := fun hx =>
      ho.elim (fun hn => hn (h.delay hx).1) (h.delay hx).2.2
    have hdo : .doubleAnswerHandler ∉ k.pending := fun hx =>
      ho.elim (fun hn => hn (h.double hx).1) fun ho => (h.double hx).2 (by rw [ho]; trivial)
    exact ⟨hc, fun hx => absurd hx hl, fun hx => absurd hx.silent hl, h.persist,
      fun hx => absurd hx.silent hl, fun hx => absurd hx hac, fun hx => absurd hx hde,
      fun hx => absurd hx hdo⟩
  | backGroup => exact h.frame hc rfl rfl rfl (List.Subset.refl _)
  | fwdMf m hk ho _ =>
    have hd := h.forward hk
    have hl : ¬ k.r2State.Silent := by
      intro hl
      rcases ho with ho | ho
      · exact ho (h.silent hl)
      · rw [ho] at hl; exact hl.elim
    have hac : k.callState ≠ .accepted := by
      intro ha
      have hf := hd ▸ h.call
      rw [ha] at hf
      exact hf.elim
    exact ⟨hc, fun hx => absurd hx hl, fun hx => absurd hx.silent hl, h.persist,
      fun hx => absurd hx.silent hl, fun hx => absurd hx hac,
      fun hx => (h.toCoherent.absent hd id hx).elim,
      fun hx => (h.toCoherent.absent hd id hx).elim⟩
  | fwdGroup => exact h.frame hc rfl rfl rfl (List.Subset.refl _)
  | offer _ _ _ _ hk =>
    exact ⟨hc, h.silent, h.seizing, h.persist,
      fun hx => absurd (show k.callState.Incoming by rw [hk]; trivial) (h.answering hx), (by rintro ⟨⟩),
      fun hx => absurd hk (h.delay hx).2.1,
      fun hx => absurd (show k.callState.Incoming by rw [hk]; trivial) (h.double hx).2⟩
  | danceEnded _ hk _ =>
    have hn : k.mfState ≠ .offState := by rw [hk]; decide
    exact ⟨hc, fun _ => rfl, h.seizing, h.persist, fun hx => absurd (h.silent hx.silent) hn,
      fun _ => rfl, fun hx => absurd (h.delay hx).1 hn, fun hx => absurd (h.double hx).1 hn⟩
  | accepted => exact h.frame hc rfl rfl rfl (List.Subset.refl _)
  | answer hk =>
    have hm := h.accepted hk
    have hd := h.backward (.inr (.inr (.inr (by rw [hk]; trivial))))
    exact ⟨hc, fun _ => hm, (by rintro ⟨⟩),
      fun hx => (h.toCoherent.absent hd id hx).elim, fun _ => (by rintro ⟨⟩), (by rintro ⟨⟩),
      fun hx => ⟨hm, (by rintro ⟨⟩), (by rintro ⟨⟩)⟩, fun hx => ⟨hm, (by rintro ⟨⟩)⟩⟩
  | clearBackward hk =>
    have hd := h.backward hk
    exact h.off hc rfl rfl (List.subset_cons_self _ _) (by rintro ⟨⟩)
      (fun hx => (h.toCoherent.absent hd id hx).elim) (by simp [CasState.Answering])
  | forcedRelease hk =>
    have hd := h.backward hk
    exact h.off hc rfl rfl (List.subset_cons_self _ _) (by rintro ⟨⟩)
      (fun hx => (h.toCoherent.absent hd id hx).elim) (by simp [CasState.Answering])
  | executeDouble p hr hp =>
    have hd := h.backward (.inr (.inl (by rw [hr]; trivial)))
    exact h.off hc rfl rfl (List.Subset.trans hp (List.subset_cons_self _ _)) (by rintro ⟨⟩)
      (fun hx => (h.toCoherent.absent hd id hx).elim) fun _ => .inl hr
  | reanswer hr =>
    have ha : k.r2State.Answering := .inr hr
    have hd := h.backward (.inr (.inl ha.backward))
    exact ⟨hc, fun _ => h.silent ha.silent, (by rintro ⟨⟩),
      fun hx => (h.toCoherent.absent hd id hx).elim, fun _ => h.answering ha,
      h.accepted, h.delay, h.double⟩
  | hop r hr => exact h.hop hr
  | report cause _ _ =>
    exact ⟨hc, h.silent, h.seizing, h.persist, fun _ => (by rintro ⟨⟩), (by rintro ⟨⟩),
      fun hx => ⟨(h.delay hx).1, (by rintro ⟨⟩), (by rintro ⟨⟩)⟩, fun hx => ⟨(h.double hx).1, (by rintro ⟨⟩)⟩⟩
  | makeCall p n hk _ hp _ =>
    have hd : k.direction = .stopped := by
      have hl := h.call
      cases hd : k.direction <;> simp_all [CallState.Fits]
    have hm : k.mfState.Fits .stopped := hd ▸ h.mf
    have hn : ∀ cb ∈ p, cb = .seizeTimeoutExpired ∨ cb = .persistenceCheckExpired := fun cb hcb =>
      (List.mem_cons.mp (hp hcb)).imp_right (hrest hd cb)
    exact ⟨hc, fun _ => hm, fun _ => hn, fun hx => (hn _ hx).elim (by rintro ⟨⟩) (by rintro ⟨⟩),
      by simp [CasState.Answering], (by rintro ⟨⟩), fun hx => (hn _ hx).elim (by rintro ⟨⟩) (by rintro ⟨⟩),
      fun hx => (hn _ hx).elim (by rintro ⟨⟩) (by rintro ⟨⟩)⟩
  | clearForward p hk hp =>
    exact h.off hc rfl rfl hp (by rintro ⟨⟩) (fun _ => trivial) (by simp [CasState.Answering])
  | answered _ hr =>
    have hd := h.forward (.inr (.inl (by rw [hr]; trivial)))
    exact ⟨hc, fun _ => rfl, (by rintro ⟨⟩), fun hx => by have := h.persist hx; rw [hr] at this; exact this.elim,
      by simp [CasState.Answering], (by rintro ⟨⟩),
      fun hx => (h.toCoherent.absent hd id hx).elim,
      fun hx => (h.toCoherent.absent hd id hx).elim⟩
  | billing _ hr _ =>
    have hn : ¬ k.r2State.AfterGlare := by rcases hr with hr | hr <;> rw [hr] <;> exact id
    exact ⟨hc, fun hx => hx.elim, fun hx => hx.elim, fun hx => absurd (h.persist hx) hn,
      by simp [CasState.Answering], h.accepted, h.delay, h.double⟩
  | alarm => exact h.frame hc rfl rfl rfl (List.Subset.refl _)
  | mute => exact h.frame hc rfl rfl rfl (List.Subset.refl _)
  | recover r tx hr =>
    have hx : r = .idle ∨ r = .blocked := hr.imp And.left And.left
    exact (phased_reset (k.marked [.event (.onHardwareAlarm false)]) tx hx).frame hc rfl rfl rfl
      (List.Subset.refl _)

/-- What a sequence of moves preserves. -/
theorem Phased.moves {cx : R2Context} {sound : Prop} {s : Stimulus} (h : k.Phased)
    (hm : Relation.ReflTransGen (Move cx sound s) k k') : k'.Phased := by
  induction hm with
  | refl => exact h
  | tail _ hm ih => exact ih.move hm

end Control

section Runs

variable {cx : R2Context} {c : R2Chan}

theorem step_phased (hm : cx.Mfc) {env : Env} (hq : env.Quiet) (i : Input)
    (h : c.control.Phased) : (step cx env i c).control.Phased := by
  have h0 : c.start.control.Phased :=
    h.frame (start_coherent h.toCoherent) rfl rfl rfl (List.Subset.refl _)
  exact h0.moves (step_goes hm hq i h.timers)

theorem started_phased (h : Started cx c) : c.control.Phased := by
  cases h with
  | idle env d =>
    rw [setIdle_control]
    exact Control.phased_reset _ .idle (.inl rfl)
  | blocked env d =>
    rw [setBlocked_control]
    exact Control.phased_reset _ .block (.inr rfl)

end Runs

end OpenR2
