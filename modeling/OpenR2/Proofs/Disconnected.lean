import OpenR2.Proofs.Coherence

namespace OpenR2

/-- What only a live call does. -/
def Mark.Revives : Mark → Prop
  | .event (.onCallOffered ..) | .event (.onCallAccepted _) | .event .onCallAnswered
  | .event .onBillingPulseReceived => True
  | .event _ => False
  | .callState s => s ≠ .disconnected ∧ s ≠ .idle

def Mark.Disconnects : Mark → Prop
  | .event (.onCallDisconnect _) => True
  | _ => False

instance : DecidablePred Mark.Disconnects := fun m => by
  unfold Mark.Disconnects
  split <;> exact inferInstance

/-- From the report of a disconnection until the channel is idle. -/
def revival : Runs.Watch Mark where
  start := Mark.Disconnects
  stop m := m = .callState .idle
  bad := Mark.Revives

/-- Marks that report no disconnection. -/
theorem revival_off {ms : List Mark} (h : ∀ m ∈ ms, ¬ m.Disconnects) :
    revival.Clean false ms ∧ revival.after false ms = false := by
  induction ms with
  | nil => exact ⟨trivial, rfl⟩
  | cons m ms ih =>
    have hn : revival.next false m = false := by
      have hm : ¬ revival.start m := h m List.mem_cons_self
      simp [Runs.Watch.next, hm]
    obtain ⟨hc, ha⟩ := ih fun x hx => h x (List.mem_cons_of_mem _ hx)
    exact ⟨⟨(by rintro ⟨⟩), hn.symm ▸ hc⟩, (congrArg (revival.after · ms) hn).trans ha⟩

namespace Control

/-- Nothing has revived a call, and a reported disconnection is still the state.
An advancing step has no reported call to work on. -/
structure Settled (s : Stimulus) (on : Bool) (k : Control) : Prop where
  coherent : k.Coherent
  clean : revival.Clean on k.marks
  state : revival.after on k.marks = true → k.callState = .disconnected ∧ s ≠ .advance

variable {k : Control} {s : Stimulus} {on : Bool}

theorem Settled.off (h : k.Settled s on) (hk : k.callState ≠ .disconnected ∨ s = .advance) :
    revival.after on k.marks = false := by
  refine Bool.eq_false_of_not_eq_true fun ha => ?_
  obtain ⟨hc, hs⟩ := h.state ha
  rcases hk with hk | hk
  · exact hk hc
  · exact hs hk

/-- A move without marks keeps the call state. -/
theorem Settled.silent (h : k.Settled s on) {k' : Control} (hc : k'.Coherent)
    (hm : k'.marks = k.marks) (hs : k'.callState = k.callState) : k'.Settled s on :=
  ⟨hc, hm ▸ h.clean, by rw [hm, hs]; exact h.state⟩

/-- A move of a call that is not disconnected, or of an advancing step. -/
theorem Settled.live (h : k.Settled s on) {k' : Control} {ms : List Mark} (hc : k'.Coherent)
    (hm : k'.marks = k.marks ++ ms) (hk : k.callState ≠ .disconnected ∨ s = .advance)
    (hd : ∀ m ∈ ms, ¬ m.Disconnects) : k'.Settled s on := by
  obtain ⟨hl, ha⟩ := revival_off hd
  have ho := h.off hk
  refine ⟨hc, ?_, fun hx => ?_⟩
  · rw [hm, revival.clean_append, ho]
    exact ⟨h.clean, hl⟩
  · rw [hm, revival.after_append, ho, ha] at hx
    exact absurd hx (by decide)

/-- A neutral event in any state. -/
theorem Settled.neutral (h : k.Settled s on) {e : Event} (he : e.Neutral) :
    (k.marked [.event e]).Settled s on := by
  have hb : ¬ Mark.Revives (.event e) := by cases e <;> simp_all [Mark.Revives, Event.Neutral]
  have hn : ∀ x, revival.next x (.event e) = x := by
    intro x
    cases e <;> simp_all [Runs.Watch.next, revival, Mark.Disconnects, Event.Neutral]
  refine ⟨h.coherent.marked _, ?_, fun hx => h.state ?_⟩
  · exact (revival.clean_append _ _ _).mpr ⟨h.clean, fun _ => hb, trivial⟩
  · have ha := revival.after_append on k.marks [.event e]
    exact (hn _).symm.trans (ha.symm.trans hx)

/-- The channel becomes idle. -/
theorem Settled.reset (h : k.Settled s on) {k' : Control} (hc : k'.Coherent)
    (hm : k'.marks = k.marks ++ [.callState .idle]) : k'.Settled s on := by
  have hb : ¬ Mark.Revives (.callState .idle) := fun hx => hx.2 rfl
  refine ⟨hc, ?_, fun hx => ?_⟩
  · rw [hm]
    exact (revival.clean_append _ _ _).mpr ⟨h.clean, fun _ => hb, trivial⟩
  · rw [hm, revival.after_append] at hx
    exact absurd hx (by simp [Runs.Watch.after, Runs.Watch.next, revival])

/-- A disconnection is reported. -/
theorem Settled.report (h : k.Settled s on) (cause : DisconnectCause) (hs : s ≠ .advance)
    {k' : Control} (hc : k'.Coherent) (hd : k'.callState = .disconnected)
    (hm : k'.marks = k.marks ++ [.callState .disconnected, .event (.onCallDisconnect cause)]) :
    k'.Settled s on := by
  have hb : ¬ Mark.Revives (.callState .disconnected) := fun hx => hx.1 rfl
  refine ⟨hc, ?_, fun _ => ⟨hd, hs⟩⟩
  rw [hm]
  exact (revival.clean_append _ _ _).mpr ⟨h.clean, fun _ => hb, fun _ => id, trivial⟩

/-- What one move preserves. -/
theorem Settled.move {cx : R2Context} {sound : Prop} {k' : Control} (h : k.Settled s on)
    (hm : Move cx sound s k k') : k'.Settled s on := by
  have hc := h.coherent.move hm
  have hdead : k.direction ≠ .stopped ∨ k.callState ≠ .disconnected := by
    have hf := h.coherent.call
    cases hd : k.direction <;> cases hs : k.callState <;> simp_all [CallState.Fits]
  cases hm with
  | reset => exact h.reset hc rfl
  | block => exact h.reset hc rfl
  | notify e he => exact h.neutral he
  | incoming hr _ =>
    have hl := h.coherent.line
    refine h.live hc rfl (.inl (hdead.resolve_left fun hd => hd ?_)) (by simp [Mark.Disconnects])
    cases hd : k.direction <;> simp_all [CasState.Fits, CasState.Forward, CasState.Backward]
  | offer _ _ _ _ hk => exact h.live hc rfl (.inl (by simp [hk])) (by simp [Mark.Disconnects])
  | danceEnded hs => exact h.live hc rfl (.inr hs) (by simp [Mark.Disconnects])
  | accepted _ hs => exact h.live hc rfl (.inr hs) (by simp [Mark.Disconnects])
  | answer hk => exact h.live hc rfl (.inl (by simp [hk])) (by simp [Mark.Disconnects])
  | report cause hs => exact h.report cause hs hc rfl rfl
  | makeCall p n hk _ _ hn =>
    refine h.live hc rfl (.inl (by simp [hk])) fun m hm => ?_
    rcases List.mem_append.mp hm with hm | hm
    · obtain ⟨e, he, rfl⟩ := hn m hm
      cases e <;> simp_all [Mark.Disconnects, Event.Neutral]
    · rw [List.mem_singleton.mp hm]
      simp [Mark.Disconnects]
  | answered hs => exact h.live hc rfl (.inr hs) (by simp [Mark.Disconnects])
  | billing hs => exact h.live hc rfl (.inr hs) (by simp [Mark.Disconnects])
  | recover =>
    have hn := h.neutral (e := .onHardwareAlarm false) trivial
    exact hn.reset hc rfl
  | _ => exact h.silent hc rfl rfl

theorem Settled.moves {cx : R2Context} {sound : Prop} {k' : Control} (h : k.Settled s on)
    (hm : Relation.ReflTransGen (Move cx sound s) k k') : k'.Settled s on := by
  induction hm with
  | refl => exact h
  | tail _ hm ih => exact ih.move hm

end Control

section Runs

variable {cx : R2Context} {c : R2Chan}

/-- The callbacks do not call back, and no input lets a disconnected call advance. -/
def Calm (cx : R2Context) (c : R2Chan) (t : Tick) : Prop :=
  t.env.Quiet ∧ (c.callState = .disconnected → ¬ advances cx t.env t.input c)

/-- What is known between two steps, while a report is in force or not. -/
def Rests (on : Bool) (c : R2Chan) : Prop :=
  c.control.Coherent ∧ (on = true → c.callState = .disconnected)

theorem step_rests (hm : cx.Mfc) (on : Bool) (c : R2Chan) (t : Tick) (ht : Calm cx c t)
    (h : Rests on c) :
    (revival.comap Act.mark?).Clean on (tick cx c t).2 ∧
      Rests ((revival.comap Act.mark?).after on (tick cx c t).2) (tick cx c t).1 := by
  obtain ⟨hc, hs⟩ := h
  have h0 : c.start.control.Settled (stimulus cx t.env t.input c) on := by
    refine ⟨start_coherent hc, trivial, fun ho => ⟨hs ho, ?_⟩⟩
    unfold stimulus
    rw [if_neg (ht.2 (hs ho))]
    split_ifs <;> decide
  have h1 := h0.moves (step_goes hm ht.1 t.input hc.timers)
  rw [revival.comap_clean, revival.comap_after]
  exact ⟨h1.clean, h1.coherent, fun ho => (h1.state ho).1⟩

/-- A call that is reported as disconnected stays so until the channel is idle, in
every run without an input that lets a disconnected call advance. -/
theorem disconnected_stays (hm : cx.Mfc) (hc : Started cx c) (ts : List Tick)
    (ht : Runs.Along (tick cx) (Calm cx) ts c) (pre mid : List Act) (cause : DisconnectCause)
    (ho : (run cx ts c).2 = pre ++ .event (.onCallDisconnect cause) :: mid)
    (hi : .callState .idle ∉ mid) :
    (run cx ts c).1.callState = .disconnected ∧
      ∀ m ∈ mid.filterMap Act.mark?, ¬ m.Revives := by
  let w := revival.comap Act.mark?
  have h := w.exec_clean (f := tick cx) (P := Rests) (step_rests hm) ts false c ht
    ⟨started_coherent hc, by simp⟩
  have hn : ∀ b ∈ mid, ¬ w.stop b := by
    rintro b hb ⟨m, hm, rfl⟩
    cases b <;> simp_all [Act.mark?]
  have hbetween := w.clean_between (a := .event (.onCallDisconnect cause)) (ho ▸ h.1)
    ⟨_, rfl, trivial⟩ (by rintro ⟨m, hm, rfl⟩; cases hm) hn
  refine ⟨h.2.2 ?_, fun m hm hr => ?_⟩
  · change w.after false (run cx ts c).2 = true
    rw [ho]
    exact hbetween.2
  · obtain ⟨a, ha, hma⟩ := List.mem_filterMap.mp hm
    exact hbetween.1 a ha ⟨m, hma, hr⟩

/-- The caller clears while the number is being collected. -/
theorem disconnected_stays_cleared :
    let cx := configureItu 10 10 R2Context.zero
    let c := (setIdle cx (Env.fair 0x9) R2Chan.new).1
    let ts : List Tick :=
      [⟨Env.fair 0x9, .cas⟩, ⟨Env.fair 0x1, .cas⟩, ⟨Env.fair 0x1, .mfTone Tone.t5⟩,
       ⟨Env.fair 0x9, .cas⟩, ⟨Env.fair 0x9, .mfTone 0⟩]
    (run cx ts c).1.callState = .disconnected ∧
      ∀ m ∈ ((run cx ts c).2.drop 16).filterMap Act.mark?, ¬ m.Revives := by
  intro cx c ts
  have ht : Runs.Along (tick cx) (Calm cx) ts c :=
    ⟨⟨fun _ => rfl, by decide⟩, ⟨fun _ => rfl, by decide⟩, ⟨fun _ => rfl, by decide⟩,
      ⟨fun _ => rfl, by decide⟩, ⟨fun _ => rfl, by decide⟩, trivial⟩
  exact disconnected_stays ⟨rfl, rfl⟩ (.idle _ _) ts ht ((run cx ts c).2.take 15) _
    .normalClearing (by decide) (by decide)

/-- An outgoing call that is accepted, and answered only after its answer timer. -/
def lateAnswer : List Tick :=
  [⟨Env.fair 0x9, .cas⟩,
   ⟨Env.fair 0x9, .api (.makeCall none [Tone.t5] .nationalSubscriber false)⟩,
   ⟨Env.fair 0xD, .cas⟩, ⟨Env.fair 0xD, .mfTone Tone.t6⟩, ⟨Env.fair 0xD, .mfTone 0⟩,
   ⟨Env.fair 0xD, .timer 3⟩, ⟨Env.fair 0x5, .cas⟩]

/-- The answer revives the call that was reported as disconnected. -/
theorem late_answer_revives :
    ¬ ∀ (cx : R2Context) (c : R2Chan) (ts : List Tick) (pre mid : List Act)
        (cause : DisconnectCause), cx.Mfc → Started cx c → QuietRun ts →
      (run cx ts c).2 = pre ++ .event (.onCallDisconnect cause) :: mid →
      .callState .idle ∉ mid →
      (run cx ts c).1.callState = .disconnected ∧
        ∀ m ∈ mid.filterMap Act.mark?, ¬ m.Revives := by
  intro h
  let cx := configureItu 10 10 R2Context.zero
  let c := (setIdle cx (Env.fair 0x9) R2Chan.new).1
  have hq : QuietRun lateAnswer := by
    intro t ht
    simp only [lateAnswer, List.mem_cons, List.not_mem_nil, or_false] at ht
    rcases ht with rfl | rfl | rfl | rfl | rfl | rfl | rfl <;> exact fun _ => rfl
  have hd := h cx c lateAnswer ((run cx lateAnswer c).2.take 17)
    ((run cx lateAnswer c).2.drop 18) .noAnswer ⟨rfl, rfl⟩ (.idle _ _) hq (by decide)
    (by decide)
  exact absurd hd.1 (by decide)

end Runs

end OpenR2
