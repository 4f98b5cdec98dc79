import OpenR2.Proofs.MfHandles

namespace OpenR2

open Handles (Ledger)

section Entry

variable {cx : R2Context} {env : Env} {keeps : Bool} {b : Books} {c d : R2Chan}

theorem R2Chan.Polled.handles (h : c.Polled d) :
    d.mfWriteHandle = c.mfWriteHandle ∧ d.mfReadHandle = c.mfReadHandle := by
  obtain ⟨⟨raw, p, hf⟩, -⟩ := h
  rw [hf]
  exact ⟨rfl, rfl⟩

/-- The channel with which a step reads the line has the handles that it had before. -/
theorem casEntry_handles {i : Input} (hi : ∀ on, i ≠ .alarm on) (h : casEntry cx env i c = some d) :
    d.mfWriteHandle = c.mfWriteHandle ∧ d.mfReadHandle = c.mfReadHandle := by
  cases i with
  | cas =>
    obtain rfl := Option.some.inj h
    exact ⟨rfl, rfl⟩
  | timer id =>
    simp only [casEntry, checkEntry] at h
    split at h
    · cases h
    split_ifs at h
    split at h
    · cases h
    split_ifs at h
    obtain rfl := Option.some.inj h
    exact (ioGetCas_polled env _).handles
  | alarm on => exact absurd rfl (hi on)
  | mfTone tone => cases h
  | api a => cases h

theorem R2Chan.Renews.same (h : c.Renews keeps env) (hw : d.mfWriteHandle = c.mfWriteHandle)
    (hr : d.mfReadHandle = c.mfReadHandle) : d.Renews keeps env :=
  ⟨fun as => hw ▸ h.write as, fun as => hr ▸ h.read as⟩

/-- An acknowledgement that the step acts on finds what was known before the step. -/
theorem readMay_handles {i : Input} (hi : ∀ on, i ≠ .alarm on) (h : casEntry cx env i c = some d)
    (ha : c.r2State = .seizeTxd → switched cx env i c = some (cx.casSignals .seizeAck) →
      c.Renews keeps env) : ReadMay cx env (handlesMay cx keeps env b) d := by
  obtain ⟨hr, -⟩ := casEntry_polls hi h
  obtain ⟨hw, hx⟩ := casEntry_handles hi h
  have hp := casPattern_polled cx env d
  obtain ⟨hpw, hpr⟩ := hp.handles
  obtain ⟨⟨raw, p, hf⟩, -⟩ := hp
  intro cas hc hn
  refine ⟨fun hs hcas _ => ?_, fun _ _ _ => trivial⟩
  refine (ha ?_ ?_).same (hpw.trans hw) (hpr.trans hx)
  · rw [← hr, ← hs, hf]
    rfl
  · rw [switched, h]
    simp only [hn, Bool.false_eq_true, if_false]
    rw [hc, hcas]

end Entry

section Steps

variable {cx : R2Context} {env : Env} {keeps : Bool} {b : Books} {c d : R2Chan} {t : Tick}

theorem Atoms.stocked (hm : cx.Mfc) (ha : Atoms cx env (handlesMay cx keeps env b) c d)
    (h : c.Stocked keeps env b) : d.Stocked keeps env b := by
  induction ha with
  | refl => exact h
  | tail _ ha ih => exact ha.stocked hm ih

/-- Whatever the user calls within a step finds the handles as they should be. -/
theorem R2Chan.Stocked.permits (h : c.Stocked keeps env b) (hm : cx.Mfc) (hd : DigitsHarmless cx env) :
    Permits cx env (handlesMay cx keeps env b) c := by
  intro d a ha hr
  refine ⟨fun hx => (ha.stocked hm h).engine (.inl hx), ?_⟩
  rcases hd with hn | hx
  · exact .inl hn
  · refine .inr fun as e he ho => ?_
    rw [ho] at hr ⊢
    exact hx as e a he hr

/-- One step keeps the handles, where the acknowledgement and the digits are taken up with care. -/
theorem step_stocked (hm : cx.Mfc) (hg : c.Grounded) (h : c.start.Stocked keeps t.env b)
    (hc : Careful cx keeps c t) : (step cx t.env t.input c).Stocked keeps t.env b := by
  have hp := h.permits hm hc.digits
  have hr : ∀ d, (∀ on, t.input ≠ .alarm on) → casEntry cx t.env t.input c = some d →
      ReadMay cx t.env (handlesMay cx keeps t.env b) d := fun d hi hd =>
    readMay_handles hi hd fun hs hw => hc.ack ⟨hs, hi, hw⟩
  have ha : ∀ a, handlesMay cx keeps t.env b (.call a) c.start := fun a =>
    ⟨fun hx => h.engine (.inl hx), .inr fun as e _ ho => absurd (congrArg List.length ho) (by simp [R2Chan.start])⟩
  exact Atoms.stocked hm (step_atoms hp (fun a _ => ha a) (fun hi d hd => hr d hi hd)
    (fun hx => absurd hx h.undialled) hg.live hg.trusts) h

end Steps

section Runs

variable {cx : R2Context} {keeps : Bool} {c : R2Chan}

/-- What is known of the channel and its books between two steps. -/
structure WellKept (keeps : Bool) (s : R2Chan × Books) : Prop where
  grounded : s.1.Grounded
  engine : s.1.mfState ≠ .offState ∨ s.1.callState = .offered → s.1.Equips s.2
  write : s.2.write.Safe s.1.mfWriteHandle
  read : s.2.read.Safe s.1.mfReadHandle
  called : s.1.Called
  undialled : .startDialingDtmf ∉ s.1.pending

theorem WellKept.usable {s : R2Chan × Books} (h : WellKept keeps s) : s.1.EngineUsable s.2 :=
  ⟨fun hx => h.engine (.inl hx), h.write, h.read⟩

/-- A step starts with clean acts, so that the books are those kept so far. -/
theorem WellKept.start {s : R2Chan × Books} (h : WellKept keeps s) (env : Env) :
    s.1.start.Stocked keeps env s.2 := by
  have hb : s.2.after keeps env s.1.start.out = s.2 := rfl
  exact ⟨fun hx => hb ▸ ⟨(h.engine hx).write, (h.engine hx).read⟩, ⟨h.write, h.read⟩, h.called,
    h.undialled⟩

theorem bookedTick_wellKept (hm : cx.Mfc) {s : R2Chan × Books} {t : Tick} (hc : Careful cx keeps s.1 t)
    (h : WellKept keeps s) : WellKept keeps (bookedTick cx keeps s t).1 := by
  obtain ⟨he, hs, hk, hu⟩ := step_stocked hm h.grounded (h.start t.env) hc
  exact ⟨tick_grounded h.grounded t, he, hs.write, hs.read, hk, hu⟩

/-- A channel on which nothing was called yet, whatever handles it has. -/
theorem started_wellKept (h : Started cx c) : WellKept keeps (c, Books.opened) := by
  have hr : c.mfState = .offState ∧ c.callState = .idle ∧ c.pending = [] := by
    cases h with
    | idle env c =>
      obtain ⟨⟨rx, r, w, x, y, hf⟩, -⟩ := protoInit_reset cx c
      have hs := setCasSignal_frame cx env (protoInit cx c) .idle
      refine ⟨(congrArg Frame.mfState hs).trans ?_, (congrArg Frame.callState hs).trans ?_,
        (congrArg (fun f => f.timers.pending) hs).trans ?_⟩
      all_goals
        rw [hf]
        rfl
    | blocked env c =>
      obtain ⟨⟨rx, r, w, x, y, hf⟩, -⟩ := protoInit_reset cx c
      have hs := setCasSignal_frame cx env ((protoInit cx c).setR2State .blocked) .block
      refine ⟨(congrArg Frame.mfState hs).trans ?_, (congrArg Frame.callState hs).trans ?_,
        (congrArg (fun f => f.timers.pending) hs).trans ?_⟩
      all_goals
        rw [hf]
        rfl
  obtain ⟨hm, hc, hp⟩ := hr
  refine ⟨started_grounded h, fun hx => ?_, Ledger.safe_opened _, Ledger.safe_opened _, fun hx => ?_, ?_⟩
  · exact hx.elim (fun hx => absurd hm hx) fun hx => absurd (hc.symm.trans hx) nofun
  · exact hx.elim (fun hx => absurd (hc.symm.trans hx) nofun) fun hx => absurd (hc.symm.trans hx) nofun
  · rw [hp]
    exact List.not_mem_nil

/-- In every run in which the handles of an outgoing call can be renewed when its seize is
acknowledged, and no digit callback ends a call whose handles are disposed of, the engine
can be used whenever it is on, and no disposed handle is used. -/
theorem engine_usable (hm : cx.Mfc) (hc : Started cx c) (ts : List Tick)
    (ht : Runs.Along (bookedTick cx keeps) (fun s t => Careful cx keeps s.1 t) ts (c, Books.opened)) :
    ∀ js, js <+: ts →
      let s := (Runs.exec (bookedTick cx keeps) js (c, Books.opened)).1
      s.1.EngineUsable s.2 := by
  rintro js ⟨us, rfl⟩
  exact (Runs.exec_invariant (P := WellKept keeps) (fun _ _ hs h => bookedTick_wellKept hm hs h) js _
    ht.append.1 (started_wellKept hc)).usable

end Runs

/-- A call comes in and ends, and the next one goes out on the same handles. -/
def inThenOut : List Tick := [⟨Env.fair 0x9, .cas⟩, ⟨Env.fair 0x1, .cas⟩, ⟨Env.fair 0x1, .mfTone Tone.t5⟩,
  ⟨Env.fair 0x9, .cas⟩, ⟨Env.fair 0x9, .api (.disconnectCall .normalClearing)⟩, ⟨Env.fair 0x9, .cas⟩,
  ⟨Env.fair 0x9, .api (.makeCall none [Tone.t5] .nationalSubscriber false)⟩, ⟨Env.fair 0xD, .cas⟩]

theorem engine_usable_out :
    let cx := configureItu 10 4 R2Context.zero
    let s := (Runs.exec (bookedTick cx false) inThenOut ((setIdle cx (Env.fair 0x9) R2Chan.new).1, Books.opened)).1
    s.1.mfState = .dnisTxd ∧ s.1.EngineUsable s.2 := by
  refine ⟨by decide +kernel, engine_usable (by constructor <;> rfl) (.idle _ _) inThenOut ?_ _ (List.prefix_refl _)⟩
  refine Runs.along_iff.mpr (Runs.steps_iff.mpr fun n hn => ⟨fun ha => ?_, .inl ⟨rfl, rfl⟩⟩)
  -- only the last step takes up an acknowledgement
  have hs : ∀ n (hn : n < inThenOut.length),
      (Runs.exec (bookedTick (configureItu 10 4 R2Context.zero) false) (inThenOut.take n)
        ((setIdle (configureItu 10 4 R2Context.zero) (Env.fair 0x9) R2Chan.new).1, Books.opened)).1.1.r2State =
          .seizeTxd → n = 7 := by decide +kernel
  obtain rfl := hs n hn ha.1
  refine ⟨fun _ => ⟨0, 0, ?_, rfl, .inr rfl⟩, fun _ => ⟨1, 1, ?_, rfl, .inr rfl⟩⟩
  · decide +kernel
  · decide +kernel

end OpenR2
