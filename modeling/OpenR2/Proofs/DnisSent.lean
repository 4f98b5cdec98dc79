import Mathlib.Data.List.GetD
import OpenR2.Proofs.DnisCursor

namespace OpenR2

section Sized

variable {cx : R2Context} {env : Env} {c d : R2Chan}

/-- The DNIS array has its size. -/
def R2Chan.Sized (c : R2Chan) : Prop := c.dnis.length = maxDnisBuffer

theorem R2Chan.Sized.reset (hc : c.Sized) (h : c.Reset d) : d.Sized := by
  obtain ⟨⟨rx, r, w, x, y, hf⟩, -⟩ := h
  have hd : d.dnis = c.dnis.set 0 0 := by
    rw [hf]
  rw [R2Chan.Sized, hd, List.length_set]
  exact hc

theorem R2Chan.Sized.numbers (hc : c.Sized) (h : d.numbers = c.numbers) : d.Sized :=
  (congrArg (fun n : Numbers => n.dnis.length) h).trans hc

theorem handleProtocolError_sized (reason : ProtocolError) (hc : c.Sized) :
    (handleProtocolError cx env reason c).Sized := by
  have hr : (protoInit cx (c.did (.mfSelectTone c.mfWriteHandle 0))).Sized :=
    R2Chan.Sized.reset (c := c.did (.mfSelectTone c.mfWriteHandle 0)) hc (protoInit_reset cx _)
  exact hr

theorem keepNumbers_sized (ani : Option (List Tone)) (dnis : List Tone) (category : Category)
    (restricted : Bool) (hc : c.Sized) : (keepNumbers cx ani dnis category restricted c).Sized := by
  simp only [R2Chan.Sized, keepNumbers]
  split_ifs
  · exact strncpy80_length dnis
  · rw [List.length_set]
    exact hc

theorem Turn.sized {ways : Direction → Prop} (h : Turn cx env ways c d) (hc : c.Sized) : d.Sized := by
  cases h with
  | aside _ h => exact hc.numbers h.numbers
  | reset _ h => exact hc.reset h
  | seize _ _ h => exact hc.numbers h.numbers
  | place _ h =>
    obtain ⟨ani, dnis, category, restricted, hn⟩ := h.numbers
    exact (keepNumbers_sized ani dnis category restricted hc).numbers hn
  | dial =>
    rcases mfSendDnis_answers cx env ((c.setR2State .seizeAckRxd).setMfGroup .gi) 0 with
      h | ⟨e, reason, h, he⟩
    · exact (congrArg List.length h.dnis).trans hc
    · rw [he]
      exact handleProtocolError_sized reason ((congrArg List.length h.dnis).trans hc)
  | send _ _ h => exact (congrArg List.length h.dnis).trans hc
  | collect _ _ h => exact h.dnisSize.trans hc

theorem tick_sized (hc : c.Sized) (t : Tick) : (tick cx c t).1.Sized := by
  refine tick_closed cx c t hc (fun h hc => h.sized hc) (fun _ hc => hc) fun {e} tone hc => ?_
  obtain ⟨x, n, as, he, -⟩ := checkThreshold_frame cx t.env tone e
  rw [he]
  exact hc

theorem run_sized (hc : c.Sized) (ts : List Tick) : (run cx ts c).1.Sized :=
  Runs.exec_invariant (P := fun c => c.Sized) (fun _ t _ hc => tick_sized hc t) ts c (.always (fun _ _ => trivial) ts c) hc

end Sized

/-- The next digit is asked for where there is none: behind the array, or where a number that
is not to be sent leaves what an earlier call has put there. -/
def AsksAstray (cx : R2Context) (dnis : List Tone) (c : R2Chan) (t : Tick) : Prop :=
  (∃ g, AsksFor cx c t (.dnis 1 g)) ∧ (maxDnisBuffer ≤ c.dnisIndex + 1 ∨
    (cstr dnis).all Tone.isDigit = false ∧ c.dnis.getD (c.dnisIndex + 1) 0 ≠ 0)

/-- A tone goes out as a digit of the DNIS that is none of the number's. -/
def SendsAstray (cx : R2Context) (dnis : List Tone) (c : R2Chan) (t : Tick) : Prop :=
  (tick cx c t).1.mfState = .dnisTxd ∧ .callState .idle ∉ (tick cx c t).2 ∧
    ∃ h tone, .mfSelectTone h tone ∈ (tick cx c t).2 ∧ tone ≠ 0 ∧
      ¬ ((cstr dnis).all Tone.isDigit = true ∧ tone ∈ cstr dnis)

/-- An outgoing call that has come by no byte but those of its number. -/
structure R2Chan.OnTrack (dnis : List Tone) (c : R2Chan) : Prop where
  placed : c.Placed
  sized : c.Sized
  index : c.dnisIndex < maxDnisBuffer
  copied : (cstr dnis).all Tone.isDigit = true → c.dnis = strncpy80 dnis
  blank : (cstr dnis).all Tone.isDigit = false → ∀ j ≤ c.dnisIndex, c.dnis.getD j 0 = 0

section Astray

variable {cx : R2Context} {dnis : List Tone} {c : R2Chan} {t : Tick}

theorem mem_strncpy80 {tone : Tone} (h : tone ∈ strncpy80 dnis) (h0 : tone ≠ 0) : tone ∈ cstr dnis := by
  simp only [strncpy80, List.mem_append] at h
  rcases h with h | h
  · exact List.mem_of_mem_take h
  · exact absurd (List.eq_of_mem_replicate h) h0

theorem R2Chan.OnTrack.byte (h : c.OnTrack dnis) (env : Env) {i : Nat} (hi : i < maxDnisBuffer)
    (hb : (cstr dnis).all Tone.isDigit = false → c.dnis.getD i 0 = 0)
    (h0 : c.dnis.getD i (env.pastDnis i) ≠ 0) : (cstr dnis).all Tone.isDigit = true ∧
      c.dnis.getD i (env.pastDnis i) ∈ cstr dnis := by
  have hl : i < c.dnis.length := by
    rw [h.sized]
    exact hi
  rw [List.getD_eq_getElem _ _ hl] at h0 ⊢
  cases hn : (cstr dnis).all Tone.isDigit with
  | false =>
    have hz := hb hn
    rw [List.getD_eq_getElem _ _ hl] at hz
    exact absurd hz h0
  | true =>
    refine ⟨rfl, mem_strncpy80 ?_ h0⟩
    rw [← h.copied hn]
    exact List.getElem_mem hl

/-- A request that is not astray takes the index to a byte of the number, or to its end. -/
theorem R2Chan.OnTrack.cursor (h : c.OnTrack dnis) (hn : ¬ AsksAstray cx dnis c t) {offset : Int}
    {g : MfGroup} (hask : AsksFor cx c t (.dnis offset g)) : cursor offset c.dnisIndex < maxDnisBuffer ∧
      ((cstr dnis).all Tone.isDigit = false → ∀ j ≤ OpenR2.cursor offset c.dnisIndex,
        c.dnis.getD j 0 = 0) := by
  obtain ⟨tone, -, hr⟩ := id hask
  by_cases h1 : offset = 1
  · subst h1
    have hc : OpenR2.cursor 1 c.dnisIndex = c.dnisIndex + 1 := rfl
    have hx := not_and.mp hn ⟨g, hask⟩
    simp only [not_or, not_le, not_and, not_not] at hx
    rw [hc]
    refine ⟨hx.1, fun hd j hj => ?_⟩
    rcases Nat.lt_or_eq_of_le hj with hj | rfl
    · exact h.blank hd j (Nat.le_of_lt_succ hj)
    · exact hx.2 hd
  · have hle : OpenR2.cursor offset c.dnisIndex ≤ c.dnisIndex :=
      cursor_le (c.request_dnis cx hr).2 (Nat.le_refl _) fun hx => absurd hx h1
    exact ⟨hle.trans_lt h.index, fun hd j hj => h.blank hd j (hj.trans hle)⟩

theorem R2Chan.OnTrack.keeps (h : c.OnTrack dnis) {d : R2Chan} (hp : d.Placed) (hd : d.dnis = c.dnis)
    (hi : d.dnisIndex < maxDnisBuffer)
    (hb : (cstr dnis).all Tone.isDigit = false → ∀ j ≤ d.dnisIndex, c.dnis.getD j 0 = 0) :
    d.OnTrack dnis :=
  ⟨hp, (congrArg List.length hd).trans h.sized, hi, fun hx => hd.trans (h.copied hx), hd ▸ hb⟩

theorem tick_onTrack (h : c.OnTrack dnis) (hn : ¬ AsksAstray cx dnis c t) :
    ¬ SendsAstray cx dnis c t ∧ ((∃ a ∈ (tick cx c t).2, a = .callState .idle) ∨
      (tick cx c t).1.OnTrack dnis) := by
  have herr := @tick_errand cx c t h.placed
  have hit : ∀ i, (i = c.dnisIndex ∨ ∃ offset g, AsksFor cx c t (.dnis offset g) ∧
      i = OpenR2.cursor offset c.dnisIndex) → i < maxDnisBuffer ∧
        ((cstr dnis).all Tone.isDigit = false → ∀ j ≤ i, c.dnis.getD j 0 = 0) := by
    rintro i (rfl | ⟨offset, g, hask, rfl⟩)
    · exact ⟨h.index, h.blank⟩
    · exact h.cursor hn hask
  refine ⟨?_, ?_⟩
  swap
  · obtain ⟨i, hi, -, hx⟩ := herr.index
    refine hx.imp_right fun ⟨hp, hd, hdi, _⟩ => h.keeps hp hd ?_ ?_
    · rw [hdi]
      exact (hit i hi).1
    · rw [hdi]
      exact (hit i hi).2
  rintro ⟨hm, hl, x, tone, hs, h0, hbad⟩
  have ho : (tick cx c t).2 = (tick cx c t).1.out := rfl
  rw [ho] at hl hs
  generalize (tick cx c t).1 = d at herr hm hl hs
  have hnil : c.start.out = [] := rfl
  cases herr with
  | bears hb =>
    obtain ⟨-, -, -, -, as, hd, ha⟩ := hb
    rw [hd, hnil, List.nil_append] at hs
    exact h0 (ha _ hs)
  | fades hf =>
    obtain ⟨as, bs, hd, -⟩ := hf
    exact hl (by rw [hd]; simp)
  | tells ht =>
    cases ht with
    | said _ _ _ _ _ _ hne => exact hne hm
    | isOver as bs hd => exact hl (by rw [hd]; simp)
  | spells i k hi hk hsp =>
    obtain ⟨-, outbox, -, -, pre, hd, hp⟩ := hk
    have hk : k.dnisByte t.env = c.dnis.getD i (t.env.pastDnis i) := by
      rw [R2Chan.dnisByte, show k.dnis = c.dnis from congrArg Outbox.dnis outbox,
        show k.dnisIndex = i from congrArg Outbox.dnisIndex outbox]
    cases hsp with
    | said tone' as hd' ha _ _ _ htells =>
      rw [hd', hd] at hs
      simp only [List.mem_append, List.mem_cons, reduceCtorEq, false_or] at hs
      rcases hs with (hs | hs) | hs
      · exact List.not_mem_nil hs
      · exact h0 (hp _ hs)
      · rcases ha _ hs with hx | ⟨_, hx⟩
        · exact h0 hx
        · injection hx with _ hx
          rw [hx, htells hm, hk] at h0 hbad
          exact hbad (h.byte t.env (hit i hi).1 (fun hb => (hit i hi).2 hb i (Nat.le_refl i)) h0)
    | isOver tone' as bs hd' => exact hl (by rw [hd']; simp)

theorem CallPlaced.onTrack (hm : cx.dialWithDtmf = false) {env : Env} (hc : c.Sized)
    {ani : Option (List Tone)} {category : Category} {restricted : Bool}
    (h : (makeCall cx env ani dnis category restricted c).2 = 0) :
    (makeCall cx env ani dnis category restricted c).1.OnTrack dnis := by
  obtain ⟨placed, outbox⟩ := makeCall_placed hm h
  have hd : (makeCall cx env ani dnis category restricted c).1.dnis =
      (keepNumbers cx ani dnis category restricted c).dnis := congrArg Outbox.dnis outbox
  have hi : (makeCall cx env ani dnis category restricted c).1.dnisIndex = 0 :=
    congrArg Outbox.dnisIndex outbox
  refine ⟨placed, (congrArg List.length hd).trans (keepNumbers_sized ani dnis category restricted hc), ?_,
    fun hx => hd.trans (if_pos hx), fun hx j hj => ?_⟩
  · rw [hi]
    decide
  · rw [hi, Nat.le_zero] at hj
    subst hj
    rw [hd, show (keepNumbers cx ani dnis category restricted c).dnis = c.dnis.set 0 0 from
      if_neg (by simp [hx])]
    cases c.dnis <;> rfl

/-- Whatever has been on the channel, only the digits of the number go out for it, as long as no
digit is asked for astray. -/
theorem dnis_sent (hm : cx.dialWithDtmf = false) (history : List Tick) {env : Env}
    {ani : Option (List Tone)} {category : Category} {restricted : Bool}
    (h : (makeCall cx env ani dnis category restricted (run cx history R2Chan.new).1.start).2 = 0)
    {ts : List Tick} :
    let d := (makeCall cx env ani dnis category restricted (run cx history R2Chan.new).1.start).1
    (∀ js t, js ++ [t] <+: ts → Live cx js d → ¬ AsksAstray cx dnis (run cx js d).1 t) →
      ∀ js t, js ++ [t] <+: ts → Live cx js d → ¬ SendsAstray cx dnis (run cx js d).1 t := by
  intro d hn js t hj hl
  have hz : (run cx history R2Chan.new).1.Sized :=
    run_sized (show R2Chan.new.Sized from List.length_replicate) history
  have hp : (run cx js d).1.OnTrack dnis := by
    refine Runs.exec_while (f := tick cx) (P := fun c => c.OnTrack dnis) (· = Act.callState .idle)
      (AsksAstray cx dnis) (fun _ _ h hx => (tick_onTrack h hx).2) js d
      (CallPlaced.onTrack (c := (run cx history R2Chan.new).1.start) hm hz h) (fun ks u hk => hn ks u ?_) hl
    exact hk.trans ((List.prefix_append js [t]).trans hj)
  exact (tick_onTrack hp (hn js t hj hl)).1

end Astray

/-- A channel is set idle, and calls this number. -/
def callTicks (dnis : List Tone) : List Tick :=
  [⟨Env.fair 0x9, .api .setIdle⟩, ⟨Env.fair 0x9, .cas⟩,
    ⟨Env.fair 0x9, .api (.makeCall none dnis .nationalSubscriber false)⟩]

/-- A channel that has called one number and calls another. -/
def recallingChannel (cx : R2Context) (before dnis : List Tone) : R2Chan :=
  (makeCall cx (Env.fair 0x9) none dnis .nationalSubscriber false
    (run cx (callTicks before ++ [⟨Env.fair 0x9, .api .setIdle⟩]) R2Chan.new).1.start).1

/-- The digits of a number that is asked for after another one has been called. -/
theorem dnis_sent_itu :
    let d := recallingChannel (configureItu 10 4 R2Context.zero) [Tone.t1, Tone.t2] [Tone.t5, Tone.t6]
    ∀ js t, js ++ [t] <+: [seizeAckTick] → Live (configureItu 10 4 R2Context.zero) js d →
      ¬ SendsAstray (configureItu 10 4 R2Context.zero) [Tone.t5, Tone.t6]
        (run (configureItu 10 4 R2Context.zero) js d).1 t := by
  refine dnis_sent rfl _ (by decide +kernel) fun js t hj _ hn => ?_
  obtain ⟨⟨g, tone, hask, -⟩, -⟩ := hn
  cases js with
  | nil =>
    obtain rfl : t = seizeAckTick := by simpa using hj
    exact absurd hask.1 nofun
  | cons u js =>
    have hlen := hj.length_le
    simp at hlen

/-- A digit of the call before goes out for a number that is not to be sent. -/
theorem dnis_of_call_before :
    ¬ ∀ (cx : R2Context) (history : List Tick) (env : Env) (ani : Option (List Tone)) (dnis : List Tone)
      (category : Category) (restricted : Bool) (ts : List Tick), cx.Mfc →
      (makeCall cx env ani dnis category restricted (run cx history R2Chan.new).1.start).2 = 0 →
        let d := (makeCall cx env ani dnis category restricted (run cx history R2Chan.new).1.start).1
        ∀ js t, js ++ [t] <+: ts → Live cx js d → ¬ SendsAstray cx dnis (run cx js d).1 t := by
  intro h
  let cx := configureItu 10 4 R2Context.zero
  let history := callTicks [Tone.t1, Tone.t2] ++ [⟨Env.fair 0x9, .api .setIdle⟩]
  let js : List Tick := [seizeAckTick, ⟨Env.fair 0xD, .mfTone Tone.t1⟩]
  let t : Tick := ⟨Env.fair 0xD, .mfTone 0⟩
  refine h cx history (Env.fair 0x9) none [Tone.t5, 0x2A] .nationalSubscriber false (js ++ [t])
    ⟨by decide, by decide⟩ (by decide +kernel) js t (List.prefix_refl _) (by decide +kernel)
    ⟨by decide +kernel, by decide +kernel, some 0, Tone.t2, by decide +kernel, by decide, ?_⟩
  exact fun hx => absurd hx.1 (by decide)

end OpenR2
