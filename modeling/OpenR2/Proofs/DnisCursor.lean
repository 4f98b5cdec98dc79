import OpenR2.Proofs.OutgoingSteps

namespace OpenR2

/-- What is left of a number in the buffer. -/
theorem cstr_strncpy80 (s : List Tone) : cstr (strncpy80 s) = (cstr s).take 79 := by
  have hz : ∀ a ∈ (cstr s).take 79, decide (a ≠ 0) = true := by
    intro a ha
    have hm : a ∈ cstr s := List.mem_of_mem_take ha
    exact List.mem_takeWhile_imp (p := fun t => t ≠ 0) hm
  simp only [strncpy80]
  generalize (cstr s).take 79 = l at hz
  rw [cstr, List.takeWhile_append_of_pos hz]
  cases h : 80 - l.length with
  | zero => simp
  | succ n => simp [List.replicate_succ]

theorem strncpy80_length (s : List Tone) : (strncpy80 s).length = 80 := by
  simp only [strncpy80, List.length_append, List.length_replicate, List.length_take]
  omega

/-- The next digit is asked for when the index is at the end of the number. -/
def AsksBeyond (cx : R2Context) (c : R2Chan) (t : Tick) : Prop :=
  (∃ g, AsksFor cx c t (.dnis 1 g)) ∧ c.dnisIndex = (cstr c.dnis).length

/-- A byte is read that is not of the number, and is not its end. -/
def ReadsBeyond (cx : R2Context) (dnis : List Tone) (c : R2Chan) (t : Tick) : Prop :=
  ∃ i, .readDnis i ∈ untilIdle (tick cx c t).2 ∧
    ¬ (i ≤ (cstr dnis).length ∧ i < maxDnisBuffer)

section Cursor

variable {cx : R2Context} {dnis : List Tone} {c : R2Chan} {t : Tick}

/-- An outgoing call whose index is in its number. -/
structure R2Chan.Inside (dnis : List Tone) (c : R2Chan) : Prop where
  placed : c.Placed
  dnis : c.dnis = strncpy80 dnis
  index : c.dnisIndex ≤ (cstr c.dnis).length

theorem R2Chan.Inside.bound (h : c.Inside dnis) {i : Nat} :
    i ≤ (cstr c.dnis).length ↔ i ≤ (cstr dnis).length ∧ i < maxDnisBuffer := by
  rw [h.dnis, cstr_strncpy80, List.length_take, maxDnisBuffer]
  omega

/-- Where a request of the called side takes the index. -/
theorem cursor_le {offset : Int} {i n : Nat}
    (ho : offset = 1 ∨ offset = -1 ∨ offset = -2 ∨ offset = -3 ∨ offset = 0) (hi : i ≤ n)
    (hn : offset = 1 → i ≠ n) : cursor offset i ≤ n := by
  simp only [cursor]
  split_ifs with h0
  · exact Nat.zero_le n
  · rcases ho with rfl | rfl | rfl | rfl | rfl
    · have := hn rfl
      omega
    all_goals omega

theorem tick_inside (h : c.Inside dnis) (hn : ¬ AsksBeyond cx c t) :
    ¬ ReadsBeyond cx dnis c t ∧ ((∃ a ∈ (tick cx c t).2, a = .callState .idle) ∨
      (tick cx c t).1.Inside dnis) := by
  obtain ⟨i, hi, hr, hx⟩ := (@tick_errand cx c t h.placed).index
  have hle : i ≤ (cstr c.dnis).length := by
    rcases hi with rfl | ⟨offset, g, hask, rfl⟩
    · exact h.index
    · obtain ⟨tone, -, hreq⟩ := id hask
      exact cursor_le (c.request_dnis cx hreq).2 h.index fun h1 hx => hn ⟨⟨g, h1 ▸ hask⟩, hx⟩
  refine ⟨fun ⟨j, hm, hj⟩ => hj ?_, hx.imp_right fun ⟨hp, hd, hi, _⟩ => ⟨hp, hd.trans h.dnis, ?_⟩⟩
  · rw [hr j hm]
    exact h.bound.mp hle
  · rw [hd, hi]
    exact hle

theorem AsksBeyond.reads (h : c.Inside dnis) (hx : AsksBeyond cx c t) : ReadsBeyond cx dnis c t := by
  obtain ⟨⟨g, hask⟩, hi⟩ := hx
  refine ⟨_, hask.reads h.placed, fun hb => ?_⟩
  have hle := h.bound.mpr hb
  rw [← hi] at hle
  exact absurd hle (Nat.not_succ_le_self c.dnisIndex)

theorem CallPlaced.inside (hm : cx.dialWithDtmf = false) {ani : Option (List Tone)}
    (hd : (cstr dnis).all Tone.isDigit = true) (h : CallPlaced cx ani dnis c) : c.Inside dnis := by
  obtain ⟨env, c, category, restricted, hr, rfl⟩ := h
  obtain ⟨placed, outbox⟩ := makeCall_placed hm hr
  refine ⟨placed, (congrArg Outbox.dnis outbox).trans (if_pos hd), ?_⟩
  rw [show (makeCall cx env ani dnis category restricted c).1.dnisIndex = 0 from
    congrArg Outbox.dnisIndex outbox]
  exact Nat.zero_le _

/-- The index is in the number when it is used, as long as no digit is asked for beyond its end. -/
theorem dnis_cursor_inside (hm : cx.dialWithDtmf = false) {ani : Option (List Tone)}
    (hd : (cstr dnis).all Tone.isDigit = true) (h : CallPlaced cx ani dnis c) (ts : List Tick) :
    (∀ js t, js ++ [t] <+: ts → Live cx js c → ¬ ReadsBeyond cx dnis (run cx js c).1 t) ↔
      ∀ js t, js ++ [t] <+: ts → Live cx js c → ¬ AsksBeyond cx (run cx js c).1 t :=
  Runs.until_iff (f := tick cx) (P := fun c => c.Inside dnis) (· = Act.callState .idle) (ReadsBeyond cx dnis) (AsksBeyond cx)
    (fun _ _ h hn => tick_inside h hn) (fun _ _ h hx => hx.reads h) ts c (h.inside hm hd)

end Cursor

theorem callingChannel_placed {cx : R2Context} {ani : Option (List Tone)} {dnis : List Tone}
    (h : (makeCall cx (Env.fair 0x9) ani dnis .nationalSubscriber false
      (run cx [⟨Env.fair 0x9, .cas⟩] (restingChannel cx)).1.start).2 = 0) :
    CallPlaced cx ani dnis (callingChannel cx ani dnis) := ⟨_, _, _, _, h, rfl⟩

/-- A number of two digits that is asked for to its end. -/
theorem dnis_cursor_inside_itu :
    let cx := configureItu 10 4 R2Context.zero
    let c := callingChannel cx none [Tone.t5, Tone.t1]
    let ts := seizeAckTick :: toneTicks (Env.fair 0xD) [Tone.t1, Tone.t1]
    (∀ js t, js ++ [t] <+: ts → Live cx js c → ¬ ReadsBeyond cx [Tone.t5, Tone.t1] (run cx js c).1 t) ↔
      ∀ js t, js ++ [t] <+: ts → Live cx js c → ¬ AsksBeyond cx (run cx js c).1 t :=
  dnis_cursor_inside rfl (by decide) (callingChannel_placed (by decide +kernel)) _

/-- A called side that asks on after the end of the number gets the bytes behind it. -/
theorem dnis_cursor_leaves :
    ¬ ∀ (cx : R2Context) (ani : Option (List Tone)) (dnis : List Tone) (c : R2Chan) (ts : List Tick),
      cx.Mfc → (cstr dnis).all Tone.isDigit = true → CallPlaced cx ani dnis c →
        ∀ js t, js ++ [t] <+: ts → Live cx js c → ¬ ReadsBeyond cx dnis (run cx js c).1 t := by
  intro h
  let cx := configureItu 10 4 R2Context.zero
  let js := seizeAckTick :: toneTicks (Env.fair 0xD) [Tone.t1] ++ [⟨Env.fair 0xD, .mfTone Tone.t1⟩]
  let t : Tick := ⟨Env.fair 0xD, .mfTone 0⟩
  refine h cx none [Tone.t5] (callingChannel cx none [Tone.t5]) (js ++ [t]) ⟨by decide, by decide⟩ (by decide)
    (callingChannel_placed (by decide +kernel)) js t (List.prefix_refl _) (by decide +kernel) ⟨2, ?_, ?_⟩
  · decide +kernel
  · decide

end OpenR2
