import OpenR2.Proofs.CallMode
import OpenR2.Proofs.Variants

namespace OpenR2

def Request.Rejects : Request → Prop
  | .reject _ => True
  | _ => False

instance (r : Request) : Decidable r.Rejects := by cases r <;> unfold Request.Rejects <;> infer_instance

/-- The tone with which `send_disconnect` rejects a call. -/
def rejectTone (cx : R2Context) (cause : DisconnectCause) : Tone :=
  if disconnectTone cx cause = Tone.invalid then cx.gbTones.networkCongestion
  else disconnectTone cx cause

/-- The calling side takes a tone for a rejection. -/
structure TakesRejection (c : R2Chan) (as : List Act) : Prop where
  r2State : c.r2State = .clearBackToneRxd
  told : ∃ cause, .event (.onCallDisconnect cause) ∈ as
  notAccepted : ∀ mode, .event (.onCallAccepted mode) ∉ as

theorem TakesRejection.unreported {c : R2Chan} {as : List Act} (h : TakesRejection c as)
    {mode : CallMode} : reportedMode as ≠ some mode := by
  intro hr
  obtain ⟨a, ha, he⟩ := List.exists_of_findSome?_eq_some hr
  split at he
  · exact h.notAccepted _ ha
  · exact nomatch he

section Tables

variable {cx cx' : R2Context}

theorem rejectTone_congr (h : cx.gbTones = cx'.gbTones) (cause : DisconnectCause) :
    rejectTone cx cause = rejectTone cx' cause := by
  have ht : disconnectTone cx cause = disconnectTone cx' cause := by
    cases cause <;> simp only [disconnectTone, h]
  simp only [rejectTone, ht, h]

theorem groupBRequest_congr (h : cx.gbTones = cx'.gbTones) (tone : Tone) :
    groupBRequest cx tone = groupBRequest cx' tone := by
  simp only [groupBRequest, isAcceptTone, getModeFromTone, h]

/-- Only in Colombia a busy number has the tone of an acceptance, which the ITU tables have left
there for the special information. -/
theorem rejection_table : ∀ e ∈ r2variants, ∀ cause : DisconnectCause,
    (groupBRequest e.tables (rejectTone e.tables cause)).Rejects ↔
      ¬ (e.id = .colombia ∧ cause = .busyNumber) := by
  intro e he cause
  simp only [r2variants, List.mem_cons, List.not_mem_nil, or_false] at he
  rcases he with rfl | rfl | rfl | rfl | rfl | rfl | rfl | rfl | rfl | rfl
  all_goals cases cause
  all_goals decide

/-- What is no rejection there is an acceptance. -/
theorem colombia_busy : ∀ e ∈ r2variants, e.id = .colombia →
    isAcceptTone e.tables (rejectTone e.tables .busyNumber) := by
  intro e he hi
  simp only [r2variants, List.mem_cons, List.not_mem_nil, or_false] at he
  rcases he with rfl | rfl | rfl | rfl | rfl | rfl | rfl | rfl | rfl | rfl
  all_goals first | exact absurd hi (by decide) | decide

end Tables

section Steps

variable {cx : R2Context} {c : R2Chan} {t : Tick} {cause : DisconnectCause} {tone : Tone}

/-- `disconnect_call` of a call that was offered sends the tone of its cause, and no other. -/
theorem disconnectCall_tells {h : Option Nat} (hm : cx.Mfc) (hc : c.callState = .offered)
    (hd : c.direction = .backward) (ht : t.input = .api (.disconnectCall cause))
    (hs : .mfSelectTone h tone ∈ untilIdle (tick cx c t).2) (h0 : tone ≠ 0) :
    tone = rejectTone cx cause := by
  have he : (tick cx c t).2 =
      (prepareMfTone cx t.env (rejectTone cx cause) (c.start.setMfState .disconnectTxd)).out := by
    have hi : ¬ c.start.callState = .idle := fun h => nomatch hc.symm.trans h
    have hb : c.start.direction = .backward := hd
    have ho : c.start.callState = .offered := hc
    simp only [tick, ht, step, apiCall, disconnectCall]
    rw [if_neg hi, if_pos hb, disconnectBackward, if_neg (by simp [hm.detect]), if_pos ho]
    rfl
  have hn : (c.start.setMfState .disconnectTxd).out = [] := rfl
  obtain ⟨as, hu, ha⟩ := (prepareMfTone_speaks cx t.env (rejectTone cx cause)
    (c.start.setMfState .disconnectTxd)).told (by simp [hn])
  rw [he, hu, hn, List.nil_append] at hs
  exact (ha _ hs).selects.resolve_left h0

/-- A tone of a rejection is taken for one. -/
theorem Ceases.rejects (h : Ceases cx c t tone) (hg : c.mfGroup = .gii)
    (hr : (groupBRequest cx tone).Rejects) : TakesRejection (tick cx c t).1 (tick cx c t).2 := by
  cases hq : groupBRequest cx tone with
  | reject cause =>
    have ha : AsksFor cx c t (.reject cause) := ⟨tone, h, by simp only [R2Chan.request, hg, hq]⟩
    obtain ⟨x, n, as, hk, hc⟩ := checkThreshold_frame cx t.env 0 c.start
    have hk : (c.checked cx t.env).out = as := by
      rw [R2Chan.checked, hk]
      rfl
    have ho : (tick cx c t).2 =
        as ++ [.callState .disconnected] ++ [.event (.onCallDisconnect cause)] := by
      rw [ha.output, ← hk]
      rfl
    refine ⟨?_, ⟨cause, by simp [ho]⟩, fun mode hm => ?_⟩
    · rw [tick_serves ha]
      rfl
    · rw [ho] at hm
      simp only [List.append_assoc, List.mem_append, List.mem_cons, List.not_mem_nil, or_false] at hm
      rcases hm with hm | hm | hm
      · cases hc _ hm
      · cases hm
      · cases hm
  | _ => simp [hq, Request.Rejects] at hr

end Steps

/-- The calling side takes the tone of a rejected call for a rejection, unless the number is busy
in Colombia. -/
theorem rejection_understood_iff {variant : Variant} {cx cx' : R2Context} (hb : cx.TonesOf variant)
    (hf : cx'.TonesOf variant) (hm : cx.Mfc) {b f : R2Chan} {u t : Tick} {cause : DisconnectCause}
    (hc : b.callState = .offered) (hd : b.direction = .backward)
    (hu : u.input = .api (.disconnectCall cause)) {h : Option Nat} {tone : Tone}
    (hs : .mfSelectTone h tone ∈ untilIdle (tick cx b u).2) (h0 : tone ≠ 0)
    (ht : Ceases cx' f t tone) (hg : f.mfGroup = .gii) :
    TakesRejection (tick cx' f t).1 (tick cx' f t).2 ↔
      ¬ (variant = .colombia ∧ cause = .busyNumber) := by
  obtain ⟨e, he, -, hgb, -⟩ := hb.entry
  obtain ⟨e', he', -, hgb', -⟩ := hf.entry
  obtain rfl : e = e' := Option.some.inj (he.symm.trans he')
  obtain ⟨hmem, rfl⟩ := variantEntry_mem he
  have htone : tone = rejectTone e.tables cause :=
    (disconnectCall_tells hm hc hd hu hs h0).trans (rejectTone_congr hgb cause)
  constructor
  · rintro hr ⟨hv, rfl⟩
    have ha : isAcceptTone cx' tone := by
      have hx := colombia_busy e hmem hv
      rw [← htone] at hx
      simpa only [isAcceptTone, hgb'] using hx
    exact hr.unreported (ht.reports hg ha)
  · intro hn
    refine ht.rejects hg ?_
    rw [groupBRequest_congr hgb', htone]
    exact (rejection_table e hmem cause).mpr hn

/-- The user of the called side rejects a call because the number is busy. -/
theorem rejection_understood_itu :
    let cx := setAniFirst 0 (configureItu 10 1 R2Context.zero)
    TakesRejection (tick cx (hearingChannel cx Tone.t3) ⟨Env.fair 0xD, .mfTone 0⟩).1
      (tick cx (hearingChannel cx Tone.t3) ⟨Env.fair 0xD, .mfTone 0⟩).2 ↔
        ¬ (Variant.itu = .colombia ∧ DisconnectCause.busyNumber = .busyNumber) := by
  have ht : (setAniFirst 0 (configureItu 10 1 R2Context.zero)).TonesOf .itu :=
    ⟨10, 1, _, rfl, rfl, rfl, rfl, rfl, rfl⟩
  exact @rejection_understood_iff .itu _ _ ht ht ⟨rfl, rfl⟩
    (offeringChannel (setAniFirst 0 (configureItu 10 1 R2Context.zero))) _
    ⟨Env.fair 0x1, .api (.disconnectCall .busyNumber)⟩ _ .busyNumber (by decide +kernel)
    (by decide +kernel) rfl (some 0) Tone.t3 (by decide +kernel) (by decide) (by decide +kernel)
    (by decide +kernel)

/-- A busy number in Colombia. The caller is told that the call has been accepted. -/
theorem busy_taken_for_accepted :
    ¬ ∀ (variant : Variant) (cx cx' : R2Context) (cause : DisconnectCause) (b f : R2Chan) (u t : Tick)
      (h : Option Nat) (tone : Tone), cx.TonesOf variant → cx'.TonesOf variant → cx.Mfc →
        b.callState = .offered → b.direction = .backward → u.input = .api (.disconnectCall cause) →
          .mfSelectTone h tone ∈ untilIdle (tick cx b u).2 → tone ≠ 0 → Ceases cx' f t tone →
            f.mfGroup = .gii → TakesRejection (tick cx' f t).1 (tick cx' f t).2 := by
  intro h
  let cx := setAniFirst 0 (r2configColombia (configureItu 10 1 R2Context.zero))
  have ht : cx.TonesOf .colombia := ⟨10, 1, _, rfl, rfl, rfl, rfl, rfl, rfl⟩
  have hx := h .colombia cx cx .busyNumber (offeringChannel cx) (hearingChannel cx Tone.t2)
    ⟨Env.fair 0x1, .api (.disconnectCall .busyNumber)⟩ ⟨Env.fair 0xD, .mfTone 0⟩ (some 0) Tone.t2 ht ht
    ⟨rfl, rfl⟩ (by decide +kernel) (by decide +kernel) rfl (by decide +kernel) (by decide)
    (by decide +kernel) (by decide +kernel)
  exact absurd hx.r2State (by decide +kernel)

end OpenR2
