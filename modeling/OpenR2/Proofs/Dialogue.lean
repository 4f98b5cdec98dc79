import OpenR2.Proofs.Saying

namespace OpenR2

open Link

namespace Trunk

/-- One signal is on its way, and it is to this side. -/
structure Turn (s : Trunk) (i : Side) (c d : R2Chan) (x : Signal) (es fs : List Event) : Prop where
  party : s.party i = c
  peer : s.party i.peer = d
  inbox : s.inbox i = [x]
  peerInbox : s.inbox i.peer = []
  told : s.events i = es
  peerTold : s.events i.peer = fs

section Turns

variable {cx : R2Context} {s s' : Trunk} {i : Side} {c d : R2Chan} {x y : Signal} {es fs : List Event}

/-- Only this signal can arrive. -/
theorem Turn.step (h : s.Turn i c d x es fs) (hs : s.Step cx s') :
    ∃ env : Env, env.Willing ∧ x.Shown env ∧ s' = input cx i ⟨env, x.input⟩ (s.take i []) := by
  cases hs with
  | hear j env z rest hz he hx =>
    rcases Side.eq_or_peer i j with rfl | rfl
    · obtain ⟨rfl, rfl⟩ := List.cons.inj (h.inbox.symm.trans hz)
      exact ⟨env, he, hx, rfl⟩
    · exact absurd (h.peerInbox.symm.trans hz) (by rintro ⟨⟩)

theorem Turn.can_step (h : s.Turn i c d x es fs) : ∃ s', s.Step cx s' := by
  have hw : ∀ bits, (Env.fair bits).Willing := fun bits => ⟨Env.fair_sound bits, fun _ => rfl⟩
  cases x with
  | bits pattern => exact ⟨_, .hear s i (Env.fair pattern) _ [] h.inbox (hw pattern) fun _ => rfl⟩
  | tone tone => exact ⟨_, .hear s i (Env.fair 0) _ [] h.inbox (hw 0) trivial⟩

variable {env : Env} {sent : List Signal} {told : List Event}

theorem Turn.events (h : s.Turn i c d x es fs) (he : c.start.Emits (OpenR2.step cx env x.input c) sent told) :
    (input cx i ⟨env, x.input⟩ (s.take i [])).events i = es ++ told ∧
      (input cx i ⟨env, x.input⟩ (s.take i [])).events i.peer = fs := by
  obtain ⟨as, ho, -, rfl⟩ := he
  have ho : (OpenR2.step cx env x.input c).out = as := ho
  refine ⟨?_, ?_⟩
  · have ht := h.told
    simp only [Trunk.events] at ht ⊢
    rw [input, Net.act_did, Net.take_did, Net.take_party, List.filterMap_append, ht, h.party, tick, ho]
  · have ht := h.peerTold
    simp only [Trunk.events] at ht ⊢
    rw [input, Net.act_did_peer, Net.take_did, ht]

/-- It is answered with another signal. -/
theorem Turn.next (h : s.Turn i c d x es fs)
    (he : c.start.Emits (OpenR2.step cx env x.input c) [y] told) :
    (input cx i ⟨env, x.input⟩ (s.take i [])).Turn i.peer d (OpenR2.step cx env x.input c) y fs (es ++ told) := by
  obtain ⟨hev, hpev⟩ := h.events he
  obtain ⟨as, ho, hsent, -⟩ := he
  have ho : (OpenR2.step cx env x.input c).out = as := ho
  refine ⟨?_, ?_, ?_, ?_, hpev, ?_⟩
  · rw [input, Net.act_party_peer, Net.take_party, h.peer]
  · rw [Side.peer_peer, input, Net.act_party, Net.take_party, h.party]
    rfl
  · rw [input, Net.act_inbox_peer, Net.take_inbox_peer, h.peerInbox, Net.take_party, h.party, tick, ho, hsent]
    rfl
  · rw [Side.peer_peer, input, Net.act_inbox, Net.take_inbox]
  · rw [Side.peer_peer, hev]

theorem Turn.next_silent (h : s.Turn i c d x es fs)
    (he : c.start.Emits (OpenR2.step cx env x.input c) [y] []) :
    (input cx i ⟨env, x.input⟩ (s.take i [])).Turn i.peer d (OpenR2.step cx env x.input c) y fs es := by
  have hn := h.next he
  rwa [List.append_nil] at hn

end Turns

end Trunk

section Tones

variable {cx : R2Context} {env : Env} {k : Dialled} {t u : Talk} {c : R2Chan} {tone : Tone}

theorem step_toneOn (hth : cx.mfThreshold = 0) (hm : c.mfState ≠ .offState) (hr : c.mfReadTone = 0)
    (ht : tone ≠ 0) : step cx env (.mfTone tone) c = handleToneOn cx env tone c.start := by
  have hm' : ¬ c.start.mfState = .offState := hm
  have hr' : c.start.mfReadTone = 0 := hr
  have hne : ¬ (0 : Tone) = tone := ht.symm
  simp only [step, handleMedia, if_neg hm', handleMfTone, if_pos ht, hr', if_neg hne, ne_eq,
    not_true_eq_false, if_false, checkThreshold, if_pos hth]

theorem step_toneOff (hth : cx.mfThreshold = 0) (hm : c.mfState ≠ .offState) (hr : c.mfReadTone ≠ 0) :
    step cx env (.mfTone 0) c = handleToneOff cx env c.start := by
  have hm' : ¬ c.start.mfState = .offState := hm
  have hr' : ¬ c.start.mfReadTone = 0 := hr
  simp only [step, handleMedia, if_neg hm', handleMfTone, ne_eq, not_true_eq_false, if_false, if_neg hr',
    checkThreshold, if_pos hth]

theorem Talk.calledState_on (t : Talk) : t.calledState ≠ .offState := by
  cases hw : t.word <;> simp only [Talk.calledState, hw] <;> try split_ifs
  all_goals rintro ⟨⟩

theorem Talk.callerState_on (t : Talk) : t.callerState ≠ .offState := by
  cases hw : t.word <;> simp only [Talk.callerState, hw] <;> rintro ⟨⟩

theorem handleToneOn_backward (tone : Tone) (hd : c.direction = .backward) :
    handleToneOn cx env tone c = handleForwardMfTone cx env tone (c.setMfReadTone tone) := by
  have hd' : (c.setMfReadTone tone).direction = .backward := hd
  simp only [handleToneOn, hd']

theorem handleToneOn_forward (tone : Tone) (hd : c.direction = .forward) :
    handleToneOn cx env tone c = handleBackwardMfTone cx env (c.setMfReadTone tone) := by
  have hd' : (c.setMfReadTone tone).direction = .forward := hd
  simp only [handleToneOn, hd']

theorem handleToneOff_backward (hd : c.direction = .backward) :
    handleToneOff cx env c = (handleForwardMfSilence cx env c).setMfReadTone 0 := by
  simp only [handleToneOff, hd]

theorem handleToneOff_forward (hd : c.direction = .forward) :
    handleToneOff cx env c = (handleBackwardMfSilence cx env c.mfReadTone c).setMfReadTone 0 := by
  simp only [handleToneOff, hd]

/-- The called side hears a word. -/
theorem step_word (he : env.Willing) (hl : cx.Legible) (hs : k.Sayable cx) (hfits : t.Fits cx k)
    (h : c.Awaits cx k t) (hq : c.mfWriteTone = 0) (hr : c.mfReadTone = 0) (h0 : t.tone cx k ≠ 0)
    (hf : ∀ u, t.hear.ask cx k = some u → t.Follows cx u) :
    ∃ e : R2Chan, c.start.Emits e [] (t.news cx k) ∧ e.mfReadTone = t.tone cx k ∧
      e.Replies cx k (step cx env (.mfTone (t.tone cx k)) c) t (t.hear.ask cx k) := by
  have hm : c.mfState ≠ .offState := h.state ▸ t.calledState_on
  have ha : (c.start.setMfReadTone (t.tone cx k)).Awaits cx k t := h.congr rfl
  rw [step_toneOn hl.threshold hm hr h0, handleToneOn_backward (c := c.start) _ h.direction]
  obtain ⟨e, hem, hread, hrep⟩ := handleForwardMfTone_heeds he hl hs hfits ha hq hf
  exact ⟨e, ⟨hem.out⟩, hread, hrep⟩

/-- The caller hears a request, and goes silent. -/
theorem step_request (he : env.Sound) (hl : cx.Legible) (h : c.Says cx k t) (hw : c.mfWriteTone ≠ 0)
    (hr : c.mfReadTone = 0) (ht : tone ≠ 0) :
    let d := step cx env (.mfTone tone) c
    d.Says cx k t ∧ d.mfWriteTone = 0 ∧ d.mfReadTone = tone ∧ c.start.Emits d [.tone 0] [] := by
  intro d
  have hm : c.mfState ≠ .offState := h.state ▸ t.callerState_on
  have hgo : d = setSilence cx env ((c.start.setMfReadTone tone).cancelTimer .mfFwdSafety) := by
    change step cx env (.mfTone tone) c = _
    rw [step_toneOn hl.threshold hm hr ht, handleToneOn_forward (c := c.start) _ h.direction]
    rfl
  obtain ⟨⟨q, hd⟩, hem⟩ : R2Chan.Plays _ (setSilence cx env _) 0 :=
    setSilence_plays (c := (c.start.setMfReadTone tone).cancelTimer .mfFwdSafety) he hw
  rw [hgo]
  exact ⟨h.congr (by rw [hd]; rfl), by rw [hd], by rw [hd]; rfl, ⟨hem.out⟩⟩

/-- The called side hears that the caller has gone silent, and goes silent too. -/
theorem step_ceased (he : env.Sound) (hl : cx.Legible) (h : c.Awaits cx k u) (hu : t.Follows cx u)
    (hw : c.mfWriteTone ≠ 0) (hr : c.mfReadTone ≠ 0) :
    let d := step cx env (.mfTone 0) c
    d.Awaits cx k u ∧ d.mfWriteTone = 0 ∧ d.mfReadTone = 0 ∧ c.start.Emits d [.tone 0] [] := by
  intro d
  have hm : c.mfState ≠ .offState := h.state ▸ u.calledState_on
  obtain ⟨⟨q, hd⟩, hem⟩ : R2Chan.Plays _ (setSilence cx env _) 0 := setSilence_plays (c := c.start) he hw
  have hg : (setSilence cx env c.start).mfGroup = u.calledGroup cx := by
    rw [hd]
    exact h.group
  have hs : (setSilence cx env c.start).mfState = u.calledState := by
    rw [hd]
    exact h.state
  have hsilence : handleForwardMfSilence cx env c.start = setSilence cx env c.start := by
    simp only [handleForwardMfSilence, hg, hs]
    cases hw : u.word with
    | dnis | dnisEnd =>
      have hpos : ¬ u.taken = 0 := Nat.ne_of_gt (hu.dnis (by rw [hw]; simp)).2
      simp only [Talk.calledGroup, Talk.calledState, hw, if_neg hpos]
    | category | ani | aniEnd =>
      simp only [Talk.calledGroup, Talk.calledState, hw]
      split_ifs <;> rfl
    | groupTwo => simp only [Talk.calledGroup, Talk.calledState, hw]
  have hgo : d = (setSilence cx env c.start).setMfReadTone 0 := by
    change step cx env (.mfTone 0) c = _
    rw [step_toneOff hl.threshold hm hr, handleToneOff_backward (c := c.start) h.direction, hsilence]
  rw [hgo]
  exact ⟨h.congr (by rw [hd]; rfl), by rw [hd]; rfl, rfl, ⟨hem.out⟩⟩

/-- The caller hears that the called side has gone silent, and says the word that was asked for. -/
theorem step_still (he : env.Sound) (hl : cx.Legible) (hs : k.Sayable cx) (ht : t.Fits cx k) (hu : u.Fits cx k)
    (hf : t.Follows cx u) (h : c.Says cx k t) (hw : c.mfWriteTone = 0)
    (hr : c.mfReadTone = t.requestTone cx u) :
    let d := step cx env (.mfTone 0) c
    d.Says cx k u ∧ d.mfWriteTone = u.tone cx k ∧ d.mfReadTone = 0 ∧
      c.start.Emits d [.tone (u.tone cx k)] [] := by
  intro d
  have hm : c.mfState ≠ .offState := h.state ▸ t.callerState_on
  have hr' : c.mfReadTone ≠ 0 := hr ▸ Talk.requestTone_ne_zero hl t u
  have hstart : c.start.Says cx k t := h.congr rfl
  have hgo : d = (serve cx env (u.request cx) c.start).setMfReadTone 0 := by
    change step cx env (.mfTone 0) c = _
    have hread : c.start.mfReadTone = t.requestTone cx u := hr
    rw [step_toneOff hl.threshold hm hr', handleToneOff_forward (c := c.start) h.direction,
      handleBackwardMfSilence_serves, hread, hstart.request hl hf]
  obtain ⟨hspeaks, htone, hem⟩ := serve_tells he hs ht hu hf hstart hw
  rw [hgo]
  exact ⟨hspeaks.congr rfl, htone, rfl, ⟨hem.out⟩⟩

end Tones

namespace Trunk

section Run

variable (cx : R2Context) (k : Dialled)

/-- Where the two sides are with a word, and how many signals are to come at most. The caller says
it, the called side asks for the next, the caller goes silent, and so does the called side. -/
inductive Talking : Nat → Trunk → Prop where
  | saying (t : Talk) (c d : R2Chan) (s : Trunk) (ht : t.Fits cx k) (hc : c.Says cx k t)
      (hw : c.mfWriteTone = t.tone cx k) (hr : c.mfReadTone = 0) (hd : d.Awaits cx k t)
      (hdw : d.mfWriteTone = 0) (hdr : d.mfReadTone = 0)
      (h : s.Turn .right d c (.tone (t.tone cx k)) (.onCallInit :: t.told cx k) [.onCallProceed]) :
      Talking (4 * t.left k + 3) s
  | asked (t u : Talk) (c d : R2Chan) (s : Trunk) (ht : t.Fits cx k) (hu : u.Fits cx k)
      (hf : t.Follows cx u) (hc : c.Says cx k t) (hw : c.mfWriteTone ≠ 0) (hr : c.mfReadTone = 0)
      (hd : d.Awaits cx k u) (hdw : d.mfWriteTone ≠ 0) (hdr : d.mfReadTone ≠ 0)
      (h : s.Turn .left c d (.tone (t.requestTone cx u)) [.onCallProceed] (.onCallInit :: u.told cx k)) :
      Talking (4 * u.left k + 6) s
  | ceased (t u : Talk) (c d : R2Chan) (s : Trunk) (ht : t.Fits cx k) (hu : u.Fits cx k)
      (hf : t.Follows cx u) (hc : c.Says cx k t) (hw : c.mfWriteTone = 0)
      (hr : c.mfReadTone = t.requestTone cx u) (hd : d.Awaits cx k u) (hdw : d.mfWriteTone ≠ 0)
      (hdr : d.mfReadTone ≠ 0)
      (h : s.Turn .right d c (.tone 0) (.onCallInit :: u.told cx k) [.onCallProceed]) :
      Talking (4 * u.left k + 5) s
  | still (t u : Talk) (c d : R2Chan) (s : Trunk) (ht : t.Fits cx k) (hu : u.Fits cx k)
      (hf : t.Follows cx u) (hc : c.Says cx k t) (hw : c.mfWriteTone = 0)
      (hr : c.mfReadTone = t.requestTone cx u) (hd : d.Awaits cx k u) (hdw : d.mfWriteTone = 0)
      (hdr : d.mfReadTone = 0)
      (h : s.Turn .left c d (.tone 0) [.onCallProceed] (.onCallInit :: u.told cx k)) :
      Talking (4 * u.left k + 4) s

end Run

section Steps

variable {cx : R2Context} {k : Dialled} {s s' : Trunk} {n : Nat}

theorem Talking.can_step (h : Talking cx k n s) : ∃ s', s.Step cx s' := by
  cases h with
  | saying t c d s ht hc hw hr hd hdw hdr h => exact h.can_step
  | asked t u c d s ht hu hf hc hw hr hd hdw hdr h => exact h.can_step
  | ceased t u c d s ht hu hf hc hw hr hd hdw hdr h => exact h.can_step
  | still t u c d s ht hu hf hc hw hr hd hdw hdr h => exact h.can_step

/-- What has been told does not depend on the word that comes next. -/
theorem told_follows {t u : Talk} (hf : t.Follows cx u) : u.told cx k = t.hear.told cx k := by
  simp only [Talk.told, hf.taken, hf.heard]

theorem told_whole {t : Talk} (h : t.Whole cx k) : t.told cx k = (k.whole cx).told cx k := by
  simp only [Talk.told, h.taken, h.heard, Dialled.whole]

theorem offer_whole {t : Talk} (h : t.Whole cx k) : t.offer cx k = (k.whole cx).offer cx k := by
  rw [Talk.offer, h.taken, h.heard, h.named, h.ended]
  rfl

/-- Each signal is understood, and brings the call nearer to its offer. -/
theorem Talking.step (hl : cx.Legible) (hs : k.Sayable cx) (h : Talking cx k n s) (hstep : s.Step cx s') :
    s'.Offered cx k ∨ ∃ m < n, Talking cx k m s' := by
  cases h with
  | saying t c d s ht hc hw hr hd hdw hdr h =>
    obtain ⟨env, he, -, rfl⟩ := h.step hstep
    have hleads := ht.leads hs.inOrder
    have h0 := ht.tone_ne_zero hs
    obtain ⟨e, hem, hread, hrep⟩ := step_word he hl hs ht hd hdw hdr h0 fun u hu => (hleads.fits u hu).2.2
    have htold : t.hear.told cx k = t.told cx k ++ t.news cx k := ht.told_hear
    cases hask : t.hear.ask cx k with
    | none =>
      rw [hask] at hrep
      have hwhole := hleads.whole hask
      obtain ⟨hstate, sent, hoffer⟩ := hrep
      obtain ⟨hev, hpev⟩ := h.events (hem.trans hoffer)
      refine .inl ⟨?_, ?_, hpev⟩
      · rw [input, Net.act_party, Net.take_party, h.party]
        exact hstate
      · rw [hev, ← told_whole hwhole, ← offer_whole hwhole, htold]
        simp
    | some u =>
      rw [hask] at hrep
      obtain ⟨hu, hlt, hf⟩ := hleads.fits u hask
      have hask' : R2Chan.Asks cx k e _ t u := hrep
      have hnext := h.next (hem.trans hask'.emits)
      refine .inr ⟨4 * u.left k + 6, by omega, .asked t u _ _ _ ht hu hf hc (hw ▸ h0) hr hask'.awaits ?_ ?_ ?_⟩
      · exact hask'.tone ▸ Talk.requestTone_ne_zero hl t u
      · exact hask'.readTone ▸ hread ▸ h0
      · rw [told_follows hf, htold]
        rw [List.append_nil] at hnext
        exact hnext
  | asked t u c d s ht hu hf hc hw hr hd hdw hdr h =>
    obtain ⟨env, he, -, rfl⟩ := h.step hstep
    obtain ⟨hc', hw', hr', hem⟩ := step_request he.toSound hl hc hw hr (Talk.requestTone_ne_zero hl t u)
    refine .inr ⟨4 * u.left k + 5, by omega, .ceased t u _ _ _ ht hu hf hc' hw' hr' hd hdw hdr ?_⟩
    exact h.next_silent hem
  | ceased t u c d s ht hu hf hc hw hr hd hdw hdr h =>
    obtain ⟨env, he, -, rfl⟩ := h.step hstep
    obtain ⟨hd', hdw', hdr', hem⟩ := step_ceased he.toSound hl hd hf hdw hdr
    refine .inr ⟨4 * u.left k + 4, by omega, .still t u _ _ _ ht hu hf hc hw hr hd' hdw' hdr' ?_⟩
    exact h.next_silent hem
  | still t u c d s ht hu hf hc hw hr hd hdw hdr h =>
    obtain ⟨env, he, -, rfl⟩ := h.step hstep
    obtain ⟨hc', hw', hr', hem⟩ := step_still he.toSound hl hs ht hu hf hc hw hr
    refine .inr ⟨4 * u.left k + 3, by omega, .saying u _ _ _ hu hc' hw' hr' hd hdw hdr ?_⟩
    exact h.next_silent hem

end Steps

end Trunk

end OpenR2
