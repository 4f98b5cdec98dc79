import OpenR2.Proofs.Asking
import OpenR2.Requests

namespace OpenR2

section Caller

variable (cx : R2Context) (k : Dialled)

/-- The caller says another word. -/
structure R2Chan.Tells (c d : R2Chan) (t : Talk) : Prop where
  speaks : d.Says cx k t
  tone : d.mfWriteTone = t.tone cx k
  emits : c.Emits d [.tone (t.tone cx k)] []

/-- What a request for a word is. -/
def Talk.request (t : Talk) : Request :=
  match t.word with
  | .dnis | .dnisEnd => .dnis 1 .gi
  | .ani | .aniEnd => .ani
  | .category => .category (t.callerGroup cx)
  | .groupTwo => .category .gii

end Caller

section Understanding

variable {cx : R2Context} {env : Env} {k : Dialled} {t u : Talk} {c d : R2Chan}

theorem Talk.Follows.inGroupC (hf : t.Follows cx u) (hu : u.word = .ani ∨ u.word = .aniEnd) :
    u.InGroupC cx ↔ t.InGroupC cx := by
  rcases hf.ani hu with hw | hw <;> rcases hu with hu | hu <;> simp only [Talk.InGroupC, hw, hu] <;> simp

theorem requestCategoryTone_inGroupC (hl : cx.Legible) :
    (if requestCategoryTone cx = cx.gaTones.requestCategoryAndChangeToGc then MfGroup.giii else .gi) =
      if cx.gaTones.requestCategory = 0 then .giii else .gi := by
  rw [requestCategoryTone]
  by_cases hr : cx.gaTones.requestCategory = 0
  · rw [if_neg (not_not.mpr hr), if_pos rfl, if_pos hr]
  · rw [if_pos hr, if_neg (hl.groupA hr).1, if_neg hr]

/-- In Group A it is understood what is asked for. -/
theorem groupARequest_word (hl : cx.Legible) (hf : t.Follows cx u) (h : c.Says cx k t) (hg : ¬ t.InGroupC cx) :
    groupARequest cx (t.requestTone cx u) c = u.request cx := by
  cases hu : u.word with
  | dnis | dnisEnd =>
    simp only [Talk.requestTone, Talk.request, hu, if_neg hg, groupARequest, dnisRequest, if_pos]
  | category =>
    obtain ⟨hw, hn⟩ := hf.category hu
    have hsent : c.categorySent = false := h.unnamed hw hn
    simp only [Talk.requestTone, Talk.request, hu, groupARequest, hl.askCategory.2, hsent, Bool.false_eq_true,
      false_and, if_false, if_true, requestCategoryTone_inGroupC hl]
    simp [Talk.callerGroup, Talk.InGroupC, hu]
  | ani | aniEnd =>
    have hw := hf.ani (by rw [hu]; simp)
    have hr : cx.gaTones.requestCategory ≠ 0 := fun hr => hg ⟨hr, hw.elim .inl fun h => .inr (.inl h)⟩
    obtain ⟨-, h0, -, hnone⟩ := hl.groupA hr
    have hstate : ¬ c.mfState = .aniEndTxd := by
      rw [h.state]
      rcases hw with hw | hw <;> simp only [Talk.callerState, hw] <;> rintro ⟨⟩
    simp only [Talk.requestTone, Talk.request, hu, h0, ne_eq, not_true_eq_false, if_false, groupARequest, hnone,
      h.named hw, and_self, if_true, aniRequest, hstate, false_and]
  | groupTwo =>
    obtain ⟨-, hnone, hani, hcat⟩ := hl.askGroupTwo
    simp only [Talk.requestTone, Talk.request, hu, if_neg hg, groupARequest, hnone, hani, hcat, and_false,
      if_false, if_true]

theorem groupCRequest_word (hl : cx.Legible) (hf : t.Follows cx u) (h : c.Says cx k t) (hg : t.InGroupC cx) :
    groupCRequest cx (t.requestTone cx u) c = u.request cx := by
  obtain ⟨hani, htwo, hdnis, htwo', hdnis', hdnisTwo⟩ := hl.groupC hg.1
  cases hu : u.word with
  | dnis | dnisEnd =>
    simp only [Talk.requestTone, Talk.request, hu, if_pos hg, groupCRequest, hdnis', hdnisTwo, if_false, if_true]
  | category =>
    obtain ⟨hw, -⟩ := hf.category hu
    have hno : ¬ t.InGroupC cx := by
      rintro ⟨-, hg⟩
      rcases hw with hw | hw <;> rw [hw] at hg <;> simp at hg
    exact absurd hg hno
  | ani | aniEnd =>
    have hw := hf.ani (by rw [hu]; simp)
    have hstate : ¬ c.mfState = .aniEndTxd := by
      rw [h.state]
      rcases hw with hw | hw <;> simp only [Talk.callerState, hw] <;> rintro ⟨⟩
    simp only [Talk.requestTone, Talk.request, hu, hani, ne_eq, not_false_eq_true, if_true, groupCRequest,
      aniRequest, hstate, false_and, if_false]
  | groupTwo =>
    simp only [Talk.requestTone, Talk.request, hu, if_pos hg, groupCRequest, htwo', if_false, if_true]

/-- The caller understands what it is asked for. -/
theorem R2Chan.Says.request (hl : cx.Legible) (hf : t.Follows cx u) (h : c.Says cx k t) :
    c.request cx (t.requestTone cx u) = u.request cx := by
  have hg : c.mfGroup = if t.InGroupC cx then .giii else .gi := by
    rw [h.group, Talk.callerGroup, if_neg hf.groupTwo]
  rw [R2Chan.request]
  split_ifs at hg with hc
  · rw [hg]
    exact groupCRequest_word hl hf h hc
  · rw [hg]
    exact groupARequest_word hl hf h hc

end Understanding

section Serving

variable {cx : R2Context} {env : Env} {k : Dialled} {t u : Talk} {c d e : R2Chan}

theorem R2Chan.Carries.congr (h : c.Carries k) (hd : d = { c with
    mfGroup := d.mfGroup, mfState := d.mfState, timers := d.timers, out := d.out, mfWriteTone := d.mfWriteTone,
    mfReadTone := d.mfReadTone, dnisIndex := d.dnisIndex, aniPtr := d.aniPtr, categorySent := d.categorySent }) :
    d.Carries k := by
  rw [hd]
  exact ⟨h.direction, h.r2State, h.dnis, h.ani, h.restricted, h.category⟩

/-- The digit of a number under an index, or the end of it. -/
theorem getD_number {xs buffer : List Tone} {n : Nat} (hn : n ≤ xs.length) (x : Tone)
    (hb : ∃ tail, buffer = xs ++ 0 :: tail) : buffer.getD n x = xs.getD n 0 := by
  obtain ⟨tail, rfl⟩ := hb
  rcases Nat.lt_or_eq_of_le hn with hn | rfl
  · rw [List.getD_eq_getElem?_getD, List.getD_eq_getElem?_getD, List.getElem?_append_left hn,
      List.getElem?_eq_getElem hn]
    rfl
  · simp

theorem digit_ne_zero {xs : List Tone} (hx : ∀ x ∈ xs, x.isDigit = true) {n : Nat}
    (hn : n < xs.length) : xs.getD n 0 ≠ 0 := by
  rw [List.getD_eq_getElem?_getD, List.getElem?_eq_getElem hn, Option.getD_some]
  intro h0
  have hd := hx _ (List.getElem_mem hn)
  rw [h0] at hd
  exact absurd hd (by decide)

theorem Talk.Fits.tone_ne_zero (hs : k.Sayable cx) (h : t.Fits cx k) : t.tone cx k ≠ 0 := by
  cases hw : t.word with
  | dnis =>
    simp only [Talk.tone, hw]
    exact digit_ne_zero hs.dnis (h.dnis_lt hw)
  | dnisEnd =>
    simp only [Talk.tone, hw]
    exact hs.dnisEnd (h.dnisEnd_room hw).2
  | ani =>
    simp only [Talk.tone, hw]
    exact digit_ne_zero hs.ani (h.ani_lt hw).1
  | aniEnd =>
    obtain ⟨ha, hroom, -⟩ := h.aniEnd_room hw
    simp only [Talk.tone, hw]
    exact hs.aniEnd ha hroom
  | category | groupTwo =>
    simp only [Talk.tone, hw]
    exact hs.category

theorem R2Chan.Tells.congr (h : d.Tells cx k e t) (hd : c.out = d.out) : c.Tells cx k e t :=
  ⟨h.speaks, h.tone, ⟨hd ▸ h.emits.out⟩⟩

theorem R2Chan.Says.congr (h : c.Says cx k t) (hd : d = { c with
    timers := d.timers, out := d.out, mfWriteTone := d.mfWriteTone, mfReadTone := d.mfReadTone }) :
    d.Says cx k t := by
  refine ⟨h.toCarries.congr ?_, ?_, ?_, ?_, ?_, ?_, ?_⟩
  · rw [hd]
  all_goals rw [hd]
  · exact h.group
  · exact h.state
  · exact h.index
  · exact h.aniPtr
  · exact h.unnamed
  · exact h.named

/-- A word is put on a silent line. -/
theorem R2Chan.Says.tells (he : env.Sound) (h : d.Says cx k u) (h0 : u.tone cx k ≠ 0) (hq : d.mfWriteTone = 0)
    (hc : c.Emits d [] []) : c.Tells cx k (prepareMfTone cx env (u.tone cx k) d) u := by
  obtain ⟨⟨q, hd⟩, hem⟩ : d.Plays (prepareMfTone cx env _ d) _ := prepareMfTone_plays he h0 hq
  exact ⟨h.congr (by rw [hd]), by rw [hd], hc.trans hem⟩

/-- The digit under the index, or the end of the DNIS, is sent. -/
theorem mfSendDnisDigit_word (hs : k.Sayable cx) (hfits : u.Fits cx k) (hw : u.word = .dnis ∨ u.word = .dnisEnd)
    (h : ∃ tail, c.dnis = k.dnis ++ 0 :: tail) (hi : c.dnisIndex = u.taken)
    (hm : c.mfState ≠ .dnisEndTxd ∧ c.mfState ≠ .waitingTimeout) :
    mfSendDnisDigit cx env c =
      prepareMfTone cx env (u.tone cx k) ((c.did (.readDnis u.taken)).setMfState u.callerState) := by
  have hle : u.taken ≤ k.dnis.length := by
    rcases hw with hw | hw
    · exact Nat.le_of_lt (hfits.dnis_lt hw)
    · exact Nat.le_of_eq (hfits.dnisEnd_room hw).1
  have hdigit := getD_number hle (env.pastDnis u.taken) h
  have h0 := hfits.tone_ne_zero hs
  rw [mfSendDnisDigit, hi, hdigit]
  rcases hw with hw | hw
  · simp only [Talk.tone, hw] at h0 ⊢
    simp only [if_pos h0, Talk.callerState, hw]
  · have hend : k.dnis.getD u.taken 0 = 0 := by
      rw [(hfits.dnisEnd_room hw).1]
      simp
    have hstate : (c.did (.readDnis u.taken)).mfState ≠ .dnisEndTxd ∧
        (c.did (.readDnis u.taken)).mfState ≠ .waitingTimeout := hm
    simp only [Talk.tone, hw] at h0 ⊢
    rw [if_neg (not_not.mpr hend), if_pos ⟨h0, hstate⟩]
    simp only [Talk.callerState, hw]

theorem dnisWord_tells (he : env.Sound) (hs : k.Sayable cx) (hfits : u.Fits cx k)
    (hw : u.word = .dnis ∨ u.word = .dnisEnd) (h : c.Carries k) (hi : c.dnisIndex = u.taken)
    (hp : c.aniPtr = k.ani.map fun _ => u.heard) (hg : c.mfGroup = .gi)
    (hm : c.mfState ≠ .dnisEndTxd ∧ c.mfState ≠ .waitingTimeout)
    (hsent : u.named = false → c.categorySent = false) (hq : c.mfWriteTone = 0) :
    c.Tells cx k (mfSendDnisDigit cx env c) u := by
  have h0 := hfits.tone_ne_zero hs
  rw [mfSendDnisDigit_word hs hfits hw h.dnis hi hm]
  refine R2Chan.Says.tells he ⟨h.congr rfl, ?_, rfl, ?_, ?_, fun _ => hsent, ?_⟩ h0 hq
    ⟨[.readDnis u.taken], rfl, rfl, rfl⟩
  · refine hg.trans ?_
    rcases hw with hw | hw <;> simp [Talk.callerGroup, Talk.InGroupC, hw]
  · intro hgo
    refine (congrArg (· + 1) hi).trans ?_
    rcases hw with hw | hw
    · simp only [Talk.hear, hw]
    · rcases hgo with hgo | ⟨-, hgo | hgo | hgo⟩ <;> rw [hw] at hgo <;> cases hgo
  · refine hp.trans ?_
    rcases hw with hw | hw <;> simp only [Talk.hear, hw]
  · rcases hw with hw | hw <;> rw [hw] <;> exact fun h => h.elim (by rintro ⟨⟩) (by rintro ⟨⟩)

/-- After a word with which the DNIS can go on, the digit under the next index is asked for. -/
theorem nextDnisWord_tells (he : env.Sound) (hs : k.Sayable cx) (hfits : u.Fits cx k)
    (hf : t.Follows cx u) (hw : u.word = .dnis ∨ u.word = .dnisEnd) (h : c.Says cx k t)
    (hq : c.mfWriteTone = 0) : c.Tells cx k (handleDnisRequest cx env 1 (c.setMfGroup .gi)) u := by
  obtain ⟨hgo, hpos⟩ := hf.dnis hw
  have hstate : c.mfState ≠ .dnisEndTxd ∧ c.mfState ≠ .waitingTimeout := by
    rw [h.state]
    rcases hgo with hgo | ⟨-, hgo | hgo | hgo⟩ <;> simp only [Talk.callerState, hgo] <;>
      exact ⟨by rintro ⟨⟩, by rintro ⟨⟩⟩
  have hsent : u.named = false → c.categorySent = false := by
    intro hn
    rcases hgo with hgo | ⟨hfirst, hgo⟩
    · refine h.unnamed (.inl hgo) ?_
      rw [hf.named] at hn
      simpa only [Talk.hear, hgo] using hn
    · have hlater : u.named = true := by
        cases hfits with
        | first i _ hi => exact absurd hpos (by rw [show i = 0 from hi hfirst]; rintro ⟨⟩)
        | dnisEnd _ hi => exact absurd (hi.symm.trans hfirst) (by rintro ⟨⟩)
        | later | laterEnd => rfl
        | _ => exact hw.elim (by rintro ⟨⟩) (by rintro ⟨⟩)
      exact absurd (hlater.symm.trans hn) (by rintro ⟨⟩)
  refine dnisWord_tells (c := (c.setMfGroup .gi).setDnisIndex (c.dnisIndex + 1)) he hs hfits hw
    (h.toCarries.congr rfl) ?_ ?_ rfl hstate hsent hq |>.congr rfl
  · exact (h.index hgo).trans hf.taken.symm
  · rw [hf.heard]
    exact h.aniPtr

theorem categoryWord_tells (he : env.Sound) (hs : k.Sayable cx) (hfits : t.Fits cx k)
    (hf : t.Follows cx u) (hw : u.word = .category ∨ u.word = .groupTwo) (h : c.Says cx k t) (hq : c.mfWriteTone = 0) :
    c.Tells cx k (mfSendCategory cx env (c.setMfGroup (u.callerGroup cx))) u := by
  have ht : u.tone cx k = k.category := by rcases hw with hw | hw <;> simp only [Talk.tone, hw]
  have hstate : u.callerState = .categoryTxd := by rcases hw with hw | hw <;> simp only [Talk.callerState, hw]
  have hgo : mfSendCategory cx env (c.setMfGroup (u.callerGroup cx)) =
      prepareMfTone cx env (u.tone cx k)
        (((c.setMfGroup (u.callerGroup cx)).setMfState u.callerState).setCategorySent) := by
    rw [ht, hstate, ← h.category]
    rfl
  rw [hgo]
  refine R2Chan.Says.tells he ⟨h.toCarries.congr rfl, rfl, rfl, ?_, ?_, ?_, fun _ => rfl⟩ (ht ▸ hs.category) hq
    ⟨[], (List.append_nil _).symm, rfl, rfl⟩
  · intro hgo
    have hcat : u.word = .category := hw.resolve_right fun hw => by
      rcases hgo with hgo | ⟨-, hgo | hgo | hgo⟩ <;> rw [hw] at hgo <;> cases hgo
    have hfirst : cx.getAniFirst = true :=
      hgo.elim (fun hgo => absurd (hcat.symm.trans hgo) (by rintro ⟨⟩)) And.left
    obtain ⟨ht | ht, hn⟩ := hf.category hcat
    · have htaken : u.hear.taken = t.hear.taken := by
        rw [← hf.taken]
        simp only [Talk.hear, hcat]
      rw [htaken]
      exact h.index (.inl ht)
    · cases hfits with
      | dnisEnd _ hi => exact absurd (hi.symm.trans hfirst) (by rintro ⟨⟩)
      | laterEnd => cases hn
      | _ => cases ht
  · have hheard : u.hear.heard = t.hear.heard := by
      rw [← hf.heard]
      rcases hw with hw | hw <;> simp only [Talk.hear, hw]
    rw [hheard]
    exact h.aniPtr
  · rcases hw with hw | hw <;> rw [hw] <;> exact fun h => h.elim (by rintro ⟨⟩) (by rintro ⟨⟩)

/-- The pointer can as well move on first. -/
theorem nextAni_prepareMfTone (he : env.Sound) {tone : Tone} (ht : tone ≠ 0) (hw : c.mfWriteTone = 0) :
    nextAni (prepareMfTone cx env tone c) = prepareMfTone cx env tone (nextAni c) := by
  have harm : ∀ (slot : TimerSlot) (ms : Nat) (cb : TimerCallback) (d : R2Chan),
      nextAni (armTimer env slot ms cb d) = armTimer env slot ms cb (nextAni d) := by
    intro slot ms cb d
    obtain ⟨now, hnow⟩ := Option.isSome_iff_exists.mp (he.clock d.out)
    have hnow' : env.gettimeofday (nextAni d).out = some now := hnow
    simp only [armTimer, addTimer, hnow, hnow']
    rfl
  have hw' : (nextAni c).mfWriteTone = 0 := hw
  rw [prepareMfTone_starts he ht hw, prepareMfTone_starts he ht hw', startMfTone, startMfTone]
  by_cases hb : c.direction = .backward
  · have hb' : (c.did (.mfSelectTone c.mfWriteHandle tone)).direction = .backward := hb
    have hn' : ((nextAni c).did (.mfSelectTone (nextAni c).mfWriteHandle tone)).direction = .backward := hb
    simp only [if_pos hb', if_pos hn', he.flush, if_true]
    exact congrArg (fun d => (d.did .flushWriteBuffers).setMfWriteTone tone) (harm _ _ _ _)
  · have hb' : ¬ (c.did (.mfSelectTone c.mfWriteHandle tone)).direction = .backward := hb
    have hn' : ¬ ((nextAni c).did (.mfSelectTone (nextAni c).mfWriteHandle tone)).direction = .backward := hb
    simp only [if_neg hb', if_neg hn', he.flush, if_true]
    rfl

theorem aniWord_tells (he : env.Sound) (hs : k.Sayable cx) (hfits : u.Fits cx k)
    (hf : t.Follows cx u) (hw : u.word = .ani ∨ u.word = .aniEnd) (h : c.Says cx k t)
    (hq : c.mfWriteTone = 0) : c.Tells cx k (mfSendAniDigit cx env c) u := by
  have hgroup : c.mfGroup = u.callerGroup cx := by
    have hu : u.word ≠ .groupTwo := by rcases hw with hw | hw <;> rw [hw] <;> rintro ⟨⟩
    rw [h.group, Talk.callerGroup, Talk.callerGroup, if_neg hf.groupTwo, if_neg hu]
    simp only [hf.inGroupC hw]
  have hptr : c.aniPtr = k.ani.map fun _ => u.heard := hf.heard.symm ▸ h.aniPtr
  have hindex : u.GoesOn cx → c.dnisIndex + 1 = u.hear.taken := by
    intro hgo
    have hfirst : cx.getAniFirst = true := by
      rcases hgo with hgo | hgo
      · rcases hw with hw | hw <;> rw [hw] at hgo <;> cases hgo
      · exact hgo.1
    have htaken : u.hear.taken = t.hear.taken := by
      rw [← hf.taken]
      rcases hw with hw | hw <;> simp only [Talk.hear, hw]
    rw [htaken]
    refine h.index (.inr ⟨hfirst, ?_⟩)
    exact (hf.ani hw).elim .inl fun h => .inr (.inl h)
  have hno : u.word = .dnis ∨ u.word = .dnisEnd → u.named = false → c.categorySent = false := by
    rcases hw with hw | hw <;> rw [hw] <;> exact fun h => h.elim (by rintro ⟨⟩) (by rintro ⟨⟩)
  have hsent : c.categorySent = true := h.named (hf.ani hw)
  have h0 := hfits.tone_ne_zero hs
  rcases hw with hw | hw
  · -- a digit is sent, and the pointer moves on
    have hn := (hfits.ani_lt hw).1
    obtain ⟨a, ha⟩ : ∃ a, k.ani = some a := by
      cases hk : k.ani with
      | none => simp [Dialled.aniDigits, hk] at hn
      | some a => exact ⟨a, rfl⟩
    have hdigits : k.aniDigits = a := by rw [Dialled.aniDigits, ha, Option.getD_some]
    have ht : u.tone cx k = k.aniDigits.getD u.heard 0 := by simp only [Talk.tone, hw]
    have hp : c.aniPtr = some u.heard := by rw [hptr, ha, Option.map_some]
    have hcur : currentAni env c = u.tone cx k := by
      rw [currentAni, hp, ht, hdigits]
      exact getD_number (by rw [← hdigits]; exact Nat.le_of_lt hn) 0 (h.ani a ha)
    have hgo : mfSendAniDigit cx env c =
        nextAni (prepareMfTone cx env (u.tone cx k) ((c.did (.readAni c.aniPtr)).setMfState u.callerState)) := by
      have hnot : ¬ (cx.g1Tones.callerAniIsRestricted ≠ 0 ∧ c.aniPtr = none) :=
        fun h => absurd (hp.symm.trans h.2) (by rintro ⟨⟩)
      rw [mfSendAniDigit, if_neg hnot, hcur]
      simp only [if_pos h0, Talk.callerState, hw]
    rw [hgo, nextAni_prepareMfTone (c := (c.did (.readAni c.aniPtr)).setMfState u.callerState) he h0 hq]
    refine R2Chan.Says.tells he ⟨h.toCarries.congr rfl, hgroup, rfl, hindex, ?_, hno, fun _ => hsent⟩ h0 hq
      ⟨[.readAni c.aniPtr], rfl, rfl, rfl⟩
    refine (congrArg (Option.map (· + 1)) hptr).trans ?_
    simp only [Talk.hear, hw, Option.map_map, Function.comp_def]
  · have hheard : u.hear.heard = u.heard := by simp only [Talk.hear, hw]
    have hlen := (hfits.aniEnd_room hw).2.2.1
    have ht : u.tone cx k =
        if k.withheld then cx.g1Tones.callerAniIsRestricted else cx.g1Tones.noMoreAniAvailable := by
      simp only [Talk.tone, hw]
    have hspeaks : ∀ as : List Act, (({ c with out := c.out ++ as }).setMfState u.callerState).Says cx k u :=
      fun as => ⟨h.toCarries.congr rfl, hgroup, rfl, hindex, hheard.symm ▸ hptr, hno, fun _ => hsent⟩
    cases hk : k.ani with
    | none =>
      -- no ANI at all
      have hp : c.aniPtr = none := by rw [hptr, hk, Option.map_none]
      have hwith : k.withheld = true := by simp [Dialled.withheld, hk]
      rw [hwith, if_pos rfl] at ht
      have hgo : mfSendAniDigit cx env c = prepareMfTone cx env (u.tone cx k) (c.setMfState u.callerState) := by
        rw [mfSendAniDigit, if_pos ⟨ht ▸ h0, hp⟩, ht]
        simp only [Talk.callerState, hw]
      rw [hgo]
      have hsame : ({ c with out := c.out ++ [] } : R2Chan) = c := by rw [List.append_nil]
      exact R2Chan.Says.tells he (hsame ▸ hspeaks []) h0 hq ⟨[], (List.append_nil _).symm, rfl, rfl⟩
    | some a =>
      have hdigits : k.aniDigits = a := by rw [Dialled.aniDigits, hk, Option.getD_some]
      have hp : c.aniPtr = some u.heard := by rw [hptr, hk, Option.map_some]
      have hcur : currentAni env c = 0 := by
        rw [currentAni, hp]
        refine (getD_number (by rw [← hdigits, hlen]) 0 (h.ani a hk)).trans ?_
        rw [← hdigits, hlen]
        simp
      have hwith : k.withheld = k.restricted := by simp [Dialled.withheld, hk]
      rw [hwith] at ht
      have hgo : mfSendAniDigit cx env c =
          prepareMfTone cx env (u.tone cx k) ((c.did (.readAni c.aniPtr)).setMfState u.callerState) := by
        have hnot : ¬ (cx.g1Tones.callerAniIsRestricted ≠ 0 ∧ c.aniPtr = none) :=
          fun h => absurd (hp.symm.trans h.2) (by rintro ⟨⟩)
        have hr : (c.did (.readAni c.aniPtr)).callerAniIsRestricted = k.restricted := h.restricted
        rw [mfSendAniDigit, if_neg hnot, hcur]
        simp only [ne_eq, not_true_eq_false, if_false, hr]
        cases hres : k.restricted with
        | false =>
          rw [hres] at ht
          simp only [Bool.false_eq_true, if_false] at ht
          rw [if_pos ⟨ht ▸ h0, rfl⟩, ht]
          simp only [Talk.callerState, hw]
        | true =>
          rw [hres] at ht
          simp only [if_true] at ht
          rw [if_neg (fun h => absurd h.2 (by rintro ⟨⟩)), if_pos ⟨ht ▸ h0, rfl⟩, ht]
          simp only [Talk.callerState, hw]
      rw [hgo]
      exact R2Chan.Says.tells he (hspeaks [.readAni c.aniPtr]) h0 hq ⟨[.readAni c.aniPtr], rfl, rfl, rfl⟩

/-- The word that is asked for is said. -/
theorem serve_tells (he : env.Sound) (hs : k.Sayable cx) (ht : t.Fits cx k) (hu : u.Fits cx k)
    (hf : t.Follows cx u) (h : c.Says cx k t) (hq : c.mfWriteTone = 0) :
    c.Tells cx k (serve cx env (u.request cx) c) u := by
  cases hw : u.word with
  | dnis | dnisEnd =>
    simp only [Talk.request, hw]
    exact nextDnisWord_tells he hs hu hf (by rw [hw]; simp) h hq
  | category =>
    simp only [Talk.request, hw]
    exact categoryWord_tells he hs ht hf (.inl hw) h hq
  | ani | aniEnd =>
    simp only [Talk.request, hw]
    exact aniWord_tells he hs hu hf (by rw [hw]; simp) h hq
  | groupTwo =>
    have hg : u.callerGroup cx = .gii := if_pos hw
    simp only [Talk.request, hw, ← hg]
    exact categoryWord_tells he hs ht hf (.inr hw) h hq

end Serving

end OpenR2
