import OpenR2.Proofs.Talk

namespace OpenR2

/-- What a part of a step sends and tells the user. -/
structure R2Chan.Emits (c d : R2Chan) (sent : List Signal) (told : List Event) : Prop where
  out : ∃ as, d.out = c.out ++ as ∧ as.filterMap Act.signal? = sent ∧ as.filterMap Act.event? = told

/-- Another tone is put on the line. -/
structure R2Chan.Plays (c d : R2Chan) (tone : Tone) : Prop where
  frame : ∃ q, d = { c with timers := q, out := d.out, mfWriteTone := tone }
  emits : c.Emits d [.tone tone] []

section Tones

variable {cx : R2Context} {env : Env} {c d e : R2Chan} {tone : Tone}

theorem R2Chan.Emits.refl (c : R2Chan) : c.Emits c [] [] := ⟨[], (List.append_nil _).symm, rfl, rfl⟩

theorem R2Chan.Emits.trans {xs ys : List Signal} {es fs : List Event} (h : c.Emits d xs es) (h' : d.Emits e ys fs) :
    c.Emits e (xs ++ ys) (es ++ fs) := by
  obtain ⟨as, ho, rfl, rfl⟩ := h
  obtain ⟨bs, ho', rfl, rfl⟩ := h'
  exact ⟨as ++ bs, by rw [ho', ho, List.append_assoc], List.filterMap_append, List.filterMap_append⟩

/-- A timer is armed. -/
theorem armTimer_sound (he : env.Sound) (slot : TimerSlot) (ms : Nat) (cb : TimerCallback) (c : R2Chan) :
    ∃ q, armTimer env slot ms cb c = { c with timers := q, out := c.out ++ [.gettimeofday] } := by
  obtain ⟨now, hnow⟩ := Option.isSome_iff_exists.mp (he.clock c.out)
  simp only [armTimer, addTimer, hnow]
  exact ⟨_, rfl⟩

theorem prepareMfTone_starts (he : env.Sound) (ht : tone ≠ 0) (hw : c.mfWriteTone = 0) :
    prepareMfTone cx env tone c = startMfTone cx env tone (c.did (.mfSelectTone c.mfWriteHandle tone)) := by
  have hne : ¬ c.mfWriteTone = tone := by
    rw [hw]
    exact ht.symm
  rw [prepareMfTone, if_neg fun h => ht h.1, selectMfTone, if_neg hne]
  simp only [he.select, Bool.true_eq_false, if_false, if_neg ht]

theorem prepareMfTone_plays (he : env.Sound) (ht : tone ≠ 0) (hw : c.mfWriteTone = 0) :
    c.Plays (prepareMfTone cx env tone c) tone := by
  have hfl : ∀ h, env.flushWriteBuffers h = true := he.flush
  rw [prepareMfTone_starts he ht hw, startMfTone]
  by_cases hb : c.direction = .backward
  · obtain ⟨q, hq⟩ := armTimer_sound he .mfBackCycle cx.timers.mfBackCycle .mfBackCycleTimeoutExpired
      (c.did (.mfSelectTone c.mfWriteHandle tone))
    have hb' : (c.did (.mfSelectTone c.mfWriteHandle tone)).direction = .backward := hb
    rw [if_pos hb', hq]
    simp only [hfl, if_true]
    exact ⟨⟨q, rfl⟩, ⟨[.mfSelectTone c.mfWriteHandle tone, .gettimeofday, .flushWriteBuffers],
      by simp [R2Chan.did, R2Chan.setMfWriteTone], rfl, rfl⟩⟩
  · have hb' : ¬ (c.did (.mfSelectTone c.mfWriteHandle tone)).direction = .backward := hb
    rw [if_neg hb']
    simp only [hfl, if_true]
    exact ⟨⟨c.timers, rfl⟩, ⟨[.mfSelectTone c.mfWriteHandle tone, .flushWriteBuffers],
      by simp [R2Chan.did, R2Chan.setMfWriteTone], rfl, rfl⟩⟩

theorem setSilence_plays (he : env.Sound) (hw : c.mfWriteTone ≠ 0) : c.Plays (setSilence cx env c) 0 := by
  have hsel : setSilence cx env c =
      ((c.did .flushWriteBuffers).did (.mfSelectTone c.mfWriteHandle 0)).setMfWriteTone 0 := by
    have hne : ¬ (c.did .flushWriteBuffers).mfWriteTone = 0 := hw
    rw [setSilence, prepareMfTone, if_pos ⟨rfl, hw⟩]
    simp only [he.flush, if_true]
    rw [selectMfTone, if_neg hne]
    simp only [he.select, Bool.true_eq_false, if_false, if_true]
    rfl
  rw [hsel]
  exact ⟨⟨c.timers, rfl⟩, ⟨[.flushWriteBuffers, .mfSelectTone c.mfWriteHandle 0],
    by simp [R2Chan.did, R2Chan.setMfWriteTone], rfl, rfl⟩⟩

end Tones

namespace Talk

variable (cx : R2Context)

/-- The groups and the states of the two sides with a word. -/
def calledGroup (t : Talk) : MfGroup :=
  match t.word with
  | .dnis | .dnisEnd => if t.taken = 0 then .backInit else .ga
  | .category | .ani | .aniEnd => if cx.gaTones.requestCategory ≠ 0 then .ga else .gc
  | .groupTwo => .gb

def calledState (t : Talk) : MfState :=
  match t.word with
  | .dnis | .dnisEnd => if t.taken = 0 then .seizeAckTxd else .dnisRqTxd
  | .category => .categoryRqTxd
  | .ani | .aniEnd => .aniRqTxd
  | .groupTwo => .chgGiiTxd

def callerGroup (t : Talk) : MfGroup :=
  if t.word = .groupTwo then .gii else if t.InGroupC cx then .giii else .gi

def callerState (t : Talk) : MfState :=
  match t.word with
  | .dnis => .dnisTxd
  | .dnisEnd => .dnisEndTxd
  | .category | .groupTwo => .categoryTxd
  | .ani => .aniTxd
  | .aniEnd => .aniEndTxd

end Talk

section Sides

variable (cx : R2Context) (k : Dialled)

/-- What the called side knows. -/
structure R2Chan.Knows (c : R2Chan) (t : Talk) : Prop where
  direction : c.direction = .backward
  callState : c.callState = .collecting
  dnisLen : c.dnisLen = t.taken
  dnis : ∃ tail, c.dnis = k.dnis.take t.taken ++ 0 :: tail
  dnisSize : c.dnis.length = maxDnisBuffer
  aniLen : c.aniLen = t.heard
  ani : ∃ tail, c.ani = k.aniDigits.take t.heard ++ 0 :: tail
  aniSize : c.ani.length = maxAniBuffer
  category : c.callerCategory = if t.named then k.category else Tone.invalid
  restricted : c.callerAniIsRestricted = (t.ended && k.hidden cx)

/-- It waits for this word. -/
structure R2Chan.Awaits (c : R2Chan) (t : Talk) : Prop extends c.Knows cx k t where
  group : c.mfGroup = t.calledGroup cx
  state : c.mfState = t.calledState

/-- It has heard this word, and is silent. -/
structure R2Chan.Took (c : R2Chan) (t : Talk) : Prop extends c.Knows cx k t.hear where
  group : c.mfGroup = t.calledGroup cx
  silent : c.mfWriteTone = 0

/-- It asks for the next word. -/
structure R2Chan.Asks (c d : R2Chan) (t next : Talk) : Prop where
  awaits : d.Awaits cx k next
  tone : d.mfWriteTone = t.requestTone cx next
  readTone : d.mfReadTone = c.mfReadTone
  emits : c.Emits d [.tone (t.requestTone cx next)] []

/-- It offers the call to its user. -/
structure R2Chan.Offers (c d : R2Chan) (t : Talk) : Prop where
  callState : d.callState = .offered
  emits : ∃ sent, c.Emits d sent [t.offer cx k]

def R2Chan.Replies (c d : R2Chan) (t : Talk) : Option Talk → Prop
  | some next => c.Asks cx k d t next
  | none => c.Offers cx k d t.hear

/-- What the caller has to say. -/
structure R2Chan.Carries (c : R2Chan) : Prop where
  direction : c.direction = .forward
  r2State : c.r2State = .seizeAckRxd
  dnis : ∃ tail, c.dnis = k.dnis ++ 0 :: tail
  ani : ∀ a ∈ k.ani, ∃ tail, c.ani = a ++ 0 :: tail
  restricted : c.callerAniIsRestricted = k.restricted
  category : c.callerCategory = k.category

/-- It says this word. -/
structure R2Chan.Says (c : R2Chan) (t : Talk) : Prop extends c.Carries k where
  group : c.mfGroup = t.callerGroup cx
  state : c.mfState = t.callerState
  index : t.GoesOn cx → c.dnisIndex + 1 = t.hear.taken
  aniPtr : c.aniPtr = k.ani.map fun _ => t.hear.heard
  unnamed : t.word = .dnis ∨ t.word = .dnisEnd → t.named = false → c.categorySent = false
  named : t.word = .category ∨ t.word = .ani → c.categorySent = true

end Sides

section Called

variable {cx : R2Context} {env : Env} {k : Dialled} {t u : Talk} {c d : R2Chan}

theorem R2Chan.Knows.congr (h : c.Knows cx k t) (hd : d = { c with
    mfGroup := d.mfGroup, mfState := d.mfState, timers := d.timers, out := d.out,
    mfWriteTone := d.mfWriteTone, mfReadTone := d.mfReadTone }) : d.Knows cx k t := by
  rw [hd]
  exact ⟨h.direction, h.callState, h.dnisLen, h.dnis, h.dnisSize, h.aniLen, h.ani, h.aniSize, h.category,
    h.restricted⟩

theorem R2Chan.Awaits.congr (h : c.Awaits cx k t) (hd : d = { c with
    timers := d.timers, out := d.out, mfWriteTone := d.mfWriteTone, mfReadTone := d.mfReadTone }) :
    d.Awaits cx k t := by
  refine ⟨h.toKnows.congr ?_, ?_, ?_⟩
  · rw [hd]
  · rw [hd]
    exact h.group
  · rw [hd]
    exact h.state

theorem R2Chan.Knows.word (h : c.Knows cx k t) (w : Word) : c.Knows cx k { t with word := w } :=
  ⟨h.direction, h.callState, h.dnisLen, h.dnis, h.dnisSize, h.aniLen, h.ani, h.aniSize, h.category, h.restricted⟩

/-- The tone of a request is one. -/
theorem Talk.requestTone_ne_zero (hl : cx.Legible) (t u : Talk) : t.requestTone cx u ≠ 0 := by
  have hc : t.InGroupC cx → cx.gaTones.requestCategory = 0 := fun h => h.1
  simp only [Talk.requestTone]
  cases u.word with
  | dnis | dnisEnd =>
    dsimp only
    split_ifs with h
    · exact (hl.groupC (hc h)).2.2.1
    · exact hl.askDnis
  | category => exact hl.askCategory.1
  | ani | aniEnd =>
    dsimp only
    split_ifs with h
    · exact h
    · exact (hl.groupA fun h0 => h (hl.groupC h0).1).2.2.1
  | groupTwo =>
    dsimp only
    split_ifs with h
    · exact (hl.groupC (hc h)).2.1
    · exact hl.askGroupTwo.1

theorem Talk.calledGroup_gc (t : Talk) : t.calledGroup cx = .gc ↔ t.InGroupC cx := by
  cases hw : t.word with
  | dnis | dnisEnd =>
    simp only [Talk.calledGroup, Talk.InGroupC, hw]
    split_ifs <;> simp
  | category | ani | aniEnd => simp [Talk.calledGroup, Talk.InGroupC, hw]
  | groupTwo => simp [Talk.calledGroup, Talk.InGroupC, hw]

/-- A request is sent, in the group and with the state that go with it. -/
theorem R2Chan.Took.asks (he : env.Sound) (hl : cx.Legible) (h : c.Took cx k t)
    (hu : u = { t.hear with word := u.word }) :
    c.Asks cx k (prepareMfTone cx env (t.requestTone cx u)
      ((c.setMfGroup (u.calledGroup cx)).setMfState u.calledState)) t u := by
  set e := (c.setMfGroup (u.calledGroup cx)).setMfState u.calledState with hedef
  have ha : e.Awaits cx k u := by
    refine ⟨?_, rfl, rfl⟩
    rw [hu]
    exact (h.toKnows.congr (d := e) rfl).word _
  have hp : e.Plays (prepareMfTone cx env (t.requestTone cx u) e) (t.requestTone cx u) :=
    prepareMfTone_plays he (Talk.requestTone_ne_zero hl t u) h.silent
  obtain ⟨⟨q, hd⟩, hem⟩ := hp
  exact ⟨ha.congr (by rw [hd]), by rw [hd], by rw [hd]; rfl, ⟨hem.out⟩⟩

theorem R2Chan.Took.gc (h : c.Took cx k t) : c.mfGroup = .gc ↔ t.InGroupC cx := by
  rw [h.group]
  exact t.calledGroup_gc

theorem requestNextDnisDigit_asks (he : env.Sound) (hl : cx.Legible) (h : c.Took cx k t)
    (hw : u.word = .dnis ∨ u.word = .dnisEnd) (hu : u = { t.hear with word := u.word }) (h0 : 0 < u.taken) :
    c.Asks cx k (requestNextDnisDigit cx env c) t u := by
  have ht : (if c.mfGroup = .gc then cx.gcTones.requestNextDnisDigitAndChangeToGa
      else cx.gaTones.requestNextDnisDigit) = t.requestTone cx u := by
    simp only [h.gc]
    rcases hw with hw | hw <;> simp only [Talk.requestTone, hw]
  have hg : u.calledGroup cx = .ga := by
    rcases hw with hw | hw <;> simp only [Talk.calledGroup, hw, if_neg (Nat.ne_of_gt h0)]
  have hm : u.calledState = .dnisRqTxd := by
    rcases hw with hw | hw <;> simp only [Talk.calledState, hw, if_neg (Nat.ne_of_gt h0)]
  have ha := h.asks he hl hu
  rw [hg, hm] at ha
  rw [requestNextDnisDigit, ht]
  exact ha

theorem requestNextAniDigit_asks (he : env.Sound) (hl : cx.Legible) (h : c.Took cx k t)
    (hw : u.word = .ani ∨ u.word = .aniEnd) (hu : u = { t.hear with word := u.word })
    (ht : t.word = .category ∨ t.word = .ani) : c.Asks cx k (requestNextAniDigit cx env c) t u := by
  have hg : u.calledGroup cx = c.mfGroup := by
    rw [h.group]
    rcases hw with hw | hw <;> rcases ht with ht | ht <;> simp only [Talk.calledGroup, hw, ht]
  have hm : u.calledState = .aniRqTxd := by
    rcases hw with hw | hw <;> simp only [Talk.calledState, hw]
  have hr : t.requestTone cx u = if cx.gcTones.requestNextAniDigit ≠ 0 then cx.gcTones.requestNextAniDigit
      else cx.gaTones.requestNextAniDigit := by
    rcases hw with hw | hw <;> simp only [Talk.requestTone, hw]
  have ha := h.asks he hl hu
  rw [hg, hm, hr] at ha
  rw [requestNextAniDigit]
  exact hr ▸ ha

theorem requestCallingPartyCategory_asks (he : env.Sound) (hl : cx.Legible) (h : c.Took cx k t) :
    c.Asks cx k (requestCallingPartyCategory cx env c) t { t.hear with word := .category } :=
  h.asks he hl (u := { t.hear with word := .category }) rfl

theorem requestChangeToG2_asks (he : env.Sound) (hl : cx.Legible) (h : c.Took cx k t) :
    c.Asks cx k (requestChangeToG2 cx env c) t { t.hear with word := .groupTwo } := by
  have ht : (if c.mfGroup = .gc then cx.gcTones.requestChangeToG2 else cx.gaTones.requestChangeToG2) =
      t.requestTone cx { t.hear with word := .groupTwo } := by
    simp only [h.gc, Talk.requestTone]
  rw [requestChangeToG2, ht]
  exact h.asks he hl (u := { t.hear with word := .groupTwo }) rfl

/-- A number in a buffer is read up to its end. -/
theorem cstr_number {xs buffer : List Tone} (hx : ∀ x ∈ xs, x.isDigit = true) (n : Nat)
    (hb : ∃ tail, buffer = xs.take n ++ 0 :: tail) : cstr buffer = xs.take n := by
  obtain ⟨tail, rfl⟩ := hb
  have h0 : ∀ x ∈ xs.take n, decide (x ≠ 0) = true := by
    intro x hmem
    refine decide_eq_true fun hz => ?_
    have hd := hx x (List.mem_of_mem_take hmem)
    rw [hz] at hd
    exact absurd hd (by decide)
  rw [cstr, List.takeWhile_append_of_pos h0]
  simp

theorem offerCall_offers (hs : k.Sayable cx) (h : c.Knows cx k u) : c.Offers cx k (offerCall cx env c) u := by
  have hnot : ¬ c.callState ≠ .collecting := not_not.mpr h.callState
  have hoffer : offerCall cx env c = (c.setCallState .offered).emit (u.offer cx k) := by
    rw [offerCall, if_neg hnot, cstr_number hs.ani _ h.ani, cstr_number hs.dnis _ h.dnis, h.category,
      h.restricted]
    rfl
  rw [hoffer]
  exact ⟨rfl, [], ⟨[.callState .offered, .event (u.offer cx k)],
    by simp [R2Chan.emit, R2Chan.did, R2Chan.setCallState], rfl, rfl⟩⟩

/-- A tone that may be none is put on a silent line. -/
theorem prepareMfTone_emits (he : env.Sound) (tone : Tone) (hw : c.mfWriteTone = 0) :
    ∃ sent, c.Emits (prepareMfTone cx env tone c) sent [] ∧
      (c.Knows cx k u → (prepareMfTone cx env tone c).Knows cx k u) := by
  by_cases ht : tone = 0
  · have hself : prepareMfTone cx env tone c = c := by
      rw [ht, prepareMfTone, if_neg fun h => h.2 hw, selectMfTone, if_pos hw]
    rw [hself]
    exact ⟨[], .refl c, id⟩
  · obtain ⟨⟨q, hd⟩, hem⟩ := prepareMfTone_plays he ht hw
    exact ⟨_, hem, fun h => h.congr (by rw [hd])⟩

theorem tryChangeToG2_replies (he : env.Sound) (hl : cx.Legible) (hs : k.Sayable cx) (h : c.Took cx k t) :
    c.Replies cx k (tryChangeToG2 cx env c) t (t.hear.finish cx) := by
  rw [tryChangeToG2, Talk.finish]
  split_ifs with hi
  · obtain ⟨sent, hem, hk⟩ : ∃ sent, _ ∧ (_ → R2Chan.Knows cx k _ t.hear) := prepareMfTone_emits he
      cx.gaTones.addressCompleteChargeSetup (c := c.setMfState .acceptedTxd) h.silent
    obtain ⟨hstate, sent', hem'⟩ : R2Chan.Offers cx k _ (offerCall cx env _) _ :=
      offerCall_offers hs (hk (h.toKnows.congr rfl))
    exact ⟨hstate, _, ⟨(hem.trans hem').out⟩⟩
  · exact requestChangeToG2_asks he hl h

theorem tryRequestCallingPartyCategory_replies (he : env.Sound) (hl : cx.Legible) (hs : k.Sayable cx)
    (h : c.Took cx k t) :
    c.Replies cx k (tryRequestCallingPartyCategory cx env c) t (t.hear.askWho cx) := by
  rw [tryRequestCallingPartyCategory, Talk.askWho]
  split_ifs
  · exact tryChangeToG2_replies he hl hs h
  · exact requestCallingPartyCategory_asks he hl h

theorem askDnis_replies (he : env.Sound) (hl : cx.Legible) (h : c.Took cx k t)
    (hf : t.Follows cx (t.hear.askDnis k)) :
    c.Asks cx k (requestNextDnisDigit cx env c) t (t.hear.askDnis k) := by
  have hw : (t.hear.askDnis k).word = .dnis ∨ (t.hear.askDnis k).word = .dnisEnd := by
    simp only [Talk.askDnis]
    split_ifs
    · exact .inl rfl
    · exact .inr rfl
  exact requestNextDnisDigit_asks he hl h hw hf.keeps (hf.dnis hw).2

theorem askAni_replies (he : env.Sound) (hl : cx.Legible) (h : c.Took cx k t)
    (hf : t.Follows cx (t.hear.askAni k)) :
    c.Asks cx k (requestNextAniDigit cx env c) t (t.hear.askAni k) := by
  have hw : (t.hear.askAni k).word = .ani ∨ (t.hear.askAni k).word = .aniEnd := by
    simp only [Talk.askAni]
    split_ifs
    · exact .inl rfl
    · exact .inr rfl
  exact requestNextAniDigit_asks he hl h hw hf.keeps (hf.ani hw)

theorem R2Chan.Took.complete (h : c.Took cx k t) : dnisComplete cx c ↔ t.hear.Complete cx := by
  rw [dnisComplete, Talk.Complete, h.dnisLen]

theorem doneGettingAni_replies (he : env.Sound) (hl : cx.Legible) (hs : k.Sayable cx) (h : c.Took cx k t)
    (hf : ∀ u, t.hear.aniDone cx k = some u → t.Follows cx u) :
    c.Replies cx k (doneGettingAni cx env c) t (t.hear.aniDone cx k) := by
  simp only [doneGettingAni, h.complete]
  rw [Talk.aniDone] at hf ⊢
  split_ifs at hf ⊢
  · exact tryChangeToG2_replies he hl hs h
  · exact askDnis_replies he hl h (hf _ rfl)

/-- Another digit is put behind a number in a buffer. -/
theorem store_number {xs buffer : List Tone} {n : Nat} (hn : n < xs.length) (hroom : n + 1 < buffer.length)
    (hb : ∃ tail, buffer = xs.take n ++ 0 :: tail) :
    ∃ tail, (buffer.set n (xs.getD n 0)).set (n + 1) 0 = xs.take (n + 1) ++ 0 :: tail := by
  obtain ⟨tail, rfl⟩ := hb
  have hlen : (xs.take n).length = n := List.length_take_of_le (Nat.le_of_lt hn)
  cases tail with
  | nil => simp at hroom
  | cons a tail =>
    refine ⟨tail, ?_⟩
    have hget : xs.getD n 0 = xs[n] := by
      rw [List.getD_eq_getElem?_getD, List.getElem?_eq_getElem hn, Option.getD_some]
    rw [List.take_succ_eq_append_getElem hn, hget, List.set_append_right _ _ (by omega),
      List.set_append_right _ _ (by omega), hlen, Nat.sub_self, Nat.add_sub_cancel_left, List.append_assoc]
    rfl

/-- It takes note of a word, tells its user, and goes on. -/
def R2Chan.Heeds (c d : R2Chan) (cx : R2Context) (k : Dialled) (t : Talk) : Prop :=
  ∃ e, c.Emits e [] (t.news cx k) ∧ e.mfReadTone = c.mfReadTone ∧ e.Replies cx k d t (t.hear.ask cx k)

theorem callback_emit (he : env.Sound) (ev : Event) (c : R2Chan) : callback cx env ev c = c.emit ev := by
  rw [callback, he.quiet]

theorem afterDnisDigit_replies (he : env.Sound) (hl : cx.Legible) (hs : k.Sayable cx) (h : c.Took cx k t)
    (hw : t.word = .dnis) (hf : ∀ u, t.hear.ask cx k = some u → t.Follows cx u) :
    c.Replies cx k (afterDnisDigit cx env true c) t (t.hear.ask cx k) := by
  have hlen : c.dnisLen = t.hear.taken := h.dnisLen
  rw [Talk.ask_hear, hw] at hf ⊢
  dsimp only at hf ⊢
  simp only [afterDnisDigit, Bool.true_eq_false, or_false, h.complete, hlen]
  split_ifs at hf ⊢
  · exact tryRequestCallingPartyCategory_replies he hl hs h
  · exact tryChangeToG2_replies he hl hs h
  · exact tryRequestCallingPartyCategory_replies he hl hs h
  · exact askDnis_replies he hl h (hf _ rfl)

theorem dnisDigit_heeds (he : env.Willing) (hl : cx.Legible) (hs : k.Sayable cx)
    (hfits : t.Fits cx k) (h : c.Awaits cx k t) (hq : c.mfWriteTone = 0) (hw : t.word = .dnis)
    (hf : ∀ u, t.hear.ask cx k = some u → t.Follows cx u) :
    c.Heeds (mfReceiveExpectedDnis cx env (t.tone cx k) c) cx k t := by
  have hn := hfits.dnis_lt hw
  have htone : t.tone cx k = k.dnis.getD t.taken 0 := by simp only [Talk.tone, hw]
  have hdigit : (t.tone cx k).isDigit = true := by
    rw [htone, List.getD_eq_getElem?_getD, List.getElem?_eq_getElem hn, Option.getD_some]
    exact hs.dnis _ (List.getElem_mem hn)
  have hroom : ¬ c.dnisLen = maxDnisBuffer - 1 := by
    have := hs.dnisFits
    rw [h.dnisLen]
    omega
  have hhear : t.hear = { t with taken := t.taken + 1 } := by simp only [Talk.hear, hw]
  set e := (storeDnisDigit (t.tone cx k) c).emit (.onDnisDigitReceived (t.tone cx k)) with hedef
  have hstore : storeDnisDigit (t.tone cx k) c = { c.did (.storeDnis t.taken (t.tone cx k)) with
      dnis := (c.dnis.set t.taken (t.tone cx k)).set (t.taken + 1) 0
      dnisLen := t.taken + 1 } := by
    rw [storeDnisDigit, if_neg hroom, h.dnisLen]
  have htook : e.Took cx k t := by
    rw [hedef, hstore]
    refine ⟨?_, h.group, hq⟩
    rw [hhear, htone]
    refine ⟨h.direction, h.callState, rfl, store_number hn ?_ h.dnis, ?_, h.aniLen, h.ani, h.aniSize,
      h.category, h.restricted⟩
    · have := hs.dnisFits
      rw [h.dnisSize]
      omega
    · simp only [R2Chan.emit, R2Chan.did, List.length_set]
      exact h.dnisSize
  have hgo : mfReceiveExpectedDnis cx env (t.tone cx k) c = afterDnisDigit cx env true e := by
    simp only [mfReceiveExpectedDnis, if_pos hdigit, callback_emit he.toSound, he.digits]
    rfl
  rw [hgo]
  refine ⟨e, ⟨[.storeDnis t.taken (t.tone cx k), .event (.onDnisDigitReceived (t.tone cx k))], ?_, rfl, ?_⟩, ?_,
    afterDnisDigit_replies he.toSound hl hs htook hw hf⟩
  · rw [hedef, hstore]
    simp [R2Chan.emit, R2Chan.did]
  · simp only [Talk.news, hw]
    rfl
  · rw [hedef, hstore]
    rfl

theorem dnisEnd_heeds (he : env.Sound) (hl : cx.Legible) (hs : k.Sayable cx)
    (h : c.Awaits cx k t) (hq : c.mfWriteTone = 0) (hw : t.word = .dnisEnd) :
    c.Heeds (mfReceiveExpectedDnis cx env (t.tone cx k) c) cx k t := by
  have htone : t.tone cx k = cx.g1Tones.noMoreDnisAvailable := by simp only [Talk.tone, hw]
  have hhear : t.hear = t := by simp only [Talk.hear, hw]
  have htook : c.Took cx k t := ⟨hhear.symm ▸ h.toKnows, h.group, hq⟩
  refine ⟨c, ⟨[], (List.append_nil _).symm, rfl, by simp [Talk.news, hw]⟩, rfl, ?_⟩
  have hlen : c.dnisLen = t.hear.taken := htook.dnisLen
  rw [htone, mfReceiveExpectedDnis, if_neg (by rw [hl.dnisEnd]; rintro ⟨⟩), if_pos rfl, Talk.ask_hear, hw]
  dsimp only
  rw [hlen]
  split_ifs
  · exact tryRequestCallingPartyCategory_replies he hl hs htook
  · exact tryChangeToG2_replies he hl hs htook

theorem aniDigit_heeds (he : env.Sound) (hl : cx.Legible) (hs : k.Sayable cx)
    (hfits : t.Fits cx k) (h : c.Awaits cx k t) (hq : c.mfWriteTone = 0) (hw : t.word = .ani)
    (hf : ∀ u, t.hear.ask cx k = some u → t.Follows cx u) :
    c.Heeds (mfReceiveExpectedAni cx env (t.tone cx k) c) cx k t := by
  have hn := (hfits.ani_lt hw).1
  have htone : t.tone cx k = k.aniDigits.getD t.heard 0 := by simp only [Talk.tone, hw]
  have hdigit : (t.tone cx k).isDigit = true := by
    rw [htone, List.getD_eq_getElem?_getD, List.getElem?_eq_getElem hn, Option.getD_some]
    exact hs.ani _ (List.getElem_mem hn)
  have h0 : t.tone cx k ≠ 0 := fun h => absurd (h ▸ hdigit) (by decide)
  have hhear : t.hear = { t with heard := t.heard + 1 } := by simp only [Talk.hear, hw]
  set e := (storeAniDigit (t.tone cx k) c).emit (.onAniDigitReceived (t.tone cx k)) with hedef
  have hstore : storeAniDigit (t.tone cx k) c = { c.did (.storeAni t.heard (t.tone cx k)) with
      ani := (c.ani.set t.heard (t.tone cx k)).set (t.heard + 1) 0
      aniLen := t.heard + 1 } := by
    rw [storeAniDigit, h.aniLen]
  have htook : e.Took cx k t := by
    rw [hedef, hstore]
    refine ⟨?_, h.group, hq⟩
    rw [hhear, htone]
    refine ⟨h.direction, h.callState, h.dnisLen, h.dnis, h.dnisSize, rfl, store_number hn ?_ h.ani, ?_,
      h.category, h.restricted⟩
    · have := hs.aniFits
      rw [h.aniSize]
      omega
    · simp only [R2Chan.emit, R2Chan.did, List.length_set]
      exact h.aniSize
  have hlen : e.aniLen = t.hear.heard := htook.aniLen
  have hgo : mfReceiveExpectedAni cx env (t.tone cx k) c =
      if t.hear.heard < uint32 cx.maxAni then requestNextAniDigit cx env e else doneGettingAni cx env e := by
    rw [← hlen, mfReceiveExpectedAni, if_pos (.inr hdigit)]
    simp only [if_pos h0, callback_emit he, h0, hl.aniFree, true_and, false_or]
    rfl
  rw [hgo]
  refine ⟨e, ⟨[.storeAni t.heard (t.tone cx k), .event (.onAniDigitReceived (t.tone cx k))], ?_, rfl, ?_⟩, ?_, ?_⟩
  · rw [hedef, hstore]
    simp [R2Chan.emit, R2Chan.did]
  · simp only [Talk.news, hw]
    rfl
  · rw [hedef, hstore]
    rfl
  · rw [Talk.ask_hear, hw] at hf ⊢
    dsimp only at hf ⊢
    split_ifs at hf ⊢
    · exact askAni_replies he hl htook (hf _ rfl)
    · exact doneGettingAni_replies he hl hs htook hf

/-- The ANI ends, and may be withheld. -/
theorem aniEnd_heeds (he : env.Sound) (hl : cx.Legible) (hs : k.Sayable cx)
    (hfits : t.Fits cx k) (h : c.Awaits cx k t) (hq : c.mfWriteTone = 0) (hw : t.word = .aniEnd)
    (hf : ∀ u, t.hear.ask cx k = some u → t.Follows cx u) :
    c.Heeds (mfReceiveExpectedAni cx env (t.tone cx k) c) cx k t := by
  obtain ⟨ha, hroom, -, hended⟩ := hfits.aniEnd_room hw
  have htone : t.tone cx k =
      if k.withheld then cx.g1Tones.callerAniIsRestricted else cx.g1Tones.noMoreAniAvailable := by
    simp only [Talk.tone, hw]
  have h0 : t.tone cx k ≠ 0 := htone ▸ hs.aniEnd ha hroom
  have hdigit : (t.tone cx k).isDigit = false := by
    rw [htone]
    split_ifs
    · exact hl.withheld
    · exact hl.aniEnd
  have hend : t.tone cx k = cx.g1Tones.noMoreAniAvailable ∨ t.tone cx k = cx.g1Tones.callerAniIsRestricted := by
    rw [htone]
    split_ifs
    · exact .inr rfl
    · exact .inl rfl
  have hhidden : k.hidden cx = decide (t.tone cx k = cx.g1Tones.callerAniIsRestricted) := by
    rw [htone, Dialled.hidden]
    cases k.withheld <;> simp
  have hhear : t.hear = { t with ended := true } := by simp only [Talk.hear, hw]
  set e := if t.tone cx k = cx.g1Tones.callerAniIsRestricted then c.restrictAni else c with hedef
  have hrestricted : e.callerAniIsRestricted = k.hidden cx := by
    rw [hedef, hhidden]
    split_ifs with hr
    · exact (decide_eq_true hr).symm
    · rw [h.restricted, hended, decide_eq_false hr]
      rfl
  have hframe : e = { c with callerAniIsRestricted := k.hidden cx } := by
    rw [← hrestricted, hedef]
    split_ifs <;> rfl
  have htook : e.Took cx k t := by
    rw [hframe]
    refine ⟨?_, h.group, hq⟩
    rw [hhear]
    exact ⟨h.direction, h.callState, h.dnisLen, h.dnis, h.dnisSize, h.aniLen, h.ani, h.aniSize, h.category,
      (Bool.true_and _).symm⟩
  have hgo : mfReceiveExpectedAni cx env (t.tone cx k) c = doneGettingAni cx env e := by
    have hno : ¬ (t.tone cx k = 0 ∨ (t.tone cx k).isDigit = true) :=
      fun h => h.elim h0 fun h => absurd (h.symm.trans hdigit) (by rintro ⟨⟩)
    rw [mfReceiveExpectedAni, if_neg hno, if_pos hend]
  rw [hgo]
  refine ⟨e, ⟨[], ?_, rfl, by simp only [Talk.news, hw]; rfl⟩, ?_, ?_⟩
  · rw [hframe]
    exact (List.append_nil _).symm
  · rw [hframe]
  · rw [Talk.ask_hear, hw] at hf ⊢
    exact doneGettingAni_replies he hl hs htook hf

theorem receiveCategory_heeds (he : env.Sound) (hl : cx.Legible) (hs : k.Sayable cx)
    (h : c.Awaits cx k t) (hq : c.mfWriteTone = 0) (hw : t.word = .category)
    (hf : ∀ u, t.hear.ask cx k = some u → t.Follows cx u) :
    c.Heeds (receiveCategory cx env (t.tone cx k) c) cx k t := by
  have htone : t.tone cx k = k.category := by simp only [Talk.tone, hw]
  have hhear : t.hear = { t with named := true } := by simp only [Talk.hear, hw]
  have hgroup : c.mfGroup = .ga ↔ cx.gaTones.requestCategory ≠ 0 := by
    rw [h.group]
    simp only [Talk.calledGroup, hw]
    split_ifs with hr <;> simp [hr]
  have htook : (c.setCallerCategory (t.tone cx k)).Took cx k t := by
    refine ⟨?_, h.group, hq⟩
    rw [hhear, htone]
    exact ⟨h.direction, h.callState, h.dnisLen, h.dnis, h.dnisSize, h.aniLen, h.ani, h.aniSize, rfl, h.restricted⟩
  refine ⟨c.setCallerCategory (t.tone cx k),
    ⟨[], (List.append_nil _).symm, rfl, by simp only [Talk.news, hw]; rfl⟩,
    rfl, ?_⟩
  have hani : ∀ d : R2Chan, mfReceiveExpectedAni cx env 0 d = requestNextAniDigit cx env d := fun _ => rfl
  have hgo : receiveCategory cx env (t.tone cx k) c =
      if 0 < cx.maxAni then requestNextAniDigit cx env (c.setCallerCategory (t.tone cx k))
      else if cx.gaTones.requestCategory ≠ 0 then tryChangeToG2 cx env (c.setCallerCategory (t.tone cx k))
      else requestChangeToG2 cx env (c.setCallerCategory (t.tone cx k)) := by
    simp only [receiveCategory, hani, gt_iff_lt, ← hgroup]
    rfl
  rw [hgo]
  rw [Talk.ask_hear, hw] at hf ⊢
  dsimp only at hf ⊢
  split_ifs at hf ⊢
  · exact askAni_replies he hl htook (hf _ rfl)
  · exact tryChangeToG2_replies he hl hs htook
  · exact requestChangeToG2_asks he hl htook

/-- Where a word is handled. -/
theorem handleForwardMfTone_word (hl : cx.Legible) (h : c.Awaits cx k t) (tone : Tone) :
    handleForwardMfTone cx env tone c = match t.word with
      | .dnis | .dnisEnd => mfReceiveExpectedDnis cx env tone (c.cancelTimer .mfBackCycle)
      | .category => receiveCategory cx env tone (c.cancelTimer .mfBackCycle)
      | .ani | .aniEnd => mfReceiveExpectedAni cx env tone (c.cancelTimer .mfBackCycle)
      | .groupTwo => offerCall cx env (c.cancelTimer .mfBackCycle) := by
  have hno : ¬ (cx.getAniFirst = true ∧ cx.aniCanComeFirst = true) :=
    fun h => absurd (h.2.symm.trans hl.aniLater) (by rintro ⟨⟩)
  have hg : (c.cancelTimer .mfBackCycle).mfGroup = t.calledGroup cx := h.group
  have hm : (c.cancelTimer .mfBackCycle).mfState = t.calledState := h.state
  simp only [handleForwardMfTone, hg, hm]
  cases hw : t.word with
  | dnis | dnisEnd =>
    simp only [Talk.calledGroup, Talk.calledState, hw]
    split_ifs <;> rfl
  | category | ani | aniEnd =>
    simp only [Talk.calledGroup, Talk.calledState, hw]
    split_ifs <;> rfl
  | groupTwo => simp only [Talk.calledGroup, Talk.calledState, hw]

/-- Every word is understood. -/
theorem handleForwardMfTone_heeds (he : env.Willing) (hl : cx.Legible) (hs : k.Sayable cx)
    (hfits : t.Fits cx k) (h : c.Awaits cx k t) (hq : c.mfWriteTone = 0)
    (hf : ∀ u, t.hear.ask cx k = some u → t.Follows cx u) :
    c.Heeds (handleForwardMfTone cx env (t.tone cx k) c) cx k t := by
  have ha : (c.cancelTimer .mfBackCycle).Awaits cx k t := ⟨h.toKnows.congr rfl, h.group, h.state⟩
  have hback : ∀ d, (c.cancelTimer .mfBackCycle).Heeds d cx k t → c.Heeds d cx k t :=
    fun d ⟨x, hx, hr, hd⟩ => ⟨x, ⟨hx.out⟩, hr, hd⟩
  rw [handleForwardMfTone_word hl h]
  refine hback _ ?_
  cases hw : t.word with
  | dnis => exact dnisDigit_heeds he hl hs hfits ha hq hw hf
  | dnisEnd => exact dnisEnd_heeds he.toSound hl hs ha hq hw
  | category => exact receiveCategory_heeds he.toSound hl hs ha hq hw hf
  | ani => exact aniDigit_heeds he.toSound hl hs hfits ha hq hw hf
  | aniEnd => exact aniEnd_heeds he.toSound hl hs hfits ha hq hw hf
  | groupTwo =>
    have hhear : t.hear = t := by simp only [Talk.hear, hw]
    refine ⟨c.cancelTimer .mfBackCycle, ⟨[], (List.append_nil _).symm, rfl, by simp only [Talk.news, hw]; rfl⟩,
      rfl, ?_⟩
    rw [Talk.ask_hear, hw]
    exact offerCall_offers hs (hhear.symm ▸ ha.toKnows)

end Called

end OpenR2
