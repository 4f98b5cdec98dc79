import Mathlib.Data.List.TakeWhile
import OpenR2.Requests
import OpenR2.Proofs.CallSteps

namespace OpenR2

/-- No digit is looked up, no tone is put on the line, and the call is not over. -/
def Act.Mute : Act → Prop
  | .readDnis _ | .readAni _ | .callState .idle => False
  | .mfSelectTone _ tone => tone = 0
  | _ => True

/-- No other tone is put on the line, no digit is looked up, and the call is not over. -/
def Act.Sounds (tone : Tone) (a : Act) : Prop := a.Mute ∨ ∃ h, a = .mfSelectTone h tone

theorem Act.Mute.not_idle {a : Act} (h : a.Mute) : a ≠ .callState .idle := by
  rintro rfl
  exact h

theorem Act.Sounds.not_idle {tone : Tone} {a : Act} (h : a.Sounds tone) : a ≠ .callState .idle := by
  rintro rfl
  rcases h with h | ⟨_, h⟩
  · exact h
  · exact nomatch h

theorem Act.Sounds.not_readAni {tone : Tone} {a : Act} (h : a.Sounds tone) : ∀ p, a ≠ .readAni p := by
  rintro p rfl
  rcases h with h | ⟨_, h⟩
  · exact h
  · exact nomatch h

theorem Act.Sounds.selects {tone tone' : Tone} {x : Option Nat} (h : (Act.mfSelectTone x tone').Sounds tone) :
    tone' = 0 ∨ tone' = tone := by
  rcases h with h | ⟨_, h⟩
  · exact .inl h
  · injection h with _ h
    exact .inr h

theorem untilIdle_append {as : List Act} (h : ∀ a ∈ as, a ≠ .callState .idle) (bs : List Act) :
    untilIdle (as ++ bs) = as ++ untilIdle bs :=
  List.takeWhile_append_of_pos fun a ha => decide_eq_true (h a ha)

theorem untilIdle_over {as : List Act} (h : ∀ a ∈ as, a ≠ .callState .idle) (bs : List Act) :
    untilIdle (as ++ .callState .idle :: bs) = as := by
  rw [untilIdle_append h, untilIdle, List.takeWhile_cons_of_neg (by simp), List.append_nil]

theorem untilIdle_live {as : List Act} (h : ∀ a ∈ as, a ≠ .callState .idle) : untilIdle as = as := by
  simpa [untilIdle] using untilIdle_append h []

/-- The numbers of an outgoing call, and how much of them has been sent. -/
structure Outbox where
  ani : List Tone
  aniPtr : Option Nat
  dnis : List Tone
  dnisIndex : Nat
  callerAniIsRestricted : Bool
  callerCategory : Tone

namespace R2Chan

def outbox (c : R2Chan) : Outbox where
  ani := c.ani
  aniPtr := c.aniPtr
  dnis := c.dnis
  dnisIndex := c.dnisIndex
  callerAniIsRestricted := c.callerAniIsRestricted
  callerCategory := c.callerCategory

/-- An outgoing call is on the channel. -/
structure Placed (c : R2Chan) : Prop where
  direction : c.direction = .forward
  call : c.callState ≠ .idle ∧ c.callState ≠ .offered
  line : c.r2State ≠ .idle
  group : ¬ c.mfGroup.Backward

/-- The call goes on, and nothing of the numbers is sent. -/
structure Bears (c d : R2Chan) : Prop where
  placed : d.Placed
  outbox : d.outbox = c.outbox
  mfState : d.mfState = c.mfState ∨ d.mfState.Decided
  dialled : c.r2State ≠ .seizeTxd → d.r2State ≠ .seizeTxd
  out : ∃ as, d.out = c.out ++ as ∧ ∀ a ∈ as, a.Mute

/-- The call comes to its end, and nothing is sent before. -/
def Fades (c d : R2Chan) : Prop :=
  ∃ as bs, d.out = c.out ++ as ++ .callState .idle :: bs ∧ ∀ a ∈ as, a.Mute

variable {c d e : R2Chan}

namespace Bears

/-- A change of the other fields. -/
theorem quiet (hc : c.Placed) (hn : d.outbox = c.outbox) (hd : d.direction = c.direction)
    (hs : d.callState = c.callState) (hr : d.r2State = c.r2State) (hg : d.mfGroup = c.mfGroup)
    (hm : d.mfState = c.mfState) (ho : d.out = c.out) : c.Bears d :=
  ⟨⟨hd.trans hc.direction, hs ▸ hc.call, hr ▸ hc.line, hg ▸ hc.group⟩, hn, .inl hm, fun h => hr ▸ h, [],
    by rw [ho, List.append_nil], by simp⟩

theorem refl (hc : c.Placed) : c.Bears c := quiet hc rfl rfl rfl rfl rfl rfl rfl

theorem trans (h : c.Bears d) (h' : d.Bears e) : c.Bears e := by
  obtain ⟨as, ho, ha⟩ := h.out
  obtain ⟨bs, ho', hb⟩ := h'.out
  refine ⟨h'.placed, h'.outbox.trans h.outbox, ?_, fun hc => h'.dialled (h.dialled hc), as ++ bs,
    by rw [ho', ho, List.append_assoc], fun a hm => ?_⟩
  · rcases h'.mfState with hm | hm
    · rw [hm]
      exact h.mfState
    · exact .inr hm
  · exact (List.mem_append.mp hm).elim (ha a) (hb a)

theorem did (hc : c.Placed) {a : Act} (ha : a.Mute) : c.Bears (c.did a) :=
  ⟨⟨hc.direction, hc.call, hc.line, hc.group⟩, rfl, .inl rfl, id, [a], rfl, by simpa using ha⟩

theorem setMfGroup (hc : c.Placed) {g : MfGroup} (hg : ¬ g.Backward) : c.Bears (c.setMfGroup g) :=
  ⟨⟨hc.direction, hc.call, hc.line, hg⟩, rfl, .inl rfl, id, [], (List.append_nil _).symm, by simp⟩

theorem aside (hc : c.Placed) (h : c.Aside d) : c.Bears d := by
  obtain ⟨as, ho, ha, hs⟩ := h.out
  have hn : ∀ {α : Type} (f : Numbers → α), f d.numbers = f c.numbers := fun f => congrArg f h.numbers
  refine ⟨⟨h.direction.trans hc.direction, ?_, ?_, h.mfGroup ▸ hc.group⟩, ?_, ?_, ?_, as, ho,
    fun a hm => ?_⟩
  · rcases h.callState with hs | hs | hs
    · exact hs ▸ hc.call
    · simp [hs]
    · simp [hs]
  · rcases h.r2State with hr | hr | ⟨-, hr⟩
    · exact hr ▸ hc.line
    · exact hr.1
    · simp [hr]
  · simp only [R2Chan.outbox, Outbox.mk.injEq]
    exact ⟨hn Numbers.ani, hn Numbers.aniPtr, hn Numbers.dnis, hn Numbers.dnisIndex,
      hn Numbers.callerAniIsRestricted, hn Numbers.callerCategory⟩
  · rcases h.mfState with hm | hm | hm | ⟨hx, -⟩
    · exact .inl hm
    · exact .inr (.inl hm)
    · exact .inr (.inr (.inr (.inr hm)))
    · exact absurd hx hc.call.2
  · intro hx
    rcases h.r2State with hr | hr | ⟨hr, -⟩
    · exact hr ▸ hx
    · exact hr.2.1
    · exact absurd hr hx
  · have hx := ha a hm
    cases a with
    | mfSelectTone x t => exact (hs x t hm).resolve_right hc.call.2
    | callState s =>
      rcases hx with rfl | rfl <;> trivial
    | readDnis => exact hx.elim
    | readAni => exact hx.elim
    | _ => trivial

theorem fades (h : c.Bears d) (h' : d.Fades e) : c.Fades e := by
  obtain ⟨as, ho, ha⟩ := h.out
  obtain ⟨bs, cs, ho', hb⟩ := h'
  refine ⟨as ++ bs, cs, by rw [ho', ho, List.append_assoc c.out], fun a hm => ?_⟩
  exact (List.mem_append.mp hm).elim (ha a) (hb a)

end Bears

theorem Fades.grows (h : c.Fades d) (xs : List Act) (ho : e.out = d.out ++ xs) : c.Fades e := by
  obtain ⟨as, bs, hd, ha⟩ := h
  exact ⟨as, bs ++ xs, by rw [ho, hd, List.append_assoc (c.out ++ as)]; rfl, ha⟩

theorem Reset.fades (h : c.Reset d) : c.Fades d := by
  obtain ⟨-, as, ho, ha⟩ := h
  refine ⟨as, [], ho, fun a hm => ?_⟩
  have hx := ha a hm
  cases a with
  | mfReadDispose => trivial
  | mfWriteDispose => trivial
  | _ => exact hx.elim

end R2Chan

theorem handleProtocolError_fades (cx : R2Context) (env : Env) (c : R2Chan) (reason : ProtocolError) :
    c.Fades (handleProtocolError cx env reason c) := by
  obtain ⟨as, bs, ho, ha⟩ := (protoInit_reset cx (c.did (.mfSelectTone c.mfWriteHandle 0))).fades
  have hp : c.Fades (protoInit cx (c.did (.mfSelectTone c.mfWriteHandle 0))) := by
    refine ⟨.mfSelectTone c.mfWriteHandle 0 :: as, bs, ?_, List.forall_mem_cons.mpr ⟨rfl, ha⟩⟩
    rw [ho]
    simp [R2Chan.did]
  refine hp.grows [.setCas (cx.casSignals .idle ||| cx.casNonr2Bits), .event (.onProtocolError reason)] ?_
  simp [handleProtocolError, setIdle, setCasSignal, R2Chan.emit, R2Chan.did, R2Chan.setCasTx]

/-- A tone is put on the line, or refused, and then the call is over. -/
inductive Speaks (tone : Tone) (c d : R2Chan) : Prop
  | said (h : c.Tuned d) (as : List Act) (out : d.out = c.out ++ as) (acts : ∀ a ∈ as, a.Sounds tone)
  | isOver (as bs : List Act) (out : d.out = c.out ++ as ++ .callState .idle :: bs)
      (acts : ∀ a ∈ as, a.Sounds tone)

theorem Speaks.told {tone : Tone} {c d : R2Chan} (h : Speaks tone c d)
    (hc : ∀ a ∈ c.out, a ≠ .callState .idle) :
    ∃ as, untilIdle d.out = c.out ++ as ∧ ∀ a ∈ as, a.Sounds tone := by
  have hl : ∀ as : List Act, (∀ a ∈ as, a.Sounds tone) → ∀ a ∈ c.out ++ as, a ≠ .callState .idle :=
    fun as ha a hm => (List.mem_append.mp hm).elim (hc a) fun hm => (ha a hm).not_idle
  cases h with
  | said _ as out acts => exact ⟨as, by rw [out, untilIdle_live (hl as acts)], acts⟩
  | isOver as bs out acts => exact ⟨as, by rw [out, untilIdle_over (hl as acts)], acts⟩

/-- The digit is looked up, and it or the end of the number is told. -/
inductive Spells (digit : Tone) (c d : R2Chan) : Prop
  | said (tone : Tone) (as : List Act) (out : d.out = c.out ++ .readDnis c.dnisIndex :: as)
      (acts : ∀ a ∈ as, a.Sounds tone) (placed : d.Placed) (outbox : d.outbox = c.outbox)
      (dialled : c.r2State ≠ .seizeTxd → d.r2State ≠ .seizeTxd)
      (tells : d.mfState = .dnisTxd → tone = digit)
  | isOver (tone : Tone) (as bs : List Act)
      (out : d.out = c.out ++ .readDnis c.dnisIndex :: as ++ .callState .idle :: bs)
      (acts : ∀ a ∈ as, a.Sounds tone)

/-- The byte that is sent next. -/
def R2Chan.dnisByte (env : Env) (c : R2Chan) : Tone := c.dnis.getD c.dnisIndex (env.pastDnis c.dnisIndex)

section Sending

variable (cx : R2Context) (env : Env)

theorem Act.Tuning.sounds {tone : Tone} {a : Act} (h : a.Tuning)
    (hs : ∀ x t, a = .mfSelectTone x t → t = tone) : a.Sounds tone := by
  cases a with
  | mfSelectTone x t => exact .inr ⟨x, by rw [hs x t rfl]⟩
  | flushWriteBuffers => exact .inl trivial
  | gettimeofday => exact .inl trivial
  | event => exact .inl trivial
  | _ => exact h.elim

theorem prepareMfTone_speaks (tone : Tone) (c : R2Chan) : Speaks tone c (prepareMfTone cx env tone c) := by
  by_cases hr : Refuses env tone c
  · -- the tone is tried before the call is given up
    have hx : ∀ d : R2Chan, d.mfWriteTone = c.mfWriteTone → env.mfSelectTone d.out = false →
        (∃ as, d.out = c.out ++ as ∧ ∀ a ∈ as, a.Mute) → Speaks tone c (selectMfTone cx env tone d) := by
      intro d hw hs ⟨as, ho, ha⟩
      obtain ⟨bs, cs, ho', hb⟩ := handleProtocolError_fades cx env
        (d.did (.mfSelectTone d.mfWriteHandle tone)) .internalError
      simp only [selectMfTone, if_neg (hw ▸ hr.1), hs, if_true]
      refine .isOver (as ++ .mfSelectTone d.mfWriteHandle tone :: bs) cs ?_ fun a hm => ?_
      · rw [ho', R2Chan.did, ho]
        simp
      · simp only [List.mem_append, List.mem_cons] at hm
        rcases hm with hm | rfl | hm
        · exact .inl (ha a hm)
        · exact .inr ⟨_, rfl⟩
        · exact .inl (hb a hm)
    obtain ⟨hw, hf⟩ := hr
    simp only [prepareMfTone]
    split_ifs at hf with h0
    · rw [if_pos ⟨h0, fun hz => hw (hz.trans h0.symm)⟩, if_pos hf.1]
      exact hx _ rfl hf.2 ⟨[.flushWriteBuffers], rfl, by simp [Act.Mute]⟩
    · rw [if_neg fun h => h0 h.1]
      exact hx c rfl hf ⟨[], (List.append_nil _).symm, by simp⟩
  · rcases prepareMfTone_cases cx env tone c with ⟨-, hd⟩ | ⟨h, -⟩
    · obtain ⟨as, ho, ha⟩ := hd.out
      obtain ⟨bs, ho', hb⟩ := prepareMfTone_selects cx env tone c hr
      obtain rfl : as = bs := List.append_cancel_left (ho.symm.trans ho')
      exact .said hd as ho fun a hm => (ha a hm).sounds fun x t he => hb x t (he ▸ hm)
    · exact absurd h hr

theorem R2Chan.Tuned.placed {c d : R2Chan} (h : c.Tuned d) (hc : c.Placed) : d.Placed := by
  obtain ⟨⟨q, w, hf⟩, -⟩ := h
  rw [hf]
  exact ⟨hc.direction, hc.call, hc.line, hc.group⟩

theorem R2Chan.Tuned.outbox {c d : R2Chan} (h : c.Tuned d) : d.outbox = c.outbox := by
  obtain ⟨⟨q, w, hf⟩, -⟩ := h
  rw [hf]
  rfl

theorem R2Chan.Tuned.states {c d : R2Chan} (h : c.Tuned d) :
    d.mfState = c.mfState ∧ d.r2State = c.r2State := by
  obtain ⟨⟨q, w, hf⟩, -⟩ := h
  rw [hf]
  exact ⟨rfl, rfl⟩

theorem mfSendDnisDigit_spells {c : R2Chan} (hc : c.Placed) :
    Spells (c.dnisByte env) c (mfSendDnisDigit cx env c) := by
  have hs : ∀ (m : MfState) (tone : Tone), (m = .dnisTxd → tone = c.dnisByte env) →
      Spells (c.dnisByte env) c
        (prepareMfTone cx env tone ((c.did (.readDnis c.dnisIndex)).setMfState m)) := by
    intro m tone ht
    have hp : ((c.did (.readDnis c.dnisIndex)).setMfState m).Placed :=
      ⟨hc.direction, hc.call, hc.line, hc.group⟩
    cases prepareMfTone_speaks cx env tone ((c.did (.readDnis c.dnisIndex)).setMfState m) with
    | said h as out acts =>
      obtain ⟨hm, hr⟩ := h.states
      refine .said tone as ?_ acts (h.placed hp) h.outbox (fun hx => hr ▸ hx) fun hx => ht (hm.symm.trans hx)
      rw [out]
      exact List.append_assoc _ _ _
    | isOver as bs out acts =>
      refine .isOver tone as bs ?_ acts
      rw [out]
      exact congrArg (· ++ _) (List.append_assoc _ _ _)
  simp only [mfSendDnisDigit]
  split_ifs
  · exact hs .dnisTxd _ fun _ => rfl
  · exact hs .dnisEndTxd _ (by rintro ⟨⟩)
  · have hp : ((c.did (.readDnis c.dnisIndex)).setMfState .waitingTimeout).Placed :=
      ⟨hc.direction, hc.call, hc.line, hc.group⟩
    obtain ⟨placed, outbox, hm, hr, as, ho, ha⟩ := R2Chan.Bears.aside hp (.armTimer env .mfFwdSafety
      cx.timers.mfFwdSafety .mfFwdSafetyTimeoutExpired _)
    refine .said 0 as ?_ (fun a hm => .inl (ha a hm)) placed outbox hr fun hx => ?_
    · rw [waitTimeout, ho]
      exact List.append_assoc _ _ _
    · have hm : (waitTimeout cx env (c.did (.readDnis c.dnisIndex))).mfState = .waitingTimeout ∨
          (waitTimeout cx env (c.did (.readDnis c.dnisIndex))).mfState.Decided := hm
      rw [hx] at hm
      rcases hm with hm | hm
      · cases hm
      · exact absurd hm (by simp [MfState.Decided])

/-- The call goes on afterwards, or comes to its end. -/
theorem Spells.after {digit : Tone} {c d e : R2Chan} (h : Spells digit c d)
    (hx : d.Placed → d.Bears e ∨ d.Fades e) (hg : ∃ xs, e.out = d.out ++ xs) : Spells digit c e := by
  cases h with
  | said tone as out acts placed outbox dialled tells =>
    rcases hx placed with ⟨placed', outbox', hm, hr, bs, ho, hb⟩ | ⟨bs, cs, ho, hb⟩
    · refine .said tone (as ++ bs) (by rw [ho, out]; simp) (fun a hm => ?_) placed'
        (outbox'.trans outbox) (fun hx => hr (dialled hx)) fun hx => ?_
      · exact (List.mem_append.mp hm).elim (acts a) fun hm => .inl (hb a hm)
      · rcases hm with hm | hm
        · exact tells (hm.symm.trans hx)
        · rw [hx] at hm
          exact absurd hm (by simp [MfState.Decided])
    · refine .isOver tone (as ++ bs) cs (by rw [ho, out]; simp) fun a hm => ?_
      exact (List.mem_append.mp hm).elim (acts a) fun hm => .inl (hb a hm)
  | isOver tone as bs out acts =>
    obtain ⟨xs, hxs⟩ := hg
    exact .isOver tone as (bs ++ xs) (by rw [hxs, out]; simp) acts

end Sending

section Turns

variable {cx : R2Context} {env : Env} {ways : Direction → Prop} {c d : R2Chan}

/-- What the elements of a step other than an answer to the called side can be in an
outgoing call. Only the first digit is sent in this way. -/
theorem Turns.outgoing (hf : ¬ ways .forward) (hb : ¬ ways .backward) (hc : c.Placed)
    (h : Turns cx env ways c d) : c.Bears d ∨ c.Fades d ∨ c.r2State = .seizeTxd ∧
      ∃ k, c.Bears k ∧ k.r2State ≠ .seizeTxd ∧ Spells (k.dnisByte env) k d := by
  induction h with
  | refl => exact .inl (.refl hc)
  | @tail d e _ h ih =>
    have hg : ∃ xs, e.out = d.out ++ xs := by
      obtain ⟨xs, ho, -⟩ := h.silent hb
      exact ⟨xs, ho⟩
    -- a call that is placed is not placed again, and has no other before it
    have hx : d.Placed → d.Bears e ∨ d.Fades e ∨
        d.r2State = .seizeTxd ∧ e = mfSendDnis cx env 0 ((d.setR2State .seizeAckRxd).setMfGroup .gi) := by
      intro hd
      cases h with
      | aside _ h => exact .inl (.aside hd h)
      | reset _ h => exact .inr (.inl h.fades)
      | seize _ _ h => exact absurd h.idle hd.line
      | place _ h => exact absurd h.idle hd.call.1
      | dial hr => exact .inr (.inr ⟨hr, rfl⟩)
      | send _ hw => exact absurd hw hf
      | collect _ hw => exact absurd hw hb
    rcases ih with ih | ih | ⟨hr, k, hk, hkr, ih⟩
    · rcases hx ih.placed with h | h | ⟨hr, rfl⟩
      · exact .inl (ih.trans h)
      · exact .inr (.inl (ih.fades h))
      · have hs := R2Chan.Bears.aside ih.placed (.setR2State d .seizeAckRxd (.inr ⟨hr, rfl⟩))
        have hk := (ih.trans hs).trans (.setMfGroup hs.placed (g := .gi) id)
        refine .inr (.inr ⟨?_, _, hk, nofun, mfSendDnisDigit_spells cx env hk.placed⟩)
        by_contra hn
        exact ih.dialled hn hr
    · obtain ⟨xs, hxs⟩ := hg
      exact .inr (.inl (ih.grows xs hxs))
    · refine .inr (.inr ⟨hr, k, hk, hkr, ?_⟩)
      cases ih with
      | said tone as out acts placed outbox dialled tells =>
        refine Spells.after (.said tone as out acts placed outbox dialled tells) (fun hd => ?_) hg
        rcases hx hd with h | h | ⟨hr, -⟩
        · exact .inl h
        · exact .inr h
        · exact absurd hr (dialled hkr)
      | isOver tone as bs out acts =>
        obtain ⟨xs, hxs⟩ := hg
        exact .isOver tone as (bs ++ xs) (by rw [hxs, out]; simp) acts

/-- Nothing is sent once the seize has been acknowledged. -/
theorem Turns.outgoing_dialled (hf : ¬ ways .forward) (hb : ¬ ways .backward) (hc : c.Placed)
    (hr : c.r2State ≠ .seizeTxd) (h : Turns cx env ways c d) : c.Bears d ∨ c.Fades d := by
  rcases h.outgoing hf hb hc with h | h | ⟨hx, -⟩
  · exact .inl h
  · exact .inr h
  · exact absurd hx hr

end Turns

/-- Something else than a digit of the DNIS is told. -/
inductive Tells (c d : R2Chan) : Prop
  | said (as : List Act) (out : d.out = c.out ++ as)
      (acts : ∀ a ∈ as, a ≠ .callState .idle ∧ ∀ i, a ≠ .readDnis i) (placed : d.Placed)
      (dnis : d.dnis = c.dnis ∧ d.dnisIndex = c.dnisIndex) (ani : c.aniPtr = none → d.aniPtr = none)
      (mfState : d.mfState ≠ .dnisTxd)
  | isOver (as bs : List Act) (out : d.out = c.out ++ as ++ .callState .idle :: bs)
      (acts : ∀ a ∈ as, a ≠ .callState .idle ∧ ∀ i, a ≠ .readDnis i)

/-- Where the index goes for a request of this offset. -/
def cursor (offset : Int) (index : Nat) : Nat := if offset = 0 then 0 else (index + offset).toNat

section Serving

variable (cx : R2Context) (env : Env) {c : R2Chan}

theorem Act.Sounds.tells {tone : Tone} {a : Act} (h : a.Sounds tone) :
    a ≠ .callState .idle ∧ ∀ i, a ≠ .readDnis i := by
  refine ⟨h.not_idle, fun i hi => ?_⟩
  subst hi
  rcases h with h | ⟨_, h⟩
  · exact h
  · exact nomatch h

theorem Act.Mute.tells {a : Act} (h : a.Mute) : a ≠ .callState .idle ∧ ∀ i, a ≠ .readDnis i :=
  @Act.Sounds.tells 0 a (.inl h)

theorem Speaks.tells {tone : Tone} {k d : R2Chan} (pre : List Act) (hk : k.Placed)
    (ho : k.out = c.out ++ pre) (hp : ∀ a ∈ pre, a ≠ .callState .idle ∧ ∀ i, a ≠ .readDnis i)
    (hn : k.dnis = c.dnis ∧ k.dnisIndex = c.dnisIndex) (ha : c.aniPtr = none → k.aniPtr = none)
    (hm : k.mfState ≠ .dnisTxd) (h : Speaks tone k d) : Tells c d := by
  cases h with
  | said h as out acts =>
    have hx : ∀ {α : Type} (f : Outbox → α), f d.outbox = f k.outbox := fun f => congrArg f h.outbox
    refine .said (pre ++ as) (by rw [out, ho, List.append_assoc]) (fun a hm => ?_) (h.placed hk)
      ⟨(hx Outbox.dnis).trans hn.1, (hx Outbox.dnisIndex).trans hn.2⟩
      (fun hc => (hx Outbox.aniPtr).trans (ha hc)) (h.states.1 ▸ hm)
    exact (List.mem_append.mp hm).elim (hp a) fun hm => (acts a hm).tells
  | isOver as bs out acts =>
    refine .isOver (pre ++ as) bs (by rw [out, ho]; simp) fun a hm => ?_
    exact (List.mem_append.mp hm).elim (hp a) fun hm => (acts a hm).tells

theorem mfSendCategory_tells (hc : c.Placed) : Tells c (mfSendCategory cx env c) := by
  have hp : (c.setMfState .categoryTxd).setCategorySent.Placed :=
    ⟨hc.direction, hc.call, hc.line, hc.group⟩
  exact (prepareMfTone_speaks cx env c.callerCategory _).tells [] hp (List.append_nil _).symm (by simp)
    ⟨rfl, rfl⟩ id nofun

theorem nextAni_tells {d : R2Chan} (h : Tells c d) : Tells c (nextAni d) := by
  cases h with
  | said as out acts placed dnis ani mfState =>
    refine .said as out acts ⟨placed.direction, placed.call, placed.line, placed.group⟩ dnis
      (fun hc => ?_) mfState
    rw [nextAni, ani hc]
    rfl
  | isOver as bs out acts => exact .isOver as bs out acts

theorem mfSendAniDigit_tells (hc : c.Placed) : Tells c (mfSendAniDigit cx env c) := by
  have hp : ∀ (m : MfState) (a : Act), ((c.did a).setMfState m).Placed := fun _ _ =>
    ⟨hc.direction, hc.call, hc.line, hc.group⟩
  have hr : ∀ a ∈ [Act.readAni c.aniPtr], a ≠ .callState .idle ∧ ∀ i, a ≠ .readDnis i := by simp
  have hs : ∀ (m : MfState) (tone : Tone), m ≠ .dnisTxd →
      Tells c (prepareMfTone cx env tone ((c.did (.readAni c.aniPtr)).setMfState m)) := fun m tone hm =>
    (prepareMfTone_speaks cx env tone _).tells _ (hp m _) rfl hr ⟨rfl, rfl⟩ id hm
  simp only [mfSendAniDigit]
  split_ifs
  · have hp : (c.setMfState .aniEndTxd).Placed := ⟨hc.direction, hc.call, hc.line, hc.group⟩
    exact (prepareMfTone_speaks cx env _ _).tells [] hp (List.append_nil _).symm (by simp) ⟨rfl, rfl⟩
      id (by rintro ⟨⟩)
  · exact nextAni_tells (hs .aniTxd _ (by rintro ⟨⟩))
  · exact hs .aniEndTxd _ (by rintro ⟨⟩)
  · exact hs .aniEndTxd _ (by rintro ⟨⟩)
  · obtain ⟨placed, outbox, hm, -, as, ho, ha⟩ := R2Chan.Bears.aside (hp .waitingTimeout (.readAni c.aniPtr))
      (.armTimer env .mfFwdSafety cx.timers.mfFwdSafety .mfFwdSafetyTimeoutExpired _)
    have hx : ∀ {α : Type} (f : Outbox → α), f (waitTimeout cx env (c.did (.readAni c.aniPtr))).outbox =
        f c.outbox := fun f => congrArg f outbox
    refine .said (.readAni c.aniPtr :: as) ?_ ?_ placed ⟨hx Outbox.dnis, hx Outbox.dnisIndex⟩
      (fun hc => (hx Outbox.aniPtr).trans hc) fun hx => ?_
    · rw [waitTimeout, ho]
      exact List.append_assoc _ _ _
    · exact List.forall_mem_cons.mpr ⟨by simp, fun a hm => (ha a hm).tells⟩
    · have hm : (waitTimeout cx env (c.did (.readAni c.aniPtr))).mfState = .waitingTimeout ∨
          (waitTimeout cx env (c.did (.readAni c.aniPtr))).mfState.Decided := hm
      rw [hx] at hm
      rcases hm with hm | hm
      · cases hm
      · exact absurd hm (by simp [MfState.Decided])

/-- The user may do anything when he hears of the acceptance. -/
theorem handleAcceptTone_outgoing (hc : c.Placed) (mode : CallMode) :
    c.Bears (handleAcceptTone cx env mode c) ∨ c.Fades (handleAcceptTone cx env mode c) := by
  have hr := R2Chan.Bears.aside hc (.setR2State c .acceptRxd (.inl (by decide)))
  simp only [handleAcceptTone]
  have he := hr.trans (R2Chan.Bears.did hr.placed (a := .event (.onCallAccepted mode)) trivial)
  have ht := (callback_turns cx env (fun _ => False) (c.setR2State .acceptRxd)
    (.onCallAccepted mode)).outgoing_dialled id id he.placed (by rintro ⟨⟩)
  split_ifs
  · exact ht.imp he.trans he.fades
  · rcases ht with ht | ht
    · have hd := he.trans ht
      exact .inl (hd.trans (.aside hd.placed (callAnswered_aside cx _)))
    · obtain ⟨as, ho, -⟩ := (callAnswered_aside cx
        (callback cx env (.onCallAccepted mode) (c.setR2State .acceptRxd))).out
      exact .inr ((he.fades ht).grows as ho)
  · have ha := R2Chan.Bears.aside hr.placed (.armTimer env .r2Answer cx.timers.r2Answer
      .r2AnswerTimeoutExpired _)
    exact .inl ((hr.trans ha).trans (.did ha.placed trivial))

theorem dnisRequest_cases {tone : Tone} {offset : Int} (h : dnisRequest cx tone = some offset) :
    offset = 1 ∨ offset = -1 ∨ offset = -2 ∨ offset = -3 ∨ offset = 0 := by
  simp only [dnisRequest] at h
  split_ifs at h <;> obtain rfl := Option.some.inj h <;> decide

/-- What can be asked of the DNIS, and where. -/
theorem R2Chan.request_dnis {tone : Tone} {offset : Int} {g : MfGroup}
    (h : c.request cx tone = .dnis offset g) :
    g = .gi ∧ (offset = 1 ∨ offset = -1 ∨ offset = -2 ∨ offset = -3 ∨ offset = 0) := by
  have hx : aniRequest cx c = .dnis offset g → g = .gi ∧ offset = 1 := by
    simp only [aniRequest]
    split_ifs
    · intro h
      injection h with h1 h2
      exact ⟨h2.symm, h1.symm⟩
    · rintro ⟨⟩
  simp only [R2Chan.request] at h
  split at h
  · simp only [groupARequest] at h
    split at h
    · injection h with h1 h2
      exact ⟨h2.symm, h1 ▸ dnisRequest_cases cx ‹_›⟩
    · split_ifs at h
      obtain ⟨h1, h2⟩ := hx h
      exact ⟨h1, .inl h2⟩
  · simp only [groupBRequest] at h
    split_ifs at h
  · simp only [groupCRequest] at h
    split_ifs at h
    · obtain ⟨h1, h2⟩ := hx h
      exact ⟨h1, .inl h2⟩
    · injection h with h1 h2
      exact ⟨h2.symm, .inl h1.symm⟩
  · cases h

/-- The category is sent in a group of this side. -/
theorem R2Chan.request_category {tone : Tone} {g : MfGroup} (h : c.request cx tone = .category g) :
    ¬ g.Backward := by
  have hx : aniRequest cx c ≠ .category g := by
    simp only [aniRequest]
    split_ifs <;> rintro ⟨⟩
  simp only [R2Chan.request] at h
  split at h
  · simp only [groupARequest] at h
    split at h
    · cases h
    · split_ifs at h
      · exact absurd h hx
      all_goals
        injection h with h
        subst h
        exact id
  · simp only [groupBRequest] at h
    split_ifs at h
  · simp only [groupCRequest] at h
    split_ifs at h
    · exact absurd h hx
    · injection h with h
      subst h
      exact id
  · cases h

/-- A request for the DNIS moves the index, and the digit there is told. -/
theorem handleDnisRequest_cursor {offset : Int}
    (h : offset = 1 ∨ offset = -1 ∨ offset = -2 ∨ offset = -3 ∨ offset = 0) :
    handleDnisRequest cx env offset c =
      mfSendDnisDigit cx env (c.setDnisIndex (cursor offset c.dnisIndex)) := by
  have hm : ∀ k : Nat, cursor (-(k + 1 : Nat)) c.dnisIndex = c.dnisIndex - (k + 1) := by
    intro k
    rw [cursor, if_neg (by omega)]
    omega
  rcases h with rfl | rfl | rfl | rfl | rfl
  · rfl
  · rw [show cursor (-1) c.dnisIndex = c.dnisIndex - 1 from hm 0]
    rfl
  · rw [show cursor (-2) c.dnisIndex = c.dnisIndex - 2 from hm 1]
    rfl
  · rw [show cursor (-3) c.dnisIndex = c.dnisIndex - 3 from hm 2]
    rfl
  · rfl

end Serving

/-- How a step takes an outgoing call on. -/
inductive Errand (cx : R2Context) (c : R2Chan) (t : Tick) (d : R2Chan) : Prop
  | bears (h : c.start.Bears d)
  | fades (h : c.start.Fades d)
  | tells (h : Tells c.start d)
  | spells (i : Nat) (k : R2Chan)
      (hi : i = c.dnisIndex ∨ ∃ offset g, AsksFor cx c t (.dnis offset g) ∧ i = cursor offset c.dnisIndex)
      (hk : (c.start.setDnisIndex i).Bears k) (h : Spells (k.dnisByte t.env) k d)

section Ticks

variable {cx : R2Context} {c : R2Chan} {t : Tick}

theorem Ceases.unique {tone tone' : Tone} (h : Ceases cx c t tone) (h' : Ceases cx c t tone') :
    tone = tone' := h.2.2.2.2.1.symm.trans h'.2.2.2.2.1

theorem AsksFor.unique {r r' : Request} (h : AsksFor cx c t r) (h' : AsksFor cx c t r') : r = r' := by
  obtain ⟨tone, hc, rfl⟩ := h
  obtain ⟨tone', hc', rfl⟩ := h'
  rw [hc.unique hc']

/-- The channel when the detector has looked at the clock. -/
def R2Chan.checked (cx : R2Context) (env : Env) (c : R2Chan) : R2Chan :=
  (checkThreshold cx env 0 c.start).1

theorem R2Chan.checked_bears (cx : R2Context) (env : Env) (hc : c.Placed) (tone : Tone) :
    c.start.Bears (checkThreshold cx env tone c.start).1 := by
  obtain ⟨x, n, as, he, ha⟩ := checkThreshold_frame cx env tone c.start
  rw [he]
  refine ⟨⟨hc.direction, hc.call, hc.line, hc.group⟩, rfl, .inl rfl, id, as, rfl, fun a hm => ?_⟩
  rw [ha a hm]
  trivial

/-- What the called side asks for is what is done. -/
theorem tick_serves {r : Request} (h : AsksFor cx c t r) :
    (tick cx c t).1 = (serve cx t.env r (c.checked cx t.env)).setMfReadTone 0 := by
  obtain ⟨tone, ⟨hi, h0, hd, hm, rfl, hz⟩, rfl⟩ := h
  have hm : c.start.mfState ≠ .offState := hm
  have hr : c.start.mfReadTone ≠ 0 := h0
  have he : (tick cx c t).1 = handleToneOff cx t.env (c.checked cx t.env) := by
    simp only [tick, hi, step, handleMedia, handleMfTone, if_neg hm, if_neg hr, hz, R2Chan.checked]
    rfl
  obtain ⟨x, n, as, hk, -⟩ := checkThreshold_frame cx t.env 0 c.start
  have hs : handleToneOff cx t.env (c.checked cx t.env) =
      (handleBackwardMfSilence cx t.env (c.checked cx t.env).mfReadTone
        (c.checked cx t.env)).setMfReadTone 0 := by
    have hf : (c.checked cx t.env).direction = .forward := by
      rw [R2Chan.checked, hk]
      exact hd
    simp only [handleToneOff, hf]
  have hq : (c.checked cx t.env).request cx (c.checked cx t.env).mfReadTone = c.request cx c.mfReadTone := by
    rw [R2Chan.checked, hk]
    rfl
  rw [he, hs, handleBackwardMfSilence_serves, hq]

/-- What is done about a request, as the channel's output has it. -/
theorem AsksFor.output {r : Request} (h : AsksFor cx c t r) :
    (tick cx c t).2 = (serve cx t.env r (c.checked cx t.env)).out := by
  rw [show (tick cx c t).2 = (tick cx c t).1.out from rfl, tick_serves h]
  rfl

theorem Errand.of_turns (ways : Direction → Prop) (hf : ¬ ways .forward) (hb : ¬ ways .backward)
    (hc : c.Placed) {d : R2Chan} (h : Turns cx t.env ways c.start d) : Errand cx c t d := by
  have hs : c.start.Placed := ⟨hc.direction, hc.call, hc.line, hc.group⟩
  rcases h.outgoing hf hb hs with h | h | ⟨-, k, hk, -, h⟩
  · exact .bears h
  · exact .fades h
  · exact .spells c.dnisIndex k (.inl rfl) hk h

theorem Tells.from {k d : R2Chan} (hk : c.Bears k) (h : Tells k d) : Tells c d := by
  obtain ⟨-, outbox, -, -, as, ho, ha⟩ := hk
  have hx : ∀ {α : Type} (f : Outbox → α), f k.outbox = f c.outbox := fun f => congrArg f outbox
  have hp : ∀ a ∈ as, a ≠ .callState .idle ∧ ∀ i, a ≠ .readDnis i := fun a hm =>
    (ha a hm).tells
  cases h with
  | said bs out acts placed dnis ani mfState =>
    refine .said (as ++ bs) (by rw [out, ho, List.append_assoc]) (fun a hm => ?_) placed
      ⟨dnis.1.trans (hx Outbox.dnis), dnis.2.trans (hx Outbox.dnisIndex)⟩
      (fun hc => ani ((hx Outbox.aniPtr).trans hc)) mfState
    exact (List.mem_append.mp hm).elim (hp a) (acts a)
  | isOver bs cs out acts =>
    refine .isOver (as ++ bs) cs (by rw [out, ho]; simp) fun a hm => ?_
    exact (List.mem_append.mp hm).elim (hp a) (acts a)

/-- The tone is forgotten when it has been dealt with. -/
theorem Errand.heard {d : R2Chan} (h : Errand cx c t d) : Errand cx c t (d.setMfReadTone 0) := by
  have hq : d.Placed → d.Bears (d.setMfReadTone 0) := fun hd => .quiet hd rfl rfl rfl rfl rfl rfl rfl
  cases h with
  | bears h => exact .bears (h.trans (hq h.placed))
  | fades h => exact .fades (h.grows [] (List.append_nil _).symm)
  | tells h =>
    refine .tells ?_
    cases h with
    | said as out acts placed dnis ani mfState =>
      exact .said as out acts (hq placed).placed dnis ani mfState
    | isOver as bs out acts => exact .isOver as bs out acts
  | spells i k hi hk h =>
    exact .spells i k hi hk (h.after (fun hd => .inl (hq hd)) ⟨[], (List.append_nil _).symm⟩)

/-- A request for the DNIS moves the index, and the digit there is told. -/
theorem serve_dnis (hc : c.Placed) {offset : Int} {g : MfGroup} (h : AsksFor cx c t (.dnis offset g)) :
    ∃ k, (c.start.setDnisIndex (cursor offset c.dnisIndex)).Bears k ∧
      Spells (k.dnisByte t.env) k (serve cx t.env (.dnis offset g) (c.checked cx t.env)) := by
  have hk : c.start.Bears (c.checked cx t.env) := R2Chan.checked_bears cx t.env hc 0
  obtain ⟨tone, -, hr⟩ := h
  obtain ⟨rfl, ho⟩ := c.request_dnis cx hr
  obtain ⟨placed, outbox, hm, hd, hout⟩ := hk.trans (.setMfGroup hk.placed (g := .gi) id)
  have hp : (((c.checked cx t.env).setMfGroup .gi).setDnisIndex (cursor offset c.dnisIndex)).Placed :=
    ⟨placed.direction, placed.call, placed.line, placed.group⟩
  have hi : ((c.checked cx t.env).setMfGroup .gi).dnisIndex = c.dnisIndex :=
    congrArg Outbox.dnisIndex outbox
  simp only [serve, handleDnisRequest_cursor cx t.env ho, hi]
  refine ⟨_, ⟨hp, ?_, hm, hd, hout⟩, mfSendDnisDigit_spells cx t.env hp⟩
  exact congrArg (fun o : Outbox => { o with dnisIndex := cursor offset c.dnisIndex }) outbox

theorem serve_errand (hc : c.Placed) {r : Request} (h : AsksFor cx c t r) :
    Errand cx c t (serve cx t.env r (c.checked cx t.env)) := by
  have hk : c.start.Bears (c.checked cx t.env) := R2Chan.checked_bears cx t.env hc 0
  have hx : ∀ {d : R2Chan}, (c.checked cx t.env).Bears d ∨ (c.checked cx t.env).Fades d →
      Errand cx c t d := by
    intro d hd
    rcases hd with hd | hd
    · exact .bears (hk.trans hd)
    · exact .fades (hk.fades hd)
  cases r with
  | dnis offset g =>
    obtain ⟨k, hk, hs⟩ := serve_dnis hc h
    exact .spells _ k (.inr ⟨offset, g, h, rfl⟩) hk hs
  | ani => exact .tells ((mfSendAniDigit_tells cx t.env hk.placed).from hk)
  | category g =>
    obtain ⟨tone, hct, hr⟩ := h
    have hg := hk.trans (.setMfGroup hk.placed (c.request_category cx hr))
    exact .tells ((mfSendCategory_tells cx t.env hg.placed).from hg)
  | accept mode => exact hx (handleAcceptTone_outgoing cx t.env hk.placed mode)
  | reject cause => exact hx (.inl (.aside hk.placed (callRejected_aside _ cause)))
  | unknown reason => exact hx (.inr (handleProtocolError_fades cx t.env _ reason))

/-- Every step takes an outgoing call on in one of these ways. -/
theorem tick_errand (hc : c.Placed) : Errand cx c t (tick cx c t).1 := by
  have hs : c.start.Placed := ⟨hc.direction, hc.call, hc.line, hc.group⟩
  have hturn : ∀ i, t.input = i → (∀ tone, i ≠ .mfTone tone) →
      (∀ id u, i = .timer id → c.timer? id = some u → u.callback ≠ .mfBackCycleTimeoutExpired) →
      Errand cx c t (tick cx c t).1 := by
    intro i hi hm ht
    have h := step_turns cx t.env (· = .stopped) c rfl i hm ht
    rw [← hi] at h
    exact .of_turns _ (by rintro ⟨⟩) (by rintro ⟨⟩) hc h
  cases hi : t.input with
  | mfTone tone =>
    have he : (tick cx c t).1 = handleMedia cx t.env tone c.start := by
      simp only [tick, hi]
      rfl
    have hd := handleMedia_detects cx t.env tone c.start
    rw [← he] at hd
    generalize hx : (tick cx c t).1 = d at hd ⊢
    cases hd with
    | ignores => exact .bears (.refl hs)
    | breaks => exact .fades (handleProtocolError_fades cx t.env _ _)
    | waits => exact .bears (R2Chan.checked_bears cx t.env hc tone)
    | toneOn =>
      have hk := R2Chan.checked_bears cx t.env hc tone
      generalize (checkThreshold cx t.env tone c.start).1 = k at hk ⊢
      have hq : k.Bears (k.setMfReadTone tone) := .quiet hk.placed rfl rfl rfl rfl rfl rfl rfl
      have hf : (k.setMfReadTone tone).direction = .forward := hq.placed.direction
      simp only [handleToneOn, hf]
      have ht := (handleBackwardMfTone_turns cx t.env (fun _ => False) (k.setMfReadTone tone)).outgoing
        id id hq.placed
      rcases ht with h | h | ⟨-, e, he, -, h⟩
      · exact .bears ((hk.trans hq).trans h)
      · exact .fades ((hk.trans hq).fades h)
      · exact .spells c.dnisIndex e (.inl rfl) ((hk.trans hq).trans he) h
    | toneOff ht hm hr hz =>
      have h : AsksFor cx c t (c.request cx c.mfReadTone) :=
        ⟨c.mfReadTone, ⟨by rw [hi, ht], hr, hc.direction, hm, rfl, hz⟩, rfl⟩
      rw [← hx, tick_serves h]
      exact (serve_errand hc h).heard
  | timer id =>
    by_cases h : ∃ u, c.timer? id = some u ∧ u.callback = .mfBackCycleTimeoutExpired
    · obtain ⟨u, hu, hcb⟩ := h
      have hu' : c.start.timer? id = some u := hu
      have he : (tick cx c t).1 = mfBackCycleTimeoutExpired cx t.env (c.start.mapTimers (·.removeId id)) := by
        simp only [tick, hi, step, expire, hu', hcb]
        rfl
      have hg : ¬ (c.start.mapTimers (·.removeId id)).mfGroup = .ga := fun hg => hc.group (by
        rw [show c.mfGroup = .ga from hg]
        trivial)
      rw [he, mfBackCycleTimeoutExpired, if_neg fun h => hg h.2.1]
      refine .fades (R2Chan.Bears.fades ?_ (handleProtocolError_fades cx t.env _ _))
      exact .aside hs (.mapTimers _ _)
    · refine hturn _ hi (by rintro _ ⟨⟩) fun id' u he hu hcb => h ⟨u, ?_, hcb⟩
      injection he with he
      rw [he]
      exact hu
  | cas => exact hturn _ hi (by rintro _ ⟨⟩) (by rintro _ _ ⟨⟩)
  | api a => exact hturn _ hi (by rintro _ ⟨⟩) (by rintro _ _ ⟨⟩)
  | alarm on => exact hturn _ hi (by rintro _ ⟨⟩) (by rintro _ _ ⟨⟩)

/-- What is done where a digit is told, before the call is over. -/
theorem Spells.told {digit : Tone} {i : Nat} {k d : R2Chan} (hk : (c.start.setDnisIndex i).Bears k)
    (h : Spells digit k d) : ∃ tone pre as, untilIdle d.out = pre ++ .readDnis i :: as ∧
      (∀ a ∈ pre, a.Mute) ∧ ∀ a ∈ as, a.Sounds tone := by
  obtain ⟨-, outbox, -, -, pre, ho, hp⟩ := hk
  rw [show (c.start.setDnisIndex i).out = [] from rfl, List.nil_append] at ho
  have hi : k.dnisIndex = i := congrArg Outbox.dnisIndex outbox
  have hl : ∀ (tone : Tone) (as : List Act), (∀ a ∈ as, a.Sounds tone) →
      ∀ a ∈ pre ++ .readDnis i :: as, a ≠ .callState .idle := by
    intro tone as ha a hm
    simp only [List.mem_append, List.mem_cons] at hm
    rcases hm with hm | rfl | hm
    · exact (hp a hm).not_idle
    · exact nofun
    · exact (ha a hm).not_idle
  cases h with
  | said tone as out acts =>
    rw [ho, hi] at out
    exact ⟨tone, pre, as, by rw [out, untilIdle_live (hl tone as acts)], hp, acts⟩
  | isOver tone as bs out acts =>
    rw [ho, hi] at out
    exact ⟨tone, pre, as, by rw [out, untilIdle_over (hl tone as acts)], hp, acts⟩

/-- What is looked up where a digit is told. -/
theorem Spells.reads {digit : Tone} {i : Nat} {k d : R2Chan} (hk : (c.start.setDnisIndex i).Bears k)
    (h : Spells digit k d) : .readDnis i ∈ untilIdle d.out ∧
      (∀ j, .readDnis j ∈ untilIdle d.out → j = i) ∧ ((∃ a ∈ d.out, a = .callState .idle) ∨
        d.Placed ∧ d.dnis = c.dnis ∧ d.dnisIndex = i ∧ d.aniPtr = c.aniPtr) := by
  obtain ⟨tone, pre, as, hu, hp, ha⟩ := h.told hk
  refine ⟨by rw [hu]; simp, fun j hm => ?_, ?_⟩
  · simp only [hu, List.mem_append, List.mem_cons, Act.readDnis.injEq] at hm
    rcases hm with hm | hm | hm
    · exact (hp _ hm).elim
    · exact hm
    · exact absurd rfl ((ha _ hm).tells.2 j)
  cases h with
  | said tone as out acts placed outbox =>
    have hb : d.outbox = (c.start.setDnisIndex i).outbox := outbox.trans hk.outbox
    exact .inr ⟨placed, congrArg Outbox.dnis hb, congrArg Outbox.dnisIndex hb, congrArg Outbox.aniPtr hb⟩
  | isOver tone as bs out => exact .inl ⟨_, by rw [out]; simp, rfl⟩

/-- The request moves the index, and the byte there is read. -/
theorem AsksFor.reads (hc : c.Placed) {offset : Int} {g : MfGroup} (h : AsksFor cx c t (.dnis offset g)) :
    .readDnis (cursor offset c.dnisIndex) ∈ untilIdle (tick cx c t).2 := by
  obtain ⟨k, hk, hs⟩ := serve_dnis hc h
  rw [h.output]
  exact (hs.reads hk).1

/-- The index moves by requests alone, and no other byte is read. -/
theorem Errand.index {d : R2Chan} (h : Errand cx c t d) : ∃ i,
    (i = c.dnisIndex ∨ ∃ offset g, AsksFor cx c t (.dnis offset g) ∧ i = cursor offset c.dnisIndex) ∧
      (∀ j, .readDnis j ∈ untilIdle d.out → j = i) ∧ ((∃ a ∈ d.out, a = .callState .idle) ∨
        d.Placed ∧ d.dnis = c.dnis ∧ d.dnisIndex = i ∧ (c.aniPtr = none → d.aniPtr = none)) := by
  have hn : c.start.out = [] := rfl
  cases h with
  | bears h =>
    obtain ⟨placed, outbox, -, -, as, ho, ha⟩ := h
    rw [hn, List.nil_append] at ho
    refine ⟨c.dnisIndex, .inl rfl, fun j hm => ?_, .inr ⟨placed, congrArg Outbox.dnis outbox,
      congrArg Outbox.dnisIndex outbox, fun hc => (congrArg Outbox.aniPtr outbox).trans hc⟩⟩
    rw [ho, untilIdle_live fun a hm => (ha a hm).not_idle] at hm
    exact (ha _ hm).elim
  | fades h =>
    obtain ⟨as, bs, ho, ha⟩ := h
    rw [hn, List.nil_append] at ho
    refine ⟨c.dnisIndex, .inl rfl, fun j hm => ?_, .inl ⟨_, by rw [ho]; simp, rfl⟩⟩
    rw [ho, untilIdle_over fun a hm => (ha a hm).not_idle] at hm
    exact (ha _ hm).elim
  | tells h =>
    cases h with
    | said as ho ha placed dnis ani =>
      rw [hn, List.nil_append] at ho
      refine ⟨c.dnisIndex, .inl rfl, fun j hm => ?_, .inr ⟨placed, dnis.1, dnis.2, ani⟩⟩
      rw [ho, untilIdle_live fun a hm => (ha a hm).1] at hm
      exact absurd rfl ((ha _ hm).2 j)
    | isOver as bs ho ha =>
      rw [hn, List.nil_append] at ho
      refine ⟨c.dnisIndex, .inl rfl, fun j hm => ?_, .inl ⟨_, by rw [ho]; simp, rfl⟩⟩
      rw [ho, untilIdle_over fun a hm => (ha a hm).1] at hm
      exact absurd rfl ((ha _ hm).2 j)
  | spells i k hi hk h =>
    obtain ⟨-, hr, hx⟩ := h.reads hk
    exact ⟨i, hi, hr, hx.imp_right fun ⟨h1, h2, h3, h4⟩ => ⟨h1, h2, h3, fun hc => h4.trans hc⟩⟩

end Ticks

section Placing

variable {cx : R2Context}

theorem R2Chan.Aside.keepNumbers_outbox {c d : R2Chan} (h : c.Aside d) (ani : Option (List Tone))
    (dnis : List Tone) (category : Category) (restricted : Bool) :
    (keepNumbers cx ani dnis category restricted d).outbox =
      (keepNumbers cx ani dnis category restricted c).outbox := by
  have ha : d.ani = c.ani := congrArg Numbers.ani h.numbers
  have hd : d.dnis = c.dnis := congrArg Numbers.dnis h.numbers
  simp only [R2Chan.outbox, keepNumbers, ha, hd]

/-- A call that was placed has its numbers, and has sent nothing of them. -/
theorem makeCall_placed (hm : cx.dialWithDtmf = false) {env : Env} {c : R2Chan} {ani : Option (List Tone)}
    {dnis : List Tone} {category : Category} {restricted : Bool}
    (h : (makeCall cx env ani dnis category restricted c).2 = 0) :
    (makeCall cx env ani dnis category restricted c).1.Placed ∧
      (makeCall cx env ani dnis category restricted c).1.outbox =
        (keepNumbers cx ani dnis category restricted c).outbox := by
  simp only [makeCall] at h ⊢
  split_ifs at h ⊢
  · exact absurd h (show ¬ (-1 : Int) = 0 by decide)
  · exact absurd h (show ¬ (-1 : Int) = 0 by decide)
  · exact absurd h (show ¬ (-1 : Int) = 0 by decide)
  · exact absurd h (show ¬ (-1 : Int) = 0 by decide)
  · simp only [placeCall, hm, armTimer_setR2State]
    have hs := (R2Chan.Aside.setCasSignal cx env .seize c).trans
      (.armTimer env .r2Seize cx.timers.r2Seize .seizeTimeoutExpired _)
    refine ⟨⟨rfl, ⟨by rintro ⟨⟩, by rintro ⟨⟩⟩, (by rintro ⟨⟩), id⟩, ?_⟩
    exact hs.keepNumbers_outbox ani dnis category restricted

/-- `make_call` has returned 0 and left the channel so, whatever has been on it before. -/
def CallPlaced (cx : R2Context) (ani : Option (List Tone)) (dnis : List Tone) (d : R2Chan) : Prop :=
  ∃ env c category restricted, (makeCall cx env ani dnis category restricted c).2 = 0 ∧
    d = (makeCall cx env ani dnis category restricted c).1

end Placing

/-- A new channel on which a call is placed, when the line is seen to be idle. -/
def callingChannel (cx : R2Context) (ani : Option (List Tone)) (dnis : List Tone) : R2Chan :=
  let c := (run cx [⟨Env.fair 0x9, .cas⟩] (restingChannel cx)).1
  (makeCall cx (Env.fair 0x9) ani dnis .nationalSubscriber false c.start).1

/-- The seize is acknowledged. -/
def seizeAckTick : Tick := ⟨Env.fair 0xD, .cas⟩

end OpenR2
