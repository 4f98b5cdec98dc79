import OpenR2.Machine
import OpenR2.Proofs.Variants

namespace OpenR2

def Act.aniIndex? : Act → Option Nat
  | .storeAni i _ => some i
  | _ => none

/-- How far an incoming call has come with its numbers, and where the step has
written ANI digits. -/
structure Collection where
  direction : Direction
  callState : CallState
  mfState : MfState
  mfGroup : MfGroup
  aniLen : Nat
  dnisLen : Nat
  mfReadTone : Tone
  stores : List Nat

def R2Chan.collection (c : R2Chan) : Collection where
  direction := c.direction
  callState := c.callState
  mfState := c.mfState
  mfGroup := c.mfGroup
  aniLen := c.aniLen
  dnisLen := c.dnisLen
  mfReadTone := c.mfReadTone
  stores := c.out.filterMap Act.aniIndex?

/-- The collection is given up, as every reset does. -/
def Collection.halt (k : Collection) : Collection :=
  ⟨.stopped, .idle, .offState, .noGroup, 0, 0, 0, k.stores⟩

section Frame

variable {cx : R2Context} {env : Env}

theorem collection_did {a : Act} (h : a.aniIndex? = none) (c : R2Chan) :
    (c.did a).collection = c.collection := by
  simp [R2Chan.collection, R2Chan.did, List.filterMap_append, h]

theorem collection_emit (ev : Event) (c : R2Chan) : (c.emit ev).collection = c.collection :=
  collection_did rfl c

theorem collection_setCallState (st : CallState) (c : R2Chan) :
    (c.setCallState st).collection = { c.collection with callState := st } := by
  have h := collection_did (a := .callState st) rfl c
  simp only [R2Chan.collection, Collection.mk.injEq] at h
  simp [R2Chan.collection, R2Chan.setCallState, h]

theorem collection_armTimer (slot : TimerSlot) (ms : Nat) (cb : TimerCallback) (c : R2Chan) :
    (armTimer env slot ms cb c).collection = c.collection := by
  have hd : (c.did .gettimeofday).collection = c.collection := collection_did rfl c
  simp only [armTimer, addTimer]
  split
  · exact (collection_emit .onOsError _).trans hd
  · exact hd

theorem collection_turnOffMfEngine (c : R2Chan) :
    (turnOffMfEngine cx c).collection = { c.collection with mfState := .offState } := by
  have hr : ∀ d : R2Chan, (disposeMfRead d).collection = d.collection := fun d =>
    collection_did (a := .mfReadDispose d.mfReadHandle) rfl d
  have hw : ∀ d : R2Chan, (disposeMfWrite d).collection = d.collection := fun d =>
    collection_did (a := .mfWriteDispose d.mfWriteHandle) rfl d
  have hd : ∀ d : R2Chan, (disposeMf cx d).collection = d.collection := by
    intro d
    simp only [disposeMf]
    split_ifs
    · exact (hw _).trans (hr d)
    · exact hw d
    · exact hr d
    · rfl
  simp only [turnOffMfEngine]
  split_ifs with h
  · simp [R2Chan.collection, h]
  · have hc := hd ((c.cancelTimer .mfBackCycle).setDtmf false false)
    exact congrArg (fun k : Collection => { k with mfState := .offState }) hc

theorem collection_setCasSignal (sig : CasSignal) (c : R2Chan) :
    (setCasSignal cx env sig c).1.collection = c.collection := by
  simp only [setCasSignal]
  split_ifs
  · rfl
  all_goals exact collection_did (a := .setCas _) rfl (c.setCasTx (cx.casSignals sig) sig)

theorem collection_protoInit (c : R2Chan) : (protoInit cx c).collection = c.collection.halt := by
  have hf : ∀ d : R2Chan, (fixRxSignal cx d).collection = d.collection := by
    intro d
    simp only [fixRxSignal]
    split_ifs <;> rfl
  have hc : ∀ d : R2Chan, d.aniLen = 0 → d.dnisLen = 0 → d.mfState = .offState →
      (clearCall d).collection = d.collection.halt := by
    intro d ha hd hm
    have h := collection_setCallState .idle d
    simp only [R2Chan.collection, Collection.mk.injEq] at h
    simp [clearCall, R2Chan.collection, Collection.halt, h, ha, hd, hm]
  have ht := @collection_turnOffMfEngine cx (clearNumbers c)
  rw [protoInit, hf, hc _ (congrArg Collection.aniLen ht) (congrArg Collection.dnisLen ht)
    (congrArg Collection.mfState ht), ht]
  rfl

theorem collection_setIdle (c : R2Chan) :
    (setIdle cx env c).1.collection = c.collection.halt :=
  (collection_setCasSignal .idle _).trans (collection_protoInit c)

theorem collection_setBlocked (c : R2Chan) :
    (setBlocked cx env c).1.collection = c.collection.halt :=
  (collection_setCasSignal .block _).trans (collection_protoInit c)

theorem collection_handleProtocolError (reason : ProtocolError) (c : R2Chan) :
    (handleProtocolError cx env reason c).collection = c.collection.halt := by
  have hd : (c.did (.mfSelectTone c.mfWriteHandle 0)).collection = c.collection :=
    collection_did rfl c
  rw [handleProtocolError, collection_emit, collection_setIdle, hd]

theorem collection_startMfTone (tone : Tone) (c : R2Chan) :
    (startMfTone cx env tone c).collection = c.collection := by
  have hf : ∀ d : R2Chan, (d.did .flushWriteBuffers).collection = d.collection :=
    fun d => collection_did rfl d
  simp only [startMfTone]
  split_ifs
  · exact (hf _).trans (collection_armTimer _ _ _ c)
  · exact (hf _).trans (collection_armTimer _ _ _ c)
  · exact hf c
  · exact hf c

/-- Sending a tone changes nothing here, unless the tone generator fails. -/
theorem collection_prepareMfTone (tone : Tone) (c : R2Chan) :
    (prepareMfTone cx env tone c).collection = c.collection ∨
      (prepareMfTone cx env tone c).collection = c.collection.halt ∧
        ∃ h, env.mfSelectTone h = false := by
  have hsel : ∀ d : R2Chan, (selectMfTone cx env tone d).collection = d.collection ∨
      (selectMfTone cx env tone d).collection = d.collection.halt ∧
        ∃ h, env.mfSelectTone h = false := by
    intro d
    have hd : (d.did (.mfSelectTone d.mfWriteHandle tone)).collection = d.collection :=
      collection_did rfl d
    simp only [selectMfTone]
    split_ifs with h1 h2 h3
    · exact .inl rfl
    · exact .inr ⟨(collection_handleProtocolError _ _).trans (congrArg Collection.halt hd), _, h2⟩
    · exact .inl hd
    · exact .inl ((collection_startMfTone tone _).trans hd)
  have hf : (c.did .flushWriteBuffers).collection = c.collection := collection_did rfl c
  simp only [prepareMfTone]
  split_ifs
  · exact hf ▸ hsel (c.did .flushWriteBuffers)
  · exact .inl hf
  · exact hsel c

/-- What a callback can do to the collection of a number: the user may turn the
tones off, or end the call. -/
theorem collection_apiCall (hm : cx.Mfc) (a : ApiCall) {c : R2Chan} (hd : c.direction = .backward)
    (hc : c.callState = .collecting) :
    (∃ m, (apiCall cx env a c).1.collection = { c.collection with mfState := m }) ∨
      (apiCall cx env a c).1.collection = c.collection.halt := by
  have hself : ∃ m, c.collection = { c.collection with mfState := m } := ⟨c.mfState, rfl⟩
  have hdo : doAnswer cx env c = (c, -1) := by simp [doAnswer, hm.dial, hm.detect, hc]
  cases a with
  | makeCall ani dnis cat r =>
    left
    have h : makeCall cx env ani dnis cat r c = (c, -1) := by simp [makeCall, hc]
    simpa only [apiCall, h] using hself
  | acceptCall mode =>
    left
    have h : acceptCall cx env mode c = (c, -1) := by simp [acceptCall, hc]
    simpa only [apiCall, h] using hself
  | answerCall => left; simpa [apiCall, answerCall, hdo] using hself
  | answerCallWithMode mode => left; simpa [apiCall, answerCallWithMode, hdo] using hself
  | disconnectCall cause =>
    simp only [apiCall, disconnectCall, hc, hd, disconnectBackward, hm.detect, reportCallEnd]
    simp only [reduceCtorEq, Bool.false_eq_true, if_false, if_true]
    split_ifs
    · exact .inr ((collection_emit _ _).trans (collection_setIdle c))
    · exact .inl ⟨.offState, (collection_setCasSignal _ _).trans
        (collection_turnOffMfEngine (c.setR2State .forcedReleaseTxd))⟩
    · exact .inl ⟨.offState, (collection_setCasSignal _ _).trans
        (collection_turnOffMfEngine (c.setR2State .clearBackTxd))⟩
  | ackCall =>
    have h := @collection_setCasSignal cx env .seizeAck c
    simp only [apiCall, ackCall]
    split_ifs
    · exact .inr ((collection_handleProtocolError _ _).trans (congrArg Collection.halt h))
    · exact .inl ⟨c.mfState, h⟩
  | setIdle => exact .inr (collection_setIdle c)
  | setBlocked => exact .inr (collection_setBlocked c)

theorem collection_callback (hm : cx.Mfc) (ev : Event) {c : R2Chan} (hd : c.direction = .backward)
    (hc : c.callState = .collecting) :
    (∃ m, (callback cx env ev c).collection = { c.collection with mfState := m }) ∨
      (callback cx env ev c).collection = c.collection.halt := by
  have he := collection_emit ev c
  simp only [callback]
  split
  · exact .inl ⟨c.mfState, he⟩
  · rename_i a _
    rw [← he]
    exact collection_apiCall hm a hd hc

end Frame

/-- Where the ANI can be asked for a second time: the caller may say over and over
that there are no more DNIS digits before it has sent one. -/
def R2Context.AskedAgain (cx : R2Context) : Prop :=
  cx.getAniFirst = true ∧ cx.skipCategory = false ∧ cx.g1Tones.noMoreDnisAvailable ≠ 0 ∧
    0 < cx.maxAni ∧ uint32 cx.maxDnis ≠ 0

/-- The ANI digits that are still asked for; China asks for one at a time, at most
twice in a call. -/
def R2Context.aniLimit (cx : R2Context) : Nat :=
  if cx.forceUseMaxAni then 2 else cx.maxAni.toNat

namespace Collection

variable (cx : R2Context) (k : Collection)

/-- At most the one digit that China takes before the number. -/
def Early : Prop := k.aniLen = 0 ∨ cx.forceUseMaxAni = true ∧ k.aniLen ≤ 1

/-- When the ANI is collected, the category is not asked for once more. -/
def Past : Prop :=
  1 ≤ k.dnisLen ∨ cx.getAniFirst = false ∨ uint32 cx.maxDnis = 0 ∨ cx.maxAni ≤ 0

/-- The digits that an outstanding request can find collected. -/
def Tally : Prop :=
  match k.mfState with
  | .seizeAckTxd => k.callState = .collecting ∧ k.aniLen = 0 ∧ k.dnisLen = 0
  | .dnisRqTxd =>
    k.callState = .collecting ∧ (cx.getAniFirst = false → k.aniLen = 0) ∧
      (k.dnisLen = 0 → cx.forceUseMaxAni = true ∧ k.aniLen ≤ 1)
  | .categoryRqTxd => k.callState = .collecting ∧ k.Early cx ∧ k.Past cx
  | .aniRqTxd =>
    k.callState = .collecting ∧ 0 < cx.maxAni ∧ k.aniLen < cx.aniLimit ∧ k.Past cx
  | _ => True

/-- Nothing was written beyond the buffer, and while the call is being collected
this holds of the digits. -/
structure Ready (p : Collection → Prop) : Prop where
  stores : ∀ n ∈ k.stores, n < maxAniBuffer - 1
  live : k.direction = .stopped ∨ k.direction = .backward ∧ p k

abbrev Safe : Prop := k.Ready (Tally cx)

variable {cx k} {p q : Collection → Prop}

theorem Ready.mono (h : k.Ready p) (hp : k.direction = .backward → p k → q k) : k.Ready q :=
  ⟨h.stores, h.live.imp_right fun hl => ⟨hl.1, hp hl.1 hl.2⟩⟩

theorem Ready.halt (h : k.Ready p) : k.halt.Ready q := ⟨h.stores, .inl rfl⟩

/-- A new request, as long as its state allows the digits collected so far. -/
theorem Ready.request (h : k.Ready p) (cs : CallState) (m : MfState) (g : MfGroup)
    (hp : p k → q { k with callState := cs, mfState := m, mfGroup := g }) :
    Ready { k with callState := cs, mfState := m, mfGroup := g } q :=
  ⟨h.stores, h.live.imp_right fun hl => ⟨hl.1, hp hl.2⟩⟩

end Collection

section Safety

variable {cx : R2Context} {env : Env} {c : R2Chan} {p q : Collection → Prop}

theorem prepareMfTone_ready (tone : Tone) (h : c.collection.Ready p) :
    (prepareMfTone cx env tone c).collection.Ready p := by
  rcases @collection_prepareMfTone cx env tone c with hc | ⟨hc, -⟩ <;> rw [hc]
  · exact h
  · exact h.halt

theorem handleProtocolError_ready (reason : ProtocolError) (h : c.collection.Ready p) :
    (handleProtocolError cx env reason c).collection.Ready q := by
  rw [collection_handleProtocolError]
  exact h.halt

/-- A callback, after which the same holds unless the user has ended the call. -/
theorem callback_ready (hm : cx.Mfc) (ev : Event) (hd : c.direction = .backward)
    (hc : c.callState = .collecting) (h : c.collection.Ready p)
    (hp : ∀ m, p c.collection → p { c.collection with mfState := m }) :
    (callback cx env ev c).collection.Ready p := by
  rcases @collection_callback cx env hm ev _ hd hc with ⟨m, hk⟩ | hk <;> rw [hk]
  · exact h.request c.callState m c.mfGroup (hp m)
  · exact h.halt

/-- The states of an offered call. -/
def Collection.Offered (k : Collection) : Prop := k.mfState = .acceptedTxd ∨ k.mfState = .chgGiiTxd

theorem Collection.Offered.tally {k : Collection} (h : k.Offered) : k.Tally cx := by
  rcases h with h | h <;> simp [Collection.Tally, h]

theorem offerCall_safe (h : c.collection.Ready Collection.Offered) :
    (offerCall cx env c).collection.Safe cx := by
  simp only [offerCall]
  split_ifs
  · exact handleProtocolError_ready _ h
  · rw [collection_emit, collection_setCallState]
    exact (h.request (q := Collection.Offered) .offered c.mfState c.mfGroup id).mono
      fun _ => Collection.Offered.tally

theorem tryChangeToG2_safe (h : c.collection.Ready p) :
    (tryChangeToG2 cx env c).collection.Safe cx := by
  simp only [tryChangeToG2]
  split_ifs
  · exact offerCall_safe (prepareMfTone_ready _
      (h.request c.callState .acceptedTxd c.mfGroup fun _ => .inl rfl))
  · exact prepareMfTone_ready _
      (h.request c.callState .chgGiiTxd .gb fun _ => Collection.Offered.tally (.inr rfl))

theorem requestChangeToG2_safe (h : c.collection.Ready p) :
    (requestChangeToG2 cx env c).collection.Safe cx :=
  prepareMfTone_ready _
    (h.request c.callState .chgGiiTxd .gb fun _ => Collection.Offered.tally (.inr rfl))

theorem tryRequestCallingPartyCategory_safe
    (h : c.collection.Ready fun k => cx.skipCategory = false →
      k.callState = .collecting ∧ k.Early cx ∧ k.Past cx) :
    (tryRequestCallingPartyCategory cx env c).collection.Safe cx := by
  simp only [tryRequestCallingPartyCategory]
  split_ifs with hs
  · exact tryChangeToG2_safe h
  · exact prepareMfTone_ready _ (h.request c.callState .categoryRqTxd _ fun hk =>
      hk (Bool.eq_false_of_not_eq_true hs))

theorem requestNextDnisDigit_safe
    (h : c.collection.Ready fun k => k.callState = .collecting ∧
      (cx.getAniFirst = false → k.aniLen = 0) ∧
      (k.dnisLen = 0 → cx.forceUseMaxAni = true ∧ k.aniLen ≤ 1)) :
    (requestNextDnisDigit cx env c).collection.Safe cx :=
  prepareMfTone_ready _ (h.request c.callState .dnisRqTxd .ga fun hk => hk)

theorem requestNextAniDigit_safe
    (h : c.collection.Ready fun k => k.callState = .collecting ∧ 0 < cx.maxAni ∧
      k.aniLen < cx.aniLimit ∧ k.Past cx) :
    (requestNextAniDigit cx env c).collection.Safe cx :=
  prepareMfTone_ready _ (h.request c.callState .aniRqTxd c.mfGroup fun hk => hk)

theorem doneGettingAni_safe
    (h : c.collection.Ready fun k => cx.getAniFirst = true → k.dnisLen < uint32 cx.maxDnis →
      k.callState = .collecting ∧ (k.dnisLen = 0 → cx.forceUseMaxAni = true ∧ k.aniLen ≤ 1)) :
    (doneGettingAni cx env c).collection.Safe cx := by
  simp only [doneGettingAni]
  split_ifs with hn
  · exact tryChangeToG2_safe h
  · obtain ⟨hf, hd⟩ := not_or.mp hn
    have hf : cx.getAniFirst = true := Bool.eq_true_of_not_eq_false hf
    refine requestNextDnisDigit_safe (h.mono fun _ hk => ?_)
    obtain ⟨hc, ha⟩ := hk hf (Nat.lt_of_not_le hd)
    exact ⟨hc, by simp [hf], ha⟩

theorem aniLimit_lt (hp : cx.AniPlan) : cx.aniLimit < maxAniBuffer := by
  have hb : maxAniBuffer = 80 := rfl
  unfold R2Context.aniLimit
  split_ifs with hf
  · omega
  · have := hp.bound (Bool.eq_false_of_not_eq_true hf)
    omega

theorem uint32_eq {x : Int} (h : 0 < x) (hx : x < maxAniBuffer) : uint32 x = x.toNat := by
  have hb : maxAniBuffer = 80 := rfl
  unfold uint32
  omega

/-- An ANI digit may come: there is room for it, and after it the collection goes
on, or is over. -/
structure Collection.Due (cx : R2Context) (k : Collection) : Prop where
  state : k.callState = .collecting
  room : k.aniLen < cx.aniLimit
  past : cx.forceUseMaxAni = false → 0 < cx.maxAni ∧ k.Past cx
  first : cx.getAniFirst = true → k.dnisLen < uint32 cx.maxDnis → k.dnisLen = 0 →
    cx.forceUseMaxAni = true ∧ k.aniLen = 0

/-- What holds once the digit is stored. -/
structure Collection.Stored (cx : R2Context) (k : Collection) : Prop where
  state : k.callState = .collecting
  past : cx.forceUseMaxAni = false → 0 < cx.maxAni ∧ k.Past cx
  first : cx.getAniFirst = true → k.dnisLen < uint32 cx.maxDnis → k.dnisLen = 0 →
    cx.forceUseMaxAni = true ∧ k.aniLen ≤ 1

theorem collection_storeAniDigit (tone : Tone) (c : R2Chan) :
    (storeAniDigit tone c).collection =
      { c.collection with
        aniLen := c.aniLen + 1
        stores := c.collection.stores ++ [c.aniLen] } := by
  simp [R2Chan.collection, storeAniDigit, R2Chan.did, List.filterMap_append, Act.aniIndex?]

/-- A digit is stored, and the user is told. -/
theorem storeAniDigit_ready (hp : cx.AniPlan) (tone : Tone) (ev : Event)
    (hd : c.direction = .backward) (h : c.collection.Ready (Collection.Due cx)) :
    (callback cx env ev (storeAniDigit tone c)).collection.Ready (Collection.Stored cx) := by
  have hk : Collection.Due cx c.collection :=
    (h.live.resolve_left (by simp [R2Chan.collection, hd])).2
  have hr : c.aniLen < cx.aniLimit := hk.room
  have hl := aniLimit_lt hp
  have hs : (storeAniDigit tone c).collection.Ready (Collection.Stored cx) := by
    rw [collection_storeAniDigit]
    refine ⟨fun n hn => ?_, .inr ⟨hd, hk.state, hk.past, fun hf hd hz => ?_⟩⟩
    · rcases List.mem_append.mp hn with hn | hn
      · exact h.stores n hn
      · rw [List.mem_singleton.mp hn]
        omega
    · obtain ⟨hc, ha⟩ := hk.first hf hd hz
      have ha : c.aniLen = 0 := ha
      exact ⟨hc, by dsimp only; omega⟩
  exact callback_ready (c := storeAniDigit tone c) hp.mfc ev hd hk.state hs
    fun _ hs => ⟨hs.1, hs.2, hs.3⟩

theorem mfReceiveExpectedAni_safe (hp : cx.AniPlan) {tone : Tone} (ht : tone ≠ 0)
    (hd : c.direction = .backward) (h : c.collection.Ready (Collection.Due cx)) :
    (mfReceiveExpectedAni cx env tone c).collection.Safe cx := by
  simp only [mfReceiveExpectedAni, if_pos ht]
  split_ifs with h1 h2 h3 h4
  · -- one more digit is asked for
    obtain ⟨hf, ha⟩ := h2.resolve_left ht
    refine requestNextAniDigit_safe ((storeAniDigit_ready hp tone _ hd h).mono fun _ hk => ?_)
    obtain ⟨hm, hpast⟩ := hk.past hf
    rw [uint32_eq hm (hp.bound hf)] at ha
    exact ⟨hk.state, hm, by simpa [R2Context.aniLimit, hf, R2Chan.collection] using ha, hpast⟩
  · -- it was the last one
    exact doneGettingAni_safe ((storeAniDigit_ready hp tone _ hd h).mono
      fun _ hk hf hd => ⟨hk.state, hk.first hf hd⟩)
  · exact doneGettingAni_safe (c := c.restrictAni) (h.mono fun _ hk hf hd =>
      ⟨hk.state, fun hz => (hk.first hf hd hz).imp_right fun ha => by omega⟩)
  · exact doneGettingAni_safe (h.mono fun _ hk hf hd =>
      ⟨hk.state, fun hz => (hk.first hf hd hz).imp_right fun ha => by omega⟩)
  · exact handleProtocolError_ready _ h

/-- A DNIS digit may come, or has come: after the first, number `n`, the category
is asked for. -/
structure Collection.DnisDue (cx : R2Context) (n : Nat) (k : Collection) : Prop where
  state : k.callState = .collecting
  last : cx.getAniFirst = false → k.aniLen = 0
  early : k.dnisLen = n → k.Early cx

theorem collection_storeDnisDigit (tone : Tone) (c : R2Chan) :
    (storeDnisDigit tone c).collection =
      { c.collection with
        dnisLen := if c.dnisLen = maxDnisBuffer - 1 then c.dnisLen else c.dnisLen + 1 } := by
  have hd := collection_did (a := .storeDnis c.dnisLen tone) rfl c
  simp only [R2Chan.collection, Collection.mk.injEq] at hd
  simp only [storeDnisDigit]
  split_ifs
  · rfl
  · simp [R2Chan.collection, hd]

theorem afterDnisDigit_safe (rc : Bool)
    (h : c.collection.Ready fun k => Collection.DnisDue cx 1 k ∧ 1 ≤ k.dnisLen) :
    (afterDnisDigit cx env rc c).collection.Safe cx := by
  simp only [afterDnisDigit]
  split_ifs with h1 h2 h3
  · refine tryRequestCallingPartyCategory_safe (h.mono ?_)
    rintro - ⟨hk, hl⟩ -
    refine ⟨hk.state, ?_, .inl hl⟩
    rcases h2 with h2 | h2
    · exact hk.early h2
    · exact .inl (hk.last h2)
  · exact tryChangeToG2_safe h
  · exact tryRequestCallingPartyCategory_safe (h.mono fun _ hk _ =>
      ⟨hk.1.state, hk.1.early h3.1, .inl hk.2⟩)
  · refine requestNextDnisDigit_safe (h.mono fun _ hk => ⟨hk.1.state, hk.1.last, fun hz => ?_⟩)
    have hl := hk.2
    omega

theorem mfReceiveExpectedDnis_safe (hp : cx.AniPlan) (hn : ¬ cx.AskedAgain) {tone : Tone}
    (ht : tone ≠ 0) (hd : c.direction = .backward) (h : c.collection.Ready (Collection.DnisDue cx 0)) :
    (mfReceiveExpectedDnis cx env tone c).collection.Safe cx := by
  have hk : Collection.DnisDue cx 0 c.collection :=
    (h.live.resolve_left (by simp [R2Chan.collection, hd])).2
  simp only [mfReceiveExpectedDnis]
  split_ifs with h1 h2 h3
  · have hb : maxDnisBuffer = 80 := rfl
    have hs : (storeDnisDigit tone c).collection.Ready
        fun k => Collection.DnisDue cx 1 k ∧ 1 ≤ k.dnisLen := by
      rw [collection_storeDnisDigit]
      refine ⟨h.stores, .inr ⟨hd, ⟨hk.state, hk.last, fun hl => hk.early ?_⟩, ?_⟩⟩
      · change c.dnisLen = 0
        dsimp only at hl
        split_ifs at hl <;> omega
      · dsimp only
        split_ifs <;> omega
    have hc : (storeDnisDigit tone c).collection = _ := collection_storeDnisDigit tone c
    refine afterDnisDigit_safe _ (callback_ready hp.mfc _ ?_ ?_ hs fun _ hs =>
      ⟨⟨hs.1.1, hs.1.2, hs.1.3⟩, hs.2⟩)
    · exact (congrArg Collection.direction hc).trans hd
    · exact (congrArg Collection.callState hc).trans hk.state
  · refine tryRequestCallingPartyCategory_safe (h.mono fun _ hk hs => ⟨hk.state, ?_⟩)
    by_cases hf : cx.getAniFirst = true
    · have hz : c.dnisLen = 0 := h3.resolve_right (by simp [hf])
      refine ⟨hk.early hz, .inr (.inr ?_)⟩
      by_contra hx
      obtain ⟨hu, hm⟩ := not_or.mp hx
      exact hn ⟨hf, hs, h2 ▸ ht, by omega, hu⟩
    · have hf := Bool.eq_false_of_not_eq_true hf
      exact ⟨.inl (hk.last hf), .inr (.inl hf)⟩
  · exact tryChangeToG2_safe h
  · exact handleProtocolError_ready _ h

/-- Tone 0 is the start of the collection. -/
theorem mfReceiveExpectedAni_zero (c : R2Chan) :
    mfReceiveExpectedAni cx env 0 c = requestNextAniDigit cx env c := by
  simp [mfReceiveExpectedAni]

theorem receiveCategory_safe (tone : Tone)
    (h : c.collection.Ready fun k => k.callState = .collecting ∧ k.Early cx ∧ k.Past cx) :
    (receiveCategory cx env tone c).collection.Safe cx := by
  simp only [receiveCategory]
  split_ifs with hm
  · rw [mfReceiveExpectedAni_zero]
    refine requestNextAniDigit_safe (c := c.setCallerCategory tone) (h.mono fun _ hk => ?_)
    refine ⟨hk.1, hm, ?_, hk.2.2⟩
    unfold R2Context.aniLimit
    rcases hk.2.1 with ha | ⟨hf, ha⟩
    · split_ifs <;> omega
    · rw [if_pos hf]
      omega
  · exact tryChangeToG2_safe (c := c.setCallerCategory tone) h
  · exact requestChangeToG2_safe (c := c.setCallerCategory tone) h

theorem handleForwardMfTone_safe (hp : cx.AniPlan) (hn : ¬ cx.AskedAgain) {tone : Tone}
    (ht : tone ≠ 0) (hd : c.direction = .backward) (h : c.collection.Safe cx) :
    (handleForwardMfTone cx env tone c).collection.Safe cx := by
  have hk : c.collection.Tally cx := (h.live.resolve_left (by simp [R2Chan.collection, hd])).2
  have hb : (c.cancelTimer .mfBackCycle).direction = .backward := hd
  have hs : (c.cancelTimer .mfBackCycle).collection.Safe cx := h
  -- an ANI digit was asked for
  have hani : c.mfState = .aniRqTxd → c.collection.Ready (Collection.Due cx) := by
    intro hm
    simp only [Collection.Tally, R2Chan.collection, hm] at hk
    obtain ⟨hc, hmax, hr, hpast⟩ := hk
    refine h.mono fun _ _ => ⟨hc, hr, fun _ => ⟨hmax, hpast⟩, fun hf hl hz => ?_⟩
    rcases hpast with hx | hx | hx | hx
    · exact absurd hz (Nat.one_le_iff_ne_zero.mp hx)
    · exact absurd (hf.symm.trans hx) (by decide)
    · omega
    · omega
  have hcat : c.mfState = .categoryRqTxd → c.collection.Ready fun k =>
      k.callState = .collecting ∧ k.Early cx ∧ k.Past cx := by
    intro hm
    simp only [Collection.Tally, R2Chan.collection, hm] at hk
    exact h.mono fun _ _ => hk
  simp only [handleForwardMfTone]
  split
  · rename_i hg hm
    have hm : c.mfState = .seizeAckTxd := hm
    simp only [Collection.Tally, R2Chan.collection, hm] at hk
    obtain ⟨hc, ha, hz⟩ := hk
    split_ifs with hf
    · have hforce : cx.forceUseMaxAni = true := hp.early ▸ hf.2
      refine mfReceiveExpectedAni_safe hp ht hb
        (h.mono fun _ _ => ⟨hc, ?_, by simp [hforce], fun _ _ _ => ⟨hforce, ha⟩⟩)
      simp [R2Chan.collection, R2Context.aniLimit, hforce, ha]
    · exact mfReceiveExpectedDnis_safe hp hn ht hb
        (h.mono fun _ _ => ⟨hc, fun _ => ha, fun _ => .inl ha⟩)
  · rename_i hg hm
    have hm : c.mfState = .dnisRqTxd := hm
    simp only [Collection.Tally, R2Chan.collection, hm] at hk
    exact mfReceiveExpectedDnis_safe hp hn ht hb
      (h.mono fun _ _ => ⟨hk.1, hk.2.1, fun hz => .inr (hk.2.2 hz)⟩)
  · rename_i hg hm
    exact receiveCategory_safe (c := c.cancelTimer .mfBackCycle) tone (hcat hm)
  · rename_i hg hm
    exact receiveCategory_safe (c := c.cancelTimer .mfBackCycle) tone (hcat hm)
  · rename_i hg hm
    exact mfReceiveExpectedAni_safe hp ht hb (hani hm)
  · rename_i hg hm
    exact mfReceiveExpectedAni_safe hp ht hb (hani hm)
  · rename_i hg hm
    exact offerCall_safe (hs.mono fun _ _ => .inr hm)
  all_goals exact handleProtocolError_ready _ hs

theorem handleForwardMfSilence_safe (h : c.collection.Safe cx) :
    (handleForwardMfSilence cx env c).collection.Safe cx := by
  have hs : (setSilence cx env c).collection.Safe cx := prepareMfTone_ready (c := c) 0 h
  have he : (mfDanceEnded cx env (setSilence cx env c)).collection.Safe cx := by
    simp only [mfDanceEnded]
    rw [collection_armTimer, collection_setCallState, collection_turnOffMfEngine]
    exact hs.request .accepted .offState _ fun _ => trivial
  simp only [handleForwardMfSilence]
  split
  · exact he
  · exact he
  · exact hs
  · exact hs
  · exact hs
  · exact hs
  · exact handleProtocolError_ready _ hs
  · exact handleProtocolError_ready _ hs

theorem handleMfTone_safe (hp : cx.AniPlan) (hn : ¬ cx.AskedAgain) (tone : Tone)
    (hd : c.direction ≠ .forward) (h : c.collection.Safe cx) :
    (handleMfTone cx env tone c).collection.Safe cx := by
  simp only [handleMfTone, checkThreshold, if_pos hp.threshold]
  split_ifs with h1 h2 h3
  · exact h
  · exact handleProtocolError_ready _ h
  · contradiction
  · simp only [handleToneOn]
    split
    · rename_i hb
      exact handleForwardMfTone_safe (c := c.setMfReadTone tone) hp hn h1 hb ⟨h.1, h.2⟩
    · rename_i hf
      exact absurd hf hd
    · exact handleProtocolError_ready (c := c.setMfReadTone tone) (p := fun _ => True) _
        ⟨h.1, h.2.imp_right fun hl => ⟨hl.1, trivial⟩⟩
  · exact h
  · contradiction
  · simp only [handleToneOff]
    have ho : ∀ d : R2Chan, d.collection.Safe cx → (d.setMfReadTone 0).collection.Safe cx :=
      fun d hd => ⟨hd.1, hd.2⟩
    split
    · exact ho _ (handleForwardMfSilence_safe h)
    · rename_i hf
      exact absurd hf hd
    · exact ho _ (handleProtocolError_ready _ h)

/-- The inputs of the register signalling: the tones that are heard, and the silences. -/
def Input.IsTone : Input → Prop
  | .mfTone _ => True
  | _ => False

/-- A channel that has just taken an incoming call. -/
structure R2Chan.Seized (c : R2Chan) : Prop where
  direction : c.direction = .backward
  callState : c.callState = .collecting
  mfState : c.mfState = .seizeAckTxd
  mfGroup : c.mfGroup = .backInit
  aniLen : c.aniLen = 0
  dnisLen : c.dnisLen = 0
  mfReadTone : c.mfReadTone = 0

/-- What one tone or silence preserves. -/
theorem step_safe (hp : cx.AniPlan) (hn : ¬ cx.AskedAgain) (c : R2Chan) (t : Tick)
    (ht : t.input.IsTone) (h : c.start.collection.Safe cx) :
    (step cx t.env t.input c).collection.Safe cx := by
  obtain ⟨env, input⟩ := t
  cases input with
  | mfTone tone =>
    have hd : c.start.direction ≠ .forward := by
      rcases h.live with hl | ⟨hl, -⟩ <;> exact fun hx => absurd (hl.symm.trans hx) (by decide)
    simp only [step, handleMedia]
    split_ifs
    · exact h
    · exact handleMfTone_safe hp hn tone hd h
  | _ => exact ht.elim

/-- A channel between two steps. -/
theorem start_safe (h : c.collection.Safe cx) : c.start.collection.Safe cx :=
  ⟨by simp [R2Chan.collection, R2Chan.start], h.live⟩

theorem seized_safe (h : c.Seized) : c.start.collection.Safe cx := by
  refine ⟨by simp [R2Chan.collection, R2Chan.start], .inr ⟨h.direction, ?_⟩⟩
  have hm : c.start.collection.mfState = .seizeAckTxd := h.mfState
  simp only [Collection.Tally, hm]
  exact ⟨h.callState, h.aniLen, h.dnisLen⟩

/-- Where the ANI is asked for once, every digit lands in its buffer. -/
theorem run_aniIndex (hp : cx.AniPlan) (hn : ¬ cx.AskedAgain) (hc : c.Seized) (ts : List Tick)
    (ht : ∀ t ∈ ts, t.input.IsTone) (n : Nat) (d : Tone)
    (ho : .storeAni n d ∈ (run cx ts c).2) : n < maxAniBuffer - 1 := by
  refine Runs.exec_outputs (f := tick cx) (P := fun c : R2Chan => c.start.collection.Safe cx)
    (q := fun a => ∀ i, a.aniIndex? = some i → i < maxAniBuffer - 1)
    (fun c t (ht : t.input.IsTone) h => ?_) ts c
    (Runs.Along.of_forall ts c ht) (seized_safe hc) _ ho n rfl
  have hs := step_safe hp hn c t ht h
  exact ⟨fun a ha i hi => hs.stores i (List.mem_filterMap.mpr ⟨a, ha, hi⟩), start_safe hs⟩

end Safety

section Attack

variable {cx : R2Context} {c : R2Chan}

/-- Everything outside works, and the caller sends this tone, or is silent. -/
def toneTick (tone : Tone) : Tick := ⟨Env.fair 0, .mfTone tone⟩

/-- A request is outstanding, before any DNIS digit, and this tone is heard. -/
structure Collection.Asks (k : Collection) (m : MfState) (g : MfGroup) (n : Nat) (tone : Tone) :
    Prop where
  direction : k.direction = .backward
  callState : k.callState = .collecting
  mfState : k.mfState = m
  mfGroup : k.mfGroup = g
  aniLen : k.aniLen = n
  dnisLen : k.dnisLen = 0
  mfReadTone : k.mfReadTone = tone

theorem prepareMfTone_fair (tone : Tone) (c : R2Chan) :
    (prepareMfTone cx (Env.fair 0) tone c).collection = c.collection :=
  (collection_prepareMfTone tone c).resolve_right (by simp [Env.fair])

theorem callback_fair (ev : Event) (c : R2Chan) :
    (callback cx (Env.fair 0) ev c).collection = c.collection :=
  collection_emit ev c

theorem toneOn_step (hp : cx.AniPlan) {tone : Tone} (ht : tone ≠ 0) (hd : c.direction = .backward)
    (hr : c.mfReadTone = 0) (hm : c.mfState ≠ .offState) :
    step cx (Env.fair 0) (.mfTone tone) c =
      handleForwardMfTone cx (Env.fair 0) tone (c.start.setMfReadTone tone) := by
  have hm : ¬ c.start.mfState = .offState := hm
  have hr : ¬ c.start.mfReadTone = tone := fun h => ht (h.symm.trans hr)
  have hz : ¬ c.start.mfReadTone ≠ 0 := not_not.mpr ‹c.mfReadTone = 0›
  have hd : (c.start.setMfReadTone tone).direction = .backward := hd
  simp only [step, handleMedia, if_neg hm, handleMfTone, if_pos ht, if_neg hr, if_neg hz,
    checkThreshold, if_pos hp.threshold, handleToneOn, hd]
  simp

theorem toneOff_step (hp : cx.AniPlan) {m : MfState} {g : MfGroup} {n : Nat} {tone : Tone}
    (ht : tone ≠ 0) (hx : m = .dnisRqTxd ∨ m = .categoryRqTxd ∨ m = .aniRqTxd)
    (hg : g = .ga ∨ g = .gc) (h : c.collection.Asks m g n tone) :
    (step cx (Env.fair 0) (.mfTone 0) c).collection.Asks m g n 0 := by
  have hm : ¬ c.start.mfState = .offState := by
    have := h.mfState
    rcases hx with rfl | rfl | rfl <;> simp_all [R2Chan.collection, R2Chan.start]
  have hr : ¬ c.start.mfReadTone = 0 := fun hz => ht (h.mfReadTone.symm.trans hz)
  have hd : c.start.direction = .backward := h.direction
  have hs : (setSilence cx (Env.fair 0) c.start).collection = c.start.collection :=
    prepareMfTone_fair 0 c.start
  have hk : (setSilence cx (Env.fair 0) c.start).collection.Asks m g n tone := by
    rw [hs]
    exact ⟨h.1, h.2, h.3, h.4, h.5, h.6, h.7⟩
  have hf : handleForwardMfSilence cx (Env.fair 0) c.start = setSilence cx (Env.fair 0) c.start := by
    have hg' : (setSilence cx (Env.fair 0) c.start).mfGroup = g := hk.mfGroup
    have hm' : (setSilence cx (Env.fair 0) c.start).mfState = m := hk.mfState
    simp only [handleForwardMfSilence, hm', hg']
    rcases hx with rfl | rfl | rfl <;> rcases hg with rfl | rfl <;> rfl
  simp only [step, handleMedia, if_neg hm, handleMfTone, ne_eq, not_true, if_false, if_neg hr,
    checkThreshold, if_pos hp.threshold, handleToneOff, hd, hf]
  exact ⟨hk.1, hk.2, hk.3, hk.4, hk.5, hk.6, rfl⟩

/-- A tone that is answered with a request, and its end. -/
theorem hear (hp : cx.AniPlan) {tone : Tone} (ht : tone ≠ 0) (hd : c.direction = .backward)
    (hr : c.mfReadTone = 0) (hm : c.mfState ≠ .offState) {m : MfState} {g : MfGroup} {n : Nat}
    (hx : m = .dnisRqTxd ∨ m = .categoryRqTxd ∨ m = .aniRqTxd) (hg : g = .ga ∨ g = .gc)
    (ha : (handleForwardMfTone cx (Env.fair 0) tone (c.start.setMfReadTone tone)).collection.Asks
      m g n tone) :
    (run cx [toneTick tone, toneTick 0] c).1.collection.Asks m g n 0 ∧
      (handleForwardMfTone cx (Env.fair 0) tone (c.start.setMfReadTone tone)).out ⊆
        (run cx [toneTick tone, toneTick 0] c).2 := by
  rw [← toneOn_step hp ht hd hr hm] at ha ⊢
  exact ⟨toneOff_step hp ht hx hg ha, List.subset_append_left _ _⟩

/-- The caller claims to have no DNIS digit, and is asked for its category. -/
theorem noMoreDnis_asks (hp : cx.AniPlan) (ha : cx.AskedAgain) {n : Nat}
    (hd : c.direction = .backward) (hc : c.callState = .collecting)
    (hm : c.mfState = .seizeAckTxd ∧ c.mfGroup = .backInit ∨ c.mfState = .dnisRqTxd ∧ c.mfGroup = .ga)
    (hn : c.aniLen = n) (hz : c.dnisLen = 0) :
    ∃ g, (g = .ga ∨ g = .gc) ∧ (handleForwardMfTone cx (Env.fair 0) cx.g1Tones.noMoreDnisAvailable
      (c.start.setMfReadTone cx.g1Tones.noMoreDnisAvailable)).collection.Asks .categoryRqTxd g n
        cx.g1Tones.noMoreDnisAvailable := by
  have hforce : cx.forceUseMaxAni = false :=
    Bool.eq_false_of_not_eq_true fun hf => ha.2.2.1 (hp.forced hf)
  have hearly : cx.aniCanComeFirst = false := hp.early.trans hforce
  let d := (c.start.setMfReadTone cx.g1Tones.noMoreDnisAvailable).cancelTimer .mfBackCycle
  have hr : handleForwardMfTone cx (Env.fair 0) cx.g1Tones.noMoreDnisAvailable
      (c.start.setMfReadTone cx.g1Tones.noMoreDnisAvailable) =
      requestCallingPartyCategory cx (Env.fair 0) d := by
    have hz : d.dnisLen = 0 := hz
    have hrec : mfReceiveExpectedDnis cx (Env.fair 0) cx.g1Tones.noMoreDnisAvailable d =
        requestCallingPartyCategory cx (Env.fair 0) d := by
      simp only [mfReceiveExpectedDnis, hp.ended, tryRequestCallingPartyCategory, ha.2.1, hz]
      simp
    rw [← hrec]
    rcases hm with ⟨hm, hg⟩ | ⟨hm, hg⟩
    · have hm : d.mfState = .seizeAckTxd := hm
      have hg : d.mfGroup = .backInit := hg
      simp only [handleForwardMfTone, d] at hm hg ⊢
      simp [hm, hg, hearly]
    · have hm : d.mfState = .dnisRqTxd := hm
      have hg : d.mfGroup = .ga := hg
      simp only [handleForwardMfTone, d] at hm hg ⊢
      simp [hm, hg]
  have hk : (requestCallingPartyCategory cx (Env.fair 0) d).collection =
      { d.collection with
        mfGroup := if cx.gaTones.requestCategory ≠ 0 then .ga else .gc
        mfState := .categoryRqTxd } := prepareMfTone_fair _ _
  rw [hr, hk]
  refine ⟨_, ?_, hd, hc, rfl, rfl, hn, hz, rfl⟩
  split_ifs
  · exact .inl rfl
  · exact .inr rfl

/-- The category, after which the ANI is asked for. -/
theorem category_asks (ha : cx.AskedAgain) {g : MfGroup} (hg : g = .ga ∨ g = .gc) {n : Nat}
    (h : c.collection.Asks .categoryRqTxd g n 0) (tone : Tone) :
    (handleForwardMfTone cx (Env.fair 0) tone (c.start.setMfReadTone tone)).collection.Asks
      .aniRqTxd g n tone := by
  have hmax : cx.maxAni > 0 := ha.2.2.2.1
  have hr : ∀ d : R2Chan, d.mfState = .categoryRqTxd → d.mfGroup = g →
      handleForwardMfTone cx (Env.fair 0) tone d = requestNextAniDigit cx (Env.fair 0)
        ((d.cancelTimer .mfBackCycle).setCallerCategory tone) := by
    intro d hm hd
    have hm : (d.cancelTimer .mfBackCycle).mfState = .categoryRqTxd := hm
    have hd : (d.cancelTimer .mfBackCycle).mfGroup = g := hd
    rcases hg with rfl | rfl <;>
      simp only [handleForwardMfTone, hm, hd, receiveCategory, if_pos hmax,
        mfReceiveExpectedAni_zero]
  have hk : (requestNextAniDigit cx (Env.fair 0)
        (((c.start.setMfReadTone tone).cancelTimer .mfBackCycle).setCallerCategory tone)).collection =
      { c.start.collection with mfState := .aniRqTxd, mfReadTone := tone } := prepareMfTone_fair _ _
  rw [hr (c.start.setMfReadTone tone) h.mfState h.mfGroup, hk]
  exact ⟨h.1, h.2, rfl, h.4, h.5, h.6, rfl⟩

/-- An ANI digit: it is stored, and either the next one is asked for, or the first
DNIS digit once more. -/
theorem aniDigit_asks (ha : cx.AskedAgain) {g : MfGroup} (hg : g = .ga ∨ g = .gc) {n : Nat}
    (h : c.collection.Asks .aniRqTxd g n 0) :
    ∃ m g', (m = .aniRqTxd ∧ g' = g ∨ m = .dnisRqTxd ∧ g' = .ga) ∧
      (handleForwardMfTone cx (Env.fair 0) Tone.t1 (c.start.setMfReadTone Tone.t1)).collection.Asks
        m g' (n + 1) Tone.t1 ∧
      n ∈ (handleForwardMfTone cx (Env.fair 0) Tone.t1
        (c.start.setMfReadTone Tone.t1)).collection.stores := by
  let d := (c.start.setMfReadTone Tone.t1).cancelTimer .mfBackCycle
  let e := callback cx (Env.fair 0) (.onAniDigitReceived Tone.t1) (storeAniDigit Tone.t1 d)
  have hm : d.mfState = .aniRqTxd := h.mfState
  have hd : d.mfGroup = g := h.mfGroup
  have he : e.collection = (storeAniDigit Tone.t1 d).collection := callback_fair _ _
  rw [collection_storeAniDigit] at he
  have hz : e.dnisLen = 0 := (congrArg Collection.dnisLen he).trans h.dnisLen
  have hf : handleForwardMfTone cx (Env.fair 0) Tone.t1 (c.start.setMfReadTone Tone.t1) =
      mfReceiveExpectedAni cx (Env.fair 0) Tone.t1 d := by
    simp only [handleForwardMfTone, d] at hm hd ⊢
    rcases hg with rfl | rfl <;> simp only [hm, hd]
  rw [hf]
  have hone : Tone.t1.isDigit = true := rfl
  have hne : ¬ Tone.t1 = 0 := by decide
  simp only [mfReceiveExpectedAni, hone, or_true, if_true, ne_eq, hne, not_false_eq_true, false_or]
  have hstore : n ∈ e.collection.stores := by
    rw [he]
    exact List.mem_append_right _ (List.mem_singleton.mpr h.aniLen.symm)
  have hk : e.collection.Asks .aniRqTxd g (n + 1) Tone.t1 := by
    rw [he]
    exact ⟨h.direction, h.callState, h.mfState, h.mfGroup, congrArg (· + 1) h.aniLen, h.dnisLen,
      rfl⟩
  split_ifs
  · have hq : (requestNextAniDigit cx (Env.fair 0) e).collection =
        { e.collection with mfState := .aniRqTxd } := prepareMfTone_fair _ _
    refine ⟨.aniRqTxd, g, .inl ⟨rfl, rfl⟩, ?_⟩
    rw [hq]
    exact ⟨⟨hk.1, hk.2, rfl, hk.4, hk.5, hk.6, hk.7⟩, hstore⟩
  · -- the number is not complete, since there is no digit of it
    have hn : ¬ (cx.getAniFirst = false ∨ dnisComplete cx e) := by
      simp [ha.1, dnisComplete, hz, ha.2.2.2.2]
    have hq : (doneGettingAni cx (Env.fair 0) e).collection =
        { e.collection with mfGroup := .ga, mfState := .dnisRqTxd } := by
      rw [doneGettingAni, if_neg hn]
      exact prepareMfTone_fair _ _
    refine ⟨.dnisRqTxd, .ga, .inr ⟨rfl, rfl⟩, ?_⟩
    rw [hq]
    exact ⟨⟨hk.1, hk.2, rfl, rfl, hk.5, hk.6, hk.7⟩, hstore⟩

/-- Where the caller can make the channel ask for one more ANI digit. -/
structure R2Chan.Willing (c : R2Chan) (n : Nat) : Prop where
  direction : c.direction = .backward
  callState : c.callState = .collecting
  state : c.mfState = .seizeAckTxd ∧ c.mfGroup = .backInit ∨ c.mfState = .dnisRqTxd ∧ c.mfGroup = .ga ∨
    c.mfState = .aniRqTxd ∧ (c.mfGroup = .ga ∨ c.mfGroup = .gc)
  aniLen : c.aniLen = n
  dnisLen : c.dnisLen = 0
  mfReadTone : c.mfReadTone = 0

theorem R2Chan.Seized.willing (h : c.Seized) : c.Willing 0 :=
  ⟨h.direction, h.callState, .inl ⟨h.mfState, h.mfGroup⟩, h.aniLen, h.dnisLen, h.mfReadTone⟩

/-- From an ANI request: the digit is written at the next index. -/
theorem aniRq_stores (hp : cx.AniPlan) (ha : cx.AskedAgain) {g : MfGroup} (hg : g = .ga ∨ g = .gc)
    {n : Nat} (h : c.collection.Asks .aniRqTxd g n 0) :
    (run cx [toneTick Tone.t1, toneTick 0] c).1.Willing (n + 1) ∧
      ∃ d, .storeAni n d ∈ (run cx [toneTick Tone.t1, toneTick 0] c).2 := by
  have hm : c.mfState = .aniRqTxd := h.mfState
  obtain ⟨m, g', hx, hk, hs⟩ := aniDigit_asks ha hg h
  obtain ⟨hk, ho⟩ := hear hp (by decide) h.direction h.mfReadTone (by simp [hm])
    (by rcases hx with ⟨rfl, -⟩ | ⟨rfl, -⟩ <;> simp)
    (by rcases hx with ⟨-, rfl⟩ | ⟨-, rfl⟩ <;> simp [hg]) hk
  refine ⟨⟨hk.direction, hk.callState, ?_, hk.aniLen, hk.dnisLen, hk.mfReadTone⟩, ?_⟩
  · rcases hx with ⟨rfl, rfl⟩ | ⟨rfl, rfl⟩
    · exact .inr (.inr ⟨hk.mfState, hg.imp hk.mfGroup.trans hk.mfGroup.trans⟩)
    · exact .inr (.inl ⟨hk.mfState, hk.mfGroup⟩)
  · obtain ⟨a, ha, hi⟩ := List.mem_filterMap.mp hs
    cases a with
    | storeAni i d =>
      obtain rfl : i = n := Option.some.inj hi
      exact ⟨d, ho ha⟩
    | _ => exact nomatch hi

/-- One more round, and one more digit. -/
theorem willing_stores (hp : cx.AniPlan) (ha : cx.AskedAgain) {n : Nat} (h : c.Willing n) :
    ∃ ts : List Tick, (∀ t ∈ ts, t.input.IsTone) ∧ (run cx ts c).1.Willing (n + 1) ∧
      ∃ d, .storeAni n d ∈ (run cx ts c).2 := by
  have hround : c.mfState = .seizeAckTxd ∧ c.mfGroup = .backInit ∨
        c.mfState = .dnisRqTxd ∧ c.mfGroup = .ga →
      ∃ ts : List Tick, (∀ t ∈ ts, t.input.IsTone) ∧ (run cx ts c).1.Willing (n + 1) ∧
        ∃ d, .storeAni n d ∈ (run cx ts c).2 := by
    intro hm
    obtain ⟨g, hg, hk⟩ := noMoreDnis_asks hp ha h.direction h.callState hm h.aniLen h.dnisLen
    obtain ⟨hk, -⟩ := hear hp ha.2.2.1 h.direction h.mfReadTone
      (by rcases hm with ⟨hm, -⟩ | ⟨hm, -⟩ <;> simp [hm]) (.inr (.inl rfl)) hg hk
    let c₁ := (run cx [toneTick cx.g1Tones.noMoreDnisAvailable, toneTick 0] c).1
    have hm₁ : c₁.mfState = .categoryRqTxd := hk.mfState
    obtain ⟨hk, -⟩ := hear hp (c := c₁) (show Tone.t1 ≠ 0 by decide) hk.direction hk.mfReadTone
      (by simp [hm₁]) (.inr (.inr rfl)) hg (category_asks ha hg hk Tone.t1)
    obtain ⟨hw, d, hd⟩ := aniRq_stores hp ha hg hk
    refine ⟨[toneTick cx.g1Tones.noMoreDnisAvailable, toneTick 0] ++
      ([toneTick Tone.t1, toneTick 0] ++ [toneTick Tone.t1, toneTick 0]), ?_, ?_, d, ?_⟩
    · simp [toneTick, Input.IsTone]
    · simp only [run, Runs.exec_append] at hw ⊢
      exact hw
    · simp only [run, Runs.exec_append] at hd ⊢
      exact List.mem_append_right _ (List.mem_append_right _ hd)
  rcases h.state with hm | hm | ⟨hm, hg⟩
  · exact hround (.inl hm)
  · exact hround (.inr hm)
  · obtain ⟨hw, hd⟩ := aniRq_stores hp ha hg
      ⟨h.direction, h.callState, hm, rfl, h.aniLen, h.dnisLen, h.mfReadTone⟩
    exact ⟨_, by simp [toneTick, Input.IsTone], hw, hd⟩

/-- The caller can have any number of digits written. -/
theorem willing_reached (hp : cx.AniPlan) (ha : cx.AskedAgain) (hc : c.Seized) (n : Nat) :
    ∃ ts : List Tick, (∀ t ∈ ts, t.input.IsTone) ∧ (run cx ts c).1.Willing n := by
  induction n with
  | zero => exact ⟨[], by simp, hc.willing⟩
  | succ n ih =>
    obtain ⟨ts, ht, hw⟩ := ih
    obtain ⟨us, hu, hw, -⟩ := willing_stores hp ha hw
    refine ⟨ts ++ us, fun t h => (List.mem_append.mp h).elim (ht t) (hu t), ?_⟩
    simp only [run, Runs.exec_append] at hw ⊢
    exact hw

end Attack

/-- Received ANI digits stay inside their buffer just where the ANI is asked for
only once. -/
theorem ani_in_buffer_iff {cx : R2Context} (hx : Configured cx) {c : R2Chan} (hc : c.Seized) :
    (∀ ts : List Tick, (∀ t ∈ ts, t.input.IsTone) →
      ∀ n d, .storeAni n d ∈ (run cx ts c).2 → n < maxAniBuffer - 1) ↔ ¬ cx.AskedAgain := by
  refine ⟨fun h ha => ?_, fun hn ts ht n d ho => run_aniIndex hx.aniPlan hn hc ts ht n d ho⟩
  obtain ⟨ts, ht, hw⟩ := willing_reached hx.aniPlan ha hc (maxAniBuffer - 1)
  obtain ⟨us, hu, -, d, hd⟩ := willing_stores hx.aniPlan ha hw
  refine absurd (h (ts ++ us) (fun t h => (List.mem_append.mp h).elim (ht t) (hu t)) _ d ?_)
    (Nat.lt_irrefl _)
  simp only [run, Runs.exec_append] at hd ⊢
  exact List.mem_append_right _ hd

/-- An incoming call of a channel with the tables of a variant. -/
def seizedChannel (cx : R2Context) : R2Chan :=
  (run cx [⟨Env.fair 0x9, .cas⟩, ⟨Env.fair 0x1, .cas⟩] (setIdle cx (Env.fair 0x9) R2Chan.new).1).1

/-- Mexico has no tone for the end of the DNIS. -/
theorem ani_in_buffer_iff_mexico :
    let cx := setAniFirst 1 (r2configMexico
      (configureItu 79 10 { R2Context.zero with variant := .mexico }))
    (∀ ts : List Tick, (∀ t ∈ ts, t.input.IsTone) →
      ∀ n d, .storeAni n d ∈ (run cx ts (seizedChannel cx)).2 → n < maxAniBuffer - 1) ↔
        ¬ cx.AskedAgain :=
  ani_in_buffer_iff (.aniFirst 1 _ (.new .mexico 79 10 _ rfl))
    ⟨by decide, by decide, by decide, by decide, by decide, by decide, by decide⟩

/-- The end of the DNIS, a category and a full ANI; and again the end of the DNIS, a
category and one ANI digit. -/
def refill : List Tick :=
  ([Tone.t15, Tone.t1] ++ List.replicate 79 Tone.t5 ++ [Tone.t15, Tone.t1, Tone.t5]).flatMap
    fun tone => [toneTick tone, toneTick 0]

theorem refill_overflows :
    ¬ ∀ (cx : R2Context), Configured cx → ∀ c : R2Chan, c.Seized → ∀ ts : List Tick,
      (∀ t ∈ ts, t.input.IsTone) → ∀ n d, .storeAni n d ∈ (run cx ts c).2 →
        n < maxAniBuffer - 1 := by
  intro h
  let cx := configureItu 79 10 { R2Context.zero with variant := .itu }
  have hs : (seizedChannel cx).Seized :=
    ⟨by decide, by decide, by decide, by decide, by decide, by decide, by decide⟩
  have ht : ∀ t ∈ refill, t.input.IsTone := by
    intro t ht
    obtain ⟨tone, -, ht⟩ := List.mem_flatMap.mp ht
    simp only [List.mem_cons, List.not_mem_nil, or_false] at ht
    rcases ht with rfl | rfl <;> trivial
  have ho : .storeAni 79 Tone.t5 ∈ (run cx refill (seizedChannel cx)).2 := by decide +kernel
  exact absurd (h cx (.new .itu 79 10 _ rfl) _ hs refill ht 79 _ ho) (by decide)

end OpenR2
