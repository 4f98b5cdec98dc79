import OpenR2.Proofs.DigitHangUp
import OpenR2.Proofs.DtmfDigits
import OpenR2.Proofs.OutgoingSteps
import OpenR2.Proofs.Persistence

namespace OpenR2

namespace R2Chan

variable (cx : R2Context) (env : Env)

/-- The channel of an incoming call for which a receiver is ready. -/
def received (c : R2Chan) : Option R2Chan :=
  if cx.detectDtmf then
    if env.dtmfRxInit c.out = false then none
    else
      let c := c.did .dtmfRxInit
      some (((c.setMfGroup .dtmfBackInit).setMfState .detectingDtmf).setDtmf c.dialingDtmf true)
  else
    let d := c.did (.mfWriteInit c.mfWriteHandle false)
    match env.mfWriteInit c.out, env.mfReadInit d.out with
    | some w, some r =>
      let d := d.did (.mfReadInit d.mfReadHandle true)
      some (((d.setMfHandles w r).setMfState .seizeAckTxd).setMfGroup .backInit)
    | _, _ => none

/-- An incoming call is on the channel, and the user hears of it. -/
def inited (c : R2Chan) : R2Chan :=
  (((c.setR2State .seizeAckTxd).setCallState .collecting).setDirection .backward).emit .onCallInit

end R2Chan

/-- The calls of the user in a step which may call back, with the channel that is found and
what the code makes of the channel that is left. -/
inductive CallsBack (cx : R2Context) (c : R2Chan) (t : Tick) : R2Chan → (R2Chan → R2Chan) → Prop
  | init {d e f : R2Chan} {cas : Nat} (entry : casEntry cx t.env t.input c = some d)
      (pattern : casPattern cx t.env d = (e, some cas)) (alarm : e.inalarm = false)
      (idle : e.r2State = .idle)
      (seize : cas = cx.casSignals .seize ∧ cas ≠ cx.casSignals .block ∧ cas ≠ cx.casSignals .idle)
      (ready : ((e.setCasRead cas).logRx .seize).received cx t.env = some f) :
      CallsBack cx c t f.inited fun g => if cx.autoSeizeAck then (ackCall cx t.env g).1 else g
  | digit {tone : Tone} (comes : Comes cx c t tone) (isDigit : tone.isDigit = true)
      (expected : c.stage.ExpectsDnis cx ∨ c.stage.ExpectsAni cx) :
      CallsBack cx c t ((c.digitStored cx t.env tone).emit (c.digitEvent cx tone)) fun g =>
        goOn cx t.env (g.stage.afterDigit cx (decide (c.stage.ExpectsDnis cx))
          (t.env.onDnisDigitReceived (c.digitStored cx t.env tone).out)) g
  | accepted {mode : CallMode} (asks : AsksFor cx c t (.accept mode))
      (pending : c.r2State = .answerRxdMfPending) :
      CallsBack cx c t (((c.checked cx t.env).setR2State .acceptRxd).emit (.onCallAccepted mode)) fun g =>
        (if g.r2State ≠ .acceptRxd ∨ g.mfState ≠ c.mfState ∨ g.callState ≠ c.callState then g
          else callAnswered cx g).setMfReadTone 0

section Stored

variable (cx : R2Context) (env : Env) (c : R2Chan) (tone : Tone)

theorem storeDnisDigit_keeps :
    (storeDnisDigit tone c).direction = c.direction ∧ (storeDnisDigit tone c).callState = c.callState ∧
      (storeDnisDigit tone c).r2State = c.r2State := by
  unfold storeDnisDigit
  split_ifs
  · exact ⟨rfl, rfl, rfl⟩
  · exact ⟨rfl, rfl, rfl⟩

theorem digitStored_keeps :
    (c.digitStored cx env tone).direction = c.direction ∧ (c.digitStored cx env tone).callState = c.callState ∧
      (c.digitStored cx env tone).r2State = c.r2State := by
  obtain ⟨x, n, as, hf, -⟩ := checkThreshold_frame cx env tone c.start
  have hs : (checkThreshold cx env tone c.start).1.direction = c.direction ∧
      (checkThreshold cx env tone c.start).1.callState = c.callState ∧
      (checkThreshold cx env tone c.start).1.r2State = c.r2State := by
    rw [hf]
    exact ⟨rfl, rfl, rfl⟩
  unfold R2Chan.digitStored
  generalize (checkThreshold cx env tone c.start).1 = d at hs
  dsimp only
  split_ifs
  · obtain ⟨hd, hc, hr⟩ := storeDnisDigit_keeps ((d.setMfReadTone tone).cancelTimer .mfBackCycle) tone
    exact ⟨hd.trans hs.1, hc.trans hs.2.1, hr.trans hs.2.2⟩
  · exact hs

end Stored

/-- The user makes this call, between the steps or in a callback. -/
inductive Calls (cx : R2Context) (c : R2Chan) (t : Tick) (a : ApiCall) :
    R2Chan → (R2Chan → R2Chan) → Prop
  | between (h : t.input = .api a) : Calls cx c t a c.start id
  | inside {d : R2Chan} {f : R2Chan → R2Chan} (h : CallsBack cx c t d f)
      (ha : t.env.reenter d.out = some a) : Calls cx c t a d f

section Calls

variable {cx : R2Context} {env : Env} {c d : R2Chan} {t : Tick} {f : R2Chan → R2Chan} {a : ApiCall}

theorem callback_of_call {e : Event} (h : env.reenter (c.emit e).out = some a) :
    callback cx env e c = (apiCall cx env a (c.emit e)).1 := by simp only [callback, h]

theorem handleIncomingCall_received (h : c.received cx env = some d) :
    handleIncomingCall cx env c = incomingCall cx env d := by
  unfold R2Chan.received at h
  unfold handleIncomingCall
  by_cases hd : cx.detectDtmf = true
  · rw [if_pos hd] at h ⊢
    by_cases hi : env.dtmfRxInit c.out = false
    · rw [if_pos hi] at h
      exact nomatch h
    · rw [if_neg hi] at h
      rw [← Option.some.inj h]
      exact if_neg hi
  · rw [if_neg hd] at h ⊢
    dsimp only at h ⊢
    cases hw : env.mfWriteInit c.out with
    | none => simp [hw] at h
    | some w =>
      dsimp only
      cases hr : env.mfReadInit (c.did (.mfWriteInit c.mfWriteHandle false)).out with
      | none => simp [hw, hr] at h
      | some r =>
        simp only [hw, hr] at h
        exact congrArg (incomingCall cx env) (Option.some.inj h)

/-- The channel of an incoming call reaches the user, and is the user's. -/
theorem incomingCall_calls (h : env.reenter c.inited.out = some a) :
    incomingCall cx env c =
      if cx.autoSeizeAck then (ackCall cx env (apiCall cx env a c.inited).1).1
      else (apiCall cx env a c.inited).1 := by
  simp only [incomingCall]
  rw [callback_of_call h]
  rfl

/-- What is called in a callback is done, and then the code goes on. -/
theorem CallsBack.step (h : CallsBack cx c t d f) (ha : t.env.reenter d.out = some a) :
    step cx t.env t.input c = f (apiCall cx t.env a d).1 := by
  cases h with
  | init entry pattern alarm idle seize ready =>
    rename_i d e g cas
    obtain ⟨hs, hb, hi⟩ := seize
    have hr : (e.setCasRead cas).r2State = .idle := idle
    have hn : ¬ e.inalarm = true := by simp [alarm]
    rw [step_enters entry, handleCas, pattern]
    simp only [actOnCas, if_neg hn, casSwitch, hr, casIdle, if_neg hb, if_neg hi, if_pos hs]
    rw [handleIncomingCall_received ready, incomingCall_calls ha]
  | digit comes isDigit expected =>
    rename_i tone
    have hs : step cx t.env t.input c = (tick cx c t).1 := rfl
    have hc : c.afterCallback cx t.env tone = (apiCall cx t.env a
        ((c.digitStored cx t.env tone).emit (c.digitEvent cx tone))).1 := callback_of_call ha
    rw [hs, tick_goesOn comes isDigit expected, R2Chan.goesOnTo, hc]
  | accepted asks pending =>
    rename_i mode
    have hs : step cx t.env t.input c = (tick cx c t).1 := rfl
    obtain ⟨x, n, as, hk, -⟩ := checkThreshold_frame cx t.env 0 c.start
    have hr : (c.checked cx t.env).r2State = .answerRxdMfPending := by
      rw [R2Chan.checked, hk]
      exact pending
    have hm : (c.checked cx t.env).mfState = c.mfState := by rw [R2Chan.checked, hk]; rfl
    have hcs : (c.checked cx t.env).callState = c.callState := by rw [R2Chan.checked, hk]; rfl
    rw [hs, tick_serves asks, serve, handleAcceptTone, if_pos hr, callback_of_call ha, hm, hcs]

theorem Calls.step (h : Calls cx c t a d f) : step cx t.env t.input c = f (apiCall cx t.env a d).1 := by
  cases h with
  | between h =>
    rw [h]
    rfl
  | inside h ha => exact h.step ha

end Calls

/-- The input of MFC mode that an input is. -/
def MediaChan.input? (m : MediaChan) : MediaInput → Option Input
  | .cas => some .cas
  | .read x => if m.chan.detectingDtmf then none else x.mfTone.map .mfTone
  | .write _ => none
  | .timer id => some (.timer id)
  | .api a => some (.api a)
  | .alarm on => some (.alarm on)

section Digits

variable (cx : R2Context) (env : Env)

/-- The digits of a report, one after the other. -/
def hearDigits (digits : List Tone) (c : R2Chan) : R2Chan :=
  digits.foldl (fun c digit => receiveDtmfDigit cx env digit c) c

/-- The rest of a read after the callback of a digit: what the user said of more digits, the
other digits of the report, and the other reports. -/
def hearRest (x : Heard) (more : Bool) (digits : List Tone) (reports : List (Option (List Tone)))
    (c : R2Chan) : MediaChan :=
  let m := onDtmfReports cx env reports ⟨hearDigits cx env digits (if more then c else stopDnisCallback c), 0⟩
  if x.dtmfStatus then m else dtmfSilence cx env m

end Digits

/-- The same of the inputs of both modes. -/
inductive MediaCallsBack (cx : R2Context) (m : MediaChan) (t : MediaTick) :
    R2Chan → (R2Chan → R2Chan) → Prop
  | line {i : Input} {d : R2Chan} {f : R2Chan → R2Chan} (input : m.input? t.input = some i)
      (calls : CallsBack cx m.chan ⟨t.env, i⟩ d f) : MediaCallsBack cx m t d f
  | digit {x : Heard} {pre post : List (Option (List Tone))} {report us vs : List Tone} {u : Tone}
      {c d : R2Chan} (read : t.input = .read x) (on : m.chan.mfState ≠ .offState)
      (detecting : m.chan.detectingDtmf = true) (reports : x.dtmfDigits = pre ++ some report :: post)
      (digits : cstr report = us ++ u :: vs)
      (before : (onDtmfReports cx t.env pre (m.on R2Chan.start)).chan = c)
      (wanted : c.callDnisCallback = true) (stored : keepDtmfDigit u (hearDigits cx t.env us c) = d) :
      MediaCallsBack cx m t (d.emit (.onDnisDigitReceived u)) fun g =>
        (hearRest cx t.env x (t.env.onDnisDigitReceived d.out) vs post g).chan

/-- The user makes this call, between the steps or in a callback. -/
inductive MediaCalls (cx : R2Context) (m : MediaChan) (t : MediaTick) (a : ApiCall) :
    R2Chan → (R2Chan → R2Chan) → Prop
  | between (h : t.input = .api a) : MediaCalls cx m t a m.chan.start id
  | inside {d : R2Chan} {f : R2Chan → R2Chan} (h : MediaCallsBack cx m t d f)
      (ha : t.env.reenter d.out = some a) : MediaCalls cx m t a d f

section MediaCalls

variable {cx : R2Context} {env : Env} {m : MediaChan} {t : MediaTick} {d : R2Chan}
  {f : R2Chan → R2Chan} {a : ApiCall} {i : Input}

theorem mediaStep_input {j : MediaInput} (h : m.input? j = some i) :
    (mediaStep cx env j m).chan = step cx env i m.chan := by
  cases j with
  | read x =>
    simp only [MediaChan.input?] at h
    split_ifs at h with hd
    obtain ⟨tone, hx, rfl⟩ := Option.map_eq_some_iff.mp h
    have hd' : ¬ (m.on R2Chan.start).chan.detectingDtmf = true := hd
    change (handleRead cx env x (m.on R2Chan.start)).chan = handleMedia cx env tone m.chan.start
    unfold handleRead handleMedia
    split_ifs with ho ho'
    · rfl
    · exact absurd ho ho'
    · exact absurd (show m.chan.start.mfState = .offState from ‹_›) ho
    · rw [hx]
      rfl
  | write sent => exact nomatch h
  | _ =>
    obtain rfl := Option.some.inj h
    rfl

theorem receiveDtmfDigit_calls {c : R2Chan} {u : Tone}
    (h : env.reenter ((keepDtmfDigit u c).emit (.onDnisDigitReceived u)).out = some a) :
    receiveDtmfDigit cx env u c =
      if env.onDnisDigitReceived (keepDtmfDigit u c).out
        then (apiCall cx env a ((keepDtmfDigit u c).emit (.onDnisDigitReceived u))).1
        else stopDnisCallback (apiCall cx env a ((keepDtmfDigit u c).emit (.onDnisDigitReceived u))).1 := by
  have hc : callback cx env (.onDnisDigitReceived u) (keepDtmfDigit u c) =
      (apiCall cx env a ((keepDtmfDigit u c).emit (.onDnisDigitReceived u))).1 := callback_of_call h
  rw [← hc]
  rfl

theorem MediaCallsBack.step (h : MediaCallsBack cx m t d f) (ha : t.env.reenter d.out = some a) :
    (mediaStep cx t.env t.input m).chan = f (apiCall cx t.env a d).1 := by
  cases h with
  | line input calls =>
    rw [mediaStep_input input]
    exact calls.step ha
  | digit read on detecting reports digits before wanted stored =>
    rename_i x pre post report us vs u c d
    have ho : ¬ (m.on R2Chan.start).chan.mfState = .offState := on
    have hd : (m.on R2Chan.start).chan.detectingDtmf = true := detecting
    have hs : (mediaStep cx t.env t.input m) = detectDtmf cx t.env x (m.on R2Chan.start) := by
      rw [read]
      change handleRead cx t.env x (m.on R2Chan.start) = _
      rw [handleRead, if_neg ho, if_pos hd]
    have hr : onDtmfReports cx t.env x.dtmfDigits (m.on R2Chan.start) =
        onDtmfReports cx t.env post ⟨hearDigits cx t.env vs (receiveDtmfDigit cx t.env u
          (hearDigits cx t.env us c)), 0⟩ := by
      rw [reports]
      simp only [onDtmfReports, List.foldl_append, List.foldl_cons]
      simp only [onDtmfReports] at before
      rw [onDtmfReceived, before, receiveDtmfDigits, if_pos wanted, digits]
      simp only [hearDigits, List.foldl_append, List.foldl_cons]
    subst stored
    rw [receiveDtmfDigit_calls ha] at hr
    rw [hs]
    simp only [detectDtmf, hearRest]
    rw [← hr]
    rfl

theorem MediaCalls.step (h : MediaCalls cx m t a d f) :
    (mediaStep cx t.env t.input m).chan = f (apiCall cx t.env a d).1 := by
  cases h with
  | between h =>
    rw [h]
    rfl
  | inside h ha => exact h.step ha

end MediaCalls

/-- The same world with callbacks that make no call. -/
def Env.silent (env : Env) : Env := { env with reenter := fun _ => none }

section Silent

variable {cx : R2Context} {env : Env} {c d : R2Chan} {t : Tick} {tone : Tone}

theorem callback_silent {e : Event} (h : env.reenter (c.emit e).out = none) :
    callback cx env e c = callback cx env.silent e c := by
  simp only [callback, h]
  rfl

theorem handleIncomingCall_silent (h : ∀ f, c.received cx env = some f → env.reenter f.inited.out = none) :
    handleIncomingCall cx env c = handleIncomingCall cx env.silent c := by
  cases hr : c.received cx env with
  | some f =>
    have hs : c.received cx env.silent = some f := hr
    rw [handleIncomingCall_received hr, handleIncomingCall_received hs]
    have hc := @callback_silent cx env
      (((f.setR2State .seizeAckTxd).setCallState .collecting).setDirection .backward) .onCallInit (h f hr)
    unfold incomingCall
    dsimp only
    rw [hc]
    rfl
  | none =>
    unfold R2Chan.received at hr
    unfold handleIncomingCall
    split_ifs at hr ⊢ with hd hi
    · dsimp only
      rw [if_pos hi]
      exact (if_pos hi).symm
    · dsimp only at hr ⊢
      have hw : env.silent.mfWriteInit = env.mfWriteInit := rfl
      have hx : env.silent.mfReadInit = env.mfReadInit := rfl
      rw [hw, hx]
      cases h1 : env.mfWriteInit c.out with
      | none => rfl
      | some w =>
        dsimp only
        cases h2 : env.mfReadInit (c.did (.mfWriteInit c.mfWriteHandle false)).out with
        | none => rfl
        | some r => simp [h1, h2] at hr

theorem handleCas_silent
    (h : ∀ e cas f, casPattern cx env d = (e, some cas) → e.inalarm = false → e.r2State = .idle →
      cas = cx.casSignals .seize ∧ cas ≠ cx.casSignals .block ∧ cas ≠ cx.casSignals .idle →
      ((e.setCasRead cas).logRx .seize).received cx env = some f → env.reenter f.inited.out = none) :
    handleCas cx env d = handleCas cx env.silent d := by
  have hp : casPattern cx env.silent d = casPattern cx env d := rfl
  unfold handleCas
  rw [hp]
  generalize casPattern cx env d = r at h
  obtain ⟨e, p⟩ := r
  cases p with
  | none => rfl
  | some cas =>
    simp only [actOnCas]
    split_ifs with ha
    · rfl
    unfold casSwitch
    cases hr : (e.setCasRead cas).r2State with
    | idle =>
      dsimp only
      unfold casIdle
      split_ifs with h1 h2 h3
      · rfl
      · rfl
      · exact handleIncomingCall_silent fun f hf =>
          h e cas f rfl (eq_false_of_ne_true ha) hr ⟨h3, h1, h2⟩ hf
      · rfl
    | _ => rfl

theorem handleForwardMfTone_silent (h0 : tone ≠ 0)
    (h : tone.isDigit = true → ¬ (c.stage.ExpectsDnis cx ∨ c.stage.ExpectsAni cx)) :
    handleForwardMfTone cx env tone c = handleForwardMfTone cx env.silent tone c := by
  have hd : ∀ d : R2Chan, tone.isDigit = false →
      mfReceiveExpectedDnis cx env tone d = mfReceiveExpectedDnis cx env.silent tone d := by
    intro d hn
    simp only [mfReceiveExpectedDnis, hn, Bool.false_eq_true, if_false]
    rfl
  have ha : ∀ d : R2Chan, tone.isDigit = false →
      mfReceiveExpectedAni cx env tone d = mfReceiveExpectedAni cx env.silent tone d := by
    intro d hn
    simp only [mfReceiveExpectedAni, hn, h0, Bool.false_eq_true, or_self, if_false]
    rfl
  have hz : ∀ d : R2Chan, receiveCategory cx env tone d = receiveCategory cx env.silent tone d := by
    intro d
    have hr : ∀ e : R2Chan, mfReceiveExpectedAni cx env 0 e = mfReceiveExpectedAni cx env.silent 0 e := by
      intro e
      simp only [mfReceiveExpectedAni, ne_eq, not_true_eq_false, if_false, true_or, if_true]
      rfl
    simp only [receiveCategory, hr]
    rfl
  have hn : c.stage.ExpectsDnis cx ∨ c.stage.ExpectsAni cx → tone.isDigit = false :=
    fun hx => eq_false_of_ne_true fun hy => h hy hx
  unfold handleForwardMfTone
  dsimp only
  split
  · rename_i hg hm
    split_ifs with hf
    · exact ha _ (hn (.inr (.inr ⟨hg, hm, hf⟩)))
    · exact hd _ (hn (.inl (.inr ⟨hg, hm, hf⟩)))
  · rename_i hg hm
    exact hd _ (hn (.inl (.inl ⟨hg, hm⟩)))
  · exact hz _
  · exact hz _
  · rename_i hg hm
    exact ha _ (hn (.inr (.inl ⟨.inl hg, hm⟩)))
  · rename_i hg hm
    exact ha _ (hn (.inr (.inl ⟨.inr hg, hm⟩)))
  all_goals rfl

/-- The tone of the caller, or its end, in whose callback no call is made. -/
theorem handleMedia_silent (hi : t.input = .mfTone tone)
    (h : ∀ d f, CallsBack cx c t d f → t.env.reenter d.out = none) :
    handleMedia cx t.env tone c.start = handleMedia cx t.env.silent tone c.start := by
  have ht : ∀ tone, checkThreshold cx t.env.silent tone c.start = checkThreshold cx t.env tone c.start :=
    fun _ => rfl
  have hs : ∀ env, step cx env (.mfTone tone) c = handleMedia cx env tone c.start := fun _ => rfl
  have hk : ∀ tone, (checkThreshold cx t.env tone c.start).1.stage = c.stage ∧
      (checkThreshold cx t.env tone c.start).1.direction = c.direction := by
    intro tone
    obtain ⟨x, n, as, hf, -⟩ := checkThreshold_frame cx t.env tone c.start
    rw [hf]
    exact ⟨rfl, rfl⟩
  by_cases hx : tone.isDigit = true ∧ Comes cx c t tone ∧ (c.stage.ExpectsDnis cx ∨ c.stage.ExpectsAni cx)
  · obtain ⟨hd, hc, he⟩ := hx
    have hc' : Comes cx c ⟨t.env.silent, .mfTone tone⟩ tone := ⟨rfl, hc.2⟩
    have h1 := tick_goesOn hc hd he
    have h2 := tick_goesOn hc' hd he
    have hcall : c.afterCallback cx t.env tone = c.afterCallback cx t.env.silent tone :=
      callback_silent (h _ _ (.digit hc hd he))
    simp only [tick, hi] at h1 h2
    rw [← hs, ← hs, h1, h2, ← hcall, R2Chan.goesOnTo, R2Chan.goesOnTo, ← hcall]
    rfl
  by_cases hy : ∃ r, AsksFor cx c t r
  · obtain ⟨r, hr⟩ := hy
    have hr' : AsksFor cx c ⟨t.env.silent, .mfTone tone⟩ r := by
      obtain ⟨x, ⟨hz, hc⟩, hq⟩ := hr
      exact ⟨x, ⟨hi.symm.trans hz, hc⟩, hq⟩
    have h1 := tick_serves hr
    have h2 := tick_serves hr'
    simp only [tick, hi] at h1 h2
    rw [← hs, ← hs, h1, h2]
    cases r with
    | accept mode =>
      refine congrArg (R2Chan.setMfReadTone 0) ?_
      change handleAcceptTone cx t.env mode (c.checked cx t.env) =
        handleAcceptTone cx t.env.silent mode (c.checked cx t.env)
      unfold handleAcceptTone
      by_cases hp : (c.checked cx t.env).r2State = .answerRxdMfPending
      · rw [if_pos hp, if_pos hp, callback_silent (h _ _ (.accepted hr ?_))]
        obtain ⟨x, n, as, hk, -⟩ := checkThreshold_frame cx t.env 0 c.start
        rw [R2Chan.checked, hk] at hp
        exact hp
      · rw [if_neg hp, if_neg hp]
        rfl
    | _ => rfl
  unfold handleMedia
  split_ifs with ho
  · rfl
  unfold handleMfTone
  dsimp only
  rw [ht, ht]
  split_ifs with h0 h1 h2 h3 h4 h5
  · rfl
  · rfl
  · rfl
  · unfold handleToneOn
    dsimp only
    split
    · rename_i hd
      refine handleForwardMfTone_silent h0 fun hx' he =>
        hx ⟨hx', ⟨hi, h0, ?_, ho, not_not.mp h2, not_not.mp h3⟩, ?_⟩
      · exact (hk tone).2.symm.trans hd
      · rw [← (hk tone).1]
        exact he
    · rfl
    · rfl
  · rfl
  · rfl
  · unfold handleToneOff
    dsimp only
    split
    · rfl
    · rename_i hd
      have hz : tone = 0 := not_not.mp h0
      exact absurd
        ⟨_, c.mfReadTone, ⟨by rw [hi, hz], h4, (hk 0).2.symm.trans hd, ho, rfl, not_not.mp h5⟩, rfl⟩ hy
    · rfl

theorem persistenceCheckExpired_silent (h : checkEntry cx env c = none) :
    persistenceCheckExpired cx env c = persistenceCheckExpired cx env.silent c := by
  have hp : ∀ d : R2Chan, ioGetCas env.silent d = ioGetCas env d := fun _ => rfl
  unfold checkEntry at h
  unfold persistenceCheckExpired
  rw [hp]
  generalize ioGetCas env (c.mapTimers (·.setSlot .casPersistenceCheck 0)) = r at h
  obtain ⟨e, raw⟩ := r
  cases raw with
  | none => rfl
  | some raw =>
    dsimp only at h ⊢
    split_ifs at h ⊢ with hs
    · rfl
    · rfl

/-- These are all the callbacks that can call back: where none of them does, the step is one of
a world in which no callback does. -/
theorem step_silent (h : ∀ d f, CallsBack cx c t d f → t.env.reenter d.out = none) :
    step cx t.env t.input c = step cx t.env.silent t.input c := by
  cases he : casEntry cx t.env t.input c with
  | some d =>
    have hs : casEntry cx t.env.silent t.input c = some d := he
    rw [step_enters he, step_enters hs]
    exact handleCas_silent fun e cas f hp ha hr hz hf => h _ _ (.init he hp ha hr hz hf)
  | none =>
    obtain ⟨env, i⟩ := t
    cases i with
    | cas => cases he
    | mfTone tone => exact handleMedia_silent rfl h
    | timer id =>
      change expire cx env id c.start = expire cx env.silent id c.start
      simp only [casEntry] at he
      unfold expire
      cases hu : c.start.timer? id with
      | none => rfl
      | some u =>
        simp only [hu] at he
        dsimp only
        cases hc : u.callback with
        | persistenceCheckExpired =>
          rw [if_pos hc] at he
          exact persistenceCheckExpired_silent he
        | _ => rfl
    | api a => cases a <;> rfl
    | alarm on =>
      cases on with
      | true => rfl
      | false => cases he

end Silent

section MediaSilent

variable {cx : R2Context} {env : Env} {c : R2Chan} {m : MediaChan} {t : MediaTick}

theorem hearDigits_silent {digits : List Tone} (h : ∀ us u vs, digits = us ++ u :: vs →
      env.reenter ((keepDtmfDigit u (hearDigits cx env us c)).emit (.onDnisDigitReceived u)).out = none) :
    hearDigits cx env digits c = hearDigits cx env.silent digits c := by
  induction digits using List.reverseRecOn with
  | nil => rfl
  | append_singleton us u ih =>
    have hx : ∀ env, hearDigits cx env (us ++ [u]) c = receiveDtmfDigit cx env u (hearDigits cx env us c) := by
      intro env
      simp only [hearDigits, List.foldl_append, List.foldl_cons, List.foldl_nil]
    have hc := @callback_silent cx _ _ _ (h us u [] rfl)
    have hr : ∀ env d, receiveDtmfDigit cx env u d =
        if env.onDnisDigitReceived (keepDtmfDigit u d).out
          then callback cx env (.onDnisDigitReceived u) (keepDtmfDigit u d)
          else stopDnisCallback (callback cx env (.onDnisDigitReceived u) (keepDtmfDigit u d)) := fun _ _ => rfl
    rw [hx, hx, ← ih fun vs v ws hv => h vs v (ws ++ [u]) (by rw [hv]; simp), hr, hr, hc]
    rfl

theorem onDtmfReports_silent {reports : List (Option (List Tone))}
    (h : ∀ pre report post us u vs, reports = pre ++ some report :: post → cstr report = us ++ u :: vs →
      (onDtmfReports cx env pre m).chan.callDnisCallback = true →
      env.reenter ((keepDtmfDigit u (hearDigits cx env us (onDtmfReports cx env pre m).chan)).emit
        (.onDnisDigitReceived u)).out = none) :
    onDtmfReports cx env reports m = onDtmfReports cx env.silent reports m := by
  induction reports using List.reverseRecOn with
  | nil => rfl
  | append_singleton pre report ih =>
    have hx : ∀ env, onDtmfReports cx env (pre ++ [report]) m =
        onDtmfReceived cx env report (onDtmfReports cx env pre m) := by
      intro env
      simp only [onDtmfReports, List.foldl_append, List.foldl_cons, List.foldl_nil]
    rw [hx, hx, ← ih fun pre' r post us u vs hr => h pre' r (post ++ [report]) us u vs (by rw [hr]; simp)]
    cases report with
    | none => rfl
    | some report =>
      simp only [onDtmfReceived, receiveDtmfDigits]
      split_ifs with hw
      · have hd : hearDigits cx env (cstr report) (onDtmfReports cx env pre m).chan =
            hearDigits cx env.silent (cstr report) (onDtmfReports cx env pre m).chan :=
          hearDigits_silent fun us u vs hu => h pre report [] us u vs rfl hu hw
        exact congrArg (MediaChan.mk · 0) hd
      · rfl

/-- The same of both modes. -/
theorem mediaStep_silent (h : ∀ d f, MediaCallsBack cx m t d f → t.env.reenter d.out = none) :
    (mediaStep cx t.env t.input m).chan = (mediaStep cx t.env.silent t.input m).chan := by
  have hline : ∀ i, m.input? t.input = some i →
      (mediaStep cx t.env t.input m).chan = (mediaStep cx t.env.silent t.input m).chan := by
    intro i hi
    rw [mediaStep_input hi, mediaStep_input hi]
    exact step_silent (t := ⟨t.env, i⟩) fun d f hc => h d f (.line hi hc)
  obtain ⟨env, j⟩ := t
  cases j with
  | cas => exact hline .cas rfl
  | write sent => rfl
  | timer id => exact hline (.timer id) rfl
  | api a => exact hline (.api a) rfl
  | alarm on => exact hline (.alarm on) rfl
  | read x =>
    by_cases ho : m.chan.mfState = .offState
    · have hs : ∀ env, (mediaStep cx env (.read x) m).chan = m.chan.start := fun env => by
        change (handleRead cx env x (m.on R2Chan.start)).chan = _
        rw [handleRead, if_pos (show (m.on R2Chan.start).chan.mfState = .offState from ho)]
        rfl
      exact (hs env).trans (hs env.silent).symm
    by_cases hd : m.chan.detectingDtmf = true
    · have hs : ∀ env, mediaStep cx env (.read x) m = detectDtmf cx env x (m.on R2Chan.start) := by
        intro env
        change handleRead cx env x (m.on R2Chan.start) = _
        rw [handleRead, if_neg (show ¬ (m.on R2Chan.start).chan.mfState = .offState from ho),
          if_pos (show (m.on R2Chan.start).chan.detectingDtmf = true from hd)]
      have hr : onDtmfReports cx env x.dtmfDigits (m.on R2Chan.start) =
          onDtmfReports cx env.silent x.dtmfDigits (m.on R2Chan.start) :=
        onDtmfReports_silent fun pre report post us u vs hp hu hw =>
          h _ _ (.digit rfl ho hd hp hu rfl hw rfl)
      have hx : ∀ env, detectDtmf cx env x (m.on R2Chan.start) =
          let m := onDtmfReports cx env x.dtmfDigits (m.on R2Chan.start)
          if x.dtmfStatus then m else dtmfSilence cx env m := fun _ => rfl
      change (mediaStep cx env (.read x) m).chan = (mediaStep cx env.silent (.read x) m).chan
      rw [hs, hs, hx, hx, ← hr]
      rfl
    · cases hm : x.mfTone with
      | some tone => exact hline (.mfTone tone) (by simp [MediaChan.input?, hd, hm])
      | none =>
        have hs : ∀ env, mediaStep cx env (.read x) m = m.on R2Chan.start := by
          intro env
          change handleRead cx env x (m.on R2Chan.start) = _
          rw [handleRead, if_neg (show ¬ (m.on R2Chan.start).chan.mfState = .offState from ho),
            if_neg (show ¬ (m.on R2Chan.start).chan.detectingDtmf = true from hd), hm]
        exact congrArg MediaChan.chan ((hs env).trans (hs env.silent).symm)

end MediaSilent

end OpenR2
