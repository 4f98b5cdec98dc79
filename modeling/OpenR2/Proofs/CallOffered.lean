import OpenR2.Proofs.Dialogue
import OpenR2.Proofs.DnisCursor
import OpenR2.Proofs.Posts
import OpenR2.Proofs.Reset

namespace OpenR2

open Link

/-- A channel on which a call can be placed or come in, the last one forgotten. -/
structure R2Chan.Forgot (c : R2Chan) : Prop where
  wire : c.start.wire = .rest
  mfState : c.mfState = .offState
  writeTone : c.mfWriteTone = 0
  readTone : c.mfReadTone = 0
  unsent : c.categorySent = false
  dnisLen : c.dnisLen = 0
  dnis : ∃ tail, c.dnis = 0 :: tail
  dnisSize : c.dnis.length = maxDnisBuffer
  aniLen : c.aniLen = 0
  ani : ∃ tail, c.ani = 0 :: tail
  aniSize : c.ani.length = maxAniBuffer
  category : c.callerCategory = Tone.invalid
  restricted : c.callerAniIsRestricted = false

theorem set_first {xs : List Tone} {n : Nat} (h : xs.length = n) (hn : 0 < n) :
    (∃ tail, xs.set 0 0 = 0 :: tail) ∧ (xs.set 0 0).length = n := by
  cases xs with
  | nil => exact absurd h hn.ne
  | cons x tail => exact ⟨⟨tail, rfl⟩, h⟩

/-- A channel that is set idle on an idle line has forgotten all. -/
theorem setIdle_forgot (cx : R2Context) (env : Env) {c : R2Chan} (hr : c.casRead = 0x8) (ha : c.inalarm = false)
    (hk : c.casPersistenceCheckSignal = none) (hdnis : c.dnis.length = maxDnisBuffer)
    (hani : c.ani.length = maxAniBuffer) : (setIdle cx env c).1.Forgot := by
  obtain ⟨⟨rx, r, w, x, y, hf⟩, -⟩ := protoInit_reset cx c
  have hs : (setIdle cx env c).1 = ((protoInit cx c).setCasTx (cx.casSignals .idle) .idle).did
      (.setCas (cx.casSignals .idle ||| cx.casNonr2Bits)) := rfl
  have hwire : (setIdle cx env c).1.start.wire = ⟨.stopped, .idle, .idle, c.casRead, c.inalarm,
      c.casPersistenceCheckSignal, [], []⟩ := by
    rw [hs, hf]
    rfl
  obtain ⟨hd, hdlen⟩ := set_first hdnis (by decide)
  obtain ⟨hi, hilen⟩ := set_first hani (by decide)
  refine ⟨?_, ?_, ?_, ?_, ?_, ?_, ?_, ?_, ?_, ?_, ?_, ?_, ?_⟩
  · rw [hwire, hr, ha, hk]
    rfl
  all_goals rw [hs, hf]
  all_goals first | exact hd | exact hdlen | exact hi | exact hilen | rfl

/-- The caller has seized the line, and holds what it has to say. -/
structure R2Chan.Placing (c : R2Chan) (k : Dialled) : Prop where
  wire : c.start.wire = .at .forward .dialing .seizeTxd 0x8
  mfState : c.mfState = .offState
  writeTone : c.mfWriteTone = 0
  readTone : c.mfReadTone = 0
  unsent : c.categorySent = false
  dnis : ∃ tail, c.dnis = k.dnis ++ 0 :: tail
  index : c.dnisIndex = 0
  ani : ∀ a ∈ k.ani, ∃ tail, c.ani = a ++ 0 :: tail
  aniPtr : c.aniPtr = k.ani.map fun _ => 0
  restricted : c.callerAniIsRestricted = k.restricted
  category : c.callerCategory = k.category

/-- What a user asks for. -/
def dialled (cx : R2Context) (ani : Option (List Tone)) (dnis : List Tone) (category : Category)
    (restricted : Bool) : Dialled := ⟨dnis, ani, restricted, category2tone cx category⟩

/-- The first word. -/
def Dialled.first (k : Dialled) : Talk := Talk.askDnis k ⟨.dnis, 0, 0, false, false⟩

theorem Dialled.first_word (k : Dialled) : k.first.word = .dnis ∨ k.first.word = .dnisEnd := by
  simp only [Dialled.first, Talk.askDnis]
  split_ifs
  · exact .inl rfl
  · exact .inr rfl

theorem Dialled.first_left (k : Dialled) : k.first.left k ≤ k.dnis.length + k.aniDigits.length + 6 := by
  have hn : ¬ k.first.named = true := (by rintro ⟨⟩)
  rcases k.first_word with hw | hw <;> simp only [Talk.left, hw, if_neg hn] <;> omega

section Seizing

variable {cx : R2Context} {env : Env} {k : Dialled} {c : R2Chan}

theorem strncpy80_number {xs : List Tone} (hx : ∀ x ∈ xs, x.isDigit = true) (hlen : xs.length < 80) :
    cstr xs = xs ∧ ∃ tail, strncpy80 xs = xs ++ 0 :: tail := by
  have h0 : ∀ x ∈ xs, decide (x ≠ 0) = true := by
    intro x hmem
    refine decide_eq_true fun hz => ?_
    have hd := hx x hmem
    rw [hz] at hd
    exact absurd hd (by decide)
  have hc : cstr xs = xs := List.takeWhile_eq_self_iff.mpr h0
  refine ⟨hc, List.replicate (79 - xs.length) 0, ?_⟩
  have hn : 80 - xs.length = (79 - xs.length) + 1 := by omega
  rw [strncpy80, hc, List.take_of_length_le (by omega), hn, List.replicate_succ]

/-- Numbers that can be sent are kept whole. -/
theorem keepNumbers_digits {ani : Option (List Tone)} {dnis : List Tone} (category : Category) (restricted : Bool)
    (ha : ∀ a ∈ ani, ∀ x ∈ a, x.isDigit = true) (hd : ∀ x ∈ dnis, x.isDigit = true) (c : R2Chan) :
    keepNumbers cx ani dnis category restricted c =
      { c with
        ani := (ani.map strncpy80).getD (c.ani.set 0 0)
        callerAniIsRestricted := restricted
        aniPtr := ani.map fun _ => 0
        dnis := strncpy80 dnis
        dnisIndex := 0
        callerCategory := category2tone cx category } := by
  have hall : ∀ xs : List Tone, (∀ x ∈ xs, x.isDigit = true) → (cstr xs).all Tone.isDigit = true :=
    fun xs hx => List.all_eq_true.mpr fun x hm => hx x ((List.takeWhile_sublist _).mem hm)
  cases ani with
  | none => simp only [keepNumbers, hall dnis hd, if_true, Option.filter, Option.map_none, Option.getD_none]
  | some a =>
    simp only [keepNumbers, hall dnis hd, hall a (ha a rfl), if_true, Option.filter, Option.map_some,
      Option.getD_some]

/-- A line is seized for a call. -/
theorem makeCall_seizes (hp : cx.Plain) (he : env.Sound) {ani : Option (List Tone)} {dnis : List Tone}
    {category : Category} {restricted : Bool} (hs : (dialled cx ani dnis category restricted).Sayable cx)
    (h : c.Forgot) :
    let d := step cx env (.api (.makeCall ani dnis category restricted)) c
    d.Placing (dialled cx ani dnis category restricted) ∧ c.start.Emits d [.bits (cx.pattern .seize)] [] := by
  intro d
  have hw := h.wire
  have hoff : c.inalarm = false := congrArg Wire.inalarm hw
  have hi : ¬ c.start.inalarm = true := Bool.eq_false_iff.mp hoff
  have hc : ¬ c.start.callState ≠ .idle := not_not.mpr (congrArg Wire.callState hw)
  have hr : ¬ c.start.casRead ≠ cx.casSignals .idle := by
    rw [hp.signals]
    exact not_not.mpr (congrArg Wire.casRead hw)
  have hdnis : ∀ x ∈ dnis, x.isDigit = true := hs.dnis
  have hani : ∀ a ∈ ani, ∀ x ∈ a, x.isDigit = true := by
    rintro a rfl
    exact hs.ani
  obtain ⟨q, hq⟩ := armTimer_sound he .r2Seize cx.timers.r2Seize .seizeTimeoutExpired
    (((c.start.setCasTx (cx.casSignals .seize) .seize).did
      (.setCas (cx.casSignals .seize ||| cx.casNonr2Bits))).setR2State .seizeTxd)
  have hgo : d = { c.start with
      casWrite := cx.casSignals .seize
      casTxSignal := .seize
      r2State := .seizeTxd
      timers := q
      ani := (ani.map strncpy80).getD (c.ani.set 0 0)
      callerAniIsRestricted := restricted
      aniPtr := ani.map fun _ => 0
      dnis := strncpy80 dnis
      dnisIndex := 0
      callerCategory := category2tone cx category
      callState := .dialing
      direction := .forward
      mfGroup := .fwdInit
      out := [.setCas (cx.pattern .seize), .gettimeofday, .callState .dialing] } := by
    change (makeCall cx env ani dnis category restricted c.start).1 = _
    have hkeep := @keepNumbers_digits cx _ _ category restricted hani hdnis
    simp only [makeCall, hi, hc, hr, if_false, setCasSignal, reduceCtorEq, he.setCas, if_true, ne_eq,
      not_true_eq_false, placeCall, hp.mfc.dial, Bool.false_eq_true, hq, hkeep]
    simp only [R2Chan.did, R2Chan.setCallState, R2Chan.setMfGroup, R2Chan.setR2State, R2Chan.setDirection,
      R2Chan.setCasTx, R2Chan.start, List.cons_append, List.nil_append]
    rw [hoff]
    rfl
  rw [hgo]
  refine ⟨⟨?_, h.mfState, h.writeTone, h.readTone, h.unsent, (strncpy80_number hs.dnis hs.dnisFits).2, rfl, ?_, rfl,
    rfl, rfl⟩, ⟨_, rfl, rfl, rfl⟩⟩
  · exact congrArg (fun w : Wire => { w with direction := .forward, callState := .dialing, r2State := .seizeTxd }) hw
  · rintro a rfl
    exact (strncpy80_number hs.ani hs.aniFits).2

/-- On an idle line another pattern is new. -/
theorem step_cas_first (hp : cx.Plain) {sig : CasSignal} (he : env.Shows (cx.pattern sig)) {w : Wire}
    (hw : c.start.wire = w) (hc : w.Calm) (hr : w.casRead ≠ standardCasSignals sig) :
    step cx env .cas c = casSwitch cx env (standardCasSignals sig) { c with
      casRawRead := cx.pattern sig
      casRead := standardCasSignals sig
      out := [.getCas] } := by
  subst hw
  exact step_cas_new hp he hc hr

theorem casSwitch_seize (hp : cx.Plain) (hr : c.r2State = .idle) :
    casSwitch cx env (standardCasSignals .seize) c = handleIncomingCall cx env (c.logRx .seize) := by
  simp only [casSwitch, hr, casIdle, hp.signals]
  rfl

/-- With receivers at hand an incoming call is acknowledged. -/
theorem handleIncomingCall_acks (hm : cx.Mfc) (hack : cx.autoSeizeAck = true) (he : env.Sound) (c : R2Chan) :
    ∃ w r, handleIncomingCall cx env c = { c with
      mfWriteHandle := some w
      mfReadHandle := some r
      mfState := .seizeAckTxd
      mfGroup := .backInit
      r2State := .seizeAckTxd
      callState := .collecting
      direction := .backward
      casWrite := cx.casSignals .seizeAck
      casTxSignal := .seizeAck
      out := c.out ++ [.mfWriteInit c.mfWriteHandle false, .mfReadInit c.mfReadHandle true, .callState .collecting,
        .event .onCallInit, .setCas (cx.pattern .seizeAck)] } := by
  obtain ⟨w, hw⟩ := Option.isSome_iff_exists.mp (he.writeInit c.out)
  obtain ⟨r, hr⟩ := Option.isSome_iff_exists.mp (he.readInit (c.did (.mfWriteInit c.mfWriteHandle false)).out)
  refine ⟨w, r, ?_⟩
  simp only [handleIncomingCall, hm.detect, Bool.false_eq_true, if_false, hw, hr, incomingCall, callback, he.quiet _, hack,
    if_true,
    ackCall, setCasSignal, reduceCtorEq, he.setCas, ne_eq, not_true_eq_false]
  simp only [R2Chan.did, R2Chan.emit, R2Chan.setCallState, R2Chan.setMfHandles, R2Chan.setMfState,
    R2Chan.setMfGroup, R2Chan.setR2State, R2Chan.setDirection, R2Chan.setCasTx, List.append_assoc, List.cons_append,
    List.nil_append]
  rfl

/-- The called side is seized, and acknowledges. -/
theorem step_seized (hp : cx.Plain) (hack : cx.autoSeizeAck = true) (he : env.Shows (cx.pattern .seize))
    (h : c.Forgot) :
    let d := step cx env .cas c
    d.Awaits cx k k.first ∧ d.mfWriteTone = 0 ∧ d.mfReadTone = 0 ∧
      c.start.Emits d [.bits (cx.pattern .seizeAck)] [.onCallInit] := by
  intro d
  set e : R2Chan := { c with
    casRawRead := cx.pattern .seize
    casRead := standardCasSignals .seize
    out := [.getCas] } with hedef
  have hstate : e.r2State = .idle := congrArg Wire.r2State h.wire
  obtain ⟨w, r, hgo⟩ := handleIncomingCall_acks hp.mfc hack he.sound (e.logRx .seize)
  have hd : d = _ := (step_cas_first hp he h.wire ⟨rfl, rfl⟩ (by decide)).trans ((casSwitch_seize hp hstate).trans hgo)
  simp only [hedef, R2Chan.logRx, List.nil_append, List.cons_append] at hd
  clear_value d
  subst hd
  have hgroup : MfGroup.backInit = k.first.calledGroup cx := by
    rcases k.first_word with hw | hw <;> simp only [Talk.calledGroup, hw] <;> rfl
  have hms : MfState.seizeAckTxd = k.first.calledState := by
    rcases k.first_word with hw | hw <;> simp only [Talk.calledState, hw] <;> rfl
  exact ⟨⟨⟨rfl, rfl, h.dnisLen, h.dnis, h.dnisSize, h.aniLen, h.ani, h.aniSize, h.category, h.restricted⟩, hgroup,
    hms⟩, h.writeTone, h.readTone, ⟨_, rfl, rfl, rfl⟩⟩

theorem Dialled.first_fits (hs : k.Sayable cx) : k.first.Fits cx k := by
  simp only [Dialled.first, Talk.askDnis]
  split_ifs with h0
  · exact .first 0 (by simp only [Dialled.taken, Dialled.dnisRoom]; omega) fun _ => rfl
  · have hnil : k.dnis.length = 0 := by omega
    have hfits : Talk.Fits cx k _ := .dnisEnd (by rw [hnil, Dialled.dnisRoom]; omega)
      (Bool.eq_false_iff.mpr fun ha => (hs.inOrder ha).1 (List.length_eq_zero_iff.mp hnil))
    rwa [hnil] at hfits

theorem casSwitch_seizeAck (hp : cx.Plain) (hr : c.r2State = .seizeTxd) :
    casSwitch cx env (standardCasSignals .seizeAck) c = (mfSendDnisDigit cx env { c with
      casRxSignal := .seizeAck
      r2State := .seizeAckRxd
      mfGroup := .gi
      timers := c.timers.cancelTimer .r2Seize
      out := c.out ++ [.mfWriteInit c.mfWriteHandle true, .mfReadInit c.mfReadHandle false] }).emit .onCallProceed := by
  have hr' : ¬ c.r2State = .seizeTxdClearFwdPending := by
    rw [hr]
    rintro ⟨⟩
  simp only [casSwitch, hr, casSeizeTxd, hp.signals, if_true, seizeAcknowledged, hp.mfc.dial, Bool.false_eq_true,
    if_false, mfSendDnis, R2Chan.logRx, R2Chan.cancelTimer, R2Chan.mapTimers, R2Chan.setR2State, R2Chan.setMfGroup,
    R2Chan.did, reduceCtorEq, or_self, List.append_assoc, List.cons_append, List.nil_append]

/-- The caller is acknowledged, and says the first word. -/
theorem step_acknowledged (hp : cx.Plain) (hs : k.Sayable cx) (he : env.Shows (cx.pattern .seizeAck))
    (h : c.Placing k) :
    let d := step cx env .cas c
    d.Says cx k k.first ∧ d.mfWriteTone = k.first.tone cx k ∧ d.mfReadTone = 0 ∧
      c.start.Emits d [.tone (k.first.tone cx k)] [.onCallProceed] := by
  intro d
  have hstate : c.r2State = .seizeTxd := congrArg Wire.r2State h.wire
  have hdir : c.direction = .forward := congrArg Wire.direction h.wire
  have hd : d = _ := (step_cas_first hp he h.wire ⟨rfl, rfl⟩ (by decide)).trans (casSwitch_seizeAck hp hstate)
  simp only [List.nil_append, List.cons_append] at hd
  set e : R2Chan := { c with
    casRawRead := cx.pattern .seizeAck
    casRead := standardCasSignals .seizeAck
    casRxSignal := .seizeAck
    r2State := .seizeAckRxd
    mfGroup := .gi
    timers := c.timers.cancelTimer .r2Seize
    out := [.getCas, .mfWriteInit c.mfWriteHandle true, .mfReadInit c.mfReadHandle false] } with hedef
  have hcarries : e.Carries k := ⟨hdir, rfl, h.dnis, h.ani, h.restricted, h.category⟩
  have hstate : e.mfState ≠ .dnisEndTxd ∧ e.mfState ≠ .waitingTimeout := by
    rw [show e.mfState = .offState from h.mfState]
    exact ⟨by rintro ⟨⟩, by rintro ⟨⟩⟩
  have hfits := Dialled.first_fits hs
  have h0 := hfits.tone_ne_zero hs
  obtain ⟨hspeaks, htone, hem⟩ := dnisWord_tells he.sound hs hfits k.first_word hcarries h.index h.aniPtr rfl hstate
    (fun _ => h.unsent) h.writeTone
  have hquiet : ((e.did (.readDnis k.first.taken)).setMfState k.first.callerState).mfWriteTone = 0 := h.writeTone
  have hindex : e.dnisIndex = k.first.taken := h.index
  have hread : (mfSendDnisDigit cx env e).mfReadTone = 0 := by
    rw [mfSendDnisDigit_word hs hfits k.first_word hcarries.dnis hindex hstate]
    obtain ⟨⟨q, hf⟩, -⟩ : R2Chan.Plays _ (prepareMfTone cx env _ _) _ :=
      prepareMfTone_plays he.sound h0 hquiet
    rw [hf]
    exact h.readTone
  rw [hd]
  refine ⟨hspeaks.congr rfl, htone, hread, ?_⟩
  obtain ⟨as, ho, hsent, htold⟩ := hem
  refine ⟨[.getCas, .mfWriteInit c.mfWriteHandle true, .mfReadInit c.mfReadHandle false] ++ as ++
    [.event .onCallProceed], ?_, ?_, ?_⟩
  · exact congrArg (· ++ [Act.event .onCallProceed]) ho
  · simp only [List.filterMap_append, hsent]
    rfl
  · simp only [List.filterMap_append, htold]
    rfl

end Seizing

theorem R2Context.Legible.congr {cx d : R2Context} (h : d.Legible) (ht : cx.mfThreshold = d.mfThreshold)
    (ha : cx.aniCanComeFirst = d.aniCanComeFirst) (hf : cx.forceUseMaxAni = d.forceUseMaxAni)
    (hga : cx.gaTones = d.gaTones) (hgc : cx.gcTones = d.gcTones) (hg1 : cx.g1Tones = d.g1Tones) : cx.Legible := by
  cases cx
  cases d
  dsimp only at ht ha hf hga hgc hg1
  subst ht ha hf hga hgc hg1
  exact ⟨h.threshold, h.aniLater, h.aniFree, h.dnisEnd, h.aniEnd, h.withheld, h.askDnis, h.askCategory,
    h.askGroupTwo, h.groupA, h.groupC⟩

theorem VariantEntry.legible {e : VariantEntry} (he : e ∈ r2variants) (hv : e.id ≠ .china) :
    e.tables.Legible := by
  simp only [r2variants, List.mem_cons, List.not_mem_nil, or_false] at he
  rcases he with rfl | rfl | rfl | rfl | rfl | rfl | rfl | rfl | rfl | rfl
  all_goals first
    | exact absurd rfl hv
    | exact ⟨rfl, rfl, rfl, rfl, rfl, rfl, by decide, by decide, by decide, by decide, by decide⟩

/-- Only the tables of China are not such: there the ANI can come first. -/
theorem Configured.legible {cx : R2Context} (h : Configured cx) (hv : cx.variant ≠ .china) : cx.Legible := by
  induction h with
  | new variant a d cx h =>
    obtain ⟨e, he, hid, rfl⟩ := contextNew_some h
    have hlegible := VariantEntry.legible he
    simp only [r2variants, List.mem_cons, List.not_mem_nil, or_false] at he
    rcases he with rfl | rfl | rfl | rfl | rfl | rfl | rfl | rfl | rfl | rfl
    all_goals first
      | exact absurd hid.symm hv
      | exact (hlegible (by rintro ⟨⟩)).congr rfl rfl rfl rfl rfl rfl
  | _ v cx _ ih => exact (ih hv).congr rfl rfl rfl rfl rfl rfl

theorem briefCx_legible : briefCx.Legible where
  threshold := rfl
  aniLater := rfl
  aniFree := rfl
  dnisEnd := rfl
  aniEnd := rfl
  withheld := rfl
  askDnis := by decide
  askCategory := by decide
  askGroupTwo := by decide
  groupA := by decide
  groupC := by decide

namespace Trunk

/-- Two channels with nothing on the line between them. -/
def between (caller callee : R2Chan) : Trunk where
  party := fun i => match i with
    | .left => caller
    | .right => callee
  inbox := fun _ => []
  did := fun _ => []

section Run

variable (cx : R2Context) (k : Dialled)

/-- Where a call is from the seize to its offer, and how many signals are to come at most. -/
inductive Calling : Nat → Trunk → Prop where
  | seized (c d : R2Chan) (s : Trunk) (hc : c.Placing k) (hd : d.Forgot)
      (h : s.Turn .right d c (.bits (cx.pattern .seize)) [] []) : Calling (4 * k.first.left k + 5) s
  | acknowledged (c d : R2Chan) (s : Trunk) (hc : c.Placing k) (hd : d.Awaits cx k k.first)
      (hdw : d.mfWriteTone = 0) (hdr : d.mfReadTone = 0)
      (h : s.Turn .left c d (.bits (cx.pattern .seizeAck)) [] [.onCallInit]) :
      Calling (4 * k.first.left k + 4) s
  | talking (n : Nat) (s : Trunk) (h : Talking cx k n s) : Calling n s

end Run

section Steps

variable {cx : R2Context} {env : Env} {k : Dialled} {s s' : Trunk} {n : Nat}

theorem Calling.can_step (h : Calling cx k n s) : ∃ s', s.Step cx s' := by
  cases h with
  | seized c d s hc hd h => exact h.can_step
  | acknowledged c d s hc hd hdw hdr h => exact h.can_step
  | talking n s h => exact h.can_step

theorem first_told : k.first.told cx k = [] := by
  simp [Talk.told, Dialled.first, Talk.askDnis]

/-- Each signal brings a call nearer to its offer. -/
theorem Calling.step (hp : cx.Plain) (hl : cx.Legible) (hack : cx.autoSeizeAck = true) (hs : k.Sayable cx)
    (h : Calling cx k n s) (hstep : s.Step cx s') : s'.Offered cx k ∨ ∃ m < n, Calling cx k m s' := by
  cases h with
  | seized c d s hc hd h =>
    obtain ⟨env, he, hshown, rfl⟩ := h.step hstep
    obtain ⟨hd', hw, hr, hem⟩ := step_seized (k := k) hp hack ⟨he.toSound, hshown⟩ hd
    exact .inr ⟨_, Nat.lt_succ_self _, .acknowledged c _ _ hc hd' hw hr (h.next hem)⟩
  | acknowledged c d s hc hd hdw hdr h =>
    obtain ⟨env, he, hshown, rfl⟩ := h.step hstep
    obtain ⟨hc', hw, hr, hem⟩ := step_acknowledged hp hs ⟨he.toSound, hshown⟩ hc
    refine .inr ⟨_, Nat.lt_succ_self _, .talking _ _
      (.saying k.first _ d _ (Dialled.first_fits hs) hc' hw hr hd hdw hdr ?_)⟩
    rw [first_told]
    exact h.next hem
  | talking n s h =>
    rcases h.step hl hs hstep with ho | ⟨m, hm, h⟩
    · exact .inl ho
    · exact .inr ⟨m, hm, .talking m _ h⟩

end Steps

variable {cx : R2Context} {env : Env} {caller callee : R2Chan}

/-- Whatever is dialled with tones that there are is offered on the other side, whole, with the
category and what is to be known of the caller, after no more than so many signals. -/
theorem call_offered (hp : cx.Plain) (hl : cx.Legible) (hack : cx.autoSeizeAck = true) (he : env.Sound)
    (hc : caller.Forgot) (hd : callee.Forgot) {ani : Option (List Tone)} {dnis : List Tone}
    {category : Category} {restricted : Bool} (hs : (dialled cx ani dnis category restricted).Sayable cx) :
    let k := dialled cx ani dnis category restricted
    Within (Step cx) (Offered cx k) (4 * (dnis.length + k.aniDigits.length) + 30)
      (input cx .left ⟨env, .api (.makeCall ani dnis category restricted)⟩ (between caller callee)) := by
  intro k
  obtain ⟨hplace, as, ho, hsent, htold⟩ := makeCall_seizes hp he hs hc
  have ho : (step cx env (.api (.makeCall ani dnis category restricted)) caller).out = as := ho
  have hturn : (input cx .left ⟨env, .api (.makeCall ani dnis category restricted)⟩ (between caller callee)).Turn
      .right callee (step cx env (.api (.makeCall ani dnis category restricted)) caller)
      (.bits (cx.pattern .seize)) [] [] := by
    refine ⟨rfl, rfl, ?_, rfl, rfl, ?_⟩
    · exact (congrArg (List.filterMap Act.signal?) ho).trans hsent
    · exact (congrArg (List.filterMap Act.event?) ho).trans htold
  have hrun : Within (Step cx) (Offered cx k) (4 * k.first.left k + 5 + 1) _ :=
    @Within.of_decrease _ (Step cx) _ (Calling cx k) (fun n s t h ht => h.step hp hl hack hs ht)
      (fun n s h => h.can_step) _ _ (.seized _ _ _ hplace hd hturn)
  refine hrun.mono ?_
  have hleft : k.first.left k ≤ dnis.length + k.aniDigits.length + 6 := k.first_left
  omega

/-- A call of two digits to a side that wants up to three, and the ANI, between two channels
that were set idle. -/
theorem call_offered_brief :
    let cx := setMaxAni 4 (setMaxDnis 3 briefCx)
    let k := dialled cx (some [Tone.t7]) [Tone.t5, Tone.t6] .nationalSubscriber false
    let c := (setIdle cx (Env.fair 0x9) (briefCaller 1)).1
    Within (Step cx) (Offered cx k) 42
      (input cx .left ⟨Env.fair 0, .api (.makeCall (some [Tone.t7]) [Tone.t5, Tone.t6] .nationalSubscriber false)⟩
        (between c c)) := by
  intro cx k c
  have hc : c.Forgot := setIdle_forgot cx (Env.fair 0x9) rfl rfl rfl rfl rfl
  have hp : cx.Plain := ⟨⟨rfl, rfl⟩, rfl, rfl, .inl rfl, rfl, rfl, rfl⟩
  have hl : cx.Legible := briefCx_legible.congr rfl rfl rfl rfl rfl rfl
  have hs : k.Sayable cx :=
    ⟨by decide, by decide, by decide, by decide, by decide, by decide, by decide, by rintro ⟨⟩⟩
  exact call_offered hp hl rfl (Env.fair_sound 0) hc hc hs

end Trunk

end OpenR2
