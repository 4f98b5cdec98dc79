import OpenR2.Lib.Handles
import OpenR2.Proofs.Sides

namespace OpenR2

open Handles (Use Ledger account account_of_none account_of_some account_append_of_none
  account_append_valid)

/-- What an act does with the handle of the tone generator. `h` is what was done before it. -/
def Act.writeUse (env : Env) (h : List Act) : Act → Option (Use Nat)
  | .mfWriteInit given _ => some (.init given (env.mfWriteInit h))
  | .mfWriteDispose x => some (.dispose x)
  | .mfSelectTone x _ => some (.use x)
  | _ => none

/-- What an act does with the handle of the tone detector. -/
def Act.readUse (env : Env) (h : List Act) : Act → Option (Use Nat)
  | .mfReadInit given _ => some (.init given (env.mfReadInit h))
  | .mfReadDispose x => some (.dispose x)
  | _ => none

/-- The handles of the MF engine, as the user's MF interface knows them. -/
structure Books where
  write : Ledger Nat
  read : Ledger Nat

namespace Books

def opened : Books := ⟨.opened, .opened⟩

def after (keeps : Bool) (env : Env) (as : List Act) (b : Books) : Books where
  write := account (Act.writeUse env) keeps b.write as
  read := account (Act.readUse env) keeps b.read as

end Books

/-- A run of which the user's MF interface keeps books. -/
def bookedTick (cx : R2Context) (keeps : Bool) (s : R2Chan × Books) (t : Tick) :
    (R2Chan × Books) × List Act :=
  let r := tick cx s.1 t
  ((r.1, s.2.after keeps t.env r.2), r.2)

/-- Both handles can be used. -/
structure R2Chan.Equips (b : Books) (c : R2Chan) : Prop where
  write : b.write.Usable c.mfWriteHandle
  read : b.read.Usable c.mfReadHandle

/-- The MF engine can be used whenever it is on, and no handle is used after its end. The
detector and the generator are called with the handles that the channel has between two steps. -/
structure R2Chan.EngineUsable (b : Books) (c : R2Chan) : Prop where
  on : c.mfState ≠ .offState → c.Equips b
  write : b.write.Safe c.mfWriteHandle
  read : b.read.Safe c.mfReadHandle

/-- The user calls nothing that ends the call. `h` is what was done before. -/
def ApiCall.Harmless (env : Env) (h : List Act) : ApiCall → Prop
  | .disconnectCall _ | .setIdle | .setBlocked => False
  | .ackCall => env.setCas h = true
  | .acceptCall _ => env.mfSelectTone h = true ∧ env.mfSelectTone (h ++ [.flushWriteBuffers]) = true
  | .makeCall .. | .answerCall | .answerCallWithMode _ => True

/-- The MF interface disposes of no handles. -/
def R2Context.DisposesNone (cx : R2Context) : Prop := cx.mfReadDispose = false ∧ cx.mfWriteDispose = false

/-- Where handles are disposed of, no call is ended while one of its digits is reported. -/
def DigitsHarmless (cx : R2Context) (env : Env) : Prop :=
  cx.DisposesNone ∨ ∀ h (e : Event) a, e.OfDigit → env.reenter (h ++ [.event e]) = some a →
    a.Harmless env (h ++ [.event e])

/-- Both initialisations of an outgoing call succeed, with the handles that the channel has. -/
structure R2Chan.Renews (keeps : Bool) (env : Env) (c : R2Chan) : Prop where
  write : ∀ h, Ledger.Renews keeps c.mfWriteHandle (env.mfWriteInit h)
  read : ∀ h, Ledger.Renews keeps c.mfReadHandle (env.mfReadInit h)

/-- The step takes up the acknowledgement of a seize, with which the tones start. -/
def TakesUpAck (cx : R2Context) (c : R2Chan) (t : Tick) : Prop :=
  c.r2State = .seizeTxd ∧ (∀ on, t.input ≠ .alarm on) ∧
    switched cx t.env t.input c = some (cx.casSignals .seizeAck)

/-- What the channel is asked to do about its engine can be done. -/
structure Careful (cx : R2Context) (keeps : Bool) (c : R2Chan) (t : Tick) : Prop where
  ack : TakesUpAck cx c t → c.Renews keeps t.env
  digits : DigitsHarmless cx t.env

/-- Acts that have nothing to do with the handles. -/
def Act.Apart : Act → Prop
  | .mfWriteInit .. | .mfReadInit .. | .mfWriteDispose _ | .mfReadDispose _ | .mfSelectTone .. => False
  | _ => True

/-- A call that is still to be accepted or refused comes in, and is not answered. -/
def R2Chan.Called (c : R2Chan) : Prop := c.callState = .collecting ∨ c.callState = .offered →
  c.direction = .backward ∧ ¬ c.r2State.Forward ∧ ¬ c.r2State.Answering

/-- No handle is used after its end. `b` are the books before the step. -/
structure R2Chan.HandlesSafe (keeps : Bool) (env : Env) (b : Books) (c : R2Chan) : Prop where
  write : (b.after keeps env c.out).write.Safe c.mfWriteHandle
  read : (b.after keeps env c.out).read.Safe c.mfReadHandle

/-- What is known of the handles at each moment of a step. -/
structure R2Chan.Stocked (keeps : Bool) (env : Env) (b : Books) (c : R2Chan) : Prop where
  engine : c.mfState ≠ .offState ∨ c.callState = .offered → c.Equips (b.after keeps env c.out)
  safe : c.HandlesSafe keeps env b
  called : c.Called
  undialled : .startDialingDtmf ∉ c.pending

section Stocked

variable {cx : R2Context} {env : Env} {keeps : Bool} {b : Books} {c d : R2Chan}

theorem Act.Apart.writeUse {a : Act} (h : a.Apart) (as : List Act) : a.writeUse env as = none := by
  cases a <;> first | rfl | exact h.elim

theorem Act.Apart.readUse {a : Act} (h : a.Apart) (as : List Act) : a.readUse env as = none := by
  cases a <;> first | rfl | exact h.elim

theorem Act.Plain.apart {a : Act} (h : a.Plain) : a.Apart := by
  cases a <;> trivial

theorem Books.after_apart (as bs : List Act) (h : ∀ a ∈ bs, a.Apart) :
    b.after keeps env (as ++ bs) = b.after keeps env as := by
  simp only [Books.after]
  rw [account_append_of_none as bs fun cs a ha => (h a ha).writeUse cs,
    account_append_of_none as bs fun cs a ha => (h a ha).readUse cs]

namespace R2Chan

/-- The handles stay, and the engine is not turned on. -/
structure LeavesHandles (c d : R2Chan) : Prop where
  write : d.mfWriteHandle = c.mfWriteHandle
  read : d.mfReadHandle = c.mfReadHandle
  out : ∃ as, d.out = c.out ++ as ∧ ∀ a ∈ as, a.Apart

theorem LeavesHandles.same (hw : d.mfWriteHandle = c.mfWriteHandle) (hr : d.mfReadHandle = c.mfReadHandle)
    (ho : d.out = c.out) : c.LeavesHandles d := ⟨hw, hr, [], by rw [ho, List.append_nil], by simp⟩

theorem LeavesHandles.did (c : R2Chan) {a : Act} (ha : a.Apart) : c.LeavesHandles (c.did a) :=
  ⟨rfl, rfl, [a], rfl, by simpa using ha⟩

theorem LeavesHandles.equips (h : c.LeavesHandles d) (he : c.Equips (b.after keeps env c.out)) :
    d.Equips (b.after keeps env d.out) := by
  obtain ⟨as, ho, ha⟩ := h.out
  rw [ho, Books.after_apart c.out as ha]
  exact ⟨h.write ▸ he.write, h.read ▸ he.read⟩

theorem HandlesSafe.leave (h : c.HandlesSafe keeps env b) (hl : c.LeavesHandles d) :
    d.HandlesSafe keeps env b := by
  obtain ⟨as, ho, ha⟩ := hl.out
  refine ⟨?_, ?_⟩
  · rw [ho, Books.after_apart c.out as ha, hl.write]
    exact h.write
  · rw [ho, Books.after_apart c.out as ha, hl.read]
    exact h.read

theorem after_disposeRead (as : List Act) (x : Option Nat) :
    b.after keeps env (as ++ [.mfReadDispose x]) =
      ⟨(b.after keeps env as).write, (b.after keeps env as).read.record keeps (.dispose x)⟩ := by
  simp only [Books.after]
  rw [account_of_none rfl, account_of_some rfl]

theorem after_disposeWrite (as : List Act) (x : Option Nat) :
    b.after keeps env (as ++ [.mfWriteDispose x]) =
      ⟨(b.after keeps env as).write.record keeps (.dispose x), (b.after keeps env as).read⟩ := by
  simp only [Books.after]
  rw [account_of_some rfl, account_of_none rfl]

theorem after_select (as : List Act) (x : Option Nat) (tone : Tone) :
    b.after keeps env (as ++ [.mfSelectTone x tone]) =
      ⟨(b.after keeps env as).write.record keeps (.use x), (b.after keeps env as).read⟩ := by
  simp only [Books.after]
  rw [account_of_some rfl, account_of_none rfl]

theorem after_writeInit (as : List Act) (x : Option Nat) (fwd : Bool) :
    b.after keeps env (as ++ [.mfWriteInit x fwd]) =
      ⟨(b.after keeps env as).write.record keeps (.init x (env.mfWriteInit as)),
        (b.after keeps env as).read⟩ := by
  simp only [Books.after]
  rw [account_of_some rfl, account_of_none rfl]

theorem after_readInit (as : List Act) (x : Option Nat) (fwd : Bool) :
    b.after keeps env (as ++ [.mfReadInit x fwd]) =
      ⟨(b.after keeps env as).write,
        (b.after keeps env as).read.record keeps (.init x (env.mfReadInit as))⟩ := by
  simp only [Books.after]
  rw [account_of_none rfl, account_of_some rfl]

theorem HandlesSafe.disposeMf (cx : R2Context) (h : c.HandlesSafe keeps env b) :
    (disposeMf cx c).HandlesSafe keeps env b := by
  have hr : ∀ c : R2Chan, c.HandlesSafe keeps env b → (disposeMfRead c).HandlesSafe keeps env b := by
    intro c h
    constructor
    · change (b.after keeps env (c.out ++ [.mfReadDispose c.mfReadHandle])).write.Safe c.mfWriteHandle
      rw [after_disposeRead]
      exact h.write
    · change (b.after keeps env (c.out ++ [.mfReadDispose c.mfReadHandle])).read.Safe none
      rw [after_disposeRead]
      exact h.read.dispose
  have hw : ∀ c : R2Chan, c.HandlesSafe keeps env b → (disposeMfWrite c).HandlesSafe keeps env b := by
    intro c h
    constructor
    · change (b.after keeps env (c.out ++ [.mfWriteDispose c.mfWriteHandle])).write.Safe none
      rw [after_disposeWrite]
      exact h.write.dispose
    · change (b.after keeps env (c.out ++ [.mfWriteDispose c.mfWriteHandle])).read.Safe c.mfReadHandle
      rw [after_disposeWrite]
      exact h.read
  simp only [OpenR2.disposeMf]
  split_ifs
  · exact hw _ (hr _ h)
  · exact hw _ h
  · exact hr _ h
  · exact h

theorem HandlesSafe.turnOff (cx : R2Context) (h : c.HandlesSafe keeps env b) :
    (turnOffMfEngine cx c).HandlesSafe keeps env b := by
  have hc : ((c.cancelTimer .mfBackCycle).setDtmf false false).HandlesSafe keeps env b :=
    h.leave (.same rfl rfl rfl)
  unfold turnOffMfEngine
  split_ifs
  · exact h
  · have hd := hc.disposeMf cx
    dsimp only
    generalize OpenR2.disposeMf cx ((c.cancelTimer .mfBackCycle).setDtmf false false) = e at hd
    exact hd.leave (.same rfl rfl rfl)

theorem HandlesSafe.protoInit (cx : R2Context) (h : c.HandlesSafe keeps env b) :
    (protoInit cx c).HandlesSafe keeps env b := by
  have hc : (clearNumbers c).HandlesSafe keeps env b := h.leave (.same rfl rfl rfl)
  have ht := hc.turnOff cx
  unfold OpenR2.protoInit
  generalize turnOffMfEngine cx (clearNumbers c) = e at ht
  have hl : (clearCall e).HandlesSafe keeps env b := ht.leave (d := clearCall e)
    ⟨rfl, rfl, [.callState .idle], rfl, by simp [Act.Apart]⟩
  generalize clearCall e = e at hl
  unfold fixRxSignal
  split_ifs
  · exact hl.leave (.same rfl rfl rfl)
  · exact hl.leave (.same rfl rfl rfl)
  · exact hl

theorem HandlesSafe.select (h : c.HandlesSafe keeps env b) (tone : Tone) :
    (c.did (.mfSelectTone c.mfWriteHandle tone)).HandlesSafe keeps env b := by
  constructor
  · change (b.after keeps env (c.out ++ [.mfSelectTone c.mfWriteHandle tone])).write.Safe c.mfWriteHandle
    rw [after_select]
    exact h.write.use
  · change (b.after keeps env (c.out ++ [.mfSelectTone c.mfWriteHandle tone])).read.Safe c.mfReadHandle
    rw [after_select]
    exact h.read

theorem HandlesSafe.writeInit (h : c.HandlesSafe keeps env b) (fwd : Bool) :
    (c.did (.mfWriteInit c.mfWriteHandle fwd)).HandlesSafe keeps env b := by
  constructor
  · change (b.after keeps env (c.out ++ [.mfWriteInit c.mfWriteHandle fwd])).write.Safe c.mfWriteHandle
    rw [after_writeInit]
    exact h.write.init _
  · change (b.after keeps env (c.out ++ [.mfWriteInit c.mfWriteHandle fwd])).read.Safe c.mfReadHandle
    rw [after_writeInit]
    exact h.read

theorem HandlesSafe.readInit (h : c.HandlesSafe keeps env b) (fwd : Bool) :
    (c.did (.mfReadInit c.mfReadHandle fwd)).HandlesSafe keeps env b := by
  constructor
  · change (b.after keeps env (c.out ++ [.mfReadInit c.mfReadHandle fwd])).write.Safe c.mfWriteHandle
    rw [after_readInit]
    exact h.write
  · change (b.after keeps env (c.out ++ [.mfReadInit c.mfReadHandle fwd])).read.Safe c.mfReadHandle
    rw [after_readInit]
    exact h.read.init _

theorem Stocked.leave (h : c.Stocked keeps env b) (hl : c.LeavesHandles d)
    (hx : d.mfState ≠ .offState ∨ d.callState = .offered → c.mfState ≠ .offState ∨ c.callState = .offered)
    (hc : d.Called) (hp : .startDialingDtmf ∉ d.pending) : d.Stocked keeps env b := by
  exact ⟨fun he => hl.equips (h.engine (hx he)), h.safe.leave hl, hc, hp⟩

/-- Nothing changes of what this is about. -/
theorem Stocked.same (h : c.Stocked keeps env b) (hl : c.LeavesHandles d) (hm : d.mfState = c.mfState)
    (hd : d.direction = c.direction) (hs : d.callState = c.callState) (hr : d.r2State = c.r2State)
    (hp : d.pending ⊆ c.pending) : d.Stocked keeps env b := by
  refine h.leave hl ?_ ?_ fun hx => h.undialled (hp hx)
  · rw [hm, hs]
    exact id
  · unfold Called
    rw [hs, hd, hr]
    exact h.called

/-- The call is not one that is still to be accepted or refused, and no engine runs. -/
theorem Stocked.settle (h : c.Stocked keeps env b) (hl : c.LeavesHandles d)
    (hm : d.mfState ≠ .offState → c.mfState ≠ .offState)
    (hs : d.callState ≠ .collecting ∧ d.callState ≠ .offered) (hp : .startDialingDtmf ∉ d.pending) :
    d.Stocked keeps env b :=
  h.leave hl (fun hx => hx.elim (fun hx => .inl (hm hx)) fun hx => absurd hx hs.2)
    (fun hx => hx.elim (fun hx => absurd hx hs.1) fun hx => absurd hx hs.2) hp

/-- The line state changes. -/
theorem Stocked.relay (h : c.Stocked keeps env b) {r : CasState}
    (hr : c.callState = .collecting ∨ c.callState = .offered → ¬ r.Forward ∧ ¬ r.Answering) :
    (c.setR2State r).Stocked keeps env b :=
  h.leave (.same rfl rfl rfl) id (fun hx => ⟨(h.called hx).1, hr hx⟩) h.undialled

/-- The engine is off, in a call that is not offered. -/
theorem Stocked.turnOff (h : c.Stocked keeps env b) (hs : c.callState ≠ .offered) :
    (turnOffMfEngine cx c).Stocked keeps env b := by
  have hsafe := h.safe.turnOff cx
  obtain ⟨⟨r, w, x, y, q, hf⟩, ht, -⟩ := turnOffMfEngine_turnedOff cx c
  have hp : (turnOffMfEngine cx c).pending ⊆ c.pending := turnOffMfEngine_pending cx c
  generalize turnOffMfEngine cx c = e at hf ht hsafe hp
  have hm : e.mfState = .offState := by rw [hf]
  have hc : e.callState = c.callState := by rw [hf]
  refine ⟨fun hx => ?_, hsafe, ?_, fun hx => h.undialled (hp hx)⟩
  · exact hx.elim (fun hx => absurd hm hx) fun hx => absurd (hc.symm.trans hx) hs
  · rw [hf]
    exact h.called

/-- The engine is off, and the call is not one that is still to be accepted or refused. -/
theorem Stocked.over (h : c.HandlesSafe keeps env b) (hp : .startDialingDtmf ∉ c.pending)
    (hl : (turnOffMfEngine cx c).LeavesHandles d) (hm : d.mfState = .offState)
    (hs : d.callState ≠ .collecting ∧ d.callState ≠ .offered)
    (hd : d.pending ⊆ (turnOffMfEngine cx c).pending) : d.Stocked keeps env b := by
  refine ⟨fun hx => ?_, (h.turnOff cx).leave hl, fun hx => ?_, fun hx =>
    hp (turnOffMfEngine_pending cx c (hd hx))⟩
  · exact hx.elim (fun hx => absurd hm hx) fun hx => absurd hx hs.2
  · exact hx.elim (fun hx => absurd hx hs.1) fun hx => absurd hx hs.2

theorem Stocked.protoInit (h : c.HandlesSafe keeps env b) : (protoInit cx c).Stocked keeps env b := by
  have hsafe := h.protoInit cx
  obtain ⟨⟨rx, r, w, x, y, hf⟩, -⟩ := protoInit_reset cx c
  generalize OpenR2.protoInit cx c = e at hf hsafe
  have hm : e.mfState = .offState := by rw [hf]
  have hc : e.callState = .idle := by rw [hf]
  have hp : e.pending = [] := by
    rw [hf]
    rfl
  refine ⟨fun hx => ?_, hsafe, fun hx => ?_, by simp [hp]⟩
  · exact hx.elim (fun hx => absurd hm hx) fun hx => absurd (hc.symm.trans hx) nofun
  · exact hx.elim (fun hx => absurd (hc.symm.trans hx) nofun) fun hx => absurd (hc.symm.trans hx) nofun

theorem Stocked.select (h : c.Stocked keeps env b) (tone : Tone) :
    (c.did (.mfSelectTone c.mfWriteHandle tone)).Stocked keeps env b := by
  refine ⟨fun hx => ?_, h.safe.select tone, h.called, h.undialled⟩
  have he := h.engine hx
  change Equips (b.after keeps env (c.out ++ [.mfSelectTone c.mfWriteHandle tone])) _
  rw [after_select]
  exact ⟨he.write.use, he.read⟩

theorem Called.outgoing (h : c.Called) (ho : c.Outgoing) :
    ¬ (c.callState = .collecting ∨ c.callState = .offered) := by
  intro hx
  obtain ⟨hd, hr, -⟩ := h hx
  rcases ho with ho | ho | ⟨ho, -⟩
  · exact absurd (hd.symm.trans ho) nofun
  · exact hr ho
  · exact ho hd

theorem Called.forward (h : c.Called) (hd : c.direction = .forward) :
    ¬ (c.callState = .collecting ∨ c.callState = .offered) := h.outgoing (.inl hd)

end R2Chan

end Stocked

section Spares

variable {cx : R2Context} {env : Env} {keeps : Bool} {b : Books} {c d e : R2Chan}

/-- Acts that neither make nor end a handle. -/
def Act.Spares : Act → Prop
  | .mfWriteInit .. | .mfReadInit .. | .mfWriteDispose _ | .mfReadDispose _ => False
  | _ => True

theorem Act.Tuning.spares {a : Act} (h : a.Tuning) : a.Spares := by
  cases a <;> trivial

theorem Act.Spares.writeUse {a : Act} (h : a.Spares) (as : List Act) :
    a.writeUse env as = none ∨ ∃ x, a.writeUse env as = some (.use x) := by
  cases a with
  | mfSelectTone x tone => exact .inr ⟨x, rfl⟩
  | mfWriteInit => exact h.elim
  | mfWriteDispose => exact h.elim
  | _ => exact .inl rfl

theorem Act.Spares.readUse {a : Act} (h : a.Spares) (as : List Act) :
    a.readUse env as = none ∨ ∃ x, a.readUse env as = some (.use x) := by
  cases a with
  | mfReadInit => exact h.elim
  | mfReadDispose => exact h.elim
  | _ => exact .inl rfl

namespace R2Chan

/-- The handles stay as they are. -/
structure SparesHandles (c d : R2Chan) : Prop where
  write : d.mfWriteHandle = c.mfWriteHandle
  read : d.mfReadHandle = c.mfReadHandle
  out : ∃ as, d.out = c.out ++ as ∧ ∀ a ∈ as, a.Spares

namespace SparesHandles

theorem equips (h : c.SparesHandles d) (he : c.Equips (b.after keeps env c.out)) :
    d.Equips (b.after keeps env d.out) := by
  obtain ⟨as, ho, ha⟩ := h.out
  obtain ⟨⟨w, hw, hcw⟩, r, hr, hcr⟩ := he
  refine ⟨⟨w, ?_, h.write.trans hcw⟩, r, ?_, h.read.trans hcr⟩
  · rw [ho, Books.after, account_append_valid c.out as fun cs a hm => (ha a hm).writeUse cs]
    exact hw
  · rw [ho, Books.after, account_append_valid c.out as fun cs a hm => (ha a hm).readUse cs]
    exact hr

theorem same (hw : d.mfWriteHandle = c.mfWriteHandle) (hr : d.mfReadHandle = c.mfReadHandle)
    (ho : d.out = c.out) : c.SparesHandles d := ⟨hw, hr, [], by rw [ho, List.append_nil], by simp⟩

theorem refl (c : R2Chan) : c.SparesHandles c := same rfl rfl rfl

theorem trans (h : c.SparesHandles d) (h' : d.SparesHandles e) : c.SparesHandles e := by
  obtain ⟨as, ho, ha⟩ := h.out
  obtain ⟨bs, ho', hb⟩ := h'.out
  refine ⟨h'.write.trans h.write, h'.read.trans h.read, as ++ bs, by rw [ho', ho, List.append_assoc],
    fun a hm => ?_⟩
  exact (List.mem_append.mp hm).elim (ha a) (hb a)

theorem did (c : R2Chan) {a : Act} (ha : a.Spares) : c.SparesHandles (c.did a) :=
  ⟨rfl, rfl, [a], rfl, by simpa using ha⟩

theorem tuned (h : c.Tuned d) : c.SparesHandles d := by
  obtain ⟨⟨q, w, hf⟩, as, ho, ha⟩ := h
  refine ⟨?_, ?_, as, ho, fun a hm => (ha a hm).spares⟩
  · rw [hf]
  · rw [hf]

theorem setCasSignal (cx : R2Context) (env : Env) (s : CasSignal) (c : R2Chan) :
    c.SparesHandles (setCasSignal cx env s c).1 := by
  have hs : c.SparesHandles (c.setCasTx (cx.casSignals s) s) := same rfl rfl rfl
  have hd : c.SparesHandles ((c.setCasTx (cx.casSignals s) s).did
      (.setCas (cx.casSignals s ||| cx.casNonr2Bits))) :=
    hs.trans (did _ trivial)
  simp only [OpenR2.setCasSignal]
  split_ifs
  · exact refl c
  · exact hd
  · exact hd

theorem turnOff (hn : cx.DisposesNone) (c : R2Chan) : c.SparesHandles (turnOffMfEngine cx c) := by
  simp only [turnOffMfEngine, disposeMf, hn.1, hn.2, Bool.false_eq_true, if_false]
  split_ifs
  · exact refl c
  · exact same rfl rfl rfl

theorem protoInit (hn : cx.DisposesNone) (c : R2Chan) : c.SparesHandles (protoInit cx c) := by
  have ht : c.SparesHandles (turnOffMfEngine cx (clearNumbers c)) :=
    (same rfl rfl rfl : c.SparesHandles (clearNumbers c)).trans (turnOff hn _)
  have hl : c.SparesHandles (clearCall (turnOffMfEngine cx (clearNumbers c))) :=
    ht.trans ⟨rfl, rfl, [.callState .idle], rfl, by simp [Act.Spares]⟩
  unfold OpenR2.protoInit fixRxSignal
  split_ifs
  · exact hl.trans (same rfl rfl rfl)
  · exact hl.trans (same rfl rfl rfl)
  · exact hl

theorem setIdle (hn : cx.DisposesNone) (env : Env) (c : R2Chan) : c.SparesHandles (setIdle cx env c).1 :=
  (protoInit hn c).trans (setCasSignal cx env .idle _)

theorem setBlocked (hn : cx.DisposesNone) (env : Env) (c : R2Chan) :
    c.SparesHandles (setBlocked cx env c).1 :=
  ((protoInit hn c).trans (same rfl rfl rfl : (OpenR2.protoInit cx c).SparesHandles
    ((OpenR2.protoInit cx c).setR2State .blocked))).trans (setCasSignal cx env .block _)

theorem handleProtocolError (hn : cx.DisposesNone) (env : Env) (reason : ProtocolError) (c : R2Chan) :
    c.SparesHandles (handleProtocolError cx env reason c) :=
  ((did (a := .mfSelectTone c.mfWriteHandle 0) c trivial).trans (setIdle hn env _)).trans
    (did (a := .event (.onProtocolError reason)) _ trivial)

theorem reportCallEnd (hn : cx.DisposesNone) (env : Env) (c : R2Chan) :
    c.SparesHandles (reportCallEnd cx env c) :=
  (setIdle hn env c).trans (did (a := .event .onCallEnd) _ trivial)

theorem prepareMfTone (hn : cx.DisposesNone) (env : Env) (tone : Tone) (c : R2Chan) :
    c.SparesHandles (prepareMfTone cx env tone c) := by
  rcases prepareMfTone_cases cx env tone c with ⟨-, ht⟩ | ⟨-, d, ht, he⟩
  · exact tuned ht
  · rw [he]
    exact (tuned ht).trans (handleProtocolError hn env .internalError d)

theorem clearLine (hn : cx.DisposesNone) (env : Env) (r : CasState) (s : CasSignal) (c : R2Chan) :
    c.SparesHandles (OpenR2.setCasSignal cx env s (turnOffMfEngine cx (c.setR2State r))).1 :=
  ((same rfl rfl rfl : c.SparesHandles (c.setR2State r)).trans (turnOff hn _)).trans
    (setCasSignal cx env s _)

theorem sendClearForward (hn : cx.DisposesNone) (env : Env) (c : R2Chan) :
    c.SparesHandles (sendClearForward cx env c).1 :=
  (tuned (R2Chan.Tuned.addTimer env cx.timers.r2SetCallDown .r2SetCallDown c)).trans
    (clearLine hn env .clearFwdTxd .clearForward _)

theorem armTimer (env : Env) (slot : TimerSlot) (ms : Nat) (cb : TimerCallback) (c : R2Chan) :
    c.SparesHandles (armTimer env slot ms cb c) := tuned (R2Chan.Tuned.armTimer env slot ms cb c)

theorem doAnswer (cx : R2Context) (env : Env) (c : R2Chan) : c.SparesHandles (doAnswer cx env c).1 := by
  have hs := setCasSignal cx env .answer c
  simp only [OpenR2.doAnswer]
  split_ifs
  · exact refl c
  · exact hs
  · exact hs.trans ⟨rfl, rfl, [.callState .answered], rfl, by simp [Act.Spares]⟩

theorem disconnectCall (hn : cx.DisposesNone) (env : Env) (cause : DisconnectCause) (c : R2Chan) :
    c.SparesHandles (disconnectCall cx env cause c).1 := by
  have hb := clearLine hn env .clearBackTxd .clearBack c
  have hf := clearLine hn env .forcedReleaseTxd .forcedRelease c
  have he := reportCallEnd hn env c
  have hs : c.SparesHandles (sendDisconnect cx env cause c) :=
    (same rfl rfl rfl : c.SparesHandles (c.setMfState .disconnectTxd)).trans (prepareMfTone hn env _ _)
  have hh : ∀ r, c.SparesHandles (c.setR2State r) := fun r => same rfl rfl rfl
  simp only [OpenR2.disconnectCall, disconnectBackward, disconnectForward]
  split_ifs
  · exact refl c
  · exact he
  · exact hb
  · exact hs
  · exact he
  · exact hf
  · exact hb
  · exact hh _
  · exact (hh _).trans (armTimer env .r2SeizePersist _ _ _)
  · exact he
  · exact sendClearForward hn env c

/-- What the user calls within a call. -/
theorem apiCall (hn : cx.DisposesNone) (env : Env) (a : ApiCall) (c : R2Chan) (hc : c.callState ≠ .idle) :
    c.SparesHandles (apiCall cx env a c).1 := by
  have hd := doAnswer cx env c
  cases a with
  | makeCall ani dnis category r =>
    simp only [OpenR2.apiCall, makeCall, if_pos hc, ite_self]
    exact refl c
  | acceptCall mode =>
    simp only [OpenR2.apiCall, acceptCall]
    split_ifs
    · exact refl c
    · exact did (a := .event (.onCallAccepted .unknown)) c trivial
    · exact (same rfl rfl rfl : c.SparesHandles (c.setMfState .acceptedTxd)).trans
        (prepareMfTone hn env _ _)
  | answerCall =>
    simp only [OpenR2.apiCall, answerCall, scheduleDoubleAnswer]
    split_ifs
    · exact hd
    · exact hd.trans (armTimer env .r2DoubleAnswer _ _ _)
    · exact hd
  | answerCallWithMode mode =>
    simp only [OpenR2.apiCall, answerCallWithMode, scheduleDoubleAnswer]
    split_ifs
    · exact hd
    · exact hd.trans (armTimer env .r2DoubleAnswer _ _ _)
    · exact hd
  | disconnectCall cause => exact disconnectCall hn env cause c
  | ackCall =>
    have hs := setCasSignal cx env .seizeAck c
    simp only [OpenR2.apiCall, ackCall]
    split_ifs
    · exact hs.trans (handleProtocolError hn env _ _)
    · exact hs
  | setIdle => exact setIdle hn env c
  | setBlocked => exact setBlocked hn env c

end SparesHandles

end R2Chan

/-- A harmless call of the user leaves a running engine on. -/
theorem apiCall_on {a : ApiCall} (ha : a.Harmless env c.out) (hc : c.callState ≠ .idle)
    (hm : c.mfState ≠ .offState) : (apiCall cx env a c).1.mfState ≠ .offState := by
  have hs : ∀ s, (setCasSignal cx env s c).1.mfState = c.mfState := fun s =>
    congrArg Frame.mfState (setCasSignal_frame cx env c s)
  have hd : (doAnswer cx env c).1.mfState = c.mfState := by
    simp only [doAnswer]
    split_ifs
    · rfl
    · exact hs _
    · exact hs _
  have harm : ∀ d : R2Chan, (scheduleDoubleAnswer cx env d).mfState = d.mfState := by
    intro d
    obtain ⟨⟨q, w, hf⟩, -⟩ := R2Chan.Tuned.armTimer env .r2DoubleAnswer cx.timers.r2DoubleAnswer
      .doubleAnswerHandler d
    rw [scheduleDoubleAnswer, hf]
  cases a with
  | makeCall ani dnis category r =>
    simp only [apiCall, makeCall, if_pos hc, ite_self]
    exact hm
  | acceptCall mode =>
    simp only [apiCall, acceptCall]
    split_ifs
    · exact hm
    · exact hm
    · have hr : ∀ tone, ¬ Refuses env tone (c.setMfState .acceptedTxd) := by
        rintro tone ⟨-, hx⟩
        split_ifs at hx
        · exact absurd (ha.2.symm.trans hx.2) (by rintro ⟨⟩)
        · exact absurd (ha.1.symm.trans hx) (by rintro ⟨⟩)
      rcases prepareMfTone_cases cx env (getToneFromMode cx mode) (c.setMfState .acceptedTxd) with
        ⟨-, ⟨⟨q, w, hf⟩, -⟩⟩ | ⟨hx, -⟩
      · rw [hf]
        rintro ⟨⟩
      · exact absurd hx (hr _)
  | answerCall =>
    simp only [apiCall, answerCall]
    split_ifs
    · rwa [hd]
    · rwa [harm, hd]
    · rwa [hd]
  | answerCallWithMode mode =>
    simp only [apiCall, answerCallWithMode]
    split_ifs
    · rwa [hd]
    · rwa [harm, hd]
    · rwa [hd]
  | disconnectCall cause => exact ha.elim
  | ackCall =>
    have hx : env.setCas c.out = true := ha
    have hz : (setCasSignal cx env .seizeAck c).2 = 0 := by simp [setCasSignal, R2Chan.setCasTx, hx]
    simp only [apiCall, ackCall, hz, ne_eq, not_true, if_false]
    rwa [hs]
  | setIdle => exact ha.elim
  | setBlocked => exact ha.elim

end Spares

section Steps

variable {cx : R2Context} {env : Env} {keeps : Bool} {b : Books} {c d : R2Chan}

/-- What the world may do where the handles are to stay usable. -/
def handlesMay (cx : R2Context) (keeps : Bool) (env : Env) (b : Books) : Chance → R2Chan → Prop
  | .call a, c => (c.mfState ≠ .offState → c.Equips (b.after keeps env c.out)) ∧
      (cx.DisposesNone ∨ ∀ h (e : Event), e.OfDigit → c.out = h ++ [.event e] → a.Harmless env c.out)
  | .ack, c => c.Renews keeps env
  | .digitsEnd, _ | .dial, _ => False
  | .earlyAnswer, _ | .lateEnd, _ => True

/-- The backward side goes on with handles that it can use. -/
theorem R2Chan.GoesOn.equips (hg : c.GoesOn cx env (handlesMay cx keeps env b))
    (h : c.Stocked keeps env b) :
    c.Equips (b.after keeps env c.out) := by
  rcases hg.2 with hm | ⟨a, d, e, he, hm, hc, ⟨hx, ho⟩, rfl⟩
  · exact h.engine (.inl hm)
  · rcases ho with hn | ho
    · exact (R2Chan.SparesHandles.apiCall hn env a (d.emit e) hc).equips (hx hm)
    · exact h.engine (.inl (apiCall_on (ho d.out e he rfl) hc hm))

/-- The handles with which an outgoing call starts its tones. -/
theorem R2Chan.Stocked.dialMf (h : c.Stocked keeps env b) (hr : c.Renews keeps env)
    (hs : c.r2State = .seizeTxd) (m : MfState) : (c.dialMf m).Stocked keeps env b := by
  have hw := h.safe.writeInit true
  have hx := hw.readInit true
  have hn : ¬ (c.callState = .collecting ∨ c.callState = .offered) :=
    h.called.outgoing (.inr (.inl (by rw [hs]; trivial)))
  have ho : (c.dialMf m).out = c.out ++ [.mfWriteInit c.mfWriteHandle true] ++
      [.mfReadInit c.mfReadHandle false] ++ [.readDnis c.dnisIndex] := rfl
  have hb : b.after keeps env (c.dialMf m).out =
      ⟨(b.after keeps env c.out).write.record keeps (.init c.mfWriteHandle (env.mfWriteInit c.out)),
        (b.after keeps env c.out).read.record keeps (.init c.mfReadHandle
          (env.mfReadInit (c.out ++ [.mfWriteInit c.mfWriteHandle true])))⟩ := by
    rw [ho, Books.after_apart _ [.readDnis c.dnisIndex] (by simp [Act.Apart]), R2Chan.after_readInit,
      R2Chan.after_writeInit]
  refine ⟨fun _ => ?_, ?_, fun hx => absurd hx hn, h.undialled⟩
  · rw [hb]
    exact ⟨h.safe.write.renew (hr.write _), h.safe.read.renew (hr.read _)⟩
  · constructor
    · rw [hb]
      exact h.safe.write.init _
    · rw [hb]
      exact h.safe.read.init _

/-- An incoming call takes new handles. -/
theorem R2Chan.Stocked.receiveMf (h : c.Stocked keeps env b) {w r : Nat}
    (hw : env.mfWriteInit c.out = some w)
    (hr : env.mfReadInit (c.out ++ [.mfWriteInit c.mfWriteHandle false]) = some r) :
    ((((c.did (.mfWriteInit c.mfWriteHandle false)).did
      (.mfReadInit c.mfReadHandle true)).setMfHandles w r).receive .seizeAckTxd .backInit).Stocked keeps
        env b := by
  have hb : b.after keeps env (c.out ++ [.mfWriteInit c.mfWriteHandle false] ++
      [.mfReadInit c.mfReadHandle true] ++ [.callState .collecting]) =
      ⟨(b.after keeps env c.out).write.record keeps (.init c.mfWriteHandle (some w)),
        (b.after keeps env c.out).read.record keeps (.init c.mfReadHandle (some r))⟩ := by
    rw [Books.after_apart _ [.callState .collecting] (by simp [Act.Apart]), R2Chan.after_readInit,
      R2Chan.after_writeInit, hw, hr]
  obtain ⟨hsw, huw⟩ := h.safe.write.take keeps c.mfWriteHandle w
  obtain ⟨hsr, hur⟩ := h.safe.read.take keeps c.mfReadHandle r
  refine ⟨fun _ => ?_, ⟨?_, ?_⟩, fun _ => ⟨rfl, nofun, ?_⟩, h.undialled⟩
  · change R2Chan.Equips (b.after keeps env (c.out ++ [.mfWriteInit c.mfWriteHandle false] ++
      [.mfReadInit c.mfReadHandle true] ++ [.callState .collecting])) _
    rw [hb]
    exact ⟨huw, hur⟩
  · change (b.after keeps env (c.out ++ [.mfWriteInit c.mfWriteHandle false] ++
      [.mfReadInit c.mfReadHandle true] ++ [.callState .collecting])).write.Safe (some w)
    rw [hb]
    exact hsw
  · change (b.after keeps env (c.out ++ [.mfWriteInit c.mfWriteHandle false] ++
      [.mfReadInit c.mfReadHandle true] ++ [.callState .collecting])).read.Safe (some r)
    rw [hb]
    exact hsr
  · rintro (hx | hx) <;> exact nomatch hx

theorem R2Chan.LeavesHandles.addTimer (env : Env) (ms : Nat) (cb : TimerCallback) (c : R2Chan) :
    c.LeavesHandles (addTimer env ms cb c).1 := by
  simp only [OpenR2.addTimer]
  split
  · exact ⟨rfl, rfl, [.gettimeofday, .event .onOsError], by simp [R2Chan.emit, R2Chan.did],
      by simp [Act.Apart]⟩
  · exact ⟨rfl, rfl, [.gettimeofday], rfl, by simp [Act.Apart]⟩

theorem R2Chan.LeavesHandles.armTimer (env : Env) (slot : TimerSlot) (ms : Nat) (cb : TimerCallback)
    (c : R2Chan) : c.LeavesHandles (armTimer env slot ms cb c) :=
  ⟨(addTimer env ms cb c).write, (addTimer env ms cb c).read, (addTimer env ms cb c).out⟩

theorem R2Chan.LeavesHandles.setCasSignal (cx : R2Context) (env : Env) (s : CasSignal) (c : R2Chan) :
    c.LeavesHandles (setCasSignal cx env s c).1 := by
  have hd : c.LeavesHandles ((c.setCasTx (cx.casSignals s) s).did
      (.setCas (cx.casSignals s ||| cx.casNonr2Bits))) :=
    ⟨rfl, rfl, [.setCas (cx.casSignals s ||| cx.casNonr2Bits)], rfl, by simp [Act.Apart]⟩
  simp only [OpenR2.setCasSignal]
  split_ifs
  · exact .same rfl rfl rfl
  · exact hd
  · exact hd

/-- A timer is scheduled. -/
theorem R2Chan.Stocked.schedule (h : c.Stocked keeps env b) {cb : TimerCallback}
    (hcb : cb ≠ .startDialingDtmf) (hl : c.LeavesHandles d) (ht : c.Tuned d)
    (hp : d.pending ⊆ cb :: c.pending) : d.Stocked keeps env b := by
  obtain ⟨⟨q, w, hf⟩, -⟩ := ht
  refine h.leave hl ?_ ?_ fun hx => ?_
  · rw [hf]
    exact id
  · rw [hf]
    exact h.called
  · rcases List.mem_cons.mp (hp hx) with hx | hx
    · exact hcb hx.symm
    · exact h.undialled hx

theorem turnOffMfEngine_is_off (cx : R2Context) (c : R2Chan) :
    (turnOffMfEngine cx c).mfState = .offState := by
  obtain ⟨⟨r, w, x, y, q, hf⟩, -⟩ := turnOffMfEngine_turnedOff cx c
  rw [hf]

theorem turnOffMfEngine_callState (cx : R2Context) (c : R2Chan) :
    (turnOffMfEngine cx c).callState = c.callState := by
  obtain ⟨⟨r, w, x, y, q, hf⟩, -⟩ := turnOffMfEngine_turnedOff cx c
  rw [hf]

/-- A call that is placed starts no engine. -/
theorem place_leaves (cx : R2Context) (env : Env) (ani : Option (List Tone)) (dnis : List Tone)
    (category : Category) (r : Bool) (c : R2Chan) :
    c.LeavesHandles (c.place cx env ani dnis category r) ∧
      (c.place cx env ani dnis category r).mfState = c.mfState := by
  obtain ⟨hw, hr, as, ho, ha⟩ := R2Chan.LeavesHandles.armTimer env .r2Seize cx.timers.r2Seize
    .seizeTimeoutExpired (c.setR2State .seizeTxd)
  obtain ⟨⟨q, w, hf⟩, -⟩ := R2Chan.Tuned.armTimer env .r2Seize cx.timers.r2Seize .seizeTimeoutExpired
    (c.setR2State .seizeTxd)
  have hx : (armTimer env .r2Seize cx.timers.r2Seize .seizeTimeoutExpired (c.setR2State .seizeTxd)).mfState =
      c.mfState := by
    rw [hf]
    rfl
  unfold R2Chan.place
  generalize armTimer env .r2Seize cx.timers.r2Seize .seizeTimeoutExpired (c.setR2State .seizeTxd) = e
    at hw hr ho hx
  refine ⟨⟨hw, hr, as ++ [.callState .dialing], ?_, fun a hm => ?_⟩, hx⟩
  · rw [← List.append_assoc]
    exact congrArg (· ++ [Act.callState .dialing]) ho
  · rcases List.mem_append.mp hm with hm | hm
    · exact ha a hm
    · rw [List.mem_singleton.mp hm]
      trivial

/-- The line hops, but to no state of the forward side while the call is still to be accepted. -/
theorem R2Chan.Stocked.hop (h : c.Stocked keeps env b) {r : CasState} (hr : c.Hops cx r) :
    (c.setR2State r).Stocked keeps env b := by
  refine h.relay fun hx => ?_
  obtain ⟨hd, hf, hn⟩ := h.called hx
  have hno : ∀ {x : CasState}, c.r2State = x → x.Forward → False := fun he hx => hf (he ▸ hx)
  have hna : ∀ {x : CasState}, (x = .answerTxd ∨ x = .executingDoubleAnswer → False) → ¬ x.Answering := id
  cases hr with
  | clearFwdRxd => exact ⟨id, hna (by rintro (hx | hx) <;> exact nomatch hx)⟩
  | glare hk => exact (hk.elim (hno · trivial) (hno · trivial)).elim
  | holdSeize hk => exact (hno hk trivial).elim
  | holdGlare hk => exact (hno hk trivial).elim
  | release _ hk =>
    rcases hk with hk | hk | hk | hk
    all_goals exact (hno hk trivial).elim
  | earlyAnswer hk => exact (hno hk trivial).elim
  | lateRelease hk => exact (hno hk trivial).elim
  | reject hk => exact absurd (hd.symm.trans hk) nofun
  | clearBack => exact ⟨id, hna (by rintro (hx | hx) <;> exact nomatch hx)⟩
  | forcedRelease => exact ⟨id, hna (by rintro (hx | hx) <;> exact nomatch hx)⟩
  | executeDouble hk => exact absurd (.inl hk) hn
  | reanswer hk => exact absurd (.inr hk) hn
  | clearForward hk => exact absurd hx (h.called.outgoing hk)

/-- A call is placed. -/
theorem R2Chan.Stocked.place (h : c.Stocked keeps env b) (ani : Option (List Tone)) (dnis : List Tone)
    (category : Category) (r : Bool) : (c.place cx env ani dnis category r).Stocked keeps env b := by
  obtain ⟨h1, h2, h3, h4⟩ := place_frame cx env ani dnis category r c
  obtain ⟨hl, hx⟩ := place_leaves cx env ani dnis category r c
  generalize c.place cx env ani dnis category r = e at h1 h2 h3 h4 hl hx
  refine h.settle hl (fun hm => by rwa [← hx]) (by rw [h2]; decide) fun hy => ?_
  rcases List.mem_cons.mp (h4 hy) with hy | hy
  · exact nomatch hy
  · exact h.undialled hy

/-- The digits of a call were dialled. -/
theorem R2Chan.Stocked.dialled (h : c.Stocked keeps env b)
    (hs : c.callState ≠ .collecting ∧ c.callState ≠ .offered) :
    ((turnOffMfEngine cx c).emit (.onCallAccepted .unknown)).Stocked keeps env b := by
  have hc : (turnOffMfEngine cx c).callState = c.callState := turnOffMfEngine_callState cx c
  refine .over h.safe h.undialled (.did (a := .event (.onCallAccepted .unknown)) _ trivial)
    (turnOffMfEngine_is_off cx c) ?_ fun _ hx => hx
  change (turnOffMfEngine cx c).callState ≠ _ ∧ (turnOffMfEngine cx c).callState ≠ _
  rw [hc]
  exact hs

/-- The call is answered on this side. -/
theorem R2Chan.Stocked.answer (h : c.Stocked keeps env b) :
    ((((setCasSignal cx env .answer c).1.setCallState .answered).setR2State .answerTxd).setAnswered).Stocked
      keeps env b := by
  have hf := setCasSignal_frame cx env c .answer
  obtain ⟨hw, hr, as, ho, ha⟩ := R2Chan.LeavesHandles.setCasSignal cx env .answer c
  have hp : (setCasSignal cx env .answer c).1.pending = c.pending :=
    congrArg (fun f => f.timers.pending) hf
  have hx : (setCasSignal cx env .answer c).1.mfState = c.mfState := congrArg Frame.mfState hf
  generalize (setCasSignal cx env .answer c).1 = e at hw hr ho hp hx
  refine h.settle ⟨hw, hr, as ++ [.callState .answered], ?_, fun a hm => ?_⟩ (fun hm => by rwa [← hx])
    ⟨nofun, nofun⟩ (fun hy => h.undialled (hp ▸ hy))
  · rw [← List.append_assoc, ← ho]
    rfl
  · rcases List.mem_append.mp hm with hm | hm
    · exact ha a hm
    · rw [List.mem_singleton.mp hm]
      trivial

/-- The call is answered on the other side. -/
theorem R2Chan.Stocked.answered (h : c.Stocked keeps env b) : (callAnswered cx c).Stocked keeps env b := by
  rw [callAnswered_eq]
  have hs : (((c.cancelTimer .r2Answer).setR2State .answerRxd).setCallState .answered).HandlesSafe
      keeps env b :=
    h.safe.leave ⟨rfl, rfl, [.callState .answered], rfl, by simp [Act.Apart]⟩
  have hp : (((c.cancelTimer .r2Answer).setR2State .answerRxd).setCallState .answered).pending ⊆
      c.pending :=
    cancelTimer_pending .r2Answer c
  have hc := turnOffMfEngine_callState cx
    (((c.cancelTimer .r2Answer).setR2State .answerRxd).setCallState .answered)
  refine .over hs (fun hx => h.undialled (hp hx))
    ⟨rfl, rfl, [.event .onCallAnswered], rfl, by simp [Act.Apart]⟩ (turnOffMfEngine_is_off cx _) ?_ fun _ hx => hx
  change (turnOffMfEngine cx _).callState ≠ _ ∧ (turnOffMfEngine cx _).callState ≠ _
  rw [hc]
  exact ⟨nofun, nofun⟩

/-- Every operation keeps the handles in MFC mode, where the world may do what it does. -/
theorem Atom.stocked (hm : cx.Mfc) (ha : Atom cx env (handlesMay cx keeps env b) c d)
    (h : c.Stocked keeps env b) : d.Stocked keeps env b := by
  have hself : c.pending ⊆ c.pending := fun _ hx => hx
  have hfwd : c.direction = .forward → c.callState ≠ .collecting ∧ c.callState ≠ .offered := fun hd =>
    not_or.mp (h.called.forward hd)
  cases ha with
  | plain _ hp =>
    obtain ⟨hf, as, ho, ha⟩ := hp
    have ht : d.pending ⊆ c.pending := by
      rw [R2Chan.pending, show d.timers = c.timers from congrArg Frame.timers hf]
      exact hself
    exact h.same ⟨congrArg Frame.mfWriteHandle hf, congrArg Frame.mfReadHandle hf, as, ho,
      fun a hm => (ha a hm).apart⟩ (congrArg Frame.mfState hf) (congrArg Frame.direction hf)
      (congrArg Frame.callState hf) (congrArg Frame.r2State hf) ht
  | select tone => exact h.select tone
  | unready e he =>
    have hw := h.safe.writeInit false
    have hx : e.HandlesSafe keeps env b := by
      rcases he with rfl | rfl
      · exact hw
      · exact hw.readInit true
    exact R2Chan.Stocked.protoInit (hx.select 0)
  | init => exact R2Chan.Stocked.protoInit h.safe
  | block =>
    refine (R2Chan.Stocked.protoInit h.safe).relay fun _ => ⟨id, ?_⟩
    rintro (hx | hx) <;> cases hx
  | turnOff hw =>
    refine h.turnOff fun hs => ?_
    obtain ⟨hd, hr, hn⟩ := h.called (.inr hs)
    rcases hw with hw | hw
    · rcases hw hs with hw | hw | hw
      · exact absurd (hm.detect.symm.trans hw) (by rintro ⟨⟩)
      · exact h.called.outgoing hw (.inr hs)
      · exact hn (.inl hw)
    · exact hw
  | expire n => exact h.same (.same rfl rfl rfl) rfl rfl rfl rfl (List.map_subset _ List.eraseP_subset)
  | drop op ho =>
    exact h.same (.same rfl rfl rfl) rfl rfl rfl rfl (List.map_subset _ (ho.sublist c.timers).subset)
  | arm slot ms hx =>
    refine h.schedule (fun hcb => ?_) (.armTimer env slot ms _ c) (.armTimer env slot ms _ c)
      (R2Chan.armTimer_pending env slot ms _ c)
    rw [hcb] at hx
    exact hx
  | callDown ms ho =>
    exact h.schedule (by decide) (.addTimer env ms _ c) (.addTimer env ms _ c)
      (R2Chan.addTimer_pending env ms .r2SetCallDown c)
  | hop r hr => exact h.hop hr
  | signal m hs =>
    have hl : c.LeavesHandles (c.setMfState m) := .same rfl rfl rfl
    refine ⟨fun _ => hl.equips ?_, h.safe.leave hl, h.called, h.undialled⟩
    cases hs with
    | backward _ hg => exact hg.equips h
    | decide _ hc => exact h.engine (.inr hc)
    | forward _ _ ho => exact h.engine (.inl ho)
  | group g _ => exact h.same (.same rfl rfl rfl) rfl rfl rfl rfl hself
  | dial _ ho => exact ho.elim
  | dialMf m _ hr _ ho => exact h.dialMf ho hr m
  | dialDtmf ms _ hd => exact absurd (hm.dial.symm.trans hd) (by rintro ⟨⟩)
  | place ani dnis category r _ _ => exact h.place ani dnis category r
  | receiveMf w r _ hw hr => exact h.receiveMf hw hr
  | receiveDtmf _ hd => exact absurd (hm.detect.symm.trans hd) (by rintro ⟨⟩)
  | offer hc ho =>
    exact h.leave ⟨rfl, rfl, [.callState .offered, .event (.onCallOffered (cstr c.ani) (cstr c.dnis)
      (tone2category cx c.callerCategory) c.callerAniIsRestricted)],
      by simp [R2Chan.emit, R2Chan.did, R2Chan.setCallState], by simp [Act.Apart]⟩
      (fun _ => .inl (ho.resolve_right id)) (fun _ => h.called (.inl hc)) h.undialled
  | accept hd =>
    exact .over h.safe h.undialled ⟨rfl, rfl, [.callState .accepted], rfl, by simp [Act.Apart]⟩
      (turnOffMfEngine_is_off cx c) ⟨by rintro ⟨⟩, by rintro ⟨⟩⟩ fun _ hx => hx
  | accepted _ =>
    exact h.same (.did (a := .event (.onCallAccepted .unknown)) c trivial) rfl rfl rfl rfl hself
  | acceptTone mode hd _ _ =>
    exact h.settle ⟨rfl, rfl, [.event (.onCallAccepted mode)], rfl, by simp [Act.Apart]⟩ id (hfwd hd)
      h.undialled
  | dialled hd _ => exact h.dialled (hfwd hd)
  | answer a _ _ _ => exact h.answer
  | answered _ => exact h.answered
  | answeredDtmf _ hd _ => exact absurd (hm.dial.symm.trans hd) (by rintro ⟨⟩)
  | billing hr _ =>
    have hn : ¬ (c.callState = .collecting ∨ c.callState = .offered) := by
      refine h.called.outgoing (.inr (.inl ?_))
      rcases hr with hr | hr <;> rw [hr] <;> trivial
    exact h.settle ⟨rfl, rfl, [.event .onBillingPulseReceived], rfl, by simp [Act.Apart]⟩ id (not_or.mp hn)
      h.undialled
  | report cause _ =>
    exact h.settle ⟨rfl, rfl, [.callState .disconnected, .event (.onCallDisconnect cause)],
      by simp [reportCallDisconnection, R2Chan.emit, R2Chan.did, R2Chan.setCallState], by simp [Act.Apart]⟩ id
      ⟨by rintro ⟨⟩, by rintro ⟨⟩⟩ h.undialled
  | alarm on => exact h.same (.same rfl rfl rfl) rfl rfl rfl rfl hself

end Steps

end OpenR2
