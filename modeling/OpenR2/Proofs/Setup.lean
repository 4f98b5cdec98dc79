import OpenR2.Proofs.Posts

namespace OpenR2

open Link

/-- How far an outgoing call can be before its answer: the number is being sent, or
the call was accepted. -/
def CasState.Calling : CasState → Prop
  | .seizeAckRxd | .acceptRxd => True
  | _ => False

/-- What the two ends of a call in setup can be like, caller first, when no clear
forward and answer cross. -/
inductive SettingUp (cx : R2Context) : Post → Post → Prop where
  | waiting (r : CasState) (hr : r.Calling) (cs : CallState) :
      SettingUp cx ⟨.at .forward .dialing r 0xC, [], false, 0⟩
        ⟨.at .backward cs .seizeAckTxd 0x0, [], false, 0⟩
  | answering (r : CasState) (hr : r.Calling) :
      SettingUp cx ⟨.at .forward .dialing r 0xC, [cx.pattern .answer], false, 0⟩
        ⟨.at .backward .answered .answerTxd 0x0, [], false, 0⟩
  | answered (cs : CallState) (r : CasState) (hc : cs = .dialing ∨ cs = .answered)
      (hr : r = .answerRxdMfPending ∨ r = .answerRxd) :
      SettingUp cx ⟨.at .forward cs r 0x4, [], false, 0⟩
        ⟨.at .backward .answered .answerTxd 0x0, [], false, 0⟩
  | clearing (cs : CallState) :
      SettingUp cx ⟨.at .forward .dialing .clearFwdTxd 0xC, [], true, 0⟩
        ⟨.at .backward cs .seizeAckTxd 0x0, [cx.pattern .clearForward], false, 0⟩
  | clearingAnswered (cs : CallState) :
      SettingUp cx ⟨.at .forward cs .clearFwdTxd 0x4, [], true, 0⟩
        ⟨.at .backward .answered .answerTxd 0x0, [cx.pattern .clearForward], false, 0⟩
  | cleared (cs : CallState) (read : Nat) :
      SettingUp cx ⟨.at .forward cs .clearFwdTxd read, [], true, 0⟩
        ⟨.at .backward .disconnected .clearFwdRxd 0x8, [], false, 0⟩

namespace Peers

/-- The caller does not clear against an answer that is on its way, and the callee
does not answer against a clear forward. -/
def Untangled (cx : R2Context) (m : SetupMove) (s : Peers) : Prop :=
  match m with
  | .hear _ => True
  | .disconnect => cx.pattern .answer ∉ s.net.inbox .left
  | .answer => cx.pattern .clearForward ∉ s.net.inbox .right

/-- A call whose seize is acknowledged, before its answer. -/
structure Dialing (s : Peers) : Prop where
  caller : ∃ r : CasState, r.Calling ∧ (s.net.party .left).start.wire = .at .forward .dialing r 0xC
  callee : ∃ cs : CallState, (s.net.party .right).start.wire = .at .backward cs .seizeAckTxd 0x0
  quiet : ∀ i, s.net.inbox i = []
  fresh : ∀ i, s.net.did i = []
  cleared : ∀ i, s.cleared i = false

end Peers

section Steps

variable {cx : R2Context} {s s' : Peers}

/-- What a step without a crossing preserves. -/
theorem SettingUp.step {m : Peers.SetupMove} (h : s.Meets (SettingUp cx)) (hp : cx.Plain)
    (hs : s.SetupStep cx m s') (hu : s.Untangled cx m) : s'.Meets (SettingUp cx) := by
  obtain ⟨hc, hf⟩ := h
  generalize hl : s.post .left = l at hc
  generalize hr : s.post .right = r at hc
  cases hs with
  | hear _ i env bits rest hi he =>
    have hq : (s.post i).inbox = bits :: rest := hi
    cases i with
    | left =>
      rw [hl] at hq
      cases hc with
      | answering r hr' =>
        obtain ⟨rfl, rfl⟩ := List.cons.inj hq
        cases r <;> try exact hr'.elim
        · exact .hearLeft hp hf hl hr he rfl ⟨rfl, rfl⟩ (.answered _ _ (.inl rfl) (.inl rfl))
        · exact .hearLeft hp hf hl hr he rfl ⟨rfl, rfl⟩ (.answered _ _ (.inr rfl) (.inr rfl))
      | _ => exact nomatch hq
    | right =>
      rw [hr] at hq
      cases hc with
      | clearing cs =>
        obtain ⟨rfl, rfl⟩ := List.cons.inj hq
        exact .hearRight hp hf hl hr he rfl ⟨rfl, rfl⟩ (.cleared _ _)
      | clearingAnswered cs =>
        obtain ⟨rfl, rfl⟩ := List.cons.inj hq
        exact .hearRight hp hf hl hr he rfl ⟨rfl, rfl⟩ (.cleared _ _)
      | _ => exact nomatch hq
  | disconnect _ env cause hi he =>
    have hq : (s.post .left).cleared = false := hi
    have hq' : cx.pattern .answer ∉ (s.post .left).inbox := hu
    rw [hl] at hq hq'
    cases hc with
    | waiting r hr' cs =>
      cases r <;> try exact hr'.elim
      all_goals exact .disconnectLeft hp hf hl hr he rfl (.clearing cs)
    | answering r hr' => exact absurd (List.mem_singleton.mpr rfl) hq'
    | answered cs r hc hr' =>
      rcases hc with rfl | rfl <;> rcases hr' with rfl | rfl <;>
        exact .disconnectLeft hp hf hl hr he rfl (.clearingAnswered _)
    | _ => exact nomatch hq
  | answer _ env a ha hi he =>
    have hq : (s.post .right).wire.callState = .accepted := hi
    have hq' : cx.pattern .clearForward ∉ (s.post .right).inbox := hu
    rw [hr] at hq hq'
    cases hc with
    | waiting r hr' cs =>
      obtain rfl : cs = .accepted := hq
      exact .answerRight hp hf hl hr he ha rfl (.answering r hr')
    | clearing cs => exact absurd (List.mem_singleton.mpr rfl) hq'
    | _ => exact nomatch hq

end Steps

section Runs

variable {cx : R2Context} {s s' : Peers}

theorem dialing_settingUp (h : s.Dialing) : s.Meets (SettingUp cx) := by
  have hp : ∀ i w, (s.net.party i).start.wire = w → s.post i = ⟨w, [], false, 0⟩ := by
    intro i w hw
    simp [Peers.post, Peers.events, hw, h.quiet, h.fresh, h.cleared]
  obtain ⟨r, hr, hw⟩ := h.caller
  obtain ⟨cs, hc⟩ := h.callee
  refine ⟨?_, fun i => by simp [Peers.events, h.fresh, Faultless]⟩
  rw [hp _ _ hw, hp _ _ hc]
  exact .waiting r hr cs

/-- In every run without a crossing of clear forward and answer, each side finds a
meaning in every pattern. -/
theorem setup_untangled (hp : cx.Plain) (hs : s.Dialing)
    (hr : Relation.ReflTransGen (fun s s' => ∃ m, s.SetupStep cx m s' ∧ s.Untangled cx m) s s')
    (i : Side) : .onProtocolError .invalidCasBits ∉ s'.events i := by
  have h : s'.Meets (SettingUp cx) := by
    induction hr with
    | refl => exact dialing_settingUp hs
    | tail _ ht ih =>
      obtain ⟨m, ht, hu⟩ := ht
      exact SettingUp.step ih hp ht hu
  exact h.faultless i _

/-- The call is answered, and then the caller clears. -/
theorem setup_untangled_answered :
    let s := Peers.between (briefCaller 5) (briefCallee 9)
    let s₁ := s.input briefCx .right ⟨Env.fair 0, .api .answerCall⟩
    let s₂ := s₁.hear briefCx .left (Env.fair 0x5) []
    let s₃ := s₂.disconnect briefCx .left (Env.fair 0) .normalClearing
    .onProtocolError .invalidCasBits ∉ s₃.events .left := by
  intro s s₁ s₂ s₃
  have h₁ : s.SetupStep briefCx .answer s₁ := .answer s _ _ (.inl rfl) rfl (Env.fair_sound 0)
  have h₂ : s₁.SetupStep briefCx (.hear .left) s₂ := .hear s₁ _ _ 0x5 [] rfl (Env.fair_shows 0x5)
  have h₃ : s₂.SetupStep briefCx .disconnect s₃ := .disconnect s₂ _ _ rfl (Env.fair_sound 0)
  exact setup_untangled briefCx_plain
    ⟨⟨.acceptRxd, trivial, rfl⟩, ⟨.accepted, rfl⟩, fun _ => rfl, fun _ => rfl, fun _ => rfl⟩
    (((Relation.ReflTransGen.single ⟨_, h₁, List.not_mem_nil⟩).tail ⟨_, h₂, trivial⟩).tail
      ⟨_, h₃, List.not_mem_nil⟩) .left

/-- The callee answers while the clear forward is on its way to it. -/
theorem crossing_answer_fails :
    ¬ ∀ (cx : R2Context) (s s' : Peers), cx.Plain → s.Dialing →
      Relation.ReflTransGen (fun s s' => ∃ m, s.SetupStep cx m s') s s' →
      ∀ i, .onProtocolError .invalidCasBits ∉ s'.events i := by
  intro h
  let s := Peers.between (briefCaller 5) (briefCallee 9)
  let s₁ := s.disconnect briefCx .left (Env.fair 0) .normalClearing
  let s₂ := s₁.input briefCx .right ⟨Env.fair 0, .api .answerCall⟩
  let s₃ := s₂.hear briefCx .left (Env.fair 0x5) []
  have h₁ : s.SetupStep briefCx .disconnect s₁ := .disconnect s _ _ rfl (Env.fair_sound 0)
  have h₂ : s₁.SetupStep briefCx .answer s₂ := .answer s₁ _ _ (.inl rfl) rfl (Env.fair_sound 0)
  have h₃ : s₂.SetupStep briefCx (.hear .left) s₃ := .hear s₂ _ _ 0x5 [] rfl (Env.fair_shows 0x5)
  refine h briefCx s s₃ briefCx_plain
    ⟨⟨.acceptRxd, trivial, rfl⟩, ⟨.accepted, rfl⟩, fun _ => rfl, fun _ => rfl, fun _ => rfl⟩
    (((Relation.ReflTransGen.single ⟨_, h₁⟩).tail ⟨_, h₂⟩).tail ⟨_, h₃⟩) .left ?_
  decide

end Runs

end OpenR2
