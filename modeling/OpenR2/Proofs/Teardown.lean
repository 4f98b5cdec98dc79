import OpenR2.Proofs.Posts

namespace OpenR2

open Link

/-- The two signals with which a callee clears an answered call. -/
inductive Release where
  | clearBack | forced
  deriving DecidableEq, Repr

namespace Release

def signal : Release → CasSignal
  | clearBack => .clearBack
  | forced => .forcedRelease

/-- The state of the callee that has sent it. -/
def txd : Release → CasState
  | clearBack => .clearBackTxd
  | forced => .forcedReleaseTxd

/-- The state of the caller that has received it in a call. -/
def rxd : Release → CasState
  | clearBack => .clearBackRxd
  | forced => .forcedReleaseRxd

def bits (r : Release) : Nat := standardCasSignals r.signal

end Release

/-- How far the two ends of an answered call can be in clearing it, caller first, and
how many steps are left at most. -/
inductive Clearing (cx : R2Context) : Nat → Post → Post → Prop where
  | talking : Clearing cx 6 ⟨.at .forward .answered .answerRxd 0x4, [], false, 0⟩
      ⟨.at .backward .answered .answerTxd 0x0, [], false, 0⟩
  | releasing (r : Release) :
      Clearing cx 5 ⟨.at .forward .answered .answerRxd 0x4, [cx.pattern r.signal], false, 0⟩
        ⟨.at .backward .answered r.txd 0x0, [], true, 0⟩
  | released (r : Release) :
      Clearing cx 4 ⟨.at .forward .disconnected r.rxd r.bits, [], false, 0⟩
        ⟨.at .backward .answered r.txd 0x0, [], true, 0⟩
  | clearing : Clearing cx 5 ⟨.at .forward .answered .clearFwdTxd 0x4, [], true, 0⟩
      ⟨.at .backward .answered .answerTxd 0x0, [cx.pattern .clearForward], false, 0⟩
  | cleared : Clearing cx 4 ⟨.at .forward .answered .clearFwdTxd 0x4, [], true, 0⟩
      ⟨.at .backward .disconnected .clearFwdRxd 0x8, [], false, 0⟩
  | clearedEnd : Clearing cx 2 ⟨.at .forward .answered .clearFwdTxd 0x4, [cx.pattern .idle], true, 0⟩
      ⟨.rest, [], true, 1⟩
  | crossing (r : Release) :
      Clearing cx 4 ⟨.at .forward .answered .clearFwdTxd 0x4, [cx.pattern r.signal], true, 0⟩
        ⟨.at .backward .answered r.txd 0x0, [cx.pattern .clearForward], true, 0⟩
  | crossingEnd (r : Release) :
      Clearing cx 3 ⟨.at .forward .answered .clearFwdTxd 0x4,
          [cx.pattern r.signal, cx.pattern .idle], true, 0⟩ ⟨.rest, [], true, 1⟩
  | crossed (r : Release) :
      Clearing cx 3 ⟨.at .forward .answered .clearBackAfterClearFwdRxd r.bits, [], true, 0⟩
        ⟨.at .backward .answered r.txd 0x0, [cx.pattern .clearForward], true, 0⟩
  | crossedEnd (r : Release) :
      Clearing cx 2 ⟨.at .forward .answered .clearBackAfterClearFwdRxd r.bits,
          [cx.pattern .idle], true, 0⟩ ⟨.rest, [], true, 1⟩
  | answering (r : Release) :
      Clearing cx 3 ⟨.at .forward .disconnected .clearFwdTxd r.bits, [], true, 0⟩
        ⟨.at .backward .answered r.txd 0x0, [cx.pattern .clearForward], true, 0⟩
  | answeringEnd (r : Release) :
      Clearing cx 2 ⟨.at .forward .disconnected .clearFwdTxd r.bits, [cx.pattern .idle], true, 0⟩
        ⟨.rest, [], true, 1⟩
  | ended : Clearing cx 1 ⟨.rest, [], true, 1⟩ ⟨.rest, [cx.pattern .idle], true, 1⟩
  | done : Clearing cx 0 ⟨.rest, [], true, 1⟩ ⟨.rest, [], true, 1⟩

section Steps

variable {cx : R2Context} {s : Peers} {env : Env} {rest : List Nat} {n : Nat}

/-- What the arrival of a pattern preserves. -/
theorem Clearing.hear (h : s.Meets (Clearing cx n)) (hp : cx.Plain) (i : Side) {bits : Nat}
    (hi : s.net.inbox i = bits :: rest) (he : env.Shows bits) :
    ∃ m < n, (s.hear cx i env rest).Meets (Clearing cx m) := by
  obtain ⟨hc, hf⟩ := h
  have hq : (s.post i).inbox = bits :: rest := hi
  cases i with
  | left =>
    generalize hl : s.post .left = l at hc hq
    generalize hr : s.post .right = r at hc
    cases hc with
    | releasing x =>
      obtain ⟨rfl, rfl⟩ := List.cons.inj hq
      cases x
      · exact ⟨_, by decide, .hearLeft hp hf hl hr he rfl ⟨rfl, rfl⟩ (.released .clearBack)⟩
      · exact ⟨_, by decide, .hearLeft hp hf hl hr he rfl ⟨rfl, rfl⟩ (.released .forced)⟩
    | clearedEnd =>
      obtain ⟨rfl, rfl⟩ := List.cons.inj hq
      exact ⟨_, by decide, .hearLeft hp hf hl hr he rfl ⟨rfl, rfl⟩ .ended⟩
    | crossing x =>
      obtain ⟨rfl, rfl⟩ := List.cons.inj hq
      cases x
      · exact ⟨_, by decide, .hearLeft hp hf hl hr he rfl ⟨rfl, rfl⟩ (.crossed .clearBack)⟩
      · exact ⟨_, by decide, .hearLeft hp hf hl hr he rfl ⟨rfl, rfl⟩ (.crossed .forced)⟩
    | crossingEnd x =>
      obtain ⟨rfl, rfl⟩ := List.cons.inj hq
      cases x
      · exact ⟨_, by decide, .hearLeft hp hf hl hr he rfl ⟨rfl, rfl⟩ (.crossedEnd .clearBack)⟩
      · exact ⟨_, by decide, .hearLeft hp hf hl hr he rfl ⟨rfl, rfl⟩ (.crossedEnd .forced)⟩
    | crossedEnd x =>
      obtain ⟨rfl, rfl⟩ := List.cons.inj hq
      cases x
      · exact ⟨_, by decide, .hearLeft hp hf hl hr he rfl ⟨rfl, rfl⟩ .ended⟩
      · exact ⟨_, by decide, .hearLeft hp hf hl hr he rfl ⟨rfl, rfl⟩ .ended⟩
    | answeringEnd x =>
      obtain ⟨rfl, rfl⟩ := List.cons.inj hq
      cases x
      · exact ⟨_, by decide, .hearLeft hp hf hl hr he rfl ⟨rfl, rfl⟩ .ended⟩
      · exact ⟨_, by decide, .hearLeft hp hf hl hr he rfl ⟨rfl, rfl⟩ .ended⟩
    | _ => exact nomatch hq
  | right =>
    generalize hl : s.post .left = l at hc
    generalize hr : s.post .right = r at hc hq
    cases hc with
    | clearing =>
      obtain ⟨rfl, rfl⟩ := List.cons.inj hq
      exact ⟨_, by decide, .hearRight hp hf hl hr he rfl ⟨rfl, rfl⟩ .cleared⟩
    | crossing x =>
      obtain ⟨rfl, rfl⟩ := List.cons.inj hq
      cases x
      · exact ⟨_, by decide, .hearRight hp hf hl hr he rfl ⟨rfl, rfl⟩ (.crossingEnd .clearBack)⟩
      · exact ⟨_, by decide, .hearRight hp hf hl hr he rfl ⟨rfl, rfl⟩ (.crossingEnd .forced)⟩
    | crossed x =>
      obtain ⟨rfl, rfl⟩ := List.cons.inj hq
      cases x
      · exact ⟨_, by decide, .hearRight hp hf hl hr he rfl ⟨rfl, rfl⟩ (.crossedEnd .clearBack)⟩
      · exact ⟨_, by decide, .hearRight hp hf hl hr he rfl ⟨rfl, rfl⟩ (.crossedEnd .forced)⟩
    | answering x =>
      obtain ⟨rfl, rfl⟩ := List.cons.inj hq
      cases x
      · exact ⟨_, by decide, .hearRight hp hf hl hr he rfl ⟨rfl, rfl⟩ (.answeringEnd .clearBack)⟩
      · exact ⟨_, by decide, .hearRight hp hf hl hr he rfl ⟨rfl, rfl⟩ (.answeringEnd .forced)⟩
    | ended =>
      obtain ⟨rfl, rfl⟩ := List.cons.inj hq
      exact ⟨_, by decide, .hearRight hp hf hl hr he rfl ⟨rfl, rfl⟩ .done⟩
    | _ => exact nomatch hq

/-- The signal that a callee clears with. -/
def DisconnectCause.release (cause : DisconnectCause) : Release :=
  if cause = .forcedRelease then .forced else .clearBack

/-- What the call of a user preserves. -/
theorem Clearing.disconnect (h : s.Meets (Clearing cx n)) (hp : cx.Plain) (i : Side) (he : env.Sound)
    (cause : DisconnectCause) (hi : s.cleared i = false) :
    ∃ m < n, (s.disconnect cx i env cause).Meets (Clearing cx m) := by
  obtain ⟨hc, hf⟩ := h
  have hq : (s.post i).cleared = false := hi
  cases i with
  | left =>
    generalize hl : s.post .left = l at hc hq
    generalize hr : s.post .right = r at hc
    cases hc with
    | talking => exact ⟨_, by decide, .disconnectLeft hp hf hl hr he rfl .clearing⟩
    | releasing x =>
      cases x
      · exact ⟨_, by decide, .disconnectLeft hp hf hl hr he rfl (.crossing .clearBack)⟩
      · exact ⟨_, by decide, .disconnectLeft hp hf hl hr he rfl (.crossing .forced)⟩
    | released x =>
      cases x
      · exact ⟨_, by decide, .disconnectLeft hp hf hl hr he rfl (.answering .clearBack)⟩
      · exact ⟨_, by decide, .disconnectLeft hp hf hl hr he rfl (.answering .forced)⟩
    | _ => exact nomatch hq
  | right =>
    generalize hl : s.post .left = l at hc
    generalize hr : s.post .right = r at hc hq
    cases hc with
    | talking =>
      cases cause
      case forcedRelease => exact ⟨_, by decide, .disconnectRight hp hf hl hr he rfl (.releasing .forced)⟩
      all_goals exact ⟨_, by decide, .disconnectRight hp hf hl hr he rfl (.releasing .clearBack)⟩
    | clearing =>
      cases cause
      case forcedRelease => exact ⟨_, by decide, .disconnectRight hp hf hl hr he rfl (.crossing .forced)⟩
      all_goals exact ⟨_, by decide, .disconnectRight hp hf hl hr he rfl (.crossing .clearBack)⟩
    | cleared => exact ⟨_, by decide, .disconnectRight hp hf hl hr he rfl .clearedEnd⟩
    | _ => exact nomatch hq

theorem Clearing.step {s' : Peers} (h : s.Meets (Clearing cx n)) (hp : cx.Plain)
    (hs : Peers.TeardownStep cx s s') : ∃ m < n, s'.Meets (Clearing cx m) := by
  cases hs with
  | hear i env bits rest hi he => exact Clearing.hear h hp i hi he
  | disconnect i env cause hi he => exact Clearing.disconnect h hp i he cause hi

end Steps

namespace Peers

/-- An answered call, before anybody clears it. -/
structure InCall (s : Peers) : Prop where
  caller : (s.net.party .left).start.wire = .at .forward .answered .answerRxd 0x4
  callee : (s.net.party .right).start.wire = .at .backward .answered .answerTxd 0x0
  quiet : ∀ i, s.net.inbox i = []
  fresh : ∀ i, s.net.did i = []
  cleared : ∀ i, s.cleared i = false

/-- Both users have disconnected, and no pattern is on its way. -/
def Over (s : Peers) : Prop := ∀ i, s.cleared i = true ∧ s.net.inbox i = []

end Peers

section Runs

variable {cx : R2Context} {s s' : Peers}

theorem inCall_clearing (h : s.InCall) : s.Meets (Clearing cx 6) := by
  have hp : ∀ i w, (s.net.party i).start.wire = w → s.post i = ⟨w, [], false, 0⟩ := by
    intro i w hw
    simp [Peers.post, Peers.events, hw, h.quiet, h.fresh, h.cleared]
  refine ⟨?_, fun i => by simp [Peers.events, h.fresh, Faultless]⟩
  rw [hp _ _ h.caller, hp _ _ h.callee]
  exact .talking

/-- What a run preserves. -/
theorem Clearing.run {n : Nat} (hp : cx.Plain) (h : s.Meets (Clearing cx n))
    (hr : Relation.ReflTransGen (Peers.TeardownStep cx) s s') :
    ∃ m, s'.Meets (Clearing cx m) := by
  induction hr with
  | refl => exact ⟨n, h⟩
  | tail _ hs ih =>
    obtain ⟨m, ih⟩ := ih
    obtain ⟨k, -, hk⟩ := Clearing.step ih hp hs
    exact ⟨k, hk⟩

/-- As long as the call is not over, a user or a pattern is to come. -/
theorem teardown_progress (s : Peers) : s.Over ∨ ∃ t, Peers.TeardownStep cx s t := by
  by_cases h : s.Over
  · exact .inl h
  · obtain ⟨i, hi⟩ := not_forall.mp h
    right
    cases hc : s.cleared i with
    | false => exact ⟨_, .disconnect s i (Env.fair 0) .normalClearing hc (Env.fair_sound 0)⟩
    | true =>
      cases hq : s.net.inbox i with
      | nil => exact absurd ⟨hc, hq⟩ hi
      | cons bits rest => exact ⟨_, .hear s i (Env.fair bits) bits rest hq (Env.fair_shows bits)⟩

/-- Of every clearing that is over, both channels are at rest. -/
theorem Clearing.isOver {n : Nat} {l r : Post} (h : Clearing cx n l r) (hl : l.cleared = true)
    (hr : r.cleared = true) (hi : l.inbox = []) (hj : r.inbox = []) :
    l.wire = .rest ∧ l.ends = 1 ∧ r.wire = .rest ∧ r.ends = 1 := by
  cases h with
  | done => exact ⟨rfl, rfl, rfl, rfl⟩
  | _ => simp_all

theorem Clearing.ends_le {n : Nat} {l r : Post} (h : Clearing cx n l r) :
    l.ends ≤ 1 ∧ r.ends ≤ 1 := by
  cases h <;> simp

/-- However the two users and the patterns take their turns, an answered call is
cleared in six steps, without a protocol error, and its end is told once on each side. -/
theorem teardown_clean (hp : cx.Plain) (hs : s.InCall) :
    Within (Peers.TeardownStep cx) Peers.Over 6 s ∧
      ∀ s', Relation.ReflTransGen (Peers.TeardownStep cx) s s' →
        (∀ i, Faultless (s'.events i) ∧ (s'.events i).count .onCallEnd ≤ 1) ∧
        (s'.Over → ∀ i, (s'.net.party i).r2State = .idle ∧ (s'.net.party i).callState = .idle ∧
          (s'.events i).count .onCallEnd = 1) := by
  refine ⟨Within.of_measure (fun n s t (h : s.Meets (Clearing cx n)) ht => Clearing.step h hp ht)
    (fun _ s _ => teardown_progress s) (inCall_clearing hs), fun s' hr => ?_⟩
  obtain ⟨m, hc, hf⟩ := Clearing.run hp (inCall_clearing hs) hr
  refine ⟨fun i => ⟨hf i, ?_⟩, fun ho => ?_⟩
  · obtain ⟨hl, hr⟩ := hc.ends_le
    cases i with
    | left => exact hl
    | right => exact hr
  · obtain ⟨hl, hle, hr, hre⟩ := hc.isOver (ho .left).1 (ho .right).1 (ho .left).2 (ho .right).2
    intro i
    cases i with
    | left => exact ⟨congrArg Wire.r2State hl, congrArg Wire.callState hl, hle⟩
    | right => exact ⟨congrArg Wire.r2State hr, congrArg Wire.callState hr, hre⟩

theorem teardown_clean_brief :
    Within (Peers.TeardownStep briefCx) Peers.Over 6 (.between (briefCaller 6) (briefCallee 10)) ∧
      ∀ s', Relation.ReflTransGen (Peers.TeardownStep briefCx)
          (.between (briefCaller 6) (briefCallee 10)) s' →
        (∀ i, Faultless (s'.events i) ∧ (s'.events i).count .onCallEnd ≤ 1) ∧
        (s'.Over → ∀ i, (s'.net.party i).r2State = .idle ∧ (s'.net.party i).callState = .idle ∧
          (s'.events i).count .onCallEnd = 1) :=
  teardown_clean briefCx_plain ⟨rfl, rfl, fun _ => rfl, fun _ => rfl, fun _ => rfl⟩

end Runs

end OpenR2
