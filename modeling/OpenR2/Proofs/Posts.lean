import OpenR2.Proofs.Wire

namespace OpenR2

open Link

/-- One side of a line as the argument needs it: the protocol state between two steps,
the patterns on their way, whether the user has disconnected, and how often the end of
the call was told. -/
structure Post where
  wire : Wire
  inbox : List Nat
  cleared : Bool
  ends : Nat

/-- No protocol error among these events. -/
def Faultless (es : List Event) : Prop := ∀ reason, .onProtocolError reason ∉ es

theorem Faultless.append {es fs : List Event} (he : Faultless es) (hf : Faultless fs) :
    Faultless (es ++ fs) := fun r hr => (List.mem_append.mp hr).elim (he r) (hf r)

/-- The line protocol knows no errors. -/
theorem Wire.hear_faultless {cx : R2Context} {sig : CasSignal} {w w' : Wire} (hw : w.told = [])
    (h : w.hear cx sig = some w') : Faultless w'.told := by
  simp only [Wire.hear] at h
  split_ifs at h
  · rw [← Option.some.inj h, hw]
    simp [Faultless]
  · cases hr : w.r2State <;> simp only [Wire.react, hr] at h
    all_goals try split_ifs at h
    all_goals
      cases h
      try simp [Faultless, Wire.tell, Wire.report, Wire.finish, Wire.reset, Wire.send, hw]

theorem Wire.disconnect_faultless {cx : R2Context} {cause : DisconnectCause} {w w' : Wire}
    (hw : w.told = []) (h : w.disconnect cx cause = some w') : Faultless w'.told := by
  simp only [Wire.disconnect] at h
  split_ifs at h <;> cases h <;> simp [Faultless, Wire.tell, Wire.finish, Wire.reset, Wire.send, hw]

theorem Wire.answer_faultless {cx : R2Context} {w w' : Wire} (hw : w.told = [])
    (h : w.answer cx = some w') : Faultless w'.told := by
  simp only [Wire.answer] at h
  split_ifs at h
  cases h
  simp [Faultless, Wire.send, hw]

namespace Peers

variable {cx : R2Context} {env : Env} {s : Peers}

def post (s : Peers) (i : Side) : Post where
  wire := (s.net.party i).start.wire
  inbox := s.net.inbox i
  cleared := s.cleared i
  ends := (s.events i).count .onCallEnd

theorem start_wire (c : R2Chan) : c.start.wire = c.wire.settle := rfl

/-- What an input to one side changes. -/
theorem input_post (i : Side) (t : Tick) {w : Wire}
    (hw : (step cx t.env t.input (s.net.party i)).wire = w) :
    (s.input cx i t).post i =
        { s.post i with wire := w.settle, ends := (s.post i).ends + w.told.count .onCallEnd } ∧
      (s.input cx i t).post i.peer =
        { s.post i.peer with inbox := (s.post i.peer).inbox ++ w.sent } ∧
      (s.input cx i t).events i = s.events i ++ w.told ∧
      (s.input cx i t).events i.peer = s.events i.peer := by
  subst hw
  have he : (s.input cx i t).events i = s.events i ++ (step cx t.env t.input (s.net.party i)).wire.told := by
    simp [events, input, List.filterMap_append, tick, R2Chan.wire]
  have hp : (s.input cx i t).events i.peer = s.events i.peer := by simp [events, input]
  refine ⟨?_, ?_, he, hp⟩
  · simp only [post, he, List.count_append]
    simp [input, tick, start_wire]
  · simp only [post, hp]
    simp [input, tick, R2Chan.wire]

/-- The next pattern is read. -/
theorem hear_post (hp : cx.Plain) {i : Side} {sig : CasSignal} {rest : List Nat}
    (he : env.Shows (cx.pattern sig)) {w : Wire} (hc : (s.post i).wire.Calm)
    (hw : (s.post i).wire.hear cx sig = some w) :
    (s.hear cx i env rest).post i =
        ⟨w.settle, rest, (s.post i).cleared, (s.post i).ends + w.told.count .onCallEnd⟩ ∧
      (s.hear cx i env rest).post i.peer =
        { s.post i.peer with inbox := (s.post i.peer).inbox ++ w.sent } ∧
      (s.hear cx i env rest).events i = s.events i ++ w.told ∧
      (s.hear cx i env rest).events i.peer = s.events i.peer := by
  have hs : ({ s with net := s.net.take i rest } : Peers).post i = { s.post i with inbox := rest } := by
    simp [post, events]
  have ho : ({ s with net := s.net.take i rest } : Peers).post i.peer = s.post i.peer := by
    simp [post, events]
  obtain ⟨h1, h2, h3, h4⟩ := @input_post cx { s with net := s.net.take i rest } i
    ⟨env, .cas⟩ _ (step_hear hp he hc hw)
  exact ⟨by rw [hear, h1, hs], by rw [hear, h2, ho], h3, h4⟩

/-- The user of one side disconnects. -/
theorem disconnect_post (hp : cx.Plain) {i : Side} (he : env.Sound) {cause : DisconnectCause}
    {w : Wire} (hw : (s.post i).wire.disconnect cx cause = some w) :
    (s.disconnect cx i env cause).post i =
        ⟨w.settle, (s.post i).inbox, true, (s.post i).ends + w.told.count .onCallEnd⟩ ∧
      (s.disconnect cx i env cause).post i.peer =
        { s.post i.peer with inbox := (s.post i.peer).inbox ++ w.sent } ∧
      (s.disconnect cx i env cause).events i = s.events i ++ w.told ∧
      (s.disconnect cx i env cause).events i.peer = s.events i.peer := by
  obtain ⟨h1, h2, h3, h4⟩ := input_post (s := s) i ⟨env, .api (.disconnectCall cause)⟩
    (step_disconnect hp he hw)
  refine ⟨?_, ?_, h3, h4⟩
  · have hd : (s.disconnect cx i env cause).post i =
        { (s.input cx i ⟨env, .api (.disconnectCall cause)⟩).post i with cleared := true } := by
      simp [disconnect, post, events]
    rw [hd, h1]
  · have hd : (s.disconnect cx i env cause).post i.peer =
        (s.input cx i ⟨env, .api (.disconnectCall cause)⟩).post i.peer := by
      simp [disconnect, post, events]
    rw [hd, h2]

/-- The user of one side answers. -/
theorem answer_post (hp : cx.Plain) {i : Side} (he : env.Sound) {a : ApiCall}
    (ha : a = .answerCall ∨ a = .answerCallWithMode .simple) {w : Wire}
    (hw : (s.post i).wire.answer cx = some w) :
    (s.input cx i ⟨env, .api a⟩).post i =
        { s.post i with wire := w.settle, ends := (s.post i).ends + w.told.count .onCallEnd } ∧
      (s.input cx i ⟨env, .api a⟩).post i.peer =
        { s.post i.peer with inbox := (s.post i.peer).inbox ++ w.sent } ∧
      (s.input cx i ⟨env, .api a⟩).events i = s.events i ++ w.told ∧
      (s.input cx i ⟨env, .api a⟩).events i.peer = s.events i.peer :=
  input_post i ⟨env, .api a⟩ (step_answer hp he ha hw)

end Peers

/-- A resting protocol state. -/
def Wire.at (d : Direction) (cs : CallState) (r : CasState) (read : Nat) : Wire :=
  ⟨d, cs, r, read, false, none, [], []⟩

def Wire.rest : Wire := .at .stopped .idle .idle 0x8

/-- The two sides are as described, caller first, and nobody was told of an error. -/
structure Peers.Meets (p : Post → Post → Prop) (s : Peers) : Prop where
  posts : p (s.post .left) (s.post .right)
  faultless : ∀ i, Faultless (s.events i)

section Steps

variable {cx : R2Context} {s : Peers} {env : Env} {l r : Post} {w : Wire} {p : Post → Post → Prop}

/-- What an input to one side leads to, from what it changes. -/
theorem Peers.Meets.left {s' : Peers} (hf : ∀ i, Faultless (s.events i)) (ht : Faultless w.told)
    (h1 : s'.post .left = l) (h2 : s'.post .right = r)
    (h3 : s'.events .left = s.events .left ++ w.told) (h4 : s'.events .right = s.events .right)
    (hp : p l r) : s'.Meets p := by
  refine ⟨by rw [h1, h2]; exact hp, fun i => ?_⟩
  cases i with
  | left => exact h3 ▸ (hf _).append ht
  | right => exact h4 ▸ hf _

theorem Peers.Meets.right {s' : Peers} (hf : ∀ i, Faultless (s.events i)) (ht : Faultless w.told)
    (h1 : s'.post .right = r) (h2 : s'.post .left = l)
    (h3 : s'.events .right = s.events .right ++ w.told) (h4 : s'.events .left = s.events .left)
    (hp : p l r) : s'.Meets p := by
  refine ⟨by rw [h1, h2]; exact hp, fun i => ?_⟩
  cases i with
  | left => exact h4 ▸ hf _
  | right => exact h3 ▸ (hf _).append ht

variable {sig : CasSignal} {rest : List Nat} {cause : DisconnectCause}

theorem Peers.Meets.hearLeft (hx : cx.Plain) (hf : ∀ i, Faultless (s.events i))
    (hl : s.post .left = l) (hr : s.post .right = r) (he : env.Shows (cx.pattern sig))
    (hw : l.wire.hear cx sig = some w) (hk : l.wire.Calm)
    (hp : p ⟨w.settle, rest, l.cleared, l.ends + w.told.count .onCallEnd⟩
      { r with inbox := r.inbox ++ w.sent }) : (s.hear cx .left env rest).Meets p := by
  subst hl hr
  obtain ⟨h1, h2, h3, h4⟩ := @Peers.hear_post _ _ _ hx .left _ rest he _ hk hw
  exact .left hf (Wire.hear_faultless rfl hw) h1 h2 h3 h4 hp

theorem Peers.Meets.hearRight (hx : cx.Plain) (hf : ∀ i, Faultless (s.events i))
    (hl : s.post .left = l) (hr : s.post .right = r) (he : env.Shows (cx.pattern sig))
    (hw : r.wire.hear cx sig = some w) (hk : r.wire.Calm)
    (hp : p { l with inbox := l.inbox ++ w.sent }
      ⟨w.settle, rest, r.cleared, r.ends + w.told.count .onCallEnd⟩) :
    (s.hear cx .right env rest).Meets p := by
  subst hl hr
  obtain ⟨h1, h2, h3, h4⟩ := @Peers.hear_post _ _ _ hx .right _ rest he _ hk hw
  exact .right hf (Wire.hear_faultless rfl hw) h1 h2 h3 h4 hp

theorem Peers.Meets.disconnectLeft (hx : cx.Plain) (hf : ∀ i, Faultless (s.events i))
    (hl : s.post .left = l) (hr : s.post .right = r) (he : env.Sound)
    (hw : l.wire.disconnect cx cause = some w)
    (hp : p ⟨w.settle, l.inbox, true, l.ends + w.told.count .onCallEnd⟩
      { r with inbox := r.inbox ++ w.sent }) : (s.disconnect cx .left env cause).Meets p := by
  subst hl hr
  obtain ⟨h1, h2, h3, h4⟩ := Peers.disconnect_post (i := .left) hx he hw
  exact .left hf (Wire.disconnect_faultless rfl hw) h1 h2 h3 h4 hp

theorem Peers.Meets.disconnectRight (hx : cx.Plain) (hf : ∀ i, Faultless (s.events i))
    (hl : s.post .left = l) (hr : s.post .right = r) (he : env.Sound)
    (hw : r.wire.disconnect cx cause = some w)
    (hp : p { l with inbox := l.inbox ++ w.sent }
      ⟨w.settle, r.inbox, true, r.ends + w.told.count .onCallEnd⟩) :
    (s.disconnect cx .right env cause).Meets p := by
  subst hl hr
  obtain ⟨h1, h2, h3, h4⟩ := Peers.disconnect_post (i := .right) hx he hw
  exact .right hf (Wire.disconnect_faultless rfl hw) h1 h2 h3 h4 hp

theorem Peers.Meets.answerRight (hx : cx.Plain) (hf : ∀ i, Faultless (s.events i))
    (hl : s.post .left = l) (hr : s.post .right = r) (he : env.Sound) {a : ApiCall}
    (ha : a = .answerCall ∨ a = .answerCallWithMode .simple) (hw : r.wire.answer cx = some w)
    (hp : p { l with inbox := l.inbox ++ w.sent }
      { r with wire := w.settle, ends := r.ends + w.told.count .onCallEnd }) :
    (s.input cx .right ⟨env, .api a⟩).Meets p := by
  subst hl hr
  obtain ⟨h1, h2, h3, h4⟩ := Peers.answer_post (i := .right) hx he ha hw
  exact .right hf (Wire.answer_faultless rfl hw) h1 h2 h3 h4 hp

end Steps

/- A short call, for the examples: the ITU tables, a number of one digit, no ANI. -/

def briefCx : R2Context :=
  setMaxAni 0 (setMaxDnis 1 (setAniFirst 0 (configureItu 10 10 R2Context.zero)))

theorem briefCx_plain : briefCx.Plain :=
  ⟨⟨rfl, rfl⟩, rfl, rfl, .inl rfl, rfl, rfl, rfl⟩

/-- The caller after so many steps; the sixth is the answer. -/
def briefCaller (n : Nat) : R2Chan :=
  (run briefCx
    (List.take n [⟨Env.fair 0x9, .cas⟩,
      ⟨Env.fair 0x9, .api (.makeCall none [Tone.t5] .nationalSubscriber false)⟩,
      ⟨Env.fair 0xD, .cas⟩, ⟨Env.fair 0xD, .mfTone Tone.t6⟩, ⟨Env.fair 0xD, .mfTone 0⟩,
      ⟨Env.fair 0x5, .cas⟩]) (setIdle briefCx (Env.fair 0x9) R2Chan.new).1).1

/-- The callee: a digit, the category, the change to Group B; with the ninth step the
call is accepted, with the tenth it is answered. -/
def briefCallee (n : Nat) : R2Chan :=
  (run briefCx
    (List.take n [⟨Env.fair 0x9, .cas⟩, ⟨Env.fair 0x1, .cas⟩, ⟨Env.fair 0x1, .mfTone Tone.t5⟩,
      ⟨Env.fair 0x1, .mfTone 0⟩, ⟨Env.fair 0x1, .mfTone Tone.t1⟩, ⟨Env.fair 0x1, .mfTone 0⟩,
      ⟨Env.fair 0x1, .mfTone Tone.t1⟩, ⟨Env.fair 0x1, .api (.acceptCall .withCharge)⟩,
      ⟨Env.fair 0x1, .mfTone 0⟩, ⟨Env.fair 0x1, .api .answerCall⟩])
    (setIdle briefCx (Env.fair 0x9) R2Chan.new).1).1

end OpenR2
