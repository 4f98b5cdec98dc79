import OpenR2.Proofs.NothingProceeds
import OpenR2.Proofs.Sides

namespace OpenR2

section Answering

variable {cx : R2Context} {m : MediaChan}

/-- With DTMF in use, the user answers only a call that can be answered, and never from
inside a callback for a digit. -/
def AnswersInTurn (cx : R2Context) (m : MediaChan) (t : MediaTick) : Prop :=
  cx.UsesDtmf → (∀ a, t.input = .api a → a.Answers → Answerable cx m.chan) ∧
    ∀ h a, t.env.reenter h = some a → ¬ a.Answers

theorem AnswersInTurn.may {t : MediaTick} (h : AnswersInTurn cx m t) :
    May cx t.env (answersInTurn cx) m t.input where
  permits d a _ he hu ha := absurd ha ((h hu).2 d.out a he)
  api a hi hu ha := (h hu).1 a hi ha
  line _ _ _ _ := ⟨fun _ _ _ => trivial, fun _ _ _ => trivial⟩
  check _ _ _ _ _ _ _ := ⟨fun _ _ _ => trivial, fun _ _ _ => trivial⟩
  dial _ _ _ _ _ := trivial
  lateEnd _ _ _ := trivial
  digitsEnd _ _ := trivial

theorem mediaRun_sided (hg : m.chan.Grounded) (hs : m.chan.Sided) (ts : List MediaTick)
    (ht : Runs.Along (mediaTick cx) (AnswersInTurn cx) ts m) :
    (mediaRun cx ts m).1.chan.Grounded ∧ (mediaRun cx ts m).1.chan.Sided := by
  refine Runs.exec_invariant (f := mediaTick cx) (P := fun m => m.chan.Grounded ∧ m.chan.Sided)
    (fun m t ht ⟨hg, hs⟩ => ?_) ts m ht ⟨hg, hs⟩
  have ha := mediaStep_atoms cx t.env (answersInTurn cx) m ht.may hg.live hg.trusts
  exact ⟨ha.grounded hg.start, ha.sided (hs.same rfl rfl rfl fun _ hx => hx)⟩

/-- The code asks for an accepted call where no DTMF is used, and for nothing elsewhere. -/
theorem refused_iff {env : Env} {c : R2Chan} {a : ApiCall} (ha : a.Answers) :
    apiCall cx env a c = (c, -1) ↔ ¬ cx.UsesDtmf ∧ c.callState ≠ .accepted := by
  have hx : a = .answerCall ∨ ∃ mode, a = .answerCallWithMode mode := by
    cases a with
    | answerCall => exact .inl rfl
    | answerCallWithMode mode => exact .inr ⟨mode, rfl⟩
    | _ => exact ha.elim
  constructor
  · intro h
    by_contra hn
    have hc : (cx.dialWithDtmf || cx.detectDtmf) = true ∨ c.callState = .accepted := by
      rcases not_and_or.mp hn with hn | hn
      · exact .inl (not_not.mp hn)
      · exact .inr (not_not.mp hn)
    have hp := (@answer_transmits cx env c a hx hc).length_le
    rw [h, List.length_append] at hp
    exact absurd hp (by simp)
  · rintro ⟨hu, hc⟩
    have hd : doAnswer cx env c = (c, -1) := by
      unfold doAnswer
      exact if_pos ⟨Bool.eq_false_of_not_eq_true hu, hc⟩
    rcases hx with rfl | ⟨mode, rfl⟩
    · simp [apiCall, answerCall, hd]
    · simp [apiCall, answerCallWithMode, hd]

/-- In each state of a run in which the user answers in turn, and in each state that a
step then passes through, a call is answered or refused as it should just where no DTMF is
used or the call can be answered; and only a live incoming call is in the answered state. -/
theorem answered_in_turn_iff (hm : Started cx m.chan) (ts : List MediaTick)
    (ht : Runs.Along (mediaTick cx) (AnswersInTurn cx) ts m) {env : Env} {c : R2Chan}
    (hc : Atoms cx env (answersInTurn cx) (mediaRun cx ts m).1.chan.start c) :
    (∀ (world : Env) (a : ApiCall), a.Answers →
      ((Answerable cx c ∨ apiCall cx world a c = (c, -1)) ↔ ¬ cx.UsesDtmf ∨ Answerable cx c)) ∧
    (c.r2State = .answerTxd → c.direction = .backward ∧ c.callState ≠ .idle ∧
      c.callState ≠ .disconnected) := by
  obtain ⟨hg, hs⟩ := mediaRun_sided (started_grounded hm) (started_sided hm) ts ht
  have hg := hc.grounded hg.start
  have hs := hc.sided (hs.same rfl rfl rfl fun _ hx => hx)
  refine ⟨fun world a ha => ?_, fun hr => ?_⟩
  · rw [refused_iff ha]
    constructor
    · exact fun h => h.elim .inr fun h => .inl h.1
    · rintro (hu | h)
      · by_cases hx : c.callState = .accepted
        · exact .inl ⟨hs.called (by rw [hx]; trivial), .inl hx⟩
        · exact .inr ⟨hu, hx⟩
      · exact .inl h
  · have hd : c.direction = .backward := hs.backward (by rw [hr]; trivial)
    exact ⟨hd, hg.live hd, hs.answering (.inl hr)⟩

theorem answered_in_turn_iff_idle :
    let cx := configureItu 10 10 R2Context.zero
    let c := (setIdle cx (Env.fair 0x9) R2Chan.new).1.start
    (∀ (world : Env) (a : ApiCall), a.Answers →
      ((Answerable cx c ∨ apiCall cx world a c = (c, -1)) ↔ ¬ cx.UsesDtmf ∨ Answerable cx c)) ∧
    (c.r2State = .answerTxd → c.direction = .backward ∧ c.callState ≠ .idle ∧
      c.callState ≠ .disconnected) :=
  @answered_in_turn_iff (configureItu 10 10 R2Context.zero)
    ⟨(setIdle (configureItu 10 10 R2Context.zero) (Env.fair 0x9) R2Chan.new).1, 0⟩
    (.idle (Env.fair 0x9) R2Chan.new) [] trivial (Env.fair 0x9) _ .refl

/-- With DTMF dialling, a line without a call is answered. -/
theorem idle_line_answered :
    ¬ ∀ (cx : R2Context) (m : MediaChan) (ts : List MediaTick) (env : Env) (a : ApiCall),
      Started cx m.chan → a.Answers →
        Answerable cx (mediaRun cx ts m).1.chan.start ∨
          apiCall cx env a (mediaRun cx ts m).1.chan.start = ((mediaRun cx ts m).1.chan.start, -1) := by
  intro h
  rcases h dtmfCx ⟨(setIdle dtmfCx (Env.fair 0x9) R2Chan.new).1, 0⟩ [] (Env.fair 0x9) .answerCall
    (.idle (Env.fair 0x9) R2Chan.new) trivial with hx | hx
  · exact absurd hx (by decide)
  · exact absurd (congrArg Prod.snd hx) (by decide)

end Answering

end OpenR2
