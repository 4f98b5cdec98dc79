import OpenR2.Proofs.DnisCursor
import OpenR2.Proofs.Variants

namespace OpenR2

/-- The DNIS digits that the user has heard of, after one more act. -/
def Act.hearDnis (ds : List Tone) : Act → List Tone
  | .event (.onDnisDigitReceived tone) => ds ++ [tone]
  | .callState .idle => []
  | _ => ds

/-- The DNIS digits that the user has heard of since the last call ended. -/
def dnisHeard (as : List Act) : List Tone := as.foldl Act.hearDnis []

/-- Acts that store or report a digit of the DNIS. -/
def Act.OfDnis : Act → Prop
  | .event (.onDnisDigitReceived _) | .storeDnis .. => True
  | _ => False

section Acts

variable {a : Act} {as : List Act}

theorem Act.OfDnis.collecting (h : a.OfDnis) : a.Collecting := by
  cases a with
  | event e =>
    cases e with
    | onDnisDigitReceived => trivial
    | _ => exact h.elim
  | storeDnis => trivial
  | _ => exact h.elim

/-- An offer is no digit. -/
theorem Act.not_ofDnis (h : a.Collecting → ∃ ani dnis cat r, a = .event (.onCallOffered ani dnis cat r)) :
    ¬ a.OfDnis := by
  intro hd
  obtain ⟨ani, dnis, cat, r, rfl⟩ := h hd.collecting
  exact hd

theorem Act.inscribe_other (h : ¬ a.OfDnis) (b : List Tone × Nat) : Act.inscribe b a = b := by
  cases a with
  | storeDnis => exact absurd trivial h
  | _ => rfl

theorem inscribe_quiet (h : ∀ a ∈ as, ¬ a.OfDnis) (b : List Tone × Nat) :
    as.foldl Act.inscribe b = b :=
  Act.inscribe_none b fun a ha => Act.inscribe_other (h a ha)

theorem Act.hearDnis_other (h : ¬ a.OfDnis) (hi : a ≠ .callState .idle) (ds : List Tone) :
    Act.hearDnis ds a = ds := by
  cases a with
  | event e =>
    cases e with
    | onDnisDigitReceived tone => exact absurd trivial h
    | _ => rfl
  | callState s =>
    cases s with
    | idle => exact absurd rfl hi
    | _ => rfl
  | _ => rfl

theorem hearDnis_quiet (h : ∀ a ∈ as, ¬ a.OfDnis) (hi : .callState .idle ∉ as) (ds : List Tone) :
    as.foldl Act.hearDnis ds = ds := by
  induction as with
  | nil => rfl
  | cons a as ih =>
    have ha : a ≠ .callState .idle := fun he => hi (he ▸ List.mem_cons_self)
    rw [List.foldl_cons, Act.hearDnis_other (h a List.mem_cons_self) ha]
    exact ih (fun x hx => h x (List.mem_cons_of_mem a hx)) fun hm => hi (List.mem_cons_of_mem a hm)

/-- What comes after the end of a call counts alone. -/
theorem hearDnis_idle (pre post : List Act) (ds : List Tone) :
    (pre ++ .callState .idle :: post).foldl Act.hearDnis ds = dnisHeard post := by
  rw [List.foldl_append]
  rfl

/-- After the last end of a call. -/
theorem mem_of_mem_after {pre post bs : List Act} (h : bs ++ as = pre ++ a :: post) (ha : a ∉ bs) :
    ∀ x ∈ post, x ∈ as := by
  intro x hx
  rcases List.append_eq_append_iff.mp h with ⟨ys, -, he⟩ | ⟨ys, hb, he⟩
  · rw [he]
    exact List.mem_append_right _ (List.mem_cons_of_mem a hx)
  · cases ys with
    | nil =>
      rw [List.nil_append] at he
      rw [← he]
      exact List.mem_cons_of_mem a hx
    | cons y ys =>
      obtain ⟨rfl, -⟩ := List.cons_eq_cons.mp he
      exact absurd (hb ▸ List.mem_append_right _ List.mem_cons_self) ha

end Acts

/-- The buffer holds the digits, and a NUL after them. -/
structure Holds (b : List Tone × Nat) (ds : List Tone) : Prop where
  digits : b.1.take b.2 = ds
  length : ds.length = b.2
  ended : b.1[b.2]? = some 0

theorem Holds.blank {b : List Tone} (h : 0 < b.length) : Holds (b.set 0 0, 0) [] :=
  ⟨List.take_zero, rfl, by simp [h]⟩

/-- One more digit, where there is room for the NUL. -/
theorem Holds.store {b : List Tone} {n : Nat} {ds : List Tone} (h : Holds (b, n) ds)
    (hn : n + 1 < b.length) (tone : Tone) :
    Holds ((b.set n tone).set (n + 1) 0, n + 1) (ds ++ [tone]) := by
  obtain ⟨hd, hl, -⟩ := h
  dsimp only at hd hl
  refine ⟨?_, by simp [hl], ?_⟩
  · dsimp only
    rw [List.take_add_one, List.getElem?_set_ne (by omega), List.take_set_of_le (by omega),
      List.take_set_of_le (by omega), hd]
    simp [show n < b.length by omega]
  · simp [hn]

namespace R2Chan

variable {c d e : R2Chan}

/-- An incoming call is there, or can come. -/
def Callable (c : R2Chan) : Prop := c.direction = .backward ∨ c.r2State = .idle

/-- What the acts since `c` have made of the DNIS of the call that it is in, or that has come
in since its end. -/
structure Inscribes (c d : R2Chan) : Prop where
  size : d.dnis.length = maxDnisBuffer
  buffer : d.Callable →
    (.callState .idle ∉ d.out ∧ c.Callable ∧ d.buffer = d.out.foldl Act.inscribe c.buffer) ∨
      ∃ pre post, ∃ b : List Tone, d.out = pre ++ .callState .idle :: post ∧
        .callState .idle ∉ post ∧ b.length = maxDnisBuffer ∧
        d.buffer = post.foldl Act.inscribe (b.set 0 0, 0)

namespace Inscribes

/-- More acts, which end no call. -/
theorem more (h : c.Inscribes d) {as : List Act} (ho : e.out = d.out ++ as)
    (hn : .callState .idle ∉ as) (hi : e.Callable → d.Callable) (hs : e.dnis.length = d.dnis.length)
    (hb : e.buffer = as.foldl Act.inscribe d.buffer) : c.Inscribes e := by
  refine ⟨hs.trans h.size, fun hx => ?_⟩
  rcases h.buffer (hi hx) with ⟨hi, hc, he⟩ | ⟨pre, post, b, hp, hi, hl, he⟩
  · refine .inl ⟨?_, hc, ?_⟩
    · rw [ho, List.mem_append]
      exact fun hm => hm.elim hi hn
    · rw [ho, List.foldl_append, ← he, hb]
  · refine .inr ⟨pre, post ++ as, b, ?_, ?_, hl, ?_⟩
    · rw [ho, hp, List.append_assoc, List.cons_append]
    · rw [List.mem_append]
      exact fun hm => hm.elim hi hn
    · rw [List.foldl_append, ← he, hb]

/-- Acts that neither end a call nor store anything. -/
theorem quiet (h : c.Inscribes d) {as : List Act} (ho : e.out = d.out ++ as)
    (ha : ∀ a ∈ as, ¬ a.Collecting ∧ a ≠ .callState .idle) (hi : e.Callable → d.Callable)
    (hb : e.buffer = d.buffer) : c.Inscribes e := by
  refine h.more ho (fun hm => (ha _ hm).2 rfl) hi (congrArg (·.1.length) hb) ?_
  rw [inscribe_quiet fun a hm hx => (ha a hm).1 hx.collecting]
  exact hb

/-- In a call of the other side the buffer is its own. -/
theorem away (h : c.Inscribes d) (hs : e.dnis.length = d.dnis.length) (hn : ¬ e.Callable) :
    c.Inscribes e := ⟨hs.trans h.size, fun hx => absurd hx hn⟩

theorem reset (h : c.Inscribes d) (hr : d.Reset e) : c.Inscribes e := by
  obtain ⟨⟨rx, r, w, x, y, hf⟩, as, ho, -⟩ := hr
  generalize e.out = o at hf ho
  subst hf
  refine ⟨by simpa using h.size, fun _ => .inr ⟨d.out ++ as, [], d.dnis, ho, nofun, h.size, rfl⟩⟩

theorem aside (h : c.Inscribes d) (ha : d.Aside e) : c.Inscribes e := by
  obtain ⟨as, ho, hm⟩ := ha.passes.out
  refine h.quiet ho hm (fun hx => hx.imp (fun hd => ha.direction ▸ hd) fun hr => ?_) ?_
  · rcases ha.r2State with hs | hs | ⟨-, hs⟩
    · rw [← hs, hr]
    · exact absurd hr hs.1
    · exact nomatch hs.symm.trans hr
  · exact congrArg (fun n => (n.dnis, n.dnisLen)) ha.numbers

theorem sends (h : c.Inscribes d) (hs : d.Sends e) : c.Inscribes e := by
  obtain ⟨as, ho, ha⟩ := hs.out
  refine h.quiet ho (fun a hm => ?_) (fun hx => ?_) ?_
  · rcases ha a hm with h | ⟨i, rfl⟩ | ⟨i, rfl⟩ | ⟨m, rfl⟩
    · exact ⟨h.not_collecting, fun he => by rw [he] at h; exact h.elim nofun nofun⟩
    · exact ⟨id, nofun⟩
    · exact ⟨id, nofun⟩
    · exact ⟨id, nofun⟩
  · exact hx.imp (fun hd => hs.direction ▸ hd) fun hr => hs.r2State ▸ hr
  · rw [R2Chan.buffer, hs.dnis, hs.dnisLen]
    rfl

theorem collects (h : c.Inscribes d) (hs : d.Collects e) : c.Inscribes e := by
  obtain ⟨as, ho, hb⟩ := hs.dnis
  obtain ⟨bs, ho', ha⟩ := hs.out
  obtain rfl : as = bs := List.append_cancel_left (ho.symm.trans ho')
  refine h.more ho (fun hm => (ha _ hm).1 rfl) (fun hx => ?_) hs.dnisSize hb
  exact hx.imp (fun hd => hs.direction ▸ hd) fun hr => hs.r2State ▸ hr

theorem seizes (h : c.Inscribes d) (hs : d.Seizes e) : c.Inscribes e := by
  refine h.quiet hs.out (fun a hm => ?_) (fun _ => .inr hs.idle) ?_
  · rw [List.mem_singleton.mp hm]
    exact ⟨id, nofun⟩
  · exact congrArg (fun n => (n.dnis, n.dnisLen)) hs.numbers

theorem handleProtocolError (h : c.Inscribes d) (cx : R2Context) (env : Env) (r : ProtocolError) :
    c.Inscribes (handleProtocolError cx env r d) := by
  have hd : d.Aside (d.did (.mfSelectTone d.mfWriteHandle 0)) := by
    refine .did d _ trivial fun x t he => ?_
    injection he with _ ht
    exact ht.symm
  exact (((h.aside hd).reset (protoInit_reset cx _)).aside (.setCasSignal cx env .idle _)).aside
    (.emit _ _ trivial)

theorem answers {cx : R2Context} {env : Env} (h : c.Inscribes d) (hs : Answers cx env d e) :
    c.Inscribes e := by
  rcases hs with hs | ⟨x, r, hs, rfl⟩
  · exact h.sends hs
  · exact (h.sends hs).handleProtocolError cx env r

theorem turn {cx : R2Context} {env : Env} {ways : Direction → Prop} (h : c.Inscribes d)
    (hd : d.Held) (ht : Turn cx env ways d e) : c.Inscribes e := by
  cases ht with
  | aside _ ha => exact h.aside ha
  | reset _ hr => exact h.reset hr
  | seize _ _ hs => exact h.seizes hs
  | place _ hp =>
    refine h.away ?_ ?_
    · obtain ⟨ani, dnis, cat, r, hn⟩ := hp.numbers
      have he : e.dnis = (keepNumbers cx ani dnis cat r d).dnis := congrArg Numbers.dnis hn
      rw [he, keepNumbers]
      dsimp only
      split_ifs
      · rw [strncpy80_length, h.size]
        rfl
      · rw [List.length_set]
    · rintro (hb | hr)
      · cases hp.direction.symm.trans hb
      · cases hp.r2State.symm.trans hr
  | dial hr =>
    have hx : c.Inscribes ((d.setR2State .seizeAckRxd).setMfGroup .gi) :=
      h.away rfl fun hx => hx.elim (fun hb => (hd.engaged hb).line.2.1 hr) (by rintro ⟨⟩)
    exact hx.answers (mfSendDnis_answers cx env _ 0)
  | send _ _ hs => exact h.sends hs
  | collect _ _ hs => exact h.collects hs

end Inscribes

end R2Chan

namespace Stage

variable {cx : R2Context} {s r : Stage}

/-- There is room for the DNIS digits that can come. -/
structure Roomy (cx : R2Context) (s : Stage) : Prop where
  len : (s.dnisLen : Int) ≤ max 1 cx.maxDnis
  first : s.asked = .seizeAckTxd → s.dnisLen = 0
  asked : s.asked = .dnisRqTxd → ¬ s.Complete cx

/-- What is asked for next. More of the DNIS is asked for only where it is not complete. -/
structure Next (cx : R2Context) (s r : Stage) : Prop where
  dnisLen : r.dnisLen = s.dnisLen
  first : r.asked ≠ .seizeAckTxd
  asked : r.asked = .dnisRqTxd → ¬ s.Complete cx

theorem Next.roomy (h : s.Next cx r) (hl : (s.dnisLen : Int) ≤ max 1 cx.maxDnis) : r.Roomy cx := by
  refine ⟨by rw [h.dnisLen]; exact hl, fun hx => absurd hx h.first, fun hx => ?_⟩
  have hc := h.asked hx
  rwa [Complete, h.dnisLen]

theorem askDnis_next (h : ¬ s.Complete cx) : s.Next cx s.askDnis := ⟨rfl, nofun, fun _ => h⟩

theorem askAni_next : s.Next cx s.askAni := ⟨rfl, nofun, nofun⟩

theorem finish_next : s.Next cx (s.finish cx) := by
  unfold finish
  split_ifs
  · exact ⟨rfl, nofun, nofun⟩
  · exact ⟨rfl, nofun, nofun⟩

theorem askWho_next : s.Next cx (s.askWho cx) := by
  unfold askWho
  split_ifs
  · exact finish_next
  · exact ⟨rfl, nofun, nofun⟩

theorem aniDone_next : s.Next cx (s.aniDone cx) := by
  unfold aniDone
  split_ifs with h
  · exact finish_next
  · exact askDnis_next fun hc => h (.inr hc)

theorem dnisTaken_next (more : Bool) : s.Next cx (s.dnisTaken cx more) := by
  unfold dnisTaken
  split_ifs with h
  · exact askWho_next
  · exact finish_next
  · exact askWho_next
  · exact askDnis_next fun hc => h (.inl hc)

theorem noMoreDnis_next : s.Next cx (s.noMoreDnis cx) := by
  unfold noMoreDnis
  split_ifs
  · exact askWho_next
  · exact finish_next

theorem timeOut_next : s.Next cx (s.timeOut cx) := by
  unfold timeOut
  split_ifs
  · exact askWho_next
  · exact finish_next

/-- Less than the whole number, and less than the buffer. -/
theorem lt_of_not_complete (hn : 0 ≤ cx.maxDnis) (hx : cx.maxDnis < maxDnisBuffer)
    (h : ¬ s.Complete cx) : (s.dnisLen : Int) < cx.maxDnis := by
  have hu : (uint32 cx.maxDnis : Int) = cx.maxDnis := by
    simp only [uint32, maxDnisBuffer] at hx ⊢
    omega
  rw [Complete, not_le] at h
  omega

/-- Where a digit of the DNIS is expected, it fits. -/
theorem Roomy.fits (hn : 0 ≤ cx.maxDnis) (hx : cx.maxDnis < maxDnisBuffer) (h : s.Roomy cx)
    (he : s.ExpectsDnis cx) : (s.dnisLen + 1 : Int) ≤ max 1 cx.maxDnis := by
  rcases he with ⟨-, hm⟩ | ⟨-, hm, -⟩
  · have hl := lt_of_not_complete hn hx (h.asked hm)
    omega
  · rw [h.first hm]
    omega

theorem Roomy.hear (hn : 0 ≤ cx.maxDnis) (hx : cx.maxDnis < maxDnisBuffer) (h : s.Roomy cx)
    {tone : Tone} (hu : s.Understands cx tone) (more : Bool) : (s.hear cx more tone).Roomy cx := by
  unfold Stage.hear
  split_ifs with hd ha hc
  · unfold hearDnis
    split_ifs
    · refine (dnisTaken_next more).roomy ?_
      have hf := h.fits hn hx hd
      have hl := h.len
      dsimp only [addDnis]
      split_ifs
      · exact hl
      · push_cast
        exact hf
    · exact noMoreDnis_next.roomy h.len
  · unfold hearAni
    split_ifs
    · exact (askAni_next (s := s.addAni)).roomy h.len
    · exact (aniDone_next (s := s.addAni)).roomy h.len
    · exact aniDone_next.roomy h.len
  · simp only [hearCategory]
    split_ifs
    · exact ⟨h.len, (by rintro ⟨⟩), (by rintro ⟨⟩)⟩
    · exact (finish_next (s := { s with category := tone })).roomy h.len
    · exact ⟨h.len, (by rintro ⟨⟩), (by rintro ⟨⟩)⟩
  · rw [Understands, if_neg hd, if_neg ha] at hu
    have hm := (hu.resolve_left hc).2
    refine ⟨h.len, fun hx => ?_, fun hx => ?_⟩
    · cases hm.symm.trans hx
    · cases hm.symm.trans hx

end Stage

section Ticks

variable {cx : R2Context} {c : R2Chan} {t : Tick}

theorem tick_inscribes (hc : c.Held) (hl : c.dnis.length = maxDnisBuffer) :
    c.Inscribes (tick cx c t).1 := by
  have hs : c.start.Held ∧ c.Inscribes c.start :=
    ⟨hc.quiet rfl rfl rfl rfl, hl, fun hx => .inl ⟨nofun, hx, rfl⟩⟩
  refine (tick_closed cx c t (P := fun d => d.Held ∧ c.Inscribes d) hs ?_ ?_ ?_).2
  · intro d e ht hd
    exact ⟨ht.held hd.1, hd.2.turn hd.1 ht⟩
  · intro d tone hd
    exact ⟨hd.1.quiet rfl rfl rfl rfl, hd.2.quiet (List.append_nil _).symm nofun id rfl⟩
  · intro d tone hd
    obtain ⟨x, n, as, he, ha⟩ := checkThreshold_frame cx t.env tone d
    refine ⟨checkThreshold_held cx d t.env tone hd.1, ?_⟩
    rw [he]
    refine hd.2.quiet rfl (fun a hm => ?_) id rfl
    rw [ha a hm]
    exact ⟨id, nofun⟩

/-- Without the end of a call, the acts go on with the number there was. -/
theorem R2Chan.Inscribes.live {d : R2Chan} (h : c.Inscribes d) (hd : d.Callable)
    (hi : .callState .idle ∉ d.out) : c.Callable ∧ d.buffer = d.out.foldl Act.inscribe c.buffer := by
  rcases h.buffer hd with ⟨-, hc, hb⟩ | ⟨pre, post, b, ho, -⟩
  · exact ⟨hc, hb⟩
  · exact absurd (by rw [ho]; simp) hi

/-- After the end of a call there is no digit, and the user has heard of none. -/
theorem R2Chan.Inscribes.over {d : R2Chan} (h : c.Inscribes d) (hd : d.Callable)
    (hi : .callState .idle ∈ d.out) {bs as : List Act} (ho : d.out = bs ++ as)
    (hb : .callState .idle ∉ bs) (ha : ∀ a ∈ as, ¬ a.OfDnis) (ds : List Tone) :
    Holds d.buffer [] ∧ d.out.foldl Act.hearDnis ds = [] := by
  rcases h.buffer hd with ⟨hn, -⟩ | ⟨pre, post, b, hp, hn, hl, he⟩
  · exact absurd hi hn
  · have hq : ∀ a ∈ post, ¬ a.OfDnis := fun a hm => ha a (mem_of_mem_after (ho.symm.trans hp) hb a hm)
    rw [he, hp, inscribe_quiet hq, hearDnis_idle, dnisHeard, hearDnis_quiet hq hn]
    exact ⟨.blank (by rw [hl]; decide), rfl⟩

/-- The DNIS is what the user has heard, and there is room for more. -/
structure DnisKept (cx : R2Context) (ds : List Tone) (c : R2Chan) : Prop where
  held : c.Held
  size : c.dnis.length = maxDnisBuffer
  holds : c.Callable → Holds c.buffer ds
  blank : c.r2State = .idle → ds = []
  room : c.direction = .backward → c.stage.Roomy cx

/-- No digit has come in a call that has asked for nothing yet. -/
theorem DnisKept.fresh (hf : c.Fresh) (hl : c.dnis.length = maxDnisBuffer) {ds : List Tone}
    (h : c.Callable → Holds c.buffer [] ∧ ds = []) : DnisKept cx ds c := by
  refine ⟨hf.toHeld, hl, fun hx => ?_, fun hx => (h (.inr hx)).2, fun hb => ?_⟩
  · rw [(h hx).2]
    exact (h hx).1
  · have h0 : c.stage.dnisLen = 0 := (h (.inl hb)).1.length.symm
    refine ⟨by rw [h0]; omega, fun _ => h0, fun hm => absurd (.inr (.inl hm)) (hf.asks hb)⟩

theorem beforeTone_other (tone : Tone) :
    ∀ a ∈ beforeTone cx c t tone, ¬ a.OfDnis ∧ a ≠ .callState .idle := fun a ha =>
  (checkThreshold_acts cx c t.env tone a ha).imp_left fun h hd => h hd.collecting

/-- What is kept of a tone. -/
theorem Stage.inscribe_reports (s : Stage) (tone : Tone) (b : List Tone × Nat) :
    (s.reports cx tone).foldl Act.inscribe b =
      if tone.isDigit = true ∧ s.ExpectsDnis cx ∧ s.dnisLen ≠ maxDnisBuffer - 1 then
        ((b.1.set s.dnisLen tone).set (s.dnisLen + 1) 0, s.dnisLen + 1) else b := by
  unfold Stage.reports Stage.stores
  split_ifs <;> grind [Act.inscribe]

theorem Stage.hearDnis_reports (s : Stage) (tone : Tone) (ds : List Tone) :
    (s.reports cx tone).foldl Act.hearDnis ds =
      if tone.isDigit = true ∧ s.ExpectsDnis cx then ds ++ [tone] else ds := by
  unfold Stage.reports Stage.stores
  split_ifs <;> grind [Act.hearDnis]

theorem idle_not_mem_reports (tone : Tone) :
    .callState .idle ∉ beforeTone cx c t tone ++ c.stage.reports cx tone := by
  intro hm
  rcases List.mem_append.mp hm with hm | hm
  · exact (beforeTone_other tone _ hm).2 rfl
  · obtain ⟨-, ⟨-, h | h⟩ | ⟨-, -, h | h⟩⟩ := Stage.mem_reports hm <;> exact nomatch h

theorem not_ofDnis {as : List Act} (h : ∀ a ∈ as, ¬ a.Collecting) : ∀ a ∈ as, ¬ a.OfDnis :=
  fun a ha hd => h a ha hd.collecting

/-- A tone that is heard in a call that goes on. -/
theorem DnisKept.hears (hn : 0 ≤ cx.maxDnis) (hx : cx.maxDnis < maxDnisBuffer) {ds : List Tone}
    (h : DnisKept cx ds c) (hb : c.direction = .backward) {d : R2Chan} {tone : Tone} {as : List Act}
    (ho : d.out = beforeTone cx c t tone ++ c.stage.reports cx tone ++ as)
    (ha : ∀ a ∈ as, ¬ a.OfDnis) (hi : .callState .idle ∉ as)
    (hd : d.buffer = d.out.foldl Act.inscribe c.buffer) :
    Holds d.buffer (d.out.foldl Act.hearDnis ds) := by
  have hc := h.holds (.inl hb)
  have hp : ∀ a ∈ beforeTone cx c t tone, ¬ a.OfDnis ∧ a ≠ .callState .idle := beforeTone_other tone
  have hr : (beforeTone cx c t tone).foldl Act.hearDnis ds = ds :=
    hearDnis_quiet (fun a ha => (hp a ha).1) (fun hm => (hp _ hm).2 rfl) ds
  have hs : (beforeTone cx c t tone).foldl Act.inscribe c.buffer = c.buffer :=
    inscribe_quiet (fun a ha => (hp a ha).1) _
  rw [hd, ho, List.foldl_append, List.foldl_append, inscribe_quiet ha, hs, List.foldl_append,
    List.foldl_append, hearDnis_quiet ha hi, hr, Stage.inscribe_reports, Stage.hearDnis_reports]
  by_cases hk : tone.isDigit = true ∧ c.stage.ExpectsDnis cx
  · have hf := (h.room hb).fits hn hx hk.2
    have hl : c.stage.dnisLen + 1 < c.dnis.length := by
      rw [h.size]
      simp only [maxDnisBuffer] at hx ⊢
      omega
    rw [if_pos hk, if_pos ⟨hk.1, hk.2, by rw [h.size] at hl; omega⟩]
    exact hc.store hl tone
  · rw [if_neg hk, if_neg fun hx => hk ⟨hx.1, hx.2.1⟩]
    exact hc

theorem tick_dnisKept (hn : 0 ≤ cx.maxDnis) (hx : cx.maxDnis < maxDnisBuffer) {ds : List Tone}
    (h : DnisKept cx ds c) :
    DnisKept cx ((tick cx c t).2.foldl Act.hearDnis ds) (tick cx c t).1 := by
  have hcourse : Course cx c t (tick cx c t).1 := tick_course h.held
  have hins : c.Inscribes (tick cx c t).1 := tick_inscribes h.held h.size
  have hh : (tick cx c t).1.Held := tick_held cx c t h.held
  have ho : (tick cx c t).2 = (tick cx c t).1.out := rfl
  rw [ho]
  generalize (tick cx c t).1 = d at hcourse hins hh ⊢
  -- a call of this side that goes on
  have hgo : c.direction = .backward → d.direction = .backward → .callState .idle ∉ d.out →
      d.stage.Roomy cx → Holds d.buffer (d.out.foldl Act.hearDnis ds) →
      DnisKept cx (d.out.foldl Act.hearDnis ds) d := by
    intro hb hd hi hr hk
    exact ⟨hh, hins.size, fun _ => hk, fun hx => absurd hx (hh.engaged hd).line.1, fun _ => hr⟩
  cases hcourse with
  | elsewhere hb fresh silent =>
    refine .fresh fresh hins.size fun hd => ?_
    by_cases hi : .callState .idle ∈ d.out
    · exact hins.over hd hi (List.nil_append _).symm nofun (not_ofDnis silent) ds
    · obtain ⟨hc, he⟩ := hins.live hd hi
      have hk := h.holds hc
      rw [h.blank (hc.resolve_left hb)] at hk ⊢
      rw [he, inscribe_quiet (not_ofDnis silent), hearDnis_quiet (not_ofDnis silent) hi]
      exact ⟨hk, rfl⟩
  | ends hb fresh idle acts =>
    refine .fresh fresh hins.size fun hd => ?_
    rcases acts with ha | ⟨tone, as, -, he, ha⟩
    · exact hins.over hd idle (List.nil_append _).symm nofun (not_ofDnis ha) ds
    · exact hins.over hd idle he (idle_not_mem_reports tone) (not_ofDnis ha) ds
  | lingers hb _ hl =>
    have hd : d.direction = .backward := hl.direction.trans hb
    obtain ⟨as, he, ha⟩ := hl.out
    obtain rfl : d.out = as := he
    have hi : .callState .idle ∉ d.out := fun hm => (ha _ hm).2 rfl
    have hq : ∀ a ∈ d.out, ¬ a.OfDnis := not_ofDnis fun a hm => (ha a hm).1
    have hr := h.room hb
    refine hgo hb hd hi ?_ ?_
    · rw [hl.stage]
      refine ⟨hr.len, fun hm => ?_, fun hm => ?_⟩
      · rcases hl.asked with hx | hx
        · exact hr.first (hx.symm.trans hm)
        · exact absurd hx (by rw [show d.mfState = _ from hm]; simp [MfState.Decided])
      · rcases hl.asked with hx | hx
        · exact hr.asked (hx.symm.trans hm)
        · exact absurd hx (by rw [show d.mfState = _ from hm]; simp [MfState.Decided])
    · rw [(hins.live (.inl hd) hi).2, inscribe_quiet hq, hearDnis_quiet hq hi]
      exact h.holds (.inl hb)
  | hears tone hc hu direction stage live acts =>
    obtain ⟨as, he, ha⟩ := acts
    have hi : .callState .idle ∉ as := fun hm => live (he ▸ List.mem_append_right _ hm)
    refine hgo hc.2.2.1 direction live ?_ ?_
    · rw [stage]
      exact (h.room hc.2.2.1).hear hn hx hu _
    · refine h.hears hn hx hc.2.2.1 he (fun a hm => ?_) hi (hins.live (.inl direction) live).2
      refine Act.not_ofDnis fun hk => ?_
      obtain ⟨-, ani, dnis, r, hx⟩ := ha a hm hk
      exact ⟨ani, dnis, _, r, hx⟩
  | expires _ hb _ _ _ direction stage live offers =>
    have hq : ∀ a ∈ d.out, ¬ a.OfDnis := fun a hm => Act.not_ofDnis fun hk => by
      obtain ⟨-, ani, dnis, r, hx⟩ := offers a hm hk
      exact ⟨ani, dnis, _, r, hx⟩
    refine hgo hb direction live ?_ ?_
    · rw [stage]
      exact Stage.timeOut_next.roomy (h.room hb).len
    · rw [(hins.live (.inl direction) live).2, inscribe_quiet hq, hearDnis_quiet hq live]
      exact h.holds (.inl hb)

/-- A tone comes that is handled as a digit of the DNIS. -/
def DnisDigitComes (cx : R2Context) (c : R2Chan) (t : Tick) (tone : Tone) : Prop :=
  Comes cx c t tone ∧ tone.isDigit = true ∧ c.stage.ExpectsDnis cx

theorem Hears.reports {env : Env} {tone : Tone} {k d : R2Chan} (h : Hears cx env tone k d) :
    ∃ as, d.out = k.out ++ k.stage.reports cx tone ++ as := by
  obtain ⟨b, ho, -, -, hd | ⟨-, hd⟩⟩ := h
  · obtain ⟨as, he, -⟩ := hd.out
    exact ⟨as, by rw [he, ho]⟩
  · cases hd with
    | there as out => exact ⟨as, by rw [out, ho]⟩
    | isOver hd =>
      obtain ⟨as, he, -⟩ := hd.out
      exact ⟨as, by rw [he, ho]⟩

/-- Of a tone that comes, all that is to be reported is reported before all else. -/
theorem comes_reports (hc : c.Held) {tone : Tone} (h : Comes cx c t tone) :
    ∃ as, (tick cx c t).2 = beforeTone cx c t tone ++ c.stage.reports cx tone ++ as := by
  obtain ⟨hi, h0, hd, hm, hr, hz⟩ := h
  have hk := checkThreshold_stays cx c.start t.env tone
  have hkh := checkThreshold_held cx c.start t.env tone (hc.quiet rfl rfl rfl rfl)
  have hko : (checkThreshold cx t.env tone c.start).1.out = beforeTone cx c t tone := rfl
  have ho : (tick cx c t).2 =
      (handleToneOn cx t.env tone (checkThreshold cx t.env tone c.start).1).out := by
    have hm : c.start.mfState ≠ .offState := hm
    have hr : c.start.mfReadTone = 0 := hr
    simp only [tick, hi, step, handleMedia, if_neg hm, handleMfTone, if_pos h0, hr, if_neg h0.symm,
      hz, ne_eq, not_true_eq_false, if_false]
  rw [ho]
  generalize (checkThreshold cx t.env tone c.start).1 = k at hk hkh hko ⊢
  have hd : (k.setMfReadTone tone).direction = .backward := hk.direction.trans hd
  have hs : (k.setMfReadTone tone).stage = c.stage := hk.stage
  have he : (k.setMfReadTone tone).Engaged := ⟨(hkh.engaged hd).call, (hkh.engaged hd).line⟩
  have hx := (handleForwardMfTone_hears cx t.env he h0).reports
  simp only [handleToneOn, hd]
  rw [hs, show (k.setMfReadTone tone).out = beforeTone cx c t tone from hko] at hx
  exact hx

/-- The user hears of the digits that are handled, and of no other. -/
theorem digit_reported_iff (hc : c.Held) (tone : Tone) :
    .event (.onDnisDigitReceived tone) ∈ (tick cx c t).2 ↔ DnisDigitComes cx c t tone := by
  constructor
  · intro hm
    obtain ⟨pre, as, ho, hp, ha⟩ := (tick_course (t := t) hc).acts
    rw [show (tick cx c t).2 = _ from ho] at hm
    rcases List.mem_append.mp hm with hm | hm
    · rcases hp with rfl | ⟨x, hx, rfl⟩
      · exact nomatch hm
      · rcases List.mem_append.mp hm with hm | hm
        · exact absurd trivial (beforeTone_other x _ hm).1
        · obtain ⟨ht, ⟨he, h | h⟩ | ⟨-, -, h | h⟩⟩ := Stage.mem_reports hm
          · exact nomatch h
          · obtain rfl : tone = x := by
              injection h with h
              injection h
            exact ⟨hx, ht, he⟩
          · exact nomatch h
          · exact nomatch h
    · obtain ⟨_, _, _, _, hx⟩ := ha _ hm trivial
      exact nomatch hx
  · rintro ⟨hx, ht, he⟩
    obtain ⟨as, ho⟩ := comes_reports hc hx
    rw [ho, Stage.reports, if_neg (by simp [ht]), if_pos he]
    simp

/-- There is room for every digit. -/
theorem DnisKept.stored (hn : 0 ≤ cx.maxDnis) (hx : cx.maxDnis < maxDnisBuffer) {ds : List Tone}
    (h : DnisKept cx ds c) {tone : Tone} (hd : DnisDigitComes cx c t tone) :
    .storeDnis c.dnisLen tone ∈ (tick cx c t).2 := by
  obtain ⟨hc, ht, he⟩ := hd
  obtain ⟨as, ho⟩ := comes_reports h.held hc
  have hf := (h.room hc.2.2.1).fits hn hx he
  have hl : c.stage.dnisLen ≠ maxDnisBuffer - 1 := by
    simp only [maxDnisBuffer] at hx ⊢
    omega
  rw [ho, Stage.reports, if_neg (by simp [ht]), if_pos he, Stage.stores, if_pos he, if_neg hl]
  simp [R2Chan.stage]

theorem Started.buffer (h : Started cx c) : ∃ b : List Tone, c.buffer = (b.set 0 0, 0) := by
  have hi : ∀ {k d : R2Chan}, (protoInit cx k).Aside d → d.buffer = (k.dnis.set 0 0, 0) := by
    intro k d h
    obtain ⟨⟨rx, r, w, x, y, hf⟩, -⟩ := protoInit_reset cx k
    have hb : (protoInit cx k).buffer = (k.dnis.set 0 0, 0) := by
      generalize (protoInit cx k).out = o at hf
      rw [hf]
      rfl
    have hd : d.buffer = (protoInit cx k).buffer := congrArg (fun n => (n.dnis, n.dnisLen)) h.numbers
    exact hd.trans hb
  cases h with
  | idle env c => exact ⟨_, hi (.setCasSignal cx env .idle _)⟩
  | blocked env c =>
    have hr : (protoInit cx c).Aside ((protoInit cx c).setR2State .blocked) :=
      .setR2State _ .blocked (.inl (by decide))
    exact ⟨_, hi (hr.trans (.setCasSignal cx env .block _))⟩

theorem Started.dnisKept (h : Started cx c) (hl : c.dnis.length = maxDnisBuffer) : DnisKept cx [] c := by
  refine .fresh h.fresh hl fun _ => ⟨?_, rfl⟩
  obtain ⟨b, hb⟩ := h.buffer
  have hd : c.dnis = b.set 0 0 := congrArg Prod.fst hb
  rw [hb]
  refine .blank ?_
  rw [← List.length_set (i := 0) (a := 0), ← hd, hl]
  decide

/-- Whatever has happened since the start. -/
theorem run_dnisKept (hn : 0 ≤ cx.maxDnis) (hx : cx.maxDnis < maxDnisBuffer) (hc : Started cx c)
    (hl : c.dnis.length = maxDnisBuffer) (ts : List Tick) :
    DnisKept cx (dnisHeard (run cx ts c).2) (run cx ts c).1 := by
  induction ts using List.reverseRecOn with
  | nil => exact hc.dnisKept hl
  | append_singleton ts t ih =>
    have h := tick_dnisKept (t := t) hn hx ih
    have he : (run cx (ts ++ [t]) c).2 = (run cx ts c).2 ++ (tick cx (run cx ts c).1 t).2 := by
      rw [run, Runs.exec_append, Runs.exec, Runs.exec]
      simp [run]
    rw [he, run_snoc, dnisHeard, List.foldl_append]
    exact h

/-- Neither function that sets the length of the DNIS leaves more than the buffer holds. -/
theorem Configured.maxDnis_lt (h : Configured cx) : cx.maxDnis < maxDnisBuffer := by
  have hb : ∀ v : Int, (if v ≥ (maxDnisBuffer : Int) then (maxDnisBuffer : Int) - 1 else v) <
      maxDnisBuffer := by
    intro v
    split <;> omega
  induction h with
  | new variant a d cx h =>
    obtain ⟨e, he, -, rfl⟩ := contextNew_some h
    have hd := hb d
    simp only [r2variants, List.mem_cons, List.not_mem_nil, or_false] at he
    rcases he with rfl | rfl | rfl | rfl | rfl | rfl | rfl | rfl | rfl | rfl
    all_goals exact hd
  | maxDnis v cx _ _ => exact hb v
  | _ v cx _ ih => exact ih

/-- In a call that comes in, the DNIS is the digits that were handled, in their order, and no
more of them than were to be; and none is ever dropped. -/
theorem dnis_kept (hn : 0 ≤ cx.maxDnis) (hx : cx.maxDnis < maxDnisBuffer) (hc : Started cx c)
    (hl : c.dnis.length = maxDnisBuffer) (ts : List Tick) :
    (let d := (run cx ts c).1
      let ds := dnisHeard (run cx ts c).2
      d.direction = .backward → d.dnis.take d.dnisLen = ds ∧ d.dnisLen = ds.length ∧
        d.dnis[d.dnisLen]? = some 0 ∧ (d.dnisLen : Int) ≤ max 1 cx.maxDnis ∧
        max 1 cx.maxDnis ≤ maxDnisBuffer - 1) ∧
      ∀ t tone,
        let d := (run cx ts c).1
        (.event (.onDnisDigitReceived tone) ∈ (tick cx d t).2 ↔ DnisDigitComes cx d t tone) ∧
          (DnisDigitComes cx d t tone → .storeDnis d.dnisLen tone ∈ (tick cx d t).2) := by
  have hk := run_dnisKept hn hx hc hl ts
  refine ⟨fun hb => ?_, fun t tone => ⟨digit_reported_iff hk.held tone, hk.stored hn hx⟩⟩
  obtain ⟨hd, hlen, he⟩ := hk.holds (.inl hb)
  refine ⟨hd, hlen.symm, he, (hk.room hb).len, ?_⟩
  simp only [maxDnisBuffer] at hx ⊢
  omega

/-- Two digits of four. -/
theorem dnis_kept_itu :
    let cx := setAniFirst 0 (configureItu 10 4 { R2Context.zero with variant := .itu })
    let d := (run cx (seizeTicks ++ toneTicks (Env.fair 0x1) [Tone.t5, Tone.t1]) (restingChannel cx)).1
    d.dnis.take d.dnisLen = [Tone.t5, Tone.t1] ∧ d.dnisLen = 2 := by
  intro cx d
  have hx : Configured cx := .aniFirst 0 _ (.new .itu 10 4 _ rfl)
  have hk := (dnis_kept (by decide) hx.maxDnis_lt
    (.idle (Env.fair 0x9) R2Chan.new) (by decide +kernel)
    (seizeTicks ++ toneTicks (Env.fair 0x1) [Tone.t5, Tone.t1])).1 (by decide +kernel)
  have hd : dnisHeard (run cx (seizeTicks ++ toneTicks (Env.fair 0x1) [Tone.t5, Tone.t1])
      (restingChannel cx)).2 = [Tone.t5, Tone.t1] := by
    decide +kernel
  exact ⟨hk.1.trans hd, hk.2.1.trans (congrArg List.length hd)⟩

end Ticks

end OpenR2
