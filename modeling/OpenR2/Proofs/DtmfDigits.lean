import OpenR2.Media
import OpenR2.Proofs.RegisterTurns

namespace OpenR2

/-- The acts of taking a DTMF digit. -/
def Act.TakesDnis : Act → Prop
  | .storeDnis .. | .event (.onDnisDigitReceived _) => True
  | _ => False

section Contained

variable (env : Env)

/-- Among these acts the user answered a digit with 0. The answer was given to all that had
been done until then. -/
def Refused (h as : List Act) : Prop :=
  ∃ pre digit post, as = pre ++ .event (.onDnisDigitReceived digit) :: post ∧
    env.onDnisDigitReceived (h ++ pre) = false

/-- Every digit is stored where it and its NUL are inside `dnis`, and none after a refusal. -/
structure DnisContained (h as : List Act) : Prop where
  inside : ∀ index digit, .storeDnis index digit ∈ as → index < maxDnisBuffer - 1
  stopped : ∀ pre post, as = pre ++ post → Refused env h pre → ∀ index digit,
    .storeDnis index digit ∉ post

variable {env} {h as bs : List Act}

theorem Refused.append (hr : Refused env h as) (bs : List Act) : Refused env h (as ++ bs) := by
  obtain ⟨pre, digit, post, rfl, hx⟩ := hr
  exact ⟨pre, digit, post ++ bs, by simp, hx⟩

theorem refused_append : Refused env h (as ++ bs) ↔ Refused env h as ∨ Refused env (h ++ as) bs := by
  constructor
  · rintro ⟨pre, digit, post, he, hx⟩
    rcases List.append_eq_append_iff.mp he with ⟨xs, rfl, rfl⟩ | ⟨xs, rfl, hp⟩
    · exact .inr ⟨xs, digit, post, rfl, by rwa [List.append_assoc]⟩
    · cases xs with
      | nil =>
        refine .inr ⟨[], digit, post, by simpa using hp.symm, ?_⟩
        simpa using hx
      | cons x xs =>
        obtain ⟨rfl, rfl⟩ := List.cons_eq_cons.mp hp
        exact .inl ⟨pre, digit, xs, rfl, hx⟩
  · rintro (hr | ⟨pre, digit, post, rfl, hx⟩)
    · exact hr.append bs
    · exact ⟨as ++ pre, digit, post, by simp, by rwa [← List.append_assoc]⟩

/-- Nobody refuses where nobody is asked. -/
theorem not_refused (hn : ∀ a ∈ as, ¬ a.TakesDnis) : ¬ Refused env h as := by
  rintro ⟨pre, digit, _, rfl, -⟩
  exact hn (.event (.onDnisDigitReceived digit)) (by simp) trivial

theorem not_refused_store (i : Nat) (digit : Tone) : ¬ Refused env h [.storeDnis i digit] := by
  rintro ⟨pre, x, post, he, -⟩
  have hx : .event (.onDnisDigitReceived x) ∈ [Act.storeDnis i digit] := by
    rw [he]
    simp
  simp at hx

theorem dnisContained_of_none (hn : ∀ a ∈ as, ¬ a.TakesDnis) : DnisContained env h as where
  inside _ _ hm := (hn _ hm trivial).elim
  stopped pre _ he _ index digit hm :=
    hn (.storeDnis index digit) (he ▸ List.mem_append_right pre hm) trivial

theorem DnisContained.left (hc : DnisContained env h (as ++ bs)) : DnisContained env h as where
  inside index digit hm := hc.inside index digit (List.mem_append_left bs hm)
  stopped pre post he hr index digit hm :=
    hc.stopped pre (post ++ bs) (by rw [he, List.append_assoc]) hr index digit
      (List.mem_append_left bs hm)

theorem DnisContained.right (hc : DnisContained env h (as ++ bs)) :
    DnisContained env (h ++ as) bs where
  inside index digit hm := hc.inside index digit (List.mem_append_right as hm)
  stopped pre post he hr :=
    hc.stopped (as ++ pre) post (by rw [he, List.append_assoc]) (refused_append.mpr (.inr hr))

theorem DnisContained.append (ha : DnisContained env h as) (hb : DnisContained env (h ++ as) bs)
    (hr : Refused env h as → ∀ index digit, .storeDnis index digit ∉ bs) :
    DnisContained env h (as ++ bs) where
  inside index digit hm := (List.mem_append.mp hm).elim (ha.inside index digit) (hb.inside index digit)
  stopped pre post he hx index digit hm := by
    rcases List.append_eq_append_iff.mp he with ⟨xs, rfl, rfl⟩ | ⟨xs, rfl, rfl⟩
    · rcases refused_append.mp hx with hx | hx
      · exact hr hx index digit (List.mem_append_right xs hm)
      · exact hb.stopped xs post rfl hx index digit hm
    · rcases List.mem_append.mp hm with hm | hm
      · exact ha.stopped pre xs rfl hx index digit hm
      · exact hr (hx.append xs) index digit hm

end Contained

section Reports

variable (cx : R2Context) (env : Env)

/-- Reports of the DTMF detector, one after the other. -/
def onDtmfReports (reports : List (Option (List Tone))) (m : MediaChan) : MediaChan :=
  reports.foldl (fun m digits => onDtmfReceived cx env digits m) m

/-- A digit in `dnis`, before the user hears of it. -/
def keepDtmfDigit (digit : Tone) (c : R2Chan) : R2Chan :=
  { c.did (.storeDnis c.dnisLen digit) with
    dnis := (c.dnis.set c.dnisLen digit).set (c.dnisLen + 1) 0
    dnisLen := c.dnisLen + 1 }

/-- No digit but the last is answered with 0. -/
def WantsRest : List Tone → R2Chan → Prop
  | [], _ | [_], _ => True
  | digit :: digits, c =>
    env.onDnisDigitReceived (keepDtmfDigit digit c).out = true ∧
      WantsRest digits (receiveDtmfDigit cx env digit c)

/-- There is room for the digits of a report that is not ignored, and the user wants them all. -/
def ReportFits (digits : Option (List Tone)) (c : R2Chan) : Prop :=
  ∀ s ∈ digits, c.callDnisCallback = true → cstr s ≠ [] →
    c.dnisLen + (cstr s).length < maxDnisBuffer ∧ WantsRest cx env (cstr s) c

def ReportsFit : List (Option (List Tone)) → MediaChan → Prop
  | [], _ => True
  | digits :: reports, m =>
    ReportFits cx env digits m.chan ∧ ReportsFit reports (onDtmfReceived cx env digits m)

variable {cx env} {c d : R2Chan}

/-- The rest of the library takes no DTMF digit. -/
structure R2Chan.Untaken (c d : R2Chan) : Prop where
  dnisLen : d.dnisLen ≤ c.dnisLen
  out : ∃ as, d.out = c.out ++ as ∧ ∀ a ∈ as, ¬ a.TakesDnis

theorem R2Chan.Untaken.refl (c : R2Chan) : c.Untaken c :=
  ⟨le_rfl, [], (List.append_nil _).symm, by simp⟩

theorem R2Chan.Untaken.trans {e : R2Chan} (h : c.Untaken d) (h' : d.Untaken e) : c.Untaken e := by
  obtain ⟨as, ho, ha⟩ := h.out
  obtain ⟨bs, ho', hb⟩ := h'.out
  refine ⟨h'.dnisLen.trans h.dnisLen, as ++ bs, by rw [ho', ho, List.append_assoc], fun a hm => ?_⟩
  exact (List.mem_append.mp hm).elim (ha a) (hb a)

theorem Act.Aside.not_takes {a : Act} (h : a.Aside) : ¬ a.TakesDnis := by
  cases a with
  | event e => cases e <;> first | exact h.elim | exact id
  | storeDnis => exact h.elim
  | _ => exact id

theorem R2Chan.Aside.untaken (h : c.Aside d) : c.Untaken d := by
  obtain ⟨as, ho, ha, -⟩ := h.out
  exact ⟨(congrArg Numbers.dnisLen h.numbers).le, as, ho, fun a hm => (ha a hm).not_takes⟩

theorem R2Chan.Reset.untaken (h : c.Reset d) : c.Untaken d := by
  obtain ⟨⟨rx, r, w, x, y, hf⟩, as, ho, ha⟩ := h
  refine ⟨by rw [hf]; exact Nat.zero_le _, as ++ [.callState .idle], by rw [ho]; simp, fun a hm => ?_⟩
  rcases List.mem_append.mp hm with hm | hm
  · exact (ha a hm).aside.not_takes
  · rw [List.mem_singleton.mp hm]
    exact id

theorem R2Chan.Sends.untaken (h : c.Sends d) : c.Untaken d := by
  obtain ⟨as, ho, ha⟩ := h.out
  refine ⟨h.dnisLen.le, as, ho, fun a hm => ?_⟩
  rcases ha a hm with hx | ⟨i, rfl⟩ | ⟨i, rfl⟩ | ⟨m, rfl⟩
  · exact hx.not_takes
  · exact id
  · exact id
  · exact id

theorem handleProtocolError_untaken (reason : ProtocolError) :
    c.Untaken (handleProtocolError cx env reason c) := by
  have hd : c.Aside (c.did (.mfSelectTone c.mfWriteHandle 0)) :=
    .did c _ trivial fun h t he => by injection he with _ ht; exact ht.symm
  generalize he : c.did (.mfSelectTone c.mfWriteHandle 0) = e at hd
  have hi : e.Untaken (setIdle cx env e).1 :=
    (protoInit_reset cx e).untaken.trans (R2Chan.Aside.setCasSignal cx env .idle _).untaken
  rw [handleProtocolError, he]
  exact (hd.untaken.trans hi).trans (R2Chan.Aside.emit _ (.onProtocolError reason) trivial).untaken

theorem Turns.untaken (h : Turns cx env (fun _ => False) c d) : c.Untaken d := by
  induction h with
  | refl => exact .refl c
  | tail _ ht ih =>
    refine ih.trans ?_
    cases ht with
    | aside _ h => exact h.untaken
    | reset _ h => exact h.untaken
    | seize _ hw => exact hw.elim
    | place _ h =>
      obtain ⟨ani, dnis, cat, r, hn⟩ := h.numbers
      exact ⟨(congrArg Numbers.dnisLen hn).le, _, h.out, by simp [Act.TakesDnis]⟩
    | dial =>
      rename_i b _ _
      have hb : b.Untaken ((b.setR2State .seizeAckRxd).setMfGroup .gi) :=
        ⟨le_rfl, [], (List.append_nil _).symm, by simp⟩
      generalize (b.setR2State .seizeAckRxd).setMfGroup .gi = e at hb
      refine hb.trans ?_
      rcases mfSendDnis_answers cx env e 0 with hs | ⟨f, r, hs, he⟩
      · exact hs.untaken
      · rw [he]
        exact hs.untaken.trans (handleProtocolError_untaken r)
    | send _ hw => exact hw.elim
    | collect _ hw => exact hw.elim

/-- One digit: it is stored, the user hears of it, and may do something else. -/
theorem receiveDtmfDigit_spec (digit : Tone) (c : R2Chan) :
    (receiveDtmfDigit cx env digit c).dnisLen ≤ c.dnisLen + 1 ∧
      (env.onDnisDigitReceived (keepDtmfDigit digit c).out = false →
        (receiveDtmfDigit cx env digit c).callDnisCallback = false) ∧
      ∃ as, (∀ a ∈ as, ¬ a.TakesDnis) ∧ (receiveDtmfDigit cx env digit c).out = c.out ++
        ([.storeDnis c.dnisLen digit, .event (.onDnisDigitReceived digit)] ++ as) := by
  have ht := (callback_turns cx env (fun _ => False) (keepDtmfDigit digit c)
    (.onDnisDigitReceived digit)).untaken
  have hk : (keepDtmfDigit digit c).dnisLen = c.dnisLen + 1 := rfl
  have ho : (keepDtmfDigit digit c).out = c.out ++ [.storeDnis c.dnisLen digit] := rfl
  have hr : receiveDtmfDigit cx env digit c =
      if env.onDnisDigitReceived (keepDtmfDigit digit c).out then
        callback cx env (.onDnisDigitReceived digit) (keepDtmfDigit digit c)
      else stopDnisCallback (callback cx env (.onDnisDigitReceived digit) (keepDtmfDigit digit c)) := rfl
  rw [hr]
  generalize keepDtmfDigit digit c = k at *
  obtain ⟨hl, as, hx, ha⟩ := ht
  have hx : (callback cx env (.onDnisDigitReceived digit) k).out = c.out ++
      ([.storeDnis c.dnisLen digit, .event (.onDnisDigitReceived digit)] ++ as) := by
    rw [hx, show (k.emit (.onDnisDigitReceived digit)).out = k.out ++ [_] from rfl, ho]
    simp
  generalize callback cx env (.onDnisDigitReceived digit) k = d at *
  have hl : d.dnisLen ≤ c.dnisLen + 1 := hk ▸ hl
  split_ifs with hw
  · exact ⟨hl, fun hn => absurd (hw.symm.trans hn) (by decide), as, ha, hx⟩
  · exact ⟨hl, fun _ => rfl, as, ha, hx⟩

/-- A digit is refused by the answer it gets. -/
theorem refused_digit {h as : List Act} (i : Nat) (digit : Tone) (ha : ∀ a ∈ as, ¬ a.TakesDnis) :
    Refused env h ([.storeDnis i digit, .event (.onDnisDigitReceived digit)] ++ as) ↔
      env.onDnisDigitReceived (h ++ [.storeDnis i digit]) = false := by
  constructor
  · intro hr
    rcases refused_append.mp hr with ⟨pre, x, post, he, hx⟩ | hr
    · match pre, he with
      | [y], he =>
        obtain ⟨rfl, -⟩ := List.cons_eq_cons.mp he
        exact hx
      | y :: z :: pre, he => simp at he
    · exact absurd hr (not_refused ha)
  · exact fun hx => ⟨[.storeDnis i digit], digit, as, rfl, hx⟩

theorem dnisContained_digit {h as : List Act} {i : Nat} (digit : Tone) (hi : i < maxDnisBuffer - 1)
    (ha : ∀ a ∈ as, ¬ a.TakesDnis) :
    DnisContained env h ([.storeDnis i digit, .event (.onDnisDigitReceived digit)] ++ as) := by
  have hs : DnisContained env h [.storeDnis i digit] := by
    refine ⟨fun index digit' hm => ?_, fun pre post he hr index digit' hm => ?_⟩
    · obtain ⟨rfl, -⟩ : index = i ∧ digit' = digit := by simpa using hm
      exact hi
    · exact not_refused_store i digit ((he ▸ hr.append post : Refused env h [.storeDnis i digit]))
  have he : DnisContained env (h ++ [.storeDnis i digit])
      (.event (.onDnisDigitReceived digit) :: as) := by
    have hn : ∀ index digit', .storeDnis index digit' ∉ Act.event (.onDnisDigitReceived digit) :: as := by
      intro index digit' hm
      rcases List.mem_cons.mp hm with hm | hm
      · cases hm
      · exact ha _ hm trivial
    exact ⟨fun index digit' hm => (hn index digit' hm).elim, fun pre post hp _ index digit' hm =>
      hn index digit' (hp ▸ List.mem_append_right pre hm)⟩
  exact (hs.append he fun hr => absurd hr (not_refused_store i digit) :
    DnisContained env h ([.storeDnis i digit] ++ _))

/-- The digits of a report that fits are contained, and after a refusal reports are ignored. -/
theorem digits_contained (digits : List Tone) (c : R2Chan) (hn : digits ≠ [])
    (hl : c.dnisLen + digits.length < maxDnisBuffer) (hw : WantsRest cx env digits c) :
    ∃ as, (digits.foldl (fun c digit => receiveDtmfDigit cx env digit c) c).out = c.out ++ as ∧
      DnisContained env c.out as ∧ (Refused env c.out as →
        (digits.foldl (fun c digit => receiveDtmfDigit cx env digit c) c).callDnisCallback = false) := by
  induction digits generalizing c with
  | nil => exact absurd rfl hn
  | cons digit digits ih =>
    obtain ⟨hx, hs, as, ha, ho⟩ := @receiveDtmfDigit_spec cx env digit c
    have hi : c.dnisLen < maxDnisBuffer - 1 := by
      simp only [List.length_cons] at hl
      omega
    have hc := @dnisContained_digit env c.out as _ digit hi ha
    cases digits with
    | nil =>
      exact ⟨_, ho, hc, fun hr => hs ((refused_digit c.dnisLen digit ha).mp hr)⟩
    | cons next digits =>
      obtain ⟨hwant, hrest⟩ := hw
      have hlen : (receiveDtmfDigit cx env digit c).dnisLen + (next :: digits).length < maxDnisBuffer := by
        simp only [List.length_cons] at hl ⊢
        omega
      obtain ⟨bs, hbo, hbc, hbr⟩ := ih _ (List.cons_ne_nil next digits) hlen hrest
      rw [ho] at hbo hbc hbr
      have hnot : ¬ Refused env c.out
          ([.storeDnis c.dnisLen digit, .event (.onDnisDigitReceived digit)] ++ as) := fun hr =>
        absurd (hwant.symm.trans ((refused_digit c.dnisLen digit ha).mp hr)) (by decide)
      refine ⟨_, by rw [List.foldl_cons, hbo, List.append_assoc], hc.append hbc fun hr => absurd hr hnot,
        fun hr => ?_⟩
      exact hbr ((refused_append.mp hr).resolve_left hnot)

/-- Reports that the user has asked to ignore. -/
theorem onDtmfReports_ignored (reports : List (Option (List Tone))) {m : MediaChan}
    (hs : m.chan.callDnisCallback = false) : (onDtmfReports cx env reports m).chan = m.chan := by
  induction reports generalizing m with
  | nil => rfl
  | cons digits reports ih =>
    have hd : (onDtmfReceived cx env digits m).chan = m.chan := by
      cases digits with
      | none => rfl
      | some s => simp [onDtmfReceived, receiveDtmfDigits, hs]
    exact (ih (m := onDtmfReceived cx env digits m) (hd ▸ hs)).trans hd

theorem reports_contained (reports : List (Option (List Tone))) (m : MediaChan)
    (hf : ReportsFit cx env reports m) :
    ∃ as, (onDtmfReports cx env reports m).chan.out = m.chan.out ++ as ∧
      DnisContained env m.chan.out as := by
  induction reports generalizing m with
  | nil => exact ⟨[], (List.append_nil _).symm, dnisContained_of_none (by simp)⟩
  | cons digits reports ih =>
    obtain ⟨hd, hr⟩ := hf
    obtain ⟨bs, hbo, hbc⟩ := ih _ hr
    have hsame : (onDtmfReceived cx env digits m).chan = m.chan →
        ∃ as, (onDtmfReports cx env (digits :: reports) m).chan.out = m.chan.out ++ as ∧
          DnisContained env m.chan.out as := by
      intro he
      rw [he] at hbo hbc
      exact ⟨bs, hbo, hbc⟩
    cases digits with
    | none => exact hsame rfl
    | some s =>
      by_cases hw : m.chan.callDnisCallback = true
      · have he : (onDtmfReceived cx env (some s) m).chan =
            (cstr s).foldl (fun c digit => receiveDtmfDigit cx env digit c) m.chan := by
          simp [onDtmfReceived, receiveDtmfDigits, hw]
        by_cases hn : cstr s = []
        · exact hsame (by rw [he, hn]; rfl)
        · obtain ⟨hl, hx⟩ := hd s rfl hw hn
          obtain ⟨as, hao, hac, har⟩ := digits_contained (cstr s) m.chan hn hl hx
          rw [← he] at hao har
          rw [hao] at hbo hbc
          refine ⟨as ++ bs, by rw [← List.append_assoc]; exact hbo, hac.append hbc fun hr => ?_⟩
          have hi := @onDtmfReports_ignored cx env reports _ (har hr)
          have hb : bs = [] := by
            have hb := hbo.symm.trans ((congrArg R2Chan.out hi).trans hao)
            simpa using hb
          rw [hb]
          exact fun _ _ => List.not_mem_nil
      · exact hsame (by simp [onDtmfReceived, receiveDtmfDigits, hw])

theorem foldDigits_out (digits : List Tone) (c : R2Chan) : ∃ as,
    (digits.foldl (fun c digit => receiveDtmfDigit cx env digit c) c).out = c.out ++ as := by
  induction digits generalizing c with
  | nil => exact ⟨[], (List.append_nil _).symm⟩
  | cons digit digits ih =>
    obtain ⟨-, -, as, -, ho⟩ := @receiveDtmfDigit_spec cx env digit c
    obtain ⟨bs, hb⟩ := ih (receiveDtmfDigit cx env digit c)
    exact ⟨_, by rw [List.foldl_cons, hb, ho, List.append_assoc]⟩

theorem onDtmfReports_out (reports : List (Option (List Tone))) (m : MediaChan) : ∃ as,
    (onDtmfReports cx env reports m).chan.out = m.chan.out ++ as := by
  induction reports generalizing m with
  | nil => exact ⟨[], (List.append_nil _).symm⟩
  | cons digits reports ih =>
    obtain ⟨as, ho⟩ : ∃ as, (onDtmfReceived cx env digits m).chan.out = m.chan.out ++ as := by
      cases digits with
      | none => exact ⟨[], (List.append_nil _).symm⟩
      | some s =>
        simp only [onDtmfReceived, receiveDtmfDigits]
        split_ifs
        · exact foldDigits_out (cstr s) m.chan
        · exact ⟨[], (List.append_nil _).symm⟩
    obtain ⟨bs, hb⟩ := ih (onDtmfReceived cx env digits m)
    exact ⟨as ++ bs, hb.trans (by rw [ho, List.append_assoc])⟩

/-- A user who does nothing but answer leaves the count of the digits alone. -/
theorem receiveDtmfDigit_quiet (hq : env.Quiet) (digit : Tone) (c : R2Chan) :
    (receiveDtmfDigit cx env digit c).dnisLen = c.dnisLen + 1 ∧
      (receiveDtmfDigit cx env digit c).out = c.out ++
        [.storeDnis c.dnisLen digit, .event (.onDnisDigitReceived digit)] := by
  have hc : callback cx env (.onDnisDigitReceived digit) (keepDtmfDigit digit c) =
      (keepDtmfDigit digit c).emit (.onDnisDigitReceived digit) := by
    simp only [callback, hq _]
  have hr : receiveDtmfDigit cx env digit c =
      if env.onDnisDigitReceived (keepDtmfDigit digit c).out then
        callback cx env (.onDnisDigitReceived digit) (keepDtmfDigit digit c)
      else stopDnisCallback (callback cx env (.onDnisDigitReceived digit) (keepDtmfDigit digit c)) := rfl
  have ho : ((keepDtmfDigit digit c).emit (.onDnisDigitReceived digit)).out = c.out ++
      [.storeDnis c.dnisLen digit, .event (.onDnisDigitReceived digit)] :=
    List.append_assoc c.out [.storeDnis c.dnisLen digit] _
  rw [hr, hc]
  split_ifs
  · exact ⟨rfl, ho⟩
  · exact ⟨rfl, ho⟩

theorem digits_fit (hq : env.Quiet) (digits : List Tone) (c : R2Chan) (as : List Act)
    (hn : digits ≠ [])
    (ho : (digits.foldl (fun c digit => receiveDtmfDigit cx env digit c) c).out = c.out ++ as)
    (hc : DnisContained env c.out as) :
    c.dnisLen + digits.length < maxDnisBuffer ∧ WantsRest cx env digits c := by
  induction digits generalizing c as with
  | nil => exact absurd rfl hn
  | cons digit digits ih =>
    obtain ⟨hl, hx⟩ := @receiveDtmfDigit_quiet cx env hq digit c
    obtain ⟨bs, hb⟩ := @foldDigits_out cx env digits (receiveDtmfDigit cx env digit c)
    obtain rfl : [.storeDnis c.dnisLen digit, .event (.onDnisDigitReceived digit)] ++ bs = as := by
      rw [List.foldl_cons, hb, hx, List.append_assoc] at ho
      exact List.append_cancel_left ho
    have hi := hc.inside c.dnisLen digit (by simp)
    cases digits with
    | nil => exact ⟨by simp only [List.length_cons, List.length_nil]; omega, trivial⟩
    | cons next digits =>
      obtain ⟨hlen, hrest⟩ := ih _ bs (List.cons_ne_nil next digits) hb (by rw [hx]; exact hc.right)
      refine ⟨by simp only [hl, List.length_cons] at hlen ⊢; omega, ?_, hrest⟩
      by_contra hf
      -- the next digit is stored all the same
      obtain ⟨-, hy⟩ := @receiveDtmfDigit_quiet cx env hq next (receiveDtmfDigit cx env digit c)
      obtain ⟨cs, hcs⟩ := @foldDigits_out cx env digits
        (receiveDtmfDigit cx env next (receiveDtmfDigit cx env digit c))
      have hbs : bs = [.storeDnis (receiveDtmfDigit cx env digit c).dnisLen next,
          .event (.onDnisDigitReceived next)] ++ cs := by
        rw [List.foldl_cons, hcs, hy, List.append_assoc] at hb
        exact (List.append_cancel_left hb).symm
      refine hc.stopped [.storeDnis c.dnisLen digit, .event (.onDnisDigitReceived digit)] bs rfl ?_
        (receiveDtmfDigit cx env digit c).dnisLen next (by rw [hbs]; simp)
      exact ⟨[.storeDnis c.dnisLen digit], digit, [], rfl, Bool.eq_false_of_not_eq_true hf⟩

theorem reports_fit (hq : env.Quiet) (reports : List (Option (List Tone))) (m : MediaChan) (as : List Act)
    (ho : (onDtmfReports cx env reports m).chan.out = m.chan.out ++ as)
    (hc : DnisContained env m.chan.out as) : ReportsFit cx env reports m := by
  induction reports generalizing m as with
  | nil => trivial
  | cons digits reports ih =>
    have hkeep : (onDtmfReceived cx env digits m).chan = m.chan →
        ReportsFit cx env reports (onDtmfReceived cx env digits m) := fun he =>
      ih _ as (by rw [he]; exact ho) (by rw [he]; exact hc)
    cases digits with
    | none => exact ⟨nofun, hkeep rfl⟩
    | some s =>
      by_cases hw : m.chan.callDnisCallback = true
      swap
      · exact ⟨fun _ _ hx => absurd hx hw, hkeep (by simp [onDtmfReceived, receiveDtmfDigits, hw])⟩
      have he : (onDtmfReceived cx env (some s) m).chan =
          (cstr s).foldl (fun c digit => receiveDtmfDigit cx env digit c) m.chan := by
        simp [onDtmfReceived, receiveDtmfDigits, hw]
      obtain ⟨as₁, ho₁⟩ := @foldDigits_out cx env (cstr s) m.chan
      rw [← he] at ho₁
      obtain ⟨as₂, ho₂⟩ : ∃ as₂, (onDtmfReports cx env reports (onDtmfReceived cx env (some s) m)).chan.out =
          (onDtmfReceived cx env (some s) m).chan.out ++ as₂ := onDtmfReports_out reports _
      obtain rfl : as₁ ++ as₂ = as := by
        rw [show onDtmfReports cx env (some s :: reports) m =
          onDtmfReports cx env reports (onDtmfReceived cx env (some s) m) from rfl, ho₂, ho₁,
          List.append_assoc] at ho
        exact List.append_cancel_left ho
      refine ⟨fun t ht _ hn => ?_, ih _ as₂ ho₂ (by rw [ho₁]; exact hc.right)⟩
      obtain rfl := Option.mem_some.mp ht
      exact digits_fit hq (cstr s) m.chan as₁ hn (he ▸ ho₁) hc.left

end Reports

/-- Whatever the user does in the callbacks, the reports of a call that fit keep every digit and
its NUL inside `dnis`, and no digit follows a refusal. Where the user only answers, no others do. -/
theorem dtmf_digits_contained_iff (cx : R2Context) (reports : List (Option (List Tone)))
    (m : MediaChan) :
    (∀ env, ReportsFit cx env reports (m.on R2Chan.start) →
      DnisContained env [] (onDtmfReports cx env reports (m.on R2Chan.start)).chan.out) ∧
    ∀ env : Env, env.Quiet →
      (DnisContained env [] (onDtmfReports cx env reports (m.on R2Chan.start)).chan.out ↔
        ReportsFit cx env reports (m.on R2Chan.start)) := by
  have hfit : ∀ env, ReportsFit cx env reports (m.on R2Chan.start) →
      DnisContained env [] (onDtmfReports cx env reports (m.on R2Chan.start)).chan.out := by
    intro env hf
    obtain ⟨as, ho, hc⟩ := reports_contained reports _ hf
    rw [ho]
    exact hc
  exact ⟨hfit, fun env hq => ⟨fun hc => reports_fit hq reports _ _ rfl hc, hfit env⟩⟩

def dtmfInCx : R2Context := { configureItu 10 10 R2Context.zero with detectDtmf := true }

/-- The line was idle, and is seized. -/
def dtmfSeized : MediaChan :=
  (mediaRun dtmfInCx [⟨Env.fair 0x9, .api .setIdle⟩, ⟨Env.fair 0x9, .cas⟩, ⟨Env.fair 0x1, .cas⟩]
    MediaChan.new).1

example : dtmfSeized.chan.callState = .collecting ∧ dtmfSeized.chan.detectingDtmf = true := by
  decide +kernel

/-- The user wants no digit. -/
def refusingEnv : Env := { Env.fair 0x1 with onDnisDigitReceived := fun _ => false }

/-- The eightieth digit leaves no room for its NUL, and a digit that comes with one that was
refused is stored. -/
theorem dtmf_digits_overflow :
    ¬ DnisContained (Env.fair 0x1) [] (onDtmfReports dtmfInCx (Env.fair 0x1)
        (List.replicate 80 (some [Tone.t5])) (dtmfSeized.on R2Chan.start)).chan.out ∧
      ¬ DnisContained refusingEnv [] (onDtmfReports dtmfInCx refusingEnv
        [some [Tone.t5, Tone.t6]] (dtmfSeized.on R2Chan.start)).chan.out := by
  constructor
  · intro h
    exact absurd (h.inside 79 Tone.t5 (by decide +kernel)) (by decide)
  · intro h
    have hout : (onDtmfReports dtmfInCx refusingEnv [some [Tone.t5, Tone.t6]]
        (dtmfSeized.on R2Chan.start)).chan.out =
        [.storeDnis 0 Tone.t5, .event (.onDnisDigitReceived Tone.t5)] ++
          [.storeDnis 1 Tone.t6, .event (.onDnisDigitReceived Tone.t6)] := by decide +kernel
    exact h.stopped _ _ hout ⟨[.storeDnis 0 Tone.t5], Tone.t5, [], rfl, rfl⟩ 1 Tone.t6 (by simp)

end OpenR2
