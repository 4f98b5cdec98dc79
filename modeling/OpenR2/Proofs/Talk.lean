import Mathlib.Tactic.SplitIfs
import OpenR2.Dialogue

namespace OpenR2

namespace Talk

section Words

variable (cx : R2Context) (k : Dialled)

/-- When who calls is asked for, after the first digit or after all of them. -/
def pause : Nat := if cx.getAniFirst then 1 else k.taken cx

/-- What can be said, and what is known by then. -/
inductive Fits : Talk → Prop where
  | first (i : Nat) (hi : i < k.taken cx) (hf : cx.getAniFirst = true → i = 0) :
      Fits ⟨.dnis, i, 0, false, false⟩
  | later (i : Nat) (hi : i < k.taken cx) (hf : cx.getAniFirst = true) (h0 : 0 < i) :
      Fits ⟨.dnis, i, k.heard cx, true, k.ended cx⟩
  | dnisEnd (hn : k.dnis.length < Dialled.dnisRoom cx) (hf : cx.getAniFirst = false) :
      Fits ⟨.dnisEnd, k.dnis.length, 0, false, false⟩
  | laterEnd (hn : k.dnis.length < Dialled.dnisRoom cx) (hf : cx.getAniFirst = true) :
      Fits ⟨.dnisEnd, k.dnis.length, k.heard cx, true, k.ended cx⟩
  | category (hs : cx.skipCategory = false) : Fits ⟨.category, pause cx k, 0, false, false⟩
  | ani (j : Nat) (ha : Dialled.AsksAni cx) (hj : j < k.heard cx) : Fits ⟨.ani, pause cx k, j, true, false⟩
  | aniEnd (ha : Dialled.AsksAni cx) (hm : k.aniDigits.length < Dialled.aniRoom cx) :
      Fits ⟨.aniEnd, pause cx k, k.aniDigits.length, true, false⟩
  | groupTwo : Fits ⟨.groupTwo, k.taken cx, k.heard cx, !cx.skipCategory, k.ended cx⟩

/-- All is known that is to be known. -/
structure Whole (t : Talk) : Prop where
  taken : t.taken = k.taken cx
  heard : t.heard = k.heard cx
  named : t.named = !cx.skipCategory
  ended : t.ended = k.ended cx

/-- A bound of the words that are still to come. -/
def left (t : Talk) : Nat :=
  match t.word with
  | .dnis => k.dnis.length - t.taken + if t.named then 2 else k.aniDigits.length + 6
  | .dnisEnd => if t.named then 1 else k.aniDigits.length + 5
  | .category => k.dnis.length - t.taken + k.aniDigits.length + 4
  | .ani => k.dnis.length - t.taken + (k.aniDigits.length - t.heard) + 3
  | .aniEnd => k.dnis.length - t.taken + 3
  | .groupTwo => 0

/-- The DNIS can still go on after this word. -/
def GoesOn (t : Talk) : Prop :=
  t.word = .dnis ∨ cx.getAniFirst = true ∧ (t.word = .category ∨ t.word = .ani ∨ t.word = .aniEnd)

/-- Which word can follow another. -/
structure Follows (t next : Talk) : Prop where
  keeps : next = { t.hear with word := next.word }
  dnis : next.word = .dnis ∨ next.word = .dnisEnd → t.GoesOn cx ∧ 0 < next.taken
  category : next.word = .category → (t.word = .dnis ∨ t.word = .dnisEnd) ∧ t.named = false
  ani : next.word = .ani ∨ next.word = .aniEnd → t.word = .category ∨ t.word = .ani
  groupTwo : t.word ≠ .groupTwo

end Words

section Moves

variable {cx : R2Context} {k : Dialled} {t next : Talk}

/-- What is to be so of the word that is asked for after this one. -/
structure Leads (cx : R2Context) (k : Dialled) (t : Talk) (next : Option Talk) : Prop where
  fits : ∀ u, next = some u → u.Fits cx k ∧ u.left k < t.left k ∧ t.Follows cx u
  whole : next = none → t.hear.Whole cx k

theorem Leads.groupTwo (h : t.hear.Whole cx k) (hw : t.word ≠ .groupTwo) (hl : 0 < t.left k) :
    Leads cx k t (some { t.hear with word := .groupTwo }) := by
  refine ⟨fun u hu => ?_, (by rintro ⟨⟩)⟩
  obtain rfl := Option.some.inj hu
  have he : { t.hear with word := .groupTwo } =
      (⟨.groupTwo, k.taken cx, k.heard cx, !cx.skipCategory, k.ended cx⟩ : Talk) := by
    rw [Talk.mk.injEq]
    exact ⟨rfl, h.taken, h.heard, h.named, h.ended⟩
  refine ⟨he ▸ .groupTwo, hl, rfl, ?_, ?_, ?_, hw⟩
  · exact fun h => h.elim (by rintro ⟨⟩) (by rintro ⟨⟩)
  · rintro ⟨⟩
  · exact fun h => h.elim (by rintro ⟨⟩) (by rintro ⟨⟩)

theorem Leads.finish (h : t.hear.Whole cx k) (hw : t.word ≠ .groupTwo) (hl : 0 < t.left k) :
    Leads cx k t (t.hear.finish cx) := by
  rw [Talk.finish]
  split_ifs
  · exact ⟨by rintro _ ⟨⟩, fun _ => h⟩
  · exact .groupTwo h hw hl

theorem Leads.askWho (ho : k.InOrder cx) (hw : t.word = .dnis ∨ t.word = .dnisEnd) (hn : t.named = false)
    (ht : { t.hear with word := .category } = ⟨.category, pause cx k, 0, false, false⟩)
    (hl : k.dnis.length - pause cx k + k.aniDigits.length + 4 < t.left k) :
    Leads cx k t (t.hear.askWho cx) := by
  have hg : t.word ≠ .groupTwo := by rcases hw with h | h <;> rw [h] <;> rintro ⟨⟩
  obtain ⟨-, h1, h2, h3, h4⟩ := Talk.mk.inj ht
  rw [Talk.askWho]
  split_ifs with hs
  · have ha : ¬ Dialled.AsksAni cx := fun ha => absurd ha.1 (by rw [hs]; rintro ⟨⟩)
    have hf : cx.getAniFirst = false := Bool.eq_false_of_not_eq_true fun hf => ha (ho hf).2
    refine .finish ⟨?_, ?_, ?_, ?_⟩ hg (by omega)
    · rw [h1, pause, hf]
      rfl
    · rw [h2, Dialled.heard, if_neg ha]
    · rw [h3, hs]
      rfl
    · rw [h4, Dialled.ended, decide_eq_false fun h => ha h.1]
  · refine ⟨fun u hu => ?_, (by rintro ⟨⟩)⟩
    obtain rfl := Option.some.inj hu
    refine ⟨ht ▸ .category (Bool.eq_false_of_not_eq_true hs), ?_, rfl, ?_, fun _ => ⟨hw, hn⟩, ?_, hg⟩
    · rw [ht]
      exact hl
    · exact fun h => h.elim (by rintro ⟨⟩) (by rintro ⟨⟩)
    · exact fun h => h.elim (by rintro ⟨⟩) (by rintro ⟨⟩)

theorem Leads.askDnis (hw : t.GoesOn cx) (h0 : 0 < t.hear.taken) (hin : t.hear.taken < Dialled.dnisRoom cx)
    (hle : t.hear.taken ≤ k.dnis.length)
    (ht : cx.getAniFirst = false ∧ t.hear.heard = 0 ∧ t.hear.named = false ∧ t.hear.ended = false ∨
      cx.getAniFirst = true ∧ t.hear.heard = k.heard cx ∧ t.hear.named = true ∧
        t.hear.ended = k.ended cx)
    (hl : k.dnis.length - t.hear.taken + (if t.hear.named then 2 else k.aniDigits.length + 6) < t.left k) :
    Leads cx k t (some (t.hear.askDnis k)) := by
  have hg : t.word ≠ .groupTwo := by
    rcases hw with h | ⟨-, h | h | h⟩ <;> rw [h] <;> rintro ⟨⟩
  refine ⟨fun u hu => ?_, (by rintro ⟨⟩)⟩
  obtain rfl := Option.some.inj hu
  have hfollows : t.Follows cx (t.hear.askDnis k) := by
    refine ⟨rfl, fun _ => ⟨hw, h0⟩, ?_, ?_, hg⟩
    · simp only [Talk.askDnis]
      split_ifs <;> rintro ⟨⟩
    · simp only [Talk.askDnis]
      split_ifs <;> exact fun h => h.elim (by rintro ⟨⟩) (by rintro ⟨⟩)
  refine ⟨?_, ?_, hfollows⟩
  · generalize t.hear = v at *
    obtain ⟨w, i, j, named, ended⟩ := v
    dsimp only [Talk.askDnis] at *
    split_ifs with hi
    · have hi' : i < k.taken cx := by
        rw [Dialled.taken]
        omega
      rcases ht with ⟨hf, rfl, rfl, rfl⟩ | ⟨hf, rfl, rfl, rfl⟩
      · exact .first i hi' fun h => absurd h (by rw [hf]; rintro ⟨⟩)
      · exact .later i hi' hf h0
    · obtain rfl : i = k.dnis.length := by omega
      rcases ht with ⟨hf, rfl, rfl, rfl⟩ | ⟨hf, rfl, rfl, rfl⟩
      · exact .dnisEnd hin hf
      · exact .laterEnd hin hf
  · refine lt_of_le_of_lt ?_ hl
    generalize t.hear = v
    obtain ⟨w, i, j, named, ended⟩ := v
    cases named <;> simp only [Talk.askDnis, left] <;> split_ifs <;> dsimp only <;> omega

theorem Leads.askAni (hw : t.word = .category ∨ t.word = .ani) (ha : Dialled.AsksAni cx) {j : Nat}
    (ht : { t.hear with word := .ani } = ⟨.ani, pause cx k, j, true, false⟩) (hj : j < Dialled.aniRoom cx)
    (hle : j ≤ k.aniDigits.length)
    (hl : k.dnis.length - pause cx k + (k.aniDigits.length - j) + 3 < t.left k) :
    Leads cx k t (some (t.hear.askAni k)) := by
  have hg : t.word ≠ .groupTwo := by rcases hw with h | h <;> rw [h] <;> rintro ⟨⟩
  refine ⟨fun u hu => ?_, (by rintro ⟨⟩)⟩
  obtain rfl := Option.some.inj hu
  have hfollows : t.Follows cx (t.hear.askAni k) := by
    refine ⟨rfl, ?_, ?_, fun _ => hw, hg⟩
    · simp only [Talk.askAni]
      split_ifs <;> exact fun h => h.elim (by rintro ⟨⟩) (by rintro ⟨⟩)
    · simp only [Talk.askAni]
      split_ifs <;> rintro ⟨⟩
  refine ⟨?_, ?_, hfollows⟩
  · generalize t.hear = v at *
    obtain ⟨w, i, j', named, ended⟩ := v
    obtain ⟨-, rfl, rfl, rfl, rfl⟩ := Talk.mk.inj ht
    dsimp only [Talk.askAni] at *
    split_ifs with hi
    · refine .ani j' ha ?_
      rw [Dialled.heard, if_pos ha]
      omega
    · obtain rfl : j' = k.aniDigits.length := by omega
      exact .aniEnd ha hj
  · refine lt_of_le_of_lt ?_ hl
    generalize t.hear = v at *
    obtain ⟨w, i, j', named, ended⟩ := v
    obtain ⟨-, rfl, rfl, rfl, rfl⟩ := Talk.mk.inj ht
    simp only [Talk.askAni, left]
    dsimp only at *
    split_ifs <;> dsimp only <;> omega

theorem Leads.aniDone (ho : k.InOrder cx) (hw : t.word = .ani ∨ t.word = .aniEnd) (ha : Dialled.AsksAni cx)
    (ht : { t.hear with word := .ani } = ⟨.ani, pause cx k, k.heard cx, true, k.ended cx⟩)
    (hl : k.dnis.length - pause cx k + 2 < t.left k) : Leads cx k t (t.hear.aniDone cx k) := by
  have hg : t.word ≠ .groupTwo := by rcases hw with h | h <;> rw [h] <;> rintro ⟨⟩
  obtain ⟨-, h1, h2, h3, h4⟩ := Talk.mk.inj ht
  rw [Talk.aniDone]
  split_ifs with hc
  · refine .finish ⟨?_, h2, ?_, h4⟩ hg (by omega)
    · rw [h1, pause]
      split_ifs with hf
      · have hn := List.length_pos_iff.mpr (ho hf).1
        have hroom := hc.resolve_left (by rw [hf]; rintro ⟨⟩)
        rw [Complete, h1, pause, if_pos hf] at hroom
        rw [Dialled.taken, Dialled.dnisRoom]
        omega
      · rfl
    · rw [h3, ha.1]
      rfl
  · obtain ⟨hf, hc⟩ := not_or.mp hc
    have hf : cx.getAniFirst = true := by simpa using hf
    have hn := List.length_pos_iff.mpr (ho hf).1
    rw [pause, if_pos hf] at h1 hl
    rw [Complete, h1] at hc
    refine .askDnis (.inr ⟨hf, .inr hw⟩) (by omega) ?_ (by omega) (.inr ⟨hf, h2, h3, h4⟩) ?_
    · rw [Dialled.dnisRoom, h1]
      omega
    · rw [h3, if_pos rfl, h1]
      exact hl

theorem Follows.taken (h : t.Follows cx next) : next.taken = t.hear.taken := by rw [h.keeps]

theorem Follows.heard (h : t.Follows cx next) : next.heard = t.hear.heard := by rw [h.keeps]

theorem Follows.named (h : t.Follows cx next) : next.named = t.hear.named := by rw [h.keeps]

theorem ask_hear (t : Talk) : t.hear.ask cx k = match t.word with
    | .dnis =>
      if t.hear.Complete cx then
        if t.hear.taken = 1 ∨ cx.getAniFirst = false then t.hear.askWho cx else t.hear.finish cx
      else if t.hear.taken = 1 ∧ cx.getAniFirst then t.hear.askWho cx
      else some (t.hear.askDnis k)
    | .dnisEnd => if t.hear.taken = 0 ∨ cx.getAniFirst = false then t.hear.askWho cx else t.hear.finish cx
    | .category =>
      if 0 < cx.maxAni then some (t.hear.askAni k)
      else if cx.gaTones.requestCategory ≠ 0 then t.hear.finish cx
      else some { t.hear with word := .groupTwo }
    | .ani => if t.hear.heard < uint32 cx.maxAni then some (t.hear.askAni k) else t.hear.aniDone cx k
    | .aniEnd => t.hear.aniDone cx k
    | .groupTwo => none := by
  obtain ⟨w, i, j, named, ended⟩ := t
  cases w <;> rfl

/-- What the called side asks for is in order, and when it asks for nothing more it knows all. -/
theorem Fits.leads (ho : k.InOrder cx) (h : t.Fits cx k) : Leads cx k t (t.hear.ask cx k) := by
  have hpause : cx.getAniFirst = true → pause cx k = 1 := fun hf => if_pos hf
  have hpause' : cx.getAniFirst = false → pause cx k = k.taken cx := fun hf => if_neg (by rw [hf]; rintro ⟨⟩)
  have hskip : cx.getAniFirst = true → cx.skipCategory = false := fun hf => (ho hf).2.1
  have htaken : k.taken cx = min k.dnis.length (max 1 (uint32 cx.maxDnis)) := rfl
  have hheard : Dialled.AsksAni cx → k.heard cx = min k.aniDigits.length (max 1 (uint32 cx.maxAni)) :=
    fun ha => if_pos ha
  have hended : Dialled.AsksAni cx → k.ended cx = decide (k.aniDigits.length < max 1 (uint32 cx.maxAni)) :=
    fun ha => by simp [Dialled.ended, ha, Dialled.aniRoom]
  rw [ask_hear]
  cases h with
  | first i hi hf =>
    have hwho : i + 1 = pause cx k → Leads cx k ⟨.dnis, i, 0, false, false⟩
        ((Talk.hear ⟨.dnis, i, 0, false, false⟩).askWho cx) := by
      intro hp
      refine .askWho ho (.inl rfl) rfl ?_ ?_
      · rw [← hp]
        rfl
      · simp only [left, Bool.false_eq_true, if_false]
        omega
    dsimp only
    split_ifs with hc hw hw
    · refine hwho ?_
      change uint32 cx.maxDnis ≤ i + 1 at hc
      rcases Bool.eq_false_or_eq_true cx.getAniFirst with hf' | hf'
      · rw [hf hf', hpause hf']
      · rw [hpause' hf']
        omega
    · rcases Bool.eq_false_or_eq_true cx.getAniFirst with hf' | hf'
      · exact absurd (.inl (congrArg (· + 1) (hf hf'))) hw
      · exact absurd (.inr hf') hw
    · exact hwho (by rw [hpause hw.2, hf hw.2])
    · have hf' : cx.getAniFirst = false := by
        rcases Bool.eq_false_or_eq_true cx.getAniFirst with hf' | hf'
        · exact absurd ⟨congrArg (· + 1) (hf hf'), hf'⟩ hw
        · exact hf'
      change ¬ uint32 cx.maxDnis ≤ i + 1 at hc
      refine .askDnis (.inl rfl) (Nat.succ_pos i) ?_ ?_ (.inl ⟨hf', rfl, rfl, rfl⟩) ?_
      · change i + 1 < max 1 (uint32 cx.maxDnis)
        omega
      · change i + 1 ≤ k.dnis.length
        omega
      · simp only [left, hear, Bool.false_eq_true, if_false]
        omega
  | later i hi hf h0 =>
    have hn : ¬ (Talk.hear ⟨.dnis, i, k.heard cx, true, k.ended cx⟩).taken = 1 := by
      change ¬ i + 1 = 1
      omega
    dsimp only
    have hno : ¬ ((Talk.hear ⟨.dnis, i, k.heard cx, true, k.ended cx⟩).taken = 1 ∨ cx.getAniFirst = false) :=
      fun h => h.elim hn (by rw [hf]; rintro ⟨⟩)
    have hno' : ¬ ((Talk.hear ⟨.dnis, i, k.heard cx, true, k.ended cx⟩).taken = 1 ∧ cx.getAniFirst = true) :=
      fun h => hn h.1
    rw [if_neg hno, if_neg hno']
    split_ifs with hc
    · change uint32 cx.maxDnis ≤ i + 1 at hc
      refine .finish ⟨?_, rfl, ?_, rfl⟩ (by rintro ⟨⟩) ?_
      · change i + 1 = k.taken cx
        omega
      · rw [hskip hf]
        rfl
      · simp only [left, if_true]
        omega
    · change ¬ uint32 cx.maxDnis ≤ i + 1 at hc
      refine .askDnis (.inl rfl) (Nat.succ_pos i) ?_ ?_ (.inr ⟨hf, rfl, rfl, rfl⟩) ?_
      · change i + 1 < max 1 (uint32 cx.maxDnis)
        omega
      · change i + 1 ≤ k.dnis.length
        omega
      · simp only [left, hear, if_true]
        omega
  | dnisEnd hn hf =>
    dsimp only
    rw [if_pos (.inr hf)]
    have hn' : k.dnis.length < max 1 (uint32 cx.maxDnis) := hn
    refine .askWho ho (.inr rfl) rfl ?_ ?_
    · rw [hpause' hf, htaken, Nat.min_eq_left (by omega)]
      rfl
    · simp only [left, Bool.false_eq_true, if_false]
      rw [hpause' hf]
      omega
  | laterEnd hn hf =>
    have hn' : k.dnis.length < max 1 (uint32 cx.maxDnis) := hn
    have h0 : ¬ k.dnis.length = 0 := fun h => (ho hf).1 (List.length_eq_zero_iff.mp h)
    dsimp only
    rw [if_neg fun h => h.elim h0 (by rw [hf]; rintro ⟨⟩)]
    refine .finish ⟨?_, rfl, ?_, rfl⟩ (by rintro ⟨⟩) (by simp only [left, if_true]; omega)
    · change k.dnis.length = k.taken cx
      omega
    · rw [hskip hf]
      rfl
  | category hs =>
    dsimp only
    split_ifs with hm hc
    · refine .askAni (.inl rfl) ⟨hs, hm⟩ rfl (Nat.lt_of_lt_of_le Nat.zero_lt_one (Nat.le_max_left _ _))
        (Nat.zero_le _) ?_
      simp only [left]
      omega
    all_goals
      have ha : ¬ Dialled.AsksAni cx := fun ha => hm ha.2
      have hf : cx.getAniFirst = false := Bool.eq_false_of_not_eq_true fun hf => ha (ho hf).2
      have hwhole : (Talk.hear ⟨.category, pause cx k, 0, false, false⟩).Whole cx k := by
        refine ⟨hpause' hf, ?_, ?_, ?_⟩
        · rw [Dialled.heard, if_neg ha]
          rfl
        · rw [hs]
          rfl
        · rw [Dialled.ended, decide_eq_false fun h => ha h.1]
          rfl
    · exact .finish hwhole (by rintro ⟨⟩) (by simp only [left]; omega)
    · exact .groupTwo hwhole (by rintro ⟨⟩) (by simp only [left]; omega)
  | ani j ha hj =>
    have hj' := hheard ha
    dsimp only
    split_ifs with hc
    · change j + 1 < uint32 cx.maxAni at hc
      refine .askAni (.inr rfl) (j := j + 1) ha rfl ?_ (by omega) ?_
      · change j + 1 < max 1 (uint32 cx.maxAni)
        omega
      · simp only [left]
        omega
    · change ¬ j + 1 < uint32 cx.maxAni at hc
      refine .aniDone ho (.inl rfl) ha ?_ ?_
      · have hall : j + 1 = k.heard cx := by omega
        have hnot : ¬ k.aniDigits.length < max 1 (uint32 cx.maxAni) := by omega
        rw [hended ha, decide_eq_false hnot, ← hall]
        rfl
      · simp only [left]
        omega
  | aniEnd ha hm =>
    have hm' : k.aniDigits.length < max 1 (uint32 cx.maxAni) := hm
    refine .aniDone ho (.inr rfl) ha ?_ ?_
    · rw [hended ha, decide_eq_true hm', hheard ha, Nat.min_eq_left (Nat.le_of_lt hm')]
      rfl
    · simp only [left]
      omega
  | groupTwo => exact ⟨by rintro _ ⟨⟩, fun _ => ⟨rfl, rfl, rfl, rfl⟩⟩

theorem Fits.dnis_lt (h : t.Fits cx k) (hw : t.word = .dnis) : t.taken < k.dnis.length := by
  cases h with
  | first i hi _ | later i hi _ _ => exact Nat.lt_of_lt_of_le hi (Nat.min_le_left _ _)
  | _ => cases hw

theorem Fits.dnisEnd_room (h : t.Fits cx k) (hw : t.word = .dnisEnd) :
    t.taken = k.dnis.length ∧ k.dnis.length < Dialled.dnisRoom cx := by
  cases h with
  | dnisEnd hn _ | laterEnd hn _ => exact ⟨rfl, hn⟩
  | _ => cases hw

theorem Fits.ani_lt (h : t.Fits cx k) (hw : t.word = .ani) : t.heard < k.aniDigits.length ∧ t.ended = false := by
  cases h with
  | ani j ha hj =>
    rw [Dialled.heard, if_pos ha] at hj
    exact ⟨Nat.lt_of_lt_of_le hj (Nat.min_le_left _ _), rfl⟩
  | _ => cases hw

theorem Fits.aniEnd_room (h : t.Fits cx k) (hw : t.word = .aniEnd) :
    Dialled.AsksAni cx ∧ k.aniDigits.length < Dialled.aniRoom cx ∧ t.heard = k.aniDigits.length ∧
      t.ended = false := by
  cases h with
  | aniEnd ha hm => exact ⟨ha, hm, rfl, rfl⟩
  | _ => cases hw

/-- What the called user is told of the word. -/
def news (cx : R2Context) (k : Dialled) (t : Talk) : List Event :=
  match t.word with
  | .dnis => [.onDnisDigitReceived (t.tone cx k)]
  | .ani => [.onAniDigitReceived (t.tone cx k)]
  | _ => []

theorem Fits.told_hear (h : t.Fits cx k) : t.hear.told cx k = t.told cx k ++ t.news cx k := by
  have hsucc : ∀ (xs : List Tone) (i : Nat), i < xs.length → xs.take (i + 1) = xs.take i ++ [xs.getD i 0] := by
    intro xs i hi
    rw [List.take_succ_eq_append_getElem hi, List.getD_eq_getElem?_getD, List.getElem?_eq_getElem hi,
      Option.getD_some]
  have h' := h
  cases h with
  | first i hi hf =>
    have hi' : i < k.dnis.length := h'.dnis_lt rfl
    simp only [told, hear, news, tone, hsucc _ i hi', List.take_zero, List.map_nil, List.append_nil, List.map_append]
    split_ifs with h
    · obtain rfl := hf h
      simp
    · rfl
  | later i hi hf h0 =>
    have hi' : i < k.dnis.length := h'.dnis_lt rfl
    simp only [told, hear, news, tone, hsucc _ i hi', List.map_append, if_pos hf]
    rw [List.take_append_of_le_length (by simp; omega), List.drop_append_of_le_length (by simp; omega)]
    simp only [List.append_assoc, List.map_singleton]
  | ani j ha hj =>
    have hj' : j < k.aniDigits.length := (h'.ani_lt rfl).1
    simp only [told, hear, news, tone, hsucc _ j hj', List.map_append]
    split_ifs with h
    · have hp : pause cx k = 1 := if_pos h
      rw [hp]
      simp
    · rw [List.append_assoc]
      rfl
  | _ => exact (List.append_nil _).symm

end Moves

end Talk

end OpenR2
