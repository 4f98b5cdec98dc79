import OpenR2.Proofs.Sending

namespace OpenR2

section Digits

variable {E : Type} [LinearOrder E] (tests : MfTests E)

/-- The energies of these two frequencies pass all tests. -/
structure MfTests.Stands (e : Fin 6 → E) (lo hi : Fin 6) : Prop where
  loud : tests.loud (e lo) = true ∧ tests.loud (e hi) = true
  twist : tests.twist (e lo) (e hi) = true ∧ tests.twist (e hi) (e lo) = true
  peak : ∀ k, k ≠ lo → k ≠ hi → tests.peak (e k) (min (e lo) (e hi)) = false

/-- What is not lower is not clearly lower. -/
def MfTests.Sensible : Prop := ∀ x y, y ≤ x → tests.peak x y = true

variable {tests} {e : Fin 6 → E} {lo hi : Fin 6}

theorem mfBest_topTwo (e : Fin 6 → E) : TopTwo.Of e [5, 4, 3, 2, 1, 0] (mfBest e) := by
  have hstart : TopTwo.Of e [1, 0] (if e 0 > e 1 then (0, 1) else (1, 0)) := by
    split_ifs with h
    · exact ⟨by simp, by simp, by decide, le_of_lt h, by simp⟩
    · exact ⟨by simp, by simp, by decide, le_of_not_gt h, by simp⟩
  exact hstart.foldl (show ([2, 3, 4, 5] ++ [1, 0] : List (Fin 6)).Nodup by decide)

theorem mem_frequencies (i : Fin 6) : i ∈ ([5, 4, 3, 2, 1, 0] : List (Fin 6)) := by
  revert i
  decide

theorem MfTests.Stands.swap (h : tests.Stands e lo hi) : tests.Stands e hi lo :=
  ⟨h.loud.symm, h.twist.symm, fun k h1 h2 => min_comm (e lo) (e hi) ▸ h.peak k h2 h1⟩

theorem mfIsHit_iff {b : Fin 6 × Fin 6} (ho : e b.2 ≤ e b.1) :
    mfIsHit tests e b = true ↔ tests.Stands e b.1 b.2 := by
  have hmin : min (e b.1) (e b.2) = e b.2 := min_eq_right ho
  simp only [mfIsHit, Bool.and_eq_true, List.all_eq_true, List.mem_finRange, true_implies, Bool.or_eq_true,
    decide_eq_true_eq, Bool.not_eq_true']
  constructor
  · rintro ⟨⟨⟨⟨h1, h2⟩, h3⟩, h4⟩, hp⟩
    refine ⟨⟨h1, h2⟩, ⟨h3, h4⟩, fun k hk1 hk2 => ?_⟩
    rw [hmin]
    exact (hp k).resolve_left (not_or.mpr ⟨hk1, hk2⟩)
  · rintro ⟨⟨h1, h2⟩, ⟨h3, h4⟩, hp⟩
    refine ⟨⟨⟨⟨h1, h2⟩, h3⟩, h4⟩, fun k => ?_⟩
    by_cases hk : k = b.1 ∨ k = b.2
    · exact .inl hk
    · obtain ⟨hk1, hk2⟩ := not_or.mp hk
      exact .inr (hmin ▸ hp k hk1 hk2)

/-- What stands out is found. -/
theorem MfTests.Stands.best (h : tests.Stands e lo hi) (hs : tests.Sensible) (hne : lo ≠ hi) :
    mfBest e = (lo, hi) ∨ mfBest e = (hi, lo) := by
  refine (mfBest_topTwo e).eq_or_swap (mem_frequencies lo) (mem_frequencies hi) hne fun k _ hk1 hk2 => ?_
  have hlt : e k < min (e lo) (e hi) := by
    by_contra hx
    have hp := hs _ _ (not_lt.mp hx)
    rw [h.peak k hk1 hk2] at hp
    exact absurd hp (by decide)
  exact ⟨lt_of_lt_of_le hlt (min_le_left _ _), lt_of_lt_of_le hlt (min_le_right _ _)⟩

/-- The digit of two frequencies. -/
def mfCode (lo hi : Fin 6) : Tone := r2MfPositions.getD (lo.val * 5 + hi.val - 1) 0

/-- Different pairs of frequencies have different codes. -/
theorem mfCode_injective : ∀ lo hi lo' hi' : Fin 6, lo < hi → lo' < hi' → mfCode lo hi = mfCode lo' hi' →
    lo = lo' ∧ hi = hi' := by decide

theorem mfCode_ne_zero : ∀ lo hi : Fin 6, lo < hi → mfCode lo hi ≠ 0 := by decide

theorem mfHitDigit_eq (e : Fin 6 → E) : mfHitDigit tests e =
    if mfIsHit tests e (mfBest e) then mfCode (min (mfBest e).1 (mfBest e).2) (max (mfBest e).1 (mfBest e).2)
    else 0 := by
  rw [mfHitDigit, mfCode]
  congr 2

/-- A block is the digit of two frequencies if and only if these stand out. -/
theorem mfHitDigit_iff (hs : tests.Sensible) (hlt : lo < hi) :
    mfHitDigit tests e = mfCode lo hi ↔ tests.Stands e lo hi := by
  have ht := mfBest_topTwo e
  rw [mfHitDigit_eq]
  constructor
  · intro h
    split_ifs at h with hh
    · have hlt' : min (mfBest e).1 (mfBest e).2 < max (mfBest e).1 (mfBest e).2 := min_lt_max.mpr ht.distinct
      obtain ⟨h1, h2⟩ := mfCode_injective _ _ _ _ hlt' hlt h
      have hst := (mfIsHit_iff ht.order).mp hh
      rcases le_total (mfBest e).1 (mfBest e).2 with hle | hle
      · rw [min_eq_left hle] at h1
        rw [max_eq_right hle] at h2
        rwa [← h1, ← h2]
      · rw [min_eq_right hle] at h1
        rw [max_eq_left hle] at h2
        rw [← h1, ← h2]
        exact hst.swap
    · exact absurd h.symm (mfCode_ne_zero lo hi hlt)
  · intro h
    rcases h.best hs (ne_of_lt hlt) with hb | hb
    · have hh := (@mfIsHit_iff _ _ tests _ _ ht.order).mpr (by rwa [hb])
      rw [if_pos hh, hb, min_eq_left hlt.le, max_eq_right hlt.le]
    · have hh := (@mfIsHit_iff _ _ tests _ _ ht.order).mpr (by rw [hb]; exact h.swap)
      rw [if_pos hh, hb, min_eq_right hlt.le, max_eq_left hlt.le]

/-- The frequencies that the detector looks for. -/
def mfFrequency (fwd : Bool) (i : Fin 6) : Nat := (if fwd then r2MfFwdFrequencies else r2MfBackFrequencies).getD i 0

/-- The frequencies of a tone are those by which it is found, in both directions. -/
theorem mfTones_match : ∀ (fwd : Bool) (i : Fin 15), ∃ lo hi : Fin 6, lo < hi ∧
    (r2MfDigitTones fwd i).tone.f1 = mfFrequency fwd lo ∧ (r2MfDigitTones fwd i).tone.f2 = mfFrequency fwd hi ∧
      mfCode lo hi = r2MfToneCodes.getD i 0 := by
  decide

/-- The tones of each direction are told apart: a block is the digit of a tone if and only if the
two frequencies of this tone stand out in it. -/
theorem mf_tones_told_apart (hs : tests.Sensible) (fwd : Bool) (i : Fin 15) : ∃ lo hi : Fin 6,
    mfFrequency fwd lo = (r2MfDigitTones fwd i).tone.f1 ∧ mfFrequency fwd hi = (r2MfDigitTones fwd i).tone.f2 ∧
      ∀ e : Fin 6 → E, mfHitDigit tests e = r2MfToneCodes.getD i 0 ↔ tests.Stands e lo hi := by
  obtain ⟨lo, hi, hlt, h1, h2, hc⟩ := mfTones_match fwd i
  refine ⟨lo, hi, h1.symm, h2.symm, fun e => ?_⟩
  rw [← hc]
  exact mfHitDigit_iff hs hlt

/-- Energies in whole numbers. -/
def plainTests : MfTests Nat where
  loud x := 500 ≤ x
  twist x y := x < 5 * y
  peak x y := y ≤ 12 * x

theorem plainTests_sensible : plainTests.Sensible := by
  intro x y h
  simp only [plainTests, decide_eq_true_eq]
  omega

theorem mf_tones_told_apart_b : ∃ lo hi : Fin 6, mfFrequency false lo = 1140 ∧ mfFrequency false hi = 540 ∧
    ∀ e : Fin 6 → Nat, mfHitDigit plainTests e = 66 ↔ plainTests.Stands e lo hi :=
  mf_tones_told_apart plainTests_sensible false 10

end Digits

section Tones

variable {β E : Type} [LinearOrder E] {sound : Waveform β} {tests : MfTests E}
  {energy : Bool → List β → Fin 6 → E} {t : DualTone}

/-- The samples of a tone from a phase on. -/
def toneFrom (sound : Waveform β) (t : DualTone) (p n : Nat) : List β := (List.range n).map fun k => sound.wave t (p + k)

@[simp] theorem length_toneFrom {p n : Nat} : (toneFrom sound t p n).length = n := by simp [toneFrom]

theorem toneFrom_append (p n m : Nat) : toneFrom sound t p n ++ toneFrom sound t (p + n) m = toneFrom sound t p (n + m) := by
  rw [toneFrom, toneFrom, toneFrom, List.range_add, List.map_append, List.map_map]
  simp only [Function.comp_def, Nat.add_assoc]

theorem toneFrom_take {p n m : Nat} (h : m ≤ n) : (toneFrom sound t p n).take m = toneFrom sound t p m := by
  obtain ⟨d, rfl⟩ := Nat.exists_eq_add_of_le h
  rw [← toneFrom_append, List.take_left' length_toneFrom]

theorem toneFrom_drop {p n m : Nat} (h : m ≤ n) : (toneFrom sound t p n).drop m = toneFrom sound t (p + m) (n - m) := by
  obtain ⟨d, rfl⟩ := Nat.exists_eq_add_of_le h
  rw [← toneFrom_append, List.drop_left' length_toneFrom, Nat.add_sub_cancel_left]

/-- A sender in a tone goes on with it, without a gap from buffer to buffer. -/
theorem mfTx_run {s : MfTx} {g : ToneGen} {d n : Nat} (hg : s.tone = some g) (hd : s.digit ≠ 0) (h : g.Hums t d n)
    (sizes : List Nat) :
    ((Runs.exec (mfTxTick sound) sizes s).2.filterMap id).flatten = toneFrom sound t n sizes.sum := by
  induction sizes generalizing s g n with
  | nil => rfl
  | cons m sizes ih =>
    obtain ⟨g', ht, hh⟩ := @ToneGen.Hums.loop _ sound _ _ _ _ (m + 2) m h (by omega)
    have hstep : mfTx sound m s = some (toneFrom sound t n m, { s with tone := some g' }) := by
      rw [mfTx, if_neg hd, hg]
      simp only [Option.bind_eq_bind, Option.bind_some, toneGen, ht]
      rfl
    have hrun := ih (s := { s with tone := some g' }) rfl hd hh
    have hcons : ∀ (x : List β) xs, (some x :: xs).filterMap id = x :: xs.filterMap id := fun _ _ => rfl
    simp only [Runs.exec, mfTxTick, hstep, List.singleton_append]
    rw [hcons, List.flatten_cons, hrun, toneFrom_append, List.sum_cons]

/-- The place of a digit in the table of tones. -/
theorem mfTxPut_hums {digit : Tone} (hd : digit ∈ r2MfToneCodes) (s : MfTx) :
    ∃ i : Fin 15, r2MfToneCodes.getD i 0 = digit ∧ ∃ g, (mfTxPut digit s).tone = some g ∧
      (mfTxPut digit s).digit ≠ 0 ∧ g.Hums (r2MfDigitTones s.fwd i).tone 8 0 := by
  have h0 : digit ≠ 0 := by
    rintro rfl
    exact absurd hd (by decide)
  have hidx : r2MfToneCodes.idxOf digit < r2MfToneCodes.length := List.idxOf_lt_length_iff.mpr hd
  have hput : mfTxPut digit s = { s with
      tone := some (toneGenInit (r2MfDigitTones s.fwd (r2MfToneCodes.idxOf digit))), digit := digit } := by
    rw [mfTxPut, if_neg h0, strchr, if_pos hidx]
  refine ⟨⟨r2MfToneCodes.idxOf digit, hidx⟩, ?_, _, by rw [hput], by rw [hput]; exact h0, rfl, ?_, rfl, rfl, rfl, ?_⟩
  · rw [List.getD_eq_getElem?_getD, List.getElem?_eq_getElem hidx, Option.getD_some, List.getElem_idxOf]
  · funext i
    match i with
    | 0 | 1 | 2 | 3 => rfl
  · exact Nat.zero_lt_succ 7

/-- A sender without a tone is silent, which is a tone of its own. -/
def Waveform.hush (sound : Waveform β) : Waveform β := ⟨fun _ _ => sound.silence, sound.silence⟩

theorem toneFrom_hush (p n : Nat) : toneFrom sound.hush t p n = List.replicate n sound.silence :=
  List.map_const'.trans (by rw [List.length_range])

theorem mfTx_silent {s : MfTx} (hd : s.digit = 0) (sizes : List Nat) (p : Nat) :
    ((Runs.exec (mfTxTick sound) sizes s).2.filterMap id).flatten = toneFrom sound.hush t p sizes.sum := by
  induction sizes generalizing p with
  | nil => rfl
  | cons m sizes ih =>
    have hstep : mfTx sound m s = some (toneFrom sound.hush t p m, s) := by
      rw [mfTx, if_pos hd, toneFrom_hush]
    have hcons : ∀ (x : List β) xs, (some x :: xs).filterMap id = x :: xs.filterMap id := fun _ _ => rfl
    simp only [Runs.exec, mfTxTick, hstep, List.singleton_append]
    rw [hcons, List.flatten_cons, ih (p + m), toneFrom_append, List.sum_cons]

theorem mfTxPut_silent {digit : Tone} (hd : digit ∉ r2MfToneCodes) (s : MfTx) : (mfTxPut digit s).digit = 0 := by
  have hidx : ¬ r2MfToneCodes.idxOf digit < r2MfToneCodes.length := fun h => hd (List.idxOf_lt_length_iff.mp h)
  have hput : mfTxPut digit s = { s with digit := 0 } := by
    rw [mfTxPut, strchr, if_neg hidx, ite_self]
  rw [hput]

/-- Of every tone of this direction its two frequencies stand out in a block, and none in a silent one. -/
structure Distinct (sound : Waveform β) (tests : MfTests E) (energy : Bool → List β → Fin 6 → E) (fwd : Bool) : Prop where
  sensible : tests.Sensible
  stands : ∀ (i : Fin 15) (lo hi : Fin 6), mfFrequency fwd lo = (r2MfDigitTones fwd i).tone.f1 →
    mfFrequency fwd hi = (r2MfDigitTones fwd i).tone.f2 →
      ∀ p, tests.Stands (energy fwd (toneFrom sound (r2MfDigitTones fwd i).tone p r2MfSamplesPerBlock)) lo hi
  silent : ∀ k, tests.loud (energy fwd (List.replicate r2MfSamplesPerBlock sound.silence) k) = false

/-- In every block of a tone this digit is found. -/
def FoundAs (sound : Waveform β) (tests : MfTests E) (energy : Bool → List β → Fin 6 → E) (fwd : Bool)
    (t : DualTone) (digit : Tone) : Prop :=
  ∀ p, mfHitDigit tests (energy fwd (toneFrom sound t p r2MfSamplesPerBlock)) = digit

/-- A block of a tone is its digit. -/
theorem Distinct.block {fwd : Bool} (h : Distinct sound tests energy fwd) (i : Fin 15) :
    FoundAs sound tests energy fwd (r2MfDigitTones fwd i).tone (r2MfToneCodes.getD i 0) := by
  intro p
  obtain ⟨lo, hi, hlt, h1, h2, hc⟩ := mfTones_match fwd i
  rw [← hc, mfHitDigit_iff h.sensible hlt]
  exact h.stands i lo hi h1.symm h2.symm p

/-- A silent block is none. -/
theorem Distinct.hush {fwd : Bool} (h : Distinct sound tests energy fwd) (t : DualTone) :
    FoundAs sound.hush tests energy fwd t 0 := by
  intro p
  rw [toneFrom_hush, mfHitDigit_eq, if_neg]
  rw [mfIsHit, h.silent]
  simp only [Bool.false_and, Bool.false_eq_true, not_false_eq_true]

/-- Every block is looked at for itself. -/
theorem exec_mfHit (bs : List (List β)) (s : MfRx) :
    (Runs.exec (mfHit tests energy) bs s).1.fwd = s.fwd ∧
      (Runs.exec (mfHit tests energy) bs s).2 = bs.map fun c => mfHitDigit tests (energy s.fwd c) := by
  induction bs generalizing s with
  | nil => exact ⟨rfl, rfl⟩
  | cons c bs ih =>
    have hrest := ih (mfHit tests energy s c).1
    simp only [Runs.exec, List.map_cons]
    refine ⟨hrest.1, ?_⟩
    rw [hrest.2]
    rfl

/-- A part of a tone that completes a block. What is left is of the tone. The digit is found where
the block had begun with the tone. -/
theorem FoundAs.part {fwd : Bool} {digit : Tone} (h : FoundAs sound tests energy fwd t digit) {b : List β} {s : MfRx}
    {p n : Nat} (hs : s.fwd = fwd) (hb : b.length < r2MfSamplesPerBlock) (hn : r2MfSamplesPerBlock ≤ n) :
    ∃ q m s', m < r2MfSamplesPerBlock ∧ q + m = p + n ∧ s'.fwd = fwd ∧
      (mfRx tests energy (toneFrom sound t p n) (b, s)).1 = (toneFrom sound t q m, s') ∧
        (∀ a, a + b.length = p → b = toneFrom sound t a b.length →
          (mfRx tests energy (toneFrom sound t p n) (b, s)).2 = digit) := by
  have hsize : 0 < r2MfSamplesPerBlock := by decide
  obtain ⟨k, hk⟩ := Nat.exists_eq_add_of_lt hb
  have hk : b.length + (k + 1) = r2MfSamplesPerBlock := by omega
  have hsig := Blocks.exec_push_signal r2MfSamplesPerBlock (mfHit tests energy) (s := s)
    (w := fun j => sound.wave t (p + j)) hk (Nat.succ_pos k) (by omega : k + 1 ≤ n)
  have hfeed := Blocks.feed_eq_exec r2MfSamplesPerBlock (mfHit tests energy) (s := s)
    (Nat.le_refl (toneFrom sound t p n).length) hb
  rw [toneFrom, hsig] at hfeed
  obtain ⟨hfwd, hout⟩ := @exec_mfHit _ _ _ tests energy
    ((b ++ (List.range (k + 1)).map fun j => sound.wave t (p + j)) ::
      Blocks.rows r2MfSamplesPerBlock (fun j => sound.wave t (p + j)) (k + 1) ((n - (k + 1)) / r2MfSamplesPerBlock)) s
  refine ⟨p + (k + 1 + (n - (k + 1)) / r2MfSamplesPerBlock * r2MfSamplesPerBlock), (n - (k + 1)) % r2MfSamplesPerBlock, _,
    Nat.mod_lt _ hsize, ?_, hfwd.trans hs, ?_, ?_⟩
  · have hdiv := Nat.div_add_mod' (n - (k + 1)) r2MfSamplesPerBlock
    omega
  · rw [mfRx, toneFrom, hfeed, toneFrom]
    simp only [Nat.add_assoc]
  · intro a ha hpure
    rw [mfRx, toneFrom, hfeed]
    dsimp only
    rw [hout]
    have hrow : ∀ q, mfHitDigit tests (energy s.fwd (toneFrom sound t q r2MfSamplesPerBlock)) =
        digit := by
      intro q
      rw [hs]
      exact h q
    have hfirst : b ++ (List.range (k + 1)).map (fun j => sound.wave t (p + j)) =
        toneFrom sound t a r2MfSamplesPerBlock := by
      change b ++ toneFrom sound t p (k + 1) = _
      rw [← ha, hpure, length_toneFrom, toneFrom_append, hk]
    rw [List.map_cons, hfirst, hrow]
    have hrows : (Blocks.rows r2MfSamplesPerBlock (fun j => sound.wave t (p + j)) (k + 1)
        ((n - (k + 1)) / r2MfSamplesPerBlock)).map (fun c => mfHitDigit tests (energy s.fwd c)) =
          List.replicate ((n - (k + 1)) / r2MfSamplesPerBlock) (digit) := by
      rw [Blocks.rows, List.map_map, List.eq_replicate_iff]
      refine ⟨by simp, fun x hx => ?_⟩
      obtain ⟨j, -, rfl⟩ := List.mem_map.mp hx
      rw [← hrow (p + (k + 1 + j * r2MfSamplesPerBlock)), toneFrom]
      simp only [Function.comp_apply, Nat.add_assoc]
    rw [hrows, ← List.replicate_succ, List.replicate_succ', List.getLastD_concat]

/-- The first of the parts of a tone, and the others. -/
theorem toneFrom_cons {part : List β} {parts : List (List β)} {p n : Nat} (h : part ++ parts.flatten = toneFrom sound t p n) :
    part = toneFrom sound t p part.length ∧ parts.flatten = toneFrom sound t (p + part.length) (n - part.length) := by
  have hl : part.length ≤ n := by
    have hlen := congrArg List.length h
    rw [List.length_append, length_toneFrom] at hlen
    omega
  constructor
  · rw [← toneFrom_take hl, ← h, List.take_left]
  · rw [← toneFrom_drop hl, ← h, List.drop_left]

/-- In all parts of a tone whose block had begun with it the digit is found. -/
theorem FoundAs.parts {fwd : Bool} {digit : Tone} (h : FoundAs sound tests energy fwd t digit)
    {parts : List (List β)} {s : MfRx} {p q m n : Nat} (hs : s.fwd = fwd) (hm : m < r2MfSamplesPerBlock)
    (hq : q + m = p) (hlen : ∀ part ∈ parts, r2MfSamplesPerBlock ≤ part.length)
    (hp : parts.flatten = toneFrom sound t p n) :
    ∀ found ∈ (Runs.exec (mfRxTick tests energy) parts (toneFrom sound t q m, s)).2, found = digit := by
  induction parts generalizing s p q m n with
  | nil => exact fun found hf => absurd hf List.not_mem_nil
  | cons part parts ih =>
    obtain ⟨hpart, hrest⟩ := toneFrom_cons hp
    obtain ⟨hl, hlen⟩ := List.forall_mem_cons.mp hlen
    obtain ⟨q', m', s', hm', hq', hs', he, hfound⟩ := h.part (b := toneFrom sound t q m)
      hs (by rwa [length_toneFrom]) hl (p := p)
    rw [← hpart] at he hfound
    have hfirst := hfound q (by rwa [length_toneFrom]) (by rw [length_toneFrom])
    simp only [Runs.exec, mfRxTick, List.singleton_append]
    intro found hf
    rcases List.mem_cons.mp hf with rfl | hf
    · exact hfirst
    · rw [he] at hf
      exact ih hs' hm' hq' hlen hrest found hf

/-- After the first of the parts it is found in all of them, whatever the block held before. -/
theorem FoundAs.after {fwd : Bool} {digit : Tone} (h : FoundAs sound tests energy fwd t digit)
    {parts : List (List β)} {rx : List β × MfRx} {n : Nat} (hrx : rx.2.fwd = fwd)
    (hb : rx.1.length < r2MfSamplesPerBlock) (hlen : ∀ part ∈ parts, r2MfSamplesPerBlock ≤ part.length)
    (hp : parts.flatten = toneFrom sound t 0 n) :
    ∀ found ∈ (Runs.exec (mfRxTick tests energy) parts rx).2.tail, found = digit := by
  cases parts with
  | nil => exact fun found hf => absurd hf List.not_mem_nil
  | cons part parts =>
    obtain ⟨hpart, hrest⟩ := toneFrom_cons hp
    obtain ⟨hl, hlen⟩ := List.forall_mem_cons.mp hlen
    obtain ⟨q, m, s, hm, hq, hs, he, -⟩ := h.part (b := rx.1) (s := rx.2) hrx hb hl (p := 0)
    rw [← hpart] at he
    simp only [Runs.exec, mfRxTick, List.singleton_append, List.tail_cons]
    change ∀ found ∈ (Runs.exec _ parts (mfRx tests energy part (rx.1, rx.2)).1).2, _
    rw [he]
    exact h.parts hs hm hq hlen hrest

/-- The tone of a signal is found as that signal, in each direction, and silence as none. After
the first part that is read, every part of at least a block says so, however the samples were
cut on either side and whatever the block held before. -/
theorem mf_round_trip {fwd : Bool} {digit : Tone} {tx : MfTx} {rx : List β × MfRx} {sizes : List Nat}
    {parts : List (List β)} (h : Distinct sound tests energy fwd) (htx : tx.fwd = fwd)
    (hrx : rx.2.fwd = fwd) (hb : rx.1.length < r2MfSamplesPerBlock)
    (hlen : ∀ part ∈ parts, r2MfSamplesPerBlock ≤ part.length)
    (hp : parts.flatten = ((Runs.exec (mfTxTick sound) sizes (mfTxPut digit tx)).2.filterMap id).flatten) :
    ∀ found ∈ (Runs.exec (mfRxTick tests energy) parts rx).2.tail,
      found = if digit ∈ r2MfToneCodes then digit else 0 := by
  by_cases hd : digit ∈ r2MfToneCodes
  · rw [if_pos hd]
    obtain ⟨i, rfl, g, hg, h0, hh⟩ := mfTxPut_hums hd tx
    rw [htx] at hh
    rw [mfTx_run hg h0 hh] at hp
    exact (h.block i).after hrx hb hlen hp
  · rw [if_neg hd]
    rw [mfTx_silent (t := (r2MfDigitTones fwd 0).tone) (mfTxPut_silent hd tx) sizes 0] at hp
    exact (h.hush _).after hrx hb hlen hp

/-- Energies of a block of which the first sample says which tone it is of. -/
def plainEnergy (fwd : Bool) (block : List (Option DualTone)) (k : Fin 6) : Nat :=
  match block with
  | some t :: _ => if mfFrequency fwd k = t.f1 ∨ mfFrequency fwd k = t.f2 then 1000 else 0
  | _ => 0

theorem plain_distinct (fwd : Bool) : Distinct (Waveform.mk (fun t _ => some t) none) plainTests plainEnergy fwd where
  sensible := plainTests_sensible
  stands i lo hi h1 h2 p := by
    rw [toneFrom, r2MfSamplesPerBlock, List.range_succ_eq_map, List.map_cons]
    have hinj : ∀ (fwd : Bool) (k k' : Fin 6), mfFrequency fwd k = mfFrequency fwd k' → k = k' := by decide
    refine ⟨?_, ?_, fun k hk1 hk2 => ?_⟩
    · simp [plainTests, plainEnergy, h1, h2]
    · simp [plainTests, plainEnergy, h1, h2]
    · have hk : ¬ (mfFrequency fwd k = (r2MfDigitTones fwd i).tone.f1 ∨
          mfFrequency fwd k = (r2MfDigitTones fwd i).tone.f2) := by
        rintro (hx | hx)
        · exact hk1 (hinj fwd k lo (hx.trans h1.symm))
        · exact hk2 (hinj fwd k hi (hx.trans h2.symm))
      simp [plainTests, plainEnergy, h1, h2, hk]
  silent k := by
    rw [r2MfSamplesPerBlock, List.replicate_succ]
    rfl

/-- A forward signal of three buffers, to a detector in the middle of a block. -/
theorem mf_round_trip_five :
    let sound : Waveform (Option DualTone) := ⟨fun t _ => some t, none⟩
    let parts := (Runs.exec (mfTxTick sound) [160, 160, 160] (mfTxPut 53 (mfTxInit true))).2.filterMap id
    ∀ found ∈ (Runs.exec (mfRxTick plainTests plainEnergy) parts (List.replicate 10 none, mfRxInit true)).2.tail,
      found = if 53 ∈ r2MfToneCodes then 53 else 0 :=
  mf_round_trip (plain_distinct true) rfl rfl (by decide) (by decide +kernel) rfl

end Tones

end OpenR2
