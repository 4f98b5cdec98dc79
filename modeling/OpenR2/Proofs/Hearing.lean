import OpenR2.Proofs.Sending

namespace OpenR2

section Hits

/-- Blocks with these digits. -/
def dtmfHits (callback : Bool) (hits : List Tone) : DtmfRx × List (List Tone) :=
  Runs.exec dtmfHit hits (dtmfRxInit callback)

namespace DtmfRx

/-- What every block leaves: the last hit is that of the last block, or none, and digits that were
told are not kept. -/
structure Tracks (callback : Bool) (hits : List Tone) (s : DtmfRx) : Prop where
  callback : s.callback = callback
  last : s.lastHit ≠ 0 → ∃ pre, hits = pre ++ [s.lastHit]
  told : s.callback = true → s.digits = []

end DtmfRx

variable {s : DtmfRx} {callback : Bool} {hits : List Tone} {hit digit : Tone}

theorem DtmfRx.report_spec (s : DtmfRx) (hit : Tone) :
    (s.report hit).1.callback = s.callback ∧ (s.callback = true → s.digits = [] → (s.report hit).1.digits = [] ∧
      (s.report hit).2 = [[hit]]) := by
  rw [report]
  split_ifs with hl hc
  · refine ⟨rfl, fun _ hd => ⟨rfl, by rw [hd]; rfl⟩⟩
  · exact ⟨rfl, fun h => absurd h hc⟩
  · refine ⟨rfl, fun _ hd => ?_⟩
    rw [hd] at hl
    exact absurd (by decide : ([] : List Tone).length < maxDtmfDigits) hl

/-- What one block does. Only a second one with the same digit, while another or none is on, turns
it on. -/
theorem dtmfHit_cases (s : DtmfRx) (hit : Tone) :
    ((hit = s.inDigit ∨ s.lastHit = s.inDigit) ∧ dtmfHit s hit = (s.setHits s.inDigit hit, [])) ∨
      (hit ≠ s.inDigit ∧ s.lastHit ≠ s.inDigit ∧ (hit = 0 ∨ hit ≠ s.lastHit) ∧
        dtmfHit s hit = (s.setHits 0 0, [])) ∨
      (hit ≠ s.inDigit ∧ hit = s.lastHit ∧ hit ≠ 0 ∧
        dtmfHit s hit = ((s.report hit).1.setHits hit hit, (s.report hit).2)) := by
  rw [dtmfHit]
  by_cases hc : hit = s.inDigit ∨ s.lastHit = s.inDigit
  · exact .inl ⟨hc, if_pos hc⟩
  obtain ⟨hi, hl⟩ := not_or.mp hc
  rw [if_neg hc]
  by_cases hx : hit ≠ 0 ∧ hit = s.lastHit
  · refine .inr (.inr ⟨hi, hx.2, hx.1, ?_⟩)
    simp only [if_pos hx]
    rw [if_pos hx.1]
  · refine .inr (.inl ⟨hi, hl, ?_, ?_⟩)
    · by_cases h0 : hit = 0
      · exact .inl h0
      · exact .inr fun he => hx ⟨h0, he⟩
    · simp only [if_neg hx]
      rw [if_neg (by simp)]

theorem dtmfHit_told (ht : s.callback = true → s.digits = []) :
    (dtmfHit s hit).1.callback = true → (dtmfHit s hit).1.digits = [] := by
  rcases dtmfHit_cases s hit with ⟨-, he⟩ | ⟨-, -, -, he⟩ | ⟨-, -, -, he⟩
  · rw [he]
    exact ht
  · rw [he]
    exact ht
  · rw [he]
    intro hx
    obtain ⟨hc, hd⟩ := s.report_spec hit
    have hs : s.callback = true := hc.symm.trans hx
    exact (hd hs (ht hs)).1

theorem DtmfRx.Tracks.block (h : s.Tracks callback hits) (hit : Tone) :
    (dtmfHit s hit).1.Tracks callback (hits ++ [hit]) := by
  obtain ⟨hc, hl, ht⟩ := h
  refine ⟨?_, ?_, dtmfHit_told ht⟩
  · rcases dtmfHit_cases s hit with ⟨-, he⟩ | ⟨-, -, -, he⟩ | ⟨-, -, -, he⟩
    · rw [he]
      exact hc
    · rw [he]
      exact hc
    · rw [he]
      exact (s.report_spec hit).1.trans hc
  · rcases dtmfHit_cases s hit with ⟨-, he⟩ | ⟨-, -, -, he⟩ | ⟨-, -, -, he⟩
    · rw [he]
      exact fun _ => ⟨hits, rfl⟩
    · rw [he]
      exact fun h0 => absurd rfl h0
    · rw [he]
      exact fun _ => ⟨hits, rfl⟩

theorem dtmfHits_tracks (callback : Bool) (hits : List Tone) : (dtmfHits callback hits).1.Tracks callback hits := by
  induction hits using List.reverseRecOn with
  | nil => exact ⟨rfl, fun h => absurd rfl h, fun _ => rfl⟩
  | append_singleton hits hit ih =>
    rw [dtmfHits, Runs.exec_append]
    exact ih.block hit

/-- With the block of this digit, after these, the callback is called. -/
def Told (hits : List Tone) (hit : Tone) : Prop := (dtmfHit (dtmfHits true hits).1 hit).2 ≠ []

instance (hits : List Tone) (hit : Tone) : Decidable (Told hits hit) := by
  unfold Told; exact inferInstance

/-- A digit is told in its second block in a row at the earliest. It is on then. -/
theorem Told.second (hd : Told hits hit) :
    (dtmfHit (dtmfHits true hits).1 hit).2 = [[hit]] ∧ hit ≠ 0 ∧ (∃ pre, hits = pre ++ [hit]) ∧
      (dtmfHits true (hits ++ [hit])).1.inDigit = hit ∧ (dtmfHits true (hits ++ [hit])).1.lastHit = hit := by
  obtain ⟨hc, hl, ht⟩ := dtmfHits_tracks true hits
  rcases dtmfHit_cases (dtmfHits true hits).1 hit with ⟨-, he⟩ | ⟨-, -, -, he⟩ | ⟨-, hx, h0, he⟩
  · exact absurd (by rw [he]) hd
  · exact absurd (by rw [he]) hd
  · rw [he]
    have hon : (dtmfHits true (hits ++ [hit])).1 = (dtmfHit (dtmfHits true hits).1 hit).1 := by
      rw [dtmfHits, Runs.exec_append]
      rfl
    refine ⟨((DtmfRx.report_spec _ hit).2 hc (ht hc)).2, h0, ?_, ?_⟩
    · rw [hx] at h0 ⊢
      exact hl h0
    · rw [hon, he]
      exact ⟨rfl, rfl⟩

/-- While a digit is on, blocks of which no two in a row lack it leave it on, and tell nothing. -/
theorem exec_still_on (hin : s.inDigit = digit)
    (hn : ∀ x y, [x, y] <:+: s.lastHit :: hits → x = digit ∨ y = digit) :
    (Runs.exec dtmfHit hits s).2 = [] ∧ (Runs.exec dtmfHit hits s).1.inDigit = digit := by
  induction hits generalizing s with
  | nil => exact ⟨rfl, hin⟩
  | cons hit hits ih =>
    have hc : hit = s.inDigit ∨ s.lastHit = s.inDigit := by
      rw [hin]
      exact (hn s.lastHit hit (List.prefix_append [s.lastHit, hit] hits).isInfix).symm
    have he : dtmfHit s hit = (s.setHits s.inDigit hit, []) := by
      rcases dtmfHit_cases s hit with ⟨-, he⟩ | ⟨h1, h2, -⟩ | ⟨h1, h2, h3, -⟩
      · exact he
      · exact absurd hc (not_or.mpr ⟨h1, h2⟩)
      · exact absurd hc (not_or.mpr ⟨h1, fun h => h1 (h2.trans h)⟩)
    have hrun := ih (s := s.setHits s.inDigit hit) hin fun x y hxy =>
      hn x y (hxy.trans (List.suffix_cons s.lastHit (hit :: hits)).isInfix)
    simp only [Runs.exec, he]
    exact hrun

/-- Between a digit and the next one that is told there are two blocks in a row without it. -/
theorem Told.apart {mid : List Tone} {next : Tone} (h : Told hits digit) (hn : Told (hits ++ digit :: mid) next) :
    ∃ x y, [x, y] <:+: mid ++ [next] ∧ x ≠ digit ∧ y ≠ digit := by
  by_contra hno
  obtain ⟨-, -, -, hin, hl⟩ := h.second
  have hstill := @exec_still_on (dtmfHits true (hits ++ [digit])).1 (mid ++ [next]) digit hin (by
    intro x y hxy
    rw [hl] at hxy
    by_contra hne
    obtain ⟨hx, hy⟩ := not_or.mp hne
    rcases List.infix_cons_iff.mp hxy with hp | hi
    · exact hx (List.cons_prefix_cons.mp hp).1
    · exact hno ⟨x, y, hi, hx, hy⟩)
  rw [Runs.exec_append] at hstill
  have hmid : (Runs.exec dtmfHit mid (dtmfHits true (hits ++ [digit])).1).1 = (dtmfHits true (hits ++ digit :: mid)).1 := by
    have hsplit : hits ++ digit :: mid = (hits ++ [digit]) ++ mid := by simp
    rw [hsplit, dtmfHits, dtmfHits, Runs.exec_append (hits ++ [digit])]
  rw [hmid] at hstill
  refine hn ?_
  have htell := (List.append_eq_nil_iff.mp hstill.1).2
  rwa [Runs.exec, Runs.exec, List.append_nil] at htell

/-- Three blocks in a row with the same digit turn it on, and without one all digits off. -/
theorem three_on (s : DtmfRx) (digit : Tone) : (Runs.exec dtmfHit [digit, digit, digit] s).1.inDigit = digit := by
  have hon : ∀ s : DtmfRx, s.inDigit = digit → (dtmfHit s digit).1.inDigit = digit := by
    intro s hs
    rcases dtmfHit_cases s digit with ⟨-, he⟩ | ⟨hn, -⟩ | ⟨hn, -⟩
    · rw [he]
      exact hs
    · exact absurd hs.symm hn
    · exact absurd hs.symm hn
  have hnext : ∀ s : DtmfRx, s.lastHit = digit → (dtmfHit s digit).1.inDigit = digit := by
    intro s hs
    rcases dtmfHit_cases s digit with ⟨hc, he⟩ | ⟨-, -, hx, he⟩ | ⟨-, -, -, he⟩
    · rw [he]
      exact hc.elim Eq.symm fun h => h.symm.trans hs
    · rw [he]
      exact (hx.resolve_right fun h => h hs.symm).symm
    · rw [he]
      rfl
  -- after one block the digit is on, or is the last, or nothing is
  have hfirst : ∀ s : DtmfRx, (dtmfHit s digit).1.inDigit = digit ∨ (dtmfHit s digit).1.lastHit = digit ∨
      (dtmfHit s digit).1.lastHit = (dtmfHit s digit).1.inDigit := by
    intro s
    rcases dtmfHit_cases s digit with ⟨-, he⟩ | ⟨-, -, -, he⟩ | ⟨-, -, -, he⟩
    · rw [he]
      exact .inr (.inl rfl)
    · rw [he]
      exact .inr (.inr rfl)
    · rw [he]
      exact .inl rfl
  have hsecond : ∀ s : DtmfRx, s.lastHit = s.inDigit → (dtmfHit s digit).1.lastHit = digit := by
    intro s hs
    rcases dtmfHit_cases s digit with ⟨-, he⟩ | ⟨-, hn, -⟩ | ⟨hn, hl, -⟩
    · rw [he]
      rfl
    · exact absurd hs hn
    · exact absurd (hl.trans hs) hn
  simp only [Runs.exec]
  rcases hfirst s with h | h | h
  · exact hon _ (hon _ h)
  · exact hon _ (hnext _ h)
  · exact hnext _ (hsecond _ h)

/-- A digit is told with its second block in a row, and then not again until two blocks in a row
lacked it. Three blocks in a row turn it on, or off where they have none. -/
theorem dtmf_debounced (pre mid : List Tone) (digit next : Tone) :
    (Told pre digit → (dtmfHit (dtmfHits true pre).1 digit).2 = [[digit]] ∧ digit ≠ 0 ∧ [digit] <:+ pre) ∧
      (Told pre digit → Told (pre ++ digit :: mid) next →
        ∃ x y, [x, y] <:+: mid ++ [next] ∧ x ≠ digit ∧ y ≠ digit) ∧
      (dtmfHits true (pre ++ [digit, digit, digit])).1.inDigit = digit := by
  refine ⟨fun h => ?_, fun h hn => h.apart hn, ?_⟩
  · obtain ⟨ho, h0, ⟨as, ha⟩, -⟩ := h.second
    exact ⟨ho, h0, as, ha.symm⟩
  · rw [dtmfHits, Runs.exec_append]
    exact three_on _ digit

/-- A drop-out of one block does not tell the digit again, and a wobble of one does not tell one. -/
theorem dtmf_debounced_bounce : Told [51, 51, 51, 0, 51, 49, 51, 0, 0, 51] 51 ∧ Told [51] 51 ∧
    ∃ x y, [x, y] <:+: [51, 0, 51, 49, 51, 0, 0, 51] ++ [51] ∧ x ≠ 51 ∧ y ≠ 51 :=
  have h1 : Told [51] 51 := by decide
  have h2 : Told ([51] ++ 51 :: [51, 0, 51, 49, 51, 0, 0, 51]) 51 := by decide
  ⟨h2, h1, (dtmf_debounced [51] [51, 0, 51, 49, 51, 0, 0, 51] 51 51).2.1 h1 h2⟩

end Hits

section Chunks

variable {γ : Type} (classify : List γ → Tone)

/-- The detector on one part of the samples after the other. -/
def dtmfRxTick (s : List γ × DtmfRx) (samples : List γ) : (List γ × DtmfRx) × List (List Tone) :=
  dtmfRx classify samples s

/-- What is done at the end of a block of samples. -/
def dtmfBlock (s : DtmfRx) (block : List γ) : DtmfRx × List (List Tone) := dtmfHit s (classify block)

variable {classify} {b : List γ} {s : DtmfRx}

theorem dtmfRx_feed (ht : s.callback = true → s.digits = []) (hb : b.length < dtmfSamplesPerBlock) (xs : List γ) :
    dtmfRx classify xs (b, s) = Runs.exec (Blocks.push dtmfSamplesPerBlock (dtmfBlock classify)) xs (b, s) ∧
      ((dtmfRx classify xs (b, s)).1.2.callback = true → (dtmfRx classify xs (b, s)).1.2.digits = []) := by
  have hfeed := Blocks.feed_eq_exec dtmfSamplesPerBlock (dtmfBlock classify) (s := s) (Nat.le_refl xs.length) hb
  have hkeep : ∀ (t : List γ × DtmfRx) (x : γ), True → (t.2.callback = true → t.2.digits = []) →
      ((Blocks.push dtmfSamplesPerBlock (dtmfBlock classify) t x).1.2.callback = true →
        (Blocks.push dtmfSamplesPerBlock (dtmfBlock classify) t x).1.2.digits = []) := by
    intro t x _ ht
    rw [Blocks.push]
    split_ifs
    · exact dtmfHit_told ht
    · exact ht
  have hinv := Runs.exec_invariant hkeep xs (b, s) (Runs.Along.always (fun _ _ => trivial) xs _) ht
  rw [← hfeed] at hinv
  have heq : dtmfRx classify xs (b, s) =
      Blocks.feed dtmfSamplesPerBlock (dtmfBlock classify) xs.length xs (b, s) := by
    rw [dtmfRx]
    exact if_neg fun hx => hx.1 (hinv hx.2)
  rw [heq]
  exact ⟨hfeed, hinv⟩

theorem dtmfRx_run (ht : s.callback = true → s.digits = []) (hb : b.length < dtmfSamplesPerBlock)
    (parts : List (List γ)) :
    Runs.exec (dtmfRxTick classify) parts (b, s) =
      Runs.exec (Blocks.push dtmfSamplesPerBlock (dtmfBlock classify)) parts.flatten (b, s) := by
  induction parts generalizing b s with
  | nil => rfl
  | cons xs parts ih =>
    obtain ⟨heq, ht'⟩ := @dtmfRx_feed _ classify _ _ ht hb xs
    have hl := @Blocks.exec_push_length _ _ _ dtmfSamplesPerBlock (dtmfBlock classify) xs b s hb
    rw [← heq] at hl
    have hrun : Runs.exec (dtmfRxTick classify) parts (dtmfRxTick classify (b, s) xs).1 =
        Runs.exec (Blocks.push dtmfSamplesPerBlock (dtmfBlock classify)) parts.flatten
          (dtmfRx classify xs (b, s)).1 := ih ht' hl
    rw [List.flatten_cons, Runs.exec_append, ← heq, Runs.exec, hrun]
    rfl

/-- However the samples are cut into the parts that are read, the detector tells the same digits and
ends in the same state. -/
theorem dtmf_parts (callback : Bool) (parts parts' : List (List γ)) (h : parts.flatten = parts'.flatten) :
    Runs.exec (dtmfRxTick classify) parts ([], dtmfRxInit callback) =
      Runs.exec (dtmfRxTick classify) parts' ([], dtmfRxInit callback) := by
  have ht : (dtmfRxInit callback).callback = true → (dtmfRxInit callback).digits = [] := fun _ => rfl
  have hb : ([] : List γ).length < dtmfSamplesPerBlock := Nat.zero_lt_succ 101
  rw [dtmfRx_run ht hb, dtmfRx_run ht hb, h]

/-- A stream of which the second block begins in the middle of a part. -/
theorem dtmf_parts_shifted :
    Runs.exec (dtmfRxTick fun b => b.headD 0) [List.replicate 100 49, List.replicate 150 49] ([], dtmfRxInit true) =
      Runs.exec (dtmfRxTick fun b => b.headD 0) [List.replicate 250 49] ([], dtmfRxInit true) :=
  dtmf_parts true _ _ (by simp)

end Chunks

section RoundTrip

variable {β : Type}

/-- The filters tell the digits apart: a block of one tone is its digit, and one of silence is none.
A block in which a tone begins or ends may be either. -/
structure Discerns (sound : Waveform β) (classify : List β → Tone) : Prop where
  silence : classify (List.replicate dtmfSamplesPerBlock sound.silence) = 0
  tone : ∀ digit t, dtmfKey digit = some t → ∀ p,
    classify ((List.range dtmfSamplesPerBlock).map fun j => sound.wave t (p + j)) = digit
  onset : ∀ digit t, dtmfKey digit = some t → ∀ n k, n + k = dtmfSamplesPerBlock →
    classify (List.replicate n sound.silence ++ (List.range k).map (sound.wave t)) ∈ [0, digit]
  ending : ∀ digit t, dtmfKey digit = some t → ∀ n k p, n + k = dtmfSamplesPerBlock →
    classify ((List.range n).map (fun j => sound.wave t (p + j)) ++ List.replicate k sound.silence) ∈ [0, digit]

/-- What a detector is in while a digit is on. -/
def DtmfRx.onDigit (digit : Tone) : DtmfRx := ⟨true, digit, digit, 0, []⟩

theorem exec_held (s : DtmfRx) (digit : Tone) (hi : s.inDigit = digit) (hl : s.lastHit = digit) (n : Nat) :
    Runs.exec dtmfHit (List.replicate n digit) s = (s, []) := by
  induction n with
  | zero => rfl
  | succ n ih =>
    have he : dtmfHit s digit = (s, []) := by
      rw [dtmfHit, if_pos (.inl hi.symm), ← hl]
      rfl
    rw [List.replicate_succ, Runs.exec, he]
    simp only [ih]
    rfl

/-- A digit comes on. -/
theorem exec_onset {digit first : Tone} {n : Nat} (h0 : digit ≠ 0) (hf : first ∈ [0, digit])
    (hn : first = digit ∧ 1 ≤ n ∨ 2 ≤ n) :
    Runs.exec dtmfHit (first :: List.replicate n digit) (dtmfRxInit true) = (.onDigit digit, [[digit]]) := by
  have hone : ∀ n, Runs.exec dtmfHit (List.replicate (n + 2) digit) (dtmfRxInit true) =
      (.onDigit digit, [[digit]]) := by
    intro n
    have h1 : dtmfHit (dtmfRxInit true) digit = (⟨true, 0, digit, 0, []⟩, []) := by
      rw [dtmfHit, if_pos (.inr rfl)]
      rfl
    have h2 : dtmfHit ⟨true, 0, digit, 0, []⟩ digit = (.onDigit digit, [[digit]]) := by
      rw [dtmfHit, if_neg (by simpa using h0)]
      simp [h0, DtmfRx.report, DtmfRx.setHits, DtmfRx.onDigit, maxDtmfDigits]
    rw [List.replicate_succ, List.replicate_succ]
    simp only [Runs.exec, h1, h2, exec_held (.onDigit digit) digit rfl rfl n]
    rfl
  by_cases hd : first = digit
  · have h1 : 1 ≤ n := hn.elim And.right fun h => Nat.le_of_succ_le h
    obtain ⟨m, rfl⟩ : ∃ m, n = m + 1 := ⟨n - 1, by omega⟩
    rw [hd, ← List.replicate_succ]
    exact hone m
  · obtain rfl : first = 0 := by simpa [hd] using hf
    have h2 : 2 ≤ n := hn.resolve_left fun h => hd h.1
    obtain ⟨m, rfl⟩ : ∃ m, n = m + 2 := ⟨n - 2, by omega⟩
    have h1 : dtmfHit (dtmfRxInit true) 0 = (dtmfRxInit true, []) := rfl
    rw [Runs.exec, h1]
    simp only [hone m]
    rfl

/-- It goes off. -/
theorem exec_ending {digit first : Tone} {n : Nat} (h0 : digit ≠ 0) (hf : first ∈ [0, digit])
    (hn : first = 0 ∧ 1 ≤ n ∨ 2 ≤ n) :
    Runs.exec dtmfHit (first :: List.replicate n 0) (.onDigit digit) = (dtmfRxInit true, []) := by
  have h1 : dtmfHit (.onDigit digit) 0 = (⟨true, digit, 0, 0, []⟩, []) := by
    rw [dtmfHit, if_pos (.inr rfl)]
    rfl
  have h2 : dtmfHit ⟨true, digit, 0, 0, []⟩ 0 = (dtmfRxInit true, []) := by
    rw [dtmfHit, if_neg (by simpa using h0.symm)]
    rfl
  have htwo : ∀ n, Runs.exec dtmfHit (List.replicate (n + 2) 0) (.onDigit digit) = (dtmfRxInit true, []) := by
    intro n
    rw [List.replicate_succ, List.replicate_succ]
    simp only [Runs.exec, h1, h2, exec_held (dtmfRxInit true) 0 rfl rfl n]
    rfl
  by_cases hd : first = 0
  · have hn1 : 1 ≤ n := hn.elim And.right fun h => Nat.le_of_succ_le h
    obtain ⟨m, rfl⟩ : ∃ m, n = m + 1 := ⟨n - 1, by omega⟩
    rw [hd, ← List.replicate_succ]
    exact htwo m
  · obtain rfl : first = digit := by simpa [hd] using hf
    have hn2 : 2 ≤ n := hn.resolve_left fun h => hd h.1
    obtain ⟨m, rfl⟩ : ∃ m, n = m + 2 := ⟨n - 2, by omega⟩
    have hsame : dtmfHit (.onDigit first) first = (.onDigit first, []) := by
      rw [dtmfHit, if_pos (.inl rfl)]
      rfl
    rw [Runs.exec, hsame]
    simp only [htwo m]
    rfl

variable {sound : Waveform β} {classify : List β → Tone} {digit : Tone} {t : DualTone}

/-- A push of the samples of one part after the other. -/
def hearing (classify : List β → Tone) (samples : List β) (s : List β × DtmfRx) :
    (List β × DtmfRx) × List (List Tone) :=
  Runs.exec (Blocks.push dtmfSamplesPerBlock (dtmfBlock classify)) samples s

theorem map_rows {w : Nat → β} {hit : Tone} (h : ∀ p, classify ((List.range dtmfSamplesPerBlock).map fun j => w (p + j)) = hit)
    (a q : Nat) : (Blocks.rows dtmfSamplesPerBlock w a q).map classify = List.replicate q hit := by
  rw [Blocks.rows, List.map_map, List.eq_replicate_iff]
  refine ⟨by simp, ?_⟩
  intro x hx
  obtain ⟨i, -, rfl⟩ := List.mem_map.mp hx
  exact h (a + i * dtmfSamplesPerBlock)

theorem dtmfKey_ne_zero (h : dtmfKey digit = some t) : digit ≠ 0 := by
  rintro rfl
  simp [dtmfKey] at h

/-- A signal whose blocks all are this digit, after the start of a block. -/
theorem hearing_signal {w : Nat → β} {b : List β} {s : DtmfRx} {k n : Nat}
    (hw : ∀ p, classify ((List.range dtmfSamplesPerBlock).map fun j => w (p + j)) = digit)
    (hk : b.length + k = dtmfSamplesPerBlock) (h0 : 0 < k) (hn : k ≤ n) :
    hearing classify ((List.range n).map w) (b, s) =
      let r := Runs.exec dtmfHit (classify (b ++ (List.range k).map w) ::
        List.replicate ((n - k) / dtmfSamplesPerBlock) digit) s
      (((List.range ((n - k) % dtmfSamplesPerBlock)).map fun j =>
        w (k + (n - k) / dtmfSamplesPerBlock * dtmfSamplesPerBlock + j), r.1), r.2) := by
  rw [hearing, Blocks.exec_push_signal dtmfSamplesPerBlock (dtmfBlock classify) hk h0 hn, ← map_rows hw k,
    ← List.map_cons, ← Runs.exec_map classify]
  rfl

/-- The tone of a digit, after silence. -/
theorem Discerns.hearing_tone (h : Discerns sound classify) (hk : dtmfKey digit = some t) {r on : Nat}
    (hr : r < dtmfSamplesPerBlock) (hon : 305 ≤ on) :
    ∃ p n, n < dtmfSamplesPerBlock ∧
      hearing classify ((List.range on).map (sound.wave t)) (List.replicate r sound.silence, dtmfRxInit true) =
        (((List.range n).map fun j => sound.wave t (p + j), .onDigit digit), [[digit]]) := by
  have hsize : dtmfSamplesPerBlock = 102 := rfl
  have hsum : r + (dtmfSamplesPerBlock - r) = dtmfSamplesPerBlock := by omega
  let k := dtmfSamplesPerBlock - r
  refine ⟨k + (on - k) / dtmfSamplesPerBlock * dtmfSamplesPerBlock, (on - k) % dtmfSamplesPerBlock,
    Nat.mod_lt _ (by omega), ?_⟩
  rw [hearing_signal (h.tone digit t hk) (by rw [List.length_replicate]; exact hsum) (by omega) (by omega)]
  have hfirst := h.onset digit t hk r _ hsum
  rw [exec_onset (dtmfKey_ne_zero hk) hfirst ?_]
  by_cases h0 : r = 0
  · have hpure := h.tone digit t hk 0
    simp only [Nat.zero_add] at hpure
    refine .inl ⟨by rw [h0]; exact hpure, ?_⟩
    rw [hsize]
    omega
  · refine .inr ?_
    rw [hsize]
    omega

/-- The silence after it. -/
theorem Discerns.hearing_silence (h : Discerns sound classify) (hk : dtmfKey digit = some t) {p n off : Nat}
    (hn : n < dtmfSamplesPerBlock) (hoff : 305 ≤ off) :
    ∃ r, r < dtmfSamplesPerBlock ∧
      hearing classify (List.replicate off sound.silence)
        ((List.range n).map fun j => sound.wave t (p + j), .onDigit digit) =
          ((List.replicate r sound.silence, dtmfRxInit true), []) := by
  have hsize : dtmfSamplesPerBlock = 102 := rfl
  have hsum : n + (dtmfSamplesPerBlock - n) = dtmfSamplesPerBlock := by omega
  have hconst : ∀ m, List.replicate m sound.silence = (List.range m).map fun _ => sound.silence := by
    intro m
    rw [List.map_const', List.length_range]
  refine ⟨(off - (dtmfSamplesPerBlock - n)) % dtmfSamplesPerBlock, Nat.mod_lt _ (by omega), ?_⟩
  have hw : ∀ p : Nat, classify ((List.range dtmfSamplesPerBlock).map fun _ => sound.silence) = 0 := by
    intro p
    rw [← hconst]
    exact h.silence
  rw [hconst off, hearing_signal hw (by simpa using hsum) (by omega) (by omega), ← hconst, ← hconst]
  have hfirst := h.ending digit t hk n _ p hsum
  rw [exec_ending (dtmfKey_ne_zero hk) hfirst ?_]
  by_cases h0 : n = 0
  · refine .inl ⟨by rw [h0]; exact h.silence, ?_⟩
    rw [hsize]
    omega
  · refine .inr ?_
    rw [hsize]
    omega

/-- Silence of any length, with no digit on. -/
theorem Discerns.hearing_quiet (h : Discerns sound classify) (n : Nat) {r : Nat} (hr : r < dtmfSamplesPerBlock) :
    ∃ r', r' < dtmfSamplesPerBlock ∧
      hearing classify (List.replicate n sound.silence) (List.replicate r sound.silence, dtmfRxInit true) =
        ((List.replicate r' sound.silence, dtmfRxInit true), []) := by
  induction n generalizing r with
  | zero => exact ⟨r, hr, rfl⟩
  | succ n ih =>
    have hrep : List.replicate r sound.silence ++ [sound.silence] = List.replicate (r + 1) sound.silence :=
      List.replicate_succ'.symm
    by_cases hfull : r + 1 = dtmfSamplesPerBlock
    · obtain ⟨r', hr', he⟩ := ih (r := 0) (by omega)
      refine ⟨r', hr', ?_⟩
      have hpush : Blocks.push dtmfSamplesPerBlock (dtmfBlock classify)
          (List.replicate r sound.silence, dtmfRxInit true) sound.silence = (([], dtmfRxInit true), []) := by
        rw [Blocks.push, if_pos (by simpa using hfull), hrep, hfull, dtmfBlock, h.silence]
        rfl
      rw [hearing] at he ⊢
      rw [List.replicate_succ, Runs.exec, hpush]
      simp only [List.nil_append]
      exact he
    · obtain ⟨r', hr', he⟩ := ih (r := r + 1) (by omega)
      refine ⟨r', hr', ?_⟩
      have hpush : Blocks.push dtmfSamplesPerBlock (dtmfBlock classify)
          (List.replicate r sound.silence, dtmfRxInit true) sound.silence =
            ((List.replicate (r + 1) sound.silence, dtmfRxInit true), []) := by
        rw [Blocks.push, if_neg (by simpa using hfull), hrep]
      rw [hearing] at he ⊢
      rw [List.replicate_succ, Runs.exec, hpush]
      simp only [List.nil_append]
      exact he

/-- All digits, one after the other. -/
theorem Discerns.hearing_digits (h : Discerns sound classify) {on off : Nat} (hon : 305 ≤ on) (hoff : 305 ≤ off)
    (digits : List Tone) {r : Nat} (hr : r < dtmfSamplesPerBlock) :
    ∃ r', r' < dtmfSamplesPerBlock ∧
      hearing classify (dtmfSignal sound on off digits) (List.replicate r sound.silence, dtmfRxInit true) =
        ((List.replicate r' sound.silence, dtmfRxInit true),
          (digits.filter fun d => (dtmfKey d).isSome).map fun d => [d]) := by
  induction digits generalizing r with
  | nil => exact ⟨r, hr, rfl⟩
  | cons d digits ih =>
    cases hk : dtmfKey d with
    | none =>
      obtain ⟨r', hr', he⟩ := ih hr
      refine ⟨r', hr', ?_⟩
      rw [dtmfSignal, List.flatMap_cons, hk, List.filter_cons_of_neg (by simp [hk])]
      exact he
    | some t =>
      obtain ⟨p, n, hn, htone⟩ := h.hearing_tone hk hr hon
      obtain ⟨r₁, hr₁, hsil⟩ := h.hearing_silence hk (p := p) hn hoff
      obtain ⟨r', hr', he⟩ := ih hr₁
      refine ⟨r', hr', ?_⟩
      rw [dtmfSignal, List.flatMap_cons, hk, List.filter_cons_of_pos (by simp [hk])]
      change hearing classify (digitSignal sound t on off ++ dtmfSignal sound on off digits) _ = _
      rw [hearing] at htone hsil he ⊢
      rw [digitSignal, Runs.exec_append, Runs.exec_append, htone, hsil, he]
      rfl

/-- Digits for which there is no room are not put. -/
theorem dtmfDial_length {data : Nat → UInt8} {onTime offTime : Int} {digits : List Tone} {s : DtmfTx}
    (hd : dtmfDial data onTime offTime digits = some (0, s)) : (cstr digits).length ≤ maxDtmfDigits := by
  by_contra hl
  have hfree : queueFreeSpace (dtmfTxSetTiming onTime offTime (dtmfTxInit data)).queue = maxDtmfDigits :=
    (QueueState.init_models maxDtmfDigits true true data).free
  rw [dtmfDial, dtmfTxPut] at hd
  simp only [hfree] at hd
  rw [if_pos (by decide : (-1 : Int) < 0), List.length_map, if_neg (by omega), if_pos (by omega)] at hd
  have hx := congrArg Prod.fst (Option.some.inj hd)
  dsimp only at hx
  omega

/-- What is dialled arrives. When the sender has nothing more, and however the samples were cut on
either side, the detector has told every digit once and in order, and none is on. -/
theorem dtmf_round_trip {data : Nat → UInt8} {onTime offTime : Int} {digits : List Tone} {s : DtmfTx}
    {sizes : List Nat} {quiet : Nat} {parts : List (List β)} (h : Discerns sound classify)
    (hon : 39 ≤ onTime) (hoff : 39 ≤ offTime) (hb : ∀ d ∈ cstr digits, d < 256)
    (hd : dtmfDial data onTime offTime digits = some (0, s)) (hp : ∀ n ∈ sizes, 0 < n)
    (hall : some [] ∈ (Runs.exec (dtmfTxTick sound) sizes s).2)
    (hparts : parts.flatten = List.replicate quiet sound.silence ++
      ((Runs.exec (dtmfTxTick sound) sizes s).2.filterMap id).flatten) :
    let r := Runs.exec (dtmfRxTick classify) parts ([], dtmfRxInit true)
    r.2 = ((cstr digits).filter fun d => (dtmfKey d).isSome).map (fun d => [d]) ∧ dtmfRxStatus r.1.2 = 0 := by
  obtain ⟨s', hd', ha, hrun⟩ := @dtmfDial_run _ sound data onTime offTime _ (dtmfDial_length hd) hb
  obtain rfl : s' = s := by
    rw [hd', Option.some.injEq, Prod.mk.injEq] at hd
    exact hd.2
  rw [hrun, List.filterMap_map] at hparts
  rw [hrun] at hall
  have hwhole : (Blocks.cut sizes (dtmfSignal sound s'.onTime s'.offTime (cstr digits))).flatten =
      dtmfSignal sound s'.onTime s'.offTime (cstr digits) := by
    refine Blocks.flatten_cut_of_nil hp ?_
    obtain ⟨part, hm, he⟩ := List.mem_map.mp hall
    rwa [Option.some.inj he] at hm
  have htimes : 305 ≤ s'.onTime ∧ 305 ≤ s'.offTime := by
    rw [ha.onTime, ha.offTime]
    simp only [dtmfTxSetTiming, sampleRate]
    rw [if_pos (by omega), if_pos (by omega)]
    omega
  have hsome : (id ∘ some : List β → Option (List β)) = some := rfl
  rw [hsome, List.filterMap_some, hwhole] at hparts
  obtain ⟨r₁, hr₁, hquiet⟩ := h.hearing_quiet quiet (r := 0) (Nat.zero_lt_succ 101)
  obtain ⟨r₂, hr₂, hdigits⟩ := h.hearing_digits htimes.1 htimes.2 (cstr digits) hr₁
  have hfull : Runs.exec (dtmfRxTick classify) parts ([], dtmfRxInit true) =
      ((List.replicate r₂ sound.silence, dtmfRxInit true),
        ((cstr digits).filter fun d => (dtmfKey d).isSome).map fun d => [d]) := by
    have ht : (dtmfRxInit true).callback = true → (dtmfRxInit true).digits = [] := fun _ => rfl
    have h0 : ([] : List β).length < dtmfSamplesPerBlock := Nat.zero_lt_succ 101
    rw [dtmfRx_run ht h0, hparts, Runs.exec_append]
    rw [hearing] at hquiet hdigits
    rw [List.replicate_zero] at hquiet
    rw [hquiet, hdigits]
    rfl
  rw [hfull]
  exact ⟨rfl, rfl⟩

/-- Samples that say which tone they are of, if of any. -/
def plainSound : Waveform (Option DualTone) := ⟨fun t _ => some t, none⟩

/-- A block is a digit if all of it is one tone, and this is the digit's. -/
def plainClassify (block : List (Option DualTone)) : Tone :=
  match block with
  | some t :: _ =>
    if block.all fun x => x = some t then (dtmfPositions.find? fun d => dtmfKey d = some t).getD 0 else 0
  | _ => 0

theorem mem_dtmfPositions (hk : dtmfKey digit = some t) : digit ∈ dtmfPositions := by
  rw [dtmfKey, strchr] at hk
  split_ifs at hk with h0 hi
  · exact List.idxOf_lt_length_iff.mp hi
  · exact absurd hk (by simp)

theorem find_dtmfKey (hk : dtmfKey digit = some t) :
    (dtmfPositions.find? fun d => dtmfKey d = some t).getD 0 = digit := by
  have hall : ∀ d ∈ dtmfPositions, (dtmfPositions.find? fun e => dtmfKey e = dtmfKey d) = some d := by decide
  have hd := hall digit (mem_dtmfPositions hk)
  rw [hk] at hd
  rw [hd, Option.getD_some]

theorem plainClassify_head (hk : dtmfKey digit = some t) (block : List (Option DualTone)) :
    plainClassify (some t :: block) = if block.all (fun x => x = some t) then digit else 0 := by
  rw [plainClassify, find_dtmfKey hk]
  simp

theorem plain_discerns : Discerns plainSound plainClassify where
  silence := rfl
  tone digit t hk p := by
    rw [dtmfSamplesPerBlock, List.range_succ_eq_map, List.map_cons]
    change plainClassify (some t :: _) = digit
    rw [plainClassify_head hk, if_pos]
    simp [plainSound]
  onset digit t hk n k hsum := by
    cases n with
    | zero =>
      obtain rfl : k = 102 := by simpa [dtmfSamplesPerBlock] using hsum
      rw [List.replicate_zero, List.nil_append, List.range_succ_eq_map, List.map_cons]
      change plainClassify (some t :: _) ∈ [0, digit]
      rw [plainClassify_head hk]
      split_ifs <;> simp
    | succ n =>
      rw [List.replicate_succ, List.cons_append]
      change 0 ∈ [0, digit]
      exact List.mem_cons_self
  ending digit t hk n k p hsum := by
    cases n with
    | zero =>
      obtain rfl : k = 102 := by simpa [dtmfSamplesPerBlock] using hsum
      rw [List.range_zero, List.map_nil, List.nil_append, List.replicate_succ]
      change 0 ∈ [0, digit]
      exact List.mem_cons_self
    | succ n =>
      rw [List.range_succ_eq_map, List.map_cons, List.cons_append]
      change plainClassify (some t :: _) ∈ [0, digit]
      rw [plainClassify_head hk]
      split_ifs <;> simp

/-- The queue of a call to the number 42, when the buffer held nothing. -/
def dialled42 : DtmfTx := ((dtmfDial (fun _ => 0) 39 39 [52, 50]).getD (0, dtmfTxInit fun _ => 0)).2

/-- Read in one part, after a hundred samples of silence, and sent in three. -/
theorem dtmf_round_trip_42 :
    let parts := [List.replicate 100 none ++
      ((Runs.exec (dtmfTxTick plainSound) [700, 700, 1] dialled42).2.filterMap id).flatten]
    let r := Runs.exec (dtmfRxTick plainClassify) parts ([], dtmfRxInit true)
    r.2 = [[52], [50]] ∧ dtmfRxStatus r.1.2 = 0 :=
  have hd : dtmfDial (fun _ => 0) 39 39 [52, 50] = some (0, dialled42) := rfl
  have hall : some [] ∈ (Runs.exec (dtmfTxTick plainSound) [700, 700, 1] dialled42).2 := by decide +kernel
  dtmf_round_trip plain_discerns (by decide) (by decide) (by decide) hd (by decide) hall (List.append_nil _)

end RoundTrip

end OpenR2
