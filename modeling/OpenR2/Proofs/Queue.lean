import OpenR2.Queue

namespace OpenR2

namespace QueueState

/-- The pointers stay in the buffer. Each of them may stand behind its last cell, but not while
the other is at the first. -/
structure Sound (s : QueueState) : Prop where
  input : s.iptr ≤ s.len
  output : s.optr ≤ s.len
  high : s.iptr = s.len → s.optr ≠ 0
  low : s.optr = s.len → s.iptr ≠ 0

/-- How many bytes the queue holds. -/
def count (s : QueueState) : Nat := (queueContents s).toNat

/-- The bytes that the queue holds, the oldest first. -/
def held (s : QueueState) : List UInt8 := Ring.span s.len s.data s.optr s.count

section Counts

variable {s : QueueState}

@[simp] theorem length_held : s.held.length = s.count := Ring.length_span

theorem Sound.pos (h : s.Sound) : 0 < s.len := by
  have := h.input
  have := h.output
  have := h.high
  omega

/-- The bytes end where the next one goes, on this round of the buffer or on the next. -/
theorem Sound.contents (h : s.Sound) : queueContents s = s.count ∧ s.count < s.len ∧
    (s.optr + s.count = s.iptr ∨ s.optr + s.count = s.iptr + s.len) := by
  obtain ⟨hi, ho, hh, hl⟩ := h
  simp only [count, queueContents]
  split_ifs <;> omega

theorem Sound.free (h : s.Sound) : queueFreeSpace s = (s.len - 1 - s.count : Nat) := by
  obtain ⟨hi, ho, hh, hl⟩ := h
  simp only [count, queueContents, queueFreeSpace]
  split_ifs <;> omega

theorem Sound.input_mod (h : s.Sound) : s.iptr % s.len = (s.optr + s.count) % s.len := by
  rcases h.contents.2.2 with he | he
  · rw [he]
  · rw [he, Nat.add_mod_right]

end Counts

section Copies

variable {s : QueueState} {n : Nat} {bs : List UInt8}

/-- A read within the contents stays in the buffer. -/
theorem Sound.copyOut (h : s.Sound) (hn : n ≤ s.count) :
    copyOut n s = some (Ring.span s.len s.data s.optr n) := by
  obtain ⟨-, hc, he⟩ := h.contents
  have ho := h.output
  have hi := h.input
  have hl : ∀ off m : Nat, off + m ≤ s.len → s.load off m = some (Ring.fetch s.data off m) := by
    intro off m hm
    rw [load, if_pos ⟨by omega, by omega, by omega⟩, Int.toNat_natCast, Int.toNat_natCast]
  rw [OpenR2.copyOut]
  by_cases hw : readWraps n s
  · obtain ⟨hw, hx⟩ : s.iptr < s.optr ∧ (s.len : Int) - s.optr < n := hw
    have h1 : (s.len : Int) - s.optr = (s.len - s.optr : Nat) := by omega
    have h2 : (n : Int) - (s.len - s.optr : Nat) = (n - (s.len - s.optr) : Nat) := by omega
    have h3 := hl 0 (n - (s.len - s.optr)) (by omega)
    rw [Int.natCast_zero] at h3
    rw [if_pos ⟨hw, hx⟩, h1, h2, hl s.optr _ (by omega), h3, Ring.span_rows ho (by omega) (by omega)]
    rfl
  · have hw' : ¬ (s.iptr < s.optr ∧ (s.len : Int) - s.optr < n) := hw
    rw [if_neg hw, hl s.optr n (by omega), Ring.span_row (by omega)]

/-- Where a read leaves the output pointer. -/
def nextOptr (n : Nat) (s : QueueState) : Nat :=
  if s.iptr < s.optr ∧ s.len - s.optr < n then n - (s.len - s.optr) else s.optr + n

/-- The read goes on at the start of the buffer, or does not end with the last cell. -/
theorem Sound.read (h : s.Sound) (h0 : 0 < n) (hn : n ≤ s.count)
    (he : s.iptr ≠ 0 ∨ s.optr + n ≠ s.len) :
    let s' := s.setOptr (s.nextOptr n)
    s'.Sound ∧ s'.held = s.held.drop n := by
  obtain ⟨-, hc, hx⟩ := h.contents
  obtain ⟨hi, ho, hh, hl⟩ := h
  have hs : (s.setOptr (s.nextOptr n)).Sound := by
    refine ⟨hi, ?_, ?_, ?_⟩
    all_goals
      simp only [setOptr, nextOptr]
      split_ifs <;> omega
  have hcount : (s.setOptr (s.nextOptr n)).count = s.count - n := by
    simp only [count, queueContents, setOptr, nextOptr] at hc hx hn ⊢
    split_ifs at hc hx hn ⊢ <;> omega
  refine ⟨hs, ?_⟩
  rw [held, held, hcount, Ring.drop_span hn]
  refine Ring.span_modEq ?_
  simp only [setOptr, nextOptr, Int.toNat_natCast]
  split_ifs with hw
  · have hadd : s.optr + n = n - (s.len - s.optr) + s.len := by omega
    rw [hadd, Nat.add_mod_right]
  · rfl

/-- Where a write leaves the input pointer. -/
def nextIptr (n : Nat) (s : QueueState) : Nat :=
  if s.iptr < s.optr ∨ n ≤ s.len - s.iptr then s.iptr + n else n - (s.len - s.iptr)

/-- The queue after these bytes were put into it. -/
def put (bs : List UInt8) (s : QueueState) : QueueState :=
  { s with data := Ring.fill s.len s.data s.iptr bs, iptr := s.nextIptr bs.length }

theorem Sound.put (h : s.Sound) (h0 : 0 < bs.length) (hn : bs.length ≤ s.len - 1 - s.count) :
    (s.put bs).Sound ∧ (s.put bs).held = s.held ++ bs := by
  have hp := h.pos
  have hm := h.input_mod
  obtain ⟨-, hc, hx⟩ := h.contents
  obtain ⟨hi, ho, hh, hl⟩ := h
  have hs : (s.put bs).Sound := by
    refine ⟨?_, ho, ?_, ?_⟩
    all_goals
      simp only [QueueState.put, nextIptr]
      split_ifs <;> omega
  have hcount : (s.put bs).count = s.count + bs.length := by
    simp only [count, queueContents, QueueState.put, nextIptr] at hc hx hn ⊢
    split_ifs at hc hx hn ⊢ <;> omega
  refine ⟨hs, ?_⟩
  rw [held, hcount]
  exact Ring.span_fill hi hm (show s.count + bs.length ≤ s.len by omega)

/-- The first of these bytes go to the end of the buffer, and the others to its start. -/
theorem store_nat {off m : Nat} (hm : m ≤ bs.length) (ho : off + m ≤ s.len) :
    s.store off m bs = some { s with data := Ring.copy s.data off (bs.take m) } := by
  rw [store, if_pos ⟨by omega, by omega, by omega, by omega⟩, Int.toNat_natCast, Int.toNat_natCast]

theorem Sound.copyIn (h : s.Sound) (h0 : 0 < n) (hn : n ≤ s.len - 1 - s.count) (hb : n ≤ bs.length) :
    copyIn n bs s = some (s.put (bs.take n)) := by
  obtain ⟨-, hc, hx⟩ := h.contents
  obtain ⟨hi, ho, hh, hl⟩ := h
  have hlen : (bs.take n).length = n := List.length_take_of_le hb
  rw [OpenR2.copyIn, QueueState.put, hlen]
  by_cases hw : writeFits n s
  · have hw' : s.iptr < s.optr ∨ (s.len : Int) - s.iptr ≥ n := hw
    have hrow : s.iptr + n ≤ s.len := by
      simp only [count, queueContents] at hn hx
      split_ifs at hn hx <;> omega
    have hnext : s.nextIptr n = s.iptr + n := by
      rw [nextIptr, if_pos (by omega)]
    rw [if_pos hw, store_nat hb hrow, hnext, Ring.fill_row (by rwa [hlen])]
    simp only [Option.bind_eq_bind, Option.bind_some]
    rw [if_neg (by omega)]
    rfl
  · have hw' : ¬ (s.iptr < s.optr ∨ (s.len : Int) - s.iptr ≥ n) := hw
    rw [if_neg hw]
    have h1 : (s.len : Int) - s.iptr = (s.len - s.iptr : Nat) := by omega
    have h2 : (n : Int) - (s.len - s.iptr : Nat) = (n - (s.len - s.iptr) : Nat) := by omega
    have hnext : s.nextIptr n = n - (s.len - s.iptr) := by
      rw [nextIptr, if_neg (by omega)]
    have hfst := @store_nat s bs s.iptr (s.len - s.iptr) (by omega) (by omega)
    have hsnd := @store_nat { s with data := Ring.copy s.data s.iptr (bs.take (s.len - s.iptr)) }
      (bs.drop (s.len - s.iptr)) 0 (n - (s.len - s.iptr))
      (by rw [List.length_drop]; omega) (by dsimp only; omega)
    have htake : (bs.take n).take (s.len - s.iptr) = bs.take (s.len - s.iptr) := by
      rw [List.take_take, Nat.min_eq_left (by omega)]
    have hdrop : (bs.take n).drop (s.len - s.iptr) = (bs.drop (s.len - s.iptr)).take (n - (s.len - s.iptr)) :=
      List.drop_take
    rw [Int.natCast_zero] at hsnd
    rw [h1, h2, Int.toNat_natCast, hfst, Option.bind_eq_bind, Option.bind_some, hsnd, Option.bind_some, hnext,
      Ring.fill, htake, hdrop]
    rfl

end Copies

/-- The queue is one with these bytes. -/
structure Models (s : QueueState) (q : Fifo) : Prop where
  sound : s.Sound
  held : s.held = q.bytes
  len : s.len = q.capacity + 1
  readAtomic : s.readAtomic = q.readAtomic
  writeAtomic : s.writeAtomic = q.writeAtomic

section Operations

variable {s : QueueState} {q : Fifo} {bs : List UInt8} {n : Nat}

theorem Models.count (h : s.Models q) : s.count = q.bytes.length := by rw [← h.held, length_held]

theorem Models.free (h : s.Models q) : queueFreeSpace s = (q.capacity - q.bytes.length : Nat) := by
  have hl := h.len
  rw [h.sound.free, h.count]
  congr 1
  omega

theorem Models.contents (h : s.Models q) : queueContents s = q.bytes.length := by
  rw [h.sound.contents.1, h.count]

theorem Models.empty (h : s.Models q) : queueEmpty s = true ↔ q.bytes = [] := by
  rw [← List.length_eq_zero_iff, ← h.count, queueEmpty, decide_eq_true_iff]
  obtain ⟨hi, ho, hh, hl⟩ := h.sound
  simp only [QueueState.count, queueContents]
  split_ifs <;> omega

/-- What is read off the buffer is what is read of the bytes. -/
theorem Models.load (h : s.Models q) (hn : n ≤ q.bytes.length) : copyOut n s = some (q.bytes.take n) := by
  rw [h.sound.copyOut (h.count ▸ hn), ← h.held, QueueState.held, Ring.take_span (h.count ▸ hn)]

/-- How many bytes a read gets. -/
theorem Models.readLength (h : s.Models q) : readLength n s =
    if q.bytes.length < n ∧ q.readAtomic then none else some ((q.bytes.take n).length : Int) := by
  rw [OpenR2.readLength, h.contents, h.readAtomic, List.length_take]
  by_cases hc : q.bytes.length < n
  · rw [if_pos (by omega), Nat.min_eq_right hc.le]
    cases q.readAtomic <;> simp [hc]
  · rw [if_neg (by omega), if_neg fun hx => hc hx.1, Nat.min_eq_left (by omega)]

theorem Models.view (h : s.Models q) : queueView n s = some (q.view n) := by
  rw [queueView, h.readLength, Fifo.view]
  split_ifs with hc
  · rfl
  · by_cases h0 : (q.bytes.take n).length = 0
    · have hz : q.bytes.take n = [] := List.length_eq_zero_iff.mp h0
      simp [hz]
    · have hl : (q.bytes.take n).length ≤ q.bytes.length := List.length_take_le' n q.bytes
      have ht : q.bytes.take (q.bytes.take n).length = q.bytes.take n := by simp
      dsimp only
      rw [if_neg (by omega), h.load hl, ht]
      rfl

/-- A read. -/
theorem Models.read (h : s.Models q) (he : s.iptr ≠ 0 ∨ s.optr + min n s.count ≠ s.len) :
    ∃ s', queueRead n s = some (q.view n, s') ∧ s'.Models (q.read n) ∧ s'.iptr = s.iptr ∧
      s'.optr = (if q.bytes.length < n ∧ q.readAtomic then s.optr else s.nextOptr (min n s.count)) := by
  rw [queueRead, h.readLength, Fifo.view, Fifo.read, h.count]
  split_ifs with hc
  · exact ⟨s, rfl, h, rfl, rfl⟩
  have hlen : (q.bytes.take n).length = min n q.bytes.length := List.length_take
  by_cases h0 : (q.bytes.take n).length = 0
  · -- nothing is asked for, or nothing is there
    have hz : q.bytes.take n = [] := List.length_eq_zero_iff.mp h0
    have hd : q.bytes.drop n = q.bytes := by
      have := List.take_append_drop n q.bytes
      rwa [hz, List.nil_append] at this
    have hm : min n q.bytes.length = 0 := hlen ▸ h0
    refine ⟨s, by simp [hz], ⟨h.sound, ?_, h.len, h.readAtomic, h.writeAtomic⟩, rfl, ?_⟩
    · exact h.held.trans hd.symm
    · rw [hm, nextOptr, if_neg (by omega), Nat.add_zero]
  · have hl : (q.bytes.take n).length ≤ s.count := h.count ▸ List.length_take_le' n q.bytes
    have hx : s.iptr ≠ 0 ∨ s.optr + (q.bytes.take n).length ≠ s.len := by rwa [hlen, ← h.count]
    obtain ⟨hs, hd⟩ := h.sound.read (by omega) hl hx
    have ho := h.sound.output
    have ht : q.bytes.take (q.bytes.take n).length = q.bytes.take n := by simp
    refine ⟨s.setOptr (s.nextOptr (q.bytes.take n).length), ?_, ⟨hs, ?_, h.len, h.readAtomic, h.writeAtomic⟩,
      rfl, ?_⟩
    · dsimp only
      rw [if_neg (by omega), h.load (h.count ▸ hl), ht, Option.map_some]
      congr 3
      obtain ⟨-, hc, hx⟩ := h.sound.contents
      have hi := h.sound.input
      rw [nextOptr]
      by_cases hw : readWraps ((q.bytes.take n).length : Int) s
      · obtain ⟨hw, hx⟩ : s.iptr < s.optr ∧ (s.len : Int) - s.optr < (q.bytes.take n).length := hw
        rw [if_pos ⟨hw, hx⟩, if_pos (by omega)]
        omega
      · have hw' : ¬ (s.iptr < s.optr ∧ (s.len : Int) - s.optr < (q.bytes.take n).length) := hw
        rw [if_neg hw, if_neg (by omega), if_neg (by omega)]
        omega
    · rw [hd, h.held, hlen]
      change q.bytes.drop (min n q.bytes.length) = q.bytes.drop n
      by_cases hn : n ≤ q.bytes.length
      · rw [Nat.min_eq_left hn]
      · rw [Nat.min_eq_right (by omega), List.drop_length, List.drop_of_length_le (by omega)]
    · simp only [setOptr, Int.toNat_natCast, hlen]

/-- Bytes for which there is room. -/
theorem Models.put (h : s.Models q) (h0 : 0 < bs.length) (hn : bs.length ≤ q.capacity - q.bytes.length) :
    (s.put bs).Models (q.set (q.bytes ++ bs)) := by
  have hl := h.len
  obtain ⟨hs, hh⟩ := h.sound.put h0 (by rw [h.count]; omega)
  exact ⟨hs, hh.trans (congrArg (· ++ bs) h.held), h.len, h.readAtomic, h.writeAtomic⟩

theorem Models.copyIn (h : s.Models q) (h0 : 0 < n) (hn : n ≤ q.capacity - q.bytes.length)
    (hb : n ≤ bs.length) : copyIn n bs s = some (s.put (bs.take n)) := by
  have hl := h.len
  exact h.sound.copyIn h0 (by rw [h.count]; omega) hb

/-- A write puts in the bytes for which there is room. -/
theorem Models.write (h : s.Models q) : ∃ s', queueWrite bs s = some (q.wrote bs, s') ∧
    s'.Models (q.set (q.bytes ++ q.room bs)) ∧ s'.optr = s.optr ∧
      s'.iptr = if q.room bs = [] then s.iptr else s.nextIptr (q.room bs).length := by
  rw [queueWrite, h.free, h.writeAtomic, Fifo.wrote]
  by_cases hc : q.capacity - q.bytes.length < bs.length ∧ q.writeAtomic
  · have hr : q.room bs = [] := by rw [Fifo.room, if_pos hc]
    rw [if_pos ⟨by omega, hc.2⟩, if_pos hc, if_pos hr, hr, List.append_nil]
    exact ⟨s, rfl, h, rfl, rfl⟩
  have hr : q.room bs = bs.take (q.capacity - q.bytes.length) := by rw [Fifo.room, if_neg hc]
  have hlen : (q.room bs).length = min (q.capacity - q.bytes.length) bs.length := by
    rw [hr, List.length_take]
  have hreal : (if (↑(q.capacity - q.bytes.length) : Int) < bs.length then
      (↑(q.capacity - q.bytes.length) : Int) else bs.length) = (q.room bs).length := by
    rw [hlen]
    split_ifs <;> omega
  have hc' : ¬ ((↑(q.capacity - q.bytes.length) : Int) < bs.length ∧ q.writeAtomic) := fun hx =>
    hc ⟨Int.ofNat_lt.mp hx.1, hx.2⟩
  rw [if_neg hc', if_neg hc]
  simp only [hreal]
  by_cases h0 : q.room bs = []
  · refine ⟨s, ?_, ?_, rfl, ?_⟩
    · simp [h0]
    · rw [h0, List.append_nil]
      exact h
    · rw [if_pos h0]
  · have hpos : 0 < (q.room bs).length := List.length_pos_iff.mpr h0
    have hroom : (q.room bs).length ≤ q.capacity - q.bytes.length := by omega
    refine ⟨s.put (q.room bs), ?_, h.put hpos hroom, rfl, ?_⟩
    · have ht : bs.take (q.room bs).length = q.room bs := by
        rw [hr, List.length_take]
        by_cases hf : q.capacity - q.bytes.length ≤ bs.length
        · rw [Nat.min_eq_left hf]
        · rw [Nat.min_eq_right (by omega), List.take_length, List.take_of_length_le (by omega)]
      rw [if_neg (by omega), h.copyIn hpos hroom (by omega), ht]
      rfl
    · rw [if_neg h0]
      rfl

/-- Both pointers stand at cells of the buffer. -/
structure Inside (s : QueueState) : Prop where
  input : s.iptr < s.len
  output : s.optr < s.len

theorem Inside.sound (h : s.Inside) : s.Sound := by
  obtain ⟨hi, ho⟩ := h
  exact ⟨hi.le, ho.le, by omega, by omega⟩

/-- A byte is written. Here the pointer goes back to the start as soon as it can. -/
theorem Models.writeByte (h : s.Models q) (hs : s.Inside) (byte : UInt8) :
    ∃ s', queueWriteByte byte s = some (q.wrote [byte], s') ∧
      s'.Models (q.set (q.bytes ++ q.room [byte])) ∧ s'.Inside := by
  have hl := h.len
  rw [queueWriteByte, h.free, h.writeAtomic, Fifo.wrote, Fifo.room]
  by_cases hc : q.capacity - q.bytes.length < 1
  · -- there is no room
    have hz : q.capacity - q.bytes.length = 0 := by omega
    refine ⟨s, ?_, ?_, hs⟩
    · cases q.writeAtomic <;> simp [hz]
    · cases q.writeAtomic <;> simpa [hz, Fifo.set] using h
  have ht : [byte].take (q.capacity - q.bytes.length) = [byte] :=
    List.take_of_length_le (by rw [List.length_singleton]; omega)
  have hne : ¬ (q.capacity - q.bytes.length < [byte].length ∧ q.writeAtomic) := fun hx => hc hx.1
  have hst : s.store s.iptr 1 [byte] = some { s with data := Ring.copy s.data s.iptr [byte] } :=
    store_nat (m := 1) le_rfl hs.input
  obtain ⟨-, hcount, hx⟩ := h.sound.contents
  have hfree := h.count
  rw [if_neg (by omega), if_neg hne, if_neg hne, ht]
  refine ⟨_, by rw [hst]; rfl, ?_, ?_⟩
  · obtain ⟨hi, ho⟩ := hs
    have hin : (setIptr (if s.iptr + 1 ≥ s.len then (0 : Int) else s.iptr + 1)
        { s with data := Ring.copy s.data s.iptr [byte] }).Inside := by
      refine ⟨?_, ho⟩
      simp only [setIptr]
      split_ifs <;> omega
    refine ⟨hin.sound, ?_, hl, h.readAtomic, h.writeAtomic⟩
    have hone : (setIptr (if s.iptr + 1 ≥ s.len then (0 : Int) else s.iptr + 1)
        { s with data := Ring.copy s.data s.iptr [byte] }).count = s.count + [byte].length := by
      simp only [QueueState.count, queueContents, setIptr, List.length_singleton] at hcount hx hfree ⊢
      split_ifs at hcount hx hfree ⊢ <;> omega
    have hrow : Ring.fill s.len s.data s.iptr [byte] = Ring.copy s.data s.iptr [byte] := Ring.fill_row hi
    rw [QueueState.held, hone, Fifo.set, ← h.held]
    exact hrow ▸ Ring.span_fill hi.le h.sound.input_mod hcount
  · refine ⟨?_, hs.output⟩
    have := hs.input
    simp only [setIptr]
    split_ifs <;> omega

/-- A byte is read. -/
theorem Models.readByte (h : s.Models q) (hs : s.Inside) :
    ∃ s', queueReadByte s = some ((q.act .readByte).1, s') ∧ s'.Models (q.act .readByte).2 ∧ s'.Inside := by
  rw [queueReadByte, h.contents, Fifo.act]
  have hh := h.held
  cases hb : q.bytes with
  | nil => exact ⟨s, rfl, h, hs⟩
  | cons byte bs =>
    have hcount := h.count
    rw [hb, List.length_cons] at hcount
    obtain ⟨hi, ho⟩ := hs
    have hcells : Ring.span s.len s.data s.optr 1 ++ Ring.span s.len s.data (s.optr + 1) bs.length = byte :: bs := by
      rw [← Ring.span_add, Nat.add_comm, ← hcount, ← hb]
      exact hh
    have hld : s.load s.optr 1 = some [byte] := by
      rw [QueueState.load, if_pos ⟨by omega, by omega, by omega⟩, Int.toNat_natCast]
      rw [Ring.span_row (by omega)] at hcells
      exact congrArg some (List.append_inj_left hcells Ring.length_fetch)
    have hin : (s.setOptr (if s.optr + 1 ≥ s.len then (0 : Int) else s.optr + 1)).Inside := by
      refine ⟨hi, ?_⟩
      simp only [setOptr]
      split_ifs <;> omega
    have hone : (s.setOptr (if s.optr + 1 ≥ s.len then (0 : Int) else s.optr + 1)).count = bs.length := by
      simp only [QueueState.count, queueContents, setOptr] at hcount ⊢
      split_ifs at hcount ⊢ <;> omega
    refine ⟨s.setOptr (if s.optr + 1 ≥ s.len then (0 : Int) else s.optr + 1), ?_,
      ⟨hin.sound, ?_, h.len, h.readAtomic, h.writeAtomic⟩, hin⟩
    · dsimp only
      rw [if_neg (by rw [List.length_cons]; omega), hld]
      rfl
    · rw [QueueState.held, hone]
      have happ : Ring.span s.len s.data s.optr 1 ++ Ring.span s.len s.data (s.optr + 1) bs.length =
          [byte] ++ bs := hcells
      refine (Ring.span_modEq ?_).trans (List.append_inj_right happ Ring.length_span)
      simp only [setOptr]
      split_ifs with hw
      · have he : s.optr + 1 = s.len := by omega
        rw [he, Nat.mod_self]
        exact Nat.zero_mod _
      · congr 1

theorem Models.flush (h : s.Models q) : (queueFlush s).Models (q.set []) := by
  have hi := h.sound.input
  have hp := h.sound.pos
  have hz : (queueFlush s).count = 0 := by simp [QueueState.count, queueContents, queueFlush, setOptr]
  refine ⟨⟨hi, by simpa [queueFlush, setOptr] using hi, ?_, ?_⟩, ?_, h.len, h.readAtomic, h.writeAtomic⟩
  · simp only [queueFlush, setOptr, Int.toNat_natCast]
    omega
  · simp only [queueFlush, setOptr, Int.toNat_natCast]
    omega
  · rw [QueueState.held, hz]
    rfl

end Operations

/-- The input pointer stands at the start of the buffer only before the first write. -/
structure Blockwise (s : QueueState) (q : Fifo) : Prop extends s.Models q where
  start : s.iptr = 0 → s.optr = 0

section Steps

variable {s : QueueState} {q : Fifo} {op : QueueOp}

theorem init_models (capacity : Nat) (readAtomic writeAtomic : Bool) (data : Nat → UInt8) :
    (queueInit capacity readAtomic writeAtomic data).Models ⟨capacity, readAtomic, writeAtomic, []⟩ := by
  refine ⟨⟨Nat.zero_le _, Nat.zero_le _, ?_, ?_⟩, rfl, rfl, rfl, rfl⟩
  · exact fun h => absurd h.symm (Nat.succ_ne_zero capacity)
  · exact fun h => absurd h.symm (Nat.succ_ne_zero capacity)

theorem Blockwise.read (h : s.Blockwise q) (n : Nat) :
    ∃ s', queueRead n s = some (q.view n, s') ∧ s'.Blockwise (q.read n) := by
  have hm := h.toModels
  have hc := hm.sound.contents
  have hp := hm.sound.pos
  have he : s.iptr ≠ 0 ∨ s.optr + min n s.count ≠ s.len := by
    by_cases hz : s.iptr = 0
    · have ho := h.start hz
      exact .inr (by omega)
    · exact .inl hz
  obtain ⟨s', ht, hs, hi, ho⟩ := hm.read he
  refine ⟨s', ht, hs, fun hz => ?_⟩
  have hz' : s.iptr = 0 := hi ▸ hz
  have hx := h.start hz'
  rw [ho, nextOptr]
  split_ifs <;> omega

theorem Blockwise.put {bs : List UInt8} (h : s.Blockwise q) (h0 : 0 < bs.length)
    (hn : bs.length ≤ q.capacity - q.bytes.length) : (s.put bs).Blockwise (q.set (q.bytes ++ bs)) := by
  refine ⟨h.toModels.put h0 hn, fun hz => ?_⟩
  -- a write that takes anything leaves the start
  have hz' : s.nextIptr bs.length = 0 := hz
  rw [nextIptr] at hz'
  split_ifs at hz' <;> omega

/-- An operation on several bytes. -/
theorem Blockwise.step (h : s.Blockwise q) (hop : ¬ op.Bytewise) :
    (queueTick s op).2 = (q.tick op).2 ∧ (queueTick s op).1.Blockwise (q.tick op).1 := by
  have hm := h.toModels
  cases op with
  | write bs =>
    obtain ⟨s', ht, hs, ho, hi⟩ := @Models.write s q bs hm
    simp only [queueTick, QueueOp.act, ht]
    refine ⟨rfl, hs, fun hz => ?_⟩
    rw [hi] at hz
    split_ifs at hz with hr
    · exact ho.trans (h.start hz)
    · have hpos := List.length_pos_iff.mpr hr
      rw [nextIptr] at hz
      split_ifs at hz <;> omega
  | read n =>
    obtain ⟨s', ht, hs⟩ := h.read n
    simp only [queueTick, QueueOp.act, ht]
    exact ⟨rfl, hs⟩
  | view n =>
    have hv := hm.view (n := n)
    simp only [queueTick, QueueOp.act, hv]
    exact ⟨rfl, h⟩
  | flush =>
    refine ⟨rfl, hm.flush, fun hz => ?_⟩
    have hz' : s.iptr = 0 := hz
    change ((s.iptr : Int)).toNat = 0
    omega
  | writeByte byte => exact absurd trivial hop
  | readByte => exact absurd trivial hop

/-- Any operation that does not leave a pointer behind the last cell. -/
theorem Models.step (h : s.Models q) (hs : s.Inside) (hop : ¬ s.MeetsEnd op) :
    (queueTick s op).2 = (q.tick op).2 ∧ (queueTick s op).1.Models (q.tick op).1 ∧
      (queueTick s op).1.Inside := by
  cases op with
  | write bs =>
    obtain ⟨s', ht, hm, ho, hi⟩ := @Models.write s q bs h
    simp only [queueTick, QueueOp.act, ht]
    have hlen := hm.len.trans h.len.symm
    refine ⟨rfl, hm, ?_, by rw [ho, hlen]; exact hs.output⟩
    have hn : s.iptr + min bs.length (queueFreeSpace s).toNat ≠ s.len := hop
    rw [h.free, Int.toNat_natCast] at hn
    have hbound := hm.sound.input
    rw [hi]
    split_ifs with hr
    · exact hlen ▸ hs.input
    · rw [hi, if_neg hr] at hbound
      have hlr : (q.room bs).length = min bs.length (q.capacity - q.bytes.length) := by
        rw [Fifo.room] at hr ⊢
        split_ifs at hr ⊢
        · exact absurd rfl hr
        · rw [List.length_take, Nat.min_comm]
      have hx := hs.input
      have hl := h.len
      rw [nextIptr] at hbound ⊢
      split_ifs at hbound ⊢ <;> omega
  | read n =>
    have hn : s.optr + min n (queueContents s).toNat ≠ s.len := hop
    obtain ⟨s', ht, hm, hi, ho⟩ := h.read (n := n) (.inr hn)
    simp only [queueTick, QueueOp.act, ht]
    have hlen := hm.len.trans (show (q.read n).capacity + 1 = s.len by
      rw [h.len, Fifo.read]
      split_ifs <;> rfl)
    refine ⟨rfl, hm, by rw [hi, hlen]; exact hs.input, ?_⟩
    have hbound := hm.sound.output
    have hcount : s.count = (queueContents s).toNat := rfl
    have hx := hs.output
    have hc := h.sound.contents.2.1
    rw [ho, nextOptr, hcount] at hbound ⊢
    split_ifs at hbound ⊢ <;> omega
  | view n =>
    have hv := h.view (n := n)
    simp only [queueTick, QueueOp.act, hv]
    exact ⟨rfl, h, hs⟩
  | flush =>
    refine ⟨rfl, h.flush, hs.input, ?_⟩
    have hx := hs.input
    change ((s.iptr : Int)).toNat < s.len
    omega
  | writeByte byte =>
    obtain ⟨s', ht, hm, hi⟩ := h.writeByte hs byte
    simp only [queueTick, QueueOp.act, ht]
    exact ⟨rfl, hm, hi⟩
  | readByte =>
    obtain ⟨s', ht, hm, hi⟩ := h.readByte hs
    simp only [queueTick, QueueOp.act, ht]
    exact ⟨rfl, hm, hi⟩

end Steps

end QueueState

section Runs

variable (capacity : Nat) (readAtomic writeAtomic : Bool) (data : Nat → UInt8) (ops : List QueueOp)

/-- What the functions that count say agrees with what the queue holds. -/
structure QueueState.Tells (s : QueueState) (q : Fifo) : Prop where
  held : s.held = q.bytes
  contents : queueContents s = q.bytes.length
  freeSpace : queueFreeSpace s = (q.capacity - q.bytes.length : Nat)
  empty : queueEmpty s = true ↔ q.bytes = []

theorem QueueState.Models.tells {s : QueueState} {q : Fifo} (h : s.Models q) : s.Tells q :=
  ⟨h.held, h.contents, h.free, h.empty⟩

/-- In every run of operations on several bytes each returns what it should, and none leaves
the buffer. -/
theorem queue_in_order (hops : ∀ op ∈ ops, ¬ op.Bytewise) :
    let r := Runs.exec queueTick ops (queueInit capacity readAtomic writeAtomic data)
    let a := Runs.exec Fifo.tick ops ⟨capacity, readAtomic, writeAtomic, []⟩
    r.2 = a.2 ∧ r.1.Tells a.1 := by
  have hinit := QueueState.init_models capacity readAtomic writeAtomic data
  have hrun := Runs.exec_refines (f := queueTick) (g := Fifo.tick) (R := QueueState.Blockwise)
    (fun s q op hop h => h.step hop) ops _ _ (Runs.Along.of_forall (p := fun op => ¬ op.Bytewise) ops _ hops)
    ⟨hinit, fun _ => rfl⟩
  exact ⟨hrun.1, hrun.2.toModels.tells⟩

/-- A queue of three bytes that goes around its end, refuses a fourth, and is flushed. -/
theorem queue_in_order_around :
    let ops := [.write [1, 2, 3], .read 2, .write [4, 5], .write [6], .view 2, .read 9, .flush]
    let r := Runs.exec queueTick ops (queueInit 3 false true fun _ => 0)
    let a := Runs.exec Fifo.tick ops ⟨3, false, true, []⟩
    r.2 = a.2 ∧ r.1.Tells a.1 :=
  queue_in_order 3 false true (fun _ => 0) _ (by decide)

/-- So it is with all operations, as long as no write or read of several bytes ends with the last
cell of the buffer. -/
theorem queue_in_order_bytewise
    (hops : Runs.Along queueTick (fun s op => ¬ s.MeetsEnd op) ops
      (queueInit capacity readAtomic writeAtomic data)) :
    let r := Runs.exec queueTick ops (queueInit capacity readAtomic writeAtomic data)
    let a := Runs.exec Fifo.tick ops ⟨capacity, readAtomic, writeAtomic, []⟩
    r.2 = a.2 ∧ r.1.Tells a.1 := by
  have hinit := QueueState.init_models capacity readAtomic writeAtomic data
  have hrun := Runs.exec_refines (f := queueTick) (g := Fifo.tick)
    (R := fun s q => s.Models q ∧ s.Inside) (fun s q op hop h => h.1.step h.2 hop) ops _ _ hops
    ⟨hinit, Nat.succ_pos capacity, Nat.succ_pos capacity⟩
  exact ⟨hrun.1, hrun.2.1.tells⟩

/-- Bytes that are read one by one go around the end. -/
theorem queue_in_order_bytewise_around :
    let ops := [.write [1, 2], .readByte, .writeByte 3, .writeByte 4, .readByte, .readByte, .write [5], .read 2]
    let r := Runs.exec queueTick ops (queueInit 3 true true fun _ => 0)
    let a := Runs.exec Fifo.tick ops ⟨3, true, true, []⟩
    r.2 = a.2 ∧ r.1.Tells a.1 :=
  queue_in_order_bytewise 3 true true (fun _ => 0) _
    ⟨by decide, by decide, by decide, by decide, by decide, by decide, by decide, by decide, trivial⟩

end Runs

end OpenR2
