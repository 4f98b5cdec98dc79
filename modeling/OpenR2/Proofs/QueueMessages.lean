import OpenR2.Proofs.Queue

namespace OpenR2

open QueueState

section Frames

variable {msg rest : List UInt8} {q : Fifo} {n : Nat}

theorem decode_encode (hn : n < 65536) (rest : List UInt8) : decodeLength (encodeLength n ++ rest) = n := by
  simp only [decodeLength, encodeLength, List.cons_append, List.getD_cons_zero, List.getD_cons_succ,
    UInt8.toNat_ofNat']
  omega

theorem decode_length (hn : n < 65536) : decodeLength (encodeLength n) = n := by
  have h := decode_encode hn []
  rwa [List.append_nil] at h

@[simp] theorem length_encodeLength : (encodeLength n).length = 2 := rfl

@[simp] theorem Mailbox.length_frame : (Mailbox.frame msg).length = msg.length + 2 := by
  rw [Mailbox.frame, List.length_append, length_encodeLength, Nat.add_comm]

theorem Fifo.view_of_le (h : n ≤ q.bytes.length) : q.view n = ⟨n, q.bytes.take n⟩ := by
  rw [Fifo.view, if_neg fun hx => absurd hx.1 (by omega), List.length_take_of_le h]

theorem Fifo.read_of_le (h : n ≤ q.bytes.length) : q.read n = q.set (q.bytes.drop n) := by
  rw [Fifo.read, if_neg fun hx => absurd hx.1 (by omega)]

/-- Fewer bytes than are asked for. -/
theorem Fifo.view_of_lt (h : q.bytes.length < n) : (q.view n).ret ≠ n := by
  rw [Fifo.view]
  split_ifs
  · exact fun hx => absurd hx (by simp only; omega)
  · simp only [List.length_take]
    omega

end Frames

section Messages

variable {s : QueueState} {q : Fifo} {msg rest : List UInt8} {n : Nat}

/-- A part of what is there is read. -/
theorem QueueState.Blockwise.take (h : s.Blockwise q) {bs : List UInt8} (hb : q.bytes = bs ++ rest) :
    ∃ s', queueRead bs.length s = some (⟨bs.length, bs⟩, s') ∧ s'.Blockwise (q.set rest) := by
  have hn : bs.length ≤ q.bytes.length := by
    rw [hb, List.length_append]
    omega
  obtain ⟨s', ht, hs⟩ := h.read bs.length
  rw [Fifo.view_of_le hn, hb, List.take_left] at ht
  rw [Fifo.read_of_le hn, hb, List.drop_left] at hs
  exact ⟨s', ht, hs⟩

theorem QueueState.Blockwise.readMsg (h : s.Blockwise q) (hm : msg.length < 65536)
    (hb : q.bytes = Mailbox.frame msg ++ rest) (n : Nat) :
    ∃ s', queueReadMsg n s = some (⟨(msg.take n).length, msg.take n⟩, s') ∧ s'.Blockwise (q.set rest) := by
  rw [Mailbox.frame, List.append_assoc] at hb
  obtain ⟨s', ht, hs⟩ := h.take hb
  have ht : queueRead 2 s = some (⟨2, encodeLength msg.length⟩, s') := ht
  simp only [queueReadMsg, ht, Option.bind_eq_bind, Option.bind_some, decode_length hm]
  rw [if_neg (not_not.mpr rfl)]
  by_cases h0 : msg.length = 0
  · obtain rfl := List.length_eq_zero_iff.mp h0
    exact ⟨s', by simp, by simpa using hs⟩
  rw [if_neg h0]
  by_cases hl : msg.length > n
  · -- the buffer is too short: the rest is read, and dropped
    have hsplit : (q.set (msg ++ rest)).bytes = msg.take n ++ (msg.drop n ++ rest) := by
      rw [← List.append_assoc, List.take_append_drop]
      rfl
    have htake : (msg.take n).length = n := List.length_take_of_le hl.le
    obtain ⟨s₁, h1, hs1⟩ := hs.take hsplit
    obtain ⟨s₂, h2, hs2⟩ := hs1.take (show _ = msg.drop n ++ rest from rfl)
    rw [htake] at h1
    rw [List.length_drop] at h2
    have hdrop : ((msg.length : Int) - n).toNat = msg.length - n := by omega
    refine ⟨s₂, ?_, hs2⟩
    rw [if_pos hl, h1]
    simp only [Option.bind_some, hdrop, h2, htake]
  · have htake : msg.take n = msg := List.take_of_length_le (by omega)
    obtain ⟨s₁, h1, hs1⟩ := hs.take (show _ = msg ++ rest from rfl)
    refine ⟨s₁, ?_, hs1⟩
    rw [if_neg hl, h1, htake]

/-- A queue without a message. -/
theorem QueueState.Blockwise.readMsg_empty (h : s.Blockwise q) (hb : q.bytes = []) (n : Nat) :
    ∃ s', queueReadMsg n s = some (⟨-1, []⟩, s') ∧ s'.Blockwise q := by
  have hr : (q.view 2).ret ≠ 2 := Fifo.view_of_lt (by rw [hb, List.length_nil]; decide)
  obtain ⟨s', ht, hs⟩ := h.read 2
  have hq : q.read 2 = q := by
    rw [Fifo.read]
    split_ifs
    · rfl
    · rw [hb, List.drop_nil, ← hb]
      rfl
  refine ⟨s', ?_, hq ▸ hs⟩
  simp only [queueReadMsg, ht, Option.bind_eq_bind, Option.bind_some]
  rw [if_pos hr]

theorem QueueState.Models.testMsg (h : s.Models q) (hm : msg.length < 65536)
    (hb : q.bytes = Mailbox.frame msg ++ rest) : queueStateTestMsg s = some ⟨msg.length, []⟩ := by
  have hn : 2 ≤ q.bytes.length := by
    rw [hb, List.length_append, Mailbox.length_frame]
    omega
  have htake : q.bytes.take 2 = encodeLength msg.length := by
    rw [hb, Mailbox.frame, List.append_assoc]
    exact List.take_left' length_encodeLength
  simp only [queueStateTestMsg, h.view, Fifo.view_of_le hn, htake, Option.bind_eq_bind, Option.bind_some,
    decode_length hm]
  exact congrArg (fun r => some (QueueResult.mk r [])) (if_neg (not_not.mpr rfl))

theorem QueueState.Models.testMsg_empty (h : s.Models q) (hb : q.bytes = []) :
    queueStateTestMsg s = some ⟨-1, []⟩ := by
  have hr : (q.view 2).ret ≠ 2 := Fifo.view_of_lt (by rw [hb, List.length_nil]; decide)
  simp only [queueStateTestMsg, h.view, Option.bind_eq_bind, Option.bind_some]
  rw [if_pos hr]

/-- A message is written as its frame would be. -/
theorem QueueState.Sound.writeMsg (h : s.Sound) (hn : (queueFreeSpace s) % 65536 ≥ msg.length + 2) :
    queueWriteMsg msg s = some (⟨msg.length, []⟩, s.put (Mailbox.frame msg)) := by
  have hroom : msg.length + 2 ≤ s.len - 1 - s.count := by
    rw [h.free] at hn
    omega
  obtain ⟨-, hc, hx⟩ := h.contents
  obtain ⟨hi, ho, hh, hl⟩ := h
  have hst : ∀ (t : QueueState) (off n : Int) (o m : Nat) (bs : List UInt8), t.len = s.len → off = o →
      n = m → m ≤ bs.length → o + m ≤ s.len →
      t.store off n bs = some { t with data := Ring.copy t.data o (bs.take m) } := by
    rintro t _ _ o m bs ht rfl rfl hm ho
    exact store_nat hm (by rwa [ht])
  have hlen : (encodeLength msg.length).length = 2 := rfl
  rw [queueWriteMsg, if_neg (by omega), QueueState.put, Mailbox.length_frame]
  by_cases hw : writeFits ((msg.length : Int) + 2) s
  · have hw' : s.iptr < s.optr ∨ (s.len : Int) - s.iptr ≥ (msg.length : Int) + 2 := hw
    have hrow : s.iptr + (msg.length + 2) ≤ s.len := by
      simp only [count, queueContents] at hroom hx
      split_ifs at hroom hx <;> omega
    have hnext : s.nextIptr (msg.length + 2) = s.iptr + (msg.length + 2) := by
      rw [nextIptr, if_pos (by omega)]
    have h1 := hst s s.iptr 2 s.iptr 2 (encodeLength msg.length) rfl rfl rfl le_rfl (by omega)
    have h2 := hst { s with data := Ring.copy s.data s.iptr (encodeLength msg.length) } (s.iptr + 2)
      msg.length (s.iptr + 2) msg.length msg rfl (by omega) rfl le_rfl (by omega)
    have hcopy : Ring.copy (Ring.copy s.data s.iptr (encodeLength msg.length)) (s.iptr + 2) msg =
        Ring.copy s.data s.iptr (encodeLength msg.length ++ msg) := Ring.copy_append _
    rw [List.take_of_length_le hlen.le] at h1
    rw [List.take_length] at h2
    rw [if_pos hw, h1]
    simp only [Option.bind_eq_bind, Option.bind_some, h2]
    rw [if_neg (by omega), hnext, Ring.fill_row (by rw [Mailbox.length_frame]; exact hrow), Mailbox.frame, ← hcopy]
    rfl
  have hw' : ¬ (s.iptr < s.optr ∨ (s.len : Int) - s.iptr ≥ (msg.length : Int) + 2) := hw
  have hnext : s.nextIptr (msg.length + 2) = msg.length + 2 - (s.len - s.iptr) := by
    rw [nextIptr, if_neg (by omega)]
  have hend : (s.len : Int) - s.iptr = (s.len - s.iptr : Nat) := by omega
  have hptr : (msg.length : Int) + 2 - (s.len - s.iptr : Nat) = (msg.length + 2 - (s.len - s.iptr) : Nat) := by
    omega
  rw [if_neg hw, hnext, Ring.fill, Mailbox.frame]
  by_cases ht : s.len - s.iptr ≥ 2
  · -- the message goes on at the start of the buffer
    have h1 := hst s s.iptr 2 s.iptr 2 (encodeLength msg.length) rfl rfl rfl le_rfl (by omega)
    rw [List.take_of_length_le hlen.le] at h1
    have h2 := hst { s with data := Ring.copy s.data s.iptr (encodeLength msg.length) } (s.iptr + 2)
      ((s.len - s.iptr : Nat) - 2) (s.iptr + 2) (s.len - s.iptr - 2) msg rfl (by omega) (by omega) (by omega)
      (by omega)
    have h3 := hst { s with data := Ring.copy s.data s.iptr ((encodeLength msg.length ++ msg).take (s.len - s.iptr)) }
      0 ((msg.length : Int) + 2 - (s.len - s.iptr : Nat)) 0 (msg.length + 2 - (s.len - s.iptr))
      (msg.drop (s.len - s.iptr - 2)) rfl rfl (by omega) (by rw [List.length_drop]; omega) (by omega)
    have hcopy : Ring.copy (Ring.copy s.data s.iptr (encodeLength msg.length)) (s.iptr + 2)
        (msg.take (s.len - s.iptr - 2)) =
        Ring.copy s.data s.iptr (encodeLength msg.length ++ msg.take (s.len - s.iptr - 2)) :=
      Ring.copy_append _
    have hfirst : (encodeLength msg.length ++ msg).take (s.len - s.iptr) =
        encodeLength msg.length ++ msg.take (s.len - s.iptr - 2) := by
      rw [List.take_append, List.take_of_length_le (by omega), hlen]
    have hlast : (encodeLength msg.length ++ msg).drop (s.len - s.iptr) = msg.drop (s.len - s.iptr - 2) := by
      rw [List.drop_append, List.drop_of_length_le (by omega), hlen, List.nil_append]
    have hwhole : (msg.drop (s.len - s.iptr - 2)).take (msg.length + 2 - (s.len - s.iptr)) =
        msg.drop (s.len - s.iptr - 2) := List.take_of_length_le (by rw [List.length_drop]; omega)
    have htn : (((s.len - s.iptr : Nat) : Int) - 2).toNat = s.len - s.iptr - 2 := by omega
    rw [hend, if_pos (by omega), h1]
    simp only [Option.bind_eq_bind, Option.bind_some, htn]
    rw [h2, Option.bind_some, hcopy, ← hfirst, h3, Option.bind_some, hlast, hwhole]
    rw [hptr]
    rfl
  · -- its length does
    have h1 := hst s s.iptr (s.len - s.iptr : Nat) s.iptr (s.len - s.iptr) (encodeLength msg.length) rfl rfl rfl
      (by omega) (by omega)
    have h2 := hst { s with data := Ring.copy s.data s.iptr ((encodeLength msg.length).take (s.len - s.iptr)) }
      0 (2 - (s.len - s.iptr : Nat)) 0 (2 - (s.len - s.iptr)) ((encodeLength msg.length).drop (s.len - s.iptr))
      rfl rfl (by omega) (by rw [List.length_drop]; omega) (by omega)
    have hrest : ((encodeLength msg.length).drop (s.len - s.iptr)).take (2 - (s.len - s.iptr)) =
        (encodeLength msg.length).drop (s.len - s.iptr) :=
      List.take_of_length_le (by rw [List.length_drop]; omega)
    rw [hrest] at h2
    have hlr : ((encodeLength msg.length).drop (s.len - s.iptr)).length = 2 - (s.len - s.iptr) := List.length_drop
    have h3 := hst { s with data := Ring.copy (Ring.copy s.data s.iptr
        ((encodeLength msg.length).take (s.len - s.iptr))) 0 ((encodeLength msg.length).drop (s.len - s.iptr)) }
      (2 - (s.len - s.iptr : Nat)) msg.length (2 - (s.len - s.iptr)) msg.length msg rfl (by omega) rfl le_rfl (by omega)
    rw [List.take_length] at h3
    have hcopy := @Ring.copy_append _ (Ring.copy s.data s.iptr
      ((encodeLength msg.length).take (s.len - s.iptr))) 0 ((encodeLength msg.length).drop (s.len - s.iptr)) msg
    rw [hlr, Nat.zero_add] at hcopy
    have hz : s.len - s.iptr - (encodeLength msg.length).length = 0 := by omega
    have hfirst : (encodeLength msg.length ++ msg).take (s.len - s.iptr) =
        (encodeLength msg.length).take (s.len - s.iptr) := by
      rw [List.take_append, hz, List.take_zero, List.append_nil]
    have hlast : (encodeLength msg.length ++ msg).drop (s.len - s.iptr) =
        (encodeLength msg.length).drop (s.len - s.iptr) ++ msg := by
      rw [List.drop_append, hz, List.drop_zero]
    rw [hend, if_neg (by omega), Int.toNat_natCast, h1]
    simp only [Option.bind_eq_bind, Option.bind_some]
    rw [h2, Option.bind_some, h3, Option.bind_some, hptr, hfirst, hlast, ← hcopy]
    rfl

end Messages

/-- The queue is one with these messages. -/
structure QueueState.Carries (s : QueueState) (b : Mailbox) (q : Fifo) : Prop where
  queue : s.Blockwise q
  capacity : q.capacity = b.capacity
  bytes : q.bytes = b.bytes
  short : ∀ msg ∈ b.msgs, msg.length < 65536

section Runs

variable {s : QueueState} {b : Mailbox} {q : Fifo}

/-- One operation on the messages. -/
theorem QueueState.Carries.step (h : s.Carries b q) (op : MsgOp) :
    (msgTick s op).2 = (b.tick op).2 ∧ ∃ q', (msgTick s op).1.Carries (b.tick op).1 q' := by
  obtain ⟨hq, hc, hb, hs⟩ := h
  have hm := hq.toModels
  cases op with
  | write msg =>
    have hfree := hm.free
    rw [hc, hb] at hfree
    simp only [msgTick, MsgOp.act, Mailbox.tick, Mailbox.act]
    by_cases hr : (b.capacity - b.bytes.length) % 65536 < msg.length + 2
    · have ht : queueWriteMsg msg s = some (⟨-1, []⟩, s) := by
        rw [queueWriteMsg, hfree]
        exact if_pos (by omega)
      rw [ht, if_pos hr]
      exact ⟨rfl, q, hq, hc, hb, hs⟩
    · have ht := hm.sound.writeMsg (show (queueFreeSpace s) % 65536 ≥ msg.length + 2 by rw [hfree]; omega)
      rw [ht, if_neg hr]
      refine ⟨rfl, q.set (q.bytes ++ Mailbox.frame msg), ?_, hc, ?_, fun m hx => ?_⟩
      · refine hq.put (by rw [Mailbox.length_frame]; omega) ?_
        rw [Mailbox.length_frame, hc, hb]
        omega
      · simp only [Fifo.set, Mailbox.bytes, List.flatMap_append, List.flatMap_singleton]
        exact congrArg (· ++ Mailbox.frame msg) hb
      · rcases List.mem_append.mp hx with hx | hx
        · exact hs m hx
        · rw [List.mem_singleton.mp hx]
          omega
  | read n =>
    simp only [msgTick, MsgOp.act, Mailbox.tick, Mailbox.act]
    cases hl : b.msgs with
    | nil =>
      have he : q.bytes = [] := by rw [hb, Mailbox.bytes, hl, List.flatMap_nil]
      obtain ⟨s', ht, hs'⟩ := hq.readMsg_empty he n
      rw [ht]
      exact ⟨rfl, q, hs', hc, hb, hs⟩
    | cons msg msgs =>
      have he : q.bytes = Mailbox.frame msg ++ (Mailbox.mk b.capacity msgs).bytes := by
        rw [hb, Mailbox.bytes, hl, List.flatMap_cons]
        rfl
      obtain ⟨s', ht, hs'⟩ := hq.readMsg (hs msg (hl ▸ List.mem_cons_self)) he n
      rw [ht]
      exact ⟨rfl, _, hs', hc, rfl, fun m hx => hs m (hl ▸ List.mem_cons_of_mem msg hx)⟩
  | test =>
    simp only [msgTick, MsgOp.act, Mailbox.tick, Mailbox.act]
    cases hl : b.msgs with
    | nil =>
      have he : q.bytes = [] := by rw [hb, Mailbox.bytes, hl, List.flatMap_nil]
      rw [hm.testMsg_empty he]
      exact ⟨rfl, q, hq, hc, hb, hs⟩
    | cons msg msgs =>
      have he : q.bytes = Mailbox.frame msg ++ (Mailbox.mk b.capacity msgs).bytes := by
        rw [hb, Mailbox.bytes, hl, List.flatMap_cons]
        rfl
      rw [hm.testMsg (hs msg (hl ▸ List.mem_cons_self)) he]
      exact ⟨rfl, q, hq, hc, hb, hs⟩
  | flush =>
    have hf := @QueueState.Blockwise.step s q .flush hq id
    exact ⟨rfl, q.set [], hf.2, hc, rfl, by simp [Mailbox.tick, Mailbox.act]⟩

/-- In every run of operations on the messages of a queue they come out whole and in order, cut
only to the buffer of the reader, and nothing is read or written beyond the queue's. -/
theorem messages_whole (capacity : Nat) (readAtomic writeAtomic : Bool) (data : Nat → UInt8)
    (ops : List MsgOp) :
    (Runs.exec msgTick ops (queueInit capacity readAtomic writeAtomic data)).2 =
      (Runs.exec Mailbox.tick ops ⟨capacity, []⟩).2 := by
  have hinit : (queueInit capacity readAtomic writeAtomic data).Carries ⟨capacity, []⟩
      ⟨capacity, readAtomic, writeAtomic, []⟩ :=
    ⟨⟨QueueState.init_models capacity readAtomic writeAtomic data, fun _ => rfl⟩, rfl, rfl, by simp⟩
  have hstep : ∀ s b op, True → (∃ q, QueueState.Carries s b q) →
      (msgTick s op).2 = (b.tick op).2 ∧ ∃ q', (msgTick s op).1.Carries (b.tick op).1 q' := by
    rintro s b op - ⟨q, h⟩
    exact h.step op
  exact (Runs.exec_refines hstep ops _ _ (Runs.Along.always (fun _ _ => trivial) ops _) ⟨_, hinit⟩).1

end Runs

end OpenR2
