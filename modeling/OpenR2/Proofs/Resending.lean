import OpenR2.Write

namespace OpenR2

section Write

variable {β : Type*}

/-- The buffer has gone out once: what was accepted is a first part of it, all of it
where the loop ended without an error, and was counted. -/
structure SentOnce (buf : List β) (w : Writing β) : Prop where
  part : w.sent <+: buf
  whole : w.failed = false → buf.length ≤ w.wrote → w.sent = buf
  count : w.wrote = w.sent.length
  bound : w.wrote ≤ buf.length

/-- The bytes at the start of the buffer, which each write sends, are those that were
next to be sent. -/
def Repeats (buf : List β) : Nat → List IoWrite → Prop
  | _, [] => True
  | w, r :: rs =>
    w < buf.length →
      match r with
      | .failed => True
      | .again => Repeats buf w rs
      | .accepted n => buf.take n <+: buf.drop w ∧ Repeats buf (w + n) rs

variable {buf : List β} {rs : List IoWrite} {w : Writing β}

/-- What is sent stays sent. -/
theorem writeLoop_grows (bufSize : Nat) : w.sent <+: (writeLoop buf bufSize rs w).sent := by
  induction rs generalizing w with
  | nil => exact List.prefix_refl _
  | cons r rs ih =>
    unfold writeLoop
    split_ifs
    · cases r with
      | failed => exact List.prefix_refl _
      | again => exact ih
      | accepted n => exact (List.prefix_append w.sent (buf.take n)).trans (@ih ⟨_, _, _⟩)
    · exact List.prefix_refl _

/-- The next bytes continue a first part of the buffer. -/
theorem prefix_append_iff {n : Nat} {as : List β} (hn : n ≤ buf.length) :
    buf.take n ++ as <+: buf ↔ as <+: buf.drop n := by
  constructor
  · rintro ⟨bs, hb⟩
    refine ⟨bs, ?_⟩
    have hl : (buf.take n).length = n := List.length_take_of_le hn
    have hd := congrArg (List.drop n) hb
    rw [List.append_assoc] at hd
    rwa [List.drop_left' hl] at hd
  · rintro ⟨bs, hb⟩
    exact ⟨bs, by rw [List.append_assoc, hb, List.take_append_drop]⟩

/-- From where the first bytes are out, the rest goes out once or not. -/
theorem writeLoop_sentOnce_iff (hn : ∀ n, .accepted n ∈ rs → n ≤ buf.length)
    (hs : w.sent = buf.take w.wrote) (hl : w.wrote ≤ buf.length) (hf : w.failed = false) :
    SentOnce buf (writeLoop buf buf.length rs w) ↔ Repeats buf w.wrote rs := by
  have hc : w.wrote = w.sent.length := by rw [hs, List.length_take_of_le hl]
  have hp : w.sent <+: buf := hs ▸ List.take_prefix _ _
  have hw : buf.length ≤ w.wrote → w.sent = buf := fun h => by
    rw [hs, List.take_of_length_le h]
  induction rs generalizing w with
  | nil => exact iff_of_true ⟨hp, fun _ => hw, hc, hl⟩ trivial
  | cons r rs ih =>
    have hr : ∀ n, .accepted n ∈ rs → n ≤ buf.length := fun n hm => hn n (List.mem_cons_of_mem _ hm)
    unfold writeLoop Repeats
    by_cases hlt : w.wrote < buf.length
    · simp only [if_pos hlt, forall_prop_of_true hlt]
      cases r with
      | failed => exact iff_of_true ⟨hp, nofun, hc, hl⟩ trivial
      | again => exact ih hr hs hl hf hc hp hw
      | accepted n =>
        have hnl : (buf.take n).length = n := List.length_take_of_le (hn n List.mem_cons_self)
        by_cases hx : buf.take n <+: buf.drop w.wrote
        · have hle := hx.length_le
          rw [hnl, List.length_drop] at hle
          have ht : w.sent ++ buf.take n = buf.take (w.wrote + n) := by
            have he := List.prefix_iff_eq_take.mp hx
            rw [hnl] at he
            rw [hs, he, ← List.take_add]
          have hm : w.wrote + n ≤ buf.length := by omega
          refine (@ih ⟨w.sent ++ buf.take n, w.wrote + n, w.failed⟩ hr ht hm hf ?_ ?_ ?_).trans
            ⟨fun h => ⟨hx, h⟩, And.right⟩
          · rw [List.length_append, hnl, ← hc]
          · exact ht ▸ List.take_prefix _ _
          · intro hb
            change w.sent ++ buf.take n = buf
            rw [ht, List.take_of_length_le hb]
        · refine iff_of_false (fun h => hx ?_) fun h => hx h.1
          have hg := (writeLoop_grows buf.length).trans h.part
          rw [hs] at hg
          exact (prefix_append_iff hl).mp hg
    · simp only [if_neg hlt]
      exact iff_of_true ⟨hp, fun _ => hw, hc, hl⟩ fun h => absurd h hlt

/-- A buffer is sent once as long as the bytes that go out again, after a short write, are
those that were due. -/
theorem chanWrite_sentOnce_iff (buf : List β) (rs : List IoWrite)
    (hn : ∀ n, .accepted n ∈ rs → n ≤ buf.length) :
    SentOnce buf (chanWrite buf buf.length rs) ↔ Repeats buf 0 rs :=
  writeLoop_sentOnce_iff hn rfl (Nat.zero_le _) rfl

/-- Writes that come to nothing, and one that takes all. -/
theorem chanWrite_sentOnce_three :
    SentOnce [1, 2, 3] (chanWrite [1, 2, 3] 3 [.again, .accepted 0, .accepted 3]) ↔
      Repeats [1, 2, 3] 0 [.again, .accepted 0, .accepted 3] := by
  refine chanWrite_sentOnce_iff [1, 2, 3] _ fun n hn => ?_
  simp only [List.mem_cons, List.not_mem_nil, or_false, reduceCtorEq, false_or, IoWrite.accepted.injEq] at hn
  rcases hn with rfl | rfl
  · exact Nat.zero_le _
  · exact Nat.le_refl _

/-- Two bytes of three are accepted, and then all three of them. -/
theorem short_write_resends : ¬ ∀ (buf : List Nat) (rs : List IoWrite),
    (∀ n, .accepted n ∈ rs → n ≤ buf.length) → SentOnce buf (chanWrite buf buf.length rs) := by
  intro h
  have hs := (h [1, 2, 3] [.accepted 2, .accepted 3] fun n hn => by
    simp only [List.mem_cons, List.not_mem_nil, or_false, IoWrite.accepted.injEq] at hn
    rcases hn with rfl | rfl <;> decide).bound
  exact absurd hs (by decide)

end Write

end OpenR2
